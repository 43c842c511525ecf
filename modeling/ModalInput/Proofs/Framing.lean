/-
# ModalInput.Proofs.Framing -- what the command layer does not see

The command layer looks at no mapping, at none of the keys that wait, and at no event
that was told; it only puts keys in front of those that wait, and tells events after
those that were told.  So it does the same whatever the mappings are, whatever keys
wait behind the others, and whatever was told before (`Frame`).

* `framed` -- a resolver with other mappings, with more keys behind those that wait,
  and with events before those that were told.
* `commandResolved_framed`, `commandKey_framed` -- the command layer in a frame.
-/
import ModalInput.Resolver.CommandLayer

namespace ModalInput.Resolver

set_option autoImplicit false

/-- Mappings, keys that wait behind all others, and events that were told before all
others. -/
structure Frame where
  mappings : MappingStore
  behind : List Queued
  earlier : List EngineEvent

def framed (r : Resolver) (frame : Frame) : Resolver :=
  { r with
    mappings := frame.mappings
    typeahead := r.typeahead ++ frame.behind
    events := frame.earlier ++ r.events }

variable (r : Resolver) (frame : Frame)

@[simp] theorem keys_framed : (r.framed frame).keys = r.keys := rfl
@[simp] theorem modes_framed : (r.framed frame).modes = r.modes := rfl
@[simp] theorem pending_framed : (r.framed frame).pending = r.pending := rfl
@[simp] theorem recording_framed : (r.framed frame).recording = r.recording := rfl

/-- With no further keys and events, only the mappings change. -/
theorem framed_nil (mappings : MappingStore) :
    r.framed ⟨mappings, [], []⟩ = { r with mappings } := by
  simp only [framed, List.append_nil, List.nil_append]

/-! ## Events and queues -/

theorem emit_framed (event : EngineEvent) :
    (r.framed frame).emit event = (r.emit event).framed frame := by
  simp only [emit, framed, List.append_assoc]

theorem emitSteps_framed (steps : List ModeStep) :
    (r.framed frame).emitSteps steps = (r.emitSteps steps).framed frame := by
  simp only [emitSteps, framed, List.append_assoc]

theorem changeMode_framed (state : ModeState) :
    (r.framed frame).changeMode state = (r.changeMode state).framed frame :=
  emitSteps_framed { r with modes := (r.modes.set state).1 } frame _

theorem pushMode_framed (mode : Mode) :
    (r.framed frame).pushMode mode = (r.pushMode mode).framed frame :=
  emitSteps_framed { r with modes := (r.modes.push mode).1 } frame _

theorem popMode_framed : (r.framed frame).popMode = r.popMode.framed frame :=
  emitSteps_framed { r with modes := r.modes.pop.1 } frame _

theorem leaveTemporary_framed : (r.framed frame).leaveTemporary = r.leaveTemporary.framed frame :=
  emitSteps_framed { r with modes := r.modes.popAll.1 } frame _

theorem abort_framed : (r.framed frame).abort = r.abort.framed frame :=
  leaveTemporary_framed r.forget frame

/-- Keys that are put in front stay there. -/
theorem requeue_framed (keys : List Queued) :
    (r.framed frame).requeue keys = (r.requeue keys).framed frame := by
  simp only [requeue, framed, List.append_assoc]

/-! ## Complete commands -/

variable (options : OptionView)

theorem applyModeChange_framed (command : Command) :
    applyModeChange options (r.framed frame) command =
      (applyModeChange options r command).framed frame := by
  unfold applyModeChange
  rw [modes_framed]
  split
  · split
    · exact changeMode_framed r frame _
    · rfl
  · exact changeMode_framed r frame _

theorem applyKeymodel_framed (command : Command) :
    applyKeymodel options (r.framed frame) command =
      (applyKeymodel options r command).framed frame := by
  simp only [applyKeymodel, modes_framed]
  split
  · exact changeMode_framed r frame _
  · rfl

theorem complete_framed (command : Command) :
    complete options (r.framed frame) command = (complete options r command).framed frame := by
  simp only [complete, applyKeymodel_framed, modes_framed, emit_framed, applyModeChange_framed]
  rfl

theorem finishOperator_framed (operator motion : Command) :
    finishOperator options (r.framed frame) operator motion =
      (finishOperator options r operator motion).framed frame := by
  let count := Count.compose operator.count motion.count
  let command := (operator.withCount count).withArgument (.motion (motion.withCount count))
  let arguments : OperatorArguments :=
    { operatorPending := true, count, state := .ofMode .operatorPending }
  have told : (r.framed frame).leaveTemporary.emit (.command ⟨command, arguments⟩) =
      (r.leaveTemporary.emit (.command ⟨command, arguments⟩)).framed frame := by
    rw [leaveTemporary_framed, emit_framed]
  have changed := applyModeChange_framed
    (r.leaveTemporary.emit (.command ⟨command, arguments⟩)) frame options command
  show (applyModeChange options ((r.framed frame).leaveTemporary.emit _) command).forget = _
  rw [told, changed]
  rfl

theorem argumentDone_framed (command : Command) :
    argumentDone options (r.framed frame) command =
      (argumentDone options r command).framed frame := by
  simp only [argumentDone, pending_framed]
  split
  · exact finishOperator_framed r frame options _ command
  · exact complete_framed r frame options command

/-! ## Actions -/

theorem collectArgument_framed (command : Command) (keys : List Key) :
    collectArgument options (r.framed frame) command keys =
      (collectArgument options r command keys).framed frame := by
  unfold collectArgument
  rw [recording_framed]
  split
  · exact argumentDone_framed r frame options command
  · exact argumentDone_framed r frame options command
  · split
    · exact argumentDone_framed r frame options command
    · rfl
  · exact congrArg (·.await (.line command (promptOf keys) [])) (pushMode_framed r frame _)
  · rfl

theorem commandResolved_framed (action : Action) (keys : List Key) :
    commandResolved options (r.framed frame) action keys =
      (commandResolved options r action keys).framed frame := by
  unfold commandResolved
  rw [modes_framed]
  split
  · exact collectArgument_framed { r with pending := { r.pending with motionCount := none } }
      frame options _ keys
  · split
    · exact pushMode_framed { r with pending := { r.pending with
        registerCount := none, count := none, register := none
        operator := some ⟨typedCommand r.pending action, keys⟩ } } frame _
    · exact collectArgument_framed { r with pending := { r.pending with
        registerCount := none, count := none, register := none } } frame options _ keys

/-! ## Arguments -/

theorem registerKey_framed (key : Key) :
    registerKey (r.framed frame) key = (registerKey r key).framed frame := by
  simp only [registerKey, abort_framed, fail, emit_framed, pending_framed]
  split
  · rfl
  · split
    · rfl
    · split <;> rfl

theorem characterKey_framed (command : Command) (key : Key) :
    characterKey options (r.framed frame) command key =
      (characterKey options r command key).framed frame := by
  simp only [characterKey, abort_framed]
  split
  · rfl
  · split
    · exact argumentDone_framed r frame options _
    · rfl

theorem lineKey_framed (command : Command) (prompt : Char) (typed : List Char) (key : Key) :
    lineKey options (r.framed frame) command prompt typed key =
      (lineKey options r command prompt typed key).framed frame := by
  simp only [lineKey, popMode_framed]
  split
  · exact argumentDone_framed r.popMode frame options _
  · split
    · exact abort_framed r frame
    · rfl

theorem argumentKey_framed (awaiting : Awaiting) (key : Key) :
    argumentKey options (r.framed frame) awaiting key =
      (argumentKey options r awaiting key).framed frame := by
  cases awaiting with
  | register => exact registerKey_framed r frame key
  | character command => exact characterKey_framed r frame options command key
  | line command prompt typed => exact lineKey_framed r frame options command prompt typed key
  | offsets command => exact requeue_framed (r.await (.offsets command)) frame [.literal key]

/-! ## Keys of the table -/

theorem fireHeld_framed :
    fireHeld options (r.framed frame) = (fireHeld options r).framed frame := by
  simp only [fireHeld, pending_framed]
  split
  · rfl
  · rename_i held _
    let released : Resolver := { r with pending := { r.pending with held := none, keys := [] } }
    have requeued := requeue_framed released frame
      ((r.pending.keys.drop held.length).map .literal)
    exact (congrArg (commandResolved options · held.value (r.pending.keys.take held.length))
      requeued).trans (commandResolved_framed _ frame options _ _)

theorem unknownKey_framed (key : Key) :
    unknownKey options (r.framed frame) key = (unknownKey options r key).framed frame := by
  simp only [unknownKey, modes_framed, pending_framed]
  split
  · exact requeue_framed { r with pending := { r.pending with
      shown := r.pending.shown.dropLast } } frame _
  · split
    · exact complete_framed r frame options _
    · exact abort_framed r frame

theorem unknownKeys_framed :
    unknownKeys options (r.framed frame) = (unknownKeys options r).framed frame := by
  unfold unknownKeys
  rw [pending_framed]
  split
  · exact fireHeld_framed r frame options
  · split
    · exact unknownKey_framed { r with pending := { r.pending with keys := [] } } frame options _
    · exact abort_framed { r with pending := { r.pending with keys := [] } } frame

theorem lookUp_framed : lookUp options (r.framed frame) = (lookUp options r).framed frame := by
  unfold lookUp
  rw [keys_framed, modes_framed, pending_framed]
  split
  · exact commandResolved_framed { r with pending := { r.pending with held := none, keys := [] } }
      frame options _ _
  · rfl
  · rfl
  · exact unknownKeys_framed r frame options

theorem tableKey_framed (key : Key) :
    tableKey options (r.framed frame) key = (tableKey options r key).framed frame := by
  unfold tableKey
  dsimp only
  rw [pending_framed]
  split
  · exact argumentDone_framed { r with pending := { r.pending with
      keys := [], held := none, motionCount := none } } frame options _
  · exact lookUp_framed { r with pending := { r.pending with
      keys := r.pending.keys ++ [key] } } frame options

/-- A key does the same in every frame. -/
theorem commandKey_framed (key : Key) :
    commandKey options (r.framed frame) key = (commandKey options r key).framed frame := by
  unfold commandKey
  rw [modes_framed, pending_framed]
  split
  · exact argumentKey_framed { r with pending := { r.pending with awaiting := none } } frame
      options _ key
  · split
    · exact abort_framed r frame
    · have noted := tableKey_framed { r with pending := { r.pending with
        shown := r.pending.shown ++ [key] } } frame options key
      dsimp only
      split
      · split
        · rfl
        · split
          · rfl
          · exact noted
      · exact noted

end ModalInput.Resolver
