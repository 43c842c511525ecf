/-
# ModalInput.Proofs.Emission -- the events that an operation adds

The resolver only ever adds events at the end of those that nobody has taken yet.
`Emits P` says so, and that each added event has a property; it is followed here
through everything that tells events.

* `Emits.complete`, `Emits.finishOperator` -- the events of a complete command.
* `Emits.abort`, `Emits.changeMode` and the like -- changes of the mode.
-/
import ModalInput.Proofs.CommandStep

namespace ModalInput.Resolver

set_option autoImplicit false

/-- Events are added at the end, and all of them have a property. -/
def Emits (P : EngineEvent → Prop) (r r' : Resolver) : Prop :=
  ∃ told : List EngineEvent, r'.events = r.events ++ told ∧ ∀ event ∈ told, P event

/-- What is told of a command that is not the motion of an operator. -/
def toldComplete (options : OptionView) (r : Resolver) (command : Command) : ResolvedCommand :=
  ⟨command, { count := command.count, state := (r.applyKeymodel options command).modes.state }⟩

/-- What is told of an operator with its motion. -/
def toldOperator (operator motion : Command) : ResolvedCommand :=
  let count := Count.compose operator.count motion.count
  ⟨(operator.withCount count).withArgument (.motion (motion.withCount count)),
    { operatorPending := true, count, state := .ofMode .operatorPending }⟩

namespace Emits

variable {P : EngineEvent → Prop}

theorem of_events {r r' : Resolver} (same : r'.events = r.events) : Emits P r r' :=
  ⟨[], by simp [same], by simp⟩

theorem refl (r : Resolver) : Emits P r r := of_events rfl

theorem trans {a b c : Resolver} (first : Emits P a b) (second : Emits P b c) : Emits P a c := by
  obtain ⟨told, events, all⟩ := first
  obtain ⟨more, events', all'⟩ := second
  refine ⟨told ++ more, by rw [events', events, List.append_assoc], ?_⟩
  intro event member
  rcases List.mem_append.mp member with early | late
  · exact all event early
  · exact all' event late

theorem emit (r : Resolver) {event : EngineEvent} (holds : P event) : Emits P r (r.emit event) :=
  ⟨[event], rfl, by simpa using holds⟩

variable (steps : ∀ step, P (.modeChanged step))
include steps

theorem emitSteps (r : Resolver) (changes : List ModeStep) : Emits P r (r.emitSteps changes) := by
  refine ⟨changes.map .modeChanged, rfl, ?_⟩
  intro event member
  obtain ⟨step, _, rfl⟩ := List.mem_map.mp member
  exact steps step

theorem changeMode (r : Resolver) (state : ModeState) : Emits P r (r.changeMode state) :=
  emitSteps steps { r with modes := (r.modes.set state).1 } _

theorem pushMode (r : Resolver) (mode : Mode) : Emits P r (r.pushMode mode) :=
  emitSteps steps { r with modes := (r.modes.push mode).1 } _

theorem popMode (r : Resolver) : Emits P r r.popMode :=
  emitSteps steps { r with modes := r.modes.pop.1 } _

theorem leaveTemporary (r : Resolver) : Emits P r r.leaveTemporary :=
  emitSteps steps { r with modes := r.modes.popAll.1 } _

theorem abort (r : Resolver) : Emits P r r.abort := leaveTemporary steps r.forget

theorem cancel (r : Resolver) : Emits P r r.cancel :=
  abort steps { r with typeahead := [], trail := [], trailMatch := none }

theorem setMode (r : Resolver) (state : ModeState) : Emits P r (r.setMode state) :=
  (abort steps r).trans (changeMode steps { r.abort with trail := [], trailMatch := none } state)

variable (options : OptionView)

theorem applyModeChange (r : Resolver) (command : Command) :
    Emits P r (r.applyModeChange options command) := by
  unfold Resolver.applyModeChange
  split
  · split
    · exact changeMode steps _ _
    · exact refl _
  · exact changeMode steps _ _

theorem applyKeymodel (r : Resolver) (command : Command) :
    Emits P r (r.applyKeymodel options command) := by
  unfold Resolver.applyKeymodel
  split
  · exact changeMode steps _ _
  · exact refl _

theorem complete (r : Resolver) (command : Command)
    (told : P (.command (r.toldComplete options command))) :
    Emits P r (r.complete options command) :=
  (((applyKeymodel steps options r command).trans (emit _ told)).trans
    (applyModeChange steps options _ _)).trans (of_events rfl)

theorem finishOperator (r : Resolver) (operator motion : Command)
    (told : P (.command (toldOperator operator motion))) :
    Emits P r (r.finishOperator options operator motion) :=
  (((leaveTemporary steps r).trans (emit _ told)).trans
    (applyModeChange steps options _ _)).trans (of_events rfl)

theorem argumentDone (r : Resolver) (command : Command)
    (alone : r.pending.operator = none → P (.command (r.toldComplete options command)))
    (asMotion : ∀ operator, r.pending.operator = some operator →
      P (.command (toldOperator operator.command command))) :
    Emits P r (r.argumentDone options command) := by
  unfold Resolver.argumentDone
  split
  · rename_i operator waiting
    exact finishOperator steps options _ _ _ (asMotion operator waiting)
  · rename_i nothing
    exact complete steps options _ _ (alone nothing)

/-- An action of a resolver that tells only events with a property. -/
theorem commandResolved (r : Resolver) (action : Action) (keys : List Key)
    (done : ¬ r.startsOperator action → r.takesNoArgument action →
      Emits P r.counted (r.counted.argumentDone options (r.commandOf action))) :
    Emits P r (r.commandResolved options action keys) := by
  have same := events_counted r
  have step := commandResolved_step options r action keys
  generalize r.commandResolved options action keys = after at step ⊢
  cases step with
  | starts starts => exact (of_events same).trans (pushMode steps _ _)
  | finishes noOperator ready => exact (of_events same).trans (done noOperator ready)
  | awaitsCharacter kind => exact of_events same
  | opensLine kind =>
      exact ((of_events same).trans (pushMode steps r.counted .commandLine)).trans (of_events rfl)
  | awaitsOffsets kind => exact of_events same

end Emits

end ModalInput.Resolver
