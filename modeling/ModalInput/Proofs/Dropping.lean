/-
# ModalInput.Proofs.Dropping -- what is left of the keys that were dropped

Pending keys are in four places: in front of the mapping layer, on the trail, in the
mapping that the trail has reached, and in the command that is typed.  To cancel is to
empty all four.  To change the mode from outside empties the last three: the keys in
front of the mapping layer stay, and are looked at with the next key
(`waiting_remains`).  Keys wait there between two calls only while a command waits for
offsets, so that a change of the mode at any other time leaves nothing.

That nothing is left is more than that nothing is pending: whatever happens then, it is
what happens in a new session with the same tables and in the same mode
(`Session.Leaves`).  This needs that events that were told earlier make no difference to
anything but the events (`Operation.run_preceded`).

* `Drained` -- no key waits between two calls, unless a command waits for offsets.
* `dropped_leaves` -- what is left after `cancel`, and after `setMode`.
-/
import ModalInput.Proofs.Framing
import ModalInput.Proofs.InsertTyping
import ModalInput.Proofs.Session

namespace ModalInput.Resolver

set_option autoImplicit false

/-! ## Events that were told earlier -/

/-- With events before those that were told. -/
def preceded (r : Resolver) (earlier : List EngineEvent) : Resolver :=
  { r with events := earlier ++ r.events }

variable (r : Resolver) (earlier : List EngineEvent)

@[simp] theorem mappings_preceded : (r.preceded earlier).mappings = r.mappings := rfl
@[simp] theorem modes_preceded : (r.preceded earlier).modes = r.modes := rfl
@[simp] theorem typeahead_preceded : (r.preceded earlier).typeahead = r.typeahead := rfl
@[simp] theorem trail_preceded : (r.preceded earlier).trail = r.trail := rfl
@[simp] theorem trailMatch_preceded : (r.preceded earlier).trailMatch = r.trailMatch := rfl
@[simp] theorem pending_preceded : (r.preceded earlier).pending = r.pending := rfl

/-- What does the same in every frame does so after more events. -/
theorem preceded_of_framed {r : Resolver} (f : Resolver → Resolver)
    (framed : ∀ frame, f (r.framed frame) = (f r).framed frame)
    (kept : (f r).mappings = r.mappings) : f (r.preceded earlier) = (f r).preceded earlier := by
  have plain {a : Resolver} (same : a.mappings = r.mappings) :
      a.framed ⟨r.mappings, [], earlier⟩ = a.preceded earlier := by
    simp only [Resolver.framed, preceded, List.append_nil, ← same]
  rw [← plain rfl, ← plain kept]
  exact framed _

theorem emit_preceded (event : EngineEvent) :
    (r.preceded earlier).emit event = (r.emit event).preceded earlier :=
  preceded_of_framed earlier (emit · event) (fun frame => emit_framed r frame event) rfl

theorem abort_preceded : (r.preceded earlier).abort = r.abort.preceded earlier :=
  preceded_of_framed earlier abort (abort_framed r) rfl

theorem cancel_preceded : (r.preceded earlier).cancel = r.cancel.preceded earlier :=
  abort_preceded { r with typeahead := [], trail := [], trailMatch := none } earlier

theorem setMode_preceded (state : ModeState) :
    (r.preceded earlier).setMode state = (r.setMode state).preceded earlier := by
  unfold setMode
  rw [abort_preceded]
  exact preceded_of_framed earlier (changeMode · state)
    (fun frame => changeMode_framed { r.abort with trail := [], trailMatch := none } frame state) rfl

/-! ### The command layer -/

variable (options : OptionView)

theorem commandResolved_preceded (action : Action) (keys : List Key) :
    commandResolved options (r.preceded earlier) action keys =
      (commandResolved options r action keys).preceded earlier :=
  preceded_of_framed earlier (commandResolved options · action keys)
    (fun frame => commandResolved_framed r frame options action keys)
    (congrArg Surroundings.mappings (surroundings_commandResolved options r action keys))

theorem commandKey_preceded (key : Key) :
    commandKey options (r.preceded earlier) key = (commandKey options r key).preceded earlier :=
  preceded_of_framed earlier (commandKey options · key)
    (fun frame => commandKey_framed r frame options key)
    (congrArg Surroundings.mappings (surroundings_commandKey options r key))

theorem fireHeld_preceded :
    fireHeld options (r.preceded earlier) = (fireHeld options r).preceded earlier :=
  preceded_of_framed earlier (fireHeld options) (fun frame => fireHeld_framed r frame options)
    (congrArg Surroundings.mappings (surroundings_fireHeld options r))

theorem argumentDone_preceded (command : Command) :
    argumentDone options (r.preceded earlier) command =
      (argumentDone options r command).preceded earlier :=
  preceded_of_framed earlier (argumentDone options · command)
    (fun frame => argumentDone_framed r frame options command)
    (congrArg Surroundings.mappings (surroundings_argumentDone options r command))

/-! ### The mapping layer -/

variable {σ : Type} (evaluate : Evaluator σ) (world : σ)

/-- Where a look leads, with events before those that were told. -/
def later (next : Resolver × σ) : Resolver × σ := (next.1.preceded earlier, next.2)

theorem expand_preceded (mapping : Mapping) (lhs : List TrailKey) :
    expand options evaluate (r.preceded earlier) world mapping lhs =
      later earlier (expand options evaluate r world mapping lhs) := by
  simp only [expand, cancel_preceded, fail, emit_preceded]
  split
  · rfl
  · split
    · rfl
    · exact Prod.ext (commandResolved_preceded r earlier options _ []) rfl
    · split <;> rfl

theorem endTrail_preceded :
    endTrail options evaluate (r.preceded earlier) world =
      later earlier (endTrail options evaluate r world) := by
  simp only [endTrail, trailMatch_preceded, trail_preceded]
  split
  · exact expand_preceded (r.withoutTrail.requeue _) earlier options evaluate world _ _
  · split
    · rfl
    · exact Prod.ext (commandKey_preceded (r.withoutTrail.requeue _) earlier options _) rfl

theorem extendTrail_preceded (key : TrailKey) :
    extendTrail options evaluate (r.preceded earlier) world key =
      later earlier (extendTrail options evaluate r world key) := by
  let extended : Resolver := { r with trail := r.trail ++ [key] }
  simp only [extendTrail, mappings_preceded, modes_preceded, trail_preceded]
  split
  · exact expand_preceded extended.withoutTrail earlier options evaluate world _ _
  · split
    · rfl
    · exact expand_preceded extended.withoutTrail earlier options evaluate world _ _
  · rfl
  · exact endTrail_preceded extended earlier options evaluate world

theorem passKey_preceded (queued : Queued) :
    passKey options evaluate (r.preceded earlier) world queued =
      later earlier (passKey options evaluate r world queued) := by
  unfold passKey
  rw [trail_preceded]
  by_cases empty : r.trail.isEmpty = true
  · rw [if_pos empty, if_pos empty]
    exact Prod.ext (commandKey_preceded r earlier options _) rfl
  · rw [if_neg empty, if_neg empty]
    exact endTrail_preceded (r.requeue [queued]) earlier options evaluate world

theorem mapKey_preceded (queued : Queued) :
    mapKey options evaluate (r.preceded earlier) world queued =
      later earlier (mapKey options evaluate r world queued) := by
  cases queued with
  | literal key => exact passKey_preceded r earlier options evaluate world _
  | mappable key depth =>
      have maps : (r.preceded earlier).mapsNext = r.mapsNext := rfl
      simp only [mapKey, maps]
      split
      · exact extendTrail_preceded r earlier options evaluate world _
      · exact passKey_preceded r earlier options evaluate world _

theorem step?_preceded :
    step? options evaluate (r.preceded earlier) world =
      (step? options evaluate r world).map (later earlier) := by
  have awaits : (r.preceded earlier).awaitsOffsets = r.awaitsOffsets := rfl
  simp only [step?, awaits, typeahead_preceded]
  split
  · rfl
  · cases r.typeahead with
    | nil => rfl
    | cons queued rest =>
        exact congrArg some
          (mapKey_preceded { r with typeahead := rest } earlier options evaluate world queued)

/-- Keys are looked at in the same way, whatever was told before. -/
theorem process_preceded :
    process options evaluate (r.preceded earlier) world =
      later earlier (process options evaluate r world) := by
  fun_induction process options evaluate r world with
  | case1 r world stopped =>
      apply process_of_settled
      rw [step?_preceded, stopped]
      rfl
  | case2 r world next stepped ih =>
      have after : step? options evaluate (r.preceded earlier) world = some (later earlier next) := by
        rw [step?_preceded, stepped]
        rfl
      rw [process_of_step options evaluate after, ← ih]
      rfl

/-! ### Calls -/

theorem inputKey_preceded (key : Key) :
    inputKey options evaluate (r.preceded earlier) world key =
      later earlier (inputKey options evaluate r world key) := by
  have awaits : (r.preceded earlier).awaitsOffsets = r.awaitsOffsets := rfl
  simp only [inputKey, awaits]
  split
  · exact Prod.ext (cancel_preceded r earlier) rfl
  · exact process_preceded { r with typeahead := r.typeahead ++ [.mappable key 0] } earlier options
      evaluate world

theorem flushTrail_preceded :
    flushTrail options evaluate (r.preceded earlier) world =
      later earlier (flushTrail options evaluate r world) := by
  simp only [flushTrail, trailMatch_preceded]
  split
  · exact endTrail_preceded r earlier options evaluate world
  · rfl

theorem flushed_preceded :
    flushed options evaluate (r.preceded earlier) world =
      later earlier (flushed options evaluate r world) := by
  unfold flushed
  rw [trail_preceded, flushTrail_preceded]
  by_cases empty : r.trail.isEmpty = true
  · rw [if_pos empty, if_pos empty]
    rfl
  · rw [if_neg empty, if_neg empty]
    exact process_preceded _ earlier options evaluate _

theorem timeoutExpired_preceded :
    timeoutExpired options evaluate (r.preceded earlier) world =
      later earlier (timeoutExpired options evaluate r world) := by
  rw [timeoutExpired_eq, timeoutExpired_eq, flushed_preceded]
  generalize flushed options evaluate r world = reached
  show (if reached.1.typeahead.isEmpty && reached.1.pending.held.isSome then
      process options evaluate (fireHeld options (reached.1.preceded earlier)) reached.2
    else later earlier reached) = _
  by_cases fires : (reached.1.typeahead.isEmpty && reached.1.pending.held.isSome) = true
  · rw [if_pos fires, if_pos fires, fireHeld_preceded]
    exact process_preceded _ earlier options evaluate _
  · rw [if_neg fires, if_neg fires]

theorem supplyOffsets_preceded (offsets : List Int) :
    supplyOffsets options evaluate (r.preceded earlier) world offsets =
      (supplyOffsets options evaluate r world offsets).map (later earlier) := by
  simp only [supplyOffsets, pending_preceded]
  split
  · rw [argumentDone_preceded, process_preceded]
    rfl
  · rfl

/-- What an operation does has nothing to do with what was told before. -/
theorem Operation.run_preceded (operation : Operation σ) (other : operation ≠ .takeEvent) :
    operation.run (r.preceded earlier) = (operation.run r).preceded earlier := by
  cases operation with
  | key options evaluate world key =>
      exact congrArg Prod.fst (inputKey_preceded r earlier options evaluate world key)
  | timeout options evaluate world =>
      exact congrArg Prod.fst (timeoutExpired_preceded r earlier options evaluate world)
  | offsets options evaluate world values =>
      unfold run
      dsimp only
      rw [supplyOffsets_preceded]
      cases supplyOffsets options evaluate r world values <;> rfl
  | cancel => exact cancel_preceded r earlier
  | setMode state => exact setMode_preceded r earlier state
  | setRecording recording => rfl
  | setMappings mappings => rfl
  | takeEvent => exact absurd rfl other

/-- Without the events that were told. -/
def untold (r : Resolver) : Resolver := { r with events := [] }

/-- The events that were told can be put back afterwards. -/
theorem Operation.run_untold (operation : Operation σ) (other : operation ≠ .takeEvent) :
    operation.run r = (operation.run r.untold).preceded r.events := by
  have whole : r.untold.preceded r.events = r := by
    simp only [preceded, untold, List.append_nil]
  rw [← run_preceded r.untold r.events operation other, whole]

theorem Interaction.taken_other {operation : Operation σ} (other : operation ≠ .takeEvent) :
    (Interaction.call operation).taken r = [] := by
  cases operation with
  | takeEvent => exact absurd rfl other
  | _ => rfl

/-! ## What is left of the keys -/

namespace Session

/-- Two sessions that differ in nothing but what one of them had told before. -/
structure Beyond (earlier : List EngineEvent) (session anew : Session) : Prop where
  told : session.told = earlier ++ anew.told
  same : session.resolver.untold = anew.resolver.untold

namespace Beyond

variable {earlier : List EngineEvent} {session anew : Session}

theorem takeEvent (beyond : Beyond earlier session anew) :
    Beyond earlier (session.after (.call (.takeEvent : Operation σ)))
      (anew.after (.call (.takeEvent : Operation σ))) := by
  have taken (session : Session) :
      (session.after (.call (.takeEvent : Operation σ))).resolver.untold =
        session.resolver.untold := by
    obtain ⟨left, run⟩ := Operation.takeEvent_run (σ := σ) session.resolver
    show ((.takeEvent : Operation σ).run session.resolver).untold = _
    rw [run]
    rfl
  exact ⟨by rw [told_takeEvent, told_takeEvent, beyond.told], by rw [taken, taken, beyond.same]⟩

theorem call (beyond : Beyond earlier session anew) (operation : Operation σ) :
    Beyond earlier (session.after (.call operation)) (anew.after (.call operation)) := by
  by_cases takes : operation = .takeEvent
  · subst takes
    exact beyond.takeEvent
  · let leads := operation.run session.resolver.untold
    have here : operation.run session.resolver = leads.preceded session.resolver.events :=
      Operation.run_untold session.resolver operation takes
    have there : operation.run anew.resolver = leads.preceded anew.resolver.events := by
      rw [Operation.run_untold anew.resolver operation takes, ← beyond.same]
    constructor
    · have told := beyond.told
      unfold Session.told at told ⊢
      simp only [after, Interaction.run, Interaction.taken_other _ takes, here, there, preceded,
        List.append_nil]
      rw [← List.append_assoc, told]
      simp only [List.append_assoc]
    · simp only [after, Interaction.run, here, there]
      rfl

theorem after (beyond : Beyond earlier session anew) (interaction : Interaction σ) :
    Beyond earlier (session.after interaction) (anew.after interaction) := by
  cases interaction with
  | call operation => exact beyond.call operation
  | setKeys keys =>
      refine ⟨?_, congrArg (fun r : Resolver => { r with keys }) beyond.same⟩
      have told := beyond.told
      simpa only [Session.told, Session.after, Interaction.run, Interaction.taken, List.append_nil]
        using told

theorem run (beyond : Beyond earlier session anew) (interactions : List (Interaction σ)) :
    Beyond earlier (session.run interactions) (anew.run interactions) := by
  induction interactions generalizing session anew with
  | nil => exact beyond
  | cons first rest ih => exact ih (beyond.after first)

end Beyond

/-- A new session with the tables and in the modes of a resolver, and with keys that
wait. -/
def renewed (r : Resolver) (waiting : List Queued) : Session where
  resolver := {
    keys := r.keys
    mappings := r.mappings
    modes := r.modes
    recording := r.recording
    typeahead := waiting }

/-- Of all that was typed only some keys are left: whatever happens, it is what happens
in a new session in which these keys wait. -/
def Leaves (σ : Type) (session : Session) (waiting : List Queued) : Prop :=
  ∀ interactions : List (Interaction σ), Beyond session.told (session.run interactions)
    ((renewed session.resolver waiting).run interactions)

/-- Nothing else is pending than the keys. -/
theorem leaves_of_empty {session : Session} (empty : session.resolver.trail = [])
    (free : session.resolver.trailMatch = none) (nothing : session.resolver.pending = {}) :
    Leaves σ session session.resolver.typeahead := by
  intro interactions
  refine Beyond.run ⟨(List.append_nil _).symm, ?_⟩ interactions
  simp only [renewed, untold, empty, free, nothing]

end Session

/-! ## Keys that wait between two calls -/

/-- No key waits, unless a command waits for offsets. -/
def Drained (r : Resolver) : Prop := r.awaitsOffsets = false → r.typeahead = []

theorem drained_of_settled {r : Resolver} (settled : step? options evaluate r world = none) :
    Drained r := fun noOffsets =>
  ((step?_eq_none_iff options evaluate r world).mp settled).resolve_left (by simp [noOffsets])

theorem process_drained : Drained (process options evaluate r world).1 := by
  fun_induction process options evaluate r world with
  | case1 r world stopped => exact drained_of_settled options evaluate world stopped
  | case2 r world next stepped ih => exact ih

namespace Drained

variable {r : Resolver}

theorem timeoutExpired (drained : Drained r) :
    Drained (Resolver.timeoutExpired options evaluate r world).1 := by
  rw [timeoutExpired_eq]
  split
  · exact process_drained _ options evaluate _
  · unfold flushed
    split
    · exact drained
    · exact process_drained _ options evaluate _

theorem supplyOffsets (drained : Drained r) (offsets : List Int) :
    Drained ((Resolver.supplyOffsets options evaluate r world offsets).getD (r, world)).1 := by
  unfold Resolver.supplyOffsets
  split
  · exact process_drained _ options evaluate _
  · exact drained

/-- Every operation keeps it, except a change of the mode while a command waits for
offsets. -/
theorem run (drained : Drained r) (operation : Operation σ)
    (idle : ∀ state, operation = .setMode state → r.awaitsOffsets = false) :
    Drained (operation.run r) := by
  cases operation with
  | key options evaluate world key =>
      show Drained (inputKey options evaluate r world key).1
      unfold inputKey
      split
      · exact fun _ => rfl
      · exact process_drained _ options evaluate world
  | timeout options evaluate world => exact drained.timeoutExpired options evaluate world
  | offsets options evaluate world values => exact drained.supplyOffsets options evaluate world values
  | cancel => exact fun _ => rfl
  | setMode state => exact fun _ => drained (idle state rfl)
  | setRecording recording => exact drained
  | setMappings mappings => exact drained
  | takeEvent =>
      obtain ⟨events, run⟩ := Operation.takeEvent_run (σ := σ) r
      rw [run]
      exact drained

end Drained

/-- The mode is not changed from outside while a command waits for offsets. -/
def Session.SetsIdle : Session → List (Interaction σ) → Prop
  | _, [] => True
  | session, first :: rest =>
      (∀ state, first = .call (.setMode state) → session.resolver.awaitsOffsets = false) ∧
        SetsIdle (session.after first) rest

theorem Session.SetsIdle.drained {session : Session} {interactions : List (Interaction σ)}
    (sets : session.SetsIdle interactions) (drained : Drained session.resolver) :
    Drained (session.run interactions).resolver := by
  induction interactions generalizing session with
  | nil => exact drained
  | cons first rest ih =>
      apply ih sets.2
      cases first with
      | call operation =>
          exact drained.run operation (fun state same => sets.1 state (congrArg _ same))
      | setKeys keys => exact drained

/-! ## Dropping everything -/

/-- To cancel leaves nothing of the keys that were typed.  To change the mode from outside
leaves the keys in front of the mapping layer, and nothing else; if the mode was never
changed so while a command waited for offsets, and none waits for them now, there are no
such keys. -/
theorem dropped_leaves (keys : CommandKeys) (interactions : List (Interaction σ))
    (state : ModeState) :
    let session := (Session.start keys).run interactions
    let cancelled := session.after (.call (.cancel : Operation σ))
    let changed := session.after (.call (.setMode state : Operation σ))
    (cancelled.resolver.isPending = false ∧ cancelled.resolver.needsTimeout = false ∧
        cancelled.Leaves σ []) ∧
      (changed.resolver.needsTimeout = false ∧
        changed.Leaves σ session.resolver.typeahead ∧
        (changed.resolver.isPending = false ↔ session.resolver.typeahead = [])) ∧
      ((Session.start keys).SetsIdle interactions → session.resolver.awaitsOffsets = false →
        session.resolver.typeahead = []) := by
  intro session cancelled changed
  have nothing : cancelled.Leaves σ cancelled.resolver.typeahead :=
    Session.leaves_of_empty rfl rfl rfl
  have queue : changed.Leaves σ changed.resolver.typeahead := Session.leaves_of_empty rfl rfl rfl
  refine ⟨⟨rfl, rfl, nothing⟩, ⟨rfl, queue, ?_⟩, ?_⟩
  · show (!([] : List TrailKey).isEmpty || !session.resolver.typeahead.isEmpty ||
      !PendingCommand.isEmpty {}) = false ↔ _
    simp [PendingCommand.isEmpty]
  · intro sets
    exact sets.drained fun _ => rfl

/-- A command that waits for offsets. -/
def measure : Action := { name := "measure", argument := .offsets }

/-- A mapping to it. -/
def measureMappings : MappingStore where
  table := KeyTable.empty.insert .normal [.of (.char 'k') .onlyControl] ⟨0, {
    lhs := [.of (.char 'k') .onlyControl]
    rhs := .action measure
    modes := .single .normal
    noremap := true }⟩
  made := 1

section Waiting

variable (keys : CommandKeys)

/-- The keys typed so far wait for the offsets of the command. -/
def measuring (waiting : List Queued) : Resolver where
  keys := keys
  mappings := measureMappings
  typeahead := waiting
  pending := { awaiting := some (.offsets (.new measure 0)) }

theorem measuring_starts :
    inputKey ⟨.default, .everywhere⟩ evaluate { keys, mappings := measureMappings } world
      (.of (.char 'k') .onlyControl) = (measuring keys [], world) :=
  process_eq_lookedAt ⟨.default, .everywhere⟩ evaluate 1
    ({ keys, mappings := measureMappings,
       typeahead := [.mappable (.of (.char 'k') .onlyControl) 0] }, world) rfl

theorem measuring_waits :
    inputKey ⟨.default, .everywhere⟩ evaluate (measuring keys []) world (.char 'x') =
      (measuring keys [.mappable (.char 'x') 0], world) :=
  process_of_settled ⟨.default, .everywhere⟩ evaluate
    (r := measuring keys [.mappable (.char 'x') 0]) rfl

/-- In Insert mode, with the keys in the queue. -/
def insertingBehind (waiting : List Queued) (events : List EngineEvent) : Resolver where
  keys := keys
  mappings := measureMappings
  modes := { state := .ofMode .insert }
  typeahead := waiting
  events := .modeChanged ⟨.ofMode .normal, .ofMode .insert⟩ :: events

theorem insertingBehind_inserts {c : Char} (plain : c ≠ '\n') (rest : List Queued)
    (events : List EngineEvent) :
    step? ⟨.default, .everywhere⟩ evaluate
        (insertingBehind .default (.mappable (.char c) 0 :: rest) events) world =
      some (insertingBehind .default rest (events ++ [typedCharacter (.ofMode .insert) c]),
        world) := by
  have looked : step? ⟨.default, .everywhere⟩ evaluate
      (insertingBehind .default (.mappable (.char c) 0 :: rest) events) world =
      some (commandKey ⟨.default, .everywhere⟩ (insertingBehind .default rest events) (.char c),
        world) := rfl
  rw [looked, commandKey_char _ rfl rfl rfl plain]
  rfl

end Waiting

/-- A key that was typed while a command waited for offsets: it is pending after the mode
was changed, and is inserted when the next key is typed. -/
theorem waiting_remains :
    let evaluate : Evaluator Unit := fun text world => (.ok text, world)
    let typed (key : Key) : Interaction Unit :=
      .call (.key ⟨.default, .everywhere⟩ evaluate () key)
    let session := (Session.start .default).run [
      .call (.setMappings measureMappings), typed (.of (.char 'k') .onlyControl),
      typed (.char 'x')]
    let changed := session.after (.call (.setMode (.ofMode .insert) : Operation Unit))
    changed.resolver.isPending = true ∧
      (changed.after (typed (.char 'y'))).told = changed.told ++
        [typedCharacter (.ofMode .insert) 'x', typedCharacter (.ofMode .insert) 'y'] := by
  intro evaluate typed session changed
  have reached : session.resolver = measuring .default [.mappable (.char 'x') 0] := by
    show (inputKey ⟨.default, .everywhere⟩ evaluate (inputKey ⟨.default, .everywhere⟩ evaluate
      { keys := .default, mappings := measureMappings } () (.of (.char 'k') .onlyControl)).1 ()
        (.char 'x')).1 = _
    rw [measuring_starts, measuring_waits]
  have inserting : changed.resolver =
      insertingBehind .default [.mappable (.char 'x') 0] [] := by
    show session.resolver.setMode (.ofMode .insert) = _
    rw [reached]
    rfl
  have inserted : inputKey ⟨.default, .everywhere⟩ evaluate changed.resolver () (.char 'y') =
      (insertingBehind .default [] [typedCharacter (.ofMode .insert) 'x',
        typedCharacter (.ofMode .insert) 'y'], ()) := by
    rw [inserting]
    show process ⟨.default, .everywhere⟩ evaluate
      (insertingBehind .default [.mappable (.char 'x') 0, .mappable (.char 'y') 0] []) () = _
    rw [process_of_step _ evaluate (insertingBehind_inserts evaluate () (by decide) _ _)]
    exact process_of_last _ evaluate (insertingBehind_inserts evaluate () (by decide) _ _) rfl
  constructor
  · rw [inserting]
    rfl
  · show (inputKey ⟨.default, .everywhere⟩ evaluate changed.resolver () (.char 'y')).1.events =
      changed.resolver.events ++ _
    rw [inserted, inserting]
    rfl

end ModalInput.Resolver
