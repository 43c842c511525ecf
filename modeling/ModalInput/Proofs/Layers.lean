/-
# ModalInput.Proofs.Layers -- one layer at a time

The mapping layer and the command layer never wait for keys at the same time.
While keys are on the trail, the command layer has none and awaits no argument
that mappings do not apply to; a held command has its keys, and an awaited
argument comes after all of them (`Layered`).

* `surroundings` -- what the command layer leaves alone.
* `Tidy` -- the command layer's part; `commandKey_tidy`, `commandResolved_tidy`.
* `layered_invariant` -- every operation keeps the layers apart.
-/
import ModalInput.Proofs.Operation

namespace ModalInput.Resolver

set_option autoImplicit false

/-! ## What the command layer leaves alone -/

/-- The parts of a resolver that the command layer only reads. -/
structure Surroundings where
  keys : CommandKeys
  mappings : MappingStore
  trail : List TrailKey
  trailMatch : Option (Reached Mapping)
  recording : Bool

def surroundings (r : Resolver) : Surroundings :=
  ⟨r.keys, r.mappings, r.trail, r.trailMatch, r.recording⟩

variable (options : OptionView)

@[simp] theorem surroundings_applyModeChange (r : Resolver) (command : Command) :
    (r.applyModeChange options command).surroundings = r.surroundings := by
  unfold applyModeChange
  split
  · split <;> rfl
  · rfl

@[simp] theorem surroundings_applyKeymodel (r : Resolver) (command : Command) :
    (r.applyKeymodel options command).surroundings = r.surroundings := by
  unfold applyKeymodel
  split <;> rfl

@[simp] theorem surroundings_complete (r : Resolver) (command : Command) :
    (r.complete options command).surroundings = r.surroundings :=
  (surroundings_applyModeChange options _ command).trans
    (surroundings_applyKeymodel options r command)

@[simp] theorem surroundings_argumentDone (r : Resolver) (command : Command) :
    (r.argumentDone options command).surroundings = r.surroundings := by
  unfold argumentDone
  split
  · exact surroundings_applyModeChange options _ _
  · exact surroundings_complete options r command

theorem surroundings_counted (r : Resolver) : r.counted.surroundings = r.surroundings := by
  unfold counted
  split <;> rfl

@[simp] theorem surroundings_commandResolved (r : Resolver) (action : Action) (keys : List Key) :
    (r.commandResolved options action keys).surroundings = r.surroundings := by
  have step := commandResolved_step options r action keys
  generalize r.commandResolved options action keys = after at step ⊢
  cases step with
  | starts starts => exact surroundings_counted r
  | finishes noOperator ready =>
      exact (surroundings_argumentDone options _ _).trans (surroundings_counted r)
  | awaitsCharacter kind => exact surroundings_counted r
  | opensLine kind => exact surroundings_counted r
  | awaitsOffsets kind => exact surroundings_counted r

@[simp] theorem surroundings_fireHeld (r : Resolver) :
    (r.fireHeld options).surroundings = r.surroundings := by
  unfold fireHeld
  split
  · rfl
  · exact surroundings_commandResolved options _ _ _

@[simp] theorem surroundings_commandKey (r : Resolver) (key : Key) :
    (r.commandKey options key).surroundings = r.surroundings := by
  have step := commandKey_step options r key
  generalize r.commandKey options key = after at step ⊢
  cases step with
  | drops => rfl
  | refuses c awaits => rfl
  | names register awaits named => rfl
  | supplies command c awaits types => exact surroundings_argumentDone options _ _
  | enters command prompt typed awaits confirms => exact surroundings_argumentDone options _ _
  | edits command prompt typed awaits => rfl
  | waits command awaits => rfl
  | counts count idle first mode digit => rfl
  | asksRegister idle first mode sign => rfl
  | repeats operator idle waiting again => exact surroundings_argumentDone options _ _
  | gathers idle found => rfl
  | holds action idle found => rfl
  | resolves action idle found => exact surroundings_commandResolved options _ _ _
  | fires held idle holding => exact surroundings_fireHeld options _
  | parts first second idle single nothing apart => rfl
  | types action c idle single nothing typing typed => exact surroundings_complete options _ _

/-- A move changes no table, and not whether keys are recorded. -/
theorem Move.tables {r r' : Resolver} (move : Move options r r') :
    r'.keys = r.keys ∧ r'.mappings = r.mappings ∧ r'.recording = r.recording := by
  have command {before : Resolver} (same : r'.surroundings = before.surroundings)
      (first : before.keys = r.keys ∧ before.mappings = r.mappings ∧
        before.recording = r.recording) :
      r'.keys = r.keys ∧ r'.mappings = r.mappings ∧ r'.recording = r.recording :=
    ⟨(congrArg Surroundings.keys same).trans first.1,
      (congrArg Surroundings.mappings same).trans first.2.1,
      (congrArg Surroundings.recording same).trans first.2.2⟩
  cases move with
  | acts mapping action found target =>
      exact command (surroundings_commandResolved options r.withoutTrail action []) ⟨rfl, rfl, rfl⟩
  | key key empty => exact command (surroundings_commandKey options r key) ⟨rfl, rfl, rfl⟩
  | fires => exact command (surroundings_fireHeld options r) ⟨rfl, rfl, rfl⟩
  | supplies command' values awaits =>
      exact command (surroundings_argumentDone options r _) ⟨rfl, rfl, rfl⟩
  | _ => exact ⟨rfl, rfl, rfl⟩

variable {options} in
theorem Moves.tables {r r' : Resolver} (moves : Moves options r r') :
    r'.keys = r.keys ∧ r'.mappings = r.mappings ∧ r'.recording = r.recording := by
  induction moves with
  | refl => exact ⟨rfl, rfl, rfl⟩
  | step before move ih =>
      obtain ⟨keys, mappings, recording⟩ := move.tables
      exact ⟨keys.trans ih.1, mappings.trans ih.2.1, recording.trans ih.2.2⟩

/-! ## The command layer -/

/-- A held command has its keys, and an argument is awaited after all keys. -/
structure Tidy (pending : PendingCommand) : Prop where
  held : ∀ held, pending.held = some held → held.length ≤ pending.keys.length
  awaits : pending.awaiting ≠ none → pending.keys = []

theorem tidy_empty : Tidy {} := ⟨by simp, by simp⟩

theorem Tidy.not_held {pending : PendingCommand} (tidy : Tidy pending) (first : pending.keys = []) :
    pending.held = none := by
  cases holding : pending.held with
  | none => rfl
  | some held =>
      have long := tidy.held held holding
      rw [first] at long
      simp [Reached.length] at long

theorem Tidy.of_first {pending : PendingCommand} (first : pending.keys = [])
    (nothing : pending.held = none) : Tidy pending :=
  ⟨by simp [nothing], fun _ => first⟩

@[simp] theorem pending_argumentDone (r : Resolver) (command : Command) :
    (r.argumentDone options command).pending = {} := by
  unfold argumentDone
  split <;> rfl

theorem commandResolved_tidy (r : Resolver) (action : Action) (keys : List Key)
    (first : r.pending.keys = []) (nothing : r.pending.held = none) :
    Tidy (r.commandResolved options action keys).pending := by
  have counted : r.counted.pending.keys = [] ∧ r.counted.pending.held = none := by
    rw [keys_counted, held_counted]
    exact ⟨first, nothing⟩
  have step := commandResolved_step options r action keys
  generalize r.commandResolved options action keys = after at step ⊢
  cases step with
  | starts starts => exact .of_first counted.1 counted.2
  | finishes noOperator ready =>
      rw [pending_argumentDone]
      exact tidy_empty
  | awaitsCharacter kind => exact .of_first counted.1 counted.2
  | opensLine kind => exact .of_first counted.1 counted.2
  | awaitsOffsets kind => exact .of_first counted.1 counted.2

theorem fireHeld_of_none {r : Resolver} (nothing : r.pending.held = none) :
    r.fireHeld options = r := by
  simp only [fireHeld, nothing]

/-- The held command runs, and the keys that it does not need wait. -/
theorem fireHeld_of_some {r : Resolver} {held : Reached Action}
    (holding : r.pending.held = some held) :
    r.fireHeld options = commandResolved options
      (r.released.requeue ((r.pending.keys.drop held.length).map .literal)) held.value
      (r.pending.keys.take held.length) := by
  simp only [fireHeld, holding, released]

theorem fireHeld_tidy (r : Resolver) (tidy : Tidy r.pending) :
    Tidy (r.fireHeld options).pending := by
  unfold fireHeld
  split
  · exact tidy
  · exact commandResolved_tidy options _ _ _ rfl rfl

theorem commandKey_tidy (r : Resolver) (key : Key) (tidy : Tidy r.pending) :
    Tidy (r.commandKey options key).pending := by
  have step := commandKey_step options r key
  generalize r.commandKey options key = after at step ⊢
  cases step with
  | drops => exact tidy_empty
  | refuses c awaits => exact tidy_empty
  | names register awaits named => exact ⟨tidy.held, fun awaits => absurd rfl awaits⟩
  | supplies command c awaits types =>
      rw [pending_argumentDone]
      exact tidy_empty
  | enters command prompt typed awaits confirms =>
      rw [pending_argumentDone]
      exact tidy_empty
  | edits command prompt typed awaits =>
      exact ⟨tidy.held, fun _ => tidy.awaits (by simp [awaits])⟩
  | waits command awaits => exact ⟨tidy.held, fun _ => tidy.awaits (by simp [awaits])⟩
  | counts count idle first mode digit =>
      have same : Tidy (r.noted key).pending := ⟨tidy.held, tidy.awaits⟩
      simp only [PendingCommand.withCurrentCount]
      split <;> exact ⟨same.held, same.awaits⟩
  | asksRegister idle first mode sign => exact .of_first first (tidy.not_held first)
  | repeats operator idle waiting again =>
      rw [pending_argumentDone]
      exact tidy_empty
  | gathers idle found =>
      refine ⟨?_, fun awaits => absurd idle awaits⟩
      intro held holding
      have long := tidy.held held holding
      simp only [gathered, List.length_append]
      omega
  | holds action idle found =>
      refine ⟨?_, fun awaits => absurd idle awaits⟩
      intro held holding
      cases holding
      simp [gathered, Reached.length]
  | resolves action idle found => exact commandResolved_tidy options _ _ _ rfl rfl
  | fires held idle holding =>
      refine fireHeld_tidy options _ ⟨?_, fun awaits => absurd idle awaits⟩
      intro held holding
      have long := tidy.held held holding
      simp only [gathered, List.length_append]
      omega
  | parts first second idle single nothing apart => exact .of_first rfl nothing
  | types action c idle single nothing typing typed => exact tidy_empty

/-- While no argument is awaited, no offsets are. -/
theorem awaitsOffsets_of_idle {r : Resolver} (idle : r.pending.awaiting = none) :
    r.awaitsOffsets = false := by
  simp [awaitsOffsets, PendingCommand.awaitsOffsets, idle]

/-! ## Both layers -/

/-- Only one of the layers waits for keys. -/
structure Layered (r : Resolver) : Prop where
  /-- The trail is for keys that mappings apply to. -/
  typed : r.trail ≠ [] → r.listens
  /-- A mapping on the trail has its keys there. -/
  reached : ∀ found, r.trailMatch = some found → found.length ≤ r.trail.length
  tidy : Tidy r.pending

namespace Layered

theorem free {r : Resolver} (layered : Layered r) (empty : r.trail = []) : r.trailMatch = none := by
  cases reached : r.trailMatch with
  | none => rfl
  | some found =>
      have long := layered.reached found reached
      rw [empty] at long
      simp [Reached.length] at long

/-- Without a trail, only the command matters. -/
theorem of_empty {r : Resolver} (empty : r.trail = []) (free : r.trailMatch = none)
    (tidy : Tidy r.pending) : Layered r :=
  ⟨fun typed => absurd empty typed, by simp [free], tidy⟩

/-- The command layer at work, while there is no trail. -/
theorem of_surroundings {r r' : Resolver} (layered : Layered r) (empty : r.trail = [])
    (same : r'.surroundings = r.surroundings) (tidy : Tidy r'.pending) : Layered r' := by
  have trail : r'.trail = [] := (congrArg Surroundings.trail same).trans empty
  have free : r'.trailMatch = none :=
    (congrArg Surroundings.trailMatch same).trans (layered.free empty)
  exact .of_empty trail free tidy

/-- While a mapping can take the place of its keys, the command has none. -/
theorem first {r : Resolver} (layered : Layered r) {mapping : Mapping}
    (offers : r.Offers mapping) : r.listens := by
  cases offers with
  | typed key maps found => exact maps
  | reached before found =>
      apply layered.typed
      intro empty
      have free := layered.free empty
      rw [found] at free
      cases free

theorem keys_of_listens {r : Resolver} (listens : r.listens) : r.pending.keys = [] := by
  have maps := listens.1
  unfold mapsNext at maps
  simpa using (Bool.and_eq_true_iff.mp maps).2

/-- While a command is held, there is no trail, and no argument is awaited. -/
theorem holding {r : Resolver} (layered : Layered r) {held : Reached Action}
    (holding : r.pending.held = some held) : r.trail = [] ∧ r.pending.awaiting = none := by
  have typed : r.pending.keys ≠ [] := by
    intro first
    rw [layered.tidy.not_held first] at holding
    cases holding
  constructor
  · apply Decidable.byContradiction
    exact fun trail => typed (keys_of_listens (layered.typed trail))
  · apply Decidable.byContradiction
    exact fun awaits => typed (layered.tidy.awaits awaits)

/-- While offsets are awaited, there is no trail. -/
theorem awaiting {r : Resolver} (layered : Layered r) {command : Command}
    (awaits : r.pending.awaiting = some (.offsets command)) : r.trail = [] := by
  apply Decidable.byContradiction
  intro trail
  have noOffsets := (layered.typed trail).2
  simp [awaitsOffsets, PendingCommand.awaitsOffsets, awaits] at noOffsets

theorem move {r r' : Resolver} (layered : Layered r) (move : Move options r r') : Layered r' := by
  cases move with
  | queue typeahead => exact ⟨layered.typed, layered.reached, layered.tidy⟩
  | joins key maps =>
      refine ⟨fun _ => maps, ?_, layered.tidy⟩
      intro found reached
      have long := layered.reached found reached
      simp only [List.length_append]
      omega
  | reaches key mapping maps found =>
      refine ⟨fun _ => maps, ?_, layered.tidy⟩
      intro found reached
      cases reached
      simp [Reached.length]
  | leaves => exact .of_empty rfl rfl layered.tidy
  | acts mapping action found target =>
      have keys := keys_of_listens (layered.first found)
      have taken : Layered r.withoutTrail := .of_empty rfl rfl layered.tidy
      exact taken.of_surroundings rfl (surroundings_commandResolved options _ action [])
        (commandResolved_tidy options _ action [] keys (layered.tidy.not_held keys))
  | key key empty =>
      exact layered.of_surroundings empty (surroundings_commandKey options r key)
        (commandKey_tidy options r key layered.tidy)
  | fires =>
      cases holding : r.pending.held with
      | none =>
          rw [fireHeld_of_none options holding]
          exact layered
      | some held =>
          exact layered.of_surroundings (layered.holding holding).1
            (surroundings_fireHeld options r) (fireHeld_tidy options r layered.tidy)
  | supplies command values awaits =>
      exact layered.of_surroundings (layered.awaiting awaits)
        (surroundings_argumentDone options r _) (by rw [pending_argumentDone]; exact tidy_empty)
  | cancels => exact .of_empty rfl rfl tidy_empty
  | fails error => exact ⟨layered.typed, layered.reached, layered.tidy⟩

variable {options} in
theorem moves {r r' : Resolver} (layered : Layered r) (moves : Moves options r r') : Layered r' :=
  moves.kept (fun _ _ layered move => layered.move options move) layered

end Layered

theorem layered_invariant {σ : Type} (allowed : Operation σ → Prop) :
    Invariant allowed Layered where
  move := fun options _ _ layered move => layered.move options move
  setMode := fun _ _ _ _ => .of_empty rfl rfl tidy_empty
  setRecording := fun _ _ layered => ⟨layered.typed, layered.reached, layered.tidy⟩
  setMappings := fun _ _ _ layered => ⟨layered.typed, layered.reached, layered.tidy⟩
  events := fun _ _ layered => ⟨layered.typed, layered.reached, layered.tidy⟩

end ModalInput.Resolver
