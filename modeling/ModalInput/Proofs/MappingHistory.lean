/-
# ModalInput.Proofs.MappingHistory -- what became of the mappings that were made

A store of mappings is the outcome of what was done to it: mappings were added,
removed, and cleared away (`Operation`).  An operation touches the keys of a mode
when it names them, or clears the mode; what was mapped there is gone afterwards,
and the mapping that an operation makes is there in its place.  Nothing else
changes.

Each mapping carries a number of its own, so whatever is found in a store was made
by one operation of its history, and is in effect in those of its modes in which no
later operation touched its keys.

* `Trimmed.get?_run` -- what one operation does to the mapping of some keys.
* `Numbered` -- every number was given out before; operations keep that.
* `get?_after_eq_some` -- a mapping stays exactly as long as it is not touched.
* `exists_added` -- every mapping was made by an operation.
* `inEffect_iff` -- the modes in which a mapping is still in effect.
-/
import ModalInput.Proofs.TextMappings

namespace ModalInput.MappingStore

set_option autoImplicit false

/-! ## Operations -/

/-- What is done to a store. -/
inductive Operation where
  | add (modes : MappedModes) (lhs : List Key) (rhs : MappingTarget) (noremap : Bool)
  | remove (modes : MappedModes) (lhs : List Key)
  | clear (modes : MappedModes)

namespace Operation

/-- A store after something that can fail, which then leaves it as it was. -/
def attempted (store : MappingStore) (result : Except MappingError MappingStore) : MappingStore :=
  result.toOption.getD store

/-- The store after an operation. -/
def run (operation : Operation) (store : MappingStore) : MappingStore :=
  match operation with
  | .add modes lhs rhs noremap => attempted store (store.add modes lhs rhs noremap)
  | .remove modes lhs => attempted store (store.remove modes lhs)
  | .clear modes => store.clear modes

/-- The keys of a mode are named, or the mode is cleared. -/
def touches (operation : Operation) (mode : MapMode) (keys : List Key) : Bool :=
  match operation with
  | .add modes lhs _ _ => modes.contains mode && keys = lhs
  | .remove modes lhs => modes.contains mode && keys = lhs
  | .clear modes => modes.contains mode

/-- The mapping that is made, with the number that it is given. -/
def makes? (operation : Operation) (serial : Nat) : Option StoredMapping :=
  match operation with
  | .add modes lhs rhs noremap =>
      if lhs.isEmpty then none else some ⟨serial, { lhs, rhs, modes, noremap }⟩
  | _ => none

end Operation

/-- The store after some operations, in order. -/
def after (store : MappingStore) (operations : List Operation) : MappingStore :=
  operations.foldl (fun store operation => operation.run store) store

theorem after_append (store : MappingStore) (before later : List Operation) :
    store.after (before ++ later) = (store.after before).after later := by
  simp [after]

theorem after_concat (store : MappingStore) (before : List Operation) (last : Operation) :
    store.after (before ++ [last]) = last.run (store.after before) := by
  simp [after]

/-! ## One operation -/

/-- What a step does in its own mode, the steps of several modes do in all of them. -/
theorem get?_foldl {step : KeyTable MapMode Key StoredMapping → MapMode →
      KeyTable MapMode Key StoredMapping} (named : List Key → Prop) [DecidablePred named]
    {left : Option StoredMapping}
    (kept : ∀ table mode, table.Trimmed → (step table mode).Trimmed)
    (changes : ∀ table mode, table.Trimmed → ∀ mode' keys, (step table mode).get? mode' keys =
      if mode' = mode ∧ named keys then left else table.get? mode' keys)
    (modes : List MapMode) {table : KeyTable MapMode Key StoredMapping} (trimmed : table.Trimmed)
    (mode : MapMode) (keys : List Key) :
    (modes.foldl step table).get? mode keys =
      if mode ∈ modes ∧ named keys then left else table.get? mode keys := by
  induction modes generalizing table with
  | nil => simp
  | cons first rest ih =>
      rw [List.foldl_cons, ih (kept table first trimmed), changes table first trimmed]
      by_cases here : mode = first <;> by_cases names : named keys <;> simp [here, names]

variable {store : MappingStore}

theorem get?_add (trimmed : store.table.Trimmed) {modes : MappedModes} {lhs : List Key}
    (typed : lhs ≠ []) (stored : StoredMapping) (mode : MapMode) (keys : List Key) :
    (modes.toList.foldl (fun table mode => table.insert mode lhs stored) store.table).get?
        mode keys =
      if modes.contains mode = true ∧ keys = lhs then some stored
      else store.table.get? mode keys := by
  have each := get?_foldl (· = lhs) (fun table mode trimmed => trimmed.insert mode lhs stored)
    (fun table mode _ => KeyTable.get?_insert table mode lhs stored typed) modes.toList trimmed
    mode keys
  simpa only [MappedModes.mem_toList] using each

theorem get?_removeAll (trimmed : store.table.Trimmed) (modes : MappedModes) (lhs : List Key)
    (mode : MapMode) (keys : List Key) :
    (modes.toList.foldl (fun table mode => table.remove mode lhs) store.table).get? mode keys =
      if modes.contains mode = true ∧ keys = lhs then none else store.table.get? mode keys := by
  have each := get?_foldl (· = lhs) (fun table mode trimmed => trimmed.remove mode lhs)
    (fun table mode trimmed => trimmed.get?_remove mode lhs) modes.toList trimmed mode keys
  simpa only [MappedModes.mem_toList] using each

theorem get?_clear (trimmed : store.table.Trimmed) (modes : MappedModes) (mode : MapMode)
    (keys : List Key) :
    (store.clear modes).table.get? mode keys =
      if modes.contains mode = true then none else store.table.get? mode keys := by
  have each := get?_foldl (fun _ => True) (fun table mode trimmed => trimmed.clearMode mode)
    (fun table mode _ mode' keys => by simpa using KeyTable.get?_clearMode table mode mode' keys)
    modes.toList trimmed mode keys
  rw [clear, each]
  by_cases here : modes.contains mode = true <;> simp [MappedModes.mem_toList, here]

/-- After an operation, what it makes is found where it touches, and elsewhere what was
there before. -/
theorem get?_run (trimmed : store.table.Trimmed) (operation : Operation) (mode : MapMode)
    (keys : List Key) :
    (operation.run store).table.get? mode keys =
      if operation.touches mode keys then operation.makes? store.made
      else store.table.get? mode keys := by
  cases operation with
  | add modes lhs rhs noremap =>
      by_cases typed : lhs = []
      · -- no keys are named, and the empty sequence is never mapped
        subst typed
        have refused : Operation.run (.add modes [] rhs noremap) store = store := rfl
        rw [refused]
        split
        · rename_i here
          have none : keys = [] := by
            simpa [Operation.touches] using (Bool.and_eq_true_iff.mp here).2
          rw [none, KeyTable.get?_nil]
          rfl
        · rfl
      · have long : lhs.isEmpty = false := by simpa using typed
        have done : (Operation.run (.add modes lhs rhs noremap) store).table =
            modes.toList.foldl (fun table mode => table.insert mode lhs
              ⟨store.made, { lhs, rhs, modes, noremap }⟩) store.table := by
          simp [Operation.run, Operation.attempted, add, long, Except.toOption]
        rw [done, get?_add trimmed typed]
        simp [Operation.touches, Operation.makes?, long]
  | remove modes lhs =>
      by_cases found : (modes.toList.any fun mode => (store.table.get? mode lhs).isSome) = true
      · have done : (Operation.run (.remove modes lhs) store).table =
            modes.toList.foldl (fun table mode => table.remove mode lhs) store.table := by
          rw [Operation.run, remove, if_pos found]
          rfl
        rw [done, get?_removeAll trimmed]
        simp [Operation.touches, Operation.makes?]
      · -- nothing was mapped in these modes
        have refused : Operation.run (.remove modes lhs) store = store := by
          rw [Operation.run, remove, if_neg found]
          rfl
        rw [refused]
        split
        · rename_i here
          simp only [Operation.touches, Bool.and_eq_true, decide_eq_true_eq] at here
          have nothing := (List.any_eq_false.mp (Bool.eq_false_iff.mpr found)) mode
            (MappedModes.mem_toList.mpr here.1)
          rw [here.2]
          simpa [Operation.makes?] using nothing
        · rfl
  | clear modes =>
      rw [Operation.run, get?_clear trimmed]
      rfl

/-- Numbers are given out one by one. -/
theorem made_run (operation : Operation) (store : MappingStore) :
    (operation.run store).made =
      store.made + if (operation.makes? store.made).isSome then 1 else 0 := by
  cases operation with
  | add modes lhs rhs noremap =>
      by_cases typed : lhs.isEmpty <;>
        simp [Operation.run, Operation.attempted, Operation.makes?, add, typed, Except.toOption]
  | remove modes lhs =>
      by_cases found : (modes.toList.any fun mode => (store.table.get? mode lhs).isSome) <;>
        simp [Operation.run, Operation.attempted, Operation.makes?, remove, found, Except.toOption]
  | clear modes => rfl

theorem Made.attempted (made : store.Made) {result : Except MappingError MappingStore}
    (makes : ∀ next, result = .ok next → next.Made) : (Operation.attempted store result).Made := by
  cases result with
  | ok next => exact makes next rfl
  | error error => exact made

theorem Made.run (made : store.Made) (operation : Operation) : (operation.run store).Made := by
  cases operation with
  | add modes lhs rhs noremap => exact made.attempted fun _ done => .add made done
  | remove modes lhs => exact made.attempted fun _ done => .remove made done
  | clear modes => exact .clear made modes

/-! ## Numbers -/

/-- What is mapped was made before, and carries a number that was given out. -/
structure Numbered (store : MappingStore) : Prop where
  made : store.Made
  serial : ∀ mode keys stored, store.table.get? mode keys = some stored →
    stored.serial < store.made

theorem numbered_new : ({} : MappingStore).Numbered := by
  refine ⟨.new, ?_⟩
  intro mode keys stored found
  cases found

/-- Only an addition makes a mapping, which has the next number. -/
theorem makes?_eq_some {operation : Operation} {serial : Nat} {stored : StoredMapping} :
    operation.makes? serial = some stored ↔
      ∃ modes lhs rhs noremap, lhs ≠ [] ∧ operation = .add modes lhs rhs noremap ∧
        stored = ⟨serial, { lhs, rhs, modes, noremap }⟩ := by
  cases operation with
  | add modes lhs rhs noremap =>
      constructor
      · intro makes
        by_cases typed : lhs = []
        · simp [Operation.makes?, typed] at makes
        · have same : ⟨serial, { lhs, rhs, modes, noremap }⟩ = stored := by
            simpa [Operation.makes?, typed] using makes
          exact ⟨modes, lhs, rhs, noremap, typed, rfl, same.symm⟩
      · rintro ⟨_, _, _, _, typed, same, rfl⟩
        cases same
        simp [Operation.makes?, typed]
  | remove modes lhs => simp [Operation.makes?]
  | clear modes => simp [Operation.makes?]

theorem serial_of_makes? {operation : Operation} {serial : Nat} {stored : StoredMapping}
    (makes : operation.makes? serial = some stored) : stored.serial = serial := by
  obtain ⟨_, _, _, _, _, _, rfl⟩ := makes?_eq_some.mp makes
  rfl

theorem Numbered.run (numbered : store.Numbered) (operation : Operation) :
    (operation.run store).Numbered := by
  refine ⟨numbered.made.run operation, ?_⟩
  intro mode keys stored found
  rw [get?_run numbered.made.trimmed] at found
  rw [made_run]
  by_cases touched : operation.touches mode keys = true
  · rw [if_pos touched] at found
    rw [serial_of_makes? found, found]
    exact Nat.lt_succ_self _
  · rw [if_neg touched] at found
    exact Nat.lt_of_lt_of_le (numbered.serial mode keys stored found) (Nat.le_add_right ..)

theorem Numbered.after (numbered : store.Numbered) (operations : List Operation) :
    (store.after operations).Numbered := by
  induction operations generalizing store with
  | nil => exact numbered
  | cons first rest ih => exact ih (numbered.run first)

/-! ## Many operations -/

/-- No operation touches the keys of a mode. -/
def Untouched (operations : List Operation) (mode : MapMode) (keys : List Key) : Prop :=
  ∀ operation ∈ operations, operation.touches mode keys = false

/-- A mapping that was made before stays as long as nothing touches its keys: what an
operation puts in its place has another number. -/
theorem Numbered.get?_after_eq_some (numbered : store.Numbered) {stored : StoredMapping}
    (earlier : stored.serial < store.made) (operations : List Operation) (mode : MapMode)
    (keys : List Key) :
    (store.after operations).table.get? mode keys = some stored ↔
      store.table.get? mode keys = some stored ∧ Untouched operations mode keys := by
  induction operations generalizing store with
  | nil => simp [MappingStore.after, Untouched]
  | cons first rest ih =>
      have later : stored.serial < (first.run store).made := by
        rw [made_run]
        omega
      have step := get?_run numbered.made.trimmed first mode keys
      have others := ih (numbered.run first) later
      rw [Untouched, List.forall_mem_cons]
      refine others.trans ?_
      by_cases touched : first.touches mode keys = true
      · have replaced : first.makes? store.made ≠ some stored := by
          intro makes
          rw [serial_of_makes? makes] at earlier
          exact Nat.lt_irrefl _ earlier
        rw [step, if_pos touched]
        simp [replaced, touched]
      · rw [step, if_neg touched]
        simp [touched, Untouched]

/-- Every mapping was made by an operation. -/
theorem exists_added {operations : List Operation} {mode : MapMode} {keys : List Key}
    {stored : StoredMapping}
    (found : (({} : MappingStore).after operations).table.get? mode keys = some stored) :
    ∃ before modes rhs noremap later,
      operations = before ++ .add modes keys rhs noremap :: later ∧
        stored = ⟨(({} : MappingStore).after before).made,
          { lhs := keys, rhs, modes, noremap }⟩ := by
  induction operations using List.reverseRecOn with
  | nil => cases found
  | append_singleton before last ih =>
      have numbered := numbered_new.after before
      rw [after_concat, get?_run numbered.made.trimmed] at found
      by_cases touched : last.touches mode keys = true
      · rw [if_pos touched] at found
        obtain ⟨modes, lhs, rhs, noremap, _, rfl, rfl⟩ := makes?_eq_some.mp found
        obtain rfl : keys = lhs := by simpa using (Bool.and_eq_true_iff.mp touched).2
        exact ⟨before, modes, rhs, noremap, [], rfl, rfl⟩
      · rw [if_neg touched] at found
        obtain ⟨early, modes, rhs, noremap, later, cut, same⟩ := ih found
        exact ⟨early, modes, rhs, noremap, later ++ [last], by rw [cut]; simp, same⟩

/-- A mapping is in effect in those of its modes in which no later operation touched its
keys. -/
theorem inEffect_iff (before later : List Operation) (modes : MappedModes) {lhs : List Key}
    (typed : lhs ≠ []) (rhs : MappingTarget) (noremap : Bool) (mode : MapMode) :
    (({} : MappingStore).after (before ++ .add modes lhs rhs noremap :: later)).table.get? mode
        lhs = some ⟨(({} : MappingStore).after before).made, { lhs, rhs, modes, noremap }⟩ ↔
      modes.contains mode = true ∧ Untouched later mode lhs := by
  have numbered := numbered_new.after before
  rw [after_append]
  generalize ({} : MappingStore).after before = store at numbered ⊢
  let added : Operation := .add modes lhs rhs noremap
  let stored : StoredMapping := ⟨store.made, { lhs, rhs, modes, noremap }⟩
  have makes : added.makes? store.made = some stored :=
    makes?_eq_some.mpr ⟨modes, lhs, rhs, noremap, typed, rfl, rfl⟩
  have given : stored.serial < (added.run store).made := by
    rw [made_run, makes]
    exact Nat.lt_succ_self _
  have fresh : store.table.get? mode lhs ≠ some stored := by
    intro found
    exact Nat.lt_irrefl _ (numbered.serial mode lhs stored found)
  have here : (added.run store).table.get? mode lhs = some stored ↔ modes.contains mode = true := by
    rw [get?_run numbered.made.trimmed, makes]
    by_cases contains : modes.contains mode = true <;>
      simp [added, Operation.touches, contains, fresh]
  exact ((numbered.run added).get?_after_eq_some given later mode lhs).trans
    (and_congr_left fun _ => here)

end ModalInput.MappingStore
