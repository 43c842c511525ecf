/-
# ModalInput.Proofs.ListedModes -- the modes that a listing shows

A listing has one line for each mapping that is found, with a column for its modes.
The column shows the modes that the mapping was made for.  Whatever is removed,
cleared or mapped anew later takes the mapping out of some of them, and lookups
follow; the column does not (`partlyRemoved_listed`).

So a column is right exactly as long as nothing has touched the keys of its mapping
in any of its modes (`listed_modes`).

* `MappedModes.ofColumn_column` -- different modes have different columns.
* `effective` -- the modes in which a mapping is in effect.
* `exists_of_mem_stored` -- what is listed is in effect somewhere.
-/
import ModalInput.Proofs.MappingHistory

namespace ModalInput

set_option autoImplicit false

namespace MappedModes

/-- The modes that pass a test. -/
def passing (test : MapMode → Bool) : MappedModes where
  normal := test .normal
  visual := test .visual
  select := test .select
  operatorPending := test .operatorPending
  insert := test .insert
  commandLine := test .commandLine

@[simp] theorem contains_passing (test : MapMode → Bool) (mode : MapMode) :
    (passing test).contains mode = test mode := by
  cases mode <;> rfl

theorem eq_of_contains {a b : MappedModes} (same : ∀ mode, a.contains mode = b.contains mode) :
    a = b := by
  obtain ⟨normal, visual, select, operatorPending, insert, commandLine⟩ := a
  have n := same .normal
  have x := same .visual
  have s := same .select
  have o := same .operatorPending
  have i := same .insert
  have c := same .commandLine
  simp only [contains] at n x s o i c
  subst n x s o i c
  rfl

/-- The column of a line. -/
def column (modes : MappedModes) : List Char := (Mapping.padded 3 modes.letters).toList

/-- The modes that a column stands for. -/
def ofColumn (column : List Char) : MappedModes :=
  if column = [' ', ' ', ' '] then commanding
  else if column = ['!', ' ', ' '] then typing
  else {
    normal := column.contains 'n'
    visual := column.contains 'v' || column.contains 'x'
    select := column.contains 'v' || column.contains 's'
    operatorPending := column.contains 'o'
    insert := column.contains 'i'
    commandLine := column.contains 'c' }

/-- The column of no modes at all is that of the plain mapping commands; any other can
be read back. -/
theorem ofColumn_column {modes : MappedModes} (some : modes ≠ {}) :
    ofColumn modes.column = modes := by
  obtain ⟨normal, visual, select, operatorPending, insert, commandLine⟩ := modes
  cases normal <;> cases visual <;> cases select <;> cases operatorPending <;> cases insert <;>
    cases commandLine <;> first | rfl | exact absurd rfl some

end MappedModes

/-- Two lines that differ in their modes at most are equal if these are. -/
theorem Mapping.line_eq_iff {mapping : Mapping} {modes : MappedModes} (some : mapping.modes ≠ {})
    (other : modes ≠ {}) :
    mapping.line = { mapping with modes }.line ↔ mapping.modes = modes := by
  constructor
  · intro same
    have columns : mapping.modes.column = modes.column := by
      have chars := congrArg String.toList same
      simpa [Mapping.line, MappedModes.column] using chars
    rw [← MappedModes.ofColumn_column some, columns, MappedModes.ofColumn_column other]
  · intro same
    rw [← same]

namespace MappingStore

/-- The modes in which a mapping is in effect. -/
def effective (store : MappingStore) (stored : StoredMapping) : MappedModes :=
  .passing fun mode => store.table.get? mode stored.mapping.lhs = some stored

/-! ## What is listed -/

/-- A mapping is kept behind others unless its number is among theirs. -/
def keepNew (kept : List StoredMapping) (next : StoredMapping) : List StoredMapping :=
  if kept.any (·.serial = next.serial) then kept else kept ++ [next]

theorem mem_foldl_new {found kept : List StoredMapping} {stored : StoredMapping}
    (member : stored ∈ found.foldl keepNew kept) : stored ∈ kept ∨ stored ∈ found := by
  induction found generalizing kept with
  | nil => exact .inl member
  | cons next rest ih =>
      rcases ih member with early | late
      · unfold keepNew at early
        split at early
        · exact .inl early
        · rcases List.mem_append.mp early with old | new
          · exact .inl old
          · exact .inr (by simp [List.mem_singleton.mp new])
      · exact .inr (.tail _ late)

/-- What is listed is in effect in one of the modes that were asked for. -/
theorem exists_of_mem_stored {store : MappingStore} (made : store.Made) {shown : MappedModes}
    {start : List Key} {stored : StoredMapping} (listed : stored ∈ store.stored shown start) :
    ∃ mode keys, shown.contains mode = true ∧ start <+: keys ∧
      store.table.get? mode keys = some stored := by
  rcases mem_foldl_new listed with nothing | found
  · cases nothing
  · obtain ⟨mode, member, found⟩ := List.mem_flatMap.mp found
    obtain ⟨⟨keys, value⟩, entry, kept⟩ := List.mem_filterMap.mp found
    by_cases starts : start.isPrefixOf keys = true
    · rw [if_pos starts] at kept
      cases kept
      exact ⟨mode, keys, MappedModes.mem_toList.mp member, List.isPrefixOf_iff_prefix.mp starts,
        (made.trimmed.mem_entries mode keys _).mp entry⟩
    · rw [if_neg starts] at kept
      cases kept

/-- A listing has one line for each mapping that is found. -/
theorem list_perm (store : MappingStore) (shown : MappedModes) (start : List Key) :
    (store.list shown start).Perm
      ((store.stored shown start).map fun stored => stored.mapping.line) := by
  have sorted := List.mergeSort_perm ((store.stored shown start).map StoredMapping.mapping)
    fun a b => Key.textAll a.lhs ≤ Key.textAll b.lhs
  have lines := sorted.map Mapping.line
  rwa [List.map_map] at lines

/-! ## The column -/

/-- Each line of a listing shows a mapping that was made for the modes in its column.
They are the modes in which it is in effect exactly if no operation has touched its
keys in any of them since. -/
theorem listed_modes (operations : List Operation) (shown : MappedModes) (start : List Key) :
    let store := ({} : MappingStore).after operations
    (store.list shown start).Perm
        ((store.stored shown start).map fun stored => stored.mapping.line) ∧
      ∀ stored ∈ store.stored shown start, ∃ before modes lhs rhs noremap later,
        operations = before ++ .add modes lhs rhs noremap :: later ∧
        stored.mapping = { lhs, rhs, modes, noremap } ∧
        (∀ mode, (store.effective stored).contains mode = true ↔
          modes.contains mode = true ∧ Untouched later mode lhs) ∧
        (stored.mapping.line = { stored.mapping with modes := store.effective stored }.line ↔
          ∀ mode, modes.contains mode = true → Untouched later mode lhs) := by
  intro store
  refine ⟨list_perm store shown start, ?_⟩
  intro stored listed
  obtain ⟨mode, lhs, _, _, found⟩ :=
    exists_of_mem_stored (numbered_new.after operations).made listed
  obtain ⟨before, modes, rhs, noremap, later, cut, made⟩ := exists_added found
  have typed : lhs ≠ [] := by
    rintro rfl
    rw [KeyTable.get?_nil] at found
    cases found
  have inEffect (mode : MapMode) : (store.effective stored).contains mode = true ↔
      modes.contains mode = true ∧ Untouched later mode lhs := by
    have history := inEffect_iff before later modes typed rhs noremap mode
    rw [← cut, ← made] at history
    simpa [effective, made] using history
  have somewhere : (store.effective stored).contains mode = true := by
    simpa [effective, made] using made ▸ found
  refine ⟨before, modes, lhs, rhs, noremap, later, cut, by rw [made], inEffect, ?_⟩
  have nonempty (set : MappedModes) (member : set.contains mode = true) : set ≠ {} := by
    rintro rfl
    cases mode <;> cases member
  have own : stored.mapping.modes = modes := by rw [made]
  rw [Mapping.line_eq_iff (own ▸ nonempty modes ((inEffect mode).mp somewhere).1)
    (nonempty _ somewhere), own]
  constructor
  · intro same mode contains
    rw [same] at contains
    exact ((inEffect mode).mp contains).2
  · intro untouched
    refine MappedModes.eq_of_contains fun mode => ?_
    rw [Bool.eq_iff_iff, inEffect mode]
    exact ⟨fun contains => ⟨contains, untouched mode contains⟩, fun both => both.1⟩

/-- A mapping for the modes of commands. -/
def opening : Mapping :=
  ⟨[Key.char 'g', Key.char 'x'], .keys [Key.char 'd', Key.char 'd'], .commanding, false⟩

/-- It is made, and then removed in the two selecting modes. -/
def partlyRemoved : List Operation :=
  [.add opening.modes opening.lhs opening.rhs opening.noremap, .remove .selecting opening.lhs]

theorem opening_listed :
    let store := ({} : MappingStore).after partlyRemoved
    let stored : StoredMapping := ⟨0, opening⟩
    stored ∈ store.stored { normal := true } [] ∧
      ∃ before modes lhs rhs noremap later,
        partlyRemoved = before ++ .add modes lhs rhs noremap :: later ∧
        stored.mapping = { lhs, rhs, modes, noremap } ∧
        (∀ mode, (store.effective stored).contains mode = true ↔
          modes.contains mode = true ∧ Untouched later mode lhs) ∧
        (stored.mapping.line = { stored.mapping with modes := store.effective stored }.line ↔
          ∀ mode, modes.contains mode = true → Untouched later mode lhs) := by
  intro store stored
  have listed : stored ∈ store.stored { normal := true } [] := by decide
  exact ⟨listed, (listed_modes partlyRemoved { normal := true } []).2 stored listed⟩

/-- It is in effect in two modes, and listed as if it were still there in all four. -/
theorem partlyRemoved_listed :
    let store := ({} : MappingStore).after partlyRemoved
    (store.effective ⟨0, opening⟩).letters = "no" ∧
      { opening with modes := store.effective ⟨0, opening⟩ }.line = "no gx             dd" ∧
      store.list { normal := true } [] = ["   gx             dd"] := by
  intro store
  have only : store.stored { normal := true } [] = [⟨0, opening⟩] := by decide
  refine ⟨by decide, by decide, ?_⟩
  rw [list, mappings, only, List.map_singleton, List.mergeSort_singleton]
  decide

end MappingStore

end ModalInput
