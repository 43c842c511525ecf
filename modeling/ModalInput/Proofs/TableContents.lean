/-
# ModalInput.Proofs.TableContents -- a table is a finite map

What a table holds is the value of every mode and sequence (`Contents`), and each
operation changes it in the way its name says.  The forests of a table are trimmed
after any operations, and then every answer of the table is the answer of the map:
a lookup asks only for values, a listing shows each of them once, and the size
counts them (`TableAnswers.Represents`).

* `get?_remove`, `get?_clearMode` -- what the operations leave.
* `Trimmed.lookup_eq` -- a lookup, by the values alone.
* `trimmed_contentsAfter` -- after any operations, a table holds what they left in a map.
* `TableAnswers.Represents.alike` -- two tables with the same contents answer alike.
-/
import Mathlib.Data.Set.Card
import ModalInput.Proofs.TrimmedForest

namespace ModalInput

set_option autoImplicit false

variable {μ κ ν : Type}

namespace KeyTable

/-! ## The parts of a table -/

/-- Every mode and sequence that has a value. -/
def places (table : KeyTable μ κ ν) : List (μ × List κ) :=
  table.roots.entries.flatMap fun entry => entry.2.entries.map fun listed => (entry.1, listed.1)

theorem length_places (table : KeyTable μ κ ν) : table.places.length = table.size := by
  have summed (entries : List (μ × Forest κ ν)) (start : Nat) :
      (entries.map Prod.snd).foldl (fun n forest => n + forest.size) start =
        start + (entries.flatMap fun entry =>
          entry.2.entries.map fun listed => (entry.1, listed.1)).length := by
    induction entries generalizing start with
    | nil => rfl
    | cons entry rest ih =>
        simp only [List.map_cons, List.foldl_cons, ih, List.flatMap_cons, List.length_append,
          List.length_map, Forest.length_entries]
        omega
  rw [size, Directory.values, summed, Nat.zero_add]
  rfl

variable [DecidableEq μ]

/-- The forest of a mode, which is empty if the mode was given no sequence. -/
def root (table : KeyTable μ κ ν) (mode : μ) : Forest κ ν :=
  (table.roots.get? mode).getD .empty

theorem entries_eq (table : KeyTable μ κ ν) (mode : μ) :
    table.entries mode = (table.root mode).entries := by
  unfold entries root
  cases table.roots.get? mode <;> rfl

variable [DecidableEq κ]

/-! ## Operations, and what they do to a map -/

inductive Operation (μ κ ν : Type) where
  | insert (mode : μ) (keys : List κ) (value : ν)
  | remove (mode : μ) (keys : List κ)
  | clearMode (mode : μ)
  | clear

/-- The value of every mode and sequence that has one. -/
abbrev Contents (μ κ ν : Type) := μ → List κ → Option ν

/-- The table after an operation. -/
def Operation.run (table : KeyTable μ κ ν) : Operation μ κ ν → KeyTable μ κ ν
  | .insert mode keys value => table.insert mode keys value
  | .remove mode keys => table.remove mode keys
  | .clearMode mode => table.clearMode mode
  | .clear => .empty

/-- What an operation does to a map of modes and sequences that are not empty. -/
def Operation.change (contents : Contents μ κ ν) : Operation μ κ ν → Contents μ κ ν
  | .insert mode keys value => fun mode' keys' =>
      if keys ≠ [] ∧ mode' = mode ∧ keys' = keys then some value else contents mode' keys'
  | .remove mode keys => fun mode' keys' =>
      if mode' = mode ∧ keys' = keys then none else contents mode' keys'
  | .clearMode mode => fun mode' keys' => if mode' = mode then none else contents mode' keys'
  | .clear => fun _ _ => none

/-! ## Trimmed tables -/

/-- Every forest is trimmed. -/
def Trimmed (table : KeyTable μ κ ν) : Prop :=
  ∀ mode forest, table.roots.get? mode = some forest → forest.Trimmed

theorem Trimmed.root {table : KeyTable μ κ ν} (trimmed : table.Trimmed) (mode : μ) :
    (table.root mode).Trimmed := by
  unfold KeyTable.root
  cases found : table.roots.get? mode with
  | none => exact .empty
  | some forest => exact trimmed mode forest found

theorem trimmed_empty : (empty : KeyTable μ κ ν).Trimmed := by
  intro mode forest found
  cases found

/-- A table with another forest for a mode. -/
theorem Trimmed.put {table : KeyTable μ κ ν} (trimmed : table.Trimmed) (mode : μ)
    {forest : Forest κ ν} (trimmed' : forest.Trimmed) :
    (⟨table.roots.insert mode forest⟩ : KeyTable μ κ ν).Trimmed := by
  intro mode' forest' found
  rw [Directory.get?_insert] at found
  split at found
  · cases found
    exact trimmed'
  · exact trimmed mode' forest' found

theorem Trimmed.insert {table : KeyTable μ κ ν} (trimmed : table.Trimmed) (mode : μ)
    (keys : List κ) (value : ν) : (table.insert mode keys value).Trimmed := by
  unfold KeyTable.insert
  split
  · exact trimmed
  · exact trimmed.put mode ((trimmed.root mode).insert value keys)

theorem Trimmed.remove {table : KeyTable μ κ ν} (trimmed : table.Trimmed) (mode : μ)
    (keys : List κ) : (table.remove mode keys).Trimmed := by
  unfold KeyTable.remove
  split
  · rename_i forest found
    split
    · exact trimmed.put mode ((trimmed mode forest found).remove keys)
    · exact trimmed
  · exact trimmed

theorem Trimmed.clearMode {table : KeyTable μ κ ν} (trimmed : table.Trimmed) (mode : μ) :
    (table.clearMode mode).Trimmed := by
  intro mode' forest found
  rw [KeyTable.clearMode, Directory.get?_erase] at found
  split at found
  · cases found
  · exact trimmed mode' forest found

/-! ## Values -/

theorem get?_root (table : KeyTable μ κ ν) (mode : μ) (keys : List κ) :
    table.get? mode keys = Forest.valueFrom (none, table.root mode) keys :=
  get?_eq table mode keys

theorem get?_nil (table : KeyTable μ κ ν) (mode : μ) : table.get? mode [] = none := by
  rw [get?_root]
  rfl

/-- Keys without a value are not removed. -/
theorem remove_of_none {table : KeyTable μ κ ν} {mode : μ} {keys : List κ}
    (nothing : table.get? mode keys = none) : table.remove mode keys = table := by
  unfold remove
  split
  · rw [if_neg (by simp [nothing])]
  · rfl

/-- After a removal its keys have no value in its mode, and nothing else has
changed. -/
theorem Trimmed.get?_remove {table : KeyTable μ κ ν} (trimmed : table.Trimmed) (mode : μ)
    (keys : List κ) (mode' : μ) (keys' : List κ) :
    (table.remove mode keys).get? mode' keys' =
      if mode' = mode ∧ keys' = keys then none else table.get? mode' keys' := by
  cases valued : table.get? mode keys with
  | none =>
      rw [remove_of_none valued]
      split
      · rename_i same
        rw [same.1, same.2, valued]
      · rfl
  | some value =>
      have typed : keys ≠ [] := by
        rintro rfl
        rw [get?_nil] at valued
        cases valued
      cases found : table.roots.get? mode with
      | none =>
          rw [get?_eq, found] at valued
          simp [Forest.valueFrom_empty] at valued
      | some forest =>
          have removed : table.remove mode keys =
              { roots := table.roots.insert mode (forest.remove keys) } := by
            simp only [KeyTable.remove, found, valued, Option.isSome_some, if_true]
          rw [removed, get?_eq, get?_eq, Directory.get?_insert]
          by_cases same : mode' = mode
          · subst same
            simp [found, (trimmed mode' forest found).valueFrom_remove keys typed]
          · simp [same]

theorem get?_clearMode (table : KeyTable μ κ ν) (mode mode' : μ) (keys : List κ) :
    (table.clearMode mode).get? mode' keys =
      if mode' = mode then none else table.get? mode' keys := by
  rw [get?_eq, get?_eq, clearMode, Directory.get?_erase]
  split
  · exact Forest.valueFrom_empty keys
  · rfl

/-! ## Lookup -/

theorem find?_append (table : KeyTable μ κ ν) (mode : μ) (keys more : List κ) :
    table.find? mode (keys ++ more) =
      (table.find? mode keys).bind fun next => Forest.descend? next more := by
  unfold find?
  cases table.roots.get? mode with
  | none => rfl
  | some forest => exact Forest.descend?_append _ keys more

theorem find?_none {table : KeyTable μ κ ν} {mode : μ} {keys : List κ}
    (nothing : table.find? mode keys = none) (more : List κ) :
    table.get? mode (keys ++ more) = none := by
  rw [get?, find?_append, nothing]
  rfl

theorem find?_some {table : KeyTable μ κ ν} {mode : μ} {keys : List κ}
    {next : Option ν × Forest κ ν} (found : table.find? mode keys = some next) (more : List κ) :
    table.get? mode (keys ++ more) = Forest.valueFrom next more := by
  rw [get?, find?_append, found]
  rfl

/-- Keys that start a longer sequence which is there can be followed. -/
theorem needsMore_of_longer {table : KeyTable μ κ ν} {mode : μ} {keys : List κ} {key : κ}
    {rest : List κ} (there : table.lookup mode (keys ++ key :: rest) ≠ .unmapped) :
    (table.lookup mode keys).needsMore = true := by
  have found : (table.find? mode (keys ++ key :: rest)).isSome = true := by
    unfold lookup at there
    cases found : table.find? mode (keys ++ key :: rest) with
    | none => simp [found] at there
    | some next => rfl
  rw [find?_append] at found
  unfold lookup
  cases here : table.find? mode keys with
  | none => simp [here] at found
  | some next =>
      rw [here, Option.bind_some] at found
      cases below : next.2 with
      | empty => simp [Forest.descend?, below, Forest.child?] at found
      | tree _ _ _ _ => simp [below, Forest.isEmpty]

theorem Trimmed.find? {table : KeyTable μ κ ν} (trimmed : table.Trimmed) {mode : μ}
    {keys : List κ} {next : Option ν × Forest κ ν} (found : table.find? mode keys = some next) :
    next.2.Trimmed := by
  unfold KeyTable.find? at found
  cases rooted : table.roots.get? mode with
  | none => simp [rooted] at found
  | some forest =>
      rw [rooted, Option.bind_some] at found
      exact (trimmed mode forest rooted).descend none found

/-- Some longer sequence has a value. -/
def Continues (contents : Contents μ κ ν) (mode : μ) (keys : List κ) : Prop :=
  ∃ key rest, (contents mode (keys ++ key :: rest)).isSome = true

/-- More keys can be followed exactly if some longer sequence has a value. -/
theorem Trimmed.needsMore_lookup {table : KeyTable μ κ ν} (trimmed : table.Trimmed) (mode : μ)
    (keys : List κ) :
    (table.lookup mode keys).needsMore = true ↔ Continues table.get? mode keys := by
  unfold lookup Continues
  cases found : table.find? mode keys with
  | none =>
      constructor
      · intro more
        cases more
      · rintro ⟨key, rest, valued⟩
        rw [find?_none found] at valued
        cases valued
  | some next =>
      simp only [Lookup.needsMore_of, find?_some found]
      constructor
      · intro some
        exact (trimmed.find? found).exists_value (by simpa using some) next.1
      · rintro ⟨key, rest, valued⟩
        cases below : next.2 with
        | empty => simp [Forest.valueFrom_cons, below, Forest.child?] at valued
        | tree _ _ _ _ => rfl

/-- A lookup, by the values alone. -/
theorem Trimmed.lookup_eq {table : KeyTable μ κ ν} (trimmed : table.Trimmed) (mode : μ)
    (keys : List κ) [Decidable (Continues table.get? mode keys)] :
    table.lookup mode keys =
      .of (table.get? mode keys) (decide (Continues table.get? mode keys)) := by
  have more : (table.lookup mode keys).needsMore = decide (Continues table.get? mode keys) := by
    rw [Bool.eq_iff_iff, trimmed.needsMore_lookup, decide_eq_true_iff]
  rw [← more, ← value?_lookup]
  cases table.lookup mode keys <;> rfl

/-! ## Listings and sizes -/

/-- The listed sequences of a mode are those that have a value. -/
theorem Trimmed.mem_entries {table : KeyTable μ κ ν} (trimmed : table.Trimmed) (mode : μ)
    (keys : List κ) (value : ν) :
    (keys, value) ∈ table.entries mode ↔ table.get? mode keys = some value := by
  rw [entries_eq, get?_root]
  cases keys with
  | nil => simp [Forest.not_nil_mem_entries, Forest.valueFrom, Forest.descend?]
  | cons key rest => exact (trimmed.root mode).mem_entries none key rest value

theorem Trimmed.isModeEmpty_iff {table : KeyTable μ κ ν} (trimmed : table.Trimmed) (mode : μ) :
    table.isModeEmpty mode = true ↔ ∀ keys, table.get? mode keys = none := by
  have same : table.isModeEmpty mode = (table.root mode).isEmpty := by
    unfold isModeEmpty KeyTable.root
    cases table.roots.get? mode <;> rfl
  rw [same]
  constructor
  · intro nothing keys
    rw [get?_root]
    cases rooted : table.root mode with
    | empty => exact Forest.valueFrom_empty keys
    | tree _ _ _ _ => simp [rooted, Forest.isEmpty] at nothing
  · intro nothing
    cases some : (table.root mode).isEmpty with
    | true => rfl
    | false =>
        obtain ⟨key, rest, valued⟩ := (trimmed.root mode).exists_value some none
        rw [← get?_root, nothing] at valued
        cases valued

theorem Trimmed.mem_places {table : KeyTable μ κ ν} (trimmed : table.Trimmed) (mode : μ)
    (keys : List κ) :
    (mode, keys) ∈ table.places ↔ (table.get? mode keys).isSome = true := by
  have listed : (mode, keys) ∈ table.places ↔
      ∃ forest, table.roots.get? mode = some forest ∧ ∃ value, (keys, value) ∈ forest.entries := by
    simp only [places, List.mem_flatMap, List.mem_map, Prod.exists, Prod.mk.injEq,
      Directory.mem_entries]
    constructor
    · rintro ⟨_, forest, found, _, value, member, rfl, rfl⟩
      exact ⟨forest, found, value, member⟩
    · rintro ⟨forest, found, value, member⟩
      exact ⟨mode, forest, found, keys, value, member, rfl, rfl⟩
  rw [listed, Option.isSome_iff_exists]
  simp only [← trimmed.mem_entries mode keys]
  constructor
  · rintro ⟨forest, found, value, member⟩
    exact ⟨value, by simpa [entries, found] using member⟩
  · rintro ⟨value, member⟩
    cases found : table.roots.get? mode with
    | none => simp [entries, found] at member
    | some forest => exact ⟨forest, rfl, value, by simpa [entries, found] using member⟩

theorem Trimmed.nodup_places {table : KeyTable μ κ ν} (trimmed : table.Trimmed) :
    table.places.Nodup := by
  unfold places
  rw [List.nodup_flatMap]
  constructor
  · rintro ⟨mode, forest⟩ member
    have rooted := (Directory.mem_entries table.roots mode forest).mp member
    have mapped := List.Nodup.map (f := fun keys => (mode, keys))
      (fun _ _ same => (Prod.mk.inj same).2) (trimmed mode forest rooted).nodup_entries
    simpa [List.map_map, Function.comp_def] using mapped
  · have distinct := table.roots.distinct
    rw [List.Nodup, List.pairwise_map] at distinct
    refine distinct.imp ?_
    rintro ⟨mode, forest⟩ ⟨mode', forest'⟩ differ ⟨m, keys⟩ member member'
    obtain ⟨_, _, same⟩ := List.mem_map.mp member
    obtain ⟨_, _, same'⟩ := List.mem_map.mp member'
    exact differ ((Prod.mk.inj same).1.trans (Prod.mk.inj same').1.symm)

/-! ## A run -/

theorem Trimmed.run {table : KeyTable μ κ ν} (trimmed : table.Trimmed)
    (operation : Operation μ κ ν) : (operation.run table).Trimmed := by
  cases operation with
  | insert mode keys value => exact trimmed.insert mode keys value
  | remove mode keys => exact trimmed.remove mode keys
  | clearMode mode => exact trimmed.clearMode mode
  | clear => exact trimmed_empty

/-- An operation changes the values of a table as it changes those of a map. -/
theorem Trimmed.get?_run {table : KeyTable μ κ ν} (trimmed : table.Trimmed)
    (operation : Operation μ κ ν) : (operation.run table).get? = operation.change table.get? := by
  funext mode' keys'
  cases operation with
  | insert mode keys value =>
      by_cases typed : keys = []
      · subst typed
        simp [Operation.run, Operation.change, insert_nil]
      · simp only [Operation.run, Operation.change, get?_insert _ _ _ _ typed, typed, ne_eq,
          not_false_eq_true, true_and]
  | remove mode keys => exact trimmed.get?_remove mode keys mode' keys'
  | clearMode mode => exact get?_clearMode table mode mode' keys'
  | clear => rfl

/-- What the operations leave in a table that was empty. -/
def contentsAfter (operations : List (Operation μ κ ν)) : Contents μ κ ν :=
  operations.foldl Operation.change fun _ _ => none

theorem contentsAfter_concat (operations : List (Operation μ κ ν)) (last : Operation μ κ ν) :
    contentsAfter (operations ++ [last]) = last.change (contentsAfter operations) := by
  rw [contentsAfter, List.foldl_append]
  rfl

/-- Operations on an empty table of forests leave a trimmed one with these contents. -/
theorem trimmed_contentsAfter (operations : List (Operation μ κ ν)) :
    (operations.foldl Operation.run empty).Trimmed ∧
      (operations.foldl Operation.run empty).get? = contentsAfter operations := by
  induction operations using List.reverseRecOn with
  | nil => exact ⟨trimmed_empty, rfl⟩
  | append_singleton before last ih =>
      obtain ⟨trimmed, values⟩ := ih
      rw [List.foldl_append, contentsAfter_concat, ← values]
      exact ⟨trimmed.run last, trimmed.get?_run last⟩

end KeyTable

/-! ## Answers -/

/-- What a table answers about the sequences that it holds. -/
structure TableAnswers (μ κ ν : Type) where
  value : μ → List κ → Option ν
  lookup : μ → List κ → Lookup ν
  entries : μ → List (List κ × ν)
  size : Nat
  isModeEmpty : μ → Bool

namespace TableAnswers

open KeyTable (Contents Continues)

/-- Every answer is the answer of a map. -/
structure Represents (answers : TableAnswers μ κ ν) (contents : Contents μ κ ν) : Prop where
  value : ∀ mode keys, answers.value mode keys = contents mode keys
  /-- A lookup tells the value, and whether some longer sequence has one. -/
  lookup : ∀ mode keys [Decidable (Continues contents mode keys)],
    answers.lookup mode keys = .of (contents mode keys) (decide (Continues contents mode keys))
  /-- Every sequence of a mode is listed with its value, and listed once. -/
  listed : ∀ mode, ((answers.entries mode).map Prod.fst).Nodup ∧
    ∀ keys value, (keys, value) ∈ answers.entries mode ↔ contents mode keys = some value
  size : Set.encard { place : μ × List κ | (contents place.1 place.2).isSome = true } = answers.size
  isModeEmpty : ∀ mode, answers.isModeEmpty mode = true ↔ ∀ keys, contents mode keys = none

/-- Two tables answer alike, but for the order in which they list. -/
structure Alike (first second : TableAnswers μ κ ν) : Prop where
  value : ∀ mode keys, first.value mode keys = second.value mode keys
  lookup : ∀ mode keys, first.lookup mode keys = second.lookup mode keys
  entries : ∀ mode, (first.entries mode).Perm (second.entries mode)
  size : first.size = second.size
  isModeEmpty : ∀ mode, first.isModeEmpty mode = second.isModeEmpty mode

theorem Represents.alike {first second : TableAnswers μ κ ν} {contents : Contents μ κ ν}
    (represents : first.Represents contents) (represents' : second.Represents contents) :
    first.Alike second where
  value := fun mode keys => (represents.value mode keys).trans (represents'.value mode keys).symm
  lookup := by
    intro mode keys
    classical
    exact (represents.lookup mode keys).trans (represents'.lookup mode keys).symm
  entries := by
    intro mode
    obtain ⟨once, listed⟩ := represents.listed mode
    obtain ⟨once', listed'⟩ := represents'.listed mode
    refine (List.perm_ext_iff_of_nodup once.of_map once'.of_map).mpr fun entry => ?_
    exact (listed entry.1 entry.2).trans (listed' entry.1 entry.2).symm
  size := by exact_mod_cast represents.size.symm.trans represents'.size
  isModeEmpty := by
    intro mode
    rw [Bool.eq_iff_iff, represents.isModeEmpty, represents'.isModeEmpty]

end TableAnswers

namespace KeyTable

variable [DecidableEq μ] [DecidableEq κ]

/-- What a table of forests answers. -/
def answers (table : KeyTable μ κ ν) : TableAnswers μ κ ν :=
  ⟨table.get?, table.lookup, table.entries, table.size, table.isModeEmpty⟩

theorem Trimmed.represents {table : KeyTable μ κ ν} (trimmed : table.Trimmed) :
    table.answers.Represents table.get? where
  value := fun _ _ => rfl
  lookup := fun mode keys _ => trimmed.lookup_eq mode keys
  listed := by
    intro mode
    refine ⟨?_, trimmed.mem_entries mode⟩
    show ((table.entries mode).map Prod.fst).Nodup
    rw [entries_eq]
    exact (trimmed.root mode).nodup_entries
  size := by
    have counted : { place : μ × List κ | (table.get? place.1 place.2).isSome = true } =
        table.places.toFinset := by
      ext ⟨mode, keys⟩
      simp [trimmed.mem_places]
    rw [counted, Set.encard_coe_eq_coe_finsetCard,
      List.toFinset_card_of_nodup trimmed.nodup_places, length_places]
    rfl
  isModeEmpty := trimmed.isModeEmpty_iff

end KeyTable

end ModalInput
