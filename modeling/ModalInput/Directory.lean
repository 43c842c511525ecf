/-
# ModalInput.Directory -- finite maps that keep the order of their entries

Options, values, commands and the tables of the modes are all kept by name.  A
directory is a list of entries with different names; a new name goes to the end,
a known one keeps its place.  What a directory means is `get?`, and each
operation has one equation for it.
-/

namespace ModalInput

set_option autoImplicit false

universe u v

/-- Entries with different names, in the order in which the names came. -/
structure Directory (α : Type u) (β : Type v) where
  entries : List (α × β) := []
  distinct : (entries.map Prod.fst).Nodup := by simp

namespace Directory

variable {α : Type u} {β : Type v}

instance : Inhabited (Directory α β) := ⟨{}⟩

def empty : Directory α β := {}

def keys (d : Directory α β) : List α := d.entries.map Prod.fst

def values (d : Directory α β) : List β := d.entries.map Prod.snd

section Lookup

variable [DecidableEq α]

/-- The value of the first entry with a name. -/
def find? (name : α) : List (α × β) → Option β
  | [] => none
  | (key, value) :: rest => if key = name then some value else find? name rest

/-- The entries with one of them replaced, or a new one at the end. -/
def put (name : α) (value : β) : List (α × β) → List (α × β)
  | [] => [(name, value)]
  | (key, old) :: rest =>
      if key = name then (name, value) :: rest else (key, old) :: put name value rest

theorem mem_keys_put (name : α) (value : β) (entries : List (α × β)) (key : α) :
    key ∈ (put name value entries).map Prod.fst ↔ key = name ∨ key ∈ entries.map Prod.fst := by
  induction entries with
  | nil => simp [put]
  | cons entry rest ih =>
      obtain ⟨first, old⟩ := entry
      unfold put
      split
      · rename_i same; subst same; simp
      · simp only [List.map_cons, List.mem_cons, ih]
        constructor
        · rintro (rfl | rfl | h) <;> simp_all
        · rintro (rfl | rfl | h) <;> simp_all

theorem nodup_put (name : α) (value : β) (entries : List (α × β))
    (distinct : (entries.map Prod.fst).Nodup) : ((put name value entries).map Prod.fst).Nodup := by
  induction entries with
  | nil => simp [put]
  | cons entry rest ih =>
      obtain ⟨first, old⟩ := entry
      simp only [List.map_cons, List.nodup_cons] at distinct
      unfold put
      split
      · rename_i same; subst same; simpa using distinct
      · rename_i other
        simp only [List.map_cons, List.nodup_cons, mem_keys_put]
        exact ⟨fun member => member.elim other distinct.1, ih distinct.2⟩

theorem find?_put (name : α) (value : β) (entries : List (α × β)) (key : α) :
    find? key (put name value entries) = if key = name then some value else find? key entries := by
  induction entries with
  | nil => simp [put, find?, eq_comm]
  | cons entry rest ih =>
      obtain ⟨first, old⟩ := entry
      unfold put
      split
      · rename_i same; subst same
        by_cases here : key = first <;> simp_all [find?, eq_comm]
      · rename_i other
        by_cases here : first = key
        · subst here; simp [find?, other]
        · simp [find?, here, ih]

/-- The value under a name. -/
def get? (d : Directory α β) (name : α) : Option β := find? name d.entries

def contains (d : Directory α β) (name : α) : Bool := (d.get? name).isSome

/-- Put a value under a name. -/
def insert (d : Directory α β) (name : α) (value : β) : Directory α β where
  entries := put name value d.entries
  distinct := nodup_put name value d.entries d.distinct

/-- Keep the entries that pass a test. -/
def filter (d : Directory α β) (keep : α → β → Bool) : Directory α β where
  entries := d.entries.filter fun entry => keep entry.1 entry.2
  distinct := d.distinct.sublist (List.filter_sublist.map _)

/-- Remove a name. -/
def erase (d : Directory α β) (name : α) : Directory α β := d.filter fun key _ => key ≠ name

@[simp] theorem get?_empty (name : α) : (empty : Directory α β).get? name = none := rfl

theorem get?_insert (d : Directory α β) (name : α) (value : β) (key : α) :
    (d.insert name value).get? key = if key = name then some value else d.get? key :=
  find?_put name value d.entries key

/-- Each name has one entry, so the entries say what the directory means. -/
theorem mem_entries (d : Directory α β) (name : α) (value : β) :
    (name, value) ∈ d.entries ↔ d.get? name = some value := by
  have distinct := d.distinct
  unfold get?
  generalize d.entries = entries at distinct
  induction entries with
  | nil => simp [find?]
  | cons entry rest ih =>
      obtain ⟨first, own⟩ := entry
      simp only [List.map_cons, List.nodup_cons] at distinct
      have deeper : (name, value) ∈ rest ↔ find? name rest = some value := ih distinct.2
      rw [List.mem_cons, Prod.mk.injEq, deeper, find?]
      by_cases here : first = name
      · subst here
        have absent : find? first rest ≠ some value := fun found =>
          distinct.1 (List.mem_map_of_mem (deeper.mpr found))
        simp [absent, eq_comm]
      · simp [here, Ne.symm here]

theorem get?_filter (d : Directory α β) (keep : α → β → Bool) (key : α) :
    (d.filter keep).get? key = (d.get? key).filter (keep key) := by
  have distinct := d.distinct
  simp only [get?, filter]
  generalize d.entries = entries at distinct
  induction entries with
  | nil => rfl
  | cons entry rest ih =>
      obtain ⟨first, value⟩ := entry
      simp only [List.map_cons, List.nodup_cons] at distinct
      by_cases here : first = key
      · subst here
        have absent : find? first (rest.filter fun entry => keep entry.1 entry.2) = none := by
          have fresh := distinct.1
          clear ih distinct
          induction rest with
          | nil => rfl
          | cons other more ih =>
              simp only [List.map_cons, List.mem_cons, not_or] at fresh
              rw [List.filter_cons]
              split
              · simp [find?, Ne.symm fresh.1, ih fresh.2]
              · exact ih fresh.2
        by_cases kept : keep first value = true
        · simp [kept, find?, Option.filter]
        · simp [kept, find?, Option.filter, absent]
      · rw [List.filter_cons]
        split <;> simp [find?, here, ih distinct.2]

theorem get?_erase (d : Directory α β) (name key : α) :
    (d.erase name).get? key = if key = name then none else d.get? key := by
  rw [erase, get?_filter]
  cases d.get? key <;> by_cases same : key = name <;> simp [Option.filter, same]

theorem length_erase_le (d : Directory α β) (name : α) :
    (d.erase name).entries.length ≤ d.entries.length :=
  List.length_filter_le _ _

/-- Without a name that is there, a directory has fewer entries. -/
theorem length_erase_lt {d : Directory α β} {name : α} {value : β}
    (found : d.get? name = some value) : (d.erase name).entries.length < d.entries.length := by
  apply List.length_filter_lt_length_iff_exists.mpr
  exact ⟨(name, value), (mem_entries d name value).mpr found, by simp⟩

end Lookup

end Directory

end ModalInput
