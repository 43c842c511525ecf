/-
# ModalInput.Proofs.TableLookup -- what a table holds after an insertion

A table is used through the value that it has for a sequence of keys
(`KeyTable.get?`), and an insertion changes it for that sequence only.  On the way
down a forest, a key either leads to the tree that the insertion changed, or to
one that it left alone (`Forest.child?_insert`).

* `KeyTable.get?_insert`, `value?_lookup` -- the two equations of a table.
* `CommandKeys.get?_bind` -- the same for a table of commands.
-/
import ModalInput.Binding.Default
import ModalInput.Mapping.Store

namespace ModalInput

set_option autoImplicit false

namespace Forest

variable {κ ν : Type} [DecidableEq κ]

/-- The value at the end of a sequence that starts at some tree. -/
def valueFrom (here : Option ν × Forest κ ν) (keys : List κ) : Option ν :=
  (descend? here keys).bind Prod.fst

theorem valueFrom_cons (here : Option ν × Forest κ ν) (key : κ) (rest : List κ) :
    valueFrom here (key :: rest) =
      (here.2.child? key).bind fun next => valueFrom next rest := by
  unfold valueFrom
  rw [descend?]
  cases here.2.child? key <;> rfl

/-- Nothing is found in an empty forest. -/
theorem valueFrom_empty (keys : List κ) :
    valueFrom ((none, .empty) : Option ν × Forest κ ν) keys = none := by
  cases keys with
  | nil => rfl
  | cons key rest => rfl

/-- What a first key leads to, with nothing below a key that is not there. -/
def childOrEmpty (forest : Forest κ ν) (key : κ) : Option ν × Forest κ ν :=
  (forest.child? key).getD (none, .empty)

theorem valueFrom_childOrEmpty (forest : Forest κ ν) (key : κ) (rest : List κ) :
    valueFrom (forest.childOrEmpty key) rest =
      (forest.child? key).bind fun next => valueFrom next rest := by
  unfold childOrEmpty
  cases forest.child? key with
  | none => exact valueFrom_empty rest
  | some next => rfl

/-- Where an insertion leads: to the value, or further down. -/
def grown (value : ν) (child : Option ν × Forest κ ν) (rest : List κ) : Option ν × Forest κ ν :=
  if rest.isEmpty then (some value, child.2) else (child.1, child.2.insert value rest)

theorem insert_empty (value : ν) (key : κ) (rest : List κ) :
    (Forest.empty : Forest κ ν).insert value (key :: rest) = path value key rest := rfl

theorem child?_insert (forest : Forest κ ν) (value : ν) (key : κ) (rest : List κ) (other : κ) :
    (forest.insert value (key :: rest)).child? other =
      if other = key then some (grown value (forest.childOrEmpty key) rest)
      else forest.child? other := by
  induction forest with
  | empty =>
      rw [insert_empty]
      cases rest with
      | nil =>
          by_cases same : other = key <;>
            simp [path, child?, childOrEmpty, grown, eq_comm, same]
      | cons next more =>
          by_cases same : other = key
          · subst same
            simp [path, child?, childOrEmpty, grown, insert_empty]
          · simp [path, child?, same, Ne.symm same]
  | tree first old below beside _ ih =>
      by_cases here : first = key
      · subst here
        by_cases same : other = first
        · subst same
          cases rest <;> simp [insert, child?, childOrEmpty, grown]
        · cases rest <;> simp [insert, child?, same, Ne.symm same]
      · have skips : childOrEmpty (.tree first old below beside) key = beside.childOrEmpty key := by
          simp [childOrEmpty, child?, here]
        rw [skips]
        by_cases same : other = key
        · subst same
          simpa [insert, child?, here] using ih
        · by_cases found : first = other
          · simp [insert, child?, found, same]
          · simpa [insert, child?, here, found, same] using ih

/-- After an insertion its keys have the new value, and all others the old one. -/
theorem valueFrom_insert (value : ν) (keys : List κ) (typed : keys ≠ []) (here : Option ν)
    (forest : Forest κ ν) (others : List κ) :
    valueFrom (here, forest.insert value keys) others =
      if others = keys then some value else valueFrom (here, forest) others := by
  induction keys generalizing here forest others with
  | nil => exact absurd rfl typed
  | cons key rest ih =>
      cases others with
      | nil => rfl
      | cons other more =>
          rw [valueFrom_cons, valueFrom_cons, child?_insert]
          by_cases same : other = key
          · subst same
            rw [if_pos rfl, Option.bind_some]
            cases rest with
            | nil =>
                cases more with
                | nil => rw [if_pos rfl]; rfl
                | cons next later =>
                    rw [if_neg (by simp), ← valueFrom_childOrEmpty]
                    rfl
            | cons next later =>
                have deeper := ih (by simp) (forest.childOrEmpty other).1
                  (forest.childOrEmpty other).2 more
                rw [← valueFrom_childOrEmpty]
                show valueFrom ((forest.childOrEmpty other).1,
                  (forest.childOrEmpty other).2.insert value (next :: later)) more = _
                rw [deeper]
                simp
          · rw [if_neg same, if_neg (by simp [same])]

end Forest

namespace KeyTable

variable {μ κ ν : Type} [DecidableEq μ] [DecidableEq κ]

theorem get?_eq (table : KeyTable μ κ ν) (mode : μ) (keys : List κ) :
    table.get? mode keys =
      Forest.valueFrom (none, (table.roots.get? mode).getD .empty) keys := by
  unfold get? find?
  cases table.roots.get? mode with
  | none => exact (Forest.valueFrom_empty keys).symm
  | some forest => rfl

@[simp] theorem get?_empty (mode : μ) (keys : List κ) :
    (empty : KeyTable μ κ ν).get? mode keys = none := rfl

/-- After an insertion its keys have the new value in its mode, and nothing else
has changed. -/
theorem get?_insert (table : KeyTable μ κ ν) (mode : μ) (keys : List κ) (value : ν)
    (typed : keys ≠ []) (mode' : μ) (keys' : List κ) :
    (table.insert mode keys value).get? mode' keys' =
      if mode' = mode ∧ keys' = keys then some value else table.get? mode' keys' := by
  have long : keys.isEmpty = false := by simpa using typed
  rw [insert, if_neg (by simp [long]), get?_eq, get?_eq, Directory.get?_insert]
  by_cases same : mode' = mode
  · subst same
    rw [if_pos rfl, Option.getD_some, Forest.valueFrom_insert value keys typed]
    simp
  · simp [same]

/-- An empty sequence is given no value. -/
theorem insert_nil (table : KeyTable μ κ ν) (mode : μ) (value : ν) :
    table.insert mode [] value = table := rfl

/-- A lookup finds the value of exactly the keys. -/
theorem value?_lookup (table : KeyTable μ κ ν) (mode : μ) (keys : List κ) :
    (table.lookup mode keys).value? = table.get? mode keys := by
  unfold lookup get?
  cases table.find? mode keys with
  | none => rfl
  | some found => simp

end KeyTable

theorem Lookup.value?_map {ν ω : Type} (f : ν → ω) (found : Lookup ν) :
    (found.map f).value? = found.value?.map f := by
  cases found <;> rfl

theorem Lookup.needsMore_map {ν ω : Type} (f : ν → ω) (found : Lookup ν) :
    (found.map f).needsMore = found.needsMore := by
  cases found <;> rfl

theorem MappingStore.value?_lookup (store : MappingStore) (mode : MapMode) (keys : List Key) :
    (store.lookup mode keys).value? = (store.table.get? mode keys).map StoredMapping.mapping := by
  rw [lookup, Lookup.value?_map, KeyTable.value?_lookup]

namespace CommandKeys

/-- A lookup after keys were bound in some modes finds the new command, or what was
there before. -/
theorem get?_bind {keys : CommandKeys} {modes : MappedModes} {sequence typed : List Key}
    {action found : Action} {mode : MapMode}
    (leads : (keys.bind modes sequence action).table.get? mode typed = some found) :
    modes.contains mode = true ∧ typed = sequence ∧ found = action ∨
      keys.table.get? mode typed = some found := by
  have each (list : List MapMode) (table : KeyTable MapMode Key Action)
      (leads : (list.foldl (fun table mode => table.insert mode sequence action) table).get?
        mode typed = some found) :
      (mode ∈ list ∧ typed = sequence ∧ found = action) ∨
        table.get? mode typed = some found := by
    induction list generalizing table with
    | nil => exact .inr leads
    | cons first rest ih =>
        rcases ih _ leads with ⟨member, bound⟩ | before
        · exact .inl ⟨.tail _ member, bound⟩
        · cases sequence with
          | nil => exact .inr before
          | cons key more =>
              rw [KeyTable.get?_insert _ _ _ _ (by simp)] at before
              split at before
              · rename_i here
                cases before
                exact .inl ⟨by rw [here.1]; exact .head _, here.2, rfl⟩
              · exact .inr before
  rcases each modes.toList keys.table leads with ⟨member, bound⟩ | before
  · exact .inl ⟨MappedModes.mem_toList.mp member, bound⟩
  · exact .inr before

/-- What keys of the default table lead to is the action of their binding for the
mode. -/
theorem exists_binding {mode : MapMode} {typed : List Key} {found : Action}
    (leads : CommandKeys.default.table.get? mode typed = some found) :
    ∃ row ∈ defaultBindings, row.modes.contains mode = true ∧ Key.ofText row.keys = typed ∧
      row.action = found := by
  have each (rows : List Binding) (keys : CommandKeys)
      (leads : (rows.foldl (fun keys row => keys.bind row.modes (Key.ofText row.keys) row.action)
        keys).table.get? mode typed = some found) :
      (∃ row ∈ rows, row.modes.contains mode = true ∧ Key.ofText row.keys = typed ∧
          row.action = found) ∨
        keys.table.get? mode typed = some found := by
    induction rows generalizing keys with
    | nil => exact .inr leads
    | cons first rest ih =>
        rcases ih _ leads with ⟨row, member, holds⟩ | before
        · exact .inl ⟨row, .tail _ member, holds⟩
        · rcases get?_bind before with ⟨contains, same, found⟩ | earlier
          · exact .inl ⟨first, .head _, contains, same.symm, found.symm⟩
          · exact .inr earlier
  rcases each defaultBindings .empty leads with row | nothing
  · exact row
  · cases nothing

end CommandKeys

end ModalInput
