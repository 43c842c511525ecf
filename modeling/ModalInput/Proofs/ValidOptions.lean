/-
# ModalInput.Proofs.ValidOptions -- stores in which every value is accepted

A value changes in one of two ways: an option writes a value that it accepts, or an
editor's own value is taken away (`Edit`).  Every way to write comes down to edits;
a reset is among them only where the defaults are accepted, for it does not check
(`Defaulted`).  An edit leaves the definitions alone, so it keeps a store valid.

* `Call.written`, `unset_edit`, `resetAll_edits` -- the ways to write are edits.
* `Valid` -- every default and every value is accepted; `Valid.of_edits` -- edits keep
  that; `Valid.valueAt` -- whatever is read is accepted.
-/
import Mathlib.Logic.Relation
import ModalInput.Proofs.OptionWrites

namespace ModalInput.OptionStore

set_option autoImplicit false

/-! ## Edits -/

/-- One change of a value: an option writes a value that it accepts, or an editor's
own value is taken away. -/
inductive Edit (store : OptionStore) : OptionStore → Prop where
  | write {name : String} {definition : OptionDef} (found : store.find? name = some definition)
      (scope : OptionScope) {value : OptionValue} (accepts : definition.Accepts value) :
      Edit store (store.write definition scope value)
  | unset (definition : OptionDef) (editor : EditorId) :
      Edit store (store.withoutOwn definition editor)

/-- Edits one after the other. -/
abbrev Edits : OptionStore → OptionStore → Prop := Relation.ReflTransGen Edit

theorem Edit.definitions {store after : OptionStore} (edit : Edit store after) :
    after.definitions = store.definitions := by
  cases edit with
  | write found scope accepts => exact definitions_write ..
  | unset definition editor => exact definitions_withoutOwn ..

theorem Edit.find? {store after : OptionStore} (edit : Edit store after) (name : String) :
    after.find? name = store.find? name := by
  cases edit <;> simp [OptionStore.find?]

theorem Edits.definitions {store after : OptionStore} (edits : Edits store after) :
    after.definitions = store.definitions := by
  induction edits with
  | refl => rfl
  | tail _ edit ih => exact edit.definitions.trans ih

theorem Edits.find? {store after : OptionStore} (edits : Edits store after) (name : String) :
    after.find? name = store.find? name := by
  induction edits with
  | refl => rfl
  | tail _ edit ih => exact (edit.find? name).trans ih

/-- Every default is accepted. -/
def Defaulted (store : OptionStore) : Prop :=
  ∀ name definition, store.definitions.get? name = some definition →
    definition.Accepts definition.default

theorem Defaulted.of_edits {store after : OptionStore} (defaulted : store.Defaulted)
    (edits : Edits store after) : after.Defaulted := by
  intro name definition found
  exact defaulted name definition (edits.definitions ▸ found)

/-- What a successful write of the option under a name leads to. -/
inductive Written (store : OptionStore) (name : String) (scope : OptionScope) :
    OptionStore → Prop where
  | intro {definition : OptionDef} (found : store.find? name = some definition)
      {value : OptionValue} (accepts : definition.Accepts value) :
      Written store name scope (store.write definition scope value)

section Written

variable {store after : OptionStore} {name : String} {scope : OptionScope}

theorem Written.edit (written : Written store name scope after) : Edit store after := by
  obtain ⟨found, accepts⟩ := written
  exact .write found scope accepts

/-- A reset checks nothing, so it needs a default that is accepted. -/
theorem Call.written (call : Call) (defaulted : store.Defaulted)
    (done : call.run store name scope = (after, .ok ())) : Written store name scope after := by
  cases call with
  | set value =>
      obtain ⟨definition, found, accepts, rfl⟩ := set_eq_ok.mp done
      exact ⟨found, accepts⟩
  | setText operation text =>
      obtain ⟨definition, _, new, found, _, _, _, accepts, rfl⟩ := setText_eq_ok.mp done
      exact ⟨found, accepts⟩
  | reset =>
      obtain ⟨definition, found, rfl⟩ := reset_eq_ok.mp done
      obtain ⟨full, defined⟩ := exists_get? found
      exact ⟨found, defaulted full definition defined⟩
  | turn on =>
      obtain ⟨definition, ⟨found, kind⟩, rfl⟩ := turn_eq_ok.mp done
      exact ⟨found, OptionDef.accepts_toggle kind _⟩
  | flip =>
      obtain ⟨definition, ⟨found, kind⟩, rfl⟩ := flip_eq_ok.mp done
      exact ⟨found, OptionDef.accepts_toggle kind _⟩

/-- Whether it fails or not, a call leaves a store that is at most one edit away. -/
theorem Call.edits (call : Call) (defaulted : store.Defaulted) (name : String)
    (scope : OptionScope) : Edits store (call.run store name scope).1 :=
  call.keeps.left .refl fun _ done => .single (call.written defaulted done).edit

theorem unset_edit {editor : EditorId} (done : store.unset name editor = (after, .ok ())) :
    Edit store after := by
  obtain ⟨definition, _, rfl⟩ := unset_eq_ok.mp done
  exact .unset definition editor

theorem unset_edits (name : String) (editor : EditorId) :
    Edits store (store.unset name editor).1 :=
  (unset_keeps editor).left .refl fun _ done => .single (unset_edit done)

end Written

/-! ## Writing every default -/

theorem mem_sorted {store : OptionStore} {definition : OptionDef} :
    definition ∈ store.sorted ↔ ∃ name, store.definitions.get? name = some definition := by
  simp only [sorted, List.mem_mergeSort, Directory.values, List.mem_map, Prod.exists,
    Directory.mem_entries, exists_eq_right]

theorem unsetAll_edits (keys : List (EditorId × String)) (store : OptionStore) :
    Edits store (keys.foldl (fun store key => (store.unset key.2 key.1).1) store) := by
  induction keys generalizing store with
  | nil => exact .refl
  | cons key rest ih => exact (unset_edits key.2 key.1).trans (ih _)

/-- A write leaves the definitions alone, so the ones that are still to come are found. -/
theorem writeDefaults_edits (definitions : List OptionDef) (store : OptionStore)
    (known : ∀ definition ∈ definitions, ∃ name, store.find? name = some definition ∧
      definition.Accepts definition.default) :
    Edits store (definitions.foldl
      (fun store definition => store.write definition .everywhere definition.default) store) := by
  induction definitions generalizing store with
  | nil => exact .refl
  | cons definition rest ih =>
      obtain ⟨name, found, accepts⟩ := known definition (by simp)
      have edit : Edit store (store.write definition .everywhere definition.default) :=
        .write found .everywhere accepts
      refine .head edit (ih _ ?_)
      intro other member
      obtain ⟨name, found, accepts⟩ := known other (by simp [member])
      exact ⟨name, (edit.find? name).trans found, accepts⟩

theorem resetAll_edits {store : OptionStore} (defaulted : store.Defaulted) :
    Edits store store.resetAll := by
  have taken := unsetAll_edits store.owned.keys store
  refine taken.trans (writeDefaults_edits store.sorted _ ?_)
  intro definition member
  obtain ⟨name, defined⟩ := mem_sorted.mp member
  exact ⟨name, (taken.find? name).trans (find?_of_get? defined), defaulted name definition defined⟩

/-! ## Valid stores -/

/-- Every default and every value, shared or an editor's own, is accepted by its
option. -/
structure Valid (store : OptionStore) : Prop where
  defaulted : store.Defaulted
  shared : ∀ name value, store.shared.get? name = some value →
    ∃ definition, store.definitions.get? name = some definition ∧ definition.Accepts value
  owned : ∀ editor name value, store.owned.get? (editor, name) = some value →
    ∃ definition, store.definitions.get? name = some definition ∧ definition.Accepts value

/-- Every definition is kept under its own full name. -/
def Named (store : OptionStore) : Prop :=
  ∀ name definition, store.definitions.get? name = some definition → definition.name = name

theorem Named.get? {store : OptionStore} (named : store.Named) {name : String}
    {definition : OptionDef} (found : store.find? name = some definition) :
    store.definitions.get? definition.name = some definition := by
  obtain ⟨full, defined⟩ := exists_get? found
  rw [named full definition defined]
  exact defined

theorem Named.of_edits {store after : OptionStore} (named : store.Named)
    (edits : Edits store after) : after.Named := by
  intro name definition found
  exact named name definition (edits.definitions ▸ found)

theorem Valid.edit {store after : OptionStore} (named : store.Named) (valid : store.Valid)
    (edit : Edit store after) : after.Valid := by
  refine ⟨valid.defaulted.of_edits (.single edit), ?_, ?_⟩
  · intro name value stored
    rw [edit.definitions]
    cases edit with
    | write found scope accepts =>
        rw [get?_shared_write] at stored
        split at stored
        · rename_i here
          cases stored
          exact ⟨_, here.2 ▸ named.get? found, accepts⟩
        · exact valid.shared name value stored
    | unset definition editor => exact valid.shared name value (by simpa using stored)
  · intro editor name value stored
    rw [edit.definitions]
    cases edit with
    | write found scope accepts =>
        rw [get?_owned_write] at stored
        split at stored
        · rename_i here
          obtain ⟨-, rfl⟩ : _ ∧ name = _ := here
          cases stored
          exact ⟨_, named.get? found, accepts⟩
        · exact valid.owned editor name value stored
    | unset definition editor' =>
        rw [get?_owned_withoutOwn] at stored
        split at stored
        · cases stored
        · exact valid.owned editor name value stored

theorem Valid.of_edits {store after : OptionStore} (named : store.Named) (valid : store.Valid)
    (edits : Edits store after) : after.Valid := by
  induction edits with
  | refl => exact valid
  | tail earlier edit ih => exact ih.edit (named.of_edits earlier) edit

theorem named_empty : ({} : OptionStore).Named := by
  intro name definition found
  simp at found

theorem valid_empty : ({} : OptionStore).Valid := by
  refine ⟨?_, ?_, ?_⟩
  · intro name definition found
    simp at found
  · intro name value stored
    simp at stored
  · intro editor name value stored
    simp at stored

theorem get?_define (store : OptionStore) (definition : OptionDef) (name : String) :
    (store.define definition).definitions.get? name =
      if name = definition.name then some definition else store.definitions.get? name :=
  Directory.get?_insert ..

theorem Named.define {store : OptionStore} (named : store.Named) (definition : OptionDef) :
    (store.define definition).Named := by
  intro name found defined
  rw [get?_define] at defined
  split at defined
  · rename_i here
    cases defined
    exact here.symm
  · exact named name found defined

/-- A new definition brings its default with it, and no editor has a value of its own
for an option that is defined anew. -/
theorem Valid.define {store : OptionStore} (valid : store.Valid) {definition : OptionDef}
    (accepts : definition.Accepts definition.default) : (store.define definition).Valid where
  defaulted := by
    intro name found defined
    rw [get?_define] at defined
    split at defined
    · cases defined
      exact accepts
    · exact valid.defaulted name found defined
  shared := by
    intro name value stored
    rw [get?_define]
    simp only [OptionStore.define, Directory.get?_insert] at stored
    by_cases here : name = definition.name
    · rw [if_pos here] at stored ⊢
      cases stored
      exact ⟨definition, rfl, accepts⟩
    · rw [if_neg here] at stored ⊢
      exact valid.shared name value stored
  owned := by
    intro editor name value stored
    rw [get?_define]
    simp only [OptionStore.define, Directory.get?_filter, Option.filter_eq_some_iff,
      decide_eq_true_eq] at stored
    rw [if_neg stored.2]
    exact valid.owned editor name value stored.1

/-- The value that is seen from a scope is accepted, also where it is a default. -/
theorem Valid.valueAt {store : OptionStore} (named : store.Named) (valid : store.Valid)
    {name : String} {definition : OptionDef} (found : store.find? name = some definition)
    (scope : OptionScope) : definition.Accepts (store.valueAt definition scope) := by
  have defined := named.get? found
  have shared : definition.Accepts (store.sharedValue definition) := by
    unfold sharedValue
    cases stored : store.shared.get? definition.name with
    | none => exact valid.defaulted _ definition defined
    | some value =>
        obtain ⟨own, same, accepts⟩ := valid.shared _ value stored
        cases defined.symm.trans same
        exact accepts
  unfold OptionStore.valueAt
  cases owner? definition scope with
  | none => exact shared
  | some id =>
      cases stored : store.owned.get? (id, definition.name) with
      | none => simpa [stored] using shared
      | some value =>
          obtain ⟨own, same, accepts⟩ := valid.owned id _ value stored
          cases defined.symm.trans same
          simpa [stored] using accepts

end ModalInput.OptionStore
