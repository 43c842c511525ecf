/-
# ModalInput.Proofs.ToldWrites -- a write is told to the listeners of its option

A call that writes an option fails and tells nobody, or it writes one place and tells
each listener of the option about it, once and in the order of registration (`Told`).
They are told the full name, however the call names the option, and what is read in the
scope of the call before and after it.  A listener that asks for it learns the editor
whose own value was written; a write in an editor's scope to an option that all editors
share is none of these.

To take an editor's own value away tells the same, if there was one.

* `noticesFor_report` -- the notices of a write, listener by listener.
* `write_told`, `withoutOwn_told` -- the two ways in which a value changes.
* `calls_told` -- every call, in every store that operations lead to.
-/
import Mathlib.Data.List.Forall2
import ModalInput.Proofs.OptionPlaces

namespace ModalInput.OptionStore

set_option autoImplicit false

/-! ## What is told -/

/-- The scope in which a listener that asks for it is told about a place. -/
def Place.scope : Place → OptionScope
  | .shared _ => .everywhere
  | .own editor _ => .editor editor

/-- A notice about a place that was written, for one listener of the option. -/
structure Reports (store after : OptionStore) (name full : String) (scope : OptionScope)
    (place : Place) (listener : OptionListener) (notice : OptionNotice) : Prop where
  receiver : notice.listener = listener.id
  /-- The full name, also where the call uses a short one. -/
  option : notice.option = full
  old : store.get name scope = .ok notice.old
  new : after.get name scope = .ok notice.new
  /-- An editor is told to those who ask, and if its own value was written. -/
  editor : ∀ id, notice.scope = .editor id ↔ listener.localAware = true ∧ place = .own id full

/-- A place was written, no other was, and the listeners of the option are told. -/
structure Told (store after : OptionStore) (name : String) (definition : OptionDef)
    (scope : OptionScope) (place : Place) : Prop where
  found : store.find? name = some definition
  full : store.definitions.get? definition.name = some definition
  others : ∀ other, other ≠ place → after.stored? other = store.stored? other
  /-- Numbers are given in the order of registration, so each listener is told once. -/
  registered : store.listeners.Pairwise (·.id < ·.id)
  told : ∃ told, after.notices = store.notices ++ told ∧
    List.Forall₂ (Reports store after name definition.name scope place)
      (store.listeners.filter (·.option = definition.name)) told

section Told

variable {store after : OptionStore} {name : String} {definition : OptionDef}
  {scope : OptionScope} {place : Place}

/-- The notices about a place, listener by listener. -/
theorem noticesFor_report {old new : OptionValue} (about : place = .shared definition.name ∨
      ∃ editor, place = .own editor definition.name)
    (before : store.get name scope = .ok old) (later : after.get name scope = .ok new) :
    List.Forall₂ (Reports store after name definition.name scope place)
      (store.listeners.filter (·.option = definition.name))
      (store.noticesFor definition.name old new place.scope) := by
  unfold noticesFor
  rw [List.forall₂_map_right_iff, List.forall₂_same]
  intro listener _
  refine ⟨rfl, rfl, before, later, fun id => ?_⟩
  rcases about with rfl | ⟨editor, rfl⟩ <;> cases listener.localAware <;> simp [Place.scope]

end Told

/-! ## The two ways in which a value changes -/

/-- What is told about a write has the scope of the place that it goes to. -/
theorem notices_write (store : OptionStore) (definition : OptionDef) (scope : OptionScope)
    (value : OptionValue) :
    (store.write definition scope value).notices = store.notices ++
      store.noticesFor definition.name (store.valueAt definition scope) value
        (target definition scope).scope := by
  unfold write target
  cases owner : owner? definition scope with
  | none => rfl
  | some editor =>
      obtain ⟨rfl, _⟩ := owner?_eq_some.mp owner
      rfl

section Changes

variable {store : OptionStore} (regular : store.Regular) {name : String}
  {definition : OptionDef} (found : store.find? name = some definition)

include regular found

theorem write_told (scope : OptionScope) (value : OptionValue) :
    Told store (store.write definition scope value) name definition scope
      (target definition scope) where
  found := found
  full := regular.named.get? found
  others := by
    intro other differs
    rw [stored?_write, if_neg differs]
  registered := regular.listeners
  told := by
    have touch : Touch store _ (store.write definition scope value) := .write found scope value
    have later : (store.write definition scope value).get name scope = .ok value := by
      rw [get_of_find? (touch.same.find? ▸ found), valueAt_write]
    have about : target definition scope = .shared definition.name ∨
        ∃ editor, target definition scope = .own editor definition.name := by
      unfold target
      cases owner? definition scope with
      | none => exact .inl rfl
      | some editor => exact .inr ⟨editor, rfl⟩
    exact ⟨_, notices_write .., noticesFor_report about (get_of_find? found) later⟩

/-- An editor has values of its own only where its scope means them, so the value that is
taken away is the one that was read. -/
theorem withoutOwn_told {editor : EditorId} {old : OptionValue}
    (stored : store.owned.get? (editor, definition.name) = some old) :
    Told store (store.withoutOwn definition editor) name definition (.editor editor)
      (.own editor definition.name) where
  found := found
  full := regular.named.get? found
  others := by
    intro other differs
    rw [stored?_withoutOwn, if_neg differs]
  registered := regular.listeners
  told := by
    have owner : owner? definition (.editor editor) = some editor := by
      obtain ⟨kept, defined, kind⟩ := regular.owned editor _ old stored
      cases defined.symm.trans (regular.named.get? found)
      exact owner?_eq_some.mpr ⟨rfl, kind⟩
    have before : store.get name (.editor editor) = .ok old := by
      rw [get_of_find? found, valueAt, owner]
      simp [stored]
    have touch : Touch store _ (store.withoutOwn definition editor) := .unset definition editor
    have later : (store.withoutOwn definition editor).get name (.editor editor) =
        .ok (store.sharedValue definition) := by
      rw [get_of_find? (touch.same.find? ▸ found), valueAt, owner]
      simp [get?_owned_withoutOwn, sharedValue]
    have told : (store.withoutOwn definition editor).notices = store.notices ++
        store.noticesFor definition.name old (store.sharedValue definition)
          (Place.own editor definition.name).scope := by
      simp only [withoutOwn, stored]
      rfl
    exact ⟨_, told, noticesFor_report (.inr ⟨editor, rfl⟩) before later⟩

end Changes

/-! ## Every call -/

/-- In every store that operations lead to, a call that fails leaves everything as it was, and
one that succeeds writes the place that the scope and the option mean, and tells the listeners
of the option.  To take an editor's own value away tells them if there was one; else nothing
happens. -/
theorem calls_told (operations : List Operation) (name : String) :
    let store := ({} : OptionStore).after operations
    (∀ (call : Call) scope,
      (∀ error, (call.run store name scope).2 = .error error →
        (call.run store name scope).1 = store) ∧
      ∀ after, call.run store name scope = (after, .ok ()) →
        ∃ definition value, after.stored? (target definition scope) = some value ∧
          Told store after name definition scope (target definition scope)) ∧
    ∀ editor,
      (∀ error, (store.unset name editor).2 = .error error →
        (store.unset name editor).1 = store) ∧
      ∀ after, store.unset name editor = (after, .ok ()) →
        if store.hasOwn name editor then
          ∃ definition, after.stored? (.own editor definition.name) = none ∧
            Told store after name definition (.editor editor) (.own editor definition.name)
        else after = store := by
  intro store
  have regular : store.Regular := after_regular regular_empty operations
  refine ⟨fun call scope => ⟨call.keeps, ?_⟩, fun editor => ⟨unset_keeps editor, ?_⟩⟩
  · intro after done
    obtain ⟨found, value⟩ := call.wrote done
    exact ⟨_, value, by rw [stored?_write, if_pos rfl], write_told regular found scope value⟩
  · intro after done
    obtain ⟨definition, found, rfl⟩ := unset_eq_ok.mp done
    cases stored : store.owned.get? (editor, definition.name) with
    | none => simp [hasOwn, found, Directory.contains, stored, withoutOwn]
    | some old =>
        have own : store.hasOwn name editor = true := by
          simp [hasOwn, found, Directory.contains, stored]
        rw [if_pos own]
        exact ⟨definition, by rw [stored?_withoutOwn, if_pos rfl],
          withoutOwn_told regular found stored⟩

/-- An editor's value is written by the short name of the option; one of its two listeners
asks for the editor, and the listener of another option hears nothing. -/
example :
    (({} : OptionStore).after
        [.define ((OptionDef.ofUnsigned "shiftwidth" "sw" 8).withScope .perEditor),
          .define (OptionDef.ofUnsigned "scrolloff" "so" 0), .listen "sw" true false,
          .listen "so" true false, .listen "shiftwidth" false false,
          .set "sw" (.editor ⟨1⟩) (.number 2)]).notices =
      [⟨0, "shiftwidth", .number 8, .number 2, .editor ⟨1⟩⟩,
        ⟨2, "shiftwidth", .number 8, .number 2, .everywhere⟩] := rfl

end ModalInput.OptionStore
