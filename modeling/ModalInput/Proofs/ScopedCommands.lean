/-
# ModalInput.Proofs.ScopedCommands -- a scoped command stays in its scope

The command for an editor's own values writes values of that editor, and the shared
value only of an option that has no other; the command for the shared values writes
shared values.  Which editors others are, and what they have, plays no part.

Two arguments do not look at the command that they stand in.  The one that resets every
option takes all editors' own values away and writes every default (`resetAll_get`,
`resetAll_owned`), and the one that takes the shared value for an editor writes that
editor's own, also where only shared values are to be changed.  All others stay in the
scope of their command.

* `run_stored?` -- places that no argument reaches keep what they have.
* `scoped_run` -- both commands, from every store that operations lead to.
* `scoped_escapes` -- the two arguments at work.
-/
import ModalInput.Proofs.OptionPlaces
import ModalInput.Proofs.WrittenArguments

namespace ModalInput

set_option autoImplicit false

open OptionStore

/-! ## The argument that resets every option -/

namespace OptionStore

/-- The values whose options are known by their full names are all taken away. -/
theorem get?_owned_unsetAll (keys : List (EditorId × String)) {store : OptionStore}
    (named : store.Named)
    (known : ∀ key ∈ keys, ∃ definition, store.definitions.get? key.2 = some definition)
    (key : EditorId × String) :
    (keys.foldl (fun store key => (store.unset key.2 key.1).1) store).owned.get? key =
      if key ∈ keys then none else store.owned.get? key := by
  induction keys generalizing store with
  | nil => simp
  | cons first rest ih =>
      obtain ⟨definition, defined⟩ := known first (by simp)
      have full : definition.name = first.2 := named _ _ defined
      have taken : store.unset first.2 first.1 =
          (store.withoutOwn definition first.1, .ok ()) :=
        unset_eq_ok.mpr ⟨definition, find?_of_get? defined, rfl⟩
      have touch : Touch store _ (store.withoutOwn definition first.1) := .unset definition first.1
      have later := ih (touch.same.named named)
        (by simpa using fun editor name member => known (editor, name) (by simp [member]))
      rw [List.foldl_cons, taken]
      refine later.trans ?_
      rw [get?_owned_withoutOwn, full]
      by_cases here : key = first <;> simp [here]

theorem get?_shared_writeDefaults (definitions : List OptionDef) (store : OptionStore)
    {definition : OptionDef}
    (agree : ∀ other ∈ definitions, other.name = definition.name →
      other.default = definition.default) :
    (definitions.foldl (fun store definition =>
        store.write definition .everywhere definition.default) store).shared.get? definition.name =
      if definition.name ∈ definitions.map OptionDef.name then some definition.default
      else store.shared.get? definition.name := by
  induction definitions generalizing store with
  | nil => simp
  | cons first rest ih =>
      have later := ih (store.write first .everywhere first.default)
        fun other member => agree other (by simp [member])
      refine later.trans ?_
      rw [get?_shared_write, owner?_everywhere]
      by_cases here : definition.name = first.name
      · simp [here, agree first (by simp) here.symm]
      · simp [here]

theorem owned_writeDefaults (definitions : List OptionDef) (store : OptionStore) :
    (definitions.foldl (fun store definition =>
        store.write definition .everywhere definition.default) store).owned = store.owned := by
  induction definitions generalizing store with
  | nil => rfl
  | cons first rest ih =>
      refine (ih _).trans ?_
      simp [write, notify]

section ResetAll

variable {store : OptionStore} (regular : store.Regular)

include regular

/-- No editor has a value of its own after a reset of everything. -/
theorem resetAll_owned (key : EditorId × String) : store.resetAll.owned.get? key = none := by
  have known : ∀ key ∈ store.owned.keys,
      ∃ definition, store.definitions.get? key.2 = some definition := by
    rintro ⟨editor, name⟩ member
    obtain ⟨⟨_, value⟩, stored, rfl⟩ := List.mem_map.mp member
    obtain ⟨definition, defined, _⟩ :=
      regular.owned editor name value ((Directory.mem_entries ..).mp stored)
    exact ⟨definition, defined⟩
  rw [resetAll, owned_writeDefaults, get?_owned_unsetAll _ regular.named known]
  split
  · rfl
  · rename_i absent
    cases stored : store.owned.get? key with
    | none => rfl
    | some value =>
        exact absurd (List.mem_map_of_mem ((Directory.mem_entries ..).mpr stored)) absent

/-- Every option has its default, wherever it is read, after a reset of everything. -/
theorem resetAll_get {name : String} {definition : OptionDef}
    (found : store.find? name = some definition) (scope : OptionScope) :
    store.resetAll.get name scope = .ok definition.default := by
  have known : store.resetAll.resolve name = .ok definition := by
    rw [resolve_eq_ok, (resetAll_touches store).same.find?]
    exact found
  have shared : store.resetAll.sharedValue definition = definition.default := by
    have agree : ∀ other ∈ store.sorted, other.name = definition.name →
        other.default = definition.default := by
      intro other member same
      obtain ⟨full, defined⟩ := mem_sorted.mp member
      have full := regular.named.get? (find?_of_get? defined)
      rw [same, regular.named.get? found, Option.some.injEq] at full
      rw [full]
    have listed : definition.name ∈ store.sorted.map OptionDef.name :=
      List.mem_map_of_mem (mem_sorted.mpr ⟨_, regular.named.get? found⟩)
    rw [sharedValue, resetAll, get?_shared_writeDefaults _ _ agree, if_pos listed, Option.getD_some]
  rw [OptionStore.get, known, Except.map, valueAt, shared]
  cases owner? definition scope with
  | none => rfl
  | some editor => simp [resetAll_owned regular]

end ResetAll

end OptionStore

/-! ## Places that stay as they are -/

namespace SetCommand

variable (command : SetCommand) (editor : EditorId) {store : OptionStore}

theorem run_stored? (named : store.Named) {text : String} {place : Place}
    (untouched : ∀ argument : SetArgument, argument.In text →
      ¬ argument.Reaches command editor store.find? place) :
    (command.run editor store text).store.stored? place = store.stored? place :=
  (command.run_touches editor named text).stored? fun ⟨argument, typed, reached⟩ =>
    untouched argument typed reached

theorem run_get_everywhere (named : store.Named) {text : String} {name : String}
    {definition : OptionDef} (found : store.find? name = some definition)
    (untouched : ∀ argument : SetArgument, argument.In text →
      ¬ argument.Reaches command editor store.find? (.shared definition.name)) :
    (command.run editor store text).store.get name .everywhere = store.get name .everywhere := by
  have same := (command.run_touches editor named text).same.find?
  have kept : (command.run editor store text).store.shared.get? definition.name =
      store.shared.get? definition.name := command.run_stored? editor named untouched
  simp only [OptionStore.get, resolve, same, found, Except.map, valueAt, owner?_everywhere,
    sharedValue, kept]

/-- Apart from the reset of everything, an argument of the command for an editor's own
values writes the shared value only of an option that has no other. -/
theorem not_reaches_shared (named : store.Named) {argument : SetArgument}
    (keeps : argument ≠ .resetAll) {name : String} {definition : OptionDef}
    (found : store.find? name = some definition) (kind : definition.scope ≠ .shared) :
    ¬ argument.Reaches .own editor store.find? (.shared definition.name) := by
  have apart : ¬ SetCommand.own.Reaches editor store.find? (.shared definition.name) := by
    intro reached
    obtain ⟨other, written, known, same, shared⟩ := reached rfl
    have full := named.get? known
    rw [same, named.get? found, Option.some.injEq] at full
    exact kind (full ▸ shared)
  cases argument with
  | resetAll => exact absurd rfl keeps
  | copyGlobal name =>
      rintro ⟨_, _, _, place⟩
      cases place
  | _ => exact apart

/-- Apart from the reset of everything, an argument reaches no other editor. -/
theorem not_reaches_other {argument : SetArgument} (keeps : argument ≠ .resetAll)
    {other : EditorId} (differs : other ≠ editor) (name : String) :
    ¬ argument.Reaches command editor store.find? (.own other name) := by
  cases argument with
  | resetAll => exact absurd rfl keeps
  | copyGlobal name =>
      rintro ⟨_, _, _, place⟩
      exact differs (Place.own.inj place).1
  | _ => exact fun reached => differs reached.2

/-- In the command for the shared values, only the one argument that writes an editor's
own value reaches it. -/
theorem not_reaches_own {argument : SetArgument} (keeps : argument ≠ .resetAll)
    {other : EditorId} {full : String}
    (uncopied : ∀ name definition, argument = .copyGlobal name →
      store.find? name = some definition → definition.scope ≠ .shared →
        ¬ (other = editor ∧ full = definition.name)) :
    ¬ argument.Reaches .shared editor store.find? (.own other full) := by
  cases argument with
  | resetAll => exact absurd rfl keeps
  | copyGlobal name =>
      rintro ⟨definition, found, kind, place⟩
      exact uncopied name definition rfl found kind (Place.own.inj place)
  | _ => exact fun reached => reached.1 rfl

/-! ## The two scoped commands -/

/-- In every store that operations lead to, a command that does not reset everything stays
in its scope.  The one for an editor's own values leaves the shared value of every option
that has others, and the values of all other editors.  The one for the shared values leaves
every editor's own, unless the editor is told to take the shared one. -/
theorem scoped_run (operations : List Operation) (text : String)
    (keeps : ¬ SetArgument.resetAll.In text) :
    let store := ({} : OptionStore).after operations
    (∀ name definition, store.find? name = some definition → definition.scope ≠ .shared →
      (SetCommand.own.run editor store text).store.get name .everywhere =
        store.get name .everywhere) ∧
    (∀ other name, other ≠ editor →
      (SetCommand.own.run editor store text).store.owned.get? (other, name) =
        store.owned.get? (other, name)) ∧
    ∀ other full,
      (∀ name definition, (SetArgument.copyGlobal name).In text →
        store.find? name = some definition → definition.scope ≠ .shared →
          ¬ (other = editor ∧ full = definition.name)) →
      (SetCommand.shared.run editor store text).store.owned.get? (other, full) =
        store.owned.get? (other, full) := by
  intro store
  have named : store.Named := (after_regular regular_empty operations).named
  have others {argument : SetArgument} (typed : argument.In text) : argument ≠ .resetAll :=
    fun same => keeps (same ▸ typed)
  refine ⟨?_, ?_, ?_⟩
  · intro name definition found kind
    exact run_get_everywhere .own editor named found fun argument typed =>
      not_reaches_shared editor named (others typed) found kind
  · intro other name differs
    have unreached (argument : SetArgument) (typed : argument.In text) :
        ¬ argument.Reaches .own editor store.find? (.own other name) :=
      not_reaches_other .own editor (others typed) differs name
    exact run_stored? .own editor named unreached
  · intro other full uncopied
    have unreached (argument : SetArgument) (typed : argument.In text) :
        ¬ argument.Reaches .shared editor store.find? (.own other full) :=
      not_reaches_own editor (others typed) fun name definition same =>
        uncopied name definition (same ▸ typed)
    exact run_stored? .shared editor named unreached

/-- An option with a value for each editor, and the values of two editors. -/
def twoEditors : List Operation :=
  [.define ((OptionDef.ofUnsigned "shiftwidth" "sw" 8).withScope .perEditor),
    .set "sw" .everywhere (.number 4), .set "sw" (.editor ⟨1⟩) (.number 3),
    .set "sw" (.editor ⟨2⟩) (.number 2)]

/-- An editor changes its value by a combination; what is shared and what the other has
stays. -/
theorem twoEditors_scoped :
    let store := ({} : OptionStore).after twoEditors
    ¬ SetArgument.resetAll.In "sw+=1" ∧
      (SetCommand.own.run ⟨1⟩ store "sw+=1").store.get "sw" .everywhere =
        store.get "sw" .everywhere ∧
      (SetCommand.own.run ⟨1⟩ store "sw+=1").store.owned.get? (⟨2⟩, "shiftwidth") =
        store.owned.get? (⟨2⟩, "shiftwidth") := by
  have isWord : SetArgument.IsWord "sw+=1".toList :=
    ⟨SetArgument.whole_of_chars (by simp), _, _, rfl, rfl⟩
  have read : SetArgument.readAll "sw+=1" = .ok [.assign "sw" .append "1"] :=
    SetArgument.readAll_word isWord rfl
  have keeps : ¬ SetArgument.resetAll.In "sw+=1" := by
    rintro ⟨arguments, typed, member⟩
    rw [read, Except.ok.injEq] at typed
    subst typed
    simp at member
  obtain ⟨shared, other, _⟩ := scoped_run ⟨1⟩ twoEditors "sw+=1" keeps
  exact ⟨keeps, shared "sw" _ rfl (by decide), other ⟨2⟩ "shiftwidth" (by decide)⟩

/-- The reset of everything is not kept to an editor, and to take the shared value is not
kept to what is shared. -/
theorem scoped_escapes :
    let store := ({} : OptionStore).after twoEditors
    let reset := (SetCommand.own.run ⟨1⟩ store "all&").store
    let copied := (SetCommand.shared.run ⟨1⟩ store "sw<").store
    store.get "sw" .everywhere = .ok (.number 4) ∧
      reset.get "sw" .everywhere = .ok (.number 8) ∧
      store.owned.get? (⟨2⟩, "shiftwidth") = some (.number 2) ∧
      reset.owned.get? (⟨2⟩, "shiftwidth") = none ∧
      store.owned.get? (⟨1⟩, "shiftwidth") = some (.number 3) ∧
      copied.owned.get? (⟨1⟩, "shiftwidth") = some (.number 4) := by
  intro store reset copied
  have regular : store.Regular := after_regular regular_empty twoEditors
  have resets : SetArgument.readAll "all&" = .ok [.resetAll] :=
    SetArgument.readAll_word ⟨SetArgument.whole_of_chars (by simp), _, _, rfl, rfl⟩ rfl
  have copies : SetArgument.readAll "sw<" = .ok [.copyGlobal "sw"] :=
    SetArgument.readAll_word ⟨SetArgument.whole_of_chars (by simp), _, _, rfl, rfl⟩ rfl
  have everything : reset = store.resetAll := by
    simp only [reset, run_of_read _ _ resets, runArguments, runArgument]
    rfl
  have taken : copied = (SetCommand.shared.runArgument ⟨1⟩ store (.copyGlobal "sw")).store := by
    simp only [copied, run_of_read _ _ copies, runArguments]
    rfl
  have found : store.find? "sw" =
      some ((OptionDef.ofUnsigned "shiftwidth" "sw" 8).withScope .perEditor) := rfl
  rw [everything, taken]
  exact ⟨rfl, resetAll_get regular found .everywhere, rfl, resetAll_owned regular _, rfl, rfl⟩

end SetCommand

end ModalInput
