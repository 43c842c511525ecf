/-
# ModalInput.Proofs.CheckedOptions -- whatever is stored passes its check

From an empty store, by any operations (`Operation`) whose definitions bring a default
that passes its own check, only stores are reached in which every stored value passes
the check of its option.  Some operations check before they combine, some after, some
not at all; what carries the argument is that all of them are edits.

What is stored decides what is read: a view of a known option never answers with the
empty value that stands for one of another kind, and the look of the cursor can be
read as long as its option is defined with the check for it.

* `Operation` -- definitions, writes, option commands, listeners.
* `Checked` -- what holds of every stored value and of every view.
* `after_valid` -- operations keep what is stored valid; `after_checked` -- every store that
  they lead to from an empty one is checked.
* `uncheckedCursor_unread` -- an option of the name that the cursor reads need not have the
  check for it.
-/
import ModalInput.Engine.Display
import ModalInput.Proofs.SetOutcomes

namespace ModalInput

set_option autoImplicit false

/-- An option whose texts are checked in one way; other kinds have no such check. -/
def OptionDef.Validates (definition : OptionDef) (validate : String → Except OptionError Unit) :
    Prop :=
  ∀ list bounded validator, definition.kind = .text list bounded validator →
    validator = some validate

namespace OptionStore

/-! ## Operations -/

/-- What is done to a store. -/
inductive Operation where
  | define (definition : OptionDef)
  | set (name : String) (scope : OptionScope) (value : OptionValue)
  | setText (name : String) (scope : OptionScope) (operation : SetOperation) (text : String)
  | reset (name : String) (scope : OptionScope)
  | resetAll
  | turn (name : String) (scope : OptionScope) (on : Bool)
  | flip (name : String) (scope : OptionScope)
  | unset (name : String) (editor : EditorId)
  /-- An option command, with its arguments as they are typed. -/
  | line (command : SetCommand) (editor : EditorId) (arguments : String)
  | listen (name : String) (localAware atOnce : Bool)
  | unlisten (id : Nat)
  /-- Someone takes what the listeners were told. -/
  | deliver

namespace Operation

/-- The store after an operation. -/
def run (operation : Operation) (store : OptionStore) : OptionStore :=
  match operation with
  | .define definition => store.define definition
  | .set name scope value => (store.set name scope value).1
  | .setText name scope operation text => (store.setText name scope operation text).1
  | .reset name scope => (store.reset name scope).1
  | .resetAll => store.resetAll
  | .turn name scope on => (store.turn name scope on).1
  | .flip name scope => (store.flip name scope).1
  | .unset name editor => (store.unset name editor).1
  | .line command editor arguments => (command.run editor store arguments).store
  | .listen name localAware atOnce => (store.listen name localAware atOnce).1
  | .unlisten id => store.unlisten id
  | .deliver => store.delivered

/-- A definition brings a default that passes its own check. -/
def Sound : Operation → Prop
  | .define definition => ∀ shown, definition.check definition.default shown = .ok ()
  | _ => True

/-- The options and the values are those of another store. -/
structure SameValues (store after : OptionStore) : Prop where
  definitions : after.definitions = store.definitions
  shared : after.shared = store.shared
  owned : after.owned = store.owned

theorem SameValues.named {store after : OptionStore} (same : SameValues store after)
    (named : store.Named) : after.Named := by
  simpa only [Named, same.definitions] using named

theorem SameValues.valid {store after : OptionStore} (same : SameValues store after)
    (valid : store.Valid) : after.Valid where
  defaulted := by simpa only [Defaulted, same.definitions] using valid.defaulted
  shared := by simpa only [same.definitions, same.shared] using valid.shared
  owned := by simpa only [same.definitions, same.owned] using valid.owned

/-- What an operation does to the options and the values. -/
inductive Effect (store : OptionStore) : Operation → Prop where
  | defines (definition : OptionDef) : Effect store (.define definition)
  | edits {operation : Operation} (edits : Edits store (operation.run store)) :
      Effect store operation
  | leaves {operation : Operation} (same : SameValues store (operation.run store)) :
      Effect store operation

theorem effect {store : OptionStore} (defaulted : store.Defaulted) (operation : Operation) :
    Effect store operation := by
  cases operation with
  | define definition => exact .defines definition
  | set name scope value => exact .edits ((Call.set value).edits defaulted name scope)
  | setText name scope operation text =>
      exact .edits ((Call.setText operation text).edits defaulted name scope)
  | reset name scope => exact .edits (Call.reset.edits defaulted name scope)
  | resetAll => exact .edits (resetAll_edits defaulted)
  | turn name scope on => exact .edits ((Call.turn on).edits defaulted name scope)
  | flip name scope => exact .edits (Call.flip.edits defaulted name scope)
  | unset name editor => exact .edits (unset_edits name editor)
  | line command editor arguments => exact .edits (command.run_edits editor defaulted arguments)
  | listen name localAware atOnce =>
      refine .leaves ?_
      show SameValues store (store.listen name localAware atOnce).1
      unfold OptionStore.listen
      cases store.resolve name <;> exact ⟨rfl, rfl, rfl⟩
  | unlisten id => exact .leaves ⟨rfl, rfl, rfl⟩
  | deliver => exact .leaves ⟨rfl, rfl, rfl⟩

theorem run_valid {store : OptionStore} (named : store.Named) (valid : store.Valid)
    {operation : Operation} (sound : operation.Sound) :
    (operation.run store).Named ∧ (operation.run store).Valid := by
  cases operation.effect valid.defaulted with
  | defines definition =>
      exact ⟨named.define definition, valid.define (OptionDef.check_eq_ok.mp (sound ""))⟩
  | edits edits => exact ⟨named.of_edits edits, valid.of_edits named edits⟩
  | leaves same => exact ⟨same.named named, same.valid valid⟩

/-- Only a definition of the same name changes what an option is. -/
theorem get?_definitions_run {store : OptionStore} (defaulted : store.Defaulted)
    {operation : Operation} {name : String}
    (others : ∀ definition, operation = .define definition → definition.name ≠ name) :
    (operation.run store).definitions.get? name = store.definitions.get? name := by
  cases operation.effect defaulted with
  | defines definition =>
      show (store.define definition).definitions.get? name = _
      rw [get?_define, if_neg (others definition rfl).symm]
  | edits edits => rw [edits.definitions]
  | leaves same => rw [same.definitions]

end Operation

/-- The store after some operations, in order. -/
def after (store : OptionStore) (operations : List Operation) : OptionStore :=
  operations.foldl (fun store operation => operation.run store) store

theorem after_valid (operations : List Operation)
    (sound : ∀ operation ∈ operations, operation.Sound) {store : OptionStore}
    (named : store.Named) (valid : store.Valid) :
    (store.after operations).Named ∧ (store.after operations).Valid := by
  induction operations generalizing store with
  | nil => exact ⟨named, valid⟩
  | cons operation rest ih =>
      obtain ⟨named, valid⟩ := operation.run_valid named valid (sound operation (by simp))
      exact ih (fun later member => sound later (by simp [member])) named valid

theorem get?_definitions_after (operations : List Operation)
    (sound : ∀ operation ∈ operations, operation.Sound) {store : OptionStore}
    (named : store.Named) (valid : store.Valid) {name : String}
    (others : ∀ definition, .define definition ∈ operations → definition.name ≠ name) :
    (store.after operations).definitions.get? name = store.definitions.get? name := by
  induction operations generalizing store with
  | nil => rfl
  | cons operation rest ih =>
      obtain ⟨named', valid'⟩ := operation.run_valid named valid (sound operation (by simp))
      calc (store.after (operation :: rest)).definitions.get? name
          = (operation.run store).definitions.get? name :=
            ih (fun later member => sound later (by simp [member])) named' valid'
              fun definition member => others definition (by simp [member])
        _ = store.definitions.get? name :=
            operation.get?_definitions_run valid.defaulted
              fun definition same => others definition (by simp [same])

/-! ## What is read -/

section Reading

variable {store : OptionStore} (named : store.Named) (valid : store.Valid) {name : String}
  {definition : OptionDef} (found : store.find? name = some definition) (scope : OptionScope)

include found in
theorem value?_of_find? :
    (OptionView.mk store scope).value? name = some (store.valueAt definition scope) := by
  simp [OptionView.value?, found]

include named valid found

theorem value?_of_toggle (kind : definition.kind = .toggle) :
    (OptionView.mk store scope).value? name =
      some (.toggle ((OptionView.mk store scope).isOn name)) := by
  obtain ⟨on, value⟩ := (valid.valueAt named found scope).of_toggle kind
  simp [OptionView.isOn, value?_of_find? found, value, OptionValue.toggle?]

theorem value?_of_number {unsigned : Bool} (kind : definition.kind = .number unsigned) :
    ∃ n, (OptionView.mk store scope).value? name = some (.number n) ∧
      (OptionView.mk store scope).number name = n.toInt ∧ (unsigned = true → 0 ≤ n.toInt) := by
  obtain ⟨n, value, positive⟩ := (valid.valueAt named found scope).of_number kind
  refine ⟨n, ?_, ?_, positive⟩ <;>
    simp [OptionView.number, value?_of_find? found, value, OptionValue.number?]

theorem value?_of_text {list : Bool} {bounded : Option (List String)}
    {validator : Option (String → Except OptionError Unit)}
    (kind : definition.kind = .text list bounded validator) :
    (OptionView.mk store scope).value? name =
      some (.text ((OptionView.mk store scope).text name)) := by
  obtain ⟨s, value, _⟩ := (valid.valueAt named found scope).of_text kind
  simp [OptionView.text, value?_of_find? found, value, OptionValue.text?]

/-- A text that is read is empty, or passes the option's own check. -/
theorem text_validated {validate : String → Except OptionError Unit}
    (validates : definition.Validates validate) :
    (OptionView.mk store scope).text name = "" ∨
      validate ((OptionView.mk store scope).text name) = .ok () := by
  have accepts := valid.valueAt named found scope
  have seen := value?_of_find? found scope
  cases kind : definition.kind with
  | toggle =>
      obtain ⟨on, value⟩ := accepts.of_toggle kind
      simp [OptionView.text, seen, value, OptionValue.text?]
  | number unsigned =>
      obtain ⟨n, value, _⟩ := accepts.of_number kind
      simp [OptionView.text, seen, value, OptionValue.text?]
  | text list bounded validator =>
      obtain ⟨s, value, passes⟩ := accepts.of_text kind
      simp only [OptionView.text, seen, value, Option.bind_some, OptionValue.text?, Option.getD_some]
      exact passes.imp id fun checks => checks.2 validate (validates list bounded validator kind)

end Reading

/-- The look of the cursor can be read, as long as its option is defined with the check
for it; one that is not defined, or of another kind, reads as an empty text. -/
theorem exists_cursorEntries {store : OptionStore} (named : store.Named) (valid : store.Valid)
    (validates : ∀ definition, store.find? OptionName.guicursor = some definition →
      definition.Validates CursorEntry.check) (scope : OptionScope) :
    ∃ entries,
      CursorEntry.readAll ((OptionView.mk store scope).text OptionName.guicursor) = .ok entries := by
  have nothing : CursorEntry.readAll "" = .ok [] := rfl
  cases found : store.find? OptionName.guicursor with
  | none =>
      have empty : (OptionView.mk store scope).text OptionName.guicursor = "" := by
        simp [OptionView.text, OptionView.value?, found]
      exact ⟨[], by rw [empty, nothing]⟩
  | some definition =>
      rcases text_validated named valid found scope (validates definition found) with empty | checks
      · exact ⟨[], by rw [empty, nothing]⟩
      · obtain ⟨entries, read, _⟩ := map_eq_ok.mp checks
        exact ⟨entries, read⟩

/-! ## Every store that operations lead to -/

/-- Every stored value passes the check of its option, and so does every value that is
seen. -/
structure Checked (store : OptionStore) : Prop where
  /-- What is shared passes the check, whatever text its error would show; and it is what
  the option accepts, said without the check. -/
  shared : ∀ name value, store.shared.get? name = some value →
    ∃ definition, store.find? name = some definition ∧
      (∀ shown, definition.check value shown = .ok ()) ∧ definition.Accepts value
  /-- So does what an editor has of its own. -/
  owned : ∀ editor name value, store.owned.get? (editor, name) = some value →
    ∃ definition, store.find? name = some definition ∧
      (∀ shown, definition.check value shown = .ok ()) ∧ definition.Accepts value
  /-- And what is seen from a scope, by a full or a short name. -/
  seen : ∀ name definition scope, store.find? name = some definition →
    (∀ shown, definition.check (store.valueAt definition scope) shown = .ok ()) ∧
      definition.Accepts (store.valueAt definition scope)
  /-- A toggle, a number or a text is read as the value that it has; a view never answers
  with the one for another kind. -/
  toggle : ∀ name definition scope, store.find? name = some definition →
    definition.kind = .toggle →
      (OptionView.mk store scope).value? name =
        some (.toggle ((OptionView.mk store scope).isOn name))
  number : ∀ name definition scope unsigned, store.find? name = some definition →
    definition.kind = .number unsigned →
      ∃ n, (OptionView.mk store scope).value? name = some (.number n) ∧
        (OptionView.mk store scope).number name = n.toInt ∧ (unsigned = true → 0 ≤ n.toInt)
  text : ∀ name definition scope list bounded validator, store.find? name = some definition →
    definition.kind = .text list bounded validator →
      (OptionView.mk store scope).value? name =
        some (.text ((OptionView.mk store scope).text name))
  /-- An engine with this store reads the look of its cursor. -/
  cursor : ∀ {σ : Type} (engine : Engine σ), engine.options = store →
    (∀ definition, store.find? OptionName.guicursor = some definition →
      definition.Validates CursorEntry.check) →
    ∃ entries,
      CursorEntry.readAll (engine.view.text OptionName.guicursor) = .ok entries ∧
        engine.cursor = .of entries
          (.of engine.mode.mode (engine.view.text OptionName.selection = "exclusive"))

theorem Valid.checked {store : OptionStore} (named : store.Named) (valid : store.Valid) :
    store.Checked where
  shared := by
    intro name value stored
    obtain ⟨definition, defined, accepts⟩ := valid.shared name value stored
    exact ⟨definition, find?_of_get? defined, fun _ => OptionDef.check_eq_ok.mpr accepts, accepts⟩
  owned := by
    intro editor name value stored
    obtain ⟨definition, defined, accepts⟩ := valid.owned editor name value stored
    exact ⟨definition, find?_of_get? defined, fun _ => OptionDef.check_eq_ok.mpr accepts, accepts⟩
  seen := by
    intro name definition scope found
    have accepts := valid.valueAt named found scope
    exact ⟨fun _ => OptionDef.check_eq_ok.mpr accepts, accepts⟩
  toggle := fun _ _ scope found kind => value?_of_toggle named valid found scope kind
  number := fun _ _ scope _ found kind => value?_of_number named valid found scope kind
  text := fun _ _ scope _ _ _ found kind => value?_of_text named valid found scope kind
  cursor := by
    rintro σ engine rfl validates
    obtain ⟨entries, read⟩ := exists_cursorEntries named valid validates (.editor engine.editor)
    refine ⟨entries, read, ?_⟩
    unfold Engine.cursor Engine.view
    simp [read]

/-- The options that an editor starts with are sound. -/
theorem defaultOptions_accepted :
    ∀ definition ∈ defaultOptions, definition.Accepts definition.default := by
  have checked : ∀ definition ∈ defaultOptions,
      (definition.check definition.default "").toBool = true := by decide +kernel
  intro definition member
  have passes := checked definition member
  cases result : definition.check definition.default "" with
  | ok => exact OptionDef.check_eq_ok.mp result
  | error error => simp [result, Except.toBool] at passes

theorem default_valid : OptionStore.default.Named ∧ OptionStore.default.Valid := by
  have start : OptionStore.default = ({} : OptionStore).after (defaultOptions.map .define) := by
    rw [after, List.foldl_map]
    rfl
  rw [start]
  refine after_valid _ ?_ named_empty valid_empty
  simp only [List.forall_mem_map]
  exact fun definition member _ => OptionDef.check_eq_ok.mpr (defaultOptions_accepted definition member)

/-- From an empty store, operations with sound definitions lead to checked stores only.
From the start of an editor, the look of the cursor can be read after all operations but
a new definition of its option. -/
theorem after_checked (operations : List Operation)
    (sound : ∀ operation ∈ operations, operation.Sound) :
    (({} : OptionStore).after operations).Checked ∧
      ∀ {σ : Type} (engine : Engine σ), engine.options = OptionStore.default.after operations →
        (∀ definition, .define definition ∈ operations →
          definition.name ≠ OptionName.guicursor) →
        ∃ entries,
          CursorEntry.readAll (engine.view.text OptionName.guicursor) = .ok entries ∧
            engine.cursor = .of entries
              (.of engine.mode.mode (engine.view.text OptionName.selection = "exclusive")) := by
  obtain ⟨named, valid⟩ := after_valid operations sound named_empty valid_empty
  refine ⟨valid.checked named, ?_⟩
  intro σ engine options others
  obtain ⟨named, valid⟩ := default_valid
  obtain ⟨named', valid'⟩ := after_valid operations sound named valid
  refine (valid'.checked named').cursor engine options ?_
  intro definition found
  have kept := get?_definitions_after operations sound named valid others
  have first : OptionStore.default.definitions.get? OptionName.guicursor =
      some ((OptionDef.ofList OptionName.guicursor "gcr" defaultCursor).withValidator
        CursorEntry.check) := rfl
  rw [find?_of_get? (kept.trans first), Option.some.injEq] at found
  subst found
  intro list bounded validator kind
  cases kind
  rfl

/-- An option is added and some are changed: two changes are refused, and two values come
about by a combination. -/
def editing : List Operation :=
  [.define ((OptionDef.ofUnsigned "columns" "co" 80).withScope .perEditor),
    .line .both ⟨1⟩ "co+=4 so=3", .line .own ⟨1⟩ "co-=99", .line .shared ⟨1⟩ "gcr=n",
    .setText "gcr" .everywhere .append "n:ver75", .unset "so" ⟨1⟩]

theorem editing_checked :
    (∀ operation ∈ editing, operation.Sound) ∧ (({} : OptionStore).after editing).Checked ∧
      ∃ entries,
        CursorEntry.readAll
          ((OptionView.mk (OptionStore.default.after editing) (.editor ⟨0⟩)).text
            OptionName.guicursor) = .ok entries := by
  have sound : ∀ operation ∈ editing, operation.Sound := by
    simp only [editing, List.forall_mem_cons]
    refine ⟨fun shown => rfl, trivial, trivial, trivial, trivial, trivial, by simp⟩
  have others : ∀ definition, .define definition ∈ editing →
      definition.name ≠ OptionName.guicursor := by
    intro definition member
    simp only [editing, List.mem_cons, Operation.define.injEq, reduceCtorEq, List.not_mem_nil,
      or_false] at member
    subst member
    decide
  obtain ⟨checked, reads⟩ := after_checked editing sound
  obtain ⟨entries, read, _⟩ :=
    reads { world := (), options := OptionStore.default.after editing } rfl others
  exact ⟨sound, checked, entries, read⟩

/-- The option for the look of the cursor is defined anew, without the check for it. -/
def uncheckedCursor : List Operation :=
  [.define (OptionDef.ofList OptionName.guicursor "gcr" "n:ver25"),
    .setText "gcr" .everywhere .assign "x"]

/-- Its default passes its own check, and then a text is stored that is no look, so an engine
shows the plain one. -/
theorem uncheckedCursor_unread :
    let engine : Engine Unit := { world := (), options := ({} : OptionStore).after uncheckedCursor }
    (∀ operation ∈ uncheckedCursor, operation.Sound) ∧
      CursorEntry.readAll (engine.view.text OptionName.guicursor) =
        .error (.missingColon "x") ∧
      engine.cursor = {} := by
  refine ⟨?_, rfl, rfl⟩
  simp only [uncheckedCursor, List.forall_mem_cons]
  exact ⟨fun shown => rfl, trivial, by simp⟩

end OptionStore

end ModalInput
