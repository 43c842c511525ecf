/-
# ModalInput.Proofs.RelativeArguments -- what an operator combines with

An operator, and the sign that flips a toggle, make a new value of one that is there.
The write reads it in the scope that it writes, and the command then shows the new value
(`writing_shown`).  What the command showed before is in its own scope, and that is the
same value, with one exception: where editors override the shared value, the command for
both writes the shared one.  An editor that has a value of its own sees that it goes, and
in its place a value that was not made of it (`base`).

* `Recomputes` -- writes that make a value of the one in the same scope.
* `writing_shown` -- the value that a command shows after such a write.
* `relative_shown` -- operators and flips, in every store that operations lead to.
* `overridden_dropped` -- an editor's own value plays no part.
-/
import ModalInput.Proofs.OptionPlaces

namespace ModalInput

set_option autoImplicit false

open OptionStore

/-! ## Reading after two writes -/

namespace OptionStore

variable (store : OptionStore) {definition : OptionDef}

/-- An option that all editors share is read alike in every scope. -/
theorem valueAt_of_shared (kind : definition.scope = .shared) (scope : OptionScope) :
    store.valueAt definition scope = store.valueAt definition .everywhere := by
  simp [valueAt, owner?, kind]

/-- A write of the shared value is not seen by an editor that has its own. -/
theorem valueAt_write_own (kind : definition.scope ≠ .shared) (editor : EditorId)
    (own shared : OptionValue) :
    ((store.write definition (.editor editor) own).write definition .everywhere shared).valueAt
      definition (.editor editor) = own := by
  have owner := owner?_eq_some.mpr ⟨rfl (a := OptionScope.editor editor), kind⟩
  simp [valueAt, owner, get?_owned_write]

/-- Without a value of its own, an editor sees the shared one. -/
theorem valueAt_withoutOwn (editor : EditorId) :
    (store.withoutOwn definition editor).valueAt definition (.editor editor) =
      store.valueAt definition .everywhere := by
  cases owner : owner? definition (.editor editor) with
  | none => simp [valueAt, owner, sharedValue]
  | some id =>
      obtain ⟨same, _⟩ := owner?_eq_some.mp owner
      cases same
      simp [valueAt, owner, get?_owned_withoutOwn, sharedValue]

end OptionStore

/-! ## Relative arguments -/

/-- An argument that makes a new value of the one that the option with a name has: with an
operator, or by flipping it.  The letters that flip a toggle stand before its name, if that
is not a name, too. -/
inductive SetArgument.Relative (store : OptionStore) : SetArgument → String → Prop where
  | assign (name : String) (operation : SetOperation) (text : String) :
      Relative store (.assign name operation text) name
  | invert (name : String) : Relative store (.invert name) name
  | inverse (name : String) (unknown : store.find? ("inv" ++ name) = none) :
      Relative store (.bare ("inv" ++ name)) name

/-- What a relative argument makes of a value. -/
inductive SetArgument.Makes (definition : OptionDef) (old : OptionValue) :
    SetArgument → OptionValue → Prop where
  | combined {name text : String} {operation : SetOperation} {operand new : OptionValue}
      (read : definition.read text (name ++ operation.symbol ++ text) = .ok operand)
      (combined : definition.combine? operation old operand = some new) :
      Makes definition old (.assign name operation text) new
  | inverted {name : String} (kind : definition.kind = .toggle) :
      Makes definition old (.invert name) (.toggle !(old.toggle?.getD false))
  | inverse {name : String} (kind : definition.kind = .toggle) :
      Makes definition old (.bare name) (.toggle !(old.toggle?.getD false))

namespace SetCommand

variable (command : SetCommand) (editor : EditorId) {store after : OptionStore}

/-! ## Writes that read what they replace -/

/-- A way to write the option under a name that makes the new value of the one in the same
scope. -/
def Recomputes (write : OptionScope → Change) (name : String)
    (makes : OptionDef → OptionValue → OptionValue → Prop) : Prop :=
  ∀ scope store after, write scope store = (after, .ok ()) →
    ∃ definition new, store.find? name = some definition ∧
      makes definition (store.valueAt definition scope) new ∧
      after = store.write definition scope new

/-- The scope of the value that a command makes the new one of: the shared value, where the
command for both writes it over an editor's own, and else the one that the command shows. -/
def base (definition : OptionDef) : OptionScope :=
  match command, definition.scope with
  | .both, .overridable => .everywhere
  | command, _ => command.scope editor

/-- The value that a command shows after a write is the one that was made. -/
theorem writing_shown {write : OptionScope → Change} {name : String}
    {makes : OptionDef → OptionValue → OptionValue → Prop}
    (recomputes : Recomputes write name makes)
    (succeeded : command.writing editor name write store = (after, .ok ())) :
    ∃ definition, store.find? name = some definition ∧
      makes definition (store.valueAt definition (command.base editor definition))
        (after.valueAt definition (command.scope editor)) := by
  rw [writing, provided_eq_ok] at succeeded
  obtain ⟨definition, resolved, succeeded⟩ := succeeded
  have found := resolve_eq_ok.mp resolved
  have once {scope : OptionScope} {between : OptionStore}
      (done : write scope store = (between, .ok ())) :
      ∃ new, makes definition (store.valueAt definition scope) new ∧
        between = store.write definition scope new := by
    obtain ⟨other, new, same, made, rfl⟩ := recomputes scope store between done
    cases found.symm.trans same
    exact ⟨new, made, rfl⟩
  have kept {scope : OptionScope} {new : OptionValue} :
      (store.write definition scope new).find? name = some definition :=
    by rw [(Touch.write found scope new).same.find?]; exact found
  refine ⟨definition, found, ?_⟩
  split at succeeded
  · -- all editors share the option
    rename_i kind
    obtain ⟨new, made, rfl⟩ := once succeeded
    rw [valueAt_of_shared store kind, valueAt_of_shared (store.write ..) kind, valueAt_write]
    exact made
  · -- the shared value
    obtain ⟨new, made, rfl⟩ := once succeeded
    rw [scope, valueAt_write]
    exact made
  · -- the editor's own
    obtain ⟨new, made, rfl⟩ := once succeeded
    rw [scope, valueAt_write]
    exact made
  · -- the editor's own, and then the shared one
    rename_i kind
    obtain ⟨between, first, second⟩ := andThen_eq_ok.mp succeeded
    obtain ⟨new, made, rfl⟩ := once first
    obtain ⟨copied, _, done⟩ := provided_eq_ok.mp second
    obtain ⟨other, same, _, rfl⟩ := set_eq_ok.mp done
    cases kept.symm.trans same
    rw [scope, valueAt_write_own _ (by simp [kind])]
    simpa [base, kind, scope] using made
  · -- the shared one, and then the editor's own is taken away
    rename_i kind
    obtain ⟨between, first, second⟩ := andThen_eq_ok.mp succeeded
    obtain ⟨new, made, rfl⟩ := once first
    obtain ⟨other, same, rfl⟩ := unset_eq_ok.mp second
    cases kept.symm.trans same
    rw [scope, valueAt_withoutOwn, valueAt_write]
    simpa [base, kind] using made

/-! ## Relative arguments show what they make -/

theorem recomputes_setText (name : String) (operation : SetOperation) (text : String) :
    Recomputes (fun scope store => store.setText name scope operation text) name
      fun definition old => SetArgument.Makes definition old (.assign name operation text) := by
  intro scope store after done
  obtain ⟨definition, operand, new, found, read, _, combined, _, rfl⟩ := setText_eq_ok.mp done
  exact ⟨definition, new, found, .combined read combined, rfl⟩

theorem recomputes_flip (name : String) :
    Recomputes (fun scope store => store.flip name scope) name
      fun definition old new => definition.kind = .toggle ∧
        new = .toggle !(old.toggle?.getD false) := by
  intro scope store after done
  obtain ⟨definition, ⟨found, kind⟩, rfl⟩ := flip_eq_ok.mp done
  exact ⟨definition, _, found, ⟨kind, rfl⟩, rfl⟩

theorem silent_eq_ok {change : Change} {lines : List String}
    (succeeded : silent change store = ⟨after, .ok lines⟩) : change store = (after, .ok ()) := by
  cases changed : change store with
  | mk last result =>
      cases result with
      | error error => simp [silent, changed, Except.map] at succeeded
      | ok =>
          simp only [silent, changed, SetOutcome.mk.injEq] at succeeded
          rw [succeeded.1]

/-- The letters that flip a toggle do not begin as the ones that turn it off. -/
theorem prefixedToggle?_no (name : String) :
    prefixedToggle? store "no" ("inv" ++ name) = none := by
  have other : "no".isPrefixOf ("inv" ++ name) = false := by
    simp [String.isPrefixOf, String.startsWith_string_eq_false_iff]
  simp [prefixedToggle?, other]

theorem prefixedToggle?_inv {name full : String}
    (toggles : prefixedToggle? store "inv" ("inv" ++ name) = some full) :
    ∃ definition, store.find? name = some definition ∧ definition.name = full := by
  have rest : String.ofList (("inv" ++ name).toList.drop "inv".length) = name := by
    rw [show "inv".length = 3 from rfl]
    simp
  unfold prefixedToggle? at toggles
  rw [rest] at toggles
  split at toggles
  · obtain ⟨definition, found, same⟩ := Option.bind_eq_some_iff.mp toggles
    split at same
    · exact ⟨definition, found, Option.some.inj same⟩
    · cases same
  · cases toggles

/-- A relative argument that succeeds has made the value that is then shown. -/
theorem runArgument_shown (named : store.Named) {argument : SetArgument} {name : String}
    (relative : argument.Relative store name) {lines : List String}
    (succeeded : command.runArgument editor store argument = ⟨after, .ok lines⟩) :
    ∃ definition, store.find? name = some definition ∧
      argument.Makes definition (store.valueAt definition (command.base editor definition))
        (after.valueAt definition (command.scope editor)) := by
  cases relative with
  | assign name operation text =>
      exact command.writing_shown editor (recomputes_setText name operation text)
        (silent_eq_ok succeeded)
  | invert name =>
      obtain ⟨definition, found, kind, made⟩ :=
        command.writing_shown editor (recomputes_flip name) (silent_eq_ok succeeded)
      exact ⟨definition, found, made ▸ .inverted kind⟩
  | inverse name unknown =>
      simp only [runArgument, unknown, prefixedToggle?_no] at succeeded
      split at succeeded
      · rename_i impossible
        cases impossible
      · rename_i full toggles
        obtain ⟨definition, found, rfl⟩ := prefixedToggle?_inv toggles
        obtain ⟨other, same, kind, made⟩ :=
          command.writing_shown editor (recomputes_flip definition.name) (silent_eq_ok succeeded)
        cases (find?_of_get? (named.get? found)).symm.trans same
        exact ⟨definition, found, made ▸ .inverse kind⟩
      · cases succeeded

theorem query_of_find? {name : String} {definition : OptionDef}
    (found : store.find? name = some definition) :
    command.query editor store name =
      .ok [line definition (store.valueAt definition (command.scope editor))] := by
  rw [query, resolve_eq_ok.mpr found]
  rfl

/-- The value that a command makes a new one of is the one that it shows, unless it is the
command for both, and the editor has a value in place of the shared one. -/
theorem valueAt_base {name : String} {definition : OptionDef}
    (found : store.find? name = some definition)
    (plain : ¬ (command = .both ∧ definition.scope = .overridable ∧
      store.hasOwn name editor = true)) :
    store.valueAt definition (command.base editor definition) =
      store.valueAt definition (command.scope editor) := by
  unfold base
  split
  · rename_i kind
    have none : store.owned.get? (editor, definition.name) = none := by
      simpa [kind, hasOwn, found, Directory.contains] using plain
    have owner : owner? definition (.editor editor) = some editor :=
      owner?_eq_some.mpr ⟨rfl, by simp [kind]⟩
    simp [scope, valueAt, owner, none]
  · rfl

/-- In every store that operations lead to, an operator or a flip that succeeds has made the
value that the same command shows after it, of the one that it showed before; but the
command for both makes it of the shared value, where editors override that. -/
theorem relative_shown (operations : List Operation) {argument : SetArgument} {name : String}
    (relative : argument.Relative (({} : OptionStore).after operations) name)
    {lines : List String}
    (succeeded : command.runArgument editor (({} : OptionStore).after operations) argument =
      ⟨after, .ok lines⟩) :
    let store := ({} : OptionStore).after operations
    ∃ definition old new, store.find? name = some definition ∧
      store.get name (command.scope editor) = .ok old ∧
      command.query editor store name = .ok [line definition old] ∧
      after.get name (command.scope editor) = .ok new ∧
      command.query editor after name = .ok [line definition new] ∧
      (¬ (command = .both ∧ definition.scope = .overridable ∧ store.hasOwn name editor = true) →
        argument.Makes definition old new) ∧
      (command = .both → definition.scope = .overridable →
        argument.Makes definition (store.sharedValue definition) new) := by
  intro store
  have named : store.Named := (after_regular regular_empty operations).named
  obtain ⟨definition, found, made⟩ := runArgument_shown command editor named relative succeeded
  have touches := runArgument_touches command editor named argument
  rw [succeeded] at touches
  have kept : after.find? name = some definition := by
    rw [touches.same.find?]
    exact found
  refine ⟨definition, _, _, found, get_of_find? found, query_of_find? command editor found,
    get_of_find? kept, query_of_find? command editor kept, ?_, ?_⟩
  · intro plain
    rw [← valueAt_base command editor found plain]
    exact made
  · rintro rfl kind
    simpa [base, kind, valueAt] using made

/-- An option that editors override, as one of them does. -/
def overriding : List Operation :=
  [.define ((OptionDef.ofUnsigned "scrolloff" "so" 2).withScope .overridable),
    .set "so" (.editor ⟨1⟩) (.number 3)]

/-- The command for an editor's own value adds to what it shows. -/
theorem overriding_shown :
    let store := ({} : OptionStore).after overriding
    let argument := SetArgument.assign "so" .append "5"
    argument.Relative store "so" ∧
      ∃ after, SetCommand.own.runArgument ⟨1⟩ store argument = ⟨after, .ok []⟩ ∧
        ∃ definition, store.find? "so" = some definition ∧
          argument.Makes definition (.number 3) (.number 8) := by
  intro store argument
  have relative : argument.Relative store "so" := .assign "so" .append "5"
  have succeeded : SetCommand.own.runArgument ⟨1⟩ store argument =
      ⟨(SetCommand.own.runArgument ⟨1⟩ store argument).store, .ok []⟩ := rfl
  obtain ⟨definition, old, new, found, before, _, later, _, made, _⟩ :=
    relative_shown .own ⟨1⟩ overriding relative succeeded
  obtain rfl : old = .number 3 := (Except.ok.inj before).symm
  obtain rfl : new = .number 8 := (Except.ok.inj later).symm
  exact ⟨relative, _, succeeded, definition, found, made (by simp)⟩

/-- The command for both adds to the shared value, and the editor's own is gone: it shows 3,
adds 5, and shows 7. -/
theorem overridden_dropped :
    let store := ({} : OptionStore).after overriding
    let outcome := SetCommand.both.runArgument ⟨1⟩ store (.assign "so" .append "5")
    SetCommand.both.query ⟨1⟩ store "so" = .ok ["scrolloff=3"] ∧
      outcome.result = .ok [] ∧
      SetCommand.both.query ⟨1⟩ outcome.store "so" = .ok ["scrolloff=7"] ∧
      ¬ ∃ definition, store.find? "so" = some definition ∧
        (SetArgument.assign "so" .append "5").Makes definition (.number 3) (.number 7) := by
  refine ⟨rfl, rfl, rfl, ?_⟩
  rintro ⟨definition, found, made⟩
  cases found
  cases made with
  | combined read combined =>
      obtain rfl := (Except.ok.inj read).symm
      exact absurd combined (by decide)

end SetCommand

end ModalInput
