/-
# ModalInput.Proofs.OptionKinds -- every value is of the kind of its option

The check of an option is made before a value is combined, after it, or not at all: a reset
writes whatever default the option brings.  So stores can be reached in which a value does
not pass the check, but not one in which it is of another kind.  That needs less than a
sound default: a default of its own kind.  It is what lets a number option be read as a
number by everything that writes to it.

* `OptionKind.Has` -- the values of a kind.
* `Kinded` -- every default and every value is of the kind of its option;
  `Call.run_kinded`, `runArgument_kinded` -- what writes keep it.
* `after_kinded` -- every store that operations lead to.
-/
import ModalInput.Proofs.ToldWrites

namespace ModalInput

set_option autoImplicit false

/-- The values of a kind. -/
def OptionKind.Has : OptionKind → OptionValue → Prop
  | .toggle, .toggle _ => True
  | .number _, .number _ => True
  | .text _ _ _, .text _ => True
  | _, _ => False

theorem OptionKind.Has.of_number {kind : OptionKind} {value : OptionValue} (has : kind.Has value)
    {unsigned : Bool} (number : kind = .number unsigned) : ∃ n, value = .number n := by
  subst number
  cases value <;> simp_all [OptionKind.Has]

theorem OptionDef.Accepts.has {definition : OptionDef} {value : OptionValue}
    (accepts : definition.Accepts value) : definition.kind.Has value := by
  unfold OptionDef.Accepts at accepts
  cases kind : definition.kind <;> cases value <;> simp_all [OptionKind.Has]

namespace OptionStore

/-- The full name of the option whose value is in a place. -/
def Place.name : Place → String
  | .shared name | .own _ name => name

@[simp] theorem name_target (definition : OptionDef) (scope : OptionScope) :
    (target definition scope).name = definition.name := by
  unfold target
  cases owner? definition scope <;> rfl

/-- Every default and every value is of the kind of its option. -/
structure Kinded (store : OptionStore) : Prop where
  named : store.Named
  defaults : ∀ {name : String} {definition : OptionDef},
    store.definitions.get? name = some definition → definition.kind.Has definition.default
  stored : ∀ (place : Place) {value : OptionValue}, store.stored? place = some value →
    ∃ definition, store.definitions.get? place.name = some definition ∧ definition.kind.Has value

theorem kinded_empty : ({} : OptionStore).Kinded where
  named := named_empty
  defaults found := by simp at found
  stored place value stored := by cases place <;> simp [stored?] at stored

section Kinded

variable {store after : OptionStore} (kinded : store.Kinded) {name : String}
  {definition : OptionDef}
include kinded

/-- What a scope sees of an option is of its kind. -/
theorem Kinded.valueAt (found : store.find? name = some definition) (scope : OptionScope) :
    definition.kind.Has (store.valueAt definition scope) := by
  have defined := kinded.named.get? found
  have there (place : Place) (about : place.name = definition.name) {other : OptionValue}
      (otherwise : definition.kind.Has other) :
      definition.kind.Has ((store.stored? place).getD other) := by
    cases stored : store.stored? place with
    | none => exact otherwise
    | some value =>
        obtain ⟨same, known, has⟩ := kinded.stored place stored
        rw [about, defined, Option.some.injEq] at known
        exact known ▸ has
  have shared := there (.shared definition.name) rfl (kinded.defaults defined)
  cases owner : owner? definition scope with
  | none => simpa only [valueAt_of_unowned _ _ owner] using shared
  | some editor =>
      rw [valueAt_of_owned _ _ owner]
      exact there (.own editor definition.name) rfl shared

theorem Kinded.write (found : store.find? name = some definition) (scope : OptionScope)
    {value : OptionValue} (has : definition.kind.Has value) :
    (store.write definition scope value).Kinded where
  named := by simpa only [Named, definitions_write] using kinded.named
  defaults defined := kinded.defaults (by simpa using defined)
  stored place current stored := by
    rw [definitions_write]
    rw [stored?_write] at stored
    split at stored
    · rename_i aimed
      cases stored
      exact ⟨definition, by rw [aimed, name_target, kinded.named.get? found], has⟩
    · exact kinded.stored place stored

theorem Kinded.withoutOwn (definition : OptionDef) (editor : EditorId) :
    (store.withoutOwn definition editor).Kinded where
  named := by simpa only [Named, definitions_withoutOwn] using kinded.named
  defaults defined := kinded.defaults (by simpa using defined)
  stored place value stored := by
    rw [definitions_withoutOwn]
    rw [stored?_withoutOwn] at stored
    split at stored
    · cases stored
    · exact kinded.stored place stored

/-- The values that editors had of their own for an earlier option of the name are gone, and
the shared one is the new default. -/
theorem Kinded.define (has : definition.kind.Has definition.default) :
    (store.define definition).Kinded where
  named := kinded.named.define definition
  defaults {full other} defined := by
    rw [get?_define] at defined
    split at defined
    · cases defined
      exact has
    · exact kinded.defaults defined
  stored place value stored := by
    rw [get?_define]
    cases place with
    | shared full =>
        simp only [stored?, OptionStore.define, Directory.get?_insert] at stored
        split at stored
        · rename_i same
          cases stored
          exact ⟨definition, if_pos same, has⟩
        · rename_i differs
          obtain ⟨other, defined, of⟩ := kinded.stored (.shared full) stored
          exact ⟨other, (if_neg differs).trans defined, of⟩
    | own editor full =>
        simp only [stored?, OptionStore.define, Directory.get?_filter, Option.filter_eq_some_iff,
          decide_eq_true_eq] at stored
        obtain ⟨other, defined, of⟩ := kinded.stored (.own editor full) stored.1
        exact ⟨other, (if_neg stored.2).trans defined, of⟩

/-! ## The ways to write -/

/-- A reset is not checked, and the default is of the kind. -/
theorem Call.run_kinded (call : Call) (name : String) (scope : OptionScope) :
    (call.run store name scope).1.Kinded := by
  refine call.keeps.left kinded fun after done => ?_
  cases call with
  | set value =>
      obtain ⟨definition, found, accepts, rfl⟩ := set_eq_ok.mp done
      exact kinded.write found scope accepts.has
  | setText operation text =>
      obtain ⟨definition, _, new, found, _, _, _, accepts, rfl⟩ := setText_eq_ok.mp done
      exact kinded.write found scope accepts.has
  | reset =>
      obtain ⟨definition, found, rfl⟩ := reset_eq_ok.mp done
      exact kinded.write found scope (kinded.defaults (kinded.named.get? found))
  | turn on =>
      obtain ⟨definition, ⟨found, kind⟩, rfl⟩ := turn_eq_ok.mp done
      exact kinded.write found scope (OptionDef.accepts_toggle kind on).has
  | flip =>
      obtain ⟨definition, ⟨found, kind⟩, rfl⟩ := flip_eq_ok.mp done
      exact kinded.write found scope (OptionDef.accepts_toggle kind _).has

theorem Kinded.unset (name : String) (editor : EditorId) :
    (store.unset name editor).1.Kinded := by
  refine (unset_keeps editor).left kinded fun after done => ?_
  obtain ⟨definition, _, rfl⟩ := unset_eq_ok.mp done
  exact kinded.withoutOwn definition editor

/-- The definitions are the same all along, so each that is written is found. -/
theorem Kinded.resetAll : store.resetAll.Kinded := by
  have taken : (store.owned.keys.foldl
      (fun store key => (store.unset key.2 key.1).1) store).Kinded :=
    List.foldlRecOn _ _ kinded fun _ kinded key _ => kinded.unset key.2 key.1
  have same := (unsetAll_touches store.owned.keys store).same
  refine (List.foldlRecOn
    (motive := fun after : OptionStore => after.Kinded ∧ after.find? = store.find?) _ _
    ⟨taken, same.find?⟩ ?_).1
  rintro between ⟨kinded, same⟩ definition member
  obtain ⟨full, defined⟩ := mem_sorted.mp member
  have found : between.find? full = some definition := same ▸ find?_of_get? defined
  have written : Touch between _ (between.write definition .everywhere definition.default) :=
    .write found .everywhere _
  exact ⟨kinded.write found _ (kinded.defaults (kinded.named.get? found)),
    written.same.find?.trans same⟩

end Kinded

end OptionStore

/-! ## Commands -/

open OptionStore

namespace SetCommand

variable (command : SetCommand) (editor : EditorId) {store : OptionStore} (kinded : store.Kinded)
include kinded

theorem share_kinded (name : String) : (share editor name store).1.Kinded := by
  unfold share
  cases store.get name (.editor editor) with
  | error error => exact kinded
  | ok value => exact Call.run_kinded kinded (.set value) name .everywhere

theorem writing_kinded (call : Call) (name : String) :
    (command.writing editor name (fun scope store => call.run store name scope)
      store).1.Kinded := by
  have first (scope : OptionScope) : (call.run store name scope).1.Kinded :=
    Call.run_kinded kinded call name scope
  have between {scope : OptionScope} {after : OptionStore}
      (done : call.run store name scope = (after, .ok ())) : after.Kinded := by
    have left := first scope
    rwa [done] at left
  unfold writing
  cases store.resolve name with
  | error error => exact kinded
  | ok definition =>
      dsimp only [provided]
      split
      · exact first _
      · exact first _
      · exact first _
      · exact andThen_left (first _) fun after done => share_kinded editor (between done) name
      · exact andThen_left (first _) fun after done => (between done).unset name editor

theorem copyGlobal_kinded (name : String) : (copyGlobal editor name store).1.Kinded := by
  unfold copyGlobal
  cases store.resolve name with
  | error error => exact kinded
  | ok definition =>
      dsimp only [provided]
      split
      · exact kinded
      · exact kinded.unset definition.name editor
      · split
        · exact Call.run_kinded kinded (.set _) _ _
        · exact kinded

theorem runArgument_kinded (argument : SetArgument) :
    (command.runArgument editor store argument).store.Kinded := by
  cases argument with
  | showAll => exact kinded
  | resetAll => exact kinded.resetAll
  | query name => exact kinded
  | invert name => exact command.writing_kinded editor kinded .flip name
  | reset name => exact command.writing_kinded editor kinded .reset name
  | copyGlobal name => exact copyGlobal_kinded editor kinded name
  | assign name operation value =>
      exact command.writing_kinded editor kinded (.setText operation value) name
  | bare name =>
      simp only [runArgument]
      split
      · split
        · exact command.writing_kinded editor kinded (.turn true) name
        · exact kinded
      · split
        · exact command.writing_kinded editor kinded (.turn false) _
        · exact command.writing_kinded editor kinded .flip _
        · exact kinded

theorem runArguments_kinded (arguments : List SetArgument) :
    (command.runArguments editor store arguments).store.Kinded := by
  induction arguments generalizing store with
  | nil => exact kinded
  | cons argument rest ih =>
      have first := command.runArgument_kinded editor kinded argument
      simp only [runArguments]
      split
      · exact first
      · exact ih first

theorem run_kinded (text : String) : (command.run editor store text).store.Kinded := by
  cases read : SetArgument.readAll text with
  | error error => simpa [run, read] using kinded
  | ok arguments =>
      rw [run_of_read command editor read]
      split
      · exact kinded
      · exact command.runArguments_kinded editor kinded arguments

end SetCommand

/-! ## Every store that operations lead to -/

namespace OptionStore

/-- A definition brings a default of its own kind. -/
def Operation.Typed : Operation → Prop
  | .define definition => definition.kind.Has definition.default
  | _ => True

theorem Kinded.run {store : OptionStore} (kinded : store.Kinded) {operation : Operation}
    (typed : operation.Typed) : (operation.run store).Kinded := by
  cases operation with
  | define definition => exact kinded.define typed
  | set name scope value => exact Call.run_kinded kinded (.set value) name scope
  | setText name scope operation text =>
      exact Call.run_kinded kinded (.setText operation text) name scope
  | reset name scope => exact Call.run_kinded kinded .reset name scope
  | resetAll => exact kinded.resetAll
  | turn name scope on => exact Call.run_kinded kinded (.turn on) name scope
  | flip name scope => exact Call.run_kinded kinded .flip name scope
  | unset name editor => exact kinded.unset name editor
  | line command editor arguments => exact command.run_kinded editor kinded arguments
  | listen name localAware atOnce =>
      refine listen_keeps.left kinded fun after done => ?_
      obtain ⟨definition, _, rfl⟩ := provided_done.mp done
      exact ⟨kinded.named, kinded.defaults, kinded.stored⟩
  | unlisten id => exact ⟨kinded.named, kinded.defaults, kinded.stored⟩
  | deliver => exact ⟨kinded.named, kinded.defaults, kinded.stored⟩

/-- Operations whose definitions bring defaults of their own kind lead to stores only in which
every value is of the kind of its option. -/
theorem after_kinded {store : OptionStore} (kinded : store.Kinded) (operations : List Operation)
    (typed : ∀ operation ∈ operations, operation.Typed) : (store.after operations).Kinded := by
  induction operations generalizing store with
  | nil => exact kinded
  | cons operation rest ih =>
      exact ih (kinded.run (typed operation (by simp))) fun later member =>
        typed later (by simp [member])

end OptionStore

end ModalInput
