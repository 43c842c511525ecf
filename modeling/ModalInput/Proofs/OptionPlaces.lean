/-
# ModalInput.Proofs.OptionPlaces -- where the writes of an option go

A value is stored in a place: it is shared, or an editor has it of its own.  Whatever
is done to a store, apart from defining options and registering listeners, comes down
to touches of places: a value is written, accepted or not, or an editor's own value is
taken away (`Touch`).  Which places these can be is known beforehand from the command
and its arguments (`SetArgument.Reaches`), and every other place keeps what it has.

* `stored?_write`, `stored?_withoutOwn` -- the one place that a touch changes;
  `Touches.stored?` -- all others stay.
* `runArgument_touches`, `run_touches` -- the places of an argument and of a command.
* `Regular`, `after_regular` -- what holds of every store that operations lead to, also
  where a default does not pass the check of its option.
-/
import ModalInput.Proofs.CheckedOptions

namespace ModalInput

set_option autoImplicit false

namespace OptionStore

/-! ## Places -/

/-- Where a value is stored. -/
inductive Place where
  | shared (name : String)
  | own (editor : EditorId) (name : String)
  deriving DecidableEq

/-- The value in a place. -/
def stored? (store : OptionStore) : Place → Option OptionValue
  | .shared name => store.shared.get? name
  | .own editor name => store.owned.get? (editor, name)

/-- The place that a write in a scope goes to. -/
def target (definition : OptionDef) (scope : OptionScope) : Place :=
  match owner? definition scope with
  | some editor => .own editor definition.name
  | none => .shared definition.name

theorem owner?_eq_some {definition : OptionDef} {scope : OptionScope} {editor : EditorId} :
    owner? definition scope = some editor ↔
      scope = .editor editor ∧ definition.scope ≠ .shared := by
  cases scope with
  | everywhere => cases kind : definition.scope <;> simp [owner?, kind]
  | editor id => cases kind : definition.scope <;> simp [owner?, kind]

@[simp] theorem owner?_everywhere (definition : OptionDef) :
    owner? definition .everywhere = none := by
  cases kind : definition.scope <;> simp [owner?, kind]

@[simp] theorem target_everywhere (definition : OptionDef) :
    target definition .everywhere = .shared definition.name := by
  simp [target]

theorem target_editor {definition : OptionDef} (kind : definition.scope ≠ .shared)
    (editor : EditorId) : target definition (.editor editor) = .own editor definition.name := by
  simp [target, owner?_eq_some.mpr ⟨rfl, kind⟩]

theorem stored?_write (store : OptionStore) (definition : OptionDef) (scope : OptionScope)
    (value : OptionValue) (place : Place) :
    (store.write definition scope value).stored? place =
      if place = target definition scope then some value else store.stored? place := by
  unfold target
  cases place with
  | shared name =>
      rw [stored?, get?_shared_write]
      cases owner? definition scope <;> simp [stored?]
  | own editor name =>
      rw [stored?, get?_owned_write]
      cases owner? definition scope <;> simp [stored?, eq_comm]

theorem stored?_withoutOwn (store : OptionStore) (definition : OptionDef) (editor : EditorId)
    (place : Place) :
    (store.withoutOwn definition editor).stored? place =
      if place = .own editor definition.name then none else store.stored? place := by
  cases place with
  | shared name => simp [stored?]
  | own id name => simp [stored?, get?_owned_withoutOwn]

section Seen

variable (store : OptionStore) (definition : OptionDef) {scope : OptionScope}

/-- A scope without values of its own sees what is shared. -/
theorem valueAt_of_unowned (unowned : owner? definition scope = none) :
    store.valueAt definition scope =
      (store.stored? (.shared definition.name)).getD definition.default := by
  simp [valueAt, unowned, sharedValue, stored?]

/-- An editor that can have a value of its own sees that, or what is shared. -/
theorem valueAt_of_owned {editor : EditorId} (owned : owner? definition scope = some editor) :
    store.valueAt definition scope =
      (store.stored? (.own editor definition.name)).getD
        ((store.stored? (.shared definition.name)).getD definition.default) := by
  simp [valueAt, owned, sharedValue, stored?]

end Seen

@[simp] theorem listeners_write (store : OptionStore) (definition : OptionDef)
    (scope : OptionScope) (value : OptionValue) :
    (store.write definition scope value).listeners = store.listeners := by
  unfold write
  cases owner? definition scope <;> rfl

@[simp] theorem registered_write (store : OptionStore) (definition : OptionDef)
    (scope : OptionScope) (value : OptionValue) :
    (store.write definition scope value).registered = store.registered := by
  unfold write
  cases owner? definition scope <;> rfl

@[simp] theorem listeners_withoutOwn (store : OptionStore) (definition : OptionDef)
    (editor : EditorId) : (store.withoutOwn definition editor).listeners = store.listeners := by
  unfold withoutOwn
  split <;> rfl

@[simp] theorem registered_withoutOwn (store : OptionStore) (definition : OptionDef)
    (editor : EditorId) : (store.withoutOwn definition editor).registered = store.registered := by
  unfold withoutOwn
  split <;> rfl

theorem get_of_find? {store : OptionStore} {name : String} {definition : OptionDef}
    {scope : OptionScope} (found : store.find? name = some definition) :
    store.get name scope = .ok (store.valueAt definition scope) := by
  rw [OptionStore.get, resolve_eq_ok.mpr found]
  rfl

/-! ## Touches -/

/-- One change of the value in a place; the option need not accept what is written. -/
inductive Touch (store : OptionStore) : Place → OptionStore → Prop where
  | write {name : String} {definition : OptionDef} (found : store.find? name = some definition)
      (scope : OptionScope) (value : OptionValue) :
      Touch store (target definition scope) (store.write definition scope value)
  | unset (definition : OptionDef) (editor : EditorId) :
      Touch store (.own editor definition.name) (store.withoutOwn definition editor)

/-- Touches of some places, one after the other. -/
abbrev Touches (places : Place → Prop) : OptionStore → OptionStore → Prop :=
  Relation.ReflTransGen fun store after => ∃ place, places place ∧ Touch store place after

/-- The options and the listeners are those of another store. -/
structure SameOptions (store after : OptionStore) : Prop where
  definitions : after.definitions = store.definitions
  shortNames : after.shortNames = store.shortNames
  listeners : after.listeners = store.listeners
  registered : after.registered = store.registered

theorem SameOptions.trans {a b c : OptionStore} (first : SameOptions a b)
    (second : SameOptions b c) : SameOptions a c :=
  ⟨second.definitions.trans first.definitions, second.shortNames.trans first.shortNames,
    second.listeners.trans first.listeners, second.registered.trans first.registered⟩

theorem SameOptions.named {store after : OptionStore} (same : SameOptions store after)
    (named : store.Named) : after.Named := by
  simpa only [Named, same.definitions] using named

theorem SameOptions.find? {store after : OptionStore} (same : SameOptions store after) :
    after.find? = store.find? := by
  funext name
  simp only [OptionStore.find?, same.definitions, same.shortNames]

section Touches

variable {store after : OptionStore} {place : Place} {places : Place → Prop}

theorem Touch.same (touch : Touch store place after) : SameOptions store after := by
  cases touch with
  | write found scope value =>
      exact ⟨definitions_write .., shortNames_write .., listeners_write .., registered_write ..⟩
  | unset definition editor =>
      exact ⟨definitions_withoutOwn .., shortNames_withoutOwn .., listeners_withoutOwn ..,
        registered_withoutOwn ..⟩

theorem Touch.stored? (touch : Touch store place after) {other : Place} (differs : other ≠ place) :
    after.stored? other = store.stored? other := by
  cases touch with
  | write found scope value => rw [stored?_write, if_neg differs]
  | unset definition editor => rw [stored?_withoutOwn, if_neg differs]

theorem Touches.single (touch : Touch store place after) (reached : places place) :
    Touches places store after :=
  Relation.ReflTransGen.single ⟨place, reached, touch⟩

theorem Touches.mono {more : Place → Prop} (touches : Touches places store after)
    (reach : ∀ place, places place → more place) : Touches more store after := by
  induction touches with
  | refl => exact .refl
  | tail _ last ih =>
      obtain ⟨place, reached, touch⟩ := last
      exact ih.tail ⟨place, reach place reached, touch⟩

theorem Touches.same (touches : Touches places store after) : SameOptions store after := by
  induction touches with
  | refl => exact ⟨rfl, rfl, rfl, rfl⟩
  | tail _ last ih =>
      obtain ⟨place, _, touch⟩ := last
      exact ih.trans touch.same

/-- Places that are not touched keep what they have. -/
theorem Touches.stored? (touches : Touches places store after) {other : Place}
    (untouched : ¬ places other) : after.stored? other = store.stored? other := by
  induction touches with
  | refl => rfl
  | tail _ last ih =>
      obtain ⟨place, reached, touch⟩ := last
      have differs : other ≠ place := fun same => untouched (same ▸ reached)
      exact (touch.stored? differs).trans ih

end Touches

/-! ## The ways to write -/

/-- What a successful write of the option under a name leads to. -/
inductive Wrote (store : OptionStore) (name : String) (scope : OptionScope) : OptionStore → Prop where
  | intro {definition : OptionDef} (found : store.find? name = some definition)
      (value : OptionValue) : Wrote store name scope (store.write definition scope value)

section Wrote

variable {store after : OptionStore} {name : String} {scope : OptionScope} {places : Place → Prop}

theorem Call.wrote (call : Call) (done : call.run store name scope = (after, .ok ())) :
    Wrote store name scope after := by
  obtain ⟨definition, value, found, _, rfl⟩ := Call.run_stores done
  exact ⟨found, value⟩

theorem Wrote.touches (wrote : Wrote store name scope after)
    (reached : ∀ definition, store.find? name = some definition →
      places (target definition scope)) : Touches places store after := by
  obtain ⟨found, value⟩ := wrote
  exact .single (.write found scope value) (reached _ found)

/-- Whether it fails or not, a call touches only the place of the option in its scope. -/
theorem Call.touches (call : Call)
    (reached : ∀ definition, store.find? name = some definition →
      places (target definition scope)) : Touches places store (call.run store name scope).1 :=
  call.keeps.left .refl fun _ done => (call.wrote done).touches reached

theorem unset_touches {editor : EditorId}
    (reached : ∀ definition, store.find? name = some definition →
      places (.own editor definition.name)) : Touches places store (store.unset name editor).1 := by
  refine (unset_keeps editor).left .refl fun after done => ?_
  obtain ⟨definition, found, rfl⟩ := unset_eq_ok.mp done
  exact .single (.unset definition editor) (reached definition found)

theorem unsetAll_touches (keys : List (EditorId × String)) (store : OptionStore) :
    Touches (fun _ => True) store
      (keys.foldl (fun store key => (store.unset key.2 key.1).1) store) := by
  induction keys generalizing store with
  | nil => exact .refl
  | cons key rest ih =>
      have step : Touches (fun _ => True) store (store.unset key.2 key.1).1 :=
        unset_touches fun _ _ => trivial
      exact step.trans (ih _)

theorem writeDefaults_touches (definitions : List OptionDef) (store : OptionStore)
    (known : ∀ definition ∈ definitions, ∃ name, store.find? name = some definition) :
    Touches (fun _ => True) store (definitions.foldl
      (fun store definition => store.write definition .everywhere definition.default) store) := by
  induction definitions generalizing store with
  | nil => exact .refl
  | cons definition rest ih =>
      obtain ⟨name, found⟩ := known definition (by simp)
      have touch : Touch store _ (store.write definition .everywhere definition.default) :=
        .write found .everywhere definition.default
      refine Relation.ReflTransGen.head ⟨_, trivial, touch⟩ (ih _ ?_)
      intro other member
      rw [touch.same.find?]
      exact known other (by simp [member])

theorem resetAll_touches (store : OptionStore) : Touches (fun _ => True) store store.resetAll := by
  have taken := unsetAll_touches store.owned.keys store
  refine Relation.ReflTransGen.trans taken (writeDefaults_touches store.sorted _ ?_)
  intro definition member
  obtain ⟨name, defined⟩ := mem_sorted.mp member
  rw [taken.same.find?]
  exact ⟨name, find?_of_get? defined⟩

end Wrote

end OptionStore

/-! ## Commands -/

open OptionStore

/-- The places that a command writes to: shared ones, or those of its editor; the
command for an editor's own values writes an option that has none where it is shared. -/
def SetCommand.Reaches (command : SetCommand) (editor : EditorId)
    (known : String → Option OptionDef) : Place → Prop
  | .shared full => command = .own →
      ∃ name definition, known name = some definition ∧ definition.name = full ∧
        definition.scope = .shared
  | .own id _ => command ≠ .shared ∧ id = editor

/-- The places that an argument can change.  To reset every option, and to take the
shared value for an editor, are the same in all commands. -/
def SetArgument.Reaches (command : SetCommand) (editor : EditorId)
    (known : String → Option OptionDef) : SetArgument → Place → Prop
  | .resetAll => fun _ => True
  | .copyGlobal name => fun place =>
      ∃ definition, known name = some definition ∧ definition.scope ≠ .shared ∧
        place = .own editor definition.name
  | _ => command.Reaches editor known

/-- An argument of a command, as it is typed. -/
def SetArgument.In (argument : SetArgument) (text : String) : Prop :=
  ∃ arguments, SetArgument.readAll text = .ok arguments ∧ argument ∈ arguments

namespace SetCommand

variable (command : SetCommand) (editor : EditorId) {store : OptionStore} {places : Place → Prop}

/-- Commands that can change what is shared reach the place where an option is shared. -/
theorem reaches_everywhere (known : String → Option OptionDef) (definition : OptionDef)
    (changes : command ≠ .own) : command.Reaches editor known (target definition .everywhere) := by
  rw [target_everywhere]
  exact fun own => absurd own changes

/-- Commands that can change what an editor has of its own reach its place. -/
theorem reaches_editor (known : String → Option OptionDef) {definition : OptionDef}
    (kind : definition.scope ≠ .shared) (changes : command ≠ .shared) :
    command.Reaches editor known (target definition (.editor editor)) := by
  rw [target_editor kind]
  exact ⟨changes, rfl⟩

theorem writing_touches (call : Call) (name : String) :
    Touches (command.Reaches editor store.find?) store
      (command.writing editor name (fun scope store => call.run store name scope) store).1 := by
  unfold writing
  cases resolved : store.resolve name with
  | error error => exact .refl
  | ok definition =>
      have found := resolve_eq_ok.mp resolved
      have named {other : OptionDef} (same : store.find? name = some other) : other = definition :=
        Option.some.inj (same.symm.trans found)
      dsimp only [provided]
      split
      · -- all editors share the option
        rename_i kind
        refine call.touches fun other same => ?_
        rw [target_everywhere, named same]
        exact fun _ => ⟨name, definition, found, rfl, kind⟩
      · -- the shared value
        exact call.touches fun other _ => reaches_everywhere _ editor _ other (by simp)
      · -- the editor's own
        rename_i kind
        refine call.touches fun other same => ?_
        rw [named same]
        exact reaches_editor _ editor _ (fun shared => kind shared) (by simp)
      · -- the editor's own, and then the shared one
        rename_i kind
        have first : Touches (SetCommand.both.Reaches editor store.find?) store
            (call.run store name (.editor editor)).1 := by
          refine call.touches fun other same => ?_
          rw [named same]
          exact reaches_editor _ editor _ (by simp [kind]) (by simp)
        refine andThen_left first fun between done => ?_
        rw [done] at first
        refine first.trans ?_
        refine (share_keeps editor name between).left .refl fun after shared => ?_
        obtain ⟨value, _, shared⟩ := provided_eq_ok.mp shared
        exact ((Call.set value).wrote shared).touches fun other _ =>
          reaches_everywhere _ editor _ other (by simp)
      · -- the shared one, and then the editor's own is taken away
        have first : Touches (SetCommand.both.Reaches editor store.find?) store
            (call.run store name .everywhere).1 :=
          call.touches fun other _ => reaches_everywhere _ editor _ other (by simp)
        refine andThen_left first fun between done => ?_
        rw [done] at first
        exact first.trans (unset_touches fun _ _ => ⟨by simp, rfl⟩)

theorem copyGlobal_touches (named : store.Named) (name : String) :
    Touches ((SetArgument.copyGlobal name).Reaches command editor store.find?) store
      (copyGlobal editor name store).1 := by
  unfold copyGlobal
  cases resolved : store.resolve name with
  | error error => exact .refl
  | ok definition =>
      have found := resolve_eq_ok.mp resolved
      have full {other : OptionDef} (same : store.find? definition.name = some other) :
          other = definition :=
        Option.some.inj (same.symm.trans (find?_of_get? (named.get? found)))
      dsimp only [provided]
      split
      · exact .refl
      · rename_i kind
        refine unset_touches fun other same => ?_
        rw [full same]
        exact ⟨definition, found, by simp [kind], rfl⟩
      · rename_i kind
        split
        · refine (Call.set _).touches fun other same => ?_
          rw [full same, target_editor (by simp [kind])]
          exact ⟨definition, found, by simp [kind], rfl⟩
        · exact .refl

theorem runArgument_touches (named : store.Named) (argument : SetArgument) :
    Touches (argument.Reaches command editor store.find?) store
      (command.runArgument editor store argument).store := by
  cases argument with
  | showAll => exact .refl
  | resetAll => exact resetAll_touches store
  | query name => exact .refl
  | invert name => exact command.writing_touches editor .flip name
  | reset name => exact command.writing_touches editor .reset name
  | copyGlobal name => exact copyGlobal_touches command editor named name
  | assign name operation value =>
      exact command.writing_touches editor (.setText operation value) name
  | bare name =>
      simp only [runArgument]
      split
      · split
        · exact command.writing_touches editor (.turn true) name
        · exact .refl
      · split
        · exact command.writing_touches editor (.turn false) _
        · exact command.writing_touches editor .flip _
        · exact .refl

/-- The names mean the same all along, so the places are those that the arguments reach in
the store that the command starts with. -/
theorem runArguments_touches (named : store.Named) (arguments : List SetArgument) :
    Touches (fun place => ∃ argument ∈ arguments,
        argument.Reaches command editor store.find? place) store
      (command.runArguments editor store arguments).store := by
  induction arguments generalizing store with
  | nil => exact .refl
  | cons argument rest ih =>
      have first := runArgument_touches command editor named argument
      have begins : Touches (fun place => ∃ typed ∈ argument :: rest,
          typed.Reaches command editor store.find? place) store
          (command.runArgument editor store argument).store :=
        first.mono fun _ reached => ⟨argument, by simp, reached⟩
      simp only [runArguments]
      split
      · exact begins
      · have others := ih (first.same.named named)
        rw [first.same.find?] at others
        refine begins.trans (others.mono ?_)
        rintro place ⟨later, member, reached⟩
        exact ⟨later, by simp [member], reached⟩

theorem run_touches (named : store.Named) (text : String) :
    Touches (fun place => ∃ argument : SetArgument, argument.In text ∧
        argument.Reaches command editor store.find? place) store
      (command.run editor store text).store := by
  cases read : SetArgument.readAll text with
  | error error => simpa [run, read] using Relation.ReflTransGen.refl
  | ok arguments =>
      rw [run_of_read command editor read]
      split
      · exact .refl
      · refine (runArguments_touches command editor named arguments).mono ?_
        rintro place ⟨argument, member, reached⟩
        exact ⟨argument, ⟨arguments, read, member⟩, reached⟩

end SetCommand

/-! ## Every store that operations lead to -/

namespace OptionStore

/-- What holds of every store that operations lead to, whatever the defaults are. -/
structure Regular (store : OptionStore) : Prop where
  named : store.Named
  /-- An editor has values of its own for options alone that have such values. -/
  owned : ∀ editor name value, store.owned.get? (editor, name) = some value →
    ∃ definition, store.definitions.get? name = some definition ∧ definition.scope ≠ .shared
  /-- The listeners stand in the order in which they were registered, each once. -/
  listeners : store.listeners.Pairwise (·.id < ·.id)
  registered : ∀ listener ∈ store.listeners, listener.id < store.registered

theorem regular_empty : ({} : OptionStore).Regular where
  named := named_empty
  owned := by
    intro editor name value stored
    simp at stored
  listeners := .nil
  registered := by simp

section Regular

variable {store after : OptionStore}

theorem Regular.touch {place : Place} (regular : store.Regular) (touch : Touch store place after) :
    after.Regular where
  named := touch.same.named regular.named
  owned := by
    intro editor name value stored
    rw [touch.same.definitions]
    cases touch with
    | @write _ definition found scope written =>
        rw [get?_owned_write] at stored
        split at stored
        · rename_i here
          obtain ⟨owner, rfl⟩ : _ ∧ name = _ := here
          exact ⟨definition, regular.named.get? found, (owner?_eq_some.mp owner).2⟩
        · exact regular.owned editor name value stored
    | unset definition id =>
        rw [get?_owned_withoutOwn] at stored
        split at stored
        · cases stored
        · exact regular.owned editor name value stored
  listeners := by simpa only [touch.same.listeners] using regular.listeners
  registered := by
    simpa only [touch.same.listeners, touch.same.registered] using regular.registered

theorem Regular.touches {places : Place → Prop} (regular : store.Regular)
    (touches : Touches places store after) : after.Regular := by
  induction touches with
  | refl => exact regular
  | tail _ last ih =>
      obtain ⟨place, _, touch⟩ := last
      exact ih.touch touch

/-- The values that editors have of their own for an option that is defined anew are
gone, so nothing is left of them where the new option has none. -/
theorem Regular.define (regular : store.Regular) (definition : OptionDef) :
    (store.define definition).Regular where
  named := regular.named.define definition
  owned := by
    intro editor name value stored
    simp only [OptionStore.define, Directory.get?_filter, Option.filter_eq_some_iff,
      decide_eq_true_eq] at stored
    rw [get?_define, if_neg stored.2]
    exact regular.owned editor name value stored.1
  listeners := regular.listeners
  registered := regular.registered

/-- A new listener gets a number that none had before. -/
theorem Regular.listen (regular : store.Regular) (name : String) (localAware atOnce : Bool) :
    (store.listen name localAware atOnce).1.Regular := by
  refine listen_keeps.left regular fun after done => ?_
  obtain ⟨definition, _, rfl⟩ := provided_done.mp done
  refine ⟨regular.named, regular.owned, ?_, ?_⟩
  · refine List.pairwise_append.mpr ⟨regular.listeners, List.pairwise_singleton .., ?_⟩
    simpa using regular.registered
  · intro listener member
    rcases List.mem_append.mp member with before | new
    · exact Nat.lt_succ_of_lt (regular.registered listener before)
    · obtain rfl := List.mem_singleton.mp new
      exact Nat.lt_succ_self _

theorem Regular.unlisten (regular : store.Regular) (id : Nat) : (store.unlisten id).Regular where
  named := regular.named
  owned := regular.owned
  listeners := regular.listeners.filter _
  registered := fun listener member => regular.registered listener ((List.mem_filter.mp member).1)

/-- Whatever a call does, it touches one place at most. -/
theorem Regular.call (regular : store.Regular) (call : Call) (name : String)
    (scope : OptionScope) : (call.run store name scope).1.Regular := by
  have anywhere : Touches (fun _ => True) store (call.run store name scope).1 :=
    call.touches fun _ _ => trivial
  exact regular.touches anywhere

theorem Regular.run (regular : store.Regular) (operation : Operation) :
    (operation.run store).Regular := by
  cases operation with
  | define definition => exact regular.define definition
  | set name scope value => exact regular.call (.set value) name scope
  | setText name scope operation text => exact regular.call (.setText operation text) name scope
  | reset name scope => exact regular.call .reset name scope
  | resetAll => exact regular.touches (resetAll_touches store)
  | turn name scope on => exact regular.call (.turn on) name scope
  | flip name scope => exact regular.call .flip name scope
  | unset name editor =>
      have anywhere : Touches (fun _ => True) store (store.unset name editor).1 :=
        unset_touches fun _ _ => trivial
      exact regular.touches anywhere
  | line command editor arguments =>
      exact regular.touches (command.run_touches editor regular.named arguments)
  | listen name localAware atOnce => exact regular.listen name localAware atOnce
  | unlisten id => exact regular.unlisten id
  | deliver => exact ⟨regular.named, regular.owned, regular.listeners, regular.registered⟩

end Regular

/-- Every store that operations lead to from a regular one is regular. -/
theorem after_regular {store : OptionStore} (regular : store.Regular) (operations : List Operation) :
    (store.after operations).Regular := by
  induction operations generalizing store with
  | nil => exact regular
  | cons operation rest ih => exact ih (regular.run operation)

end OptionStore

end ModalInput
