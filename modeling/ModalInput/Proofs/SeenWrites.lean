/-
# ModalInput.Proofs.SeenWrites -- what a write changes of what is seen

What a scope sees of an option is in one of two places: the value that an editor has of its
own, or else the shared one.  A write changes one place, so it is seen from the scope that
it was made for, and if it is the shared value that was written, also by the editors that
have none of their own.  Nothing else is seen to change, of this option or of others, by
whatever name they are read (`writes_addressed`).

An option that all editors share has one place only.  That no editor has a value of its own
for such an option, not even from the time before it was defined anew, is what holds of
every store that operations lead to (`Regular`).

* `Call.value?` -- the value that a call stores; `Write` -- the calls and `unset`.
* `Touch.valueAt` -- the scopes that see the change of a place.
* `writes_addressed` -- the ways to write, in every store that operations lead to.
-/
import ModalInput.Proofs.RelativeArguments
import ModalInput.Proofs.ToldWrites

namespace ModalInput

set_option autoImplicit false

namespace OptionStore

/-! ## What a scope sees -/

section Seen

variable {store after : OptionStore} (definition : OptionDef) {scope : OptionScope}

/-- The change of a place is seen from the scopes that the place is for, and if it is the
shared one, by the editors that have nothing in their own. -/
theorem Touch.valueAt {place : Place} (touch : Touch store place after) (scope : OptionScope) :
    after.valueAt definition scope = store.valueAt definition scope ∨
      place = target definition scope ∨
      place = .shared definition.name ∧ ∃ editor, owner? definition scope = some editor ∧
        store.stored? (.own editor definition.name) = none := by
  by_cases aimed : place = target definition scope
  · exact .inr (.inl aimed)
  · unfold target at aimed
    cases owner : owner? definition scope with
    | none =>
        rw [owner] at aimed
        refine .inl ?_
        rw [valueAt_of_unowned _ _ owner, valueAt_of_unowned _ _ owner,
          touch.stored? (Ne.symm aimed)]
    | some editor =>
        rw [owner] at aimed
        rw [valueAt_of_owned _ _ owner, valueAt_of_owned _ _ owner,
          touch.stored? (Ne.symm aimed)]
        by_cases shared : place = .shared definition.name
        · cases own : store.stored? (.own editor definition.name) with
          | none => exact .inr (.inr ⟨shared, editor, rfl, own⟩)
          | some value => exact .inl rfl
        · exact .inl (by rw [touch.stored? (Ne.symm shared)])

end Seen

/-! ## The ways to write -/

/-- A way to write an option. -/
inductive Write where
  | of (call : Call) (name : String) (scope : OptionScope)
  /-- An editor's own value is taken away. -/
  | unset (name : String) (editor : EditorId)

namespace Write

def name : Write → String
  | of _ name _ | unset name _ => name

def scope : Write → OptionScope
  | of _ _ scope => scope
  | unset _ editor => .editor editor

def run (write : Write) : Change := fun store =>
  match write with
  | of call name scope => call.run store name scope
  | unset name editor => store.unset name editor

/-- The value that is stored in place of the current one; none where one is taken away. -/
def value? (write : Write) (option : OptionDef) (current : OptionValue) : Option OptionValue :=
  match write with
  | of call _ _ => call.value? option current
  | unset _ _ => none

/-- The scope whose value is written: an option that all editors share has one value. -/
def addressed (write : Write) (option : OptionDef) : OptionScope :=
  if option.scope = .shared then .everywhere else write.scope

/-- What a write that succeeds does. -/
inductive Done (store : OptionStore) : Write → OptionStore → Prop where
  | stores {call : Call} {name : String} {scope : OptionScope} {option : OptionDef}
      (found : store.find? name = some option) {value : OptionValue}
      (new : call.value? option (store.valueAt option scope) = some value) :
      Done store (.of call name scope) (store.write option scope value)
  | unsets {name : String} {option : OptionDef} (found : store.find? name = some option)
      (editor : EditorId) : Done store (.unset name editor) (store.withoutOwn option editor)

/-- A write that fails leaves the store as it was. -/
theorem keeps (write : Write) (store : OptionStore) : Keeps store (write.run store) := by
  cases write with
  | of call name scope => exact call.keeps
  | unset name editor => exact unset_keeps editor

theorem done {store after : OptionStore} {write : Write}
    (succeeds : write.run store = (after, .ok ())) : Done store write after := by
  cases write with
  | of call name scope =>
      obtain ⟨option, value, found, new, rfl⟩ := Call.run_stores succeeds
      exact .stores found new
  | unset name editor =>
      obtain ⟨option, found, rfl⟩ := unset_eq_ok.mp succeeds
      exact .unsets found editor

end Write

/-! ## What a write changes -/

section Regular

variable {store : OptionStore} (regular : store.Regular)
include regular

/-- No editor has a value of its own for an option that all editors share. -/
theorem Regular.owns_nothing {option : OptionDef} {name : String}
    (found : store.find? name = some option) (shared : option.scope = .shared)
    (editor : EditorId) : store.owned.get? (editor, option.name) = none := by
  cases own : store.owned.get? (editor, option.name) with
  | none => rfl
  | some value =>
      obtain ⟨other, defined, owns⟩ := regular.owned editor option.name value own
      rw [regular.named.get? found, Option.some.injEq] at defined
      exact absurd (defined ▸ shared) owns

/-- Options that are found under some names are the same if their full names are. -/
theorem Regular.eq_of_name {name other : String} {option option' : OptionDef}
    (found : store.find? name = some option) (found' : store.find? other = some option')
    (same : option'.name = option.name) : option' = option := by
  have full := regular.named.get? found'
  rw [same, regular.named.get? found] at full
  exact (Option.some.inj full).symm

/-- A write that succeeds leaves the store alone, or touches the place that it is for. -/
theorem Regular.touched {write : Write} {after : OptionStore} (done : write.Done store after) :
    ∃ option, store.find? write.name = some option ∧
      (after = store ∨ Touch store (target option write.scope) after) := by
  cases done with
  | stores found new => exact ⟨_, found, .inr (.write found _ _)⟩
  | @unsets name option found editor =>
      refine ⟨option, found, ?_⟩
      by_cases shared : option.scope = .shared
      · refine .inl ?_
        rw [withoutOwn, regular.owns_nothing found shared]
      · refine .inr ?_
        rw [Write.scope, target_editor shared]
        exact .unset option editor

end Regular

theorem hasOwn_eq_false {store : OptionStore} {name : String} {option : OptionDef}
    (found : store.find? name = some option) {editor : EditorId}
    (nothing : store.owned.get? (editor, option.name) = none) :
    store.hasOwn name editor = false := by
  simp [hasOwn, found, Directory.contains, nothing]

/-- An option that is not shared has a place for each scope. -/
theorem target_injective {option : OptionDef} (kind : option.scope ≠ .shared)
    {scope scope' : OptionScope} (same : target option scope = target option scope') :
    scope = scope' := by
  cases scope <;> cases scope' <;> simp_all [target_editor kind]

namespace Write

variable {store after : OptionStore} {write : Write} {option : OptionDef} {scope : OptionScope}

/-- The place is for the scope whose value was written; all scopes share one value where
editors have none of their own. -/
theorem addressed_of_target (aimed : target option write.scope = target option scope) :
    scope = write.addressed option ∨
      write.addressed option = .everywhere ∧ option.scope = .shared ∧
        ∃ editor, scope = .editor editor := by
  unfold addressed
  by_cases shared : option.scope = .shared
  · rw [if_pos shared]
    cases scope with
    | everywhere => exact .inl rfl
    | editor id => exact .inr ⟨rfl, shared, id, rfl⟩
  · rw [if_neg shared]
    exact .inl (target_injective shared aimed).symm

/-- What is shared is the place of a write for all scopes. -/
theorem addressed_everywhere {name : String} (aimed : target option write.scope = .shared name) :
    write.addressed option = .everywhere := by
  unfold addressed
  by_cases shared : option.scope = .shared
  · exact if_pos shared
  · rw [if_neg shared]
    cases aim : write.scope with
    | everywhere => rfl
    | editor id =>
        rw [aim, target_editor shared] at aimed
        cases aimed

/-- A write is seen where it was made for, or what is shared was written and an editor has
nothing of its own. -/
theorem Done.frame (regular : store.Regular) (done : write.Done store after) (name : String)
    (scope : OptionScope) :
    after.get name scope = store.get name scope ∨
      ∃ option, store.find? write.name = some option ∧ store.find? name = some option ∧
        (scope = write.addressed option ∨
          write.addressed option = .everywhere ∧
            ∃ editor, scope = .editor editor ∧ store.hasOwn name editor = false) := by
  obtain ⟨option, found, rfl | touch⟩ := regular.touched done
  · exact .inl rfl
  cases known : store.find? name with
  | none =>
      refine .inl ?_
      simp only [OptionStore.get, resolve, touch.same.find?, known]
      rfl
  | some other =>
      have known' : after.find? name = some other := by rw [touch.same.find?, known]
      rw [get_of_find? known, get_of_find? known']
      have named : target option write.scope = target other scope ∨
          target option write.scope = .shared other.name → other.name = option.name := by
        unfold target
        cases owner? option write.scope <;> cases owner? other scope <;> simp_all
      rcases touch.valueAt other scope with same | aimed | ⟨shared, editor, owner, nothing⟩
      · exact .inl (by rw [same])
      · obtain rfl := regular.eq_of_name found known (named (.inl aimed))
        refine .inr ⟨other, found, rfl, (addressed_of_target aimed).imp_right ?_⟩
        rintro ⟨everywhere, shared, editor, rfl⟩
        exact ⟨everywhere, editor, rfl,
          hasOwn_eq_false known (regular.owns_nothing known shared editor)⟩
      · obtain rfl := regular.eq_of_name found known (named (.inr shared))
        exact .inr ⟨other, found, rfl, .inr ⟨addressed_everywhere shared, editor,
          (owner?_eq_some.mp owner).1, hasOwn_eq_false known nothing⟩⟩

/-- What was stored is read in the scope that it was stored for, and in all of them if there
is one value for all; where one was taken away, the shared one is read. -/
theorem Done.reads (done : write.Done store after) (found : store.find? write.name = some option)
    {name : String} (known : store.find? name = some option) :
    (∃ value, write.value? option (store.valueAt option write.scope) = some value ∧
        ∀ scope, scope = write.scope ∨ option.scope = .shared → after.get name scope = .ok value) ∨
      ∃ editor, write = .unset write.name editor ∧
        after.get name (.editor editor) = store.get name .everywhere := by
  cases done with
  | @stores call _ aim other found' value new =>
      obtain rfl := Option.some.inj (found.symm.trans found')
      refine .inl ⟨value, new, ?_⟩
      intro scope reads
      have known' : (store.write option aim value).find? name = some option := by
        simpa [find?] using known
      rw [get_of_find? known']
      rcases reads with rfl | shared
      · exact congrArg Except.ok (valueAt_write ..)
      · rw [valueAt_of_shared _ shared, ← valueAt_of_shared _ shared aim, valueAt_write]
  | @unsets _ other found' editor =>
      obtain rfl := Option.some.inj (found.symm.trans found')
      refine .inr ⟨editor, rfl, ?_⟩
      have known' : (store.withoutOwn option editor).find? name = some option := by
        simpa [find?] using known
      rw [get_of_find? known', get_of_find? known, valueAt_withoutOwn]

end Write

/-- In every store that operations lead to, a write that succeeds or fails changes what is read
of its option in the scope that it is for, or, where what is shared is written, also for
editors without a value of their own, and nothing else.  An option with one value for all is
the same for all afterwards, and what was stored is read back. -/
theorem writes_addressed (operations : List Operation) (write : Write) :
    let store := ({} : OptionStore).after operations
    let after := (write.run store).1
    (∀ name scope, after.get name scope = store.get name scope ∨
      ∃ option, store.find? write.name = some option ∧ store.find? name = some option ∧
        (scope = write.addressed option ∨
          write.addressed option = .everywhere ∧
            ∃ editor, scope = .editor editor ∧ store.hasOwn name editor = false)) ∧
    (∀ name option, store.find? name = some option → option.scope = .shared →
      ∀ scope scope', after.get name scope = after.get name scope') ∧
    ∀ next, write.run store = (next, .ok ()) → ∃ option, store.find? write.name = some option ∧
      ∀ name, store.find? name = some option →
        (∃ value, write.value? option (store.valueAt option write.scope) = some value ∧
            ∀ scope, scope = write.scope ∨ option.scope = .shared →
              next.get name scope = .ok value) ∨
          ∃ editor, write = .unset write.name editor ∧
            next.get name (.editor editor) = store.get name .everywhere := by
  intro store after
  have regular : store.Regular := after_regular regular_empty operations
  refine ⟨?_, ?_, ?_⟩
  · intro name scope
    exact (write.keeps store).left (.inl rfl) fun next succeeds =>
      (Write.done succeeds).frame regular name scope
  · intro name option known shared scope scope'
    have known' : after.find? name = some option := by
      refine (write.keeps store).left (P := fun left => left.find? name = some option) known
        fun next succeeds => ?_
      obtain ⟨_, _, rfl | touch⟩ := regular.touched (Write.done succeeds)
      · exact known
      · rw [touch.same.find?]
        exact known
    rw [get_of_find? known', get_of_find? known', valueAt_of_shared _ shared,
      valueAt_of_shared _ shared scope']
  · intro next succeeds
    have done := Write.done succeeds
    obtain ⟨option, found, _⟩ := regular.touched done
    exact ⟨option, found, fun name known => done.reads found known⟩

/-- An option of each editor, of which one editor has a value of its own, and one that all
editors share. -/
def indenting : List Operation :=
  [.define ((OptionDef.ofUnsigned "shiftwidth" "sw" 8).withScope .perEditor),
    .define (.ofToggle "timeout" "to" true), .set "sw" (.editor ⟨1⟩) (.number 4)]

/-- What is shared is written: the editor with a value of its own keeps it, and another sees
the new one, as a write of the other option does not change. -/
theorem indenting_addressed :
    let store := ({} : OptionStore).after indenting
    let shares : Write := .of (.set (.number 2)) "sw" .everywhere
    let turns : Write := .of (.turn false) "to" (.editor ⟨1⟩)
    let after := (shares.run store).1
    let turned := (turns.run store).1
    (after.get "sw" (.editor ⟨1⟩) = store.get "sw" (.editor ⟨1⟩) ∧
      after.get "shiftwidth" .everywhere = .ok (.number 2)) ∧
    turned.get "sw" (.editor ⟨2⟩) = store.get "sw" (.editor ⟨2⟩) ∧
      turned.get "timeout" (.editor ⟨2⟩) = turned.get "timeout" .everywhere := by
  intro store shares turns after turned
  obtain ⟨frame, _, reads⟩ := writes_addressed indenting shares
  obtain ⟨frame', same, _⟩ := writes_addressed indenting turns
  refine ⟨⟨?_, ?_⟩, ?_, ?_⟩
  · rcases frame "sw" (.editor ⟨1⟩) with same | ⟨option, found, _, aimed | ⟨_, editor, here, none⟩⟩
    · exact same
    · cases found
      cases aimed
    · cases here
      cases none
  · obtain ⟨option, found, stored⟩ := reads after rfl
    rcases stored "shiftwidth" found with ⟨value, new, read⟩ | ⟨editor, unset, _⟩
    · cases new
      exact read .everywhere (.inl rfl)
    · exact absurd unset (by simp [shares])
  · rcases frame' "sw" (.editor ⟨2⟩) with same | ⟨option, found, other, _⟩
    · exact same
    · cases found
      have names := congrArg (Option.map OptionDef.name) other
      exact absurd names (by decide)
  · exact same "timeout" (.ofToggle "timeout" "to" true) rfl rfl _ _

end OptionStore

end ModalInput
