/-
# ModalInput.Proofs.OptionWrites -- a successful write stores what its option accepts

`OptionDef.Accepts` says without the check what an option accepts: a value of its
kind, a number that is not negative where that is refused, a text whose tokens are
allowed and that the option's own check lets through.  Each way to write an option
is taken apart once: it succeeds exactly in the cases that its equation lists, and
then it is one `write`, or it takes an editor's own value away (`withoutOwn`); else it
leaves the store as it was (`Keeps`).

* `check_eq_ok` -- the check lets through what the option accepts.
* `set_eq_ok`, `setText_eq_ok`, `reset_eq_ok`, `turn_eq_ok`, `flip_eq_ok`,
  `unset_eq_ok` -- the ways to write.
* `Call.keeps`, `unset_keeps` -- a way to write that fails has done nothing.
* `get?_shared_write`, `get?_owned_write`, `valueAt_write` -- reading after a write.
-/
import ModalInput.Options.Store

namespace ModalInput

set_option autoImplicit false

/-- A computation that succeeds does so through its first part. -/
theorem bind_eq_ok {ε α β : Type} {first : Except ε α} {next : α → Except ε β} {b : β} :
    (first >>= next) = .ok b ↔ ∃ a, first = .ok a ∧ next a = .ok b := by
  cases first with
  | error e => simp [bind, Except.bind]
  | ok a => simp [bind, Except.bind]

theorem map_eq_ok {ε α β : Type} {first : Except ε α} {f : α → β} {b : β} :
    first.map f = .ok b ↔ ∃ a, first = .ok a ∧ f a = b := by
  cases first <;> simp [Except.map]

/-! ## What an option accepts -/

namespace OptionDef

/-- The values that an option may have.  An empty text has no tokens, and the
option's own check is not asked about it. -/
def Accepts (definition : OptionDef) (value : OptionValue) : Prop :=
  match definition.kind, value with
  | .toggle, .toggle _ => True
  | .number unsigned, .number n => unsigned = true → 0 ≤ n.toInt
  | .text _ bounded validator, .text s =>
      s = "" ∨
        (∀ tokens, bounded = some tokens → ∀ token ∈ definition.split s, token ∈ tokens) ∧
          ∀ validate, validator = some validate → validate s = .ok ()
  | _, _ => False

section Kinds

variable {definition : OptionDef} {value : OptionValue}

theorem Accepts.of_toggle (accepts : definition.Accepts value) (kind : definition.kind = .toggle) :
    ∃ on, value = .toggle on := by
  cases value <;> simp_all [Accepts]

theorem Accepts.of_number (accepts : definition.Accepts value) {unsigned : Bool}
    (kind : definition.kind = .number unsigned) :
    ∃ n, value = .number n ∧ (unsigned = true → 0 ≤ n.toInt) := by
  cases value <;> simp_all [Accepts]

theorem Accepts.of_text (accepts : definition.Accepts value) {list : Bool}
    {bounded : Option (List String)} {validator : Option (String → Except OptionError Unit)}
    (kind : definition.kind = .text list bounded validator) :
    ∃ s, value = .text s ∧ (s = "" ∨
      (∀ tokens, bounded = some tokens → ∀ token ∈ definition.split s, token ∈ tokens) ∧
        ∀ validate, validator = some validate → validate s = .ok ()) := by
  cases value <;> simp_all [Accepts]

theorem accepts_toggle (kind : definition.kind = .toggle) (on : Bool) :
    definition.Accepts (.toggle on) := by
  simp [Accepts, kind]

end Kinds

/-- The check lets through what the option accepts; the text for the error plays no
part. -/
theorem check_eq_ok {definition : OptionDef} {value : OptionValue} {shown : String} :
    definition.check value shown = .ok () ↔ definition.Accepts value := by
  unfold check Accepts
  cases kind : definition.kind with
  | toggle => cases value <;> simp
  | number unsigned => cases value <;> cases unsigned <;> simp [Int64.lt_iff_toInt_lt]
  | text list bounded validator =>
      cases value with
      | number n => simp
      | toggle on => simp
      | text s =>
          by_cases empty : s = ""
          · simp [empty]
          · cases bounded with
            | none => cases validator <;> simp [empty]
            | some tokens =>
                have allowed : (∀ token ∈ definition.split s, token ∈ tokens) ↔
                    ¬ ∃ token ∈ definition.split s, token ∉ tokens := by simp
                cases validator with
                | none => simp [empty]
                | some validate =>
                    by_cases strange : ∃ token ∈ definition.split s, token ∉ tokens <;>
                      simp [empty, allowed, strange]

end OptionDef

namespace OptionStore

/-! ## Reading after a write -/

section Reading

variable {store : OptionStore} {name : String} {definition : OptionDef}

theorem resolve_eq_ok : store.resolve name = .ok definition ↔ store.find? name = some definition := by
  unfold resolve
  cases store.find? name <;> simp

theorem find?_of_get? (found : store.definitions.get? name = some definition) :
    store.find? name = some definition := by
  simp [find?, found]

/-- A short name leads to a full one. -/
theorem exists_get? (found : store.find? name = some definition) :
    ∃ full, store.definitions.get? full = some definition := by
  unfold find? at found
  cases full : store.definitions.get? name with
  | some own => exact ⟨name, by simpa [full] using found⟩
  | none =>
      simp only [full, Option.none_or, Option.bind_eq_some_iff] at found
      obtain ⟨full, _, found⟩ := found
      exact ⟨full, found⟩

variable (store) (definition) (scope : OptionScope) (value : OptionValue)

@[simp] theorem definitions_write :
    (store.write definition scope value).definitions = store.definitions := by
  unfold write
  cases owner? definition scope <;> rfl

@[simp] theorem shortNames_write :
    (store.write definition scope value).shortNames = store.shortNames := by
  unfold write
  cases owner? definition scope <;> rfl

theorem get?_shared_write (key : String) :
    (store.write definition scope value).shared.get? key =
      if owner? definition scope = none ∧ key = definition.name then some value
      else store.shared.get? key := by
  unfold write
  cases owner? definition scope <;> simp [notify, Directory.get?_insert]

theorem get?_owned_write (key : EditorId × String) :
    (store.write definition scope value).owned.get? key =
      if owner? definition scope = some key.1 ∧ key.2 = definition.name then some value
      else store.owned.get? key := by
  unfold write
  cases owner? definition scope with
  | none => simp [notify]
  | some id =>
      simp only [notify, Directory.get?_insert, Option.some.injEq, Prod.ext_iff, eq_comm (a := id)]

/-- What was written is read in the same scope. -/
theorem valueAt_write :
    (store.write definition scope value).valueAt definition scope = value := by
  unfold valueAt sharedValue
  cases owned : owner? definition scope <;> simp [get?_shared_write, get?_owned_write, owned]

end Reading

/-! ## Taking an editor's own value away -/

/-- The store without an editor's own value; the listeners are told if there was
one. -/
def withoutOwn (store : OptionStore) (definition : OptionDef) (editor : EditorId) : OptionStore :=
  match store.owned.get? (editor, definition.name) with
  | some old =>
      ({ store with owned := store.owned.erase (editor, definition.name) }).notify
        definition.name old (store.sharedValue definition) (.editor editor)
  | none => store

section WithoutOwn

variable (store : OptionStore) (definition : OptionDef) (editor : EditorId)

@[simp] theorem definitions_withoutOwn :
    (store.withoutOwn definition editor).definitions = store.definitions := by
  unfold withoutOwn
  split <;> rfl

@[simp] theorem shortNames_withoutOwn :
    (store.withoutOwn definition editor).shortNames = store.shortNames := by
  unfold withoutOwn
  split <;> rfl

@[simp] theorem shared_withoutOwn :
    (store.withoutOwn definition editor).shared = store.shared := by
  unfold withoutOwn
  split <;> rfl

theorem get?_owned_withoutOwn (key : EditorId × String) :
    (store.withoutOwn definition editor).owned.get? key =
      if key = (editor, definition.name) then none else store.owned.get? key := by
  unfold withoutOwn
  split
  · simp [notify, Directory.get?_erase]
  · rename_i absent
    by_cases same : key = (editor, definition.name) <;> simp [same, absent]

end WithoutOwn

/-! ## Changes that can fail -/

/-- A failure leaves the store as it was: its values, and what the listeners were told. -/
def Keeps (store : OptionStore) (outcome : OptionStore × Except OptionError Unit) : Prop :=
  ∀ error, outcome.2 = .error error → outcome.1 = store

section Changes

variable {store after : OptionStore} {outcome : OptionStore × Except OptionError Unit}

theorem keeps_done (store after : OptionStore) : Keeps store (after, .ok ()) := by
  intro error failed
  cases failed

theorem keeps_failed (store : OptionStore) (error : OptionError) :
    Keeps store (store, .error error) :=
  fun _ _ => rfl

/-- What is true of a store and of all that a success leaves is true of what is left. -/
theorem Keeps.left {P : OptionStore → Prop} (keeps : Keeps store outcome) (same : P store)
    (done : ∀ after, outcome = (after, .ok ()) → P after) : P outcome.1 := by
  obtain ⟨after, result⟩ := outcome
  cases result with
  | ok => exact done after rfl
  | error error =>
      rw [keeps error rfl]
      exact same

section Provided

variable {α : Type} {found : Except OptionError α}
  {next : α → OptionStore × Except OptionError Unit}

theorem provided_eq_ok :
    store.provided found next = (after, .ok ()) ↔ ∃ a, found = .ok a ∧ next a = (after, .ok ()) := by
  cases found <;> simp [provided]

/-- What was found out is all that can fail. -/
theorem provided_done {f : α → OptionStore} :
    store.provided found (fun a => (f a, .ok ())) = (after, .ok ()) ↔
      ∃ a, found = .ok a ∧ after = f a := by
  simp only [provided_eq_ok, Prod.mk.injEq, and_true, eq_comm (a := after)]

theorem Keeps.provided (next_keeps : ∀ a, Keeps store (next a)) :
    Keeps store (store.provided found next) := by
  cases found with
  | ok a => exact next_keeps a
  | error error => exact keeps_failed store error

end Provided

end Changes

/-! ## The ways to write -/

section Writing

variable {store after : OptionStore} {name : String} {scope : OptionScope}

theorem set_eq_ok {value : OptionValue} :
    store.set name scope value = (after, .ok ()) ↔
      ∃ definition, store.find? name = some definition ∧ definition.Accepts value ∧
        after = store.write definition scope value := by
  rw [set, provided_eq_ok]
  simp only [provided_done, resolve_eq_ok]
  constructor
  · rintro ⟨definition, found, ⟨⟩, checked, rfl⟩
    exact ⟨definition, found, OptionDef.check_eq_ok.mp checked, rfl⟩
  · rintro ⟨definition, found, accepts, rfl⟩
    exact ⟨definition, found, (), OptionDef.check_eq_ok.mpr accepts, rfl⟩

/-- Assigned to a value of its own kind, an operand takes its place. -/
theorem combine?_assign {definition : OptionDef} {current operand new : OptionValue}
    (combined : definition.combine? .assign current operand = some new) : new = operand := by
  cases current <;> cases operand <;>
    simp_all [OptionDef.combine?, OptionValue.combine?, TextOption.combine, OptionNumber.combine]

/-- What is typed has to be accepted by itself, and so does what it gives with the
current value. -/
theorem setText_eq_ok {operation : SetOperation} {text : String} :
    store.setText name scope operation text = (after, .ok ()) ↔
      ∃ definition operand new, store.find? name = some definition ∧
        definition.read text (name ++ operation.symbol ++ text) = .ok operand ∧
        definition.Accepts operand ∧
        definition.combine? operation (store.valueAt definition scope) operand = some new ∧
        definition.Accepts new ∧ after = store.write definition scope new := by
  simp only [setText, provided_eq_ok, resolve_eq_ok]
  constructor
  · rintro ⟨definition, found, operand, read, ⟨⟩, checked, finished⟩
    have accepts := OptionDef.check_eq_ok.mp checked
    cases combined : definition.combine? operation (store.valueAt definition scope) operand with
    | none => simp [combined] at finished
    | some new =>
        simp only [combined, provided_done] at finished
        obtain ⟨⟨⟩, checked, rfl⟩ := finished
        refine ⟨definition, operand, new, found, read, accepts, combined, ?_, rfl⟩
        by_cases assigned : operation = .assign
        · subst assigned
          exact combine?_assign combined ▸ accepts
        · rw [if_pos assigned] at checked
          exact OptionDef.check_eq_ok.mp checked
  · rintro ⟨definition, operand, new, found, read, accepts, combined, accepted, rfl⟩
    refine ⟨definition, found, operand, read, (), OptionDef.check_eq_ok.mpr accepts, ?_⟩
    simp only [combined]
    refine provided_done.mpr ⟨(), ?_, rfl⟩
    split
    · exact OptionDef.check_eq_ok.mpr accepted
    · rfl

theorem reset_eq_ok :
    store.reset name scope = (after, .ok ()) ↔
      ∃ definition, store.find? name = some definition ∧
        after = store.write definition scope definition.default := by
  simp only [reset, provided_done, resolve_eq_ok]

theorem resolveToggle_eq_ok {definition : OptionDef} :
    store.resolveToggle name = .ok definition ↔
      store.find? name = some definition ∧ definition.kind = .toggle := by
  have isToggle (definition : OptionDef) : definition.isToggle = true ↔ definition.kind = .toggle := by
    unfold OptionDef.isToggle
    cases definition.kind <;> simp
  simp only [resolveToggle, bind_eq_ok, resolve_eq_ok]
  constructor
  · rintro ⟨named, found, kept⟩
    split at kept
    · rename_i toggles
      cases kept
      exact ⟨found, (isToggle definition).mp toggles⟩
    · cases kept
  · rintro ⟨found, kind⟩
    exact ⟨definition, found, by simp [(isToggle definition).mpr kind, pure, Except.pure]⟩

theorem turn_eq_ok {on : Bool} :
    store.turn name scope on = (after, .ok ()) ↔
      ∃ definition, (store.find? name = some definition ∧ definition.kind = .toggle) ∧
        after = store.write definition scope (.toggle on) := by
  simp only [turn, provided_done, resolveToggle_eq_ok]

theorem flip_eq_ok :
    store.flip name scope = (after, .ok ()) ↔
      ∃ definition, (store.find? name = some definition ∧ definition.kind = .toggle) ∧
        after = store.write definition scope
          (.toggle !((store.valueAt definition scope).toggle?.getD false)) := by
  simp only [flip, provided_done, resolveToggle_eq_ok]

theorem unset_eq (store : OptionStore) (name : String) (editor : EditorId) :
    store.unset name editor = store.provided (store.resolve name) fun definition =>
      (store.withoutOwn definition editor, .ok ()) := by
  unfold unset withoutOwn
  congr 1
  funext definition
  cases store.owned.get? (editor, definition.name) <;> rfl

theorem unset_keeps (editor : EditorId) : Keeps store (store.unset name editor) := by
  rw [unset_eq]
  exact .provided fun _ => keeps_done _ _

theorem unset_eq_ok {editor : EditorId} :
    store.unset name editor = (after, .ok ()) ↔
      ∃ definition, store.find? name = some definition ∧
        after = store.withoutOwn definition editor := by
  rw [unset_eq, provided_done]
  simp only [resolve_eq_ok]

theorem listen_keeps {localAware atOnce : Bool} :
    Keeps store (store.listen name localAware atOnce) :=
  .provided fun _ => keeps_done _ _

/-- A call that writes an option, but for its name and its scope. -/
inductive Call where
  | set (value : OptionValue)
  | setText (operation : SetOperation) (text : String)
  | reset
  | turn (on : Bool)
  | flip

namespace Call

def run (call : Call) (store : OptionStore) (name : String) (scope : OptionScope) :
    OptionStore × Except OptionError Unit :=
  match call with
  | .set value => store.set name scope value
  | .setText operation text => store.setText name scope operation text
  | .reset => store.reset name scope
  | .turn on => store.turn name scope on
  | .flip => store.flip name scope

/-- Every check comes before the write. -/
theorem keeps (call : Call) : Keeps store (call.run store name scope) := by
  cases call with
  | set value => exact .provided fun _ => .provided fun _ => keeps_done _ _
  | setText operation text =>
      refine .provided fun definition => .provided fun operand => .provided fun _ => ?_
      split
      · exact keeps_failed _ _
      · exact .provided fun _ => keeps_done _ _
  | reset => exact .provided fun _ => keeps_done _ _
  | turn on => exact .provided fun _ => keeps_done _ _
  | flip => exact .provided fun _ => keeps_done _ _

/-- The value that a call stores in place of the current one. -/
def value? (call : Call) (option : OptionDef) (current : OptionValue) : Option OptionValue :=
  match call with
  | .set value => some value
  | .setText operation text =>
      (option.read text text).toOption.bind (option.combine? operation current)
  | .reset => some option.default
  | .turn on => some (.toggle on)
  | .flip => some (.toggle !(current.toggle?.getD false))

/-- The text that an error would show plays no part in the value that is read. -/
theorem toOption_read {option : OptionDef} {text shown : String} {value : OptionValue}
    (read : option.read text shown = .ok value) :
    (option.read text text).toOption = some value := by
  unfold OptionDef.read at read ⊢
  cases kind : option.kind with
  | toggle => simp [kind] at read
  | text list bounded validator =>
      simp only [kind, Except.ok.injEq] at read ⊢
      rw [read]
      rfl
  | number unsigned =>
      cases number : OptionNumber.read? text.toList with
      | none => simp [kind, number] at read
      | some n =>
          simp only [kind, number, Except.ok.injEq] at read ⊢
          rw [read]
          rfl

/-- A call that succeeds is one write. -/
theorem run_stores {call : Call} (done : call.run store name scope = (after, .ok ())) :
    ∃ option value, store.find? name = some option ∧
      call.value? option (store.valueAt option scope) = some value ∧
        after = store.write option scope value := by
  cases call with
  | set value =>
      obtain ⟨option, found, _, same⟩ := set_eq_ok.mp done
      exact ⟨option, _, found, rfl, same⟩
  | setText operation text =>
      obtain ⟨option, operand, new, found, read, _, combined, _, same⟩ := setText_eq_ok.mp done
      refine ⟨option, new, found, ?_, same⟩
      rw [value?, toOption_read read, Option.bind_some]
      exact combined
  | reset =>
      obtain ⟨option, found, same⟩ := reset_eq_ok.mp done
      exact ⟨option, _, found, rfl, same⟩
  | turn on =>
      obtain ⟨option, ⟨found, _⟩, same⟩ := turn_eq_ok.mp done
      exact ⟨option, _, found, rfl, same⟩
  | flip =>
      obtain ⟨option, ⟨found, _⟩, same⟩ := flip_eq_ok.mp done
      exact ⟨option, _, found, rfl, same⟩

end Call

end Writing

end OptionStore

end ModalInput
