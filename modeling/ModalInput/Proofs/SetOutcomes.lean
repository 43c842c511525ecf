/-
# ModalInput.Proofs.SetOutcomes -- an argument that fails changes nothing

An argument of an option command can write twice: an editor's value and then the
shared one, or the shared one before an editor's own is taken away.  A failure of the
second write would leave the first behind.  It cannot happen: the value that was just
written is read again and is accepted, and the name is still known.  So an argument
fails before it has done anything, or it succeeds (`Ends`), and a command is its
arguments in order up to the first failure.

* `runArgument_ends` -- how one argument can end.
* `Applies` -- arguments that all succeed, one after the other.
* `run_stops` -- a whole command; `run_edits` -- what it leaves is a few edits away.
-/
import ModalInput.Options.SetCommand
import ModalInput.Proofs.ValidOptions

namespace ModalInput

set_option autoImplicit false

namespace OptionStore

variable {store after : OptionStore} {name : String}

/-- A value that an editor was just given can be read and shared. -/
theorem Written.shared {editor : EditorId} (written : Written store name (.editor editor) after) :
    ∃ last, SetCommand.share editor name after = (last, .ok ()) ∧ Edits after last := by
  cases written with
  | @intro definition found value accepts =>
      let after := store.write definition (.editor editor) value
      have edit : Edit store after := .write found (.editor editor) accepts
      have known : after.find? name = some definition := (edit.find? name).trans found
      have seen : after.get name (.editor editor) = .ok value := by
        rw [get, resolve_eq_ok.mpr known]
        exact congrArg Except.ok (valueAt_write ..)
      have stored : after.set name .everywhere value =
          (after.write definition .everywhere value, .ok ()) :=
        set_eq_ok.mpr ⟨definition, known, accepts, rfl⟩
      exact ⟨_, provided_eq_ok.mpr ⟨value, seen, stored⟩, .single (.write known .everywhere accepts)⟩

/-- An editor's own value can be taken away after any write. -/
theorem Written.unset {scope : OptionScope} (written : Written store name scope after)
    (editor : EditorId) : ∃ last, after.unset name editor = (last, .ok ()) ∧ Edits after last := by
  cases written with
  | @intro definition found value accepts =>
      let after := store.write definition scope value
      have known : after.find? name = some definition :=
        ((Edit.write found scope accepts).find? name).trans found
      have taken : after.unset name editor = (after.withoutOwn definition editor, .ok ()) :=
        unset_eq_ok.mpr ⟨definition, known, rfl⟩
      exact ⟨_, taken, .single (unset_edit taken)⟩

end OptionStore

namespace SetCommand

open OptionStore

/-! ## One change after another -/

section Order

variable {store after : OptionStore} {first second : Change}

theorem andThen_of_ok {between : OptionStore} (done : first store = (between, .ok ())) :
    andThen first second store = second between := by
  simp only [andThen, done]

theorem andThen_of_error {between : OptionStore} {error : OptionError}
    (failed : first store = (between, .error error)) :
    andThen first second store = (between, .error error) := by
  simp only [andThen, failed]

theorem andThen_eq_ok :
    andThen first second store = (after, .ok ()) ↔
      ∃ between, first store = (between, .ok ()) ∧ second between = (after, .ok ()) := by
  cases ended : first store with
  | mk between result =>
      cases result with
      | error error => simp [andThen_of_error ended]
      | ok => simp [andThen_of_ok ended]

/-- What a failure of the first change leaves is left, or what the second one leaves. -/
theorem andThen_left {P : OptionStore → Prop} (fails : P (first store).1)
    (goesOn : ∀ between, first store = (between, .ok ()) → P (second between).1) :
    P (andThen first second store).1 := by
  cases ended : first store with
  | mk between result =>
      cases result with
      | error error =>
          rw [andThen_of_error ended]
          simpa [ended] using fails
      | ok =>
          rw [andThen_of_ok ended]
          exact goesOn between ended

end Order

theorem share_keeps (editor : EditorId) (name : String) (store : OptionStore) :
    Keeps store (share editor name store) :=
  .provided fun value => (Call.set value).keeps

theorem copyGlobal_keeps (editor : EditorId) (name : String) (store : OptionStore) :
    Keeps store (copyGlobal editor name store) := by
  refine .provided fun definition => ?_
  split
  · exact keeps_done _ _
  · exact unset_keeps editor
  · exact .provided fun value => (Call.set value).keeps

/-! ## One write, in the scopes of a command -/

/-- A change fails and leaves the store as it was, or it succeeds with some edits. -/
inductive Changes (store : OptionStore) : OptionStore × Except OptionError Unit → Prop where
  | failed (error : OptionError) : Changes store (store, .error error)
  | done {after : OptionStore} (edits : Edits store after) : Changes store (after, .ok ())

theorem changes_of_keeps {store : OptionStore}
    {outcome : OptionStore × Except OptionError Unit} (keeps : Keeps store outcome)
    (edits : ∀ after, outcome = (after, .ok ()) → Edits store after) : Changes store outcome := by
  obtain ⟨after, result⟩ := outcome
  cases result with
  | error error =>
      obtain rfl : after = store := keeps error rfl
      exact .failed error
  | ok => exact .done (edits after rfl)

/-- A change with a second one behind it that cannot fail. -/
theorem andThen_changes {store : OptionStore} {first second : Change}
    (keeps : Keeps store (first store))
    (begins : ∀ after, first store = (after, .ok ()) → Edits store after ∧
      ∃ last, second after = (last, .ok ()) ∧ Edits after last) :
    Changes store (andThen first second store) := by
  cases ended : first store with
  | mk between result =>
      cases result with
      | error error =>
          obtain rfl : between = store := by simpa [ended] using keeps error (by rw [ended])
          rw [andThen_of_error ended]
          exact .failed error
      | ok =>
          obtain ⟨edits, last, finished, more⟩ := begins between ended
          rw [andThen_of_ok ended, finished]
          exact .done (edits.trans more)

variable (command : SetCommand) (editor : EditorId) {store : OptionStore}

/-- The second of two writes finds what the first has stored, so it cannot fail. -/
theorem writing_changes (defaulted : store.Defaulted) (call : Call) (name : String) :
    Changes store
      (command.writing editor name (fun scope store => call.run store name scope) store) := by
  have once (scope : OptionScope) : Changes store (call.run store name scope) :=
    changes_of_keeps call.keeps fun after done => .single (call.written defaulted done).edit
  unfold writing
  cases resolved : store.resolve name with
  | error error => exact .failed error
  | ok definition =>
      dsimp only [provided]
      split
      · exact once _
      · exact once _
      · exact once _
      · exact andThen_changes call.keeps fun after done =>
          ⟨.single (call.written defaulted done).edit, (call.written defaulted done).shared⟩
      · exact andThen_changes call.keeps fun after done =>
          ⟨.single (call.written defaulted done).edit,
            (call.written defaulted done).unset editor⟩

/-! ## One argument -/

/-- An argument fails and leaves the store as it was, or it succeeds with some
edits. -/
inductive Ends (store : OptionStore) : SetOutcome → Prop where
  | failed (error : OptionError) : Ends store ⟨store, .error error⟩
  | done {after : OptionStore} {lines : List String} (edits : Edits store after) :
      Ends store ⟨after, .ok lines⟩

theorem Changes.silent {change : Change} (changes : Changes store (change store)) :
    Ends store (silent change store) := by
  unfold SetCommand.silent
  cases changed : change store with
  | mk after result =>
      rw [changed] at changes
      cases changes with
      | failed error => exact .failed error
      | done edits => exact .done edits

theorem query_ends (name : String) : Ends store ⟨store, command.query editor store name⟩ := by
  cases command.query editor store name with
  | error error => exact .failed error
  | ok lines => exact .done .refl

theorem copyGlobal_edits (defaulted : store.Defaulted) {name : String} {after : OptionStore}
    (done : copyGlobal editor name store = (after, .ok ())) : Edits store after := by
  obtain ⟨definition, found, done⟩ := provided_eq_ok.mp done
  split at done
  · cases done
    exact .refl
  · exact .single (unset_edit done)
  · obtain ⟨value, _, done⟩ := provided_eq_ok.mp done
    exact .single ((Call.set value).written defaulted done).edit

/-- A name on its own: a toggle is turned, with or without letters before its name, and
any other option is shown. -/
theorem bare_ends (defaulted : store.Defaulted) (name : String) :
    Ends store (command.runArgument editor store (.bare name)) := by
  simp only [runArgument]
  split
  · split
    · exact (writing_changes command editor defaulted (.turn true) name).silent
    · exact query_ends command editor name
  · split
    · exact (writing_changes command editor defaulted (.turn false) _).silent
    · exact (writing_changes command editor defaulted .flip _).silent
    · exact .failed _

theorem runArgument_ends (defaulted : store.Defaulted) (argument : SetArgument) :
    Ends store (command.runArgument editor store argument) := by
  cases argument with
  | showAll => exact .done .refl
  | resetAll => exact .done (resetAll_edits defaulted)
  | bare name => exact bare_ends command editor defaulted name
  | query name => exact query_ends command editor name
  | invert name => exact (writing_changes command editor defaulted .flip name).silent
  | reset name => exact (writing_changes command editor defaulted .reset name).silent
  | copyGlobal name =>
      have changes : Changes store (copyGlobal editor name store) :=
        changes_of_keeps (copyGlobal_keeps editor name store) fun _ =>
          copyGlobal_edits editor defaulted
      exact changes.silent
  | assign name operation value =>
      exact (writing_changes command editor defaulted (.setText operation value) name).silent

/-! ## Arguments in order -/

/-- All arguments succeed, one after the other: the store that they lead to, and the
lines that they show. -/
inductive Applies : OptionStore → List SetArgument → OptionStore → List String → Prop where
  | nil (store : OptionStore) : Applies store [] store []
  | cons {store between after : OptionStore} {argument : SetArgument} {rest : List SetArgument}
      {lines more : List String}
      (first : command.runArgument editor store argument = ⟨between, .ok lines⟩)
      (others : Applies between rest after more) :
      Applies store (argument :: rest) after (lines ++ more)

theorem runArguments_eq_ok {arguments : List SetArgument} {after : OptionStore}
    {lines : List String} :
    command.runArguments editor store arguments = ⟨after, .ok lines⟩ ↔
      Applies command editor store arguments after lines := by
  constructor
  · intro succeeded
    induction arguments generalizing store after lines with
    | nil =>
        cases succeeded
        exact .nil store
    | cons argument rest ih =>
        cases ended : command.runArgument editor store argument with
        | mk between result =>
            simp only [runArguments, ended] at succeeded
            cases result with
            | error error => cases succeeded
            | ok shown =>
                cases others : command.runArguments editor between rest with
                | mk last more =>
                    cases more with
                    | error error => simp [others, Except.map] at succeeded
                    | ok more =>
                        simp only [others, Except.map, SetOutcome.mk.injEq, Except.ok.injEq]
                          at succeeded
                        obtain ⟨rfl, rfl⟩ := succeeded
                        exact .cons ended (ih others)
  · intro applies
    induction applies with
    | nil store => rfl
    | cons first others ih => simp only [runArguments, first, ih, Except.map]

/-- Arguments that do not all succeed stop at the first that fails, with the store that
the ones before it have left. -/
theorem runArguments_failed (defaulted : store.Defaulted) {arguments : List SetArgument}
    {last : OptionStore} {error : OptionError}
    (failed : command.runArguments editor store arguments = ⟨last, .error error⟩) :
    ∃ before failing rest lines, arguments = before ++ failing :: rest ∧
      Applies command editor store before last lines ∧
      command.runArgument editor last failing = ⟨last, .error error⟩ := by
  induction arguments generalizing store with
  | nil => cases failed
  | cons argument rest ih =>
      have ends := runArgument_ends command editor defaulted argument
      cases ended : command.runArgument editor store argument with
      | mk between result =>
          simp only [runArguments, ended] at failed
          rw [ended] at ends
          cases ends with
          | failed first =>
              cases failed
              exact ⟨[], argument, rest, [], rfl, .nil _, ended⟩
          | done edits =>
              rename_i shown
              cases others : command.runArguments editor between rest with
              | mk last' more =>
                  simp only [others, SetOutcome.mk.injEq] at failed
                  obtain ⟨rfl, failed⟩ := failed
                  cases more with
                  | ok more => cases failed
                  | error error' =>
                      cases failed
                      obtain ⟨before, failing, rest, lines, rfl, applies, fails⟩ :=
                        ih (defaulted.of_edits edits) others
                      exact ⟨argument :: before, failing, rest, shown ++ lines, rfl,
                        .cons ended applies, fails⟩

theorem Applies.edits {arguments : List SetArgument} {after : OptionStore} {lines : List String}
    (applies : Applies command editor store arguments after lines) (defaulted : store.Defaulted) :
    Edits store after := by
  induction applies with
  | nil store => exact .refl
  | @cons _ _ _ argument _ _ _ first others ih =>
      have ends := runArgument_ends command editor defaulted argument
      rw [first] at ends
      cases ends with
      | done edits => exact edits.trans (ih (defaulted.of_edits edits))

theorem runArguments_edits (defaulted : store.Defaulted) (arguments : List SetArgument) :
    Edits store (command.runArguments editor store arguments).store := by
  cases ran : command.runArguments editor store arguments with
  | mk last result =>
      cases result with
      | ok lines => exact ((runArguments_eq_ok command editor).mp ran).edits command editor defaulted
      | error error =>
          obtain ⟨_, _, _, _, _, applies, _⟩ := runArguments_failed command editor defaulted ran
          exact applies.edits command editor defaulted

/-! ## A whole command -/

/-- A command stops at its first failure. -/
structure Stops (store : OptionStore) (text : String) : Prop where
  /-- Where an argument cannot be read, nothing is done. -/
  unread : ∀ error, SetArgument.readAll text = .error error →
    command.run editor store text = ⟨store, .error error⟩
  /-- Else the arguments are applied in order: all of them, or those before the first
  that fails.  That one leaves everything as it found it, the values in every scope and
  what the listeners were told; and the ones after it are not looked at. -/
  read : ∀ arguments, SetArgument.readAll text = .ok arguments →
    (∃ after lines, Applies command editor store arguments after lines ∧
      command.run editor store text =
        ⟨after, .ok (if arguments = [] then overview store (command.scope editor) false
          else lines)⟩) ∨
    (∃ before failing rest last lines error, arguments = before ++ failing :: rest ∧
      Applies command editor store before last lines ∧
      command.runArgument editor last failing = ⟨last, .error error⟩ ∧
      command.run editor store text = ⟨last, .error error⟩)
  /-- A command succeeds exactly when all of its arguments do. -/
  succeeds : (∃ lines, (command.run editor store text).result = .ok lines) ↔
    ∃ arguments after lines, SetArgument.readAll text = .ok arguments ∧
      Applies command editor store arguments after lines

theorem run_of_read {text : String} {arguments : List SetArgument}
    (read : SetArgument.readAll text = .ok arguments) :
    command.run editor store text =
      if arguments = [] then ⟨store, .ok (overview store (command.scope editor) false)⟩
      else command.runArguments editor store arguments := by
  unfold run
  cases arguments <;> simp [read]

/-- Whether it fails or not, a command leaves a store that is some edits away. -/
theorem run_edits (defaulted : store.Defaulted) (text : String) :
    Edits store (command.run editor store text).store := by
  cases read : SetArgument.readAll text with
  | error error => simpa [run, read] using Relation.ReflTransGen.refl
  | ok arguments =>
      rw [run_of_read command editor read]
      split
      · exact .refl
      · exact runArguments_edits command editor defaulted arguments

theorem run_stops (valid : store.Valid) (text : String) : Stops command editor store text where
  unread := by
    intro error unread
    simp [run, unread]
  read := by
    intro arguments read
    rw [run_of_read command editor read]
    by_cases none : arguments = []
    · subst none
      exact .inl ⟨store, [], .nil store, by simp⟩
    · rw [if_neg none]
      cases ran : command.runArguments editor store arguments with
      | mk last result =>
          cases result with
          | ok lines =>
              exact .inl ⟨last, lines, (runArguments_eq_ok command editor).mp ran, by simp [none]⟩
          | error error =>
              obtain ⟨before, failing, rest, lines, split, applies, fails⟩ :=
                runArguments_failed command editor valid.defaulted ran
              exact .inr ⟨before, failing, rest, last, lines, error, split, applies, fails, rfl⟩
  succeeds := by
    constructor
    · rintro ⟨lines, succeeded⟩
      cases read : SetArgument.readAll text with
      | error error => simp [run, read] at succeeded
      | ok arguments =>
          rw [run_of_read command editor read] at succeeded
          by_cases none : arguments = []
          · subst none
            exact ⟨[], store, [], rfl, .nil store⟩
          · rw [if_neg none] at succeeded
            have ran : command.runArguments editor store arguments =
                ⟨(command.runArguments editor store arguments).store, .ok lines⟩ := by
              rw [← succeeded]
            exact ⟨arguments, _, lines, rfl, (runArguments_eq_ok command editor).mp ran⟩
    · rintro ⟨arguments, after, lines, read, applies⟩
      rw [run_of_read command editor read]
      by_cases none : arguments = []
      · exact ⟨_, by rw [if_pos none]⟩
      · exact ⟨lines, by rw [if_neg none, (runArguments_eq_ok command editor).mpr applies]⟩

/-- A store with one option, which has a value for each editor. -/
def indented : OptionStore :=
  ({} : OptionStore).define ((OptionDef.ofUnsigned "shiftwidth" "sw" 8).withScope .perEditor)

/-- The second of three arguments would make a number negative and fails: the first has written
both values, and the third writes none. -/
theorem run_stopped :
    let text := "sw=4 sw-=9 sw=2"
    let last := (SetCommand.both.runArgument ⟨1⟩ indented (.assign "sw" .assign "4")).store
    let error := OptionError.mustBePositive "sw-=9"
    indented.Valid ∧ Stops .both ⟨1⟩ indented text ∧
      SetArgument.readAll text =
        .ok [.assign "sw" .assign "4", .assign "sw" .remove "9", .assign "sw" .assign "2"] ∧
      SetCommand.both.runArgument ⟨1⟩ indented (.assign "sw" .assign "4") = ⟨last, .ok []⟩ ∧
      SetCommand.both.runArgument ⟨1⟩ last (.assign "sw" .remove "9") = ⟨last, .error error⟩ ∧
      SetCommand.both.run ⟨1⟩ indented text = ⟨last, .error error⟩ ∧
      last.get "sw" (.editor ⟨1⟩) = .ok (.number 4) ∧
      last.get "sw" .everywhere = .ok (.number 4) := by
  intro text last error
  have valid : indented.Valid :=
    valid_empty.define (by simp [OptionDef.Accepts, OptionDef.withScope, OptionDef.ofUnsigned])
  have typed : (SetArgument.readAll text).toOption =
      some [.assign "sw" .assign "4", .assign "sw" .remove "9", .assign "sw" .assign "2"] := by
    decide +kernel
  have read : SetArgument.readAll text =
      .ok [.assign "sw" .assign "4", .assign "sw" .remove "9", .assign "sw" .assign "2"] := by
    cases result : SetArgument.readAll text with
    | ok arguments =>
        rw [result] at typed
        exact congrArg Except.ok (Option.some.inj typed)
    | error error =>
        rw [result] at typed
        cases typed
  have ran : SetCommand.both.run ⟨1⟩ indented text = ⟨last, .error error⟩ := by
    rw [run_of_read .both ⟨1⟩ read]
    rfl
  exact ⟨valid, run_stops .both ⟨1⟩ valid text, read, rfl, rfl, ran, rfl, rfl⟩

end SetCommand

end ModalInput
