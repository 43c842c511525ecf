/-
# ModalInput.Proofs.AssignedTexts -- texts assigned from the command line

A text is assigned to an option by a line with the option's name and the text, in
which a backslash protects each blank and each backslash (`assignment`).  The line
goes through four hands: it is taken apart, its arguments are trimmed, cut into
words, and the backslashes are taken out.

Trimming does not know what a backslash protects.  A text that ends in a blank
loses it there, and the backslash that is left over makes the arguments
unreadable: nothing is assigned.  Every other text arrives as it is.

* `trimEnd_assign`, `trimEnd_lost` -- what trimming leaves of the arguments.
* `readAll_leftOver` -- a backslash with nothing behind it is refused.
* `assigned_iff` -- the texts that can be assigned, and what becomes of the others.
-/
import ModalInput.Ex.Command
import ModalInput.Proofs.RelativeArguments
import ModalInput.Proofs.WrittenArguments

namespace ModalInput

set_option autoImplicit false

namespace Text

/-- The last character is blank. -/
def endsBlank (s : List Char) : Bool := s.getLast?.any isBlank

theorem trimStart_of_plain {c : Char} (plain : isBlank c = false) (s : List Char) :
    trimStart (c :: s) = c :: s := by
  simp [trimStart, plain]

theorem trimEnd_of_plain {c : Char} (plain : isBlank c = false) (s : List Char) :
    trimEnd (s ++ [c]) = s ++ [c] := by
  simp [trimEnd, plain]

theorem trimEnd_append_blank {c : Char} (blank : isBlank c = true) (s : List Char) :
    trimEnd (s ++ [c]) = trimEnd s := by
  simp [trimEnd, blank]

end Text

namespace SetArgument

/-! ## The ends of a written argument -/

theorem isBlank_of_isNameChar {c : Char} (inside : isNameChar c = true) :
    Text.isBlank c = false := by
  have ascii : 48 ≤ c.toNat ∧ c.toNat ≤ 122 := by
    delta isNameChar Char.isAlphanum Char.isAlpha Char.isUpper Char.isLower Char.isDigit at inside
    simp [UInt32.le_iff_toNat_le] at inside
    rcases inside with letter | rfl
    · omega
    · decide
  simp [Text.isBlank]
  omega

/-- An argument starts with a character of the name. -/
theorem trimStart_assign {name : String} (nameable : Nameable name) (value : String)
    (rest : List Char) :
    Text.trimStart (written (.assign name .assign value) ++ rest) =
      written (.assign name .assign value) ++ rest := by
  obtain ⟨c, more, cut⟩ := List.exists_cons_of_ne_nil nameable.toList_ne_nil
  have inside : isNameChar c = true := nameable.isNameChar c (cut ▸ List.mem_cons_self)
  rw [written, cut]
  exact Text.trimStart_of_plain (isBlank_of_isNameChar inside) _

/-- The last character of a text is written last. -/
theorem written_append_char {name value : String} {before : List Char} {c : Char}
    (cut : value.toList = before ++ [c]) :
    written (.assign name .assign value) =
      written (.assign name .assign (String.ofList before)) ++ escape c := by
  simp [written, escaped, cut]

/-- An assignment ends in a blank only if its text does. -/
theorem trimEnd_assign {name value : String} (plain : Text.endsBlank value.toList = false) :
    Text.trimEnd (written (.assign name .assign value)) = written (.assign name .assign value) := by
  rcases List.eq_nil_or_concat value.toList with empty | ⟨before, c, cut⟩
  · have bare : written (.assign name .assign value) = name.toList ++ ['='] := by
      simp [written, empty, escaped, SetOperation.symbol]
    rw [bare]
    exact Text.trimEnd_of_plain (by decide) name.toList
  · rw [List.concat_eq_append] at cut
    have visible : Text.isBlank c = false := by simpa [Text.endsBlank, cut] using plain
    have last : ∃ more, escape c = more ++ [c] := by
      unfold escape
      split
      · exact ⟨['\\'], rfl⟩
      · exact ⟨[], rfl⟩
    obtain ⟨more, last⟩ := last
    rw [written_append_char cut, last, ← List.append_assoc]
    exact Text.trimEnd_of_plain visible _

/-- Of a blank at the end of a text, only the backslash is left that protected it. -/
theorem trimEnd_lost {name value : String} {before : List Char} {c : Char}
    (cut : value.toList = before ++ [c]) (blank : Text.isBlank c = true) :
    Text.trimEnd (written (.assign name .assign value)) =
      written (.assign name .assign (String.ofList before)) ++ ['\\'] := by
  have protects : escape c = ['\\'] ++ [c] := by simp [escape, blank]
  rw [written_append_char cut, protects, ← List.append_assoc, Text.trimEnd_append_blank blank]
  exact Text.trimEnd_of_plain (by decide) _

/-- A backslash with nothing behind it is refused. -/
theorem readAll_leftOver {s : List Char} (isWord : IsWord s) :
    readAll (String.ofList (s ++ ['\\'])) =
      .error (.invalidArgument (Text.trimmed (String.ofList (s ++ ['\\'])))) := by
  have alone : words? ['\\'] = none := by
    rw [words?]
    rfl
  have cut : words? (s ++ ['\\']) = none := by
    rw [words?_append isWord rfl, alone]
    rfl
  rw [readAll, String.toList_ofList, cut]

/-- An assignment is one argument. -/
theorem readAll_assign {name : String} (nameable : Nameable name) (value : String) :
    readAll (String.ofList (written (.assign name .assign value))) =
      .ok [.assign name .assign value] := by
  have writable : Writable (.assign name .assign value) := nameable
  refine readAll_word ?_ ?_
  · rw [String.toList_ofList]
    exact isWord_written writable
  · rw [String.toList_ofList]
    exact ofWord?_written writable

/-- What trimming leaves of a text that ends in a blank is refused. -/
theorem readAll_lost {name : String} (nameable : Nameable name) {value : String}
    (ends : Text.endsBlank value.toList = true) :
    let left := String.ofList (Text.trimEnd (written (.assign name .assign value)))
    readAll left = .error (.invalidArgument left) := by
  obtain ⟨before, c, cut, blank⟩ : ∃ before c, value.toList = before ++ [c] ∧
      Text.isBlank c = true := by
    rcases List.eq_nil_or_concat value.toList with empty | ⟨before, c, cut⟩
    · simp [empty, Text.endsBlank] at ends
    · exact ⟨before, c, by simpa using cut, by simpa [cut, Text.endsBlank] using ends⟩
  intro left
  have leaves : left = String.ofList
      (written (.assign name .assign (String.ofList before)) ++ ['\\']) :=
    congrArg String.ofList (trimEnd_lost cut blank)
  have shown : Text.trimmed left = left := by
    rw [leaves, Text.trimmed, String.toList_ofList, Text.trim, trimStart_assign nameable,
      Text.trimEnd_of_plain (by decide)]
  have writable : Writable (.assign name .assign (String.ofList before)) := nameable
  have refused := readAll_leftOver (isWord_written writable)
  rwa [← leaves, shown] at refused

end SetArgument

/-! ## Assigning -/

namespace OptionStore

/-- The option under a name takes any text, one for all editors. -/
structure TakesTexts (store : OptionStore) (name : String) (definition : OptionDef) : Prop where
  found : store.find? name = some definition
  kind : ∃ list, definition.kind = .text list none none
  scope : definition.scope = .shared
  holds : ∃ held, store.valueAt definition .everywhere = .text held

variable {store : OptionStore} {name : String} {definition : OptionDef}

/-- Such an option refuses no text. -/
theorem TakesTexts.setText (takes : store.TakesTexts name definition) (value : String) :
    store.setText name .everywhere .assign value =
      (store.write definition .everywhere (.text value), .ok ()) := by
  obtain ⟨list, kind⟩ := takes.kind
  obtain ⟨held, holds⟩ := takes.holds
  have accepts : definition.Accepts (.text value) := by simp [OptionDef.Accepts, kind]
  have read : definition.read value (name ++ SetOperation.assign.symbol ++ value) =
      .ok (.text value) := by simp [OptionDef.read, kind]
  have combined : definition.combine? .assign (.text held) (.text value) = some (.text value) := by
    simp [OptionDef.combine?, OptionValue.combine?, TextOption.combine]
  rw [← holds] at combined
  exact setText_eq_ok.mpr
    ⟨definition, .text value, .text value, takes.found, read, accepts, combined, accepts, rfl⟩

/-- A text that is written to it is seen from everywhere. -/
theorem TakesTexts.get_write (takes : store.TakesTexts name definition) (value : String)
    (scope : OptionScope) :
    (store.write definition .everywhere (.text value)).get name scope = .ok (.text value) := by
  have found : (store.write definition .everywhere (.text value)).find? name = some definition := by
    rw [(Touch.write takes.found .everywhere (.text value)).same.find?]
    exact takes.found
  rw [get_of_find? found, valueAt_of_shared _ takes.scope, valueAt_write]

end OptionStore

namespace SetCommand

/-- One assignment to it, by any of the option commands. -/
theorem run_assign {command : SetCommand} {editor : EditorId} {store : OptionStore} {name : String}
    {definition : OptionDef} (takes : store.TakesTexts name definition) {value arguments : String}
    (read : SetArgument.readAll arguments = .ok [.assign name .assign value]) :
    command.run editor store arguments =
      ⟨store.write definition .everywhere (.text value), .ok []⟩ := by
  have resolved := OptionStore.resolve_eq_ok.mpr takes.found
  have written : command.writing editor name
      (fun scope store => store.setText name scope .assign value) store =
        (store.write definition .everywhere (.text value), .ok ()) := by
    cases command <;> simp [writing, resolved, takes.scope, OptionStore.provided, takes.setText value]
  simp [run, read, runArguments, runArgument, silent, written, Except.map]

end SetCommand

namespace ExCommands

/-- The line that assigns a text. -/
def assignment (name value : String) : String :=
  "set " ++ String.ofList (SetArgument.written (.assign name .assign value))

/-- A line of the option command runs its trimmed arguments. -/
theorem run_set {commands : ExCommands} {command : SetCommand}
    (known : commands.get? "set" = some (.set command)) (arguments : String) (state : ExState) :
    (commands.run ("set " ++ arguments) state).2 =
      let outcome := command.run state.editor state.options
        (String.ofList (Text.trim (' ' :: arguments.toList)))
      ⟨{ state with options := outcome.store }, outcome.result.mapError .option⟩ := by
  have parts : ExLine.ofText? ("set " ++ arguments).toList =
      some ⟨"set", false, ' ' :: arguments.toList⟩ := by
    rw [String.toList_append]
    rfl
  have apart : ExLine.argumentsApart ⟨"set", false, ' ' :: arguments.toList⟩ = true := rfl
  have resolved : commands.resolve ⟨"set", false, ' ' :: arguments.toList⟩ =
      .ok (.set command) := by
    simp [resolve, apart, get, known]
  simp only [run, parts, resolved, perform]

section Assignment

variable {commands : ExCommands} {command : SetCommand}
  (known : commands.get? "set" = some (.set command)) {state : ExState} {name value : String}
  (nameable : SetArgument.Nameable name)

include nameable in
/-- The arguments without the blank in front, and without the one at the end, if there is
one. -/
theorem trim_assignment :
    Text.trim (' ' :: (String.ofList (SetArgument.written (.assign name .assign value))).toList) =
      Text.trimEnd (SetArgument.written (.assign name .assign value)) := by
  have starts := SetArgument.trimStart_assign nameable value []
  rw [List.append_nil] at starts
  rw [String.toList_ofList]
  exact congrArg Text.trimEnd starts

include known nameable

/-- A text that does not end in a blank is assigned. -/
theorem run_assignment {definition : OptionDef} (takes : state.options.TakesTexts name definition)
    (plain : Text.endsBlank value.toList = false) :
    (commands.run (assignment name value) state).2 =
      ⟨{ state with options := state.options.write definition .everywhere (.text value) },
        .ok []⟩ := by
  have read := SetArgument.readAll_assign nameable value
  rw [← SetArgument.trimEnd_assign plain, ← trim_assignment nameable] at read
  rw [assignment, run_set known, SetCommand.run_assign takes read]
  rfl

/-- One that does is not. -/
theorem run_assignment_lost (ends : Text.endsBlank value.toList = true) :
    (commands.run (assignment name value) state).2 =
      ⟨state, .error (.option (.invalidArgument (String.ofList
        (Text.trimEnd (SetArgument.written (.assign name .assign value))))))⟩ := by
  have refused := SetArgument.readAll_lost nameable ends
  rw [← trim_assignment nameable] at refused ⊢
  rw [assignment, run_set known, SetCommand.run, refused]
  rfl

end Assignment

/-- A text is assigned, whatever it is made of, exactly if it does not end in a
blank; otherwise nothing changes, and the arguments are refused. -/
theorem assigned_iff {commands : ExCommands} {command : SetCommand}
    (known : commands.get? "set" = some (.set command)) (state : ExState) {name : String}
    {definition : OptionDef} (takes : state.options.TakesTexts name definition)
    (nameable : SetArgument.Nameable name) (value : String) :
    let outcome := (commands.run (assignment name value) state).2
    ((outcome.result = .ok [] ∧
        ∀ scope, outcome.state.options.get name scope = .ok (.text value)) ↔
      Text.endsBlank value.toList = false) ∧
    (Text.endsBlank value.toList = true →
      outcome = ⟨state, .error (.option (.invalidArgument (String.ofList
        (Text.trimEnd (SetArgument.written (.assign name .assign value))))))⟩) := by
  intro outcome
  have lost (ends : Text.endsBlank value.toList = true) : outcome = ⟨state, .error _⟩ :=
    run_assignment_lost known nameable ends
  refine ⟨⟨?_, ?_⟩, lost⟩
  · intro assigned
    rw [Bool.eq_false_iff]
    intro ends
    have succeeded : outcome.result = .ok [] := assigned.1
    rw [lost ends] at succeeded
    cases succeeded
  · intro plain
    have ran : outcome = _ := run_assignment known nameable takes plain
    rw [ran]
    exact ⟨rfl, takes.get_write value⟩

/-- The options of the start, and one more of any text. -/
def titled : ExState := ⟨OptionStore.default.define (.ofText "title" "" "none"), {}, ⟨0⟩⟩

theorem titled_takesTexts :
    titled.options.TakesTexts "title" (.ofText "title" "" "none") :=
  ⟨rfl, ⟨false, rfl⟩, rfl, ⟨"none", rfl⟩⟩

/-- A blank in front, one behind a backslash, and a backslash at the end. -/
theorem title_assigned :
    ExCommands.default.get? "set" = some (.set .both) ∧ SetArgument.Nameable "title" ∧
      titled.options.TakesTexts "title" (.ofText "title" "" "none") ∧
      assignment "title" "\t\\ x\\" = "set title=\\\t\\\\\\ x\\\\" ∧
      let outcome := (ExCommands.default.run "set title=\\\t\\\\\\ x\\\\" titled).2
      outcome.result = .ok [] ∧
        ∀ scope, outcome.state.options.get "title" scope = .ok (.text "\t\\ x\\") := by
  have known : ExCommands.default.get? "set" = some (.set .both) := rfl
  have nameable : SetArgument.Nameable "title" := by decide
  have typed : assignment "title" "\t\\ x\\" = "set title=\\\t\\\\\\ x\\\\" := by decide
  have assigned := (assigned_iff known titled titled_takesTexts nameable "\t\\ x\\").1.mpr
    (by decide)
  rw [typed] at assigned
  exact ⟨known, nameable, titled_takesTexts, typed, assigned⟩

/-- The blank at the end is lost, and the line fails. -/
theorem trailingBlank_refused :
    titled.options.TakesTexts "title" (.ofText "title" "" "none") ∧
      assignment "title" "a " = "set title=a\\ " ∧
      (ExCommands.default.run "set title=a\\ " titled).2.result =
        .error (.option (.invalidArgument "title=a\\")) ∧
      (ExCommands.default.run "set title=a\\ " titled).2.state = titled := by
  have known : ExCommands.default.get? "set" = some (.set .both) := rfl
  have nameable : SetArgument.Nameable "title" := by decide
  have lost : (ExCommands.default.run (assignment "title" "a ") titled).2 = ⟨titled, .error _⟩ :=
    run_assignment_lost known nameable (by decide)
  exact ⟨titled_takesTexts, by decide, congrArg ExOutcome.result lost,
    congrArg ExOutcome.state lost⟩

end ExCommands

end ModalInput
