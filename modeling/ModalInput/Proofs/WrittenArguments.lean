/-
# ModalInput.Proofs.WrittenArguments -- arguments are read back as they were written

The written form of an option argument (`SetArgument.written`) is its name with a
sign, or its name, an operator and the value with a backslash before each backslash
and each blank.  Two readers work on it: one cuts the arguments apart, at spaces and
tabs only, and one takes the backslashes out of a value, before every blank that
Unicode knows.  They agree, since a backslash protects whatever follows it from the
first and is taken out by the second: written arguments with a space between
neighbours are read as what they were (`readAll_arguments`).

* `Whole` -- a text that the first reader does not cut, whatever follows.
* `words?_joined` -- whole words are found again.
* `unescaped_escaped`, `ofWord?_written` -- a value, and one argument.
-/
import ModalInput.Options.SetArgument
import ModalInput.Text.Fields

namespace ModalInput.SetArgument

set_option autoImplicit false

/-! ## The written form -/

/-- A character of a value, with a backslash where it needs one. -/
def escape (c : Char) : List Char := if c = '\\' || Text.isBlank c then ['\\', c] else [c]

/-- A value as it is typed. -/
def escaped (s : List Char) : List Char := s.flatMap escape

/-- An argument as it is typed. -/
def written : SetArgument → List Char
  | .showAll => "all".toList
  | .resetAll => "all&".toList
  | .bare name => name.toList
  | .query name => name.toList ++ ['?']
  | .invert name => name.toList ++ ['!']
  | .reset name => name.toList ++ ['&']
  | .copyGlobal name => name.toList ++ ['<']
  | .assign name operation value =>
      name.toList ++ (operation.symbol.toList ++ escaped value.toList)

/-- Arguments as they are typed, with a space between neighbours. -/
def writtenAll (arguments : List SetArgument) : String :=
  String.ofList (Text.joined ' ' (arguments.map written))

/-- Letters, digits and underscores, and at least one of them. -/
def Nameable (name : String) : Prop := name ≠ "" ∧ name.toList.all isNameChar = true

/-- The names in an argument can be names; where all options are meant by `all`, it is the
name of none. -/
def Writable : SetArgument → Prop
  | .showAll | .resetAll => True
  | .bare name | .reset name => Nameable name ∧ name ≠ "all"
  | .query name | .invert name | .copyGlobal name | .assign name _ _ => Nameable name

instance (name : String) : Decidable (Nameable name) := inferInstanceAs (Decidable (_ ∧ _))

instance : DecidablePred Writable
  | .showAll | .resetAll => .isTrue trivial
  | .bare _ | .reset _ => inferInstanceAs (Decidable (_ ∧ _))
  | .query name | .invert name | .copyGlobal name | .assign name _ _ =>
      inferInstanceAs (Decidable (Nameable name))

/-! ## Values -/

theorem unescaped_cons {c : Char} (plain : c ≠ '\\') (s : List Char) :
    unescaped (c :: s) = c :: unescaped s := by
  simp [unescaped, plain]

theorem unescaped_escaped (s : List Char) : unescaped (escaped s) = s := by
  induction s with
  | nil => rfl
  | cons c rest ih =>
      simp only [escaped, List.flatMap_cons, escape] at ih ⊢
      split
      · rename_i protects
        simp only [List.cons_append, List.nil_append, unescaped, protects, if_true, ih]
      · rename_i plain
        simp only [Bool.or_eq_true, decide_eq_true_eq, not_or] at plain
        simp only [List.cons_append, List.nil_append, unescaped_cons plain.1, ih]

/-! ## Cutting a text into words -/

/-- A text that is not cut, whatever follows it. -/
def Whole (s : List Char) : Prop :=
  ∀ rest, word (s ++ rest) = (s ++ (word rest).1, (word rest).2)

theorem whole_nil : Whole [] := fun _ => rfl

theorem Whole.append {s t : List Char} (front : Whole s) (back : Whole t) : Whole (s ++ t) := by
  intro rest
  rw [List.append_assoc, front, back, List.append_assoc]

theorem whole_char {c : Char} (plain : c ≠ '\\') (inner : ¬ (c = ' ' ∨ c = '\t')) : Whole [c] := by
  intro rest
  simp [word, plain, inner]

/-- A backslash protects the character behind it, a backslash too. -/
theorem whole_protected (c : Char) : Whole ['\\', c] := by
  intro rest
  simp [word]

theorem whole_of_chars {s : List Char}
    (plain : ∀ c ∈ s, c ≠ '\\' ∧ ¬ (c = ' ' ∨ c = '\t')) : Whole s := by
  induction s with
  | nil => exact whole_nil
  | cons c rest ih =>
      obtain ⟨first, others⟩ := List.forall_mem_cons.mp plain
      exact (whole_char first.1 first.2).append (ih others)

theorem whole_escaped (s : List Char) : Whole (escaped s) := by
  induction s with
  | nil => exact whole_nil
  | cons c rest ih =>
      rw [escaped, List.flatMap_cons]
      refine Whole.append ?_ ih
      unfold escape
      split
      · exact whole_protected c
      · rename_i plain
        simp only [Bool.or_eq_true, decide_eq_true_eq, not_or] at plain
        refine whole_char plain.1 ?_
        rintro (rfl | rfl) <;> exact plain.2 (by decide)

/-- A word: not cut, and not starting with a gap. -/
structure IsWord (s : List Char) : Prop where
  whole : Whole s
  starts : ∃ c rest, s = c :: rest ∧ isGap c = false

theorem words?_nil : words? [] = some [] := by
  rw [words?]
  rfl

theorem words?_gap {c : Char} (gap : isGap c = true) (s : List Char) :
    words? (c :: s) = words? s := by
  rw [words?.eq_def (c :: s), words?.eq_def s, List.dropWhile_cons_of_pos gap]

/-- A word in front of a place where a word ends. -/
theorem words?_append {s rest : List Char} (isWord : IsWord s) (stops : (word rest).1 = []) :
    words? (s ++ rest) = (words? rest).map (s :: ·) := by
  obtain ⟨whole, c, more, rfl, starts⟩ := isWord
  have left : (word rest).2 = rest := by
    have parts := word_append rest
    rwa [stops, List.nil_append] at parts
  have same : ((c :: more) ++ rest).dropWhile isGap = (c :: more) ++ rest := by
    simp [starts]
  rw [words?, same, whole rest, stops, left]
  simp

theorem words?_joined (words : List (List Char)) (isWord : ∀ s ∈ words, IsWord s) :
    words? (Text.joined ' ' words) = some words := by
  induction words with
  | nil => exact words?_nil
  | cons s rest ih =>
      obtain ⟨first, others⟩ := List.forall_mem_cons.mp isWord
      cases rest with
      | nil =>
          have alone : words? (s ++ []) = (words? []).map (s :: ·) := words?_append first rfl
          rw [List.append_nil, words?_nil] at alone
          exact alone
      | cons next more =>
          rw [Text.joined, words?_append first (by simp [word]), words?_gap (by decide),
            ih others]
          rfl

/-- A text that is one word is read as one argument. -/
theorem readAll_word {text : String} {argument : SetArgument} (isWord : IsWord text.toList)
    (means : ofWord? text.toList = some argument) : readAll text = .ok [argument] := by
  have cut : words? text.toList = some [text.toList] :=
    words?_joined [text.toList] (List.forall_mem_singleton.mpr isWord)
  rw [readAll, cut]
  simp only [List.mapM_cons, means]
  rfl

/-! ## Written arguments are words -/

theorem isNameChar_plain {c : Char} (inside : isNameChar c = true) :
    c ≠ '\\' ∧ ¬ (c = ' ' ∨ c = '\t') := by
  constructor
  · rintro rfl
    exact absurd inside (by decide)
  · rintro (rfl | rfl) <;> exact absurd inside (by decide)

theorem isGap_of_isNameChar {c : Char} (inside : isNameChar c = true) : isGap c = false := by
  rw [← Bool.not_eq_true]
  intro gap
  simp only [isGap, Bool.or_eq_true, decide_eq_true_eq] at gap
  obtain ((rfl | rfl) | rfl) | rfl := gap <;> exact absurd inside (by decide)

theorem IsWord.append {s t : List Char} (isWord : IsWord s) (whole : Whole t) :
    IsWord (s ++ t) := by
  obtain ⟨front, c, rest, rfl, starts⟩ := isWord
  exact ⟨front.append whole, c, rest ++ t, rfl, starts⟩

theorem Nameable.isNameChar {name : String} (nameable : Nameable name) :
    ∀ c ∈ name.toList, isNameChar c = true :=
  List.all_eq_true.mp nameable.2

theorem Nameable.toList_ne_nil {name : String} (nameable : Nameable name) : name.toList ≠ [] :=
  fun empty => nameable.1 (String.toList_eq_nil_iff.mp empty)

theorem Nameable.isWord {name : String} (nameable : Nameable name) : IsWord name.toList := by
  refine ⟨whole_of_chars fun c among => isNameChar_plain (nameable.isNameChar c among), ?_⟩
  obtain ⟨c, rest, cut⟩ := List.exists_cons_of_ne_nil nameable.toList_ne_nil
  exact ⟨c, rest, cut, isGap_of_isNameChar (nameable.isNameChar c (cut ▸ List.mem_cons_self))⟩

theorem whole_symbol (operation : SetOperation) : Whole operation.symbol.toList :=
  whole_of_chars (by cases operation <;> simp [SetOperation.symbol])

theorem isWord_written {argument : SetArgument} (writable : argument.Writable) :
    IsWord argument.written := by
  have all : Nameable "all" := ⟨by decide, by decide⟩
  cases argument with
  | showAll => exact all.isWord
  | resetAll => exact all.isWord.append (t := ['&']) (whole_char (by decide) (by decide))
  | bare name => exact writable.1.isWord
  | query name => exact Nameable.isWord writable |>.append (whole_char (by decide) (by decide))
  | invert name => exact Nameable.isWord writable |>.append (whole_char (by decide) (by decide))
  | reset name => exact writable.1.isWord.append (whole_char (by decide) (by decide))
  | copyGlobal name => exact Nameable.isWord writable |>.append (whole_char (by decide) (by decide))
  | assign name operation value =>
      exact Nameable.isWord writable |>.append
        ((whole_symbol operation).append (whole_escaped value.toList))

/-! ## The meaning of a written argument -/

theorem ofWord?_operation {name : String} (nameable : Nameable name) {rest value : List Char}
    {operation : SetOperation} (stops : rest.takeWhile isNameChar = [])
    (operates : operation? rest = some (operation, value)) :
    ofWord? (name.toList ++ rest)
      = some (.assign name operation (String.ofList (unescaped value))) := by
  obtain ⟨front, back⟩ := Text.front_cut nameable.isNameChar stops
  simp [ofWord?, front, back, operates, nameable.toList_ne_nil]

theorem ofWord?_suffixed {name : String} (nameable : Nameable name) {rest : List Char}
    (stops : rest.takeWhile isNameChar = []) (operates : operation? rest = none) :
    ofWord? (name.toList ++ rest) = suffixed? name rest := by
  obtain ⟨front, back⟩ := Text.front_cut nameable.isNameChar stops
  simp [ofWord?, front, back, operates, nameable.toList_ne_nil]

theorem operation?_symbol (operation : SetOperation) (value : List Char) :
    operation? (operation.symbol.toList ++ value) = some (operation, value) := by
  cases operation <;> rfl

theorem ofWord?_written {argument : SetArgument} (writable : argument.Writable) :
    ofWord? argument.written = some argument := by
  cases argument with
  | showAll => decide
  | resetAll => decide
  | bare name =>
      have read : ofWord? (name.toList ++ []) = suffixed? name [] :=
        ofWord?_suffixed writable.1 rfl rfl
      rw [List.append_nil] at read
      rw [written, read, suffixed?, if_neg writable.2]
  | query name => exact ofWord?_suffixed writable rfl rfl
  | invert name => exact ofWord?_suffixed writable rfl rfl
  | reset name =>
      rw [written, ofWord?_suffixed writable.1 rfl rfl]
      simp [suffixed?, writable.2]
  | copyGlobal name => exact ofWord?_suffixed writable rfl rfl
  | assign name operation value =>
      have stops : (operation.symbol.toList ++ escaped value.toList).takeWhile isNameChar = [] := by
        cases operation <;> rfl
      rw [written, ofWord?_operation writable stops (operation?_symbol operation _),
        unescaped_escaped, String.ofList_toList]

/-- Arguments are read back as they were written: all of them, in their order, with
their values. -/
theorem readAll_arguments (arguments : List SetArgument)
    (writable : ∀ argument ∈ arguments, argument.Writable) :
    readAll (writtenAll arguments) = .ok arguments := by
  have isWord : ∀ s ∈ arguments.map written, IsWord s := by
    simpa using fun argument among => isWord_written (writable argument among)
  rw [readAll, writtenAll, String.toList_ofList, words?_joined _ isWord]
  clear isWord
  induction arguments with
  | nil => rfl
  | cons first rest ih =>
      obtain ⟨here, others⟩ := List.forall_mem_cons.mp writable
      simp only [List.map_cons, List.mapM_cons, ofWord?_written here] at ih ⊢
      rw [ih others]
      rfl

/-- A value with blanks in it and a backslash at its end, and an option with the name `all`. -/
def varied : List SetArgument :=
  [.query "all", .assign "dict" .append " a\n=b\\", .resetAll, .bare "0", .copyGlobal "so",
    .assign "dict" .assign ""]

theorem varied_readAll :
    (∀ argument ∈ varied, argument.Writable) ∧
      writtenAll varied = "all? dict+=\\ a\\\n=b\\\\ all& 0 so< dict=" ∧
      readAll "all? dict+=\\ a\\\n=b\\\\ all& 0 so< dict=" = .ok varied := by
  have writable : ∀ argument ∈ varied, argument.Writable := by decide
  have typed : writtenAll varied = "all? dict+=\\ a\\\n=b\\\\ all& 0 so< dict=" := by decide
  exact ⟨writable, typed, typed ▸ readAll_arguments varied writable⟩

end ModalInput.SetArgument
