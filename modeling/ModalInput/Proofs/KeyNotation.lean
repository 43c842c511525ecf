/-
# ModalInput.Proofs.KeyNotation -- written keys are read back, whatever follows them

Every key that an ASCII text is read as has a written form, and that form is read as
the key again, with any text behind it.  So the notation is uniquely decodable: keys
can be written down and further text joined to them, and what is read is those keys
and then the keys of the further text (`notation_decodable`).  Other keys need not come
back: a lock key has no written form, and Control with a capital letter is read as
Control with the small one.

* `Reads` -- a name between angle brackets that is read as one code: the names of
  keys, numbered function keys and single characters.
* `isSpelled` -- the keys whose written form is read as themselves (`readAll_written`).
* `readOne_spelled`, `readAll_spelled` -- the keys of an ASCII text are among them.
* `readAll_writtenAll` -- what is written for several keys, and text behind it.
-/
import ModalInput.Key.Reader
import ModalInput.Key.Written
import ModalInput.Text.Fields

namespace ModalInput

set_option autoImplicit false

/-! ## Modifiers -/

/-- Only modifiers that have a letter. -/
def Modifiers.isLettered (mods : Modifiers) : Bool :=
  !mods.superKey && !mods.hyperKey && !mods.metaKey

theorem Modifiers.exists_of_isLettered {mods : Modifiers} (lettered : mods.isLettered = true) :
    ∃ control shift alt, mods = ⟨control, shift, alt, false, false, false⟩ := by
  obtain ⟨control, shift, alt, superKey, hyperKey, metaKey⟩ := mods
  simp only [isLettered, Bool.and_eq_true, Bool.not_eq_true'] at lettered
  obtain ⟨⟨rfl, rfl⟩, rfl⟩ := lettered
  exact ⟨control, shift, alt, rfl⟩

theorem Modifiers.isLettered_union {a b : Modifiers} (left : a.isLettered = true)
    (right : b.isLettered = true) : (a ∪ b).isLettered = true := by
  simp_all [isLettered, Union.union, union]

namespace Key

theorem modifier?_lettered {c : Char} {mods : Modifiers} (letter : modifier? c = some mods) :
    mods.isLettered = true := by
  unfold modifier? at letter
  split at letter <;> cases letter <;> rfl

theorem readMods_lettered (s : List Char) : (readMods s).1.isLettered = true := by
  fun_induction readMods s with
  | case1 c rest mods letter ih => exact Modifiers.isLettered_union (modifier?_lettered letter) ih
  | case2 => rfl
  | case3 => rfl

theorem readMods_suffix (s : List Char) : (readMods s).2 <:+ s := by
  fun_induction readMods s with
  | case1 c rest mods letter ih => exact ih.trans ⟨[c, '-'], rfl⟩
  | case2 => exact List.suffix_refl _
  | case3 => exact List.suffix_refl _

theorem readMods_letter {c : Char} {mods : Modifiers} (letter : modifier? c = some mods)
    (s : List Char) : readMods (c :: '-' :: s) = (mods ∪ (readMods s).1, (readMods s).2) := by
  rw [readMods, letter]

/-- No hyphen in the second place, so no modifier. -/
theorem readMods_stops (c : Char) {d : Char} (plain : d ≠ '-') (s : List Char) :
    readMods (c :: d :: s) = (.none, c :: d :: s) := by
  rw [readMods]
  simp [plain]

theorem readMods_written {mods : Modifiers} (lettered : mods.isLettered = true) {s : List Char}
    (stops : readMods s = (.none, s)) : readMods (writtenMods mods ++ s) = (mods, s) := by
  obtain ⟨control, shift, alt, rfl⟩ := Modifiers.exists_of_isLettered lettered
  have control? : modifier? 'C' = some .onlyControl := rfl
  have shift? : modifier? 'S' = some .onlyShift := rfl
  have alt? : modifier? 'A' = some .onlyAlt := rfl
  cases control <;> cases shift <;> cases alt <;>
    simp [writtenMods, readMods_letter control?, readMods_letter shift?, readMods_letter alt?,
      stops] <;> rfl

/-! ## Names between angle brackets -/

/-- The name is read as the code, whatever stands behind the bracket. -/
structure Reads (name : List Char) (code : KeyCode) : Prop where
  stops : ∀ rest, readMods (name ++ '>' :: rest) = (.none, name ++ '>' :: rest)
  code : ∀ rest, readCode? (name ++ '>' :: rest) = some (code, '>' :: rest)

theorem readAll_bracketed {mods : Modifiers} (lettered : mods.isLettered = true) {name : List Char}
    {code : KeyCode} (reads : Reads name code) (rest : List Char) :
    readAll (bracketed mods name ++ rest) = ofWritten code mods :: readAll rest := by
  have opened : bracketed mods name ++ rest
      = '<' :: (writtenMods mods ++ (name ++ '>' :: rest)) := by
    simp [bracketed]
  have found : readBracketed? ('<' :: (writtenMods mods ++ (name ++ '>' :: rest)))
      = some (ofWritten code mods, rest) := by
    simp [readBracketed?, readMods_written lettered (reads.stops rest), reads.code rest]
  rw [opened, readAll, readOne, found]
  rfl

theorem readMods_name {name : List Char} (nonempty : name ≠ []) (plain : ∀ c ∈ name.tail, c ≠ '-')
    (rest : List Char) : readMods (name ++ '>' :: rest) = (.none, name ++ '>' :: rest) := by
  match name with
  | [c] => exact readMods_stops c (by decide) rest
  | c :: d :: more => exact readMods_stops c (plain d (by simp)) (more ++ '>' :: rest)

theorem isAlphanum_bracket : '>'.isAlphanum = false := by decide

theorem isDigit_bracket : '>'.isDigit = false := by decide

/-- Letters and digits end at the bracket. -/
theorem bracket_cut {p : Char → Bool} (other : p '>' = false) {name : List Char}
    (inside : ∀ c ∈ name, p c = true) (rest : List Char) :
    (name ++ '>' :: rest).takeWhile p = name ∧
      (name ++ '>' :: rest).dropWhile p = '>' :: rest :=
  Text.front_cut inside (List.takeWhile_cons_of_neg (by simp [other]))

theorem reads_named {name : List Char} {code : KeyCode} (inside : name.all Char.isAlphanum = true)
    (nonempty : name ≠ []) (known : ofName? name = some code) : Reads name code where
  stops := readMods_name nonempty fun c among hyphen => by
    have letter := List.all_eq_true.mp inside c (List.mem_of_mem_tail among)
    rw [hyphen] at letter
    exact absurd letter (by decide)
  code rest := by
    obtain ⟨front, back⟩ := bracket_cut isAlphanum_bracket (List.all_eq_true.mp inside) rest
    simp [readCode?, readName?, front, back, known]

theorem reads_name? {code : KeyCode} {name : String} (named : code.name? = some name) :
    Reads name.toList code := by
  cases code <;> cases named <;> exact reads_named (by decide) (by decide) (by decide)

theorem ofName?_unlisted {name : List Char}
    (unlisted : ∀ entry ∈ names, entry.1.toList ≠ name.map Char.toLower) : ofName? name = none := by
  rw [ofName?, List.lookup_eq_none_iff]
  intro entry listed
  simp only [bne_iff_ne, ne_eq]
  rintro same
  exact unlisted entry listed (by rw [← same, String.toList_ofList])

/-- All names have two letters or more. -/
theorem ofName?_short {name : List Char} (short : name.length < 2) : ofName? name = none := by
  have long : ∀ entry ∈ names, 2 ≤ entry.1.toList.length := by decide
  refine ofName?_unlisted fun entry listed same => ?_
  have := long entry listed
  rw [same, List.length_map] at this
  omega

theorem reads_char (c : Char) : Reads [c] (.char c) where
  stops := readMods_name (by simp) (by simp)
  code rest := by
    have short : ((c :: '>' :: rest).takeWhile Char.isAlphanum).length < 2 := by
      cases alphanum : c.isAlphanum <;> simp [alphanum, isAlphanum_bracket]
    simp only [List.cons_append, List.nil_append]
    simp [readCode?, readName?, ofName?_short short, readFunction?, isDigit_bracket]

theorem decimal_toDigits (n : Nat) : Text.decimal (Nat.toDigits 10 n) = n := by
  have same : Text.decimal = fun digits => Nat.ofDigitChars 10 digits 0 := by
    funext digits
    simp [Text.decimal, Nat.ofDigitChars_eq_foldl, Nat.mul_comm]
  rw [same]
  exact Nat.ofDigitChars_ten_toDigits

/-- No name starts with the letter of the function keys. -/
theorem ofName?_function (digits : List Char) : ofName? ('F' :: digits) = none := by
  have other : ∀ entry ∈ names, entry.1.toList.head? ≠ some 'f' := by decide
  refine ofName?_unlisted fun entry listed same => other entry listed ?_
  rw [same]
  rfl

theorem reads_function (number : Fin 256) :
    Reads ('F' :: Nat.toDigits 10 number.val) (.function number) := by
  have isDigit : ∀ c ∈ Nat.toDigits 10 number.val, c.isDigit = true := fun c among =>
    Nat.isDigit_of_mem_toDigits (by decide) (by decide) among
  have isAlphanum : ∀ c ∈ 'F' :: Nat.toDigits 10 number.val, c.isAlphanum = true := by
    intro c among
    obtain rfl | among := List.mem_cons.mp among
    · decide
    · simp [Char.isAlphanum, isDigit c among]
  have nonempty : Nat.toDigits 10 number.val ≠ [] := Nat.toDigits_ne_nil
  constructor
  · refine readMods_name (by simp) fun c among hyphen => ?_
    exact absurd (hyphen ▸ isDigit c among) (by decide)
  · intro rest
    obtain ⟨front, -⟩ := bracket_cut isAlphanum_bracket isAlphanum rest
    obtain ⟨digits, after⟩ := bracket_cut isDigit_bracket isDigit rest
    rw [List.cons_append] at front
    simp [readCode?, readName?, front, ofName?_function, readFunction?, digits, after, nonempty,
      decimal_toDigits]

/-! ## Keys that are read back -/

theorem reads_lt : Reads "lt".toList (.char '<') := reads_named (by decide) (by decide) (by decide)

theorem reads_space : Reads "Space".toList (.char ' ') :=
  reads_named (by decide) (by decide) (by decide)

theorem reads_newline : Reads "NL".toList (.char '\n') :=
  reads_named (by decide) (by decide) (by decide)

/-- What the name of a character with modifiers is read as. -/
def spelling (mods : Modifiers) (c : Char) : Char :=
  if mods.control then
    if c = '4' then '\\'
    else if c = '5' then ']'
    else if c = '6' then '^'
    else if c = '7' then '_'
    else c.toUpper
  else c

theorem reads_nameOfChar (mods : Modifiers) {c : Char} (ascii : c.toNat < 0x80) :
    Reads (nameOfChar mods c) (.char (spelling mods c)) := by
  by_cases space : c = ' '
  · subst space
    have same : spelling mods ' ' = ' ' := by
      cases control : mods.control <;> simp [spelling, control]
    rw [same]
    exact reads_space
  by_cases angle : c = '<'
  · subst angle
    have same : spelling mods '<' = '<' := by
      cases control : mods.control <;> simp [spelling, control]
    rw [same]
    exact reads_lt
  have single : nameOfChar mods c = [spelling mods c] := by
    simp only [nameOfChar, spelling, space, angle, if_false, Text.uppercase_ascii c ascii,
      apply_ite (fun c : Char => [c])]
  rw [single]
  exact reads_char _

/-- The keys whose written form is read as themselves.  A character with modifiers is one if
that is what its name gives; Shift with Tab is the name of another key. -/
def isSpelled (key : Key) : Bool :=
  key.mods.isLettered &&
    match key.code with
    | .char c =>
        key.mods = .none || (c.toNat < 0x80 && modified (spelling key.mods c) key.mods = key)
    | .function _ => true
    | .tab => key.mods ≠ .onlyShift
    | .backTab => key.mods = .none
    | code => code.name?.isSome

theorem readAll_plain {c : Char} (plain : c ≠ '<') (rest : List Char) :
    readAll (c :: rest) = char c :: readAll rest := by
  have unread : readBracketed? (c :: rest) = none := by
    unfold readBracketed?
    split
    · rename_i opened
      simp_all
    · rfl
  rw [readAll, readOne, unread]
  rfl

theorem readAll_writtenPlain (c : Char) (rest : List Char) :
    readAll (writtenPlain c ++ rest) = char c :: readAll rest := by
  have named {name : List Char} (reads : Reads name (.char c)) :
      readAll (bracketed .none name ++ rest) = char c :: readAll rest :=
    readAll_bracketed rfl reads rest
  by_cases angle : c = '<'
  · subst angle
    exact named reads_lt
  by_cases space : c = ' '
  · subst space
    exact named reads_space
  by_cases line : c = '\n'
  · subst line
    exact named reads_newline
  rw [writtenPlain, if_neg angle, if_neg space, if_neg line]
  exact readAll_plain angle rest

theorem written_char {key : Key} {c : Char} (shape : key.code = .char c) :
    key.written = if key.mods = .none then writtenPlain c
      else bracketed key.mods (nameOfChar key.mods c) := by
  cases key
  cases shape
  rfl

theorem written_function {key : Key} {number : Fin 256} (shape : key.code = .function number) :
    key.written = bracketed key.mods ('F' :: Nat.toDigits 10 number.val) := by
  cases key
  cases shape
  rfl

theorem readAll_named {key : Key} {name : String} (named : key.code.name? = some name)
    (other : key.code = .tab → key.mods ≠ .onlyShift) (lettered : key.mods.isLettered = true)
    (rest : List Char) : readAll (key.written ++ rest) = key :: readAll rest := by
  have spells : key.written = bracketed key.mods name.toList := by
    obtain ⟨code, mods, unshifted⟩ := key
    cases code <;> cases named <;> rfl
  have back : ofWritten key.code key.mods = key := by
    obtain ⟨code, mods, unshifted⟩ := key
    cases code with
    | char c => cases named
    | tab => exact (if_neg (other rfl)).trans (of_code_mods ⟨.tab, mods, unshifted⟩)
    | _ => exact of_code_mods _
  rw [spells, readAll_bracketed lettered (reads_name? named), back]

/-- A key is read back from its written form, and the text behind it is left as it is. -/
theorem readAll_written {key : Key} (spelled : key.isSpelled = true) (rest : List Char) :
    readAll (key.written ++ rest) = key :: readAll rest := by
  obtain ⟨lettered, code⟩ := Bool.and_eq_true_iff.mp spelled
  cases shape : key.code with
  | char c =>
      simp only [shape, Bool.or_eq_true, Bool.and_eq_true, decide_eq_true_eq] at code
      by_cases plain : key.mods = .none
      · have same : key = char c := Key.ext shape plain
        rw [same]
        exact readAll_writtenPlain c rest
      · obtain ⟨ascii, back⟩ := code.resolve_left plain
        rw [written_char shape, if_neg plain,
          readAll_bracketed lettered (reads_nameOfChar key.mods ascii)]
        exact congrArg (· :: readAll rest) back
  | function number =>
      have back : ofWritten (.function number) key.mods = key := by
        change of (.function number) key.mods = key
        rw [← shape, of_code_mods]
      rw [written_function shape, readAll_bracketed lettered (reads_function number), back]
  | backTab =>
      simp only [shape, decide_eq_true_eq] at code
      have same : key = special .backTab := Key.ext shape code
      rw [same]
      have tab : Reads "Tab".toList .tab := reads_name? rfl
      have lettered : Modifiers.onlyShift.isLettered = true := rfl
      exact readAll_bracketed lettered tab rest
  | tab =>
      simp only [shape, decide_eq_true_eq] at code
      have named : key.code.name? = some "Tab" := by rw [shape]; rfl
      exact readAll_named named (fun _ => code) lettered rest
  | _ =>
      simp only [shape] at code
      obtain ⟨name, named⟩ := Option.isSome_iff_exists.mp code
      exact readAll_named (shape ▸ named) (by simp [shape]) lettered rest

/-- A key that no text is read as comes back as another one. -/
example : readAll (written (of (.char 'A') .onlyControl)) = [of (.char 'a') .onlyControl] := by
  decide +kernel

/-! ## The keys of a text -/

/-- A code that can be read in an ASCII text. -/
def isReadable (code : KeyCode) : Bool :=
  match code with
  | .char c => c.toNat < 0x80
  | .function _ => true
  | code => code.name?.isSome

/-- Each ASCII character with each of its modifiers: what Control makes of it has a name that
is read as the same key. -/
theorem modified_spelled {c : Char} (ascii : c.toNat < 0x80) {mods : Modifiers}
    (lettered : mods.isLettered = true) : isSpelled (modified c mods) = true := by
  have decided : ∀ n < 0x80, ∀ control shift alt : Bool,
      isSpelled (modified (Char.ofNat n) ⟨control, shift, alt, false, false, false⟩) = true := by
    decide +kernel
  obtain ⟨control, shift, alt, rfl⟩ := Modifiers.exists_of_isLettered lettered
  have here := decided c.toNat ascii control shift alt
  rwa [Char.ofNat_toNat] at here

theorem mods_of {code : KeyCode} (named : code.isChar = false) (mods : Modifiers) :
    (of code mods).mods = mods := by
  simp [of, named]

theorem ofWritten_spelled {code : KeyCode} {mods : Modifiers} (readable : isReadable code = true)
    (lettered : mods.isLettered = true) : isSpelled (ofWritten code mods) = true := by
  cases code with
  | char c => exact modified_spelled (of_decide_eq_true readable) lettered
  | tab =>
      by_cases shift : mods = .onlyShift
      · subst shift
        rfl
      · change isSpelled (if mods = .onlyShift then special .backTab else of .tab mods) = true
        rw [if_neg shift, isSpelled, mods_of rfl]
        simp [lettered, shift]
  | backTab | capsLock | scrollLock | numLock | menu | keypadBegin => cases readable
  | _ =>
      change isSpelled (of _ mods) = true
      rw [isSpelled, mods_of rfl]
      simp [KeyCode.name?, lettered]

theorem ofName?_readable {name : List Char} {code : KeyCode} (known : ofName? name = some code) :
    isReadable code = true := by
  have all : ∀ entry ∈ names, isReadable entry.2 = true := by decide
  obtain ⟨before, after, split, -⟩ := List.lookup_eq_some_iff.mp known
  have listed : (String.ofList (name.map Char.toLower), code) ∈ names := by
    rw [split]
    exact List.mem_append_right before List.mem_cons_self
  exact all _ listed

theorem readFunction?_readable {s rest : List Char} {code : KeyCode}
    (read : readFunction? s = some (code, rest)) : isReadable code = true ∧ rest <:+ s := by
  cases s with
  | nil => cases read
  | cons c s =>
      simp only [readFunction?] at read
      split at read
      · split at read
        · cases read
          exact ⟨rfl, (List.dropWhile_suffix _).trans (List.suffix_cons c s)⟩
        · cases read
      · cases read

/-- What is read between the brackets of an ASCII text, and the text behind it. -/
theorem readCode?_ascii {s rest : List Char} (ascii : ∀ c ∈ s, c.toNat < 0x80) {code : KeyCode}
    (read : readCode? s = some (code, rest)) : isReadable code = true ∧ rest <:+ s := by
  obtain named | ⟨-, read⟩ := Option.or_eq_some_iff.mp read
  · obtain ⟨_, known, same⟩ := Option.map_eq_some_iff.mp named
    cases same
    exact ⟨ofName?_readable known, List.dropWhile_suffix _⟩
  obtain function | ⟨-, single⟩ := Option.or_eq_some_iff.mp read
  · exact readFunction?_readable function
  · cases s with
    | nil => cases single
    | cons c s =>
        cases single
        exact ⟨decide_eq_true (ascii c List.mem_cons_self), List.suffix_cons c rest⟩

/-- One key of an ASCII text. -/
theorem readOne_spelled {c : Char} {s : List Char} (ascii : ∀ d ∈ c :: s, d.toNat < 0x80) :
    isSpelled (readOne c s).1 = true ∧ (readOne c s).2 <:+ s := by
  have suffix := readMods_suffix s
  have within : ∀ d ∈ (readMods s).2, d.toNat < 0x80 := fun d among =>
    ascii d (List.mem_cons_of_mem c (suffix.mem among))
  unfold readOne readBracketed?
  split
  · rename_i opened
    cases opened
    dsimp only
    split
    · rename_i code rest read
      obtain ⟨readable, behind⟩ := readCode?_ascii within read
      exact ⟨ofWritten_spelled readable (readMods_lettered s),
        ((List.suffix_cons '>' rest).trans behind).trans suffix⟩
    · exact ⟨rfl, List.suffix_refl s⟩
  · exact ⟨rfl, List.suffix_refl s⟩

theorem readAll_spelled {s : List Char} (ascii : ∀ c ∈ s, c.toNat < 0x80) :
    ∀ key ∈ readAll s, key.isSpelled = true := by
  fun_induction readAll s with
  | case1 => simp
  | case2 c s ih =>
      obtain ⟨first, behind⟩ := readOne_spelled ascii
      have others := ih fun d among => ascii d (List.mem_cons_of_mem c (behind.mem among))
      exact List.forall_mem_cons.mpr ⟨first, others⟩

/-! ## Written keys, and text behind them -/

theorem readAll_writtenAll {keys : List Key} (spelled : ∀ key ∈ keys, key.isSpelled = true)
    (rest : List Char) : readAll (writtenAll keys ++ rest) = keys ++ readAll rest := by
  induction keys with
  | nil => rfl
  | cons key keys ih =>
      obtain ⟨first, others⟩ := List.forall_mem_cons.mp spelled
      rw [writtenAll_cons, List.append_assoc, readAll_written first, ih others, List.cons_append]

theorem readAll_ne_nil {s : List Char} (nonempty : s ≠ []) : readAll s ≠ [] := by
  cases s with
  | nil => contradiction
  | cons c s => simp [readAll]

/-- Any text but the empty one can be read. -/
theorem readSome?_of_ne_empty {s : String} (nonempty : s ≠ "") : readSome? s = .ok (ofText s) := by
  have some : ofText s ≠ [] := readAll_ne_nil fun empty => nonempty (String.toList_eq_nil_iff.mp empty)
  unfold readSome?
  split
  · contradiction
  · rfl

theorem ofText_textAll_append {s : String} (ascii : ∀ c ∈ s.toList, c.toNat < 0x80) (t : String) :
    ofText (textAll (ofText s) ++ t) = ofText s ++ ofText t := by
  rw [ofText, textAll, String.toList_append, String.toList_ofList]
  exact readAll_writtenAll (readAll_spelled ascii) t.toList

theorem ofText_textAll {s : String} (ascii : ∀ c ∈ s.toList, c.toNat < 0x80) :
    ofText (textAll (ofText s)) = ofText s := by
  have alone := ofText_textAll_append ascii ""
  rwa [String.append_empty, show ofText "" = [] by simp [ofText, readAll], List.append_nil] at alone

/-- What an ASCII text is read as can be written and is read again, alone, with any text
behind it, and with what another ASCII text is read as. -/
theorem notation_decodable (s : String) (ascii : ∀ c ∈ s.toList, c.toNat < 0x80) :
    (s ≠ "" → readSome? s = .ok (ofText s)) ∧
      (∀ t : String, ofText (textAll (ofText s) ++ t) = ofText s ++ ofText t ∧
        (textAll (ofText s) ++ t ≠ "" →
          readSome? (textAll (ofText s) ++ t) = .ok (ofText s ++ ofText t))) ∧
      ofText (textAll (ofText s)) = ofText s ∧
      ∀ more : String, (∀ c ∈ more.toList, c.toNat < 0x80) →
        ofText (textAll (ofText s) ++ textAll (ofText more)) = ofText s ++ ofText more := by
  refine ⟨readSome?_of_ne_empty, fun t => ?_, ofText_textAll ascii, fun more asciiMore => ?_⟩
  · have joined := ofText_textAll_append ascii t
    exact ⟨joined, fun nonempty => joined ▸ readSome?_of_ne_empty nonempty⟩
  · rw [ofText_textAll_append ascii, ofText_textAll asciiMore]

theorem mixture_decodable :
    (∀ c ∈ "<c-S-?><C-\\>< <F05><s-tAB><C-A-4>".toList, c.toNat < 0x80) ∧
      textAll (ofText "<c-S-?><C-\\>< <F05><s-tAB><C-A-4>")
        = "<BS><C-\\><lt><Space><F5><S-Tab><C-A-\\>" ∧
      ofText ("<BS><C-\\><lt><Space><F5><S-Tab><C-A-\\>" ++ "é<")
        = ofText "<c-S-?><C-\\>< <F05><s-tAB><C-A-4>" ++ ofText "é<" := by
  have all : "<c-S-?><C-\\>< <F05><s-tAB><C-A-4>".toList.all (·.toNat < 0x80) = true := by decide
  have ascii : ∀ c ∈ "<c-S-?><C-\\>< <F05><s-tAB><C-A-4>".toList, c.toNat < 0x80 := fun c among =>
    of_decide_eq_true (List.all_eq_true.mp all c among)
  have typed : textAll (ofText "<c-S-?><C-\\>< <F05><s-tAB><C-A-4>")
      = "<BS><C-\\><lt><Space><F5><S-Tab><C-A-\\>" := by decide +kernel
  exact ⟨ascii, typed, typed ▸ ((notation_decodable _ ascii).2.1 "é<").1⟩

end Key

end ModalInput
