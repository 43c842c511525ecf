/-
# ModalInput.Key.Reader -- reading keys from their written form

Every text reads as keys: where no name between angle brackets can be read, the
bracket is a character like any other (`readAll`).  Between the brackets stand
modifiers, then a name, a function key or a single character; upper and lower
case mean the same, except for a single character.

* `readBracketed?` -- one key between angle brackets, and the text after it.
* `readOne` -- the first key of a text that is not empty.
* `readAll` -- all keys of a text; `read?` -- a text that is exactly one key.
-/
import ModalInput.Error
import ModalInput.Key.Basic
import ModalInput.Text.Digits

namespace ModalInput.Key

set_option autoImplicit false

/-- Names that can be written between angle brackets, in lower case. -/
def names : List (String × KeyCode) := [
  ("left", .left), ("right", .right), ("up", .up), ("down", .down),
  ("pageup", .pageUp), ("pagedown", .pageDown), ("home", .home), ("end", .lineEnd),
  ("insert", .insert), ("ins", .insert), ("delete", .delete), ("del", .delete),
  ("esc", .escape), ("tab", .tab), ("bs", .backspace), ("backspace", .backspace),
  ("cr", .enter), ("return", .enter), ("enter", .enter),
  ("nl", .char '\n'), ("newline", .char '\n'), ("linefeed", .char '\n'), ("lf", .char '\n'),
  ("nul", .null), ("space", .char ' '), ("bar", .char '|'), ("bslash", .char '\\'),
  ("lt", .char '<'), ("pause", .pause), ("printscreen", .printScreen),
  ("undo", .function 14), ("help", .function 15)]

/-- The code of a name, in any case. -/
def ofName? (name : List Char) : Option KeyCode :=
  names.lookup (String.ofList (name.map Char.toLower))

/-- The modifier that a letter stands for in front of a hyphen. -/
def modifier? (c : Char) : Option Modifiers :=
  match c.toLower with
  | 'a' | 'm' => some .onlyAlt
  | 'c' => some .onlyControl
  | 's' => some .onlyShift
  | _ => none

/-- The modifiers at the front of a text, as many as there are. -/
def readMods : List Char → Modifiers × List Char
  | c :: '-' :: rest =>
      match modifier? c with
      | some m => (m ∪ (readMods rest).1, (readMods rest).2)
      | none => (.none, c :: '-' :: rest)
  | s => (.none, s)

/-- A name, as long as its letters and digits go. -/
def readName? (s : List Char) : Option (KeyCode × List Char) :=
  (ofName? (s.takeWhile Char.isAlphanum)).map fun code => (code, s.dropWhile Char.isAlphanum)

/-- A function key: its letter and a number below 256. -/
def readFunction? : List Char → Option (KeyCode × List Char)
  | c :: rest =>
      let digits := rest.takeWhile Char.isDigit
      if (c = 'F' ∨ c = 'f') ∧ digits ≠ [] then
        if small : Text.decimal digits < 256 then
          some (.function ⟨Text.decimal digits, small⟩, rest.dropWhile Char.isDigit)
        else none
      else none
  | [] => none

/-- What stands between the brackets after the modifiers: the first of a name, a
function key and a single character that can be read. -/
def readCode? (s : List Char) : Option (KeyCode × List Char) :=
  (readName? s).or ((readFunction? s).or
    (match s with
      | c :: rest => some (.char c, rest)
      | [] => none))

/-- A character with the modifiers written before it.  Control ignores case and
Shift, and has keys of their own or another spelling for some characters; Shift
makes a letter upper case. -/
def modified (c : Char) (mods : Modifiers) : Key :=
  if mods.control then
    let mods := { mods with shift := false }
    let alone : Bool := mods = .onlyControl
    match c.toLower, alone with
    | 'i', true => special .tab
    | 'j', true => char '\n'
    | 'm', true => special .enter
    | '[', true => escape
    | '?', _ => special .backspace
    | '\\', _ => of (.char '4') mods
    | ']', _ => of (.char '5') mods
    | '^', _ => of (.char '6') mods
    | '_', _ => of (.char '7') mods
    | '@', _ => of (.char ' ') mods
    | lower, _ => of (.char lower) mods
  else of (.char (if mods.shift then c.toUpper else c)) mods

/-- The key of a code and the modifiers written before it. -/
def ofWritten (code : KeyCode) (mods : Modifiers) : Key :=
  match code with
  | .char c => modified c mods
  | .tab => if mods = .onlyShift then special .backTab else of .tab mods
  | code => of code mods

/-- A key between angle brackets at the front of a text, with the text after it. -/
def readBracketed? : List Char → Option (Key × List Char)
  | '<' :: s =>
      let (mods, s) := readMods s
      match readCode? s with
      | some (code, '>' :: rest) => some (ofWritten code mods, rest)
      | _ => none
  | _ => none

/-- The first key of the text `c :: s`, with the text after it. -/
def readOne (c : Char) (s : List Char) : Key × List Char :=
  (readBracketed? (c :: s)).getD (char c, s)

theorem length_readMods (s : List Char) : (readMods s).2.length ≤ s.length := by
  fun_induction readMods s with
  | case1 c rest m _ ih => simp; omega
  | case2 => simp
  | case3 => simp

theorem length_readCode {s rest : List Char} {code : KeyCode} (read : readCode? s = some (code, rest)) :
    rest.length ≤ s.length := by
  unfold readCode? at read
  have drop (p : Char → Bool) (l : List Char) : (l.dropWhile p).length ≤ l.length :=
    (List.dropWhile_sublist p).length_le
  cases name : readName? s with
  | some found =>
      simp only [name, Option.some_or, Option.some.injEq] at read
      simp only [readName?, Option.map_eq_some_iff] at name
      obtain ⟨_, _, rfl⟩ := name
      cases read
      exact drop _ _
  | none =>
      simp only [name, Option.none_or] at read
      cases function : readFunction? s with
      | some found =>
          simp only [function, Option.some_or, Option.some.injEq] at read
          subst read
          unfold readFunction? at function
          split at function
          · dsimp only at function
            split at function
            · split at function
              · simp only [Option.some.injEq, Prod.mk.injEq] at function
                obtain ⟨_, rfl⟩ := function
                exact Nat.le_trans (drop _ _) (by simp)
              · simp at function
            · simp at function
          · simp at function
      | none =>
          simp only [function, Option.none_or] at read
          split at read
          · simp only [Option.some.injEq, Prod.mk.injEq] at read
            obtain ⟨_, rfl⟩ := read
            simp
          · simp at read

theorem length_readBracketed {s rest : List Char} {key : Key}
    (read : readBracketed? s = some (key, rest)) : rest.length < s.length := by
  unfold readBracketed? at read
  split at read
  · rename_i s
    dsimp only at read
    split at read
    · rename_i code after found
      simp only [Option.some.injEq, Prod.mk.injEq] at read
      obtain ⟨_, rfl⟩ := read
      have := length_readCode found
      have := length_readMods s
      simp_all; omega
    · simp at read
  · simp at read

/-- Reading a key consumes something. -/
theorem length_readOne (c : Char) (s : List Char) : (readOne c s).2.length ≤ s.length := by
  unfold readOne
  cases read : readBracketed? (c :: s) with
  | none => simp
  | some found =>
      have := length_readBracketed read
      simp only [List.length_cons] at this
      simp; omega

/-- The keys of a text. -/
def readAll : List Char → List Key
  | [] => []
  | c :: s => (readOne c s).1 :: readAll (readOne c s).2
termination_by s => s.length
decreasing_by
  have := length_readOne c s
  simp only [List.length_cons]; omega

/-- The keys of a string. -/
def ofText (s : String) : List Key := readAll s.toList

/-- A string that is exactly one key. -/
def read? (s : String) : Except MacroError Key :=
  match ofText s with
  | [] => .error .noKeys
  | [key] => .ok key
  | _ => .error (.notOneKey s)

/-- The keys of a string that has to have some. -/
def readSome? (s : String) : Except MacroError (List Key) :=
  match ofText s with
  | [] => .error .noKeys
  | keys => .ok keys

end ModalInput.Key
