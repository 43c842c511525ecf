/-
# ModalInput.Register -- where text and recorded keys are kept

A register is named by one character.  An upper case letter names the register
of its lower case form and asks that writes be appended (`ofChar?`); `char?`
gives the name back.  Deletions have numbered registers, of which the first nine
have a name.
-/

namespace ModalInput

set_option autoImplicit false

inductive Register where
  | unnamed
  /-- The deletion before the last `age` ones. -/
  | recentlyDeleted (age : Nat)
  | smallDelete
  | lastInserted
  | lastCommand
  | lastSearch
  | lastYanked
  | named (letter : Char)
  | altBufName
  | curBufName
  | blackhole
  | selectionPrimary
  | selectionClipboard
  deriving DecidableEq, Repr, Inhabited

namespace Register

/-- The register that a character names, and whether writes append to it. -/
def ofChar? (c : Char) : Option (Register × Bool) :=
  if c = '0' then some (.lastYanked, false)
  else if '1' ≤ c ∧ c ≤ '9' then some (.recentlyDeleted (c.toNat - '1'.toNat), false)
  else if c.isLower then some (.named c, false)
  else if c.isUpper then some (.named c.toLower, true)
  else match c with
    | '"' => some (.unnamed, false)
    | '-' => some (.smallDelete, false)
    | '#' => some (.altBufName, false)
    | '%' => some (.curBufName, false)
    | '_' => some (.blackhole, false)
    | ':' => some (.lastCommand, false)
    | '/' => some (.lastSearch, false)
    | '.' => some (.lastInserted, false)
    | '*' => some (.selectionPrimary, false)
    | '+' => some (.selectionClipboard, false)
    | _ => none

/-- The character that names a register. -/
def char? (register : Register) (append : Bool) : Option Char :=
  match register with
  | .named letter => some (if append then letter.toUpper else letter)
  | .recentlyDeleted age => if age < 9 then some (Char.ofNat ('1'.toNat + age)) else none
  | .unnamed => some '"'
  | .smallDelete => some '-'
  | .lastCommand => some ':'
  | .lastSearch => some '/'
  | .lastInserted => some '.'
  | .lastYanked => some '0'
  | .altBufName => some '#'
  | .curBufName => some '%'
  | .blackhole => some '_'
  | .selectionPrimary => some '*'
  | .selectionClipboard => some '+'

/-- A register whose contents are ours to set. -/
def isWritable : Register → Bool
  | .altBufName | .curBufName | .lastInserted | .lastCommand => false
  | _ => true

/-- A register that can hold recorded keys. -/
def isRecordable : Register → Bool
  | .named _ | .recentlyDeleted _ | .lastYanked | .unnamed => true
  | _ => false

/-- The register as an error message shows it: its character, and the deletions
without one by their number. -/
def label (register : Register) : String :=
  match register, register.char? false with
  | _, some c => String.singleton c
  | .recentlyDeleted age, none => s!"RecentlyDeleted({age})"
  | _, none => ""

end Register

end ModalInput
