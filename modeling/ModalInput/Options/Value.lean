/-
# ModalInput.Options.Value -- the values of options, and how they are combined

An option holds a text, a 64-bit number, or a toggle.  Some texts are lists with
commas between their tokens.  A value can be given outright or combined with the
one that is there: numbers add, multiply and subtract and stop at their limits,
lists gain a token at either end or lose a run of tokens, other texts are put
together or lose every occurrence of a piece.

* `OptionValue.combine?` -- the combined value; none for values that do not go
  together.
* `OptionNumber.read?` -- a number as it is typed: decimal, or hexadecimal after
  `0x`, each with signs.
-/
import ModalInput.Text.Digits
import ModalInput.Text.Fields

namespace ModalInput

set_option autoImplicit false

/-- An editing context, which can have values of its own. -/
structure EditorId where
  number : Nat
  deriving DecidableEq, Repr, Inhabited

/-- Where a value is read or written. -/
inductive OptionScope where
  | everywhere
  /-- As seen from one editor. -/
  | editor (id : EditorId)
  deriving DecidableEq, Repr

/-- Which values an option has. -/
inductive ScopeKind where
  /-- One for all editors. -/
  | shared
  /-- One for each editor; the shared one is what an editor starts with. -/
  | perEditor
  /-- A shared one, which an editor can override. -/
  | overridable
  deriving DecidableEq, Repr, Inhabited

inductive OptionValue where
  | text (s : String)
  | number (n : Int64)
  | toggle (on : Bool)
  deriving DecidableEq, Repr

namespace OptionValue

def text? : OptionValue → Option String
  | .text s => some s
  | _ => none

def number? : OptionValue → Option Int64
  | .number n => some n
  | _ => none

def toggle? : OptionValue → Option Bool
  | .toggle on => some on
  | _ => none

/-- The value as it is shown; a toggle is 1 or 0. -/
def shown : OptionValue → String
  | .text s => s
  | .number n => toString n.toInt
  | .toggle on => if on then "1" else "0"

end OptionValue

namespace OptionNumber

def least : Int := -0x8000000000000000
def greatest : Int := 0x7fffffffffffffff

/-- The 64-bit number nearest to a number. -/
def saturated (n : Int) : Int64 := Int64.ofInt (max least (min n greatest))

/-- The number itself, if it has 64 bits. -/
def inRange? (n : Int) : Option Int64 :=
  if least ≤ n ∧ n ≤ greatest then some (Int64.ofInt n) else none

/-- Digits after an optional sign. -/
def readSigned? (base : Nat) : List Char → Option Int
  | '-' :: digits => (Text.digits? base digits).map fun n => -(n : Int)
  | '+' :: digits => (Text.digits? base digits).map Int.ofNat
  | digits => (Text.digits? base digits).map Int.ofNat

/-- A number without the minus sign that can stand before all of it. -/
def readUnnegated? : List Char → Option Int
  | '0' :: 'x' :: digits => readSigned? 16 digits
  | '0' :: 'X' :: digits => readSigned? 16 digits
  | digits => readSigned? 10 digits

/-- A number as it is typed.  A minus sign in front negates what follows, which
has to have 64 bits itself.  To negate the least number overflows: a text that asks
for it, such as `--9223372036854775808`, is refused here, while a program may stop
there, or wrap around to the least number. -/
def read? (s : List Char) : Option Int64 :=
  match s with
  | '-' :: rest => ((readUnnegated? rest).bind inRange?).bind fun n => inRange? (-n.toInt)
  | _ => (readUnnegated? s).bind inRange?

end OptionNumber

/-- How a typed value meets the one that is there. -/
inductive SetOperation where
  | assign
  /-- Append to a text, or add to a number. -/
  | append
  /-- Put in front of a text, or multiply a number. -/
  | prepend
  /-- Remove from a text, or subtract from a number. -/
  | remove
  deriving DecidableEq, Repr

/-- The operation as it is typed. -/
def SetOperation.symbol : SetOperation → String
  | .assign => "="
  | .append => "+="
  | .prepend => "^="
  | .remove => "-="

namespace TextOption

/-- The tokens of a text: all of it, unless it is a list. -/
def split (list : Bool) (s : List Char) : List (List Char) :=
  if list then Text.fields ',' s else [s]

/-- Two texts together; in a list a comma goes between them when the first is
not empty. -/
def join (list : Bool) (first second : List Char) : List Char :=
  if list && !first.isEmpty then first ++ ',' :: second else first ++ second

/-- The list without the first occurrence of a run. -/
def removeRun {α : Type} [DecidableEq α] (run : List α) : List α → List α
  | [] => []
  | token :: rest =>
      if run.isPrefixOf (token :: rest) then (token :: rest).drop run.length
      else token :: removeRun run rest

/-- The text without the occurrences of a piece, taken from the left. -/
def without (piece : List Char) (s : List Char) : List Char :=
  match s with
  | [] => []
  | c :: rest =>
      if piece.isPrefixOf (c :: rest) ∧ piece ≠ [] then without piece (rest.drop (piece.length - 1))
      else c :: without piece rest
termination_by s.length
decreasing_by
  · simp only [List.length_drop, List.length_cons]; omega
  · simp

/-- A text combined with another.  A token that is there already is not added
again. -/
def combine (list : Bool) (operation : SetOperation) (current operand : List Char) : List Char :=
  match operation with
  | .assign => operand
  | .append => if (split list current).contains operand then current else join list current operand
  | .prepend => if (split list current).contains operand then current else join list operand current
  | .remove =>
      if list then Text.joined ',' (removeRun (split list operand) (split list current))
      else without operand current

end TextOption

namespace OptionNumber

/-- A number combined with another. -/
def combine (operation : SetOperation) (current operand : Int64) : Int64 :=
  match operation with
  | .assign => operand
  | .append => saturated (current.toInt + operand.toInt)
  | .prepend => saturated (current.toInt * operand.toInt)
  | .remove => saturated (current.toInt - operand.toInt)

end OptionNumber

/-- A value combined with another; `list` is whether texts are lists. -/
def OptionValue.combine? (list : Bool) (operation : SetOperation) :
    (current operand : OptionValue) → Option OptionValue
  | .number a, .number b => some (.number (OptionNumber.combine operation a b))
  | .text a, .text b =>
      some (.text (String.ofList (TextOption.combine list operation a.toList b.toList)))
  | _, .toggle on => if operation = .assign then some (.toggle on) else none
  | _, _ => none

end ModalInput
