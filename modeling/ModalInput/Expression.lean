/-
# ModalInput.Expression -- expressions of mappings

The target of a mapping can be an expression, which is evaluated each time and
gives keys as they are written.  Evaluation is the business of the editor around
the engine: an `Evaluator` may look at that editor's state and change it, and it
can fail with a reason.

`quotedText` evaluates what every editor can: a text between quotes.
-/
import ModalInput.Text.Blank

namespace ModalInput

set_option autoImplicit false

/-- Evaluates expressions in an editor whose state is a `σ`. -/
abbrev Evaluator (σ : Type) := String → σ → Except String String × σ

namespace Expression

/-- The text between two quotes of one kind that an expression starts and ends
with. -/
def between? (quote : Char) (s : List Char) : Option (List Char) :=
  if s.head? = some quote ∧ s.tail.getLast? = some quote then some s.tail.dropLast else none

/-- A text between quotes stands for itself; anything else fails. -/
def quotedText (s : String) : Except String String :=
  let trimmed := Text.trim s.toList
  match (between? '"' trimmed).or (between? '\'' trimmed) with
  | some text => .ok (String.ofList text)
  | none => .error (String.ofList trimmed)

/-- `quotedText` as an evaluator, which leaves the state alone. -/
def literalOnly {σ : Type} : Evaluator σ := fun s state => (quotedText s, state)

end Expression

end ModalInput
