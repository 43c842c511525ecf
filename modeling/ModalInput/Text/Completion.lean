/-
# ModalInput.Text.Completion -- completing a name

The names that start with what was typed, in order, up to a limit.
-/

namespace ModalInput.Text

set_option autoImplicit false

/-- The most names that a completion offers. -/
def completionLimit : Nat := 500

/-- The names that start in one way, in order. -/
def completions (names : List String) (start : String) : List String :=
  ((names.filter start.isPrefixOf).mergeSort fun a b => a ≤ b).take completionLimit

end ModalInput.Text
