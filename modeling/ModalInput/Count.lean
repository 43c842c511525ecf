/-
# ModalInput.Count -- the repeat count of a command

A count is a 64-bit number that stops at its largest value instead of wrapping.
Zero means that no count was typed, which most commands read as one.

* `pushDigit` -- one more typed digit.
* `compose` -- the count of an operator with that of its motion: the product, a
  missing one standing for 1, except that two missing counts stay missing.
* `atLeastOne` -- the number of repetitions.
-/

namespace ModalInput

set_option autoImplicit false

/-- A number up to `2 ^ 64 - 1`; 0 when none was typed. -/
structure Count where
  toNat : Nat
  toNat_lt : toNat < 0x10000000000000000 := by omega
  deriving DecidableEq, Repr

namespace Count

theorem ext {a b : Count} (same : a.toNat = b.toNat) : a = b := by
  cases a; cases b; simp_all

/-- The largest count. -/
def limit : Nat := 0xffffffffffffffff

/-- The count nearest to a number: the number itself, or the largest count. -/
def ofNat (n : Nat) : Count where
  toNat := min n limit
  toNat_lt := by simp only [limit]; omega

instance (n : Nat) : OfNat Count n := ⟨ofNat n⟩
instance : Inhabited Count := ⟨0⟩

@[simp] theorem toNat_ofNat (n : Nat) : (ofNat n).toNat = min n limit := rfl
@[simp] theorem toNat_zero : (0 : Count).toNat = 0 := rfl
@[simp] theorem toNat_one : (1 : Count).toNat = 1 := rfl

theorem toNat_le (c : Count) : c.toNat ≤ limit := by
  have := c.toNat_lt; simp only [limit]; omega

/-- Append a typed digit. -/
def pushDigit (c : Count) (digit : Nat) : Count := ofNat (c.toNat * 10 + digit)

/-- The repetitions a count asks for: a missing count asks for one. -/
def atLeastOne (c : Count) : Count := ofNat (max c.toNat 1)

/-- An operator's count with its motion's, so that a doubled operator over a
tripled motion covers six. -/
def compose (outer inner : Count) : Count :=
  if outer.toNat = 0 ∧ inner.toNat = 0 then 0
  else ofNat (max outer.toNat 1 * max inner.toNat 1)

/-- Nothing is shown for a count that was not typed. -/
def text (c : Count) : String := if c.toNat = 0 then "" else toString c.toNat

end Count

end ModalInput
