/-
# ModalInput.Proofs.CountProducts -- counts make a product in which 0 is missing

A count of 0 was not typed.  Put together with another count it changes nothing, although
the other one is multiplied by it, and two counts that were typed have their product, cut to
the largest count.  It makes no difference where the product is cut, since a factor that was
typed is at least 1: a product over the limit stays over it, whatever it is multiplied by.
So `compose` is a commutative monoid with the identity 0, in which no typed count gets lost,
and it grows with each of its counts.

* `compose_assoc`, `compose_comm`, `compose_zero` -- the laws of the monoid.
* `compose_eq_zero_iff` -- only missing counts come to a missing count.
* `compose_mono` -- larger counts have no smaller product.
* `toNat_foldl_pushDigit` -- digits come to the number that they are in base 10.
-/
import Mathlib.Data.Nat.Digits.Defs
import ModalInput.Proofs.TypedCounts

namespace ModalInput.Count

set_option autoImplicit false

/-- Counts are compared as numbers. -/
instance : PartialOrder Count := .lift toNat fun _ _ => ext

theorem le_def (a b : Count) : a ≤ b ↔ a.toNat ≤ b.toNat := Iff.rfl

theorem ofNat_toNat (c : Count) : ofNat c.toNat = c := by
  apply ext
  rw [toNat_ofNat]
  exact Nat.min_eq_left c.toNat_le

theorem toNat_pos {c : Count} (typed : c ≠ 0) : 0 < c.toNat :=
  Nat.pos_of_ne_zero fun zero => typed (ext zero)

/-- A count that was typed is the count of a positive number. -/
theorem exists_number {c : Count} (typed : c ≠ 0) : ∃ n, 0 < n ∧ c = ofNat n :=
  ⟨c.toNat, toNat_pos typed, (ofNat_toNat c).symm⟩

/-- The count of a positive number is not a missing one. -/
theorem ofNat_ne_zero {n : Nat} (positive : 0 < n) : ofNat n ≠ 0 := by
  intro zero
  have number := congrArg toNat zero
  simp only [toNat_ofNat, toNat_zero, limit] at number
  omega

/-! ## The monoid -/

/-- Of three counts, the first two or the last two can be put together first. -/
theorem compose_assoc (a b c : Count) : compose (compose a b) c = compose a (compose b c) := by
  by_cases first : a = 0
  · simp [first]
  by_cases second : b = 0
  · simp [second]
  by_cases third : c = 0
  · simp [third]
  -- all three were typed: both sides are the product of the three numbers, cut once
  obtain ⟨l, posL, rfl⟩ := exists_number first
  obtain ⟨m, posM, rfl⟩ := exists_number second
  obtain ⟨n, posN, rfl⟩ := exists_number third
  calc compose (compose (ofNat l) (ofNat m)) (ofNat n)
      = compose (ofNat (l * m)) (ofNat n) := by rw [compose_ofNat posL posM]
    _ = ofNat (l * m * n) := compose_ofNat (Nat.mul_pos posL posM) posN
    _ = ofNat (l * (m * n)) := by rw [Nat.mul_assoc]
    _ = compose (ofNat l) (ofNat (m * n)) := (compose_ofNat posL (Nat.mul_pos posM posN)).symm
    _ = compose (ofNat l) (compose (ofNat m) (ofNat n)) := by rw [compose_ofNat posM posN]

/-- Counts come to a missing one only if all of them are missing. -/
theorem compose_eq_zero_iff (a b : Count) : compose a b = 0 ↔ a = 0 ∧ b = 0 := by
  constructor
  · intro missing
    by_cases first : a = 0
    · rw [first, zero_compose] at missing
      exact ⟨first, missing⟩
    by_cases second : b = 0
    · rw [second, compose_zero] at missing
      exact ⟨missing, second⟩
    obtain ⟨m, posM, rfl⟩ := exists_number first
    obtain ⟨n, posN, rfl⟩ := exists_number second
    rw [compose_ofNat posM posN] at missing
    exact absurd missing (ofNat_ne_zero (Nat.mul_pos posM posN))
  · rintro ⟨rfl, rfl⟩
    exact compose_zero 0

/-! ## Order -/

/-- The product of two counts, one of which was typed. -/
theorem toNat_compose {a b : Count} (typed : ¬ (a = 0 ∧ b = 0)) :
    (compose a b).toNat = min (max a.toNat 1 * max b.toNat 1) limit := by
  have some : ¬ (a.toNat = 0 ∧ b.toNat = 0) := fun zero => typed ⟨ext zero.1, ext zero.2⟩
  rw [compose, if_neg some, toNat_ofNat]

theorem compose_mono {a a' b b' : Count} (first : a ≤ a') (second : b ≤ b') :
    compose a b ≤ compose a' b' := by
  rw [le_def] at first second ⊢
  by_cases missing : a = 0 ∧ b = 0
  · obtain ⟨rfl, rfl⟩ := missing
    exact Nat.zero_le _
  · have missing' : ¬ (a' = 0 ∧ b' = 0) := by
      rintro ⟨rfl, rfl⟩
      rw [toNat_zero] at first second
      exact missing ⟨ext (by rw [toNat_zero]; omega), ext (by rw [toNat_zero]; omega)⟩
    have factors : max a.toNat 1 * max b.toNat 1 ≤ max a'.toNat 1 * max b'.toNat 1 :=
      Nat.mul_le_mul (by omega) (by omega)
    rw [toNat_compose missing, toNat_compose missing']
    omega

/-! ## Digits -/

/-- Digits one after the other, first the highest: their number, or the largest count. -/
theorem toNat_foldl_pushDigit (digits : List Nat) :
    (digits.foldl pushDigit 0).toNat = min (Nat.ofDigits 10 digits.reverse) limit := by
  have number : digits.foldl (fun n digit => n * 10 + digit) 0 = Nat.ofDigits 10 digits.reverse := by
    rw [Nat.ofDigits_eq_foldr, List.foldr_reverse]
    congr 1
    funext n digit
    simp only [Nat.cast_id]
    omega
  rw [← number]
  exact congrArg toNat (foldl_pushDigit_ofNat digits 0)

/-- Counts are a commutative monoid with the identity 0, in which only missing counts come to
a missing one, and its product grows with each count; digits that are typed come to their
decimal number, or to the largest count. -/
theorem compose_monoid :
    (∀ a b c : Count, compose (compose a b) c = compose a (compose b c)) ∧
      (∀ a b : Count, compose a b = compose b a) ∧
      (∀ a : Count, compose a 0 = a ∧ compose 0 a = a) ∧
      (∀ a b : Count, compose a b = 0 ↔ a = 0 ∧ b = 0) ∧
      (∀ a : Count, Monotone (compose a) ∧ Monotone fun b => compose b a) ∧
      ∀ digits : List Nat, (digits.foldl pushDigit 0).toNat =
        min 0xffffffffffffffff (Nat.ofDigits 10 digits.reverse) := by
  refine ⟨compose_assoc, compose_comm, fun a => ⟨compose_zero a, zero_compose a⟩,
    compose_eq_zero_iff, ?_, ?_⟩
  · intro a
    exact ⟨fun _ _ more => compose_mono (le_refl a) more,
      fun _ _ more => compose_mono more (le_refl a)⟩
  · intro digits
    rw [toNat_foldl_pushDigit, Nat.min_comm]
    rfl

end ModalInput.Count
