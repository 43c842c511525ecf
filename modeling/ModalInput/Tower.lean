/-
# ModalInput.Tower -- counts compared from the highest rank down

Some processes replace one thing by any number of things of lower rank.  They
end, although no number that is known at the start bounds their steps: compare
the number of things of the highest rank first, then of the next, and in the end
two numbers that pace the steps in between.  A `Tower` holds these numbers; in
its order (`Tower.Lower`) nothing goes down for ever (`Tower.lower_wf`), and two
lemmas say what goes down.
-/

namespace ModalInput

set_option autoImplicit false

/-- A number for each of `n` ranks, the highest first, and two more. -/
def Tower : Nat → Type
  | 0 => Nat × Nat
  | n + 1 => Nat × Tower n

namespace Tower

/-- The order in which the first difference decides. -/
def Lower : (n : Nat) → Tower n → Tower n → Prop
  | 0 => Prod.Lex (· < ·) (· < ·)
  | n + 1 => Prod.Lex (· < ·) (Lower n)

theorem lower_wf : ∀ n, WellFounded (Lower n)
  | 0 => (Prod.lex Nat.lt_wfRel Nat.lt_wfRel).wf
  | n + 1 => (Prod.lex Nat.lt_wfRel ⟨Lower n, lower_wf n⟩).wf

instance (n : Nat) : WellFoundedRelation (Tower n) := ⟨Lower n, lower_wf n⟩

/-- The tower of the numbers for each rank and of the two at its foot. -/
def of (counts : Nat → Nat) (foot : Nat × Nat) : (n : Nat) → Tower n
  | 0 => foot
  | n + 1 => (counts n, of counts foot n)

/-- No rank gains, and the foot goes down. -/
theorem lt_of_foot {counts counts' : Nat → Nat} {foot foot' : Nat × Nat}
    (lower : foot'.1 < foot.1 ∨ foot'.1 = foot.1 ∧ foot'.2 < foot.2) :
    ∀ n, (∀ k, k < n → counts' k ≤ counts k) →
      Lower n (of counts' foot' n) (of counts foot n)
  | 0, _ => by
      show Prod.Lex _ _ foot' foot
      obtain ⟨a, b⟩ := foot
      obtain ⟨a', b'⟩ := foot'
      rcases lower with first | ⟨same, second⟩
      · exact Prod.Lex.left _ _ first
      · simp only at same second
        subst same
        exact Prod.Lex.right _ second
  | n + 1, bounded => by
      show Prod.Lex _ _ (counts' n, of counts' foot' n) (counts n, of counts foot n)
      have below := lt_of_foot lower n fun k small => bounded k (by omega)
      rcases Nat.lt_or_eq_of_le (bounded n (by omega)) with less | same
      · exact Prod.Lex.left _ _ less
      · rw [same]; exact Prod.Lex.right _ below

/-- One rank loses, and none above it gains. -/
theorem lt_of_rank {counts counts' : Nat → Nat} {foot foot' : Nat × Nat} (rank : Nat)
    (less : counts' rank < counts rank) :
    ∀ n, rank < n → (∀ k, rank < k → k < n → counts' k ≤ counts k) →
      Lower n (of counts' foot' n) (of counts foot n)
  | 0, impossible, _ => absurd impossible (Nat.not_lt_zero _)
  | n + 1, inside, bounded => by
      show Prod.Lex _ _ (counts' n, of counts' foot' n) (counts n, of counts foot n)
      by_cases top : rank = n
      · subst top; exact Prod.Lex.left _ _ less
      · have below : Lower n (of counts' foot' n) (of counts foot n) :=
          lt_of_rank rank less n (by omega) fun k above small => bounded k above (by omega)
        rcases Nat.lt_or_eq_of_le (bounded n (by omega) (by omega)) with fewer | same
        · exact Prod.Lex.left _ _ fewer
        · rw [same]; exact Prod.Lex.right _ below

end Tower

end ModalInput
