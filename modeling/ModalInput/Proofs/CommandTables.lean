/-
# ModalInput.Proofs.CommandTables -- what a table answers, by the bindings in it

Command tables are changed while an editor runs: keys are bound in some modes, and taken
out again.  Whatever was done to a table, no key in it leads to nothing (`Made.trimmed`).
So what it answers about typed keys follows from its bindings alone: nothing starts with
them (`Made.lookup_eq_unmapped_iff`), or they are bound and no other binding is in the way
(`BoundApart.lookup`), or they are the start of such keys (`BoundApart.lookup_front`).
-/
import ModalInput.Proofs.InsertTyping

namespace ModalInput.CommandKeys

set_option autoImplicit false

/-- A table in which keys were bound, and which keys were taken out of. -/
inductive Made : CommandKeys → Prop where
  | empty : Made .empty
  | bind {keys : CommandKeys} (made : Made keys) (modes : MappedModes) (sequence : List Key)
      (action : Action) : Made (keys.bind modes sequence action)
  | remove {keys : CommandKeys} (made : Made keys) (modes : MappedModes) (sequence : String) :
      Made (keys.remove modes sequence)

theorem trimmed_remove {keys : CommandKeys} (trimmed : keys.table.Trimmed) (modes : MappedModes)
    (sequence : String) : (keys.remove modes sequence).table.Trimmed := by
  have each (list : List MapMode) (table : KeyTable MapMode Key Action)
      (trimmed : table.Trimmed) :
      (list.foldl (fun table mode => table.remove mode (Key.ofText sequence)) table).Trimmed := by
    induction list generalizing table with
    | nil => exact trimmed
    | cons first rest ih => exact ih _ (trimmed.remove first _)
  exact each modes.toList keys.table trimmed

theorem Made.trimmed {keys : CommandKeys} (made : keys.Made) : keys.table.Trimmed := by
  induction made with
  | empty => exact KeyTable.trimmed_empty
  | bind made modes sequence action ih => exact trimmed_bind ih modes sequence action
  | remove made modes sequence ih => exact trimmed_remove ih modes sequence

theorem made_default : Made .default := by
  have each (rows : List Binding) (keys : CommandKeys) (made : keys.Made) :
      (rows.foldl (fun keys row => keys.bind row.modes (Key.ofText row.keys) row.action)
        keys).Made := by
    induction rows generalizing keys with
    | nil => exact made
    | cons first rest ih => exact ih _ (made.bind _ _ _)
  exact each defaultBindings .empty .empty

section Lookups

variable {keys : CommandKeys} (made : keys.Made) {mode : MapMode}
include made

/-- Nothing is known of keys that no binding starts with. -/
theorem Made.lookup_eq_unmapped_iff {typed : List Key} :
    keys.lookup mode typed = .unmapped ↔
      ∀ sequence, (keys.table.get? mode sequence).isSome = true → ¬ typed <+: sequence := by
  constructor
  · rintro unmapped sequence bound ⟨rest, rfl⟩
    rw [lookup] at unmapped
    cases rest with
    | nil =>
        rw [List.append_nil, ← KeyTable.value?_lookup, unmapped] at bound
        cases bound
    | cons key rest =>
        have more := (made.trimmed.needsMore_lookup mode typed).mpr ⟨key, rest, bound⟩
        rw [unmapped] at more
        cases more
  · intro nothing
    have unbound : keys.table.get? mode typed = none := by
      cases found : keys.table.get? mode typed with
      | none => rfl
      | some action => exact absurd List.prefix_rfl (nothing typed (by rw [found]; rfl))
    have ends : ¬ KeyTable.Continues keys.table.get? mode typed := by
      rintro ⟨key, rest, bound⟩
      exact nothing _ bound (List.prefix_append ..)
    have := Classical.dec (KeyTable.Continues keys.table.get? mode typed)
    rw [lookup, made.trimmed.lookup_eq, unbound, decide_eq_false ends]
    rfl

end Lookups

/-! ## Bindings that are in nobody's way -/

/-- The keys are bound, no other keys are bound that they start with, and none that start
with them. -/
structure BoundApart (keys : CommandKeys) (mode : MapMode) (sequence : List Key)
    (action : Action) : Prop where
  bound : keys.table.get? mode sequence = some action
  apart : ∀ other, (keys.table.get? mode other).isSome = true →
    other <+: sequence ∨ sequence <+: other → other = sequence

namespace BoundApart

variable {keys : CommandKeys} {mode : MapMode} {sequence : List Key} {action : Action}
  (bound : keys.BoundApart mode sequence action)
include bound

theorem ne_nil : sequence ≠ [] := by
  rintro rfl
  have nothing := bound.bound
  rw [KeyTable.get?_nil] at nothing
  cases nothing

theorem lookup (made : keys.Made) : keys.lookup mode sequence = .complete action := by
  have ends : ¬ KeyTable.Continues keys.table.get? mode sequence := by
    rintro ⟨key, rest, valued⟩
    have same := bound.apart _ valued (.inr (List.prefix_append ..))
    simp at same
  have := Classical.dec (KeyTable.Continues keys.table.get? mode sequence)
  rw [CommandKeys.lookup, made.trimmed.lookup_eq, bound.bound, decide_eq_false ends]
  rfl

/-- The first of the keys are only the start of longer ones. -/
theorem lookup_front (made : keys.Made) {front rest : List Key} {key : Key}
    (split : sequence = front ++ key :: rest) : keys.lookup mode front = .incomplete := by
  have unbound : keys.table.get? mode front = none := by
    cases found : keys.table.get? mode front with
    | none => rfl
    | some other =>
        have start : front <+: sequence := split ▸ List.prefix_append ..
        have same := bound.apart front (by rw [found]; rfl) (.inl start)
        rw [split] at same
        simp at same
  have continues : KeyTable.Continues keys.table.get? mode front := by
    refine ⟨key, rest, ?_⟩
    rw [← split, bound.bound]
    rfl
  have := Classical.dec (KeyTable.Continues keys.table.get? mode front)
  rw [CommandKeys.lookup, made.trimmed.lookup_eq, unbound, decide_eq_true continues]
  rfl

end BoundApart

end ModalInput.CommandKeys
