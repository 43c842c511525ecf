/-
# ModalInput.Resolver.Weight -- keys that come back weigh less

The command layer may put back what a shorter command did not use, and take a
character with Alt apart into two keys.  With a weight of three for such a
character, what it puts back weighs less than what it took, or the key has joined
those of the command (`commandKey_lighter`).
-/
import ModalInput.Resolver.Quiet

namespace ModalInput

set_option autoImplicit false

/-- The most keys that a key can be put back as, and one more: a character with
Alt comes back as two. -/
def Key.weight (key : Key) : Nat := if key.decompose?.isSome then 3 else 1

def weightOf : List Key → Nat
  | [] => 0
  | key :: rest => key.weight + weightOf rest

namespace Resolver

theorem weightOf_append (front back : List Key) :
    weightOf (front ++ back) = weightOf front + weightOf back := by
  induction front with
  | nil => simp [weightOf]
  | cons key rest ih => simp only [List.cons_append, weightOf, ih]; omega

theorem weightOf_nil : weightOf [] = 0 := rfl

theorem weight_pos (key : Key) : 0 < key.weight := by unfold Key.weight; split <;> omega

variable (options : OptionView)

/-- What a key of some weight does to the command layer: keys that weigh less are
put back, or the key joins those of the command. -/
def Lighter (r r' : Resolver) (weight : Nat) : Prop :=
  r'.trail = r.trail ∧ ∃ back : List Key,
    r'.typeahead = back.map Queued.literal ++ r.typeahead ∧
      (weightOf back + weightOf r'.pending.keys < weightOf r.pending.keys + weight ∨
        back = [] ∧ weightOf r'.pending.keys = weightOf r.pending.keys + weight)

theorem Quiet.lighter {r r' : Resolver} (quiet : Quiet r r') {weight : Nat} (positive : 0 < weight) :
    Lighter r r' weight := by
  refine ⟨quiet.trail, [], by simpa using quiet.typeahead, .inl ?_⟩
  have nothing := weightOf_nil
  rcases quiet.keys with empty | same
  · rw [empty]; omega
  · rw [same]; omega

theorem fireHeld_lighter {r : Resolver} {held : Reached Action} (isHeld : r.pending.held = some held)
    (typed : r.pending.keys ≠ []) :
    (r.fireHeld options).trail = r.trail ∧ ∃ back : List Key,
      (r.fireHeld options).typeahead = back.map Queued.literal ++ r.typeahead ∧
        weightOf back + weightOf (r.fireHeld options).pending.keys < weightOf r.pending.keys := by
  unfold fireHeld
  rw [isHeld]
  dsimp only
  have quiet := Quiet.commandResolved options
    (({ r with pending := { r.pending with held := none, keys := [] } } : Resolver).requeue
      ((r.pending.keys.drop held.length).map .literal)) held.value (r.pending.keys.take held.length)
  refine ⟨quiet.trail, r.pending.keys.drop held.length, quiet.typeahead, ?_⟩
  have gone : (commandResolved options
    (({ r with pending := { r.pending with held := none, keys := [] } } : Resolver).requeue
      ((r.pending.keys.drop held.length).map .literal)) held.value
      (r.pending.keys.take held.length)).pending.keys = [] := by
    rcases quiet.keys with empty | same
    · exact empty
    · exact same
  rw [gone]
  cases keys : r.pending.keys with
  | nil => exact absurd keys typed
  | cons key rest =>
      have split : weightOf ((key :: rest).take held.length) + weightOf ((key :: rest).drop held.length) =
          weightOf (key :: rest) := by rw [← weightOf_append, List.take_append_drop]
      have first : 0 < weightOf ((key :: rest).take held.length) := by
        have := weight_pos key
        simp only [Reached.length, List.take_succ_cons, weightOf]
        omega
      have nothing := weightOf_nil
      omega

theorem unknownKey_lighter (r : Resolver) (key : Key) (_empty : r.pending.keys = []) :
    Lighter r (r.unknownKey options key) key.weight := by
  unfold unknownKey
  split
  · rename_i first second apart
    refine ⟨rfl, [first, second], rfl, .inl ?_⟩
    have heavy : key.weight = 3 := by simp [Key.weight, apart]
    have light : first.weight = 1 ∧ second.weight = 1 := by
      unfold Key.decompose? at apart
      split at apart
      · simp only [Option.some.injEq, Prod.mk.injEq] at apart
        obtain ⟨rfl, rfl⟩ := apart
        constructor
        · rfl
        · simp [Key.weight, Key.decompose?]
      · simp at apart
    show weightOf [first, second] + weightOf r.pending.keys < weightOf r.pending.keys + key.weight
    simp only [weightOf]
    omega
  · split
    · exact (Quiet.complete options _ _).lighter (weight_pos key)
    · exact (Quiet.abort _).lighter (weight_pos key)

/-- Keys that the table does not know: they weigh more than what is put back. -/
theorem unknownKeys_lighter (r : Resolver) (typed : r.pending.keys ≠ []) :
    (r.unknownKeys options).trail = r.trail ∧ ∃ back : List Key,
      (r.unknownKeys options).typeahead = back.map Queued.literal ++ r.typeahead ∧
        (weightOf back + weightOf (r.unknownKeys options).pending.keys < weightOf r.pending.keys ∨
          back = [] ∧ weightOf (r.unknownKeys options).pending.keys = weightOf r.pending.keys) := by
  unfold unknownKeys
  split
  · rename_i isHeld
    obtain ⟨held, isHeld⟩ := Option.isSome_iff_exists.mp isHeld
    obtain ⟨trail, back, queue, less⟩ := fireHeld_lighter options isHeld typed
    exact ⟨trail, back, queue, .inl less⟩
  · dsimp only
    split
    · rename_i key single
      obtain ⟨trail, back, queue, weights⟩ := unknownKey_lighter options
        ({ r with pending := { r.pending with keys := [] } } : Resolver) key rfl
      refine ⟨trail, back, queue, ?_⟩
      rw [single]
      have nothing := weightOf_nil
      have one : weightOf [key] = key.weight := by simp [weightOf]
      rcases weights with less | ⟨empty, equal⟩
      · left; simp only at less; omega
      · right; simp only at equal; exact ⟨empty, by omega⟩
    · refine ⟨rfl, [], by simp [abort, forget, leaveTemporary, emitSteps], .inl ?_⟩
      have nothing := weightOf_nil
      cases keys : r.pending.keys with
      | nil => exact absurd keys typed
      | cons key rest =>
          have := weight_pos key
          simp only [abort, forget, leaveTemporary, emitSteps, weightOf]
          omega

theorem lookUp_lighter (r : Resolver) (typed : r.pending.keys ≠ []) :
    (r.lookUp options).trail = r.trail ∧ ∃ back : List Key,
      (r.lookUp options).typeahead = back.map Queued.literal ++ r.typeahead ∧
        (weightOf back + weightOf (r.lookUp options).pending.keys < weightOf r.pending.keys ∨
          back = [] ∧ weightOf (r.lookUp options).pending.keys = weightOf r.pending.keys) := by
  have positive : 0 < weightOf r.pending.keys := by
    cases keys : r.pending.keys with
    | nil => exact absurd keys typed
    | cons key rest =>
        have := weight_pos key
        simp only [weightOf]; omega
  have nothing := weightOf_nil
  unfold lookUp
  split
  · rename_i action _
    have quiet := Quiet.commandResolved options
      ({ r with pending := { r.pending with held := none, keys := [] } } : Resolver) action
      r.pending.keys
    refine ⟨quiet.trail, [], by simpa using quiet.typeahead, .inl ?_⟩
    rcases quiet.keys with empty | same
    · rw [empty]; omega
    · rw [same]; simp only; omega
  · exact ⟨rfl, [], rfl, .inr ⟨rfl, rfl⟩⟩
  · exact ⟨rfl, [], rfl, .inr ⟨rfl, rfl⟩⟩
  · exact unknownKeys_lighter options r typed

theorem tableKey_lighter (r : Resolver) (key : Key) :
    Lighter r (r.tableKey options key) key.weight := by
  unfold tableKey
  dsimp only
  have nothing := weightOf_nil
  have more : weightOf (r.pending.keys ++ [key]) = weightOf r.pending.keys + key.weight := by
    rw [weightOf_append]; simp [weightOf]
  split
  · have quiet := Quiet.argumentDone options
      ({ r with pending := { r.pending with keys := [], held := none, motionCount := none } } : Resolver)
      (.new .currentLine (r.pending.motionCount.getD 0))
    have positive := weight_pos key
    refine ⟨quiet.trail, [], by simpa using quiet.typeahead, .inl ?_⟩
    rcases quiet.keys with empty | same
    · rw [empty]; omega
    · rw [same]; simp only; omega
  · obtain ⟨trail, back, queue, weights⟩ := lookUp_lighter options
      ({ r with pending := { r.pending with keys := r.pending.keys ++ [key] } } : Resolver) (by simp)
    refine ⟨trail, back, queue, ?_⟩
    simp only [more] at weights
    exact weights

/-- A key in the command layer, while no offsets are awaited. -/
theorem commandKey_lighter (r : Resolver) (key : Key) (noOffsets : r.awaitsOffsets = false) :
    Lighter r (r.commandKey options key) key.weight := by
  have positive := weight_pos key
  unfold commandKey
  split
  · rename_i awaiting awaited
    have quiet : Quiet r ({ r with pending := { r.pending with awaiting := none } } : Resolver) :=
      Quiet.pending r _ rfl
    unfold argumentKey
    split
    · exact (quiet.trans (Quiet.registerKey _ _)).lighter positive
    · exact (quiet.trans (Quiet.characterKey options _ _ _)).lighter positive
    · exact (quiet.trans (Quiet.lineKey options _ _ _ _ _)).lighter positive
    · simp [awaitsOffsets, PendingCommand.awaitsOffsets, awaited] at noOffsets
  · split
    · exact (Quiet.abort r).lighter positive
    · have shown : Quiet r
          ({ r with pending := { r.pending with shown := r.pending.shown ++ [key] } } : Resolver) :=
        Quiet.pending r _ rfl
      have table : Lighter r (tableKey options
          ({ r with pending := { r.pending with shown := r.pending.shown ++ [key] } } : Resolver) key)
          key.weight := tableKey_lighter options _ key
      dsimp only
      split
      · split
        · refine Quiet.lighter (shown.trans (Quiet.pending _ _ ?_)) positive
          unfold PendingCommand.withCurrentCount
          split <;> rfl
        · split
          · exact (shown.trans (Quiet.await _ _)).lighter positive
          · exact table
      · exact table

end Resolver

end ModalInput
