/-
# ModalInput.Proofs.Reaction -- what the mapping layer decides about a key

Looking at a key comes to one of three things: keys wait on the trail, a key goes
on to the command layer, or a mapping takes the place of the keys that led to it
(`Outcome`).  Which of them it is depends on the resolver and on the options, and
not on the editor around them: `Reaction` lists the cases with what holds in each.

* `step?_eq_of_reaction`, `exists_reaction` -- a step is the outcome of a reaction,
  and every reaction is a step.
* `endTrail_eq` -- a trail that is finished has one of the same outcomes.
* `process_kept` -- what every step keeps, all steps keep.
* `timeoutExpired_eq` -- the trail first, and then the held command.
-/
import ModalInput.Resolver.Run

namespace ModalInput.Resolver

set_option autoImplicit false

/-- What is to happen once a key was looked at. -/
inductive Outcome where
  /-- Nothing more: keys wait on the trail. -/
  | wait (r : Resolver)
  /-- A key goes on to the command layer. -/
  | pass (r : Resolver) (key : Key)
  /-- A mapping takes the place of its keys. -/
  | replace (r : Resolver) (mapping : Mapping) (lhs : List TrailKey)

/-- A trail that no key extends: the longest mapping on it takes the place of its
keys, and without one the first key goes on. -/
def ending (r : Resolver) : Outcome :=
  match r.trailMatch with
  | some reached =>
      .replace (r.withoutTrail.requeue ((r.trail.drop reached.length).map TrailKey.requeued))
        reached.value (r.trail.take reached.length)
  | none =>
      match r.trail with
      | [] => .wait r
      | first :: rest => .pass (r.withoutTrail.requeue (rest.map TrailKey.requeued)) first.key

/-- The trail with one more key. -/
def extended (r : Resolver) (rest : List Queued) (key : TrailKey) : Resolver :=
  { r with typeahead := rest, trail := r.trail ++ [key] }

/-- What the keys of the trail are, with one more key. -/
def lookupWith (r : Resolver) (key : TrailKey) : Lookup Mapping :=
  r.mappings.lookup (.of r.modes.mode) ((r.trail ++ [key]).map TrailKey.key)

/-- No mapping applies to a key that waits. -/
def exempts (r : Resolver) (queued : Queued) : Prop := queued.depth? = none ∨ r.mapsNext = false

/-- The outcomes of looking at the first key that waits. -/
inductive Reaction (options : OptionView) (r : Resolver) : Outcome → Prop where
  /-- The key joins the trail: only longer sequences are mapped. -/
  | joins {key : Key} {depth : Nat} {rest : List Queued}
      (queue : r.typeahead = .mappable key depth :: rest) (maps : r.mapsNext = true)
      (found : r.lookupWith ⟨key, depth⟩ = .incomplete) :
      Reaction options r (.wait (r.extended rest ⟨key, depth⟩))
  /-- The trail is mapped, and a longer sequence as well. -/
  | reaches {key : Key} {depth : Nat} {rest : List Queued} {mapping : Mapping}
      (queue : r.typeahead = .mappable key depth :: rest) (maps : r.mapsNext = true)
      (found : r.lookupWith ⟨key, depth⟩ = .ambiguous mapping)
      (waits : options.isOn OptionName.timeout = true) :
      Reaction options r (.wait { r.extended rest ⟨key, depth⟩ with
        trailMatch := some ⟨mapping, r.trail.length⟩ })
  /-- The trail is mapped, and nothing longer is waited for. -/
  | completes {key : Key} {depth : Nat} {rest : List Queued} {mapping : Mapping}
      (queue : r.typeahead = .mappable key depth :: rest) (maps : r.mapsNext = true)
      (found : r.lookupWith ⟨key, depth⟩ = .complete mapping ∨
        r.lookupWith ⟨key, depth⟩ = .ambiguous mapping ∧ options.isOn OptionName.timeout = false) :
      Reaction options r
        (.replace (r.extended rest ⟨key, depth⟩).withoutTrail mapping (r.trail ++ [⟨key, depth⟩]))
  /-- No mapping starts with the trail and the key. -/
  | overshoots {key : Key} {depth : Nat} {rest : List Queued}
      (queue : r.typeahead = .mappable key depth :: rest) (maps : r.mapsNext = true)
      (found : r.lookupWith ⟨key, depth⟩ = .unmapped) :
      Reaction options r (r.extended rest ⟨key, depth⟩).ending
  /-- A key that no mapping applies to goes on at once. -/
  | passes {queued : Queued} {rest : List Queued} (queue : r.typeahead = queued :: rest)
      (exempt : r.exempts queued) (empty : r.trail = []) :
      Reaction options r (.pass { r with typeahead := rest } queued.key)
  /-- A key that no mapping applies to waits until the trail is finished. -/
  | finishes {queued : Queued} {rest : List Queued} (queue : r.typeahead = queued :: rest)
      (exempt : r.exempts queued) (typed : r.trail ≠ []) :
      Reaction options r r.ending

variable {σ : Type} (options : OptionView) (evaluate : Evaluator σ)

/-- What an outcome leads to. -/
def Outcome.run (world : σ) : Outcome → Resolver × σ
  | .wait r => (r, world)
  | .pass r key => (commandKey options r key, world)
  | .replace r mapping lhs => expand options evaluate r world mapping lhs

theorem endTrail_eq (r : Resolver) (world : σ) :
    endTrail options evaluate r world = r.ending.run options evaluate world := by
  unfold endTrail ending
  cases r.trailMatch with
  | some reached => rfl
  | none => cases r.trail <;> rfl

theorem passKey_reaction {r : Resolver} {queued : Queued} {rest : List Queued}
    (queue : r.typeahead = queued :: rest) (exempt : r.exempts queued) (world : σ) :
    ∃ outcome, Reaction options r outcome ∧
      passKey options evaluate { r with typeahead := rest } world queued =
        outcome.run options evaluate world := by
  unfold passKey
  split
  · rename_i empty
    exact ⟨_, .passes queue exempt (by simpa using empty), rfl⟩
  · rename_i typed
    have same : ({ r with typeahead := rest } : Resolver).requeue [queued] = r := by
      simp [requeue, ← queue]
    rw [same, endTrail_eq]
    exact ⟨_, .finishes queue exempt (by simpa using typed), rfl⟩

theorem extendTrail_reaction {r : Resolver} {key : Key} {depth : Nat} {rest : List Queued}
    (queue : r.typeahead = .mappable key depth :: rest) (maps : r.mapsNext = true) (world : σ) :
    ∃ outcome, Reaction options r outcome ∧
      extendTrail options evaluate { r with typeahead := rest } world ⟨key, depth⟩ =
        outcome.run options evaluate world := by
  unfold extendTrail
  dsimp only
  split
  · rename_i mapping found
    exact ⟨_, .completes queue maps (.inl found), rfl⟩
  · rename_i mapping found
    split
    · rename_i waits
      refine ⟨_, .reaches queue maps found waits, ?_⟩
      simp [Outcome.run, extended]
    · rename_i fires
      exact ⟨_, .completes queue maps (.inr ⟨found, by simpa using fires⟩), rfl⟩
  · rename_i found
    exact ⟨_, .joins queue maps found, rfl⟩
  · rename_i found
    exact ⟨_, .overshoots queue maps found, endTrail_eq options evaluate _ _⟩

theorem mapKey_reaction {r : Resolver} {queued : Queued} {rest : List Queued}
    (queue : r.typeahead = queued :: rest) (world : σ) :
    ∃ outcome, Reaction options r outcome ∧
      mapKey options evaluate { r with typeahead := rest } world queued =
        outcome.run options evaluate world := by
  cases queued with
  | literal key => exact passKey_reaction options evaluate queue (.inl rfl) world
  | mappable key depth =>
      unfold mapKey
      dsimp only
      split
      · rename_i maps
        exact extendTrail_reaction options evaluate queue maps world
      · rename_i unmapped
        have exempt : r.exempts (.mappable key depth) := .inr (by simpa [mapsNext] using unmapped)
        exact passKey_reaction options evaluate queue exempt world

/-- A step is the outcome of a reaction. -/
theorem exists_reaction {r : Resolver} {world : σ} {next : Resolver × σ}
    (stepped : step? options evaluate r world = some next) :
    r.awaitsOffsets = false ∧
      ∃ outcome, Reaction options r outcome ∧ next = outcome.run options evaluate world := by
  unfold step? at stepped
  split at stepped
  · cases stepped
  · rename_i noOffsets
    split at stepped
    · cases stepped
    · rename_i queued rest queue
      obtain ⟨outcome, reaction, same⟩ := mapKey_reaction options evaluate queue world
      exact ⟨by simpa using noOffsets, outcome, reaction, by rw [← same]; cases stepped; rfl⟩

theorem step?_eq_passKey {r : Resolver} {queued : Queued} {rest : List Queued}
    (queue : r.typeahead = queued :: rest) (noOffsets : r.awaitsOffsets = false)
    (exempt : r.exempts queued) (world : σ) :
    step? options evaluate r world =
      some (passKey options evaluate { r with typeahead := rest } world queued) := by
  have looked : mapKey options evaluate { r with typeahead := rest } world queued =
      passKey options evaluate { r with typeahead := rest } world queued := by
    unfold mapKey
    split
    · rfl
    · rcases exempt with literal | unmapped
      · simp [Queued.depth?] at literal
      · exact if_neg (by simpa [mapsNext] using unmapped)
  simp only [step?, noOffsets, queue, looked, Bool.false_eq_true, if_false]

theorem step?_eq_extendTrail {r : Resolver} {key : Key} {depth : Nat} {rest : List Queued}
    (queue : r.typeahead = .mappable key depth :: rest) (noOffsets : r.awaitsOffsets = false)
    (maps : r.mapsNext = true) (world : σ) :
    step? options evaluate r world = some (extendTrail options evaluate
      ({ r with typeahead := rest } : Resolver) world ⟨key, depth⟩) := by
  have looked : mapKey options evaluate { r with typeahead := rest } world (.mappable key depth) =
      extendTrail options evaluate { r with typeahead := rest } world ⟨key, depth⟩ := if_pos maps
  simp only [step?, noOffsets, queue, looked, Bool.false_eq_true, if_false]

/-- Every reaction is a step. -/
theorem step?_eq_of_reaction {r : Resolver} {outcome : Outcome}
    (reaction : Reaction options r outcome) (noOffsets : r.awaitsOffsets = false) (world : σ) :
    step? options evaluate r world = some (outcome.run options evaluate world) := by
  cases reaction with
  | joins queue maps found =>
      rw [step?_eq_extendTrail options evaluate queue noOffsets maps, extendTrail]
      dsimp only [lookupWith] at found ⊢
      rw [found]
      rfl
  | reaches queue maps found waits =>
      rw [step?_eq_extendTrail options evaluate queue noOffsets maps, extendTrail]
      dsimp only [lookupWith] at found ⊢
      rw [found]
      simp [waits, Outcome.run, extended]
  | completes queue maps found =>
      rw [step?_eq_extendTrail options evaluate queue noOffsets maps, extendTrail]
      dsimp only [lookupWith] at found ⊢
      rcases found with complete | ⟨ambiguous, fires⟩
      · rw [complete]
        rfl
      · rw [ambiguous]
        simp only [fires, Bool.false_eq_true, if_false]
        rfl
  | overshoots queue maps found =>
      rw [step?_eq_extendTrail options evaluate queue noOffsets maps, extendTrail]
      dsimp only [lookupWith] at found ⊢
      rw [found]
      exact congrArg some (endTrail_eq options evaluate _ _)
  | passes queue exempt empty =>
      rw [step?_eq_passKey options evaluate queue noOffsets exempt, passKey,
        if_pos (by simp [empty])]
      rfl
  | @finishes queued rest queue exempt typed =>
      have same : ({ r with typeahead := rest } : Resolver).requeue [queued] = r := by
        simp [requeue, ← queue]
      rw [step?_eq_passKey options evaluate queue noOffsets exempt, passKey,
        if_neg (by simpa using typed), same, endTrail_eq]

/-- A key that no mapping applies to goes on, while there is no trail. -/
theorem step?_literal {r : Resolver} {key : Key} {rest : List Queued}
    (queue : r.typeahead = .literal key :: rest) (empty : r.trail = [])
    (noOffsets : r.awaitsOffsets = false) (world : σ) :
    step? options evaluate r world =
      some (commandKey options { r with typeahead := rest } key, world) :=
  step?_eq_of_reaction options evaluate (.passes queue (.inl rfl) empty) noOffsets world

/-- So does every key while no mapping starts with it. -/
theorem step?_unmapped {r : Resolver} {queued : Queued} {rest : List Queued}
    (queue : r.typeahead = queued :: rest) (empty : r.trail = []) (free : r.trailMatch = none)
    (unmapped : ∀ key, r.lookupWith key = .unmapped) (noOffsets : r.awaitsOffsets = false)
    (world : σ) :
    step? options evaluate r world =
      some (commandKey options { r with typeahead := rest } queued.key, world) := by
  by_cases exempt : r.exempts queued
  · exact step?_eq_of_reaction options evaluate (.passes queue exempt empty) noOffsets world
  · obtain ⟨mapped, maps⟩ : queued.depth? ≠ none ∧ r.mapsNext = true := by
      simpa [exempts] using exempt
    cases queued with
    | literal key => exact absurd rfl mapped
    | mappable key depth =>
        have ends : (r.extended rest ⟨key, depth⟩).ending =
            .pass { r with typeahead := rest } key := by
          simp [ending, extended, withoutTrail, requeue, empty, free]
        have step := step?_eq_of_reaction options evaluate
          (.overshoots queue maps (unmapped ⟨key, depth⟩)) noOffsets world
        rw [ends] at step
        exact step

/-- What every step keeps, all steps keep. -/
theorem process_kept {P : Resolver → Prop}
    (kept : ∀ r world next, P r → step? options evaluate r world = some next → P next.1)
    (r : Resolver) (world : σ) (holds : P r) : P (process options evaluate r world).1 := by
  fun_induction process options evaluate r world with
  | case1 r world stopped => exact holds
  | case2 r world next stepped ih => exact ih (kept r world next holds stepped)

/-- All keys have been looked at, or offsets are awaited. -/
theorem step?_process (r : Resolver) (world : σ) :
    step? options evaluate (process options evaluate r world).1
      (process options evaluate r world).2 = none := by
  fun_induction process options evaluate r world with
  | case1 r world stopped => exact stopped
  | case2 r world next stepped ih => exact ih

/-- Where the keys have led after some of them were looked at. -/
def lookedAt (s : Resolver × σ) : Nat → Resolver × σ
  | 0 => s
  | looks + 1 =>
      match step? options evaluate s.1 s.2 with
      | none => s
      | some next => lookedAt next looks

theorem process_of_step {r : Resolver} {world : σ} {next : Resolver × σ}
    (stepped : step? options evaluate r world = some next) :
    process options evaluate r world = process options evaluate next.1 next.2 := by
  rw [process]
  split
  · rename_i settled
    rw [settled] at stepped
    cases stepped
  · rename_i next' stepped'
    rw [stepped] at stepped'
    cases stepped'
    rfl

theorem process_of_settled {r : Resolver} {world : σ}
    (settled : step? options evaluate r world = none) :
    process options evaluate r world = (r, world) := by
  rw [process]
  split
  · rfl
  · rename_i next stepped
    rw [settled] at stepped
    cases stepped

/-- There is no key to look at, or offsets are awaited first. -/
theorem step?_eq_none_iff (r : Resolver) (world : σ) :
    step? options evaluate r world = none ↔ r.awaitsOffsets = true ∨ r.typeahead = [] := by
  unfold step?
  split
  · rename_i awaits
    simp [awaits]
  · rename_i noOffsets
    split
    · rename_i empty
      simp [empty]
    · rename_i queue
      simp [noOffsets, queue]

theorem step?_of_empty {r : Resolver} (empty : r.typeahead = []) (world : σ) :
    step? options evaluate r world = none :=
  (step?_eq_none_iff options evaluate r world).mpr (.inr empty)

/-- No key waits. -/
theorem process_of_empty {r : Resolver} (empty : r.typeahead = []) (world : σ) :
    process options evaluate r world = (r, world) :=
  process_of_settled options evaluate (step?_of_empty options evaluate empty world)

/-- The last of the keys that wait. -/
theorem process_of_last {r : Resolver} {world : σ} {next : Resolver × σ}
    (stepped : step? options evaluate r world = some next) (empty : next.1.typeahead = []) :
    process options evaluate r world = next :=
  (process_of_step options evaluate stepped).trans
    (process_of_empty options evaluate empty next.2)

/-- Where the end of the time leads, before a held command runs. -/
def flushed (r : Resolver) (world : σ) : Resolver × σ :=
  if r.trail.isEmpty then (r, world)
  else
    process options evaluate (flushTrail options evaluate r world).1
      (flushTrail options evaluate r world).2

theorem timeoutExpired_eq (r : Resolver) (world : σ) :
    timeoutExpired options evaluate r world =
      if (flushed options evaluate r world).1.typeahead.isEmpty &&
          (flushed options evaluate r world).1.pending.held.isSome then
        process options evaluate (fireHeld options (flushed options evaluate r world).1)
          (flushed options evaluate r world).2
      else flushed options evaluate r world := rfl

/-- To look at enough of the keys is to look at all of them. -/
theorem process_eq_lookedAt (looks : Nat) (s : Resolver × σ)
    (settled : step? options evaluate (lookedAt options evaluate s looks).1
      (lookedAt options evaluate s looks).2 = none) :
    process options evaluate s.1 s.2 = lookedAt options evaluate s looks := by
  induction looks generalizing s with
  | zero => exact process_of_settled options evaluate settled
  | succ looks ih =>
      cases stepped : step? options evaluate s.1 s.2 with
      | none =>
          simp only [lookedAt, stepped]
          exact process_of_settled options evaluate stepped
      | some next =>
          simp only [lookedAt, stepped] at settled ⊢
          rw [process_of_step options evaluate stepped, ih next settled]

end ModalInput.Resolver
