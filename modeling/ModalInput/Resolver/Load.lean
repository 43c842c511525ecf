/-
# ModalInput.Resolver.Load -- why looking at keys ends

A mapping can put any number of keys in the place of a few, so the number of
waiting keys is no measure of the work left.  But the keys it puts there are one
level deeper than those it takes away, and no level is deeper than the limit:
counted level by level, the shallowest first, the keys that can be mapped become
fewer (`expand_fewer`).  Between expansions the command layer looks at keys, and
what it puts back weighs less than what it took (`commandKey_lighter`).

`mapKey_lt` joins the two: while no offsets are awaited, every key that is looked
at lowers the load.
-/
import ModalInput.Resolver.MappingLayer
import ModalInput.Resolver.Weight
import ModalInput.Tower

namespace ModalInput

set_option autoImplicit false

/-- The depth of a key that can be mapped. -/
def Queued.depth? : Queued → Option Nat
  | .mappable _ depth => some depth
  | .literal _ => none

/-- The key that cannot be mapped. -/
def Queued.literal? : Queued → Option Key
  | .mappable _ _ => none
  | .literal key => some key

namespace Resolver

/-- The depths of the keys that can be mapped. -/
def depths (r : Resolver) : List Nat :=
  r.typeahead.filterMap Queued.depth? ++ r.trail.map TrailKey.depth

/-- How many levels a depth leaves. -/
def rankOf (limit depth : Nat) : Nat := limit - depth

/-- How many of some depths have a rank. -/
def countRank (limit : Nat) (depths : List Nat) (rank : Nat) : Nat :=
  depths.countP fun depth => rankOf limit depth = rank

/-- What the keys weigh that cannot be mapped: those that wait, and those of the
command that is being typed. -/
def foot (r : Resolver) : Nat × Nat :=
  (weightOf (r.typeahead.filterMap Queued.literal?) + weightOf r.pending.keys, r.typeahead.length)

/-- The load of a resolver: the keys of each rank, the shallowest first, then the
weight of the others. -/
def load (limit : Nat) (r : Resolver) : Tower (limit + 1) :=
  .of (countRank limit r.depths) r.foot (limit + 1)

theorem countRank_append (limit : Nat) (front back : List Nat) (rank : Nat) :
    countRank limit (front ++ back) rank = countRank limit front rank + countRank limit back rank := by
  simp [countRank]

theorem weightOf_literals (keys : List Key) :
    weightOf ((keys.map Queued.literal).filterMap Queued.literal?) = weightOf keys := by
  congr 1
  induction keys with
  | nil => rfl
  | cons key rest ih => simp [Queued.literal?, ih]

theorem depths_literals (keys : List Key) :
    (keys.map Queued.literal).filterMap Queued.depth? = [] := by
  cases keys with
  | nil => rfl
  | cons key rest => simp [Queued.depth?]

variable (options : OptionView)

/-! ## The mapping layer -/

variable {σ : Type} (evaluate : Evaluator σ)

/-- A state in which the keys of some depths are gone and no others came lower. -/
def Fewer (limit : Nat) (before after : Resolver) : Prop :=
  Tower.Lower (limit + 1) (load limit after) (load limit before)

theorem le_foldl_max (depths : List Nat) (start depth : Nat) (member : depth ∈ depths ∨ depth ≤ start) :
    depth ≤ depths.foldl max start := by
  induction depths generalizing start with
  | nil => simpa using member
  | cons first rest ih =>
      apply ih
      rcases member with member | small
      · rcases List.mem_cons.mp member with rfl | member
        · right; omega
        · left; exact member
      · right; omega

theorem depth_lt_depthOf {lhs : List TrailKey} {typed : TrailKey} (member : typed ∈ lhs) :
    typed.depth < depthOf lhs := by
  have := le_foldl_max (lhs.map TrailKey.depth) 0 typed.depth (.inl (List.mem_map_of_mem member))
  unfold depthOf; omega

theorem countRank_replicate_zero (limit depth : Nat) (depths : List Nat) (all : ∀ d ∈ depths, d = depth)
    (rank : Nat) (other : rankOf limit depth ≠ rank) : countRank limit depths rank = 0 := by
  unfold countRank
  rw [List.countP_eq_zero]
  intro d member
  simp [all d member, other]

/-- Some keys are gone, all that came are deeper than they were, and none is
deeper than the limit. -/
theorem fewer_of_gone {limit : Nat} {before after : Resolver} (gone came : List Nat) (depth : Nat)
    (counts : ∀ rank, countRank limit before.depths rank + countRank limit came rank =
      countRank limit after.depths rank + countRank limit gone rank)
    (some : ∃ d ∈ gone, d < depth) (all : ∀ d ∈ came, d = depth) (deep : came ≠ [] → depth ≤ limit) :
    Fewer limit before after := by
  obtain ⟨d, member, lower⟩ := some
  have taken : 0 < countRank limit gone (rankOf limit d) := by
    unfold countRank
    rw [List.countP_pos_iff]
    exact ⟨d, member, by simp⟩
  have clear (rank : Nat) (high : rankOf limit d ≤ rank) : countRank limit came rank = 0 := by
    cases came with
    | nil => rfl
    | cons first rest =>
        apply countRank_replicate_zero limit depth _ all
        have := deep (by simp)
        unfold rankOf at high ⊢
        omega
  refine Tower.lt_of_rank (rankOf limit d) ?_ (limit + 1) (by unfold rankOf; omega) ?_
  · have := counts (rankOf limit d); have := clear _ (Nat.le_refl _); omega
  · intro k above _
    have := counts k; have := clear k (by omega); omega

/-- Every key that can be mapped is gone. -/
theorem fewer_of_cancel {limit : Nat} {before after : Resolver} (some : before.depths ≠ [])
    (none : after.depths = []) : Fewer limit before after := by
  obtain ⟨d, rest, same⟩ := List.exists_cons_of_ne_nil some
  refine fewer_of_gone before.depths [] (d + 1) ?_
    ⟨d, by simp [same], by omega⟩ (by simp) (by simp)
  intro rank
  rw [none]; simp [countRank]

theorem depths_requeue (r : Resolver) (keys : List Queued) :
    (r.requeue keys).depths = keys.filterMap Queued.depth? ++ r.depths := by
  simp [depths, requeue]

theorem Lighter.depths {r r' : Resolver} {weight : Nat} (light : Lighter r r' weight) :
    r'.depths = r.depths := by
  obtain ⟨trail, back, queue, _⟩ := light
  rw [Resolver.depths, queue, trail, List.filterMap_append, depths_literals, List.nil_append]
  rfl

theorem depths_requeued (keys : List TrailKey) :
    (keys.map TrailKey.requeued).filterMap Queued.depth? = keys.map TrailKey.depth := by
  induction keys with
  | nil => rfl
  | cons key rest ih =>
      rw [List.map_cons, List.map_cons, ← ih]
      rfl

theorem Quiet.depths {r r' : Resolver} (quiet : Quiet r r') : r'.depths = r.depths := by
  simp [Resolver.depths, quiet.typeahead, quiet.trail]

/-- The keys of an expansion that can be mapped all have the depth of it. -/
theorem expansion_depth (mapping : Mapping) (depth : Nat) (keys : List Key) :
    ∀ d ∈ (expansion options mapping depth keys).filterMap Queued.depth?, d = depth := by
  intro d member
  unfold expansion at member
  split at member
  · rw [List.filterMap_append, depths_literals, List.nil_append] at member
    simp only [List.mem_filterMap, List.mem_map] at member
    obtain ⟨queued, ⟨key, _, rfl⟩, same⟩ := member
    simpa [Queued.depth?] using same.symm
  · rw [depths_literals] at member
    simp at member

/-- An expansion takes keys away and brings only deeper ones. -/
theorem expand_fewer (r : Resolver) (world : σ) (mapping : Mapping) (lhs : List TrailKey)
    (typed : lhs ≠ []) (before : Resolver)
    (counts : ∀ rank, countRank (depthLimit options) before.depths rank =
      countRank (depthLimit options) r.depths rank +
        countRank (depthLimit options) (lhs.map TrailKey.depth) rank) :
    Fewer (depthLimit options) before (expand options evaluate r world mapping lhs).1 := by
  obtain ⟨first, rest, same⟩ := List.exists_cons_of_ne_nil typed
  have member : first ∈ lhs := by simp [same]
  have some : before.depths ≠ [] := by
    intro empty
    have := counts (rankOf (depthLimit options) first.depth)
    rw [empty, same] at this
    simp [countRank] at this
  have cancelled (error : EngineError) : (r.cancel.fail error).depths = [] := rfl
  have replaced (keys : List Key) (allowed : ¬ depthLimit options < depthOf lhs) :
      Fewer (depthLimit options) before
        (r.requeue (expansion options mapping (depthOf lhs) keys)) := by
    refine fewer_of_gone (lhs.map TrailKey.depth)
      ((expansion options mapping (depthOf lhs) keys).filterMap Queued.depth?) (depthOf lhs) ?_
      ⟨first.depth, List.mem_map_of_mem member, depth_lt_depthOf member⟩
      (expansion_depth options mapping _ keys) (fun _ => by omega)
    intro rank
    rw [depths_requeue, countRank_append, counts rank]; omega
  unfold expand
  split
  · exact fewer_of_cancel some (cancelled _)
  · rename_i allowed
    split
    · exact replaced _ allowed
    · rename_i action _
      refine fewer_of_gone (lhs.map TrailKey.depth) [] (depthOf lhs) ?_
        ⟨first.depth, List.mem_map_of_mem member, depth_lt_depthOf member⟩ (by simp) (by simp)
      intro rank
      rw [(Quiet.commandResolved options r action []).depths, counts rank]; simp [countRank]
    · split
      · exact replaced _ allowed
      · exact fewer_of_cancel some (cancelled _)

/-- A trail that is finished loses a key. -/
theorem endTrail_fewer (r : Resolver) (world : σ) (typed : r.trail ≠ [])
    (noOffsets : r.awaitsOffsets = false) (before : Resolver)
    (counts : ∀ rank, countRank (depthLimit options) before.depths rank =
      countRank (depthLimit options) r.depths rank) :
    Fewer (depthLimit options) before (endTrail options evaluate r world).1 := by
  obtain ⟨first, rest, same⟩ := List.exists_cons_of_ne_nil typed
  unfold endTrail
  split
  · rename_i reached _
    apply expand_fewer
    · simp [same, Reached.length]
    · intro rank
      rw [counts rank, depths_requeue, countRank_append, depths_requeued]
      simp only [depths, withoutTrail, List.map_nil, List.append_nil, countRank_append]
      have split := congrArg (fun keys => countRank (depthLimit options) (keys.map TrailKey.depth) rank)
        (List.take_append_drop reached.length r.trail)
      simp only [List.map_append, countRank_append] at split
      omega
  · split
    · rename_i empty; rw [same] at empty; cases empty
    · rename_i key more cons
      have light := commandKey_lighter options (r.withoutTrail.requeue (more.map TrailKey.requeued))
        key.key noOffsets
      refine fewer_of_gone [key.depth] [] (key.depth + 1) ?_ ⟨key.depth, by simp, by omega⟩
        (by simp) (by simp)
      intro rank
      rw [counts rank, light.depths, depths_requeue, depths_requeued]
      simp only [depths, withoutTrail, cons, List.map_cons, List.map_nil, List.append_nil,
        countRank_append]
      simp only [countRank, List.countP_cons, List.countP_nil]
      omega

/-- Every key that is looked at lowers the load, unless offsets are awaited. -/
theorem mapKey_lt (r : Resolver) (world : σ) (queued : Queued) (rest : List Queued)
    (queue : r.typeahead = queued :: rest) (noOffsets : r.awaitsOffsets = false) :
    Fewer (depthLimit options) r
      (mapKey options evaluate { r with typeahead := rest } world queued).1 := by
  have passed : Fewer (depthLimit options) r
      (passKey options evaluate { r with typeahead := rest } world queued).1 := by
    unfold passKey
    split
    · rename_i empty
      have empty : r.trail = [] := by simpa using empty
      have light :=
        commandKey_lighter options ({ r with typeahead := rest } : Resolver) queued.key noOffsets
      have depths_rest : Resolver.depths { r with typeahead := rest } =
          rest.filterMap Queued.depth? ++ r.trail.map TrailKey.depth := rfl
      cases queued with
      | mappable key depth =>
          refine fewer_of_gone [depth] [] (depth + 1) ?_ ⟨depth, by simp, by omega⟩ (by simp) (by simp)
          intro rank
          rw [light.depths, depths_rest]
          simp only [depths, queue, List.filterMap_cons, Queued.depth?, countRank_append]
          simp only [countRank, List.countP_cons, List.countP_nil]
          omega
      | literal key =>
          refine Tower.lt_of_foot ?_ _ ?_
          · obtain ⟨_, back, after, weights⟩ := light
            have one : weightOf (key :: rest.filterMap Queued.literal?) =
                key.weight + weightOf (rest.filterMap Queued.literal?) := by simp [weightOf]
            simp only [foot, after, queue, List.filterMap_append, List.filterMap_cons,
              Queued.literal?, weightOf_append, weightOf_literals, List.length_append,
              List.length_map, List.length_cons]
            simp only [Queued.key] at weights ⊢
            rcases weights with less | ⟨rfl, equal⟩
            · left; omega
            · right; simp only [weightOf_nil, List.length_nil]; constructor <;> omega
          · intro rank _
            rw [light.depths, depths_rest]
            simp only [depths, queue]
            exact Nat.le_refl _
    · rename_i typed
      apply endTrail_fewer
      · simpa [requeue] using typed
      · exact noOffsets
      · intro rank
        simp [depths, requeue, queue]
  unfold mapKey
  split
  · exact passed
  · rename_i key depth
    split
    · unfold extendTrail
      dsimp only
      have joined (rank : Nat) : countRank (depthLimit options) r.depths rank =
          countRank (depthLimit options)
            (rest.filterMap Queued.depth? ++ (r.trail ++ [(⟨key, depth⟩ : TrailKey)]).map TrailKey.depth) rank := by
        simp only [depths, queue, List.filterMap_cons, Queued.depth?, List.map_append, countRank_append]
        simp only [countRank, List.countP_cons, List.countP_nil, List.map_cons, List.map_nil]
        omega
      have expanded (mapping : Mapping) : Fewer (depthLimit options) r
          (expand options evaluate
            (({ r with typeahead := rest, trail := r.trail ++ [(⟨key, depth⟩ : TrailKey)] } : Resolver).withoutTrail)
            world mapping (r.trail ++ [(⟨key, depth⟩ : TrailKey)])).1 := by
        apply expand_fewer
        · simp
        · intro rank
          rw [joined rank, countRank_append]
          simp [depths, withoutTrail]
      have waits : Tower.Lower (depthLimit options + 1)
          (.of (countRank (depthLimit options)
            (rest.filterMap Queued.depth? ++ (r.trail ++ [(⟨key, depth⟩ : TrailKey)]).map TrailKey.depth))
            (weightOf (rest.filterMap Queued.literal?) + weightOf r.pending.keys, rest.length)
            (depthLimit options + 1))
          (load (depthLimit options) r) := by
        refine Tower.lt_of_foot ?_ _ ?_
        · right
          simp only [foot, queue, List.length_cons]
          exact ⟨rfl, Nat.lt_succ_self _⟩
        · intro rank _
          exact Nat.le_of_eq (joined rank).symm
      split
      · exact expanded _
      · split
        · exact waits
        · exact expanded _
      · exact waits
      · apply endTrail_fewer
        · simp
        · exact noOffsets
        · intro rank
          rw [joined rank]
          simp [depths]
    · exact passed

end Resolver

end ModalInput