/-
# ModalInput.Proofs.NodeListing -- every sequence of a mode is listed once

A listing goes down from the root of a mode and visits nodes in the order of a stack.  What the
stack can still reach is told by `Reaches`.  In a tidy table no node is reached along two
sequences and no sequence of the stack starts another one (`Apart`), one visit keeps it so, and
then what is listed are the values of the nodes that are reached (`Apart.mem_listing`), each
once (`Apart.nodup_listing`).

* `Apart.listing_cons` -- one visit; what was visited makes no difference to what follows.
* `Linked.mem_entries`, `Linked.nodup_entries` -- the sequences of a mode, by its values alone.
-/
import ModalInput.Proofs.NodeRemoval

namespace ModalInput.NodeTable

set_option autoImplicit false

variable {μ κ ν : Type} {table : NodeTable μ κ ν}

/-! ## One visit -/

/-- The nodes that edges lead to from a node, with the keys that lead there. -/
def branches (table : NodeTable μ κ ν) (id : NodeId) (keys : List κ) :
    List (NodeId × List κ) :=
  (((table.edges.get? id).map Directory.entries).getD []).reverse.map
    fun edge => (edge.2, keys ++ [edge.1])

/-- The value of a node, if it has one, with the keys that lead there. -/
def own (table : NodeTable μ κ ν) (id : NodeId) (keys : List κ) : List (List κ × ν) :=
  (table.value? id).toList.map fun value => (keys, value)

theorem mem_own {id : NodeId} {start keys : List κ} {value : ν} :
    (keys, value) ∈ table.own id start ↔ keys = start ∧ table.value? id = some value := by
  simp [own, and_comm, eq_comm]

theorem listing_nil (table : NodeTable μ κ ν) : table.listing [] = [] := by
  rw [listing]

theorem listing_visit (table : NodeTable μ κ ν) (id : NodeId) (start : List κ)
    (rest : List (NodeId × List κ)) :
    table.listing ((id, start) :: rest) =
      table.own id start ++ (table.dropNode id).listing (table.branches id start ++ rest) := by
  rw [listing, own, branches]
  congr 1
  split
  · rename_i edges found
    rw [found]
    rfl
  · rename_i nothing
    rw [nothing]
    rfl

/-- What a walk over a stack lists, when it leaves the table as it is. -/
inductive Walks (table : NodeTable μ κ ν) :
    List (NodeId × List κ) → List (List κ × ν) → Prop where
  | done : table.Walks [] []
  | visit {id : NodeId} {start : List κ} {rest : List (NodeId × List κ)}
      {listed : List (List κ × ν)}
      (others : table.Walks (table.branches id start ++ rest) listed) :
      table.Walks ((id, start) :: rest) (table.own id start ++ listed)

/-- One visit at a time. -/
theorem listing_induct {motive : NodeTable μ κ ν → List (NodeId × List κ) → Prop}
    (nil : ∀ table, motive table [])
    (visit : ∀ table id start rest,
      motive (table.dropNode id) (table.branches id start ++ rest) →
        motive table ((id, start) :: rest))
    (table : NodeTable μ κ ν) (stack : List (NodeId × List κ)) : motive table stack := by
  induction table, stack using listing.induct with
  | case1 table => exact nil table
  | case2 table id start rest edged bare =>
      refine visit table id start rest ?_
      unfold branches
      cases found : table.edges.get? id with
      | none => exact bare
      | some edges => simpa using edged edges found

theorem value?_dropNode (table : NodeTable μ κ ν) (id other : NodeId) :
    (table.dropNode id).value? other = if other = id then none else table.value? other := by
  rw [value?, get?_dropNode]
  split <;> rfl

variable [DecidableEq κ]

theorem mem_branches {id next : NodeId} {start keys : List κ} :
    (next, keys) ∈ table.branches id start ↔
      ∃ key, table.follow? id key = some next ∧ keys = start ++ [key] := by
  unfold branches follow?
  cases table.edges.get? id with
  | none => simp
  | some edges =>
      simp only [Option.map_some, Option.getD_some, List.mem_map, List.mem_reverse, Prod.exists,
        Directory.mem_entries, Prod.mk.injEq, Option.bind_some]
      constructor
      · rintro ⟨key, _, leads, rfl, rfl⟩
        exact ⟨key, leads, rfl⟩
      · rintro ⟨key, leads, rfl⟩
        exact ⟨key, next, leads, rfl, rfl⟩

theorem follow?_of_dropNode {id start next : NodeId} {key : κ}
    (leads : (table.dropNode id).follow? start key = some next) :
    table.follow? start key = some next := by
  rw [follow?_dropNode] at leads
  split at leads
  · cases leads
  · exact leads

/-! ## What a stack reaches -/

/-- Keys lead from some node of a stack to another node. -/
def Reaches (table : NodeTable μ κ ν) (stack : List (NodeId × List κ)) (keys : List κ)
    (last : NodeId) : Prop :=
  ∃ id start more, (id, start) ∈ stack ∧ keys = start ++ more ∧ table.walk? id more = some last

theorem reaches_top (table : NodeTable μ κ ν) (id : NodeId) (start : List κ)
    (rest : List (NodeId × List κ)) : table.Reaches ((id, start) :: rest) start id :=
  ⟨id, start, [], List.mem_cons_self, (List.append_nil start).symm, rfl⟩

/-- What is reached over an edge is reached from where it starts. -/
theorem Reaches.of_branch {id next last : NodeId} {start more keys : List κ} {key : κ}
    (first : table.follow? id key = some next) (leads : table.walk? next more = some last)
    (same : keys = start ++ key :: more) (rest : List (NodeId × List κ)) :
    table.Reaches ((id, start) :: rest) keys last := by
  refine ⟨id, start, key :: more, List.mem_cons_self, same, ?_⟩
  rw [walk?, first]
  exact leads

theorem Reaches.of_dropNode {id last : NodeId} {stack : List (NodeId × List κ)} {keys : List κ}
    (reaches : (table.dropNode id).Reaches stack keys last) : table.Reaches stack keys last := by
  obtain ⟨start, before, more, member, same, leads⟩ := reaches
  exact ⟨start, before, more, member, same, walk?_mono (fun _ _ _ => follow?_of_dropNode) leads⟩

/-- What is reached after a visit was reached before it. -/
theorem Reaches.of_visit {id last : NodeId} {start keys : List κ} {rest : List (NodeId × List κ)}
    (reaches : table.Reaches (table.branches id start ++ rest) keys last) :
    table.Reaches ((id, start) :: rest) keys last := by
  obtain ⟨next, start', more, member, rfl, leads⟩ := reaches
  rcases List.mem_append.mp member with branch | member
  · obtain ⟨key, first, rfl⟩ := mem_branches.mp branch
    exact .of_branch first leads (List.append_cons start key more).symm rest
  · exact ⟨next, start', more, List.mem_cons_of_mem _ member, rfl, leads⟩

/-- Where a node is not reached, it makes no difference that it is gone. -/
theorem Walks.of_dropNode {id : NodeId} {stack : List (NodeId × List κ)}
    {listed : List (List κ × ν)} (walks : (table.dropNode id).Walks stack listed)
    (away : ∀ keys, ¬ table.Reaches stack keys id) : table.Walks stack listed := by
  induction walks with
  | done => exact .done
  | @visit first start rest listed others ih =>
      have differs : first ≠ id := by
        rintro rfl
        exact away start (table.reaches_top first start rest)
      have same : (table.dropNode id).branches first start = table.branches first start := by
        rw [branches, edges_dropNode, if_neg differs, branches]
      rw [same] at ih
      rw [own, value?_dropNode, if_neg differs]
      exact .visit (ih fun keys reaches => away keys reaches.of_visit)

/-- The keys of one place of a stack do not go on from those of another. -/
def Unrelated (first second : List κ) : Prop := ¬ first <+: second ∧ ¬ second <+: first

/-- No node is reached along two sequences, and the places of the stack are beside one
another. -/
structure Apart (table : NodeTable μ κ ν) (stack : List (NodeId × List κ)) : Prop where
  once : ∀ keys keys' last, table.Reaches stack keys last → table.Reaches stack keys' last →
    keys = keys'
  beside : stack.Pairwise fun first second => Unrelated first.2 second.2

namespace Apart

variable {id : NodeId} {start : List κ} {rest : List (NodeId × List κ)}

/-- Everything that was reached is still reached after a visit, except the node that was
visited. -/
theorem reaches_visit (apart : Apart table ((id, start) :: rest)) {keys : List κ}
    {last : NodeId} :
    table.Reaches ((id, start) :: rest) keys last ↔
      (keys = start ∧ last = id) ∨
        (table.dropNode id).Reaches (table.branches id start ++ rest) keys last := by
  constructor
  · intro reaches
    obtain ⟨first, start', more, member, rfl, leads⟩ := reaches
    rcases walk?_dropNode id leads with around | ⟨next, child, more', through⟩
    · rcases List.mem_cons.mp member with same | member
      · cases same
        cases more with
        | nil => exact .inl ⟨List.append_nil start, (Option.some.inj leads).symm⟩
        | cons key more =>
            rw [walk?, follow?_dropNode, if_pos rfl] at around
            cases around
      · exact .inr ⟨first, start', more, List.mem_append_right _ member, rfl, around⟩
    · -- the way goes through the visited node, so it starts with the keys that lead there
      obtain ⟨key, edge⟩ := (table.mem_ends id next).mp child
      have leads' := walk?_mono (fun _ _ _ => follow?_of_dropNode) through
      have same : start' ++ more = start ++ key :: more' :=
        apart.once _ _ last ⟨first, start', more, member, rfl, leads⟩
          (.of_branch edge leads' rfl rest)
      exact .inr ⟨next, start ++ [key], more',
        List.mem_append_left _ (mem_branches.mpr ⟨key, edge, rfl⟩),
        same.trans (List.append_cons start key more'), through⟩
  · rintro (⟨rfl, rfl⟩ | reaches)
    · exact table.reaches_top last keys rest
    · exact reaches.of_dropNode.of_visit

/-- What is on the stack after a visit goes on from the keys of the visited node, or is beside
them. -/
theorem not_prefix (apart : Apart table ((id, start) :: rest)) {next : NodeId} {keys : List κ}
    (member : (next, keys) ∈ table.branches id start ++ rest) : ¬ keys <+: start := by
  intro starts
  rcases List.mem_append.mp member with branch | member
  · obtain ⟨key, _, rfl⟩ := mem_branches.mp branch
    have shorter := starts.length_le
    rw [List.length_append, List.length_singleton] at shorter
    omega
  · exact ((List.pairwise_cons.mp apart.beside).1 _ member).2 starts

/-- The keys of the visited node reach nothing more. -/
theorem not_reaches_start (apart : Apart table ((id, start) :: rest)) (last : NodeId) :
    ¬ table.Reaches (table.branches id start ++ rest) start last := by
  rintro ⟨next, start', more, member, same, _⟩
  exact apart.not_prefix member ⟨more, same.symm⟩

/-- The visited node is not reached again. -/
theorem not_reaches_visited (apart : Apart table ((id, start) :: rest)) (keys : List κ) :
    ¬ table.Reaches (table.branches id start ++ rest) keys id := by
  intro reaches
  have same := apart.once keys start id reaches.of_visit (table.reaches_top id start rest)
  exact apart.not_reaches_start id (same ▸ reaches)

omit [DecidableEq κ] in
theorem pairwise_branches (table : NodeTable μ κ ν) (id : NodeId) (start : List κ) :
    (table.branches id start).Pairwise fun first second => Unrelated first.2 second.2 := by
  unfold branches
  cases table.edges.get? id with
  | none => simp
  | some edges =>
      have distinct := edges.distinct
      rw [List.Nodup, List.pairwise_map] at distinct
      rw [Option.map_some, Option.getD_some, List.pairwise_map, List.pairwise_reverse]
      refine distinct.imp fun {first second} differ => ?_
      have other (key key' : κ) (starts : start ++ [key] <+: start ++ [key']) : key = key' := by
        simpa using starts
      exact ⟨fun starts => differ (other _ _ starts).symm, fun starts => differ (other _ _ starts)⟩

theorem visit (apart : Apart table ((id, start) :: rest)) :
    Apart (table.dropNode id) (table.branches id start ++ rest) where
  once := fun keys keys' last reaches reaches' =>
    apart.once keys keys' last reaches.of_dropNode.of_visit reaches'.of_dropNode.of_visit
  beside := by
    obtain ⟨away, beside⟩ := List.pairwise_cons.mp apart.beside
    refine List.pairwise_append.mpr ⟨pairwise_branches table id start, beside, ?_⟩
    rintro ⟨next, keys⟩ branch other member
    obtain ⟨key, _, rfl⟩ := mem_branches.mp branch
    obtain ⟨ahead, behind⟩ := away other member
    refine ⟨fun starts => ahead ((List.prefix_append start [key]).trans starts), fun starts => ?_⟩
    rcases List.prefix_concat_iff.mp starts with same | starts
    · exact ahead (same ▸ List.prefix_append start [key])
    · exact behind starts

/-! ## What is listed -/

theorem mem_listing {stack : List (NodeId × List κ)} (apart : Apart table stack) (keys : List κ)
    (value : ν) :
    (keys, value) ∈ table.listing stack ↔
      ∃ last, table.Reaches stack keys last ∧ table.value? last = some value := by
  induction table, stack using listing_induct with
  | nil table => simp [listing_nil, Reaches]
  | visit table id start rest ih =>
      rw [listing_visit, List.mem_append, mem_own, ih apart.visit]
      simp only [apart.reaches_visit]
      constructor
      · rintro (⟨rfl, valued⟩ | ⟨last, reaches, valued⟩)
        · exact ⟨id, .inl ⟨rfl, rfl⟩, valued⟩
        · rw [value?_dropNode] at valued
          split at valued
          · cases valued
          · exact ⟨last, .inr reaches, valued⟩
      · rintro ⟨last, ⟨rfl, rfl⟩ | reaches, valued⟩
        · exact .inl ⟨rfl, valued⟩
        · refine .inr ⟨last, reaches, ?_⟩
          rw [value?_dropNode, if_neg]
          · exact valued
          · rintro rfl
            exact apart.not_reaches_visited keys reaches.of_dropNode

theorem nodup_listing {stack : List (NodeId × List κ)} (apart : Apart table stack) :
    ((table.listing stack).map Prod.fst).Nodup := by
  induction table, stack using listing_induct with
  | nil table => simp [listing_nil]
  | visit table id start rest ih =>
      rw [listing_visit, List.map_append, List.nodup_append]
      refine ⟨?_, ih apart.visit, ?_⟩
      · unfold own
        cases table.value? id <;> simp
      · intro keys first keys' later same
        obtain ⟨⟨_, value⟩, owned, rfl⟩ := List.mem_map.mp first
        obtain ⟨⟨_, value'⟩, listed, rfl⟩ := List.mem_map.mp later
        obtain ⟨rfl, _⟩ := mem_own.mp owned
        obtain rfl := same
        obtain ⟨last, reaches, _⟩ := (apart.visit.mem_listing _ value').mp listed
        exact apart.not_reaches_start last reaches.of_dropNode

/-- Where the table stays as it is, the walk visits the same nodes and lists the same. -/
theorem walks {stack : List (NodeId × List κ)} (apart : Apart table stack) :
    table.Walks stack (table.listing stack) := by
  induction table, stack using listing_induct with
  | nil table =>
      rw [listing_nil]
      exact .done
  | visit table id start rest ih =>
      rw [listing_visit]
      exact .visit ((ih apart.visit).of_dropNode apart.not_reaches_visited)

end Apart

/-! ## A mode -/

namespace Linked

variable [DecidableEq μ] {mode : μ}

omit [DecidableEq μ] in
theorem reaches_root {root last : NodeId} {keys : List κ} :
    table.Reaches [(root, [])] keys last ↔ table.walk? root keys = some last := by
  simp [Reaches]

theorem apart_root (linked : Linked table) {root : NodeId}
    (rooted : table.roots.get? mode = some root) : Apart table [(root, [])] where
  once := by
    have found {keys : List κ} {last : NodeId} (reaches : table.Reaches [(root, [])] keys last) :
        table.find? mode keys = some last := by
      rw [find?, rooted]
      exact reaches_root.mp reaches
    intro keys keys' last reaches reaches'
    exact (linked.find?_injective (found reaches) (found reaches')).2
  beside := List.pairwise_singleton _ _

/-- What is listed of a mode is what a walk from its root comes across. -/
theorem walks_entries (linked : Linked table) {root : NodeId}
    (rooted : table.roots.get? mode = some root) :
    table.Walks [(root, [])] (table.entries mode) := by
  rw [entries, rooted]
  exact (linked.apart_root rooted).walks

/-- The listed sequences of a mode are those that have a value. -/
theorem mem_entries (linked : Linked table) (mode : μ) (keys : List κ) (value : ν) :
    (keys, value) ∈ table.entries mode ↔ table.get? mode keys = some value := by
  unfold entries get? find?
  cases rooted : table.roots.get? mode with
  | none => simp
  | some root =>
      simp only [Option.map_some, Option.getD_some, Option.bind_some, Option.bind_eq_some_iff,
        (linked.apart_root rooted).mem_listing, reaches_root]

/-- No sequence of a mode is listed twice. -/
theorem nodup_entries (linked : Linked table) (mode : μ) :
    ((table.entries mode).map Prod.fst).Nodup := by
  unfold entries
  cases rooted : table.roots.get? mode with
  | none => exact List.nodup_nil
  | some root => exact (linked.apart_root rooted).nodup_listing

end Linked

end ModalInput.NodeTable
