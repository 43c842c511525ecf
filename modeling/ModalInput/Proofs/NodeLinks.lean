/-
# ModalInput.Proofs.NodeLinks -- the nodes of a table and the edges between them

An edge leads to a node that names it, every node but a root is at the end of the edge that it
names, and a node is made after the one above it (`Linked`).  So a node is found along one
sequence only (`Linked.find?_injective`), and from every node the way up ends at the root of a
mode (`Linked.exists_path`).  If moreover every node that has no value leads on
(`LeadsBut`), the way down ends at a value (`Linked.exists_value`).

* `Linked`, `LeadsBut` -- the two parts of the invariant `Tidy`; while a sequence is added or
  taken away, one node may lead to nothing.
* `Tidy.lookup_eq`, `isModeEmpty_iff`, `encard_valued` -- what a table answers, by its values
  alone.
-/
import ModalInput.NodeTable
import ModalInput.Proofs.TableContents

namespace ModalInput.NodeTable

set_option autoImplicit false

variable {μ κ ν : Type} [DecidableEq κ] {table : NodeTable μ κ ν}

/-! ## What each step does to nodes and edges -/

theorem hasEdges_iff (table : NodeTable μ κ ν) (id : NodeId) :
    table.hasEdges id = true ↔ ∃ key next, table.follow? id key = some next := by
  unfold hasEdges follow?
  cases table.edges.get? id with
  | none => simp
  | some edges =>
      simp only [Option.map_some, Option.getD_some, Option.bind_some, ← Directory.mem_entries]
      cases edges.entries with
      | nil => simp
      | cons first rest => exact ⟨fun _ => ⟨first.1, first.2, List.mem_cons_self⟩, fun _ => rfl⟩

theorem hasEdges_of_follow {id next : NodeId} {key : κ}
    (leads : table.follow? id key = some next) : table.hasEdges id = true :=
  (table.hasEdges_iff id).mpr ⟨key, next, leads⟩

/-- A node has edges exactly where it has the same ones as another. -/
theorem hasEdges_congr {other : NodeTable μ κ ν} {id : NodeId}
    (same : ∀ key, other.follow? id key = table.follow? id key) :
    other.hasEdges id = table.hasEdges id := by
  rw [Bool.eq_iff_iff, hasEdges_iff, hasEdges_iff]
  simp only [same]

omit [DecidableEq κ] in
theorem get?_setValue (table : NodeTable μ κ ν) (id : NodeId) (value : Option ν)
    (other : NodeId) :
    (table.setValue id value).nodes.get? other =
      if other = id then (table.nodes.get? id).map ({ · with value }) else table.nodes.get? other := by
  unfold setValue
  split
  · rename_i node found
    rw [found]
    exact Directory.get?_insert _ _ _ _
  · rename_i nothing
    rw [nothing]
    split
    · rename_i same
      rw [same, nothing]
      rfl
    · rfl

omit [DecidableEq κ] in
theorem edges_setValue (table : NodeTable μ κ ν) (id : NodeId) (value : Option ν) :
    (table.setValue id value).edges = table.edges := by
  unfold setValue
  split <;> rfl

omit [DecidableEq κ] in
theorem roots_setValue (table : NodeTable μ κ ν) (id : NodeId) (value : Option ν) :
    (table.setValue id value).roots = table.roots := by
  unfold setValue
  split <;> rfl

omit [DecidableEq κ] in
theorem made_setValue (table : NodeTable μ κ ν) (id : NodeId) (value : Option ν) :
    (table.setValue id value).made = table.made := by
  unfold setValue
  split <;> rfl

theorem follow?_addEdge (table : NodeTable μ κ ν) (id : NodeId) (key : κ) (next : NodeId)
    (other : NodeId) (key' : κ) :
    (table.addEdge id key next).follow? other key' =
      if other = id ∧ key' = key then some next else table.follow? other key' := by
  simp only [follow?, addEdge, Directory.get?_insert]
  by_cases same : other = id
  · subst same
    rw [if_pos rfl, Option.bind_some, Directory.get?_insert]
    cases table.edges.get? other <;> simp
  · simp [same]

theorem follow?_dropNode (table : NodeTable μ κ ν) (id other : NodeId) (key : κ) :
    (table.dropNode id).follow? other key =
      if other = id then none else table.follow? other key := by
  simp only [follow?, dropNode, Directory.get?_erase]
  by_cases same : other = id <;> simp [same]

theorem follow?_dropEdge (table : NodeTable μ κ ν) (id : NodeId) (key : κ) (other : NodeId)
    (key' : κ) :
    (table.dropEdge id key).follow? other key' =
      if other = id ∧ key' = key then none else table.follow? other key' := by
  unfold dropEdge
  cases found : table.edges.get? id with
  | none =>
      by_cases same : other = id <;> simp [follow?, same, found]
  | some edges =>
      simp only [follow?, Directory.get?_insert]
      by_cases same : other = id
      · simp [same, found, Directory.get?_erase]
      · simp [same]

theorem nodes_dropEdge (table : NodeTable μ κ ν) (id : NodeId) (key : κ) :
    (table.dropEdge id key).nodes = table.nodes := by
  unfold dropEdge
  split <;> rfl

theorem roots_dropEdge (table : NodeTable μ κ ν) (id : NodeId) (key : κ) :
    (table.dropEdge id key).roots = table.roots := by
  unfold dropEdge
  split <;> rfl

theorem made_dropEdge (table : NodeTable μ κ ν) (id : NodeId) (key : κ) :
    (table.dropEdge id key).made = table.made := by
  unfold dropEdge
  split <;> rfl

/-- The edges of a node are kept, though the last of them may be gone. -/
theorem isSome_dropEdge (table : NodeTable μ κ ν) (id : NodeId) (key : κ) (other : NodeId) :
    ((table.dropEdge id key).edges.get? other).isSome = (table.edges.get? other).isSome := by
  unfold dropEdge
  cases found : table.edges.get? id with
  | none => rfl
  | some edges =>
      rw [Directory.get?_insert]
      split
      · rename_i same
        rw [same, found]
        rfl
      · rfl

/-! ## Ways down -/

theorem walk?_append (table : NodeTable μ κ ν) (id : NodeId) (keys more : List κ) :
    table.walk? id (keys ++ more) = (table.walk? id keys).bind fun next => table.walk? next more := by
  induction keys generalizing id with
  | nil => rfl
  | cons key rest ih =>
      simp only [List.cons_append, walk?]
      cases table.follow? id key with
      | none => rfl
      | some next => exact ih next

/-- More edges lead everywhere where fewer lead. -/
theorem walk?_mono {other : NodeTable μ κ ν}
    (more : ∀ id key next, table.follow? id key = some next → other.follow? id key = some next)
    {id last : NodeId} {keys : List κ} (leads : table.walk? id keys = some last) :
    other.walk? id keys = some last := by
  induction keys generalizing id with
  | nil => exact leads
  | cons key rest ih =>
      obtain ⟨next, first, leads⟩ := Option.bind_eq_some_iff.mp leads
      rw [walk?, more id key next first]
      exact ih leads

theorem walk?_congr {other : NodeTable μ κ ν}
    (same : ∀ id key, other.follow? id key = table.follow? id key) (id : NodeId) (keys : List κ) :
    other.walk? id keys = table.walk? id keys := by
  induction keys generalizing id with
  | nil => rfl
  | cons key rest ih => simp only [walk?, ih, same]

section Modes

variable [DecidableEq μ]

theorem find?_append (table : NodeTable μ κ ν) (mode : μ) (keys more : List κ) :
    table.find? mode (keys ++ more) =
      (table.find? mode keys).bind fun id => table.walk? id more := by
  unfold find?
  cases table.roots.get? mode with
  | none => rfl
  | some root => exact walk?_append table root keys more

theorem find?_nil (table : NodeTable μ κ ν) (mode : μ) :
    table.find? mode [] = table.roots.get? mode := by
  unfold find?
  cases table.roots.get? mode <;> rfl

theorem find?_concat (table : NodeTable μ κ ν) (mode : μ) (keys : List κ) (key : κ) :
    table.find? mode (keys ++ [key]) =
      (table.find? mode keys).bind fun id => table.follow? id key := by
  rw [find?_append]
  congr 1
  funext id
  rw [walk?]
  cases table.follow? id key <;> rfl

theorem get?_append (table : NodeTable μ κ ν) (mode : μ) (keys more : List κ) :
    table.get? mode (keys ++ more) =
      (table.find? mode keys).bind fun id => (table.walk? id more).bind table.value? := by
  rw [get?, find?_append]
  cases table.find? mode keys <;> rfl

/-! ## The invariant -/

/-- Nodes and edges name each other, and numbers are given in order. -/
structure Linked (table : NodeTable μ κ ν) : Prop where
  numbered : ∀ id node, table.nodes.get? id = some node → id.number.toNat < table.made
  root : ∀ mode id, table.roots.get? mode = some id → table.nodes.get? id = some { parent := none }
  rooted : ∀ id node, table.nodes.get? id = some node → node.parent = none →
    ∃ mode, table.roots.get? mode = some id
  /-- Two modes have no root in common. -/
  apart : ∀ mode mode' id, table.roots.get? mode = some id → table.roots.get? mode' = some id →
    mode = mode'
  edge : ∀ above key id, table.follow? above key = some id →
    ∃ node, table.nodes.get? id = some node ∧ node.parent = some (above, key)
  parent : ∀ id node above key, table.nodes.get? id = some node → node.parent = some (above, key) →
    table.follow? above key = some id ∧ (table.nodes.get? above).isSome = true ∧
      above.number.toNat < id.number.toNat
  /-- No edges are kept for a node that is gone. -/
  kept : ∀ id, (table.edges.get? id).isSome = true → (table.nodes.get? id).isSome = true

/-- Every node without a value leads on, except roots and one other node. -/
def LeadsBut (table : NodeTable μ κ ν) (exempt : Option NodeId) : Prop :=
  ∀ id node, table.nodes.get? id = some node → node.parent ≠ none → node.value = none →
    some id ≠ exempt → table.hasEdges id = true

theorem linked_cleared (table : NodeTable μ κ ν) : Linked table.clear where
  numbered := by intro _ _ found; cases found
  root := by intro _ _ found; cases found
  rooted := by intro _ _ found; cases found
  apart := by intro _ _ _ found; cases found
  edge := by intro _ _ _ leads; cases leads
  parent := by intro _ _ _ _ found; cases found
  kept := by intro _ found; cases found

/-- Nodes and edges name each other, and no node leads to nothing. -/
structure Tidy (table : NodeTable μ κ ν) : Prop where
  linked : Linked table
  leads : LeadsBut table none

theorem tidy_cleared (table : NodeTable μ κ ν) : Tidy table.clear where
  linked := linked_cleared table
  leads := by intro _ _ found; cases found

namespace Linked

/-- What a sequence leads to is a root, or is at the end of an edge from what the sequence
without its last key leads to. -/
theorem last (linked : Linked table) {mode : μ} {keys : List κ} {id : NodeId}
    (found : table.find? mode keys = some id) :
    ∃ node, table.nodes.get? id = some node ∧
      ((node.parent = none ∧ keys = [] ∧ table.roots.get? mode = some id) ∨
        ∃ above key before, node.parent = some (above, key) ∧ keys = before ++ [key] ∧
          table.find? mode before = some above) := by
  rcases List.eq_nil_or_concat keys with rfl | ⟨before, key, rfl⟩
  · rw [find?_nil] at found
    exact ⟨_, linked.root mode id found, .inl ⟨rfl, rfl, found⟩⟩
  · rw [List.concat_eq_append, find?_concat] at found
    obtain ⟨above, before', leads⟩ := Option.bind_eq_some_iff.mp found
    obtain ⟨node, stored, parent⟩ := linked.edge above key id leads
    exact ⟨node, stored, .inr ⟨above, key, before, parent, List.concat_eq_append, before'⟩⟩

theorem stored (linked : Linked table) {mode : μ} {keys : List κ} {id : NodeId}
    (found : table.find? mode keys = some id) : (table.nodes.get? id).isSome = true := by
  obtain ⟨node, stored, _⟩ := linked.last found
  rw [stored]
  rfl

/-- Where an edge starts, there is a node. -/
theorem start (linked : Linked table) {above id : NodeId} {key : κ}
    (leads : table.follow? above key = some id) : (table.nodes.get? above).isSome = true := by
  obtain ⟨node, stored, parent⟩ := linked.edge above key id leads
  exact (linked.parent id node above key stored parent).2.1

/-- The empty sequence has no value: a root never has one. -/
theorem get?_nil (linked : Linked table) (mode : μ) : table.get? mode [] = none := by
  rw [get?, find?_nil]
  cases rooted : table.roots.get? mode with
  | none => rfl
  | some root =>
      rw [Option.bind_some, value?, linked.root mode root rooted]
      rfl

/-- No two edges lead to one node. -/
theorem edge_unique (linked : Linked table) {above above' id : NodeId} {key key' : κ}
    (leads : table.follow? above key = some id) (leads' : table.follow? above' key' = some id) :
    above = above' ∧ key = key' := by
  obtain ⟨node, stored, parent⟩ := linked.edge above key id leads
  obtain ⟨node', stored', parent'⟩ := linked.edge above' key' id leads'
  rw [stored] at stored'
  cases stored'
  rw [parent] at parent'
  exact Prod.mk.inj (Option.some.inj parent')

/-- A sequence comes to the end of an edge from the start of that edge. -/
theorem before (linked : Linked table) {above id : NodeId} {key : κ}
    (leads : table.follow? above key = some id) {mode : μ} {keys : List κ}
    (found : table.find? mode keys = some id) :
    ∃ before, keys = before ++ [key] ∧ table.find? mode before = some above := by
  obtain ⟨node, stored, parent⟩ := linked.edge above key id leads
  obtain ⟨node', stored', ⟨alone, _⟩ | ⟨above', key', before, parent', rfl, found'⟩⟩ :=
    linked.last found
  · rw [stored] at stored'
    cases stored'
    rw [parent] at alone
    cases alone
  · rw [stored] at stored'
    cases stored'
    rw [parent] at parent'
    cases parent'
    exact ⟨before, rfl, found'⟩

/-- What is true of the roots, and of the end of an edge if it is true of its start, is true
of every node. -/
theorem induct (linked : Linked table) {P : NodeId → Prop}
    (root : ∀ mode id, table.roots.get? mode = some id → P id)
    (edge : ∀ above key id, table.follow? above key = some id → P above → P id)
    {id : NodeId} (stored : (table.nodes.get? id).isSome = true) : P id := by
  generalize order : id.number.toNat = n
  induction n using Nat.strong_induction_on generalizing id with
  | h n ih =>
      obtain ⟨node, found⟩ := Option.isSome_iff_exists.mp stored
      cases parent : node.parent with
      | none =>
          obtain ⟨mode, rooted⟩ := linked.rooted id node found parent
          exact root mode id rooted
      | some up =>
          obtain ⟨leads, stored', lower⟩ := linked.parent id node up.1 up.2 found parent
          exact edge up.1 up.2 id leads (ih _ (order ▸ lower) stored' rfl)

/-- Every node is at the end of some sequence. -/
theorem exists_path (linked : Linked table) {id : NodeId}
    (stored : (table.nodes.get? id).isSome = true) :
    ∃ mode keys, table.find? mode keys = some id := by
  refine linked.induct (P := fun id => ∃ mode keys, table.find? mode keys = some id) ?_ ?_ stored
  · intro mode id rooted
    exact ⟨mode, [], (table.find?_nil mode).trans rooted⟩
  · rintro above key id leads ⟨mode, keys, found⟩
    exact ⟨mode, keys ++ [key], by rw [find?_concat, found]; exact leads⟩

/-- No node is at the end of two sequences. -/
theorem find?_injective (linked : Linked table) {id : NodeId} {mode mode' : μ} {keys keys' : List κ}
    (found : table.find? mode keys = some id) (found' : table.find? mode' keys' = some id) :
    mode = mode' ∧ keys = keys' := by
  refine linked.induct (P := fun id => ∀ keys keys', table.find? mode keys = some id →
    table.find? mode' keys' = some id → mode = mode' ∧ keys = keys') ?_ ?_ (linked.stored found)
    keys keys' found found'
  · intro root id rooted keys keys' found found'
    -- a root is at the end of no edge, so both sequences are empty
    have none {node} (stored : table.nodes.get? id = some node) : node.parent = none := by
      rw [linked.root root id rooted] at stored
      cases stored
      rfl
    obtain ⟨node, stored, ⟨_, rfl, here⟩ | ⟨_, _, _, parent, _⟩⟩ := linked.last found
    · obtain ⟨node', stored', ⟨_, rfl, here'⟩ | ⟨_, _, _, parent', _⟩⟩ := linked.last found'
      · exact ⟨linked.apart mode mode' id here here', rfl⟩
      · rw [none stored'] at parent'
        cases parent'
    · rw [none stored] at parent
      cases parent
  · intro above key id leads ih keys keys' found found'
    obtain ⟨before, rfl, up⟩ := linked.before leads found
    obtain ⟨before', rfl, up'⟩ := linked.before leads found'
    obtain ⟨rfl, rfl⟩ := ih before before' up up'
    exact ⟨rfl, rfl⟩

/-- As many sequences lead to a node of some kind as there are such nodes. -/
theorem encard_places (linked : Linked table) (kind : TableNode κ ν → Bool) :
    { place : μ × List κ | ∃ id node, table.find? place.1 place.2 = some id ∧
        table.nodes.get? id = some node ∧ kind node = true }.encard =
      (table.nodes.entries.filter fun entry => kind entry.2).length := by
  let kept := table.nodes.filter fun _ node => kind node
  have mem (id : NodeId) : id ∈ kept.keys ↔
      ∃ node, table.nodes.get? id = some node ∧ kind node = true := by
    simp [kept, Directory.keys, Directory.filter, Directory.mem_entries]
  have ends : (fun place : μ × List κ => table.find? place.1 place.2) ''
      { place : μ × List κ | ∃ id node, table.find? place.1 place.2 = some id ∧
        table.nodes.get? id = some node ∧ kind node = true } =
      some '' (kept.keys.toFinset : Set NodeId) := by
    ext reached
    constructor
    · rintro ⟨place, ⟨id, node, found, stored, holds⟩, rfl⟩
      exact ⟨id, by simpa using (mem id).mpr ⟨node, stored, holds⟩, found.symm⟩
    · rintro ⟨id, member, rfl⟩
      obtain ⟨node, stored, holds⟩ := (mem id).mp (by simpa using member)
      obtain ⟨mode, keys, found⟩ := linked.exists_path (Option.isSome_iff_exists.mpr ⟨node, stored⟩)
      exact ⟨(mode, keys), ⟨id, node, found, stored, holds⟩, found⟩
  have injective : Set.InjOn (fun place : μ × List κ => table.find? place.1 place.2)
      { place : μ × List κ | ∃ id node, table.find? place.1 place.2 = some id ∧
        table.nodes.get? id = some node ∧ kind node = true } := by
    rintro ⟨mode, keys⟩ ⟨id, _, found, _⟩ ⟨mode', keys'⟩ _ same
    obtain ⟨rfl, rfl⟩ := linked.find?_injective found (same.symm.trans found)
    rfl
  rw [← injective.encard_image, ends, (Option.some_injective NodeId).encard_image,
    Set.encard_coe_eq_coe_finsetCard, Directory.keys, List.toFinset_card_of_nodup kept.distinct,
    List.length_map]
  rfl

end Linked

namespace Tidy

/-- A node that is not a root leads to a value. -/
theorem exists_value (tidy : Tidy table) {id : NodeId}
    {node : TableNode κ ν} (found : table.nodes.get? id = some node) (deep : node.parent ≠ none) :
    ∃ keys last value, table.walk? id keys = some last ∧ table.value? last = some value := by
  generalize order : table.made - id.number.toNat = n
  induction n using Nat.strong_induction_on generalizing id node with
  | h n ih =>
      cases valued : node.value with
      | some value => exact ⟨[], id, value, rfl, by rw [value?, found]; exact valued⟩
      | none =>
          obtain ⟨key, next, edge⟩ := (table.hasEdges_iff id).mp
            (tidy.leads id node found deep valued (Option.some_ne_none id))
          obtain ⟨node', found', parent'⟩ := tidy.linked.edge id key next edge
          obtain ⟨_, _, higher⟩ := tidy.linked.parent next node' id key found' parent'
          have bound := tidy.linked.numbered next node' found'
          obtain ⟨keys, last, value, way, ends⟩ :=
            ih (table.made - next.number.toNat) (by omega) found' (by rw [parent']; simp) rfl
          exact ⟨key :: keys, last, value, by rw [walk?, edge]; exact way, ends⟩

/-- Some sequence goes on at a node exactly if some longer sequence has a value. -/
theorem hasEdges_iff_continues (tidy : Tidy table) {mode : μ}
    {keys : List κ} {id : NodeId} (found : table.find? mode keys = some id) :
    table.hasEdges id = true ↔ KeyTable.Continues table.get? mode keys := by
  rw [hasEdges_iff, KeyTable.Continues]
  simp only [get?_append, found, Option.bind_some]
  constructor
  · rintro ⟨key, next, edge⟩
    obtain ⟨node, stored, parent⟩ := tidy.linked.edge id key next edge
    obtain ⟨rest, last, value, way, ends⟩ := tidy.exists_value stored (by rw [parent]; simp)
    refine ⟨key, rest, ?_⟩
    rw [walk?, edge, Option.bind_some, way, Option.bind_some, ends]
    rfl
  · rintro ⟨key, rest, valued⟩
    rw [walk?] at valued
    cases edge : table.follow? id key with
    | none => simp [edge] at valued
    | some next => exact ⟨key, next, edge⟩

/-- A sequence that is not empty is found exactly if a sequence that starts with it has a
value. -/
theorem found_iff (tidy : Tidy table) (mode : μ)
    {keys : List κ} (typed : keys ≠ []) :
    (table.find? mode keys).isSome = true ↔
      ∃ more, (table.get? mode (keys ++ more)).isSome = true := by
  constructor
  · intro found
    obtain ⟨id, found⟩ := Option.isSome_iff_exists.mp found
    obtain ⟨node, stored, ⟨_, nothing, _⟩ | ⟨above, key, _, parent, _⟩⟩ := tidy.linked.last found
    · exact absurd nothing typed
    · obtain ⟨more, last, value, way, ends⟩ :=
        tidy.exists_value stored (by rw [parent]; simp)
      refine ⟨more, ?_⟩
      rw [get?_append, found, Option.bind_some, way, Option.bind_some, ends]
      rfl
  · rintro ⟨more, valued⟩
    rw [get?_append] at valued
    cases found : table.find? mode keys with
    | none => simp [found] at valued
    | some id => rfl

/-- A lookup, by the values alone. -/
theorem lookup_eq (tidy : Tidy table) (mode : μ)
    (keys : List κ) [Decidable (KeyTable.Continues table.get? mode keys)] :
    table.lookup mode keys =
      .of (table.get? mode keys) (decide (KeyTable.Continues table.get? mode keys)) := by
  unfold lookup
  cases found : table.find? mode keys with
  | none =>
      have nothing (more : List κ) : table.get? mode (keys ++ more) = none := by
        rw [get?_append, found]
        rfl
      have stops : ¬ KeyTable.Continues table.get? mode keys := by
        rintro ⟨key, rest, valued⟩
        rw [nothing] at valued
        cases valued
      have here := nothing []
      rw [List.append_nil] at here
      rw [here, decide_eq_false stops]
      rfl
  | some id =>
      have here : table.get? mode keys = table.value? id := by rw [get?, found, Option.bind_some]
      have edges : table.hasEdges id = decide (KeyTable.Continues table.get? mode keys) := by
        rw [Bool.eq_iff_iff, tidy.hasEdges_iff_continues found, decide_eq_true_iff]
      rw [here, ← edges]

/-- A mode is empty exactly if none of its sequences has a value. -/
theorem isModeEmpty_iff (tidy : Tidy table) (mode : μ) :
    table.isModeEmpty mode = true ↔ ∀ keys, table.get? mode keys = none := by
  cases rooted : table.roots.get? mode with
  | none => simp [isModeEmpty, get?, find?, rooted]
  | some root =>
      have found : table.find? mode [] = some root := (table.find?_nil mode).trans rooted
      have empty : table.isModeEmpty mode = !table.hasEdges root := by
        simp only [isModeEmpty, rooted, Option.map_some, Option.getD_some]
      rw [empty, Bool.not_eq_true', ← Bool.not_eq_true, tidy.hasEdges_iff_continues found]
      constructor
      · intro stops keys
        cases keys with
        | nil => exact tidy.linked.get?_nil mode
        | cons key rest =>
            rw [← Option.not_isSome_iff_eq_none]
            exact fun valued => stops ⟨key, rest, valued⟩
      · rintro none ⟨key, rest, valued⟩
        rw [none] at valued
        cases valued

/-- As many nodes have values as sequences do. -/
theorem encard_valued (tidy : Tidy table) :
    { place : μ × List κ | (table.get? place.1 place.2).isSome = true }.encard = table.size := by
  have valued : { place : μ × List κ | (table.get? place.1 place.2).isSome = true } =
      { place : μ × List κ | ∃ id node, table.find? place.1 place.2 = some id ∧
        table.nodes.get? id = some node ∧ node.value.isSome = true } := by
    ext ⟨mode, keys⟩
    simp only [Set.mem_ofPred_eq, get?, value?, Option.isSome_bind, Option.any_eq_true]
    constructor
    · rintro ⟨id, found, node, stored, valued⟩
      exact ⟨id, node, found, stored, valued⟩
    · rintro ⟨id, node, found, stored, valued⟩
      exact ⟨id, found, node, stored, valued⟩
  rw [valued, tidy.linked.encard_places fun node => node.value.isSome, size, Directory.values,
    List.filter_map, List.length_map]
  rfl

end Tidy

end Modes

end ModalInput.NodeTable
