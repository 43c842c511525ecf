/-
# ModalInput.Proofs.NodeRemoval -- a sequence or a mode that is taken away from the nodes

A removal takes the value of a node away and goes up: a node that has neither a value nor
edges goes, with the edge that led to it, and then only the node above it may lead to
nothing.  So when the way up stops, nothing leads to nothing (`tidy_prune`).  What is gone
was on the way to no value, so the table answers as before.

Clearing a mode goes down from its root and deletes what it comes to (`sweep_below`) and
nothing else (`sweep_beside`), and no node of another mode is below that root.

* `Tidy.take` -- a removal: the value is gone, and nothing else has changed.
* `Tidy.clearMode` -- every value and the root of the mode are gone, and nothing else.
-/
import ModalInput.Proofs.NodeInsertion

namespace ModalInput.NodeTable

set_option autoImplicit false

variable {μ κ ν : Type} [DecidableEq κ] {table : NodeTable μ κ ν}

/-! ## A leaf without a value -/

/-- Without a node and the edge that leads to it. -/
def cut (table : NodeTable μ κ ν) (id above : NodeId) (key : κ) : NodeTable μ κ ν :=
  (table.dropNode id).dropEdge above key

theorem get?_cut (table : NodeTable μ κ ν) (id above : NodeId) (key : κ) (other : NodeId) :
    (table.cut id above key).nodes.get? other =
      if other = id then none else table.nodes.get? other := by
  rw [cut, nodes_dropEdge]
  exact Directory.get?_erase _ _ _

theorem roots_cut (table : NodeTable μ κ ν) (id above : NodeId) (key : κ) :
    (table.cut id above key).roots = table.roots :=
  roots_dropEdge _ above key

theorem made_cut (table : NodeTable μ κ ν) (id above : NodeId) (key : κ) :
    (table.cut id above key).made = table.made :=
  made_dropEdge _ above key

section Leaf

variable [DecidableEq μ] {id above : NodeId} {key : κ} (linked : Linked table)
  (stored : table.nodes.get? id = some ⟨some (above, key), none⟩)
  (bare : table.hasEdges id = false)

include linked stored bare

/-- The other edges are still there. -/
theorem Linked.follow?_cut (start : NodeId) (key' : κ) (next : NodeId) :
    (table.cut id above key).follow? start key' = some next ↔
      table.follow? start key' = some next ∧ next ≠ id := by
  have leads := (linked.parent id _ above key stored rfl).1
  rw [cut, follow?_dropEdge, follow?_dropNode]
  constructor
  · intro kept
    split at kept
    · cases kept
    · rename_i other
      split at kept
      · cases kept
      · refine ⟨kept, ?_⟩
        rintro rfl
        exact other (linked.edge_unique kept leads)
  · rintro ⟨kept, differs⟩
    rw [if_neg, if_neg]
    · exact kept
    · rintro rfl
      rw [hasEdges_of_follow kept] at bare
      cases bare
    · rintro ⟨rfl, rfl⟩
      rw [leads] at kept
      exact differs (Option.some.inj kept).symm

theorem Linked.find?_cut (mode : μ) (keys : List κ) (other : NodeId) :
    (table.cut id above key).find? mode keys = some other ↔
      table.find? mode keys = some other ∧ other ≠ id := by
  induction keys using List.reverseRecOn generalizing other with
  | nil =>
      rw [find?_nil, find?_nil, roots_cut]
      refine ⟨fun rooted => ⟨rooted, ?_⟩, And.left⟩
      rintro rfl
      have alone := linked.root mode other rooted
      rw [stored] at alone
      cases alone
  | append_singleton before last ih =>
      simp only [find?_concat, Option.bind_eq_some_iff, ih, linked.follow?_cut stored bare]
      constructor
      · rintro ⟨start, ⟨found, _⟩, leads, differs⟩
        exact ⟨⟨start, found, leads⟩, differs⟩
      · rintro ⟨⟨start, found, leads⟩, differs⟩
        refine ⟨start, ⟨found, ?_⟩, leads, differs⟩
        rintro rfl
        rw [hasEdges_of_follow leads] at bare
        cases bare

theorem Linked.get?_cut (mode : μ) (keys : List κ) :
    (table.cut id above key).get? mode keys = table.get? mode keys := by
  have found := linked.find?_cut stored bare mode keys
  have value (other : NodeId) (differs : other ≠ id) :
      (table.cut id above key).value? other = table.value? other := by
    rw [value?, NodeTable.get?_cut, if_neg differs, ← value?]
  unfold get?
  cases there : table.find? mode keys with
  | none =>
      cases here : (table.cut id above key).find? mode keys with
      | none => rfl
      | some other =>
          have before := ((found other).mp here).1
          rw [there] at before
          cases before
  | some other =>
      by_cases same : other = id
      · -- what is gone had no value
        subst same
        cases here : (table.cut other above key).find? mode keys with
        | none =>
            rw [Option.bind_some, value?, stored]
            rfl
        | some next =>
            obtain ⟨before, differs⟩ := (found next).mp here
            rw [there] at before
            exact absurd (Option.some.inj before).symm differs
      · rw [(found other).mpr ⟨there, same⟩]
        exact value other same

theorem Linked.cut : Linked (table.cut id above key) := by
  have follows := linked.follow?_cut stored bare
  have old {other : NodeId} {node : TableNode κ ν}
      (found : (table.cut id above key).nodes.get? other = some node) :
      other ≠ id ∧ table.nodes.get? other = some node := by
    rw [NodeTable.get?_cut] at found
    split at found
    · cases found
    · rename_i differs
      exact ⟨differs, found⟩
  constructor
  case numbered =>
    intro other node found
    rw [made_cut]
    exact linked.numbered other node (old found).2
  case root =>
    intro mode other rooted
    rw [roots_cut] at rooted
    have alone := linked.root mode other rooted
    rw [NodeTable.get?_cut, if_neg]
    · exact alone
    · rintro rfl
      rw [stored] at alone
      cases alone
  case rooted =>
    intro other node found alone
    rw [roots_cut]
    exact linked.rooted other node (old found).2 alone
  case apart =>
    rw [roots_cut]
    exact linked.apart
  case edge =>
    intro start key' next leads
    obtain ⟨leads, differs⟩ := (follows start key' next).mp leads
    obtain ⟨node, found, parent⟩ := linked.edge start key' next leads
    exact ⟨node, by rw [NodeTable.get?_cut, if_neg differs]; exact found, parent⟩
  case parent =>
    intro other node start key' found parent
    obtain ⟨differs, found⟩ := old found
    obtain ⟨leads, there, lower⟩ := linked.parent other node start key' found parent
    refine ⟨(follows start key' other).mpr ⟨leads, differs⟩, ?_, lower⟩
    rw [NodeTable.get?_cut, if_neg]
    · exact there
    · rintro rfl
      rw [hasEdges_of_follow leads] at bare
      cases bare
  case kept =>
    intro other kept
    unfold NodeTable.cut at kept
    rw [isSome_dropEdge, dropNode, Directory.get?_erase] at kept
    rw [NodeTable.get?_cut]
    split at kept
    · cases kept
    · rename_i differs
      rw [if_neg differs]
      exact linked.kept other kept

/-- The node above may now lead to nothing. -/
theorem LeadsBut.cut (leads : LeadsBut table (some id)) :
    LeadsBut (table.cut id above key) (some above) := by
  intro other node found deep valueless differs
  rw [get?_cut] at found
  split at found
  · cases found
  · rename_i kept
    obtain ⟨key', next, edge⟩ := (hasEdges_iff _ _).mp
      (leads other node found deep valueless fun same => kept (Option.some.inj same))
    refine hasEdges_of_follow ((linked.follow?_cut stored bare other key' next).mpr ⟨edge, ?_⟩)
    rintro rfl
    obtain ⟨same, _⟩ := linked.edge_unique edge (linked.parent next _ above key stored rfl).1
    exact differs (congrArg some same)

end Leaf

/-! ## The way up -/

section Operations

variable [DecidableEq μ]

omit [DecidableEq μ] in
theorem made_prune (table : NodeTable μ κ ν) (id : NodeId) :
    (table.prune id).made = table.made := by
  induction table, id using prune.induct with
  | case1 table id edges => rw [prune, if_pos edges]
  | case2 table id edges above key stored ih =>
      rw [prune, if_neg edges]
      split
      · rename_i found
        rw [stored] at found
        cases found
        exact ih.trans (table.made_cut id above key)
      · rfl
  | case3 table id edges other =>
      rw [prune, if_neg edges]
      split
      · rename_i above key found
        exact absurd found (other above key)
      · rfl

theorem made_take (table : NodeTable μ κ ν) (mode : μ) (keys : List κ) :
    (table.take mode keys).2.made = table.made := by
  unfold take
  split
  · split
    · exact (made_prune _ _).trans (table.made_setValue _ none)
    · rfl
  · rfl

/-- If only one node may lead to nothing, deleting up from it leaves a tidy table, which
answers as before. -/
theorem tidy_prune (linked : Linked table) {id : NodeId} (leads : LeadsBut table (some id)) :
    Tidy (table.prune id) ∧ (∀ mode keys, (table.prune id).get? mode keys = table.get? mode keys) ∧
      (table.prune id).roots = table.roots := by
  induction table, id using prune.induct with
  | case1 table id edges =>
      rw [prune, if_pos edges]
      refine ⟨⟨linked, ?_⟩, fun _ _ => rfl, rfl⟩
      intro other node stored deep valueless _
      by_cases same : other = id
      · rw [same]
        exact edges
      · exact leads other node stored deep valueless fun equal => same (Option.some.inj equal)
  | case2 table id edges above key stored ih =>
      have bare : table.hasEdges id = false := by simpa using edges
      have step : table.prune id = (table.cut id above key).prune above := by
        rw [prune, if_neg edges]
        split
        · rename_i found
          rw [stored] at found
          cases found
          rfl
        · rename_i other
          exact absurd stored (other above key)
      obtain ⟨tidy, values, roots⟩ :=
        ih (linked.cut stored bare) (leads.cut linked stored bare)
      rw [step]
      refine ⟨tidy, fun mode keys => ?_, roots.trans (table.roots_cut id above key)⟩
      exact (values mode keys).trans (linked.get?_cut stored bare mode keys)
  | case3 table id edges other =>
      have stays : table.prune id = table := by
        rw [prune, if_neg edges]
        split
        · rename_i above key found
          exact absurd found (other above key)
        · rfl
      rw [stays]
      refine ⟨⟨linked, ?_⟩, fun _ _ => rfl, rfl⟩
      intro other' node stored deep valueless _
      by_cases same : other' = id
      · obtain ⟨parent, value⟩ := node
        cases parent with
        | none => exact absurd rfl deep
        | some up =>
            subst same
            cases valueless
            exact absurd stored (other up.1 up.2)
      · exact leads other' node stored deep valueless fun equal => same (Option.some.inj equal)

/-- After a removal the sequence has no value, no other has changed, and the answer is the
old value. -/
theorem Tidy.take (tidy : Tidy table) (mode : μ) (keys : List κ) :
    Tidy (table.take mode keys).2 ∧ (table.take mode keys).1 = table.get? mode keys ∧
      (∀ mode' keys', (table.take mode keys).2.get? mode' keys' =
        if mode' = mode ∧ keys' = keys then none else table.get? mode' keys') ∧
      (table.take mode keys).2.roots = table.roots := by
  have unchanged (nothing : table.get? mode keys = none) (same : table.take mode keys = (none, table)) :
      Tidy (table.take mode keys).2 ∧ (table.take mode keys).1 = table.get? mode keys ∧
        (∀ mode' keys', (table.take mode keys).2.get? mode' keys' =
          if mode' = mode ∧ keys' = keys then none else table.get? mode' keys') ∧
        (table.take mode keys).2.roots = table.roots := by
    rw [same, nothing]
    refine ⟨tidy, rfl, fun mode' keys' => ?_, rfl⟩
    split
    · rename_i here
      rw [here.1, here.2]
      exact nothing
    · rfl
  cases found : table.find? mode keys with
  | none => exact unchanged (by rw [get?, found]; rfl) (by simp only [NodeTable.take, found])
  | some id =>
      have here : table.get? mode keys = table.value? id := by rw [get?, found, Option.bind_some]
      cases valued : table.value? id with
      | none => exact unchanged (here.trans valued) (by simp only [NodeTable.take, found, valued])
      | some value =>
          have taken : table.take mode keys = (some value, (table.setValue id none).prune id) := by
            simp only [NodeTable.take, found, valued]
          have deep (mode' : μ) : table.roots.get? mode' ≠ some id := by
            intro rooted
            rw [value?, tidy.linked.root mode' id rooted] at valued
            cases valued
          have leads : LeadsBut (table.setValue id none) (some id) :=
            tidy.leads.setValue (fun _ => rfl) fun _ exempt => by cases exempt
          obtain ⟨tidy', values, roots⟩ := tidy_prune (tidy.linked.setValue deep) leads
          rw [taken]
          refine ⟨tidy', (here.trans valued).symm, fun mode' keys' => ?_,
            roots.trans (table.roots_setValue id none)⟩
          exact (values mode' keys').trans (tidy.linked.get?_setValue found none mode' keys')

end Operations

/-! ## The way down -/

/-- A node that edges lead to from one of some nodes, or one of them. -/
def Below (table : NodeTable μ κ ν) (starts : List NodeId) (id : NodeId) : Prop :=
  ∃ start ∈ starts, ∃ keys, table.walk? start keys = some id

omit [DecidableEq κ] in
/-- The nodes that edges lead to from a node. -/
def ends (table : NodeTable μ κ ν) (id : NodeId) : List NodeId :=
  ((table.edges.get? id).map Directory.values).getD []

theorem mem_ends (table : NodeTable μ κ ν) (id next : NodeId) :
    next ∈ table.ends id ↔ ∃ key, table.follow? id key = some next := by
  unfold ends follow?
  cases table.edges.get? id with
  | none => simp
  | some edges => simp [Directory.values, ← Directory.mem_entries]

omit [DecidableEq κ] in
theorem sweep_cons (table : NodeTable μ κ ν) (id : NodeId) (rest : List NodeId) :
    table.sweep (id :: rest) = (table.dropNode id).sweep (table.ends id ++ rest) := by
  rw [sweep, ends]
  split
  · rename_i edges found
    rw [found]
    rfl
  · rename_i nothing
    rw [nothing]
    rfl

/-- A way that is not there without a node goes through it. -/
theorem walk?_dropNode (id : NodeId) {start last : NodeId} {keys : List κ}
    (leads : table.walk? start keys = some last) :
    (table.dropNode id).walk? start keys = some last ∨
      ∃ next ∈ table.ends id, ∃ more, (table.dropNode id).walk? next more = some last := by
  induction keys generalizing start with
  | nil => exact .inl leads
  | cons key rest ih =>
      obtain ⟨next, first, leads⟩ := Option.bind_eq_some_iff.mp leads
      rcases ih leads with around | through
      · by_cases here : start = id
        · exact .inr ⟨next, (table.mem_ends id next).mpr ⟨key, here ▸ first⟩, rest, around⟩
        · left
          rw [walk?, follow?_dropNode, if_neg here, first]
          exact around
      · exact .inr through

theorem below_cons (table : NodeTable μ κ ν) (id : NodeId) (rest : List NodeId) (other : NodeId) :
    table.Below (id :: rest) other ↔
      other = id ∨ (table.dropNode id).Below (table.ends id ++ rest) other := by
  have fewer (start : NodeId) (key : κ) (next : NodeId)
      (leads : (table.dropNode id).follow? start key = some next) :
      table.follow? start key = some next := by
    rw [follow?_dropNode] at leads
    split at leads
    · cases leads
    · exact leads
  constructor
  · rintro ⟨start, member, keys, leads⟩
    rcases walk?_dropNode id leads with around | ⟨next, child, more, through⟩
    · rcases List.mem_cons.mp member with rfl | member
      · cases keys with
        | nil => exact .inl (Option.some.inj leads).symm
        | cons key rest =>
            rw [walk?, follow?_dropNode, if_pos rfl] at around
            cases around
      · exact .inr ⟨start, List.mem_append_right _ member, keys, around⟩
    · exact .inr ⟨next, List.mem_append_left _ child, more, through⟩
  · rintro (rfl | ⟨start, member, keys, leads⟩)
    · exact ⟨other, List.mem_cons_self, [], rfl⟩
    · have leads := walk?_mono fewer leads
      rcases List.mem_append.mp member with child | member
      · obtain ⟨key, first⟩ := (table.mem_ends id start).mp child
        refine ⟨id, List.mem_cons_self, key :: keys, ?_⟩
        rw [walk?, first]
        exact leads
      · exact ⟨start, List.mem_cons_of_mem _ member, keys, leads⟩

omit [DecidableEq κ] in
/-- One step of the way down at a time. -/
theorem sweep_induct {motive : NodeTable μ κ ν → List NodeId → Prop}
    (nil : ∀ table, motive table [])
    (cons : ∀ table first rest, motive (table.dropNode first) (table.ends first ++ rest) →
      motive table (first :: rest))
    (table : NodeTable μ κ ν) (starts : List NodeId) : motive table starts := by
  induction table, starts using sweep.induct with
  | case1 table => exact nil table
  | case2 table first rest edges found ih =>
      refine cons table first rest ?_
      rw [ends, found]
      exact ih
  | case3 table first rest nothing ih =>
      refine cons table first rest ?_
      rw [ends, nothing]
      exact ih

omit [DecidableEq κ] in
theorem sweep_nil (table : NodeTable μ κ ν) : table.sweep [] = table := by
  rw [sweep]

omit [DecidableEq κ] in
theorem roots_sweep (table : NodeTable μ κ ν) (starts : List NodeId) :
    (table.sweep starts).roots = table.roots := by
  induction table, starts using sweep_induct with
  | nil table => rw [sweep_nil]
  | cons table first rest ih => rw [sweep_cons, ih, dropNode]

omit [DecidableEq κ] in
theorem made_sweep (table : NodeTable μ κ ν) (starts : List NodeId) :
    (table.sweep starts).made = table.made := by
  induction table, starts using sweep_induct with
  | nil table => rw [sweep_nil]
  | cons table first rest ih => rw [sweep_cons, ih, dropNode]

omit [DecidableEq κ] in
theorem get?_dropNode (table : NodeTable μ κ ν) (id other : NodeId) :
    (table.dropNode id).nodes.get? other = if other = id then none else table.nodes.get? other :=
  Directory.get?_erase _ _ _

omit [DecidableEq κ] in
theorem edges_dropNode (table : NodeTable μ κ ν) (id other : NodeId) :
    (table.dropNode id).edges.get? other = if other = id then none else table.edges.get? other :=
  Directory.get?_erase _ _ _

omit [DecidableEq κ] in
/-- What is not there does not come back. -/
theorem sweep_absent {starts : List NodeId} {id : NodeId} (nodes : table.nodes.get? id = none)
    (edges : table.edges.get? id = none) :
    (table.sweep starts).nodes.get? id = none ∧ (table.sweep starts).edges.get? id = none := by
  induction table, starts using sweep_induct with
  | nil table =>
      rw [sweep_nil]
      exact ⟨nodes, edges⟩
  | cons table first rest ih =>
      rw [sweep_cons]
      exact ih (by rw [get?_dropNode, nodes, ite_self]) (by rw [edges_dropNode, edges, ite_self])

theorem sweep_below (table : NodeTable μ κ ν) (starts : List NodeId) {id : NodeId}
    (below : table.Below starts id) :
    (table.sweep starts).nodes.get? id = none ∧ (table.sweep starts).edges.get? id = none := by
  induction table, starts using sweep_induct with
  | nil table =>
      obtain ⟨start, member, _⟩ := below
      cases member
  | cons table first rest ih =>
      rw [sweep_cons]
      rcases (table.below_cons first rest id).mp below with rfl | below
      · exact sweep_absent ((table.get?_dropNode id id).trans (if_pos rfl))
          ((table.edges_dropNode id id).trans (if_pos rfl))
      · exact ih below

theorem sweep_beside (table : NodeTable μ κ ν) (starts : List NodeId) {id : NodeId}
    (beside : ¬ table.Below starts id) :
    (table.sweep starts).nodes.get? id = table.nodes.get? id ∧
      (table.sweep starts).edges.get? id = table.edges.get? id := by
  induction table, starts using sweep_induct with
  | nil table =>
      rw [sweep_nil]
      exact ⟨rfl, rfl⟩
  | cons table first rest ih =>
      obtain ⟨differs, beside⟩ := not_or.mp ((table.below_cons first rest id).not.mp beside)
      have kept := ih beside
      rw [get?_dropNode, edges_dropNode, if_neg differs, if_neg differs] at kept
      rw [sweep_cons]
      exact kept

/-! ## A mode without its sequences -/

section Modes

variable [DecidableEq μ]

/-- A table, and what is left of it when a mode is cleared. -/
structure Cleared (table : NodeTable μ κ ν) (mode : μ) (left : NodeTable μ κ ν) : Prop where
  made : left.made = table.made
  roots : ∀ mode', left.roots.get? mode' = if mode' = mode then none else table.roots.get? mode'
  /-- The nodes of the mode are gone. -/
  below : ∀ keys id, table.find? mode keys = some id →
    left.nodes.get? id = none ∧ left.edges.get? id = none
  /-- The others are as they were. -/
  beside : ∀ id, (∀ keys, table.find? mode keys ≠ some id) →
    left.nodes.get? id = table.nodes.get? id ∧ left.edges.get? id = table.edges.get? id

theorem cleared_clearMode (table : NodeTable μ κ ν) (mode : μ) :
    Cleared table mode (table.clearMode mode) := by
  cases rooted : table.roots.get? mode with
  | none =>
      have same : table.clearMode mode = table := by simp only [clearMode, rooted]
      rw [same]
      refine ⟨rfl, fun mode' => ?_, fun keys id found => ?_, fun _ _ => ⟨rfl, rfl⟩⟩
      · split
        · rename_i here
          exact here ▸ rooted
        · rfl
      · rw [find?, rooted] at found
        cases found
  | some root =>
      generalize start : { table with roots := table.roots.erase mode } = closed
      have same : table.clearMode mode = closed.sweep [root] := by
        simp only [clearMode, rooted, ← start]
      have follows (id : NodeId) (key : κ) : closed.follow? id key = table.follow? id key := by
        rw [← start]
        rfl
      have reached (id : NodeId) :
          closed.Below [root] id ↔ ∃ keys, table.find? mode keys = some id := by
        simp [Below, find?, rooted, walk?_congr follows]
      rw [same]
      refine ⟨?_, fun mode' => ?_, fun keys id found => ?_, fun id away => ?_⟩
      · rw [made_sweep, ← start]
      · rw [roots_sweep, ← start]
        exact Directory.get?_erase _ _ _
      · exact sweep_below closed [root] ((reached id).mpr ⟨keys, found⟩)
      · have kept := sweep_beside closed [root] ((reached id).not.mpr (not_exists.mpr away))
        rw [← start] at kept ⊢
        exact kept

/-- A node of another mode is of no sequence of the mode. -/
theorem Linked.of_other (linked : Linked table) {mode mode' : μ} {keys' : List κ} {id : NodeId}
    (other : mode' ≠ mode) (found : table.find? mode' keys' = some id) (keys : List κ) :
    table.find? mode keys ≠ some id := fun found' =>
  other (linked.find?_injective found found').1

namespace Cleared

variable {mode : μ} {left : NodeTable μ κ ν} (cleared : Cleared table mode left)

include cleared

/-- What is still there is of no sequence of the mode, and is as it was. -/
theorem of_node {id : NodeId} {node : TableNode κ ν} (stored : left.nodes.get? id = some node) :
    (∀ keys, table.find? mode keys ≠ some id) ∧ table.nodes.get? id = some node := by
  have away (keys : List κ) : table.find? mode keys ≠ some id := by
    intro found
    rw [(cleared.below keys id found).1] at stored
    cases stored
  exact ⟨away, (cleared.beside id away).1.symm.trans stored⟩

theorem of_edges {id : NodeId} (kept : (left.edges.get? id).isSome = true) :
    ∀ keys, table.find? mode keys ≠ some id := by
  intro keys found
  rw [(cleared.below keys id found).2] at kept
  cases kept

theorem follow?_eq {id : NodeId} (away : ∀ keys, table.find? mode keys ≠ some id) (key : κ) :
    left.follow? id key = table.follow? id key := by
  rw [follow?, (cleared.beside id away).2, ← follow?]

theorem find?_eq (linked : Linked table) {mode' : μ} (other : mode' ≠ mode) (keys : List κ) :
    left.find? mode' keys = table.find? mode' keys := by
  induction keys using List.reverseRecOn with
  | nil => rw [find?_nil, find?_nil, cleared.roots, if_neg other]
  | append_singleton before key ih =>
      rw [find?_concat, find?_concat, ih]
      cases found : table.find? mode' before with
      | none => rfl
      | some id => exact cleared.follow?_eq (linked.of_other other found) key

theorem get?_eq (linked : Linked table) (mode' : μ) (keys : List κ) :
    left.get? mode' keys = if mode' = mode then none else table.get? mode' keys := by
  split
  · rename_i same
    rw [get?, find?, cleared.roots, if_pos same]
    rfl
  · rename_i other
    rw [get?, cleared.find?_eq linked other]
    cases found : table.find? mode' keys with
    | none => simp [get?, found]
    | some id =>
        simp only [get?, found, Option.bind_some, value?,
          (cleared.beside id (linked.of_other other found)).1]

theorem linked (linked : Linked table) : Linked left where
  numbered := by
    intro id node stored
    rw [cleared.made]
    exact linked.numbered id node (cleared.of_node stored).2
  root := by
    intro mode' id rooted
    rw [cleared.roots] at rooted
    split at rooted
    · cases rooted
    · rename_i other
      have away := linked.of_other other ((table.find?_nil mode').trans rooted)
      rw [(cleared.beside id away).1]
      exact linked.root mode' id rooted
  rooted := by
    intro id node stored alone
    obtain ⟨away, stored⟩ := cleared.of_node stored
    obtain ⟨mode', rooted⟩ := linked.rooted id node stored alone
    refine ⟨mode', ?_⟩
    rw [cleared.roots, if_neg]
    · exact rooted
    · rintro rfl
      exact away [] ((table.find?_nil mode').trans rooted)
  apart := by
    intro mode₁ mode₂ id first second
    rw [cleared.roots] at first second
    split at first
    · cases first
    · split at second
      · cases second
      · exact linked.apart mode₁ mode₂ id first second
  edge := by
    intro above key id leads
    have away := cleared.of_edges (Option.isSome_of_isSome_bind (congrArg Option.isSome leads))
    rw [cleared.follow?_eq away] at leads
    obtain ⟨node, stored, parent⟩ := linked.edge above key id leads
    refine ⟨node, ?_, parent⟩
    rw [(cleared.beside id ?_).1]
    · exact stored
    · intro keys found
      obtain ⟨before, _, found'⟩ := linked.before leads found
      exact away before found'
  parent := by
    intro id node above key stored parent
    obtain ⟨away, stored⟩ := cleared.of_node stored
    obtain ⟨leads, there, lower⟩ := linked.parent id node above key stored parent
    have away' (keys : List κ) : table.find? mode keys ≠ some above := fun found =>
      away (keys ++ [key]) (by rw [find?_concat, found]; exact leads)
    exact ⟨(cleared.follow?_eq away' key).trans leads,
      (congrArg Option.isSome (cleared.beside above away').1).trans there, lower⟩
  kept := by
    intro id kept
    obtain ⟨nodes, edges⟩ := cleared.beside id (cleared.of_edges kept)
    rw [edges] at kept
    rw [nodes]
    exact linked.kept id kept

theorem leads {exempt : Option NodeId} (leads : LeadsBut table exempt) : LeadsBut left exempt := by
  intro id node stored deep valueless differs
  obtain ⟨away, stored⟩ := cleared.of_node stored
  rw [hasEdges_congr (cleared.follow?_eq away)]
  exact leads id node stored deep valueless differs

end Cleared

/-- When a mode is cleared, its values and its root are gone, and nothing else. -/
theorem Tidy.clearMode (tidy : Tidy table) (mode : μ) :
    Tidy (table.clearMode mode) ∧
      (∀ mode' keys', (table.clearMode mode).get? mode' keys' =
        if mode' = mode then none else table.get? mode' keys') ∧
      ∀ mode', (table.clearMode mode).roots.get? mode' =
        if mode' = mode then none else table.roots.get? mode' := by
  have cleared := table.cleared_clearMode mode
  exact ⟨⟨cleared.linked tidy.linked, cleared.leads tidy.leads⟩, cleared.get?_eq tidy.linked,
    cleared.roots⟩

end Modes

end ModalInput.NodeTable
