/-
# ModalInput.Proofs.StoredNodes -- a table of nodes keeps no garbage

After any operations a table stores a root for every mode that was opened since it was last
closed, and a node for every sequence that is not empty and starts a sequence that has a
value (`Needed`), and nothing else (`noGarbage_run`).  Each of these sequences leads to its
own node, and edges lead nowhere else.

The numbers of nodes start again after all of them were given, so the number of nodes that were
ever made is a hypothesis.  It is bounded by the keys of the insertions (`made_foldl_le`).

* `Opened` -- the modes that have a root, told from the operations.
* `Reached` -- the invariant of a run: the table is tidy, holds the values that the operations
  gave, and has these roots.
-/
import ModalInput.Proofs.NodeRemoval

namespace ModalInput

set_option autoImplicit false

variable {μ κ ν : Type}

/-! ## The modes that were opened -/

namespace KeyTable

/-- The operation gives the mode a sequence. -/
def Operation.Opens : Operation μ κ ν → μ → Prop
  | .insert mode' keys _, mode => keys ≠ [] ∧ mode = mode'
  | _, _ => False

/-- The operation takes every sequence of the mode away at once. -/
def Operation.Closes : Operation μ κ ν → μ → Prop
  | .clearMode mode', mode => mode = mode'
  | .clear, _ => True
  | _, _ => False

/-- The mode was given a sequence, and was not closed after that. -/
def Opened (operations : List (Operation μ κ ν)) (mode : μ) : Prop :=
  ∃ before operation after, operations = before ++ operation :: after ∧ operation.Opens mode ∧
    ∀ later ∈ after, ¬ later.Closes mode

theorem not_opened_nil (mode : μ) : ¬ Opened ([] : List (Operation μ κ ν)) mode := by
  rintro ⟨before, operation, after, split, _⟩
  simp at split

theorem opened_concat (operations : List (Operation μ κ ν)) (last : Operation μ κ ν) (mode : μ) :
    Opened (operations ++ [last]) mode ↔
      last.Opens mode ∨ (Opened operations mode ∧ ¬ last.Closes mode) := by
  constructor
  · rintro ⟨before, operation, after, split, opens, stays⟩
    rcases List.eq_nil_or_concat after with rfl | ⟨between, final, rfl⟩
    · obtain ⟨_, same⟩ := List.append_inj' split rfl
      cases same
      exact .inl opens
    · rw [List.concat_eq_append, ← List.cons_append, ← List.append_assoc] at split
      obtain ⟨rfl, same⟩ := List.append_inj' split rfl
      cases same
      simp only [List.concat_eq_append, List.mem_append, List.mem_singleton] at stays
      exact .inr ⟨⟨before, operation, between, rfl, opens, fun later member =>
        stays later (.inl member)⟩, stays last (.inr rfl)⟩
  · rintro (opens | ⟨⟨before, operation, after, rfl, opens, stays⟩, unclosed⟩)
    · exact ⟨operations, last, [], rfl, opens, by simp⟩
    · refine ⟨before, operation, after ++ [last], by simp, opens, fun later member => ?_⟩
      rcases List.mem_append.mp member with old | new
      · exact stays later old
      · rw [List.mem_singleton.mp new]
        exact unclosed

variable [DecidableEq μ] [DecidableEq κ]

/-- The sequences that are on the way to a value, and the empty sequence of an open mode. -/
def Needed (operations : List (Operation μ κ ν)) : Set (μ × List κ) :=
  { place | (place.2 = [] ∧ Opened operations place.1) ∨
    (place.2 ≠ [] ∧ ∃ mapped, place.2 <+: mapped ∧
      (contentsAfter operations place.1 mapped).isSome = true) }

end KeyTable

namespace NodeTable

open KeyTable (Operation Opened Needed contentsAfter)

variable [DecidableEq μ] [DecidableEq κ]

/-! ## A run -/

/-- The table after an operation. -/
def run (table : NodeTable μ κ ν) : Operation μ κ ν → NodeTable μ κ ν
  | .insert mode keys value => (table.replace mode keys value).2
  | .remove mode keys => (table.take mode keys).2
  | .clearMode mode => table.clearMode mode
  | .clear => table.clear

/-- The most nodes that an operation makes. -/
def cost : Operation μ κ ν → Nat
  | .insert _ keys _ => keys.length + 1
  | _ => 0

theorem made_clearMode (table : NodeTable μ κ ν) (mode : μ) :
    (table.clearMode mode).made = table.made :=
  (table.cleared_clearMode mode).made

theorem made_run (table : NodeTable μ κ ν) (operation : Operation μ κ ν) :
    table.made ≤ (table.run operation).made ∧
      (table.run operation).made ≤ table.made + cost operation := by
  cases operation with
  | insert mode keys value => exact table.made_replace mode keys value
  | remove mode keys =>
      have same := table.made_take mode keys
      exact ⟨same.ge, same.le⟩
  | clearMode mode =>
      have same := table.made_clearMode mode
      exact ⟨same.ge, same.le⟩
  | clear => exact ⟨Nat.le_refl _, Nat.le_refl _⟩

/-- Numbers are not taken back. -/
theorem le_made_foldl (table : NodeTable μ κ ν) (operations : List (Operation μ κ ν)) :
    table.made ≤ (operations.foldl run table).made := by
  induction operations generalizing table with
  | nil => exact Nat.le_refl _
  | cons first rest ih => exact (table.made_run first).1.trans (ih (table.run first))

/-- A run makes at most a root and a node for every key that it inserts. -/
theorem made_foldl_le (table : NodeTable μ κ ν) (operations : List (Operation μ κ ν)) :
    (operations.foldl run table).made ≤ table.made + (operations.map cost).sum := by
  induction operations generalizing table with
  | nil => exact Nat.le_refl _
  | cons first rest ih =>
      have one := (table.made_run first).2
      have later := ih (table.run first)
      rw [List.foldl_cons, List.map_cons, List.sum_cons]
      omega

/-! ## What a run leaves -/

/-- A table that operations on an empty one lead to. -/
structure Reached (operations : List (Operation μ κ ν)) (table : NodeTable μ κ ν) : Prop where
  tidy : Tidy table
  values : ∀ mode keys, table.get? mode keys = contentsAfter operations mode keys
  rooted : ∀ mode, (table.roots.get? mode).isSome = true ↔ Opened operations mode

theorem reached_empty : Reached ([] : List (Operation μ κ ν)) empty where
  tidy := tidy_cleared empty
  values := fun _ _ => rfl
  rooted := fun mode => iff_of_false (by intro there; cases there) (KeyTable.not_opened_nil mode)

/-- One operation more. -/
theorem Reached.run {operations : List (Operation μ κ ν)} {table : NodeTable μ κ ν}
    (reached : Reached operations table) (last : Operation μ κ ν)
    (room : (table.run last).made ≤ UInt64.size) :
    Reached (operations ++ [last]) (table.run last) := by
  have tidy := reached.tidy
  cases last with
  | insert mode keys value =>
      by_cases typed : keys = []
      · have same : table.run (.insert mode keys value) = table := by
          simp [NodeTable.run, replace, typed]
        rw [same]
        refine ⟨tidy, fun mode' keys' => ?_, fun mode' => ?_⟩
        · rw [KeyTable.contentsAfter_concat, reached.values]
          simp [Operation.change, typed]
        · rw [KeyTable.opened_concat, reached.rooted]
          simp [Operation.Opens, Operation.Closes, typed]
      · obtain ⟨tidy', _, values, rooted⟩ := tidy.replace mode typed value room
        refine ⟨tidy', fun mode' keys' => ?_, fun mode' => ?_⟩
        · rw [KeyTable.contentsAfter_concat]
          simp only [Operation.change, typed, ne_eq, not_false_eq_true, true_and, ← reached.values]
          exact values mode' keys'
        · rw [KeyTable.opened_concat, ← reached.rooted]
          refine (rooted mode').trans ?_
          simp [Operation.Opens, Operation.Closes, typed]
  | remove mode keys =>
      obtain ⟨tidy', _, values, roots⟩ := tidy.take mode keys
      refine ⟨tidy', fun mode' keys' => ?_, fun mode' => ?_⟩
      · rw [KeyTable.contentsAfter_concat]
        simp only [Operation.change, ← reached.values]
        exact values mode' keys'
      · rw [KeyTable.opened_concat, ← reached.rooted]
        show ((table.take mode keys).2.roots.get? mode').isSome = true ↔ _
        rw [roots]
        simp [Operation.Opens, Operation.Closes]
  | clearMode mode =>
      obtain ⟨tidy', values, roots⟩ := tidy.clearMode mode
      refine ⟨tidy', fun mode' keys' => ?_, fun mode' => ?_⟩
      · rw [KeyTable.contentsAfter_concat]
        simp only [Operation.change, ← reached.values]
        exact values mode' keys'
      · rw [KeyTable.opened_concat, ← reached.rooted]
        show ((table.clearMode mode).roots.get? mode').isSome = true ↔ _
        rw [roots]
        by_cases same : mode' = mode <;> simp [same, Operation.Opens, Operation.Closes]
  | clear =>
      refine ⟨tidy_cleared table, fun mode' keys' => ?_, fun mode' => ?_⟩
      · rw [KeyTable.contentsAfter_concat]
        rfl
      · rw [KeyTable.opened_concat]
        simp [NodeTable.run, clear, Operation.Opens, Operation.Closes]

theorem reached_foldl (operations : List (Operation μ κ ν))
    (room : (operations.foldl run empty).made ≤ UInt64.size) :
    Reached operations (operations.foldl run empty) := by
  induction operations using List.reverseRecOn with
  | nil => exact reached_empty
  | append_singleton before last ih =>
      rw [List.foldl_append] at room ⊢
      exact (ih ((made_run _ last).1.trans room)).run last room

/-! ## No garbage -/

/-- What is stored is what the operations need, and all of it is linked. -/
structure NoGarbage (operations : List (Operation μ κ ν)) (table : NodeTable μ κ ν) : Prop where
  /-- There is one root for each mode that was opened. -/
  roots : ∀ mode, (table.roots.get? mode).isSome = true ↔ Opened operations mode
  /-- A sequence leads to a node exactly if it is needed. -/
  found : ∀ mode keys, (table.find? mode keys).isSome = true ↔ (mode, keys) ∈ Needed operations
  /-- Every node is at the end of a sequence. -/
  stored : ∀ id, (table.nodes.get? id).isSome = true ↔
    ∃ mode keys, table.find? mode keys = some id
  /-- No node is at the end of two sequences. -/
  once : ∀ mode mode' keys keys' id, table.find? mode keys = some id →
    table.find? mode' keys' = some id → mode = mode' ∧ keys = keys'
  /-- So there are as many nodes as needed sequences. -/
  count : (Needed operations).encard = table.nodes.entries.length
  /-- An edge leads to a node that names it. -/
  edges : ∀ origin key id, table.follow? origin key = some id →
    (table.nodes.get? origin).isSome = true ∧
      ∃ node, table.nodes.get? id = some node ∧ node.parent = some (origin, key)
  /-- Edges are kept for stored nodes only. -/
  kept : ∀ id, (table.edges.get? id).isSome = true → (table.nodes.get? id).isSome = true
  /-- What leads to nothing is a root or has a value. -/
  leaves : ∀ id node, table.nodes.get? id = some node → table.hasEdges id = false →
    (∃ mode, table.roots.get? mode = some id) ∨ node.value.isSome = true
  /-- The values are those that were given. -/
  values : ∀ mode keys, table.get? mode keys = contentsAfter operations mode keys

theorem Reached.found_iff {operations : List (Operation μ κ ν)} {table : NodeTable μ κ ν}
    (reached : Reached operations table) (mode : μ) (keys : List κ) :
    (table.find? mode keys).isSome = true ↔ (mode, keys) ∈ Needed operations := by
  by_cases typed : keys = []
  · subst typed
    rw [find?_nil, reached.rooted]
    simp [Needed]
  · rw [reached.tidy.found_iff mode typed]
    simp only [reached.values, Needed, Set.mem_ofPred_eq, typed, false_and, false_or, ne_eq,
      not_false_eq_true, true_and]
    constructor
    · rintro ⟨more, valued⟩
      exact ⟨keys ++ more, List.prefix_append keys more, valued⟩
    · rintro ⟨_, ⟨more, rfl⟩, valued⟩
      exact ⟨more, valued⟩

/-- Each stored node is that of one needed sequence. -/
theorem Reached.count {operations : List (Operation μ κ ν)} {table : NodeTable μ κ ν}
    (reached : Reached operations table) :
    (Needed operations).encard = table.nodes.entries.length := by
  have linked := reached.tidy.linked
  have every : Needed operations = { place : μ × List κ | ∃ id node,
      table.find? place.1 place.2 = some id ∧ table.nodes.get? id = some node ∧ true = true } := by
    ext ⟨mode, keys⟩
    rw [← reached.found_iff]
    constructor
    · intro found
      obtain ⟨id, found⟩ := Option.isSome_iff_exists.mp found
      obtain ⟨node, stored⟩ := Option.isSome_iff_exists.mp (linked.stored found)
      exact ⟨id, node, found, stored, rfl⟩
    · rintro ⟨id, _, found, _⟩
      exact Option.isSome_iff_exists.mpr ⟨id, found⟩
  rw [every, linked.encard_places fun _ => true, List.filter_true]

/-- After any operations on an empty table, which make fewer nodes than there are numbers, the
table keeps no garbage. -/
theorem noGarbage_run (operations : List (Operation μ κ ν))
    (room : (operations.foldl run empty).made < UInt64.size) :
    NoGarbage operations (operations.foldl run empty) := by
  have reached := reached_foldl operations room.le
  have linked := reached.tidy.linked
  refine ⟨reached.rooted, reached.found_iff, fun id => ⟨linked.exists_path, ?_⟩, ?_, reached.count,
    fun origin key id leads => ⟨linked.start leads, linked.edge origin key id leads⟩, linked.kept,
    ?_, reached.values⟩
  · rintro ⟨mode, keys, found⟩
    exact linked.stored found
  · intro mode mode' keys keys' id found found'
    exact linked.find?_injective found found'
  · intro id node stored bare
    cases parent : node.parent with
    | none => exact .inl (linked.rooted id node stored parent)
    | some up =>
        right
        cases valued : node.value with
        | some value => rfl
        | none =>
            rw [reached.tidy.leads id node stored (by simp [parent]) valued
              (Option.some_ne_none id)] at bare
            cases bare

/-- One sequence of two that share their first key is taken away, and a mode is closed. -/
theorem branching_noGarbage :
    let operations : List (Operation Bool Nat Nat) :=
      [.insert true [1, 2] 5, .insert true [1, 3, 4] 6, .insert false [1] 7,
        .remove true [1, 3, 4], .clearMode false]
    (operations.foldl run empty).made < UInt64.size ∧
      NoGarbage operations (operations.foldl run empty) := by
  intro operations
  have room : (operations.foldl run empty).made < UInt64.size :=
    Nat.lt_of_le_of_lt (made_foldl_le empty operations) (by decide)
  exact ⟨room, noGarbage_run operations room⟩

end NodeTable

end ModalInput
