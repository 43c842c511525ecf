/-
# ModalInput.NodeTable -- a key table in numbered nodes

The sequences of a mode start at its root, and every key follows an edge to the next node.
A node knows the edge that leads to it, so that a removal can go up from the end of a
sequence and delete the nodes that lead to nothing else.  Roots, nodes and edges are kept in
three directories, and each new node has the next number.

A table of this kind answers what a `KeyTable` answers: its nodes are the trees of the
forests there.  What an edge leads to is found by its number, though, and an operation that
forgets a node or an edge leaves garbage behind.

* `NodeTable.replace`, `take`, `clearMode`, `clear` -- the operations; the first two tell the
  value that was there before.
* `NodeTable.entries` -- the sequences of a mode with their values, from a walk over its nodes.
* `NodeTable.prune` -- delete a node that leads to nothing, and what led only there.
* `NodeTable.sweep` -- delete nodes with everything below them.
-/
import ModalInput.KeyTable

namespace ModalInput

set_option autoImplicit false

/-- The number of a node. -/
structure NodeId where
  number : UInt64
  deriving DecidableEq

structure TableNode (κ ν : Type) where
  /-- Where the edge that leads here starts, and its key; a root has none. -/
  parent : Option (NodeId × κ)
  value : Option ν := none

structure NodeTable (μ κ ν : Type) where
  /-- The number of nodes ever made. -/
  made : Nat := 0
  roots : Directory μ NodeId := .empty
  nodes : Directory NodeId (TableNode κ ν) := .empty
  /-- The edges that start at a node, by their keys. -/
  edges : Directory NodeId (Directory κ NodeId) := .empty

namespace NodeTable

variable {μ κ ν : Type}

def empty : NodeTable μ κ ν := {}

instance : Inhabited (NodeTable μ κ ν) := ⟨empty⟩

/-- The number of the next node.  Numbers start again when all of them were given. -/
def nextId (table : NodeTable μ κ ν) : NodeId := ⟨.ofNat table.made⟩

/-- The number of values in all modes. -/
def size (table : NodeTable μ κ ν) : Nat :=
  (table.nodes.values.filter fun node => node.value.isSome).length

def value? (table : NodeTable μ κ ν) (id : NodeId) : Option ν :=
  (table.nodes.get? id).bind TableNode.value

/-- Some sequence goes on at a node. -/
def hasEdges (table : NodeTable μ κ ν) (id : NodeId) : Bool :=
  ((table.edges.get? id).map fun edges => !edges.entries.isEmpty).getD false

/-- A new node, which has no value yet. -/
def addNode (table : NodeTable μ κ ν) (parent : Option (NodeId × κ)) : NodeTable μ κ ν :=
  { table with
    made := table.made + 1
    nodes := table.nodes.insert table.nextId { parent } }

/-- Give a node a value, or take its value away. -/
def setValue (table : NodeTable μ κ ν) (id : NodeId) (value : Option ν) : NodeTable μ κ ν :=
  match table.nodes.get? id with
  | some node => { table with nodes := table.nodes.insert id { node with value } }
  | none => table

/-- Without a node and the edges that start there. -/
def dropNode (table : NodeTable μ κ ν) (id : NodeId) : NodeTable μ κ ν :=
  { table with nodes := table.nodes.erase id, edges := table.edges.erase id }

/-- A way down ends, as the edges that are left get fewer, or else the nodes that wait do. -/
theorem dropNode_decreases {α : Type} (table : NodeTable μ κ ν) (id : NodeId) (first : α)
    (rest : List α) :
    Prod.Lex (· < ·) (· < ·) ((table.dropNode id).edges.entries.length, rest.length)
      (table.edges.entries.length, (first :: rest).length) := by
  rcases Nat.lt_or_eq_of_le (Directory.length_erase_le table.edges id) with less | same
  · exact .left _ _ less
  · simp only [dropNode, same]
    exact .right _ (Nat.lt_succ_self _)

/-- Delete nodes, with everything that edges lead to from them. -/
def sweep (table : NodeTable μ κ ν) : List NodeId → NodeTable μ κ ν
  | [] => table
  | id :: rest =>
      match _found : table.edges.get? id with
      | some edges => (table.dropNode id).sweep (edges.values ++ rest)
      | none => (table.dropNode id).sweep rest
termination_by stack => (table.edges.entries.length, stack.length)
decreasing_by
  · exact .left _ _ (Directory.length_erase_lt _found)
  · exact table.dropNode_decreases id id rest

/-- The values of some nodes and of everything below them, with the keys that lead there from
where the way started.  The node on top is visited, and the nodes that its edges lead to come
on top of the others.  A visited node is left out of what follows, so that the way ends; in
a tree no way comes back to it, and that makes no difference (`Apart.walks`). -/
def listing (table : NodeTable μ κ ν) : List (NodeId × List κ) → List (List κ × ν)
  | [] => []
  | (id, keys) :: rest =>
      ((table.value? id).toList.map fun value => (keys, value)) ++
        match _found : table.edges.get? id with
        | some edges =>
            (table.dropNode id).listing
              ((edges.entries.reverse.map fun edge => (edge.2, keys ++ [edge.1])) ++ rest)
        | none => (table.dropNode id).listing rest
termination_by stack => (table.edges.entries.length, stack.length)
decreasing_by
  · exact .left _ _ (Directory.length_erase_lt _found)
  · exact table.dropNode_decreases id (id, keys) rest

section Keys

variable [DecidableEq κ]

/-- Where the edge of a key leads. -/
def follow? (table : NodeTable μ κ ν) (id : NodeId) (key : κ) : Option NodeId :=
  (table.edges.get? id).bind fun edges => edges.get? key

/-- The end of a sequence that starts at some node. -/
def walk? (table : NodeTable μ κ ν) : NodeId → List κ → Option NodeId
  | id, [] => some id
  | id, key :: rest => (table.follow? id key).bind fun next => table.walk? next rest

/-- With an edge from one node to another. -/
def addEdge (table : NodeTable μ κ ν) (id : NodeId) (key : κ) (next : NodeId) :
    NodeTable μ κ ν :=
  { table with edges := table.edges.insert id (((table.edges.get? id).getD .empty).insert key next) }

/-- Without the edge of a key. -/
def dropEdge (table : NodeTable μ κ ν) (id : NodeId) (key : κ) : NodeTable μ κ ν :=
  match table.edges.get? id with
  | some edges => { table with edges := table.edges.insert id (edges.erase key) }
  | none => table

/-- One more key of a sequence: its edge, which is made if there is none. -/
def extend (here : NodeTable μ κ ν × NodeId) (key : κ) : NodeTable μ κ ν × NodeId :=
  match here.1.follow? here.2 key with
  | some next => (here.1, next)
  | none =>
      ((here.1.addNode (some (here.2, key))).addEdge here.2 key here.1.nextId, here.1.nextId)

/-- Delete a node that has neither a value nor edges, and then the nodes above it that led
to nothing else.  A root stays. -/
def prune (table : NodeTable μ κ ν) (id : NodeId) : NodeTable μ κ ν :=
  if table.hasEdges id then table
  else
    match _found : table.nodes.get? id with
    | some ⟨some (above, key), none⟩ => prune ((table.dropNode id).dropEdge above key) above
    | _ => table
termination_by table.nodes.entries.length
decreasing_by
  have kept : ((table.dropNode id).dropEdge above key).nodes = table.nodes.erase id := by
    unfold dropEdge
    split <;> rfl
  rw [kept]
  exact Directory.length_erase_lt _found

end Keys

section Operations

variable [DecidableEq μ] [DecidableEq κ]

/-- The root of a mode, which is made if there is none. -/
def rootOf (table : NodeTable μ κ ν) (mode : μ) : NodeTable μ κ ν × NodeId :=
  match table.roots.get? mode with
  | some id => (table, id)
  | none =>
      ({ table.addNode none with roots := table.roots.insert mode table.nextId }, table.nextId)

/-- The end of a sequence. -/
def find? (table : NodeTable μ κ ν) (mode : μ) (keys : List κ) : Option NodeId :=
  (table.roots.get? mode).bind fun root => table.walk? root keys

/-- The value of exactly these keys. -/
def get? (table : NodeTable μ κ ν) (mode : μ) (keys : List κ) : Option ν :=
  (table.find? mode keys).bind table.value?

/-- Look up typed keys. -/
def lookup (table : NodeTable μ κ ν) (mode : μ) (keys : List κ) : Lookup ν :=
  match table.find? mode keys with
  | some id => .of (table.value? id) (table.hasEdges id)
  | none => .unmapped

/-- No sequence of the mode has a value. -/
def isModeEmpty (table : NodeTable μ κ ν) (mode : μ) : Bool :=
  ((table.roots.get? mode).map fun root => !table.hasEdges root).getD true

/-- The sequences of a mode with their values. -/
def entries (table : NodeTable μ κ ν) (mode : μ) : List (List κ × ν) :=
  ((table.roots.get? mode).map fun root => table.listing [(root, [])]).getD []

/-- Give a sequence a value, and tell the value that is replaced; an empty sequence takes
none. -/
def replace (table : NodeTable μ κ ν) (mode : μ) (keys : List κ) (value : ν) :
    Option ν × NodeTable μ κ ν :=
  if keys.isEmpty then (none, table)
  else
    let ends := keys.foldl extend (table.rootOf mode)
    (ends.1.value? ends.2, ends.1.setValue ends.2 (some value))

/-- Take the value of a sequence away, and tell it. -/
def take (table : NodeTable μ κ ν) (mode : μ) (keys : List κ) : Option ν × NodeTable μ κ ν :=
  match table.find? mode keys with
  | some id =>
      match table.value? id with
      | some value => (some value, (table.setValue id none).prune id)
      | none => (none, table)
  | none => (none, table)

/-- Take every value of a mode away. -/
def clearMode (table : NodeTable μ κ ν) (mode : μ) : NodeTable μ κ ν :=
  match table.roots.get? mode with
  | some root => { table with roots := table.roots.erase mode }.sweep [root]
  | none => table

/-- Take every value away.  Numbers are not given again. -/
def clear (table : NodeTable μ κ ν) : NodeTable μ κ ν := { made := table.made }

end Operations

end NodeTable

end ModalInput
