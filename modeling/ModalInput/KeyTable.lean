/-
# ModalInput.KeyTable -- values under key sequences, apart for each mode

Typed keys are looked up while more may follow, so a table answers one of four
things about a sequence (`Lookup`): nothing starts with it, it has a value and
nothing longer starts with it, only longer sequences start with it, or both.

Each mode has a forest: the keys that can come first, each with the value of the
sequence that ends there and the forest of the keys that can follow.  Two rules
keep the answers right: siblings have different keys, and every tree leads to a
value, so removing a value also removes the keys that led to nothing else
(`Forest.graft`).

* `Forest.descend?` -- what is found at the end of a sequence.
* `KeyTable.insert`, `remove`, `clearMode` -- the operations; an empty sequence
  never has a value.
* `KeyTable.entries` -- the sequences of a mode with their values.
-/
import ModalInput.Directory

namespace ModalInput

set_option autoImplicit false

/-- What a table knows about typed keys. -/
inductive Lookup (ν : Type) where
  | unmapped
  | complete (value : ν)
  /-- Only longer sequences start with these keys. -/
  | incomplete
  | ambiguous (value : ν)
  deriving DecidableEq, Repr

namespace Lookup

variable {ν : Type}

/-- Further keys can lead somewhere else. -/
def needsMore : Lookup ν → Bool
  | .incomplete | .ambiguous _ => true
  | _ => false

/-- The value of exactly these keys. -/
def value? : Lookup ν → Option ν
  | .complete value | .ambiguous value => some value
  | _ => none

/-- The answer for a value that may be there, and longer sequences that may. -/
def of (value : Option ν) (more : Bool) : Lookup ν :=
  match value, more with
  | none, false => .unmapped
  | none, true => .incomplete
  | some value, false => .complete value
  | some value, true => .ambiguous value

@[simp] theorem value?_of (value : Option ν) (more : Bool) : (of value more).value? = value := by
  cases value <;> cases more <;> rfl

@[simp] theorem needsMore_of (value : Option ν) (more : Bool) :
    (of value more).needsMore = more := by
  cases value <;> cases more <;> rfl

/-- The answer with the value changed. -/
def map {ω : Type} (f : ν → ω) : Lookup ν → Lookup ω
  | .unmapped => .unmapped
  | .complete value => .complete (f value)
  | .incomplete => .incomplete
  | .ambiguous value => .ambiguous (f value)

end Lookup

/-- Trees with different first keys: the first tree's key, the value of the
sequence that ends with it, what can follow it, and the other trees. -/
inductive Forest (κ ν : Type) where
  | empty
  | tree (key : κ) (value : Option ν) (below beside : Forest κ ν)
  deriving Repr

namespace Forest

variable {κ ν : Type}

def isEmpty : Forest κ ν → Bool
  | .empty => true
  | .tree .. => false

/-- A single sequence with its value. -/
def path (value : ν) (key : κ) : List κ → Forest κ ν
  | [] => .tree key (some value) .empty .empty
  | next :: rest => .tree key none (path value next rest) .empty

/-- A tree in front of others, unless it leads to no value. -/
def graft (key : κ) (value : Option ν) (below beside : Forest κ ν) : Forest κ ν :=
  if value.isNone && below.isEmpty then beside else .tree key value below beside

/-- Every sequence with its value. -/
def entries : Forest κ ν → List (List κ × ν)
  | .empty => []
  | .tree key value below beside =>
      (value.toList.map fun v => ([key], v)) ++
        (below.entries.map fun entry => (key :: entry.1, entry.2)) ++ beside.entries

/-- The number of values. -/
def size : Forest κ ν → Nat
  | .empty => 0
  | .tree _ value below beside => value.toList.length + below.size + beside.size

/-- The number of trees, at any depth. -/
def nodes : Forest κ ν → Nat
  | .empty => 0
  | .tree _ _ below beside => 1 + below.nodes + beside.nodes

section Search

variable [DecidableEq κ]

/-- The value and the followers of a first key. -/
def child? (key : κ) : Forest κ ν → Option (Option ν × Forest κ ν)
  | .empty => none
  | .tree first value below beside =>
      if first = key then some (value, below) else child? key beside

/-- From the end of one sequence to that of a longer one. -/
def descend? : Option ν × Forest κ ν → List κ → Option (Option ν × Forest κ ν)
  | here, [] => some here
  | here, key :: rest => (here.2.child? key).bind fun next => descend? next rest

/-- The forest with a value at the end of a sequence. -/
def insert (value : ν) : Forest κ ν → List κ → Forest κ ν
  | forest, [] => forest
  | .empty, key :: rest => path value key rest
  | .tree first old below beside, key :: rest =>
      if first = key then
        if rest.isEmpty then .tree first (some value) below beside
        else .tree first old (below.insert value rest) beside
      else .tree first old below (beside.insert value (key :: rest))

/-- The forest without the value of a sequence, and without the keys that led to
nothing else. -/
def remove : Forest κ ν → List κ → Forest κ ν
  | forest, [] => forest
  | .empty, _ :: _ => .empty
  | .tree first value below beside, key :: rest =>
      if first = key then
        if rest.isEmpty then graft first none below beside
        else graft first value (below.remove rest) beside
      else .tree first value below (beside.remove (key :: rest))

end Search

end Forest

/-- A forest for each mode that was ever given a sequence since it was cleared. -/
structure KeyTable (μ κ ν : Type) where
  roots : Directory μ (Forest κ ν) := .empty

namespace KeyTable

variable {μ κ ν : Type}

def empty : KeyTable μ κ ν := {}

instance : Inhabited (KeyTable μ κ ν) := ⟨empty⟩

/-- The number of values in all modes. -/
def size (table : KeyTable μ κ ν) : Nat :=
  table.roots.values.foldl (fun n forest => n + forest.size) 0

section Operations

variable [DecidableEq μ] [DecidableEq κ]

/-- What is found at the end of a sequence: its value, and what can follow. -/
def find? (table : KeyTable μ κ ν) (mode : μ) (keys : List κ) : Option (Option ν × Forest κ ν) :=
  (table.roots.get? mode).bind fun forest => Forest.descend? (none, forest) keys

/-- The value of exactly these keys. -/
def get? (table : KeyTable μ κ ν) (mode : μ) (keys : List κ) : Option ν :=
  (table.find? mode keys).bind Prod.fst

/-- Look up typed keys. -/
def lookup (table : KeyTable μ κ ν) (mode : μ) (keys : List κ) : Lookup ν :=
  match table.find? mode keys with
  | some (value, below) => .of value !below.isEmpty
  | none => .unmapped

/-- Give a sequence a value; an empty sequence takes none. -/
def insert (table : KeyTable μ κ ν) (mode : μ) (keys : List κ) (value : ν) : KeyTable μ κ ν :=
  if keys.isEmpty then table
  else { roots := table.roots.insert mode (((table.roots.get? mode).getD .empty).insert value keys) }

/-- Take the value of a sequence away. -/
def remove (table : KeyTable μ κ ν) (mode : μ) (keys : List κ) : KeyTable μ κ ν :=
  match table.roots.get? mode with
  | some forest =>
      if (table.get? mode keys).isSome then { roots := table.roots.insert mode (forest.remove keys) }
      else table
  | none => table

/-- No sequence of the mode has a value. -/
def isModeEmpty (table : KeyTable μ κ ν) (mode : μ) : Bool :=
  ((table.roots.get? mode).map Forest.isEmpty).getD true

/-- The sequences of a mode with their values. -/
def entries (table : KeyTable μ κ ν) (mode : μ) : List (List κ × ν) :=
  ((table.roots.get? mode).map Forest.entries).getD []

/-- Take every value of a mode away. -/
def clearMode (table : KeyTable μ κ ν) (mode : μ) : KeyTable μ κ ν :=
  { roots := table.roots.erase mode }

end Operations

end KeyTable

end ModalInput
