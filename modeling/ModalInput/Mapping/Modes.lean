/-
# ModalInput.Mapping.Modes -- the modes that keys are mapped and bound in

Keys are told apart by six modes: Insert and Replace share one, and a selection's
shape does not count.  `MappedModes` is a set of them.

* `MapMode.of` -- the mode in which keys are looked up.
* `MappedModes.letters` -- the column that a listing shows.
-/
import ModalInput.Mode

namespace ModalInput

set_option autoImplicit false

inductive MapMode where
  | normal
  | visual
  | select
  | operatorPending
  /-- Insert and Replace mode. -/
  | insert
  | commandLine
  deriving DecidableEq, Repr, Inhabited

namespace MapMode

/-- Every mode, in the order in which they are listed. -/
def all : List MapMode := [.normal, .visual, .select, .operatorPending, .insert, .commandLine]

/-- The mode in which keys are looked up while the editor is in a mode. -/
def of : Mode → MapMode
  | .normal => .normal
  | .visual => .visual
  | .select => .select
  | .operatorPending => .operatorPending
  | .insert | .replace => .insert
  | .commandLine => .commandLine

theorem mem_all (mode : MapMode) : mode ∈ all := by cases mode <;> decide

end MapMode

/-- A set of modes. -/
structure MappedModes where
  normal : Bool := false
  visual : Bool := false
  select : Bool := false
  operatorPending : Bool := false
  insert : Bool := false
  commandLine : Bool := false
  deriving DecidableEq, Repr, Inhabited

namespace MappedModes

def contains (modes : MappedModes) : MapMode → Bool
  | .normal => modes.normal
  | .visual => modes.visual
  | .select => modes.select
  | .operatorPending => modes.operatorPending
  | .insert => modes.insert
  | .commandLine => modes.commandLine

/-- The set of one mode. -/
def single : MapMode → MappedModes
  | .normal => { normal := true }
  | .visual => { visual := true }
  | .select => { select := true }
  | .operatorPending => { operatorPending := true }
  | .insert => { insert := true }
  | .commandLine => { commandLine := true }

/-- The members, in their fixed order. -/
def toList (modes : MappedModes) : List MapMode := MapMode.all.filter modes.contains

theorem mem_toList {modes : MappedModes} {mode : MapMode} :
    mode ∈ modes.toList ↔ modes.contains mode = true := by
  simp [toList, MapMode.mem_all]

/-- The only member of a set that has just one. -/
def single? (modes : MappedModes) : Option MapMode :=
  match modes.toList with
  | [mode] => some mode
  | _ => none

def union (a b : MappedModes) : MappedModes where
  normal := a.normal || b.normal
  visual := a.visual || b.visual
  select := a.select || b.select
  operatorPending := a.operatorPending || b.operatorPending
  insert := a.insert || b.insert
  commandLine := a.commandLine || b.commandLine

instance : Union MappedModes := ⟨union⟩

/-- Visual and Select mode. -/
def selecting : MappedModes := { visual := true, select := true }

/-- The modes of the plain mapping commands. -/
def commanding : MappedModes :=
  { normal := true, visual := true, select := true, operatorPending := true }

/-- The modes of the mapping commands with a bang. -/
def typing : MappedModes := { insert := true, commandLine := true }

/-- The column of a listing: a letter for each mode, one for both selecting
modes, and a sign of their own for the two sets that commands use most. -/
def letters (modes : MappedModes) : String :=
  if modes = commanding then " "
  else if modes = typing then "!"
  else
    (if modes.normal then "n" else "") ++
      (if modes.visual && modes.select then "v"
        else if modes.visual then "x"
        else if modes.select then "s" else "") ++
      (if modes.operatorPending then "o" else "") ++
      (if modes.insert then "i" else "") ++
      (if modes.commandLine then "c" else "")

/-- The set as a number: the first mode is worth 1, each later one twice the one
before it. -/
def bits (modes : MappedModes) : Nat :=
  MapMode.all.foldr (fun mode rest => rest * 2 + (modes.contains mode).toNat) 0

end MappedModes

end ModalInput
