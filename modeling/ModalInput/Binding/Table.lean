/-
# ModalInput.Binding.Table -- the keys of the built-in commands

Below the mappings of the user lies a table that says which keys, in which mode,
are which command.  It is a `KeyTable` of actions; keys are given as they are
written.
-/
import ModalInput.Command
import ModalInput.Error
import ModalInput.KeyTable
import ModalInput.Key.Reader
import ModalInput.Mapping.Modes

namespace ModalInput

set_option autoImplicit false

structure CommandKeys where
  table : KeyTable MapMode Key Action := .empty

namespace CommandKeys

/-- No key is a command. -/
def empty : CommandKeys := {}

instance : Inhabited CommandKeys := ⟨empty⟩

/-- Bind keys in every mode of a set. -/
def bind (keys : CommandKeys) (modes : MappedModes) (sequence : List Key) (action : Action) :
    CommandKeys :=
  ⟨modes.toList.foldl (fun table mode => table.insert mode sequence action) keys.table⟩

/-- `bind` with the keys as they are written; there have to be some. -/
def add (keys : CommandKeys) (modes : MappedModes) (sequence : String) (action : Action) :
    Except MacroError CommandKeys :=
  (Key.readSome? sequence).map fun sequence => keys.bind modes sequence action

/-- Whether some mode of a set has these keys bound. -/
def bound (keys : CommandKeys) (modes : MappedModes) (sequence : String) : Bool :=
  modes.toList.any fun mode => (keys.table.get? mode (Key.ofText sequence)).isSome

/-- Unbind keys in every mode of a set. -/
def remove (keys : CommandKeys) (modes : MappedModes) (sequence : String) : CommandKeys :=
  ⟨modes.toList.foldl (fun table mode => table.remove mode (Key.ofText sequence)) keys.table⟩

/-- What typed keys are in a mode. -/
def lookup (keys : CommandKeys) (mode : MapMode) (sequence : List Key) : Lookup Action :=
  keys.table.lookup mode sequence

/-- `lookup` in a set of modes: only a set of one mode has keys of its own. -/
def lookupIn (keys : CommandKeys) (modes : MappedModes) (sequence : List Key) : Lookup Action :=
  match modes.single? with
  | some mode => keys.lookup mode sequence
  | none => .unmapped

/-- The command that exactly these keys are. -/
def get? (keys : CommandKeys) (modes : MappedModes) (sequence : String) : Option Action :=
  modes.single?.bind fun mode => keys.table.get? mode (Key.ofText sequence)

end CommandKeys

end ModalInput
