/-
# ModalInput.Mapping.Store -- the mappings that the user made

A mapping replaces typed keys by other keys, by the value of an expression, or
by a command.  One call of `add` makes one mapping for several modes; a later
one for the same keys takes its place in the modes that both name.  Mappings
that look alike but were made by different calls stay different, so each carries
the number of the call (`StoredMapping.serial`).

* `MappingStore.add`, `addText` -- make a mapping, from keys or as written.
* `MappingStore.remove`, `clear` -- take mappings away.
* `MappingStore.lookup` -- what typed keys lead to.
* `MappingStore.mappings`, `list` -- the mappings whose keys start in one way, in
  the order of their written forms.
-/
import ModalInput.Command
import ModalInput.Error
import ModalInput.KeyTable
import ModalInput.Key.Reader
import ModalInput.Key.Written
import ModalInput.Mapping.Modes
import ModalInput.Text.Blank

namespace ModalInput

set_option autoImplicit false

/-- What the keys of a mapping are replaced by. -/
inductive MappingTarget where
  | keys (typed : List Key)
  | action (command : Action)
  /-- An expression whose value is read as keys each time. -/
  | expression (source : String)
  deriving DecidableEq

/-- The target as a listing shows it. -/
def MappingTarget.text : MappingTarget → String
  | .keys [] => "<Nop>"
  | .keys typed => Key.textAll typed
  | .action command => s!"<Action>({command.name})"
  | .expression source => source

structure Mapping where
  lhs : List Key
  rhs : MappingTarget
  /-- The modes it was made for. -/
  modes : MappedModes
  /-- The keys it expands into are not mapped again. -/
  noremap : Bool
  deriving DecidableEq

namespace Mapping

def isExpression (mapping : Mapping) : Bool :=
  match mapping.rhs with
  | .expression _ => true
  | _ => false

/-- A text with blanks after it up to a width. -/
def padded (width : Nat) (text : String) : String :=
  text ++ String.ofList (List.replicate (width - text.length) ' ')

/-- The line of a listing: the modes, the keys, a star for a mapping that is not
mapped again, and the target. -/
def line (mapping : Mapping) : String :=
  padded 3 mapping.modes.letters ++ padded 12 (Key.textAll mapping.lhs) ++
    (if mapping.noremap then " * " else "   ") ++ mapping.rhs.text

end Mapping

/-- A mapping with the number of the call that made it. -/
structure StoredMapping where
  serial : Nat
  mapping : Mapping
  deriving DecidableEq

structure MappingStore where
  table : KeyTable MapMode Key StoredMapping := .empty
  /-- The number of mappings ever made. -/
  made : Nat := 0

namespace MappingStore

instance : Inhabited MappingStore := ⟨{}⟩

/-- Map keys in every mode of a set. -/
def add (store : MappingStore) (modes : MappedModes) (lhs : List Key) (rhs : MappingTarget)
    (noremap : Bool) : Except MappingError MappingStore :=
  if lhs.isEmpty then .error (.invalidKeys "")
  else
    let stored : StoredMapping := ⟨store.made, { lhs, rhs, modes, noremap }⟩
    .ok {
      table := modes.toList.foldl (fun table mode => table.insert mode lhs stored) store.table
      made := store.made + 1 }

/-- Map keys as they are written.  A target of no keys at all has a name of its
own, in any case. -/
def addText (store : MappingStore) (modes : MappedModes) (lhs rhs : String)
    (noremap expression : Bool) : Except MappingError MappingStore :=
  if (Key.ofText lhs).isEmpty then .error (.invalidKeys lhs)
  else if expression then
    if Text.allBlank rhs.toList then .error (.invalidExpression rhs)
    else store.add modes (Key.ofText lhs) (.expression rhs) noremap
  else if rhs.toLower = "<nop>" then store.add modes (Key.ofText lhs) (.keys []) noremap
  else store.add modes (Key.ofText lhs) (.keys (Key.ofText rhs)) noremap

/-- Take the mappings of some keys away in every mode of a set; one of the modes
has to have one. -/
def remove (store : MappingStore) (modes : MappedModes) (lhs : List Key) :
    Except MappingError MappingStore :=
  if modes.toList.any fun mode => (store.table.get? mode lhs).isSome then
    .ok { store with table := modes.toList.foldl (fun table mode => table.remove mode lhs) store.table }
  else .error .noSuchMapping

/-- `remove` with the keys as they are written. -/
def removeText (store : MappingStore) (modes : MappedModes) (lhs : String) :
    Except MappingError MappingStore :=
  store.remove modes (Key.ofText lhs)

/-- Take every mapping of some modes away. -/
def clear (store : MappingStore) (modes : MappedModes) : MappingStore :=
  { store with table := modes.toList.foldl KeyTable.clearMode store.table }

/-- What typed keys lead to in a mode. -/
def lookup (store : MappingStore) (mode : MapMode) (keys : List Key) : Lookup Mapping :=
  (store.table.lookup mode keys).map StoredMapping.mapping

/-- `lookup` in a set of modes: only a set of one mode has keys of its own. -/
def lookupIn (store : MappingStore) (modes : MappedModes) (keys : List Key) : Lookup Mapping :=
  match modes.single? with
  | some mode => store.lookup mode keys
  | none => .unmapped

def isEmpty (store : MappingStore) (mode : MapMode) : Bool := store.table.isModeEmpty mode

/-- `isEmpty` of a set of modes, in the sense of `lookupIn`. -/
def isEmptyIn (store : MappingStore) (modes : MappedModes) : Bool :=
  (modes.single?.map store.isEmpty).getD true

/-- The mappings in effect in some modes whose keys start with others, each once. -/
def stored (store : MappingStore) (modes : MappedModes) (start : List Key) : List StoredMapping :=
  let found := modes.toList.flatMap fun mode =>
    (store.table.entries mode).filterMap fun entry =>
      if start.isPrefixOf entry.1 then some entry.2 else none
  found.foldl (fun kept next =>
    if kept.any (·.serial = next.serial) then kept else kept ++ [next]) []

/-- The mappings of `stored`, in the order of the written forms of their keys. -/
def mappings (store : MappingStore) (modes : MappedModes) (start : List Key) : List Mapping :=
  ((store.stored modes start).map StoredMapping.mapping).mergeSort
    fun a b => Key.textAll a.lhs ≤ Key.textAll b.lhs

/-- The lines of a listing. -/
def list (store : MappingStore) (modes : MappedModes) (start : List Key) : List String :=
  (store.mappings modes start).map Mapping.line

end MappingStore

end ModalInput
