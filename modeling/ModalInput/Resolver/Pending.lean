/-
# ModalInput.Resolver.Pending -- keys that wait, and the command they are part of

Keys wait in three places: in front of the mapping layer, on the trail of keys
that may yet become a mapping, and in the command that is being typed.  A key in
front of the mapping layer can be mapped, and then carries how many mappings led
to it, or is exempt.  Keys on the trail can always be mapped.
-/
import ModalInput.Command
import ModalInput.Key.Basic

namespace ModalInput

set_option autoImplicit false

/-- A key in front of the mapping layer. -/
inductive Queued where
  /-- A key that mappings apply to; `depth` mappings led to it. -/
  | mappable (key : Key) (depth : Nat)
  | literal (key : Key)
  deriving DecidableEq

def Queued.key : Queued → Key
  | .mappable key _ => key
  | .literal key => key

/-- A key that may become part of a mapping. -/
structure TrailKey where
  key : Key
  depth : Nat
  deriving DecidableEq

/-- Back in front of the mapping layer, to be mapped. -/
def TrailKey.requeued (typed : TrailKey) : Queued := .mappable typed.key typed.depth

/-- What keys have led to, when more of them could lead further: at least one key
did, and `before` were typed before the last of those. -/
structure Reached (α : Type) where
  value : α
  before : Nat
  deriving DecidableEq

/-- The number of keys that led there. -/
def Reached.length {α : Type} (reached : Reached α) : Nat := reached.before + 1

/-- What a command waits for. -/
inductive Awaiting where
  | register
  | character (command : Command)
  /-- A line on the command line, after its prompt. -/
  | line (command : Command) (prompt : Char) (typed : List Char)
  | offsets (command : Command)
  deriving DecidableEq

/-- An operator that waits for its motion, and the keys that it was typed with. -/
structure PendingOperator where
  command : Command
  keys : List Key
  deriving DecidableEq

/-- A command while it is typed. -/
structure PendingCommand where
  count : Option Count := none
  /-- The count before the register was named. -/
  registerCount : Option Count := none
  /-- The register, and whether to append to it. -/
  register : Option (Register × Bool) := none
  /-- The keys of the command, without count and register. -/
  keys : List Key := []
  /-- A command that the first keys are, while longer ones are possible. -/
  held : Option (Reached Action) := none
  operator : Option PendingOperator := none
  motionCount : Option Count := none
  awaiting : Option Awaiting := none
  /-- Every key typed for the command, to be shown. -/
  shown : List Key := []
  deriving DecidableEq

namespace PendingCommand

instance : Inhabited PendingCommand := ⟨{}⟩

/-- Nothing was typed that a command could grow from. -/
def isEmpty (pending : PendingCommand) : Bool :=
  pending.count.isNone && pending.registerCount.isNone && pending.register.isNone &&
    pending.keys.isEmpty && pending.operator.isNone && pending.motionCount.isNone &&
    pending.awaiting.isNone

/-- The next key is an argument that no mapping applies to. -/
def awaitsLiteral (pending : PendingCommand) : Bool :=
  match pending.awaiting with
  | some .register | some (.character _) => true
  | _ => false

def awaitsOffsets (pending : PendingCommand) : Bool :=
  match pending.awaiting with
  | some (.offsets _) => true
  | _ => false

/-- The count that a typed digit belongs to. -/
def currentCount (pending : PendingCommand) : Option Count :=
  if pending.operator.isSome then pending.motionCount else pending.count

/-- With another current count. -/
def withCurrentCount (pending : PendingCommand) (count : Count) : PendingCommand :=
  if pending.operator.isSome then { pending with motionCount := some count }
  else { pending with count := some count }

/-- The keys are those of the pending operator again, or the second of its two. -/
def repeatsOperator (pending : PendingCommand) : Bool :=
  match pending.operator with
  | some operator =>
      pending.keys = operator.keys ||
        (operator.keys.length = 2 && pending.keys = operator.keys.drop 1)
  | none => false

/-- The register of a command: an upper case letter asks to append. -/
def commandRegister (register : Register × Bool) : Register :=
  match register with
  | (.named letter, true) => .named letter.toUpper
  | (register, _) => register

end PendingCommand

end ModalInput
