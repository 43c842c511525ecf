/-
# ModalInput.Command -- a command with everything it needs

An `Action` describes a handler: what kind of work it does, which argument it
waits for, and which mode it asks for.  A `Command` is an action with the count,
register and argument that were typed for it, and `OperatorArguments` is what a
handler learns about the moment in which its command was resolved.

A command is complete when the argument that its action waits for is there
(`Command.isComplete`).
-/
import ModalInput.Count
import ModalInput.Mode
import ModalInput.Register

namespace ModalInput

set_option autoImplicit false

/-- The work a handler does. -/
inductive CommandKind where
  | undefined
  | motion
  | insert
  | delete
  | change
  | copy
  | paste
  | otherReadonly
  | otherWritable
  deriving DecidableEq, Repr, Inhabited

/-- What a handler waits for once its keys are typed. -/
inductive ArgumentKind where
  | none
  /-- An operator: it waits for the motion that says how far it reaches. -/
  | motion
  | character
  /-- Numbers that come from outside of the engine. -/
  | offsets
  /-- A line typed on the command line. -/
  | exString
  deriving DecidableEq, Repr, Inhabited

/-- Properties that a handler declares. -/
structure CommandFlags where
  linewise : Bool := false
  characterwise : Bool := false
  inclusive : Bool := false
  exclusive : Bool := false
  /-- The cursor position before goes into the jump list. -/
  saveJump : Bool := false
  /-- What is typed after this command is undone in one step. -/
  multikeyUndo : Bool := false
  /-- A count does not repeat the inserted text. -/
  noRepeatInsert : Bool := false
  exitVisual : Bool := false
  /-- An unshifted special key, which can stop a selection. -/
  keymodel : Bool := false
  /-- A shifted special key, which can start a selection. -/
  shiftSelect : Bool := false
  /-- The character argument names a mark. -/
  mark : Bool := false
  deriving DecidableEq, Repr, Inhabited

namespace CommandFlags

/-- The flags of either. -/
def union (a b : CommandFlags) : CommandFlags where
  linewise := a.linewise || b.linewise
  characterwise := a.characterwise || b.characterwise
  inclusive := a.inclusive || b.inclusive
  exclusive := a.exclusive || b.exclusive
  saveJump := a.saveJump || b.saveJump
  multikeyUndo := a.multikeyUndo || b.multikeyUndo
  noRepeatInsert := a.noRepeatInsert || b.noRepeatInsert
  exitVisual := a.exitVisual || b.exitVisual
  keymodel := a.keymodel || b.keymodel
  shiftSelect := a.shiftSelect || b.shiftSelect
  mark := a.mark || b.mark

instance : Union CommandFlags := ⟨union⟩

/-- The flags in their fixed order. -/
def toList (f : CommandFlags) : List Bool :=
  [f.linewise, f.characterwise, f.inclusive, f.exclusive, f.saveJump, f.multikeyUndo,
    f.noRepeatInsert, f.exitVisual, f.keymodel, f.shiftSelect, f.mark]

/-- The flags as a number: the first is worth 1, each later one twice the one
before it. -/
def bits (f : CommandFlags) : Nat := f.toList.foldr (fun on rest => rest * 2 + on.toNat) 0

/-- The flags of a number; higher bits are ignored. -/
def ofBits (n : Nat) : CommandFlags where
  linewise := n.testBit 0
  characterwise := n.testBit 1
  inclusive := n.testBit 2
  exclusive := n.testBit 3
  saveJump := n.testBit 4
  multikeyUndo := n.testBit 5
  noRepeatInsert := n.testBit 6
  exitVisual := n.testBit 7
  keymodel := n.testBit 8
  shiftSelect := n.testBit 9
  mark := n.testBit 10

end CommandFlags

/-- How a handler is called when there are several carets. -/
inductive ExecutionStrategy where
  | singleExecution
  | forEachCaret
  deriving DecidableEq, Repr, Inhabited

/-- Work that the engine does itself. -/
inductive BuiltinAction where
  | toggleRecording
  | executeMacro
  | repeatMacro
  | filter
  deriving DecidableEq, Repr, Inhabited

/-- A handler, and what it needs before it can run. -/
structure Action where
  name : String
  kind : CommandKind := .undefined
  argument : ArgumentKind := .none
  flags : CommandFlags := {}
  strategy : ExecutionStrategy := .singleExecution
  modeChange : ModeChange := .none
  builtin : Option BuiltinAction := none
  deriving DecidableEq, Repr, Inhabited

/-- An operator waits for a motion. -/
def Action.isOperator (action : Action) : Bool := action.argument = .motion

/-- The name of the action whose line is a command line; any other line is a
search. -/
def Action.commandLineName : String := "ex.command"

/-- The argument of a command; `κ` is the type of the motions. -/
inductive Argument (κ : Type) where
  | motion (command : κ)
  | character (c : Char)
  | offsets (values : List Int)
  | line (text : String)
  deriving DecidableEq, Repr

/-- The kind of argument that a value is. -/
def Argument.kind {κ : Type} : Argument κ → ArgumentKind
  | .motion _ => .motion
  | .character _ => .character
  | .offsets _ => .offsets
  | .line _ => .exString

/-- An action with what was typed for it. -/
structure Command where
  count : Count
  action : Action
  kind : CommandKind
  flags : CommandFlags
  argument : Option (Argument Command)
  register : Option Register

namespace Command

/-- Commands are compared part by part, motions included. -/
def decEq : (a b : Command) → Decidable (a = b)
  | ⟨c, s, k, f, none, r⟩, ⟨c', s', k', f', none, r'⟩ =>
      decidable_of_iff (c = c' ∧ s = s' ∧ k = k' ∧ f = f' ∧ r = r') (by simp)
  | ⟨c, s, k, f, some (.motion m), r⟩, ⟨c', s', k', f', some (.motion m'), r'⟩ =>
      have := decEq m m'
      decidable_of_iff (c = c' ∧ s = s' ∧ k = k' ∧ f = f' ∧ m = m' ∧ r = r') (by simp)
  | ⟨c, s, k, f, some (.character x), r⟩, ⟨c', s', k', f', some (.character x'), r'⟩ =>
      decidable_of_iff (c = c' ∧ s = s' ∧ k = k' ∧ f = f' ∧ x = x' ∧ r = r') (by simp)
  | ⟨c, s, k, f, some (.offsets x), r⟩, ⟨c', s', k', f', some (.offsets x'), r'⟩ =>
      decidable_of_iff (c = c' ∧ s = s' ∧ k = k' ∧ f = f' ∧ x = x' ∧ r = r') (by simp)
  | ⟨c, s, k, f, some (.line x), r⟩, ⟨c', s', k', f', some (.line x'), r'⟩ =>
      decidable_of_iff (c = c' ∧ s = s' ∧ k = k' ∧ f = f' ∧ x = x' ∧ r = r') (by simp)
  | ⟨_, _, _, _, none, _⟩, ⟨_, _, _, _, some _, _⟩ => isFalse (by simp)
  | ⟨_, _, _, _, some _, _⟩, ⟨_, _, _, _, none, _⟩ => isFalse (by simp)
  | ⟨_, _, _, _, some (.motion _), _⟩, ⟨_, _, _, _, some (.character _), _⟩ => isFalse (by simp)
  | ⟨_, _, _, _, some (.motion _), _⟩, ⟨_, _, _, _, some (.offsets _), _⟩ => isFalse (by simp)
  | ⟨_, _, _, _, some (.motion _), _⟩, ⟨_, _, _, _, some (.line _), _⟩ => isFalse (by simp)
  | ⟨_, _, _, _, some (.character _), _⟩, ⟨_, _, _, _, some (.motion _), _⟩ => isFalse (by simp)
  | ⟨_, _, _, _, some (.character _), _⟩, ⟨_, _, _, _, some (.offsets _), _⟩ => isFalse (by simp)
  | ⟨_, _, _, _, some (.character _), _⟩, ⟨_, _, _, _, some (.line _), _⟩ => isFalse (by simp)
  | ⟨_, _, _, _, some (.offsets _), _⟩, ⟨_, _, _, _, some (.motion _), _⟩ => isFalse (by simp)
  | ⟨_, _, _, _, some (.offsets _), _⟩, ⟨_, _, _, _, some (.character _), _⟩ => isFalse (by simp)
  | ⟨_, _, _, _, some (.offsets _), _⟩, ⟨_, _, _, _, some (.line _), _⟩ => isFalse (by simp)
  | ⟨_, _, _, _, some (.line _), _⟩, ⟨_, _, _, _, some (.motion _), _⟩ => isFalse (by simp)
  | ⟨_, _, _, _, some (.line _), _⟩, ⟨_, _, _, _, some (.character _), _⟩ => isFalse (by simp)
  | ⟨_, _, _, _, some (.line _), _⟩, ⟨_, _, _, _, some (.offsets _), _⟩ => isFalse (by simp)

instance : DecidableEq Command := decEq

/-- A command for an action, with the action's kind and flags and nothing typed
but a count. -/
def new (action : Action) (count : Count) : Command :=
  ⟨count, action, action.kind, action.flags, none, none⟩

/-- The motion that an operator applies to. -/
def motion (command : Command) : Option Command :=
  match command.argument with
  | some (.motion m) => some m
  | _ => none

/-- The argument that the action waits for is there. -/
def isComplete (command : Command) : Bool :=
  command.action.argument = .none ||
    command.argument.map Argument.kind = some command.action.argument

def withCount (command : Command) (count : Count) : Command := { command with count }

def withArgument (command : Command) (argument : Argument Command) : Command :=
  { command with argument := some argument }

def withRegister (command : Command) (register : Option Register) : Command :=
  { command with register }

/-- With further flags beside those it has. -/
def withFlags (command : Command) (flags : CommandFlags) : Command :=
  { command with flags := command.flags ∪ flags }

end Command

/-- What a handler learns about the moment in which its command was resolved. -/
structure OperatorArguments where
  /-- The command is an operator that had been waiting for its motion. -/
  operatorPending : Bool := false
  /-- The count as typed: 0 when there was none. -/
  count : Count := 0
  state : ModeState := default
  deriving DecidableEq, Inhabited

end ModalInput
