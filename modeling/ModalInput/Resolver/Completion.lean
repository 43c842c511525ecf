/-
# ModalInput.Resolver.Completion -- from the keys of a command to the command

Once the keys of a command are known, what is still missing is collected: an
operator waits for a motion in a mode of its own, other arguments are awaited.
When the last argument is there, the command is told, together with the changes
of the mode that it brings.

* `Resolver.commandResolved` -- the keys are known.
* `Resolver.argumentDone` -- the argument is there: the command is complete, or is
  the motion that completes an operator (`finishOperator`).
-/
import ModalInput.Resolver.State

namespace ModalInput.Resolver

set_option autoImplicit false

variable (options : OptionView)

/-- The mode change that a command asks for.  A command that ends a selection, or
an operator that was applied to it, asks for Normal mode. -/
def applyModeChange (r : Resolver) (command : Command) : Resolver :=
  match command.action.modeChange with
  | .none =>
      if r.modes.mode.isSelecting && (command.flags.exitVisual || command.action.isOperator) then
        r.changeMode (.ofMode .normal)
      else r
  | change => r.changeMode (r.modes.target options change)

/-- The mode change that a special key brings before its command runs. -/
def applyKeymodel (r : Resolver) (command : Command) : Resolver :=
  match r.modes.keymodelTarget? options command.flags with
  | some state => r.changeMode state
  | none => r

/-- Tell a complete command. -/
def complete (r : Resolver) (command : Command) : Resolver :=
  let r := applyKeymodel options r command
  let arguments : OperatorArguments :=
    { operatorPending := false, count := command.count, state := r.modes.state }
  (applyModeChange options (r.emit (.command ⟨command, arguments⟩)) command).forget

/-- Tell an operator with its motion; both get the count of the two. -/
def finishOperator (r : Resolver) (operator motion : Command) : Resolver :=
  let count := Count.compose operator.count motion.count
  let command := (operator.withCount count).withArgument (.motion (motion.withCount count))
  let arguments : OperatorArguments :=
    { operatorPending := true, count, state := .ofMode .operatorPending }
  (applyModeChange options (r.leaveTemporary.emit (.command ⟨command, arguments⟩)) command).forget

/-- The argument of a command is there. -/
def argumentDone (r : Resolver) (command : Command) : Resolver :=
  match r.pending.operator with
  | some operator => finishOperator options r operator.command command
  | none => complete options r command

/-- Wait for an argument. -/
def await (r : Resolver) (awaiting : Awaiting) : Resolver :=
  { r with pending := { r.pending with awaiting := some awaiting } }

/-- The character before a command line: the last key of the command, if it is a
character. -/
def promptOf (keys : List Key) : Char := (keys.getLast?.bind Key.char?).getD ':'

/-- Collect the argument of a command that was typed with some keys.  A selection
takes the place of a motion, and the command that ends a recording needs no
register. -/
def collectArgument (r : Resolver) (command : Command) (keys : List Key) : Resolver :=
  match command.action.argument with
  | .none | .motion => argumentDone options r command
  | .character =>
      if r.recording && command.action.builtin = some .toggleRecording then
        argumentDone options r command
      else r.await (.character command)
  | .exString => (r.pushMode .commandLine).await (.line command (promptOf keys) [])
  | .offsets => r.await (.offsets command)

/-- The motion of a pending operator, with the count that was typed for it. -/
def motionResolved (r : Resolver) (action : Action) (keys : List Key) : Resolver :=
  collectArgument options { r with pending := { r.pending with motionCount := none } }
    (.new action (r.pending.motionCount.getD 0)) keys

/-- The count that was typed for a command, before and after its register. -/
def typedCount (pending : PendingCommand) : Count :=
  Count.compose (pending.registerCount.getD 0) (pending.count.getD 0)

/-- The command of an action, with the count and the register that were typed. -/
def typedCommand (pending : PendingCommand) (action : Action) : Command :=
  (Command.new action (typedCount pending)).withRegister
    (pending.register.map PendingCommand.commandRegister)

/-- The keys of a command are known. -/
def commandResolved (r : Resolver) (action : Action) (keys : List Key) : Resolver :=
  if r.modes.mode = .operatorPending then motionResolved options r action keys
  else
    let command := typedCommand r.pending action
    let taken := { r with
      pending := { r.pending with registerCount := none, count := none, register := none } }
    if action.isOperator && !r.modes.mode.isSelecting then
      { taken with pending := { taken.pending with operator := some ⟨command, keys⟩ } }.pushMode
        .operatorPending
    else collectArgument options taken command keys

end ModalInput.Resolver
