/-
# ModalInput.Engine.Execute -- running a resolved command

Recording keys and running recorded ones is done here; every other command is the
host's, once for the editor or once for each caret.  Before that the mark that a
command names has to be set, a typed line is stored in its register, and the
changes of a command that is undone as a whole are grouped.

* `Engine.execute` -- run a command, and whether it succeeded.
* `Engine.runBuiltin` -- the commands of the engine itself.
-/
import ModalInput.Engine.Line

namespace ModalInput.Engine

set_option autoImplicit false

variable {σ κ : Type} (host : Host σ κ)

/-- A failure that is reported. -/
def refuse (engine : Engine σ) (error : EngineError) : Bool × Engine σ :=
  (false, engine.report host error)

/-! ## Recorded keys -/

/-- Run what a register holds: the last command line as a line, anything else as
keys. -/
def runRegister (engine : Engine σ) (register : Register) (times : Count) : Bool × Engine σ :=
  let text := (host.register? register engine.world).getD ""
  if text.isEmpty then engine.refuse host (MacroError.emptyRegister register)
  else
    let engine := { engine with lastRun := some register }
    if register = .lastCommand then engine.repeatLine host text times.toNat
    else
      match engine.recorder.execute (Key.ofText text) times.toNat with
      | (recorder, .ok ()) => (true, { engine with recorder })
      | (recorder, .error error) => { engine with recorder }.refuse host error

/-- Run again what was run last. -/
def runLast (engine : Engine σ) (times : Count) : Bool × Engine σ :=
  match engine.lastRun with
  | some register => engine.runRegister host register times
  | none => engine.refuse host MacroError.noPreviousRegister

/-- Start to record into the register of a character. -/
def startRecording (engine : Engine σ) (c : Char) : Bool × Engine σ :=
  match Register.ofChar? c with
  | some (register, append) =>
      if register.isRecordable then
        (true, { engine with
          recorder := engine.recorder.start register append
          resolver := engine.resolver.setRecording true })
      else engine.refuse host (MacroError.invalidRegister c)
  | none => engine.refuse host (MacroError.invalidRegister c)

/-- The commands of the engine itself. -/
def runBuiltin (engine : Engine σ) (builtin : BuiltinAction) (resolved : ResolvedCommand) :
    Bool × Engine σ :=
  let times := resolved.arguments.count.atLeastOne
  match builtin with
  | .toggleRecording =>
      match engine.recorder.finish, resolved.command.argument with
      | (recorder, some recording), _ =>
          let stopped := { engine with recorder, resolver := engine.resolver.setRecording false }
          (true, stopped.tell
            (host.setRegister recording.register (Key.textAll recording.keys) recording.append))
      | (_, none), some (.character c) => engine.startRecording host c
      | (_, none), _ => (false, engine)
  | .executeMacro =>
      match resolved.command.argument with
      | some (.character c) =>
          if c = '@' then engine.runLast host times
          else
            match Register.ofChar? c with
            | some (register, _) => engine.runRegister host register times
            | none => engine.refuse host (MacroError.invalidRegister c)
      | _ => (false, engine)
  | .repeatMacro => engine.runLast host times
  | .filter =>
      (engine.tell (host.startFilter resolved.arguments)).ask
        (host.execute resolved.command resolved.arguments)

/-! ## Commands of the host -/

/-- Run a command for each caret, also after it failed for one. -/
def executeForCarets (resolved : ResolvedCommand) (carets : List κ) (world : σ) : Bool × σ :=
  carets.foldl
    (fun (succeeded, world) caret =>
      let (ran, world) := host.executeForCaret caret resolved.command resolved.arguments world
      (succeeded && ran, world))
    (true, world)

/-- Let the host run a command. -/
def hand (engine : Engine σ) (resolved : ResolvedCommand) : Bool × Engine σ :=
  let grouped :=
    if resolved.command.flags.multikeyUndo && !engine.undoOpen then
      { engine with undoOpen := true }.tell host.startUndo
    else engine
  match resolved.command.action.strategy with
  | .singleExecution => grouped.ask (host.execute resolved.command resolved.arguments)
  | .forEachCaret => grouped.ask (executeForCarets host resolved (host.carets grouped.world))

/-- The command whose argument counts: the motion of an operator, if there is one. -/
def target (command : Command) : Command := command.motion.getD command

/-- The mark that a command names and that is not set. -/
def missingMark? (world : σ) (command : Command) : Option Char :=
  match (target command).argument with
  | some (.character mark) =>
      if (target command).flags.mark && !host.hasMark mark world then some mark else none
  | _ => none

/-- Run a command.  A selection takes the place of the motion of an operator; any
other command that lacks its argument fails. -/
def execute (engine : Engine σ) (resolved : ResolvedCommand) : Bool × Engine σ :=
  let command := resolved.command
  match command.action.builtin with
  | some builtin => engine.runBuiltin host builtin resolved
  | none =>
      let onSelection := command.action.isOperator && resolved.arguments.state.mode.isSelecting
      if !command.isComplete && !onSelection then (false, engine)
      else
        match missingMark? host engine.world command with
        | some mark => engine.refuse host (.markNotSet mark)
        | none =>
            match (target command).argument with
            | some (.line line) =>
                if (target command).action.name = Action.commandLineName then
                  (engine.tell (host.setRegister .lastCommand line false)).executeLine host line
                else (engine.tell (host.setRegister .lastSearch line false)).hand host resolved
            | _ => engine.hand host resolved

end ModalInput.Engine
