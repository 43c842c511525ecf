/-
# ModalInput.Engine.Display -- what the engine shows

The host asks for what to show after each key: whether more keys are expected and
for how long, the mode, the keys of an unfinished command, the command line, and
the look of the cursor.
-/
import ModalInput.Engine.State

namespace ModalInput

set_option autoImplicit false

inductive InputStatus where
  | idle
  /-- Keys were typed that have not led to a command yet.  If they can mean two
  things, time decides, and `timeout` is how long to wait, in milliseconds. -/
  | pending (timeout : Option Nat)
  deriving DecidableEq, Repr

namespace Engine

variable {σ : Type}

/-- Whether more keys are expected. -/
def status (engine : Engine σ) : InputStatus :=
  if !engine.resolver.isPending then .idle
  else if engine.resolver.needsTimeout && engine.view.isOn OptionName.timeout then
    .pending (some (engine.view.number OptionName.timeoutLength).toNat)
  else .pending none

def mode (engine : Engine σ) : ModeState := engine.resolver.modes.state

/-- The message about the mode, if it is to be shown. -/
def shownMode (engine : Engine σ) : String :=
  if engine.view.isOn OptionName.showmode then
    engine.resolver.modes.message engine.recorder.register?
  else ""

/-- The keys of the command so far, if they are to be shown. -/
def shownKeys (engine : Engine σ) : String :=
  if engine.view.isOn OptionName.showcmd then engine.resolver.shownKeys else ""

def commandLine? (engine : Engine σ) : Option String := engine.resolver.commandLine?

/-- The look of the cursor; a value that cannot be read gives the plain one. -/
def cursor (engine : Engine σ) : CursorAttributes :=
  let exclusive := engine.view.text OptionName.selection = "exclusive"
  match CursorEntry.readAll (engine.view.text OptionName.guicursor) with
  | .ok entries => .of entries (.of engine.mode.mode exclusive)
  | .error _ => {}

end Engine

end ModalInput
