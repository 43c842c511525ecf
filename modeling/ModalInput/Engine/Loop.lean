/-
# ModalInput.Engine.Loop -- acting on what keys have led to

What the resolver tells is acted on event by event; between commands, when no
event waits, the next key that is to be run again goes to the resolver.  One step
is `advance?`, which gives nothing when the engine has settled: no event waits,
and no key is to be run again or offsets are awaited first.

Recorded keys can run themselves without end: a command that fails forgets how
deep the runs were.  So `settle` is told how many steps to try, and gives nothing
when they were not enough.
-/
import ModalInput.Engine.Execute

namespace ModalInput.Engine

set_option autoImplicit false

variable {σ κ : Type} (host : Host σ κ)

/-! ## Events -/

/-- The selection that is there in a mode; while a command line or a motion is
typed, it stays what it was. -/
def selectionIn (shown : Option ShownSelection) (state : ModeState) : Option ShownSelection :=
  match state.mode with
  | .visual | .select => some ⟨state.submode, state.mode = .select⟩
  | .commandLine | .operatorPending => shown
  | .normal | .insert | .replace => none

/-- Tell the host of a selection that has started, changed, or ended. -/
def showSelection (engine : Engine σ) (selection : Option ShownSelection) : Engine σ :=
  if engine.selection = selection then engine
  else
    { engine with selection }.tell
      (match selection with
      | some shown => host.enterVisual shown.shape shown.select
      | none => host.exitVisual)

/-- Leaving the modes in which text is typed ends the changes that are undone
together. -/
def closeUndo (engine : Engine σ) (step : ModeStep) : Engine σ :=
  if engine.undoOpen && step.old.mode.isInserting && !step.new.mode.isInserting then
    { engine with undoOpen := false }.tell host.finishUndo
  else engine

/-- The mode has changed. -/
def modeChanged (engine : Engine σ) (step : ModeStep) : Engine σ :=
  ((engine.showSelection host (selectionIn engine.selection step.new)).closeUndo host step).tell
    (host.modeChanged step)

/-- Forget the keys that are to be run again. -/
def stopKeys (engine : Engine σ) : Engine σ := { engine with recorder := engine.recorder.interrupt }

/-- Act on an event.  Keys are not run again past a failure. -/
def dispatch (engine : Engine σ) (event : EngineEvent) : Engine σ :=
  match event with
  | .modeChanged step => engine.modeChanged host step
  | .failed error => engine.stopKeys.report host error
  | .command resolved =>
      let (succeeded, ran) := engine.execute host resolved
      let noted := { ran with recorder := ran.recorder.commandCompleted }
      if succeeded then noted else noted.stopKeys

/-! ## Steps -/

/-- Give a key to the resolver. -/
def resolveKey (engine : Engine σ) (key : Key) : Engine σ :=
  engine.resolving fun resolver world =>
    resolver.inputKey engine.view host.evaluate world key

/-- One step, unless the engine has settled. -/
def advance? (engine : Engine σ) : Option (Engine σ) :=
  match engine.resolver.takeEvent with
  | (some event, resolver) => some ({ engine with resolver }.dispatch host event)
  | (none, _) =>
      if engine.resolver.awaitsOffsets then none
      else
        match engine.recorder.next with
        | (_, none) => none
        | (recorder, some key) =>
            match engine.ask host.shouldInterrupt with
            | (true, engine) =>
                some { engine.stopKeys with resolver := engine.resolver.cancel }
            | (false, engine) => some ({ engine with recorder }.resolveKey host key)

/-- Step until the engine has settled; nothing, if `steps` were not enough. -/
def settle (steps : Nat) (engine : Engine σ) : Option (Engine σ) :=
  match engine.advance? host with
  | none => some engine
  | some next =>
      match steps with
      | 0 => none
      | steps + 1 => settle steps next

end ModalInput.Engine
