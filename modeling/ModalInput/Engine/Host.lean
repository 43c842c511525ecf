/-
# ModalInput.Engine.Host -- the editor around the engine

The engine holds no text.  All that it needs from the editor goes through a
`Host`: running commands, registers, marks, and being told what happened.  The
editor's state is a `σ`, which each request may change; `κ` is a caret of it.

A host that only runs commands is enough to start with: everything else does
nothing unless it is given.
-/
import ModalInput.Expression
import ModalInput.Resolver.State

namespace ModalInput

set_option autoImplicit false

structure Host (σ κ : Type) where
  /-- Run a command once.  A command that fails stops the keys that are run again. -/
  execute : Command → OperatorArguments → σ → Bool × σ
  /-- The carets that a command may have to be run for. -/
  carets : σ → List κ
  /-- Run a command for one caret. -/
  executeForCaret : κ → Command → OperatorArguments → σ → Bool × σ
  /-- The text in a register. -/
  register? : Register → σ → Option String := fun _ _ => none
  /-- Put text into a register, or append it to what is there. -/
  setRegister : Register → String → Bool → σ → σ := fun _ _ _ world => world
  hasMark : Char → σ → Bool := fun _ _ => false
  /-- Ask for an external command that text is to be passed through. -/
  startFilter : OperatorArguments → σ → σ := fun _ world => world
  /-- A selection has started or changed its shape; the flag is for Select mode. -/
  enterVisual : SubMode → Bool → σ → σ := fun _ _ world => world
  /-- The selection has ended. -/
  exitVisual : σ → σ := id
  modeChanged : ModeStep → σ → σ := fun _ world => world
  /-- The changes from here on are undone together. -/
  startUndo : σ → σ := id
  /-- The changes that are undone together end here. -/
  finishUndo : σ → σ := id
  reportError : EngineError → σ → σ := fun _ world => world
  showMessage : String → σ → σ := fun _ world => world
  /-- Run a command line that the engine does not know; fails if the host does not
  know it either. -/
  runLine : String → σ → Bool × σ := fun _ world => (false, world)
  /-- Asked before each key that is run again: whether to stop. -/
  shouldInterrupt : σ → Bool × σ := fun world => (false, world)
  /-- Evaluates the expressions of mappings. -/
  evaluate : Evaluator σ := Expression.literalOnly

end ModalInput
