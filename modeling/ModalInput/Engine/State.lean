/-
# ModalInput.Engine.State -- the engine and the editor's state

An engine holds its own parts beside the state of the editor that it drives, so
that one value says all there is to say at a moment.
-/
import ModalInput.Engine.Host
import ModalInput.Ex.Command
import ModalInput.Recorder
import ModalInput.Resolver.Run

namespace ModalInput

set_option autoImplicit false

/-- A selection that the host was told of. -/
structure ShownSelection where
  shape : SubMode
  /-- In Select mode. -/
  select : Bool
  deriving DecidableEq

structure Engine (σ : Type) where
  /-- The state of the editor. -/
  world : σ
  options : OptionStore := .default
  resolver : Resolver := .default
  recorder : Recorder := {}
  commands : ExCommands := .default
  /-- The editor whose option values are read. -/
  editor : EditorId := ⟨0⟩
  /-- The host was asked to undo the changes together, and not yet where that ends. -/
  undoOpen : Bool := false
  /-- The register that was run last. -/
  lastRun : Option Register := none
  selection : Option ShownSelection := none

namespace Engine

variable {σ : Type}

/-- The options as the engine reads them. -/
def view (engine : Engine σ) : OptionView := ⟨engine.options, .editor engine.editor⟩

/-- Change the state of the editor. -/
def tell (engine : Engine σ) (change : σ → σ) : Engine σ :=
  { engine with world := change engine.world }

/-- Ask the editor for something that can fail. -/
def ask (engine : Engine σ) (request : σ → Bool × σ) : Bool × Engine σ :=
  ((request engine.world).1, { engine with world := (request engine.world).2 })

/-- Let the resolver do something; the expressions of mappings may change the
state of the editor. -/
def resolving (engine : Engine σ) (change : Resolver → σ → Resolver × σ) : Engine σ :=
  let changed := change engine.resolver engine.world
  { engine with resolver := changed.1, world := changed.2 }

end Engine

end ModalInput
