/-
# ModalInput.Engine.Input -- what happens to the engine from outside

Each of these gives the engine something to act on and lets it settle.  They are
told how many steps that may take, and give nothing when it takes more.

* `Engine.inputKey` -- a typed key.
* `Engine.timeoutExpired` -- no key came in time.
* `Engine.supplyOffsets` -- the offsets that a command waits for.
* `Engine.cancel`, `setMode` -- drop what is pending.
* `Engine.map`, `mapAction`, `unmap` -- change the mappings, which needs no step.
-/
import ModalInput.Engine.Loop

namespace ModalInput.Engine

set_option autoImplicit false

variable {σ κ : Type} (host : Host σ κ) (steps : Nat)

/-- A key was typed. -/
def inputKey (engine : Engine σ) (key : Key) : Option (Engine σ) :=
  ({ engine with recorder := engine.recorder.typed key }.resolveKey host key).settle host steps

/-- No key came in time. -/
def timeoutExpired (engine : Engine σ) : Option (Engine σ) :=
  (engine.resolving fun resolver world =>
    resolver.timeoutExpired engine.view host.evaluate world).settle host steps

/-- Offsets; whether a command was waiting for them. -/
def supplyOffsets (engine : Engine σ) (offsets : List Int) : Option (Bool × Engine σ) :=
  match engine.resolver.supplyOffsets engine.view host.evaluate engine.world offsets with
  | some (resolver, world) => ({ engine with resolver, world }.settle host steps).map (true, ·)
  | none => some (false, engine)

/-- Drop the keys that wait and those that are to be run again. -/
def cancel (engine : Engine σ) : Option (Engine σ) :=
  { engine.stopKeys with resolver := engine.resolver.cancel }.settle host steps

/-- Change the mode. -/
def setMode (engine : Engine σ) (state : ModeState) : Option (Engine σ) :=
  { engine with resolver := engine.resolver.setMode state }.settle host steps

/-! ## Mappings -/

/-- With other mappings. -/
def withMappings (engine : Engine σ) (mappings : MappingStore) : Engine σ :=
  { engine with resolver := { engine.resolver with mappings } }

/-- Map keys to keys, both as they are written. -/
def map (engine : Engine σ) (modes : MappedModes) (lhs rhs : String) (noremap : Bool) :
    Except MappingError (Engine σ) :=
  (engine.resolver.mappings.addText modes lhs rhs noremap false).map engine.withMappings

/-- Map keys to an action. -/
def mapAction (engine : Engine σ) (modes : MappedModes) (lhs : String) (action : Action) :
    Except MappingError (Engine σ) :=
  (engine.resolver.mappings.add modes (Key.ofText lhs) (.action action) true).map
    engine.withMappings

/-- Remove a mapping. -/
def unmap (engine : Engine σ) (modes : MappedModes) (lhs : String) :
    Except MappingError (Engine σ) :=
  (engine.resolver.mappings.removeText modes lhs).map engine.withMappings

end ModalInput.Engine
