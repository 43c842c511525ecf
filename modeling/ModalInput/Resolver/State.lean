/-
# ModalInput.Resolver.State -- the state of the resolver

The resolver turns typed keys into commands.  It holds the tables that it looks
keys up in, the modes, the keys that wait, and the events that nobody has taken
yet: commands to run, changes of the mode, and failures, in the order in which
they are to be acted on.

The operations of this module change the mode and drop what is pending; each
tells every change of the mode as an event.
-/
import ModalInput.Binding.Default
import ModalInput.Mapping.Store
import ModalInput.ModeStack
import ModalInput.Resolver.Pending

namespace ModalInput

set_option autoImplicit false

/-- A command that is ready to run, and the moment in which it was resolved. -/
structure ResolvedCommand where
  command : Command
  arguments : OperatorArguments
  deriving DecidableEq

inductive EngineEvent where
  | command (resolved : ResolvedCommand)
  | modeChanged (step : ModeStep)
  /-- Resolving failed, and what was pending is dropped. -/
  | failed (error : EngineError)
  deriving DecidableEq

structure Resolver where
  keys : CommandKeys := {}
  mappings : MappingStore := {}
  modes : ModeStack := {}
  /-- Keys in front of the mapping layer. -/
  typeahead : List Queued := []
  /-- Keys that may become a mapping. -/
  trail : List TrailKey := []
  /-- The mapping that the first keys of the trail are. -/
  trailMatch : Option (Reached Mapping) := none
  pending : PendingCommand := {}
  /-- Keys are being recorded. -/
  recording : Bool := false
  events : List EngineEvent := []

namespace Resolver

/-- A resolver with the default keys. -/
def default : Resolver := { keys := .default }

instance : Inhabited Resolver := ⟨{}⟩

/-! ## What is pending -/

/-- Keys were typed that are not a command yet. -/
def isPending (r : Resolver) : Bool :=
  !r.trail.isEmpty || !r.typeahead.isEmpty || !r.pending.isEmpty

/-- The keys can mean two things, and time decides. -/
def needsTimeout (r : Resolver) : Bool := !r.trail.isEmpty || r.pending.held.isSome

def awaitsOffsets (r : Resolver) : Bool := r.pending.awaitsOffsets

/-- The command line with its prompt, while one is typed. -/
def commandLine? (r : Resolver) : Option String :=
  match r.pending.awaiting with
  | some (.line _ prompt typed) => some (String.ofList (prompt :: typed))
  | _ => none

/-- The keys of the command so far. -/
def shownKeys (r : Resolver) : String :=
  Key.textAll (r.pending.shown ++ r.trail.map TrailKey.key)

/-! ## Events -/

def emit (r : Resolver) (event : EngineEvent) : Resolver := { r with events := r.events ++ [event] }

def fail (r : Resolver) (error : EngineError) : Resolver := r.emit (.failed error)

/-- Tell steps of the mode. -/
def emitSteps (r : Resolver) (steps : List ModeStep) : Resolver :=
  { r with events := r.events ++ steps.map .modeChanged }

/-- Take the next event. -/
def takeEvent (r : Resolver) : Option EngineEvent × Resolver :=
  match r.events with
  | [] => (none, r)
  | event :: rest => (some event, { r with events := rest })

/-! ## Modes -/

/-- Change the mode for good. -/
def changeMode (r : Resolver) (state : ModeState) : Resolver :=
  { r with modes := (r.modes.set state).1 }.emitSteps (r.modes.set state).2.toList

/-- Enter a temporary mode. -/
def pushMode (r : Resolver) (mode : Mode) : Resolver :=
  { r with modes := (r.modes.push mode).1 }.emitSteps (r.modes.push mode).2.toList

/-- Leave a temporary mode. -/
def popMode (r : Resolver) : Resolver :=
  { r with modes := r.modes.pop.1 }.emitSteps r.modes.pop.2.toList

/-- Leave every temporary mode. -/
def leaveTemporary (r : Resolver) : Resolver :=
  { r with modes := r.modes.popAll.1 }.emitSteps r.modes.popAll.2

/-! ## Dropping what is pending -/

/-- Forget the command that is being typed. -/
def forget (r : Resolver) : Resolver := { r with pending := {} }

/-- Drop the command that is being typed, and leave the temporary modes. -/
def abort (r : Resolver) : Resolver := r.forget.leaveTemporary

/-- Drop every key that waits, too. -/
def cancel (r : Resolver) : Resolver :=
  { r with typeahead := [], trail := [], trailMatch := none }.abort

/-- Change the mode from outside; the command that is being typed and the trail
are dropped. -/
def setMode (r : Resolver) (state : ModeState) : Resolver :=
  { r.abort with trail := [], trailMatch := none }.changeMode state

/-- Keys that wait before those that wait already. -/
def requeue (r : Resolver) (keys : List Queued) : Resolver :=
  { r with typeahead := keys ++ r.typeahead }

end Resolver

end ModalInput
