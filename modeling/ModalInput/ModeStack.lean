/-
# ModalInput.ModeStack -- the current mode, and the modes to return to

Waiting for a motion and typing a command line are temporary: the modes that they
were entered from wait on a stack, and the lowest one is the base, which decides
where a requested change leads.

* `ModeStack.push`, `pop`, `popAll` -- enter and leave temporary modes; `set` --
  change for good.  Each gives the steps that were made.
* `ModeStack.target` -- where a request leads.
* `ModeStack.keymodelTarget?` -- whether a special key starts or stops a selection.
* `ModeStack.message` -- what is shown about the mode.
-/
import ModalInput.Command
import ModalInput.Options.Default

namespace ModalInput

set_option autoImplicit false

/-- A change from one mode to another. -/
structure ModeStep where
  old : ModeState
  new : ModeState
  deriving DecidableEq

structure ModeStack where
  state : ModeState := default
  /-- The modes to return to, the next one first. -/
  saved : List ModeState := []
  deriving DecidableEq

namespace ModeStack

instance : Inhabited ModeStack := ⟨{}⟩

def mode (stack : ModeStack) : Mode := stack.state.mode

/-- The step between two modes, if they differ. -/
def step? (old new : ModeState) : Option ModeStep := if old = new then none else some ⟨old, new⟩

/-- Change the mode and forget where to return to. -/
def set (stack : ModeStack) (state : ModeState) : ModeStack × Option ModeStep :=
  ({ state, saved := [] }, step? stack.state state)

/-- Enter a temporary mode. -/
def push (stack : ModeStack) (mode : Mode) : ModeStack × Option ModeStep :=
  ({ state := .ofMode mode, saved := stack.state :: stack.saved },
    step? stack.state (.ofMode mode))

/-- Return to the mode before, if there is one. -/
def pop (stack : ModeStack) : ModeStack × Option ModeStep :=
  match stack.saved with
  | [] => (stack, none)
  | state :: saved => ({ state, saved }, step? stack.state state)

/-- The steps back to the lowest of the saved modes. -/
def stepsBack : ModeState → List ModeState → List ModeStep
  | _, [] => []
  | state, next :: saved => (step? state next).toList ++ stepsBack next saved

/-- Return to the lowest mode, step by step. -/
def popAll (stack : ModeStack) : ModeStack × List ModeStep :=
  ({ state := stack.saved.getLastD stack.state, saved := [] }, stepsBack stack.state stack.saved)

/-- The mode below all temporary ones. -/
def base (stack : ModeStack) : ModeState := stack.saved.getLastD stack.state

def isTemporary (stack : ModeStack) : Bool := !stack.saved.isEmpty

/-- Where a request leads from the base mode.  A request for the shape that a
selection has already ends it. -/
def target (stack : ModeStack) (options : OptionView) (change : ModeChange) : ModeState :=
  let current := stack.base
  match change with
  | .none => current
  | .normal => .ofMode .normal
  | .insert => .ofMode .insert
  | .replace => .ofMode .replace
  | .visual shape =>
      if current.mode.isSelecting then
        if current.submode = shape then .ofMode .normal else .of current.mode shape
      else if options.has OptionName.selectmode "cmd" then .of .select shape
      else .of .visual shape
  | .select shape =>
      if current.mode = .select ∧ current.submode = shape then .ofMode .normal
      else .of .select shape
  | .swapVisualSelect =>
      match current.mode with
      | .visual => .of .select current.submode
      | .select => .of .visual current.submode
      | _ => current

/-- Whether an unshifted special key ends the selection of a mode. -/
def stopsSelection (options : OptionView) : Mode → Bool
  | .select =>
      options.has OptionName.keymodel "stopsel" || options.has OptionName.keymodel "stopselect"
  | .visual =>
      options.has OptionName.keymodel "stopsel" || options.has OptionName.keymodel "stopvisual"
  | _ => false

/-- Whether a shifted special key can start a selection in a mode. -/
def startsSelection : Mode → Bool
  | .normal | .insert | .replace => true
  | _ => false

/-- Where the flags of a special key lead, if they start or stop a selection. -/
def keymodelTarget? (stack : ModeStack) (options : OptionView) (flags : CommandFlags) :
    Option ModeState :=
  let current := stack.base
  if flags.keymodel && stopsSelection options current.mode then some (.ofMode .normal)
  else if flags.shiftSelect && options.has OptionName.keymodel "startsel" &&
      startsSelection current.mode then
    some (.of (if options.has OptionName.selectmode "key" then .select else .visual) .visualCharacter)
  else none

/-- The words for the shape of a selection. -/
def shapeWord : SubMode → String
  | .visualLine => " LINE"
  | .visualBlock => " BLOCK"
  | .visualCharacter | .none => ""

/-- What is shown about the base mode, and about a recording. -/
def message (stack : ModeStack) (recording : Option Register) : String :=
  let mode :=
    match stack.base.mode with
    | .insert => "-- INSERT --"
    | .replace => "-- REPLACE --"
    | .visual => "-- VISUAL" ++ shapeWord stack.base.submode ++ " --"
    | .select => "-- SELECT" ++ shapeWord stack.base.submode ++ " --"
    | .normal | .operatorPending | .commandLine => ""
  match recording.bind (·.char? false) with
  | some c => mode ++ "recording @" ++ String.singleton c
  | none => mode

end ModeStack

end ModalInput
