/-
# ModalInput.Proofs.LowestMode -- the lowest mode, read off what is told

Below the temporary modes lies the mode that is returned to.  Gathering keys, waiting for
an argument, dropping what was typed and failing leave it alone: it changes with the
commands that are told, and nothing but the command says where to
(`ResolvedCommand.modeLeft`).  So whoever takes the events knows the lowest mode of a
resolver from the one before (`Reckons`).

The change is made when the command is told.  It is there before anybody has tried to run
the command, and stays whatever comes of that.

* `modeLeft_of_motion` -- the mode that an operator with its motion leaves.
* `Reckons.complete`, `finishOperator` -- the two ways in which commands are told.
* `Reckons.moves` -- the lowest mode after any moves, and with them after every call that
  looks at keys.
-/
import ModalInput.Proofs.Emission
import ModalInput.Proofs.Moves

namespace ModalInput

set_option autoImplicit false

namespace ModeStack

theorem base_push (stack : ModeStack) (mode : Mode) : (stack.push mode).1.base = stack.base :=
  List.getLastD_cons ..

theorem base_pop (stack : ModeStack) : stack.pop.1.base = stack.base := by
  unfold pop
  split
  · rfl
  · rename_i state saved below
    rw [base, base, below, List.getLastD_cons]

theorem base_popAll (stack : ModeStack) : stack.popAll.1.base = stack.base := rfl

end ModeStack

/-- The event is a change of the mode. -/
def EngineEvent.isChange : EngineEvent → Bool
  | .modeChanged _ => true
  | .command _ | .failed _ => false

/-! ## What commands make of the lowest mode -/

/-- The lowest mode after the mode change that a command asks for, in the current mode and
above the lowest one. -/
def Command.leadsTo (command : Command) (options : OptionView) (current lowest : ModeState) :
    ModeState :=
  match command.action.modeChange with
  | .none =>
      if current.mode.isSelecting && (command.flags.exitVisual || command.action.isOperator) then
        .ofMode .normal
      else lowest
  | change => (⟨lowest, []⟩ : ModeStack).target options change

namespace ResolvedCommand

variable (options : OptionView) (resolved : ResolvedCommand) (mode : ModeState)

/-- The lowest mode when a command is told: a special key has started or stopped a
selection by then.  An operator is told with its motion, and no such key is looked at. -/
def modeTold : ModeState :=
  if resolved.arguments.operatorPending then mode
  else
    ((⟨mode, []⟩ : ModeStack).keymodelTarget? options resolved.command.flags).getD mode

/-- The current mode when a command is told; nothing lies above the lowest one when an
operator is told with its motion. -/
def modeThen : ModeState :=
  if resolved.arguments.operatorPending then mode else resolved.arguments.state

/-- The lowest mode after a command is told. -/
def modeLeft : ModeState :=
  resolved.command.leadsTo options (resolved.modeThen mode) (resolved.modeTold options mode)

variable {resolved mode}

/-- An operator with its motion leads where its request leads. -/
theorem modeLeft_of_motion (pending : resolved.arguments.operatorPending = true)
    (plain : mode.mode.isSelecting = false) :
    resolved.modeLeft options mode =
      (⟨mode, []⟩ : ModeStack).target options resolved.command.action.modeChange := by
  have told : resolved.modeTold options mode = mode := if_pos pending
  have current : resolved.modeThen mode = mode := if_pos pending
  unfold modeLeft Command.leadsTo
  rw [told, current, plain]
  split
  · rename_i change
    rw [change]
    rfl
  · rfl

end ResolvedCommand

/-- The lowest mode after an event. -/
def EngineEvent.leaves (options : OptionView) (mode : ModeState) : EngineEvent → ModeState
  | .command resolved => resolved.modeLeft options mode
  | .modeChanged _ | .failed _ => mode

/-- The lowest mode after some events. -/
def reckoned (options : OptionView) (mode : ModeState) (events : List EngineEvent) : ModeState :=
  events.foldl (EngineEvent.leaves options) mode

theorem reckoned_append (options : OptionView) (mode : ModeState) (events more : List EngineEvent) :
    reckoned options mode (events ++ more) =
      reckoned options (reckoned options mode events) more :=
  List.foldl_append

/-- Changes of the mode tell nothing about the lowest one. -/
@[simp] theorem reckoned_steps (options : OptionView) (mode : ModeState) (steps : List ModeStep) :
    reckoned options mode (steps.map .modeChanged) = mode := by
  induction steps with
  | nil => rfl
  | cons step rest ih => exact ih

namespace Resolver

/-! ## Every function that tells events -/

/-- Events are added, and the lowest mode afterwards follows from them. -/
def Reckons (options : OptionView) (r r' : Resolver) : Prop :=
  ∃ told, r'.events = r.events ++ told ∧
    r'.modes.base = reckoned options r.modes.base told

namespace Reckons

variable {options : OptionView}

/-- Changes of the mode are told that leave the lowest one. -/
theorem of_steps {r r' : Resolver} (steps : List ModeStep)
    (events : r'.events = r.events ++ steps.map .modeChanged)
    (base : r'.modes.base = r.modes.base) : Reckons options r r' :=
  ⟨_, events, by rw [reckoned_steps, base]⟩

theorem of_same {r r' : Resolver} (events : r'.events = r.events) (modes : r'.modes = r.modes) :
    Reckons options r r' :=
  of_steps [] (by simp [events]) (by rw [modes])

theorem trans {a b c : Resolver} (first : Reckons options a b) (second : Reckons options b c) :
    Reckons options a c := by
  obtain ⟨told, events, base⟩ := first
  obtain ⟨more, events', base'⟩ := second
  exact ⟨told ++ more, by rw [events', events, List.append_assoc],
    by rw [reckoned_append, ← base, base']⟩

theorem fail (r : Resolver) (error : EngineError) : Reckons options r (r.fail error) :=
  ⟨[.failed error], rfl, rfl⟩

theorem pushMode (r : Resolver) (mode : Mode) : Reckons options r (r.pushMode mode) :=
  of_steps _ rfl (r.modes.base_push mode)

theorem popMode (r : Resolver) : Reckons options r r.popMode :=
  of_steps _ rfl r.modes.base_pop

theorem leaveTemporary (r : Resolver) : Reckons options r r.leaveTemporary :=
  of_steps _ rfl r.modes.base_popAll

/-! ### Commands -/

theorem applyModeChange (r : Resolver) (command : Command) :
    ∃ steps : List ModeStep,
      (r.applyModeChange options command).events = r.events ++ steps.map .modeChanged ∧
      (r.applyModeChange options command).modes.base =
        command.leadsTo options r.modes.state r.modes.base := by
  unfold Resolver.applyModeChange Command.leadsTo
  cases command.action.modeChange with
  | none =>
      dsimp only
      split
      · rename_i ends
        exact ⟨_, rfl, (if_pos ends).symm⟩
      · rename_i stays
        exact ⟨[], by simp, (if_neg stays).symm⟩
  | _ => exact ⟨_, rfl, rfl⟩

/-- A special key changes the mode that its command is told in. -/
theorem applyKeymodel (r : Resolver) (command : Command) :
    ∃ steps : List ModeStep,
      (r.applyKeymodel options command).events = r.events ++ steps.map .modeChanged ∧
      (r.applyKeymodel options command).modes.base =
        (r.modes.keymodelTarget? options command.flags).getD r.modes.base := by
  unfold Resolver.applyKeymodel
  split
  · rename_i state leads
    exact ⟨_, rfl, by rw [leads]; rfl⟩
  · rename_i nothing
    exact ⟨[], by simp, by rw [nothing]; rfl⟩

/-- A command is told where it finds the modes that are reckoned with, and the mode
changes that it asks for. -/
theorem tells {r begun : Resolver} {resolved : ResolvedCommand} {steps : List ModeStep}
    (events : begun.events = r.events ++ steps.map .modeChanged)
    (told : begun.modes.base = resolved.modeTold options r.modes.base)
    (current : begun.modes.state = resolved.modeThen r.modes.base) :
    Reckons options r
      ((begun.emit (.command resolved)).applyModeChange options resolved.command) := by
  let telling := begun.emit (.command resolved)
  obtain ⟨more, ends, left⟩ : ∃ more : List ModeStep,
      (telling.applyModeChange options resolved.command).events =
        telling.events ++ more.map .modeChanged ∧
      (telling.applyModeChange options resolved.command).modes.base =
        resolved.command.leadsTo options begun.modes.state begun.modes.base :=
    applyModeChange telling resolved.command
  refine ⟨steps.map .modeChanged ++ ([.command resolved] ++ more.map .modeChanged), ?_, ?_⟩
  · rw [ends, show telling.events = begun.events ++ [.command resolved] from rfl, events]
    simp only [List.append_assoc]
  · rw [left, reckoned_append, reckoned_append, reckoned_steps, reckoned_steps, told, current]
    rfl

theorem complete (r : Resolver) (command : Command) :
    Reckons options r (r.complete options command) := by
  let begun := r.applyKeymodel options command
  let resolved := r.toldComplete options command
  obtain ⟨steps, events, base⟩ : ∃ steps : List ModeStep,
      begun.events = r.events ++ steps.map .modeChanged ∧
      begun.modes.base = resolved.modeTold options r.modes.base := applyKeymodel r command
  have told : Reckons options r
      ((begun.emit (.command resolved)).applyModeChange options command) := tells events base rfl
  exact told.trans (of_same rfl rfl)

theorem finishOperator (r : Resolver) (operator motion : Command) :
    Reckons options r (r.finishOperator options operator motion) := by
  let resolved := toldOperator operator motion
  have told : Reckons options r
      ((r.leaveTemporary.emit (.command resolved)).applyModeChange options resolved.command) :=
    tells rfl rfl rfl
  exact told.trans (of_same rfl rfl)

/-! ### Moves -/

theorem spans : Spans options (Reckons options) where
  quiet := fun modes events => of_same events modes
  trans := trans
  fails := fail
  pushes := fun r mode _ => pushMode r mode
  pops := popMode
  returns := leaveTemporary
  completes := complete
  finishes := finishOperator

/-- Whatever a call does that looks at keys, the lowest mode follows from what it
tells. -/
theorem moves {r r' : Resolver} (moves : Moves options r r') : Reckons options r r' :=
  spans.moves moves

theorem cancel (r : Resolver) : Reckons options r r.cancel := spans.cancel r

end Reckons

end Resolver

end ModalInput
