/-
# ModalInput.Proofs.Passages -- what is done to the modes, and what is told of it

Whatever the resolver does, it comes down to a few passages as far as the modes and
the events are concerned: a command or a failure is told, the mode is changed for
good, a temporary mode is entered or left, or neither modes nor events are touched
(`Passage`).  A change for good leads to a lasting mode, unless the lowest mode was
not one already.

* `Passage.told` -- nothing that was told is taken back.
* `Passages.stacked` -- only the lowest mode lasts.
* `Passages.moves` -- moves are made of passages, and with them every call that looks
  at keys; `Passages.setMode` -- so is a change of the mode from outside.
-/
import Mathlib.Logic.Relation
import ModalInput.Proofs.TemporaryModes

namespace ModalInput.Resolver

set_option autoImplicit false

/-- One thing that is done to the modes and the events. -/
inductive Passage (r : Resolver) : Resolver → Prop where
  /-- The modes stay, and nothing is told. -/
  | quiet {next : Resolver} (modes : next.modes = r.modes) (events : next.events = r.events) :
      Passage r next
  /-- A command is told, with the change of the mode that it brings. -/
  | tells (options : OptionView) (command : Command) (arguments : OperatorArguments) :
      Passage r ((r.emit (.command ⟨command, arguments⟩)).applyModeChange options command)
  | fails (error : EngineError) : Passage r (r.fail error)
  | sets (state : ModeState)
      (lasts : r.modes.base.mode.isTemporary = false → state.mode.isTemporary = false) :
      Passage r (r.changeMode state)
  | pushes (mode : Mode) (temporary : mode.isTemporary = true) : Passage r (r.pushMode mode)
  | pops : Passage r r.popMode
  | returns : Passage r r.leaveTemporary

/-- Nothing that was told is taken back. -/
theorem Passage.told {r next : Resolver} (passage : Passage r next) :
    Emits (fun _ => True) r next := by
  have steps (step : ModeStep) : True := trivial
  cases passage with
  | quiet modes events => exact .of_events events
  | tells options command arguments =>
      exact (Emits.emit r trivial).trans (.applyModeChange steps options _ command)
  | fails error => exact .emit r trivial
  | sets state lasts => exact .changeMode steps r state
  | pushes mode temporary => exact .pushMode steps r mode
  | pops => exact .popMode steps r
  | returns => exact .leaveTemporary steps r

/-- Passages one after the other. -/
abbrev Passages : Resolver → Resolver → Prop := Relation.ReflTransGen Passage

namespace Passages

theorem quiet {a b : Resolver} (modes : b.modes = a.modes) (events : b.events = a.events) :
    Passages a b :=
  .single (.quiet modes events)

theorem told {r next : Resolver} (passages : Passages r next) :
    Emits (fun _ => True) r next := by
  induction passages with
  | refl => exact .refl _
  | tail _ last ih => exact ih.trans last.told

/-! ## Commands -/

theorem abort (r : Resolver) : Passages r r.abort := by
  have forgets : Passages r r.forget := quiet rfl rfl
  exact forgets.tail .returns

theorem cancel (r : Resolver) : Passages r r.cancel := by
  have drops : Passages r { r with typeahead := [], trail := [], trailMatch := none } :=
    quiet rfl rfl
  exact drops.trans (abort _)

variable (options : OptionView)

theorem applyKeymodel (r : Resolver) (command : Command) :
    Passages r (r.applyKeymodel options command) := by
  unfold Resolver.applyKeymodel
  split
  · rename_i state leads
    exact .single (.sets state fun _ => ModeStack.keymodelTarget?_lasts leads)
  · exact .refl

theorem complete (r : Resolver) (command : Command) :
    Passages r (r.complete options command) :=
  ((applyKeymodel options r command).tail (.tells options command _)).trans (quiet rfl rfl)

theorem finishOperator (r : Resolver) (operator motion : Command) :
    Passages r (r.finishOperator options operator motion) := by
  let told := toldOperator operator motion
  have tells : Passages r
      ((r.leaveTemporary.emit (.command told)).applyModeChange options told.command) :=
    .tail (.single .returns) (.tells options told.command told.arguments)
  exact tells.trans (quiet rfl rfl)

/-- Whatever the resolver does is made of passages. -/
theorem spans : Spans options Passages where
  quiet := quiet
  trans := Relation.ReflTransGen.trans
  fails := fun _ error => .single (.fails error)
  pushes := fun _ mode temporary => .single (.pushes mode temporary)
  pops := fun _ => .single .pops
  returns := fun _ => .single .returns
  completes := complete options
  finishes := finishOperator options

variable {options} in
theorem moves {r next : Resolver} (moves : Moves options r next) : Passages r next :=
  (spans options).moves moves

/-- The mode is set from outside. -/
theorem setMode (r : Resolver) {state : ModeState} (lasts : state.mode.isTemporary = false) :
    Passages r (r.setMode state) := by
  refine Relation.ReflTransGen.tail ((abort r).trans ?_) (.sets state fun _ => lasts)
  exact quiet rfl rfl

/-! ## The modes -/

/-- Only the lowest mode lasts, after every passage. -/
theorem stacked {r next : Resolver} (passages : Passages r next)
    (stacked : Stacked r.modes.state r.modes.saved) :
    Stacked next.modes.state next.modes.saved := by
  induction passages with
  | refl => exact stacked
  | @tail a b before passage ih =>
      cases passage with
      | quiet modes events =>
          rw [modes]
          exact ih
      | tells options command arguments =>
          let told := a.emit (.command ⟨command, arguments⟩)
          rcases applyModeChange_modes options (r := told) ih command with ⟨_, same⟩ | lasting
          · rw [same]
            exact ih
          · exact lasting.stacked
      | fails error => exact ih
      | sets state lasts => exact .lowest (lasts ih.lowest_lasts)
      | pushes mode temporary => exact .above temporary ih
      | pops =>
          show Stacked a.modes.pop.1.state a.modes.pop.1.saved
          unfold ModeStack.pop
          split
          · exact ih
          · rename_i state saved same
            rw [same] at ih
            cases ih with
            | above temporary below => exact below
      | returns => exact (leaveTemporary_lasting ih).stacked

end Passages

end ModalInput.Resolver
