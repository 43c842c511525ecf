/-
# ModalInput.Proofs.TemporaryModes -- the modes above the lowest one

A temporary mode is entered on top of the mode to return to, so of the modes of a
stack all but the lowest are temporary (`Stacked`).  Operator-pending mode is
entered with the operator that it waits for, and every way in which the operator
goes away takes the mode with it (`Staged`): whatever is mapped, an operator is
there while its motion is waited for.

* `complete_modes`, `finishOperator_modes` -- a command that is complete leaves
  the modes as they are, or a lasting mode.
* `staged_invariant` -- every operation keeps the operator and its mode in step.
-/
import ModalInput.Proofs.Layers

namespace ModalInput

set_option autoImplicit false

/-- The modes of a stack, the current one first: all but the lowest are
temporary. -/
inductive Stacked : ModeState → List ModeState → Prop where
  | lowest {state : ModeState} (lasts : state.mode.isTemporary = false) : Stacked state []
  | above {state next : ModeState} {saved : List ModeState}
      (temporary : state.mode.isTemporary = true) (below : Stacked next saved) :
      Stacked state (next :: saved)

theorem Stacked.lowest_lasts {state : ModeState} {saved : List ModeState}
    (stacked : Stacked state saved) : (saved.getLastD state).mode.isTemporary = false := by
  induction stacked with
  | lowest lasts => exact lasts
  | @above state next saved temporary below ih =>
      rw [List.getLastD_cons]
      exact ih

/-- A lasting mode has no other below it. -/
theorem Stacked.alone {state : ModeState} {saved : List ModeState}
    (stacked : Stacked state saved) (lasts : state.mode.isTemporary = false) : saved = [] := by
  cases stacked with
  | lowest _ => rfl
  | above temporary below =>
      rw [lasts] at temporary
      cases temporary

namespace ModeStack

/-- Only one mode, and it lasts. -/
structure Lasting (stack : ModeStack) : Prop where
  alone : stack.saved = []
  lasts : stack.state.mode.isTemporary = false

/-- The mode is one of the current mode and those to return to. -/
def Holds (stack : ModeStack) (mode : Mode) : Prop :=
  ∃ state ∈ stack.state :: stack.saved, state.mode = mode

theorem Lasting.stacked {stack : ModeStack} (lasting : stack.Lasting) :
    Stacked stack.state stack.saved := by
  rw [lasting.alone]
  exact .lowest lasting.lasts

theorem Lasting.not_temporary {stack : ModeStack} (lasting : stack.Lasting) {mode : Mode}
    (temporary : mode.isTemporary = true) : ¬ stack.Holds mode := by
  rintro ⟨state, member, rfl⟩
  rw [lasting.alone, List.mem_singleton] at member
  rw [member, lasting.lasts] at temporary
  cases temporary

theorem target_lasts (stack : ModeStack) (options : OptionView) (change : ModeChange)
    (lasts : stack.base.mode.isTemporary = false) :
    (stack.target options change).mode.isTemporary = false := by
  unfold target
  cases change with
  | none => exact lasts
  | normal => rfl
  | insert => rfl
  | replace => rfl
  | visual shape =>
      dsimp only
      split
      · split
        · rfl
        · exact lasts
      · split <;> rfl
  | select shape =>
      dsimp only
      split <;> rfl
  | swapVisualSelect =>
      dsimp only
      split
      · rfl
      · rfl
      · exact lasts

theorem keymodelTarget?_lasts {stack : ModeStack} {options : OptionView} {flags : CommandFlags}
    {state : ModeState} (leads : stack.keymodelTarget? options flags = some state) :
    state.mode.isTemporary = false := by
  unfold keymodelTarget? at leads
  dsimp only at leads
  split at leads
  · cases leads
    rfl
  · split at leads
    · cases leads
      rw [ModeState.mode_of]
      split <;> rfl
    · cases leads

end ModeStack

namespace Resolver

variable (options : OptionView)

/-! ## What a complete command leaves -/

theorem changeMode_lasting (r : Resolver) {state : ModeState}
    (lasts : state.mode.isTemporary = false) : (r.changeMode state).modes.Lasting :=
  ⟨rfl, lasts⟩

theorem leaveTemporary_lasting {r : Resolver} (stacked : Stacked r.modes.state r.modes.saved) :
    r.leaveTemporary.modes.Lasting :=
  ⟨rfl, stacked.lowest_lasts⟩

theorem applyKeymodel_modes (r : Resolver) (command : Command) :
    (r.applyKeymodel options command).modes = r.modes ∨
      (r.applyKeymodel options command).modes.Lasting := by
  unfold applyKeymodel
  split
  · rename_i state leads
    exact .inr (changeMode_lasting r (ModeStack.keymodelTarget?_lasts leads))
  · exact .inl rfl

theorem applyModeChange_modes {r : Resolver} (stacked : Stacked r.modes.state r.modes.saved)
    (command : Command) :
    command.action.modeChange = .none ∧ (r.applyModeChange options command).modes = r.modes ∨
      (r.applyModeChange options command).modes.Lasting := by
  unfold applyModeChange
  split
  · rename_i change
    split
    · exact .inr (changeMode_lasting r rfl)
    · exact .inl ⟨change, rfl⟩
  · exact .inr (changeMode_lasting r
      (ModeStack.target_lasts _ options _ stacked.lowest_lasts))

/-- A complete command leaves a lasting mode, or asks for none and leaves the modes
as they are. -/
theorem complete_modes {r : Resolver} (stacked : Stacked r.modes.state r.modes.saved)
    (command : Command) :
    command.action.modeChange = .none ∧ (r.complete options command).modes = r.modes ∨
      (r.complete options command).modes.Lasting := by
  let told := (r.applyKeymodel options command).emit (.command (r.toldComplete options command))
  have changed (stacked : Stacked told.modes.state told.modes.saved) :=
    applyModeChange_modes options stacked command
  rcases applyKeymodel_modes options r command with same | lasting
  · have kept : told.modes = r.modes := same
    rw [kept] at changed
    exact changed stacked
  · have lasts : told.modes.Lasting := lasting
    rcases changed lasts.stacked with ⟨_, same⟩ | lasting
    · refine .inr ?_
      show (told.applyModeChange options command).modes.Lasting
      rw [same]
      exact lasts
    · exact .inr lasting

/-- An operator with its motion leaves a lasting mode. -/
theorem finishOperator_modes {r : Resolver} (stacked : Stacked r.modes.state r.modes.saved)
    (operator motion : Command) : (r.finishOperator options operator motion).modes.Lasting := by
  let command := (toldOperator operator motion).command
  let told := r.leaveTemporary.emit (.command (toldOperator operator motion))
  have lasts : told.modes.Lasting := leaveTemporary_lasting stacked
  show (told.applyModeChange options command).modes.Lasting
  rcases applyModeChange_modes options lasts.stacked command with ⟨_, same⟩ | lasting
  · rw [same]
    exact lasts
  · exact lasting

/-- The same of a command whose argument is there. -/
theorem argumentDone_modes {r : Resolver} (stacked : Stacked r.modes.state r.modes.saved)
    (command : Command) :
    (r.pending.operator = none ∧ command.action.modeChange = .none ∧
        (r.argumentDone options command).modes = r.modes) ∨
      (r.argumentDone options command).modes.Lasting := by
  unfold argumentDone
  split
  · exact .inr (finishOperator_modes options stacked _ _)
  · rename_i nothing
    rcases complete_modes options stacked command with ⟨change, same⟩ | lasting
    · exact .inl ⟨nothing, change, same⟩
    · exact .inr lasting

/-! ## The operator and its mode -/

/-- Only the lowest mode lasts, and where a motion is waited for, or will be again,
an operator waits for it. -/
structure Staged (r : Resolver) : Prop where
  stacked : Stacked r.modes.state r.modes.saved
  operator : r.modes.Holds .operatorPending → r.pending.operator ≠ none

namespace Staged

theorem of_lasting {r : Resolver} (lasting : r.modes.Lasting) : Staged r :=
  ⟨lasting.stacked, fun holds => absurd holds (lasting.not_temporary rfl)⟩

theorem of_same {r r' : Resolver} (staged : Staged r) (modes : r'.modes = r.modes)
    (operator : r'.pending.operator = r.pending.operator) : Staged r' :=
  ⟨by rw [modes]; exact staged.stacked, by rw [modes, operator]; exact staged.operator⟩

/-- The modes do not change, and no motion is waited for. -/
theorem of_modes {r r' : Resolver} (staged : Staged r) (nothing : r.pending.operator = none)
    (modes : r'.modes = r.modes) : Staged r' :=
  ⟨by rw [modes]; exact staged.stacked,
    by rw [modes]; exact fun holds => absurd nothing (staged.operator holds)⟩

theorem complete {r : Resolver} (staged : Staged r) (nothing : r.pending.operator = none)
    (command : Command) : Staged (r.complete options command) := by
  rcases complete_modes options staged.stacked command with ⟨_, same⟩ | lasting
  · exact staged.of_modes nothing same
  · exact .of_lasting lasting

theorem argumentDone {r : Resolver} (staged : Staged r) (command : Command) :
    Staged (r.argumentDone options command) := by
  rcases argumentDone_modes options staged.stacked command with ⟨nothing, _, same⟩ | lasting
  · exact staged.of_modes nothing same
  · exact .of_lasting lasting

theorem counted {r : Resolver} (staged : Staged r) : Staged r.counted :=
  staged.of_same (modes_counted r) (operator_counted r)

theorem popMode {r : Resolver} (staged : Staged r) : Staged r.popMode := by
  unfold Resolver.popMode emitSteps ModeStack.pop
  have stacked := staged.stacked
  have operator := staged.operator
  unfold ModeStack.Holds at operator
  split
  · exact staged.of_same rfl rfl
  · rename_i state saved same
    rw [same] at stacked operator
    cases stacked with
    | above temporary below =>
        refine ⟨below, ?_⟩
        rintro ⟨level, member, mode⟩
        exact operator ⟨level, .tail _ member, mode⟩

theorem abort {r : Resolver} (staged : Staged r) : Staged r.abort :=
  .of_lasting (leaveTemporary_lasting (r := r.forget) staged.stacked)

theorem commandResolved {r : Resolver} (staged : Staged r) (action : Action) (keys : List Key) :
    Staged (r.commandResolved options action keys) := by
  have step := commandResolved_step options r action keys
  have counted := staged.counted
  generalize r.commandResolved options action keys = after at step ⊢
  cases step with
  | starts starts => exact ⟨.above rfl counted.stacked, by simp [Resolver.pushMode, emitSteps]⟩
  | finishes noOperator ready => exact counted.argumentDone options _
  | awaitsCharacter kind => exact counted.of_same rfl rfl
  | opensLine kind =>
      refine ⟨.above rfl counted.stacked, ?_⟩
      rintro ⟨level, member, mode⟩
      rcases List.mem_cons.mp member with rfl | below
      · cases mode
      · exact counted.operator ⟨level, below, mode⟩
  | awaitsOffsets kind => exact counted.of_same rfl rfl

theorem fireHeld {r : Resolver} (staged : Staged r) : Staged (r.fireHeld options) := by
  unfold Resolver.fireHeld
  split
  · exact staged
  · apply Staged.commandResolved
    exact staged.of_same rfl rfl

theorem commandKey {r : Resolver} (staged : Staged r) (key : Key) :
    Staged (r.commandKey options key) := by
  have step := commandKey_step options r key
  have answered : Staged r.answered := staged.of_same rfl rfl
  have gathered : Staged (r.gathered key) := staged.of_same rfl rfl
  generalize r.commandKey options key = after at step ⊢
  cases step with
  | drops => exact staged.abort
  | refuses c awaits => exact staged.abort.of_same rfl rfl
  | names register awaits named => exact staged.of_same rfl rfl
  | supplies command c awaits types => exact answered.argumentDone options _
  | enters command prompt typed awaits confirms => exact answered.popMode.argumentDone options _
  | edits command prompt typed awaits => exact staged.of_same rfl rfl
  | waits command awaits => exact staged.of_same rfl rfl
  | counts count idle first mode digit =>
      refine staged.of_same rfl ?_
      simp only [PendingCommand.withCurrentCount]
      split <;> rfl
  | asksRegister idle first mode sign => exact staged.of_same rfl rfl
  | repeats operator idle waiting again =>
      apply Staged.argumentDone
      exact gathered.of_same rfl rfl
  | gathers idle found => exact gathered
  | holds action idle found => exact gathered.of_same rfl rfl
  | resolves action idle found =>
      apply Staged.commandResolved
      exact gathered.of_same rfl rfl
  | fires held idle holding => exact gathered.fireHeld options
  | parts first second idle single nothing apart => exact staged.of_same rfl rfl
  | types action c idle single nothing typing typed =>
      -- characters are typed in lasting modes only, whatever operator there is
      have lasts : r.modes.state.mode.isTemporary = false := by
        cases mode : r.modes.mode with
        | insert => exact congrArg Mode.isTemporary mode
        | replace => exact congrArg Mode.isTemporary mode
        | select => exact congrArg Mode.isTemporary mode
        | normal => simp [typingAction?, mode] at typing
        | visual => simp [typingAction?, mode] at typing
        | commandLine => simp [typingAction?, mode] at typing
        | operatorPending => simp [typingAction?, mode] at typing
      have lasting : r.modes.Lasting := ⟨staged.stacked.alone lasts, lasts⟩
      rcases complete_modes options (r := { r.gathered key with
          pending := { (r.gathered key).pending with keys := [] } }) staged.stacked
          ((Command.new action 0).withArgument (.character c)) with ⟨_, same⟩ | lasting'
      · exact .of_lasting (by rw [same]; exact lasting)
      · exact .of_lasting lasting'

theorem move {r r' : Resolver} (staged : Staged r) (move : Move options r r') : Staged r' := by
  cases move with
  | queue typeahead => exact staged.of_same rfl rfl
  | joins key maps => exact staged.of_same rfl rfl
  | reaches key mapping maps found => exact staged.of_same rfl rfl
  | leaves => exact staged.of_same rfl rfl
  | acts mapping action found target =>
      apply Staged.commandResolved
      exact staged.of_same rfl rfl
  | key key empty => exact staged.commandKey options key
  | fires => exact staged.fireHeld options
  | supplies command values awaits => exact staged.argumentDone options _
  | cancels =>
      apply Staged.abort
      exact staged.of_same rfl rfl
  | fails error => exact staged.of_same rfl rfl

end Staged

/-- Every operation keeps the operator and its mode in step, as long as no
temporary mode is set from outside. -/
theorem staged_invariant {σ : Type} {allowed : Operation σ → Prop}
    (lasting : ∀ state, allowed (.setMode state) → state.mode.isTemporary = false) :
    Invariant allowed Staged where
  move := fun options _ _ staged move => staged.move options move
  setMode := fun state _ allows _ => .of_lasting ⟨rfl, lasting state allows⟩
  setRecording := fun _ _ staged => staged.of_same rfl rfl
  setMappings := fun _ _ _ staged => staged.of_same rfl rfl
  events := fun _ _ staged => staged.of_same rfl rfl

end Resolver

end ModalInput
