/-
# ModalInput.Proofs.SetModes -- temporary modes that were set from outside

A temporary mode is entered on top of the mode to return to, and to cancel is to return
to the lowest mode.  But the mode can also be set from outside, to a temporary one as
well, and then nothing lies below it: it is the lowest mode, and to cancel leaves it as it
is (`setTemporary_remains`).  It is left for good with the next command that asks for a mode
of its own, or when the mode is set again.

So the mode after a cancellation is a temporary one exactly if it is the last one that was
set, and no command that was told since asked for another (`cancelled_iff`).  Where no
temporary mode is ever set, every cancellation leaves a lasting mode.

* `ModeChange.remains` -- the requests that lead from a temporary mode to itself.
* `ModeStack.Keeps` -- what becomes of stacks whose lowest mode lasts, and of stacks with
  temporary modes only; `Kept.spans` -- of every call that looks at keys.
* `Session.LeftIn` -- the temporary mode that was set, and that nothing has led out of.
-/
import ModalInput.Proofs.Dropping
import ModalInput.Proofs.LowestMode
import ModalInput.Proofs.Passages

namespace ModalInput

set_option autoImplicit false

/-- The request leads from a temporary mode to itself. -/
def ModeChange.remains : ModeChange → Bool
  | .none | .swapVisualSelect => true
  | _ => false

/-- No command that is told asks for a lasting mode. -/
def Remains (told : List EngineEvent) : Prop :=
  ∀ resolved, .command resolved ∈ told → resolved.command.action.modeChange.remains = true

theorem remains_append {told more : List EngineEvent} :
    Remains (told ++ more) ↔ Remains told ∧ Remains more := by
  simp only [Remains, List.mem_append, or_imp, forall_and]

theorem remains_steps (steps : List ModeStep) : Remains (steps.map .modeChanged) := by
  intro resolved member
  simp at member

/-! ## Stacks of modes -/

namespace ModeStack

/-- Every mode of the stack is temporary, the lowest one, too. -/
def AllTemporary (stack : ModeStack) : Prop :=
  ∀ state ∈ stack.state :: stack.saved, state.mode.isTemporary = true

theorem AllTemporary.base {stack : ModeStack} (temporary : stack.AllTemporary) :
    stack.base.mode.isTemporary = true :=
  temporary _ List.getLastD_mem_cons

theorem AllTemporary.single {state : ModeState} (temporary : state.mode.isTemporary = true) :
    AllTemporary { state } := by
  intro other member
  obtain rfl := List.mem_singleton.mp member
  exact temporary

theorem AllTemporary.push {stack : ModeStack} (temporary : stack.AllTemporary) {mode : Mode}
    (above : mode.isTemporary = true) : (stack.push mode).1.AllTemporary := by
  intro state member
  rcases List.mem_cons.mp member with rfl | below
  · exact above
  · exact temporary state below

theorem AllTemporary.pop {stack : ModeStack} (temporary : stack.AllTemporary) :
    stack.pop.1.AllTemporary := by
  unfold ModeStack.pop
  split
  · exact temporary
  · rename_i next saved below
    intro state member
    exact temporary state (by rw [below]; exact .tail _ member)

theorem AllTemporary.popAll {stack : ModeStack} (temporary : stack.AllTemporary) :
    stack.popAll.1.AllTemporary :=
  .single temporary.base

section Requests

variable {stack : ModeStack} (options : OptionView)
  (temporary : stack.base.mode.isTemporary = true)
include temporary

theorem target_remains {change : ModeChange} (remains : change.remains = true) :
    stack.target options change = stack.base := by
  cases change with
  | none => rfl
  | swapVisualSelect =>
      unfold target
      dsimp only
      split
      · rename_i mode
        rw [mode] at temporary
        cases temporary
      · rename_i mode
        rw [mode] at temporary
        cases temporary
      · rfl
  | _ => cases remains

theorem target_leaves {change : ModeChange} (leaves : change.remains = false) :
    (stack.target options change).mode.isTemporary = false := by
  have unselected : stack.base.mode.isSelecting = false := by
    cases mode : stack.base.mode <;> simp_all [Mode.isTemporary, Mode.isSelecting]
  unfold target
  cases change with
  | none => cases leaves
  | swapVisualSelect => cases leaves
  | visual shape =>
      dsimp only
      rw [unselected, if_neg Bool.false_ne_true]
      split <;> rfl
  | select shape =>
      dsimp only
      split <;> rfl
  | normal | insert | replace => rfl

/-- No special key starts or stops a selection there. -/
theorem keymodelTarget?_temporary (flags : CommandFlags) :
    stack.keymodelTarget? options flags = none := by
  unfold keymodelTarget?
  cases mode : stack.base.mode <;>
    simp_all [Mode.isTemporary, stopsSelection, startsSelection]

end Requests

/-- What becomes of a stack while some events are told.  Below a lasting mode there never
comes another; and where only temporary modes are, the lowest of them stays as long as no
command is told that asks for a lasting mode, and then a lasting mode takes its place. -/
structure Keeps (before after : ModeStack) (told : List EngineEvent) : Prop where
  stacked : Stacked before.state before.saved → Stacked after.state after.saved
  stays : before.AllTemporary → Remains told → after.AllTemporary ∧ after.base = before.base
  leaves : before.AllTemporary → ¬ Remains told → Stacked after.state after.saved

namespace Keeps

variable {a b c : ModeStack} {told more : List EngineEvent}

theorem of_same (same : b = a) (remains : Remains told) : Keeps a b told := by
  subst same
  exact ⟨id, fun temporary _ => ⟨temporary, rfl⟩, fun _ leaves => absurd remains leaves⟩

theorem trans (first : Keeps a b told) (second : Keeps b c more) :
    Keeps a c (told ++ more) where
  stacked := fun stacked => second.stacked (first.stacked stacked)
  stays := by
    intro temporary remains
    obtain ⟨early, late⟩ := remains_append.mp remains
    obtain ⟨temporary', base⟩ := first.stays temporary early
    obtain ⟨temporary'', base'⟩ := second.stays temporary' late
    exact ⟨temporary'', base'.trans base⟩
  leaves := by
    intro temporary leaves
    by_cases early : Remains told
    · have late : ¬ Remains more := fun late => leaves (remains_append.mpr ⟨early, late⟩)
      exact second.leaves (first.stays temporary early).1 late
    · exact second.stacked (first.leaves temporary early)

/-- Temporary modes come and go above the lowest mode. -/
theorem of_steps {steps : List ModeStep}
    (stacked : Stacked a.state a.saved → Stacked b.state b.saved)
    (temporary : a.AllTemporary → b.AllTemporary) (base : b.base = a.base) :
    Keeps a b (steps.map .modeChanged) :=
  ⟨stacked, fun all _ => ⟨temporary all, base⟩,
    fun _ leaves => absurd (remains_steps steps) leaves⟩

end Keeps

end ModeStack

namespace Resolver

/-! ## Calls that look at keys -/

/-- Events are added, and the modes are kept while they are told. -/
def Kept (r next : Resolver) : Prop :=
  ∃ told, next.events = r.events ++ told ∧ r.modes.Keeps next.modes told

namespace Kept

variable (options : OptionView)

theorem quiet {r next : Resolver} (modes : next.modes = r.modes)
    (events : next.events = r.events) : Kept r next :=
  ⟨[], by simp [events], .of_same modes (remains_steps [])⟩

theorem trans {a b c : Resolver} (first : Kept a b) (second : Kept b c) : Kept a c := by
  obtain ⟨told, events, keeps⟩ := first
  obtain ⟨more, events', keeps'⟩ := second
  exact ⟨told ++ more, by rw [events', events, List.append_assoc], keeps.trans keeps'⟩

theorem fail (r : Resolver) (error : EngineError) : Kept r (r.fail error) := by
  refine ⟨[.failed error], rfl, .of_same rfl ?_⟩
  intro resolved member
  simp at member

theorem pushMode (r : Resolver) {mode : Mode} (temporary : mode.isTemporary = true) :
    Kept r (r.pushMode mode) :=
  ⟨_, rfl, .of_steps (.above temporary) (·.push temporary) (r.modes.base_push mode)⟩

theorem popMode (r : Resolver) : Kept r r.popMode := by
  have pops : Passages r r.popMode := .single .pops
  exact ⟨_, rfl, .of_steps pops.stacked (·.pop) r.modes.base_pop⟩

theorem leaveTemporary (r : Resolver) : Kept r r.leaveTemporary := by
  have returns : Passages r r.leaveTemporary := .single .returns
  exact ⟨_, rfl, .of_steps returns.stacked (·.popAll) r.modes.base_popAll⟩

/-- A command is told, with the change of the mode that it asks for. -/
theorem tells (r : Resolver) (resolved : ResolvedCommand) :
    Kept r ((r.emit (.command resolved)).applyModeChange options resolved.command) := by
  let told := r.emit (.command resolved)
  obtain ⟨steps, events, _⟩ := @Reckons.applyModeChange options told resolved.command
  refine ⟨[.command resolved] ++ steps.map .modeChanged, ?_, ?_, ?_, ?_⟩
  · rw [events, show told.events = r.events ++ [.command resolved] from rfl, List.append_assoc]
  · have passes : Passages r (told.applyModeChange options resolved.command) :=
      .single (.tells options resolved.command resolved.arguments)
    exact passes.stacked
  · intro temporary remains
    have asks : resolved.command.action.modeChange.remains = true := remains resolved (by simp)
    have unselected : told.modes.mode.isSelecting = false := by
      have top := temporary _ List.mem_cons_self
      show r.modes.state.mode.isSelecting = false
      cases mode : r.modes.state.mode <;> simp_all [Mode.isTemporary, Mode.isSelecting]
    unfold Resolver.applyModeChange
    split
    · rw [unselected, Bool.false_and, if_neg Bool.false_ne_true]
      exact ⟨temporary, rfl⟩
    · have stays : told.modes.target options resolved.command.action.modeChange = r.modes.base :=
        ModeStack.target_remains options temporary.base asks
      rw [stays]
      exact ⟨.single temporary.base, rfl⟩
  · intro temporary leaves
    have asks : resolved.command.action.modeChange.remains = false := by
      rw [Bool.eq_false_iff]
      intro asks
      refine leaves fun other member => ?_
      simp only [List.mem_append, List.mem_singleton, EngineEvent.command.injEq, List.mem_map,
        reduceCtorEq, and_false, exists_false, or_false] at member
      rw [member]
      exact asks
    unfold Resolver.applyModeChange
    split
    · rename_i change
      rw [change] at asks
      cases asks
    · have lasts : (told.modes.target options
          resolved.command.action.modeChange).mode.isTemporary = false :=
        ModeStack.target_leaves options temporary.base asks
      exact .lowest lasts

theorem applyKeymodel (r : Resolver) (command : Command) :
    Kept r (r.applyKeymodel options command) := by
  obtain ⟨steps, events, _⟩ := @Reckons.applyKeymodel options r command
  have same (temporary : r.modes.AllTemporary) :
      (r.applyKeymodel options command).modes = r.modes := by
    unfold Resolver.applyKeymodel
    rw [ModeStack.keymodelTarget?_temporary options temporary.base]
  refine ⟨steps.map .modeChanged, events, (Passages.applyKeymodel options r command).stacked, ?_,
    fun _ leaves => absurd (remains_steps steps) leaves⟩
  intro temporary _
  rw [same temporary]
  exact ⟨temporary, rfl⟩

theorem complete (r : Resolver) (command : Command) : Kept r (r.complete options command) :=
  ((applyKeymodel options r command).trans
    (tells options _ (r.toldComplete options command))).trans (quiet rfl rfl)

theorem finishOperator (r : Resolver) (operator motion : Command) :
    Kept r (r.finishOperator options operator motion) :=
  ((leaveTemporary r).trans (tells options _ (toldOperator operator motion))).trans
    (quiet rfl rfl)

theorem spans : Spans options Kept where
  quiet := quiet
  trans := trans
  fails := fail
  pushes := fun r _ temporary => pushMode r temporary
  pops := popMode
  returns := leaveTemporary
  completes := complete options
  finishes := finishOperator options

end Kept

/-! ## Sessions -/

variable {σ : Type}

/-- The mode is not set from outside. -/
def NeverSets (interactions : List (Interaction σ)) : Prop :=
  ∀ interaction ∈ interactions, ∀ state, interaction ≠ .call (.setMode state)

namespace Session

/-- More is told, and the modes are kept while it is told. -/
def Kept (session next : Session) : Prop :=
  ∃ told, next.told = session.told ++ told ∧
    session.resolver.modes.Keeps next.resolver.modes told

theorem kept_of_resolver {session next : Session} (taken : next.taken = session.taken)
    (kept : Resolver.Kept session.resolver next.resolver) : Kept session next := by
  obtain ⟨told, events, keeps⟩ := kept
  refine ⟨told, ?_, keeps⟩
  rw [Session.told, Session.told, taken, events, List.append_assoc]

theorem kept_after (session : Session) {interaction : Interaction σ}
    (other : ∀ state, interaction ≠ .call (.setMode state)) :
    Kept session (session.after interaction) := by
  cases interaction with
  | setKeys keys => exact kept_of_resolver (List.append_nil _) (.quiet rfl rfl)
  | call operation =>
      by_cases takes : operation = .takeEvent
      · subst takes
        obtain ⟨events, same⟩ := Operation.takeEvent_run (σ := σ) session.resolver
        refine ⟨[], by rw [told_takeEvent, List.append_nil], .of_same ?_ (remains_steps [])⟩
        show ((Operation.takeEvent : Operation σ).run session.resolver).modes = _
        rw [same]
      · have taken : (session.after (.call operation)).taken = session.taken := by
          simp only [after, Interaction.taken_other session.resolver takes, List.append_nil]
        refine kept_of_resolver taken ?_
        cases operation.split session.resolver with
        | moves options moves => exact (Kept.spans options).moves moves
        | setMode state => exact absurd rfl (other state)
        | setRecording recording => exact .quiet rfl rfl
        | setMappings mappings => exact .quiet rfl rfl
        | takeEvent => exact absurd rfl takes

theorem kept_run (session : Session) {interactions : List (Interaction σ)}
    (never : NeverSets interactions) : Kept session (session.run interactions) := by
  induction interactions generalizing session with
  | nil => exact ⟨[], (List.append_nil _).symm, .of_same rfl (remains_steps [])⟩
  | cons first rest ih =>
      obtain ⟨told, since, keeps⟩ := kept_after session (never first List.mem_cons_self)
      obtain ⟨more, since', keeps'⟩ := ih (session.after first)
        fun interaction member => never interaction (List.mem_cons_of_mem _ member)
      refine ⟨told ++ more, ?_, keeps.trans keeps'⟩
      rw [← List.append_assoc, ← since]
      exact since'

/-- The mode is never set, or it is set for the last time somewhere. -/
theorem exists_lastSet (interactions : List (Interaction σ)) :
    NeverSets interactions ∨ ∃ before state after,
      interactions = before ++ .call (.setMode state) :: after ∧ NeverSets after := by
  induction interactions with
  | nil => exact .inl (by simp [NeverSets])
  | cons first rest ih =>
      rcases ih with never | ⟨before, state, after, rfl, never⟩
      · by_cases sets : ∃ state, first = .call (.setMode state)
        · obtain ⟨state, rfl⟩ := sets
          exact .inr ⟨[], state, rest, rfl, never⟩
        · refine .inl fun interaction member state same => ?_
          rcases List.mem_cons.mp member with rfl | later
          · exact sets ⟨state, same⟩
          · exact never interaction later state same
      · exact .inr ⟨first :: before, state, after, rfl, never⟩

/-- A temporary mode is the last one that was set from outside, and no command that was
told since asks for a lasting mode. -/
def LeftIn (keys : CommandKeys) (interactions : List (Interaction σ)) (mode : ModeState) : Prop :=
  mode.mode.isTemporary = true ∧
    ∃ before after told, interactions = before ++ .call (.setMode mode) :: after ∧
      NeverSets after ∧ Remains told ∧
      ((start keys).run interactions).told =
        ((start keys).run (before ++ [.call (.setMode mode)])).told ++ told

/-- The modes after some interactions that do not set the mode, from the last time on that
it was set. -/
theorem kept_lastSet (keys : CommandKeys) (before : List (Interaction σ)) (state : ModeState)
    {after : List (Interaction σ)} (never : NeverSets after) :
    ∃ told, ((start keys).run (before ++ .call (.setMode state) :: after)).told =
        ((start keys).run (before ++ [.call (.setMode state)])).told ++ told ∧
      ModeStack.Keeps { state }
        ((start keys).run (before ++ .call (.setMode state) :: after)).resolver.modes told := by
  have split : (start keys).run (before ++ .call (.setMode state) :: after) =
      ((start keys).run (before ++ [.call (.setMode state)])).run after := by
    simp only [run, ← List.foldl_append, List.append_assoc, List.singleton_append]
  have set : ((start keys).run (before ++ [.call (.setMode state)])).resolver.modes =
      ({ state } : ModeStack) := by
    simp only [run, List.foldl_append, List.foldl_cons, List.foldl_nil]
    rfl
  have kept := kept_run ((start keys).run (before ++ [.call (.setMode state)])) never
  rw [Kept, set, ← split] at kept
  exact kept

/-- Only a mode that was set from outside has a temporary mode as the lowest one. -/
theorem base_iff (keys : CommandKeys) (interactions : List (Interaction σ)) (mode : ModeState) :
    (((start keys).run interactions).resolver.modes.base = mode ∧
        mode.mode.isTemporary = true) ↔ LeftIn keys interactions mode := by
  constructor
  · rintro ⟨rfl, temporary⟩
    have lasting (stacked : Stacked ((start keys).run interactions).resolver.modes.state
        ((start keys).run interactions).resolver.modes.saved) : False := by
      have lasts := stacked.lowest_lasts
      rw [← ModeStack.base, temporary] at lasts
      cases lasts
    rcases exists_lastSet interactions with never | ⟨before, state, after, rfl, never⟩
    · obtain ⟨told, _, keeps⟩ := kept_run (start keys) never
      exact (lasting (keeps.stacked (.lowest rfl))).elim
    · obtain ⟨told, since, keeps⟩ := kept_lastSet keys before state never
      cases kind : state.mode.isTemporary with
      | false => exact (lasting (keeps.stacked (.lowest kind))).elim
      | true =>
          by_cases remains : Remains told
          · have base : _ = state := (keeps.stays (.single kind) remains).2
            rw [base]
            exact ⟨kind, before, after, told, rfl, never, remains, since⟩
          · exact (lasting (keeps.leaves (.single kind) remains)).elim
  · rintro ⟨temporary, before, after, told, rfl, never, remains, since⟩
    obtain ⟨told', since', keeps⟩ := kept_lastSet keys before mode never
    obtain rfl : told = told' := List.append_cancel_left (since.symm.trans since')
    exact ⟨(keeps.stays (.single temporary) remains).2, temporary⟩

end Session

/-- To cancel returns to the lowest mode.  That is a temporary mode exactly if this mode is
the last one that was set from outside, and no command that was told since asks for a
lasting mode. -/
theorem cancelled_iff (keys : CommandKeys) (interactions : List (Interaction σ)) :
    let session := (Session.start keys).run interactions
    let cancelled := (session.after (.call (.cancel : Operation σ))).resolver
    cancelled.modes = { state := session.resolver.modes.base } ∧
      ∀ mode, (cancelled.modes.state = mode ∧ mode.mode.isTemporary = true) ↔
        Session.LeftIn keys interactions mode :=
  ⟨rfl, Session.base_iff keys interactions⟩

/-- Where every mode that is set lasts, the mode lasts after every cancellation. -/
theorem cancelled_lasts (keys : CommandKeys) (interactions : List (Interaction σ))
    (lasting : ∀ state, .call (.setMode state) ∈ interactions → state.mode.isTemporary = false) :
    (((Session.start keys).run interactions).after
      (.call (.cancel : Operation σ))).resolver.modes.mode.isTemporary = false := by
  rw [Bool.eq_false_iff]
  intro temporary
  obtain ⟨mode, left⟩ : ∃ mode, Session.LeftIn keys interactions mode :=
    ⟨_, (Session.base_iff keys interactions _).mp ⟨rfl, temporary⟩⟩
  obtain ⟨kind, before, after, told, rfl, _⟩ := left
  rw [lasting mode (by simp)] at kind
  cases kind

/-- A temporary mode that is set from outside is still there after a cancellation. -/
theorem setTemporary_remains :
    let cancelled (mode : Mode) : Mode :=
      ((Session.start .default).run [
        .call (.setMode (.ofMode mode) : Operation Unit), .call .cancel]).resolver.modes.mode
    cancelled .operatorPending = .operatorPending ∧ cancelled .commandLine = .commandLine := by
  decide

end Resolver

end ModalInput
