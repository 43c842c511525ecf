/-
# ModalInput.Proofs.ShownSelection -- the selection that the host is told of

The host is told when a selection starts, changes its shape and ends.  Whoever
follows these calls knows which selection there is (`HostCall.show?`), and the calls
make sense: a selection ends only where there is one, and none starts that is there
already.

A temporary mode keeps the selection of the mode below it, so the selection is that
of the lowest mode.  Not at every moment, since the host is told later than the mode
changes: the changes that wait lead from the selection that the host was told of to
that of the lowest mode (`Resolver.Told`).  Once nothing waits, the two are the same
(`selection_shown`).

* `Told.passages` -- whatever the resolver does keeps this.
* `Shown.take` -- so does every turn of an engine.
-/
import ModalInput.Proofs.AlikeHosts
import ModalInput.Proofs.Passages
import ModalInput.Proofs.Turns

namespace ModalInput

set_option autoImplicit false

/-! ## Following the calls -/

namespace HostCall

variable {κ : Type}

/-- The call is about the selection. -/
def isVisual : HostCall κ → Bool
  | .enterVisual _ _ | .exitVisual => true
  | _ => false

/-- The selection after a call, if the call makes sense where there is some selection:
one that starts is not there yet, and one that ends is there. -/
def show? (shown : Option ShownSelection) : HostCall κ → Option (Option ShownSelection)
  | .enterVisual shape select =>
      if shown = some ⟨shape, select⟩ then none else some (some ⟨shape, select⟩)
  | .exitVisual => if shown = none then none else some none
  | _ => some shown

/-- The selection after some calls, if each of them makes sense. -/
def showAll? : Option ShownSelection → List (HostCall κ) → Option (Option ShownSelection)
  | shown, [] => some shown
  | shown, call :: rest => (call.show? shown).bind fun next => showAll? next rest

theorem showAll?_append (shown : Option ShownSelection) (calls more : List (HostCall κ)) :
    showAll? shown (calls ++ more) =
      (showAll? shown calls).bind fun next => showAll? next more := by
  induction calls generalizing shown with
  | nil => rfl
  | cons call rest ih =>
      simp only [List.cons_append, showAll?, ih]
      cases call.show? shown <;> rfl

theorem isVisual_of_not_notice {call : HostCall κ} (plain : call.isNotice = false) :
    call.isVisual = false := by
  cases call with
  | enterVisual shape select => cases plain
  | exitVisual => cases plain
  | _ => rfl

theorem show?_of_not_visual {call : HostCall κ} (other : call.isVisual = false)
    (shown : Option ShownSelection) : call.show? shown = some shown := by
  cases call with
  | enterVisual shape select => cases other
  | exitVisual => cases other
  | _ => rfl

/-- Calls about other things leave the selection. -/
theorem showAll?_of_not_visual {calls : List (HostCall κ)}
    (others : ∀ call ∈ calls, call.isVisual = false) (shown : Option ShownSelection) :
    showAll? shown calls = some shown := by
  induction calls with
  | nil => rfl
  | cons call rest ih =>
      rw [showAll?, show?_of_not_visual (others call (.head _)), Option.bind_some]
      exact ih fun later member => others later (.tail _ member)

end HostCall

/-! ## Following the mode -/

namespace Engine

theorem selectionIn_of_temporary {state : ModeState} (temporary : state.mode.isTemporary = true)
    (shown : Option ShownSelection) : selectionIn shown state = shown := by
  cases mode : state.mode <;> simp_all [selectionIn, Mode.isTemporary]

/-- In a lasting mode it does not matter what was shown before. -/
theorem selectionIn_of_lasting {state : ModeState} (lasts : state.mode.isTemporary = false)
    (shown : Option ShownSelection) : selectionIn shown state = selectionIn none state := by
  cases mode : state.mode <;> simp_all [selectionIn, Mode.isTemporary]

end Engine

/-- The selection after an event. -/
def EngineEvent.shows (shown : Option ShownSelection) : EngineEvent → Option ShownSelection
  | .modeChanged step => Engine.selectionIn shown step.new
  | .command _ | .failed _ => shown

/-- The selection after some events. -/
def shownAfter (shown : Option ShownSelection) (events : List EngineEvent) :
    Option ShownSelection :=
  events.foldl EngineEvent.shows shown

theorem shownAfter_append (shown : Option ShownSelection) (events more : List EngineEvent) :
    shownAfter shown (events ++ more) = shownAfter (shownAfter shown events) more :=
  List.foldl_append

/-- A step to a mode, if it is another. -/
theorem shownAfter_step (old new : ModeState) (shown : Option ShownSelection) :
    shownAfter shown ((ModeStack.step? old new).toList.map .modeChanged) =
      if old = new then shown else Engine.selectionIn shown new := by
  unfold ModeStack.step?
  split <;> rfl

/-- A step to the mode on top of others does not change what the lowest of them
shows. -/
theorem shownAfter_top {new : ModeState} {saved : List ModeState} (stacked : Stacked new saved)
    (old : ModeState) :
    shownAfter (Engine.selectionIn none (saved.getLastD new))
        ((ModeStack.step? old new).toList.map .modeChanged) =
      Engine.selectionIn none (saved.getLastD new) := by
  rw [shownAfter_step]
  split
  · rfl
  · cases stacked with
    | lowest lasts => exact Engine.selectionIn_of_lasting lasts _
    | above temporary below => exact Engine.selectionIn_of_temporary temporary _

/-- The steps back to the lowest mode end with what it shows. -/
theorem shownAfter_stepsBack {state : ModeState} {saved : List ModeState}
    (stacked : Stacked state saved) :
    shownAfter (Engine.selectionIn none (saved.getLastD state))
        ((ModeStack.stepsBack state saved).map .modeChanged) =
      Engine.selectionIn none (saved.getLastD state) := by
  induction stacked with
  | lowest lasts => rfl
  | @above state next saved temporary below ih =>
      rw [ModeStack.stepsBack, List.map_append, shownAfter_append, List.getLastD_cons,
        shownAfter_top below, ih]

namespace Resolver

/-- From what is shown, the events that wait lead to what the lowest mode shows, and
it is the only one that lasts. -/
structure Told (shown : Option ShownSelection) (r : Resolver) : Prop where
  stacked : Stacked r.modes.state r.modes.saved
  leads : shownAfter shown r.events = Engine.selectionIn none r.modes.base

namespace Told

variable {shown : Option ShownSelection}

/-- More is told, and leads from what the lowest mode shows to what it shows then. -/
theorem more {r next : Resolver} (told : Told shown r)
    (stacked : Stacked next.modes.state next.modes.saved) {events : List EngineEvent}
    (added : next.events = r.events ++ events)
    (leads : shownAfter (Engine.selectionIn none r.modes.base) events =
      Engine.selectionIn none next.modes.base) : Told shown next :=
  ⟨stacked, by rw [added, shownAfter_append, told.leads, leads]⟩

/-- The mode is changed for good. -/
theorem changeMode {r : Resolver} (told : Told shown r) {state : ModeState}
    (lasts : state.mode.isTemporary = false) : Told shown (r.changeMode state) := by
  refine told.more (changeMode_lasting r lasts).stacked rfl ?_
  show shownAfter _ _ = Engine.selectionIn none state
  rw [ModeStack.set, shownAfter_step]
  split
  · -- the mode is there already, and no other can be below it
    rename_i same
    have alone : r.modes.saved = [] := told.stacked.alone (by rw [same]; exact lasts)
    rw [ModeStack.base, alone, same]
    rfl
  · exact Engine.selectionIn_of_lasting lasts _

theorem applyModeChange {r : Resolver} (told : Told shown r) (options : OptionView)
    (command : Command) : Told shown (r.applyModeChange options command) := by
  unfold Resolver.applyModeChange
  split
  · split
    · exact told.changeMode rfl
    · exact told
  · exact told.changeMode (ModeStack.target_lasts _ options _ told.stacked.lowest_lasts)

theorem passage {r next : Resolver} (told : Told shown r) (passage : Passage r next) :
    Told shown next := by
  have stacked : Stacked next.modes.state next.modes.saved :=
    Passages.stacked (.single passage) told.stacked
  cases passage with
  | quiet modes events => exact ⟨stacked, by rw [events, modes]; exact told.leads⟩
  | tells options command arguments =>
      have emitted : Told shown (r.emit (.command ⟨command, arguments⟩)) :=
        told.more told.stacked rfl rfl
      exact emitted.applyModeChange options command
  | fails error => exact told.more stacked rfl rfl
  | sets state lasts => exact told.changeMode (lasts told.stacked.lowest_lasts)
  | pushes mode temporary =>
      refine told.more stacked rfl ?_
      have top := shownAfter_top stacked r.modes.state
      have below : r.modes.base = (r.pushMode mode).modes.base :=
        (List.getLastD_cons ..).symm
      rw [below]
      exact top
  | pops =>
      refine told.more stacked rfl ?_
      show shownAfter _ (r.modes.pop.2.toList.map .modeChanged) =
        Engine.selectionIn none r.modes.pop.1.base
      have stacked : Stacked r.modes.pop.1.state r.modes.pop.1.saved := stacked
      unfold ModeStack.pop at stacked ⊢
      split
      · rfl
      · rename_i state saved below
        rw [below] at stacked
        rw [ModeStack.base, below, List.getLastD_cons]
        exact shownAfter_top stacked r.modes.state
  | returns =>
      refine told.more stacked rfl ?_
      exact shownAfter_stepsBack told.stacked

/-- Whatever the resolver does. -/
theorem passages {r next : Resolver} (told : Told shown r) (passages : Passages r next) :
    Told shown next := by
  induction passages with
  | refl => exact told
  | tail before passage ih => exact ih.passage passage

end Told

end Resolver

/-! ## Engines -/

namespace Engine

variable {σ κ : Type} {host : Host σ κ}

/-- The host was told of the selection that the engine holds, by calls that make
sense, and the events that wait lead to that of the lowest mode. -/
structure Shown (engine : Engine (σ × List (HostCall κ))) : Prop where
  log : HostCall.showAll? none engine.world.2 = some engine.selection
  told : Resolver.Told engine.selection engine.resolver

namespace Shown

/-- The host is told nothing about the selection. -/
theorem after {engine next : Engine (σ × List (HostCall κ))} (shown : Shown engine)
    (selection : next.selection = engine.selection)
    (passages : Resolver.Passages engine.resolver next.resolver)
    (log : ∃ calls : List (HostCall κ), next.world.2 = engine.world.2 ++ calls ∧
      ∀ call ∈ calls, call.isVisual = false) : Shown next := by
  obtain ⟨calls, added, others⟩ := log
  refine ⟨?_, by rw [selection]; exact shown.told.passages passages⟩
  rw [added, HostCall.showAll?_append, shown.log, Option.bind_some, selection]
  exact HostCall.showAll?_of_not_visual others _

/-- The host is told nothing at all. -/
theorem silent {engine next : Engine (σ × List (HostCall κ))} (shown : Shown engine)
    (selection : next.selection = engine.selection)
    (passages : Resolver.Passages engine.resolver next.resolver)
    (log : next.world.2 = engine.world.2) : Shown next :=
  shown.after selection passages ⟨[], by simp [log], by simp⟩

theorem acts {asked : Prop} {engine next : Engine (σ × List (HostCall κ))}
    (shown : Shown engine) (acts : Acts host.logged asked engine next) : Shown next := by
  obtain ⟨calls, added, plain⟩ := acts.log
  have frame := acts.frame
  refine shown.after frame.selection ?_
    ⟨calls, added, fun call member => HostCall.isVisual_of_not_notice (plain call member)⟩
  rw [frame.resolver]
  exact .quiet rfl rfl

/-- The resolver does something, and expressions are evaluated. -/
theorem resolving {engine : Engine (σ × List (HostCall κ))} (shown : Shown engine)
    {change : Resolver → σ × List (HostCall κ) → Resolver × σ × List (HostCall κ)}
    (passages : Resolver.Passages engine.resolver (change engine.resolver engine.world).1)
    (unlogged : Answers (fun a b => a = b ∧ a.2 = engine.world.2) (change engine.resolver)
      (change engine.resolver)) : Shown (engine.resolving change) :=
  shown.silent rfl passages (unlogged _ _ ⟨rfl, rfl⟩).2.2

end Shown

namespace Shown

theorem resolveKey {engine : Engine (σ × List (HostCall κ))} (shown : Shown engine) (key : Key) :
    Shown (engine.resolveKey host.logged key) :=
  shown.resolving (.moves (Resolver.inputKey_moves _ _ _ _ _))
    (Resolver.inputKey_alike _ (Host.evaluate_unlogged _) _ _)

theorem showSelection {engine : Engine (σ × List (HostCall κ))}
    (log : HostCall.showAll? none engine.world.2 = some engine.selection)
    (selection : Option ShownSelection) :
    HostCall.showAll? none (engine.showSelection host.logged selection).world.2 =
      some selection := by
  unfold Engine.showSelection
  split
  · rename_i same
    rw [log, same]
  · rename_i differ
    have added (call : HostCall κ) (makes : call.show? engine.selection = some selection) :
        HostCall.showAll? none (engine.world.2 ++ [call]) = some selection := by
      rw [HostCall.showAll?_append, log, Option.bind_some, HostCall.showAll?, makes]
      rfl
    cases selection with
    | some shown => exact added (.enterVisual shown.shape shown.select) (if_neg differ)
    | none => exact added .exitVisual (if_neg differ)

theorem closeUndo {engine : Engine (σ × List (HostCall κ))} (shown : Shown engine)
    (step : ModeStep) : Shown (engine.closeUndo host.logged step) := by
  unfold Engine.closeUndo
  split
  · exact shown.after rfl .refl ⟨[.finishUndo], rfl, by simp [HostCall.isVisual]⟩
  · exact shown

/-- A change of the mode that waited. -/
theorem modeChanged {engine : Engine (σ × List (HostCall κ))} {step : ModeStep}
    (log : HostCall.showAll? none engine.world.2 = some engine.selection)
    (told : Resolver.Told (selectionIn engine.selection step.new) engine.resolver) :
    Shown (engine.modeChanged host.logged step) := by
  have shown : Shown
      (engine.showSelection host.logged (selectionIn engine.selection step.new)) := by
    refine ⟨?_, ?_⟩
    · rw [showSelection log, showSelection_selection]
    · rw [showSelection_selection, showSelection_resolver]
      exact told
  exact (shown.closeUndo step).after rfl .refl
    ⟨[.modeChanged step], rfl, by simp [HostCall.isVisual]⟩

theorem execute {engine : Engine (σ × List (HostCall κ))} (shown : Shown engine)
    (resolved : ResolvedCommand) : Shown (engine.execute host.logged resolved).2 := by
  have ran := execute_cases host.logged engine resolved
  generalize engine.execute host.logged resolved = outcome at ran
  cases ran with
  | acts acts off => exact shown.acts acts
  | stops register append toggles running =>
      exact shown.after rfl (.quiet rfl rfl)
        ⟨[.setRegister register (Key.textAll engine.recorder.committed) append], rfl,
          by simp [HostCall.isVisual]⟩
  | starts register append toggles off => exact shown.silent rfl (.quiet rfl rfl) rfl
  | reruns register times replays other => exact shown.silent rfl .refl rfl
  | overruns register replays other acts =>
      have interrupted : Shown { engine with
          lastRun := some register, recorder := engine.recorder.interrupt } :=
        shown.silent rfl .refl rfl
      exact interrupted.acts acts

/-- The first event that waits is acted on. -/
theorem dispatch {engine : Engine (σ × List (HostCall κ))} (shown : Shown engine)
    {event : EngineEvent} {rest : List EngineEvent}
    (waits : engine.resolver.events = event :: rest) :
    Shown ((engine.withEvents rest).dispatch host.logged event) := by
  have leads := shown.told.leads
  rw [waits] at leads
  have told : Resolver.Told (event.shows engine.selection) (engine.withEvents rest).resolver :=
    ⟨shown.told.stacked, leads⟩
  cases event with
  | modeChanged step => exact modeChanged shown.log told
  | failed error =>
      have taken : Shown (engine.withEvents rest) := ⟨shown.log, told⟩
      have stopped : Shown (engine.withEvents rest).stopKeys := taken.silent rfl .refl rfl
      have reports : Acts host.logged False (engine.withEvents rest).stopKeys _ :=
        report_acts host.logged _ error
      exact stopped.acts reports
  | command resolved =>
      have taken : Shown (engine.withEvents rest) := ⟨shown.log, told⟩
      have ran : Shown ((engine.withEvents rest).execute host.logged resolved).2 :=
        taken.execute resolved
      unfold Engine.dispatch
      dsimp only
      split <;> exact ran.silent rfl .refl rfl

theorem stride {engine next : Engine (σ × List (HostCall κ))} (shown : Shown engine)
    (stride : Stride host.logged engine next) : Shown next := by
  cases stride with
  | dispatches event rest waits => exact shown.dispatch waits
  | replays key rest quiet queue =>
      have asked : Shown ((engine.polled host.logged).withQueue rest) :=
        shown.silent rfl .refl rfl
      exact asked.resolveKey key
  | interrupts quiet stops => exact shown.silent rfl (.cancel engine.resolver) rfl

/-- Every turn, unless it sets a temporary mode. -/
theorem take {engine : Engine (σ × List (HostCall κ))} (shown : Shown engine) {turn : Turn}
    (lasting : ∀ state, turn = .setMode state → state.mode.isTemporary = false) :
    Shown (turn.take host.logged engine) := by
  cases turn with
  | key key =>
      have typed : Shown { engine with recorder := engine.recorder.typed key } :=
        shown.silent rfl .refl rfl
      exact typed.resolveKey key
  | timeout =>
      exact shown.resolving (.moves (Resolver.timeoutExpired_moves _ _ _ _))
        (Resolver.timeoutExpired_alike _ (Host.evaluate_unlogged _) _)
  | offsets values =>
      show Shown (engine.resolving fun resolver world =>
        (resolver.supplyOffsets engine.view host.logged.evaluate world values).getD
          (resolver, world))
      exact shown.resolving (.moves (Resolver.supplyOffsets_moves _ _ _ _ _))
        (Resolver.supplyOffsets_alike _ (Host.evaluate_unlogged _) _ _)
  | cancel => exact shown.silent rfl (.cancel engine.resolver) rfl
  | setMode state =>
      exact shown.silent rfl (.setMode engine.resolver (lasting state rfl)) rfl
  | line line =>
      have runs : Acts host.logged False engine _ := executeLine_acts host.logged engine line
      exact shown.acts runs
  | source text =>
      have runs : Acts host.logged False engine _ := source_acts host.logged engine text
      exact shown.acts runs
  | setKeys keys => exact shown.silent rfl (.quiet rfl rfl) rfl
  | setMappings mappings => exact shown.silent rfl (.quiet rfl rfl) rfl
  | setOptions options => exact shown.silent rfl .refl rfl
  | setEditor editor => exact shown.silent rfl .refl rfl
  | step =>
      show Shown ((engine.advance? host.logged).getD engine)
      cases advanced : engine.advance? host.logged with
      | none => exact shown
      | some next => exact shown.stride (advance?_stride host.logged advanced)

end Shown

/-- Whatever happens to an engine, the calls about the selection make sense, and
whenever nothing is left to do, the selection that they lead to is that of the lowest
mode; unless a temporary mode is set from outside. -/
theorem selection_shown (host : Host σ κ) (world : σ) (turns : List Turn)
    (lasting : ∀ state, .setMode state ∈ turns → state.mode.isTemporary = false) :
    let start : Engine (σ × List (HostCall κ)) := { world := (world, []) }
    let engine := start.run host.logged turns
    ∃ shown, HostCall.showAll? none engine.world.2 = some shown ∧
      (engine.advance? host.logged = none →
        shown = selectionIn none engine.resolver.modes.base) := by
  intro start engine
  have shown : Shown engine := by
    refine run_kept host.logged (P := Shown) ?_ ⟨rfl, .lowest rfl, rfl⟩
    intro turn member engine shown
    exact shown.take fun state same => lasting state (same ▸ member)
  refine ⟨engine.selection, shown.log, ?_⟩
  intro settled
  have quiet := ((advance?_eq_none_iff host.logged engine).mp settled).1
  have leads := shown.told.leads
  rw [quiet] at leads
  exact leads

/-- Lines are selected, and the selection is left. -/
def selectingLines : List Turn :=
  [.setMode (.of .visual .visualLine), .step, .setMode (.ofMode .normal), .step]

theorem selectingLines_shown :
    (∀ state, .setMode state ∈ selectingLines → state.mode.isTemporary = false) ∧
      ∃ shown, HostCall.showAll? none (run plainHost.logged selectingLines
          { world := ((), []) }).world.2 = some shown ∧
        ((run plainHost.logged selectingLines { world := ((), []) }).advance? plainHost.logged =
            none →
          shown = selectionIn none
            (run plainHost.logged selectingLines { world := ((), []) }).resolver.modes.base) := by
  have lasting : ∀ state, .setMode state ∈ selectingLines → state.mode.isTemporary = false := by
    intro state member
    simp only [selectingLines, List.mem_cons, Turn.setMode.injEq, reduceCtorEq,
      List.not_mem_nil, or_false, false_or] at member
    rcases member with rfl | rfl <;> rfl
  exact ⟨lasting, selection_shown plainHost () selectingLines lasting⟩

/-- What the host is told of it, step by step. -/
example : (run plainHost.logged selectingLines { world := ((), []) }).world.2 =
    [.enterVisual .visualLine false,
      .modeChanged ⟨.ofMode .normal, .of .visual .visualLine⟩, .exitVisual,
      .modeChanged ⟨.of .visual .visualLine, .ofMode .normal⟩] := rfl

end Engine

end ModalInput
