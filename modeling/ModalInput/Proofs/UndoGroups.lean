/-
# ModalInput.Proofs.UndoGroups -- changes that are undone together

The host is told where changes that are undone together begin, when a command runs
that asks for it, and where they end, when a mode is left in which text is typed.
The command and the change of the mode are told apart, and are acted on one after
the other, with whatever was told in between; a command can even be refused.

So what is followed is whether a group can be open once all that waits was acted on
(`openAfter`).  It can be only in a mode in which text is typed, provided that every
action that groups changes asks for such a mode: then the command brings the mode
that closes the group when it is left (`Guarded`).  Whatever leaves such a mode tells
the change, and the change closes the group.

* `Guarded.passages` -- whatever the resolver does, nothing stays open elsewhere.
* `Grouped.take` -- nor does it after any turn of an engine.
* `groups_alternate` -- groups begin and end in turn, and once the engine has settled,
  one is open only where text is typed.
-/
import ModalInput.Proofs.AlikeHosts
import ModalInput.Proofs.Passages
import ModalInput.Proofs.ToldActions
import ModalInput.Proofs.Turns

namespace ModalInput

set_option autoImplicit false

/-! ## Following the calls -/

namespace HostCall

variable {κ : Type}

/-- Whether a group is open after a call, if the call makes sense: a group begins
where none is open, and ends where one is. -/
def group? (isOpen : Bool) : HostCall κ → Option Bool
  | .startUndo => if isOpen then none else some true
  | .finishUndo => if isOpen then some false else none
  | _ => some isOpen

/-- Whether a group is open after some calls, if each of them makes sense. -/
def groupAll? (isOpen : Bool) (calls : List (HostCall κ)) : Option Bool := calls.foldlM group? isOpen

theorem groupAll?_append (isOpen : Bool) (calls more : List (HostCall κ)) :
    groupAll? isOpen (calls ++ more) =
      (groupAll? isOpen calls).bind fun next => groupAll? next more :=
  List.foldlM_append

@[simp] theorem groupAll?_singleton (isOpen : Bool) (call : HostCall κ) :
    groupAll? isOpen [call] = call.group? isOpen := by
  show (call.group? isOpen).bind some = _
  rw [Option.bind_fun_some]

theorem group?_of_not_grouping {call : HostCall κ} (other : call.isGrouping = false)
    (isOpen : Bool) : call.group? isOpen = some isOpen := by
  cases call with
  | startUndo => cases other
  | finishUndo => cases other
  | _ => rfl

end HostCall

namespace Engine

variable {σ κ : Type} {host : Host σ κ} {asked : Prop}

/-- Acts open a group where none is open, and close none. -/
theorem Acts.groups {engine next : Engine (σ × List (HostCall κ))}
    (acts : Acts host.logged asked engine next) :
    ∃ calls : List (HostCall κ), next.world.2 = engine.world.2 ++ calls ∧
      HostCall.groupAll? engine.undoOpen calls = some next.undoOpen := by
  induction acts with
  | refl => exact ⟨[], by simp, rfl⟩
  | @tail before next acts act ih =>
      obtain ⟨calls, log, follows⟩ := ih
      have noted (call : HostCall κ) (makes : call.group? before.undoOpen = some next.undoOpen)
          (added : next.world.2 = before.world.2 ++ [call]) :
          ∃ calls : List (HostCall κ), next.world.2 = engine.world.2 ++ calls ∧
            HostCall.groupAll? engine.undoOpen calls = some next.undoOpen := by
        refine ⟨calls ++ [call], added.trans (by rw [log, List.append_assoc]), ?_⟩
        rw [HostCall.groupAll?_append, follows, Option.bind_some, HostCall.groupAll?_singleton,
          makes]
      cases act with
      | calls serves =>
          obtain ⟨call, _, other, added⟩ := serves.log before.world
          exact noted call (HostCall.group?_of_not_grouping other _) added
      | configures line => exact ⟨calls, log, follows⟩
      | groups asks closed => exact noted .startUndo (by simp [HostCall.group?, closed, tell]) rfl
      | remembers register => exact ⟨calls, log, follows⟩

/-- Acts open a group only where this is asked for. -/
theorem Acts.undoOpen {engine next : Engine σ} (acts : Acts host asked engine next)
    (opens : next.undoOpen = true) : engine.undoOpen = true ∨ asked := by
  induction acts with
  | refl => exact .inl opens
  | tail before act ih =>
      cases act with
      | calls serves => exact ih opens
      | configures line => exact ih opens
      | groups asks closed => exact .inr asks
      | remembers register => exact ih opens

/-- Acts add no action to the mappings. -/
theorem Acts.only {P : Action → Prop} {engine next : Engine σ}
    (acts : Acts host asked engine next) (only : engine.resolver.Only P) :
    next.resolver.Only P := by
  induction acts with
  | refl => exact only
  | tail before act ih =>
      cases act with
      | calls serves => exact ih
      | configures line =>
          exact ⟨ih.table, ExCommands.run_only _ line ih.mappings, ih.reached, ih.pending⟩
      | groups asks closed => exact ih
      | remembers register => exact ih

end Engine

/-! ## What waits -/

/-- If the action groups the changes that follow, it asks for a mode in which text is
typed. -/
def Action.GroupsTyping (action : Action) : Prop :=
  action.flags.multikeyUndo = true → action.modeChange = .insert ∨ action.modeChange = .replace

instance : DecidablePred Action.GroupsTyping :=
  fun action => inferInstanceAs (Decidable (action.flags.multikeyUndo = true → _))

/-- The default table has no other action. -/
theorem default_groupsTyping : CommandKeys.default.Only Action.GroupsTyping :=
  CommandKeys.only_default (by decide +kernel)

/-- Nor have the keys that no table holds. -/
theorem unbound_groupsTyping : Resolver.Unbound Action.GroupsTyping where
  repeated := by decide
  typed := by
    intro mode action typing
    cases mode <;> cases typing <;> decide

/-- Whether a group can be open after an event; a command may be refused. -/
def EngineEvent.leavesOpen (isOpen : Bool) : EngineEvent → Bool
  | .command resolved => isOpen || resolved.command.flags.multikeyUndo
  | .modeChanged step => isOpen && !(step.old.mode.isInserting && !step.new.mode.isInserting)
  | .failed _ => isOpen

/-- Whether a group can be open after some events. -/
def openAfter (isOpen : Bool) (events : List EngineEvent) : Bool :=
  events.foldl EngineEvent.leavesOpen isOpen

theorem openAfter_append (isOpen : Bool) (events more : List EngineEvent) :
    openAfter isOpen (events ++ more) = openAfter (openAfter isOpen events) more :=
  List.foldl_append

/-- What can be open where less was open before, can be open. -/
theorem openAfter_mono {few many : Bool} (fewer : few = true → many = true)
    {events : List EngineEvent} (opens : openAfter few events = true) :
    openAfter many events = true := by
  induction events generalizing few many with
  | nil => exact fewer opens
  | cons event rest ih =>
      have opens : openAfter (event.leavesOpen few) rest = true := opens
      apply ih ?_ opens
      intro opened
      cases event with
      | command resolved =>
          simp only [EngineEvent.leavesOpen, Bool.or_eq_true] at opened ⊢
          exact opened.imp_left fewer
      | modeChanged step =>
          simp only [EngineEvent.leavesOpen, Bool.and_eq_true] at opened ⊢
          exact ⟨fewer opened.1, opened.2⟩
      | failed error => exact fewer opened

/-- What is open where text is typed, a step away from there closes. -/
theorem openAfter_step {isOpen : Bool} {old new : ModeState}
    (typing : isOpen = true → old.mode.isInserting = true)
    (opens : openAfter isOpen ((ModeStack.step? old new).toList.map .modeChanged) = true) :
    new.mode.isInserting = true := by
  unfold ModeStack.step? at opens
  split at opens
  · rename_i same
    rw [← same]
    exact typing opens
  · have opens : (isOpen && !(old.mode.isInserting && !new.mode.isInserting)) = true := opens
    rw [Bool.and_eq_true] at opens
    have typed := typing opens.1
    rw [typed] at opens
    simpa using opens.2

/-- The same of the steps back to the lowest mode. -/
theorem openAfter_stepsBack {isOpen : Bool} {state : ModeState} {saved : List ModeState}
    (typing : isOpen = true → state.mode.isInserting = true)
    (opens : openAfter isOpen ((ModeStack.stepsBack state saved).map .modeChanged) = true) :
    (saved.getLastD state).mode.isInserting = true := by
  induction saved generalizing isOpen state with
  | nil => exact typing opens
  | cons next below ih =>
      rw [ModeStack.stepsBack, List.map_append, openAfter_append] at opens
      rw [List.getLastD_cons]
      exact ih (openAfter_step typing) opens

namespace Resolver

/-- Once all that waits was acted on, a group can be open only where text is typed. -/
def Guarded (isOpen : Bool) (r : Resolver) : Prop :=
  openAfter isOpen r.events = true → r.modes.mode.isInserting = true

namespace Guarded

variable {isOpen : Bool} {r next : Resolver}

theorem changeMode (guarded : Guarded isOpen r) (state : ModeState) :
    Guarded isOpen (r.changeMode state) := by
  intro opens
  have opens : openAfter isOpen (r.events ++
      (ModeStack.step? r.modes.state state).toList.map .modeChanged) = true := opens
  rw [openAfter_append] at opens
  exact openAfter_step guarded opens

/-- A command that groups changes brings a mode in which text is typed; any other
leaves groups as they are. -/
theorem tells (guarded : Guarded isOpen r) (options : OptionView) {command : Command}
    (stems : command.Stems Action.GroupsTyping) (arguments : OperatorArguments) :
    Guarded isOpen ((r.emit (.command ⟨command, arguments⟩)).applyModeChange options command) := by
  by_cases groups : command.flags.multikeyUndo = true
  · intro opens
    have asks := stems.action (by rw [← stems.flags]; exact groups)
    unfold applyModeChange
    rcases asks with insert | replace
    · rw [insert]
      rfl
    · rw [replace]
      rfl
  · have told : Guarded isOpen (r.emit (.command ⟨command, arguments⟩)) := by
      intro opens
      apply guarded
      have opens : openAfter isOpen (r.events ++ [.command ⟨command, arguments⟩]) = true := opens
      rw [openAfter_append] at opens
      simpa [openAfter, EngineEvent.leavesOpen, groups] using opens
    unfold applyModeChange
    split
    · split
      · exact told.changeMode _
      · exact told
    · exact told.changeMode _

theorem passage (guarded : Guarded isOpen r) (passage : Passage r next)
    (stems : ∀ event ∈ next.events, event.Stems Action.GroupsTyping) : Guarded isOpen next := by
  cases passage with
  | quiet modes events =>
      intro opens
      rw [events] at opens
      rw [modes]
      exact guarded opens
  | tells options command arguments =>
      refine guarded.tells options ?_ arguments
      apply stems (.command ⟨command, arguments⟩)
      obtain ⟨more, added, _⟩ := Emits.applyModeChange (P := fun _ => True) (fun _ => trivial)
        options (r.emit (.command ⟨command, arguments⟩)) command
      rw [added]
      simp [emit]
  | fails error =>
      intro opens
      have opens : openAfter isOpen (r.events ++ [.failed error]) = true := opens
      rw [openAfter_append] at opens
      exact guarded opens
  | sets state lasts => exact guarded.changeMode state
  | pushes mode temporary =>
      intro opens
      have opens : openAfter isOpen (r.events ++
          (ModeStack.step? r.modes.state (.ofMode mode)).toList.map .modeChanged) = true := opens
      rw [openAfter_append] at opens
      exact openAfter_step guarded opens
  | pops =>
      intro opens
      have opens : openAfter isOpen (r.events ++ r.modes.pop.2.toList.map .modeChanged) = true :=
        opens
      show r.modes.pop.1.mode.isInserting = true
      rw [openAfter_append] at opens
      unfold ModeStack.pop at opens ⊢
      split at opens
      · exact guarded opens
      · exact openAfter_step guarded opens
  | returns =>
      intro opens
      have opens : openAfter isOpen (r.events ++
          (ModeStack.stepsBack r.modes.state r.modes.saved).map .modeChanged) = true := opens
      rw [openAfter_append] at opens
      exact openAfter_stepsBack guarded opens

end Guarded

/-- Whatever the resolver does, if only actions of the kind are told. -/
theorem Guarded.passages {isOpen : Bool} {r next : Resolver} (guarded : Guarded isOpen r)
    (passages : Passages r next)
    (stems : ∀ event ∈ next.events, event.Stems Action.GroupsTyping) : Guarded isOpen next := by
  induction passages with
  | refl => exact guarded
  | @tail before next earlier passage ih =>
      refine (ih ?_).passage passage stems
      intro event member
      obtain ⟨more, added, _⟩ := passage.told
      apply stems
      rw [added]
      exact List.mem_append_left more member

/-- All that a command can come from, and all that waits, is of the kind that groups
typed text only, and nothing that waits leaves a group open elsewhere. -/
structure Grouping (isOpen : Bool) (r : Resolver) : Prop where
  only : Only Action.GroupsTyping r
  stems : ∀ event ∈ r.events, event.Stems Action.GroupsTyping
  guarded : Guarded isOpen r

namespace Grouping

variable {isOpen : Bool} {r next : Resolver}

theorem after (grouping : Grouping isOpen r) (only : Only Action.GroupsTyping next)
    (told : Emits (EngineEvent.Stems Action.GroupsTyping) r next)
    (guarded : (∀ event ∈ next.events, event.Stems Action.GroupsTyping) →
      Guarded isOpen next) : Grouping isOpen next := by
  have stems : ∀ event ∈ next.events, event.Stems Action.GroupsTyping := by
    intro event member
    obtain ⟨more, added, all⟩ := told
    rw [added] at member
    rcases List.mem_append.mp member with early | late
    · exact grouping.stems event early
    · exact all event late
  exact ⟨only, stems, guarded stems⟩

/-- A call that looks at keys. -/
theorem moves (grouping : Grouping isOpen r) {options : OptionView}
    (moves : Moves options r next) : Grouping isOpen next := by
  obtain ⟨only, told⟩ := grouping.only.moves unbound_groupsTyping moves
  exact grouping.after only told fun stems => grouping.guarded.passages (.moves moves) stems

theorem cancel (grouping : Grouping isOpen r) : Grouping isOpen r.cancel := by
  have cancels : Moves ⟨{}, .everywhere⟩ r r.cancel := .single .cancels
  exact grouping.moves cancels

/-- Any mode can be set, a temporary one, too. -/
theorem setMode (grouping : Grouping isOpen r) (state : ModeState) :
    Grouping isOpen (r.setMode state) := by
  obtain ⟨only, told⟩ := grouping.only.setMode state
  refine grouping.after only told ?_
  intro stems
  have aborted : Guarded isOpen r.abort := by
    refine grouping.guarded.passages (.abort r) ?_
    intro event member
    apply stems
    exact List.mem_append_left _ member
  have dropped : Guarded isOpen { r.abort with trail := [], trailMatch := none } := aborted
  exact dropped.changeMode state

theorem setRecording (grouping : Grouping isOpen r) (recording : Bool) :
    Grouping isOpen (r.setRecording recording) :=
  ⟨⟨grouping.only.table, grouping.only.mappings, grouping.only.reached, grouping.only.pending⟩,
    grouping.stems, grouping.guarded⟩

/-- Less is open than was assumed. -/
theorem mono {few : Bool} (grouping : Grouping isOpen r) (fewer : few = true → isOpen = true) :
    Grouping few r :=
  ⟨grouping.only, grouping.stems, fun opens => grouping.guarded (openAfter_mono fewer opens)⟩

/-- The first event that waits is taken. -/
theorem take (grouping : Grouping isOpen r) {event : EngineEvent} {rest : List EngineEvent}
    (waits : r.events = event :: rest) :
    Grouping (event.leavesOpen isOpen) { r with events := rest } := by
  have only := grouping.only
  refine ⟨⟨only.table, only.mappings, only.reached, only.pending⟩, ?_, ?_⟩
  · intro later member
    apply grouping.stems
    rw [waits]
    exact .tail _ member
  · intro opens
    apply grouping.guarded
    rw [waits]
    exact opens

end Grouping

end Resolver

/-! ## Engines -/

namespace Engine

variable {σ κ : Type} {host : Host σ κ}

/-- The host was told of groups by calls that make sense, and the engine knows whether
one is open. -/
structure Grouped (engine : Engine (σ × List (HostCall κ))) : Prop where
  log : HostCall.groupAll? false engine.world.2 = some engine.undoOpen
  grouping : engine.resolver.Grouping engine.undoOpen

variable {engine next : Engine (σ × List (HostCall κ))}

/-- Calls that make sense are added. -/
theorem groupAll?_after (log : HostCall.groupAll? false engine.world.2 = some engine.undoOpen)
    (follows : ∃ calls : List (HostCall κ), next.world.2 = engine.world.2 ++ calls ∧
      HostCall.groupAll? engine.undoOpen calls = some next.undoOpen) :
    HostCall.groupAll? false next.world.2 = some next.undoOpen := by
  obtain ⟨calls, added, follows⟩ := follows
  rw [added, HostCall.groupAll?_append, log, Option.bind_some, follows]

/-- A call about other things is added. -/
theorem groupAll?_other (log : HostCall.groupAll? false engine.world.2 = some engine.undoOpen)
    (call : HostCall κ) (other : call.isGrouping = false)
    (added : next.world.2 = engine.world.2 ++ [call])
    (undoOpen : next.undoOpen = engine.undoOpen) :
    HostCall.groupAll? false next.world.2 = some next.undoOpen := by
  refine groupAll?_after log ⟨[call], added, ?_⟩
  rw [HostCall.groupAll?_singleton, HostCall.group?_of_not_grouping other, undoOpen]

namespace Grouped

/-- The host is told nothing. -/
theorem silent (grouped : Grouped engine) (undoOpen : next.undoOpen = engine.undoOpen)
    (log : next.world.2 = engine.world.2)
    (grouping : next.resolver.Grouping engine.undoOpen) : Grouped next :=
  ⟨by rw [log, undoOpen]; exact grouped.log, by rw [undoOpen]; exact grouping⟩

/-- The resolver does something, and expressions are evaluated. -/
theorem resolving (grouped : Grouped engine) {options : OptionView}
    {change : Resolver → σ × List (HostCall κ) → Resolver × σ × List (HostCall κ)}
    (moves : Resolver.Moves options engine.resolver (change engine.resolver engine.world).1)
    (unlogged : Answers (fun a b => a = b ∧ a.2 = engine.world.2) (change engine.resolver)
      (change engine.resolver)) : Grouped (engine.resolving change) :=
  grouped.silent rfl (unlogged _ _ ⟨rfl, rfl⟩).2.2 (grouped.grouping.moves moves)

theorem resolveKey (grouped : Grouped engine) (key : Key) :
    Grouped (engine.resolveKey host.logged key) :=
  grouped.resolving (Resolver.inputKey_moves _ _ _ _ _)
    (Resolver.inputKey_alike _ (Host.evaluate_unlogged _) _ _)

/-- Acts, where whatever they can open was reckoned with. -/
theorem of_acts {asked : Prop} {isOpen : Bool}
    (log : HostCall.groupAll? false engine.world.2 = some engine.undoOpen)
    (grouping : engine.resolver.Grouping isOpen) (acts : Acts host.logged asked engine next)
    (reckoned : engine.undoOpen = true ∨ asked → isOpen = true) : Grouped next := by
  refine ⟨groupAll?_after log acts.groups, ?_⟩
  have only := acts.only grouping.only
  have kept : next.resolver.Grouping isOpen := by
    rw [acts.frame.resolver] at only ⊢
    exact ⟨only, grouping.stems, grouping.guarded⟩
  exact kept.mono fun opens => reckoned (acts.undoOpen opens)

/-- Acts that group nothing. -/
theorem acts (grouped : Grouped engine) (acts : Acts host.logged False engine next) :
    Grouped next :=
  of_acts grouped.log grouped.grouping acts fun opens => opens.resolve_right id

/-- A command runs, and it was reckoned with what it can open. -/
theorem execute {resolved : ResolvedCommand}
    (log : HostCall.groupAll? false engine.world.2 = some engine.undoOpen)
    (grouping : engine.resolver.Grouping
      (engine.undoOpen || resolved.command.flags.multikeyUndo)) :
    Grouped (engine.execute host.logged resolved).2 := by
  have reckoned : engine.undoOpen = true ∨ resolved.command.flags.multikeyUndo = true →
      (engine.undoOpen || resolved.command.flags.multikeyUndo) = true := Bool.or_eq_true_iff.mpr
  have before : engine.resolver.Grouping engine.undoOpen :=
    grouping.mono fun opens => reckoned (.inl opens)
  have ran := execute_cases host.logged engine resolved
  generalize engine.execute host.logged resolved = outcome at ran
  cases ran with
  | acts acts off => exact of_acts log grouping acts reckoned
  | stops register append toggles running =>
      exact ⟨groupAll?_other log (.setRegister register (Key.textAll engine.recorder.committed)
        append) rfl rfl rfl, before.setRecording false⟩
  | starts register append toggles off => exact ⟨log, before.setRecording true⟩
  | reruns register times replays other => exact ⟨log, before⟩
  | overruns register replays other acts =>
      let interrupted : Engine (σ × List (HostCall κ)) :=
        { engine with lastRun := some register, recorder := engine.recorder.interrupt }
      have log : HostCall.groupAll? false interrupted.world.2 = some interrupted.undoOpen := log
      exact of_acts log grouping acts reckoned

/-- The host is told of a selection. -/
theorem showSelection_log (log : HostCall.groupAll? false engine.world.2 = some engine.undoOpen)
    (selection : Option ShownSelection) :
    HostCall.groupAll? false (engine.showSelection host.logged selection).world.2 =
      some (engine.showSelection host.logged selection).undoOpen := by
  unfold Engine.showSelection
  split
  · exact log
  · cases selection with
    | some shown => exact groupAll?_other log (.enterVisual shown.shape shown.select) rfl rfl rfl
    | none => exact groupAll?_other log .exitVisual rfl rfl rfl

/-- A step of the mode away from where text is typed closes the group. -/
theorem closeUndo {step : ModeStep}
    (log : HostCall.groupAll? false engine.world.2 = some engine.undoOpen)
    (grouping : engine.resolver.Grouping
      ((EngineEvent.modeChanged step).leavesOpen engine.undoOpen)) :
    Grouped (engine.closeUndo host.logged step) := by
  unfold Engine.closeUndo
  split
  · rename_i ends
    rw [Bool.and_eq_true, Bool.and_eq_true] at ends
    refine ⟨groupAll?_after log ⟨[.finishUndo], rfl, ?_⟩, grouping.mono fun opens => by cases opens⟩
    rw [HostCall.groupAll?_singleton, HostCall.group?, if_pos ends.1.1]
    rfl
  · rename_i stays
    refine ⟨log, grouping.mono ?_⟩
    intro opened
    rw [opened, Bool.true_and, Bool.not_eq_true] at stays
    show (engine.undoOpen && !(step.old.mode.isInserting && !step.new.mode.isInserting)) = true
    rw [opened, stays]
    rfl

/-- A change of the mode that waited. -/
theorem modeChanged {step : ModeStep}
    (log : HostCall.groupAll? false engine.world.2 = some engine.undoOpen)
    (grouping : engine.resolver.Grouping
      ((EngineEvent.modeChanged step).leavesOpen engine.undoOpen)) :
    Grouped (engine.modeChanged host.logged step) := by
  have closed : Grouped ((engine.showSelection host.logged
      (selectionIn engine.selection step.new)).closeUndo host.logged step) := by
    apply closeUndo (showSelection_log log _)
    rw [showSelection_resolver, showSelection_undoOpen]
    exact grouping
  exact ⟨groupAll?_other closed.log (.modeChanged step) rfl rfl rfl, closed.grouping⟩

/-- The first event that waits is acted on. -/
theorem dispatch (grouped : Grouped engine) {event : EngineEvent} {rest : List EngineEvent}
    (waits : engine.resolver.events = event :: rest) :
    Grouped ((engine.withEvents rest).dispatch host.logged event) := by
  have taken : (engine.withEvents rest).resolver.Grouping (event.leavesOpen engine.undoOpen) :=
    grouped.grouping.take waits
  cases event with
  | modeChanged step => exact modeChanged grouped.log taken
  | failed error =>
      have stopped : Grouped (engine.withEvents rest).stopKeys := ⟨grouped.log, taken⟩
      exact stopped.acts (report_acts host.logged _ error)
  | command resolved =>
      have ran : Grouped ((engine.withEvents rest).execute host.logged resolved).2 :=
        execute grouped.log taken
      unfold Engine.dispatch
      dsimp only
      split <;> exact ran.silent rfl rfl ran.grouping

theorem stride (grouped : Grouped engine) (stride : Stride host.logged engine next) :
    Grouped next := by
  cases stride with
  | dispatches event rest waits => exact grouped.dispatch waits
  | replays key rest quiet queue =>
      have asked : Grouped ((engine.polled host.logged).withQueue rest) :=
        grouped.silent rfl rfl grouped.grouping
      exact asked.resolveKey key
  | interrupts quiet stops => exact grouped.silent rfl rfl grouped.grouping.cancel

/-- Every turn, if the tables and mappings that it brings have actions of the kind
only. -/
theorem take (grouped : Grouped engine) {turn : Turn}
    (tables : ∀ keys, turn = .setKeys keys → keys.Only Action.GroupsTyping)
    (mappings : ∀ mappings, turn = .setMappings mappings → mappings.Only Action.GroupsTyping) :
    Grouped (turn.take host.logged engine) := by
  have only := grouped.grouping.only
  have stems := grouped.grouping.stems
  have guarded := grouped.grouping.guarded
  cases turn with
  | key key =>
      have typed : Grouped { engine with recorder := engine.recorder.typed key } :=
        grouped.silent rfl rfl grouped.grouping
      exact typed.resolveKey key
  | timeout =>
      exact grouped.resolving (Resolver.timeoutExpired_moves _ _ _ _)
        (Resolver.timeoutExpired_alike _ (Host.evaluate_unlogged _) _)
  | offsets values =>
      show Grouped (engine.resolving fun resolver world =>
        (resolver.supplyOffsets engine.view host.logged.evaluate world values).getD
          (resolver, world))
      exact grouped.resolving (Resolver.supplyOffsets_moves _ _ _ _ _)
        (Resolver.supplyOffsets_alike _ (Host.evaluate_unlogged _) _ _)
  | cancel => exact grouped.silent rfl rfl grouped.grouping.cancel
  | setMode state => exact grouped.silent rfl rfl (grouped.grouping.setMode state)
  | line line => exact grouped.acts (executeLine_acts host.logged engine line)
  | source text => exact grouped.acts (source_acts host.logged engine text)
  | setKeys keys =>
      exact grouped.silent rfl rfl
        ⟨⟨tables keys rfl, only.mappings, only.reached, only.pending⟩, stems, guarded⟩
  | setMappings changed =>
      exact grouped.silent rfl rfl
        ⟨⟨only.table, mappings changed rfl, only.reached, only.pending⟩, stems, guarded⟩
  | setOptions options => exact grouped.silent rfl rfl grouped.grouping
  | setEditor editor => exact grouped.silent rfl rfl grouped.grouping
  | step =>
      show Grouped ((engine.advance? host.logged).getD engine)
      cases advanced : engine.advance? host.logged with
      | none => exact grouped
      | some next => exact grouped.stride (advance?_stride host.logged advanced)

end Grouped

/-- Whatever happens to an engine whose actions group typed text only: groups begin and
end in turn, and once there is nothing left to do, one is open only where text is
typed. -/
theorem groups_alternate (host : Host σ κ) (world : σ) (turns : List Turn)
    (tables : ∀ keys, .setKeys keys ∈ turns → keys.Only Action.GroupsTyping)
    (mappings : ∀ mappings, .setMappings mappings ∈ turns →
      mappings.Only Action.GroupsTyping) :
    let start : Engine (σ × List (HostCall κ)) := { world := (world, []) }
    let engine := start.run host.logged turns
    ∃ isOpen, HostCall.groupAll? false engine.world.2 = some isOpen ∧
      (engine.advance? host.logged = none → isOpen = true →
        engine.resolver.modes.mode.isInserting = true) := by
  intro start engine
  have grouped : Grouped engine := by
    refine run_kept host.logged (P := Grouped) ?_ ⟨rfl, ?_⟩
    · intro turn member engine grouped
      exact grouped.take (fun keys same => tables keys (same ▸ member))
        (fun changed same => mappings changed (same ▸ member))
    · refine ⟨⟨default_groupsTyping, MappingStore.only_new, ?_, .empty⟩, ?_, ?_⟩
      · intro found reached
        cases reached
      · intro event member
        cases member
      · intro opens
        cases opens
  refine ⟨engine.undoOpen, grouped.log, ?_⟩
  intro settled opened
  have quiet := ((advance?_eq_none_iff host.logged engine).mp settled).1
  apply grouped.grouping.guarded
  rw [quiet]
  exact opened

/-- A table with one way to start typing text, and one to end it. -/
def typingTable : CommandKeys :=
  (CommandKeys.empty.bind { normal := true } [.char 'i']
    (.ofInsert .insert "insert.before-cursor")).bind { insert := true } [.escape]
    (.ofModeChange .normal "insert.exit")

/-- Text is typed twice; the second time it is left without a key. -/
def typingTwice : List Turn :=
  [.setKeys typingTable, .key (.char 'i'), .step, .step, .key .escape, .step, .step,
    .key (.char 'i'), .step, .step, .setMode (.ofMode .normal), .step]

theorem typingTwice_alternates :
    ((∀ keys, .setKeys keys ∈ typingTwice → keys.Only Action.GroupsTyping) ∧
      ∀ mappings, .setMappings mappings ∈ typingTwice → mappings.Only Action.GroupsTyping) ∧
      ∃ isOpen, HostCall.groupAll? false (run plainHost.logged typingTwice
          { world := ((), []) }).world.2 = some isOpen ∧
        ((run plainHost.logged typingTwice { world := ((), []) }).advance? plainHost.logged =
            none → isOpen = true →
          (run plainHost.logged typingTwice
            { world := ((), []) }).resolver.modes.mode.isInserting = true) := by
  have tables : ∀ keys, .setKeys keys ∈ typingTwice → keys.Only Action.GroupsTyping := by
    intro keys member
    simp only [typingTwice, List.mem_cons, Turn.setKeys.injEq, reduceCtorEq, List.not_mem_nil,
      or_false] at member
    rw [member]
    exact (CommandKeys.only_empty.bind _ (by simp) (by decide)).bind _ (by simp) (by decide)
  have mappings : ∀ mappings, .setMappings mappings ∈ typingTwice →
      mappings.Only Action.GroupsTyping := by
    intro mappings member
    simp [typingTwice] at member
  exact ⟨⟨tables, mappings⟩, groups_alternate plainHost () typingTwice tables mappings⟩

/-- What the host is told of the first time. -/
example : (runWithin plainHost.logged 3 ((typingTwice.take 7).drop 1)
    { world := ((), []), resolver := { keys := typingTable } }).map (·.world.2) = some
    [.startUndo,
      .executeForCaret () (.new (.ofInsert .insert "insert.before-cursor") 0) {},
      .modeChanged ⟨.ofMode .normal, .ofMode .insert⟩,
      .execute (.new (.ofModeChange .normal "insert.exit") 0) { state := .ofMode .insert },
      .finishUndo, .modeChanged ⟨.ofMode .insert, .ofMode .normal⟩] := rfl

end Engine

end ModalInput
