/-
# ModalInput.Proofs.AlikeHosts -- engines whose hosts cannot be told apart

Two hosts agree on some relation of their states if they answer alike in states
that are alike, and leave such states (`Host.Agrees`).  An engine never looks at
the state of its host otherwise.  So two engines that differ only in the state of
the host, in the keys that are to be run again, and in the register that was run
last do the same with a key and with an event, as long as no keys are recorded or
run again (`Alike`).

* `process_alike`, `inputKey_alike` -- the resolver, whose mappings may have
  expressions.
* `execute_alike`, `modeChanged_alike` -- the engine.
* `Host.Agrees.logged` -- hosts that agree have equal logs.
-/
import ModalInput.Proofs.HostCalls
import ModalInput.Proofs.Reaction

namespace ModalInput

set_option autoImplicit false

/-- Two requests have the same answer in states that are alike, and leave such
states. -/
def Answers {σ τ α : Type} (alike : σ → τ → Prop) (ask : σ → α × σ) (other : τ → α × τ) : Prop :=
  ∀ a b, alike a b → (ask a).1 = (other b).1 ∧ alike (ask a).2 (other b).2

/-- Two changes lead from states that are alike to such states. -/
def Follows {σ τ : Type} (alike : σ → τ → Prop) (change : σ → σ) (other : τ → τ) : Prop :=
  ∀ a b, alike a b → alike (change a) (other b)

/-- Two hosts that answer alike.  When they stop keys that are run again does not
matter. -/
structure Host.Agrees {σ τ κ : Type} (alike : σ → τ → Prop) (host : Host σ κ) (other : Host τ κ) :
    Prop where
  execute : ∀ command arguments,
    Answers alike (host.execute command arguments) (other.execute command arguments)
  carets : ∀ a b, alike a b → host.carets a = other.carets b
  executeForCaret : ∀ caret command arguments, Answers alike
    (host.executeForCaret caret command arguments) (other.executeForCaret caret command arguments)
  register? : ∀ register a b, alike a b → host.register? register a = other.register? register b
  setRegister : ∀ register text append,
    Follows alike (host.setRegister register text append) (other.setRegister register text append)
  hasMark : ∀ mark a b, alike a b → host.hasMark mark a = other.hasMark mark b
  startFilter : ∀ arguments, Follows alike (host.startFilter arguments) (other.startFilter arguments)
  enterVisual : ∀ shape select,
    Follows alike (host.enterVisual shape select) (other.enterVisual shape select)
  exitVisual : Follows alike host.exitVisual other.exitVisual
  modeChanged : ∀ step, Follows alike (host.modeChanged step) (other.modeChanged step)
  startUndo : Follows alike host.startUndo other.startUndo
  finishUndo : Follows alike host.finishUndo other.finishUndo
  reportError : ∀ error, Follows alike (host.reportError error) (other.reportError error)
  showMessage : ∀ text, Follows alike (host.showMessage text) (other.showMessage text)
  runLine : ∀ line, Answers alike (host.runLine line) (other.runLine line)
  evaluate : ∀ source, Answers alike (host.evaluate source) (other.evaluate source)

/-- A host agrees with itself. -/
theorem Host.agrees_refl {σ κ : Type} (host : Host σ κ) : Host.Agrees Eq host host where
  execute := by rintro _ _ _ _ rfl; exact ⟨rfl, rfl⟩
  carets := by rintro _ _ rfl; rfl
  executeForCaret := by rintro _ _ _ _ _ rfl; exact ⟨rfl, rfl⟩
  register? := by rintro _ _ _ rfl; rfl
  setRegister := by rintro _ _ _ _ _ rfl; rfl
  hasMark := by rintro _ _ _ rfl; rfl
  startFilter := by rintro _ _ _ rfl; rfl
  enterVisual := by rintro _ _ _ _ rfl; rfl
  exitVisual := by rintro _ _ rfl; rfl
  modeChanged := by rintro _ _ _ rfl; rfl
  startUndo := by rintro _ _ rfl; rfl
  finishUndo := by rintro _ _ rfl; rfl
  reportError := by rintro _ _ _ rfl; rfl
  showMessage := by rintro _ _ _ rfl; rfl
  runLine := by rintro _ _ _ rfl; exact ⟨rfl, rfl⟩
  evaluate := by rintro _ _ _ rfl; exact ⟨rfl, rfl⟩

/-- Alike, and with the same calls written down. -/
def AlikeLogs {σ τ κ : Type} (alike : σ → τ → Prop) (a : σ × List (HostCall κ))
    (b : τ × List (HostCall κ)) : Prop :=
  alike a.1 b.1 ∧ a.2 = b.2

namespace HostCall

variable {σ τ κ : Type} {alike : σ → τ → Prop}

theorem noted_follows (call : HostCall κ) {change : σ → σ} {other : τ → τ}
    (follows : Follows alike change other) :
    Follows (AlikeLogs alike) (call.noted change) (call.noted other) :=
  fun a b same => ⟨follows a.1 b.1 same.1, congrArg (· ++ [call]) same.2⟩

theorem answered_answers (call : HostCall κ) {ask : σ → Bool × σ} {other : τ → Bool × τ}
    (answers : Answers alike ask other) :
    Answers (AlikeLogs alike) (call.answered ask) (call.answered other) :=
  fun a b same => ⟨(answers a.1 b.1 same.1).1, (answers a.1 b.1 same.1).2,
    congrArg (· ++ [call]) same.2⟩

end HostCall

/-- Hosts that agree write the same calls down. -/
theorem Host.Agrees.logged {σ τ κ : Type} {alike : σ → τ → Prop} {host : Host σ κ}
    {other : Host τ κ} (agrees : Host.Agrees alike host other) :
    Host.Agrees (AlikeLogs alike) host.logged other.logged where
  execute := fun command arguments =>
    (HostCall.execute command arguments).answered_answers (agrees.execute command arguments)
  carets := fun a b same => agrees.carets a.1 b.1 same.1
  executeForCaret := fun caret command arguments =>
    (HostCall.executeForCaret caret command arguments).answered_answers
      (agrees.executeForCaret caret command arguments)
  register? := fun register a b same => agrees.register? register a.1 b.1 same.1
  setRegister := fun register text append =>
    (HostCall.setRegister register text append).noted_follows
      (agrees.setRegister register text append)
  hasMark := fun mark a b same => agrees.hasMark mark a.1 b.1 same.1
  startFilter := fun arguments =>
    (HostCall.startFilter arguments).noted_follows (agrees.startFilter arguments)
  enterVisual := fun shape select =>
    (HostCall.enterVisual shape select).noted_follows (agrees.enterVisual shape select)
  exitVisual := HostCall.exitVisual.noted_follows agrees.exitVisual
  modeChanged := fun step => (HostCall.modeChanged step).noted_follows (agrees.modeChanged step)
  startUndo := HostCall.startUndo.noted_follows agrees.startUndo
  finishUndo := HostCall.finishUndo.noted_follows agrees.finishUndo
  reportError := fun error => (HostCall.reportError error).noted_follows (agrees.reportError error)
  showMessage := fun text => (HostCall.showMessage text).noted_follows (agrees.showMessage text)
  runLine := fun line => (HostCall.runLine line).answered_answers (agrees.runLine line)
  evaluate := fun source a b same =>
    ⟨(agrees.evaluate source a.1 b.1 same.1).1, (agrees.evaluate source a.1 b.1 same.1).2, same.2⟩

/-- Evaluating an expression writes no call down. -/
theorem Host.evaluate_unlogged {σ κ : Type} {host : Host σ κ} (log : List (HostCall κ))
    (source : String) :
    Answers (fun a b : σ × List (HostCall κ) => a = b ∧ a.2 = log) (host.logged.evaluate source)
      (host.logged.evaluate source) := by
  rintro a b ⟨rfl, same⟩
  exact ⟨rfl, rfl, same⟩

/-! ## The resolver -/

namespace Resolver

variable {σ τ : Type} {alike : σ → τ → Prop} (options : OptionView) {evaluate : Evaluator σ}
  {other : Evaluator τ}

theorem expand_alike (evaluates : ∀ source, Answers alike (evaluate source) (other source))
    (r : Resolver) (mapping : Mapping) (lhs : List TrailKey) :
    Answers alike (fun world => expand options evaluate r world mapping lhs)
      (fun world => expand options other r world mapping lhs) := by
  intro a b same
  unfold expand
  dsimp only
  split
  · exact ⟨rfl, same⟩
  · split
    · exact ⟨rfl, same⟩
    · exact ⟨rfl, same⟩
    · rename_i source target
      obtain ⟨answer, next⟩ := evaluates source a b same
      generalize evaluate source a = x at answer next
      generalize other source b = y at answer next
      obtain ⟨result, a⟩ := x
      obtain ⟨_, b⟩ := y
      cases answer
      cases result <;> exact ⟨rfl, next⟩

theorem outcome_alike (evaluates : ∀ source, Answers alike (evaluate source) (other source))
    (outcome : Outcome) :
    Answers alike (fun world => outcome.run options evaluate world)
      (fun world => outcome.run options other world) := by
  intro a b same
  cases outcome with
  | wait r => exact ⟨rfl, same⟩
  | pass r key => exact ⟨rfl, same⟩
  | replace r mapping lhs => exact expand_alike options evaluates r mapping lhs a b same

/-- Keys that wait are looked at alike. -/
theorem process_alike (evaluates : ∀ source, Answers alike (evaluate source) (other source))
    (r : Resolver) :
    Answers alike (fun world => process options evaluate r world)
      (fun world => process options other r world) := by
  intro a b same
  dsimp only
  fun_induction process options evaluate r a generalizing b with
  | case1 r a stopped =>
      have stopped' : step? options other r b = none :=
        (step?_eq_none_iff options other r b).mpr
          ((step?_eq_none_iff options evaluate r a).mp stopped)
      rw [process_of_settled options other stopped']
      exact ⟨rfl, same⟩
  | case2 r a next stepped ih =>
      obtain ⟨noOffsets, outcome, reaction, leads⟩ := exists_reaction options evaluate stepped
      obtain ⟨resolver, world⟩ := outcome_alike options evaluates outcome a b same
      dsimp only at resolver world
      rw [process_of_step options other
        (step?_eq_of_reaction options other reaction noOffsets b), ← resolver, ← leads]
      exact ih _ (by rw [leads]; exact world)

theorem inputKey_alike (evaluates : ∀ source, Answers alike (evaluate source) (other source))
    (r : Resolver) (key : Key) :
    Answers alike (fun world => inputKey options evaluate r world key)
      (fun world => inputKey options other r world key) := by
  intro a b same
  unfold inputKey
  dsimp only
  split
  · exact ⟨rfl, same⟩
  · exact process_alike options evaluates _ a b same

theorem endTrail_alike (evaluates : ∀ source, Answers alike (evaluate source) (other source))
    (r : Resolver) :
    Answers alike (fun world => endTrail options evaluate r world)
      (fun world => endTrail options other r world) := by
  intro a b same
  dsimp only
  rw [endTrail_eq, endTrail_eq]
  exact outcome_alike options evaluates _ a b same

theorem flushed_alike (evaluates : ∀ source, Answers alike (evaluate source) (other source))
    (r : Resolver) :
    Answers alike (fun world => flushed options evaluate r world)
      (fun world => flushed options other r world) := by
  have trail : Answers alike (fun world => flushTrail options evaluate r world)
      (fun world => flushTrail options other r world) := by
    intro a b same
    unfold flushTrail
    dsimp only
    split
    · exact endTrail_alike options evaluates r a b same
    · exact ⟨rfl, same⟩
  intro a b same
  unfold flushed
  dsimp only
  split
  · exact ⟨rfl, same⟩
  · obtain ⟨resolver, world⟩ := trail a b same
    dsimp only at resolver world
    rw [resolver]
    exact process_alike options evaluates _ _ _ world

theorem timeoutExpired_alike (evaluates : ∀ source, Answers alike (evaluate source) (other source))
    (r : Resolver) :
    Answers alike (fun world => timeoutExpired options evaluate r world)
      (fun world => timeoutExpired options other r world) := by
  intro a b same
  obtain ⟨resolver, world⟩ := flushed_alike options evaluates r a b same
  dsimp only at resolver world ⊢
  rw [timeoutExpired_eq, timeoutExpired_eq, resolver]
  split
  · exact process_alike options evaluates _ _ _ world
  · exact ⟨resolver, world⟩

theorem supplyOffsets_alike (evaluates : ∀ source, Answers alike (evaluate source) (other source))
    (r : Resolver) (values : List Int) :
    Answers alike (fun world => (supplyOffsets options evaluate r world values).getD (r, world))
      (fun world => (supplyOffsets options other r world values).getD (r, world)) := by
  intro a b same
  unfold supplyOffsets
  dsimp only
  split
  · exact process_alike options evaluates _ a b same
  · exact ⟨rfl, same⟩

end Resolver

/-! ## The engine -/

namespace Engine

variable {σ τ κ : Type} {alike : σ → τ → Prop}

/-- Two engines whose hosts are in states that are alike, with the same resolver and
configuration. -/
structure Alike (alike : σ → τ → Prop) (a : Engine σ) (b : Engine τ) : Prop where
  world : alike a.world b.world
  options : a.options = b.options
  resolver : a.resolver = b.resolver
  commands : a.commands = b.commands
  editor : a.editor = b.editor
  undoOpen : a.undoOpen = b.undoOpen
  selection : a.selection = b.selection

/-- Two outcomes with the same result, and engines that are alike. -/
def AlikeResults {α : Type} (alike : σ → τ → Prop) (x : α × Engine σ) (y : α × Engine τ) : Prop :=
  x.1 = y.1 ∧ Alike alike x.2 y.2

namespace Alike

theorem view {a : Engine σ} {b : Engine τ} (same : Alike alike a b) : a.view = b.view := by
  unfold Engine.view
  rw [same.options, same.editor]

theorem tell {a : Engine σ} {b : Engine τ} (same : Alike alike a b) {change : σ → σ}
    {other : τ → τ} (follows : Follows alike change other) :
    Alike alike (a.tell change) (b.tell other) :=
  { same with world := follows _ _ same.world }

theorem ask {a : Engine σ} {b : Engine τ} (same : Alike alike a b) {request : σ → Bool × σ}
    {other : τ → Bool × τ} (answers : Answers alike request other) :
    AlikeResults alike (a.ask request) (b.ask other) :=
  ⟨(answers _ _ same.world).1, { same with world := (answers _ _ same.world).2 }⟩

end Alike

variable {host : Host σ κ} {other : Host τ κ} (agrees : Host.Agrees alike host other)
include agrees

theorem report_alike {a : Engine σ} {b : Engine τ} (same : Alike alike a b) (error : EngineError) :
    Alike alike (a.report host error) (b.report other error) :=
  same.tell (agrees.reportError error)

theorem refuse_alike {a : Engine σ} {b : Engine τ} (same : Alike alike a b) (error : EngineError) :
    AlikeResults alike (a.refuse host error) (b.refuse other error) :=
  ⟨rfl, report_alike agrees same error⟩

theorem showAll_follows (shown : List String) :
    Follows alike (fun world => shown.foldl (fun world text => host.showMessage text world) world)
      (fun world => shown.foldl (fun world text => other.showMessage text world) world) := by
  induction shown with
  | nil => exact fun _ _ same => same
  | cons text rest ih => exact fun a b same => ih _ _ (agrees.showMessage text a b same)

theorem runLine_alike {a : Engine σ} {b : Engine τ} (same : Alike alike a b) (line : String) :
    AlikeResults alike (a.runLine host line) (b.runLine other line) := by
  have outcome : a.lineOutcome line = b.lineOutcome line := by
    simp only [lineOutcome, same.commands, same.options, same.resolver, same.editor]
  have configured : Alike alike (a.configured line) (b.configured line) := by
    simp only [Engine.configured, outcome, same.resolver]
    exact { same with commands := rfl, options := rfl, resolver := rfl }
  by_cases known : a.commands.isCommand line
  · rw [runLine_of_known host known, runLine_of_known other (same.commands ▸ known), outcome]
    split
    · exact ⟨rfl, configured.tell (showAll_follows agrees _)⟩
    · exact ⟨rfl, configured⟩
  · have asked := same.ask (agrees.runLine line)
    unfold runLine
    rw [if_neg known, if_neg (same.commands ▸ known)]
    generalize a.ask (host.runLine line) = x at asked
    generalize b.ask (other.runLine line) = y at asked
    obtain ⟨answer, a⟩ := x
    obtain ⟨_, b⟩ := y
    obtain ⟨known, same⟩ := asked
    cases known
    cases answer <;> exact ⟨rfl, same⟩

theorem executeLine_alike {a : Engine σ} {b : Engine τ} (same : Alike alike a b) (line : String) :
    AlikeResults alike (a.executeLine host line) (b.executeLine other line) := by
  have ran := runLine_alike agrees same line
  unfold executeLine
  generalize a.runLine host line = x at ran
  generalize b.runLine other line = y at ran
  obtain ⟨result, a⟩ := x
  obtain ⟨_, b⟩ := y
  obtain ⟨equal, same⟩ := ran
  cases equal
  cases result with
  | ok => exact ⟨rfl, same⟩
  | error error => exact ⟨rfl, report_alike agrees same error⟩

theorem executeForCarets_answers (resolved : ResolvedCommand) (carets : List κ) :
    Answers alike (executeForCarets host resolved carets)
      (executeForCarets other resolved carets) := by
  intro a b same
  unfold executeForCarets
  generalize true = succeeded
  induction carets generalizing a b succeeded with
  | nil => exact ⟨rfl, same⟩
  | cons caret rest ih =>
      obtain ⟨ran, next⟩ :=
        agrees.executeForCaret caret resolved.command resolved.arguments a b same
      simp only [List.foldl_cons]
      rw [ran]
      exact ih _ _ next _

theorem hand_alike {a : Engine σ} {b : Engine τ} (same : Alike alike a b)
    (resolved : ResolvedCommand) :
    AlikeResults alike (a.hand host resolved) (b.hand other resolved) := by
  have grouped : Alike alike
      (if resolved.command.flags.multikeyUndo && !a.undoOpen then
        { a with undoOpen := true }.tell host.startUndo else a)
      (if resolved.command.flags.multikeyUndo && !b.undoOpen then
        { b with undoOpen := true }.tell other.startUndo else b) := by
    rw [same.undoOpen]
    split
    · have opened : Alike alike { a with undoOpen := true } { b with undoOpen := true } :=
        { same with undoOpen := rfl }
      exact opened.tell agrees.startUndo
    · exact same
  unfold hand
  dsimp only
  split
  · exact grouped.ask (agrees.execute _ _)
  · rw [agrees.carets _ _ grouped.world]
    exact grouped.ask (executeForCarets_answers agrees resolved _)

/-- A command is run alike, unless it records keys or runs recorded ones. -/
theorem execute_alike {a : Engine σ} {b : Engine τ} (same : Alike alike a b)
    {resolved : ResolvedCommand} (plain : resolved.command.action.isMacro = false) :
    AlikeResults alike (a.execute host resolved) (b.execute other resolved) := by
  have mark : missingMark? host a.world resolved.command =
      missingMark? other b.world resolved.command := by
    have set (mark : Char) : host.hasMark mark a.world = other.hasMark mark b.world :=
      agrees.hasMark mark _ _ same.world
    simp only [missingMark?, set]
  unfold execute
  dsimp only
  split
  · rename_i builtin kind
    cases builtin with
    | filter =>
        exact (same.tell (agrees.startFilter resolved.arguments)).ask (agrees.execute _ _)
    | toggleRecording => simp [Action.isMacro, kind] at plain
    | executeMacro => simp [Action.isMacro, kind] at plain
    | repeatMacro => simp [Action.isMacro, kind] at plain
  · split
    · exact ⟨rfl, same⟩
    · rw [mark]
      split
      · exact refuse_alike agrees same _
      · split
        · split
          · exact executeLine_alike agrees (same.tell (agrees.setRegister _ _ _)) _
          · exact hand_alike agrees (same.tell (agrees.setRegister _ _ _)) resolved
        · exact hand_alike agrees same resolved

theorem modeChanged_alike {a : Engine σ} {b : Engine τ} (same : Alike alike a b)
    (step : ModeStep) : Alike alike (a.modeChanged host step) (b.modeChanged other step) := by
  have shown (selection : Option ShownSelection) :
      Alike alike (a.showSelection host selection) (b.showSelection other selection) := by
    unfold showSelection
    rw [same.selection]
    split
    · exact same
    · have noted : Alike alike { a with selection } { b with selection } :=
        { same with selection := rfl }
      cases selection with
      | some shown => exact noted.tell (agrees.enterVisual _ _)
      | none => exact noted.tell agrees.exitVisual
  have closed {a : Engine σ} {b : Engine τ} (same : Alike alike a b) :
      Alike alike (a.closeUndo host step) (b.closeUndo other step) := by
    unfold closeUndo
    rw [same.undoOpen]
    split
    · have ended : Alike alike { a with undoOpen := false } { b with undoOpen := false } :=
        { same with undoOpen := rfl }
      exact ended.tell agrees.finishUndo
    · exact same
  unfold modeChanged
  rw [same.selection]
  exact (closed (shown _)).tell (agrees.modeChanged step)

theorem resolveKey_alike {a : Engine σ} {b : Engine τ} (same : Alike alike a b) (key : Key) :
    Alike alike (a.resolveKey host key) (b.resolveKey other key) := by
  obtain ⟨resolver, world⟩ :=
    Resolver.inputKey_alike a.view agrees.evaluate a.resolver key _ _ same.world
  unfold resolveKey resolving
  dsimp only at resolver world ⊢
  rw [← same.view, ← same.resolver]
  exact { same with world := world, resolver := resolver }

end Engine

end ModalInput
