/-
# ModalInput.Proofs.Replaying -- how long recorded keys run

Keys that are run again can start further runs, and a count of the runs stops them
before the limit.  But every failure sets the count back, also one that a mapping
brings about itself, while the commands that wait behind it are still acted on.
So the limit holds between one failure and the next (`accepts_lt`), and what a
typed key starts comes to an end exactly if its failures do (`settles_iff`).

* `Ran` -- what a command leaves of the keys that are to be run; `execute_ran`.
* `Advance` -- what a step does; `advance?_cases`.
* `inputKey_runs` -- the runs that follow a typed key.
-/
import ModalInput.Engine.Input
import ModalInput.Proofs.Reaction

namespace ModalInput.Engine

set_option autoImplicit false

variable {σ κ : Type} (host : Host σ κ)

/-! ## What a command leaves of the keys that are to be run -/

/-- Neither the keys that are to be run nor the events are another's. -/
structure Aside (engine next : Engine σ) : Prop where
  recorder : next.recorder = engine.recorder
  events : next.resolver.events = engine.resolver.events

/-- How a command ends. -/
inductive Ran (engine : Engine σ) : Bool × Engine σ → Prop where
  | fails {next : Engine σ} (events : next.resolver.events = engine.resolver.events) :
      Ran engine (false, next)
  /-- A run of keys is accepted. -/
  | accepts {next : Engine σ} (keys : List Key) (times : Nat)
      (accepted : (engine.recorder.execute keys times).2 = .ok ())
      (recorder : next.recorder = (engine.recorder.execute keys times).1)
      (events : next.resolver.events = engine.resolver.events) :
      Ran engine (true, next)
  | keeps {next : Engine σ} (depth : next.recorder.depth = engine.recorder.depth)
      (queue : next.recorder.queue = engine.recorder.queue)
      (events : next.resolver.events = engine.resolver.events) :
      Ran engine (true, next)

theorem Aside.trans {a b c : Engine σ} (first : Aside a b) (second : Aside b c) : Aside a c :=
  ⟨second.recorder.trans first.recorder, second.events.trans first.events⟩

theorem Aside.ran {engine : Engine σ} {outcome : Bool × Engine σ}
    (aside : Aside engine outcome.2) : Ran engine outcome := by
  obtain ⟨succeeded, next⟩ := outcome
  cases succeeded with
  | false => exact .fails aside.events
  | true =>
      have same : next.recorder = engine.recorder := aside.recorder
      exact .keeps (by rw [same]) (by rw [same]) aside.events

theorem runLine_aside (engine : Engine σ) (line : String) :
    Aside engine (engine.runLine host line).2 := by
  unfold runLine
  split
  · dsimp only
    split <;> exact ⟨rfl, rfl⟩
  · have asked : Aside engine (engine.ask (host.runLine line)).2 := ⟨rfl, rfl⟩
    split <;> rename_i next same <;> rw [same] at asked <;> exact asked

theorem executeLine_aside (engine : Engine σ) (line : String) :
    Aside engine (engine.executeLine host line).2 := by
  have ran := runLine_aside host engine line
  unfold executeLine
  split <;> rename_i next same <;> rw [same] at ran
  · exact ran
  · exact ran.trans ⟨rfl, rfl⟩

theorem repeatLine_aside (line : String) (times : Nat) (engine : Engine σ) :
    Aside engine (engine.repeatLine host line times).2 := by
  induction times generalizing engine with
  | zero => exact ⟨rfl, rfl⟩
  | succ times ih =>
      have ran := executeLine_aside host engine line
      unfold repeatLine
      split <;> rename_i next same <;> rw [same] at ran
      · exact ran.trans (ih next)
      · exact ran

theorem hand_aside (engine : Engine σ) (resolved : ResolvedCommand) :
    Aside engine (engine.hand host resolved).2 := by
  unfold hand
  dsimp only
  split <;> split <;> exact ⟨rfl, rfl⟩

theorem runRegister_ran (engine : Engine σ) (register : Register) (times : Count) :
    Ran engine (engine.runRegister host register times) := by
  unfold runRegister
  dsimp only
  split
  · exact .fails rfl
  · split
    · have noted : Aside engine { engine with lastRun := some register } := ⟨rfl, rfl⟩
      exact (noted.trans (repeatLine_aside host _ times.toNat _)).ran
    · split
      · rename_i recorder started
        exact .accepts (Key.ofText ((host.register? register engine.world).getD "")) times.toNat
          (congrArg Prod.snd started) (congrArg Prod.fst started).symm rfl
      · exact .fails rfl

theorem runLast_ran (engine : Engine σ) (times : Count) :
    Ran engine (engine.runLast host times) := by
  unfold runLast
  split
  · exact runRegister_ran host engine _ times
  · exact .fails rfl

theorem startRecording_ran (engine : Engine σ) (c : Char) :
    Ran engine (engine.startRecording host c) := by
  unfold startRecording
  split
  · split
    · exact .keeps rfl rfl rfl
    · exact .fails rfl
  · exact .fails rfl

theorem finish_same (recorder : Recorder) :
    recorder.finish.1.depth = recorder.depth ∧ recorder.finish.1.queue = recorder.queue := by
  unfold Recorder.finish
  split <;> exact ⟨rfl, rfl⟩

theorem runBuiltin_ran (engine : Engine σ) (builtin : BuiltinAction) (resolved : ResolvedCommand) :
    Ran engine (engine.runBuiltin host builtin resolved) := by
  cases builtin with
  | toggleRecording =>
      obtain ⟨depth, queue⟩ := finish_same engine.recorder
      unfold runBuiltin
      dsimp only
      split
      · rename_i recorder recording stopped
        rw [stopped] at depth queue
        exact .keeps depth queue rfl
      · exact startRecording_ran host engine _
      · exact .fails rfl
  | executeMacro =>
      unfold runBuiltin
      dsimp only
      split
      · split
        · exact runLast_ran host engine _
        · split
          · exact runRegister_ran host engine _ _
          · exact .fails rfl
      · exact .fails rfl
  | repeatMacro => exact runLast_ran host engine _
  | filter =>
      have asked : Aside engine (engine.runBuiltin host .filter resolved).2 := ⟨rfl, rfl⟩
      exact asked.ran

/-- A command fails, has a run of keys accepted, or leaves the keys that are to be
run as they are; the events that wait are the same. -/
theorem execute_ran (engine : Engine σ) (resolved : ResolvedCommand) :
    Ran engine (engine.execute host resolved) := by
  unfold execute
  dsimp only
  split
  · exact runBuiltin_ran host engine _ resolved
  · split
    · exact .fails rfl
    · split
      · exact .fails rfl
      · split
        · split
          · rename_i line _ _
            have told : Aside engine (engine.tell (host.setRegister .lastCommand line false)) :=
              ⟨rfl, rfl⟩
            exact (told.trans (executeLine_aside host _ line)).ran
          · rename_i line _ _
            have told : Aside engine (engine.tell (host.setRegister .lastSearch line false)) :=
              ⟨rfl, rfl⟩
            exact (told.trans (hand_aside host _ resolved)).ran
        · exact (hand_aside host engine resolved).ran

/-! ## Steps -/

/-- The step from here forgets how deep the runs are: it acts on a failure, its
command fails, or the host stops the keys. -/
def forgets (engine : Engine σ) : Bool :=
  match engine.resolver.events with
  | .failed _ :: _ => true
  | .command resolved :: rest =>
      !({ engine with resolver := { engine.resolver with events := rest } }.execute host resolved).1
  | .modeChanged _ :: _ => false
  | [] => (host.shouldInterrupt engine.world).1

/-- The step from here has a run of keys accepted. -/
def accepts (engine : Engine σ) : Bool :=
  match engine.advance? host with
  | some next => next.recorder.depth = engine.recorder.depth + 1
  | none => false

/-- What a step does. -/
inductive Advance (engine next : Engine σ) : Prop where
  | forgets (forgets : engine.forgets host = true) (depth : next.recorder.depth = 0)
  | accepts (keys : List Key) (times : Nat)
      (accepted : (engine.recorder.execute keys times).2 = .ok ())
      (recorder : next.recorder = (engine.recorder.execute keys times).1.commandCompleted)
  /-- An event is acted on. -/
  | dispatches (depth : next.recorder.depth = engine.recorder.depth)
      (queue : next.recorder.queue = engine.recorder.queue)
      (fewer : next.resolver.events.length < engine.resolver.events.length)
  /-- A key is run. -/
  | runsKey (depth : next.recorder.depth = engine.recorder.depth)
      (fewer : next.recorder.queue.length < engine.recorder.queue.length)

theorem modeChanged_aside (engine : Engine σ) (step : ModeStep) :
    Aside engine (engine.modeChanged host step) := by
  have shown (selection : Option ShownSelection) :
      Aside engine (engine.showSelection host selection) := by
    unfold showSelection
    split <;> exact ⟨rfl, rfl⟩
  have closed (shown : Engine σ) : Aside shown (shown.closeUndo host step) := by
    unfold closeUndo
    split <;> exact ⟨rfl, rfl⟩
  exact ((shown _).trans (closed _)).trans ⟨rfl, rfl⟩

theorem dispatch_advance (engine : Engine σ) (event : EngineEvent) (rest : List EngineEvent)
    (events : engine.resolver.events = event :: rest) :
    Advance host engine
      (({ engine with resolver := { engine.resolver with events := rest } } : Engine σ).dispatch
        host event) := by
  have shorter : rest.length < engine.resolver.events.length := by simp [events]
  cases event with
  | modeChanged step =>
      have shown := modeChanged_aside host
        { engine with resolver := { engine.resolver with events := rest } } step
      refine .dispatches ?_ ?_ ?_
      · exact congrArg Recorder.depth shown.recorder
      · exact congrArg Recorder.queue shown.recorder
      · exact Nat.lt_of_le_of_lt (Nat.le_of_eq (congrArg List.length shown.events)) shorter
  | failed error => exact .forgets (by simp [forgets, events]) rfl
  | command resolved =>
      have ran := execute_ran host
        { engine with resolver := { engine.resolver with events := rest } } resolved
      simp only [dispatch]
      cases outcome : execute host
          { engine with resolver := { engine.resolver with events := rest } } resolved with
      | mk succeeded next =>
          rw [outcome] at ran
          cases ran with
          | fails same => exact .forgets (by simp [forgets, events, outcome]) rfl
          | accepts keys times accepted recorder same =>
              exact .accepts keys times accepted (by simp [recorder])
          | keeps depth queue same =>
              exact .dispatches depth queue (by rw [if_pos rfl]; simpa [same] using shorter)

/-- Every step does one of these things. -/
theorem advance?_cases {engine next : Engine σ} (advanced : engine.advance? host = some next) :
    Advance host engine next := by
  unfold advance? at advanced
  split at advanced
  · rename_i event resolver taken
    cases events : engine.resolver.events with
    | nil => simp [Resolver.takeEvent, events] at taken
    | cons first rest =>
        simp only [Resolver.takeEvent, events, Prod.mk.injEq, Option.some.injEq] at taken
        obtain ⟨rfl, rfl⟩ := taken
        cases advanced
        exact dispatch_advance host engine first rest events
  · rename_i resolver taken
    have events : engine.resolver.events = [] := by
      cases events : engine.resolver.events with
      | nil => rfl
      | cons first rest => simp [Resolver.takeEvent, events] at taken
    split at advanced
    · cases advanced
    · split at advanced
      · cases advanced
      · rename_i recorder key next?
        have queue : recorder.depth = engine.recorder.depth ∧
            recorder.queue.length < engine.recorder.queue.length := by
          unfold Recorder.next at next?
          split at next?
          · cases next?
          · rename_i first rest queue
            simp only [Prod.mk.injEq, Option.some.injEq] at next?
            obtain ⟨rfl, rfl⟩ := next?
            simp [queue]
        split at advanced
        · rename_i asked stopped
          cases advanced
          exact .forgets (by simpa [forgets, events, ask] using congrArg Prod.fst stopped) rfl
        · cases advanced
          exact .runsKey queue.1 queue.2

theorem execute_ok {recorder : Recorder} {keys : List Key} {times : Nat}
    (accepted : (recorder.execute keys times).2 = .ok ()) :
    recorder.depth + 1 < Recorder.depthLimit ∧
      (recorder.execute keys times).1.commandCompleted.depth = recorder.depth + 1 := by
  unfold Recorder.execute at accepted ⊢
  split at accepted
  · cases accepted
  · rename_i allowed
    rw [if_neg allowed]
    exact ⟨by omega, rfl⟩

/-! ## The steps of a call -/

/-- The engines that the first steps are taken from. -/
def path (engine : Engine σ) : Nat → List (Engine σ)
  | 0 => []
  | steps + 1 =>
      match engine.advance? host with
      | none => []
      | some next => engine :: path next steps

/-- The engine that a typed key sets out from. -/
def withTyped (engine : Engine σ) (key : Key) : Engine σ :=
  { engine with recorder := engine.recorder.typed key }.resolveKey host key

theorem path_succ {engine next : Engine σ} (advanced : engine.advance? host = some next)
    (steps : Nat) : engine.path host (steps + 1) = engine :: next.path host steps := by
  simp only [path, advanced]

theorem path_of_settled {engine : Engine σ} (settled : engine.advance? host = none) (steps : Nat) :
    engine.path host steps = [] := by
  cases steps with
  | zero => rfl
  | succ steps => simp only [path, settled]

/-- Between two failures fewer runs are accepted than the limit says. -/
theorem accepts_le (steps : Nat) (engine : Engine σ) :
    (engine.path host steps).countP (accepts host) ≤
      (Recorder.depthLimit - 1 - engine.recorder.depth) +
        (Recorder.depthLimit - 1) * (engine.path host steps).countP (forgets host) := by
  induction steps generalizing engine with
  | zero => simp [path]
  | succ steps ih =>
      cases advanced : engine.advance? host with
      | none => simp [path_of_settled host advanced]
      | some next =>
          have rest := ih next
          rw [path_succ host advanced, List.countP_cons, List.countP_cons, Nat.mul_add]
          have refused (same : next.recorder.depth ≠ engine.recorder.depth + 1) :
              engine.accepts host = false := by
            simpa [accepts, advanced] using same
          cases advance?_cases host advanced with
          | forgets forgets depth =>
              rw [depth] at rest
              rw [refused (by omega), forgets, if_pos rfl, if_neg (by decide)]
              omega
          | accepts keys times accepted recorder =>
              obtain ⟨allowed, deeper⟩ := execute_ok accepted
              have depth : next.recorder.depth = engine.recorder.depth + 1 := by
                rw [recorder, deeper]
              have one : (if engine.accepts host = true then 1 else 0) ≤ 1 := by split <;> omega
              rw [depth] at rest
              omega
          | dispatches depth queue fewer =>
              rw [depth] at rest
              rw [refused (by omega), if_neg (by decide)]
              omega
          | runsKey depth fewer =>
              rw [depth] at rest
              rw [refused (by omega), if_neg (by decide)]
              omega

/-! ## Settling -/

/-- What goes down from step to step as long as nothing is forgotten: the runs that
may still start, the keys that wait, the events that wait. -/
def room (engine : Engine σ) : Nat × Nat × Nat :=
  (Recorder.depthLimit - engine.recorder.depth, engine.recorder.queue.length,
    engine.resolver.events.length)

/-- The order in which the first difference decides. -/
def Less : Nat × Nat × Nat → Nat × Nat × Nat → Prop :=
  Prod.Lex (· < ·) (Prod.Lex (· < ·) (· < ·))

theorem less_wf : WellFounded Less :=
  (Prod.lex Nat.lt_wfRel (Prod.lex Nat.lt_wfRel Nat.lt_wfRel)).wf

theorem room_less {engine next : Engine σ} (advanced : engine.advance? host = some next)
    (remembers : engine.forgets host = false) : Less next.room engine.room := by
  cases advance?_cases host advanced with
  | forgets forgets depth =>
      rw [remembers] at forgets
      cases forgets
  | accepts keys times accepted recorder =>
      obtain ⟨allowed, deeper⟩ := execute_ok accepted
      have depth : next.recorder.depth = engine.recorder.depth + 1 := by
        rw [recorder, deeper]
      apply Prod.Lex.left
      show Recorder.depthLimit - next.recorder.depth < Recorder.depthLimit - engine.recorder.depth
      omega
  | dispatches depth queue fewer =>
      unfold room
      rw [depth, queue]
      exact .right _ (.right _ fewer)
  | runsKey depth fewer =>
      unfold room
      rw [depth]
      exact .right _ (.left _ _ fewer)

theorem settle_of_advanced {engine next : Engine σ} (advanced : engine.advance? host = some next)
    (steps : Nat) : engine.settle host (steps + 1) = next.settle host steps := by
  rw [settle, advanced]

theorem settle_of_settled {engine : Engine σ} (settled : engine.advance? host = none)
    (steps : Nat) : engine.settle host steps = some engine := by
  cases steps <;> rw [settle, settled]

/-- If only so many steps forget how deep the runs are, the engine settles. -/
theorem exists_settle (bound : Nat) (engine : Engine σ)
    (bounded : ∀ steps, (engine.path host steps).countP (forgets host) ≤ bound) :
    ∃ steps, (engine.settle host steps).isSome = true := by
  -- on the steps that forget, and between two of them on what goes down
  induction bound using Nat.strongRecOn generalizing engine with
  | ind bound fewer =>
      induction engine using (InvImage.wf room less_wf).induction with
      | h engine less =>
          cases advanced : engine.advance? host with
          | none => exact ⟨0, by simp [settle_of_settled host advanced]⟩
          | some next =>
              have counted (steps : Nat) : (next.path host steps).countP (forgets host) +
                  (if engine.forgets host = true then 1 else 0) ≤ bound := by
                have all := bounded (steps + 1)
                rwa [path_succ host advanced, List.countP_cons] at all
              have settles : ∃ steps, (next.settle host steps).isSome = true := by
                cases remembers : engine.forgets host with
                | false =>
                    apply less next (room_less host advanced remembers)
                    intro steps
                    have := counted steps
                    omega
                | true =>
                    have one := counted 0
                    rw [remembers, if_pos rfl] at one
                    apply fewer (bound - 1) (by omega) next
                    intro steps
                    have := counted steps
                    rw [remembers, if_pos rfl] at this
                    omega
              obtain ⟨steps, settled⟩ := settles
              exact ⟨steps + 1, by rw [settle_of_advanced host advanced]; exact settled⟩

theorem path_length_le (steps : Nat) (engine : Engine σ)
    (settled : (engine.settle host steps).isSome = true) (more : Nat) :
    (engine.path host more).length ≤ steps := by
  induction steps generalizing engine more with
  | zero =>
      cases advanced : engine.advance? host with
      | none => simp [path_of_settled host advanced]
      | some next => simp [settle, advanced] at settled
  | succ steps ih =>
      cases advanced : engine.advance? host with
      | none => simp [path_of_settled host advanced]
      | some next =>
          rw [settle_of_advanced host advanced] at settled
          cases more with
          | zero => simp [path]
          | succ more =>
              rw [path_succ host advanced, List.length_cons]
              exact Nat.succ_le_succ (ih next settled more)

/-- An engine settles if and only if its steps do not forget without end how deep
the runs are. -/
theorem settles_iff (engine : Engine σ) :
    (∃ steps, (engine.settle host steps).isSome = true) ↔
      ∃ bound, ∀ steps, (engine.path host steps).countP (forgets host) ≤ bound := by
  constructor
  · rintro ⟨steps, settled⟩
    refine ⟨steps, ?_⟩
    intro more
    exact Nat.le_trans List.countP_le_length (path_length_le host steps engine settled more)
  · rintro ⟨bound, bounded⟩
    exact exists_settle host bound engine bounded

/-- After a typed key, fewer runs than the limit says are accepted between one
failure and the next, and the key is done with if and only if the failures end. -/
theorem inputKey_runs (engine : Engine σ) (key : Key) :
    (∀ start : Engine σ, ∀ steps,
      (∀ passed ∈ start.path host steps, passed.forgets host = false) →
        (start.path host steps).countP (accepts host) < Recorder.depthLimit) ∧
      (∀ steps, ((engine.withTyped host key).path host steps).countP (accepts host) ≤
        (Recorder.depthLimit - 1) *
          (((engine.withTyped host key).path host steps).countP (forgets host) + 1)) ∧
      ((∃ steps, (engine.inputKey host steps key).isSome = true) ↔
        ∃ bound, ∀ steps,
          ((engine.withTyped host key).path host steps).countP (forgets host) ≤ bound) := by
  refine ⟨?_, ?_, settles_iff host (engine.withTyped host key)⟩
  · intro start steps remembers
    have none : (start.path host steps).countP (forgets host) = 0 := by
      rw [List.countP_eq_zero]
      intro passed member
      rw [remembers passed member]
      decide
    have few := accepts_le host steps start
    have positive : 0 < Recorder.depthLimit := by decide
    rw [none] at few
    omega
  · intro steps
    have few := accepts_le host steps (engine.withTyped host key)
    rw [Nat.mul_add]
    omega

/-! ## Keys that run for ever -/

/-- A command that the editor of `runawayEngine` fails. -/
def refused : ResolvedCommand := ⟨.new { name := "refused" } 0, {}⟩

/-- The command that runs the register `a`. -/
def replays : ResolvedCommand :=
  ⟨(Command.new { name := "replays", argument := .character, builtin := some .executeMacro }
    0).withArgument (.character 'a'), {}⟩

/-- An editor that fails every command, and has `Q` in every register. -/
def runawayHost : Host Unit Unit where
  execute := fun _ _ world => (false, world)
  carets := fun _ => []
  executeForCaret := fun _ _ _ world => (false, world)
  register? := fun _ _ => some "Q"

/-- The key `Q` stands for a command that fails, and for the run of a register
behind it. -/
def runawayMapping : Mapping where
  lhs := [.char 'Q']
  rhs := .keys [.char 'x', .char '@', .char 'a']
  modes := { normal := true }
  noremap := true

def runawayEngine : Engine Unit where
  world := ()
  options := {}
  resolver := {
    keys := (CommandKeys.empty.bind { normal := true } [.char 'x'] refused.command.action).bind
      { normal := true } [.char '@'] replays.command.action
    mappings := { table := KeyTable.empty.insert .normal [.char 'Q'] ⟨0, runawayMapping⟩ } }

/-- The engine with some keys to be run and some events. -/
def runawayAt (recorder : Recorder) (lastRun : Option Register) (events : List ResolvedCommand) :
    Engine Unit :=
  { runawayEngine with
    recorder, lastRun, resolver := { runawayEngine.resolver with events := events.map .command } }

theorem runaway_resolves (recorder : Recorder) (lastRun : Option Register) :
    (runawayAt recorder lastRun []).resolveKey runawayHost (.char 'Q') =
      runawayAt recorder lastRun [refused, replays] := by
  have looked : (runawayAt recorder lastRun []).resolver.inputKey runawayEngine.view
      runawayHost.evaluate () (.char 'Q') =
        ((runawayAt recorder lastRun [refused, replays]).resolver, ()) :=
    Resolver.process_eq_lookedAt runawayEngine.view runawayHost.evaluate 5
      ({ runawayEngine.resolver with typeahead := [.mappable (.char 'Q') 0] }, ()) rfl
  unfold resolveKey resolving
  simp only [show (runawayAt recorder lastRun []).view = runawayEngine.view from rfl, looked]
  rfl

/-- The failure sets the count of the runs back. -/
theorem runaway_fails (commitNext : Bool) (depth : Nat) (lastRun : Option Register) :
    (runawayAt { commitNext, depth } lastRun [refused, replays]).advance? runawayHost =
      some (runawayAt { commitNext := true } lastRun [replays]) := rfl

/-- The run behind the failure is accepted. -/
theorem runaway_replays (lastRun : Option Register) :
    (runawayAt { commitNext := true } lastRun [replays]).advance? runawayHost =
      some (runawayAt { commitNext := true, queue := [.char 'Q'], depth := 1 }
        (some (.named 'a')) []) := by
  have keys : Key.ofText "Q" = [.char 'Q'] := by
    simp [Key.ofText, Key.readAll, Key.readOne, Key.readBracketed?]
  have queued : [Key.char 'Q'] = Recorder.repeated (Key.ofText "Q") 1 [] := by
    rw [keys]
    rfl
  rw [queued]
  rfl

/-- The key of the run is mapped again. -/
theorem runaway_returns :
    (runawayAt { commitNext := true, queue := [.char 'Q'], depth := 1 } (some (.named 'a'))
      []).advance? runawayHost =
      some (runawayAt { commitNext := true, depth := 1 } (some (.named 'a'))
        [refused, replays]) := by
  rw [← runaway_resolves]
  rfl

theorem runaway_accepts (lastRun : Option Register) :
    (runawayAt { commitNext := true } lastRun [replays]).accepts runawayHost = true := by
  simp only [accepts, runaway_replays]
  rfl

/-- A failure, a run, and the key of the run, over and over. -/
theorem runaway_path (commitNext : Bool) (depth : Nat) (lastRun : Option Register)
    (rounds : Nat) :
    rounds ≤ ((runawayAt { commitNext, depth } lastRun [refused, replays]).path runawayHost
      (3 * rounds)).countP (accepts runawayHost) := by
  induction rounds generalizing commitNext depth lastRun with
  | zero => exact Nat.zero_le _
  | succ rounds ih =>
      have again := ih true 1 (some (.named 'a'))
      rw [show 3 * (rounds + 1) = 3 * rounds + 1 + 1 + 1 by omega,
        path_succ runawayHost (runaway_fails commitNext depth lastRun),
        path_succ runawayHost (runaway_replays lastRun), path_succ runawayHost runaway_returns]
      simp only [List.countP_cons, runaway_accepts, if_true]
      omega

theorem runaway_settle (commitNext : Bool) (depth : Nat) (lastRun : Option Register)
    (steps : Nat) :
    (runawayAt { commitNext, depth } lastRun [refused, replays]).settle runawayHost steps =
      none := by
  have endless (bound : Nat) (bounded : ∀ steps, ((runawayAt { commitNext, depth } lastRun
      [refused, replays]).path runawayHost steps).length ≤ bound) : False := by
    have long := runaway_path commitNext depth lastRun (bound + 1)
    have short := bounded (3 * (bound + 1))
    have := Nat.le_trans long List.countP_le_length
    omega
  cases settled : (runawayAt { commitNext, depth } lastRun [refused, replays]).settle runawayHost
      steps with
  | none => rfl
  | some final =>
      exact (endless steps (path_length_le runawayHost steps _ (by simp [settled]))).elim

/-- The typed key is never done with, and more runs are accepted than any limit
allows. -/
theorem inputKey_runaway :
    (∀ steps, runawayEngine.inputKey runawayHost steps (.char 'Q') = none) ∧
      ∀ bound, ∃ steps, bound ≤ ((runawayEngine.withTyped runawayHost (.char 'Q')).path
        runawayHost steps).countP (accepts runawayHost) := by
  have typed : runawayEngine.withTyped runawayHost (.char 'Q') =
      runawayAt { commitNext := false, depth := 0 } none [refused, replays] :=
    runaway_resolves {} none
  constructor
  · intro steps
    show (runawayEngine.withTyped runawayHost (.char 'Q')).settle runawayHost steps = none
    rw [typed]
    exact runaway_settle false 0 none steps
  · intro bound
    rw [typed]
    exact ⟨3 * bound, runaway_path false 0 none bound⟩

end ModalInput.Engine
