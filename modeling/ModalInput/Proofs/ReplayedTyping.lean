/-
# ModalInput.Proofs.ReplayedTyping -- to run a register is to type its keys

The keys of a register come from inside, between two steps, and typed keys come from
outside, when there is no step left.  It makes no difference: a key that is run is
only taken once nothing else is to be done, and then the engine to which the keys
are typed has come to its end as well (`settle_typed`).  So the host gets the same
calls, and the mode and the pending keys are the same in the end (`replay_typed`).

Two things are needed for that besides a run in which nothing fails.  The keys must
not run other recorded keys, since a typed key drops what is to be run.  And no
command may wait for offsets: an engine that waits for them takes no more keys that
are run, but drops what is typed.  A mapping can lead to such a command whatever the
table has (`measured_replay`).

* `Undisturbed` -- a run in which nothing fails or is stopped.
* `Typed` -- some keys, typed one after the other.
-/
import ModalInput.Proofs.AlikeHosts
import ModalInput.Proofs.Dropping
import ModalInput.Proofs.NoOffsets
import ModalInput.Proofs.RecordedKeys
import ModalInput.Proofs.Recordings

namespace ModalInput.Engine

set_option autoImplicit false

variable {σ κ : Type}

/-! ## Undisturbed runs -/

/-- The step from here neither fails nor is it stopped, and it runs no command that
records keys or runs recorded ones. -/
structure Calm (host : Host σ κ) (engine : Engine σ) : Prop where
  remembers : engine.forgets host = false
  plain : ∀ resolved rest, engine.resolver.events = .command resolved :: rest →
    resolved.command.action.isMacro = false

/-- Every step from here on is calm. -/
def Undisturbed (host : Host σ κ) (engine : Engine σ) : Prop :=
  ∀ steps, ∀ passed ∈ engine.path host steps, Calm host passed

namespace Undisturbed

variable {host : Host σ κ} {engine next : Engine σ}

theorem of_settled (settled : engine.advance? host = none) : Undisturbed host engine := by
  intro steps passed member
  rw [path_of_settled host settled] at member
  cases member

theorem step (calm : Calm host engine) (advanced : engine.advance? host = some next)
    (others : Undisturbed host next) : Undisturbed host engine := by
  intro steps passed member
  cases steps with
  | zero => cases member
  | succ steps =>
      rw [path_succ host advanced] at member
      cases member with
      | head => exact calm
      | tail _ later => exact others steps passed later

theorem first (undisturbed : Undisturbed host engine)
    (advanced : engine.advance? host = some next) : Calm host engine :=
  undisturbed 1 engine (by rw [path_succ host advanced]; exact .head _)

theorem rest (undisturbed : Undisturbed host engine)
    (advanced : engine.advance? host = some next) : Undisturbed host next := by
  intro steps passed member
  exact undisturbed (steps + 1) passed (by rw [path_succ host advanced]; exact .tail _ member)

/-- A run that nothing disturbs comes to an end. -/
theorem settles (undisturbed : Undisturbed host engine) :
    ∃ steps final, engine.settle host steps = some final := by
  obtain ⟨steps, settled⟩ := exists_settle host 0 engine fun steps => Nat.le_of_eq <|
    List.countP_eq_zero.mpr fun passed member => by
      rw [(undisturbed steps passed member).remembers]
      decide
  exact ⟨steps, Option.isSome_iff_exists.mp settled⟩

end Undisturbed

/-- Some keys are typed, each after the engine was done with the one before. -/
inductive Typed (host : Host σ κ) : Engine σ → List Key → Engine σ → Prop where
  | nil (engine : Engine σ) : Typed host engine [] engine
  | cons {engine next final : Engine σ} (key : Key) (rest : List Key) (steps : Nat)
      (first : engine.inputKey host steps key = some next) (others : Typed host next rest final) :
      Typed host engine (key :: rest) final

variable {host : Host σ κ}

/-! ## What a plain command leaves -/

/-- A command that is not about recorded keys only acts. -/
theorem execute_acts (host : Host σ κ) {resolved : ResolvedCommand}
    (plain : resolved.command.action.isMacro = false) (engine : Engine σ) :
    Acts host (resolved.command.flags.multikeyUndo = true) engine
      (engine.execute host resolved).2 := by
  have about (replays : resolved.command.action.isMacro = true) :
      Acts host (resolved.command.flags.multikeyUndo = true) engine
        (engine.execute host resolved).2 := by
    rw [plain] at replays
    cases replays
  have toggles (toggles : resolved.command.action.builtin = some .toggleRecording) :
      resolved.command.action.isMacro = true := by
    simp only [Action.isMacro, toggles]
  have ran := execute_cases host engine resolved
  generalize engine.execute host resolved = outcome at ran about ⊢
  cases ran with
  | acts acts off => exact acts
  | stops register append toggled running => exact about (toggles toggled)
  | starts register append toggled off => exact about (toggles toggled)
  | reruns register times replays other => exact about replays
  | overruns register replays other acts => exact about replays

theorem Acts.offsetFree {asked : Prop} {engine next : Engine σ}
    (acts : Acts host asked engine next) (free : engine.resolver.OffsetFree) : next.resolver.OffsetFree := by
  induction acts with
  | refl => exact free
  | tail before act ih =>
      cases act with
      | calls serves => exact ih
      | configures line => exact ih.withMappings (ExCommands.run_noOffsets _ _ ih.mappings)
      | groups asks closed => exact ih
      | remembers register => exact ih

/-! ## Keys from inside and keys from outside -/

/-- An engine that runs keys, and one to which they are to be typed. -/
structure Beside (alike : σ → σ → Prop) (a b : Engine σ) : Prop where
  same : Alike alike a b
  free : a.resolver.OffsetFree
  done : b.recorder.queue = []

variable {alike : σ → σ → Prop}

section Agreement

variable (agrees : Host.Agrees alike host host)
include agrees

/-- An event is acted on alike, and the keys that are to be run stay. -/
theorem dispatch_beside {a b : Engine σ} (beside : Beside alike a b) (calm : Calm host a)
    {event : EngineEvent} {rest : List EngineEvent} (waits : a.resolver.events = event :: rest) :
    Beside alike ((a.withEvents rest).dispatch host event)
        ((b.withEvents rest).dispatch host event) ∧
      ((a.withEvents rest).dispatch host event).recorder.queue = a.recorder.queue := by
  have taken : Alike alike (a.withEvents rest) (b.withEvents rest) :=
    { beside.same with resolver := by simp only [withEvents, beside.same.resolver] }
  have free : (a.withEvents rest).resolver.OffsetFree := beside.free.withEvents rest
  cases event with
  | modeChanged step =>
      have recorder (engine : Engine σ) :
          (engine.modeChanged host step).recorder.queue = engine.recorder.queue :=
        congrArg Recorder.queue (modeChanged_aside host engine step).recorder
      refine ⟨⟨modeChanged_alike agrees taken step, ?_, ?_⟩, recorder _⟩
      · show ((a.withEvents rest).modeChanged host step).resolver.OffsetFree
        rw [modeChanged_resolver]
        exact free
      · exact (recorder _).trans beside.done
  | failed error =>
      have remembers := calm.remembers
      simp [forgets, waits] at remembers
  | command resolved =>
      have plain := calm.plain resolved rest waits
      have succeeds : ((a.withEvents rest).execute host resolved).1 = true := by
        have remembers := calm.remembers
        simp only [forgets, waits, Bool.not_eq_false'] at remembers
        exact remembers
      obtain ⟨result, ran⟩ := execute_alike agrees taken plain
      have acts := execute_acts host plain (a.withEvents rest)
      have acts' := execute_acts host plain (b.withEvents rest)
      simp only [dispatch, ← result, succeeds, if_true]
      refine ⟨⟨{ ran with }, acts.offsetFree free, ?_⟩, ?_⟩
      · exact (congrArg Recorder.queue acts'.frame.recorder).trans beside.done
      · have queue := congrArg Recorder.queue acts.frame.recorder
        exact queue

omit agrees in
/-- With no event and no key, there is nothing to do. -/
theorem Beside.settled {a b : Engine σ} (beside : Beside alike a b)
    (quiet : a.resolver.events = []) : b.advance? host = none :=
  (advance?_eq_none_iff host b).mpr ⟨beside.same.resolver ▸ quiet, .inr beside.done⟩

omit agrees in
/-- An engine that has come to its end has run all keys. -/
theorem Beside.empty {a b : Engine σ} (beside : Beside alike a b)
    (ends : a.advance? host = none) : a.recorder.queue = [] :=
  ((advance?_eq_none_iff host a).mp ends).2.resolve_left
    (Bool.eq_false_iff.mp beside.free.pending.awaits)

/-- A key is run as it is typed. -/
theorem resolveKey_beside (polls : Follows alike (fun world => (host.shouldInterrupt world).2) id)
    {a b : Engine σ} (beside : Beside alike a b) (key : Key) (rest : List Key) :
    Beside alike (((a.polled host).withQueue rest).resolveKey host key) (b.withTyped host key) := by
  have polled : Alike alike ((a.polled host).withQueue rest)
      { b with recorder := b.recorder.typed key } :=
    { beside.same with world := polls _ _ beside.same.world }
  refine ⟨resolveKey_alike agrees polled key, ?_, ?_⟩
  · exact beside.free.moves (Resolver.inputKey_moves _ _ _ _ _)
  · show (b.recorder.typed key).queue = []
    unfold Recorder.typed
    dsimp only
    split
    · split <;> rfl
    · rfl

/-- The keys that wait lead to the same when they are typed, each after all that comes
before it is done. -/
theorem settle_typed (polls : Follows alike (fun world => (host.shouldInterrupt world).2) id)
    {steps : Nat} {a b final : Engine σ} (beside : Beside alike a b)
    (undisturbed : Undisturbed host a) (settled : a.settle host steps = some final) :
    ∃ done typed, (∃ taken, b.settle host taken = some done) ∧
      Typed host done a.recorder.queue typed ∧ Alike alike final typed := by
  fun_induction settle host steps a generalizing b with
  | case1 steps _ ends =>
      cases settled
      have quiet := ((advance?_eq_none_iff host final).mp ends).1
      rw [beside.empty ends]
      exact ⟨b, b, ⟨0, settle_of_settled host (beside.settled quiet) 0⟩, .nil b, beside.same⟩
  | case2 a next advanced => cases settled
  | case3 a next advanced steps ih =>
      have calm := undisturbed.first advanced
      have later := undisturbed.rest advanced
      cases advance?_stride host advanced with
      | dispatches event rest waits =>
          obtain ⟨ahead, queue⟩ := dispatch_beside agrees beside calm waits
          obtain ⟨done, typed, ⟨taken, reached⟩, typing, same⟩ := ih ahead later settled
          rw [queue] at typing
          have waits' : b.resolver.events = event :: rest := beside.same.resolver ▸ waits
          refine ⟨done, typed, ⟨taken + 1, ?_⟩, typing, same⟩
          rw [settle_of_advanced host (advance?_of_event host waits')]
          exact reached
      | replays key rest quiet queue =>
          -- the engine beside has settled: the key is typed now
          obtain ⟨done, typed, ⟨taken, reached⟩, typing, same⟩ :=
            ih (resolveKey_beside agrees polls beside key rest) later settled
          refine ⟨b, typed, ⟨0, settle_of_settled host (beside.settled quiet) 0⟩, ?_, same⟩
          rw [queue]
          exact .cons key rest taken reached typing
      | interrupts quiet stops =>
          have remembers := calm.remembers
          simp [forgets, quiet, stops] at remembers

end Agreement

/-! ## Running a register -/

/-- A register that is run with success has a text, and few enough runs came before. -/
theorem runRegister_succeeds {engine : Engine σ} {register : Register} {times : Count}
    {text : String} (other : register ≠ .lastCommand)
    (holds : host.register? register engine.world = some text)
    (succeeds : (engine.runRegister host register times).1 = true) :
    text ≠ "" ∧ engine.recorder.depth + 1 < Recorder.depthLimit := by
  simp only [runRegister, holds, Option.getD_some, if_neg other] at succeeds
  split at succeeds
  · cases succeeds
  · rename_i nonempty
    refine ⟨by simpa using nonempty, Nat.not_le.mp fun deep => ?_⟩
    simp [Recorder.execute, deep, refuse] at succeeds

theorem dispatch_executeMacro (host : Host σ κ) {engine : Engine σ} {resolved : ResolvedCommand}
    {c letter : Char} {append : Bool} {text : String}
    (runs : resolved.command.action.builtin = some .executeMacro)
    (names : resolved.command.argument = some (.character c))
    (named : Register.ofChar? c = some (.named letter, append))
    (holds : host.register? (.named letter) engine.world = some text)
    (succeeds : (engine.execute host resolved).1 = true) :
    ∃ recorder lastRun,
      engine.dispatch host (.command resolved) = { engine with recorder, lastRun } ∧
        recorder.queue = Recorder.repeated (Key.ofText text)
          resolved.arguments.count.atLeastOne.toNat engine.recorder.queue := by
  have again : c ≠ '@' := by
    rintro rfl
    cases named
  have ran : engine.execute host resolved =
      engine.runRegister host (.named letter) resolved.arguments.count.atLeastOne := by
    simp only [execute, runs, runBuiltin, names, if_neg again, named]
  rw [ran] at succeeds
  obtain ⟨nonempty, shallow⟩ := runRegister_succeeds (by simp) holds succeeds
  rw [runRegister_keys host engine holds nonempty (by simp) shallow] at ran
  simp only [dispatch, ran, if_true]
  exact ⟨_, _, rfl, rfl⟩

/-- An engine that waits for nothing runs a named register. If nothing fails on the way or
stops it, and the keys run no other recorded keys, then these come to an end, and the host
gets the calls that it gets when the keys are typed as often as the count says; the resolver,
with the modes and all that is pending, is the same. (A resolver is always layered:
`layered_invariant`.)

The host is asked whether to stop only where keys are run, so being asked may change nothing
that its answers depend on: it stays in a state that is alike. -/
theorem replay_typed (agrees : Host.Agrees alike host host) (reflexive : ∀ world, alike world world)
    (polls : Follows alike (fun world => (host.shouldInterrupt world).2) id)
    {engine : Engine (σ × List (HostCall κ))} (layered : engine.resolver.Layered)
    (idle : engine.resolver.isPending = false) (quiet : engine.resolver.events = [])
    (stopped : engine.recorder.queue = []) (table : engine.resolver.keys.NoOffsets)
    (mappings : engine.resolver.mappings.NoOffsets) {resolved : ResolvedCommand}
    {c letter : Char} {append : Bool} {text : String}
    (runs : resolved.command.action.builtin = some .executeMacro)
    (names : resolved.command.argument = some (.character c))
    (named : Register.ofChar? c = some (.named letter, append))
    (holds : host.register? (.named letter) engine.world.1 = some text)
    (succeeds : (engine.execute host.logged resolved).1 = true)
    (undisturbed :
      Undisturbed host.logged (engine.dispatch host.logged (.command resolved))) :
    ∃ replayed typed,
      (∃ steps, (engine.dispatch host.logged (.command resolved)).settle host.logged steps =
        some replayed) ∧
      Typed host.logged engine (List.replicate resolved.arguments.count.atLeastOne.toNat
        (Key.ofText text)).flatten typed ∧
      replayed.world.2 = typed.world.2 ∧ replayed.resolver = typed.resolver ∧
      Alike (AlikeLogs alike) replayed typed := by
  obtain ⟨recorder, lastRun, started, queue⟩ :=
    dispatch_executeMacro host.logged runs names named holds succeeds
  have keys : recorder.queue = (List.replicate resolved.arguments.count.atLeastOne.toNat
      (Key.ofText text)).flatten := by
    rw [queue, stopped, Recorder.repeated]
    split
    · rename_i none
      rw [List.isEmpty_iff.mp none]
      simp
    · rw [List.append_nil]
  rw [started] at undisturbed ⊢
  have beside : Beside (AlikeLogs alike) { engine with recorder, lastRun } engine :=
    ⟨⟨⟨reflexive _, rfl⟩, rfl, rfl, rfl, rfl, rfl, rfl⟩,
      .of_idle table mappings layered idle, stopped⟩
  have silent : Follows (AlikeLogs alike)
      (fun world => (host.logged.shouldInterrupt world).2) id :=
    fun a b same => ⟨polls a.1 b.1 same.1, same.2⟩
  obtain ⟨steps, replayed, settled⟩ := undisturbed.settles
  obtain ⟨done, typed, ⟨taken, reached⟩, typing, same⟩ :=
    settle_typed agrees.logged silent beside undisturbed settled
  have settledAlready : engine.settle host.logged taken = some engine :=
    settle_of_settled host.logged (beside.settled quiet) taken
  rw [settledAlready] at reached
  cases reached
  rw [keys] at typing
  exact ⟨replayed, typed, ⟨steps, settled⟩, typing, same.world.2, same.resolver, same⟩

/-! ## A register that strikes -/

/-- An editor with a text in each register. -/
def tapeHost (text : String) : Host Unit Unit :=
  { plainHost with register? := fun _ _ => some text }

/-- The recorded keys that are run, and some commands that wait. -/
def strikingAt (queue : List Key) (log : List (HostCall Unit)) (waiting : List Command) :
    Engine (Unit × List (HostCall Unit)) :=
  { recordingAt { queue, depth := 1, commitNext := true } log waiting with
    lastRun := some (.named 'a') }

/-- The host is told to strike. -/
def struck : HostCall Unit := .execute (.new strikeAction 0) {}

theorem striking_idle (text : String) (log : List (HostCall Unit)) :
    (strikingAt [] log []).advance? (tapeHost text).logged = none := rfl

theorem striking_runs (text : String) (queue : List Key) (log : List (HostCall Unit)) :
    (strikingAt (.char 'x' :: queue) log []).advance? (tapeHost text).logged =
      some (strikingAt queue log [.new strikeAction 0]) := by
  have within : (strikingAt (.char 'x' :: queue) log []).takeWithin (tapeHost text).logged 3
      .step = some (strikingAt queue log [.new strikeAction 0]) := rfl
  exact advance?_of_within (tapeHost text).logged (by simp [strikingAt, recordingAt]) within

theorem striking_acts (text : String) (queue : List Key) (log : List (HostCall Unit)) :
    (strikingAt queue log [.new strikeAction 0]).advance? (tapeHost text).logged =
      some (strikingAt queue (log ++ [struck]) []) := rfl

/-- Any number of strikes goes on undisturbed, and each is told. -/
theorem striking_undisturbed (text : String) (times : Nat) (log : List (HostCall Unit)) :
    Undisturbed (tapeHost text).logged (strikingAt (List.replicate times (.char 'x')) log []) := by
  induction times generalizing log with
  | zero => exact .of_settled (striking_idle text log)
  | succ times ih =>
      have runs : Calm (tapeHost text).logged
          (strikingAt (List.replicate (times + 1) (.char 'x')) log []) :=
        ⟨rfl, by rintro _ _ ⟨⟩⟩
      have acts : Calm (tapeHost text).logged
          (strikingAt (List.replicate times (.char 'x')) log [.new strikeAction 0]) :=
        ⟨rfl, by rintro _ _ ⟨⟩; rfl⟩
      exact (((ih _).step acts (striking_acts text _ log)).step runs (striking_runs text _ log))

theorem striking_settles (text : String) (times : Nat) (log : List (HostCall Unit)) :
    (strikingAt (List.replicate times (.char 'x')) log []).settle (tapeHost text).logged
      (2 * times) = some (strikingAt [] (log ++ List.replicate times struck) []) := by
  induction times generalizing log with
  | zero => simp [settle_of_settled _ (striking_idle text log)]
  | succ times ih =>
      rw [show 2 * (times + 1) = 2 * times + 1 + 1 by omega, List.replicate_succ,
        settle_of_advanced _ (striking_runs text _ log),
        settle_of_advanced _ (striking_acts text _ log), ih]
      simp [List.replicate_succ]

/-- The register holds one strike, and is run twice. -/
theorem strikes_replayed :
    let host := (tapeHost "x").logged
    let twice : ResolvedCommand := { replays with arguments := { count := 2 } }
    let idle := recordingAt {} [] []
    (idle.execute host twice).1 = true ∧ Undisturbed host (idle.dispatch host (.command twice)) ∧
      ∃ typed, Typed host idle [.char 'x', .char 'x'] typed ∧
        typed.world.2 = [struck, struck] := by
  intro host twice idle
  have keys : Key.ofText "x" = [.char 'x'] := by
    simp [Key.ofText, Key.readAll, Key.readOne, Key.readBracketed?]
  have started : idle.dispatch host (.command twice) =
      strikingAt (Recorder.repeated (Key.ofText "x") 2 []) [] [] := rfl
  have replicated : Recorder.repeated (Key.ofText "x") 2 [] = List.replicate 2 (.char 'x') := by
    rw [keys]
    rfl
  have undisturbed : Undisturbed host (idle.dispatch host (.command twice)) := by
    rw [started, replicated]
    exact striking_undisturbed "x" 2 []
  have table : idle.resolver.keys.NoOffsets :=
    (CommandKeys.noOffsets_empty.bind _ (by simp) (by decide)).bind _ (by simp) (by decide)
  have layered : idle.resolver.Layered := .of_empty rfl rfl Resolver.tidy_empty
  have named : Register.ofChar? 'a' = some (.named 'a', false) := by decide
  have succeeds : (idle.execute host twice).1 = true := rfl
  obtain ⟨replayed, typed, ⟨steps, settled⟩, typing, calls, _⟩ :=
    replay_typed (Host.agrees_refl (tapeHost "x")) (fun _ => rfl) (fun _ _ same => same) layered
      rfl rfl rfl table MappingStore.noOffsets_new rfl rfl named rfl succeeds undisturbed
  refine ⟨succeeds, undisturbed, typed, ?_, ?_⟩
  · rw [keys] at typing
    exact typing
  · rw [started, replicated] at settled
    have ends := striking_settles "x" 2 []
    rw [← calls, settle_unique host settled ends]
    rfl

/-! ## A mapping that waits for offsets -/

/-- The key `Z` is mapped to a command that waits for offsets. -/
def measuringEngine : Engine (Unit × List (HostCall Unit)) :=
  recordingEngine.withMappings
    { table := KeyTable.empty.insert .normal [.char 'Z'] ⟨0, {
        lhs := [.char 'Z'], rhs := .action Resolver.measure, modes := { normal := true },
        noremap := true }⟩ }

/-- The engine that waits for offsets. -/
def measuringAt (recorder : Recorder) (lastRun : Option Register) :
    Engine (Unit × List (HostCall Unit)) :=
  { measuringEngine with
    recorder
    lastRun
    resolver := { measuringEngine.resolver with
      pending := { awaiting := some (.offsets (.new Resolver.measure 0)) } } }

/-- The table has no command that waits for offsets, but a mapping has. The keys `Z<Esc>x`
strike when they are typed, and do nothing when they are run. -/
theorem measured_replay :
    let host := (tapeHost "Z<Esc>x").logged
    let replay := measuringEngine.dispatch host (.command replays)
    (measuringEngine.resolver.keys.NoOffsets ∧ measuringEngine.resolver.isPending = false ∧
      (measuringEngine.execute host replays).1 = true ∧ Undisturbed host replay) ∧
      (∃ steps replayed, replay.settle host steps = some replayed ∧ replayed.world.2 = []) ∧
      ∃ typed, Typed host measuringEngine (Key.ofText "Z<Esc>x") typed ∧
        typed.world.2 = [struck] := by
  intro host replay
  have keys : Key.ofText "Z<Esc>x" = [.char 'Z', .escape, .char 'x'] := by decide +kernel
  have table : measuringEngine.resolver.keys.NoOffsets :=
    (CommandKeys.noOffsets_empty.bind _ (by simp) (by decide)).bind _ (by simp) (by decide)
  let rest : Recorder := { queue := [.escape, .char 'x'], depth := 1, commitNext := true }
  have started : replay = { measuringEngine with
      recorder := { rest with queue := .char 'Z' :: rest.queue }
      lastRun := some (.named 'a') } := by
    have queued : Recorder.repeated (Key.ofText "Z<Esc>x") 1 [] = .char 'Z' :: rest.queue := by
      rw [keys]
      rfl
    rw [← queued]
    rfl
  have stops : (measuringAt rest (some (.named 'a'))).advance? host = none := rfl
  have runs : replay.advance? host = some (measuringAt rest (some (.named 'a'))) := by
    have within : replay.takeWithin host 3 .step = some (measuringAt rest (some (.named 'a'))) := by
      rw [started]
      rfl
    exact advance?_of_within host (by rw [started]; simp) within
  have calm : Calm host replay := by
    rw [started]
    exact ⟨rfl, by rintro _ _ ⟨⟩⟩
  refine ⟨⟨table, rfl, rfl, (Undisturbed.of_settled stops).step calm runs⟩, ?_, ?_⟩
  · exact ⟨1, _, (settle_of_advanced host runs 0).trans (settle_of_settled host stops 0), rfl⟩
  · rw [keys]
    have measures : measuringEngine.inputKey host 0 (.char 'Z') = some (measuringAt {} none) := by
      have within : measuringEngine.takeWithin host 3 (.key (.char 'Z')) =
          some (measuringAt {} none) := rfl
      exact inputKey_of_within host within rfl
    have leaves : (measuringAt {} none).inputKey host 0 .escape = some measuringEngine := rfl
    have strikes : measuringEngine.inputKey host 1 (.char 'x') = some { measuringEngine with
        recorder := { commitNext := true }, world := ((), [struck]) } := by
      have within : measuringEngine.takeWithin host 3 (.key (.char 'x')) =
          some { measuringEngine with
            resolver := { measuringEngine.resolver with
              events := [.command ⟨.new strikeAction 0, {}⟩] } } := rfl
      exact inputKey_of_within host within rfl
    exact ⟨_, .cons _ _ 0 measures (.cons _ _ 0 leaves (.cons _ _ 1 strikes (.nil _))), rfl⟩

end ModalInput.Engine
