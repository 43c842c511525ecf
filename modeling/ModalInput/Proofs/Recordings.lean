/-
# ModalInput.Proofs.Recordings -- the keys that a recording keeps

A recording must not keep the keys of the command that ends it, but it does not know
which these are.  So it goes by the moment at which commands are complete: a typed
key that is the first one after a complete command keeps all keys before it, and at
the end what was typed from such a key on is dropped.  What is noted here of a run is
therefore the typed keys, and between them that commands were completed (`Noted`),
and of this the recording keeps the keys before the last ones that were typed in a
row (`Noted.keptKeys`), in every run (`recorded_text`).

These are the keys up to the last complete command before the ending one exactly if
no command is completed while the ending one is typed.  But a mapping can hold keys
back, so that a command is completed by the first keys of the next one: then those
are kept, or the command itself is not (`heldBack_recorded`).

* `Recorder.Holds` -- what a recorder holds after some notes.
* `Stretch` -- a stretch of a run during which a recording goes on;
  `Stretch.holds` -- the recorder holds what was noted.
-/
import Mathlib.Data.List.DropRight
import ModalInput.Proofs.Turns

namespace ModalInput

set_option autoImplicit false

/-! ## Notes -/

/-- What matters to a recording. -/
inductive Noted where
  | typed (key : Key)
  /-- A command is complete. -/
  | completed
  deriving DecidableEq

namespace Noted

def isTyped : Noted → Bool
  | .typed _ => true
  | .completed => false

def key? : Noted → Option Key
  | .typed key => some key
  | .completed => none

/-- Every typed key. -/
def keys (history : List Noted) : List Key := history.filterMap key?

/-- The keys typed before the last complete command. -/
def completedKeys (history : List Noted) : List Key := keys (history.rdropWhile isTyped)

/-- The keys before the last ones that were typed in a row. -/
def keptKeys (history : List Noted) : List Key :=
  completedKeys (history.rdropWhile fun noted => !noted.isTyped)

/-- The last thing noted is a key. -/
def endsTyped (history : List Noted) : Bool := history.getLast?.any isTyped

variable (history : List Noted)

@[simp] theorem keys_typed (key : Key) : keys (history ++ [.typed key]) = keys history ++ [key] := by
  simp [keys, key?]

@[simp] theorem keys_completed : keys (history ++ [.completed]) = keys history := by
  simp [keys, key?]

@[simp] theorem completedKeys_typed (key : Key) :
    completedKeys (history ++ [.typed key]) = completedKeys history := by
  rw [completedKeys, List.rdropWhile_concat_pos _ _ _ rfl, completedKeys]

@[simp] theorem completedKeys_completed :
    completedKeys (history ++ [.completed]) = keys history := by
  rw [completedKeys, List.rdropWhile_concat_neg _ _ _ (by simp [isTyped]), keys_completed]

@[simp] theorem keptKeys_typed (key : Key) :
    keptKeys (history ++ [.typed key]) = completedKeys history := by
  rw [keptKeys, List.rdropWhile_concat_neg _ _ _ (by simp [isTyped]), completedKeys_typed]

@[simp] theorem keptKeys_completed : keptKeys (history ++ [.completed]) = keptKeys history := by
  rw [keptKeys, List.rdropWhile_concat_pos _ _ _ rfl, keptKeys]

@[simp] theorem endsTyped_typed (key : Key) : endsTyped (history ++ [.typed key]) = true := by
  simp [endsTyped, isTyped]

@[simp] theorem endsTyped_completed : endsTyped (history ++ [.completed]) = false := by
  simp [endsTyped, isTyped]

variable {history}

theorem completedKeys_of_complete (complete : endsTyped history = false) :
    completedKeys history = keys history := by
  rcases List.eq_nil_or_concat history with rfl | ⟨before, last, rfl⟩
  · rfl
  · rw [List.concat_eq_append] at complete ⊢
    cases last with
    | typed key => simp at complete
    | completed => simp

theorem keptKeys_of_typed (typing : endsTyped history = true) :
    keptKeys history = completedKeys history := by
  rcases List.eq_nil_or_concat history with rfl | ⟨before, last, rfl⟩
  · rfl
  · rw [List.concat_eq_append] at typing ⊢
    cases last with
    | typed key => simp
    | completed => simp at typing

theorem completedKeys_typing (earlier : List Noted) {later : List Noted}
    (typing : .completed ∉ later) :
    completedKeys (earlier ++ later) = completedKeys earlier := by
  induction later using List.reverseRecOn with
  | nil => rw [List.append_nil]
  | append_singleton more last ih =>
      cases last with
      | completed => simp at typing
      | typed key =>
          rw [← List.append_assoc, completedKeys_typed]
          exact ih fun member => typing (by simp [member])

/-- Once no more commands are completed, the keys before the first one that is typed
are the ones that count. -/
theorem keptKeys_typing (earlier : List Noted) (key : Key) {later : List Noted}
    (typing : .completed ∉ later) :
    keptKeys (earlier ++ .typed key :: later) = completedKeys earlier := by
  rcases List.eq_nil_or_concat later with rfl | ⟨more, last, rfl⟩
  · exact keptKeys_typed earlier key
  · cases last with
    | completed => simp at typing
    | typed last =>
        have before : .completed ∉ .typed key :: more := by
          simpa using fun member => typing (by simp [member])
        have ends : earlier ++ .typed key :: (more ++ [.typed last]) =
            (earlier ++ .typed key :: more) ++ [.typed last] := by simp
        rw [List.concat_eq_append, ends, keptKeys_typed, completedKeys_typing earlier before]

end Noted

/-! ## The recorder -/

namespace Recorder

/-- The same recording, whatever is to be run again. -/
structure SameTape (a b : Recorder) : Prop where
  recording : a.recording = b.recording
  commitNext : a.commitNext = b.commitNext
  committed : a.committed = b.committed
  held : a.held = b.held

/-- What a recorder that records has kept and what it holds back, after some notes. -/
structure Holds (recorder : Recorder) (target : Register × Bool) (history : List Noted) :
    Prop where
  recording : recorder.recording = some target
  committed : recorder.committed = Noted.keptKeys history
  all : recorder.committed ++ recorder.held = Noted.keys history
  commitNext : recorder.commitNext = !Noted.endsTyped history

theorem SameTape.refl (recorder : Recorder) : SameTape recorder recorder := ⟨rfl, rfl, rfl, rfl⟩

theorem execute_tape (recorder : Recorder) (keys : List Key) (times : Nat) :
    SameTape (recorder.execute keys times).1 recorder := by
  unfold execute
  split <;> exact ⟨rfl, rfl, rfl, rfl⟩

theorem SameTape.commandCompleted {a b : Recorder} (same : SameTape a b) :
    SameTape a.commandCompleted b.commandCompleted :=
  ⟨same.recording, rfl, same.committed, same.held⟩

theorem SameTape.interrupt {a b : Recorder} (same : SameTape a b) : SameTape a.interrupt b :=
  ⟨same.recording, same.commitNext, same.committed, same.held⟩

theorem SameTape.holds {a b : Recorder} (same : SameTape a b) {target : Register × Bool}
    {history : List Noted} (holds : Holds b target history) : Holds a target history :=
  ⟨same.recording.trans holds.recording, same.committed.trans holds.committed,
    by rw [same.committed, same.held]; exact holds.all, same.commitNext.trans holds.commitNext⟩

variable {recorder : Recorder} {target : Register × Bool} {history : List Noted}

/-- What a typed key does to a recording: it comes behind the others, and what was held
back is kept if a command is complete. -/
theorem typed_tape (recording : recorder.recording = some target) (key : Key) :
    SameTape (recorder.typed key) {
      recorder with
      committed := if recorder.commitNext then recorder.committed ++ recorder.held
        else recorder.committed
      held := if recorder.commitNext then [key] else recorder.held ++ [key]
      commitNext := false } := by
  unfold Recorder.typed
  dsimp only
  rw [if_pos (by simp [recording])]
  cases recorder.commitNext <;> exact ⟨rfl, rfl, rfl, rfl⟩

/-- A key keeps what was held back if the last thing noted was a complete command. -/
theorem Holds.typed (holds : Holds recorder target history) (key : Key) :
    Holds (recorder.typed key) target (history ++ [.typed key]) := by
  refine (typed_tape holds.recording key).holds ?_
  rw [holds.commitNext]
  cases typing : Noted.endsTyped history with
  | false =>
      refine ⟨holds.recording, ?_, by simp [holds.all], by simp⟩
      rw [Noted.keptKeys_typed, Noted.completedKeys_of_complete typing]
      exact holds.all
  | true =>
      refine ⟨holds.recording, ?_, ?_, by simp⟩
      · rw [Noted.keptKeys_typed, ← Noted.keptKeys_of_typed typing]
        exact holds.committed
      · show recorder.committed ++ (recorder.held ++ [key]) = _
        rw [← List.append_assoc, holds.all, ← Noted.keys_typed]

theorem Holds.commandCompleted (holds : Holds recorder target history) :
    Holds recorder.commandCompleted target (history ++ [.completed]) :=
  ⟨holds.recording, by rw [Noted.keptKeys_completed]; exact holds.committed,
    by rw [Noted.keys_completed]; exact holds.all, by simp [Recorder.commandCompleted]⟩

end Recorder

/-! ## Engines -/

namespace Engine

variable {σ κ : Type} {host : Host σ κ}

/-- What a turn is to a recording. -/
def Turn.noted (turn : Turn) (engine : Engine σ) : List Noted :=
  match turn, engine.resolver.events with
  | .key typed, _ => [.typed typed]
  | .step, .command _ :: _ => [.completed]
  | _, _ => []

/-- A command that is run during a recording leaves what is recorded, or ends the
recording and puts it into its register. -/
theorem dispatch_running (host : Host σ κ) (engine : Engine σ) {register : Register}
    {append : Bool}
    (running : engine.recorder.recording = some (register, append)) (resolved : ResolvedCommand) :
    Recorder.SameTape (engine.dispatch host (.command resolved)).recorder
        engine.recorder.commandCompleted ∨
      (engine.dispatch host (.command resolved)).recorder.recording = none ∧
        (engine.dispatch host (.command resolved)).world =
          host.setRegister register (Key.textAll engine.recorder.committed) append
            engine.world := by
  have ran := execute_cases host engine resolved
  have noted (succeeded : Bool) {next : Engine σ}
      (same : Recorder.SameTape next.recorder engine.recorder) :
      Recorder.SameTape
        (if succeeded then { next with recorder := next.recorder.commandCompleted }
          else ({ next with recorder := next.recorder.commandCompleted } : Engine σ).stopKeys).recorder
        engine.recorder.commandCompleted := by
    cases succeeded with
    | true => exact same.commandCompleted
    | false => exact same.commandCompleted.interrupt
  unfold dispatch
  dsimp only
  generalize engine.execute host resolved = outcome at ran ⊢
  cases ran with
  | @acts succeeded next acts off =>
      exact .inl (noted succeeded (by rw [acts.frame.recorder]; exact .refl _))
  | stops register' append' toggles running' =>
      rw [running] at running'
      cases running'
      refine .inr ⟨?_, rfl⟩
      show engine.recorder.finish.1.recording = none
      simp only [Recorder.finish, running]
  | starts register' append' toggles off =>
      rw [running] at off
      cases off
  | reruns register' times replays other =>
      exact .inl (noted true (Recorder.execute_tape _ _ _))
  | @overruns next register' replays other acts =>
      refine .inl (noted false ?_)
      rw [acts.frame.recorder]
      exact (Recorder.SameTape.refl _).interrupt

/-- A command that starts a recording. -/
theorem dispatch_starts (host : Host σ κ) (engine : Engine σ)
    (off : engine.recorder.recording = none)
    {resolved : ResolvedCommand} {target : Register × Bool}
    (on : (engine.dispatch host (.command resolved)).recorder.recording = some target) :
    Recorder.Holds (engine.dispatch host (.command resolved)).recorder target [] := by
  have ran := execute_cases host engine resolved
  have still (succeeded : Bool) {next : Engine σ} (same : next.recorder.recording = none)
      (on : (if succeeded then { next with recorder := next.recorder.commandCompleted }
        else ({ next with recorder := next.recorder.commandCompleted } : Engine σ).stopKeys
      ).recorder.recording = some target) : False := by
    cases succeeded <;> exact Option.noConfusion rfl (heq_of_eq (same.symm.trans on))
  unfold dispatch at on ⊢
  dsimp only at on ⊢
  generalize engine.execute host resolved = outcome at ran on ⊢
  cases ran with
  | @acts succeeded next acts toggled =>
      exact (still succeeded (by rw [acts.frame.recorder]; exact off) on).elim
  | stops register append toggles running =>
      rw [off] at running
      cases running
  | starts register append toggles off => exact ⟨on, rfl, rfl, rfl⟩
  | reruns register times replays other =>
      exact (still true ((Recorder.execute_tape _ _ _).recording.trans off) on).elim
  | @overruns next register replays other acts =>
      exact (still false (by rw [acts.frame.recorder]; exact off) on).elim

theorem modeChanged_recorder (engine : Engine σ) (step : ModeStep) :
    (engine.dispatch host (.modeChanged step)).recorder = engine.recorder :=
  (modeChanged_aside host engine step).recorder

namespace Stride

variable {engine next : Engine σ} {target : Register × Bool}

/-- A step that starts a recording. -/
theorem starts (stride : Stride host engine next) (off : engine.recorder.recording = none)
    (on : next.recorder.recording = some target) : Recorder.Holds next.recorder target [] := by
  have still (same : next.recorder.recording = engine.recorder.recording) :
      Recorder.Holds next.recorder target [] := by
    rw [same, off] at on
    cases on
  cases stride with
  | dispatches event rest waits =>
      cases event with
      | modeChanged step => exact still (congrArg Recorder.recording (modeChanged_recorder _ step))
      | failed error => exact still rfl
      | command resolved => exact dispatch_starts host (engine.withEvents rest) off on
  | replays key rest quiet queue => exact still rfl
  | interrupts quiet stops => exact still rfl

/-- A step during a recording. -/
theorem goesOn (stride : Stride host engine next) {history : List Noted}
    (holds : Recorder.Holds engine.recorder target history)
    (on : next.recorder.recording ≠ none) :
    Recorder.Holds next.recorder target (history ++ Turn.step.noted engine) := by
  have unchanged (nothing : Turn.step.noted engine = [])
      (same : Recorder.SameTape next.recorder engine.recorder) :
      Recorder.Holds next.recorder target (history ++ Turn.step.noted engine) := by
    rw [nothing, List.append_nil]
    exact same.holds holds
  cases stride with
  | dispatches event rest waits =>
      cases event with
      | modeChanged step =>
          refine unchanged (by simp [Turn.noted, waits]) ?_
          rw [modeChanged_recorder]
          exact .refl _
      | failed error =>
          exact unchanged (by simp [Turn.noted, waits]) (Recorder.SameTape.refl _).interrupt
      | command resolved =>
          have noted : Turn.step.noted engine = [.completed] := by simp [Turn.noted, waits]
          rw [noted]
          rcases dispatch_running host (engine.withEvents rest) holds.recording resolved with
            same | ⟨ended, _⟩
          · exact same.holds holds.commandCompleted
          · exact absurd ended on
  | replays key rest quiet queue =>
      exact unchanged (by simp [Turn.noted, quiet]) ⟨rfl, rfl, rfl, rfl⟩
  | interrupts quiet stops =>
      exact unchanged (by simp [Turn.noted, quiet]) (Recorder.SameTape.refl _).interrupt

/-- A step that ends a recording. -/
theorem ends (stride : Stride host engine next) {register : Register} {append : Bool}
    (running : engine.recorder.recording = some (register, append))
    (off : next.recorder.recording = none) :
    next.world =
      host.setRegister register (Key.textAll engine.recorder.committed) append engine.world := by
  have still {recorder : Recorder} (same : recorder.recording = engine.recorder.recording) :
      recorder.recording ≠ none := by
    rw [same, running]
    simp
  cases stride with
  | dispatches event rest waits =>
      cases event with
      | modeChanged step =>
          exact absurd off (still (congrArg Recorder.recording (modeChanged_recorder _ step)))
      | failed error => exact absurd off (still rfl)
      | command resolved =>
          rcases dispatch_running host (engine.withEvents rest) running resolved with
            same | ⟨_, written⟩
          · exact absurd off (still same.recording)
          · exact written
  | replays key rest quiet queue => exact absurd off (still rfl)
  | interrupts quiet stops => exact absurd off (still rfl)

end Stride

/-! ## Recordings -/

/-- A stretch of a run, and what is noted in it, while a recording goes on. -/
inductive Stretch (host : Host σ κ) (start : Engine σ) : List Noted → Engine σ → Prop where
  | start : Stretch host start [] start
  | turn (turn : Turn) {history : List Noted} {engine : Engine σ}
      (before : Stretch host start history engine)
      (on : (turn.take host engine).recorder.recording ≠ none) :
      Stretch host start (history ++ turn.noted engine) (turn.take host engine)

theorem Stretch.next {start engine next : Engine σ} {history notes : List Noted}
    (before : Stretch host start history engine) {turn : Turn}
    (taken : turn.take host engine = next) (noted : turn.noted engine = notes)
    (on : next.recorder.recording ≠ none) : Stretch host start (history ++ notes) next := by
  subst taken noted
  exact .turn turn before on

/-- A turn during a recording. -/
theorem take_holds {engine : Engine σ} {target : Register × Bool} {history : List Noted}
    (holds : Recorder.Holds engine.recorder target history) (turn : Turn)
    (on : (turn.take host engine).recorder.recording ≠ none) :
    Recorder.Holds (turn.take host engine).recorder target (history ++ turn.noted engine) := by
  have unchanged (nothing : turn.noted engine = [])
      (same : Recorder.SameTape (turn.take host engine).recorder engine.recorder) :
      Recorder.Holds (turn.take host engine).recorder target (history ++ turn.noted engine) := by
    rw [nothing, List.append_nil]
    exact same.holds holds
  have acted {next : Engine σ} (acts : Acts host False engine next) :
      Recorder.SameTape next.recorder engine.recorder := by
    rw [acts.frame.recorder]
    exact .refl _
  cases turn with
  | key key => exact holds.typed key
  | step =>
      cases advanced : engine.advance? host with
      | none =>
          have quiet := ((advance?_eq_none_iff host engine).mp advanced).1
          refine unchanged (by simp [Turn.noted, quiet]) ?_
          simp only [Turn.take, advanced, Option.getD_none]
          exact .refl _
      | some next =>
          have stepped : Turn.step.take host engine = next := by simp [Turn.take, advanced]
          rw [stepped] at on ⊢
          exact (advance?_stride host advanced).goesOn holds on
  | line line => exact unchanged rfl (acted (executeLine_acts host engine line))
  | source text => exact unchanged rfl (acted (source_acts host engine text))
  | _ => exact unchanged rfl ⟨rfl, rfl, rfl, rfl⟩

theorem Stretch.holds {start engine : Engine σ} {history : List Noted}
    (stretch : Stretch host start history engine) {target : Register × Bool}
    (fresh : Recorder.Holds start.recorder target []) :
    Recorder.Holds engine.recorder target history := by
  induction stretch with
  | start => exact fresh
  | turn turn before on ih => exact take_holds ih turn on

/-- In every run, the text that a recording puts into its register is that of the keys
before the last ones that were typed in a row; and these are the keys up to the last
complete command before the ending one, if no command is completed from the first key
of that one on. -/
theorem recorded_text (host : Host σ κ) {before start last after : Engine (σ × List (HostCall κ))}
    {register : Register} {append : Bool} {history : List Noted}
    (off : before.recorder.recording = none)
    (starts : before.advance? host.logged = some start)
    (on : start.recorder.recording = some (register, append))
    (stretch : Stretch host.logged start history last)
    (ends : last.advance? host.logged = some after) (ended : after.recorder.recording = none) :
    after.world.2 = last.world.2 ++
        [.setRegister register (Key.textAll (Noted.keptKeys history)) append] ∧
      ∀ earlier key later, history = earlier ++ .typed key :: later → .completed ∉ later →
        Noted.keptKeys history = Noted.completedKeys earlier := by
  constructor
  · have holds := stretch.holds ((advance?_stride host.logged starts).starts off on)
    have written := (advance?_stride host.logged ends).ends holds.recording ended
    rw [holds.committed] at written
    rw [written]
    rfl
  · rintro earlier key later rfl typing
    exact Noted.keptKeys_typing earlier key typing

/-! ## A command struck between two others -/

/-- Starts and ends a recording. -/
def recordAction : Action :=
  { name := "record", argument := .character, builtin := some .toggleRecording }

def strikeAction : Action := { name := "strike" }

/-- The key `q` records, and `x` strikes. -/
def recordingEngine : Engine (Unit × List (HostCall Unit)) where
  world := ((), [])
  options := {}
  resolver := {
    keys := (CommandKeys.empty.bind { normal := true } [.char 'q'] recordAction).bind
      { normal := true } [.char 'x'] strikeAction }

/-- With some calls written down, and some commands that wait. -/
def recordingAt (recorder : Recorder) (log : List (HostCall Unit)) (waiting : List Command) :
    Engine (Unit × List (HostCall Unit)) :=
  { recordingEngine with
    recorder
    world := ((), log)
    resolver := { recordingEngine.resolver with
      recording := recorder.recording.isSome
      events := waiting.map fun command => .command ⟨command, { count := command.count }⟩ } }

/-- Recording into the register `a`. -/
def recordingA (committed held : List Key) (commitNext : Bool) : Recorder where
  recording := some (.named 'a', false)
  committed := committed
  held := held
  commitNext := commitNext

/-- The keys `qaxq`, from the moment in which the recording is to start. -/
theorem strike_recorded :
    let struck : HostCall Unit := .execute (.new strikeAction 0) {}
    let first := recordingAt {} [] [(Command.new recordAction 0).withArgument (.character 'a')]
    let start := recordingAt (recordingA [] [] true) [] []
    let last := recordingAt (recordingA [.char 'x'] [.char 'q'] false) [struck]
      [.new recordAction 0]
    let after := recordingAt { commitNext := true }
      [struck, .setRegister (.named 'a') (Key.textAll [.char 'x']) false] []
    (first.recorder.recording = none ∧ first.advance? plainHost.logged = some start ∧
      start.recorder.recording = some (.named 'a', false) ∧
      Stretch plainHost.logged start [.typed (.char 'x'), .completed, .typed (.char 'q')] last ∧
      last.advance? plainHost.logged = some after ∧ after.recorder.recording = none) ∧
      after.world.2 = last.world.2 ++
        [.setRegister (.named 'a') (Key.textAll (Noted.completedKeys
          [.typed (.char 'x'), .completed])) false] := by
  intro struck first start last after
  have typed : (Turn.key (.char 'x')).take plainHost.logged start =
      recordingAt (recordingA [] [.char 'x'] false) [] [.new strikeAction 0] := by
    have within : start.takeWithin plainHost.logged 3 (.key (.char 'x')) = some _ := rfl
    exact take_of_within plainHost.logged within
  have ran : Turn.step.take plainHost.logged
      (recordingAt (recordingA [] [.char 'x'] false) [] [.new strikeAction 0]) =
        recordingAt (recordingA [] [.char 'x'] true) [struck] [] := rfl
  have ending : (Turn.key (.char 'q')).take plainHost.logged
      (recordingAt (recordingA [] [.char 'x'] true) [struck] []) = last := by
    have within : (recordingAt (recordingA [] [.char 'x'] true) [struck] []).takeWithin
        plainHost.logged 3 (.key (.char 'q')) = some _ := rfl
    exact take_of_within plainHost.logged within
  have stretch : Stretch plainHost.logged start
      [.typed (.char 'x'), .completed, .typed (.char 'q')] last :=
    ((Stretch.start.next typed rfl (by simp [recordingAt, recordingA])).next ran rfl
      (by simp [recordingAt, recordingA])).next ending rfl (by simp [last, recordingAt, recordingA])
  have starts : first.advance? plainHost.logged = some start := rfl
  have ends : last.advance? plainHost.logged = some after := rfl
  refine ⟨⟨rfl, starts, rfl, stretch, ends, rfl⟩, ?_⟩
  obtain ⟨written, kept⟩ := recorded_text plainHost rfl starts rfl stretch ends rfl
  rw [written, kept [.typed (.char 'x'), .completed] (.char 'q') [] rfl (by simp)]

/-! ## Keys that a mapping holds back -/

/-- The keys `xy` are mapped. -/
def heldBackMapping : Mapping where
  lhs := [.char 'x', .char 'y']
  rhs := .keys [.char 'j']
  modes := { normal := true }
  noremap := true

def heldBackEngine : Engine (Unit × List (HostCall Unit)) :=
  recordingEngine.withMappings
    { table := KeyTable.empty.insert .normal [.char 'x', .char 'y'] ⟨0, heldBackMapping⟩ }

/-- The keys `qax3q` and `qaxq`.  The `x` waits for a `y`, and strikes when the next
key is typed.  A `3` is the count of the command that ends the recording and is
recorded all the same; a `q` ends it at once, and the strike is lost. -/
theorem heldBack_recorded :
    let typed := [.key (.char 'q'), .key (.char 'a'), .step, .key (.char 'x')]
    let counted := typed ++ [.key (.char '3'), .step, .key (.char 'q')]
    let struck : HostCall Unit := .execute (.new strikeAction 0) {}
    (heldBackEngine.run plainHost.logged counted).resolver.events =
        [.command ⟨.new recordAction 3, { count := 3 }⟩] ∧
      (heldBackEngine.run plainHost.logged (counted ++ [.step])).world.2 =
        [struck, .setRegister (.named 'a') (Key.textAll [.char 'x', .char '3']) false] ∧
      (heldBackEngine.run plainHost.logged (typed ++ [.key (.char 'q'), .step, .step])).world.2 =
        [struck, .setRegister (.named 'a') (Key.textAll []) false] ∧
      Key.textAll [.char 'x', .char '3'] ≠ Key.textAll [.char 'x'] ∧
      Key.textAll [] ≠ Key.textAll [.char 'x'] := by
  intro typed counted struck
  have waits : (heldBackEngine.runWithin plainHost.logged 6 counted).map
      (fun engine => engine.resolver.events) =
        some [.command ⟨.new recordAction 3, { count := 3 }⟩] := rfl
  have kept : (heldBackEngine.runWithin plainHost.logged 6 (counted ++ [.step])).map
      (fun engine => engine.world.2) = some [struck,
        .setRegister (.named 'a') (Key.textAll [.char 'x', .char '3']) false] := rfl
  have lost : (heldBackEngine.runWithin plainHost.logged 6
      (typed ++ [.key (.char 'q'), .step, .step])).map (fun engine => engine.world.2) =
        some [struck, .setRegister (.named 'a') (Key.textAll []) false] := rfl
  refine ⟨eq_of_runWithin _ waits, eq_of_runWithin _ kept, eq_of_runWithin _ lost, ?_, ?_⟩
  · rw [Key.textAll, Key.textAll, Ne, String.ofList_inj]
    exact (by decide : ['x', '3'] ≠ ['x'])
  · rw [Key.textAll, Key.textAll, Ne, String.ofList_inj]
    exact (by decide : [] ≠ ['x'])

end Engine

end ModalInput
