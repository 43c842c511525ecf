/-
# ModalInput.Proofs.Escaping -- the way back to Normal mode

With the default keys and no mappings, Escape always leads back: while a command is
pending, it drops what was typed of it, and nothing else (`Homed.inputKey_pending`);
while none is, it leads to Normal mode, or stays there (`Homed.inputKey_idle`).  So two
of them are enough, wherever they are typed (`escape_leaves`).  The same goes for Control
and C, although the default table does not bind it in Normal mode.

What makes this true in every state is that a temporary mode is there only while a
command is pending, so a mode in which nothing is pending lasts, and the default table
binds both keys in every lasting mode but Normal.

* `Bare` -- no mapping, no trail, and no key that waits: a typed key goes to the command
  layer at once.
* `commandKey_escape`, `commandKey_leaves` -- what the command layer makes of the keys.
-/
import ModalInput.Proofs.CommandLineMode
import ModalInput.Proofs.DefaultKeys
import ModalInput.Proofs.Transparency

namespace ModalInput

set_option autoImplicit false

/-- Normal mode has one state. -/
theorem ModeState.eq_normal {state : ModeState} (mode : state.mode = .normal) :
    state = .ofMode .normal := by
  rw [← ModeState.of_mode_submode state, mode]
  rfl

/-- The spelling of Escape with Control. -/
def Key.controlC : Key := .of (.char 'c') .onlyControl

/-- The keys that lead back to Normal mode. -/
def Key.Leaves (key : Key) : Prop := key = .escape ∨ key = .controlC

theorem Key.Leaves.isEscape {key : Key} (leaves : key.Leaves) : key.isEscape = true := by
  rcases leaves with rfl | rfl <;> rfl

/-- A key that is Escape confirms no line. -/
theorem Key.not_isEnter {key : Key} (escapes : key.isEscape = true) : key.isEnter = false := by
  unfold isEscape at escapes
  unfold isEnter
  split at escapes
  · rename_i code
    rw [code]
  · rename_i code
    rw [code]
    rfl
  · cases escapes

namespace CommandKeys

/-- Both keys are bound where text is typed or selected. -/
theorem default_exits : ∀ mode ∈ [Mode.insert, .replace, .visual, .select],
    ∀ key ∈ [Key.escape, .controlC],
      CommandKeys.default.lookup (.of mode) [key] = .complete (.ofModeChange .normal
        (if mode.isSelecting then "visual.exit" else "insert.exit")) := by
  simp only [ne_eq, List.cons_ne_nil, not_false_eq_true, lookup_default]
  decide +kernel

/-- In Normal mode only one of them is. -/
theorem default_stays :
    CommandKeys.default.lookup .normal [.escape] =
        .complete (.ofSingle .otherReadonly "normal.escape") ∧
      CommandKeys.default.lookup .normal [.controlC] = .unmapped := by
  simp only [ne_eq, List.cons_ne_nil, not_false_eq_true, lookup_default]
  decide +kernel

end CommandKeys

namespace Resolver

/-! ## The command layer -/

variable (options : OptionView) {r : Resolver} {key : Key}

/-- While a command is pending, and it does not wait for offsets, Escape drops it. -/
theorem commandKey_escape (escapes : key.isEscape = true) (pending : r.pending.isEmpty = false)
    (noOffsets : r.awaitsOffsets = false) : r.commandKey options key = r.abort := by
  unfold commandKey
  split
  · rename_i awaiting awaits
    cases awaiting with
    | register => simp only [argumentKey, registerKey, escapes, if_true]; rfl
    | character command => simp only [argumentKey, characterKey, escapes, if_true]; rfl
    | line command prompt typed =>
        simp only [argumentKey, lineKey, Key.not_isEnter escapes, escapes, Bool.false_eq_true,
          if_false, Bool.true_or, if_true]
        rfl
    | offsets command =>
        simp [awaitsOffsets, PendingCommand.awaitsOffsets, awaits] at noOffsets
  · rw [if_pos (by simp [escapes, pending])]

/-- While no command is pending, the keys are looked up in the table. -/
theorem commandKey_idle (leaves : key.Leaves) (idle : r.pending.isEmpty = true) :
    r.commandKey options key = lookUp options (r.gathered key) := by
  have uncounted (pending : PendingCommand) : countWith? pending key = none := by
    rcases leaves with rfl | rfl <;> rfl
  have unsigned : key.char? = none := by
    rcases leaves with rfl | rfl <;> rfl
  have empty := idle
  simp only [PendingCommand.isEmpty, Bool.and_eq_true, Option.isNone_iff_eq_none] at empty
  obtain ⟨⟨⟨_, operator⟩, _⟩, awaiting⟩ := empty
  have table : tableKey options (r.noted key) key = lookUp options (r.gathered key) :=
    if_neg (by simp [PendingCommand.repeatsOperator, noted, operator])
  unfold commandKey
  split
  · rename_i other awaits
    rw [awaiting] at awaits
    cases awaits
  · rw [if_neg (by simp [idle])]
    dsimp only
    split
    · rw [uncounted]
      dsimp only
      rw [if_neg (by simp [unsigned])]
      exact table
    · exact table

/-- An action that needs nothing more. -/
theorem commandResolved_ready {action : Action} (plain : action.argument = .none)
    (keys : List Key) :
    r.commandResolved options action keys =
      r.counted.argumentDone options (r.commandOf action) := by
  refine commandResolved_finishes options r action keys (fun starts => ?_) (.inl plain)
  have operator := starts.2.1
  simp [Action.isOperator, plain] at operator

/-- It is the whole command while no operator waits. -/
theorem commandResolved_plain {action : Action} (plain : action.argument = .none)
    (nothing : r.pending.operator = none) (keys : List Key) :
    r.commandResolved options action keys = r.counted.complete options (r.commandOf action) := by
  rw [commandResolved_ready options plain]
  simp only [argumentDone, operator_counted, nothing]

/-- A command that asks for Normal mode leads there. -/
theorem complete_exits {command : Command} (asks : command.action.modeChange = .normal) :
    (r.complete options command).modes = { state := .ofMode .normal } := by
  show (applyModeChange options _ command).modes = _
  unfold applyModeChange
  rw [asks]
  rfl

/-- A command without flags that asks for no mode leaves a mode without a selection as it
is. -/
theorem complete_stays {command : Command} (asks : command.action.modeChange = .none)
    (plain : command.flags = {}) (unselected : r.modes.mode.isSelecting = false) :
    (r.complete options command).modes = r.modes := by
  have same : r.applyKeymodel options command = r := by
    simp [applyKeymodel, ModeStack.keymodelTarget?, plain]
  show (applyModeChange options ((r.applyKeymodel options command).emit _) command).modes = _
  rw [same]
  unfold applyModeChange
  rw [asks]
  simp [emit, unselected]

/-- Keys that are an action which needs nothing more, while no operator waits. -/
theorem lookUp_plain {action : Action} (plain : action.argument = .none)
    (nothing : r.pending.operator = none)
    (found : r.keys.lookup (.of r.modes.mode) r.pending.keys = .complete action) :
    lookUp options r = r.released.counted.complete options (r.released.commandOf action) := by
  rw [← commandResolved_plain (r := r.released) options plain nothing r.pending.keys]
  unfold lookUp
  rw [found]
  rfl

/-- A single key that is unknown, and types no character. -/
theorem lookUp_unknown (typed : r.pending.keys = [key]) (nothing : r.pending.held = none)
    (whole : key.decompose? = none) (typeless : typingAction? r.modes.mode = none)
    (found : r.keys.lookup (.of r.modes.mode) r.pending.keys = .unmapped) :
    lookUp options r = r.abort := by
  unfold lookUp
  rw [found]
  dsimp only
  unfold unknownKeys
  rw [if_neg (by simp [nothing]), typed]
  dsimp only
  unfold unknownKey
  rw [whole]
  dsimp only
  rw [typeless]
  rfl

/-- A command that is told leaves the keys that wait. -/
theorem typeahead_complete_counted (command : Command) :
    (r.released.counted.complete options command).typeahead = r.typeahead := by
  rw [(Quiet.complete options _ command).typeahead]
  unfold counted
  split <;> rfl

/-- Where a mode lasts, both keys lead to Normal mode; nothing is pending there, and the
keys that wait still do. -/
theorem lookUp_leaves (keys : r.keys = .default) (lasting : r.modes.Lasting)
    (typed : r.pending.keys = [key]) (operator : r.pending.operator = none)
    (held : r.pending.held = none) (leaves : key.Leaves) :
    (lookUp options r).modes = { state := .ofMode .normal } ∧
      (lookUp options r).pending = {} ∧ (lookUp options r).typeahead = r.typeahead := by
  by_cases normal : r.modes.mode = .normal
  · have there : r.modes = { state := .ofMode .normal } := by
      have parts : r.modes = ⟨r.modes.state, r.modes.saved⟩ := rfl
      rw [parts, lasting.alone, ModeState.eq_normal normal]
    have unselected : r.modes.mode.isSelecting = false := by
      rw [normal]
      rfl
    rcases leaves with rfl | rfl
    · have found : r.keys.lookup (.of r.modes.mode) r.pending.keys =
          .complete (.ofSingle .otherReadonly "normal.escape") := by
        rw [keys, normal, typed]
        exact CommandKeys.default_stays.1
      rw [lookUp_plain options rfl operator found]
      refine ⟨?_, rfl, typeahead_complete_counted options _⟩
      rw [complete_stays options]
      · rw [modes_counted]
        exact there
      · rw [commandOf_action]
        rfl
      · rw [commandOf_flags]
        rfl
      · rw [modes_counted]
        exact unselected
    · have found : r.keys.lookup (.of r.modes.mode) r.pending.keys = .unmapped := by
        rw [keys, normal, typed]
        exact CommandKeys.default_stays.2
      rw [lookUp_unknown options typed held rfl (by rw [normal]; rfl) found]
      refine ⟨?_, rfl, rfl⟩
      show r.modes.popAll.1 = _
      rw [there]
      rfl
  · have lasts := lasting.lasts
    have elsewhere : r.modes.mode ∈ [Mode.insert, .replace, .visual, .select] := by
      cases mode : r.modes.state.mode with
      | normal => exact absurd mode normal
      | commandLine => rw [mode] at lasts; cases lasts
      | operatorPending => rw [mode] at lasts; cases lasts
      | _ => simp [ModeStack.mode, mode]
    have one : key ∈ [Key.escape, .controlC] := by
      rcases leaves with rfl | rfl <;> simp
    have found := CommandKeys.default_exits _ elsewhere key one
    rw [← keys, ← typed] at found
    rw [lookUp_plain options rfl operator found]
    refine ⟨complete_exits options ?_, rfl, typeahead_complete_counted options _⟩
    rw [commandOf_action]
    rfl

/-- Where a mode lasts and nothing is pending, both keys lead to Normal mode, and nothing
is pending there, either. -/
theorem commandKey_leaves (keys : r.keys = .default) (lasting : r.modes.Lasting)
    (tidy : Tidy r.pending) (leaves : key.Leaves) (idle : r.pending.isEmpty = true) :
    (r.commandKey options key).modes = { state := .ofMode .normal } ∧
      (r.commandKey options key).pending = {} ∧
      (r.commandKey options key).typeahead = r.typeahead := by
  rw [commandKey_idle options leaves idle]
  simp only [PendingCommand.isEmpty, Bool.and_eq_true, List.isEmpty_iff,
    Option.isNone_iff_eq_none] at idle
  obtain ⟨⟨⟨⟨_, typed⟩, operator⟩, _⟩, _⟩ := idle
  have alone : (r.gathered key).pending.keys = [key] := congrArg (· ++ [key]) typed
  exact lookUp_leaves options (r := r.gathered key) keys lasting alone operator
    (tidy.not_held typed) leaves

/-! ## Without mappings -/

variable {σ : Type} (evaluate : Evaluator σ)

/-- What can happen to a resolver that gets no mappings: a mode that is set from outside
lasts. -/
def UnmappedOperation : Operation σ → Prop
  | .setMode state => state.mode.isTemporary = false
  | .setMappings _ => False
  | _ => True

/-- The default keys and no mappings: keys go to the command layer at once, and none is
left waiting. -/
structure Bare (r : Resolver) : Prop where
  keys : r.keys = .default
  mappings : r.mappings = {}
  direct : Direct r []

namespace Bare

theorem default : Bare .default :=
  ⟨rfl, rfl, rfl, rfl, rfl, CommandKeys.default_noOffsets, tidy_empty, noOffsets_empty⟩

/-- The parts of the command layer change. -/
theorem of_direct {next : Resolver} (bare : Bare r) (moves : Moves options r next)
    (direct : Direct next []) : Bare next := by
  obtain ⟨keys, mappings, _⟩ := moves.tables
  exact ⟨keys.trans bare.keys, mappings.trans bare.mappings, direct⟩

/-- A direct resolver stays direct when it looks at the keys that wait. -/
theorem direct_process {waiting : List Key} (mappings : r.mappings = {})
    (direct : Direct r waiting) (world : σ) :
    Direct (process options evaluate r world).1 [] := by
  obtain ⟨settled, done, same⟩ := direct.settles options evaluate world
  have alone : r.framed ⟨{}, [], []⟩ = r := by rw [framed_nil, ← mappings]
  have processed := same ⟨{}, [], []⟩
  rw [alone, framed_nil] at processed
  rw [processed, process_of_empty options evaluate (r := { settled with mappings := {} })
    done.typeahead]
  exact ⟨done.typeahead, done.trail, done.trailMatch, done.table, done.tidy, done.noOffsets⟩

/-- A key is looked at by the command layer only. -/
theorem step?_typed (bare : Bare r) (key : Key) (world : σ) :
    step? options evaluate { r with typeahead := [.mappable key 0] } world =
      some (r.commandKey options key, world) := by
  have unmapped := bare.direct.step?_unmapped options evaluate key world
  rw [← bare.mappings] at unmapped
  exact unmapped

/-- A key after which no other waits. -/
theorem inputKey_eq (bare : Bare r) {key : Key}
    (empty : (r.commandKey options key).typeahead = []) (world : σ) :
    inputKey options evaluate r world key = (r.commandKey options key, world) := by
  rw [Resolver.inputKey_eq options evaluate bare.direct.noOffsets.awaits bare.direct.typeahead]
  exact process_of_last options evaluate (bare.step?_typed options evaluate key world) empty

theorem inputKey (bare : Bare r) (key : Key) (world : σ) :
    Bare (inputKey options evaluate r world key).1 := by
  refine bare.of_direct options (inputKey_moves options evaluate r world key) ?_
  rw [Resolver.inputKey_eq options evaluate bare.direct.noOffsets.awaits bare.direct.typeahead,
    process_of_step options evaluate (bare.step?_typed options evaluate key world)]
  obtain ⟨waiting, direct⟩ := (bare.direct.queue key).commandKey options
  have taken : ({ r with typeahead := [].map Queued.literal } : Resolver) = r := by
    rw [← bare.direct.typeahead]
  rw [taken] at direct
  have same := surroundings_commandKey options r key
  exact direct_process options evaluate ((congrArg Surroundings.mappings same).trans bare.mappings)
    direct world

/-- The held command runs, and the keys behind it are looked at. -/
theorem fireHeld (bare : Bare r) (world : σ) :
    Direct (process options evaluate (r.fireHeld options) world).1 [] := by
  have same := surroundings_fireHeld options r
  obtain ⟨waiting, typeahead⟩ : ∃ waiting : List Key,
      (r.fireHeld options).typeahead = waiting.map .literal := by
    unfold Resolver.fireHeld
    split
    · exact ⟨[], bare.direct.typeahead⟩
    · rename_i held holding
      refine ⟨r.pending.keys.drop held.length, ?_⟩
      rw [(Quiet.commandResolved options _ _ _).typeahead]
      show (r.pending.keys.drop held.length).map .literal ++ r.typeahead = _
      rw [bare.direct.typeahead, List.map_nil, List.append_nil]
  have keys : (r.fireHeld options).keys = r.keys := congrArg Surroundings.keys same
  have direct : Direct (r.fireHeld options) waiting :=
    ⟨typeahead, (congrArg Surroundings.trail same).trans bare.direct.trail,
      (congrArg Surroundings.trailMatch same).trans bare.direct.trailMatch,
      by rw [keys]; exact bare.direct.table, fireHeld_tidy options r bare.direct.tidy,
      fireHeld_noOffsets options bare.direct.noOffsets⟩
  exact direct_process options evaluate ((congrArg Surroundings.mappings same).trans bare.mappings)
    direct world

theorem timeoutExpired (bare : Bare r) (world : σ) :
    Bare (timeoutExpired options evaluate r world).1 := by
  refine bare.of_direct options (timeoutExpired_moves options evaluate r world) ?_
  unfold Resolver.timeoutExpired
  simp only [bare.direct.trail, List.isEmpty_nil, if_true]
  split
  · exact bare.fireHeld options evaluate world
  · exact bare.direct

/-- Offsets are never awaited. -/
theorem supplyOffsets (bare : Bare r) (world : σ) (values : List Int) :
    supplyOffsets options evaluate r world values = none := by
  unfold Resolver.supplyOffsets
  split
  · rename_i command awaits
    have free := bare.direct.noOffsets.awaits
    simp [PendingCommand.awaitsOffsets, awaits] at free
  · rfl

/-- Nothing but the command that is typed is forgotten. -/
theorem of_pending_empty {next : Resolver} (bare : Bare r) (keys : next.keys = r.keys)
    (mappings : next.mappings = r.mappings) (typeahead : next.typeahead = [])
    (trail : next.trail = []) (trailMatch : next.trailMatch = none)
    (pending : next.pending = {}) : Bare next :=
  ⟨keys.trans bare.keys, mappings.trans bare.mappings, typeahead, trail, trailMatch,
    by rw [keys]; exact bare.direct.table, by rw [pending]; exact tidy_empty,
    by rw [pending]; exact noOffsets_empty⟩

theorem withEvents (bare : Bare r) (events : List EngineEvent) : Bare { r with events } :=
  ⟨bare.keys, bare.mappings, bare.direct.typeahead, bare.direct.trail, bare.direct.trailMatch,
    bare.direct.table, bare.direct.tidy, bare.direct.noOffsets⟩

/-- Every operation, as long as no mapping is made. -/
theorem run (bare : Bare r) {operation : Operation σ} (allows : UnmappedOperation operation) :
    Bare (operation.run r) := by
  cases operation with
  | key options evaluate world key => exact bare.inputKey options evaluate key world
  | timeout options evaluate world => exact bare.timeoutExpired options evaluate world
  | offsets options evaluate world values =>
      show Bare ((Resolver.supplyOffsets options evaluate r world values).getD (r, world)).1
      rw [bare.supplyOffsets options evaluate world values]
      exact bare
  | cancel => exact bare.of_pending_empty rfl rfl rfl rfl rfl rfl
  | setMode state => exact bare.of_pending_empty rfl rfl bare.direct.typeahead rfl rfl rfl
  | setRecording recording =>
      exact ⟨bare.keys, bare.mappings, bare.direct.typeahead, bare.direct.trail,
        bare.direct.trailMatch, bare.direct.table, bare.direct.tidy, bare.direct.noOffsets⟩
  | setMappings mappings => exact allows.elim
  | takeEvent =>
      obtain ⟨events, same⟩ := Operation.takeEvent_run (σ := σ) r
      rw [same]
      exact bare.withEvents events

end Bare

/-! ## The way back -/

/-- A state without mappings in which a mode is temporary only while a command is
pending. -/
structure Homed (r : Resolver) : Prop where
  bare : Bare r
  lined : Lined (fun _ => False) r

theorem Reachable.homed {r : Resolver} (reached : Reachable (σ := σ) UnmappedOperation .default r) :
    Homed r := by
  constructor
  · induction reached with
    | start => exact .default
    | run operation reached allows ih => exact ih.run allows
  · have lines (operation : Operation σ) (allows : UnmappedOperation operation) :
        LineOperation (fun _ => False) operation := by
      cases operation with
      | setMode state => exact allows
      | setMappings mappings => exact allows.elim
      | _ => trivial
    exact (reached.mono lines).invariant (lined_start _ _)
      (lined_invariant fun action impossible => impossible.elim)

namespace Homed

theorem isPending_eq (homed : Homed r) : r.isPending = !r.pending.isEmpty := by
  unfold isPending
  rw [homed.bare.direct.trail, homed.bare.direct.typeahead]
  rfl

theorem not_isPending (homed : Homed r) (nothing : r.pending = {}) : r.isPending = false := by
  rw [homed.isPending_eq, nothing]
  rfl

/-- While no command is pending, the mode lasts. -/
theorem lasting (homed : Homed r) (idle : r.pending.isEmpty = true) : r.modes.Lasting := by
  simp only [PendingCommand.isEmpty, Bool.and_eq_true, Option.isNone_iff_eq_none] at idle
  obtain ⟨⟨⟨_, operator⟩, _⟩, awaiting⟩ := idle
  have lasts : r.modes.state.mode.isTemporary = false := by
    cases mode : r.modes.state.mode with
    | commandLine =>
        have typed := homed.lined.lineMode.line.mp mode
        simp [commandLine?, awaiting] at typed
    | operatorPending =>
        exact absurd operator (homed.lined.staged.operator ⟨r.modes.state, .head _, mode⟩)
    | _ => rfl
  exact ⟨homed.lined.staged.stacked.alone lasts, lasts⟩

/-- While a command is pending, Escape drops it. -/
theorem inputKey_pending (homed : Homed r) (pending : r.isPending = true)
    (escapes : key.isEscape = true) (world : σ) :
    inputKey options evaluate r world key = (r.abort, world) := by
  rw [homed.isPending_eq, Bool.not_eq_true'] at pending
  have dropped := commandKey_escape options escapes pending homed.bare.direct.noOffsets.awaits
  rw [homed.bare.inputKey_eq options evaluate (by rw [dropped]; exact homed.bare.direct.typeahead),
    dropped]

/-- While none is, both keys lead to Normal mode. -/
theorem inputKey_idle (homed : Homed r) (idle : r.isPending = false) (leaves : key.Leaves)
    (world : σ) :
    (inputKey options evaluate r world key).1.modes = { state := .ofMode .normal } ∧
      (inputKey options evaluate r world key).1.pending = {} := by
  rw [homed.isPending_eq, Bool.not_eq_false'] at idle
  obtain ⟨modes, pending, typeahead⟩ := commandKey_leaves options homed.bare.keys
    (homed.lasting idle) homed.bare.direct.tidy leaves idle
  rw [homed.bare.inputKey_eq options evaluate (typeahead.trans homed.bare.direct.typeahead)]
  exact ⟨modes, pending⟩

/-- After either key no command is pending. -/
theorem pending_inputKey (homed : Homed r) (leaves : key.Leaves) (world : σ) :
    (inputKey options evaluate r world key).1.pending = {} := by
  cases pending : r.isPending with
  | true =>
      rw [homed.inputKey_pending options evaluate pending leaves.isEscape world]
      rfl
  | false => exact (homed.inputKey_idle options evaluate pending leaves world).2

end Homed

/-- With the default keys and no mappings, Escape and Control-C drop the command that is
pending, and nothing is told but the steps back to the lowest mode; and two of them lead
to Normal mode, with nothing pending, from every state. -/
theorem escape_leaves {r : Resolver} (reached : Reachable (σ := σ) UnmappedOperation .default r)
    {key : Key} (leaves : key.Leaves) (world : σ) :
    (r.isPending = true →
      let next := (inputKey options evaluate r world key).1
      (∃ steps : List ModeStep, next.events = r.events ++ steps.map .modeChanged) ∧
        next.pending = {} ∧ next.isPending = false ∧
        next.modes = { state := r.modes.base } ∧ r.modes.base.mode.isTemporary = false) ∧
      ∀ (later : OptionView) (evaluate' : Evaluator σ) (world' : σ) (other : Key), other.Leaves →
        let once := (inputKey options evaluate r world key).1
        let twice := (inputKey later evaluate' once world' other).1
        twice.modes = { state := .ofMode .normal } ∧ twice.isPending = false := by
  have homed := reached.homed
  have typed := Reachable.run (.key options evaluate world key) reached trivial
  have nothing := homed.pending_inputKey options evaluate leaves world
  have idle := typed.homed.not_isPending nothing
  constructor
  · intro pending next
    have dropped : next = r.abort := congrArg Prod.fst
      (homed.inputKey_pending options evaluate pending leaves.isEscape world)
    exact ⟨⟨r.modes.popAll.2, by rw [dropped]; rfl⟩, nothing, idle, by rw [dropped]; rfl,
      homed.lined.staged.stacked.lowest_lasts⟩
  · intro later evaluate' world' other leaves' once twice
    have again := Reachable.run (.key later evaluate' world' other) typed trivial
    have leads := typed.homed.inputKey_idle later evaluate' idle leaves' world'
    exact ⟨leads.1, again.homed.not_isPending leads.2⟩

/-- A count was typed, and the sign before a register. -/
def registerAwaited : Resolver :=
  { Resolver.default with
    pending := {
      count := some 2
      awaiting := some .register
      shown := [.char '2', .char '"'] } }

/-- Its count and its register are dropped, for one. -/
theorem registerAwaited_left :
    let evaluate : Evaluator Unit := fun text world => (.ok text, world)
    (Reachable (σ := Unit) UnmappedOperation .default registerAwaited ∧ Key.escape.Leaves ∧
        registerAwaited.isPending = true) ∧
      let next := (inputKey plainOptions evaluate registerAwaited () .escape).1
      next.pending = {} ∧ next.isPending = false ∧ next.modes = {} := by
  intro evaluate
  have counted : inputKey plainOptions evaluate .default () (.char '2') =
      ({ Resolver.default with pending := { count := some 2, shown := [.char '2'] } }, ()) :=
    Bare.default.inputKey_eq plainOptions evaluate rfl ()
  have first := Reachable.run (.key plainOptions evaluate () (.char '2'))
    (.start : Reachable UnmappedOperation .default .default) trivial
  rw [Operation.run, counted] at first
  have asked : inputKey plainOptions evaluate
      { Resolver.default with pending := { count := some 2, shown := [.char '2'] } } ()
        (.char '"') = (registerAwaited, ()) :=
    first.homed.bare.inputKey_eq plainOptions evaluate rfl ()
  have reached := Reachable.run (.key plainOptions evaluate () (.char '"')) first trivial
  rw [Operation.run, asked] at reached
  have leaves : Key.escape.Leaves := .inl rfl
  obtain ⟨_, nothing, idle, modes, _⟩ :=
    (escape_leaves plainOptions evaluate reached leaves ()).1 rfl
  exact ⟨⟨reached, leaves, rfl⟩, nothing, idle, modes⟩

end Resolver

end ModalInput
