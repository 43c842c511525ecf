/-
# ModalInput.Proofs.CountedCommands -- the count and the register that a command gets

After digits and names of registers it is known what is pending, so it is known what the
next key gets: a command gets the count of all the numbers and the register that was named
last, and an operator keeps both until its motion is there, which can bring digits of its
own.  Both are told with the count of all of them, and nothing is left for the command after.

Only Escape is different.  In Normal mode it is a command by itself, but once something
was typed before it, it drops that instead.

* `BoundAlone` -- a key that is an action by itself; no longer keys start with it.
* `TellsCommand` -- one command is told, between changes of the mode.
* `Bare.tells_command`, `tells_operation` -- commands, and operators with their motions.
* `counted_commands` -- what the keys from the first digit on lead to.
-/
import ModalInput.Proofs.TypedPrefixes

namespace ModalInput

set_option autoImplicit false

/-! ## Keys of the default table -/

namespace CommandKeys

/-- In a mode of the default table, the key is an action by itself. -/
def BoundAlone (mode : MapMode) (key : Key) (action : Action) : Prop :=
  CommandKeys.default.table.get? mode [key] = some action

/-- The keys that the bindings of more than one key start with. -/
def leaders : MapMode → List Key
  | .normal => [.char 'g', .char 'z']
  | .operatorPending => [.char 'g', .char 'i', .char 'a']
  | _ => []

/-- No key is bound both by itself and with others behind it. -/
theorem leaderRows : ∀ mode ∈ [MapMode.normal, .operatorPending], ∀ row ∈ defaultBindings,
    row.modes.contains mode = true →
      (Key.ofText row.keys).head?.any (leaders mode).contains =
        decide ((Key.ofText row.keys).length ≠ 1) := by
  decide +kernel

/-- The sign before the name of a register is not bound. -/
theorem registerRows : ∀ row ∈ defaultBindings, Key.ofText row.keys ≠ [.char '"'] := by
  decide +kernel

/-- The keys that operators start with. -/
def operatorStarts : List Key :=
  [.char 'd', .char 'y', .char 'c', .char '<', .char '>', .char '=', .char '!', .char 'g']

theorem operatorRows : ∀ row ∈ defaultBindings, row.action.isOperator = true →
    (Key.ofText row.keys).head?.any operatorStarts.contains = true := by
  decide +kernel

theorem operatorStarts_plain :
    ∀ key ∈ operatorStarts, key.digit? = none ∧ key.isEscape = false := by
  decide +kernel

/-- While a motion is waited for, neither Escape nor a key of an operator is bound. -/
theorem pendingRows : ∀ row ∈ defaultBindings, row.modes.operatorPending = true →
    (Key.ofText row.keys).head?.any Key.isEscape = false ∧
      ∀ key ∈ operatorStarts, Key.ofText row.keys ≠ [key] := by
  decide +kernel

namespace BoundAlone

variable {mode : MapMode} {key : Key} {action : Action}

theorem lookup (bound : BoundAlone mode key action)
    (counted : mode ∈ [MapMode.normal, .operatorPending]) :
    CommandKeys.default.lookup mode [key] = .complete action := by
  have ends : ¬ KeyTable.Continues CommandKeys.default.table.get? mode [key] := by
    rintro ⟨next, rest, valued⟩
    obtain ⟨longer, found⟩ := Option.isSome_iff_exists.mp valued
    obtain ⟨row, member, contains, keys, _⟩ := exists_binding bound
    obtain ⟨row', member', contains', keys', _⟩ := exists_binding found
    have alone := leaderRows mode counted row member contains
    have leads := leaderRows mode counted row' member' contains'
    rw [keys] at alone
    rw [keys'] at leads
    simp only [List.singleton_append, List.head?_cons, List.length_cons, Option.any_some]
      at alone leads
    rw [alone] at leads
    simp at leads
  have := Classical.dec (KeyTable.Continues CommandKeys.default.table.get? mode [key])
  rw [CommandKeys.lookup, trimmed_default.lookup_eq, bound, decide_eq_false ends]
  rfl

theorem unsigned (bound : BoundAlone mode key action) : key.char? ≠ some '"' := by
  intro sign
  obtain ⟨row, member, _, keys, _⟩ := exists_binding bound
  exact registerRows row member (by rw [keys, Key.eq_char_of_char? sign])

theorem mem_operatorStarts (bound : BoundAlone mode key action)
    (operator : action.isOperator = true) : key ∈ operatorStarts := by
  obtain ⟨row, member, _, keys, rfl⟩ := exists_binding bound
  simpa [keys] using operatorRows row member operator

theorem pending (bound : BoundAlone .operatorPending key action) :
    key.isEscape = false ∧ key ∉ operatorStarts := by
  obtain ⟨row, member, contains, keys, _⟩ := exists_binding bound
  obtain ⟨notEscape, others⟩ := pendingRows row member contains
  exact ⟨by simpa [keys] using notEscape, fun starts => others key starts keys⟩

end BoundAlone

end CommandKeys

open CommandKeys (BoundAlone)
open PendingCommand (OnlyCounts)

namespace Resolver

variable (options : OptionView) {r : Resolver}

/-! ## What is told -/

/-- The event is a change of the mode. -/
def IsStep (event : EngineEvent) : Prop := ∃ step, event = .modeChanged step

theorem isStep (step : ModeStep) : IsStep (.modeChanged step) := ⟨step, rfl⟩

/-- One command is told, with nothing but changes of the mode before and after it, and
nothing stays pending. -/
structure TellsCommand (r next : Resolver) (resolved : ResolvedCommand) : Prop where
  events : ∃ before after : List EngineEvent, (∀ event ∈ before ++ after, IsStep event) ∧
    next.events = r.events ++ (before ++ .command resolved :: after)
  pending : next.pending = {}

namespace TellsCommand

variable {next : Resolver} {resolved : ResolvedCommand}

theorem of_emits {telling : Resolver} (first : Emits IsStep r telling)
    (last : Emits IsStep (telling.emit (.command resolved)) next) (pending : next.pending = {}) :
    TellsCommand r next resolved := by
  obtain ⟨before, events, steps⟩ := first
  obtain ⟨after, events', steps'⟩ := last
  refine ⟨⟨before, after, ?_, ?_⟩, pending⟩
  · intro event member
    rcases List.mem_append.mp member with early | late
    · exact steps event early
    · exact steps' event late
  · rw [events', show (telling.emit (.command resolved)).events =
      telling.events ++ [.command resolved] from rfl, events]
    simp only [List.append_assoc, List.singleton_append]

/-- Changes of the mode that come first. -/
theorem of_steps {begun : Resolver} (first : Emits IsStep r begun)
    (tells : TellsCommand begun next resolved) : TellsCommand r next resolved := by
  obtain ⟨told, events, steps⟩ := first
  obtain ⟨⟨before, after, steps', events'⟩, pending⟩ := tells
  refine ⟨⟨told ++ before, after, ?_, ?_⟩, pending⟩
  · intro event member
    rw [List.append_assoc] at member
    rcases List.mem_append.mp member with early | late
    · exact steps event early
    · exact steps' event late
  · rw [events', events, List.append_assoc, List.append_assoc]

theorem complete (r : Resolver) (command : Command) :
    TellsCommand r (r.complete options command) (r.toldComplete options command) :=
  of_emits (.applyKeymodel isStep options r command)
    ((Emits.applyModeChange isStep options _ command).trans (.of_events rfl)) rfl

theorem finishOperator (r : Resolver) (operator motion : Command) :
    TellsCommand r (r.finishOperator options operator motion) (toldOperator operator motion) :=
  of_emits (.leaveTemporary isStep r)
    ((Emits.applyModeChange isStep options _ _).trans (.of_events rfl)) rfl

end TellsCommand

/-! ## The keys of commands -/

variable {σ : Type} (evaluate : Evaluator σ)

section Alone

variable {mode : MapMode} {key : Key} {action : Action}
  (current : MapMode.of r.modes.mode = mode) (counted : mode ∈ [MapMode.normal, .operatorPending])
  (counting : Counting r) (bound : BoundAlone mode key action) (noDigit : key.digit? = none)
  (kept : (key.isEscape && !r.pending.isEmpty) = false)
  (once : (r.gathered key).pending.repeatsOperator = false)
include current counted counting bound noDigit kept once

/-- A key that is an action by itself. -/
theorem commandKey_alone (keys : r.keys = .default) :
    r.commandKey options key =
      commandResolved options (r.gathered key).released action [key] := by
  have typed : (r.gathered key).pending.keys = [key] := congrArg (· ++ [key]) counting.fresh
  have found : (r.gathered key).keys.lookup (.of (r.gathered key).modes.mode) [key] =
      .complete action := by
    show r.keys.lookup (.of r.modes.mode) [key] = _
    rw [keys, current]
    exact bound.lookup counted
  have looked : tableKey options (r.noted key) key = lookUp options (r.gathered key) :=
    if_neg (ne_true_of_eq_false once)
  have table : tableKey options (r.noted key) key =
      commandResolved options (r.gathered key).released action [key] := by
    rw [looked]
    unfold lookUp
    rw [typed, found]
    rfl
  have uncounted : countWith? (r.pending.noted [key]) key = none := by
    unfold countWith?
    rw [noDigit]
  rw [commandKey_uncounted options counting kept uncounted, if_neg (by simp [bound.unsigned])]
  exact table

theorem Bare.inputKey_alone (bare : Bare r) (world : σ) :
    Resolver.inputKey options evaluate r world key =
      (commandResolved options (r.gathered key).released action [key], world) :=
  bare.inputKey_of_commandKey options evaluate
    (commandKey_alone options current counted counting bound noDigit kept once bare.keys)
    (Quiet.commandResolved options _ action [key]).typeahead world

end Alone

/-- No operator waits that the key could repeat. -/
theorem once_of_onlyCounts (only : OnlyCounts r.pending) (key : Key) :
    (r.gathered key).pending.repeatsOperator = false := by
  simp [PendingCommand.repeatsOperator, gathered, only.operator]

/-- In Normal mode, an action makes a command with the count and the register that were
typed. -/
theorem commandOf_gathered (normal : r.modes = {}) (key : Key) (action : Action) :
    (r.gathered key).released.commandOf action = typedCommand r.pending action := by
  have free : (r.gathered key).released.modes.mode ≠ .operatorPending := by
    show r.modes.mode ≠ _
    rw [normal]
    decide
  exact if_neg free

namespace Bare

/-- A command that needs no argument. -/
theorem tells_command (bare : Bare r) (normal : r.modes = {}) (only : OnlyCounts r.pending)
    {key : Key} {action : Action} (bound : BoundAlone .normal key action)
    (noDigit : key.digit? = none) (plain : action.argument = .none)
    (kept : (key.isEscape && !r.pending.isEmpty) = false) (world : σ) :
    ∃ state, TellsCommand r (Resolver.inputKey options evaluate r world key).1
      ⟨typedCommand r.pending action, { count := typedCount r.pending, state }⟩ := by
  rw [inputKey_alone options evaluate (by rw [normal]; rfl) (by simp)
    (.of_onlyCounts only normal) bound noDigit kept (once_of_onlyCounts only key) bare,
    commandResolved_plain (r := (r.gathered key).released) options plain only.operator,
    commandOf_gathered normal]
  exact ⟨_, .of_steps (.of_events (events_counted (r.gathered key).released))
    (.complete options _ _)⟩

/-- An operator waits for its motion, with the count and the register that were typed. -/
theorem inputKey_operator (bare : Bare r) (normal : r.modes = {}) (only : OnlyCounts r.pending)
    {key : Key} {action : Action} (bound : BoundAlone .normal key action)
    (operator : action.isOperator = true) (world : σ) :
    Resolver.inputKey options evaluate r world key =
      ((r.withPending {
        operator := some ⟨typedCommand r.pending action, [key]⟩
        shown := r.pending.shown ++ [key] }).pushMode .operatorPending, world) := by
  obtain ⟨noDigit, notEscape⟩ :=
    CommandKeys.operatorStarts_plain key (bound.mem_operatorStarts operator)
  have mode : (r.gathered key).released.modes.mode = .normal := by
    show r.modes.mode = _
    rw [normal]
    rfl
  have free : (r.gathered key).released.modes.mode ≠ .operatorPending := by
    rw [mode]
    decide
  have left : (r.gathered key).released.counted =
      r.withPending { shown := r.pending.shown ++ [key] } := by
    unfold counted
    rw [if_neg free]
    simp [withPending, released, gathered, only.operator, only.motionCount, only.awaiting]
  rw [inputKey_alone options evaluate (by rw [normal]; rfl) (by simp)
    (.of_onlyCounts only normal) bound noDigit (by rw [notEscape, Bool.false_and])
    (once_of_onlyCounts only key) bare,
    commandResolved_starts options _ action [key] ⟨free, operator, by rw [mode]; rfl⟩,
    commandOf_gathered normal, left]
  rfl

/-- The motion of an operator. -/
theorem tells_operator (bare : Bare r) (mode : r.modes.mode = .operatorPending)
    {first : Key} {operator : Command} {count : Option Count} {shown : List Key}
    (waiting : r.pending = { operator := some ⟨operator, [first]⟩, motionCount := count, shown })
    {key : Key} {motion : Action} (bound : BoundAlone .operatorPending key motion)
    (noDigit : key.digit? = none) (other : key ≠ first) (plain : motion.argument = .none)
    (world : σ) :
    TellsCommand r (Resolver.inputKey options evaluate r world key).1
      (toldOperator operator (.new motion (count.getD 0))) := by
  have once : (r.gathered key).pending.repeatsOperator = false := by
    simp [PendingCommand.repeatsOperator, gathered, waiting, other]
  have command : (r.gathered key).released.commandOf motion = .new motion (count.getD 0) := by
    have counted : (r.gathered key).released.pending.motionCount = count := by
      show r.pending.motionCount = _
      rw [waiting]
    rw [← counted]
    exact if_pos mode
  have there : (r.gathered key).released.counted.pending.operator = some ⟨operator, [first]⟩ := by
    rw [operator_counted]
    show r.pending.operator = _
    rw [waiting]
  have counting : Counting r := ⟨by rw [mode]; rfl, by rw [waiting], by rw [waiting]⟩
  rw [inputKey_alone options evaluate (by rw [mode]; rfl) (by simp) counting bound noDigit
    (by rw [bound.pending.1, Bool.false_and]) once bare,
    commandResolved_ready (r := (r.gathered key).released) options plain, command]
  simp only [argumentDone, there]
  exact .of_steps (.of_events (events_counted (r.gathered key).released))
    (.finishOperator options _ operator _)

/-- An operator, digits, and a motion that needs no argument. -/
theorem tells_operation (bare : Bare r) (normal : r.modes = {}) (only : OnlyCounts r.pending)
    {first : Key} {operator : Action} (bound : BoundAlone .normal first operator)
    (isOperator : operator.isOperator = true) (digits : CountDigits) {key : Key} {motion : Action}
    (bound' : BoundAlone .operatorPending key motion) (noDigit : key.digit? = none)
    (plain : motion.argument = .none) (world : σ) :
    TellsCommand r (inputKeys options evaluate r world (first :: digits.keys ++ [key])).1
      (toldOperator (typedCommand r.pending operator) (.new motion (digits.count?.getD 0))) := by
  have started := bare.inputKey_operator options evaluate normal only bound isOperator world
  have waiting := bare.of_inputKey options evaluate started
  have counted := waiting.inputKeys_digits options evaluate ⟨rfl, rfl, rfl⟩ rfl digits world
  rw [digits.pending_motion rfl rfl] at counted
  have later := waiting.of_inputKeys options evaluate counted
  have other : key ≠ first := by
    rintro rfl
    exact bound'.pending.2 (bound.mem_operatorStarts isOperator)
  have tells := later.tells_operator options evaluate rfl rfl bound' noDigit other plain world
  rw [List.cons_append, inputKeys_cons options evaluate started, inputKeys_append, counted,
    inputKeys_single]
  refine tells.of_steps ?_
  exact Emits.pushMode isStep (r.withPending {
    operator := some ⟨typedCommand r.pending operator, [first]⟩
    shown := r.pending.shown ++ [first] }) .operatorPending

end Bare

/-! ## From the first digit to the command -/

/-- From an idle Normal mode, with the default keys and no mappings: a command, or an
operator with its motion, gets the count of all the numbers that were typed and the register
that was named last, and nothing of them stays.  Escape drops them instead. -/
theorem counted_commands (bare : Bare r) (normal : r.modes = {}) (idle : r.isPending = false)
    (typed : CommandPrefix) (world : σ) :
    let after (keys : List Key) : Resolver :=
      (inputKeys options evaluate r world (typed.keys ++ keys)).1
    (∀ key action, BoundAlone .normal key action → key.digit? = none → action.argument = .none →
      (key.isEscape = true → typed.keys = []) →
        ∃ state, TellsCommand r (after [key])
          ⟨(Command.new action typed.count).withRegister typed.register,
            { count := typed.count, state }⟩) ∧
    (∀ key, key.isEscape = true → typed.keys ≠ [] →
      (after [key]).events = r.events ∧ (after [key]).pending = {}) ∧
    ∀ first operator, BoundAlone .normal first operator → operator.isOperator = true →
      ∀ (digits : CountDigits) (key : Key) (motion : Action),
        BoundAlone .operatorPending key motion → key.digit? = none → motion.argument = .none →
          let count := Count.ofNumbers (typed.numbers ++ digits.numbers)
          TellsCommand r (after (first :: digits.keys ++ [key]))
            ⟨((Command.new operator count).withRegister typed.register).withArgument
                (.motion (.new motion count)),
              { operatorPending := true, count, state := .ofMode .operatorPending }⟩ := by
  intro after
  have nothing := bare.pending_eq idle
  have prefixed := bare.inputKeys_prefix options evaluate normal nothing typed world
  have counting := bare.of_inputKeys options evaluate prefixed
  have only := typed.onlyCounts r.pending.shown
  let counted := r.withPending (typed.pending r.pending.shown)
  have begun (keys : List Key) :
      after keys = (inputKeys options evaluate counted world keys).1 := by
    show (inputKeys options evaluate r world (typed.keys ++ keys)).1 = _
    rw [inputKeys_append, prefixed]
  have quiet : Emits IsStep r counted := .of_events rfl
  have command (action : Action) :
      typedCommand (typed.pending r.pending.shown) action =
        (Command.new action typed.count).withRegister typed.register := by
    rw [typedCommand, typed.typedCount_pending, typed.register_pending]
  refine ⟨?_, ?_, ?_⟩
  · intro key action bound noDigit plain alone
    have kept : (key.isEscape && !(typed.pending r.pending.shown).isEmpty) = false := by
      rw [typed.isEmpty_pending]
      cases escapes : key.isEscape with
      | false => rfl
      | true => simp [alone escapes]
    obtain ⟨state, tells⟩ :=
      counting.tells_command options evaluate normal only bound noDigit plain kept world
    rw [pending_withPending, command, typed.typedCount_pending] at tells
    rw [begun, inputKeys_single]
    exact ⟨state, tells.of_steps quiet⟩
  · intro key escapes some
    have pending : (typed.pending r.pending.shown).isEmpty = false := by
      rw [typed.isEmpty_pending]
      simpa using some
    have dropped := commandKey_escape options (r := counted) escapes pending
      counting.direct.noOffsets.awaits
    have input := counting.inputKey_of_commandKey options evaluate dropped rfl world
    rw [begun, inputKeys_cons options evaluate input]
    refine ⟨?_, rfl⟩
    show r.events ++ r.modes.popAll.2.map .modeChanged = r.events
    rw [normal]
    exact List.append_nil _
  · intro first operator bound isOperator digits key motion bound' noDigit plain count
    have tells := counting.tells_operation options evaluate normal only bound isOperator digits
      bound' noDigit plain world
    have total : Count.compose typed.count (digits.count?.getD 0) = count := by
      rw [digits.count?_getD]
      exact Count.compose_ofNumbers typed.numbers_pos digits.numbers_pos
    rw [pending_withPending, command] at tells
    rw [begun, ← total]
    exact tells.of_steps quiet

/-- Three digits, and the names of two registers between them. -/
def namedTwice : CommandPrefix where
  digits := ⟨['2'], by decide, by decide⟩
  registers := [
    ⟨'a', (.named 'a', false), by decide, ⟨['3'], by decide, by decide⟩⟩,
    ⟨'B', (.named 'b', true), by decide, ⟨['4'], by decide, by decide⟩⟩]

/-- A deletion by itself, and an operator with a motion that is counted once more. -/
theorem namedTwice_counted :
    let evaluate : Evaluator Unit := fun text world => (.ok text, world)
    let after (keys : List Key) : Resolver :=
      (inputKeys plainOptions evaluate .default () (namedTwice.keys ++ keys)).1
    let deletes : Action := .ofEdit .delete "edit.delete-char"
    let operator : Action := .ofOperator .delete "operator.delete"
    let word : Action := .ofMotion { exclusive := true } "motion.word"
    (Bare .default ∧ Resolver.default.modes = {} ∧ Resolver.default.isPending = false) ∧
      namedTwice.keys = typedKeys "2\"a3\"B4".toList ∧
      BoundAlone .normal (.char 'x') deletes ∧
      (∃ state, TellsCommand .default (after [.char 'x'])
        ⟨(Command.new deletes 24).withRegister (some (.named 'B')), { count := 24, state }⟩) ∧
      BoundAlone .normal (.char 'd') operator ∧ BoundAlone .operatorPending (.char 'w') word ∧
      TellsCommand .default (after [.char 'd', .char '5', .char 'w'])
        ⟨((Command.new operator 120).withRegister (some (.named 'B'))).withArgument
            (.motion (.new word 120)),
          { operatorPending := true, count := 120, state := .ofMode .operatorPending }⟩ := by
  intro evaluate after deletes operator word
  have start : Resolver.default.modes = {} ∧ Resolver.default.isPending = false := ⟨rfl, rfl⟩
  have alone : BoundAlone .normal (.char 'x') deletes := by
    rw [BoundAlone, CommandKeys.get?_default (by simp)]
    decide +kernel
  have starts : BoundAlone .normal (.char 'd') operator := by
    rw [BoundAlone, CommandKeys.get?_default (by simp)]
    decide +kernel
  have moves : BoundAlone .operatorPending (.char 'w') word := by
    rw [BoundAlone, CommandKeys.get?_default (by simp)]
    decide +kernel
  obtain ⟨commands, _, operations⟩ :=
    counted_commands plainOptions evaluate Bare.default start.1 start.2 namedTwice ()
  have told := operations (.char 'd') operator starts rfl ⟨['5'], by decide, by decide⟩ (.char 'w')
    word moves (by decide) rfl
  exact ⟨⟨.default, start⟩, by decide, alone,
    commands (.char 'x') deletes alone (by decide) rfl (by decide), starts, moves, told⟩

/-- A count, and then Escape: a command by itself, of which nothing is told. -/
theorem countedEscape_silent :
    let evaluate : Evaluator Unit := fun text world => (.ok text, world)
    BoundAlone .normal .escape (.ofSingle .otherReadonly "normal.escape") ∧
      Key.escape.digit? = none ∧
      ¬ ∃ resolved, TellsCommand .default
        (inputKeys plainOptions evaluate .default () [.char '3', .escape]).1 resolved := by
  intro evaluate
  have bound : BoundAlone .normal .escape (.ofSingle .otherReadonly "normal.escape") := by
    rw [BoundAlone, CommandKeys.get?_default (by simp)]
    decide +kernel
  have counted : inputKey plainOptions evaluate .default () (.char '3') =
      ({ Resolver.default with pending := { count := some 3, shown := [.char '3'] } }, ()) :=
    Bare.default.inputKey_eq plainOptions evaluate rfl ()
  have dropped : inputKey plainOptions evaluate
      { Resolver.default with pending := { count := some 3, shown := [.char '3'] } } () .escape =
        (.default, ()) :=
    (Bare.default.of_inputKey plainOptions evaluate counted).inputKey_eq plainOptions evaluate
      rfl ()
  refine ⟨bound, rfl, ?_⟩
  rw [inputKeys_cons plainOptions evaluate counted, inputKeys_single, dropped]
  rintro ⟨resolved, ⟨before, after, _, events⟩, _⟩
  simp [Resolver.default] at events

end Resolver

end ModalInput
