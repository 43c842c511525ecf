/-
# ModalInput.Proofs.CommandLineMode -- the command line and its mode

Command-line mode is there for the command line: a key that opens one enters the
mode, and whatever ends it leaves the mode.  Only a mapping of that mode to an
action comes in between, since it runs while the line is typed.  If the action
is complete and asks for no mode, or waits for something else than a line, the
line is gone and the mode is not, or the other way round.  The mode is that of the
command line in all states exactly if no such action is mapped there
(`modes_agree`).

* `Suits` -- the actions that keep the two in step.
* `Lined` -- the mode is that of the command line; `lined_move`.
-/
import ModalInput.Proofs.TableLookup
import ModalInput.Proofs.TemporaryModes

namespace ModalInput.Resolver

set_option autoImplicit false

/-- An action that can run while a command line is typed: it is complete or opens
another line, and it asks for a mode. -/
def Suits (action : Action) : Prop :=
  (action.argument = .none ∨ action.argument = .exString) ∧ action.modeChange ≠ .none

instance (action : Action) : Decidable (Suits action) :=
  inferInstanceAs (Decidable ((_ ∨ _) ∧ _))

/-- The mode is that of the command line while one is typed, and only then; when a
line ends that was opened above another, its command leaves both. -/
structure LineMode (r : Resolver) : Prop where
  line : r.modes.mode = .commandLine ↔ r.commandLine?.isSome = true
  nested : ∀ command prompt typed, r.pending.awaiting = some (.line command prompt typed) →
    r.pending.operator = none → r.modes.saved.length ≤ 1 ∨ command.action.modeChange ≠ .none

/-- Actions that keys are mapped to in command-line mode. -/
def LineActions (permits : Action → Prop) (mappings : MappingStore) : Prop :=
  ∀ keys mapping action, (mappings.lookup .commandLine keys).value? = some mapping →
    mapping.rhs = .action action → permits action

variable (options : OptionView)

theorem commandLine?_eq_none {r : Resolver} :
    r.commandLine? = none ↔
      ∀ command prompt typed, r.pending.awaiting ≠ some (.line command prompt typed) := by
  unfold commandLine?
  split
  · rename_i command prompt typed awaits
    simp [awaits]
  · rename_i other
    simp only [true_iff]
    exact other

theorem commandLine?_of_awaits {r : Resolver} {command : Command} {prompt : Char}
    {typed : List Char} (awaits : r.pending.awaiting = some (.line command prompt typed)) :
    r.commandLine?.isSome = true := by
  simp [commandLine?, awaits]

namespace LineMode

/-- No line is typed, and the mode is another. -/
theorem of_none {r : Resolver} (mode : r.modes.mode ≠ .commandLine)
    (nothing : r.commandLine? = none) : LineMode r where
  line := by simp [mode, nothing]
  nested := fun command prompt typed awaits =>
    absurd awaits (commandLine?_eq_none.mp nothing command prompt typed)

theorem of_lasting {r : Resolver} (lasting : r.modes.Lasting) (nothing : r.commandLine? = none) :
    LineMode r := by
  apply of_none _ nothing
  intro mode
  have lasts := lasting.lasts
  rw [show r.modes.state.mode = .commandLine from mode] at lasts
  cases lasts

theorem of_same {r r' : Resolver} (lineMode : LineMode r) (modes : r'.modes = r.modes)
    (awaiting : r'.pending.awaiting = r.pending.awaiting)
    (operator : r'.pending.operator = r.pending.operator) : LineMode r' := by
  constructor
  · unfold commandLine?
    rw [modes, awaiting]
    exact lineMode.line
  · rw [modes, awaiting, operator]
    exact lineMode.nested

/-- While something else is awaited than a line, or nothing, the mode is another. -/
theorem mode_ne {r : Resolver} (lineMode : LineMode r) (nothing : r.commandLine? = none) :
    r.modes.mode ≠ .commandLine := by
  intro mode
  have typed := lineMode.line.mp mode
  simp [nothing] at typed

/-- A command that is complete leaves the line with its mode. -/
theorem argumentDone {r : Resolver} (staged : Staged r) (command : Command)
    (leaves : r.modes.mode ≠ .commandLine ∨ command.action.modeChange ≠ .none) :
    LineMode (r.argumentDone options command) := by
  have nothing : (r.argumentDone options command).commandLine? = none := by simp [commandLine?]
  rcases argumentDone_modes options staged.stacked command with ⟨_, change, same⟩ | lasting
  · apply of_none _ nothing
    rw [same]
    rcases leaves with mode | asks
    · exact mode
    · exact absurd change asks
  · exact of_lasting lasting nothing

/-- In no temporary mode but that of an operator, there is only one mode without an
operator. -/
theorem alone {r : Resolver} (staged : Staged r) (mode : r.modes.mode ≠ .commandLine)
    (nothing : r.pending.operator = none) : r.modes.saved = [] := by
  apply staged.stacked.alone
  cases same : r.modes.state.mode with
  | commandLine => exact absurd same mode
  | operatorPending =>
      exact absurd nothing (staged.operator ⟨r.modes.state, .head _, same⟩)
  | normal => rfl
  | insert => rfl
  | replace => rfl
  | visual => rfl
  | select => rfl

/-- An action runs where no line is typed, or it suits one. -/
theorem commandResolved {r : Resolver} (staged : Staged r) (action : Action) (keys : List Key)
    (suits : r.modes.mode ≠ .commandLine ∧ r.commandLine? = none ∨ Suits action) :
    LineMode (r.commandResolved options action keys) := by
  have step := commandResolved_step options r action keys
  have modes := modes_counted r
  have other (waits : action.argument ≠ .none ∧ action.argument ≠ .exString) :
      r.modes.mode ≠ .commandLine ∧ r.commandLine? = none := by
    rcases suits with elsewhere | ⟨none | line, _⟩
    · exact elsewhere
    · exact absurd none waits.1
    · exact absurd line waits.2
  generalize r.commandResolved options action keys = after at step ⊢
  cases step with
  | starts starts =>
      have motion : action.argument = .motion := by simpa [Action.isOperator] using starts.2.1
      have nothing := (other (by simp [motion])).2
      apply of_none
      · exact fun mode => Mode.noConfusion mode
      · rw [commandLine?_eq_none] at nothing ⊢
        intro command prompt typed
        exact (awaiting_counted r) ▸ nothing command prompt typed
  | finishes noOperator ready =>
      apply argumentDone options staged.counted
      rw [modes, commandOf_action]
      exact suits.imp And.left And.right
  | awaitsCharacter kind =>
      have mode := (other (by simp [kind])).1
      exact of_none (by rw [← modes] at mode; exact mode) rfl
  | opensLine kind =>
      refine ⟨⟨fun _ => rfl, fun _ => rfl⟩, ?_⟩
      intro command prompt typed awaits nothing
      have nothing : r.pending.operator = none := (operator_counted r) ▸ nothing
      cases awaits
      rw [commandOf_action]
      rcases suits with ⟨mode, _⟩ | suits
      · left
        have one := alone staged mode nothing
        show (r.counted.modes.state :: r.counted.modes.saved).length ≤ 1
        rw [modes, one]
        exact Nat.le_refl 1
      · exact .inr suits.2
  | awaitsOffsets kind =>
      have mode := (other (by simp [kind])).1
      exact of_none (by rw [← modes] at mode; exact mode) rfl

theorem fireHeld {r : Resolver} (staged : Staged r) (lineMode : LineMode r)
    (idle : r.pending.awaiting = none) : LineMode (r.fireHeld options) := by
  have nothing : r.commandLine? = none := by simp [commandLine?, idle]
  have mode := lineMode.mode_ne nothing
  unfold Resolver.fireHeld
  split
  · exact lineMode
  · refine commandResolved options ?_ _ _ (.inl ⟨mode, ?_⟩)
    · exact staged.of_same rfl rfl
    · rw [commandLine?_eq_none] at nothing ⊢
      exact nothing

theorem abort {r : Resolver} (staged : Staged r) : LineMode r.abort :=
  of_lasting (leaveTemporary_lasting (r := r.forget) staged.stacked) rfl

/-- The key that ends a line: the line that it was opened above, if there was one,
ends with it. -/
theorem enters {r : Resolver} (staged : Staged r) (lineMode : LineMode r) {command : Command}
    {prompt : Char} {typed : List Char}
    (awaits : r.pending.awaiting = some (.line command prompt typed)) :
    LineMode (r.answered.popMode.argumentDone options
      (command.withArgument (.line (String.ofList typed)))) := by
  have taken : Staged r.answered := staged.of_same rfl rfl
  cases operator : r.pending.operator with
  | some waiting =>
      rcases argumentDone_modes options taken.popMode.stacked
          (command.withArgument (.line (String.ofList typed))) with ⟨nothing, _, _⟩ | lasting
      · have nothing : r.pending.operator = none := nothing
        rw [operator] at nothing
        cases nothing
      · exact of_lasting lasting (by simp [commandLine?])
  | none =>
      apply argumentDone options taken.popMode
      rcases lineMode.nested command prompt typed awaits operator with one | asks
      · left
        have mode : r.modes.state.mode = .commandLine :=
          lineMode.line.mpr (commandLine?_of_awaits awaits)
        have stacked := staged.stacked
        unfold popMode emitSteps answered ModeStack.pop
        cases saved : r.modes.saved with
        | nil =>
            rw [saved] at stacked
            cases stacked with
            | lowest lasts =>
                rw [mode] at lasts
                cases lasts
        | cons next rest =>
            rw [saved] at stacked one
            have empty : rest = [] := by simpa using one
            rw [empty] at stacked
            cases stacked with
            | above temporary below =>
                cases below with
                | lowest lasts =>
                    intro line
                    rw [show next.mode = .commandLine from line] at lasts
                    cases lasts
      · exact .inr asks

theorem commandKey {r : Resolver} (staged : Staged r) (lineMode : LineMode r) (key : Key) :
    LineMode (r.commandKey options key) := by
  have step := commandKey_step options r key
  have answered : Staged r.answered := staged.of_same rfl rfl
  have gathered : Staged (r.gathered key) := staged.of_same rfl rfl
  have elsewhere (other : ∀ command prompt typed,
      r.pending.awaiting ≠ some (.line command prompt typed)) : r.modes.mode ≠ .commandLine :=
    lineMode.mode_ne (commandLine?_eq_none.mpr other)
  generalize r.commandKey options key = after at step ⊢
  cases step with
  | drops => exact abort staged
  | refuses c awaits => exact (abort staged).of_same rfl rfl rfl
  | names register awaits named => exact of_none (elsewhere (by simp [awaits])) rfl
  | supplies command c awaits types =>
      exact argumentDone options answered _ (.inl (elsewhere (by simp [awaits])))
  | enters command prompt typed awaits confirms => exact enters options staged lineMode awaits
  | edits command prompt typed awaits =>
      refine ⟨⟨fun _ => rfl, fun _ => lineMode.line.mpr (commandLine?_of_awaits awaits)⟩, ?_⟩
      intro _ _ _ awaits' nothing
      cases awaits'
      exact lineMode.nested command prompt typed awaits nothing
  | waits command awaits => exact of_none (elsewhere (by simp [awaits])) rfl
  | counts count idle first mode digit =>
      refine lineMode.of_same rfl ?_ ?_ <;>
      · simp only [PendingCommand.withCurrentCount]
        split <;> rfl
  | asksRegister idle first mode sign => exact of_none (elsewhere (by simp [idle])) rfl
  | repeats operator idle waiting again =>
      refine argumentDone options ?_ _ (.inl (elsewhere (by simp [idle])))
      exact gathered.of_same rfl rfl
  | gathers idle found => exact lineMode.of_same rfl rfl rfl
  | holds action idle found => exact lineMode.of_same rfl rfl rfl
  | resolves action idle found =>
      have nothing : (r.gathered key).released.commandLine? = none := by
        rw [commandLine?_eq_none]
        intro command prompt typed awaits
        rw [show r.pending.awaiting = some _ from awaits] at idle
        cases idle
      refine commandResolved options ?_ _ _ (.inl ⟨elsewhere (by simp [idle]), nothing⟩)
      exact gathered.of_same rfl rfl
  | fires held idle holding => exact fireHeld options gathered (lineMode.of_same rfl rfl rfl) idle
  | parts first second idle single nothing apart => exact lineMode.of_same rfl rfl rfl
  | types action c idle single nothing typing typed =>
      rcases complete_modes options (r := { r.gathered key with
          pending := { (r.gathered key).pending with keys := [] } }) staged.stacked
          ((Command.new action 0).withArgument (.character c)) with ⟨_, same⟩ | lasting
      · refine of_none ?_ rfl
        rw [same]
        exact elsewhere (by simp [idle])
      · exact of_lasting lasting rfl

end LineMode

/-! ## Mappings of the mode -/

/-- The mode is that of the command line, and the actions that keys are mapped to
in it are of some kind. -/
structure Lined (permits : Action → Prop) (r : Resolver) : Prop where
  layered : Layered r
  staged : Staged r
  lineMode : LineMode r
  store : LineActions permits r.mappings
  reached : r.modes.mode = .commandLine → ∀ before mapping action,
    r.trailMatch = some ⟨mapping, before⟩ → mapping.rhs = .action action → permits action

/-- The calls that an editor makes: it sets no temporary mode, and maps keys of the
command line to actions of some kind only. -/
def LineOperation {σ : Type} (permits : Action → Prop) : Operation σ → Prop
  | .setMode state => state.mode.isTemporary = false
  | .setMappings mappings => LineActions permits mappings
  | _ => True

theorem Lined.offers {permits : Action → Prop} {r : Resolver} (lined : Lined permits r)
    {mapping : Mapping} {action : Action} (offers : r.Offers mapping)
    (target : mapping.rhs = .action action) (mode : r.modes.mode = .commandLine) :
    permits action := by
  cases offers with
  | typed key maps found =>
      unfold lookupWith at found
      rw [mode] at found
      exact lined.store _ mapping action found target
  | reached before found => exact lined.reached mode before mapping action found target

theorem Lined.of_free {permits : Action → Prop} {r r' : Resolver} (lined : Lined permits r)
    (layered : Layered r') (staged : Staged r') (lineMode : LineMode r')
    (mappings : r'.mappings = r.mappings) (free : r'.trailMatch = none) : Lined permits r' where
  layered := layered
  staged := staged
  lineMode := lineMode
  store := by rw [mappings]; exact lined.store
  reached := by simp [free]

/-- Every move keeps the line and its mode in step, if the actions that are mapped
there suit it. -/
theorem lined_move {permits : Action → Prop} (suits : ∀ action, permits action → Suits action)
    {r r' : Resolver} (lined : Lined permits r) (move : Move options r r') : Lined permits r' := by
  have layered := lined.layered.move options move
  have staged := lined.staged.move options move
  have keeps (same : r'.surroundings = r.surroundings) (empty : r.trail = [])
      (lineMode : LineMode r') : Lined permits r' := by
    apply lined.of_free layered staged lineMode (congrArg Surroundings.mappings same)
    exact (congrArg Surroundings.trailMatch same).trans (lined.layered.free empty)
  cases move with
  | queue typeahead =>
      exact ⟨layered, staged, lined.lineMode.of_same rfl rfl rfl, lined.store, lined.reached⟩
  | joins key maps =>
      exact ⟨layered, staged, lined.lineMode.of_same rfl rfl rfl, lined.store, lined.reached⟩
  | reaches key mapping maps found =>
      refine ⟨layered, staged, lined.lineMode.of_same rfl rfl rfl, lined.store, ?_⟩
      intro mode before mapping' action same target
      cases same
      exact lined.offers (.typed key maps found) target mode
  | leaves => exact lined.of_free layered staged (lined.lineMode.of_same rfl rfl rfl) rfl rfl
  | acts mapping action found target =>
      have same := surroundings_commandResolved options r.withoutTrail action []
      refine lined.of_free layered staged ?_ (congrArg Surroundings.mappings same)
        (congrArg Surroundings.trailMatch same)
      have taken : Staged r.withoutTrail := lined.staged.of_same rfl rfl
      refine LineMode.commandResolved options taken action [] ?_
      by_cases mode : r.modes.mode = .commandLine
      · exact .inr (suits action (lined.offers found target mode))
      · left
        refine ⟨mode, ?_⟩
        cases line : r.withoutTrail.commandLine? with
        | none => rfl
        | some text =>
            have typed : r.commandLine? = some text := line
            exact absurd (lined.lineMode.line.mpr (by simp [typed])) mode
  | key key empty =>
      exact keeps (surroundings_commandKey options r key) empty
        (LineMode.commandKey options lined.staged lined.lineMode key)
  | fires =>
      cases holding : r.pending.held with
      | none =>
          rw [fireHeld_of_none options holding]
          exact lined
      | some held =>
          obtain ⟨empty, idle⟩ := lined.layered.holding holding
          exact keeps (surroundings_fireHeld options r) empty
            (LineMode.fireHeld options lined.staged lined.lineMode idle)
  | supplies command values awaits =>
      have mode : r.modes.mode ≠ .commandLine :=
        lined.lineMode.mode_ne (by simp [commandLine?, awaits])
      exact keeps (surroundings_argumentDone options r _) (lined.layered.awaiting awaits)
        (LineMode.argumentDone options lined.staged _ (.inl mode))
  | cancels => exact lined.of_free layered staged (.abort (lined.staged.of_same rfl rfl)) rfl rfl
  | fails error =>
      exact ⟨layered, staged, lined.lineMode.of_same rfl rfl rfl, lined.store, lined.reached⟩

/-- Every operation does. -/
theorem lined_invariant {σ : Type} {permits : Action → Prop}
    (suits : ∀ action, permits action → Suits action) :
    Invariant (LineOperation (σ := σ) permits) (Lined permits) where
  move := fun options _ _ lined move => lined_move options suits lined move
  setMode := fun state r allows lined => by
    have lasting : (r.setMode state).modes.Lasting := ⟨rfl, allows⟩
    exact lined.of_free (.of_empty rfl rfl tidy_empty) (.of_lasting lasting)
      (.of_lasting lasting rfl) rfl rfl
  setRecording := fun _ _ lined =>
    ⟨⟨lined.layered.typed, lined.layered.reached, lined.layered.tidy⟩, lined.staged.of_same rfl rfl,
      lined.lineMode.of_same rfl rfl rfl, lined.store, lined.reached⟩
  setMappings := fun _ _ allows lined =>
    ⟨⟨lined.layered.typed, lined.layered.reached, lined.layered.tidy⟩, lined.staged.of_same rfl rfl,
      lined.lineMode.of_same rfl rfl rfl, allows, lined.reached⟩
  events := fun _ _ lined =>
    ⟨⟨lined.layered.typed, lined.layered.reached, lined.layered.tidy⟩, lined.staged.of_same rfl rfl,
      lined.lineMode.of_same rfl rfl rfl, lined.store, lined.reached⟩

theorem lined_start (permits : Action → Prop) (keys : CommandKeys) : Lined permits { keys } where
  layered := .of_empty rfl rfl tidy_empty
  staged := .of_lasting ⟨rfl, rfl⟩
  lineMode := .of_lasting ⟨rfl, rfl⟩ rfl
  store := by
    intro keys mapping action found
    cases found
  reached := by
    intro mode
    cases mode

/-! ## An action that does not suit a command line -/

/-- An action that opens a command line. -/
def lineOpener : Action := { name := "opens a line", argument := .exString }

/-- The key `x` opens a command line, and is mapped to an action while one is
typed. -/
def lineMappings (action : Action) : MappingStore where
  table := (KeyTable.empty.insert .normal [.char 'x']
      ⟨0, ⟨[.char 'x'], .action lineOpener, .single .normal, true⟩⟩).insert .commandLine [.char 'x']
    ⟨1, ⟨[.char 'x'], .action action, .single .commandLine, true⟩⟩
  made := 2

theorem lineMappings_actions {permits : Action → Prop} {action : Action} (holds : permits action) :
    LineActions permits (lineMappings action) := by
  intro keys mapping found leads target
  rw [MappingStore.value?_lookup, lineMappings, KeyTable.get?_insert _ _ _ _ (by simp),
    KeyTable.get?_insert _ _ _ _ (by simp)] at leads
  split at leads
  · cases leads
    cases target
    exact holds
  · simp at leads

/-- No option is known. -/
def plainOptions : OptionView := ⟨{}, .everywhere⟩

/-- The state after `x` was typed. -/
def lineTyped (keys : CommandKeys) (action : Action) : Resolver where
  keys := keys
  mappings := lineMappings action
  modes := ⟨.ofMode .commandLine, [.ofMode .normal]⟩
  pending := { awaiting := some (.line (.new lineOpener 0) ':' []) }
  events := [.modeChanged ⟨.ofMode .normal, .ofMode .commandLine⟩]

section Typing

variable {σ : Type} (evaluate : Evaluator σ) (world : σ)

theorem lineTyped_opens (keys : CommandKeys) (action : Action) :
    inputKey plainOptions evaluate { keys, mappings := lineMappings action } world (.char 'x') =
      (lineTyped keys action, world) :=
  process_eq_lookedAt plainOptions evaluate 1
    ({ keys, mappings := lineMappings action, typeahead := [.mappable (.char 'x') 0] }, world) rfl

theorem lineTyped_acts (keys : CommandKeys) (action : Action) :
    inputKey plainOptions evaluate (lineTyped keys action) world (.char 'x') =
      (commandResolved plainOptions (lineTyped keys action) action [], world) := by
  have stepped : step? plainOptions evaluate
      { lineTyped keys action with typeahead := [.mappable (.char 'x') 0] } world =
        some (commandResolved plainOptions (lineTyped keys action) action [], world) := rfl
  exact process_of_last plainOptions evaluate stepped
    (Quiet.commandResolved plainOptions (lineTyped keys action) action []).typeahead

/-- The line that the action opened above the other was entered. -/
def lineEntered (keys : CommandKeys) (action : Action) : Resolver :=
  (commandResolved plainOptions (lineTyped keys action) action []).answered.popMode

/-- A command that asks for no mode leaves that of a line, if the line was opened
in Normal mode. -/
theorem complete_plain {r : Resolver} (command : Command)
    (change : command.action.modeChange = .none) (lowest : r.modes.base.mode = .normal)
    (mode : r.modes.mode = .commandLine) :
    (r.complete plainOptions command).modes = r.modes := by
  have unled : r.modes.keymodelTarget? plainOptions command.flags = none := by
    unfold ModeStack.keymodelTarget?
    simp [lowest, ModeStack.stopsSelection, plainOptions, OptionView.has, OptionView.value?,
      OptionStore.find?]
  have selecting : r.modes.mode.isSelecting = false := by rw [mode]; rfl
  unfold complete applyKeymodel
  rw [unled]
  unfold applyModeChange
  rw [change]
  simp [emit, selecting, forget]

include world in
/-- An action that does not suit a command line parts it from its mode. -/
theorem exists_parted {permits : Action → Prop} (action : Action)
    (holds : permits action) (unsuited : ¬ Suits action) (keys : CommandKeys) :
    ∃ r, Reachable (σ := σ) (LineOperation permits) { keys } r ∧
      ¬ (r.modes.mode = .commandLine ↔ r.commandLine?.isSome = true) := by
  let evaluate : Evaluator σ := fun text world => (.ok text, world)
  have mapped : Reachable (σ := σ) (LineOperation permits) { keys }
      { keys, mappings := lineMappings action } :=
    .run (.setMappings (lineMappings action)) .start (lineMappings_actions holds)
  have pressed {r r' : Resolver} {key : Key} (reached : Reachable (σ := σ) (LineOperation permits)
      { keys } r) (leads : inputKey plainOptions evaluate r world key = (r', world)) :
      Reachable (σ := σ) (LineOperation permits) { keys } r' := by
    have run := Reachable.run (.key plainOptions evaluate world key) reached trivial
    rwa [Operation.run, leads] at run
  have acted := pressed (pressed mapped (lineTyped_opens evaluate world keys action))
    (lineTyped_acts evaluate world keys action)
  rcases action with ⟨name, work, argument, flags, strategy, change, builtin⟩
  cases argument with
  | none =>
      obtain rfl : change = .none := by
        apply Decidable.byContradiction
        exact fun asks => unsuited ⟨.inl rfl, asks⟩
      let action : Action := { name, kind := work, flags, strategy, builtin }
      have left : (commandResolved plainOptions (lineTyped keys action) action []).modes =
          (lineTyped keys action).modes :=
        complete_plain (.new action 0) rfl rfl rfl
      refine ⟨_, acted, fun agree => ?_⟩
      have typed := agree.mp (congrArg ModeStack.mode left)
      cases typed
  | motion => exact ⟨_, acted, fun agree => Mode.noConfusion (agree.mpr rfl)⟩
  | character => exact ⟨_, acted, fun agree => Bool.noConfusion (agree.mp rfl)⟩
  | exString =>
      obtain rfl : change = .none := by
        apply Decidable.byContradiction
        exact fun asks => unsuited ⟨.inr rfl, asks⟩
      let action : Action :=
        { name, kind := work, argument := .exString, flags, strategy, builtin }
      have entered : inputKey plainOptions evaluate
          (commandResolved plainOptions (lineTyped keys action) action []) world
          (.special .enter) = (complete plainOptions (lineEntered keys action)
            ((Command.new action 0).withArgument (.line "")), world) :=
        process_of_last plainOptions evaluate rfl
          (Quiet.complete plainOptions (lineEntered keys action) _).typeahead
      have left : (complete plainOptions (lineEntered keys action)
          ((Command.new action 0).withArgument (.line ""))).modes =
            (lineEntered keys action).modes :=
        complete_plain _ rfl rfl rfl
      refine ⟨_, pressed acted entered, fun agree => ?_⟩
      have typed := agree.mp (congrArg ModeStack.mode left)
      cases typed
  | offsets => exact ⟨_, acted, fun agree => Bool.noConfusion (agree.mp rfl)⟩

end Typing

/-- In every state that calls lead to, whatever is mapped, an operator is there
while its motion is waited for; and in all of them the mode is that of a command
line exactly while one is typed, if and only if the actions that keys are mapped to
in that mode suit a command line. -/
theorem modes_agree {σ : Type} (world : σ) (permits : Action → Prop) :
    (∀ keys r, Reachable (σ := σ) (LineOperation permits) { keys } r →
      r.modes.mode = .operatorPending → r.pending.operator ≠ none) ∧
      ((∀ keys r, Reachable (σ := σ) (LineOperation permits) { keys } r →
          (r.modes.mode = .commandLine ↔ r.commandLine?.isSome = true)) ↔
        ∀ action, permits action → Suits action) := by
  constructor
  · intro keys r reached mode
    have staged : Staged r :=
      reached.invariant (.of_lasting ⟨rfl, rfl⟩) (staged_invariant fun _ allows => allows)
    exact staged.operator ⟨r.modes.state, .head _, mode⟩
  · constructor
    · intro agree action holds
      apply Decidable.byContradiction
      intro unsuited
      obtain ⟨r, reached, parted⟩ := exists_parted world action holds unsuited {}
      exact parted (agree {} r reached)
    · intro suits keys r reached
      exact (reached.invariant (lined_start permits keys) (lined_invariant suits)).lineMode.line

/-- With the default keys, an action that does nothing parts the line from its
mode. -/
theorem noop_parts :
    ∃ r, Reachable (σ := Unit) (LineOperation fun _ => True) { keys := .default } r ∧
      ¬ (r.modes.mode = .commandLine ↔ r.commandLine?.isSome = true) := by
  apply exists_parted () { name := "noop" } trivial
  rintro ⟨_, asks⟩
  exact asks rfl

end ModalInput.Resolver
