/-
# ModalInput.Proofs.RepeatedOperators -- an operator that is typed twice

An operator that is typed again applies to the current line.  The keys of the operator are
looked up in the table of Normal mode, and while a motion is waited for, the same keys are
looked up once more, in the table of motions, until all of them are there.  So the second
time works as long as the first of the keys only start longer motions: each of them is
gathered, and with the last of them the operator is repeated (`operator_repeated`).

Where a motion, or nothing, starts with the first of the keys, that is what they are.  And
of an operator with two keys the second one is enough; so if its two keys are the same,
three of them are a command already, and the fourth starts another one
(`doubledKey_startsAgain`).

* `Key.Ordinary` -- a key of the table, whatever is pending.
* `Attentive.inputKeys_gathers` -- keys that are gathered, one after the other.
* `Attentive.inputKeys_operator` -- the keys of an operator, after its count.
* `Attentive.tells_repeated` -- the keys that repeat it.
-/
import ModalInput.Proofs.CommandTables
import ModalInput.Proofs.CountedCommands

namespace ModalInput

set_option autoImplicit false

/-- The key is no digit, not the sign before a register, and not Escape. -/
structure Key.Ordinary (key : Key) : Prop where
  noDigit : key.digit? = none
  noSign : key.char? ≠ some '"'
  noEscape : key.isEscape = false

/-- With more keys of the command, and what they may be already. -/
def PendingCommand.collecting (pending : PendingCommand) (keys : List Key)
    (held : Option (Reached Action)) : PendingCommand :=
  { pending with keys := pending.keys ++ keys, held, shown := pending.shown ++ keys }

theorem PendingCommand.collecting_collecting (pending : PendingCommand) (keys more : List Key)
    (held later : Option (Reached Action)) :
    (pending.collecting keys held).collecting more later =
      pending.collecting (keys ++ more) later := by
  simp only [collecting, List.append_assoc]

namespace Resolver

variable (options : OptionView) {r : Resolver}

/-! ## Keys of the table -/

section Key

variable {key : Key} (idle : r.pending.awaiting = none) (ordinary : key.Ordinary)
include idle ordinary

theorem commandKey_ordinary : r.commandKey options key = tableKey options (r.noted key) key := by
  have uncounted (pending : PendingCommand) : countWith? pending key = none := by
    simp only [countWith?, ordinary.noDigit]
  unfold commandKey
  rw [idle]
  dsimp only
  rw [ordinary.noEscape, Bool.false_and, if_neg Bool.false_ne_true]
  split
  · rw [uncounted]
    exact if_neg (by simp [ordinary.noSign])
  · rfl

/-- A key that repeats no operator. -/
theorem commandKey_once (once : (r.gathered key).pending.repeatsOperator = false) :
    r.commandKey options key = lookUp options (r.gathered key) := by
  rw [commandKey_ordinary options idle ordinary]
  exact if_neg (by rw [Bool.not_eq_true]; exact once)

/-- A key behind which more can follow. -/
theorem commandKey_gathers (once : (r.gathered key).pending.repeatsOperator = false)
    (more : (r.keys.lookup (.of r.modes.mode) (r.pending.keys ++ [key])).needsMore = true) :
    ∃ held, r.commandKey options key = r.withPending (r.pending.collecting [key] held) := by
  rw [commandKey_once options idle ordinary once]
  have typed : (r.gathered key).keys.lookup (.of (r.gathered key).modes.mode)
      (r.gathered key).pending.keys =
        r.keys.lookup (.of r.modes.mode) (r.pending.keys ++ [key]) := rfl
  unfold lookUp
  rw [typed]
  cases found : r.keys.lookup (.of r.modes.mode) (r.pending.keys ++ [key]) with
  | incomplete => exact ⟨r.pending.held, rfl⟩
  | ambiguous action => exact ⟨_, rfl⟩
  | complete action =>
      rw [found] at more
      cases more
  | unmapped =>
      rw [found] at more
      cases more

/-- The last key of an action. -/
theorem commandKey_resolves (once : (r.gathered key).pending.repeatsOperator = false)
    {action : Action}
    (found : r.keys.lookup (.of r.modes.mode) (r.pending.keys ++ [key]) = .complete action) :
    r.commandKey options key =
      commandResolved options (r.gathered key).released action (r.pending.keys ++ [key]) := by
  rw [commandKey_once options idle ordinary once]
  have typed : (r.gathered key).keys.lookup (.of (r.gathered key).modes.mode)
      (r.gathered key).pending.keys = .complete action := found
  unfold lookUp
  rw [typed]
  rfl

/-- A key that repeats the operator. -/
theorem commandKey_repeats {operator : PendingOperator}
    (waiting : r.pending.operator = some operator)
    (again : (r.gathered key).pending.repeatsOperator = true) :
    r.commandKey options key = finishOperator options (r.gathered key).doubled operator.command
      (.new .currentLine (r.pending.motionCount.getD 0)) := by
  have done : tableKey options (r.noted key) key =
      argumentDone options (r.gathered key).doubled
        (.new .currentLine (r.pending.motionCount.getD 0)) := if_pos again
  have there : (r.gathered key).doubled.pending.operator = some operator := waiting
  rw [commandKey_ordinary options idle ordinary, done]
  simp only [argumentDone, there]

end Key

/-- In Normal mode, an operator gets the count that was typed, and waits for its motion. -/
theorem commandResolved_counted (normal : r.modes.mode = .normal) {count : Option Count}
    {shown : List Key} (counted : r.pending = { count, shown }) {operator : Action}
    (isOperator : operator.isOperator = true) (keys : List Key) :
    commandResolved options r operator keys =
      (r.withPending {
        operator := some ⟨.new operator (count.getD 0), keys⟩
        shown }).pushMode .operatorPending := by
  have free : r.modes.mode ≠ .operatorPending := by
    rw [normal]
    decide
  have command : r.commandOf operator = .new operator (count.getD 0) := by
    rw [commandOf, if_neg free, counted]
    simp [typedCommand, typedCount, Command.withRegister, Command.new]
  have taken : r.counted = r.withPending { shown } := by
    rw [Resolver.counted, if_neg free, counted]
    rfl
  rw [commandResolved_starts options r operator keys ⟨free, isOperator, by rw [normal]; rfl⟩,
    command, taken]
  rfl

/-! ## Keys that are gathered -/

variable {σ : Type} (evaluate : Evaluator σ)

/-- Typed keys of which each could be followed by more, and which repeat no operator. -/
structure Gathers (r : Resolver) (typed : List Key) : Prop where
  idle : r.pending.awaiting = none
  ordinary : ∀ key ∈ typed, key.Ordinary
  more : ∀ front, front ≠ [] → front <+: typed →
    (r.keys.lookup (.of r.modes.mode) (r.pending.keys ++ front)).needsMore = true
  once : ∀ front, front ≠ [] → front <+: typed →
    ({ r.pending with keys := r.pending.keys ++ front } : PendingCommand).repeatsOperator = false

/-- What is left to be gathered after the first of the keys. -/
theorem Gathers.rest {key : Key} {rest : List Key} (gathers : Gathers r (key :: rest))
    (held : Option (Reached Action)) :
    Gathers (r.withPending (r.pending.collecting [key] held)) rest where
  idle := gathers.idle
  ordinary := fun other member => gathers.ordinary other (List.mem_cons_of_mem _ member)
  more := by
    intro front typed start
    have longer := gathers.more (key :: front) (by simp) (List.cons_prefix_cons.mpr ⟨rfl, start⟩)
    rwa [List.append_cons] at longer
  once := by
    intro front typed start
    have longer := gathers.once (key :: front) (by simp) (List.cons_prefix_cons.mpr ⟨rfl, start⟩)
    rwa [List.append_cons] at longer

namespace Attentive

theorem inputKeys_gathers (attentive : Attentive r) {typed : List Key}
    (gathers : Gathers r typed) (world : σ) :
    ∃ held, inputKeys options evaluate r world typed =
      (r.withPending (r.pending.collecting typed held), world) := by
  induction typed generalizing r with
  | nil =>
      refine ⟨r.pending.held, ?_⟩
      simp only [PendingCommand.collecting, List.append_nil]
      rfl
  | cons key rest ih =>
      have start : [key] <+: key :: rest := List.cons_prefix_cons.mpr ⟨rfl, List.nil_prefix⟩
      obtain ⟨held, gathered⟩ := commandKey_gathers options gathers.idle
        (gathers.ordinary key List.mem_cons_self) (gathers.once [key] (by simp) start)
        (gathers.more [key] (by simp) start)
      have first := attentive.inputKey_of_commandKey options evaluate world gathered
        attentive.waiting
      have begun : Attentive (r.withPending (r.pending.collecting [key] held)) :=
        attentive.withPending gathers.idle
      obtain ⟨held', later⟩ := ih begun (gathers.rest held)
      refine ⟨held', ?_⟩
      rw [inputKeys_cons options evaluate first, later, pending_withPending, withPending_again,
        PendingCommand.collecting_collecting, List.singleton_append]

/-! ## The keys of an operator -/

/-- The keys of an operator, when nothing but a count was typed before them. -/
theorem inputKeys_operator (attentive : Attentive r) (made : r.keys.Made)
    (normal : r.modes.mode = .normal) {count : Option Count} {shown : List Key}
    (counted : r.pending = { count, shown }) {typed : List Key} {operator : Action}
    (bound : r.keys.BoundApart .normal typed operator) (ordinary : ∀ key ∈ typed, key.Ordinary)
    (isOperator : operator.isOperator = true) (world : σ) :
    inputKeys options evaluate r world typed =
      ((r.withPending {
        operator := some ⟨.new operator (count.getD 0), typed⟩
        shown := shown ++ typed }).pushMode .operatorPending, world) := by
  obtain ⟨front, last, rfl⟩ := (List.eq_nil_or_concat' typed).resolve_left bound.ne_nil
  have current : MapMode.of r.modes.mode = .normal := by rw [normal]; rfl
  have alone (keys : List Key) :
      ({ r.pending with keys } : PendingCommand).repeatsOperator = false := by
    simp [PendingCommand.repeatsOperator, counted]
  have gathers : Gathers r front := by
    refine ⟨by rw [counted], fun key member => ordinary key (by simp [member]), ?_,
      fun start _ _ => alone _⟩
    rintro start _ ⟨more, rfl⟩
    obtain ⟨key, rest, longer⟩ : ∃ key rest, more ++ [last] = key :: rest := by
      cases more with
      | nil => exact ⟨_, _, rfl⟩
      | cons key rest => exact ⟨_, _, rfl⟩
    have split : start ++ more ++ [last] = start ++ key :: rest := by
      rw [List.append_assoc, longer]
    rw [counted, List.nil_append, current, bound.lookup_front made split]
    rfl
  obtain ⟨held, gathered⟩ := attentive.inputKeys_gathers options evaluate gathers world
  let typing := r.withPending (r.pending.collecting front held)
  have typed : typing.pending.keys = front := by
    show r.pending.keys ++ front = front
    rw [counted, List.nil_append]
  have found : typing.keys.lookup (.of typing.modes.mode) (typing.pending.keys ++ [last]) =
      .complete operator := by
    rw [typed]
    show r.keys.lookup (.of r.modes.mode) _ = _
    rw [current, bound.lookup made]
  have resolved := commandKey_resolves options (r := typing) gathers.idle
    (ordinary last (by simp)) (alone _) found
  have left : (typing.gathered last).released.pending =
      { count, shown := shown ++ (front ++ [last]) } := by
    show ({ r.pending with keys := [], held := none, shown := r.pending.shown ++ front ++ [last] } :
      PendingCommand) = _
    rw [counted, List.append_assoc]
  rw [typed, commandResolved_counted options (r := (typing.gathered last).released) normal left
    isOperator] at resolved
  have begun : Attentive typing := attentive.withPending gathers.idle
  rw [inputKeys_append, gathered, inputKeys_single]
  exact begun.inputKey_of_commandKey options evaluate world resolved attentive.waiting

/-- The keys that repeat an operator. -/
theorem tells_repeated (attentive : Attentive r) {operator : PendingOperator}
    (waiting : r.pending.operator = some operator) {front : List Key} (gathers : Gathers r front)
    {last : Key} (ordinary : last.Ordinary)
    (again : ({ r.pending with keys := r.pending.keys ++ front ++ [last] } :
      PendingCommand).repeatsOperator = true) (world : σ) :
    let after := (inputKeys options evaluate r world (front ++ [last])).1
    TellsCommand r after (toldOperator operator.command
        (.new .currentLine (r.pending.motionCount.getD 0))) ∧
      after.isPending = false := by
  intro after
  obtain ⟨held, gathered⟩ := attentive.inputKeys_gathers options evaluate gathers world
  let typing := r.withPending (r.pending.collecting front held)
  have repeated := commandKey_repeats options (r := typing) gathers.idle ordinary waiting again
  have quiet := Quiet.finishOperator options (typing.gathered last).doubled operator.command
    (.new .currentLine (r.pending.motionCount.getD 0))
  have begun : Attentive typing := attentive.withPending gathers.idle
  have done := begun.inputKey_of_commandKey options evaluate world repeated
    (quiet.typeahead.trans attentive.waiting)
  have whole : after = finishOperator options (typing.gathered last).doubled operator.command
      (.new .currentLine (r.pending.motionCount.getD 0)) := by
    show (inputKeys options evaluate r world (front ++ [last])).1 = _
    rw [inputKeys_append, gathered, inputKeys_single, done]
    rfl
  have same : Emits IsStep r (typing.gathered last).doubled := .of_events rfl
  rw [whole]
  refine ⟨.of_steps same (.finishOperator options _ _ _), ?_⟩
  refine (begun.toMapless.of_surroundings ?_).not_isPending
    (quiet.typeahead.trans attentive.waiting) rfl
  exact surroundings_applyModeChange options _ _

end Attentive

/-! ## Typing an operator twice -/

section Again

variable {command : Command} {front : List Key} {last : Key}

/-- The first of the keys of an operator do not repeat it, unless there are two and they are
the same. -/
theorem repeatsOperator_front {pending : PendingCommand} {start more : List Key}
    (waiting : pending.operator = some ⟨command, start ++ more ++ [last]⟩) (begun : start ≠ [])
    (differ : ∀ key, start ++ more ++ [last] ≠ [key, key]) :
    ({ pending with keys := start } : PendingCommand).repeatsOperator = false := by
  have shorter : start ≠ start ++ more ++ [last] := by
    intro same
    simpa using congrArg List.length same
  have second (two : (start ++ more ++ [last]).length = 2) :
      start ≠ (start ++ more ++ [last]).drop 1 := by
    obtain ⟨key, rest, rfl⟩ := List.exists_cons_of_ne_nil begun
    obtain ⟨rfl, rfl⟩ : rest = [] ∧ more = [] := by
      constructor <;> apply List.eq_nil_of_length_eq_zero <;> simp at two <;> omega
    simp only [List.append_nil, List.singleton_append, List.drop_succ_cons, List.drop_zero]
    intro same
    obtain rfl : key = last := by simpa using same
    exact differ key rfl
  simp only [PendingCommand.repeatsOperator, waiting, shorter, decide_false, Bool.false_or,
    Bool.and_eq_false_iff, decide_eq_false_iff_not]
  by_cases two : (start ++ more ++ [last]).length = 2
  · exact .inr (second two)
  · exact .inl two

/-- The keys of an operator are gathered once more while its motion is waited for, as long
as longer motions start with them. -/
theorem gathers_again (mode : r.modes.mode = .operatorPending)
    (waiting : r.pending.operator = some ⟨command, front ++ [last]⟩)
    (idle : r.pending.awaiting = none) (fresh : r.pending.keys = []) (made : r.keys.Made)
    (ordinary : ∀ key ∈ front, key.Ordinary) (differ : ∀ key, front ++ [last] ≠ [key, key])
    (longer : ∀ start more, start ≠ [] → front = start ++ more →
      KeyTable.Continues r.keys.table.get? .operatorPending start) :
    Gathers r front := by
  have current : MapMode.of r.modes.mode = .operatorPending := by rw [mode]; rfl
  refine ⟨idle, ordinary, ?_, ?_⟩
  · rintro start begun ⟨more, rfl⟩
    rw [fresh, List.nil_append, current]
    exact (made.trimmed.needsMore_lookup ..).mpr (longer start more begun rfl)
  · rintro start begun ⟨more, rfl⟩
    rw [fresh, List.nil_append]
    exact repeatsOperator_front waiting begun differ

end Again

/-- An operator waits for its motion, with the counts that were typed before and after it. -/
def operatorAwaited (r : Resolver) (operator : PendingOperator) (motionCount : Option Count)
    (shown : List Key) : Resolver :=
  (r.pushMode .operatorPending).withPending { operator := some operator, motionCount, shown }

/-- The keys of an operator, with digits before and after them. -/
theorem Attentive.inputKeys_counted (attentive : Attentive r) (made : r.keys.Made)
    (normal : r.modes.mode = .normal) (nothing : r.pending = { shown := r.pending.shown })
    {typed : List Key} {operator : Action} (bound : r.keys.BoundApart .normal typed operator)
    (ordinary : ∀ key ∈ typed, key.Ordinary) (isOperator : operator.isOperator = true)
    (first second : CountDigits) (world : σ) :
    inputKeys options evaluate r world (first.keys ++ typed ++ second.keys) =
      (r.operatorAwaited ⟨.new operator (first.count?.getD 0), typed⟩ second.count?
        (r.pending.shown ++ first.keys ++ typed ++ second.keys), world) := by
  have counting : Counting r := ⟨by rw [normal]; rfl, by rw [nothing], by rw [nothing]⟩
  have counted := attentive.inputKeys_digits options evaluate counting (by rw [nothing]; rfl) first
    world
  rw [first.pending_plain (by rw [nothing]) (by rw [nothing]), nothing] at counted
  have begun : Attentive (r.withPending
      { count := first.count?, shown := r.pending.shown ++ first.keys }) :=
    attentive.withPending rfl
  have started := begun.inputKeys_operator options evaluate made normal rfl bound ordinary
    isOperator world
  let waiting := r.operatorAwaited ⟨.new operator (first.count?.getD 0), typed⟩ none
    (r.pending.shown ++ first.keys ++ typed)
  have listening : Attentive waiting :=
    ⟨⟨attentive.mapsNothing, attentive.trail, attentive.trailMatch⟩, attentive.waiting, rfl⟩
  have recounted := listening.inputKeys_digits options evaluate ⟨rfl, rfl, rfl⟩ rfl second world
  rw [second.pending_motion rfl rfl] at recounted
  rw [inputKeys_append, inputKeys_append, counted, started]
  exact recounted

/-- In Normal mode, with nothing pending and no mappings, an operator that no other keys are
in the way of is repeated when its keys are typed again, each time after digits, and applies
to the current line, with the count of all digits.  Its keys are not twice the same, and
longer motions start with each of the first of them.  Of two keys the second one is enough,
whatever the motions are. -/
theorem operator_repeated (table : CommandKeys) (interactions : List (Interaction σ))
    (made : ((Session.start table).run interactions).resolver.keys.Made)
    (mapsNothing : ((Session.start table).run interactions).resolver.mappings.MapsNothing)
    (normal : ((Session.start table).run interactions).resolver.modes.mode = .normal)
    (idle : ((Session.start table).run interactions).resolver.isPending = false)
    {typed : List Key} {operator : Action}
    (bound : ((Session.start table).run interactions).resolver.keys.BoundApart .normal typed
      operator)
    (isOperator : operator.isOperator = true) (ordinary : ∀ key ∈ typed, key.Ordinary)
    (first second : CountDigits) (world : σ) :
    let r := ((Session.start table).run interactions).resolver
    let after (keys : List Key) : Resolver :=
      (inputKeys options evaluate r world (first.keys ++ typed ++ second.keys ++ keys)).1
    let count := Count.compose (first.count?.getD 0) (second.count?.getD 0)
    let told : ResolvedCommand :=
      ⟨(Command.new operator count).withArgument (.motion (.new .currentLine count)),
        { operatorPending := true, count, state := .ofMode .operatorPending }⟩
    ((∀ key, typed ≠ [key, key]) →
      (∀ front rest, front ≠ [] → rest ≠ [] → typed = front ++ rest →
        KeyTable.Continues r.keys.table.get? .operatorPending front) →
        TellsCommand r (after typed) told ∧ (after typed).isPending = false) ∧
    ∀ one two, typed = [one, two] →
      TellsCommand r (after [two]) told ∧ (after [two]).isPending = false := by
  intro r after count told
  have attentive : Attentive r :=
    .of_idle (Session.layered_run table interactions) mapsNothing idle
  have nothing := pending_of_idle (Session.layered_run table interactions).tidy idle
  let pending : PendingOperator := ⟨.new operator (first.count?.getD 0), typed⟩
  let shown := r.pending.shown ++ first.keys ++ typed ++ second.keys
  let waiting := r.operatorAwaited pending second.count? shown
  have started := attentive.inputKeys_counted options evaluate made normal nothing bound ordinary
    isOperator first second world
  have begun (keys : List Key) :
      after keys = (inputKeys options evaluate waiting world keys).1 := by
    show (inputKeys options evaluate r world _).1 = _
    rw [inputKeys_append, started]
  have listening : Attentive waiting :=
    ⟨⟨attentive.mapsNothing, attentive.trail, attentive.trailMatch⟩, attentive.waiting, rfl⟩
  have awaited : waiting.pending.operator = some pending := rfl
  have steps : Emits IsStep r waiting :=
    (Emits.pushMode isStep r .operatorPending).trans (.of_events rfl)
  constructor
  · intro differ longer
    obtain ⟨front, last, rfl⟩ := (List.eq_nil_or_concat' typed).resolve_left bound.ne_nil
    have gathers : Gathers waiting front := by
      refine gathers_again rfl rfl rfl rfl made (fun key member => ordinary key (by simp [member]))
        differ ?_
      rintro start more nonempty rfl
      exact longer start (more ++ [last]) nonempty (by simp) (List.append_assoc ..)
    have repeated := listening.tells_repeated options evaluate awaited gathers
      (ordinary last (by simp)) (by simp [PendingCommand.repeatsOperator, waiting, pending,
        operatorAwaited]) world
    rw [begun]
    exact ⟨.of_steps steps repeated.1, repeated.2⟩
  · rintro one two rfl
    have gathers : Gathers waiting [] :=
      ⟨rfl, by simp, fun start nonempty none => absurd (List.prefix_nil.mp none) nonempty,
        fun start nonempty none => absurd (List.prefix_nil.mp none) nonempty⟩
    have repeated := listening.tells_repeated options evaluate awaited gathers
      (ordinary two (by simp)) (by simp [PendingCommand.repeatsOperator, waiting, pending,
        operatorAwaited]) world
    rw [begun]
    exact ⟨.of_steps steps repeated.1, repeated.2⟩

/-- The keys of the operator that swaps the case, once with each of two counts. -/
theorem toggleCase_repeated :
    let evaluate : Evaluator Unit := fun text world => (.ok text, world)
    let three : CountDigits := ⟨['3'], by decide, by decide⟩
    let two : CountDigits := ⟨['2'], by decide, by decide⟩
    let typed : List Key := [.char 'g', .char '~']
    let operator : Action := .ofOperator .otherWritable "operator.toggle-case"
    let r := ((Session.start .default).run ([] : List (Interaction Unit))).resolver
    let after := (inputKeys plainOptions evaluate r () (three.keys ++ typed ++ two.keys ++ typed)).1
    (r.keys.Made ∧ r.mappings.MapsNothing ∧ r.modes.mode = .normal ∧ r.isPending = false ∧
      r.keys.BoundApart .normal typed operator ∧ operator.isOperator = true ∧
      (∀ key ∈ typed, key.Ordinary) ∧ (∀ key, typed ≠ [key, key]) ∧
      ∀ front rest, front ≠ [] → rest ≠ [] → typed = front ++ rest →
        KeyTable.Continues r.keys.table.get? .operatorPending front) ∧
      three.keys ++ typed ++ two.keys ++ typed = typedKeys "3g~2g~".toList ∧
      TellsCommand r after
        ⟨(Command.new operator 6).withArgument (.motion (.new .currentLine 6)),
          { operatorPending := true, count := 6, state := .ofMode .operatorPending }⟩ ∧
      after.isPending = false := by
  intro evaluate three two typed operator r after
  have bound : r.keys.BoundApart .normal typed operator := by
    constructor
    · show CommandKeys.default.table.get? .normal typed = _
      rw [CommandKeys.get?_default (by simp [typed])]
      decide +kernel
    · have rows : ∀ row ∈ defaultBindings, row.modes.contains .normal = true →
          (Key.ofText row.keys).isPrefixOf typed = true ∨
            typed.isPrefixOf (Key.ofText row.keys) = true → Key.ofText row.keys = typed := by
        decide +kernel
      intro other valued near
      obtain ⟨action, found⟩ := Option.isSome_iff_exists.mp valued
      obtain ⟨row, member, contains, keys, _⟩ := CommandKeys.exists_binding found
      simp only [List.isPrefixOf_iff_prefix] at rows
      exact keys ▸ rows row member contains (keys ▸ near)
  have longer : ∀ front rest, front ≠ [] → rest ≠ [] → typed = front ++ rest →
      KeyTable.Continues r.keys.table.get? .operatorPending front := by
    intro front rest nonempty nonempty' split
    obtain rfl : front = [.char 'g'] := by
      rcases front with _ | ⟨g, _ | ⟨tilde, more⟩⟩
      · exact absurd rfl nonempty
      · rw [(List.cons.inj split).1]
      · simp [typed, nonempty'] at split
    exact CommandKeys.continues_default.mpr (by decide +kernel)
  have ordinary : ∀ key ∈ typed, key.Ordinary := by
    intro key member
    rcases List.mem_cons.mp member with rfl | member
    · exact ⟨rfl, by decide, by decide⟩
    · obtain rfl := List.mem_singleton.mp member
      exact ⟨rfl, by decide, by decide⟩
  have differ : ∀ key, typed ≠ [key, key] := by
    intro key same
    have keys : Key.char 'g' = key ∧ Key.char '~' = key := by simpa [typed] using same
    exact absurd (keys.1.trans keys.2.symm) (by decide)
  have told := (operator_repeated plainOptions evaluate .default [] CommandKeys.made_default
    MappingStore.mapsNothing_new rfl rfl bound rfl ordinary three two ()).1 differ longer
  exact ⟨⟨CommandKeys.made_default, MappingStore.mapsNothing_new, rfl, rfl, bound, rfl, ordinary,
    differ, longer⟩, by decide, told⟩

/-- An operator of the same key twice, and nothing else. -/
def doubledKeys : CommandKeys :=
  CommandKeys.empty.bind (.single .normal) [.char 'Q', .char 'Q']
    (.ofOperator .delete "operator.delete")

/-- Of two keys that are the same, the third time repeats the operator, and the fourth is the
first of the operator again: it is pending. -/
theorem doubledKey_startsAgain :
    let evaluate : Evaluator Unit := fun text world => (.ok text, world)
    let typed : List Key := [.char 'Q', .char 'Q']
    let r := ((Session.start doubledKeys).run ([] : List (Interaction Unit))).resolver
    (r.keys.Made ∧ r.mappings.MapsNothing ∧ r.modes.mode = .normal ∧ r.isPending = false ∧
      r.keys.BoundApart .normal typed (.ofOperator .delete "operator.delete") ∧
      ∀ key ∈ typed, key.Ordinary) ∧
    (inputKeys plainOptions evaluate r () (typed ++ typed)).1.isPending = true := by
  intro evaluate typed r
  have bound : r.keys.BoundApart .normal typed (.ofOperator .delete "operator.delete") := by
    have values (other : List Key) (valued : (r.keys.table.get? .normal other).isSome = true) :
        other = typed := by
      cases other with
      | nil =>
          rw [KeyTable.get?_nil] at valued
          cases valued
      | cons key rest =>
          rw [show r.keys = doubledKeys from rfl, doubledKeys,
            CommandKeys.get?_table_bind _ _ _ _ (by simp)] at valued
          split at valued
          · rename_i same
            exact same.2.symm
          · cases valued
    exact ⟨rfl, fun other valued _ => values other valued⟩
  have ordinary : ∀ key ∈ typed, key.Ordinary := by
    intro key member
    obtain rfl : key = .char 'Q' := by simpa [typed] using member
    exact ⟨rfl, by decide, by decide⟩
  have pending := inputKeys_of_any plainOptions evaluate 1 (typed ++ typed) r ()
    (fun next => next.1.isPending) (by decide)
  exact ⟨⟨.bind .empty _ _ _, MappingStore.mapsNothing_new, rfl, rfl, bound, ordinary⟩, pending⟩

end Resolver

end ModalInput
