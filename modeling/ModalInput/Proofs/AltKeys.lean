/-
# ModalInput.Proofs.AltKeys -- a character with Alt

Terminals send a character with Alt the way they send Escape and the character, so a
resolver that does not know the key takes it apart.  It does so with the first key of a
command: then it makes no difference which of the two was typed, whatever count, register
or operator is pending (`Attentive.alt_apart`).

Anywhere else the key stays in one piece, and Escape is lost, or the character is
(`altKey_or_escape`).  A key sequence that was begun is dropped, and so is a command that
waits for a register or a character, but the character is not looked at again; a command
that is held runs, although Escape drops it; and a command line does not even end.
-/
import ModalInput.Proofs.HeldCommands
import ModalInput.Proofs.RepeatedOperators

namespace ModalInput

set_option autoImplicit false

/-! ## The key -/

namespace Key

/-- A character, with Alt held down. -/
def alt (c : Char) : Key := .of (.char c) .onlyAlt

variable (c : Char)

@[simp] theorem code_alt : (alt c).code = .char c := rfl
@[simp] theorem mods_alt : (alt c).mods = .onlyAlt := rfl

theorem decompose?_alt : (alt c).decompose? = some (.escape, .char c) := rfl

theorem char?_alt : (alt c).char? = none := by simp [char?, Modifiers.onlyAlt, Modifiers.none]

theorem literal?_alt : (alt c).literal? = none := by
  simp [literal?, Modifiers.onlyAlt, Modifiers.onlyControl, Modifiers.none]

theorem isEscape_alt : (alt c).isEscape = false := by
  unfold isEscape
  split <;> simp_all [Modifiers.onlyAlt, Modifiers.onlyControl]

theorem isEnter_alt : (alt c).isEnter = false := by
  unfold isEnter
  split <;> simp_all [Modifiers.onlyAlt, Modifiers.none]

theorem ordinary_alt : (alt c).Ordinary where
  noDigit := by simp [digit?, char?_alt]
  noSign := by simp [char?_alt]
  noEscape := isEscape_alt c

/-- What edits a line is typed with Control. -/
theorem alt_ne_control (d : Char) : alt c ≠ .of (.char d) .onlyControl := by
  intro same
  have mods := congrArg Key.mods same
  simp [of, Modifiers.onlyAlt, Modifiers.onlyControl] at mods

end Key

namespace Resolver

theorem isBackspace_alt (c : Char) : isBackspace (.alt c) = false := by
  simp [isBackspace, Key.alt_ne_control]

theorem editLine_alt (typed : List Char) (c : Char) : editLine typed (.alt c) = typed := by
  simp [editLine, isBackspace_alt, Key.alt_ne_control, Key.char?_alt]

/-! ## The command layer -/

variable (options : OptionView) {r : Resolver} (c : Char)

/-- A command line does not see the key. -/
theorem commandKey_alt_line {command : Command} {prompt : Char} {typed : List Char}
    (awaits : r.pending.awaiting = some (.line command prompt typed)) :
    r.commandKey options (.alt c) = r := by
  have stays : lineKey options r.answered command prompt typed (.alt c) =
      r.answered.await (.line command prompt typed) := by
    rw [lineKey, Key.isEnter_alt, Key.isEscape_alt, isBackspace_alt, editLine_alt]
    rfl
  have same : r.answered.await (.line command prompt typed) = r := by
    simp only [answered, await, ← awaits]
  unfold commandKey
  rw [awaits]
  exact stays.trans same

/-- The key is no register, and no character that a command takes. -/
theorem commandKey_alt_name (awaits : r.pending.awaiting = some .register ∨
      ∃ command, r.pending.awaiting = some (.character command)) :
    r.commandKey options (.alt c) = r.abort := by
  unfold commandKey
  rcases awaits with awaits | ⟨command, awaits⟩
  · rw [awaits]
    simp only [argumentKey, registerKey, Key.isEscape_alt, Key.char?_alt, Key.literal?_alt]
    rfl
  · rw [awaits]
    simp only [argumentKey, characterKey, Key.isEscape_alt, Key.literal?_alt]
    rfl

section Unbound

variable (made : r.keys.Made) (idle : r.pending.awaiting = none)
  (unbound : ∀ sequence, (r.keys.table.get? (.of r.modes.mode) sequence).isSome = true →
    Key.alt c ∉ sequence)
  (noPart : ∀ operator, r.pending.operator = some operator → Key.alt c ∉ operator.keys)
include made idle unbound noPart

/-- No command starts with keys that have it among them. -/
theorem commandKey_alt :
    r.commandKey options (.alt c) = unknownKeys options (r.gathered (.alt c)) := by
  have unmapped : (r.gathered (.alt c)).keys.lookup (.of (r.gathered (.alt c)).modes.mode)
      (r.gathered (.alt c)).pending.keys = .unmapped := by
    refine made.lookup_eq_unmapped_iff.mpr fun sequence bound start => unbound sequence bound ?_
    exact start.subset (by simp [gathered])
  have once : (r.gathered (.alt c)).pending.repeatsOperator = false := by
    cases waiting : r.pending.operator with
    | none => simp [PendingCommand.repeatsOperator, gathered, waiting]
    | some operator =>
        have member : Key.alt c ∈ r.pending.keys ++ [.alt c] := by simp
        have absent := noPart operator waiting
        have whole : r.pending.keys ++ [.alt c] ≠ operator.keys :=
          fun same => absent (same ▸ member)
        have second : r.pending.keys ++ [.alt c] ≠ operator.keys.tail :=
          fun same => absent (List.mem_of_mem_tail (same ▸ member))
        simp [PendingCommand.repeatsOperator, gathered, waiting, whole, second]
  rw [commandKey_once options idle (Key.ordinary_alt c) once, lookUp, unmapped]

/-- The first key of a command is taken apart. -/
theorem commandKey_alt_first (first : r.pending.keys = []) (nothing : r.pending.held = none) :
    r.commandKey options (.alt c) = r.requeue [.literal .escape, .literal (.char c)] := by
  rw [commandKey_alt options c made idle unbound noPart,
    unknownKeys_first options r (.alt c) nothing first]
  simp [unknownKey, Key.decompose?_alt, noted, requeue]

end Unbound

/-! ## The key, and Escape before the character -/

section Typed

variable {σ : Type} (evaluate : Evaluator σ) (world : σ)

namespace Attentive

/-- When the key is taken apart, the same two keys are looked at. -/
theorem alt_apart (attentive : Attentive r)
    (apart : r.commandKey options (.alt c) = r.requeue [.literal .escape, .literal (.char c)]) :
    (Resolver.inputKey options evaluate r world (.alt c)).1.literally =
      (inputKeys options evaluate r world [.escape, .char c]).1.literally := by
  let escaping := r.followed [.mappable .escape 0]
  let queued := escaping.followed [.mappable (.char c) 0]
  have mapless : Mapless queued := attentive.toMapless.queued _
  have typed : inputKeys options evaluate r world [.escape, .char c] =
      Resolver.process options evaluate queued world := by
    have escaped : Mapless escaping := attentive.toMapless.queued _
    have first : Resolver.inputKey options evaluate r world .escape =
        Resolver.process options evaluate escaping world :=
      inputKey_followed options evaluate r (by rw [attentive.noOffsets, Bool.false_and]) world
    rw [inputKeys_cons options evaluate first, inputKeys_single,
      inputKey_followed options evaluate _ (by rw [Key.isEscape_char, Bool.and_false]),
      (escaped.process options evaluate world).2]
    exact (escaped.process_followed options evaluate [.mappable (.char c) 0] world).symm
  have same : r.requeue [.literal .escape, .literal (.char c)] = queued.literally := by
    simp [queued, escaping, requeue, followed, literally, attentive.waiting, Queued.key]
  rw [attentive.inputKey_eq options evaluate world, apart, same, typed,
    mapless.process_literally options evaluate world]
  simp only [literally, List.map_map]
  rfl

/-- While a command is pending, Escape drops it, and the character starts anew. -/
theorem escape_drops (attentive : Attentive r) (pending : r.pending.isEmpty = false) :
    inputKeys options evaluate r world [.escape, .char c] =
      Resolver.inputKey options evaluate r.abort world (.char c) := by
  have dropped := attentive.inputKey_of_commandKey options evaluate world
    (commandKey_escape options (show Key.escape.isEscape = true from rfl) pending
      attentive.noOffsets) attentive.waiting
  exact inputKeys_cons options evaluate dropped [.char c]

/-- In the middle of a command, the command that is held runs, or the keys are dropped. -/
theorem alt_later (attentive : Attentive r) (made : r.keys.Made)
    (idle : r.pending.awaiting = none)
    (unbound : ∀ sequence, (r.keys.table.get? (.of r.modes.mode) sequence).isSome = true →
      Key.alt c ∉ sequence)
    (noPart : ∀ operator, r.pending.operator = some operator → Key.alt c ∉ operator.keys)
    (begun : r.pending.keys ≠ []) :
    (Resolver.inputKey options evaluate r world (.alt c)).1 =
      if r.pending.held.isSome then
        (Resolver.process options evaluate (fireHeld options (r.gathered (.alt c))) world).1
      else r.abort := by
  rw [attentive.inputKey_eq options evaluate world,
    commandKey_alt options c made idle unbound noPart]
  cases holding : r.pending.held with
  | some held =>
      rw [unknownKeys_held options r _ (Option.isSome_of_mem holding)]
      rfl
  | none =>
      have waiting : r.abort.typeahead = [] := attentive.waiting
      rw [unknownKeys_later options r _ holding begun, process_of_empty options evaluate waiting]
      rfl

end Attentive

namespace Mapless

/-- Keys that wait are looked at before those that are typed. -/
theorem inputKeys_settled (mapless : Mapless r)
    (noOffsets : (Resolver.process options evaluate r world).1.awaitsOffsets = false)
    (key : Key) (rest : List Key) :
    inputKeys options evaluate r world (key :: rest) =
      inputKeys options evaluate (Resolver.process options evaluate r world).1 world
        (key :: rest) :=
  congrArg (fun s : Resolver × σ => inputKeys options evaluate s.1 s.2 rest)
    (mapless.inputKey_settled options evaluate world key noOffsets)

/-- Keys wait while offsets are awaited. -/
theorem inputKey_awaits (mapless : Mapless r) {key : Key}
    (stays : (r.awaitsOffsets && key.isEscape) = false)
    (awaits : (Resolver.process options evaluate r world).1.awaitsOffsets = true) :
    Resolver.inputKey options evaluate r world key =
      ((Resolver.process options evaluate r world).1.followed [.mappable key 0], world) := by
  rw [inputKey_followed options evaluate r stays, mapless.process_followed options evaluate]
  exact process_of_settled options evaluate
    ((step?_eq_none_iff options evaluate _ world).mpr (.inl awaits))

/-- Escape ends the wait for offsets, if it does not itself wait behind other keys. -/
theorem escape_awaits (mapless : Mapless r)
    (awaits : (Resolver.process options evaluate r world).1.awaitsOffsets = true) :
    (inputKeys options evaluate r world [.escape, .char c]).1 =
      if r.awaitsOffsets then (Resolver.inputKey options evaluate r.cancel world (.char c)).1
      else (Resolver.process options evaluate r world).1.followed
        [.mappable .escape 0, .mappable (.char c) 0] := by
  cases waits : r.awaitsOffsets with
  | true =>
      have cancels : Resolver.inputKey options evaluate r world .escape = (r.cancel, world) :=
        if_pos (by rw [waits]; rfl)
      rw [inputKeys_cons options evaluate cancels]
      rfl
  | false =>
      let escaping := (Resolver.process options evaluate r world).1.followed [.mappable .escape 0]
      have first : Resolver.inputKey options evaluate r world .escape = (escaping, world) :=
        mapless.inputKey_awaits options evaluate world (by rw [waits, Bool.false_and]) awaits
      have still : Resolver.process options evaluate escaping world = (escaping, world) :=
        process_of_settled options evaluate
          ((step?_eq_none_iff options evaluate escaping world).mpr (.inl awaits))
      have escaped : Mapless escaping := (mapless.process options evaluate world).1.queued _
      rw [inputKeys_cons options evaluate first, inputKeys_single,
        escaped.inputKey_awaits options evaluate world
          (by rw [Key.isEscape_char, Bool.and_false]) (by rw [still]; exact awaits), still]
      simp [escaping, followed]

end Mapless

/-- A character with Alt, and Escape and the character, in a session without mappings, where
no keys are bound that have the key among them.  When it is the first key of a command, both
lead to the same, unless the operator that waits was typed with it.  When it is not, Escape
drops the command, and the character starts anew; but with Alt, the character is lost, a
command that is held runs, a command line stays as it is, and offsets are still awaited. -/
theorem altKey_or_escape (table : CommandKeys) (interactions : List (Interaction σ))
    (never : NeverMaps interactions)
    (made : ((Session.start table).run interactions).resolver.keys.Made) (c : Char)
    (unbound : ∀ mode sequence, (((Session.start table).run interactions).resolver.keys.table.get?
      mode sequence).isSome = true → Key.alt c ∉ sequence) (world : σ) :
    let r := ((Session.start table).run interactions).resolver
    let settled := (process options evaluate r world).1
    let together := (inputKey options evaluate r world (.alt c)).1
    let apart := (inputKeys options evaluate r world [.escape, .char c]).1
    let anew := (inputKey options evaluate settled.abort world (.char c)).1
    let noPart := ∀ operator, settled.pending.operator = some operator → Key.alt c ∉ operator.keys
    (settled.pending.awaiting = none → noPart → settled.pending.keys = [] →
      together.events = apart.events ∧ together.modes = apart.modes ∧
        together.pending = apart.pending ∧
        together.typeahead.map Queued.key = apart.typeahead.map Queued.key) ∧
    (settled.pending.awaiting = none → noPart → settled.pending.keys ≠ [] →
      apart = anew ∧
        together = if settled.pending.held.isSome then
            (process options evaluate (fireHeld options (settled.gathered (.alt c))) world).1
          else settled.abort) ∧
    (settled.pending.awaiting = some .register ∨
        (∃ command, settled.pending.awaiting = some (.character command)) →
      apart = anew ∧ together = settled.abort) ∧
    ((∃ command prompt typed, settled.pending.awaiting = some (.line command prompt typed)) →
      apart = anew ∧ together = settled) ∧
    (settled.awaitsOffsets = true →
      together = settled.followed [.mappable (.alt c) 0] ∧
        apart = if r.awaitsOffsets then (inputKey options evaluate r.cancel world (.char c)).1
          else settled.followed [.mappable .escape 0, .mappable (.char c) 0]) := by
  intro r settled together apart anew noPart
  have mapless : Mapless r := Session.mapless_run table never
  have moves : Moves options r settled := process_moves options evaluate r world
  have layered : Layered settled := (Session.layered_run table interactions).moves moves
  have sameKeys : settled.keys = r.keys := moves.tables.1
  have made : settled.keys.Made := sameKeys ▸ made
  have unbound (sequence : List Key)
      (bound : (settled.keys.table.get? (.of settled.modes.mode) sequence).isSome = true) :
      Key.alt c ∉ sequence := unbound _ sequence (sameKeys ▸ bound)
  -- Unless offsets are awaited, the keys go to the command layer of the settled resolver.
  have listening (noOffsets : settled.awaitsOffsets = false) : Attentive settled :=
    ⟨(mapless.process options evaluate world).1,
      process_drained r options evaluate world noOffsets, noOffsets⟩
  have first (noOffsets : settled.awaitsOffsets = false) :
      together = (inputKey options evaluate settled world (.alt c)).1 :=
    congrArg Prod.fst (mapless.inputKey_settled options evaluate world (.alt c) noOffsets)
  have second (noOffsets : settled.awaitsOffsets = false) :
      apart = (inputKeys options evaluate settled world [.escape, .char c]).1 :=
    congrArg Prod.fst (mapless.inputKeys_settled options evaluate world noOffsets _ _)
  have drops (noOffsets : settled.awaitsOffsets = false)
      (pending : settled.pending.isEmpty = false) : apart = anew :=
    (second noOffsets).trans (congrArg Prod.fst
      ((listening noOffsets).escape_drops options c evaluate world pending))
  have leads (noOffsets : settled.awaitsOffsets = false) {next : Resolver}
      (done : settled.commandKey options (.alt c) = next) (waiting : next.typeahead = []) :
      together = next :=
    (first noOffsets).trans (congrArg Prod.fst
      ((listening noOffsets).inputKey_of_commandKey options evaluate world done waiting))
  refine ⟨fun idle noPart fresh => ?_, fun idle noPart begun => ?_, fun awaits => ?_,
    fun awaits => ?_, fun awaits => ?_⟩
  · have noOffsets := awaitsOffsets_of_idle idle
    have taken := commandKey_alt_first options c made idle unbound noPart fresh
      (layered.tidy.not_held fresh)
    have alike : together.literally = apart.literally := by
      rw [first noOffsets, second noOffsets]
      exact (listening noOffsets).alt_apart options c evaluate world taken
    exact same_of_literally alike
  · have noOffsets := awaitsOffsets_of_idle idle
    refine ⟨drops noOffsets (by simp [PendingCommand.isEmpty, begun]), ?_⟩
    rw [first noOffsets]
    exact (listening noOffsets).alt_later options c evaluate world made idle unbound noPart begun
  · have noOffsets : settled.awaitsOffsets = false := by
      rcases awaits with awaits | ⟨command, awaits⟩ <;>
        simp [awaitsOffsets, PendingCommand.awaitsOffsets, awaits]
    have pending : settled.pending.isEmpty = false := by
      rcases awaits with awaits | ⟨command, awaits⟩ <;> simp [PendingCommand.isEmpty, awaits]
    exact ⟨drops noOffsets pending,
      leads noOffsets (commandKey_alt_name options c awaits) (listening noOffsets).waiting⟩
  · obtain ⟨command, prompt, typed, awaits⟩ := awaits
    have noOffsets : settled.awaitsOffsets = false := by
      simp [awaitsOffsets, PendingCommand.awaitsOffsets, awaits]
    exact ⟨drops noOffsets (by simp [PendingCommand.isEmpty, awaits]),
      leads noOffsets (commandKey_alt_line options c awaits) (listening noOffsets).waiting⟩
  · have queued := mapless.inputKey_awaits options evaluate world
      (show (r.awaitsOffsets && (Key.alt c).isEscape) = false by
        rw [Key.isEscape_alt, Bool.and_false]) awaits
    exact ⟨congrArg Prod.fst queued, mapless.escape_awaits options c evaluate world awaits⟩

end Typed

/-! ## With the default keys -/

theorem default_without_alt (mode : MapMode) (sequence : List Key)
    (bound : (CommandKeys.default.table.get? mode sequence).isSome = true) :
    Key.alt 'x' ∉ sequence := by
  have rows : ∀ row ∈ defaultBindings, Key.alt 'x' ∉ Key.ofText row.keys := by decide +kernel
  obtain ⟨action, found⟩ := Option.isSome_iff_exists.mp bound
  obtain ⟨row, member, _, keys, _⟩ := CommandKeys.exists_binding found
  exact keys ▸ rows row member

/-- An operator with a register and a count, and a count for its motion. -/
def operatorText : List Char := ['"', 'a', '2', 'd', '3']

def typedOperator : List (Interaction Unit) :=
  operatorText.map fun c =>
    .call (.key plainOptions (fun text world => (.ok text, world)) () (.char c))

/-- The operator waits for its motion. -/
def waitingOperator : PendingCommand where
  operator := some ⟨(Command.new (.ofOperator .delete "operator.delete") 2).withRegister
    (some (.named 'a')), [.char 'd']⟩
  motionCount := some 3
  shown := operatorText.map .char

theorem keys_inputKeys {σ : Type} (options : OptionView) (evaluate : Evaluator σ) (r : Resolver)
    (world : σ) (keys : List Key) : (inputKeys options evaluate r world keys).1.keys = r.keys := by
  induction keys generalizing r world with
  | nil => rfl
  | cons key rest ih => exact (ih _ _).trans (inputKey_moves options evaluate r world key).tables.1

theorem typedOperator_run :
    let r := ((Session.start .default).run typedOperator).resolver
    r.typeahead = [] ∧ r.keys = .default ∧ r.pending = waitingOperator := by
  have same := keys_inputKeys plainOptions (fun text world => (.ok text, world)) .default ()
    (operatorText.map .char)
  have typed := inputKeys_of_any plainOptions (fun text world => (.ok text, world)) 1
    (operatorText.map .char) .default ()
    (fun next => next.1.typeahead = [] ∧ next.1.pending = waitingOperator) (by decide +kernel)
  obtain ⟨waiting, pending⟩ := of_decide_eq_true typed
  exact ⟨waiting, same, pending⟩

/-- With a register, counts and an operator pending, both drop them, and go on alike. -/
theorem altKey_operator :
    let evaluate : Evaluator Unit := fun text world => (.ok text, world)
    let r := ((Session.start .default).run typedOperator).resolver
    let together := (inputKey plainOptions evaluate r () (.alt 'x')).1
    let apart := (inputKeys plainOptions evaluate r () [.escape, .char 'x']).1
    (NeverMaps typedOperator ∧ r.keys.Made ∧
      ∀ mode sequence, (r.keys.table.get? mode sequence).isSome = true →
        Key.alt 'x' ∉ sequence) ∧
    r.pending = waitingOperator ∧
    together.events = apart.events ∧ together.modes = apart.modes ∧
      together.pending = apart.pending := by
  intro evaluate r together apart
  have never : NeverMaps typedOperator := by
    intro mappings member
    obtain ⟨c, _, same⟩ := List.mem_map.mp member
    cases same
  obtain ⟨waiting, keys, pending⟩ := typedOperator_run
  have made : r.keys.Made := keys ▸ CommandKeys.made_default
  have unbound (mode : MapMode) (sequence : List Key)
      (bound : (r.keys.table.get? mode sequence).isSome = true) : Key.alt 'x' ∉ sequence :=
    default_without_alt mode sequence (keys ▸ bound)
  have first := (altKey_or_escape plainOptions evaluate .default typedOperator never made 'x'
    unbound ()).1
  rw [process_of_empty plainOptions evaluate waiting] at first
  obtain ⟨events, modes, after, _⟩ := first (pending ▸ rfl)
    (by
      intro operator operates
      rw [pending] at operates
      cases operates
      decide)
    (pending ▸ rfl)
  exact ⟨⟨never, made, unbound⟩, pending, events, modes, after⟩

/-- After the sign of a register, the character is lost with Alt, and a command after
Escape. -/
theorem altKey_lost :
    let evaluate : Evaluator Unit := fun text world => (.ok text, world)
    let typed : List (Interaction Unit) := [.call (.key plainOptions evaluate () (.char '"'))]
    let r := ((Session.start .default).run typed).resolver
    (NeverMaps typed ∧ r.keys.Made ∧
      ∀ mode sequence, (r.keys.table.get? mode sequence).isSome = true →
        Key.alt 'x' ∉ sequence) ∧
    (inputKey plainOptions evaluate r () (.alt 'x')).1.events = [] ∧
    (inputKeys plainOptions evaluate r () [.escape, .char 'x']).1.events ≠ [] := by
  intro evaluate typed r
  have never : NeverMaps typed := fun _ member => by simp [typed] at member
  let waiting : Resolver := { keys := .default, pending := {
    awaiting := some .register, shown := [.char '"'] } }
  have same : r = waiting := by
    have step : inputKey plainOptions evaluate { keys := .default } () (.char '"') =
        (waiting, ()) :=
      process_eq_lookedAt plainOptions evaluate 1
        ({ keys := .default, typeahead := [.mappable (.char '"') 0] }, ()) rfl
    exact congrArg Prod.fst step
  rw [same]
  have together := inputKeys_of_any plainOptions evaluate 1 [.alt 'x'] waiting ()
    (fun next => next.1.events = []) (by decide +kernel)
  have apart := inputKeys_of_any plainOptions evaluate 1 [.escape, .char 'x'] waiting ()
    (fun next => next.1.events ≠ []) (by decide +kernel)
  exact ⟨⟨never, CommandKeys.made_default, default_without_alt⟩, of_decide_eq_true together,
    of_decide_eq_true apart⟩

end Resolver

end ModalInput
