/-
# ModalInput.Proofs.Rewriting -- mappings of text rewrite what is typed

While Insert mode maps keys to plain text only, typing amounts to rewriting: the
longest mapping is taken from the left, a character that no mapping starts with is
inserted as it is, and what may still become a longer mapping is held.

The trail is the text that waits, and the mapping on it is the longest rule for that
text (`Writing`).  One key either joins the trail or decides about its start, and
then the text that is left is rewritten as before (`Writing.joins`,
`Writing.decides`).

* `Writing.rewritten` -- the keys that wait are rewritten.
* `typed_tokenized` -- so is everything that is typed.
-/
import ModalInput.Proofs.InsertTyping
import ModalInput.Proofs.Session
import ModalInput.Proofs.TextMappings

namespace ModalInput.Resolver

set_option autoImplicit false

/-! ## Typing, key by key -/

/-- A text in front of the mapping layer. -/
def queueOf (text : List Char) : List Queued := text.map fun c => .mappable (.char c) 0

theorem requeued_typedTrail (text : List Char) :
    (typedTrail (typedKeys text)).map TrailKey.requeued = queueOf text := by
  simp [typedTrail, typedKeys, queueOf, TrailKey.requeued, Function.comp_def]

/-- Without a mapping on the trail, the first character goes on. -/
theorem ending_of_none {r : Resolver} (free : r.trailMatch = none) {c : Char} {rest : List Char}
    (trail : r.trail = typedTrail (typedKeys (c :: rest))) :
    r.ending = .pass (r.withoutTrail.requeue (queueOf rest)) (.char c) := by
  have first : r.trail = ⟨.char c, 0⟩ :: typedTrail (typedKeys rest) := trail
  simp only [ending, free, first, requeued_typedTrail]

/-- A mapping on the trail takes the place of its keys. -/
theorem ending_of_some {r : Resolver} {mapping : Mapping} {before : Nat}
    (reached : r.trailMatch = some ⟨mapping, before⟩) {text : List Char}
    (trail : r.trail = typedTrail (typedKeys text)) :
    r.ending = .replace (r.withoutTrail.requeue (queueOf (text.drop (before + 1)))) mapping
      (typedTrail (typedKeys (text.take (before + 1)))) := by
  have later : r.trail.drop (before + 1) = typedTrail (typedKeys (text.drop (before + 1))) := by
    rw [trail, typedTrail, typedKeys, ← List.map_drop, ← List.map_drop]
    rfl
  have typed : r.trail.take (before + 1) = typedTrail (typedKeys (text.take (before + 1))) := by
    rw [trail, typedTrail, typedKeys, ← List.map_take, ← List.map_take]
    rfl
  simp only [ending, reached, Reached.length, later, typed, requeued_typedTrail]

variable {σ : Type} (options : OptionView) (evaluate : Evaluator σ)

/-- Between two resolvers, only a text was inserted. -/
structure Tells (r : Resolver) (out : List Char) (r' : Resolver) : Prop where
  events : r'.events = r.events ++ out.map (typedCharacter r.modes.state)
  modes : r'.modes = r.modes

namespace Tells

theorem refl (r : Resolver) : Tells r [] r := ⟨by simp, rfl⟩

theorem trans {r r' r'' : Resolver} {out out' : List Char} (first : Tells r out r')
    (second : Tells r' out' r'') : Tells r (out ++ out') r'' where
  events := by
    rw [second.events, first.events, first.modes, List.map_append, List.append_assoc]
  modes := second.modes.trans first.modes

end Tells

/-- Insert mode with the default keys, and with nothing pending in the command layer. -/
structure Inserting (rules : List Rule) (r : Resolver) : Prop where
  keys : r.keys = .default
  mode : r.modes.mode = .insert
  pending : r.pending = {}
  follows : r.mappings.Follows rules

namespace Inserting

variable {rules : List Rule} {r : Resolver}

theorem listens (inserting : Inserting rules r) : r.listens := by
  simp [Resolver.listens, mapsNext, awaitsOffsets, inserting.pending, PendingCommand.awaitsLiteral,
    PendingCommand.awaitsOffsets]

/-- Keys that no mapping applies to are inserted. -/
theorem process_literals (inserting : Inserting rules r) (empty : r.trail = []) {out : List Char}
    (plain : '\n' ∉ out) {later : List Queued}
    (typeahead : r.typeahead = (typedKeys out).map .literal ++ later) (world : σ) :
    ∃ r', process options evaluate r world = process options evaluate r' world ∧ Tells r out r' ∧
      Inserting rules r' ∧ r'.trail = [] ∧ r'.trailMatch = r.trailMatch ∧ r'.typeahead = later := by
  induction out generalizing r with
  | nil => exact ⟨r, rfl, .refl r, inserting, empty, rfl, typeahead⟩
  | cons c rest ih =>
      obtain ⟨first, plain⟩ : '\n' ≠ c ∧ '\n' ∉ rest := by simpa using plain
      let taken : Resolver := { r with typeahead := (typedKeys rest).map .literal ++ later }
      have queue : r.typeahead = .literal (.char c) :: ((typedKeys rest).map .literal ++ later) :=
        typeahead
      have told : commandKey options taken (.char c) =
          taken.emit (typedCharacter taken.modes.state c) :=
        commandKey_char options (r := taken) inserting.keys inserting.mode inserting.pending
          (Ne.symm first)
      have step : step? options evaluate r world =
          some (taken.emit (typedCharacter taken.modes.state c), world) := by
        rw [step?_literal options evaluate queue empty inserting.listens.2, ← told]
      obtain ⟨r', same, tells, inserting', empty', free, queue⟩ :=
        ih (r := taken.emit (typedCharacter taken.modes.state c))
          ⟨inserting.keys, inserting.mode, inserting.pending, inserting.follows⟩ empty plain rfl
      refine ⟨r', (process_of_step options evaluate step).trans same, ?_, inserting', empty', free,
        queue⟩
      have one : Tells r [c] (taken.emit (typedCharacter taken.modes.state c)) := ⟨rfl, rfl⟩
      exact one.trans tells

end Inserting

/-- A mapping that is remembered is a rule, by its length and its text. -/
inductive Remembers : Option Rule → Option (Reached Mapping) → Prop where
  | nothing : Remembers none none
  | mapping {rule : Rule} {mapping : Mapping} {before : Nat}
      (long : rule.lhs.length = before + 1) (types : mapping.Types rule.text) :
      Remembers (some rule) (some ⟨mapping, before⟩)

/-- Typing has come to a text on the trail, and to another one that is not looked at
yet. -/
structure Writing (rules : List Rule) (r : Resolver) (text later : List Char) : Prop
    extends Inserting rules r where
  trail : r.trail = typedTrail (typedKeys text)
  typeahead : r.typeahead = queueOf later
  waits : text ≠ [] → awaitsMore rules text = true
  remembers : Remembers (longest? rules text) r.trailMatch
  plain : '\n' ∉ text ++ later

/-- With nothing on the trail, everything is to be looked at. -/
theorem Inserting.writing {rules : List Rule} {r : Resolver} (inserting : Inserting rules r)
    (empty : r.trail = []) (free : r.trailMatch = none) {later : List Char}
    (typeahead : r.typeahead = queueOf later) (plain : '\n' ∉ later) : Writing rules r [] later where
  toInserting := inserting
  trail := empty
  typeahead := typeahead
  waits := fun typed => absurd rfl typed
  remembers := by
    rw [free, longest?_nil]
    exact .nothing
  plain := plain

/-- Looking at keys decides about the start of a text: what it stands for is told, and
the rest is left to be rewritten. -/
def Decides (rules : List Rule) (r : Resolver) (world : σ) (text : List Char) : Prop :=
  ∃ r' out rest, process options evaluate r world = process options evaluate r' world ∧
    Tells r out r' ∧ Writing rules r' [] rest ∧ rest.length < text.length ∧
    tokenize rules text = (out ++ (tokenize rules rest).1, (tokenize rules rest).2)

/-- The longest rule is applied. -/
theorem Decides.of_longest {rules : List Rule} {r taken : Resolver} {world : σ}
    {mapping : Mapping} {typed text : List Char} {rule : Rule}
    (step : step? options evaluate r world =
      some (expand options evaluate taken world mapping (typedTrail (typedKeys typed))))
    (tells : Tells r [] taken) (inserting : Inserting rules taken) (empty : taken.trail = [])
    (free : taken.trailMatch = none)
    (typeahead : taken.typeahead = queueOf (text.drop rule.lhs.length)) (plain : '\n' ∉ text)
    (decided : awaitsMore rules text = false) (longest : longest? rules text = some rule)
    (types : mapping.Types rule.text) : Decides options evaluate rules r world text := by
  rw [expand_noremap options evaluate taken world types.noremap types.rhs] at step
  let queued := taken.requeue ((typedKeys rule.text).map .literal)
  have inserting : Inserting rules queued :=
    ⟨inserting.keys, inserting.mode, inserting.pending, inserting.follows⟩
  obtain ⟨r', same, tells', inserting', empty', free', typeahead'⟩ :=
    inserting.process_literals options evaluate empty types.single
      (congrArg ((typedKeys rule.text).map Queued.literal ++ ·) typeahead) world
  have told : Tells r rule.text r' :=
    Tells.trans tells (⟨tells'.events, tells'.modes⟩ : Tells taken rule.text r')
  have later : '\n' ∉ text.drop rule.lhs.length := fun member => plain (List.mem_of_mem_drop member)
  have long := length_le_of_longest? longest
  refine ⟨r', rule.text, text.drop rule.lhs.length,
    (process_of_step options evaluate step).trans same, told,
    inserting'.writing empty' (free'.trans free) typeahead' later, ?_,
    tokenize_of_longest decided longest⟩
  have some : 0 < rule.lhs.length := Nat.succ_pos _
  rw [List.length_drop]
  omega

/-- No rule applies, and the first character is inserted. -/
theorem Decides.of_none {rules : List Rule} {r taken : Resolver} {world : σ} {c : Char}
    {rest : List Char}
    (step : step? options evaluate r world = some (commandKey options taken (.char c), world))
    (tells : Tells r [] taken) (inserting : Inserting rules taken) (empty : taken.trail = [])
    (free : taken.trailMatch = none) (typeahead : taken.typeahead = queueOf rest)
    (plain : '\n' ∉ c :: rest) (decided : awaitsMore rules (c :: rest) = false)
    (nothing : longest? rules (c :: rest) = none) :
    Decides options evaluate rules r world (c :: rest) := by
  obtain ⟨first, plain⟩ : '\n' ≠ c ∧ '\n' ∉ rest := by simpa using plain
  rw [commandKey_char options inserting.keys inserting.mode inserting.pending (Ne.symm first)]
    at step
  let told := taken.emit (typedCharacter taken.modes.state c)
  have inserting : Inserting rules told :=
    ⟨inserting.keys, inserting.mode, inserting.pending, inserting.follows⟩
  have one : Tells taken [c] told := ⟨rfl, rfl⟩
  exact ⟨told, [c], rest, process_of_step options evaluate step, tells.trans one,
    inserting.writing empty free typeahead plain, Nat.lt_succ_self _,
    tokenize_of_none decided nothing⟩

namespace Writing

section Steps

variable {rules : List Rule} {r : Resolver} {text later : List Char} {c : Char}
  (writing : Writing rules r text (c :: later))

include writing

theorem trail_snoc : r.trail ++ [⟨.char c, 0⟩] = typedTrail (typedKeys (text ++ [c])) := by
  rw [writing.trail, typedKeys_append, typedTrail, typedTrail, List.map_append]
  rfl

theorem plain_snoc : '\n' ∉ text ++ [c] ++ later := by
  simpa using writing.plain

/-! What is found about the trail and the character is what the rules say. -/

theorem lookupWith_eq :
    r.lookupWith ⟨.char c, 0⟩ = r.mappings.lookup .insert (typedKeys (text ++ [c])) := by
  rw [Resolver.lookupWith, writing.trail_snoc, keys_typedTrail, writing.mode]
  rfl

theorem needsMore_eq :
    (r.lookupWith ⟨.char c, 0⟩).needsMore = awaitsMore rules (text ++ [c]) := by
  rw [writing.lookupWith_eq]
  exact writing.follows.needsMore (text ++ [c])

theorem exists_longest {mapping : Mapping}
    (value : (r.lookupWith ⟨.char c, 0⟩).value? = some mapping) :
    ∃ rule, longest? rules (text ++ [c]) = some rule ∧
      rule.lhs.length = (text ++ [c]).length ∧ mapping.Types rule.text := by
  rw [writing.lookupWith_eq] at value
  exact writing.follows.exists_longest value

theorem longest?_eq (value : (r.lookupWith ⟨.char c, 0⟩).value? = none) :
    longest? rules (text ++ [c]) = longest? rules text := by
  rw [writing.lookupWith_eq] at value
  exact writing.follows.longest?_eq value

/-- The character joins the trail, if more may follow. -/
theorem joins (waits : options.isOn OptionName.timeout = true)
    (awaits : awaitsMore rules (text ++ [c]) = true) (world : σ) :
    ∃ r', process options evaluate r world = process options evaluate r' world ∧ Tells r [] r' ∧
      Writing rules r' (text ++ [c]) later := by
  have more := writing.needsMore_eq.trans awaits
  let next := r.extended (queueOf later) ⟨.char c, 0⟩
  have joined : Inserting rules next :=
    ⟨writing.keys, writing.mode, writing.pending, writing.follows⟩
  have told : Tells r [] next := ⟨by simp [next, extended], rfl⟩
  cases found : r.lookupWith ⟨.char c, 0⟩ with
  | incomplete =>
      have step := step?_eq_of_reaction options evaluate
        (.joins writing.typeahead writing.listens.1 found) writing.listens.2 world
      refine ⟨next, process_of_step options evaluate step, told, joined, writing.trail_snoc, rfl,
        fun _ => awaits, ?_, writing.plain_snoc⟩
      rw [writing.longest?_eq (congrArg Lookup.value? found)]
      exact writing.remembers
  | ambiguous mapping =>
      obtain ⟨rule, longest, long, types⟩ := writing.exists_longest (congrArg Lookup.value? found)
      have step := step?_eq_of_reaction options evaluate
        (.reaches writing.typeahead writing.listens.1 found waits) writing.listens.2 world
      refine ⟨{ next with trailMatch := some ⟨mapping, r.trail.length⟩ },
        process_of_step options evaluate step, ⟨told.events, told.modes⟩,
        ⟨joined.keys, joined.mode, joined.pending, joined.follows⟩, writing.trail_snoc, rfl,
        fun _ => awaits, ?_, writing.plain_snoc⟩
      rw [longest]
      refine .mapping ?_ types
      rw [long, writing.trail]
      simp [typedTrail]
  | complete mapping => simp [found, Lookup.needsMore] at more
  | unmapped => simp [found, Lookup.needsMore] at more

/-- The text and the character are mapped, and nothing longer is. -/
theorem completes {mapping : Mapping} (found : r.lookupWith ⟨.char c, 0⟩ = .complete mapping)
    (world : σ) : Decides options evaluate rules r world (text ++ [c] ++ later) := by
  have stops := writing.needsMore_eq.symm.trans (congrArg Lookup.needsMore found)
  obtain ⟨decided, same⟩ := awaitsMore_append stops later
  obtain ⟨rule, longest, long, types⟩ := writing.exists_longest (congrArg Lookup.value? found)
  have step := step?_eq_of_reaction options evaluate
    (.completes writing.typeahead writing.listens.1 (.inl found)) writing.listens.2 world
  rw [writing.trail_snoc] at step
  refine .of_longest options evaluate step ⟨by simp [extended, withoutTrail], rfl⟩
    ⟨writing.keys, writing.mode, writing.pending, writing.follows⟩ rfl rfl ?_ writing.plain_snoc
    decided (same.trans longest) types
  rw [long, List.drop_left]
  rfl

/-- No mapping starts with the text and the character. -/
theorem overshoots (found : r.lookupWith ⟨.char c, 0⟩ = .unmapped) (world : σ) :
    Decides options evaluate rules r world (text ++ [c] ++ later) := by
  have stops := writing.needsMore_eq.symm.trans (congrArg Lookup.needsMore found)
  obtain ⟨decided, same⟩ := awaitsMore_append stops later
  have shorter := writing.longest?_eq (congrArg Lookup.value? found)
  have plain := writing.plain_snoc
  have step := step?_eq_of_reaction options evaluate
    (.overshoots writing.typeahead writing.listens.1 found) writing.listens.2 world
  let typed := r.extended (queueOf later) ⟨.char c, 0⟩
  have trail : typed.trail = typedTrail (typedKeys (text ++ [c])) := writing.trail_snoc
  have inserting (queue : List Queued) : Inserting rules (typed.withoutTrail.requeue queue) :=
    ⟨writing.keys, writing.mode, writing.pending, writing.follows⟩
  have told (queue : List Queued) : Tells r [] (typed.withoutTrail.requeue queue) :=
    ⟨by simp [typed, extended, withoutTrail, requeue], rfl⟩
  have remembers : Remembers (longest? rules (text ++ [c] ++ later)) typed.trailMatch := by
    rw [same, shorter]
    exact writing.remembers
  generalize longest : longest? rules (text ++ [c] ++ later) = chosen at remembers
  generalize reached : typed.trailMatch = remembered at remembers
  cases remembers with
  | nothing =>
      obtain ⟨first, rest, starts⟩ : ∃ first rest, text ++ [c] = first :: rest :=
        List.exists_cons_of_ne_nil (by simp)
      rw [starts] at trail
      rw [starts, List.cons_append] at decided longest plain ⊢
      have passed := step.trans
        (congrArg (some <| Outcome.run options evaluate world ·) (ending_of_none reached trail))
      exact .of_none options evaluate passed (told _) (inserting _) rfl rfl
        (List.map_append ..).symm plain decided longest
  | @mapping rule mapping before long types =>
      have replaced := step.trans
        (congrArg (some <| Outcome.run options evaluate world ·) (ending_of_some reached trail))
      refine .of_longest options evaluate replaced (told _) (inserting _) rfl rfl ?_ plain decided
        longest types
      have short : rule.lhs.length ≤ (text ++ [c]).length :=
        length_le_of_longest? (same.symm.trans longest)
      rw [List.drop_append_of_le_length short, long]
      exact (List.map_append ..).symm

/-- The start of the text is decided, if nothing more may follow. -/
theorem decides (stops : awaitsMore rules (text ++ [c]) = false) (world : σ) :
    Decides options evaluate rules r world (text ++ [c] ++ later) := by
  have more := writing.needsMore_eq.trans stops
  cases found : r.lookupWith ⟨.char c, 0⟩ with
  | incomplete => simp [found, Lookup.needsMore] at more
  | ambiguous mapping => simp [found, Lookup.needsMore] at more
  | complete mapping => exact writing.completes options evaluate found world
  | unmapped => exact writing.overshoots options evaluate found world

end Steps

variable {rules : List Rule}

/-- What is on the trail still waits. -/
theorem tokenize_eq {r : Resolver} {text later : List Char}
    (writing : Writing rules r text later) : tokenize rules text = ([], text) := by
  by_cases empty : text = []
  · rw [empty, tokenize]
  · exact tokenize_of_awaits (writing.waits empty)

/-- The keys that wait are rewritten, and nothing waits but the text that may still
become more. -/
theorem rewritten (waits : options.isOn OptionName.timeout = true) {r : Resolver}
    {text later : List Char} (writing : Writing rules r text later) (world : σ) :
    ∃ r', process options evaluate r world = (r', world) ∧
      Tells r (tokenize rules (text ++ later)).1 r' ∧
      Writing rules r' (tokenize rules (text ++ later)).2 [] := by
  match later with
  | [] =>
      rw [List.append_nil, writing.tokenize_eq]
      exact ⟨r, process_of_empty options evaluate writing.typeahead world, .refl r, writing⟩
  | c :: later =>
      have whole : text ++ c :: later = text ++ [c] ++ later := by simp
      rw [whole]
      cases awaits : awaitsMore rules (text ++ [c]) with
      | true =>
          obtain ⟨joined, same, told, writing⟩ := writing.joins options evaluate waits awaits world
          obtain ⟨r', done, told', writing'⟩ := rewritten waits writing world
          exact ⟨r', same.trans done, told.trans told', writing'⟩
      | false =>
          obtain ⟨decided, out, rest, same, told, writing, shorter, tokens⟩ :=
            writing.decides options evaluate awaits world
          obtain ⟨r', done, told', writing'⟩ := rewritten waits writing world
          rw [tokens]
          exact ⟨r', same.trans done, told.trans told', writing'⟩
-- a key that joins the trail leaves fewer to look at, and a decision leaves less text
termination_by (text.length + later.length, later.length)
decreasing_by
  · exact .left _ _ (by simpa [Nat.add_assoc, Nat.add_comm] using shorter)
  · have same : (text ++ [c]).length + later.length = text.length + (c :: later).length := by
      simp only [List.length_append, List.length_cons, List.length_nil]
      omega
    rw [same]
    exact .right _ (Nat.lt_succ_self _)

/-- A text that is typed is rewritten together with what waits. -/
theorem typed (waits : options.isOn OptionName.timeout = true) {r : Resolver} {held : List Char}
    (writing : Writing rules r held []) (world : σ) (text : List Char) (plain : '\n' ∉ text) :
    ∃ r', inputKeys options evaluate r world (typedKeys text) = (r', world) ∧
      Tells r (tokenize rules (held ++ text)).1 r' ∧
      Writing rules r' (tokenize rules (held ++ text)).2 [] := by
  induction text generalizing r held with
  | nil =>
      rw [List.append_nil, writing.tokenize_eq]
      exact ⟨r, rfl, .refl r, writing⟩
  | cons c rest ih =>
      obtain ⟨first, plain⟩ : '\n' ≠ c ∧ '\n' ∉ rest := by simpa using plain
      let queued : Resolver := { r with typeahead := [.mappable (.char c) 0] }
      have written : '\n' ∉ held ++ [c] := by simpa [first] using writing.plain
      have next : Writing rules queued held [c] :=
        ⟨⟨writing.keys, writing.mode, writing.pending, writing.follows⟩, writing.trail, rfl,
          writing.waits, writing.remembers, written⟩
      obtain ⟨r', done, told, writing'⟩ := next.rewritten options evaluate waits world
      obtain ⟨r'', later, told', writing''⟩ := ih writing' plain
      have input : inputKey options evaluate r world (.char c) = (r', world) :=
        (inputKey_eq options evaluate writing.listens.2 writing.typeahead world _).trans done
      have whole : held ++ c :: rest = held ++ [c] ++ rest := by simp
      rw [whole, tokenize_append]
      have told : Tells r (tokenize rules (held ++ [c])).1 r' := ⟨told.events, told.modes⟩
      refine ⟨r'', ?_, told.trans told', writing''⟩
      simp only [inputKeys, typedKeys, List.map_cons, List.foldl_cons, input]
      exact later

end Writing

/-- No key waits anywhere, and no command is being typed. -/
structure Idle (r : Resolver) : Prop where
  typeahead : r.typeahead = []
  trail : r.trail = []
  trailMatch : r.trailMatch = none
  pending : r.pending = {}

/-- While the mappings of Insert mode stand for texts, what is typed there is
rewritten: the longest mapping is taken from the left, and the text that may still
become a mapping is held. -/
theorem typed_tokenized (waits : options.isOn OptionName.timeout = true) {r : Resolver}
    (idle : r.Idle) (inserting : r.modes.mode = .insert) (keys : r.keys = .default)
    (made : r.mappings.Made) (types : r.mappings.TypesText) (world : σ) (text : List Char)
    (plain : '\n' ∉ text) :
    let after := inputKeys options evaluate r world (typedKeys text)
    let tokens := tokenize r.mappings.rules text
    after.1.events = r.events ++ tokens.1.map (typedCharacter r.modes.state) ∧
      after.1.trail.map TrailKey.key = typedKeys tokens.2 ∧
      after.1.typeahead = [] ∧ after.1.pending = {} ∧ after.1.modes = r.modes ∧
      after.2 = world := by
  have start : Inserting r.mappings.rules r :=
    ⟨keys, inserting, idle.pending, MappingStore.follows_rules made.trimmed types⟩
  have writing : Writing r.mappings.rules r [] [] :=
    start.writing idle.trail idle.trailMatch idle.typeahead (by simp)
  obtain ⟨r', done, told, writing'⟩ := writing.typed options evaluate waits world text plain
  dsimp only
  rw [done]
  refine ⟨told.events, ?_, writing'.typeahead, writing'.pending, told.modes, rfl⟩
  rw [writing'.trail, keys_typedTrail]
  rfl

/-- Insert mode with three abbreviations that overlap. -/
def abbreviating : Resolver where
  keys := .default
  modes := { state := .ofMode .insert }
  mappings := (((({} : MappingStore).abbreviated 'a' ['b'] ['x']).abbreviated
    'a' ['b', 'c'] ['y', 'z']).abbreviated 'b' ['d'] ['w'])

theorem abbreviating_typed :
    let after := inputKeys ⟨.default, .everywhere⟩ Expression.literalOnly abbreviating ()
      (typedKeys ['a', 'b', 'd', 'a', 'b', 'c', 'a', 'b'])
    after.1.events = ['x', 'd', 'y', 'z'].map (typedCharacter (.ofMode .insert)) ∧
      after.1.trail.map TrailKey.key = typedKeys ['a', 'b'] := by
  have made : abbreviating.mappings.Made :=
    ((MappingStore.Made.new.abbreviated _ _ _).abbreviated _ _ _).abbreviated _ _ _
  have types : abbreviating.mappings.TypesText :=
    ((MappingStore.typesText_new.abbreviated _ _ (by decide)).abbreviated _ _
      (by decide)).abbreviated _ _ (by decide)
  have tokens : tokenize abbreviating.mappings.rules ['a', 'b', 'd', 'a', 'b', 'c', 'a', 'b'] =
      (['x', 'd', 'y', 'z'], ['a', 'b']) := by
    decide +kernel
  have told := typed_tokenized ⟨.default, .everywhere⟩ Expression.literalOnly (by decide +kernel)
    (r := abbreviating) ⟨rfl, rfl, rfl, rfl⟩ rfl rfl made types ()
    ['a', 'b', 'd', 'a', 'b', 'c', 'a', 'b'] (by decide)
  rw [tokens] at told
  exact ⟨told.1, told.2.1⟩

end ModalInput.Resolver
