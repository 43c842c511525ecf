/-
# ModalInput.Proofs.TextMappings -- mappings of Insert mode that stand for texts

A store whose mappings of Insert mode stand for plain texts is a set of rules, which
are read off it (`MappingStore.rules`).  Every store that mappings were added to and
taken away from is a trimmed table (`Made.trimmed`), so a lookup of a text in it is
a question to the rules: whether one of them waits for more, and which one has just
these keys (`Follows`).

* `MappingStore.follows_rules` -- lookups in the store are questions to its rules.
* `Follows.exists_longest`, `longest?_eq` -- the longest rule, character by
  character.
* `MappingStore.abbreviated` -- a store with one more such mapping.
-/
import ModalInput.Proofs.TableContents
import ModalInput.Proofs.Tokenizer

namespace ModalInput

set_option autoImplicit false

/-- The mapping stands for a text, which is not mapped again. -/
structure Mapping.Types (mapping : Mapping) (text : List Char) : Prop where
  noremap : mapping.noremap = true
  rhs : mapping.rhs = .keys (typedKeys text)
  single : '\n' ∉ text

namespace MappingStore

/-! ## The rules of a store -/

/-- A store that mappings were added to and taken away from. -/
inductive Made : MappingStore → Prop where
  | new : Made {}
  | add {store store' : MappingStore} {modes : MappedModes} {lhs : List Key} {rhs : MappingTarget}
      {noremap : Bool} (made : Made store) (added : store.add modes lhs rhs noremap = .ok store') :
      Made store'
  | remove {store store' : MappingStore} {modes : MappedModes} {lhs : List Key} (made : Made store)
      (removed : store.remove modes lhs = .ok store') : Made store'
  | clear {store : MappingStore} (made : Made store) (modes : MappedModes) :
      Made (store.clear modes)

/-- What each mode does to a table, all modes of a list do. -/
theorem trimmed_foldl {step : KeyTable MapMode Key StoredMapping → MapMode →
      KeyTable MapMode Key StoredMapping}
    (kept : ∀ table mode, table.Trimmed → (step table mode).Trimmed) (modes : List MapMode)
    {table : KeyTable MapMode Key StoredMapping} (trimmed : table.Trimmed) :
    (modes.foldl step table).Trimmed := by
  induction modes generalizing table with
  | nil => exact trimmed
  | cons first rest ih => exact ih (kept table first trimmed)

theorem Made.trimmed {store : MappingStore} (made : store.Made) : store.table.Trimmed := by
  induction made with
  | new => exact KeyTable.trimmed_empty
  | add _ added ih =>
      unfold MappingStore.add at added
      split at added
      · cases added
      · cases added
        exact trimmed_foldl (fun _ _ trimmed => trimmed.insert _ _ _) _ ih
  | remove _ removed ih =>
      unfold MappingStore.remove at removed
      split at removed
      · cases removed
        exact trimmed_foldl (fun _ _ trimmed => trimmed.remove _ _) _ ih
      · cases removed
  | clear _ modes ih => exact trimmed_foldl (fun _ _ trimmed => trimmed.clearMode _) _ ih

/-- In Insert mode, keys are mapped to texts only. -/
def TypesText (store : MappingStore) : Prop :=
  ∀ keys mapping, (store.lookup .insert keys).value? = some mapping → ∃ text, mapping.Types text

/-- The rule for keys that stand for a text. -/
def rule? (entry : List Key × StoredMapping) : Option Rule :=
  match entry.1, entry.2.mapping.rhs with
  | first :: more, .keys typed => some ⟨first, more, typed.filterMap Key.char?⟩
  | _, _ => none

/-- The rules that the mappings of Insert mode are. -/
def rules (store : MappingStore) : List Rule := (store.table.entries .insert).filterMap rule?

theorem rule?_eq {entry : List Key × StoredMapping} {rule : Rule} (is : rule? entry = some rule) :
    rule.lhs = entry.1 ∧ ∃ typed, entry.2.mapping.rhs = .keys typed ∧
      rule.text = typed.filterMap Key.char? := by
  unfold rule? at is
  split at is
  · rename_i first more typed keys rhs
    cases is
    exact ⟨keys.symm, typed, rhs, rfl⟩
  · cases is

/-- What a store of texts answers about a text, its rules answer. -/
structure Follows (store : MappingStore) (rules : List Rule) : Prop where
  needsMore : ∀ text, (store.lookup .insert (typedKeys text)).needsMore = awaitsMore rules text
  mapped : ∀ text mapping, (store.lookup .insert (typedKeys text)).value? = some mapping →
    ∃ rule ∈ rules, rule.lhs = typedKeys text ∧ mapping.Types rule.text
  ruled : ∀ rule ∈ rules, ∀ text, rule.lhs = typedKeys text →
    (store.lookup .insert (typedKeys text)).value? ≠ none
  alone : ∀ rule ∈ rules, ∀ other ∈ rules, other.lhs = rule.lhs → other = rule

namespace Follows

variable {store : MappingStore} {rules : List Rule} (follows : store.Follows rules)

include follows

/-- A text that is mapped is all that its longest rule applies to. -/
theorem exists_longest {text : List Char} {mapping : Mapping}
    (value : (store.lookup .insert (typedKeys text)).value? = some mapping) :
    ∃ rule, longest? rules text = some rule ∧ rule.lhs.length = text.length ∧
      mapping.Types rule.text := by
  obtain ⟨rule, member, lhs, types⟩ := follows.mapped text mapping value
  exact ⟨rule, longest?_self member (follows.alone rule member) lhs, by simp [lhs], types⟩

/-- A character that completes no mapping changes nothing about the longest rule. -/
theorem longest?_eq {text : List Char} {c : Char}
    (value : (store.lookup .insert (typedKeys (text ++ [c]))).value? = none) :
    longest? rules (text ++ [c]) = longest? rules text :=
  longest?_snoc fun rule member lhs => follows.ruled rule member (text ++ [c]) lhs value

end Follows

section Rules

variable {store : MappingStore} (trimmed : store.table.Trimmed)

include trimmed

theorem mem_rules {rule : Rule} (member : rule ∈ store.rules) :
    ∃ stored typed, store.table.get? .insert rule.lhs = some stored ∧
      stored.mapping.rhs = .keys typed ∧ rule.text = typed.filterMap Key.char? := by
  obtain ⟨⟨keys, stored⟩, listed, is⟩ := List.mem_filterMap.mp member
  obtain ⟨lhs, typed, rhs, text⟩ := rule?_eq is
  exact ⟨stored, typed, lhs ▸ (trimmed.mem_entries .insert keys stored).mp listed, rhs, text⟩

/-- A mapping of keys is among the rules, with its text. -/
theorem exists_rule (types : store.TypesText) {keys : List Key} {stored : StoredMapping}
    (found : store.table.get? .insert keys = some stored) :
    ∃ rule ∈ store.rules, rule.lhs = keys ∧ stored.mapping.Types rule.text := by
  have value : (store.lookup .insert keys).value? = some stored.mapping := by
    rw [value?_lookup, found]
    rfl
  obtain ⟨text, typed⟩ := types keys stored.mapping value
  cases keys with
  | nil =>
      rw [KeyTable.get?_nil] at found
      cases found
  | cons first more =>
      have same : (typedKeys text).filterMap Key.char? = text := by
        simp [typedKeys, List.filterMap_map]
      refine ⟨⟨first, more, text⟩, List.mem_filterMap.mpr ⟨(first :: more, stored), ?_, ?_⟩, rfl,
        typed⟩
      · exact (trimmed.mem_entries .insert _ stored).mpr found
      · simp [rule?, typed.rhs, same]

/-- More keys can be followed exactly if some rule waits for them. -/
theorem needsMore_rules (types : store.TypesText) (text : List Char) :
    (store.lookup .insert (typedKeys text)).needsMore = awaitsMore store.rules text := by
  rw [lookup, Lookup.needsMore_map, Bool.eq_iff_iff, trimmed.needsMore_lookup, awaitsMore,
    List.any_eq_true]
  constructor
  · rintro ⟨key, rest, valued⟩
    obtain ⟨stored, found⟩ := Option.isSome_iff_exists.mp valued
    obtain ⟨rule, member, lhs, _⟩ := exists_rule trimmed types found
    refine ⟨rule, member, (rule.awaits_iff text).mpr ⟨?_, ?_⟩⟩
    · exact lhs ▸ List.prefix_append _ _
    · simp [lhs]
  · rintro ⟨rule, member, awaits⟩
    obtain ⟨⟨rest, lhs⟩, long⟩ := (rule.awaits_iff text).mp awaits
    obtain ⟨stored, _, found, _⟩ := mem_rules trimmed member
    rw [← lhs] at found long
    cases rest with
    | nil => simp at long
    | cons key rest => exact ⟨key, rest, by rw [found]; rfl⟩

/-- Two rules for the same keys are the same. -/
theorem rules_alone {rule other : Rule} (member : rule ∈ store.rules)
    (member' : other ∈ store.rules) (same : other.lhs = rule.lhs) : other = rule := by
  obtain ⟨stored, typed, found, rhs, text⟩ := mem_rules trimmed member
  obtain ⟨stored', typed', found', rhs', text'⟩ := mem_rules trimmed member'
  rw [same, found] at found'
  cases found'
  rw [rhs] at rhs'
  cases rhs'
  obtain ⟨first, more, out⟩ := rule
  obtain ⟨first', more', out'⟩ := other
  obtain ⟨rfl, rfl⟩ := List.cons.inj same
  have texts : out' = out := text'.trans text.symm
  rw [texts]

theorem follows_rules (types : store.TypesText) : store.Follows store.rules where
  needsMore := needsMore_rules trimmed types
  mapped := by
    intro text mapping value
    rw [value?_lookup] at value
    obtain ⟨stored, found, rfl⟩ := Option.map_eq_some_iff.mp value
    exact exists_rule trimmed types found
  ruled := by
    intro rule member text lhs
    obtain ⟨stored, _, found, _⟩ := mem_rules trimmed member
    rw [value?_lookup, ← lhs, found]
    exact Option.some_ne_none _
  alone := fun _ member _ member' same => rules_alone trimmed member member' same

end Rules

/-- A store with an abbreviation: a text that is not empty stands for another one. -/
def abbreviated (store : MappingStore) (c : Char) (more text : List Char) : MappingStore where
  table := store.table.insert .insert (typedKeys (c :: more)) ⟨store.made,
    { lhs := typedKeys (c :: more), rhs := .keys (typedKeys text), modes := .single .insert,
      noremap := true }⟩
  made := store.made + 1

theorem Made.abbreviated {store : MappingStore} (made : store.Made) (c : Char)
    (more text : List Char) : (store.abbreviated c more text).Made := by
  have added : store.add (.single .insert) (typedKeys (c :: more)) (.keys (typedKeys text)) true =
      .ok (store.abbreviated c more text) := rfl
  exact .add made added

theorem typesText_new : TypesText {} := by
  intro keys mapping value
  cases value

theorem TypesText.abbreviated {store : MappingStore} (types : store.TypesText) (c : Char)
    (more : List Char) {text : List Char} (single : '\n' ∉ text) :
    (store.abbreviated c more text).TypesText := by
  intro keys mapping value
  rw [value?_lookup, MappingStore.abbreviated,
    KeyTable.get?_insert _ _ _ _ (by simp [typedKeys])] at value
  split at value
  · cases value
    exact ⟨text, rfl, rfl, single⟩
  · rw [← value?_lookup] at value
    exact types keys mapping value

end MappingStore

end ModalInput
