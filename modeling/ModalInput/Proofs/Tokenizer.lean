/-
# ModalInput.Proofs.Tokenizer -- replacing the longest match, from the left

A set of rules replaces keys by text.  A text that is typed is rewritten from the
left: the longest rule that applies is taken, and a character that no rule starts
with passes through.  What is left waits as long as it may still become the keys of
a longer rule (`Rule.awaits`).

* `tokenize` -- the text that comes out, and the text that still waits.
* `tokenize_append` -- a text can be typed in parts.
-/
import Mathlib.Data.List.MinMax
import ModalInput.Key.Basic

namespace ModalInput

set_option autoImplicit false

/-- Keys, of which there are some, and the text that takes their place. -/
structure Rule where
  first : Key
  more : List Key
  text : List Char

/-- The keys that type a text. -/
def typedKeys (text : List Char) : List Key := text.map .char

@[simp] theorem length_typedKeys (text : List Char) : (typedKeys text).length = text.length :=
  List.length_map ..

theorem typedKeys_append (text more : List Char) :
    typedKeys (text ++ more) = typedKeys text ++ typedKeys more :=
  List.map_append ..

namespace Rule

def lhs (rule : Rule) : List Key := rule.first :: rule.more

/-- The text starts with the keys of the rule. -/
def applies (rule : Rule) (text : List Char) : Bool := rule.lhs.isPrefixOf (typedKeys text)

/-- The keys of the rule start with the text, and go on. -/
def awaits (rule : Rule) (text : List Char) : Bool :=
  (typedKeys text).isPrefixOf rule.lhs && text.length < rule.lhs.length

theorem applies_iff (rule : Rule) (text : List Char) :
    rule.applies text = true ↔ rule.lhs <+: typedKeys text :=
  List.isPrefixOf_iff_prefix

theorem awaits_iff (rule : Rule) (text : List Char) :
    rule.awaits text = true ↔ typedKeys text <+: rule.lhs ∧ text.length < rule.lhs.length := by
  simp [awaits, List.isPrefixOf_iff_prefix]

/-- A rule that does not wait for more applies to a longer text only if it applies
already. -/
theorem applies_append {rule : Rule} {text : List Char} (decided : rule.awaits text = false)
    (more : List Char) : rule.applies (text ++ more) = rule.applies text := by
  rw [Bool.eq_iff_iff, applies_iff, applies_iff, typedKeys_append]
  constructor
  · intro starts
    rcases List.prefix_or_prefix_of_prefix starts (List.prefix_append _ _) with within | beyond
    · exact within
    · have short : ¬ text.length < rule.lhs.length := by
        intro long
        have awaits := (awaits_iff rule text).mpr ⟨beyond, long⟩
        rw [decided] at awaits
        cases awaits
      have whole := beyond.eq_of_length_le (by simpa using short)
      exact whole ▸ List.prefix_rfl
  · exact fun starts => starts.trans (List.prefix_append _ _)

theorem awaits_append {rule : Rule} {text : List Char} (decided : rule.awaits text = false)
    (more : List Char) : rule.awaits (text ++ more) = false := by
  rw [Bool.eq_false_iff, ne_eq, awaits_iff, typedKeys_append]
  rintro ⟨starts, long⟩
  have within := (List.prefix_append _ _).trans starts
  have awaits := (awaits_iff rule text).mpr ⟨within, by simp at long; omega⟩
  rw [decided] at awaits
  cases awaits

end Rule

/-- The rule with the most keys among those that apply. -/
def longest? (rules : List Rule) (text : List Char) : Option Rule :=
  (rules.filter fun rule => rule.applies text).argmax fun rule => rule.lhs.length

/-- Some rule waits for more keys after the text. -/
def awaitsMore (rules : List Rule) (text : List Char) : Bool :=
  rules.any fun rule => rule.awaits text

/-- Rewrite a text from the left: what comes out, and what still waits. -/
def tokenize (rules : List Rule) : List Char → List Char × List Char
  | [] => ([], [])
  | c :: rest =>
      if awaitsMore rules (c :: rest) then ([], c :: rest)
      else
        match longest? rules (c :: rest) with
        | some rule =>
            let later := tokenize rules (rest.drop rule.more.length)
            (rule.text ++ later.1, later.2)
        | none =>
            let later := tokenize rules rest
            (c :: later.1, later.2)
termination_by text => text.length

/-! ## The longest rule -/

theorem longest?_mem {rules : List Rule} {text : List Char} {rule : Rule}
    (longest : longest? rules text = some rule) : rule ∈ rules ∧ rule.applies text = true := by
  have member := List.argmax_mem (Option.mem_def.mpr longest)
  exact List.mem_filter.mp member

/-- Two texts to which the same rules apply have the same longest rule. -/
theorem longest?_congr {rules : List Rule} {text text' : List Char}
    (same : ∀ rule ∈ rules, rule.applies text = rule.applies text') :
    longest? rules text = longest? rules text' := by
  unfold longest?
  rw [List.filter_congr same]

/-- A rule for all of a text is its longest rule, if it is the only one for its
keys. -/
theorem longest?_self {rules : List Rule} {rule : Rule} (member : rule ∈ rules)
    (alone : ∀ other ∈ rules, other.lhs = rule.lhs → other = rule) {text : List Char}
    (whole : rule.lhs = typedKeys text) : longest? rules text = some rule := by
  have applies : rule.applies text = true := by
    have starts : rule.lhs <+: typedKeys text := whole ▸ List.prefix_rfl
    exact (rule.applies_iff text).mpr starts
  have listed : rule ∈ rules.filter fun rule => rule.applies text :=
    List.mem_filter.mpr ⟨member, applies⟩
  cases longest : longest? rules text with
  | none =>
      have empty := List.argmax_eq_none.mp longest
      rw [empty] at listed
      cases listed
  | some other =>
      obtain ⟨member', applies'⟩ := longest?_mem longest
      have long : rule.lhs.length ≤ other.lhs.length :=
        List.le_of_mem_argmax (f := fun rule : Rule => rule.lhs.length) listed
          (Option.mem_def.mpr longest)
      rw [Rule.applies_iff, ← whole] at applies'
      rw [alone other member' (applies'.eq_of_length_le long)]

theorem length_le_of_longest? {rules : List Rule} {text : List Char} {rule : Rule}
    (longest : longest? rules text = some rule) : rule.lhs.length ≤ text.length := by
  have applies := (longest?_mem longest).2
  rw [Rule.applies_iff] at applies
  simpa using applies.length_le

theorem longest?_nil (rules : List Rule) : longest? rules [] = none := by
  cases longest : longest? rules [] with
  | none => rfl
  | some rule =>
      have short := length_le_of_longest? longest
      simp [Rule.lhs] at short

/-- A further character matters only to a rule that it completes. -/
theorem longest?_snoc {rules : List Rule} {text : List Char} {c : Char}
    (nothing : ∀ rule ∈ rules, rule.lhs ≠ typedKeys (text ++ [c])) :
    longest? rules (text ++ [c]) = longest? rules text := by
  apply longest?_congr
  intro rule member
  rw [Bool.eq_iff_iff, Rule.applies_iff, Rule.applies_iff]
  have completes := nothing rule member
  rw [typedKeys_append] at completes ⊢
  constructor
  · intro starts
    rcases List.prefix_concat_iff.mp starts with whole | before
    · exact absurd whole completes
    · exact before
  · exact fun starts => starts.trans (List.prefix_append _ _)

/-! ## Rewriting -/

theorem awaitsMore_append {rules : List Rule} {text : List Char}
    (decided : awaitsMore rules text = false) (more : List Char) :
    awaitsMore rules (text ++ more) = false ∧
      longest? rules (text ++ more) = longest? rules text := by
  have each : ∀ rule ∈ rules, rule.awaits text = false := by
    simpa [awaitsMore] using decided
  constructor
  · have later : ∀ rule ∈ rules, rule.awaits (text ++ more) = false := fun rule member =>
      Rule.awaits_append (each rule member) more
    simpa [awaitsMore] using later
  · exact longest?_congr fun rule member => Rule.applies_append (each rule member) more

theorem tokenize_of_awaits {rules : List Rule} {text : List Char}
    (waits : awaitsMore rules text = true) : tokenize rules text = ([], text) := by
  cases text with
  | nil => rw [tokenize]
  | cons c rest => rw [tokenize, if_pos waits]

theorem tokenize_of_longest {rules : List Rule} {text : List Char} {rule : Rule}
    (decided : awaitsMore rules text = false) (longest : longest? rules text = some rule) :
    tokenize rules text =
      (rule.text ++ (tokenize rules (text.drop rule.lhs.length)).1,
        (tokenize rules (text.drop rule.lhs.length)).2) := by
  cases text with
  | nil =>
      rw [longest?_nil] at longest
      cases longest
  | cons c rest =>
      rw [tokenize, if_neg (by simp [decided]), longest]
      rfl

theorem tokenize_of_none {rules : List Rule} {c : Char} {rest : List Char}
    (decided : awaitsMore rules (c :: rest) = false) (none : longest? rules (c :: rest) = none) :
    tokenize rules (c :: rest) = (c :: (tokenize rules rest).1, (tokenize rules rest).2) := by
  rw [tokenize, if_neg (by simp [decided]), none]

/-- A text that is typed in parts: what waits after the first part is rewritten with
the second. -/
theorem tokenize_append (rules : List Rule) (text more : List Char) :
    tokenize rules (text ++ more) =
      ((tokenize rules text).1 ++ (tokenize rules ((tokenize rules text).2 ++ more)).1,
        (tokenize rules ((tokenize rules text).2 ++ more)).2) := by
  fun_induction tokenize rules text with
  | case1 => simp
  | case2 c rest waits => simp
  | case3 c rest decided rule longest later ih =>
      have decided : awaitsMore rules (c :: rest) = false := by simpa using decided
      obtain ⟨decided', same⟩ := awaitsMore_append decided more
      have long : rule.more.length ≤ rest.length := by
        simpa [Rule.lhs] using length_le_of_longest? longest
      have dropped : (c :: rest ++ more).drop rule.lhs.length =
          rest.drop rule.more.length ++ more := by
        simp [Rule.lhs, List.drop_append_of_le_length long]
      rw [tokenize_of_longest decided' (same.trans longest), dropped, ih, List.append_assoc]
  | case4 c rest decided none later ih =>
      have decided : awaitsMore rules (c :: rest) = false := by simpa using decided
      obtain ⟨decided', same⟩ := awaitsMore_append decided more
      rw [List.cons_append] at decided' same ⊢
      rw [tokenize_of_none decided' (same.trans none), ih, List.cons_append]

end ModalInput
