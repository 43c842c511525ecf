/-
# ModalInput.Proofs.ListOperations -- tokens that are put into a list and taken out

A list is a text, and an operator works on its tokens.  What `+=` and `^=` ask is whether
the whole operand is one token that is there already, and where they put a comma depends on
the text that comes first.  A single token is what they are made for: it is added once
(`combine_again`), and `-=` takes it out again and leaves the very text that was there
before (`remove_appended`, `remove_prepended`), whatever commas that has.

An operand of several tokens is never one of the tokens, so it is added each time
(`added_again_iff`).  And a token that is put in front of an empty text gets a comma behind
it, and with the comma an empty token, which a bounded list refuses unless it allows it
(`bounded_closed_iff`).

* `TextOption.tokens_combine`, `bounded_combine` -- the tokens after an operation.
* `OptionDef.added_removed` -- what is added can be removed.
* `OptionStore.added_again_iff` -- adding the same operand twice.
* `OptionStore.bounded_closed_iff` -- allowed operands of bounded lists.
-/
import ModalInput.Proofs.OptionPlaces

namespace ModalInput

set_option autoImplicit false

/-- The operations that add tokens to a list. -/
inductive SetOperation.Adds : SetOperation → Prop where
  | append : Adds .append
  | prepend : Adds .prepend

/-- The operation puts a text in front of an empty one: a comma is its end, and an empty
token stands behind the comma. -/
def SetOperation.Trails (operation : SetOperation) (current operand : List Char) : Prop :=
  operation = .append ∧ current ≠ [] ∧ operand = [] ∨
    operation = .prepend ∧ operand ≠ [] ∧ current = []

/-! ## Texts -/

namespace TextOption

@[simp] theorem split_nil : split true [] = [[]] := rfl

/-- The tokens of two texts with a comma between them. -/
theorem split_join {first : List Char} (nonempty : first ≠ []) (second : List Char) :
    split true (join true first second) = split true first ++ split true second := by
  simp [split, join, nonempty, Text.fields_append]

@[simp] theorem join_nil (list : Bool) (second : List Char) : join list [] second = second := by
  simp [join]

/-- A text without a comma is one token. -/
theorem split_single {s : List Char} (single : ',' ∉ s) : split true s = [s] :=
  Text.fields_of_not_mem single

theorem not_mem_of_mem_split {s token : List Char} (member : token ∈ split true s) : ',' ∉ token :=
  Text.not_mem_of_mem_fields member

section Runs

variable {α : Type} [DecidableEq α] {token : α} {tokens : List α}

theorem removeRun_of_not_mem (absent : token ∉ tokens) : removeRun [token] tokens = tokens := by
  induction tokens with
  | nil => rfl
  | cons first rest ih =>
      rw [List.mem_cons, not_or] at absent
      simp [removeRun, absent.1, ih absent.2]

/-- The first token that is the one to be removed. -/
theorem removeRun_append (absent : token ∉ tokens) (rest : List α) :
    removeRun [token] (tokens ++ token :: rest) = tokens ++ rest := by
  induction tokens with
  | nil => simp [removeRun]
  | cons first more ih =>
      rw [List.mem_cons, not_or] at absent
      simp [removeRun, absent.1, ih absent.2]

/-- Removing tokens adds none. -/
theorem removeRun_sublist (run tokens : List α) : (removeRun run tokens).Sublist tokens := by
  induction tokens with
  | nil => exact .refl _
  | cons first rest ih =>
      unfold removeRun
      split
      · exact List.drop_sublist _ _
      · exact ih.cons_cons first

end Runs

/-- A token that is there already is not added again. -/
theorem combine_of_mem {operation : SetOperation} (adds : operation.Adds)
    {current operand : List Char} (there : operand ∈ split true current) :
    combine true operation current operand = current := by
  cases adds <;> simp [combine, there]

theorem combine_append {current operand : List Char} (absent : operand ∉ split true current) :
    combine true .append current operand = join true current operand := by
  simp [combine, absent]

theorem combine_prepend {current operand : List Char} (absent : operand ∉ split true current) :
    combine true .prepend current operand = join true operand current := by
  simp [combine, absent]

/-- A single token that was put in behind the others. -/
theorem remove_appended {current token : List Char} (single : ',' ∉ token)
    (absent : token ∉ split true current) :
    combine true .remove (combine true .append current token) token = current := by
  rw [combine_append absent]
  by_cases empty : current = []
  · subst empty
    simp [combine, split_single single, removeRun, Text.joined]
  · have removed : removeRun [token] (split true current ++ [token]) = split true current ++ [] :=
      removeRun_append absent []
    simp only [combine, if_true, split_join empty, split_single single, removed, List.append_nil]
    exact Text.joined_fields ',' current

/-- A single token that was put in before the others. -/
theorem remove_prepended {current token : List Char} (single : ',' ∉ token)
    (absent : token ∉ split true current) :
    combine true .remove (combine true .prepend current token) token = current := by
  rw [combine_prepend absent]
  by_cases empty : token = []
  · -- nothing was put in, and there is no empty token to be removed
    subst empty
    simp only [join_nil, combine, if_true, split_single single, removeRun_of_not_mem absent]
    exact Text.joined_fields ',' current
  · have removed :
        removeRun [token] ([] ++ token :: split true current) = [] ++ split true current :=
      removeRun_append List.not_mem_nil _
    rw [List.nil_append, List.nil_append] at removed
    simp only [combine, if_true, split_join empty, split_single single, List.singleton_append,
      removed]
    exact Text.joined_fields ',' current

/-- A single token that is added is a token of the list, unless it is the empty one, put
before others. -/
theorem mem_split_combine {operation : SetOperation} (adds : operation.Adds)
    {current token : List Char} (single : ',' ∉ token)
    (puts : operation = .prepend → token ≠ []) :
    token ∈ split true (combine true operation current token) := by
  by_cases there : token ∈ split true current
  · rw [combine_of_mem adds there]
    exact there
  · cases adds with
    | append =>
        rw [combine_append there]
        by_cases empty : current = []
        · simp [empty, split_single single]
        · simp [split_join empty, split_single single]
    | prepend =>
        rw [combine_prepend there, split_join (puts rfl), split_single single]
        simp

/-- An operand of several tokens is put in, and so the text gets longer. -/
theorem combine_ne {operation : SetOperation} (adds : operation.Adds)
    {current operand : List Char} (several : ',' ∈ operand) :
    combine true operation current operand ≠ current := by
  have absent : operand ∉ split true current := fun member => not_mem_of_mem_split member several
  have some : operand ≠ [] := List.ne_nil_of_mem several
  have length : 0 < operand.length := List.length_pos_iff.mpr some
  intro same
  have same := congrArg List.length same
  cases adds with
  | append =>
      rw [combine_append absent] at same
      by_cases empty : current = []
      · simp [empty] at same
        exact some same
      · simp [join, empty] at same
  | prepend =>
      rw [combine_prepend absent] at same
      simp [join, some] at same
      omega

/-- Adding an operand again changes nothing exactly if it is a single token. -/
theorem combine_again {operation : SetOperation} (adds : operation.Adds)
    (current operand : List Char) :
    combine true operation (combine true operation current operand) operand =
      combine true operation current operand ↔ ',' ∉ operand := by
  constructor
  · intro same several
    exact combine_ne adds several same
  · intro single
    by_cases puts : operation = .prepend → operand ≠ []
    · exact combine_of_mem adds (mem_split_combine adds single puts)
    · -- the empty token, put before others, changes nothing at all
      obtain ⟨rfl, rfl⟩ : operation = .prepend ∧ operand = [] := by simpa using puts
      have stays (current : List Char) : combine true .prepend current [] = current := by
        by_cases there : [] ∈ split true current
        · exact combine_of_mem adds there
        · rw [combine_prepend there, join_nil]
      rw [stays, stays]

/-! ## Tokens that are allowed -/

/-- The tokens after an addition: those of the operand are among them, unless it is the
empty one, put before others. -/
theorem tokens_combine {operation : SetOperation} (adds : operation.Adds)
    (current operand : List Char) :
    (∀ token ∈ split true operand, token ∈ split true (combine true operation current operand)) ↔
      ¬ (operation = .prepend ∧ operand = [] ∧ [] ∉ split true current) := by
  by_cases there : operand ∈ split true current
  · have single : split true operand = [operand] := split_single (not_mem_of_mem_split there)
    rw [combine_of_mem adds there, single]
    refine iff_of_true (by simpa using there) ?_
    rintro ⟨_, rfl, absent⟩
    exact absent there
  · cases adds with
    | append =>
        rw [combine_append there]
        refine iff_of_true (fun token member => ?_) (by simp)
        by_cases empty : current = []
        · simpa [empty] using member
        · simp [split_join empty, member]
    | prepend =>
        rw [combine_prepend there]
        by_cases empty : operand = []
        · subst empty
          exact iff_of_false (fun all => there (by simpa using all [] (by simp [split_nil])))
            (by simp [there])
        · refine iff_of_true (fun token member => ?_) (by simp [empty])
          simp [split_join empty, member]

section Allowed

variable {Allowed : List Char → Prop} {current operand : List Char}

/-- A text with tokens that are all allowed, or none at all. -/
def Bounded (Allowed : List Char → Prop) (s : List Char) : Prop :=
  s = [] ∨ ∀ token ∈ split true s, Allowed token

/-- Two texts with a comma between them; an empty second one is an empty token. -/
theorem bounded_join {first second : List Char} (nonempty : first ≠ [])
    (allowed : Bounded Allowed first) (follows : Bounded Allowed second) :
    Bounded Allowed (join true first second) ↔ (second = [] → Allowed []) := by
  have some : join true first second ≠ [] := by simp [join, nonempty]
  have allowed := allowed.resolve_left nonempty
  rw [Bounded, or_iff_right some, split_join nonempty]
  simp only [List.forall_mem_append]
  constructor
  · rintro ⟨_, all⟩ rfl
    exact all [] (by simp [split_nil])
  · intro empty
    refine ⟨allowed, ?_⟩
    rcases follows with rfl | all
    · simpa [split_nil] using empty rfl
    · exact all

/-- Taking tokens away leaves allowed ones. -/
theorem bounded_remove (operand : List Char) (allowed : Bounded Allowed current) :
    Bounded Allowed (combine true .remove current operand) := by
  have fewer := removeRun_sublist (split true operand) (split true current)
  simp only [combine, if_true]
  by_cases none : removeRun (split true operand) (split true current) = []
  · rw [none]
    exact .inl rfl
  · have whole : ∀ token ∈ removeRun (split true operand) (split true current), ',' ∉ token :=
      fun token member => not_mem_of_mem_split (fewer.subset member)
    have again := Text.fields_joined none whole
    rcases allowed with rfl | allowed
    · -- of the one empty token something is left, so it is this token
      rw [split_nil] at fewer none ⊢
      have left := fewer.eq_of_length_le (List.length_pos_iff.mpr none)
      rw [left]
      exact .inl rfl
    · refine .inr fun token member => ?_
      have left : token ∈ Text.fields ',' (Text.joined ',' (removeRun _ _)) := member
      rw [again] at left
      exact allowed token (fewer.subset left)

/-- From allowed tokens an operation makes allowed ones, unless it puts a text before an
empty one. -/
theorem bounded_combine (operation : SetOperation) (allowed : Bounded Allowed current)
    (typed : Bounded Allowed operand) :
    Bounded Allowed (combine true operation current operand) ↔
      (operation.Trails current operand → Allowed []) := by
  have kept {operation : SetOperation} (adds : operation.Adds)
      (there : operand ∈ split true current) (trails : operation.Trails current operand) :
      Allowed [] := by
    rcases trails with ⟨_, nonempty, rfl⟩ | ⟨_, nonempty, rfl⟩
    · exact allowed.resolve_left nonempty [] there
    · exact absurd (by simpa [split_nil] using there) nonempty
  cases operation with
  | assign => exact iff_of_true typed (by simp [SetOperation.Trails])
  | remove => exact iff_of_true (bounded_remove operand allowed) (by simp [SetOperation.Trails])
  | append =>
      by_cases there : operand ∈ split true current
      · rw [combine_of_mem .append there]
        exact iff_of_true allowed (kept .append there)
      · rw [combine_append there]
        by_cases empty : current = []
        · subst empty
          exact iff_of_true (by simpa using typed) (by simp [SetOperation.Trails])
        · rw [bounded_join empty allowed typed]
          simp [SetOperation.Trails, empty]
  | prepend =>
      by_cases there : operand ∈ split true current
      · rw [combine_of_mem .prepend there]
        exact iff_of_true allowed (kept .prepend there)
      · rw [combine_prepend there]
        by_cases empty : operand = []
        · subst empty
          exact iff_of_true (by simpa using allowed) (by simp [SetOperation.Trails])
        · rw [bounded_join empty typed allowed]
          simp [SetOperation.Trails, empty]

end Allowed

end TextOption

/-! ## Options -/

namespace OptionDef

variable {definition : OptionDef}

theorem mem_split (list : definition.isList = true) {s token : String} :
    token ∈ definition.split s ↔ token.toList ∈ TextOption.split true s.toList := by
  unfold split
  rw [list, List.mem_map]
  constructor
  · rintro ⟨chars, member, rfl⟩
    simpa using member
  · exact fun member => ⟨token.toList, member, by simp⟩

/-- What an operation makes of the text of a list. -/
def combined (operation : SetOperation) (held value : String) : String :=
  String.ofList (TextOption.combine true operation held.toList value.toList)

theorem combine?_text (list : definition.isList = true) (operation : SetOperation)
    (held value : String) :
    definition.combine? operation (.text held) (.text value) =
      some (.text (combined operation held value)) := by
  simp [combine?, OptionValue.combine?, combined, list]

/-- Adding an operand again changes nothing exactly if it is a single token. -/
theorem combined_again {operation : SetOperation} (adds : operation.Adds) (held value : String) :
    combined operation (combined operation held value) value = combined operation held value ↔
      ',' ∉ value.toList := by
  rw [← TextOption.combine_again adds held.toList, combined, combined, String.toList_ofList,
    String.ofList_inj]

/-- The tokens of an operand after it was added. -/
theorem tokens_combined (list : definition.isList = true) {operation : SetOperation}
    (adds : operation.Adds) (held value : String) :
    (∀ token ∈ definition.split value, token ∈ definition.split (combined operation held value)) ↔
      ¬ (operation = .prepend ∧ value = "" ∧ "" ∉ definition.split held) := by
  have chars := TextOption.tokens_combine adds held.toList value.toList
  rw [mem_split list, ← String.toList_eq_nil_iff, String.toList_empty, ← chars]
  simp only [mem_split list, combined, String.toList_ofList]
  constructor
  · intro all token member
    simpa using all (String.ofList token) (by simpa using member)
  · exact fun all token member => all token.toList member

/-- A token that a list does not have can be put in and taken out again, and the text is
the one from before. -/
theorem added_removed (list : definition.isList = true) {operation : SetOperation}
    (adds : operation.Adds) {held token : String} (single : ',' ∉ token.toList)
    (absent : token ∉ definition.split held) :
    ∃ longer, definition.combine? operation (.text held) (.text token) = some longer ∧
      definition.combine? .remove longer (.text token) = some (.text held) := by
  refine ⟨_, combine?_text list .., ?_⟩
  rw [mem_split list] at absent
  have restored : combined .remove (combined operation held token) token = held := by
    unfold combined
    rw [String.toList_ofList]
    cases adds with
    | append => rw [TextOption.remove_appended single absent, String.ofList_toList]
    | prepend => rw [TextOption.remove_prepended single absent, String.ofList_toList]
  rw [combine?_text list, restored]

/-- An empty token and a comma at the end come back. -/
theorem trailingComma_restored :
    (OptionDef.ofList "path" "pa" "").isList = true ∧ ',' ∉ "lib".toList ∧
      "lib" ∉ (OptionDef.ofList "path" "pa" "").split "src,," ∧
      ∃ longer,
        (OptionDef.ofList "path" "pa" "").combine? .prepend (.text "src,,") (.text "lib") =
          some longer ∧
        (OptionDef.ofList "path" "pa" "").combine? .remove longer (.text "lib") =
          some (.text "src,,") := by
  have absent : "lib" ∉ (OptionDef.ofList "path" "pa" "").split "src,," := by decide
  exact ⟨rfl, by decide, absent, added_removed rfl .prepend (by decide) absent⟩

theorem accepts_bounded {tokens : List String}
    (kind : definition.kind = .text true (some tokens) none) (s : String) :
    definition.Accepts (.text s) ↔
      TextOption.Bounded (fun token => String.ofList token ∈ tokens) s.toList := by
  have list : definition.isList = true := by simp [isList, kind]
  simp [Accepts, kind, TextOption.Bounded, split, list]

end OptionDef

namespace OptionStore

variable {store after : OptionStore} {name : String} {definition : OptionDef}

/-- An operation on a list is one write. -/
theorem setText_list (found : store.find? name = some definition)
    (list : definition.isList = true) {scope : OptionScope} {operation : SetOperation}
    {value : String} :
    store.setText name scope operation value = (after, .ok ()) ↔
      ∃ held, store.valueAt definition scope = .text held ∧ definition.Accepts (.text value) ∧
        definition.Accepts (.text (OptionDef.combined operation held value)) ∧
        after = store.write definition scope (.text (OptionDef.combined operation held value)) := by
  have read (shown : String) : definition.read value shown = .ok (.text value) := by
    unfold OptionDef.read
    cases kind : definition.kind with
    | text => rfl
    | number => simp [OptionDef.isList, kind] at list
    | toggle => simp [OptionDef.isList, kind] at list
  rw [setText_eq_ok]
  constructor
  · rintro ⟨_, operand, new, known, reads, accepts, combines, accepted, rfl⟩
    obtain rfl := Option.some.inj (found.symm.trans known)
    obtain rfl := Except.ok.inj ((read _).symm.trans reads)
    cases held : store.valueAt definition scope with
    | text held' =>
        rw [held, OptionDef.combine?_text list] at combines
        obtain rfl := Option.some.inj combines
        exact ⟨held', rfl, accepts, accepted, rfl⟩
    | number n => simp [held, OptionDef.combine?, OptionValue.combine?] at combines
    | toggle on => simp [held, OptionDef.combine?, OptionValue.combine?] at combines
  · rintro ⟨held, seen, accepts, accepted, rfl⟩
    exact ⟨definition, .text value, _, found, read _, accepts, by
      rw [seen, OptionDef.combine?_text list], accepted, rfl⟩

/-- The same options with the same values read alike. -/
theorem get_congr (same : after.find? = store.find?)
    (stored : ∀ place, after.stored? place = store.stored? place) (name : String)
    (scope : OptionScope) : after.get name scope = store.get name scope := by
  have shared (name : String) : after.shared.get? name = store.shared.get? name :=
    stored (.shared name)
  have own (id : EditorId) (name : String) :
      after.owned.get? (id, name) = store.owned.get? (id, name) := stored (.own id name)
  simp only [get, resolve, same, valueAt, sharedValue, shared, own]

/-- Added again, an operand leaves every value as it is exactly if it is a single token. -/
theorem added_again_iff (found : store.find? name = some definition)
    (list : definition.isList = true) {operation : SetOperation} (adds : operation.Adds)
    {scope : OptionScope} {value : String}
    (done : store.setText name scope operation value = (after, .ok ())) :
    (∃ again, after.setText name scope operation value = (again, .ok ()) ∧
        ∀ other place, again.get other place = after.get other place) ↔
      ',' ∉ value.toList := by
  obtain ⟨held, _, accepts, accepted, rfl⟩ := (setText_list found list).mp done
  rw [← OptionDef.combined_again adds held]
  generalize OptionDef.combined operation held value = once at accepted
  have same := (Touch.write found scope (.text once)).same.find?
  have known : (store.write definition scope (.text once)).find? name = some definition :=
    same ▸ found
  have seen := valueAt_write store definition scope (.text once)
  constructor
  · rintro ⟨again, done, unchanged⟩
    obtain ⟨held, seen', _, _, rfl⟩ := (setText_list known list).mp done
    obtain rfl := OptionValue.text.inj (seen.symm.trans seen')
    have read := unchanged name scope
    rw [get_of_find? known, get_of_find? ((Touch.write known ..).same.find? ▸ known), seen,
      valueAt_write] at read
    exact OptionValue.text.inj (Except.ok.inj read)
  · intro unchanged
    refine ⟨_, (setText_list known list).mpr
      ⟨once, seen, accepts, unchanged.symm ▸ accepted, rfl⟩, ?_⟩
    rw [unchanged]
    refine get_congr (Touch.write known ..).same.find? fun place => ?_
    rw [stored?_write, stored?_write]
    split <;> rfl

/-- One more token of the list that keys for selections stand in. -/
theorem stopvisual_addedOnce :
    ∃ definition after again, OptionStore.default.find? "km" = some definition ∧
      definition.isList = true ∧ ',' ∉ "stopvisual".toList ∧
      OptionStore.default.setText "km" .everywhere .append "stopvisual" = (after, .ok ()) ∧
      after.setText "km" .everywhere .append "stopvisual" = (again, .ok ()) ∧
      ∀ other place, again.get other place = after.get other place := by
  have found : OptionStore.default.find? "km" = some _ := rfl
  have done : OptionStore.default.setText "km" .everywhere .append "stopvisual" = (_, .ok ()) := rfl
  have single : ',' ∉ "stopvisual".toList := by decide
  obtain ⟨again, twice, same⟩ := (added_again_iff found rfl .append done).mpr single
  exact ⟨_, _, again, found, rfl, single, done, twice, same⟩

/-- Two tokens of that list, added twice. -/
theorem severalTokens_addedTwice :
    ∃ once twice,
      OptionStore.default.setText "km" .everywhere .append "startsel,stopsel" = (once, .ok ()) ∧
      once.setText "km" .everywhere .append "startsel,stopsel" = (twice, .ok ()) ∧
      once.get "km" .everywhere =
        .ok (.text "continueselect,stopselect,startsel,stopsel") ∧
      twice.get "km" .everywhere =
        .ok (.text "continueselect,stopselect,startsel,stopsel,startsel,stopsel") :=
  ⟨_, _, rfl, rfl, rfl, rfl⟩

/-- In a bounded list, an operation on allowed tokens succeeds unless it puts a text before
an empty one; and the tokens of the operand are there, unless it is the empty one, put
before others. -/
theorem bounded_closed_iff {tokens : List String} (found : store.find? name = some definition)
    (kind : definition.kind = .text true (some tokens) none) {scope : OptionScope}
    {held value : String} (seen : store.valueAt definition scope = .text held)
    (valid : definition.Accepts (.text held)) (typed : definition.Accepts (.text value))
    (operation : SetOperation) :
    (∃ after text, store.setText name scope operation value = (after, .ok ()) ∧
        after.get name scope = .ok (.text text) ∧
        (operation.Adds → ∀ token ∈ definition.split value, token ∈ definition.split text)) ↔
      (operation.Trails held.toList value.toList → "" ∈ tokens) ∧
        ¬ (operation = .prepend ∧ value = "" ∧ "" ∉ definition.split held) := by
  have list : definition.isList = true := by simp [OptionDef.isList, kind]
  have accepted := TextOption.bounded_combine operation
    ((OptionDef.accepts_bounded kind held).mp valid)
    ((OptionDef.accepts_bounded kind value).mp typed)
  have accepted : definition.Accepts (.text (OptionDef.combined operation held value)) ↔
      (operation.Trails held.toList value.toList → "" ∈ tokens) := by
    rw [OptionDef.accepts_bounded kind, OptionDef.combined, String.toList_ofList, accepted]
  have read : (store.write definition scope (.text (OptionDef.combined operation held value))).get
      name scope = .ok (.text (OptionDef.combined operation held value)) := by
    rw [get_of_find? ((Touch.write found ..).same.find? ▸ found), valueAt_write]
  rw [← accepted]
  constructor
  · rintro ⟨after, text, done, reads, tokens⟩
    obtain ⟨held', seen', _, accepted, rfl⟩ := (setText_list found list).mp done
    obtain rfl := OptionValue.text.inj (seen.symm.trans seen')
    obtain rfl := OptionValue.text.inj (Except.ok.inj (read.symm.trans reads))
    refine ⟨accepted, ?_⟩
    rintro ⟨rfl, missing⟩
    exact (OptionDef.tokens_combined list .prepend held value).mp (tokens .prepend) ⟨rfl, missing⟩
  · rintro ⟨accepted, present⟩
    exact ⟨_, _, (setText_list found list).mpr ⟨held, seen, typed, accepted, rfl⟩, read,
      fun adds => (OptionDef.tokens_combined list adds held value).mpr present⟩

/-- The option for what starts a selection; its list is empty at first. -/
def selectmode : OptionDef :=
  (OptionDef.ofList OptionName.selectmode "slm" "").withBound ["mouse", "key", "cmd"]

theorem selectmode_found : OptionStore.default.find? "slm" = some selectmode := rfl

theorem selectmode_accepts : selectmode.Accepts (.text "") := .inl rfl

/-- Two tokens behind the empty list. -/
theorem selectmode_appended :
    OptionStore.default.find? "slm" = some selectmode ∧
      selectmode.kind = .text true (some ["mouse", "key", "cmd"]) none ∧
      OptionStore.default.valueAt selectmode .everywhere = .text "" ∧
      selectmode.Accepts (.text "") ∧ selectmode.Accepts (.text "key,cmd") ∧
      ∃ after text, OptionStore.default.setText "slm" .everywhere .append "key,cmd" = (after, .ok ()) ∧
        after.get "slm" .everywhere = .ok (.text text) ∧
        ∀ token ∈ selectmode.split "key,cmd", token ∈ selectmode.split text := by
  have checked : selectmode.check (.text "key,cmd") "" = .ok () := rfl
  have typed := OptionDef.check_eq_ok.mp checked
  have held : OptionStore.default.valueAt selectmode .everywhere = .text "" := rfl
  obtain ⟨after, text, done, read, tokens⟩ :=
    (bounded_closed_iff selectmode_found rfl held selectmode_accepts typed .append).mpr
      ⟨by simp [SetOperation.Trails], by simp⟩
  exact ⟨selectmode_found, rfl, held, selectmode_accepts, typed, after, text, done, read,
    tokens .append⟩

/-- An allowed token in front of the empty list is refused. -/
theorem selectmode_prepended :
    OptionStore.default.find? "slm" = some selectmode ∧
      selectmode.kind = .text true (some ["mouse", "key", "cmd"]) none ∧
      OptionStore.default.valueAt selectmode .everywhere = .text "" ∧
      selectmode.Accepts (.text "") ∧ selectmode.split "key" = ["key"] ∧
      OptionStore.default.setText "slm" .everywhere .prepend "key" =
        (OptionStore.default, .error (.invalidArgument "slm^=key")) :=
  ⟨selectmode_found, rfl, rfl, selectmode_accepts, by decide, rfl⟩

end OptionStore

end ModalInput
