/-
# ModalInput.Proofs.OptionNames -- what a name means once options were defined anew

A full name means the last definition that has it.  A short name leads to a full one, that
of the last definition that had the short name, and then to whatever the full name means by
now.  The two can part: an option that is defined anew without its short name, or with
another, is still found under the old one until some other definition takes that over
(`outlived_found`).

* `IsLast` -- the last definition with a property.
* `get?_definitions_defined`, `get?_shortNames_defined` -- full and short names after any
  definitions; `resolve_defined_iff` -- what is found under a name.
* `names_current_iff` -- a name that is found belongs to the option, unless the option has
  outlived it; a short name that no one else takes finds its option.
-/
import Mathlib.Data.List.Induction
import ModalInput.Options.Default
import ModalInput.Proofs.ValidOptions

namespace ModalInput.OptionStore

set_option autoImplicit false

/-! ## The last definition -/

/-- The definition has a property, and none of those after it has. -/
def IsLast (has : OptionDef → Prop) (definitions : List OptionDef) (definition : OptionDef) :
    Prop :=
  ∃ before later, definitions = before ++ definition :: later ∧ has definition ∧
    ∀ other ∈ later, ¬ has other

section IsLast

variable {has : OptionDef → Prop} {definitions : List OptionDef} {definition : OptionDef}

theorem IsLast.mem (last : IsLast has definitions definition) : definition ∈ definitions := by
  obtain ⟨before, later, rfl, _, _⟩ := last
  simp

theorem IsLast.holds (last : IsLast has definitions definition) : has definition := by
  obtain ⟨_, _, _, holds, _⟩ := last
  exact holds

theorem not_isLast_nil : ¬ IsLast has [] definition := by
  rintro ⟨before, later, split, _⟩
  simp at split

variable (has)

/-- One more definition is the last one with a property that it has. -/
theorem isLast_concat_self (holds : has definition) (other : OptionDef) :
    IsLast has (definitions ++ [definition]) other ↔ other = definition := by
  constructor
  · rintro ⟨before, later, split, _, none⟩
    rcases List.eq_nil_or_concat later with rfl | ⟨more, final, rfl⟩
    · exact (List.singleton_inj.mp (List.append_inj' split rfl).2).symm
    · rw [List.concat_eq_append] at split none
      rw [← List.cons_append, ← List.append_assoc] at split
      obtain rfl := List.singleton_inj.mp (List.append_inj' split rfl).2
      exact absurd holds (none definition (by simp))
  · rintro rfl
    exact ⟨definitions, [], rfl, holds, by simp⟩

/-- One without the property leaves the last one where it was. -/
theorem isLast_concat_other (fails : ¬ has definition) (other : OptionDef) :
    IsLast has (definitions ++ [definition]) other ↔ IsLast has definitions other := by
  constructor
  · rintro ⟨before, later, split, holds, none⟩
    rcases List.eq_nil_or_concat later with rfl | ⟨more, final, rfl⟩
    · obtain rfl := List.singleton_inj.mp (List.append_inj' split rfl).2
      exact absurd holds fails
    · rw [List.concat_eq_append] at split none
      rw [← List.cons_append, ← List.append_assoc] at split
      exact ⟨before, more, (List.append_inj' split rfl).1, holds,
        fun later member => none later (by simp [member])⟩
  · rintro ⟨before, later, rfl, holds, none⟩
    refine ⟨before, later ++ [definition], by simp, holds, ?_⟩
    intro later member
    rcases List.mem_append.mp member with early | final
    · exact none later early
    · obtain rfl := List.mem_singleton.mp final
      exact fails

end IsLast

/-! ## What is found under a name -/

/-- The store after some definitions, in order. -/
def defined (definitions : List OptionDef) : OptionStore := definitions.foldl define {}

theorem defined_concat (definitions : List OptionDef) (definition : OptionDef) :
    defined (definitions ++ [definition]) = (defined definitions).define definition :=
  List.foldl_append

/-- The last definition with a full name: what the option is now. -/
def Current (definitions : List OptionDef) (name : String) : OptionDef → Prop :=
  IsLast (fun definition => definition.name = name) definitions

/-- The last definition with a short name. -/
def Shortened (definitions : List OptionDef) (short : String) : OptionDef → Prop :=
  IsLast (fun definition => definition.short = some short) definitions

theorem current_concat (definitions : List OptionDef) (name : String)
    (definition other : OptionDef) :
    Current (definitions ++ [definition]) name other ↔
      if name = definition.name then definition = other else Current definitions name other := by
  unfold Current
  by_cases same : definition.name = name
  · rw [isLast_concat_self (fun definition => definition.name = name) same,
      if_pos same.symm, eq_comm]
  · rw [isLast_concat_other (fun definition => definition.name = name) same,
      if_neg (Ne.symm same)]

theorem shortened_concat (definitions : List OptionDef) (short : String)
    (definition other : OptionDef) :
    Shortened (definitions ++ [definition]) short other ↔
      if definition.short = some short then definition = other
      else Shortened definitions short other := by
  unfold Shortened
  by_cases same : definition.short = some short
  · rw [isLast_concat_self (fun definition => definition.short = some short) same,
      if_pos same, eq_comm]
  · rw [isLast_concat_other (fun definition => definition.short = some short) same,
      if_neg same]

variable (definitions : List OptionDef)

/-- A full name means the last definition that has it. -/
theorem get?_definitions_defined (name : String) (found : OptionDef) :
    (defined definitions).definitions.get? name = some found ↔ Current definitions name found := by
  induction definitions using List.reverseRecOn with
  | nil => simp [defined, Current, not_isLast_nil]
  | append_singleton earlier definition ih =>
      rw [defined_concat, get?_define, current_concat]
      split
      · exact Option.some_inj
      · exact ih

theorem get?_shortNames_define (store : OptionStore) (definition : OptionDef) (short : String) :
    (store.define definition).shortNames.get? short =
      if definition.short = some short then some definition.name
      else store.shortNames.get? short := by
  unfold define
  cases own : definition.short with
  | none => simp
  | some other => simp [Directory.get?_insert, eq_comm]

/-- A short name leads to the full name of the last definition that has it. -/
theorem get?_shortNames_defined (short full : String) :
    (defined definitions).shortNames.get? short = some full ↔
      ∃ shortened, Shortened definitions short shortened ∧ shortened.name = full := by
  induction definitions using List.reverseRecOn with
  | nil => simp [defined, Shortened, not_isLast_nil]
  | append_singleton earlier definition ih =>
      simp only [defined_concat, get?_shortNames_define, shortened_concat]
      split
      · simp
      · exact ih

/-- No definition has a full name that nothing is found under. -/
theorem get?_definitions_eq_none (name : String) :
    (defined definitions).definitions.get? name = none ↔
      ∀ other ∈ definitions, other.name ≠ name := by
  induction definitions using List.reverseRecOn with
  | nil => simp [defined]
  | append_singleton earlier definition ih =>
      rw [defined_concat, get?_define]
      split
      · rename_i same
        simp [same]
      · rename_i other
        simp [ih, or_imp, forall_and, Ne.symm other]

/-- What a name means after some definitions: as a full name the option that has it now, and
otherwise, as a short name, whatever the full name means that it was last short for. -/
def Means (definitions : List OptionDef) (name : String) (found : OptionDef) : Prop :=
  Current definitions name found ∨
    (∀ other ∈ definitions, other.name ≠ name) ∧
      ∃ shortened, Shortened definitions name shortened ∧ Current definitions shortened.name found

theorem resolve_defined_iff (name : String) (found : OptionDef) :
    (defined definitions).resolve name = .ok found ↔ Means definitions name found := by
  rw [resolve_eq_ok, find?, Means, ← get?_definitions_defined, ← get?_definitions_eq_none]
  cases full : (defined definitions).definitions.get? name with
  | some own => simp
  | none =>
      simp only [Option.none_or, reduceCtorEq, false_or, true_and, Option.bind_eq_some_iff,
        get?_shortNames_defined, get?_definitions_defined]
      constructor
      · rintro ⟨full, ⟨shortened, last, rfl⟩, found⟩
        exact ⟨shortened, last, found⟩
      · rintro ⟨shortened, last, found⟩
        exact ⟨shortened.name, ⟨shortened, last, rfl⟩, found⟩

/-! ## Names that are current -/

/-- A definition of an option had the name as its short one, and none after it has; the
option has another short name by now, or none, and no option has the name as its full one. -/
structure Outlives (definitions : List OptionDef) (name : String) (option : OptionDef) : Prop where
  unnamed : ∀ other ∈ definitions, other.name ≠ name
  changed : option.short ≠ some name
  before : ∃ earlier, Shortened definitions name earlier ∧ earlier.name = option.name

/-- After any definitions: what a name means; that it is the full or the short name of what it
means, unless it outlives that definition; and that an option is found under its short name,
unless that is a full name of another or a later definition takes it over. -/
theorem names_current_iff :
    (∀ name found, (defined definitions).resolve name = .ok found ↔
      Means definitions name found) ∧
    (∀ name found, (defined definitions).resolve name = .ok found →
      ((found.name = name ∨ found.short = some name) ↔ ¬ Outlives definitions name found)) ∧
    ∀ before option later short, definitions = before ++ option :: later →
      (∀ other ∈ later, other.name ≠ option.name) → option.short = some short →
      (∀ other ∈ definitions, other.name = short → other.name = option.name) →
      (∀ other ∈ later, other.short ≠ some short) →
        (defined definitions).resolve short = .ok option := by
  refine ⟨resolve_defined_iff definitions, ?_, ?_⟩
  · intro name found isFound
    rcases (resolve_defined_iff definitions name found).mp isFound with
      named | ⟨unnamed, earlier, shortened, current⟩
    · have full : found.name = name := named.holds
      exact iff_of_true (.inl full) fun outlives => outlives.unnamed found named.mem full
    · have different : found.name ≠ name := unnamed found current.mem
      constructor
      · rintro (full | short) outlives
        · exact different full
        · exact outlives.changed short
      · intro current'
        by_cases short : found.short = some name
        · exact .inr short
        · exact absurd ⟨unnamed, short, earlier, shortened, current.holds.symm⟩ current'
  · intro before option later short split current hasShort others taken
    have last : Current definitions option.name option := ⟨before, later, split, rfl, current⟩
    refine (resolve_defined_iff definitions short option).mpr ?_
    by_cases full : option.name = short
    · exact .inl (full ▸ last)
    · have unnamed : ∀ other ∈ definitions, other.name ≠ short :=
        fun other member same => full ((others other member same).symm.trans same)
      exact .inr ⟨unnamed, option, ⟨before, later, split, hasShort, taken⟩, last⟩

/-- A short name is taken over, and the option that had it is defined anew with another. -/
def reshortened : List OptionDef :=
  [.ofNumber "width" "w" 80, .ofNumber "wrapmargin" "w" 0, .ofNumber "width" "wd" 72]

theorem reshortened_current :
    ((defined reshortened).resolve "w" = .ok (.ofNumber "wrapmargin" "w" 0) ∧
      ¬ Outlives reshortened "w" (.ofNumber "wrapmargin" "w" 0)) ∧
    (defined reshortened).resolve "wd" = .ok (.ofNumber "width" "wd" 72) := by
  obtain ⟨_, current, found⟩ := names_current_iff reshortened
  have taken : (defined reshortened).resolve "w" = .ok (.ofNumber "wrapmargin" "w" 0) := rfl
  refine ⟨⟨taken, (current "w" _ taken).mp (.inr rfl)⟩, ?_⟩
  refine found [.ofNumber "width" "w" 80, .ofNumber "wrapmargin" "w" 0] _ [] "wd" rfl (by simp) rfl
    ?_ (by simp)
  simp [reshortened, OptionDef.ofNumber]

/-- An option that is defined anew without its short name is still found under it. -/
theorem outlived_found :
    let old : OptionDef := .ofNumber "width" "w" 80
    let new : OptionDef := .ofNumber "width" "" 72
    (defined [old, new]).resolve "w" = .ok new ∧ new.name ≠ "w" ∧ new.short = none :=
  ⟨rfl, by decide, rfl⟩

end ModalInput.OptionStore
