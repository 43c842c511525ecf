/-
# ModalInput.Proofs.CursorValues -- what a value that can be read makes the cursor look like

An entry names its arguments between separators, so no highlight group has one of them
in it, and a bar is as thick as its digits say only if that is between 1 and 100; an
argument that makes the cursor a block takes the thickness of an earlier bar away.  So
every entry that is read is `Regular`, entries laid over one another keep a look
regular, and the look in every mode is: between 1 and 100 percent thick, all of the
character for a block.

A value is its entries between commas, so two values with a comma between them are read
one after the other (`readAll_joined`).

* `addArgument_regular` -- one more argument of an entry; `read_regular` -- an entry.
* `Regular.override` -- one more entry of a look; `of_regular` -- a look.
* `looks_regular` -- every value that passes the check.
-/
import ModalInput.Cursor.Reader
import ModalInput.Proofs.OptionWrites

namespace ModalInput

set_option autoImplicit false

/-! ## Characters of fields -/

/-- The fields of a text have no characters but its own. -/
theorem Text.mem_of_mem_fields {separator c : Char} {s field : List Char}
    (member : field ∈ fields separator s) (inside : c ∈ field) : c ∈ s := by
  induction s generalizing field with
  | nil =>
      rw [List.mem_singleton.mp member] at inside
      cases inside
  | cons first rest ih =>
      by_cases same : first = separator
      · rw [fields, if_pos same, List.mem_cons] at member
        rcases member with rfl | later
        · cases inside
        · exact .tail _ (ih later inside)
      · obtain ⟨front, others, cut, cuts⟩ := fields_cons same rest
        rw [cuts, List.mem_cons] at member
        rcases member with rfl | later
        · rcases List.mem_cons.mp inside with rfl | inside
          · exact .head _
          · exact .tail _ (ih (cut ▸ List.mem_cons_self) inside)
        · exact .tail _ (ih (cut ▸ List.mem_cons_of_mem _ later) inside)

namespace CursorEntry

/-- None of the characters that stand between entries, and between their parts. -/
structure Unseparated (text : List Char) : Prop where
  comma : ',' ∉ text
  colon : ':' ∉ text
  hyphen : '-' ∉ text

theorem Unseparated.sublist {text part : List Char} (unseparated : Unseparated text)
    (sublist : part.Sublist text) : Unseparated part where
  comma inside := unseparated.comma (sublist.subset inside)
  colon inside := unseparated.colon (sublist.subset inside)
  hyphen inside := unseparated.hyphen (sublist.subset inside)

/-- The arguments of an entry stand between hyphens, in a part of the entry between
colons. -/
theorem unseparated_argument {text part argument : List Char} (single : ',' ∉ text)
    (member : part ∈ Text.fields ':' text) (member' : argument ∈ Text.fields '-' part) :
    Unseparated argument where
  comma inside := single (Text.mem_of_mem_fields member (Text.mem_of_mem_fields member' inside))
  colon inside := Text.not_mem_of_mem_fields member (Text.mem_of_mem_fields member' inside)
  hyphen := Text.not_mem_of_mem_fields member'

/-! ## Entries -/

/-- What an entry that can be read sets. -/
structure Regular (entry : CursorEntry) : Prop where
  thickness : ∀ percent, entry.thickness = some percent → 1 ≤ percent ∧ percent ≤ 100
  block : entry.shape = some .block → entry.thickness = none
  highlight : Unseparated entry.highlight.toList
  languageHighlight : Unseparated entry.languageHighlight.toList
  blinking : ∀ setting ∈ entry.blinking, "blink".toList <+: setting.toList

theorem unseparated_empty : Unseparated "".toList := ⟨by simp, by simp, by simp⟩

/-- An entry that sets nothing so far. -/
theorem regular_modes (modes : List CursorMode) : Regular { modes } where
  thickness := by simp
  block := by simp
  highlight := unseparated_empty
  languageHighlight := unseparated_empty
  blinking := by simp

theorem readThickness_eq_ok {text : String} {digits : List Char} {percent : Nat}
    (read : readThickness text digits = .ok percent) : 1 ≤ percent ∧ percent ≤ 100 := by
  unfold readThickness at read
  split at read
  · cases read
  · split at read
    · rename_i bounds
      cases read
      exact bounds
    · cases read

/-- A bar is no block. -/
theorem shape?_ne_block {argument digits : List Char} {shape : CursorShape}
    (names : shape? argument = some (shape, digits)) : shape ≠ .block := by
  unfold shape? at names
  split at names <;> cases names <;> decide

theorem addArgument_regular {text : String} {entry next : CursorEntry} {argument : List Char}
    (regular : entry.Regular) (unseparated : Unseparated argument)
    (added : addArgument text entry argument = .ok next) : next.Regular := by
  unfold addArgument at added
  split at added
  · cases added
    exact { regular with thickness := by simp, block := fun _ => rfl }
  split at added
  · rename_i shape digits names
    obtain ⟨percent, read, rfl⟩ := map_eq_ok.mp added
    refine { regular with thickness := ?_, block := ?_ }
    · rintro _ ⟨⟩
      exact readThickness_eq_ok read
    · exact fun block => absurd (Option.some.inj block) (shape?_ne_block names)
  split at added
  · rename_i blinks
    cases added
    refine { regular with blinking := ?_ }
    intro setting member
    rcases List.mem_append.mp member with old | new
    · exact regular.blinking setting old
    · have chars : (String.ofList argument).toList = argument := String.toList_ofList
      rw [List.mem_singleton.mp new, chars]
      exact List.isPrefixOf_iff_prefix.mp blinks
  split at added
  · cases added
    refine { regular with highlight := ?_, languageHighlight := ?_ }
    · rw [String.toList_ofList]
      exact unseparated.sublist (List.takeWhile_sublist _)
    · rw [String.toList_ofList]
      exact unseparated.sublist ((List.drop_sublist _ _).trans (List.dropWhile_sublist _))
  · cases added
    refine { regular with highlight := ?_ }
    rwa [String.toList_ofList]

theorem addArguments_regular {text : String} {arguments : List (List Char)}
    (unseparated : ∀ argument ∈ arguments, Unseparated argument) {entry next : CursorEntry}
    (regular : entry.Regular) (added : arguments.foldlM (addArgument text) entry = .ok next) :
    next.Regular := by
  induction arguments generalizing entry with
  | nil =>
      cases added
      exact regular
  | cons argument rest ih =>
      rw [List.forall_mem_cons] at unseparated
      rw [List.foldlM_cons] at added
      obtain ⟨middle, first, later⟩ := bind_eq_ok.mp added
      exact ih unseparated.2 (addArgument_regular regular unseparated.1 first) later

theorem read_regular {text : List Char} {entry : CursorEntry} (single : ',' ∉ text)
    (read : CursorEntry.read text = .ok entry) : entry.Regular := by
  unfold CursorEntry.read at read
  dsimp only at read
  split at read
  · rename_i modes arguments cut
    obtain ⟨modes, _, added⟩ := bind_eq_ok.mp read
    refine addArguments_regular (fun argument member => ?_) (regular_modes modes) added
    exact unseparated_argument single (by simp [cut]) member
  · cases read
  · cases read

/-! ## Values -/

theorem readAll_regular {value : String} {entries : List CursorEntry}
    (read : readAll value = .ok entries) : ∀ entry ∈ entries, entry.Regular := by
  have single : ∀ text ∈ (Text.fields ',' value.toList).filter (!·.isEmpty), ',' ∉ text :=
    fun text member => Text.not_mem_of_mem_fields (List.mem_filter.mp member).1
  unfold readAll at read
  generalize (Text.fields ',' value.toList).filter (!·.isEmpty) = texts at single read
  induction texts generalizing entries with
  | nil =>
      cases read
      simp
  | cons text rest ih =>
      rw [List.forall_mem_cons] at single
      rw [List.mapM_cons] at read
      obtain ⟨entry, first, read⟩ := bind_eq_ok.mp read
      obtain ⟨more, later, same⟩ := bind_eq_ok.mp read
      cases same
      rw [List.forall_mem_cons]
      exact ⟨read_regular single.1 first, ih single.2 later⟩

/-- Two values with a comma between them are read one after the other. -/
theorem readAll_joined {first second : String} {entries more : List CursorEntry}
    (read : readAll first = .ok entries) (read' : readAll second = .ok more) :
    readAll (first ++ "," ++ second) = .ok (entries ++ more) := by
  unfold readAll at read read' ⊢
  have cut : Text.fields ',' (first ++ "," ++ second).toList =
      Text.fields ',' first.toList ++ Text.fields ',' second.toList := by
    have chars : (first ++ "," ++ second).toList = first.toList ++ ',' :: second.toList := by simp
    rw [chars, Text.fields_append]
  rw [cut, List.filter_append, List.mapM_append, read, read']
  rfl

theorem check_eq_ok_iff {value : String} :
    check value = .ok () ↔ ∃ entries, readAll value = .ok entries := by
  rw [check, map_eq_ok]
  simp

end CursorEntry

namespace CursorAttributes

/-! ## Looks -/

/-- A look that a value can give the cursor. -/
structure Regular (look : CursorAttributes) : Prop where
  thickness : 1 ≤ look.thickness ∧ look.thickness ≤ 100
  block : look.shape = .block → look.thickness = 100
  highlight : CursorEntry.Unseparated look.highlight.toList
  languageHighlight : CursorEntry.Unseparated look.languageHighlight.toList
  blinking : ∀ setting ∈ look.blinking, "blink".toList <+: setting.toList

theorem regular_default : Regular {} where
  thickness := by decide
  block := fun _ => rfl
  highlight := CursorEntry.unseparated_empty
  languageHighlight := CursorEntry.unseparated_empty
  blinking := by simp

/-- An entry that sets a shape sets the thickness with it. -/
theorem shape_override {look : CursorAttributes} (regular : look.Regular) {entry : CursorEntry}
    (sets : entry.Regular) :
    (1 ≤ (entry.override look).thickness ∧ (entry.override look).thickness ≤ 100) ∧
      ((entry.override look).shape = .block → (entry.override look).thickness = 100) := by
  cases shape : entry.shape with
  | none => simpa [CursorEntry.override, shape] using ⟨regular.thickness, regular.block⟩
  | some here =>
      cases thickness : entry.thickness with
      | none => simp [CursorEntry.override, shape, thickness]
      | some percent =>
          have bar : here ≠ .block := by
            rintro rfl
            simp [sets.block shape] at thickness
          simpa [CursorEntry.override, shape, thickness, bar] using sets.thickness percent thickness

theorem Regular.override {look : CursorAttributes} (regular : look.Regular) {entry : CursorEntry}
    (sets : entry.Regular) : (entry.override look).Regular where
  thickness := (shape_override regular sets).1
  block := (shape_override regular sets).2
  highlight := by
    simp only [CursorEntry.override]
    split
    · exact regular.highlight
    · exact sets.highlight
  languageHighlight := by
    simp only [CursorEntry.override]
    split
    · exact regular.languageHighlight
    · exact sets.languageHighlight
  blinking := by
    simp only [CursorEntry.override]
    split
    · exact regular.blinking
    · exact sets.blinking

theorem foldl_regular {entries : List CursorEntry} (sets : ∀ entry ∈ entries, entry.Regular)
    {look : CursorAttributes} (regular : look.Regular) :
    (entries.foldl (fun look entry => entry.override look) look).Regular := by
  induction entries generalizing look with
  | nil => exact regular
  | cons entry rest ih =>
      rw [List.forall_mem_cons] at sets
      exact ih sets.2 (regular.override sets.1)

theorem of_regular {entries : List CursorEntry} (sets : ∀ entry ∈ entries, entry.Regular)
    (mode : CursorMode) : (of entries mode).Regular :=
  foldl_regular (fun entry member => sets entry (List.mem_filter.mp member).1) regular_default

/-- A value that passes the check can be read; the look that its entries give the cursor
is regular in every mode; and with another such value behind a comma it passes again,
and is read as the entries of both. -/
theorem looks_regular {value : String} (accepted : CursorEntry.check value = .ok ()) :
    ∃ entries, CursorEntry.readAll value = .ok entries ∧
      (∀ mode, (of entries mode).Regular) ∧
      ∀ other, CursorEntry.check other = .ok () → ∃ more,
        CursorEntry.readAll other = .ok more ∧
        CursorEntry.readAll (value ++ "," ++ other) = .ok (entries ++ more) ∧
        CursorEntry.check (value ++ "," ++ other) = .ok () := by
  obtain ⟨entries, read⟩ := CursorEntry.check_eq_ok_iff.mp accepted
  refine ⟨entries, read, of_regular (CursorEntry.readAll_regular read), ?_⟩
  intro other accepted'
  obtain ⟨more, read'⟩ := CursorEntry.check_eq_ok_iff.mp accepted'
  have both := CursorEntry.readAll_joined read read'
  exact ⟨more, read', both, CursorEntry.check_eq_ok_iff.mpr ⟨_, both⟩⟩

/-- A bar that becomes a block in the same entry, and a bar for every mode behind it. -/
def layeredValue : String := "n-v:hor7-block-Cursor/lCursor,,a:blinkon5-ver025,n:Late"

theorem layeredValue_regular :
    CursorEntry.check layeredValue = .ok () ∧ CursorEntry.check "ve:block" = .ok () ∧
      ∃ entries more, CursorEntry.readAll layeredValue = .ok entries ∧
        (∀ mode, (of entries mode).Regular) ∧ CursorEntry.readAll "ve:block" = .ok more ∧
        CursorEntry.readAll (layeredValue ++ "," ++ "ve:block") = .ok (entries ++ more) ∧
        CursorEntry.check (layeredValue ++ "," ++ "ve:block") = .ok () := by
  have accepted : CursorEntry.check layeredValue = .ok () := rfl
  have accepted' : CursorEntry.check "ve:block" = .ok () := rfl
  obtain ⟨entries, read, regular, joined⟩ := looks_regular accepted
  obtain ⟨more, read', both, accepted''⟩ := joined "ve:block" accepted'
  exact ⟨accepted, accepted', entries, more, read, regular, read', both, accepted''⟩

end CursorAttributes

end ModalInput
