/-
# ModalInput.Text.Fields -- text cut at a separator, and put together again

A list option holds its tokens in one text, with a comma between neighbours.
`fields` cuts a text at every separator: `n` separators give `n + 1` fields, so
the empty text has one field, which is empty.  `joined` is its inverse on any
list of fields but the empty one (`joined_fields`, `fields_joined`).
-/

namespace ModalInput.Text

set_option autoImplicit false

/-- The pieces between the separators. -/
def fields (separator : Char) : List Char → List (List Char)
  | [] => [[]]
  | c :: rest =>
      if c = separator then [] :: fields separator rest
      else match fields separator rest with
        | [] => [[c]]
        | first :: others => (c :: first) :: others

/-- The fields with one separator between neighbours. -/
def joined (separator : Char) : List (List Char) → List Char
  | [] => []
  | [field] => field
  | field :: next :: rest => field ++ separator :: joined separator (next :: rest)

theorem fields_ne_nil (separator : Char) (s : List Char) : fields separator s ≠ [] := by
  cases s with
  | nil => simp [fields]
  | cons c rest =>
      unfold fields
      split
      · simp
      · split <;> simp

theorem joined_fields (separator : Char) (s : List Char) : joined separator (fields separator s) = s := by
  induction s with
  | nil => rfl
  | cons c rest ih =>
      unfold fields
      split
      · rename_i same
        cases cut : fields separator rest with
        | nil => exact absurd cut (fields_ne_nil separator rest)
        | cons first others => rw [cut] at ih; simp [joined, ih, same]
      · cases cut : fields separator rest with
        | nil => exact absurd cut (fields_ne_nil separator rest)
        | cons first others =>
            rw [cut] at ih
            cases others with
            | nil => simp_all [joined]
            | cons next more => simpa [joined] using ih

theorem fields_cons {separator c : Char} (other : c ≠ separator) (s : List Char) :
    ∃ first others, fields separator s = first :: others ∧
      fields separator (c :: s) = (c :: first) :: others := by
  cases cut : fields separator s with
  | nil => exact absurd cut (fields_ne_nil separator s)
  | cons first others => exact ⟨first, others, rfl, by simp [fields, other, cut]⟩

/-- No field has a separator in it. -/
theorem not_mem_of_mem_fields {separator : Char} {s field : List Char}
    (member : field ∈ fields separator s) : separator ∉ field := by
  induction s generalizing field with
  | nil => simp_all [fields]
  | cons c rest ih =>
      by_cases same : c = separator
      · rw [fields, if_pos same, List.mem_cons] at member
        rcases member with rfl | member
        · simp
        · exact ih member
      · obtain ⟨first, others, cut, cuts⟩ := fields_cons same rest
        rw [cuts, List.mem_cons] at member
        rcases member with rfl | member
        · have inside := ih (cut ▸ List.mem_cons_self)
          simp [Ne.symm same, inside]
        · exact ih (cut ▸ List.mem_cons_of_mem _ member)

/-- A text without separators is one field. -/
theorem fields_of_not_mem {separator : Char} {s : List Char} (whole : separator ∉ s) :
    fields separator s = [s] := by
  induction s with
  | nil => rfl
  | cons c rest ih =>
      rw [List.mem_cons, not_or] at whole
      obtain ⟨differs, whole⟩ := whole
      obtain ⟨first, others, cut, cuts⟩ := fields_cons (Ne.symm differs) rest
      obtain ⟨rfl, rfl⟩ : first = rest ∧ others = [] := by simpa [cut] using ih whole
      exact cuts

/-- A separator stands between the fields before it and those behind it. -/
theorem fields_append (separator : Char) (s t : List Char) :
    fields separator (s ++ separator :: t) = fields separator s ++ fields separator t := by
  induction s with
  | nil => simp [fields]
  | cons c rest ih =>
      by_cases same : c = separator
      · simp [fields, same, ih]
      · obtain ⟨first, others, cut, cuts⟩ := fields_cons same rest
        obtain ⟨first', others', cut', cuts'⟩ := fields_cons same (rest ++ separator :: t)
        obtain ⟨rfl, rfl⟩ : first' = first ∧ others' = others ++ fields separator t := by
          simpa [cut', cut] using ih
        rw [List.cons_append, cuts', cuts, List.cons_append]

/-- Fields without separators are found again. -/
theorem fields_joined {separator : Char} {list : List (List Char)} (nonempty : list ≠ [])
    (whole : ∀ field ∈ list, separator ∉ field) :
    fields separator (joined separator list) = list := by
  induction list with
  | nil => exact absurd rfl nonempty
  | cons field rest ih =>
      have first := fields_of_not_mem (whole field List.mem_cons_self)
      cases rest with
      | nil => exact first
      | cons next more =>
          rw [joined, fields_append, first,
            ih (by simp) fun field member => whole field (List.mem_cons_of_mem _ member)]
          rfl

/-- A front of one kind of characters is cut off where another kind stands behind it. -/
theorem front_cut {p : Char → Bool} {front rest : List Char} (inside : ∀ c ∈ front, p c = true)
    (stops : rest.takeWhile p = []) :
    (front ++ rest).takeWhile p = front ∧ (front ++ rest).dropWhile p = rest := by
  have parts := List.takeWhile_append_dropWhile (p := p) (l := rest)
  rw [stops, List.nil_append] at parts
  rw [List.takeWhile_append_of_pos inside, stops, List.append_nil,
    List.dropWhile_append_of_pos inside, parts]
  exact ⟨rfl, rfl⟩

/-- `fields` on strings. -/
def tokens (separator : Char) (s : String) : List String :=
  (fields separator s.toList).map String.ofList

end ModalInput.Text
