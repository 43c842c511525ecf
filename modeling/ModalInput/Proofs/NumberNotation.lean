/-
# ModalInput.Proofs.NumberNotation -- the numbers that can be typed

A number is typed as digits, decimal ones or hexadecimal ones after `0x`, with an optional
minus sign in front (`Denotes`).  The reader takes the minus off, and leaves the digits to a
reader of signed digits that checks the range.  So it differs at both ends.  A sign right
before the digits is taken, too, where there should be none (`Strays`); and the least number
is refused, for without its minus it has no 64 bits.

* `Numeral` -- the number of a run of digits, by its positions; `digits?_eq_some`.
* `read?_eq_some` -- the texts that are read, and as what.
* `numbers_assigned` -- what comes of assigning a text to a number option, and which values
  can be assigned back in the form in which they are shown.
-/
import Mathlib.Data.List.Forall2
import Mathlib.Data.Nat.Digits.Defs
import Mathlib.Tactic.IntervalCases
import ModalInput.Proofs.OptionKinds

namespace ModalInput

set_option autoImplicit false

namespace OptionNumber

/-! ## Digits -/

/-- A digit and its value, in bases up to 16; capital letters count like small ones. -/
def IsDigit (c : Char) (value : Nat) : Prop :=
  "0123456789abcdef".toList[value]? = some c ∨ "0123456789ABCDEF".toList[value]? = some c

instance (c : Char) (value : Nat) : Decidable (IsDigit c value) :=
  inferInstanceAs (Decidable (_ ∨ _))

/-- The digits stand in three runs of characters. -/
theorem isDigit_of_range {c : Char} :
    (48 ≤ c.toNat → c.toNat ≤ 57 → IsDigit c (c.toNat - 48)) ∧
      (97 ≤ c.toNat → c.toNat ≤ 102 → IsDigit c (c.toNat - 97 + 10)) ∧
      (65 ≤ c.toNat → c.toNat ≤ 70 → IsDigit c (c.toNat - 65 + 10)) := by
  have same : c = Char.ofNat c.toNat := c.ofNat_toNat.symm
  generalize c.toNat = code at same
  subst same
  refine ⟨fun low high => ?_, fun low high => ?_, fun low high => ?_⟩ <;>
    interval_cases code <;> decide

theorem hexDigit?_eq_some {c : Char} {value : Nat} :
    Text.hexDigit? c = some value ↔ IsDigit c value := by
  constructor
  · intro read
    obtain ⟨decimal, small, capital⟩ := isDigit_of_range (c := c)
    simp only [Text.hexDigit?, Char.isDigit, Char.le_def, UInt32.le_iff_toNat_le, ge_iff_le,
      Bool.and_eq_true, decide_eq_true_eq] at read
    split at read
    · rename_i within
      cases read
      exact decimal within.1 within.2
    split at read
    · rename_i within
      cases read
      exact small within.1 within.2
    split at read
    · rename_i within
      cases read
      exact capital within.1 within.2
    · cases read
  · rintro (listed | listed) <;>
    · have short : value < 16 := (List.getElem?_eq_some_iff.mp listed).1
      interval_cases value <;> cases listed <;> rfl

theorem digit?_eq_some {base : Nat} {c : Char} {value : Nat} :
    Text.digit? base c = some value ↔ IsDigit c value ∧ value < base := by
  simp [Text.digit?, Option.filter_eq_some_iff, hexDigit?_eq_some]

/-- Digits of a base, one after the other, with their values. -/
def AreDigits (base : Nat) (digits : List Char) (values : List Nat) : Prop :=
  List.Forall₂ IsDigit digits values ∧ ∀ value ∈ values, value < base

/-- A run of digits that is not empty, and the number that it denotes: each digit counts for
its position, the last one for itself. -/
def Numeral (base : Nat) (digits : List Char) (n : Nat) : Prop :=
  digits ≠ [] ∧ ∃ values, AreDigits base digits values ∧ n = Nat.ofDigits base values.reverse

/-- What was read before counts as one more digit in front. -/
theorem digitsFrom?_eq_some {base : Nat} {digits : List Char} {front n : Nat} :
    Text.digitsFrom? base front digits = some n ↔
      ∃ values, AreDigits base digits values ∧
        n = Nat.ofDigits base (values.reverse ++ [front]) := by
  induction digits generalizing front with
  | nil =>
      simp [Text.digitsFrom?, AreDigits, eq_comm]
  | cons c rest ih =>
      have shifted (value : Nat) (values : List Nat) :
          Nat.ofDigits base (values.reverse ++ [front * base + value]) =
            Nat.ofDigits base ((value :: values).reverse ++ [front]) := by
        have two : Nat.ofDigits base [value, front] = front * base + value := by
          simp [Nat.ofDigits_cons, Nat.add_comm value, Nat.mul_comm base]
        rw [List.reverse_cons, List.append_assoc, Nat.ofDigits_append, Nat.ofDigits_append,
          List.singleton_append, two, Nat.ofDigits_singleton]
      simp only [Text.digitsFrom?, Option.bind_eq_some_iff, digit?_eq_some, ih]
      constructor
      · rintro ⟨value, ⟨digit, small⟩, values, ⟨all, fit⟩, rfl⟩
        exact ⟨value :: values, ⟨.cons digit all, by simpa using ⟨small, fit⟩⟩, shifted ..⟩
      · rintro ⟨_, ⟨all, fit⟩, rfl⟩
        cases all with
        | @cons _ value _ values digit all =>
          simp only [List.mem_cons, forall_eq_or_imp] at fit
          exact ⟨value, ⟨digit, fit.1⟩, values, ⟨all, fit.2⟩, (shifted ..).symm⟩

theorem digits?_eq_some {base : Nat} {digits : List Char} {n : Nat} :
    Text.digits? base digits = some n ↔ Numeral base digits n := by
  unfold Text.digits? Numeral
  cases digits with
  | nil => simp
  | cons c rest =>
      simp [digitsFrom?_eq_some, Nat.ofDigits_append]

theorem Numeral.isDigit {base : Nat} {c : Char} {rest : List Char} {n : Nat}
    (numeral : Numeral base (c :: rest) n) : ∃ value, IsDigit c value ∧ value < base := by
  obtain ⟨_, _, ⟨all, fit⟩, _⟩ := numeral
  cases all with
  | cons digit all => exact ⟨_, digit, fit _ (by simp)⟩

/-- No sign is a digit. -/
theorem not_numeral_sign {base : Nat} {c : Char} (sign : c = '+' ∨ c = '-') (rest : List Char)
    (n : Nat) : ¬ Numeral base (c :: rest) n := by
  intro numeral
  obtain ⟨value, digit, _⟩ := numeral.isDigit
  rw [← hexDigit?_eq_some] at digit
  rcases sign with rfl | rfl <;> cases digit

/-- The mark of hexadecimal digits is no decimal digit. -/
theorem not_numeral_mark {c : Char} (mark : c = 'x' ∨ c = 'X') (rest : List Char) (n : Nat) :
    ¬ Numeral 10 ('0' :: c :: rest) n := by
  intro numeral
  rw [← digits?_eq_some] at numeral
  rcases mark with rfl | rfl <;> cases numeral

/-- The digits with which a number is shown denote it. -/
theorem numeral_toDigits (n : Nat) : Numeral 10 (Nat.toDigits 10 n) n := by
  have reads (digits : List Char) (decimal : ∀ c ∈ digits, c.isDigit = true) (front : Nat) :
      Text.digitsFrom? 10 front digits = some (Nat.ofDigitChars 10 digits front) := by
    induction digits generalizing front with
    | nil => rfl
    | cons c rest ih =>
        have digit := decimal c (by simp)
        have small : c.toNat - 48 < 10 := by
          simp only [Char.isDigit, Bool.and_eq_true, decide_eq_true_eq,
            UInt32.le_iff_toNat_le] at digit
          exact Nat.sub_lt_left_of_lt_add digit.1 (Nat.lt_succ_of_le digit.2)
        have value : Text.digit? 10 c = some (c.toNat - 48) := by
          simp [Text.digit?, Text.hexDigit?, digit, small]
        have later := ih fun c among => decimal c (by simp [among])
        rw [Text.digitsFrom?, value, Option.bind_some, later, Nat.ofDigitChars_cons, Nat.mul_comm]
        rfl
  rw [← digits?_eq_some, Text.digits?, if_neg (by simp), reads _ fun c among =>
    Nat.isDigit_of_mem_toDigits (by decide) (by decide) among, Nat.ofDigitChars_ten_toDigits]

/-! ## Numbers -/

/-- Digits without a sign. -/
def Plain (base : Nat) (text : List Char) (k : Int) : Prop :=
  ∃ n, Numeral base text n ∧ k = n

/-- Digits with a sign of their own. -/
def Signed (base : Nat) (text : List Char) (k : Int) : Prop :=
  ∃ digits n, Numeral base digits n ∧ (text = '+' :: digits ∧ k = n ∨ text = '-' :: digits ∧ k = -n)

/-- Decimal digits, or hexadecimal ones after their mark; `Digits` says which are meant. -/
def Spelled (Digits : Nat → List Char → Int → Prop) (text : List Char) (k : Int) : Prop :=
  Digits 10 text k ∨
    ∃ rest, (text = '0' :: 'x' :: rest ∨ text = '0' :: 'X' :: rest) ∧ Digits 16 rest k

/-- The numbers that can be typed: digits after an optional minus sign. -/
def Denotes (text : List Char) (k : Int) : Prop :=
  Spelled Plain text k ∨ ∃ rest, text = '-' :: rest ∧ Spelled Plain rest (-k)

/-- A sign stands right before the digits, and it is not the one in front of the number. -/
def Strays (text : List Char) (k : Int) : Prop :=
  text.head? ≠ some '-' ∧ Spelled Signed text k ∨
    ∃ rest, text = '-' :: rest ∧ Spelled Signed rest (-k)

theorem readSigned?_minus (base : Nat) (digits : List Char) :
    readSigned? base ('-' :: digits) =
      (Text.digits? base digits).map fun n : Nat => -(n : Int) := by
  simp only [readSigned?]
  cases Text.digits? base digits <;> rfl

theorem readSigned?_eq_some {base : Nat} {text : List Char} {k : Int} :
    readSigned? base text = some k ↔ Plain base text k ∨ Signed base text k := by
  have digits (f : Nat → Int) (digits : List Char) : (Text.digits? base digits).map f = some k ↔
      ∃ n, Numeral base digits n ∧ k = f n := by
    rw [Option.map_eq_some_iff]
    exact exists_congr fun n => and_congr digits?_eq_some eq_comm
  have unsigned (c : Char) (sign : c = '+' ∨ c = '-') (rest : List Char) :
      ¬ Plain base (c :: rest) k := fun ⟨n, numeral, _⟩ => not_numeral_sign sign rest n numeral
  unfold readSigned?
  split
  · rename_i rest
    show readSigned? base ('-' :: rest) = some k ↔ _
    rw [readSigned?_minus, digits]
    simp [unsigned, Signed]
  · rw [digits]
    simp [unsigned, Signed]
  · rename_i noMinus noPlus
    rw [digits]
    refine (or_iff_left ?_).symm
    rintro ⟨rest, n, _, ⟨rfl, _⟩ | ⟨rfl, _⟩⟩
    · exact noPlus rest rfl
    · exact noMinus rest rfl

/-- The mark of hexadecimal digits decides how the rest is read. -/
theorem readUnnegated?_eq_some {text : List Char} {k : Int} :
    readUnnegated? text = some k ↔ Spelled Plain text k ∨ Spelled Signed text k := by
  have unsigned {base : Nat} {c : Char} {rest : List Char} : Signed base (c :: rest) k →
      c = '+' ∨ c = '-' := by
    rintro ⟨_, _, _, ⟨same, _⟩ | ⟨same, _⟩⟩ <;> cases same <;> simp
  have marked {c : Char} (mark : c = 'x' ∨ c = 'X') (rest : List Char) :
      readSigned? 16 rest = some k ↔
        Spelled Plain ('0' :: c :: rest) k ∨ Spelled Signed ('0' :: c :: rest) k := by
    have decimal : ¬ Plain 10 ('0' :: c :: rest) k := fun ⟨n, numeral, _⟩ =>
      not_numeral_mark mark rest n numeral
    have sign : ¬ Signed 10 ('0' :: c :: rest) k := fun signed => by
      rcases unsigned signed with same | same <;> cases same
    rw [readSigned?_eq_some]
    rcases mark with rfl | rfl <;> simp [Spelled, decimal, sign]
  unfold readUnnegated?
  split
  · exact marked (.inl rfl) _
  · exact marked (.inr rfl) _
  · rename_i small capital
    have unmarked (Digits : Nat → List Char → Int → Prop) :
        Spelled Digits text k ↔ Digits 10 text k := by
      refine or_iff_left ?_
      rintro ⟨rest, rfl | rfl, _⟩
      · exact small rest rfl
      · exact capital rest rfl
    rw [readSigned?_eq_some, unmarked, unmarked]

theorem inRange?_eq_some {k : Int} {n : Int64} : inRange? k = some n ↔ n.toInt = k := by
  have low := n.le_toInt
  have high := n.toInt_lt
  unfold inRange?
  constructor
  · intro within
    split at within
    · rename_i bounds
      cases within
      exact Int64.toInt_ofInt_of_le bounds.1 (Int.lt_add_one_of_le bounds.2)
    · cases within
  · rintro rfl
    rw [if_pos ⟨low, Int.le_of_lt_add_one high⟩, Int64.ofInt_toInt]

/-- A minus sign stands in front of what is the least number by itself, with a sign of its
own. -/
def NegatesLeast (text : List Char) : Prop :=
  ∃ rest, text = '-' :: rest ∧ Spelled Signed rest least

/-- The texts that are read as a number. -/
def Taken (text : List Char) (k : Int) : Prop :=
  (Denotes text k ∨ Strays text k) ∧ (k = least → text.head? ≠ some '-')

theorem not_spelled_sign {c : Char} (sign : c = '+' ∨ c = '-') (rest : List Char) (k : Int) :
    ¬ Spelled Plain (c :: rest) k := by
  rintro (⟨n, numeral, _⟩ | ⟨_, same | same, _⟩)
  · exact not_numeral_sign sign rest n numeral
  all_goals
    cases same
    simp at sign

/-- What is negated has 64 bits itself, and so has what comes of it. -/
theorem read?_eq_some {text : List Char} {n : Int64} :
    read? text = some n ↔ Taken text n.toInt := by
  unfold read?
  split
  · rename_i rest
    have negated : Denotes ('-' :: rest) n.toInt ∨ Strays ('-' :: rest) n.toInt ↔
        Spelled Plain rest (-n.toInt) ∨ Spelled Signed rest (-n.toInt) := by
      simp [Denotes, Strays, not_spelled_sign]
    simp only [Taken, negated, Option.bind_eq_some_iff, inRange?_eq_some, readUnnegated?_eq_some,
      List.head?_cons, ne_eq, not_true_eq_false, imp_false]
    constructor
    · rintro ⟨inner, ⟨k, spelled, rfl⟩, opposite⟩
      have high := inner.toInt_lt
      rw [opposite, Int.neg_neg]
      refine ⟨spelled, ?_⟩
      unfold least
      omega
    · rintro ⟨spelled, bounded⟩
      have low := n.le_toInt
      have high := n.toInt_lt
      unfold least at bounded
      have same : (Int64.ofInt (-n.toInt)).toInt = -n.toInt :=
        Int64.toInt_ofInt_of_le (by omega) (by omega)
      exact ⟨Int64.ofInt (-n.toInt), ⟨-n.toInt, spelled, same⟩, by omega⟩
  · rename_i front
    have noMinus : text.head? ≠ some '-' := by
      cases text with
      | nil => simp
      | cons c rest =>
          intro same
          obtain rfl := Option.some.inj same
          exact front rest rfl
    have unnegated : Denotes text n.toInt ∨ Strays text n.toInt ↔
        Spelled Plain text n.toInt ∨ Spelled Signed text n.toInt := by
      have (rest : List Char) : text ≠ '-' :: rest := front rest
      simp [Denotes, Strays, noMinus, this]
    simp only [Taken, unnegated, Option.bind_eq_some_iff, inRange?_eq_some, readUnnegated?_eq_some]
    simp [noMinus]

/-- The form in which a number is shown denotes it. -/
theorem shown_denotes (n : Int64) : Denotes (OptionValue.number n).shown.toList n.toInt := by
  show Denotes (toString n.toInt).toList n.toInt
  cases n.toInt with
  | ofNat k =>
      have digits : (toString (Int.ofNat k)).toList = Nat.toDigits 10 k := Nat.toList_repr
      rw [digits]
      exact .inl (.inl ⟨k, numeral_toDigits k, rfl⟩)
  | negSucc k =>
      have digits : (toString (Int.negSucc k)).toList = '-' :: Nat.toDigits 10 (k + 1) := by
        show ("-" ++ (k + 1).repr).toList = _
        rw [String.toList_append, Nat.toList_repr]
        rfl
      rw [digits]
      exact .inr ⟨_, rfl, .inl ⟨k + 1, numeral_toDigits (k + 1), rfl⟩⟩

end OptionNumber

/-! ## Assigning a number -/

namespace OptionStore

open OptionNumber

/-- A number option holds a number, whatever its scope, so what is read takes its place. -/
theorem setText_number {store : OptionStore} (kinded : store.Kinded) {name : String}
    {definition : OptionDef} (found : store.find? name = some definition)
    (kind : definition.kind = .number false) (scope : OptionScope) (text : String) :
    store.setText name scope .assign text =
      match read? text.toList with
      | some n => (store.write definition scope (.number n), .ok ())
      | none => (store, .error (.numberRequired (name ++ "=" ++ text))) := by
  obtain ⟨current, holds⟩ := (kinded.valueAt found scope).of_number kind
  unfold setText
  rw [resolve_eq_ok.mpr found]
  cases number : read? text.toList with
  | none => simp [provided, OptionDef.read, kind, number, SetOperation.symbol]
  | some n =>
      simp [provided, OptionDef.read, OptionDef.check, OptionDef.combine?, OptionValue.combine?,
        OptionNumber.combine, kind, number, holds]

/-- In every store that operations lead to, a number option takes exactly the texts that
denote a number, other than the least, and those with a stray sign, and then has that number
where it was assigned; of the shown values, all but the least can be assigned back.  Every
other text is refused.  (Texts that would negate the least number are left out.) -/
theorem numbers_assigned (operations : List Operation)
    (typed : ∀ operation ∈ operations, operation.Typed) {name : String} {definition : OptionDef}
    (found : (({} : OptionStore).after operations).find? name = some definition)
    (kind : definition.kind = .number false) (scope : OptionScope) :
    let store := ({} : OptionStore).after operations
    (∀ text : String, ¬ NegatesLeast text.toList →
      (∀ n : Int64, Taken text.toList n.toInt →
        ∃ after, store.setText name scope .assign text = (after, .ok ()) ∧
          after.get name scope = .ok (.number n) ∧
          ∀ place, place ≠ target definition scope → after.stored? place = store.stored? place) ∧
      ((∀ n : Int64, ¬ Taken text.toList n.toInt) →
        ∃ error, store.setText name scope .assign text = (store, .error error) ∧
          error.code = "E521" ∧ error = .numberRequired (name ++ "=" ++ text))) ∧
    ∀ n : Int64, (∃ after,
        store.setText name scope .assign (OptionValue.number n).shown = (after, .ok ()) ∧
          after.get name scope = .ok (.number n)) ↔ n.toInt ≠ least := by
  intro store
  have kinded : store.Kinded := after_kinded kinded_empty operations typed
  have assigned (text : String) (n : Int64) (taken : Taken text.toList n.toInt) :
      ∃ after, store.setText name scope .assign text = (after, .ok ()) ∧
        after.get name scope = .ok (.number n) ∧
        ∀ place, place ≠ target definition scope → after.stored? place = store.stored? place := by
    have touch : Touch store _ (store.write definition scope (.number n)) := .write found scope _
    refine ⟨_, ?_, ?_, fun place differs => touch.stored? differs⟩
    · rw [setText_number kinded found kind, read?_eq_some.mpr taken]
    · rw [get_of_find? (touch.same.find? ▸ found), valueAt_write]
  have refused (text : String) (untaken : ∀ n : Int64, ¬ Taken text.toList n.toInt) :
      store.setText name scope .assign text =
        (store, .error (.numberRequired (name ++ "=" ++ text))) := by
    have unread : read? text.toList = none :=
      Option.eq_none_iff_forall_ne_some.mpr fun n read => untaken n (read?_eq_some.mp read)
    rw [setText_number kinded found kind, unread]
  refine ⟨fun text _ => ⟨assigned text, fun untaken => ?_⟩, fun n => ⟨?_, fun more => ?_⟩⟩
  · exact ⟨_, refused text untaken, rfl, rfl⟩
  · rintro ⟨after, done, _⟩ isLeast
    obtain rfl : n = Int64.minValue := Int64.toInt_inj.mp isLeast
    have unread : read? (OptionValue.number Int64.minValue).shown.toList = none := rfl
    rw [setText_number kinded found kind, unread] at done
    cases done
  · have taken : Taken (OptionValue.number n).shown.toList n.toInt :=
      ⟨.inl (shown_denotes n), fun least => absurd least more⟩
    obtain ⟨after, done, read, _⟩ := assigned (OptionValue.number n).shown n taken
    exact ⟨after, done, read⟩

/-- The least number is reached by subtraction. -/
def lowered : List Operation :=
  [.define (.ofNumber "undolevels" "ul" 1000),
    .setText "ul" .everywhere .remove "9223372036854775807",
    .setText "ul" .everywhere .remove "1001"]

/-- A hexadecimal number is taken, and one too large refused; the greatest is shown as it can
be typed. -/
theorem lowered_assigned :
    let store := ({} : OptionStore).after lowered
    (∀ operation ∈ lowered, operation.Typed) ∧
      (∃ after, store.setText "undolevels" (.editor ⟨1⟩) .assign "-0X1f" = (after, .ok ()) ∧
        after.get "undolevels" (.editor ⟨1⟩) = .ok (.number (-31))) ∧
      (∃ error, store.setText "undolevels" (.editor ⟨1⟩) .assign "9223372036854775808" =
        (store, .error error) ∧ error.code = "E521") ∧
      ∃ after, store.setText "undolevels" (.editor ⟨1⟩) .assign
          (OptionValue.number Int64.maxValue).shown = (after, .ok ()) ∧
        after.get "undolevels" (.editor ⟨1⟩) = .ok (.number Int64.maxValue) := by
  intro store
  have typed : ∀ operation ∈ lowered, operation.Typed := by
    simp only [lowered, List.forall_mem_cons]
    exact ⟨trivial, trivial, trivial, by simp⟩
  have found : store.find? "undolevels" = some (.ofNumber "undolevels" "ul" 1000) := rfl
  obtain ⟨texts, shown⟩ := numbers_assigned lowered typed found rfl (.editor ⟨1⟩)
  have hexadecimal : ¬ NegatesLeast "-0X1f".toList := by
    rintro ⟨rest, same, spelled⟩
    obtain rfl : rest = "0X1f".toList := (congrArg List.tail same).symm
    have value : readUnnegated? "0X1f".toList = some 31 := rfl
    rw [readUnnegated?_eq_some.mpr (.inr spelled)] at value
    exact absurd (Option.some.inj value) (by decide)
  have decimal : ¬ NegatesLeast "9223372036854775808".toList := by
    rintro ⟨rest, same, _⟩
    cases same
  have unread : read? "9223372036854775808".toList = none := rfl
  refine ⟨typed, ?_, ?_, (shown Int64.maxValue).mpr (by decide)⟩
  · obtain ⟨after, done, read, _⟩ := (texts "-0X1f" hexadecimal).1 (-31) (read?_eq_some.mp rfl)
    exact ⟨after, done, read⟩
  · obtain ⟨error, refused, code, _⟩ := (texts "9223372036854775808" decimal).2 fun n taken =>
      absurd (unread.symm.trans (read?_eq_some.mpr taken)) (by simp)
    exact ⟨error, refused, code⟩

/-- Of the numbers as they can be typed, the least is refused, although the option has it and
shows it so; what has a plus sign is none of them and is taken. -/
theorem least_refused :
    let store := ({} : OptionStore).after lowered
    let shown := (OptionValue.number Int64.minValue).shown
    store.get "ul" .everywhere = .ok (.number Int64.minValue) ∧
      Denotes shown.toList Int64.minValue.toInt ∧
      store.setText "ul" .everywhere .assign shown =
        (store, .error (.numberRequired "ul=-9223372036854775808")) ∧
      (∀ k, ¬ Denotes "+5".toList k) ∧
      ∃ after, store.setText "ul" .everywhere .assign "+5" = (after, .ok ()) ∧
        after.get "ul" .everywhere = .ok (.number 5) := by
  refine ⟨rfl, shown_denotes _, rfl, ?_, _, rfl, rfl⟩
  rintro k (plain | ⟨rest, same, _⟩)
  · exact not_spelled_sign (.inl rfl) _ k plain
  · cases same

end OptionStore

end ModalInput
