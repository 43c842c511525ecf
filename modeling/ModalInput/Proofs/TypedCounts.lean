/-
# ModalInput.Proofs.TypedCounts -- the count that digits in several places come to

A count can be typed before a register is named, after each name, and again for the motion
of an operator.  Each digit and each product stops at the largest count, and what was typed
in one place is put together with what comes in the next.  Since no digits start with a
zero, their number is at least 1, and so it makes no difference where the limit is applied:
the count is that of the exact product (`Count.ofNumbers`), however the numbers are grouped
(`compose_ofNumbers`).

* `Count.foldl_pushDigit` -- digits one by one.
* `CountDigits` -- digits of a count; `CommandPrefix` -- what can be typed before the keys
  of a command.
* `CommandPrefix.typedCount_pending` -- the count that is typed in a prefix.
-/
import ModalInput.Proofs.CommandStep
import ModalInput.Proofs.Tokenizer

namespace ModalInput

set_option autoImplicit false

/-! ## Numbers up to the limit -/

namespace Count

/-- A digit behind a number: what is over the limit stays there. -/
theorem pushDigit_ofNat (n digit : Nat) : (ofNat n).pushDigit digit = ofNat (n * 10 + digit) := by
  apply ext
  simp only [pushDigit, toNat_ofNat]
  omega

theorem foldl_pushDigit_ofNat (digits : List Nat) (n : Nat) :
    digits.foldl pushDigit (ofNat n) = ofNat (digits.foldl (fun n digit => n * 10 + digit) n) := by
  induction digits generalizing n with
  | nil => rfl
  | cons digit rest ih => rw [List.foldl_cons, pushDigit_ofNat, ih, List.foldl_cons]

/-- The same for typed digits. -/
theorem foldl_pushDigit (digits : List Char) (n : Nat) :
    digits.foldl (fun count c => count.pushDigit (c.toNat - '0'.toNat)) (ofNat n) =
      ofNat (digits.foldl (fun n c => n * 10 + (c.toNat - '0'.toNat)) n) := by
  have general := foldl_pushDigit_ofNat (digits.map fun c => c.toNat - '0'.toNat) n
  simpa only [List.foldl_map] using general

theorem compose_comm (outer inner : Count) : compose outer inner = compose inner outer := by
  simp only [compose, and_comm, Nat.mul_comm]

/-- A count that is missing changes nothing. -/
@[simp] theorem compose_zero (c : Count) : compose c 0 = c := by
  apply ext
  have bound := c.toNat_le
  by_cases zero : c.toNat = 0
  · simp [compose, zero]
  · have one : max (0 : Count).toNat 1 = 1 := rfl
    simp only [compose, zero, false_and, if_false, toNat_ofNat, one]
    omega

@[simp] theorem zero_compose (c : Count) : compose 0 c = c := by
  rw [compose_comm, compose_zero]

/-- Numbers that were cut to the limit have the product that is cut to the limit. -/
theorem min_mul_min {m n : Nat} (some : 0 < m) (some' : 0 < n) (limit : Nat) :
    min (min m limit * min n limit) limit = min (m * n) limit := by
  have more : m ≤ m * n := Nat.le_mul_of_pos_right m some'
  have more' : n ≤ m * n := Nat.le_mul_of_pos_left n some
  rcases Nat.lt_or_ge limit m with large | small
  · -- already the first number is over the limit
    have first : min m limit = limit := Nat.min_eq_right (by omega)
    rcases Nat.eq_zero_or_pos limit with zero | positive
    · simp [zero]
    · have rest : limit ≤ limit * min n limit := Nat.le_mul_of_pos_right limit (by omega)
      rw [first]
      omega
  · rw [Nat.min_eq_left small]
    rcases Nat.lt_or_ge limit n with large | small'
    · have rest : limit ≤ m * limit := Nat.le_mul_of_pos_left limit some
      rw [Nat.min_eq_right (Nat.le_of_lt large)]
      omega
    · rw [Nat.min_eq_left small']

theorem compose_ofNat {m n : Nat} (some : 0 < m) (some' : 0 < n) :
    compose (ofNat m) (ofNat n) = ofNat (m * n) := by
  have positive (k : Nat) (some : 0 < k) : 0 < min k limit := by simp only [limit]; omega
  apply ext
  rw [compose, if_neg (by simp only [toNat_ofNat]; have := positive m some; omega)]
  simp only [toNat_ofNat, Nat.max_eq_left (positive m some), Nat.max_eq_left (positive n some')]
  exact min_mul_min some some' limit

/-- The count of the numbers that were typed: their product, or the largest count; 0 if
none was typed. -/
def ofNumbers (numbers : List Nat) : Count :=
  if numbers = [] then 0 else ofNat (numbers.foldr (· * ·) 1)

@[simp] theorem ofNumbers_nil : ofNumbers [] = 0 := rfl

theorem foldr_mul_pos {numbers : List Nat} (positive : ∀ n ∈ numbers, 0 < n) :
    0 < numbers.foldr (· * ·) 1 := by
  induction numbers with
  | nil => exact Nat.one_pos
  | cons n rest ih =>
      exact Nat.mul_pos (positive n List.mem_cons_self)
        (ih fun m member => positive m (List.mem_cons_of_mem _ member))

theorem foldr_mul_append (numbers more : List Nat) :
    (numbers ++ more).foldr (· * ·) 1 = numbers.foldr (· * ·) 1 * more.foldr (· * ·) 1 := by
  induction numbers with
  | nil => simp
  | cons n rest ih => simp only [List.cons_append, List.foldr_cons, ih, Nat.mul_assoc]

/-- The counts of two places have the count of all the numbers. -/
theorem compose_ofNumbers {numbers more : List Nat} (positive : ∀ n ∈ numbers, 0 < n)
    (positive' : ∀ n ∈ more, 0 < n) :
    compose (ofNumbers numbers) (ofNumbers more) = ofNumbers (numbers ++ more) := by
  by_cases none : numbers = []
  · simp [none]
  · by_cases none' : more = []
    · simp [none']
    · rw [ofNumbers, if_neg none, ofNumbers, if_neg none', ofNumbers, if_neg (by simp [none]),
        compose_ofNat (foldr_mul_pos positive) (foldr_mul_pos positive'), foldr_mul_append]

end Count

/-! ## Digits -/

/-- The digits of a count, if any: a zero at the start is not one of them. -/
structure CountDigits where
  digits : List Char
  areDigits : digits.all Char.isDigit = true
  start : digits.head? ≠ some '0'

namespace CountDigits

variable (typed : CountDigits)

def keys : List Key := typedKeys typed.digits

/-- The number, unless there are no digits. -/
def numbers : List Nat := if typed.digits = [] then [] else [Text.decimal typed.digits]

/-- The count that is pending after the digits. -/
def count? : Option Count := typed.numbers.head?.map Count.ofNat

theorem digit_pos {c : Char} (digit : c.isDigit = true) (nonzero : c ≠ '0') :
    0 < c.toNat - '0'.toNat := by
  have low : '0'.toNat ≤ c.toNat := by
    simp only [Char.isDigit, Bool.and_eq_true, decide_eq_true_iff] at digit
    exact digit.1
  have differs : c.toNat ≠ '0'.toNat := fun same => nonzero (Char.toNat_inj.mp same)
  omega

theorem le_decimal (digits : List Char) (n : Nat) :
    n ≤ digits.foldl (fun n c => n * 10 + (c.toNat - '0'.toNat)) n := by
  induction digits generalizing n with
  | nil => exact Nat.le_refl n
  | cons c rest ih =>
      have longer : n ≤ n * 10 + (c.toNat - '0'.toNat) := by omega
      exact Nat.le_trans longer (ih _)

theorem numbers_pos : ∀ n ∈ typed.numbers, 0 < n := by
  obtain ⟨digits, areDigits, start⟩ := typed
  cases digits with
  | nil => simp [numbers]
  | cons first rest =>
      have digit : first.isDigit = true := by
        rw [List.all_cons, Bool.and_eq_true] at areDigits
        exact areDigits.1
      have positive := digit_pos digit (by simpa using start)
      have least := le_decimal rest (0 * 10 + (first.toNat - '0'.toNat))
      intro n member
      obtain rfl : n = Text.decimal (first :: rest) := by simpa [numbers] using member
      unfold Text.decimal
      rw [List.foldl_cons]
      omega

theorem count?_getD : typed.count?.getD 0 = Count.ofNumbers typed.numbers := by
  unfold count? numbers
  split
  · rfl
  · simp [Count.ofNumbers]

end CountDigits

/-! ## Counts that are pending -/

namespace PendingCommand

section Parts

variable (pending : PendingCommand) (count : Count)

/-- With more keys that are shown. -/
def noted (keys : List Key) : PendingCommand := { pending with shown := pending.shown ++ keys }

@[simp] theorem noted_nil : pending.noted [] = pending := by simp [noted]

@[simp] theorem noted_noted (keys more : List Key) :
    (pending.noted keys).noted more = pending.noted (keys ++ more) := by
  simp [noted]

@[simp] theorem awaiting_noted (keys : List Key) :
    (pending.noted keys).awaiting = pending.awaiting := rfl

@[simp] theorem keys_noted (keys : List Key) : (pending.noted keys).keys = pending.keys := rfl

@[simp] theorem currentCount_withCurrentCount :
    (pending.withCurrentCount count).currentCount = some count := by
  unfold withCurrentCount currentCount
  cases pending.operator <;> simp

@[simp] theorem awaiting_withCurrentCount :
    (pending.withCurrentCount count).awaiting = pending.awaiting := by
  unfold withCurrentCount
  split <;> rfl

@[simp] theorem keys_withCurrentCount :
    (pending.withCurrentCount count).keys = pending.keys := by
  unfold withCurrentCount
  split <;> rfl

@[simp] theorem noted_withCurrentCount (keys : List Key) :
    (pending.withCurrentCount count).noted keys = (pending.noted keys).withCurrentCount count := by
  unfold withCurrentCount noted
  split <;> rfl

/-- A later count takes the place of an earlier one. -/
@[simp] theorem withCurrentCount_again (later : Count) :
    (pending.withCurrentCount count).withCurrentCount later = pending.withCurrentCount later := by
  unfold withCurrentCount
  cases pending.operator <;> rfl

theorem withCurrentCount_current (current : pending.currentCount = some count) :
    pending.withCurrentCount count = pending := by
  obtain ⟨count', registerCount, register, keys, held, operator, motionCount, awaiting, shown⟩ :=
    pending
  cases operator with
  | none => exact congrArg (PendingCommand.mk · _ _ _ _ _ _ _ _) current.symm
  | some waiting => exact congrArg (PendingCommand.mk _ _ _ _ _ _ · _ _) current.symm

end Parts

/-- Only counts and a register were typed. -/
structure OnlyCounts (pending : PendingCommand) : Prop where
  keys : pending.keys = []
  held : pending.held = none
  operator : pending.operator = none
  motionCount : pending.motionCount = none
  awaiting : pending.awaiting = none

end PendingCommand

/-- What is pending after the digits, if there are any. -/
def CountDigits.pending (typed : CountDigits) (before : PendingCommand) : PendingCommand :=
  match typed.count? with
  | some count => (before.noted typed.keys).withCurrentCount count
  | none => before

namespace CountDigits

variable (typed : CountDigits) {before : PendingCommand}

theorem count?_nil (none : typed.digits = []) : typed.count? = Option.none := by
  simp [count?, numbers, none]

theorem exists_count? (some : typed.digits ≠ []) :
    ∃ count, typed.count? = Option.some count := by
  simp [count?, numbers, some]

/-- Digits before the keys of a command. -/
theorem pending_plain (alone : before.operator = none) (uncounted : before.count = none) :
    typed.pending before =
      { before with count := typed.count?, shown := before.shown ++ typed.keys } := by
  by_cases none : typed.digits = []
  · have keys : typed.keys = [] := by simp [keys, none, typedKeys]
    obtain ⟨_, _, _, _, _, _, _, _, _⟩ := before
    obtain rfl := uncounted
    simp [pending, typed.count?_nil none, keys]
  · obtain ⟨count, counted⟩ := typed.exists_count? none
    simp [pending, counted, PendingCommand.withCurrentCount, PendingCommand.noted, alone]

/-- Digits before a motion. -/
theorem pending_motion {operator : PendingOperator} (waiting : before.operator = some operator)
    (uncounted : before.motionCount = none) :
    typed.pending before =
      { before with motionCount := typed.count?, shown := before.shown ++ typed.keys } := by
  by_cases none : typed.digits = []
  · have keys : typed.keys = [] := by simp [keys, none, typedKeys]
    obtain ⟨_, _, _, _, _, _, _, _, _⟩ := before
    obtain rfl := uncounted
    simp [pending, typed.count?_nil none, keys]
  · obtain ⟨count, counted⟩ := typed.exists_count? none
    simp [pending, counted, PendingCommand.withCurrentCount, PendingCommand.noted, waiting]

end CountDigits

/-! ## Before the keys of a command -/

/-- The name of a register, and the digits after it. -/
structure RegisterPrefix where
  name : Char
  register : Register × Bool
  named : Register.ofChar? name = some register
  digits : CountDigits

/-- What is typed before the keys of a command: digits, and names of registers with more
digits after each. -/
structure CommandPrefix where
  digits : CountDigits
  registers : List RegisterPrefix

namespace RegisterPrefix

def keys (typed : RegisterPrefix) : List Key := .char '"' :: .char typed.name :: typed.digits.keys

/-- What is pending after a register was named. -/
def pending (typed : RegisterPrefix) (before : PendingCommand) : PendingCommand where
  count := typed.digits.count?
  registerCount := Resolver.countBefore before
  register := some typed.register
  shown := before.shown ++ typed.keys

end RegisterPrefix

namespace CommandPrefix

variable (typed : CommandPrefix)

def keys : List Key := typed.digits.keys ++ typed.registers.flatMap RegisterPrefix.keys

/-- The numbers that were typed. -/
def numbers : List Nat :=
  typed.digits.numbers ++ typed.registers.flatMap fun register => register.digits.numbers

def count : Count := .ofNumbers typed.numbers

/-- The register that was named last. -/
def register : Option Register :=
  typed.registers.getLast?.map fun register => PendingCommand.commandRegister register.register

/-- What is pending after the prefix, when some keys were shown already. -/
def pending (shown : List Key) : PendingCommand :=
  typed.registers.foldl (fun before register => register.pending before)
    { count := typed.digits.count?, shown := shown ++ typed.digits.keys }

end CommandPrefix

namespace Resolver

/-- The count of a command is kept when a register is named. -/
theorem countBefore_getD (pending : PendingCommand) :
    (countBefore pending).getD 0 = typedCount pending := by
  unfold countBefore typedCount
  cases pending.count with
  | none => simp
  | some count => rfl

end Resolver

namespace CommandPrefix

theorem numbers_pos (typed : CommandPrefix) : ∀ n ∈ typed.numbers, 0 < n := by
  intro n member
  rcases List.mem_append.mp member with first | later
  · exact typed.digits.numbers_pos n first
  · obtain ⟨register, _, member⟩ := List.mem_flatMap.mp later
    exact register.digits.numbers_pos n member

/-- Names of registers with their digits, after some numbers. -/
theorem typedCount_registers (registers : List RegisterPrefix) {before : PendingCommand}
    {numbers : List Nat} (positive : ∀ n ∈ numbers, 0 < n)
    (counted : Resolver.typedCount before = .ofNumbers numbers) :
    Resolver.typedCount (registers.foldl (fun before register => register.pending before) before) =
      .ofNumbers (numbers ++ registers.flatMap fun register => register.digits.numbers) := by
  induction registers generalizing before numbers with
  | nil => simpa using counted
  | cons register rest ih =>
      have next : Resolver.typedCount (register.pending before) =
          .ofNumbers (numbers ++ register.digits.numbers) := by
        rw [← Count.compose_ofNumbers positive register.digits.numbers_pos, ← counted,
          ← Resolver.countBefore_getD before, ← register.digits.count?_getD]
        rfl
      have both : ∀ n ∈ numbers ++ register.digits.numbers, 0 < n := by
        intro n member
        rcases List.mem_append.mp member with first | later
        · exact positive n first
        · exact register.digits.numbers_pos n later
      rw [List.foldl_cons, ih both next, List.flatMap_cons, List.append_assoc]

/-- The count of a prefix is that of all its numbers. -/
theorem typedCount_pending (typed : CommandPrefix) (shown : List Key) :
    Resolver.typedCount (typed.pending shown) = typed.count := by
  refine typedCount_registers typed.registers typed.digits.numbers_pos ?_
  simp [Resolver.typedCount, typed.digits.count?_getD]

/-- The register of a prefix is the last one that was named. -/
theorem register_pending (typed : CommandPrefix) (shown : List Key) :
    (typed.pending shown).register.map PendingCommand.commandRegister = typed.register := by
  unfold pending register
  cases reversed : typed.registers.reverse with
  | nil =>
      rw [List.reverse_eq_nil_iff] at reversed
      simp [reversed]
  | cons last rest =>
      rw [List.reverse_eq_cons_iff] at reversed
      simp [reversed, RegisterPrefix.pending]

/-- Something is pending after a prefix if it has any keys. -/
theorem isEmpty_pending (typed : CommandPrefix) (shown : List Key) :
    (typed.pending shown).isEmpty = typed.keys.isEmpty := by
  unfold pending keys
  cases reversed : typed.registers.reverse with
  | nil =>
      rw [List.reverse_eq_nil_iff] at reversed
      by_cases none : typed.digits.digits = []
      · simp [reversed, PendingCommand.isEmpty, typed.digits.count?_nil none, CountDigits.keys,
          none, typedKeys]
      · obtain ⟨count, counted⟩ := typed.digits.exists_count? none
        simp [reversed, PendingCommand.isEmpty, counted, CountDigits.keys, none, typedKeys]
  | cons last rest =>
      rw [List.reverse_eq_cons_iff] at reversed
      simp [reversed, RegisterPrefix.pending, RegisterPrefix.keys, PendingCommand.isEmpty]

end CommandPrefix

namespace PendingCommand.OnlyCounts

theorem registers {before : PendingCommand} (only : OnlyCounts before)
    (registers : List RegisterPrefix) :
    OnlyCounts (registers.foldl (fun before register => register.pending before) before) := by
  induction registers generalizing before with
  | nil => exact only
  | cons register rest ih => exact ih ⟨rfl, rfl, rfl, rfl, rfl⟩

end PendingCommand.OnlyCounts

theorem CommandPrefix.onlyCounts (typed : CommandPrefix) (shown : List Key) :
    PendingCommand.OnlyCounts (typed.pending shown) :=
  PendingCommand.OnlyCounts.registers ⟨rfl, rfl, rfl, rfl, rfl⟩ typed.registers

end ModalInput
