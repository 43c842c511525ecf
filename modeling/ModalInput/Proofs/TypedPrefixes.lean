/-
# ModalInput.Proofs.TypedPrefixes -- typing counts and registers

Digits and names of registers are typed before the keys of a command, with no mapping in
the way.  Each key makes a step that is known: a digit goes behind the count that is typed
now (`commandKey_digit`), and the sign and the name of a register keep the count before
them and start another (`commandKey_name`).  So what is pending after any of them is
known, too, and nothing else of the resolver has changed (`inputKeys_prefix`).

* `Resolver.withPending` -- a resolver with another command that is typed.
* `Attentive.inputKeys_digits` -- the digits of a count, before a command or a motion.
* `Bare.inputKeys_register`, `inputKeys_prefix` -- names of registers with their digits.
-/
import ModalInput.Proofs.Escaping
import ModalInput.Proofs.Mapless
import ModalInput.Proofs.TypedCounts

namespace ModalInput

set_option autoImplicit false

open PendingCommand (OnlyCounts)

theorem Key.isEscape_char (c : Char) : (Key.char c).isEscape = false := by
  unfold isEscape
  split
  · rename_i code
    cases code
  · rfl
  · rfl

namespace Resolver

variable (options : OptionView) {r : Resolver}

/-- The same, but for the command that is typed. -/
def withPending (r : Resolver) (pending : PendingCommand) : Resolver := { r with pending }

section Pending

variable (r) (pending : PendingCommand)

@[simp] theorem pending_withPending : (r.withPending pending).pending = pending := rfl

@[simp] theorem modes_withPending : (r.withPending pending).modes = r.modes := rfl

@[simp] theorem events_withPending : (r.withPending pending).events = r.events := rfl

@[simp] theorem withPending_again (later : PendingCommand) :
    (r.withPending pending).withPending later = r.withPending later := rfl

end Pending

/-! ## Typed keys -/

variable {σ : Type} (evaluate : Evaluator σ)

theorem inputKeys_single (r : Resolver) (world : σ) (key : Key) :
    inputKeys options evaluate r world [key] = inputKey options evaluate r world key :=
  rfl

theorem inputKeys_cons {next : Resolver} {world world' : σ} {key : Key}
    (first : inputKey options evaluate r world key = (next, world')) (rest : List Key) :
    inputKeys options evaluate r world (key :: rest) =
      inputKeys options evaluate next world' rest := by
  rw [inputKeys, List.foldl_cons, first]
  rfl

theorem Attentive.withPending (attentive : Attentive r) {pending : PendingCommand}
    (answered : pending.awaiting = none) : Attentive (r.withPending pending) :=
  ⟨⟨attentive.mapsNothing, attentive.trail, attentive.trailMatch⟩, attentive.waiting,
    awaitsOffsets_of_idle answered⟩

namespace Bare

variable {next : Resolver} {world world' : σ}

theorem attentive (bare : Bare r) : Attentive r where
  mapsNothing := bare.mappings ▸ MappingStore.mapsNothing_new
  trail := bare.direct.trail
  trailMatch := bare.direct.trailMatch
  waiting := bare.direct.typeahead
  noOffsets := bare.direct.noOffsets.awaits

/-- A key that puts no others back. -/
theorem inputKey_of_commandKey (bare : Bare r) {key : Key}
    (done : r.commandKey options key = next) (waiting : next.typeahead = r.typeahead) (world : σ) :
    Resolver.inputKey options evaluate r world key = (next, world) := by
  subst done
  exact bare.inputKey_eq options evaluate (waiting.trans bare.direct.typeahead) world

theorem of_inputKey (bare : Bare r) {key : Key}
    (input : Resolver.inputKey options evaluate r world key = (next, world')) : Bare next := by
  have after := bare.inputKey options evaluate key world
  rw [input] at after
  exact after

theorem of_inputKeys (bare : Bare r) {keys : List Key}
    (input : inputKeys options evaluate r world keys = (next, world')) : Bare next := by
  induction keys generalizing r world with
  | nil =>
      obtain ⟨rfl, rfl⟩ := Prod.ext_iff.mp input
      exact bare
  | cons key rest ih => exact ih (bare.inputKey options evaluate key world) input

end Bare

/-- Nothing was typed yet, whatever is shown. -/
theorem pending_of_idle (tidy : Tidy r.pending) (idle : r.isPending = false) :
    r.pending = { shown := r.pending.shown } := by
  have empty : r.pending.isEmpty = true := by
    simp only [isPending, Bool.or_eq_false_iff, Bool.not_eq_false'] at idle
    exact idle.2
  simp only [PendingCommand.isEmpty, Bool.and_eq_true, List.isEmpty_iff,
    Option.isNone_iff_eq_none] at empty
  obtain ⟨⟨⟨⟨⟨⟨count, registerCount⟩, register⟩, keys⟩, operator⟩, motionCount⟩, awaiting⟩ := empty
  have held := tidy.not_held keys
  generalize r.pending = pending at *
  obtain ⟨_, _, _, _, _, _, _, _, _⟩ := pending
  simp_all only

/-! ## Digits -/

/-- A digit that is typed now belongs to a count. -/
structure Counting (r : Resolver) : Prop where
  takes : takesCounts r.modes.mode = true
  answered : r.pending.awaiting = none
  fresh : r.pending.keys = []

/-- It still does behind a digit. -/
theorem Counting.counted (counting : Counting r) (keys : List Key) (count : Count) :
    Counting (r.withPending ((r.pending.noted keys).withCurrentCount count)) :=
  ⟨counting.takes, by simpa using counting.answered, by simpa using counting.fresh⟩

theorem Counting.of_onlyCounts (only : OnlyCounts r.pending) (normal : r.modes = {}) :
    Counting r :=
  ⟨by rw [normal]; rfl, only.awaiting, only.keys⟩

section Keys

variable {key : Key} (counting : Counting r)
  (kept : (key.isEscape && !r.pending.isEmpty) = false)
include counting kept

/-- A key that belongs to the count. -/
theorem commandKey_counted {count : Count}
    (counted : countWith? (r.pending.noted [key]) key = some count) :
    r.commandKey options key =
      r.withPending ((r.pending.noted [key]).withCurrentCount count) := by
  rw [PendingCommand.noted] at counted
  unfold commandKey
  rw [counting.answered]
  dsimp only
  rw [kept, if_neg Bool.false_ne_true, if_pos (by simp [counting.takes, counting.fresh]), counted]
  rfl

/-- A key that does not. -/
theorem commandKey_uncounted (uncounted : countWith? (r.pending.noted [key]) key = none) :
    r.commandKey options key =
      if r.modes.mode ≠ .operatorPending && key.char? = some '"' then
        (r.noted key).await .register
      else tableKey options (r.noted key) key := by
  rw [PendingCommand.noted] at uncounted
  unfold commandKey
  rw [counting.answered]
  dsimp only
  rw [kept, if_neg Bool.false_ne_true, if_pos (by simp [counting.takes, counting.fresh]), uncounted]
  rfl

end Keys

/-- A key where no counts and no registers are typed. -/
theorem commandKey_table {key : Key} (idle : r.pending.awaiting = none)
    (kept : (key.isEscape && !r.pending.isEmpty) = false)
    (later : (takesCounts r.modes.mode && r.pending.keys.isEmpty) = false) :
    r.commandKey options key = tableKey options (r.noted key) key := by
  unfold commandKey
  rw [idle]
  dsimp only
  rw [kept, if_neg Bool.false_ne_true]
  exact if_neg (by rw [Bool.not_eq_true]; exact later)

/-- A digit where counts are typed; a zero is one only behind another. -/
theorem commandKey_digit (counting : Counting r) {c : Char} (digit : c.isDigit = true)
    (counts : c ≠ '0' ∨ r.pending.currentCount.isSome = true) :
    r.commandKey options (.char c) =
      r.withPending ((r.pending.noted [.char c]).withCurrentCount
        ((r.pending.currentCount.getD 0).pushDigit (c.toNat - '0'.toNat))) := by
  have value : (Key.char c).digit? = some (c.toNat - '0'.toNat) := by simp [Key.digit?, digit]
  have counts : (decide (c.toNat - '0'.toNat ≠ 0) || r.pending.currentCount.isSome) = true := by
    rcases counts with nonzero | some
    · have positive := CountDigits.digit_pos digit nonzero
      rw [decide_eq_true (Nat.ne_of_gt positive), Bool.true_or]
    · rw [some, Bool.or_true]
  have counted : countWith? (r.pending.noted [.char c]) (.char c) =
      some ((r.pending.currentCount.getD 0).pushDigit (c.toNat - '0'.toNat)) := by
    unfold countWith?
    rw [value]
    exact if_pos counts
  exact commandKey_counted options counting (by rw [Key.isEscape_char, Bool.false_and]) counted

namespace Attentive

theorem counted (attentive : Attentive r) (counting : Counting r) (keys : List Key)
    (count : Count) :
    Attentive (r.withPending ((r.pending.noted keys).withCurrentCount count)) :=
  attentive.withPending (counting.counted keys count).answered

theorem inputKey_digit (attentive : Attentive r) (counting : Counting r) {c : Char}
    (digit : c.isDigit = true) (counts : c ≠ '0' ∨ r.pending.currentCount.isSome = true)
    (world : σ) :
    Resolver.inputKey options evaluate r world (.char c) =
      (r.withPending ((r.pending.noted [.char c]).withCurrentCount
        ((r.pending.currentCount.getD 0).pushDigit (c.toNat - '0'.toNat))), world) :=
  attentive.inputKey_of_commandKey options evaluate world
    (commandKey_digit options counting digit counts) attentive.waiting

/-- Digits behind others. -/
theorem inputKeys_moreDigits (attentive : Attentive r) (counting : Counting r) {digits : List Char}
    (areDigits : digits.all Char.isDigit = true) {count : Count}
    (current : r.pending.currentCount = some count) (world : σ) :
    inputKeys options evaluate r world (typedKeys digits) =
      (r.withPending ((r.pending.noted (typedKeys digits)).withCurrentCount
        (digits.foldl (fun count c => count.pushDigit (c.toNat - '0'.toNat)) count)), world) := by
  induction digits generalizing r count with
  | nil =>
      have same := PendingCommand.withCurrentCount_current r.pending count current
      simp only [typedKeys, List.map_nil, PendingCommand.noted_nil, List.foldl_nil, same]
      rfl
  | cons c rest ih =>
      rw [List.all_cons, Bool.and_eq_true] at areDigits
      have first := attentive.inputKey_digit options evaluate counting areDigits.1
        (.inr (by simp [current])) world
      rw [current, Option.getD_some] at first
      have later := attentive.counted counting [.char c]
      rw [show typedKeys (c :: rest) = .char c :: typedKeys rest from rfl,
        inputKeys_cons options evaluate first, ih (later _) (counting.counted _ _) areDigits.2
          (PendingCommand.currentCount_withCurrentCount _ _)]
      simp

/-- The digits of a count. -/
theorem inputKeys_digits (attentive : Attentive r) (counting : Counting r)
    (uncounted : r.pending.currentCount = none) (typed : CountDigits) (world : σ) :
    inputKeys options evaluate r world typed.keys =
      (r.withPending (typed.pending r.pending), world) := by
  obtain ⟨digits, areDigits, start⟩ := typed
  cases digits with
  | nil => rfl
  | cons c rest =>
      rw [List.all_cons, Bool.and_eq_true] at areDigits
      have nonzero : c ≠ '0' := by simpa using start
      have first := attentive.inputKey_digit options evaluate counting areDigits.1 (.inl nonzero) world
      rw [uncounted, Option.getD_none] at first
      have later := attentive.counted counting [.char c]
      have number : rest.foldl (fun count c => count.pushDigit (c.toNat - '0'.toNat))
          ((0 : Count).pushDigit (c.toNat - '0'.toNat)) = .ofNat (Text.decimal (c :: rest)) := by
        rw [show (0 : Count) = .ofNat 0 from rfl, Count.pushDigit_ofNat, Count.foldl_pushDigit]
        rfl
      rw [CountDigits.keys, show typedKeys (c :: rest) = .char c :: typedKeys rest from rfl,
        inputKeys_cons options evaluate first, (later _).inputKeys_moreDigits options evaluate
          (counting.counted _ _) areDigits.2 (PendingCommand.currentCount_withCurrentCount _ _),
        number]
      simp only [withPending_again, pending_withPending, PendingCommand.noted_withCurrentCount,
        PendingCommand.noted_noted, PendingCommand.withCurrentCount_again, List.singleton_append]
      rfl

end Attentive

namespace Bare

/-- The digits of a count. -/
theorem inputKeys_digits (bare : Bare r) (counting : Counting r)
    (uncounted : r.pending.currentCount = none) (typed : CountDigits) (world : σ) :
    inputKeys options evaluate r world typed.keys =
      (r.withPending (typed.pending r.pending), world) :=
  bare.attentive.inputKeys_digits options evaluate counting uncounted typed world

end Bare

/-! ## Registers -/

/-- The sign before the name of a register. -/
theorem commandKey_sign (normal : r.modes = {}) (only : OnlyCounts r.pending) :
    r.commandKey options (.char '"') =
      (r.withPending (r.pending.noted [.char '"'])).await .register := by
  have mode : r.modes.mode = .normal := by rw [normal]; rfl
  rw [commandKey_uncounted options (.of_onlyCounts only normal)
    (by rw [Key.isEscape_char, Bool.false_and]) rfl, if_pos (by simp [mode])]
  rfl

/-- The name of the register that is awaited. -/
theorem commandKey_name (only : OnlyCounts r.pending) (typed : RegisterPrefix) :
    ((r.withPending (r.pending.noted [.char '"'])).await .register).commandKey options
        (.char typed.name) =
      r.withPending {
        registerCount := countBefore r.pending
        register := some typed.register
        shown := r.pending.shown ++ [.char '"', .char typed.name] } := by
  obtain ⟨keys, held, operator, motionCount, _⟩ := only
  have named : (Key.char typed.name).char?.bind Register.ofChar? = some typed.register := by
    rw [Key.char?_char, Option.bind_some, typed.named]
  unfold commandKey
  dsimp only [await, withPending, PendingCommand.noted, argumentKey, registerKey]
  rw [Key.isEscape_char, if_neg Bool.false_ne_true, named, keys, held, operator, motionCount,
    List.append_assoc]
  rfl

namespace Bare

theorem inputKeys_name (bare : Bare r) (normal : r.modes = {}) (only : OnlyCounts r.pending)
    (typed : RegisterPrefix) (world : σ) :
    inputKeys options evaluate r world [.char '"', .char typed.name] =
      (r.withPending {
        registerCount := countBefore r.pending
        register := some typed.register
        shown := r.pending.shown ++ [.char '"', .char typed.name] }, world) := by
  have asks := bare.inputKey_of_commandKey options evaluate (commandKey_sign options normal only)
    rfl world
  have asking := bare.of_inputKey options evaluate asks
  have answers := asking.inputKey_of_commandKey options evaluate
    (commandKey_name options only typed) rfl world
  rw [inputKeys_cons options evaluate asks, inputKeys_cons options evaluate answers]
  rfl

/-- The name of a register and the digits after it. -/
theorem inputKeys_register (bare : Bare r) (normal : r.modes = {}) (only : OnlyCounts r.pending)
    (typed : RegisterPrefix) (world : σ) :
    inputKeys options evaluate r world typed.keys =
      (r.withPending (typed.pending r.pending), world) := by
  have named := bare.inputKeys_name options evaluate normal only typed world
  have later := bare.of_inputKeys options evaluate named
  have takes : takesCounts r.modes.mode = true := by rw [normal]; rfl
  have whole : typed.keys = [.char '"', .char typed.name] ++ typed.digits.keys := rfl
  rw [whole, inputKeys_append, named,
    later.inputKeys_digits options evaluate ⟨takes, rfl, rfl⟩ rfl typed.digits,
    typed.digits.pending_plain rfl rfl]
  simp [RegisterPrefix.pending, whole]

theorem inputKeys_registers (bare : Bare r) (normal : r.modes = {}) (only : OnlyCounts r.pending)
    (registers : List RegisterPrefix) (world : σ) :
    inputKeys options evaluate r world (registers.flatMap RegisterPrefix.keys) =
      (r.withPending (registers.foldl (fun before register => register.pending before) r.pending),
        world) := by
  induction registers generalizing r with
  | nil => rfl
  | cons register rest ih =>
      have first := bare.inputKeys_register options evaluate normal only register world
      have later := bare.of_inputKeys options evaluate first
      rw [List.flatMap_cons, inputKeys_append, first,
        ih later normal ⟨rfl, rfl, rfl, rfl, rfl⟩]
      rfl

theorem pending_eq (bare : Bare r) (idle : r.isPending = false) :
    r.pending = { shown := r.pending.shown } :=
  pending_of_idle bare.direct.tidy idle

/-- What is typed before the keys of a command, when nothing was typed before it. -/
theorem inputKeys_prefix (bare : Bare r) (normal : r.modes = {})
    (nothing : r.pending = { shown := r.pending.shown }) (typed : CommandPrefix) (world : σ) :
    inputKeys options evaluate r world typed.keys =
      (r.withPending (typed.pending r.pending.shown), world) := by
  have only : OnlyCounts r.pending := by
    rw [nothing]
    exact ⟨rfl, rfl, rfl, rfl, rfl⟩
  have counting := Counting.of_onlyCounts only normal
  have first := bare.inputKeys_digits options evaluate counting (by rw [nothing]; rfl) typed.digits
    world
  rw [typed.digits.pending_plain (by rw [nothing]) (by rw [nothing])] at first
  have later := bare.of_inputKeys options evaluate first
  rw [CommandPrefix.keys, inputKeys_append, first,
    later.inputKeys_registers options evaluate normal
      (by rw [nothing]; exact ⟨rfl, rfl, rfl, rfl, rfl⟩) typed.registers]
  rw [nothing]
  rfl

end Bare

end Resolver

end ModalInput
