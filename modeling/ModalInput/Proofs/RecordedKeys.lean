/-
# ModalInput.Proofs.RecordedKeys -- recorded keys are run again as the keys that the notation has

A recording puts the written form of the typed keys into a register, and running the
register reads that text.  A terminal can tell more keys apart than the notation:
Control with a letter is one key whatever its case, Control with `i` is Tab, Shift with
Tab is a key of its own.  What runs again is each key under the name that the notation
has for it (`canonical`), and that is the typed key itself unless it is one of these
(`canonical_eq_iff`).

* `isWritable` -- the keys whose written form says their code and all their modifiers.
  Not among them are Control with a character whose upper case is another one outside of
  ASCII, and a few keys that lose Control or Alt where they are written or read.
* `readAll_canonical` -- one key, with any text behind it.
* `recording_replayed` -- what a recording leaves in its register, and what runs when the
  register is run.
-/
import ModalInput.Engine.Execute
import ModalInput.Proofs.KeyNotation

namespace ModalInput

set_option autoImplicit false

namespace Key

/-! ## The key that the notation has for a key -/

/-- The characters that Control alone makes another key of. -/
def controlCodes : List (Char × KeyCode) :=
  [('i', .tab), ('j', .char '\n'), ('m', .enter), ('[', .escape)]

/-- The characters that share their place with another one under Control. -/
def controlRow : List (Char × Char) :=
  [('\\', '4'), (']', '5'), ('^', '6'), ('_', '7'), ('@', ' ')]

/-- Control with a character. -/
def withControl (c : Char) (mods : Modifiers) : Key :=
  if c = '?' then special .backspace
  else
    match controlCodes.lookup c with
    | some code => if mods = .onlyControl then special code else of (.char c) mods
    | none => of (.char ((controlRow.lookup c).getD c)) mods

/-- The key that is read where a key was written. -/
def canonical (key : Key) : Key :=
  match key.code with
  | .char c => if key.mods.control then withControl c.toLower key.mods else key
  | .tab => if key.mods = .onlyShift then special .backTab else key
  | .backTab => special .backTab
  | _ => key

/-- The keys that the notation has another key for. -/
def isAliased (key : Key) : Bool :=
  match key.code with
  | .char c =>
      key.mods.control &&
        (c.isUpper || c = '?' || (controlRow.lookup c).isSome ||
          (key.mods = .onlyControl && (controlCodes.lookup c).isSome))
  | .tab => key.mods = .onlyShift
  | .backTab => key.mods.shift
  | _ => false

/-- The keys whose written form says all there is to them. -/
def isWritable (key : Key) : Bool :=
  key.mods.isLettered &&
    match key.code with
    | .char c =>
        !key.mods.control ||
          (Text.uppercase c = [c.toUpper] && !(c = '?' && key.mods.alt))
    | .function _ => true
    | .backTab => !key.mods.control && !key.mods.alt
    | code => code.name?.isSome

/-! ## Reading what was written -/

theorem ne_of_not_ascii {c d : Char} (other : ¬ c.toNat < 0x80) (ascii : d.toNat < 0x80) :
    c ≠ d :=
  fun same => other (same ▸ ascii)

theorem lookup_of_not_ascii {α : Type} {c : Char} (other : ¬ c.toNat < 0x80)
    (table : List (Char × α)) (ascii : table.all (·.1.toNat < 0x80) = true) :
    table.lookup c = none := by
  rw [List.lookup_eq_none_iff]
  intro entry listed
  have small := List.all_eq_true.mp ascii entry listed
  simpa using ne_of_not_ascii other (of_decide_eq_true small)

theorem toLower_of_not_ascii {c : Char} (other : ¬ c.toNat < 0x80) : c.toLower = c := by
  refine dif_neg fun upper => ?_
  have below : c.toNat ≤ 'Z'.toNat := UInt32.le_iff_toNat_le.mp upper.2
  exact other (Nat.lt_of_le_of_lt below (by decide))

theorem toUpper_of_not_ascii {c : Char} (other : ¬ c.toNat < 0x80) : c.toUpper = c := by
  refine dif_neg fun lower => ?_
  have below : c.toNat ≤ 'z'.toNat := UInt32.le_iff_toNat_le.mp lower.2
  exact other (Nat.lt_of_le_of_lt below (by decide))

/-- Outside of ASCII a character is read as itself, whatever its modifiers are. -/
theorem modified_of_not_ascii {c : Char} (other : ¬ c.toNat < 0x80) {mods : Modifiers}
    (unshifted : mods.shift = false) : modified c mods = of (.char c) mods := by
  have same : ({ mods with shift := false } : Modifiers) = mods := by rw [← unshifted]
  unfold modified
  split
  · dsimp only
    rw [toLower_of_not_ascii other, same]
    split
    all_goals first | rfl | exact absurd (by decide) other
  · rw [unshifted]
    rfl

theorem withControl_of_not_ascii {c : Char} (other : ¬ c.toNat < 0x80) (mods : Modifiers) :
    withControl c mods = of (.char c) mods := by
  rw [withControl, if_neg (ne_of_not_ascii other (by decide)),
    lookup_of_not_ascii other controlCodes (by decide),
    lookup_of_not_ascii other controlRow (by decide)]
  rfl

theorem nameOfChar_of_not_ascii {c : Char} (other : ¬ c.toNat < 0x80) (mods : Modifiers) :
    nameOfChar mods c = if mods.control then Text.uppercase c else [c] := by
  have differs {d : Char} (ascii : d.toNat < 0x80) : c ≠ d := ne_of_not_ascii other ascii
  rw [nameOfChar, if_neg (differs (by decide)), if_neg (differs (by decide)),
    if_neg (differs (by decide)), if_neg (differs (by decide)), if_neg (differs (by decide)),
    if_neg (differs (by decide))]

theorem canonical_of_not_ascii {key : Key} {c : Char} (shape : key.code = .char c)
    (other : ¬ c.toNat < 0x80) : key.canonical = key := by
  have same : key = of (.char c) key.mods := by rw [← shape, of_code_mods]
  simp only [canonical, shape]
  split
  · rw [toLower_of_not_ascii other, withControl_of_not_ascii other, ← same]
  · rfl

theorem isAliased_of_not_ascii {key : Key} {c : Char} (shape : key.code = .char c)
    (other : ¬ c.toNat < 0x80) : key.isAliased = false := by
  have capital : c.isUpper = false := decide_eq_false fun upper =>
    other (Nat.lt_of_le_of_lt (UInt32.le_iff_toNat_le.mp upper.2) (by decide))
  have question : c ≠ '?' := ne_of_not_ascii other (by decide)
  simp [isAliased, shape, capital, question, lookup_of_not_ascii other controlCodes (by decide),
    lookup_of_not_ascii other controlRow (by decide)]

/-- Of the modifiers of a character with Control only Alt is open. -/
theorem exists_alt {key : Key} {c : Char} (shape : key.code = .char c)
    (lettered : key.mods.isLettered = true) (control : key.mods.control = true) :
    ∃ alt, key = of (.char c) ⟨true, false, alt, false, false, false⟩ := by
  obtain ⟨_, _, alt, mods⟩ := Modifiers.exists_of_isLettered lettered
  have unshifted : key.mods.shift = false := key.unshifted (by rw [shape]; rfl)
  rw [mods] at control unshifted
  cases control
  cases unshifted
  exact ⟨alt, by rw [← shape, ← mods, of_code_mods]⟩

/-- Control with an ASCII character, value by value. -/
theorem modified_spelling {c : Char} (ascii : c.toNat < 0x80) (alt : Bool) :
    let mods : Modifiers := ⟨true, false, alt, false, false, false⟩
    (of (.char c) mods).isWritable = true →
      modified (spelling mods c) mods = (of (.char c) mods).canonical := by
  have decided : ∀ n < 0x80, ∀ alt : Bool,
      let mods : Modifiers := ⟨true, false, alt, false, false, false⟩
      (of (.char (Char.ofNat n)) mods).isWritable = true →
        modified (spelling mods (Char.ofNat n)) mods =
          (of (.char (Char.ofNat n)) mods).canonical := by
    decide +kernel
  have here := decided c.toNat ascii alt
  rwa [Char.ofNat_toNat] at here

theorem reads_uncontrolled {mods : Modifiers} (plain : mods.control = false) (c : Char) :
    Reads (nameOfChar mods c) (.char c) := by
  by_cases space : c = ' '
  · subst space
    exact reads_space
  by_cases angle : c = '<'
  · subst angle
    exact reads_lt
  have single : nameOfChar mods c = [c] := by
    simp [nameOfChar, space, angle, plain]
  rw [single]
  exact reads_char c

/-- The name of a character with modifiers is read as the key that the notation has. -/
theorem reads_canonical {key : Key} {c : Char} (shape : key.code = .char c)
    (writable : key.isWritable = true) :
    ∃ d, Reads (nameOfChar key.mods c) (.char d) ∧ modified d key.mods = key.canonical := by
  have same : key = of (.char c) key.mods := by rw [← shape, of_code_mods]
  have unshifted : key.mods.shift = false := key.unshifted (by rw [shape]; rfl)
  obtain ⟨lettered, code⟩ := Bool.and_eq_true_iff.mp writable
  cases control : key.mods.control with
  | false =>
      refine ⟨c, reads_uncontrolled control c, ?_⟩
      have itself : key.canonical = key := by simp [canonical, shape, control]
      have read : modified c key.mods = of (.char c) key.mods := by
        simp [modified, control, unshifted]
      rw [itself, read, ← same]
  | true =>
      by_cases ascii : c.toNat < 0x80
      · obtain ⟨alt, rfl⟩ := exists_alt shape lettered control
        exact ⟨_, reads_nameOfChar _ ascii, modified_spelling ascii alt writable⟩
      · simp only [shape, control, Bool.not_true, Bool.false_or, Bool.and_eq_true,
          decide_eq_true_eq] at code
        rw [toUpper_of_not_ascii ascii] at code
        have single : nameOfChar key.mods c = [c] := by
          rw [nameOfChar_of_not_ascii ascii, if_pos control, code.1]
        refine ⟨c, single ▸ reads_char c, ?_⟩
        rw [modified_of_not_ascii ascii unshifted, canonical_of_not_ascii shape ascii, ← same]

/-- A key is read back as the key that the notation has, and the text behind it is left as
it is. -/
theorem readAll_canonical {key : Key} (writable : key.isWritable = true) (rest : List Char) :
    readAll (key.written ++ rest) = key.canonical :: readAll rest := by
  obtain ⟨lettered, code⟩ := Bool.and_eq_true_iff.mp writable
  cases shape : key.code with
  | char c =>
      by_cases plain : key.mods = .none
      · have itself : key.canonical = char c := by
          rw [show key = char c from ext shape plain]
          rfl
        rw [written_char shape, if_pos plain, itself]
        exact readAll_writtenPlain c rest
      · obtain ⟨d, reads, same⟩ := reads_canonical shape writable
        rw [written_char shape, if_neg plain, readAll_bracketed lettered reads, ← same]
        rfl
  | function number =>
      have spelled : key.isSpelled = true := by simp [isSpelled, shape, lettered]
      have itself : key.canonical = key := by simp [canonical, shape]
      rw [readAll_written spelled, itself]
  | tab =>
      by_cases shift : key.mods = .onlyShift
      · have same : key = of .tab .onlyShift := ext shape shift
        have itself : key.canonical = special .backTab := by simp [canonical, shape, shift]
        have tab : Reads "Tab".toList .tab := reads_name? rfl
        have lettered : Modifiers.onlyShift.isLettered = true := rfl
        rw [itself, same]
        exact readAll_bracketed lettered tab rest
      · have spelled : key.isSpelled = true := by simp [isSpelled, shape, lettered, shift]
        have itself : key.canonical = key := by simp [canonical, shape, shift]
        rw [readAll_written spelled, itself]
  | backTab =>
      have itself : key.canonical = special .backTab := by simp [canonical, shape]
      have tab : Reads "Tab".toList .tab := reads_name? rfl
      have lettered : Modifiers.onlyShift.isLettered = true := rfl
      have written : key.written = bracketed .onlyShift "Tab".toList := by
        cases key
        cases shape
        rfl
      rw [itself, written]
      exact readAll_bracketed lettered tab rest
  | _ =>
      have spelled : key.isSpelled = true := by simp_all [isSpelled]
      have itself : key.canonical = key := by simp [canonical, shape]
      rw [readAll_written spelled, itself]

/-- A key that is not writable: its upper case is two characters, and no bracketed name is
read. -/
example : readAll (written (of (.char 'ß') .onlyControl)) =
    [char '<', char 'C', char '-', char 'S', char 'S', char '>'] := by
  decide +kernel

/-- Control with an ASCII character, value by value. -/
theorem canonical_eq_iff_ascii {c : Char} (ascii : c.toNat < 0x80) (alt : Bool) :
    let key := of (.char c) ⟨true, false, alt, false, false, false⟩
    key.isWritable = true → (key.canonical = key ↔ key.isAliased = false) := by
  have decided : ∀ n < 0x80, ∀ alt : Bool,
      let key := of (.char (Char.ofNat n)) ⟨true, false, alt, false, false, false⟩
      key.isWritable = true → (key.canonical = key ↔ key.isAliased = false) := by
    decide +kernel
  have here := decided c.toNat ascii alt
  rwa [Char.ofNat_toNat] at here

/-- The notation has the key itself, unless it is one of the keys listed. -/
theorem canonical_eq_iff {key : Key} (writable : key.isWritable = true) :
    key.canonical = key ↔ key.isAliased = false := by
  obtain ⟨lettered, code⟩ := Bool.and_eq_true_iff.mp writable
  cases shape : key.code with
  | char c =>
      cases control : key.mods.control with
      | false => simp [canonical, isAliased, shape, control]
      | true =>
          by_cases ascii : c.toNat < 0x80
          · obtain ⟨alt, rfl⟩ := exists_alt shape lettered control
            exact canonical_eq_iff_ascii ascii alt writable
          · simp [canonical_of_not_ascii shape ascii, isAliased_of_not_ascii shape ascii]
  | tab =>
      by_cases shift : key.mods = .onlyShift
      · have differs : special .backTab ≠ key := fun same => by simp [← same] at shape
        simp [canonical, isAliased, shape, shift, differs]
      · simp [canonical, isAliased, shape, shift]
  | backTab =>
      obtain ⟨control, shift, alt, mods⟩ := Modifiers.exists_of_isLettered lettered
      simp only [shape, mods, Bool.and_eq_true, Bool.not_eq_true'] at code
      obtain ⟨rfl, rfl⟩ := code
      have itself : special .backTab = key ↔ key.mods = .none :=
        ⟨fun same => by rw [← same]; rfl, fun none => ext shape.symm none.symm⟩
      simp only [canonical, isAliased, shape, itself, mods]
      cases shift <;> decide
  | _ => simp [canonical, isAliased, shape]

/-! ## Keys one after the other -/

/-- What was written for several keys is read as the keys that the notation has. -/
theorem ofText_textAll_canonical {keys : List Key}
    (writable : ∀ key ∈ keys, key.isWritable = true) :
    ofText (textAll keys) = keys.map canonical := by
  rw [ofText, textAll, String.toList_ofList]
  induction keys with
  | nil => simp [readAll]
  | cons key keys ih =>
      obtain ⟨first, others⟩ := List.forall_mem_cons.mp writable
      rw [writtenAll_cons, readAll_canonical first, ih others, List.map_cons]

theorem textAll_ne_empty {keys : List Key} (some : keys ≠ [])
    (writable : ∀ key ∈ keys, key.isWritable = true) : textAll keys ≠ "" := by
  intro empty
  have nothing := ofText_textAll_canonical writable
  rw [empty, show ofText "" = [] by simp [ofText, readAll], eq_comm, List.map_eq_nil_iff] at nothing
  exact some nothing

/-- Control with `i` comes back as Tab. -/
theorem controlI_aliased :
    ofText (textAll [of (.char 'i') .onlyControl]) = [special .tab] ∧
      [special .tab] ≠ [of (.char 'i') .onlyControl] := by
  decide +kernel

end Key

namespace Engine

variable {σ κ : Type} (host : Host σ κ)

/-- To run a register is to put its keys in front of those that wait. -/
theorem runRegister_keys (engine : Engine σ) {register : Register} {text : String}
    (read : host.register? register engine.world = some text) (holds : text ≠ "")
    (other : register ≠ .lastCommand) (shallow : engine.recorder.depth + 1 < Recorder.depthLimit)
    (times : Count) :
    engine.runRegister host register times = (true, { engine with
      lastRun := some register
      recorder := { engine.recorder with
        depth := engine.recorder.depth + 1
        queue := Recorder.repeated (Key.ofText text) times.toNat engine.recorder.queue } }) := by
  have text? : (host.register? register engine.world).getD "" = text := by rw [read]; rfl
  have nonempty : text.isEmpty = false := by simpa using holds
  have allowed : ¬ engine.recorder.depth + 1 ≥ Recorder.depthLimit := Nat.not_le.mpr shallow
  simp [runRegister, text?, nonempty, other, Recorder.execute, allowed]

/-- The end of a recording hands the written form of the recorded keys to the host. When
the register is run while it has that text, what runs is each of the keys as the notation
has it, which is the key itself unless the notation has another one. -/
theorem recording_replayed (engine : Engine σ) {register : Register} {append : Bool}
    (recording : engine.recorder.recording = some (register, append))
    (recordable : register.isRecordable = true) {keys : List Key}
    (committed : engine.recorder.committed = keys)
    (writable : ∀ key ∈ keys, key.isWritable = true) (resolved : ResolvedCommand) :
    (engine.runBuiltin host .toggleRecording resolved).2.world =
        host.setRegister register (Key.textAll keys) append engine.world ∧
      Key.ofText (Key.textAll keys) = keys.map Key.canonical ∧
      (∀ later : Engine σ, host.register? register later.world = some (Key.textAll keys) →
        keys ≠ [] → later.recorder.depth + 1 < Recorder.depthLimit → ∀ times : Count,
          (later.runRegister host register times).2.recorder.queue =
            Recorder.repeated (keys.map Key.canonical) times.toNat later.recorder.queue) ∧
      ∀ key ∈ keys, key.canonical = key ↔ key.isAliased = false := by
  have back := Key.ofText_textAll_canonical writable
  refine ⟨?_, back, ?_, fun key among => Key.canonical_eq_iff (writable key among)⟩
  · simp [runBuiltin, Recorder.finish, recording, committed, tell]
  · intro later read some shallow times
    have other : register ≠ .lastCommand := by
      rintro rfl
      cases recordable
    rw [runRegister_keys host later read (Key.textAll_ne_empty some writable) other shallow, back]

/-- An editor with one register. -/
def oneRegister : Host String Unit where
  execute := fun _ _ world => (true, world)
  carets := fun _ => []
  executeForCaret := fun _ _ _ world => (true, world)
  register? := fun _ world => some world
  setRegister := fun _ text _ _ => text

/-- Keys of all kinds: three of them run as others. -/
def mixedKeys : List Key := [
  .char '<', .of (.char 'W') .onlyControl, .of .tab .onlyShift, .of (.char 'é') .onlyAlt,
  .of (.function ⟨12, by decide⟩) ⟨true, true, true, false, false, false⟩,
  .of (.char '[') .onlyControl]

theorem mixedKeys_replayed :
    let engine : Engine String :=
      { world := "", recorder := { recording := some (.named 'q', false), committed := mixedKeys } }
    let stopped := (engine.runBuiltin oneRegister .toggleRecording
      ⟨.new { name := "record", builtin := some .toggleRecording } 0, {}⟩).2
    stopped.world = Key.textAll mixedKeys ∧
      (stopped.runRegister oneRegister (.named 'q') 2).2.recorder.queue =
        Recorder.repeated (mixedKeys.map Key.canonical) 2 [] ∧
      mixedKeys.map Key.canonical = [
        .char '<', .of (.char 'w') .onlyControl, .special .backTab, .of (.char 'é') .onlyAlt,
        .of (.function ⟨12, by decide⟩) ⟨true, true, true, false, false, false⟩, .escape] := by
  have writable : mixedKeys.all Key.isWritable = true := by decide +kernel
  have replayed := recording_replayed oneRegister
    { world := "", recorder := { recording := some (.named 'q', false), committed := mixedKeys } }
    rfl rfl rfl (List.all_eq_true.mp writable)
    ⟨.new { name := "record", builtin := some .toggleRecording } 0, {}⟩
  refine ⟨replayed.1, ?_, by decide⟩
  exact replayed.2.2.1 _ (congrArg some replayed.1) (by decide) (by decide) 2

end Engine

end ModalInput
