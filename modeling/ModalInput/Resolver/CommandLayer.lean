/-
# ModalInput.Resolver.CommandLayer -- the keys of commands

A key that no mapping takes is part of a command: a digit of a count, the sign
before a register, a key of the table, or an argument.  A key sequence that the
table does not know fires the shorter command that was held, is taken apart, is
typed as a character, or drops the command.

* `Resolver.commandKey` -- one key.
* `Resolver.argumentKey` -- one key while an argument is awaited.
* `Resolver.fireHeld` -- run the held command.
-/
import ModalInput.Resolver.Completion
import ModalInput.Text.Blank

namespace ModalInput.Resolver

set_option autoImplicit false

variable (options : OptionView)

/-! ## Arguments -/

/-- A key that takes back a character of a command line. -/
def isBackspace (key : Key) : Bool := key.code = .backspace || key = .of (.char 'h') .onlyControl

/-- A command line without its last word. -/
def withoutWord (typed : List Char) : List Char :=
  ((Text.trimEnd typed).reverse.dropWhile fun c => !Text.isBlank c).reverse

/-- What a key makes of a command line. -/
def editLine (typed : List Char) (key : Key) : List Char :=
  if isBackspace key then typed.dropLast
  else if key = .of (.char 'u') .onlyControl then []
  else if key = .of (.char 'w') .onlyControl then withoutWord typed
  else match key.char? with
    | some c => typed ++ [c]
    | none => if key.code = .tab then typed ++ ['\t'] else typed

/-- The key after the sign before a register.  A count typed so far is kept apart
from the one that may follow. -/
def registerKey (r : Resolver) (key : Key) : Resolver :=
  if key.isEscape then r.abort
  else
    match key.char?.bind Register.ofChar? with
    | some register =>
        { r with pending := { r.pending with
            shown := r.pending.shown ++ [key]
            registerCount :=
              match r.pending.count with
              | some count => some (Count.compose (r.pending.registerCount.getD 0) count)
              | none => r.pending.registerCount
            count := none
            register := some register } }
    | none =>
        match key.literal? with
        | some c => r.abort.fail (MacroError.invalidRegister c)
        | none => r.abort

/-- A character that a command waits for. -/
def characterKey (r : Resolver) (command : Command) (key : Key) : Resolver :=
  if key.isEscape then r.abort
  else
    match key.literal? with
    | some c => argumentDone options r (command.withArgument (.character c))
    | none => r.abort

/-- A key of a command line. -/
def lineKey (r : Resolver) (command : Command) (prompt : Char) (typed : List Char) (key : Key) :
    Resolver :=
  if key.isEnter then
    argumentDone options r.popMode (command.withArgument (.line (String.ofList typed)))
  else if key.isEscape || (isBackspace key && typed.isEmpty) then r.abort
  else r.await (.line command prompt (editLine typed key))

/-- A key while an argument is awaited; it is no longer awaited when the key is
looked at.  Offsets do not come from keys, so keys wait for them. -/
def argumentKey (r : Resolver) (awaiting : Awaiting) (key : Key) : Resolver :=
  match awaiting with
  | .register => registerKey r key
  | .character command => characterKey options r command key
  | .line command prompt typed => lineKey options r command prompt typed key
  | .offsets command => (r.await (.offsets command)).requeue [.literal key]

/-! ## The keys of the table -/

/-- Run the held command; the keys after those that it needs wait to be looked at
again. -/
def fireHeld (r : Resolver) : Resolver :=
  match r.pending.held with
  | none => r
  | some held =>
      commandResolved options
        ({ r with pending := { r.pending with held := none, keys := [] } }.requeue
          ((r.pending.keys.drop held.length).map .literal))
        held.value (r.pending.keys.take held.length)

/-- What an unbound character is in a mode in which characters are typed. -/
def typingAction? : Mode → Option Action
  | .insert => some .insertCharacter
  | .replace => some .replaceCharacter
  | .select => some .selectCharacter
  | _ => none

/-- A single key that the table does not know: Escape and a character, if it is a
character with Alt; a typed character, where characters are typed; nothing
otherwise. -/
def unknownKey (r : Resolver) (key : Key) : Resolver :=
  match key.decompose? with
  | some (first, second) =>
      { r with pending := { r.pending with shown := r.pending.shown.dropLast } }.requeue
        [.literal first, .literal second]
  | none =>
      match typingAction? r.modes.mode, key.char? with
      | some action, some c =>
          complete options r ((Command.new action 0).withArgument (.character c))
      | _, _ => r.abort

/-- Keys that the table does not know. -/
def unknownKeys (r : Resolver) : Resolver :=
  if r.pending.held.isSome then fireHeld options r
  else
    let cleared := { r with pending := { r.pending with keys := [] } }
    match r.pending.keys with
    | [key] => unknownKey options cleared key
    | _ => cleared.abort

/-- The modes in which counts and registers are typed. -/
def takesCounts : Mode → Bool
  | .normal | .visual | .operatorPending => true
  | _ => false

/-- The count with a digit appended, if the key is a digit of a count: a zero is
one only after another digit. -/
def countWith? (pending : PendingCommand) (key : Key) : Option Count :=
  match key.digit? with
  | some digit =>
      if digit ≠ 0 || pending.currentCount.isSome then
        some ((pending.currentCount.getD 0).pushDigit digit)
      else none
  | none => none

/-- Look the keys of the command up. -/
def lookUp (r : Resolver) : Resolver :=
  match r.keys.lookup (.of r.modes.mode) r.pending.keys with
  | .complete action =>
      commandResolved options { r with pending := { r.pending with held := none, keys := [] } }
        action r.pending.keys
  | .ambiguous action =>
      { r with pending := { r.pending with held := some ⟨action, r.pending.keys.length - 1⟩ } }
  | .incomplete => r
  | .unmapped => unknownKeys options r

/-- A key of the table. -/
def tableKey (r : Resolver) (key : Key) : Resolver :=
  let r := { r with pending := { r.pending with keys := r.pending.keys ++ [key] } }
  if r.pending.repeatsOperator then
    argumentDone options
      { r with pending := { r.pending with keys := [], held := none, motionCount := none } }
      (.new .currentLine (r.pending.motionCount.getD 0))
  else lookUp options r

/-- A key that no mapping takes. -/
def commandKey (r : Resolver) (key : Key) : Resolver :=
  match r.pending.awaiting with
  | some awaiting =>
      argumentKey options { r with pending := { r.pending with awaiting := none } } awaiting key
  | none =>
      if key.isEscape && !r.pending.isEmpty then r.abort
      else
        let r := { r with pending := { r.pending with shown := r.pending.shown ++ [key] } }
        if takesCounts r.modes.mode && r.pending.keys.isEmpty then
          match countWith? r.pending key with
          | some count => { r with pending := r.pending.withCurrentCount count }
          | none =>
              if r.modes.mode ≠ .operatorPending && key.char? = some '"' then r.await .register
              else tableKey options r key
        else tableKey options r key

end ModalInput.Resolver
