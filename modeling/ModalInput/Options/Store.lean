/-
# ModalInput.Options.Store -- the options with their values

The store holds the definitions, the shared values, and the values that editors
have of their own.  Every successful write is told to the listeners of the
option, in the order in which they were registered; what they are told waits in
`notices` until someone takes it.

* `OptionStore.define`, `resolve` -- definitions, found by their full or short name.
* `OptionStore.get` -- reading, from a scope; `OptionView` -- reading values of a
  known kind.
* `OptionStore.write` -- the one place in which a value changes.
* `set`, `setText`, `reset`, `turn`, `flip`, `unset` -- the ways to write.  Each of them is a
  `Change`: it leaves a store also when it fails.
-/
import ModalInput.Directory
import ModalInput.Options.Definition
import ModalInput.Text.Completion

namespace ModalInput

set_option autoImplicit false

/-- Someone who wants to know about the writes to an option. -/
structure OptionListener where
  id : Nat
  option : String
  /-- Told which editor a write went to, instead of only that there was one. -/
  localAware : Bool
  deriving DecidableEq, Repr

/-- What a listener is told. -/
structure OptionNotice where
  listener : Nat
  option : String
  old : OptionValue
  new : OptionValue
  scope : OptionScope
  deriving DecidableEq, Repr

structure OptionStore where
  definitions : Directory String OptionDef := .empty
  /-- Full names by short names. -/
  shortNames : Directory String String := .empty
  shared : Directory String OptionValue := .empty
  /-- The values that editors have of their own. -/
  owned : Directory (EditorId × String) OptionValue := .empty
  listeners : List OptionListener := []
  /-- The number of listeners ever registered. -/
  registered : Nat := 0
  notices : List OptionNotice := []

/-- A change of a store that can fail, maybe half way: the store that it leaves, and whether it
succeeded. -/
abbrev OptionStore.Change := OptionStore → OptionStore × Except OptionError Unit

namespace OptionStore

instance : Inhabited OptionStore := ⟨{}⟩

/-- Go on with what was found out about a store; where that failed, nothing is done. -/
def provided {α : Type} (store : OptionStore) (found : Except OptionError α)
    (next : α → OptionStore × Except OptionError Unit) : OptionStore × Except OptionError Unit :=
  match found with
  | .ok a => next a
  | .error error => (store, .error error)

/-! ## Definitions -/

/-- Add an option, in place of an earlier one of the same name; values that
editors had of their own for that one are gone. -/
def define (store : OptionStore) (definition : OptionDef) : OptionStore :=
  { store with
    definitions := store.definitions.insert definition.name definition
    shortNames :=
      match definition.short with
      | some short => store.shortNames.insert short definition.name
      | none => store.shortNames
    shared := store.shared.insert definition.name definition.default
    owned := store.owned.filter fun key _ => key.2 ≠ definition.name }

/-- The definition with a full name, or else with a short one. -/
def find? (store : OptionStore) (name : String) : Option OptionDef :=
  (store.definitions.get? name).or ((store.shortNames.get? name).bind store.definitions.get?)

def resolve (store : OptionStore) (name : String) : Except OptionError OptionDef :=
  match store.find? name with
  | some definition => .ok definition
  | none => .error (.unknownOption name)

def isOption (store : OptionStore) (name : String) : Bool := (store.find? name).isSome

/-- The full names that start in one way. -/
def completeName (store : OptionStore) (start : String) : List String :=
  Text.completions store.definitions.keys start

/-- Every definition, in the order of the names. -/
def sorted (store : OptionStore) : List OptionDef :=
  store.definitions.values.mergeSort fun a b => a.name ≤ b.name

/-! ## Reading -/

/-- The editor whose own value a scope means, if the option has such values. -/
def owner? (definition : OptionDef) (scope : OptionScope) : Option EditorId :=
  match definition.scope, scope with
  | .shared, _ | _, .everywhere => none
  | _, .editor id => some id

/-- The value that is shared. -/
def sharedValue (store : OptionStore) (definition : OptionDef) : OptionValue :=
  (store.shared.get? definition.name).getD definition.default

/-- The value seen from a scope: the editor's own, or else the shared one. -/
def valueAt (store : OptionStore) (definition : OptionDef) (scope : OptionScope) : OptionValue :=
  match owner? definition scope with
  | some id => (store.owned.get? (id, definition.name)).getD (store.sharedValue definition)
  | none => store.sharedValue definition

def get (store : OptionStore) (name : String) (scope : OptionScope) : Except OptionError OptionValue :=
  (store.resolve name).map fun definition => store.valueAt definition scope

/-- Whether an editor has a value of its own. -/
def hasOwn (store : OptionStore) (name : String) (editor : EditorId) : Bool :=
  ((store.find? name).map fun definition => store.owned.contains (editor, definition.name)).getD false

def isDefault (store : OptionStore) (name : String) (scope : OptionScope) : Except OptionError Bool :=
  (store.resolve name).map fun definition => store.valueAt definition scope = definition.default

/-! ## Listening -/

/-- What the listeners of an option are told about a write. -/
def noticesFor (store : OptionStore) (option : String) (old new : OptionValue) (scope : OptionScope) :
    List OptionNotice :=
  (store.listeners.filter (·.option = option)).map fun listener =>
    ⟨listener.id, option, old, new, if listener.localAware then scope else .everywhere⟩

def notify (store : OptionStore) (option : String) (old new : OptionValue) (scope : OptionScope) :
    OptionStore :=
  { store with notices := store.notices ++ store.noticesFor option old new scope }

/-- Register a listener.  One that asks for it is told the shared value at once. -/
def listen (store : OptionStore) (name : String) (localAware atOnce : Bool) :
    OptionStore × Except OptionError Unit :=
  store.provided (store.resolve name) fun definition =>
    let value := store.sharedValue definition
    ({ store with
      listeners := store.listeners ++ [⟨store.registered, definition.name, localAware⟩]
      registered := store.registered + 1
      notices :=
        if atOnce then
          store.notices ++ [⟨store.registered, definition.name, value, value, .everywhere⟩]
        else store.notices }, .ok ())

/-- Forget a listener. -/
def unlisten (store : OptionStore) (id : Nat) : OptionStore :=
  { store with listeners := store.listeners.filter (·.id ≠ id) }

/-- The store with its notices taken. -/
def delivered (store : OptionStore) : OptionStore := { store with notices := [] }

/-! ## Writing -/

/-- Store a value where a scope says, and tell the listeners. -/
def write (store : OptionStore) (definition : OptionDef) (scope : OptionScope) (value : OptionValue) :
    OptionStore :=
  let old := store.valueAt definition scope
  match owner? definition scope with
  | some id =>
      ({ store with owned := store.owned.insert (id, definition.name) value }).notify
        definition.name old value scope
  | none =>
      ({ store with shared := store.shared.insert definition.name value }).notify
        definition.name old value .everywhere

/-- Write a value that passes the check of the option. -/
def set (store : OptionStore) (name : String) (scope : OptionScope) (value : OptionValue) :
    OptionStore × Except OptionError Unit :=
  store.provided (store.resolve name) fun definition =>
    store.provided (definition.check value s!"{name}={value.shown}") fun _ =>
      (store.write definition scope value, .ok ())

/-- Write a value as it is typed after an operator.  What is typed and what it
gives with the current value both have to pass the check. -/
def setText (store : OptionStore) (name : String) (scope : OptionScope) (operation : SetOperation)
    (value : String) : OptionStore × Except OptionError Unit :=
  store.provided (store.resolve name) fun definition =>
    let shown := name ++ operation.symbol ++ value
    store.provided (definition.read value shown) fun operand =>
      store.provided (definition.check operand shown) fun _ =>
        match definition.combine? operation (store.valueAt definition scope) operand with
        | none => (store, .error (.invalidArgument shown))
        | some new =>
            store.provided (if operation ≠ .assign then definition.check new shown else .ok ())
              fun _ => (store.write definition scope new, .ok ())

/-- Take an editor's own value away, so that it sees the shared one again; the
listeners are told if there was one. -/
def unset (store : OptionStore) (name : String) (editor : EditorId) :
    OptionStore × Except OptionError Unit :=
  store.provided (store.resolve name) fun definition =>
    match store.owned.get? (editor, definition.name) with
    | some old =>
        (({ store with owned := store.owned.erase (editor, definition.name) }).notify
          definition.name old (store.sharedValue definition) (.editor editor), .ok ())
    | none => (store, .ok ())

/-- Write the default. -/
def reset (store : OptionStore) (name : String) (scope : OptionScope) :
    OptionStore × Except OptionError Unit :=
  store.provided (store.resolve name) fun definition =>
    (store.write definition scope definition.default, .ok ())

/-- Take every editor's own values away, then write every default. -/
def resetAll (store : OptionStore) : OptionStore :=
  let shared := store.owned.keys.foldl (fun store key => (store.unset key.2 key.1).1) store
  store.sorted.foldl (fun store definition => store.write definition .everywhere definition.default)
    shared

/-- The definition of a toggle. -/
def resolveToggle (store : OptionStore) (name : String) : Except OptionError OptionDef := do
  let definition ← store.resolve name
  if definition.isToggle then return definition else throw (.invalidArgument name)

/-- Turn a toggle on or off. -/
def turn (store : OptionStore) (name : String) (scope : OptionScope) (on : Bool) :
    OptionStore × Except OptionError Unit :=
  store.provided (store.resolveToggle name) fun definition =>
    (store.write definition scope (.toggle on), .ok ())

/-- Turn a toggle to what it is not. -/
def flip (store : OptionStore) (name : String) (scope : OptionScope) :
    OptionStore × Except OptionError Unit :=
  store.provided (store.resolveToggle name) fun definition =>
    (store.write definition scope
      (.toggle !((store.valueAt definition scope).toggle?.getD false)), .ok ())

end OptionStore

/-- The options as they are seen from one scope.  Asked for a value of a kind that
the option does not have, a view answers with an empty one. -/
structure OptionView where
  store : OptionStore
  scope : OptionScope

namespace OptionView

def value? (view : OptionView) (name : String) : Option OptionValue :=
  (view.store.find? name).map fun definition => view.store.valueAt definition view.scope

/-- The number of a number option. -/
def number (view : OptionView) (name : String) : Int :=
  (((view.value? name).bind OptionValue.number?).getD 0).toInt

/-- The text of a text option. -/
def text (view : OptionView) (name : String) : String :=
  ((view.value? name).bind OptionValue.text?).getD ""

/-- The tokens of a list option; an empty text has none. -/
def tokens (view : OptionView) (name : String) : List String :=
  if (view.text name).isEmpty then [] else Text.tokens ',' (view.text name)

/-- Whether a toggle option is on. -/
def isOn (view : OptionView) (name : String) : Bool :=
  ((view.value? name).bind OptionValue.toggle?).getD false

/-- Whether a list option has a token. -/
def has (view : OptionView) (name token : String) : Bool :=
  (((view.value? name).bind OptionValue.text?).map fun s =>
    (Text.tokens ',' s).contains token).getD false

end OptionView

end ModalInput
