/-
# ModalInput.Options.SetCommand -- the commands that show and change options

There are three commands: for the values that are shared, for those of one
editor, and for both.  They run their arguments in order and stop at the first
failure; what the arguments before it did stays (`SetOutcome`).

* `SetCommand.runArgument` -- one argument.
* `SetCommand.run` -- a whole command; without arguments it shows what differs
  from the defaults.
-/
import ModalInput.Options.SetArgument
import ModalInput.Options.Store

namespace ModalInput

set_option autoImplicit false

inductive SetCommand where
  /-- Both the shared value and the editor's own. -/
  | both
  /-- The editor's own value. -/
  | own
  /-- The shared value. -/
  | shared
  deriving DecidableEq, Repr

/-- The store after a command, with the lines it shows or its failure. -/
structure SetOutcome where
  store : OptionStore
  result : Except OptionError (List String)

namespace SetCommand

/-- The scope that a command reads in. -/
def scope (command : SetCommand) (editor : EditorId) : OptionScope :=
  match command with
  | .shared => .everywhere
  | .both | .own => .editor editor

/-- A line that shows a value in the form in which it would be typed. -/
def line (definition : OptionDef) (value : OptionValue) : String :=
  match value with
  | .toggle true => definition.name
  | .toggle false => "no" ++ definition.name
  | value => s!"{definition.name}={value.shown}"

/-- The lines for every option, or for those that differ from their defaults. -/
def overview (store : OptionStore) (scope : OptionScope) (all : Bool) : List String :=
  "--- Options ---" :: store.sorted.filterMap fun definition =>
    let value := store.valueAt definition scope
    if all || value ≠ definition.default then some (line definition value) else none

/-- One change after another; what the first did stays when the second fails. -/
def andThen (first second : OptionStore.Change) : OptionStore.Change := fun store =>
  match first store with
  | (after, .ok ()) => second after
  | failed => failed

/-- Make the value that an editor sees the shared one. -/
def share (editor : EditorId) (name : String) : OptionStore.Change := fun store =>
  store.provided (store.get name (.editor editor)) fun value => store.set name .everywhere value

/-- Make a write in the scopes that a command changes.  Where an option has one
value for each editor, the command for both copies the editor's new value to the
shared one; where editors override the shared value, it makes the editor see the
shared one again. -/
def writing (command : SetCommand) (editor : EditorId) (name : String)
    (write : OptionScope → OptionStore.Change) : OptionStore.Change := fun store =>
  store.provided (store.resolve name) fun definition =>
    match command, definition.scope with
    | _, .shared | .shared, _ => write .everywhere store
    | .own, _ => write (.editor editor) store
    | .both, .perEditor => andThen (write (.editor editor)) (share editor name) store
    | .both, .overridable =>
        andThen (write .everywhere) (fun store => store.unset name editor) store

/-- A toggle with letters before its name. -/
def prefixedToggle? (store : OptionStore) (letters name : String) : Option String :=
  if letters.isPrefixOf name then
    (store.find? (String.ofList (name.toList.drop letters.length))).bind fun definition =>
      if definition.isToggle then some definition.name else none
  else none

/-- Show the value of an option. -/
def query (command : SetCommand) (editor : EditorId) (store : OptionStore) (name : String) :
    Except OptionError (List String) :=
  (store.resolve name).map fun definition =>
    [line definition (store.valueAt definition (command.scope editor))]

/-- Take the shared value for an editor. -/
def copyGlobal (editor : EditorId) (name : String) : OptionStore.Change := fun store =>
  store.provided (store.resolve name) fun definition =>
    match definition.scope with
    | .shared => (store, .ok ())
    | .overridable => store.unset definition.name editor
    | .perEditor =>
        store.provided (store.get definition.name .everywhere) fun value =>
          store.set definition.name (.editor editor) value

/-- A change that shows nothing. -/
def silent (change : OptionStore.Change) (store : OptionStore) : SetOutcome :=
  ⟨(change store).1, (change store).2.map fun _ => []⟩

/-- Run one argument. -/
def runArgument (command : SetCommand) (editor : EditorId) (store : OptionStore) :
    SetArgument → SetOutcome
  | .showAll => ⟨store, .ok (overview store (command.scope editor) true)⟩
  | .resetAll => ⟨store.resetAll, .ok []⟩
  | .query name => ⟨store, command.query editor store name⟩
  | .invert name => silent (command.writing editor name fun scope store => store.flip name scope) store
  | .reset name => silent (command.writing editor name fun scope store => store.reset name scope) store
  | .copyGlobal name => silent (copyGlobal editor name) store
  | .assign name operation value =>
      silent (command.writing editor name fun scope store =>
        store.setText name scope operation value) store
  | .bare name =>
      match store.find? name with
      | some definition =>
          if definition.isToggle then
            silent (command.writing editor name fun scope store => store.turn name scope true) store
          else ⟨store, command.query editor store name⟩
      | none =>
          match prefixedToggle? store "no" name, prefixedToggle? store "inv" name with
          | some full, _ =>
              silent (command.writing editor full fun scope store => store.turn full scope false) store
          | none, some full =>
              silent (command.writing editor full fun scope store => store.flip full scope) store
          | none, none => ⟨store, .error (.unknownOption name)⟩

/-- Run arguments in order, up to the first failure. -/
def runArguments (command : SetCommand) (editor : EditorId) :
    OptionStore → List SetArgument → SetOutcome
  | store, [] => ⟨store, .ok []⟩
  | store, argument :: rest =>
      let first := command.runArgument editor store argument
      match first.result with
      | .error error => ⟨first.store, .error error⟩
      | .ok lines =>
          let others := command.runArguments editor first.store rest
          ⟨others.store, others.result.map (lines ++ ·)⟩

/-- Run a command with its arguments as they are typed. -/
def run (command : SetCommand) (editor : EditorId) (store : OptionStore) (arguments : String) :
    SetOutcome :=
  match SetArgument.readAll arguments with
  | .error error => ⟨store, .error error⟩
  | .ok [] => ⟨store, .ok (overview store (command.scope editor) false)⟩
  | .ok arguments => command.runArguments editor store arguments

end SetCommand

end ModalInput
