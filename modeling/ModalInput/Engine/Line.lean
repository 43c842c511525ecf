/-
# ModalInput.Engine.Line -- command lines

A line whose command the engine knows is run here, and its output is shown; any
other line is the host's.  A text of several lines is run to its end whatever
fails on the way.

* `Engine.runLine` -- a line, with the reason of its failure.
* `Engine.executeLine` -- a line whose failure is reported.
* `Engine.source` -- the lines of a text.
-/
import ModalInput.Engine.State

namespace ModalInput.Engine

set_option autoImplicit false

variable {σ κ : Type} (host : Host σ κ)

def report (engine : Engine σ) (error : EngineError) : Engine σ :=
  engine.tell (host.reportError error)

/-- What a line is called in the message that nobody knows it. -/
def lineName (line : String) : String :=
  String.ofList (Text.trimStart ((Text.trim line.toList).dropWhile (· = ':')))

/-- Run a line. -/
def runLine (engine : Engine σ) (line : String) : Except EngineError Unit × Engine σ :=
  if engine.commands.isCommand line then
    let (commands, outcome) := engine.commands.run line
      ⟨engine.options, engine.resolver.mappings, engine.editor⟩
    let ran := { engine with
      commands
      options := outcome.state.options
      resolver := { engine.resolver with mappings := outcome.state.mappings } }
    match outcome.result with
    | .ok shown => (.ok (), ran.tell (shown.foldl fun world text => host.showMessage text world))
    | .error error => (.error error, ran)
  else
    match engine.ask (host.runLine line) with
    | (true, engine) => (.ok (), engine)
    | (false, engine) => (.error (CommandError.notACommand (lineName line)), engine)

/-- Run a line and report its failure. -/
def executeLine (engine : Engine σ) (line : String) : Bool × Engine σ :=
  match engine.runLine host line with
  | (.ok (), engine) => (true, engine)
  | (.error error, engine) => (false, engine.report host error)

/-- Run a line several times, as long as it succeeds. -/
def repeatLine (engine : Engine σ) (line : String) : Nat → Bool × Engine σ
  | 0 => (true, engine)
  | times + 1 =>
      match engine.executeLine host line with
      | (true, engine) => repeatLine engine line times
      | (false, engine) => (false, engine)

/-- The lines of a text that are to be run: not the empty ones, and not those that
start with a double quote. -/
def sourceLines (text : String) : List String :=
  ((Text.fields '\n' text.toList).map Text.trim).filterMap fun line =>
    if line.isEmpty || line.head? = some '"' then none else some (String.ofList line)

/-- Run the lines of a text, and give the first failure. -/
def source (engine : Engine σ) (text : String) : Except EngineError Unit × Engine σ :=
  (sourceLines text).foldl
    (fun (first, engine) line =>
      match engine.runLine host line with
      | (.ok (), engine) => (first, engine)
      | (.error error, engine) =>
          (first.bind fun _ => .error error, engine.report host error))
    (.ok (), engine)

end ModalInput.Engine
