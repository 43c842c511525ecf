/-
# ModalInput.Recorder -- recording keys, and running recorded ones

A recording keeps the keys as they were typed.  The keys of the command that ends
it must stay out, so typed keys are held until a command is complete, and kept
when the next key comes after that.  Keys to be run again wait in a queue; one
typed key drops them all, which stops a runaway.

* `Recorder.typed`, `commandCompleted` -- what happens at the keyboard.
* `Recorder.start`, `finish` -- a recording.
* `Recorder.execute`, `next`, `interrupt` -- running keys again, `depthLimit` deep
  at most.
-/
import ModalInput.Error
import ModalInput.Key.Basic

namespace ModalInput

set_option autoImplicit false

structure Recorder where
  /-- Keys to be run again. -/
  queue : List Key := []
  /-- The register of the recording, and whether to append to it. -/
  recording : Option (Register × Bool) := none
  /-- How many runs were started since a key was typed. -/
  depth : Nat := 0
  /-- A command is complete, so the next key keeps the held ones. -/
  commitNext : Bool := false
  committed : List Key := []
  held : List Key := []
  deriving DecidableEq

namespace Recorder

instance : Inhabited Recorder := ⟨{}⟩

/-- How many runs may start without a key being typed. -/
def depthLimit : Nat := 100

/-- A key was typed: it is recorded, and stops what was to be run again. -/
def typed (recorder : Recorder) (key : Key) : Recorder :=
  let stopped := { recorder with depth := 0, queue := [] }
  if recorder.recording.isSome then
    if recorder.commitNext then
      { stopped with
        committed := recorder.committed ++ recorder.held, held := [key], commitNext := false }
    else { stopped with held := recorder.held ++ [key] }
  else stopped

/-- The keys typed so far made a complete command. -/
def commandCompleted (recorder : Recorder) : Recorder := { recorder with commitNext := true }

/-- The register that is recorded into. -/
def register? (recorder : Recorder) : Option Register := recorder.recording.map Prod.fst

/-- Start recording. -/
def start (recorder : Recorder) (register : Register) (append : Bool) : Recorder :=
  { recorder with
    recording := some (register, append), commitNext := false, committed := [], held := [] }

/-- A recording that has ended. -/
structure Recording where
  register : Register
  append : Bool
  keys : List Key
  deriving DecidableEq

/-- End the recording. -/
def finish (recorder : Recorder) : Recorder × Option Recording :=
  match recorder.recording with
  | none => (recorder, none)
  | some (register, append) =>
      ({ recorder with recording := none, commitNext := false, committed := [], held := [] },
        some ⟨register, append, recorder.committed⟩)

/-- Drop what was to be run again. -/
def interrupt (recorder : Recorder) : Recorder := { recorder with queue := [], depth := 0 }

/-- Keys several times over, in front of others. -/
def repeated (keys : List Key) (times : Nat) (rest : List Key) : List Key :=
  if keys.isEmpty then rest else (List.replicate times keys).flatten ++ rest

/-- Run keys again, before those that wait already. -/
def execute (recorder : Recorder) (keys : List Key) (times : Nat) :
    Recorder × Except MacroError Unit :=
  if recorder.depth + 1 ≥ depthLimit then
    (recorder.interrupt, .error (.looping (recorder.depth + 1)))
  else
    ({ recorder with depth := recorder.depth + 1, queue := repeated keys times recorder.queue },
      .ok ())

/-- Take the next key to be run again. -/
def next (recorder : Recorder) : Recorder × Option Key :=
  match recorder.queue with
  | [] => (recorder, none)
  | key :: rest => ({ recorder with queue := rest }, some key)

def isReplaying (recorder : Recorder) : Bool := !recorder.queue.isEmpty

end Recorder

end ModalInput
