/-
# ModalInput.Resolver.Run -- what happens to the resolver from outside

The resolver is given typed keys, offsets, or the news that the time for another
key has passed.  After each of these it looks at the keys that wait, one at a time
(`step?`), until none is left or offsets are awaited (`process`); that this ends
is `mapKey_lt`.

* `Resolver.inputKey` -- a typed key.
* `Resolver.timeoutExpired` -- no key came in time.
* `Resolver.supplyOffsets` -- the offsets that a command waits for.
-/
import ModalInput.Resolver.Load

namespace ModalInput.Resolver

set_option autoImplicit false

variable {σ : Type} (options : OptionView) (evaluate : Evaluator σ)

/-- Look at the next key, unless there is none or offsets are awaited. -/
def step? (r : Resolver) (world : σ) : Option (Resolver × σ) :=
  if r.awaitsOffsets then none
  else
    match r.typeahead with
    | [] => none
    | queued :: rest => some (mapKey options evaluate { r with typeahead := rest } world queued)

/-- Every key that is looked at lowers the load. -/
theorem step?_fewer {r : Resolver} {world : σ} {next : Resolver × σ}
    (stepped : step? options evaluate r world = some next) :
    Fewer (depthLimit options) r next.1 := by
  unfold step? at stepped
  split at stepped
  · cases stepped
  · rename_i noOffsets
    split at stepped
    · cases stepped
    · rename_i queued rest queue
      cases stepped
      exact mapKey_lt options evaluate r world queued rest queue (by simpa using noOffsets)

/-- Look at the keys that wait. -/
def process (r : Resolver) (world : σ) : Resolver × σ :=
  match _stepped : step? options evaluate r world with
  | none => (r, world)
  | some next => process next.1 next.2
termination_by load (depthLimit options) r
decreasing_by exact step?_fewer options evaluate ‹_›

/-- A typed key.  Escape drops a command that waits for offsets, since no key can
complete it. -/
def inputKey (r : Resolver) (world : σ) (key : Key) : Resolver × σ :=
  if r.awaitsOffsets && key.isEscape then (r.cancel, world)
  else process options evaluate { r with typeahead := r.typeahead ++ [.mappable key 0] } world

/-- The trail when no further key will extend it: a complete mapping on it is
expanded, and without one no mapping applies to its keys. -/
def flushTrail (r : Resolver) (world : σ) : Resolver × σ :=
  match r.trailMatch with
  | some _ => endTrail options evaluate r world
  | none => (r.withoutTrail.requeue (r.trail.map fun typed => .literal typed.key), world)

/-- The time for another key has passed: what was typed is all there is. -/
def timeoutExpired (r : Resolver) (world : σ) : Resolver × σ :=
  let flushed :=
    if r.trail.isEmpty then (r, world)
    else
      let flushed := flushTrail options evaluate r world
      process options evaluate flushed.1 flushed.2
  if flushed.1.typeahead.isEmpty && flushed.1.pending.held.isSome then
    process options evaluate (fireHeld options flushed.1) flushed.2
  else flushed

/-- The offsets for the command that waits for them, if one does. -/
def supplyOffsets (r : Resolver) (world : σ) (offsets : List Int) : Option (Resolver × σ) :=
  match r.pending.awaiting with
  | some (.offsets command) =>
      some (process options evaluate
        (argumentDone options r (command.withArgument (.offsets offsets))) world)
  | _ => none

/-- Whether keys are being recorded, which changes what ends a recording. -/
def setRecording (r : Resolver) (recording : Bool) : Resolver := { r with recording }

end ModalInput.Resolver
