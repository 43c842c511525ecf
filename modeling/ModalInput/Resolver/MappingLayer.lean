/-
# ModalInput.Resolver.MappingLayer -- the keys of mappings

Keys that mappings apply to gather on the trail as long as some mapping starts
with them.  When none does any more, the longest mapping that was complete on the
way is expanded and the other keys wait to be looked at again; without one, the
first key goes on to the command layer, and the rest starts over.

* `Resolver.mapKey` -- one key.
* `Resolver.expand` -- a mapping in place of the keys that led to it; mappings that
  lead into each other too often fail.
-/
import ModalInput.Expression
import ModalInput.Resolver.CommandLayer

namespace ModalInput.Resolver

set_option autoImplicit false

variable {σ : Type} (options : OptionView) (evaluate : Evaluator σ)

/-- How often mappings may lead into each other; once is always allowed. -/
def depthLimit (options : OptionView) : Nat := max (options.number OptionName.mapDepth).toNat 1

/-- How often mappings led to keys that are a mapping, counting this one. -/
def depthOf (lhs : List TrailKey) : Nat := (lhs.map TrailKey.depth).foldl max 0 + 1

/-- The keys of a mapping in front of the mapping layer.  A mapping whose keys
start with its own left-hand side does not apply to that start again. -/
def expansion (options : OptionView) (mapping : Mapping) (depth : Nat) (keys : List Key) :
    List Queued :=
  if !mapping.noremap && options.isOn OptionName.remap then
    let exempt := if mapping.lhs.isPrefixOf keys then mapping.lhs.length else 0
    (keys.take exempt).map .literal ++ (keys.drop exempt).map (.mappable · depth)
  else keys.map .literal

/-- Put what a mapping stands for in the place of the keys that led to it. -/
def expand (r : Resolver) (world : σ) (mapping : Mapping) (lhs : List TrailKey) : Resolver × σ :=
  if depthLimit options < depthOf lhs then (r.cancel.fail MappingError.recursive, world)
  else
    match mapping.rhs with
    | .keys keys => (r.requeue (expansion options mapping (depthOf lhs) keys), world)
    | .action action => (commandResolved options r action [], world)
    | .expression source =>
        match evaluate source world with
        | (.ok text, world) =>
            (r.requeue (expansion options mapping (depthOf lhs) (Key.ofText text)), world)
        | (.error reason, world) => (r.cancel.fail (MappingError.invalidExpression reason), world)

/-- The trail taken, to be expanded or looked at again. -/
def withoutTrail (r : Resolver) : Resolver := { r with trail := [], trailMatch := none }

/-- Finish with a trail that no key can extend. -/
def endTrail (r : Resolver) (world : σ) : Resolver × σ :=
  match r.trailMatch with
  | some reached =>
      expand options evaluate
        (r.withoutTrail.requeue ((r.trail.drop reached.length).map TrailKey.requeued)) world
        reached.value (r.trail.take reached.length)
  | none =>
      match r.trail with
      | [] => (r, world)
      | first :: rest =>
          (commandKey options (r.withoutTrail.requeue (rest.map TrailKey.requeued)) first.key, world)

/-- A key that joins the trail. -/
def extendTrail (r : Resolver) (world : σ) (key : TrailKey) : Resolver × σ :=
  let r := { r with trail := r.trail ++ [key] }
  match r.mappings.lookup (.of r.modes.mode) (r.trail.map TrailKey.key) with
  | .complete mapping => expand options evaluate r.withoutTrail world mapping r.trail
  | .ambiguous mapping =>
      if options.isOn OptionName.timeout then
        ({ r with trailMatch := some ⟨mapping, r.trail.length - 1⟩ }, world)
      else expand options evaluate r.withoutTrail world mapping r.trail
  | .incomplete => (r, world)
  | .unmapped => endTrail options evaluate r world

/-- Whether mappings apply to the next key: not to an argument, and not in the
middle of a command. -/
def mapsNext (r : Resolver) : Bool := !r.pending.awaitsLiteral && r.pending.keys.isEmpty

/-- A key that mappings do not apply to; the trail is finished first. -/
def passKey (r : Resolver) (world : σ) (queued : Queued) : Resolver × σ :=
  if r.trail.isEmpty then (commandKey options r queued.key, world)
  else endTrail options evaluate (r.requeue [queued]) world

/-- One key from the front of the queue. -/
def mapKey (r : Resolver) (world : σ) (queued : Queued) : Resolver × σ :=
  match queued with
  | .literal _ => passKey options evaluate r world queued
  | .mappable key depth =>
      if r.mapsNext then extendTrail options evaluate r world ⟨key, depth⟩
      else passKey options evaluate r world queued

end ModalInput.Resolver
