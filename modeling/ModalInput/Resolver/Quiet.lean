/-
# ModalInput.Resolver.Quiet -- what leaves the waiting keys alone

Most of what a key does to a command touches neither the keys in front of the
mapping layer nor the trail, and the keys of the command itself stay or are
dropped as a whole (`Quiet`).  `Quiet.commandResolved` says so of a command whose
keys are known: only looking keys up and expanding mappings moves keys.
-/
import ModalInput.Resolver.CommandLayer

namespace ModalInput.Resolver

set_option autoImplicit false

/-- Neither the queue nor the trail changes, and the command keeps its keys or
loses them all. -/
structure Quiet (r r' : Resolver) : Prop where
  typeahead : r'.typeahead = r.typeahead
  trail : r'.trail = r.trail
  keys : r'.pending.keys = [] ∨ r'.pending.keys = r.pending.keys

namespace Quiet

theorem refl (r : Resolver) : Quiet r r := ⟨rfl, rfl, .inr rfl⟩

theorem trans {a b c : Resolver} (first : Quiet a b) (second : Quiet b c) : Quiet a c where
  typeahead := second.typeahead.trans first.typeahead
  trail := second.trail.trans first.trail
  keys := by
    rcases second.keys with empty | same
    · exact .inl empty
    · rw [same]; exact first.keys

theorem emit (r : Resolver) (event : EngineEvent) : Quiet r (r.emit event) := ⟨rfl, rfl, .inr rfl⟩

theorem changeMode (r : Resolver) (state : ModeState) : Quiet r (r.changeMode state) :=
  ⟨rfl, rfl, .inr rfl⟩

theorem pushMode (r : Resolver) (mode : Mode) : Quiet r (r.pushMode mode) := ⟨rfl, rfl, .inr rfl⟩

theorem popMode (r : Resolver) : Quiet r r.popMode := ⟨rfl, rfl, .inr rfl⟩

theorem leaveTemporary (r : Resolver) : Quiet r r.leaveTemporary := ⟨rfl, rfl, .inr rfl⟩

theorem forget (r : Resolver) : Quiet r r.forget := ⟨rfl, rfl, .inl rfl⟩

theorem abort (r : Resolver) : Quiet r r.abort := ⟨rfl, rfl, .inl rfl⟩

theorem await (r : Resolver) (awaiting : Awaiting) : Quiet r (r.await awaiting) :=
  ⟨rfl, rfl, .inr rfl⟩

theorem pending (r : Resolver) (pending : PendingCommand) (same : pending.keys = r.pending.keys) :
    Quiet r { r with pending } :=
  ⟨rfl, rfl, .inr same⟩

variable (options : OptionView)

theorem applyModeChange (r : Resolver) (command : Command) :
    Quiet r (r.applyModeChange options command) := by
  unfold Resolver.applyModeChange
  split
  · split
    · exact changeMode _ _
    · exact refl _
  · exact changeMode _ _

theorem applyKeymodel (r : Resolver) (command : Command) :
    Quiet r (r.applyKeymodel options command) := by
  unfold Resolver.applyKeymodel
  split
  · exact changeMode _ _
  · exact refl _

theorem complete (r : Resolver) (command : Command) : Quiet r (r.complete options command) :=
  (((applyKeymodel options r command).trans (emit _ _)).trans (applyModeChange options _ _)).trans
    (forget _)

theorem finishOperator (r : Resolver) (operator motion : Command) :
    Quiet r (r.finishOperator options operator motion) :=
  (((leaveTemporary r).trans (emit _ _)).trans (applyModeChange options _ _)).trans (forget _)

theorem argumentDone (r : Resolver) (command : Command) :
    Quiet r (r.argumentDone options command) := by
  unfold Resolver.argumentDone
  split
  · exact finishOperator options _ _ _
  · exact complete options _ _

theorem collectArgument (r : Resolver) (command : Command) (keys : List Key) :
    Quiet r (r.collectArgument options command keys) := by
  unfold Resolver.collectArgument
  split
  · exact argumentDone options _ _
  · exact argumentDone options _ _
  · split
    · exact argumentDone options _ _
    · exact await _ _
  · exact (pushMode _ _).trans (await _ _)
  · exact await _ _

theorem commandResolved (r : Resolver) (action : Action) (keys : List Key) :
    Quiet r (r.commandResolved options action keys) := by
  unfold Resolver.commandResolved
  split
  · refine Quiet.trans ?_ (collectArgument options _ _ _)
    exact ⟨rfl, rfl, .inr rfl⟩
  · dsimp only
    split
    · exact ⟨rfl, rfl, .inr rfl⟩
    · refine Quiet.trans ?_ (collectArgument options _ _ _)
      exact ⟨rfl, rfl, .inr rfl⟩

theorem registerKey (r : Resolver) (key : Key) : Quiet r (r.registerKey key) := by
  unfold Resolver.registerKey
  split
  · exact abort _
  · split
    · exact pending r _ rfl
    · split
      · exact (abort _).trans (emit _ _)
      · exact abort _

theorem characterKey (r : Resolver) (command : Command) (key : Key) :
    Quiet r (r.characterKey options command key) := by
  unfold Resolver.characterKey
  split
  · exact abort _
  · split
    · exact argumentDone options _ _
    · exact abort _

theorem lineKey (r : Resolver) (command : Command) (prompt : Char) (typed : List Char) (key : Key) :
    Quiet r (r.lineKey options command prompt typed key) := by
  unfold Resolver.lineKey
  split
  · exact (popMode _).trans (argumentDone options _ _)
  · split
    · exact abort _
    · exact await _ _

end Quiet

end ModalInput.Resolver
