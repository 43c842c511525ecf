/-
# ModalInput.Proofs.EventTrace -- the events that are told make sense in order

Whoever takes the events follows the mode by them: each change starts from the
mode that the change before it led to, and a command comes with the mode that
holds at that point, or is an operator with its motion (`AgreesWith`).  `path?`
follows a list of events in this way and fails where they do not fit.

Every function that tells events leads from the mode before it to the mode after
it (`Leads`), as long as what waits for a motion is an operator (`Operating`).

* `Goes` -- both together; one lemma for everything that tells events.
* `told_consistent` -- in every session, from the first mode to the present one.
-/
import ModalInput.Proofs.Session

namespace ModalInput

set_option autoImplicit false

/-- What a command is told with fits the command, and the mode that it is told
in. -/
structure ResolvedCommand.AgreesWith (resolved : ResolvedCommand) (mode : ModeState) : Prop where
  count : resolved.arguments.count = resolved.command.count
  /-- Without an operator that waited, the mode is the present one. -/
  alone : resolved.arguments.operatorPending = false → resolved.arguments.state = mode
  /-- What waited for a motion is an operator, and has its motion, with the count of
  both. -/
  waited : resolved.arguments.operatorPending = true →
    resolved.command.action.isOperator = true ∧
      resolved.arguments.state.mode = .operatorPending ∧
      resolved.command.motion.map Command.count = some resolved.arguments.count

instance (resolved : ResolvedCommand) (mode : ModeState) : Decidable (resolved.AgreesWith mode) :=
  decidable_of_iff
    (resolved.arguments.count = resolved.command.count ∧
      (resolved.arguments.operatorPending = false → resolved.arguments.state = mode) ∧
      (resolved.arguments.operatorPending = true →
        resolved.command.action.isOperator = true ∧
          resolved.arguments.state.mode = .operatorPending ∧
          resolved.command.motion.map Command.count = some resolved.arguments.count))
    ⟨fun ⟨count, alone, waited⟩ => ⟨count, alone, waited⟩,
      fun agrees => ⟨agrees.count, agrees.alone, agrees.waited⟩⟩

/-- The mode after an event, if the event fits the mode before it. -/
def EngineEvent.follow? (mode : ModeState) : EngineEvent → Option ModeState
  | .command resolved => if resolved.AgreesWith mode then some mode else none
  | .modeChanged step => if step.old = mode ∧ step.new ≠ mode then some step.new else none
  | .failed _ => some mode

/-- The mode after some events, if each fits the mode before it. -/
def path? : ModeState → List EngineEvent → Option ModeState
  | mode, [] => some mode
  | mode, event :: rest => (event.follow? mode).bind fun next => path? next rest

theorem path?_append (mode : ModeState) (events more : List EngineEvent) :
    path? mode (events ++ more) = (path? mode events).bind fun next => path? next more := by
  induction events generalizing mode with
  | nil => rfl
  | cons event rest ih =>
      simp only [List.cons_append, path?, ih]
      cases event.follow? mode <;> rfl

/-- A step between two modes leads from one to the other; there is none between a
mode and itself. -/
theorem path?_step (old new : ModeState) :
    path? old ((ModeStack.step? old new).toList.map .modeChanged) = some new := by
  unfold ModeStack.step?
  split
  · rename_i same
    exact congrArg some same
  · rename_i differ
    simp [path?, EngineEvent.follow?, Ne.symm differ]

/-- The steps back lead to the lowest mode. -/
theorem path?_stepsBack (mode : ModeState) (saved : List ModeState) :
    path? mode ((ModeStack.stepsBack mode saved).map .modeChanged) =
      some (saved.getLastD mode) := by
  induction saved generalizing mode with
  | nil => rfl
  | cons next below ih =>
      rw [ModeStack.stepsBack, List.map_append, path?_append, path?_step, Option.bind_some, ih,
        List.getLastD_cons]

namespace Resolver

/-! ## Leading from mode to mode -/

/-- Events are added that lead from the mode before to the mode after. -/
def Leads (r r' : Resolver) : Prop :=
  ∃ told, r'.events = r.events ++ told ∧ path? r.modes.state told = some r'.modes.state

namespace Leads

theorem of_same {r r' : Resolver} (events : r'.events = r.events) (modes : r'.modes = r.modes) :
    Leads r r' :=
  ⟨[], by simp [events], by rw [modes]; rfl⟩

theorem trans {a b c : Resolver} (first : Leads a b) (second : Leads b c) : Leads a c := by
  obtain ⟨told, events, path⟩ := first
  obtain ⟨more, events', path'⟩ := second
  exact ⟨told ++ more, by rw [events', events, List.append_assoc],
    by rw [path?_append, path, Option.bind_some, path']⟩

theorem command {r : Resolver} {resolved : ResolvedCommand}
    (agrees : resolved.AgreesWith r.modes.state) : Leads r (r.emit (.command resolved)) :=
  ⟨[.command resolved], rfl, by simp [path?, EngineEvent.follow?, agrees, emit]⟩

theorem fail (r : Resolver) (error : EngineError) : Leads r (r.fail error) :=
  ⟨[.failed error], rfl, rfl⟩

theorem changeMode (r : Resolver) (state : ModeState) : Leads r (r.changeMode state) :=
  ⟨_, rfl, path?_step r.modes.state state⟩

theorem pushMode (r : Resolver) (mode : Mode) : Leads r (r.pushMode mode) :=
  ⟨_, rfl, path?_step r.modes.state (.ofMode mode)⟩

theorem popMode (r : Resolver) : Leads r r.popMode := by
  refine ⟨r.modes.pop.2.toList.map .modeChanged, rfl, ?_⟩
  show _ = some r.modes.pop.1.state
  unfold ModeStack.pop
  split
  · rfl
  · exact path?_step _ _

theorem leaveTemporary (r : Resolver) : Leads r r.leaveTemporary :=
  ⟨_, rfl, path?_stepsBack r.modes.state r.modes.saved⟩

theorem abort (r : Resolver) : Leads r r.abort := by
  have forgets : Leads r r.forget := of_same rfl rfl
  exact forgets.trans (leaveTemporary r.forget)

variable (options : OptionView)

theorem applyModeChange (r : Resolver) (command : Command) :
    Leads r (r.applyModeChange options command) := by
  unfold Resolver.applyModeChange
  split
  · split
    · exact changeMode _ _
    · exact of_same rfl rfl
  · exact changeMode _ _

theorem applyKeymodel (r : Resolver) (command : Command) :
    Leads r (r.applyKeymodel options command) := by
  unfold Resolver.applyKeymodel
  split
  · exact changeMode _ _
  · exact of_same rfl rfl

/-- The mode that a command is told with is the one after the change that a special
key brings. -/
theorem complete (r : Resolver) (command : Command) : Leads r (r.complete options command) := by
  have agrees : (r.toldComplete options command).AgreesWith
      (r.applyKeymodel options command).modes.state :=
    ⟨rfl, fun _ => rfl, fun pending => Bool.noConfusion pending⟩
  exact (((applyKeymodel options r command).trans (.command agrees)).trans
    (applyModeChange options _ command)).trans (of_same rfl rfl)

theorem finishOperator (r : Resolver) {operator : Command} (motion : Command)
    (operates : operator.action.isOperator = true) :
    Leads r (r.finishOperator options operator motion) := by
  have agrees : (toldOperator operator motion).AgreesWith r.leaveTemporary.modes.state :=
    ⟨rfl, fun alone => Bool.noConfusion alone, fun _ => ⟨operates, rfl, rfl⟩⟩
  exact (((leaveTemporary r).trans (.command agrees)).trans
    (applyModeChange options _ _)).trans (of_same rfl rfl)

end Leads

/-! ## Every call -/

/-- What waits for a motion is an operator. -/
def Operating (r : Resolver) : Prop :=
  ∀ operator, r.pending.operator = some operator → operator.command.action.isOperator = true

/-- The events that are added lead to the mode after, and what waits for a motion then
is an operator. -/
structure Goes (r r' : Resolver) : Prop where
  leads : Leads r r'
  operating : Operating r'

namespace Goes

theorem trans {a b c : Resolver} (first : Goes a b) (second : Goes b c) : Goes a c :=
  ⟨first.leads.trans second.leads, second.operating⟩

/-- No operator waits any more. -/
theorem of_forgotten {r r' : Resolver} (leads : Leads r r')
    (nothing : r'.pending.operator = none) : Goes r r' :=
  ⟨leads, by simp [Operating, nothing]⟩

/-- The same operator waits. -/
theorem of_operator {r r' : Resolver} (operating : Operating r) (leads : Leads r r')
    (same : r'.pending.operator = r.pending.operator) : Goes r r' :=
  ⟨leads, by unfold Operating; rw [same]; exact operating⟩

theorem of_same {r r' : Resolver} (operating : Operating r) (events : r'.events = r.events)
    (modes : r'.modes = r.modes) (same : r'.pending.operator = r.pending.operator) : Goes r r' :=
  of_operator operating (.of_same events modes) same

theorem abort (r : Resolver) : Goes r r.abort := of_forgotten (.abort r) rfl

theorem cancel (r : Resolver) : Goes r r.cancel := by
  have drops : Leads r { r with typeahead := [], trail := [], trailMatch := none } :=
    .of_same rfl rfl
  exact of_forgotten (drops.trans (.abort _)) rfl

variable (options : OptionView)

theorem argumentDone {r : Resolver} (operating : Operating r) (command : Command) :
    Goes r (r.argumentDone options command) := by
  refine of_forgotten ?_ (by rw [pending_argumentDone])
  unfold Resolver.argumentDone
  split
  · rename_i operator waiting
    exact .finishOperator options r command (operating operator waiting)
  · exact .complete options r command

theorem counted {r : Resolver} (operating : Operating r) : Goes r r.counted :=
  of_same operating (events_counted r) (modes_counted r) (operator_counted r)

theorem commandResolved {r : Resolver} (operating : Operating r) (action : Action)
    (keys : List Key) : Goes r (r.commandResolved options action keys) := by
  have step := commandResolved_step options r action keys
  have counted := counted operating
  generalize r.commandResolved options action keys = after at step ⊢
  cases step with
  | starts starts =>
      refine ⟨counted.leads.trans (.pushMode _ .operatorPending), ?_⟩
      intro operator waiting
      cases waiting
      rw [commandOf_action]
      exact starts.2.1
  | finishes noOperator ready => exact counted.trans (argumentDone options counted.operating _)
  | awaitsCharacter kind => exact counted.trans (of_same counted.operating rfl rfl rfl)
  | opensLine kind =>
      exact of_operator operating (counted.leads.trans (.pushMode _ .commandLine))
        (operator_counted r)
  | awaitsOffsets kind => exact counted.trans (of_same counted.operating rfl rfl rfl)

theorem fireHeld {r : Resolver} (operating : Operating r) : Goes r (r.fireHeld options) := by
  unfold Resolver.fireHeld
  split
  · exact of_same operating rfl rfl rfl
  · refine trans ?_ (commandResolved options ?_ _ _)
    · exact of_same operating rfl rfl rfl
    · exact operating

theorem commandKey {r : Resolver} (operating : Operating r) (key : Key) :
    Goes r (r.commandKey options key) := by
  have step := commandKey_step options r key
  have answered : Goes r r.answered := of_same operating rfl rfl rfl
  have gathered : Goes r (r.gathered key) := of_same operating rfl rfl rfl
  generalize r.commandKey options key = after at step ⊢
  cases step with
  | drops => exact abort r
  | refuses c awaits => exact of_forgotten ((Leads.abort r).trans (.fail _ _)) rfl
  | names register awaits named => exact of_same operating rfl rfl rfl
  | supplies command c awaits types =>
      exact answered.trans (argumentDone options answered.operating _)
  | enters command prompt typed awaits confirms =>
      have popped : Goes r r.answered.popMode :=
        of_operator operating (answered.leads.trans (.popMode _)) rfl
      exact popped.trans (argumentDone options popped.operating _)
  | edits command prompt typed awaits => exact of_same operating rfl rfl rfl
  | waits command awaits => exact of_same operating rfl rfl rfl
  | counts count idle first mode digit =>
      refine of_same operating rfl rfl ?_
      simp only [PendingCommand.withCurrentCount]
      split <;> rfl
  | asksRegister idle first mode sign => exact of_same operating rfl rfl rfl
  | repeats operator idle waiting again =>
      have doubled : Goes r (r.gathered key).doubled := of_same operating rfl rfl rfl
      exact doubled.trans (argumentDone options doubled.operating _)
  | gathers idle found => exact gathered
  | holds action idle found => exact of_same operating rfl rfl rfl
  | resolves action idle found =>
      have released : Goes r (r.gathered key).released := of_same operating rfl rfl rfl
      exact released.trans (commandResolved options released.operating action _)
  | fires held idle holding => exact gathered.trans (fireHeld options gathered.operating)
  | parts first second idle single nothing apart => exact of_same operating rfl rfl rfl
  | types action c idle single nothing typing typed =>
      have taken : Leads r { r.gathered key with
          pending := { (r.gathered key).pending with keys := [] } } := .of_same rfl rfl
      exact of_forgotten (taken.trans (.complete options _ _)) rfl

theorem move {r r' : Resolver} (operating : Operating r) (move : Move options r r') :
    Goes r r' := by
  cases move with
  | queue typeahead => exact of_same operating rfl rfl rfl
  | joins key maps => exact of_same operating rfl rfl rfl
  | reaches key mapping maps found => exact of_same operating rfl rfl rfl
  | leaves => exact of_same operating rfl rfl rfl
  | acts mapping action found target =>
      have taken : Goes r r.withoutTrail := of_same operating rfl rfl rfl
      exact taken.trans (commandResolved options taken.operating action [])
  | key key empty => exact commandKey options operating key
  | fires => exact fireHeld options operating
  | supplies command values awaits => exact argumentDone options operating _
  | cancels => exact cancel r
  | fails error => exact of_operator operating (.fail r error) rfl

theorem moves {r r' : Resolver} (operating : Operating r) (moves : Moves options r r') :
    Goes r r' :=
  moves.kept (P := Goes r) (fun _ _ before last => before.trans (move options before.operating last))
    (of_same operating rfl rfl rfl)

/-- Every operation but taking an event. -/
theorem operation {σ : Type} {r : Resolver} (operating : Operating r) (operation : Operation σ)
    (tells : operation ≠ .takeEvent) : Goes r (operation.run r) := by
  cases operation.split r with
  | moves options moves => exact Goes.moves options operating moves
  | setMode state =>
      have dropped : Leads r { r.abort with trail := [], trailMatch := none } :=
        (Leads.abort r).trans (.of_same rfl rfl)
      exact of_forgotten (dropped.trans (.changeMode _ state)) rfl
  | setRecording recording => exact of_same operating rfl rfl rfl
  | setMappings mappings => exact of_same operating rfl rfl rfl
  | takeEvent => exact absurd rfl tells

end Goes

/-! ## Sessions -/

/-- What was told leads from the first mode to the present one. -/
structure Session.Followed (session : Session) : Prop where
  path : path? (.ofMode .normal) session.told = some session.resolver.modes.state
  operating : Operating session.resolver

theorem Session.Followed.goes {session next : Session} (followed : session.Followed)
    (goes : Goes session.resolver next.resolver) (taken : next.taken = session.taken) :
    next.Followed := by
  obtain ⟨⟨more, events, path⟩, operating⟩ := goes
  refine ⟨?_, operating⟩
  have told : next.told = session.told ++ more := by
    simp [Session.told, taken, events]
  rw [told, path?_append, followed.path, Option.bind_some, path]

theorem Session.Followed.after {σ : Type} {session : Session} (followed : session.Followed)
    (interaction : Interaction σ) : (session.after interaction).Followed := by
  cases interaction with
  | setKeys keys =>
      exact followed.goes (.of_same followed.operating rfl rfl rfl) (List.append_nil _)
  | call operation =>
      by_cases takes : operation = .takeEvent
      · subst takes
        obtain ⟨events, same⟩ := Operation.takeEvent_run (σ := σ) session.resolver
        have resolver : (session.after (.call (.takeEvent : Operation σ))).resolver =
            { session.resolver with events } := same
        refine ⟨?_, ?_⟩
        · rw [Session.told_takeEvent, resolver]
          exact followed.path
        · rw [resolver]
          exact followed.operating
      · have taken : (Interaction.call operation).taken session.resolver = [] := by
          cases operation with
          | takeEvent => exact absurd rfl takes
          | _ => rfl
        exact followed.goes (.operation followed.operating operation takes)
          (by simp [Session.after, taken])

/-- Whatever is done with a resolver, the events that it tells lead step by step from
its first mode to its present one, and each command fits the mode that it is told
in. -/
theorem told_consistent {σ : Type} (keys : CommandKeys) (interactions : List (Interaction σ)) :
    path? (ModeState.ofMode .normal) ((Session.start keys).run interactions).told =
      some ((Session.start keys).run interactions).resolver.modes.state := by
  have followed : ((Session.start keys).run interactions).Followed :=
    Session.run_kept (P := Session.Followed) (fun _ interaction before => before.after interaction)
      ⟨rfl, fun _ waiting => Option.noConfusion rfl (heq_of_eq waiting)⟩ interactions
  exact followed.path

end Resolver

end ModalInput
