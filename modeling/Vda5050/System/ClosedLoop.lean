import Vda5050.AgvController.ExecutableActions
import Vda5050.System.AttachedAgv
import Vda5050.System.VehicleTelemetry

/-!
# The closed loop

The virtual AGV checks the actions of an order before the controller accepts it, and the
controller has the virtual AGV execute none but these. What the controller publishes of the
vehicle is then what the vehicle tells of itself, also while one of them runs inside the
other.
-/

set_option autoImplicit false

namespace Vda5050

open AgvController Library VirtualAgvAdapter

/-! ## Executable actions -/

/-- The actions that the virtual AGV finds executable. -/
def VirtualAgvAdapter.capabilities : Capabilities where
  node action := ∀ node, isActionExecutable { action, scope := .node node } = true
  edge action := ∀ edge, isActionExecutable { action, scope := .edge edge } = true
  instant action := isActionExecutable { action, scope := .instant } = true

/-- Only the kind of the scope matters. -/
private theorem getActionDefinition_congr {context other : ActionContext}
    (action : context.action = other.action) (kind : scopeKind context.scope = scopeKind other.scope) :
    getActionDefinition context.action context.scope =
      getActionDefinition other.action other.scope := by
  unfold getActionDefinition
  rw [action, kind]

private theorem isActionExecutable_congr {context other : ActionContext}
    (action : context.action = other.action) (kind : scopeKind context.scope = scopeKind other.scope) :
    isActionExecutable context = isActionExecutable other := by
  unfold isActionExecutable
  rw [getActionDefinition_congr action kind, action]

private theorem cover_capabilities_iff (context : ActionContext) :
    capabilities.Cover context ↔ isActionExecutable context = true := by
  obtain ⟨action, scope, stopDriving, activeOrderId⟩ := context
  cases scope with
  | instant => exact Iff.rfl
  | node node =>
      refine ⟨fun covered => ?_, fun executable other => ?_⟩
      · rw [← covered node]
        exact isActionExecutable_congr rfl rfl
      · rw [← executable]
        exact isActionExecutable_congr rfl rfl
  | edge edge =>
      refine ⟨fun covered => ?_, fun executable other => ?_⟩
      · rw [← covered edge]
        exact isActionExecutable_congr rfl rfl
      · rw [← executable]
        exact isActionExecutable_congr rfl rfl

variable {math : MathLibrary} {options : VirtualAgvAdapterOptions}
  {tolerances : DeviationTolerances}

private theorem answers_respects (adapter : VirtualAgvAdapter) :
    (adapter.answers math tolerances).Respects capabilities := by
  intro context unreported
  rw [cover_capabilities_iff, ← checkActionExecutable_eq_nil_iff]
  simp only [answers] at unreported
  cases checked : checkActionExecutable context with
  | ok errorRefs => simpa [checked] using unreported
  | error message => simp [checked] at unreported

theorem Event.IsAnswered.respects {event : Event} (answered : event.IsAnswered math tolerances) :
    event.Respects capabilities := by
  obtain ⟨adapter, same⟩ := answered
  rw [← same]
  cases event with
  | order | instantActions => exact answers_respects adapter
  | _ => trivial

private theorem holdsExecutable_of_run {limit : Nat} {events : List Event} {c : Config}
    (run : ControllerRun (fun _ event => event.IsAnswered math tolerances) limit events c) :
    HoldsExecutable capabilities c := by
  have reached : c.Provenant ∧ HoldsExecutable capabilities c := by
    refine run.invariant (fun c => c.Provenant ∧ HoldsExecutable capabilities c)
      ⟨.initial limit, .initial limit⟩ ?_
    rintro c event ⟨provenant, holds⟩ environment answered -
    exact ⟨provenant.perform environment.1,
      holds.perform provenant environment.1 answered.respects⟩
  exact reached.2

/-- The virtual AGV leaves no instant action to the controller but cancelations. -/
private theorem not_isActionExecutable_stateRequest {action : Action}
    (request : action.actionType = "stateRequest") (scope : ActionScope) :
    isActionExecutable { action, scope } = false := by
  have undefined : ∀ definition ∈ actionDefinitions, definition.actionType ≠ "stateRequest" := by
    decide
  have missing : getActionDefinition action scope = none := by
    refine List.find?_eq_none.mpr fun definition member => ?_
    simp [request, undefined definition member]
  simp [isActionExecutable, missing]

namespace AttachedAgv

variable {vehicle next : AttachedAgv} {limit : Nat}

private theorem executable_of_run {events : List AttachedAgvEvent}
    (run : AttachedAgvRun math options tolerances limit events vehicle) {context : ActionContext}
    (executed : .executeAction context ∈ vehicle.controller.log) :
    isActionExecutable context = true := by
  obtain ⟨controllerEvents, controllerRun⟩ := (kept_of_run run).run
  have holds := holdsExecutable_of_run controllerRun
  exact (cover_capabilities_iff context).mp (holds.log _ executed)

/-- What has thrown an exception has been observed before, unless it is a query. -/
private theorem exists_throws_of_run {events : List AttachedAgvEvent}
    (run : AttachedAgvRun math options tolerances limit events vehicle)
    {exception : HandlerException} (aborted : vehicle.aborted = some exception) :
    exception = .uncheckedParameter ∨
      ∃ observation ∈ vehicle.controller.log, observation.throws = some exception := by
  have acted : ∀ {before after : AttachedAgv} {event : Event} {calls : List ControllerCall},
      before.act math options event calls = some after →
      ∀ exception, after.aborted = some exception →
      ∃ observation ∈ after.controller.log, observation.throws = some exception := by
    intro before after event calls acted exception aborted
    obtain ⟨controller, -, rfl⟩ := Option.map_eq_some_iff.mp acted
    obtain ⟨observation, member, throws⟩ := List.exists_of_findSome?_eq_some aborted
    exact ⟨observation, List.mem_of_mem_drop member, throws⟩
  refine run.invariant (fun vehicle => ∀ exception, vehicle.aborted = some exception →
    exception = .uncheckedParameter ∨
      ∃ observation ∈ vehicle.controller.log, observation.throws = some exception) ?_ ?_ _ aborted
  · intro exception aborted
    cases aborted
  · intro events before event after _ _ _ stepped exception
    unfold AttachedAgv.step at stepped
    split at stepped
    · cases stepped
    · next running =>
      cases event with
      | controller event =>
          dsimp only at stepped
          split at stepped
          · split at stepped
            · obtain rfl := Option.some.inj stepped
              exact fun aborted => .inl (Option.some.inj aborted).symm
            · exact fun aborted => .inr (acted stepped exception aborted)
          · cases stepped
      | callback event =>
          dsimp only at stepped
          split at stepped
          · cases stepped
          · split at stepped
            · exact fun aborted => .inr (acted stepped exception aborted)
            · cases stepped
      | tick event =>
          dsimp only at stepped
          split at stepped
          · obtain ⟨adapter, -, rfl⟩ := Option.map_eq_some_iff.mp stepped
            exact fun aborted => absurd (Option.isSome_iff_exists.mpr ⟨_, aborted⟩) running
          · cases stepped

/-- In every run the vehicle executes only actions that it finds executable, so that none is
without definition, and what throws is the cancelation of an action without a context, or the
check of a parameter. No `stateRequest` is ever accepted, although it is up to the controller. -/
theorem executes_executable {events : List AttachedAgvEvent}
    (run : AttachedAgvRun math options tolerances limit events vehicle) :
    (∀ context, .executeAction context ∈ vehicle.controller.log →
      isActionExecutable context = true) ∧
    (∀ exception, vehicle.aborted = some exception → exception = .uncheckedParameter ∨
      exception = .undefinedContext ∧ .cancelAction none ∈ vehicle.controller.log) ∧
    ∀ action, .instantActionAccepted action ∈ vehicle.controller.log →
      action.actionType ≠ "stateRequest" := by
  refine ⟨fun context => executable_of_run run, fun exception aborted => ?_,
    fun action member request => ?_⟩
  · refine (exists_throws_of_run run aborted).imp_right fun thrown => ?_
    obtain ⟨observation, member, throws⟩ := thrown
    cases observation with
    | executeAction context =>
        have passed := executable_of_run run member
        simp only [Observation.throws, Option.ite_none_right_eq_some,
          Option.isNone_iff_eq_none] at throws
        simp [isActionExecutable, throws.1] at passed
    | cancelAction context =>
        cases context with
        | none => exact ⟨(Option.some.inj throws).symm, member⟩
        | some context => cases throws
    | _ => cases throws
  · obtain ⟨controllerEvents, controllerRun⟩ := (kept_of_run run).run
    have accepted : isActionExecutable { action, scope := .instant } = true :=
      (holdsExecutable_of_run controllerRun).log _ member (by rw [request]; decide)
    rw [not_isActionExecutable_stateRequest request] at accepted
    cases accepted

/-- An order of one node with one action. -/
def standingOrder (orderId actionId : String) : Order where
  orderId := orderId
  orderUpdateId := 0
  nodes :=
    [{ nodeId := "start"
       sequenceId := 0
       released := true
       actions := [{ noop .hard with actionId := actionId }] }]
  edges := []

def cancelation (actionId : String) : InstantActions where
  actions := [{ actionId := actionId, actionType := "cancelOrder", blockingType := .hard }]

/-- An order is canceled before its action has begun. The action runs along with that of the
next order, whose cancelation then finds no context for it. -/
def canceledTwice : List AttachedAgvEvent :=
  .controller (.order (standingOrder "first" "1") {}) ::
    .controller (.instantActions (cancelation "cancel 1") {}) ::
    .controller (.order (standingOrder "second" "2") {}) ::
    (ticked 1 2 ++ [.controller (.instantActions (cancelation "cancel 2") {})])

theorem executes_executable_canceledTwice :
    ∃ (events : List AttachedAgvEvent) (vehicle : AttachedAgv),
      AttachedAgvRun axisMath {} {} 5 events vehicle ∧
      .cancelAction none ∈ vehicle.controller.log ∧
      ∃ context, .executeAction context ∈ vehicle.controller.log ∧
        isActionExecutable context = true := by
  have follows : (follow axisMath {} {} 60 (attached {} 5) canceledTwice).any (fun vehicle =>
      vehicle.aborted = some .undefinedContext &&
        vehicle.controller.log.any (·.executes.isSome)) = true := by
    decide +kernel
  obtain ⟨events, vehicle, run, passed, -⟩ := exists_run_of_follow follows
  obtain ⟨aborted, executed⟩ := Bool.and_eq_true_iff.mp passed
  have aborted := of_decide_eq_true aborted
  obtain ⟨executable, cancels, -⟩ := executes_executable run
  obtain ⟨observation, member, executes⟩ := List.any_eq_true.mp executed
  cases observation with
  | executeAction context =>
      exact ⟨events, vehicle, run, ((cancels _ aborted).resolve_left (by decide)).2, context, member,
        executable context member⟩
  | _ => cases executes

end AttachedAgv

/-! ## What is told of the vehicle -/

/-- A step of the adapter tells the difference it makes to the vehicle, and calls back at its
end if at all. -/
structure VirtualAgvAdapter.StepTells (options : VirtualAgvAdapterOptions)
    (before after : VirtualAgvAdapter) (calls : List ControllerCall) : Prop where
  grown : after.calls = before.calls ++ calls
  last : CallsBackLast calls
  informs : Informs options after
  leads : replay Telemetry.update before.telemetry calls = after.telemetry
  along : Telemetry.Sound options before.telemetry →
    AllAlong Telemetry.update (Telemetry.Sound options) before.telemetry calls

section Handlers

variable {before after adapter : VirtualAgvAdapter} (battery : HasBattery options)
  (roots : ∀ x, 0 ≤ math.sqrt x)

include battery roots in
private theorem step_stepTells (informs : Informs options before) (statuses : HaveStatuses before)
    {event : AdapterEvent} (orderly : IsOrderly event)
    (stepped : VirtualAgvAdapter.step math options before event = some after) :
    ∃ calls, StepTells options before after calls := by
  obtain ⟨calls, accounts⟩ := step_accountsFor informs.numbered statuses stepped
  obtain ⟨told, grown, leads, along⟩ := step_tells battery roots stepped informs.forward
  obtain rfl : calls = told := List.append_cancel_left (accounts.grown.symm.trans grown)
  exact ⟨calls, grown, accounts.last, informs.step battery roots orderly stepped, leads, along⟩

theorem VirtualAgvAdapter.StepTells.refl (informs : Informs options adapter) :
    StepTells options adapter adapter [] where
  grown := (List.append_nil _).symm
  last := .of_plain (by simp)
  informs := informs
  leads := rfl
  along sound := sound

private theorem invoke_of_not_isInvocation {observation : Observation}
    (uninvolved : observation.isInvocation = false) (adapter : VirtualAgvAdapter) :
    adapter.invoke math options observation = adapter := by
  have unhandled : observation.handler = none := by
    cases observation with
    | executeAction | cancelAction | finishEdgeAction | traverseEdge | stopTraverse =>
        cases uninvolved
    | _ => rfl
  rw [invoke, unhandled]
  rfl

/-- Only invocations matter. -/
private theorem invokeAll_filter (adapter : VirtualAgvAdapter) (observations : List Observation) :
    adapter.invokeAll math options (observations.filter (·.isInvocation)) =
      adapter.invokeAll math options observations := by
  induction observations generalizing adapter with
  | nil => rfl
  | cons observation observations ih =>
      cases involved : observation.isInvocation with
      | true =>
          rw [List.filter_cons_of_pos involved]
          exact ih _
      | false =>
          rw [List.filter_cons_of_neg (by simp [involved]), ih]
          exact congrArg (invokeAll math options · observations)
            (invoke_of_not_isInvocation involved adapter).symm

include battery roots in
private theorem invoke_stepTells (informs : Informs options adapter)
    (statuses : HaveStatuses adapter) {observation : Observation}
    (executable : ∀ context, observation = .executeAction context →
      isActionExecutable context = true) :
    ∃ calls, StepTells options adapter (adapter.invoke math options observation) calls := by
  unfold invoke
  cases invoked : observation.handler with
  | none => exact ⟨[], .refl informs⟩
  | some event =>
      obtain ⟨-, after, stepped⟩ := exists_step_of_handler math options invoked adapter
      rw [Option.bind_some, stepped, Option.getD_some]
      refine step_stepTells battery roots informs statuses ?_ stepped
      cases observation with
      | executeAction context =>
          obtain rfl := Option.some.inj invoked
          exact executable context rfl
      | finishEdgeAction | traverseEdge | stopTraverse =>
          obtain rfl := Option.some.inj invoked
          trivial
      | cancelAction context =>
          cases context with
          | none => cases invoked
          | some context =>
              obtain rfl := Option.some.inj invoked
              trivial
      | _ => cases invoked

end Handlers

/-- Which node object a context refers to does not matter for its action. -/
private theorem ActionContext.replaceNode_spec (updated : Node) (context : ActionContext) :
    (context.replaceNode updated).action = context.action ∧
      scopeKind (context.replaceNode updated).scope = scopeKind context.scope := by
  obtain ⟨action, scope, stopDriving, activeOrderId⟩ := context
  cases scope <;> exact ⟨rfl, rfl⟩

theorem VirtualAgvAdapter.Informs.replaceStitched {adapter : VirtualAgvAdapter}
    (informs : Informs options adapter)
    (updated : Option Node) : Informs options (adapter.replaceStitched updated) := by
  cases updated with
  | none => exact informs
  | some updated =>
      refine ⟨informs.numbered.replaceStitched _, informs.tells.trans (.of_same rfl rfl),
        informs.forward, fun active member => ?_, informs.told⟩
      obtain ⟨asm, known, rfl⟩ := List.mem_map.mp member
      obtain ⟨previous, held, rfl⟩ := List.mem_map.mp known
      obtain ⟨executable, defined⟩ := informs.checks _ (List.mem_map_of_mem held)
      obtain ⟨action, kind⟩ := previous.actionContext.replaceNode_spec updated
      exact ⟨(isActionExecutable_congr action kind).trans executable,
        (getActionDefinition_congr action kind).trans defined⟩

/-- A plain call makes the controller invoke nothing. -/
private theorem Config.perform_of_isPlain {call : ControllerCall} {event : Event}
    (plain : call.isPlain = true) (performs : call.performs event = true) (c : Config) :
    SameHandlers c (c.perform event) ∧
      ((c.perform event).stack = c.stack ∨ (c.perform event).stack = []) := by
  have updates : ∀ newState reportImmediately,
      SameHandlers c (c.updatePartialState newState reportImmediately) ∧
        (c.updatePartialState newState reportImmediately).stack = c.stack := by
    intro newState reportImmediately
    refine ⟨updatePartialState_sameHandlers c newState reportImmediately, ?_⟩
    simp only [updatePartialState]
    rw [updateState_eq]
  have updated : ∀ newState reportImmediately,
      SameHandlers c (c.perform (.updatePartialState newState reportImmediately)) ∧
        ((c.perform (.updatePartialState newState reportImmediately)).stack = c.stack ∨
          (c.perform (.updatePartialState newState reportImmediately)).stack = []) :=
    fun newState reportImmediately => ⟨(updates _ _).1, .inl (updates _ _).2⟩
  unfold ControllerCall.performs at performs
  split at performs
  case h_5 =>
    refine ⟨updateErrors_sameHandlers c _ _ _, ?_⟩
    simp only [perform, updateErrors]
    split
    · exact .inr rfl
    · exact .inl rfl
    · exact .inl (updates _ _).2
  case h_8 | h_9 | h_10 | h_11 => cases plain
  case h_12 => cases performs
  all_goals exact updated _ _

namespace AttachedAgv

variable {vehicle next : AttachedAgv} {limit : Nat}

/-! ## The vehicle in published States -/

/-- The controller knows the vehicle up to the calls left, and has published what it knew.
Handlers run to their end before anything else does. -/
structure Reports (options : VirtualAgvAdapterOptions) (vehicle : AttachedAgv) : Prop where
  informs : Informs options vehicle.adapter
  last : CallsBackLast vehicle.calls
  waits : vehicle.calls ≠ [] → ∀ frame ∈ vehicle.controller.stack.head?, frame = .adapter
  known : ∃ known : Telemetry, vehicle.controller.vehicleReport = known.report ∧
    replay Telemetry.update known vehicle.calls = vehicle.adapter.telemetry ∧
    AllAlong Telemetry.update (Telemetry.Sound options) known vehicle.calls
  published : ∀ state ∈ vehicle.controller.published, state.DescribesVehicle options

theorem Reports.attached (battery : HasBattery options) (limit : Nat) :
    Reports options (attached options limit) where
  informs := .attached options
  last := .of_plain (by simp [AttachedAgv.attached])
  waits unmade := absurd rfl unmade
  known := ⟨_, rfl, rfl, attached_sound battery⟩
  published := fun _ member => absurd member List.not_mem_nil

/-- Where no calls are left, the handler that the controller invokes makes its own. -/
theorem Reports.invoked (battery : HasBattery options) (roots : ∀ x, 0 ≤ math.sqrt x)
    {event : Event}
    (informs : Informs options
      (vehicle.adapter.replaceStitched (vehicle.controller.updatedNode event)))
    (statuses : HaveStatuses
      (vehicle.adapter.replaceStitched (vehicle.controller.updatedNode event)))
    (executable : ∀ context, .executeAction context ∈ (vehicle.controller.perform event).log →
      isActionExecutable context = true)
    (reported : (vehicle.controller.perform event).vehicleReport = vehicle.adapter.telemetry.report)
    (published : ∀ state ∈ (vehicle.controller.perform event).published,
      state.DescribesVehicle options) :
    Reports options (vehicle.invoked math options event [] (vehicle.controller.perform event)) := by
  obtain ⟨observations, ⟨log, -, -, -⟩, single⟩ := vehicle.controller.perform_invokes event
  rw [Config.settle_log] at log
  have observed : (vehicle.controller.perform event).log.drop vehicle.controller.log.length =
      observations := by rw [log, List.drop_left]
  have sound := informs.sound battery
  have telemetry : (vehicle.adapter.replaceStitched
      (vehicle.controller.updatedNode event)).telemetry = vehicle.adapter.telemetry := by
    cases vehicle.controller.updatedNode event <;> rfl
  unfold AttachedAgv.invoked
  simp only [observed, List.append_nil]
  rw [← invokeAll_filter]
  rcases single with none | ⟨invocation, single, top⟩
  · rw [none]
    simp only [invokeAll, List.foldl_nil, List.drop_length]
    exact ⟨informs, .of_plain (by simp), fun unmade => absurd rfl unmade,
      ⟨_, reported, telemetry.symm, telemetry ▸ sound⟩, published⟩
  · rw [single]
    simp only [invokeAll, List.foldl_cons, List.foldl_nil]
    have member : invocation ∈ observations :=
      (List.mem_filter.mp (single ▸ List.mem_singleton_self invocation)).1
    have covered : ∀ context, invocation = .executeAction context →
        isActionExecutable context = true := by
      intro context same
      refine executable context ?_
      rw [log, ← same]
      exact List.mem_append_right _ member
    obtain ⟨calls, tells⟩ := invoke_stepTells battery roots informs statuses covered
    simp only [tells.grown, List.drop_left]
    refine ⟨tells.informs, tells.last, fun _ frame first => ?_,
      ⟨_, reported, telemetry ▸ tells.leads, telemetry ▸ tells.along sound⟩, published⟩
    exact (Option.some.inj (top.symm.trans first)).symm

private theorem enabled_answeredBy (c : Config) (event : Event) (answers : AdapterAnswers) :
    c.enabled (event.answeredBy answers) = c.enabled event := by
  cases event <;> rfl

/-- No calls are left when the controller acts on its own. -/
private theorem Reports.calls_of_mayAct (reports : Reports options vehicle) {event : Event}
    (may : vehicle.mayAct event = true) (enabled : vehicle.controller.enabled event = true) :
    vehicle.calls = [] := by
  by_cases proceeds : event = .proceed
  · subst proceeds
    by_contra unmade
    simp only [mayAct, Bool.or_eq_true, List.isEmpty_iff, unmade, false_or,
      decide_eq_true_eq] at may
    cases stack : vehicle.controller.stack with
    | nil => simp [Config.enabled, stack] at enabled
    | cons frame frames =>
        refine may ?_
        rw [stack, reports.waits unmade frame (by simp [stack])]
        rfl
  · have waits : vehicle.mayAct event =
        (event.isOwn && vehicle.calls.isEmpty && vehicle.adapter.ongoingTick.isNone) := by
      cases event <;> first | rfl | exact absurd rfl proceeds
    rw [waits, Bool.and_eq_true, Bool.and_eq_true, List.isEmpty_iff] at may
    exact may.1.2

theorem Reports.step (reports : Reports options vehicle) (battery : HasBattery options)
    (roots : ∀ x, 0 ≤ math.sqrt x) (kept : Kept math tolerances limit vehicle)
    {event : AttachedAgvEvent} (forward : event.IsForward)
    (executable : ∀ context, .executeAction context ∈ next.controller.log →
      isActionExecutable context = true)
    (stepped : step math options tolerances vehicle event = some next) :
    Reports options next := by
  obtain ⟨known, reported, leads, along⟩ := reports.known
  unfold AttachedAgv.step at stepped
  split at stepped
  · cases stepped
  cases event with
  | controller event =>
      dsimp only at stepped
      split at stepped
      · next may =>
        split at stepped
        · obtain rfl := Option.some.inj stepped
          exact ⟨reports.informs, reports.last, reports.waits, reports.known, reports.published⟩
        · have own : (event.answeredBy (vehicle.adapter.answers math tolerances)).suppliedState =
              {} := by
            refine VirtualAgv.suppliedState_of_isOwn ?_
            rw [isOwn_answeredBy]
            exact isOwn_of_mayAct may
          have statuses := (kept.settle_own may (vehicle.adapter.answers math tolerances)).statuses
          obtain ⟨controller, performed, rfl⟩ := Option.map_eq_some_iff.mp stepped
          obtain ⟨enabled, rfl⟩ := Config.step_eq_some.mp performed
          have idle := reports.calls_of_mayAct may (by rwa [enabled_answeredBy] at enabled)
          rw [idle] at leads along executable ⊢
          obtain rfl : known = vehicle.adapter.telemetry := leads
          obtain ⟨reported, published⟩ := Config.perform_describesVehicle reported
            (own ▸ VehicleReport.supply_empty _) along along reports.published
          exact .invoked battery roots (reports.informs.replaceStitched _) statuses executable
            reported published
      · cases stepped
  | callback event =>
      dsimp only at stepped
      cases pending : vehicle.calls with
      | nil => simp [pending] at stepped
      | cons call calls =>
          simp only [pending] at stepped
          split at stepped
          · next performs =>
            rw [pending] at leads along
            obtain ⟨controller, performed, rfl⟩ := Option.map_eq_some_iff.mp stepped
            obtain ⟨-, rfl⟩ := Config.step_eq_some.mp performed
            obtain ⟨sound, rest⟩ := along
            obtain ⟨reported, published⟩ := Config.perform_describesVehicle reported
              (supply_of_performs performs known) sound rest.start reports.published
            have unchanged : vehicle.controller.updatedNode event = none :=
              Owes.updatedNode_of_performs performs
            cases calls with
            | nil =>
                obtain leads : known.update call = vehicle.adapter.telemetry := leads
                rw [leads] at reported
                refine .invoked battery roots ?_ ?_ executable reported published
                · rw [unchanged]
                  exact reports.informs
                · rw [unchanged]
                  exact kept.owes.statuses
            | cons later calls =>
                -- what calls back comes last, so that this call leads to no other ones
                have plain : call.isPlain = true := by
                  refine reports.last call ?_
                  rw [pending]
                  exact List.mem_cons_self
                obtain ⟨same, stack⟩ :=
                  Config.perform_of_isPlain plain performs vehicle.controller
                have observed : (vehicle.controller.perform event).log.drop
                    vehicle.controller.log.length = [] := by
                  rw [same.log, List.drop_length]
                unfold AttachedAgv.invoked
                rw [observed, unchanged]
                simp only [VirtualAgvAdapter.replaceStitched, invokeAll, List.foldl_nil,
                  List.drop_length, List.nil_append]
                refine ⟨reports.informs, fun other member => reports.last other ?_,
                  fun _ frame first => ?_, ⟨_, reported, leads, rest⟩, published⟩
                · rw [pending]
                  exact List.mem_cons_of_mem _ member
                · rcases stack with same | empty
                  · exact reports.waits (by simp [pending]) frame (same ▸ first)
                  · simp [empty] at first
          · cases stepped
  | tick event =>
      dsimp only at stepped
      split at stepped
      · next ticks =>
        obtain ⟨adapter, ticked, rfl⟩ := Option.map_eq_some_iff.mp stepped
        simp only [Bool.and_eq_true, List.isEmpty_iff] at ticks
        obtain ⟨⟨isTick, made⟩, idle⟩ := ticks
        rw [made] at leads along
        obtain rfl : known = vehicle.adapter.telemetry := leads
        have orderly : IsOrderly event := by
          cases event with
          | onTick realInterval => exact forward
          | proceed inputs => trivial
          | _ => cases isTick
        obtain ⟨calls, tells⟩ := step_stepTells battery roots reports.informs kept.owes.statuses
          orderly ticked
        have made' : adapter.calls.drop vehicle.adapter.calls.length = calls := by
          rw [tells.grown, List.drop_left]
        refine ⟨tells.informs, ?_, fun _ frame first => ?_, ⟨_, reported, ?_, ?_⟩,
          reports.published⟩
        · exact made' ▸ tells.last
        · have empty : vehicle.controller.stack = [] := by
            simpa [Config.isIdle] using (Bool.and_eq_true_iff.mp idle).2
          simp [empty] at first
        · exact made' ▸ tells.leads
        · exact made' ▸ tells.along along
      · cases stepped

/-- In every run of the closed loop each State published describes a vehicle that drives neither
paused nor charging, with a charge and a reach that agree, and the controller knows the vehicle
once all calls have been made. Every status an action reaches is told. -/
theorem states_describeVehicle (battery : HasBattery options) (roots : ∀ x, 0 ≤ math.sqrt x)
    {events : List AttachedAgvEvent}
    (run : Run (step math options tolerances)
      (fun vehicle event => DistinctActions math tolerances vehicle event ∧ event.IsForward)
      (attached options limit) events vehicle) :
    (∀ state ∈ vehicle.controller.published, state.DescribesVehicle options) ∧
      (vehicle.calls = [] →
        vehicle.controller.vehicleReport = vehicle.adapter.telemetry.report) ∧
      ∀ observation ∈ vehicle.adapter.history, observation.IsTold vehicle.adapter.calls := by
  have reports : Reports options vehicle := by
    refine run.invariant (Reports options) (.attached battery limit) ?_
    intro events vehicle event next run reports permitted stepped
    have past : AttachedAgvRun math options tolerances limit events vehicle :=
      run.weaken fun _ _ permitted => permitted.1
    exact reports.step battery roots (kept_of_run past) permitted.2
      (fun context => executable_of_run (past.advance permitted.1 stepped)) stepped
  refine ⟨reports.published, fun made => ?_, reports.informs.told⟩
  obtain ⟨known, reported, leads, -⟩ := reports.known
  rw [made] at leads
  exact leads ▸ reported

theorem states_describeVehicle_drivenOrder :
    ∃ (events : List AttachedAgvEvent) (vehicle : AttachedAgv),
      AttachedAgvRun axisMath { speedOption := .vehicleSpeed 100 } {} 5 events vehicle ∧
      (∃ state ∈ vehicle.controller.published, state.driving = true) ∧
      ∀ state ∈ vehicle.controller.published,
        state.DescribesVehicle { speedOption := .vehicleSpeed 100 } := by
  have follows : (follow axisMath { speedOption := .vehicleSpeed 100 } {} 80
      (attached { speedOption := .vehicleSpeed 100 } 5)
      (.controller (.order drivenOrder {}) :: (ticked 1 0 ++ .controller .publishTimer ::
        ticked 1 0))).any (fun vehicle => vehicle.controller.published.any (·.driving)) = true := by
    decide +kernel
  obtain ⟨events, vehicle, run, passed, forward⟩ := exists_run_of_follow follows
  have described := states_describeVehicle (by constructor <;> norm_num) (fun x => by
    simp only [axisMath]
    exact Rat.natCast_nonneg) (run.restrict (forward ?_))
  · exact ⟨events, vehicle, run, by simpa using passed, described.1⟩
  · intro event member
    simp only [ticked, List.mem_cons, List.mem_append, List.mem_replicate] at member
    rcases member with rfl | (rfl | ⟨-, rfl⟩) | rfl | rfl | ⟨-, rfl⟩
    · exact True.intro
    · exact (zero_le_one : (0 : Rat) ≤ 1)
    · exact True.intro
    · exact True.intro
    · exact (zero_le_one : (0 : Rat) ≤ 1)
    · exact True.intro

end AttachedAgv

end Vda5050
