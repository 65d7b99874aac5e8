import Vda5050.AgvController.Position
import Vda5050.AgvController.Upkeep

/-!
# Action lists of nodes and edges

Node and edge actions are scheduled by the same rules. What happens to the
action list of one owner is told apart from everything else the controller
does by what its methods leave alone.
-/

set_option autoImplicit false

namespace Vda5050

open AgvController

/-- The node or edge an action list belongs to. -/
inductive ActionOwner where
  | node (node : Node)
  | edge (edge : Edge)
  deriving DecidableEq, Repr

namespace ActionOwner

def actions : ActionOwner → List Action
  | .node owner => owner.actions
  | .edge owner => owner.actions

def scope : ActionOwner → ActionScope
  | .node owner => .node owner
  | .edge owner => .edge owner

/-- The call that executes an action of the list. -/
def frame : ActionOwner → Action → Bool → Frame
  | .node owner, action, stopDriving => .processNodeAction owner action stopDriving
  | .edge owner, action, stopDriving => .processEdgeAction owner action stopDriving

end ActionOwner

def ActionScope.owner : ActionScope → Option ActionOwner
  | .instant => none
  | .node owner => some (.node owner)
  | .edge owner => some (.edge owner)

def Frame.owner : Frame → Option ActionOwner
  | .processNodeAction node _ _ => some (.node node)
  | .processEdgeAction edge _ _ => some (.edge edge)
  | _ => none

@[simp] theorem ActionOwner.owner_scope (owner : ActionOwner) : owner.scope.owner = some owner := by
  cases owner <;> rfl

@[simp] theorem ActionOwner.owner_frame (owner : ActionOwner) (action : Action)
    (stopDriving : Bool) : (owner.frame action stopDriving).owner = some owner := by
  cases owner <;> rfl

namespace Config

/-- `_processNodeActions` and `_processEdgeActions` -/
def processActions (c : Config) : ActionOwner → Option Action → Config
  | .node node, afterAction => c.processNodeActions node afterAction
  | .edge edge, afterAction => c.processEdgeActions edge afterAction

/-- What follows the action list: the trailing edge of a node is processed, an
edge is traversed. -/
def drive (c : Config) : ActionOwner → Config
  | .node node => c.processEdge node
  | .edge edge => c.traverseEdge edge

/-- The branches of `_updateActionStatus` for ended node and edge actions. -/
def actionEnded (c : Config) : ActionOwner → Action → Config
  | .node node, action => c.nodeActionEnded node action
  | .edge edge, action => c.edgeActionEnded edge action

theorem processActions_eq (c : Config) (owner : ActionOwner) (afterAction : Option Action) :
    c.processActions owner afterAction =
      match scheduleAfter owner.actions afterAction with
      | .processed => c.drive owner
      | .hard action => c.call [owner.frame action true]
      | .parallel actions stopDriving => c.call (actions.map (owner.frame · stopDriving)) := by
  cases owner <;> rfl

theorem actionEnded_eq (c : Config) (owner : ActionOwner) (action : Action) :
    c.actionEnded owner action =
      match c.agv.continuation owner.actions action with
      | .processActions => c.processActions owner (some action)
      | .executeHard nextHardAction => c.call [owner.frame nextHardAction true]
      | .drive => c.drive owner
      | .wait => c := by
  cases owner <;> rfl

theorem resume_frame (c : Config) (owner : ActionOwner) (action : Action) (stopDriving : Bool) :
    c.resume (owner.frame action stopDriving) =
      c.executeOrderAction action owner.scope stopDriving := by
  cases owner <;> rfl

end Config

/-! ## What is left alone -/

/-- The action lists nobody else proceeds with, the actions nobody else reports
on, the edges nobody else starts to traverse, and whether nobody else completes
the cancelation of the order. -/
structure Reserve where
  lists : ActionOwner → Prop := fun _ => False
  actions : String → Prop := fun _ => False
  edges : Edge → Prop := fun _ => False
  order : Prop := False

def Reserve.Permits (reserve : Reserve) : Observation → Prop
  | .executeAction context => ∀ owner ∈ context.scope.owner, ¬ reserve.lists owner
  | .traverseEdge context => ¬ reserve.edges context.edge
  | .stopped .. => ¬ reserve.order
  | _ => True

/-- Between two configurations nothing has happened to what is reserved. -/
structure Leaves (reserve : Reserve) (c next : Config) : Prop where
  stack : next.crashed = false → c.crashed = false ∧ ∃ frames, next.stack = frames ++ c.stack ∧
    ∀ frame ∈ frames, ∀ owner ∈ frame.owner, ¬ reserve.lists owner
  executing : ∀ context, (∃ owner ∈ context.scope.owner, reserve.lists owner) →
    next.executing.count context = c.executing.count context
  log : ∃ observations, next.log = c.log ++ observations ∧
    ∀ observation ∈ observations, reserve.Permits observation
  actionStates : ∀ id, reserve.actions id →
    next.agv.currentState.actionStates.find? (·.actionId = id) =
      c.agv.currentState.actionStates.find? (·.actionId = id)
  currentOrder : next.agv.currentOrder = c.agv.currentOrder
  canceling : (∃ id, reserve.actions id) → c.agv.cancelOrderContext = none →
    next.agv.cancelOrderContext = none
  received : c.received ≤ next.received

namespace Leaves

variable {reserve : Reserve} {c middle next : Config}

theorem of_same (stack : next.stack = c.stack) (crashed : next.crashed = c.crashed)
    (executing : next.executing = c.executing) (log : next.log = c.log)
    (actionStates : next.agv.currentState.actionStates = c.agv.currentState.actionStates)
    (currentOrder : next.agv.currentOrder = c.agv.currentOrder)
    (canceling : next.agv.cancelOrderContext = c.agv.cancelOrderContext)
    (received : c.received ≤ next.received) : Leaves reserve c next where
  stack running := ⟨crashed ▸ running, [], stack, by simp⟩
  executing context _ := by rw [executing]
  log := ⟨[], by simp [log], by simp⟩
  actionStates id _ := by rw [actionStates]
  currentOrder := currentOrder
  canceling _ none := canceling.trans none
  received := received

theorem refl (c : Config) : Leaves reserve c c := of_same rfl rfl rfl rfl rfl rfl rfl le_rfl

theorem trans (first : Leaves reserve c middle) (second : Leaves reserve middle next) :
    Leaves reserve c next where
  stack running := by
    obtain ⟨running, frames', stack', others'⟩ := second.stack running
    obtain ⟨running, frames, stack, others⟩ := first.stack running
    refine ⟨running, frames' ++ frames, by rw [stack', stack, List.append_assoc], ?_⟩
    intro frame member
    rcases List.mem_append.mp member with member | member
    · exact others' frame member
    · exact others frame member
  executing context reserved :=
    (second.executing context reserved).trans (first.executing context reserved)
  log := by
    obtain ⟨observations, log, permitted⟩ := first.log
    obtain ⟨observations', log', permitted'⟩ := second.log
    refine ⟨observations ++ observations', by rw [log', log, List.append_assoc], ?_⟩
    intro observation member
    rcases List.mem_append.mp member with member | member
    · exact permitted observation member
    · exact permitted' observation member
  actionStates id kept := (second.actionStates id kept).trans (first.actionStates id kept)
  currentOrder := second.currentOrder.trans first.currentOrder
  canceling reserved none := second.canceling reserved (first.canceling reserved none)
  received := first.received.trans second.received

theorem throwTypeError (c : Config) : Leaves reserve c c.throwTypeError where
  stack running := by cases running
  executing _ _ := rfl
  log := ⟨[], by simp [Config.throwTypeError], by simp⟩
  actionStates _ _ := rfl
  currentOrder := rfl
  canceling _ none := none
  received := le_rfl

theorem call (c : Config) {frames : List Frame}
    (others : ∀ frame ∈ frames, ∀ owner ∈ frame.owner, ¬ reserve.lists owner) :
    Leaves reserve c (c.call frames) where
  stack running := ⟨running, frames, rfl, others⟩
  executing _ _ := rfl
  log := ⟨[], by simp [Config.call], by simp⟩
  actionStates _ _ := rfl
  currentOrder := rfl
  canceling _ none := none
  received := le_rfl

/-- Calls that belong to no action list. -/
private theorem call_none (c : Config) {frames : List Frame}
    (none : ∀ frame ∈ frames, frame.owner = none) :
    Leaves reserve c (c.call frames) :=
  call c fun frame member owner found => by
    rw [none frame member] at found
    cases found

theorem observe (c : Config) {observation : Observation} (permitted : reserve.Permits observation) :
    Leaves reserve c (c.observe observation) where
  stack running := ⟨running, [], rfl, by simp⟩
  executing _ _ := rfl
  log := ⟨[observation], rfl, fun other member => List.mem_singleton.mp member ▸ permitted⟩
  actionStates _ _ := rfl
  currentOrder := rfl
  canceling _ none := none
  received := le_rfl

/-- An action is handed over to the adapter. -/
theorem execute (c : Config) {context : ActionContext}
    (other : ∀ owner ∈ context.scope.owner, ¬ reserve.lists owner) :
    Leaves reserve c
      (({ c with executing := context :: c.executing }.observe (.executeAction context)).call
        [.adapter]) where
  stack running := ⟨running, [.adapter], rfl, by simp [Frame.owner]⟩
  executing reservedContext reserved := by
    obtain ⟨owner, found, reserved⟩ := reserved
    have different : context ≠ reservedContext := by
      rintro rfl
      exact other owner found reserved
    exact List.count_cons_of_ne different
  log := ⟨[.executeAction context], rfl, fun observation member =>
    List.mem_singleton.mp member ▸ other⟩
  actionStates _ _ := rfl
  currentOrder := rfl
  canceling _ none := none
  received := le_rfl

end Leaves

namespace Config

variable (c : Config) {reserve : Reserve}

private theorem updateState_leaves {state : PartialState} (kept : state.actionStates = none)
    (publishImmediately : Bool) :
    Leaves reserve c (c.updateState state publishImmediately) := by
  apply Leaves.of_same
  · exact updateState_stack c state publishImmediately
  · exact updateState_crashed c state publishImmediately
  · exact updateState_executing c state publishImmediately
  · exact updateState_log c state publishImmediately
  · simp [State.merge, kept]
  · simp
  · simp
  · simp

private theorem publishCurrentState_leaves : Leaves reserve c c.publishCurrentState := by
  apply Leaves.of_same <;> simp

private theorem addError_leaves (error : Error) : Leaves reserve c (c.addError error) := by
  refine Leaves.trans ?_ (updateState_leaves _ rfl true)
  exact .of_same rfl rfl rfl rfl rfl rfl rfl le_rfl

private theorem addInstantActionError_leaves (error : Error) :
    Leaves reserve c (c.addInstantActionError error) := by
  refine Leaves.trans ?_ (addError_leaves _ error)
  exact .of_same rfl rfl rfl rfl rfl rfl rfl le_rfl

private theorem rejectOrder_leaves (error : Error) : Leaves reserve c (c.rejectOrder error) :=
  (addError_leaves c error).trans (.observe _ trivial)

/-! ### Nodes and edges -/

/-- What follows an action list is not reserved. -/
def Spares (reserve : Reserve) (c : Config) : ActionOwner → Prop
  | .node node => ∀ order, c.agv.currentOrder = some order →
      ∀ edge, getTrailingEdge order node = some edge →
        ¬ reserve.lists (.edge edge) ∧ ¬ reserve.edges edge
  | .edge edge => ¬ reserve.edges edge

theorem Spares.of_same {c next : Config} (same : next.agv.currentOrder = c.agv.currentOrder)
    {owner : ActionOwner} (spares : Spares reserve c owner) : Spares reserve next owner := by
  cases owner with
  | edge edge => exact spares
  | node node =>
      intro order current
      exact spares order (same ▸ current)

private theorem traverseEdge_leaves {edge : Edge} (still : ¬ reserve.edges edge) :
    Leaves reserve c (c.traverseEdge edge) := by
  unfold traverseEdge
  cases c.agv.currentOrder with
  | none => exact .throwTypeError c
  | some order =>
      refine Leaves.trans ?_ (Leaves.call_none _ (by simp [Frame.owner]))
      refine Leaves.trans ?_ (Leaves.observe _ still)
      exact .of_same rfl rfl rfl rfl rfl rfl rfl le_rfl

/-- The calls of a list that is not reserved. -/
private theorem schedule_leaves {owner : ActionOwner} (other : ¬ reserve.lists owner)
    (afterAction : Option Action) (driven : Leaves reserve c (c.drive owner)) :
    Leaves reserve c (c.processActions owner afterAction) := by
  rw [processActions_eq]
  cases scheduleAfter owner.actions afterAction with
  | processed => exact driven
  | hard action =>
      apply Leaves.call
      intro frame member
      rw [List.mem_singleton.mp member, ActionOwner.owner_frame]
      intro owner' found
      obtain rfl := Option.some.inj found
      exact other
  | parallel actions stopDriving =>
      apply Leaves.call
      intro frame member
      obtain ⟨action, -, rfl⟩ := List.mem_map.mp member
      rw [ActionOwner.owner_frame]
      intro owner' found
      obtain rfl := Option.some.inj found
      exact other

private theorem processEdgeActions_leaves {edge : Edge} (other : ¬ reserve.lists (.edge edge))
    (still : ¬ reserve.edges edge) (afterAction : Option Action) :
    Leaves reserve c (c.processEdgeActions edge afterAction) := by
  have driven : Leaves reserve c (c.drive (.edge edge)) := traverseEdge_leaves c still
  exact schedule_leaves c other afterAction driven

theorem drive_leaves {owner : ActionOwner} (spares : Spares reserve c owner) :
    Leaves reserve c (c.drive owner) := by
  cases owner with
  | edge edge => exact traverseEdge_leaves c spares
  | node node =>
      simp only [drive, processEdge]
      cases current : c.agv.currentOrder with
      | none => exact .throwTypeError c
      | some order =>
          dsimp only
          cases found : getTrailingEdge order node with
          | none => exact .refl c
          | some edge =>
              dsimp only
              obtain ⟨other, still⟩ := spares order current edge found
              split
              · exact processEdgeActions_leaves c other still none
              · exact .refl c

private theorem processActions_leaves {owner : ActionOwner} (other : ¬ reserve.lists owner)
    (spares : Spares reserve c owner) (afterAction : Option Action) :
    Leaves reserve c (c.processActions owner afterAction) :=
  schedule_leaves c other afterAction (drive_leaves c spares)

private theorem actionEnded_leaves {owner : ActionOwner} (other : ¬ reserve.lists owner)
    (spares : Spares reserve c owner) (action : Action) :
    Leaves reserve c (c.actionEnded owner action) := by
  rw [actionEnded_eq]
  cases c.agv.continuation owner.actions action with
  | processActions => exact processActions_leaves c other spares (some action)
  | drive => exact drive_leaves c spares
  | wait => exact .refl c
  | executeHard nextHardAction =>
      apply Leaves.call
      intro frame member
      rw [List.mem_singleton.mp member, ActionOwner.owner_frame]
      intro owner' found
      obtain rfl := Option.some.inj found
      exact other

private theorem processNodeActions_leaves {node : Node} (other : ¬ reserve.lists (.node node))
    (spares : Spares reserve c (.node node)) (afterAction : Option Action) :
    Leaves reserve c (c.processNodeActions node afterAction) :=
  processActions_leaves c other spares afterAction

private theorem nodeTraversed_leaves {node : Node} (other : ¬ reserve.lists (.node node))
    (spares : Spares reserve c (.node node)) (traversedEdge : Option Edge) :
    Leaves reserve c (c.nodeTraversed node traversedEdge) := by
  unfold nodeTraversed
  dsimp only
  refine Leaves.trans ?_ (processNodeActions_leaves _ other ?_ none)
  · exact (updateState_leaves c rfl true).trans (.observe _ trivial)
  · exact spares.of_same (by simp [observe])

theorem processNode_leaves {node : Node} (other : ¬ reserve.lists (.node node))
    (spares : Spares reserve c (.node node)) (traversedEdge : Option Edge) :
    Leaves reserve c (c.processNode node traversedEdge) := by
  unfold processNode
  split
  · exact .refl c
  · split
    · exact .of_same rfl rfl rfl rfl rfl rfl rfl le_rfl
    · cases traversedEdge with
      | none => exact nodeTraversed_leaves c other spares none
      | some edge => exact .call_none c (by simp [Frame.owner])

private theorem executeOrderAction_leaves {scope : ActionScope}
    (other : ∀ owner ∈ scope.owner, ¬ reserve.lists owner) (action : Action) (stopDriving : Bool) :
    Leaves reserve c (c.executeOrderAction action scope stopDriving) := by
  unfold executeOrderAction
  cases c.agv.currentOrder with
  | none => exact .throwTypeError c
  | some order => exact .execute c other

private theorem finishEdgeAction_leaves (edge : Edge) (action : Action) (actions : List Action) :
    Leaves reserve c (c.finishEdgeAction edge action actions) := by
  unfold finishEdgeAction
  split
  · exact .call_none c (by simp [Frame.owner])
  · cases c.agv.currentOrder with
    | none => exact .throwTypeError c
    | some order =>
        refine Leaves.trans ?_ (Leaves.call_none _ (by simp [Frame.owner]))
        exact .observe c trivial

/-! ### Reports of actions -/

private theorem onOrderActionsCanceled_leaves : Leaves reserve c c.onOrderActionsCanceled := by
  unfold onOrderActionsCanceled
  refine Leaves.trans ?_ (Leaves.call_none _ (by simp [Frame.owner]))
  refine Leaves.trans ?_ (Leaves.observe _ trivial)
  exact .of_same rfl rfl rfl rfl rfl rfl rfl le_rfl

private theorem orderActionCanceled_leaves : Leaves reserve c c.orderActionCanceled := by
  unfold orderActionCanceled
  cases c.agv.currentOrder with
  | none => exact .throwTypeError c
  | some order =>
      dsimp only
      split
      · exact onOrderActionsCanceled_leaves c
      · exact .refl c

private theorem instantActionEnded_leaves (action : Action) :
    Leaves reserve c (c.instantActionEnded action) := by
  obtain ⟨frames, same, kinds⟩ := instantActionEnded_eq c action
  rw [same]
  refine Leaves.trans ?_ (Leaves.call_none _ ?_)
  · exact .of_same rfl rfl rfl rfl rfl rfl rfl le_rfl
  · intro frame member
    rcases kinds frame member with rfl | ⟨next, rfl⟩ <;> rfl

theorem reportActionStatus_actionStates {context : ActionContext} {change : ActionStatusChangeInfo}
    (vehicle : change.linkedState.actionStates = none) :
    (c.reportActionStatus context change).agv.currentState.actionStates =
      newActionStates c.agv.currentState.actionStates (newActionState context change) := by
  simp only [reportActionStatus, observe, updateState_agv]
  rw [cloneState_fst]
  simp [State.merge, PartialState.assign, vehicle]

/-- The states of other actions are left alone. -/
private theorem reportActionStatus_leaves {context : ActionContext}
    {change : ActionStatusChangeInfo} (other : ¬ reserve.actions context.action.actionId)
    (vehicle : ∀ id, reserve.actions id → change.linkedState.actionStates = none) :
    Leaves reserve c (c.reportActionStatus context change) where
  stack running := ⟨by simpa using running, [], by simp, by simp⟩
  executing _ _ := by rw [reportActionStatus_executing]
  log := ⟨[.actionStatus context change.actionStatus], by simp, by simp [Reserve.Permits]⟩
  actionStates id kept := by
    rw [reportActionStatus_actionStates c (vehicle id kept)]
    apply find?_newActionStates_of_ne
    rintro rfl
    exact other kept
  currentOrder := congrArg Position.currentOrder (reportActionStatus_position c context change)
  canceling _ none := by
    simp only [reportActionStatus, observe, updateState_agv]
    rw [cloneState_snd]
    exact none
  received := by simp

/-- Neither the list of an action nor what follows it is reserved. -/
def SparesScope (reserve : Reserve) (c : Config) (scope : ActionScope) : Prop :=
  ∀ owner ∈ scope.owner, ¬ reserve.lists owner ∧ Spares reserve c owner

theorem SparesScope.of_same {c next : Config} (same : next.agv.currentOrder = c.agv.currentOrder)
    {scope : ActionScope} (spares : SparesScope reserve c scope) : SparesScope reserve next scope :=
  fun owner found => ⟨(spares owner found).1, (spares owner found).2.of_same same⟩

theorem updateActionStatus_leaves {context : ActionContext} {change : ActionStatusChangeInfo}
    (other : ¬ reserve.actions context.action.actionId)
    (vehicle : ∀ id, reserve.actions id → change.linkedState.actionStates = none)
    (spares : SparesScope reserve c context.scope) :
    Leaves reserve c (c.updateActionStatus context change) := by
  have reported := reportActionStatus_leaves c other vehicle
  unfold updateActionStatus
  dsimp only
  split
  · exact reported
  · refine reported.trans ?_
    cases scope : context.scope with
    | instant => exact instantActionEnded_leaves _ _
    | node node =>
        obtain ⟨notReserved, spares⟩ := spares (.node node) (by rw [scope]; rfl)
        dsimp only
        split
        · exact orderActionCanceled_leaves _
        · have spares := spares.of_same reported.currentOrder
          exact actionEnded_leaves _ notReserved spares _
    | edge edge =>
        obtain ⟨notReserved, spares⟩ := spares (.edge edge) (by rw [scope]; rfl)
        dsimp only
        split
        · exact orderActionCanceled_leaves _
        · have spares := spares.of_same reported.currentOrder
          exact actionEnded_leaves _ notReserved spares _

/-! ### Instant actions -/

/-- The instant action is not a reserved one, and does not cancel those. -/
def SparesInstant (reserve : Reserve) (action : Action) : Prop :=
  ¬ reserve.actions action.actionId ∧
    (action.actionType = "cancelOrder" → ∀ id, ¬ reserve.actions id)

private theorem cancelOrder_leaves {context : ActionContext} (instant : context.scope = .instant)
    (none : ∀ id, ¬ reserve.actions id) : Leaves reserve c (c.cancelOrder context) := by
  unfold cancelOrder
  dsimp only
  refine Leaves.trans ?_ (Leaves.call_none _ (by simp [Frame.owner]))
  have spares : ∀ c : Config, SparesScope reserve c context.scope := by
    intro c owner found
    rw [instant] at found
    cases found
  refine Leaves.trans ?_ (updateActionStatus_leaves _ (none _) (fun _ _ => rfl) (spares _))
  have observed : Leaves reserve c
      (c.observe (.cancelOrder context c.agv.hasActiveOrder c.agv.hasCancelingOrder)) :=
    .observe c trivial
  refine observed.trans ?_
  exact
    { stack := fun running => ⟨running, [], rfl, by simp⟩
      executing := fun _ _ => rfl
      log := ⟨[], by simp [startCancelation], by simp⟩
      actionStates := fun id kept => absurd kept (none id)
      currentOrder := rfl
      canceling := fun ⟨id, kept⟩ => absurd kept (none id)
      received := le_rfl }

private theorem processInstantAction_leaves {action : Option Action} (stopDriving : Bool)
    (spares : ∀ a ∈ action, SparesInstant reserve a) :
    Leaves reserve c (c.processInstantAction action stopDriving) := by
  unfold processInstantAction
  have observed : Leaves reserve c (c.observe (.instantActionProcessed action)) :=
    .observe c trivial
  cases action with
  | none => exact observed.trans (.throwTypeError _)
  | some action =>
      obtain ⟨other, canceling⟩ := spares action rfl
      have counted : Leaves reserve c
          ((c.observe (.instantActionProcessed (some action))).resetEndedPublishCount action) :=
        observed.trans (.of_same rfl rfl rfl rfl rfl rfl rfl le_rfl)
      have instant : ∀ c : Config, SparesScope reserve c .instant := by
        intro c owner found
        cases found
      dsimp only
      split
      · exact observed.trans (.throwTypeError _)
      split
      · exact counted.trans (updateActionStatus_leaves _ other (fun _ _ => rfl) (instant _))
      · split
        · next cancelOrder =>
          exact counted.trans (cancelOrder_leaves _ rfl (canceling cancelOrder))
        · refine counted.trans (Leaves.execute _ ?_)
          intro owner found
          cases found

private theorem processInstantActionChunk_leaves (afterAction : Option Action)
    (skipInitialHard : Bool) :
    Leaves reserve c (c.processInstantActionChunk afterAction skipInitialHard) := by
  unfold processInstantActionChunk
  dsimp only
  split
  · split
    · exact .call_none c (by simp [Frame.owner])
    · exact .refl c
  · exact .call_none c (by simp [Frame.owner])

private theorem acceptInstantActions_leaves (adapter : AdapterAnswers) (actions : List Action) :
    Leaves reserve c (c.acceptInstantActions adapter actions) := by
  induction actions generalizing c with
  | nil => exact .refl c
  | cons action actions ih =>
      unfold acceptInstantActions
      split
      · refine Leaves.trans ?_ (ih _)
        exact (addInstantActionError_leaves c _).trans (.observe _ trivial)
      · refine Leaves.trans ?_ (ih _)
        refine Leaves.trans ?_ (Leaves.observe _ trivial)
        exact .of_same rfl rfl rfl rfl rfl rfl rfl le_rfl

private theorem processInstantActions_leaves (message : InstantActions) (adapter : AdapterAnswers) :
    Leaves reserve c (c.processInstantActions message adapter) := by
  unfold processInstantActions
  have accepted : Leaves reserve c (c.acceptInstantActions adapter message.actions) :=
    acceptInstantActions_leaves c adapter message.actions
  dsimp only
  split
  · exact .throwTypeError c
  split
  · exact accepted
  · exact accepted.trans (.call_none _ (by simp [Frame.owner]))

private theorem cancelOrderAction_leaves (state : ActionState) (states : List ActionState)
    (hasActionsToBeCanceled : Bool) :
    Leaves reserve c (c.cancelOrderAction state states hasActionsToBeCanceled) := by
  unfold cancelOrderAction
  split
  · cases c.agv.currentOrder with
    | none => exact .throwTypeError c
    | some order =>
        refine Leaves.trans ?_ (Leaves.call_none _ (by simp [Frame.owner]))
        exact .observe c trivial
  · exact .call_none c (by simp [Frame.owner])

/-! ### Steps -/

private theorem resumePausedNode_leaves
    (spares : ∀ node, c.agv.currentPausedNode = some node →
      ¬ reserve.lists (.node node) ∧ Spares reserve c (.node node)) :
    Leaves reserve c c.resumePausedNode := by
  unfold resumePausedNode
  cases parked : c.agv.currentPausedNode with
  | none => exact .refl c
  | some pausedNode =>
      obtain ⟨other, spares⟩ := spares pausedNode parked
      have cleared : Leaves reserve c
          { c with agv := { c.agv with currentPausedNode := none } } :=
        .of_same rfl rfl rfl rfl rfl rfl rfl le_rfl
      dsimp only
      split
      · exact cleared
      · refine cleared.trans (processNode_leaves _ other ?_ none)
        exact spares

/-- The call has nothing to do with what is reserved. -/
def FrameSpares (reserve : Reserve) (c : Config) : Frame → Prop
  | .processNodeAction node _ _ => ¬ reserve.lists (.node node)
  | .processEdgeAction edge _ _ => ¬ reserve.lists (.edge edge)
  | .nodeTraversed node _ => ¬ reserve.lists (.node node) ∧ Spares reserve c (.node node)
  | .resumePausedNode => ∀ node, c.agv.currentPausedNode = some node →
      ¬ reserve.lists (.node node) ∧ Spares reserve c (.node node)
  | .processInstantAction action _ => ∀ a ∈ action, SparesInstant reserve a
  | .processInstantActions i _ _ => ∀ a ∈ c.agv.currentInstantActions[i]?, SparesInstant reserve a
  | _ => True

private theorem resume_leaves {frame : Frame} (spares : FrameSpares reserve c frame) :
    Leaves reserve c (c.resume frame) := by
  cases frame with
  | adapter => exact .refl c
  | finishEdgeActions edge actions =>
      cases actions with
      | nil => exact .refl c
      | cons action actions => exact finishEdgeAction_leaves c edge action actions
  | nodeTraversed node traversedEdge => exact nodeTraversed_leaves c spares.1 spares.2 traversedEdge
  | processNodeAction node action stopDriving =>
      apply executeOrderAction_leaves
      rintro owner ⟨⟩
      exact spares
  | processEdgeAction edge action stopDriving =>
      apply executeOrderAction_leaves
      rintro owner ⟨⟩
      exact spares
  | cancelOrderActions states hasActionsToBeCanceled =>
      cases states with
      | nil =>
          cases hasActionsToBeCanceled with
          | true => exact .refl c
          | false => exact onOrderActionsCanceled_leaves c
      | cons state states => exact cancelOrderAction_leaves c state states _
  | processInstantActionChunk afterAction skipInitialHard =>
      exact processInstantActionChunk_leaves c afterAction skipInitialHard
  | processInstantActions i stopIndex stopDriving =>
      simp only [resume]
      split
      · exact (Leaves.call_none c (by simp [Frame.owner])).trans
          (processInstantAction_leaves _ stopDriving spares)
      · exact .refl c
  | processInstantAction action stopDriving =>
      exact processInstantAction_leaves c stopDriving spares
  | resumePausedNode => exact resumePausedNode_leaves c spares

/-! ### Events -/

/-- The event has nothing to do with what is reserved. -/
def Disregards (reserve : Reserve) (c : Config) : Event → Prop
  | .proceed => ∀ frame ∈ c.stack.head?, FrameSpares reserve c frame
  | .order order adapter =>
      ∀ mode, c.agv.decideOrder adapter (allocateNodes c.received order) ≠ .accept mode
  | .updateActionStatus context change =>
      ¬ reserve.actions context.action.actionId ∧
        (∀ id, reserve.actions id → change.linkedState.actionStates = none) ∧
        SparesScope reserve c context.scope
  | .edgeTraversed context =>
      ∀ endNode ∈ context.endNode, SparesScope reserve c (.node endNode)
  | .stopped _ =>
      ¬ reserve.order ∧ ∀ context ∈ c.agv.cancelOrderContext,
        ¬ reserve.actions context.action.actionId ∧ SparesScope reserve c context.scope
  | .updatePartialState newState _ => ∀ id, reserve.actions id → newState.actionStates = none
  | .published _ => ∀ id ∈ c.removedInstantActions, ¬ reserve.actions id
  | _ => True

private theorem proceed_leaves {frame : Frame} {stack : List Frame} (top : c.stack = frame :: stack)
    (spares : FrameSpares reserve c frame) :
    Leaves reserve { c with stack := stack } c.proceed := by
  simp only [proceed, top]
  apply resume_leaves
  cases frame <;> exact spares

private theorem processOrder_leaves {order : Order} {adapter : AdapterAnswers}
    (notAccepted : ∀ mode,
      c.agv.decideOrder adapter (allocateNodes c.received order) ≠ .accept mode) :
    Leaves reserve c (c.processOrder order adapter) := by
  have counted : Leaves reserve c { c with received := c.received + 1 } :=
    .of_same rfl rfl rfl rfl rfl rfl rfl (Nat.le_succ _)
  refine counted.trans ?_
  unfold processOrder
  dsimp only
  split
  · exact rejectOrder_leaves _ _
  · exact (updateState_leaves _ rfl true).trans (.observe _ trivial)
  · next mode decided => exact absurd decided (notAccepted mode)

private theorem updatePartialState_leaves {newState : PartialState}
    (kept : ∀ id, reserve.actions id → newState.actionStates = none) (reportImmediately : Bool) :
    Leaves reserve c (c.updatePartialState newState reportImmediately) where
  stack running := ⟨by simpa [updatePartialState] using running, [], by simp [updatePartialState],
    by simp⟩
  executing _ _ := by simp [updatePartialState]
  log := ⟨[], by simp [updatePartialState], by simp⟩
  actionStates id reserved := by
    simp only [updatePartialState, updateState_agv]
    rw [cloneState_fst, cloneState_snd]
    simp [State.merge, kept id reserved]
  currentOrder := congrArg Position.currentOrder (updatePartialState_position c newState _)
  canceling _ none := by
    simp only [updatePartialState, updateState_agv]
    rw [cloneState_snd]
    exact none
  received := by simp [updatePartialState]

private theorem updateErrors_leaves (error : Error) (mode : UpdateMode) (reportImmediately : Bool) :
    Leaves reserve c (c.updateErrors error mode reportImmediately) := by
  unfold updateErrors
  split
  · exact .throwTypeError c
  · exact .refl c
  · exact updatePartialState_leaves c (fun _ _ => rfl) reportImmediately

private theorem cleanupInstantActionStates_leaves
    (others : ∀ id ∈ c.removedInstantActions, ¬ reserve.actions id) :
    Leaves reserve c c.cleanupInstantActionStates where
  stack running := ⟨running, [], rfl, by simp⟩
  executing _ _ := rfl
  log := ⟨[], by simp [cleanupInstantActionStates], by simp⟩
  actionStates id reserved := by
    rw [(cleanupInstantActionStates_upkeep c).actionStates, List.find?_filter]
    congr 1
    funext state
    by_cases same : state.actionId = id
    · have remains : id ∉ c.removedInstantActions := fun removed => others id removed reserved
      simp [same, remains]
    · simp [same]
  currentOrder := rfl
  canceling _ none := none
  received := le_rfl

private theorem stopped_leaves {context : StopTraverseContext} (notReserved : ¬ reserve.order)
    (others : ∀ context ∈ c.agv.cancelOrderContext,
      ¬ reserve.actions context.action.actionId ∧ SparesScope reserve c context.scope) :
    Leaves reserve c (c.stopped context) := by
  have observed : Leaves reserve c (c.observe (.stopped context c.agv.cancelOrderContext)) :=
    .observe c notReserved
  have ended : Leaves reserve c
      { c.observe (.stopped context c.agv.cancelOrderContext) with
        agv := { c.agv with cancelOrderContext := none } } :=
    { observed with canceling := fun _ _ => rfl }
  have cleared : Leaves reserve c
      (({ c.observe (.stopped context c.agv.cancelOrderContext) with
        agv := { c.agv with cancelOrderContext := none } } : Config).updateState
          { nodeStates := some [], edgeStates := some [] } false) :=
    ended.trans (updateState_leaves _ rfl false)
  unfold stopped
  dsimp only
  cases canceled : c.agv.cancelOrderContext with
  | none =>
      rw [canceled] at cleared
      exact cleared.trans (.throwTypeError _)
  | some cancelOrderContext =>
      obtain ⟨other, spares⟩ := others cancelOrderContext canceled
      rw [canceled] at cleared
      refine cleared.trans (updateActionStatus_leaves _ other (fun _ _ => rfl) ?_)
      exact spares.of_same cleared.currentOrder

private theorem adapterReports_leaves {context : ActionContext} {change : ActionStatusChangeInfo}
    (other : ¬ reserve.actions context.action.actionId)
    (vehicle : ∀ id, reserve.actions id → change.linkedState.actionStates = none)
    (spares : SparesScope reserve c context.scope) :
    Leaves reserve c (c.adapterReports context change) := by
  have erased : Leaves reserve c
      { c with
        executing :=
          if change.actionStatus.isEnded then c.executing.erase context else c.executing } :=
    { Leaves.refl c with
      executing := by
        rintro reserved ⟨owner, found, reservedOwner⟩
        dsimp only
        split
        · refine List.count_erase_of_ne ?_
          rintro rfl
          exact (spares owner found).1 reservedOwner
        · rfl }
  unfold adapterReports updateActionStatusCallback
  dsimp only
  split
  · refine Leaves.trans ?_ (updateActionStatus_leaves _ other vehicle spares)
    exact erased.trans (.call_none _ (by simp [Frame.owner]))
  · exact erased.trans (updateActionStatus_leaves _ other vehicle spares)

private theorem updateEdgeTraversed_leaves {context : TraverseEdgeContext}
    (spares : ∀ endNode ∈ context.endNode, SparesScope reserve c (.node endNode)) :
    Leaves reserve c (c.updateEdgeTraversed context) := by
  unfold updateEdgeTraversed
  split
  · exact .refl c
  · cases arrived : context.endNode with
    | none => exact .throwTypeError c
    | some endNode =>
        obtain ⟨other, spares⟩ := spares endNode arrived (.node endNode) rfl
        exact processNode_leaves c other spares (some context.edge)

/-- The calls still to be made after an event. -/
def remainingStack (c : Config) : Event → List Frame
  | .proceed => c.stack.tail
  | _ => c.stack

theorem perform_leaves {event : Event} (disregards : Disregards reserve c event) :
    Leaves reserve { c with stack := c.remainingStack event } (c.perform event) := by
  cases event with
  | proceed =>
      simp only [remainingStack]
      cases top : c.stack with
      | nil =>
          simp only [perform, proceed, top]
          exact .of_same top rfl rfl rfl rfl rfl rfl le_rfl
      | cons frame stack => exact proceed_leaves c top (disregards frame (by rw [top]; rfl))
  | order order adapter => exact processOrder_leaves c disregards
  | invalidOrder payload message =>
      simp only [perform, processInvalidOrder]
      split
      · exact .throwTypeError c
      · exact rejectOrder_leaves c _
  | instantActions message adapter => exact processInstantActions_leaves c message adapter
  | invalidInstantActions payload message =>
      simp only [perform, processInvalidInstantActions]
      split
      · exact .throwTypeError c
      · exact addInstantActionError_leaves c _
  | updateActionStatus context change =>
      exact adapterReports_leaves c disregards.1 disregards.2.1 disregards.2.2
  | edgeTraversed context =>
      refine Leaves.trans ?_ (updateEdgeTraversed_leaves _ disregards)
      refine Leaves.trans ?_ (.observe _ trivial)
      exact .of_same rfl rfl rfl rfl rfl rfl rfl le_rfl
  | stopped context =>
      refine Leaves.trans ?_ (stopped_leaves _ disregards.1 disregards.2)
      exact .of_same rfl rfl rfl rfl rfl rfl rfl le_rfl
  | drivingToNextNode nextNode =>
      simp only [perform, drivingToNextNode]
      exact updateState_leaves c rfl true
  | updatePartialState newState reportImmediately =>
      exact updatePartialState_leaves c disregards reportImmediately
  | updateErrors error mode reportImmediately =>
      exact updateErrors_leaves c error mode reportImmediately
  | publishTimer => exact publishCurrentState_leaves c
  | published succeeded =>
      have counted : Leaves reserve c { c with inFlight := c.inFlight - 1 } :=
        .of_same rfl rfl rfl rfl rfl rfl rfl le_rfl
      cases succeeded with
      | false => exact counted
      | true => exact counted.trans (cleanupInstantActionStates_leaves _ disregards)
  | connection online =>
      simp only [perform]
      split
      · refine Leaves.trans ?_ (publishCurrentState_leaves _)
        exact .of_same rfl rfl rfl rfl rfl rfl rfl le_rfl
      · exact .of_same rfl rfl rfl rfl rfl rfl rfl le_rfl

end Config

end Vda5050
