import Vda5050.VirtualAgvAdapter.ActiveActions

/-!
# Actions that stop the vehicle

The vehicle is stopped when an action that requires it is accepted, but an edge
traversal that is still going on makes it drive again. As long as this does not
happen the vehicle stands still until the action has ended.
-/

set_option autoImplicit false

namespace Vda5050

namespace VirtualAgvAdapter

/-- The action has been accepted, and reached neither `FINISHED` nor `FAILED`. -/
def IsUnfinished (adapter : VirtualAgvAdapter) (ref : Nat) (context : ActionContext) : Prop :=
  .accepts ref context ∈ adapter.history ∧
    ∀ reaching actionStatus currentLoad,
      .reaches ref reaching actionStatus currentLoad ∈ adapter.history →
      actionStatus.isEnded = false

/-- An edge traversal is not advanced by a vehicle that is ready to drive while
an action that stops the vehicle is active. -/
def KeepsStanding (options : VirtualAgvAdapterOptions) (adapter : VirtualAgvAdapter) :
    AdapterEvent → Prop
  | .proceed _ =>
      adapter.ongoingTick.map (·.phase) = some .traverse →
      adapter.isReadyToDrive options = true →
      ∀ active ∈ adapter.activeActions, active.context.stopDriving ≠ some true
  | _ => True

instance (options : VirtualAgvAdapterOptions) (adapter : VirtualAgvAdapter)
    (event : AdapterEvent) : Decidable (KeepsStanding options adapter event) :=
  match event with
  | .proceed _ =>
      inferInstanceAs (Decidable (adapter.ongoingTick.map (·.phase) = some .traverse →
        adapter.isReadyToDrive options = true →
        ∀ active ∈ adapter.activeActions, active.context.stopDriving ≠ some true))
  | .executeAction _ | .finishEdgeAction _ | .cancelAction _ | .traverseEdge _
  | .stopTraverse _ | .onTick _ => isTrue trivial

/-- Unfinished actions are active, and the vehicle stands still if one of the
active actions stops it. -/
structure Standing (adapter : VirtualAgvAdapter) : Prop where
  active : ∀ {ref context}, adapter.IsUnfinished ref context →
    ∃ definition, { ref, context, definition } ∈ adapter.activeActions
  stands : ∀ active ∈ adapter.activeActions, active.context.stopDriving = some true →
    adapter.vehicleState.isDriving = false

namespace Standing

variable {before after : VirtualAgvAdapter} {context : ActionContext}
  {definition : VirtualActionDefinition} {active : ActiveAction} {actionStatus : ActionStatus}
  {hasLoad : Bool}

private theorem not_driving {before after : Bool} (calm : after = true → before = true)
    (standing : before = false) : after = false := by
  cases after with
  | false => rfl
  | true => rw [calm rfl] at standing; cases standing

theorem keep (standing : Standing before) (kept : Keeps before after)
    (stands : ∀ active ∈ before.activeActions, active.context.stopDriving = some true →
      after.vehicleState.isDriving = false) : Standing after where
  active := by
    intro ref context unfinished
    rw [IsUnfinished, kept.history] at unfinished
    rw [kept.activeActions]
    exact standing.active unfinished
  stands := by
    rw [kept.activeActions]
    exact stands

theorem accept (standing : Standing before) (accepted : Accepts before context definition after) :
    Standing after where
  active := by
    intro ref other unfinished
    rw [IsUnfinished, accepted.history] at unfinished
    rw [accepted.activeActions]
    obtain ⟨accepting, ongoing⟩ := unfinished
    rw [List.mem_append, List.mem_singleton] at accepting
    cases accepting with
    | inl earlier =>
        have unfinished : before.IsUnfinished ref other :=
          ⟨earlier, fun reaching status load reached =>
            ongoing reaching status load (List.mem_append_left _ reached)⟩
        obtain ⟨known, member⟩ := standing.active unfinished
        exact ⟨known, List.mem_append_left _ member⟩
    | inr new =>
        cases new
        exact ⟨definition, List.mem_append_right _ (List.mem_singleton.mpr rfl)⟩
  stands := by
    intro active member stops
    rw [accepted.activeActions, List.mem_append, List.mem_singleton] at member
    cases member with
    | inl earlier =>
        exact not_driving accepted.isDriving (standing.stands active earlier stops)
    | inr new =>
        subst new
        exact accepted.stands stops

theorem reach (standing : Standing before)
    (reached : Reaches before active actionStatus hasLoad after) : Standing after where
  active := by
    intro ref other unfinished
    rw [IsUnfinished, reached.history] at unfinished
    obtain ⟨accepting, ongoing⟩ := unfinished
    have earlier : .accepts ref other ∈ before.history := by simpa using accepting
    have unfinished : before.IsUnfinished ref other :=
      ⟨earlier, fun reaching status load reached =>
        ongoing reaching status load (List.mem_append_left _ reached)⟩
    obtain ⟨known, member⟩ := standing.active unfinished
    refine ⟨known, ?_⟩
    rw [reached.activeActions]
    split
    · next ended =>
      rw [List.mem_filter]
      refine ⟨member, ?_⟩
      -- The action that has ended is not the unfinished one.
      rw [decide_eq_true_eq]
      rintro rfl
      have unended := ongoing active.context actionStatus before.vehicleState.currentLoad
        (List.mem_append_right _ (List.mem_singleton.mpr rfl))
      rw [ended] at unended
      cases unended
    · exact member
  stands := by
    intro other member stops
    have earlier := reached.sublist.subset member
    exact not_driving reached.isDriving (standing.stands other earlier stops)

end Standing

variable {math : MathLibrary} {options : VirtualAgvAdapterOptions} {adapter : VirtualAgvAdapter}

private theorem standing_of_run {events : List AdapterEvent}
    (run : AdapterRun math options (KeepsStanding options) events adapter) :
    Standing adapter := by
  refine actionInvariant Standing ?_ ?_ run
  · constructor
    · rintro ref context ⟨accepting, -⟩
      cases accepting
    · intro active member
      cases member
  · intro state event next _ standing permitted acted
    cases acted with
    | carries carried =>
        refine standing.keep carried.toKeeps ?_
        intro active member stops
        exact Standing.not_driving carried.isDriving (standing.stands active member stops)
    | accepts handedOver defined executable accepted => exact standing.accept accepted
    | drives proceeds ticking phase ready kept =>
        subst proceeds
        have unblocked := permitted (by simp [ticking, phase]) ready
        refine standing.keep kept ?_
        intro active member stops
        exact absurd stops (unblocked active member)
    | reaches proceeds ticking phase found ticked reached => exact standing.reach reached

/-- The vehicle stands still until an action that stops it has ended, in runs in
which no edge traversal is resumed meanwhile. -/
theorem not_isDriving_of_isUnfinished {events : List AdapterEvent}
    (run : AdapterRun math options (KeepsStanding options) events adapter)
    {ref : Nat} {context : ActionContext} (unfinished : adapter.IsUnfinished ref context)
    (stops : context.stopDriving = some true) : adapter.vehicleState.isDriving = false := by
  have standing := standing_of_run run
  obtain ⟨definition, member⟩ := standing.active unfinished
  exact standing.stands _ member stops

/-! ## A resumed edge traversal -/

/-- Exact for positions on the x axis whose distances are whole numbers. -/
def axisMath : MathLibrary where
  sqrt square := ((List.range 101).find? fun (n : Nat) => (n : Rat) * n = square).getD 0
  cos _ := 1
  sin _ := 0
  atan2 _ _ := 0
  toNumber _ := none
  numberText _ := "0"

def axisNode (sequenceId : Nat) (x : Rat) : Node where
  nodeId := "n"
  sequenceId := sequenceId
  released := true
  actions := []
  nodePosition := some { x, y := 0, mapId := "local" }

def axisEdge : Edge where
  edgeId := "e"
  sequenceId := 1
  released := true
  startNodeId := "n"
  endNodeId := "n"
  actions := []

/-- An edge of ten meters. -/
def axisTraversal : TraverseEdgeContext where
  edge := axisEdge
  startNode := some (axisNode 0 0)
  endNode := some (axisNode 2 10)
  trajectory := none

def noop (blockingType : BlockingType) : Action where
  actionId := "action"
  actionType := "noop"
  blockingType := blockingType

/-- An instant action that stops the vehicle. -/
def stoppingNoop : ActionContext where
  action := noop .hard
  scope := .instant
  stopDriving := some true

/-- The ticks of an adapter with the given number of active actions. -/
def wholeTick (machines : Nat) : List AdapterEvent :=
  .onTick (1 / 5) :: List.replicate (machines + 3) (.proceed {})

/-- The vehicle drives, accepts the action, and stands still. -/
theorem stands_of_stoppingNoop :
    ∃ adapter,
      AdapterRun axisMath {} (KeepsStanding {})
        ((.traverseEdge axisTraversal :: wholeTick 0) ++ [.executeAction stoppingNoop]) adapter ∧
      adapter.IsUnfinished 0 stoppingNoop ∧ adapter.vehicleState.isDriving = false := by
  obtain ⟨adapter, run, passed⟩ := AdapterRun.exists_of_execute axisMath {}
    (KeepsStanding {}) ((.traverseEdge axisTraversal :: wholeTick 0) ++ [.executeAction stoppingNoop])
    (fun adapter => decide (adapter.history = [.accepts 0 stoppingNoop])) (by decide)
  rw [decide_eq_true_eq] at passed
  have unfinished : adapter.IsUnfinished 0 stoppingNoop := by simp [IsUnfinished, passed]
  exact ⟨adapter, run, unfinished, not_isDriving_of_isUnfinished run unfinished rfl⟩

/-- The next tick makes the vehicle drive on while the action is running. -/
theorem drives_despite_stoppingNoop :
    ∃ adapter,
      AdapterRun axisMath {} (fun _ _ => True)
        ((.traverseEdge axisTraversal :: wholeTick 0) ++
          .executeAction stoppingNoop :: wholeTick 1) adapter ∧
      adapter.IsUnfinished 0 stoppingNoop ∧ stoppingNoop.stopDriving = some true ∧
      adapter.vehicleState.isDriving = true := by
  obtain ⟨adapter, run, passed⟩ := AdapterRun.exists_of_execute axisMath {}
    (fun _ _ => True) ((.traverseEdge axisTraversal :: wholeTick 0) ++
      .executeAction stoppingNoop :: wholeTick 1)
    (fun adapter => adapter.vehicleState.isDriving &&
      decide (adapter.history =
        [.accepts 0 stoppingNoop, .reaches 0 stoppingNoop .running none])) (by decide)
  rw [Bool.and_eq_true, decide_eq_true_eq] at passed
  obtain ⟨driving, history⟩ := passed
  refine ⟨adapter, run, ?_, rfl, driving⟩
  constructor
  · simp [history]
  · intro reaching actionStatus currentLoad reached
    simp only [history, List.mem_cons, List.not_mem_nil, or_false] at reached
    rcases reached with accepted | reached
    · cases accepted
    · cases reached
      rfl

end VirtualAgvAdapter

end Vda5050
