import Vda5050.AgvController.ParkedNode
import Vda5050.Library.Completion

/-!
# Arrivals while paused

A node at which the vehicle arrives while paused is parked and processed when
an instant action `stopPause` has finished. The results of this resumption are
compared with those of an arrival that happens at this time.
-/

set_option autoImplicit false

namespace Vda5050

open AgvController Library

/-! ## Executions of the controller -/

/-- An order action or an edge is handed over to the adapter. -/
def Observation.isHandOver : Observation → Bool
  | .executeAction _ | .traverseEdge _ => true
  | _ => false

def Frame.isHandOver : Frame → Bool
  | .adapter | .processNodeAction .. | .processEdgeAction .. => true
  | _ => false

namespace Config

variable {c next d : Config} {adapter : Config → Event} {rest : List Frame}

/-- The controller makes the calls in front of the given ones. Whenever
control is inside a handler the adapter decides what to do, where `proceed`
returns from the handler. -/
def continued (adapter : Config → Event) (rest : List Frame) (c : Config) : Option Config :=
  if c.stack = rest then none
  else if c.stack.head? = some .adapter then some ((c.step (adapter c)).getD c.proceed)
  else some c.proceed

/-- The calls of the adapter and the reports made since a given configuration. -/
def callsSince (start c : Config) : List Observation := c.log.drop start.log.length

private theorem call_pending (frame : Frame) (frames : List Frame) :
    (c.call (frame :: frames)).stack ≠ c.stack := by
  intro same
  have lengths := congrArg List.length same
  simp only [call, List.length_append, List.length_cons] at lengths
  omega

private theorem continued_call (adapter : Config → Event) (frame : Frame) (frames : List Frame)
    (controller : frame ≠ .adapter) :
    (c.call (frame :: frames)).continued adapter c.stack = some ((c.call frames).resume frame) := by
  have outside : (c.call (frame :: frames)).stack.head? ≠ some .adapter := by
    simpa [call] using controller
  simp only [continued, if_neg (call_pending frame frames), if_neg outside]
  rfl

/-- An adapter that returns from every handler at once. -/
def returning : Config → Event := fun _ => .proceed

private theorem continued_returning (pending : c.stack ≠ rest) :
    c.continued returning rest = some c.proceed := by
  unfold continued returning
  rw [if_neg pending]
  split
  next inside =>
      have enabled : c.enabled .proceed := by
        cases top : c.stack with
        | nil => simp [top] at inside
        | cons frame stack => simp [enabled, top]
      have stepped : c.step .proceed = some c.proceed := step_eq_some.mpr ⟨enabled, rfl⟩
      rw [stepped]
      rfl
  next => rfl

private theorem completes_returning_log (completes : Completes (continued returning rest) c next) :
    c.log <+: next.log := by
  refine completes.related (fun c next : Config => c.log <+: next.log)
    (fun _ => List.prefix_rfl) (fun first second => first.trans second) ?_
  · intro c middle stepped
    by_cases pending : c.stack = rest
    · simp [continued, pending] at stepped
    · obtain rfl := Option.some.inj ((continued_returning pending).symm.trans stepped)
      obtain ⟨observations, log, -⟩ := proceed_quiet c
      exact log ▸ List.prefix_append _ _

end Config

/-! ## Calls handed over to the adapter -/

/-- Only order actions and edges are, or remain to be, handed over. -/
structure HandsOver (c next : Config) : Prop where
  agv : next.agv = c.agv
  log : ∃ observations, next.log = c.log ++ observations ∧
    ∀ observation ∈ observations, observation.isHandOver
  stack : ∃ frames, next.stack = frames ++ c.stack ∧ ∀ frame ∈ frames, frame.isHandOver

namespace HandsOver

variable {c : Config}

theorem refl (c : Config) : HandsOver c c :=
  ⟨rfl, ⟨[], by simp, by simp⟩, ⟨[], rfl, by simp⟩⟩

theorem call (c : Config) {frames : List Frame} (handOvers : ∀ frame ∈ frames, frame.isHandOver) :
    HandsOver c (c.call frames) :=
  ⟨rfl, ⟨[], by simp [Config.call], by simp⟩, ⟨frames, rfl, handOvers⟩⟩

theorem traverseEdge (ordered : c.agv.currentOrder.isSome) (edge : Edge) :
    HandsOver c (c.traverseEdge edge) := by
  obtain ⟨order, current⟩ := Option.isSome_iff_exists.mp ordered
  unfold Config.traverseEdge
  simp only [current]
  exact ⟨rfl, ⟨[_], rfl, by simp [Observation.isHandOver]⟩,
    ⟨[.adapter], rfl, by simp [Frame.isHandOver]⟩⟩

theorem processEdgeActions (ordered : c.agv.currentOrder.isSome) (edge : Edge)
    (afterAction : Option Action) : HandsOver c (c.processEdgeActions edge afterAction) := by
  unfold Config.processEdgeActions
  split
  · exact traverseEdge ordered edge
  · exact call c (by simp [Frame.isHandOver])
  · exact call c (by simp [Frame.isHandOver])

theorem processEdge (ordered : c.agv.currentOrder.isSome) (node : Node) :
    HandsOver c (c.processEdge node) := by
  obtain ⟨order, current⟩ := Option.isSome_iff_exists.mp ordered
  unfold Config.processEdge
  simp only [current]
  split
  · exact refl c
  · split
    · exact processEdgeActions ordered _ none
    · exact refl c

theorem processNodeActions (ordered : c.agv.currentOrder.isSome) (node : Node)
    (afterAction : Option Action) : HandsOver c (c.processNodeActions node afterAction) := by
  unfold Config.processNodeActions
  split
  · exact processEdge ordered node
  · exact call c (by simp [Frame.isHandOver])
  · exact call c (by simp [Frame.isHandOver])

theorem executeOrderAction (ordered : c.agv.currentOrder.isSome) (action : Action)
    (scope : ActionScope) (stopDriving : Bool) :
    ∃ next : Config, c.executeOrderAction action scope stopDriving = next.call [.adapter] ∧
      next.agv = c.agv ∧ next.stack = c.stack ∧
      ∃ context, next.log = c.log ++ [.executeAction context] := by
  obtain ⟨order, current⟩ := Option.isSome_iff_exists.mp ordered
  unfold Config.executeOrderAction
  simp only [current]
  exact ⟨_, rfl, rfl, rfl, _, rfl⟩

end HandsOver

namespace Config

variable {c : Config} {rest : List Frame}

/-- The adapter returns from a handler. -/
private theorem proceed_adapter {stack : List Frame} (top : c.stack = .adapter :: stack) :
    c.proceed = { c with stack := stack } := by
  simp only [proceed, top, resume]

/-- What is handed over to a returning adapter is handed over completely. -/
private theorem completes_handOvers (frames : List Frame)
    (handOvers : ∀ frame ∈ frames, frame.isHandOver)
    (stack : c.stack = frames ++ rest) (ordered : c.agv.currentOrder.isSome) :
    ∃ finish, Completes (continued returning rest) c finish ∧ finish.agv = c.agv ∧
      ∃ observations, finish.log = c.log ++ observations ∧
        ∀ observation ∈ observations, observation.isHandOver := by
  induction frames generalizing c with
  | nil => exact ⟨c, .completed (if_pos stack), rfl, [], by simp, by simp⟩
  | cons frame frames ih =>
      have pending : c.stack ≠ rest := by
        intro same
        have lengths := congrArg List.length (stack.symm.trans same)
        simp only [List.length_append, List.length_cons] at lengths
        omega
      have later : ∀ frame ∈ frames, frame.isHandOver := fun frame member =>
        handOvers frame (List.mem_cons_of_mem _ member)
      have execution : ∀ action scope stopDriving,
          c.proceed = ({ c with stack := frames ++ rest } : Config).executeOrderAction action scope
            stopDriving →
          ∃ finish, Completes (continued returning rest) c finish ∧ finish.agv = c.agv ∧
            ∃ observations, finish.log = c.log ++ observations ∧
              ∀ observation ∈ observations, observation.isHandOver := by
        intro action scope stopDriving proceeds
        obtain ⟨next, executed, agv, kept, context, log⟩ :=
          HandsOver.executeOrderAction (c := { c with stack := frames ++ rest }) ordered action
            scope stopDriving
        have top : (next.call [.adapter]).stack = .adapter :: (frames ++ rest) := by
          simp [call, kept]
        have inside : (next.call [.adapter]).stack ≠ rest := by
          intro same
          have lengths := congrArg List.length (top.symm.trans same)
          simp only [List.length_append, List.length_cons] at lengths
          omega
        obtain ⟨finish, completes, agv', observations, log', permitted⟩ :=
          ih (c := { next.call [.adapter] with stack := frames ++ rest }) later rfl
            (by simpa [call, agv] using ordered)
        refine ⟨finish, .advance (continued_returning pending) ?_, agv'.trans agv,
          .executeAction context :: observations, ?_, ?_⟩
        · rw [proceeds, executed]
          refine .advance (continued_returning inside) ?_
          rw [proceed_adapter top]
          exact completes
        · rw [log']
          simp [call, log]
        · intro observation member
          rcases List.mem_cons.mp member with rfl | member
          · rfl
          · exact permitted observation member
      cases frame with
      | adapter =>
          obtain ⟨finish, completes, rest⟩ :=
            ih (c := { c with stack := frames ++ rest }) later rfl ordered
          refine ⟨finish, .advance (continued_returning pending) ?_, rest⟩
          rw [proceed_adapter stack]
          exact completes
      | processNodeAction node action stopDriving =>
          exact execution action (.node node) stopDriving (by simp only [proceed, stack]; rfl)
      | processEdgeAction edge action stopDriving =>
          exact execution action (.edge edge) stopDriving (by simp only [proceed, stack]; rfl)
      | _ =>
          have handOver := handOvers _ List.mem_cons_self
          simp [Frame.isHandOver] at handOver

end Config

/-! ## Arrivals -/

/-- The edge is reported as traversed and all its actions have ended. -/
def AgvController.isEdgeFinished (agv : AgvController) (edge : Edge) : Bool :=
  edge.actions.all agv.isActionEnded &&
    !agv.currentState.edgeStates.any fun state =>
      state.edgeId = edge.edgeId && state.sequenceId = edge.sequenceId

namespace Config

variable {c finish : Config} {rest : List Frame}

private theorem nodeTraversed_returning (stack : c.stack = rest)
    (ordered : c.agv.currentOrder.isSome) (node : Node) (traversedEdge : Option Edge) :
    ∃ finish, Completes (continued returning rest) (c.nodeTraversed node traversedEdge) finish ∧
      (finish.agv.currentState.edgeStates = match traversedEdge with
        | none => c.agv.currentState.edgeStates
        | some edge => c.agv.currentState.edgeStates.filter fun state =>
            !(state.edgeId = edge.edgeId && state.sequenceId = edge.sequenceId)) ∧
      ∃ observations, finish.log = c.log ++ observations ∧
        ∀ context, .finishEdgeAction context ∉ observations := by
  unfold nodeTraversed
  dsimp only
  generalize updated : Config.observe (c.updateState _ true) (.nodeTraversed node) = reported
  have agv : reported.agv.currentOrder.isSome := by simpa [← updated, observe] using ordered
  have kept : reported.stack = rest := by simpa [← updated, observe] using stack
  have log : reported.log = c.log ++ [.nodeTraversed node] := by simp [← updated, observe]
  obtain ⟨agv', ⟨handedOver, log', handOvers⟩, frames, stack', permitted⟩ :=
    HandsOver.processNodeActions agv node none
  obtain ⟨finish, completes, agv'', later, log'', handOvers'⟩ :=
    completes_handOvers frames permitted (stack'.trans (by rw [kept])) (agv' ▸ agv)
  refine ⟨finish, completes, ?_, .nodeTraversed node :: (handedOver ++ later), ?_, ?_⟩
  · rw [agv'', agv', ← updated]
    cases traversedEdge with
    | none => simp [observe, State.merge]
    | some edge => simp [observe, State.merge]
  · rw [log'', log', log]
    simp
  · intro context member
    rcases List.mem_cons.mp member with same | member
    · cases same
    · rcases List.mem_append.mp member with member | member
      · cases handOvers _ member
      · cases handOvers' _ member

/-- An edge that is gone from the states is not reported again. -/
private theorem nodeTraversed_finished {edge : Edge} (finished : c.agv.isEdgeFinished edge)
    (node : Node) :
    c.nodeTraversed node (some edge) = c.nodeTraversed node none := by
  have gone : c.agv.currentState.edgeStates.filter (fun state =>
      !(state.edgeId = edge.edgeId && state.sequenceId = edge.sequenceId)) =
        c.agv.currentState.edgeStates := by
    obtain ⟨-, gone⟩ := Bool.and_eq_true_iff.mp finished
    rw [Bool.not_eq_true', List.any_eq_false] at gone
    refine List.filter_eq_self.mpr fun state member => ?_
    rw [Bool.not_eq_true']
    exact Bool.eq_false_iff.mpr (gone state member)
  simp only [nodeTraversed, Option.map_some, Option.map_none, gone, updateState, mergeState,
    State.merge, Option.getD_some, Option.getD_none]

/-- Ended actions of a traversed edge are passed over. -/
private theorem completes_finishEdgeActions {adapter : Config → Event} (stack : c.stack = rest)
    (node : Node) (edge : Edge) {actions : List Action}
    (ended : ∀ action ∈ actions, c.agv.isActionEnded action) :
    Completes (continued adapter rest)
        (c.call [.finishEdgeActions edge actions, .nodeTraversed node (some edge)]) finish ↔
      Completes (continued adapter rest) (c.nodeTraversed node (some edge)) finish := by
  subst stack
  induction actions with
  | nil =>
      have first := continued_call (c := c) adapter (.finishEdgeActions edge [])
        [.nodeTraversed node (some edge)] (by simp)
      have second := continued_call (c := c) adapter (.nodeTraversed node (some edge)) []
        (by simp)
      exact (Completes.advance_iff first).trans (Completes.advance_iff second)
  | cons action actions ih =>
      have first := continued_call (c := c) adapter
        (.finishEdgeActions edge (action :: actions)) [.nodeTraversed node (some edge)]
        (by simp)
      have done : c.agv.isActionEnded action := ended action List.mem_cons_self
      have passed : (c.call [.nodeTraversed node (some edge)]).resume
          (.finishEdgeActions edge (action :: actions)) =
            c.call [.finishEdgeActions edge actions, .nodeTraversed node (some edge)] := by
        simp [call, resume, finishEdgeAction, done]
      rw [Completes.advance_iff first, passed]
      exact ih fun other member => ended other (List.mem_cons_of_mem _ member)

/-- The first action that has not ended is finished by the adapter. -/
private theorem finishEdgeAction_mem (stack : c.stack = rest) (ordered : c.agv.currentOrder.isSome)
    (node : Node) (edge : Edge) {actions : List Action}
    (running : ¬ ∀ action ∈ actions, c.agv.isActionEnded action)
    (completes : Completes (continued returning rest)
      (c.call [.finishEdgeActions edge actions, .nodeTraversed node (some edge)]) finish) :
    ∃ context, .finishEdgeAction context ∈ c.callsSince finish := by
  subst stack
  induction actions with
  | nil => exact absurd (by simp) running
  | cons action actions ih =>
      have first := continued_call (c := c) returning
        (.finishEdgeActions edge (action :: actions)) [.nodeTraversed node (some edge)] (by simp)
      rw [Completes.advance_iff first] at completes
      cases done : c.agv.isActionEnded action with
      | true =>
          have passed : (c.call [.nodeTraversed node (some edge)]).resume
              (.finishEdgeActions edge (action :: actions)) =
                c.call [.finishEdgeActions edge actions, .nodeTraversed node (some edge)] := by
            simp [call, resume, finishEdgeAction, done]
          rw [passed] at completes
          refine ih (fun ended => running ?_) completes
          intro other member
          rcases List.mem_cons.mp member with rfl | member
          · exact done
          · exact ended other member
      | false =>
          obtain ⟨order, current⟩ := Option.isSome_iff_exists.mp ordered
          obtain ⟨later, log⟩ := completes_returning_log completes
          let context : ActionContext :=
            { action := action, scope := .edge edge, activeOrderId := some order.orderId }
          have grown : finish.log = c.log ++ (.finishEdgeAction context :: later) := by
            have running : ¬ (c.call [.nodeTraversed node (some edge)]).agv.isActionEnded action :=
              Bool.eq_false_iff.mp done
            rw [← log]
            simp only [resume, finishEdgeAction, if_neg running]
            simp [call, current, observe, context]
          refine ⟨context, ?_⟩
          rw [callsSince, grown, List.drop_left]
          exact List.mem_cons_self

end Config

/-! ## The resumption of a parked node -/

namespace Config

/-- Nothing is parked, and no call is left that resumes a parked node. -/
def unparked (c : Config) (rest : List Frame) : Config :=
  { c with stack := rest, agv := { c.agv with currentPausedNode := none } }

/-- What two executions from a common start have to agree on. -/
structure SameResults (start c other : Config) : Prop where
  nodeStates : c.agv.currentState.nodeStates = other.agv.currentState.nodeStates
  edgeStates : c.agv.currentState.edgeStates = other.agv.currentState.edgeStates
  lastNodeId : c.agv.currentState.lastNodeId = other.agv.currentState.lastNodeId
  lastNodeSequenceId :
    c.agv.currentState.lastNodeSequenceId = other.agv.currentState.lastNodeSequenceId
  finished : ∀ context, .finishEdgeAction context ∈ start.callsSince c ↔
    .finishEdgeAction context ∈ start.callsSince other
  handedOver : (start.callsSince c).filter Observation.isHandOver =
    (start.callsSince other).filter Observation.isHandOver

theorem SameResults.refl (start c : Config) : SameResults start c c :=
  ⟨rfl, rfl, rfl, rfl, fun _ => Iff.rfl, rfl⟩

end Config

/-- The vehicle arrived at the node while paused, and the node is about to be
resumed: a `stopPause` has finished, the pause is over and no order is being
canceled. The calls behind the resumption are given. -/
structure Resumes (c : Config) (node : Node) (traversedEdge : Option Edge) (d : Config)
    (rest : List Frame) : Prop where
  released : node.released
  paused : c.agv.isPaused
  parked : d.agv.currentPausedNode = (c.processNode node traversedEdge).agv.currentPausedNode
  resuming : d.stack = .resumePausedNode :: rest
  active : d.agv.currentOrder.isSome
  unpaused : d.agv.isPaused = false
  notCanceled : d.agv.hasCancelingOrder = false

/-- However the adapter behaves, the resumption has the results of the same
arrival while not paused. -/
def Transparent (d : Config) (node : Node) (traversedEdge : Option Edge) (rest : List Frame) :
    Prop :=
  ∀ adapter : Config → Event,
    (∀ resumed, Completes (Config.continued adapter rest) d.proceed resumed →
      ∃ arrived, Completes (Config.continued adapter rest)
          ((d.unparked rest).processNode node traversedEdge) arrived ∧
        Config.SameResults d resumed arrived) ∧
    (∀ arrived, Completes (Config.continued adapter rest)
        ((d.unparked rest).processNode node traversedEdge) arrived →
      ∃ resumed, Completes (Config.continued adapter rest) d.proceed resumed ∧
        Config.SameResults d resumed arrived)

namespace Resumes

variable {c d : Config} {node : Node} {traversedEdge : Option Edge} {rest : List Frame}

private theorem proceed_eq (resumes : Resumes c node traversedEdge d rest) :
    d.proceed = (d.unparked rest).nodeTraversed node none := by
  have parked : d.agv.currentPausedNode = some node := by
    have parked := resumes.parked
    simpa [Config.processNode, resumes.released, resumes.paused] using parked
  have unpaused : (d.unparked rest).agv.isPaused = false := resumes.unpaused
  have notCanceled : (d.unparked rest).agv.hasCancelingOrder = false := resumes.notCanceled
  have resumed : d.proceed = (d.unparked rest).processNode node none := by
    simp only [Config.proceed, resumes.resuming, Config.resume, Config.resumePausedNode, parked]
    exact if_neg (Bool.eq_false_iff.mp notCanceled)
  simp [resumed, Config.processNode, resumes.released, unpaused]

private theorem arrival_none (resumes : Resumes c node none d rest) :
    (d.unparked rest).processNode node none = (d.unparked rest).nodeTraversed node none := by
  have unpaused : (d.unparked rest).agv.isPaused = false := resumes.unpaused
  simp [Config.processNode, resumes.released, unpaused]

private theorem arrival_some {edge : Edge} (resumes : Resumes c node (some edge) d rest) :
    (d.unparked rest).processNode node (some edge) = (d.unparked rest).call
      [.finishEdgeActions edge edge.actions, .nodeTraversed node (some edge)] := by
  have unpaused : (d.unparked rest).agv.isPaused = false := resumes.unpaused
  simp [Config.processNode, resumes.released, unpaused]

/-- The arrival proceeds like the resumption. -/
private theorem transparent (resumes : Resumes c node traversedEdge d rest)
    (finished : traversedEdge.all d.agv.isEdgeFinished) :
    Transparent d node traversedEdge rest := by
  intro adapter
  have same : ∀ finish, Completes (Config.continued adapter rest)
      ((d.unparked rest).processNode node traversedEdge) finish ↔
        Completes (Config.continued adapter rest) d.proceed finish := by
    intro finish
    cases traversedEdge with
    | none => rw [resumes.proceed_eq, resumes.arrival_none]
    | some edge =>
        have finished : (d.unparked rest).agv.isEdgeFinished edge := finished
        have ended : ∀ action ∈ edge.actions, (d.unparked rest).agv.isActionEnded action :=
          List.all_eq_true.mp (Bool.and_eq_true_iff.mp finished).1
        rw [resumes.proceed_eq, resumes.arrival_some, ← Config.nodeTraversed_finished finished node]
        exact Config.completes_finishEdgeActions rfl node edge ended
  constructor
  · intro finish completes
    exact ⟨finish, (same finish).mpr completes, .refl d finish⟩
  · intro finish completes
    exact ⟨finish, (same finish).mp completes, .refl d finish⟩

/-- The resumption neither finishes an action of the traversed edge nor
removes the state of the edge. -/
private theorem edgeFinished (resumes : Resumes c node traversedEdge d rest)
    (transparent : Transparent d node traversedEdge rest) :
    traversedEdge.all d.agv.isEdgeFinished := by
  cases traversedEdge with
  | none => rfl
  | some edge =>
      have active : (d.unparked rest).agv.currentOrder.isSome := resumes.active
      obtain ⟨resumed, completes, edgeStates, observations, log, unfinished⟩ :=
        Config.nodeTraversed_returning (c := d.unparked rest) rfl active node none
      rw [← resumes.proceed_eq] at completes
      obtain ⟨arrived, completes', same⟩ := (transparent Config.returning).1 resumed completes
      rw [resumes.arrival_some] at completes'
      have ended : ∀ action ∈ edge.actions, (d.unparked rest).agv.isActionEnded action := by
        by_contra running
        obtain ⟨context, found⟩ :=
          Config.finishEdgeAction_mem rfl active node edge running completes'
        have member := (same.finished context).mpr found
        rw [Config.callsSince, log] at member
        exact unfinished context (by simpa [Config.unparked] using member)
      have gone := same.edgeStates
      have completes' := (Config.completes_finishEdgeActions rfl node edge ended).mp completes'
      obtain ⟨finish, traversed, filtered, -⟩ :=
        Config.nodeTraversed_returning (c := d.unparked rest) rfl active node (some edge)
      rw [completes'.deterministic traversed, filtered, edgeStates] at gone
      have kept := List.filter_eq_self.mp gone.symm
      rw [Option.all_some, isEdgeFinished, Bool.and_eq_true_iff, Bool.not_eq_true',
        List.any_eq_false]
      refine ⟨List.all_eq_true.mpr ended, fun state member => ?_⟩
      have other := kept state member
      rw [Bool.not_eq_true'] at other
      exact Bool.eq_false_iff.mp other

end Resumes

/-- The node at the end of the edge of the first order. -/
def driveEnd : Node :=
  { ref := (0, 1), nodeId := "end", sequenceId := 2, released := true, actions := [] }

def stopPauseAction : Action :=
  { actionId := "resume", actionType := "stopPause", blockingType := .none }

/-- An instant action `stopPause` that ends the pause. -/
def pauseStopped : List Event :=
  [.instantActions { actions := [stopPauseAction] } {}, .proceed, .proceed, .proceed, .proceed,
    .updateActionStatus
      { action := stopPauseAction
        scope := .instant
        stopDriving := some false
        activeOrderId := some "order" }
      { actionStatus := .finished, linkedState := { paused := some false } }]

private theorem Resumes.of_pauseStopped :
    ∃ c d, ControllerRun (fun _ _ => True) 5 pausedArrival.dropLast c ∧
      ControllerRun (fun _ _ => True) 5 (pausedArrival ++ pauseStopped) d ∧
      Resumes c driveEnd (driveContext [] [] []).edge d [] ∧
      d.agv.isEdgeFinished (driveContext [] [] []).edge = false := by
  obtain ⟨c, before, paused⟩ := ControllerRun.exists_of_execute (fun _ _ => True) 5
    pausedArrival.dropLast (fun c => c.agv.isPaused) (by decide)
  obtain ⟨d, run, found⟩ := ControllerRun.exists_of_execute (fun _ _ => True) 5
    (pausedArrival ++ pauseStopped)
    (fun d => decide (d.agv.currentPausedNode = some driveEnd ∧ d.stack = [.resumePausedNode] ∧
      d.agv.currentOrder.isSome ∧ d.agv.isPaused = false ∧ d.agv.hasCancelingOrder = false ∧
      d.agv.isEdgeFinished (driveContext [] [] []).edge = false)) (by decide)
  obtain ⟨parked, resuming, active, unpaused, notCanceled, unfinished⟩ := of_decide_eq_true found
  refine ⟨c, d, before, run, ⟨rfl, paused, ?_, resuming, active, unpaused, notCanceled⟩, unfinished⟩
  simp [Config.processNode, driveEnd, paused, parked]

/-- A parked node is resumed as if the vehicle arrived at it now, except that
the edge it arrived on is neither finished nor reported as traversed. -/
theorem resumption_transparent_iff {c d : Config} {node : Node} {traversedEdge : Option Edge}
    {rest : List Frame} (resumes : Resumes c node traversedEdge d rest) :
    Transparent d node traversedEdge rest ↔ traversedEdge.all d.agv.isEdgeFinished :=
  ⟨resumes.edgeFinished, resumes.transparent⟩

/-- The state of the edge remains, and the edge is not finished. -/
theorem resumption_transparent_iff_of_pauseStopped :
    ∃ c d, ControllerRun (fun _ _ => True) 5 pausedArrival.dropLast c ∧
      ControllerRun (fun _ _ => True) 5 (pausedArrival ++ pauseStopped) d ∧
      (Transparent d driveEnd (driveContext [] [] []).edge [] ↔
        (some (driveContext [] [] []).edge).all d.agv.isEdgeFinished) := by
  obtain ⟨c, d, before, run, resumes, -⟩ := Resumes.of_pauseStopped
  exact ⟨c, d, before, run, resumption_transparent_iff resumes⟩

theorem not_transparent_of_pauseStopped :
    ∃ c d, ControllerRun (fun _ _ => True) 5 pausedArrival.dropLast c ∧
      ControllerRun (fun _ _ => True) 5 (pausedArrival ++ pauseStopped) d ∧
      Resumes c driveEnd (driveContext [] [] []).edge d [] ∧
      ¬ Transparent d driveEnd (driveContext [] [] []).edge [] := by
  obtain ⟨c, d, before, run, resumes, unfinished⟩ := Resumes.of_pauseStopped
  refine ⟨c, d, before, run, resumes, fun transparent => ?_⟩
  have finished := resumes.edgeFinished transparent
  rw [Option.all_some, unfinished] at finished
  cases finished

end Vda5050
