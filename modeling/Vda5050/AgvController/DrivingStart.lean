import Vda5050.AgvController.Blocking

/-!
# The start of driving behind an action list

When the trailing edge of a node is processed, or an edge is traversed, as a
matter of which actions of the list have ended.
-/

set_option autoImplicit false

namespace Vda5050

open AgvController

/-- The actions behind the last HARD one. -/
def lastRun (actions : List Action) : List Action := (batch actions.reverse).reverse

/-- The actions driving has to wait for have ended. -/
def DriveDue (agv : AgvController) (actions : List Action) : Prop :=
  (∀ action ∈ actions, isHard action → agv.isActionEnded action) ∧
    ∀ action ∈ lastRun actions, isSoft action → agv.isActionEnded action

/-- The last run of a list is such that its processing does not fail to start driving. -/
def DriveTriggered (agv : AgvController) (actions : List Action) : Prop :=
  lastRun actions = [] ∨ ∃ action ∈ lastRun actions, isSoft action ∨ agv.isActionEnded action

private theorem lastRun_append {before parallel : List Action}
    (soft : ∀ action ∈ parallel, isHard action = false)
    (barrier : ∀ action ∈ before.getLast?, isHard action) :
    lastRun (before ++ parallel) = parallel := by
  have reversed : ∀ action ∈ parallel.reverse, isHard action = false := fun action member =>
    soft action (List.mem_reverse.mp member)
  rw [lastRun, List.reverse_append, batch_append reversed,
    batch_of_head_isHard (head?_reverse_hard barrier), List.append_nil, List.reverse_reverse]

/-- What a list holds up is released when it is due and triggered. -/
private theorem Scheduled.releases_iff {owner : ActionOwner} {start c : Config} {agenda : Agenda}
    (scheduled : Scheduled owner start c agenda) :
    agenda.Releases c.agv ↔
      DriveDue c.agv owner.actions ∧ DriveTriggered c.agv owner.actions := by
  have split : owner.actions = agenda.before ++ agenda.current ++ agenda.behind := scheduled.split
  rcases scheduled.together with ⟨hardAction, hard, single⟩ | ⟨parallel, barrier, next⟩
  · -- a HARD action that has not ended
    have current : hardAction ∈ agenda.current := by simp [single]
    obtain ⟨action, member, going⟩ := scheduled.blocked (.inr ⟨hardAction, current, hard⟩)
    obtain rfl : action = hardAction := by simpa [single] using member
    constructor
    · rintro ⟨-, none | ⟨parallel, -, -⟩⟩
      · rw [none] at current
        cases current
      · have soft := parallel action current
        rw [hard] at soft
        cases soft
    · rintro ⟨⟨hards, -⟩, -⟩
      have ended := hards action (by simp [split, current]) hard
      rw [going] at ended
      cases ended
  · cases behind : agenda.behind with
    | cons nextHardAction rest =>
        have hard : isHard nextHardAction := next _ (by rw [behind]; rfl)
        have going := scheduled.waiting nextHardAction (by simp [behind])
        constructor
        · rintro ⟨none, -⟩
          rw [behind] at none
          cases none
        · rintro ⟨⟨hards, -⟩, -⟩
          have ended := hards nextHardAction (by simp [split, behind]) hard
          rw [going] at ended
          cases ended
    | nil =>
        rw [behind, List.append_nil] at split
        have last : lastRun owner.actions = agenda.current := by
          rw [split, lastRun_append parallel barrier]
        have hards : ∀ action ∈ owner.actions, isHard action → c.agv.isActionEnded action := by
          intro action member hard
          rw [split] at member
          rcases List.mem_append.mp member with before | current
          · exact scheduled.ended action before
          · rw [parallel action current] at hard
            cases hard
        rw [DriveDue, DriveTriggered, last]
        constructor
        · rintro ⟨-, none | ⟨-, ⟨action, member, ended⟩, softs⟩⟩
          · rw [none]
            exact ⟨⟨hards, fun action member => absurd member List.not_mem_nil⟩, .inl rfl⟩
          · exact ⟨⟨hards, softs⟩, .inr ⟨action, member, .inr ended⟩⟩
        · rintro ⟨⟨-, softs⟩, none | ⟨action, member, triggers⟩⟩
          · exact ⟨behind, .inl none⟩
          · refine ⟨behind, .inr ⟨parallel, ⟨action, member, ?_⟩, softs⟩⟩
            rcases triggers with soft | ended
            · exact softs action member soft
            · exact ended

/-! ## Driving -/

/-- The edge that is driven when the list is done: the released edge behind a
node, the edge itself otherwise. -/
def Follows (order : Order) : ActionOwner → Edge → Prop
  | .node node, edge => getTrailingEdge order node = some edge ∧ edge.released
  | .edge own, edge => own = edge

/-- The edge is traversed, or processed by executing its actions. The actions of
the list itself do not count. -/
def Observation.Drives (owner : ActionOwner) (edge : Edge) : Observation → Prop
  | .traverseEdge context => context.edge = edge
  | .executeAction context => owner ≠ .edge edge ∧ context.scope = .edge edge
  | _ => False

def Frame.Drives (owner : ActionOwner) (edge : Edge) (frame : Frame) : Prop :=
  owner ≠ .edge edge ∧ frame.owner = some (.edge edge)

/-- Behind a node the processing of its trailing edge has started, behind the
actions of an edge its traversal. -/
def Config.DrivenSince (c start : Config) (owner : ActionOwner) (edge : Edge) : Prop :=
  (∃ frame ∈ c.stack, frame.Drives owner edge) ∨
    ∃ observation ∈ c.log.drop start.log.length, observation.Drives owner edge

/-- The list, and what it holds up. -/
def ActionOwner.reserveEdge (owner : ActionOwner) (edge : Edge) : Reserve where
  lists other := other = owner ∨ other = .edge edge
  actions := (· ∈ actionIds owner.actions)
  edges := (· = edge)

/-- While a list is processed nothing else starts to drive what it holds up. -/
def AttendsEdge (owner : ActionOwner) (edge : Edge) (start c : Config) (event : Event) : Prop :=
  c.crashed = false ∧ (Concerns owner c event ∨
    Config.Disregards owner.reserve c event ∧
      (c.DrivenSince start owner edge ∨ Config.Disregards (owner.reserveEdge edge) c event))

private theorem Dispatches.attendsEdge {owner : ActionOwner} {edge : Edge} {start c : Config}
    {event : Event} (dispatches : Dispatches owner c event) :
    AttendsEdge owner edge start c event := by
  obtain ⟨running, concerns | ⟨proceed, adapter⟩⟩ := dispatches
  · exact ⟨running, .inl concerns⟩
  · cases event with
    | proceed =>
        have inert : ∀ reserve : Reserve, Config.Disregards reserve c .proceed := by
          intro reserve frame found
          rw [adapter] at found
          obtain rfl := Option.some.inj found
          trivial
        exact ⟨running, .inr ⟨inert _, .inr (inert _)⟩⟩
    | _ => cases proceed

section Driven

variable {owner : ActionOwner} {edge : Edge} {start c next : Config}

private theorem Config.drivenSince_append {observations : List Observation}
    (grown : start.log <+: c.log) (log : next.log = c.log ++ observations) :
    next.DrivenSince start owner edge ↔
      (∃ frame ∈ next.stack, frame.Drives owner edge) ∨
        (∃ observation ∈ c.log.drop start.log.length, observation.Drives owner edge) ∨
          ∃ observation ∈ observations, observation.Drives owner edge := by
  rw [DrivenSince, log, List.drop_append_of_le_length grown.length_le]
  simp only [List.mem_append, or_and_right, exists_or]

/-- Nothing but calls of the list is made. -/
private theorem Config.drivenSince_call {frames : List Frame}
    (own : ∀ frame ∈ frames, frame.owner = some owner) :
    (c.call frames).DrivenSince start owner edge ↔ c.DrivenSince start owner edge := by
  have none : ¬ ∃ frame ∈ frames, frame.Drives owner edge := by
    rintro ⟨frame, member, other, found⟩
    rw [own frame member] at found
    exact other (Option.some.inj found)
  have calls : (c.call frames).stack = frames ++ c.stack := rfl
  simp only [DrivenSince, calls, List.mem_append, or_and_right, exists_or, none, false_or]
  rfl

private theorem Config.drivenSince_reportExecuted (grown : start.log <+: c.log)
    (context : ActionContext) (change : ActionStatusChangeInfo) :
    (c.reportExecuted context change).DrivenSince start owner edge ↔
      c.DrivenSince start owner edge := by
  have log : (c.reportExecuted context change).log =
      c.log ++ [.actionStatus context change.actionStatus] := by simp [reportExecuted]
  have stack : (c.reportExecuted context change).stack = c.stack := by simp [reportExecuted]
  rw [drivenSince_append grown log, stack, DrivenSince]
  simp [Observation.Drives]

private theorem Config.drivenSince_handOver (grown : start.log <+: c.log) {context : ActionContext}
    (scope : context.scope = owner.scope) {frame : Frame} {stack : List Frame}
    (top : c.stack = frame :: stack) (own : frame.owner = some owner) :
    ({ c with stack := stack }.handOver context).DrivenSince start owner edge ↔
      c.DrivenSince start owner edge := by
  have log : ({ c with stack := stack }.handOver context).log =
      c.log ++ [.executeAction context] := rfl
  have calls : ({ c with stack := stack }.handOver context).stack = .adapter :: stack := rfl
  have notOwn : ¬ Observation.Drives owner edge (.executeAction context) := by
    rintro ⟨other, same⟩
    rw [scope] at same
    have found := congrArg ActionScope.owner same
    rw [ActionOwner.owner_scope] at found
    exact other (Option.some.inj found)
  have notFrame : ¬ frame.Drives owner edge := by
    rintro ⟨other, found⟩
    rw [own] at found
    exact other (Option.some.inj found)
  have notAdapter : ¬ Frame.Drives owner edge .adapter := by
    rintro ⟨-, found⟩
    cases found
  rw [drivenSince_append grown log, calls, DrivenSince, top]
  simp [notOwn, notFrame, notAdapter]

/-- What has been started stays so. -/
theorem Config.DrivenSince.perform {event : Event} (driven : c.DrivenSince start owner edge)
    (grown : start.log <+: c.log) (order : c.agv.currentOrder.isSome) {reserve : Reserve}
    (disregards : Disregards reserve c event) (running : (c.perform event).crashed = false) :
    (c.perform event).DrivenSince start owner edge := by
  have leaves := perform_leaves c disregards
  obtain ⟨observations, log, -⟩ := leaves.log
  obtain ⟨-, frames, stack, -⟩ := leaves.stack running
  rw [drivenSince_append grown log]
  rcases driven with ⟨frame, member, drives⟩ | logged
  · by_cases remains : frame ∈ c.remainingStack event
    · refine .inl ⟨frame, ?_, drives⟩
      rw [stack]
      exact List.mem_append_right _ remains
    · -- the call is being made, and executes an action of the edge
      cases event with
      | proceed =>
          cases top : c.stack with
          | nil =>
              rw [top] at member
              cases member
          | cons head tail =>
              simp only [remainingStack, top, List.tail_cons] at remains
              rw [top] at member
              obtain rfl : frame = head := by
                cases member with
                | head => rfl
                | tail _ member => exact absurd member remains
              obtain ⟨order, current⟩ := Option.isSome_iff_exists.mp order
              obtain ⟨other, found⟩ := drives
              cases frame with
              | processEdgeAction own action stopDriving =>
                  obtain rfl : own = edge := by simpa [Frame.owner] using found
                  refine .inr (.inr ⟨.executeAction
                    { action := action
                      scope := .edge own
                      stopDriving := some stopDriving
                      activeOrderId := some order.orderId }, ?_, other, rfl⟩)
                  have performed : (c.perform .proceed).log = c.log ++
                      [.executeAction
                        { action := action
                          scope := .edge own
                          stopDriving := some stopDriving
                          activeOrderId := some order.orderId }] := by
                    simp [Config.perform, proceed, top, resume, executeOrderAction, current, observe,
                      call]
                  rw [log] at performed
                  have same := List.append_cancel_left performed
                  simp [same]
              | _ => cases found
      | _ => exact absurd member remains
  · exact .inr (.inl logged)

/-- Nothing else starts it. -/
private theorem Config.DrivenSince.of_perform {event : Event} (grown : start.log <+: c.log)
    (disregards : Disregards (owner.reserveEdge edge) c event)
    (running : (c.perform event).crashed = false)
    (driven : (c.perform event).DrivenSince start owner edge) : c.DrivenSince start owner edge := by
  have leaves := perform_leaves c disregards
  obtain ⟨observations, log, permitted⟩ := leaves.log
  obtain ⟨-, frames, stack, others⟩ := leaves.stack running
  rw [drivenSince_append grown log] at driven
  rcases driven with ⟨frame, member, drives⟩ | logged | ⟨observation, member, drives⟩
  · rw [stack] at member
    rcases List.mem_append.mp member with member | member
    · exact absurd (.inr rfl) (others frame member (.edge edge) drives.2)
    · refine .inl ⟨frame, ?_, drives⟩
      cases event with
      | proceed => exact List.mem_of_mem_tail member
      | _ => exact member
  · exact .inr logged
  · have allowed := permitted observation member
    cases observation with
    | traverseEdge context => exact absurd drives allowed
    | executeAction context =>
        obtain ⟨-, scope⟩ := drives
        exact absurd (.inr rfl) (allowed (.edge edge) (by rw [scope]; rfl))
    | _ => cases drives

private theorem Config.drivenSince_traverseEdge {order : Order}
    (current : c.agv.currentOrder = some order)
    (grown : start.log <+: c.log) : (c.traverseEdge edge).DrivenSince start owner edge := by
  obtain ⟨context, same, log⟩ : ∃ context : TraverseEdgeContext, context.edge = edge ∧
      (c.traverseEdge edge).log = c.log ++ [.traverseEdge context] := by
    unfold traverseEdge
    rw [current]
    exact ⟨_, rfl, rfl⟩
  rw [drivenSince_append grown log]
  exact .inr (.inr ⟨_, List.mem_singleton_self _, same⟩)

/-- What follows the list drives the edge. -/
private theorem Config.drivenSince_drive {order : Order} (current : c.agv.currentOrder = some order)
    (follows : Follows order owner edge) (grown : start.log <+: c.log) :
    (c.drive owner).DrivenSince start owner edge := by
  cases owner with
  | edge own =>
      obtain rfl : own = edge := follows
      exact drivenSince_traverseEdge current grown
  | node node =>
      obtain ⟨trailing, released⟩ := follows
      have processed : c.drive (.node node) = c.processActions (.edge edge) none := by
        simp only [drive, processEdge, current, trailing, released, if_true, processActions]
      have position : startIndex ([] ++ (ActionOwner.edge edge).actions) none =
          ([] : List Action).length := rfl
      have scheduled := scheduleAfter_split position
      rw [List.nil_append] at scheduled
      have called : ∀ action stopDriving,
          Frame.Drives (.node node) edge ((ActionOwner.edge edge).frame action stopDriving) :=
        fun action stopDriving => ⟨by simp, ActionOwner.owner_frame _ action stopDriving⟩
      rw [processed, processActions_eq, scheduled]
      cases batch (ActionOwner.edge edge).actions with
      | nil =>
          cases behindBatch (ActionOwner.edge edge).actions with
          | nil => exact drivenSince_traverseEdge current grown
          | cons action actions => exact .inl ⟨_, List.mem_cons_self, called action true⟩
      | cons action actions => exact .inl ⟨_, List.mem_cons_self, called action _⟩

end Driven

/-- The list has been scheduled, and driving started as soon as it is released. -/
structure Tracked (owner : ActionOwner) (edge : Edge) (order : Order) (start c : Config)
    (agenda : Agenda) : Prop extends Scheduled owner start c agenda where
  order : c.agv.currentOrder = some order
  driven : c.crashed = false → (c.DrivenSince start owner edge ↔ agenda.Releases c.agv)

namespace Tracked

variable {owner : ActionOwner} {edge : Edge} {order : Order} {start c : Config} {agenda : Agenda}

theorem drive (scheduled : Scheduled owner start c agenda)
    (current : c.agv.currentOrder = some order) (follows : Follows order owner edge)
    (releases : agenda.Releases c.agv) :
    Tracked owner edge order start (c.drive owner) agenda := by
  have spares : Config.Spares {} c owner := by
    cases owner with
    | edge own => exact id
    | node node => exact fun order current edge found => ⟨id, id⟩
  have same : (c.drive owner).agv = c.agv := by
    cases owner with
    | edge own => exact Config.traverseEdge_agv c own
    | node node => exact Config.processEdge_agv c node
  exact
    { scheduled.drive with
      order := (Config.drive_leaves c spares).currentOrder.trans current
      driven := fun running => by
        rw [same]
        exact ⟨fun _ => releases, fun _ =>
          Config.drivenSince_drive current follows scheduled.grown⟩ }

/-- The end of an action does not hold up what has been released. -/
private theorem releases_report {context : ActionContext} {change : ActionStatusChangeInfo}
    (vehicle : change.linkedState.actionStates = none) (ended : change.actionStatus.isEnded)
    (releases : agenda.Releases c.agv) :
    agenda.Releases (c.reportExecuted context change).agv := by
  have grows : ∀ action : Action, c.agv.isActionEnded action →
      (c.reportExecuted context change).agv.isActionEnded action := by
    intro action before
    rw [c.isActionEnded_reportExecuted vehicle]
    split
    · exact ended
    · exact before
  obtain ⟨behind, none | ⟨parallel, ⟨action, member, first⟩, softs⟩⟩ := releases
  · exact ⟨behind, .inl none⟩
  · exact ⟨behind, .inr ⟨parallel, ⟨action, member, grows action first⟩,
      fun other member soft => grows other (softs other member soft)⟩⟩

private theorem releases_congr {agv other : AgvController}
    (same : ∀ action ∈ agenda.current, other.isActionEnded action = agv.isActionEnded action) :
    agenda.Releases other ↔ agenda.Releases agv := by
  have some : (∃ action ∈ agenda.current, other.isActionEnded action) ↔
      ∃ action ∈ agenda.current, agv.isActionEnded action :=
    exists_congr fun action => and_congr_right fun member => by rw [same action member]
  have all : (∀ action ∈ agenda.current, isSoft action → other.isActionEnded action) ↔
      ∀ action ∈ agenda.current, isSoft action → agv.isActionEnded action :=
    forall₂_congr fun action member => by rw [same action member]
  rw [Agenda.Releases, Agenda.Releases, some, all]

private theorem disregard (tracked : Tracked owner edge order start c agenda) {event : Event}
    (disregards : Config.Disregards owner.reserve c event)
    (others : c.DrivenSince start owner edge ∨
      Config.Disregards (owner.reserveEdge edge) c event) :
    Tracked owner edge order start (c.perform event) agenda := by
  have leaves := Config.perform_leaves c disregards
  have grown := tracked.grown
  have current : c.agv.currentOrder.isSome := tracked.currentOrder
  have same : agenda.Releases (c.perform event).agv ↔ agenda.Releases c.agv := by
    refine releases_congr fun action member => leaves.isActionEnded (tracked.reserved ?_)
    have dispatched := List.mem_append.mp member
    tauto
  refine
    { tracked.toScheduled.leave leaves disregards.remaining with
      order := leaves.currentOrder.trans tracked.order
      driven := fun running => ?_ }
  have before := tracked.driven (leaves.stack running).1
  rw [same, ← before]
  constructor
  · intro driven
    rcases others with already | others
    · exact already
    · exact .of_perform grown others running driven
  · exact fun driven => driven.perform grown current disregards running

theorem proceed (tracked : Tracked owner edge order start c agenda) (running : c.crashed = false)
    {frame : Frame} {stack : List Frame} (top : c.stack = frame :: stack)
    (own : frame.owner = some owner) :
    ∃ agenda, Tracked owner edge order start c.proceed agenda := by
  obtain ⟨dispatched, pending, context, same, scope, proceeded, scheduled⟩ :=
    tracked.toScheduled.proceed running top own
  have agv : c.proceed.agv = c.agv := by rw [proceeded]; rfl
  refine ⟨_, { scheduled with order := agv ▸ tracked.order, driven := fun _ => ?_ }⟩
  have releases : Agenda.Releases ⟨agenda.before, dispatched, pending, agenda.behind⟩ c.agv ↔
      agenda.Releases c.agv := by
    rw [Agenda.Releases, Agenda.Releases]
    have current : Agenda.current ⟨agenda.before, dispatched, pending, agenda.behind⟩ =
        agenda.current := same
    rw [current]
  rw [agv, releases, ← tracked.driven running, proceeded]
  exact Config.drivenSince_handOver tracked.grown scope top own

theorem report (tracked : Tracked owner edge order start c agenda) (running : c.crashed = false)
    (follows : Follows order owner edge) {context : ActionContext}
    {change : ActionStatusChangeInfo} (member : context ∈ c.executing)
    (scope : context.scope = owner.scope) (vehicle : change.linkedState.actionStates = none) :
    ∃ agenda, Tracked owner edge order start (c.adapterReports context change) agenda := by
  have listed := tracked.toListed.report member scope vehicle
  obtain ⟨-, dispatched, going⟩ := tracked.executing context member scope
  have current : (c.reportExecuted context change).agv.currentOrder = some order :=
    (congrArg Position.currentOrder (Config.reportActionStatus_position _ context change)).trans
      tracked.order
  have driven : (c.reportExecuted context change).DrivenSince start owner edge ↔
      agenda.Releases c.agv :=
    (Config.drivenSince_reportExecuted tracked.grown context change).trans (tracked.driven running)
  rw [tracked.adapterReports_eq member scope]
  cases ended : change.actionStatus.isEnded with
  | false =>
      rw [if_neg (by simp)]
      refine ⟨agenda, { tracked.reported member scope vehicle ended with
        order := current, driven := fun _ => driven.trans (releases_congr fun action _ => ?_).symm }⟩
      rw [c.isActionEnded_reportExecuted vehicle]
      split
      · next same =>
        rw [ended, ← going]
        simp only [AgvController.isActionEnded, same]
      · rfl
  | true =>
      have finished : (c.reportExecuted context change).agv.isActionEnded context.action := by
        rw [c.isActionEnded_reportExecuted vehicle, if_pos rfl, ended]
      have held : ¬ agenda.Releases (c.reportExecuted context change).agv →
          ¬ (c.reportExecuted context change).DrivenSince start owner edge := fun held started =>
        held (releases_report vehicle ended (driven.mp started))
      rw [if_pos rfl]
      rcases Scheduled.actionEnded_cases listed tracked.together dispatched finished with
        ⟨later, drives, scheduled, releases⟩ |
          ⟨later, frames, called, own, scheduled, holds, before⟩ | ⟨waits, scheduled, holds⟩
      · exact ⟨later, drives ▸ drive scheduled current follows releases⟩
      · rw [called]
        refine ⟨later, { scheduled with order := current, driven := fun _ => ?_ }⟩
        exact iff_of_false
          (fun started => held before ((Config.drivenSince_call own).mp started)) holds
      · rw [waits]
        exact ⟨agenda, { scheduled with
          order := current, driven := fun _ => iff_of_false (held holds) holds }⟩

theorem perform (tracked : Tracked owner edge order start c agenda)
    (follows : Follows order owner edge) {event : Event}
    (attends : AttendsEdge owner edge start c event) :
    ∃ agenda, Tracked owner edge order start (c.perform event) agenda := by
  obtain ⟨running, concerns | ⟨disregards, others⟩⟩ := attends
  · cases event with
    | proceed =>
        obtain ⟨frame, top, own⟩ := concerns
        cases stack : c.stack with
        | nil =>
            rw [stack] at top
            cases top
        | cons head rest =>
            rw [stack] at top
            obtain rfl := Option.some.inj top
            exact tracked.proceed running stack own
    | updateActionStatus context change =>
        obtain ⟨member, scope, vehicle⟩ := concerns
        exact tracked.report running follows member scope vehicle
    | _ => cases concerns
  · exact ⟨agenda, tracked.disregard disregards others⟩

end Tracked

section Runs

variable {owner : ActionOwner} {edge : Edge} {order : Order} {start c : Config}
  {events : List Event}

theorem Tracked.processActions (unprocessed : Unprocessed owner start)
    (current : start.agv.currentOrder = some order) (follows : Follows order owner edge)
    (still : ∀ frame ∈ start.stack, ¬ frame.Drives owner edge) :
    ∃ agenda, Tracked owner edge order start (start.processActions owner none) agenda := by
  rcases unprocessed.schedule with ⟨driven, scheduled⟩ | ⟨pending, behind, called, scheduled, holds⟩
  · exact ⟨_, driven ▸ Tracked.drive scheduled current follows ⟨rfl, .inl rfl⟩⟩
  · rw [called] at scheduled ⊢
    refine ⟨_, { scheduled with order := current, driven := fun _ => iff_of_false ?_ holds }⟩
    intro started
    rcases (Config.drivenSince_call (by simp)).mp started with ⟨frame, member, drives⟩ | logged
    · exact still frame member drives
    · simp at logged

theorem Tracked.of_run (unprocessed : Unprocessed owner start)
    (current : start.agv.currentOrder = some order) (follows : Follows order owner edge)
    (still : ∀ frame ∈ start.stack, ¬ frame.Drives owner edge)
    (run : Library.Run Config.step (AttendsEdge owner edge start)
      (start.processActions owner none) events c) :
    ∃ agenda, Tracked owner edge order start c agenda := by
  refine run.invariant (fun c => ∃ agenda, Tracked owner edge order start c agenda)
    (Tracked.processActions unprocessed current follows still) ?_
  intro events c event next run tracked attends stepped
  obtain ⟨agenda, tracked⟩ := tracked
  obtain ⟨-, rfl⟩ := Config.step_eq_some.mp stepped
  exact tracked.perform follows attends

/-- Driving starts when the list is due and triggered. -/
private theorem drivenSince_iff (unprocessed : Unprocessed owner start)
    (current : start.agv.currentOrder = some order) (follows : Follows order owner edge)
    (still : ∀ frame ∈ start.stack, ¬ frame.Drives owner edge)
    (run : Library.Run Config.step (AttendsEdge owner edge start)
      (start.processActions owner none) events c) (running : c.crashed = false) :
    c.DrivenSince start owner edge ↔
      DriveDue c.agv owner.actions ∧ DriveTriggered c.agv owner.actions := by
  obtain ⟨agenda, tracked⟩ := Tracked.of_run unprocessed current follows still run
  rw [tracked.driven running, tracked.releases_iff]

/-- It is late as long as all HARD actions have ended and the last run consists
of NONE actions of which none has ended. -/
theorem drivenSince_iff_driveDue_iff (unprocessed : Unprocessed owner start)
    (current : start.agv.currentOrder = some order) (follows : Follows order owner edge)
    (still : ∀ frame ∈ start.stack, ¬ frame.Drives owner edge)
    (run : Library.Run Config.step (AttendsEdge owner edge start)
      (start.processActions owner none) events c) (running : c.crashed = false) :
    (c.DrivenSince start owner edge ↔ DriveDue c.agv owner.actions) ↔
      lastRun owner.actions = [] ∨ (∃ action ∈ lastRun owner.actions, isSoft action) ∨
        (∃ action ∈ lastRun owner.actions, c.agv.isActionEnded action) ∨
          ∃ action ∈ owner.actions, isHard action ∧ c.agv.isActionEnded action = false := by
  rw [drivenSince_iff unprocessed current follows still run running, and_iff_left_iff_imp]
  constructor
  · intro triggered
    by_contra late
    simp only [not_or, not_exists, not_and, Bool.not_eq_false] at late
    obtain ⟨some, noSoft, noneEnded, hards⟩ := late
    have due : DriveDue c.agv owner.actions :=
      ⟨hards, fun action member soft => absurd soft (noSoft action member)⟩
    rcases triggered due with none | ⟨action, member, soft | ended⟩
    · exact some none
    · exact noSoft action member soft
    · exact noneEnded action member ended
  · rintro (none | ⟨action, member, soft⟩ | ⟨action, member, ended⟩ | ⟨action, member, hard, going⟩)
      ⟨hards, -⟩
    · exact .inl none
    · exact .inr ⟨action, member, .inl soft⟩
    · exact .inr ⟨action, member, .inr ended⟩
    · rw [hards action member hard] at going
      cases going

end Runs

instance (owner : ActionOwner) (edge : Edge) (observation : Observation) :
    Decidable (observation.Drives owner edge) :=
  match observation with
  | .traverseEdge context => inferInstanceAs (Decidable (context.edge = edge))
  | .executeAction context =>
      inferInstanceAs (Decidable (owner ≠ .edge edge ∧ context.scope = .edge edge))
  | .orderAccepted .. | .orderRejected _ | .orderDiscarded | .cancelAction _ | .finishEdgeAction _
  | .edgeTraversed _ | .stopTraverse _ | .stopped .. | .nodeTraversed _ | .actionStatus ..
  | .instantActionAccepted _ | .instantActionRejected _ | .instantActionProcessed _
  | .cancelOrder .. => isFalse id

instance (owner : ActionOwner) (edge : Edge) (frame : Frame) :
    Decidable (frame.Drives owner edge) :=
  inferInstanceAs (Decidable (_ ∧ _))

instance (c start : Config) (owner : ActionOwner) (edge : Edge) :
    Decidable (c.DrivenSince start owner edge) :=
  inferInstanceAs (Decidable (_ ∨ _))

instance (agv : AgvController) (actions : List Action) : Decidable (DriveDue agv actions) :=
  inferInstanceAs (Decidable (_ ∧ _))

/-- An action that does not keep the vehicle from driving. -/
def lightAction : Action where
  actionId := "light"
  actionType := "light"
  blockingType := .none

def lightNode : Node where
  ref := (0, 0)
  nodeId := "start"
  sequenceId := 0
  released := true
  actions := [lightAction]

def lightOrder : Order := Config.allocateNodes 0 (driveOrder "order" [lightAction] [] [])

def lightEdge : Edge := (driveContext [lightAction] [] []).edge

/-- The controller that has accepted an order with this action on its first node. -/
def lightConfig : Config :=
  let c := ({ Config.initial 5 with received := 1 } : Config).beginOrder none lightOrder .new
  (c.updateState
    { nodeStates := some (c.agv.currentState.nodeStates.drop 1)
      lastNodeId := some "start"
      lastNodeSequenceId := some 0 } true).observe (.nodeTraversed lightNode)

private theorem unprocessed_lightConfig : Unprocessed (.node lightNode) lightConfig where
  distinct := by decide
  waiting := by decide
  stack := by decide
  executing := by decide
  currentOrder := rfl
  notCanceling := rfl

/-- Driving goes on when the action has ended. -/
theorem drivenSince_of_lightNode :
    ∃ events c,
      Library.Run Config.step (AttendsEdge (.node lightNode) lightEdge lightConfig)
        (lightConfig.processActions (.node lightNode) none) events c ∧
      c.DrivenSince lightConfig (.node lightNode) lightEdge ∧
      DriveDue c.agv lightNode.actions ∧
      ((c.DrivenSince lightConfig (.node lightNode) lightEdge ↔ DriveDue c.agv lightNode.actions) ↔
        lastRun lightNode.actions = [] ∨ (∃ action ∈ lastRun lightNode.actions, isSoft action) ∨
          (∃ action ∈ lastRun lightNode.actions, c.agv.isActionEnded action) ∨
            ∃ action ∈ lightNode.actions, isHard action ∧ c.agv.isActionEnded action = false) := by
  let context : ActionContext :=
    { action := lightAction
      scope := .node lightNode
      stopDriving := some false
      activeOrderId := some "order" }
  have passed : (Library.execute Config.step (Dispatches (.node lightNode))
      (lightConfig.processActions (.node lightNode) none)
      [.proceed, .proceed, .updateActionStatus context { actionStatus := .finished }]).any
        (fun c => decide (c.crashed = false ∧
          c.DrivenSince lightConfig (.node lightNode) lightEdge ∧
            DriveDue c.agv lightNode.actions)) = true := by decide
  obtain ⟨c, run, found⟩ := Library.exists_run_of_execute passed
  obtain ⟨running, driven, due⟩ := of_decide_eq_true found
  have follows : Follows lightOrder (.node lightNode) lightEdge := by
    constructor <;> decide
  have still : ∀ frame ∈ lightConfig.stack, ¬ frame.Drives (.node lightNode) lightEdge := by decide
  have run := run.weaken fun c event =>
    @Dispatches.attendsEdge (.node lightNode) lightEdge lightConfig c event
  exact ⟨_, c, run, driven, due,
    drivenSince_iff_driveDue_iff unprocessed_lightConfig rfl follows still run running⟩

/-- The vehicle stands idle on its first node, although there is nothing to wait for. -/
theorem not_drivenSince_of_lightNode :
    lightConfig.processActions (.node lightNode) none =
      (Config.initial 5).perform (.order (driveOrder "order" [lightAction] [] []) {}) ∧
    ∃ c,
      Library.Run Config.step (AttendsEdge (.node lightNode) lightEdge lightConfig)
        (lightConfig.processActions (.node lightNode) none) [.proceed, .proceed] c ∧
      c.isIdle ∧
      ¬ (c.DrivenSince lightConfig (.node lightNode) lightEdge ↔
        DriveDue c.agv lightNode.actions) := by
  have passed : (Library.execute Config.step (Dispatches (.node lightNode))
      (lightConfig.processActions (.node lightNode) none) [.proceed, .proceed]).any
        (fun c => decide (c.isIdle ∧
          ¬ (c.DrivenSince lightConfig (.node lightNode) lightEdge ↔
            DriveDue c.agv lightNode.actions))) = true := by decide
  obtain ⟨c, run, found⟩ := Library.exists_run_of_execute passed
  obtain ⟨idle, late⟩ := of_decide_eq_true found
  have run := run.weaken fun c event =>
    @Dispatches.attendsEdge (.node lightNode) lightEdge lightConfig c event
  exact ⟨rfl, c, run, idle, late⟩

end Vda5050
