import Vda5050.AgvController.ActionLists
import Vda5050.AgvController.Scheduling

/-!
# Blocking types

The action list of a node or an edge from one call that processes it until all
of its actions have ended, in whatever order the adapter reports on them and
whatever else happens meanwhile.
-/

set_option autoImplicit false

namespace Vda5050

open AgvController

/-! ## The division of a list -/

/-- Actions executed together: a HARD one alone, or those between two HARD ones. -/
def Together (before current behind : List Action) : Prop :=
  (∃ action, isHard action ∧ current = [action]) ∨
    (∀ action ∈ current, isHard action = false) ∧ (∀ action ∈ before.getLast?, isHard action) ∧
      ∀ action ∈ behind.head?, isHard action

/-- What actions executed together tell the adapter about driving. -/
def stopsDriving (current : List Action) : Bool :=
  current.any fun action => isHard action || isSoft action

/-- The other actions of a list between the HARD ones next to an action. -/
def parallelTo (before after : List Action) : List Action :=
  (batch before.reverse).reverse ++ batch after

theorem head?_reverse_hard {before : List Action}
    (barrier : ∀ action ∈ before.getLast?, isHard action) :
    ∀ action ∈ before.reverse.head?, isHard action := by
  rwa [List.head?_reverse]

/-- Driving stops for a HARD action, and for one with a SOFT action in parallel. -/
private theorem Together.stopsDriving_iff {before left right behind : List Action} {action : Action}
    (together : Together before (left ++ action :: right) behind) :
    stopsDriving (left ++ action :: right) ↔
      isHard action ∨ isSoft action ∨
        ∃ soft ∈ parallelTo (before ++ left) (right ++ behind), isSoft soft := by
  rcases together with ⟨hardAction, hard, single⟩ | ⟨parallel, barrier, next⟩
  · obtain ⟨rfl, rfl, rfl⟩ : left = [] ∧ action = hardAction ∧ right = [] := by
      cases left with
      | nil => simpa using single
      | cons head left => simp at single
    simp [stopsDriving, hard]
  · have leftSoft : ∀ other ∈ left.reverse, isHard other = false := fun other member =>
      parallel other (by simp [List.mem_reverse.mp member])
    have rightSoft : ∀ other ∈ right, isHard other = false := fun other member =>
      parallel other (by simp [member])
    have around : parallelTo (before ++ left) (right ++ behind) = left ++ right := by
      rw [parallelTo, List.reverse_append, batch_append leftSoft, batch_append rightSoft,
        batch_of_head_isHard (head?_reverse_hard barrier), batch_of_head_isHard next]
      simp
    have soft : isHard action = false := parallel action (by simp)
    rw [around]
    constructor
    · intro stops
      obtain ⟨other, member, stops⟩ := List.any_eq_true.mp stops
      rw [parallel other member, Bool.false_or] at stops
      rcases List.mem_append.mp member with member | member
      · exact .inr (.inr ⟨other, List.mem_append_left _ member, stops⟩)
      · cases member with
        | head => exact .inr (.inl stops)
        | tail _ member => exact .inr (.inr ⟨other, List.mem_append_right _ member, stops⟩)
    · rw [soft]
      rintro (hard | softAction | ⟨other, member, softOther⟩)
      · cases hard
      · exact List.any_eq_true.mpr ⟨action, by simp, by simp [softAction]⟩
      · refine List.any_eq_true.mpr ⟨other, ?_, by simp [softOther]⟩
        rcases List.mem_append.mp member with member | member <;> simp [member]

private theorem stopsDriving_batch (actions : List Action) :
    stopsDriving (batch actions) = (batch actions).any isSoft := by
  rw [Bool.eq_iff_iff]
  simp only [stopsDriving, List.any_eq_true, Bool.or_eq_true]
  constructor
  · rintro ⟨action, member, hard | soft⟩
    · rw [not_isHard_of_mem_batch member] at hard
      cases hard
    · exact ⟨action, member, soft⟩
  · rintro ⟨action, member, soft⟩
    exact ⟨action, member, .inr soft⟩

private theorem findIdx?_any_lt (test : Action → Bool) (actions : List Action) (stop : Nat) :
    (actions.findIdx? test).any (· < stop) = (actions.take stop).any test := by
  induction actions generalizing stop with
  | nil => simp
  | cons action actions ih =>
      cases stop with
      | zero => cases (action :: actions).findIdx? test <;> simp
      | succ stop =>
          rw [List.findIdx?_cons, List.take_succ_cons, List.any_cons, ← ih stop]
          cases test action with
          | true => simp
          | false => cases actions.findIdx? test <;> simp

/-- The list behind a position is scheduled batch by batch. -/
theorem scheduleAfter_split {before rest : List Action} {afterAction : Option Action}
    (start : startIndex (before ++ rest) afterAction = before.length) :
    scheduleAfter (before ++ rest) afterAction =
      match batch rest, behindBatch rest with
      | [], [] => .processed
      | [], action :: _ => .hard action
      | action :: actions, _ =>
          .parallel (action :: actions) (stopsDriving (action :: actions)) := by
  have dropped : (before ++ rest).drop before.length = rest := by simp
  have inside : before.length ≤ (before ++ rest).length := by simp
  obtain ⟨hardFound, stop⟩ := findIndexFrom_isHard inside
  rw [dropped] at hardFound stop
  unfold scheduleAfter
  simp only [start, stop, dropped]
  have whole := batch_append_behindBatch rest
  cases chunk : batch rest with
  | nil =>
      rw [chunk, List.nil_append] at whole
      rw [if_pos (by simp)]
      cases behind : behindBatch rest with
      | nil =>
          have absent : findIndexFrom isHard before.length (before ++ rest) = none := by
            rw [← Option.not_isSome_iff_eq_none, hardFound, behind]
            simp
          simp [absent]
      | cons action actions =>
          have found := hardFound.mpr (by simp [behind])
          obtain ⟨index, found⟩ := Option.isSome_iff_exists.mp found
          rw [found, chunk] at stop
          obtain rfl : index = before.length := by simpa using stop
          rw [found]
          rw [behind] at whole
          simp [← whole]
  | cons action actions =>
      rw [if_neg (by simp)]
      have taken : rest.take (batch rest).length = batch rest :=
        calc rest.take (batch rest).length
          _ = (batch rest ++ behindBatch rest).take (batch rest).length := by rw [whole]
          _ = batch rest := List.take_left
      have stops : (findIndexFrom isSoft before.length (before ++ rest)).any
          (· < before.length + (batch rest).length) = stopsDriving (batch rest) := by
        have softs := findIdx?_any_lt isSoft rest (batch rest).length
        rw [taken] at softs
        rw [stopsDriving_batch, ← softs, findIndexFrom, dropped]
        cases rest.findIdx? isSoft with
        | none => rfl
        | some index =>
            have shifted : index + before.length < before.length + (batch rest).length ↔
                index < (batch rest).length := by omega
            simp [shifted]
      rw [chunk] at taken stops
      simp only [Nat.add_sub_cancel_left, taken, stops]

/-! ## The state of a list -/

/-- How far a list has been dispatched. -/
structure Agenda where
  before : List Action
  dispatched : List Action
  pending : List Action
  behind : List Action

def Agenda.current (agenda : Agenda) : List Action := agenda.dispatched ++ agenda.pending

/-- The executions of actions of a list. -/
def executions (owner : ActionOwner) (log : List Observation) : List ActionContext :=
  log.filterMap fun
    | .executeAction context => if context.scope = owner.scope then some context else none
    | _ => none

def Config.executedSince (c start : Config) (owner : ActionOwner) : List ActionContext :=
  executions owner (c.log.drop start.log.length)

/-- The list and its actions are reserved to itself. -/
def ActionOwner.reserve (owner : ActionOwner) : Reserve where
  lists := (· = owner)
  actions := (· ∈ actionIds owner.actions)

@[simp] theorem executions_append (owner : ActionOwner) (log observations : List Observation) :
    executions owner (log ++ observations) =
      executions owner log ++ executions owner observations :=
  List.filterMap_append

private theorem executions_of_permitted {owner : ActionOwner} {observations : List Observation}
    (permitted : ∀ observation ∈ observations, owner.reserve.Permits observation) :
    executions owner observations = [] := by
  rw [executions, List.filterMap_eq_nil_iff]
  intro observation member
  cases observation with
  | executeAction context =>
      have other := permitted _ member
      dsimp only
      refine if_neg fun same => ?_
      exact other owner (by rw [same, ActionOwner.owner_scope]; rfl) rfl
  | _ => rfl

private theorem Config.executedSince_append {c next start : Config} {owner : ActionOwner}
    {observations : List Observation} (grown : start.log <+: c.log)
    (log : next.log = c.log ++ observations) :
    next.executedSince start owner =
      c.executedSince start owner ++ executions owner observations := by
  rw [executedSince, executedSince, log, List.drop_append_of_le_length grown.length_le,
    executions_append]

/-- An action is handed over to the adapter. -/
def Config.handOver (c : Config) (context : ActionContext) : Config :=
  ({ c with executing := context :: c.executing }.observe (.executeAction context)).call [.adapter]

/-- The invariant of a list that has been dispatched up to its agenda. -/
structure Listed (owner : ActionOwner) (start c : Config) (agenda : Agenda) : Prop where
  distinct : (actionIds owner.actions).Nodup
  split : owner.actions = agenda.before ++ (agenda.dispatched ++ agenda.pending) ++ agenda.behind
  ended : ∀ action ∈ agenda.before, c.agv.isActionEnded action
  waiting : ∀ action ∈ agenda.pending ++ agenda.behind, c.agv.isActionEnded action = false
  grown : start.log <+: c.log
  executed : (c.executedSince start owner).map (·.action) = agenda.before ++ agenda.dispatched
  stops : ∀ context ∈ c.executedSince start owner, ∃ before current behind,
    owner.actions = before ++ current ++ behind ∧ Together before current behind ∧
      context.action ∈ current ∧ context.stopDriving = some (stopsDriving current)
  stack : c.crashed = false → c.stack.filter (·.owner = some owner) =
    agenda.pending.map (owner.frame · (stopsDriving agenda.current))
  once : ∀ context, context.scope = owner.scope → c.executing.count context ≤ 1
  executing : ∀ context ∈ c.executing, context.scope = owner.scope →
    context ∈ c.executedSince start owner ∧ context.action ∈ agenda.dispatched ∧
      c.agv.isActionEnded context.action = false
  currentOrder : c.agv.currentOrder.isSome
  notCanceling : owner.actions ≠ [] → c.agv.cancelOrderContext = none

theorem Leaves.isActionEnded {reserve : Reserve} {c next : Config} (leaves : Leaves reserve c next)
    {action : Action} (reserved : reserve.actions action.actionId) :
    next.agv.isActionEnded action = c.agv.isActionEnded action := by
  unfold AgvController.isActionEnded
  rw [leaves.actionStates _ reserved]

private theorem Config.isActionEnded_reportActionStatus (c : Config) {context : ActionContext}
    {change : ActionStatusChangeInfo} (vehicle : change.linkedState.actionStates = none)
    (action : Action) :
    (c.reportActionStatus context change).agv.isActionEnded action =
      if action.actionId = context.action.actionId then change.actionStatus.isEnded
      else c.agv.isActionEnded action := by
  unfold AgvController.isActionEnded
  rw [reportActionStatus_actionStates c vehicle]
  by_cases same : action.actionId = context.action.actionId
  · have reported := find?_newActionStates c.agv.currentState.actionStates
      (newActionState context change)
    have id : (newActionState context change).actionId = context.action.actionId := rfl
    rw [id] at reported
    rw [if_pos same, same, reported]
    rfl
  · have other : (newActionState context change).actionId ≠ action.actionId :=
      fun reported => same reported.symm
    rw [if_neg same, find?_newActionStates_of_ne _ other]

/-- What `_updateActionStatus` does first about an action being executed. -/
def Config.reportExecuted (c : Config) (context : ActionContext)
    (change : ActionStatusChangeInfo) : Config :=
  { c with
    executing :=
      if change.actionStatus.isEnded then c.executing.erase context
      else c.executing }.reportActionStatus context change

theorem Config.isActionEnded_reportExecuted (c : Config) {context : ActionContext}
    {change : ActionStatusChangeInfo} (vehicle : change.linkedState.actionStates = none)
    (action : Action) :
    (c.reportExecuted context change).agv.isActionEnded action =
      if action.actionId = context.action.actionId then change.actionStatus.isEnded
      else c.agv.isActionEnded action :=
  isActionEnded_reportActionStatus _ vehicle action

namespace Listed

variable {owner : ActionOwner} {start c next : Config} {agenda : Agenda}

private theorem mem_actions (listed : Listed owner start c agenda) {action : Action} :
    action ∈ owner.actions ↔
      action ∈ agenda.before ∨ action ∈ agenda.dispatched ∨ action ∈ agenda.pending ∨
        action ∈ agenda.behind := by
  rw [listed.split]
  simp only [List.mem_append]
  tauto

theorem reserved (listed : Listed owner start c agenda) {action : Action}
    (member : action ∈ agenda.before ∨ action ∈ agenda.dispatched ∨ action ∈ agenda.pending ∨
      action ∈ agenda.behind) : owner.reserve.actions action.actionId :=
  List.mem_map_of_mem (listed.mem_actions.mpr member)

/-- Whatever leaves the list alone keeps its state. -/
theorem leave (listed : Listed owner start c agenda) {stack : List Frame}
    (leaves : Leaves owner.reserve { c with stack := stack } next)
    (same : stack.filter (·.owner = some owner) = c.stack.filter (·.owner = some owner)) :
    Listed owner start next agenda := by
  obtain ⟨observations, log, permitted⟩ := leaves.log
  have executed : next.executedSince start owner = c.executedSince start owner := by
    rw [Config.executedSince_append listed.grown log, executions_of_permitted permitted,
      List.append_nil]
  have counted : ∀ context : ActionContext, context.scope = owner.scope →
      next.executing.count context = c.executing.count context := by
    intro context scope
    exact leaves.executing context ⟨owner, by rw [scope, ActionOwner.owner_scope]; rfl, rfl⟩
  refine
    { distinct := listed.distinct
      split := listed.split
      grown := log ▸ listed.grown.trans (List.prefix_append _ _)
      executed := executed ▸ listed.executed
      stops := executed ▸ listed.stops
      currentOrder := leaves.currentOrder ▸ listed.currentOrder
      ended := ?_
      waiting := ?_
      stack := ?_
      once := ?_
      executing := ?_
      notCanceling := ?_ }
  · intro action member
    rw [leaves.isActionEnded (listed.reserved (.inl member))]
    exact listed.ended action member
  · intro action member
    have known := List.mem_append.mp member
    rw [leaves.isActionEnded (listed.reserved (by tauto))]
    exact listed.waiting action member
  · intro running
    obtain ⟨running, frames, pushed, others⟩ := leaves.stack running
    have none : frames.filter (·.owner = some owner) = [] := by
      rw [List.filter_eq_nil_iff]
      intro frame member found
      exact others frame member owner (of_decide_eq_true found) rfl
    rw [pushed, List.filter_append, none, List.nil_append, same]
    exact listed.stack running
  · intro context scope
    rw [counted context scope]
    exact listed.once context scope
  · intro context member scope
    have member : context ∈ c.executing := by
      rw [← List.count_pos_iff, ← counted context scope]
      exact List.count_pos_iff.mpr member
    obtain ⟨since, dispatched, going⟩ := listed.executing context member scope
    refine ⟨executed ▸ since, dispatched, ?_⟩
    rw [leaves.isActionEnded (listed.reserved (.inr (.inl dispatched)))]
    exact going
  · intro actions
    obtain ⟨action, member⟩ := List.exists_mem_of_ne_nil _ actions
    exact leaves.canceling ⟨action.actionId, List.mem_map_of_mem member⟩
      (listed.notCanceling actions)

theorem apart (listed : Listed owner start c agenda) {left right : List Action}
    (split : owner.actions = left ++ right) {first second : Action} (before : first ∈ left)
    (after : second ∈ right) : first.actionId ≠ second.actionId := by
  have distinct := listed.distinct
  rw [actionIds, split, List.map_append, List.nodup_append] at distinct
  exact distinct.2.2 _ (List.mem_map_of_mem before) _ (List.mem_map_of_mem after)

private theorem before_apart (listed : Listed owner start c agenda) {first second : Action}
    (before : first ∈ agenda.before) (dispatched : second ∈ agenda.dispatched) :
    first.actionId ≠ second.actionId := by
  have split : owner.actions =
      agenda.before ++ (agenda.dispatched ++ agenda.pending ++ agenda.behind) := by
    rw [listed.split, List.append_assoc]
  exact listed.apart split before (by simp [dispatched])

private theorem waiting_apart (listed : Listed owner start c agenda) {first second : Action}
    (dispatched : first ∈ agenda.dispatched) (waiting : second ∈ agenda.pending ++ agenda.behind) :
    first.actionId ≠ second.actionId := by
  have split : owner.actions =
      agenda.before ++ agenda.dispatched ++ (agenda.pending ++ agenda.behind) := by
    rw [listed.split]
    simp [List.append_assoc]
  exact listed.apart split (by simp [dispatched]) waiting

/-- The topmost call of the list executes the next action. -/
private theorem proceed_own (listed : Listed owner start c agenda) (running : c.crashed = false)
    {frame : Frame} {stack : List Frame} (top : c.stack = frame :: stack)
    (own : frame.owner = some owner) :
    ∃ action pending context, agenda.pending = action :: pending ∧ context.action = action ∧
      context.scope = owner.scope ∧
      context.stopDriving = some (stopsDriving agenda.current) ∧
      stack.filter (·.owner = some owner) =
        pending.map (owner.frame · (stopsDriving agenda.current)) ∧
      c.proceed = { c with stack := stack }.handOver context := by
  have calls := listed.stack running
  rw [top, List.filter_cons, if_pos (by simp [own])] at calls
  obtain ⟨order, current⟩ := Option.isSome_iff_exists.mp listed.currentOrder
  cases next : agenda.pending with
  | nil => simp [next] at calls
  | cons action pending =>
      rw [next, List.map_cons] at calls
      obtain ⟨rfl, rest⟩ := List.cons.inj calls
      refine ⟨action, pending,
        { action := action
          scope := owner.scope
          stopDriving := some (stopsDriving agenda.current)
          activeOrderId := some order.orderId }, rfl, rfl, rfl, rfl, rest, ?_⟩
      simp only [Config.proceed, top, Config.resume_frame, Config.executeOrderAction, current,
        Config.handOver]

theorem dispatch (listed : Listed owner start c agenda)
    (together : Together agenda.before agenda.current agenda.behind) {pending : List Action}
    {context : ActionContext} {stack : List Frame}
    (next : agenda.pending = context.action :: pending) (scope : context.scope = owner.scope)
    (stops : context.stopDriving = some (stopsDriving agenda.current))
    (rest : stack.filter (·.owner = some owner) =
      pending.map (owner.frame · (stopsDriving agenda.current))) :
    Listed owner start ({ c with stack := stack }.handOver context)
      { agenda with dispatched := agenda.dispatched ++ [context.action], pending := pending } := by
  have executed : ({ c with stack := stack }.handOver context).executedSince start owner =
      c.executedSince start owner ++ executions owner [.executeAction context] :=
    Config.executedSince_append listed.grown rfl
  have added : executions owner [.executeAction context] = [context] := by simp [executions, scope]
  have fresh : context ∉ c.executing := by
    intro member
    have dispatched := (listed.executing context member scope).2.1
    exact listed.waiting_apart dispatched (by simp [next]) rfl
  rw [added] at executed
  refine
    { distinct := listed.distinct
      split := by rw [listed.split, next]; simp
      ended := listed.ended
      waiting := fun action member => listed.waiting action (by rw [next]; simp_all)
      grown := listed.grown.trans (List.prefix_append _ _)
      executed := by rw [executed, List.map_append, listed.executed]; simp
      currentOrder := listed.currentOrder
      notCanceling := listed.notCanceling
      stack := ?_
      stops := ?_
      once := ?_
      executing := ?_ }
  · rw [executed]
    intro other member
    rcases List.mem_append.mp member with member | member
    · exact listed.stops other member
    · rw [List.mem_singleton.mp member]
      exact ⟨_, _, _, listed.split, together, by simp [next], stops⟩
  · intro running
    have same : stopsDriving (agenda.dispatched ++ [context.action] ++ pending) =
        stopsDriving agenda.current := by
      rw [Agenda.current, next]
      simp
    have calls : ((.adapter :: stack : List Frame)).filter (·.owner = some owner) =
        pending.map (owner.frame · (stopsDriving agenda.current)) := rest
    rw [← same] at calls
    exact calls
  · intro other same
    by_cases equal : context = other
    · subst equal
      have none : c.executing.count context = 0 := List.count_eq_zero.mpr fresh
      simp [Config.handOver, Config.call, Config.observe, none]
    · have others : (context :: c.executing).count other = c.executing.count other :=
        List.count_cons_of_ne equal
      exact others ▸ listed.once other same
  · intro other member same
    rw [executed]
    cases member with
    | head =>
        have going := listed.waiting context.action (by simp [next])
        exact ⟨by simp, by simp, going⟩
    | tail _ member =>
        obtain ⟨since, dispatched, going⟩ := listed.executing other member same
        exact ⟨by simp [since], by simp [dispatched], going⟩

/-- The actions dispatched are done with when they have ended. -/
private theorem conclude (listed : Listed owner start c agenda) (none : agenda.pending = [])
    (ended : ∀ action ∈ agenda.dispatched, c.agv.isActionEnded action) :
    Listed owner start c ⟨agenda.before ++ agenda.dispatched, [], [], agenda.behind⟩ :=
  { listed with
    split := by simpa [none] using listed.split
    ended := fun action member => by
      rcases List.mem_append.mp member with member | member
      · exact listed.ended action member
      · exact ended action member
    waiting := fun action member => listed.waiting action (by simpa [none] using member)
    executed := by simpa using listed.executed
    stack := fun running => by simpa [none] using listed.stack running
    executing := fun context member scope => by
      obtain ⟨-, dispatched, going⟩ := listed.executing context member scope
      rw [ended _ dispatched] at going
      cases going }

/-- The calls of the actions to be executed next. -/
theorem take (listed : Listed owner start c ⟨agenda.before, [], [], agenda.pending ++ agenda.behind⟩)
    (none : agenda.dispatched = []) :
    Listed owner start
      (c.call (agenda.pending.map (owner.frame · (stopsDriving agenda.pending)))) agenda :=
  { listed with
    split := by simpa [none] using listed.split
    executed := by
      have executed := listed.executed
      rw [List.append_nil] at executed
      rw [none, List.append_nil]
      exact executed
    stack := fun running => by
      have own : ∀ frame ∈ agenda.pending.map (owner.frame · (stopsDriving agenda.pending)),
          decide (frame.owner = some owner) = true := by simp
      have rest : c.stack.filter (·.owner = some owner) = [] := by
        simpa using listed.stack running
      rw [Config.call, List.filter_append, List.filter_eq_self.mpr own, rest]
      simp [Agenda.current, none]
    executing := fun context member scope => by
      obtain ⟨-, dispatched, -⟩ := listed.executing context member scope
      cases dispatched }

/-- A list without actions being executed is scheduled on. -/
theorem schedule {before rest : List Action}
    (listed : Listed owner start c ⟨before, [], [], rest⟩) {afterAction : Option Action}
    (position : startIndex owner.actions afterAction = before.length)
    (barrier : ∀ action ∈ before.getLast?, isHard action) :
    (rest = [] ∧ c.processActions owner afterAction = c.drive owner) ∨
      ∃ pending behind, pending ≠ [] ∧ rest = pending ++ behind ∧
        Together before pending behind ∧
        c.processActions owner afterAction =
          c.call (pending.map (owner.frame · (stopsDriving pending))) := by
  have split : owner.actions = before ++ rest := by simpa using listed.split
  have whole := batch_append_behindBatch rest
  rw [Config.processActions_eq, split]
  rw [split] at position
  rw [scheduleAfter_split position]
  cases chunk : batch rest with
  | nil =>
      cases behind : behindBatch rest with
      | nil =>
          rw [chunk, behind] at whole
          exact .inl ⟨whole.symm, rfl⟩
      | cons action actions =>
          rw [chunk, behind] at whole
          have hard := isHard_of_behindBatch_cons behind
          refine .inr ⟨[action], actions, by simp, whole.symm, .inl ⟨action, hard, rfl⟩, ?_⟩
          simp [stopsDriving, hard]
  | cons action actions =>
      refine .inr ⟨batch rest, behindBatch rest, by simp [chunk], whole.symm,
        .inr ⟨?_, barrier, ?_⟩, ?_⟩
      · exact fun other member => not_isHard_of_mem_batch member
      · intro other found
        cases behind : behindBatch rest with
        | nil =>
            rw [behind] at found
            cases found
        | cons head tail =>
            rw [behind] at found
            obtain rfl := Option.some.inj found
            exact isHard_of_behindBatch_cons behind
      · rw [chunk]

/-- What the end of an action between two HARD ones leads to. -/
private theorem continuation_parallel (listed : Listed owner start c agenda)
    (parallel : ∀ action ∈ agenda.current, isHard action = false)
    (barrier : ∀ action ∈ agenda.before.getLast?, isHard action)
    (next : ∀ action ∈ agenda.behind.head?, isHard action) {action : Action}
    (member : action ∈ agenda.dispatched) (ended : c.agv.isActionEnded action) :
    c.agv.continuation owner.actions action =
      match agenda.behind with
      | nextHardAction :: _ =>
          if agenda.current.all c.agv.isActionEnded then .executeHard nextHardAction else .wait
      | [] =>
          if agenda.current.all fun other => !isSoft other || c.agv.isActionEnded other then .drive
          else .wait := by
  have soft : isHard action = false := parallel action (by simp [Agenda.current, member])
  obtain ⟨left, right, around⟩ := List.append_of_mem
    (show action ∈ agenda.current by simp [Agenda.current, member])
  have split : owner.actions =
      (agenda.before ++ left) ++ action :: (right ++ agenda.behind) := by
    rw [listed.split, ← Agenda.current, around]
    simp
  have front : ∀ other ∈ agenda.before ++ left, other.actionId ≠ action.actionId :=
    fun other before => listed.apart split before List.mem_cons_self
  have leftSoft : ∀ other ∈ left.reverse, isHard other = false := fun other member =>
    parallel other (by simp [around, List.mem_reverse.mp member])
  have rightSoft : ∀ other ∈ right, isHard other = false := fun other member =>
    parallel other (by simp [around, member])
  have backward : batch (agenda.before ++ left).reverse = left.reverse := by
    rw [List.reverse_append, batch_append leftSoft,
      batch_of_head_isHard (head?_reverse_hard barrier), List.append_nil]
  have forward : batch (right ++ agenda.behind) = right := by
    rw [batch_append rightSoft, batch_of_head_isHard next, List.append_nil]
  have scanned : ∀ softOnly, c.agv.areParallelActionsEnded owner.actions action softOnly =
      agenda.current.all fun other => softOnly && !isSoft other || c.agv.isActionEnded other := by
    intro softOnly
    rw [split, areParallelActionsEnded_split front, Bool.eq_iff_iff, Bool.and_eq_true,
      parallelActionsEnded_iff, parallelActionsEnded_iff, backward, forward, around]
    cases softOnly <;> simp [ended, or_iff_not_imp_left]
  rw [continuation, if_neg (by simp [soft]), split,
    getHardBlockingActionAfterParallelActions_split front, ← split, behindBatch_append rightSoft,
    behindBatch_of_head_isHard next]
  cases agenda.behind with
  | nil => simp [scanned]
  | cons nextHardAction rest => simp [scanned]

/-- The adapter reports on an action it executes. -/
theorem report (listed : Listed owner start c agenda) {context : ActionContext}
    {change : ActionStatusChangeInfo} (member : context ∈ c.executing)
    (scope : context.scope = owner.scope) (vehicle : change.linkedState.actionStates = none) :
    Listed owner start (c.reportExecuted context change) agenda := by
  obtain ⟨since, dispatched, -⟩ := listed.executing context member scope
  have others : ∀ action : Action, action.actionId ≠ context.action.actionId →
      (c.reportExecuted context change).agv.isActionEnded action = c.agv.isActionEnded action := by
    intro action other
    rw [c.isActionEnded_reportExecuted vehicle, if_neg other]
  have log : (c.reportExecuted context change).log =
      c.log ++ [.actionStatus context change.actionStatus] := by simp [Config.reportExecuted]
  have executed : (c.reportExecuted context change).executedSince start owner =
      c.executedSince start owner := by
    rw [Config.executedSince_append listed.grown log]
    simp [executions]
  have executing : (c.reportExecuted context change).executing =
      if change.actionStatus.isEnded then c.executing.erase context else c.executing := by
    simp [Config.reportExecuted]
  refine
    { distinct := listed.distinct
      split := listed.split
      ended := ?_
      waiting := ?_
      grown := log ▸ listed.grown.trans (List.prefix_append _ _)
      executed := executed ▸ listed.executed
      stops := executed ▸ listed.stops
      stack := ?_
      once := ?_
      executing := ?_
      currentOrder := ?_
      notCanceling := ?_ }
  · intro action before
    rw [others action (listed.before_apart before dispatched)]
    exact listed.ended action before
  · intro action waiting
    rw [others action (listed.waiting_apart dispatched waiting).symm]
    exact listed.waiting action waiting
  · simpa [Config.reportExecuted] using listed.stack
  · intro other same
    rw [executing]
    have once := listed.once other same
    split
    · exact ((List.erase_sublist).count_le other).trans once
    · exact once
  · intro other remaining same
    rw [executing] at remaining
    rw [executed, c.isActionEnded_reportExecuted vehicle]
    cases ended : change.actionStatus.isEnded with
    | false =>
        rw [ended, if_neg (by simp)] at remaining
        obtain ⟨since, dispatched, going⟩ := listed.executing other remaining same
        refine ⟨since, dispatched, ?_⟩
        split
        · rfl
        · exact going
    | true =>
        rw [ended, if_pos rfl] at remaining
        obtain ⟨otherSince, otherDispatched, going⟩ :=
          listed.executing other (List.mem_of_mem_erase remaining) same
        refine ⟨otherSince, otherDispatched, ?_⟩
        -- a context that remains belongs to another execution, hence to another action
        have different : other ≠ context := by
          rintro rfl
          have counted := List.count_pos_iff.mpr remaining
          rw [List.count_erase_self] at counted
          have once := listed.once other same
          omega
        rw [if_neg, going]
        intro sameId
        have unique : ((c.executedSince start owner).map (·.action)).Nodup := by
          have distinct := List.Nodup.of_map _ listed.distinct
          rw [listed.split] at distinct
          rw [listed.executed]
          exact distinct.sublist (by simp)
        have sameAction := Library.eq_of_key Action.actionId listed.distinct
          (listed.mem_actions.mpr (.inr (.inl otherDispatched)))
          (listed.mem_actions.mpr (.inr (.inl dispatched))) sameId
        exact different (List.inj_on_of_nodup_map unique otherSince since sameAction)
  · have same : (c.reportExecuted context change).agv.currentOrder = c.agv.currentOrder :=
      congrArg Position.currentOrder (Config.reportActionStatus_position _ context change)
    rw [same]
    exact listed.currentOrder
  · intro actions
    simp only [Config.reportExecuted, Config.reportActionStatus, Config.observe,
      Config.updateState_agv]
    rw [cloneState_snd]
    exact listed.notCanceling actions

end Listed

/-- The list no longer holds up what follows it. -/
def Agenda.Releases (agenda : Agenda) (agv : AgvController) : Prop :=
  agenda.behind = [] ∧ (agenda.current = [] ∨
    (∀ action ∈ agenda.current, isHard action = false) ∧
      (∃ action ∈ agenda.current, agv.isActionEnded action) ∧
        ∀ action ∈ agenda.current, isSoft action → agv.isActionEnded action)

/-- A list waits for nothing but the actions executed together. -/
structure Scheduled (owner : ActionOwner) (start c : Config) (agenda : Agenda) : Prop extends
    Listed owner start c agenda where
  together : Together agenda.before agenda.current agenda.behind
  blocked : (agenda.behind ≠ [] ∨ ∃ action ∈ agenda.current, isHard action) →
    ∃ action ∈ agenda.current, c.agv.isActionEnded action = false

namespace Scheduled

variable {owner : ActionOwner} {start c next : Config} {agenda : Agenda}

theorem leave (scheduled : Scheduled owner start c agenda) {stack : List Frame}
    (leaves : Leaves owner.reserve { c with stack := stack } next)
    (same : stack.filter (·.owner = some owner) = c.stack.filter (·.owner = some owner)) :
    Scheduled owner start next agenda :=
  { scheduled.toListed.leave leaves same with
    together := scheduled.together
    blocked := fun behind => by
      obtain ⟨action, member, going⟩ := scheduled.blocked behind
      refine ⟨action, member, ?_⟩
      rw [leaves.isActionEnded (scheduled.reserved ?_)]
      · exact going
      · have dispatched := List.mem_append.mp member
        tauto }

/-- What follows the list is none of its own. -/
theorem drive (scheduled : Scheduled owner start c agenda) :
    Scheduled owner start (c.drive owner) agenda := by
  refine scheduled.leave (Config.drive_leaves c ?_) rfl
  cases owner with
  | edge edge => exact id
  | node node =>
      intro order current edge found
      exact ⟨by rintro ⟨⟩, id⟩

theorem take {before pending behind : List Action}
    (listed : Listed owner start c ⟨before, [], [], pending ++ behind⟩)
    (together : Together before pending behind) (some : pending ≠ []) :
    Scheduled owner start (c.call (pending.map (owner.frame · (stopsDriving pending))))
      ⟨before, [], pending, behind⟩ := by
  have taken : Listed owner start (c.call (pending.map (owner.frame · (stopsDriving pending))))
      ⟨before, [], pending, behind⟩ :=
    @Listed.take owner start c ⟨before, [], pending, behind⟩ listed rfl
  refine { taken with together := together, blocked := fun _ => ?_ }
  obtain ⟨action, member⟩ := List.exists_mem_of_ne_nil _ some
  exact ⟨action, member, listed.waiting action (by simp [member])⟩

private theorem not_releases_take {before pending behind : List Action}
    (listed : Listed owner start c ⟨before, [], [], pending ++ behind⟩) (some : pending ≠ []) :
    ¬ Agenda.Releases ⟨before, [], pending, behind⟩ c.agv := by
  rintro ⟨-, none | ⟨-, ⟨action, member, ended⟩, -⟩⟩
  · exact some none
  · have going := listed.waiting action (List.mem_append_right _ (List.mem_append_left _ member))
    rw [going] at ended
    cases ended

/-- A list without actions being executed is scheduled on, or followed by what
it has held up. -/
theorem schedule {before rest : List Action}
    (listed : Listed owner start c ⟨before, [], [], rest⟩) {afterAction : Option Action}
    (position : startIndex owner.actions afterAction = before.length)
    (barrier : ∀ action ∈ before.getLast?, isHard action) :
    (c.processActions owner afterAction = c.drive owner ∧
        Scheduled owner start c ⟨before, [], [], []⟩) ∨
      ∃ pending behind,
        c.processActions owner afterAction =
            c.call (pending.map (owner.frame · (stopsDriving pending))) ∧
          Scheduled owner start (c.processActions owner afterAction) ⟨before, [], pending, behind⟩ ∧
          ¬ Agenda.Releases ⟨before, [], pending, behind⟩ c.agv := by
  rcases listed.schedule position barrier with ⟨rfl, driven⟩ |
    ⟨pending, behind, some, rfl, together, called⟩
  · refine .inl ⟨driven, { listed with together := .inr ⟨?_, barrier, ?_⟩, blocked := ?_ }⟩
    · exact fun action member => absurd member List.not_mem_nil
    · exact fun action found => by cases found
    · rintro (behind | ⟨action, member, -⟩)
      · exact absurd rfl behind
      · cases member
  · exact .inr ⟨pending, behind, called, called ▸ take listed together some,
      not_releases_take listed some⟩

/-- What the end of an action of the list leads to. -/
theorem actionEnded_cases (listed : Listed owner start c agenda)
    (together : Together agenda.before agenda.current agenda.behind) {action : Action}
    (member : action ∈ agenda.dispatched) (ended : c.agv.isActionEnded action) :
    (∃ agenda, c.actionEnded owner action = c.drive owner ∧
        Scheduled owner start c agenda ∧ agenda.Releases c.agv) ∨
      (∃ later frames, c.actionEnded owner action = c.call frames ∧
        (∀ frame ∈ frames, frame.owner = some owner) ∧
        Scheduled owner start (c.call frames) later ∧ ¬ later.Releases c.agv ∧
        ¬ agenda.Releases c.agv) ∨
      c.actionEnded owner action = c ∧ Scheduled owner start c agenda ∧
        ¬ agenda.Releases c.agv := by
  rw [Config.actionEnded_eq]
  rcases together with ⟨hardAction, hard, single⟩ | ⟨parallel, barrier, next⟩
  · -- a HARD action has ended
    obtain ⟨dispatched, pending⟩ : agenda.dispatched = [hardAction] ∧ agenda.pending = [] := by
      rcases List.append_eq_singleton_iff.mp single with ⟨none, -⟩ | parts
      · rw [none] at member
        cases member
      · exact parts
    obtain rfl : action = hardAction := by simpa [dispatched] using member
    have concluded := listed.conclude pending (by simpa [dispatched] using ended)
    rw [dispatched] at concluded
    have split : owner.actions = agenda.before ++ action :: agenda.behind := by
      rw [listed.split, dispatched, pending]
      simp
    have front : ∀ other ∈ agenda.before, other.actionId ≠ action.actionId := fun other before =>
      listed.before_apart before member
    have position : startIndex owner.actions (some action) =
        (agenda.before ++ [action]).length := by
      rw [split, startIndex_split front, List.length_append, List.length_singleton]
    have last : ∀ other ∈ (agenda.before ++ [action]).getLast?, isHard other := by
      simpa using hard
    have held : ¬ agenda.Releases c.agv := by
      rintro ⟨-, none | ⟨parallel, -, -⟩⟩
      · rw [single] at none
        cases none
      · have soft := parallel action (by simp [single])
        rw [hard] at soft
        cases soft
    rw [continuation, if_pos hard]
    rcases schedule concluded position last with ⟨driven, scheduled⟩ |
      ⟨later, behind, called, scheduled, holding⟩
    · exact .inl ⟨_, driven, scheduled, rfl, .inl rfl⟩
    · refine .inr (.inl ⟨_, _, called, by simp, called ▸ scheduled, holding, held⟩)
  · -- an action between two HARD ones has ended
    have decided := listed.continuation_parallel parallel barrier next member ended
    have together : Together agenda.before agenda.current agenda.behind :=
      .inr ⟨parallel, barrier, next⟩
    have current : action ∈ agenda.current := List.mem_append_left _ member
    rw [decided]
    cases behind : agenda.behind with
    | nil =>
        have scheduled : Scheduled owner start c agenda :=
          { listed with
            together := together
            blocked := by
              rintro (some | ⟨other, member, hard⟩)
              · exact absurd behind some
              · rw [parallel other member] at hard
                cases hard }
        dsimp only
        by_cases softs : agenda.current.all fun other => !isSoft other || c.agv.isActionEnded other
        · rw [if_pos softs]
          refine .inl ⟨agenda, rfl, scheduled, behind, .inr ⟨parallel, ⟨action, current, ended⟩, ?_⟩⟩
          intro other member soft
          simpa [soft] using List.all_eq_true.mp softs other member
        · rw [if_neg softs]
          refine .inr (.inr ⟨rfl, scheduled, ?_⟩)
          rintro ⟨-, none | ⟨-, -, released⟩⟩
          · rw [none] at current
            cases current
          · refine softs (List.all_eq_true.mpr fun other member => ?_)
            cases soft : isSoft other with
            | false => rfl
            | true => simpa using released other member soft
    | cons nextHardAction rest =>
        have held : ¬ agenda.Releases c.agv := fun released => by
          rw [released.1] at behind
          cases behind
        dsimp only
        by_cases all : agenda.current.all c.agv.isActionEnded
        · rw [if_pos all]
          have finished : ∀ other ∈ agenda.current, c.agv.isActionEnded other :=
            List.all_eq_true.mp all
          have pending : agenda.pending = [] := by
            rw [List.eq_nil_iff_forall_not_mem]
            intro other waiting
            have going := listed.waiting other (List.mem_append_left _ waiting)
            rw [finished other (List.mem_append_right _ waiting)] at going
            cases going
          have hard : isHard nextHardAction := next _ (by rw [behind]; rfl)
          have concluded := listed.conclude pending
            (fun other member => finished other (List.mem_append_left _ member))
          rw [behind, ← List.singleton_append] at concluded
          have stops : stopsDriving [nextHardAction] = true := by simp [stopsDriving, hard]
          have scheduled := take concluded
            (.inl ⟨nextHardAction, hard, rfl⟩) (by simp)
          have holding := not_releases_take concluded (by simp)
          rw [stops] at scheduled
          exact .inr (.inl ⟨_, _, rfl, by simp, scheduled, holding, held⟩)
        · rw [if_neg all]
          refine .inr (.inr ⟨rfl,
            { listed with together := together, blocked := fun _ => ?_ }, held⟩)
          by_contra none
          refine all (List.all_eq_true.mpr fun other member => ?_)
          by_contra going
          exact none ⟨other, member, by simpa using going⟩

/-- The next action of the list is executed. -/
theorem proceed (scheduled : Scheduled owner start c agenda) (running : c.crashed = false)
    {frame : Frame} {stack : List Frame} (top : c.stack = frame :: stack)
    (own : frame.owner = some owner) :
    ∃ dispatched pending context, dispatched ++ pending = agenda.current ∧
      context.scope = owner.scope ∧
      c.proceed = { c with stack := stack }.handOver context ∧
      Scheduled owner start c.proceed ⟨agenda.before, dispatched, pending, agenda.behind⟩ := by
  obtain ⟨action, pending, context, next, rfl, scope, stops, rest, proceeded⟩ :=
    scheduled.proceed_own running top own
  have same : (agenda.dispatched ++ [context.action]) ++ pending = agenda.current := by
    simp [Agenda.current, next]
  have dispatched := scheduled.dispatch scheduled.together next scope stops rest
  refine ⟨_, pending, context, same, scope, proceeded, ?_⟩
  rw [proceeded]
  exact
    { dispatched with
      together := by
        rw [Agenda.current, same]
        exact scheduled.together
      blocked := by
        rw [Agenda.current, same]
        exact scheduled.blocked }

/-- The adapter reports on an action of the list. -/
theorem adapterReports_eq (scheduled : Scheduled owner start c agenda) {context : ActionContext}
    {change : ActionStatusChangeInfo} (member : context ∈ c.executing)
    (scope : context.scope = owner.scope) :
    c.adapterReports context change =
      if change.actionStatus.isEnded then
        (c.reportExecuted context change).actionEnded owner context.action
      else c.reportExecuted context change := by
  have some : owner.actions ≠ [] := by
    intro none
    have listed := scheduled.mem_actions.mpr
      (.inr (.inl (scheduled.executing context member scope).2.1))
    rw [none] at listed
    cases listed
  have notCanceling : (c.reportExecuted context change).agv.hasCancelingOrder = false := by
    simp only [Config.reportExecuted, Config.reportActionStatus, Config.observe,
      Config.updateState_agv, hasCancelingOrder]
    rw [cloneState_snd]
    simp [scheduled.notCanceling some]
  have order : context.scope ≠ .instant := by
    rw [scope]
    cases owner <;> simp [ActionOwner.scope]
  unfold Config.adapterReports Config.updateActionStatusCallback Config.updateActionStatus
  dsimp only
  rw [if_neg (by simp [order]), ← Config.reportExecuted, notCanceling]
  cases change.actionStatus.isEnded with
  | false => rfl
  | true =>
      rw [scope]
      cases owner <;> rfl

theorem reported (scheduled : Scheduled owner start c agenda) {context : ActionContext}
    {change : ActionStatusChangeInfo} (member : context ∈ c.executing)
    (scope : context.scope = owner.scope) (vehicle : change.linkedState.actionStates = none)
    (going : change.actionStatus.isEnded = false) :
    Scheduled owner start (c.reportExecuted context change) agenda :=
  { scheduled.report member scope vehicle with
    together := scheduled.together
    blocked := fun behind => by
      obtain ⟨action, current, notEnded⟩ := scheduled.blocked behind
      refine ⟨action, current, ?_⟩
      rw [c.isActionEnded_reportExecuted vehicle]
      split
      · exact going
      · exact notEnded }

end Scheduled

/-- The next action of the list is executed, or the adapter reports on one it executes. -/
def Concerns (owner : ActionOwner) (c : Config) : Event → Prop
  | .proceed => ∃ frame ∈ c.stack.head?, frame.owner = some owner
  | .updateActionStatus context change =>
      context ∈ c.executing ∧ context.scope = owner.scope ∧
        change.linkedState.actionStates = none
  | _ => False

instance (owner : ActionOwner) (c : Config) (event : Event) : Decidable (Concerns owner c event) :=
  match event with
  | .proceed => inferInstanceAs (Decidable (∃ frame ∈ c.stack.head?, frame.owner = some owner))
  | .updateActionStatus context change =>
      inferInstanceAs (Decidable (context ∈ c.executing ∧ context.scope = owner.scope ∧
        change.linkedState.actionStates = none))
  | .order .. | .invalidOrder .. | .instantActions .. | .invalidInstantActions ..
  | .edgeTraversed _ | .stopped _ | .drivingToNextNode _ | .updatePartialState ..
  | .updateErrors .. | .publishTimer | .published _ | .connection _ => isFalse id

def Event.isProceed : Event → Bool
  | .proceed => true
  | _ => false

/-- Whatever else happens while a list is processed leaves the list alone. A
controller that has ended does nothing more. -/
def Attends (owner : ActionOwner) (c : Config) (event : Event) : Prop :=
  c.crashed = false ∧ (Concerns owner c event ∨ Config.Disregards owner.reserve c event)

/-- Steps of the list alone, and returns from the adapter. -/
def Dispatches (owner : ActionOwner) (c : Config) (event : Event) : Prop :=
  c.crashed = false ∧ (Concerns owner c event ∨ event.isProceed ∧ c.stack.head? = some .adapter)

instance (owner : ActionOwner) (c : Config) (event : Event) :
    Decidable (Dispatches owner c event) :=
  inferInstanceAs (Decidable (_ ∧ (_ ∨ _)))

theorem Dispatches.attends {owner : ActionOwner} {c : Config} {event : Event}
    (dispatches : Dispatches owner c event) : Attends owner c event := by
  obtain ⟨running, concerns | ⟨proceed, adapter⟩⟩ := dispatches
  · exact ⟨running, .inl concerns⟩
  · cases event with
    | proceed =>
        refine ⟨running, .inr fun frame found => ?_⟩
        rw [adapter] at found
        obtain rfl := Option.some.inj found
        trivial
    | _ => cases proceed

theorem Config.FrameSpares.other {reserve : Reserve} {c : Config} {frame : Frame}
    (spares : FrameSpares reserve c frame) : ∀ owner ∈ frame.owner, ¬ reserve.lists owner := by
  intro owner found
  cases frame with
  | processNodeAction node action stopDriving =>
      obtain rfl := Option.some.inj found
      exact spares
  | processEdgeAction edge action stopDriving =>
      obtain rfl := Option.some.inj found
      exact spares
  | _ => cases found

theorem Config.Disregards.remaining {owner : ActionOwner} {c : Config} {event : Event}
    (disregards : Disregards owner.reserve c event) :
    (c.remainingStack event).filter (·.owner = some owner) =
      c.stack.filter (·.owner = some owner) := by
  cases event with
  | proceed =>
      simp only [remainingStack]
      cases top : c.stack with
      | nil => rfl
      | cons frame stack =>
          have other := (disregards frame (by rw [top]; rfl)).other
          rw [List.tail_cons, List.filter_cons, if_neg]
          intro own
          exact other owner (of_decide_eq_true own) rfl
  | _ => rfl

theorem Scheduled.perform {owner : ActionOwner} {start c : Config} {agenda : Agenda}
    (scheduled : Scheduled owner start c agenda) {event : Event} (attends : Attends owner c event) :
    ∃ agenda, Scheduled owner start (c.perform event) agenda := by
  obtain ⟨running, concerns | disregards⟩ := attends
  · cases event with
    | proceed =>
        obtain ⟨frame, top, own⟩ := concerns
        cases stack : c.stack with
        | nil =>
            rw [stack] at top
            cases top
        | cons head rest =>
            rw [stack] at top
            obtain rfl := Option.some.inj top
            obtain ⟨dispatched, pending, context, -, -, -, next⟩ :=
              scheduled.proceed running stack own
            exact ⟨_, next⟩
    | updateActionStatus context change =>
        obtain ⟨member, scope, vehicle⟩ := concerns
        have listed := scheduled.report member scope vehicle
        have dispatched := (scheduled.executing context member scope).2.1
        simp only [Config.perform]
        rw [scheduled.adapterReports_eq member scope]
        cases ended : change.actionStatus.isEnded with
        | false =>
            rw [if_neg (by simp)]
            exact ⟨agenda, scheduled.reported member scope vehicle ended⟩
        | true =>
            have finished : (c.reportExecuted context change).agv.isActionEnded context.action := by
              rw [c.isActionEnded_reportExecuted vehicle, if_pos rfl, ended]
            rw [if_pos rfl]
            rcases Scheduled.actionEnded_cases listed scheduled.together dispatched finished with
              ⟨later, driven, next, -⟩ | ⟨later, frames, called, -, next, -⟩ | ⟨waited, next, -⟩
            · exact ⟨later, driven ▸ next.drive⟩
            · exact ⟨later, called ▸ next⟩
            · exact ⟨agenda, waited.symm ▸ next⟩
    | _ => cases concerns
  · have leaves := Config.perform_leaves c disregards
    exact ⟨agenda, scheduled.leave leaves disregards.remaining⟩


/-! ## Blocking semantics -/

/-- A list that is about to be processed for the first time, for an order that
is not being canceled. -/
structure Unprocessed (owner : ActionOwner) (c : Config) : Prop where
  distinct : (actionIds owner.actions).Nodup
  waiting : ∀ action ∈ owner.actions, c.agv.isActionEnded action = false
  stack : ∀ frame ∈ c.stack, frame.owner ≠ some owner
  executing : ∀ context ∈ c.executing, context.scope ≠ owner.scope
  currentOrder : c.agv.currentOrder.isSome
  notCanceling : c.agv.cancelOrderContext = none

/-- The actions of a list as they have been executed since it was started. What
is said about an action holds from its execution on. -/
structure BlockingSemantics (owner : ActionOwner) (start c : Config) : Prop where
  once : ((c.executedSince start owner).map (·.action)).Nodup
  afterAll : ∀ context ∈ c.executedSince start owner, isHard context.action →
    ∀ before after, owner.actions = before ++ context.action :: after →
      ∀ earlier ∈ before, c.agv.isActionEnded earlier
  afterHard : ∀ context ∈ c.executedSince start owner,
    ∀ before after, owner.actions = before ++ context.action :: after →
      ∀ barrier ∈ before, isHard barrier → c.agv.isActionEnded barrier
  stopDriving : ∀ context ∈ c.executedSince start owner,
    ∀ before after, owner.actions = before ++ context.action :: after →
      (context.stopDriving = some true ↔
        isHard context.action ∨ isSoft context.action ∨
          ∃ action ∈ parallelTo before after, isSoft action)
  complete : c.crashed = false → (∀ frame ∈ c.stack, frame.owner ≠ some owner) →
    (∀ context ∈ c.executedSince start owner, c.agv.isActionEnded context.action) →
      ∀ action ∈ owner.actions, ∃ context ∈ c.executedSince start owner, context.action = action

theorem Unprocessed.listed {owner : ActionOwner} {start : Config}
    (unprocessed : Unprocessed owner start) :
    Listed owner start start ⟨[], [], [], owner.actions⟩ := by
  have nothing : start.executedSince start owner = [] := by simp [Config.executedSince, executions]
  exact
    { distinct := unprocessed.distinct
      split := rfl
      ended := fun _ member => absurd member List.not_mem_nil
      waiting := unprocessed.waiting
      grown := List.prefix_refl _
      executed := by rw [nothing]; rfl
      stops := fun context member => by
        rw [nothing] at member
        cases member
      stack := fun _ => by
        rw [List.map_nil, List.filter_eq_nil_iff]
        intro frame member own
        exact unprocessed.stack frame member (of_decide_eq_true own)
      once := fun context scope => by
        rw [List.count_eq_zero.mpr fun member => unprocessed.executing context member scope]
        exact Nat.zero_le 1
      executing := fun context member scope => absurd scope (unprocessed.executing context member)
      currentOrder := unprocessed.currentOrder
      notCanceling := fun _ => unprocessed.notCanceling }

/-- The list is scheduled from its start. -/
theorem Unprocessed.schedule {owner : ActionOwner} {start : Config}
    (unprocessed : Unprocessed owner start) :
    (start.processActions owner none = start.drive owner ∧
        Scheduled owner start start ⟨[], [], [], []⟩) ∨
      ∃ pending behind,
        start.processActions owner none =
            start.call (pending.map (owner.frame · (stopsDriving pending))) ∧
          Scheduled owner start (start.processActions owner none) ⟨[], [], pending, behind⟩ ∧
          ¬ Agenda.Releases ⟨[], [], pending, behind⟩ start.agv := by
  have position : startIndex owner.actions none = ([] : List Action).length := rfl
  exact Scheduled.schedule unprocessed.listed position fun action found => by cases found

theorem Unprocessed.processActions {owner : ActionOwner} {start : Config}
    (unprocessed : Unprocessed owner start) :
    ∃ agenda, Scheduled owner start (start.processActions owner none) agenda := by
  rcases unprocessed.schedule with ⟨driven, scheduled⟩ | ⟨pending, behind, -, scheduled, -⟩
  · exact ⟨_, driven ▸ scheduled.drive⟩
  · exact ⟨_, scheduled⟩

theorem Scheduled.of_run {owner : ActionOwner} {start c : Config} {events : List Event}
    (unprocessed : Unprocessed owner start)
    (run : Library.Run Config.step (Attends owner) (start.processActions owner none) events c) :
    ∃ agenda, Scheduled owner start c agenda := by
  refine run.invariant (fun c => ∃ agenda, Scheduled owner start c agenda)
    unprocessed.processActions ?_
  intro events c event next run scheduled attends stepped
  obtain ⟨agenda, scheduled⟩ := scheduled
  obtain ⟨-, rfl⟩ := Config.step_eq_some.mp stepped
  exact scheduled.perform attends

private theorem mem_of_split {Element : Type} {front behind before after : List Element}
    {element : Element} (unique : (front ++ behind).Nodup) (member : element ∈ front)
    (split : front ++ behind = before ++ element :: after) : ∀ earlier ∈ before, earlier ∈ front := by
  intro earlier included
  rcases List.append_eq_append_iff.mp split with ⟨middle, -, rest⟩ | ⟨middle, rfl, -⟩
  · have disjoint := (List.nodup_append.mp unique).2.2 element member element
    rw [rest] at disjoint
    exact absurd rfl (disjoint (by simp))
  · exact List.mem_append_left _ included

namespace Scheduled

variable {owner : ActionOwner} {start c : Config} {agenda : Agenda}

theorem nodup (scheduled : Scheduled owner start c agenda) :
    ((agenda.before ++ agenda.current) ++ agenda.behind).Nodup := by
  have distinct := List.Nodup.of_map _ scheduled.distinct
  rwa [scheduled.split] at distinct

/-- What stands in front of an executed action has been dispatched, or is
executed together with it. -/
theorem earlier (scheduled : Scheduled owner start c agenda) {context : ActionContext}
    (executed : context ∈ c.executedSince start owner) {before after : List Action}
    (split : owner.actions = before ++ context.action :: after) {action : Action}
    (member : action ∈ before) :
    c.agv.isActionEnded action ∨
      isHard context.action = false ∧ isHard action = false := by
  have listed : context.action ∈ agenda.before ++ agenda.dispatched := by
    rw [← scheduled.executed]
    exact List.mem_map_of_mem executed
  have unique := scheduled.nodup
  have whole : agenda.before ++ agenda.current ++ agenda.behind =
      before ++ context.action :: after := scheduled.split.symm.trans split
  have front : context.action ∈ agenda.before ++ agenda.current := by
    rcases List.mem_append.mp listed with listed | listed
    · exact List.mem_append_left _ listed
    · exact List.mem_append_right _ (List.mem_append_left _ listed)
  rcases List.mem_append.mp (mem_of_split unique front whole action member) with ended | current
  · exact .inl (scheduled.ended action ended)
  · rcases List.mem_append.mp listed with done | dispatched
    · rw [List.append_assoc] at unique whole
      exact .inl (scheduled.ended action (mem_of_split unique done whole action member))
    · rcases scheduled.together with ⟨hardAction, hard, single⟩ | ⟨parallel, -, -⟩
      · rw [single, List.mem_singleton] at current
        have same : context.action ∈ agenda.current := List.mem_append_left _ dispatched
        rw [single, List.mem_singleton] at same
        rw [whole] at unique
        have different := (List.nodup_append.mp unique).2.2 action member context.action (by simp)
        exact absurd (current.trans same.symm) different
      · exact .inr ⟨parallel _ (List.mem_append_left _ dispatched), parallel _ current⟩

private theorem blockingSemantics (scheduled : Scheduled owner start c agenda) :
    BlockingSemantics owner start c where
  once := by
    have unique := scheduled.nodup
    rw [scheduled.executed]
    exact unique.sublist (by simp [Agenda.current])
  afterAll context executed hard before after split earlier member := by
    rcases scheduled.earlier executed split member with ended | ⟨soft, -⟩
    · exact ended
    · rw [hard] at soft
      cases soft
  afterHard context executed before after split barrier member hard := by
    rcases scheduled.earlier executed split member with ended | ⟨-, soft⟩
    · exact ended
    · rw [hard] at soft
      cases soft
  stopDriving context executed before after split := by
    obtain ⟨before', current, behind', split', together, member, stops⟩ :=
      scheduled.stops context executed
    obtain ⟨left, right, rfl⟩ := List.append_of_mem member
    have unique := List.Nodup.of_map _ scheduled.distinct
    have whole : before' ++ left ++ context.action :: (right ++ behind') =
        before ++ context.action :: after := by
      rw [← split, split']
      simp
    rw [split, List.nodup_append, List.nodup_cons] at unique
    obtain ⟨-, ⟨behind, -⟩, front⟩ := unique
    have notBefore : context.action ∉ before := fun included =>
      front _ included _ List.mem_cons_self rfl
    obtain ⟨rfl, -, rfl⟩ := (List.append_cons_inj_of_notMem notBefore behind).mp whole.symm
    rw [stops, Option.some.injEq, ← together.stopsDriving_iff]
  complete running done ended action member := by
    have calls := scheduled.stack running
    have own : c.stack.filter (·.owner = some owner) = [] := by
      rw [List.filter_eq_nil_iff]
      intro frame member own
      exact done frame member (of_decide_eq_true own)
    rw [own] at calls
    have pending : agenda.pending = [] := List.map_eq_nil_iff.mp calls.symm
    have executed : ∀ action ∈ agenda.before ++ agenda.dispatched,
        ∃ context ∈ c.executedSince start owner, context.action = action := by
      intro action member
      rw [← scheduled.executed] at member
      exact List.mem_map.mp member
    have behind : agenda.behind = [] := by
      by_contra some
      obtain ⟨action, current, going⟩ := scheduled.blocked (.inl some)
      rw [Agenda.current, pending, List.append_nil] at current
      obtain ⟨context, since, rfl⟩ := executed action (List.mem_append_right _ current)
      rw [ended context since] at going
      cases going
    refine executed action ?_
    rw [scheduled.split, pending, behind] at member
    simpa using member

end Scheduled

/-- Every list is executed by its blocking types, whenever its actions end. -/
theorem blockingSemantics_of_run {owner : ActionOwner} {start c : Config} {events : List Event}
    (unprocessed : Unprocessed owner start)
    (run : Library.Run Config.step (Attends owner) (start.processActions owner none) events c) :
    BlockingSemantics owner start c := by
  obtain ⟨agenda, scheduled⟩ := Scheduled.of_run unprocessed run
  exact scheduled.blockingSemantics

/-- A node with actions of every blocking type. -/
def dockNode : Node where
  nodeId := "dock"
  sequenceId := 0
  released := true
  actions :=
    [{ actionId := "light", actionType := "light", blockingType := .none },
      { actionId := "beep", actionType := "beep", blockingType := .soft },
      { actionId := "lift", actionType := "lift", blockingType := .hard }]

def dockConfig : Config :=
  { Config.initial 5 with
    agv :=
      { AgvController.initial 5 with
        currentOrder := some
          { orderId := "order", orderUpdateId := 0, nodes := [dockNode], edges := [] } } }

/-- The first action ends while the second one is still to be executed. -/
theorem blockingSemantics_of_dockNode :
    ∃ events c,
      Library.Run Config.step (Attends (.node dockNode))
        (dockConfig.processActions (.node dockNode) none) events c ∧
      BlockingSemantics (.node dockNode) dockConfig c ∧
      (c.executedSince dockConfig (.node dockNode)).map (·.action) = dockNode.actions := by
  let context (action : Action) : ActionContext :=
    { action := action
      scope := .node dockNode
      stopDriving := some true
      activeOrderId := some "order" }
  have passed : (Library.execute Config.step (Dispatches (.node dockNode))
      (dockConfig.processActions (.node dockNode) none)
      [.proceed,
        .updateActionStatus
          (context { actionId := "light", actionType := "light", blockingType := .none })
          { actionStatus := .finished },
        .proceed, .proceed, .proceed,
        .updateActionStatus
          (context { actionId := "beep", actionType := "beep", blockingType := .soft })
          { actionStatus := .failed },
        .proceed]).any (fun c => decide
          ((c.executedSince dockConfig (.node dockNode)).map (·.action) = dockNode.actions)) =
      true := by decide
  obtain ⟨c, run, executed⟩ := Library.exists_run_of_execute passed
  have unprocessed : Unprocessed (.node dockNode) dockConfig :=
    { distinct := by decide
      waiting := by decide
      stack := by decide
      executing := by decide
      currentOrder := rfl
      notCanceling := rfl }
  have run := run.weaken fun c event => Dispatches.attends
  exact ⟨_, c, run, blockingSemantics_of_run unprocessed run, of_decide_eq_true executed⟩

end Vda5050
