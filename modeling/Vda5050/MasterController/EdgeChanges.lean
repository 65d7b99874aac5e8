import Vda5050.MasterController.CallbackProtocol
import Vda5050.Library.Deltas

/-!
# Changes reported on an edge

While an edge is being traversed, the handler is called with the properties of
a State that are not as reported before. What has been reported is kept in one
snapshot of an order, also where the State leads on to the next edge, so the
reports of an edge stand on their own only if the edge before it has been
reported as traversed by then.
-/

set_option autoImplicit false

namespace Vda5050

namespace MasterController

/-! ## Merging changes -/

/-- `{ ...reported, ...changes }` -/
def EdgeStateChanges.merge (reported changes : EdgeStateChanges) : EdgeStateChanges where
  distanceSinceLastNode := changes.distanceSinceLastNode <|> reported.distanceSinceLastNode
  driving := changes.driving <|> reported.driving
  newBaseRequest := changes.newBaseRequest <|> reported.newBaseRequest
  operatingMode := changes.operatingMode <|> reported.operatingMode
  paused := changes.paused <|> reported.paused
  safetyState := changes.safetyState <|> reported.safetyState

/-- The value of a property, if it is not as reported before. -/
def newValue {Value : Type} [DecidableEq Value] (reported : Option Value) (current : Value) :
    Option Value :=
  if reported = some current then none else some current

/-- The properties that are not as reported before. -/
def EdgeStateChanges.news (reported : EdgeStateChanges) (current : EdgeStateValues) :
    EdgeStateChanges where
  distanceSinceLastNode := newValue reported.distanceSinceLastNode current.distanceSinceLastNode
  driving := newValue reported.driving current.driving
  newBaseRequest := newValue reported.newBaseRequest current.newBaseRequest
  operatingMode := newValue reported.operatingMode current.operatingMode
  paused := newValue reported.paused current.paused
  safetyState := newValue reported.safetyState current.safetyState

section

variable {Value : Type} [DecidableEq Value]

private theorem newValue_orElse (reported : Option Value) (current : Value) :
    (newValue reported current <|> reported) = some current := by
  unfold newValue
  split
  · next same => simp [same]
  · simp

private theorem newValue_eq_none {reported : Option Value} {current : Value} :
    newValue reported current = none ↔ reported = some current := by
  unfold newValue
  split <;> simp [*]

private theorem newValue_some (last current : Value) :
    newValue (some last) current = changed last current := by
  simp [newValue, changed]

end

/-- The changes reported on an edge, as deltas of the six properties. -/
def edgeChanges : Library.DeltaFormat EdgeStateValues EdgeStateChanges where
  empty := {}
  full := allChanges
  merge := EdgeStateChanges.merge
  news := EdgeStateChanges.news
  empty_merge := by
    intro changes
    simp [EdgeStateChanges.merge]
  merge_news := by
    intro reported current
    simp only [EdgeStateChanges.merge, EdgeStateChanges.news, newValue_orElse, allChanges]
  full_ne_empty := by
    intro current same
    cases congrArg EdgeStateChanges.driving same
  news_eq_empty := by
    intro reported current
    simp only [EdgeStateChanges.news, allChanges, EdgeStateChanges.mk.injEq, newValue_eq_none]
    cases reported
    simp only [EdgeStateChanges.mk.injEq]

private theorem allChanges_injective {last current : EdgeStateValues} :
    allChanges last = allChanges current ↔ last = current := by
  constructor
  · intro same
    cases last
    cases current
    simpa [allChanges] using same
  · rintro rfl
    rfl

/-- Against a snapshot, the news are the deltas. -/
private theorem news_allChanges (last current : EdgeStateValues) :
    (allChanges last).news current = edgeStateDeltas last current := by
  simp only [EdgeStateChanges.news, allChanges, newValue_some, edgeStateDeltas]

/-! ## Callbacks on edges -/

inductive EdgeCallback where
  | traversing (edge : Edge) (stateChanges : EdgeStateChanges) (invocationCount : Nat)
  | traversed (edge : Edge)
  deriving DecidableEq, Repr

def EdgeCallback.edge : EdgeCallback → Edge
  | .traversing edge .. | .traversed edge => edge

/-- The callback on an edge that is invoked on the handler of an order. -/
def Notification.edgeCallback (ref : Nat) : Notification → Option EdgeCallback
  | .edgeTraversing cache edge _ _ stateChanges invocationCount =>
      if cache = ref then some (.traversing edge stateChanges invocationCount) else none
  | .edgeTraversed cache edge _ _ => if cache = ref then some (.traversed edge) else none
  | .orderProcessed .. | .nodeTraversed .. | .actionStateChanged ..
  | .instantActionStateChanged .. | .instantActionError .. => none

def edgeCallbacks (ref : Nat) (notifications : List Notification) : List EdgeCallback :=
  notifications.filterMap (·.edgeCallback ref)

/-- The changes and the counts that `onEdgeTraversing` is called with on an edge. -/
def traversingCalls (edge : Edge) (callbacks : List EdgeCallback) :
    List (EdgeStateChanges × Nat) :=
  callbacks.filterMap fun
    | .traversing other stateChanges invocationCount =>
        if other = edge then some (stateChanges, invocationCount) else none
    | .traversed _ => none

/-- An edge being traversed, with the changes reported on it so far. -/
structure Traversal where
  edge : Edge
  reports : List EdgeStateChanges
  deriving DecidableEq, Repr

def reportsOn (edge : Edge) : Option Traversal → List EdgeStateChanges
  | none => []
  | some traversal => if traversal.edge = edge then traversal.reports else []

def continueTraversal (traversal : Option Traversal) : EdgeCallback → Option Traversal
  | .traversing edge stateChanges _ =>
      some { edge := edge, reports := reportsOn edge traversal ++ [stateChanges] }
  | .traversed _ => none

/-- The traversal that is going on after some callbacks. -/
def traversalAfter (callbacks : List EdgeCallback) : Option Traversal :=
  callbacks.foldl continueTraversal none

/-- One more State is reported by the properties that are not as reported
before, and only if there are any. -/
structure Composes (reports : List EdgeStateChanges) (current : EdgeStateValues)
    (calls : List (EdgeStateChanges × Nat)) : Prop where
  happens : calls ≠ [] ↔ reports = [] ∨ edgeChanges.merged reports ≠ allChanges current
  once : calls.length ≤ 1
  changes : ∀ call ∈ calls, call.1 = (edgeChanges.merged reports).news current
  counted : ∀ call ∈ calls, call.2 = reports.length + 1
  merged : edgeChanges.merged (reports ++ calls.map (·.1)) = allChanges current
  first : reports = [] → calls = [(allChanges current, 1)]

private theorem Composes.of_continues {reports changes : List EdgeStateChanges}
    {current : EdgeStateValues} (continues : edgeChanges.Continues reports current changes) :
    Composes reports current (changes.map fun change => (change, reports.length + 1)) where
  happens := by
    rw [ne_eq, List.map_eq_nil_iff, ← ne_eq, continues.ne_nil_iff]
    constructor
    · exact .inr
    · rintro (rfl | differs)
      · exact (edgeChanges.full_ne_empty current).symm
      · exact differs
  once := by
    cases continues <;> simp
  changes := by
    intro call member
    cases continues with
    | same known => cases member
    | report differs => rw [List.mem_singleton.mp member]; rfl
  counted := by
    intro call member
    obtain ⟨change, -, rfl⟩ := List.mem_map.mp member
    rfl
  merged := by
    rw [List.map_map]
    exact (List.map_id changes).symm ▸ continues.merged_append
  first := by
    rintro rfl
    rw [continues.eq_full_of_nil]
    rfl

/-! ## Looking at an edge -/

def isEdgeListed (state : State) (edge : Edge) : Bool :=
  state.edgeStates.any fun s => s.edgeId = edge.edgeId && s.sequenceId = edge.sequenceId

/-- The snapshot of a cache is what has been reported on the edge being traversed. -/
structure SnapshotOf (traversal : Option Traversal) (cache : OrderStateCache) : Prop where
  lastEdgeStateChanges : cache.lastEdgeStateChanges.map allChanges =
    traversal.map (edgeChanges.merged ·.reports)
  edgeStateChangeInvocations : cache.edgeStateChangeInvocations =
    (traversal.map (·.reports.length)).getD 0

/-- No other edge is being traversed. -/
def IsAlone (edge : Edge) (traversal : Option Traversal) : Prop :=
  ∀ other, traversal = some other → other.edge = edge

/-- The calls of `onEdgeTraversing` for some changes. -/
def callsOn (edge : Edge) (reports changes : List EdgeStateChanges) : List EdgeCallback :=
  changes.map fun change => .traversing edge change (reports.length + 1)

section

variable {ref : Nat} {state : State} {edge : Edge} {traversal : Option Traversal}
  {isCanceling : Bool} {d : Dispatch}

theorem SnapshotOf.of_same {cache cache' : OrderStateCache} (snapshot : SnapshotOf traversal cache)
    (changes : cache'.lastEdgeStateChanges = cache.lastEdgeStateChanges)
    (invocations : cache'.edgeStateChangeInvocations = cache.edgeStateChangeInvocations) :
    SnapshotOf traversal cache' :=
  ⟨changes ▸ snapshot.lastEdgeStateChanges, invocations ▸ snapshot.edgeStateChangeInvocations⟩

theorem SnapshotOf.isSome {cache : OrderStateCache} (snapshot : SnapshotOf traversal cache) :
    cache.lastEdgeStateChanges.isSome = traversal.isSome := by
  have same := congrArg Option.isSome snapshot.lastEdgeStateChanges
  simpa using same

private theorem SnapshotOf.reportsOn_ne_nil {cache : OrderStateCache}
    (snapshot : SnapshotOf traversal cache) (alone : IsAlone edge traversal)
    (going : traversal.isSome = true) : reportsOn edge traversal ≠ [] := by
  obtain ⟨current, rfl⟩ := Option.isSome_iff_exists.mp going
  obtain ⟨last, -, merged⟩ := Option.map_eq_some_iff.mp snapshot.lastEdgeStateChanges
  rw [reportsOn, if_pos (alone current rfl)]
  intro none
  dsimp only at merged
  rw [none] at merged
  exact edgeChanges.full_ne_empty last merged

private theorem edgeCallbacks_notify (ref : Nat) (d : Dispatch) (notification : Notification) :
    edgeCallbacks ref (d.notify notification).notifications =
      edgeCallbacks ref d.notifications ++ (notification.edgeCallback ref).toList := by
  simp only [edgeCallbacks, Dispatch.notify, List.filterMap_append]
  cases found : notification.edgeCallback ref <;> simp [found]

/-- `_updateEdgeStateChanges` reports what is new, if no other edge is being traversed. -/
private theorem updateEdgeStateChanges_continues (ref : Nat) (state : State)
    (snapshot : SnapshotOf traversal d.cache) (alone : IsAlone edge traversal)
    (startNode endNode : Option Node) :
    ∃ changes, edgeChanges.Continues (reportsOn edge traversal) (edgeStateValues state) changes ∧
      edgeCallbacks ref
          (updateEdgeStateChanges ref edge startNode endNode state d).notifications =
        edgeCallbacks ref d.notifications ++ callsOn edge (reportsOn edge traversal) changes ∧
      SnapshotOf
        (some { edge := edge, reports := reportsOn edge traversal ++ changes })
        (updateEdgeStateChanges ref edge startNode endNode state d).cache := by
  have counts := snapshot.edgeStateChangeInvocations
  have reported : ∀ changes : EdgeStateChanges,
      changes = (edgeChanges.merged (reportsOn edge traversal)).news (edgeStateValues state) →
      d.cache.edgeStateChangeInvocations = (reportsOn edge traversal).length →
      SnapshotOf (some { edge := edge, reports := reportsOn edge traversal ++ [changes] })
        { d.cache with
          lastEdgeStateChanges := some (edgeStateValues state)
          edgeStateChangeInvocations := d.cache.edgeStateChangeInvocations + 1 } := by
    rintro changes rfl counted
    constructor
    · exact congrArg some (edgeChanges.merged_news _ _).symm
    · simp [counted]
  unfold updateEdgeStateChanges
  dsimp only
  cases traversal with
  | none =>
      have unset : d.cache.lastEdgeStateChanges = none :=
        Option.map_eq_none_iff.mp snapshot.lastEdgeStateChanges
      have first := edgeChanges.news_empty (edgeStateValues state)
      rw [unset]
      refine ⟨[allChanges (edgeStateValues state)], ?_, ?_, reported _ first.symm counts⟩
      · have report : edgeChanges.Continues [] (edgeStateValues state) _ :=
          .report (edgeChanges.full_ne_empty _).symm
        rwa [Library.DeltaFormat.merged_nil, first] at report
      · rw [edgeCallbacks_notify, counts]
        simp [Notification.edgeCallback, callsOn, reportsOn]
  | some current =>
      obtain rfl := alone current rfl
      have reports : reportsOn current.edge (some current) = current.reports := if_pos rfl
      obtain ⟨last, kept, merged⟩ := Option.map_eq_some_iff.mp snapshot.lastEdgeStateChanges
      dsimp only at merged
      rw [kept, reports]
      dsimp only
      rw [reports] at reported
      split
      · next same =>
        subst same
        refine ⟨[], .same merged.symm, by simp [callsOn], ?_⟩
        rw [List.append_nil]
        exact ⟨snapshot.lastEdgeStateChanges, counts⟩
      · next differs =>
        have changes : edgeStateDeltas last (edgeStateValues state) =
            (edgeChanges.merged current.reports).news (edgeStateValues state) := by
          rw [← merged, news_allChanges]
        refine ⟨[edgeStateDeltas last (edgeStateValues state)], ?_, ?_, reported _ changes counts⟩
        · rw [changes]
          refine .report fun same => differs (allChanges_injective.mp ?_)
          exact merged.trans same
        · rw [edgeCallbacks_notify, counts]
          simp [Notification.edgeCallback, callsOn]

private theorem updateEdgeStateChanges_lastEdgeProcessed (ref : Nat) (edge : Edge)
    (startNode endNode : Option Node) (state : State) (d : Dispatch) :
    (updateEdgeStateChanges ref edge startNode endNode state d).cache.lastEdgeProcessed =
      d.cache.lastEdgeProcessed := by
  unfold updateEdgeStateChanges
  dsimp only
  split
  · rfl
  · split <;> rfl

/-- What looking at the edge behind a node reports. -/
inductive Look (isCanceling : Bool) (order : Order) (state : State) (processed : Option Edge)
    (node : Option Node) (traversal : Option Traversal) : List EdgeCallback → Prop where
  | idle (unseen : ∀ lastNode, node = some lastNode →
      ∀ edge, getNextReleasedEdge order lastNode = some edge → isCanceling = false →
        if isEdgeListed state edge then
          traversal = none ∧ areAllBlockingActionsEnded lastNode state = false
        else processed = some edge) :
      Look isCanceling order state processed node traversal []
  | underway {lastNode : Node} {edge : Edge} {changes : List EdgeStateChanges} :
      isCanceling = false → node = some lastNode →
      getNextReleasedEdge order lastNode = some edge → isEdgeListed state edge = true →
      (reportsOn edge traversal ≠ [] ∨ areAllBlockingActionsEnded lastNode state = true) →
      IsAlone edge traversal →
      edgeChanges.Continues (reportsOn edge traversal) (edgeStateValues state) changes →
      Look isCanceling order state processed node traversal
        (callsOn edge (reportsOn edge traversal) changes)
  | traversed {lastNode : Node} {edge : Edge} {changes : List EdgeStateChanges} :
      isCanceling = false → node = some lastNode →
      getNextReleasedEdge order lastNode = some edge → isEdgeListed state edge = false →
      processed ≠ some edge → IsAlone edge traversal →
      edgeChanges.Continues (reportsOn edge traversal) (edgeStateValues state) changes →
      Look isCanceling order state processed node traversal
        (callsOn edge (reportsOn edge traversal) changes ++ [.traversed edge])

private theorem foldl_callsOn {reports changes : List EdgeStateChanges} {current : EdgeStateValues}
    (alone : IsAlone edge traversal) (same : reports = reportsOn edge traversal)
    (continues : edgeChanges.Continues reports current changes) :
    (callsOn edge reports changes).foldl continueTraversal traversal =
      some { edge := edge, reports := reports ++ changes } := by
  subst same
  cases continues with
  | same known =>
      cases traversal with
      | none => exact absurd known.symm (edgeChanges.full_ne_empty current)
      | some other =>
          obtain rfl := alone other rfl
          simp [callsOn, reportsOn]
  | report _ => simp [callsOn, continueTraversal]

/-- An edge may be looked at without mixing its reports with those of another one. -/
def MayLook (isCanceling : Bool) (order : Order) (state : State) (processed : Option Edge)
    (node : Node) (traversal : Option Traversal) : Prop :=
  isCanceling = false → ∀ edge, getNextReleasedEdge order node = some edge →
    isEdgeListed state edge = true ∨ processed ≠ some edge → IsAlone edge traversal

private theorem processEdgeEvents_look (ref : Nat) (snapshot : SnapshotOf traversal d.cache)
    {lastNode : Node}
    (mayLook : MayLook isCanceling d.cache.combinedOrder state d.cache.lastEdgeProcessed lastNode
      traversal) :
    ∃ added, Look isCanceling d.cache.combinedOrder state d.cache.lastEdgeProcessed
        (some lastNode) traversal added ∧
      edgeCallbacks ref (processEdgeEvents isCanceling ref state lastNode d).notifications =
        edgeCallbacks ref d.notifications ++ added ∧
      SnapshotOf (added.foldl continueTraversal traversal)
        (processEdgeEvents isCanceling ref state lastNode d).cache ∧
      ((processEdgeEvents isCanceling ref state lastNode d).cache.lastEdgeProcessed =
          d.cache.lastEdgeProcessed ∨ added.foldl continueTraversal traversal = none) := by
  unfold processEdgeEvents
  split
  · next canceling =>
    refine ⟨[], .idle ?_, by simp, snapshot, .inl rfl⟩
    intro _ _ _ _ going
    rw [going] at canceling
    cases canceling
  · next going =>
    rw [Bool.not_eq_true] at going
    split
    · next absent =>
      refine ⟨[], .idle ?_, by simp, snapshot, .inl rfl⟩
      intro node same edge found
      obtain rfl := Option.some.inj same
      rw [absent] at found
      cases found
    · next edge found =>
      have unique : ∀ {node : Node} {other : Edge}, some lastNode = some node →
          getNextReleasedEdge d.cache.combinedOrder node = some other →
            node = lastNode ∧ other = edge := by
        intro node other same also
        obtain rfl := Option.some.inj same
        exact ⟨rfl, (Option.some.inj (found.symm.trans also)).symm⟩
      have looked (alone : IsAlone edge traversal) :=
        updateEdgeStateChanges_continues ref state snapshot alone
      dsimp only
      split
      · next listed =>
        change isEdgeListed state edge = true at listed
        have alone := mayLook going edge found (.inl listed)
        split
        · next ready =>
          obtain ⟨changes, continues, reported, kept⟩ := looked alone
            (AgvController.getEdgeStartNode d.cache.combinedOrder edge)
            (AgvController.getEdgeEndNode d.cache.combinedOrder edge)
          rw [Bool.or_eq_true, snapshot.isSome] at ready
          have started := ready.imp_left (snapshot.reportsOn_ne_nil alone)
          refine ⟨_, .underway going rfl found listed started alone continues, reported, ?_, ?_⟩
          · rwa [foldl_callsOn alone rfl continues]
          · exact .inl (updateEdgeStateChanges_lastEdgeProcessed ref edge _ _ state d)
        · next waiting =>
          rw [Bool.or_eq_true, snapshot.isSome, not_or, Bool.not_eq_true, Bool.not_eq_true,
            Option.isSome_eq_false_iff, Option.isNone_iff_eq_none] at waiting
          refine ⟨[], .idle ?_, by simp, snapshot, .inl rfl⟩
          intro node same other also _
          obtain ⟨rfl, rfl⟩ := unique same also
          rwa [if_pos listed]
      · next unlisted =>
        change ¬ isEdgeListed state edge = true at unlisted
        rw [Bool.not_eq_true] at unlisted
        split
        · next done =>
          refine ⟨[], .idle ?_, by simp, snapshot, .inl rfl⟩
          intro node same other also _
          obtain ⟨rfl, rfl⟩ := unique same also
          rwa [unlisted]
        · next fresh =>
          have alone := mayLook going edge found (.inr fresh)
          obtain ⟨changes, continues, reported, kept⟩ := looked alone
            (AgvController.getEdgeStartNode d.cache.combinedOrder edge)
            (AgvController.getEdgeEndNode d.cache.combinedOrder edge)
          refine ⟨_, .traversed going rfl found unlisted fresh alone continues, ?_, ?_, ?_⟩
          · rw [edgeCallbacks_notify, ← List.append_assoc]
            exact congrArg₂ (· ++ ·) reported (by simp [Notification.edgeCallback])
          · rw [List.foldl_append]
            exact ⟨rfl, rfl⟩
          · exact .inr (List.foldl_append ..)

private theorem nodeTraversed_look (ref : Nat) (snapshot : SnapshotOf traversal d.cache)
    {nextNode : Node}
    (mayLook : MayLook isCanceling d.cache.combinedOrder state d.cache.lastEdgeProcessed nextNode
      traversal) :
    ∃ added, Look isCanceling d.cache.combinedOrder state d.cache.lastEdgeProcessed
        (some nextNode) traversal added ∧
      edgeCallbacks ref (nodeTraversed isCanceling ref state nextNode d).notifications =
        edgeCallbacks ref d.notifications ++ added ∧
      SnapshotOf (added.foldl continueTraversal traversal)
        (nodeTraversed isCanceling ref state nextNode d).cache := by
  let reached := ({ d with cache := { d.cache with lastNodeTraversed := some nextNode } }).notify
    (.nodeTraversed ref nextNode (getNextEdge d.cache.combinedOrder nextNode)
      ((getNextEdge d.cache.combinedOrder nextNode).bind
        (AgvController.getEdgeEndNode d.cache.combinedOrder)))
  have kept : SnapshotOf traversal reached.cache := snapshot.of_same rfl rfl
  obtain ⟨added, look, reported, keeps, -⟩ := processEdgeEvents_look ref kept mayLook
  refine ⟨added, look, ?_, keeps⟩
  rw [edgeCallbacks_notify] at reported
  exact reported.trans (congrArg (· ++ added) (List.append_nil _))

/-! ## Reports on the edges of an order -/

/-- An edge is being traversed from the State in which its traversal is ready
to start until the one that leads to `onEdgeTraversed`. The traversal of an
order that is being canceled is not reported. -/
structure IsUnderway (isCanceling : Bool) (order : Order) (state : State) (node : Node)
    (edge : Edge) (reports : List EdgeStateChanges) (callbacks : List EdgeCallback) : Prop where
  going : isCanceling = false
  behind : getNextReleasedEdge order node = some edge
  underway : if isEdgeListed state edge then
      reports ≠ [] ∨ areAllBlockingActionsEnded node state = true
    else .traversed edge ∈ callbacks

namespace Look

variable {order : Order} {processed : Option Edge} {node : Option Node}
  {added : List EdgeCallback}

private theorem traversingCalls_callsOn (edge : Edge) (reports changes : List EdgeStateChanges) :
    traversingCalls edge (callsOn edge reports changes) =
      changes.map fun change => (change, reports.length + 1) := by
  simp [traversingCalls, callsOn, List.filterMap_map]

private theorem edge_of_mem_callsOn {reports changes : List EdgeStateChanges}
    {callback : EdgeCallback}
    (member : callback ∈ callsOn edge reports changes) : callback.edge = edge := by
  obtain ⟨change, -, rfl⟩ := List.mem_map.mp member
  rfl

/-- Only the edge behind the node is reported. -/
theorem behind (look : Look isCanceling order state processed node traversal added)
    {callback : EdgeCallback} (member : callback ∈ added) :
    ∃ lastNode, node = some lastNode ∧ getNextReleasedEdge order lastNode = some callback.edge := by
  cases look with
  | idle => cases member
  | underway _ same found =>
      rw [edge_of_mem_callsOn member]
      exact ⟨_, same, found⟩
  | traversed _ same found =>
      cases List.mem_append.mp member with
      | inl called =>
          rw [edge_of_mem_callsOn called]
          exact ⟨_, same, found⟩
      | inr last =>
          rw [List.mem_singleton.mp last]
          exact ⟨_, same, found⟩

private theorem traversingCalls_eq_nil {callbacks : List EdgeCallback}
    (others : ∀ callback ∈ callbacks, callback.edge ≠ edge) : traversingCalls edge callbacks = [] := by
  rw [traversingCalls, List.filterMap_eq_nil_iff]
  intro callback member
  have other := others callback member
  cases callback with
  | traversing => exact if_neg other
  | traversed => rfl

private theorem traversingCalls_append (edge : Edge) (first second : List EdgeCallback) :
    traversingCalls edge (first ++ second) =
      traversingCalls edge first ++ traversingCalls edge second :=
  List.filterMap_append

/-- The edge behind the node is reported as the State requires. -/
theorem composes {lastNode : Node}
    (look : Look isCanceling order state processed (some lastNode) traversal added)
    (found : getNextReleasedEdge order lastNode = some edge) :
    (IsUnderway isCanceling order state lastNode edge (reportsOn edge traversal) added →
        Composes (reportsOn edge traversal) (edgeStateValues state) (traversingCalls edge added)) ∧
      (¬ IsUnderway isCanceling order state lastNode edge (reportsOn edge traversal) added →
        traversingCalls edge added = []) := by
  cases look with
  | idle unseen =>
      refine ⟨fun underway => ?_, fun _ => rfl⟩
      have stuck := unseen lastNode rfl edge found underway.going
      have required := underway.underway
      split at required
      · next listed =>
        rw [if_pos listed] at stuck
        obtain ⟨rfl, waiting⟩ := stuck
        cases required with
        | inl some => exact absurd rfl some
        | inr ready =>
            rw [waiting] at ready
            cases ready
      · cases required
  | underway going same also listed started alone continues =>
      obtain rfl := Option.some.inj same
      obtain rfl := Option.some.inj (found.symm.trans also)
      rw [traversingCalls_callsOn]
      refine ⟨fun _ => .of_continues continues, fun idle => absurd ?_ idle⟩
      exact ⟨going, found, by rwa [if_pos listed]⟩
  | traversed going same also unlisted fresh alone continues =>
      obtain rfl := Option.some.inj same
      obtain rfl := Option.some.inj (found.symm.trans also)
      rw [traversingCalls_append, traversingCalls_callsOn]
      simp only [traversingCalls, List.filterMap_cons, List.filterMap_nil, List.append_nil]
      refine ⟨fun _ => .of_continues continues, fun idle => absurd ?_ idle⟩
      exact ⟨going, found, by simp [unlisted]⟩

/-- Looking at one edge does not add to the reports on another. -/
private theorem reportsOn_other (look : Look isCanceling order state processed node traversal added)
    {other : Edge} (different : ∀ lastNode, node = some lastNode →
      getNextReleasedEdge order lastNode ≠ some other) :
    reportsOn other (added.foldl continueTraversal traversal) = reportsOn other traversal := by
  have absent : ∀ {edge : Edge}, edge ≠ other → IsAlone edge traversal →
      reportsOn other traversal = [] := by
    intro edge unlike alone
    cases traversal with
    | none => rfl
    | some current => exact if_neg (alone current rfl ▸ unlike)
  cases look with
  | idle => rfl
  | @underway lastNode edge changes _ same found _ _ alone continues =>
      have unlike : edge ≠ other := fun equal => different lastNode same (equal ▸ found)
      rw [foldl_callsOn alone rfl continues, absent unlike alone]
      exact if_neg unlike
  | @traversed lastNode edge changes _ same found _ _ alone =>
      have unlike : edge ≠ other := fun equal => different lastNode same (equal ▸ found)
      rw [List.foldl_append, absent unlike alone]
      rfl

end Look

/-- The nodes whose trailing edge is looked at when a State is dispatched. -/
def LeadsOn (cache : OrderStateCache) (state : State) (node : Node) : Prop :=
  cache.lastNodeTraversed = some node ∨ nextNodeTraversed cache state = some (some node)

/-- What a State reports on the edges of an order, given what has been reported before. -/
structure ReportsChanges (isCanceling : Bool) (cache : OrderStateCache) (state : State)
    (reports : Edge → List EdgeStateChanges) (callbacks : List EdgeCallback) : Prop where
  underway : ∀ edge node, LeadsOn cache state node →
    IsUnderway isCanceling cache.combinedOrder state node edge (reports edge) callbacks →
      Composes (reports edge) (edgeStateValues state) (traversingCalls edge callbacks)
  otherwise : ∀ edge, (∀ node, LeadsOn cache state node →
      ¬ IsUnderway isCanceling cache.combinedOrder state node edge (reports edge) callbacks) →
    traversingCalls edge callbacks = []

/-- The node traversed next is followed by another edge than the one before. -/
private theorem getNextReleasedEdge_next {cache : OrderStateCache} {last next : Node}
    (known : cache.lastNodeTraversed = some last)
    (reached : nextNodeTraversed cache state = some (some next))
    (found : getNextReleasedEdge cache.combinedOrder last = some edge) :
    getNextReleasedEdge cache.combinedOrder next ≠ some edge := by
  intro also
  have fits := List.find?_some found
  have fitsToo := List.find?_some also
  simp only [Bool.and_eq_true, decide_eq_true_eq] at fits fitsToo
  unfold nextNodeTraversed at reached
  simp only [known] at reached
  split at reached
  · next moved =>
    have named := List.find?_some (Option.some.inj reached)
    simp only [Bool.and_eq_true, decide_eq_true_eq] at named
    rw [Bool.or_eq_true, decide_eq_true_eq, decide_eq_true_eq] at moved
    cases moved with
    | inl other => exact other (fits.1.2.symm.trans (fitsToo.1.2.trans named.1))
    | inr other =>
        have same := Nat.succ_injective (fits.2.symm.trans fitsToo.2)
        exact other (same.trans named.2)
  · cases reached

variable {cache : OrderStateCache} {processed processed' : Option Edge} {next : Option Node}
  {first second : List EdgeCallback}

/-- Both looks at the edges of an order report what the State requires. -/
private theorem Look.reportsChanges
    (look : Look isCanceling cache.combinedOrder state processed cache.lastNodeTraversed traversal
      first)
    (again : Look isCanceling cache.combinedOrder state processed' next
      (first.foldl continueTraversal traversal) second)
    (isNext : ∀ node, nextNodeTraversed cache state = some (some node) ↔ next = some node) :
    ReportsChanges isCanceling cache state (reportsOn · traversal) (first ++ second) := by
  have decided : ∀ edge,
      (∀ node, LeadsOn cache state node →
        IsUnderway isCanceling cache.combinedOrder state node edge (reportsOn edge traversal)
          (first ++ second) →
        Composes (reportsOn edge traversal) (edgeStateValues state)
          (traversingCalls edge (first ++ second))) ∧
      ((∀ node, LeadsOn cache state node →
        ¬ IsUnderway isCanceling cache.combinedOrder state node edge (reportsOn edge traversal)
          (first ++ second)) → traversingCalls edge (first ++ second) = []) := by
    intro edge
    by_cases behind : ∃ last, cache.lastNodeTraversed = some last ∧
        getNextReleasedEdge cache.combinedOrder last = some edge
    · obtain ⟨last, known, found⟩ := behind
      -- The second look is at another edge.
      have others : ∀ callback ∈ second, callback.edge ≠ edge := by
        rintro callback member rfl
        obtain ⟨node, same, also⟩ := again.behind member
        exact getNextReleasedEdge_next known ((isNext node).mpr same) found also
      have calls : traversingCalls edge (first ++ second) = traversingCalls edge first := by
        rw [traversingCalls_append, traversingCalls_eq_nil others, List.append_nil]
      have member : EdgeCallback.traversed edge ∈ first ++ second ↔
          EdgeCallback.traversed edge ∈ first := by
        rw [List.mem_append, or_iff_left fun also => others _ also rfl]
      have judged := (known ▸ look).composes found
      rw [calls]
      constructor
      · intro node leads underway
        refine judged.1 ⟨underway.going, found, ?_⟩
        have required := underway.underway
        cases leads with
        | inl same =>
            obtain rfl := Option.some.inj (known.symm.trans same)
            rwa [member] at required
        | inr reached => exact absurd underway.behind (getNextReleasedEdge_next known reached found)
      · intro idle
        refine judged.2 fun underway => idle last (.inl known) ⟨underway.going, found, ?_⟩
        rw [member]
        exact underway.underway
    · have others : ∀ callback ∈ first, callback.edge ≠ edge := by
        rintro callback member rfl
        exact behind (look.behind member)
      have calls : traversingCalls edge (first ++ second) = traversingCalls edge second := by
        rw [traversingCalls_append, traversingCalls_eq_nil others, List.nil_append]
      have member : EdgeCallback.traversed edge ∈ first ++ second ↔
          EdgeCallback.traversed edge ∈ second := by
        rw [List.mem_append, or_iff_right fun also => others _ also rfl]
      have reports := look.reportsOn_other fun node same found => behind ⟨node, same, found⟩
      rw [calls]
      constructor
      · intro node leads underway
        cases leads with
        | inl known => exact absurd ⟨node, known, underway.behind⟩ behind
        | inr reached =>
            have judged := ((isNext node).mp reached ▸ again).composes underway.behind
            rw [reports] at judged
            refine judged.1 ⟨underway.going, underway.behind, ?_⟩
            rw [← member]
            exact underway.underway
      · intro idle
        cases nextNode : next with
        | none =>
            apply traversingCalls_eq_nil
            intro callback also
            obtain ⟨node, same, -⟩ := again.behind also
            rw [nextNode] at same
            cases same
        | some node =>
            by_cases found : getNextReleasedEdge cache.combinedOrder node = some edge
            · have judged := (nextNode ▸ again).composes found
              rw [reports] at judged
              refine judged.2 fun underway =>
                idle node (.inr ((isNext node).mpr nextNode)) ⟨underway.going, found, ?_⟩
              rw [member]
              exact underway.underway
            · apply traversingCalls_eq_nil
              rintro callback also rfl
              obtain ⟨other, same, alsoFound⟩ := again.behind also
              obtain rfl := Option.some.inj (nextNode.symm.trans same)
              exact found alsoFound
  exact ⟨fun edge => (decided edge).1, fun edge => (decided edge).2⟩

/-! ## One edge at a time -/

def IsLookedAt (processed : Option Edge) (state : State) (edge : Edge) : Prop :=
  isEdgeListed state edge = true ∨ processed ≠ some edge

/-- The edge being traversed once the edge behind the last node has been looked at. -/
def pendingAfter (pending : Option Edge) (cache : OrderStateCache) (state : State) :
    Option Edge :=
  match cache.lastNodeTraversed with
  | none => pending
  | some lastNode =>
      match getNextReleasedEdge cache.combinedOrder lastNode with
      | none => pending
      | some edge =>
          if isEdgeListed state edge then
            if pending.isSome || areAllBlockingActionsEnded lastNode state then some edge else none
          else if cache.lastEdgeProcessed = some edge then pending
          else none

/-- No edge is looked at while another one is being traversed: before a State
leads on to the next edge, the edge before has been reported as traversed, or
nothing has been reported on it. -/
structure OneEdge (pending : Option Edge) (cache : OrderStateCache) (state : State) : Prop where
  last : ∀ node, cache.lastNodeTraversed = some node →
    ∀ edge, getNextReleasedEdge cache.combinedOrder node = some edge →
      IsLookedAt cache.lastEdgeProcessed state edge → pending = none ∨ pending = some edge
  next : ∀ node, nextNodeTraversed cache state = some (some node) →
    ∀ edge, getNextReleasedEdge cache.combinedOrder node = some edge →
      IsLookedAt cache.lastEdgeProcessed state edge →
        pendingAfter pending cache state = none ∨ pendingAfter pending cache state = some edge

private theorem isAlone_iff : IsAlone edge traversal ↔
    traversal.map (·.edge) = none ∨ traversal.map (·.edge) = some edge := by
  cases traversal with
  | none => simp [IsAlone]
  | some other => simp [IsAlone]

theorem Look.pendingAfter (look : Look isCanceling cache.combinedOrder state
      cache.lastEdgeProcessed cache.lastNodeTraversed traversal first)
    (going : isCanceling = false) :
    (first.foldl continueTraversal traversal).map (·.edge) =
      MasterController.pendingAfter (traversal.map (·.edge)) cache state := by
  unfold MasterController.pendingAfter
  cases look with
  | idle unseen =>
      cases known : cache.lastNodeTraversed with
      | none => rfl
      | some lastNode =>
          cases found : getNextReleasedEdge cache.combinedOrder lastNode with
          | none => simp [found]
          | some edge =>
              have stuck := unseen lastNode known edge found going
              dsimp only
              split at stuck
              · obtain ⟨rfl, waiting⟩ := stuck
                simp [*]
              · simp [*]
  | @underway lastNode edge changes _ known found listed started alone continues =>
      have ready : ((traversal.map (·.edge)).isSome ||
          areAllBlockingActionsEnded lastNode state) = true := by
        rw [Bool.or_eq_true, Option.isSome_map]
        refine started.imp_left fun reported => ?_
        cases traversal with
        | none => exact absurd rfl reported
        | some other => rfl
      rw [foldl_callsOn alone rfl continues]
      simp only [known, found, listed, ready, if_true, Option.map_some]
  | @traversed lastNode edge changes _ known found unlisted fresh alone continues =>
      rw [List.foldl_append]
      simp [known, found, unlisted, fresh, continueTraversal]

private theorem edgeCallbacks_updateActionState (ref : Nat) (state : State) (d : Dispatch)
    (actionState : ActionState) :
    edgeCallbacks ref (updateActionState ref state d actionState).notifications =
        edgeCallbacks ref d.notifications ∧
      ∃ lastActionStates, (updateActionState ref state d actionState).cache =
        { d.cache with lastActionStates := lastActionStates } := by
  unfold updateActionState
  split
  · exact ⟨rfl, _, rfl⟩
  · dsimp only
    split
    · exact ⟨rfl, _, rfl⟩
    · refine ⟨?_, _, rfl⟩
      rw [edgeCallbacks_notify]
      exact List.append_nil _

/-- Action states are no news of edges. -/
private theorem edgeCallbacks_foldl_updateActionState (ref : Nat) (state : State)
    (actionStates : List ActionState) (d : Dispatch) :
    edgeCallbacks ref (actionStates.foldl (updateActionState ref state) d).notifications =
        edgeCallbacks ref d.notifications ∧
      ∃ lastActionStates, (actionStates.foldl (updateActionState ref state) d).cache =
        { d.cache with lastActionStates := lastActionStates } := by
  induction actionStates generalizing d with
  | nil => exact ⟨rfl, _, rfl⟩
  | cons actionState actionStates ih =>
      obtain ⟨same, _, cache⟩ := edgeCallbacks_updateActionState ref state d actionState
      obtain ⟨rest, _, caches⟩ := ih (updateActionState ref state d actionState)
      rw [cache] at caches
      exact ⟨rest.trans same, _, caches⟩

/-- What a State reports on the edges of its order composes with what has been
reported before, if only one edge is being traversed at a time. -/
theorem track_reportsChanges (ref : Nat) (snapshot : SnapshotOf traversal cache)
    (oneEdge : isCanceling = false → OneEdge (traversal.map (·.edge)) cache state) :
    ReportsChanges isCanceling cache state (reportsOn · traversal)
        (edgeCallbacks ref (track isCanceling ref state cache).1.notifications) ∧
      SnapshotOf ((edgeCallbacks ref (track isCanceling ref state cache).1.notifications).foldl
          continueTraversal traversal)
        (track isCanceling ref state cache).1.cache := by
  have next := nextNodeTraversed_track isCanceling ref state cache
  obtain ⟨silent, lastActionStates, same⟩ := edgeCallbacks_foldl_updateActionState ref state
    state.actionStates { cache := cache }
  have looked : ∃ first, Look isCanceling cache.combinedOrder state cache.lastEdgeProcessed
        cache.lastNodeTraversed traversal first ∧
      edgeCallbacks ref (updateTraversal isCanceling ref state
        (state.actionStates.foldl (updateActionState ref state) { cache := cache })).notifications =
          first ∧
      SnapshotOf (first.foldl continueTraversal traversal) (updateTraversal isCanceling ref state
        (state.actionStates.foldl (updateActionState ref state) { cache := cache })).cache ∧
      ((updateTraversal isCanceling ref state
          (state.actionStates.foldl (updateActionState ref state)
            { cache := cache })).cache.lastEdgeProcessed = cache.lastEdgeProcessed ∨
        first.foldl continueTraversal traversal = none) := by
    generalize state.actionStates.foldl (updateActionState ref state) { cache := cache } = d at *
    have kept : SnapshotOf traversal d.cache := snapshot.of_same (same ▸ rfl) (same ▸ rfl)
    unfold updateTraversal
    rw [same]
    cases known : cache.lastNodeTraversed with
    | none =>
        refine ⟨[], .idle ?_, silent, kept, .inl (same ▸ rfl)⟩
        intro _ none
        cases none
    | some lastNode =>
        have mayLook : MayLook isCanceling d.cache.combinedOrder state d.cache.lastEdgeProcessed
            lastNode traversal := by
          rw [same]
          intro going edge found lookedAt
          exact isAlone_iff.mpr ((oneEdge going).last lastNode known edge found lookedAt)
        have look := processEdgeEvents_look ref kept mayLook
        rw [silent] at look
        rw [same] at look
        simpa [edgeCallbacks] using look
  have combined := (updateTraversal_tracked isCanceling ref state
    (state.actionStates.foldl (updateActionState ref state) { cache := cache })).combinedOrder
  rw [same] at combined
  obtain ⟨first, look, reported, kept, processed⟩ := looked
  unfold track
  dsimp only
  generalize updateTraversal isCanceling ref state
    (state.actionStates.foldl (updateActionState ref state) { cache := cache }) = d at *
  have alone : (∀ node, nextNodeTraversed cache state ≠ some (some node)) →
      ReportsChanges isCanceling cache state (reportsOn · traversal) first := by
    intro unreached
    have idle : Look isCanceling cache.combinedOrder state cache.lastEdgeProcessed none
        (first.foldl continueTraversal traversal) [] := by
      refine .idle ?_
      intro _ absent
      cases absent
    have reports := look.reportsChanges idle (by simpa using unreached)
    rwa [List.append_nil] at reports
  rw [next]
  cases reached : nextNodeTraversed cache state with
  | none =>
      dsimp only
      rw [reported]
      exact ⟨alone (by simp [reached]), kept⟩
  | some nextNode =>
      cases nextNode with
      | none =>
          dsimp only [Option.elim]
          rw [reported]
          exact ⟨alone (by simp [reached]), kept⟩
      | some node =>
          have mayLook : MayLook isCanceling cache.combinedOrder state d.cache.lastEdgeProcessed
              node (first.foldl continueTraversal traversal) := by
            intro going edge found lookedAt
            rw [isAlone_iff]
            cases processed with
            | inl unchanged =>
                rw [unchanged] at lookedAt
                rw [look.pendingAfter going]
                exact (oneEdge going).next node reached edge found lookedAt
            | inr ended => exact .inl (congrArg _ ended)
          have again := nodeTraversed_look ref kept (combined.symm ▸ mayLook)
          obtain ⟨second, lookAgain, reportedAgain, keptAgain⟩ := again
          have all : edgeCallbacks ref (nodeTraversed isCanceling ref state node d).notifications =
              first ++ second := by
            rw [reportedAgain, reported]
          dsimp only [Option.elim]
          rw [all, List.foldl_append]
          refine ⟨?_, keptAgain⟩
          refine look.reportsChanges (combined ▸ lookAgain) fun other => ?_
          simp [reached]

end

end MasterController

end Vda5050
