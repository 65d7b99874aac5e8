import Vda5050.Common.Subscriptions

/-!
# Dispatching inbound messages

The handlers for a message are produced one at a time from the maps of the
subscription manager, while the handlers invoked may add and remove others. A
dispatch is compared with the handlers that match when the message arrives.
-/

set_option autoImplicit false

namespace Vda5050

open Library
open SubscriptionHistory (Represents FreshIds handlersAt mem_handlersAt vehicleFormat
  stateSubscription)

variable {Handler Object : Type}

/-! ## Messages -/

/-- The object of a message, with the properties of its header that may be missing. -/
structure InboundObject (Object : Type) where
  object : Object
  subject : PartialAgvId

/-- The path of the lookup by `find`, with `none` for `undefined`. -/
def findPath (manager : SubscriptionManager Handler) (mqttTopic : String)
    (subject : PartialAgvId) : SubscriptionPath :=
  let path := manager.format.deconstructMqttTopic mqttTopic
  (path.topic, path.serialNumber.or subject.serialNumber,
    path.manufacturer.or subject.manufacturer, ())

/-- An iterator over the entries of the map at the end of a path, and the ids of those
it has yielded. Entries that are added meanwhile come last, those deleted are skipped. -/
structure HandlerIterator where
  path : SubscriptionPath
  visited : List String := []
  deriving DecidableEq

namespace HandlerIterator

variable (iterator : HandlerIterator) (manager : SubscriptionManager Handler)

/-- The entries of the map. There are none as long as the path leads nowhere. -/
def entries : List (String × Handler) :=
  ((manager.subscriptions.leafAt iterator.path).getD {}).handlers

def next : Option (String × Handler) :=
  (iterator.entries manager).find? (·.1 ∉ iterator.visited)

def isExhausted : Bool := (iterator.next manager).isNone

/-- The iterator is still to yield the handler of a subscription, if this one stays. -/
def Awaits (subscription : Subscription Handler) : Prop :=
  iterator.path = subscription.path ∧ subscription.id ∉ iterator.visited

end HandlerIterator

/-- The loop of `_dispatchMessage`. The generator `_findInternal` runs one iterator after
the other, each over the map found when it is that one's turn. As maps are never taken out
of the levels above, this is where the lookup level by level leads. The ids of the handlers
invoked and of the subscriptions these have added are recorded. -/
structure Dispatch (Handler : Type) where
  subscriptions : SubscriptionHistory Handler
  iterators : List HandlerIterator
  invoked : List String := []
  added : List String := []

/-- The id of the subscription that is added by a call. -/
def SubscriptionEvent.added : SubscriptionEvent Handler → List String
  | .add subscription => [subscription.id]
  | .remove _ | .clear => []

inductive DispatchEvent (Handler : Type) where
  /-- The next handler is invoked. -/
  | invoke
  /-- The handler invoked last subscribes or unsubscribes. -/
  | call (event : SubscriptionEvent Handler)

namespace Dispatch

variable (dispatch : Dispatch Handler)

def start (subscriptions : SubscriptionHistory Handler) (path : SubscriptionPath) :
    Dispatch Handler where
  subscriptions := subscriptions
  iterators := (NestedMap.patterns none path).map fun pattern => { path := pattern }

/-- The iterators that are not exhausted when the next handler is asked for, from the
one in turn. -/
def remaining : List HandlerIterator :=
  dispatch.iterators.dropWhile (·.isExhausted dispatch.subscriptions.manager)

def step : DispatchEvent Handler → Option (Dispatch Handler)
  | .invoke =>
      match dispatch.remaining with
      | [] => none
      | iterator :: iterators =>
          (iterator.next dispatch.subscriptions.manager).map fun entry =>
            { dispatch with
              iterators :=
                { iterator with visited := iterator.visited ++ [entry.1] } :: iterators
              invoked := dispatch.invoked ++ [entry.1] }
  | .call .clear => none
  | .call event =>
      if dispatch.invoked = [] then none
      else (dispatch.subscriptions.step event).map fun subscriptions =>
        { dispatch with
          subscriptions := subscriptions
          added := dispatch.added ++ event.added }

/-- Every subscription gets a new id. -/
def FreshCalls : DispatchEvent Handler → Prop
  | .invoke => True
  | .call event => FreshIds dispatch.subscriptions event

instance (event : DispatchEvent Handler) : Decidable (dispatch.FreshCalls event) :=
  match event with
  | .invoke => isTrue trivial
  | .call event => inferInstanceAs (Decidable (FreshIds dispatch.subscriptions event))

/-- Wherever the handler of a subscription is still to be yielded, that of another one comes
first which has one of the given ids, is live and has not been invoked. -/
def WaitsBehind (ids : List String) (subscription : Subscription Handler) : Prop :=
  ∀ passed iterator later, dispatch.iterators = passed ++ iterator :: later →
    iterator.Awaits subscription →
      ∃ first ∈ dispatch.subscriptions.live, first.id ∈ ids ∧ first.id ∉ dispatch.invoked ∧
        ∃ other ∈ passed ++ [iterator], other.path = first.path

/-- When a handler returns, what handlers have added by their calls and not removed by others
waits behind those of the given ids. So does what has been invoked, where its path is looked
up again. -/
def CallsWait (ids : List String) : DispatchEvent Handler → Prop
  | .invoke =>
      ∀ subscription ∈ dispatch.subscriptions.live,
        subscription.id ∈ dispatch.added ∨ subscription.id ∈ dispatch.invoked →
          dispatch.WaitsBehind ids subscription
  | .call _ => True

end Dispatch

/-- `_dispatchMessage`, up to the first handler. A message that cannot be parsed or is not
valid is dropped. -/
def dispatchMessage (parse : String → Except String (InboundObject Object))
    (validateTopicObject : Option String → Object → Except String Unit)
    (subscriptions : SubscriptionHistory Handler) (mqttTopic mqttPayload : String) :
    Except String (Dispatch Handler) := do
  let inbound ← parse mqttPayload
  let path := findPath subscriptions.manager mqttTopic inbound.subject
  validateTopicObject path.1 inbound.object
  return .start subscriptions path

/-- The subscription is for the keys of a path, up to wildcards. -/
def Subscription.Matches (subscription : Subscription Handler) (path : SubscriptionPath) : Prop :=
  (subscription.topic = path.1 ∨ subscription.topic = none) ∧
    (subscription.subject.serialNumber = path.2.1 ∨ subscription.subject.serialNumber = none) ∧
    (subscription.subject.manufacturer = path.2.2.1 ∨ subscription.subject.manufacturer = none)

instance (subscription : Subscription Handler) (path : SubscriptionPath) :
    Decidable (subscription.Matches path) :=
  inferInstanceAs (Decidable (_ ∧ _ ∧ _))

/-- The ids of the live subscriptions that match a path. -/
def matchingIds (h : SubscriptionHistory Handler) (path : SubscriptionPath) : List String :=
  (h.live.filter (·.Matches path)).map (·.id)

private theorem mem_patterns_iff_matches {subscription : Subscription Handler}
    {path : SubscriptionPath} :
    subscription.path ∈ NestedMap.patterns none path ↔ subscription.Matches path := by
  obtain ⟨topic, serialNumber, manufacturer, -⟩ := path
  unfold Subscription.Matches
  rw [NestedMap.mem_patterns_iff, NestedMap.mem_patterns_iff, NestedMap.mem_patterns_iff]
  simp [Subscription.path, subscriptionPath, NestedMap.patterns]

theorem mem_matchingIds {h : SubscriptionHistory Handler} {path : SubscriptionPath} {id : String} :
    id ∈ matchingIds h path ↔
      ∃ subscription ∈ h.live, subscription.Matches path ∧ subscription.id = id := by
  simp [matchingIds, and_assoc]

private theorem findPath_toPartial (manager : SubscriptionManager Handler) (mqttTopic : String)
    (subject : AgvId) :
    manager.find mqttTopic subject =
      ((manager.subscriptions.matching none
          (findPath manager mqttTopic subject.toPartial)).flatMap (·.handlers),
        (findPath manager mqttTopic subject.toPartial).1) := by
  unfold SubscriptionManager.find findPath AgvId.toPartial
  simp only [Option.or_some]

/-- The topic constructed for a subject leads to the subscriptions for both. -/
theorem findPath_getMqttTopic {manager : SubscriptionManager Handler}
    {topicFormat interfaceName protocolVersion : String}
    (accepted : compileMqttTopic topicFormat interfaceName protocolVersion = .ok manager.format)
    (interfaceName' : '/' ∉ interfaceName.toList) (protocolVersion' : '/' ∉ protocolVersion.toList)
    {topic : String} {subject : AgvId} (topic' : '/' ∉ topic.toList)
    (manufacturer' : '/' ∉ subject.manufacturer.toList)
    (serialNumber' : '/' ∉ subject.serialNumber.toList) :
    findPath manager (manager.getMqttTopic (some topic) subject.toPartial) subject.toPartial =
      subscriptionPath (some topic) subject.toPartial := by
  obtain ⟨sameName, sameVersion⟩ := SubscriptionHistory.compileMqttTopic_spec accepted
  have deconstructed := manager.format.deconstructMqttTopic_constructMqttTopic
    (sameName ▸ interfaceName')
    (sameVersion ▸ SubscriptionHistory.separated_majorVersion protocolVersion')
    manufacturer' serialNumber' topic'
  -- missing levels of the topic are taken from the subject
  have filled : ∀ (index : Option Nat) (value : String),
      (index.map fun _ => value).or (some value) = some value := by
    intro index value
    cases index <;> rfl
  unfold findPath SubscriptionManager.getMqttTopic
  simp only [AgvId.toPartial, Option.getD_some, deconstructed, subscriptionPath, filled]

/-! ## One step -/

namespace HandlerIterator

variable {iterator : HandlerIterator} {h : SubscriptionHistory Handler}

private theorem entries_eq (books : Represents h) (iterator : HandlerIterator) :
    iterator.entries h.manager = handlersAt h.live iterator.path := books.handlers iterator.path

private theorem isExhausted_iff (books : Represents h) :
    iterator.isExhausted h.manager = true ↔
      ∀ subscription ∈ h.live, subscription.path = iterator.path →
        subscription.id ∈ iterator.visited := by
  unfold isExhausted next
  rw [entries_eq books, Option.isNone_iff_eq_none, List.find?_eq_none]
  constructor
  · intro none subscription live samePath
    simpa using none _ (mem_handlersAt.mpr ⟨subscription, live, samePath, rfl⟩)
  · intro all entry member
    obtain ⟨subscription, live, samePath, rfl⟩ := mem_handlersAt.mp member
    simpa using all subscription live samePath

private theorem next_spec (books : Represents h) {entry : String × Handler}
    (found : iterator.next h.manager = some entry) :
    entry.1 ∉ iterator.visited ∧
      ∃ subscription ∈ h.live, subscription.path = iterator.path ∧ subscription.id = entry.1 := by
  unfold next at found
  rw [entries_eq books] at found
  obtain ⟨subscription, live, samePath, rfl⟩ := mem_handlersAt.mp (List.mem_of_find?_eq_some found)
  exact ⟨by simpa using List.find?_some found, subscription, live, samePath, rfl⟩

/-- The handler yielded is the first of those not yet visited. -/
private theorem unvisited_of_next (books : Represents h) {entry : String × Handler}
    (found : iterator.next h.manager = some entry) :
    ((iterator.entries h.manager).map (·.1)).filter (· ∉ iterator.visited) =
      entry.1 :: ((iterator.entries h.manager).map (·.1)).filter
        (· ∉ iterator.visited ++ [entry.1]) := by
  have unique : ((iterator.entries h.manager).map (·.1)).Nodup := by
    rw [entries_eq books]
    unfold handlersAt
    rw [List.map_map]
    exact books.unique.sublist (List.filter_sublist.map _)
  obtain ⟨unvisited, front, back, split, visited⟩ := List.find?_eq_some_iff_append.mp found
  rw [split, List.map_append, List.map_cons, List.nodup_append, List.nodup_cons] at unique
  have skipped : ∀ seen : List String, (∀ id ∈ iterator.visited, id ∈ seen) →
      (front.map (·.1)).filter (· ∉ seen) = [] := by
    intro seen all
    rw [List.filter_eq_nil_iff]
    intro id listed
    obtain ⟨other, member, rfl⟩ := List.mem_map.mp listed
    simpa using all other.1 (by simpa using visited other member)
  have later : (back.map (·.1)).filter (· ∉ iterator.visited) =
      (back.map (·.1)).filter (· ∉ iterator.visited ++ [entry.1]) := by
    refine List.filter_congr fun id listed => ?_
    have other : id ≠ entry.1 := fun same => unique.2.1.1 (same ▸ listed)
    simp [other]
  rw [split, List.map_append, List.map_cons, List.filter_append, List.filter_append,
    skipped iterator.visited fun _ member => member,
    skipped (iterator.visited ++ [entry.1]) fun _ member => List.mem_append_left _ member,
    List.filter_cons_of_pos (by simpa using unvisited), List.filter_cons_of_neg (by simp), later]
  rfl

/-- Of the handlers not yet visited, those of the subscriptions that come first in the
order of their addition are yielded first. -/
private theorem next_of_older (books : Represents h) {older newer : List (Subscription Handler)}
    (order : h.live = older ++ newer) {entry : String × Handler}
    (found : iterator.next h.manager = some entry)
    (left : ∃ subscription ∈ older, subscription.path = iterator.path ∧
      subscription.id ∉ iterator.visited) :
    ∃ subscription ∈ older, subscription.path = iterator.path ∧ subscription.id = entry.1 := by
  unfold next at found
  have split : handlersAt h.live iterator.path =
      handlersAt older iterator.path ++ handlersAt newer iterator.path := by
    unfold handlersAt
    rw [order, List.filter_append, List.map_append]
  rw [entries_eq books, split, List.find?_append] at found
  cases first : (handlersAt older iterator.path).find? (·.1 ∉ iterator.visited) with
  | none =>
      obtain ⟨subscription, member, samePath, unvisited⟩ := left
      have visited := List.find?_eq_none.mp first _
        (mem_handlersAt.mpr ⟨subscription, member, samePath, rfl⟩)
      exact absurd (by simpa using visited) unvisited
  | some other =>
      rw [first, Option.some_or] at found
      obtain rfl := Option.some.inj found
      obtain ⟨subscription, member, samePath, rfl⟩ :=
        mem_handlersAt.mp (List.mem_of_find?_eq_some first)
      exact ⟨subscription, member, samePath, rfl⟩

end HandlerIterator

namespace Dispatch

variable {dispatch next : Dispatch Handler} {ids : List String} {path : SubscriptionPath}

/-- The iterators up to the one in turn are exhausted. -/
private theorem remaining_spec (dispatch : Dispatch Handler) :
    ∃ passed, dispatch.iterators = passed ++ dispatch.remaining ∧
      ∀ iterator ∈ passed, iterator.isExhausted dispatch.subscriptions.manager = true := by
  refine ⟨dispatch.iterators.takeWhile (·.isExhausted dispatch.subscriptions.manager),
    List.takeWhile_append_dropWhile.symm, fun iterator member => ?_⟩
  simpa using List.mem_takeWhile_imp member

private theorem step_invoke (stepped : dispatch.step .invoke = some next) :
    ∃ passed iterator iterators entry, dispatch.remaining = iterator :: iterators ∧
      dispatch.iterators = passed ++ iterator :: iterators ∧
      (∀ other ∈ passed, other.isExhausted dispatch.subscriptions.manager = true) ∧
      iterator.next dispatch.subscriptions.manager = some entry ∧
      next =
        { dispatch with
          iterators := { iterator with visited := iterator.visited ++ [entry.1] } :: iterators
          invoked := dispatch.invoked ++ [entry.1] } := by
  obtain ⟨passed, split, exhausted⟩ := dispatch.remaining_spec
  simp only [step] at stepped
  split at stepped
  · cases stepped
  · next iterator iterators remaining =>
    obtain ⟨entry, found, rfl⟩ := Option.map_eq_some_iff.mp stepped
    exact ⟨passed, iterator, iterators, entry, remaining, by rw [split, remaining], exhausted,
      found, rfl⟩

/-- The loop ends with the last iterator. -/
theorem remaining_of_step (ended : dispatch.step .invoke = none) : dispatch.remaining = [] := by
  cases remaining : dispatch.remaining with
  | nil => rfl
  | cons iterator iterators =>
      have unexhausted := List.head?_dropWhile_not
        (·.isExhausted dispatch.subscriptions.manager) dispatch.iterators
      unfold Dispatch.remaining at remaining
      rw [remaining, List.head?_cons] at unexhausted
      simp only [step, Dispatch.remaining, remaining, Option.map_eq_none_iff] at ended
      simp [HandlerIterator.isExhausted, ended] at unexhausted

private theorem step_call {event : SubscriptionEvent Handler}
    (stepped : dispatch.step (.call event) = some next) :
    event ≠ .clear ∧ ∃ subscriptions, dispatch.subscriptions.step event = some subscriptions ∧
      next =
        { dispatch with
          subscriptions := subscriptions
          added := dispatch.added ++ event.added } := by
  cases event with
  | clear => cases stepped
  | add | remove =>
      simp only [step, Option.ite_none_left_eq_some] at stepped
      obtain ⟨subscriptions, called, rfl⟩ := Option.map_eq_some_iff.mp stepped.2
      exact ⟨nofun, subscriptions, called, rfl⟩

/-- What a dispatch knows about the given ids, those of the subscriptions for a path when
it started. -/
structure Tracks (path : SubscriptionPath) (ids : List String) (dispatch : Dispatch Handler) :
    Prop where
  books : Represents dispatch.subscriptions
  issued : ∀ id ∈ ids ++ dispatch.invoked, id ∈ dispatch.subscriptions.issued
  order : ∃ older newer, dispatch.subscriptions.live = older ++ newer ∧
    (∀ subscription ∈ older, subscription.Matches path → subscription.id ∈ ids) ∧
    ∀ subscription ∈ newer, subscription.id ∈ dispatch.added
  added : ∀ id ∈ dispatch.added, id ∉ ids
  patterns : ∀ iterator ∈ dispatch.iterators, iterator.path ∈ NestedMap.patterns none path
  visited : ∀ iterator ∈ dispatch.iterators, ∀ id ∈ iterator.visited, id ∈ dispatch.invoked
  ahead : ∀ subscription ∈ dispatch.subscriptions.live, subscription.id ∈ ids →
    (∃ iterator ∈ dispatch.iterators, iterator.path = subscription.path) ∨
      subscription.id ∈ dispatch.invoked
  /-- An iterator that does not repeat an earlier one has visited the handlers of its path
  that have been invoked, or there is nothing left for it to do. -/
  repeated : ∀ before iterator after, dispatch.iterators = before ++ iterator :: after →
    (∃ other ∈ before, other.path = iterator.path) ∨
      (∀ subscription ∈ dispatch.subscriptions.live, subscription.path = iterator.path →
        subscription.id ∈ dispatch.invoked → subscription.id ∈ iterator.visited) ∨
      ∀ subscription ∈ dispatch.subscriptions.live, subscription.path = iterator.path →
        subscription.id ∈ ids → subscription.id ∈ dispatch.invoked

theorem Tracks.start {h : SubscriptionHistory Handler} (books : Represents h)
    (path : SubscriptionPath) : Tracks path (matchingIds h path) (Dispatch.start h path) where
  books := books
  issued id member := by
    rw [show (Dispatch.start h path).invoked = [] from rfl, List.append_nil] at member
    obtain ⟨subscription, live, -, rfl⟩ := mem_matchingIds.mp member
    exact books.issued subscription live
  order := ⟨h.live, [], (List.append_nil _).symm,
    fun subscription live covers => mem_matchingIds.mpr ⟨subscription, live, covers, rfl⟩, nofun⟩
  added := nofun
  patterns iterator member := by
    obtain ⟨pattern, known, rfl⟩ := List.mem_map.mp member
    exact known
  visited iterator member id visited := by
    obtain ⟨pattern, known, rfl⟩ := List.mem_map.mp member
    cases visited
  ahead subscription live member := by
    obtain ⟨other, live', covers, same⟩ := mem_matchingIds.mp member
    obtain rfl := eq_of_key (·.id) books.unique live live' same.symm
    exact .inl ⟨_, List.mem_map_of_mem (mem_patterns_iff_matches.mpr covers), rfl⟩
  repeated before iterator after split := .inr (.inl nofun)

/-- If the path in turn has a handler of the given ids that has not been invoked, the next
one is such a handler. -/
private theorem Tracks.next_of_due (tracks : Tracks path ids dispatch)
    {passed iterators : List HandlerIterator} {iterator : HandlerIterator}
    {entry : String × Handler} (split : dispatch.iterators = passed ++ iterator :: iterators)
    (exhausted : ∀ other ∈ passed, other.isExhausted dispatch.subscriptions.manager = true)
    (found : iterator.next dispatch.subscriptions.manager = some entry)
    {due : Subscription Handler} (dueLive : due ∈ dispatch.subscriptions.live)
    (duePath : due.path = iterator.path) (inIds : due.id ∈ ids)
    (uninvoked : due.id ∉ dispatch.invoked) : entry.1 ∈ ids ∧ entry.1 ∉ dispatch.invoked := by
  obtain ⟨unvisited, subscription, live, samePath, same⟩ :=
    HandlerIterator.next_spec tracks.books found
  have member : iterator ∈ dispatch.iterators := by
    rw [split]
    exact List.mem_append_right _ List.mem_cons_self
  obtain ⟨older, newer, order, old, new⟩ := tracks.order
  have isOlder : due ∈ older := by
    rw [order] at dueLive
    exact (List.mem_append.mp dueLive).resolve_right fun isNew =>
      tracks.added due.id (new due isNew) inIds
  have dueUnvisited : due.id ∉ iterator.visited := fun visited =>
    uninvoked (tracks.visited iterator member due.id visited)
  obtain ⟨first, firstOlder, firstPath, firstSame⟩ := HandlerIterator.next_of_older tracks.books
    order found ⟨due, isOlder, duePath, dueUnvisited⟩
  refine ⟨?_, fun invoked => ?_⟩
  · rw [← firstSame]
    refine old first firstOlder (mem_patterns_iff_matches.mp ?_)
    rw [firstPath]
    exact tracks.patterns iterator member
  · -- the iterator would have nothing left to do for the one that is due
    rcases tracks.repeated passed iterator iterators split with ⟨other, earlier, repeats⟩ |
      visits | done
    · have visited := (HandlerIterator.isExhausted_iff tracks.books).mp (exhausted other earlier)
        due dueLive (duePath.trans repeats.symm)
      refine uninvoked (tracks.visited other ?_ due.id visited)
      rw [split]
      exact List.mem_append_left _ earlier
    · exact unvisited (same ▸ visits subscription live samePath (same ▸ invoked))
    · exact uninvoked (done due dueLive duePath inIds)

/-- The next handler is one of the given ids that has not been invoked if and only if what
handlers have added or invoked waits behind these. -/
private theorem Tracks.callsWait_iff (tracks : Tracks path ids dispatch)
    {passed iterators : List HandlerIterator} {iterator : HandlerIterator}
    {entry : String × Handler} (split : dispatch.iterators = passed ++ iterator :: iterators)
    (exhausted : ∀ other ∈ passed, other.isExhausted dispatch.subscriptions.manager = true)
    (found : iterator.next dispatch.subscriptions.manager = some entry) :
    dispatch.CallsWait ids .invoke ↔ entry.1 ∈ ids ∧ entry.1 ∉ dispatch.invoked := by
  obtain ⟨unvisited, subscription, live, samePath, same⟩ :=
    HandlerIterator.next_spec tracks.books found
  constructor
  · intro waits
    by_contra undue
    have known : subscription.id ∈ dispatch.added ∨ subscription.id ∈ dispatch.invoked := by
      rw [← same] at undue
      by_cases inIds : subscription.id ∈ ids
      · exact .inr (by simpa [inIds] using undue)
      · obtain ⟨older, newer, order, old, new⟩ := tracks.order
        rw [order] at live
        rcases List.mem_append.mp live with isOlder | isNewer
        · have covers : subscription.Matches path := by
            refine mem_patterns_iff_matches.mp (samePath ▸ tracks.patterns iterator ?_)
            rw [split]
            exact List.mem_append_right _ List.mem_cons_self
          exact absurd (old subscription isOlder covers) inIds
        · exact .inl (new subscription isNewer)
    obtain ⟨first, firstLive, inIds, uninvoked, other, member, ends⟩ :=
      waits subscription live known passed iterator iterators split
        ⟨samePath.symm, same ▸ unvisited⟩
    rcases List.mem_append.mp member with earlier | last
    · have visited := (HandlerIterator.isExhausted_iff tracks.books).mp (exhausted other earlier)
        first firstLive ends.symm
      refine uninvoked (tracks.visited other ?_ first.id visited)
      rw [split]
      exact List.mem_append_left _ earlier
    · rw [List.mem_singleton.mp last] at ends
      exact undue (tracks.next_of_due split exhausted found firstLive ends.symm inIds uninvoked)
  · rintro ⟨inIds, uninvoked⟩ other otherLive - before awaiting after split' ⟨ends, unseen⟩
    refine ⟨subscription, live, same ▸ inIds, same ▸ uninvoked, iterator, ?_, samePath.symm⟩
    -- an iterator that awaits a live subscription is not in front of the one in turn
    have notPassed : awaiting ∉ passed := fun earlier =>
      unseen ((HandlerIterator.isExhausted_iff tracks.books).mp (exhausted awaiting earlier) other
        otherLive ends.symm)
    rcases List.append_eq_append_iff.mp (split.symm.trans split') with
      ⟨between, rfl, inTurn⟩ | ⟨between, rfl, inTurn⟩
    · cases between with
      | nil => simp [(List.cons.inj inTurn).1]
      | cons first between => simp [(List.cons.inj inTurn).1]
    · cases between with
      | nil => simp [(List.cons.inj inTurn).1]
      | cons first between => simp [(List.cons.inj inTurn).1] at notPassed

theorem Tracks.invoke (tracks : Tracks path ids dispatch)
    (stepped : dispatch.step .invoke = some next) : Tracks path ids next := by
  obtain ⟨passed, iterator, iterators, entry, -, split, exhausted, found, rfl⟩ :=
    step_invoke stepped
  obtain ⟨unvisited, subscription, live, samePath, same⟩ :=
    HandlerIterator.next_spec tracks.books found
  have within : ∀ other, other ∈ passed ++ iterator :: iterators → other ∈ dispatch.iterators :=
    fun other member => split ▸ member
  have mono : ∀ {id}, id ∈ dispatch.invoked → id ∈ dispatch.invoked ++ [entry.1] :=
    fun member => List.mem_append_left _ member
  -- what an exhausted iterator runs over has been invoked
  have passedBy : ∀ other ∈ passed, ∀ known ∈ dispatch.subscriptions.live,
      known.path = other.path → known.id ∈ dispatch.invoked := fun other earlier known live path =>
    tracks.visited other (within other (List.mem_append_left _ earlier)) known.id
      ((HandlerIterator.isExhausted_iff tracks.books).mp (exhausted other earlier) known live path)
  refine ⟨tracks.books, fun id member => ?_, tracks.order, tracks.added, fun other member => ?_,
    fun other member id visited => ?_, fun known live' inIds => ?_,
    fun before other after split' => ?_⟩
  · rw [← List.append_assoc] at member
    rcases List.mem_append.mp member with earlier | new
    · exact tracks.issued id earlier
    · rw [List.mem_singleton.mp new, ← same]
      exact tracks.books.issued subscription live
  · rcases List.mem_cons.mp member with rfl | later
    · exact tracks.patterns iterator (within _ (List.mem_append_right _ List.mem_cons_self))
    · exact tracks.patterns other
        (within _ (List.mem_append_right _ (List.mem_cons_of_mem _ later)))
  · rcases List.mem_cons.mp member with rfl | later
    · rcases List.mem_append.mp visited with earlier | new
      · exact mono (tracks.visited iterator
          (within _ (List.mem_append_right _ List.mem_cons_self)) id earlier)
      · exact List.mem_append_right _ new
    · exact mono (tracks.visited other
        (within _ (List.mem_append_right _ (List.mem_cons_of_mem _ later))) id visited)
  · rcases tracks.ahead known live' inIds with ⟨other, member, ends⟩ | invoked
    · rw [split] at member
      rcases List.mem_append.mp member with earlier | later
      · exact .inr (mono (passedBy other earlier known live' ends.symm))
      · rcases List.mem_cons.mp later with rfl | later
        · exact .inl ⟨_, List.mem_cons_self, ends⟩
        · exact .inl ⟨other, List.mem_cons_of_mem _ later, ends⟩
    · exact .inr (mono invoked)
  · cases before with
    | nil =>
        obtain ⟨rfl, rfl⟩ := List.cons.inj split'
        refine .inr ?_
        rcases tracks.repeated passed iterator iterators split with ⟨other, earlier, repeats⟩ |
          visits | done
        · exact .inr fun known live' path _ =>
            mono (passedBy other earlier known live' (path.trans repeats.symm))
        · refine .inl fun known live' path invoked => ?_
          rcases List.mem_append.mp invoked with earlier | new
          · exact List.mem_append_left _ (visits known live' path earlier)
          · exact List.mem_append_right _ new
        · exact .inr fun known live' path inIds => mono (done known live' path inIds)
    | cons first before =>
        obtain ⟨rfl, rest⟩ := List.cons.inj split'
        have original : dispatch.iterators = (passed ++ iterator :: before) ++ other :: after := by
          rw [split, rest, List.append_assoc]
          rfl
        rcases tracks.repeated _ other after original with ⟨another, earlier, repeats⟩ |
          visits | done
        · rcases List.mem_append.mp earlier with earlier | later
          · exact .inr (.inr fun known live' path _ =>
              mono (passedBy another earlier known live' (path.trans repeats.symm)))
          · rcases List.mem_cons.mp later with rfl | later
            · exact .inl ⟨_, List.mem_cons_self, repeats⟩
            · exact .inl ⟨another, List.mem_cons_of_mem _ later, repeats⟩
        · by_cases here : iterator.path = other.path
          · exact .inl ⟨_, List.mem_cons_self, here⟩
          · refine .inr (.inl fun known live' path invoked => ?_)
            rcases List.mem_append.mp invoked with earlier | new
            · exact visits known live' path earlier
            · have single : known = subscription := eq_of_key (·.id) tracks.books.unique live' live
                ((List.mem_singleton.mp new).trans same.symm)
              exact absurd (samePath.symm.trans (single ▸ path)) here
        · exact .inr (.inr fun known live' path inIds => mono (done known live' path inIds))

/-- A subscription added by a handler is none of the given ones and not yet invoked. -/
theorem Tracks.add (tracks : Tracks path ids dispatch) {added : Subscription Handler}
    {subscriptions : SubscriptionHistory Handler} (fresh : added.id ∉ dispatch.subscriptions.issued)
    (called : dispatch.subscriptions.step (.add added) = some subscriptions) :
    Tracks path ids
      { dispatch with
        subscriptions := subscriptions
        added := dispatch.added ++ [added.id] } := by
  obtain ⟨manager, result, succeeded, rfl⟩ := SubscriptionHistory.step_add called
  have outside : added.id ∉ ids ++ dispatch.invoked := fun member =>
    fresh (tracks.issued added.id member)
  rw [List.mem_append, not_or] at outside
  refine ⟨tracks.books.add fresh succeeded _, fun id member =>
    List.mem_append_left _ (tracks.issued id member), ?_, ?_, tracks.patterns, tracks.visited,
    fun known live inIds => ?_, fun before iterator after split => ?_⟩
  · obtain ⟨older, newer, order, old, new⟩ := tracks.order
    refine ⟨older, newer ++ [added], ?_, old, fun known member => ?_⟩
    · simp only [order, List.append_assoc]
    · rcases List.mem_append.mp member with earlier | last
      · exact List.mem_append_left _ (new known earlier)
      · rw [List.mem_singleton.mp last]
        exact List.mem_append_right _ List.mem_cons_self
  · intro id member
    rcases List.mem_append.mp member with earlier | last
    · exact tracks.added id earlier
    · rw [List.mem_singleton.mp last]
      exact outside.1
  · rcases List.mem_append.mp live with earlier | last
    · exact tracks.ahead known earlier inIds
    · rw [List.mem_singleton.mp last] at inIds
      exact absurd inIds outside.1
  · refine (tracks.repeated before iterator after split).imp_right (Or.imp ?_ ?_)
    · intro visits known live samePath invoked
      rcases List.mem_append.mp live with earlier | last
      · exact visits known earlier samePath invoked
      · rw [List.mem_singleton.mp last] at invoked
        exact absurd invoked outside.2
    · intro done known live samePath inIds
      rcases List.mem_append.mp live with earlier | last
      · exact done known earlier samePath inIds
      · rw [List.mem_singleton.mp last] at inIds
        exact absurd inIds outside.1

theorem Tracks.remove (tracks : Tracks path ids dispatch) {id : String}
    {subscriptions : SubscriptionHistory Handler}
    (called : dispatch.subscriptions.step (.remove id) = some subscriptions) :
    Tracks path ids
      { dispatch with
        subscriptions := subscriptions
        added := dispatch.added ++ [] } := by
  obtain rfl := Option.some.inj called
  rw [List.append_nil]
  have left : ∀ known ∈ dispatch.subscriptions.live.filter (·.id ≠ id),
      known ∈ dispatch.subscriptions.live := fun known member => (List.mem_filter.mp member).1
  refine ⟨tracks.books.remove id _, tracks.issued, ?_, tracks.added, tracks.patterns, tracks.visited,
    fun known live inIds => tracks.ahead known (left known live) inIds,
    fun before iterator after split => ?_⟩
  · obtain ⟨older, newer, order, old, new⟩ := tracks.order
    refine ⟨older.filter (·.id ≠ id), newer.filter (·.id ≠ id), ?_,
      fun known member => old known (List.mem_filter.mp member).1,
      fun known member => new known (List.mem_filter.mp member).1⟩
    rw [← List.filter_append, ← order]
  · exact (tracks.repeated before iterator after split).imp_right (Or.imp
      (fun visits known live => visits known (left known live))
      (fun done known live => done known (left known live)))

theorem Tracks.step {event : DispatchEvent Handler} (tracks : Tracks path ids dispatch)
    (fresh : dispatch.FreshCalls event) (stepped : dispatch.step event = some next) :
    Tracks path ids next := by
  cases event with
  | invoke => exact tracks.invoke stepped
  | call event =>
      obtain ⟨notClear, subscriptions, called, rfl⟩ := step_call stepped
      cases event with
      | add added => exact tracks.add fresh called
      | remove id => exact tracks.remove called
      | clear => exact absurd rfl notClear

/-- Only the given ids have been invoked, each of them once. -/
def InvokesEachOnce (ids : List String) (dispatch : Dispatch Handler) : Prop :=
  (∀ id ∈ dispatch.invoked, id ∈ ids) ∧ dispatch.invoked.Nodup

/-- A handler is invoked as it should be if and only if what the handlers have added and
invoked waits. -/
private theorem Tracks.invokesEachOnce_iff {event : DispatchEvent Handler}
    (tracks : Tracks path ids dispatch) (stepped : dispatch.step event = some next) :
    InvokesEachOnce ids next ↔ InvokesEachOnce ids dispatch ∧ dispatch.CallsWait ids event := by
  cases event with
  | call event =>
      obtain ⟨-, subscriptions, -, rfl⟩ := step_call stepped
      exact (and_iff_left trivial).symm
  | invoke =>
      obtain ⟨passed, iterator, iterators, entry, -, split, exhausted, found, rfl⟩ :=
        step_invoke stepped
      unfold InvokesEachOnce
      rw [tracks.callsWait_iff split exhausted found, List.nodup_append]
      simp only [List.mem_append, List.mem_singleton]
      constructor
      · rintro ⟨all, unique, -, apart⟩
        exact ⟨⟨fun id member => all id (.inl member), unique⟩, all entry.1 (.inr rfl),
          fun member => apart entry.1 member entry.1 rfl rfl⟩
      · rintro ⟨⟨all, unique⟩, inIds, uninvoked⟩
        refine ⟨?_, unique, List.nodup_singleton _, ?_⟩
        · rintro id (earlier | rfl)
          · exact all id earlier
          · exact inIds
        · rintro id member other rfl rfl
          exact uninvoked member

/-- After the last handler, all the given ones have been invoked or removed. -/
theorem Tracks.complete (tracks : Tracks path ids dispatch) (ended : dispatch.remaining = [])
    {id : String} (inIds : id ∈ ids) (uninvoked : id ∉ dispatch.invoked) :
    ∀ subscription ∈ dispatch.subscriptions.live, subscription.id ≠ id := by
  rintro subscription live rfl
  obtain ⟨passed, split, exhausted⟩ := dispatch.remaining_spec
  rw [ended, List.append_nil] at split
  rcases tracks.ahead subscription live inIds with ⟨iterator, member, ends⟩ | invoked
  · have visited := (HandlerIterator.isExhausted_iff tracks.books).mp
      (exhausted iterator (split ▸ member)) subscription live ends.symm
    exact uninvoked (tracks.visited iterator member _ visited)
  · exact uninvoked invoked

theorem tracks_of_run {h : SubscriptionHistory Handler} (books : Represents h)
    {allowed : Dispatch Handler → DispatchEvent Handler → Prop}
    (fresh : ∀ dispatch event, allowed dispatch event → dispatch.FreshCalls event)
    {events : List (DispatchEvent Handler)}
    (run : Run step allowed (Dispatch.start h path) events dispatch) :
    Tracks path (matchingIds h path) dispatch :=
  run.invariant (Tracks path (matchingIds h path)) (.start books path)
    fun _ tracks permitted stepped => tracks.step (fresh _ _ permitted) stepped

theorem invokesEachOnce_of_run {h : SubscriptionHistory Handler} (books : Represents h)
    {events : List (DispatchEvent Handler)}
    (run : Run step (fun dispatch event => dispatch.FreshCalls event ∧
        dispatch.CallsWait (matchingIds h path) event)
      (Dispatch.start h path) events dispatch) :
    InvokesEachOnce (matchingIds h path) dispatch := by
  refine run.invariant (InvokesEachOnce (matchingIds h path))
    ⟨by simp [Dispatch.start], List.nodup_nil⟩
    fun earlier invokes permitted stepped => ?_
  have tracks := tracks_of_run books (fun _ _ permitted => permitted.1) earlier
  exact (tracks.invokesEachOnce_iff stepped).mpr ⟨invokes, permitted.2⟩

theorem callsWait_of_invokesEachOnce {h : SubscriptionHistory Handler} (books : Represents h)
    {events : List (DispatchEvent Handler)}
    (run : Run step FreshCalls (Dispatch.start h path) events dispatch)
    (invokes : InvokesEachOnce (matchingIds h path) dispatch) :
    Run step (fun dispatch event => dispatch.FreshCalls event ∧
        dispatch.CallsWait (matchingIds h path) event)
      (Dispatch.start h path) events dispatch := by
  induction run with
  | start => exact .start
  | advance run fresh stepped ih =>
      have tracks := tracks_of_run books (fun _ _ fresh => fresh) run
      obtain ⟨before, waits⟩ := (tracks.invokesEachOnce_iff stepped).mp invokes
      exact (ih before).advance ⟨fresh, waits⟩ stepped

/-! ## Handlers that keep away from the paths ahead -/

/-- No handler subscribes on the path in turn or one to come. -/
def CallsBehind (dispatch : Dispatch Handler) : DispatchEvent Handler → Prop
  | .call (.add subscription) =>
      ∀ iterator ∈ dispatch.iterators, iterator.path ≠ subscription.path
  | .call (.remove _) | .call .clear | .invoke => True

/-- All handlers ahead are given ones, and those invoked have been visited there. -/
structure AheadKnown (ids : List String) (dispatch : Dispatch Handler) : Prop where
  unique : (dispatch.iterators.map (·.path)).Nodup
  known : ∀ iterator ∈ dispatch.iterators, ∀ subscription ∈ dispatch.subscriptions.live,
    subscription.path = iterator.path → subscription.id ∈ ids ∧
      (subscription.id ∈ dispatch.invoked → subscription.id ∈ iterator.visited)

/-- Nothing is left to wait. -/
private theorem AheadKnown.callsWait (aheadKnown : AheadKnown ids dispatch)
    (tracks : Tracks path ids dispatch) : dispatch.CallsWait ids .invoke := by
  intro subscription live known passed iterator later split ⟨ends, unseen⟩
  have member : iterator ∈ dispatch.iterators := by
    rw [split]
    exact List.mem_append_right _ List.mem_cons_self
  obtain ⟨inIds, visits⟩ := aheadKnown.known iterator member subscription live ends.symm
  rcases known with added | invoked
  · exact absurd inIds (tracks.added subscription.id added)
  · exact absurd (visits invoked) unseen

theorem AheadKnown.step {event : DispatchEvent Handler} (aheadKnown : AheadKnown ids dispatch)
    (tracks : Tracks path ids dispatch) (behind : CallsBehind dispatch event)
    (stepped : dispatch.step event = some next) : AheadKnown ids next := by
  cases event with
  | invoke =>
      obtain ⟨passed, iterator, iterators, entry, -, split, -, found, rfl⟩ := step_invoke stepped
      obtain ⟨-, subscription, live, samePath, same⟩ := HandlerIterator.next_spec tracks.books found
      obtain ⟨unique, known⟩ := aheadKnown
      rw [split] at unique known
      rw [List.map_append, List.nodup_append] at unique
      refine ⟨unique.2.1, fun other member further live' ends => ?_⟩
      rcases List.mem_cons.mp member with rfl | later
      · obtain ⟨inIds, visits⟩ := known iterator
          (List.mem_append_right _ List.mem_cons_self) further live' ends
        refine ⟨inIds, fun invoked => ?_⟩
        rcases List.mem_append.mp invoked with earlier | new
        · exact List.mem_append_left _ (visits earlier)
        · exact List.mem_append_right _ new
      · obtain ⟨inIds, visits⟩ := known other
          (List.mem_append_right _ (List.mem_cons_of_mem _ later)) further live' ends
        refine ⟨inIds, fun invoked => ?_⟩
        rcases List.mem_append.mp invoked with earlier | new
        · exact visits earlier
        · -- the handler invoked is on the path of the iterator in turn, which is another one
          have single : further = subscription := eq_of_key (·.id) tracks.books.unique live' live
            ((List.mem_singleton.mp new).trans same.symm)
          subst single
          have apart : iterator.path ∉ iterators.map (·.path) := (List.nodup_cons.mp unique.2.1).1
          rw [← samePath, ends] at apart
          exact absurd (List.mem_map_of_mem later) apart
  | call event =>
      obtain ⟨notClear, subscriptions, called, rfl⟩ := step_call stepped
      cases event with
      | add added =>
          obtain ⟨manager, result, succeeded, rfl⟩ := SubscriptionHistory.step_add called
          refine ⟨aheadKnown.unique, fun iterator member further live ends => ?_⟩
          rcases List.mem_append.mp live with earlier | last
          · exact aheadKnown.known iterator member further earlier ends
          · obtain rfl := List.mem_singleton.mp last
            exact absurd ends.symm (behind iterator member)
      | remove id =>
          obtain rfl := Option.some.inj called
          exact ⟨aheadKnown.unique, fun iterator member further live ends =>
            aheadKnown.known iterator member further (List.mem_filter.mp live).1 ends⟩
      | clear => exact absurd rfl notClear

/-- No path is listed twice for keys that are all there. -/
theorem AheadKnown.start {h : SubscriptionHistory Handler} {topic : String} {subject : AgvId}
    (path_eq : path = subscriptionPath (some topic) subject.toPartial) :
    AheadKnown (matchingIds h path) (Dispatch.start h path) where
  unique := by
    subst path_eq
    unfold Dispatch.start
    rw [List.map_map]
    exact (List.map_id _).symm ▸ SubscriptionHistory.nodup_patterns_subscriptionPath topic subject
  known iterator member subscription live ends := by
    obtain ⟨pattern, known, rfl⟩ := List.mem_map.mp member
    refine ⟨mem_matchingIds.mpr ⟨subscription, live, ?_, rfl⟩, nofun⟩
    exact mem_patterns_iff_matches.mp (ends ▸ known)

/-- In a dispatch for a complete topic and subject nothing has to wait as long as no handler
subscribes on a path ahead. -/
theorem callsWait_of_callsBehind {h : SubscriptionHistory Handler} (books : Represents h)
    {topic : String} {subject : AgvId}
    (path_eq : path = subscriptionPath (some topic) subject.toPartial)
    {events : List (DispatchEvent Handler)}
    (run : Run step (fun dispatch event => dispatch.FreshCalls event ∧ dispatch.CallsBehind event)
      (Dispatch.start h path) events dispatch) :
    Run step (fun dispatch event => dispatch.FreshCalls event ∧
        dispatch.CallsWait (matchingIds h path) event)
      (Dispatch.start h path) events dispatch := by
  suffices AheadKnown (matchingIds h path) dispatch ∧
      Run step (fun dispatch event => dispatch.FreshCalls event ∧
        dispatch.CallsWait (matchingIds h path) event) (Dispatch.start h path) events dispatch from
    this.2
  induction run with
  | start => exact ⟨.start path_eq, .start⟩
  | @advance events dispatch next event run permitted stepped ih =>
      obtain ⟨aheadKnown, waiting⟩ := ih
      have tracks := tracks_of_run books (fun _ _ permitted => permitted.1) run
      refine ⟨aheadKnown.step tracks permitted.2 stepped, waiting.advance ⟨permitted.1, ?_⟩ stepped⟩
      cases event with
      | invoke => exact aheadKnown.callsWait tracks
      | call event => trivial

/-! ## Handlers that call nothing -/

/-- The ids that are still to be yielded if nothing is added or removed. -/
def pendingIds (dispatch : Dispatch Handler) : List String :=
  dispatch.iterators.flatMap fun iterator =>
    ((iterator.entries dispatch.subscriptions.manager).map (·.1)).filter (· ∉ iterator.visited)

private theorem pendingIds_of_exhausted {manager : SubscriptionManager Handler}
    {iterators : List HandlerIterator}
    (exhausted : ∀ iterator ∈ iterators, iterator.isExhausted manager = true) :
    (iterators.flatMap fun iterator =>
      ((iterator.entries manager).map (·.1)).filter (· ∉ iterator.visited)) = [] := by
  rw [List.flatMap_eq_nil_iff]
  intro iterator member
  have none := exhausted iterator member
  unfold HandlerIterator.isExhausted HandlerIterator.next at none
  rw [Option.isNone_iff_eq_none, List.find?_eq_none] at none
  rw [List.filter_eq_nil_iff]
  intro id listed
  obtain ⟨entry, known, rfl⟩ := List.mem_map.mp listed
  exact none entry known

/-- The next handler is the first one pending. -/
private theorem pendingIds_invoke (books : Represents dispatch.subscriptions)
    (stepped : dispatch.step .invoke = some next) :
    next.invoked ++ next.pendingIds = dispatch.invoked ++ dispatch.pendingIds := by
  obtain ⟨passed, iterator, iterators, entry, -, split, exhausted, found, rfl⟩ :=
    step_invoke stepped
  have first := HandlerIterator.unvisited_of_next books found
  unfold pendingIds
  rw [split, List.flatMap_append, pendingIds_of_exhausted exhausted, List.nil_append,
    List.flatMap_cons, List.flatMap_cons, first, List.append_assoc]
  rfl

/-- Without calls, a dispatch invokes what `find` lists. -/
theorem invoked_of_no_calls {h : SubscriptionHistory Handler} (books : Represents h)
    {mqttTopic : String} {subject : AgvId} {events : List (DispatchEvent Handler)}
    (run : Run step (fun _ event => event = .invoke)
      (Dispatch.start h (findPath h.manager mqttTopic subject.toPartial)) events dispatch)
    (ended : dispatch.step .invoke = none) :
    dispatch.invoked = (h.manager.find mqttTopic subject).1.map (·.1) := by
  rw [findPath_toPartial]
  generalize findPath h.manager mqttTopic subject.toPartial = path at run ⊢
  have unchanged : dispatch.subscriptions = h ∧
      dispatch.invoked ++ dispatch.pendingIds = (Dispatch.start h path).pendingIds := by
    refine run.invariant (fun dispatch => dispatch.subscriptions = h ∧
      dispatch.invoked ++ dispatch.pendingIds = (Dispatch.start h path).pendingIds)
      ⟨rfl, rfl⟩ fun _ holds invokes stepped => ?_
    subst invokes
    refine ⟨?_, (pendingIds_invoke (holds.1 ▸ books) stepped).trans holds.2⟩
    obtain ⟨-, -, -, -, -, -, -, -, rfl⟩ := step_invoke stepped
    exact holds.1
  have nothing : dispatch.pendingIds = [] := by
    obtain ⟨passed, split, exhausted⟩ := dispatch.remaining_spec
    rw [remaining_of_step ended, List.append_nil] at split
    unfold pendingIds
    rw [split]
    exact pendingIds_of_exhausted exhausted
  have listed := unchanged.2
  rw [nothing, List.append_nil] at listed
  rw [listed, NestedMap.matching_eq, books.flatMap_handlers, List.map_flatMap]
  unfold pendingIds Dispatch.start
  rw [List.flatMap_map]
  refine List.flatMap_congr fun pattern _ => ?_
  rw [HandlerIterator.entries_eq books]
  exact List.filter_eq_self.mpr fun id _ => by simp

end Dispatch

/-! ## Dispatches -/

theorem dispatchMessage_spec {parse : String → Except String (InboundObject Object)}
    {validateTopicObject : Option String → Object → Except String Unit}
    {h : SubscriptionHistory Handler} {mqttTopic mqttPayload : String} {first : Dispatch Handler}
    (begun : dispatchMessage parse validateTopicObject h mqttTopic mqttPayload = .ok first) :
    ∃ inbound, parse mqttPayload = .ok inbound ∧
      first = Dispatch.start h (findPath h.manager mqttTopic inbound.subject) := by
  unfold dispatchMessage at begun
  cases parsed : parse mqttPayload with
  | error error => simp [parsed, bind, Except.bind] at begun
  | ok inbound =>
      refine ⟨inbound, rfl, ?_⟩
      cases valid : validateTopicObject (findPath h.manager mqttTopic inbound.subject).1
          inbound.object with
      | error error => simp [parsed, valid, bind, Except.bind] at begun
      | ok _ =>
          simp only [parsed, valid, bind, Except.bind, pure, Except.pure, Except.ok.injEq] at begun
          exact begun.symm

/-- A dispatch invokes nothing but the handlers that match when the message arrives, each at
most once and thus only finitely many, if and only if whatever its handlers subscribe and do
not unsubscribe waits behind these. When it has ended, all of them have been invoked or removed
before their turn. -/
theorem dispatch_invokes_matching_iff {format : TopicFormat}
    {past : List (SubscriptionEvent Handler)} {h : SubscriptionHistory Handler}
    (run : Run SubscriptionHistory.step FreshIds (SubscriptionHistory.initial format) past h)
    {parse : String → Except String (InboundObject Object)}
    {validateTopicObject : Option String → Object → Except String Unit}
    {mqttTopic mqttPayload : String} {first : Dispatch Handler}
    (begun : dispatchMessage parse validateTopicObject h mqttTopic mqttPayload = .ok first) :
    ∃ inbound, parse mqttPayload = .ok inbound ∧
      let ids := matchingIds h (findPath h.manager mqttTopic inbound.subject)
      ∀ events dispatch, Run Dispatch.step Dispatch.FreshCalls first events dispatch →
        (((∀ id ∈ dispatch.invoked, id ∈ ids) ∧ dispatch.invoked.Nodup ∧
            dispatch.invoked.length ≤ ids.length) ↔
          Run Dispatch.step (fun dispatch event => dispatch.FreshCalls event ∧
            dispatch.CallsWait ids event) first events dispatch) ∧
        (dispatch.step .invoke = none → ∀ id ∈ ids, id ∉ dispatch.invoked →
          ∀ subscription ∈ dispatch.subscriptions.live, subscription.id ≠ id) := by
  have books := (Represents.of_run (fun _ _ fresh => fresh) run).1
  obtain ⟨inbound, parsed, rfl⟩ := dispatchMessage_spec begun
  refine ⟨inbound, parsed, fun events dispatch run => ⟨⟨?_, ?_⟩, ?_⟩⟩
  · rintro ⟨all, unique, -⟩
    exact Dispatch.callsWait_of_invokesEachOnce books run ⟨all, unique⟩
  · intro waiting
    obtain ⟨all, unique⟩ := Dispatch.invokesEachOnce_of_run books waiting
    exact ⟨all, unique, (unique.subperm all).length_le⟩
  · intro ended id inIds uninvoked
    have tracks := Dispatch.tracks_of_run books (fun _ _ fresh => fresh) run
    exact tracks.complete (Dispatch.remaining_of_step ended) inIds uninvoked

/-! ## A handler that subscribes again -/

/-- A subscription of the State topic of the vehicle a message is from. -/
def resubscription (n : Nat) : Subscription Unit where
  id := String.ofList (List.replicate (n + 1) '1')
  topic := some "state"
  subject := SubscriptionHistory.firstVehicle.toPartial
  handler := ()

/-- Each handler invoked subscribes once, for the same topic and subject. -/
def resubscribing (n : Nat) : List (DispatchEvent Unit) :=
  (List.range n).flatMap fun k => [.invoke, .call (.add (resubscription (k + 1)))]

private theorem resubscription_id_inj {m n : Nat} :
    (resubscription m).id = (resubscription n).id ↔ m = n := by
  refine ⟨fun same => ?_, congrArg fun n => (resubscription n).id⟩
  have lists := congrArg String.toList same
  simp only [resubscription, String.toList_ofList] at lists
  simpa using congrArg List.length lists

private theorem resubscription_path (n : Nat) :
    (resubscription n).path = (resubscription 0).path := rfl

/-- The subscription is accepted with any id. -/
private theorem step_resubscription {h : SubscriptionHistory Unit}
    (format : h.manager.format = vehicleFormat) (n : Nat) :
    ∃ next, h.step (.add (resubscription n)) = some next ∧
      next.manager.format = vehicleFormat ∧
      next.issued = h.issued ++ [(resubscription n).id] ∧
      next.live = h.live ++ [resubscription n] := by
  have short : ¬ maxMqttTopicUtf8Count <
      h.manager.getMqttTopicUtf8Length (resubscription n).topic (resubscription n).subject := by
    unfold SubscriptionManager.getMqttTopicUtf8Length
    rw [format]
    exact (by decide : ¬ maxMqttTopicUtf8Count <
      vehicleFormat.getMqttTopicUtf8Length "first" "001" "state")
  simp only [SubscriptionHistory.step, SubscriptionManager.add, if_neg short]
  exact ⟨_, rfl, format, rfl, rfl⟩

/-- The state after `n` handlers have subscribed. -/
structure Resubscribed (n : Nat) (dispatch : Dispatch Unit) : Prop where
  books : Represents dispatch.subscriptions
  format : dispatch.subscriptions.manager.format = vehicleFormat
  issued : dispatch.subscriptions.issued = (List.range (n + 1)).map fun k => (resubscription k).id
  live : dispatch.subscriptions.live = (List.range (n + 1)).map resubscription
  invoked : dispatch.invoked = (List.range n).map fun k => (resubscription k).id
  inTurn : ∃ iterators, dispatch.iterators =
    { path := (resubscription 0).path, visited := dispatch.invoked } :: iterators

/-- The handler added last is the next one. -/
theorem Resubscribed.invoke {n : Nat} {dispatch : Dispatch Unit}
    (resubscribed : Resubscribed n dispatch) :
    ∃ next, dispatch.step .invoke = some next ∧
      next.subscriptions = dispatch.subscriptions ∧
      next.invoked = (List.range (n + 1)).map (fun k => (resubscription k).id) ∧
      ∃ iterators, next.iterators =
        { path := (resubscription 0).path, visited := next.invoked } :: iterators := by
  obtain ⟨books, format, issued, live, invoked, iterators, inTurn⟩ := resubscribed
  have entries : HandlerIterator.entries
      { path := (resubscription 0).path, visited := dispatch.invoked }
        dispatch.subscriptions.manager =
      (List.range (n + 1)).map fun k => ((resubscription k).id, ()) := by
    rw [HandlerIterator.entries_eq books, live]
    unfold handlersAt
    rw [List.filter_eq_self.mpr, List.map_map]
    · rfl
    · intro subscription member
      obtain ⟨k, -, rfl⟩ := List.mem_map.mp member
      exact decide_eq_true (resubscription_path k)
  have found : HandlerIterator.next
      { path := (resubscription 0).path, visited := dispatch.invoked }
        dispatch.subscriptions.manager = some ((resubscription n).id, ()) := by
    unfold HandlerIterator.next
    rw [entries, List.range_succ, List.map_append, List.find?_append,
      List.find?_eq_none.mpr, Option.none_or]
    · simp [invoked, resubscription_id_inj]
    · intro entry member
      obtain ⟨k, below, rfl⟩ := List.mem_map.mp member
      simpa [invoked, resubscription_id_inj] using below
  have remaining : dispatch.remaining =
      { path := (resubscription 0).path, visited := dispatch.invoked } :: iterators := by
    unfold Dispatch.remaining
    rw [inTurn, List.dropWhile_cons_of_neg]
    simp [HandlerIterator.isExhausted, found]
  simp only [Dispatch.step, remaining, found, Option.map_some]
  refine ⟨_, rfl, rfl, ?_, iterators, rfl⟩
  rw [invoked, List.range_succ, List.map_append]
  rfl

private theorem Resubscribed.round {n : Nat} {dispatch : Dispatch Unit}
    {events : List (DispatchEvent Unit)}
    {first : Dispatch Unit} (resubscribed : Resubscribed n dispatch)
    (run : Run Dispatch.step Dispatch.FreshCalls first events dispatch) :
    ∃ next, Run Dispatch.step Dispatch.FreshCalls first
        (events ++ [.invoke, .call (.add (resubscription (n + 1)))]) next ∧
      Resubscribed (n + 1) next := by
  obtain ⟨invoked, stepped, same, names, iterators, inTurn⟩ := resubscribed.invoke
  obtain ⟨subscriptions, called, format, issued, live⟩ :=
    step_resubscription (same ▸ resubscribed.format) (n + 1)
  have fresh : invoked.FreshCalls (.call (.add (resubscription (n + 1)))) := by
    show (resubscription (n + 1)).id ∉ invoked.subscriptions.issued
    rw [same, resubscribed.issued]
    intro member
    obtain ⟨k, below, equal⟩ := List.mem_map.mp member
    have := resubscription_id_inj.mp equal
    have := List.mem_range.mp below
    omega
  refine ⟨{ invoked with
      subscriptions := subscriptions
      added := invoked.added ++ [(resubscription (n + 1)).id] }, ?_, ?_⟩
  · have nonempty : invoked.invoked ≠ [] := by simp [names]
    have calls : invoked.step (.call (.add (resubscription (n + 1)))) =
        some { invoked with
          subscriptions := subscriptions
          added := invoked.added ++ [(resubscription (n + 1)).id] } := by
      simp only [Dispatch.step, if_neg nonempty, called, Option.map_some, SubscriptionEvent.added]
    have once : Run Dispatch.step Dispatch.FreshCalls first (events ++ [.invoke]) invoked :=
      run.advance (show dispatch.FreshCalls .invoke from trivial) stepped
    have twice := once.advance fresh calls
    rwa [List.append_assoc] at twice
  · obtain ⟨manager, added, succeeded, rfl⟩ := SubscriptionHistory.step_add called
    refine ⟨(same ▸ resubscribed.books : Represents invoked.subscriptions).add fresh succeeded _,
      format, ?_, ?_, names, iterators, inTurn⟩
    · rw [issued, same, resubscribed.issued, List.range_succ (n := n + 1), List.map_append]
      rfl
    · rw [live, same, resubscribed.live, List.range_succ (n := n + 1), List.map_append]
      rfl


private theorem resubscribed_of_rounds {first : Dispatch Unit} (resubscribed : Resubscribed 0 first)
    (n : Nat) :
    ∃ dispatch, Run Dispatch.step Dispatch.FreshCalls first (resubscribing n) dispatch ∧
      Resubscribed n dispatch := by
  induction n with
  | zero => exact ⟨first, .start, resubscribed⟩
  | succ n ih =>
      obtain ⟨dispatch, run, resubscribed⟩ := ih
      obtain ⟨next, further, after⟩ := resubscribed.round run
      refine ⟨next, ?_, after⟩
      unfold resubscribing
      rw [List.range_succ, List.flatMap_append]
      exact further

/-- A message that has all properties and is valid. -/
def vehicleObject : InboundObject Unit where
  object := ()
  subject := SubscriptionHistory.firstVehicle.toPartial

private theorem findPath_vehicleObject {h : SubscriptionHistory Unit}
    (format : h.manager.format = vehicleFormat) :
    findPath h.manager "uagv/v2/first/001/state" vehicleObject.subject =
      (resubscription 0).path := by
  have levels : splitLevels "uagv/v2/first/001/state" =
      ["uagv", "v2", "first", "001", "state"] := by
    rw [splitLevels_eq]
    decide
  unfold findPath TopicFormat.deconstructMqttTopic
  rw [format, levels]
  decide

/-- A message for the vehicle arrives after the first subscription. -/
private theorem begun_resubscribed :
    ∃ h : SubscriptionHistory Unit,
      Run SubscriptionHistory.step FreshIds (SubscriptionHistory.initial vehicleFormat)
        [.add (resubscription 0)] h ∧
      findPath h.manager "uagv/v2/first/001/state" vehicleObject.subject =
        (resubscription 0).path ∧
      matchingIds h (resubscription 0).path = [(resubscription 0).id] ∧
      Resubscribed 0 (Dispatch.start h (resubscription 0).path) := by
  obtain ⟨h, stepped, format, issued, live⟩ := step_resubscription
    (h := SubscriptionHistory.initial vehicleFormat) rfl 0
  have run : Run SubscriptionHistory.step FreshIds (SubscriptionHistory.initial vehicleFormat)
      [.add (resubscription 0)] h :=
    Run.advance .start (List.not_mem_nil (a := (resubscription 0).id)) stepped
  have books := (Represents.of_run (fun _ _ fresh => fresh) run).1
  refine ⟨h, run, findPath_vehicleObject format, ?_, books, format, issued, live, rfl, _, rfl⟩
  unfold matchingIds
  rw [live]
  decide

/-- A subscription for the vehicle a message is from. -/
def vehicleSubscription (id : String) (topic : Option String) : Subscription Unit where
  id := id
  topic := topic
  subject := SubscriptionHistory.firstVehicle.toPartial
  handler := ()

/-- Two handlers for the topic of the message and one for all topics. -/
def vehicleSubscriptions : List (SubscriptionEvent Unit) :=
  [.add (vehicleSubscription "1" (some "state")), .add (vehicleSubscription "2" (some "state")),
    .add (vehicleSubscription "3" none)]

/-- The first handler subscribes on the path in turn and unsubscribes itself, the second one
takes the new subscription back, and the last one subscribes on a path that has passed. -/
def vehicleCalls : List (DispatchEvent Unit) :=
  [.invoke, .call (.add (vehicleSubscription "4" (some "state"))), .call (.remove "1"),
    .invoke, .call (.remove "4"),
    .invoke, .call (.add (vehicleSubscription "5" (some "state")))]

theorem dispatch_invokes_vehicleSubscriptions :
    ∃ (h : SubscriptionHistory Unit) (first dispatch : Dispatch Unit),
      Run SubscriptionHistory.step FreshIds (SubscriptionHistory.initial vehicleFormat)
        vehicleSubscriptions h ∧
      dispatchMessage (fun _ => .ok vehicleObject) (fun _ _ => .ok ()) h "uagv/v2/first/001/state"
        "{}" = .ok first ∧
      Run Dispatch.step (fun dispatch event => dispatch.FreshCalls event ∧
        dispatch.CallsWait ["1", "2", "3"] event) first vehicleCalls dispatch ∧
      dispatch.invoked = ["1", "2", "3"] ∧ dispatch.step .invoke = none := by
  have passed : (execute SubscriptionHistory.step FreshIds
      (SubscriptionHistory.initial vehicleFormat) vehicleSubscriptions).any (fun h =>
        matchingIds h (resubscription 0).path = ["1", "2", "3"] &&
        (execute Dispatch.step Dispatch.FreshCalls (Dispatch.start h (resubscription 0).path)
          vehicleCalls).any fun dispatch =>
            dispatch.invoked = ["1", "2", "3"] && (dispatch.step .invoke).isNone) = true := by
    decide
  obtain ⟨h, run, passed⟩ := exists_run_of_execute passed
  simp only [Bool.and_eq_true, decide_eq_true_eq] at passed
  obtain ⟨matching, continued⟩ := passed
  obtain ⟨dispatch, calls, ended⟩ := exists_run_of_execute continued
  simp only [Bool.and_eq_true, decide_eq_true_eq, Option.isNone_iff_eq_none] at ended
  obtain ⟨invoked, ended⟩ := ended
  have path := findPath_vehicleObject
    (SubscriptionHistory.Represents.of_run (fun _ _ fresh => fresh) run).2
  have begun : dispatchMessage (fun _ => .ok vehicleObject) (fun _ _ => .ok ()) h
      "uagv/v2/first/001/state" "{}" =
        .ok (.start h (findPath h.manager "uagv/v2/first/001/state" vehicleObject.subject)) := rfl
  obtain ⟨inbound, parsed, holds⟩ := dispatch_invokes_matching_iff run begun
  obtain rfl := Except.ok.inj parsed
  rw [path] at begun
  simp only [path, matching] at holds
  refine ⟨h, _, dispatch, run, begun, (holds _ dispatch calls).1.mp ?_, invoked, ended⟩
  simp [invoked]

/-- The loop has no end for a handler that subscribes again whenever it is invoked. -/
theorem not_dispatch_finite :
    ∃ (h : SubscriptionHistory Unit) (first : Dispatch Unit),
      Run SubscriptionHistory.step FreshIds (SubscriptionHistory.initial vehicleFormat)
        [.add (resubscription 0)] h ∧
      dispatchMessage (fun _ => .ok vehicleObject) (fun _ _ => .ok ()) h "uagv/v2/first/001/state"
        "{}" = .ok first ∧
      matchingIds h (findPath h.manager "uagv/v2/first/001/state" vehicleObject.subject) =
        [(resubscription 0).id] ∧
      ∀ n, ∃ dispatch, Run Dispatch.step Dispatch.FreshCalls first (resubscribing n) dispatch ∧
        dispatch.invoked = (List.range n).map fun k => (resubscription k).id := by
  obtain ⟨h, run, path, matching, resubscribed⟩ := begun_resubscribed
  refine ⟨h, _, run, rfl, ?_, fun n => ?_⟩
  · exact path.symm ▸ matching
  · obtain ⟨dispatch, rounds, after⟩ := resubscribed_of_rounds resubscribed n
    exact ⟨dispatch, path.symm ▸ rounds, after.invoked⟩

end Vda5050
