import Mathlib.Data.List.Nodup
import Mathlib.Logic.Function.Basic

/-!
# Retained messages

A broker keeps the last message of each topic, and sends it to a subscriber ahead
of the messages published from then on. What a subscriber has seen, together with
what is on the way to it, is what the broker has kept.
-/

set_option autoImplicit false

namespace Library

variable {Topic Subject Message Content : Type}

/-- The last message of a subject among those on the way. -/
def latest (subjectOf : Message → Option Subject) [DecidableEq Subject] (subject : Subject)
    (messages : List Message) : Option Message :=
  messages.reverse.find? (subjectOf · = some subject)

section Latest

variable [DecidableEq Subject] {subjectOf : Message → Option Subject} {subject other : Subject}
  {message : Message} {messages : List Message}

@[simp] theorem latest_nil : latest subjectOf subject [] = none := rfl

theorem latest_append (earlier later : List Message) :
    latest subjectOf subject (earlier ++ later) =
      (latest subjectOf subject later).or (latest subjectOf subject earlier) := by
  unfold latest
  rw [List.reverse_append, List.find?_append]

private theorem latest_singleton (message : Message) :
    latest subjectOf subject [message] =
      if subjectOf message = some subject then some message else none := by
  by_cases same : subjectOf message = some subject <;> simp [latest, same]

private theorem latest_cons (message : Message) (messages : List Message) :
    latest subjectOf subject (message :: messages) =
      (latest subjectOf subject messages).or
        (if subjectOf message = some subject then some message else none) := by
  rw [← latest_singleton, ← latest_append, List.singleton_append]

theorem latest_eq_none_iff :
    latest subjectOf subject messages = none ↔
      ∀ message ∈ messages, subjectOf message ≠ some subject := by
  simp [latest]

/-- The only message of a subject is the last one. -/
private theorem latest_of_unique (member : message ∈ messages)
    (about : subjectOf message = some subject)
    (unique : ∀ other ∈ messages, subjectOf other = some subject → other = message) :
    latest subjectOf subject messages = some message := by
  cases found : latest subjectOf subject messages with
  | none => exact absurd about (latest_eq_none_iff.mp found message member)
  | some last =>
      have same : subjectOf last = some subject := by simpa using List.find?_some found
      have listed : last ∈ messages := List.mem_reverse.mp (List.mem_of_find?_eq_some found)
      rw [unique last listed same]

theorem latest_of_mem (unique : (messages.map subjectOf).Nodup) (member : message ∈ messages)
    (about : subjectOf message = some subject) :
    latest subjectOf subject messages = some message :=
  latest_of_unique member about fun _ listed same =>
    List.inj_on_of_nodup_map unique listed member (same.trans about.symm)

end Latest

/-- A subscriber with the messages on the way to it, which knows the content of the last
message it has seen of each subject. The messages of a subject have a topic of their own. -/
structure Converges [DecidableEq Subject] (topicOf : Subject → Topic)
    (subjectOf : Message → Option Subject) (read : Message → Content)
    (retained : Topic → Option Message) (inbound : Option (List Message))
    (view : Subject → Option Content) : Prop where
  filed : ∀ topic message, retained topic = some message →
    ∃ subject, subjectOf message = some subject ∧ topicOf subject = topic
  known : ∀ subject, (view subject).isSome = true →
    (retained (topicOf subject)).isSome = true
  pending : ∀ messages, inbound = some messages → ∀ subject,
    ((latest subjectOf subject messages).map read).or (view subject) =
      (retained (topicOf subject)).map read

namespace Converges

variable [DecidableEq Subject] {topicOf : Subject → Topic}
  {subjectOf : Message → Option Subject} {read : Message → Content}
  {retained : Topic → Option Message} {inbound : Option (List Message)}
  {view : Subject → Option Content} {subject : Subject} {message : Message}

theorem initial : Converges topicOf subjectOf read (fun _ => none) none (fun _ => none) where
  filed _ _ kept := by cases kept
  known _ seen := by cases seen
  pending _ subscribed := by cases subscribed

/-- The broker keeps a message and sends it on. -/
theorem publish [DecidableEq Topic]
    (converges : Converges topicOf subjectOf read retained inbound view)
    (apart : Function.Injective topicOf) (about : subjectOf message = some subject)
    {next : Topic → Option Message}
    (kept : ∀ topic,
      next topic = if topic = topicOf subject then some message else retained topic) :
    Converges topicOf subjectOf read next (inbound.map (· ++ [message])) view where
  filed topic other found := by
    rw [kept] at found
    split at found
    · next same =>
      obtain rfl := Option.some.inj found
      exact ⟨subject, about, same.symm⟩
    · exact converges.filed topic other found
  known other seen := by
    rw [kept]
    split
    · rfl
    · exact converges.known other seen
  pending messages same other := by
    obtain ⟨earlier, rfl, rfl⟩ := Option.map_eq_some_iff.mp same
    rw [kept, latest_append, latest_singleton]
    by_cases here : other = subject
    · rw [here, if_pos about, if_pos rfl]
      rfl
    · have different : subjectOf message ≠ some other := fun same =>
        here (Option.some.inj (same.symm.trans about))
      rw [if_neg different, if_neg fun same => here (apart same), Option.none_or]
      exact converges.pending earlier rfl other

/-- The subscriber receives a message, ahead of which there is none of the same subject. -/
theorem deliver {earlier later : List Message}
    (converges : Converges topicOf subjectOf read retained (some (earlier ++ message :: later))
      view)
    (about : subjectOf message = some subject)
    (ahead : ∀ other ∈ earlier, subjectOf other ≠ some subject)
    {next : Subject → Option Content}
    (updated : ∀ other, next other = if other = subject then some (read message) else view other) :
    Converges topicOf subjectOf read retained (some (earlier ++ later)) next where
  filed := converges.filed
  known other seen := by
    have pending := converges.pending _ rfl other
    rw [latest_append, latest_cons] at pending
    rw [updated] at seen
    split at seen
    · next same =>
      have received : ((retained (topicOf other)).map read).isSome = true := by
        rw [← pending]
        simp [same, about]
      simpa using received
    · exact converges.known other seen
  pending := by
    rintro _ ⟨⟩ other
    have pending := converges.pending _ rfl other
    rw [latest_append, latest_cons, about] at pending
    rw [← pending, updated, latest_append]
    by_cases same : other = subject
    · have none_ahead : latest subjectOf subject earlier = none := latest_eq_none_iff.mpr ahead
      subst same
      simp only [none_ahead, if_true, Option.or_none, Option.map_or, Option.map_some,
        Option.or_assoc, Option.some_or]
    · have different : some subject ≠ some other := fun equal => same (Option.some.inj equal).symm
      rw [if_neg same, if_neg different, Option.or_none]

/-- The last of the messages kept is the one kept under the topic. -/
private theorem latest_retained (converges : Converges topicOf subjectOf read retained inbound view)
    (apart : Function.Injective topicOf) {messages : List Message}
    (listed : ∀ message, message ∈ messages ↔ ∃ topic, retained topic = some message)
    (subject : Subject) :
    latest subjectOf subject messages = retained (topicOf subject) := by
  -- a message of the subject can only be kept under the topic of the subject
  have found : ∀ message ∈ messages, subjectOf message = some subject →
      retained (topicOf subject) = some message := by
    intro message member about
    obtain ⟨topic, kept⟩ := (listed message).mp member
    obtain ⟨other, about', rfl⟩ := converges.filed topic message kept
    obtain rfl := Option.some.inj (about.symm.trans about')
    exact kept
  cases kept : retained (topicOf subject) with
  | some message =>
      have member := (listed message).mpr ⟨_, kept⟩
      obtain ⟨other, about, same⟩ := converges.filed _ message kept
      obtain rfl := apart same
      exact latest_of_unique member about fun other member about =>
        Option.some.inj ((found other member about).symm.trans kept)
  | none =>
      rw [latest_eq_none_iff]
      intro message member about
      exact absurd (kept.symm.trans (found message member about)) (by simp)

/-- A subscription starts with the messages kept, in any order. -/
theorem subscribe (converges : Converges topicOf subjectOf read retained inbound view)
    (apart : Function.Injective topicOf) {messages : List Message}
    (listed : ∀ message, message ∈ messages ↔ ∃ topic, retained topic = some message) :
    Converges topicOf subjectOf read retained (some messages) view where
  filed := converges.filed
  known := converges.known
  pending := by
    rintro _ ⟨⟩ subject
    rw [converges.latest_retained apart listed]
    cases kept : retained (topicOf subject) with
    | some message => rfl
    | none =>
        have unseen := mt (converges.known subject) (by simp [kept])
        simpa using unseen

/-- What is on the way is lost with the connection. -/
theorem lose (converges : Converges topicOf subjectOf read retained inbound view) :
    Converges topicOf subjectOf read retained none view where
  filed := converges.filed
  known := converges.known
  pending _ subscribed := by cases subscribed

/-- The subscriber forgets what it has seen. -/
theorem forget (converges : Converges topicOf subjectOf read retained inbound view) :
    Converges topicOf subjectOf read retained none fun _ => none where
  filed := converges.filed
  known _ seen := by cases seen
  pending _ subscribed := by cases subscribed

/-- Once everything has arrived, the subscriber has seen what the broker has kept. -/
theorem caughtUp (converges : Converges topicOf subjectOf read retained (some []) view)
    (subject : Subject) : view subject = (retained (topicOf subject)).map read := by
  simpa using converges.pending [] rfl subject

end Converges

end Library
