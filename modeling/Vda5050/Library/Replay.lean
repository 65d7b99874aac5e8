import Vda5050.Library.Run

/-!
# Replayed updates

A component tells an observer of its state by a log of updates. What the observer
knows is found by replaying the log; it is to agree with the component after every
step, and what it knows in between is to make sense, too.
-/

set_option autoImplicit false

namespace Library

variable {State Update World : Type}

/-- The state after the given updates. -/
def replay (apply : State → Update → State) (state : State) (updates : List Update) : State :=
  updates.foldl apply state

@[simp] theorem replay_append (apply : State → Update → State) (state : State)
    (updates later : List Update) :
    replay apply state (updates ++ later) = replay apply (replay apply state updates) later :=
  List.foldl_append

/-- A property holds before the given updates and after each of them. -/
def AllAlong (apply : State → Update → State) (holds : State → Prop) :
    State → List Update → Prop
  | state, [] => holds state
  | state, update :: updates => holds state ∧ AllAlong apply holds (apply state update) updates

variable {apply : State → Update → State} {holds : State → Prop}

namespace AllAlong

theorem start {state : State} {updates : List Update}
    (along : AllAlong apply holds state updates) : holds state := by
  cases updates with
  | nil => exact along
  | cons update updates => exact along.1

theorem append {updates later : List Update} {state : State}
    (first : AllAlong apply holds state updates)
    (second : AllAlong apply holds (replay apply state updates) later) :
    AllAlong apply holds state (updates ++ later) := by
  induction updates generalizing state with
  | nil => exact second
  | cons update updates ih => exact ⟨first.1, ih first.2 second⟩

theorem right {updates later : List Update} {state : State}
    (along : AllAlong apply holds state (updates ++ later)) :
    AllAlong apply holds (replay apply state updates) later := by
  induction updates generalizing state with
  | nil => exact along
  | cons update updates ih => exact ih along.2

/-- The updates read so far may be any prefix. -/
private theorem of_prefix {past updates : List Update} {state : State}
    (along : AllAlong apply holds state updates) (seen : past <+: updates) :
    holds (replay apply state past) := by
  obtain ⟨later, rfl⟩ := seen
  exact along.right.start

theorem finish {state : State} {updates : List Update}
    (along : AllAlong apply holds state updates) : holds (replay apply state updates) :=
  along.of_prefix List.prefix_rfl

end AllAlong

/-- Between two states of a component the log grows by updates that make up for the
difference. -/
def Tells (apply : State → Update → State) (holds : State → Prop) (observe : World → State)
    (log : World → List Update) (before after : World) : Prop :=
  ∃ updates, log after = log before ++ updates ∧
    replay apply (observe before) updates = observe after ∧
    (holds (observe before) → AllAlong apply holds (observe before) updates)

namespace Tells

variable {observe : World → State} {log : World → List Update} {before middle after : World}

theorem trans (first : Tells apply holds observe log before middle)
    (second : Tells apply holds observe log middle after) :
    Tells apply holds observe log before after := by
  obtain ⟨updates, grown, leads, along⟩ := first
  obtain ⟨later, grown', leads', along'⟩ := second
  refine ⟨updates ++ later, by rw [grown', grown, List.append_assoc], ?_, fun sound => ?_⟩
  · rw [replay_append, leads, leads']
  · refine (along sound).append ?_
    rw [leads]
    exact along' (leads ▸ (along sound).finish)

/-- Nothing is told, and there is nothing to tell. -/
theorem of_same (observed : observe after = observe before) (kept : log after = log before) :
    Tells apply holds observe log before after :=
  ⟨[], by simp [kept], observed.symm, fun sound => sound⟩

theorem refl (world : World) : Tells apply holds observe log world world := of_same rfl rfl

/-- One update makes up for the difference. -/
theorem of_update {update : Update} (told : log after = log before ++ [update])
    (leads : apply (observe before) update = observe after)
    (sound : holds (observe before) → holds (observe after)) :
    Tells apply holds observe log before after :=
  ⟨[update], told, leads, fun before => ⟨before, leads ▸ sound before⟩⟩

/-- What has been told of the first state leads to the last one. -/
theorem replay_eq {init : World} (nothing : log init = [])
    (told : Tells apply holds observe log init after) :
    replay apply (observe init) (log after) = observe after := by
  obtain ⟨updates, grown, leads, -⟩ := told
  rw [grown, nothing]
  exact leads

theorem allAlong {init : World} (nothing : log init = []) (sound : holds (observe init))
    (told : Tells apply holds observe log init after) :
    AllAlong apply holds (observe init) (log after) := by
  obtain ⟨updates, grown, -, along⟩ := told
  rw [grown, nothing]
  exact along sound

end Tells

end Library
