import Mathlib.Data.List.Chain
import Vda5050.VirtualAgvAdapter.PausedActions

/-!
# Picking and dropping loads

Whether a load may be picked or dropped is checked when the action is accepted,
while the load changes when the action finishes. Both agree on the load if an
even number of other picks and drops has finished in between.
-/

set_option autoImplicit false

namespace Vda5050

namespace VirtualAgvAdapter

/-! ## Finished picks and drops -/

def isLoadMove (action : Action) : Bool :=
  action.actionType = "pick" || action.actionType = "drop"

def ActionObservation.finishedMove : ActionObservation → Option String
  | .reaches _ context .finished _ =>
      if isLoadMove context.action then some context.action.actionType else none
  | _ => none

/-- The types of the picks and drops that have finished, in this order. -/
def finishedMoves (history : List ActionObservation) : List String :=
  history.filterMap (·.finishedMove)

/-- Count the picks and drops that finish once the action is accepted. -/
def countMove (ref count : Nat) : ActionObservation → Nat
  | .accepts accepted _ => if accepted = ref then 0 else count
  | observation => if observation.finishedMove.isSome then count + 1 else count

/-- The number of picks and drops finished since an action has been accepted. -/
def movesSince (ref : Nat) (history : List ActionObservation) : Nat :=
  history.foldl (countMove ref) 0

@[simp] theorem finishedMoves_concat (history : List ActionObservation)
    (observation : ActionObservation) :
    finishedMoves (history ++ [observation]) =
      finishedMoves history ++ observation.finishedMove.toList := by
  cases finished : observation.finishedMove <;> simp [finishedMoves, finished]

@[simp] theorem movesSince_concat (ref : Nat) (history : List ActionObservation)
    (observation : ActionObservation) :
    movesSince ref (history ++ [observation]) =
      countMove ref (movesSince ref history) observation := by
  simp [movesSince]

/-! ## Definitions that move loads -/

private theorem mem_actionDefinitions_loads :
    ∀ definition ∈ actionDefinitions,
      (definition.actionType = "pick" → definition.actionExecutable = some .noLoad ∧
        definition.transitions.finishedEffect = .loadAdded) ∧
      (definition.actionType = "drop" → definition.actionExecutable = some .hasLoad ∧
        definition.transitions.finishedEffect = .loadRemoved) ∧
      (definition.actionType ≠ "pick" → definition.actionType ≠ "drop" →
        ∀ hasLoad, definition.transitions.finishedEffect.loadAfter hasLoad = hasLoad) := by
  decide

private theorem actionType_of_getActionDefinition {action : Action} {scope : ActionScope}
    {definition : VirtualActionDefinition}
    (defined : getActionDefinition action scope = some definition) :
    definition.actionType = action.actionType := by
  have found := List.find?_some defined
  simp only [Bool.and_eq_true, decide_eq_true_eq] at found
  exact found.1

/-! ## Moving loads in turn -/

def TickOutcome.isFinishing : TickOutcome → Bool
  | .transitions _ (some .finished) => true
  | _ => false

/-- The machine that finishes when the ongoing tick proceeds. -/
def finishing (math : MathLibrary) (adapter : VirtualAgvAdapter) : Option ActionStateMachine :=
  adapter.ongoingTick.bind fun ongoing =>
    match ongoing.phase with
    | .machines index =>
        (adapter.actionStateMachines[index]?).filter fun asm =>
          (asm.tick math ongoing.realInterval).isFinishing
    | .traverse | .charge => none

/-- A pick or drop finishes only if an even number of picks and drops, possibly
none, has finished since it was accepted. -/
def MovesInTurn (math : MathLibrary) (adapter : VirtualAgvAdapter) : AdapterEvent → Prop
  | .proceed _ =>
      ∀ asm ∈ adapter.finishing math, isLoadMove asm.actionContext.action = true →
        movesSince asm.ref adapter.history % 2 = 0
  | _ => True

instance (math : MathLibrary) (adapter : VirtualAgvAdapter) (event : AdapterEvent) :
    Decidable (MovesInTurn math adapter event) :=
  match event with
  | .proceed _ =>
      inferInstanceAs (Decidable (∀ asm ∈ adapter.finishing math,
        isLoadMove asm.actionContext.action = true →
          movesSince asm.ref adapter.history % 2 = 0))
  | .executeAction _ | .finishEdgeAction _ | .cancelAction _ | .traverseEdge _
  | .stopTraverse _ | .onTick _ => isTrue trivial

/-- A pick finishes without a load, a drop with one. -/
def ActionObservation.MovesLoad : ActionObservation → Prop
  | .reaches _ context .finished currentLoad =>
      (context.action.actionType = "pick" → currentLoad = none) ∧
        (context.action.actionType = "drop" → currentLoad.isSome = true)
  | _ => True

/-- Whether there is a load follows from the picks and drops finished so far,
and so does what active picks and drops have been accepted for. -/
structure LoadBooks (adapter : VirtualAgvAdapter) : Prop where
  defined : ∀ active ∈ adapter.activeActions,
    getActionDefinition active.context.action active.context.scope = some active.definition
  picks : ∀ active ∈ adapter.activeActions, active.context.action.actionType = "pick" →
    adapter.hasLoad = decide (movesSince active.ref adapter.history % 2 = 1)
  drops : ∀ active ∈ adapter.activeActions, active.context.action.actionType = "drop" →
    adapter.hasLoad = decide (movesSince active.ref adapter.history % 2 = 0)
  moves : ∀ observation ∈ adapter.history, observation.MovesLoad
  alternates : (finishedMoves adapter.history).IsChain (· ≠ ·)
  last : adapter.hasLoad = decide ((finishedMoves adapter.history).getLast? = some "pick")

namespace LoadBooks

variable {before after : VirtualAgvAdapter} {context : ActionContext}
  {definition : VirtualActionDefinition} {active : ActiveAction} {actionStatus : ActionStatus}
  {hasLoad : Bool}

theorem keep (books : LoadBooks before) (kept : Keeps before after) : LoadBooks after := by
  obtain ⟨activeActions, nextRef, history, load⟩ := kept
  constructor
  · rw [activeActions]
    exact books.defined
  · rw [activeActions, load, history]
    exact books.picks
  · rw [activeActions, load, history]
    exact books.drops
  · rw [history]
    exact books.moves
  · rw [history]
    exact books.alternates
  · rw [load, history]
    exact books.last

/-- A new action is accepted for the load there is. -/
theorem accept (numbered : Numbered before) (books : LoadBooks before)
    (defined : getActionDefinition context.action context.scope = some definition)
    (executable : before.canExecute context definition.actionExecutable = true)
    (accepted : Accepts before context definition after) : LoadBooks after := by
  obtain ⟨activeActions, nextRef, history, load, -, -⟩ := accepted
  obtain ⟨pick, drop, -⟩ :=
    mem_actionDefinitions_loads _ (getActionDefinition_mem defined)
  rw [actionType_of_getActionDefinition defined] at pick drop
  have unchanged : ∀ active ∈ before.activeActions,
      movesSince active.ref after.history = movesSince active.ref before.history := by
    intro active member
    have below := numbered.below active member
    rw [history, movesSince_concat, countMove, if_neg (by omega)]
  have restarted : movesSince before.nextRef after.history = 0 := by
    rw [history, movesSince_concat, countMove, if_pos rfl]
  have finished : finishedMoves after.history = finishedMoves before.history := by
    rw [history, finishedMoves_concat]
    simp [ActionObservation.finishedMove]
  constructor
  · intro active member
    rw [activeActions, List.mem_append, List.mem_singleton] at member
    cases member with
    | inl earlier => exact books.defined active earlier
    | inr new =>
        subst new
        exact defined
  · intro active member isPick
    rw [activeActions, List.mem_append, List.mem_singleton] at member
    rw [load]
    cases member with
    | inl earlier =>
        rw [unchanged active earlier]
        exact books.picks active earlier isPick
    | inr new =>
        subst new
        rw [restarted]
        rw [(pick isPick).1] at executable
        simpa [canExecute, hasLoad] using executable
  · intro active member isDrop
    rw [activeActions, List.mem_append, List.mem_singleton] at member
    rw [load]
    cases member with
    | inl earlier =>
        rw [unchanged active earlier]
        exact books.drops active earlier isDrop
    | inr new =>
        subst new
        rw [restarted]
        rw [(drop isDrop).1] at executable
        simpa [canExecute, hasLoad] using executable
  · intro observation member
    rw [history, List.mem_append, List.mem_singleton] at member
    cases member with
    | inl earlier => exact books.moves observation earlier
    | inr new =>
        subst new
        trivial
  · rw [finished]
    exact books.alternates
  · rw [load, finished]
    exact books.last

/-- An action that is no pick or drop, or does not finish, leaves the load alone. -/
private theorem reach_other (books : LoadBooks before)
    (unmoved : ActionObservation.finishedMove (.reaches active.ref active.context actionStatus
      before.vehicleState.currentLoad) = none)
    (reached : Reaches before active actionStatus before.hasLoad after) : LoadBooks after := by
  have sublist := reached.sublist
  obtain ⟨-, nextRef, history, load, -⟩ := reached
  have unchanged : ∀ ref, movesSince ref after.history = movesSince ref before.history := by
    intro ref
    rw [history, movesSince_concat]
    simp [countMove, unmoved]
  have finished : finishedMoves after.history = finishedMoves before.history := by
    rw [history, finishedMoves_concat, unmoved]
    simp
  constructor
  · intro active member
    exact books.defined active (sublist.subset member)
  · intro active member isPick
    rw [load, unchanged]
    exact books.picks active (sublist.subset member) isPick
  · intro active member isDrop
    rw [load, unchanged]
    exact books.drops active (sublist.subset member) isDrop
  · intro observation member
    rw [history, List.mem_append, List.mem_singleton] at member
    cases member with
    | inl earlier => exact books.moves observation earlier
    | inr new =>
        subst new
        cases actionStatus with
        | finished =>
            simp only [ActionObservation.finishedMove, ite_eq_right_iff, reduceCtorEq, imp_false,
              isLoadMove, Bool.or_eq_true, decide_eq_true_eq, not_or] at unmoved
            exact ⟨fun isPick => absurd isPick unmoved.1, fun isDrop => absurd isDrop unmoved.2⟩
        | failed | initializing | paused | running | waiting => trivial
  · rw [finished]
    exact books.alternates
  · rw [load, finished]
    exact books.last

/-- The load changes when a pick or drop finishes for the load there is. -/
private theorem reach_move (books : LoadBooks before)
    (moves : active.context.action.actionType = "pick" ∧ before.hasLoad = false ∨
      active.context.action.actionType = "drop" ∧ before.hasLoad = true)
    (reached : Reaches before active .finished (!before.hasLoad) after) : LoadBooks after := by
  have sublist := reached.sublist
  obtain ⟨-, nextRef, history, load, -⟩ := reached
  have move : ActionObservation.finishedMove (.reaches active.ref active.context .finished
      before.vehicleState.currentLoad) = some active.context.action.actionType := by
    rcases moves with ⟨type, -⟩ | ⟨type, -⟩ <;> simp [ActionObservation.finishedMove, isLoadMove, type]
  have counted : ∀ ref, movesSince ref after.history = movesSince ref before.history + 1 := by
    intro ref
    rw [history, movesSince_concat]
    simp [countMove, move]
  have finished : finishedMoves after.history =
      finishedMoves before.history ++ [active.context.action.actionType] := by
    rw [history, finishedMoves_concat, move]
    rfl
  constructor
  · intro active member
    exact books.defined active (sublist.subset member)
  · intro active member isPick
    rw [load, counted, books.picks active (sublist.subset member) isPick]
    simp only [← decide_not, decide_eq_decide]
    omega
  · intro active member isDrop
    rw [load, counted, books.drops active (sublist.subset member) isDrop]
    simp only [← decide_not, decide_eq_decide]
    omega
  · intro observation member
    rw [history, List.mem_append, List.mem_singleton] at member
    cases member with
    | inl earlier => exact books.moves observation earlier
    | inr new =>
        subst new
        constructor
        · intro isPick
          have unloaded : before.hasLoad = false := by simpa [isPick] using moves
          simpa [hasLoad] using unloaded
        · intro isDrop
          have loaded : before.hasLoad = true := by simpa [isDrop] using moves
          exact loaded
  · rw [finished, List.isChain_append]
    refine ⟨books.alternates, List.isChain_singleton _, ?_⟩
    intro last isLast moved isMoved
    have lastMove := books.last
    rw [Option.mem_def.mp isLast] at lastMove
    simp only [List.head?_cons, Option.mem_def, Option.some.injEq] at isMoved
    subst isMoved
    rcases moves with ⟨type, unloaded⟩ | ⟨type, loaded⟩
    · rw [unloaded] at lastMove
      rw [type]
      simpa using lastMove.symm
    · rw [loaded] at lastMove
      have isPick : last = "pick" := by simpa using lastMove.symm
      rw [isPick, type]
      decide
  · rw [load, finished, List.getLast?_concat]
    rcases moves with ⟨type, unloaded⟩ | ⟨type, loaded⟩
    · simp [type, unloaded]
    · simp [type, loaded]

end LoadBooks

variable {math : MathLibrary} {options : VirtualAgvAdapterOptions} {adapter : VirtualAgvAdapter}

private theorem finishing_eq_some {ongoing : OngoingTick} {index : Nat}
    {asm next : ActionStateMachine}
    (ticking : adapter.ongoingTick = some ongoing) (phase : ongoing.phase = .machines index)
    (found : adapter.actionStateMachines[index]? = some asm)
    (ticked : asm.tick math ongoing.realInterval = .transitions next (some .finished)) :
    adapter.finishing math = some asm := by
  simp [finishing, ticking, phase, found, ticked, TickOutcome.isFinishing]

/-- The load after a pick or drop that finishes for the load there is. -/
private theorem LoadBooks.loadAfter_move (books : LoadBooks adapter) {asm : ActionStateMachine}
    (member : asm.activeAction ∈ adapter.activeActions)
    (move : isLoadMove asm.actionContext.action = true)
    (inTurn : movesSince asm.ref adapter.history % 2 = 0) :
    (asm.actionContext.action.actionType = "pick" ∧ adapter.hasLoad = false ∨
      asm.actionContext.action.actionType = "drop" ∧ adapter.hasLoad = true) ∧
      Reaches.loadAfter asm .finished adapter.hasLoad = !adapter.hasLoad := by
  have defined := books.defined _ member
  obtain ⟨pick, drop, -⟩ := mem_actionDefinitions_loads _ (getActionDefinition_mem defined)
  rw [actionType_of_getActionDefinition defined] at pick drop
  rw [isLoadMove, Bool.or_eq_true, decide_eq_true_eq, decide_eq_true_eq] at move
  rw [Reaches.loadAfter, if_pos rfl]
  rcases move with isPick | isDrop
  · have unloaded : adapter.hasLoad = false := by
      rw [books.picks _ member isPick, decide_eq_false_iff_not]
      exact fun odd => absurd (inTurn.symm.trans odd) (by decide)
    have effect : asm.actionDefinition.transitions.finishedEffect = .loadAdded := (pick isPick).2
    rw [effect, unloaded]
    exact ⟨.inl ⟨isPick, rfl⟩, rfl⟩
  · have loaded : adapter.hasLoad = true := by
      rw [books.drops _ member isDrop, decide_eq_true_eq]
      exact inTurn
    have effect : asm.actionDefinition.transitions.finishedEffect = .loadRemoved := (drop isDrop).2
    rw [effect, loaded]
    exact ⟨.inr ⟨isDrop, rfl⟩, rfl⟩

/-- The load after a transition that finishes neither a pick nor a drop. -/
private theorem LoadBooks.loadAfter_other (books : LoadBooks adapter) {asm : ActionStateMachine}
    (member : asm.activeAction ∈ adapter.activeActions) {actionStatus : ActionStatus}
    (other : actionStatus = .finished → isLoadMove asm.actionContext.action = false) :
    Reaches.loadAfter asm actionStatus adapter.hasLoad = adapter.hasLoad := by
  have defined := books.defined _ member
  obtain ⟨-, -, unmoved⟩ := mem_actionDefinitions_loads _ (getActionDefinition_mem defined)
  rw [actionType_of_getActionDefinition defined] at unmoved
  unfold Reaches.loadAfter
  split
  · next finished =>
    have noMove := other finished
    rw [isLoadMove, Bool.or_eq_false_iff, decide_eq_false_iff_not,
      decide_eq_false_iff_not] at noMove
    exact unmoved noMove.1 noMove.2 _
  · rfl

private theorem loadBooks_of_run {events : List AdapterEvent}
    (run : AdapterRun math options (MovesInTurn math) events adapter) : LoadBooks adapter := by
  refine actionInvariant LoadBooks ?_ ?_ run
  · constructor
    · intro active member
      cases member
    · intro active member
      cases member
    · intro active member
      cases member
    · intro observation member
      cases member
    · exact List.isChain_nil
    · rfl
  · intro state event next numbered books permitted acted
    cases acted with
    | carries carried => exact books.keep carried.toKeeps
    | accepts handedOver defined executable accepted =>
        exact books.accept numbered defined executable accepted
    | drives proceeds ticking phase ready kept => exact books.keep kept
    | reaches proceeds ticking phase found ticked reached =>
        rename_i inputs ongoing index asm following actionStatus
        have member : asm.activeAction ∈ state.activeActions :=
          List.mem_map_of_mem (List.mem_of_getElem? found)
        by_cases moves : actionStatus = .finished ∧ isLoadMove asm.actionContext.action = true
        · obtain ⟨rfl, move⟩ := moves
          subst proceeds
          have inTurn := permitted asm (finishing_eq_some ticking phase found ticked) move
          obtain ⟨fits, changed⟩ := books.loadAfter_move member move inTurn
          rw [changed] at reached
          exact books.reach_move fits reached
        · have other : actionStatus = .finished →
              isLoadMove asm.actionContext.action = false := by
            intro finished
            simpa [finished] using moves
          rw [books.loadAfter_other member other] at reached
          refine books.reach_other ?_ reached
          cases actionStatus with
          | finished =>
              have noMove : isLoadMove asm.activeAction.context.action = false := other rfl
              simp [ActionObservation.finishedMove, noMove]
          | failed | initializing | paused | running | waiting => rfl

/-- Picks finish without a load, drops with one, and both strictly alternate, in
runs whose picks and drops finish in turn. -/
theorem picks_and_drops_alternate {events : List AdapterEvent}
    (run : AdapterRun math options (MovesInTurn math) events adapter) :
    (∀ ref context currentLoad,
      .reaches ref context .finished currentLoad ∈ adapter.history →
      (context.action.actionType = "pick" → currentLoad = none) ∧
        (context.action.actionType = "drop" → currentLoad.isSome = true)) ∧
      (finishedMoves adapter.history).IsChain (· ≠ ·) := by
  have books := loadBooks_of_run run
  exact ⟨fun ref context currentLoad member => books.moves _ member, books.alternates⟩

/-! ## Picks in parallel -/

def handling (actionId actionType : String) : ActionContext where
  action :=
    { actionId
      actionType
      blockingType := .none
      actionParameters :=
        [{ key := "stationType", value := .str "floor" },
          { key := "loadType", value := .str "EPAL" }, { key := "duration", value := .num 1 "1" }] }
  scope := .node (axisNode 0 0)

/-- A tick of two seconds, which is time enough for each status of a pick. -/
def longTick (machines : Nat) : List AdapterEvent :=
  .onTick 2 :: List.replicate (machines + 3) (.proceed {})

/-- Three ticks of a single action. -/
def executed (context : ActionContext) : List AdapterEvent :=
  .executeAction context :: longTick 1 ++ longTick 1 ++ longTick 1

theorem alternates_of_pick_drop :
    ∃ adapter,
      AdapterRun axisMath {} (MovesInTurn axisMath)
        (executed (handling "p" "pick") ++ executed (handling "d" "drop")) adapter ∧
      finishedMoves adapter.history = ["pick", "drop"] ∧
      (∀ ref context currentLoad,
        .reaches ref context .finished currentLoad ∈ adapter.history →
        (context.action.actionType = "pick" → currentLoad = none) ∧
          (context.action.actionType = "drop" → currentLoad.isSome = true)) ∧
      (finishedMoves adapter.history).IsChain (· ≠ ·) := by
  obtain ⟨adapter, run, passed⟩ := AdapterRun.exists_of_execute axisMath {} (MovesInTurn axisMath)
    (executed (handling "p" "pick") ++ executed (handling "d" "drop"))
    (fun adapter => decide (finishedMoves adapter.history = ["pick", "drop"]))
    (by decide +kernel)
  rw [decide_eq_true_eq] at passed
  exact ⟨adapter, run, passed, picks_and_drops_alternate run⟩

/-- Both picks are accepted without a load, and the second one finishes with the
load of the first one. -/
theorem pick_overwrites_load :
    ∃ adapter,
      AdapterRun axisMath {} (fun _ _ => True)
        (.executeAction (handling "p" "pick") :: .executeAction (handling "q" "pick") ::
          longTick 2 ++ longTick 2 ++ longTick 1 ++ longTick 1) adapter ∧
      (∃ currentLoad, .reaches 1 (handling "q" "pick") .finished (some currentLoad) ∈
        adapter.history) ∧
      finishedMoves adapter.history = ["pick", "pick"] := by
  obtain ⟨adapter, run, passed⟩ := AdapterRun.exists_of_execute axisMath {} (fun _ _ => True)
    (.executeAction (handling "p" "pick") :: .executeAction (handling "q" "pick") ::
      longTick 2 ++ longTick 2 ++ longTick 1 ++ longTick 1)
    (fun adapter => decide (.reaches 1 (handling "q" "pick") .finished
        (some { loadId := "RFID_", weight := 10 }) ∈ adapter.history) &&
      decide (finishedMoves adapter.history = ["pick", "pick"]))
    (by decide +kernel)
  rw [Bool.and_eq_true, decide_eq_true_eq, decide_eq_true_eq] at passed
  exact ⟨adapter, run, ⟨_, passed.1⟩, passed.2⟩

end VirtualAgvAdapter

end Vda5050
