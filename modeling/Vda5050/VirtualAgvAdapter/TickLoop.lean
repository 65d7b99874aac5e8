import Vda5050.Library.LivePass
import Vda5050.VirtualAgvAdapter.StandingActions

/-!
# The loop over the machines in a tick

The loop sees the list of machines as it is at the time. A machine that ends is
taken out of the list, so that the one behind it is passed over, and a machine
that is added may be ticked at once.
-/

set_option autoImplicit false

namespace Vda5050

namespace VirtualAgvAdapter

open Library (Pass)

/-! ## Machines ticked -/

/-- The machine whose tick the ongoing tick comes to next, and the interval. -/
def nextMachine (adapter : VirtualAgvAdapter) : Option (ActionStateMachine × Rat) :=
  adapter.ongoingTick.bind fun ongoing =>
    match ongoing.phase with
    | .machines index =>
        (adapter.actionStateMachines[index]?).map fun asm => (asm, ongoing.realInterval)
    | .traverse | .charge => none

/-- The identities of the machines that the loop has not come to yet. -/
def machinesAhead (adapter : VirtualAgvAdapter) : List Nat :=
  match adapter.ongoingTick with
  | some { phase := .machines index, .. } =>
      (adapter.actionStateMachines.drop index).map (·.ref)
  | _ => []

/-- An adapter, with the machines ticked since a tick began. -/
structure ObservedTick where
  adapter : VirtualAgvAdapter
  ticked : List (Nat × Rat) := []
  deriving DecidableEq, Repr

def ObservedTick.step (math : MathLibrary) (options : VirtualAgvAdapterOptions)
    (observed : ObservedTick) (event : AdapterEvent) : Option ObservedTick :=
  (VirtualAgvAdapter.step math options observed.adapter event).map fun adapter =>
    { adapter
      ticked :=
        match event with
        | .proceed _ =>
            observed.ticked ++
              (observed.adapter.nextMachine.map fun next => (next.1.ref, next.2)).toList
        | _ => observed.ticked }

def AdapterEvent.isOnTick : AdapterEvent → Bool
  | .onTick _ => true
  | _ => false

private theorem AdapterEvent.ne_onTick {event : AdapterEvent} (handled : event.isOnTick = false)
    (interval : Rat) : event ≠ .onTick interval := by
  rintro rfl
  cases handled

/-- The part of a run that follows the beginning of a tick, up to the next tick. -/
abbrev TickRun (math : MathLibrary) (options : VirtualAgvAdapterOptions)
    (adapter : VirtualAgvAdapter) (realInterval : Rat)
    (condition : ObservedTick → AdapterEvent → Prop) :
    List AdapterEvent → ObservedTick → Prop :=
  Library.Run (ObservedTick.step math options)
    (fun observed event => event.isOnTick = false ∧ condition observed event)
    { adapter := adapter.onTick realInterval }

/-- The loop over the machines has come to its end, or has been aborted. -/
def isLoopOver (adapter : VirtualAgvAdapter) : Bool :=
  match adapter.ongoingTick with
  | some { phase := .machines _, .. } => false
  | _ => true

/-! ## Machines passed over -/

/-- A tick ends the action of the machine. -/
def ActionStateMachine.isEnding (math : MathLibrary) (realInterval : Rat)
    (asm : ActionStateMachine) : Bool :=
  match asm.tick math realInterval with
  | .transitions _ (some actionStatus) => actionStatus.isEnded
  | _ => false

/-- The machines the loop does not come to when the given machine is ticked: the
one behind it if it ends, and all of them if it throws. -/
def passedOver (math : MathLibrary) (inputs : TickInputs) (adapter : VirtualAgvAdapter)
    (asm : ActionStateMachine) (realInterval : Rat) : List Nat :=
  let behind := adapter.machinesAhead.tail
  if (adapter.tickMachine math inputs realInterval asm).2 then
    if asm.isEnding math realInterval then behind.take 1 else []
  else behind

/-- The machine that is ticked has been active when the tick began, and those that are
passed over have not. -/
def KeepsCourse (math : MathLibrary) (start : VirtualAgvAdapter) (observed : ObservedTick) :
    AdapterEvent → Prop
  | .proceed inputs =>
      ∀ next ∈ observed.adapter.nextMachine,
        Pass.Proper (start.actionStateMachines.map (·.ref)) next.1.ref
          (observed.adapter.passedOver math inputs next.1 next.2)
  | _ => True

/-- Each machine that was active when the tick began is ticked once, and no other one. -/
def TicksEachOnce (start : VirtualAgvAdapter) (realInterval : Rat)
    (ticked : List (Nat × Rat)) : Prop :=
  ticked.Perm (start.actionStateMachines.map fun asm => (asm.ref, realInterval))

/-! ## Steps of the loop -/

variable {math : MathLibrary} {options : VirtualAgvAdapterOptions}
  {adapter next : VirtualAgvAdapter}

/-- Handlers do not interfere with the tick. -/
private theorem ongoingTick_of_handler {event : AdapterEvent}
    (stepped : step math options adapter event = some next)
    (handled : ∀ interval, event ≠ .onTick interval) (other : ∀ inputs, event ≠ .proceed inputs) :
    next.ongoingTick = adapter.ongoingTick := by
  cases event with
  | onTick interval => exact absurd rfl (handled interval)
  | proceed inputs => exact absurd rfl (other inputs)
  | traverseEdge context =>
      obtain rfl := Option.some.inj stepped
      rfl
  | executeAction context =>
      obtain rfl := Option.some.inj stepped
      unfold executeAction accept standStill
      repeat' split
      all_goals rfl
  | finishEdgeAction context =>
      obtain rfl := Option.some.inj stepped
      unfold finishEdgeAction updateMatching
      split <;> rfl
  | cancelAction context =>
      obtain rfl := Option.some.inj stepped
      unfold cancelAction updateMatching
      split <;> rfl
  | stopTraverse context =>
      obtain rfl := Option.some.inj stepped
      unfold stopTraverse stopPauseState standStill
      repeat' split
      all_goals rfl

/-- The identities of the machines. -/
def machineRefs (adapter : VirtualAgvAdapter) : List Nat :=
  adapter.actionStateMachines.map (·.ref)

private theorem machineRefs_eq (adapter : VirtualAgvAdapter) :
    adapter.machineRefs = adapter.activeActions.map (·.ref) := by
  simp only [machineRefs, activeActions, List.map_map]
  rfl

private theorem machinesAhead_eq {index : Nat} {realInterval : Rat}
    (ticking : adapter.ongoingTick = some { phase := .machines index, realInterval }) :
    adapter.machinesAhead = adapter.machineRefs.drop index := by
  simp [machinesAhead, ticking, machineRefs, List.map_drop]

private theorem nodup_machinesAhead (numbered : Numbered adapter) :
    adapter.machinesAhead.Nodup := by
  unfold machinesAhead
  split
  · rw [List.map_drop]
    refine List.Nodup.sublist (List.drop_sublist _ _) ?_
    have unique := numbered.unique
    rwa [← machineRefs_eq] at unique
  · exact List.nodup_nil

private theorem machineRefs_advanceMachine (adapter : VirtualAgvAdapter)
    (asm : ActionStateMachine) :
    (adapter.advanceMachine asm).machineRefs = adapter.machineRefs := by
  simp only [machineRefs, advanceMachine, updateMachines, List.map_map]
  refine List.map_congr_left fun other _ => ?_
  simp only [Function.comp_apply]
  split
  · next same => exact same.symm
  · rfl

/-- A machine that ends is taken out of the list. -/
private theorem machineRefs_tickMachine (numbered : Numbered adapter) (inputs : TickInputs)
    (realInterval : Rat) {asm : ActionStateMachine} (member : asm ∈ adapter.actionStateMachines) :
    (adapter.tickMachine math inputs realInterval asm).1.machineRefs =
      if asm.isEnding math realInterval then adapter.machineRefs.filter (· ≠ asm.ref)
      else adapter.machineRefs := by
  have about := asm.isAbout_tick math realInterval
  unfold tickMachine ActionStateMachine.isEnding
  cases ticked : asm.tick math realInterval with
  | stays next => exact machineRefs_advanceMachine _ _
  | typeError => rfl
  | transitions next status =>
      rw [ticked] at about
      cases status with
      | none => exact machineRefs_advanceMachine _ _
      | some actionStatus =>
          have reached := Reaches.of_transition numbered inputs member about actionStatus
          dsimp only
          rw [machineRefs_eq, machineRefs_eq, reached.activeActions]
          split
          · rw [List.filter_map]
            rfl
          · rfl

/-- Taking an element out of a list without duplicates. -/
private theorem filter_ne_of_getElem? {refs : List Nat} (unique : refs.Nodup) {index ref : Nat}
    (found : refs[index]? = some ref) :
    refs.filter (· ≠ ref) = refs.take index ++ refs.drop (index + 1) := by
  have split : refs = refs.take index ++ ref :: refs.drop (index + 1) := by
    obtain ⟨inside, rfl⟩ := List.getElem?_eq_some_iff.mp found
    rw [List.getElem_cons_drop, List.take_append_drop]
  have unique' := unique
  rw [split] at unique'
  obtain ⟨-, behind, apart⟩ := List.nodup_append.mp unique'
  obtain ⟨fresh, -⟩ := List.nodup_cons.mp behind
  have front : (refs.take index).filter (· ≠ ref) = refs.take index :=
    List.filter_eq_self.mpr fun other member =>
      decide_eq_true (apart other member ref List.mem_cons_self)
  have back : (refs.drop (index + 1)).filter (· ≠ ref) = refs.drop (index + 1) :=
    List.filter_eq_self.mpr fun other member =>
      decide_eq_true fun same => fresh (same ▸ member)
  conv_lhs => rw [split]
  rw [List.filter_append, front, List.filter_cons_of_neg (by simp), back]

/-- The machine that is ticked, those that are passed over, and those ahead afterwards. -/
private theorem machinesAhead_proceed (numbered : Numbered adapter) {inputs : TickInputs}
    {asm : ActionStateMachine} {realInterval : Rat}
    (found : adapter.nextMachine = some (asm, realInterval))
    (stepped : step math options adapter (.proceed inputs) = some next) :
    adapter.machinesAhead = asm.ref ::
      (adapter.passedOver math inputs asm realInterval ++ next.machinesAhead) := by
  simp only [nextMachine, Option.bind_eq_some_iff] at found
  obtain ⟨⟨phase, interval⟩, ticking, found⟩ := found
  cases phase with
  | traverse | charge => cases found
  | machines index =>
      simp only [Option.map_eq_some_iff, Prod.mk.injEq] at found
      obtain ⟨asm, found, rfl, rfl⟩ := found
      have member := List.mem_of_getElem? found
      have refs : (adapter.tickMachine math inputs interval asm).1.machineRefs =
          if asm.isEnding math interval then adapter.machineRefs.filter (· ≠ asm.ref)
          else adapter.machineRefs := machineRefs_tickMachine numbered inputs interval member
      have unique : adapter.machineRefs.Nodup := by
        rw [machineRefs_eq]
        exact numbered.unique
      have foundRef : adapter.machineRefs[index]? = some asm.ref := by
        simp [machineRefs, found]
      have ahead : adapter.machinesAhead = asm.ref :: adapter.machineRefs.drop (index + 1) := by
        obtain ⟨inside, same⟩ := List.getElem?_eq_some_iff.mp foundRef
        rw [machinesAhead_eq ticking, ← same, List.getElem_cons_drop]
      simp only [step, ticking, Option.map_some, Option.some.injEq, proceed, found] at stepped
      rw [passedOver, ahead, List.tail_cons, ← stepped]
      cases completed : (adapter.tickMachine math inputs interval asm).2 with
      | false => simp [continueTick, completed, machinesAhead]
      | true =>
          have after : machinesAhead (continueTick interval (.machines (index + 1))
              (adapter.tickMachine math inputs interval asm)) =
                (adapter.tickMachine math inputs interval asm).1.machineRefs.drop (index + 1) := by
            simp [continueTick, completed, machinesAhead, machineRefs, List.map_drop]
          rw [after, refs]
          cases asm.isEnding math interval with
          | false => simp
          | true =>
              have short : (adapter.machineRefs.take index).length = index :=
                List.length_take_of_le (by
                  obtain ⟨inside, -⟩ := List.getElem?_eq_some_iff.mp foundRef
                  omega)
              have rest : (adapter.machineRefs.take index).drop (index + 1) = [] :=
                List.drop_of_length_le (by omega)
              rw [if_pos rfl, if_pos rfl, if_pos rfl, filter_ne_of_getElem? unique foundRef,
                List.drop_append, short, rest, Nat.add_sub_cancel_left, List.nil_append,
                List.take_append_drop]

/-- The loop ends behind the last machine, and does not begin again in the tick. -/
private theorem machinesAhead_pass {inputs : TickInputs} (none : adapter.nextMachine = none)
    (stepped : step math options adapter (.proceed inputs) = some next) :
    adapter.machinesAhead = [] ∧ next.machinesAhead = [] := by
  obtain ⟨⟨phase, interval⟩, ticking, rfl⟩ := Option.map_eq_some_iff.mp stepped
  cases phase with
  | machines index =>
      simp only [nextMachine, ticking, Option.bind_some, Option.map_eq_none_iff] at none
      rw [machinesAhead_eq ticking]
      have beyond := List.getElem?_eq_none_iff.mp none
      simp [proceed, continueTick, machinesAhead, machineRefs, beyond]
  | traverse =>
      simp only [machinesAhead, ticking, proceed, continueTick, true_and]
      split
      · next same => split at same <;> cases same
      · rfl
  | charge => simp [machinesAhead, ticking, proceed]

/-- Handlers only append machines that are new. -/
private theorem machinesAhead_handler (numbered : Numbered adapter) {event : AdapterEvent}
    (stepped : step math options adapter event = some next)
    (handled : ∀ interval, event ≠ .onTick interval) (other : ∀ inputs, event ≠ .proceed inputs) :
    ∃ added, next.machinesAhead = adapter.machinesAhead ++ added ∧
      ∀ ref ∈ added, ref = adapter.nextRef := by
  have ticking := ongoingTick_of_handler stepped handled other
  have refs : ∃ added, next.machineRefs = adapter.machineRefs ++ added ∧
      ∀ ref ∈ added, ref = adapter.nextRef := by
    rw [machineRefs_eq, machineRefs_eq]
    cases step_actionStep numbered stepped with
    | carries carried => exact ⟨[], by rw [carried.activeActions, List.append_nil], nofun⟩
    | accepts _ _ _ accepted =>
        exact ⟨[adapter.nextRef], by rw [accepted.activeActions, List.map_append]; rfl,
          fun ref member => List.mem_singleton.mp member⟩
    | drives proceeds => exact absurd proceeds (other _)
    | reaches proceeds => exact absurd proceeds (other _)
  obtain ⟨added, refs, fresh⟩ := refs
  cases phase : adapter.ongoingTick with
  | none => exact ⟨[], by simp [machinesAhead, ticking, phase], nofun⟩
  | some ongoing =>
      obtain ⟨phase', interval⟩ := ongoing
      cases phase' with
      | traverse | charge => exact ⟨[], by simp [machinesAhead, ticking, phase], nofun⟩
      | machines index =>
          rw [machinesAhead_eq (ticking.trans phase), machinesAhead_eq phase, refs, List.drop_append]
          exact ⟨_, rfl, fun ref member => fresh ref (List.mem_of_mem_drop member)⟩

private theorem nextRef_le (numbered : Numbered adapter) {event : AdapterEvent}
    (stepped : step math options adapter event = some next) :
    adapter.nextRef ≤ next.nextRef := by
  cases step_actionStep numbered stepped with
  | carries carried => exact carried.nextRef.ge
  | accepts _ _ _ accepted =>
      rw [accepted.nextRef]
      exact Nat.le_succ _
  | drives _ _ _ _ kept => exact kept.nextRef.ge
  | reaches _ _ _ _ _ reached => exact reached.nextRef.ge

/-! ## The loop as a pass over the machines -/

/-- The machines ticked so far, and those ahead. -/
def ObservedTick.pass (observed : ObservedTick) : Pass Nat where
  visited := observed.ticked.map (·.1)
  ahead := observed.adapter.machinesAhead

/-- What holds throughout a tick. -/
structure IsTicking (start : VirtualAgvAdapter) (realInterval : Rat) (observed : ObservedTick) :
    Prop where
  numbered : Numbered observed.adapter
  nextRef : start.nextRef ≤ observed.adapter.nextRef
  interval : ∀ ongoing, observed.adapter.ongoingTick = some ongoing →
    ongoing.realInterval = realInterval
  ticked : ∀ entry ∈ observed.ticked, entry.2 = realInterval

variable {start : VirtualAgvAdapter} {realInterval : Rat} {observed after : ObservedTick}
  {event : AdapterEvent}

private theorem isTicking_onTick (numbered : Numbered start) (realInterval : Rat) :
    IsTicking start realInterval { adapter := start.onTick realInterval } where
  numbered := ⟨numbered.unique, numbered.below⟩
  nextRef := Nat.le_refl _
  interval := by
    intro ongoing same
    obtain rfl := Option.some.inj same
    rfl
  ticked := nofun

/-- The interval of a tick stays the same. -/
theorem realInterval_of_step (stepped : step math options adapter event = some next)
    (handled : ∀ interval, event ≠ .onTick interval)
    (known : ∀ ongoing, adapter.ongoingTick = some ongoing → ongoing.realInterval = realInterval) :
    ∀ ongoing, next.ongoingTick = some ongoing → ongoing.realInterval = realInterval := by
  by_cases proceeds : ∃ inputs, event = .proceed inputs
  · obtain ⟨inputs, rfl⟩ := proceeds
    obtain ⟨ongoing, ticking, rfl⟩ := Option.map_eq_some_iff.mp stepped
    have same := known ongoing ticking
    have continued (phase : TickPhase) (result : VirtualAgvAdapter × Bool) (other : OngoingTick)
        (still : (continueTick ongoing.realInterval phase result).ongoingTick = some other) :
        other.realInterval = realInterval := by
      simp only [continueTick] at still
      split at still
      · obtain rfl := Option.some.inj still
        exact same
      · cases still
    intro other still
    unfold proceed at still
    split at still
    · split at still
      · exact continued _ _ _ still
      · exact continued _ _ _ still
    · exact continued _ _ _ still
    · cases still
  · rw [ongoingTick_of_handler stepped handled fun inputs same => proceeds ⟨inputs, same⟩]
    exact known

private theorem IsTicking.realInterval_eq (ticking : IsTicking start realInterval observed)
    {asm : ActionStateMachine} {interval : Rat}
    (found : observed.adapter.nextMachine = some (asm, interval)) : interval = realInterval := by
  obtain ⟨⟨phase, _⟩, known, found⟩ := Option.bind_eq_some_iff.mp found
  have same := ticking.interval _ known
  cases phase with
  | traverse | charge => cases found
  | machines index =>
      simp only [Option.map_eq_some_iff, Prod.mk.injEq] at found
      obtain ⟨_, -, -, rfl⟩ := found
      exact same

theorem IsTicking.step (ticking : IsTicking start realInterval observed)
    (stepped : observed.step math options event = some after)
    (handled : ∀ interval, event ≠ .onTick interval) : IsTicking start realInterval after := by
  obtain ⟨adapter, moved, rfl⟩ := Option.map_eq_some_iff.mp stepped
  refine
    { numbered := ticking.numbered.of_step moved
      nextRef := ticking.nextRef.trans (nextRef_le ticking.numbered moved)
      interval := realInterval_of_step moved handled ticking.interval
      ticked := ?_ }
  · cases event with
    | proceed inputs =>
        intro entry member
        rcases List.mem_append.mp member with earlier | now
        · exact ticking.ticked entry earlier
        · rw [Option.mem_toList, Option.map_eq_some_iff] at now
          obtain ⟨⟨asm, interval⟩, found, rfl⟩ := now
          exact ticking.realInterval_eq found
    | _ => exact ticking.ticked

/-- A step of a tick visits the next machine, or leaves what is ahead, save that
machines are appended that came later. -/
private theorem pass_step (ticking : IsTicking start realInterval observed)
    (numbered : Numbered start) (stepped : observed.step math options event = some after)
    (handled : ∀ interval, event ≠ .onTick interval) :
    (∃ inputs asm interval, event = .proceed inputs ∧
      observed.adapter.nextMachine = some (asm, interval) ∧
      observed.pass.ahead = asm.ref ::
        (observed.adapter.passedOver math inputs asm interval ++ after.pass.ahead) ∧
      after.pass.visited = observed.pass.visited ++ [asm.ref]) ∨
    KeepsCourse math start observed event ∧ after.pass.visited = observed.pass.visited ∧
      ∃ added, after.pass.ahead = observed.pass.ahead ++ added ∧
        ∀ ref ∈ added, ref ∉ start.machineRefs := by
  obtain ⟨adapter, moved, rfl⟩ := Option.map_eq_some_iff.mp stepped
  by_cases proceeds : ∃ inputs, event = .proceed inputs
  · obtain ⟨inputs, rfl⟩ := proceeds
    cases found : observed.adapter.nextMachine with
    | none =>
        obtain ⟨before, behind⟩ := machinesAhead_pass found moved
        refine .inr ⟨?_, ?_, [], ?_, nofun⟩
        · intro next member
          rw [found] at member
          cases member
        · simp [ObservedTick.pass]
        · simp [ObservedTick.pass, before, behind]
    | some following =>
        obtain ⟨asm, interval⟩ := following
        refine .inl ⟨inputs, asm, interval, rfl, rfl, ?_, ?_⟩
        · exact machinesAhead_proceed ticking.numbered found moved
        · simp [ObservedTick.pass]
  · have other (inputs : TickInputs) : event ≠ .proceed inputs :=
      fun same => proceeds ⟨inputs, same⟩
    obtain ⟨added, ahead, fresh⟩ := machinesAhead_handler ticking.numbered moved handled other
    refine .inr ⟨?_, ?_, added, ahead, fun ref member known => ?_⟩
    · cases event with
      | proceed inputs => exact absurd rfl (other inputs)
      | _ => trivial
    · cases event with
      | proceed inputs => exact absurd rfl (other inputs)
      | _ => rfl
    · rw [machineRefs_eq] at known
      obtain ⟨active, member', same⟩ := List.mem_map.mp known
      have below := numbered.below active member'
      have later := ticking.nextRef
      have new := fresh ref member
      omega

/-! ## Runs of a tick -/

section
variable {condition : ObservedTick → AdapterEvent → Prop} {events : List AdapterEvent}

private theorem isTicking_of_run (numbered : Numbered start)
    (run : TickRun math options start realInterval condition events observed) :
    IsTicking start realInterval observed :=
  run.invariant (IsTicking start realInterval) (isTicking_onTick numbered realInterval)
    fun _ ticking permitted stepped => ticking.step stepped (AdapterEvent.ne_onTick permitted.1)

/-- The pass made by a step that visits a machine. -/
private theorem pass_visit {passed : List Nat} {ref : Nat}
    (ahead : observed.pass.ahead = ref :: (passed ++ after.pass.ahead))
    (visited : after.pass.visited = observed.pass.visited ++ [ref]) :
    observed.pass =
        { visited := observed.pass.visited, ahead := ref :: (passed ++ after.pass.ahead) } ∧
      after.pass = { visited := observed.pass.visited ++ [ref], ahead := after.pass.ahead } :=
  ⟨by rw [← ahead], by rw [← visited]⟩

/-- The pass made by a step that appends machines. -/
private theorem pass_append {added : List Nat}
    (visited : after.pass.visited = observed.pass.visited)
    (ahead : after.pass.ahead = observed.pass.ahead ++ added) :
    after.pass = { visited := observed.pass.visited, ahead := observed.pass.ahead ++ added } := by
  rw [← visited, ← ahead]

/-- The machines of the beginning are visited as long as the course is kept. -/
private theorem onCourse_of_run (numbered : Numbered start)
    (run : TickRun math options start realInterval (KeepsCourse math start) events observed) :
    Pass.OnCourse start.machineRefs observed.pass := by
  induction run with
  | start => exact Pass.OnCourse.start _
  | advance run permitted stepped onCourse =>
      have ticking := isTicking_of_run numbered run
      rcases pass_step ticking numbered stepped (AdapterEvent.ne_onTick permitted.1) with
        ⟨inputs, asm, interval, rfl, found, ahead, visited⟩ | ⟨-, visited, added, ahead, later⟩
      · obtain ⟨before, result⟩ := pass_visit ahead visited
        rw [before] at onCourse
        rw [result]
        exact onCourse.visit (permitted.2 _ found)
      · rw [pass_append visited ahead]
        exact onCourse.append later

/-- A tick that does not keep the course gets off course for good. -/
private theorem offCourse_of_run (numbered : Numbered start)
    (run : TickRun math options start realInterval (fun _ _ => True) events observed) :
    TickRun math options start realInterval (KeepsCourse math start) events observed ∨
      Pass.OffCourse start.machineRefs observed.pass := by
  have unique : start.machineRefs.Nodup := by
    rw [machineRefs_eq]
    exact numbered.unique
  induction run with
  | start => exact .inl .start
  | @advance events observed after event run permitted stepped ih =>
      have ticking := isTicking_of_run numbered run
      rcases pass_step ticking numbered stepped (AdapterEvent.ne_onTick permitted.1) with
        ⟨inputs, asm, interval, rfl, found, ahead, visited⟩ | ⟨keeps, visited, added, ahead, later⟩
      · obtain ⟨before, result⟩ := pass_visit ahead visited
        rcases ih with kept | offCourse
        · by_cases keeps : KeepsCourse math start observed (.proceed inputs)
          · exact .inl (kept.advance ⟨permitted.1, keeps⟩ stepped)
          · have onCourse := onCourse_of_run numbered kept
            have distinct := nodup_machinesAhead ticking.numbered
            change observed.pass.ahead.Nodup at distinct
            rw [ahead] at distinct
            rw [before] at onCourse
            rw [result]
            refine .inr (onCourse.leave unique distinct fun proper => keeps ?_)
            intro next member
            obtain rfl := Option.some.inj (found.symm.trans member)
            exact proper
        · rw [before] at offCourse
          rw [result]
          exact .inr offCourse.visit
      · rcases ih with kept | offCourse
        · exact .inl (kept.advance ⟨permitted.1, keeps⟩ stepped)
        · rw [pass_append visited ahead]
          exact .inr (offCourse.append later)

end

/-- Nothing is ahead when the loop is over. -/
private theorem machinesAhead_of_isLoopOver (finished : adapter.isLoopOver = true) :
    adapter.machinesAhead = [] := by
  unfold isLoopOver at finished
  unfold machinesAhead
  split
  · next same =>
    rw [same] at finished
    cases finished
  · rfl

/-- As all intervals are the same, it matters which machines are ticked only. -/
private theorem IsTicking.ticksEachOnce_iff (ticking : IsTicking start realInterval observed) :
    TicksEachOnce start realInterval observed.ticked ↔
      observed.pass.visited.Perm start.machineRefs := by
  have ticked : observed.ticked = observed.pass.visited.map (·, realInterval) := by
    simp only [ObservedTick.pass, List.map_map]
    refine (List.map_id'' (fun _ => rfl) _).symm.trans (List.map_congr_left fun entry member => ?_)
    exact Prod.ext rfl (ticking.ticked entry member)
  have machines : (start.actionStateMachines.map fun asm => (asm.ref, realInterval)) =
      start.machineRefs.map (·, realInterval) := by
    simp only [machineRefs, List.map_map]
    rfl
  rw [TicksEachOnce, machines]
  constructor
  · intro perm
    have refs := perm.map (·.1)
    rw [List.map_map] at refs
    simpa [ObservedTick.pass, Function.comp_def] using refs
  · intro perm
    rw [ticked]
    exact perm.map _

/-- From every state reached by the adapter, a tick advances each of the active machines
once, and no other one, if and only if each of its steps keeps the course. -/
theorem ticksEachOnce_iff_keepsCourse {past events : List AdapterEvent}
    (reached : AdapterRun math options (fun _ _ => True) past start)
    (run : TickRun math options start realInterval (fun _ _ => True) events observed)
    (finished : observed.adapter.isLoopOver = true) :
    TicksEachOnce start realInterval observed.ticked ↔
      TickRun math options start realInterval (KeepsCourse math start) events observed := by
  have numbered := numbered_of_run reached
  rw [(isTicking_of_run numbered run).ticksEachOnce_iff]
  constructor
  · intro perm
    rcases offCourse_of_run numbered run with kept | offCourse
    · exact kept
    · exact absurd perm offCourse.not_perm
  · intro kept
    have onCourse := onCourse_of_run numbered kept
    have done : observed.pass =
        { visited := observed.pass.visited, ahead := [] } := by
      rw [← machinesAhead_of_isLoopOver finished]
      rfl
    rw [done] at onCourse
    rw [onCourse.visited_eq]

/-! ## Two machines -/

/-- Executing events by the step function yields the part of a run in a tick. -/
theorem TickRun.exists_of_execute (math : MathLibrary) (options : VirtualAgvAdapterOptions)
    (start : VirtualAgvAdapter) (realInterval : Rat) (events : List AdapterEvent)
    (check : ObservedTick → Bool)
    (passed : (Library.execute (ObservedTick.step math options)
      (fun _ event => event.isOnTick = false ∧ True)
      { adapter := start.onTick realInterval } events).any check = true) :
    ∃ observed, TickRun math options start realInterval (fun _ _ => True) events observed ∧
      check observed = true :=
  Library.exists_run_of_execute passed

/-- Pausing the vehicle ends at once. -/
def startPauseContext : ActionContext where
  action :=
    { actionId := "pause"
      actionType := "startPause"
      blockingType := .none }
  scope := .instant

/-- The loop over two machines, of which the last one ends. -/
def loopEvents : List AdapterEvent := List.replicate 3 (.proceed {})

theorem keepsCourse_before_startPause :
    ∃ start observed,
      AdapterRun axisMath {} (fun _ _ => True)
        [.executeAction stoppingNoop, .executeAction startPauseContext] start ∧
      TickRun axisMath {} start 1 (KeepsCourse axisMath start) loopEvents observed ∧
      TicksEachOnce start 1 observed.ticked ∧
      start.machineRefs = [0, 1] ∧ observed.adapter.machineRefs = [0] := by
  obtain ⟨start, reached, passed⟩ := AdapterRun.exists_of_execute axisMath {} (fun _ _ => True)
    [.executeAction stoppingNoop, .executeAction startPauseContext]
    (fun start => (Library.execute (ObservedTick.step axisMath {})
      (fun _ event => event.isOnTick = false ∧ True)
      { adapter := start.onTick 1 } loopEvents).any fun (observed : ObservedTick) =>
        observed.adapter.isLoopOver &&
          decide (observed.ticked = [(0, 1), (1, 1)]) &&
          decide (start.machineRefs = [0, 1] ∧ observed.adapter.machineRefs = [0])) (by decide)
  obtain ⟨observed, run, passed⟩ := TickRun.exists_of_execute axisMath {} start 1 loopEvents _ passed
  simp only [Bool.and_eq_true, decide_eq_true_eq] at passed
  obtain ⟨⟨finished, ticked⟩, refs, left⟩ := passed
  have once : TicksEachOnce start 1 observed.ticked := by
    have machines : (start.actionStateMachines.map fun asm => (asm.ref, (1 : Rat))) =
        start.machineRefs.map (·, 1) := by
      simp [machineRefs]
    rw [TicksEachOnce, machines, refs, ticked]
    exact .refl _
  exact ⟨start, observed, reached, (ticksEachOnce_iff_keepsCourse reached run finished).mp once,
    once, refs, left⟩

/-- The machine behind one that ends is not ticked. -/
theorem not_ticksEachOnce_behind_startPause :
    ¬ ∀ (math : MathLibrary) (options : VirtualAgvAdapterOptions) (past : List AdapterEvent)
        (start : VirtualAgvAdapter), AdapterRun math options (fun _ _ => True) past start →
      ∀ (realInterval : Rat) (events : List AdapterEvent) (observed : ObservedTick),
        TickRun math options start realInterval (fun _ _ => True) events observed →
        observed.adapter.isLoopOver = true →
          TicksEachOnce start realInterval observed.ticked := by
  intro always
  obtain ⟨start, reached, passed⟩ := AdapterRun.exists_of_execute axisMath {} (fun _ _ => True)
    [.executeAction startPauseContext, .executeAction stoppingNoop]
    (fun start => (Library.execute (ObservedTick.step axisMath {})
      (fun _ event => event.isOnTick = false ∧ True)
      { adapter := start.onTick 1 } (List.replicate 2 (.proceed {}))).any fun (observed : ObservedTick) =>
        observed.adapter.isLoopOver && decide (observed.ticked = [(0, 1)]) &&
          decide (start.machineRefs = [0, 1])) (by decide)
  obtain ⟨observed, run, passed⟩ := TickRun.exists_of_execute axisMath {} start 1 _ _ passed
  simp only [Bool.and_eq_true, decide_eq_true_eq] at passed
  obtain ⟨⟨finished, ticked⟩, refs⟩ := passed
  have perm := always axisMath {} _ start reached 1 _ observed run finished
  have short := perm.length_eq
  have machines := congrArg List.length refs
  simp only [machineRefs, List.length_map] at machines
  rw [ticked, List.length_map, machines] at short
  cases short

end VirtualAgvAdapter

end Vda5050
