import Vda5050.Library.Run
import Vda5050.VirtualAgvAdapter.Basic

/-!
# Runs of the virtual AGV adapter

A tick advances one machine, or does one of its remaining parts, at a time. In
between, the controller may invoke any handler: the adapter calls back into
the controller only at the end of such a part.
-/

set_option autoImplicit false

namespace Vda5050

namespace VirtualAgvAdapter

inductive AdapterEvent where
  | executeAction (context : ActionContext)
  | finishEdgeAction (context : ActionContext)
  | cancelAction (context : ActionContext)
  | traverseEdge (context : TraverseEdgeContext)
  | stopTraverse (context : StopTraverseContext)
  | onTick (realInterval : Rat)
  | proceed (inputs : TickInputs)
  deriving DecidableEq, Repr

variable (math : MathLibrary) (options : VirtualAgvAdapterOptions) (adapter : VirtualAgvAdapter)

/-- The interval timer fires. -/
def onTick (realInterval : Rat) : VirtualAgvAdapter :=
  { adapter with
    tick := adapter.tick + 1
    ongoingTick := some { phase := .machines 0, realInterval } }

/-- The tick proceeds with the given phase, unless a type error aborts it. -/
def continueTick (realInterval : Rat) (phase : TickPhase) (result : VirtualAgvAdapter × Bool) :
    VirtualAgvAdapter :=
  { result.1 with ongoingTick := if result.2 then some { phase, realInterval } else none }

/-- The next part of `_onTick`. The loop over the machines sees the list as it
is at the time of each iteration. -/
def proceed (inputs : TickInputs) (ongoing : OngoingTick) : VirtualAgvAdapter :=
  let realInterval := ongoing.realInterval
  match ongoing.phase with
  | .machines index =>
      match adapter.actionStateMachines[index]? with
      | none => continueTick realInterval .traverse (adapter, true)
      | some asm =>
          continueTick realInterval (.machines (index + 1))
            (adapter.tickMachine math inputs realInterval asm)
  | .traverse =>
      continueTick realInterval .charge (adapter.advanceTraverse math options inputs realInterval)
  | .charge => { adapter.advanceBatteryCharge options realInterval with ongoingTick := none }

/-- A tick begins only when the one before has ended. -/
def step (adapter : VirtualAgvAdapter) : AdapterEvent → Option VirtualAgvAdapter
  | .executeAction context => some (adapter.executeAction context)
  | .finishEdgeAction context => some (adapter.finishEdgeAction context)
  | .cancelAction context => some (adapter.cancelAction context)
  | .traverseEdge context => some (adapter.traverseEdge context)
  | .stopTraverse context => some (adapter.stopTraverse context)
  | .onTick realInterval =>
      if adapter.ongoingTick.isSome then none else some (adapter.onTick realInterval)
  | .proceed inputs => adapter.ongoingTick.map (adapter.proceed math options inputs)

/-- Runs of an adapter whose steps meet a condition on the state before. -/
abbrev AdapterRun (condition : VirtualAgvAdapter → AdapterEvent → Prop) :
    List AdapterEvent → VirtualAgvAdapter → Prop :=
  Library.Run (step math options) condition (attached options)

/-- Executing events by the step function yields a run. -/
theorem AdapterRun.exists_of_execute (math : MathLibrary) (options : VirtualAgvAdapterOptions)
    (condition : VirtualAgvAdapter → AdapterEvent → Prop)
    [∀ adapter event, Decidable (condition adapter event)] (events : List AdapterEvent)
    (check : VirtualAgvAdapter → Bool)
    (passed : (Library.execute (step math options) condition (attached options) events).any
      check = true) :
    ∃ adapter, AdapterRun math options condition events adapter ∧ check adapter = true :=
  Library.exists_run_of_execute passed

end VirtualAgvAdapter

end Vda5050
