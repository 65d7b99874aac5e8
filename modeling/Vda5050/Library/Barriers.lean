import Mathlib.Algebra.BigOperators.Group.List.Basic
import Mathlib.Algebra.Order.Group.Defs
import Mathlib.Algebra.Order.Monoid.Unbundled.MinMax
import Mathlib.Tactic.Abel

/-!
# Costs between barriers

A list of items is divided into stretches by the barriers in it. The items of a
stretch are worked on at the same time and cost as much as the most expensive
one, the barriers are worked on one by one. A running maximum that is added up
at every barrier yields the cost up to the last barrier.
-/

set_option autoImplicit false

namespace Library

variable {Item Value : Type} [AddCommGroup Value] [LinearOrder Value]

/-- The cost added up so far, and the maximum since the last barrier. -/
structure RunningCost (Value : Type) where
  total : Value
  peak : Value
  deriving DecidableEq, Repr

variable (isBarrier : Item → Bool) (cost : Item → Value)

/-- Take the next item into account. -/
def RunningCost.add (state : RunningCost Value) (item : Item) : RunningCost Value :=
  if isBarrier item then { total := state.total + state.peak + cost item, peak := 0 }
  else { state with peak := max state.peak (cost item) }

/-- The running maximum of a stretch. -/
def peakFrom (start : Value) (stretch : List Item) : Value :=
  stretch.foldl (fun peak item => max peak (cost item)) start

/-- The cost of the most expensive item, 0 if there is none. -/
def maxCost (stretch : List Item) : Value := ((stretch.map cost).max?).getD 0

/-- What the most expensive item lacks to be worth 0. -/
def deficit (stretch : List Item) : Value := max 0 (-maxCost cost stretch)

/-- The stretches in front of a barrier. -/
def frontStretches (items : List Item) : List (List Item) := (items.splitOnP isBarrier).dropLast

/-- The stretch behind the last barrier. -/
def lastStretch (items : List Item) : List Item := ((items.splitOnP isBarrier).getLast?).getD []

/-- A maximum that starts at 0 differs from that of a stretch with negative costs only. -/
private theorem peakFrom_zero [IsOrderedAddMonoid Value] (stretch : List Item) :
    peakFrom cost 0 stretch = maxCost cost stretch + deficit cost stretch := by
  have joined : peakFrom cost 0 stretch = max 0 (maxCost cost stretch) := by
    cases stretch with
    | nil => simp [peakFrom, maxCost]
    | cons first rest =>
        unfold peakFrom maxCost
        rw [← List.foldl_map, List.map_cons, List.max?_cons', Option.getD_some, List.foldl_cons,
          List.foldl_assoc]
  rw [joined, deficit, ← max_add_add_left, add_zero, add_neg_cancel, max_comm]

/-- The maxima added up at the barriers, the first one from a given start. -/
def frontPeaks (start : Value) : List (List Item) → Value
  | [] | [_] => 0
  | stretch :: next :: rest => peakFrom cost start stretch + frontPeaks 0 (next :: rest)

private theorem frontPeaks_zero (stretches : List (List Item)) :
    frontPeaks cost 0 stretches = (stretches.dropLast.map (peakFrom cost 0)).sum := by
  induction stretches with
  | nil => rfl
  | cons stretch stretches ih =>
      cases stretches with
      | nil => rfl
      | cons next rest =>
          rw [frontPeaks, ih, List.dropLast_cons_cons, List.map_cons, List.sum_cons]

/-- The total after all items, from any running maximum. -/
private theorem total_foldl_add (items : List Item) (state : RunningCost Value) :
    (items.foldl (RunningCost.add isBarrier cost) state).total =
      state.total + ((items.filter isBarrier).map cost).sum +
        frontPeaks cost state.peak (items.splitOnP isBarrier) := by
  induction items generalizing state with
  | nil => simp [frontPeaks]
  | cons item items ih =>
      rw [List.foldl_cons, ih, List.splitOnP_cons_eq_if_modifyHead]
      unfold RunningCost.add
      obtain ⟨stretch, rest, split⟩ :=
        List.exists_cons_of_ne_nil (List.splitOnP_ne_nil isBarrier items)
      split
      · next barrier =>
        rw [List.filter_cons_of_pos barrier, List.map_cons, List.sum_cons, split, frontPeaks]
        simp only [peakFrom, List.foldl_nil]
        abel
      · next free =>
        rw [List.filter_cons_of_neg (by simpa using free), split, List.modifyHead_cons]
        cases rest with
        | nil => rfl
        | cons next rest => rfl

/-- The total is made up of the barriers and of the stretches in front of them. -/
theorem total_eq [IsOrderedAddMonoid Value] (items : List Item) (start : Value) :
    (items.foldl (RunningCost.add isBarrier cost) { total := start, peak := 0 }).total =
      start + (((items.filter isBarrier).map cost).sum +
        ((frontStretches isBarrier items).map (maxCost cost)).sum +
        ((frontStretches isBarrier items).map (deficit cost)).sum) := by
  rw [total_foldl_add, frontPeaks_zero, frontStretches]
  have split : ∀ stretches : List (List Item), (stretches.map (peakFrom cost 0)).sum =
      (stretches.map (maxCost cost)).sum + (stretches.map (deficit cost)).sum := by
    intro stretches
    rw [← List.sum_map_add]
    exact congrArg List.sum (List.map_congr_left fun stretch _ => peakFrom_zero cost stretch)
  rw [split]
  abel

end Library
