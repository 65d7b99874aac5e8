import Vda5050.MasterController.Ownership

/-!
# Chains of order caches

An order is stitched onto the last active order before it, which is no longer
active afterwards. So an order whose State has been dispatched once is never
stitched again.
-/

set_option autoImplicit false

namespace Vda5050

namespace MasterController

/-- The cache is found under the ids of some order. -/
def IsActive (m : MasterController) (ref : Nat) : Prop :=
  ∃ agvId orderId orderUpdateId, m.getOrderStateCache agvId orderId orderUpdateId = some ref

/-- The caches along a chain of `lastCache` references. -/
inductive Behind (m : MasterController) : Option Nat → Nat → Prop
  | here (ref : Nat) : Behind m (some ref) ref
  | further {ref last : Nat} {cache : OrderStateCache} :
      m.orderStateCaches[ref]? = some cache → Behind m cache.lastCache last →
      Behind m (some ref) last

/-- No order assigned before is active. -/
def Settled (m : MasterController) (ref : Nat) : Prop :=
  ∀ cache, m.orderStateCaches[ref]? = some cache →
    ∀ last, Behind m cache.lastCache last → ¬ m.IsActive last

/-- References are only removed, and caches do not become active again. -/
structure Recedes (m next : MasterController) : Prop where
  length : m.orderStateCaches.length ≤ next.orderStateCaches.length
  pointers : ∀ (ref last : Nat) (cache' : OrderStateCache), ref < m.orderStateCaches.length →
    next.orderStateCaches[ref]? = some cache' → cache'.lastCache = some last →
    ∃ cache, m.orderStateCaches[ref]? = some cache ∧ cache.lastCache = some last
  active : ∀ ref, ref < m.orderStateCaches.length → next.IsActive ref → m.IsActive ref

variable {m next : MasterController}

theorem Recedes.of_moves {agvId : AgvId} {assigned : AgvId → String → Nat → Prop}
    (moved : LocalTo agvId m next) (caches : CachesMove assigned m next) : Recedes m next where
  length := caches.length
  pointers := by
    intro ref last cache' _ known points
    obtain ⟨cache, present, -, pointed⟩ := moved.lastCache ref last cache' known points
    exact ⟨cache, present, pointed⟩
  active := by
    rintro ref bound ⟨agvId, orderId, orderUpdateId, found⟩
    cases caches.found agvId orderId orderUpdateId ref found with
    | inl old => exact ⟨agvId, orderId, orderUpdateId, old⟩
    | inr new => exact absurd bound (Nat.not_lt.mpr new.1)

/-- A chain that starts at an old cache has been there before. -/
theorem Behind.back (books : CacheBooks m) (recedes : Recedes m next) {start : Option Nat}
    {last : Nat} (behind : Behind next start last)
    (bound : ∀ ref, start = some ref → ref < m.orderStateCaches.length) :
    Behind m start last ∧ last < m.orderStateCaches.length := by
  induction behind with
  | here ref => exact ⟨.here ref, bound ref rfl⟩
  | @further ref last cache' known behind ih =>
      cases points : cache'.lastCache with
      | none =>
          rw [points] at behind
          cases behind
      | some middle =>
          obtain ⟨cache, present, pointed⟩ :=
            recedes.pointers ref middle cache' (bound ref rfl) known points
          have older := books.older ref cache middle present pointed
          have rest := ih fun other same => by
            rw [points, Option.some.injEq] at same
            subst same
            exact older.trans (bound ref rfl)
          refine ⟨.further present ?_, rest.2⟩
          rw [pointed, ← points]
          exact rest.1

theorem Settled.move (books : CacheBooks m) {ref : Nat} (settled : Settled m ref)
    (bound : ref < m.orderStateCaches.length) (recedes : Recedes m next) : Settled next ref := by
  intro cache' known last behind active
  cases points : cache'.lastCache with
  | none =>
      rw [points] at behind
      cases behind
  | some middle =>
      obtain ⟨cache, present, pointed⟩ := recedes.pointers ref middle cache' bound known points
      have older := books.older ref cache middle present pointed
      have back := behind.back books recedes fun other same => by
        rw [points, Option.some.injEq] at same
        subst same
        exact older.trans bound
      rw [points, ← pointed] at back
      exact settled cache present last back.1 (recedes.active last back.2 active)

/-- A settled order is not stitched. -/
theorem Settled.getLastActiveOrderStateCache {ref : Nat} {cache : OrderStateCache}
    (settled : Settled m ref) (known : m.orderStateCaches[ref]? = some cache) :
    m.getLastActiveOrderStateCache cache = none := by
  have reached : ∀ (fuel : Nat) (start : Option Nat) (last : Nat),
      m.findActiveCache cache.agvId fuel start = some last → Behind m start last := by
    intro fuel
    induction fuel with
    | zero =>
        intro start last found
        simp [findActiveCache] at found
    | succ fuel ih =>
        intro start last found
        cases start with
        | none => simp [findActiveCache] at found
        | some start =>
            unfold findActiveCache at found
            cases present : m.orderStateCaches[start]? with
            | none => simp [present] at found
            | some middle =>
                simp only [present] at found
                split at found
                · rw [← Option.some.inj found]
                  exact .here start
                · exact .further present (ih _ _ found)
  cases found : m.getLastActiveOrderStateCache cache with
  | none => rfl
  | some last =>
      obtain ⟨lastCache, present, current⟩ := findActiveCache_spec m found
      exact absurd ⟨_, _, _, current⟩ (settled cache known last (reached _ _ _ found))

private theorem findActiveCache_succ {ref : Nat} {cache : OrderStateCache}
    (known : m.orderStateCaches[ref]? = some cache) (agvId : AgvId) (fuel : Nat) :
    m.findActiveCache agvId (fuel + 1) (some ref) =
      if m.getOrderStateCache agvId cache.order.orderId cache.order.orderUpdateId = some ref then
        some ref
      else m.findActiveCache agvId fuel cache.lastCache := by
  rw [findActiveCache]
  simp only [known]

/-- If the cache found along a chain is forgotten, no active one is left. -/
private theorem findActiveCache_settles (books : CacheBooks m) (owned : Owned m) {agvId : AgvId}
    (recedes : Recedes m next) {fuel : Nat} {start : Option Nat}
    (bound : ∀ ref, start = some ref → ref < fuel)
    (owner : ∀ ref, start = some ref → m.agvIds[ref]? = some agvId)
    (forgotten : ∀ lastRef, m.findActiveCache agvId fuel start = some lastRef →
      ¬ next.IsActive lastRef ∧ ∀ cache, next.orderStateCaches[lastRef]? = some cache →
        cache.lastCache = none)
    {last : Nat} (behind : Behind next start last) : ¬ next.IsActive last := by
  have here : ∀ {ref : Nat}, m.agvIds[ref]? = some agvId →
      ∃ cache, m.orderStateCaches[ref]? = some cache ∧ cache.agvId = agvId := by
    intro ref owner
    rw [agvIds_getElem?] at owner
    exact Option.map_eq_some_iff.mp owner
  induction behind generalizing fuel with
  | here ref =>
      intro active
      obtain ⟨cache, known, sameAgv⟩ := here (owner ref rfl)
      obtain ⟨less, rfl⟩ := Nat.exists_eq_succ_of_ne_zero (Nat.ne_zero_of_lt (bound ref rfl))
      obtain ⟨other, orderId, orderUpdateId, found⟩ :=
        recedes.active ref (List.getElem?_eq_some_iff.mp known).1 active
      obtain ⟨keyed, present, rfl, rfl, rfl⟩ := books.keyed _ _ _ _ found
      obtain rfl := Option.some.inj (known.symm.trans present)
      rw [sameAgv] at found
      refine (forgotten ref ?_).1 active
      rw [findActiveCache_succ known, if_pos found]
  | @further ref last cache' known' behind ih =>
      obtain ⟨cache, known, sameAgv⟩ := here (owner ref rfl)
      obtain ⟨less, rfl⟩ := Nat.exists_eq_succ_of_ne_zero (Nat.ne_zero_of_lt (bound ref rfl))
      cases points : cache'.lastCache with
      | none =>
          rw [points] at behind
          cases behind
      | some middle =>
          obtain ⟨old, present, pointed⟩ :=
            recedes.pointers ref middle cache' (List.getElem?_eq_some_iff.mp known).1 known' points
          obtain rfl := Option.some.inj (known.symm.trans present)
          have equation := findActiveCache_succ known agvId less
          split at equation
          · have cut := (forgotten ref equation).2 cache' known'
            rw [points] at cut
            cases cut
          · rw [pointed] at equation
            rw [points] at ih
            refine @ih less ?_ ?_ ?_
            · intro other same
              obtain rfl := Option.some.inj same
              have older := books.older ref cache middle known pointed
              exact older.trans_le (Nat.le_of_lt_succ (bound ref rfl))
            · intro other same
              obtain rfl := Option.some.inj same
              rw [← sameAgv]
              exact owned.lastCache known pointed
            · intro lastRef found
              exact forgotten lastRef (equation.trans found)

/-! ## Stitching -/

theorem removeOrderStateCache_inactive (books : CacheBooks m) {ref : Nat}
    {cache : OrderStateCache} (known : m.orderStateCaches[ref]? = some cache)
    (deleteLastCache : Bool) : ¬ (m.removeOrderStateCache ref deleteLastCache).IsActive ref := by
  rintro ⟨agvId, orderId, orderUpdateId, found⟩
  have kept : m.getOrderStateCache agvId orderId orderUpdateId = some ref ∧
      (agvId, orderId, orderUpdateId) ≠
        (cache.agvId, cache.order.orderId, cache.order.orderUpdateId) := by
    unfold removeOrderStateCache at found
    simp only [known, getOrderStateCache_delete] at found
    split at found
    · cases found
    · next different =>
      refine ⟨?_, different⟩
      split at found <;> exact found
  obtain ⟨keyed, present, rfl, rfl, rfl⟩ := books.keyed _ _ _ _ kept.1
  obtain rfl := Option.some.inj (known.symm.trans present)
  exact kept.2 rfl

private theorem removeOrderStateCache_cut {ref : Nat} {cache : OrderStateCache}
    (known : m.orderStateCaches[ref]? = some cache) {cache' : OrderStateCache}
    (present : (m.removeOrderStateCache ref true).orderStateCaches[ref]? = some cache') :
    cache'.lastCache = none := by
  unfold removeOrderStateCache at present
  simp only [known, if_true, deleteOrderStateCache_orderStateCaches] at present
  rw [updateCache_getElem m _ known] at present
  rw [← Option.some.inj present]

private theorem stitchOntoActiveOrder_recedes (owned : Owned m) {ref : Nat}
    {cache : OrderStateCache} {stitched : MasterController × OrderStateCache}
    (known : m.orderStateCaches[ref]? = some cache)
    (succeeded : m.stitchOntoActiveOrder ref cache = some stitched) : Recedes m stitched.1 :=
  .of_moves (stitchOntoActiveOrder_local owned known succeeded)
    (stitchOntoActiveOrder_move m (fun _ _ _ => False) known succeeded)

/-- Once stitched, an order is not stitched again. -/
theorem stitchOntoActiveOrder_settles (books : CacheBooks m) (owned : Owned m) {ref : Nat}
    {cache : OrderStateCache} {stitched : MasterController × OrderStateCache}
    (known : m.orderStateCaches[ref]? = some cache)
    (succeeded : m.stitchOntoActiveOrder ref cache = some stitched) : Settled stitched.1 ref := by
  have recedes := stitchOntoActiveOrder_recedes owned known succeeded
  have bound := (List.getElem?_eq_some_iff.mp known).1
  have forgotten : ∀ lastRef, m.getLastActiveOrderStateCache cache = some lastRef →
      ¬ stitched.1.IsActive lastRef ∧
        ∀ cache', stitched.1.orderStateCaches[lastRef]? = some cache' →
          cache'.lastCache = none := by
    intro lastRef active
    obtain ⟨lastCache, present, -⟩ := findActiveCache_spec m active
    have earlier := getLastActiveOrderStateCache_lt m books known active
    unfold stitchOntoActiveOrder at succeeded
    simp only [active, present] at succeeded
    split at succeeded
    · next firstNode baseEnd _ _ =>
      rw [← Option.some.inj succeeded]
      have kept := stitch_same cache lastCache firstNode baseEnd
      have stillBooks := (updateCache_move m (fun _ _ _ => False) known kept).books books
      have stillThere : (m.updateCache ref (cache.stitch lastCache firstNode
          baseEnd)).orderStateCaches[lastRef]? = some lastCache := by
        unfold updateCache
        rw [List.getElem?_set_ne (Nat.ne_of_gt earlier)]
        exact present
      exact ⟨removeOrderStateCache_inactive stillBooks stillThere true,
        fun cache' => removeOrderStateCache_cut stillThere⟩
    · cases succeeded
  intro cache' present last behind
  cases points : cache'.lastCache with
  | none =>
      rw [points] at behind
      cases behind
  | some middle =>
      obtain ⟨old, also, pointed⟩ := recedes.pointers ref middle cache' bound present points
      obtain rfl := Option.some.inj (known.symm.trans also)
      rw [points, ← pointed] at behind
      refine findActiveCache_settles books owned recedes ?_ ?_ forgotten behind
      · intro other points
        exact (books.older ref cache other known points).trans bound
      · exact fun other points => owned.lastCache known points

/-! ## Processed orders and combined orders -/

/-- An order stays processed, and its combined order does not change any more
once it has been stitched. -/
structure Steady (m next : MasterController) : Prop where
  recedes : Recedes m next
  processed : ∀ (ref : Nat) (cache : OrderStateCache), m.orderStateCaches[ref]? = some cache →
    cache.isOrderProcessedHandlerInvoked = true →
    ∃ cache' : OrderStateCache, next.orderStateCaches[ref]? = some cache' ∧
      cache'.isOrderProcessedHandlerInvoked = true
  combinedOrder : ∀ (ref : Nat) (cache : OrderStateCache), Settled m ref →
    m.orderStateCaches[ref]? = some cache →
    ∃ cache' : OrderStateCache, next.orderStateCaches[ref]? = some cache' ∧
      cache'.combinedOrder = cache.combinedOrder

/-- Caches whose combined order stays as it is. -/
def SameOrders (m next : MasterController) (ref : Nat) : Prop :=
  ∀ cache : OrderStateCache, m.orderStateCaches[ref]? = some cache →
    ∃ cache' : OrderStateCache, next.orderStateCaches[ref]? = some cache' ∧
      cache'.combinedOrder = cache.combinedOrder ∧
      (cache.isOrderProcessedHandlerInvoked = true → cache'.isOrderProcessedHandlerInvoked = true)

theorem SameOrders.refl (m : MasterController) (ref : Nat) : SameOrders m m ref :=
  fun cache known => ⟨cache, known, rfl, id⟩

theorem SameOrders.trans {middle : MasterController} {ref : Nat} (first : SameOrders m middle ref)
    (second : SameOrders middle next ref) : SameOrders m next ref := by
  intro cache known
  obtain ⟨cache', present, same, kept⟩ := first cache known
  obtain ⟨cache'', still, alsoSame, alsoKept⟩ := second cache' present
  exact ⟨cache'', still, alsoSame.trans same, fun processed => alsoKept (kept processed)⟩

theorem SameOrders.updateCache {ref : Nat} {cache cache' : OrderStateCache}
    (known : m.orderStateCaches[ref]? = some cache)
    (same : cache'.combinedOrder = cache.combinedOrder)
    (kept : cache.isOrderProcessedHandlerInvoked = true →
      cache'.isOrderProcessedHandlerInvoked = true) (other : Nat) :
    SameOrders m (m.updateCache ref cache') other := by
  intro otherCache present
  by_cases equal : other = ref
  · subst equal
    obtain rfl := Option.some.inj (known.symm.trans present)
    exact ⟨cache', updateCache_getElem m cache' known, same, kept⟩
  · refine ⟨otherCache, ?_, rfl, id⟩
    unfold MasterController.updateCache
    rw [List.getElem?_set_ne (Ne.symm equal)]
    exact present

theorem SameOrders.removeOrderStateCache (m : MasterController) (ref : Nat)
    (deleteLastCache : Bool) (other : Nat) :
    SameOrders m (m.removeOrderStateCache ref deleteLastCache) other := by
  unfold MasterController.removeOrderStateCache
  split
  · exact .refl m other
  · next cache known =>
    dsimp only
    intro otherCache present
    rw [deleteOrderStateCache_orderStateCaches]
    split
    · have cut : ({ cache with lastCache := none } : OrderStateCache).combinedOrder =
          cache.combinedOrder := rfl
      exact SameOrders.updateCache known cut id other otherCache present
    · exact ⟨otherCache, present, rfl, id⟩

theorem Steady.of_same (recedes : Recedes m next) (same : ∀ ref, SameOrders m next ref) :
    Steady m next where
  recedes := recedes
  processed := by
    intro ref cache known processed
    obtain ⟨cache', present, -, kept⟩ := same ref cache known
    exact ⟨cache', present, kept processed⟩
  combinedOrder := by
    intro ref cache _ known
    obtain ⟨cache', present, equal, -⟩ := same ref cache known
    exact ⟨cache', present, equal⟩

theorem Recedes.trans {middle : MasterController} (first : Recedes m middle)
    (second : Recedes middle next) : Recedes m next where
  length := first.length.trans second.length
  pointers := by
    intro ref last cache'' bound known points
    obtain ⟨cache', present, pointed⟩ :=
      second.pointers ref last cache'' (bound.trans_le first.length) known points
    exact first.pointers ref last cache' bound present pointed
  active := fun ref bound active =>
    first.active ref bound (second.active ref (bound.trans_le first.length) active)

theorem Steady.trans {middle : MasterController} (books : CacheBooks m) (first : Steady m middle)
    (second : Steady middle next) : Steady m next where
  recedes := first.recedes.trans second.recedes
  processed := by
    intro ref cache known processed
    obtain ⟨cache', present, still⟩ := first.processed ref cache known processed
    exact second.processed ref cache' present still
  combinedOrder := by
    intro ref cache settled known
    have bound := (List.getElem?_eq_some_iff.mp known).1
    obtain ⟨cache', present, same⟩ := first.combinedOrder ref cache settled known
    obtain ⟨cache'', also, equal⟩ :=
      second.combinedOrder ref cache' (settled.move books bound first.recedes) present
    exact ⟨cache'', also, equal.trans same⟩

theorem Steady.of_caches (caches : next.orderStateCaches = m.orderStateCaches)
    (orders : next.currentOrders = m.currentOrders) : Steady m next := by
  refine .of_same ⟨Nat.le_of_eq (by rw [caches]), ?_, ?_⟩ ?_
  · intro ref last cache' _ known points
    exact ⟨cache', caches ▸ known, points⟩
  · rintro ref - ⟨agvId, orderId, orderUpdateId, found⟩
    unfold getOrderStateCache at found
    rw [orders] at found
    exact ⟨agvId, orderId, orderUpdateId, found⟩
  · intro ref cache known
    exact ⟨cache, caches ▸ known, rfl, id⟩

/-- An order that has been stitched is not stitched again. -/
theorem Settled.stitchOntoActiveOrder {ref : Nat} {cache : OrderStateCache}
    (settled : Settled m ref) (known : m.orderStateCaches[ref]? = some cache) :
    m.stitchOntoActiveOrder ref cache = some (m, cache) := by
  unfold MasterController.stitchOntoActiveOrder
  rw [settled.getLastActiveOrderStateCache known]

theorem stitchOntoActiveOrder_steady (owned : Owned m) {ref : Nat} {cache : OrderStateCache}
    {stitched : MasterController × OrderStateCache}
    (known : m.orderStateCaches[ref]? = some cache)
    (succeeded : m.stitchOntoActiveOrder ref cache = some stitched) : Steady m stitched.1 := by
  have recedes := stitchOntoActiveOrder_recedes owned known succeeded
  have stays : ∀ other (otherCache : OrderStateCache), m.orderStateCaches[other]? = some otherCache →
      ∃ cache' : OrderStateCache, stitched.1.orderStateCaches[other]? = some cache' ∧
        (other ≠ ref → cache'.combinedOrder = otherCache.combinedOrder) ∧
        (otherCache.isOrderProcessedHandlerInvoked = true →
          cache'.isOrderProcessedHandlerInvoked = true) := by
    intro other otherCache present
    unfold MasterController.stitchOntoActiveOrder at succeeded
    split at succeeded
    · rw [← Option.some.inj succeeded]
      exact ⟨otherCache, present, fun _ => rfl, id⟩
    · next lastRef _ =>
      split at succeeded
      · rw [← Option.some.inj succeeded]
        exact ⟨otherCache, present, fun _ => rfl, id⟩
      · next lastCache _ =>
        split at succeeded
        · next firstNode baseEnd _ _ =>
          rw [← Option.some.inj succeeded]
          dsimp only
          have removed := SameOrders.removeOrderStateCache
            (m.updateCache ref (cache.stitch lastCache firstNode baseEnd)) lastRef true other
          by_cases equal : other = ref
          · subst equal
            obtain rfl := Option.some.inj (known.symm.trans present)
            obtain ⟨cache', there, -, kept⟩ := removed _ (updateCache_getElem m _ known)
            exact ⟨cache', there, fun different => absurd rfl different, kept⟩
          · have untouched : (m.updateCache ref
                (cache.stitch lastCache firstNode baseEnd)).orderStateCaches[other]? =
                  some otherCache := by
              unfold MasterController.updateCache
              rw [List.getElem?_set_ne (Ne.symm equal)]
              exact present
            obtain ⟨cache', there, same, kept⟩ := removed otherCache untouched
            exact ⟨cache', there, fun _ => same, kept⟩
        · cases succeeded
  refine ⟨recedes, ?_, ?_⟩
  · intro other otherCache present processed
    obtain ⟨cache', there, -, kept⟩ := stays other otherCache present
    exact ⟨cache', there, kept processed⟩
  · intro other otherCache settled present
    by_cases equal : other = ref
    · subst equal
      obtain rfl := Option.some.inj (known.symm.trans present)
      rw [settled.stitchOntoActiveOrder known, Option.some.injEq] at succeeded
      rw [← succeeded]
      exact ⟨cache, known, rfl⟩
    · obtain ⟨cache', there, same, -⟩ := stays other otherCache present
      exact ⟨cache', there, same equal⟩

theorem reportOrderProcessed_sameOrders {ref : Nat} {cache : OrderStateCache}
    (known : m.orderStateCaches[ref]? = some cache) (state : State) (other : Nat) :
    SameOrders m (m.reportOrderProcessed ref cache state) other := by
  unfold reportOrderProcessed
  dsimp only
  split
  · have same : ({ cache with isOrderProcessedHandlerInvoked := true } :
        OrderStateCache).combinedOrder = cache.combinedOrder := rfl
    have updated := SameOrders.updateCache known same (fun _ => rfl) other
    split
    · exact updated
    · exact updated.trans (SameOrders.removeOrderStateCache _ ref true other)
  · exact .refl m other

/-! ## Steps -/

theorem Recedes.refl (m : MasterController) : Recedes m m where
  length := Nat.le_refl _
  pointers := fun _ _ cache' _ known points => ⟨cache', known, points⟩
  active := fun _ _ => id

theorem continueDispatch_recedes (books : CacheBooks m) (owned : Owned m) :
    Recedes m m.continueDispatch := by
  obtain ⟨agvId, moved⟩ := continueDispatch_local books owned
  exact .of_moves moved (continueDispatch_move m (fun _ _ _ => False) books)

theorem perform_recedes (books : CacheBooks m) (owned : Owned m) (event : MasterEvent) :
    Recedes m (m.perform event) := by
  have move := perform_move m books event
  have active : ∀ ref, ref < m.orderStateCaches.length → (m.perform event).IsActive ref →
      m.IsActive ref := by
    rintro ref bound ⟨agvId, orderId, orderUpdateId, found⟩
    cases move.found agvId orderId orderUpdateId ref found with
    | inl old => exact ⟨agvId, orderId, orderUpdateId, old⟩
    | inr new => exact absurd bound (Nat.not_lt.mpr new.1)
  refine ⟨move.length, ?_, active⟩
  intro ref last cache' bound known points
  cases event with
  | assignOrder agvId order eventHandler =>
      simp only [perform, assignOrder] at known
      split at known
      · exact ⟨cache', known, points⟩
      · simp only [addOrderStateCache] at known
        rw [List.getElem?_append_left bound] at known
        exact ⟨cache', known, points⟩
  | orderPublished published succeeded =>
      simp only [perform, orderPublished] at known
      split at known
      · exact ⟨cache', known, points⟩
      · simp only [removeOrderStateCache, Bool.false_eq_true, if_false] at known
        split at known
        · exact ⟨cache', known, points⟩
        · rw [deleteOrderStateCache_orderStateCaches] at known
          exact ⟨cache', known, points⟩
  | initiateInstantActions agvId actions eventHandler =>
      simp only [perform, initiateInstantActions] at known
      split at known <;> exact ⟨cache', known, points⟩
  | instantActionsPublished pending succeeded =>
      simp only [perform, instantActionsPublished] at known
      split at known
      · exact ⟨cache', known, points⟩
      · split at known <;> exact ⟨cache', known, points⟩
  | state agvId state => exact ⟨cache', known, points⟩
  | continueDispatch =>
      exact (continueDispatch_recedes books owned).pointers ref last cache' bound known points

end MasterController

end Vda5050
