import Vda5050.AgvController.Orders

/-!
# What acceptance of an order establishes
-/

set_option autoImplicit false

namespace Vda5050

namespace AgvController

/-! ## The base of an order -/

/-- The first node of a valid order is released. -/
theorem head_released_of_validateOrderConstraints {order : Order}
    (valid : validateOrderConstraints order = .ok ()) :
    ∃ firstNode nodes, order.nodes = firstNode :: nodes ∧ firstNode.released := by
  unfold validateOrderConstraints at valid
  cases nodes : order.nodes with
  | nil => simp [nodes] at valid
  | cons firstNode rest =>
      cases released : firstNode.released with
      | false => simp [nodes, released] at valid
      | true => exact ⟨firstNode, rest, rfl, released⟩

/-- The base end is a released node of the order. -/
theorem currentBaseEnd_spec {order : Order} {baseEnd : Node}
    (found : currentBaseEnd order = some baseEnd) :
    baseEnd ∈ order.nodes ∧ baseEnd.released := by
  unfold currentBaseEnd at found
  split at found
  · next allReleased =>
    have member := List.mem_of_getLast? found
    have released := List.findIdx?_eq_none_iff.mp allReleased baseEnd member
    exact ⟨member, by simpa using released⟩
  · cases found
  · next lastBaseIndex horizon =>
    have member := List.mem_of_getElem? found
    obtain ⟨inside, -, before⟩ := List.findIdx?_eq_some_iff_getElem.mp horizon
    obtain ⟨bound, same⟩ := List.getElem?_eq_some_iff.mp found
    have released := before lastBaseIndex (Nat.lt_succ_self _)
    rw [same] at released
    exact ⟨member, by simpa using released⟩

/-- An order that is stitched has a base end to be stitched to. -/
theorem isOrderBaseStitching_spec {agv : AgvController} {order : Order}
    (stitching : agv.isOrderBaseStitching order) :
    ∃ currentOrder baseEnd, agv.currentOrder = some currentOrder ∧
      currentBaseEnd currentOrder = some baseEnd := by
  unfold isOrderBaseStitching at stitching
  split at stitching
  · next found _ =>
    obtain ⟨currentOrder, current, found⟩ := Option.bind_eq_some_iff.mp found
    exact ⟨currentOrder, _, current, found⟩
  · cases stitching

/-! ## The decision -/

/-- What the acceptance of an order in a given mode tells about it. -/
structure Accepts (agv : AgvController) (order : Order) (mode : AcceptMode) : Prop where
  valid : validateOrderConstraints order = .ok ()
  notCanceling : agv.hasCancelingOrder = false
  inactive : mode ≠ .stitch → agv.hasActiveOrder = false
  stitches : mode = .stitch → agv.hasActiveOrder ∧ agv.isOrderBaseStitching order
  updates : mode = .update → agv.isOrderUpdateBaseStitching order ∧
    ∃ currentOrder, agv.currentOrder = some currentOrder ∧
      currentOrder.orderId = order.orderId ∧ currentOrder.orderUpdateId < order.orderUpdateId

private theorem decideStitching_accept {agv : AgvController} {order : Order} {mode : AcceptMode}
    (accepted : agv.decideStitching order = .accept mode) :
    mode = .stitch ∧ agv.isOrderBaseStitching order := by
  unfold decideStitching at accepted
  split at accepted
  · next stitching =>
    cases accepted
    exact ⟨rfl, stitching⟩
  · cases accepted

theorem decideOrder_accept {agv : AgvController} {adapter : AdapterAnswers} {order : Order}
    {mode : AcceptMode} (accepted : agv.decideOrder adapter order = .accept mode) :
    agv.Accepts order mode := by
  unfold decideOrder at accepted
  split at accepted
  · cases accepted
  · next valid =>
    split at accepted
    · cases accepted
    · next notCanceling =>
      split at accepted
      · cases accepted
      · have notCanceling : agv.hasCancelingOrder = false := by simpa using notCanceling
        unfold decideMode at accepted
        split at accepted
        · next currentOrder sameOrder =>
          obtain ⟨current, same⟩ := Option.filter_eq_some_iff.mp sameOrder
          split at accepted
          · cases accepted
          · split at accepted
            · cases accepted
            · split at accepted
              · next active =>
                obtain ⟨rfl, stitching⟩ := decideStitching_accept accepted
                exact ⟨valid, notCanceling, fun other => absurd rfl other,
                  fun _ => ⟨active, stitching⟩, nofun⟩
              · next inactive =>
                split at accepted
                · next updating =>
                  cases accepted
                  exact ⟨valid, notCanceling, fun _ => by simpa using inactive, nofun,
                    fun _ => ⟨updating, currentOrder, current, by simpa using same, by omega⟩⟩
                · cases accepted
        · split at accepted
          · next active =>
            obtain ⟨rfl, stitching⟩ := decideStitching_accept accepted
            exact ⟨valid, notCanceling, fun other => absurd rfl other,
              fun _ => ⟨active, stitching⟩, nofun⟩
          · next inactive =>
            split at accepted
            · cases accepted
            · cases accepted
              exact ⟨valid, notCanceling, fun _ => by simpa using inactive, nofun, nofun⟩

end AgvController

end Vda5050
