import Mathlib.Data.List.Basic

/-!
# Paths and their base

A path is an alternating sequence of nodes and edges, kept as two lists. A
list whose elements are released one after the other is split into its base,
which is released, and its horizon, which is not.
-/

set_option autoImplicit false

namespace Library

/-! ## Base and horizon -/

section BaseFirst

variable {Element : Type} (released : Element → Bool)

/-- The released elements of the list form a prefix of it. -/
def BaseFirst (elements : List Element) : Prop :=
  ∃ base horizon, elements = base ++ horizon ∧ (∀ element ∈ base, released element) ∧
    ∀ element ∈ horizon, released element = false

variable {released} {elements : List Element} {element : Element}

theorem BaseFirst.nil : BaseFirst released [] := ⟨[], [], rfl, by simp, by simp⟩

private theorem BaseFirst.of_horizon (unreleased : ∀ element ∈ elements, released element = false) :
    BaseFirst released elements :=
  ⟨[], elements, rfl, by simp, unreleased⟩

theorem baseFirst_cons_released (first : released element) :
    BaseFirst released (element :: elements) ↔ BaseFirst released elements := by
  constructor
  · rintro ⟨base, horizon, split, inBase, inHorizon⟩
    cases base with
    | nil =>
        rw [List.nil_append] at split
        have unreleased := inHorizon element (split ▸ List.mem_cons_self)
        simp [first] at unreleased
    | cons other base =>
        obtain ⟨rfl, rfl⟩ := List.cons.inj split
        exact ⟨base, horizon, rfl, fun other member => inBase other (List.mem_cons_of_mem _ member),
          inHorizon⟩
  · rintro ⟨base, horizon, rfl, inBase, inHorizon⟩
    exact ⟨element :: base, horizon, rfl, by simpa [first] using inBase, inHorizon⟩

theorem baseFirst_cons_horizon (first : released element = false) :
    BaseFirst released (element :: elements) ↔
      ∀ other ∈ elements, released other = false := by
  constructor
  · rintro ⟨base, horizon, split, inBase, inHorizon⟩
    cases base with
    | nil =>
        rw [List.nil_append] at split
        intro other member
        exact inHorizon other (split ▸ List.mem_cons_of_mem _ member)
    | cons other base =>
        obtain ⟨rfl, -⟩ := List.cons.inj split
        have released := inBase element List.mem_cons_self
        simp [first] at released
  · intro unreleased
    apply BaseFirst.of_horizon
    simpa [first] using unreleased

/-- The index of the first element of the horizon. -/
theorem findIdx?_base_append {base horizon : List Element}
    (inBase : ∀ element ∈ base, released element)
    (inHorizon : ∀ element ∈ horizon, released element = false) :
    (base ++ horizon).findIdx? (fun element => !released element) =
      if horizon = [] then none else some base.length := by
  induction base with
  | nil =>
      cases horizon with
      | nil => rfl
      | cons element horizon => simp [List.findIdx?_cons, inHorizon element List.mem_cons_self]
  | cons element base ih =>
      have rest := ih fun other member => inBase other (List.mem_cons_of_mem _ member)
      rw [List.cons_append, List.findIdx?_cons, if_neg (by simp [inBase element]), rest]
      split <;> simp

theorem baseFirst_append_released {base : List Element}
    (inBase : ∀ element ∈ base, released element) :
    BaseFirst released (base ++ elements) ↔ BaseFirst released elements := by
  induction base with
  | nil => rfl
  | cons element base ih =>
      rw [List.cons_append, baseFirst_cons_released (inBase element List.mem_cons_self)]
      exact ih fun other member => inBase other (List.mem_cons_of_mem _ member)

theorem baseFirst_map {Other : Type} {change : Other → Element} {others : List Other} :
    BaseFirst released (others.map change) ↔
      BaseFirst (fun other => released (change other)) others := by
  constructor
  · rintro ⟨base, horizon, split, inBase, inHorizon⟩
    obtain ⟨front, back, rfl, rfl, rfl⟩ := List.map_eq_append_iff.mp split
    exact ⟨front, back, rfl, fun other member => inBase _ (List.mem_map_of_mem member),
      fun other member => inHorizon _ (List.mem_map_of_mem member)⟩
  · rintro ⟨base, horizon, rfl, inBase, inHorizon⟩
    refine ⟨base.map change, horizon.map change, List.map_append, ?_, ?_⟩
    · simpa using inBase
    · simpa using inHorizon

/-- Where the horizon starts determines the flags of a list of known length. -/
theorem BaseFirst.ext {flags others : List Bool} (first : BaseFirst id flags)
    (second : BaseFirst id others) (lengths : flags.length = others.length)
    (start : flags.findIdx? (!·) = others.findIdx? (!·)) : flags = others := by
  induction flags generalizing others with
  | nil => exact (List.length_eq_zero_iff.mp lengths.symm).symm
  | cons flag flags ih =>
      cases others with
      | nil => cases lengths
      | cons other others =>
          have shorter : flags.length = others.length := by simpa using lengths
          cases flag with
          | true =>
              cases other with
              | true =>
                  rw [baseFirst_cons_released rfl] at first second
                  have later : flags.findIdx? (!·) = others.findIdx? (!·) :=
                    Option.map_injective (fun _ _ => Nat.succ.inj)
                      (by simpa [List.findIdx?_cons] using start)
                  rw [ih first second shorter later]
              | false => simp [List.findIdx?_cons] at start
          | false =>
              cases other with
              | true =>
                  have start := start.symm
                  simp [List.findIdx?_cons] at start
              | false =>
                  rw [baseFirst_cons_horizon rfl] at first second
                  rw [List.eq_replicate_of_mem first, List.eq_replicate_of_mem second, shorter]

end BaseFirst

/-! ## Paths -/

section Joined

variable {Edge Node : Type} (joins : Edge → Node → Node → Prop)

/-- Each edge joins the node in front of it with the one behind it. -/
def Joined (edges : List Edge) (nodes : List Node) : Prop :=
  ∀ (i : Nat) (edge : Edge) (node next : Node), edges[i]? = some edge → nodes[i]? = some node →
    nodes[i + 1]? = some next → joins edge node next

variable {joins} {edges : List Edge} {nodes : List Node}

@[simp] theorem joined_nil : Joined joins [] nodes := by
  intro i edge node next found
  cases found

theorem joined_cons {edge : Edge} {node next : Node} :
    Joined joins (edge :: edges) (node :: next :: nodes) ↔
      joins edge node next ∧ Joined joins edges (next :: nodes) := by
  constructor
  · intro joined
    exact ⟨joined 0 edge node next rfl rfl rfl, fun i => joined (i + 1)⟩
  · rintro ⟨first, rest⟩ i
    cases i with
    | zero =>
        rintro _ _ _ ⟨⟩ ⟨⟩ ⟨⟩
        exact first
    | succ i => exact rest i

theorem Joined.imp {weaker : Edge → Node → Node → Prop}
    (weakens : ∀ edge node next, joins edge node next → weaker edge node next)
    (joined : Joined joins edges nodes) : Joined weaker edges nodes :=
  fun i edge node next atEdge atNode atNext =>
    weakens _ _ _ (joined i edge node next atEdge atNode atNext)

/-- A path of one edge or more has a second node. -/
theorem nodes_of_edges {edge : Edge} (lengths : (edge :: edges).length + 1 = nodes.length) :
    ∃ node next rest, nodes = node :: next :: rest ∧ edges.length + 1 = (next :: rest).length := by
  cases nodes with
  | nil => cases lengths
  | cons node nodes =>
      cases nodes with
      | nil => simp at lengths
      | cons next rest => exact ⟨node, next, rest, rfl, by simpa using lengths⟩

/-- A path is split at a node that belongs to both parts. -/
theorem joined_split {front others : List Edge} {before : List Node} {node : Node}
    (lengths : front.length = before.length) :
    Joined joins (front ++ others) (before ++ node :: nodes) ↔
      Joined joins front (before ++ [node]) ∧ Joined joins others (node :: nodes) := by
  induction front generalizing before with
  | nil =>
      obtain rfl := List.length_eq_zero_iff.mp lengths.symm
      simp
  | cons edge front ih =>
      cases before with
      | nil => cases lengths
      | cons first before =>
          have shorter : front.length = before.length := by simpa using lengths
          cases before with
          | nil =>
              obtain rfl := List.length_eq_zero_iff.mp shorter
              simp only [List.cons_append, List.nil_append, joined_cons, joined_nil, and_true]
          | cons second before =>
              have rest := ih shorter
              simp only [List.cons_append] at rest ⊢
              rw [joined_cons, joined_cons, rest, and_assoc]

/-- Whether a path is joined depends on what the relation looks at. -/
theorem Joined.congr {Key : Type} {key : Node → Key} {others : List Node}
    (respects : ∀ edge node next node' next', key node = key node' → key next = key next' →
      joins edge node next → joins edge node' next')
    (same : nodes.map key = others.map key) (joined : Joined joins edges nodes) :
    Joined joins edges others := by
  have found : ∀ (i : Nat) (other : Node), others[i]? = some other →
      ∃ node, nodes[i]? = some node ∧ key node = key other := by
    intro i other atOther
    have atKey : (nodes.map key)[i]? = some (key other) := by
      rw [same, List.getElem?_map, atOther]
      rfl
    rw [List.getElem?_map] at atKey
    exact Option.map_eq_some_iff.mp atKey
  intro i edge node' next' atEdge atNode atNext
  obtain ⟨node, held, sameNode⟩ := found i node' atNode
  obtain ⟨next, heldNext, sameNext⟩ := found (i + 1) next' atNext
  exact respects edge node next node' next' sameNode sameNext
    (joined i edge node next atEdge held heldNext)

/-- Edges that agree with the node they lead to, compared as lists. -/
theorem joined_next_iff {Value : Type} {ofEdge : Edge → Value} {ofNode : Node → Value}
    (lengths : edges.length + 1 = nodes.length) :
    Joined (fun edge _ next => ofEdge edge = ofNode next) edges nodes ↔
      edges.map ofEdge = nodes.tail.map ofNode := by
  induction edges generalizing nodes with
  | nil =>
      have tail : nodes.tail = [] := by
        apply List.eq_nil_of_length_eq_zero
        rw [List.length_tail, ← lengths]
        rfl
      simp [tail]
  | cons edge edges ih =>
      obtain ⟨node, next, rest, rfl, shorter⟩ := nodes_of_edges lengths
      rw [joined_cons, ih shorter]
      simp

end Joined

end Library
