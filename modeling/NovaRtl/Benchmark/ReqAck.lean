import NovaRtl.Clocks.TwoDomains

/-!
# The request-acknowledge crossing

`benchmark/rtl/cdc/cdc_req_ack.sv`. A transfer toggles the request, which is synchronized into the
destination clock and copied to the acknowledge, which is synchronized back. The six bits on that way
change value at most once, so request and acknowledge differ exactly while a transfer is under way.
-/

namespace NovaRtl.Benchmark.ReqAck

open TwoDomains

variable {w : ℕ}

/-! ## The registers -/

/-- The registers of `source_clock`. -/
structure Source (w : ℕ) where
  sourceDataHold : BitVec w
  requestToggle : Bool
  acknowledgePipe0 : Bool
  acknowledgePipe1 : Bool

/-- The registers of `destination_clock`. -/
structure Destination (w : ℕ) where
  requestPipe0 : Bool
  requestPipe1 : Bool
  acknowledgeToggle : Bool
  destinationData : BitVec w
  destinationValid : Bool

structure SourceInput (w : ℕ) where
  sourceData : BitVec w
  sourceValid : Bool

abbrev Registers (w : ℕ) := Source w × Destination w

def sourceBusy (s : Source w) : Bool := s.requestToggle ^^ s.acknowledgePipe1

def sourceEdge (s : Source w) (d : Destination w) (input : SourceInput w) : Source w :=
  let accept := input.sourceValid && !sourceBusy s
  { sourceDataHold := if accept then input.sourceData else s.sourceDataHold
    requestToggle := if accept then !s.requestToggle else s.requestToggle
    acknowledgePipe0 := d.acknowledgeToggle
    acknowledgePipe1 := s.acknowledgePipe0 }

def destinationEdge (s : Source w) (d : Destination w) (_ : Unit) : Destination w :=
  let capture := d.requestPipe1 != d.acknowledgeToggle
  { requestPipe0 := s.requestToggle
    requestPipe1 := d.requestPipe0
    acknowledgeToggle := if capture then d.requestPipe1 else d.acknowledgeToggle
    destinationData := if capture then s.sourceDataHold else d.destinationData
    destinationValid := capture }

def cdcReqAck (w : ℕ) : Circuit (Source w) (Destination w) (SourceInput w) Unit where
  left := sourceEdge
  right := destinationEdge

def reset (w : ℕ) : Registers w :=
  (⟨0, false, false, false⟩, ⟨false, false, false, 0, false⟩)

abbrev Edge (w : ℕ) := TwoDomains.Edge (SourceInput w) Unit

/-- The transfer that is accepted at an edge. -/
def accepted (r : Registers w) (edge : Edge w) : List (BitVec w) :=
  match edge.left? with
  | some input => if input.sourceValid && !sourceBusy r.1 then [input.sourceData] else []
  | none => []

/-- What the outputs of the destination show after an edge of its clock. -/
def delivered (r : Registers w) (edge : Edge w) : List (BitVec w) :=
  match edge.right? with
  | some input =>
    let d := destinationEdge r.1 r.2 input
    if d.destinationValid then [d.destinationData] else []
  | none => []

/-! ## The bits on the way -/

/-- Along the request, its synchronizer, the acknowledge and its synchronizer the value changes at
most once. -/
def OneChange (r : Registers w) : Prop :=
  let ⟨_, q, a₀, a₁⟩ := r.1
  let ⟨q₀, q₁, a, _, _⟩ := r.2
  (q = q₀ ∨ q₀ = q₁ ∧ q₁ = a ∧ a = a₀ ∧ a₀ = a₁) ∧ (q₀ = q₁ ∨ q₁ = a ∧ a = a₀ ∧ a₀ = a₁) ∧
    (q₁ = a ∨ a = a₀ ∧ a₀ = a₁) ∧ (a = a₀ ∨ a₀ = a₁)

/-- The transfer under way. -/
def outstanding (r : Registers w) : List (BitVec w) :=
  if r.1.requestToggle = r.2.acknowledgeToggle then [] else [r.1.sourceDataHold]

theorem oneChange_reset : OneChange (reset w) := by
  simp [OneChange, reset]

theorem oneChange_step (r : Registers w) (edge : Edge w) (h : OneChange r) :
    OneChange ((cdcReqAck w).step r edge) := by
  obtain ⟨⟨hold, q, a₀, a₁⟩, q₀, q₁, a, data, valid⟩ := r
  cases edge <;>
    simp only [OneChange, Circuit.step, cdcReqAck, Edge.left?, Edge.right?, sourceEdge,
      destinationEdge, sourceBusy] at h ⊢ <;>
    grind

/-- The source is ready only when the last transfer was delivered. -/
theorem OneChange.eq_of_ready {r : Registers w} (h : OneChange r) (hready : ¬ sourceBusy r.1) :
    r.2.requestPipe0 = r.1.requestToggle ∧ r.2.requestPipe1 = r.1.requestToggle ∧
      r.2.acknowledgeToggle = r.1.requestToggle := by
  obtain ⟨⟨hold, q, a₀, a₁⟩, q₀, q₁, a, data, valid⟩ := r
  simp only [OneChange, sourceBusy] at h hready ⊢
  grind

/-- A request that is seen is the last one. -/
theorem OneChange.eq_of_capture {r : Registers w} (h : OneChange r)
    (hcapture : r.2.requestPipe1 ≠ r.2.acknowledgeToggle) :
    r.2.requestPipe1 = r.1.requestToggle := by
  obtain ⟨⟨hold, q, a₀, a₁⟩, q₀, q₁, a, data, valid⟩ := r
  simp only [OneChange] at h hcapture ⊢
  grind

/-! ## One edge -/

variable {r : Registers w}

theorem queue_step (r : Registers w) (edge : Edge w) (h : OneChange r) :
    outstanding r ++ accepted r edge =
      delivered r edge ++ outstanding ((cdcReqAck w).step r edge) := by
  have hready := h.eq_of_ready
  have hcapture := h.eq_of_capture
  obtain ⟨⟨hold, q, a₀, a₁⟩, q₀, q₁, a, data, valid⟩ := r
  cases edge <;>
    simp only [outstanding, accepted, delivered, Circuit.step, cdcReqAck, Edge.left?,
      Edge.right?, sourceEdge, destinationEdge, sourceBusy] at hready hcapture ⊢ <;>
    grind

theorem accepted_of_busy (hbusy : sourceBusy r.1) (edge : Edge w) : accepted r edge = [] := by
  cases edge <;> simp [accepted, Edge.left?, hbusy]

/-- The hold register changes only when a transfer is accepted. -/
theorem hold_step (r : Registers w) (edge : Edge w) :
    ((cdcReqAck w).step r edge).1.sourceDataHold =
      (accepted r edge).getLast?.getD r.1.sourceDataHold := by
  cases edge <;>
    simp only [accepted, Circuit.step, cdcReqAck, Edge.left?, sourceEdge, Option.getD] <;>
    grind

theorem busy_of_outstanding (h : OneChange r) (hout : outstanding r ≠ []) : sourceBusy r.1 := by
  by_contra hready
  obtain ⟨-, -, hack⟩ := h.eq_of_ready hready
  exact hout (by simp [outstanding, hack])

/-- The edges of the destination clock until the transfer under way is delivered. -/
def pending (r : Registers w) : ℕ :=
  if r.1.requestToggle = r.2.acknowledgeToggle then 0
  else if r.2.requestPipe1 = r.1.requestToggle then 1
  else if r.2.requestPipe0 = r.1.requestToggle then 2
  else 3

theorem pending_le (r : Registers w) : pending r ≤ 3 := by
  unfold pending
  split_ifs <;> omega

/-- At an edge a transfer under way is delivered or stays, closer to the destination if its clock
rises. -/
theorem pending_step (h : OneChange r) (hout : outstanding r ≠ []) (edge : Edge w) :
    delivered r edge = outstanding r ∨
      delivered r edge = [] ∧ outstanding ((cdcReqAck w).step r edge) = outstanding r ∧
        pending ((cdcReqAck w).step r edge) + (if edge.right?.isSome then 1 else 0) ≤
          pending r := by
  have hbusy := busy_of_outstanding h hout
  have hcapture := h.eq_of_capture
  obtain ⟨⟨hold, q, a₀, a₁⟩, q₀, q₁, a, data, valid⟩ := r
  cases edge <;>
    simp only [outstanding, delivered, pending, Circuit.step, cdcReqAck, Edge.left?, Edge.right?,
      sourceEdge, destinationEdge, hbusy] at hout hcapture ⊢ <;>
    grind

/-! ## A run -/

abbrev destinationEdges (edges : List (Edge w)) : ℕ :=
  edges.countP fun edge => edge.right?.isSome

theorem outstanding_delivered (h : OneChange r) (more : List (Edge w))
    (hmore : pending r ≤ destinationEdges more) :
    outstanding r <+: (cdcReqAck w).observed delivered r more := by
  induction more generalizing r with
  | nil =>
    have hnone : r.1.requestToggle = r.2.acknowledgeToggle := by
      by_contra hne
      simp only [pending, if_neg hne, destinationEdges, List.countP_nil, Nat.le_zero] at hmore
      split_ifs at hmore
    simp [outstanding, hnone]
  | cons edge more ih =>
    by_cases hout : outstanding r = []
    · simp [hout]
    · rw [Circuit.observed]
      rcases pending_step h hout edge with hnow | ⟨hnothing, hsame, hless⟩
      · exact hnow ▸ List.prefix_append _ _
      · rw [hnothing, List.nil_append, ← hsame]
        refine ih (oneChange_step r edge h) ?_
        simp only [destinationEdges, List.countP_cons] at hmore ⊢
        omega

/-- The transfers that are accepted and delivered after reset. -/
abbrev allAccepted (edges : List (Edge w)) : List (BitVec w) :=
  (cdcReqAck w).observed accepted (reset w) edges

abbrev allDelivered (edges : List (Edge w)) : List (BitVec w) :=
  (cdcReqAck w).observed delivered (reset w) edges

theorem allAccepted_append (edges more : List (Edge w)) :
    allAccepted (edges ++ more) = allAccepted edges ++
      (cdcReqAck w).observed accepted ((cdcReqAck w).run (reset w) edges) more :=
  Circuit.observed_append _ _ _

theorem allDelivered_append (edges more : List (Edge w)) :
    allDelivered (edges ++ more) = allDelivered edges ++
      (cdcReqAck w).observed delivered ((cdcReqAck w).run (reset w) edges) more :=
  Circuit.observed_append _ _ _

theorem oneChange_run (edges : List (Edge w)) : OneChange ((cdcReqAck w).run (reset w) edges) :=
  Circuit.run_keeps oneChange_step oneChange_reset edges

theorem accepted_eq (edges : List (Edge w)) :
    allAccepted edges =
      allDelivered edges ++ outstanding ((cdcReqAck w).run (reset w) edges) := by
  have hqueue := Circuit.run_conserves oneChange_step queue_step oneChange_reset edges
  rwa [show outstanding (reset w) = [] by simp [outstanding, reset], List.nil_append] at hqueue

theorem hold_eq (edges : List (Edge w)) :
    ((cdcReqAck w).run (reset w) edges).1.sourceDataHold =
      (allAccepted edges).getLast?.getD 0 := by
  induction edges using List.reverseRecOn with
  | nil => rfl
  | append_singleton edges edge ih =>
    rw [Circuit.run_append, Circuit.run_cons, Circuit.run_nil, hold_step, ih,
      allAccepted_append, Circuit.observed, Circuit.observed, List.append_nil,
      List.getLast?_append]
    cases (accepted ((cdcReqAck w).run (reset w) edges) edge).getLast? <;> rfl

/-- After any edges of the two clocks, the accepted transfers were delivered in order, each once,
but for one at most that is under way. It is delivered within three edges of the destination clock.
The source is ready only when none is under way, and from the acceptance of a transfer until then
the hold register has its data. -/
theorem handshake_delivers (w : ℕ) (edges : List (Edge w)) :
    (∃ rest : List (BitVec w), allAccepted edges = allDelivered edges ++ rest ∧
      rest.length ≤ 1 ∧ (¬ sourceBusy ((cdcReqAck w).run (reset w) edges).1 → rest = [])) ∧
    (∀ more, 3 ≤ destinationEdges more → allAccepted edges <+: allDelivered (edges ++ more)) ∧
    (∀ data ∈ (allAccepted edges).getLast?,
      ((cdcReqAck w).run (reset w) edges).1.sourceDataHold = data) ∧
    (sourceBusy ((cdcReqAck w).run (reset w) edges).1 → ∀ edge,
      allAccepted (edges ++ [edge]) = allAccepted edges ∧
        ((cdcReqAck w).run (reset w) (edges ++ [edge])).1.sourceDataHold =
          ((cdcReqAck w).run (reset w) edges).1.sourceDataHold) := by
  have h := oneChange_run edges
  refine ⟨⟨_, accepted_eq edges, ?_, ?_⟩, ?_, ?_, ?_⟩
  · unfold outstanding
    split_ifs <;> simp
  · intro hready
    by_contra hout
    exact hready (busy_of_outstanding h hout)
  · intro more hmore
    rw [accepted_eq, allDelivered_append]
    exact (List.prefix_append_right_inj _).mpr
      (outstanding_delivered h more ((pending_le _).trans hmore))
  · intro data hdata
    rw [hold_eq, Option.mem_def.mp hdata, Option.getD_some]
  · intro hbusy edge
    have hsame : allAccepted (edges ++ [edge]) = allAccepted edges := by
      simp [allAccepted_append, Circuit.observed, accepted_of_busy hbusy]
    exact ⟨hsame, by rw [hold_eq, hold_eq, hsame]⟩

end NovaRtl.Benchmark.ReqAck
