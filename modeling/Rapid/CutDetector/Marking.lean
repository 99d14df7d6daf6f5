import Rapid.CutDetector.ImplicitCut

/-!
# Marking — which nodes the detector can be about

Whatever alerts come in and however often implicit detection runs, the detector marks and emits
nodes only that an alert named as its destination.
-/

namespace Rapid

open Foundations

namespace MultiNodeCutDetector

variable {P : Endpoint → Prop} {cd : MultiNodeCutDetector} {out : List Endpoint} {d : Endpoint}

/-- The nodes that are marked or were emitted all satisfy `P`. -/
structure MarksOnly (P : Endpoint → Prop) (cd : MultiNodeCutDetector) (out : List Endpoint) :
    Prop where
  marked : ∀ x ∈ cd.marked, P x
  out : ∀ x ∈ out, P x

theorem MarksOnly.of_empty (hproposal : cd.proposal = ∅) (hpre : cd.preProposal = ∅) :
    MarksOnly P cd [] := by
  refine ⟨?_, fun x hx => by cases hx⟩
  intro x hx
  rw [mem_marked, hproposal, hpre] at hx
  rcases hx with hx | hx
  · exact absurd hx (Finset.notMem_empty x)
  · exact absurd hx (Finset.notMem_empty x)

/-- A new detector has seen nothing. -/
theorem marksOnly_of_new {k h l : UInt8} (hnew : MultiNodeCutDetector.new k h l = .ok cd) :
    MarksOnly P cd [] := by
  unfold MultiNodeCutDetector.new at hnew
  split at hnew
  · cases hnew
  · cases hnew
    exact .of_empty rfl rfl

/-- A report marks its destination at most. -/
theorem Reported.mem_marked {ring : UInt8} {cd' : MultiNodeCutDetector} (hr : Reported cd d ring cd')
    {x : Endpoint} (hx : x ∈ cd'.marked) : x = d ∨ x ∈ cd.marked := by
  have hlow : ∀ {flux : Finset Endpoint} {c : Prop} [Decidable c],
      flux = (if c then insert d cd.preProposal else cd.preProposal) → x ∈ flux →
        x = d ∨ x ∈ cd.preProposal := by
    intro flux c _ hflux hmem
    rw [hflux] at hmem
    split at hmem
    · exact Finset.mem_insert.1 hmem
    · exact .inr hmem
  rw [MultiNodeCutDetector.mem_marked] at hx ⊢
  rcases hr.sets with ⟨_, hpre, _, hproposal⟩ | ⟨_, _, hpre, _, hproposal⟩ |
    ⟨_, _, hpre, _, hproposal⟩
  · rw [hpre, hproposal] at hx
    exact .inr hx
  · rw [hproposal] at hx
    rcases hx with hx | hx
    · exact .inr (.inl hx)
    · exact (hlow hpre hx).imp_right .inr
  · rcases hx with hx | hx
    · rcases hproposal with hproposal | ⟨_, hproposal⟩
      · rw [hproposal] at hx
        exact (Finset.mem_insert.1 hx).imp_right .inl
      · rw [hproposal] at hx
        exact absurd hx (Finset.notMem_empty x)
    · rw [hpre] at hx
      exact (hlow rfl (Finset.mem_of_mem_erase hx)).imp_right .inr

/-- What a report makes the detector emit is its destination, or was in the proposal. -/
theorem mem_emitted (order : HashOrder EndpointKey) (src : Endpoint) (status : EdgeStatus)
    (ring : UInt8) {x : Endpoint} (hx : x ∈ (cd.aggregateOne order src d status ring).2) :
    x = d ∨ x ∈ cd.marked := by
  by_cases hmem : ring ∈ cd.reports d
  · rcases aggregateOne_of_mem order src status hmem with ⟨_, _, _, _, _, _, _, _, hcode⟩
    simp [hcode] at hx
  · rcases aggregateOne_of_new order src status hmem rfl with
      ⟨flux, hobj, _, _, _, _, _, _, hproposal, hcode⟩
    rw [hcode] at hx
    split at hx
    · split at hx
      · rw [emit_enterProposal, order.mem_list_iff, hproposal] at hx
        exact (Finset.mem_insert.1 hx).imp_right fun hold => mem_marked.2 (.inl hold)
      · cases hx
    · cases hx

/-- The step lemma: one more report of a node that satisfies `P`. -/
theorem MarksOnly.step (h : MarksOnly P cd out) (hd : P d) (order : HashOrder EndpointKey)
    (src : Endpoint) (status : EdgeStatus) (ring : UInt8) :
    MarksOnly P (cd.aggregateOne order src d status ring).1
      (out ++ (cd.aggregateOne order src d status ring).2) := by
  refine ⟨?_, ?_⟩
  · intro x hx
    rcases (cd.aggregateOne_reported order src d status ring).mem_marked hx with rfl | hold
    · exact hd
    · exact h.marked x hold
  · intro x hx
    rcases List.mem_append.1 hx with hold | hnew
    · exact h.out x hold
    · rcases mem_emitted order src status ring hnew with rfl | hmarked
      · exact hd
      · exact h.marked x hmarked

theorem MarksOnly.aggregate (h : MarksOnly P cd out) (order : HashOrder EndpointKey)
    {msg : AlertMessage} (hdst : ∀ dst, msg.edgeDst = some dst → P dst) :
    MarksOnly P (cd.aggregate order msg).1 (out ++ (cd.aggregate order msg).2) :=
  keeps_aggregate order msg out
    (fun _ _ src dst ring _ hedge _ hI => hI.step (hdst dst hedge) order src _ ring) h

/-- One node in flux: the observers that are marked report this node. -/
theorem MarksOnly.invalidateNode [Xxh64] {view : MembershipView} (h : MarksOnly P cd out) (hd : P d)
    (order : HashOrder EndpointKey) :
    MarksOnly P (invalidateNode order (cd, view, out) d).1
      (invalidateNode order (cd, view, out) d).2.2 := by
  unfold MultiNodeCutDetector.invalidateNode
  dsimp only
  refine List.foldlRecOn _ _
    (motive := fun acc : MultiNodeCutDetector × List Endpoint => MarksOnly P acc.1 acc.2) h ?_
  intro acc hacc edge _
  unfold invalidateEdge
  split
  · exact hacc.step hd order edge.1 _ edge.2.toUInt8
  · exact hacc

/-- Implicit detection visits the nodes in flux only. -/
theorem MarksOnly.invalidateFailingEdges [Xxh64] (h : MarksOnly P cd [])
    (preOrder order : HashOrder EndpointKey) (view : MembershipView) :
    MarksOnly P (cd.invalidateFailingEdges preOrder order view).1
      (cd.invalidateFailingEdges preOrder order view).2.2 := by
  unfold MultiNodeCutDetector.invalidateFailingEdges
  split
  · refine List.foldlRecOn _ _
      (motive := fun acc : MultiNodeCutDetector × MembershipView × List Endpoint =>
        MarksOnly P acc.1 acc.2.2) h ?_
    rintro ⟨cd', view', out'⟩ hacc node hnode
    rw [objects_eq, preOrder.mem_list_iff] at hnode
    exact hacc.invalidateNode (h.marked node (mem_marked.2 (.inr hnode))) order
  · exact h

end MultiNodeCutDetector

end Rapid
