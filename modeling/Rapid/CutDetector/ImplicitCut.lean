import Rapid.CutDetector.ImplicitDetection
import Rapid.View.RingKeys
import Rapid.View.ObserverCache
import Rapid.Foundations.Drain

/-!
# ImplicitCut — what one pass of implicit detection decides

The pass changes the two sets while it walks a copy of one of them. All the same its outcome is a
function of the state on entry: a node in flux is ready if the rings on which it was reported,
together with those whose observer is itself in flux or stable, reach the high watermark, and nothing
that happens during the pass changes who is ready. So the pass is the drain of `Basin`, and the order
in which the hash set is walked does not matter.
-/

namespace Rapid

open Foundations

/-! ## Reachable detectors -/

inductive DetectorOp
  | aggregate (msg : AlertMessage) (order : HashOrder EndpointKey)
  | invalidateFailingEdges (preOrder order : HashOrder EndpointKey) (view : MembershipView)
  | clear

namespace MultiNodeCutDetector

def apply [Xxh64] (cd : MultiNodeCutDetector) : DetectorOp → MultiNodeCutDetector
  | .aggregate msg order => (cd.aggregate order msg).1
  | .invalidateFailingEdges preOrder order view => (cd.invalidateFailingEdges preOrder order view).1
  | .clear => cd.clear

end MultiNodeCutDetector

/-- A detector of any watermarks, called in any way. -/
def detectorSystem [Xxh64] : System MultiNodeCutDetector DetectorOp where
  init cd := ∃ k h l, MultiNodeCutDetector.new k h l = .ok cd
  step cd op := some (cd.apply op)

namespace MultiNodeCutDetector

variable {cd cd' : MultiNodeCutDetector} {d x : Endpoint} {ring : UInt8} {I : MultiNodeCutDetector → Prop}

/-- What `aggregate_one` keeps is an invariant. -/
theorem keeps_reachable [Xxh64]
    (hnew : ∀ k h l cd, MultiNodeCutDetector.new k h l = .ok cd → I cd) (hclear : ∀ cd, I (clear cd))
    (h : ∀ cd order src d status ring, I cd → I (aggregateOne cd order src d status ring).1)
    (hreach : detectorSystem.Reachable cd) : I cd := by
  refine hreach.invariant (fun cd hcd => ?_) (fun cd op cd' _ hcd _ hstep => ?_)
  · rcases hcd with ⟨k, high, low, hok⟩
    exact hnew k high low cd hok
  · cases hstep
    cases op with
    | clear => exact hclear cd
    | aggregate msg order =>
        exact keeps_aggregate (I := fun cd _ => I cd) order msg []
          (fun cd _ src dst ring _ _ _ hI => h cd order src dst _ ring hI) hcd
    | invalidateFailingEdges preOrder order view =>
        exact keeps_invalidateFailingEdges (I := fun cd _ => I cd) preOrder order
          (fun cd _ x status observer i _ _ hI => h cd order observer x status _ hI) hcd

/-- What is proposed has reached the high watermark. -/
def ProposalStable (cd : MultiNodeCutDetector) : Prop :=
  ∀ d ∈ cd.proposal, cd.h.toNat ≤ cd.count d

theorem Reported.proposalStable (hr : Reported cd d ring cd') (h : ProposalStable cd) :
    ProposalStable cd' := by
  have hold : ∀ x ∈ cd.proposal, cd'.h.toNat ≤ cd'.count x := by
    intro x hx
    rw [hr.h]
    by_cases hxd : x = d
    · rw [hxd, count, hr.keys]
      exact (h d (hxd ▸ hx)).trans (Finset.card_le_card (Finset.subset_insert _ _))
    · rw [hr.count_of_ne hxd]
      exact h x hx
  rcases hr.sets with ⟨_, _, _, hproposal⟩ | ⟨_, _, _, _, hproposal⟩ | ⟨hcount, hhigh, _, _, hproposal⟩
  · exact fun x hx => hold x (hproposal ▸ hx)
  · exact fun x hx => hold x (hproposal ▸ hx)
  · rcases hproposal with hproposal | ⟨_, hproposal⟩
    · intro x hx
      rcases Finset.mem_insert.1 (hproposal ▸ hx) with rfl | hx
      · rw [hr.h, hcount, hhigh]
      · exact hold x hx
    · intro x hx
      rw [hproposal] at hx
      exact absurd hx (Finset.notMem_empty x)

/-- With nothing reported, nothing is in flux and nothing is proposed. -/
theorem Fresh.steady (h : Fresh cd) : Balanced cd ∧ ProposalStable cd := by
  have hnone : ∀ cd : MultiNodeCutDetector, cd.reportsPerHost = ∅ → cd.preProposal = ∅ →
      cd.updatesInProgress = 0 → cd.proposal = ∅ → Balanced cd ∧ ProposalStable cd :=
    fun cd hreports hpre hupdates hproposal => ⟨.of_fresh hreports hpre hupdates, fun d hd =>
      absurd (hproposal ▸ hd) (Finset.notMem_empty d)⟩
  rcases h with ⟨k, high, low, hok⟩ | ⟨cd', rfl⟩
  · unfold MultiNodeCutDetector.new at hok
    split at hok
    · cases hok
    · cases hok
      exact hnone _ rfl rfl rfl rfl
  · exact hnone cd'.clear rfl rfl rfl rfl

theorem steady_of_reachable [Xxh64] (h : detectorSystem.Reachable cd) :
    Balanced cd ∧ ProposalStable cd := by
  refine keeps_reachable (I := fun cd => Balanced cd ∧ ProposalStable cd) ?_ ?_ ?_ h
  · exact fun k high low cd hok => Fresh.steady (.inl ⟨k, high, low, hok⟩)
  · exact fun cd => Fresh.steady (.inr ⟨cd, rfl⟩)
  · intro cd order src d status ring hcd
    have hr := cd.aggregateOne_reported order src d status ring
    exact ⟨hr.balanced hcd.1, hr.proposalStable hcd.2⟩

/-! ## One report about a node in flux -/

/-- The nodes in flux wait, the proposed ones have settled. -/
def basin (cd : MultiNodeCutDetector) : Basin Endpoint :=
  ⟨cd.preProposal, cd.proposal⟩

theorem basin_eq_empty_iff : cd.basin = ⟨∅, ∅⟩ ↔ cd.marked = ∅ := by
  rw [marked, Finset.union_eq_empty, basin, Basin.mk.injEq]
  exact and_comm

/-- What is emitted when `d` enters the proposal last. -/
theorem emit_enterProposal (order : HashOrder EndpointKey) (hobj : d ∈ cd.endpointObjs) :
    ((cd.enterProposal d hobj).emit order).2 = order.list (insert d cd.proposal) :=
  objects_eq (cd.enterProposal d hobj).proposal_objs

/-- Once the counter has passed the lower watermark, a report is a visit. -/
theorem aggregateOne_visit (order : HashOrder EndpointKey) (src d : Endpoint) (status : EdgeStatus)
    (ring : UInt8) (hb : Balanced cd) (hlow : cd.l.toNat ≤ cd.count d) :
    (cd.aggregateOne order src d status ring).1.basin =
        (cd.basin.visit (fun _ => cd.h.toNat ≤ (insert ring (cd.reports d).keys).card) d).1 ∧
      (cd.aggregateOne order src d status ring).2 =
        order.list (cd.basin.visit (fun _ => cd.h.toNat ≤ (insert ring (cd.reports d).keys).card) d).2 := by
  have hnothing : order.list (∅ : Finset EndpointKey) = [] := order.list_eq_nil.2 rfl
  by_cases hmem : ring ∈ cd.reports d
  · -- Nothing is counted, and who waits is not ready.
    rcases aggregateOne_of_mem order src status hmem with
      ⟨known, _, _, _, _, hpre, _, hproposal, hcode⟩
    have hidle : cd.basin.visit (fun _ => cd.h.toNat ≤ (insert ring (cd.reports d).keys).card) d =
        (cd.basin, ∅) := by
      refine if_neg fun hmoves => ?_
      rw [Finset.insert_eq_of_mem (Finmap.mem_keys.2 hmem)] at hmoves
      exact absurd hmoves.2 (Nat.not_le.2 ((hb.flux d).1 hmoves.1).2)
    rw [hcode, hidle, hnothing, basin, basin, hpre, hproposal]
    exact ⟨rfl, rfl⟩
  · rcases aggregateOne_of_new order src status hmem rfl with
      ⟨flux, hobj, _, _, _, _, hpre, hupdates, hproposal, hcode⟩
    have hcard : (insert ring (cd.reports d).keys).card = cd.count d + 1 :=
      Finset.card_insert_of_notMem (mt Finmap.mem_keys.1 hmem)
    -- The byte that the code compares is the number of rings.
    have hnum : ((cd.reports d).insert ring src).keys.card = cd.count d + 1 := by
      rw [keys_insert_ring, hcard]
    have hbound : cd.count d + 1 ≤ 256 := hcard ▸ card_le_256 _
    rw [hnum] at hpre hupdates hcode
    simp only [toUInt8_eq_watermark hbound cd.l_pos, toUInt8_eq_watermark hbound cd.h_pos]
      at hpre hupdates hcode
    -- The destination is past the low watermark, so the first branch is not taken.
    have hpast : cd.count d + 1 ≠ cd.l.toNat := by omega
    rw [if_neg hpast] at hpre hupdates
    rw [hcode, hcard]
    by_cases hhigh : cd.count d + 1 = cd.h.toNat
    · have hwaits : d ∈ cd.preProposal := (hb.flux d).2 ⟨hlow, by omega⟩
      have hready : cd.h.toNat ≤ cd.count d + 1 := Nat.le_of_eq hhigh.symm
      -- The counter is zero when nobody else waits.
      have hzero : (flux.enterProposal d hobj).updatesInProgress = 0 ↔ cd.preProposal.erase d = ∅ := by
        have hcounter : (flux.enterProposal d hobj).updatesInProgress = cd.preProposal.card - 1 := by
          rw [← hb.counter, ← hupdates]
          rfl
        rw [hcounter, ← Finset.card_eq_zero, Finset.card_erase_of_mem hwaits]
        have hpos : 0 < cd.preProposal.card := Finset.card_pos.2 ⟨d, hwaits⟩
        omega
      rw [if_pos hhigh]
      by_cases hlast : cd.preProposal.erase d = ∅
      · rw [if_pos (hzero.2 hlast)]
        have hout : ((flux.enterProposal d hobj).emit order).2 = order.list (insert d cd.proposal) := by
          rw [emit_enterProposal, hproposal]
        have hempty : ((flux.enterProposal d hobj).emit order).1.basin = ⟨∅, ∅⟩ := by
          show (⟨flux.preProposal.erase d, ∅⟩ : Basin Endpoint) = ⟨∅, ∅⟩
          rw [hpre, hlast]
        simpa [Basin.visit, basin, hwaits, hready, hlast, hout] using hempty
      · rw [if_neg fun h => hlast (hzero.1 h)]
        have hmoved : (flux.enterProposal d hobj).basin =
            ⟨cd.preProposal.erase d, insert d cd.proposal⟩ := by
          rw [← hpre, ← hproposal]
          rfl
        simpa [Basin.visit, basin, hwaits, hready, hlast, hnothing] using hmoved
    · rw [if_neg hhigh]
      -- Below the high watermark it stays, and above it waits no more.
      have hidle : cd.basin.visit (fun _ => cd.h.toNat ≤ cd.count d + 1) d = (cd.basin, ∅) := by
        refine if_neg fun hmoves => ?_
        have hfew := ((hb.flux d).1 hmoves.1).2
        have hmany := hmoves.2
        omega
      rw [hidle, hnothing, basin, basin, hpre, hproposal]
      exact ⟨rfl, rfl⟩

/-! ## The observers of one node -/

/-- The rings of the listed observers that are marked. -/
def ringsOf (marked : Finset Endpoint) (edges : List (Endpoint × Nat)) : Finset UInt8 :=
  ((edges.filter fun edge => edge.1 ∈ marked).map fun edge => edge.2.toUInt8).toFinset

theorem mem_ringsOf {marked : Finset Endpoint} {edges : List (Endpoint × Nat)} :
    ring ∈ ringsOf marked edges ↔ ∃ edge ∈ edges, edge.1 ∈ marked ∧ edge.2.toUInt8 = ring := by
  simp [ringsOf, and_assoc]

theorem ringsOf_append_of_marked {marked : Finset Endpoint} {edges : List (Endpoint × Nat)}
    {edge : Endpoint × Nat} (h : edge.1 ∈ marked) :
    ringsOf marked (edges ++ [edge]) = insert edge.2.toUInt8 (ringsOf marked edges) := by
  simp [ringsOf, List.filter_append, h, Finset.union_comm]

theorem ringsOf_append_of_unmarked {marked : Finset Endpoint} {edges : List (Endpoint × Nat)}
    {edge : Endpoint × Nat} (h : edge.1 ∉ marked) :
    ringsOf marked (edges ++ [edge]) = ringsOf marked edges := by
  simp [ringsOf, List.filter_append, h]

/-- What is said about a node: on the rings reported so far and on those of its marked observers. -/
def toldOf (cd : MultiNodeCutDetector) (d : Endpoint) (edges : List (Endpoint × Nat)) : Nat :=
  ((cd.reports d).keys ∪ ringsOf cd.marked edges).card

theorem toldOf_append_le (cd : MultiNodeCutDetector) (d : Endpoint) (edges : List (Endpoint × Nat))
    (edge : Endpoint × Nat) : cd.toldOf d edges ≤ cd.toldOf d (edges ++ [edge]) := by
  refine Finset.card_le_card (Finset.union_subset_union_right fun r hr => ?_)
  rcases mem_ringsOf.1 hr with ⟨e, he, hmarked, hring⟩
  exact mem_ringsOf.2 ⟨e, List.mem_append_left _ he, hmarked, hring⟩

theorem invalidateEdge_of_unmarked (order : HashOrder EndpointKey) (status : EdgeStatus)
    {acc : MultiNodeCutDetector × List Endpoint} {edge : Endpoint × Nat} (h : edge.1 ∉ acc.1.marked) :
    invalidateEdge order d status acc edge = acc :=
  if_neg fun hmarked => h (mem_marked.2 hmarked)

/-- With nobody marked nothing is counted. -/
theorem invalidateEdges_empty (order : HashOrder EndpointKey) (status : EdgeStatus)
    (hempty : cd.marked = ∅) (out : List Endpoint) (edges : List (Endpoint × Nat)) :
    edges.foldl (invalidateEdge order d status) (cd, out) = (cd, out) := by
  induction edges with
  | nil => rfl
  | cons edge edges ih =>
      have hfirst : invalidateEdge order d status (cd, out) edge = (cd, out) :=
        invalidateEdge_of_unmarked order status (hempty.symm ▸ Finset.notMem_empty edge.1)
      rw [List.foldl_cons, hfirst, ih]

/-- The pass over observers of `d` so far, from `cd` to `cd'`. -/
structure Told (cd : MultiNodeCutDetector) (d : Endpoint) (edges : List (Endpoint × Nat))
    (order : HashOrder EndpointKey) (out : List Endpoint) (acc : MultiNodeCutDetector × List Endpoint) :
    Prop where
  balanced : Balanced acc.1
  l : acc.1.l = cd.l
  h : acc.1.h = cd.h
  others : ∀ x, x ≠ d → acc.1.reports x = cd.reports x
  low : acc.1.l.toNat ≤ acc.1.count d
  basin : acc.1.basin = (cd.basin.visit (fun _ => cd.h.toNat ≤ cd.toldOf d edges) d).1
  out : acc.2 = out ++ order.list (cd.basin.visit (fun _ => cd.h.toNat ≤ cd.toldOf d edges) d).2
  told : acc.1.basin = ⟨∅, ∅⟩ ∨ (acc.1.reports d).keys = (cd.reports d).keys ∪ ringsOf cd.marked edges

/-- Until everything is handed out the same nodes are marked. -/
theorem Told.marked {edges : List (Endpoint × Nat)} {order : HashOrder EndpointKey}
    {out : List Endpoint} {acc : MultiNodeCutDetector × List Endpoint}
    (h : Told cd d edges order out acc) : acc.1.basin = ⟨∅, ∅⟩ ∨ acc.1.marked = cd.marked := by
  rcases Basin.visit_cases (fun _ => cd.h.toNat ≤ cd.toldOf d edges) cd.basin d with
    hnone | ⟨hsame, _⟩
  · exact .inl (h.basin.trans hnone)
  · rw [← h.basin] at hsame
    exact .inr hsame

/-- The step lemma: one more observer. -/
theorem Told.step {edges : List (Endpoint × Nat)} {order : HashOrder EndpointKey}
    {out : List Endpoint} {acc : MultiNodeCutDetector × List Endpoint}
    (h : Told cd d edges order out acc) (status : EdgeStatus) (edge : Endpoint × Nat) :
    Told cd d (edges ++ [edge]) order out (invalidateEdge order d status acc edge) := by
  have htwice := Basin.visit_visit (a := d) (fun _ => cd.h.toNat ≤ cd.toldOf d edges)
    (fun _ => cd.h.toNat ≤ cd.toldOf d (edges ++ [edge])) cd.basin
    fun hready => hready.trans (cd.toldOf_append_le d edges edge)
  rw [← h.basin] at htwice
  by_cases hempty : acc.1.basin = ⟨∅, ∅⟩
  · -- Everything was handed out: nobody is marked any more.
    have hsame : invalidateEdge order d status acc edge = acc := by
      refine invalidateEdge_of_unmarked order status ?_
      rw [basin_eq_empty_iff.1 hempty]
      exact Finset.notMem_empty _
    rw [hempty, Basin.visit_empty, Finset.union_empty] at htwice
    rw [hsame]
    refine ⟨h.balanced, h.l, h.h, h.others, h.low, ?_, ?_, .inl hempty⟩
    · exact hempty.trans htwice.1
    · rw [h.out, htwice.2]
  · have hmarked : acc.1.marked = cd.marked := h.marked.resolve_left hempty
    have hkeys := h.told.resolve_left hempty
    by_cases hedge : edge.1 ∈ cd.marked
    · have hcode : invalidateEdge order d status acc edge =
          ((acc.1.aggregateOne order edge.1 d status edge.2.toUInt8).1,
            acc.2 ++ (acc.1.aggregateOne order edge.1 d status edge.2.toUInt8).2) :=
        if_pos (mem_marked.1 (hmarked.symm ▸ hedge))
      have hrings : insert edge.2.toUInt8 (acc.1.reports d).keys =
          (cd.reports d).keys ∪ ringsOf cd.marked (edges ++ [edge]) := by
        rw [hkeys, ringsOf_append_of_marked hedge, Finset.union_insert]
      have hr := acc.1.aggregateOne_reported order edge.1 d status edge.2.toUInt8
      have hvisit := acc.1.aggregateOne_visit order edge.1 d status edge.2.toUInt8 h.balanced h.low
      rw [hrings, h.h] at hvisit
      rw [hcode]
      refine ⟨hr.balanced h.balanced, hr.l.trans h.l, hr.h.trans h.h, fun x hx => ?_, ?_, ?_, ?_, ?_⟩
      · exact (hr.others x hx).trans (h.others x hx)
      · rw [hr.l, count, hr.keys]
        exact h.low.trans (Finset.card_le_card (Finset.subset_insert _ _))
      · exact hvisit.1.trans htwice.1
      · -- Had the earlier edges handed out anything, nobody would be marked.
        have hquiet : (cd.basin.visit (fun _ => cd.h.toNat ≤ cd.toldOf d edges) d).2 = ∅ := by
          rcases Basin.visit_cases (fun _ => cd.h.toNat ≤ cd.toldOf d edges) cd.basin d with
            hnone | ⟨_, hquiet⟩
          · exact absurd (h.basin.trans hnone) hempty
          · exact hquiet
        show acc.2 ++ _ = _
        rw [h.out, hvisit.2, List.append_assoc, ← htwice.2, order.list_union (.inl hquiet)]
        rfl
      · exact .inr (hr.keys.trans hrings)
    · -- The edge does not come from a marked node and is passed over.
      have hsame : invalidateEdge order d status acc edge = acc :=
        invalidateEdge_of_unmarked order status (hmarked.symm ▸ hedge)
      have hrings : ringsOf cd.marked (edges ++ [edge]) = ringsOf cd.marked edges :=
        ringsOf_append_of_unmarked hedge
      have htold : cd.toldOf d (edges ++ [edge]) = cd.toldOf d edges := by
        rw [toldOf, hrings, toldOf]
      rw [hsame]
      refine ⟨h.balanced, h.l, h.h, h.others, h.low, ?_, ?_, .inr ?_⟩
      · simpa only [htold] using h.basin
      · simpa only [htold] using h.out
      · rw [hrings, hkeys]

/-- The pass over all observers of a node in flux is one visit. -/
theorem told_invalidateEdges (cd : MultiNodeCutDetector) (d : Endpoint)
    (order : HashOrder EndpointKey) (status : EdgeStatus) (hb : Balanced cd)
    (hlow : cd.l.toNat ≤ cd.count d) (out : List Endpoint) (edges : List (Endpoint × Nat)) :
    Told cd d edges order out (edges.foldl (invalidateEdge order d status) (cd, out)) := by
  induction edges using List.reverseRecOn with
  | nil =>
      have hkeys : (cd.reports d).keys ∪ ringsOf cd.marked [] = (cd.reports d).keys :=
        Finset.union_empty _
      have hidle : cd.basin.visit (fun _ => cd.h.toNat ≤ cd.toldOf d []) d = (cd.basin, ∅) := by
        refine if_neg fun hmoves => ?_
        rw [toldOf, hkeys] at hmoves
        exact absurd hmoves.2 (Nat.not_le.2 ((hb.flux d).1 hmoves.1).2)
      refine ⟨hb, rfl, rfl, fun _ _ => rfl, hlow, ?_, ?_, .inr hkeys.symm⟩
      · rw [hidle]
        rfl
      · rw [hidle, order.list_eq_nil.2 rfl, List.append_nil]
        rfl
  | append_singleton edges edge ih =>
      rw [List.foldl_append]
      exact ih.step status edge

/-! ## The rings of a node in flux -/

section Rings

variable [Xxh64] {view : MembershipView}

/-- The rings on which `x` was reported, or whose observer is in flux or stable. -/
def impliedRings (cd : MultiNodeCutDetector) (view : MembershipView) (x : Endpoint) : Finset Nat :=
  (cd.reports x).keys.image UInt8.toNat ∪
    (Finset.range (observersInFlux view x).2.length).filter fun i =>
      ∃ observer ∈ (observersInFlux view x).2[i]?, observer ∈ cd.marked

theorem card_impliedRings (hfits : (observersInFlux view x).2.length ≤ 256) :
    (cd.impliedRings view x).card = cd.toldOf x (observersInFlux view x).2.zipIdx := by
  have hinjective : Function.Injective UInt8.toNat := fun _ _ => UInt8.toNat_inj.1
  rw [toldOf, ← Finset.card_image_of_injective _ hinjective, Finset.image_union, impliedRings]
  congr 2
  ext i
  rw [Finset.mem_filter, Finset.mem_range, Finset.mem_image]
  -- Below 256 the positions of the observers survive the cast to `u8`.
  have htoNat : ∀ j < (observersInFlux view x).2.length, j.toUInt8.toNat = j := by
    intro j hj
    rw [UInt8.toNat_ofNat', Nat.mod_eq_of_lt (show j < 2 ^ 8 by omega)]
  constructor
  · rintro ⟨hi, observer, hobserver, hmarked⟩
    exact ⟨i.toUInt8, mem_ringsOf.2 ⟨(observer, i), List.mem_zipIdx_iff_getElem?.2 hobserver, hmarked, rfl⟩,
      htoNat i hi⟩
  · rintro ⟨r, hr, hri⟩
    rcases mem_ringsOf.1 hr with ⟨⟨observer, j⟩, hedge, hmarked, hjr⟩
    have hlookup : (observersInFlux view x).2[j]? = some observer := List.mem_zipIdx_iff_getElem?.1 hedge
    have hj : j < (observersInFlux view x).2.length := (List.getElem?_eq_some_iff.1 hlookup).1
    have hij : i = j := by
      rw [← hri, ← hjr]
      exact htoNat j hj
    subst hij
    exact ⟨hj, observer, hlookup, hmarked⟩

/-! ## All nodes in flux -/

/-- The reports about `x` reach the high watermark. -/
def Ready (cd : MultiNodeCutDetector) (view : MembershipView) (x : Endpoint) : Prop :=
  cd.h.toNat ≤ cd.toldOf x (observersInFlux view x).2.zipIdx

instance : DecidablePred (cd.Ready view) :=
  fun x => inferInstanceAs (Decidable (cd.h.toNat ≤ cd.toldOf x (observersInFlux view x).2.zipIdx))

/-- The pass so far, from `cd` on: what is left to do is to visit `nodes`. -/
structure Mirrors (cd : MultiNodeCutDetector) (view : MembershipView) (order : HashOrder EndpointKey)
    (nodes : List Endpoint) (s : Basin Endpoint) (handed : Finset Endpoint)
    (acc : MultiNodeCutDetector × MembershipView × List Endpoint) : Prop where
  balanced : Balanced acc.1
  l : acc.1.l = cd.l
  h : acc.1.h = cd.h
  fills : view.Fills acc.2.1
  basin : acc.1.basin = s
  out : acc.2.2 = order.list handed
  rest : s = ⟨∅, ∅⟩ ∨ (handed = ∅ ∧ acc.1.marked = cd.marked ∧
    ∀ x ∈ nodes, acc.1.reports x = cd.reports x ∧ cd.l.toNat ≤ cd.count x)

/-- The step lemma: one more node in flux. -/
theorem Mirrors.step {order : HashOrder EndpointKey} {node : Endpoint} {nodes : List Endpoint}
    {s : Basin Endpoint} {handed : Finset Endpoint}
    {acc : MultiNodeCutDetector × MembershipView × List Endpoint}
    (h : Mirrors cd view order (node :: nodes) s handed acc) (hnode : node ∉ nodes) :
    Mirrors cd view order nodes (s.visit (cd.Ready view) node).1
      (handed ∪ (s.visit (cd.Ready view) node).2) (invalidateNode order acc node) := by
  have hfills : view.Fills (invalidateNode order acc node).2.1 :=
    h.fills.trans (fills_observersInFlux acc.2.1 node)
  rcases h.rest with rfl | ⟨rfl, hmarked, hnodes⟩
  · -- Everything was handed out before this node.
    have hempty : acc.1.marked = ∅ := basin_eq_empty_iff.1 h.basin
    have hsame : (invalidateNode order acc node).1 = acc.1 ∧
        (invalidateNode order acc node).2.2 = acc.2.2 := by
      unfold invalidateNode
      dsimp only
      rw [invalidateEdges_empty order _ hempty]
      exact ⟨rfl, rfl⟩
    refine ⟨hsame.1 ▸ h.balanced, hsame.1 ▸ h.l, hsame.1 ▸ h.h, hfills, ?_, ?_, .inl ?_⟩
    · simpa [hsame.1] using h.basin
    · simpa [hsame.2] using h.out
    · simp
  · rcases hnodes node List.mem_cons_self with ⟨hreports, hlow⟩
    have hlow' : acc.1.l.toNat ≤ acc.1.count node := by
      rw [h.l, count, hreports]
      exact hlow
    have htold := told_invalidateEdges acc.1 node order
      (if (observersInFlux acc.2.1 node).1.isHostPresent node then EdgeStatus.down else EdgeStatus.up)
      h.balanced hlow' acc.2.2 (observersInFlux acc.2.1 node).2.zipIdx
    -- The node is as ready as it was on entry.
    have hready : acc.1.h.toNat ≤ acc.1.toldOf node (observersInFlux acc.2.1 node).2.zipIdx ↔
        cd.Ready view node := by
      rw [Ready, toldOf, toldOf, observersInFlux_fills h.fills, hreports, hmarked, h.h]
    have hvisit : acc.1.basin.visit
        (fun _ => acc.1.h.toNat ≤ acc.1.toldOf node (observersInFlux acc.2.1 node).2.zipIdx) node =
        s.visit (cd.Ready view) node := by
      rw [h.basin]
      exact Basin.visit_congr hready
    have hbasin := htold.basin
    have hout := htold.out
    rw [hvisit] at hbasin hout
    refine ⟨htold.balanced, htold.l.trans h.l, htold.h.trans h.h, hfills, hbasin, ?_, ?_⟩
    · rw [Finset.empty_union]
      refine hout.trans ?_
      rw [h.out, order.list_eq_nil.2 rfl, List.nil_append]
    · rcases Basin.visit_cases (cd.Ready view) s node with hnone | ⟨_, hquiet⟩
      · exact .inl hnone
      · rcases htold.marked with hempty | hsame
        · exact .inl (hbasin.symm.trans hempty)
        · refine .inr ⟨by rw [hquiet, Finset.empty_union], hsame.trans hmarked, fun x hx => ?_⟩
          -- The nodes still to come are others, and their reports are those on entry.
          have hx' := hnodes x (List.mem_cons_of_mem node hx)
          have hne : x ≠ node := fun heq => hnode (heq ▸ hx)
          exact ⟨(htold.others x hne).trans hx'.1, hx'.2⟩

/-- The run lemma: the pass over the nodes is the visits to them. -/
theorem Mirrors.run {order : HashOrder EndpointKey} {nodes : List Endpoint} (hnodup : nodes.Nodup) :
    ∀ {s : Basin Endpoint} {handed : Finset Endpoint}
      {acc : MultiNodeCutDetector × MembershipView × List Endpoint},
      Mirrors cd view order nodes s handed acc →
        Mirrors cd view order [] (s.visits (cd.Ready view) nodes).1
          (handed ∪ (s.visits (cd.Ready view) nodes).2) (nodes.foldl (invalidateNode order) acc) := by
  induction nodes with
  | nil => exact fun h => by simpa [Basin.visits] using h
  | cons node nodes ih =>
      intro s handed acc h
      rcases List.nodup_cons.1 hnodup with ⟨hnode, hrest⟩
      have hall := ih hrest (h.step hnode)
      simpa [Basin.visits, Finset.union_assoc] using hall

/-- A pass is a drain of the nodes in flux. -/
theorem invalidateFailingEdges_drains (hb : Balanced cd) (hseen : cd.seenLinkDownEvents = true)
    (preOrder order : HashOrder EndpointKey) (view : MembershipView) :
    (cd.invalidateFailingEdges preOrder order view).1.basin = (cd.basin.outcome (cd.Ready view)).1 ∧
      (cd.invalidateFailingEdges preOrder order view).2.2 =
        order.list (cd.basin.outcome (cd.Ready view)).2 := by
  have hstart : Mirrors cd view order (preOrder.list cd.preProposal) cd.basin ∅ (cd, view, []) := by
    refine ⟨hb, rfl, rfl, .refl view, rfl, (order.list_eq_nil.2 rfl).symm, .inr ⟨rfl, rfl, fun x hx => ?_⟩⟩
    exact ⟨rfl, ((hb.flux x).1 (preOrder.mem_list_iff.1 hx)).1⟩
  have hend := hstart.run (preOrder.nodup _)
  have hvisits : cd.basin.visits (cd.Ready view) (preOrder.list cd.preProposal) =
      cd.basin.outcome (cd.Ready view) :=
    Basin.visits_all fun x hx => preOrder.mem_list_iff.2 hx
  rw [hvisits, Finset.empty_union] at hend
  have hcode : cd.invalidateFailingEdges preOrder order view =
      (preOrder.list cd.preProposal).foldl (invalidateNode order) (cd, view, []) := by
    unfold invalidateFailingEdges
    rw [if_pos hseen, objects_eq]
  rw [hcode]
  exact ⟨hend.basin, hend.out⟩

end Rings

end MultiNodeCutDetector

/-! ## Lists of observers -/

namespace MembershipView

variable [Xxh64] {v w : MembershipView}

/-- A cached list has an entry for each ring at most. -/
def CacheFits (v : MembershipView) : Prop :=
  ∀ x observers, v.cachedObservers.lookup x = some observers → observers.length ≤ v.k.toNat

omit [Xxh64] in
theorem length_filterMap_rings_le (v : MembershipView) (f : Ring → Option Endpoint) :
    (v.rings.filterMap f).length ≤ v.k.toNat :=
  calc
    (v.rings.filterMap f).length ≤ v.rings.length := List.length_filterMap_le f v.rings
    _ = v.k.toNat := v.rings_length

theorem length_computeObserversOf_le (v : MembershipView) (x : Endpoint) :
    (v.computeObserversOf x).length ≤ v.k.toNat := by
  unfold computeObserversOf
  split
  · exact Nat.zero_le _
  · exact v.length_filterMap_rings_le _

theorem length_getExpectedObserversOf_le (v : MembershipView) (x : Endpoint) :
    (v.getExpectedObserversOf x).length ≤ v.k.toNat := by
  unfold getExpectedObserversOf
  split
  · exact Nat.zero_le _
  · exact v.length_filterMap_rings_le _

omit [Xxh64] in
theorem CacheFits.of_empty (h : v.cachedObservers = ∅) : v.CacheFits := by
  intro x observers hlookup
  simp [h] at hlookup

theorem CacheFits.fills (h : v.CacheFits) (hfills : v.Fills w) : w.CacheFits := by
  intro x observers hlookup
  have hk : w.k = v.k := by rw [hfills.same]
  rw [hk]
  rcases hfills.cached x with hsame | ⟨_, _, hfilled⟩
  · exact h x observers (hsame ▸ hlookup)
  · cases hfilled.symm.trans hlookup
    exact v.length_computeObserversOf_le x

theorem CacheFits.apply (h : v.CacheFits) (op : ViewOp) : (v.apply op).CacheFits := by
  intro x observers hlookup
  rw [k_apply]
  rcases lookup_cachedObservers_apply hlookup with hold | ⟨_, rfl⟩
  · exact h x observers hold
  · exact v.length_computeObserversOf_le x

theorem CacheFits.reaches (h : anyViewSystem.Reachable v) : v.CacheFits := by
  refine h.invariant ?_ ?_
  · rintro v (⟨k, hnew⟩ | ⟨k, ids, endpoints, hboot⟩)
    · exact .of_empty (cachedObservers_new hnew)
    · exact .of_empty (cachedObservers_bootstrap hboot)
  · intro v op v' _ hv _ hstep
    cases hstep
    exact hv.apply op

open MultiNodeCutDetector in
theorem CacheFits.length_le (h : v.CacheFits) (x : Endpoint) :
    (observersInFlux v x).2.length ≤ v.k.toNat := by
  rw [observersInFlux_snd]
  split
  · cases hcached : v.cachedObservers.lookup x with
    | none => exact v.length_computeObserversOf_le x
    | some observers => exact h x observers hcached
  · exact v.length_getExpectedObserversOf_le x

end MembershipView

open MultiNodeCutDetector in
/-- Who is in flux on entry leaves with everybody else, or by its own rings alone. -/
theorem implicitDetection_meaning [Xxh64] {cd : MultiNodeCutDetector} {view : MembershipView}
    (hcd : detectorSystem.Reachable cd) (hseen : cd.seenLinkDownEvents = true)
    (hview : anyViewSystem.Reachable view) (preOrder order : HashOrder EndpointKey) :
    ((cd.preProposal.Nonempty ∧
        ∀ x ∈ cd.preProposal, cd.h.toNat ≤ (cd.impliedRings view x).card) →
      (cd.invalidateFailingEdges preOrder order view).2.2.Nodup ∧
      (∀ x, x ∈ (cd.invalidateFailingEdges preOrder order view).2.2 ↔
        x ∈ cd.proposal ∪ cd.preProposal) ∧
      (cd.invalidateFailingEdges preOrder order view).1.proposal = ∅ ∧
      (cd.invalidateFailingEdges preOrder order view).1.preProposal = ∅) ∧
    (¬ (cd.preProposal.Nonempty ∧
        ∀ x ∈ cd.preProposal, cd.h.toNat ≤ (cd.impliedRings view x).card) →
      (cd.invalidateFailingEdges preOrder order view).2.2 = [] ∧
      (cd.invalidateFailingEdges preOrder order view).1.preProposal =
        (cd.preProposal.filter fun x => (cd.impliedRings view x).card < cd.h.toNat) ∧
      (cd.invalidateFailingEdges preOrder order view).1.proposal =
        (cd.proposal ∪ cd.preProposal) \
          cd.preProposal.filter fun x => (cd.impliedRings view x).card < cd.h.toNat) := by
  rcases steady_of_reachable hcd with ⟨hb, hstable⟩
  rcases invalidateFailingEdges_drains hb hseen preOrder order view with ⟨hbasin, hout⟩
  have hready : ∀ x, cd.Ready view x ↔ cd.h.toNat ≤ (cd.impliedRings view x).card := by
    intro x
    -- There are no more observers than rings, so their numbers fit into a byte.
    have hfits := (MembershipView.CacheFits.reaches hview).length_le x
    have hk : view.k.toNat < 256 := view.k.toNat_lt
    rw [Ready, card_impliedRings (by omega)]
  constructor
  · intro hall
    have houtcome : cd.basin.outcome (cd.Ready view) = (⟨∅, ∅⟩, cd.proposal ∪ cd.preProposal) :=
      if_pos ⟨hall.1, fun x hx => (hready x).2 (hall.2 x hx)⟩
    rw [houtcome] at hbasin hout
    refine ⟨hout ▸ order.nodup _, fun x => by rw [hout, order.mem_list_iff], ?_, ?_⟩
    · exact congrArg Basin.settled hbasin
    · exact congrArg Basin.waiting hbasin
  · intro hsome
    have houtcome : cd.basin.outcome (cd.Ready view) =
        (⟨cd.preProposal.filter fun x => ¬ cd.Ready view x,
          cd.proposal ∪ cd.preProposal.filter (cd.Ready view)⟩, ∅) :=
      if_neg fun hall => hsome ⟨hall.1, fun x hx => (hready x).1 (hall.2 x hx)⟩
    rw [houtcome] at hbasin hout
    have hstay : (cd.preProposal.filter fun x => ¬ cd.Ready view x) =
        cd.preProposal.filter fun x => (cd.impliedRings view x).card < cd.h.toNat :=
      Finset.filter_congr fun x _ => (not_congr (hready x)).trans Nat.not_le
    have hsettled : cd.proposal ∪ cd.preProposal.filter (cd.Ready view) =
        (cd.proposal ∪ cd.preProposal) \ cd.preProposal.filter fun x => ¬ cd.Ready view x := by
      ext x
      -- What is proposed already is not in flux.
      have happart : x ∈ cd.proposal → x ∉ cd.preProposal := fun hx hflux =>
        absurd (hstable x hx) (Nat.not_le.2 ((hb.flux x).1 hflux).2)
      by_cases hx : x ∈ cd.proposal
      · simp [hx, happart hx]
      · simp [hx]
        tauto
    rw [← hstay]
    refine ⟨hout.trans (order.list_eq_nil.2 rfl), congrArg Basin.waiting hbasin, ?_⟩
    rw [← hsettled]
    exact congrArg Basin.settled hbasin

section Sample

attribute [local instance] xxh64Reference

/-- An alert that `dst` has failed, as seen from `hostC` on ring 0. -/
def downAlert (dst : Endpoint) : AlertMessage :=
  { upAlert dst [0] with edgeStatus := EdgeStatus.down.toInt32 }

/-- `K = 3`, `H = 3`, `L = 1`: two nodes in flux, each with one report. -/
def twoInFlux : Option MultiNodeCutDetector :=
  (MultiNodeCutDetector.new 3 3 1).toOption.bind fun cd =>
    detectorSystem.exec cd [.aggregate (downAlert hostA) endpointOrder,
      .aggregate (downAlert hostB) endpointOrder]

/-- The two are all the members, so each observes the other on every ring. -/
def twoMembers : Option MembershipView :=
  (MembershipView.bootstrap 3 [] [hostA, hostB]).toOption

theorem twoInFlux_leave_together :
    ∃ cd view, twoInFlux = some cd ∧ twoMembers = some view ∧
      cd.proposal ∪ cd.preProposal = {hostA, hostB} ∧
      (cd.invalidateFailingEdges endpointOrder endpointOrder view).2.2.Nodup ∧
      ∀ x, x ∈ (cd.invalidateFailingEdges endpointOrder endpointOrder view).2.2 ↔
        x ∈ cd.proposal ∪ cd.preProposal := by
  -- The sample is run once; the general theorem gives the rest.
  have hfacts : (twoInFlux.bind fun cd => twoMembers.map fun view =>
      (cd.seenLinkDownEvents, decide (cd.preProposal.Nonempty ∧
        ∀ x ∈ cd.preProposal, cd.h.toNat ≤ (cd.impliedRings view x).card),
        decide (cd.proposal ∪ cd.preProposal = {hostA, hostB}))) = some (true, true, true) := by
    decide +kernel
  rcases Option.bind_eq_some_iff.1 hfacts with ⟨cd, hcd, hmap⟩
  rcases Option.map_eq_some_iff.1 hmap with ⟨view, hview, heq⟩
  simp only [Prod.mk.injEq, decide_eq_true_eq] at heq
  rcases Option.bind_eq_some_iff.1 hcd with ⟨fresh, hfresh, hexec⟩
  have hstart : detectorSystem.Reachable fresh := .start ⟨3, 3, 1, eq_ok_of_toOption hfresh⟩
  have hreach : detectorSystem.Reachable cd := System.Reaches.exec hstart hexec
  have hbuilt : anyViewSystem.Reachable view :=
    .start (Or.inr ⟨3, [], [hostA, hostB], eq_ok_of_toOption hview⟩)
  have hmeaning := implicitDetection_meaning hreach heq.1 hbuilt endpointOrder endpointOrder
  have hall := hmeaning.1 heq.2.1
  exact ⟨cd, view, hcd, hview, heq.2.2, hall.1, hall.2.1⟩

end Sample

end Rapid
