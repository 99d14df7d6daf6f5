import Rapid.CutDetector.ImplicitCut
import Rapid.Foundations.Checked

/-!
# RingNumbers — the rings behind the table of reports

The ring numbers of an alert are 32-bit integers from the wire. `aggregate` casts them to bytes and
compares them with `K` in a debug assertion only. If they are rings, then the table of reports holds
rings, each one reported by an alert with this very number or implied by the observer on it, and the
assertions of a debug build hold.
-/

namespace Rapid

open Foundations

namespace MultiNodeCutDetector

open CutRun (toNat_ringAsUInt8 ringAsUInt8_lt)

/-! ## The debug build -/

section Debug

variable (self : MultiNodeCutDetector)

/-- `debug_assert!(ring_number < self.k)`. -/
def aggregateOneDebug (order : HashOrder EndpointKey) (linkSrc linkDst : Endpoint)
    (edgeStatus : EdgeStatus) (ringNumber : UInt8) : Option (MultiNodeCutDetector × List Endpoint) :=
  if ringNumber < self.k then some (self.aggregateOne order linkSrc linkDst edgeStatus ringNumber)
  else none

def aggregateRingsDebug (order : HashOrder EndpointKey) (linkSrc linkDst : Endpoint)
    (edgeStatus : EdgeStatus) :
    List UInt8 → MultiNodeCutDetector → Option (MultiNodeCutDetector × List Endpoint)
  | [], self => some (self, [])
  | ringNumber :: rings, self => do
      let first ← self.aggregateOneDebug order linkSrc linkDst edgeStatus ringNumber
      let rest ← aggregateRingsDebug order linkSrc linkDst edgeStatus rings first.1
      return (rest.1, first.2 ++ rest.2)

def aggregateDebug (order : HashOrder EndpointKey) (msg : AlertMessage) :
    Option (MultiNodeCutDetector × List Endpoint) :=
  match msg.edgeSrc, msg.edgeDst with
  | some src, some dst =>
      aggregateRingsDebug order src dst (statusOf msg) (msg.ringNumber.map ringAsUInt8) self
  | _, _ => some (self, [])

def invalidateEdgeDebug (order : HashOrder EndpointKey) (nodeInFlux : Endpoint)
    (edgeStatus : EdgeStatus) (acc : MultiNodeCutDetector × List Endpoint) (edge : Endpoint × Nat) :
    Option (MultiNodeCutDetector × List Endpoint) :=
  if edge.1 ∈ acc.1.proposal ∨ edge.1 ∈ acc.1.preProposal then do
    let step ← acc.1.aggregateOneDebug order edge.1 nodeInFlux edgeStatus edge.2.toUInt8
    return (step.1, acc.2 ++ step.2)
  else some acc

def invalidateNodeDebug [Xxh64] (order : HashOrder EndpointKey)
    (acc : MultiNodeCutDetector × MembershipView × List Endpoint) (nodeInFlux : Endpoint) :
    Option (MultiNodeCutDetector × MembershipView × List Endpoint) := do
  let observers := observersInFlux acc.2.1 nodeInFlux
  let edgeStatus := if observers.1.isHostPresent nodeInFlux then EdgeStatus.down else EdgeStatus.up
  let r ← observers.2.zipIdx.foldlM (invalidateEdgeDebug order nodeInFlux edgeStatus) (acc.1, acc.2.2)
  return (r.1, observers.1, r.2)

def invalidateFailingEdgesDebug [Xxh64] (preOrder order : HashOrder EndpointKey)
    (view : MembershipView) : Option (MultiNodeCutDetector × MembershipView × List Endpoint) :=
  if self.seenLinkDownEvents then
    (self.objects preOrder self.preProposal self.preProposal_objs).foldlM (invalidateNodeDebug order)
      (self, view, [])
  else some (self, view, [])

end Debug

variable {cd : MultiNodeCutDetector} {d : Endpoint} {k ring : UInt8} {order : HashOrder EndpointKey}

theorem aggregateOneDebug_eq (order : HashOrder EndpointKey) (src d : Endpoint) (status : EdgeStatus)
    (hring : ring < cd.k) :
    cd.aggregateOneDebug order src d status ring = some (cd.aggregateOne order src d status ring) :=
  if_pos hring

theorem aggregateRingsDebug_eq (order : HashOrder EndpointKey) (src d : Endpoint) (status : EdgeStatus)
    {rings : List UInt8} (hrings : ∀ ring ∈ rings, ring < k) : ∀ {cd : MultiNodeCutDetector}, cd.k = k →
      aggregateRingsDebug order src d status rings cd =
          some (aggregateRings order src d status rings cd) ∧
        (aggregateRings order src d status rings cd).1.k = k := by
  induction rings with
  | nil => exact fun hk => ⟨rfl, hk⟩
  | cons ring rings ih =>
      intro cd hk
      have hfirst := aggregateOneDebug_eq order src d status (hk ▸ hrings ring List.mem_cons_self)
      have hkept := (cd.aggregateOne_watermarks order src d status ring).1.trans hk
      rcases ih (fun r hr => hrings r (List.mem_cons_of_mem ring hr)) hkept with ⟨hrest, hk'⟩
      refine ⟨?_, hk'⟩
      simp [aggregateRingsDebug, aggregateRings, hfirst, hrest]

theorem aggregateDebug_eq (order : HashOrder EndpointKey) {msg : AlertMessage} (hk : cd.k = k)
    (hrings : msg.edgeSrc.isSome → msg.edgeDst.isSome → ∀ n ∈ msg.ringNumber, ringAsUInt8 n < k) :
    cd.aggregateDebug order msg = some (cd.aggregate order msg) ∧ (cd.aggregate order msg).1.k = k := by
  unfold aggregateDebug aggregate
  cases hsrc : msg.edgeSrc with
  | none => exact ⟨rfl, hk⟩
  | some src =>
      cases hdst : msg.edgeDst with
      | none => exact ⟨rfl, hk⟩
      | some dst =>
          refine aggregateRingsDebug_eq order src dst (statusOf msg) (fun ring hring => ?_) hk
          rcases List.mem_map.1 hring with ⟨n, hn, rfl⟩
          exact hrings (by simp [hsrc]) (by simp [hdst]) n hn

/-- Implicit detection numbers the observers, and there are no more of them than rings. -/
theorem invalidateFailingEdgesDebug_eq [Xxh64] (preOrder order : HashOrder EndpointKey)
    {view : MembershipView} (hk : cd.k = k)
    (hfits : ∀ x, (observersInFlux view x).2.length ≤ k.toNat) :
    cd.invalidateFailingEdgesDebug preOrder order view =
      some (cd.invalidateFailingEdges preOrder order view) := by
  -- The assertion holds for every observer of one node.
  have hedges : ∀ (x : Endpoint) (status : EdgeStatus) (edges : List (Endpoint × Nat))
      (acc : MultiNodeCutDetector × List Endpoint), (∀ edge ∈ edges, edge.2 < k.toNat) → acc.1.k = k →
        edges.foldlM (invalidateEdgeDebug order x status) acc =
            some (edges.foldl (invalidateEdge order x status) acc) ∧
          (edges.foldl (invalidateEdge order x status) acc).1.k = k := by
    intro x status edges acc hlisted hacc
    refine foldlM_eq_some (I := fun acc : MultiNodeCutDetector × List Endpoint => acc.1.k = k) ?_ hacc
    intro acc edge hedge hacc
    have hring : edge.2.toUInt8 < acc.1.k := by
      have hk256 : k.toNat < 256 := k.toNat_lt
      have hlt := hlisted edge hedge
      rw [hacc, UInt8.lt_iff_toNat_lt, UInt8.toNat_ofNat', Nat.mod_eq_of_lt (show edge.2 < 2 ^ 8 by omega)]
      exact hlt
    have hone := aggregateOneDebug_eq order edge.1 x status hring
    unfold invalidateEdgeDebug invalidateEdge
    split
    · refine ⟨by simp [hone], ?_⟩
      exact (acc.1.aggregateOne_watermarks order edge.1 x status edge.2.toUInt8).1.trans hacc
    · exact ⟨rfl, hacc⟩
  unfold invalidateFailingEdgesDebug invalidateFailingEdges
  split
  · refine (foldlM_eq_some (I := fun acc : MultiNodeCutDetector × MembershipView × List Endpoint =>
      view.Fills acc.2.1 ∧ acc.1.k = k) ?_ ⟨.refl view, hk⟩).1
    intro acc node _ hacc
    have hlisted : ∀ edge ∈ (observersInFlux acc.2.1 node).2.zipIdx, edge.2 < k.toNat := by
      intro edge hedge
      -- What the pass has cached so far does not change the lists.
      rw [observersInFlux_fills hacc.1] at hedge
      have hlookup := List.mem_zipIdx_iff_getElem?.1 hedge
      exact lt_of_lt_of_le (List.getElem?_eq_some_iff.1 hlookup).1 (hfits node)
    have hnode := hedges node
      (if (observersInFlux acc.2.1 node).1.isHostPresent node then EdgeStatus.down else EdgeStatus.up)
      _ (acc.1, acc.2.2) hlisted hacc.2
    refine ⟨?_, hacc.1.trans (fills_observersInFlux acc.2.1 node), hnode.2⟩
    unfold invalidateNodeDebug invalidateNode
    simp [hnode.1]
  · rfl

/-! ## Reports of rings -/

section Backed

variable [Xxh64] {view : MembershipView} {reported reported' : List (Endpoint × Int32)}
  {cd' : MultiNodeCutDetector} {out : List Endpoint} {high : UInt8}

/-- Ring `r` was reported about `d`: with this number, or because the observer on it is itself reported
on as many rings as the low watermark asks for. -/
def ReportedOn (cd : MultiNodeCutDetector) (view : MembershipView) (reported : List (Endpoint × Int32))
    (d : Endpoint) (r : Nat) : Prop :=
  (∃ n, (d, n) ∈ reported ∧ n.toInt = r) ∨
    ∃ observer, (observersInFlux view d).2[r]? = some observer ∧ cd.l.toNat ≤ cd.count observer

theorem ReportedOn.mono {r : Nat} (h : ReportedOn cd view reported d r) (hl : cd'.l = cd.l)
    (hcount : ∀ x, cd.count x ≤ cd'.count x) : ReportedOn cd' view reported d r := by
  rcases h with hwire | ⟨observer, hlisted, hlow⟩
  · exact .inl hwire
  · exact .inr ⟨observer, hlisted, hl ▸ hlow.trans (hcount observer)⟩

/-- Every ring in the table is a ring and was reported, and what was emitted has reached the high
watermark. -/
structure Backed (view : MembershipView) (reported : List (Endpoint × Int32)) (k high : UInt8)
    (cd : MultiNodeCutDetector) (out : List Endpoint) : Prop where
  balanced : Balanced cd
  stable : ProposalStable cd
  k_eq : cd.k = k
  h_eq : cd.h = high
  below : ∀ d, ∀ r ∈ cd.reports d, r < k
  rings : ∀ d, ∀ r ∈ cd.reports d, ReportedOn cd view reported d r.toNat
  out : ∀ d ∈ out, cd.h.toNat ≤ cd.count d

omit [Xxh64] in
/-- Counts do not fall. -/
theorem Reported.count_le (hr : Reported cd d ring cd') (x : Endpoint) : cd.count x ≤ cd'.count x := by
  by_cases hx : x = d
  · rw [hx, count, count, hr.keys]
    exact Finset.card_le_card (Finset.subset_insert _ _)
  · exact (hr.count_of_ne hx).ge

omit [Xxh64] in
/-- What a report makes the detector emit has reached the high watermark. -/
theorem stable_of_mem_aggregateOne (hstable : ProposalStable cd) (order : HashOrder EndpointKey)
    (src d : Endpoint) (status : EdgeStatus) (ring : UInt8) {x : Endpoint}
    (hx : x ∈ (cd.aggregateOne order src d status ring).2) :
    cd.h.toNat ≤ (cd.aggregateOne order src d status ring).1.count x := by
  have hr := cd.aggregateOne_reported order src d status ring
  by_cases hmem : ring ∈ cd.reports d
  · rcases aggregateOne_of_mem order src status hmem with ⟨_, _, _, _, _, _, _, _, hcode⟩
    simp [hcode] at hx
  · rcases aggregateOne_of_new order src status hmem rfl with
      ⟨flux, hobj, _, _, _, _, _, _, hproposal, hcode⟩
    rw [hcode] at hx
    split at hx
    · rename_i hhigh
      split at hx
      · rw [emit_enterProposal, order.mem_list_iff, hproposal] at hx
        rcases Finset.mem_insert.1 hx with rfl | hold
        · -- The byte compared is the count.
          have hcount : cd.h.toNat = ((cd.reports x).insert ring src).keys.card :=
            ((toUInt8_eq_watermark (card_le_256 _) cd.h_pos).1 hhigh).symm
          rw [hcount, keys_insert_ring, count, hr.keys]
        · exact (hstable x hold).trans (hr.count_le x)
      · cases hx
    · cases hx

/-- The step lemma: one more report, of a ring. -/
theorem Backed.step (hb : Backed view reported k high cd out) (order : HashOrder EndpointKey)
    (src d : Endpoint) (status : EdgeStatus) {ring : UInt8} (hring : ring < k)
    (hreported : ReportedOn cd view reported d ring.toNat) :
    Backed view reported k high (cd.aggregateOne order src d status ring).1
      (out ++ (cd.aggregateOne order src d status ring).2) := by
  have hr := cd.aggregateOne_reported order src d status ring
  have hk := (cd.aggregateOne_watermarks order src d status ring).1
  -- A key is old or it is the ring of this report.
  have hrings : ∀ x, ∀ r ∈ (cd.aggregateOne order src d status ring).1.reports x,
      r < k ∧ ReportedOn cd view reported x r.toNat := by
    intro x r hr'
    by_cases hx : x = d
    · subst hx
      rw [← Finmap.mem_keys, hr.keys, Finset.mem_insert, Finmap.mem_keys] at hr'
      rcases hr' with rfl | hold
      · exact ⟨hring, hreported⟩
      · exact ⟨hb.below x r hold, hb.rings x r hold⟩
    · rw [hr.others x hx] at hr'
      exact ⟨hb.below x r hr', hb.rings x r hr'⟩
  refine ⟨hr.balanced hb.balanced, hr.proposalStable hb.stable, hk.trans hb.k_eq, hr.h.trans hb.h_eq,
    fun x r hr' => (hrings x r hr').1, fun x r hr' => (hrings x r hr').2.mono hr.l hr.count_le, ?_⟩
  intro x hx
  rw [hr.h]
  rcases List.mem_append.1 hx with hold | hnew
  · exact (hb.out x hold).trans (hr.count_le x)
  · exact stable_of_mem_aggregateOne hb.stable order src d status ring hnew

theorem Backed.congr {view' : MembershipView} (hb : Backed view reported k high cd out)
    (hview : ∀ x, (observersInFlux view' x).2 = (observersInFlux view x).2)
    (hreported : ∀ p ∈ reported, p ∈ reported') : Backed view' reported' k high cd out := by
  refine ⟨hb.balanced, hb.stable, hb.k_eq, hb.h_eq, hb.below, fun d r hr => ?_, hb.out⟩
  rcases hb.rings d r hr with ⟨n, hn, heq⟩ | ⟨observer, hlisted, hlow⟩
  · exact .inl ⟨n, hreported _ hn, heq⟩
  · exact .inr ⟨observer, (hview d).symm ▸ hlisted, hlow⟩

theorem Backed.of_fresh (h : Fresh cd) : Backed view reported cd.k cd.h cd [] := by
  have hnone : ∀ d r, r ∉ cd.reports d :=
    fun d r hr => Finset.notMem_empty _ ((h.tracks.rings d r).2 hr)
  exact ⟨h.steady.1, h.steady.2, rfl, rfl, fun d r hr => (hnone d r hr).elim,
    fun d r hr => (hnone d r hr).elim, fun d hd => by cases hd⟩

theorem Backed.emitted {fewer : List Endpoint} (hb : Backed view reported k high cd out)
    (h : ∀ d ∈ fewer, d ∈ out) : Backed view reported k high cd fewer :=
  { hb with out := fun d hd => hb.out d (h d hd) }

/-- An alert whose ring numbers are rings. -/
theorem Backed.aggregate (hb : Backed view reported k high cd out) (order : HashOrder EndpointKey)
    {msg : AlertMessage}
    (hwire : ∀ src dst, msg.edgeSrc = some src → msg.edgeDst = some dst → ∀ n ∈ msg.ringNumber,
      (dst, n) ∈ reported ∧ 0 ≤ n.toInt ∧ n.toInt < k.toNat) :
    Backed view reported k high (cd.aggregate order msg).1 (out ++ (cd.aggregate order msg).2) := by
  refine keeps_aggregate order msg out (fun cd out src dst ring hsrc hdst hring hb => ?_) hb
  rcases List.mem_map.1 hring with ⟨n, hn, rfl⟩
  rcases hwire src dst hsrc hdst n hn with ⟨hreported, hpos, hlt⟩
  have hk : k.toNat < 256 := k.toNat_lt
  have hcast := toNat_ringAsUInt8 hpos (by omega)
  exact hb.step order src dst _ (ringAsUInt8_lt hpos hlt) (.inl ⟨n, hreported, hcast.symm⟩)

/-- Implicit detection reports the rings of reported observers. -/
theorem Backed.invalidateFailingEdges (hb : Backed view reported k high cd out)
    (preOrder order : HashOrder EndpointKey)
    (hfits : ∀ x, (observersInFlux view x).2.length ≤ k.toNat) :
    Backed view reported k high (cd.invalidateFailingEdges preOrder order view).1
      (out ++ (cd.invalidateFailingEdges preOrder order view).2.2) := by
  refine keeps_invalidateFailingEdges
    (I := fun cd more => Backed view reported k high cd (out ++ more)) preOrder order ?_
    (by simpa using hb)
  intro cd more x status observer i hmarked hlisted hb
  have hi : i < k.toNat := lt_of_lt_of_le (List.getElem?_eq_some_iff.1 hlisted).1 (hfits x)
  have hk : k.toNat < 256 := k.toNat_lt
  have hcast : i.toUInt8.toNat = i := by
    rw [UInt8.toNat_ofNat', Nat.mod_eq_of_lt (show i < 2 ^ 8 by omega)]
  have hlow : cd.l.toNat ≤ cd.count observer := by
    rcases mem_marked.1 hmarked with hproposal | hflux
    · exact cd.l_le_h_toNat.trans (hb.stable observer hproposal)
    · exact ((hb.balanced.flux observer).1 hflux).1
  rw [← List.append_assoc]
  refine hb.step order observer x status (UInt8.lt_iff_toNat_lt.2 (hcast.symm ▸ hi)) (.inr ?_)
  exact ⟨observer, hcast.symm ▸ hlisted, hlow⟩

/-- What was emitted was reported on as many rings as the high watermark asks for. -/
theorem Backed.highRings (hb : Backed view reported k high cd out) (hd : d ∈ out) :
    ∃ rings : Finset Nat, high.toNat ≤ rings.card ∧
      ∀ r ∈ rings, r < k.toNat ∧ ReportedOn cd view reported d r := by
  refine ⟨(cd.reports d).keys.image UInt8.toNat, ?_, ?_⟩
  · have hcard : ((cd.reports d).keys.image UInt8.toNat).card = cd.count d :=
      Finset.card_image_of_injective _ fun r r' => UInt8.toNat.inj
    rw [hcard, ← hb.h_eq]
    exact hb.out d hd
  · intro r hr
    rcases Finset.mem_image.1 hr with ⟨ring, hring, rfl⟩
    rw [Finmap.mem_keys] at hring
    exact ⟨UInt8.lt_iff_toNat_lt.1 (hb.below d ring hring), hb.rings d ring hring⟩

end Backed

end MultiNodeCutDetector

end Rapid
