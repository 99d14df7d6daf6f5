import Rapid.View.MembershipView
import Rapid.Foundations.HashOrder

/-!
# MultiNodeCutDetector — the two watermarks, `cut_detector.rs`

The detector counts, for every destination, the rings on which it was reported. The hash sets
`proposal` and `pre_proposal` are iterated in an order that the hasher chooses: every function that
iterates one takes the order as an argument. The counter `updates_in_progress` is an integer.
-/

namespace Rapid

open Foundations

/-- One order for tables keyed by endpoints: by hostname, then port. -/
def endpointOrder : HashOrder EndpointKey :=
  .ofKey (fun e => toLex (e.hostname.map UInt8.toNat, e.port)) (by
    intro a b hab
    have hpair : (a.hostname.map UInt8.toNat, a.port) = (b.hostname.map UInt8.toNat, b.port) :=
      toLex.injective hab
    rcases Prod.mk.inj hpair with ⟨hhost, hport⟩
    have hinjective : Function.Injective UInt8.toNat := fun _ _ => UInt8.toNat_inj.1
    have hhost' : a.hostname = b.hostname := List.map_injective_iff.2 hinjective hhost
    cases a
    cases b
    cases hhost'
    cases hport
    rfl)

/-- Minimum permissible `K`. -/
def kMin : UInt8 := 3

/-- The fields of the Rust type, the watermarks that `new` accepts, and an endpoint object for each
key of the two sets. -/
structure MultiNodeCutDetector where
  k : UInt8
  h : UInt8
  l : UInt8
  proposalCount : UInt32
  updatesInProgress : Int
  reportsPerHost : Finmap fun _ : EndpointKey => Finmap fun _ : UInt8 => Endpoint
  proposal : Finset EndpointKey
  preProposal : Finset EndpointKey
  seenLinkDownEvents : Bool
  endpointObjs : Finmap fun _ : EndpointKey => Endpoint
  kMin_le : kMin ≤ k
  h_le_k : h ≤ k
  l_le_h : l ≤ h
  l_ne_zero : l ≠ 0
  proposal_objs : ∀ key ∈ proposal, key ∈ endpointObjs
  preProposal_objs : ∀ key ∈ preProposal, key ∈ endpointObjs
  objs_key : ∀ key obj, endpointObjs.lookup key = some obj → obj = key

namespace MultiNodeCutDetector

def new (k h l : UInt8) : Except Error MultiNodeCutDetector :=
  if hbad : h > k ∨ l > h ∨ k < kMin ∨ l = 0 ∨ h = 0 then .error (.cutDetectorRequires k h l)
  else .ok {
    k := k
    h := h
    l := l
    proposalCount := 0
    updatesInProgress := 0
    reportsPerHost := ∅
    proposal := ∅
    preProposal := ∅
    seenLinkDownEvents := false
    endpointObjs := ∅
    kMin_le := UInt8.not_lt.1 fun hlt => hbad (.inr (.inr (.inl hlt)))
    h_le_k := UInt8.not_lt.1 fun hlt => hbad (.inl hlt)
    l_le_h := UInt8.not_lt.1 fun hlt => hbad (.inr (.inl hlt))
    l_ne_zero := fun hl => hbad (.inr (.inr (.inr (.inl hl))))
    proposal_objs := fun key hkey => absurd hkey (Finset.notMem_empty key)
    preProposal_objs := fun key hkey => absurd hkey (Finset.notMem_empty key)
    objs_key := fun key obj hlookup => (by simp at hlookup) }

theorem k_of_new {k h l : UInt8} {cd : MultiNodeCutDetector} (hnew : new k h l = .ok cd) : cd.k = k := by
  unfold new at hnew
  split at hnew
  · cases hnew
  · cases hnew
    rfl

variable (self : MultiNodeCutDetector)

/-! ## Reports -/

/-- The rings reported about a destination. -/
def reports (linkDst : Endpoint) : Finmap fun _ : UInt8 => Endpoint :=
  (self.reportsPerHost.lookup linkDst).getD ∅

/-- `endpoint_objs.entry(dst_key).or_insert_with(..)`. -/
def rememberEndpoint (linkDst : Endpoint) : MultiNodeCutDetector :=
  { self with
    endpointObjs :=
      if linkDst ∈ self.endpointObjs then self.endpointObjs
      else self.endpointObjs.insert linkDst linkDst
    proposal_objs := by
      intro key hkey
      split
      · exact self.proposal_objs key hkey
      · exact Finmap.mem_insert.2 (.inr (self.proposal_objs key hkey))
    preProposal_objs := by
      intro key hkey
      split
      · exact self.preProposal_objs key hkey
      · exact Finmap.mem_insert.2 (.inr (self.preProposal_objs key hkey))
    objs_key := by
      intro key obj hlookup
      split at hlookup
      · exact self.objs_key key obj hlookup
      · by_cases hkey : key = linkDst
        · subst hkey
          rw [Finmap.lookup_insert] at hlookup
          exact (Option.some.inj hlookup).symm
        · rw [Finmap.lookup_insert_of_ne _ hkey] at hlookup
          exact self.objs_key key obj hlookup }

theorem mem_rememberEndpoint (linkDst : Endpoint) :
    linkDst ∈ (self.rememberEndpoint linkDst).endpointObjs := by
  unfold rememberEndpoint
  dsimp only
  split
  · assumption
  · exact Finmap.mem_insert.2 (.inl rfl)

/-- `if num == self.l`: the destination is in flux. -/
def checkLow (linkDst : Endpoint) (hobj : linkDst ∈ self.endpointObjs) (num : UInt8) :
    MultiNodeCutDetector :=
  if num = self.l then
    { self with
      updatesInProgress := self.updatesInProgress + 1
      preProposal := insert linkDst self.preProposal
      preProposal_objs := by
        intro key hkey
        rcases Finset.mem_insert.1 hkey with rfl | hkey
        · exact hobj
        · exact self.preProposal_objs key hkey }
  else self

theorem endpointObjs_checkLow {linkDst : Endpoint} {hobj : linkDst ∈ self.endpointObjs} {num : UInt8} :
    (self.checkLow linkDst hobj num).endpointObjs = self.endpointObjs := by
  unfold checkLow
  split
  · rfl
  · rfl

/-- The first lines of `if num == self.h`: the destination is stable. -/
def enterProposal (linkDst : Endpoint) (hobj : linkDst ∈ self.endpointObjs) :
    MultiNodeCutDetector :=
  { self with
    preProposal := self.preProposal.erase linkDst
    proposal := insert linkDst self.proposal
    updatesInProgress := self.updatesInProgress - 1
    proposal_objs := by
      intro key hkey
      rcases Finset.mem_insert.1 hkey with rfl | hkey
      · exact hobj
      · exact self.proposal_objs key hkey
    preProposal_objs := fun key hkey => self.preProposal_objs key (Finset.mem_of_mem_erase hkey) }

/-- `keys.iter().map(|k| self.endpoint_objs[k].clone()).collect()`. -/
def objects (order : HashOrder EndpointKey) (keys : Finset EndpointKey)
    (hobjs : ∀ key ∈ keys, key ∈ self.endpointObjs) : List Endpoint :=
  (order.list keys).pmap
    (fun key hkey => (self.endpointObjs.lookup key).get (Finmap.lookup_isSome.2 hkey))
    fun key hkey => hobjs key (order.mem_list_iff.1 hkey)

/-- The proposal is handed out and starts anew. -/
def emit (order : HashOrder EndpointKey) : MultiNodeCutDetector × List Endpoint :=
  ({ self with
      proposalCount := self.proposalCount + 1
      proposal := ∅
      proposal_objs := fun key hkey => absurd hkey (Finset.notMem_empty key) },
    self.objects order self.proposal self.proposal_objs)

def aggregateOne (order : HashOrder EndpointKey) (linkSrc linkDst : Endpoint) (edgeStatus : EdgeStatus)
    (ringNumber : UInt8) : MultiNodeCutDetector × List Endpoint :=
  let self : MultiNodeCutDetector :=
    { self with seenLinkDownEvents := self.seenLinkDownEvents || edgeStatus = EdgeStatus.down }
  let known := self.rememberEndpoint linkDst
  have hobj : linkDst ∈ known.endpointObjs := self.mem_rememberEndpoint linkDst
  let reports := known.reports linkDst
  if ringNumber ∈ reports then
    ({ known with reportsPerHost := known.reportsPerHost.insert linkDst reports }, [])
  else
    let reports := reports.insert ringNumber linkSrc
    let counted : MultiNodeCutDetector :=
      { known with reportsPerHost := known.reportsPerHost.insert linkDst reports }
    -- The counts meet the watermarks with `==`, one report after the other.
    let num := reports.keys.card.toUInt8
    let flux := counted.checkLow linkDst hobj num
    if num = flux.h then
      let stable := flux.enterProposal linkDst (counted.endpointObjs_checkLow.symm ▸ hobj)
      -- No destination is left between the watermarks.
      if stable.updatesInProgress = 0 then stable.emit order else (stable, [])
    else (flux, [])

/-- The reports of the listed rings, one after the other. -/
def aggregateRings (order : HashOrder EndpointKey) (linkSrc linkDst : Endpoint)
    (edgeStatus : EdgeStatus) : List UInt8 → MultiNodeCutDetector → MultiNodeCutDetector × List Endpoint
  | [], self => (self, [])
  | ringNumber :: rings, self =>
      let first := self.aggregateOne order linkSrc linkDst edgeStatus ringNumber
      let rest := aggregateRings order linkSrc linkDst edgeStatus rings first.1
      (rest.1, first.2 ++ rest.2)

/-- `*ring_number as u8`. -/
def ringAsUInt8 (ringNumber : Int32) : UInt8 :=
  ringNumber.toUInt32.toUInt8

/-- The status of an alert; values that are no status count as `UP`. -/
def statusOf (msg : AlertMessage) : EdgeStatus :=
  (EdgeStatus.tryFrom msg.edgeStatus).getD .up

def aggregate (order : HashOrder EndpointKey) (msg : AlertMessage) :
    MultiNodeCutDetector × List Endpoint :=
  match msg.edgeSrc, msg.edgeDst with
  | some src, some dst =>
      aggregateRings order src dst (statusOf msg) (msg.ringNumber.map ringAsUInt8) self
  | _, _ => (self, [])

/-! ## Implicit detection -/

/-- One observer of a node in flux: it counts as a report when it is itself in flux or stable. -/
def invalidateEdge (order : HashOrder EndpointKey) (nodeInFlux : Endpoint) (edgeStatus : EdgeStatus)
    (acc : MultiNodeCutDetector × List Endpoint) (edge : Endpoint × Nat) :
    MultiNodeCutDetector × List Endpoint :=
  if edge.1 ∈ acc.1.proposal ∨ edge.1 ∈ acc.1.preProposal then
    let step := acc.1.aggregateOne order edge.1 nodeInFlux edgeStatus edge.2.toUInt8
    (step.1, acc.2 ++ step.2)
  else acc

/-- The observers of a node in flux; those of a member come from the view's cache. -/
def observersInFlux [Xxh64] (view : MembershipView) (nodeInFlux : Endpoint) :
    MembershipView × List Endpoint :=
  if view.isHostPresent nodeInFlux then
    let r := view.getObserversOf nodeInFlux
    (r.1, r.2.toOption.getD [])
  else (view, view.getExpectedObserversOf nodeInFlux)

def invalidateNode [Xxh64] (order : HashOrder EndpointKey)
    (acc : MultiNodeCutDetector × MembershipView × List Endpoint) (nodeInFlux : Endpoint) :
    MultiNodeCutDetector × MembershipView × List Endpoint :=
  let observers := observersInFlux acc.2.1 nodeInFlux
  -- A member in flux is going down, anyone else is coming up.
  let edgeStatus := if observers.1.isHostPresent nodeInFlux then EdgeStatus.down else EdgeStatus.up
  let r := observers.2.zipIdx.foldl (invalidateEdge order nodeInFlux edgeStatus) (acc.1, acc.2.2)
  (r.1, observers.1, r.2)

/-- The nodes in flux are visited in the order `preOrder` of the hash set `pre_proposal`. -/
def invalidateFailingEdges [Xxh64] (preOrder order : HashOrder EndpointKey) (view : MembershipView) :
    MultiNodeCutDetector × MembershipView × List Endpoint :=
  if self.seenLinkDownEvents then
    (self.objects preOrder self.preProposal self.preProposal_objs).foldl (invalidateNode order)
      (self, view, [])
  else (self, view, [])

def clear : MultiNodeCutDetector :=
  { self with
    reportsPerHost := ∅
    proposal := ∅
    preProposal := ∅
    endpointObjs := ∅
    updatesInProgress := 0
    proposalCount := 0
    seenLinkDownEvents := false
    proposal_objs := fun key hkey => absurd hkey (Finset.notMem_empty key)
    preProposal_objs := fun key hkey => absurd hkey (Finset.notMem_empty key)
    objs_key := fun key obj hlookup => (by simp at hlookup) }

end MultiNodeCutDetector

end Rapid
