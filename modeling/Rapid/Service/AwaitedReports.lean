import Rapid.Service.KeptView
import Rapid.View.ObserverCache

/-!
# AwaitedReports — a detector that hears about one node only

While all valid alerts are about one node, nothing else is in flux and implicit detection finds
nothing. The member waits until the rings reported, in any number of batches, reach the high
watermark; then it proposes this node, once.
-/

namespace Rapid

open Foundations MultiNodeCutDetector

section Awaited

variable [Xxh64]

/-! ## Alerts about one node -/

/-- An alert that is valid in the configuration and reports rings of `d`. -/
structure AlertMessage.About (alert : AlertMessage) (currentConfig : Int64) (k : UInt8)
    (status : EdgeStatus) (d : Endpoint) : Prop where
  configurationId : alert.configurationId = currentConfig
  edgeSrc : ∃ src, alert.edgeSrc = some src
  edgeDst : alert.edgeDst = some d
  status : statusOf alert = status
  range : ∀ ring ∈ alert.ringNumber.map ringAsUInt8, ring < k

/-- The rings that the alerts report. -/
def reportedRings (alerts : List AlertMessage) : List UInt8 :=
  alerts.flatMap fun alert => alert.ringNumber.map ringAsUInt8

variable {cd : MultiNodeCutDetector} {c : Cut Endpoint UInt8} {d : Endpoint}
  {order : HashOrder EndpointKey} {currentConfig : Int64} {status : EdgeStatus}

namespace MultiNodeCutDetector

omit [Xxh64] in
theorem addRings_append (seen : Finset (Endpoint × UInt8)) (rings rings' : List UInt8) :
    addRings seen d (rings ++ rings') = addRings (addRings seen d rings) d rings' :=
  List.foldl_append

omit [Xxh64] in
/-- All alerts of a batch, one after the other. -/
theorem Tracks.aggregateAlerts {alerts : List AlertMessage} :
    ∀ {cd : MultiNodeCutDetector} {c : Cut Endpoint UInt8}, Tracks cd c →
      (∀ alert ∈ alerts, alert.About currentConfig cd.k status d) →
        let seen := addRings c.seen d (reportedRings alerts)
        let out := ServiceState.aggregateAlerts order alerts cd
        Tracks out.1 (c.advance cd.l.toNat cd.h.toNat d seen) ∧
          out.2 = order.list (c.emitted cd.l.toNat cd.h.toNat d seen) ∧
          out.1.k = cd.k ∧ out.1.l = cd.l ∧ out.1.h = cd.h := by
  induction alerts with
  | nil =>
      intro cd c ht _
      exact @Tracks.aggregateRings d order d status [] cd c ht fun r hr => by cases hr
  | cons alert alerts ih =>
      intro cd c ht habout seen out
      have halert := habout alert List.mem_cons_self
      rcases halert.edgeSrc with ⟨src, hsrc⟩
      have hcode := (CutRun.aggregate_complete cd order hsrc halert.edgeDst c.seen).1
      rcases @Tracks.aggregateRings d order src (statusOf alert) _ cd c ht halert.range with
        ⟨ht₁, hout₁, hk, hl, hh⟩
      rw [← hcode] at ht₁ hout₁ hk hl hh
      have habout₁ : ∀ a ∈ alerts, a.About currentConfig (cd.aggregate order alert).1.k status d := by
        intro a ha
        rw [hk]
        exact habout a (List.mem_cons_of_mem _ ha)
      rcases ih ht₁ habout₁ with ⟨ht₂, hout₂, hk₂, hl₂, hh₂⟩
      rw [hl, hh] at ht₂ hout₂
      -- The cut after the first alert has seen its rings.
      have hseen : addRings (c.advance cd.l.toNat cd.h.toNat d (addRings c.seen d
          (alert.ringNumber.map ringAsUInt8))).seen d (reportedRings alerts) = seen :=
        (addRings_append _ _ _).symm
      rw [hseen] at ht₂ hout₂
      have hother : ∀ x ≠ d, tally seen x =
          tally (addRings c.seen d (alert.ringNumber.map ringAsUInt8)) x := by
        intro x hx
        rw [← hseen]
        exact tally_addRings_of_ne hx
      have hsub : addRings c.seen d (alert.ringNumber.map ringAsUInt8) ⊆ seen := by
        rw [← hseen]
        exact subset_addRings
      rcases Tracks.chain subset_addRings hsub hother (hh₂.trans hh) hout₁ ht₂ hout₂ with
        ⟨htracks, hout⟩
      exact ⟨htracks, hout, hk₂.trans hk, hl₂.trans hl, hh₂.trans hh⟩

omit [Xxh64] in
/-- What the detector marks was reported. -/
theorem Tracks.marked_sole (ht : Tracks cd c) (hsole : ∀ p ∈ c.seen, p.1 = d) :
    ∀ x ∈ cd.marked, x = d := by
  intro x hx
  have himage : x ∈ c.seen.image Prod.fst := by
    rcases mem_marked.1 hx with hproposal | hpre
    · rw [ht.pending] at hproposal
      exact (Finset.mem_filter.1 (Finset.mem_sdiff.1 hproposal).1).1
    · rw [ht.flux] at hpre
      exact (Finset.mem_filter.1 hpre).1
  rcases Finset.mem_image.1 himage with ⟨p, hp, rfl⟩
  exact hsole p hp

/-- Implicit detection finds nothing: the only node reported is not its own observer. -/
theorem invalidateFailingEdges_sole (preOrder order : HashOrder EndpointKey) {view : MembershipView}
    (hmarked : ∀ x ∈ cd.marked, x = d) (hself : d ∉ (observersInFlux view d).2) :
    ∃ filled, view.Fills filled ∧
      cd.invalidateFailingEdges preOrder order view = (cd, filled, []) := by
  refine invalidateFailingEdges_implied preOrder order fun _ => ?_
  intro x hx edge hedge hmark
  have hx' : x = d := hmarked x (mem_marked.2 (.inr hx))
  have hedge' : edge.1 = d := hmarked _ hmark
  have hlisted : edge.1 ∈ (observersInFlux view x).2 := List.fst_mem_of_mem_zipIdx hedge
  rw [hx', hedge'] at hlisted
  exact absurd hlisted hself

end MultiNodeCutDetector

namespace ServiceState

/-! ## A member that waits for more reports -/

/-- Nothing but `d` was reported to the member, on too few rings so far. -/
structure Awaits (currentConfig : Int64) (status : EdgeStatus) (d : Endpoint)
    (seen : Finset (Endpoint × UInt8)) (s : ServiceState) : Prop where
  configurationId : s.view.currentConfigurationId.2 = currentConfig
  present : s.view.isHostPresent d = decide (status = .down)
  unobserved : d ∉ (observersInFlux s.view d).2
  tracks : Tracks s.cutDetector ⟨seen, ∅⟩
  sole : ∀ p ∈ seen, p.1 = d
  low : tally seen d < s.cutDetector.h.toNat
  waiting : s.lifecycle ≠ .announcedProposal

variable {s : ServiceState} {seen : Finset (Endpoint × UInt8)} {msg : BatchedAlertMessage}

omit [Xxh64] in
theorem filterAlerts_valid {alerts : List AlertMessage} :
    ∀ s : ServiceState, (∀ alert ∈ alerts, s.isValidAlert alert currentConfig = true) →
      (filterAlerts currentConfig alerts s).2 = alerts := by
  induction alerts with
  | nil => exact fun _ _ => rfl
  | cons alert alerts ih =>
      intro s hvalid
      have hlearns : Learns s (s.extractJoiner alert) := extractJoiner_learns s alert
      have hrest : ∀ a ∈ alerts, (s.extractJoiner alert).isValidAlert a currentConfig = true := by
        intro a ha
        have hview : (s.extractJoiner alert).view = s.view := by
          rw [hlearns]
        have hsame : (s.extractJoiner alert).isValidAlert a currentConfig =
            s.isValidAlert a currentConfig := by
          simp only [isValidAlert, hview]
        rw [hsame]
        exact hvalid a (List.mem_cons_of_mem _ ha)
      simp only [filterAlerts, hvalid alert List.mem_cons_self, if_true, ih _ hrest]

theorem isValidAlert_about (h : Awaits currentConfig status d seen s) {alert : AlertMessage}
    {k : UInt8} (habout : alert.About currentConfig k status d) :
    s.isValidAlert alert currentConfig = true := by
  have hpresent := h.present
  unfold isValidAlert
  rw [if_neg (not_not.2 habout.configurationId), habout.edgeDst, habout.status]
  cases status with
  | up => simpa using hpresent
  | down => simpa using hpresent

/-- Refreshing the configuration id changes nothing that is waited for. -/
theorem Awaits.current (h : Awaits currentConfig status d seen s) :
    Awaits currentConfig status d seen s.configurationId.1 where
  configurationId := by
    show s.view.currentConfigurationId.1.currentConfigurationId.2 = currentConfig
    rw [MembershipView.currentConfigurationId_idem]
    exact h.configurationId
  present := by
    show s.view.currentConfigurationId.1.isHostPresent d = _
    rw [MembershipView.isHostPresent, MembershipView.shows_current.allNodes]
    exact h.present
  unobserved := by
    show d ∉ (observersInFlux s.view.currentConfigurationId.1 d).2
    rw [MembershipView.shows_current.observersInFlux]
    exact h.unobserved
  tracks := h.tracks
  sole := h.sole
  low := h.low
  waiting := h.waiting

/-- The member after a batch that completes no cut. -/
theorem Awaits.of_fills (h : Awaits currentConfig status d seen s) {t : ServiceState}
    {seen' : Finset (Endpoint × UInt8)} (hview : s.view.Fills t.view)
    (htracks : Tracks t.cutDetector ⟨seen', ∅⟩) (hsole : ∀ p ∈ seen', p.1 = d)
    (hlow : tally seen' d < t.cutDetector.h.toNat) (hlifecycle : t.lifecycle = s.lifecycle) :
    Awaits currentConfig status d seen' t where
  configurationId := hview.keeps.configurationId.trans h.configurationId
  present := by
    rw [MembershipView.isHostPresent, hview.allNodes]
    exact h.present
  unobserved := by
    rw [observersInFlux_fills hview]
    exact h.unobserved
  tracks := htracks
  sole := hsole
  low := hlow
  waiting := by
    rw [hlifecycle]
    exact h.waiting

theorem sortBySeedZero_singleton (d : Endpoint) : sortBySeedZero [d] = [d] := rfl

/-- One batch about `d`: it is proposed when its rings reach the high watermark. -/
theorem Awaits.handleBatchedAlerts (h : Awaits currentConfig status d seen s) (env : Environment)
    (habout : ∀ alert ∈ msg.messages, alert.About currentConfig s.cutDetector.k status d) :
    let seen' := addRings seen d (reportedRings msg.messages)
    let out := s.handleBatchedAlerts env msg
    (out.2 = [] ∧ tally seen' d < s.cutDetector.h.toNat ∧ Awaits currentConfig status d seen' out.1.1 ∧
        out.1.1.cutDetector.k = s.cutDetector.k ∧ out.1.1.cutDetector.h = s.cutDetector.h) ∨
      (out.2 = [d] ∧ s.cutDetector.h.toNat ≤ tally seen' d ∧
        out.1.1.lifecycle = .announcedProposal) := by
  intro seen' out
  have hcurrent := h.current
  have hid : s.configurationId.2 = currentConfig := h.configurationId
  have hvalid : ∀ alert ∈ msg.messages,
      s.configurationId.1.isValidAlert alert currentConfig = true :=
    fun alert halert => isValidAlert_about hcurrent (habout alert halert)
  have hlearns := filterAlerts_learns currentConfig msg.messages s.configurationId.1
  -- All alerts pass the filter.
  have hall := filterAlerts_valid s.configurationId.1 hvalid
  generalize hfiltered : filterAlerts currentConfig msg.messages s.configurationId.1 = filtered
    at hlearns hall
  have hdetector : filtered.1.cutDetector = s.cutDetector := by
    rw [hlearns]
    rfl
  have hview : filtered.1.view = s.configurationId.1.view := by
    rw [hlearns]
  have hlifecycle : filtered.1.lifecycle = s.lifecycle := by
    rw [hlearns]
    rfl
  -- The detector sees the rings of the batch, all of them about `d`.
  rcases @Tracks.aggregateAlerts d env.proposalOrder currentConfig status msg.messages s.cutDetector
    ⟨seen, ∅⟩ h.tracks habout with ⟨htracks, hemits, hk, hl, hh⟩
  have hsole : ∀ p ∈ seen', p.1 = d := by
    intro p hp
    rcases mem_addRings.1 hp with hold | hnew
    · exact h.sole p hold
    · exact hnew.1
  have hemitted := Cut.emitted_of_sole (l := s.cutDetector.l.toNat) s.cutDetector.l_pos
    s.cutDetector.h_pos hsole h.low
  rw [hemitted] at hemits
  generalize hagg : aggregateAlerts env.proposalOrder msg.messages s.cutDetector = aggregated
    at htracks hemits hk hl hh
  -- Implicit detection finds nothing.
  rcases invalidateFailingEdges_sole env.preProposalOrder env.proposalOrder
    (htracks.marked_sole hsole) hcurrent.unobserved with ⟨filled, hfills, hpass⟩
  have hcode : out =
      if (aggregated.2 ++ []).toFinset = ∅ then
        (({ filtered.1 with cutDetector := aggregated.1, view := filled }, []), [])
      else
        (({ filtered.1 with
            cutDetector := aggregated.1
            view := filled
            lifecycle := .announcedProposal },
          if filtered.1.proposalTx then [Effect.proposalSink (sortBySeedZero
            (env.emittedOrder.list (aggregated.2 ++ []).toFinset))] else []),
          sortBySeedZero (env.emittedOrder.list (aggregated.2 ++ []).toFinset)) := by
    have hwaiting : s.configurationId.1.lifecycle ≠ .announcedProposal := h.waiting
    show s.handleBatchedAlerts env msg = _
    unfold ServiceState.handleBatchedAlerts
    simp only [hid, hfiltered, hall, hdetector, hview, hagg, hpass, hwaiting, if_false]
  rw [List.append_nil, hemits] at hcode
  by_cases hhigh : s.cutDetector.h.toNat ≤ tally seen' d
  · refine .inr ⟨?_, hhigh, ?_⟩
    · simp [hcode, hhigh, HashOrder.list_singleton, sortBySeedZero_singleton]
    · simp [hcode, hhigh, HashOrder.list_singleton]
  · have hlow := Nat.not_le.1 hhigh
    have hout : out = (({ filtered.1 with cutDetector := aggregated.1, view := filled }, []), []) := by
      simp [hcode, hhigh]
    refine .inl ⟨?_, hlow, ?_, ?_, ?_⟩
    · rw [hout]
    · -- The watermark is not reached, so the cut goes on as it is.
      have hquiet : ¬ (⟨seen, ∅⟩ : Cut Endpoint UInt8).Fires s.cutDetector.l.toNat
          s.cutDetector.h.toNat d seen' := fun hfires => hhigh hfires.2.1
      have hwaits : Tracks aggregated.1 ⟨seen', ∅⟩ := by
        have hadvance : (⟨seen, ∅⟩ : Cut Endpoint UInt8).advance s.cutDetector.l.toNat
            s.cutDetector.h.toNat d seen' = ⟨seen', ∅⟩ := congrArg (Cut.mk seen') (if_neg hquiet)
        rw [← hadvance]
        exact htracks
      rw [hout]
      refine hcurrent.of_fills hfills hwaits hsole ?_ hlifecycle
      rw [hh]
      exact hlow
    · rw [hout]
      exact hk
    · rw [hout]
      exact hh

/-! ## Batch after batch -/

/-- What the calls return, one after the other. -/
def proposals : List (Environment × BatchedAlertMessage) → ServiceState → List (List Endpoint)
  | [], _ => []
  | (env, batch) :: calls, state =>
      let out := state.handleBatchedAlerts env batch
      out.2 :: proposals calls out.1.1

theorem handleBatchedAlerts_announced (env : Environment) (msg : BatchedAlertMessage)
    (h : s.lifecycle = .announcedProposal) :
    (s.handleBatchedAlerts env msg).2 = [] ∧
      (s.handleBatchedAlerts env msg).1.1.lifecycle = .announcedProposal := by
  rw [s.handleBatchedAlerts_of_announced env msg h]
  exact ⟨rfl, h⟩

theorem proposals_announced (calls : List (Environment × BatchedAlertMessage)) :
    ∀ s : ServiceState, s.lifecycle = .announcedProposal →
      (proposals calls s).filter (fun proposal => proposal ≠ []) = [] := by
  induction calls with
  | nil => exact fun _ _ => rfl
  | cons call calls ih =>
      intro s h
      rcases handleBatchedAlerts_announced call.1 call.2 h with ⟨hout, hstill⟩
      simpa [proposals, hout] using ih _ hstill

/-- The rings reported by all batches. -/
def deliveredRings (calls : List (Environment × BatchedAlertMessage)) : List UInt8 :=
  reportedRings (calls.flatMap fun call => call.2.messages)

/-- The node is proposed once, in the batch that reaches the high watermark. -/
theorem Awaits.proposals {k h : UInt8} (calls : List (Environment × BatchedAlertMessage)) :
    ∀ {s : ServiceState} {seen : Finset (Endpoint × UInt8)},
      Awaits currentConfig status d seen s → s.cutDetector.k = k → s.cutDetector.h = h →
      (∀ alert ∈ calls.flatMap fun call => call.2.messages, alert.About currentConfig k status d) →
        (proposals calls s).filter (fun proposal => proposal ≠ []) =
          if h.toNat ≤ tally (addRings seen d (deliveredRings calls)) d then [[d]] else [] := by
  induction calls with
  | nil =>
      rintro s seen hawaits rfl rfl _
      exact (if_neg (Nat.not_le.2 hawaits.low)).symm
  | cons call calls ih =>
      rintro s seen hawaits rfl rfl habout
      have hseen : addRings seen d (deliveredRings (call :: calls)) =
          addRings (addRings seen d (reportedRings call.2.messages)) d (deliveredRings calls) := by
        rw [← addRings_append]
        simp [deliveredRings, reportedRings]
      have hfirst : ∀ alert ∈ call.2.messages,
          alert.About currentConfig s.cutDetector.k status d := by
        intro alert halert
        exact habout alert (List.mem_flatMap.2 ⟨call, List.mem_cons_self, halert⟩)
      have hrest : ∀ alert ∈ calls.flatMap fun call => call.2.messages,
          alert.About currentConfig s.cutDetector.k status d := by
        intro alert halert
        rcases List.mem_flatMap.1 halert with ⟨call', hcall', halert'⟩
        exact habout alert (List.mem_flatMap.2 ⟨call', List.mem_cons_of_mem _ hcall', halert'⟩)
      rw [hseen]
      rcases hawaits.handleBatchedAlerts call.1 hfirst with
        ⟨hout, _, hawaits', hk, hh⟩ | ⟨hout, hhigh, hannounced⟩
      · have hlater := ih hawaits' hk hh hrest
        simpa [ServiceState.proposals, hout] using hlater
      · -- The cut is reached in this batch, and from then on the alerts are not looked at.
        have hlater := proposals_announced calls _ hannounced
        have hsub : addRings seen d (reportedRings call.2.messages) ⊆
            addRings (addRings seen d (reportedRings call.2.messages)) d (deliveredRings calls) :=
          subset_addRings
        have hmore := le_trans hhigh (tally_mono (d := d) hsub)
        simpa [ServiceState.proposals, hout, hmore] using hlater

/-! ## A fresh detector and all rings -/

theorem unobserved_member {v : MembershipView} (hv : viewSystem.Reaches CollidesNot v)
    (hd : d ∈ v.allNodes) : d ∉ (observersInFlux v d).2 := by
  have hvalid : v.Valid := .reaches (fun _ _ h => h) hv
  rw [observersInFlux_snd, if_pos hd]
  cases hcached : v.cachedObservers.lookup d with
  | some observers => exact MembershipView.NoSelfObserver.reaches hv d observers hcached
  | none => exact hvalid.notMem_computeObserversOf hd

theorem unobserved_joiner {v : MembershipView} (hvalid : v.Valid) (hd : d ∉ v.allNodes) :
    d ∉ (observersInFlux v d).2 := by
  rw [observersInFlux_snd, if_neg hd]
  exact fun hself => hd (hvalid.getExpectedObserversOf_subset d d hself)

omit [Xxh64] in
theorem le_tally_addRings {k : UInt8} {rings : List UInt8} (hall : ∀ ring < k, ring ∈ rings) :
    k.toNat ≤ tally (addRings ∅ d rings) d := by
  have htally : tally (addRings ∅ d rings) d = rings.toFinset.card := by
    apply tally_eq_card
    intro ring
    simp [mem_addRings]
  -- `k` is a `u8`, so the ring numbers below it are as well.
  have hcast : ∀ i < k.toNat, i.toUInt8.toNat = i := by
    intro i hi
    have hbound : k.toNat < 256 := k.toNat_lt
    exact UInt8.toNat_ofNat_of_lt' (lt_trans hi hbound)
  rw [htally]
  calc
    k.toNat = (Finset.range k.toNat).card := (Finset.card_range _).symm
    _ ≤ rings.toFinset.card := by
      refine Finset.card_le_card_of_injOn Nat.toUInt8 ?_ ?_
      · intro i hi
        have hi' := Finset.mem_range.1 hi
        refine List.mem_toFinset.2 (hall _ (UInt8.lt_iff_toNat_lt.2 ?_))
        rw [hcast i hi']
        exact hi'
      · intro i hi i' hi' heq
        have heq' := congrArg UInt8.toNat heq
        rw [hcast i (Finset.mem_range.1 hi), hcast i' (Finset.mem_range.1 hi')] at heq'
        exact heq'

/-- Every ring is reported about `d`, and nothing else is reported. -/
theorem proposals_of_complete {calls : List (Environment × BatchedAlertMessage)} (status : EdgeStatus)
    (hfresh : s.cutDetector.Fresh) (hk : s.cutDetector.k = s.view.k)
    (hwaiting : s.lifecycle ≠ .announcedProposal)
    (hpresent : s.view.isHostPresent d = decide (status = .down))
    (hunobserved : d ∉ (observersInFlux s.view d).2)
    (habout : ∀ alert ∈ calls.flatMap fun call => call.2.messages,
      alert.About s.view.currentConfigurationId.2 s.view.k status d)
    (hall : ∀ ring < s.view.k, ring ∈ deliveredRings calls) :
    (proposals calls s).filter (fun proposal => proposal ≠ []) = [[d]] := by
  have hawaits : Awaits s.view.currentConfigurationId.2 status d ∅ s :=
    { configurationId := rfl
      present := hpresent
      unobserved := hunobserved
      tracks := hfresh.tracks
      sole := fun p hp => absurd hp (Finset.notMem_empty p)
      low := s.cutDetector.h_pos
      waiting := hwaiting }
  have hhigh : s.cutDetector.h.toNat ≤ tally (addRings ∅ d (deliveredRings calls)) d :=
    calc
      s.cutDetector.h.toNat ≤ s.cutDetector.k.toNat := UInt8.le_iff_toNat_le.1 s.cutDetector.h_le_k
      _ = s.view.k.toNat := by rw [hk]
      _ ≤ tally (addRings ∅ d (deliveredRings calls)) d := le_tally_addRings hall
  rw [hawaits.proposals calls hk rfl habout, if_pos hhigh]

end ServiceState

/-! ## A fresh detector has announced nothing -/

namespace MultiNodeCutDetector

/-- Some report is recorded. -/
def Heard (cd : MultiNodeCutDetector) : Prop :=
  ∃ x ring, ring ∈ cd.reports x

omit [Xxh64] in
theorem Fresh.not_heard (h : Fresh cd) : ¬ Heard cd := by
  rintro ⟨x, ring, hring⟩
  exact Finset.notMem_empty _ ((h.tracks.rings x ring).2 hring)

/-- Either nothing happened, or a report was recorded. -/
def Hears (cd cd' : MultiNodeCutDetector) (out : List Endpoint) : Prop :=
  (cd' = cd ∧ out = []) ∨ Heard cd'

omit [Xxh64] in
theorem Hears.trans {cd₁ cd₂ : MultiNodeCutDetector} {out₁ out₂ : List Endpoint}
    (h : Hears cd cd₁ out₁) (h' : Hears cd₁ cd₂ out₂) : Hears cd cd₂ (out₁ ++ out₂) := by
  rcases h' with ⟨rfl, rfl⟩ | hheard
  · rw [List.append_nil]
    exact h
  · exact .inr hheard

omit [Xxh64] in
theorem hears_aggregateOne (cd : MultiNodeCutDetector) (order : HashOrder EndpointKey)
    (src d : Endpoint) (status : EdgeStatus) (ring : UInt8) (out : List Endpoint) :
    Hears cd (cd.aggregateOne order src d status ring).1 out :=
  .inr ⟨d, ring, mem_reports_aggregateOne cd order src d status ring⟩

omit [Xxh64] in
theorem hears_aggregate (order : HashOrder EndpointKey) (alert : AlertMessage) :
    Hears cd (cd.aggregate order alert).1 (cd.aggregate order alert).2 :=
  keeps_aggregate (I := Hears cd) order alert []
    (fun cd' _ src dst ring _ _ _ h => h.trans (hears_aggregateOne cd' order src dst _ ring _)) (.inl ⟨rfl, rfl⟩)

omit [Xxh64] in
theorem hears_aggregateAlerts (order : HashOrder EndpointKey) (alerts : List AlertMessage) :
    ∀ cd : MultiNodeCutDetector, Hears cd (ServiceState.aggregateAlerts order alerts cd).1
      (ServiceState.aggregateAlerts order alerts cd).2 := by
  induction alerts with
  | nil => exact fun cd => .inl ⟨rfl, rfl⟩
  | cons alert alerts ih => exact fun cd => (hears_aggregate order alert).trans (ih _)

/-- Implicit detection only counts what is in flux. -/
theorem hears_invalidateFailingEdges (preOrder order : HashOrder EndpointKey) (view : MembershipView) :
    Hears cd (cd.invalidateFailingEdges preOrder order view).1
      (cd.invalidateFailingEdges preOrder order view).2.2 :=
  keeps_invalidateFailingEdges (I := Hears cd) preOrder order
    (fun cd' _ x status observer _ _ _ h => h.trans (hears_aggregateOne cd' order observer x status _ _))
    (.inl ⟨rfl, rfl⟩)

end MultiNodeCutDetector

namespace ServiceState

variable {s t : ServiceState}

/-- An announced proposal goes back to reports. -/
def AnnouncesHeard (s : ServiceState) : Prop :=
  s.lifecycle = .announcedProposal → Heard s.cutDetector

theorem AnnouncesHeard.handleBatchedAlerts (h : AnnouncesHeard s) (env : Environment)
    (msg : BatchedAlertMessage) : AnnouncesHeard (s.handleBatchedAlerts env msg).1.1 := by
  have hlearns := filterAlerts_learns s.configurationId.2 msg.messages s.configurationId.1
  unfold ServiceState.handleBatchedAlerts
  dsimp only
  split
  · exact h
  · rename_i hwaiting
    generalize filterAlerts s.configurationId.2 msg.messages s.configurationId.1 = filtered
      at hlearns
    have hlifecycle : filtered.1.lifecycle = s.lifecycle := by
      rw [hlearns]
      rfl
    -- A proposal that is not empty means the detector has heard something.
    have hheard := (hears_aggregateAlerts env.proposalOrder filtered.2
      filtered.1.cutDetector).trans (hears_invalidateFailingEdges env.preProposalOrder
        env.proposalOrder filtered.1.view)
    split
    · intro hannounced
      exact absurd (hlifecycle.symm.trans hannounced) hwaiting
    · rename_i hproposal
      intro _
      rcases hheard with ⟨_, hnone⟩ | hheard
      · rw [hnone] at hproposal
        exact absurd rfl hproposal
      · exact hheard

omit [Xxh64] in
theorem AnnouncesHeard.congr (h : AnnouncesHeard s) (hlifecycle : t.lifecycle = s.lifecycle)
    (hdetector : t.cutDetector = s.cutDetector) : AnnouncesHeard t := by
  intro hannounced
  rw [hdetector]
  exact h (hlifecycle ▸ hannounced)

theorem AnnouncesHeard.move {env : Environment} {cmd : ServiceCommand} {effects : List Effect}
    (h : AnnouncesHeard s) (hmove : Move env cmd s effects t) : AnnouncesHeard t := by
  cases hmove with
  | calm hcalm => exact h.congr hcalm.quiet.lifecycle hcalm.quiet.cutDetector
  | initialView reply => exact h.congr rfl rfl
  | preJoin msg reply => exact h.congr rfl rfl
  | join msg reply =>
      have hparks := s.handleJoin_parks env msg reply
      exact h.congr hparks.lifecycle hparks.cutDetector
  | alerts msg => exact h.handleBatchedAlerts env msg
  | announce msg => exact (h.handleBatchedAlerts env msg).congr rfl rfl
  | message => exact h.congr rfl rfl
  | startClassic => exact h.congr rfl rfl
  | shutdown => exact fun hannounced => by cases hannounced

/-- In every run, a member with a fresh detector has no proposal announced. -/
theorem fresh_waits {guard : ServiceRun → Environment × ServiceCommand → Prop} {run : ServiceRun}
    (hrun : serviceSystem.Reaches guard run) (hfresh : run.state.cutDetector.Fresh) :
    run.state.lifecycle ≠ .announcedProposal := by
  have hguard : ∀ (run : ServiceRun) a, guard run a → ∀ e ∈ run.effects a.1 a.2, True :=
    fun _ _ _ _ _ => trivial
  have hheard : AnnouncesHeard run.state := by
    refine serviceSystem_invariant (I := fun _ s _ => AnnouncesHeard s) hguard ?_ ?_ ?_ ?_ hrun
    · intro outcome hboots hannounced
      rcases hboots.booted with ⟨_, _, _, _, _, _, _, _, _, _, hbooted⟩
      rw [hbooted.lifecycle] at hannounced
      cases hannounced
    · exact fun _ _ _ h => h
    · exact fun _ env cmd s es t trace _ h _ hmove => h.move hmove
    · intro _ env s proposal trace _ _ hannounced
      rw [decideAndReplace, (s.decideViewChange_decided env proposal).lifecycle] at hannounced
      cases hannounced
  exact fun hannounced => hfresh.not_heard (hheard hannounced)

end ServiceState

end Awaited

end Rapid
