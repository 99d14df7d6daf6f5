import Rapid.Service.KeptView
import Rapid.CutDetector.RingNumbers
import Rapid.View.NoRecurrence

/-!
# RealRings — which ring numbers count towards a proposal

`handle_batched_alerts` looks at the configuration id, the destination and the status of an alert, but
not at its ring numbers. While all ring numbers of accepted alerts lie in `0..K`, everything the
watermarks count is a ring. A number outside stops a debug build, or counts as a ring that does not
exist, or as one that was not named.
-/

namespace Rapid

open Foundations MultiNodeCutDetector

section RealRings

variable [Xxh64]

namespace ServiceState

/-! ## Accepted alerts -/

/-- The alerts of a batch that reach the detector. -/
def acceptedAlerts (s : ServiceState) (msg : BatchedAlertMessage) : List AlertMessage :=
  if s.configurationId.1.lifecycle = .announcedProposal then []
  else (filterAlerts s.configurationId.2 msg.messages s.configurationId.1).2

omit [Xxh64] in
/-- The ring numbers as they stand on the wire, each with its destination. -/
def wireReports (alerts : List AlertMessage) : List (Endpoint × Int32) :=
  alerts.flatMap fun alert =>
    match alert.edgeSrc, alert.edgeDst with
    | some _, some dst => alert.ringNumber.map fun n => (dst, n)
    | _, _ => []

omit [Xxh64] in
theorem mem_wireReports {alerts : List AlertMessage} {alert : AlertMessage} {src dst : Endpoint}
    {n : Int32} (halert : alert ∈ alerts) (hsrc : alert.edgeSrc = some src)
    (hdst : alert.edgeDst = some dst) (hn : n ∈ alert.ringNumber) : (dst, n) ∈ wireReports alerts := by
  refine List.mem_flatMap.2 ⟨alert, halert, ?_⟩
  simp [hsrc, hdst, hn]

/-! ## The debug build -/

omit [Xxh64] in
def aggregateAlertsDebug (order : HashOrder EndpointKey) :
    List AlertMessage → MultiNodeCutDetector → Option (MultiNodeCutDetector × List Endpoint)
  | [], detector => some (detector, [])
  | alert :: alerts, detector => do
      let first ← detector.aggregateDebug order alert
      let rest ← aggregateAlertsDebug order alerts first.1
      return (rest.1, first.2 ++ rest.2)

def handleBatchedAlertsDebug (state : ServiceState) (env : Environment) (batch : BatchedAlertMessage) :
    Option (Outcome × List Endpoint) :=
  let current := state.configurationId
  let state := current.1
  if state.lifecycle = .announcedProposal then some ((state, []), [])
  else do
    let valid := filterAlerts current.2 batch.messages state
    let state := valid.1
    let aggregated ← aggregateAlertsDebug env.proposalOrder valid.2 state.cutDetector
    let invalidated ← aggregated.1.invalidateFailingEdgesDebug env.preProposalOrder env.proposalOrder
      state.view
    let state := { state with cutDetector := invalidated.1, view := invalidated.2.1 }
    let proposal := (aggregated.2 ++ invalidated.2.2).toFinset
    if proposal = ∅ then return ((state, []), [])
    else
      let state := { state with lifecycle := LifecycleState.announcedProposal }
      let ordered := sortBySeedZero (env.emittedOrder.list proposal)
      return ((state, if state.proposalTx then [Effect.proposalSink ordered] else []), ordered)

variable {s : ServiceState} {k high : UInt8} {view : MembershipView}
  {reported : List (Endpoint × Int32)} {cd : MultiNodeCutDetector} {out : List Endpoint}

omit [Xxh64] in
theorem aggregateAlertsDebug_eq (order : HashOrder EndpointKey) {alerts : List AlertMessage}
    (hwire : ∀ p ∈ wireReports alerts, 0 ≤ p.2.toInt ∧ p.2.toInt < k.toNat) :
    ∀ {cd : MultiNodeCutDetector}, cd.k = k →
      aggregateAlertsDebug order alerts cd = some (aggregateAlerts order alerts cd) ∧
        (aggregateAlerts order alerts cd).1.k = k := by
  induction alerts with
  | nil => exact fun hk => ⟨rfl, hk⟩
  | cons alert alerts ih =>
      intro cd hk
      have hrings : alert.edgeSrc.isSome → alert.edgeDst.isSome → ∀ n ∈ alert.ringNumber, ringAsUInt8 n < k := by
        intro hsrc hdst n hn
        rcases Option.isSome_iff_exists.1 hsrc with ⟨src, hsrc⟩
        rcases Option.isSome_iff_exists.1 hdst with ⟨dst, hdst⟩
        have hrange := hwire _ (mem_wireReports List.mem_cons_self hsrc hdst hn)
        exact CutRun.ringAsUInt8_lt hrange.1 hrange.2
      rcases aggregateDebug_eq order hk hrings with ⟨hfirst, hk₁⟩
      have hrest := ih (fun p hp => hwire p (List.mem_append_right _ hp)) hk₁
      refine ⟨?_, hrest.2⟩
      simp [aggregateAlertsDebug, aggregateAlerts, hfirst, hrest.1]

theorem backed_aggregateAlerts (order : HashOrder EndpointKey) {alerts : List AlertMessage}
    (hwire : ∀ p ∈ wireReports alerts, p ∈ reported ∧ 0 ≤ p.2.toInt ∧ p.2.toInt < k.toNat) :
    ∀ {cd out}, Backed view reported k high cd out →
      Backed view reported k high (aggregateAlerts order alerts cd).1
        (out ++ (aggregateAlerts order alerts cd).2) := by
  induction alerts with
  | nil => exact fun hb => by simpa [aggregateAlerts] using hb
  | cons alert alerts ih =>
      intro cd out hb
      have hfirst := hb.aggregate order fun src dst hsrc hdst n hn =>
        hwire _ (mem_wireReports List.mem_cons_self hsrc hdst hn)
      have hrest := ih (fun p hp => hwire p (List.mem_append_right _ hp)) hfirst
      simpa [aggregateAlerts] using hrest

/-- What the detector makes of a batch: its next state, the view, and all that it emits. -/
def detected (s : ServiceState) (env : Environment) (msg : BatchedAlertMessage) :
    MultiNodeCutDetector × MembershipView × List Endpoint :=
  let aggregated := aggregateAlerts env.proposalOrder (s.acceptedAlerts msg) s.cutDetector
  let invalidated := aggregated.1.invalidateFailingEdges env.preProposalOrder env.proposalOrder
    s.configurationId.1.view
  (invalidated.1, invalidated.2.1, aggregated.2 ++ invalidated.2.2)

theorem handleBatchedAlerts_detected (env : Environment) (msg : BatchedAlertMessage)
    (h : s.configurationId.1.lifecycle ≠ .announcedProposal) :
    (s.handleBatchedAlerts env msg).1.1.cutDetector = (s.detected env msg).1 ∧
      (s.handleBatchedAlerts env msg).1.1.view = (s.detected env msg).2.1 ∧
      ∀ e ∈ (s.handleBatchedAlerts env msg).2, e ∈ (s.detected env msg).2.2 := by
  have hlearns := filterAlerts_learns s.configurationId.2 msg.messages s.configurationId.1
  have haccepted : s.acceptedAlerts msg =
      (filterAlerts s.configurationId.2 msg.messages s.configurationId.1).2 := if_neg h
  unfold handleBatchedAlerts detected
  dsimp only
  rw [haccepted, if_neg h]
  generalize filterAlerts s.configurationId.2 msg.messages s.configurationId.1 = filtered at hlearns ⊢
  have hdetector : filtered.1.cutDetector = s.cutDetector := by rw [hlearns]; rfl
  have hview : filtered.1.view = s.configurationId.1.view := by rw [hlearns]
  rw [hdetector, hview]
  split
  · exact ⟨rfl, rfl, fun e he => by cases he⟩
  · refine ⟨rfl, rfl, fun e he => ?_⟩
    have hsorted := (List.mem_insertionSort _).1 he
    simpa using hsorted

/-- Where the assertions hold, the debug build does what the release build does. -/
theorem handleBatchedAlertsDebug_eq (env : Environment) (msg : BatchedAlertMessage)
    (hk : s.cutDetector.k = s.view.k) (hfits : s.view.CacheFits)
    (hwire : ∀ p ∈ wireReports (s.acceptedAlerts msg), 0 ≤ p.2.toInt ∧ p.2.toInt < s.cutDetector.k.toNat) :
    s.handleBatchedAlertsDebug env msg = some (s.handleBatchedAlerts env msg) := by
  unfold handleBatchedAlertsDebug handleBatchedAlerts
  dsimp only
  split
  · rfl
  · rename_i hwaiting
    have haccepted : s.acceptedAlerts msg =
        (filterAlerts s.configurationId.2 msg.messages s.configurationId.1).2 := if_neg hwaiting
    rw [haccepted] at hwire
    have hlearns := filterAlerts_learns s.configurationId.2 msg.messages s.configurationId.1
    generalize filterAlerts s.configurationId.2 msg.messages s.configurationId.1 = filtered
      at hlearns hwire ⊢
    have hdetector : filtered.1.cutDetector = s.cutDetector := by rw [hlearns]; rfl
    have hview : s.view.Shows filtered.1.view := by
      rw [hlearns]
      exact MembershipView.shows_current
    -- A list of observers has one entry for each ring, so `i as u8` does not wrap.
    have hobservers : ∀ x, (observersInFlux filtered.1.view x).2.length ≤ s.cutDetector.k.toNat := by
      intro x
      rw [hview.observersInFlux, hk]
      exact hfits.length_le x
    rcases aggregateAlertsDebug_eq env.proposalOrder hwire (congrArg MultiNodeCutDetector.k hdetector)
      with ⟨haggregated, hk'⟩
    have hinvalidated := invalidateFailingEdgesDebug_eq env.preProposalOrder env.proposalOrder hk' hobservers
    simp only [haggregated, hinvalidated, Option.bind_eq_bind, Option.bind_some]
    split
    · rfl
    · rfl

end ServiceState

/-! ## Lists of observers that fit the rings -/

section Fits

variable {k : UInt8} {v w : MembershipView} {s t : ServiceState} {nodes : List Endpoint}
  {delta : List NodeStatusChange}

/-- There is a ring for every observer that implicit detection may number. -/
structure MembershipView.Fitted (v : MembershipView) (k : UInt8) : Prop where
  k_eq : v.k = k
  fits : v.CacheFits

namespace MembershipView

theorem Fitted.applyAll (h : v.Fitted k) (ops : List ViewOp) : (v.applyAll ops).Fitted k := by
  induction ops generalizing v with
  | nil => exact h
  | cons op ops ih => exact ih ⟨(v.k_apply op).trans h.k_eq, h.fits.apply op⟩

theorem Fitted.refreshes (h : v.Fitted k) (hw : v.Refreshes w) : w.Fitted k := by
  rcases hw with rfl | rfl
  · exact h
  · exact h.applyAll [.currentConfigurationId]

theorem Fitted.fills (h : v.Fitted k) (hw : v.Fills w) : w.Fitted k :=
  ⟨hw.keeps.k.trans h.k_eq, h.fits.fills hw⟩

theorem Fitted.bootstrap {identifiers : List NodeId} {endpoints : List Endpoint}
    (h : MembershipView.bootstrap k identifiers endpoints = .ok v) : v.Fitted k :=
  ⟨(bootstrap_holds h).1, .of_empty (cachedObservers_bootstrap h)⟩

end MembershipView

/-- The loop of a decision works on the view by its operations. -/
theorem NodeStep.view {node : Endpoint} (h : NodeStep node s t delta) :
    ∃ ops, t.view = s.view.applyAll ops := by
  cases h with
  | removed hmember hring =>
      refine ⟨[.ringDelete node], ?_⟩
      simp [MembershipView.applyAll, MembershipView.apply, MembershipView.ringDelete, hring]
  | stuck => exact ⟨[], rfl⟩
  | unknown => exact ⟨[], rfl⟩
  | rejected => exact ⟨[], rfl⟩
  | admitted nodeId habsent hlookup hid hring =>
      refine ⟨[.ringAdd node nodeId], ?_⟩
      simp [MembershipView.applyAll, MembershipView.apply, MembershipView.ringAdd, hid, hring]

theorem NodeSteps.view (h : NodeSteps nodes s t delta) : ∃ ops, t.view = s.view.applyAll ops := by
  induction h with
  | nil s => exact ⟨[], rfl⟩
  | cons hstep _ ih =>
      rcases hstep.view with ⟨ops, hops⟩
      rcases ih with ⟨more, hmore⟩
      refine ⟨ops ++ more, ?_⟩
      rw [hmore, hops, MembershipView.applyAll, MembershipView.applyAll, MembershipView.applyAll,
        List.foldl_append]

theorem MembershipView.Fitted.decide (h : s.view.Fitted k) (env : Environment) (proposal : List Endpoint) :
    (s.decideAndReplace env proposal).1.view.Fitted k := by
  rcases (applyNodes_steps proposal s.cancelFailureDetectors.1).view with ⟨ops, hops⟩
  have happlied : (s.appliedTo proposal).1.view.Fitted k := hops ▸ h.applyAll ops
  exact happlied.refreshes (s.decideViewChange_decided env proposal).view

end Fits

/-! ## Runs of batches and decisions -/

/-- The actor, and the ring numbers that it accepted since its last decision. -/
structure AlertRun where
  state : ServiceState
  reported : List (Endpoint × Int32)

inductive AlertStep
  | batch (env : Environment) (msg : BatchedAlertMessage)
  | decide (env : Environment) (proposal : List Endpoint)
  | meanwhile (next : ServiceState)

def alertSystem : System AlertRun AlertStep where
  init run := ∃ outcome, Boots outcome ∧ run = ⟨outcome.1, []⟩
  step run a :=
    match a with
    | .batch env msg => some ⟨(run.state.handleBatchedAlerts env msg).1.1,
        run.reported ++ ServiceState.wireReports (run.state.acceptedAlerts msg)⟩
    | .decide env proposal => some ⟨(run.state.decideAndReplace env proposal).1, []⟩
    | .meanwhile next => some ⟨next, run.reported⟩

/-- Between batches and decisions the detector is left alone. -/
def Framed (run : AlertRun) : AlertStep → Prop
  | .meanwhile next => run.state.view.Refreshes next.view ∧ next.cutDetector = run.state.cutDetector
  | _ => True

/-- The ring numbers that a batch brings in are numbers of rings. -/
def InRange (run : AlertRun) : AlertStep → Prop
  | .batch _ msg => ∀ p ∈ ServiceState.wireReports (run.state.acceptedAlerts msg),
      0 ≤ p.2.toInt ∧ p.2.toInt < run.state.cutDetector.k.toNat
  | .decide _ _ => True
  | .meanwhile next => Framed run (.meanwhile next)

/-! ### Every run of the actor is such a run -/

/-- A move handles a batch or leaves the detector alone. -/
theorem Move.batched {env : Environment} {cmd : ServiceCommand} {s t : ServiceState}
    {effects : List Effect} (h : Move env cmd s effects t) :
    (s.view.Refreshes t.view ∧ t.cutDetector = s.cutDetector) ∨
      ∃ msg, t.view = (s.handleBatchedAlerts env msg).1.1.view ∧
        t.cutDetector = (s.handleBatchedAlerts env msg).1.1.cutDetector := by
  cases h with
  | calm hcalm => exact .inl ⟨hcalm.quiet.view, hcalm.quiet.cutDetector⟩
  | initialView reply => exact .inl ⟨.current _, rfl⟩
  | preJoin msg reply => exact .inl ⟨.current _, rfl⟩
  | join msg reply =>
      have hparks := s.handleJoin_parks env msg reply
      exact .inl ⟨hparks.view, hparks.cutDetector⟩
  | alerts msg => exact .inr ⟨msg, rfl, rfl⟩
  | announce msg => exact .inr ⟨msg, rfl, rfl⟩
  | message => exact .inl ⟨.refl _, rfl⟩
  | startClassic => exact .inl ⟨.refl _, rfl⟩
  | shutdown => exact .inl ⟨.refl _, rfl⟩

theorem alertSystem_covers {guard : ServiceRun → Environment × ServiceCommand → Prop} {run : ServiceRun}
    (hrun : serviceSystem.Reaches guard run) :
    ∃ reported, alertSystem.Reaches Framed ⟨run.state, reported⟩ := by
  have hguard : ∀ (run : ServiceRun) a, guard run a → ∀ e ∈ run.effects a.1 a.2, True :=
    fun _ _ _ _ _ => trivial
  refine serviceSystem_invariant
    (I := fun _ s _ => ∃ reported, alertSystem.Reaches Framed ⟨s, reported⟩) hguard ?_ ?_ ?_ ?_ hrun
  · exact fun outcome hboots => ⟨[], .start ⟨outcome, hboots, rfl⟩⟩
  · exact fun _ _ _ h => h
  · rintro _ env cmd s es t _ _ ⟨reported, hs⟩ _ hmove
    rcases hmove.batched with ⟨hview, hdetector⟩ | ⟨msg, hview, hdetector⟩
    · exact ⟨reported, .step (a := .meanwhile t) hs ⟨hview, hdetector⟩ rfl⟩
    · -- The batch, and then what the announcement adds.
      have hbatch : alertSystem.Reaches Framed ⟨(s.handleBatchedAlerts env msg).1.1,
          reported ++ ServiceState.wireReports (s.acceptedAlerts msg)⟩ :=
        .step (a := .batch env msg) hs trivial rfl
      exact ⟨_, .step (a := .meanwhile t) hbatch ⟨hview ▸ .refl _, hdetector⟩ rfl⟩
  · rintro _ env s proposal _ ⟨reported, hs⟩ _
    exact ⟨[], .step (a := .decide env proposal) hs trivial rfl⟩

/-! ## What the detector has counted -/

/-- The detector of a run has counted ring numbers of accepted alerts, and rings. -/
structure AlertRun.Grounded (run : AlertRun) : Prop where
  backed : Backed run.state.view run.reported run.state.cutDetector.k run.state.cutDetector.h
    run.state.cutDetector []
  fitted : run.state.view.Fitted run.state.cutDetector.k
  range : ∀ p ∈ run.reported, 0 ≤ p.2.toInt ∧ p.2.toInt < run.state.cutDetector.k.toNat

namespace AlertRun

variable {run : AlertRun} {env : Environment} {msg : BatchedAlertMessage}

/-- What the actor knows after a batch is backed by the rings reported until then. -/
theorem Grounded.counted (h : run.Grounded) (hrange : InRange run (.batch env msg)) :
    Backed run.state.view (run.reported ++ ServiceState.wireReports (run.state.acceptedAlerts msg))
      run.state.cutDetector.k run.state.cutDetector.h
      (run.state.handleBatchedAlerts env msg).1.1.cutDetector
      (run.state.handleBatchedAlerts env msg).2 := by
  -- After the announcement the alerts are dropped and nothing is counted.
  by_cases hannounced : run.state.lifecycle = .announcedProposal
  · rw [run.state.handleBatchedAlerts_of_announced env msg hannounced]
    exact h.backed.congr (fun _ => rfl) fun p hp => List.mem_append_left _ hp
  · have hshows : run.state.view.Shows run.state.configurationId.1.view := MembershipView.shows_current
    have hbefore : Backed run.state.configurationId.1.view
        (run.reported ++ ServiceState.wireReports (run.state.acceptedAlerts msg))
        run.state.cutDetector.k run.state.cutDetector.h run.state.cutDetector [] :=
      h.backed.congr hshows.observersInFlux fun p hp => List.mem_append_left _ hp
    have haggregated := ServiceState.backed_aggregateAlerts env.proposalOrder
      (fun p hp => ⟨List.mem_append_right _ hp, hrange p hp⟩) hbefore
    have hfits : ∀ x, (observersInFlux run.state.configurationId.1.view x).2.length ≤
        run.state.cutDetector.k.toNat := by
      intro x
      rw [hshows.observersInFlux, ← h.fitted.k_eq]
      exact h.fitted.fits.length_le x
    have hinvalidated := haggregated.invalidateFailingEdges env.preProposalOrder env.proposalOrder hfits
    rcases run.state.handleBatchedAlerts_detected env msg hannounced with ⟨hdetector, _, hout⟩
    rw [hdetector]
    exact (hinvalidated.congr (fun x => (hshows.observersInFlux x).symm) fun p hp => hp).emitted hout

/-- The step lemma. -/
theorem Grounded.step {a : AlertStep} {run' : AlertRun} (h : run.Grounded) (hok : InRange run a)
    (hstep : alertSystem.step run a = some run') : run'.Grounded := by
  cases a with
  | batch env msg =>
      cases hstep
      -- The batch ends in the state that `counted` describes.
      have hcounted := h.counted hok
      have hfills := run.state.handleBatchedAlerts_fills env msg
      have hshows : run.state.view.Shows run.state.configurationId.1.view := MembershipView.shows_current
      refine ⟨?_, ?_, ?_⟩
      · rw [hcounted.k_eq, hcounted.h_eq]
        refine (hcounted.emitted fun d hd => by cases hd).congr (fun x => ?_) fun p hp => hp
        rw [observersInFlux_fills hfills]
        exact hshows.observersInFlux x
      · rw [hcounted.k_eq]
        exact (h.fitted.refreshes (.current _)).fills hfills
      · rw [hcounted.k_eq]
        intro p hp
        rcases List.mem_append.1 hp with hold | hnew
        · exact h.range p hold
        · exact hok p hnew
  | decide env proposal =>
      cases hstep
      -- A decision clears the detector and starts a new cache.
      have hdecided := run.state.decideViewChange_decided env proposal
      have hdetector : (run.state.decideAndReplace env proposal).1.cutDetector =
          run.state.cutDetector.clear := hdecided.cutDetector
      refine ⟨?_, ?_, fun p hp => by cases hp⟩
      · rw [hdetector]
        exact .of_fresh (.inr ⟨_, rfl⟩)
      · rw [hdetector]
        exact h.fitted.decide env proposal
  | meanwhile next =>
      cases hstep
      rcases hok with ⟨hview, hdetector⟩
      refine ⟨?_, ?_, ?_⟩
      · rw [hdetector]
        exact h.backed.congr hview.shows.observersInFlux fun p hp => hp
      · rw [hdetector]
        exact h.fitted.refreshes hview
      · rw [hdetector]
        exact h.range

end AlertRun

/-- The invariant rule, from the actor that the builder leaves to any run. -/
theorem AlertRun.Grounded.reaches {run : AlertRun} (h : alertSystem.Reaches InRange run) :
    run.Grounded := by
  refine h.invariant ?_ fun run a run' _ hrun hok hstep => hrun.step hok hstep
  -- `start` and `join` end in the same way.
  have hbooted : ∀ {settings : Settings} {view : MembershipView} {detector : MultiNodeCutDetector}
      {identifiers : List NodeId} {endpoints : List Endpoint} {outcome : Outcome},
      MembershipView.bootstrap settings.k identifiers endpoints = .ok view →
        MultiNodeCutDetector.new settings.k settings.h settings.l = .ok detector →
          Booted view detector outcome → AlertRun.Grounded ⟨outcome.1, []⟩ := by
    intro settings view detector identifiers endpoints outcome hview hdetector hbooted
    have hsame : outcome.1.cutDetector = detector := hbooted.cutDetector
    have hk : detector.k = settings.k := k_of_new hdetector
    refine ⟨?_, ?_, fun p hp => by cases hp⟩
    · rw [hsame]
      exact .of_fresh (.inl ⟨_, _, _, hdetector⟩)
    · rw [hsame, hk]
      exact (MembershipView.Fitted.bootstrap hview).refreshes hbooted.view
  rintro run ⟨outcome, hboots, rfl⟩
  rcases hboots with ⟨settings, listen, own, nodeId, hstart⟩ | ⟨settings, listen, own, response, hjoin⟩
  · rcases ServiceState.start_booted hstart with ⟨view, detector, hview, hdetector, houtcome⟩
    exact hbooted hview hdetector houtcome
  · rcases ServiceState.join_booted hjoin with ⟨view, detector, hview, hdetector, houtcome⟩
    exact hbooted hview hdetector houtcome

/-! ## Only rings count -/

/-- What a batch does to the rings counted: the assertions hold, the keys stored are rings, different ring
numbers stay different, and whoever is proposed was reported on `H` rings. -/
structure CountsRings (run : AlertRun) (env : Environment) (msg : BatchedAlertMessage) : Prop where
  asserts : run.state.handleBatchedAlertsDebug env msg = some (run.state.handleBatchedAlerts env msg)
  below : ∀ d, ∀ r ∈ (run.state.handleBatchedAlerts env msg).1.1.cutDetector.reports d,
    r < run.state.cutDetector.k
  distinct : ∀ d n m,
    (d, n) ∈ run.reported ++ ServiceState.wireReports (run.state.acceptedAlerts msg) →
      (d, m) ∈ run.reported ++ ServiceState.wireReports (run.state.acceptedAlerts msg) →
        ringAsUInt8 n = ringAsUInt8 m → n = m
  proposed : ∀ d ∈ (run.state.handleBatchedAlerts env msg).2, ∃ rings : Finset Nat,
    run.state.cutDetector.h.toNat ≤ rings.card ∧
      ∀ r ∈ rings, r < run.state.cutDetector.k.toNat ∧
        ReportedOn (run.state.handleBatchedAlerts env msg).1.1.cutDetector run.state.view
          (run.reported ++ ServiceState.wireReports (run.state.acceptedAlerts msg)) d r

/-- While the accepted ring numbers are numbers of rings, nothing but rings is stored, and every further
such batch counts rings only. -/
theorem realRings_count {run : AlertRun} (h : alertSystem.Reaches InRange run) :
    (∀ d, ∀ r ∈ run.state.cutDetector.reports d, r < run.state.cutDetector.k) ∧
      ∀ env msg, InRange run (.batch env msg) → CountsRings run env msg := by
  have hrun := AlertRun.Grounded.reaches h
  refine ⟨hrun.backed.below, fun env msg hrange => ?_⟩
  have hcounted := hrun.counted hrange
  have hreal : ∀ p ∈ run.reported ++ ServiceState.wireReports (run.state.acceptedAlerts msg),
      0 ≤ p.2.toInt ∧ p.2.toInt < run.state.cutDetector.k.toNat := by
    intro p hp
    rcases List.mem_append.1 hp with hold | hnew
    · exact hrun.range p hold
    · exact hrange p hnew
  refine ⟨?_, hcounted.below, ?_, fun d hd => hcounted.highRings hd⟩
  · exact ServiceState.handleBatchedAlertsDebug_eq env msg hrun.fitted.k_eq.symm hrun.fitted.fits hrange
  · intro d n m hn hm hcast
    have hk : run.state.cutDetector.k.toNat < 256 := run.state.cutDetector.k.toNat_lt
    have hn := hreal _ hn
    have hm := hreal _ hm
    have hn' := CutRun.toNat_ringAsUInt8 hn.1 (by omega)
    have hm' := CutRun.toNat_ringAsUInt8 hm.1 (by omega)
    -- Both numbers are the byte that the cast keeps.
    refine Int32.toInt.inj ?_
    rw [← hn', ← hm', hcast]

end RealRings

/-! ### Ring numbers of rings, and others -/

section Sample

attribute [local instance] xxh64Reference

/-- `hostA` alone, with three rings that are all needed. -/
def lonelyHost : Option ServiceState :=
  ServiceState.sampleCluster 3 1 [⟨1, 1⟩] [hostA]

/-- An alert that `hostB` joins, with these ring numbers. -/
def joinBatch (state : ServiceState) (rings : List Int32) : BatchedAlertMessage where
  sender := some hostC
  messages := [state.sampleAlert .up rings hostB (some ⟨2, 2⟩)]

theorem lonelyHost_reaches {state : ServiceState} (h : lonelyHost = some state) :
    alertSystem.Reaches InRange ⟨state, []⟩ := by
  rcases sampleCluster_boots h with ⟨effects, _, _, hboots, _⟩
  exact .start ⟨_, hboots, rfl⟩

theorem lonelyHost_facts :
    (lonelyHost.map fun state => (state.cutDetector.k, state.cutDetector.h,
      ServiceState.wireReports (state.acceptedAlerts (joinBatch state [2, 0, 1])),
      (state.handleBatchedAlerts ServiceState.sampleEnvironment (joinBatch state [2, 0, 1])).2)) =
      some (3, 3, [(hostB, 2), (hostB, 0), (hostB, 1)], [hostB]) := by
  decide +kernel

/-- Three rings are reported, and `hostB` is proposed from them. -/
theorem threeRings_count :
    ∃ state, lonelyHost = some state ∧
      (state.handleBatchedAlerts ServiceState.sampleEnvironment (joinBatch state [2, 0, 1])).2 = [hostB] ∧
      CountsRings ⟨state, []⟩ ServiceState.sampleEnvironment (joinBatch state [2, 0, 1]) := by
  rcases Option.map_eq_some_iff.1 lonelyHost_facts with ⟨state, hstate, hfacts⟩
  simp only [Prod.mk.injEq] at hfacts
  rcases hfacts with ⟨hk, _, hwire, hout⟩
  have hrange : InRange ⟨state, []⟩ (.batch ServiceState.sampleEnvironment (joinBatch state [2, 0, 1])) := by
    intro p hp
    rw [hwire] at hp
    have hall : ∀ p ∈ [(hostB, (2 : Int32)), (hostB, 0), (hostB, 1)],
        0 ≤ p.2.toInt ∧ p.2.toInt < 3 := by
      decide +kernel
    rw [hk]
    exact hall p hp
  exact ⟨state, hstate, hout, (realRings_count (lonelyHost_reaches hstate)).2 _ _ hrange⟩

/-- The debug build does not survive the batch. -/
def panics (state : ServiceState) (rings : List Int32) : Bool :=
  (state.handleBatchedAlertsDebug ServiceState.sampleEnvironment (joinBatch state rings)).isNone

theorem outOfRange_facts :
    (lonelyHost.map fun state => (state.cutDetector.k, panics state [3, 4, 5],
      (state.handleBatchedAlerts ServiceState.sampleEnvironment (joinBatch state [3, 4, 5])).2,
      decide (3 ∈ (state.handleBatchedAlerts ServiceState.sampleEnvironment
        (joinBatch state [3, 4, 5])).1.1.cutDetector.reports hostB))) =
      some (3, true, [hostB], true) := by
  decide +kernel

/-- 256 and its successors pass the assertion as 0, 1 and 2. -/
theorem wrapped_facts :
    (lonelyHost.map fun state => (panics state [256, 257, 258],
      (state.handleBatchedAlerts ServiceState.sampleEnvironment (joinBatch state [256, 257, 258])).2,
      ServiceState.wireReports (state.acceptedAlerts (joinBatch state [256, 257, 258])))) =
      some (false, [hostB], [(hostB, 256), (hostB, 257), (hostB, 258)]) := by
  decide +kernel

theorem wrapped_unobserved :
    (lonelyHost.map fun state =>
      let after := (state.handleBatchedAlerts ServiceState.sampleEnvironment
        (joinBatch state [256, 257, 258])).1.1.cutDetector
      (state.cutDetector.k, state.cutDetector.h, (observersInFlux state.view hostB).2,
        decide (after.l.toNat ≤ after.count hostA))) = some (3, 3, [hostA, hostA, hostA], false) := by
  decide +kernel

/-- `hostB` is proposed from rings that do not exist: the debug build stops at 3, the release build stores
it, and neither notices 256. -/
theorem outOfRange_counted :
    ∃ state, lonelyHost = some state ∧ alertSystem.Reaches InRange ⟨state, []⟩ ∧
      (panics state [3, 4, 5] = true ∧
        (state.handleBatchedAlerts ServiceState.sampleEnvironment (joinBatch state [3, 4, 5])).2 = [hostB] ∧
        ¬ CountsRings ⟨state, []⟩ ServiceState.sampleEnvironment (joinBatch state [3, 4, 5])) ∧
      panics state [256, 257, 258] = false ∧
      (state.handleBatchedAlerts ServiceState.sampleEnvironment (joinBatch state [256, 257, 258])).2 =
        [hostB] ∧
      ¬ CountsRings ⟨state, []⟩ ServiceState.sampleEnvironment (joinBatch state [256, 257, 258]) := by
  rcases Option.map_eq_some_iff.1 outOfRange_facts with ⟨state, hstate, hfacts⟩
  simp only [Prod.mk.injEq, decide_eq_true_eq] at hfacts
  rcases hfacts with ⟨hk, hpanics, hout, hstored⟩
  have hwrapped := wrapped_facts
  have hunobserved := wrapped_unobserved
  rw [hstate] at hwrapped hunobserved
  simp only [Option.map_some, Option.some.injEq, Prod.mk.injEq, decide_eq_false_iff_not] at hwrapped hunobserved
  rcases hwrapped with ⟨hpasses, hproposed, hwire⟩
  rcases hunobserved with ⟨_, hh, hobservers, hlow⟩
  refine ⟨state, hstate, lonelyHost_reaches hstate, ⟨hpanics, hout, fun hcounts => ?_⟩, hpasses,
    hproposed, fun hcounts => ?_⟩
  · -- Key 3 is stored.
    have hbelow : (3 : UInt8) < state.cutDetector.k := hcounts.below hostB 3 hstored
    rw [hk] at hbelow
    revert hbelow
    decide
  · rcases hcounts.proposed hostB (hproposed ▸ List.mem_singleton.2 rfl) with ⟨rings, hcard, hrings⟩
    -- No ring below 3 was reported, on the wire or by an observer.
    have hnone : rings = ∅ := by
      refine Finset.eq_empty_of_forall_notMem fun r hr => ?_
      rcases hrings r hr with ⟨hlt, ⟨n, hn, heq⟩ | ⟨observer, hlisted, hhigh⟩⟩
      · have hall : ∀ p ∈ [(hostB, (256 : Int32)), (hostB, 257), (hostB, 258)], 256 ≤ p.2.toInt := by
          decide +kernel
        have hbig : 256 ≤ n.toInt := hall (hostB, n) (hwire ▸ hn)
        rw [hk] at hlt
        have hsmall : r < 3 := hlt
        omega
      · have hmem : observer ∈ [hostA, hostA, hostA] := by
          rw [← hobservers]
          exact List.mem_of_getElem? hlisted
        have hsame : observer = hostA := by simpa using hmem
        exact hlow (hsame ▸ hhigh)
    rw [hnone, hh] at hcard
    revert hcard
    decide

end Sample

end Rapid
