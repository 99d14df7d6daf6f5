import Rapid.Service.ServiceSystem
import Rapid.CutDetector.ImplicitDetection

/-!
# StaleAlerts — alerts that are not about the configuration

A batch without a valid alert still runs implicit detection. In every state of a run the previous
batch has already brought the detector to the fixed point, so such a batch leaves the actor as it
is; only the observers that were looked up are remembered.
-/

namespace Rapid

open Foundations MultiNodeCutDetector

section Stale

variable [Xxh64]

namespace ServiceState

/-- The alert says nothing about the current configuration. -/
def Stale (s : ServiceState) (alert : AlertMessage) : Prop :=
  alert.configurationId ≠ s.view.currentConfigurationId.2 ∨ alert.edgeDst = none ∨
    (∃ dst, alert.edgeDst = some dst ∧ statusOf alert = .up ∧ dst ∈ s.view.allNodes) ∨
    ∃ dst, alert.edgeDst = some dst ∧ statusOf alert = .down ∧ dst ∉ s.view.allNodes

/-- Both passes of implicit detection are behind the actor, and its configuration id is up to
date. -/
structure Settled (s : ServiceState) : Prop where
  clean : s.view.currentConfigurationId.1 = s.view
  balanced : Balanced s.cutDetector
  implied : s.cutDetector.seenLinkDownEvents = true → Implied s.cutDetector s.view

variable {s t : ServiceState}

theorem Settled.congr (h : Settled s) (hview : t.view = s.view)
    (hdetector : t.cutDetector = s.cutDetector) : Settled t where
  clean := by
    rw [hview]
    exact h.clean
  balanced := by
    rw [hdetector]
    exact h.balanced
  implied := by
    rw [hview, hdetector]
    exact h.implied

theorem Settled.quiet (h : Settled s) (hquiet : Quiet s t) : Settled t :=
  h.congr (hquiet.view.of_clean h.clean) hquiet.cutDetector

theorem Settled.configurationId (h : Settled s) : s.configurationId.1 = s := by
  rw [ServiceState.configurationId, h.clean]

/-! ## Batches -/

omit [Xxh64] in
theorem balanced_aggregateAlerts (order : HashOrder EndpointKey) (alerts : List AlertMessage) :
    ∀ cd : MultiNodeCutDetector, Balanced cd → Balanced (aggregateAlerts order alerts cd).1 := by
  induction alerts with
  | nil => exact fun cd hb => hb
  | cons alert alerts ih =>
      intro cd hb
      exact ih _ (hb.aggregate order alert)

theorem clean_of_fills {v w : MembershipView} (h : v.Fills w)
    (hclean : v.currentConfigurationId.1 = v) : w.currentConfigurationId.1 = w := by
  have hdirty : v.configurationDirty = false := by
    rcases v.currentConfigurationId_cases with ⟨_, hfresh⟩ | ⟨hdirty, _⟩
    · rw [← hclean, hfresh]
    · exact hdirty
  have hdirty' : w.configurationDirty = false := by
    rw [h.same]
    exact hdirty
  unfold MembershipView.currentConfigurationId
  rw [hdirty']
  rfl

/-- Every batch ends with a pass of implicit detection. -/
theorem Settled.handleBatchedAlerts (h : Settled s) (env : Environment)
    (msg : BatchedAlertMessage) : Settled (s.handleBatchedAlerts env msg).1.1 := by
  have hlearns := filterAlerts_learns s.configurationId.2 msg.messages s.configurationId.1
  rw [h.configurationId] at hlearns
  generalize hfiltered : filterAlerts s.configurationId.2 msg.messages s = filtered at hlearns
  have hbalanced := balanced_aggregateAlerts env.proposalOrder filtered.2 filtered.1.cutDetector
    (by rw [hlearns]; exact h.balanced)
  rcases invalidateFailingEdges_pass env.preProposalOrder env.proposalOrder filtered.1.view
    hbalanced with ⟨hbalanced', hfills, himplied⟩
  have hclean : filtered.1.view.currentConfigurationId.1 = filtered.1.view := by
    rw [hlearns]
    exact h.clean
  -- Both ways out, with a proposal and without one, end in a settled state.
  have hsettled : ∀ lifecycle, Settled { filtered.1 with
      cutDetector := ((aggregateAlerts env.proposalOrder filtered.2
        filtered.1.cutDetector).1.invalidateFailingEdges env.preProposalOrder env.proposalOrder
          filtered.1.view).1
      view := ((aggregateAlerts env.proposalOrder filtered.2
        filtered.1.cutDetector).1.invalidateFailingEdges env.preProposalOrder env.proposalOrder
          filtered.1.view).2.1
      lifecycle := lifecycle } :=
    fun _ => ⟨clean_of_fills hfills hclean, hbalanced', himplied⟩
  unfold ServiceState.handleBatchedAlerts
  simp only [h.configurationId, hfiltered]
  split
  · exact h
  · split
    · exact hsettled _
    · exact hsettled _

omit [Xxh64] in
theorem filterAlerts_invalid {currentConfig : Int64} {alerts : List AlertMessage}
    (h : ∀ alert ∈ alerts, s.isValidAlert alert currentConfig = false) :
    filterAlerts currentConfig alerts s = (s, []) := by
  induction alerts with
  | nil => rfl
  | cons alert alerts ih =>
      rw [filterAlerts, h alert List.mem_cons_self]
      exact ih fun alert' halert' => h alert' (List.mem_cons_of_mem _ halert')

theorem isValidAlert_stale {alert : AlertMessage} (h : Stale s alert) :
    s.isValidAlert alert s.configurationId.2 = false := by
  unfold isValidAlert MembershipView.isHostPresent
  rcases h with hid | hnone | ⟨dst, hdst, hstatus, hmember⟩ | ⟨dst, hdst, hstatus, hmember⟩
  · exact if_pos hid
  · split
    · rfl
    · rw [hnone]
  · split
    · rfl
    · simp [hdst, hstatus, hmember]
  · split
    · rfl
    · simp [hdst, hstatus, hmember]

/-- A stale batch reaches a settled actor. -/
theorem Settled.handleBatchedAlerts_stale (h : Settled s) (env : Environment)
    {msg : BatchedAlertMessage} (hstale : ∀ alert ∈ msg.messages, Stale s alert) :
    ∃ filled, s.view.Fills filled ∧
      s.handleBatchedAlerts env msg = (({ s with view := filled }, []), []) := by
  have hfiltered : filterAlerts s.configurationId.2 msg.messages s = (s, []) :=
    filterAlerts_invalid fun alert halert => isValidAlert_stale (hstale alert halert)
  unfold ServiceState.handleBatchedAlerts
  simp only [h.configurationId, hfiltered, aggregateAlerts]
  split
  · exact ⟨s.view, .refl _, rfl⟩
  · rcases invalidateFailingEdges_implied env.preProposalOrder env.proposalOrder h.implied with
      ⟨filled, hfills, hpass⟩
    refine ⟨filled, hfills, ?_⟩
    simp only [hpass]
    rfl

/-! ## Runs -/

theorem settled_of_booted {view : MembershipView} {kd hd ld : UInt8}
    {detector : MultiNodeCutDetector} {outcome : Outcome}
    (hnew : MultiNodeCutDetector.new kd hd ld = .ok detector)
    (h : Booted view detector outcome) : Settled outcome.1 := by
  unfold MultiNodeCutDetector.new at hnew
  split at hnew
  · cases hnew
  · cases hnew
    refine ⟨h.clean, ?_, ?_⟩
    · rw [h.cutDetector]
      exact .of_fresh rfl rfl rfl
    · rw [h.cutDetector]
      exact fun hseen => by cases hseen

theorem settled_move {env : Environment} {cmd : ServiceCommand} {effects : List Effect}
    (hmove : Move env cmd s effects t) (h : Settled s) : Settled t := by
  cases hmove with
  | calm hcalm => exact h.quiet hcalm.quiet
  | initialView reply => exact h.quiet (s.quiet_publishInitialView env)
  | preJoin msg reply => exact h.quiet (s.quiet_handlePreJoin msg)
  | join msg reply =>
      unfold handleJoin
      dsimp only
      rw [h.configurationId]
      split
      · exact h.congr rfl rfl
      · exact h.quiet (quiet_buildConfigMismatchResponse _ _ _ _)
  | alerts msg => exact h.handleBatchedAlerts env msg
  | announce msg => exact (h.handleBatchedAlerts env msg).congr rfl rfl
  | message => exact h.congr rfl rfl
  | startClassic => exact h.congr rfl rfl
  | shutdown => exact h.congr rfl rfl

/-- A decision clears the detector and brings the configuration id up to date. -/
theorem settled_decideAndReplace (s : ServiceState) (env : Environment) (proposal : List Endpoint) :
    Settled (s.decideAndReplace env proposal).1 := by
  have hdetector := (s.decideViewChange_decided env proposal).cutDetector
  refine ⟨?_, ?_, ?_⟩
  · exact congrArg Prod.fst MembershipView.currentConfigurationId_idem
  · rw [decideAndReplace, hdetector]
    exact .of_fresh rfl rfl rfl
  · rw [decideAndReplace, hdetector]
    exact fun hseen => by cases hseen

theorem settled_reaches {guard : ServiceRun → Environment × ServiceCommand → Prop}
    {run : ServiceRun} (hrun : serviceSystem.Reaches guard run) : Settled run.state := by
  have hguard : ∀ (run : ServiceRun) a, guard run a → ∀ e ∈ run.effects a.1 a.2, True :=
    fun _ _ _ _ _ => trivial
  refine serviceSystem_invariant (I := fun _ s _ => Settled s) hguard ?_ ?_ ?_ ?_ hrun
  · intro outcome hboots
    rcases hboots.booted with ⟨_, _, _, _, _, _, _, _, _, hnew, hbooted⟩
    exact settled_of_booted hnew hbooted
  · exact fun _ _ _ h => h
  · exact fun _ env cmd s es t trace _ h _ hmove => settled_move hmove h
  · exact fun _ env s proposal _ _ _ => settled_decideAndReplace s env proposal

/-- In every run, a batch of stale alerts only fills the observer cache. -/
theorem staleAlerts_ignored {run : ServiceRun} (hrun : serviceSystem.Reachable run)
    (env : Environment) (msg : BatchedAlertMessage)
    (hstale : ∀ alert ∈ msg.messages, run.state.Stale alert) :
    ∃ filled, run.state.view.Fills filled ∧
      run.state.handleBatchedAlerts env msg = (({ run.state with view := filled }, []), []) :=
  (settled_reaches hrun).handleBatchedAlerts_stale env hstale

end ServiceState

end Stale

/-! ### A node in flux, and an alert about a member -/

section Sample

attribute [local instance] xxh64Reference

/-- One of three rings reports `hostB` as down. -/
def fluxRun : Option ServiceRun :=
  sampleRun 3 1 [⟨1, 1⟩] [hostA, hostB, hostC] fun state =>
    [.request ⟨some (.batchedAlertMessage
      { sender := some hostC, messages := [state.sampleAlert .down [0] hostB none] })⟩ 0]

def memberIsUp (state : ServiceState) : BatchedAlertMessage where
  sender := some hostC
  messages := [state.sampleAlert .up [1, 2] hostB (some ⟨2, 2⟩)]

theorem fluxRun_ignoresStale :
    ∃ run filled, fluxRun = some run ∧ hostB ∈ run.state.cutDetector.preProposal ∧
      run.state.view.Fills filled ∧
      run.state.handleBatchedAlerts ServiceState.sampleEnvironment (memberIsUp run.state) =
        (({ run.state with view := filled }, []), []) := by
  have hfacts : (fluxRun.map fun run => (decide (hostB ∈ run.state.cutDetector.preProposal),
      decide (hostB ∈ run.state.view.allNodes))) = some (true, true) := by
    decide +kernel
  rcases Option.map_eq_some_iff.1 hfacts with ⟨run, hrun, heq⟩
  simp only [Prod.mk.injEq, decide_eq_true_eq] at heq
  rcases heq with ⟨hflux, hmember⟩
  have hstale : ∀ alert ∈ (memberIsUp run.state).messages, run.state.Stale alert := by
    intro alert halert
    cases List.mem_singleton.1 halert
    exact .inr (.inr (.inl ⟨hostB, rfl, rfl, hmember⟩))
  rcases ServiceState.staleAlerts_ignored (sampleRun_reachable hrun) ServiceState.sampleEnvironment
    (memberIsUp run.state) hstale with ⟨filled, hfills, hhandled⟩
  exact ⟨run, filled, hrun, hflux, hfills, hhandled⟩

end Sample

end Rapid
