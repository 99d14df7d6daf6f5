import Rapid.Service.StaleAlerts

/-!
# KeptView — only decisions change the view

Between two decisions the actor brings its configuration id up to date and fills its observer
cache, and that is all that happens to its view. The moves tell subscribers nothing new either: the
event of `publish_initial_view` lists what is known anyway.
-/

namespace Rapid

open Foundations

variable [Xxh64]

/-! ## Views that cannot be told apart -/

namespace MembershipView

variable {v w u : MembershipView}

/-- `w` differs from `v` in what is cached only. -/
structure Keeps (v w : MembershipView) : Prop where
  k : w.k = v.k
  rings : w.rings = v.rings
  identifiers : w.identifiers = v.identifiers
  allNodes : w.allNodes = v.allNodes
  configurationId : w.currentConfigurationId.2 = v.currentConfigurationId.2
  valid : v.Valid → w.Valid

theorem Keeps.refl (v : MembershipView) : v.Keeps v :=
  ⟨rfl, rfl, rfl, rfl, rfl, fun h => h⟩

theorem Keeps.trans (h : v.Keeps w) (h' : w.Keeps u) : v.Keeps u :=
  ⟨h'.k.trans h.k, h'.rings.trans h.rings, h'.identifiers.trans h.identifiers,
    h'.allNodes.trans h.allNodes, h'.configurationId.trans h.configurationId,
    fun hv => h'.valid (h.valid hv)⟩

theorem Keeps.ringZero (h : v.Keeps w) : w.ringZero = v.ringZero :=
  ringZero_eq h.rings

theorem Refreshes.keeps (h : v.Refreshes w) : v.Keeps w :=
  ⟨h.shows.k, h.shows.rings, h.shows.identifiers, h.shows.allNodes, h.shows.configurationId,
    h.valid⟩

theorem Fills.keeps (h : v.Fills w) : v.Keeps w := by
  rw [h.same]
  refine ⟨rfl, rfl, rfl, rfl, ?_, ?_⟩
  · unfold currentConfigurationId
    dsimp only
    split
    · rfl
    · rfl
  · exact fun hv => ⟨hv.seeds, hv.holds, hv.free, hv.configuration⟩

open MultiNodeCutDetector in
theorem Shows.observersInFlux (h : v.Shows w) (x : Endpoint) :
    (observersInFlux w x).2 = (observersInFlux v x).2 := by
  have hzero := MembershipView.ringZero_eq h.rings
  have hcomputed : w.computeObserversOf x = v.computeObserversOf x := by
    simp only [MembershipView.computeObserversOf, hzero, h.rings]
  have hexpected : w.getExpectedObserversOf x = v.getExpectedObserversOf x := by
    simp only [MembershipView.getExpectedObserversOf, MembershipView.predecessorsOf, hzero, h.rings]
  rw [observersInFlux_snd, observersInFlux_snd, h.allNodes, h.cachedObservers, hcomputed, hexpected]

end MembershipView

/-! ## Moves -/

namespace ServiceState

/-- A member that has announced its proposal does not look at the alerts. -/
theorem handleBatchedAlerts_of_announced (s : ServiceState) (env : Environment)
    (msg : BatchedAlertMessage) (h : s.lifecycle = .announcedProposal) :
    s.handleBatchedAlerts env msg = ((s.configurationId.1, []), []) :=
  if_pos (c := s.configurationId.1.lifecycle = .announcedProposal) h

/-- A batch fills the observer cache, and changes nothing else of the view. -/
theorem handleBatchedAlerts_fills (s : ServiceState) (env : Environment)
    (msg : BatchedAlertMessage) :
    s.configurationId.1.view.Fills (s.handleBatchedAlerts env msg).1.1.view := by
  have hlearns := filterAlerts_learns s.configurationId.2 msg.messages s.configurationId.1
  unfold handleBatchedAlerts
  dsimp only
  split
  · exact .refl _
  · generalize filterAlerts s.configurationId.2 msg.messages s.configurationId.1 = filtered
      at hlearns
    have hsame : filtered.1.view = s.configurationId.1.view := by
      rw [hlearns]
    have hfills := MultiNodeCutDetector.fills_invalidateFailingEdges env.preProposalOrder
      env.proposalOrder (aggregateAlerts env.proposalOrder filtered.2 filtered.1.cutDetector).1
      filtered.1.view
    rw [hsame] at hfills
    split
    · rw [hsame]
      exact hfills
    · rw [hsame]
      exact hfills

theorem handleBatchedAlerts_keeps (s : ServiceState) (env : Environment)
    (msg : BatchedAlertMessage) : s.view.Keeps (s.handleBatchedAlerts env msg).1.1.view :=
  (MembershipView.Refreshes.current s.view).keeps.trans (s.handleBatchedAlerts_fills env msg).keeps

end ServiceState

section Moves

variable {s t : ServiceState} {env : Environment} {cmd : ServiceCommand} {effects : List Effect}

/-- A move leaves the members, the identifiers and the metadata alone. -/
theorem Move.keeps (h : Move env cmd s effects t) :
    s.view.Keeps t.view ∧ t.metadata = s.metadata := by
  have hquiet : ∀ {u : ServiceState}, Quiet s u → s.view.Keeps u.view ∧ u.metadata = s.metadata :=
    fun hquiet => ⟨hquiet.view.keeps, hquiet.metadata⟩
  have halerts : ∀ msg, s.view.Keeps (s.handleBatchedAlerts env msg).1.1.view ∧
      (s.handleBatchedAlerts env msg).1.1.metadata = s.metadata := by
    intro msg
    refine ⟨s.handleBatchedAlerts_keeps env msg, ?_⟩
    rw [ServiceState.handleBatchedAlerts_frame env s msg]
  cases h with
  | calm hcalm => exact hquiet hcalm.quiet
  | initialView reply => exact hquiet (s.quiet_publishInitialView env)
  | preJoin msg reply => exact hquiet (s.quiet_handlePreJoin msg)
  | join msg reply =>
      have hparks := s.handleJoin_parks env msg reply
      exact ⟨hparks.view.keeps, hparks.metadata⟩
  | alerts msg => exact halerts msg
  | announce msg => exact halerts msg
  | message => exact ⟨.refl _, rfl⟩
  | startClassic => exact ⟨.refl _, rfl⟩
  | shutdown => exact ⟨.refl _, rfl⟩

/-! ## Published events -/

def Effect.viewChange? : Effect → Option ClusterStatusChange
  | .publish .viewChange change => some change
  | _ => none

omit [Xxh64] in
theorem Effect.Silent.viewChange? {e : Effect} (h : e.Silent) : e.viewChange? = none := by
  unfold Effect.viewChange?
  split
  · exact h.elim
  · rfl

/-- The `VIEW_CHANGE` events among the effects, in order. -/
def viewChanges (effects : List Effect) : List ClusterStatusChange :=
  effects.filterMap Effect.viewChange?

omit [Xxh64] in
@[simp] theorem viewChanges_append (effects more : List Effect) :
    viewChanges (effects ++ more) = viewChanges effects ++ viewChanges more :=
  List.filterMap_append

omit [Xxh64] in
theorem viewChanges_silent (h : ∀ e ∈ effects, e.Silent) : viewChanges effects = [] :=
  List.filterMap_eq_nil_iff.2 fun e he => (h e he).viewChange?

/-- A move publishes at most the current view. -/
theorem Move.viewChanges (h : Move env cmd s effects t) :
    viewChanges effects = [] ∨
      t = s.configurationId.1 ∧ effects = (s.publishInitialView env).2 := by
  cases h with
  | calm hcalm => exact .inl (viewChanges_silent hcalm.silent)
  -- The only view change event outside a decision is the initial view.
  | initialView reply => exact .inr ⟨rfl, rfl⟩
  | preJoin => exact .inl rfl
  | join msg reply =>
      rcases (s.handleJoin_parks env msg reply).effects with hnone | ⟨id, answer, hreply⟩
      · exact .inl (hnone ▸ rfl)
      · exact .inl (hreply ▸ rfl)
  | alerts msg => exact .inl (viewChanges_silent (s.silent_handleBatchedAlerts msg))
  | announce msg fp broadcasts delay _ _ hsilent =>
      refine .inl ?_
      have habort : Rapid.viewChanges (s.pendingFallback.toList.map Effect.abortFallback) = [] := by
        cases s.pendingFallback with
        | none => rfl
        | some timer => rfl
      simp only [viewChanges_append, viewChanges_silent (s.silent_handleBatchedAlerts msg),
        viewChanges_silent hsilent, habort]
      rfl
  | message => exact .inl rfl
  | startClassic => exact .inl rfl
  | shutdown => exact .inl rfl

/-- A decision publishes one event. -/
theorem viewChanges_decide (s : ServiceState) (env : Environment) (proposal : List Endpoint) :
    viewChanges (s.decideAndReplace env proposal).2 = [s.changeOf proposal] := by
  have hdecide := s.filterMap_decide (f := Effect.viewChange?) env proposal
    (fun _ h => h.viewChange?) fun _ _ => rfl
  cases hpending : s.pendingFallback with
  | none =>
      rw [hpending] at hdecide
      exact hdecide
  | some timer =>
      rw [hpending] at hdecide
      exact hdecide

end Moves

end Rapid
