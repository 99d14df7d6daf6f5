import Rapid.Service.OneDecision
import Rapid.Service.ViewDelta

/-!
# JoinResponses — snapshots that a joiner starts from

A joiner builds its view from the identifiers and the endpoints of the response that lets it in. The
answers of a decision carry both. The answer to a `JoinMessage` that comes after its configuration
is over has no identifiers.
-/

namespace Rapid

open Foundations

section JoinResponses

variable [Xxh64]

/-- The view that the joiner bootstraps cannot be told apart from the view of the responder. -/
def Faithful (v : MembershipView) (response : JoinResponse) : Prop :=
  ∃ b, MembershipView.bootstrap v.k response.identifiers response.endpoints = .ok b ∧
    b.rings = v.rings ∧ b.identifiers = v.identifiers ∧
    b.currentConfigurationId.2 = v.currentConfigurationId.2 ∧
    response.configurationId = v.currentConfigurationId.2

/-- While a proposal is applied, no two members of the view ever collide on a ring. -/
def MembersApart (run : ServiceRun) (a : Environment × ServiceCommand) : Prop :=
  ∀ s proposal, .call (.decideViewChange s proposal) ∈ run.effects a.1 a.2 →
    ∀ before, before <+: proposal →
      CollisionFree s.view.k (s.appliedTo before).1.view.allNodes

instance (run : ServiceRun) (a : Environment × ServiceCommand) : Decidable (MembersApart run a) :=
  decidable_of_iff
    (∀ d ∈ (run.effects a.1 a.2).filterMap Effect.decision?, ∀ before ∈ d.2.inits,
      CollisionFree d.1.view.k (d.1.appliedTo before).1.view.allNodes)
    ⟨fun h s proposal hcall before hbefore =>
      h (s, proposal) (mem_decisions.2 hcall) before ((List.mem_inits _ _).2 hbefore),
      fun h d hd before hbefore =>
        h d.1 d.2 (mem_decisions.1 hd) before ((List.mem_inits _ _).1 hbefore)⟩

/-- The command is no `JoinMessage` for another configuration than the current one. -/
def NamesCurrent (run : ServiceRun) (a : Environment × ServiceCommand) : Prop :=
  ∀ msg id, a.2 = .request ⟨some (.joinMessage msg)⟩ id →
    msg.configurationId = run.state.view.currentConfigurationId.2

variable {v w : MembershipView} {s t : ServiceState} {env : Environment} {cmd : ServiceCommand}
  {effects : List Effect} {id : ReplyId} {response : JoinResponse} {msg : JoinMessage}
  {run run' : ServiceRun} {a : Environment × ServiceCommand}

/-! ## Views of a run -/

/-- The view is in order if its members do not collide. -/
def Sound (s : ServiceState) : Prop :=
  CollisionFree s.view.k s.view.allNodes → s.view.Valid

theorem Sound.move (h : Sound s) (hmove : Move env cmd s effects t) : Sound t := by
  have hkeeps := hmove.keeps.1
  intro hfree
  rw [hkeeps.k, hkeeps.allNodes] at hfree
  exact hkeeps.valid (h hfree)

/-- The view that a proposal leads to, when no members collide along the way. -/
theorem Sound.applied {proposal : List Endpoint} (h : Sound s)
    (hfree : ∀ before, before <+: proposal →
      CollisionFree s.view.k (s.appliedTo before).1.view.allNodes) :
    (s.appliedTo proposal).1.view.Valid ∧ (s.appliedTo proposal).1.view.k = s.view.k := by
  -- The empty prefix leaves the members as they are.
  have hnow : CollisionFree s.view.k s.view.allNodes := hfree [] List.nil_prefix
  exact applyNodes_valid (s := s.cancelFailureDetectors.1) (h hnow) hfree

/-- The state of the actor and every state that a decision was applied to. -/
theorem sound_reaches (hrun : serviceSystem.Reaches MembersApart run) :
    Sound run.state ∧
      ∀ s proposal, .call (.decideViewChange s proposal) ∈ run.trace → Sound s := by
  have hguard : ∀ (run : ServiceRun) a, MembersApart run a → ∀ e ∈ run.effects a.1 a.2,
      ∀ s proposal, e = .call (.decideViewChange s proposal) → ∀ before, before <+: proposal →
        CollisionFree s.view.k (s.appliedTo before).1.view.allNodes :=
    fun _ _ h e he s proposal heq => h s proposal (heq ▸ he)
  refine serviceSystem_invariant (I := fun _ s trace => Sound s ∧
    ∀ s proposal, .call (.decideViewChange s proposal) ∈ trace → Sound s) hguard ?_ ?_ ?_ ?_ hrun
  · intro outcome hboots
    rcases hboots.booted with ⟨k, identifiers, endpoints, view, _, _, _, _, hview, _, hbooted⟩
    refine ⟨fun hfree => ?_, fun s proposal hcall => ?_⟩
    · rcases MembershipView.bootstrap_holds hview with ⟨hk, hnodes, _⟩
      -- What was booted holds the endpoints it was given.
      have hshows := hbooted.view.shows
      rw [hshows.k, hshows.allNodes, hk, hnodes] at hfree
      exact hbooted.view.valid (MembershipView.Valid.of_bootstrap hview hfree).1
    · rcases hbooted.effects with ⟨rest, hsilent, heffects⟩
      rw [heffects] at hcall
      rcases List.mem_cons.1 hcall with hnew | hrest
      · cases hnew
      · exact (hsilent _ hrest).elim
  · exact fun _ _ _ h => h
  · intro _ env cmd s es t trace _ h _ hmove
    refine ⟨h.1.move hmove, fun s' proposal hcall => ?_⟩
    rcases List.mem_append.1 hcall with hold | hnew
    · exact h.2 s' proposal hold
    · -- Moves decide nothing.
      have hcalls := mem_calls.2 hnew
      rcases hmove.calls.2 with hnone | hclassic | ⟨p, hpropose, _⟩
      · rw [hnone] at hcalls
        cases hcalls
      · rw [hclassic] at hcalls
        cases List.mem_singleton.1 hcalls
      · rw [hpropose] at hcalls
        cases List.mem_singleton.1 hcalls
  · intro _ env s proposal trace h hok
    -- The guard speaks about the decision, which is among its own effects.
    have hcalls := calls_decide s env proposal
    have hcall := s.call_mem_decide env proposal
    have hview := (s.decideViewChange_decided env proposal).view
    refine ⟨fun _ => hview.valid (h.1.applied (hok _ hcall s proposal rfl)).1, ?_⟩
    intro s' proposal' hmem
    rcases List.mem_append.1 hmem with hold | hnew
    · exact h.2 s' proposal' hold
    · rw [← mem_calls, hcalls] at hnew
      simp only [List.mem_cons, Call.decideViewChange.injEq, reduceCtorEq, List.not_mem_nil,
        or_false] at hnew
      rw [hnew.1]
      exact h.1

/-! ## The two answers -/

/-- An answer without identifiers is right only where there are none. -/
theorem Faithful.not_isIdentifierPresent (h : Faithful v response)
    (hnone : response.identifiers = []) (nodeId : NodeId) :
    v.isIdentifierPresent nodeId = false := by
  rcases h with ⟨b, hb, _, hidentifiers, _⟩
  rcases MembershipView.bootstrap_holds hb with ⟨_, _, hkeys⟩
  refine Bool.eq_false_iff.2 fun hpresent => ?_
  rw [MembershipView.isIdentifierPresent_iff, ← hidentifiers, hkeys, hnone] at hpresent
  cases hpresent

/-- A `JoinMessage` is answered at once only when its configuration is over, and whoever is told to
join then is known by its node id, which the answer leaves out. -/
theorem joinReply_handleRequest
    (hreply : .reply id (ServiceState.joinReply response) ∈
      (s.handleRequest env ⟨some (.joinMessage msg)⟩ id).2)
    (hsafe : response.statusCode = JoinStatusCode.safeToJoin.toInt32) :
    msg.configurationId ≠ s.view.currentConfigurationId.2 ∧ response.identifiers = [] ∧
      s.view.currentConfigurationId.1.isIdentifierPresent (msg.nodeId.getD default) = true ∧
      (s.handleRequest env ⟨some (.joinMessage msg)⟩ id).1.view =
        s.view.currentConfigurationId.1 := by
  unfold ServiceState.handleRequest at hreply ⊢
  split at hreply
  · cases List.mem_singleton.1 hreply
  · rename_i hup
    rw [if_neg hup]
    dsimp only at hreply ⊢
    unfold ServiceState.handleJoin at hreply ⊢
    dsimp only at hreply ⊢
    split at hreply
    · cases hreply
    · rename_i hother
      rw [if_neg hother]
      cases List.mem_singleton.1 hreply
      -- The joiner asks for another configuration; it is safe only if its id is present.
      have hidem := MembershipView.currentConfigurationId_idem (v := s.view)
      unfold ServiceState.buildConfigMismatchResponse at hsafe ⊢
      dsimp only at hsafe ⊢
      split at hsafe
      · rename_i hknown
        rw [if_pos hknown]
        have hview : (s.configurationId.1).configurationId.1.view =
            s.view.currentConfigurationId.1 := congrArg Prod.fst hidem
        rw [hview] at hknown
        exact ⟨Ne.symm hother, rfl, hknown.2, hview⟩
      · have hchanged : JoinStatusCode.configChanged.toInt32 =
            JoinStatusCode.safeToJoin.toInt32 := hsafe
        exact absurd hchanged (by decide)

/-- A decision is never part of the handling of a `JoinMessage`. -/
theorem not_decides_handleRequest {proposal : List Endpoint} :
    .call (.decideViewChange t proposal) ∉
      (s.handleRequest env ⟨some (.joinMessage msg)⟩ id).2 := by
  intro hcall
  unfold ServiceState.handleRequest at hcall
  split at hcall
  · cases List.mem_singleton.1 hcall
  · dsimp only at hcall
    rcases (s.handleJoin_parks env msg id).effects with hnone | ⟨_, _, hreply⟩
    · rw [hnone] at hcall
      cases hcall
    · rw [hreply] at hcall
      cases List.mem_singleton.1 hcall

/-- The answer of a decision rebuilds the view that the decision led to. -/
theorem Answers.faithful {proposal : List Endpoint} {e : Effect} (h : Answers s proposal e)
    (heq : e = .reply id (ServiceState.joinReply response))
    (hvalid : (s.appliedTo proposal).1.view.Valid)
    (hview : (s.appliedTo proposal).1.view.Refreshes v) : Faithful v response := by
  rcases h.sent with ⟨_, _, _, _, _, _, response', hsent, _, hconfiguration, hendpoints,
    hidentifiers⟩
  cases heq.symm.trans hsent
  rcases hvalid.bootstrap_self with ⟨b, hb, hbvalid, _, _, hrings, hids⟩
  have hshows := hview.shows
  refine ⟨b, ?_, hrings.trans hshows.rings.symm, hids.trans hshows.identifiers.symm, ?_, ?_⟩
  · rw [hendpoints, hidentifiers, hshows.k]
    exact hb
  · rw [hshows.configurationId]
    exact hbvalid.currentConfigurationId_congr hvalid hrings hids
  · rw [hconfiguration, hshows.configurationId]

/-- As long as no members collide, a `JoinMessage` that is told to join is given a snapshot of the
view exactly when the command that leads to the answer is no late `JoinMessage`. -/
theorem joinResponse_faithful_iff (hrun : serviceSystem.Reaches MembersApart run)
    (hapart : MembersApart run a) (hstep : serviceSystem.step run a = some run')
    (hreply : .reply id (ServiceState.joinReply response) ∈ run.effects a.1 a.2)
    (hasked : Asked (run.handled ++ [a.2]) id msg)
    (hsafe : response.statusCode = JoinStatusCode.safeToJoin.toInt32) :
    Faithful run'.state.view response ↔ NamesCurrent run a := by
  rcases serviceSystem_step hstep with ⟨hready, rfl⟩
  have hfresh := run.fresh_spec hready
  obtain ⟨env, cmd⟩ := a
  rcases joinReply_source run.state (fun s es t h hmove => Sound.move h hmove)
    (sound_reaches hrun).1 hreply with hown | ⟨t, proposal, ht, hcall, hanswers, hview⟩
  · -- The command is the `JoinMessage` itself: its reply channel is no other's.
    rcases List.mem_append.1 hasked with hold | hnew
    · exact absurd rfl (hfresh id hown _ hold)
    · cases List.mem_singleton.1 hnew
      rcases joinReply_handleRequest hreply hsafe with ⟨hother, hnone, hpresent, hafter⟩
      refine iff_of_false (fun hfaithful => ?_) fun hcurrent => hother (hcurrent msg id rfl)
      have habsent := hfaithful.not_isIdentifierPresent hnone (msg.nodeId.getD default)
      have hshown : (run.next env (.request ⟨some (.joinMessage msg)⟩ id)).state.view =
          run.state.view.currentConfigurationId.1 := hafter
      rw [hshown, hpresent] at habsent
      cases habsent
  · -- The answer comes with a decision, which no `JoinMessage` makes.
    refine iff_of_true ?_ ?_
    · exact hanswers.faithful rfl (ht.applied (hapart t proposal hcall)).1 hview
    · rintro msg' id' rfl
      exact absurd hcall not_decides_handleRequest

end JoinResponses

/-! ### An answer that comes with a decision, and one to a message that was late -/

section Sample

attribute [local instance] xxh64Reference

/-- `hostA` lets `hostB` in, which has asked it before. -/
def parkedJoinRun : Option ServiceRun :=
  sampleRunWhile MembersApart 3 1 [⟨1, 1⟩] [hostA] fun state =>
    [.request ⟨some (.joinMessage (joinRequest state hostB ⟨2, 2⟩))⟩ 0,
      .request (sampleAlerts state .up hostB (some ⟨2, 2⟩)) 1]

theorem parkedJoinRun_faithful :
    ∃ run run' : ServiceRun, ∃ response : JoinResponse, parkedJoinRun = some run ∧
      serviceSystem.step run (newcomerVote run) = some run' ∧
      .reply 0 (ServiceState.joinReply response) ∈
        run.effects (newcomerVote run).1 (newcomerVote run).2 ∧
      Faithful run'.state.view response := by
  have hfacts : (parkedJoinRun.map fun run =>
      (((run.effects (newcomerVote run).1 (newcomerVote run).2).filterMap
          Effect.joinResponse?).map fun p => (p.1, p.2.statusCode),
        decide (.request ⟨some (.joinMessage (joinRequest run.state hostB ⟨2, 2⟩))⟩ 0 ∈
          run.handled),
        decide (MembersApart run (newcomerVote run)),
        (serviceSystem.step run (newcomerVote run)).isSome)) =
      some ([(0, JoinStatusCode.safeToJoin.toInt32)], true, true, true) := by
    decide +kernel
  rcases Option.map_eq_some_iff.1 hfacts with ⟨run, hrun, heq⟩
  simp only [Prod.mk.injEq, decide_eq_true_eq] at heq
  rcases heq with ⟨hreplies, hhandled, hapart, hready⟩
  rcases Option.isSome_iff_exists.1 hready with ⟨run', hstep⟩
  rcases List.map_eq_singleton_iff.1 hreplies with ⟨⟨id, response⟩, hresponses, hresponse⟩
  rcases Prod.mk.inj hresponse with ⟨rfl, hsafe⟩
  have hreply := mem_joinResponses.1 (hresponses ▸ List.mem_singleton_self _)
  have hasked : Asked (run.handled ++ [(newcomerVote run).2]) 0
      (joinRequest run.state hostB ⟨2, 2⟩) := List.mem_append_left _ hhandled
  refine ⟨run, run', response, hrun, hstep, hreply, ?_⟩
  refine (joinResponse_faithful_iff (sampleRunWhile_reaches hrun) hapart hstep hreply hasked
    hsafe).2 ?_
  -- The command is a vote.
  intro msg id hcmd
  cases hcmd

/-- `hostA` has let `hostB` in on the word of `hostC`. -/
def lateJoinRun : Option ServiceRun :=
  sampleRunWhile MembersApart 3 1 [⟨1, 1⟩] [hostA] fun state =>
    [.request (sampleAlerts state .up hostB (some ⟨2, 2⟩)) 0,
      .request (sampleVote state hostA [hostB]) 1]

/-- `hostB` names the configuration before it was let in. -/
def lateJoinMessage : JoinMessage where
  sender := some hostB
  nodeId := some ⟨2, 2⟩
  ringNumber := [0, 1, 2]
  configurationId := ((ServiceState.sampleCluster 3 1 [⟨1, 1⟩] [hostA]).map
    fun state => state.configurationId.2).getD 0
  metadata := none

def lateJoinStep : Environment × ServiceCommand :=
  (ServiceState.sampleEnvironment, .request ⟨some (.joinMessage lateJoinMessage)⟩ 2)

theorem lateJoinRun_facts :
    (lateJoinRun.map fun run =>
      (((run.effects lateJoinStep.1 lateJoinStep.2).filterMap Effect.joinResponse?).map
          fun p => (p.1, p.2.statusCode, decide (p.2.identifiers = [])),
        decide (MembersApart run lateJoinStep),
        (serviceSystem.step run lateJoinStep).map fun run' =>
          run'.state.view.isIdentifierPresent ⟨2, 2⟩)) =
      some ([(2, JoinStatusCode.safeToJoin.toInt32, true)], true, some true) := by
  decide +kernel

/-- `hostB` is told to join, with both members and no identifier. -/
theorem lateJoinRun_unfaithful :
    ∃ run run' : ServiceRun, ∃ response : JoinResponse, lateJoinRun = some run ∧
      serviceSystem.Reaches MembersApart run ∧ MembersApart run lateJoinStep ∧
      serviceSystem.step run lateJoinStep = some run' ∧
      .reply 2 (ServiceState.joinReply response) ∈ run.effects lateJoinStep.1 lateJoinStep.2 ∧
      response.statusCode = JoinStatusCode.safeToJoin.toInt32 ∧
      ¬ Faithful run'.state.view response := by
  rcases Option.map_eq_some_iff.1 lateJoinRun_facts with ⟨run, hrun, heq⟩
  simp only [Prod.mk.injEq, decide_eq_true_eq] at heq
  rcases heq with ⟨hreplies, hapart, hready⟩
  rcases Option.map_eq_some_iff.1 hready with ⟨run', hstep, hpresent⟩
  rcases List.map_eq_singleton_iff.1 hreplies with ⟨⟨id, response⟩, hresponses, hresponse⟩
  simp only [Prod.mk.injEq] at hresponse
  rcases hresponse with ⟨rfl, hsafe, hnone⟩
  have hreply := mem_joinResponses.1 (hresponses ▸ List.mem_singleton_self _)
  refine ⟨run, run', response, hrun, sampleRunWhile_reaches hrun, hapart, hstep, hreply, hsafe,
    fun hfaithful => ?_⟩
  rw [hfaithful.not_isIdentifierPresent (of_decide_eq_true hnone)] at hpresent
  cases hpresent

end Sample

end Rapid
