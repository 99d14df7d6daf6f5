import Rapid.Consensus.Addressing
import Rapid.Service.Setup

/-!
# InstanceTurns — what a command is to the consensus instance

A command calls the instance once, or not at all. Either the instance is not involved, or it votes for
an announcement, or it is handed a message or asked for a classic round, with or without a decision;
and an injected proposal replaces it. The instance of a reachable actor works for the configuration of
the view.
-/

namespace Rapid

open Foundations

variable [Xxh64] {env : Environment} {cmd : ServiceCommand} {s t u : ServiceState} {fp : FastPaxos}
  {effects more : List Effect}

omit [Xxh64] in
theorem emitted_visible {r : FastPaxos × List FastOutgoing} {m : RapidRequest} (h : EmittedBy r.2 m) :
    ∃ e ∈ (FastPaxos.visible r).2, e.message? = some m := by
  rcases h with ⟨out, hout, e, he, hmessage⟩
  exact ⟨e, List.mem_filterMap.2 ⟨out, hout, he⟩, hmessage⟩

/-! ## Commands that leave the instance alone -/

/-- The instance stays as it is, nothing is sent to other instances and nothing is decided. -/
structure Uninvolved (s : ServiceState) (effects : List Effect) (t : ServiceState) : Prop where
  view : s.view.Keeps t.view
  fastPaxos : t.fastPaxos = s.fastPaxos
  running : t.lifecycle = .running → s.lifecycle = .running
  sent : ∀ m ∈ sent effects, m.consensusId? = none
  undecided : ∀ state proposal, .decideViewChange state proposal ∉ calls effects

theorem Uninvolved.refl (s : ServiceState) : Uninvolved s [] s :=
  ⟨.refl _, rfl, fun h => h, fun m hm => (by cases hm), fun state proposal hcall => (by cases hcall)⟩

theorem Uninvolved.append (h : Uninvolved s effects t) (h' : Uninvolved t more u) :
    Uninvolved s (effects ++ more) u := by
  refine ⟨h.view.trans h'.view, h'.fastPaxos.trans h.fastPaxos, fun hu => h.running (h'.running hu), ?_, ?_⟩
  · intro m hm
    rw [sent_append] at hm
    rcases List.mem_append.1 hm with hold | hnew
    · exact h.sent m hold
    · exact h'.sent m hnew
  · intro state proposal hcall
    rw [calls_append] at hcall
    rcases List.mem_append.1 hcall with hold | hnew
    · exact h.undecided state proposal hold
    · exact h'.undecided state proposal hnew

/-- Quiet changes with effects that reach no other instance. -/
theorem Quiet.uninvolved (h : Quiet s t) (hsent : ∀ m ∈ sent effects, m.consensusId? = none)
    (hcalls : calls effects = []) : Uninvolved s effects t := by
  refine ⟨h.view.keeps, h.fastPaxos, fun ht => h.lifecycle ▸ ht, hsent, ?_⟩
  rw [hcalls]
  exact fun state proposal hcall => by cases hcall

theorem uninvolved_reply (s : ServiceState) (id : ReplyId) (answer : Reply) :
    Uninvolved s [.reply id answer] s :=
  (Quiet.refl s).uninvolved (fun m hm => by cases hm) rfl

/-- Alerts without an announcement. -/
theorem uninvolved_alerts (s : ServiceState) (env : Environment) (msg : BatchedAlertMessage) :
    Uninvolved s (s.handleBatchedAlerts env msg).1.2 (s.handleBatchedAlerts env msg).1.1 := by
  have hframe := ServiceState.handleBatchedAlerts_frame env s msg
  have hinstance : (s.handleBatchedAlerts env msg).1.1.fastPaxos = s.fastPaxos := by
    rw [hframe]
  refine ⟨s.handleBatchedAlerts_keeps env msg, hinstance, ?_, ?_, ?_⟩
  · intro hrunning
    rcases (ServiceState.handleBatchedAlerts_lifecycle env s msg).1 with hsame | hannounced
    · exact hsame ▸ hrunning
    · rw [hannounced] at hrunning
      cases hrunning
  · intro m hm
    rw [ServiceState.sent_handleBatchedAlerts] at hm
    cases hm
  · rw [calls_silent (s.silent_handleBatchedAlerts msg)]
    exact fun state proposal hcall => by cases hcall

/-- A piece of a command that has nothing to do with consensus. -/
theorem Piece.uninvolved (h : Piece env cmd s effects t) (hcmd : cmd.Steady)
    (hquiet : ∀ msg reply, cmd ≠ .request ⟨some (.batchedAlertMessage msg)⟩ reply) :
    Uninvolved s effects t := by
  have hnone : ∀ m ∈ sent ([] : List Effect), m.consensusId? = none := fun m hm => by cases hm
  cases h with
  | refresh => exact s.quiet_configurationId.uninvolved hnone rfl
  | reply id answer => exact uninvolved_reply s id answer
  | shutdown =>
      exact ⟨.refl _, rfl, fun ht => (by cases ht), hnone, fun state proposal hcall => (by cases hcall)⟩
  | initialView reply => exact (s.quiet_publishInitialView env).uninvolved hnone rfl
  | park msg reply =>
      exact ⟨(MembershipView.Refreshes.current s.view).keeps, rfl, fun ht => ht, hnone,
        fun state proposal hcall => (by cases hcall)⟩
  | failure ev => exact (s.quiet_handleEdgeFailure env.now ev).uninvolved hnone rfl
  | tick =>
      refine (s.calm_handleTick env.now).quiet.uninvolved ?_ (calls_silent (s.calm_handleTick env.now).silent)
      intro m hm
      rcases s.sent_handleTick env.now hm with ⟨rfl, _⟩
      rfl
  | rebuild reply =>
      refine s.calm_rebuildDetectors.quiet.uninvolved ?_ (calls_silent s.calm_rebuildDetectors.silent)
      rw [s.sent_rebuildDetectors]
      exact hnone
  | alerts msg reply hbatch => exact absurd hbatch (hquiet msg reply)
  | announce msg reply fp hbatch => exact absurd hbatch (hquiet msg reply)
  | consult fp called r hfp hcall hsends =>
      cases hcall with
      | message request reply hrequest =>
          subst hrequest
          rw [FastPaxos.handleConsensusMessage_of_none hcmd] at hsends ⊢
          exact ⟨.refl _, hfp.symm, fun ht => ht, hnone, fun state proposal hcall => (by cases hcall)⟩
      | classic hclassic =>
          subst hclassic
          exact hcmd.elim
  | decided fp called r proposal hfp hcall houts =>
      cases hcall with
      | message request reply hrequest =>
          subst hrequest
          rw [FastPaxos.handleConsensusMessage_of_none hcmd] at houts
          cases houts
      | classic hclassic =>
          subst hclassic
          exact hcmd.elim
  | applied proposal reply happly =>
      subst happly
      exact hcmd.elim

theorem uninvolved_handleCommand (s : ServiceState) (env : Environment) (hcmd : cmd.Steady)
    (hquiet : ∀ msg reply, cmd ≠ .request ⟨some (.batchedAlertMessage msg)⟩ reply) :
    Uninvolved s (s.handleCommand env cmd).1.2 (s.handleCommand env cmd).1.1 := by
  have hpieces : Pieces env cmd s (s.handleCommand env cmd).1.2 (s.handleCommand env cmd).1.1 :=
    s.pieces_handleCommand cmd
  have hok : ∀ e ∈ (s.handleCommand env cmd).1.2, True := fun _ _ => trivial
  exact hpieces.invariant (I := fun u trace => Uninvolved s trace u)
    (fun _ _ _ _ h _ hpiece => h.append (hpiece.uninvolved hcmd hquiet)) hok (.refl s)

/-! ## Commands that involve it -/

/-- What the handling of a command is to the instance `fp`. -/
inductive InstanceTurn (env : Environment) (cmd : ServiceCommand) (s : ServiceState) (fp : FastPaxos)
    (effects : List Effect) (t : ServiceState) : Prop
  | uninvolved (h : Uninvolved s effects t) : InstanceTurn env cmd s fp effects t
  | announced (msg : BatchedAlertMessage) (reply : ReplyId)
      (hcmd : cmd = .request ⟨some (.batchedAlertMessage msg)⟩ reply)
      (hproposal : (s.handleBatchedAlerts env msg).2 ≠ []) (hview : s.view.Keeps t.view)
      (hbefore : s.lifecycle = .running) (hafter : t.lifecycle = .announcedProposal)
      (hinstance : t.fastPaxos = some (fp.propose env.jitter (s.handleBatchedAlerts env msg).2).1)
      (hsent : ∀ m ∈ sent effects,
        EmittedBy (fp.propose env.jitter (s.handleBatchedAlerts env msg).2).2 m)
      (hcalls : calls effects = [.propose (s.handleBatchedAlerts env msg).2]) :
      InstanceTurn env cmd s fp effects t
  | answered (called : List Effect) (r : FastPaxos × List FastOutgoing)
      (hcall : InstanceCalled cmd fp called r) (hsends : ∀ out ∈ r.2, out.IsSend)
      (hstate : t = { s with fastPaxos := some r.1 }) (hsent : ∀ m ∈ sent effects, EmittedBy r.2 m)
      (hcalls : calls effects = calls called) : InstanceTurn env cmd s fp effects t
  | decided (called : List Effect) (r : FastPaxos × List FastOutgoing) (proposal : List Endpoint)
      (hcall : InstanceCalled cmd fp called r) (houts : r.2 = [.decision proposal])
      (hstate : t = (({ s with fastPaxos := some r.1 } : ServiceState).decideAndReplace env proposal).1)
      (hsent : sent effects = [])
      (hcalls : calls effects = calls called ++
        [.decideViewChange { s with fastPaxos := some r.1 } proposal, .newFastPaxos, .newFastPaxos]) :
      InstanceTurn env cmd s fp effects t
  | injected (proposal : List Endpoint) (reply : ReplyId) (hcmd : cmd = .applyProposal proposal reply)
      (hstate : t = (s.decideAndReplace env proposal).1) (hsent : sent effects = [])
      (hcalls : .decideViewChange s proposal ∈ calls effects) : InstanceTurn env cmd s fp effects t

/-- A reply at the end changes nothing. -/
theorem InstanceTurn.reply (h : InstanceTurn env cmd s fp effects t) (id : ReplyId) (answer : Reply) :
    InstanceTurn env cmd s fp (effects ++ [.reply id answer]) t := by
  have hsame : sent (effects ++ [.reply id answer]) = sent effects := by
    rw [sent_append]
    exact List.append_nil _
  have hcalled : calls (effects ++ [.reply id answer]) = calls effects := by
    rw [calls_append]
    exact List.append_nil _
  cases h with
  | uninvolved h => exact .uninvolved (h.append (uninvolved_reply t id answer))
  | announced msg reply hcmd hproposal hview hbefore hafter hinstance hsent hcalls =>
      exact .announced msg reply hcmd hproposal hview hbefore hafter hinstance (hsame ▸ hsent)
        (hcalled.trans hcalls)
  | answered called r hcall hsends hstate hsent hcalls =>
      exact .answered called r hcall hsends hstate (hsame ▸ hsent) (hcalled.trans hcalls)
  | decided called r proposal hcall houts hstate hsent hcalls =>
      exact .decided called r proposal hcall houts hstate (hsame.trans hsent) (hcalled.trans hcalls)
  | injected proposal reply hcmd hstate hsent hcalls =>
      exact .injected proposal reply hcmd hstate (hsame.trans hsent) (hcalled ▸ hcalls)

/-- The instance is called, and what it answers is dispatched. -/
theorem turn_called (env : Environment) {called : List Effect} {r : FastPaxos × List FastOutgoing}
    (hcall : InstanceCalled cmd fp called r) :
    InstanceTurn env cmd s fp
      (called ++ (ServiceState.dispatch env r.2 { s with fastPaxos := some r.1 }).2)
      (ServiceState.dispatch env r.2 { s with fastPaxos := some r.1 }).1 := by
  have horderly : Orderly r.2 := by
    cases hcall with
    | message request reply hcmd => exact fp.orderly_handleConsensusMessage request
    | classic hcmd => exact fp.orderly_startClassicRound
  rcases horderly with hsends | ⟨proposal, houts⟩
  · have hcalm : ServiceState.Calm { s with fastPaxos := some r.1 }
        (ServiceState.dispatch env r.2 { s with fastPaxos := some r.1 }) :=
      ServiceState.calm_dispatch hsends _
    refine .answered called r hcall hsends (ServiceState.dispatch_sends hsends _) ?_ ?_
    · intro m hm
      rw [sent_append, hcall.sent, List.nil_append] at hm
      exact ServiceState.emitted_of_dispatch hm
    · rw [calls_append, calls_silent hcalm.silent, List.append_nil]
  · refine .decided called r proposal hcall houts ?_ ?_ ?_
    · rw [houts, ServiceState.dispatch_decision]
    · rw [houts, ServiceState.dispatch_decision, sent_append, hcall.sent, ServiceState.sent_decide]
      rfl
    · rw [houts, ServiceState.dispatch_decision, calls_append, calls_decide]

/-- A batch of alerts, with or without an announcement. -/
theorem turn_alerts (env : Environment) (hfp : s.fastPaxos = some fp) {msg : BatchedAlertMessage}
    {reply : ReplyId} (hcmd : cmd = .request ⟨some (.batchedAlertMessage msg)⟩ reply)
    (hup : s.lifecycle ≠ .shuttingDown) :
    let outcome := (s.handleBatchedAlerts env msg).1.andThen fun t =>
      if (s.handleBatchedAlerts env msg).2 = [] then (t, [])
      else t.propose env (s.handleBatchedAlerts env msg).2
    InstanceTurn env cmd s fp outcome.2 outcome.1 := by
  by_cases hproposal : (s.handleBatchedAlerts env msg).2 = []
  · simp only [Outcome.andThen_state, Outcome.andThen_effects, hproposal, if_true, List.append_nil]
    exact .uninvolved (uninvolved_alerts s env msg)
  · simp only [Outcome.andThen_state, Outcome.andThen_effects, hproposal, if_false]
    rcases (ServiceState.handleBatchedAlerts_lifecycle env s msg).2 hproposal with ⟨hwaiting, hannounced⟩
    have hrunning : s.lifecycle = .running := by
      cases hlifecycle : s.lifecycle with
      | running => rfl
      | announcedProposal => exact absurd hlifecycle hwaiting
      | shuttingDown => exact absurd hlifecycle hup
    have hcalls := s.calls_announce env msg hfp
    have hpiece : Piece env cmd s _ _ := .announce s msg reply fp hcmd hproposal hfp hup
    rcases s.announce_eq env msg hfp with ⟨broadcasts, delay, _, hpropose⟩
    refine .announced msg reply hcmd hproposal ?_ hrunning ?_ ?_ ?_ hcalls
    · rw [hpropose]
      exact s.handleBatchedAlerts_keeps env msg
    · rw [hpropose]
      exact hannounced
    · rw [hpropose]
    · intro m hm
      have hinstance : (s.handleBatchedAlerts env msg).1.1.fastPaxos = some fp := by
        rw [ServiceState.handleBatchedAlerts_frame env s msg]
        exact hfp
      rw [sent_append, ServiceState.sent_handleBatchedAlerts, List.nil_append,
        ServiceState.propose_of_some hinstance, Outcome.andThen_effects, sent_append] at hm
      rcases List.mem_append.1 hm with hcall | hdispatched
      · cases hcall
      · exact ServiceState.emitted_of_dispatch hdispatched

/-- Every command is a turn of the instance. -/
theorem turn_handleCommand (env : Environment) (cmd : ServiceCommand) (hfp : s.fastPaxos = some fp) :
    InstanceTurn env cmd s fp (s.handleCommand env cmd).1.2 (s.handleCommand env cmd).1.1 := by
  have hsteady : cmd.Steady → (∀ msg reply, cmd ≠ .request ⟨some (.batchedAlertMessage msg)⟩ reply) →
      InstanceTurn env cmd s fp (s.handleCommand env cmd).1.2 (s.handleCommand env cmd).1.1 :=
    fun hcmd hquiet => .uninvolved (uninvolved_handleCommand s env hcmd hquiet)
  cases cmd with
  | applyProposal proposal reply =>
      have hinjected : InstanceTurn env (.applyProposal proposal reply) s fp
          (s.decideAndReplace env proposal).2 (s.decideAndReplace env proposal).1 :=
        .injected proposal reply rfl rfl (s.sent_decide proposal)
          (mem_calls.2 (s.call_mem_decide env proposal))
      exact hinjected.reply reply .done
  | startClassicRound =>
      show InstanceTurn env .startClassicRound s fp (s.startClassic env).2 (s.startClassic env).1
      unfold ServiceState.startClassic
      rw [hfp]
      exact turn_called env (.classic rfl)
  | request request reply =>
      obtain ⟨content⟩ := request
      show InstanceTurn env (.request ⟨content⟩ reply) s fp (s.handleRequest env ⟨content⟩ reply).2
        (s.handleRequest env ⟨content⟩ reply).1
      by_cases hdown : s.lifecycle = .shuttingDown
      · unfold ServiceState.handleRequest
        rw [if_pos hdown]
        exact .uninvolved (uninvolved_reply s reply _)
      · have hconsensus : ∀ content, s.handleRequest env ⟨some content⟩ reply =
            (s.handleConsensusRequest env ⟨some content⟩).andThen
              (fun state => (state, [.reply reply ServiceState.emptyReply])) →
            InstanceTurn env (.request ⟨some content⟩ reply) s fp
              (s.handleRequest env ⟨some content⟩ reply).2
              (s.handleRequest env ⟨some content⟩ reply).1 := by
          intro content heq
          rw [heq]
          unfold ServiceState.handleConsensusRequest
          rw [hfp]
          exact (turn_called env (.message _ reply rfl)).reply reply ServiceState.emptyReply
        cases content with
        | none => exact hsteady rfl fun msg reply heq => by cases heq
        | some content =>
            cases content with
            | preJoinMessage msg => exact hsteady rfl fun msg reply heq => by cases heq
            | joinMessage msg => exact hsteady rfl fun msg reply heq => by cases heq
            | probeMessage msg => exact hsteady rfl fun msg reply heq => by cases heq
            | leaveMessage msg => exact hsteady rfl fun msg reply heq => by cases heq
            | batchedAlertMessage msg =>
                unfold ServiceState.handleRequest
                rw [if_neg hdown]
                exact (turn_alerts env hfp rfl hdown).reply reply ServiceState.emptyReply
            | fastRoundPhase2bMessage msg => exact hconsensus _ (if_neg hdown)
            | phase1aMessage msg => exact hconsensus _ (if_neg hdown)
            | phase1bMessage msg => exact hconsensus _ (if_neg hdown)
            | phase2aMessage msg => exact hconsensus _ (if_neg hdown)
            | phase2bMessage msg => exact hconsensus _ (if_neg hdown)
  | _ => exact hsteady trivial fun msg reply heq => by cases heq

/-! ## New instances -/

/-- The instance has not been called yet, and works for the members of the view. -/
def ServiceState.Fresh (s : ServiceState) : Prop :=
  s.fastPaxos = some (FastPaxos.new s.myAddr s.view.currentConfigurationId.2 s.view.membershipSize
    s.settings.paxosFallbackBaseDelay)

theorem MembershipView.Keeps.membershipSize {v w : MembershipView} (h : v.Keeps w) :
    w.membershipSize = v.membershipSize := by
  unfold MembershipView.membershipSize
  rw [h.ringZero]

theorem Quiet.fresh (h : Quiet s t) (hs : s.Fresh) : t.Fresh := by
  unfold ServiceState.Fresh
  rw [h.fastPaxos, h.myAddr, h.settings, h.view.keeps.configurationId, h.view.keeps.membershipSize]
  exact hs

theorem fresh_reinstateFastPaxos (s : ServiceState) : s.reinstateFastPaxos.1.Fresh :=
  s.fastPaxos_reinstated

theorem fresh_decide (s : ServiceState) (env : Environment) (proposal : List Endpoint) :
    (s.decideAndReplace env proposal).1.Fresh :=
  fresh_reinstateFastPaxos (s.decideViewChange env proposal).1

theorem Boots.fresh {outcome : Outcome} (h : Boots outcome) : outcome.1.Fresh := by
  have hfinish : ∀ listen settings view cutDetector metadata,
      (ServiceState.finishCluster listen settings view cutDetector metadata).1.Fresh :=
    fun listen settings view cutDetector metadata =>
      (ServiceState.calm_rebuildDetectors _).quiet.fresh (fresh_reinstateFastPaxos _)
  rcases h with ⟨settings, listen, own, nodeId, hstart⟩ | ⟨settings, listen, own, response, hjoin⟩
  · rcases ServiceState.built_of_ok hstart with ⟨view, detector, _, _, rfl⟩
    exact hfinish _ _ _ _ _
  · rcases ServiceState.built_of_ok hjoin with ⟨view, detector, _, _, rfl⟩
    exact hfinish _ _ _ _ _

/-- Only a decision changes the configuration, and then the instance is new. -/
theorem InstanceTurn.stays_or_decides (h : InstanceTurn env cmd s fp effects t) :
    s.view.Keeps t.view ∨
      (∃ state proposal, .decideViewChange state proposal ∈ calls effects) ∧ t.Fresh := by
  cases h with
  | uninvolved h => exact .inl h.view
  | announced msg reply hcmd hproposal hview => exact .inl hview
  | answered called r hcall hsends hstate =>
      subst hstate
      exact .inl (.refl _)
  | decided called r proposal hcall houts hstate hsent hcalls =>
      subst hstate
      refine .inr ⟨⟨{ s with fastPaxos := some r.1 }, proposal, ?_⟩, fresh_decide _ env proposal⟩
      rw [hcalls]
      exact List.mem_append_right _ List.mem_cons_self
  | injected proposal reply hcmd hstate hsent hcalls =>
      subst hstate
      exact .inr ⟨⟨s, proposal, hcalls⟩, fresh_decide s env proposal⟩

/-! ## The instance of a reachable actor -/

/-- The instance works for the configuration of the view. -/
structure Instated (s : ServiceState) (fp : FastPaxos) : Prop where
  present : s.fastPaxos = some fp
  config : fp.For s.view.currentConfigurationId.2
  settled : fp.Settled

theorem ServiceState.Fresh.instated (h : s.Fresh) : ∃ fp, Instated s fp :=
  ⟨_, h, FastPaxos.for_new _ _ _ _, fun hdecided => (by cases hdecided)⟩

/-- A call of the instance is a move of it. -/
theorem InstanceCalled.move {called : List Effect} {r : FastPaxos × List FastOutgoing}
    (h : InstanceCalled cmd fp called r) :
    ∃ input, FastPaxos.Move fp input (FastPaxos.visible r).1 (FastPaxos.visible r).2 := by
  cases h with
  | message request reply hcmd => exact ⟨_, fp.handleConsensusMessage_move request⟩
  | classic hcmd => exact ⟨_, fp.run_move .startClassicRound⟩

theorem Instated.command (h : Instated s fp) (env : Environment) (cmd : ServiceCommand) :
    ∃ fp', Instated (s.handleCommand env cmd).1.1 fp' := by
  have hturn := turn_handleCommand env cmd h.present
  generalize (s.handleCommand env cmd).1.1 = t at hturn
  cases hturn with
  | uninvolved hidle =>
      refine ⟨fp, hidle.fastPaxos.trans h.present, ?_, h.settled⟩
      rw [hidle.view.configurationId]
      exact h.config
  | announced msg reply hcmd hproposal hview hbefore hafter hinstance =>
      have hmove := fp.run_move (.propose env.jitter (s.handleBatchedAlerts env msg).2)
      refine ⟨_, hinstance, ?_, hmove.settled h.settled⟩
      rw [hview.configurationId]
      exact (hmove.stamps h.config).1
  | answered called r hcall hsends hstate =>
      rcases hcall.move with ⟨input, hmove⟩
      subst hstate
      exact ⟨r.1, rfl, (hmove.stamps h.config).1, hmove.settled h.settled⟩
  | decided called r proposal hcall houts hstate =>
      subst hstate
      exact (fresh_decide _ env proposal).instated
  | injected proposal reply hcmd hstate =>
      subst hstate
      exact (fresh_decide _ env proposal).instated

/-- Every reachable actor has an instance for its configuration. -/
theorem instated_of_reachable {run : ServiceRun} (h : serviceSystem.Reachable run) :
    ∃ fp, Instated run.state fp := by
  refine h.invariant (I := fun run => ∃ fp, Instated run.state fp) ?_ ?_
  · rintro run ⟨outcome, hboots, rfl⟩
    exact hboots.fresh.instated
  · rintro run ⟨env, cmd⟩ run' _ ⟨fp, hfp⟩ _ hstep
    rw [(serviceSystem_step hstep).2]
    exact hfp.command env cmd

/-- What the instance emits in a move is for the configuration of the view. -/
theorem Instated.stamps (h : Instated s fp) {input : FastCommand ⊕ RapidRequest}
    {r : FastPaxos × List FastOutgoing}
    (hmove : FastPaxos.Move fp input (FastPaxos.visible r).1 (FastPaxos.visible r).2)
    {m : RapidRequest} (hm : EmittedBy r.2 m) :
    m.consensusId? = some s.view.currentConfigurationId.2 := by
  rcases emitted_visible hm with ⟨e, he, hmessage⟩
  exact (hmove.stamps h.config).2 e he m hmessage

/-- To call the instance is no decision. -/
theorem InstanceCalled.undecided {called : List Effect} {r : FastPaxos × List FastOutgoing}
    (h : InstanceCalled cmd fp called r) (u : ServiceState) (v : List Endpoint) :
    .decideViewChange u v ∉ calls called := by
  intro hcall
  cases h with
  | message request reply hcmd => cases hcall
  | classic hcmd => cases List.mem_singleton.1 hcall

/-- Every consensus message that an actor sends is for its configuration. -/
theorem InstanceTurn.stamped (h : InstanceTurn env cmd s fp effects t) (hfp : Instated s fp) :
    ∀ m ∈ sent effects,
      m.consensusId? = none ∨ m.consensusId? = some s.view.currentConfigurationId.2 := by
  intro m hm
  cases h with
  | uninvolved h => exact .inl (h.sent m hm)
  | announced msg reply hcmd hproposal hview hbefore hafter hinstance hsent =>
      exact .inr (hfp.stamps (fp.run_move (.propose env.jitter _)) (hsent m hm))
  | answered called r hcall hsends hstate hsent =>
      rcases hcall.move with ⟨input, hmove⟩
      exact .inr (hfp.stamps hmove (hsent m hm))
  | decided called r proposal hcall houts hstate hsent =>
      rw [hsent] at hm
      cases hm
  | injected proposal reply hcmd hstate hsent =>
      rw [hsent] at hm
      cases hm

/-! ## Commands for the instance -/

/-- The command hands something to the instance. -/
def ServiceCommand.consults : ServiceCommand → Bool
  | .request message _ => message.consensusId?.isSome
  | .startClassicRound => true
  | _ => false

/-- An answer that is no answer. -/
theorem uninvolved_of_idle (hfp : s.fastPaxos = some fp) (hstate : t = { s with fastPaxos := some fp })
    (hsent : ∀ m ∈ sent effects, EmittedBy [] m) (hcalls : calls effects = []) :
    Uninvolved s effects t := by
  subst hstate
  refine ⟨.refl _, hfp.symm, fun h => h, ?_, ?_⟩
  · intro m hm
    rcases hsent m hm with ⟨out, hout, _⟩
    cases hout
  · rw [hcalls]
    exact fun state proposal hcall => by cases hcall

/-- Without a proposal and without such a command the instance is not involved, or it is replaced. -/
theorem InstanceTurn.unconsulted (h : InstanceTurn env cmd s fp effects t) (hfp : s.fastPaxos = some fp)
    (hpropose : ∀ v, .propose v ∉ calls effects) (hcmd : cmd.consults = false) :
    Uninvolved s effects t ∨
      (∃ proposal reply, cmd = .applyProposal proposal reply) ∧ sent effects = [] := by
  have hidle : ∀ {called r}, InstanceCalled cmd fp called r → r = (fp, []) ∧ called = [] := by
    intro called r hcall
    cases hcall with
    | message request reply hrequest =>
        subst hrequest
        exact ⟨FastPaxos.handleConsensusMessage_of_none (Option.not_isSome_iff_eq_none.1 (by
          rw [show request.consensusId?.isSome = false from hcmd]
          decide)), rfl⟩
    | classic hclassic =>
        subst hclassic
        cases hcmd
  cases h with
  | uninvolved h => exact .inl h
  | announced msg reply hbatch hproposal hview hbefore hafter hinstance hsent hcalls =>
      refine absurd ?_ (hpropose (s.handleBatchedAlerts env msg).2)
      rw [hcalls]
      exact List.mem_cons_self
  | answered called r hcall hsends hstate hsent hcalls =>
      rcases hidle hcall with ⟨rfl, rfl⟩
      exact .inl (uninvolved_of_idle hfp hstate hsent hcalls)
  | decided called r proposal hcall houts =>
      rcases hidle hcall with ⟨rfl, rfl⟩
      cases houts
  | injected proposal reply happly hstate hsent => exact .inr ⟨⟨proposal, reply, happly⟩, hsent⟩

end Rapid
