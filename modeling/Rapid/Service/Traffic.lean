import Rapid.Service.DecisionDetail
import Rapid.Service.OneDecision
import Rapid.Consensus.OneConfiguration

/-!
# Traffic — what the actor sends and calls, and why

A message leaves the actor in one of three ways: a tick of the batcher sends the queued alerts, an
announcement sends the vote of the instance, and a call of the instance sends its answers. A
decision sends nothing by itself. Only an announcement proposes, and only two kinds of commands and
an injected proposal decide.
-/

namespace Rapid

open Foundations

/-! ## Messages among the effects -/

def Effect.sent? : Effect → Option RapidRequest
  | .broadcast request => some request
  | .unicast _ request => some request
  | _ => none

def sent (effects : List Effect) : List RapidRequest :=
  effects.filterMap Effect.sent?

@[simp] theorem sent_append (effects more : List Effect) :
    sent (effects ++ more) = sent effects ++ sent more :=
  List.filterMap_append

theorem sent_eq_nil {effects : List Effect} (h : ∀ e ∈ effects, e.sent? = none) :
    sent effects = [] :=
  List.filterMap_eq_nil_iff.2 h

/-- The request is a message among these outputs of an instance. -/
def EmittedBy (outs : List FastOutgoing) (request : RapidRequest) : Prop :=
  ∃ out ∈ outs, ∃ e, out.emission? = some e ∧ e.message? = some request

variable [Xxh64] {env : Environment} {cmd : ServiceCommand} {s t : ServiceState}
  {effects : List Effect}

/-! ## Handlers that send nothing -/

namespace ServiceState

omit [Xxh64] in
theorem sent_cancelFailureDetectors (s : ServiceState) : sent s.cancelFailureDetectors.2 = [] := by
  refine sent_eq_nil fun e he => ?_
  rcases List.mem_map.1 he with ⟨task, _, rfl⟩
  rfl

theorem sent_spawnDetectors (s : ServiceState) : sent s.spawnDetectors.2 = [] := by
  refine sent_eq_nil fun e he => ?_
  unfold spawnDetectors at he
  split at he
  · dsimp only at he
    split at he
    · cases he
    · rcases List.mem_map.1 he with ⟨task, _, rfl⟩
      rfl
  · cases he

theorem sent_rebuildDetectors (s : ServiceState) : sent s.rebuildDetectors.2 = [] := by
  have heffects : s.rebuildDetectors.2 =
      s.cancelFailureDetectors.2 ++ s.cancelFailureDetectors.1.spawnDetectors.2 := rfl
  rw [heffects, sent_append, sent_cancelFailureDetectors, sent_spawnDetectors]
  rfl

theorem sent_monitoredOn (s : ServiceState) (proposal : List Endpoint) :
    sent (s.monitoredOn proposal).2 = [] := by
  unfold monitoredOn
  split
  · exact sent_rebuildDetectors _
  · rfl

theorem sent_answeredOn (s : ServiceState) (proposal : List Endpoint) :
    sent (s.answeredOn env proposal).2 = [] := by
  rcases (s.monitoredOn proposal).1.respondToJoiners_answers env proposal
    (s.changeOf proposal).membership with ⟨response, _, _, _, _, hrespond⟩
  refine sent_eq_nil fun e he => ?_
  rw [answeredOn, hrespond, mem_answerParked] at he
  rcases he with ⟨_, _, _, _, _, _, rfl⟩
  rfl

/-- A decision sends nothing. -/
theorem sent_decide (s : ServiceState) (proposal : List Endpoint) :
    sent (s.decideAndReplace env proposal).2 = [] := by
  have haborted : sent (s.failureDetectorTasks.map Effect.abortDetector) = [] :=
    sent_cancelFailureDetectors s
  have htimer : sent (s.pendingFallback.toList.map Effect.abortFallback) = [] := by
    refine sent_eq_nil fun e he => ?_
    rcases List.mem_map.1 he with ⟨timer, _, rfl⟩
    rfl
  have hrecipients : sent (if s.broadcaster then
      [Effect.setMembership (s.changeOf proposal).membership] else []) = [] := by
    split
    · rfl
    · rfl
  rw [decideAndReplace_effects]
  simp only [sent_append, haborted, htimer, hrecipients, sent_monitoredOn, sent_answeredOn]
  rfl

/-! ## Outputs of an instance -/

/-- What is dispatched and sent was an output. -/
theorem emitted_of_dispatch {outs : List FastOutgoing} {m : RapidRequest} :
    ∀ {s : ServiceState}, m ∈ sent (dispatch env outs s).2 → EmittedBy outs m := by
  induction outs with
  | nil => exact fun h => by cases h
  | cons out outs ih =>
      intro s h
      rw [dispatch, Outcome.andThen_effects, sent_append] at h
      rcases List.mem_append.1 h with hfirst | hrest
      · cases out with
        | broadcast request =>
            unfold dispatchOne at hfirst
            dsimp only at hfirst
            split at hfirst
            · cases List.mem_singleton.1 hfirst
              exact ⟨_, List.mem_cons_self, _, rfl, rfl⟩
            · cases hfirst
        | unicast target request =>
            unfold dispatchOne at hfirst
            dsimp only at hfirst
            split at hfirst
            · cases List.mem_singleton.1 hfirst
              exact ⟨_, List.mem_cons_self, _, rfl, rfl⟩
            · cases hfirst
        | scheduleClassicFallback delay =>
            have hnone : sent (s.spawnFallback delay).2 = [] := by
              refine sent_eq_nil fun e he => ?_
              rcases List.mem_append.1 he with hold | hnew
              · rcases List.mem_map.1 hold with ⟨timer, _, rfl⟩
                rfl
              · cases List.mem_singleton.1 hnew
                rfl
            have hmem : m ∈ sent (s.spawnFallback delay).2 := hfirst
            rw [hnone] at hmem
            cases hmem
        | decision proposal =>
            have hmem : m ∈ sent (s.decideAndReplace env proposal).2 := hfirst
            rw [sent_decide] at hmem
            cases hmem
      · rcases ih hrest with ⟨o, ho, hemitted⟩
        exact ⟨o, List.mem_cons_of_mem _ ho, hemitted⟩

/-- Announcing a proposal: the instance votes, and what it emits is dispatched. -/
theorem propose_of_some {fp : FastPaxos} (hfp : s.fastPaxos = some fp) (proposal : List Endpoint) :
    s.propose env proposal =
      Outcome.andThen ({ s with fastPaxos := some (fp.propose env.jitter proposal).1 },
        [.call (.propose proposal)]) (dispatch env (fp.propose env.jitter proposal).2) := by
  unfold propose
  rw [hfp]

theorem sent_handleBatchedAlerts (s : ServiceState) (msg : BatchedAlertMessage) :
    sent (s.handleBatchedAlerts env msg).1.2 = [] := by
  refine sent_eq_nil fun e he => ?_
  unfold handleBatchedAlerts at he
  dsimp only at he
  split at he
  · cases he
  · split at he
    · cases he
    · dsimp only at he
      split at he
      · cases List.mem_singleton.1 he
        rfl
      · cases he

/-- The batch that a tick sends. -/
def queuedBatch (s : ServiceState) : RapidRequest :=
  ⟨some (.batchedAlertMessage { sender := some s.myAddr, messages := s.sendQueue })⟩

omit [Xxh64] in
theorem sent_handleTick (s : ServiceState) (now : Instant) {m : RapidRequest}
    (hm : m ∈ sent (s.handleTick now).2) : m = s.queuedBatch ∧ s.sendQueue ≠ [] := by
  unfold handleTick at hm
  split at hm
  · cases hm
  · rename_i hwaiting
    split at hm
    · cases hm
    · split at hm
      · cases hm
      · dsimp only at hm
        split at hm
        · cases List.mem_singleton.1 hm
          exact ⟨rfl, hwaiting⟩
        · cases hm

omit [Xxh64] in
/-- A tick takes alerts out of the queue, all or none. -/
theorem sendQueue_handleTick (s : ServiceState) (now : Instant) (alert : AlertMessage)
    (h : alert ∈ (s.handleTick now).1.sendQueue) : alert ∈ s.sendQueue := by
  unfold handleTick at h
  split at h
  · exact h
  · split at h
    · exact h
    · split at h
      · exact h
      · cases h

/-- Announcing a proposal: the call, the broadcast of the vote and the new timer. -/
theorem announce_eq (s : ServiceState) (env : Environment) (msg : BatchedAlertMessage) {fp : FastPaxos}
    (hfp : s.fastPaxos = some fp) :
    ∃ broadcasts delay, (∀ e ∈ broadcasts, e.Silent) ∧
      (s.handleBatchedAlerts env msg).1.1.propose env (s.handleBatchedAlerts env msg).2 =
        ({ (s.handleBatchedAlerts env msg).1.1 with
            fastPaxos := some (fp.propose env.jitter (s.handleBatchedAlerts env msg).2).1
            pendingFallback := some s.timersSpawned
            timersSpawned := s.timersSpawned + 1 },
          [.call (.propose (s.handleBatchedAlerts env msg).2)] ++ broadcasts ++
            s.pendingFallback.toList.map .abortFallback ++
              [.spawnFallback s.timersSpawned delay]) := by
  have hframe := handleBatchedAlerts_frame env s msg
  have hinstance : (s.handleBatchedAlerts env msg).1.1.fastPaxos = some fp := by
    rw [hframe]
    exact hfp
  have htimers : (s.handleBatchedAlerts env msg).1.1.timersSpawned = s.timersSpawned := by
    rw [hframe]
  have hpending : (s.handleBatchedAlerts env msg).1.1.pendingFallback = s.pendingFallback := by
    rw [hframe]
  rcases propose_eq env hinstance (s.handleBatchedAlerts env msg).2 with
    ⟨broadcasts, delay, hbroadcasts, hpropose⟩
  rw [htimers, hpending] at hpropose
  exact ⟨broadcasts, delay, hbroadcasts, hpropose⟩

/-- What an announcement calls. -/
theorem calls_announce (s : ServiceState) (env : Environment) (msg : BatchedAlertMessage)
    {fp : FastPaxos} (hfp : s.fastPaxos = some fp) :
    calls ((s.handleBatchedAlerts env msg).1.2 ++
        ((s.handleBatchedAlerts env msg).1.1.propose env (s.handleBatchedAlerts env msg).2).2) =
      [.propose (s.handleBatchedAlerts env msg).2] := by
  rcases s.announce_eq env msg hfp with ⟨broadcasts, delay, hbroadcasts, hpropose⟩
  rw [hpropose]
  simp only [calls_append, calls_silent (s.silent_handleBatchedAlerts msg),
    calls_silent hbroadcasts, calls_abort]
  rfl

end ServiceState

/-! ## Where a message comes from -/

/-- Why a request is among these effects of handling `cmd`. -/
inductive SentBecause (env : Environment) (cmd : ServiceCommand) (s : ServiceState)
    (effects : List Effect) : RapidRequest → Prop
  | batch (hcmd : cmd = .tickAlertBatcher) (hwaiting : s.sendQueue ≠ []) :
      SentBecause env cmd s effects s.queuedBatch
  | answer (fp : FastPaxos) (called : List Effect) (r : FastPaxos × List FastOutgoing)
      (m : RapidRequest) (hfp : s.fastPaxos = some fp) (hcall : InstanceCalled cmd fp called r)
      (hemitted : EmittedBy r.2 m) : SentBecause env cmd s effects m
  | vote (msg : BatchedAlertMessage) (reply : ReplyId) (fp : FastPaxos) (m : RapidRequest)
      (hcmd : cmd = .request ⟨some (.batchedAlertMessage msg)⟩ reply) (hfp : s.fastPaxos = some fp)
      (hproposal : (s.handleBatchedAlerts env msg).2 ≠ [])
      (hcalled : .propose (s.handleBatchedAlerts env msg).2 ∈ calls effects)
      (hemitted : EmittedBy (fp.propose env.jitter (s.handleBatchedAlerts env msg).2).2 m) :
      SentBecause env cmd s effects m

theorem InstanceCalled.sent {fp : FastPaxos} {called : List Effect}
    {r : FastPaxos × List FastOutgoing} (h : InstanceCalled cmd fp called r) : sent called = [] := by
  cases h with
  | message => rfl
  | classic => rfl

theorem Piece.sentBecause (h : Piece env cmd s effects t) {m : RapidRequest}
    (hm : m ∈ sent effects) : SentBecause env cmd s effects m := by
  cases h with
  | refresh => cases hm
  | reply id answer => cases hm
  | shutdown => cases hm
  | initialView reply => cases hm
  | park msg reply => cases hm
  | failure ev => cases hm
  | tick hcmd =>
      rcases s.sent_handleTick env.now hm with ⟨rfl, hwaiting⟩
      exact .batch hcmd hwaiting
  | rebuild reply =>
      rw [ServiceState.sent_rebuildDetectors] at hm
      cases hm
  | alerts msg reply =>
      rw [ServiceState.sent_handleBatchedAlerts] at hm
      cases hm
  | announce msg reply fp hcmd hproposal hfp hup =>
      have hinstance : (s.handleBatchedAlerts env msg).1.1.fastPaxos = some fp := by
        rw [ServiceState.handleBatchedAlerts_frame env s msg]
        exact hfp
      have hcalls := s.calls_announce env msg hfp
      rw [sent_append, ServiceState.sent_handleBatchedAlerts, List.nil_append,
        ServiceState.propose_of_some hinstance, Outcome.andThen_effects, sent_append] at hm
      rcases List.mem_append.1 hm with hcall | hdispatched
      · cases hcall
      · exact .vote msg reply fp m hcmd hfp hproposal (hcalls ▸ List.mem_cons_self)
          (ServiceState.emitted_of_dispatch hdispatched)
  | consult fp called r hfp hcall hsends =>
      rw [sent_append, hcall.sent, List.nil_append] at hm
      exact .answer fp called r m hfp hcall (ServiceState.emitted_of_dispatch hm)
  | decided fp called r proposal hfp hcall houts =>
      rw [sent_append, hcall.sent, List.nil_append, ServiceState.sent_decide] at hm
      cases hm
  | applied proposal reply =>
      rw [ServiceState.sent_decide] at hm
      cases hm

/-! ## Where a call comes from -/

/-- Why a call is made while `cmd` is handled. -/
inductive CallBecause (env : Environment) (cmd : ServiceCommand) (s : ServiceState) : Call → Prop
  | newInstance : CallBecause env cmd s .newFastPaxos
  | startClassic (hcmd : cmd = .startClassicRound) : CallBecause env cmd s .startClassicRound
  | announced (msg : BatchedAlertMessage) (reply : ReplyId) (fp : FastPaxos)
      (hcmd : cmd = .request ⟨some (.batchedAlertMessage msg)⟩ reply) (hfp : s.fastPaxos = some fp)
      (hproposal : (s.handleBatchedAlerts env msg).2 ≠ []) (hup : s.lifecycle ≠ .shuttingDown) :
      CallBecause env cmd s (.propose (s.handleBatchedAlerts env msg).2)
  | decided (fp : FastPaxos) (called : List Effect) (r : FastPaxos × List FastOutgoing)
      (proposal : List Endpoint) (hfp : s.fastPaxos = some fp)
      (hcall : InstanceCalled cmd fp called r) (houts : r.2 = [.decision proposal]) :
      CallBecause env cmd s (.decideViewChange { s with fastPaxos := some r.1 } proposal)
  | applied (proposal : List Endpoint) (reply : ReplyId) (hcmd : cmd = .applyProposal proposal reply) :
      CallBecause env cmd s (.decideViewChange s proposal)

theorem InstanceCalled.because {fp : FastPaxos} {called : List Effect}
    {r : FastPaxos × List FastOutgoing} (h : InstanceCalled cmd fp called r) {call : Call}
    (hcall : call ∈ calls called) : CallBecause env cmd s call := by
  cases h with
  | message => cases hcall
  | classic hcmd =>
      cases List.mem_singleton.1 hcall
      exact .startClassic hcmd

theorem Piece.callBecause (h : Piece env cmd s effects t) {call : Call}
    (hcall : call ∈ calls effects) : CallBecause env cmd s call := by
  have hsilent : (∀ e ∈ effects, e.Silent) → CallBecause env cmd s call := by
    intro hquiet
    rw [calls_silent hquiet] at hcall
    cases hcall
  cases h with
  | refresh => cases hcall
  | reply id answer => cases hcall
  | shutdown => cases hcall
  | initialView reply => cases hcall
  | park msg reply => cases hcall
  | failure ev => cases hcall
  | tick => exact hsilent (s.calm_handleTick env.now).silent
  | rebuild reply => exact hsilent s.calm_rebuildDetectors.silent
  | alerts msg reply => exact hsilent (s.silent_handleBatchedAlerts msg)
  | announce msg reply fp hcmd hproposal hfp hup =>
      rw [s.calls_announce env msg hfp] at hcall
      cases List.mem_singleton.1 hcall
      exact .announced msg reply fp hcmd hfp hproposal hup
  | consult fp called r hfp hinstance hsends =>
      have hcalm : ServiceState.Calm { s with fastPaxos := some r.1 }
          (ServiceState.dispatch env r.2 { s with fastPaxos := some r.1 }) :=
        ServiceState.calm_dispatch hsends _
      rw [calls_append, calls_silent hcalm.silent, List.append_nil] at hcall
      exact hinstance.because hcall
  | decided fp called r proposal hfp hinstance houts =>
      rw [calls_append, calls_decide] at hcall
      rcases List.mem_append.1 hcall with hcalled | hdecided
      · exact hinstance.because hcalled
      · rcases List.mem_cons.1 hdecided with rfl | hnew
        · exact .decided fp called r proposal hfp hinstance houts
        · rcases List.mem_cons.1 hnew with rfl | hlast
          · exact .newInstance
          · cases List.mem_singleton.1 hlast
            exact .newInstance
  | applied proposal reply hcmd =>
      rw [calls_decide] at hcall
      rcases List.mem_cons.1 hcall with rfl | hnew
      · exact .applied proposal reply hcmd
      · rcases List.mem_cons.1 hnew with rfl | hlast
        · exact .newInstance
        · cases List.mem_singleton.1 hlast
          exact .newInstance

/-! ## Commands that decide nothing -/

/-- Neither a consensus message, nor a classic round, nor an injected proposal. -/
def ServiceCommand.Steady : ServiceCommand → Prop
  | .request message _ => message.consensusId? = none
  | .startClassicRound => False
  | .applyProposal _ _ => False
  | _ => True

/-- While such a command is handled the members stay the same. -/
theorem Piece.keeps_of_steady (h : Piece env cmd s effects t) (hcmd : cmd.Steady) :
    s.view.Keeps t.view := by
  cases h with
  | refresh => exact (MembershipView.Refreshes.current s.view).keeps
  | reply id answer => exact .refl _
  | shutdown => exact .refl _
  | initialView reply => exact (s.quiet_publishInitialView env).view.keeps
  | park msg reply => exact (MembershipView.Refreshes.current s.view).keeps
  | failure ev => exact (s.quiet_handleEdgeFailure env.now ev).view.keeps
  | tick => exact (s.calm_handleTick env.now).quiet.view.keeps
  | rebuild reply => exact s.calm_rebuildDetectors.quiet.view.keeps
  | alerts msg reply => exact s.handleBatchedAlerts_keeps env msg
  | announce msg reply fp hcalled hproposal hfp hup =>
      rcases s.announce_eq env msg hfp with ⟨broadcasts, delay, _, hpropose⟩
      rw [hpropose]
      exact s.handleBatchedAlerts_keeps env msg
  | consult fp called r hfp hinstance hsends => exact .refl _
  | decided fp called r proposal hfp hinstance houts =>
      cases hinstance with
      | message request reply hrequest =>
          subst hrequest
          rw [FastPaxos.handleConsensusMessage_of_none hcmd] at houts
          cases houts
      | classic hclassic =>
          subst hclassic
          exact hcmd.elim
  | applied proposal reply hrequest =>
      subst hrequest
      exact hcmd.elim

/-! ## The requests that only actors send -/

/-- What an instance emits is a consensus message. -/
theorem FastPaxos.Move.consensus {p p' : FastPaxos} {input : FastCommand ⊕ RapidRequest}
    {outs : List PaxosOutgoing} (h : FastPaxos.Move p input p' outs) :
    ∀ e ∈ outs, ∀ m, e.message? = some m → m.consensusId?.isSome := by
  have hclassic : ∀ {input q outs}, Paxos.Move p.paxos input q outs →
      ∀ e ∈ outs, ∀ m, e.message? = some m → m.consensusId?.isSome := by
    intro input q outs hmove e he m hm
    rw [hmove.stamps.2 e he m hm]
    rfl
  cases h with
  | idle => exact fun e he => by cases he
  | propose jitter proposal =>
      intro e he m hm
      cases List.mem_singleton.1 he
      cases hm
      rfl
  | startClassic _ => exact hclassic p.paxos.startPhase1a_move
  | classic m _ => exact hclassic (p.paxos.receive_move m)
  | count => exact fun e he => by cases he
  | decide m =>
      intro e he m hm
      cases List.mem_singleton.1 he
      cases hm

theorem consensus_of_emitted {p : FastPaxos} {input : FastCommand ⊕ RapidRequest}
    {r : FastPaxos × List FastOutgoing}
    (hmove : FastPaxos.Move p input (FastPaxos.visible r).1 (FastPaxos.visible r).2)
    {m : RapidRequest} (hm : EmittedBy r.2 m) : m.consensusId?.isSome := by
  rcases hm with ⟨out, hout, e, he, hmessage⟩
  exact hmove.consensus e (List.mem_filterMap.2 ⟨out, hout, he⟩) m hmessage

/-- Apart from the batches of a tick the actor sends consensus messages only. -/
theorem SentBecause.consensus {m : RapidRequest} (h : SentBecause env cmd s effects m) :
    (cmd = .tickAlertBatcher ∧ s.sendQueue ≠ [] ∧ m = s.queuedBatch) ∨ m.consensusId?.isSome := by
  cases h with
  | batch hcmd hwaiting => exact .inl ⟨hcmd, hwaiting, rfl⟩
  | answer fp called r m hfp hcall hemitted =>
      cases hcall with
      | message request reply hcmd =>
          exact .inr (consensus_of_emitted (fp.handleConsensusMessage_move request) hemitted)
      | classic hcmd => exact .inr (consensus_of_emitted (fp.run_move .startClassicRound) hemitted)
  | vote msg reply fp m hcmd hfp hproposal hcalled hemitted =>
      exact .inr (consensus_of_emitted
        (fp.run_move (.propose env.jitter (s.handleBatchedAlerts env msg).2)) hemitted)

end Rapid
