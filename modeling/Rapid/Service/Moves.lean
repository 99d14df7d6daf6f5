import Rapid.Service.Decision
import Rapid.Consensus.Moves
import Rapid.Foundations.EffectPath
import Rapid.Foundations.Transition

/-!
# Moves — every command as a sequence of moves

`Move` lists what the actor can do while it handles a command, short of a decision, and `Act` adds
that a command leads to at most one decision. What is proved of each move and of a decision then
holds of every command, and by `serviceSystem` of every run.
-/

namespace Rapid

open Foundations

variable [Xxh64]

/-! ## Moves -/

/-- The moves made while `cmd` is handled. -/
inductive Move (env : Environment) (cmd : ServiceCommand) :
    ServiceState → List Effect → ServiceState → Prop
  | calm {s s' : ServiceState} {effects : List Effect} (h : ServiceState.Calm s (s', effects)) :
      Move env cmd s effects s'
  | initialView (s : ServiceState) (reply : ReplyId) (hcmd : cmd = .publishInitialView reply) :
      Move env cmd s (s.publishInitialView env).2 (s.publishInitialView env).1
  | preJoin (s : ServiceState) (msg : PreJoinMessage) (reply : ReplyId)
      (hcmd : cmd = .request ⟨some (.preJoinMessage msg)⟩ reply) :
      Move env cmd s [.reply reply (ServiceState.joinReply (s.handlePreJoin msg).2)]
        (s.handlePreJoin msg).1
  | join (s : ServiceState) (msg : JoinMessage) (reply : ReplyId)
      (hcmd : cmd = .request ⟨some (.joinMessage msg)⟩ reply) :
      Move env cmd s (s.handleJoin env msg reply).2 (s.handleJoin env msg reply).1
  | alerts (s : ServiceState) (msg : BatchedAlertMessage)
      (hidle : (s.handleBatchedAlerts env msg).2 = [] ∨ s.fastPaxos = none) :
      Move env cmd s (s.handleBatchedAlerts env msg).1.2 (s.handleBatchedAlerts env msg).1.1
  | announce (s : ServiceState) (msg : BatchedAlertMessage) (fp : FastPaxos)
      (broadcasts : List Effect) (delay : Duration)
      (hproposal : (s.handleBatchedAlerts env msg).2 ≠ []) (hfp : s.fastPaxos = some fp)
      (hsilent : ∀ e ∈ broadcasts, e.Silent) (hrunning : s.lifecycle = .running) :
      Move env cmd s
        ((s.handleBatchedAlerts env msg).1.2 ++
          [.call (.propose (s.handleBatchedAlerts env msg).2)] ++ broadcasts ++
          s.pendingFallback.toList.map .abortFallback ++ [.spawnFallback s.timersSpawned delay])
        { (s.handleBatchedAlerts env msg).1.1 with
          fastPaxos := some (fp.propose env.jitter (s.handleBatchedAlerts env msg).2).1
          pendingFallback := some s.timersSpawned
          timersSpawned := s.timersSpawned + 1 }
  | message (s : ServiceState) (request : RapidRequest) (fp : FastPaxos)
      (hfp : s.fastPaxos = some fp) :
      Move env cmd s [] { s with fastPaxos := some (fp.handleConsensusMessage request).1 }
  | startClassic (s : ServiceState) (fp : FastPaxos) (hcmd : cmd = .startClassicRound)
      (hfp : s.fastPaxos = some fp) :
      Move env cmd s [.call .startClassicRound]
        { s with fastPaxos := some fp.startClassicRound.1 }
  | shutdown (s : ServiceState) : Move env cmd s [] { s with lifecycle := .shuttingDown }

/-- A decision followed by the replacement of the instance, as both callers do it. -/
def ServiceState.decideAndReplace (s : ServiceState) (env : Environment)
    (proposal : List Endpoint) : Outcome :=
  (s.decideViewChange env proposal).andThen ServiceState.reinstateFastPaxos

/-- What is left of the effects of a decision once silent effects and replies are dropped. -/
theorem ServiceState.filterMap_decide {β : Type*} {f : Effect → Option β} (s : ServiceState)
    (env : Environment) (proposal : List Endpoint) (hsilent : ∀ e : Effect, e.Silent → f e = none)
    (hreply : ∀ id reply, f (.reply id reply) = none) :
    (s.decideAndReplace env proposal).2.filterMap f =
      [.call (.decideViewChange s proposal),
          .publish .viewChange (s.changeOf proposal)].filterMap f ++
        (s.pendingFallback.toList.map Effect.abortFallback).filterMap f ++
        [.call .newFastPaxos, .call .newFastPaxos].filterMap f := by
  rcases (s.decideViewChange_decided env proposal).effects with
    ⟨before, between, replies, hbefore, hbetween, hreplies, heffects⟩
  have heq : (s.decideAndReplace env proposal).2 = _ := heffects
  have hnone : ∀ {effects : List Effect}, (∀ e ∈ effects, e.Silent) → effects.filterMap f = [] :=
    fun h => List.filterMap_eq_nil_iff.2 fun e he => hsilent e (h e he)
  -- The replies at the end are answers to parked joiners.
  have hanswers : replies.filterMap f = [] := by
    refine List.filterMap_eq_nil_iff.2 fun e he => ?_
    rcases (hreplies e he).sent with ⟨_, _, _, _, id, _, _, rfl, _⟩
    exact hreply id _
  have hcons : ∀ e e' : Effect, [e, e'].filterMap f = [e].filterMap f ++ [e'].filterMap f :=
    fun e e' => List.filterMap_append (l := [e])
  rw [heq, hcons, hcons]
  simp only [List.filterMap_append, hnone hbefore, hnone hbetween, hanswers, List.nil_append,
    List.append_assoc]

/-- A decision is recorded. -/
theorem ServiceState.call_mem_decide (s : ServiceState) (env : Environment)
    (proposal : List Endpoint) :
    .call (.decideViewChange s proposal) ∈ (s.decideAndReplace env proposal).2 := by
  rcases (s.decideViewChange_decided env proposal).effects with ⟨_, _, _, _, _, _, heffects⟩
  have heq : (s.decideAndReplace env proposal).2 = _ := heffects
  rw [heq]
  simp

/-- What the handling of a command does: moves, and perhaps one decision among them. -/
inductive Act (env : Environment) (cmd : ServiceCommand) (s : ServiceState) :
    List Effect → ServiceState → Prop
  | stay {s' : ServiceState} {effects : List Effect}
      (h : EffectPath (Move env cmd) s effects s') : Act env cmd s effects s'
  | decide {t s' : ServiceState} {before after : List Effect} (proposal : List Endpoint)
      (h : EffectPath (Move env cmd) s before t)
      (hcalm : ServiceState.Calm (t.decideAndReplace env proposal).1 (s', after)) :
      Act env cmd s (before ++ (t.decideAndReplace env proposal).2 ++ after) s'

section Rules

variable {env : Environment} {cmd : ServiceCommand} {s s' : ServiceState} {effects : List Effect}

theorem Act.ofOutcome {outcome : Outcome} (h : Act env cmd s outcome.2 outcome.1)
    {after : ServiceState → List Effect} (hsilent : ∀ t, ∀ e ∈ after t, e.Silent) :
    Act env cmd s (outcome.andThen fun t => (t, after t)).2
      (outcome.andThen fun t => (t, after t)).1 := by
  rw [Outcome.andThen_effects, Outcome.andThen_state]
  have hcalm : ServiceState.Calm outcome.1 (outcome.1, after outcome.1) :=
    .stay (hsilent outcome.1)
  generalize outcome.1 = final at h hcalm
  generalize outcome.2 = done at h
  cases h with
  | stay hpath => exact .stay (hpath.append (.single (.calm hcalm)))
  | decide proposal hpath hafter =>
      rename_i t early late
      have hlast : ServiceState.Calm (t.decideAndReplace env proposal).1
          (Outcome.andThen (final, late) fun t => (t, after t)) := hafter.andThen hcalm
      rw [List.append_assoc]
      exact .decide proposal hpath hlast

/-- What every move, and every decision, keeps is kept by every command. -/
theorem Act.invariant {I : ServiceState → List Effect → Prop} {ok : Effect → Prop}
    (hmove : ∀ s es t trace, I s trace → (∀ e ∈ es, ok e) → Move env cmd s es t →
      I t (trace ++ es))
    (hdecide : ∀ s proposal trace, I s trace →
      (∀ e ∈ (s.decideAndReplace env proposal).2, ok e) →
        I (s.decideAndReplace env proposal).1 (trace ++ (s.decideAndReplace env proposal).2))
    (h : Act env cmd s effects s') (hok : ∀ e ∈ effects, ok e) {trace : List Effect}
    (hI : I s trace) : I s' (trace ++ effects) := by
  cases h with
  | stay hpath => exact hpath.invariant hmove hok hI
  | decide proposal hpath hcalm =>
      rename_i t before after
      have hbefore : I t (trace ++ before) :=
        hpath.invariant hmove (fun e he => hok e (by simp [he])) hI
      have hdecided := hdecide t proposal _ hbefore (fun e he => hok e (by simp [he]))
      have hafter := hmove _ _ _ _ hdecided (fun e he => hok e (by simp [he])) (.calm hcalm)
      simpa using hafter

end Rules

/-! ## Consensus outputs -/

/-- An output that is only a message. -/
def FastOutgoing.IsSend : FastOutgoing → Prop
  | .broadcast _ => True
  | .unicast _ _ => True
  | _ => False

/-- Messages, or one decision and nothing else. -/
def Orderly (outs : List FastOutgoing) : Prop :=
  (∀ out ∈ outs, out.IsSend) ∨ ∃ proposal, outs = [.decision proposal]

omit [Xxh64] in
theorem orderly_nil : Orderly [] :=
  .inl fun out hout => by cases hout

theorem orderly_of_move {p p' : Paxos} {input : PaxosCommand ⊕ RapidRequest}
    {outs : List PaxosOutgoing} (h : Paxos.Move p input p' outs) : Orderly (outs.map wrap) := by
  have hsend : ∀ {e : PaxosOutgoing}, (wrap e).IsSend → Orderly ([e].map wrap) := by
    intro e he
    refine .inl ?_
    intro out hout
    cases List.mem_singleton.1 hout
    exact he
  cases h with
  | idle => exact orderly_nil
  | register => exact orderly_nil
  | prepare => exact hsend trivial
  | promiseSilent => exact orderly_nil
  | promise => exact hsend trivial
  | collect => exact orderly_nil
  | propose => exact hsend trivial
  | accept => exact hsend trivial
  | learn => exact orderly_nil
  | decide m => exact .inr ⟨m.endpoints, rfl⟩

namespace FastPaxos

variable (self : FastPaxos)

omit [Xxh64] in
theorem orderly_handleFastRoundProposal (msg : FastRoundPhase2bMessage) :
    Orderly (self.handleFastRoundProposal msg).2 := by
  unfold handleFastRoundProposal
  split
  · exact orderly_nil
  · split
    · exact orderly_nil
    · split
      · exact orderly_nil
      · dsimp only
        split
        · exact .inr ⟨msg.endpoints, rfl⟩
        · exact orderly_nil

theorem orderly_handleConsensusMessage (request : RapidRequest) :
    Orderly (self.handleConsensusMessage request).2 := by
  obtain ⟨content⟩ := request
  cases content with
  | none => exact orderly_nil
  | some content =>
      cases content with
      | phase1aMessage msg => exact orderly_of_move (self.paxos.handlePhase1a_move msg)
      | phase1bMessage msg => exact orderly_of_move (self.paxos.handlePhase1b_move msg)
      | phase2aMessage msg => exact orderly_of_move (self.paxos.handlePhase2a_move msg)
      | phase2bMessage msg => exact orderly_of_move (self.paxos.handlePhase2b_move msg)
      | fastRoundPhase2bMessage msg => exact self.orderly_handleFastRoundProposal msg
      | _ => exact orderly_nil

theorem orderly_startClassicRound : Orderly self.startClassicRound.2 := by
  unfold startClassicRound
  split
  · exact orderly_nil
  · exact orderly_of_move self.paxos.startPhase1a_move

end FastPaxos

/-! ## Every command is an act -/

namespace ServiceState

variable {env : Environment} {cmd : ServiceCommand}

theorem calm_dispatch {outs : List FastOutgoing} (hsend : ∀ out ∈ outs, out.IsSend) :
    ∀ s : ServiceState, Calm s (dispatch env outs s) := by
  induction outs with
  | nil =>
      intro s
      exact .stay fun e he => by cases he
  | cons out outs ih =>
      intro s
      have hfirst : Calm s (dispatchOne env out s) := by
        cases out with
        | broadcast request =>
            refine .stay ?_
            intro e he
            split at he
            · cases List.mem_singleton.1 he
              trivial
            · cases he
        | unicast target request =>
            refine .stay ?_
            intro e he
            split at he
            · cases List.mem_singleton.1 he
              trivial
            · cases he
        | scheduleClassicFallback delay => exact (hsend _ List.mem_cons_self).elim
        | decision proposal => exact (hsend _ List.mem_cons_self).elim
      exact hfirst.andThen (ih (fun out hout => hsend out (List.mem_cons_of_mem _ hout)) _)

/-- The outputs of an instance lead to sends or to one decision. -/
theorem dispatch_act {s t : ServiceState} {before : List Effect} {outs : List FastOutgoing}
    (hpath : EffectPath (Move env cmd) s before t) (horderly : Orderly outs) :
    Act env cmd s (before ++ (dispatch env outs t).2) (dispatch env outs t).1 := by
  rcases horderly with hsend | ⟨proposal, rfl⟩
  · exact .stay (hpath.append (.single (.calm (calm_dispatch hsend t))))
  · have hcalm : Calm (t.decideAndReplace env proposal).1
        ((t.decideAndReplace env proposal).1, []) := .stay fun e he => by cases he
    have hact := Act.decide proposal hpath hcalm
    rw [List.append_assoc] at hact
    exact hact

/-! ### Alerts -/

omit [Xxh64] in
/-- Only the joiner tables may differ. -/
def Learns (s s' : ServiceState) : Prop :=
  s' = { s with
    joinerUuid := s'.joinerUuid
    joinerMetadata := s'.joinerMetadata }

omit [Xxh64] in
theorem Learns.trans {s t u : ServiceState} (h : Learns s t) (h' : Learns t u) : Learns s u := by
  unfold Learns at h h' ⊢
  rw [h', h]

omit [Xxh64] in
theorem extractJoiner_learns (s : ServiceState) (alert : AlertMessage) :
    Learns s (s.extractJoiner alert) := by
  unfold extractJoiner
  split
  · rfl
  · split
    · rfl
    · rfl

omit [Xxh64] in
theorem filterAlerts_learns (currentConfig : Int64) (alerts : List AlertMessage) :
    ∀ s : ServiceState, Learns s (filterAlerts currentConfig alerts s).1 := by
  induction alerts with
  | nil =>
      intro s
      rfl
  | cons alert alerts ih =>
      intro s
      rw [filterAlerts]
      split
      · exact (extractJoiner_learns s alert).trans (ih _)
      · exact ih s

/-- A batch of alerts touches the view, the detector, the joiner tables and the lifecycle only. -/
theorem handleBatchedAlerts_frame (env : Environment) (s : ServiceState) (msg : BatchedAlertMessage) :
    (s.handleBatchedAlerts env msg).1.1 =
      { s with
        view := (s.handleBatchedAlerts env msg).1.1.view
        cutDetector := (s.handleBatchedAlerts env msg).1.1.cutDetector
        joinerUuid := (s.handleBatchedAlerts env msg).1.1.joinerUuid
        joinerMetadata := (s.handleBatchedAlerts env msg).1.1.joinerMetadata
        lifecycle := (s.handleBatchedAlerts env msg).1.1.lifecycle } := by
  have hlearns := filterAlerts_learns s.configurationId.2 msg.messages s.configurationId.1
  unfold Learns at hlearns
  unfold handleBatchedAlerts
  dsimp only
  split
  · rfl
  · rw [hlearns]
    split
    · rfl
    · rfl

theorem silent_handleBatchedAlerts (s : ServiceState) (msg : BatchedAlertMessage) :
    ∀ e ∈ (s.handleBatchedAlerts env msg).1.2, e.Silent := by
  unfold handleBatchedAlerts
  dsimp only
  intro e he
  split at he
  · cases he
  · split at he
    · cases he
    · dsimp only at he
      split at he
      · cases List.mem_singleton.1 he
        trivial
      · cases he

/-- Only an actor that has not announced a proposal yet announces one. -/
theorem handleBatchedAlerts_lifecycle (env : Environment) (s : ServiceState)
    (msg : BatchedAlertMessage) :
    ((s.handleBatchedAlerts env msg).1.1.lifecycle = s.lifecycle ∨
        (s.handleBatchedAlerts env msg).1.1.lifecycle = .announcedProposal) ∧
      ((s.handleBatchedAlerts env msg).2 ≠ [] → s.lifecycle ≠ .announcedProposal ∧
        (s.handleBatchedAlerts env msg).1.1.lifecycle = .announcedProposal) := by
  have hlearns := filterAlerts_learns s.configurationId.2 msg.messages s.configurationId.1
  unfold Learns at hlearns
  unfold handleBatchedAlerts
  dsimp only
  split
  · exact ⟨.inl rfl, fun hne => absurd rfl hne⟩
  · rename_i hlifecycle
    split
    · refine ⟨.inl ?_, fun hne => absurd rfl hne⟩
      rw [hlearns]
      rfl
    · exact ⟨.inr rfl, fun _ => ⟨hlifecycle, rfl⟩⟩

/-- An announced proposal: the vote, its broadcast and the fallback timer. -/
theorem propose_eq (env : Environment) {s : ServiceState} {fp : FastPaxos} (hfp : s.fastPaxos = some fp)
    (proposal : List Endpoint) :
    ∃ broadcasts delay, (∀ e ∈ broadcasts, e.Silent) ∧
      s.propose env proposal =
        ({ s with
            fastPaxos := some (fp.propose env.jitter proposal).1
            pendingFallback := some s.timersSpawned
            timersSpawned := s.timersSpawned + 1 },
          [.call (.propose proposal)] ++ broadcasts ++
            s.pendingFallback.toList.map .abortFallback ++
              [.spawnFallback s.timersSpawned delay]) := by
  refine ⟨if s.broadcaster then [.broadcast ⟨some (.fastRoundPhase2bMessage
    { configurationId := fp.configurationId, endpoints := proposal, sender := some fp.myAddr })⟩]
    else [], fp.randomDelay env.jitter, ?_, ?_⟩
  · intro e he
    split at he
    · cases List.mem_singleton.1 he
      trivial
    · cases he
  · -- The four parts of the dispatch, in the order of the code.
    unfold propose
    rw [hfp]
    simp only [FastPaxos.propose, dispatch, dispatchOne, spawnFallback, Outcome.andThen,
      List.append_nil, List.append_assoc]

/-- A batch of alerts is one move, with or without an announcement. -/
theorem handleBatchedAlerts_act (s : ServiceState) (msg : BatchedAlertMessage)
    (hup : s.lifecycle ≠ .shuttingDown) :
    let outcome := (s.handleBatchedAlerts env msg).1.andThen fun t =>
      if (s.handleBatchedAlerts env msg).2 = [] then (t, [])
      else t.propose env (s.handleBatchedAlerts env msg).2
    Act env cmd s outcome.2 outcome.1 := by
  have hidle : ∀ h : (s.handleBatchedAlerts env msg).2 = [] ∨ s.fastPaxos = none,
      Act env cmd s ((s.handleBatchedAlerts env msg).1.2 ++ []) (s.handleBatchedAlerts env msg).1.1 := by
    intro h
    rw [List.append_nil]
    exact .stay (.single (.alerts s msg h))
  by_cases hproposal : (s.handleBatchedAlerts env msg).2 = []
  · simp only [Outcome.andThen_state, Outcome.andThen_effects, hproposal, if_true]
    exact hidle (.inl hproposal)
  · simp only [Outcome.andThen_state, Outcome.andThen_effects, hproposal, if_false]
    have hframe := handleBatchedAlerts_frame env s msg
    have hinstance : (s.handleBatchedAlerts env msg).1.1.fastPaxos = s.fastPaxos := by
      rw [hframe]
    cases hfp : s.fastPaxos with
    | none =>
        -- Nobody to propose to.
        rw [propose, hinstance.trans hfp]
        exact hidle (.inr hfp)
    | some fp =>
        have hpending : (s.handleBatchedAlerts env msg).1.1.pendingFallback = s.pendingFallback := by
          rw [hframe]
        have htimers : (s.handleBatchedAlerts env msg).1.1.timersSpawned = s.timersSpawned := by
          rw [hframe]
        rcases propose_eq env (hinstance.trans hfp) (s.handleBatchedAlerts env msg).2 with
          ⟨broadcasts, delay, hbroadcasts, heq⟩
        rw [heq, hpending, htimers]
        have hrunning : s.lifecycle = .running := by
          cases hlifecycle : s.lifecycle with
          | running => rfl
          | announcedProposal =>
              exact absurd hlifecycle ((handleBatchedAlerts_lifecycle env s msg).2 hproposal).1
          | shuttingDown => exact absurd hlifecycle hup
        have hmove : Move env cmd s _ _ :=
          .announce s msg fp broadcasts delay hproposal hfp hbroadcasts hrunning
        simpa only [List.append_assoc] using Act.stay (EffectPath.single hmove)

theorem handleRequest_act (s : ServiceState) (request : RapidRequest) (reply : ReplyId)
    (hcmd : cmd = .request request reply) :
    Act env cmd s (s.handleRequest env request reply).2 (s.handleRequest env request reply).1 := by
  have hsilent : ∀ (answer : Reply), Effect.Silent (.reply reply answer) →
      ∀ t : ServiceState, ∀ e ∈ [Effect.reply reply answer], e.Silent := by
    intro answer hanswer t e he
    cases List.mem_singleton.1 he
    exact hanswer
  have hreply : ∀ {t : ServiceState} (answer : Reply), Quiet s t →
      Effect.Silent (.reply reply answer) → Act env cmd s [.reply reply answer] t := by
    intro t answer hquiet hanswer
    exact .stay (.single (.calm ⟨hquiet, hsilent answer hanswer t⟩))
  obtain ⟨content⟩ := request
  unfold handleRequest
  split
  · exact hreply _ (.refl s) trivial
  · rename_i hup
    cases content with
    | none => exact hreply _ (.refl s) trivial
    | some content =>
        -- The five consensus messages take the same path.
        have hconsensus : ∀ r : RapidRequest, Act env cmd s
            ((s.handleConsensusRequest env r).andThen fun t => (t, [.reply reply emptyReply])).2
            ((s.handleConsensusRequest env r).andThen fun t => (t, [.reply reply emptyReply])).1 := by
          intro r
          refine Act.ofOutcome ?_ (hsilent _ trivial)
          unfold handleConsensusRequest
          cases hfp : s.fastPaxos with
          | none => exact .stay (.nil s)
          | some fp =>
              exact dispatch_act (.single (.message s r fp hfp))
                (fp.orderly_handleConsensusMessage r)
        cases content with
        | preJoinMessage msg => exact .stay (.single (.preJoin s msg reply hcmd))
        | joinMessage msg => exact .stay (.single (.join s msg reply hcmd))
        | batchedAlertMessage msg =>
            exact Act.ofOutcome (handleBatchedAlerts_act s msg hup) (hsilent _ trivial)
        | probeMessage msg => exact hreply _ (.refl s) trivial
        | leaveMessage msg =>
            dsimp only
            split
            · exact hreply _ (.refl s) trivial
            · exact hreply _ (s.quiet_configurationId.trans (quiet_handleEdgeFailure _ _ _)) trivial
        | fastRoundPhase2bMessage msg => exact hconsensus _
        | phase1aMessage msg => exact hconsensus _
        | phase1bMessage msg => exact hconsensus _
        | phase2aMessage msg => exact hconsensus _
        | phase2bMessage msg => exact hconsensus _

/-- Every command is an act of the actor. -/
theorem handleCommand_act (s : ServiceState) :
    Act env cmd s (s.handleCommand env cmd).1.2 (s.handleCommand env cmd).1.1 := by
  have hcalm : ∀ {outcome : Outcome}, Calm s outcome → Act env cmd s outcome.2 outcome.1 :=
    fun h => .stay (.single (.calm h))
  -- Queries answer from a state that is refreshed at most.
  have hanswer : ∀ {t : ServiceState} {e : Effect}, Quiet s t → e.Silent →
      Act env cmd s [e] t := by
    intro t e hquiet he
    have houtcome : Calm s (t, [e]) := by
      refine ⟨hquiet, ?_⟩
      intro e' he'
      cases List.mem_singleton.1 he'
      exact he
    exact hcalm houtcome
  unfold handleCommand
  cases cmd with
  | request request reply => exact handleRequest_act s request reply rfl
  | memberlist reply => exact hanswer (.refl s) trivial
  | membershipSize reply => exact hanswer (.refl s) trivial
  | metadata reply => exact hanswer (.refl s) trivial
  | configurationId reply => exact hanswer s.quiet_configurationId trivial
  | shutdown => exact .stay (.single (.shutdown s))
  | tickAlertBatcher => exact hcalm (s.calm_handleTick env.now)
  | edgeFailure ev =>
      exact hcalm ⟨s.quiet_handleEdgeFailure env.now ev, fun e he => by cases he⟩
  | rebuildFailureDetectors reply =>
      refine Act.ofOutcome (hcalm s.calm_rebuildDetectors) ?_
      intro t e he
      cases List.mem_singleton.1 he
      trivial
  | alertQueueLen reply => exact hanswer (.refl s) trivial
  | applyProposal proposal reply =>
      -- The proposal is applied at once, without consensus.
      have hdecide : Act env (.applyProposal proposal reply) s
          (s.decideAndReplace env proposal).2 (s.decideAndReplace env proposal).1 := by
        have hstay : Calm (s.decideAndReplace env proposal).1
            ((s.decideAndReplace env proposal).1, []) := .stay fun e he => by cases he
        have hact : Act env (.applyProposal proposal reply) s
            ([] ++ (s.decideAndReplace env proposal).2 ++ []) _ := .decide proposal (.nil s) hstay
        simpa using hact
      refine Act.ofOutcome hdecide ?_
      intro t e he
      cases List.mem_singleton.1 he
      trivial
  | startClassicRound =>
      unfold startClassic
      cases hfp : s.fastPaxos with
      | none => exact .stay (.nil s)
      | some fp =>
          exact dispatch_act (.single (.startClassic s fp rfl hfp)) fp.orderly_startClassicRound
  | publishInitialView reply =>
      refine Act.ofOutcome (.stay (.single (.initialView s reply rfl))) ?_
      intro t e he
      cases List.mem_singleton.1 he
      trivial

end ServiceState

end Rapid
