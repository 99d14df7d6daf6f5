import Rapid.Service.ServiceSystem

/-!
# Pieces — every command in full detail

`Move` forgets what the silent effects of a handler are. A `Piece` keeps them all: every message,
task, reply and event, with the command that it comes from. The handling of a command is a sequence
of pieces, so whatever each piece keeps, every run keeps.
-/

namespace Rapid

open Foundations

variable [Xxh64]

/-! ## The pieces -/

/-- The call of the consensus instance that a command asks for. -/
inductive InstanceCalled (cmd : ServiceCommand) (fp : FastPaxos) :
    List Effect → FastPaxos × List FastOutgoing → Prop
  | message (request : RapidRequest) (reply : ReplyId) (hcmd : cmd = .request request reply) :
      InstanceCalled cmd fp [] (fp.handleConsensusMessage request)
  | classic (hcmd : cmd = .startClassicRound) :
      InstanceCalled cmd fp [.call .startClassicRound] fp.startClassicRound

/-- A failure that a command reports: a notification, or a leave of the node itself. -/
inductive ReportsFailure (s : ServiceState) (cmd : ServiceCommand) : EdgeFailure → Prop
  | notified (ev : EdgeFailure) (hcmd : cmd = .edgeFailure ev) : ReportsFailure s cmd ev
  | left (msg : LeaveMessage) (reply : ReplyId) (sender : Endpoint)
      (hcmd : cmd = .request ⟨some (.leaveMessage msg)⟩ reply) (hsender : msg.sender = some sender) :
      ReportsFailure s cmd ⟨sender, s.view.currentConfigurationId.2⟩

/-- What is done while `cmd` is handled, with all its effects. -/
inductive Piece (env : Environment) (cmd : ServiceCommand) :
    ServiceState → List Effect → ServiceState → Prop
  | refresh (s : ServiceState) : Piece env cmd s [] s.configurationId.1
  | reply (s : ServiceState) (id : ReplyId) (answer : Reply) (hcmd : cmd.reply? = some id) :
      Piece env cmd s [.reply id answer] s
  | shutdown (s : ServiceState) (hcmd : cmd = .shutdown) :
      Piece env cmd s [] { s with lifecycle := .shuttingDown }
  | initialView (s : ServiceState) (reply : ReplyId) (hcmd : cmd = .publishInitialView reply) :
      Piece env cmd s (s.publishInitialView env).2 (s.publishInitialView env).1
  | park (s : ServiceState) (msg : JoinMessage) (reply : ReplyId)
      (hcmd : cmd = .request ⟨some (.joinMessage msg)⟩ reply)
      (hcurrent : s.view.currentConfigurationId.2 = msg.configurationId) :
      Piece env cmd s []
        (s.configurationId.1.parkJoiner env.now s.view.currentConfigurationId.2
          (msg.sender.getD default) (msg.nodeId.getD default) msg reply)
  | failure (s : ServiceState) (ev : EdgeFailure) (hreports : ReportsFailure s cmd ev) :
      Piece env cmd s [] (s.handleEdgeFailure env.now ev)
  | tick (s : ServiceState) (hcmd : cmd = .tickAlertBatcher) :
      Piece env cmd s (s.handleTick env.now).2 (s.handleTick env.now).1
  | rebuild (s : ServiceState) (reply : ReplyId) (hcmd : cmd = .rebuildFailureDetectors reply) :
      Piece env cmd s s.rebuildDetectors.2 s.rebuildDetectors.1
  | alerts (s : ServiceState) (msg : BatchedAlertMessage) (reply : ReplyId)
      (hcmd : cmd = .request ⟨some (.batchedAlertMessage msg)⟩ reply)
      (hidle : (s.handleBatchedAlerts env msg).2 = [] ∨ s.fastPaxos = none) :
      Piece env cmd s (s.handleBatchedAlerts env msg).1.2 (s.handleBatchedAlerts env msg).1.1
  | announce (s : ServiceState) (msg : BatchedAlertMessage) (reply : ReplyId) (fp : FastPaxos)
      (hcmd : cmd = .request ⟨some (.batchedAlertMessage msg)⟩ reply)
      (hproposal : (s.handleBatchedAlerts env msg).2 ≠ []) (hfp : s.fastPaxos = some fp)
      (hup : s.lifecycle ≠ .shuttingDown) :
      Piece env cmd s
        ((s.handleBatchedAlerts env msg).1.2 ++
          ((s.handleBatchedAlerts env msg).1.1.propose env (s.handleBatchedAlerts env msg).2).2)
        ((s.handleBatchedAlerts env msg).1.1.propose env (s.handleBatchedAlerts env msg).2).1
  | consult (s : ServiceState) (fp : FastPaxos) (called : List Effect)
      (r : FastPaxos × List FastOutgoing) (hfp : s.fastPaxos = some fp)
      (hcall : InstanceCalled cmd fp called r) (hsends : ∀ out ∈ r.2, out.IsSend) :
      Piece env cmd s
        (called ++ (ServiceState.dispatch env r.2 { s with fastPaxos := some r.1 }).2)
        { s with fastPaxos := some r.1 }
  | decided (s : ServiceState) (fp : FastPaxos) (called : List Effect)
      (r : FastPaxos × List FastOutgoing) (proposal : List Endpoint) (hfp : s.fastPaxos = some fp)
      (hcall : InstanceCalled cmd fp called r) (houts : r.2 = [.decision proposal]) :
      Piece env cmd s
        (called ++ (({ s with fastPaxos := some r.1 } : ServiceState).decideAndReplace env proposal).2)
        (({ s with fastPaxos := some r.1 } : ServiceState).decideAndReplace env proposal).1
  | applied (s : ServiceState) (proposal : List Endpoint) (reply : ReplyId)
      (hcmd : cmd = .applyProposal proposal reply) :
      Piece env cmd s (s.decideAndReplace env proposal).2 (s.decideAndReplace env proposal).1

variable {env : Environment} {cmd : ServiceCommand}

abbrev Pieces (env : Environment) (cmd : ServiceCommand) :
    ServiceState → List Effect → ServiceState → Prop :=
  EffectPath (Piece env cmd)

namespace ServiceState

/-! ## Consensus outputs -/

/-- Outputs that are messages are sent, or dropped where no collaborator is attached. -/
theorem dispatch_sends {outs : List FastOutgoing} (hsends : ∀ out ∈ outs, out.IsSend) :
    ∀ s : ServiceState, (dispatch env outs s).1 = s := by
  induction outs with
  | nil => exact fun s => rfl
  | cons out outs ih =>
      intro s
      have hfirst : (dispatchOne env out s).1 = s := by
        cases out with
        | broadcast request => rfl
        | unicast target request => rfl
        | scheduleClassicFallback delay => exact (hsends _ List.mem_cons_self).elim
        | decision proposal => exact (hsends _ List.mem_cons_self).elim
      rw [dispatch, Outcome.andThen_state, ih fun o ho => hsends o (List.mem_cons_of_mem _ ho), hfirst]

/-- A decision that comes alone. -/
theorem dispatch_decision (s : ServiceState) (proposal : List Endpoint) :
    dispatch env [.decision proposal] s = s.decideAndReplace env proposal :=
  Prod.ext rfl (List.append_nil _)

theorem pieces_called {s : ServiceState} {fp : FastPaxos} {called : List Effect}
    {r : FastPaxos × List FastOutgoing} (hfp : s.fastPaxos = some fp)
    (hcall : InstanceCalled cmd fp called r) :
    Pieces env cmd s (called ++ (dispatch env r.2 { s with fastPaxos := some r.1 }).2)
      (dispatch env r.2 { s with fastPaxos := some r.1 }).1 := by
  have horderly : Orderly r.2 := by
    cases hcall with
    | message request reply hcmd => exact fp.orderly_handleConsensusMessage request
    | classic hcmd => exact fp.orderly_startClassicRound
  rcases horderly with hsends | ⟨proposal, houts⟩
  · rw [dispatch_sends hsends]
    exact .single (.consult s fp called r hfp hcall hsends)
  · rw [houts, dispatch_decision]
    exact .single (.decided s fp called r proposal hfp hcall houts)

/-! ## Requests -/

section Requests

variable (s : ServiceState) {reply : ReplyId}

theorem pieces_reply {t : ServiceState} {effects : List Effect} {answer : Reply}
    (hcmd : cmd.reply? = some reply) (h : Pieces env cmd s effects t) :
    Pieces env cmd s (effects ++ [.reply reply answer]) t :=
  h.append (.single (.reply t reply answer hcmd))

theorem pieces_join {msg : JoinMessage} (hcmd : cmd = .request ⟨some (.joinMessage msg)⟩ reply) :
    Pieces env cmd s (s.handleJoin env msg reply).2 (s.handleJoin env msg reply).1 := by
  have hreply : cmd.reply? = some reply := by
    rw [hcmd]
    rfl
  unfold handleJoin
  dsimp only
  split
  · rename_i hcurrent
    exact .single (.park s msg reply hcmd hcurrent)
  · have hrefreshed : Pieces env cmd s [] s.configurationId.1.configurationId.1 :=
      (EffectPath.single (Piece.refresh s)).append (.single (.refresh _))
    have hbuilt : (s.configurationId.1.buildConfigMismatchResponse env.metadataOrder
        (msg.sender.getD default) (msg.nodeId.getD default)).1 = s.configurationId.1.configurationId.1 := by
      unfold buildConfigMismatchResponse
      dsimp only
      split
      · rfl
      · rfl
    rw [hbuilt]
    exact pieces_reply s hreply hrefreshed

theorem pieces_alerts {msg : BatchedAlertMessage}
    (hcmd : cmd = .request ⟨some (.batchedAlertMessage msg)⟩ reply)
    (hup : s.lifecycle ≠ .shuttingDown) :
    let outcome := (s.handleBatchedAlerts env msg).1.andThen fun t =>
      if (s.handleBatchedAlerts env msg).2 = [] then (t, [])
      else t.propose env (s.handleBatchedAlerts env msg).2
    Pieces env cmd s outcome.2 outcome.1 := by
  have hidle : ∀ h : (s.handleBatchedAlerts env msg).2 = [] ∨ s.fastPaxos = none,
      Pieces env cmd s ((s.handleBatchedAlerts env msg).1.2 ++ [])
        (s.handleBatchedAlerts env msg).1.1 := by
    intro h
    rw [List.append_nil]
    exact .single (.alerts s msg reply hcmd h)
  by_cases hproposal : (s.handleBatchedAlerts env msg).2 = []
  · simp only [Outcome.andThen_state, Outcome.andThen_effects, hproposal, if_true]
    exact hidle (.inl hproposal)
  · simp only [Outcome.andThen_state, Outcome.andThen_effects, hproposal, if_false]
    cases hfp : s.fastPaxos with
    | none =>
        have hinstance : (s.handleBatchedAlerts env msg).1.1.fastPaxos = none := by
          rw [handleBatchedAlerts_frame env s msg]
          exact hfp
        rw [propose, hinstance]
        exact hidle (.inr hfp)
    | some fp => exact .single (.announce s msg reply fp hcmd hproposal hfp hup)

theorem pieces_consensus {request : RapidRequest} (hcmd : cmd = .request request reply) :
    Pieces env cmd s (s.handleConsensusRequest env request).2
      (s.handleConsensusRequest env request).1 := by
  unfold handleConsensusRequest
  cases hfp : s.fastPaxos with
  | none => exact .nil s
  | some fp => exact pieces_called hfp (.message request reply hcmd)

theorem pieces_handleRequest {request : RapidRequest} (hcmd : cmd = .request request reply) :
    Pieces env cmd s (s.handleRequest env request reply).2 (s.handleRequest env request reply).1 := by
  have hreply : cmd.reply? = some reply := by
    rw [hcmd]
    rfl
  have hanswer : ∀ answer, Pieces env cmd s [.reply reply answer] s :=
    fun answer => .single (.reply s reply answer hreply)
  obtain ⟨content⟩ := request
  unfold handleRequest
  split
  · exact hanswer _
  · rename_i hup
    cases content with
    | none => exact hanswer _
    | some content =>
        cases content with
        | preJoinMessage msg => exact pieces_reply s hreply (.single (.refresh s))
        | joinMessage msg => exact s.pieces_join hcmd
        | batchedAlertMessage msg => exact pieces_reply s hreply (s.pieces_alerts hcmd hup)
        | probeMessage msg => exact hanswer _
        | leaveMessage msg =>
            dsimp only
            split
            · exact hanswer _
            · rename_i sender hsender
              have hrefreshed : s.configurationId.1.view.currentConfigurationId.2 =
                  s.configurationId.2 :=
                congrArg Prod.snd MembershipView.currentConfigurationId_idem
              have hleft : ReportsFailure s.configurationId.1 cmd ⟨sender, s.configurationId.2⟩ := by
                rw [← hrefreshed]
                exact .left msg reply sender hcmd hsender
              exact pieces_reply s hreply
                ((EffectPath.single (Piece.refresh s)).append (.single (.failure _ _ hleft)))
        | fastRoundPhase2bMessage msg => exact pieces_reply s hreply (s.pieces_consensus hcmd)
        | phase1aMessage msg => exact pieces_reply s hreply (s.pieces_consensus hcmd)
        | phase1bMessage msg => exact pieces_reply s hreply (s.pieces_consensus hcmd)
        | phase2aMessage msg => exact pieces_reply s hreply (s.pieces_consensus hcmd)
        | phase2bMessage msg => exact pieces_reply s hreply (s.pieces_consensus hcmd)

/-- Every command is a sequence of pieces. -/
theorem pieces_handleCommand (cmd : ServiceCommand) :
    Pieces env cmd s (s.handleCommand env cmd).1.2 (s.handleCommand env cmd).1.1 := by
  cases cmd with
  | request request reply => exact s.pieces_handleRequest rfl
  | memberlist reply => exact .single (.reply s reply _ rfl)
  | membershipSize reply => exact .single (.reply s reply _ rfl)
  | metadata reply => exact .single (.reply s reply _ rfl)
  | configurationId reply => exact pieces_reply s rfl (.single (.refresh s))
  | shutdown => exact .single (.shutdown s rfl)
  | tickAlertBatcher => exact .single (.tick s rfl)
  | edgeFailure ev => exact .single (.failure s ev (.notified ev rfl))
  | rebuildFailureDetectors reply => exact pieces_reply s rfl (.single (.rebuild s reply rfl))
  | alertQueueLen reply => exact .single (.reply s reply _ rfl)
  | applyProposal proposal reply => exact pieces_reply s rfl (.single (.applied s proposal reply rfl))
  | startClassicRound =>
      show Pieces env .startClassicRound s (s.startClassic env).2 (s.startClassic env).1
      unfold startClassic
      cases hfp : s.fastPaxos with
      | none => exact .nil s
      | some fp => exact pieces_called hfp (.classic rfl)
  | publishInitialView reply => exact pieces_reply s rfl (.single (.initialView s reply rfl))

end Requests

end ServiceState

/-! ## Runs -/

/-- The invariant rule for runs in full detail: what holds at boot, when a command arrives and after
each piece, of the commands handled, the state and everything effected, holds in every run. -/
theorem serviceSystem_pieces {I : List ServiceCommand → ServiceState → List Effect → Prop}
    {guard : ServiceRun → Environment × ServiceCommand → Prop}
    (hboot : ∀ outcome, Boots outcome → I [] outcome.1 outcome.2)
    (harrive : ∀ (run : ServiceRun) cmd, run.fresh cmd = true → I run.handled run.state run.trace →
      I (run.handled ++ [cmd]) run.state run.trace)
    (hpiece : ∀ handled env cmd s es t trace, cmd ∈ handled → I handled s trace →
      Piece env cmd s es t → I handled t (trace ++ es))
    {run : ServiceRun} (h : serviceSystem.Reaches guard run) :
    I run.handled run.state run.trace := by
  refine h.invariant (I := fun run => I run.handled run.state run.trace) ?_ ?_
  · rintro run ⟨outcome, hbooted, rfl⟩
    exact hboot outcome hbooted
  · rintro run ⟨env, cmd⟩ run' _ hI _ hstep
    simp only [serviceSystem] at hstep
    split at hstep
    · rename_i hready
      cases hstep
      have hfresh : run.fresh cmd = true := (Bool.and_eq_true_iff.1 hready).2
      have hmem : cmd ∈ run.handled ++ [cmd] := List.mem_append_right _ List.mem_cons_self
      have hok : ∀ e ∈ (run.state.handleCommand env cmd).1.2, True := fun _ _ => trivial
      exact (run.state.pieces_handleCommand cmd).invariant
        (fun s es t trace hs _ hp => hpiece _ env cmd s es t trace hmem hs hp) hok
        (harrive run cmd hfresh hI)
    · cases hstep

end Rapid
