import Rapid.Cluster.ClusterSystem
import Rapid.CutDetector.Marking
import Rapid.Service.RealRings

/-!
# Grounds — no view change without a cause

Alerts, votes and decisions travel through the cluster, and any of them may be lost, delayed or
repeated. Still nothing is made up on the way: what an actor decides in a configuration, a detector
announced in that configuration, and for every node of an announcement somebody had handled a failure
report, a leave or a join in that configuration.
-/

namespace Rapid

open Foundations

section Grounds

variable [Xxh64]

/-! ## One batch -/

/-- The alert that a view can still use for this node. -/
def MembershipView.dueStatus (view : MembershipView) (x : Endpoint) : EdgeStatus :=
  if view.isHostPresent x then .down else .up

theorem MembershipView.Keeps.dueStatus {v w : MembershipView} (h : v.Keeps w) (x : Endpoint) :
    w.dueStatus x = v.dueStatus x := by
  unfold MembershipView.dueStatus MembershipView.isHostPresent
  rw [h.allNodes]

namespace ServiceState

variable {s : ServiceState} {P : Endpoint → Prop}

omit [Xxh64] in
theorem isValidAlert_due {alert : AlertMessage} {c : Int64} (h : s.isValidAlert alert c = true) :
    alert.configurationId = c ∧
      ∀ dst, alert.edgeDst = some dst →
        MultiNodeCutDetector.statusOf alert = s.view.dueStatus dst := by
  unfold isValidAlert at h
  split at h
  · cases h
  · rename_i hcurrent
    refine ⟨not_not.1 hcurrent, ?_⟩
    intro dst hdst
    rw [hdst] at h
    unfold MembershipView.dueStatus
    cases hstatus : MultiNodeCutDetector.statusOf alert with
    | up =>
        simp only [hstatus, Bool.not_eq_true'] at h
        simp [h]
    | down =>
        simp only [hstatus] at h
        simp [h]

omit [Xxh64] in
/-- What passes the first pass was in the batch, and is valid. -/
theorem mem_filterAlerts {c : Int64} {alert : AlertMessage} {alerts : List AlertMessage} :
    ∀ {s : ServiceState}, alert ∈ (filterAlerts c alerts s).2 →
      alert ∈ alerts ∧ s.isValidAlert alert c = true := by
  induction alerts with
  | nil => exact fun h => by cases h
  | cons first alerts ih =>
      intro s h
      rw [filterAlerts] at h
      split at h
      · rename_i hvalid
        rcases List.mem_cons.1 h with rfl | hrest
        · exact ⟨List.mem_cons_self, hvalid⟩
        · have hsame : (s.extractJoiner first).isValidAlert alert c = s.isValidAlert alert c := by
            have hlearns := extractJoiner_learns s first
            unfold isValidAlert
            rw [hlearns]
          rcases ih hrest with ⟨hmem, hlater⟩
          exact ⟨List.mem_cons_of_mem _ hmem, hsame ▸ hlater⟩
      · rcases ih h with ⟨hmem, hlater⟩
        exact ⟨List.mem_cons_of_mem _ hmem, hlater⟩

omit [Xxh64] in
theorem marks_aggregateAlerts (order : HashOrder EndpointKey) {alerts : List AlertMessage}
    (hdst : ∀ alert ∈ alerts, ∀ dst, alert.edgeDst = some dst → P dst) :
    ∀ {cd out}, MultiNodeCutDetector.MarksOnly P cd out →
      MultiNodeCutDetector.MarksOnly P (aggregateAlerts order alerts cd).1
        (out ++ (aggregateAlerts order alerts cd).2) := by
  induction alerts with
  | nil => exact fun h => by simpa [aggregateAlerts] using h
  | cons alert alerts ih =>
      intro cd out h
      have hfirst := h.aggregate order (hdst alert List.mem_cons_self)
      have hrest := ih (fun a ha => hdst a (List.mem_cons_of_mem _ ha)) hfirst
      simpa [aggregateAlerts] using hrest

/-- A batch makes the detector mark, and announce, nodes only that an accepted alert names. -/
theorem marks_handleBatchedAlerts (env : Environment) (msg : BatchedAlertMessage)
    (h : MultiNodeCutDetector.MarksOnly P s.cutDetector [])
    (hdst : ∀ alert ∈ s.acceptedAlerts msg, ∀ dst, alert.edgeDst = some dst → P dst) :
    MultiNodeCutDetector.MarksOnly P (s.handleBatchedAlerts env msg).1.1.cutDetector
      (s.handleBatchedAlerts env msg).2 := by
  by_cases hlifecycle : s.lifecycle = .announcedProposal
  · rw [s.handleBatchedAlerts_of_announced env msg hlifecycle]
    exact h
  · rcases handleBatchedAlerts_detected env msg hlifecycle with ⟨hdetector, _, hproposal⟩
    have haggregated := marks_aggregateAlerts env.proposalOrder hdst h
    have hinvalidated := MultiNodeCutDetector.MarksOnly.invalidateFailingEdges
      ⟨haggregated.marked, fun x hx => (by cases hx)⟩ env.preProposalOrder env.proposalOrder
      s.configurationId.1.view
    refine ⟨?_, ?_⟩
    · rw [hdetector]
      exact hinvalidated.marked
    · intro x hx
      rcases List.mem_append.1 (hproposal x hx) with hdirect | himplicit
      · exact haggregated.out x (List.mem_append_right _ hdirect)
      · exact hinvalidated.out x himplicit

theorem acceptedAlerts_due {msg : BatchedAlertMessage} {alert : AlertMessage}
    (h : alert ∈ s.acceptedAlerts msg) :
    alert ∈ msg.messages ∧ alert.configurationId = s.view.currentConfigurationId.2 ∧
      ∀ dst, alert.edgeDst = some dst →
        MultiNodeCutDetector.statusOf alert = s.view.dueStatus dst := by
  unfold acceptedAlerts at h
  split at h
  · cases h
  · rcases mem_filterAlerts h with ⟨hmem, hvalid⟩
    rcases isValidAlert_due hvalid with ⟨hid, hdue⟩
    refine ⟨hmem, hid, ?_⟩
    intro dst hdst
    exact (hdue dst hdst).trans ((MembershipView.Refreshes.current s.view).keeps.dueStatus dst)

end ServiceState

/-! ## Reasons -/

/-- The command asks to let this joiner into this configuration. -/
def ServiceCommand.AsksToJoin (cmd : ServiceCommand) (joiner : Endpoint) (c : ConfigurationId) :
    Prop :=
  ∃ msg reply, cmd = .request ⟨some (.joinMessage msg)⟩ reply ∧ msg.configurationId = c ∧
    msg.sender.getD default = joiner

variable {ι : Type*} {past past' : List (Handled ι)} {c : ConfigurationId} {x : Endpoint}

/-- Some actor handled, in this configuration, a command that gives rise to such an alert. -/
def Vouched (past : List (Handled ι)) (c : ConfigurationId) : EdgeStatus → Endpoint → Prop
  | .down, x => ∃ e ∈ past, e.configurationId = c ∧ ReportsFailure e.state.state e.command ⟨x, c⟩
  | .up, x => ∃ e ∈ past, e.configurationId = c ∧ e.command.AsksToJoin x c

/-- Some detector announced this proposal in this configuration. -/
def Announced (past : List (Handled ι)) (c : ConfigurationId) (proposal : List Endpoint) : Prop :=
  ∃ e ∈ past, e.configurationId = c ∧ .call (.propose proposal) ∈ e.effects

theorem Vouched.mono (hsub : past ⊆ past') {status : EdgeStatus} (h : Vouched past c status x) :
    Vouched past' c status x := by
  cases status with
  | up =>
      rcases h with ⟨e, he, hrest⟩
      exact ⟨e, hsub he, hrest⟩
  | down =>
      rcases h with ⟨e, he, hrest⟩
      exact ⟨e, hsub he, hrest⟩

/-- A batch of alerts is no reason for an alert. -/
theorem Vouched.of_batch {e : Handled ι} {status : EdgeStatus}
    (h : Vouched (past ++ [e]) c status x) {msg : BatchedAlertMessage} {reply : ReplyId}
    (hbatch : e.command = .request ⟨some (.batchedAlertMessage msg)⟩ reply) :
    Vouched past c status x := by
  cases status with
  | up =>
      rcases h with ⟨e', he', hc, hasks⟩
      rcases List.mem_append.1 he' with hbefore | hlast
      · exact ⟨e', hbefore, hc, hasks⟩
      · cases List.mem_singleton.1 hlast
        rcases hasks with ⟨_, _, hjoin, _⟩
        cases hjoin.symm.trans hbatch
  | down =>
      rcases h with ⟨e', he', hc, hreports⟩
      rcases List.mem_append.1 he' with hbefore | hlast
      · exact ⟨e', hbefore, hc, hreports⟩
      · cases List.mem_singleton.1 hlast
        generalize EdgeFailure.mk x c = failure at hreports
        cases hreports with
        | notified _ hfailure => cases hfailure.symm.trans hbatch
        | left _ _ _ hleave => cases hleave.symm.trans hbatch

theorem Announced.mono (hsub : past ⊆ past') {c : ConfigurationId} {proposal : List Endpoint}
    (h : Announced past c proposal) : Announced past' c proposal := by
  rcases h with ⟨e, he, hrest⟩
  exact ⟨e, hsub he, hrest⟩

/-- An alert that somebody had a reason to raise. -/
def AlertVouched (past : List (Handled ι)) (alert : AlertMessage) : Prop :=
  ∀ dst, alert.edgeDst = some dst →
    Vouched past alert.configurationId (MultiNodeCutDetector.statusOf alert) dst

/-- There is a reason to change the membership of this node in this view. -/
def ViewVouched (past : List (Handled ι)) (view : MembershipView) (x : Endpoint) : Prop :=
  Vouched past view.currentConfigurationId.2 (view.dueStatus x) x

/-- Whatever an actor holds has a reason. -/
structure Founded (past : List (Handled ι)) (s : ServiceState) : Prop where
  consensus : ∀ fp, s.fastPaxos = some fp →
    fp.Within (Announced past) s.view.currentConfigurationId.2
  detector : MultiNodeCutDetector.MarksOnly (ViewVouched past s.view) s.cutDetector []
  queue : ∀ alert ∈ s.sendQueue, AlertVouched past alert

/-- Whatever a message carries has a reason. -/
structure MessageFounded (past : List (Handled ι)) (m : RapidRequest) : Prop where
  consensus : RequestAllowed (Announced past) m
  alerts : ∀ batch, m.content = some (.batchedAlertMessage batch) →
    ∀ alert ∈ batch.messages, AlertVouched past alert

/-- Whatever is announced or decided has a reason. -/
structure EventFounded (past : List (Handled ι)) (e : Handled ι) : Prop where
  decision : ∀ t proposal, .call (.decideViewChange t proposal) ∈ e.effects →
    Announced past t.view.currentConfigurationId.2 proposal ∨
      ∃ reply, e.command = .applyProposal proposal reply
  proposal : ∀ proposal, .call (.propose proposal) ∈ e.effects →
    ∀ x ∈ proposal, ViewVouched past e.state.state.view x

theorem AlertVouched.mono (hsub : past ⊆ past') {alert : AlertMessage} (h : AlertVouched past alert) :
    AlertVouched past' alert :=
  fun dst hdst => (h dst hdst).mono hsub

theorem Founded.mono (hsub : past ⊆ past') {s : ServiceState} (h : Founded past s) :
    Founded past' s := by
  refine ⟨fun fp hfp => (h.consensus fp hfp).mono fun _ _ => Announced.mono hsub, ?_,
    fun alert halert => (h.queue alert halert).mono hsub⟩
  exact ⟨fun x hx => (h.detector.marked x hx).mono hsub, fun x hx => (by cases hx)⟩

theorem MessageFounded.mono (hsub : past ⊆ past') {m : RapidRequest} (h : MessageFounded past m) :
    MessageFounded past' m :=
  ⟨h.consensus.mono fun _ _ => Announced.mono hsub,
    fun batch hbatch alert halert => (h.alerts batch hbatch alert halert).mono hsub⟩

theorem EventFounded.mono (hsub : past ⊆ past') {e : Handled ι} (h : EventFounded past e) :
    EventFounded past' e :=
  ⟨fun t proposal hcall => (h.decision t proposal hcall).imp_left (Announced.mono hsub),
    fun proposal hcall x hx => (h.proposal proposal hcall x hx).mono hsub⟩

/-! ## While a command is handled -/

/-- What is known of the state and the effects in the middle of a command. -/
structure Underway (past : List (Handled ι)) (e : Handled ι) (s : ServiceState)
    (trace : List Effect) : Prop where
  founded : Founded past s
  keeps : e.command.Steady → e.state.state.view.Keeps s.view
  messages : ∀ m ∈ sent trace, MessageFounded past m
  decision : ∀ t proposal, .decideViewChange t proposal ∈ calls trace →
    Announced past t.view.currentConfigurationId.2 proposal ∨
      ∃ reply, e.command = .applyProposal proposal reply
  proposal : ∀ proposal, .propose proposal ∈ calls trace →
    ∀ x ∈ proposal, ViewVouched past e.state.state.view x

variable {e : Handled ι} {env : Environment} {cmd : ServiceCommand} {s t : ServiceState}
  {effects trace : List Effect}

/-- The view may be brought up to date and the queue may change. -/
theorem Founded.of_keeps (h : Founded past s) (hview : s.view.Keeps t.view)
    (hinstance : ∀ fp, t.fastPaxos = some fp → s.fastPaxos = some fp)
    (hmarked : MultiNodeCutDetector.MarksOnly (ViewVouched past s.view) t.cutDetector [])
    (hqueue : ∀ alert ∈ t.sendQueue, AlertVouched past alert) : Founded past t := by
  have hsame : ViewVouched past t.view = ViewVouched past s.view := by
    funext x
    unfold ViewVouched
    rw [hview.configurationId, hview.dueStatus]
  refine ⟨fun fp hfp => ?_, ?_, hqueue⟩
  · rw [hview.configurationId]
    exact h.consensus fp (hinstance fp hfp)
  · rw [hsame]
    exact hmarked

/-- A change that leaves consensus and detector alone. -/
theorem Founded.quiet (h : Founded past s) (hquiet : Quiet s t)
    (hqueue : ∀ alert ∈ t.sendQueue, AlertVouched past alert) : Founded past t := by
  refine h.of_keeps hquiet.view.keeps (fun fp hfp => hquiet.fastPaxos ▸ hfp) ?_ hqueue
  rw [hquiet.cutDetector]
  exact h.detector

theorem Founded.decide (h : Founded past s) (env : Environment) (proposal : List Endpoint) :
    Founded past (s.decideAndReplace env proposal).1 := by
  rcases s.fastPaxos_decide env proposal with ⟨size, hfp⟩
  have hcleared : (s.decideAndReplace env proposal).1.cutDetector = s.cutDetector.clear :=
    (s.decideViewChange_decided env proposal).cutDetector
  refine ⟨?_, ?_, ?_⟩
  · intro fp hinstance
    rw [hfp] at hinstance
    cases hinstance
    exact ⟨FastPaxos.for_new _ _ _ _, Paxos.sound_new _ _ _⟩
  · rw [hcleared]
    exact .of_empty rfl rfl
  · rw [(s.wired_decide env proposal).sendQueue]
    exact h.queue

/-- A batch that rests on reasons makes the detector see nodes only that have one. -/
theorem Founded.alerts (h : Founded past s) {msg : BatchedAlertMessage}
    (hmsg : ∀ alert ∈ msg.messages, AlertVouched past alert) (env : Environment) :
    MultiNodeCutDetector.MarksOnly (ViewVouched past s.view)
      (s.handleBatchedAlerts env msg).1.1.cutDetector (s.handleBatchedAlerts env msg).2 := by
  refine ServiceState.marks_handleBatchedAlerts env msg h.detector ?_
  intro alert halert dst hdst
  rcases ServiceState.acceptedAlerts_due halert with ⟨hmem, hid, hdue⟩
  have hvouched := hmsg alert hmem dst hdst
  rw [hid, hdue dst hdst] at hvouched
  exact hvouched

theorem Founded.batch (h : Founded past s) {msg : BatchedAlertMessage}
    (hmsg : ∀ alert ∈ msg.messages, AlertVouched past alert) (env : Environment) :
    Founded past (s.handleBatchedAlerts env msg).1.1 := by
  have hframe := ServiceState.handleBatchedAlerts_frame env s msg
  have hqueue : (s.handleBatchedAlerts env msg).1.1.sendQueue = s.sendQueue := by
    rw [hframe]
  have hinstance : (s.handleBatchedAlerts env msg).1.1.fastPaxos = s.fastPaxos := by
    rw [hframe]
  refine h.of_keeps (s.handleBatchedAlerts_keeps env msg) (fun fp hfp => hinstance ▸ hfp)
    ⟨(h.alerts hmsg env).marked, fun x hx => (by cases hx)⟩ ?_
  rw [hqueue]
  exact h.queue

/-! ## What the command hands over -/

/-- A message of another actor rests on reasons. -/
def HandsOver (past : List (Handled ι)) (cmd : ServiceCommand) : Prop :=
  ∀ m, cmd.delivers? = some m → MessageFounded past m

theorem HandsOver.allowed (h : HandsOver past cmd) {request : RapidRequest} {reply : ReplyId}
    (hcmd : cmd = .request request reply) : RequestAllowed (Announced past) request := by
  subst hcmd
  by_cases hinternal : request.internal = true
  · exact (h request (if_pos hinternal)).consensus
  · intro c hc
    refine absurd ?_ hinternal
    unfold RapidRequest.internal
    split
    · rfl
    · exact Option.isSome_iff_exists.2 ⟨c, hc⟩

theorem HandsOver.alerts (h : HandsOver past cmd) {msg : BatchedAlertMessage} {reply : ReplyId}
    (hcmd : cmd = .request ⟨some (.batchedAlertMessage msg)⟩ reply) :
    ∀ alert ∈ msg.messages, AlertVouched past alert := by
  subst hcmd
  exact (h _ rfl).alerts msg rfl

/-- What an instance makes of a founded message is founded. -/
theorem HandsOver.called (h : HandsOver past cmd) {fp : FastPaxos} {called : List Effect}
    {r : FastPaxos × List FastOutgoing} (hcall : InstanceCalled cmd fp called r)
    (hfp : fp.Within (Announced past) c) :
    r.1.Within (Announced past) c ∧
      ∀ out ∈ r.2, FastPaxos.OutputWithin (Announced past) c out := by
  cases hcall with
  | message request reply hcmd => exact hfp.handleConsensusMessage (h.allowed hcmd)
  | classic hcmd => exact hfp.startClassicRound

theorem Founded.consult (h : Founded past s) (hdelivered : HandsOver past cmd) {fp : FastPaxos}
    {called : List Effect} {r : FastPaxos × List FastOutgoing} (hfp : s.fastPaxos = some fp)
    (hcall : InstanceCalled cmd fp called r) : Founded past { s with fastPaxos := some r.1 } := by
  refine ⟨?_, h.detector, h.queue⟩
  intro fp' hfp'
  cases hfp'
  exact (hdelivered.called hcall (h.consensus fp hfp)).1

omit [Xxh64] in
theorem allowed_of_emitted {allowed : Int64 → List Endpoint → Prop} {outs : List FastOutgoing}
    (houts : ∀ out ∈ outs, FastPaxos.OutputWithin allowed c out) {m : RapidRequest}
    (hm : EmittedBy outs m) : RequestAllowed allowed m := by
  rcases hm with ⟨out, hout, emission, hemission, hmessage⟩
  exact (houts out hout).message emission hemission m hmessage

omit [Xxh64] in
theorem alerts_of_consensus {m : RapidRequest} (h : m.consensusId?.isSome)
    {batch : BatchedAlertMessage} : m.content ≠ some (.batchedAlertMessage batch) := by
  intro hbatch
  unfold RapidRequest.consensusId? at h
  rw [hbatch] at h
  cases h

/-! ## One piece -/

section Piece

variable (he : e ∈ past) (hdelivered : HandsOver past e.command)

include he

/-- A parked joiner is the reason for its alert. -/
theorem Underway.vouchedJoin (h : Underway past e s trace) {msg : JoinMessage} {reply : ReplyId}
    (hcmd : e.command = .request ⟨some (.joinMessage msg)⟩ reply)
    (hcurrent : s.view.currentConfigurationId.2 = msg.configurationId) :
    Vouched past s.view.currentConfigurationId.2 .up (msg.sender.getD default) := by
  have hsteady : e.command.Steady := by
    rw [hcmd]
    exact rfl
  exact ⟨e, he, (h.keeps hsteady).configurationId.symm, msg, reply, hcmd, hcurrent.symm, rfl⟩

theorem Underway.vouchedFailure (h : Underway past e s trace) {ev : EdgeFailure}
    (hreports : ReportsFailure s e.command ev)
    (hcurrent : ev.configurationId = s.view.currentConfigurationId.2) :
    Vouched past s.view.currentConfigurationId.2 .down ev.subject := by
  have hsteady : e.command.Steady := by
    cases hreports with
    | notified _ hcmd =>
        rw [hcmd]
        trivial
    | left msg reply sender hcmd hsender =>
        rw [hcmd]
        exact rfl
  have hid : e.configurationId = s.view.currentConfigurationId.2 :=
    (h.keeps hsteady).configurationId.symm
  refine ⟨e, he, hid, ?_⟩
  cases hreports with
  | notified _ hcmd =>
      rw [← hcurrent]
      exact .notified ev hcmd
  | left msg reply sender hcmd hsender =>
      rw [← hid]
      exact .left msg reply sender hcmd hsender

theorem Underway.park (h : Underway past e s trace) {msg : JoinMessage} {reply : ReplyId}
    (hcmd : e.command = .request ⟨some (.joinMessage msg)⟩ reply)
    (hcurrent : s.view.currentConfigurationId.2 = msg.configurationId) (now : Instant) :
    Founded past (s.configurationId.1.parkJoiner now s.view.currentConfigurationId.2
      (msg.sender.getD default) (msg.nodeId.getD default) msg reply) := by
  refine h.founded.of_keeps (MembershipView.Refreshes.current s.view).keeps (fun fp hfp => hfp)
    h.founded.detector ?_
  intro alert halert
  rcases List.mem_append.1 halert with hold | hnew
  · exact h.founded.queue alert hold
  · cases List.mem_singleton.1 hnew
    intro dst hdst
    cases hdst
    exact h.vouchedJoin he hcmd hcurrent

theorem Underway.failure (h : Underway past e s trace) {ev : EdgeFailure}
    (hreports : ReportsFailure s e.command ev) (now : Instant) :
    Founded past (s.handleEdgeFailure now ev) := by
  refine h.founded.quiet (s.quiet_handleEdgeFailure now ev) ?_
  unfold ServiceState.handleEdgeFailure
  dsimp only
  split
  · exact h.founded.queue
  · rename_i hcurrent
    intro alert halert
    rcases List.mem_append.1 halert with hold | hnew
    · exact h.founded.queue alert hold
    · cases List.mem_singleton.1 hnew
      intro dst hdst
      cases hdst
      exact h.vouchedFailure he hreports (not_not.1 hcurrent)

/-- An announcement is on record as soon as it is made. -/
theorem Underway.announced (h : Underway past e s trace) {msg : BatchedAlertMessage} {reply : ReplyId}
    (hcmd : e.command = .request ⟨some (.batchedAlertMessage msg)⟩ reply)
    {proposal : List Endpoint} (hcall : .call (.propose proposal) ∈ e.effects) :
    Announced past s.view.currentConfigurationId.2 proposal := by
  have hsteady : e.command.Steady := by
    rw [hcmd]
    exact rfl
  exact ⟨e, he, (h.keeps hsteady).configurationId.symm, hcall⟩

include hdelivered

/-- An announcement makes the instance vote for what is on record. -/
theorem Underway.vote (h : Underway past e s trace) (env : Environment) {msg : BatchedAlertMessage}
    {reply : ReplyId} {fp : FastPaxos}
    (hcmd : e.command = .request ⟨some (.batchedAlertMessage msg)⟩ reply)
    (hfp : s.fastPaxos = some fp)
    (hcall : .call (.propose (s.handleBatchedAlerts env msg).2) ∈ e.effects) :
    Founded past ((s.handleBatchedAlerts env msg).1.1.propose env (s.handleBatchedAlerts env msg).2).1 := by
  have hframe := ServiceState.handleBatchedAlerts_frame env s msg
  have hinstance : (s.handleBatchedAlerts env msg).1.1.fastPaxos = some fp := by
    rw [hframe]
    exact hfp
  rcases s.announce_eq env msg hfp with ⟨broadcasts, delay, _, hpropose⟩
  have hbatch := h.founded.batch (hdelivered.alerts hcmd) env
  have hwithin := hbatch.consensus fp hinstance
  have hid := (s.handleBatchedAlerts_keeps env msg).configurationId
  have hannounced := h.announced he hcmd hcall
  rw [← hid] at hannounced
  rw [hpropose]
  refine ⟨?_, hbatch.detector, hbatch.queue⟩
  intro fp' hfp'
  cases hfp'
  exact (hwithin.propose env.jitter hannounced).1

theorem Underway.foundedPiece (h : Underway past e s trace)
    (hok : ∀ effect ∈ effects, effect ∈ e.effects) (hpiece : Piece env e.command s effects t) :
    Founded past t := by
  have hcalls : ∀ call ∈ calls effects, .call call ∈ e.effects :=
    fun call hcall => hok _ (mem_calls.1 hcall)
  cases hpiece with
  | refresh => exact h.founded.quiet s.quiet_configurationId h.founded.queue
  | reply id answer => exact h.founded
  | shutdown => exact ⟨h.founded.consensus, h.founded.detector, h.founded.queue⟩
  | initialView reply => exact h.founded.quiet (s.quiet_publishInitialView env) h.founded.queue
  | park msg reply hcmd hcurrent => exact h.park he hcmd hcurrent env.now
  | failure ev hreports => exact h.failure he hreports env.now
  | tick =>
      refine h.founded.quiet (s.calm_handleTick env.now).quiet ?_
      intro alert halert
      exact h.founded.queue alert (s.sendQueue_handleTick env.now alert halert)
  | rebuild reply =>
      refine h.founded.quiet s.calm_rebuildDetectors.quiet ?_
      rw [s.wired_rebuildDetectors.sendQueue]
      exact h.founded.queue
  | alerts msg reply hcmd => exact h.founded.batch (hdelivered.alerts hcmd) env
  | announce msg reply fp hcmd hproposal hfp hup =>
      refine h.vote he hdelivered env hcmd hfp (hcalls _ ?_)
      rw [s.calls_announce env msg hfp]
      exact List.mem_cons_self
  | consult fp called r hfp hcall hsends => exact h.founded.consult hdelivered hfp hcall
  | decided fp called r proposal hfp hcall houts =>
      exact (h.founded.consult hdelivered hfp hcall).decide env proposal
  | applied proposal reply => exact h.founded.decide env proposal

omit he in
theorem Underway.answers (h : Underway past e s trace) {fp : FastPaxos} {called : List Effect}
    {r : FastPaxos × List FastOutgoing} (hfp : s.fastPaxos = some fp)
    (hcall : InstanceCalled e.command fp called r) {m : RapidRequest} (hm : EmittedBy r.2 m) :
    RequestAllowed (Announced past) m :=
  allowed_of_emitted (hdelivered.called hcall (h.founded.consensus fp hfp)).2 hm

/-- Whatever a piece sends has a reason. -/
theorem Underway.sentPiece (h : Underway past e s trace)
    (hok : ∀ effect ∈ effects, effect ∈ e.effects) (hpiece : Piece env e.command s effects t) {m : RapidRequest}
    (hm : m ∈ sent effects) : MessageFounded past m := by
  have hbecause := hpiece.sentBecause hm
  rcases hbecause.consensus with ⟨_, _, rfl⟩ | hconsensus
  · refine ⟨fun c hc => (by cases hc), ?_⟩
    intro batch hbatch
    cases hbatch
    exact h.founded.queue
  · refine ⟨?_, fun batch hbatch => absurd hbatch (alerts_of_consensus hconsensus)⟩
    cases hbecause with
    | batch hcmd hwaiting => cases hconsensus
    | answer fp called r m hfp hcall hemitted => exact h.answers hdelivered hfp hcall hemitted
    | vote msg reply fp m hcmd hfp hproposal hcalled hemitted =>
        have hannounced := h.announced he hcmd (hok _ (mem_calls.1 hcalled))
        exact allowed_of_emitted ((h.founded.consensus fp hfp).propose env.jitter hannounced).2 hemitted

omit he in
/-- The nodes of an announcement have a reason in the configuration of the command. -/
theorem Underway.proposalPiece (h : Underway past e s trace)
    (hpiece : Piece env e.command s effects t) {proposal : List Endpoint}
    (hcall : .propose proposal ∈ calls effects) :
    ∀ x ∈ proposal, ViewVouched past e.state.state.view x := by
  cases hpiece.callBecause hcall with
  | announced msg reply fp hcmd hfp hproposal hup =>
      have hsteady : e.command.Steady := by
        rw [hcmd]
        exact rfl
      have hkeeps := h.keeps hsteady
      intro x hx
      have hvouched := (h.founded.alerts (hdelivered.alerts hcmd) env).out x hx
      unfold ViewVouched at hvouched ⊢
      rw [hkeeps.configurationId, hkeeps.dueStatus] at hvouched
      exact hvouched

omit he in
/-- A decision is of the configuration of the instance, or was injected. -/
theorem Underway.decisionPiece (h : Underway past e s trace)
    (hpiece : Piece env e.command s effects t) {u : ServiceState} {proposal : List Endpoint}
    (hcall : .decideViewChange u proposal ∈ calls effects) :
    Announced past u.view.currentConfigurationId.2 proposal ∨
      ∃ reply, e.command = .applyProposal proposal reply := by
  cases hpiece.callBecause hcall with
  | decided fp called r proposal hfp hinstance houts =>
      have hwithin := hdelivered.called hinstance (h.founded.consensus fp hfp)
      have hmem : FastOutgoing.decision proposal ∈ r.2 := by
        rw [houts]
        exact List.mem_cons_self
      exact .inl ((hwithin.2 _ hmem).decision proposal rfl)
  | applied proposal reply hcmd => exact .inr ⟨reply, hcmd⟩

/-- The step lemma: one more piece of a command. -/
theorem Underway.piece (h : Underway past e s trace)
    (hok : ∀ effect ∈ effects, effect ∈ e.effects) (hpiece : Piece env e.command s effects t) :
    Underway past e t (trace ++ effects) := by
  refine ⟨h.foundedPiece he hdelivered hok hpiece,
    fun hsteady => (h.keeps hsteady).trans (hpiece.keeps_of_steady hsteady), ?_, ?_, ?_⟩
  · intro m hm
    rw [sent_append] at hm
    rcases List.mem_append.1 hm with hold | hnew
    · exact h.messages m hold
    · exact h.sentPiece he hdelivered hok hpiece hnew
  · intro u proposal hcall
    rw [calls_append] at hcall
    rcases List.mem_append.1 hcall with hold | hnew
    · exact h.decision u proposal hold
    · exact h.decisionPiece hdelivered hpiece hnew
  · intro proposal hcall
    rw [calls_append] at hcall
    rcases List.mem_append.1 hcall with hold | hnew
    · exact h.proposal proposal hold
    · exact h.proposalPiece hdelivered hpiece hnew

end Piece

/-! ## The cluster -/

/-- Handling a command keeps everything founded. -/
theorem Underway.command (he : e ∈ past) (hdelivered : HandsOver past e.command)
    (h : Founded past e.state.state) :
    Underway past e (e.state.state.handleCommand e.input.1 e.input.2).1.1 e.effects := by
  have hstart : Underway past e e.state.state [] :=
    ⟨h, fun _ => .refl _, fun m hm => (by cases hm), fun u proposal hcall => (by cases hcall),
      fun proposal hcall => (by cases hcall)⟩
  have hpieces : Pieces e.input.1 e.command e.state.state e.effects
      (e.state.state.handleCommand e.input.1 e.input.2).1.1 :=
    e.state.state.pieces_handleCommand e.input.2
  have hok : ∀ effect ∈ e.effects, effect ∈ e.effects := fun _ heffect => heffect
  have hpath := hpieces.invariant (I := Underway past e)
    (fun s effects t trace hs hok hpiece => hs.piece he hdelivered hok hpiece) hok hstart
  exact hpath

theorem founded_boot {outcome : Outcome} (h : Boots outcome) :
    Founded ([] : List (Handled ι)) outcome.1 := by
  rcases h.booted with ⟨_, _, _, _, _, _, _, _, _, hdetector, hbooted⟩
  rcases h.equipped.fastPaxos with ⟨size, hfp⟩
  refine ⟨?_, ?_, ?_⟩
  · intro fp hinstance
    rw [hfp] at hinstance
    cases hinstance
    exact ⟨FastPaxos.for_new _ _ _ _, Paxos.sound_new _ _ _⟩
  · rw [hbooted.cutDetector]
    exact MultiNodeCutDetector.marksOnly_of_new hdetector
  · rw [h.equipped.sendQueue]
    exact fun alert halert => by cases halert

/-- Everything in a cluster has a reason in its past. -/
def grounds (ι : Type*) : actors.Local ι where
  node past run := Founded past run.state
  message := MessageFounded
  event := EventFounded
  node_mono hsub h := h.mono hsub
  message_mono hsub h := h.mono hsub
  event_mono hsub h := h.mono hsub
  boot hboot := by
    rcases boot_spec hboot with ⟨outcome, hboots, rfl⟩
    exact founded_boot hboots
  step hnode hwire hmem hstep := by
    have hcommand := Underway.command hmem (fun m hm => hwire m hm) hnode
    rw [act_spec hstep]
    exact ⟨hcommand.founded, hcommand.messages,
      fun u proposal hcall => hcommand.decision u proposal (mem_calls.2 hcall),
      fun proposal hcall => hcommand.proposal proposal (mem_calls.2 hcall)⟩

section Results

variable [DecidableEq ι] {w : Cluster ι}

omit [DecidableEq ι] in
/-- An announcement is made while a batch of alerts is handled. -/
theorem Handled.batch_of_propose {e : Handled ι} {proposal : List Endpoint}
    (hcall : .call (.propose proposal) ∈ e.effects) :
    ∃ msg reply, e.command = .request ⟨some (.batchedAlertMessage msg)⟩ reply := by
  have hpieces : Pieces e.input.1 e.command e.state.state e.effects
      (e.state.state.handleCommand e.input.1 e.input.2).1.1 :=
    e.state.state.pieces_handleCommand e.input.2
  refine hpieces.all_effects (P := fun effect => effect = .call (.propose proposal) →
    ∃ msg reply, e.command = .request ⟨some (.batchedAlertMessage msg)⟩ reply) ?_ _ hcall rfl
  rintro s es t hpiece effect heffect rfl
  cases hpiece.callBecause (mem_calls.2 heffect) with
  | announced msg reply fp hcmd => exact ⟨msg, reply, hcmd⟩

omit [DecidableEq ι] in
/-- Nothing is decided while a batch of alerts is handled. -/
theorem Handled.decide_not_batch {e : Handled ι} {u : ServiceState} {proposal : List Endpoint}
    (hcall : .call (.decideViewChange u proposal) ∈ e.effects) (msg : BatchedAlertMessage)
    (reply : ReplyId) : e.command ≠ .request ⟨some (.batchedAlertMessage msg)⟩ reply := by
  have hpieces : Pieces e.input.1 e.command e.state.state e.effects
      (e.state.state.handleCommand e.input.1 e.input.2).1.1 :=
    e.state.state.pieces_handleCommand e.input.2
  refine hpieces.all_effects (P := fun effect => effect = .call (.decideViewChange u proposal) →
    e.command ≠ .request ⟨some (.batchedAlertMessage msg)⟩ reply) ?_ _ hcall rfl
  rintro s es t hpiece effect heffect rfl hbatch
  cases hpiece.callBecause (mem_calls.2 heffect) with
  | decided fp called r _ _ hinstance houts =>
      cases hinstance with
      | message request reply' hcmd =>
          cases hcmd.symm.trans hbatch
          rw [FastPaxos.handleConsensusMessage_of_none rfl] at houts
          cases houts
      | classic hcmd => cases hcmd.symm.trans hbatch
  | applied _ reply' hcmd => cases hcmd.symm.trans hbatch

/-- What an actor decides, a detector announced before in that configuration, unless the proposal was
injected. -/
theorem decision_announced (h : (clusterSystem ι).Reachable w) {earlier later : List (Handled ι)}
    (hpast : w.past = earlier ++ e :: later) {u : ServiceState} {proposal : List Endpoint}
    (hcall : .call (.decideViewChange u proposal) ∈ e.effects) :
    Announced earlier u.view.currentConfigurationId.2 proposal ∨
      ∃ reply, e.command = .applyProposal proposal reply := by
  rcases Swarm.past_reached h earlier e later hpast with ⟨w', hw', hpast'⟩
  have he : e ∈ w'.past := hpast' ▸ List.mem_append_right _ List.mem_cons_self
  refine ((((grounds ι).reaches hw').past e he).decision u proposal hcall).imp_left ?_
  rintro ⟨e', he', hannounces⟩
  rcases List.mem_append.1 (hpast' ▸ he') with hbefore | hlast
  · exact ⟨e', hbefore, hannounces⟩
  · -- The command that decides announces nothing.
    cases List.mem_singleton.1 hlast
    rcases Handled.batch_of_propose hannounces.2 with ⟨msg, reply, hbatch⟩
    exact absurd hbatch (Handled.decide_not_batch hcall msg reply)

/-- For every node of an announcement somebody handled before, in that configuration, a failure or a
leave of the node if it is a member, and a request to join if it is not. -/
theorem announcement_vouched (h : (clusterSystem ι).Reachable w) {earlier later : List (Handled ι)}
    (hpast : w.past = earlier ++ e :: later) {proposal : List Endpoint}
    (hcall : .call (.propose proposal) ∈ e.effects) (hx : x ∈ proposal) :
    Vouched earlier e.configurationId (e.state.state.view.dueStatus x) x := by
  rcases Swarm.past_reached h earlier e later hpast with ⟨w', hw', hpast'⟩
  have he : e ∈ w'.past := hpast' ▸ List.mem_append_right _ List.mem_cons_self
  have hvouched := (((grounds ι).reaches hw').past e he).proposal proposal hcall x hx
  rcases Handled.batch_of_propose hcall with ⟨msg, reply, hbatch⟩
  rw [ViewVouched, hpast'] at hvouched
  exact hvouched.of_batch hbatch

end Results

end Grounds

/-! ### Two actors decide what they announced -/

section Sample

attribute [local instance] xxh64Reference

theorem joiningCluster_decides :
    (joiningCluster.bind fun w => w.past.getLast?.map fun e =>
      (e.party, ((Handled.effects e).filterMap Effect.decision?).map Prod.snd)) =
      some (true, [[hostC]]) := by
  decide +kernel

theorem joiningCluster_announces :
    (joiningCluster.bind fun w => w.past[3]?.map fun e =>
      (e.party, (calls (Handled.effects e)).filterMap Call.announced?,
        e.state.state.view.dueStatus hostC)) = some (true, [[hostC]], .up) := by
  decide +kernel

/-- The decision of the second actor to let `hostC` in was announced before. -/
theorem joiningCluster_announced :
    ∃ (w : Cluster Bool) (earlier : List (Handled Bool)) (e : Handled Bool) (u : ServiceState),
      joiningCluster = some w ∧ w.past = earlier ++ [e] ∧ e.party = true ∧
      .call (.decideViewChange u [hostC]) ∈ e.effects ∧
      (Announced earlier u.view.currentConfigurationId.2 [hostC] ∨
        ∃ reply, e.command = .applyProposal [hostC] reply) := by
  rcases Option.bind_eq_some_iff.1 joiningCluster_decides with ⟨w, hw, hlast⟩
  rcases Option.map_eq_some_iff.1 hlast with ⟨e, he, hfacts⟩
  rcases Prod.mk.inj hfacts with ⟨hparty, hdecisions⟩
  have hmem : [hostC] ∈ ((Handled.effects e).filterMap Effect.decision?).map Prod.snd := by
    rw [hdecisions]
    exact List.mem_cons_self
  rcases List.mem_map.1 hmem with ⟨⟨u, proposal⟩, hdecision, rfl⟩
  rcases List.getLast?_eq_some_iff.1 he with ⟨earlier, hpast⟩
  have hcall := mem_decisions.1 hdecision
  exact ⟨w, earlier, e, u, hw, hpast, hparty, hcall,
    decision_announced (joiningCluster_reachable hw) hpast hcall⟩

/-- The announcement of `hostC` by the second actor rests on a request to join, which the first one had
handled. -/
theorem joiningCluster_vouched :
    ∃ (w : Cluster Bool) (e : Handled Bool), joiningCluster = some w ∧ w.past[3]? = some e ∧
      e.party = true ∧ .call (.propose [hostC]) ∈ e.effects ∧
      e.state.state.view.dueStatus hostC = .up ∧
      Vouched (w.past.take 3) e.configurationId .up hostC := by
  rcases Option.bind_eq_some_iff.1 joiningCluster_announces with ⟨w, hw, hfourth⟩
  rcases Option.map_eq_some_iff.1 hfourth with ⟨e, he, hfacts⟩
  simp only [Prod.mk.injEq] at hfacts
  rcases hfacts with ⟨hparty, hannounced, hdue⟩
  have hmem : [hostC] ∈ (calls (Handled.effects e)).filterMap Call.announced? := by
    rw [hannounced]
    exact List.mem_cons_self
  have hpast : w.past = w.past.take 3 ++ e :: w.past.drop 4 := by
    rcases List.getElem?_eq_some_iff.1 he with ⟨hlen, rfl⟩
    rw [← List.drop_eq_getElem_cons hlen, List.take_append_drop]
  have hcall : .call (.propose [hostC]) ∈ Handled.effects e := by
    rcases List.mem_filterMap.1 hmem with ⟨call, hcall, hproposal⟩
    cases call with
    | propose proposal =>
        cases hproposal
        exact mem_calls.1 hcall
    | _ => cases hproposal
  have hvouched := announcement_vouched (joiningCluster_reachable hw) hpast hcall
    (x := hostC) List.mem_cons_self
  rw [hdue] at hvouched
  exact ⟨w, e, hw, he, hparty, hcall, hdue, hvouched⟩

end Sample

end Rapid
