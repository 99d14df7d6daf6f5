import Rapid.Service.JoinLoop
import Rapid.Service.WelcomedJoiner

/-!
# Rejoin — a joiner whose address is in the ring

A node that asks to join while members list its address is either the one they admitted, whose answer was
lost, or another one at the same address. The seed says `HOSTNAME_ALREADY_IN_RING`, so the joiner keeps
its node id and asks for no configuration, and a member tells it the view at once if it knows that node
id. So from the attempt on in which the members list the address, a call succeeds exactly if some member
that answers knows the id in use: a node that was admitted in an earlier attempt gets in, and one that
comes back with a new id is kept out for as long as the members list its address.
-/

namespace Rapid

open Foundations

section Rejoin

variable [Xxh64]

namespace ServiceState

variable (s : ServiceState) {j : Endpoint} {id : NodeId}

/-- What the seed answers while it lists the joiner's address. -/
theorem handlePreJoin_status (id : NodeId) (hpresent : s.view.isHostPresent j = true) :
    (s.handlePreJoin (phase1Message j id)).2.statusCode =
      JoinStatusCode.hostnameAlreadyInRing.toInt32 := by
  have hstatus : s.view.isSafeToJoin j id = .hostnameAlreadyInRing := if_pos hpresent
  simp [handlePreJoin, phase1Message, hstatus, javaStatusCode]

/-- A member that lists the sender answers at once, or parks the request, which asks for its own
configuration. -/
theorem handleJoin_answer {env : Environment} {msg : JoinMessage} {reply : ReplyId}
    {resp : RapidResponse} (h : .reply reply (.response (.ok resp)) ∈ (s.handleJoin env msg reply).2) :
    s.configurationId.2 ≠ msg.configurationId ∧
      resp = ⟨some (.joinResponse (s.configurationId.1.buildConfigMismatchResponse env.metadataOrder
        (msg.sender.getD default) (msg.nodeId.getD default)).2)⟩ := by
  unfold handleJoin at h
  dsimp only at h
  split at h
  · cases h
  · rename_i hother
    refine ⟨hother, ?_⟩
    cases List.mem_singleton.1 h
    rfl

/-- The view is told to the node that has the id, and to nobody else. -/
theorem buildConfigMismatchResponse_spec (order : HashOrder EndpointKey)
    (hpresent : s.view.isHostPresent j = true) {response : JoinResponse}
    (hresponse : response = (s.configurationId.1.buildConfigMismatchResponse order j id).2) :
    (response.statusCode = JoinStatusCode.safeToJoin.toInt32 ↔
        s.view.isIdentifierPresent id = true) ∧
      response.configurationId = s.configurationId.2 ∧
        (s.view.isIdentifierPresent id = true → response.endpoints = s.memberlist) := by
  have hshows : s.view.Shows s.view.currentConfigurationId.1 := MembershipView.shows_current
  have hagain : s.view.currentConfigurationId.1.currentConfigurationId =
      s.view.currentConfigurationId := MembershipView.currentConfigurationId_idem
  have hhost : s.view.currentConfigurationId.1.isHostPresent j = true := by
    unfold MembershipView.isHostPresent at hpresent ⊢
    rw [hshows.allNodes]
    exact hpresent
  have hid : s.view.currentConfigurationId.1.isIdentifierPresent id =
      s.view.isIdentifierPresent id := by
    unfold MembershipView.isIdentifierPresent
    rw [hshows.identifiers]
  have hlist : ({ s with view := s.view.currentConfigurationId.1 } : ServiceState).memberlist =
      s.memberlist := by
    rw [memberlist_eq, memberlist_eq]
    exact congrArg Ring.ordered (MembershipView.ringZero_eq hshows.rings)
  unfold buildConfigMismatchResponse configurationId at hresponse
  simp only [hagain, hhost, hid, true_and] at hresponse
  cases hknown : s.view.isIdentifierPresent id with
  | true =>
      rw [hknown, if_pos rfl] at hresponse
      subst hresponse
      exact ⟨by simp, rfl, fun _ => hlist⟩
  | false =>
      rw [hknown, if_neg (by decide)] at hresponse
      subst hresponse
      refine ⟨?_, rfl, fun h => by cases h⟩
      simp only [Bool.false_eq_true, iff_false]
      decide

end ServiceState

/-! ## The call -/

variable {call : JoinCall} {uuid : NodeId} {world : Nat → JoinAttempt} {k : Nat} {retries : UInt8}
  {contact : Nat → ServiceState} {member : Nat → Sent → ServiceState}

/-- From attempt `k` on the seed answers in the state `contact`, and a request to an observer fails or is
answered at once in the state `member`; all of these states list the joiner's address. -/
structure AnsweredByMembers (call : JoinCall) (uuid : NodeId) (world : Nat → JoinAttempt) (k : Nat)
    (retries : UInt8) (contact : Nat → ServiceState) (member : Nat → Sent → ServiceState) :
    Prop where
  seed : ∀ n, k ≤ n → n < retries.toNat → (world n).seedAnswer = .ok ⟨some (.joinResponse
    ((contact n).handlePreJoin
      (phase1Message (endpointFromSocket call.listenAddr) (JoinCall.idAt uuid world n))).2)⟩
  contact_lists : ∀ n, k ≤ n → n < retries.toNat →
    (contact n).view.isHostPresent (endpointFromSocket call.listenAddr) = true
  observers : ∀ n, k ≤ n → n < retries.toNat → ∀ addr msg resp,
    (world n).answer (addr, ⟨some (.joinMessage msg)⟩) = .ok resp →
      ∃ env reply, .reply reply (.response (.ok resp)) ∈
        ((member n (addr, ⟨some (.joinMessage msg)⟩)).handleJoin env msg reply).2
  member_lists : ∀ n, k ≤ n → n < retries.toNat → ∀ sent,
    (member n sent).view.isHostPresent (endpointFromSocket call.listenAddr) = true

namespace AnsweredByMembers

variable (h : AnsweredByMembers call uuid world k retries contact member) {n : Nat}
  {phase1 : JoinResponse}

include h in
theorem phase1_status (hk : k ≤ n) (hn : n < retries.toNat) :
    ∃ phase1, JoinCall.phase1At world n = .ok phase1 ∧
      phase1.statusCode = JoinStatusCode.hostnameAlreadyInRing.toInt32 := by
  refine ⟨_, ?_, (contact n).handlePreJoin_status (JoinCall.idAt uuid world n)
    (h.contact_lists n hk hn)⟩
  unfold JoinCall.phase1At
  rw [h.seed n hk hn]
  rfl

include h in
/-- The joiner keeps the id that it has in attempt `k`. -/
theorem idAt_eq (hk : k ≤ n) (hn : n ≤ retries.toNat) :
    JoinCall.idAt uuid world n = JoinCall.idAt uuid world k := by
  induction n, hk using Nat.le_induction with
  | base => rfl
  | succ n hk ih =>
      rcases h.phase1_status hk hn with ⟨phase1, hphase1, hstatus⟩
      have hother : phase1.statusCode ≠ JoinStatusCode.uuidAlreadyInRing.toInt32 := by
        rw [hstatus]
        decide
      rw [JoinCall.idAt, hphase1]
      dsimp only
      rw [if_neg hother, ih (Nat.le_of_succ_le hn)]

include h in
/-- An observer lets the joiner in exactly if it answers and knows the id, and then it tells its own
view. -/
theorem winning_iff (hk : k ≤ n) (hn : n < retries.toNat) {sent : Sent}
    (hsent : sent ∈ call.sendsAt uuid world n phase1) :
    ((winning (configurationToJoin phase1) ((world n).answer sent)).isSome = true ↔
        (∃ resp, (world n).answer sent = .ok resp) ∧
          (member n sent).view.isIdentifierPresent (JoinCall.idAt uuid world k) = true) ∧
      ∀ jr : JoinResponse, (world n).answer sent = .ok ⟨some (.joinResponse jr)⟩ →
        jr.statusCode = JoinStatusCode.safeToJoin.toInt32 →
          (member n sent).view.isIdentifierPresent (JoinCall.idAt uuid world k) = true ∧
            jr.endpoints = (member n sent).memberlist ∧
              jr.configurationId = (member n sent).configurationId.2 := by
  rcases JoinCall.request_spec hsent with ⟨addr, msg, rfl, hsender, hnode, hconfig⟩
  have hlists := h.member_lists n hk hn (addr, ⟨some (.joinMessage msg)⟩)
  rw [h.idAt_eq hk hn.le] at hnode
  -- What an answer can be, if there is one.
  have hanswer : ∀ resp, (world n).answer (addr, ⟨some (.joinMessage msg)⟩) = .ok resp →
      ∃ jr : JoinResponse, resp = ⟨some (.joinResponse jr)⟩ ∧
        (jr.statusCode = JoinStatusCode.safeToJoin.toInt32 ↔
          (member n (addr, ⟨some (.joinMessage msg)⟩)).view.isIdentifierPresent
            (JoinCall.idAt uuid world k) = true) ∧
          jr.configurationId = (member n (addr, ⟨some (.joinMessage msg)⟩)).configurationId.2 ∧
            jr.configurationId ≠ configurationToJoin phase1 ∧
              ((member n (addr, ⟨some (.joinMessage msg)⟩)).view.isIdentifierPresent
                  (JoinCall.idAt uuid world k) = true →
                jr.endpoints = (member n (addr, ⟨some (.joinMessage msg)⟩)).memberlist) := by
    intro resp hresp
    rcases h.observers n hk hn addr msg resp hresp with ⟨env, reply, hreply⟩
    rcases ServiceState.handleJoin_answer _ hreply with ⟨hother, hbuilt⟩
    rw [hsender, hnode] at hbuilt
    rw [hconfig] at hother
    rcases ServiceState.buildConfigMismatchResponse_spec _ env.metadataOrder hlists rfl with
      ⟨hstatus, hid, hendpoints⟩
    exact ⟨_, hbuilt, hstatus, hid, hid ▸ hother, hendpoints⟩
  refine ⟨JoinCall.winning_isSome_iff.trans ⟨?_, ?_⟩, ?_⟩
  · rintro ⟨jr, hok, hsafe, _⟩
    rcases hanswer _ hok with ⟨jr', heq, hstatus, _⟩
    cases heq
    exact ⟨⟨_, hok⟩, hstatus.1 hsafe⟩
  · rintro ⟨⟨resp, hok⟩, hknown⟩
    rcases hanswer resp hok with ⟨jr, rfl, hstatus, _, hother, _⟩
    exact ⟨jr, hok, hstatus.2 hknown, hother⟩
  · intro jr hok hsafe
    rcases hanswer _ hok with ⟨jr', heq, hstatus, hid, _, hendpoints⟩
    cases heq
    exact ⟨hstatus.1 hsafe, hendpoints (hstatus.1 hsafe), hid⟩

end AnsweredByMembers

/-- A member that knows the node id `id` answers a request of attempt `n`. -/
def KnownTo (call : JoinCall) (uuid : NodeId) (world : Nat → JoinAttempt)
    (member : Nat → Sent → ServiceState) (id : NodeId) (n : Nat) (sent : Sent) : Prop :=
  (∃ phase1, JoinCall.phase1At world n = .ok phase1 ∧ sent ∈ call.sendsAt uuid world n phase1) ∧
    (∃ resp, (world n).answer sent = .ok resp) ∧ (member n sent).view.isIdentifierPresent id = true

/-- While the members that are asked from attempt `k` on list the joiner's address, a call that has come
to this attempt succeeds exactly if one that answers knows the id that the joiner has there. It then
returns the view of such a member, and otherwise its attempts are exhausted. -/
theorem rejoin_iff (hbefore : ∀ m < k, call.Fruitless uuid world m)
    (h : AnsweredByMembers call uuid world k retries contact member) :
    ((∃ jr, (call.runJoinProtocol retries uuid world).2 = .ok jr) ↔
        ∃ n, k ≤ n ∧ n < retries.toNat ∧
          ∃ sent, KnownTo call uuid world member (JoinCall.idAt uuid world k) n sent) ∧
      (∀ jr, (call.runJoinProtocol retries uuid world).2 = .ok jr →
        ∃ n, k ≤ n ∧ n < retries.toNat ∧
          ∃ sent, KnownTo call uuid world member (JoinCall.idAt uuid world k) n sent ∧
            .send sent ∈ (call.runJoinProtocol retries uuid world).1 ∧
            (world n).answer sent = .ok ⟨some (.joinResponse jr)⟩ ∧
            jr.endpoints = (member n sent).memberlist ∧
              jr.configurationId = (member n sent).configurationId.2) ∧
        ∀ e, (call.runJoinProtocol retries uuid world).2 = .error e → e = JoinCall.exhausted := by
  -- Nothing is offered before attempt `k`, and the seed answers all the time.
  have hlater {n : Nat} (hoffered : call.Offered uuid world n) : k ≤ n :=
    Nat.le_of_not_lt fun hlt => hoffered.not_fruitless (hbefore n hlt)
  have hanswers (n : Nat) (hn : n < retries.toNat) :
      ∃ phase1, JoinCall.phase1At world n = .ok phase1 := by
    rcases Nat.lt_or_ge n k with hlt | hk
    · rcases hbefore n hlt with ⟨phase1, hphase1, _⟩
      exact ⟨phase1, hphase1⟩
    · rcases h.phase1_status hk hn with ⟨phase1, hphase1, _⟩
      exact ⟨phase1, hphase1⟩
  refine ⟨(JoinCall.ok_iff_offered call retries uuid world).trans ⟨?_, ?_⟩, ?_, ?_⟩
  · rintro ⟨n, hn, _, hoffered⟩
    have hk := hlater hoffered
    rcases hoffered with ⟨phase1, hphase1, sent, hsent, hwins⟩
    exact ⟨n, hk, hn, sent, ⟨phase1, hphase1, hsent⟩, (h.winning_iff hk hn hsent).1.1 hwins⟩
  · rintro ⟨n, hk, hn, sent, ⟨phase1, hphase1, hsent⟩, hknown⟩
    exact ⟨n, hn, fun m hm => hanswers m (hm.trans hn), phase1, hphase1, sent, hsent,
      (h.winning_iff hk hn hsent).1.2 hknown⟩
  · intro jr hjr
    rcases JoinCall.answered_of_ok hjr with
      ⟨n, hn, _, phase1, hphase1, sent, hsent, hwent, hok, hsafe, hother⟩
    have hk : k ≤ n := hlater ⟨phase1, hphase1, sent, hsent,
      JoinCall.winning_isSome_iff.2 ⟨jr, hok, hsafe, hother⟩⟩
    rcases (h.winning_iff hk hn hsent).2 jr hok hsafe with ⟨hknown, hview⟩
    exact ⟨n, hk, hn, sent, ⟨⟨phase1, hphase1, hsent⟩, ⟨_, hok⟩, hknown⟩, hwent, hok, hview⟩
  · intro e he
    have hends := JoinCall.ends_runJoinProtocol call retries uuid world
    generalize call.runJoinProtocol retries uuid world = outcome at hends he
    cases hends with
    | @refused n e' hn _ herror =>
        rcases hanswers n hn with ⟨phase1, hphase1⟩
        rw [herror] at hphase1
        cases hphase1
    | admitted => cases he
    | exhausted => exact (Except.error.inj he).symm

end Rejoin

/-! ### An answer that is lost -/

section Sample

attribute [local instance] xxh64Reference

def returningCall : JoinCall where
  listenAddr := .v4 ⟨127, 0, 0, 2⟩ 2
  seed := .v4 ⟨127, 0, 0, 1⟩ 1234
  metadata := default

/-- What a handler answers at once to the request 0. -/
def immediateAnswer : List Effect → SendResult
  | .reply 0 (.response (.ok resp)) :: _ => .ok resp
  | _ => .error (.transport "timed out after 5s")

theorem immediateAnswer_eq_ok {effects : List Effect} {resp : RapidResponse}
    (h : immediateAnswer effects = .ok resp) : .reply 0 (.response (.ok resp)) ∈ effects := by
  unfold immediateAnswer at h
  split at h
  · cases h
    exact List.mem_cons_self
  · cases h

/-- The member answers all requests. -/
def memberWorld (s : ServiceState) (id : NodeId) : Nat → JoinAttempt := fun _ =>
  { seedAnswer := .ok ⟨some (.joinResponse (s.handlePreJoin (phase1Message hostB id)).2)⟩
    observerOrder := endpointOrder
    answer := fun sent =>
      match sent.2.content with
      | some (.joinMessage msg) =>
          immediateAnswer (s.handleJoin ServiceState.sampleEnvironment msg 0).2
      | _ => .error .bootstrapping
    arrival := fun sends => sends
    arrival_perm := fun _ => .refl _
    started := fun _ => true
    uuid := ⟨0, 0⟩ }

/-- The answers of the member in the state `s` are lost, and the member goes on to the state `t`. -/
def lossyWorld (s t : ServiceState) (id : NodeId) : Nat → JoinAttempt
  | 0 => { memberWorld s id 0 with answer := fun _ => .error (.transport "timed out after 5s") }
  | n + 1 => memberWorld t id n

/-- What `hostA` is sent by the first attempt. -/
def firstRequests (s : ServiceState) : List ServiceCommand :=
  (returningCall.sendsAt ⟨2, 2⟩ (memberWorld s ⟨2, 2⟩) 0
    (s.handlePreJoin (phase1Message hostB ⟨2, 2⟩)).2).map fun sent => .request sent.2 0

/-- The only member `hostA` before `hostB` asks it, and after it has let `hostB` in. -/
def admission : Option (ServiceState × ServiceState) :=
  (ServiceState.sampleJoin 3 1 [⟨1, 1⟩] [hostA]).toOption.bind fun outcome =>
    (serviceSystem.exec ⟨outcome.1, outcome.2, [], false⟩
      ((firstRequests outcome.1 ++
        [ServiceCommand.request (sampleAlerts outcome.1 .up hostB (some ⟨2, 2⟩)) 1,
          ServiceCommand.request (sampleVote outcome.1 hostA [hostB]) 2]).map fun cmd =>
            (ServiceState.sampleEnvironment, cmd))).map fun run => (outcome.1, run.state)

/-- The requests that the member answers. -/
def answeredRequests (s : ServiceState) (world : Nat → JoinAttempt) (n : Nat) : List Sent :=
  (returningCall.sendsAt ⟨2, 2⟩ world n (s.handlePreJoin (phase1Message hostB ⟨2, 2⟩)).2).filter
    fun sent => (world n).answer sent matches .ok _

theorem admission_facts :
    (admission.map fun states =>
      (states.2.view.isHostPresent hostB, states.2.view.isIdentifierPresent ⟨2, 2⟩,
        states.2.view.isIdentifierPresent ⟨9, 9⟩,
        JoinCall.idAt ⟨2, 2⟩ (lossyWorld states.1 states.2 ⟨2, 2⟩) 1,
        (answeredRequests states.2 (lossyWorld states.1 states.2 ⟨2, 2⟩) 1).length)) =
      some (true, true, false, ⟨2, 2⟩, 1) := by
  decide +kernel

theorem listen_returningCall : endpointFromSocket returningCall.listenAddr = hostB := by
  decide +kernel

theorem answeredByMember {s : ServiceState} (hlists : s.view.isHostPresent hostB = true) (id : NodeId) :
    AnsweredByMembers returningCall id (memberWorld s id) 0 1 (fun _ => s) fun _ _ => s := by
  refine ⟨?_, ?_, ?_, ?_⟩
  · intro n _ hn
    cases Nat.lt_one_iff.1 hn
    rw [listen_returningCall]
    rfl
  · intro n _ _
    rw [listen_returningCall]
    exact hlists
  · intro n _ _ addr msg resp hresp
    exact ⟨ServiceState.sampleEnvironment, 0, immediateAnswer_eq_ok hresp⟩
  · intro n _ _ sent
    rw [listen_returningCall]
    exact hlists

theorem answeredAfterLoss {s t : ServiceState} (hlists : t.view.isHostPresent hostB = true)
    (hid : JoinCall.idAt ⟨2, 2⟩ (lossyWorld s t ⟨2, 2⟩) 1 = ⟨2, 2⟩) :
    AnsweredByMembers returningCall ⟨2, 2⟩ (lossyWorld s t ⟨2, 2⟩) 1 2 (fun _ => t) fun _ _ => t := by
  have hlast (n : Nat) (hk : 1 ≤ n) (hn : n < 2) : n = 1 := by omega
  refine ⟨?_, ?_, ?_, ?_⟩
  · intro n hk hn
    cases hlast n hk hn
    rw [listen_returningCall, hid]
    rfl
  · intro n _ _
    rw [listen_returningCall]
    exact hlists
  · intro n hk hn addr msg resp hresp
    cases hlast n hk hn
    exact ⟨ServiceState.sampleEnvironment, 0, immediateAnswer_eq_ok hresp⟩
  · intro n _ _ sent
    rw [listen_returningCall]
    exact hlists

/-- `hostB` is admitted in its first attempt, whose answer is lost, and gets in at its second one; another
node at its address is kept out. -/
theorem hostB_rejoins : ∃ s t, admission = some (s, t) ∧
    (∃ jr, (returningCall.runJoinProtocol 2 ⟨2, 2⟩ (lossyWorld s t ⟨2, 2⟩)).2 = .ok jr) ∧
      ¬ ∃ jr, (returningCall.runJoinProtocol 1 ⟨9, 9⟩ (memberWorld t ⟨9, 9⟩)).2 = .ok jr := by
  rcases Option.map_eq_some_iff.1 admission_facts with ⟨⟨s, t⟩, hstates, heq⟩
  simp only [Prod.mk.injEq] at heq
  rcases heq with ⟨hlists, hknown, hunknown, hid, hlength⟩
  have hlost : ∀ m < 1, returningCall.Fruitless ⟨2, 2⟩ (lossyWorld s t ⟨2, 2⟩) m := by
    intro m hm
    cases Nat.lt_one_iff.1 hm
    exact ⟨_, rfl, fun sent _ => rfl⟩
  refine ⟨s, t, hstates, (rejoin_iff hlost (answeredAfterLoss hlists hid)).1.2 ?_, ?_⟩
  · rcases List.exists_mem_of_length_pos (hlength ▸ Nat.one_pos) with ⟨sent, hsent⟩
    rcases List.mem_filter.1 hsent with ⟨hmem, hanswer⟩
    have hphase1 : JoinCall.phase1At (lossyWorld s t ⟨2, 2⟩) 1 =
        .ok (t.handlePreJoin (phase1Message hostB ⟨2, 2⟩)).2 := rfl
    rw [hid]
    refine ⟨1, Nat.le_refl 1, by decide, sent, ⟨_, hphase1, hmem⟩, ?_, hknown⟩
    cases hresult : (lossyWorld s t ⟨2, 2⟩ 1).answer sent with
    | ok resp => exact ⟨resp, rfl⟩
    | error e =>
        rw [hresult] at hanswer
        cases hanswer
  · intro hok
    rcases (rejoin_iff (fun m hm => absurd hm (Nat.not_lt_zero m))
      (answeredByMember hlists ⟨9, 9⟩)).1.1 hok with ⟨n, _, _, _, _, _, hid⟩
    have hid' : t.view.isIdentifierPresent ⟨9, 9⟩ = true := hid
    rw [hunknown] at hid'
    cases hid'

end Sample

end Rapid
