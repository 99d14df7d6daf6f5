import Rapid.Service.Admission
import Rapid.Service.JoinRequests

/-!
# WelcomedJoiner — who is told that it may join

A decision answers every joiner parked for an endpoint of the proposal alike, whatever the loop did
with that endpoint. The answer is right exactly where the loop lets the joiner in with the node id
it asked with (`Welcome`).
-/

namespace Rapid

open Foundations

section Welcome

variable [Xxh64]

namespace ServiceState

/-- The proposal lets the joiner in: the joiner is listed so that it is out of the cluster when the
loop reaches it for the last time, its entry in the joiner table is new to the cluster and nobody
brings it earlier, no other endpoint has its place on ring 0, and the node id it asked with is known
or brought by somebody. -/
def Welcome (s : ServiceState) (proposal : List Endpoint) (joiner : Endpoint) (nodeId : NodeId) :
    Prop :=
  ∃ before after id, proposal = before ++ joiner :: after ∧ joiner ∉ after ∧
    ¬ s.Enters before joiner ∧ s.Enters (before ++ [joiner]) joiner ∧
    s.joinerUuid.lookup joiner = some id ∧ s.view.isIdentifierPresent id = false ∧
    (∀ y, s.Enters before y → s.joinerUuid.lookup y ≠ some id) ∧ s.Alone proposal joiner ∧
    (s.view.isIdentifierPresent nodeId = true ∨
      ∃ y, s.Enters proposal y ∧ s.Alone proposal y ∧ s.joinerUuid.lookup y = some nodeId)

variable {s : ServiceState} {proposal : List Endpoint} {joiner : Endpoint} {nodeId : NodeId}

/-- Whoever enters brings its identifier, unless it was known already. -/
theorem Alone.brings {y : Endpoint} {id : NodeId} (h : s.Alone proposal y)
    (henters : s.Enters proposal y) (hlookup : s.joinerUuid.lookup y = some id) :
    (applyNodes proposal s).1.view.isIdentifierPresent id = true := by
  rcases henters.exists_occurrence with ⟨before, after, hsplit, hnot, hhere⟩
  rw [hsplit] at h
  have hpresent := (h.enters hnot hhere hlookup).1
  have hwhole : proposal = (before ++ [y]) ++ after := by
    rw [hsplit, List.append_assoc]
    rfl
  rw [hwhole, applyNodes_append]
  exact (applyNodes_processed _ after).kept id hpresent

theorem Welcome.admits (h : s.Welcome proposal joiner nodeId) :
    joiner ∈ (applyNodes proposal s).1.view.ringZero.ordered ∧
      (applyNodes proposal s).1.view.isIdentifierPresent nodeId = true := by
  rcases h with ⟨before, after, id, hsplit, hlast, hnot, henters, hlookup, hnew, hfirst, halone,
    hasked⟩
  refine ⟨?_, ?_⟩
  · have hwhole : proposal = (before ++ [joiner]) ++ after := by
      rw [hsplit, List.append_assoc]
      rfl
    -- Nobody has brought the identifier before the joiner is reached.
    have hunknown : (applyNodes before s).1.view.isIdentifierPresent id = false := by
      refine Bool.eq_false_iff.2 ?_
      intro hpresent
      rcases (applyNodes_processed s before).known id hpresent with hold | ⟨y, hy, hyid⟩
      · rw [hnew] at hold
        cases hold
      · exact hfirst y hy hyid
    have halone' : s.Alone (before ++ joiner :: after) joiner := hsplit ▸ halone
    have hlisted := (halone'.enters hnot henters hlookup).2 hunknown
    have hkey : ∀ z, (applyNodes (before ++ [joiner]) s).1.view.ringZero.key z =
        s.view.ringZero.key z := by
      intro z
      rw [Ring.key, Ring.key, (applyNodes_processed s (before ++ [joiner])).seed]
    rw [hwhole, applyNodes_append]
    refine listed_applyNodes ?_ ?_
    · intro z hz
      rw [hkey, hkey]
      refine halone'.key z ?_ ?_
      · exact List.mem_append_right _ (List.mem_cons_of_mem _ hz)
      · rintro rfl
        exact hlast hz
    · rw [hkey]
      exact hlisted
  · rcases hasked with hpresent | ⟨y, hy, hyalone, hyid⟩
    · exact (applyNodes_processed s proposal).kept nodeId hpresent
    · exact hyalone.brings hy hyid

/-- The detectors have no part in it. -/
theorem Welcome.cancel (h : s.Welcome proposal joiner nodeId) :
    s.cancelFailureDetectors.1.Welcome proposal joiner nodeId := by
  have halone : ∀ {y}, s.Alone proposal y → s.cancelFailureDetectors.1.Alone proposal y :=
    fun h => ⟨h.onRing, h.key⟩
  rcases h with ⟨before, after, id, hsplit, hlast, hnot, henters, hlookup, hnew, hfirst, hjoiner,
    hasked⟩
  refine ⟨before, after, id, hsplit, hlast, hnot, henters, hlookup, hnew, hfirst, halone hjoiner,
    hasked.imp_right ?_⟩
  rintro ⟨y, hy, hyalone, hyid⟩
  exact ⟨y, hy, halone hyalone, hyid⟩

omit [Xxh64] in
theorem mem_currentIdentifiers {v : MembershipView} {id : NodeId} :
    id ∈ v.currentIdentifiers ↔ v.isIdentifierPresent id = true := by
  rw [MembershipView.isIdentifierPresent_iff, ← MembershipView.currentIdentifiers_map, List.mem_map]
  constructor
  · exact fun h => ⟨id, h, rfl⟩
  · rintro ⟨other, hother, heq⟩
    rwa [← NodeIdKey.ofNodeId_injective heq]

end ServiceState

/-! ## Runs -/

/-- Every proposal decided in the step lets in all joiners that are parked for it. -/
def WelcomesJoiners (run : ServiceRun) (a : Environment × ServiceCommand) : Prop :=
  ∀ s proposal, .call (.decideViewChange s proposal) ∈ run.effects a.1 a.2 →
    ∀ joiner ∈ proposal, ∀ parked, s.joinersToRespondTo.lookup joiner = some parked →
      ∀ id ∈ parked, ∀ msg, Asked run.handled id msg →
        s.Welcome proposal joiner (msg.nodeId.getD default)

theorem serviceSystem_step {run run' : ServiceRun} {a : Environment × ServiceCommand}
    (h : serviceSystem.step run a = some run') :
    run.fresh a.2 = true ∧ run' = run.next a.1 a.2 := by
  simp only [serviceSystem] at h
  split at h
  · rename_i hready
    cases h
    exact ⟨(Bool.and_eq_true_iff.1 hready).2, rfl⟩
  · cases h

/-- In every run whose decisions let in the joiners they answer, a joiner that was parked and is
told that it may join is listed with its node id. -/
theorem welcomedJoiner_member {run run' : ServiceRun} {a : Environment × ServiceCommand}
    (hrun : serviceSystem.Reaches WelcomesJoiners run) (hwelcome : WelcomesJoiners run a)
    (hstep : serviceSystem.step run a = some run') {id : ReplyId} {response : JoinResponse}
    (hreply : .reply id (ServiceState.joinReply response) ∈ run.effects a.1 a.2) {msg : JoinMessage}
    (hparked : Asked run.handled id msg) :
    msg.sender.getD default ∈ response.endpoints ∧
      msg.nodeId.getD default ∈ response.identifiers := by
  have hfresh := run.fresh_spec (serviceSystem_step hstep).1
  have hrequests := (requests_reaches hrun).arrive hfresh
  rcases joinReply_source run.state (fun s es t h hmove => h.move (by simp) hmove) hrequests hreply
    with hown | ⟨t, proposal, ht, hcall, hanswers, _⟩
  · -- The command has a reply channel of its own.
    exact absurd rfl (hfresh id hown _ hparked)
  · rcases hanswers.sent with ⟨joiner, hjoiner, parked, hlookup, id', hid', response', heq, _, _,
      hendpoints, hidentifiers⟩
    cases heq
    rcases ht.parked joiner parked hlookup id hid' with ⟨msg', hasked', hsender⟩
    have hmsg : msg = msg' := ht.eq (List.mem_append_left _ hparked) hasked'
    subst hmsg
    have hadmitted : t.cancelFailureDetectors.1.Welcome proposal joiner (msg.nodeId.getD default) :=
      (hwelcome t proposal hcall joiner hjoiner parked hlookup id hid' msg hparked).cancel
    rcases hadmitted.admits with ⟨hlisted, hpresent⟩
    rw [hendpoints, hidentifiers, hsender]
    exact ⟨hlisted, ServiceState.mem_currentIdentifiers.2 hpresent⟩

end Welcome

/-! ### A newcomer, and a member that asks again -/

section Sample

attribute [local instance] xxh64Reference

/-- `joiner` asks `hostA` for all three rings in the configuration that `state` is in. -/
def joinRequest (state : ServiceState) (joiner : Endpoint) (nodeId : NodeId) : JoinMessage where
  sender := some joiner
  nodeId := some nodeId
  ringNumber := [0, 1, 2]
  configurationId := state.configurationId.2
  metadata := none

/-- The vote of `voter` for the proposal. -/
def sampleVote (state : ServiceState) (voter : Endpoint) (proposal : List Endpoint) : RapidRequest :=
  ⟨some (.fastRoundPhase2bMessage
    { sender := some voter, configurationId := state.configurationId.2, endpoints := proposal })⟩

def sampleAlerts (state : ServiceState) (status : EdgeStatus) (subject : Endpoint)
    (nodeId : Option NodeId) : RapidRequest :=
  ⟨some (.batchedAlertMessage
    { sender := some hostC, messages := [state.sampleAlert status [0, 1, 2] subject nodeId] })⟩

/-- `hostB` asks the only member and is about to be let in. -/
def newcomerRun : Option ServiceRun :=
  sampleUndecided 3 1 [⟨1, 1⟩] [hostA] fun state =>
    [.request ⟨some (.joinMessage (joinRequest state hostB ⟨2, 2⟩))⟩ 0,
      .request (sampleAlerts state .up hostB (some ⟨2, 2⟩)) 1]

/-- The vote that decides. -/
def newcomerVote (run : ServiceRun) : Environment × ServiceCommand :=
  (ServiceState.sampleEnvironment, .request (sampleVote run.state hostA [hostB]) 2)

theorem newcomerRun_facts :
    (newcomerRun.map fun run =>
      (((run.effects (newcomerVote run).1 (newcomerVote run).2).filterMap Effect.joinResponse?).map
          Prod.fst,
        decide (run.handled =
          [.request ⟨some (.joinMessage (joinRequest run.state hostB ⟨2, 2⟩))⟩ 0,
            .request (sampleAlerts run.state .up hostB (some ⟨2, 2⟩)) 1]),
        (serviceSystem.step run (newcomerVote run)).isSome)) =
      some ([0], true, true) := by
  decide +kernel

theorem newcomerRun_decisions :
    (newcomerRun.map fun run =>
      ((run.effects (newcomerVote run).1 (newcomerVote run).2).filterMap Effect.decision?).map
        fun d => (d.2, d.1.view.allNodes, d.1.view.ringZero.contains hostB,
          decide (d.1.joinerUuid.lookup hostB = some ⟨2, 2⟩),
          d.1.view.isIdentifierPresent ⟨2, 2⟩)) =
      some [([hostB], {hostA}, false, true, false)] := by
  decide +kernel

/-- The only joiner is new, alone and brings the id it asked with. -/
theorem newcomerRun_welcomes {run : ServiceRun} (hrun : newcomerRun = some run)
    (hhandled : run.handled =
      [.request ⟨some (.joinMessage (joinRequest run.state hostB ⟨2, 2⟩))⟩ 0,
        .request (sampleAlerts run.state .up hostB (some ⟨2, 2⟩)) 1]) :
    WelcomesJoiners run (newcomerVote run) := by
  rcases Option.map_eq_some_iff.1 newcomerRun_decisions with ⟨run', hrun', hdecisions⟩
  cases hrun.symm.trans hrun'
  rcases List.map_eq_singleton_iff.1 hdecisions with ⟨d, hd, hfacts⟩
  simp only [Prod.mk.injEq, decide_eq_true_eq] at hfacts
  rcases hfacts with ⟨hproposal, hnodes, hring, hlookup, hnew⟩
  intro s proposal hcall joiner hjoiner parked _ id _ msg hmsg
  have hmem := mem_decisions.2 hcall
  rw [hd] at hmem
  cases List.mem_singleton.1 hmem
  have hproposal' : proposal = [hostB] := hproposal
  subst hproposal'
  cases List.mem_singleton.1 hjoiner
  have hnodeId : msg.nodeId.getD default = ⟨2, 2⟩ := by
    rw [Asked, hhandled] at hmsg
    rcases List.mem_cons.1 hmsg with hfirst | hsecond
    · cases hfirst
      rfl
    · cases List.mem_singleton.1 hsecond
  have habsent : hostB ∉ s.view.allNodes := by
    rw [hnodes]
    decide +kernel
  have henters : s.Enters ([] ++ [hostB]) hostB := by
    simp [ServiceState.Enters, habsent]
  have halone : s.Alone [hostB] hostB := by
    refine ⟨iff_of_false habsent ?_, ?_⟩
    · exact Bool.eq_false_iff.1 hring
    · intro z hz hne
      exact absurd (List.mem_singleton.1 hz) hne
  refine ⟨[], [], ⟨2, 2⟩, rfl, List.not_mem_nil, ?_, henters, hlookup, hnew, ?_, halone, ?_⟩
  · simp [ServiceState.Enters]
  · intro y hy
    simp [ServiceState.Enters] at hy
  · exact .inr ⟨hostB, henters, halone, hnodeId ▸ hlookup⟩

theorem newcomerRun_member :
    ∃ run, newcomerRun = some run ∧ ∃ response : JoinResponse,
      .reply 0 (ServiceState.joinReply response) ∈
        run.effects (newcomerVote run).1 (newcomerVote run).2 ∧
      hostB ∈ response.endpoints ∧ ⟨2, 2⟩ ∈ response.identifiers := by
  rcases Option.map_eq_some_iff.1 newcomerRun_facts with ⟨run, hrun, heq⟩
  simp only [Prod.mk.injEq, decide_eq_true_eq] at heq
  rcases heq with ⟨hreplies, hhandled, hready⟩
  rcases Option.isSome_iff_exists.1 hready with ⟨run', hstep⟩
  rcases List.map_eq_singleton_iff.1 hreplies with ⟨⟨id, response⟩, hresponses, rfl⟩
  have hreply := mem_joinResponses.1 (hresponses ▸ List.mem_singleton_self _)
  have hasked : Asked run.handled 0 (joinRequest run.state hostB ⟨2, 2⟩) := by
    rw [Asked, hhandled]
    exact List.mem_cons_self
  have hreaches : serviceSystem.Reaches WelcomesJoiners run :=
    (sampleUndecided_reaches hrun).mono fun run a h s p hcall => absurd hcall (h.not_mem s p)
  have hmember := welcomedJoiner_member hreaches (newcomerRun_welcomes hrun hhandled) hstep hreply
    hasked
  exact ⟨run, hrun, response, hreply, hmember⟩

/-- The member `hostB` asks again and is about to be taken out. -/
def memberAsksRun : Option ServiceRun :=
  sampleRun 3 1 [⟨1, 1⟩, ⟨2, 2⟩] [hostA, hostB] fun state =>
    [.request ⟨some (.joinMessage (joinRequest state hostB ⟨3, 3⟩))⟩ 0,
      .request (sampleAlerts state .down hostB none) 1,
      .request (sampleVote state hostA [hostB]) 2]

def memberAsksVote (run : ServiceRun) : Environment × ServiceCommand :=
  (ServiceState.sampleEnvironment, .request (sampleVote run.state hostB [hostB]) 3)

theorem memberAsksRun_facts :
    (memberAsksRun.map fun run =>
      (((run.effects (memberAsksVote run).1 (memberAsksVote run).2).filterMap
          Effect.joinResponse?).map fun p => (p.1, p.2.statusCode, decide (hostB ∈ p.2.endpoints)),
        decide (.request ⟨some (.joinMessage (joinRequest run.state hostB ⟨3, 3⟩))⟩ 0 ∈
          run.handled), (serviceSystem.step run (memberAsksVote run)).isSome)) =
      some ([(0, JoinStatusCode.safeToJoin.toInt32, false)], true, true) := by
  decide +kernel

/-- The parked request is answered as if its sender had been let in. -/
theorem memberAsksRun_misled :
    ∃ run run' : ServiceRun, ∃ msg : JoinMessage, ∃ response : JoinResponse,
      serviceSystem.Reachable run ∧ serviceSystem.step run (memberAsksVote run) = some run' ∧
      Asked run.handled 0 msg ∧
      .reply 0 (ServiceState.joinReply response) ∈
        run.effects (memberAsksVote run).1 (memberAsksVote run).2 ∧
      response.statusCode = JoinStatusCode.safeToJoin.toInt32 ∧
      msg.sender.getD default ∉ response.endpoints := by
  rcases Option.map_eq_some_iff.1 memberAsksRun_facts with ⟨run, hrun, heq⟩
  simp only [Prod.mk.injEq, decide_eq_true_eq] at heq
  rcases heq with ⟨hreplies, hasked, hready⟩
  rcases Option.isSome_iff_exists.1 hready with ⟨run', hstep⟩
  rcases List.map_eq_singleton_iff.1 hreplies with ⟨⟨id, response⟩, hresponses, hresponse⟩
  simp only [Prod.mk.injEq, decide_eq_false_iff_not] at hresponse
  rcases hresponse with ⟨rfl, hstatus, hmissing⟩
  have hreply := mem_joinResponses.1 (hresponses ▸ List.mem_singleton_self _)
  exact ⟨run, run', _, response, sampleRun_reachable hrun, hstep, hasked, hreply, hstatus, hmissing⟩

end Sample

end Rapid
