import Rapid.Service.AwaitedReports
import Rapid.Service.Configurations
import Rapid.Service.JoinProtocol

/-!
# CompleteAlerts — the alerts of all observers cut exactly their subject

The reporter, the joiner, the alert filter and the detector each number the rings on their own. They
agree: together the alerts about a node carry every ring, so that the high watermark is reached.
-/

namespace Rapid

open Foundations MultiNodeCutDetector

section Complete

variable [Xxh64]

/-! ## One configuration at all members -/

/-- `w` is a view of the same configuration, with a history of its own. -/
structure MembershipView.SameConfiguration (v w : MembershipView) : Prop where
  reaches : viewSystem.Reaches CollidesNot w
  k : w.k = v.k
  configuration : w.configuration = v.configuration

section Configuration

variable {v w : MembershipView}

theorem MembershipView.SameConfiguration.valid (h : v.SameConfiguration w) : w.Valid :=
  .reaches (fun _ _ h => h) h.reaches

theorem MembershipView.SameConfiguration.allNodes (h : v.SameConfiguration w) :
    w.allNodes = v.allNodes :=
  (configuration_eq_iff.1 h.configuration).2

theorem MembershipView.SameConfiguration.rings (h : v.SameConfiguration w) (hv : v.Valid) :
    w.rings = v.rings :=
  h.valid.rings_eq hv h.k h.allNodes

theorem MembershipView.SameConfiguration.isIdentifierPresent (h : v.SameConfiguration w)
    (id : NodeId) : w.isIdentifierPresent id = v.isIdentifierPresent id := by
  have hkeys := (configuration_eq_iff.1 h.configuration).1
  rw [Bool.eq_iff_iff, isIdentifierPresent_iff, isIdentifierPresent_iff, ← List.mem_toFinset, hkeys,
    List.mem_toFinset]

theorem MembershipView.SameConfiguration.configurationId (h : v.SameConfiguration w)
    (hv : v.Valid) : w.currentConfigurationId.2 = v.currentConfigurationId.2 :=
  h.valid.currentConfigurationId_congr hv (h.rings hv) (identifiers_eq h.isIdentifierPresent)

theorem MembershipView.SameConfiguration.computeObserversOf (h : v.SameConfiguration w)
    (hv : v.Valid) (e : Endpoint) : w.computeObserversOf e = v.computeObserversOf e := by
  have hrings := h.rings hv
  simp only [MembershipView.computeObserversOf, MembershipView.ringZero_eq hrings, hrings]

theorem MembershipView.SameConfiguration.getExpectedObserversOf (h : v.SameConfiguration w)
    (hv : v.Valid) (e : Endpoint) : w.getExpectedObserversOf e = v.getExpectedObserversOf e := by
  have hrings := h.rings hv
  simp only [MembershipView.getExpectedObserversOf, MembershipView.predecessorsOf,
    MembershipView.ringZero_eq hrings, hrings]

theorem MembershipView.SameConfiguration.current (h : v.SameConfiguration w) :
    v.SameConfiguration w.currentConfigurationId.1 where
  reaches := .step h.reaches (a := .currentConfigurationId) trivial rfl
  k := MembershipView.shows_current.k.trans h.k
  configuration := (Refreshes.current w).keeps.configuration.trans h.configuration

end Configuration

/-! ## The alerts of the observers -/

/-- The alerts that a handler has put on the queue. -/
def enqueued (before after : ServiceState) : List AlertMessage :=
  after.sendQueue.drop before.sendQueue.length

omit [Xxh64] in
theorem ringAsUInt8_ofNat (i : Nat) : ringAsUInt8 (Int32.ofNat i) = i.toUInt8 := by
  apply UInt8.toNat_inj.1
  simp [ringAsUInt8]

section Observers

variable {state member : ServiceState} {s o j : Endpoint}

/-- A detector of the current configuration reports its subject. -/
theorem enqueued_handleEdgeFailure (now : Instant) {ev : EdgeFailure}
    (hid : ev.configurationId = member.view.currentConfigurationId.2) :
    enqueued member (member.handleEdgeFailure now ev) =
      [{ edgeSrc := some member.myAddr
         edgeDst := some ev.subject
         edgeStatus := EdgeStatus.down.toInt32
         configurationId := member.view.currentConfigurationId.2
         ringNumber := ((member.view.currentConfigurationId.1.getRingNumbers member.myAddr
           ev.subject).toOption.getD []).map fun ring => Int32.ofNat ring.toNat
         nodeId := none
         metadata := none }] := by
  have hcurrent : ¬ ev.configurationId ≠ member.configurationId.2 := not_not.2 hid
  unfold ServiceState.handleEdgeFailure
  simp only [hcurrent, if_false]
  exact List.drop_left

/-- An observer parks the joiner and reports it on the rings of the message. -/
theorem enqueued_handleJoin (env : Environment) {msg : JoinMessage} (reply : ReplyId)
    (hid : msg.configurationId = member.view.currentConfigurationId.2) :
    enqueued member (member.handleJoin env msg reply).1 =
      [{ edgeSrc := some member.myAddr
         edgeDst := some (msg.sender.getD default)
         edgeStatus := EdgeStatus.up.toInt32
         configurationId := member.view.currentConfigurationId.2
         ringNumber := msg.ringNumber
         nodeId := some (msg.nodeId.getD default)
         metadata := msg.metadata }] := by
  have hcurrent : member.configurationId.2 = msg.configurationId := hid.symm
  unfold ServiceState.handleJoin
  simp only [hcurrent, if_true]
  have hdrop : ∀ alert : AlertMessage,
      (member.sendQueue ++ [alert]).drop member.sendQueue.length = [alert] :=
    fun _ => List.drop_left
  rw [← hcurrent]
  exact hdrop _

/-- The rings of a DOWN alert are those on which the reporter observes its subject. -/
theorem ringNumbers_down (hvalid : state.view.Valid) (htwo : 2 ≤ state.view.membershipSize)
    (hsame : state.view.SameConfiguration member.view) (hs : s ∈ state.view.allNodes)
    (ho : member.myAddr ∈ state.view.allNodes) (ring : UInt8) :
    ring ∈ (((member.view.currentConfigurationId.1.getRingNumbers member.myAddr s).toOption.getD
        []).map fun ring => Int32.ofNat ring.toNat).map ringAsUInt8 ↔
      (state.view.computeObserversOf s)[ring.toNat]? = some member.myAddr := by
  have hcurrent := hsame.current
  have htwo' : 2 ≤ member.view.currentConfigurationId.1.membershipSize := by
    rw [hcurrent.valid.membershipSize_eq, hcurrent.allNodes, ← hvalid.membershipSize_eq]
    exact htwo
  rcases hcurrent.valid.getRingNumbers_spec htwo' (hcurrent.allNodes ▸ hs)
    (hcurrent.allNodes ▸ ho) with ⟨numbers, hok, _, hmem⟩
  have hcast : (numbers.map fun ring => Int32.ofNat ring.toNat).map ringAsUInt8 = numbers := by
    have hid : ∀ ring : UInt8, ringAsUInt8 (Int32.ofNat ring.toNat) = ring := by
      intro ring
      rw [ringAsUInt8_ofNat]
      exact UInt8.ofNat_toNat
    rw [List.map_map]
    exact (List.map_congr_left fun ring _ => hid ring).trans (List.map_id _)
  have hvalue : (member.view.currentConfigurationId.1.getRingNumbers member.myAddr s).toOption.getD
      [] = numbers := by
    rw [hok]
    rfl
  rw [hvalue, hcast, hmem, hcurrent.computeObserversOf hvalid]

theorem phase1_handlePreJoin {id : NodeId} (hvalid : state.view.Valid)
    (hsame : state.view.SameConfiguration member.view) (hj : j ∉ state.view.allNodes)
    (hid : state.view.isIdentifierPresent id = false) :
    (member.handlePreJoin (phase1Message j id)).2.endpoints = state.view.getExpectedObserversOf j ∧
      configurationToJoin (member.handlePreJoin (phase1Message j id)).2 =
        state.view.currentConfigurationId.2 := by
  have habsent : member.view.isHostPresent j = false := by
    rw [MembershipView.isHostPresent, hsame.allNodes]
    exact decide_eq_false hj
  have hunseen : member.view.isIdentifierPresent id = false :=
    (hsame.isIdentifierPresent id).trans hid
  have hsafe : member.view.isSafeToJoin j id = .safeToJoin := by
    simp [MembershipView.isSafeToJoin, habsent, hunseen]
  have hstatus : JoinStatusCode.safeToJoin.toInt32 ≠ JoinStatusCode.hostnameAlreadyInRing.toInt32 := by
    decide
  constructor
  · have hcurrent := hsame.current.getExpectedObserversOf hvalid j
    simpa [ServiceState.handlePreJoin, ServiceState.configurationId, phase1Message, hsafe] using hcurrent
  · have hcurrent := hsame.configurationId hvalid
    simpa [configurationToJoin, ServiceState.handlePreJoin, ServiceState.configurationId,
      phase1Message, hsafe, ServiceState.javaStatusCode, hstatus] using hcurrent

end Observers

/-! ## Complete alerts -/

/-- The batches hold these alerts and no others, in any order and as often as one likes. -/
def Delivers (calls : List (Environment × BatchedAlertMessage)) (alerts : Set AlertMessage) : Prop :=
  ∀ alert, alert ∈ (calls.flatMap fun call => call.2.messages) ↔ alert ∈ alerts

/-- What the other members enqueue when their detectors give `s` up. -/
def downAlerts (members : Endpoint → ServiceState) (clock : Endpoint → Instant)
    (nodes : Finset Endpoint) (s : Endpoint) : Set AlertMessage :=
  fun alert => ∃ o ∈ nodes, o ≠ s ∧ alert ∈ enqueued (members o)
    ((members o).handleEdgeFailure (clock o) ⟨s, (members o).view.currentConfigurationId.2⟩)

/-- What the observers enqueue for the messages of a joiner. -/
def upAlerts (members : Endpoint → ServiceState) (env : Endpoint → Environment)
    (reply : Endpoint → ReplyId) (messages : List (Endpoint × JoinMessage)) : Set AlertMessage :=
  fun alert => ∃ sent ∈ messages, alert ∈ enqueued (members sent.1)
    ((members sent.1).handleJoin (env sent.1) sent.2 (reply sent.1)).1

section Main

variable {state : ServiceState} {members : Endpoint → ServiceState} {s j : Endpoint}
  {calls : List (Environment × BatchedAlertMessage)}

omit [Xxh64] in
theorem mem_deliveredRings {ring : UInt8} : ring ∈ ServiceState.deliveredRings calls ↔
    ∃ alert ∈ calls.flatMap fun call => call.2.messages,
      ring ∈ alert.ringNumber.map ringAsUInt8 :=
  List.mem_flatMap

theorem downAlerts_cut {clock : Endpoint → Instant}
    (hview : viewSystem.Reaches CollidesNot state.view)
    (hk : state.cutDetector.k = state.view.k) (hfresh : state.cutDetector.Fresh)
    (hwaiting : state.lifecycle ≠ .announcedProposal)
    (hmembers : ∀ o ∈ state.view.allNodes, (members o).myAddr = o ∧
      state.view.SameConfiguration (members o).view)
    (hs : s ∈ state.view.allNodes) (htwo : 2 ≤ state.view.membershipSize)
    (hdelivers : Delivers calls (downAlerts members clock state.view.allNodes s)) :
    (state.proposals calls).filter (fun proposal => proposal ≠ []) = [[s]] := by
  have hvalid : state.view.Valid := .reaches (fun _ _ h => h) hview
  rcases hvalid.computeObserversOf_getElem? htwo hs with ⟨hlength, _⟩
  refine ServiceState.proposals_of_complete .down hfresh hk hwaiting
    (decide_eq_true hs) (ServiceState.unobserved_member hview hs) ?_ ?_
  · intro alert halert
    -- Every alert comes from an observer, with the rings it observes.
    rcases (hdelivers alert).1 halert with ⟨o, ho, _, hqueued⟩
    rcases hmembers o ho with ⟨haddr, hsame⟩
    rw [enqueued_handleEdgeFailure (clock o) rfl] at hqueued
    have hrings := ringNumbers_down hvalid htwo hsame hs (haddr.symm ▸ ho)
    cases List.mem_singleton.1 hqueued
    refine ⟨hsame.configurationId hvalid, ⟨_, rfl⟩, rfl, rfl, ?_⟩
    intro ring hring
    have hlisted := (hrings ring).1 hring
    have hlt := (List.getElem?_eq_some_iff.1 hlisted).1
    rw [hlength] at hlt
    exact UInt8.lt_iff_toNat_lt.2 hlt
  · -- Every ring belongs to the observer that the subject has there.
    intro ring hring
    have hlt : ring.toNat < (state.view.computeObserversOf s).length := by
      rw [hlength]
      exact UInt8.lt_iff_toNat_lt.1 hring
    have hlisted := List.getElem?_eq_getElem hlt
    have hmem := List.getElem_mem hlt
    generalize (state.view.computeObserversOf s)[ring.toNat] = o at hlisted hmem
    have ho := hvalid.computeObserversOf_subset hs o hmem
    have hne : o ≠ s := fun heq => hvalid.notMem_computeObserversOf hs (heq ▸ hmem)
    rcases hmembers o ho with ⟨haddr, hsame⟩
    have hrings := ringNumbers_down hvalid htwo hsame hs (haddr.symm ▸ ho)
    have hqueued : enqueued (members o) ((members o).handleEdgeFailure (clock o)
        ⟨s, (members o).view.currentConfigurationId.2⟩) = _ :=
      enqueued_handleEdgeFailure (clock o) rfl
    refine mem_deliveredRings.2 ⟨_, (hdelivers _).2 ⟨o, ho, hne,
      hqueued ▸ List.mem_singleton_self _⟩, (hrings ring).2 ?_⟩
    rw [haddr]
    exact hlisted

/-- A joiner asks a member and then sends its messages. -/
theorem upAlerts_cut {env : Endpoint → Environment} {reply : Endpoint → ReplyId} {id : NodeId}
    {contact : Endpoint} {isSocketAddr : Endpoint → Bool} {order : HashOrder EndpointKey}
    {metadata : Metadata} (hview : viewSystem.Reaches CollidesNot state.view)
    (hk : state.cutDetector.k = state.view.k) (hfresh : state.cutDetector.Fresh)
    (hwaiting : state.lifecycle ≠ .announcedProposal)
    (hmembers : ∀ o ∈ state.view.allNodes, (members o).myAddr = o ∧
      state.view.SameConfiguration (members o).view)
    (hj : j ∉ state.view.allNodes) (hid : state.view.isIdentifierPresent id = false)
    (hcontact : contact ∈ state.view.allNodes)
    (haddr : ∀ o ∈ state.view.allNodes, isSocketAddr o = true)
    (hdelivers : Delivers calls (upAlerts members env reply (phase2Messages isSocketAddr order j id
      metadata ((members contact).handlePreJoin (phase1Message j id)).2))) :
    (state.proposals calls).filter (fun proposal => proposal ≠ []) = [[j]] := by
  have hvalid : state.view.Valid := .reaches (fun _ _ h => h) hview
  rcases hvalid.getExpectedObserversOf_getElem? hcontact j with ⟨hlength, _⟩
  have hsubset := hvalid.getExpectedObserversOf_subset j
  rcases phase1_handlePreJoin hvalid (hmembers contact hcontact).2 hj hid with ⟨hlist, hconfig⟩
  generalize ((members contact).handlePreJoin (phase1Message j id)).2 = phase1
    at hlist hconfig hdelivers
  rw [← hlist] at hlength hsubset
  -- Each message is answered in the current configuration.
  have hqueued : ∀ o msg, (o, msg) ∈ phase2Messages isSocketAddr order j id metadata phase1 →
      msg.configurationId = (members o).view.currentConfigurationId.2 := by
    intro o msg hsent
    rcases phase2Messages_sound hsent with ⟨ho, _, _, hmsg, _⟩
    rw [hmsg, hconfig, (hmembers o (hsubset o ho)).2.configurationId hvalid]
  refine ServiceState.proposals_of_complete .up hfresh hk hwaiting
    (decide_eq_false hj) (ServiceState.unobserved_joiner hvalid hj) ?_ ?_
  · intro alert halert
    rcases (hdelivers alert).1 halert with ⟨⟨o, msg⟩, hsent, hmem⟩
    rcases phase2Messages_sound hsent with ⟨ho, hsender, _, _, hrings⟩
    rw [enqueued_handleJoin (env o) (reply o) (hqueued o msg hsent)] at hmem
    cases List.mem_singleton.1 hmem
    refine ⟨(hmembers o (hsubset o ho)).2.configurationId hvalid, ⟨_, rfl⟩, ?_, rfl, ?_⟩
    · rw [hsender]
      rfl
    · intro ring hring
      rcases List.mem_map.1 hring with ⟨n, hn, rfl⟩
      -- The joiner numbers the observers that it was told.
      rcases hrings n hn with ⟨i, hi, rfl⟩
      have hlt := (List.getElem?_eq_some_iff.1 hi).1
      rw [hlength] at hlt
      have hbound : state.view.k.toNat < 256 := state.view.k.toNat_lt
      have hcast : i.toUInt8.toNat = i := UInt8.toNat_ofNat_of_lt' (lt_trans hlt hbound)
      rw [ringAsUInt8_ofNat, UInt8.lt_iff_toNat_lt, hcast]
      exact hlt
  · intro ring hring
    have hlt : ring.toNat < phase1.endpoints.length := by
      rw [hlength]
      exact UInt8.lt_iff_toNat_lt.1 hring
    have hlisted := List.getElem?_eq_getElem hlt
    have ho := hsubset _ (List.getElem_mem hlt)
    generalize phase1.endpoints[ring.toNat] = o at hlisted ho
    -- Every observer has an address, so a message for each ring reaches one.
    rcases phase2Messages_complete hlisted (haddr o ho) with ⟨msg, hsent, hnumber⟩
    have halert : enqueued (members o) ((members o).handleJoin (env o) msg (reply o)).1 = _ :=
      enqueued_handleJoin (env o) (reply o) (hqueued o msg hsent)
    refine mem_deliveredRings.2 ⟨_, (hdelivers _).2 ⟨(o, msg), hsent,
      halert ▸ List.mem_singleton_self _⟩, List.mem_map.2 ⟨_, hnumber, ?_⟩⟩
    rw [ringAsUInt8_ofNat]
    exact UInt8.ofNat_toNat

/-- At a member with a fresh detector, the alerts of all observers cut exactly their subject: a
member that all others have given up, or a joiner that all its observers vouch for. -/
theorem completeAlerts_cut_subject (hview : viewSystem.Reaches CollidesNot state.view)
    (hk : state.cutDetector.k = state.view.k) (hfresh : state.cutDetector.Fresh)
    (hwaiting : state.lifecycle ≠ .announcedProposal)
    (hmembers : ∀ o ∈ state.view.allNodes, (members o).myAddr = o ∧
      state.view.SameConfiguration (members o).view) :
    (∀ s ∈ state.view.allNodes, 2 ≤ state.view.membershipSize → ∀ clock calls,
      Delivers calls (downAlerts members clock state.view.allNodes s) →
        (state.proposals calls).filter (fun proposal => proposal ≠ []) = [[s]]) ∧
    ∀ j ∉ state.view.allNodes, ∀ id, state.view.isIdentifierPresent id = false →
      ∀ contact ∈ state.view.allNodes, ∀ isSocketAddr : Endpoint → Bool,
        (∀ o ∈ state.view.allNodes, isSocketAddr o = true) → ∀ order metadata env reply calls,
          Delivers calls (upAlerts members env reply (phase2Messages isSocketAddr order j id metadata
            ((members contact).handlePreJoin (phase1Message j id)).2)) →
              (state.proposals calls).filter (fun proposal => proposal ≠ []) = [[j]] := by
  constructor
  · intro s hs htwo clock calls hdelivers
    exact downAlerts_cut hview hk hfresh hwaiting hmembers hs htwo hdelivers
  · intro j hj id hid contact hcontact isSocketAddr haddr order metadata env reply calls hdelivers
    exact upAlerts_cut hview hk hfresh hwaiting hmembers hj hid hcontact haddr hdelivers

end Main

end Complete

/-! ### Three members, one of them lost, and a fourth that joins -/

section Sample

attribute [local instance] xxh64Reference

/-- A member that has just started with this view. -/
def freshMember (view : MembershipView) (detector : MultiNodeCutDetector) (addr : Endpoint) :
    ServiceState :=
  .new addr view detector .new .default

/-- The alert of each of these members about `hostB`, in batches of its own. -/
def lossOfB (members : Endpoint → ServiceState) (reporters : List Endpoint) :
    List (Environment × BatchedAlertMessage) :=
  reporters.map fun o =>
    (ServiceState.sampleEnvironment,
      { sender := some o
        messages := enqueued (members o)
          ((members o).handleEdgeFailure 0 ⟨hostB, (members o).view.currentConfigurationId.2⟩) })

/-- All alerts about `hostBelow`, in one batch. -/
def joinOfBelow (members : Endpoint → ServiceState) : List (Environment × BatchedAlertMessage) :=
  [(ServiceState.sampleEnvironment,
    { sender := none
      messages := (phase2Messages (fun _ => true) endpointOrder hostBelow ⟨7, 7⟩ default
        ((members hostA).handlePreJoin (phase1Message hostBelow ⟨7, 7⟩)).2).flatMap fun sent =>
          enqueued (members sent.1)
            ((members sent.1).handleJoin ServiceState.sampleEnvironment sent.2 0).1 })]

theorem threeMembers_cut :
    ∃ view detector, MembershipView.bootstrap 3 [⟨1, 1⟩] [hostA, hostB, hostC] = .ok view ∧
      MultiNodeCutDetector.new 3 3 2 = .ok detector ∧
      ((freshMember view detector hostA).proposals (lossOfB (freshMember view detector)
        [hostC, hostA, hostC])).filter (fun proposal => proposal ≠ []) = [[hostB]] ∧
      ((freshMember view detector hostA).proposals (joinOfBelow (freshMember view detector))).filter
        (fun proposal => proposal ≠ []) = [[hostBelow]] := by
  have hviewFacts : ((MembershipView.bootstrap 3 [⟨1, 1⟩] [hostA, hostB, hostC]).toOption.map
      fun v => (v.k, decide (v.allNodes = {hostA, hostB, hostC}), v.membershipSize,
        v.isIdentifierPresent ⟨7, 7⟩)) = some (3, true, 3, false) := by
    decide +kernel
  have hdetectorFacts : ((MultiNodeCutDetector.new 3 3 2).toOption.map fun cd => cd.k) = some 3 := by
    decide +kernel
  rcases Option.map_eq_some_iff.1 hviewFacts with ⟨view, hboot, heq⟩
  rcases Option.map_eq_some_iff.1 hdetectorFacts with ⟨detector, hnew, hdk⟩
  simp only [Prod.mk.injEq, decide_eq_true_eq] at heq
  rcases heq with ⟨hvk, hnodes, hsize, hunseen⟩
  have hboot' := eq_ok_of_toOption hboot
  have hnew' := eq_ok_of_toOption hnew
  have hfree : CollisionFree 3 [hostA, hostB, hostC].toFinset := by
    decide +kernel
  have hreaches : viewSystem.Reaches CollidesNot view := .start (.inr ⟨3, _, _, hfree, hboot'⟩)
  -- The member and every observer hold the same view.
  have hcut := @completeAlerts_cut_subject _ (freshMember view detector hostA)
    (freshMember view detector) hreaches (hdk.trans hvk.symm) (.inl ⟨3, 3, 2, hnew'⟩)
    (fun hannounced => by cases hannounced) fun o _ => ⟨rfl, hreaches, rfl, rfl⟩
  have hmem : ∀ o, o ∈ (freshMember view detector hostA).view.allNodes ↔
      o = hostA ∨ o = hostB ∨ o = hostC := by
    intro o
    show o ∈ view.allNodes ↔ _
    rw [hnodes]
    simp
  refine ⟨view, detector, hboot', hnew', ?_, ?_⟩
  · -- `hostB` is lost; all the others observe it, `hostC` on two rings.
    refine hcut.1 hostB ((hmem _).2 (.inr (.inl rfl))) (by show 2 ≤ view.membershipSize; omega)
      (fun _ => 0) _ ?_
    intro alert
    have hother : ∀ o, o ∈ [hostC, hostA, hostC] ↔
        o ∈ (freshMember view detector hostA).view.allNodes ∧ o ≠ hostB := by
      intro o
      have hAB : hostA ≠ hostB := by decide +kernel
      have hCB : hostC ≠ hostB := by decide +kernel
      rw [hmem]
      constructor
      · intro ho
        simp only [List.mem_cons, List.not_mem_nil, or_false] at ho
        rcases ho with rfl | rfl | rfl
        · exact ⟨.inr (.inr rfl), hCB⟩
        · exact ⟨.inl rfl, hAB⟩
        · exact ⟨.inr (.inr rfl), hCB⟩
      · rintro ⟨rfl | rfl | rfl, hne⟩
        · simp
        · exact absurd rfl hne
        · simp
    simp only [lossOfB, List.flatMap_map, List.mem_flatMap, hother]
    constructor
    · rintro ⟨o, ⟨ho, hne⟩, halert⟩
      exact ⟨o, ho, hne, halert⟩
    · rintro ⟨o, ho, hne, halert⟩
      exact ⟨o, ⟨ho, hne⟩, halert⟩
  · -- `hostBelow` joins, and `hostA` passes on what its observers say.
    refine hcut.2 hostBelow ?_ ⟨7, 7⟩ hunseen hostA ((hmem _).2 (.inl rfl)) (fun _ => true)
      (fun _ _ => rfl) endpointOrder default (fun _ => ServiceState.sampleEnvironment) (fun _ => 0)
      _ ?_
    · intro hin
      have hout : ¬ (hostBelow = hostA ∨ hostBelow = hostB ∨ hostBelow = hostC) := by
        decide +kernel
      exact hout ((hmem _).1 hin)
    · intro alert
      simp only [joinOfBelow, List.flatMap_cons, List.flatMap_nil, List.append_nil, List.mem_flatMap]
      rfl

end Sample

end Rapid
