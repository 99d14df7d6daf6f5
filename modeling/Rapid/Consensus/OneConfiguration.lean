import Rapid.Consensus.Validity

/-!
# OneConfiguration — an instance lives in one configuration

Every consensus message carries a configuration id. An instance puts its own id on all that it
sends, and a message with another id leaves its votes alone. So values do not travel from one
configuration to another, whatever the network does.
-/

namespace Rapid

open Foundations

/-! ## The configuration of a message -/

def RapidRequest.Content.consensusId? : RapidRequest.Content → Option Int64
  | .fastRoundPhase2bMessage msg => some msg.configurationId
  | .phase1aMessage msg => some msg.configurationId
  | .phase1bMessage msg => some msg.configurationId
  | .phase2aMessage msg => some msg.configurationId
  | .phase2bMessage msg => some msg.configurationId
  | _ => none

/-- The configuration that a consensus message is for. -/
def RapidRequest.consensusId? (request : RapidRequest) : Option Int64 :=
  request.content.bind RapidRequest.Content.consensusId?

/-- A message without one is not for the instance. -/
theorem FastPaxos.handleConsensusMessage_of_none {fp : FastPaxos} {request : RapidRequest}
    (h : request.consensusId? = none) : fp.handleConsensusMessage request = (fp, []) := by
  obtain ⟨content⟩ := request
  cases content with
  | none => rfl
  | some content =>
      cases content with
      | preJoinMessage msg => rfl
      | joinMessage msg => rfl
      | batchedAlertMessage msg => rfl
      | probeMessage msg => rfl
      | leaveMessage msg => rfl
      | _ => cases h

/-- The values in a message are allowed in the configuration of the message. -/
def RequestAllowed (allowed : Int64 → List Endpoint → Prop) (request : RapidRequest) : Prop :=
  ∀ c, request.consensusId? = some c → RequestSound (allowed c) request

theorem RequestAllowed.mono {allowed allowed' : Int64 → List Endpoint → Prop}
    (himp : ∀ c v, allowed c v → allowed' c v) {request : RapidRequest}
    (h : RequestAllowed allowed request) : RequestAllowed allowed' request :=
  fun c hc => (h c hc).mono (himp c)

/-- The instance and the machine inside work for this configuration. -/
structure FastPaxos.For (configurationId : Int64) (p : FastPaxos) : Prop where
  fast : p.configurationId = configurationId
  classic : p.paxos.configurationId = configurationId

theorem FastPaxos.for_new (addr : Endpoint) (configurationId : Int64) (n : Nat) (delay : Duration) :
    (FastPaxos.new addr configurationId n delay).For configurationId :=
  ⟨rfl, rfl⟩

theorem Paxos.sound_new {proposed : List Endpoint → Prop} (addr : Endpoint) (configurationId : Int64)
    (n : Nat) : (Paxos.new addr configurationId n).Sound proposed :=
  ⟨.inl rfl, fun m hm => by cases hm⟩

variable [Xxh64] {configurationId : Int64}

/-! ## One call -/

/-- A machine keeps its configuration and stamps what it sends with it. -/
theorem Paxos.Move.stamps {p p' : Paxos} {input : PaxosCommand ⊕ RapidRequest}
    {outs : List PaxosOutgoing} (h : Paxos.Move p input p' outs) :
    p'.configurationId = p.configurationId ∧
      ∀ e ∈ outs, ∀ m, e.message? = some m → m.consensusId? = some p.configurationId := by
  have hone : ∀ {e : PaxosOutgoing} {r : RapidRequest}, e.message? = some r →
      r.consensusId? = some p.configurationId →
        ∀ e' ∈ [e], ∀ m, e'.message? = some m → m.consensusId? = some p.configurationId := by
    intro e r hr hid e' he' m hm
    cases List.mem_singleton.1 he'
    rw [hr] at hm
    cases hm
    exact hid
  cases h with
  | idle => exact ⟨rfl, fun e he => by cases he⟩
  | register => exact ⟨rfl, fun e he => by cases he⟩
  | prepare => exact ⟨rfl, hone rfl rfl⟩
  | promiseSilent => exact ⟨rfl, fun e he => by cases he⟩
  | promise => exact ⟨rfl, hone rfl rfl⟩
  | collect => exact ⟨rfl, fun e he => by cases he⟩
  | propose => exact ⟨rfl, hone rfl rfl⟩
  | accept => exact ⟨rfl, hone rfl rfl⟩
  | learn => exact ⟨rfl, fun e he => by cases he⟩
  | decide =>
      refine ⟨rfl, fun e he m hm => ?_⟩
      cases List.mem_singleton.1 he
      cases hm

omit [Xxh64] in
/-- A machine does nothing with a message of another configuration. -/
theorem Paxos.receive_foreign (p : Paxos) {request : RapidRequest} {c : Int64}
    (hid : request.consensusId? = some c) (hne : c ≠ p.configurationId) :
    p.receive request = (p, []) := by
  obtain ⟨content⟩ := request
  cases content with
  | none => rfl
  | some content =>
      cases content with
      | phase1aMessage msg =>
          cases hid
          exact if_pos hne
      | phase1bMessage msg =>
          cases hid
          exact if_pos hne
      | phase2aMessage msg =>
          cases hid
          exact if_pos hne
      | phase2bMessage msg =>
          cases hid
          exact if_pos (.inl hne)
      | _ => rfl

namespace FastPaxos

variable {p p' : FastPaxos} {outs : List PaxosOutgoing}

/-- An instance keeps its configuration and stamps what it sends with it. -/
theorem Move.stamps {input : FastCommand ⊕ RapidRequest} (h : Move p input p' outs)
    (hfor : p.For configurationId) :
    p'.For configurationId ∧
      ∀ e ∈ outs, ∀ m, e.message? = some m → m.consensusId? = some configurationId := by
  have hclassic : ∀ {input q outs}, Paxos.Move p.paxos input q outs →
      q.configurationId = configurationId ∧
        ∀ e ∈ outs, ∀ m, e.message? = some m → m.consensusId? = some configurationId := by
    intro input q outs hmove
    have hstamps := hmove.stamps
    rw [hfor.classic] at hstamps
    exact hstamps
  cases h with
  | idle => exact ⟨hfor, fun e he => by cases he⟩
  | propose jitter proposal =>
      refine ⟨⟨hfor.fast, (hclassic (p.paxos.registerFastRoundVote_move proposal)).1⟩, ?_⟩
      intro e he m hm
      cases List.mem_singleton.1 he
      cases hm
      exact congrArg some hfor.fast
  | startClassic _ =>
      have hmove := hclassic p.paxos.startPhase1a_move
      exact ⟨⟨hfor.fast, hmove.1⟩, hmove.2⟩
  | classic m _ =>
      have hmove := hclassic (p.paxos.receive_move m)
      exact ⟨⟨hfor.fast, hmove.1⟩, hmove.2⟩
  | count m sender _ _ => exact ⟨⟨hfor.fast, hfor.classic⟩, fun e he => by cases he⟩
  | decide m sender _ _ _ =>
      refine ⟨⟨hfor.fast, hfor.classic⟩, ?_⟩
      intro e he m hm
      cases List.mem_singleton.1 he
      cases hm

omit [Xxh64] in
/-- A message of another configuration leaves the votes of an instance alone. -/
theorem foreign_silent {request : RapidRequest} {c : Int64} (hfor : p.For configurationId)
    (hid : request.consensusId? = some c) (hne : c ≠ configurationId) :
    (p.handleConsensusMessage request).1.paxos = p.paxos ∧
      (p.handleConsensusMessage request).1.configurationId = p.configurationId ∧
      (p.handleConsensusMessage request).2 = [] := by
  have hclassic : (p.afterClassic (p.paxos.receive request)).1.paxos = p.paxos ∧
      (p.afterClassic (p.paxos.receive request)).1.configurationId = p.configurationId ∧
      (p.afterClassic (p.paxos.receive request)).2 = [] := by
    rw [p.paxos.receive_foreign hid (hfor.classic ▸ hne)]
    exact ⟨rfl, rfl, rfl⟩
  obtain ⟨content⟩ := request
  cases content with
  | none => exact ⟨rfl, rfl, rfl⟩
  | some content =>
      cases content with
      | phase1aMessage msg => exact hclassic
      | phase1bMessage msg => exact hclassic
      | phase2aMessage msg => exact hclassic
      | phase2bMessage msg => exact hclassic
      | fastRoundPhase2bMessage msg =>
          cases hid
          have hignored : p.handleConsensusMessage ⟨some (.fastRoundPhase2bMessage msg)⟩ = (p, []) :=
            if_pos (.inl (hfor.fast ▸ hne))
          rw [hignored]
          exact ⟨rfl, rfl, rfl⟩
      | _ => exact ⟨rfl, rfl, rfl⟩

/-- What the votes and the emissions of an instance may be, in its configuration. -/
structure Within (allowed : Int64 → List Endpoint → Prop) (configurationId : Int64) (p : FastPaxos) :
    Prop where
  config : p.For configurationId
  sound : p.paxos.Sound (allowed configurationId)

/-- An output that only hands on allowed values. -/
structure OutputWithin (allowed : Int64 → List Endpoint → Prop) (configurationId : Int64)
    (out : FastOutgoing) : Prop where
  message : ∀ e, out.emission? = some e → ∀ m, e.message? = some m → RequestAllowed allowed m
  decision : ∀ v, out = .decision v → allowed configurationId v

variable {allowed allowed' : Int64 → List Endpoint → Prop}

omit [Xxh64] in
theorem Within.mono (himp : ∀ c v, allowed c v → allowed' c v) (h : p.Within allowed configurationId) :
    p.Within allowed' configurationId :=
  ⟨h.config, h.sound.mono (himp configurationId)⟩

omit [Xxh64] in
/-- Sound emissions that carry the id of the configuration are outputs within it. -/
theorem outputs_within {outs : List FastOutgoing}
    (hsound : ∀ e ∈ outs.filterMap FastOutgoing.emission?, EmissionSound (allowed configurationId) e)
    (hstamps : ∀ e ∈ outs.filterMap FastOutgoing.emission?, ∀ m, e.message? = some m →
      m.consensusId? = some configurationId) :
    ∀ out ∈ outs, OutputWithin allowed configurationId out := by
  intro out hout
  have hmem : ∀ e, out.emission? = some e → e ∈ outs.filterMap FastOutgoing.emission? :=
    fun e he => List.mem_filterMap.2 ⟨out, hout, he⟩
  refine ⟨?_, ?_⟩
  · intro e he m hm c hc
    rw [hstamps e (hmem e he) m hm] at hc
    cases hc
    exact (hsound e (hmem e he)).1 m hm
  · rintro v rfl
    exact (hsound (.decision v) (hmem _ rfl)).2 v rfl

/-- A call of an instance stays within its configuration. -/
theorem Within.call (h : p.Within allowed configurationId) (input : FastCommand ⊕ RapidRequest)
    {r : FastPaxos × List FastOutgoing}
    (hmove : Move p input (visible r).1 (visible r).2)
    (hcommand : ∀ jitter v, input = .inl (.propose jitter v) → allowed configurationId v)
    (hmessage : ∀ m, input = .inr m → RequestSound (allowed configurationId) m) :
    r.1.Within allowed configurationId ∧ ∀ out ∈ r.2, OutputWithin allowed configurationId out := by
  have hsound := hmove.sound h.sound hcommand hmessage
  have hstamps := hmove.stamps h.config
  exact ⟨⟨hstamps.1, hsound.1⟩, outputs_within hsound.2 hstamps.2⟩

theorem Within.propose (h : p.Within allowed configurationId) (jitter : Duration)
    {proposal : List Endpoint} (hproposal : allowed configurationId proposal) :
    (p.propose jitter proposal).1.Within allowed configurationId ∧
      ∀ out ∈ (p.propose jitter proposal).2, OutputWithin allowed configurationId out :=
  h.call (.inl (.propose jitter proposal)) (p.run_move (.propose jitter proposal))
    (fun _ _ heq => by cases heq; exact hproposal) (fun m hm => by cases hm)

theorem Within.startClassicRound (h : p.Within allowed configurationId) :
    p.startClassicRound.1.Within allowed configurationId ∧
      ∀ out ∈ p.startClassicRound.2, OutputWithin allowed configurationId out :=
  h.call (.inl .startClassicRound) (p.run_move .startClassicRound)
    (fun _ _ heq => by cases heq) (fun m hm => by cases hm)

/-- Any consensus message may arrive, of this configuration or of another one. -/
theorem Within.handleConsensusMessage (h : p.Within allowed configurationId) {request : RapidRequest}
    (hrequest : RequestAllowed allowed request) :
    (p.handleConsensusMessage request).1.Within allowed configurationId ∧
      ∀ out ∈ (p.handleConsensusMessage request).2, OutputWithin allowed configurationId out := by
  have hmine : RequestSound (allowed configurationId) request →
      (p.handleConsensusMessage request).1.Within allowed configurationId ∧
        ∀ out ∈ (p.handleConsensusMessage request).2, OutputWithin allowed configurationId out :=
    fun hsound => h.call (.inr request) (p.handleConsensusMessage_move request)
      (fun _ _ heq => by cases heq) (fun m hm => by cases hm; exact hsound)
  cases hid : request.consensusId? with
  | some c =>
      by_cases hc : c = configurationId
      · exact hmine (hrequest configurationId (hid.trans (congrArg some hc)))
      · rcases foreign_silent h.config hid hc with ⟨hpaxos, hconfig, houts⟩
        refine ⟨⟨⟨hconfig.trans h.config.fast, ?_⟩, ?_⟩, ?_⟩
        · rw [hpaxos]
          exact h.config.classic
        · rw [hpaxos]
          exact h.sound
        · rw [houts]
          exact fun out hout => by cases hout
  | none =>
      -- No value travels in a request that is no consensus message.
      refine hmine ?_
      obtain ⟨content⟩ := request
      cases content with
      | none => exact ⟨trivial, fun m hm => by cases hm⟩
      | some content =>
          cases content with
          | preJoinMessage msg => exact ⟨trivial, fun m hm => by cases hm⟩
          | joinMessage msg => exact ⟨trivial, fun m hm => by cases hm⟩
          | batchedAlertMessage msg => exact ⟨trivial, fun m hm => by cases hm⟩
          | probeMessage msg => exact ⟨trivial, fun m hm => by cases hm⟩
          | leaveMessage msg => exact ⟨trivial, fun m hm => by cases hm⟩
          | _ => cases hid

end FastPaxos

end Rapid
