import Rapid.Consensus.FastNetwork
import Rapid.Consensus.ClassicAgreement

/-!
# Validity — nothing is decided that nobody proposed

An instance only ever repeats values: a vote is proposed or copied from a `Phase2aMessage`, the
coordinator picks a reported vote that is not empty, and a decision is copied from a vote. So the
network may lose, delay, reorder and duplicate messages, and the instances may propose as often
as they like.
-/

namespace Rapid

open Foundations

/-! ## Values and where they come from -/

/-- The value that a classic proposal or vote carries. -/
def carriedValue (request : RapidRequest) : Option (List Endpoint) :=
  match request.content with
  | some (.phase2aMessage m) => some m.vval
  | some (.phase2bMessage m) => some m.endpoints
  | _ => none

section Sound

variable (proposed : List Endpoint → Prop)

/-- Every value in a message was proposed; a promise may also report that there was no vote. -/
structure RequestSound (request : RapidRequest) : Prop where
  classic : Carries proposed request
  fast : ∀ m, request.content = some (.fastRoundPhase2bMessage m) → proposed m.endpoints

/-- Every vote that a machine holds or has collected was proposed, or never cast. -/
structure Paxos.Sound (p : Paxos) : Prop where
  vval : p.vval = [] ∨ proposed p.vval
  promises : ∀ m ∈ p.phase1bMessages, m.vval = [] ∨ proposed m.vval

/-- An emission only carries proposed values. -/
def EmissionSound (e : PaxosOutgoing) : Prop :=
  (∀ m, e.message? = some m → RequestSound proposed m) ∧ ∀ v, e.decision? = some v → proposed v

variable {proposed} {proposed' : List Endpoint → Prop}

theorem RequestSound.mono (himp : ∀ v, proposed v → proposed' v) {request : RapidRequest}
    (h : RequestSound proposed request) : RequestSound proposed' request :=
  ⟨h.classic.mono himp, fun m hm => himp _ (h.fast m hm)⟩

theorem Paxos.Sound.mono (himp : ∀ v, proposed v → proposed' v) {p : Paxos}
    (h : p.Sound proposed) : p.Sound proposed' :=
  ⟨h.vval.imp_right (himp _), fun m hm => (h.promises m hm).imp_right (himp _)⟩

/-! ## One call -/

theorem EmissionSound.decision {v : List Endpoint} (hv : proposed v) :
    ∀ e ∈ [(.decision v : PaxosOutgoing)], EmissionSound proposed e := by
  intro e he
  cases List.mem_singleton.1 he
  refine ⟨fun m hm => (by cases hm), ?_⟩
  intro u hu
  cases hu
  exact hv

variable [Xxh64]

/-- A call of a classic machine keeps its votes sound and emits nothing else. -/
theorem Paxos.Sound.move {p p' : Paxos} {input : PaxosCommand ⊕ RapidRequest}
    {outs : List PaxosOutgoing} (hmove : Paxos.Move p input p' outs) (h : p.Sound proposed)
    (hcommand : ∀ v, input = .inl (.registerFastRoundVote v) → proposed v)
    (hmessage : ∀ m, input = .inr m → RequestSound proposed m) :
    p'.Sound proposed ∧ ∀ e ∈ outs, EmissionSound proposed e := by
  rcases values_of_move hmove h.vval h.promises hcommand
    (fun m hm => (hmessage m hm).classic) with ⟨hvval, hwire, hdecided⟩
  refine ⟨⟨hvval, ?_⟩, ?_⟩
  · intro m hm
    rcases collected_of_move hmove with hsame | ⟨m', rfl, hlonger⟩
    · exact h.promises m (hsame ▸ hm)
    · rw [hlonger] at hm
      rcases List.mem_append.1 hm with hold | hlast
      · exact h.promises m hold
      · cases List.mem_singleton.1 hlast
        exact (hmessage _ rfl).classic
  · intro e he
    refine ⟨?_, ?_⟩
    · intro m hm
      refine ⟨hwire e he m hm, ?_⟩
      -- A classic machine sends no fast votes.
      intro vote hvote
      have hclassic := isClassic_of_move hmove he hm
      rw [isClassic, hvote] at hclassic
      cases hclassic
    · intro v hv
      cases e with
      | decision u =>
          cases hv
          exact hdecided v he
      | broadcast m => cases hv
      | unicast target m => cases hv

/-- A call of a fast instance likewise. -/
theorem FastPaxos.Move.sound {p p' : FastPaxos} {input : FastCommand ⊕ RapidRequest}
    {outs : List PaxosOutgoing} (hmove : FastPaxos.Move p input p' outs)
    (h : p.paxos.Sound proposed)
    (hcommand : ∀ jitter v, input = .inl (.propose jitter v) → proposed v)
    (hmessage : ∀ m, input = .inr m → RequestSound proposed m) :
    p'.paxos.Sound proposed ∧ ∀ e ∈ outs, EmissionSound proposed e := by
  cases hmove with
  | idle => exact ⟨h, fun e he => (by cases he)⟩
  | propose jitter proposal =>
      have hproposal : proposed proposal := hcommand jitter proposal rfl
      -- The inner machine may record the vote; the broadcast goes out in any case.
      have hregister := h.move (p.paxos.registerFastRoundVote_move proposal)
        (fun v hv => by cases hv; exact hproposal) (fun m hm => by cases hm)
      refine ⟨hregister.1, ?_⟩
      intro e he
      cases List.mem_singleton.1 he
      refine ⟨?_, fun v hv => by cases hv⟩
      intro m hm
      cases hm
      exact ⟨trivial, fun m hm => by cases hm; exact hproposal⟩
  | startClassic _ =>
      exact h.move p.paxos.startPhase1a_move (fun v hv => by cases hv) (fun m hm => by cases hm)
  | classic m _ =>
      exact h.move (p.paxos.receive_move m) (fun v hv => by cases hv)
        (fun m' hm' => hmessage m' (by cases hm'; rfl))
  | count m sender _ _ => exact ⟨h, fun e he => (by cases he)⟩
  | decide m sender _ _ _ => exact ⟨h, .decision ((hmessage _ rfl).fast m rfl)⟩

end Sound

/-! ## All runs -/

section Network

variable [Xxh64] {N : Nat}

/-- `N` instances of one configuration that propose whatever and as often as they like. -/
def openFastNetwork (configurationId : Int64) (addr : Fin N → Endpoint)
    (delay : Fin N → Duration) :
    Protocol N Endpoint FastPaxos RapidRequest (List Endpoint) FastCommand :=
  { fastNetwork configurationId addr delay with enabled := fun _ _ _ => true }

/-- Some instance has passed the list to `propose`. -/
def WasProposed (issued : List (Fin N × FastCommand)) (v : List Endpoint) : Prop :=
  ∃ i jitter, (i, FastCommand.propose jitter v) ∈ issued

omit [Xxh64] in
theorem WasProposed.mono {issued issued' : List (Fin N × FastCommand)} (hsub : issued ⊆ issued')
    (v : List Endpoint) (h : WasProposed issued v) : WasProposed issued' v := by
  rcases h with ⟨i, jitter, hmem⟩
  exact ⟨i, jitter, hsub hmem⟩

variable (configurationId : Int64) (addr : Fin N → Endpoint) (delay : Fin N → Duration)

/-- The values at every place of the system are proposed ones. -/
def proposedValues : Protocol.Local (openFastNetwork configurationId addr delay) where
  node issued p := p.paxos.Sound (WasProposed issued)
  message issued m := RequestSound (WasProposed issued) m
  decision issued v := WasProposed issued v
  node_mono hsub h := h.mono (WasProposed.mono hsub)
  message_mono hsub h := h.mono (WasProposed.mono hsub)
  decision_mono hsub h := h.mono hsub
  boot _ := ⟨.inl rfl, fun m hm => (by cases hm)⟩
  react {issued i s input} h hcommand hmessage := by
    have hmove : FastPaxos.Move s input
        ((openFastNetwork configurationId addr delay).react s input).1
        ((openFastNetwork configurationId addr delay).react s input).2 := by
      cases input with
      | inl c => exact s.run_move c
      | inr m => exact s.handleConsensusMessage_move m
    exact hmove.sound h (fun jitter v hv => ⟨i, jitter, hcommand _ hv⟩) hmessage

/-- In every run, all decisions and all values in classic proposals and votes were proposed. -/
theorem fastPaxos_valid {w : FastWorld N}
    (h : (openFastNetwork configurationId addr delay).duplicating.Reachable w) :
    (∀ d ∈ w.decisions, WasProposed w.issued d.2) ∧
      (∀ m ∈ w.sent, ∀ v, carriedValue m = some v → WasProposed w.issued v) ∧
      ((∀ v, WasProposed w.issued v → v ≠ []) → ∀ d ∈ w.decisions, d.2 ≠ []) := by
  have hvalues : (proposedValues configurationId addr delay).Holds w := Protocol.Local.reaches _ h
  refine ⟨hvalues.decisions, ?_, ?_⟩
  · intro m hm v hv
    have hsound : Carries (WasProposed w.issued) m := (hvalues.sent m hm).classic
    obtain ⟨content⟩ := m
    cases content with
    | none => cases hv
    | some content =>
        cases content with
        | phase2aMessage m =>
            cases hv
            exact hsound
        | phase2bMessage m =>
            cases hv
            exact hsound
        | _ => cases hv
  · intro hne d hd
    exact hne d.2 (hvalues.decisions d hd)

end Network

/-! ### A run in which a vote is delivered twice -/

section Run

attribute [local instance] xxh64Reference

def pairAddr : Fin 2 → Endpoint :=
  fun i => ⟨[97], Int32.ofNat i⟩

def pairFast (a : Fin 2) (v : List Endpoint) : RapidRequest :=
  ⟨some (.fastRoundPhase2bMessage ⟨some (pairAddr a), 7, v⟩)⟩

/-- Instance 1 changes its mind; its first vote arrives twice and its second one too late. -/
def repeatingRun : List (NetAction 2 RapidRequest FastCommand) :=
  [.command 1 .startClassicRound, .command 0 (.propose 0 [⟨[98], 1⟩]),
    .command 1 (.propose 0 [⟨[98], 1⟩]), .command 1 (.propose 0 [⟨[98], 2⟩]),
    .deliver 0 (pairFast 1 [⟨[98], 1⟩]), .deliver 0 (pairFast 1 [⟨[98], 1⟩]),
    .deliver 0 (pairFast 1 [⟨[98], 2⟩]), .deliver 0 (pairFast 0 [⟨[98], 1⟩])]

theorem repeatingRun_valid :
    ∃ w, (openFastNetwork 7 pairAddr fun _ => 0).duplicating.Reachable w ∧
      w.decisions = [(0, [⟨[98], 1⟩])] ∧ (∀ d ∈ w.decisions, WasProposed w.issued d.2) := by
  have hdecisions : ((openFastNetwork 7 pairAddr fun _ => 0).duplicating.exec
      (openFastNetwork 7 pairAddr fun _ => 0).initial repeatingRun).map World.decisions =
        some [(0, [⟨[98], 1⟩])] := by
    decide +kernel
  rcases Option.map_eq_some_iff.1 hdecisions with ⟨w, hrun, hdec⟩
  have hreach : (openFastNetwork 7 pairAddr fun _ => 0).duplicating.Reachable w :=
    System.Reaches.exec (.start rfl) hrun
  exact ⟨w, hreach, hdec, (fastPaxos_valid 7 pairAddr (fun _ => 0) hreach).1⟩

end Run

end Rapid
