import Rapid.Service.Configurations
import Rapid.Service.WelcomedJoiner
import Rapid.View.ObserverCache
import Rapid.Foundations.EpochLog

/-!
# OneDecision — one consensus instance for each configuration

The actor replaces its consensus instance with every decision, whether or not the decision changed
the view. As long as every decision does, the configurations of a run only increase: the actor
proposes at most once in each of them, and it decides at most once.
-/

namespace Rapid

open Foundations

section OneDecision

variable [Xxh64]

/-! ## The calls of a run and their configurations -/

def Effect.call? : Effect → Option Call
  | .call c => some c
  | _ => none

/-- The recorded calls, in order. -/
def calls (effects : List Effect) : List Call :=
  effects.filterMap Effect.call?

/-- A decision records the configuration that it may end. -/
def Call.configuration? : Call → Option Configuration
  | .decideViewChange state _ => some state.view.configuration
  | _ => none

/-- An announced proposal or an applied decision. -/
def Call.commits : Call → Prop
  | .propose _ => True
  | .decideViewChange _ _ => True
  | _ => False

/-- The calls of a trace that led to the state, each with the configuration the actor was in. -/
def historyOf (s : ServiceState) (trace : List Effect) : List (Configuration × Call) :=
  located Call.configuration? s.view.configuration (calls trace)

def ServiceRun.history (run : ServiceRun) : List (Configuration × Call) :=
  historyOf run.state run.trace

/-- What a later call must not do after an earlier one. -/
structure Apart (first second : Configuration × Call) : Prop where
  never : ∀ s proposal, second.2 = .decideViewChange s proposal →
    (s.appliedTo proposal).1.view.configuration ≠ first.1
  fresh : first.2.commits → second.2 = .newFastPaxos → first.1 ≠ second.1
  once : ∀ proposal proposal', first.2 = .propose proposal → second.2 = .propose proposal' →
    first.1 ≠ second.1

/-- Decisions lead to configurations never seen before, no instance is made anew for a configuration
with an announcement or a decision, and each configuration has at most one announcement. -/
structure OnePerConfiguration (history : List (Configuration × Call)) : Prop where
  leaves : ∀ c s proposal, (c, .decideViewChange s proposal) ∈ history →
    (s.appliedTo proposal).1.view.configuration ≠ c
  apart : history.Pairwise Apart

variable {s t : ServiceState} {env : Environment} {cmd : ServiceCommand} {effects more : List Effect}

omit [Xxh64] in
theorem calls_append : calls (effects ++ more) = calls effects ++ calls more :=
  List.filterMap_append

omit [Xxh64] in
theorem mem_calls {call : Call} : call ∈ calls effects ↔ .call call ∈ effects := by
  rw [calls, List.mem_filterMap]
  constructor
  · rintro ⟨e, he, heq⟩
    unfold Effect.call? at heq
    split at heq
    · cases heq
      exact he
    · cases heq
  · exact fun h => ⟨_, h, rfl⟩

omit [Xxh64] in
theorem calls_eq_nil (h : ∀ call, .call call ∉ effects) : calls effects = [] :=
  List.eq_nil_iff_forall_not_mem.2 fun call hcall => h call (mem_calls.1 hcall)

omit [Xxh64] in
theorem calls_silent (h : ∀ e ∈ effects, e.Silent) : calls effects = [] :=
  calls_eq_nil fun _ hcall => h _ hcall

omit [Xxh64] in
theorem calls_abort (timer : Option TimerId) : calls (timer.toList.map Effect.abortFallback) = [] := by
  cases timer with
  | none => rfl
  | some timer => rfl

/-! ## Moves and decisions -/

/-- A move announces at most one proposal, and then the actor stops running. -/
theorem Move.calls (h : Move env cmd s effects t) :
    (t.lifecycle = .running → s.lifecycle = .running) ∧
      (calls effects = [] ∨ calls effects = [.startClassicRound] ∨
        ∃ proposal, calls effects = [.propose proposal] ∧ s.lifecycle = .running ∧
          t.lifecycle ≠ .running) := by
  cases h with
  | calm hcalm =>
      refine ⟨fun hrunning => hcalm.quiet.lifecycle ▸ hrunning, .inl (calls_silent hcalm.silent)⟩
  | initialView reply => exact ⟨id, .inl rfl⟩
  | preJoin => exact ⟨id, .inl rfl⟩
  | join msg reply =>
      have hparks := s.handleJoin_parks env msg reply
      refine ⟨fun hrunning => hparks.lifecycle ▸ hrunning, .inl ?_⟩
      rcases hparks.effects with hnone | ⟨id, answer, hreply⟩
      · rw [hnone]
        rfl
      · rw [hreply]
        rfl
  | alerts msg =>
      refine ⟨?_, .inl (calls_silent (s.silent_handleBatchedAlerts msg))⟩
      intro hrunning
      rcases (s.handleBatchedAlerts_lifecycle env msg).1 with hsame | hannounced
      · exact hsame ▸ hrunning
      · rw [hannounced] at hrunning
        cases hrunning
  | announce msg fp broadcasts delay hproposal hfp hsilent hrunning =>
      -- A proposal is announced at most once between two decisions.
      have hannounced := ((s.handleBatchedAlerts_lifecycle env msg).2 hproposal).2
      refine ⟨fun _ => hrunning, .inr (.inr ⟨(s.handleBatchedAlerts env msg).2, ?_, hrunning, ?_⟩)⟩
      · simp only [calls_append, calls_silent (s.silent_handleBatchedAlerts msg),
          calls_silent hsilent, calls_abort]
        rfl
      · show (s.handleBatchedAlerts env msg).1.1.lifecycle ≠ .running
        rw [hannounced]
        exact fun hrunning => by cases hrunning
  | message => exact ⟨id, .inl rfl⟩
  | startClassic => exact ⟨id, .inr (.inl rfl)⟩
  | shutdown => exact ⟨fun hrunning => (by cases hrunning), .inl rfl⟩

theorem calls_decide (s : ServiceState) (env : Environment) (proposal : List Endpoint) :
    calls (s.decideAndReplace env proposal).2 =
      [.decideViewChange s proposal, .newFastPaxos, .newFastPaxos] := by
  have hsilent : ∀ e : Effect, e.Silent → e.call? = none := by
    intro e he
    cases e with
    | call call => exact he.elim
    | _ => rfl
  have hdecide := s.filterMap_decide (f := Effect.call?) env proposal hsilent fun _ _ => rfl
  have habort : (s.pendingFallback.toList.map Effect.abortFallback).filterMap Effect.call? = [] :=
    calls_abort s.pendingFallback
  rw [habort] at hdecide
  exact hdecide

/-! ## Histories only go up -/

/-- All calls were made in the current configuration or in an earlier one; what commits the actor to
a configuration is behind it, but for one announcement. -/
structure Ascends (history : List (Configuration × Call)) (s : ServiceState) : Prop where
  one : OnePerConfiguration history
  below : ∀ m ∈ history, m.1 ≤ s.view.configuration
  decided : ∀ c s' proposal, (c, .decideViewChange s' proposal) ∈ history →
    c < s.view.configuration
  waiting : s.lifecycle = .running → ∀ c proposal, (c, .propose proposal) ∈ history →
    c ≠ s.view.configuration

variable {history : List (Configuration × Call)} {proposal : List Endpoint}

theorem Ascends.quiet (h : Ascends history s) (hview : t.view.configuration = s.view.configuration)
    (hrunning : t.lifecycle = .running → s.lifecycle = .running) : Ascends history t where
  one := h.one
  below := by
    rw [hview]
    exact h.below
  decided := by
    rw [hview]
    exact h.decided
  waiting := by
    rw [hview]
    exact fun hrun => h.waiting (hrunning hrun)

/-- A call other than a decision. -/
theorem Ascends.call {call : Call} (h : Ascends history s)
    (hview : t.view.configuration = s.view.configuration)
    (hdecide : ∀ s' proposal, call ≠ .decideViewChange s' proposal)
    (hnew : call ≠ .newFastPaxos)
    (hpropose : ∀ proposal, call = .propose proposal →
      s.lifecycle = .running ∧ t.lifecycle ≠ .running)
    (hrunning : t.lifecycle = .running → s.lifecycle = .running) :
    Ascends (history ++ [(s.view.configuration, call)]) t := by
  have hother : ∀ {c : Configuration} {s' : ServiceState} {p : List Endpoint},
      (c, Call.decideViewChange s' p) ∈ history ++ [(s.view.configuration, call)] →
        (c, Call.decideViewChange s' p) ∈ history := by
    intro c s' p hmem
    rcases List.mem_append.1 hmem with hold | hlast
    · exact hold
    · exact absurd (Prod.mk.inj (List.mem_singleton.1 hlast)).2.symm (hdecide s' p)
  refine ⟨⟨fun c s' p hmem => h.one.leaves c s' p (hother hmem), ?_⟩, ?_,
    fun c s' p hmem => hview ▸ h.decided c s' p (hother hmem), ?_⟩
  · refine List.pairwise_append.2 ⟨h.one.apart, List.pairwise_singleton _ _, ?_⟩
    intro first hfirst second hsecond
    cases List.mem_singleton.1 hsecond
    refine ⟨fun s' p heq => absurd heq (hdecide s' p), fun _ heq => absurd heq hnew, ?_⟩
    -- A running actor has announced nothing in this configuration.
    intro p p' hp hp'
    have hmem : (first.1, Call.propose p) ∈ history := hp ▸ hfirst
    exact h.waiting (hpropose p' hp').1 first.1 p hmem
  · intro m hm
    rw [hview]
    rcases List.mem_append.1 hm with hold | hlast
    · exact h.below m hold
    · cases List.mem_singleton.1 hlast
      exact le_rfl
  · intro hrun c p hmem
    rw [hview]
    rcases List.mem_append.1 hmem with hold | hlast
    · exact h.waiting (hrunning hrun) c p hold
    · have hcall := (Prod.mk.inj (List.mem_singleton.1 hlast)).2
      exact absurd hrun (hpropose p hcall.symm).2

/-- An instance for another configuration, or one that follows no commitment. -/
theorem apart_newFastPaxos {first : Configuration × Call} {c : Configuration}
    (h : first.2.commits → first.1 ≠ c) : Apart first (c, .newFastPaxos) :=
  ⟨fun _ _ heq => (by cases heq), fun hcommits _ => h hcommits, fun _ _ _ heq => (by cases heq)⟩

/-- A decision that moves the actor on. -/
theorem Ascends.decide (h : Ascends history s)
    (hmoves : s.view.configuration < t.view.configuration)
    (hresult : (s.appliedTo proposal).1.view.configuration = t.view.configuration) :
    Ascends (history ++ [(s.view.configuration, .decideViewChange s proposal),
      (t.view.configuration, .newFastPaxos), (t.view.configuration, .newFastPaxos)]) t := by
  have hbefore : ∀ m ∈ history, m.1 < t.view.configuration :=
    fun m hm => (h.below m hm).trans_lt hmoves
  -- The decision is the last call of the old configuration.
  have hlast : ∀ m ∈ [(s.view.configuration, Call.decideViewChange s proposal),
      (t.view.configuration, .newFastPaxos), (t.view.configuration, .newFastPaxos)],
      m = (s.view.configuration, Call.decideViewChange s proposal) ∨
        m = (t.view.configuration, .newFastPaxos) := by
    simp
  refine ⟨⟨?_, ?_⟩, ?_, ?_, ?_⟩
  · intro c s' p hmem
    rcases List.mem_append.1 hmem with hold | hnew
    · exact h.one.leaves c s' p hold
    · rcases hlast _ hnew with heq | heq
      · cases heq
        rw [hresult]
        exact hmoves.ne'
      · cases heq
  · -- All earlier calls belong to configurations below the new one.
    refine List.pairwise_append.2 ⟨h.one.apart, ?_, ?_⟩
    · refine List.pairwise_cons.2 ⟨?_, List.pairwise_cons.2 ⟨?_, List.pairwise_singleton _ _⟩⟩
      · intro second hsecond
        have hnew : second = (t.view.configuration, .newFastPaxos) := by
          simpa using hsecond
        rw [hnew]
        exact apart_newFastPaxos fun _ => hmoves.ne
      · intro second hsecond
        rw [List.mem_singleton.1 hsecond]
        exact apart_newFastPaxos fun hcommits => hcommits.elim
    · intro first hfirst second hsecond
      have hearlier := hbefore first hfirst
      rcases hlast second hsecond with rfl | rfl
      · refine ⟨?_, fun _ heq => (by cases heq), fun _ _ _ heq => (by cases heq)⟩
        intro s' p heq
        cases heq
        rw [hresult]
        exact hearlier.ne'
      · exact apart_newFastPaxos fun _ => hearlier.ne
  · intro m hm
    rcases List.mem_append.1 hm with hold | hnew
    · exact (hbefore m hold).le
    · rcases hlast m hnew with rfl | rfl
      · exact hmoves.le
      · exact le_rfl
  · intro c s' p hmem
    rcases List.mem_append.1 hmem with hold | hnew
    · exact (h.decided c s' p hold).trans hmoves
    · rcases hlast _ hnew with heq | heq
      · cases heq
        exact hmoves
      · cases heq
  · intro _ c p hmem
    rcases List.mem_append.1 hmem with hold | hnew
    · exact (hbefore _ hold).ne
    · rcases hlast _ hnew with heq | heq
      · cases heq
      · cases heq

/-! ## Runs -/

omit [Xxh64] in
/-- The configuration stays: the new calls belong to it. -/
theorem historyOf_stay (trace : List Effect)
    (hview : t.view.configuration = s.view.configuration)
    (hcalls : ∀ call ∈ calls effects, call.configuration? = none) :
    historyOf t (trace ++ effects) =
      historyOf s trace ++ (calls effects).map fun call => (s.view.configuration, call) := by
  rw [historyOf, hview, calls_append, located_append, epochBefore_of_none hcalls,
    located_of_none hcalls, historyOf]

omit [Xxh64] in
theorem historyOf_decide (trace : List Effect)
    (hcalls : calls effects = [.decideViewChange s proposal, .newFastPaxos, .newFastPaxos]) :
    historyOf t (trace ++ effects) =
      historyOf s trace ++ [(s.view.configuration, .decideViewChange s proposal),
        (t.view.configuration, .newFastPaxos), (t.view.configuration, .newFastPaxos)] := by
  rw [historyOf, calls_append, located_append, hcalls]
  rfl

/-- Every decision among the effects changes the view. -/
def Effective (effects : List Effect) : Prop :=
  ∀ s proposal, .call (.decideViewChange s proposal) ∈ effects → ¬ s.Idle proposal

theorem ascends_move (hmove : Move env cmd s effects t) {trace : List Effect}
    (h : Ascends (historyOf s trace) s) : Ascends (historyOf t (trace ++ effects)) t := by
  -- A move stays in its configuration, so the new calls are logged under the same one.
  have hview := hmove.keeps.1.configuration
  rcases hmove.calls with ⟨hrunning, hnone | hclassic | ⟨p, hpropose, hrun, hstop⟩⟩
  · have hhistory := historyOf_stay trace hview fun call hcall => by
      rw [hnone] at hcall
      cases hcall
    rw [hhistory, hnone, List.map_nil, List.append_nil]
    exact h.quiet hview hrunning
  · have hhistory := historyOf_stay trace hview fun call hcall => by
      rw [hclassic] at hcall
      cases List.mem_singleton.1 hcall
      rfl
    rw [hhistory, hclassic]
    exact h.call hview (fun _ _ heq => by cases heq) (fun heq => by cases heq)
      (fun _ heq => by cases heq) hrunning
  · have hhistory := historyOf_stay trace hview fun call hcall => by
      rw [hpropose] at hcall
      cases List.mem_singleton.1 hcall
      rfl
    rw [hhistory, hpropose]
    exact h.call hview (fun _ _ heq => by cases heq) (fun heq => by cases heq)
      (fun _ _ => ⟨hrun, hstop⟩) hrunning

theorem ascends_boot {outcome : Outcome} (hboots : Boots outcome) :
    Ascends (historyOf outcome.1 outcome.2) outcome.1 := by
  rcases hboots.booted with ⟨_, _, _, _, _, _, _, _, _, _, hbooted⟩
  rcases hbooted.effects with ⟨rest, hsilent, heffects⟩
  -- Booting creates the first instance and calls nothing else.
  have hcalls : calls outcome.2 = [.newFastPaxos] := by
    rw [heffects]
    show Call.newFastPaxos :: calls rest = _
    rw [calls_silent hsilent]
  have hhistory : historyOf outcome.1 outcome.2 =
      [(outcome.1.view.configuration, .newFastPaxos)] := by
    rw [historyOf, hcalls]
    rfl
  rw [hhistory]
  refine ⟨⟨?_, List.pairwise_singleton _ _⟩, ?_, ?_, ?_⟩
  · intro c s proposal hmem
    cases List.mem_singleton.1 hmem
  · intro m hm
    cases List.mem_singleton.1 hm
    exact le_rfl
  · intro c s proposal hmem
    cases List.mem_singleton.1 hmem
  · intro _ c proposal hmem
    cases List.mem_singleton.1 hmem

theorem ascends_reaches {run : ServiceRun} (hrun : serviceSystem.Reachable run)
    (heffective : Effective run.trace) : Ascends run.history run.state := by
  have hguard : ∀ (run : ServiceRun) (a : Environment × ServiceCommand), True →
      ∀ e ∈ run.effects a.1 a.2, True := fun _ _ _ _ _ => trivial
  refine serviceSystem_invariant
    (I := fun _ s trace => Effective trace → Ascends (historyOf s trace) s)
    hguard ?_ ?_ ?_ ?_ hrun heffective
  · exact fun outcome hboots _ => ascends_boot hboots
  · exact fun _ _ _ h => h
  · intro _ env cmd s effects t trace _ h _ hmove heffective
    exact ascends_move hmove (h fun s' p hmem => heffective s' p (List.mem_append_left _ hmem))
  · intro _ env s proposal trace h _ heffective
    have hcalls := calls_decide s env proposal
    have hdecide := s.call_mem_decide env proposal
    have hmoves := (s.configuration_appliedTo proposal).1
      (heffective s proposal (List.mem_append_right _ hdecide))
    have hresult := s.configuration_decide proposal env
    rw [historyOf_decide trace hcalls]
    refine (h fun s' p hmem => heffective s' p (List.mem_append_left _ hmem)).decide ?_ hresult.symm
    rw [hresult]
    exact hmoves

/-- A decision that leaves the view as it is leads nowhere new. -/
theorem effective_of_onePerConfiguration {run : ServiceRun}
    (hone : OnePerConfiguration run.history) : Effective run.trace := by
  intro s proposal hmem hidle
  have hlocated : ∃ c, (c, .decideViewChange s proposal) ∈ run.history :=
    exists_located (mem_calls.2 hmem)
  rcases hlocated with ⟨c, hc⟩
  have hfound : c = s.view.configuration := located_ended hc rfl
  refine hone.leaves c s proposal hc ?_
  rw [(s.configuration_appliedTo proposal).2 hidle, hfound]

/-- A run has one announcement and one decision for each configuration exactly when none of its
decisions leaves the view as it is. -/
theorem onePerConfiguration_iff {run : ServiceRun} (hrun : serviceSystem.Reachable run) :
    OnePerConfiguration run.history ↔
      ∀ s proposal, .call (.decideViewChange s proposal) ∈ run.trace → ¬ s.Idle proposal :=
  ⟨effective_of_onePerConfiguration, fun heffective => (ascends_reaches hrun heffective).one⟩

end OneDecision

/-! ### A decision about an unknown joiner, and one that takes a member out -/

section Sample

attribute [local instance] xxh64Reference

def Call.announced? : Call → Option (List Endpoint)
  | .propose proposal => some proposal
  | _ => none

/-- What was announced, and in which configuration. -/
def announcements (history : List (Configuration × Call)) : List (Configuration × List Endpoint) :=
  history.filterMap fun m => m.2.announced?.map fun proposal => (m.1, proposal)

/-- The vote of `voter` in the second round of classic Paxos. -/
def sampleAccept (state : ServiceState) (voter : Endpoint) (proposal : List Endpoint) :
    RapidRequest :=
  ⟨some (.phase2bMessage
    { sender := some voter
      configurationId := state.configurationId.2
      rnd := some ⟨2, 7⟩
      endpoints := proposal })⟩

/-- The alerts about the joiner `hostBelow` were lost, but the others have decided to let it in. -/
def unknownJoinerRun : Option ServiceRun :=
  sampleRun 3 1 [⟨1, 1⟩] [hostA, hostB, hostC] fun state =>
    [.request (sampleAlerts state .down hostB none) 0,
      .request (sampleAccept state hostB [hostBelow]) 1,
      .request (sampleAccept state hostC [hostBelow]) 2,
      .request (sampleAlerts state .down hostB none) 3]

theorem unknownJoinerRun_facts :
    (unknownJoinerRun.map fun run =>
      ((run.trace.filterMap Effect.decision?).map fun d => (d.2, decide (d.1.Idle d.2)),
        (announcements run.history).map fun m =>
          (decide (m.1 = run.state.view.configuration), m.2))) =
      some ([([hostBelow], true)], [(true, [hostB]), (true, [hostB])]) := by
  decide +kernel

/-- The actor decides on a proposal that it cannot apply, stays in its configuration with a new
instance, and announces there a second time. -/
theorem unknownJoinerRun_repeats :
    ∃ run, unknownJoinerRun = some run ∧ serviceSystem.Reachable run ∧
      (∃ s, .call (.decideViewChange s [hostBelow]) ∈ run.trace ∧
        (s.appliedTo [hostBelow]).1.view.configuration = s.view.configuration) ∧
      (∃ c, announcements run.history = [(c, [hostB]), (c, [hostB])]) ∧
      ¬ OnePerConfiguration run.history := by
  rcases Option.map_eq_some_iff.1 unknownJoinerRun_facts with ⟨run, hrun, heq⟩
  rcases Prod.mk.inj heq with ⟨hdecisions, hannounced⟩
  rcases List.map_eq_singleton_iff.1 hdecisions with ⟨⟨s, proposal⟩, hd, hfacts⟩
  simp only [Prod.mk.injEq, decide_eq_true_eq] at hfacts
  rcases hfacts with ⟨rfl, hidle⟩
  have hcall : .call (.decideViewChange s [hostBelow]) ∈ run.trace := by
    rw [← mem_decisions, hd]
    exact List.mem_singleton_self _
  refine ⟨run, hrun, sampleRun_reachable hrun, ⟨s, hcall, ?_⟩,
    ⟨run.state.view.configuration, ?_⟩, fun hone => effective_of_onePerConfiguration hone s _ hcall hidle⟩
  · rw [(s.configuration_appliedTo [hostBelow]).2 hidle]
  · -- Both announcements are made in the configuration that the run ends in.
    rcases List.map_eq_cons_iff.1 hannounced with ⟨first, rest, hlist, hfirst, hrest⟩
    rcases List.map_eq_singleton_iff.1 hrest with ⟨second, rfl, hsecond⟩
    simp only [Prod.mk.injEq, decide_eq_true_eq] at hfirst hsecond
    have hfirst' : first = (run.state.view.configuration, [hostB]) := Prod.ext hfirst.1 hfirst.2
    have hsecond' : second = (run.state.view.configuration, [hostB]) :=
      Prod.ext hsecond.1 hsecond.2
    rw [hlist, hfirst', hsecond']

/-- All three members vote to take `hostB` out. -/
def memberLostRun : Option ServiceRun :=
  sampleRun 3 1 [⟨1, 1⟩] [hostA, hostB, hostC] fun state =>
    [.request (sampleAlerts state .down hostB none) 0,
      .request (sampleVote state hostA [hostB]) 1,
      .request (sampleVote state hostB [hostB]) 2,
      .request (sampleVote state hostC [hostB]) 3]

theorem memberLostRun_once :
    ∃ run, memberLostRun = some run ∧ (run.trace.filterMap Effect.decision?).length = 1 ∧
      OnePerConfiguration run.history := by
  have hfacts : (memberLostRun.map fun run =>
      ((run.trace.filterMap Effect.decision?).length,
        decide (∀ d ∈ run.trace.filterMap Effect.decision?, ¬ d.1.Idle d.2))) = some (1, true) := by
    decide +kernel
  rcases Option.map_eq_some_iff.1 hfacts with ⟨run, hrun, heq⟩
  simp only [Prod.mk.injEq, decide_eq_true_eq] at heq
  rcases heq with ⟨hlength, heffective⟩
  refine ⟨run, hrun, hlength, (onePerConfiguration_iff (sampleRun_reachable hrun)).2 ?_⟩
  intro s proposal hcall
  exact heffective (s, proposal) (mem_decisions.2 hcall)

end Sample

end Rapid
