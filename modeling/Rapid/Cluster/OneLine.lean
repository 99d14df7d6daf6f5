import Rapid.Cluster.Agreement
import Rapid.Service.ApplyAgreement
import Mathlib.Logic.Relation

/-!
# OneLine — the members of a cluster go through the same configurations

Members that decide in one configuration decide the same cut. If they also know the joiners of the cut
by the same identifiers, they go on to the same configuration. So the configurations of a cluster form
one line, and of two actors that have been in one configuration, one is merely behind the other
(`one_line`).
-/

namespace Rapid

open Foundations Swarm

section OneLine

variable [Xxh64] {ι : Type*} {w : Cluster ι} {run old : ServiceRun}
  {a b : Environment × ServiceCommand} {v : List Endpoint}

/-! ## Steady runs -/

/-- Two actors in one configuration know it, and the joiners in the cut, alike. -/
@[mk_iff]
structure Alike (run old : ServiceRun) (v : List Endpoint) : Prop where
  k : old.state.view.k = run.state.view.k
  configuration : old.state.view.configuration = run.state.view.configuration
  joiners : ∀ y ∈ v, old.state.joinerUuid.lookup y = run.state.joinerUuid.lookup y

/-- What a run has to keep to while an actor decides. -/
@[mk_iff]
structure SteadyDecision (w : Cluster ι) (run : ServiceRun) (a : Environment × ServiceCommand)
    (v : List Endpoint) : Prop where
  /-- The decision is that of the consensus instance. -/
  consults : a.2.consults = true
  /-- Hashes do not collide. -/
  free : CollisionFree run.state.view.k (run.state.view.allNodes ∪ v.toFinset)
  indices : (run.state.memberlist.map stableNodeIndex).Nodup
  alike : ∀ e ∈ w.past, e.state.configurationId = run.configurationId →
    e.state.decisions e.input ≠ [] → Alike run e.state v

def Steady (w : Cluster ι) : ClusterStep ι → Prop
  | .boot i launch => Regular w (.boot i launch) ∧
      ∀ run ∈ actors.boot launch, CollisionFree run.state.view.k run.state.view.allNodes
  | .act i a => Regular w (.act i a) ∧
      ∀ run ∈ w.party i, ∀ v ∈ run.decisions a, SteadyDecision w run a v

theorem Steady.regular {l : ClusterStep ι} (h : Steady w l) : Regular w l := by
  cases l with
  | boot i launch => exact h.1
  | act i a => exact h.1

/-! ## What a decision leads to -/

/-- The actor applies the cut that its instance decides. -/
theorem next_of_decides (hrun : serviceSystem.Reachable run) (h : run.Decides a v) :
    ∃ fp, (run.next a.1 a.2).state =
      (({ run.state with fastPaxos := some fp } : ServiceState).decideAndReplace a.1 v).1 := by
  rcases mem_run_decisions.1 h.1 with ⟨u, hcall⟩
  rcases turn_next hrun a with ⟨fp, _, hturn⟩
  cases hturn with
  | uninvolved hidle => exact absurd hcall (hidle.undecided u v)
  | announced msg reply hcmd hproposal hview hbefore hafter hinstance hsent hcalls =>
      rw [hcalls] at hcall
      cases List.mem_singleton.1 hcall
  | answered called r hcalled hsends hstate hsent hcalls =>
      rw [hcalls] at hcall
      exact absurd hcall (hcalled.undecided u v)
  | decided called r proposal hcalled houts hstate hsent hcalls =>
      rw [hcalls] at hcall
      rcases List.mem_append.1 hcall with hold | hnew
      · exact absurd hold (hcalled.undecided u v)
      · simp only [List.mem_cons, List.not_mem_nil, or_false, reduceCtorEq] at hnew
        cases hnew
        exact ⟨r.1, hstate⟩
  | injected proposal reply hcmd => exact absurd hcmd (h.2 proposal reply)

/-- The view after a decision is valid, and shows what the loop over the cut has made. -/
theorem view_of_decides (hrun : serviceSystem.Reachable run) (hvalid : run.state.view.Valid)
    (h : run.Decides a v) (hfree : CollisionFree run.state.view.k (run.state.view.allNodes ∪ v.toFinset)) :
    ∃ s : ServiceState, s.view = run.state.view ∧ s.joinerUuid = run.state.joinerUuid ∧
      (s.appliedTo v).1.view.Valid ∧ (s.appliedTo v).1.view.k = run.state.view.k ∧
        (s.appliedTo v).1.view.Keeps (run.next a.1 a.2).state.view := by
  rcases next_of_decides hrun h with ⟨fp, hnext⟩
  have happlied := ServiceState.applied_valid (s := { run.state with fastPaxos := some fp }) hvalid hfree
  have hview := (ServiceState.decideViewChange_decided { run.state with fastPaxos := some fp } a.1 v).view
  refine ⟨{ run.state with fastPaxos := some fp }, rfl, rfl, happlied.1, happlied.2, ?_⟩
  rw [hnext]
  exact hview.keeps

omit [Xxh64] in
theorem MembershipView.SameSets.of_configuration {v w : MembershipView} (hk : w.k = v.k)
    (h : w.configuration = v.configuration) : v.SameSets w := by
  rcases MembershipView.configuration_eq_iff.1 h with ⟨hkeys, hnodes⟩
  refine ⟨hk, ?_, hnodes⟩
  intro id
  rw [Bool.eq_iff_iff, MembershipView.isIdentifierPresent_iff, MembershipView.isIdentifierPresent_iff,
    ← List.mem_toFinset, hkeys, List.mem_toFinset]

/-- The same cut leads to the same configuration. -/
theorem configurationId_of_alike (hrun : serviceSystem.Reachable run)
    (hold : serviceSystem.Reachable old) (hvalid : run.state.view.Valid)
    (hvalid' : old.state.view.Valid) (hv : run.Decides a v) (hv' : old.Decides b v)
    (hfree : CollisionFree run.state.view.k (run.state.view.allNodes ∪ v.toFinset))
    (halike : Alike run old v) :
    (old.next b.1 b.2).configurationId = (run.next a.1 a.2).configurationId := by
  have hsame : run.state.view.SameSets old.state.view := .of_configuration halike.k halike.configuration
  have hfree' : CollisionFree old.state.view.k (old.state.view.allNodes ∪ v.toFinset) := by
    rw [hsame.k, hsame.allNodes]
    exact hfree
  rcases view_of_decides hrun hvalid hv hfree with ⟨s, hs, huuid, happlied, hk, hkeeps⟩
  rcases view_of_decides hold hvalid' hv' hfree' with ⟨s', hs', huuid', happlied', hk', hkeeps'⟩
  have hsame' : s.view.SameSets s'.view := by
    rw [hs, hs']
    exact hsame
  -- The cut is applied to the same members, and each of its joiners enters under the same identifier.
  have hjoiners : s.SameJoiners s' v := by
    refine .of_lookup hsame' fun y hy => ?_
    rw [huuid, huuid']
    exact halike.joiners y hy
  have hsets : (s.appliedTo v).1.view.SameSets (s'.appliedTo v).1.view := by
    refine (ServiceState.sameSets_applied_iff ?_ ?_ hsame' ?_).2 hjoiners
    · exact hs ▸ hvalid
    · exact hs' ▸ hvalid'
    · exact hs ▸ hfree
  have hagree := (happlied.agree_iff happlied' (hk'.trans (hsame.k.trans hk.symm))).2 hsets
  calc (old.next b.1 b.2).configurationId
      = (s'.appliedTo v).1.view.currentConfigurationId.2 := hkeeps'.configurationId
    _ = (s.appliedTo v).1.view.currentConfigurationId.2 := hagree.configurationId
    _ = (run.next a.1 a.2).configurationId := hkeeps.configurationId.symm

/-! ## Whole runs -/

section Runs

variable [DecidableEq ι]

theorem regular_of_steady (hw : (clusterSystem ι).Reaches Steady w) :
    (clusterSystem ι).Reaches Regular w :=
  hw.mono fun _ _ h => h.regular

/-- In a steady run all views are valid. -/
theorem valid_of_seen (hw : (clusterSystem ι).Reaches Steady w) :
    ∀ run, Seen w run → run.state.view.Valid := by
  refine hw.invariant (I := fun w => ∀ run, Seen w run → run.state.view.Valid) ?_ ?_
  · intro w hw
    rw [show w = ⟨fun _ => none, [], []⟩ from hw]
    rintro run (⟨e, he, _⟩ | ⟨i, hi⟩)
    · cases he
    · cases hi
  · intro w l w' hw h hok hstep
    rcases step_labels hstep with ⟨i, launch, run, rfl, hnone, hboot, rfl⟩ |
      ⟨i, run, a, run', rfl, hi, _, hact, rfl⟩
    · intro new hnew
      rcases (seen_bootParty hnone).1 hnew with rfl | hseen
      · have hfree := hok.2 new hboot
        rcases boot_spec hboot with ⟨outcome, hboots, rfl⟩
        rcases hboots.booted with ⟨k, identifiers, endpoints, view, _, _, _, _, hview, _, hbooted⟩
        rcases MembershipView.bootstrap_holds hview with ⟨hk, hnodes, _⟩
        have hshows := hbooted.view.shows
        rw [hshows.k, hshows.allNodes, hk, hnodes] at hfree
        exact hbooted.view.valid (MembershipView.Valid.of_bootstrap hview hfree).1
      · exact h new hseen
    · have hseen : Seen w run := .inr ⟨i, hi⟩
      have hrun := reachable_of_seen hw hseen
      intro new hnew
      rcases (seen_record hi).1 hnew with rfl | hseen'
      · rw [act_spec hact]
        rcases stays_or_decides hrun a with hkeeps | ⟨hdecides, _⟩
        · exact hkeeps.valid (h run hseen)
        · rcases List.exists_mem_of_ne_nil _ hdecides with ⟨v, hv⟩
          have hsteady := hok.2 run hi v hv
          rcases view_of_decides hrun (h run hseen) (.of_consults hv hsteady.consults) hsteady.free
            with ⟨_, _, _, happlied, _, hkeeps⟩
          exact hkeeps.valid happlied
      · exact h new hseen'

/-- An actor went from one configuration to the other by a decision. -/
def Follows (past : List (Handled ι)) (c c' : ConfigurationId) : Prop :=
  ∃ e ∈ past, e.state.configurationId = c ∧ e.state.decisions e.input ≠ [] ∧
    (e.state.next e.input.1 e.input.2).configurationId = c'

omit [DecidableEq ι] in
theorem Follows.mono {past past' : List (Handled ι)} (hsub : past ⊆ past') {c c' : ConfigurationId}
    (h : Follows past c c') : Follows past' c c' := by
  rcases h with ⟨e, he, hrest⟩
  exact ⟨e, hsub he, hrest⟩

theorem decides_of_past (hw : (clusterSystem ι).Reaches Steady w) {e : Handled ι} (he : e ∈ w.past)
    (hv : v ∈ e.state.decisions e.input) : e.state.Decides e.input v := by
  rcases taken_of_past hw e he with ⟨before, _, hok, hparty⟩
  exact .of_consults hv (hok.2 e.state hparty v hv).consults

/-- A decision leads to where an earlier one in its configuration has led. -/
theorem next_of_earlier (hw : (clusterSystem ι).Reaches Steady w) {i : ι}
    (hok : Steady w (.act i a)) (hi : w.party i = some run)
    (hlater : (clusterSystem ι).Reaches Steady (actors.record w i run a (run.next a.1 a.2)))
    (hdecides : run.decisions a ≠ []) {e : Handled ι} (he : e ∈ w.past)
    (hdecides' : e.state.decisions e.input ≠ [])
    (hsame : e.state.configurationId = run.configurationId) :
    (e.state.next e.input.1 e.input.2).configurationId = (run.next a.1 a.2).configurationId := by
  rcases List.exists_mem_of_ne_nil _ hdecides with ⟨v, hv⟩
  rcases List.exists_mem_of_ne_nil _ hdecides' with ⟨v', hv'⟩
  have hsteady := hok.2 run hi v hv
  have hseen : Seen w run := .inr ⟨i, hi⟩
  have hseen' : Seen w e.state := .inl ⟨e, he, rfl⟩
  have hdecided : run.Decides a v := .of_consults hv hsteady.consults
  have hdecided' := decides_of_past hw he hv'
  have hnow : (⟨i, run, a⟩ : Handled ι) ∈ (actors.record w i run a (run.next a.1 a.2)).past :=
    List.mem_append_right _ List.mem_cons_self
  have hagree : v = v' :=
    decisions_of_one (regular_of_steady hlater) (.inl ⟨_, hnow, rfl⟩) hsteady.indices hnow
      (List.mem_append_left _ he) rfl hsame hdecided hdecided'
  subst hagree
  exact configurationId_of_alike (reachable_of_seen hw hseen) (reachable_of_seen hw hseen')
    (valid_of_seen hw run hseen) (valid_of_seen hw e.state hseen') hdecided hdecided' hsteady.free
    (hsteady.alike e he hsame hdecides')

/-- Decisions of one configuration lead to one configuration. -/
theorem follows_unique (hw : (clusterSystem ι).Reaches Steady w) :
    Relator.RightUnique (Follows w.past) := by
  -- By induction over the run: a new decision meets the old ones, and which of two is new does not matter.
  have hpairs : ∀ e ∈ w.past, ∀ e' ∈ w.past, e.state.decisions e.input ≠ [] →
      e'.state.decisions e'.input ≠ [] → e.state.configurationId = e'.state.configurationId →
        (e.state.next e.input.1 e.input.2).configurationId =
          (e'.state.next e'.input.1 e'.input.2).configurationId := by
    induction hw with
    | start hinit =>
        rename_i w
        intro e he
        rw [show w = ⟨fun _ => none, [], []⟩ from hinit] at he
        cases he
    | step hw hok hstep ih =>
        have hafter := System.Reaches.step hw hok hstep
        rcases step_labels hstep with ⟨i, launch, run, rfl, _, _, rfl⟩ |
          ⟨i, run, a, run', rfl, hi, hwire, hact, rfl⟩
        · exact ih
        · cases act_spec hact
          intro e he e' he' hdecides hdecides' hsame
          rcases List.mem_append.1 he with hold | hnew
          · rcases List.mem_append.1 he' with hold' | hnew'
            · exact ih e hold e' hold' hdecides hdecides' hsame
            · cases List.mem_singleton.1 hnew'
              exact next_of_earlier hw hok hi hafter hdecides' hold hdecides hsame
          · cases List.mem_singleton.1 hnew
            rcases List.mem_append.1 he' with hold' | hnew'
            · exact (next_of_earlier hw hok hi hafter hdecides hold' hdecides' hsame.symm).symm
            · cases List.mem_singleton.1 hnew'
              rfl
  rintro c c₁ c₂ ⟨e, he, rfl, hdecides, rfl⟩ ⟨e', he', hsame, hdecides', rfl⟩
  exact hpairs e he e' he' hdecides hdecides' hsame.symm

/-- Every actor has come to where it is by decisions. -/
theorem follows_of_past (hw : (clusterSystem ι).Reaches Steady w) :
    ∀ e ∈ w.past, ∃ run, w.party e.party = some run ∧
      Relation.ReflTransGen (Follows w.past) e.state.configurationId run.configurationId := by
  refine hw.invariant (I := fun w => ∀ e ∈ w.past, ∃ run, w.party e.party = some run ∧
    Relation.ReflTransGen (Follows w.past) e.state.configurationId run.configurationId) ?_ ?_
  · intro w hw e he
    rw [show w = ⟨fun _ => none, [], []⟩ from hw] at he
    cases he
  · intro w l w' hw h _ hstep
    rcases step_labels hstep with ⟨i, launch, run, rfl, hnone, _, rfl⟩ |
      ⟨i, run, a, run', rfl, hi, hwire, hact, rfl⟩
    · intro e he
      rcases h e he with ⟨now, hnow, hline⟩
      -- Whoever has handled something was there before this start.
      have hne : e.party ≠ i := by
        intro heq
        rw [heq, hnone] at hnow
        cases hnow
      exact ⟨now, (Function.update_of_ne hne ..).trans hnow, hline⟩
    · cases act_spec hact
      have hsub : w.past ⊆ w.past ++ [⟨i, run, a⟩] := List.subset_append_left _ _
      -- The actor of this step stays in its configuration or takes a new link of the line.
      have hlast : Relation.ReflTransGen (Follows (w.past ++ [⟨i, run, a⟩])) run.configurationId
          (run.next a.1 a.2).configurationId := by
        rcases stays_or_decides (reachable_of_seen hw (.inr ⟨i, hi⟩)) a with hkeeps | ⟨hdecides, _⟩
        · have hid : (run.next a.1 a.2).configurationId = run.configurationId := hkeeps.configurationId
          rw [hid]
        · exact .single ⟨_, List.mem_append_right _ List.mem_cons_self, rfl, hdecides, rfl⟩
      intro e he
      rcases List.mem_append.1 he with hold | hnew
      · rcases h e hold with ⟨now, hnow, hline⟩
        have hline' := hline.lift id fun _ _ => Follows.mono hsub
        by_cases hparty : e.party = i
        · rw [hparty, hi] at hnow
          cases hnow
          refine ⟨run.next a.1 a.2, ?_, hline'.trans hlast⟩
          rw [hparty]
          exact Function.update_self ..
        · exact ⟨now, (Function.update_of_ne hparty ..).trans hnow, hline'⟩
      · cases List.mem_singleton.1 hnew
        exact ⟨run.next a.1 a.2, Function.update_self .., hlast⟩

/-- Of two actors that have been in one configuration, one is where the other was, or has still to come
there. -/
theorem behind_or_ahead (hw : (clusterSystem ι).Reaches Steady w) {e e' : Handled ι} (he : e ∈ w.past)
    (he' : e' ∈ w.past) (hsame : e'.state.configurationId = e.state.configurationId)
    {now now' : ServiceRun} (hnow : w.party e.party = some now) (hnow' : w.party e'.party = some now') :
    Relation.ReflTransGen (Follows w.past) now.configurationId now'.configurationId ∨
      Relation.ReflTransGen (Follows w.past) now'.configurationId now.configurationId := by
  rcases follows_of_past hw e he with ⟨run, hrun, hline⟩
  rcases follows_of_past hw e' he' with ⟨run', hrun', hline'⟩
  cases Option.some.inj (hnow.symm.trans hrun)
  cases Option.some.inj (hnow'.symm.trans hrun')
  rw [hsame] at hline'
  exact Relation.ReflTransGen.total_of_right_unique (follows_unique hw) hline hline'

/-- The configurations of a steady run form one line: all decisions of a configuration lead to the same
next one, and of two actors that have been in one configuration one is behind the other. -/
theorem one_line (hw : (clusterSystem ι).Reaches Steady w) :
    Relator.RightUnique (Follows w.past) ∧
      ∀ e ∈ w.past, ∀ e' ∈ w.past, e'.state.configurationId = e.state.configurationId →
        ∀ now now', w.party e.party = some now → w.party e'.party = some now' →
          Relation.ReflTransGen (Follows w.past) now.configurationId now'.configurationId ∨
            Relation.ReflTransGen (Follows w.past) now'.configurationId now.configurationId :=
  ⟨follows_unique hw, fun _ he _ he' hsame _ _ hnow hnow' => behind_or_ahead hw he he' hsame hnow hnow'⟩

end Runs

end OneLine

/-! ### One of the two is behind -/

section Guards

variable [Xxh64] {ι : Type*} [Fintype ι]

omit [Xxh64] in
instance (run old : ServiceRun) (v : List Endpoint) : Decidable (Alike run old v) :=
  decidable_of_iff' _ (alike_iff run old v)

instance (w : Cluster ι) (run : ServiceRun) (a : Environment × ServiceCommand) (v : List Endpoint) :
    Decidable (SteadyDecision w run a v) :=
  decidable_of_iff' _ (steadyDecision_iff w run a v)

instance (w : Cluster ι) (l : ClusterStep ι) : Decidable (Steady w l) :=
  match l with
  | .boot i launch => inferInstanceAs (Decidable (Regular w (.boot i launch) ∧
      ∀ run ∈ actors.boot launch, CollisionFree run.state.view.k run.state.view.allNodes))
  | .act i a => inferInstanceAs (Decidable (Regular w (.act i a) ∧
      ∀ run ∈ w.party i, ∀ v ∈ run.decisions a, SteadyDecision w run a v))

end Guards

section Sample

attribute [local instance] xxh64Reference

/-- The two members after some of the steps. -/
def steadyTwin (n : Nat) : Option (Cluster Bool) :=
  (actors.boot (twin hostA)).bind fun run =>
    (clusterSystem Bool).execWhile Steady ⟨fun _ => none, [], []⟩ ((twinSteps run.state).take n)

theorem steadyTwin_reaches {n : Nat} {w : Cluster Bool} (h : steadyTwin n = some w) :
    (clusterSystem Bool).Reaches Steady w := by
  rcases Option.bind_eq_some_iff.1 h with ⟨run, _, hexec⟩
  exact (System.Reaches.start rfl).execWhile hexec

theorem steadyTwin_facts :
    ((steadyTwin 8).bind fun w => w.past[0]?.bind fun e => w.past[3]?.bind fun e' =>
      (w.party e.party).bind fun now => (w.party e'.party).map fun now' =>
        (decide (e'.state.configurationId = e.state.configurationId),
          decide (now'.configurationId = e'.state.configurationId),
          decide (now.configurationId = now'.configurationId))) = some (true, true, false) := by
  decide +kernel

/-- `hostA` has gone on and `hostB` has not. -/
theorem steadyTwin_line :
    ∃ (w : Cluster Bool) (e e' : Handled Bool) (now now' : ServiceRun), steadyTwin 8 = some w ∧
      e ∈ w.past ∧ e' ∈ w.past ∧ w.party e.party = some now ∧ w.party e'.party = some now' ∧
      now'.configurationId = e'.state.configurationId ∧ now.configurationId ≠ now'.configurationId ∧
      Relator.RightUnique (Follows w.past) ∧
      (Relation.ReflTransGen (Follows w.past) now.configurationId now'.configurationId ∨
        Relation.ReflTransGen (Follows w.past) now'.configurationId now.configurationId) := by
  rcases Option.bind_eq_some_iff.1 steadyTwin_facts with ⟨w, hw, hrest⟩
  rcases Option.bind_eq_some_iff.1 hrest with ⟨e, he, hrest⟩
  rcases Option.bind_eq_some_iff.1 hrest with ⟨e', he', hrest⟩
  rcases Option.bind_eq_some_iff.1 hrest with ⟨now, hnow, hrest⟩
  rcases Option.map_eq_some_iff.1 hrest with ⟨now', hnow', hfacts⟩
  simp only [Prod.mk.injEq, decide_eq_true_eq, decide_eq_false_iff_not] at hfacts
  rcases hfacts with ⟨hsame, hbehind, hapart⟩
  have hpast := List.mem_of_getElem? he
  have hpast' := List.mem_of_getElem? he'
  rcases one_line (steadyTwin_reaches hw) with ⟨hunique, hline⟩
  exact ⟨w, e, e', now, now', hw, hpast, hpast', hnow, hnow', hbehind, hapart, hunique,
    hline e hpast e' hpast' hsame now now' hnow hnow'⟩

end Sample

end Rapid
