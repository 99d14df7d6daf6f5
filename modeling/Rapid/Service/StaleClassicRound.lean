import Rapid.Service.OneDecision

/-!
# StaleClassicRound — fallback timers and the instances they are armed on

Only the fallback timers post `StartClassicRound`. The actor, the FIFO mailbox in front of it and
the timers make up a `ServiceWorld`. A timer that expires while a command is being handled counts as
expired just before or just after it: its post is at the same place of the mailbox either way.
-/

namespace Rapid

open Foundations

section StaleClassicRound

variable [Xxh64]

/-! ## Timers and instances in a trace -/

def Effect.spawned? : Effect → Option TimerId
  | .spawnFallback timer _ => some timer
  | _ => none

def Effect.aborted? : Effect → Option TimerId
  | .abortFallback timer => some timer
  | _ => none

def Effect.isInstance : Effect → Bool
  | .call .newFastPaxos => true
  | _ => false

/-- The fallback timers armed so far. -/
def spawned (trace : List Effect) : List TimerId :=
  trace.filterMap Effect.spawned?

def aborted (trace : List Effect) : List TimerId :=
  trace.filterMap Effect.aborted?

/-- The number of consensus instances made so far. The last one is the current instance. -/
def instances (trace : List Effect) : Nat :=
  trace.countP Effect.isInstance

/-- The timer was armed by a `propose` on the `i`-th instance. -/
def ArmedOn (trace : List Effect) (timer : TimerId) (i : Nat) : Prop :=
  ∃ before proposal mid delay after,
    trace = before ++ .call (.propose proposal) :: mid ++ .spawnFallback timer delay :: after ∧
      calls mid = [] ∧ instances before = i

variable {s t : ServiceState} {env : Environment} {cmd : ServiceCommand}
  {effects more trace trace' : List Effect} {timer : TimerId} {i j : Nat}

omit [Xxh64] in
@[simp] theorem spawned_append : spawned (effects ++ more) = spawned effects ++ spawned more :=
  List.filterMap_append

omit [Xxh64] in
@[simp] theorem aborted_append : aborted (effects ++ more) = aborted effects ++ aborted more :=
  List.filterMap_append

omit [Xxh64] in
@[simp] theorem instances_append :
    instances (effects ++ more) = instances effects + instances more :=
  List.countP_append

omit [Xxh64] in
/-- Silent effects arm and abort no timer. -/
theorem Effect.Silent.untimed {e : Effect} (h : e.Silent) : e.spawned? = none ∧ e.aborted? = none := by
  cases e with
  | spawnFallback timer delay => exact h.elim
  | abortFallback timer => exact h.elim
  | _ => exact ⟨rfl, rfl⟩

omit [Xxh64] in
theorem spawned_silent (h : ∀ e ∈ effects, e.Silent) : spawned effects = [] :=
  List.filterMap_eq_nil_iff.2 fun e he => (h e he).untimed.1

omit [Xxh64] in
theorem aborted_silent (h : ∀ e ∈ effects, e.Silent) : aborted effects = [] :=
  List.filterMap_eq_nil_iff.2 fun e he => (h e he).untimed.2

omit [Xxh64] in
theorem instances_silent (h : ∀ e ∈ effects, e.Silent) : instances effects = 0 := by
  refine List.countP_eq_zero.2 fun e he => ?_
  cases e with
  | call call => exact (h _ he).elim
  | _ => exact Bool.false_ne_true

omit [Xxh64] in
theorem aborts_pending (pending : Option TimerId) :
    spawned (pending.toList.map .abortFallback) = [] ∧
      aborted (pending.toList.map .abortFallback) = pending.toList ∧
      instances (pending.toList.map .abortFallback) = 0 := by
  cases pending with
  | none => exact ⟨rfl, rfl, rfl⟩
  | some timer => exact ⟨rfl, rfl, rfl⟩

/-! ## What the actor does to its timer -/

/-- Nothing happens to the timer or to the instance. -/
structure Untimed (s : ServiceState) (effects : List Effect) (t : ServiceState) : Prop where
  spawned : spawned effects = []
  aborted : aborted effects = []
  instances : instances effects = 0
  pendingFallback : t.pendingFallback = s.pendingFallback
  timersSpawned : t.timersSpawned = s.timersSpawned

/-- A `propose` aborts the pending timer and arms the next one. -/
structure Arms (s : ServiceState) (effects : List Effect) (t : ServiceState) : Prop where
  propose : ∃ before proposal mid delay, effects =
      before ++ .call (.propose proposal) :: mid ++ [.spawnFallback s.timersSpawned delay] ∧
    calls mid = [] ∧ instances before = 0
  spawned : spawned effects = [s.timersSpawned]
  aborted : aborted effects = s.pendingFallback.toList
  instances : instances effects = 0
  pendingFallback : t.pendingFallback = some s.timersSpawned
  timersSpawned : t.timersSpawned = s.timersSpawned + 1

/-- A decision aborts the pending timer and replaces the instance. -/
structure Renews (s : ServiceState) (effects : List Effect) (t : ServiceState) : Prop where
  spawned : spawned effects = []
  aborted : aborted effects = s.pendingFallback.toList
  pendingFallback : t.pendingFallback = none
  timersSpawned : t.timersSpawned = s.timersSpawned

theorem Untimed.calm {outcome : Outcome} (h : ServiceState.Calm s outcome) :
    Untimed s outcome.2 outcome.1 :=
  ⟨spawned_silent h.silent, aborted_silent h.silent, instances_silent h.silent,
    h.quiet.pendingFallback, h.quiet.timersSpawned⟩

theorem Move.timers (h : Move env cmd s effects t) : Untimed s effects t ∨ Arms s effects t := by
  cases h with
  | calm hcalm => exact .inl (.calm hcalm)
  | initialView reply => exact .inl ⟨rfl, rfl, rfl, rfl, rfl⟩
  | preJoin msg reply => exact .inl ⟨rfl, rfl, rfl, rfl, rfl⟩
  | join msg reply =>
      have hparks := s.handleJoin_parks env msg reply
      refine .inl ⟨?_, ?_, ?_, hparks.pendingFallback, hparks.timersSpawned⟩
      all_goals
        rcases hparks.effects with hnone | ⟨id, answer, hreply⟩
        · simp [hnone, spawned, aborted, instances]
        · simp [hreply, spawned, aborted, instances, Effect.spawned?, Effect.aborted?, Effect.isInstance]
  | alerts msg =>
      have hsilent : ∀ e ∈ (s.handleBatchedAlerts env msg).1.2, e.Silent :=
        s.silent_handleBatchedAlerts msg
      refine .inl ⟨spawned_silent hsilent, aborted_silent hsilent, instances_silent hsilent, ?_, ?_⟩
      · rw [s.handleBatchedAlerts_frame env msg]
      · rw [s.handleBatchedAlerts_frame env msg]
  | announce msg fp broadcasts delay hproposal hfp hbroadcasts hrunning =>
      have hsilent : ∀ e ∈ (s.handleBatchedAlerts env msg).1.2, e.Silent :=
        s.silent_handleBatchedAlerts msg
      -- The announcement aborts the pending timer and spawns its own.
      rcases aborts_pending s.pendingFallback with ⟨hspawned, haborted, hinstances⟩
      refine .inr ⟨⟨_, (s.handleBatchedAlerts env msg).2, broadcasts ++ s.pendingFallback.toList.map .abortFallback, delay, ?_, ?_,
        instances_silent hsilent⟩, ?_, ?_, ?_, rfl, rfl⟩
      · simp only [List.append_assoc, List.cons_append, List.nil_append]
      · rw [calls_append, calls_silent hbroadcasts, calls_abort]
        rfl
      · simp only [spawned_append, spawned_silent hsilent, spawned_silent hbroadcasts, hspawned]
        rfl
      · simp only [aborted_append, aborted_silent hsilent, aborted_silent hbroadcasts, haborted]
        exact List.append_nil _
      · simp only [instances_append, instances_silent hsilent, instances_silent hbroadcasts,
          hinstances]
        rfl
  | message => exact .inl ⟨rfl, rfl, rfl, rfl, rfl⟩
  | startClassic => exact .inl ⟨rfl, rfl, rfl, rfl, rfl⟩
  | shutdown => exact .inl ⟨rfl, rfl, rfl, rfl, rfl⟩

theorem renews_decide (s : ServiceState) (env : Environment) (proposal : List Endpoint) :
    Renews s (s.decideAndReplace env proposal).2 (s.decideAndReplace env proposal).1 := by
  have hdecided := s.decideViewChange_decided env proposal
  have hspawned := s.filterMap_decide (f := Effect.spawned?) env proposal
    (fun _ h => h.untimed.1) fun _ _ => rfl
  have haborted := s.filterMap_decide (f := Effect.aborted?) env proposal
    (fun _ h => h.untimed.2) fun _ _ => rfl
  have haborts : ∀ {pending : Option TimerId},
      (pending.toList.map Effect.abortFallback).filterMap Effect.spawned? = [] ∧
        (pending.toList.map Effect.abortFallback).filterMap Effect.aborted? = pending.toList :=
    fun {pending} => ⟨(aborts_pending pending).1, (aborts_pending pending).2.1⟩
  rw [haborts.1] at hspawned
  rw [haborts.2] at haborted
  exact ⟨hspawned, haborted.trans (List.append_nil _), hdecided.pendingFallback,
    hdecided.timersSpawned⟩

/-! ## The one pending timer -/

/-- Handles are never used twice; a timer that was not aborted is the pending one, and it was armed on
the current instance. -/
structure OnePending (s : ServiceState) (trace : List Effect) : Prop where
  below : ∀ timer ∈ spawned trace, timer < s.timersSpawned
  once : (spawned trace).Nodup
  pending : ∀ timer ∈ spawned trace, timer ∉ aborted trace → s.pendingFallback = some timer
  armed : ∀ timer, s.pendingFallback = some timer → ArmedOn trace timer (instances trace)

omit [Xxh64] in
theorem ArmedOn.append (h : ArmedOn trace timer i) : ArmedOn (trace ++ more) timer i := by
  rcases h with ⟨before, proposal, mid, delay, after, rfl, hmid, hbefore⟩
  exact ⟨before, proposal, mid, delay, after ++ more, by simp, hmid, hbefore⟩

omit [Xxh64] in
theorem ArmedOn.mono (h : ArmedOn trace timer i) (hearlier : trace <+: trace') :
    ArmedOn trace' timer i := by
  rcases hearlier with ⟨more, rfl⟩
  exact h.append

namespace OnePending

variable (h : OnePending s trace)

include h

omit [Xxh64] in
theorem untimed (hstep : Untimed s effects t) : OnePending t (trace ++ effects) := by
  have hspawned : spawned (trace ++ effects) = spawned trace := by
    simp [hstep.spawned]
  have haborted : aborted (trace ++ effects) = aborted trace := by
    simp [hstep.aborted]
  refine ⟨?_, ?_, ?_, ?_⟩
  · rw [hspawned, hstep.timersSpawned]
    exact h.below
  · rw [hspawned]
    exact h.once
  · rw [hspawned, haborted, hstep.pendingFallback]
    exact h.pending
  · intro timer hpending
    rw [instances_append, hstep.instances]
    exact (h.armed timer (hstep.pendingFallback ▸ hpending)).append

omit [Xxh64] in
theorem arms (hstep : Arms s effects t) : OnePending t (trace ++ effects) := by
  have hspawned : spawned (trace ++ effects) = spawned trace ++ [s.timersSpawned] := by
    simp [hstep.spawned]
  have hfresh : s.timersSpawned ∉ spawned trace := fun hmem => (h.below _ hmem).ne rfl
  refine ⟨?_, ?_, ?_, ?_⟩
  · intro timer hmem
    rw [hspawned, List.mem_append, List.mem_singleton] at hmem
    rw [hstep.timersSpawned]
    rcases hmem with hold | rfl
    · exact (h.below timer hold).trans (Nat.lt_succ_self _)
    · exact Nat.lt_succ_self _
  · rw [hspawned]
    exact List.nodup_append.2 ⟨h.once, List.nodup_singleton _, fun timer hold timer' hnew heq =>
      hfresh (List.mem_singleton.1 hnew ▸ heq ▸ hold)⟩
  · intro timer hmem hlive
    rw [hspawned, List.mem_append, List.mem_singleton] at hmem
    rw [aborted_append, List.mem_append, not_or, hstep.aborted] at hlive
    rw [hstep.pendingFallback]
    rcases hmem with hold | rfl
    · -- The timer that was pending has just been aborted.
      have hpending := h.pending timer hold hlive.1
      exact absurd (by simp [hpending]) hlive.2
    · rfl
  · intro timer hpending
    rw [hstep.pendingFallback] at hpending
    cases hpending
    rcases hstep.propose with ⟨before, proposal, mid, delay, rfl, hmid, hbefore⟩
    refine ⟨trace ++ before, proposal, mid, delay, [], by simp, hmid, ?_⟩
    rw [instances_append, instances_append, hbefore, hstep.instances]

omit [Xxh64] in
theorem renews (hstep : Renews s effects t) : OnePending t (trace ++ effects) := by
  have hspawned : spawned (trace ++ effects) = spawned trace := by
    simp [hstep.spawned]
  refine ⟨?_, ?_, ?_, ?_⟩
  · rw [hspawned, hstep.timersSpawned]
    exact h.below
  · rw [hspawned]
    exact h.once
  · intro timer hmem hlive
    rw [hspawned] at hmem
    rw [aborted_append, List.mem_append, not_or, hstep.aborted] at hlive
    have hpending := h.pending timer hmem hlive.1
    exact absurd (by simp [hpending]) hlive.2
  · intro timer hpending
    rw [hstep.pendingFallback] at hpending
    cases hpending

omit [Xxh64] in
/-- A timer is armed on one instance only. -/
theorem armed_unique (h₁ : ArmedOn trace timer i) (h₂ : ArmedOn trace timer j) : i = j := by
  rcases h₁ with ⟨before, proposal, mid, delay, after, htrace, hmid, hbefore⟩
  rcases h₂ with ⟨before', proposal', mid', delay', after', htrace', hmid', hbefore'⟩
  have honce := h.once
  rw [htrace] at honce
  have hsplit : before ++ .call (.propose proposal) :: mid =
      before' ++ .call (.propose proposal') :: mid' :=
    split_unique (f := Effect.spawned?) rfl rfl (htrace.symm.trans htrace') honce
  -- Nothing but the `propose` counts between the last instance and the timer.
  have hquiet : ∀ {mid : List Effect}, calls mid = [] → instances mid = 0 := by
    intro mid hnone
    refine List.countP_eq_zero.2 fun e he => ?_
    cases e with
    | call call =>
        have hcall : call ∈ calls mid := mem_calls.2 he
        rw [hnone] at hcall
        cases hcall
    | _ => exact Bool.false_ne_true
  have hcount := congrArg instances hsplit
  have hone : ∀ proposal : List Endpoint, ∀ mid : List Effect,
      instances (.call (.propose proposal) :: mid) = instances mid :=
    fun _ _ => List.countP_cons_of_neg Bool.false_ne_true
  rw [instances_append, instances_append, hone, hone, hquiet hmid, hquiet hmid'] at hcount
  rw [← hbefore, ← hbefore']
  exact hcount

end OnePending

theorem onePending_boot {outcome : Outcome} (hboots : Boots outcome) :
    OnePending outcome.1 outcome.2 := by
  rcases hboots.booted with ⟨_, _, _, _, _, _, _, _, _, _, hbooted⟩
  rcases hbooted.effects with ⟨rest, hsilent, heffects⟩
  have hspawned : spawned outcome.2 = [] := by
    rw [heffects]
    show spawned rest = []
    exact spawned_silent hsilent
  refine ⟨?_, ?_, ?_, ?_⟩
  · intro timer hmem
    rw [hspawned] at hmem
    cases hmem
  · rw [hspawned]
    exact List.nodup_nil
  · intro timer hmem
    rw [hspawned] at hmem
    cases hmem
  · intro timer hpending
    rw [hbooted.pendingFallback] at hpending
    cases hpending

theorem onePending_reaches {run : ServiceRun} (hrun : serviceSystem.Reachable run) :
    OnePending run.state run.trace := by
  have hguard : ∀ (run : ServiceRun) (a : Environment × ServiceCommand), True →
      ∀ e ∈ run.effects a.1 a.2, True := fun _ _ _ _ _ => trivial
  refine serviceSystem_invariant (I := fun _ s trace => OnePending s trace) hguard ?_ ?_ ?_ ?_ hrun
  · exact fun outcome hboots => onePending_boot hboots
  · exact fun _ _ _ h => h
  · intro _ _ _ _ _ _ _ _ h _ hmove
    rcases hmove.timers with huntimed | harms
    · exact h.untimed huntimed
    · exact h.arms harms
  · intro _ env s proposal _ h _
    exact h.renews (renews_decide s env proposal)

/-! ## The actor, its mailbox and its timers -/

/-- What waits in the mailbox. The post of a timer remembers what had happened when it was made. -/
inductive Posted
  | command (cmd : ServiceCommand)
  | fallback (timer : TimerId) (postedAt : List Effect)

def Posted.toCommand : Posted → ServiceCommand
  | command cmd => cmd
  | fallback _ _ => .startClassicRound

/-- A `StartClassicRound` that made an instance run `start_classic_round`. -/
structure ClassicRound where
  timer : TimerId
  postedAt : List Effect
  handledAt : List Effect

def Posted.rounds (posted : Posted) (run : ServiceRun) : List ClassicRound :=
  match posted with
  | command _ => []
  | fallback timer postedAt =>
      if run.state.fastPaxos.isSome then [⟨timer, postedAt, run.trace⟩] else []

structure ServiceWorld where
  run : ServiceRun
  mailbox : List Posted
  expired : List TimerId
  rounds : List ClassicRound

inductive WorldStep
  | arrive (cmd : ServiceCommand)
  | expire (timer : TimerId)
  | handle (env : Environment)

/-- A timer posts at most once, and never after it was aborted; an abort takes no post back. -/
def serviceWorld : System ServiceWorld WorldStep where
  init w := serviceSystem.init w.run ∧ w.mailbox = [] ∧ w.expired = [] ∧ w.rounds = []
  step w
    | .arrive cmd =>
        if cmd = .startClassicRound then none
        else some { w with mailbox := w.mailbox ++ [.command cmd] }
    | .expire timer =>
        if timer ∈ spawned w.run.trace ∧ timer ∉ aborted w.run.trace ∧ timer ∉ w.expired then
          some { w with
            mailbox := w.mailbox ++ [.fallback timer w.run.trace]
            expired := w.expired ++ [timer] }
        else none
    | .handle env =>
        match w.mailbox with
        | [] => none
        | posted :: mailbox =>
            (serviceSystem.step w.run (env, posted.toCommand)).map fun run =>
              { run := run
                mailbox := mailbox
                expired := w.expired
                rounds := w.rounds ++ posted.rounds w.run }

/-- The round was run by the instance that its timer was armed on, and by no other. -/
structure ClassicRound.Own (r : ClassicRound) : Prop where
  armed : ArmedOn r.handledAt r.timer (instances r.handledAt)
  never : ∀ i, ArmedOn r.handledAt r.timer i → i = instances r.handledAt

/-- No instance was replaced while the `StartClassicRound` waited in the mailbox. -/
def ClassicRound.Prompt (r : ClassicRound) : Prop :=
  instances r.postedAt = instances r.handledAt

/-- A timer posts while the instance it was armed on is the current one. -/
structure InTime (w : ServiceWorld) : Prop where
  reached : serviceSystem.Reachable w.run
  waiting : ∀ timer postedAt, .fallback timer postedAt ∈ w.mailbox →
    postedAt <+: w.run.trace ∧ ArmedOn postedAt timer (instances postedAt)
  ran : ∀ r ∈ w.rounds, r.postedAt <+: r.handledAt ∧
    ArmedOn r.postedAt r.timer (instances r.postedAt) ∧ ∃ s, OnePending s r.handledAt

variable {w : ServiceWorld}

theorem serviceSystem_trace {run run' : ServiceRun} {a : Environment × ServiceCommand}
    (hstep : serviceSystem.step run a = some run') : run.trace <+: run'.trace := by
  simp only [serviceSystem] at hstep
  split at hstep
  · cases hstep
    exact List.prefix_append _ _
  · cases hstep

theorem inTime_reaches (hw : serviceWorld.Reachable w) : InTime w := by
  refine hw.invariant (I := InTime) ?_ ?_
  · rintro w ⟨hrun, hmailbox, _, hrounds⟩
    refine ⟨.start hrun, ?_, ?_⟩
    · intro timer postedAt hmem
      rw [hmailbox] at hmem
      cases hmem
    · intro r hr
      rw [hrounds] at hr
      cases hr
  · intro w a w' _ h _ hstep
    cases a with
    | arrive cmd =>
        simp only [serviceWorld] at hstep
        split at hstep
        · cases hstep
        · cases hstep
          refine ⟨h.reached, ?_, h.ran⟩
          intro timer postedAt hmem
          rcases List.mem_append.1 hmem with hold | hnew
          · exact h.waiting timer postedAt hold
          · cases List.mem_singleton.1 hnew
    | expire timer =>
        simp only [serviceWorld] at hstep
        split at hstep
        · rename_i hlive
          cases hstep
          refine ⟨h.reached, ?_, h.ran⟩
          intro timer' postedAt hmem
          rcases List.mem_append.1 hmem with hold | hnew
          · exact h.waiting timer' postedAt hold
          · -- A timer that can still expire is the pending one.
            cases List.mem_singleton.1 hnew
            have hone := onePending_reaches h.reached
            have hpending := hone.pending timer hlive.1 hlive.2.1
            exact ⟨List.prefix_rfl, hone.armed timer hpending⟩
        · cases hstep
    | handle env =>
        simp only [serviceWorld] at hstep
        cases hmailbox : w.mailbox with
        | nil =>
            rw [hmailbox] at hstep
            cases hstep
        | cons posted mailbox =>
            rw [hmailbox] at hstep
            rcases Option.map_eq_some_iff.1 hstep with ⟨run, hrun, rfl⟩
            have hwaiting := h.waiting
            rw [hmailbox] at hwaiting
            refine ⟨.step h.reached trivial hrun, ?_, ?_⟩
            · intro timer postedAt hmem
              -- The trace only grows, so what was posted stays in the past.
              rcases hwaiting timer postedAt (List.mem_cons_of_mem _ hmem) with ⟨hearlier, harmed⟩
              exact ⟨hearlier.trans (serviceSystem_trace hrun), harmed⟩
            · intro r hr
              rcases List.mem_append.1 hr with hold | hnew
              · exact h.ran r hold
              · cases posted with
                | command cmd => cases hnew
                | fallback timer postedAt =>
                    simp only [Posted.rounds] at hnew
                    split at hnew
                    · cases List.mem_singleton.1 hnew
                      -- The round that runs now was waiting until now.
                      rcases hwaiting timer postedAt List.mem_cons_self with ⟨hearlier, harmed⟩
                      exact ⟨hearlier, harmed, w.run.state, onePending_reaches h.reached⟩
                    · cases hnew

theorem prompt_of_own (hw : serviceWorld.Reachable w) {r : ClassicRound} (hr : r ∈ w.rounds)
    (hown : r.Own) : r.Prompt := by
  rcases (inTime_reaches hw).ran r hr with ⟨hearlier, harmed, _⟩
  exact hown.never _ (harmed.mono hearlier)

/-- A classic round is the own round of its instance exactly when the instance was not replaced
between the expiry of the timer and the handling of its post. -/
theorem ownRound_iff (hw : serviceWorld.Reachable w) {r : ClassicRound} (hr : r ∈ w.rounds) :
    r.Own ↔ r.Prompt := by
  refine ⟨prompt_of_own hw hr, fun hprompt => ?_⟩
  rcases (inTime_reaches hw).ran r hr with ⟨hearlier, harmed, s, hone⟩
  have hcurrent : ArmedOn r.handledAt r.timer (instances r.handledAt) := by
    rw [← show instances r.postedAt = instances r.handledAt from hprompt]
    exact harmed.mono hearlier
  exact ⟨hcurrent, fun i hi => hone.armed_unique hi hcurrent⟩

end StaleClassicRound

/-! ### A post behind the deciding vote, and one with nothing before it -/

section Sample

attribute [local instance] xxh64Reference

/-- The actor of `hostA` in the cluster of `hostA`, `hostB` and `hostC`. -/
def sampleWorld (steps : ServiceState → List WorldStep) : Option ServiceWorld :=
  (ServiceState.sampleJoin 3 1 [⟨1, 1⟩] [hostA, hostB, hostC]).toOption.bind fun outcome =>
    serviceWorld.exec ⟨⟨outcome.1, outcome.2, [], false⟩, [], [], []⟩ (steps outcome.1)

theorem sampleWorld_reachable {steps : ServiceState → List WorldStep} {w : ServiceWorld}
    (hw : sampleWorld steps = some w) : serviceWorld.Reachable w := by
  rcases Option.bind_eq_some_iff.1 hw with ⟨outcome, houtcome, hexec⟩
  have hboots : Boots outcome := .inr ⟨_, _, _, _, eq_ok_of_toOption houtcome⟩
  have hstart : serviceWorld.Reachable ⟨⟨outcome.1, outcome.2, [], false⟩, [], [], []⟩ :=
    .start ⟨⟨outcome, hboots, rfl⟩, rfl, rfl, rfl⟩
  exact hstart.exec hexec

/-- The timer expires while the vote that decides to take `hostB` out waits in the mailbox. -/
def lateRoundWorld : Option ServiceWorld :=
  sampleWorld fun state =>
    let handle : WorldStep := .handle ServiceState.sampleEnvironment
    [.arrive (.request (sampleAlerts state .down hostB none) 0), handle,
      .arrive (.request (sampleVote state hostA [hostB]) 1), handle,
      .arrive (.request (sampleVote state hostC [hostB]) 2), handle,
      .arrive (.request (sampleVote state hostB [hostB]) 3), .expire 0, handle, handle]

/-- The new instance starts a classic round for the timer of the old one. -/
theorem lateRoundWorld_stale :
    ∃ w r, lateRoundWorld = some w ∧ serviceWorld.Reachable w ∧ r ∈ w.rounds ∧
      instances r.postedAt = 1 ∧ instances r.handledAt = 3 ∧ ¬ r.Own ∧
      hostB ∉ w.run.state.view.allNodes ∧
      w.run.state.fastPaxos.map FastPaxos.classicStarted = some true := by
  have hfacts : (lateRoundWorld.map fun w =>
      (w.rounds.map fun r => (instances r.postedAt, instances r.handledAt),
        decide (hostB ∉ w.run.state.view.allNodes),
        w.run.state.fastPaxos.map FastPaxos.classicStarted)) =
      some ([(1, 3)], true, some true) := by
    decide +kernel
  rcases Option.map_eq_some_iff.1 hfacts with ⟨w, hw, heq⟩
  simp only [Prod.mk.injEq, decide_eq_true_eq] at heq
  rcases heq with ⟨hrounds, hmember, hlatch⟩
  rcases List.map_eq_singleton_iff.1 hrounds with ⟨r, hr, hcounts⟩
  rcases Prod.mk.inj hcounts with ⟨hposted, hhandled⟩
  have hreachable := sampleWorld_reachable hw
  have hmem : r ∈ w.rounds := by
    rw [hr]
    exact List.mem_singleton_self r
  refine ⟨w, r, hw, hreachable, hmem, hposted, hhandled, fun hown => ?_, hmember, hlatch⟩
  have hprompt := prompt_of_own hreachable hmem hown
  rw [ClassicRound.Prompt, hposted, hhandled] at hprompt
  cases hprompt

/-- The timer expires with an empty mailbox. -/
def soleRoundWorld : Option ServiceWorld :=
  sampleWorld fun state =>
    let handle : WorldStep := .handle ServiceState.sampleEnvironment
    [.arrive (.request (sampleAlerts state .down hostB none) 0), handle, .expire 0, handle]

theorem soleRoundWorld_own : ∃ w r, soleRoundWorld = some w ∧ r ∈ w.rounds ∧ r.Own := by
  have hfacts : (soleRoundWorld.map fun w =>
      w.rounds.map fun r => (instances r.postedAt, instances r.handledAt)) = some [(1, 1)] := by
    decide +kernel
  rcases Option.map_eq_some_iff.1 hfacts with ⟨w, hw, hrounds⟩
  rcases List.map_eq_singleton_iff.1 hrounds with ⟨r, hr, hcounts⟩
  rcases Prod.mk.inj hcounts with ⟨hposted, hhandled⟩
  have hmem : r ∈ w.rounds := by
    rw [hr]
    exact List.mem_singleton_self r
  exact ⟨w, r, hw, hmem, (ownRound_iff (sampleWorld_reachable hw) hmem).2 (hposted.trans hhandled.symm)⟩

end Sample

end Rapid
