import Rapid.Shard.Subscriber
import Rapid.Service.WelcomedJoiner

/-!
# ShardDirectory — building a directory, `ShardDirectoryBuilder::build`

The snapshot is taken with three queries, each a round trip through the mailbox, and the
subscription comes after it. Whatever the actor decides between the first answer and the
subscription is lost: the directory is right for good exactly when nothing is decided there
(`directory_current`).
-/

namespace Rapid

open Foundations

section Directory

variable [Xxh64]

/-! ## Taking a snapshot -/

/-- How far the three queries have come, in `initial_view_event` and in `full_resync`. -/
inductive SnapshotPhase
  | start
  | gotId (id : ConfigurationId)
  | gotMembers (id : ConfigurationId) (membership : List Endpoint)
  | complete (id : ConfigurationId) (delta : List NodeStatusChange)

/-- What comes back on the reply channel. -/
def answerTo (reply : ReplyId) (effects : List Effect) : Option Reply :=
  effects.findSome? fun
    | .reply id answer => if id = reply then some answer else none
    | _ => none

namespace SnapshotPhase

def query? (reply : ReplyId) : SnapshotPhase → Option ServiceCommand
  | .start => some (.configurationId reply)
  | .gotId _ => some (.memberlist reply)
  | .gotMembers _ _ => some (.metadata reply)
  | .complete _ _ => none

/-- The answer to the query has come. -/
def answered : SnapshotPhase → Reply → Option SnapshotPhase
  | .start, .configurationId id => some (.gotId id)
  | .gotId id, .memberlist membership => some (.gotMembers id membership)
  | .gotMembers id membership, .metadata entries =>
      some (.complete id (snapshotDelta membership entries))
  | _, _ => none

/-- One query, from the mailbox to the answer. -/
def ask (phase : SnapshotPhase) (actor : ServiceRun) (env : Environment) (reply : ReplyId) :
    Option (ServiceRun × SnapshotPhase) := do
  let cmd ← phase.query? reply
  let next ← serviceSystem.step actor (env, cmd)
  let answer ← answerTo reply (actor.effects env cmd)
  let phase ← phase.answered answer
  return (next, phase)

/-- The mailbox is closed: `unwrap_or_default` makes up for the metadata, the other queries fail. -/
def unanswered : SnapshotPhase → Option SnapshotPhase
  | .gotMembers id membership => some (.complete id (snapshotDelta membership []))
  | _ => none

/-- The configuration id has been told, and the snapshot is not complete. -/
def underWay : SnapshotPhase → Bool
  | .gotId _ => true
  | .gotMembers _ _ => true
  | _ => false

end SnapshotPhase

/-! ## The builder and the forwarder -/

/-- How far the directory has come. -/
inductive DirectoryPhase
  | asking (phase : SnapshotPhase)
  | folded (index : ShardIndex)
  | listening (index : ShardIndex) (queue : List ClusterStatusChange)

namespace DirectoryPhase

/-- The broadcast channel keeps events for whoever has subscribed. -/
def publish (events : List ClusterStatusChange) : DirectoryPhase → DirectoryPhase
  | .listening index queue => .listening index (queue ++ events)
  | phase => phase

/-- A query has been answered, and the subscription is still to come. -/
def building : DirectoryPhase → Bool
  | .asking .start => false
  | .asking _ => true
  | .folded _ => true
  | .listening _ _ => false

end DirectoryPhase

inductive DirectoryStep
  | command (env : Environment) (cmd : ServiceCommand)
  | query (env : Environment) (reply : ReplyId)
  | closed
  | fold
  | subscribe
  | receive

/-- The actor and one directory that is being built over it. -/
structure DirectoryRun where
  actor : ServiceRun
  phase : DirectoryPhase

/-- The steps of the actor and of `build` in any order. A directory may be built at any time of the
actor's run. -/
def directorySystem (key : String) (delimiter : Char) : System DirectoryRun DirectoryStep where
  init run := ∃ outcome, Boots outcome ∧ outcome.1.Reports ∧
    run = ⟨⟨outcome.1, outcome.2, [], false⟩, .asking .start⟩
  step run
    | .command env cmd => do
        let actor ← serviceSystem.step run.actor (env, cmd)
        return ⟨actor, run.phase.publish (viewChanges (run.actor.effects env cmd))⟩
    | .query env reply =>
        match run.phase with
        | .asking phase =>
            (phase.ask run.actor env reply).map fun asked => ⟨asked.1, .asking asked.2⟩
        | _ => none
    | .closed =>
        match run.phase with
        | .asking phase =>
            if run.actor.stopped then
              phase.unanswered.map fun phase => { run with phase := .asking phase }
            else none
        | _ => none
    | .fold =>
        match run.phase with
        | .asking (.complete id delta) =>
            some { run with phase := .folded (snapshotIndex key delimiter id delta) }
        | _ => none
    | .subscribe =>
        match run.phase with
        | .folded index => some { run with phase := .listening index [] }
        | _ => none
    | .receive =>
        match run.phase with
        | .listening index (ev :: queue) =>
            some { run with phase := .listening (index.receive key delimiter ev) queue }
        | _ => none

/-- Between the first answer and the subscription, no proposal is decided that takes a member out
or lets somebody in, and the actor is there to tell its metadata. -/
def Undisturbed (run : DirectoryRun) : DirectoryStep → Prop
  | .command env cmd => run.phase.building = true →
      ∀ decision ∈ (run.actor.effects env cmd).filterMap Effect.decision?,
        decision.1.Idle decision.2
  | .closed => False
  | _ => True

instance (run : DirectoryRun) (step : DirectoryStep) : Decidable (Undisturbed run step) :=
  match step with
  | .command _ _ => inferInstanceAs (Decidable (_ → ∀ decision ∈ _, _))
  | .query _ _ => isTrue trivial
  | .closed => isFalse id
  | .fold => isTrue trivial
  | .subscribe => isTrue trivial
  | .receive => isTrue trivial

/-! ## What the directory knows -/

/-- The index is right for the epoch and reports its configuration id. -/
structure Tells (key : String) (delimiter : Char) (index : ShardIndex) (e : Epoch) : Prop where
  describes : index.Describes key delimiter e.knowledge
  id : index.configurationId = e.configurationId

variable {key : String} {delimiter : Char} {index : ShardIndex} {e f : Epoch}

omit [Xxh64] in
theorem Tells.snapshot {id : ConfigurationId} {delta : List NodeStatusChange}
    (hid : id = e.configurationId) (hfold : Knowledge.none.fold delta = e.knowledge) :
    Tells key delimiter (snapshotIndex key delimiter id delta) e := by
  refine ⟨?_, ?_⟩
  · rw [← hfold]
    exact ShardIndex.describes_snapshot id delta
  · rw [snapshotIndex, ShardIndex.configurationId_applyDelta]
    exact hid

omit [Xxh64] in
theorem Tells.receive (h : Tells key delimiter index e) {ev : ClusterStatusChange}
    (hid : ev.configurationId = f.configurationId)
    (hfold : e.knowledge.fold ev.delta = f.knowledge) :
    Tells key delimiter (index.receive key delimiter ev) f := by
  have hrelabelled : ShardIndex.Describes key delimiter
      { index with configurationId := ev.configurationId } e.knowledge :=
    ⟨h.describes.replicas, h.describes.entries⟩
  refine ⟨?_, ?_⟩
  · rw [← hfold]
    exact hrelabelled.applyDelta ev.delta
  · rw [ShardIndex.receive, ShardIndex.configurationId_applyDelta]
    exact hid

omit [Xxh64] in
/-- All events received, the index is right for the last epoch. -/
theorem Leads.tells {events : List ClusterStatusChange} {epochs : List Epoch}
    (h : Leads e events epochs) (htells : Tells key delimiter index e) :
    Tells key delimiter (events.foldl (fun index ev => index.receive key delimiter ev) index)
      (epochs.getLastD e) := by
  induction h generalizing index with
  | nil e => exact htells
  | cons hid hfold _ _ ih =>
      rw [List.getLastD_cons]
      exact ih (htells.receive hid hfold)

/-- What has been told so far is what the actor would tell now. -/
def SnapshotPhase.Current (s : ServiceState) : SnapshotPhase → Prop
  | .start => True
  | .gotId id => id = s.epoch.configurationId
  | .gotMembers id membership => id = s.epoch.configurationId ∧ membership = s.memberlist
  | .complete id delta => id = s.epoch.configurationId ∧
      Knowledge.none.fold delta = s.epoch.knowledge

/-- What holds of the directory in each phase; a listening directory would be right if it received
all that is waiting for it. -/
def DirectoryPhase.Current (key : String) (delimiter : Char) (s : ServiceState) :
    DirectoryPhase → Prop
  | .asking phase => phase.Current s
  | .folded index => Tells key delimiter index s.epoch
  | .listening index queue =>
      Tells key delimiter (queue.foldl (fun index ev => index.receive key delimiter ev) index)
        s.epoch

variable {s t : ServiceState}

/-- The epoch determines the member list. -/
theorem ServiceState.Reports.memberlist_eq (hs : s.Reports) (ht : t.Reports)
    (h : t.epoch = s.epoch) : t.memberlist = s.memberlist := by
  have hmembers : t.view.allNodes = s.view.allNodes :=
    congrArg (fun e : Epoch => e.knowledge.members) h
  have hring := ht.consistent.ring
  rw [hmembers] at hring
  rw [ServiceState.memberlist_eq, ServiceState.memberlist_eq,
    hring.eq hs.consistent.ring (ht.seed.trans hs.seed.symm)]

namespace SnapshotPhase.Current

variable {phase : SnapshotPhase}

/-- While the actor stays in its epoch, the answers stay up to date. -/
theorem stays (h : phase.Current s) (hs : s.Reports) (ht : t.Reports) (hepoch : t.epoch = s.epoch) :
    phase.Current t := by
  cases phase with
  | start => trivial
  | gotId id =>
      have hid : id = s.epoch.configurationId := h
      rw [← hepoch] at hid
      exact hid
  | gotMembers id membership =>
      rcases h with ⟨hid, hmembers⟩
      rw [← hepoch] at hid
      rw [← hs.memberlist_eq ht hepoch] at hmembers
      exact ⟨hid, hmembers⟩
  | complete id delta =>
      rw [SnapshotPhase.Current, ← hepoch] at h
      exact h

end SnapshotPhase.Current

/-- The actor answers a query and stays in its epoch. -/
theorem SnapshotPhase.ask_keeps {phase : SnapshotPhase} {actor : ServiceRun} {env : Environment}
    {reply : ReplyId} {asked : ServiceRun × SnapshotPhase} (hs : actor.state.Reports)
    (hasked : phase.ask actor env reply = some asked) :
    asked.1.state.Reports ∧ asked.1.state.epoch = actor.state.epoch := by
  rcases Option.bind_eq_some_iff.1 hasked with ⟨cmd, hquery, hrest⟩
  rcases Option.bind_eq_some_iff.1 hrest with ⟨next, hnext, hrest⟩
  rcases Option.bind_eq_some_iff.1 hrest with ⟨answer, _, hrest⟩
  rcases Option.bind_eq_some_iff.1 hrest with ⟨phase', _, heq⟩
  cases heq
  rcases serviceSystem_step hnext with ⟨_, rfl⟩
  have hact : Act env cmd actor.state (actor.effects env cmd) (actor.next env cmd).state :=
    actor.state.handleCommand_act
  rcases hact.leads hs with ⟨ht, _, hsame, _⟩
  refine ⟨ht, hsame ?_⟩
  -- The only effect is the answer.
  intro u proposal hcall
  cases phase with
  | start =>
      cases hquery
      cases List.mem_singleton.1 hcall
  | gotId id =>
      cases hquery
      cases List.mem_singleton.1 hcall
  | gotMembers id membership =>
      cases hquery
      cases List.mem_singleton.1 hcall
  | complete id delta => cases hquery

/-- An answer adds to what has been told. -/
theorem SnapshotPhase.Current.ask {phase : SnapshotPhase} {actor : ServiceRun} {env : Environment}
    {reply : ReplyId} {asked : ServiceRun × SnapshotPhase} (h : phase.Current actor.state)
    (hs : actor.state.Reports) (hasked : phase.ask actor env reply = some asked) :
    asked.2.Current asked.1.state := by
  rcases SnapshotPhase.ask_keeps hs hasked with ⟨ht, hepoch⟩
  -- The query itself leaves the epoch alone, so what was learned before is still current.
  refine SnapshotPhase.Current.stays ?_ hs ht hepoch
  rcases Option.bind_eq_some_iff.1 hasked with ⟨cmd, hquery, hrest⟩
  rcases Option.bind_eq_some_iff.1 hrest with ⟨next, _, hrest⟩
  rcases Option.bind_eq_some_iff.1 hrest with ⟨answer, hanswer, hrest⟩
  rcases Option.bind_eq_some_iff.1 hrest with ⟨phase', hphase, heq⟩
  cases heq
  cases phase with
  | start =>
      cases hquery
      have heq : answerTo reply (actor.effects env (.configurationId reply)) =
          some (.configurationId actor.state.epoch.configurationId) := by
        simp [answerTo, ServiceRun.effects, ServiceState.handleCommand]
        rfl
      rw [heq] at hanswer
      cases hanswer
      cases hphase
      exact rfl
  | gotId id =>
      cases hquery
      have heq : answerTo reply (actor.effects env (.memberlist reply)) =
          some (.memberlist actor.state.memberlist) := by
        simp [answerTo, ServiceRun.effects, ServiceState.handleCommand]
      rw [heq] at hanswer
      cases hanswer
      cases hphase
      exact ⟨h, rfl⟩
  | gotMembers id membership =>
      cases hquery
      have heq : answerTo reply (actor.effects env (.metadata reply)) =
          some (.metadata (actor.state.metadataSnapshot env.metadataOrder)) := by
        simp [answerTo, ServiceRun.effects, ServiceState.handleCommand]
      rw [heq] at hanswer
      cases hanswer
      cases hphase
      rcases h with ⟨hid, rfl⟩
      exact ⟨hid, hs.fold_snapshot env.metadataOrder⟩
  | complete id delta => cases hquery

/-- The actor handles a command of somebody else. -/
theorem DirectoryPhase.Current.command {phase : DirectoryPhase} {env : Environment}
    {cmd : ServiceCommand} {effects : List Effect} (h : phase.Current key delimiter s)
    (hact : Act env cmd s effects t) (hs : s.Reports) (hidle : phase.building = true →
      ∀ u proposal, .call (.decideViewChange u proposal) ∈ effects → u.Idle proposal) :
    (phase.publish (viewChanges effects)).Current key delimiter t := by
  rcases hact.leads hs with ⟨ht, _, hsame, epochs, hleads, hlast, _⟩
  cases phase with
  -- While the answers come in, the epoch must not move.
  | asking phase =>
      have hphase : phase.Current s := h
      cases phase with
      | start => trivial
      | gotId id => exact hphase.stays hs ht (hsame (hidle rfl))
      | gotMembers id membership => exact hphase.stays hs ht (hsame (hidle rfl))
      | complete id delta => exact hphase.stays hs ht (hsame (hidle rfl))
  | folded index =>
      rw [DirectoryPhase.Current, ← hsame (hidle rfl)] at h
      exact h
  | listening index queue =>
      have hcaught := hleads.tells h
      rw [hlast] at hcaught
      rw [DirectoryPhase.publish, DirectoryPhase.Current, List.foldl_append]
      exact hcaught

theorem directory_invariant {run : DirectoryRun}
    (h : (directorySystem key delimiter).Reaches Undisturbed run) :
    run.actor.state.Reports ∧ run.phase.Current key delimiter run.actor.state := by
  refine h.invariant
    (I := fun run => run.actor.state.Reports ∧ run.phase.Current key delimiter run.actor.state)
    ?_ ?_
  · rintro run ⟨outcome, _, hreports, rfl⟩
    exact ⟨hreports, trivial⟩
  · rintro run step run' _ ⟨hs, hcurrent⟩ hok hstep
    cases step with
    | command env cmd =>
        rcases Option.bind_eq_some_iff.1 hstep with ⟨actor, hactor, heq⟩
        cases heq
        rcases serviceSystem_step hactor with ⟨_, rfl⟩
        -- A command may be handled in every phase; while the snapshot is built it decides nothing.
        refine ⟨reports_of_step hactor hs, ?_⟩
        refine hcurrent.command run.actor.state.handleCommand_act hs ?_
        intro hbuilding u proposal hcall
        exact hok hbuilding (u, proposal) (mem_decisions.2 hcall)
    | query env reply =>
        simp only [directorySystem] at hstep
        split at hstep
        · rename_i phase hphase
          rcases Option.map_eq_some_iff.1 hstep with ⟨asked, hasked, rfl⟩
          rw [hphase] at hcurrent
          exact ⟨(SnapshotPhase.ask_keeps hs hasked).1, SnapshotPhase.Current.ask hcurrent hs hasked⟩
        · cases hstep
    -- The guard excludes that the service stops answering.
    | closed => exact hok.elim
    | fold =>
        simp only [directorySystem] at hstep
        split at hstep
        · rename_i id delta hphase
          cases hstep
          rw [hphase] at hcurrent
          rcases hcurrent with ⟨hid, hfold⟩
          exact ⟨hs, .snapshot hid hfold⟩
        · cases hstep
    | subscribe =>
        simp only [directorySystem] at hstep
        split at hstep
        · rename_i index hphase
          cases hstep
          rw [hphase] at hcurrent
          exact ⟨hs, hcurrent⟩
        · cases hstep
    | receive =>
        simp only [directorySystem] at hstep
        split at hstep
        · rename_i index ev queue hphase
          cases hstep
          rw [hphase] at hcurrent
          exact ⟨hs, hcurrent⟩
        · cases hstep

/-- In every run in which nothing is decided between the first query and the subscription, a
directory that has received all events reports the current configuration id and knows exactly the
members that host a shard. -/
theorem directory_current {run : DirectoryRun}
    (h : (directorySystem key delimiter).Reaches Undisturbed run)
    (hphase : run.phase = .listening index []) :
    index.configurationId = run.actor.state.view.currentConfigurationId.2 ∧
      ∀ shard e, e ∈ index.replicasOf shard ↔ e ∈ run.actor.state.view.allNodes ∧
        shard ∈ parseShards (run.actor.state.metadata.get e) key delimiter := by
  have hcurrent := (directory_invariant h).2
  rw [hphase] at hcurrent
  exact ⟨hcurrent.id, hcurrent.describes.replicas⟩

end Directory

/-! ### A member leaves while the directory is being built, and after it -/

section Sample

attribute [local instance] xxh64Reference

/-- `hostA` and `hostB` both host the shard `s`. -/
def shardJoin : Except Error Outcome :=
  ServiceState.join { Settings.default with k := 3, h := 3, l := 1 } hostA hostsShard
    { sender := none
      statusCode := JoinStatusCode.safeToJoin.toInt32
      configurationId := 0
      endpoints := [hostA, hostB]
      identifiers := [⟨1, 1⟩, ⟨2, 2⟩]
      metadataKeys := [hostB]
      metadataValues := [hostsShard] }

/-- The alerts about `hostB` and the first of the two votes. -/
def shardAlerts (state : ServiceState) : List DirectoryStep :=
  [.command ServiceState.sampleEnvironment (.request (sampleAlerts state .down hostB none) 0),
    .command ServiceState.sampleEnvironment (.request (sampleVote state hostA [hostB]) 1)]

/-- The vote that decides that `hostB` leaves. -/
def shardVote (state : ServiceState) : DirectoryStep :=
  .command ServiceState.sampleEnvironment (.request (sampleVote state hostB [hostB]) 2)

def shardQueries : List DirectoryStep :=
  [.query ServiceState.sampleEnvironment 3, .query ServiceState.sampleEnvironment 4,
    .query ServiceState.sampleEnvironment 5]

def shardStart (outcome : Outcome) : DirectoryRun :=
  ⟨⟨outcome.1, outcome.2, [], false⟩, .asking .start⟩

theorem shardJoin_reports {outcome : Outcome} (h : shardJoin.toOption = some outcome) :
    Boots outcome ∧ outcome.1.Reports := by
  have hjoin := eq_ok_of_toOption h
  have hkeys : Set.InjOn addressHashSeedZero ([hostA, hostB].toFinset : Finset Endpoint) := by
    have hfree : CollisionFree 3 [hostA, hostB].toFinset := by
      decide +kernel
    exact hfree 0 (by decide)
  exact ⟨.inr ⟨_, _, _, _, hjoin⟩,
    ServiceState.join_reports hjoin hkeys (by simp) (.inr (by simp))⟩

theorem shardJoin_start {outcome : Outcome} (h : shardJoin.toOption = some outcome) :
    (directorySystem defaultMetadataKey defaultDelimiter).init (shardStart outcome) :=
  ⟨outcome, (shardJoin_reports h).1, (shardJoin_reports h).2, rfl⟩

def DirectoryRun.listening? (run : DirectoryRun) :
    Option (ShardIndex × List ClusterStatusChange) :=
  match run.phase with
  | .listening index queue => some (index, queue)
  | _ => none

theorem DirectoryRun.phase_of_listening? {run : DirectoryRun} {index : ShardIndex}
    {queue : List ClusterStatusChange} (h : run.listening? = some (index, queue)) :
    run.phase = .listening index queue := by
  unfold listening? at h
  split at h
  · rename_i hphase
    cases h
    exact hphase
  · cases h

/-- `hostB` leaves before the forwarder subscribes. -/
def lostChange : Option DirectoryRun :=
  shardJoin.toOption.bind fun outcome =>
    (directorySystem defaultMetadataKey defaultDelimiter).exec (shardStart outcome)
      (shardAlerts outcome.1 ++ shardQueries ++ [shardVote outcome.1, .fold, .subscribe])

/-- `hostB` leaves after that, and the forwarder is told. -/
def keptChange : Option DirectoryRun :=
  shardJoin.toOption.bind fun outcome =>
    (directorySystem defaultMetadataKey defaultDelimiter).execWhile Undisturbed (shardStart outcome)
      (shardAlerts outcome.1 ++ shardQueries ++ [.fold, .subscribe, shardVote outcome.1, .receive])

theorem lostChange_facts :
    (lostChange.bind fun run => run.listening?.map fun listening =>
      (listening.2, decide (listening.1.configurationId =
          run.actor.state.view.currentConfigurationId.2),
        decide (hostB ∈ listening.1.replicasOf "s"), run.actor.state.view.allNodes)) =
      some ([], false, true, {hostA}) := by
  decide +kernel

theorem keptChange_facts :
    (keptChange.bind fun run => run.listening?.map fun listening =>
      (listening.2, run.actor.state.view.allNodes)) = some ([], {hostA}) := by
  decide +kernel

/-- All events received, the directory still reports the old configuration and the node that has
left. -/
theorem lostChange_stale :
    ∃ (run : DirectoryRun) (index : ShardIndex),
      (directorySystem defaultMetadataKey defaultDelimiter).Reachable run ∧
      run.phase = .listening index [] ∧
      index.configurationId ≠ run.actor.state.view.currentConfigurationId.2 ∧
      hostB ∈ index.replicasOf "s" ∧ hostB ∉ run.actor.state.view.allNodes := by
  rcases Option.bind_eq_some_iff.1 lostChange_facts with ⟨run, hrun, hfacts⟩
  rcases Option.map_eq_some_iff.1 hfacts with ⟨⟨index, queue⟩, hlistening, heq⟩
  simp only [Prod.mk.injEq, decide_eq_false_iff_not, decide_eq_true_eq] at heq
  rcases heq with ⟨rfl, hid, hreplica, hnodes⟩
  rcases Option.bind_eq_some_iff.1 hrun with ⟨outcome, houtcome, hexec⟩
  have hstart : (directorySystem defaultMetadataKey defaultDelimiter).Reachable
      (shardStart outcome) := .start (shardJoin_start houtcome)
  refine ⟨run, index, hstart.exec hexec, DirectoryRun.phase_of_listening? hlistening, hid,
    hreplica, ?_⟩
  rw [hnodes]
  decide +kernel

theorem keptChange_current :
    ∃ (run : DirectoryRun) (index : ShardIndex), keptChange = some run ∧
      run.phase = .listening index [] ∧
      index.configurationId = run.actor.state.view.currentConfigurationId.2 ∧
      hostB ∉ index.replicasOf "s" := by
  rcases Option.bind_eq_some_iff.1 keptChange_facts with ⟨run, hrun, hfacts⟩
  rcases Option.map_eq_some_iff.1 hfacts with ⟨⟨index, queue⟩, hlistening, heq⟩
  simp only [Prod.mk.injEq] at heq
  rcases heq with ⟨rfl, hnodes⟩
  rcases Option.bind_eq_some_iff.1 hrun with ⟨outcome, houtcome, hexec⟩
  have hstart : (directorySystem defaultMetadataKey defaultDelimiter).Reaches Undisturbed
      (shardStart outcome) := .start (shardJoin_start houtcome)
  have hphase := DirectoryRun.phase_of_listening? hlistening
  rcases directory_current (hstart.execWhile hexec) hphase with ⟨hid, hreplicas⟩
  have hgone : hostB ∉ ({hostA} : Finset Endpoint) := by
    decide +kernel
  refine ⟨run, index, hrun, hphase, hid, ?_⟩
  rw [hreplicas, hnodes]
  exact fun hhosts => hgone hhosts.1

end Sample

end Rapid
