import Rapid.Service.Setup

/-!
# Detectors — which failure detectors run

The actor replaces its detector tasks at every view change and on request. Replaying the effects of
a run, spawning and aborting tasks, gives the tasks that run at its end: one for each ring
predecessor in the current view, all of them with the current configuration id.
-/

namespace Rapid

open Foundations

section Detectors

variable [Xxh64]

/-! ## Running tasks -/

/-- What one effect does to the tasks that run. -/
def Effect.retask (tasks : List DetectorTask) : Effect → List DetectorTask
  | .spawnDetector task => tasks ++ [task]
  | .abortDetector task => tasks.erase task
  | _ => tasks

/-- The tasks that run once all these effects have happened. -/
def running (effects : List Effect) (tasks : List DetectorTask) : List DetectorTask :=
  effects.foldl Effect.retask tasks

namespace ServiceState

/-- The tasks for the current view: one for each subject. -/
def expectedTasks (s : ServiceState) : List DetectorTask :=
  ((s.view.getSubjectsOf s.myAddr).toOption.getD []).map fun subject =>
    ⟨subject, s.view.currentConfigurationId.2⟩

/-- The end of `run`: `for h in state.failure_detector_tasks.drain(..) { h.abort(); }`. -/
def afterLoop (s : ServiceState) : Outcome :=
  s.cancelFailureDetectors

end ServiceState

variable {s t : ServiceState} {env : Environment} {cmd : ServiceCommand} {effects : List Effect}
  {tasks : List DetectorTask}

omit [Xxh64] in
theorem running_append (effects more : List Effect) (tasks : List DetectorTask) :
    running (effects ++ more) tasks = running more (running effects tasks) :=
  List.foldl_append

/-- An effect that is about no task. -/
def Effect.Taskless : Effect → Prop
  | .spawnDetector _ => False
  | .abortDetector _ => False
  | _ => True

omit [Xxh64] in
theorem running_taskless (h : ∀ e ∈ effects, e.Taskless) (tasks : List DetectorTask) :
    running effects tasks = tasks := by
  induction effects with
  | nil => rfl
  | cons e effects ih =>
      have hfirst : e.retask tasks = tasks := by
        have htaskless := h e List.mem_cons_self
        cases e with
        | spawnDetector task => exact htaskless.elim
        | abortDetector task => exact htaskless.elim
        | _ => rfl
      show running effects (e.retask tasks) = tasks
      rw [hfirst]
      exact ih fun e' he' => h e' (List.mem_cons_of_mem _ he')

omit [Xxh64] in
/-- Aborting the tasks in their order leaves what came behind them. -/
theorem running_abort (tasks more : List DetectorTask) :
    running (tasks.map .abortDetector) (tasks ++ more) = more := by
  induction tasks with
  | nil => rfl
  | cons task tasks ih =>
      show running (tasks.map .abortDetector) ((task :: (tasks ++ more)).erase task) = more
      rw [List.erase_cons_head]
      exact ih

omit [Xxh64] in
theorem running_spawn (new tasks : List DetectorTask) :
    running (new.map .spawnDetector) tasks = tasks ++ new := by
  induction new generalizing tasks with
  | nil => exact (List.append_nil tasks).symm
  | cons task new ih =>
      show running (new.map .spawnDetector) (tasks ++ [task]) = tasks ++ task :: new
      rw [ih, List.append_assoc]
      rfl

/-- The effects take the tasks before to the tasks after. -/
def Retasks (s : ServiceState) (effects : List Effect) (t : ServiceState) : Prop :=
  running effects s.failureDetectorTasks = t.failureDetectorTasks

omit [Xxh64] in
theorem Retasks.idle (h : ∀ e ∈ effects, e.Taskless)
    (htasks : t.failureDetectorTasks = s.failureDetectorTasks) : Retasks s effects t :=
  (running_taskless h _).trans htasks.symm

omit [Xxh64] in
theorem Retasks.append {u : ServiceState} {more : List Effect} (h : Retasks s effects t)
    (hmore : Retasks t more u) : Retasks s (effects ++ more) u := by
  unfold Retasks at h hmore ⊢
  rw [running_append, h, hmore]

/-! ## Handlers -/

theorem MembershipView.Keeps.getSubjectsOf {v w : MembershipView} (h : v.Keeps w) (x : Endpoint) :
    w.getSubjectsOf x = v.getSubjectsOf x := by
  unfold MembershipView.getSubjectsOf MembershipView.isHostPresent MembershipView.predecessorsOf
  rw [h.allNodes, h.ringZero, h.rings]

namespace ServiceState

omit [Xxh64] in
theorem retasks_cancel (s : ServiceState) :
    Retasks s s.cancelFailureDetectors.2 s.cancelFailureDetectors.1 := by
  have habort := running_abort s.failureDetectorTasks []
  rw [List.append_nil] at habort
  exact habort

theorem retasks_spawn (s : ServiceState) : Retasks s s.spawnDetectors.2 s.spawnDetectors.1 := by
  unfold spawnDetectors
  split
  · dsimp only
    split
    · rfl
    · exact running_spawn _ _
  · rfl

theorem retasks_rebuild (s : ServiceState) : Retasks s s.rebuildDetectors.2 s.rebuildDetectors.1 :=
  s.retasks_cancel.append (retasks_spawn _)

/-- Rebuilding starts the tasks of the view, and no others. -/
theorem tasks_rebuild (s : ServiceState) (hfactory : s.fdFactory = true) :
    s.rebuildDetectors.1.failureDetectorTasks = s.expectedTasks := by
  have hsubjects := (MembershipView.Refreshes.current s.view).keeps.getSubjectsOf s.myAddr
  unfold rebuildDetectors expectedTasks
  rw [Outcome.andThen_state]
  unfold spawnDetectors
  have hfactory' : s.cancelFailureDetectors.1.fdFactory = true := hfactory
  rw [if_pos hfactory']
  dsimp only [cancelFailureDetectors, configurationId]
  rw [hsubjects]
  cases s.view.getSubjectsOf s.myAddr with
  | error err => rfl
  | ok subjects => exact List.nil_append _

/-- What the view shows is what the tasks are about. -/
theorem expectedTasks_of_keeps (hview : s.view.Keeps t.view) (haddr : t.myAddr = s.myAddr) :
    t.expectedTasks = s.expectedTasks := by
  unfold expectedTasks
  rw [haddr, hview.getSubjectsOf, hview.configurationId]

/-! ### A decision -/

theorem retasks_monitoredOn (s : ServiceState) (proposal : List Endpoint) :
    Retasks (s.replacedOn proposal) (s.monitoredOn proposal).2 (s.monitoredOn proposal).1 := by
  unfold monitoredOn
  split
  · exact retasks_rebuild _
  · rfl

/-- A node that is no member monitors nobody. -/
theorem expectedTasks_of_absent (h : s.view.isHostPresent s.myAddr = false) :
    s.expectedTasks = [] := by
  unfold expectedTasks MembershipView.getSubjectsOf
  rw [h]
  rfl

theorem tasks_monitoredOn (s : ServiceState) (hfactory : s.fdFactory = true) (proposal : List Endpoint) :
    (s.monitoredOn proposal).1.failureDetectorTasks = (s.replacedOn proposal).expectedTasks := by
  have hfactory' : (s.replacedOn proposal).fdFactory = true :=
    (s.wired_replacedOn proposal).fdFactory.trans hfactory
  unfold monitoredOn
  split
  · exact tasks_rebuild _ hfactory'
  · rename_i habsent
    rw [expectedTasks_of_absent (Bool.eq_false_iff.2 habsent)]
    exact s.tasks_replacedOn proposal

theorem taskless_answeredOn (s : ServiceState) (env : Environment) (proposal : List Endpoint) :
    ∀ e ∈ (s.answeredOn env proposal).2, e.Taskless := by
  rcases (s.monitoredOn proposal).1.respondToJoiners_answers env proposal
    (s.changeOf proposal).membership with ⟨response, _, _, _, _, hrespond⟩
  intro e he
  rw [answeredOn, hrespond, mem_answerParked] at he
  rcases he with ⟨_, _, _, _, _, _, rfl⟩
  trivial

theorem tasks_decide (s : ServiceState) (env : Environment) (proposal : List Endpoint) :
    (s.decideAndReplace env proposal).1.failureDetectorTasks =
      (s.monitoredOn proposal).1.failureDetectorTasks := by
  rw [decideAndReplace_state]

/-- A decision aborts all tasks and starts those of the new view. -/
theorem retasks_decide (s : ServiceState) (env : Environment) (proposal : List Endpoint) :
    Retasks s (s.decideAndReplace env proposal).2 (s.decideAndReplace env proposal).1 := by
  have habort : running (s.failureDetectorTasks.map .abortDetector) s.failureDetectorTasks = [] :=
    s.retasks_cancel
  have htimer : ∀ tasks, running (s.pendingFallback.toList.map .abortFallback) tasks = tasks := by
    refine running_taskless fun e he => ?_
    rcases List.mem_map.1 he with ⟨timer, _, rfl⟩
    trivial
  have hrecipients : ∀ tasks, running (if s.broadcaster then
      [.setMembership (s.changeOf proposal).membership] else []) tasks = tasks := by
    refine running_taskless fun e he => ?_
    split at he
    · cases List.mem_singleton.1 he
      trivial
    · cases he
  have hmonitored := s.retasks_monitoredOn proposal
  unfold Retasks at hmonitored ⊢
  rw [tasks_replacedOn] at hmonitored
  rw [decideAndReplace_effects, tasks_decide, ← hmonitored]
  simp only [running_append, running_taskless (s.taskless_answeredOn env proposal)]
  have hcall : ∀ (call : Call) tasks, running [.call call] tasks = tasks := fun _ _ => rfl
  have hpublish : ∀ change tasks, running [.publish .viewChange change] tasks = tasks := fun _ _ => rfl
  simp only [hcall, habort, hpublish, htimer, hrecipients]

theorem expectedTasks_decide (s : ServiceState) (hfactory : s.fdFactory = true) (env : Environment)
    (proposal : List Endpoint) :
    (s.decideAndReplace env proposal).1.failureDetectorTasks =
      (s.decideAndReplace env proposal).1.expectedTasks := by
  have haddr : (s.decideAndReplace env proposal).1.myAddr = (s.replacedOn proposal).myAddr :=
    (s.wired_decide env proposal).myAddr.trans (s.wired_replacedOn proposal).myAddr.symm
  rw [tasks_decide, s.tasks_monitoredOn hfactory]
  exact (expectedTasks_of_keeps (s.view_decide env proposal ▸ .refl _) haddr).symm

/-! ### Outputs of an instance -/

theorem retasks_dispatch (env : Environment) (outs : List FastOutgoing) :
    ∀ s : ServiceState, Retasks s (dispatch env outs s).2 (dispatch env outs s).1 := by
  induction outs with
  | nil => exact fun s => rfl
  | cons out outs ih =>
      intro s
      have hfirst : Retasks s (dispatchOne env out s).2 (dispatchOne env out s).1 := by
        cases out with
        | broadcast request =>
            refine .idle (fun e he => ?_) rfl
            unfold dispatchOne at he
            dsimp only at he
            split at he
            · cases List.mem_singleton.1 he
              trivial
            · cases he
        | unicast target request =>
            refine .idle (fun e he => ?_) rfl
            unfold dispatchOne at he
            dsimp only at he
            split at he
            · cases List.mem_singleton.1 he
              trivial
            · cases he
        | scheduleClassicFallback delay =>
            refine .idle (fun e he => ?_) rfl
            rcases List.mem_append.1 he with hold | hnew
            · rcases List.mem_map.1 hold with ⟨timer, _, rfl⟩
              trivial
            · cases List.mem_singleton.1 hnew
              trivial
        | decision proposal => exact s.retasks_decide env proposal
      exact hfirst.append (ih _)

end ServiceState

/-! ## Pieces -/

/-- The tasks of the view run. -/
structure Monitors (s : ServiceState) : Prop where
  factory : s.fdFactory = true
  tasks : s.failureDetectorTasks = s.expectedTasks

theorem Monitors.of_keeps (h : Monitors s) (hsetup : SameSetup s t) (hview : s.view.Keeps t.view)
    (htasks : t.failureDetectorTasks = s.failureDetectorTasks) : Monitors t := by
  refine ⟨hsetup.fdFactory.trans h.factory, ?_⟩
  rw [htasks, h.tasks, ServiceState.expectedTasks_of_keeps hview hsetup.myAddr]

theorem Monitors.decide (h : Monitors s) (env : Environment) (proposal : List Endpoint) :
    Monitors (s.decideAndReplace env proposal).1 :=
  ⟨(s.wired_decide env proposal).fdFactory.trans h.factory,
    s.expectedTasks_decide h.factory env proposal⟩

omit [Xxh64] in
theorem tasks_handleTick (s : ServiceState) (now : Instant) :
    (s.handleTick now).1.failureDetectorTasks = s.failureDetectorTasks := by
  unfold ServiceState.handleTick
  split
  · rfl
  · split
    · rfl
    · split
      · rfl
      · rfl

theorem tasks_handleEdgeFailure (s : ServiceState) (now : Instant) (ev : EdgeFailure) :
    (s.handleEdgeFailure now ev).failureDetectorTasks = s.failureDetectorTasks := by
  unfold ServiceState.handleEdgeFailure
  dsimp only
  split
  · rfl
  · rfl

theorem tasks_announce (s : ServiceState) (env : Environment) (msg : BatchedAlertMessage)
    {fp : FastPaxos} (hfp : s.fastPaxos = some fp) :
    ((s.handleBatchedAlerts env msg).1.1.propose env
      (s.handleBatchedAlerts env msg).2).1.failureDetectorTasks = s.failureDetectorTasks := by
  have hframe := ServiceState.handleBatchedAlerts_frame env s msg
  rcases s.announce_eq env msg hfp with ⟨broadcasts, delay, _, hpropose⟩
  rw [hpropose]
  dsimp only
  rw [hframe]

/-- Between two decisions the same tasks keep running, unless they are restarted. -/
theorem Monitors.piece (h : Monitors s) (hpiece : Piece env cmd s effects t) : Monitors t := by
  have hsetup := hpiece.setup
  cases hpiece with
  | refresh => exact h.of_keeps hsetup (MembershipView.Refreshes.current s.view).keeps rfl
  | reply id answer => exact h
  | shutdown => exact h.of_keeps hsetup (.refl _) rfl
  | initialView reply => exact h.of_keeps hsetup (s.quiet_publishInitialView env).view.keeps rfl
  | park msg reply => exact h.of_keeps hsetup (MembershipView.Refreshes.current s.view).keeps rfl
  | failure ev =>
      exact h.of_keeps hsetup (s.quiet_handleEdgeFailure env.now ev).view.keeps
        (tasks_handleEdgeFailure s env.now ev)
  | tick =>
      exact h.of_keeps hsetup (s.calm_handleTick env.now).quiet.view.keeps (tasks_handleTick s env.now)
  | rebuild reply =>
      refine ⟨hsetup.fdFactory.trans h.factory, ?_⟩
      rw [s.tasks_rebuild h.factory, ServiceState.expectedTasks_of_keeps
        s.calm_rebuildDetectors.quiet.view.keeps hsetup.myAddr]
  | alerts msg reply =>
      refine h.of_keeps hsetup (s.handleBatchedAlerts_keeps env msg) ?_
      rw [ServiceState.handleBatchedAlerts_frame env s msg]
  | announce msg reply fp hcmd hproposal hfp =>
      have htasks := tasks_announce s env msg hfp
      rcases s.announce_eq env msg hfp with ⟨broadcasts, delay, _, hpropose⟩
      rw [hpropose] at hsetup htasks ⊢
      exact h.of_keeps hsetup (s.handleBatchedAlerts_keeps env msg) htasks
  | consult fp called r => exact h.of_keeps hsetup (.refl _) rfl
  | decided fp called r proposal =>
      have hvoted : Monitors { s with fastPaxos := some r.1 } := ⟨h.factory, h.tasks⟩
      exact hvoted.decide env proposal
  | applied proposal reply => exact h.decide env proposal

omit [Xxh64] in
theorem taskless_handleTick (s : ServiceState) (now : Instant) :
    ∀ e ∈ (s.handleTick now).2, e.Taskless := by
  intro e he
  unfold ServiceState.handleTick at he
  split at he
  · cases he
  · split at he
    · cases he
    · split at he
      · cases he
      · dsimp only at he
        split at he
        · cases List.mem_singleton.1 he
          trivial
        · cases he

theorem taskless_handleBatchedAlerts (s : ServiceState) (env : Environment)
    (msg : BatchedAlertMessage) : ∀ e ∈ (s.handleBatchedAlerts env msg).1.2, e.Taskless := by
  intro e he
  unfold ServiceState.handleBatchedAlerts at he
  dsimp only at he
  split at he
  · cases he
  · split at he
    · cases he
    · dsimp only at he
      split at he
      · cases List.mem_singleton.1 he
        trivial
      · cases he

theorem retasks_handleBatchedAlerts (s : ServiceState) (env : Environment)
    (msg : BatchedAlertMessage) :
    Retasks s (s.handleBatchedAlerts env msg).1.2 (s.handleBatchedAlerts env msg).1.1 := by
  refine .idle (taskless_handleBatchedAlerts s env msg) ?_
  rw [ServiceState.handleBatchedAlerts_frame env s msg]

theorem InstanceCalled.taskless {fp : FastPaxos} {called : List Effect}
    {r : FastPaxos × List FastOutgoing} (h : InstanceCalled cmd fp called r) :
    ∀ e ∈ called, e.Taskless := by
  cases h with
  | message => exact fun e he => by cases he
  | classic =>
      intro e he
      cases List.mem_singleton.1 he
      trivial

theorem retasks_called (s : ServiceState) {fp : FastPaxos} {called : List Effect}
    {r : FastPaxos × List FastOutgoing} (h : InstanceCalled cmd fp called r) :
    Retasks s called { s with fastPaxos := some r.1 } :=
  .idle h.taskless rfl

/-- Replaying the effects of a piece gives the tasks after it. -/
theorem Piece.retasks (h : Piece env cmd s effects t) : Retasks s effects t := by
  cases h with
  | refresh => rfl
  | reply id answer => rfl
  | shutdown => rfl
  | initialView reply => rfl
  | park msg reply => rfl
  | failure ev => exact (tasks_handleEdgeFailure s env.now ev).symm
  | tick => exact .idle (taskless_handleTick s env.now) (tasks_handleTick s env.now)
  | rebuild reply => exact s.retasks_rebuild
  | alerts msg reply => exact retasks_handleBatchedAlerts s env msg
  | announce msg reply fp hcmd hproposal hfp =>
      have hinstance : (s.handleBatchedAlerts env msg).1.1.fastPaxos = some fp := by
        rw [ServiceState.handleBatchedAlerts_frame env s msg]
        exact hfp
      rw [ServiceState.propose_of_some hinstance]
      refine (retasks_handleBatchedAlerts s env msg).append ?_
      have hvoted : Retasks (s.handleBatchedAlerts env msg).1.1
          [.call (.propose (s.handleBatchedAlerts env msg).2)]
          { (s.handleBatchedAlerts env msg).1.1 with
            fastPaxos := some (fp.propose env.jitter (s.handleBatchedAlerts env msg).2).1 } := rfl
      exact hvoted.append (ServiceState.retasks_dispatch env _ _)
  | consult fp called r hfp hcall hsends =>
      have hdispatched := ServiceState.retasks_dispatch env r.2 { s with fastPaxos := some r.1 }
      rw [ServiceState.dispatch_sends hsends] at hdispatched
      exact (retasks_called s hcall).append hdispatched
  | decided fp called r proposal hfp hcall =>
      exact (retasks_called s hcall).append (ServiceState.retasks_decide _ env proposal)
  | applied proposal reply => exact s.retasks_decide env proposal

/-! ## Runs -/

/-- What runs, and what becomes of it. -/
structure DetectorsMatch (run : ServiceRun) : Prop where
  running : running run.trace [] = run.state.expectedTasks
  /-- A failure that a running task notices raises an alert on the rings of its subject. -/
  heard : ∀ task ∈ Rapid.running run.trace [], ∀ now, ∃ alert,
    (run.state.handleEdgeFailure now ⟨task.subject, task.configurationId⟩).sendQueue =
      run.state.sendQueue ++ [alert] ∧ alert.edgeDst = some task.subject ∧ alert.ringNumber ≠ []
  stopped : Rapid.running (run.trace ++ run.state.afterLoop.2) [] = []

theorem monitors_boots {outcome : Outcome} (h : Boots outcome) :
    running outcome.2 [] = outcome.1.failureDetectorTasks ∧ Monitors outcome.1 := by
  have hfinish : ∀ (listen : Endpoint) (settings : Settings) (view : MembershipView)
      (cutDetector : MultiNodeCutDetector) (metadata : MetadataManager),
      let outcome := ServiceState.finishCluster listen settings view cutDetector metadata
      running outcome.2 [] = outcome.1.failureDetectorTasks ∧ Monitors outcome.1 := by
    intro listen settings view cutDetector metadata
    have hattached : ∀ s : ServiceState, s.fdFactory = true → s.failureDetectorTasks = [] →
        running ([.call .newFastPaxos] ++ s.rebuildDetectors.2) [] =
            s.rebuildDetectors.1.failureDetectorTasks ∧ Monitors s.rebuildDetectors.1 := by
      intro s hfactory hnone
      have hretasks := s.retasks_rebuild
      unfold Retasks at hretasks
      rw [hnone] at hretasks
      refine ⟨hretasks, s.wired_rebuildDetectors.fdFactory.trans hfactory, ?_⟩
      rw [s.tasks_rebuild hfactory, ServiceState.expectedTasks_of_keeps
        s.calm_rebuildDetectors.quiet.view.keeps s.wired_rebuildDetectors.myAddr]
    exact hattached _ rfl rfl
  rcases h with ⟨settings, listen, own, nodeId, hstart⟩ | ⟨settings, listen, own, response, hjoin⟩
  · rcases ServiceState.built_of_ok hstart with ⟨view, detector, _, _, rfl⟩
    exact hfinish _ _ _ _ _
  · rcases ServiceState.built_of_ok hjoin with ⟨view, detector, _, _, rfl⟩
    exact hfinish _ _ _ _ _

/-- A subject of the actor has a ring. -/
theorem getRingNumbers_of_mem {v : MembershipView} {observer subject : Endpoint}
    {subjects : List Endpoint} (hsubjects : v.getSubjectsOf observer = .ok subjects)
    (hmem : subject ∈ subjects) : ∃ rings, v.getRingNumbers observer subject = .ok rings ∧ rings ≠ [] := by
  unfold MembershipView.getRingNumbers
  rw [hsubjects]
  cases subjects with
  | nil => cases hmem
  | cons first rest =>
      refine ⟨_, rfl, ?_⟩
      rcases List.mem_iff_getElem.1 hmem with ⟨i, hi, heq⟩
      have hzip : ((first :: rest)[i], i) ∈ (first :: rest).zipIdx :=
        List.mem_zipIdx_iff_getElem?.2 (List.getElem?_eq_getElem hi)
      have hring : i.toUInt8 ∈ (((first :: rest).zipIdx.filter fun p => p.1 = subject).map
          fun p => p.2.toUInt8) :=
        List.mem_map.2 ⟨_, List.mem_filter.2 ⟨hzip, decide_eq_true heq⟩, rfl⟩
      exact List.ne_nil_of_mem hring

theorem heard_of_expected {task : DetectorTask} (h : task ∈ s.expectedTasks) (now : Instant) :
    ∃ alert, (s.handleEdgeFailure now ⟨task.subject, task.configurationId⟩).sendQueue =
      s.sendQueue ++ [alert] ∧ alert.edgeDst = some task.subject ∧ alert.ringNumber ≠ [] := by
  rcases List.mem_map.1 h with ⟨subject, hsubject, rfl⟩
  have hsame := (MembershipView.Refreshes.current s.view).keeps.getSubjectsOf s.myAddr
  cases hsubjects : s.view.getSubjectsOf s.myAddr with
  | error err =>
      rw [hsubjects] at hsubject
      cases hsubject
  | ok subjects =>
      rw [hsubjects] at hsubject
      rcases getRingNumbers_of_mem (hsame.trans hsubjects) hsubject with ⟨rings, hrings, hne⟩
      unfold ServiceState.handleEdgeFailure
      dsimp only [ServiceState.configurationId]
      rw [if_neg (not_not.2 rfl), hrings]
      exact ⟨_, rfl, rfl, fun hnil => hne (List.map_eq_nil_iff.1 hnil)⟩

/-- At every point of a run the tasks that run are those of the current view. -/
theorem detectors_match {run : ServiceRun} (h : serviceSystem.Reachable run) : DetectorsMatch run := by
  have hruns : Rapid.running run.trace [] = run.state.failureDetectorTasks ∧ Monitors run.state := by
    refine serviceSystem_pieces (I := fun _ s trace =>
      Rapid.running trace [] = s.failureDetectorTasks ∧ Monitors s) (fun outcome => monitors_boots)
      (fun _ _ _ hI => hI) ?_ h
    rintro handled env cmd s es t trace _ ⟨hrunning, hmonitors⟩ hpiece
    refine ⟨?_, hmonitors.piece hpiece⟩
    rw [running_append, hrunning]
    exact hpiece.retasks
  rcases hruns with ⟨hrunning, hmonitors⟩
  have hexpected := hrunning.trans hmonitors.tasks
  refine ⟨hexpected, ?_, ?_⟩
  · intro task htask
    rw [hexpected] at htask
    exact heard_of_expected htask
  · rw [running_append, hrunning]
    exact run.state.retasks_cancel

end Detectors

/-! ### A member that leaves -/

section Sample

attribute [local instance] xxh64Reference

/-- Three members, one of which is removed. -/
def memberRemoved : Option ServiceRun :=
  sampleRun 3 1 [⟨1, 1⟩, ⟨2, 2⟩, ⟨3, 3⟩] [hostA, hostB, hostC] fun _ => [.applyProposal [hostC] 0]

theorem memberRemoved_facts :
    (memberRemoved.map fun run => (running run.trace []).map DetectorTask.subject) =
      some [hostB, hostB, hostB] := by
  decide +kernel

theorem memberRemoved_match :
    ∃ run, memberRemoved = some run ∧
      (running run.trace []).map DetectorTask.subject = [hostB, hostB, hostB] ∧ DetectorsMatch run := by
  rcases Option.map_eq_some_iff.1 memberRemoved_facts with ⟨run, hrun, hfacts⟩
  exact ⟨run, hrun, hfacts, detectors_match (sampleRun_reachable hrun)⟩

end Sample

end Rapid
