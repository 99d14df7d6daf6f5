import Rapid.Service.Moves

/-!
# ServiceSystem — the runs of the membership actor

A run starts as `ClusterBuilder::start` or `ClusterBuilder::join` leaves the actor and handles one
command after the other until `Shutdown`. Every reply channel is used for one command.
-/

namespace Rapid

open Foundations

variable [Xxh64]

/-! ## Booting -/

/-- The actor as the builder leaves it. -/
def Boots (outcome : Outcome) : Prop :=
  (∃ settings listen own nodeId, ServiceState.start settings listen own nodeId = .ok outcome) ∨
    ∃ settings listen own response, ServiceState.join settings listen own response = .ok outcome

/-- The actor around a view and a detector that have seen nothing yet. -/
structure Booted (view : MembershipView) (detector : MultiNodeCutDetector) (outcome : Outcome) :
    Prop where
  view : view.Refreshes outcome.1.view
  clean : outcome.1.view.currentConfigurationId.1 = outcome.1.view
  cutDetector : outcome.1.cutDetector = detector
  joinersToRespondTo : outcome.1.joinersToRespondTo = ∅
  joinerUuid : outcome.1.joinerUuid = ∅
  joinerMetadata : outcome.1.joinerMetadata = ∅
  lifecycle : outcome.1.lifecycle = .running
  fastPaxos : outcome.1.fastPaxos.isSome
  pendingFallback : outcome.1.pendingFallback = none
  timersSpawned : outcome.1.timersSpawned = 0
  effects : ∃ rest, (∀ e ∈ rest, e.Silent) ∧ outcome.2 = .call .newFastPaxos :: rest

namespace ServiceState

theorem finishCluster_booted (listen : Endpoint) (settings : Settings) (view : MembershipView)
    (cutDetector : MultiNodeCutDetector) (metadata : MetadataManager) :
    Booted view cutDetector (finishCluster listen settings view cutDetector metadata) := by
  have hcalm := calm_rebuildDetectors
    ({ ServiceState.new listen view cutDetector metadata settings with
        broadcaster := true
        fdFactory := true
        consensusClient := true } : ServiceState).reinstateFastPaxos.1
  have hquiet := hcalm.quiet
  have hclean := congrArg Prod.fst (MembershipView.currentConfigurationId_idem (v := view))
  have hview := hquiet.view.of_clean hclean
  exact ⟨(MembershipView.Refreshes.current _).trans hquiet.view, hview ▸ hclean,
    hquiet.cutDetector,
    hquiet.joinersToRespondTo, hquiet.joinerUuid, hquiet.joinerMetadata, hquiet.lifecycle,
    (congrArg Option.isSome hquiet.fastPaxos).trans rfl, hquiet.pendingFallback,
    hquiet.timersSpawned, _, hcalm.silent, rfl⟩

/-- However the builder boots: a view and a detector are built, and the actor is set up around them. -/
theorem built_of_ok {settings : Settings} {identifiers : List NodeId} {endpoints : List Endpoint}
    {finish : MembershipView → MultiNodeCutDetector → Outcome} {outcome : Outcome}
    (h : (do
      let view ← MembershipView.bootstrap settings.k identifiers endpoints
      let cutDetector ← MultiNodeCutDetector.new settings.k settings.h settings.l
      return finish view cutDetector : Except Error Outcome) = .ok outcome) :
    ∃ view detector, MembershipView.bootstrap settings.k identifiers endpoints = .ok view ∧
      MultiNodeCutDetector.new settings.k settings.h settings.l = .ok detector ∧
      outcome = finish view detector := by
  cases hview : MembershipView.bootstrap settings.k identifiers endpoints with
  | error err =>
      rw [hview] at h
      cases h
  | ok view =>
      rw [hview] at h
      cases hdetector : MultiNodeCutDetector.new settings.k settings.h settings.l with
      | error err =>
          rw [hdetector] at h
          cases h
      | ok detector =>
          rw [hdetector] at h
          cases h
          exact ⟨view, detector, rfl, rfl, rfl⟩

theorem join_booted {settings : Settings} {listen : Endpoint} {own : Metadata}
    {response : JoinResponse} {outcome : Outcome}
    (h : join settings listen own response = .ok outcome) :
    ∃ view detector, MembershipView.bootstrap settings.k response.identifiers response.endpoints =
        .ok view ∧
      MultiNodeCutDetector.new settings.k settings.h settings.l = .ok detector ∧
      Booted view detector outcome := by
  rcases built_of_ok h with ⟨view, detector, hview, hdetector, rfl⟩
  exact ⟨view, detector, hview, hdetector, finishCluster_booted _ _ _ _ _⟩

theorem start_booted {settings : Settings} {listen : Endpoint} {own : Metadata} {nodeId : NodeId}
    {outcome : Outcome} (h : start settings listen own nodeId = .ok outcome) :
    ∃ view detector, MembershipView.bootstrap settings.k [nodeId] [listen] = .ok view ∧
      MultiNodeCutDetector.new settings.k settings.h settings.l = .ok detector ∧
      Booted view detector outcome := by
  rcases built_of_ok h with ⟨view, detector, hview, hdetector, rfl⟩
  exact ⟨view, detector, hview, hdetector, finishCluster_booted _ _ _ _ _⟩

end ServiceState

theorem Boots.booted {outcome : Outcome} (h : Boots outcome) :
    ∃ k identifiers endpoints view kd hd ld detector,
      MembershipView.bootstrap k identifiers endpoints = .ok view ∧
      MultiNodeCutDetector.new kd hd ld = .ok detector ∧ Booted view detector outcome := by
  rcases h with ⟨settings, listen, own, nodeId, hstart⟩ | ⟨settings, listen, own, response, hjoin⟩
  · rcases ServiceState.start_booted hstart with ⟨view, detector, hview, hdetector, hbooted⟩
    exact ⟨_, _, _, view, _, _, _, detector, hview, hdetector, hbooted⟩
  · rcases ServiceState.join_booted hjoin with ⟨view, detector, hview, hdetector, hbooted⟩
    exact ⟨_, _, _, view, _, _, _, detector, hview, hdetector, hbooted⟩

/-- A small cluster is a joined actor. -/
theorem sampleCluster_boots {h l : UInt8} {identifiers : List NodeId} {endpoints : List Endpoint}
    {state : ServiceState}
    (hstate : ServiceState.sampleCluster h l identifiers endpoints = some state) :
    ∃ effects view detector, Boots (state, effects) ∧ Booted view detector (state, effects) ∧
      MembershipView.bootstrap 3 identifiers endpoints = .ok view ∧
      MultiNodeCutDetector.new 3 h l = .ok detector := by
  rcases Option.map_eq_some_iff.1 hstate with ⟨outcome, houtcome, rfl⟩
  have hjoin := eq_ok_of_toOption houtcome
  rcases ServiceState.join_booted hjoin with ⟨view, detector, hview, hdetector, hbooted⟩
  exact ⟨outcome.2, view, detector, .inr ⟨_, _, _, _, hjoin⟩, hbooted, hview, hdetector⟩

/-! ## Runs -/

def ServiceCommand.reply? : ServiceCommand → Option ReplyId
  | .request _ reply => some reply
  | .memberlist reply => some reply
  | .membershipSize reply => some reply
  | .metadata reply => some reply
  | .configurationId reply => some reply
  | .shutdown => none
  | .tickAlertBatcher => none
  | .edgeFailure _ => none
  | .rebuildFailureDetectors reply => some reply
  | .alertQueueLen reply => some reply
  | .applyProposal _ reply => some reply
  | .startClassicRound => none
  | .publishInitialView reply => some reply

/-- The actor together with all it has done so far. -/
structure ServiceRun where
  state : ServiceState
  trace : List Effect
  handled : List ServiceCommand
  stopped : Bool

namespace ServiceRun

variable (run : ServiceRun)

/-- No reply channel belongs to two commands. -/
def fresh (cmd : ServiceCommand) : Bool :=
  cmd.reply?.all fun reply => run.handled.all fun old => old.reply? ≠ some reply

/-- The effects of handling a command in this state. -/
def effects (env : Environment) (cmd : ServiceCommand) : List Effect :=
  (run.state.handleCommand env cmd).1.2

def next (env : Environment) (cmd : ServiceCommand) : ServiceRun where
  state := (run.state.handleCommand env cmd).1.1
  trace := run.trace ++ run.effects env cmd
  handled := run.handled ++ [cmd]
  stopped := (run.state.handleCommand env cmd).2

end ServiceRun

def serviceSystem : System ServiceRun (Environment × ServiceCommand) where
  init run := ∃ outcome, Boots outcome ∧ run = ⟨outcome.1, outcome.2, [], false⟩
  step run a :=
    if !run.stopped && run.fresh a.2 then some (run.next a.1 a.2) else none

/-- The invariant rule for runs: facts about the commands handled so far, the state and the trace
need to be checked at boot, when a command arrives, for each move and for each decision. -/
theorem serviceSystem_invariant
    {I : List ServiceCommand → ServiceState → List Effect → Prop} {ok : Effect → Prop}
    {guard : ServiceRun → Environment × ServiceCommand → Prop}
    (hguard : ∀ (run : ServiceRun) a, guard run a → ∀ e ∈ run.effects a.1 a.2, ok e)
    (hboot : ∀ outcome, Boots outcome → I [] outcome.1 outcome.2)
    (harrive : ∀ (run : ServiceRun) cmd, run.fresh cmd = true → I run.handled run.state run.trace →
      I (run.handled ++ [cmd]) run.state run.trace)
    (hmove : ∀ handled env cmd s es t trace, cmd ∈ handled → I handled s trace →
      (∀ e ∈ es, ok e) → Move env cmd s es t → I handled t (trace ++ es))
    (hdecide : ∀ handled env s proposal trace, I handled s trace →
      (∀ e ∈ (s.decideAndReplace env proposal).2, ok e) →
        I handled (s.decideAndReplace env proposal).1
          (trace ++ (s.decideAndReplace env proposal).2))
    {run : ServiceRun} (h : serviceSystem.Reaches guard run) :
    I run.handled run.state run.trace := by
  refine h.invariant (I := fun run => I run.handled run.state run.trace) ?_ ?_
  · rintro run ⟨outcome, hbooted, rfl⟩
    exact hboot outcome hbooted
  · rintro run ⟨env, cmd⟩ run' _ hI hok hstep
    simp only [serviceSystem] at hstep
    split at hstep
    · rename_i hready
      cases hstep
      -- The actor takes a command only where its reply id is unused.
      have hfresh : run.fresh cmd = true := (Bool.and_eq_true_iff.1 hready).2
      have harrived := harrive run cmd hfresh hI
      exact (ServiceState.handleCommand_act run.state).invariant
        (fun s es t trace => hmove _ env cmd s es t trace (List.mem_append_right _ List.mem_cons_self))
        (fun s proposal trace => hdecide _ env s proposal trace)
        (hguard run (env, cmd) hok) harrived
    · cases hstep

/-! ### Runs of small clusters -/

/-- A run of a small cluster; the commands may mention what the actor starts from. -/
def sampleRun (h l : UInt8) (identifiers : List NodeId) (endpoints : List Endpoint)
    (commands : ServiceState → List ServiceCommand) : Option ServiceRun :=
  (ServiceState.sampleJoin h l identifiers endpoints).toOption.bind fun outcome =>
    serviceSystem.exec ⟨outcome.1, outcome.2, [], false⟩
      ((commands outcome.1).map fun cmd => (ServiceState.sampleEnvironment, cmd))

theorem sampleRun_reachable {h l : UInt8} {identifiers : List NodeId} {endpoints : List Endpoint}
    {commands : ServiceState → List ServiceCommand} {run : ServiceRun}
    (hrun : sampleRun h l identifiers endpoints commands = some run) :
    serviceSystem.Reachable run := by
  rcases Option.bind_eq_some_iff.1 hrun with ⟨outcome, houtcome, hexec⟩
  have hboots : Boots outcome := .inr ⟨_, _, _, _, eq_ok_of_toOption houtcome⟩
  have hstart : serviceSystem.Reachable ⟨outcome.1, outcome.2, [], false⟩ :=
    .start ⟨outcome, hboots, rfl⟩
  exact hstart.exec hexec

def Effect.decision? : Effect → Option (ServiceState × List Endpoint)
  | .call (.decideViewChange state proposal) => some (state, proposal)
  | _ => none

def Effect.joinResponse? : Effect → Option (ReplyId × JoinResponse)
  | .reply id (.response (.ok ⟨some (.joinResponse response)⟩)) => some (id, response)
  | _ => none

omit [Xxh64] in
theorem mem_decisions {effects : List Effect} {state : ServiceState} {proposal : List Endpoint} :
    (state, proposal) ∈ effects.filterMap Effect.decision? ↔
      .call (.decideViewChange state proposal) ∈ effects := by
  rw [List.mem_filterMap]
  constructor
  · rintro ⟨e, he, heq⟩
    unfold Effect.decision? at heq
    split at heq
    · cases heq
      exact he
    · cases heq
  · exact fun h => ⟨_, h, rfl⟩

omit [Xxh64] in
theorem mem_joinResponses {effects : List Effect} {id : ReplyId} {response : JoinResponse} :
    (id, response) ∈ effects.filterMap Effect.joinResponse? ↔
      .reply id (ServiceState.joinReply response) ∈ effects := by
  rw [List.mem_filterMap]
  constructor
  · rintro ⟨e, he, heq⟩
    unfold Effect.joinResponse? at heq
    split at heq
    · cases heq
      exact he
    · cases heq
  · exact fun h => ⟨_, h, rfl⟩

/-- The command decides nothing. -/
def Undecided (run : ServiceRun) (a : Environment × ServiceCommand) : Prop :=
  ((run.effects a.1 a.2).filterMap Effect.decision?).isEmpty = true

instance (run : ServiceRun) (a : Environment × ServiceCommand) : Decidable (Undecided run a) :=
  inferInstanceAs (Decidable (_ = true))

theorem Undecided.not_mem {run : ServiceRun} {a : Environment × ServiceCommand}
    (h : Undecided run a) (state : ServiceState) (proposal : List Endpoint) :
    .call (.decideViewChange state proposal) ∉ run.effects a.1 a.2 := by
  intro hcall
  rw [← mem_decisions, List.isEmpty_iff.1 h] at hcall
  cases hcall

/-- A run of a small cluster, refused where a step breaks the guard. -/
def sampleRunWhile (ok : ServiceRun → Environment × ServiceCommand → Prop)
    [∀ run a, Decidable (ok run a)] (h l : UInt8) (identifiers : List NodeId)
    (endpoints : List Endpoint) (commands : ServiceState → List ServiceCommand) :
    Option ServiceRun :=
  (ServiceState.sampleJoin h l identifiers endpoints).toOption.bind fun outcome =>
    serviceSystem.execWhile ok ⟨outcome.1, outcome.2, [], false⟩
      ((commands outcome.1).map fun cmd => (ServiceState.sampleEnvironment, cmd))

theorem sampleRunWhile_reaches {ok : ServiceRun → Environment × ServiceCommand → Prop}
    [∀ run a, Decidable (ok run a)] {h l : UInt8} {identifiers : List NodeId}
    {endpoints : List Endpoint} {commands : ServiceState → List ServiceCommand} {run : ServiceRun}
    (hrun : sampleRunWhile ok h l identifiers endpoints commands = some run) :
    serviceSystem.Reaches ok run := by
  rcases Option.bind_eq_some_iff.1 hrun with ⟨outcome, houtcome, hexec⟩
  have hboots : Boots outcome := .inr ⟨_, _, _, _, eq_ok_of_toOption houtcome⟩
  have hstart : serviceSystem.Reaches ok ⟨outcome.1, outcome.2, [], false⟩ :=
    .start ⟨outcome, hboots, rfl⟩
  exact hstart.execWhile hexec

/-- A run of a small cluster in which nothing is decided. -/
def sampleUndecided (h l : UInt8) (identifiers : List NodeId) (endpoints : List Endpoint)
    (commands : ServiceState → List ServiceCommand) : Option ServiceRun :=
  (ServiceState.sampleJoin h l identifiers endpoints).toOption.bind fun outcome =>
    serviceSystem.execWhile Undecided ⟨outcome.1, outcome.2, [], false⟩
      ((commands outcome.1).map fun cmd => (ServiceState.sampleEnvironment, cmd))

theorem sampleUndecided_reaches {h l : UInt8} {identifiers : List NodeId}
    {endpoints : List Endpoint} {commands : ServiceState → List ServiceCommand} {run : ServiceRun}
    (hrun : sampleUndecided h l identifiers endpoints commands = some run) :
    serviceSystem.Reaches Undecided run := by
  have hguarded : sampleRunWhile Undecided h l identifiers endpoints commands = some run := hrun
  exact sampleRunWhile_reaches hguarded

end Rapid
