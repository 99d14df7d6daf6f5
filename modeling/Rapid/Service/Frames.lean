import Rapid.Service.ViewChange
import Rapid.View.ViewInvariant

/-!
# Frames — what the handlers leave alone

Most handlers only refresh the cached configuration id, touch the alert queue or the detector
tasks, and answer. They are `Quiet`: consensus, timers, cut detector, joiner tables and metadata
stay as they are.
-/

namespace Rapid

open Foundations

variable [Xxh64]

/-! ## Refreshing the configuration id -/

namespace MembershipView

variable {v w u : MembershipView}

/-- `w` is `v`, possibly with its configuration id brought up to date. -/
def Refreshes (v w : MembershipView) : Prop :=
  w = v ∨ w = v.currentConfigurationId.1

theorem currentConfigurationId_idem :
    v.currentConfigurationId.1.currentConfigurationId = v.currentConfigurationId := by
  unfold currentConfigurationId
  dsimp only
  split
  · rfl
  · rfl

theorem Refreshes.refl (v : MembershipView) : v.Refreshes v :=
  .inl rfl

theorem Refreshes.current (v : MembershipView) : v.Refreshes v.currentConfigurationId.1 :=
  .inr rfl

theorem Refreshes.trans (h : v.Refreshes w) (h' : w.Refreshes u) : v.Refreshes u := by
  rcases h with rfl | rfl
  · exact h'
  · rcases h' with rfl | rfl
    · exact .inr rfl
    · exact .inr (congrArg Prod.fst currentConfigurationId_idem)

/-- A view whose configuration id is up to date stays as it is. -/
theorem Refreshes.of_clean (h : v.Refreshes w) (hclean : v.currentConfigurationId.1 = v) : w = v := by
  rcases h with rfl | rfl
  · rfl
  · exact hclean

/-- A refreshed view shows what the view showed. -/
structure Shows (v w : MembershipView) : Prop where
  k : w.k = v.k
  rings : w.rings = v.rings
  identifiers : w.identifiers = v.identifiers
  identifierObjs : w.identifierObjs = v.identifierObjs
  allNodes : w.allNodes = v.allNodes
  cachedObservers : w.cachedObservers = v.cachedObservers
  configurationId : w.currentConfigurationId.2 = v.currentConfigurationId.2

theorem shows_current : v.Shows v.currentConfigurationId.1 := by
  have hid := congrArg Prod.snd (currentConfigurationId_idem (v := v))
  rcases v.currentConfigurationId_cases with ⟨_, hfresh⟩ | ⟨_, hsame⟩
  · exact ⟨by rw [hfresh]; rfl, by rw [hfresh]; rfl, by rw [hfresh]; rfl, by rw [hfresh]; rfl,
      by rw [hfresh]; rfl, by rw [hfresh]; rfl, hid⟩
  · exact ⟨by rw [hsame], by rw [hsame], by rw [hsame], by rw [hsame], by rw [hsame],
      by rw [hsame], hid⟩

theorem Refreshes.shows (h : v.Refreshes w) : v.Shows w := by
  rcases h with rfl | rfl
  · exact ⟨rfl, rfl, rfl, rfl, rfl, rfl, rfl⟩
  · exact shows_current

theorem Refreshes.valid (h : v.Refreshes w) (hv : v.Valid) : w.Valid := by
  rcases h with rfl | rfl
  · exact hv
  · exact hv.currentConfigurationId

end MembershipView

/-! ## Quiet changes -/

/-- Only the cached configuration id, the alert queue and the detector tasks may have changed. -/
structure Quiet (s s' : ServiceState) : Prop where
  settings : s'.settings = s.settings
  myAddr : s'.myAddr = s.myAddr
  view : s.view.Refreshes s'.view
  cutDetector : s'.cutDetector = s.cutDetector
  metadata : s'.metadata = s.metadata
  joinersToRespondTo : s'.joinersToRespondTo = s.joinersToRespondTo
  joinerUuid : s'.joinerUuid = s.joinerUuid
  joinerMetadata : s'.joinerMetadata = s.joinerMetadata
  lifecycle : s'.lifecycle = s.lifecycle
  fastPaxos : s'.fastPaxos = s.fastPaxos
  pendingFallback : s'.pendingFallback = s.pendingFallback
  timersSpawned : s'.timersSpawned = s.timersSpawned

/-- Effects that no property of consensus, timers, joins or subscribers is about. -/
def Effect.Silent : Effect → Prop
  | .call _ => False
  | .publish .viewChange _ => False
  | .spawnFallback _ _ => False
  | .abortFallback _ => False
  | .reply _ (.response (.ok ⟨some (.joinResponse _)⟩)) => False
  | _ => True

variable {s t u : ServiceState}

theorem Quiet.refl (s : ServiceState) : Quiet s s :=
  ⟨rfl, rfl, .refl _, rfl, rfl, rfl, rfl, rfl, rfl, rfl, rfl, rfl⟩

theorem Quiet.trans (h : Quiet s t) (h' : Quiet t u) : Quiet s u :=
  ⟨h'.settings.trans h.settings, h'.myAddr.trans h.myAddr, h.view.trans h'.view,
    h'.cutDetector.trans h.cutDetector, h'.metadata.trans h.metadata,
    h'.joinersToRespondTo.trans h.joinersToRespondTo, h'.joinerUuid.trans h.joinerUuid,
    h'.joinerMetadata.trans h.joinerMetadata, h'.lifecycle.trans h.lifecycle,
    h'.fastPaxos.trans h.fastPaxos, h'.pendingFallback.trans h.pendingFallback,
    h'.timersSpawned.trans h.timersSpawned⟩

/-- A change of the fields that `Quiet` does not mention. -/
theorem Quiet.touch (h : Quiet s t) (sendQueue : List AlertMessage)
    (lastEnqueueAt : Option Instant) (tasks : List DetectorTask) :
    Quiet s { t with
      sendQueue := sendQueue
      lastEnqueueAt := lastEnqueueAt
      failureDetectorTasks := tasks } :=
  ⟨h.settings, h.myAddr, h.view, h.cutDetector, h.metadata, h.joinersToRespondTo, h.joinerUuid,
    h.joinerMetadata, h.lifecycle, h.fastPaxos, h.pendingFallback, h.timersSpawned⟩

namespace ServiceState

variable (state : ServiceState)

theorem quiet_configurationId : Quiet state state.configurationId.1 :=
  ⟨rfl, rfl, .current _, rfl, rfl, rfl, rfl, rfl, rfl, rfl, rfl, rfl⟩

theorem quiet_enqueueAlert (now : Instant) (alert : AlertMessage) :
    Quiet state (state.enqueueAlert now alert) :=
  (Quiet.refl state).touch _ _ _

theorem quiet_handleEdgeFailure (now : Instant) (ev : EdgeFailure) :
    Quiet state (state.handleEdgeFailure now ev) := by
  unfold handleEdgeFailure
  dsimp only
  split
  · exact state.quiet_configurationId
  · exact state.quiet_configurationId.trans (quiet_enqueueAlert _ _ _)

theorem quiet_handlePreJoin (msg : PreJoinMessage) : Quiet state (state.handlePreJoin msg).1 :=
  state.quiet_configurationId

theorem quiet_buildConfigMismatchResponse (order : HashOrder EndpointKey) (sender : Endpoint)
    (nodeId : NodeId) : Quiet state (state.buildConfigMismatchResponse order sender nodeId).1 := by
  unfold buildConfigMismatchResponse
  dsimp only
  split
  · exact state.quiet_configurationId
  · exact state.quiet_configurationId

theorem quiet_publishInitialView (env : Environment) :
    Quiet state (state.publishInitialView env).1 :=
  state.quiet_configurationId

/-- A join request touches the joiner tables, the alert queue and the cached configuration id, and is
answered at most. -/
structure Parks (state : ServiceState) (outcome : Outcome) : Prop where
  view : state.view.Refreshes outcome.1.view
  cutDetector : outcome.1.cutDetector = state.cutDetector
  metadata : outcome.1.metadata = state.metadata
  lifecycle : outcome.1.lifecycle = state.lifecycle
  pendingFallback : outcome.1.pendingFallback = state.pendingFallback
  timersSpawned : outcome.1.timersSpawned = state.timersSpawned
  effects : outcome.2 = [] ∨ ∃ id answer, outcome.2 = [.reply id answer]

theorem handleJoin_parks (env : Environment) (msg : JoinMessage) (reply : ReplyId) :
    Parks state (state.handleJoin env msg reply) := by
  unfold handleJoin
  dsimp only
  split
  · exact ⟨.current _, rfl, rfl, rfl, rfl, rfl, .inl rfl⟩
  · have hquiet := state.quiet_configurationId.trans (quiet_buildConfigMismatchResponse
      state.configurationId.1 env.metadataOrder (msg.sender.getD default) (msg.nodeId.getD default))
    exact ⟨hquiet.view, hquiet.cutDetector, hquiet.metadata, hquiet.lifecycle, hquiet.pendingFallback,
      hquiet.timersSpawned, .inr ⟨_, _, rfl⟩⟩

/-! ### Handlers with silent effects -/

/-- A quiet handler whose effects are silent. -/
structure Calm (state : ServiceState) (outcome : Outcome) : Prop where
  quiet : Quiet state outcome.1
  silent : ∀ e ∈ outcome.2, e.Silent

variable {state}

theorem Calm.stay {effects : List Effect} (h : ∀ e ∈ effects, e.Silent) :
    Calm state (state, effects) :=
  ⟨.refl state, h⟩

theorem Calm.andThen {outcome : Outcome} {next : ServiceState → Outcome} (h : Calm state outcome)
    (h' : Calm outcome.1 (next outcome.1)) : Calm state (outcome.andThen next) := by
  refine ⟨h.quiet.trans h'.quiet, ?_⟩
  intro e he
  rcases List.mem_append.1 he with hfirst | hnext
  · exact h.silent e hfirst
  · exact h'.silent e hnext

variable (state)

theorem calm_cancelFailureDetectors : Calm state state.cancelFailureDetectors := by
  refine ⟨(Quiet.refl state).touch _ _ _, ?_⟩
  intro e he
  rcases List.mem_map.1 he with ⟨task, _, rfl⟩
  trivial

theorem calm_spawnDetectors : Calm state state.spawnDetectors := by
  unfold spawnDetectors
  split
  · dsimp only
    split
    · exact ⟨state.quiet_configurationId, fun e he => by cases he⟩
    · refine ⟨state.quiet_configurationId.touch _ _ _, ?_⟩
      intro e he
      rcases List.mem_map.1 he with ⟨task, _, rfl⟩
      trivial
  · exact .stay fun e he => by cases he

theorem calm_rebuildDetectors : Calm state state.rebuildDetectors :=
  state.calm_cancelFailureDetectors.andThen (calm_spawnDetectors _)

theorem calm_handleTick (now : Instant) : Calm state (state.handleTick now) := by
  have hidle : Calm state (state, []) := .stay fun e he => by cases he
  unfold handleTick
  split
  · exact hidle
  · split
    · exact hidle
    · split
      · exact hidle
      · dsimp only
        refine ⟨(Quiet.refl state).touch _ _ _, ?_⟩
        intro e he
        split at he
        · cases List.mem_singleton.1 he
          trivial
        · cases he

end ServiceState

end Rapid
