import Rapid.Service.Traffic

/-!
# Setup — what no command changes

The settings and the address of the actor stay what they were, and so do the collaborators that the
builder attached. Most pieces leave the alert queue alone as well.
-/

namespace Rapid

open Foundations

variable [Xxh64]

/-! ## What never changes -/

/-- The settings, the address and the collaborators that are attached. -/
structure SameSetup (s t : ServiceState) : Prop where
  settings : t.settings = s.settings
  myAddr : t.myAddr = s.myAddr
  broadcaster : t.broadcaster = s.broadcaster
  fdFactory : t.fdFactory = s.fdFactory
  consensusClient : t.consensusClient = s.consensusClient

/-- The alerts that wait, and since when. -/
structure SameQueue (s t : ServiceState) : Prop where
  sendQueue : t.sendQueue = s.sendQueue
  lastEnqueueAt : t.lastEnqueueAt = s.lastEnqueueAt

variable {s t u : ServiceState} {env : Environment} {cmd : ServiceCommand} {effects : List Effect}

omit [Xxh64] in
theorem SameSetup.refl (s : ServiceState) : SameSetup s s :=
  ⟨rfl, rfl, rfl, rfl, rfl⟩

omit [Xxh64] in
theorem SameSetup.trans (h : SameSetup s t) (h' : SameSetup t u) : SameSetup s u :=
  ⟨h'.settings.trans h.settings, h'.myAddr.trans h.myAddr, h'.broadcaster.trans h.broadcaster,
    h'.fdFactory.trans h.fdFactory, h'.consensusClient.trans h.consensusClient⟩

omit [Xxh64] in
theorem SameQueue.refl (s : ServiceState) : SameQueue s s :=
  ⟨rfl, rfl⟩

omit [Xxh64] in
theorem SameQueue.trans (h : SameQueue s t) (h' : SameQueue t u) : SameQueue s u :=
  ⟨h'.sendQueue.trans h.sendQueue, h'.lastEnqueueAt.trans h.lastEnqueueAt⟩

omit [Xxh64] in
theorem Wired.setup (h : Wired s t) : SameSetup s t :=
  ⟨h.settings, h.myAddr, h.broadcaster, h.fdFactory, h.consensusClient⟩

omit [Xxh64] in
theorem Wired.queue (h : Wired s t) : SameQueue s t :=
  ⟨h.sendQueue, h.lastEnqueueAt⟩

theorem wired_handleBatchedAlerts (s : ServiceState) (env : Environment) (msg : BatchedAlertMessage) :
    Wired s (s.handleBatchedAlerts env msg).1.1 := by
  rw [ServiceState.handleBatchedAlerts_frame env s msg]
  exact ⟨rfl, rfl, rfl, rfl, rfl, rfl, rfl, rfl⟩

theorem wired_announce (s : ServiceState) (env : Environment) (msg : BatchedAlertMessage)
    {fp : FastPaxos} (hfp : s.fastPaxos = some fp) :
    Wired s ((s.handleBatchedAlerts env msg).1.1.propose env (s.handleBatchedAlerts env msg).2).1 := by
  have hbatch := wired_handleBatchedAlerts s env msg
  rcases s.announce_eq env msg hfp with ⟨broadcasts, delay, _, hpropose⟩
  rw [hpropose]
  exact ⟨hbatch.settings, hbatch.myAddr, hbatch.sendQueue, hbatch.lastEnqueueAt, hbatch.broadcaster,
    hbatch.proposalTx, hbatch.fdFactory, hbatch.consensusClient⟩

theorem wired_decide_of (s : ServiceState) (fp : FastPaxos) (env : Environment)
    (proposal : List Endpoint) :
    Wired s (({ s with fastPaxos := some fp } : ServiceState).decideAndReplace env proposal).1 := by
  have hvoted : Wired s { s with fastPaxos := some fp } := ⟨rfl, rfl, rfl, rfl, rfl, rfl, rfl, rfl⟩
  exact hvoted.trans (ServiceState.wired_decide _ env proposal)

omit [Xxh64] in
theorem setup_handleTick (s : ServiceState) (now : Instant) : SameSetup s (s.handleTick now).1 := by
  unfold ServiceState.handleTick
  split
  · exact .refl s
  · split
    · exact .refl s
    · split
      · exact .refl s
      · exact ⟨rfl, rfl, rfl, rfl, rfl⟩

theorem setup_handleEdgeFailure (s : ServiceState) (now : Instant) (ev : EdgeFailure) :
    SameSetup s (s.handleEdgeFailure now ev) := by
  unfold ServiceState.handleEdgeFailure
  dsimp only
  split
  · exact ⟨rfl, rfl, rfl, rfl, rfl⟩
  · exact ⟨rfl, rfl, rfl, rfl, rfl⟩

/-- No piece attaches or detaches anything. -/
theorem Piece.setup (h : Piece env cmd s effects t) : SameSetup s t := by
  cases h with
  | refresh => exact ⟨rfl, rfl, rfl, rfl, rfl⟩
  | reply id answer => exact .refl s
  | shutdown => exact ⟨rfl, rfl, rfl, rfl, rfl⟩
  | initialView reply => exact ⟨rfl, rfl, rfl, rfl, rfl⟩
  | park msg reply => exact ⟨rfl, rfl, rfl, rfl, rfl⟩
  | failure ev => exact setup_handleEdgeFailure s env.now ev
  | tick => exact setup_handleTick s env.now
  | rebuild reply => exact s.wired_rebuildDetectors.setup
  | alerts msg reply => exact (wired_handleBatchedAlerts s env msg).setup
  | announce msg reply fp hcmd hproposal hfp => exact (wired_announce s env msg hfp).setup
  | consult fp called r => exact ⟨rfl, rfl, rfl, rfl, rfl⟩
  | decided fp called r proposal => exact (wired_decide_of s r.1 env proposal).setup
  | applied proposal reply => exact (s.wired_decide env proposal).setup

theorem setup_handleCommand (s : ServiceState) (env : Environment) (cmd : ServiceCommand) :
    SameSetup s (s.handleCommand env cmd).1.1 := by
  have hpieces : Pieces env cmd s (s.handleCommand env cmd).1.2 (s.handleCommand env cmd).1.1 :=
    s.pieces_handleCommand cmd
  exact hpieces.relates .refl (fun _ _ _ => .trans) fun _ _ _ hpiece => hpiece.setup

/-- The members are those of the view. -/
theorem memberlist_of_keeps (h : s.view.Keeps t.view) : t.memberlist = s.memberlist := by
  rw [ServiceState.memberlist_eq, ServiceState.memberlist_eq, h.ringZero]

end Rapid
