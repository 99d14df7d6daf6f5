import Rapid.Service.Setup
import Rapid.Foundations.Debounce

/-!
# AlertQueue — every alert is broadcast once, in order, after a quiet window

Joins, leaves and failure notifications raise alerts; a tick of the batcher broadcasts all that are
waiting, once the last one is older than the window. The queue of the actor with `lastEnqueueAt` is
a `Debounced` queue.
-/

namespace Rapid

open Foundations

section AlertQueue

variable [Xxh64]

variable {s t : ServiceState} {env : Environment} {cmd : ServiceCommand} {effects : List Effect}

/-! ## Which command does what to the queue -/

namespace ServiceCommand

/-- Only these commands can raise an alert. -/
def MayRaise : ServiceCommand → Prop
  | .edgeFailure _ => True
  | .request ⟨some (.joinMessage _)⟩ _ => True
  | .request ⟨some (.leaveMessage _)⟩ _ => True
  | _ => False

end ServiceCommand

/-- The batches of alerts among the effects. -/
def Effect.batch? : Effect → Option BatchedAlertMessage
  | .broadcast ⟨some (.batchedAlertMessage batch)⟩ => some batch
  | _ => none

def batches (effects : List Effect) : List BatchedAlertMessage :=
  effects.filterMap Effect.batch?

omit [Xxh64] in
theorem batches_eq_nil (h : ∀ batch, .broadcast ⟨some (.batchedAlertMessage batch)⟩ ∉ effects) :
    batches effects = [] := by
  refine List.filterMap_eq_nil_iff.2 fun e he => ?_
  unfold Effect.batch?
  split
  · rename_i batch
    exact absurd he (h batch)
  · rfl

/-- Other pieces leave the queue alone. -/
theorem Piece.queue (h : Piece env cmd s effects t) (htick : cmd ≠ .tickAlertBatcher)
    (hraise : ¬ cmd.MayRaise) : SameQueue s t := by
  cases h with
  | refresh => exact ⟨rfl, rfl⟩
  | reply id answer => exact .refl s
  | shutdown => exact ⟨rfl, rfl⟩
  | initialView reply => exact ⟨rfl, rfl⟩
  | park msg reply hcmd =>
      subst hcmd
      exact absurd trivial hraise
  | failure ev hreports =>
      cases hreports with
      | notified _ hcmd =>
          subst hcmd
          exact absurd trivial hraise
      | left msg reply sender hcmd hsender =>
          subst hcmd
          exact absurd trivial hraise
  | tick hcmd => exact absurd hcmd htick
  | rebuild reply => exact s.wired_rebuildDetectors.queue
  | alerts msg reply => exact (wired_handleBatchedAlerts s env msg).queue
  | announce msg reply fp hcmd hproposal hfp => exact (wired_announce s env msg hfp).queue
  | consult fp called r => exact ⟨rfl, rfl⟩
  | decided fp called r proposal => exact (wired_decide_of s r.1 env proposal).queue
  | applied proposal reply => exact (s.wired_decide env proposal).queue

theorem queue_handleCommand (htick : cmd ≠ .tickAlertBatcher) (hraise : ¬ cmd.MayRaise)
    (s : ServiceState) (env : Environment) : SameQueue s (s.handleCommand env cmd).1.1 := by
  have hpieces : Pieces env cmd s (s.handleCommand env cmd).1.2 (s.handleCommand env cmd).1.1 :=
    s.pieces_handleCommand cmd
  exact hpieces.relates .refl (fun _ _ _ => .trans) fun _ _ _ hpiece => hpiece.queue htick hraise

/-- Only a tick broadcasts a batch. -/
theorem batches_handleCommand (htick : cmd ≠ .tickAlertBatcher) (s : ServiceState)
    (env : Environment) : batches (s.handleCommand env cmd).1.2 = [] := by
  have hpieces : Pieces env cmd s (s.handleCommand env cmd).1.2 (s.handleCommand env cmd).1.1 :=
    s.pieces_handleCommand cmd
  refine batches_eq_nil fun batch hbatch => ?_
  refine hpieces.all_effects (P := fun e => e ≠ .broadcast ⟨some (.batchedAlertMessage batch)⟩) ?_
    _ hbatch rfl
  intro t es u hpiece e he hbroadcast
  have hsent : (⟨some (.batchedAlertMessage batch)⟩ : RapidRequest) ∈ sent es :=
    List.mem_filterMap.2 ⟨e, he, by rw [hbroadcast]; rfl⟩
  rcases (hpiece.sentBecause hsent).consensus with ⟨hcmd, _⟩ | hconsensus
  · exact htick hcmd
  · cases hconsensus

/-! ## Raised alerts -/

namespace ServiceState

/-- The alert that a failure raises, if it is one of the current configuration. -/
def failureAlerts (s : ServiceState) (ev : EdgeFailure) : List AlertMessage :=
  if ev.configurationId ≠ s.view.currentConfigurationId.2 then []
  else
    [{ edgeSrc := some s.myAddr
       edgeDst := some ev.subject
       edgeStatus := EdgeStatus.down.toInt32
       configurationId := s.view.currentConfigurationId.2
       ringNumber := ((s.view.currentConfigurationId.1.getRingNumbers s.myAddr ev.subject).toOption.getD
         []).map fun ring => Int32.ofNat ring.toNat
       nodeId := none
       metadata := none }]

/-- The alert that a parked joiner raises. -/
def joinAlerts (s : ServiceState) (msg : JoinMessage) : List AlertMessage :=
  if s.view.currentConfigurationId.2 = msg.configurationId then
    [{ edgeSrc := some s.myAddr
       edgeDst := some (msg.sender.getD default)
       edgeStatus := EdgeStatus.up.toInt32
       configurationId := s.view.currentConfigurationId.2
       ringNumber := msg.ringNumber
       nodeId := some (msg.nodeId.getD default)
       metadata := msg.metadata }]
  else []

/-- The alerts that handling a command raises: at most one. -/
def raises (s : ServiceState) : ServiceCommand → List AlertMessage
  | .edgeFailure ev => s.failureAlerts ev
  | .request ⟨some (.joinMessage msg)⟩ _ =>
      if s.lifecycle = .shuttingDown then [] else s.joinAlerts msg
  | .request ⟨some (.leaveMessage msg)⟩ _ =>
      if s.lifecycle = .shuttingDown then []
      else msg.sender.toList.flatMap fun sender =>
        s.failureAlerts ⟨sender, s.view.currentConfigurationId.2⟩
  | _ => []

theorem raises_of_not {cmd : ServiceCommand} (h : ¬ cmd.MayRaise) (s : ServiceState) :
    s.raises cmd = [] := by
  unfold raises
  split
  · exact absurd trivial h
  · exact absurd trivial h
  · exact absurd trivial h
  · rfl

end ServiceState

/-- The alerts were added to the queue. -/
structure Enqueued (now : Instant) (alerts : List AlertMessage) (s t : ServiceState) : Prop where
  sendQueue : t.sendQueue = s.sendQueue ++ alerts
  lastEnqueueAt : t.lastEnqueueAt = if alerts = [] then s.lastEnqueueAt else some now

omit [Xxh64] in
theorem SameQueue.enqueued (h : SameQueue s t) (now : Instant) : Enqueued now [] s t := by
  refine ⟨?_, ?_⟩
  · rw [List.append_nil]
    exact h.sendQueue
  · rw [if_pos rfl]
    exact h.lastEnqueueAt

theorem enqueue_handleEdgeFailure (s : ServiceState) (now : Instant) (ev : EdgeFailure) :
    Enqueued now (s.failureAlerts ev) s (s.handleEdgeFailure now ev) := by
  unfold ServiceState.handleEdgeFailure ServiceState.failureAlerts
  dsimp only [ServiceState.configurationId]
  split
  · have hsame : SameQueue s s.configurationId.1 := ⟨rfl, rfl⟩
    exact hsame.enqueued now
  · exact ⟨rfl, rfl⟩

theorem enqueue_handleJoin (s : ServiceState) (env : Environment) (msg : JoinMessage)
    (reply : ReplyId) : Enqueued env.now (s.joinAlerts msg) s (s.handleJoin env msg reply).1 := by
  unfold ServiceState.handleJoin ServiceState.joinAlerts
  dsimp only [ServiceState.configurationId]
  split
  · exact ⟨rfl, rfl⟩
  · refine SameQueue.enqueued ?_ env.now
    unfold ServiceState.buildConfigMismatchResponse
    dsimp only
    split
    · exact ⟨rfl, rfl⟩
    · exact ⟨rfl, rfl⟩

/-- Leaving is a failure of the current configuration. -/
theorem enqueued_leave (s : ServiceState) (now : Instant) (sender : Endpoint) :
    Enqueued now (s.failureAlerts ⟨sender, s.view.currentConfigurationId.2⟩) s
      (s.configurationId.1.handleEdgeFailure now ⟨sender, s.configurationId.2⟩) := by
  have hidem : s.view.currentConfigurationId.1.currentConfigurationId = s.view.currentConfigurationId :=
    MembershipView.currentConfigurationId_idem
  have hsame : s.configurationId.1.failureAlerts ⟨sender, s.configurationId.2⟩ =
      s.failureAlerts ⟨sender, s.view.currentConfigurationId.2⟩ := by
    unfold ServiceState.failureAlerts
    simp only [ServiceState.configurationId, hidem]
  have henqueued := enqueue_handleEdgeFailure s.configurationId.1 now ⟨sender, s.configurationId.2⟩
  rw [hsame] at henqueued
  exact ⟨henqueued.sendQueue, henqueued.lastEnqueueAt⟩

/-- Whatever is no tick adds what it raises. -/
theorem enqueued_handleCommand (htick : cmd ≠ .tickAlertBatcher) (s : ServiceState)
    (env : Environment) : Enqueued env.now (s.raises cmd) s (s.handleCommand env cmd).1.1 := by
  by_cases hraise : cmd.MayRaise
  · unfold ServiceCommand.MayRaise at hraise
    split at hraise
    · exact enqueue_handleEdgeFailure s env.now _
    · rename_i msg reply
      show Enqueued env.now (s.raises _) s
        (s.handleRequest env ⟨some (.joinMessage msg)⟩ reply).1
      unfold ServiceState.raises ServiceState.handleRequest
      dsimp only
      split
      · exact (SameQueue.refl s).enqueued env.now
      · exact enqueue_handleJoin s env msg reply
    · rename_i msg reply
      show Enqueued env.now (s.raises _) s
        (s.handleRequest env ⟨some (.leaveMessage msg)⟩ reply).1
      unfold ServiceState.raises ServiceState.handleRequest
      dsimp only
      split
      · exact (SameQueue.refl s).enqueued env.now
      · cases hsender : msg.sender with
        | none => exact (SameQueue.refl s).enqueued env.now
        | some sender =>
            rw [Option.toList_some, List.flatMap_singleton]
            exact enqueued_leave s env.now sender
    · exact hraise.elim
  · rw [s.raises_of_not hraise]
    exact (queue_handleCommand htick hraise s env).enqueued env.now

/-! ## The history of the queue -/

/-- A run together with all that was raised and broadcast, and when. -/
structure AlertHistory where
  run : ServiceRun
  raised : List (Instant × AlertMessage)
  broadcasts : List (Instant × BatchedAlertMessage)
  clock : Instant

namespace AlertHistory

def next (hist : AlertHistory) (env : Environment) (cmd : ServiceCommand) : AlertHistory where
  run := hist.run.next env cmd
  raised := hist.raised ++ (hist.run.state.raises cmd).map fun alert => (env.now, alert)
  broadcasts := hist.broadcasts ++ (batches (hist.run.effects env cmd)).map fun batch => (env.now, batch)
  clock := env.now

/-- The clock of the actor does not go back. -/
def Forward (hist : AlertHistory) (a : Environment × ServiceCommand) : Prop :=
  hist.clock ≤ a.1.now

end AlertHistory

def alertHistorySystem : System AlertHistory (Environment × ServiceCommand) where
  init hist := serviceSystem.init hist.run ∧ hist.raised = [] ∧ hist.broadcasts = []
  step hist a := (serviceSystem.step hist.run a).map fun _ => hist.next a.1 a.2

variable {hist hist' : AlertHistory}

/-- Every run of the actor has a history. -/
theorem alertHistory_covers {run : ServiceRun} (h : serviceSystem.Reachable run) :
    ∃ hist, alertHistorySystem.Reachable hist ∧ hist.run = run := by
  refine h.simulate (T := alertHistorySystem) (R := fun run hist => hist.run = run) ?_ ?_
  · intro run hrun
    exact ⟨⟨run, [], [], 0⟩, ⟨hrun, rfl, rfl⟩, rfl⟩
  · rintro run a run' hist _ _ rfl _ hstep
    refine .inr ⟨a, hist.next a.1 a.2, trivial, ?_, ?_⟩
    · exact congrArg (Option.map fun _ => hist.next a.1 a.2) hstep
    · have hready : (if !hist.run.stopped && hist.run.fresh a.2 then some (hist.run.next a.1 a.2)
          else none) = some run' := hstep
      split at hready
      · exact Option.some.inj hready
      · cases hready

/-! ## The queue is debounced -/

namespace ServiceState

omit [Xxh64] in
theorem handleTick_due (s : ServiceState) {now : Instant}
    (hdue : (s.lastEnqueueAt.any fun last => s.settings.batchingWindow < now - last) = true)
    (hwaiting : s.sendQueue ≠ []) :
    s.handleTick now = ({ s with sendQueue := [], lastEnqueueAt := none },
      if s.broadcaster then [.broadcast s.queuedBatch] else []) := by
  unfold handleTick
  rw [if_neg hwaiting]
  cases hlast : s.lastEnqueueAt with
  | none =>
      rw [hlast] at hdue
      cases hdue
  | some last =>
      rw [hlast] at hdue
      have hwindow : s.settings.batchingWindow < now - last := of_decide_eq_true hdue
      dsimp only
      rw [if_neg (Nat.not_le.2 hwindow)]
      rfl

omit [Xxh64] in
theorem handleTick_early (s : ServiceState) {now : Instant}
    (hdue : (s.lastEnqueueAt.any fun last => s.settings.batchingWindow < now - last) = false) :
    s.handleTick now = (s, []) := by
  unfold handleTick
  split
  · rfl
  · cases hlast : s.lastEnqueueAt with
    | none => rfl
    | some last =>
        rw [hlast] at hdue
        have hwindow : ¬ s.settings.batchingWindow < now - last := of_decide_eq_false hdue
        dsimp only
        rw [if_pos (Nat.not_lt.1 hwindow)]

/-- A command raises at most one alert. -/
theorem raises_cases (s : ServiceState) (cmd : ServiceCommand) :
    s.raises cmd = [] ∨ ∃ alert, s.raises cmd = [alert] := by
  have hfailure : ∀ ev, s.failureAlerts ev = [] ∨ ∃ alert, s.failureAlerts ev = [alert] := by
    intro ev
    unfold failureAlerts
    split
    · exact .inl rfl
    · exact .inr ⟨_, rfl⟩
  unfold raises
  split
  · exact hfailure _
  · split
    · exact .inl rfl
    · unfold joinAlerts
      split
      · exact .inr ⟨_, rfl⟩
      · exact .inl rfl
  · rename_i msg reply
    split
    · exact .inl rfl
    · cases msg.sender with
      | none => exact .inl rfl
      | some sender =>
          rw [Option.toList_some, List.flatMap_singleton]
          exact hfailure _
  · exact .inl rfl

end ServiceState

/-- The queue of the actor and the debounced queue with the same history. -/
structure Debounces (hist : AlertHistory) (d : Debounced AlertMessage) : Prop where
  window : d.window = hist.run.state.settings.batchingWindow
  added : d.added = hist.raised
  pending : d.pending.map Prod.snd = hist.run.state.sendQueue
  last : d.lastAt = hist.run.state.lastEnqueueAt
  flushed : d.flushed.map (fun batch => (batch.1, batch.2.map Prod.snd)) =
    hist.broadcasts.map fun batch => (batch.1, batch.2.messages)
  clock : d.clock = hist.clock
  broadcaster : hist.run.state.broadcaster = true
  sender : ∀ batch ∈ hist.broadcasts, batch.2.sender = some hist.run.state.myAddr

variable {d : Debounced AlertMessage}

omit [Xxh64] in
theorem Debounces.due (h : Debounces hist d) (now : Instant) :
    (hist.run.state.lastEnqueueAt.any fun last =>
      hist.run.state.settings.batchingWindow < now - last) = d.due now := by
  unfold Debounced.due
  rw [h.last, h.window]

omit [Xxh64] in
/-- A command that leaves the queue alone lets time pass. -/
theorem Debounces.pass (h : Debounces hist d) (hsetup : SameSetup hist.run.state hist'.run.state)
    (hqueue : SameQueue hist.run.state hist'.run.state) (hraised : hist'.raised = hist.raised)
    (hbroadcasts : hist'.broadcasts = hist.broadcasts) : Debounces hist' (d.pass hist'.clock) := by
  refine ⟨?_, h.added.trans hraised.symm, h.pending.trans hqueue.sendQueue.symm,
    h.last.trans hqueue.lastEnqueueAt.symm, ?_, rfl, hsetup.broadcaster.trans h.broadcaster, ?_⟩
  · rw [hsetup.settings]
    exact h.window
  · rw [hbroadcasts]
    exact h.flushed
  · rw [hbroadcasts, hsetup.myAddr]
    exact h.sender

/-- An alert that is raised is added. -/
theorem Debounces.add (h : Debounces hist d) {env : Environment} {cmd : ServiceCommand}
    {alert : AlertMessage} (htick : cmd ≠ .tickAlertBatcher)
    (hraises : hist.run.state.raises cmd = [alert]) :
    Debounces (hist.next env cmd) (d.add env.now alert) := by
  have hsetup := setup_handleCommand hist.run.state env cmd
  have hqueue := enqueued_handleCommand htick hist.run.state env
  rw [hraises] at hqueue
  have hbroadcasts : (hist.next env cmd).broadcasts = hist.broadcasts := by
    have hnone : batches (hist.run.effects env cmd) = [] :=
      batches_handleCommand htick hist.run.state env
    unfold AlertHistory.next
    rw [hnone]
    exact List.append_nil _
  refine ⟨h.window.trans (congrArg Settings.batchingWindow hsetup.settings).symm, ?_, ?_, ?_, ?_, rfl,
    hsetup.broadcaster.trans h.broadcaster, ?_⟩
  · unfold Debounced.add AlertHistory.next
    rw [hraises, h.added]
    rfl
  · exact (List.map_append).trans ((congrArg (· ++ [alert]) h.pending).trans hqueue.sendQueue.symm)
  · refine Eq.trans ?_ hqueue.lastEnqueueAt.symm
    unfold Debounced.lastAt Debounced.add
    rw [List.getLast?_concat]
    rfl
  · rw [hbroadcasts]
    exact h.flushed
  · rw [hbroadcasts]
    intro batch hbatch
    exact (h.sender batch hbatch).trans (congrArg some hsetup.myAddr.symm)

/-- A tick that is due broadcasts all that is pending. -/
theorem Debounces.flush (h : Debounces hist d) {env : Environment} (hdue : d.due env.now = true) :
    Debounces (hist.next env .tickAlertBatcher) (d.flush env.now) := by
  have hwaiting : hist.run.state.sendQueue ≠ [] := by
    rw [← h.pending]
    exact fun hnil => Debounced.pending_ne_nil_of_due hdue (List.map_eq_nil_iff.1 hnil)
  have htick := (hist.run.state.handleTick_due ((h.due env.now).trans hdue) hwaiting).trans
    (congrArg (Prod.mk _) (if_pos h.broadcaster))
  have hstate : (hist.next env .tickAlertBatcher).run.state =
      { hist.run.state with sendQueue := [], lastEnqueueAt := none } := congrArg Prod.fst htick
  have hbroadcasts : (hist.next env .tickAlertBatcher).broadcasts = hist.broadcasts ++
      [(env.now, { sender := some hist.run.state.myAddr, messages := hist.run.state.sendQueue })] :=
    congrArg (fun outcome : Outcome => hist.broadcasts ++
      (batches outcome.2).map fun batch => (env.now, batch)) htick
  refine ⟨?_, h.added.trans (List.append_nil _).symm, ?_, ?_, ?_, rfl, ?_, ?_⟩
  · rw [hstate]
    exact h.window
  · rw [hstate]
    rfl
  · rw [hstate]
    rfl
  · calc (d.flushed ++ [(env.now, d.pending)]).map (fun batch => (batch.1, batch.2.map Prod.snd))
        = d.flushed.map (fun batch => (batch.1, batch.2.map Prod.snd)) ++
            [(env.now, d.pending.map Prod.snd)] := List.map_append
      _ = hist.broadcasts.map (fun batch => (batch.1, batch.2.messages)) ++
            [(env.now, hist.run.state.sendQueue)] := by rw [h.flushed, h.pending]
      _ = (hist.next env .tickAlertBatcher).broadcasts.map
            (fun batch => (batch.1, batch.2.messages)) := by rw [hbroadcasts, List.map_append]; rfl
  · rw [hstate]
    exact h.broadcaster
  · rw [hbroadcasts, hstate]
    intro batch hbatch
    rcases List.mem_append.1 hbatch with hold | hnew
    · exact h.sender batch hold
    · cases List.mem_singleton.1 hnew
      rfl

/-- A tick of the batcher is a tick of the queue. -/
theorem Debounces.tick (h : Debounces hist d) (env : Environment) :
    Debounces (hist.next env .tickAlertBatcher) (d.tick env.now) := by
  unfold Debounced.tick
  split
  · rename_i hdue
    exact h.flush hdue
  · rename_i hdue
    have hearly := hist.run.state.handleTick_early ((h.due env.now).trans (Bool.eq_false_iff.2 hdue))
    have hstate : (hist.next env .tickAlertBatcher).run.state = hist.run.state :=
      congrArg Prod.fst hearly
    have hbroadcasts : (hist.next env .tickAlertBatcher).broadcasts = hist.broadcasts :=
      (congrArg (fun outcome : Outcome => hist.broadcasts ++
        (batches outcome.2).map fun batch => (env.now, batch)) hearly).trans (List.append_nil _)
    have hpass : Debounces (hist.next env .tickAlertBatcher)
        (d.pass (hist.next env .tickAlertBatcher).clock) :=
      h.pass (hstate ▸ .refl _) (hstate ▸ .refl _) (List.append_nil _) hbroadcasts
    exact hpass

/-- Every command is a step of the queue. -/
theorem Debounces.step (h : Debounces hist d) (env : Environment) (cmd : ServiceCommand) :
    ∃ step : DebounceStep AlertMessage, step.now = env.now ∧
      ∃ d', (Debounced.system AlertMessage).step d step = some d' ∧
        Debounces (hist.next env cmd) d' := by
  by_cases htick : cmd = .tickAlertBatcher
  · subst htick
    exact ⟨.tick env.now, rfl, d.tick env.now, rfl, h.tick env⟩
  · rcases hist.run.state.raises_cases cmd with hnone | ⟨alert, hraises⟩
    · have hqueue := enqueued_handleCommand htick hist.run.state env
      rw [hnone] at hqueue
      have hraised : (hist.next env cmd).raised = hist.raised := by
        unfold AlertHistory.next
        rw [hnone]
        exact List.append_nil _
      have hbroadcasts : (hist.next env cmd).broadcasts = hist.broadcasts := by
        have hnobatch : batches (hist.run.effects env cmd) = [] :=
          batches_handleCommand htick hist.run.state env
        unfold AlertHistory.next
        rw [hnobatch]
        exact List.append_nil _
      exact ⟨.pass env.now, rfl, d.pass env.now, rfl, h.pass (setup_handleCommand _ env cmd)
        ⟨hqueue.sendQueue.trans (List.append_nil _), hqueue.lastEnqueueAt⟩ hraised hbroadcasts⟩
    · exact ⟨.add env.now alert, rfl, d.add env.now alert, rfl, h.add htick hraises⟩

theorem debounces_init (h : alertHistorySystem.init hist) :
    ∃ d, (Debounced.system AlertMessage).init d ∧ Debounces hist d := by
  rcases h with ⟨⟨outcome, hboots, hrun⟩, hraised, hbroadcasts⟩
  have hequipped := hboots.equipped
  refine ⟨⟨hist.run.state.settings.batchingWindow, [], [], [], hist.clock⟩, ⟨rfl, rfl, rfl⟩, rfl,
    hraised.symm, ?_, ?_, ?_, rfl, ?_, ?_⟩
  · rw [hrun]
    exact hequipped.sendQueue.symm
  · rw [hrun]
    exact hequipped.lastEnqueueAt.symm
  · rw [hbroadcasts]
    rfl
  · rw [hrun]
    exact hequipped.broadcaster
  · rw [hbroadcasts]
    exact fun batch hbatch => by cases hbatch

theorem alertHistory_step {a : Environment × ServiceCommand}
    (h : alertHistorySystem.step hist a = some hist') : hist' = hist.next a.1 a.2 := by
  rcases Option.map_eq_some_iff.1 h with ⟨_, _, heq⟩
  exact heq.symm

/-- The actor refines the debounced queue. -/
theorem debounces_reaches (h : alertHistorySystem.Reachable hist) :
    ∃ d, (Debounced.system AlertMessage).Reachable d ∧ Debounces hist d := by
  refine h.simulate (T := Debounced.system AlertMessage) (R := Debounces)
    (fun hist hinit => debounces_init hinit) ?_
  intro hist a hist' d _ _ hR _ hstep
  cases alertHistory_step hstep
  rcases hR.step a.1 a.2 with ⟨step, _, d', hd', hR'⟩
  exact .inr ⟨step, d', trivial, hd', hR'⟩

/-- If the clock of the actor does not go back, that of the queue does not either. -/
theorem debounces_forward (h : alertHistorySystem.Reaches AlertHistory.Forward hist) :
    ∃ d, (Debounced.system AlertMessage).Reaches Debounced.Forward d ∧ Debounces hist d := by
  refine h.simulate (T := Debounced.system AlertMessage) (R := Debounces)
    (fun hist hinit => debounces_init hinit) ?_
  intro hist a hist' d _ _ hR hforward hstep
  cases alertHistory_step hstep
  rcases hR.step a.1 a.2 with ⟨step, hnow, d', hd', hR'⟩
  refine .inr ⟨step, d', ?_, hd', hR'⟩
  show d.clock ≤ step.now
  rw [hR.clock, hnow]
  exact hforward

/-! ## Results -/

/-- The batches and the queue are exactly the alerts that were raised, in their order. -/
structure BroadcastOnce (hist : AlertHistory) : Prop where
  order : hist.broadcasts.flatMap (fun batch => batch.2.messages) ++ hist.run.state.sendQueue =
    hist.raised.map Prod.snd
  nonempty : ∀ batch ∈ hist.broadcasts, batch.2.messages ≠ []
  sender : ∀ batch ∈ hist.broadcasts, batch.2.sender = some hist.run.state.myAddr
  waiting : hist.run.state.lastEnqueueAt = none ↔ hist.run.state.sendQueue = []

/-- Every alert is broadcast exactly once, in the order in which the alerts were raised, or waits. -/
theorem alerts_broadcastOnce (h : alertHistorySystem.Reachable hist) : BroadcastOnce hist := by
  rcases debounces_reaches h with ⟨d, hd, hR⟩
  have hconserved := Debounced.Conserved.reaches hd
  have hmessages : hist.broadcasts.map (fun batch => batch.2.messages) =
      d.flushed.map fun batch => batch.2.map Prod.snd := by
    have hpairs := congrArg (List.map Prod.snd) hR.flushed
    simpa [Function.comp_def] using hpairs.symm
  refine ⟨?_, ?_, hR.sender, ?_⟩
  · calc hist.broadcasts.flatMap (fun batch => batch.2.messages) ++ hist.run.state.sendQueue
        = (hist.broadcasts.map fun batch => batch.2.messages).flatten ++ hist.run.state.sendQueue := by
          rw [List.flatMap_def]
      _ = (d.flushed.map fun batch => batch.2.map Prod.snd).flatten ++ d.pending.map Prod.snd := by
          rw [hmessages, hR.pending]
      _ = (d.flushed.flatMap Prod.snd ++ d.pending).map Prod.snd := by
          simp only [List.map_append, List.flatMap_def, List.map_flatten, List.map_map,
            Function.comp_def]
      _ = hist.raised.map Prod.snd := by rw [hconserved.order, hR.added]
  · intro batch hbatch
    have hmem : batch.2.messages ∈ d.flushed.map fun batch => batch.2.map Prod.snd :=
      hmessages ▸ List.mem_map.2 ⟨batch, hbatch, rfl⟩
    rcases List.mem_map.1 hmem with ⟨flushed, hflushed, heq⟩
    rw [← heq]
    exact fun hnil => hconserved.nonempty flushed hflushed (List.map_eq_nil_iff.1 hnil)
  · rw [← hR.last, ← hR.pending]
    unfold Debounced.lastAt
    simp

/-- A batch goes out when a flush of the queue is due. -/
theorem Debounces.due_of_batch (h : Debounces hist d) {env : Environment} {cmd : ServiceCommand}
    {batch : BatchedAlertMessage} (hbatch : batch ∈ batches (hist.run.effects env cmd)) :
    d.due env.now = true := by
  by_cases htick : cmd = .tickAlertBatcher
  · subst htick
    by_contra hdue
    have hearly := hist.run.state.handleTick_early ((h.due env.now).trans (Bool.eq_false_iff.2 hdue))
    have hnone : batches (hist.run.effects env .tickAlertBatcher) = [] :=
      congrArg (fun outcome : Outcome => batches outcome.2) hearly
    rw [hnone] at hbatch
    cases hbatch
  · have hnone : batches (hist.run.effects env cmd) = [] :=
      batches_handleCommand htick hist.run.state env
    rw [hnone] at hbatch
    cases hbatch

/-- While the clock does not go back: when a command broadcasts a batch, all alerts raised until then are
older than the window, so that no alert was raised within the window before a batch; and a tick that
comes later than a window after every alert leaves nothing waiting. -/
theorem alerts_quietWindow (h : alertHistorySystem.Reaches AlertHistory.Forward hist) :
    (∀ env cmd, batches (hist.run.effects env cmd) ≠ [] →
      ∀ alert ∈ hist.raised, alert.1 + hist.run.state.settings.batchingWindow < env.now) ∧
      (∀ batch ∈ hist.broadcasts, ∀ alert ∈ hist.raised,
        alert.1 + hist.run.state.settings.batchingWindow < batch.1 ∨ batch.1 ≤ alert.1) ∧
      ∀ env : Environment,
        (∀ alert ∈ hist.raised, alert.1 + hist.run.state.settings.batchingWindow < env.now) →
          (hist.run.state.handleCommand env .tickAlertBatcher).1.1.sendQueue = [] := by
  rcases debounces_forward h with ⟨d, hd, hR⟩
  have hquieted := Debounced.Quieted.reaches hd
  refine ⟨?_, ?_, ?_⟩
  · intro env cmd hbatches alert halert
    rcases List.exists_mem_of_ne_nil _ hbatches with ⟨batch, hbatch⟩
    rw [← hR.window]
    exact hquieted.settled (hR.due_of_batch hbatch) alert (hR.added ▸ halert)
  · intro batch hbatch alert halert
    have hmem : (batch.1, batch.2.messages) ∈
        d.flushed.map fun batch => (batch.1, batch.2.map Prod.snd) := by
      rw [hR.flushed]
      exact List.mem_map.2 ⟨batch, hbatch, rfl⟩
    rcases List.mem_map.1 hmem with ⟨flushed, hflushed, heq⟩
    have hquiet := hquieted.quiet flushed hflushed alert (hR.added ▸ halert)
    rw [hR.window, congrArg Prod.fst heq] at hquiet
    exact hquiet
  · intro env hlate
    have hqueue := (hR.tick env).pending
    have hpending : (d.tick env.now).pending = [] := by
      refine Debounced.tick_pending fun item hitem => ?_
      have hadded : item ∈ d.added := by
        rw [← hquieted.conserved.order]
        exact List.mem_append_right _ hitem
      rw [hR.window]
      exact hlate item (hR.added ▸ hadded)
    rw [hpending] at hqueue
    exact hqueue.symm

end AlertQueue

/-! ### Two failures, one batch -/

section Sample

attribute [local instance] xxh64Reference

instance (hist : AlertHistory) (a : Environment × ServiceCommand) :
    Decidable (AlertHistory.Forward hist a) :=
  inferInstanceAs (Decidable (_ ≤ _))

def sampleAt (now : Instant) : Environment :=
  { ServiceState.sampleEnvironment with now := now }

/-- Two failures at different times, and a tick that comes too early. -/
def twoWaiting : Option AlertHistory :=
  (ServiceState.sampleJoin 3 1 [⟨1, 1⟩] [hostA]).toOption.bind fun outcome =>
    let failure : EdgeFailure := ⟨hostB, outcome.1.view.currentConfigurationId.2⟩
    alertHistorySystem.execWhile AlertHistory.Forward ⟨⟨outcome.1, outcome.2, [], false⟩, [], [], 0⟩
      [(sampleAt 0, .edgeFailure failure), (sampleAt 60000000, .edgeFailure failure),
        (sampleAt 120000000, .tickAlertBatcher)]

/-- Then a tick after the window. -/
def twoFailures : Option AlertHistory :=
  twoWaiting.bind fun hist =>
    alertHistorySystem.execWhile AlertHistory.Forward hist
      [(sampleAt 170000000, .tickAlertBatcher)]

theorem twoWaiting_facts :
    (twoWaiting.map fun hist => (hist.raised.length, hist.broadcasts.length,
      (batches (hist.run.effects (sampleAt 170000000) .tickAlertBatcher)).map fun batch =>
        batch.messages.length)) = some (2, 0, [2]) := by
  decide +kernel

theorem twoFailures_facts :
    (twoFailures.map fun hist => (hist.raised.length,
      hist.broadcasts.map fun batch => (batch.1, batch.2.messages.length))) =
      some (2, [(170000000, 2)]) := by
  decide +kernel

theorem twoWaiting_forward {hist : AlertHistory} (h : twoWaiting = some hist) :
    alertHistorySystem.Reaches AlertHistory.Forward hist := by
  rcases Option.bind_eq_some_iff.1 h with ⟨outcome, houtcome, hexec⟩
  have hboots : Boots outcome := .inr ⟨_, _, _, _, eq_ok_of_toOption houtcome⟩
  have hstart : alertHistorySystem.Reaches AlertHistory.Forward
      ⟨⟨outcome.1, outcome.2, [], false⟩, [], [], 0⟩ :=
    .start ⟨⟨outcome, hboots, rfl⟩, rfl, rfl⟩
  exact hstart.execWhile hexec

theorem twoFailures_broadcastOnce :
    ∃ hist, twoFailures = some hist ∧ hist.broadcasts.length = 1 ∧ BroadcastOnce hist := by
  rcases Option.map_eq_some_iff.1 twoFailures_facts with ⟨hist, hhist, hfacts⟩
  have hlength := congrArg List.length (congrArg Prod.snd hfacts)
  rw [List.length_map] at hlength
  rcases Option.bind_eq_some_iff.1 hhist with ⟨waiting, hwaiting, hexec⟩
  have hreach := (twoWaiting_forward hwaiting).execWhile hexec
  exact ⟨hist, hhist, hlength, alerts_broadcastOnce hreach.reachable⟩

/-- Both alerts are older than the window when the second tick broadcasts them. -/
theorem twoWaiting_quietWindow :
    ∃ hist, twoWaiting = some hist ∧ hist.raised.length = 2 ∧ hist.broadcasts = [] ∧
      batches (hist.run.effects (sampleAt 170000000) .tickAlertBatcher) ≠ [] ∧
      ∀ alert ∈ hist.raised,
        alert.1 + hist.run.state.settings.batchingWindow < (sampleAt 170000000).now := by
  rcases Option.map_eq_some_iff.1 twoWaiting_facts with ⟨hist, hhist, hfacts⟩
  simp only [Prod.mk.injEq, List.length_eq_zero_iff] at hfacts
  rcases hfacts with ⟨hraised, hbroadcasts, hbatches⟩
  have hsome : batches (hist.run.effects (sampleAt 170000000) .tickAlertBatcher) ≠ [] := by
    intro hnil
    rw [hnil] at hbatches
    cases hbatches
  exact ⟨hist, hhist, hraised, hbroadcasts, hsome,
    (alerts_quietWindow (twoWaiting_forward hhist)).1 _ _ hsome⟩

end Sample

end Rapid
