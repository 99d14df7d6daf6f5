import Rapid.Service.Replies
import Rapid.Foundations.Mailbox
import Mathlib.Tactic.Abel

/-!
# Handle — calls to the actor, `service/handle.rs` and the loop of `service/task.rs`

Every method of `MembershipService` sends a command with a fresh reply channel into the mailbox of the
actor and waits for the answer. `shutdown` sends a command like any other. After it the loop drops the
mailbox and the state with the channels of parked joiners, and whoever waits gets `Error::Shutdown`.

So a call returns once, with an answer or with the error, and no call hangs after the loop has exited:
what is then still waiting has not entered the mailbox, and is refused.
-/

namespace Rapid

open Foundations

section Handle

variable [Xxh64]

/-! ## The loop -/

/-- The loop of `run`, with the mailbox of `MembershipService::spawn`. -/
def serviceLoop : Loop ServiceRun Environment ServiceCommand where
  capacity := 1024
  init := serviceSystem.init
  admits called cmd := cmd.reply?.all fun reply => called.all fun old => old.reply? ≠ some reply
  handle run env cmd := run.next env cmd
  stops cmd := cmd = .shutdown

/-- The mailbox of an actor. -/
abbrev ServiceMailbox :=
  Mailbox ServiceRun ServiceCommand

omit [Xxh64] in
/-- The reply channels of these commands. -/
def channelsOf (cmds : List ServiceCommand) : Multiset ReplyId :=
  cmds.filterMap ServiceCommand.reply?

/-- The channels that were dropped: those who wait on them get `Error::Shutdown`. -/
def lostChannels (w : ServiceMailbox) : Multiset ReplyId :=
  channelsOf w.dropped + channelsOf w.refused + if w.exited then w.server.state.parked else 0

/-- The channels on which nothing has happened yet. -/
def waitingChannels (w : ServiceMailbox) : Multiset ReplyId :=
  channelsOf w.blocked + channelsOf w.queue + if w.exited then 0 else w.server.state.parked

omit [Xxh64] in
theorem channelsOf_append (cmds more : List ServiceCommand) :
    channelsOf (cmds ++ more) = channelsOf cmds + channelsOf more := by
  unfold channelsOf
  rw [List.filterMap_append, Multiset.coe_add]

omit [Xxh64] in
theorem channelsOf_perm {cmds more : List ServiceCommand} (h : cmds.Perm more) :
    channelsOf cmds = channelsOf more :=
  Multiset.coe_eq_coe.2 (h.filterMap _)

/-- Only `Shutdown` stops the loop. -/
theorem stopped_next (run : ServiceRun) (env : Environment) (cmd : ServiceCommand) :
    (run.next env cmd).stopped = serviceLoop.stops cmd := by
  cases cmd <;> rfl

/-! ## The actor behind its mailbox -/

variable {w w' : ServiceMailbox}

/-- The actor is one of the service system, and no two calls share a channel. -/
structure Serves (w : ServiceMailbox) : Prop where
  reachable : serviceSystem.Reachable w.server
  handled : w.server.handled = w.handled
  stopped : w.server.stopped = w.stopping
  nodup : (channelsOf w.called).Nodup

/-- A call comes with a new channel. -/
theorem nodup_call {called : List ServiceCommand} {cmd : ServiceCommand}
    (h : (channelsOf called).Nodup) (hadmits : serviceLoop.admits called cmd = true) :
    (channelsOf (called ++ [cmd])).Nodup := by
  rw [channelsOf_append, Multiset.nodup_add]
  refine ⟨h, ?_, ?_⟩
  · cases hid : cmd.reply? with
    | none => simp [channelsOf, hid]
    | some id => simp [channelsOf, hid]
  · rw [Multiset.disjoint_left]
    intro id hold hnew
    obtain ⟨old, hmem, hid⟩ := List.mem_filterMap.1 (Multiset.mem_coe.1 hold)
    obtain ⟨new, hcmd, hid'⟩ := List.mem_filterMap.1 (Multiset.mem_coe.1 hnew)
    cases List.mem_singleton.1 hcmd
    simp only [serviceLoop, hid', Option.all_some, List.all_eq_true, decide_eq_true_eq] at hadmits
    exact hadmits old hmem hid

/-- What is taken out of the mailbox has a channel that the actor does not know. -/
theorem Serves.fresh (h : Serves w) (hflow : Loop.Flow w) {cmd : ServiceCommand}
    {rest : List ServiceCommand} (hqueue : w.queue = cmd :: rest) : w.server.fresh cmd = true := by
  -- What was handled and the next command are the begin of all calls, up to their order.
  have hbegin : w.handled ++ [cmd] <+: w.entered ++ w.blocked ++ w.refused := by
    refine ⟨rest ++ w.dropped ++ w.blocked ++ w.refused, ?_⟩
    rw [hflow.entered, hqueue]
    simp
  have hnodup : ((w.handled ++ [cmd]).filterMap ServiceCommand.reply?).Nodup := by
    have hall := h.nodup
    rw [channelsOf_perm hflow.called] at hall
    exact (hbegin.filterMap _).sublist.nodup (Multiset.coe_nodup.1 hall)
  unfold ServiceRun.fresh
  cases hid : cmd.reply? with
  | none => rfl
  | some id =>
      rw [h.handled, Option.all_some, List.all_eq_true]
      intro old hold
      refine decide_eq_true fun hsame => ?_
      rw [List.filterMap_append, List.nodup_append] at hnodup
      exact hnodup.2.2 id (List.mem_filterMap.2 ⟨old, hold, hsame⟩) id
        (List.mem_filterMap.2 ⟨cmd, List.mem_singleton_self cmd, hid⟩) rfl

theorem Serves.reaches (h : serviceLoop.system.Reachable w) : Serves w := by
  refine h.invariant ?_ ?_
  · rintro w ⟨run, hrun, rfl⟩
    obtain ⟨outcome, hboots, rfl⟩ := hrun
    exact ⟨.start ⟨outcome, hboots, rfl⟩, rfl, rfl, Multiset.nodup_zero⟩
  · intro w l w' hreach hw _ hstep
    cases Loop.Move.of_step hstep with
    | call hadmits => exact ⟨hw.reachable, hw.handled, hw.stopped, nodup_call hw.nodup hadmits⟩
    | enter => exact ⟨hw.reachable, hw.handled, hw.stopped, hw.nodup⟩
    | @handle env cmd rest hqueue hgoing =>
        refine ⟨hw.reachable.step (a := (env, cmd)) trivial ?_, ?_, ?_, hw.nodup⟩
        · have hready : (!w.server.stopped && w.server.fresh cmd) = true := by
            rw [hw.stopped, hgoing, hw.fresh (.reaches hreach) hqueue]
            rfl
          exact if_pos hready
        · exact congrArg (· ++ [cmd]) hw.handled
        · exact stopped_next w.server env cmd
    | exit => exact ⟨hw.reachable, hw.handled, hw.stopped, hw.nodup⟩
    | refuse => exact ⟨hw.reachable, hw.handled, hw.stopped, hw.nodup⟩

/-! ## What becomes of a call -/

/-- Every call has an answer, has lost its channel or waits, and never two of these; after the loop has
exited only calls that never got in wait, and what the actor handled is what got in up to the first
`Shutdown`. -/
structure CallsReturn (w : ServiceMailbox) : Prop where
  conserved : (answered w.server.trace : Multiset ReplyId) + lostChannels w + waitingChannels w =
    channelsOf w.called
  once : ((answered w.server.trace : Multiset ReplyId) + lostChannels w + waitingChannels w).Nodup
  settled : w.exited = true → waitingChannels w = channelsOf w.blocked
  served : w.exited = true → ∃ before rest, w.entered = before ++ .shutdown :: rest ∧
    w.server.handled = before ++ [.shutdown] ∧ .shutdown ∉ before

/-- In every run of the actor behind its mailbox, no call is lost or returns twice, and none that got in
waits after the loop has exited. -/
theorem calls_return (h : serviceLoop.system.Reachable w) : CallsReturn w := by
  have hserves := Serves.reaches h
  have hflow : Loop.Flow w := .reaches h
  have hdrained : serviceLoop.Drained w := .reaches h
  have hreplies : (answered w.server.trace : Multiset ReplyId) + w.server.state.parked =
      channelsOf w.handled := by
    rw [replies_conserved hserves.reachable, ServiceRun.channels, hserves.handled]
    rfl
  have hconserved : (answered w.server.trace : Multiset ReplyId) + lostChannels w +
      waitingChannels w = channelsOf w.called := by
    have hparked : (if w.exited then w.server.state.parked else 0) +
        (if w.exited then 0 else w.server.state.parked) = w.server.state.parked := by
      split
      · exact add_zero _
      · exact zero_add _
    -- The parked channels are lost or wait, and with the replies they are what the actor has handled.
    calc (answered w.server.trace : Multiset ReplyId) + lostChannels w + waitingChannels w
        = (answered w.server.trace + w.server.state.parked) + channelsOf w.queue +
            channelsOf w.dropped + channelsOf w.blocked + channelsOf w.refused := by
          rw [← hparked]
          unfold lostChannels waitingChannels
          abel
      _ = channelsOf (w.entered ++ w.blocked ++ w.refused) := by
          rw [hreplies, hflow.entered]
          simp only [channelsOf_append]
      _ = channelsOf w.called := (channelsOf_perm hflow.called).symm
  refine ⟨hconserved, ?_, fun hexited => ?_, fun hexited => ?_⟩
  · rw [hconserved]
    exact hserves.nodup
  · unfold waitingChannels
    rw [hflow.closed hexited, if_pos hexited]
    exact (add_zero _).trans (add_zero _)
  · obtain ⟨before, cmd, hhandled, hstops, hbefore⟩ := hdrained.stopping (hdrained.exited hexited)
    have hcmd : cmd = .shutdown := of_decide_eq_true hstops
    subst hcmd
    refine ⟨before, w.dropped, ?_, ?_, fun hmem => ?_⟩
    · rw [hflow.entered, hflow.closed hexited, hhandled]
      simp
    · rw [hserves.handled, hhandled]
    · exact absurd rfl (of_decide_eq_false (hbefore _ hmem))

end Handle

/-! ### An actor that is shut down -/

section Sample

attribute [local instance] xxh64Reference

/-- `hostB` asks to join and somebody for the members; of two calls after the shutdown one is still in
the mailbox when the loop exits, the other is not. -/
def shutDownCalls : Option ServiceMailbox :=
  (ServiceState.sampleJoin 3 1 [⟨1, 1⟩] [hostA]).toOption.bind fun outcome =>
    let msg : JoinMessage :=
      { sender := some hostB
        nodeId := some ⟨2, 2⟩
        ringNumber := [0, 1, 2]
        configurationId := outcome.1.view.currentConfigurationId.2
        metadata := none }
    let join : ServiceCommand := .request ⟨some (.joinMessage msg)⟩ 0
    let env := ServiceState.sampleEnvironment
    serviceLoop.system.exec (Loop.opened ⟨outcome.1, outcome.2, [], false⟩)
      [.call join, .enter join, .call (.memberlist 1), .enter (.memberlist 1), .handle env,
        .call .shutdown, .enter .shutdown, .call (.memberlist 2), .handle env, .handle env,
        .enter (.memberlist 2), .call (.memberlist 3), .exit, .refuse (.memberlist 3)]

theorem shutDownCalls_facts :
    (shutDownCalls.map fun w => (answered w.server.trace, w.exited,
      w.dropped.filterMap ServiceCommand.reply?, w.refused.filterMap ServiceCommand.reply?,
      w.server.state.joinersToRespondTo.lookup hostB)) =
      some ([1], true, [2], [3], some [0]) := by
  decide +kernel

theorem shutDownCalls_return :
    ∃ w, shutDownCalls = some w ∧ w.exited = true ∧ answered w.server.trace = [1] ∧
      CallsReturn w := by
  rcases Option.map_eq_some_iff.1 shutDownCalls_facts with ⟨w, hw, hfacts⟩
  simp only [Prod.mk.injEq] at hfacts
  rcases hfacts with ⟨hanswered, hexited, _, _, _⟩
  rcases Option.bind_eq_some_iff.1 hw with ⟨outcome, houtcome, hexec⟩
  have hboots : Boots outcome := .inr ⟨_, _, _, _, eq_ok_of_toOption houtcome⟩
  have hstart : serviceLoop.system.Reachable (Loop.opened ⟨outcome.1, outcome.2, [], false⟩) :=
    .start ⟨_, ⟨outcome, hboots, rfl⟩, rfl⟩
  exact ⟨w, hw, hexited, hanswered, calls_return (hstart.exec hexec)⟩

end Sample

end Rapid
