import Rapid.Service.AlertQueue
import Rapid.Service.WelcomedJoiner
import Rapid.Net.Addresses

/-!
# Recipients — broadcasts reach the members of the view

`UnicastToAllBroadcaster` sends what it is given to the recipients of the last `set_membership`. The
builder sets them before the actor starts, and every decision sets them before anything else can be
broadcast; so the recipients are the members of the view after every command.

A tick of the batcher waits for its broadcast: the batch goes to the members of the view in which the
tick is handled. The consensus spawns a task for each broadcast, and the task reads the recipients
when it runs, maybe after later commands: the message goes to the members of the view of then.
-/

namespace Rapid

open Foundations

/-! ## The broadcaster, `messaging/broadcaster.rs` -/

/-- `shuffle` reorders the recipients in a way that only the environment knows. -/
structure Shuffle where
  order : List SocketAddr → List SocketAddr
  perm : ∀ recipients, (order recipients).Perm recipients

structure UnicastToAllBroadcaster where
  recipients : List SocketAddr

namespace UnicastToAllBroadcaster

def new : UnicastToAllBroadcaster where
  recipients := []

def setMembership (_self : UnicastToAllBroadcaster) (shuffle : Shuffle) (recipients : List SocketAddr) :
    UnicastToAllBroadcaster where
  recipients := shuffle.order recipients

/-- One best-effort message for each recipient. -/
def broadcast (self : UnicastToAllBroadcaster) (req : RapidRequest) :
    List (SocketAddr × RapidRequest) :=
  self.recipients.map fun recipient => (recipient, req)

end UnicastToAllBroadcaster

/-! ## Awaited and spawned broadcasts -/

/-- A broadcast: the request, and how many commands were handled before the one that asks for it. -/
structure BroadcastTask where
  request : RapidRequest
  asked : Nat

/-- A broadcast that has read the recipients, and how many commands were handled before. -/
structure FanOut where
  task : BroadcastTask
  read : Nat

/-- The broadcaster of the actor, the spawned tasks that wait to use it, and all that was sent. What
was sent is kept in two ways: message by message, and broadcast by broadcast. -/
structure Airwaves where
  broadcaster : UnicastToAllBroadcaster
  tasks : List BroadcastTask
  sends : List (SocketAddr × RapidRequest)
  fanOuts : List FanOut

/-- `handle_tick` awaits its broadcast; `spawn_broadcast` leaves that to a task. -/
def ServiceCommand.awaitsBroadcast : ServiceCommand → Bool
  | .tickAlertBatcher => true
  | _ => false

namespace Airwaves

def init (broadcaster : UnicastToAllBroadcaster) : Airwaves where
  broadcaster := broadcaster
  tasks := []
  sends := []
  fanOuts := []

def fanOut (air : Airwaves) (task : BroadcastTask) (turn : Nat) : Airwaves :=
  { air with
    sends := air.sends ++ air.broadcaster.broadcast task.request
    fanOuts := air.fanOuts ++ [⟨task, turn⟩] }

/-- What an effect of the actor does at the broadcaster, after `turn` commands. -/
def effect (awaited : Bool) (turn : Nat) (shuffle : Shuffle) (air : Airwaves) : Effect → Airwaves
  | .setMembership members =>
      { air with
        broadcaster := air.broadcaster.setMembership shuffle (endpointsAsSocketAddrs members) }
  | .broadcast req =>
      if awaited then air.fanOut ⟨req, turn⟩ turn
      else { air with tasks := air.tasks ++ [⟨req, turn⟩] }
  | _ => air

def effects (awaited : Bool) (turn : Nat) (shuffle : Shuffle) (air : Airwaves)
    (effects : List Effect) : Airwaves :=
  effects.foldl (effect awaited turn shuffle) air

/-- One of the spawned tasks runs. -/
def runTask (air : Airwaves) (turn k : Nat) : Option Airwaves :=
  air.tasks[k]?.map fun task => { air with tasks := air.tasks.eraseIdx k }.fanOut task turn

end Airwaves

/-! ## Replaying -/

/-- The members that the last `set_membership` names. -/
def audience (effects : List Effect) (members : List Endpoint) : List Endpoint :=
  effects.foldl (fun members e =>
    match e with
    | .setMembership new => new
    | _ => members) members

def Effect.broadcast? : Effect → Option RapidRequest
  | .broadcast req => some req
  | _ => none

def broadcasts (effects : List Effect) : List RapidRequest :=
  effects.filterMap Effect.broadcast?

/-- No recipients are set. -/
def Unset (effects : List Effect) : Prop :=
  ∀ members, .setMembership members ∉ effects

variable {effects more : List Effect} {members : List Endpoint}

theorem audience_append (effects more : List Effect) (members : List Endpoint) :
    audience (effects ++ more) members = audience more (audience effects members) :=
  List.foldl_append

theorem audience_unset (h : Unset effects) (members : List Endpoint) :
    audience effects members = members := by
  induction effects with
  | nil => rfl
  | cons e effects ih =>
      have hrest : Unset effects := fun new hnew => h new (List.mem_cons_of_mem _ hnew)
      cases e with
      | setMembership new => exact absurd List.mem_cons_self (h new)
      | _ => exact ih hrest

theorem Unset.append (h : Unset effects) (hmore : Unset more) : Unset (effects ++ more) := by
  intro members hmem
  rcases List.mem_append.1 hmem with hold | hnew
  · exact h members hold
  · exact hmore members hnew

/-- The recipients are the addresses of the audience. -/
theorem recipients_effects (awaited : Bool) (n : Nat) (shuffle : Shuffle) (effects : List Effect) :
    ∀ {air : Airwaves} {members : List Endpoint},
      air.broadcaster.recipients.Perm (endpointsAsSocketAddrs members) →
        (air.effects awaited n shuffle effects).broadcaster.recipients.Perm
          (endpointsAsSocketAddrs (audience effects members)) := by
  induction effects with
  | nil => exact fun h => h
  | cons e effects ih =>
      intro air members h
      have hfirst : (air.effect awaited n shuffle e).broadcaster.recipients.Perm
          (endpointsAsSocketAddrs (audience [e] members)) := by
        cases e with
        | setMembership new => exact shuffle.perm _
        | broadcast req =>
            cases awaited with
            | true => exact h
            | false => exact h
        | _ => exact h
      exact ih hfirst

/-- The broadcasts that the effects ask for. -/
def askedIn (turn : Nat) (effects : List Effect) : List BroadcastTask :=
  (broadcasts effects).map fun req => ⟨req, turn⟩

/-- Spawned broadcasts wait. -/
theorem effects_spawned (n : Nat) (shuffle : Shuffle) (effects : List Effect) :
    ∀ air : Airwaves,
      (air.effects false n shuffle effects).tasks = air.tasks ++ askedIn n effects ∧
        (air.effects false n shuffle effects).sends = air.sends ∧
        (air.effects false n shuffle effects).fanOuts = air.fanOuts := by
  induction effects with
  | nil => exact fun air => ⟨(List.append_nil air.tasks).symm, rfl, rfl⟩
  | cons e effects ih =>
      intro air
      cases e with
      | broadcast req =>
          have hrest := ih { air with tasks := air.tasks ++ [⟨req, n⟩] }
          exact ⟨hrest.1.trans (List.append_assoc _ _ _), hrest.2⟩
      | setMembership members =>
          exact ih { air with
            broadcaster := air.broadcaster.setMembership shuffle (endpointsAsSocketAddrs members) }
      | _ => exact ih air

/-- As long as the recipients stay the same, every awaited broadcast goes to each of them at once. -/
theorem effects_awaited (n : Nat) (shuffle : Shuffle) (h : Unset effects) :
    ∀ air : Airwaves,
      (air.effects true n shuffle effects).tasks = air.tasks ∧
        (air.effects true n shuffle effects).sends =
          air.sends ++ (broadcasts effects).flatMap air.broadcaster.broadcast ∧
        (air.effects true n shuffle effects).fanOuts =
          air.fanOuts ++ (askedIn n effects).map fun task => ⟨task, n⟩ := by
  induction effects with
  | nil => exact fun air => ⟨rfl, (List.append_nil air.sends).symm, (List.append_nil _).symm⟩
  | cons e effects ih =>
      intro air
      have hrest : Unset effects := fun new hnew => h new (List.mem_cons_of_mem _ hnew)
      cases e with
      | setMembership new => exact absurd List.mem_cons_self (h new)
      | broadcast req =>
          rcases ih hrest (air.fanOut ⟨req, n⟩ n) with ⟨htasks, hsends, hfanOuts⟩
          exact ⟨htasks, hsends.trans (List.append_assoc _ _ _),
            hfanOuts.trans (List.append_assoc _ _ _)⟩
      | _ => exact ih hrest air

section Recipients

variable [Xxh64] {s t : ServiceState} {env : Environment} {cmd : ServiceCommand}

/-! ## Handlers -/

namespace ServiceState

theorem unset_spawnDetectors (s : ServiceState) : Unset s.spawnDetectors.2 := by
  intro members hmem
  unfold spawnDetectors at hmem
  split at hmem
  · dsimp only at hmem
    split at hmem
    · cases hmem
    · rcases List.mem_map.1 hmem with ⟨task, _, heq⟩
      cases heq
  · cases hmem

omit [Xxh64] in
theorem unset_cancel (s : ServiceState) : Unset s.cancelFailureDetectors.2 := by
  intro members hmem
  rcases List.mem_map.1 hmem with ⟨task, _, heq⟩
  cases heq

theorem unset_rebuild (s : ServiceState) : Unset s.rebuildDetectors.2 :=
  s.unset_cancel.append (unset_spawnDetectors _)

omit [Xxh64] in
theorem unset_abort (timer : Option TimerId) : Unset (timer.toList.map .abortFallback) := by
  intro members hmem
  rcases List.mem_map.1 hmem with ⟨id, _, heq⟩
  cases heq

omit [Xxh64] in
theorem unset_handleTick (s : ServiceState) (now : Instant) : Unset (s.handleTick now).2 := by
  intro members hmem
  unfold handleTick at hmem
  split at hmem
  · cases hmem
  · split at hmem
    · cases hmem
    · split at hmem
      · cases hmem
      · dsimp only at hmem
        split at hmem
        · cases List.mem_singleton.1 hmem
        · cases hmem

theorem unset_handleBatchedAlerts (s : ServiceState) (env : Environment) (msg : BatchedAlertMessage) :
    Unset (s.handleBatchedAlerts env msg).1.2 := by
  intro members hmem
  unfold handleBatchedAlerts at hmem
  dsimp only at hmem
  split at hmem
  · cases hmem
  · split at hmem
    · cases hmem
    · dsimp only at hmem
      split at hmem
      · cases List.mem_singleton.1 hmem
      · cases hmem

/-- Only a decision sets recipients. -/
theorem unset_dispatch (env : Environment) {outs : List FastOutgoing}
    (hundecided : ∀ out ∈ outs, ∀ proposal, out ≠ .decision proposal) :
    ∀ s : ServiceState, Unset (dispatch env outs s).2 := by
  induction outs with
  | nil => exact fun s members hmem => by cases hmem
  | cons out outs ih =>
      intro s
      have hfirst : Unset (dispatchOne env out s).2 := by
        intro members hmem
        cases out with
        | broadcast request =>
            unfold dispatchOne at hmem
            dsimp only at hmem
            split at hmem
            · cases List.mem_singleton.1 hmem
            · cases hmem
        | unicast target request =>
            unfold dispatchOne at hmem
            dsimp only at hmem
            split at hmem
            · cases List.mem_singleton.1 hmem
            · cases hmem
        | scheduleClassicFallback delay =>
            rcases List.mem_append.1 hmem with hold | hnew
            · exact unset_abort _ members hold
            · cases List.mem_singleton.1 hnew
        | decision proposal => exact hundecided _ List.mem_cons_self proposal rfl
      exact hfirst.append (ih (fun o ho => hundecided o (List.mem_cons_of_mem _ ho)) _)

omit [Xxh64] in
theorem undecided_of_sends {outs : List FastOutgoing} (hsends : ∀ out ∈ outs, out.IsSend) :
    ∀ out ∈ outs, ∀ proposal, out ≠ .decision proposal := by
  rintro out hout proposal rfl
  exact (hsends _ hout).elim

omit [Xxh64] in
theorem undecided_propose (fp : FastPaxos) (jitter : Duration) (proposal : List Endpoint) :
    ∀ out ∈ (fp.propose jitter proposal).2, ∀ decided, out ≠ .decision decided := by
  rintro out hout decided rfl
  unfold FastPaxos.propose at hout
  rcases List.mem_cons.1 hout with heq | hlast
  · cases heq
  · cases List.mem_singleton.1 hlast

theorem unset_propose (s : ServiceState) (env : Environment) (proposal : List Endpoint) :
    Unset (s.propose env proposal).2 := by
  unfold propose
  split
  · exact fun members hmem => by cases hmem
  · rename_i fp _
    have hcall : Unset [.call (.propose proposal)] :=
      fun members hmem => by cases List.mem_singleton.1 hmem
    exact hcall.append (unset_dispatch env (undecided_propose fp env.jitter proposal) _)

theorem unset_monitoredOn (s : ServiceState) (proposal : List Endpoint) :
    Unset (s.monitoredOn proposal).2 := by
  unfold monitoredOn
  split
  · exact unset_rebuild _
  · exact fun members hmem => by cases List.mem_singleton.1 hmem

theorem unset_answeredOn (s : ServiceState) (env : Environment) (proposal : List Endpoint) :
    Unset (s.answeredOn env proposal).2 := by
  rcases (s.monitoredOn proposal).1.respondToJoiners_answers env proposal
    (s.changeOf proposal).membership with ⟨response, _, _, _, _, hrespond⟩
  intro members hmem
  rw [answeredOn, hrespond, mem_answerParked] at hmem
  rcases hmem with ⟨_, _, _, _, _, _, heq⟩
  cases heq

/-- The members of the view that a decision installs. -/
theorem memberlist_decide (s : ServiceState) (env : Environment) (proposal : List Endpoint) :
    (s.decideAndReplace env proposal).1.memberlist = (s.changeOf proposal).membership := by
  have hview : (s.appliedTo proposal).1.view.Refreshes (s.decideAndReplace env proposal).1.view :=
    (s.decideViewChange_decided env proposal).view
  rw [memberlist_eq, changeOf_membership, MembershipView.ringZero_eq hview.shows.rings]

/-- A decision hands its new members to the broadcaster. -/
theorem audience_decide (s : ServiceState) (hbroadcaster : s.broadcaster = true) (env : Environment)
    (proposal members : List Endpoint) :
    audience (s.decideAndReplace env proposal).2 members =
      (s.decideAndReplace env proposal).1.memberlist := by
  rw [memberlist_decide, decideAndReplace_effects, if_pos hbroadcaster]
  simp only [audience_append, audience_unset (s.unset_monitoredOn proposal),
    audience_unset (s.unset_answeredOn env proposal)]
  rfl

end ServiceState

/-- The audience changes with the view. -/
theorem Piece.audience {effects : List Effect} (h : Piece env cmd s effects t)
    (hbroadcaster : s.broadcaster = true) : audience effects s.memberlist = t.memberlist := by
  have hstays : Unset effects → s.view.Keeps t.view →
      Rapid.audience effects s.memberlist = t.memberlist := by
    intro hunset hview
    rw [audience_unset hunset, memberlist_of_keeps hview]
  cases h with
  | refresh => exact hstays (fun _ h => by cases h) (MembershipView.Refreshes.current s.view).keeps
  | reply id answer => rfl
  | shutdown => rfl
  | initialView reply =>
      exact hstays (fun _ h => by cases List.mem_singleton.1 h)
        (s.quiet_publishInitialView env).view.keeps
  | park msg reply => exact hstays (fun _ h => by cases h) (MembershipView.Refreshes.current s.view).keeps
  | failure ev => exact hstays (fun _ h => by cases h) (s.quiet_handleEdgeFailure env.now ev).view.keeps
  | tick => exact hstays (s.unset_handleTick env.now) (s.calm_handleTick env.now).quiet.view.keeps
  | rebuild reply => exact hstays s.unset_rebuild s.calm_rebuildDetectors.quiet.view.keeps
  | alerts msg reply =>
      exact hstays (s.unset_handleBatchedAlerts env msg) (s.handleBatchedAlerts_keeps env msg)
  | announce msg reply fp hcmd hproposal hfp =>
      rcases s.announce_eq env msg hfp with ⟨broadcasts, delay, _, hpropose⟩
      refine hstays ((s.unset_handleBatchedAlerts env msg).append (ServiceState.unset_propose _ env _)) ?_
      rw [hpropose]
      exact s.handleBatchedAlerts_keeps env msg
  | consult fp called r hfp hcall hsends =>
      refine hstays (Unset.append ?_ (ServiceState.unset_dispatch env
        (ServiceState.undecided_of_sends hsends) _)) (.refl _)
      cases hcall with
      | message => exact fun _ h => by cases h
      | classic => exact fun _ h => by cases List.mem_singleton.1 h
  | decided fp called r proposal =>
      rw [audience_append]
      exact ServiceState.audience_decide { s with fastPaxos := some r.1 } hbroadcaster env proposal _
  | applied proposal reply => exact s.audience_decide hbroadcaster env proposal _

/-! ## Commands -/

/-- No command both broadcasts and sets recipients. -/
def Exclusive (effects : List Effect) : Prop :=
  Unset effects ∨ broadcasts effects = []

omit [Xxh64] in
theorem Exclusive.reply {effects : List Effect} (h : Exclusive effects) (id : ReplyId) (answer : Reply) :
    Exclusive (effects ++ [.reply id answer]) := by
  rcases h with hunset | hsilent
  · exact .inl (hunset.append fun members hmem => by cases List.mem_singleton.1 hmem)
  · refine .inr ?_
    unfold broadcasts at hsilent ⊢
    rw [List.filterMap_append, hsilent]
    rfl

omit [Xxh64] in
theorem broadcasts_of_sent {effects : List Effect} (h : sent effects = []) : broadcasts effects = [] := by
  refine List.filterMap_eq_nil_iff.2 fun e he => ?_
  have hnone := List.filterMap_eq_nil_iff.1 h e he
  cases e with
  | broadcast req => cases hnone
  | _ => rfl

namespace ServiceState

theorem exclusive_decide (s : ServiceState) (env : Environment) (proposal : List Endpoint) :
    Exclusive (s.decideAndReplace env proposal).2 :=
  .inr (broadcasts_of_sent (s.sent_decide proposal))

theorem exclusive_dispatch (env : Environment) {outs : List FastOutgoing} (h : Orderly outs)
    (s : ServiceState) : Exclusive (dispatch env outs s).2 := by
  rcases h with hsends | ⟨proposal, rfl⟩
  · exact .inl (unset_dispatch env (undecided_of_sends hsends) s)
  · rw [dispatch_decision]
    exact s.exclusive_decide env proposal

theorem exclusive_consensus (s : ServiceState) (env : Environment) (request : RapidRequest) :
    Exclusive (s.handleConsensusRequest env request).2 := by
  unfold handleConsensusRequest
  split
  · exact .inr rfl
  · rename_i fp _
    exact exclusive_dispatch env (fp.orderly_handleConsensusMessage request) _

theorem exclusive_startClassic (s : ServiceState) (env : Environment) :
    Exclusive (s.startClassic env).2 := by
  unfold startClassic
  split
  · exact .inr rfl
  · rename_i fp _
    rcases exclusive_dispatch env fp.orderly_startClassicRound
      { s with fastPaxos := some fp.startClassicRound.1 } with hunset | hsilent
    · have hcall : Unset [.call .startClassicRound] :=
        fun members hmem => by cases List.mem_singleton.1 hmem
      exact .inl (hcall.append hunset)
    · exact .inr hsilent

theorem exclusive_handleRequest (s : ServiceState) (env : Environment) (request : RapidRequest)
    (reply : ReplyId) : Exclusive (s.handleRequest env request reply).2 := by
  have hanswer : ∀ answer, Exclusive [.reply reply answer] := fun answer => .inr rfl
  have hconsensus : ∀ content : RapidRequest.Content,
      Exclusive ((s.handleConsensusRequest env ⟨some content⟩).andThen fun t =>
        (t, [.reply reply emptyReply])).2 :=
    fun content => (s.exclusive_consensus env ⟨some content⟩).reply reply _
  obtain ⟨content⟩ := request
  unfold handleRequest
  split
  · exact hanswer _
  · cases content with
    | none => exact hanswer _
    | some content =>
        cases content with
        | preJoinMessage msg => exact hanswer _
        | joinMessage msg =>
            show Exclusive (s.handleJoin env msg reply).2
            rcases (s.handleJoin_parks env msg reply).effects with hnone | ⟨id, answer, hreply⟩
            · rw [hnone]
              exact .inr rfl
            · rw [hreply]
              exact .inr rfl
        | batchedAlertMessage msg =>
            have hproposed : Unset ((s.handleBatchedAlerts env msg).1.andThen fun t =>
                if (s.handleBatchedAlerts env msg).2 = [] then (t, [])
                else t.propose env (s.handleBatchedAlerts env msg).2).2 := by
              refine (s.unset_handleBatchedAlerts env msg).append ?_
              split
              · exact fun members hmem => by cases hmem
              · exact unset_propose _ env _
            exact Exclusive.reply (.inl hproposed) reply _
        | probeMessage msg => exact hanswer _
        | leaveMessage msg =>
            dsimp only
            split
            · exact hanswer _
            · exact hanswer _
        | fastRoundPhase2bMessage msg => exact hconsensus (.fastRoundPhase2bMessage msg)
        | phase1aMessage msg => exact hconsensus (.phase1aMessage msg)
        | phase1bMessage msg => exact hconsensus (.phase1bMessage msg)
        | phase2aMessage msg => exact hconsensus (.phase2aMessage msg)
        | phase2bMessage msg => exact hconsensus (.phase2bMessage msg)

theorem exclusive_handleCommand (s : ServiceState) (env : Environment) (cmd : ServiceCommand) :
    Exclusive (s.handleCommand env cmd).1.2 := by
  cases cmd with
  | request request reply => exact s.exclusive_handleRequest env request reply
  | memberlist reply => exact .inr rfl
  | membershipSize reply => exact .inr rfl
  | metadata reply => exact .inr rfl
  | configurationId reply => exact .inr rfl
  | shutdown => exact .inr rfl
  | tickAlertBatcher => exact .inl (s.unset_handleTick env.now)
  | edgeFailure ev => exact .inr rfl
  | rebuildFailureDetectors reply => exact Exclusive.reply (.inl s.unset_rebuild) reply _
  | alertQueueLen reply => exact .inr rfl
  | applyProposal proposal reply => exact (s.exclusive_decide env proposal).reply reply _
  | startClassicRound => exact s.exclusive_startClassic env
  | publishInitialView reply => exact .inr rfl

/-- The audience after a command is the view after it. -/
theorem audience_handleCommand (s : ServiceState) (hbroadcaster : s.broadcaster = true)
    (env : Environment) (cmd : ServiceCommand) :
    audience (s.handleCommand env cmd).1.2 s.memberlist = (s.handleCommand env cmd).1.1.memberlist := by
  have hpieces : Pieces env cmd s (s.handleCommand env cmd).1.2 (s.handleCommand env cmd).1.1 :=
    s.pieces_handleCommand cmd
  have hstep : ∀ t es u trace, (t.broadcaster = true ∧ audience trace s.memberlist = t.memberlist) →
      Piece env cmd t es u → u.broadcaster = true ∧ audience (trace ++ es) s.memberlist = u.memberlist := by
    rintro t es u trace ⟨ht, haudience⟩ hpiece
    refine ⟨hpiece.setup.broadcaster.trans ht, ?_⟩
    rw [audience_append, haudience]
    exact hpiece.audience ht
  have hstart : s.broadcaster = true ∧ audience [] s.memberlist = s.memberlist := ⟨hbroadcaster, rfl⟩
  have hall := hpieces.invariant
    (I := fun t trace => t.broadcaster = true ∧ audience trace s.memberlist = t.memberlist)
    (fun t es u trace ht _ hpiece => hstep t es u trace ht hpiece) (fun _ _ => trivial) hstart
  exact hall.2

end ServiceState

/-- A command that broadcasts leaves the members as they are. -/
theorem memberlist_of_broadcast (hbroadcaster : s.broadcaster = true) {req : RapidRequest}
    (hreq : req ∈ broadcasts (s.handleCommand env cmd).1.2) :
    (s.handleCommand env cmd).1.1.memberlist = s.memberlist := by
  rcases s.exclusive_handleCommand env cmd with hunset | hsilent
  · rw [← s.audience_handleCommand hbroadcaster env cmd, audience_unset hunset]
  · rw [hsilent] at hreq
    cases hreq

/-- The builder broadcasts nothing. -/
theorem broadcasts_of_boots {outcome : Outcome} (h : Boots outcome) :
    broadcasts outcome.2 = [] := by
  have hfinish : ∀ listen settings view detector metadata,
      broadcasts (ServiceState.finishCluster listen settings view detector metadata).2 = [] :=
    fun listen settings view detector metadata =>
      broadcasts_of_sent (ServiceState.sent_rebuildDetectors _)
  rcases h with ⟨settings, listen, own, nodeId, hstart⟩ | ⟨settings, listen, own, response, hjoin⟩
  · rcases ServiceState.built_of_ok hstart with ⟨view, detector, _, _, rfl⟩
    exact hfinish _ _ _ _ _
  · rcases ServiceState.built_of_ok hjoin with ⟨view, detector, _, _, rfl⟩
    exact hfinish _ _ _ _ _

/-! ## Runs with a broadcaster -/

/-- The actor handles a command, or a spawned broadcast runs. -/
inductive BroadcastStep
  | command (env : Environment) (cmd : ServiceCommand) (shuffle : Shuffle)
  | task (k : Nat)

/-- A run, the broadcaster it uses and all that was sent; and the members at boot and after each
command, for the record. -/
structure BroadcastRun where
  run : ServiceRun
  air : Airwaves
  memberships : List (List Endpoint)

namespace BroadcastRun

/-- The builder sets the recipients before the actor is spawned. -/
def boot (outcome : Outcome) (shuffle : Shuffle) : BroadcastRun where
  run := ⟨outcome.1, outcome.2, [], false⟩
  air := .init (UnicastToAllBroadcaster.new.setMembership shuffle
    (endpointsToSocketAddrs outcome.1.memberlist))
  memberships := [outcome.1.memberlist]

/-- How many commands were handled. -/
def turn (b : BroadcastRun) : Nat :=
  b.run.handled.length

/-- The members after so many commands. -/
def membersAt (b : BroadcastRun) (turn : Nat) : List Endpoint :=
  b.memberships[turn]?.getD []

omit [Xxh64] in
theorem length_membersAt (b : BroadcastRun) (turn : Nat) :
    (b.membersAt turn).length = (b.memberships.map List.length)[turn]?.getD 0 := by
  unfold membersAt
  rw [List.getElem?_map]
  cases b.memberships[turn]? with
  | none => rfl
  | some members => rfl

def next (b : BroadcastRun) (env : Environment) (cmd : ServiceCommand) (shuffle : Shuffle) :
    BroadcastRun where
  run := b.run.next env cmd
  air := b.air.effects cmd.awaitsBroadcast b.turn shuffle (b.run.effects env cmd)
  memberships := b.memberships ++ [(b.run.next env cmd).state.memberlist]

end BroadcastRun

def broadcastSystem : System BroadcastRun BroadcastStep where
  init b := ∃ outcome shuffle, Boots outcome ∧ b = .boot outcome shuffle
  step
    | b, .command env cmd shuffle =>
        (serviceSystem.step b.run (env, cmd)).map fun _ => b.next env cmd shuffle
    | b, .task k => (b.air.runTask b.turn k).map fun air => { b with air := air }

/-- The broadcasts asked for so far: those that were sent and those that wait. -/
def Airwaves.asked (air : Airwaves) : List BroadcastTask :=
  air.fanOuts.map FanOut.task ++ air.tasks

def RapidRequest.IsBatch (req : RapidRequest) : Prop :=
  ∃ batch, req = ⟨some (.batchedAlertMessage batch)⟩

/-- Every broadcast of the run is fanned out once, or waits; what was sent is one message for each
member of the view in which the broadcast read the recipients. -/
structure BroadcastsReach (b : BroadcastRun) : Prop where
  conserved : (b.air.asked.map BroadcastTask.request).Perm (broadcasts b.run.trace)
  reached : b.air.sends.Perm (b.air.fanOuts.flatMap fun f =>
    (endpointsAsSocketAddrs (b.membersAt f.read)).map fun addr => (addr, f.task.request))
  current : b.membersAt b.turn = b.run.state.memberlist
  /-- The command that asked for a broadcast left the members as they were. -/
  asked : ∀ task ∈ b.air.asked, task.asked < b.turn ∧
    b.membersAt (task.asked + 1) = b.membersAt task.asked
  read : ∀ f ∈ b.air.fanOuts, f.task.asked ≤ f.read ∧ f.read ≤ b.turn
  /-- A batch of alerts is sent by the command that asks for it. -/
  prompt : ∀ f ∈ b.air.fanOuts, f.task.request.IsBatch → f.read = f.task.asked
  waiting : ∀ task ∈ b.air.tasks, ¬ task.request.IsBatch

/-- The broadcaster knows the members of the current view. -/
structure Current (b : BroadcastRun) : Prop where
  broadcaster : b.run.state.broadcaster = true
  recipients : b.air.broadcaster.recipients.Perm (endpointsAsSocketAddrs b.run.state.memberlist)
  recorded : b.memberships.length = b.turn + 1

theorem Current.command {b : BroadcastRun} (h : Current b) (env : Environment) (cmd : ServiceCommand)
    (shuffle : Shuffle) : Current (b.next env cmd shuffle) := by
  have hsetup := setup_handleCommand b.run.state env cmd
  refine ⟨hsetup.broadcaster.trans h.broadcaster, ?_, ?_⟩
  · have hrecipients := recipients_effects cmd.awaitsBroadcast b.turn shuffle
      (b.run.effects env cmd) h.recipients
    rw [show b.run.effects env cmd = (b.run.state.handleCommand env cmd).1.2 from rfl,
      b.run.state.audience_handleCommand h.broadcaster env cmd] at hrecipients
    exact hrecipients
  · simp [BroadcastRun.next, BroadcastRun.turn, ServiceRun.next, h.recorded]

omit [Xxh64] in
/-- The current members are reached. -/
theorem Current.broadcast {b : BroadcastRun} (h : Current b)
    (hcurrent : b.membersAt b.turn = b.run.state.memberlist) (req : RapidRequest) :
    (b.air.broadcaster.broadcast req).Perm
      ((endpointsAsSocketAddrs (b.membersAt b.turn)).map fun addr => (addr, req)) := by
  rw [hcurrent]
  exact h.recipients.map _

section Steps

variable {b : BroadcastRun} {shuffle : Shuffle} {i k : Nat}

theorem membersAt_next (h : Current b) (hi : i ≤ b.turn) :
    (b.next env cmd shuffle).membersAt i = b.membersAt i := by
  unfold BroadcastRun.membersAt BroadcastRun.next
  rw [List.getElem?_append_left (h.recorded ▸ Nat.lt_succ_of_le hi)]

theorem membersAt_next_turn (h : Current b) :
    (b.next env cmd shuffle).membersAt (b.turn + 1) =
      (b.run.state.handleCommand env cmd).1.1.memberlist := by
  unfold BroadcastRun.membersAt BroadcastRun.next
  rw [← h.recorded, List.getElem?_concat_length]
  rfl

theorem turns_of_next : (b.next env cmd shuffle).turn = b.turn + 1 := by
  simp [BroadcastRun.turn, BroadcastRun.next, ServiceRun.next]

theorem current_next (h : Current b) :
    (b.next env cmd shuffle).membersAt (b.next env cmd shuffle).turn =
      (b.next env cmd shuffle).run.state.memberlist := by
  rw [turns_of_next, membersAt_next_turn h]
  rfl

omit [Xxh64] in
theorem mem_askedIn {task : BroadcastTask} {effects : List Effect} :
    task ∈ askedIn n effects ↔ task.request ∈ broadcasts effects ∧ task.asked = n := by
  constructor
  · intro h
    rcases List.mem_map.1 h with ⟨req, hreq, rfl⟩
    exact ⟨hreq, rfl⟩
  · rintro ⟨hreq, rfl⟩
    exact List.mem_map.2 ⟨task.request, hreq, rfl⟩

/-- What holds of the broadcasts asked for, after one more command asked for some. -/
theorem BroadcastsReach.asked_next (hreach : BroadcastsReach b) (h : Current b)
    (hasked : (b.next env cmd shuffle).air.asked.Perm
      (b.air.asked ++ askedIn b.turn (b.run.effects env cmd))) :
    ((b.next env cmd shuffle).air.asked.map BroadcastTask.request).Perm
        (broadcasts (b.next env cmd shuffle).run.trace) ∧
      ∀ task ∈ (b.next env cmd shuffle).air.asked, task.asked < (b.next env cmd shuffle).turn ∧
        (b.next env cmd shuffle).membersAt (task.asked + 1) =
          (b.next env cmd shuffle).membersAt task.asked := by
  constructor
  · have hnew : (askedIn b.turn (b.run.effects env cmd)).map BroadcastTask.request =
        broadcasts (b.run.effects env cmd) := by
      simp [askedIn, Function.comp_def]
    have hall := hasked.map BroadcastTask.request
    rw [List.map_append, hnew] at hall
    have htrace : broadcasts (b.next env cmd shuffle).run.trace =
        broadcasts b.run.trace ++ broadcasts (b.run.effects env cmd) := List.filterMap_append
    rw [htrace]
    exact hall.trans (hreach.conserved.append_right _)
  · intro task htask
    rw [turns_of_next]
    rcases List.mem_append.1 (hasked.mem_iff.1 htask) with hold | hnew
    · rcases hreach.asked task hold with ⟨hlt, hsame⟩
      rw [membersAt_next h hlt, membersAt_next h (Nat.le_of_lt hlt)]
      exact ⟨Nat.lt_succ_of_lt hlt, hsame⟩
    · -- The command itself asked: it has not changed the members.
      rcases mem_askedIn.1 hnew with ⟨hreq, hturn⟩
      rw [hturn, membersAt_next_turn h, membersAt_next h (Nat.le_refl _), hreach.current]
      exact ⟨Nat.lt_succ_self _, memberlist_of_broadcast h.broadcaster hreq⟩

/-- What was fanned out before the command keeps its members. -/
theorem BroadcastsReach.reached_next (hreach : BroadcastsReach b) (h : Current b) :
    (b.air.fanOuts.flatMap fun f =>
      (endpointsAsSocketAddrs ((b.next env cmd shuffle).membersAt f.read)).map fun addr =>
        (addr, f.task.request)) =
    b.air.fanOuts.flatMap fun f =>
      (endpointsAsSocketAddrs (b.membersAt f.read)).map fun addr => (addr, f.task.request) := by
  refine List.flatMap_congr fun f hf => ?_
  rw [membersAt_next h (hreach.read f hf).2]

theorem BroadcastsReach.read_next (hreach : BroadcastsReach b) {f : FanOut}
    (hf : f ∈ b.air.fanOuts) :
    f.task.asked ≤ f.read ∧ f.read ≤ (b.next env cmd shuffle).turn := by
  rw [turns_of_next]
  exact ⟨(hreach.read f hf).1, Nat.le_succ_of_le (hreach.read f hf).2⟩

/-- Only a tick of the batcher asks for a batch. -/
theorem not_isBatch_of_asked (hcmd : cmd ≠ .tickAlertBatcher) {task : BroadcastTask}
    (htask : task ∈ askedIn n (b.run.effects env cmd)) : ¬ task.request.IsBatch := by
  rintro ⟨batch, hbatch⟩
  have hmem : batch ∈ batches (b.run.effects env cmd) := by
    rcases List.mem_filterMap.1 (mem_askedIn.1 htask).1 with ⟨e, he, hreq⟩
    refine List.mem_filterMap.2 ⟨e, he, ?_⟩
    cases e with
    | broadcast req =>
        cases hreq
        rw [hbatch]
        rfl
    | _ => cases hreq
  rw [show batches (b.run.effects env cmd) = [] from
    batches_handleCommand hcmd b.run.state env] at hmem
  cases hmem

/-- A command whose broadcasts are spawned. -/
theorem BroadcastsReach.spawned (hreach : BroadcastsReach b) (h : Current b)
    (hcmd : cmd ≠ .tickAlertBatcher) : BroadcastsReach (b.next env cmd shuffle) := by
  have hawaits : cmd.awaitsBroadcast = false := by
    cases cmd with
    | tickAlertBatcher => exact absurd rfl hcmd
    | _ => rfl
  rcases effects_spawned b.turn shuffle (b.run.effects env cmd) b.air with
    ⟨htasks, hsends, hfanOuts⟩
  have htasks' : (b.next env cmd shuffle).air.tasks =
      b.air.tasks ++ askedIn b.turn (b.run.effects env cmd) := by
    rw [← htasks, BroadcastRun.next, hawaits]
  have hsends' : (b.next env cmd shuffle).air.sends = b.air.sends := by
    rw [← hsends, BroadcastRun.next, hawaits]
  have hfanOuts' : (b.next env cmd shuffle).air.fanOuts = b.air.fanOuts := by
    rw [← hfanOuts, BroadcastRun.next, hawaits]
  have hasked : (b.next env cmd shuffle).air.asked.Perm
      (b.air.asked ++ askedIn b.turn (b.run.effects env cmd)) := by
    unfold Airwaves.asked
    rw [htasks', hfanOuts', List.append_assoc]
  rcases hreach.asked_next h hasked with ⟨hconserved, hall⟩
  refine ⟨hconserved, ?_, current_next h, hall, ?_, ?_, ?_⟩
  · rw [hsends', hfanOuts', hreach.reached_next h]
    exact hreach.reached
  · exact fun f hf => hreach.read_next (hfanOuts' ▸ hf)
  · exact fun f hf => hreach.prompt f (hfanOuts' ▸ hf)
  · intro task htask
    rcases List.mem_append.1 (htasks' ▸ htask) with hold | hnew
    · exact hreach.waiting task hold
    · exact not_isBatch_of_asked hcmd hnew

/-- A tick of the batcher. -/
theorem BroadcastsReach.awaited (hreach : BroadcastsReach b) (h : Current b) :
    BroadcastsReach (b.next env .tickAlertBatcher shuffle) := by
  rcases effects_awaited b.turn shuffle (b.run.state.unset_handleTick env.now) b.air with
    ⟨htasks, hsends, hfanOuts⟩
  have htasks' : (b.next env .tickAlertBatcher shuffle).air.tasks = b.air.tasks := htasks
  have hsends' : (b.next env .tickAlertBatcher shuffle).air.sends = _ := hsends
  have hfanOuts' : (b.next env .tickAlertBatcher shuffle).air.fanOuts = _ := hfanOuts
  have hasked : (b.next env .tickAlertBatcher shuffle).air.asked.Perm
      (b.air.asked ++ askedIn b.turn (b.run.effects env .tickAlertBatcher)) := by
    unfold Airwaves.asked
    rw [htasks', hfanOuts', List.map_append, List.append_assoc, List.append_assoc]
    refine List.Perm.append_left _ ?_
    rw [List.map_map]
    exact (List.map_id _).symm ▸ List.perm_append_comm
  rcases hreach.asked_next h hasked with ⟨hconserved, hall⟩
  refine ⟨hconserved, ?_, current_next h, hall, ?_, ?_,
    fun task htask => hreach.waiting task (htasks' ▸ htask)⟩
  · -- The new batches go to the members before the tick, who are still those after it.
    rw [hsends', hfanOuts', List.flatMap_append, hreach.reached_next h]
    refine hreach.reached.append ?_
    simp only [askedIn, List.flatMap_map, membersAt_next h (Nat.le_refl _)]
    exact List.Perm.flatMap_left _ fun req _ => h.broadcast hreach.current req
  · intro f hf
    rcases List.mem_append.1 (hfanOuts' ▸ hf) with hold | hnew
    · exact hreach.read_next hold
    · rcases List.mem_map.1 hnew with ⟨task, htask, rfl⟩
      rw [turns_of_next]
      exact ⟨Nat.le_of_eq (mem_askedIn.1 htask).2, Nat.le_succ _⟩
  · intro f hf hbatch
    rcases List.mem_append.1 (hfanOuts' ▸ hf) with hold | hnew
    · exact hreach.prompt f hold hbatch
    · rcases List.mem_map.1 hnew with ⟨task, htask, rfl⟩
      exact (mem_askedIn.1 htask).2.symm

omit [Xxh64] in
/-- A spawned broadcast runs. -/
theorem BroadcastsReach.runTask (hreach : BroadcastsReach b) (h : Current b) {air : Airwaves}
    (hrun : b.air.runTask b.turn k = some air) : BroadcastsReach { b with air := air } := by
  rcases Option.map_eq_some_iff.1 hrun with ⟨task, htask, rfl⟩
  rcases List.getElem?_eq_some_iff.1 htask with ⟨hk, hget⟩
  have htasks : (task :: b.air.tasks.eraseIdx k).Perm b.air.tasks := by
    rw [← hget]
    exact List.getElem_cons_eraseIdx_perm hk
  have hmem : task ∈ b.air.tasks := htasks.mem_iff.1 List.mem_cons_self
  -- The broadcasts asked for stay the same; one of them is no longer waiting.
  have hasked : ((b.air.fanOuts ++ [FanOut.mk task b.turn]).map FanOut.task ++
      b.air.tasks.eraseIdx k).Perm b.air.asked := by
    rw [List.map_append, List.append_assoc]
    exact List.Perm.append_left _ htasks
  have hall := fun t ht => hreach.asked t (hasked.mem_iff.1 ht)
  refine ⟨(hasked.map _).trans hreach.conserved, ?_, hreach.current, hall, ?_, ?_, ?_⟩
  · refine List.Perm.trans (hreach.reached.append (h.broadcast hreach.current task.request)) ?_
    exact List.Perm.of_eq (by simp [Airwaves.fanOut, BroadcastRun.membersAt, BroadcastRun.turn])
  · intro f hf
    rcases List.mem_append.1 hf with hold | hnew
    · exact hreach.read f hold
    · cases List.mem_singleton.1 hnew
      exact ⟨Nat.le_of_lt (hreach.asked task (List.mem_append_right _ hmem)).1, Nat.le_refl _⟩
  · intro f hf hbatch
    rcases List.mem_append.1 hf with hold | hnew
    · exact hreach.prompt f hold hbatch
    · cases List.mem_singleton.1 hnew
      exact absurd hbatch (hreach.waiting task hmem)
  · exact fun t ht => hreach.waiting t (List.mem_of_mem_eraseIdx ht)

end Steps

/-- All broadcasts reach the members: a batch of alerts those of the view in which it is sent, a message
of the consensus those of the view in which its task runs. -/
theorem broadcasts_reach_members {b : BroadcastRun} (h : broadcastSystem.Reachable b) :
    BroadcastsReach b := by
  refine (h.invariant (I := fun b => Current b ∧ BroadcastsReach b) ?_ ?_).2
  · rintro b ⟨outcome, shuffle, hboots, rfl⟩
    have hsilent := broadcasts_of_boots hboots
    refine ⟨⟨hboots.equipped.broadcaster, shuffle.perm _, rfl⟩, ?_, .refl _, rfl, ?_, ?_, ?_, ?_⟩
    · change List.Perm [] (broadcasts outcome.2)
      rw [hsilent]
    · exact fun task htask => by cases htask
    · exact fun f hf => by cases hf
    · exact fun f hf => by cases hf
    · exact fun task htask => by cases htask
  · rintro b a b' _ ⟨hcurrent, hreach⟩ _ hstep
    cases a with
    | command env cmd shuffle =>
        rcases Option.map_eq_some_iff.1 hstep with ⟨_, _, rfl⟩
        refine ⟨hcurrent.command env cmd shuffle, ?_⟩
        by_cases htick : cmd = .tickAlertBatcher
        · subst htick
          exact hreach.awaited hcurrent
        · exact hreach.spawned hcurrent htick
    | task k =>
        rcases Option.map_eq_some_iff.1 hstep with ⟨air, hrun, rfl⟩
        refine ⟨?_, hreach.runTask hcurrent hrun⟩
        rcases Option.map_eq_some_iff.1 hrun with ⟨task, _, rfl⟩
        exact ⟨hcurrent.broadcaster, hcurrent.recipients, hcurrent.recorded⟩

end Recipients

/-! ### A vote that is sent after the decision -/

section Sample

attribute [local instance] xxh64Reference

/-- The recipients stay in their order. -/
def keepOrder : Shuffle where
  order := id
  perm := List.Perm.refl

def quietEnvironment : Environment :=
  { ServiceState.sampleEnvironment with now := 200000000 }

/-- Three members take `hostB` out. The vote of `hostA` is broadcast by a task that runs after the
decision, before `hostA` sends the batch that says that `hostC` has failed. -/
def lateVote : Option BroadcastRun :=
  (ServiceState.sampleJoin 3 1 [⟨1, 1⟩, ⟨2, 2⟩, ⟨3, 3⟩] [hostA, hostB, hostC]).toOption.bind fun outcome =>
    (broadcastSystem.exec (.boot outcome keepOrder)
      ([.request (sampleAlerts outcome.1 .down hostB none) 0,
        .request (sampleVote outcome.1 hostA [hostB]) 1,
        .request (sampleVote outcome.1 hostB [hostB]) 2,
        .request (sampleVote outcome.1 hostC [hostB]) 3].map fun cmd =>
          .command ServiceState.sampleEnvironment cmd keepOrder)).bind fun decided =>
    broadcastSystem.exec decided
      [.task 0,
        .command ServiceState.sampleEnvironment
          (.edgeFailure ⟨hostC, decided.run.state.view.currentConfigurationId.2⟩) keepOrder,
        .command quietEnvironment .tickAlertBatcher keepOrder]

theorem lateVote_facts :
    (lateVote.map fun b => (b.memberships.map List.length,
      b.air.fanOuts.map fun f => (f.task.asked, f.read), b.air.tasks.length, b.air.sends.length)) =
      some ([3, 3, 3, 3, 2, 2, 2], [(0, 4), (5, 5)], 0, 4) := by
  decide +kernel

theorem lateVote_reachable {b : BroadcastRun} (h : lateVote = some b) :
    broadcastSystem.Reachable b := by
  rcases Option.bind_eq_some_iff.1 h with ⟨outcome, houtcome, hrest⟩
  rcases Option.bind_eq_some_iff.1 hrest with ⟨decided, hdecided, hexec⟩
  have hboots : Boots outcome := .inr ⟨_, _, _, _, eq_ok_of_toOption houtcome⟩
  have hstart : broadcastSystem.Reachable (.boot outcome keepOrder) :=
    .start ⟨outcome, keepOrder, hboots, rfl⟩
  exact (hstart.exec hdecided).exec hexec

/-- The vote was asked for among three members and goes to the two that are left, like the batch. -/
theorem lateVote_reached :
    ∃ b, lateVote = some b ∧ BroadcastsReach b ∧
      b.air.fanOuts.map (fun f => (f.task.asked, f.read)) = [(0, 4), (5, 5)] ∧
      (b.membersAt 0).length = 3 ∧ (b.membersAt 4).length = 2 := by
  rcases Option.map_eq_some_iff.1 lateVote_facts with ⟨b, hb, hfacts⟩
  simp only [Prod.mk.injEq] at hfacts
  rcases hfacts with ⟨hmembers, hfanOuts, _, _⟩
  refine ⟨b, hb, broadcasts_reach_members (lateVote_reachable hb), hfanOuts, ?_, ?_⟩
  · rw [BroadcastRun.length_membersAt, hmembers]
    rfl
  · rw [BroadcastRun.length_membersAt, hmembers]
    rfl

end Sample

end Rapid
