import Rapid.Messaging.Traits
import Rapid.Foundations.AccessTable
import Rapid.Foundations.History
import Rapid.Foundations.Swarm

/-!
# GrpcPool — calls that share channels, `messaging/grpc.rs`

The clones of a pool share a table with one channel for each remote. A call looks its remote up, connects
if there is no channel, and sends; after a failure it removes the channel of the remote from the table
and tries again. Only the single table operations are atomic: the lock is released before the request is
put on the channel, and between the two other calls run, so that a call may send on a channel that another
has just removed, or remove a channel that is not its own.

A request still goes out on channels of its remote only and at most once for each attempt, and the pool
hands out no channel after some call has dealt with its failure: who sends on such a channel later has
taken it before.
-/

namespace Rapid

open Foundations

/-! ## The pool -/

/-- A `GrpcClient`: channels are numbered in the order in which they were connected. -/
abbrev ClientId := Nat

abbrev CallId := Nat

/-- A `CachedClient` is an entry of the table. -/
structure GrpcPool where
  inner : AccessTable SocketAddr ClientId
  /-- In nanoseconds. -/
  expireAfter : Nat

namespace GrpcPool

def withExpiry (expireAfter : Nat) : GrpcPool where
  inner := ∅
  expireAfter := expireAfter

/-- `GrpcPool::new`: 30 s. -/
def new : GrpcPool :=
  withExpiry 30000000000

variable (pool : GrpcPool)

/-- The first block of `client_for`, under the lock. -/
def cached (now : Nat) (remote : SocketAddr) : GrpcPool × Option (Accessed ClientId) :=
  let r := pool.inner.touch pool.expireAfter now remote
  ({ pool with inner := r.1 }, r.2)

/-- The end of `client_for`: the time of access is the one read before the connection was made. -/
def insertClient (now : Nat) (remote : SocketAddr) (client : ClientId) : GrpcPool :=
  { pool with inner := pool.inner.offer now remote client }

def invalidate (remote : SocketAddr) : GrpcPool :=
  { pool with inner := pool.inner.erase remote }

end GrpcPool

/-! ## Calls -/

/-- Where a call of `send_with_retries` is: each phase ends in one atomic operation or one answer. -/
inductive CallPhase
  | ready
  | looking (now : Nat)
  | connecting (now : Nat)
  | inserting (now : Nat) (client : ClientId)
  | holding (client : ClientId)
  | sending (client : ClientId)
  | failing (client : Option ClientId) (e : CrateError)
  | done (result : SendResult)
  deriving DecidableEq

/-- The channel in the hands of a call. -/
def CallPhase.client? : CallPhase → Option ClientId
  | .inserting _ client => some client
  | .holding client => some client
  | .sending client => some client
  | .failing client _ => client
  | _ => none

/-- `errors` are the failures so far; the last one is `last_err`. -/
structure PoolCall where
  remote : SocketAddr
  req : RapidRequest
  retries : UInt8
  errors : List CrateError
  phase : CallPhase

/-- Whether the request of the current attempt is out. -/
def CallPhase.sends : CallPhase → Nat
  | .sending _ => 1
  | .failing (some _) _ => 1
  | .done (.ok _) => 1
  | _ => 0

/-- What a call learns while it goes on. -/
inductive PoolInput
  | go
  | connected (outcome : Except CrateError Unit)
  | answered (outcome : SendResult)

inductive PoolEvent
  /-- `client_for` returns; `idle` is set if the channel was in the table, to the time since its access. -/
  | taken (call : CallId) (client : ClientId) (idle : Option Nat)
  /-- A request goes out. -/
  | sent (call : CallId) (client : ClientId)
  /-- A call has dealt with the failure of a channel. -/
  | broken (client : ClientId)
  deriving DecidableEq

/-- All calls on a pool, the remotes of the channels, and what has happened. -/
structure PoolWorld where
  pool : GrpcPool
  clock : Nat
  calls : CallId → Option PoolCall
  remotes : List SocketAddr
  trace : List PoolEvent

inductive PoolStep
  | tick (elapsed : Nat)
  | call (i : CallId) (remote : SocketAddr) (req : RapidRequest) (retries : UInt8)
  | next (i : CallId) (input : PoolInput)

namespace PoolWorld

variable (w : PoolWorld)

/-- One call goes on. -/
def advance (i : CallId) (call : PoolCall) (phase : CallPhase) : PoolWorld :=
  { w with calls := Function.update w.calls i (some { call with phase := phase }) }

/-- The pool hands a channel to the call. -/
def take (i : CallId) (call : PoolCall) (client : ClientId) (idle : Option Nat) : PoolWorld :=
  { w.advance i call (.holding client) with trace := w.trace ++ [.taken i client idle] }

/-- The call puts its request on the channel that it holds. -/
def sendOn (i : CallId) (call : PoolCall) (client : ClientId) : PoolWorld :=
  { w.advance i call (.sending client) with trace := w.trace ++ [.sent i client] }

/-- The attempt has failed: the entry of the remote goes, and the call tries again if it may. -/
def afterFailure (i : CallId) (call : PoolCall) (client : Option ClientId) (e : CrateError) :
    PoolWorld :=
  let errors := call.errors ++ [e]
  -- `0..=retries` makes one attempt more than there are retries.
  let phase : CallPhase :=
    if errors.length ≤ call.retries.toNat then .ready else .done (.error e)
  { w.advance i { call with errors := errors } phase with
    pool := w.pool.invalidate call.remote
    trace := w.trace ++ client.toList.map .broken }

/-- The steps of `send_with_retries` and, within it, of `client_for`. -/
def next (i : CallId) (call : PoolCall) (input : PoolInput) : Option PoolWorld :=
  match call.phase, input with
  | .ready, .go => some (w.advance i call (.looking w.clock))
  | .looking now, .go =>
      let r := w.pool.cached now call.remote
      match r.2 with
      | some entry =>
          some ({ w with pool := r.1 }.take i call entry.value (some (now - entry.lastAccess)))
      | none => some ({ w with pool := r.1 }.advance i call (.connecting now))
  | .connecting now, .connected (.ok ()) =>
      some ({ w with remotes := w.remotes ++ [call.remote] }.advance i call
        (.inserting now w.remotes.length))
  | .connecting _, .connected (.error e) => some (w.advance i call (.failing none e))
  -- Another call may have put a channel there meanwhile: this one is then used, but not kept.
  | .inserting now client, .go =>
      some ({ w with pool := w.pool.insertClient now call.remote client }.take i call client none)
  -- The lock is released: what has happened to the channel since does not matter to the call.
  | .holding client, .go => some (w.sendOn i call client)
  | .sending _, .answered (.ok resp) => some (w.advance i call (.done (.ok resp)))
  | .sending client, .answered (.error e) => some (w.advance i call (.failing (some client) e))
  | .failing client e, .go => some (w.afterFailure i call client e)
  | _, _ => none

def step : PoolStep → Option PoolWorld
  | .tick elapsed => some { w with clock := w.clock + elapsed }
  | .call i remote req retries =>
      if w.calls i = none then
        some { w with calls := Function.update w.calls i (some ⟨remote, req, retries, [], .ready⟩) }
      else none
  | .next i input => (w.calls i).bind fun call => w.next i call input

end PoolWorld

/-- A pool and its calls. -/
def poolSystem : System PoolWorld PoolStep where
  init w := ∃ expireAfter clock, w = ⟨.withExpiry expireAfter, clock, fun _ => none, [], []⟩
  step := PoolWorld.step

/-! ## Moves -/

variable {w w' : PoolWorld} {i j : CallId} {call other : PoolCall} {client : ClientId}
  {remote : SocketAddr}

/-- Every channel of the table was in it before, at the same remote. -/
def GrpcPool.Within (pool' pool : GrpcPool) : Prop :=
  ∀ remote entry, pool'.inner.lookup remote = some entry →
    ∃ old, pool.inner.lookup remote = some old ∧ old.value = entry.value

theorem within_cached (pool : GrpcPool) (now : Nat) (remote : SocketAddr) :
    (pool.cached now remote).1.Within pool :=
  fun _ _ h => AccessTable.lookup_touch h

/-- All that a call does to the world in one go. -/
inductive PoolMove (w : PoolWorld) (i : CallId) (call : PoolCall) : PoolWorld → Prop
  | on {pool : GrpcPool} {phase : CallPhase} (hpool : pool.Within w.pool)
      (hexpire : pool.expireAfter = w.pool.expireAfter)
      (hclient : ∀ c, phase.client? = some c → call.phase.client? = some c)
      (hnew : ∀ now c, phase ≠ .inserting now c) (hheld : ∀ c, phase ≠ .holding c)
      (hsends : phase.sends = call.phase.sends)
      (hbefore : ∀ e, call.phase ≠ .done (.error e)) (hafter : ∀ e, phase ≠ .done (.error e)) :
      PoolMove w i call ({ w with pool := pool }.advance i call phase)
  | reuse {pool : GrpcPool} {entry : Accessed ClientId} {idle : Nat} (hphase : call.phase.sends = 0)
      (hbefore : ∀ e, call.phase ≠ .done (.error e)) (hpool : pool.Within w.pool)
      (hexpire : pool.expireAfter = w.pool.expireAfter)
      (hentry : w.pool.inner.lookup call.remote = some entry) (hidle : idle < w.pool.expireAfter) :
      PoolMove w i call ({ w with pool := pool }.take i call entry.value (some idle))
  | connect {now : Nat} (hphase : call.phase = .connecting now) :
      PoolMove w i call ({ w with remotes := w.remotes ++ [call.remote] }.advance i call
        (.inserting now w.remotes.length))
  | first {now : Nat} {client : ClientId} (hphase : call.phase = .inserting now client) :
      PoolMove w i call
        ({ w with pool := w.pool.insertClient now call.remote client }.take i call client none)
  | send {client : ClientId} (hphase : call.phase = .holding client) :
      PoolMove w i call (w.sendOn i call client)
  | failed {client : Option ClientId} {e : CrateError} (hphase : call.phase = .failing client e) :
      PoolMove w i call (w.afterFailure i call client e)

theorem within_refl (pool : GrpcPool) : pool.Within pool :=
  fun _ entry h => ⟨entry, h, rfl⟩

theorem PoolMove.of_next {input : PoolInput} (h : w.next i call input = some w') :
    PoolMove w i call w' := by
  obtain ⟨remote, req, retries, errors, phase⟩ := call
  cases phase with
  | ready =>
      cases input with
      | go =>
          cases h
          exact .on (within_refl _) rfl (fun c hc => (by cases hc)) (fun _ _ heq => (by cases heq))
            (fun _ heq => (by cases heq)) rfl (fun _ heq => (by cases heq)) fun _ heq => by cases heq
      | connected outcome => cases h
      | answered outcome => cases h
  | looking now =>
      cases input with
      | go =>
          simp only [PoolWorld.next] at h
          split at h
          · rename_i entry hentry
            cases h
            obtain ⟨hlookup, hidle⟩ := AccessTable.touch_eq_some hentry
            exact .reuse rfl (fun _ heq => (by cases heq)) (within_cached _ _ _) rfl hlookup hidle
          · cases h
            exact .on (within_cached _ _ _) rfl (fun c hc => (by cases hc))
              (fun _ _ heq => (by cases heq)) (fun _ heq => (by cases heq)) rfl
              (fun _ heq => (by cases heq)) fun _ heq => by cases heq
      | connected outcome => cases h
      | answered outcome => cases h
  | connecting now =>
      cases input with
      | go => cases h
      | connected outcome =>
          cases outcome with
          | ok =>
              cases h
              exact .connect rfl
          | error e =>
              cases h
              exact .on (within_refl _) rfl (fun c hc => (by cases hc))
                (fun _ _ heq => (by cases heq)) (fun _ heq => (by cases heq)) rfl
                (fun _ heq => (by cases heq)) fun _ heq => by cases heq
      | answered outcome => cases h
  | inserting now client =>
      cases input with
      | go =>
          cases h
          exact .first rfl
      | connected outcome => cases h
      | answered outcome => cases h
  | holding client =>
      cases input with
      | go =>
          cases h
          exact .send rfl
      | connected outcome => cases h
      | answered outcome => cases h
  | sending client =>
      cases input with
      | go => cases h
      | connected outcome => cases h
      | answered outcome =>
          cases outcome with
          | ok resp =>
              cases h
              exact .on (within_refl _) rfl (fun c hc => (by cases hc))
                (fun _ _ heq => (by cases heq)) (fun _ heq => (by cases heq)) rfl
                (fun _ heq => (by cases heq)) fun _ heq => by cases heq
          | error e =>
              cases h
              exact .on (within_refl _) rfl (fun c hc => hc) (fun _ _ heq => (by cases heq))
                (fun _ heq => (by cases heq)) rfl (fun _ heq => (by cases heq))
                fun _ heq => by cases heq
  | failing client e =>
      cases input with
      | go =>
          cases h
          exact .failed rfl
      | connected outcome => cases h
      | answered outcome => cases h
  | done result => cases h

/-! ## Channels -/

theorem lt_of_getElem? {α : Type*} {l : List α} {n : Nat} {a : α} (h : l[n]? = some a) :
    n < l.length :=
  (List.getElem?_eq_some_iff.1 h).1

theorem getElem?_append_of_some {α : Type*} {l more : List α} {n : Nat} {a : α} (h : l[n]? = some a) :
    (l ++ more)[n]? = some a :=
  (List.getElem?_append_left (lt_of_getElem? h)).trans h

/-- Channels in the table or in the hands of a call belong to the remote. One that is not yet in the table
is in one hand only, and one that a call has dealt with is neither in the table nor on the way to it. -/
structure Channels (w : PoolWorld) : Prop where
  cached : ∀ remote entry, w.pool.inner.lookup remote = some entry →
    w.remotes[entry.value]? = some remote
  held : ∀ i call c, w.calls i = some call → call.phase.client? = some c →
    w.remotes[c]? = some call.remote
  unshared : ∀ i call now c, w.calls i = some call → call.phase = .inserting now c →
    .broken c ∉ w.trace ∧
      (∀ remote entry, w.pool.inner.lookup remote = some entry → entry.value ≠ c) ∧
      ∀ j other, w.calls j = some other → other.phase.client? = some c → j = i
  broken : ∀ c, .broken c ∈ w.trace → c < w.remotes.length ∧
    ∀ remote entry, w.pool.inner.lookup remote = some entry → entry.value ≠ c
  sent : ∀ i c, .sent i c ∈ w.trace →
    ∃ call, w.calls i = some call ∧ w.remotes[c]? = some call.remote
  retired : w.trace.Pairwise fun earlier later =>
    ∀ c, earlier = .broken c → ∀ i idle, later ≠ .taken i c idle

/-- Whose request was put on a channel keeps its remote. -/
theorem sent_update {w : PoolWorld} (h : Channels w) (hi : w.calls i = some call) (new : PoolCall)
    (hremote : new.remote = call.remote) {j : CallId} {c : ClientId} (hsent : .sent j c ∈ w.trace) :
    ∃ other, Function.update w.calls i (some new) j = some other ∧
      w.remotes[c]? = some other.remote := by
  rcases h.sent j c hsent with ⟨other, hother, hc⟩
  by_cases hj : j = i
  · subst hj
    rw [hi] at hother
    cases hother
    exact ⟨new, Function.update_self .., hremote ▸ hc⟩
  · exact ⟨other, (Function.update_of_ne hj ..).trans hother, hc⟩

/-- The table loses entries. -/
theorem Channels.within (h : Channels w) {pool : GrpcPool} (hpool : pool.Within w.pool) :
    Channels { w with pool := pool } where
  cached remote entry hentry := by
    obtain ⟨old, hold, hvalue⟩ := hpool remote entry hentry
    exact hvalue ▸ h.cached remote old hold
  held := h.held
  unshared i call now c hi hphase := by
    obtain ⟨hbroken, hcached, hheld⟩ := h.unshared i call now c hi hphase
    refine ⟨hbroken, fun remote entry hentry => ?_, hheld⟩
    obtain ⟨old, hold, hvalue⟩ := hpool remote entry hentry
    exact hvalue ▸ hcached remote old hold
  broken c hc := by
    obtain ⟨hlt, hcached⟩ := h.broken c hc
    refine ⟨hlt, fun remote entry hentry => ?_⟩
    obtain ⟨old, hold, hvalue⟩ := hpool remote entry hentry
    exact hvalue ▸ hcached remote old hold
  sent := h.sent
  retired := h.retired

/-- A call goes on without a new channel. -/
theorem Channels.advance (h : Channels w) (hi : w.calls i = some call) (errors : List CrateError)
    {phase : CallPhase} (hclient : ∀ c, phase.client? = some c → call.phase.client? = some c)
    (hnew : ∀ now c, phase ≠ .inserting now c) :
    Channels (w.advance i { call with errors := errors } phase) where
  cached := h.cached
  held j other c hj hc := by
    rcases Swarm.update_cases hj with ⟨rfl, rfl⟩ | ⟨_, hj⟩
    · exact h.held j call c hi (hclient c hc)
    · exact h.held j other c hj hc
  unshared j other now c hj hphase := by
    rcases Swarm.update_cases hj with ⟨rfl, rfl⟩ | ⟨_, hj⟩
    · exact absurd hphase (hnew now c)
    · obtain ⟨hbroken, hcached, hheld⟩ := h.unshared j other now c hj hphase
      refine ⟨hbroken, hcached, fun k holder hk hc => ?_⟩
      rcases Swarm.update_cases hk with ⟨rfl, rfl⟩ | ⟨_, hk⟩
      · exact hheld k call hi (hclient c hc)
      · exact hheld k holder hk hc
  broken := h.broken
  sent j c hsent := sent_update h hi { call with errors := errors, phase := phase } rfl hsent
  retired := h.retired

/-- The pool hands out a channel of the remote that nobody has dealt with or keeps for itself. -/
theorem Channels.take (h : Channels w) (hi : w.calls i = some call) (idle : Option Nat)
    (hremote : w.remotes[client]? = some call.remote) (hbroken : .broken client ∉ w.trace)
    (hunshared : ∀ j other now, w.calls j = some other → other.phase = .inserting now client → j = i) :
    Channels (w.take i call client idle) where
  cached := h.cached
  held j other c hj hc := by
    rcases Swarm.update_cases hj with ⟨rfl, rfl⟩ | ⟨_, hj⟩
    · cases hc
      exact hremote
    · exact h.held j other c hj hc
  unshared j other now c hj hphase := by
    rcases Swarm.update_cases hj with ⟨rfl, rfl⟩ | ⟨hne, hold⟩
    · cases hphase
    · obtain ⟨hnot, hcached, hheld⟩ := h.unshared j other now c hold hphase
      refine ⟨fun hmem => ?_, hcached, fun k holder hk hc => ?_⟩
      · rcases List.mem_append.1 hmem with hmem | hlast
        · exact hnot hmem
        · cases List.mem_singleton.1 hlast
      · rcases Swarm.update_cases hk with ⟨rfl, rfl⟩ | ⟨_, hk⟩
        · cases hc
          exact absurd (hunshared j other now hold hphase) hne
        · exact hheld k holder hk hc
  broken c hc := by
    rcases List.mem_append.1 hc with hold | hlast
    · exact h.broken c hold
    · cases List.mem_singleton.1 hlast
  sent j c hsent := by
    rcases List.mem_append.1 hsent with hold | hlast
    · exact sent_update h hi { call with phase := .holding client } rfl hold
    · cases List.mem_singleton.1 hlast
  retired := by
    refine List.pairwise_append.2 ⟨h.retired, List.pairwise_singleton _ _, ?_⟩
    rintro earlier hearlier later hlater c rfl j idle' rfl
    cases List.mem_singleton.1 hlater
    exact hbroken hearlier

/-- A request goes out on the channel in the hands of its call. -/
theorem Channels.send (h : Channels w) (hi : w.calls i = some call)
    (hphase : call.phase = .holding client) : Channels (w.sendOn i call client) := by
  have hclient : call.phase.client? = some client := by
    rw [hphase]
    rfl
  have hgoes : Channels (w.advance i { call with errors := call.errors } (.sending client)) := by
    refine h.advance hi call.errors (fun c hc => ?_) fun _ _ heq => by cases heq
    cases hc
    exact hclient
  refine ⟨hgoes.cached, hgoes.held, ?_, ?_, ?_, ?_⟩
  · intro j other now c hj hother
    obtain ⟨hnot, hrest⟩ := hgoes.unshared j other now c hj hother
    refine ⟨fun hmem => ?_, hrest⟩
    rcases List.mem_append.1 hmem with hold | hlast
    · exact hnot hold
    · cases List.mem_singleton.1 hlast
  · intro c hc
    rcases List.mem_append.1 hc with hold | hlast
    · exact hgoes.broken c hold
    · cases List.mem_singleton.1 hlast
  · intro j c hsent
    rcases List.mem_append.1 hsent with hold | hlast
    · exact hgoes.sent j c hold
    · cases List.mem_singleton.1 hlast
      exact ⟨_, Function.update_self .., h.held i call client hi hclient⟩
  · refine List.pairwise_append.2 ⟨h.retired, List.pairwise_singleton _ _, ?_⟩
    rintro earlier _ later hlater c _ j idle rfl
    cases List.mem_singleton.1 hlater

/-- A channel that is on nobody's way to the table is put there. -/
theorem Channels.insertClient (h : Channels w) {now : Nat}
    (hremote : w.remotes[client]? = some remote) (hbroken : .broken client ∉ w.trace)
    (hunshared : ∀ j other now, w.calls j = some other → other.phase ≠ .inserting now client) :
    Channels { w with pool := w.pool.insertClient now remote client } where
  cached remote' entry hentry := by
    rcases AccessTable.lookup_offer hentry with hold | ⟨rfl, hvalue⟩
    · exact h.cached remote' entry hold
    · exact hvalue ▸ hremote
  held := h.held
  unshared j other now c hj hphase := by
    obtain ⟨hnot, hcached, hheld⟩ := h.unshared j other now c hj hphase
    refine ⟨hnot, fun remote' entry hentry => ?_, hheld⟩
    rcases AccessTable.lookup_offer hentry with hold | ⟨_, hvalue⟩
    · exact hcached remote' entry hold
    · rintro rfl
      exact hunshared j other now hj (hvalue ▸ hphase)
  broken c hc := by
    obtain ⟨hlt, hcached⟩ := h.broken c hc
    refine ⟨hlt, fun remote' entry hentry => ?_⟩
    rcases AccessTable.lookup_offer hentry with hold | ⟨_, hvalue⟩
    · exact hcached remote' entry hold
    · rintro rfl
      exact hbroken (hvalue ▸ hc)
  sent := h.sent
  retired := h.retired

/-- A new channel is in nobody's hands yet. -/
theorem Channels.connect (h : Channels w) (hi : w.calls i = some call) (now : Nat) :
    Channels ({ w with remotes := w.remotes ++ [call.remote] }.advance i call
      (.inserting now w.remotes.length)) where
  cached remote entry hentry := getElem?_append_of_some (h.cached remote entry hentry)
  held j other c hj hc := by
    rcases Swarm.update_cases hj with ⟨rfl, rfl⟩ | ⟨_, hj⟩
    · cases hc
      exact List.getElem?_concat_length
    · exact getElem?_append_of_some (h.held j other c hj hc)
  unshared j other now' c hj hphase := by
    rcases Swarm.update_cases hj with ⟨rfl, rfl⟩ | ⟨_, hold⟩
    · cases hphase
      refine ⟨fun hmem => absurd (h.broken _ hmem).1 (lt_irrefl _), ?_, ?_⟩
      · rintro remote entry hentry hvalue
        exact absurd (hvalue ▸ lt_of_getElem? (h.cached remote entry hentry)) (lt_irrefl _)
      · intro k holder hk hc
        rcases Swarm.update_cases hk with ⟨rfl, _⟩ | ⟨_, hk⟩
        · rfl
        · exact absurd (lt_of_getElem? (h.held k holder _ hk hc)) (lt_irrefl _)
    · obtain ⟨hnot, hcached, hheld⟩ := h.unshared j other now' c hold hphase
      refine ⟨hnot, hcached, fun k holder hk hc => ?_⟩
      rcases Swarm.update_cases hk with ⟨rfl, rfl⟩ | ⟨_, hk⟩
      · cases hc
        have hlt := lt_of_getElem? (h.held j other _ hold (by rw [hphase]; rfl))
        exact absurd hlt (lt_irrefl _)
      · exact hheld k holder hk hc
  broken c hc := by
    obtain ⟨hlt, hcached⟩ := h.broken c hc
    refine ⟨?_, hcached⟩
    exact hlt.trans_le (List.length_append ▸ Nat.le_add_right _ _)
  sent j c hsent := by
    rcases sent_update h hi { call with phase := .inserting now w.remotes.length } rfl hsent with
      ⟨other, hother, hc⟩
    exact ⟨other, hother, getElem?_append_of_some hc⟩
  retired := h.retired

/-- What a call has dealt with is taken off the table with the entry of its remote. -/
theorem Channels.drop (h : Channels w) {c : ClientId} (hremote : w.remotes[c]? = some remote)
    (hunshared : ∀ j other now, w.calls j = some other → other.phase ≠ .inserting now c) :
    Channels { w with
      pool := w.pool.invalidate remote
      trace := w.trace ++ [.broken c] } where
  cached remote' entry hentry := h.cached remote' entry (AccessTable.lookup_erased hentry).2
  held := h.held
  unshared j other now c' hj hphase := by
    obtain ⟨hnot, hcached, hheld⟩ := h.unshared j other now c' hj hphase
    refine ⟨fun hmem => ?_, fun remote' entry hentry => ?_, hheld⟩
    · rcases List.mem_append.1 hmem with hold | hlast
      · exact hnot hold
      · cases List.mem_singleton.1 hlast
        exact hunshared j other now hj hphase
    · exact hcached remote' entry (AccessTable.lookup_erased hentry).2
  broken c' hc := by
    rcases List.mem_append.1 hc with hold | hlast
    · obtain ⟨hlt, hcached⟩ := h.broken c' hold
      exact ⟨hlt, fun remote' entry hentry =>
        hcached remote' entry (AccessTable.lookup_erased hentry).2⟩
    · cases List.mem_singleton.1 hlast
      refine ⟨lt_of_getElem? hremote, ?_⟩
      -- The channel can only be in the entry of its remote, and that one is gone.
      rintro remote' entry hentry rfl
      obtain ⟨hne, hlookup⟩ := AccessTable.lookup_erased hentry
      rw [h.cached remote' entry hlookup] at hremote
      exact hne (Option.some.inj hremote)
  sent j c' hsent := by
    rcases List.mem_append.1 hsent with hold | hlast
    · exact h.sent j c' hold
    · cases List.mem_singleton.1 hlast
  retired := by
    refine List.pairwise_append.2 ⟨h.retired, List.pairwise_singleton _ _, ?_⟩
    rintro earlier _ later hlater c' _ j idle rfl
    cases List.mem_singleton.1 hlater

theorem within_invalidate (pool : GrpcPool) (remote : SocketAddr) :
    (pool.invalidate remote).Within pool :=
  fun _ entry h => ⟨entry, (AccessTable.lookup_erased h).2, rfl⟩

/-- A failed attempt takes the entry of its remote off the table, with its channel or another one. -/
theorem Channels.fail (h : Channels w) (hi : w.calls i = some call) {client : Option ClientId}
    {e : CrateError} (hphase : call.phase = .failing client e) :
    Channels (w.afterFailure i call client e) := by
  have hphase' : ∀ c, call.phase.client? = some c ↔ client = some c := by
    intro c
    rw [hphase]
    rfl
  generalize hnext : (if (call.errors ++ [e]).length ≤ call.retries.toNat then CallPhase.ready
    else .done (.error e)) = phase
  have hfree : phase.client? = none ∧ ∀ now c, phase ≠ .inserting now c := by
    rw [← hnext]
    split
    · exact ⟨rfl, fun _ _ heq => by cases heq⟩
    · exact ⟨rfl, fun _ _ heq => by cases heq⟩
  have hafter : Channels (w.advance i { call with errors := call.errors ++ [e] } phase) := by
    refine h.advance hi _ (fun c hc => ?_) hfree.2
    rw [hfree.1] at hc
    cases hc
  unfold PoolWorld.afterFailure
  dsimp only
  rw [hnext]
  cases client with
  -- The connection failed: whatever channel is in the table goes, though nobody has used it.
  | none =>
      rw [show w.trace ++ (none : Option ClientId).toList.map PoolEvent.broken = w.trace from
        List.append_nil _]
      exact hafter.within (within_invalidate w.pool call.remote)
  | some c =>
      have hremote := h.held i call c hi ((hphase' c).2 rfl)
      refine hafter.drop hremote fun j other now hj hother => ?_
      rcases Swarm.update_cases hj with ⟨rfl, rfl⟩ | ⟨hne, hj⟩
      · exact hfree.2 now c hother
      · exact hne ((h.unshared j other now c hj hother).2.2 i call hi ((hphase' c).2 rfl)).symm

theorem channels_move (h : Channels w) (hi : w.calls i = some call) (hmove : PoolMove w i call w') :
    Channels w' := by
  cases hmove with
  | on hpool _ hclient hnew _ _ _ _ => exact (h.within hpool).advance hi call.errors hclient hnew
  | @reuse pool entry idle hphase _ hpool _ hentry _ =>
      have htake : Channels (w.take i call entry.value (some idle)) := by
        refine h.take hi _ (h.cached _ _ hentry) (fun hmem => ?_) fun j other now hj hphase => ?_
        · exact (h.broken _ hmem).2 _ _ hentry rfl
        · exact absurd rfl ((h.unshared j other now _ hj hphase).2.1 _ _ hentry)
      exact htake.within hpool
  | @connect now _ => exact h.connect hi now
  | @first now c hphase =>
      have hc : call.phase.client? = some c := by
        rw [hphase]
        rfl
      have hremote := h.held i call c hi hc
      have hbroken := (h.unshared i call now c hi hphase).1
      -- Nobody else brings this channel to the table, since the call has it in its hands.
      have hown : ∀ j other now', w.calls j = some other → other.phase = .inserting now' c → j = i := by
        intro j other now' hj hother
        exact ((h.unshared j other now' c hj hother).2.2 i call hi hc).symm
      -- The order of the two does not matter, and a channel that is taken may go into the table.
      have htake : Channels (w.take i call c none) := h.take hi _ hremote hbroken hown
      refine htake.insertClient hremote (fun hmem => ?_) fun j other now' hj hother => ?_
      · rcases List.mem_append.1 hmem with hold | hlast
        · exact hbroken hold
        · cases List.mem_singleton.1 hlast
      · rcases Swarm.update_cases hj with ⟨rfl, rfl⟩ | ⟨hne, hj⟩
        · cases hother
        · exact hne (hown j other now' hj hother)
  | send hphase => exact h.send hi hphase
  | failed hphase => exact h.fail hi hphase

/-! ## Who sends has taken -/

/-- A call that holds a channel has taken it, and every request went out on a channel that its call had
taken before. -/
structure Handed (w : PoolWorld) : Prop where
  holds : ∀ i call c, w.calls i = some call → call.phase = .holding c →
    ∃ idle, .taken i c idle ∈ w.trace
  taken : Past (fun earlier e => ∀ i c, e = .sent i c → ∃ idle, .taken i c idle ∈ earlier) w.trace

/-- A call goes on with nothing in its hands that it has not taken. -/
theorem Handed.calls_update (h : Handed w) {new : PoolCall} {trace : List PoolEvent}
    (htrace : ∀ e ∈ w.trace, e ∈ trace)
    (hnew : ∀ c, new.phase = .holding c → ∃ idle, .taken i c idle ∈ trace) :
    ∀ j other c, Function.update w.calls i (some new) j = some other → other.phase = .holding c →
      ∃ idle, .taken j c idle ∈ trace := by
  intro j other c hj hphase
  rcases Swarm.update_cases hj with ⟨rfl, rfl⟩ | ⟨_, hj⟩
  · exact hnew c hphase
  · rcases h.holds j other c hj hphase with ⟨idle, hidle⟩
    exact ⟨idle, htrace _ hidle⟩

theorem Handed.take (h : Handed w) (idle : Option Nat) : Handed (w.take i call client idle) := by
  constructor
  · refine h.calls_update (fun e he => List.mem_append_left _ he) fun c hc => ?_
    cases hc
    exact ⟨idle, List.mem_append_right _ List.mem_cons_self⟩
  · exact past_append_singleton.2 ⟨h.taken, fun j c heq => by cases heq⟩

theorem handed_move (h : Handed w) (hi : w.calls i = some call) (hmove : PoolMove w i call w') :
    Handed w' := by
  cases hmove with
  | on _ _ _ _ hheld _ _ _ =>
      exact ⟨h.calls_update (fun e he => he) fun c hc => absurd hc (hheld c), h.taken⟩
  | @reuse pool entry idle _ _ _ _ _ _ =>
      have htake : Handed (w.take i call entry.value (some idle)) := h.take (some idle)
      exact ⟨htake.holds, htake.taken⟩
  | connect _ => exact ⟨h.calls_update (fun e he => he) (fun c hc => by cases hc), h.taken⟩
  | @first _ c _ =>
      have htake : Handed (w.take i call c none) := h.take none
      exact ⟨htake.holds, htake.taken⟩
  | @send c hphase =>
      refine ⟨h.calls_update (fun e he => List.mem_append_left _ he) (fun c hc => by cases hc), ?_⟩
      refine past_append_singleton.2 ⟨h.taken, fun j c' heq => ?_⟩
      cases heq
      exact h.holds i call c hi hphase
  | @failed client e _ =>
      constructor
      · refine h.calls_update (fun e he => List.mem_append_left _ he) fun c hc => ?_
        dsimp only at hc
        split at hc
        · cases hc
        · cases hc
      · cases client with
        | none => simpa [PoolWorld.afterFailure] using h.taken
        | some c => exact past_append_singleton.2 ⟨h.taken, fun j c' heq => by cases heq⟩

/-! ## Attempts -/

def PoolEvent.sentBy (i : CallId) : PoolEvent → Bool
  | .sent j _ => j == i
  | _ => false

/-- How often the request of a call went out. -/
def PoolWorld.sends (w : PoolWorld) (i : CallId) : Nat :=
  w.trace.countP (PoolEvent.sentBy i)

/-- A call that has sent its request `n` times. -/
structure Retried (n : Nat) (call : PoolCall) : Prop where
  out : call.phase.sends ≤ n
  bounded : n ≤ call.errors.length + call.phase.sends
  going : (∀ e, call.phase ≠ .done (.error e)) → call.errors.length ≤ call.retries.toNat
  exhausted : ∀ e, call.phase = .done (.error e) →
    call.errors.length = call.retries.toNat + 1 ∧ call.errors.getLast? = some e

/-- Every call keeps to its retries, and nothing is reused that has expired. -/
structure Tries (w : PoolWorld) : Prop where
  call : ∀ i call, w.calls i = some call → Retried (w.sends i) call
  silent : ∀ i, w.calls i = none → w.sends i = 0
  prompt : ∀ i c idle, .taken i c (some idle) ∈ w.trace → idle < w.pool.expireAfter

theorem countP_sent (trace : List PoolEvent) (i j : CallId) (c : ClientId) :
    List.countP (PoolEvent.sentBy j) (trace ++ [PoolEvent.sent i c]) =
      trace.countP (PoolEvent.sentBy j) + if i = j then 1 else 0 := by
  rw [List.countP_append, List.countP_singleton]
  simp [PoolEvent.sentBy]

theorem countP_taken (trace : List PoolEvent) (i j : CallId) (c : ClientId) (idle : Option Nat) :
    List.countP (PoolEvent.sentBy j) (trace ++ [PoolEvent.taken i c idle]) =
      trace.countP (PoolEvent.sentBy j) := by
  simp [PoolEvent.sentBy]

theorem countP_broken (trace : List PoolEvent) (j : CallId) (client : Option ClientId) :
    List.countP (PoolEvent.sentBy j) (trace ++ client.toList.map PoolEvent.broken) =
      trace.countP (PoolEvent.sentBy j) := by
  cases client with
  | none => simp
  | some c => simp [PoolEvent.sentBy]

/-- One call goes on, and the others have sent what they had sent. -/
theorem Tries.update (h : Tries w) (hi : w.calls i = some call) (new : PoolCall)
    (hcalls : w'.calls = Function.update w.calls i (some new))
    (hothers : ∀ j, j ≠ i → w'.sends j = w.sends j) (hnew : Retried (w'.sends i) new)
    (hprompt : ∀ j c idle, .taken j c (some idle) ∈ w'.trace → idle < w'.pool.expireAfter) :
    Tries w' where
  call j other hj := by
    rw [hcalls] at hj
    rcases Swarm.update_cases hj with ⟨rfl, rfl⟩ | ⟨hne, hj⟩
    · exact hnew
    · rw [hothers j hne]
      exact h.call j other hj
  silent j hj := by
    rw [hcalls] at hj
    by_cases hji : j = i
    · subst hji
      rw [Function.update_self] at hj
      cases hj
    · rw [Function.update_of_ne hji] at hj
      rw [hothers j hji]
      exact h.silent j hj
  prompt := hprompt

/-- A channel is taken before the request of the attempt goes out. -/
theorem Tries.take (h : Tries w) (hi : w.calls i = some call) (hnone : call.phase.sends = 0)
    (hgoing : ∀ e, call.phase ≠ .done (.error e)) {pool : GrpcPool}
    (hexpire : pool.expireAfter = w.pool.expireAfter) {idle : Option Nat}
    (hidle : ∀ d, idle = some d → d < w.pool.expireAfter) :
    Tries ({ w with pool := pool }.take i call client idle) := by
  have hcall := h.call i call hi
  have hsends : ∀ j, ({ w with pool := pool }.take i call client idle).sends j = w.sends j :=
    fun j => countP_taken w.trace i j client idle
  refine h.update hi { call with phase := .holding client } rfl (fun j _ => hsends j) ?_ ?_
  · rw [hsends]
    have hbound := hcall.bounded
    rw [hnone] at hbound
    exact ⟨Nat.zero_le _, hbound, fun _ => hcall.going hgoing, fun _ heq => by cases heq⟩
  · intro j c d hmem
    refine lt_of_lt_of_eq ?_ hexpire.symm
    rcases List.mem_append.1 hmem with hold | hlast
    · exact h.prompt j c d hold
    · have heq := List.mem_singleton.1 hlast
      simp only [PoolEvent.taken.injEq] at heq
      exact hidle d heq.2.2.symm

/-- A request that goes out is the first of its attempt. -/
theorem Tries.send (h : Tries w) (hi : w.calls i = some call)
    (hphase : call.phase = .holding client) : Tries (w.sendOn i call client) := by
  have hcall := h.call i call hi
  have hown : (w.sendOn i call client).sends i = w.sends i + 1 :=
    (countP_sent w.trace i i client).trans (congrArg (w.sends i + ·) (if_pos rfl))
  refine h.update hi { call with phase := .sending client } rfl (fun j hj => ?_) ?_ ?_
  · exact (countP_sent w.trace i j client).trans
      (congrArg (w.sends j + ·) (if_neg (Ne.symm hj)))
  · rw [hown]
    have hbound := hcall.bounded
    rw [hphase] at hbound
    have hgoing := hcall.going (by rw [hphase]; exact fun e heq => by cases heq)
    exact ⟨Nat.le_add_left 1 _, Nat.add_le_add_right hbound 1, fun _ => hgoing,
      fun _ heq => by cases heq⟩
  · intro j c d hmem
    rcases List.mem_append.1 hmem with hold | hlast
    · exact h.prompt j c d hold
    · cases List.mem_singleton.1 hlast

/-- A failed attempt is the last one exactly if there are no more retries. -/
theorem Tries.fail (h : Tries w) (hi : w.calls i = some call) {client : Option ClientId}
    {e : CrateError} (hphase : call.phase = .failing client e) :
    Tries (w.afterFailure i call client e) := by
  have hcall := h.call i call hi
  have hgoing : call.errors.length ≤ call.retries.toNat := by
    refine hcall.going ?_
    rw [hphase]
    exact fun e heq => by cases heq
  have hone : call.phase.sends ≤ 1 := by
    rw [hphase]
    cases client with
    | none => exact Nat.zero_le 1
    | some c => exact le_rfl
  have hlength : (call.errors ++ [e]).length = call.errors.length + 1 := List.length_append
  have hkept : ∀ j, (w.afterFailure i call client e).sends j = w.sends j :=
    fun j => countP_broken w.trace j client
  refine h.update hi _ rfl (fun j _ => hkept j) ?_ ?_
  · rw [hkept]
    have hbound : w.sends i ≤ (call.errors ++ [e]).length := by
      rw [hlength]
      exact hcall.bounded.trans (Nat.add_le_add_left hone _)
    dsimp only
    split
    · rename_i hagain
      exact ⟨Nat.zero_le _, hbound, fun _ => hagain, fun _ heq => by cases heq⟩
    · rename_i hlast
      refine ⟨Nat.zero_le _, hbound, fun hne => absurd rfl (hne e), fun e' heq => ?_⟩
      cases heq
      rw [hlength, Nat.not_le] at hlast
      exact ⟨hlength.trans (congrArg (· + 1) (le_antisymm hgoing (Nat.lt_succ_iff.1 hlast))),
        List.getLast?_concat⟩
  · intro j c d hmem
    rcases List.mem_append.1 hmem with hold | hlast
    · exact h.prompt j c d hold
    · rcases List.mem_map.1 hlast with ⟨c', _, heq⟩
      cases heq

theorem tries_move (h : Tries w) (hi : w.calls i = some call) (hmove : PoolMove w i call w') :
    Tries w' := by
  have hcall := h.call i call hi
  cases hmove with
  | @on pool phase _ hexpire _ _ _ hsends hbefore hafter =>
      refine h.update hi { call with phase := phase } rfl (fun _ _ => rfl) ?_ ?_
      · exact ⟨hsends.trans_le hcall.out, hcall.bounded.trans_eq (congrArg _ hsends.symm),
          fun _ => hcall.going hbefore, fun e heq => absurd heq (hafter e)⟩
      · exact fun j c d hmem => (h.prompt j c d hmem).trans_eq hexpire.symm
  | @reuse pool entry idle hphase hbefore _ hexpire _ hidle =>
      refine h.take hi hphase hbefore hexpire fun d hd => ?_
      cases hd
      exact hidle
  | @connect now hphase =>
      have hsends : call.phase.sends = 0 := by
        rw [hphase]
        rfl
      have hgoing : ∀ e, call.phase ≠ .done (.error e) := by
        rw [hphase]
        exact fun e heq => by cases heq
      refine h.update hi { call with phase := .inserting now w.remotes.length } rfl
        (fun _ _ => rfl) ?_ h.prompt
      exact ⟨Nat.zero_le _, hcall.bounded.trans_eq (congrArg _ hsends),
        fun _ => hcall.going hgoing, fun _ heq => by cases heq⟩
  | @first now c hphase =>
      have hexpire : (w.pool.insertClient now call.remote c).expireAfter = w.pool.expireAfter := rfl
      refine h.take hi ?_ ?_ hexpire fun d hd => by cases hd
      · rw [hphase]
        rfl
      · rw [hphase]
        exact fun e heq => by cases heq
  | send hphase => exact h.send hi hphase
  | failed hphase => exact h.fail hi hphase

/-! ## Runs -/

/-- What holds of the calls on a pool at any time. -/
structure PoolSafe (w : PoolWorld) : Prop where
  /-- A request goes out on channels of its remote only. -/
  remote : ∀ i c, .sent i c ∈ w.trace →
    ∃ call, w.calls i = some call ∧ w.remotes[c]? = some call.remote
  /-- A request goes out on a channel that its call has taken before. -/
  taken : Past (fun earlier e => ∀ i c, e = .sent i c → ∃ idle, .taken i c idle ∈ earlier) w.trace
  /-- Once a call has dealt with the failure of a channel, nobody takes it any more. -/
  retired : w.trace.Pairwise fun earlier later =>
    ∀ c, earlier = .broken c → ∀ i idle, later ≠ .taken i c idle
  /-- So who sends on it afterwards had taken it before. -/
  late : ∀ before after i c, w.trace = before ++ .broken c :: after → .sent i c ∈ after →
    ∃ idle, .taken i c idle ∈ before
  /-- A channel from the table was read within the window. -/
  prompt : ∀ i c idle, .taken i c (some idle) ∈ w.trace → idle < w.pool.expireAfter
  /-- A request goes out once for each attempt at most. -/
  attempts : ∀ i call, w.calls i = some call → w.sends i ≤ call.retries.toNat + 1
  /-- An answer is one to a request that went out. -/
  answered : ∀ i call resp, w.calls i = some call → call.phase = .done (.ok resp) → 0 < w.sends i
  /-- A call fails when all its attempts have failed, with the last error. -/
  exhausted : ∀ i call e, w.calls i = some call → call.phase = .done (.error e) →
    call.errors.length = call.retries.toNat + 1 ∧ call.errors.getLast? = some e

/-- What holds of a pool that nobody has called, and is kept by the clock, a new call and every move of a
call, holds at any time. -/
theorem pool_invariant {I : PoolWorld → Prop}
    (hinit : ∀ expireAfter clock, I ⟨.withExpiry expireAfter, clock, fun _ => none, [], []⟩)
    (htick : ∀ w elapsed, I w → I { w with clock := w.clock + elapsed })
    (hcall : ∀ w i remote req retries, I w → w.calls i = none →
      I { w with calls := Function.update w.calls i (some ⟨remote, req, retries, [], .ready⟩) })
    (hmove : ∀ w i call w', I w → w.calls i = some call → PoolMove w i call w' → I w')
    (hw : poolSystem.Reachable w) : I w := by
  refine hw.invariant ?_ ?_
  · rintro w ⟨expireAfter, clock, rfl⟩
    exact hinit expireAfter clock
  · rintro w l w' _ h _ hstep
    cases l with
    | tick elapsed =>
        cases hstep
        exact htick w elapsed h
    | call i remote req retries =>
        simp only [poolSystem, PoolWorld.step, Option.ite_none_right_eq_some, Option.some.injEq] at hstep
        obtain ⟨hnone, rfl⟩ := hstep
        exact hcall w i remote req retries h hnone
    | next i input =>
        obtain ⟨call, hi, hnext⟩ := Option.bind_eq_some_iff.1 hstep
        exact hmove w i call w' h hi (.of_next hnext)

theorem channels_reaches (hw : poolSystem.Reachable w) : Channels w := by
  refine pool_invariant ?_ ?_ ?_ ?_ hw
  · intro expireAfter clock
    exact ⟨fun _ _ hentry => (by cases hentry), fun _ _ _ hi => (by cases hi),
      fun _ _ _ _ hi => (by cases hi), fun _ hc => (by cases hc), fun _ _ hsent => (by cases hsent),
      List.Pairwise.nil⟩
  · exact fun w elapsed h => ⟨h.cached, h.held, h.unshared, h.broken, h.sent, h.retired⟩
  · intro w i remote req retries h hnone
    -- The new call holds no channel.
    refine ⟨h.cached, ?_, ?_, h.broken, ?_, h.retired⟩
    · intro j other c hj hc
      rcases Swarm.update_cases hj with ⟨rfl, rfl⟩ | ⟨_, hj⟩
      · cases hc
      · exact h.held j other c hj hc
    · intro j other now c hj hphase
      rcases Swarm.update_cases hj with ⟨rfl, rfl⟩ | ⟨_, hj⟩
      · cases hphase
      · obtain ⟨hbroken, hcached, hheld⟩ := h.unshared j other now c hj hphase
        refine ⟨hbroken, hcached, fun k holder hk hc => ?_⟩
        rcases Swarm.update_cases hk with ⟨rfl, rfl⟩ | ⟨_, hk⟩
        · cases hc
        · exact hheld k holder hk hc
    · intro j c hsent
      rcases h.sent j c hsent with ⟨other, hother, hc⟩
      have hne : j ≠ i := by
        rintro rfl
        rw [hnone] at hother
        cases hother
      exact ⟨other, (Function.update_of_ne hne ..).trans hother, hc⟩
  · exact fun w i call w' h hi hmove => channels_move h hi hmove

theorem handed_reaches (hw : poolSystem.Reachable w) : Handed w := by
  refine pool_invariant ?_ ?_ ?_ ?_ hw
  · exact fun expireAfter clock => ⟨fun _ _ _ hi => (by cases hi), past_nil⟩
  · exact fun w elapsed h => ⟨h.holds, h.taken⟩
  · intro w i remote req retries h hnone
    exact ⟨h.calls_update (fun e he => he) (fun c hc => by cases hc), h.taken⟩
  · exact fun w i call w' h hi hmove => handed_move h hi hmove

theorem tries_reaches (hw : poolSystem.Reachable w) : Tries w := by
  refine pool_invariant ?_ ?_ ?_ ?_ hw
  · intro expireAfter clock
    exact ⟨fun _ _ hi => (by cases hi), fun _ _ => rfl, fun _ _ _ hsent => (by cases hsent)⟩
  · exact fun w elapsed h => ⟨h.call, h.silent, h.prompt⟩
  · intro w i remote req retries h hnone
    refine ⟨?_, ?_, h.prompt⟩
    · intro j other hj
      rcases Swarm.update_cases hj with ⟨rfl, rfl⟩ | ⟨_, hj⟩
      · exact ⟨Nat.zero_le _, (h.silent j hnone).le, fun _ => Nat.zero_le _,
          fun _ heq => by cases heq⟩
      · exact h.call j other hj
    · intro j hj
      by_cases hji : j = i
      · subst hji
        exact h.silent j hnone
      · exact h.silent j ((Function.update_of_ne hji ..).symm.trans hj)
  · exact fun w i call w' h hi hmove => tries_move h hi hmove

/-- Who sends on a channel that was dealt with had taken it before that. -/
theorem taken_before (hchannels : Channels w) (hhanded : Handed w) {before after : List PoolEvent}
    {c : ClientId} (htrace : w.trace = before ++ .broken c :: after) (hsent : .sent i c ∈ after) :
    ∃ idle, .taken i c idle ∈ before := by
  rcases List.append_of_mem hsent with ⟨between, later, rfl⟩
  have hsplit : w.trace = (before ++ .broken c :: between) ++ .sent i c :: later := by
    rw [htrace, List.append_assoc]
    rfl
  rcases hhanded.taken _ _ _ hsplit i c rfl with ⟨idle, hmem⟩
  rcases List.mem_append.1 hmem with hbefore | hafter
  · exact ⟨idle, hbefore⟩
  · rcases List.mem_cons.1 hafter with heq | hbetween
    · cases heq
    · -- Between the failure and the send nobody takes it.
      have hretired := hchannels.retired
      rw [htrace] at hretired
      have hnot := (List.pairwise_cons.1 (List.pairwise_append.1 hretired).2.1).1 _
        (List.mem_append_left _ hbetween) c rfl
      exact absurd rfl (hnot i idle)

/-- In every interleaving of calls on the clones of a pool. -/
theorem pool_safe (hw : poolSystem.Reachable w) : PoolSafe w := by
  have hchannels := channels_reaches hw
  have htries := tries_reaches hw
  have hhanded := handed_reaches hw
  refine ⟨hchannels.sent, hhanded.taken, hchannels.retired,
    fun _ _ _ _ => taken_before hchannels hhanded, htries.prompt, ?_, ?_, ?_⟩
  · intro i call hi
    have hcall := htries.call i call hi
    by_cases hdone : ∃ e, call.phase = .done (.error e)
    · obtain ⟨e, he⟩ := hdone
      have hbound := hcall.bounded
      rw [he] at hbound
      exact hbound.trans_eq (hcall.exhausted e he).1
    · have hgoing := hcall.going fun e he => hdone ⟨e, he⟩
      have hone : call.phase.sends ≤ 1 := by
        unfold CallPhase.sends
        split
        · exact le_rfl
        · exact le_rfl
        · exact le_rfl
        · exact Nat.zero_le 1
      exact hcall.bounded.trans (Nat.add_le_add hgoing hone)
  · intro i call resp hi hdone
    have hout := (htries.call i call hi).out
    rw [hdone] at hout
    exact hout
  · exact fun i call e hi hdone => (htries.call i call hi).exhausted e hdone

/-! ### Two calls on one channel -/

section Sample

def poolRemote : SocketAddr :=
  .v4 ⟨127, 0, 0, 1⟩ 1234

/-- Both calls take the first channel. The second sends on it only when the first has dealt with its
failure and connected another channel, and then removes that one from the table. -/
def sharedChannel : Option PoolWorld :=
  poolSystem.exec ⟨.new, 0, fun _ => none, [], []⟩
    [.call 0 poolRemote ⟨none⟩ 1, .next 0 .go, .next 0 .go, .next 0 (.connected (.ok ())), .next 0 .go,
      .next 0 .go, .call 1 poolRemote ⟨none⟩ 0, .tick 5, .next 1 .go, .next 1 .go,
      .next 0 (.answered (.error .bootstrapping)), .next 0 .go, .next 0 .go, .next 0 .go,
      .next 0 (.connected (.ok ())), .next 0 .go, .next 1 .go, .next 0 .go,
      .next 1 (.answered (.error .shutdown)), .next 1 .go, .next 0 (.answered (.ok ⟨none⟩))]

theorem sharedChannel_facts :
    (sharedChannel.map fun w => (w.trace, (w.calls 0).map (·.phase), (w.calls 1).map (·.phase),
      decide (poolRemote ∈ w.pool.inner))) =
      some ([.taken 0 0 none, .sent 0 0, .taken 1 0 (some 5), .broken 0, .taken 0 1 none, .sent 1 0,
        .sent 0 1, .broken 0], some (.done (.ok ⟨none⟩)), some (.done (.error .shutdown)), false) := by
  decide +kernel

theorem sharedChannel_safe :
    ∃ w, sharedChannel = some w ∧
      w.trace = [.taken 0 0 none, .sent 0 0, .taken 1 0 (some 5), .broken 0, .taken 0 1 none,
        .sent 1 0, .sent 0 1, .broken 0] ∧ PoolSafe w := by
  rcases Option.map_eq_some_iff.1 sharedChannel_facts with ⟨w, hw, hfacts⟩
  have hstart : poolSystem.Reachable ⟨.new, 0, fun _ => none, [], []⟩ := .start ⟨_, 0, rfl⟩
  exact ⟨w, hw, congrArg Prod.fst hfacts, pool_safe (hstart.exec hw)⟩

end Sample

end Rapid
