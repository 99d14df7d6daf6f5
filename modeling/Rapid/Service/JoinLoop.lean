import Rapid.Foundations.Bag
import Rapid.Foundations.Retry
import Rapid.Messaging.Traits
import Rapid.Net.Addresses
import Rapid.Service.JoinProtocol

/-!
# JoinLoop — the retries of `run_join_protocol`, `cluster_join.rs`

An attempt asks the seed, then all observers of its answer at once, and returns the first answer to
arrive that lets the joiner in under another configuration. When none does, the next attempt starts all
over; the node id changes only where the seed said that it is in use.

The sends to the observers are futures that run while the loop waits for answers. Those that have not
come to an end when the winning answer arrives are dropped, whether their request has gone out or not; so
only an attempt that nobody wins is sure to ask every observer.

What the world does in an attempt comes as a parameter: the answers of the seed and of the observers, the
order in which these arrive, which of the dropped requests had gone out, and the UUID that is drawn at the
end. A send that is not dropped is answered or fails in the end, as a client with deadlines sees to.
-/

namespace Rapid

open Foundations

/-- What happens outside in one attempt. -/
structure JoinAttempt where
  seedAnswer : SendResult
  observerOrder : HashOrder EndpointKey
  answer : Sent → SendResult
  arrival : List Sent → List Sent
  arrival_perm : ∀ sends, (arrival sends).Perm sends
  started : Sent → Bool
  uuid : NodeId

namespace JoinAttempt

/-- The sends that have come to an end when the loop over the answers stops: up to the first winner. -/
def concluded (w : JoinAttempt) (wins : Sent → Option JoinResponse) (sends : List Sent) : List Sent :=
  (w.arrival sends).take ((w.arrival sends).findIdx (fun sent => (wins sent).isSome) + 1)

/-- The requests that go out: a send that is dropped may or may not have started. -/
def goneOut (w : JoinAttempt) (wins : Sent → Option JoinResponse) (sends : List Sent) : List Sent :=
  sends.filter fun sent => sent ∈ w.concluded wins sends ∨ w.started sent

variable {w : JoinAttempt} {wins : Sent → Option JoinResponse} {sends : List Sent}

theorem goneOut_sublist : (w.goneOut wins sends).Sublist sends :=
  List.filter_sublist

/-- The winner and all that ended before it have gone out. -/
theorem mem_goneOut_of_arrival {earlier later : List Sent} {sent : Sent}
    (harrival : w.arrival sends = earlier ++ sent :: later) (hearlier : ∀ s ∈ earlier, wins s = none) :
    sent ∈ w.goneOut wins sends := by
  have hmem : sent ∈ sends := by
    refine (w.arrival_perm sends).mem_iff.1 ?_
    rw [harrival]
    exact List.mem_append_right _ List.mem_cons_self
  have hindex : earlier.length ≤ (w.arrival sends).findIdx fun s => (wins s).isSome := by
    rw [harrival, List.findIdx_append]
    split
    · rename_i hlt
      rcases List.findIdx_lt_length.1 hlt with ⟨s, hs, hwins⟩
      rw [hearlier s hs] at hwins
      cases hwins
    · exact Nat.le_add_left _ _
  refine List.mem_filter.2 ⟨hmem, ?_⟩
  have hconcluded : sent ∈ w.concluded wins sends := by
    refine List.mem_take_iff_getElem.2 ⟨earlier.length, ?_, ?_⟩
    · rw [harrival] at hindex ⊢
      simp only [List.length_append, List.length_cons]
      omega
    · simp [harrival]
  simp [hconcluded]

/-- Where nobody wins, every request goes out. -/
theorem goneOut_of_none (hnone : ∀ sent ∈ sends, wins sent = none) : w.goneOut wins sends = sends := by
  refine List.filter_eq_self.2 fun sent hsent => ?_
  rcases List.append_of_mem ((w.arrival_perm sends).mem_iff.2 hsent) with ⟨earlier, later, harrival⟩
  have hearlier : ∀ s ∈ earlier, wins s = none := by
    intro s hs
    refine hnone s ((w.arrival_perm sends).mem_iff.1 ?_)
    rw [harrival]
    exact List.mem_append_left _ hs
  exact (List.mem_filter.1 (mem_goneOut_of_arrival harrival hearlier)).2

end JoinAttempt

/-- The arguments that stay the same. -/
structure JoinCall where
  listenAddr : SocketAddr
  seed : SocketAddr
  metadata : Metadata

inductive JoinAction
  | send (sent : Sent)
  | sleep

structure JoinState where
  currentId : NodeId
  actions : List JoinAction

/-- The response of a client, if it is a `JoinResponse`. -/
def joinResponseOf (resp : RapidResponse) : Option JoinResponse :=
  match resp.content with
  | some (.joinResponse jr) => some jr
  | _ => none

/-- The end of `run_phase1`. -/
def phase1Answer (answer : SendResult) : Except CrateError JoinResponse :=
  match answer with
  | .error e => .error e
  | .ok resp => (joinResponseOf resp).elim (.error (.decode "expected JoinResponse from seed")) .ok

/-- The answer of an observer, if it lets the joiner in under another configuration. -/
def winning (configurationToJoin : Int64) (answer : SendResult) : Option JoinResponse :=
  match answer with
  | .error _ => none
  | .ok resp =>
      (joinResponseOf resp).filter fun jr =>
        jr.statusCode = JoinStatusCode.safeToJoin.toInt32 ∧ jr.configurationId ≠ configurationToJoin

/-- Whether somebody lets the joiner in does not depend on the order of the answers. -/
theorem JoinAttempt.findSome?_arrival (w : JoinAttempt) {sends : List Sent}
    {f : Sent → Option JoinResponse} :
    (w.arrival sends).findSome? f = none ↔ ∀ sent ∈ sends, f sent = none := by
  rw [List.findSome?_eq_none_iff]
  exact forall_congr' fun sent => by rw [(w.arrival_perm sends).mem_iff]

namespace JoinCall

variable (call : JoinCall)

/-- The request of `run_phase1`. -/
def phase1Sent (currentId : NodeId) : Sent :=
  (call.seed, ⟨some (.preJoinMessage (phase1Message (endpointFromSocket call.listenAddr) currentId))⟩)

/-- The requests to the observers, without those whose endpoint is no socket address. -/
def phase2Sent (order : HashOrder EndpointKey) (currentId : NodeId) (phase1 : JoinResponse) :
    List Sent :=
  (phase2Messages (fun e => (endpointToSocketAddr e).isSome) order
      (endpointFromSocket call.listenAddr) currentId call.metadata phase1).filterMap fun sent =>
    (endpointToSocketAddr sent.1).map fun addr => (addr, ⟨some (.joinMessage sent.2)⟩)

/-- One turn of the loop. -/
def attempt (world : Nat → JoinAttempt) (n : Nat) (state : JoinState) :
    (List JoinAction × Except CrateError JoinResponse) ⊕ JoinState :=
  let w := world n
  let asked := state.actions ++ [.send (call.phase1Sent state.currentId)]
  match phase1Answer w.seedAnswer with
  | .error e => .inl (asked, .error e)
  | .ok phase1 =>
      let sends := call.phase2Sent w.observerOrder state.currentId phase1
      let wins := fun s => winning (configurationToJoin phase1) (w.answer s)
      -- Leaving the loop early drops the sends that are still on their way.
      let sent := asked ++ (w.goneOut wins sends).map .send
      match (w.arrival sends).findSome? wins with
      | some jr => .inl (sent, .ok jr)
      | none =>
          .inr
            { currentId :=
                if phase1.statusCode = JoinStatusCode.uuidAlreadyInRing.toInt32 then w.uuid
                else state.currentId
              actions := sent ++ [.sleep] }

def exhausted : CrateError :=
  .protocolRejected "join: exhausted retries without a SAFE_TO_JOIN with a new config-id"

/-- What is sent and slept, and the result; `uuid` is the first UUID. -/
def runJoinProtocol (joinPhase1Retries : UInt8) (uuid : NodeId) (world : Nat → JoinAttempt) :
    List JoinAction × Except CrateError JoinResponse :=
  match retry (call.attempt world) joinPhase1Retries.toNat 0 ⟨uuid, []⟩ with
  | .inl done => done
  | .inr state => (state.actions, .error exhausted)

/-! ## Attempt by attempt -/

section Rounds

variable (uuid : NodeId) (world : Nat → JoinAttempt)

/-- What the seed answers in an attempt. -/
def phase1At (n : Nat) : Except CrateError JoinResponse :=
  phase1Answer (world n).seedAnswer

/-- The node id in an attempt: a new one after an attempt whose id is in use. -/
def idAt : Nat → NodeId
  | 0 => uuid
  | n + 1 =>
      match phase1At world n with
      | .ok phase1 =>
          if phase1.statusCode = JoinStatusCode.uuidAlreadyInRing.toInt32 then (world n).uuid
          else idAt n
      | .error _ => idAt n

/-- The requests to the observers that an attempt has ready, once the seed has answered. -/
def sendsAt (n : Nat) (phase1 : JoinResponse) : List Sent :=
  call.phase2Sent (world n).observerOrder (idAt uuid world n) phase1

/-- Those of them that go out. -/
def goneOutAt (n : Nat) (phase1 : JoinResponse) : List Sent :=
  (world n).goneOut (fun sent => winning (configurationToJoin phase1) ((world n).answer sent))
    (call.sendsAt uuid world n phase1)

/-- All that an attempt sends. -/
def roundAt (n : Nat) : List JoinAction :=
  .send (call.phase1Sent (idAt uuid world n)) ::
    match phase1At world n with
    | .ok phase1 => (call.goneOutAt uuid world n phase1).map .send
    | .error _ => []

/-- The attempts before the given one, with the pauses after them. -/
def roundsBefore (n : Nat) : List JoinAction :=
  (List.range n).flatMap fun m => call.roundAt uuid world m ++ [.sleep]

/-- The seed has answered, and no observer lets the joiner in. -/
def Fruitless (n : Nat) : Prop :=
  ∃ phase1, phase1At world n = .ok phase1 ∧ ∀ sent ∈ call.sendsAt uuid world n phase1,
    winning (configurationToJoin phase1) ((world n).answer sent) = none

variable {call uuid world} {n : Nat} {phase1 : JoinResponse} {jr : JoinResponse} {e : CrateError}

/-- The state that the attempts before the given one lead to. -/
def stateAt (call : JoinCall) (uuid : NodeId) (world : Nat → JoinAttempt) (n : Nat) : JoinState where
  currentId := idAt uuid world n
  actions := call.roundsBefore uuid world n

theorem attempt_error (h : phase1At world n = .error e) :
    call.attempt world n (call.stateAt uuid world n) =
      .inl (call.roundsBefore uuid world n ++ call.roundAt uuid world n, .error e) := by
  unfold attempt roundAt
  unfold phase1At at h ⊢
  simp only [h]
  rfl

theorem attempt_pass (h : call.Fruitless uuid world n) :
    call.attempt world n (call.stateAt uuid world n) = .inr (call.stateAt uuid world (n + 1)) := by
  rcases h with ⟨phase1, hphase1, hnone⟩
  have hwinner := (world n).findSome?_arrival.2 hnone
  have hrounds : call.roundsBefore uuid world (n + 1) =
      call.roundsBefore uuid world n ++ (call.roundAt uuid world n ++ [.sleep]) := by
    unfold roundsBefore
    rw [List.range_succ, List.flatMap_append, List.flatMap_singleton]
  have hid : idAt uuid world (n + 1) =
      if phase1.statusCode = JoinStatusCode.uuidAlreadyInRing.toInt32 then (world n).uuid
      else idAt uuid world n := by
    rw [idAt, hphase1]
  unfold stateAt
  rw [hrounds, hid]
  unfold attempt roundAt goneOutAt
  unfold sendsAt at hwinner ⊢
  unfold phase1At at hphase1 ⊢
  simp only [hphase1, hwinner, List.append_assoc, List.cons_append, List.nil_append]

theorem attempt_win (hphase1 : phase1At world n = .ok phase1)
    (hwinner : ((world n).arrival (call.sendsAt uuid world n phase1)).findSome?
      (fun sent => winning (configurationToJoin phase1) ((world n).answer sent)) = some jr) :
    call.attempt world n (call.stateAt uuid world n) =
      .inl (call.roundsBefore uuid world n ++ call.roundAt uuid world n, .ok jr) := by
  unfold stateAt attempt roundAt goneOutAt
  unfold sendsAt at hwinner ⊢
  unfold phase1At at hphase1 ⊢
  simp only [hphase1, hwinner, List.append_assoc, List.cons_append, List.nil_append]

/-- An attempt fails, passes, or wins. -/
theorem attempt_cases (call : JoinCall) (uuid : NodeId) (world : Nat → JoinAttempt) (n : Nat) :
    (∃ e, phase1At world n = .error e) ∨ call.Fruitless uuid world n ∨
      ∃ phase1 jr, phase1At world n = .ok phase1 ∧
        ((world n).arrival (call.sendsAt uuid world n phase1)).findSome?
          (fun sent => winning (configurationToJoin phase1) ((world n).answer sent)) = some jr := by
  cases hphase1 : phase1At world n with
  | error e => exact .inl ⟨e, rfl⟩
  | ok phase1 =>
      cases hwinner : ((world n).arrival (call.sendsAt uuid world n phase1)).findSome?
          (fun sent => winning (configurationToJoin phase1) ((world n).answer sent)) with
      | none => exact .inr (.inl ⟨phase1, hphase1, (world n).findSome?_arrival.1 hwinner⟩)
      | some jr => exact .inr (.inr ⟨phase1, jr, rfl, hwinner⟩)

/-- Attempts that pass are all fruitless, and lead to the state that they add up to. -/
theorem fruitless_of_passes {state : JoinState}
    (h : Passes (call.attempt world) 0 n ⟨uuid, []⟩ state) :
    state = call.stateAt uuid world n ∧ ∀ m < n, call.Fruitless uuid world m := by
  refine h.invariant (I := fun n state => state = call.stateAt uuid world n ∧
    ∀ m < n, call.Fruitless uuid world m) ?_ ⟨rfl, fun m hm => absurd hm (Nat.not_lt_zero m)⟩
  rintro k _ t _ _ hpass ⟨rfl, hbefore⟩
  rcases attempt_cases call uuid world k with ⟨e, he⟩ | hfruitless | ⟨phase1, jr, hphase1, hwinner⟩
  · rw [attempt_error he] at hpass
    cases hpass
  · rw [attempt_pass hfruitless] at hpass
    cases hpass
    refine ⟨rfl, fun m hm => ?_⟩
    rcases Nat.lt_succ_iff_lt_or_eq.1 hm with hlt | rfl
    · exact hbefore m hlt
    · exact hfruitless
  · rw [attempt_win hphase1 hwinner] at hpass
    cases hpass

/-! ## The whole call -/

/-- How a call can end: the seed's answer fails, an observer's answer is the first to let the joiner in,
or all attempts are fruitless. -/
inductive Ends (call : JoinCall) (uuid : NodeId) (world : Nat → JoinAttempt) (retries : Nat) :
    List JoinAction × Except CrateError JoinResponse → Prop
  | refused {n : Nat} {e : CrateError} (hn : n < retries)
      (hbefore : ∀ m < n, call.Fruitless uuid world m) (herror : phase1At world n = .error e) :
      Ends call uuid world retries
        (call.roundsBefore uuid world n ++ call.roundAt uuid world n, .error e)
  | admitted {n : Nat} {phase1 jr : JoinResponse} {earlier later : List Sent} {sent : Sent}
      (hn : n < retries) (hbefore : ∀ m < n, call.Fruitless uuid world m)
      (hphase1 : phase1At world n = .ok phase1)
      (harrival : (world n).arrival (call.sendsAt uuid world n phase1) = earlier ++ sent :: later)
      (hearlier : ∀ s ∈ earlier, winning (configurationToJoin phase1) ((world n).answer s) = none)
      (hwins : winning (configurationToJoin phase1) ((world n).answer sent) = some jr) :
      Ends call uuid world retries
        (call.roundsBefore uuid world n ++ call.roundAt uuid world n, .ok jr)
  | exhausted (hall : ∀ m < retries, call.Fruitless uuid world m) :
      Ends call uuid world retries
        (call.roundsBefore uuid world retries, .error JoinCall.exhausted)

theorem ends_runJoinProtocol (call : JoinCall) (retries : UInt8) (uuid : NodeId)
    (world : Nat → JoinAttempt) :
    Ends call uuid world retries.toNat (call.runJoinProtocol retries uuid world) := by
  unfold runJoinProtocol
  cases hretry : retry (call.attempt world) retries.toNat 0 ⟨uuid, []⟩ with
  | inl done =>
      rcases retry_eq_inl hretry with ⟨n, state, hn, hpasses, hdone⟩
      rcases fruitless_of_passes hpasses with ⟨rfl, hbefore⟩
      rw [Nat.zero_add] at hn
      rcases attempt_cases call uuid world n with ⟨e, he⟩ | hfruitless | ⟨phase1, jr, hphase1, hwinner⟩
      · rw [attempt_error he] at hdone
        cases hdone
        exact .refused hn hbefore he
      · rw [attempt_pass hfruitless] at hdone
        cases hdone
      · rw [attempt_win hphase1 hwinner] at hdone
        cases hdone
        rcases List.findSome?_eq_some_iff.1 hwinner with ⟨earlier, sent, later, harrival, hwins, hearlier⟩
        exact .admitted hn hbefore hphase1 harrival hearlier hwins
  | inr state =>
      have hpasses := retry_eq_inr hretry
      rw [Nat.zero_add] at hpasses
      rcases fruitless_of_passes hpasses with ⟨rfl, hall⟩
      exact .exhausted hall

/-- Some observer lets the joiner in. -/
def Offered (call : JoinCall) (uuid : NodeId) (world : Nat → JoinAttempt) (n : Nat) : Prop :=
  ∃ phase1, phase1At world n = .ok phase1 ∧ ∃ sent ∈ call.sendsAt uuid world n phase1,
    (winning (configurationToJoin phase1) ((world n).answer sent)).isSome = true

theorem Offered.not_fruitless (h : call.Offered uuid world n) : ¬ call.Fruitless uuid world n := by
  rcases h with ⟨phase1, hphase1, sent, hsent, hsome⟩
  rintro ⟨phase1', hphase1', hnone⟩
  rw [hphase1] at hphase1'
  cases hphase1'
  rw [hnone sent hsent] at hsome
  cases hsome

/-- What the answer of an observer has to say. -/
theorem winning_eq_some {config : Int64} {answer : SendResult} (h : winning config answer = some jr) :
    answer = .ok ⟨some (.joinResponse jr)⟩ ∧
      jr.statusCode = JoinStatusCode.safeToJoin.toInt32 ∧ jr.configurationId ≠ config := by
  unfold winning at h
  split at h
  · cases h
  · rename_i resp
    rcases Option.filter_eq_some_iff.1 h with ⟨hjoin, hsafe⟩
    refine ⟨?_, of_decide_eq_true hsafe⟩
    unfold joinResponseOf at hjoin
    split at hjoin
    · rename_i jr' hcontent
      cases hjoin
      cases resp
      cases hcontent
      rfl
    · cases hjoin

theorem send_mem_roundAt {sent : Sent} (hphase1 : phase1At world n = .ok phase1)
    (hsent : sent ∈ call.goneOutAt uuid world n phase1) :
    .send sent ∈ call.roundAt uuid world n := by
  unfold roundAt
  rw [hphase1]
  exact List.mem_cons_of_mem _ (List.mem_map_of_mem hsent)

/-- A response that the call returns was an observer's answer to a request that the call sent. -/
def Answered (call : JoinCall) (uuid : NodeId) (world : Nat → JoinAttempt) (retries : Nat)
    (actions : List JoinAction) (jr : JoinResponse) : Prop :=
  ∃ n < retries, (∀ m < n, call.Fruitless uuid world m) ∧
    ∃ phase1, phase1At world n = .ok phase1 ∧ ∃ sent ∈ call.sendsAt uuid world n phase1,
      .send sent ∈ actions ∧ (world n).answer sent = .ok ⟨some (.joinResponse jr)⟩ ∧
        jr.statusCode = JoinStatusCode.safeToJoin.toInt32 ∧
          jr.configurationId ≠ configurationToJoin phase1

theorem winning_isSome_iff {config : Int64} {answer : SendResult} :
    (winning config answer).isSome = true ↔
      ∃ jr : JoinResponse, answer = .ok ⟨some (.joinResponse jr)⟩ ∧
        jr.statusCode = JoinStatusCode.safeToJoin.toInt32 ∧ jr.configurationId ≠ config := by
  constructor
  · intro h
    rcases Option.isSome_iff_exists.1 h with ⟨jr, hjr⟩
    exact ⟨jr, winning_eq_some hjr⟩
  · rintro ⟨jr, rfl, hsafe, hother⟩
    simp [winning, joinResponseOf, hsafe, hother]

theorem ok_iff_offered (call : JoinCall) (retries : UInt8) (uuid : NodeId)
    (world : Nat → JoinAttempt) :
    (∃ jr, (call.runJoinProtocol retries uuid world).2 = .ok jr) ↔
      ∃ n < retries.toNat, (∀ m < n, ∃ phase1, phase1At world m = .ok phase1) ∧
        call.Offered uuid world n := by
  have hends := ends_runJoinProtocol call retries uuid world
  generalize call.runJoinProtocol retries uuid world = outcome at hends
  cases hends with
  | @refused k e hk hbefore herror =>
      refine ⟨fun ⟨jr, hjr⟩ => (by cases hjr), ?_⟩
      rintro ⟨n, _, hanswered, hoffered⟩
      -- The seed fails before the offer, in the same attempt, or an offer was passed over.
      rcases lt_trichotomy n k with hlt | rfl | hgt
      · exact absurd (hbefore n hlt) hoffered.not_fruitless
      · rcases hoffered with ⟨phase1, hphase1, _⟩
        rw [herror] at hphase1
        cases hphase1
      · rcases hanswered k hgt with ⟨phase1, hphase1⟩
        rw [herror] at hphase1
        cases hphase1
  | @admitted n phase1 jr earlier later sent hn hbefore hphase1 harrival hearlier hwins =>
      have hsent : sent ∈ call.sendsAt uuid world n phase1 := by
        refine ((world n).arrival_perm _).mem_iff.1 ?_
        rw [harrival]
        exact List.mem_append_right _ List.mem_cons_self
      refine ⟨fun _ => ⟨n, hn, ?_, ?_⟩, fun _ => ⟨jr, rfl⟩⟩
      · intro m hm
        rcases hbefore m hm with ⟨phase1', hphase1', _⟩
        exact ⟨phase1', hphase1'⟩
      · refine ⟨phase1, hphase1, sent, hsent, ?_⟩
        rw [hwins]
        rfl
  | exhausted hall =>
      refine ⟨fun ⟨jr, hjr⟩ => (by cases hjr), ?_⟩
      rintro ⟨n, hn, _, hoffered⟩
      exact absurd (hall n hn) hoffered.not_fruitless

theorem answered_of_ok {call : JoinCall} {retries : UInt8} {uuid : NodeId}
    {world : Nat → JoinAttempt} {jr : JoinResponse}
    (h : (call.runJoinProtocol retries uuid world).2 = .ok jr) :
    call.Answered uuid world retries.toNat (call.runJoinProtocol retries uuid world).1 jr := by
  have hends := ends_runJoinProtocol call retries uuid world
  generalize call.runJoinProtocol retries uuid world = outcome at hends h
  cases hends with
  | refused => cases h
  | @admitted n phase1 jr earlier later sent hn hbefore hphase1 harrival hearlier hwins =>
      cases h
      have hsent : sent ∈ call.sendsAt uuid world n phase1 := by
        refine ((world n).arrival_perm _).mem_iff.1 ?_
        rw [harrival]
        exact List.mem_append_right _ List.mem_cons_self
      rcases winning_eq_some hwins with ⟨hanswer, hsafe, hother⟩
      exact ⟨n, hn, hbefore, phase1, hphase1, sent, hsent,
        List.mem_append_right _ (send_mem_roundAt hphase1
          (JoinAttempt.mem_goneOut_of_arrival harrival hearlier)), hanswer, hsafe, hother⟩
  | exhausted => cases h

/-- The call returns a response exactly if some observer offers one in an attempt up to which the seed
has always answered; the response is then an observer's answer to a request that was sent. -/
theorem join_answered (call : JoinCall) (retries : UInt8) (uuid : NodeId)
    (world : Nat → JoinAttempt) :
    ((∃ jr, (call.runJoinProtocol retries uuid world).2 = .ok jr) ↔
        ∃ n < retries.toNat, (∀ m < n, ∃ phase1, phase1At world m = .ok phase1) ∧
          call.Offered uuid world n) ∧
      ∀ jr, (call.runJoinProtocol retries uuid world).2 = .ok jr →
        call.Answered uuid world retries.toNat (call.runJoinProtocol retries uuid world).1 jr :=
  ⟨ok_iff_offered call retries uuid world, fun _ hok => answered_of_ok hok⟩

end Rounds

/-! ## Who is asked for what -/

section Requests

variable {order : HashOrder EndpointKey} {id : NodeId} {phase1 : JoinResponse}

/-- The places of an observer in the list, in order. -/
def positions (endpoints : List Endpoint) (o : Endpoint) : List Int32 :=
  (endpoints.zipIdx.filter fun entry => entry.1 = o).map fun entry => Int32.ofNat entry.2

/-- The request to an observer. -/
def requestTo (call : JoinCall) (id : NodeId) (phase1 : JoinResponse) (o : Endpoint) : Option Sent :=
  (endpointToSocketAddr o).map fun addr =>
    (addr, ⟨some (.joinMessage
      { sender := some (endpointFromSocket call.listenAddr)
        nodeId := some id
        ringNumber := positions phase1.endpoints o
        configurationId := configurationToJoin phase1
        metadata := some call.metadata })⟩)

/-- The ring numbers of a request. -/
def ringsOf (sent : Sent) : List Int32 :=
  match sent.2.content with
  | some (.joinMessage msg) => msg.ringNumber
  | _ => []

/-- The observers that get a request, in the order of the hash map. -/
def recipientsOf (order : HashOrder EndpointKey) (phase1 : JoinResponse) : List Endpoint :=
  (order.list (perObserver phase1.endpoints).keys).filter fun o => (endpointToSocketAddr o).isSome

theorem mem_recipientsOf {o : Endpoint} : o ∈ recipientsOf order phase1 ↔
    o ∈ phase1.endpoints ∧ (endpointToSocketAddr o).isSome = true := by
  unfold recipientsOf
  rw [List.mem_filter, order.mem_list_iff, Finmap.mem_keys, mem_perObserver_keys]

theorem entries_perObserver (order : HashOrder EndpointKey) (endpoints : List Endpoint) :
    order.entries (perObserver endpoints) =
      (order.list (perObserver endpoints).keys).map fun o => (o, positions endpoints o) := by
  unfold HashOrder.entries
  rw [← List.filterMap_eq_map]
  refine List.filterMap_congr fun o ho => ?_
  rcases Finmap.mem_iff.1 (Finmap.mem_keys.1 (order.mem_list_iff.1 ho)) with ⟨rings, hrings⟩
  have hlookup := lookup_foldl_pushRing (o := o) endpoints.zipIdx ∅
  unfold perObserver at hrings
  rw [hrings] at hlookup
  have hpositions : rings = positions endpoints o := by simpa [positions] using hlookup
  unfold perObserver
  rw [hrings, hpositions]
  rfl

/-- Every observer with a socket address gets one request, with its places in the list. -/
theorem phase2Sent_eq (call : JoinCall) (order : HashOrder EndpointKey) (id : NodeId)
    (phase1 : JoinResponse) :
    call.phase2Sent order id phase1 =
      (recipientsOf order phase1).filterMap (call.requestTo id phase1) := by
  unfold phase2Sent phase2Messages recipientsOf
  rw [entries_perObserver, List.filter_map, List.map_map, List.filterMap_map]
  rfl

/-- What a request to an observer says. -/
theorem request_spec {call : JoinCall} {sent : Sent}
    (hsent : sent ∈ call.phase2Sent order id phase1) :
    ∃ addr msg, sent = (addr, ⟨some (.joinMessage msg)⟩) ∧
      msg.sender = some (endpointFromSocket call.listenAddr) ∧ msg.nodeId = some id ∧
        msg.configurationId = configurationToJoin phase1 := by
  rw [call.phase2Sent_eq] at hsent
  rcases List.mem_filterMap.1 hsent with ⟨o, _, hrequest⟩
  rcases Option.map_eq_some_iff.1 hrequest with ⟨addr, _, rfl⟩
  exact ⟨addr, _, rfl, rfl, rfl, rfl⟩

theorem flatMap_ringsOf (call : JoinCall) (recipients : List Endpoint)
    (h : ∀ o ∈ recipients, (endpointToSocketAddr o).isSome = true) :
    (recipients.filterMap (call.requestTo id phase1)).flatMap ringsOf =
      recipients.flatMap (positions phase1.endpoints) := by
  induction recipients with
  | nil => rfl
  | cons o recipients ih =>
      rcases Option.isSome_iff_exists.1 (h o List.mem_cons_self) with ⟨addr, haddr⟩
      have hrest := ih fun x hx => h x (List.mem_cons_of_mem _ hx)
      have hrequest : ∃ sent, call.requestTo id phase1 o = some sent ∧
          ringsOf sent = positions phase1.endpoints o := by
        unfold requestTo
        rw [haddr]
        exact ⟨_, rfl, rfl⟩
      rcases hrequest with ⟨sent, hsent, hrings⟩
      rw [List.filterMap_cons_some hsent, List.flatMap_cons, List.flatMap_cons, hrest, hrings]

/-- Put together, the requests ask for every place of an observer with a socket address once. -/
theorem rings_perm (call : JoinCall) (order : HashOrder EndpointKey) (id : NodeId)
    (phase1 : JoinResponse) :
    ((call.phase2Sent order id phase1).flatMap ringsOf).Perm
      ((phase1.endpoints.zipIdx.filter fun entry => (endpointToSocketAddr entry.1).isSome).map
        fun entry => Int32.ofNat entry.2) := by
  have haddr : ∀ o ∈ recipientsOf order phase1, (endpointToSocketAddr o).isSome = true :=
    fun o ho => (mem_recipientsOf.1 ho).2
  have hnodup : (recipientsOf order phase1).Nodup := (order.nodup _).filter _
  have hlisted : ∀ entry ∈ phase1.endpoints.zipIdx.filter fun entry =>
      (endpointToSocketAddr entry.1).isSome, entry.1 ∈ recipientsOf order phase1 := by
    intro entry hentry
    rcases List.mem_filter.1 hentry with ⟨hmem, hsome⟩
    exact mem_recipientsOf.2 ⟨List.fst_mem_of_mem_zipIdx hmem, hsome⟩
  have hgroups := flatMap_groups hnodup Prod.fst hlisted
  -- A group is made of all the places of its observer, which has a socket address.
  have hpositions : (recipientsOf order phase1).flatMap (positions phase1.endpoints) =
      ((recipientsOf order phase1).flatMap fun o =>
        (phase1.endpoints.zipIdx.filter fun entry => (endpointToSocketAddr entry.1).isSome).filter
          fun entry => entry.1 = o).map fun entry => Int32.ofNat entry.2 := by
    rw [List.map_flatMap]
    refine List.flatMap_congr fun o ho => ?_
    unfold positions
    rw [List.filter_filter]
    refine congrArg _ (List.filter_congr fun entry _ => ?_)
    by_cases heq : entry.1 = o
    · simp [heq, haddr o ho]
    · simp [heq]
  rw [phase2Sent_eq, flatMap_ringsOf call _ haddr, hpositions]
  exact hgroups.map _

/-- All that a call sends: fruitless attempts with a pause after each, and the attempt that ends the call
if one does. An attempt has one request ready for every observer with a socket address, for exactly its
places in the list, and all of these requests together ask for every place once. A fruitless attempt
sends them all; the one that ends the call sends some of them, those that ended up to the winner among
them. -/
theorem join_sends (call : JoinCall) (retries : UInt8) (uuid : NodeId)
    (world : Nat → JoinAttempt) :
    (∃ n, (∀ m < n, call.Fruitless uuid world m) ∧
        (n = retries.toNat ∧
            (call.runJoinProtocol retries uuid world).1 = call.roundsBefore uuid world n ∨
          n < retries.toNat ∧ ¬ call.Fruitless uuid world n ∧
            (call.runJoinProtocol retries uuid world).1 =
              call.roundsBefore uuid world n ++ call.roundAt uuid world n)) ∧
      ∀ n phase1, phase1At world n = .ok phase1 →
        (call.goneOutAt uuid world n phase1).Sublist (call.sendsAt uuid world n phase1) ∧
        (call.Fruitless uuid world n →
          call.goneOutAt uuid world n phase1 = call.sendsAt uuid world n phase1) ∧
        (∀ earlier sent later,
          (world n).arrival (call.sendsAt uuid world n phase1) = earlier ++ sent :: later →
            (∀ s ∈ earlier, winning (configurationToJoin phase1) ((world n).answer s) = none) →
              sent ∈ call.goneOutAt uuid world n phase1) ∧
        (∃ recipients : List Endpoint, recipients.Nodup ∧
          (∀ o, o ∈ recipients ↔ o ∈ phase1.endpoints ∧ (endpointToSocketAddr o).isSome = true) ∧
            call.sendsAt uuid world n phase1 =
              recipients.filterMap (call.requestTo (idAt uuid world n) phase1)) ∧
          ((call.sendsAt uuid world n phase1).flatMap ringsOf).Perm
            ((phase1.endpoints.zipIdx.filter fun entry =>
              (endpointToSocketAddr entry.1).isSome).map fun entry => Int32.ofNat entry.2) := by
  refine ⟨?_, fun n phase1 hphase1 =>
    ⟨JoinAttempt.goneOut_sublist, ?_, fun earlier sent later => JoinAttempt.mem_goneOut_of_arrival,
      ⟨recipientsOf (world n).observerOrder phase1, ?_, ?_, ?_⟩, ?_⟩⟩
  · have hends := ends_runJoinProtocol call retries uuid world
    generalize call.runJoinProtocol retries uuid world = outcome at hends
    cases hends with
    | @refused n _ hn hbefore herror =>
        refine ⟨n, hbefore, .inr ⟨hn, ?_, rfl⟩⟩
        rintro ⟨phase1, hphase1, _⟩
        rw [herror] at hphase1
        cases hphase1
    | @admitted n phase1 jr _ _ sent hn hbefore hphase1 harrival hearlier hwins =>
        refine ⟨n, hbefore, .inr ⟨hn, ?_, rfl⟩⟩
        have hsent := JoinAttempt.goneOut_sublist.subset
          (JoinAttempt.mem_goneOut_of_arrival harrival hearlier)
        exact Offered.not_fruitless ⟨phase1, hphase1, sent, hsent, by rw [hwins]; rfl⟩
    | exhausted hall => exact ⟨retries.toNat, hall, .inl ⟨rfl, rfl⟩⟩
  · rintro ⟨phase1', hphase1', hnone⟩
    rw [hphase1] at hphase1'
    cases hphase1'
    exact JoinAttempt.goneOut_of_none hnone
  · exact ((world n).observerOrder.nodup _).filter _
  · exact fun o => mem_recipientsOf
  · exact call.phase2Sent_eq _ _ phase1
  · exact call.rings_perm _ _ phase1

end Requests

/-! ### A dropped send -/

section Sample

/-- A response that lets the joiner in. -/
def safeResponse (configurationId : Int64) (endpoints : List Endpoint) : RapidResponse :=
  ⟨some (.joinResponse
    { sender := none
      statusCode := JoinStatusCode.safeToJoin.toInt32
      configurationId := configurationId
      endpoints := endpoints
      identifiers := []
      metadataKeys := []
      metadataValues := [] })⟩

/-- The seed names two observers; `hostB` lets the joiner in before the connection to `hostC` is up. -/
def hurriedWorld : Nat → JoinAttempt := fun _ =>
  { seedAnswer := .ok (safeResponse 5 [hostB, hostC, hostB])
    observerOrder := endpointOrder
    answer := fun _ => .ok (safeResponse 9 [])
    arrival := fun sends => sends
    arrival_perm := fun _ => .refl _
    started := fun _ => false
    uuid := ⟨0, 0⟩ }

def hurriedCall : JoinCall where
  listenAddr := .v4 ⟨127, 0, 0, 9⟩ 9
  seed := .v4 ⟨127, 0, 0, 1⟩ 1234
  metadata := default

/-- Of three requests made ready two are sent, to the seed and to `hostB`. -/
example : (hurriedCall.runJoinProtocol 3 ⟨7, 7⟩ hurriedWorld).1.length = 2 := by
  decide +kernel

end Sample

end JoinCall

end Rapid
