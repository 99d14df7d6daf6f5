import Rapid.Net.Addresses
import Rapid.Foundations.Streak

/-!
# PingPong — the default failure detector, `ping_pong.rs`

On every tick the detector probes its subject, until it has seen enough failures; the next tick then
notifies, once. An answer of the wrong type and a transport error are failures, and so is
`BOOTSTRAPPING` after `BOOTSTRAP_COUNT_THRESHOLD` earlier ones.

The failures are added up over the whole life of the detector. An `OK` in between does not start the
count over, so the failures need not be consecutive. They are consecutive exactly if no `OK` stands
between two of the failures that led to the notification.
-/

namespace Rapid

open Foundations

def failureThreshold : UInt32 := 10

def bootstrapCountThreshold : UInt32 := 30

def NodeStatus.tryFrom (i : Int32) : Option NodeStatus :=
  if i = 0 then some ok else if i = 1 then some bootstrapping else none

/-- The client and the clock are outside of the model, the notifier is the effect `notify`. -/
structure PingPongDetector where
  address : Endpoint
  subject : Endpoint
  subjectAddr : SocketAddr
  failureCount : UInt32
  bootstrapResponseCount : UInt32
  notified : Bool

inductive TickEffect
  | sendBestEffort (remote : SocketAddr) (request : RapidRequest)
  | notify
  deriving DecidableEq

/-- What the client makes of a probe: a response, or a transport error. -/
abbrev ProbeAnswer := Option RapidResponse

namespace PingPongDetector

def new (address subject : Endpoint) : Option PingPongDetector := do
  let subjectAddr ← parseEndpoint subject
  return {
    address := address
    subject := subject
    subjectAddr := subjectAddr
    failureCount := 0
    bootstrapResponseCount := 0
    notified := false }

variable (self : PingPongDetector)

def hasFailed : Bool :=
  self.failureCount ≥ failureThreshold

def maybeNotify : PingPongDetector × List TickEffect :=
  if self.notified then (self, []) else ({ self with notified := true }, [.notify])

def onFailure : PingPongDetector :=
  { self with failureCount := self.failureCount + 1 }

/-- An unknown status passes for `OK`. -/
def onResponse : Option RapidResponse.Content → PingPongDetector
  | some (.probeResponse p) =>
      if (NodeStatus.tryFrom p.status).getD .ok = .bootstrapping then
        let n := self.bootstrapResponseCount + 1
        let self := { self with bootstrapResponseCount := n }
        if n > bootstrapCountThreshold then self.onFailure else self
      else self
  | _ => self.onFailure

/-- The answer matters only if a probe is sent. -/
def tick (answer : ProbeAnswer) : PingPongDetector × List TickEffect :=
  if self.hasFailed then self.maybeNotify
  else
    let req : RapidRequest := ⟨some (.probeMessage { sender := some self.address, payload := [] })⟩
    let self :=
      match answer with
      | some resp => self.onResponse resp.content
      | none => self.onFailure
    (self, [.sendBestEffort self.subjectAddr req])

/-- Successive ticks. -/
def ticks (self : PingPongDetector) : List ProbeAnswer → PingPongDetector × List TickEffect
  | [] => (self, [])
  | answer :: answers =>
      let first := self.tick answer
      let rest := ticks first.1 answers
      (rest.1, first.2 ++ rest.2)

/-- The loop of `run` stops once it has notified. -/
def run (self : PingPongDetector) : List ProbeAnswer → PingPongDetector × List TickEffect
  | [] => (self, [])
  | answer :: answers =>
      let first := self.tick answer
      if first.1.notified then first
      else
        let rest := run first.1 answers
        (rest.1, first.2 ++ rest.2)

end PingPongDetector

/-! ## Outcomes -/

inductive ProbeVerdict
  | ok
  | bootstrapping
  | failed
  deriving DecidableEq, Repr

namespace ProbeAnswer

/-- The answer as such. -/
def outcome : ProbeAnswer → ProbeVerdict
  | some ⟨some (.probeResponse p)⟩ => if p.status = 1 then .bootstrapping else .ok
  | _ => .failed

def isBootstrapping (answer : ProbeAnswer) : Bool :=
  answer.outcome = .bootstrapping

/-- The answer after `earlier` answers of `BOOTSTRAPPING`. -/
def verdict (earlier : Nat) (answer : ProbeAnswer) : ProbeVerdict :=
  if answer.isBootstrapping ∧ 30 ≤ earlier then .failed else answer.outcome

end ProbeAnswer

def bootstraps (answers : List ProbeAnswer) : Nat :=
  answers.countP ProbeAnswer.isBootstrapping

def verdictsFrom (earlier : Nat) : List ProbeAnswer → List ProbeVerdict
  | [] => []
  | answer :: answers =>
      answer.verdict earlier ::
        verdictsFrom (earlier + if answer.isBootstrapping then 1 else 0) answers

/-- How the probes went. -/
def verdicts (answers : List ProbeAnswer) : List ProbeVerdict :=
  verdictsFrom 0 answers

def ProbeVerdict.isFailed (v : ProbeVerdict) : Bool :=
  v = .failed

def ProbeVerdict.isOk (v : ProbeVerdict) : Bool :=
  v = .ok

def failures (answers : List ProbeAnswer) : Nat :=
  (verdicts answers).countP ProbeVerdict.isFailed

/-- The failures since the last `OK`. -/
def failureStreak (verdicts : List ProbeVerdict) : Nat :=
  streak ProbeVerdict.isFailed ProbeVerdict.isOk verdicts

theorem exists_of_mem_verdictsFrom {answers : List ProbeAnswer} {v : ProbeVerdict} :
    ∀ {earlier}, v ∈ verdictsFrom earlier answers →
      ∃ answer ∈ answers, ∃ n, v = answer.verdict n := by
  induction answers with
  | nil => exact fun h => absurd h List.not_mem_nil
  | cons a answers ih =>
      intro earlier h
      rcases List.mem_cons.1 h with rfl | hrest
      · exact ⟨a, List.mem_cons_self, earlier, rfl⟩
      · rcases ih hrest with ⟨answer, hanswer, n, hv⟩
        exact ⟨answer, List.mem_cons_of_mem a hanswer, n, hv⟩

theorem verdictsFrom_append (answers : List ProbeAnswer) (answer : ProbeAnswer) :
    ∀ earlier, verdictsFrom earlier (answers ++ [answer]) =
      verdictsFrom earlier answers ++ [answer.verdict (earlier + bootstraps answers)] := by
  induction answers with
  | nil => exact fun earlier => rfl
  | cons a answers ih =>
      intro earlier
      have hcount : bootstraps (a :: answers) =
          bootstraps answers + if a.isBootstrapping then 1 else 0 := by
        simp [bootstraps, List.countP_cons]
      have hearlier : earlier + bootstraps (a :: answers) =
          earlier + (if a.isBootstrapping then 1 else 0) + bootstraps answers := by
        rw [hcount]
        omega
      simp [verdictsFrom, ih, hearlier]

theorem verdicts_append (answers : List ProbeAnswer) (answer : ProbeAnswer) :
    verdicts (answers ++ [answer]) = verdicts answers ++ [answer.verdict (bootstraps answers)] := by
  simpa [verdicts] using verdictsFrom_append answers answer 0

theorem bootstraps_append (answers : List ProbeAnswer) (answer : ProbeAnswer) :
    bootstraps (answers ++ [answer]) =
      bootstraps answers + if answer.isBootstrapping then 1 else 0 := by
  simp [bootstraps, List.countP_append, List.countP_cons]

theorem failures_append (answers : List ProbeAnswer) (answer : ProbeAnswer) :
    failures (answers ++ [answer]) =
      failures answers + if (answer.verdict (bootstraps answers)).isFailed then 1 else 0 := by
  simp [failures, verdicts_append, List.countP_append, List.countP_cons]

/-- Beyond the threshold every `BOOTSTRAPPING` is a failure. -/
theorem bootstraps_le (answers : List ProbeAnswer) : bootstraps answers ≤ 30 + failures answers := by
  induction answers using List.reverseRecOn with
  | nil => simp [bootstraps]
  | append_singleton answers answer ih =>
      rw [bootstraps_append, failures_append]
      cases hboot : answer.isBootstrapping with
      | false =>
          simp only [Bool.false_eq_true, if_false]
          omega
      | true =>
          by_cases hmany : 30 ≤ bootstraps answers
          · have hfailed : (answer.verdict (bootstraps answers)).isFailed = true := by
              simp [ProbeAnswer.verdict, ProbeVerdict.isFailed, hboot, hmany]
            simp only [hfailed, if_true]
            omega
          · simp only [if_true]
            omega

/-! ## The counters -/

namespace PingPongDetector

/-- The detector after the answer to a probe. -/
def afterProbe (d : PingPongDetector) : ProbeAnswer → PingPongDetector
  | some resp => d.onResponse resp.content
  | none => d.onFailure

theorem tick_of_hasFailed {d : PingPongDetector} (h : d.hasFailed = true) (answer : ProbeAnswer) :
    d.tick answer = d.maybeNotify := by
  unfold tick
  exact if_pos h

theorem tick_of_not_hasFailed {d : PingPongDetector} (h : d.hasFailed = false) (answer : ProbeAnswer) :
    (d.tick answer).1 = d.afterProbe answer ∧ .notify ∉ (d.tick answer).2 := by
  unfold tick
  rw [if_neg (by simp [h])]
  cases answer with
  | none => exact ⟨rfl, by simp⟩
  | some resp => exact ⟨rfl, by simp⟩

theorem afterProbe_eq (d : PingPongDetector) (answer : ProbeAnswer) :
    d.afterProbe answer =
      match answer.outcome with
      | .ok => d
      | .failed => d.onFailure
      | .bootstrapping =>
          let d := { d with bootstrapResponseCount := d.bootstrapResponseCount + 1 }
          if d.bootstrapResponseCount > bootstrapCountThreshold then d.onFailure else d := by
  rcases answer with _ | ⟨_ | content⟩
  · rfl
  · rfl
  · cases content with
    | probeResponse p =>
        show d.onResponse (some (.probeResponse p)) = _
        unfold onResponse ProbeAnswer.outcome
        dsimp only
        by_cases hstatus : p.status = 1
        · rw [if_pos hstatus, if_pos (by rw [hstatus]; rfl)]
        · -- Every other status, unknown numbers included, counts as alive.
          have hok : (NodeStatus.tryFrom p.status).getD .ok = .ok := by
            unfold NodeStatus.tryFrom
            split
            · rfl
            · rfl
          rw [if_neg hstatus, hok]
          rfl
    | _ => rfl

theorem toNat_add_one {c : UInt32} {n : Nat} (hcount : c.toNat = n) (hn : n < 100) :
    (c + 1).toNat = n + 1 := by
  rw [UInt32.toNat_add, hcount]
  exact Nat.mod_eq_of_lt (show n + 1 < 2 ^ 32 by omega)

/-- The comparison of the counter is the comparison of the number. -/
theorem past_bootstrapCountThreshold {c : UInt32} {n : Nat} (hcount : c.toNat = n) (hn : n < 100) :
    c + 1 > bootstrapCountThreshold ↔ 30 ≤ n := by
  rw [gt_iff_lt, UInt32.lt_iff_toNat_lt, toNat_add_one hcount hn]
  show 30 < n + 1 ↔ 30 ≤ n
  omega

/-- What an answer does to the counters. -/
theorem afterProbe_counts {d : PingPongDetector} (answer : ProbeAnswer) {n : Nat}
    (hcount : d.bootstrapResponseCount.toNat = n) (hn : n < 100) :
    (d.afterProbe answer).failureCount =
        (if (answer.verdict n).isFailed then d.failureCount + 1 else d.failureCount) ∧
      (d.afterProbe answer).bootstrapResponseCount =
        (if answer.isBootstrapping then d.bootstrapResponseCount + 1
          else d.bootstrapResponseCount) ∧
      (d.afterProbe answer).notified = d.notified := by
  have hpast := past_bootstrapCountThreshold hcount hn
  rw [afterProbe_eq]
  cases houtcome : answer.outcome with
  | ok => simp [ProbeAnswer.verdict, ProbeAnswer.isBootstrapping, ProbeVerdict.isFailed, houtcome]
  | failed =>
      simp [ProbeAnswer.verdict, ProbeAnswer.isBootstrapping, ProbeVerdict.isFailed, houtcome, onFailure]
  | bootstrapping =>
      dsimp only
      -- From the 31st such answer on each counts as a failure.
      by_cases hmany : 30 ≤ n
      · rw [if_pos (hpast.2 hmany)]
        simp [ProbeAnswer.verdict, ProbeAnswer.isBootstrapping, ProbeVerdict.isFailed, houtcome, hmany,
          onFailure]
      · rw [if_neg fun hover => hmany (hpast.1 hover)]
        simp [ProbeAnswer.verdict, ProbeAnswer.isBootstrapping, ProbeVerdict.isFailed, houtcome, hmany]

theorem ticks_append (answers : List ProbeAnswer) (answer : ProbeAnswer) :
    ∀ d : PingPongDetector, d.ticks (answers ++ [answer]) =
      (((d.ticks answers).1.tick answer).1,
        (d.ticks answers).2 ++ ((d.ticks answers).1.tick answer).2) := by
  induction answers with
  | nil => exact fun d => by simp [ticks]
  | cons a answers ih => exact fun d => by simp [ticks, ih]

end PingPongDetector

/-- The tenth failure has just been seen. -/
def TenthFailure (answers : List ProbeAnswer) : Prop :=
  failures answers = 10 ∧ (verdicts answers).getLast? = some .failed

/-- Up to the tenth failure the counters count, and nothing is notified; the tick after it notifies. -/
structure Counted (d : PingPongDetector) (answers : List ProbeAnswer) : Prop where
  probing : failures answers < 10 → d.failureCount.toNat = failures answers ∧
    d.bootstrapResponseCount.toNat = bootstraps answers ∧ d.notified = false
  failed : 10 ≤ failures answers → d.hasFailed = true ∧ (d.notified = false ↔ TenthFailure answers)

section Counting

open PingPongDetector

variable {d : PingPongDetector} {answers : List ProbeAnswer}

theorem hasFailed_iff : d.hasFailed = true ↔ 10 ≤ d.failureCount.toNat := by
  unfold PingPongDetector.hasFailed
  rw [decide_eq_true_iff, ge_iff_le, UInt32.le_iff_toNat_le]
  exact Iff.rfl

theorem tenthFailure_append {answer : ProbeAnswer} :
    TenthFailure (answers ++ [answer]) ↔
      failures answers = 9 ∧ (answer.verdict (bootstraps answers)).isFailed = true := by
  unfold TenthFailure
  rw [failures_append, verdicts_append]
  cases hverdict : answer.verdict (bootstraps answers) with
  | failed => simp [ProbeVerdict.isFailed]
  | ok => simp [ProbeVerdict.isFailed]
  | bootstrapping => simp [ProbeVerdict.isFailed]

/-- The step lemma: one more tick. -/
theorem Counted.step (h : Counted d answers) (answer : ProbeAnswer) :
    Counted (d.tick answer).1 (answers ++ [answer]) ∧
      (.notify ∈ (d.tick answer).2 ↔ TenthFailure answers) := by
  by_cases hfull : 10 ≤ failures answers
  · -- No probe is sent any more.
    rcases h.failed hfull with ⟨hfailed, hlatch⟩
    have hmore : 10 ≤ failures (answers ++ [answer]) := by
      rw [failures_append]
      omega
    have hnotTenth : ¬ TenthFailure (answers ++ [answer]) := by
      rw [tenthFailure_append]
      omega
    rw [PingPongDetector.tick_of_hasFailed hfailed]
    unfold PingPongDetector.maybeNotify
    cases hnotified : d.notified with
    | true =>
        refine ⟨⟨fun hfew => absurd hmore (Nat.not_le.2 hfew), fun _ => ⟨hfailed, ?_⟩⟩, ?_⟩
        · simp [hnotified, hnotTenth]
        · simpa [hnotified] using hlatch
    | false =>
        refine ⟨⟨fun hfew => absurd hmore (Nat.not_le.2 hfew), fun _ => ⟨hfailed, ?_⟩⟩, ?_⟩
        · simp [hnotTenth]
        · simpa [hnotified] using hlatch
  · have hfew : failures answers < 10 := Nat.lt_of_not_le hfull
    rcases h.probing hfew with ⟨hfailures, hbootstraps, hlatch⟩
    -- A probe is sent, and its outcome is the next verdict.
    have hfresh : d.hasFailed = false := by
      rw [← Bool.not_eq_true, hasFailed_iff, hfailures]
      exact hfull
    have hbound : bootstraps answers < 100 := by
      have hle := bootstraps_le answers
      omega
    have hprobe := PingPongDetector.afterProbe_counts answer hbootstraps hbound
    have htick := PingPongDetector.tick_of_not_hasFailed hfresh answer
    have hsilent : ¬ TenthFailure answers := fun htenth => hfull (Nat.le_of_eq htenth.1.symm)
    rw [htick.1]
    refine ⟨⟨fun hfewMore => ?_, fun hmany => ?_⟩, iff_of_false htick.2 hsilent⟩
    · -- Both counters stay below their bounds and cannot overflow.
      refine ⟨?_, ?_, hprobe.2.2.trans hlatch⟩
      · rw [hprobe.1, failures_append]
        cases hverdict : (answer.verdict (bootstraps answers)).isFailed with
        | true => simpa using toNat_add_one hfailures (by omega)
        | false => simpa using hfailures
      · rw [hprobe.2.1, bootstraps_append]
        cases hboot : answer.isBootstrapping with
        | true => simpa using toNat_add_one hbootstraps (by omega)
        | false => simpa using hbootstraps
    · -- This is the tenth failure, so the count goes from nine to ten.
      have hnow : failures answers = 9 ∧ (answer.verdict (bootstraps answers)).isFailed = true := by
        rw [failures_append] at hmany
        cases hverdict : (answer.verdict (bootstraps answers)).isFailed with
        | true => exact ⟨by simp only [hverdict, if_true] at hmany; omega, rfl⟩
        | false => simp only [hverdict, Bool.false_eq_true, if_false] at hmany; omega
      have hcount : (d.afterProbe answer).failureCount.toNat = 10 := by
        rw [hprobe.1, if_pos hnow.2, toNat_add_one hfailures (by omega), hnow.1]
      refine ⟨hasFailed_iff.2 (Nat.le_of_eq hcount.symm), ?_⟩
      exact iff_of_true (hprobe.2.2.trans hlatch) (tenthFailure_append.2 hnow)

theorem counted_new {address subject : Endpoint} (h : PingPongDetector.new address subject = some d) :
    Counted d [] := by
  have hd : d.failureCount = 0 ∧ d.bootstrapResponseCount = 0 ∧ d.notified = false := by
    cases haddr : parseEndpoint subject with
    | none => simp [PingPongDetector.new, haddr] at h
    | some a =>
        simp [PingPongDetector.new, haddr] at h
        simp [← h]
  refine ⟨fun _ => ?_, fun hmany => ?_⟩
  · simp [hd, failures, verdicts, verdictsFrom, bootstraps]
  · simp [failures, verdicts, verdictsFrom] at hmany

/-- The run lemma: after any ticks of a new detector. -/
theorem Counted.run (h : Counted d []) (answers : List ProbeAnswer) :
    Counted (d.ticks answers).1 answers := by
  induction answers using List.reverseRecOn with
  | nil => exact h
  | append_singleton answers answer ih =>
      rw [PingPongDetector.ticks_append]
      exact (ih.step answer).1

end Counting

/-! ## The reports -/

namespace PingPongDetector

/-- The latch: whoever has notified is marked as notified, and does not notify again. -/
theorem count_tick (d : PingPongDetector) (answer : ProbeAnswer) :
    (d.tick answer).2.count .notify + d.notified.toNat = (d.tick answer).1.notified.toNat := by
  cases hfailed : d.hasFailed with
  | true =>
      rw [tick_of_hasFailed hfailed]
      cases hnotified : d.notified with
      | true => simp [maybeNotify, hnotified]
      | false => simp [maybeNotify, hnotified]
  | false =>
      rcases tick_of_not_hasFailed hfailed answer with ⟨hafter, hsilent⟩
      have hsame : (d.afterProbe answer).notified = d.notified := by
        rw [afterProbe_eq]
        cases answer.outcome with
        | ok => rfl
        | failed => rfl
        | bootstrapping =>
            dsimp only
            split
            · rfl
            · rfl
      rw [hafter, hsame, List.count_eq_zero.2 hsilent, Nat.zero_add]

theorem count_ticks (answers : List ProbeAnswer) : ∀ d : PingPongDetector,
    (d.ticks answers).2.count .notify + d.notified.toNat = (d.ticks answers).1.notified.toNat := by
  induction answers with
  | nil => exact fun d => by simp [ticks]
  | cons answer answers ih =>
      intro d
      have hfirst := count_tick d answer
      have hrest := ih (d.tick answer).1
      simp only [ticks, List.count_append]
      omega

theorem count_ticks_le (d : PingPongDetector) (answers : List ProbeAnswer) :
    (d.ticks answers).2.count .notify ≤ 1 := by
  have hcount := count_ticks answers d
  have hlatch := Bool.toNat_le (d.ticks answers).1.notified
  omega

/-- The loop of `run` stops after its notification, and misses no other. -/
theorem count_run (answers : List ProbeAnswer) : ∀ d : PingPongDetector,
    (d.run answers).2.count .notify = (d.ticks answers).2.count .notify := by
  induction answers with
  | nil => exact fun d => rfl
  | cons answer answers ih =>
      intro d
      by_cases hnotified : (d.tick answer).1.notified = true
      · -- The rest of the ticks is silent.
        have hrest := count_ticks answers (d.tick answer).1
        have hlatch := Bool.toNat_le ((d.tick answer).1.ticks answers).1.notified
        simp only [hnotified, Bool.toNat_true] at hrest
        simp only [run, ticks, if_pos hnotified, List.count_append]
        omega
      · simp only [run, ticks, if_neg hnotified, List.count_append, ih]

end PingPongDetector

/-- At most one notification, and only after ten failures without an `OK` between them. -/
structure ReportsStreaks (d : PingPongDetector) (answers : List ProbeAnswer) : Prop where
  once : (d.ticks answers).2.count .notify ≤ 1
  consecutive : ∀ earlier answer later, answers = earlier ++ answer :: later →
    .notify ∈ ((d.ticks earlier).1.tick answer).2 →
    ∃ part rest, verdicts earlier = part ++ rest ∧ 10 ≤ failureStreak part

/-- When a tick follows the tenth failure, then no `OK` stands between two of the ten. -/
def FailsInARow (answers : List ProbeAnswer) : Prop :=
  ∀ earlier answer later, answers = earlier ++ answer :: later → TenthFailure earlier →
    Unbroken ProbeVerdict.isFailed ProbeVerdict.isOk (verdicts earlier)

theorem streak_iff_of_tenthFailure {answers : List ProbeAnswer} (h : TenthFailure answers) :
    (∃ part rest, verdicts answers = part ++ rest ∧ 10 ≤ failureStreak part) ↔
      Unbroken ProbeVerdict.isFailed ProbeVerdict.isOk (verdicts answers) := by
  rcases h with ⟨hten, hlast⟩
  rcases List.getLast?_eq_some_iff.1 hlast with ⟨log, hlog⟩
  have hdisjoint : ∀ v : ProbeVerdict, v.isFailed = true → v.isOk = false := fun v => by
    cases v with
    | failed => exact fun _ => rfl
    | ok => exact fun h => Bool.noConfusion h
    | bootstrapping => exact fun _ => rfl
  have hcount : (log ++ [ProbeVerdict.failed]).countP ProbeVerdict.isFailed = 10 := hlog ▸ hten
  have hhit : ProbeVerdict.failed.isFailed = true := rfl
  calc
    (∃ part rest, verdicts answers = part ++ rest ∧ 10 ≤ failureStreak part) ↔
        ∃ part rest, log ++ [ProbeVerdict.failed] = part ++ rest ∧
          (log ++ [ProbeVerdict.failed]).countP ProbeVerdict.isFailed ≤ failureStreak part := by
      rw [hlog, hcount]
    _ ↔ Unbroken ProbeVerdict.isFailed ProbeVerdict.isOk (log ++ [ProbeVerdict.failed]) :=
      countP_le_streak_iff hdisjoint hhit
    _ ↔ Unbroken ProbeVerdict.isFailed ProbeVerdict.isOk (verdicts answers) := by
      rw [hlog]

/-- The detector reports consecutive failures exactly if the ten failures were consecutive. -/
theorem reportsStreaks_iff {address subject : Endpoint} {d : PingPongDetector}
    (hnew : PingPongDetector.new address subject = some d) (answers : List ProbeAnswer) :
    ReportsStreaks d answers ↔ FailsInARow answers := by
  have hcounted (earlier : List ProbeAnswer) := (counted_new hnew).run earlier
  constructor
  · intro h earlier answer later hsplit htenth
    have hnotify := ((hcounted earlier).step answer).2.2 htenth
    exact (streak_iff_of_tenthFailure htenth).1 (h.consecutive earlier answer later hsplit hnotify)
  · refine fun h => ⟨d.count_ticks_le answers, fun earlier answer later hsplit hnotify => ?_⟩
    have htenth := ((hcounted earlier).step answer).2.1 hnotify
    exact (streak_iff_of_tenthFailure htenth).2 (h earlier answer later hsplit htenth)

section Sample

def probedAddr : SocketAddr :=
  .v4 ⟨127, 0, 0, 1⟩ 7801

def probing : PingPongDetector where
  address := endpointFromSocket (.v4 ⟨127, 0, 0, 1⟩ 7800)
  subject := endpointFromSocket probedAddr
  subjectAddr := probedAddr
  failureCount := 0
  bootstrapResponseCount := 0
  notified := false

theorem probing_new : PingPongDetector.new probing.address probing.subject = some probing := by
  have hparse : parseEndpoint (endpointFromSocket probedAddr) = some probedAddr :=
    parseEndpoint_eq probedAddr
  simp [PingPongDetector.new, hparse, probing]

/-- Nine errors, an `OK`, and one more error. -/
def nineAndOne : List ProbeAnswer :=
  List.replicate 9 none ++ [some ⟨some (.probeResponse ⟨0⟩)⟩, none]

def tenErrors : List ProbeAnswer :=
  List.replicate 10 none

theorem nineAndOne_reported :
    PingPongDetector.new probing.address probing.subject = some probing ∧
      ¬ ReportsStreaks probing (nineAndOne ++ [none]) := by
  refine ⟨probing_new, fun h => ?_⟩
  have hnotify : .notify ∈ ((probing.ticks nineAndOne).1.tick none).2 := by decide
  have htenth : TenthFailure nineAndOne := ⟨by decide, by decide⟩
  have hstreak := h.consecutive nineAndOne none [] rfl hnotify
  have hunbroken := (streak_iff_of_tenthFailure htenth).1 hstreak
  have hok := hunbroken (List.replicate 8 .failed) .failed [.ok] .failed [] (by decide) rfl rfl .ok
    (List.mem_singleton_self _)
  exact Bool.noConfusion hok

theorem tenErrors_reported :
    ReportsStreaks probing (tenErrors ++ [none]) ∧
      (probing.ticks (tenErrors ++ [none])).2.count .notify = 1 := by
  refine ⟨(reportsStreaks_iff probing_new _).2 ?_, by decide⟩
  -- No answer is an `OK`.
  intro earlier answer later hsplit _ before first between last after hlog _ _ v hv
  have hmem : v ∈ verdicts earlier := by simp [hlog, hv]
  rcases exists_of_mem_verdictsFrom hmem with ⟨a, ha, n, rfl⟩
  have hall : a ∈ tenErrors ++ [none] := hsplit ▸ List.mem_append_left _ ha
  have hnone : a = none := List.eq_of_mem_replicate (n := 11) hall
  rw [hnone]
  rfl

end Sample

end Rapid
