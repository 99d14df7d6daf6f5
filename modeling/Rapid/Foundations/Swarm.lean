import Rapid.Foundations.History
import Rapid.Foundations.Transition
import Mathlib.Logic.Function.Basic

/-!
# Swarm — any number of parties and everything they ever sent

A `Swarm` says how one party boots, what it does with an input and what it sends. In its world any
party may boot at any time, and an input that hands over a message is possible once somebody has
sent that message: the wire is never emptied, so messages may be lost, delayed, reordered,
duplicated and misrouted.

The world also keeps the past: who took which input in which state. `Swarm.Local` collects facts
about one party, one message and one event that speak about the past and stay true as it grows;
`Swarm.Local.reaches` carries them to every reachable world.
-/

namespace Foundations

/-- One party: `β` ways to boot, `σ` states, `α` inputs, `μ` messages. -/
structure Swarm (β σ α μ : Type*) where
  boot : β → Option σ
  step : σ → α → Option σ
  /-- The message that an input hands over. -/
  delivers : α → Option μ
  sends : σ → α → List μ

/-- An input that a party took, with its state before. -/
structure SwarmEvent (ι σ α : Type*) where
  party : ι
  state : σ
  input : α

structure SwarmWorld (ι σ α μ : Type*) where
  party : ι → Option σ
  wire : List μ
  past : List (SwarmEvent ι σ α)

inductive SwarmStep (ι β α : Type*)
  | boot (i : ι) (b : β)
  | act (i : ι) (a : α)

namespace Swarm

variable {ι β σ α μ : Type*}

section System

variable [DecidableEq ι] [DecidableEq μ] (P : Swarm β σ α μ)

/-- What the party is handed was sent. -/
def available (w : SwarmWorld ι σ α μ) (a : α) : Bool :=
  (P.delivers a).all fun m => m ∈ w.wire

def bootParty (w : SwarmWorld ι σ α μ) (i : ι) (s : σ) : SwarmWorld ι σ α μ :=
  { w with party := Function.update w.party i (some s) }

def record (w : SwarmWorld ι σ α μ) (i : ι) (s : σ) (a : α) (s' : σ) : SwarmWorld ι σ α μ where
  party := Function.update w.party i (some s')
  wire := w.wire ++ P.sends s a
  past := w.past ++ [⟨i, s, a⟩]

def system (ι : Type*) [DecidableEq ι] : System (SwarmWorld ι σ α μ) (SwarmStep ι β α) where
  init w := w = ⟨fun _ => none, [], []⟩
  step w
    | .boot i b =>
        match w.party i with
        | none => (P.boot b).map (bootParty w i)
        | some _ => none
    | .act i a =>
        (w.party i).bind fun s =>
          if P.available w a then (P.step s a).map (P.record w i s a) else none

variable {P} {w w' : SwarmWorld ι σ α μ}

/-- A party boots where none was, or takes an input. -/
theorem step_labels {l : SwarmStep ι β α} (h : (P.system ι).step w l = some w') :
    (∃ i b s, l = .boot i b ∧ w.party i = none ∧ P.boot b = some s ∧ w' = bootParty w i s) ∨
      ∃ i s a s', l = .act i a ∧ w.party i = some s ∧
        (∀ m, P.delivers a = some m → m ∈ w.wire) ∧ P.step s a = some s' ∧
        w' = P.record w i s a s' := by
  cases l with
  | boot i b =>
      simp only [system] at h
      split at h
      · rename_i hnone
        rcases Option.map_eq_some_iff.1 h with ⟨s, hs, rfl⟩
        exact .inl ⟨i, b, s, rfl, hnone, hs, rfl⟩
      · cases h
  | act i a =>
      rcases Option.bind_eq_some_iff.1 h with ⟨s, hs, hact⟩
      split at hact
      · rename_i havailable
        rcases Option.map_eq_some_iff.1 hact with ⟨s', hs', rfl⟩
        refine .inr ⟨i, s, a, s', rfl, hs, ?_, hs', rfl⟩
        intro m hm
        unfold available at havailable
        rw [hm] at havailable
        exact of_decide_eq_true havailable
      · cases hact

theorem step_cases {l : SwarmStep ι β α} (h : (P.system ι).step w l = some w') :
    (∃ i b s, P.boot b = some s ∧ w' = bootParty w i s) ∨
      ∃ i s a s', w.party i = some s ∧ (∀ m, P.delivers a = some m → m ∈ w.wire) ∧
        P.step s a = some s' ∧ w' = P.record w i s a s' := by
  rcases step_labels h with ⟨i, b, s, _, _, hs, hw⟩ | ⟨i, s, a, s', _, hs, hwire, hs', hw⟩
  · exact .inl ⟨i, b, s, hs, hw⟩
  · exact .inr ⟨i, s, a, s', hs, hwire, hs', hw⟩

/-- Every event of the past was a step that the guard let pass. -/
theorem taken_of_past {ok : SwarmWorld ι σ α μ → SwarmStep ι β α → Prop}
    (h : (P.system ι).Reaches ok w) :
    ∀ e ∈ w.past, ∃ before, (P.system ι).Reaches ok before ∧ ok before (.act e.party e.input) ∧
      before.party e.party = some e.state := by
  induction h with
  | start hinit =>
      rename_i w
      intro e he
      rw [show w = ⟨fun _ => none, [], []⟩ from hinit] at he
      cases he
  | step hw hok hstep ih =>
      rename_i before l after
      intro e he
      rcases step_labels hstep with ⟨i, b, s, _, _, _, rfl⟩ | ⟨i, s, a, s', rfl, hs, _, _, rfl⟩
      · exact ih e he
      · rcases List.mem_append.1 he with hold | hnew
        · exact ih e hold
        · cases List.mem_singleton.1 hnew
          exact ⟨before, hw, hok, hs⟩

/-- What had happened up to an event is the past of a run of its own. -/
theorem past_reached {ok : SwarmWorld ι σ α μ → SwarmStep ι β α → Prop}
    (h : (P.system ι).Reaches ok w) :
    Past (fun earlier e => ∃ w', (P.system ι).Reaches ok w' ∧ w'.past = earlier ++ [e]) w.past := by
  induction h with
  | start hinit =>
      rename_i w
      rw [show w = ⟨fun _ => none, [], []⟩ from hinit]
      exact past_nil
  | step hw hok hstep ih =>
      rcases step_cases hstep with ⟨i, b, s, _, rfl⟩ | ⟨i, s, a, s', _, _, _, rfl⟩
      · exact ih
      · exact past_append_singleton.2 ⟨ih, _, .step hw hok hstep, rfl⟩

/-! ## States that occurred -/

/-- A state that a party is in, or was in when it took an input. -/
def Seen (w : SwarmWorld ι σ α μ) (s : σ) : Prop :=
  (∃ e ∈ w.past, e.state = s) ∨ ∃ i, w.party i = some s

/-- A table of parties in which one entry was written. -/
theorem update_cases {party : ι → Option σ} {i j : ι} {s t : σ}
    (h : Function.update party i (some s) j = some t) : j = i ∧ t = s ∨ j ≠ i ∧ party j = some t := by
  by_cases hj : j = i
  · subst hj
    rw [Function.update_self] at h
    exact .inl ⟨rfl, (Option.some.inj h).symm⟩
  · rw [Function.update_of_ne hj] at h
    exact .inr ⟨hj, h⟩

section Seen

variable {i : ι} {s t t' : σ} {a : α}

omit [DecidableEq μ] in
theorem seen_bootParty (hnone : w.party i = none) :
    Seen (bootParty w i t) s ↔ s = t ∨ Seen w s := by
  constructor
  · rintro (hpast | ⟨j, hj⟩)
    · exact .inr (.inl hpast)
    · rcases update_cases hj with ⟨_, rfl⟩ | ⟨_, hold⟩
      · exact .inl rfl
      · exact .inr (.inr ⟨j, hold⟩)
  · rintro (rfl | hpast | ⟨j, hj⟩)
    · exact .inr ⟨i, Function.update_self ..⟩
    · exact .inl hpast
    · have hji : j ≠ i := by
        rintro rfl
        rw [hnone] at hj
        cases hj
      exact .inr ⟨j, (Function.update_of_ne hji ..).trans hj⟩

omit [DecidableEq μ] in
/-- Nothing that was seen is forgotten: the state before a step goes into the past. -/
theorem seen_record (hi : w.party i = some t) :
    Seen (P.record w i t a t') s ↔ s = t' ∨ Seen w s := by
  constructor
  · rintro (⟨e, he, rfl⟩ | ⟨j, hj⟩)
    · rcases List.mem_append.1 he with hold | hnew
      · exact .inr (.inl ⟨e, hold, rfl⟩)
      · cases List.mem_singleton.1 hnew
        exact .inr (.inr ⟨i, hi⟩)
    · rcases update_cases hj with ⟨_, rfl⟩ | ⟨_, hold⟩
      · exact .inl rfl
      · exact .inr (.inr ⟨j, hold⟩)
  · rintro (rfl | ⟨e, he, rfl⟩ | ⟨j, hj⟩)
    · exact .inr ⟨i, Function.update_self ..⟩
    · exact .inl ⟨e, List.mem_append_left _ he, rfl⟩
    · by_cases hji : j = i
      · subst hji
        cases Option.some.inj (hi.symm.trans hj)
        exact .inl ⟨_, List.mem_append_right _ List.mem_cons_self, rfl⟩
      · exact .inr ⟨j, (Function.update_of_ne hji ..).trans hj⟩

end Seen

end System

/-! ## Facts that stay true -/

/-- What one party, one message and one event satisfy, given the past. -/
structure Local (P : Swarm β σ α μ) (ι : Type*) where
  node : List (SwarmEvent ι σ α) → σ → Prop
  message : List (SwarmEvent ι σ α) → μ → Prop
  event : List (SwarmEvent ι σ α) → SwarmEvent ι σ α → Prop
  node_mono : ∀ {past past' s}, past ⊆ past' → node past s → node past' s
  message_mono : ∀ {past past' m}, past ⊆ past' → message past m → message past' m
  event_mono : ∀ {past past' e}, past ⊆ past' → event past e → event past' e
  boot : ∀ {b s}, P.boot b = some s → node [] s
  /-- The past contains the step itself. -/
  step : ∀ {past i s a s'}, node past s → (∀ m, P.delivers a = some m → message past m) →
    ⟨i, s, a⟩ ∈ past → P.step s a = some s' →
      node past s' ∧ (∀ m ∈ P.sends s a, message past m) ∧ event past ⟨i, s, a⟩

namespace Local

variable {P : Swarm β σ α μ} {w : SwarmWorld ι σ α μ}

structure Holds (L : Local P ι) (w : SwarmWorld ι σ α μ) : Prop where
  nodes : ∀ i s, w.party i = some s → L.node w.past s
  wire : ∀ m ∈ w.wire, L.message w.past m
  past : ∀ e ∈ w.past, L.event w.past e

variable [DecidableEq ι]

theorem Holds.boot {L : Local P ι} (h : L.Holds w) {i : ι} {b : β} {s : σ}
    (hs : P.boot b = some s) : L.Holds (bootParty w i s) := by
  refine ⟨?_, h.wire, h.past⟩
  intro j t ht
  rcases update_cases ht with ⟨_, rfl⟩ | ⟨_, hold⟩
  · exact L.node_mono (List.nil_subset _) (L.boot hs)
  · exact h.nodes j t hold

theorem Holds.act {L : Local P ι} (h : L.Holds w) {i : ι} {s s' : σ} {a : α}
    (hs : w.party i = some s) (hwire : ∀ m, P.delivers a = some m → m ∈ w.wire)
    (hstep : P.step s a = some s') : L.Holds (P.record w i s a s') := by
  have hsub : w.past ⊆ w.past ++ [⟨i, s, a⟩] := List.subset_append_left _ _
  have hlast : (⟨i, s, a⟩ : SwarmEvent ι σ α) ∈ w.past ++ [⟨i, s, a⟩] :=
    List.mem_append_right _ List.mem_cons_self
  -- The facts about the party and its input are read with the step already in the past.
  rcases L.step (L.node_mono hsub (h.nodes i s hs))
    (fun m hm => L.message_mono hsub (h.wire m (hwire m hm))) hlast hstep with
    ⟨hnode, hsends, hevent⟩
  refine ⟨?_, ?_, ?_⟩
  · intro j t ht
    rcases update_cases ht with ⟨_, rfl⟩ | ⟨_, hold⟩
    · exact hnode
    · exact L.node_mono hsub (h.nodes j t hold)
  · intro m hm
    rcases List.mem_append.1 hm with hold | hnew
    · exact L.message_mono hsub (h.wire m hold)
    · exact hsends m hnew
  · intro e he
    rcases List.mem_append.1 he with hold | hnew
    · exact L.event_mono hsub (h.past e hold)
    · cases List.mem_singleton.1 hnew
      exact hevent

/-- Local facts hold in every world that is reached. -/
theorem reaches [DecidableEq μ] (L : Local P ι)
    {ok : SwarmWorld ι σ α μ → SwarmStep ι β α → Prop} (h : (P.system ι).Reaches ok w) :
    L.Holds w := by
  refine h.invariant ?_ ?_
  · intro w hw
    rw [show w = ⟨fun _ => none, [], []⟩ from hw]
    exact ⟨fun i s hs => (by cases hs), fun m hm => (by cases hm), fun e he => (by cases he)⟩
  · intro w l w' _ hw _ hstep
    rcases step_cases hstep with ⟨i, b, s, hs, rfl⟩ | ⟨i, s, a, s', hs, hwire, hs', rfl⟩
    · exact hw.boot hs
    · exact hw.act hs hwire hs'

end Local

end Swarm

end Foundations
