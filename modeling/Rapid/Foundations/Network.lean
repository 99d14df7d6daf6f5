import Rapid.Foundations.Transition
import Mathlib.Data.List.FinRange
import Mathlib.Logic.Function.Basic

/-!
# Network — N state machines over a lossy, reordering network

`Protocol` describes `N` machines that react to messages and to commands of the environment by
emitting broadcasts, unicasts and decisions. `Protocol.system` closes them into a transition
system: every emitted copy may be lost, delayed and reordered, and is delivered at most once to
its destination.

Besides the machines and the copies in flight, a world remembers what a proof needs to speak
about the past: all messages ever emitted, all decisions, all commands issued.
-/

namespace Foundations

/-- What a machine hands to its environment: `A` addresses, `M` messages, `V` decided values. -/
inductive Emission (A M V : Type*)
  | broadcast (m : M)
  | unicast (target : A) (m : M)
  | decision (v : V)

namespace Emission

variable {A M V : Type*}

def message? : Emission A M V → Option M
  | broadcast m => some m
  | unicast _ m => some m
  | decision _ => none

def decision? : Emission A M V → Option V
  | decision v => some v
  | _ => none

@[simp] theorem message?_broadcast (m : M) : (broadcast m : Emission A M V).message? = some m := rfl
@[simp] theorem message?_unicast (t : A) (m : M) :
    (unicast t m : Emission A M V).message? = some m := rfl
@[simp] theorem message?_decision (v : V) : (decision v : Emission A M V).message? = none := rfl
@[simp] theorem decision?_broadcast (m : M) : (broadcast m : Emission A M V).decision? = none := rfl
@[simp] theorem decision?_unicast (t : A) (m : M) :
    (unicast t m : Emission A M V).decision? = none := rfl
@[simp] theorem decision?_decision (v : V) :
    (decision v : Emission A M V).decision? = some v := rfl

/-- The copies of an emission put in flight: one for every machine, or one for the target. -/
def copies {N : Nat} [DecidableEq A] (addr : Fin N → A) : Emission A M V → List (Fin N × M)
  | broadcast m => (List.finRange N).map fun j => (j, m)
  | unicast t m => ((List.finRange N).filter fun j => addr j = t).map fun j => (j, m)
  | decision _ => []

theorem message?_of_mem_copies {N : Nat} [DecidableEq A] {addr : Fin N → A}
    {e : Emission A M V} {p : Fin N × M} (h : p ∈ e.copies addr) : e.message? = some p.2 := by
  cases e with
  | broadcast m =>
      obtain ⟨j, _, rfl⟩ := List.mem_map.1 h
      rfl
  | unicast t m =>
      obtain ⟨j, _, rfl⟩ := List.mem_map.1 h
      rfl
  | decision v => cases h

end Emission

/-! ## Messages on their way to one machine -/

section Arriving

variable {N : Nat} {M : Type*}

/-- The messages of a list of copies that are addressed to machine `j`. -/
def arriving (l : List (Fin N × M)) (j : Fin N) : List M :=
  (l.filter fun p => p.1 = j).map Prod.snd

@[simp] theorem mem_arriving {l : List (Fin N × M)} {j : Fin N} {m : M} :
    m ∈ arriving l j ↔ (j, m) ∈ l := by
  simp only [arriving, List.mem_map, List.mem_filter, decide_eq_true_eq]
  constructor
  · rintro ⟨⟨j', m'⟩, ⟨hmem, rfl⟩, rfl⟩
    exact hmem
  · intro hmem
    exact ⟨(j, m), ⟨hmem, rfl⟩, rfl⟩

theorem arriving_append (l l' : List (Fin N × M)) (j : Fin N) :
    arriving (l ++ l') j = arriving l j ++ arriving l' j := by
  simp [arriving]

theorem arriving_sublist {l l' : List (Fin N × M)} (h : l.Sublist l') (j : Fin N) :
    (arriving l j).Sublist (arriving l' j) :=
  (h.filter _).map _

theorem arriving_perm_cons [DecidableEq M] {l : List (Fin N × M)} {j : Fin N} {m : M}
    (h : (j, m) ∈ l) : (arriving l j).Perm (m :: arriving (l.erase (j, m)) j) := by
  have hperm : l.Perm ((j, m) :: l.erase (j, m)) := List.perm_cons_erase h
  have hmap := (hperm.filter fun p => p.1 = j).map Prod.snd
  simpa [arriving] using hmap

/-- An emission puts at most one copy on its way to a machine. -/
theorem arriving_copies {A V : Type*} [DecidableEq A] (addr : Fin N → A) (e : Emission A M V)
    (j : Fin N) :
    arriving (e.copies addr) j = [] ∨ ∃ m, e.message? = some m ∧ arriving (e.copies addr) j = [m] := by
  -- Among distinct recipients `j` occurs at most once.
  have honce : ∀ (l : List (Fin N)) (m : M), l.Nodup →
      arriving (l.map fun i => (i, m)) j = [] ∨ arriving (l.map fun i => (i, m)) j = [m] := by
    intro l m hl
    by_cases hj : j ∈ l
    · right
      have hfilter : (l.filter fun i => i = j) = [j] := by
        rw [List.filter_eq, List.count_eq_one_of_mem hl hj]
        rfl
      simp [arriving, List.filter_map, Function.comp_def, hfilter]
    · left
      have hfilter : (l.filter fun i => i = j) = [] := by
        rw [List.filter_eq, List.count_eq_zero_of_not_mem hj]
        rfl
      simp [arriving, List.filter_map, Function.comp_def, hfilter]
  cases e with
  | broadcast m =>
      rcases honce (List.finRange N) m (List.nodup_finRange N) with hnone | hone
      · exact .inl hnone
      · exact .inr ⟨m, rfl, hone⟩
  | unicast t m =>
      rcases honce _ m ((List.nodup_finRange N).filter fun i => addr i = t) with hnone | hone
      · exact .inl hnone
      · exact .inr ⟨m, rfl, hone⟩
  | decision v => exact .inl rfl

end Arriving

/-- `N` machines with states `S`, messages `M`, decided values `V` and commands `C`. -/
structure Protocol (N : Nat) (A S M V C : Type*) where
  addr : Fin N → A
  boot : Fin N → S
  handle : S → M → S × List (Emission A M V)
  command : S → C → S × List (Emission A M V)
  /-- Whether the environment may still issue a command to a machine, given those issued so far. -/
  enabled : List (Fin N × C) → Fin N → C → Bool

/-- A global state: the machines, the copies in flight, and the history. -/
structure World (N : Nat) (S M V C : Type*) where
  nodes : Fin N → S
  inflight : List (Fin N × M)
  sent : List M
  decisions : List (Fin N × V)
  issued : List (Fin N × C)

inductive NetAction (N : Nat) (M C : Type*)
  | command (i : Fin N) (c : C)
  | deliver (j : Fin N) (m : M)
  | lose (j : Fin N) (m : M)

namespace Protocol

variable {N : Nat} {A S M V C : Type*} [DecidableEq A]

/-! ## What an emission changes -/

section Post

variable (P : Protocol N A S M V C) (w : World N S M V C)

/-- Machine `i` moves to the given state and its emissions are put on the network. -/
def post (i : Fin N) (r : S × List (Emission A M V)) : World N S M V C :=
  { w with
    nodes := Function.update w.nodes i r.1
    inflight := w.inflight ++ r.2.flatMap (Emission.copies P.addr)
    sent := w.sent ++ r.2.filterMap Emission.message?
    decisions := w.decisions ++ (r.2.filterMap Emission.decision?).map fun v => (i, v) }

variable (i : Fin N) (r : S × List (Emission A M V))

@[simp] theorem post_nodes_self : (P.post w i r).nodes i = r.1 := by
  simp [post]

/-- A machine that stays as it is and emits nothing changes nothing. -/
@[simp] theorem post_same : P.post w i (w.nodes i, []) = w := by
  simp [post]

theorem post_nodes_ne {j : Fin N} (hne : j ≠ i) : (P.post w i r).nodes j = w.nodes j := by
  simp [post, Function.update_of_ne hne]

@[simp] theorem post_issued : (P.post w i r).issued = w.issued := rfl

theorem post_sent : (P.post w i r).sent = w.sent ++ r.2.filterMap Emission.message? := rfl

theorem post_inflight :
    (P.post w i r).inflight = w.inflight ++ r.2.flatMap (Emission.copies P.addr) := rfl

theorem mem_post_sent {m : M} :
    m ∈ (P.post w i r).sent ↔ m ∈ w.sent ∨ ∃ e ∈ r.2, e.message? = some m := by
  simp [post]

theorem sent_subset_post : w.sent ⊆ (P.post w i r).sent :=
  fun _ hm => (mem_post_sent P w i r).2 (.inl hm)

theorem mem_post_decisions {d : Fin N × V} :
    d ∈ (P.post w i r).decisions ↔
      d ∈ w.decisions ∨ d.1 = i ∧ Emission.decision d.2 ∈ r.2 := by
  obtain ⟨j, v⟩ := d
  have hdec : ∀ u, (∃ e ∈ r.2, e.decision? = some u) ↔ Emission.decision u ∈ r.2 := by
    intro u
    constructor
    · rintro ⟨e, he, hv⟩
      cases e with
      | decision t =>
          cases hv
          exact he
      | broadcast m => cases hv
      | unicast t m => cases hv
    · intro he
      exact ⟨_, he, rfl⟩
  simp only [post, List.mem_append, List.mem_map, List.mem_filterMap, hdec, Prod.mk.injEq]
  constructor
  · rintro (hold | ⟨u, hu, rfl, rfl⟩)
    · exact .inl hold
    · exact .inr ⟨rfl, hu⟩
  · rintro (hold | ⟨rfl, hv⟩)
    · exact .inl hold
    · exact .inr ⟨v, hv, rfl, rfl⟩

end Post

/-! ## The closed system -/

/-- What machine `i` does with a command or a message. -/
def react (P : Protocol N A S M V C) (s : S) : C ⊕ M → S × List (Emission A M V)
  | .inl c => P.command s c
  | .inr m => P.handle s m

/-- Whether machine `i` may receive this input now. -/
def Available (P : Protocol N A S M V C) (w : World N S M V C) (i : Fin N) : C ⊕ M → Prop
  | .inl c => P.enabled w.issued i c
  | .inr m => (i, m) ∈ w.inflight

section Consume

variable [DecidableEq M]

/-- The input is recorded as issued, or its copy leaves the network. -/
def consume (w : World N S M V C) (i : Fin N) : C ⊕ M → World N S M V C
  | .inl c => { w with issued := w.issued ++ [(i, c)] }
  | .inr m => { w with inflight := w.inflight.erase (i, m) }

variable (w : World N S M V C) (i : Fin N) (input : C ⊕ M)

@[simp] theorem consume_nodes : (consume w i input).nodes = w.nodes := by
  cases input <;> rfl

@[simp] theorem consume_sent : (consume w i input).sent = w.sent := by
  cases input <;> rfl

@[simp] theorem consume_decisions : (consume w i input).decisions = w.decisions := by
  cases input <;> rfl

theorem consume_inflight_sublist : (consume w i input).inflight.Sublist w.inflight := by
  cases input with
  | inl c => exact List.Sublist.refl _
  | inr m => exact List.erase_sublist

theorem issued_subset_consume : w.issued ⊆ (consume w i input).issued := by
  cases input with
  | inl c => exact List.subset_append_left _ _
  | inr m => exact List.Subset.refl _

end Consume

variable (P : Protocol N A S M V C)

def initial : World N S M V C where
  nodes := P.boot
  inflight := []
  sent := []
  decisions := []
  issued := []

variable [DecidableEq M]

def step (w : World N S M V C) : NetAction N M C → Option (World N S M V C)
  | .command i c =>
      if P.enabled w.issued i c then
        some (P.post (consume w i (.inl c)) i (P.command (w.nodes i) c))
      else none
  | .deliver j m =>
      if (j, m) ∈ w.inflight then
        some (P.post (consume w j (.inr m)) j (P.handle (w.nodes j) m))
      else none
  | .lose j m =>
      if (j, m) ∈ w.inflight then some (consume w j (.inr m)) else none

def system : System (World N S M V C) (NetAction N M C) where
  init w := w = P.initial
  step := P.step

variable {P} {w w' : World N S M V C}

/-- The label of the step in which machine `i` receives `input`. -/
def reactLabel (i : Fin N) : C ⊕ M → NetAction N M C
  | .inl c => .command i c
  | .inr m => .deliver i m

/-- A step makes one machine react to an available input, or loses a copy. -/
theorem step_cases {a : NetAction N M C} (h : P.step w a = some w') :
    (∃ i input, a = reactLabel i input ∧ P.Available w i input ∧
      w' = P.post (consume w i input) i (P.react (w.nodes i) input)) ∨
    (∃ j m, a = .lose j m ∧ (j, m) ∈ w.inflight ∧ w' = consume w j (.inr m)) := by
  cases a with
  | command i c =>
      simp only [step] at h
      split at h
      · rename_i hen
        exact .inl ⟨i, .inl c, rfl, hen, (Option.some.inj h).symm⟩
      · cases h
  | deliver j m =>
      simp only [step] at h
      split at h
      · rename_i hin
        exact .inl ⟨j, .inr m, rfl, hin, (Option.some.inj h).symm⟩
      · cases h
  | lose j m =>
      simp only [step] at h
      split at h
      · rename_i hin
        exact .inr ⟨j, m, rfl, hin, (Option.some.inj h).symm⟩
      · cases h

/-- Conversely, every available input can be received. -/
theorem step_reactLabel {i : Fin N} {input : C ⊕ M} (h : P.Available w i input) :
    P.step w (reactLabel i input) =
      some (P.post (consume w i input) i (P.react (w.nodes i) input)) := by
  cases input with
  | inl c => exact if_pos h
  | inr m => exact if_pos h

/-- Machine `i` took its input and answered with `r`. -/
structure Reacted (w w' : World N S M V C) (i : Fin N) (input : C ⊕ M)
    (r : S × List (Emission A M V)) : Prop where
  own : w'.nodes i = r.1
  others : ∀ j, j ≠ i → w'.nodes j = w.nodes j
  sent : ∀ m, m ∈ w'.sent ↔ m ∈ w.sent ∨ ∃ e ∈ r.2, e.message? = some m
  issued : w'.issued = (consume w i input).issued

theorem reacted (P : Protocol N A S M V C) (w : World N S M V C) (i : Fin N) (input : C ⊕ M)
    (r : S × List (Emission A M V)) : Reacted w (P.post (consume w i input) i r) i input r where
  own := post_nodes_self P _ i r
  others := fun j hji => by rw [post_nodes_ne _ _ _ _ hji, consume_nodes]
  sent := fun m => by rw [mem_post_sent, consume_sent]
  issued := rfl

section Reacted

variable {i : Fin N} {input : C ⊕ M} {r : S × List (Emission A M V)}

omit [DecidableEq A] in
theorem Reacted.sent_subset (h : Reacted w w' i input r) : w.sent ⊆ w'.sent :=
  fun m hm => (h.sent m).2 (.inl hm)

omit [DecidableEq A] in
theorem Reacted.issued_subset (h : Reacted w w' i input r) : w.issued ⊆ w'.issued := by
  rw [h.issued]
  exact issued_subset_consume w i input

omit [DecidableEq A] in
/-- What holds of the machine that reacted, and of the others as they were, holds of all machines. -/
theorem Reacted.nodes {Q : Fin N → S → Prop} (h : Reacted w w' i input r) (hown : Q i r.1)
    (hothers : ∀ j, Q j (w.nodes j)) (j : Fin N) : Q j (w'.nodes j) := by
  by_cases hji : j = i
  · subst hji
    rw [h.own]
    exact hown
  · rw [h.others j hji]
    exact hothers j

end Reacted

/-- Every copy in flight was emitted before. -/
theorem inflight_sent {ok : World N S M V C → NetAction N M C → Prop}
    (h : P.system.Reaches ok w) : ∀ p ∈ w.inflight, p.2 ∈ w.sent := by
  refine h.invariant (I := fun w => ∀ p ∈ w.inflight, p.2 ∈ w.sent) ?_ ?_
  · intro w hw p hp
    cases (show w = P.initial from hw)
    cases hp
  · intro w a w' _ hI _ hstep p hp
    rcases step_cases hstep with ⟨i, input, _, _, rfl⟩ | ⟨j, m, _, _, rfl⟩
    · rw [mem_post_sent, consume_sent]
      rw [post_inflight] at hp
      rcases List.mem_append.1 hp with hold | hnew
      · exact .inl (hI p ((consume_inflight_sublist _ _ _).subset hold))
      · rcases List.mem_flatMap.1 hnew with ⟨e, he, hcopy⟩
        exact .inr ⟨e, he, Emission.message?_of_mem_copies hcopy⟩
    · rw [consume_sent]
      exact hI p ((consume_inflight_sublist _ _ _).subset hp)

/-! ## Networks that duplicate -/

section Duplicating

variable (P)

/-- The input is recorded as issued; a copy that is delivered stays in flight. -/
def record (w : World N S M V C) (i : Fin N) : C ⊕ M → World N S M V C
  | .inl c => { w with issued := w.issued ++ [(i, c)] }
  | .inr _ => w

/-- As `step`, but the network may deliver a copy again. -/
def stepDuplicating (w : World N S M V C) : NetAction N M C → Option (World N S M V C)
  | .command i c =>
      if P.enabled w.issued i c then
        some (P.post (record w i (.inl c)) i (P.command (w.nodes i) c))
      else none
  | .deliver j m =>
      if (j, m) ∈ w.inflight then
        some (P.post (record w j (.inr m)) j (P.handle (w.nodes j) m))
      else none
  | .lose j m =>
      if (j, m) ∈ w.inflight then some (consume w j (.inr m)) else none

def duplicating : System (World N S M V C) (NetAction N M C) where
  init w := w = P.initial
  step := P.stepDuplicating

variable {P}

theorem stepDuplicating_cases {a : NetAction N M C} (h : P.stepDuplicating w a = some w') :
    (∃ i input, P.Available w i input ∧
      w' = P.post (record w i input) i (P.react (w.nodes i) input)) ∨
    (∃ j m, (j, m) ∈ w.inflight ∧ w' = consume w j (.inr m)) := by
  cases a with
  | command i c =>
      simp only [stepDuplicating] at h
      split at h
      · rename_i hen
        exact .inl ⟨i, .inl c, hen, (Option.some.inj h).symm⟩
      · cases h
  | deliver j m =>
      simp only [stepDuplicating] at h
      split at h
      · rename_i hin
        exact .inl ⟨j, .inr m, hin, (Option.some.inj h).symm⟩
      · cases h
  | lose j m =>
      simp only [stepDuplicating] at h
      split at h
      · rename_i hin
        exact .inr ⟨j, m, hin, (Option.some.inj h).symm⟩
      · cases h

/-- What one machine, one message and one decision satisfy, given the commands issued so far. -/
structure Local (P : Protocol N A S M V C) where
  node : List (Fin N × C) → S → Prop
  message : List (Fin N × C) → M → Prop
  decision : List (Fin N × C) → V → Prop
  node_mono : ∀ {issued issued' s}, issued ⊆ issued' → node issued s → node issued' s
  message_mono : ∀ {issued issued' m}, issued ⊆ issued' → message issued m → message issued' m
  decision_mono : ∀ {issued issued' v}, issued ⊆ issued' → decision issued v → decision issued' v
  boot : ∀ i, node [] (P.boot i)
  react : ∀ {issued : List (Fin N × C)} {i s input}, node issued s →
    (∀ c, input = .inl c → (i, c) ∈ issued) → (∀ m, input = .inr m → message issued m) →
      node issued (P.react s input).1 ∧
        ∀ e ∈ (P.react s input).2, (∀ m, e.message? = some m → message issued m) ∧
          ∀ v, e.decision? = some v → decision issued v

structure Local.Holds (L : Local P) (w : World N S M V C) : Prop where
  nodes : ∀ i, L.node w.issued (w.nodes i)
  inflight : ∀ p ∈ w.inflight, L.message w.issued p.2
  sent : ∀ m ∈ w.sent, L.message w.issued m
  decisions : ∀ d ∈ w.decisions, L.decision w.issued d.2

omit [DecidableEq A] [DecidableEq M] in
theorem Local.Holds.record {L : Local P} (h : L.Holds w) (i : Fin N) (input : C ⊕ M) :
    L.Holds (record w i input) := by
  cases input with
  | inr m => exact h
  | inl c =>
      have hsub : w.issued ⊆ w.issued ++ [(i, c)] := List.subset_append_left _ _
      exact ⟨fun j => L.node_mono hsub (h.nodes j),
        fun p hp => L.message_mono hsub (h.inflight p hp),
        fun m hm => L.message_mono hsub (h.sent m hm),
        fun d hd => L.decision_mono hsub (h.decisions d hd)⟩

omit [DecidableEq M] in
/-- A reaction keeps local facts, given that the input satisfies them. -/
theorem Local.Holds.post {L : Local P} (h : L.Holds w) {i : Fin N} {input : C ⊕ M}
    (hcommand : ∀ c, input = .inl c → (i, c) ∈ w.issued)
    (hmessage : ∀ m, input = .inr m → L.message w.issued m) :
    L.Holds (P.post w i (P.react (w.nodes i) input)) := by
  -- What the party sends and decides is sound; everything else was there.
  rcases L.react (h.nodes i) hcommand hmessage with ⟨hnode, hout⟩
  refine ⟨?_, ?_, ?_, ?_⟩
  · intro j
    by_cases hji : j = i
    · subst hji
      rw [post_nodes_self]
      exact hnode
    · rw [post_nodes_ne _ _ _ _ hji]
      exact h.nodes j
  · intro p hp
    rw [post_inflight] at hp
    rcases List.mem_append.1 hp with hold | hnew
    · exact h.inflight p hold
    · rcases List.mem_flatMap.1 hnew with ⟨e, he, hcopy⟩
      exact (hout e he).1 _ (Emission.message?_of_mem_copies hcopy)
  · intro m hm
    rcases (mem_post_sent _ _ _ _).1 hm with hold | ⟨e, he, hm⟩
    · exact h.sent m hold
    · exact (hout e he).1 m hm
  · intro d hd
    rcases (mem_post_decisions _ _ _ _).1 hd with hold | ⟨_, hnew⟩
    · exact h.decisions d hold
    · exact (hout _ hnew).2 _ rfl

/-- Local facts hold in every run, whatever is lost, reordered or duplicated. -/
theorem Local.reaches (L : Local P) {ok : World N S M V C → NetAction N M C → Prop}
    (h : P.duplicating.Reaches ok w) : L.Holds w := by
  refine h.invariant ?_ ?_
  · intro w hw
    rw [show w = P.initial from hw]
    exact ⟨L.boot, fun p hp => (by cases hp), fun m hm => (by cases hm), fun d hd => (by cases hd)⟩
  · intro w a w' _ hw _ hstep
    rcases stepDuplicating_cases hstep with ⟨i, input, havail, rfl⟩ | ⟨j, m, _, rfl⟩
    · have hrecord : L.Holds (Protocol.record w i input) := hw.record i input
      have hnodes : (Protocol.record w i input).nodes = w.nodes := by
        cases input <;> rfl
      rw [← hnodes]
      refine hrecord.post ?_ ?_
      · rintro c rfl
        exact List.mem_append_right _ List.mem_cons_self
      · rintro m rfl
        exact hw.inflight _ havail
    · exact ⟨hw.nodes, fun p hp => hw.inflight p ((consume_inflight_sublist _ _ _).subset hp),
        hw.sent, hw.decisions⟩

end Duplicating

end Protocol

end Foundations
