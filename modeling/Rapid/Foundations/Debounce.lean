import Rapid.Foundations.Transition
import Mathlib.Data.List.Basic
import Mathlib.Order.Basic
import Mathlib.Order.Nat

/-!
# Debounce — a queue that is flushed after a quiet while

Items are added with the time at which they come. A tick flushes everything that is pending, but
only when the last item is older than the window. Whatever the clock does, the batches followed by
the pending items are all that was added, in the order in which it was added. If the clock never
goes back, then no item was added within the window before a flush.
-/

namespace Foundations

/-- The queue with its whole history; items carry the time at which they were added. -/
structure Debounced (α : Type*) where
  window : Nat
  added : List (Nat × α)
  pending : List (Nat × α)
  /-- The batches, with the time of the tick that flushed them. -/
  flushed : List (Nat × List (Nat × α))
  clock : Nat

inductive DebounceStep (α : Type*)
  | add (now : Nat) (item : α)
  | tick (now : Nat)
  | pass (now : Nat)

namespace DebounceStep

variable {α : Type*}

def now : DebounceStep α → Nat
  | add now _ => now
  | tick now => now
  | pass now => now

end DebounceStep

namespace Debounced

variable {α : Type*} (d : Debounced α)

/-- The time of the last pending item. -/
def lastAt : Option Nat :=
  d.pending.getLast?.map Prod.fst

/-- The last pending item is older than the window. -/
def due (now : Nat) : Bool :=
  d.lastAt.any fun last => d.window < now - last

def add (now : Nat) (item : α) : Debounced α :=
  { d with
    added := d.added ++ [(now, item)]
    pending := d.pending ++ [(now, item)]
    clock := now }

def flush (now : Nat) : Debounced α :=
  { d with
    pending := []
    flushed := d.flushed ++ [(now, d.pending)]
    clock := now }

/-- Time goes by. -/
def pass (now : Nat) : Debounced α :=
  { d with clock := now }

def tick (now : Nat) : Debounced α :=
  if d.due now then d.flush now else d.pass now

def system (α : Type*) : System (Debounced α) (DebounceStep α) where
  init d := d.added = [] ∧ d.pending = [] ∧ d.flushed = []
  step d
    | .add now item => some (d.add now item)
    | .tick now => some (d.tick now)
    | .pass now => some (d.pass now)

/-- The clock does not go back. -/
def Forward (d : Debounced α) (step : DebounceStep α) : Prop :=
  d.clock ≤ step.now

/-! ## Nothing is lost, repeated or reordered -/

structure Conserved (d : Debounced α) : Prop where
  order : d.flushed.flatMap Prod.snd ++ d.pending = d.added
  nonempty : ∀ batch ∈ d.flushed, batch.2 ≠ []

variable {d}

theorem last_of_due {now : Nat} (h : d.due now = true) :
    ∃ last, d.lastAt = some last ∧ d.window < now - last := by
  unfold due at h
  cases hlast : d.lastAt with
  | none =>
      rw [hlast] at h
      cases h
  | some last =>
      rw [hlast] at h
      exact ⟨last, rfl, of_decide_eq_true h⟩

theorem pending_ne_nil_of_due {now : Nat} (h : d.due now = true) : d.pending ≠ [] := by
  rcases last_of_due h with ⟨last, hlast, _⟩
  intro hnil
  unfold lastAt at hlast
  rw [hnil] at hlast
  cases hlast

theorem Conserved.add (h : d.Conserved) (now : Nat) (item : α) : (d.add now item).Conserved := by
  refine ⟨?_, h.nonempty⟩
  calc d.flushed.flatMap Prod.snd ++ (d.pending ++ [(now, item)])
      = d.flushed.flatMap Prod.snd ++ d.pending ++ [(now, item)] := (List.append_assoc _ _ _).symm
    _ = d.added ++ [(now, item)] := by rw [h.order]

theorem Conserved.flush (h : d.Conserved) {now : Nat} (hdue : d.due now = true) :
    (d.flush now).Conserved := by
  refine ⟨?_, ?_⟩
  · simpa [Debounced.flush] using h.order
  · intro batch hbatch
    rcases List.mem_append.1 hbatch with hold | hnew
    · exact h.nonempty batch hold
    · cases List.mem_singleton.1 hnew
      exact pending_ne_nil_of_due hdue

theorem Conserved.tick (h : d.Conserved) (now : Nat) : (d.tick now).Conserved := by
  unfold Debounced.tick
  split
  · rename_i hdue
    exact h.flush hdue
  · exact ⟨h.order, h.nonempty⟩

theorem Conserved.reaches {ok : Debounced α → DebounceStep α → Prop}
    (h : (system α).Reaches ok d) : d.Conserved := by
  refine h.invariant ?_ ?_
  · rintro d ⟨hadded, hpending, hflushed⟩
    refine ⟨?_, ?_⟩
    · rw [hadded, hpending, hflushed]
      rfl
    · rw [hflushed]
      exact fun batch hbatch => by cases hbatch
  · rintro d step d' _ hd _ hstep
    cases step with
    | add now item =>
        cases hstep
        exact hd.add now item
    | tick now =>
        cases hstep
        exact hd.tick now
    | pass now =>
        cases hstep
        exact ⟨hd.order, hd.nonempty⟩

/-! ## Quiet windows -/

/-- What a clock that never goes back makes sure of. -/
structure Quieted (d : Debounced α) : Prop where
  conserved : d.Conserved
  sorted : d.added.Pairwise fun x y => x.1 ≤ y.1
  past : ∀ item ∈ d.added, item.1 ≤ d.clock
  flushedPast : ∀ batch ∈ d.flushed, batch.1 ≤ d.clock
  /-- Around a flush nothing is added within the window before it. -/
  quiet : ∀ batch ∈ d.flushed, ∀ item ∈ d.added,
    item.1 + d.window < batch.1 ∨ batch.1 ≤ item.1

/-- The last pending item is the last one that was added. -/
theorem Quieted.le_last (h : d.Quieted) {last : Nat} (hlast : d.lastAt = some last) :
    ∀ item ∈ d.added, item.1 ≤ last := by
  rcases Option.map_eq_some_iff.1 hlast with ⟨newest, hnewest, rfl⟩
  rcases List.getLast?_eq_some_iff.1 hnewest with ⟨older, hpending⟩
  have hadded : d.flushed.flatMap Prod.snd ++ older ++ [newest] = d.added := by
    rw [List.append_assoc, ← hpending]
    exact h.conserved.order
  have hsorted := h.sorted
  rw [← hadded, List.pairwise_append] at hsorted
  intro item hitem
  rw [← hadded] at hitem
  rcases List.mem_append.1 hitem with hold | hnew
  · exact hsorted.2.2 item hold newest List.mem_cons_self
  · exact le_of_eq (congrArg Prod.fst (List.mem_singleton.1 hnew))

theorem Quieted.add (h : d.Quieted) {now : Nat} (hnow : d.clock ≤ now) (item : α) :
    (d.add now item).Quieted := by
  refine ⟨h.conserved.add now item, ?_, ?_, fun batch hbatch => (h.flushedPast batch hbatch).trans hnow,
    ?_⟩
  · refine List.pairwise_append.2 ⟨h.sorted, List.pairwise_singleton _ _, ?_⟩
    intro old hold new hnew
    cases List.mem_singleton.1 hnew
    exact (h.past old hold).trans hnow
  · intro x hx
    rcases List.mem_append.1 hx with hold | hnew
    · exact (h.past x hold).trans hnow
    · exact le_of_eq (congrArg Prod.fst (List.mem_singleton.1 hnew))
  · intro batch hbatch x hx
    rcases List.mem_append.1 hx with hold | hnew
    · exact h.quiet batch hbatch x hold
    · cases List.mem_singleton.1 hnew
      exact .inr ((h.flushedPast batch hbatch).trans hnow)

/-- When a flush is due, everything added so far is older than the window. -/
theorem Quieted.settled (h : d.Quieted) {now : Nat} (hdue : d.due now = true) :
    ∀ item ∈ d.added, item.1 + d.window < now := by
  intro item hitem
  rcases last_of_due hdue with ⟨last, hlast, hwindow⟩
  have hle := h.le_last hlast item hitem
  omega

theorem Quieted.flush (h : d.Quieted) {now : Nat} (hnow : d.clock ≤ now) (hdue : d.due now = true) :
    (d.flush now).Quieted := by
  refine ⟨h.conserved.flush hdue, h.sorted, fun x hx => (h.past x hx).trans hnow, ?_, ?_⟩
  · intro batch hbatch
    rcases List.mem_append.1 hbatch with hold | hnew
    · exact (h.flushedPast batch hold).trans hnow
    · cases List.mem_singleton.1 hnew
      exact le_rfl
  · intro batch hbatch x hx
    rcases List.mem_append.1 hbatch with hold | hnew
    · exact h.quiet batch hold x hx
    · cases List.mem_singleton.1 hnew
      exact .inl (h.settled hdue x hx)

theorem Quieted.pass (h : d.Quieted) {now : Nat} (hnow : d.clock ≤ now) : (d.pass now).Quieted :=
  ⟨⟨h.conserved.order, h.conserved.nonempty⟩, h.sorted, fun x hx => (h.past x hx).trans hnow,
    fun batch hbatch => (h.flushedPast batch hbatch).trans hnow, h.quiet⟩

/-- The run lemma. -/
theorem Quieted.reaches (h : (system α).Reaches Forward d) : d.Quieted := by
  refine h.invariant ?_ ?_
  · rintro d ⟨hadded, hpending, hflushed⟩
    refine ⟨.reaches (.start ⟨hadded, hpending, hflushed⟩ : (system α).Reachable d), ?_, ?_, ?_, ?_⟩
    · rw [hadded]
      exact List.Pairwise.nil
    · rw [hadded]
      exact fun item hitem => by cases hitem
    · rw [hflushed]
      exact fun batch hbatch => by cases hbatch
    · rw [hflushed]
      exact fun batch hbatch => by cases hbatch
  · rintro d step d' _ hd hnow hstep
    cases step with
    | add now item =>
        cases hstep
        exact hd.add hnow item
    | tick now =>
        cases hstep
        unfold Debounced.tick
        split
        · rename_i hdue
          exact hd.flush hnow hdue
        · exact hd.pass hnow
    | pass now =>
        cases hstep
        exact hd.pass hnow

/-- A tick that comes late enough leaves nothing pending. -/
theorem tick_pending {now : Nat} (hold : ∀ item ∈ d.pending, item.1 + d.window < now) :
    (d.tick now).pending = [] := by
  cases hlast : d.pending.getLast? with
  | none =>
      have hnil := List.getLast?_eq_none_iff.1 hlast
      have hdue : d.due now = false := by
        unfold due lastAt
        rw [hnil]
        rfl
      unfold Debounced.tick
      rw [hdue]
      exact hnil
  | some newest =>
      have hdue : d.due now = true := by
        have hage := hold newest (List.mem_of_getLast? hlast)
        unfold due lastAt
        rw [hlast]
        exact decide_eq_true (by omega)
      unfold Debounced.tick
      rw [hdue]
      rfl

end Debounced

end Foundations
