import Mathlib.Data.Finset.Basic
import Mathlib.Data.Finset.Lattice.Lemmas

/-!
# Drain — settling the elements that wait, in any order

Elements wait in one set. A visit moves an element to the settled ones if it is ready; when the last
one leaves, everything settled is handed out at once. Where readiness does not change on the way, the
outcome of visiting all elements is a function of the two sets: the order of the visits is not in it.
-/

namespace Foundations

structure Basin (α : Type*) where
  waiting : Finset α
  settled : Finset α

namespace Basin

variable {α : Type*} [DecidableEq α] (ready : α → Prop) [DecidablePred ready]

/-- One visit, and what it hands out. -/
def visit (s : Basin α) (a : α) : Basin α × Finset α :=
  if a ∈ s.waiting ∧ ready a then
    if s.waiting.erase a = ∅ then (⟨∅, ∅⟩, insert a s.settled)
    else (⟨s.waiting.erase a, insert a s.settled⟩, ∅)
  else (s, ∅)

def visits (s : Basin α) : List α → Basin α × Finset α
  | [] => (s, ∅)
  | a :: as =>
      let first := s.visit ready a
      let rest := visits first.1 as
      (rest.1, first.2 ∪ rest.2)

/-- All of them leave, or those that go settle and the others stay. -/
def outcome (s : Basin α) (goes : α → Prop) [DecidablePred goes] : Basin α × Finset α :=
  if s.waiting.Nonempty ∧ ∀ a ∈ s.waiting, goes a then (⟨∅, ∅⟩, s.settled ∪ s.waiting)
  else (⟨s.waiting.filter fun a => ¬ goes a, s.settled ∪ s.waiting.filter goes⟩, ∅)

section Visit

variable {ready ready' : α → Prop} [DecidablePred ready] [DecidablePred ready'] {s : Basin α} {a : α}

@[simp] theorem visit_empty : visit ready ⟨∅, ∅⟩ a = (⟨∅, ∅⟩, ∅) :=
  if_neg fun h => Finset.notMem_empty a h.1

/-- Only the readiness of the visited element matters. -/
theorem visit_congr (h : ready a ↔ ready' a) : s.visit ready a = s.visit ready' a := by
  simp only [visit, h]

/-- Unless everything is handed out, a visit loses nobody. -/
theorem visit_cases (ready : α → Prop) [DecidablePred ready] (s : Basin α) (a : α) : (s.visit ready a).1 = ⟨∅, ∅⟩ ∨
    ((s.visit ready a).1.settled ∪ (s.visit ready a).1.waiting = s.settled ∪ s.waiting ∧
      (s.visit ready a).2 = ∅) := by
  unfold visit
  split
  · rename_i hmoves
    split
    · exact .inl rfl
    · refine .inr ⟨?_, rfl⟩
      show insert a s.settled ∪ s.waiting.erase a = s.settled ∪ s.waiting
      rw [Finset.insert_union, ← Finset.union_insert, Finset.insert_erase hmoves.1]
  · exact .inr ⟨rfl, rfl⟩

/-- Readiness that comes late: of two visits to the same element only the last one counts. -/
theorem visit_visit (ready ready' : α → Prop) [DecidablePred ready] [DecidablePred ready'] (s : Basin α)
    (h : ready a → ready' a) :
    ((s.visit ready a).1.visit ready' a).1 = (s.visit ready' a).1 ∧
      (s.visit ready a).2 ∪ ((s.visit ready a).1.visit ready' a).2 = (s.visit ready' a).2 := by
  by_cases hmoves : a ∈ s.waiting ∧ ready a
  · have hmoves' : a ∈ s.waiting ∧ ready' a := ⟨hmoves.1, h hmoves.2⟩
    by_cases hlast : s.waiting.erase a = ∅
    · simp [visit, hmoves, hmoves', hlast]
    · simp [visit, hmoves, hmoves', hlast]
  · have hstays : s.visit ready a = (s, ∅) := if_neg hmoves
    simp [hstays]

end Visit

variable {ready} {s : Basin α} {a : α} {goes goes' : α → Prop} [DecidablePred goes] [DecidablePred goes']

theorem outcome_congr (h : ∀ a ∈ s.waiting, (goes a ↔ goes' a)) : s.outcome goes = s.outcome goes' := by
  have hall : (∀ a ∈ s.waiting, goes a) ↔ ∀ a ∈ s.waiting, goes' a :=
    forall₂_congr h
  have hgo : s.waiting.filter goes = s.waiting.filter goes' := Finset.filter_congr h
  have hstay : (s.waiting.filter fun a => ¬ goes a) = s.waiting.filter fun a => ¬ goes' a :=
    Finset.filter_congr fun a ha => not_congr (h a ha)
  simp [outcome, hall, hgo, hstay]

/-- Nobody goes. -/
theorem outcome_of_none (h : ∀ a ∈ s.waiting, ¬ goes a) : s.outcome goes = (s, ∅) := by
  have hgo : s.waiting.filter goes = ∅ := Finset.filter_eq_empty_iff.2 h
  have hstay : (s.waiting.filter fun a => ¬ goes a) = s.waiting := Finset.filter_true_of_mem h
  have hsome : ¬ (s.waiting.Nonempty ∧ ∀ a ∈ s.waiting, goes a) := by
    rintro ⟨⟨a, ha⟩, hall⟩
    exact h a ha (hall a ha)
  rw [outcome, if_neg hsome, hgo, hstay, Finset.union_empty]

/-- One of those that go may go first. -/
theorem outcome_erase (ha : a ∈ s.waiting) (hgoes : goes a) (hrest : (s.waiting.erase a).Nonempty) :
    (⟨s.waiting.erase a, insert a s.settled⟩ : Basin α).outcome goes = s.outcome goes := by
  have hwaiting : insert a (s.waiting.erase a) = s.waiting := Finset.insert_erase ha
  -- As long as something else waits, moving `a` does not change whether all of it goes.
  have hall : ((s.waiting.erase a).Nonempty ∧ ∀ x ∈ s.waiting.erase a, goes x) ↔
      s.waiting.Nonempty ∧ ∀ x ∈ s.waiting, goes x := by
    constructor
    · rintro ⟨_, hothers⟩
      refine ⟨⟨a, ha⟩, fun x hx => ?_⟩
      by_cases hxa : x = a
      · exact hxa ▸ hgoes
      · exact hothers x (Finset.mem_erase.2 ⟨hxa, hx⟩)
    · rintro ⟨_, hothers⟩
      exact ⟨hrest, fun x hx => hothers x (Finset.mem_of_mem_erase hx)⟩
  have hout : insert a s.settled ∪ s.waiting.erase a = s.settled ∪ s.waiting := by
    rw [Finset.insert_union, ← Finset.union_insert, hwaiting]
  have hmore : insert a ((s.waiting.erase a).filter goes) = s.waiting.filter goes := by
    ext x
    by_cases hxa : x = a
    · simp [hxa, ha, hgoes]
    · simp [hxa]
  have hgo : insert a s.settled ∪ (s.waiting.erase a).filter goes = s.settled ∪ s.waiting.filter goes := by
    rw [Finset.insert_union, ← Finset.union_insert, hmore]
  have hstay : ((s.waiting.erase a).filter fun x => ¬ goes x) = s.waiting.filter fun x => ¬ goes x := by
    ext x
    by_cases hxa : x = a
    · simp [hxa, hgoes]
    · simp [hxa]
  simp only [outcome, hall, hout, hgo, hstay]

/-- The visited ones that are ready go, in whatever order they are visited. -/
theorem visits_eq (list : List α) : ∀ s : Basin α,
    s.visits ready list = s.outcome fun a => a ∈ list ∧ ready a := by
  induction list with
  | nil =>
      intro s
      rw [outcome_of_none fun a _ h => List.not_mem_nil h.1]
      rfl
  | cons a list ih =>
      intro s
      by_cases hmoves : a ∈ s.waiting ∧ ready a
      · by_cases hlast : s.waiting.erase a = ∅
        · -- The last one: everything is handed out, and nobody is left for the other visits.
          have hwaiting : s.waiting = {a} := by
            rw [← Finset.insert_erase hmoves.1, hlast]
            rfl
          have hnobody : visits ready ⟨∅, ∅⟩ list = (⟨∅, ∅⟩, ∅) := by
            rw [ih]
            exact outcome_of_none fun x hx => absurd hx (Finset.notMem_empty x)
          have hall : s.waiting.Nonempty ∧ ∀ x ∈ s.waiting, x ∈ a :: list ∧ ready x := by
            refine ⟨⟨a, hmoves.1⟩, fun x hx => ?_⟩
            rw [hwaiting, Finset.mem_singleton] at hx
            subst hx
            exact ⟨List.mem_cons_self, hmoves.2⟩
          calc
            s.visits ready (a :: list) = (⟨∅, ∅⟩, insert a s.settled) := by
              simp [visits, visit, hmoves, hlast, hnobody]
            _ = s.outcome fun x => x ∈ a :: list ∧ ready x := by
              rw [outcome, if_pos hall, hwaiting, Finset.union_comm]
              rfl
        · have hrest : (s.waiting.erase a).Nonempty := Finset.nonempty_iff_ne_empty.2 hlast
          calc
            s.visits ready (a :: list) =
                visits ready ⟨s.waiting.erase a, insert a s.settled⟩ list := by
              simp [visits, visit, hmoves, hlast]
            _ = (⟨s.waiting.erase a, insert a s.settled⟩ : Basin α).outcome
                fun x => x ∈ list ∧ ready x := ih _
            _ = (⟨s.waiting.erase a, insert a s.settled⟩ : Basin α).outcome
                fun x => x ∈ a :: list ∧ ready x :=
              outcome_congr fun x hx => by simp [Finset.ne_of_mem_erase hx]
            _ = s.outcome fun x => x ∈ a :: list ∧ ready x :=
              outcome_erase hmoves.1 ⟨List.mem_cons_self, hmoves.2⟩ hrest
      · calc
          s.visits ready (a :: list) = s.visits ready list := by
            simp [visits, visit, if_neg hmoves]
          _ = s.outcome fun x => x ∈ list ∧ ready x := ih s
          _ = s.outcome fun x => x ∈ a :: list ∧ ready x := by
            refine outcome_congr fun x hx => ?_
            by_cases hxa : x = a
            · have hidle : ¬ ready x := fun hready => hmoves (hxa ▸ ⟨hx, hready⟩)
              simp [hidle]
            · simp [hxa]

/-- After a visit to everyone that waits. -/
theorem visits_all {list : List α} (hlist : ∀ a ∈ s.waiting, a ∈ list) :
    s.visits ready list = s.outcome ready := by
  rw [visits_eq]
  exact outcome_congr fun a ha => and_iff_right (hlist a ha)

end Basin

end Foundations
