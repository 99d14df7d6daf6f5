import Mathlib.Data.Finset.Card
import Mathlib.Data.Finset.Dedup
import Mathlib.Data.List.Perm.Basic

/-!
# Poll — the first ballot of every voter counts

Ballots arrive one after the other. A voter's first ballot counts and all later ones are void, so the
supporters of two values are disjoint and only grow. In a poll without contradictions, where no voter
casts two different ballots, the order of arrival does not matter.
-/

namespace Foundations
namespace Poll

variable {A V : Type*} [DecidableEq A] [DecidableEq V] {ballots more : List (A × V)} {a b : A}
  {v w : V}

def voters (ballots : List (A × V)) : Finset A :=
  (ballots.map Prod.fst).toFinset

/-- The voters whose first ballot is for `v`. -/
def supporters (ballots : List (A × V)) (v : V) : Finset A :=
  (voters ballots).filter fun a => ballots.lookup a = some v

/-- No voter casts two different ballots. -/
def Consistent (ballots : List (A × V)) : Prop :=
  ∀ a v w, (a, v) ∈ ballots → (a, w) ∈ ballots → v = w

section

omit [DecidableEq V]

theorem mem_voters : a ∈ voters ballots ↔ ∃ v, (a, v) ∈ ballots := by
  simp [voters]

theorem voters_append : voters (ballots ++ more) = voters ballots ∪ voters more := by
  simp [voters]

theorem notMem_voters : a ∉ voters ballots ↔ ballots.lookup a = none := by
  rw [List.lookup_eq_none_iff, mem_voters]
  constructor
  · intro hnone p hp
    have hne : a ≠ p.1 := by
      rintro rfl
      exact hnone ⟨p.2, hp⟩
    simp [hne]
  · rintro hnone ⟨v, hv⟩
    simpa using hnone (a, v) hv

theorem mem_of_lookup (h : ballots.lookup a = some v) : (a, v) ∈ ballots := by
  rcases List.lookup_eq_some_iff.1 h with ⟨earlier, later, rfl, _⟩
  simp

theorem lookup_singleton_of_ne (h : b ≠ a) : [(a, v)].lookup b = none := by
  rw [← notMem_voters, mem_voters]
  rintro ⟨w, hw⟩
  exact h (Prod.mk.inj (List.mem_singleton.1 hw)).1

end

theorem mem_supporters : a ∈ supporters ballots v ↔ ballots.lookup a = some v := by
  unfold supporters
  rw [Finset.mem_filter]
  constructor
  · exact fun h => h.2
  · intro h
    exact ⟨mem_voters.2 ⟨v, mem_of_lookup h⟩, h⟩

theorem supporters_subset : supporters ballots v ⊆ voters ballots :=
  Finset.filter_subset _ _

theorem supporters_disjoint (hne : v ≠ w) :
    Disjoint (supporters ballots v) (supporters ballots w) := by
  rw [Finset.disjoint_left]
  intro a hv hw
  exact hne (Option.some.inj ((mem_supporters.1 hv).symm.trans (mem_supporters.1 hw)))

/-! ## One more ballot -/

/-- A void ballot. -/
theorem supporters_append_of_mem (h : a ∈ voters ballots) :
    supporters (ballots ++ [(a, v)]) w = supporters ballots w := by
  ext b
  rw [mem_supporters, mem_supporters, List.lookup_append]
  cases hb : ballots.lookup b with
  | some u => simp
  | none =>
      have hne : b ≠ a := by
        rintro rfl
        exact absurd h (notMem_voters.2 hb)
      simp [lookup_singleton_of_ne hne]

/-- The ballot of a new voter. -/
theorem supporters_append_of_notMem (h : a ∉ voters ballots) :
    supporters (ballots ++ [(a, v)]) w =
      if v = w then insert a (supporters ballots w) else supporters ballots w := by
  have hfresh : ballots.lookup a = none := notMem_voters.1 h
  ext b
  rw [mem_supporters, List.lookup_append]
  by_cases hab : b = a
  · subst hab
    by_cases hvw : v = w
    · simp [hfresh, hvw]
    · simp [hfresh, hvw, mem_supporters]
  · rw [lookup_singleton_of_ne hab]
    by_cases hvw : v = w
    · simp [hab, hvw, mem_supporters]
    · simp [hvw, mem_supporters]

theorem card_supporters_append_of_notMem (h : a ∉ voters ballots) :
    (supporters (ballots ++ [(a, v)]) w).card =
      (supporters ballots w).card + if v = w then 1 else 0 := by
  rw [supporters_append_of_notMem h]
  by_cases hvw : v = w
  · rw [if_pos hvw, if_pos hvw, Finset.card_insert_of_notMem]
    exact fun hmem => h (supporters_subset hmem)
  · simp [hvw]

/-- Support only grows. -/
theorem supporters_mono : supporters ballots v ⊆ supporters (ballots ++ more) v := by
  intro a ha
  rw [mem_supporters] at ha ⊢
  rw [List.lookup_append, ha]
  rfl

/-- Two values with more than half of the voters each are the same. -/
theorem supporters_agree {size : Nat} (hvoters : (voters ballots).card < 2 * size)
    (hv : size ≤ (supporters ballots v).card) (hw : size ≤ (supporters ballots w).card) : v = w := by
  by_contra hne
  have hboth : (supporters ballots v ∪ supporters ballots w).card ≤ (voters ballots).card :=
    Finset.card_le_card (Finset.union_subset supporters_subset supporters_subset)
  rw [Finset.card_union_of_disjoint (supporters_disjoint hne)] at hboth
  omega

/-! ## The order of arrival -/

omit [DecidableEq V] in
theorem voters_perm (hperm : ballots.Perm more) : voters ballots = voters more :=
  List.toFinset_eq_of_perm _ _ (hperm.map _)

omit [DecidableEq V] in
theorem Consistent.lookup_iff (h : Consistent ballots) :
    ballots.lookup a = some v ↔ (a, v) ∈ ballots := by
  constructor
  · exact mem_of_lookup
  · intro hmem
    cases hfirst : ballots.lookup a with
    | none => exact absurd (mem_voters.2 ⟨v, hmem⟩) (notMem_voters.2 hfirst)
    | some w => rw [h a w v (mem_of_lookup hfirst) hmem]

omit [DecidableEq A] [DecidableEq V] in
theorem Consistent.perm (h : Consistent ballots) (hperm : ballots.Perm more) : Consistent more :=
  fun a v w hv hw => h a v w (hperm.mem_iff.2 hv) (hperm.mem_iff.2 hw)

theorem supporters_perm (h : Consistent ballots) (hperm : ballots.Perm more) :
    supporters ballots v = supporters more v := by
  ext a
  rw [mem_supporters, mem_supporters, h.lookup_iff, (h.perm hperm).lookup_iff, hperm.mem_iff]

end Poll
end Foundations
