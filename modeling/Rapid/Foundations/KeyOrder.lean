import Mathlib.Data.List.Sort
import Mathlib.Data.Set.Function

/-!
# KeyOrder — lists sorted by a key

A list whose keys increase strictly is determined by its elements, and the place of an element in
it by its key.
-/

namespace Foundations

variable {α β : Type*} [LinearOrder β] {key : α → β} {l l' : List α}

/-- The keys increase strictly along the list. -/
def KeySorted (key : α → β) (l : List α) : Prop :=
  l.Pairwise fun a b => key a < key b

/-- `a` stands before `b` in the list. -/
def Precedes (l : List α) (a b : α) : Prop :=
  [a, b].Sublist l

instance [DecidableEq α] (l : List α) (a b : α) : Decidable (Precedes l a b) :=
  inferInstanceAs (Decidable ([a, b].Sublist l))

namespace KeySorted

theorem nodup (h : KeySorted key l) : l.Nodup := by
  refine h.imp ?_
  rintro a b hlt rfl
  exact lt_irrefl _ hlt

theorem precedes_iff (h : KeySorted key l) {a b : α} :
    Precedes l a b ↔ a ∈ l ∧ b ∈ l ∧ key a < key b := by
  constructor
  · intro hsub
    have hpair : [a, b].Pairwise fun a b => key a < key b := h.sublist hsub
    have hmem := hsub.subset
    exact ⟨hmem (by simp), hmem (by simp), by simpa using hpair⟩
  · rintro ⟨ha, hb, hlt⟩
    induction l with
    | nil => cases ha
    | cons x l ih =>
        rcases List.pairwise_cons.1 h with ⟨hx, hl⟩
        rcases List.mem_cons.1 ha with rfl | hatail
        · rcases List.mem_cons.1 hb with rfl | hbtail
          · exact absurd hlt (lt_irrefl _)
          · exact (List.singleton_sublist.2 hbtail).cons_cons a
        · rcases List.mem_cons.1 hb with rfl | hbtail
          · exact absurd (hx a hatail) (not_lt.2 hlt.le)
          · exact (ih hl hatail hbtail).cons x

theorem eq_of_mem_iff (h : KeySorted key l) (h' : KeySorted key l')
    (hmem : ∀ a, a ∈ l ↔ a ∈ l') : l = l' := by
  have hperm : l.Perm l' := (List.perm_ext_iff_of_nodup h.nodup h'.nodup).2 hmem
  refine hperm.eq_of_pairwise ?_ h h'
  intro a b _ _ hab hba
  exact absurd hab (not_lt.2 hba.le)

end KeySorted

theorem keySorted_insertionSort (hnodup : l.Nodup) (hkey : Set.InjOn key {a | a ∈ l}) :
    KeySorted key (l.insertionSort fun a b => key a ≤ key b) := by
  have : IsTrans α fun a b => key a ≤ key b := ⟨fun _ _ _ => le_trans⟩
  have : Std.Total fun a b : α => key a ≤ key b := ⟨fun _ _ => le_total _ _⟩
  have hperm := List.perm_insertionSort (fun a b => key a ≤ key b) l
  have hsorted := List.pairwise_insertionSort (fun a b => key a ≤ key b) l
  have hdistinct := hperm.nodup_iff.2 hnodup
  refine (hsorted.and hdistinct).imp_of_mem ?_
  intro a b ha hb hab
  refine lt_of_le_of_ne hab.1 ?_
  intro heq
  exact hab.2 (hkey (hperm.mem_iff.1 ha) (hperm.mem_iff.1 hb) heq)

end Foundations
