import Mathlib.Data.List.Dedup

/-!
# LastMention — a list in the order of last mentions

`List.dedup` keeps the last occurrence of every element. These are its laws for concatenation, and
what stands before what in it.
-/

namespace Foundations

variable {α : Type*} [DecidableEq α] {l l' : List α} {x y : α}

/-- `List.eraseDups` keeps the first occurrence of every element, and only that one. -/
theorem nodup_eraseDups (l : List α) : l.eraseDups.Nodup := by
  induction hlength : l.length using Nat.strongRecOn generalizing l with
  | ind n ih =>
      cases l with
      | nil => exact List.nodup_nil
      | cons a l =>
          have hshort : (l.filter fun b => !b == a).length < n := by
            rw [← hlength]
            exact Nat.lt_succ_of_le (List.length_filter_le _ l)
          rw [List.eraseDups_cons, List.nodup_cons, List.mem_eraseDups]
          exact ⟨by simp, ih _ hshort _ rfl⟩

theorem dedup_append_filter (l l' : List α) :
    (l ++ l').dedup = l.dedup.filter (fun a => decide (a ∉ l')) ++ l'.dedup := by
  induction l with
  | nil => simp
  | cons a l ih =>
      rw [List.cons_append]
      by_cases hl : a ∈ l
      · rw [List.dedup_cons_of_mem hl, List.dedup_cons_of_mem (List.mem_append_left _ hl), ih]
      · rw [List.dedup_cons_of_notMem hl]
        by_cases hl' : a ∈ l'
        · rw [List.dedup_cons_of_mem (List.mem_append_right _ hl'), ih]
          simp [hl']
        · rw [List.dedup_cons_of_notMem (by simp [hl, hl']), ih]
          simp [hl']

theorem dedup_concat (l : List α) (x : α) :
    (l ++ [x]).dedup = l.dedup.filter (fun a => decide (a ≠ x)) ++ [x] := by
  rw [dedup_append_filter]
  simp

/-- `x` is not mentioned any more when `y` still is. -/
def LastBefore (l : List α) (x y : α) : Prop :=
  x ≠ y ∧ ∃ before after, l = before ++ y :: after ∧ x ∉ after

omit [DecidableEq α] in
theorem lastBefore_cons {a : α} :
    LastBefore (a :: l) x y ↔ LastBefore l x y ∨ (x ≠ y ∧ a = y ∧ x ∉ l) := by
  constructor
  · rintro ⟨hne, before, after, hsplit, hx⟩
    cases before with
    | nil =>
        cases hsplit
        exact .inr ⟨hne, rfl, hx⟩
    | cons b before =>
        cases hsplit
        exact .inl ⟨hne, before, after, rfl, hx⟩
  · rintro (⟨hne, before, after, rfl, hx⟩ | ⟨hne, rfl, hx⟩)
    · exact ⟨hne, a :: before, after, rfl, hx⟩
    · exact ⟨hne, [], l, rfl, hx⟩

omit [DecidableEq α] in
theorem lastBefore_append :
    LastBefore (l ++ l') x y ↔ LastBefore l' x y ∨ (x ∉ l' ∧ LastBefore l x y) := by
  induction l with
  | nil =>
      constructor
      · exact .inl
      · rintro (h | ⟨_, _, before, after, hsplit, _⟩)
        · exact h
        · cases before with
          | nil => cases hsplit
          | cons => cases hsplit
  | cons a l ih =>
      rw [List.cons_append, lastBefore_cons, lastBefore_cons, ih, List.mem_append]
      constructor
      · rintro ((h | ⟨hx, h⟩) | ⟨hne, ha, hx⟩)
        · exact .inl h
        · exact .inr ⟨hx, .inl h⟩
        · exact .inr ⟨fun hl' => hx (.inr hl'), .inr ⟨hne, ha, fun hl => hx (.inl hl)⟩⟩
      · rintro (h | ⟨hx, h | ⟨hne, ha, hl⟩⟩)
        · exact .inl (.inl h)
        · exact .inl (.inr ⟨hx, h⟩)
        · exact .inr ⟨hne, ha, fun hin => hin.elim hl hx⟩

/-- What the order of last mentions respects. -/
theorem pairwise_dedup {R : α → α → Prop} :
    l.dedup.Pairwise R ↔ ∀ x ∈ l, ∀ y, LastBefore l x y → R x y := by
  induction l with
  | nil => simp
  | cons a l ih =>
      by_cases ha : a ∈ l
      · -- This mention of `a` is not its last one.
        rw [List.dedup_cons_of_mem ha, ih]
        constructor
        · intro h x hx y hxy
          have hxl : x ∈ l := (List.mem_cons.1 hx).elim (fun heq => heq ▸ ha) id
          rcases lastBefore_cons.1 hxy with hlater | ⟨_, _, hout⟩
          · exact h x hxl y hlater
          · exact absurd hxl hout
        · intro h x hx y hxy
          exact h x (List.mem_cons_of_mem a hx) y (lastBefore_cons.2 (.inl hxy))
      · rw [List.dedup_cons_of_notMem ha, List.pairwise_cons, ih]
        constructor
        · rintro ⟨hhead, htail⟩ x hx y hxy
          rcases lastBefore_cons.1 hxy with hlater | ⟨hne, heq, hout⟩
          · rcases List.mem_cons.1 hx with rfl | hxl
            · rcases hlater with ⟨_, before, after, rfl, _⟩
              exact hhead y (List.mem_dedup.2 (by simp))
            · exact htail x hxl y hlater
          · -- `x` would have to be `a`, and `a` is `y`.
            rcases List.mem_cons.1 hx with hxa | hxl
            · exact absurd (hxa.trans heq) hne
            · exact absurd hxl hout
        · intro h
          refine ⟨?_, ?_⟩
          · intro y hy
            have hyl := List.mem_dedup.1 hy
            rcases List.append_of_mem hyl with ⟨before, after, rfl⟩
            have hay : a ≠ y := fun heq => ha (heq ▸ hyl)
            refine h a List.mem_cons_self y (lastBefore_cons.2 (.inl ⟨hay, before, after, rfl, ?_⟩))
            exact fun hin => ha (by simp [hin])
          · intro x hx y hxy
            exact h x (List.mem_cons_of_mem a hx) y (lastBefore_cons.2 (.inl hxy))

end Foundations
