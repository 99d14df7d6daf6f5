import Mathlib.Data.List.Count
import Mathlib.Data.List.Induction

/-!
# Streak — counting hits with and without resets

Some events are hits, some are resets. A total count adds up all hits; a streak starts over at every
reset. The total is reached by a streak exactly if no reset stands between two of the hits.
-/

namespace Foundations

variable {α : Type*} {hit reset : α → Bool} {log more : List α} {e : α}

/-- The hits since the last reset. -/
def streak (hit reset : α → Bool) (log : List α) : Nat :=
  log.foldl (fun n e => if hit e then n + 1 else if reset e then 0 else n) 0

/-- No reset stands between two hits. -/
def Unbroken (hit reset : α → Bool) (log : List α) : Prop :=
  ∀ before first between last after, log = before ++ first :: (between ++ last :: after) →
    hit first = true → hit last = true → ∀ e ∈ between, reset e = false

@[simp] theorem streak_nil : streak hit reset [] = 0 := rfl

theorem streak_append_singleton :
    streak hit reset (log ++ [e]) =
      if hit e then streak hit reset log + 1 else if reset e then 0 else streak hit reset log := by
  simp [streak]

/-- A streak grows by hits only. -/
theorem streak_append_le :
    streak hit reset (log ++ more) ≤ streak hit reset log + more.countP hit := by
  induction more using List.reverseRecOn with
  | nil => simp
  | append_singleton more e ih =>
      rw [← List.append_assoc, streak_append_singleton, List.countP_append]
      cases hhit : hit e with
      | true => simpa [hhit, Nat.add_assoc] using Nat.add_le_add_right ih 1
      | false =>
          cases hreset : reset e with
          | true => simp
          | false => simpa [hhit] using ih

theorem streak_le_countP : streak hit reset log ≤ log.countP hit := by
  have hle : streak hit reset ([] ++ log) ≤ streak hit reset [] + log.countP hit := streak_append_le
  simpa using hle

/-- Without a reset all hits count. -/
theorem streak_append_of_not_reset (h : ∀ e ∈ more, reset e = false) :
    streak hit reset (log ++ more) = streak hit reset log + more.countP hit := by
  induction more using List.reverseRecOn with
  | nil => simp
  | append_singleton more e ih =>
      have hmore := ih fun x hx => h x (List.mem_append_left _ hx)
      have he : reset e = false := h e (List.mem_append_right _ (List.mem_singleton_self e))
      rw [← List.append_assoc, streak_append_singleton, List.countP_append, hmore]
      cases hhit : hit e with
      | true => simp [hhit, Nat.add_assoc]
      | false => simp [hhit, he]

/-- A log splits at its first hit. -/
theorem exists_first_hit (h : 0 < log.countP hit) :
    ∃ before e after, log = before ++ e :: after ∧ hit e = true ∧ before.countP hit = 0 := by
  induction log with
  | nil => simp at h
  | cons e log ih =>
      cases hhit : hit e with
      | true => exact ⟨[], e, log, rfl, hhit, rfl⟩
      | false =>
          rcases ih (by simpa [hhit] using h) with ⟨before, x, after, rfl, hx, hnone⟩
          exact ⟨e :: before, x, after, rfl, hx, by simpa [hhit] using hnone⟩

/-- In an unbroken log that ends with a hit the streak is the total. -/
theorem Unbroken.streak_eq (h : Unbroken hit reset (log ++ [e])) (he : hit e = true) :
    streak hit reset (log ++ [e]) = (log ++ [e]).countP hit := by
  rcases Nat.eq_zero_or_pos (log.countP hit) with hnone | hsome
  · have hzero : streak hit reset log = 0 := Nat.le_zero.1 (hnone ▸ streak_le_countP)
    rw [streak_append_singleton, if_pos he, hzero, List.countP_append, hnone]
    simp [he]
  · rcases exists_first_hit hsome with ⟨before, x, between, rfl, hx, hnone⟩
    have hzero : streak hit reset before = 0 := Nat.le_zero.1 (hnone ▸ streak_le_countP)
    have hclear : ∀ y ∈ between, reset y = false :=
      h before x between e [] (by simp) hx he
    have hfirst : streak hit reset (before ++ [x]) = 1 := by
      rw [streak_append_singleton, if_pos hx, hzero]
    have hrest : streak hit reset ((before ++ [x]) ++ between) = 1 + between.countP hit := by
      rw [streak_append_of_not_reset hclear, hfirst]
    calc
      streak hit reset (before ++ x :: between ++ [e]) =
          streak hit reset (((before ++ [x]) ++ between) ++ [e]) := by simp
      _ = 1 + between.countP hit + 1 := by
          rw [streak_append_singleton, if_pos he, hrest]
      _ = (before ++ x :: between ++ [e]).countP hit := by
          simp [hnone, hx, he, Nat.add_comm]

/-- The total is the streak of some part of the log exactly if no reset stands between two hits. -/
theorem countP_le_streak_iff (hdisjoint : ∀ e, hit e = true → reset e = false) (he : hit e = true) :
    (∃ part rest, log ++ [e] = part ++ rest ∧
      (log ++ [e]).countP hit ≤ streak hit reset part) ↔ Unbroken hit reset (log ++ [e]) := by
  constructor
  · rintro ⟨part, rest, hsplit, hle⟩ before first between last after hlog hfirst hlast x hx
    by_contra hreset
    have hset : reset x = true := by simpa using hreset
    have hmiss : hit x = false := by
      by_contra hhit
      simp [hdisjoint x (by simpa using hhit)] at hset
    rcases List.append_of_mem hx with ⟨b, c, rfl⟩
    have hwhole : log ++ [e] = (before ++ first :: b ++ [x]) ++ (c ++ last :: after) := by
      simp [hlog]
    -- A reset between two hits splits every long streak.
    have hzero : streak hit reset (before ++ first :: b ++ [x]) = 0 := by
      rw [streak_append_singleton]
      simp [hmiss, hset]
    have htotal : (log ++ [e]).countP hit =
        (before ++ first :: b ++ [x]).countP hit + (c ++ last :: after).countP hit := by
      rw [hwhole, List.countP_append]
    have hone : 1 ≤ (before ++ first :: b ++ [x]).countP hit := by
      refine List.countP_pos_iff.2 ⟨first, ?_, hfirst⟩
      simp
    have hanother : 1 ≤ (c ++ last :: after).countP hit := by
      refine List.countP_pos_iff.2 ⟨last, ?_, hlast⟩
      simp
    rcases List.append_eq_append_iff.1 (hsplit.symm.trans hwhole) with ⟨a, hpart, _⟩ | ⟨a, hpart, htail⟩
    · -- The part ends before the reset is over: the last hit is missing in it.
      have hcount : streak hit reset part ≤ part.countP hit := streak_le_countP
      have hsub : part.countP hit ≤ (before ++ first :: b ++ [x]).countP hit := by
        rw [hpart, List.countP_append]
        exact Nat.le_add_right _ _
      omega
    · -- The part goes beyond the reset: the first hit is not in its streak.
      have hcount : streak hit reset part ≤ a.countP hit := by
        have hle : streak hit reset (before ++ first :: b ++ [x] ++ a) ≤
            streak hit reset (before ++ first :: b ++ [x]) + a.countP hit := streak_append_le
        rwa [hzero, Nat.zero_add, ← hpart] at hle
      have hsub : a.countP hit ≤ (c ++ last :: after).countP hit := by
        rw [htail, List.countP_append]
        exact Nat.le_add_right _ _
      omega
  · intro h
    exact ⟨log ++ [e], [], by simp, Nat.le_of_eq (h.streak_eq he).symm⟩

end Foundations
