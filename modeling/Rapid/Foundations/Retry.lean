import Mathlib.Order.Nat
import Mathlib.Tactic.Common

/-!
# Retry — a loop over a bounded number of attempts

An attempt ends the loop with a result, or passes on a state for the next one. `retry` makes a bounded
number of attempts; `Passes` says that the attempts of a range all pass, and from which state to which.

The loop ends with a result exactly if some attempt gives it that all earlier ones lead to, and with a
state exactly if all attempts pass.
-/

namespace Foundations

section Retry

variable {σ α : Type*} (attempt : Nat → σ → α ⊕ σ)

/-- `left` more attempts, of which the first has number `n`. -/
def retry : (left n : Nat) → σ → α ⊕ σ
  | 0, _, s => .inr s
  | left + 1, n, s =>
      match attempt n s with
      | .inl a => .inl a
      | .inr t => retry left (n + 1) t

/-- The attempts from `n` up to `m`, without `m`, all pass. -/
inductive Passes : Nat → Nat → σ → σ → Prop
  | refl (n : Nat) (s : σ) : Passes n n s s
  | step {n m : Nat} {s t u : σ} (hpass : attempt n s = .inr t) (hrest : Passes (n + 1) m t u) :
      Passes n m s u

variable {attempt} {left n m : Nat} {s t u : σ} {a : α}

namespace Passes

theorem le (h : Passes attempt n m s t) : n ≤ m := by
  induction h with
  | refl n s => exact le_rfl
  | step hpass hrest ih => exact (Nat.le_succ _).trans ih

/-- What every passing attempt keeps holds in the end. -/
theorem invariant {I : Nat → σ → Prop} (h : Passes attempt n m s t)
    (hstep : ∀ k s t, n ≤ k → k < m → attempt k s = .inr t → I k s → I (k + 1) t) (hs : I n s) :
    I m t := by
  induction h with
  | refl n s => exact hs
  | step hpass hrest ih =>
      have hlt := hrest.le
      refine ih (fun k s t hk => hstep k s t ((Nat.le_succ _).trans hk)) ?_
      exact hstep _ _ _ le_rfl hlt hpass hs

end Passes

theorem retry_eq_inr (h : retry attempt left n s = .inr t) : Passes attempt n (n + left) s t := by
  induction left generalizing n s with
  | zero =>
      cases h
      exact .refl _ _
  | succ left ih =>
      rw [retry] at h
      split at h
      · cases h
      · rename_i hpass
        have hrest := ih h
        rw [Nat.add_right_comm, Nat.add_assoc] at hrest
        exact .step hpass hrest

theorem retry_eq_inl (h : retry attempt left n s = .inl a) :
    ∃ m t, m < n + left ∧ Passes attempt n m s t ∧ attempt m t = .inl a := by
  induction left generalizing n s with
  | zero => cases h
  | succ left ih =>
      rw [retry] at h
      split at h
      · rename_i hdone
        cases h
        exact ⟨n, s, Nat.lt_add_of_pos_right (Nat.succ_pos left), .refl n s, hdone⟩
      · rename_i hpass
        rcases ih h with ⟨m, u, hlt, hrest, hdone⟩
        rw [Nat.add_right_comm, Nat.add_assoc] at hlt
        exact ⟨m, u, hlt, .step hpass hrest, hdone⟩

end Retry

end Foundations
