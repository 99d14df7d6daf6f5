import Mathlib.Data.List.Basic

/-!
# Transition — guarded runs of a labelled transition system

A system is a set of initial states and a partial step function: the label of a step carries all
the choices the environment makes, so that `step` is a function and concrete runs can be executed.

`Reaches S ok` collects the states reached by runs whose every step meets the guard `ok`. The
rules used everywhere are:

* `Reaches.invariant` — a predicate that holds initially and is preserved by every guarded step
  holds in every state of every guarded run;
* `Reaches.tighten` — a guard may be replaced by what an invariant makes of it;
* `Reaches.simulate` — a forward simulation carries runs of one system to runs of another.
-/

namespace Foundations

/-- A labelled transition system with a partial, deterministic step for each label. -/
structure System (σ α : Type*) where
  init : σ → Prop
  step : σ → α → Option σ

namespace System

variable {σ α τ β : Type*}

/-- States reached by runs whose steps all satisfy `ok` (read in the state before the step). -/
inductive Reaches (S : System σ α) (ok : σ → α → Prop) : σ → Prop
  | start {s : σ} : S.init s → Reaches S ok s
  | step {s s' : σ} {a : α} : Reaches S ok s → ok s a → S.step s a = some s' → Reaches S ok s'

/-- States reached by unrestricted runs. -/
abbrev Reachable (S : System σ α) (s : σ) : Prop :=
  Reaches S (fun _ _ => True) s

namespace Reaches

variable {S : System σ α} {ok ok' : σ → α → Prop}

/-- Weakening the guard keeps every run. -/
theorem mono (himp : ∀ s a, ok s a → ok' s a) {s : σ} (h : Reaches S ok s) : Reaches S ok' s := by
  induction h with
  | start h0 => exact .start h0
  | step _ hok hstep ih => exact .step ih (himp _ _ hok) hstep

theorem reachable {s : σ} (h : Reaches S ok s) : Reachable S s :=
  h.mono fun _ _ _ => trivial

/-- The invariant rule. The step case may use that the state before the step is itself reached. -/
theorem invariant {I : σ → Prop} (hinit : ∀ s, S.init s → I s)
    (hstep : ∀ s a s', Reaches S ok s → I s → ok s a → S.step s a = some s' → I s')
    {s : σ} (h : Reaches S ok s) : I s := by
  induction h with
  | start h0 => exact hinit _ h0
  | step hs hok hstp ih => exact hstep _ _ _ hs ih hok hstp

/-- Runs under one guard are runs under another that an invariant of theirs vouches for. -/
theorem tighten {I : σ → Prop} (hinit : ∀ s, S.init s → I s)
    (hstep : ∀ s a s', Reaches S ok' s → I s → ok s a → S.step s a = some s' → ok' s a ∧ I s')
    {s : σ} (h : Reaches S ok s) : Reaches S ok' s ∧ I s := by
  induction h with
  | start h0 => exact ⟨.start h0, hinit _ h0⟩
  | step _ hok hstp ih =>
      rcases ih with ⟨hs, hI⟩
      rcases hstep _ _ _ hs hI hok hstp with ⟨hok', hI'⟩
      exact ⟨.step hs hok' hstp, hI'⟩

/-- The forward-simulation rule: a step of `S` is matched by a step of `T` or by none. -/
theorem simulate {T : System τ β} {okT : τ → β → Prop} {R : σ → τ → Prop}
    (hinit : ∀ s, S.init s → ∃ t, T.init t ∧ R s t)
    (hstep : ∀ s a s' t, Reaches S ok s → Reaches T okT t → R s t → ok s a →
      S.step s a = some s' →
        R s' t ∨ ∃ b t', okT t b ∧ T.step t b = some t' ∧ R s' t')
    {s : σ} (h : Reaches S ok s) : ∃ t, Reaches T okT t ∧ R s t := by
  induction h with
  | start h0 =>
      obtain ⟨t, ht, hR⟩ := hinit _ h0
      exact ⟨t, .start ht, hR⟩
  | step hs hok hstp ih =>
      obtain ⟨t, ht, hR⟩ := ih
      rcases hstep _ _ _ t hs ht hR hok hstp with hstay | ⟨b, t', hb, hbt, hR'⟩
      · exact ⟨t, ht, hstay⟩
      · exact ⟨t', .step ht hb hbt, hR'⟩

end Reaches

/-! ## Executing runs -/

/-- Run a list of labels; `none` as soon as one of them is refused. -/
def exec (S : System σ α) : σ → List α → Option σ
  | s, [] => some s
  | s, a :: as => (S.step s a).bind fun s' => exec S s' as

/-- Run a list of labels, refusing those that break the guard. -/
def execWhile (S : System σ α) (ok : σ → α → Prop) [∀ s a, Decidable (ok s a)] :
    σ → List α → Option σ
  | s, [] => some s
  | s, a :: as =>
      if ok s a then (S.step s a).bind fun s' => execWhile S ok s' as else none

theorem Reaches.execWhile {S : System σ α} {ok : σ → α → Prop} [∀ s a, Decidable (ok s a)]
    {s : σ} (h : Reaches S ok s) {as : List α} {s' : σ}
    (hrun : S.execWhile ok s as = some s') : Reaches S ok s' := by
  induction as generalizing s with
  | nil =>
      cases hrun
      exact h
  | cons a as ih =>
      rw [System.execWhile] at hrun
      split at hrun
      · rename_i hok
        obtain ⟨t, ht, hrest⟩ := Option.bind_eq_some_iff.1 hrun
        exact ih (.step h hok ht) hrest
      · cases hrun

theorem Reaches.exec {S : System σ α} {s : σ} (h : Reachable S s) {as : List α} {s' : σ}
    (hrun : S.exec s as = some s') : Reachable S s' := by
  induction as generalizing s with
  | nil =>
      cases hrun
      exact h
  | cons a as ih =>
      rw [System.exec] at hrun
      obtain ⟨t, ht, hrest⟩ := Option.bind_eq_some_iff.1 hrun
      exact ih (.step h trivial ht) hrest

end System

end Foundations
