import Mathlib.Data.List.Basic

/-!
# EffectPath — what a handler does, move by move

A handler takes a state on in several moves, each of which leaves effects behind. An `EffectPath`
is such a sequence of moves with all its effects in order; an invariant of the state together with
everything effected so far needs to be checked for one move only.
-/

namespace Foundations

variable {σ ε : Type*} {move : σ → List ε → σ → Prop}

inductive EffectPath (move : σ → List ε → σ → Prop) : σ → List ε → σ → Prop
  | nil (s : σ) : EffectPath move s [] s
  | cons {s t u : σ} {es fs : List ε} :
      move s es t → EffectPath move t fs u → EffectPath move s (es ++ fs) u

namespace EffectPath

variable {s t u : σ} {es fs : List ε}

theorem single (h : move s es t) : EffectPath move s es t := by
  have hpath : EffectPath move s (es ++ []) t := .cons h (.nil t)
  simpa using hpath

theorem append (h : EffectPath move s es t) (h' : EffectPath move t fs u) :
    EffectPath move s (es ++ fs) u := by
  induction h with
  | nil => exact h'
  | cons hmove _ ih =>
      rw [List.append_assoc]
      exact .cons hmove (ih h')

/-- The invariant rule. The guard `ok` holds of every effect of the path. -/
theorem invariant {I : σ → List ε → Prop} {ok : ε → Prop}
    (hstep : ∀ s es t trace, I s trace → (∀ e ∈ es, ok e) → move s es t → I t (trace ++ es))
    (h : EffectPath move s es t) (hok : ∀ e ∈ es, ok e) {trace : List ε} (hI : I s trace) :
    I t (trace ++ es) := by
  induction h generalizing trace with
  | nil => simpa using hI
  | cons hmove _ ih =>
      rw [← List.append_assoc]
      refine ih (fun e he => hok e (List.mem_append_right _ he)) ?_
      exact hstep _ _ _ _ hI (fun e he => hok e (List.mem_append_left _ he)) hmove

/-- What every move keeps, the whole path keeps. -/
theorem relates {R : σ → σ → Prop} (hrefl : ∀ s, R s s) (htrans : ∀ s t u, R s t → R t u → R s u)
    (hmove : ∀ s es t, move s es t → R s t) (h : EffectPath move s es t) : R s t := by
  induction h with
  | nil s => exact hrefl s
  | cons hfirst _ ih => exact htrans _ _ _ (hmove _ _ _ hfirst) ih

/-- What holds of the effects of every move holds of all effects. -/
theorem all_effects {P : ε → Prop} (hmove : ∀ s es t, move s es t → ∀ e ∈ es, P e)
    (h : EffectPath move s es t) : ∀ e ∈ es, P e := by
  induction h with
  | nil => exact fun e he => by cases he
  | cons hfirst _ ih =>
      intro e he
      rcases List.mem_append.1 he with hnow | hlater
      · exact hmove _ _ _ hfirst e hnow
      · exact ih e hlater

end EffectPath

end Foundations
