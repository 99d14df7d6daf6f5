import Mathlib.Data.List.Basic

/-!
# Checked — loops that cannot fail

A loop that stops at a failed assertion or at a missing key is a fold or a map in `Option`. Where an
invariant rules the failures out, it is the plain fold or map.
-/

namespace Foundations

variable {α β : Type*}

theorem foldlM_eq_some {I : β → Prop} {f : β → α → β} {g : β → α → Option β} {list : List α}
    (hstep : ∀ b a, a ∈ list → I b → g b a = some (f b a) ∧ I (f b a)) :
    ∀ {b}, I b → list.foldlM g b = some (list.foldl f b) ∧ I (list.foldl f b) := by
  induction list with
  | nil => exact fun hb => ⟨rfl, hb⟩
  | cons a list ih =>
      intro b hb
      rcases hstep b a List.mem_cons_self hb with ⟨hfirst, hkept⟩
      have hrest := ih (fun b x hx => hstep b x (List.mem_cons_of_mem a hx)) hkept
      rw [List.foldlM_cons, hfirst]
      exact hrest

theorem mapM_eq_some {f : α → Option β} {list : List α} (h : ∀ a ∈ list, (f a).isSome) :
    list.mapM f = some (list.pmap (fun a ha => (f a).get ha) h) := by
  induction list with
  | nil => rfl
  | cons a list ih =>
      have hfirst : f a = some ((f a).get (h a List.mem_cons_self)) := (Option.some_get _).symm
      have hrest := ih fun x hx => h x (List.mem_cons_of_mem a hx)
      rw [List.mapM_cons, hfirst, hrest]
      rfl

end Foundations
