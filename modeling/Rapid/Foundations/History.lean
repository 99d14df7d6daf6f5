import Mathlib.Data.List.Basic

/-!
# History — properties of an entry and of what came before it

A run that keeps a log of what happened is judged entry by entry: `Past P log` says that `P`
holds of every entry of the log and of the entries before it. A log that grows at its end keeps the
property when the new entry has it.
-/

namespace Foundations

variable {ε : Type*} {P Q : List ε → ε → Prop} {log : List ε} {e : ε}

def Past (P : List ε → ε → Prop) (log : List ε) : Prop :=
  ∀ earlier e later, log = earlier ++ e :: later → P earlier e

@[simp] theorem past_nil : Past P [] := by
  intro earlier e later hsplit
  simp at hsplit

theorem past_append_singleton : Past P (log ++ [e]) ↔ Past P log ∧ P log e := by
  constructor
  · intro h
    refine ⟨fun earlier x later hsplit => h earlier x (later ++ [e]) ?_, h log e [] rfl⟩
    simp [hsplit]
  · rintro ⟨hold, hnew⟩ earlier x later hsplit
    rcases List.eq_nil_or_concat' later with rfl | ⟨later', last, rfl⟩
    · -- The entry is the new one.
      rcases List.append_inj' hsplit rfl with ⟨rfl, hlast⟩
      cases hlast
      exact hnew
    · -- The entry is an old one, and the new one comes after it.
      have hparts : log ++ [e] = (earlier ++ x :: later') ++ [last] := by
        simpa using hsplit
      exact hold earlier x later' (List.append_inj' hparts rfl).1

theorem Past.mono (h : Past P log) (himp : ∀ earlier e, P earlier e → Q earlier e) : Past Q log :=
  fun earlier e later hsplit => himp earlier e (h earlier e later hsplit)

end Foundations
