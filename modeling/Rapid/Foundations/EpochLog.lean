import Mathlib.Data.List.Basic

/-!
# EpochLog — the epoch of every event

Some events of a log end an epoch and record which one. An event belongs to the epoch that the next
such record ends, itself included, or to the current epoch when there is none. A log splits in one way
only at an event that occurs in it once.
-/

namespace Foundations

variable {α P : Type*} (ended? : α → Option P)

/-- The epoch in which the log starts. -/
def epochBefore (current : P) (log : List α) : P :=
  (log.findSome? ended?).getD current

/-- Every event with its epoch. -/
def located (current : P) : List α → List (P × α)
  | [] => []
  | e :: log => (epochBefore ended? current (e :: log), e) :: located current log

variable {ended?} {current p q : P} {log more : List α} {e : α}

theorem epochBefore_append :
    epochBefore ended? current (log ++ more) =
      epochBefore ended? (epochBefore ended? current more) log := by
  unfold epochBefore
  rw [List.findSome?_append]
  cases log.findSome? ended? with
  | none => rfl
  | some p => rfl

/-- Later events do not move earlier ones, but for the epoch that they end. -/
theorem located_append :
    located ended? current (log ++ more) =
      located ended? (epochBefore ended? current more) log ++ located ended? current more := by
  induction log with
  | nil => rfl
  | cons e log ih =>
      have hepoch : epochBefore ended? current (e :: log ++ more) =
          epochBefore ended? (epochBefore ended? current more) (e :: log) := epochBefore_append
      show (epochBefore ended? current (e :: log ++ more), e) :: located ended? current (log ++ more) =
        _
      rw [hepoch, ih]
      rfl

theorem epochBefore_of_none (h : ∀ e ∈ log, ended? e = none) :
    epochBefore ended? current log = current := by
  rw [epochBefore, List.findSome?_eq_none_iff.2 h]
  rfl

/-- Without a record all events belong to the current epoch. -/
theorem located_of_none (h : ∀ e ∈ log, ended? e = none) :
    located ended? current log = log.map fun e => (current, e) := by
  induction log with
  | nil => rfl
  | cons e log ih =>
      rw [located, epochBefore_of_none h, ih fun e' he' => h e' (List.mem_cons_of_mem _ he')]
      rfl

/-- A record belongs to the epoch that it ends. -/
theorem located_ended (h : (p, e) ∈ located ended? current log) (he : ended? e = some q) : p = q := by
  induction log with
  | nil => cases h
  | cons e' log ih =>
      rcases List.mem_cons.1 h with heq | hrest
      · cases heq
        simp [epochBefore, he]
      · exact ih hrest

theorem exists_located (he : e ∈ log) : ∃ p, (p, e) ∈ located ended? current log := by
  induction log with
  | nil => cases he
  | cons e' log ih =>
      rcases List.mem_cons.1 he with rfl | hrest
      · exact ⟨_, List.mem_cons_self⟩
      · rcases ih hrest with ⟨p, hp⟩
        exact ⟨p, List.mem_cons_of_mem _ hp⟩

/-! ## Splitting a log at an event -/

variable {β : Type*} {f : α → Option β} {b : β} {before before' after after' : List α} {x y : α}

theorem split_unique (hx : f x = some b) (hy : f y = some b)
    (hsplit : before ++ x :: after = before' ++ y :: after')
    (honce : ((before ++ x :: after).filterMap f).Nodup) : before = before' := by
  induction before generalizing before' with
  | nil =>
      cases before' with
      | nil => rfl
      | cons z rest =>
          -- `y` would be a second event with the mark of `x`.
          have hafter : after = rest ++ y :: after' := (List.cons.inj hsplit).2
          have hmem : b ∈ after.filterMap f := by
            rw [hafter]
            exact List.mem_filterMap.2 ⟨y, by simp, hy⟩
          have hnodup : (b :: after.filterMap f).Nodup := by
            simpa [hx] using honce
          exact absurd hmem (List.nodup_cons.1 hnodup).1
  | cons z before ih =>
      have hrest : ((before ++ x :: after).filterMap f).Nodup := by
        refine honce.sublist ?_
        exact List.Sublist.filterMap f (List.sublist_cons_self _ _)
      cases before' with
      | nil =>
          -- `x` would be a second event with the mark of `y`.
          have hz : z = y := (List.cons.inj hsplit).1
          have hmem : b ∈ (before ++ x :: after).filterMap f :=
            List.mem_filterMap.2 ⟨x, by simp, hx⟩
          have hnodup : (b :: (before ++ x :: after).filterMap f).Nodup := by
            simpa [hz, hy] using honce
          exact absurd hmem (List.nodup_cons.1 hnodup).1
      | cons z' rest =>
          rcases List.cons.inj hsplit with ⟨rfl, htail⟩
          rw [ih htail hrest]

end Foundations
