import Rapid.Foundations.Transition
import Mathlib.Data.List.Basic

/-!
# Mailbox — a loop behind a bounded mailbox

Callers put commands into a bounded mailbox and wait while it is full; a loop takes them out in order
until one of them stops it. When the loop exits, the mailbox is closed: what is still in it is dropped,
and whoever waits to put something in is refused.

No command is lost or doubled on the way (`Flow`), and the loop handles exactly the commands that
entered before the first one that stops it, and that one (`Drained`).
-/

namespace Foundations

/-- A loop: `σ` states, `ε` what the environment adds to a command, `α` commands. -/
structure Loop (σ ε α : Type*) where
  capacity : Nat
  init : σ → Prop
  /-- Whether a caller may make this call after these. -/
  admits : List α → α → Bool
  handle : σ → ε → α → σ
  stops : α → Bool

/-- The loop with its mailbox, and what became of every command. -/
structure Mailbox (σ α : Type*) where
  server : σ
  /-- All calls, in order. -/
  called : List α
  /-- Those that wait for room. -/
  blocked : List α
  queue : List α
  /-- All that got into the mailbox, in order. -/
  entered : List α
  handled : List α
  /-- Those that were in the mailbox when it was closed. -/
  dropped : List α
  refused : List α
  stopping : Bool
  exited : Bool

inductive MailboxStep (ε α : Type*)
  | call (a : α)
  | enter (a : α)
  | handle (e : ε)
  | exit
  | refuse (a : α)

namespace Loop

variable {σ ε α : Type*} [DecidableEq α] (L : Loop σ ε α)

/-- The mailbox before the first call. -/
def opened (s : σ) : Mailbox σ α where
  server := s
  called := []
  blocked := []
  queue := []
  entered := []
  handled := []
  dropped := []
  refused := []
  stopping := false
  exited := false

def step (w : Mailbox σ α) : MailboxStep ε α → Option (Mailbox σ α)
  | .call a =>
      if L.admits w.called a then
        some { w with called := w.called ++ [a], blocked := w.blocked ++ [a] }
      else none
  | .enter a =>
      if a ∈ w.blocked ∧ w.exited = false ∧ w.queue.length < L.capacity then
        some { w with
          blocked := w.blocked.erase a
          queue := w.queue ++ [a]
          entered := w.entered ++ [a] }
      else none
  | .handle e =>
      match w.queue with
      | [] => none
      | a :: rest =>
          if w.stopping then none
          else some { w with
            server := L.handle w.server e a
            queue := rest
            handled := w.handled ++ [a]
            stopping := L.stops a }
  | .exit =>
      if w.stopping ∧ w.exited = false then
        some { w with queue := [], dropped := w.queue, exited := true }
      else none
  | .refuse a =>
      if a ∈ w.blocked ∧ w.exited then
        some { w with blocked := w.blocked.erase a, refused := w.refused ++ [a] }
      else none

def system : System (Mailbox σ α) (MailboxStep ε α) where
  init w := ∃ s, L.init s ∧ w = opened s
  step := L.step

variable {L} {w w' : Mailbox σ α}

/-! ## Moves -/

variable (L) in
/-- All that one step can do. -/
inductive Move (w : Mailbox σ α) : Mailbox σ α → Prop
  | call {a : α} (hadmits : L.admits w.called a = true) :
      Move w { w with called := w.called ++ [a], blocked := w.blocked ++ [a] }
  | enter {a : α} (hmem : a ∈ w.blocked) (hopen : w.exited = false) :
      Move w { w with
        blocked := w.blocked.erase a
        queue := w.queue ++ [a]
        entered := w.entered ++ [a] }
  | handle {e : ε} {a : α} {rest : List α} (hqueue : w.queue = a :: rest)
      (hgoing : w.stopping = false) :
      Move w { w with
        server := L.handle w.server e a
        queue := rest
        handled := w.handled ++ [a]
        stopping := L.stops a }
  | exit (hstopping : w.stopping = true) (hopen : w.exited = false) :
      Move w { w with queue := [], dropped := w.queue, exited := true }
  | refuse {a : α} (hmem : a ∈ w.blocked) :
      Move w { w with blocked := w.blocked.erase a, refused := w.refused ++ [a] }

theorem Move.of_step {l : MailboxStep ε α} (h : L.step w l = some w') : L.Move w w' := by
  cases l with
  | call a =>
      simp only [Loop.step, Option.ite_none_right_eq_some, Option.some.injEq] at h
      rcases h with ⟨hadmits, rfl⟩
      exact .call hadmits
  | enter a =>
      simp only [Loop.step, Option.ite_none_right_eq_some, Option.some.injEq] at h
      rcases h with ⟨⟨hmem, hopen, _⟩, rfl⟩
      exact .enter hmem hopen
  | handle e =>
      simp only [Loop.step] at h
      split at h
      · cases h
      · rename_i hqueue
        split at h
        · cases h
        · rename_i hgoing
          cases h
          exact .handle hqueue (Bool.eq_false_iff.2 hgoing)
  | exit =>
      simp only [Loop.step, Option.ite_none_right_eq_some, Option.some.injEq] at h
      rcases h with ⟨⟨hstopping, hopen⟩, rfl⟩
      exact .exit hstopping hopen
  | refuse a =>
      simp only [Loop.step, Option.ite_none_right_eq_some, Option.some.injEq] at h
      rcases h with ⟨⟨hmem, _⟩, rfl⟩
      exact .refuse hmem

/-! ## Where every command is -/

/-- Every command that entered was handled, waits or was dropped, and every other call waits for room or
was refused. -/
structure Flow (w : Mailbox σ α) : Prop where
  entered : w.entered = w.handled ++ w.queue ++ w.dropped
  called : w.called.Perm (w.entered ++ w.blocked ++ w.refused)
  closed : w.exited = true → w.queue = []
  kept : w.exited = false → w.dropped = []

theorem Flow.move (h : Flow w) (hmove : L.Move w w') : Flow w' := by
  cases hmove with
  | @call a _ =>
      refine ⟨h.entered, ?_, h.closed, h.kept⟩
      -- A call is appended to those that are blocked, not at the end.
      have hmove : (w.entered ++ w.blocked ++ w.refused ++ [a]).Perm
          (w.entered ++ (w.blocked ++ [a]) ++ w.refused) := by
        simp only [List.append_assoc]
        exact (List.perm_append_comm.append_left w.blocked).append_left w.entered
      exact (h.called.append_right [a]).trans hmove
  | @enter a hmem hopen =>
      refine ⟨?_, ?_, fun hexited => ?_, h.kept⟩
      · rw [h.entered, h.kept hopen]
        simp
      · have hmove : (w.entered ++ w.blocked).Perm (w.entered ++ [a] ++ w.blocked.erase a) := by
          rw [List.append_assoc]
          exact (List.perm_cons_erase hmem).append_left w.entered
        exact h.called.trans (hmove.append_right w.refused)
      · rw [show w.exited = true from hexited] at hopen
        cases hopen
  | @handle e a rest hqueue _ =>
      refine ⟨?_, h.called, fun hexited => ?_, h.kept⟩
      · rw [h.entered, hqueue]
        simp
      · have hempty := h.closed hexited
        rw [hqueue] at hempty
        cases hempty
  | exit _ hopen =>
      refine ⟨?_, h.called, fun _ => rfl, fun hexited => by cases hexited⟩
      rw [h.entered, h.kept hopen]
      simp
  | @refuse a hmem =>
      refine ⟨h.entered, ?_, h.closed, h.kept⟩
      have hmove : (w.blocked ++ w.refused).Perm (w.blocked.erase a ++ (w.refused ++ [a])) := by
        calc
          List.Perm (w.blocked ++ w.refused) ([a] ++ (w.blocked.erase a ++ w.refused)) :=
            (List.perm_cons_erase hmem).append_right w.refused
          List.Perm _ (w.blocked.erase a ++ w.refused ++ [a]) := List.perm_append_comm
          _ = w.blocked.erase a ++ (w.refused ++ [a]) := List.append_assoc ..
      have hcalled := h.called
      simp only [List.append_assoc] at hcalled ⊢
      exact hcalled.trans (hmove.append_left w.entered)

theorem Flow.reaches {ok : Mailbox σ α → MailboxStep ε α → Prop} (h : L.system.Reaches ok w) :
    Flow w := by
  refine h.invariant ?_ ?_
  · rintro w ⟨s, _, rfl⟩
    exact ⟨rfl, List.Perm.refl _, fun _ => rfl, fun _ => rfl⟩
  · exact fun w l w' _ hw _ hstep => hw.move (.of_step hstep)

/-! ## What is handled -/

variable (L) in
/-- No handled command stops the loop but the last one, and that one exactly if the loop stops. -/
structure Drained (w : Mailbox σ α) : Prop where
  running : w.stopping = false → ∀ a ∈ w.handled, L.stops a = false
  stopping : w.stopping = true → ∃ before a, w.handled = before ++ [a] ∧ L.stops a = true ∧
    ∀ b ∈ before, L.stops b = false
  exited : w.exited = true → w.stopping = true

theorem Drained.move (h : L.Drained w) (hmove : L.Move w w') : L.Drained w' := by
  cases hmove with
  | call => exact ⟨h.running, h.stopping, h.exited⟩
  | enter => exact ⟨h.running, h.stopping, h.exited⟩
  | @handle e a rest _ hgoing =>
      have hbefore := h.running hgoing
      refine ⟨?_, fun hstops => ⟨w.handled, a, rfl, hstops, hbefore⟩, fun hexited => ?_⟩
      · intro hgoes b hb
        rcases List.mem_append.1 hb with hold | hnew
        · exact hbefore b hold
        · cases List.mem_singleton.1 hnew
          exact hgoes
      · rw [h.exited hexited] at hgoing
        cases hgoing
  | exit hstopping => exact ⟨h.running, h.stopping, fun _ => hstopping⟩
  | refuse => exact ⟨h.running, h.stopping, h.exited⟩

theorem Drained.reaches {ok : Mailbox σ α → MailboxStep ε α → Prop} (h : L.system.Reaches ok w) :
    L.Drained w := by
  refine h.invariant ?_ ?_
  · rintro w ⟨s, _, rfl⟩
    exact ⟨fun _ a ha => (by cases ha), fun hstop => (by cases hstop), fun hexited => (by cases hexited)⟩
  · exact fun w l w' _ hw _ hstep => hw.move (.of_step hstep)

end Loop

end Foundations
