import Rapid.Consensus.CoordinatorRule
import Rapid.Consensus.FastPaxos
import Mathlib.Data.Fintype.Card

/-!
# FastRecovery — a fast quorum survives the coordinator rule

When all but `faults N` acceptors cast the same fast vote, every majority of promises leads the
coordinator back to that vote.
-/

namespace Rapid
namespace Paxos

variable {N : Nat}

/-- The promise of an acceptor that cast a fast vote, or none; the other fields do not matter. -/
def fastRoundReport (base : Phase1bMessage) : Option (List Endpoint) → Phase1bMessage
  | some vote => { base with vrnd := some ⟨1, 1⟩, vval := vote }
  | none => { base with vrnd := some ⟨0, 0⟩, vval := [] }

section Report

variable {base : Phase1bMessage} {vote : Option (List Endpoint)} {v : List Endpoint}

theorem fastRoundReport_vrnd_le (base : Phase1bMessage) (vote : Option (List Endpoint)) :
    ∃ r, (fastRoundReport base vote).vrnd = some r ∧ r ≤ ⟨1, 1⟩ := by
  cases vote with
  | none => exact ⟨⟨0, 0⟩, rfl, by decide⟩
  | some vote => exact ⟨⟨1, 1⟩, rfl, le_refl _⟩

/-- A report carries a non-empty `v` at the fast rank exactly when `v` was the vote. -/
theorem fastRoundReport_reports (hv : v ≠ []) :
    ((fastRoundReport base vote).vrnd = some ⟨1, 1⟩ ∧ (fastRoundReport base vote).vval = v) ↔
      vote = some v := by
  cases vote with
  | none => simp [fastRoundReport, Ne.symm hv]
  | some u => simp [fastRoundReport]

end Report

variable {votes : Fin N → Option (List Endpoint)} {v : List Endpoint}

/-- Few acceptors voted for anything but a fast-chosen value. -/
theorem others_le_faults
    (hchosen : N - FastPaxos.faults N ≤ (Finset.univ.filter fun a => votes a = some v).card)
    {acceptors : List (Fin N)} (hnodup : acceptors.Nodup) :
    (acceptors.filter fun a => ¬ votes a = some v).length ≤ FastPaxos.faults N := by
  have hsubset : (acceptors.filter fun a => ¬ votes a = some v).toFinset ⊆
      Finset.univ.filter fun a => ¬ votes a = some v := by
    intro a ha
    rw [List.mem_toFinset, List.mem_filter] at ha
    simpa using ha.2
  have hsplit := Finset.card_filter_add_card_filter_not (s := (Finset.univ : Finset (Fin N)))
    fun a => votes a = some v
  rw [Finset.card_univ, Fintype.card_fin] at hsplit
  calc
    (acceptors.filter fun a => ¬ votes a = some v).length
        = (acceptors.filter fun a => ¬ votes a = some v).toFinset.card :=
          (List.toFinset_card_of_nodup (hnodup.filter _)).symm
    _ ≤ (Finset.univ.filter fun a => ¬ votes a = some v).card := Finset.card_le_card hsubset
    _ ≤ FastPaxos.faults N := by omega

/-- The coordinator rule returns the value that a fast quorum voted for. -/
theorem selectProposal_of_fastChosen (votes : Fin N → Option (List Endpoint))
    (base : Fin N → Phase1bMessage) {v : List Endpoint} (hv : v ≠ [])
    (hchosen : N - FastPaxos.faults N ≤ (Finset.univ.filter fun a => votes a = some v).card)
    {acceptors : List (Fin N)} (hnodup : acceptors.Nodup) (hmajority : N / 2 < acceptors.length) :
    selectProposalFromMessages (acceptors.map fun a => fastRoundReport (base a) (votes a)) N = v := by
  have hcount : (collectedValues (acceptors.map fun a => fastRoundReport (base a) (votes a))
      ⟨1, 1⟩).count v = (acceptors.filter fun a => votes a = some v).length := by
    rw [count_collectedValues hv, List.filter_map, List.length_map]
    congr 1
    apply List.filter_congr
    intro a _
    exact decide_eq_decide.2 (fastRoundReport_reports hv)
  have hothers : (acceptors.filter fun a => ¬ votes a = some v).length ≤ FastPaxos.faults N :=
    others_le_faults hchosen hnodup
  have hsplit : acceptors.length = (acceptors.filter fun a => votes a = some v).length +
      (acceptors.filter fun a => ¬ votes a = some v).length := by
    simpa using List.length_eq_length_filter_add (l := acceptors) fun a => decide (votes a = some v)
  have hfaults : FastPaxos.faults N ≤ N / 4 := Nat.div_le_div_right (Nat.sub_le N 1)
  -- A majority outnumbers the faults by more than a quarter of the acceptors.
  have hfreq : N / 4 < (acceptors.filter fun a => votes a = some v).length := by
    have hquarter : N / 4 + FastPaxos.faults N < N / 2 + 1 := by
      unfold FastPaxos.faults
      omega
    omega
  have hmax : ((acceptors.map fun a => fastRoundReport (base a) (votes a)).filterMap
      Phase1bMessage.vrnd).max? = some ⟨1, 1⟩ := by
    rw [List.max?_eq_some_iff]
    constructor
    · rcases List.exists_mem_of_length_pos (Nat.lt_of_le_of_lt (Nat.zero_le _) hfreq) with ⟨a, ha⟩
      rcases List.mem_filter.1 ha with ⟨hmem, hvote⟩
      refine List.mem_filterMap.2 ⟨_, List.mem_map_of_mem hmem, ?_⟩
      exact ((fastRoundReport_reports hv).2 (by simpa using hvote)).1
    · intro r hr
      rcases List.mem_filterMap.1 hr with ⟨m, hm, hvrnd⟩
      rcases List.mem_map.1 hm with ⟨a, _, rfl⟩
      rcases fastRoundReport_vrnd_le (base a) (votes a) with ⟨r', hr', hle⟩
      rw [hr'] at hvrnd
      cases hvrnd
      exact hle
  refine selectProposal_of_dominant hmax ?_ ?_
  · rw [hcount]
    exact hfreq
  · rw [hcount, List.length_map]
    omega

/-- Six acceptors, one of them with another vote: a majority that saw both returns the quorum's. -/
theorem fastChosen_of_six :
    selectProposalFromMessages
      (([5, 0, 1, 2] : List (Fin 6)).map fun a =>
        fastRoundReport ⟨none, 0, none, none, []⟩
          (if a = 5 then some [⟨[1], 1⟩] else some [⟨[0], 0⟩])) 6 = [⟨[0], 0⟩] :=
  selectProposal_of_fastChosen (fun a => if a = 5 then some [⟨[1], 1⟩] else some [⟨[0], 0⟩])
    (fun _ => ⟨none, 0, none, none, []⟩) (by decide) (by decide) (by decide) (by decide)

end Paxos
end Rapid
