import Rapid.Consensus.Paxos

/-!
# CoordinatorRule — what `select_proposal_from_messages` picks

Three facts about the rule: it only ever returns a reported value, it returns the value on which
all votes of the highest rank agree, and it returns a value whose competitors are too few.
-/

namespace Rapid
namespace Paxos

variable {messages : List Phase1bMessage} {n : Nat} {k : Rank} {v : List Endpoint}

theorem mem_collectedValues :
    v ∈ collectedValues messages k ↔ v ≠ [] ∧ ∃ m ∈ messages, m.vrnd = some k ∧ m.vval = v := by
  simp only [collectedValues, List.mem_map, List.mem_filter, decide_eq_true_eq,
    Bool.not_eq_true', List.isEmpty_eq_false_iff]
  constructor
  · rintro ⟨m, ⟨⟨hm, hk⟩, hne⟩, rfl⟩
    exact ⟨hne, m, hm, hk, rfl⟩
  · rintro ⟨hne, m, hm, hk, rfl⟩
    exact ⟨m, ⟨⟨hm, hk⟩, hne⟩, rfl⟩

/-- How often a value is collected: one for each message that reports it at the rank. -/
theorem count_collectedValues (hne : v ≠ []) :
    (collectedValues messages k).count v =
      (messages.filter fun m => m.vrnd = some k ∧ m.vval = v).length := by
  induction messages with
  | nil => rfl
  | cons m messages ih =>
      by_cases hk : m.vrnd = some k
      · by_cases hv : m.vval = v
        · have hvalue : m.vval ≠ [] := hv ▸ hne
          simp_all [collectedValues]
        · by_cases hempty : m.vval = []
          · simp_all [collectedValues]
          · simp_all [collectedValues]
      · simp_all [collectedValues]

theorem length_collectedValues_le (messages : List Phase1bMessage) (k : Rank) :
    (collectedValues messages k).length ≤ messages.length := by
  rw [collectedValues, List.length_map]
  exact le_trans (List.length_filter_le _ _) (List.length_filter_le _ _)

theorem count_add_count_le (l : List (List Endpoint)) {a b : List Endpoint} (hab : a ≠ b) :
    l.count a + l.count b ≤ l.length := by
  induction l with
  | nil => exact Nat.le_refl _
  | cons x l ih =>
      rw [List.count_cons, List.count_cons, List.length_cons]
      by_cases hxa : x = a
      · simp only [hxa, beq_self_eq_true, if_true, beq_iff_eq, hab, if_false]
        omega
      · by_cases hxb : x = b
        · simp only [hxb, beq_self_eq_true, if_true, beq_iff_eq, Ne.symm hab, if_false]
          omega
        · simp only [beq_iff_eq, hxa, hxb, if_false]
          omega

theorem mem_of_head?_getD {l : List (List Endpoint)} (h : l.head?.getD [] ≠ []) :
    l.head?.getD [] ∈ l := by
  cases l with
  | nil => exact absurd rfl h
  | cons a l => exact List.mem_cons_self

/-! ## The scan -/

theorem mem_of_scanCollected {quarter : Nat} :
    ∀ {l : List (List Endpoint)} {counters : Finmap fun _ : List EndpointKey => Nat},
      scanCollected quarter counters l = some v → v ∈ l := by
  intro l
  induction l with
  | nil =>
      intro counters h
      cases h
  | cons a l ih =>
      intro counters h
      rw [scanCollected] at h
      split at h
      · cases h
        exact List.mem_cons_self
      · exact List.mem_cons_of_mem _ (ih h)

/-- The scan returns `v` when `v` occurs more than `quarter` times and nothing else does; the
counters start from the part of the list already scanned. -/
theorem scanCollected_eq_some {quarter : Nat} :
    ∀ (l done : List (List Endpoint)) (counters : Finmap fun _ : List EndpointKey => Nat),
      (∀ u, (counters.lookup u).getD 0 = done.count u) →
      (∀ u, u ≠ v → (done ++ l).count u ≤ quarter) →
      done.count v ≤ quarter → quarter < (done ++ l).count v →
      scanCollected quarter counters l = some v := by
  intro l
  induction l with
  | nil =>
      intro done counters _ _ hdone hv
      rw [List.append_nil] at hv
      exact absurd hv (Nat.not_lt.2 hdone)
  | cons a l ih =>
      intro done counters hcount hothers hdone hv
      have hsplit : done ++ a :: l = (done ++ [a]) ++ l := by simp
      rw [scanCollected]
      split
      · -- The scan stops here, so `a` is frequent and must be `v`.
        rename_i hover
        by_cases hav : a = v
        · rw [hav]
        · have hle : (done ++ a :: l).count a ≤ quarter := hothers a hav
          rw [List.count_append, List.count_cons_self] at hle
          rw [hcount a] at hover
          omega
      · rename_i hunder
        rw [hcount a] at hunder
        -- One more value is counted, and it is not frequent yet.
        apply ih (done ++ [a])
        · intro u
          by_cases hua : u = a
          · subst hua
            rw [Finmap.lookup_insert, hcount u, List.count_append, List.count_singleton_self]
            rfl
          · rw [Finmap.lookup_insert_of_ne _ hua, hcount u, List.count_append,
              List.count_eq_zero_of_not_mem (l := [a]) (by simpa using hua), Nat.add_zero]
        · intro u hu
          rw [← hsplit]
          exact hothers u hu
        · by_cases hav : a = v
          · subst hav
            rw [List.count_append, List.count_singleton_self]
            omega
          · rw [List.count_append,
              List.count_eq_zero_of_not_mem (l := [a]) (by simpa using Ne.symm hav)]
            omega
        · rw [← hsplit]
          exact hv

/-! ## The rule -/

/-- The rule returns the empty list or a reported value. -/
theorem selectProposal_mem (h : selectProposalFromMessages messages n ≠ []) :
    ∃ m ∈ messages, m.vval = selectProposalFromMessages messages n := by
  have hcollected : ∀ {k : Rank} {u : List Endpoint}, u ∈ collectedValues messages k →
      ∃ m ∈ messages, m.vval = u := by
    intro k u hu
    rcases mem_collectedValues.1 hu with ⟨_, m, hm, _, hval⟩
    exact ⟨m, hm, hval⟩
  revert h
  unfold selectProposalFromMessages
  split
  · intro h
    exact absurd rfl h
  · rename_i k _
    dsimp only
    split
    · intro h
      exact hcollected (mem_of_head?_getD h)
    · split
      · rename_i hscan
        intro _
        exact hcollected (mem_of_scanCollected hscan)
      · intro h
        -- No value was frequent enough: the first one reported that is not empty.
        have hmem := mem_of_head?_getD h
        rcases List.mem_map.1 hmem with ⟨m, hm, hval⟩
        exact ⟨m, List.mem_of_mem_filter hm, hval⟩

/-- All votes of the highest rank agree: the rule returns their value. -/
theorem selectProposal_of_agree (hmax : (messages.filterMap Phase1bMessage.vrnd).max? = some k)
    (hagree : ∀ m ∈ messages, m.vrnd = some k → m.vval = v) (hne : v ≠ []) :
    selectProposalFromMessages messages n = v := by
  have hkmem : k ∈ messages.filterMap Phase1bMessage.vrnd := (List.max?_eq_some_iff.1 hmax).1
  rcases List.mem_filterMap.1 hkmem with ⟨m₀, hm₀, hvrnd⟩
  have hv : v ∈ collectedValues messages k :=
    mem_collectedValues.2 ⟨hne, m₀, hm₀, hvrnd, hagree m₀ hm₀ hvrnd⟩
  have hall : ∀ u ∈ collectedValues messages k, u = v := by
    intro u hu
    rcases mem_collectedValues.1 hu with ⟨_, m, hm, hk, rfl⟩
    exact hagree m hm hk
  -- The first branch of the rule: one value only.
  have hsingle : (collectedValues messages k).toFinset = {v} := by
    ext u
    simp only [List.mem_toFinset, Finset.mem_singleton]
    constructor
    · exact hall u
    · rintro rfl
      exact hv
  have hhead : (collectedValues messages k).head?.getD [] = v := by
    cases hl : collectedValues messages k with
    | nil =>
        rw [hl] at hv
        cases hv
    | cons a l =>
        exact hall a (by simp [hl])
  unfold selectProposalFromMessages
  rw [hmax]
  simp [hsingle, hhead]

/-- A value that more than `n / 4` of the highest votes carry, all others at most `n / 4`. -/
theorem selectProposal_of_frequent
    (hmax : (messages.filterMap Phase1bMessage.vrnd).max? = some k)
    (hfreq : n / 4 < (collectedValues messages k).count v)
    (hothers : ∀ u, u ≠ v → (collectedValues messages k).count u ≤ n / 4) :
    selectProposalFromMessages messages n = v := by
  have hv : v ∈ collectedValues messages k := List.count_pos_iff.1 (by omega)
  unfold selectProposalFromMessages
  rw [hmax]
  dsimp only
  split
  · rename_i hone
    have hmem : (collectedValues messages k).head?.getD [] ∈
        (collectedValues messages k).toFinset := by
      cases hl : collectedValues messages k with
      | nil =>
          rw [hl] at hv
          cases hv
      | cons a l => simp
    have heq := Finset.card_le_one.1 (le_of_eq hone)
    exact heq _ hmem v (List.mem_toFinset.2 hv)
  · -- Several values were reported: the scan stops at the frequent one.
    have hscan : scanCollected (n / 4) ∅ (collectedValues messages k) = some v := by
      apply scanCollected_eq_some _ []
      · intro u
        simp
      · simpa using hothers
      · simp
      · simpa using hfreq
    rw [hscan]

/-- A value that more than `n / 4` of the highest votes carry when at most `n / 4` messages say
anything else. -/
theorem selectProposal_of_dominant
    (hmax : (messages.filterMap Phase1bMessage.vrnd).max? = some k)
    (hfreq : n / 4 < (collectedValues messages k).count v)
    (hrest : messages.length ≤ (collectedValues messages k).count v + n / 4) :
    selectProposalFromMessages messages n = v := by
  refine selectProposal_of_frequent hmax hfreq ?_
  intro u hu
  have hcount := count_add_count_le (collectedValues messages k) hu
  have hlength := length_collectedValues_le messages k
  omega

end Paxos
end Rapid
