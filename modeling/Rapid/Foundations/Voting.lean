import Mathlib.Data.Finset.Card
import Mathlib.Data.Fintype.Card
import Mathlib.Order.WellFounded
import Mathlib.Order.RelClasses

/-!
# Voting — agreement from quorum reports

Single-decree voting in the style of Paxos, with one fast rank below all classic ranks. Acceptors
`A` vote for values `V` at ranks `R`; at a classic rank (above `fast`) they vote only for the value
proposed there, at the fast rank they vote as they like.

A proposal at a classic rank `r` is *supported* by a majority `Q` and a rank `k < r` when no member
of `Q` has voted in between `k` and `r` and the value agrees with the proposal at `k`, if `k` is
classic. It is *free* of competitors when no other value can still gather a fast quorum outside
of what `Q` has voted. Supported and free proposals carry every chosen value upwards.

The statements speak about the votes cast so far; nothing is said about how they come about.
-/

namespace Foundations
namespace Voting

open Finset

variable {A R V : Type*} [Fintype A]

/-- The votes cast and the proposals made so far. -/
structure Record (A R V : Type*) where
  vote : A → R → V → Prop
  proposed : R → V → Prop

namespace Record

variable (B : Record A R V)

open Classical in
/-- The acceptors that voted for `v` at `r`. -/
noncomputable def voters (r : R) (v : V) : Finset A :=
  univ.filter fun a => B.vote a r v

@[simp] theorem mem_voters {r : R} {v : V} {a : A} : a ∈ B.voters r v ↔ B.vote a r v := by
  simp [voters]

end Record

def Majority (Q : Finset A) : Prop :=
  Fintype.card A < 2 * Q.card

/-! ## Quorum intersection -/

variable [DecidableEq A]

/-- Two sets that together outnumber the acceptors share one. -/
theorem exists_mem_of_card_lt {P Q : Finset A} (h : Fintype.card A < P.card + Q.card) :
    ∃ a, a ∈ P ∧ a ∈ Q := by
  by_contra hnone
  have hdisj : Disjoint P Q := by
    rw [disjoint_left]
    intro a hP hQ
    exact hnone ⟨a, hP, hQ⟩
  have hcard : (P ∪ Q).card = P.card + Q.card := card_union_of_disjoint hdisj
  have hle : (P ∪ Q).card ≤ Fintype.card A := card_le_univ _
  omega

theorem Majority.inter {P Q : Finset A} (hP : Majority P) (hQ : Majority Q) :
    ∃ a, a ∈ P ∧ a ∈ Q := by
  apply exists_mem_of_card_lt
  unfold Majority at hP hQ
  omega

theorem Majority.nonempty {Q : Finset A} (hQ : Majority Q) : ∃ a, a ∈ Q := by
  obtain ⟨a, ha, _⟩ := hQ.inter hQ
  exact ⟨a, ha⟩

/-- Two fast quorums agree when an acceptor casts at most one fast vote. -/
theorem fast_agree {B : Record A R V} {fast : R} {size : Nat}
    (hsize : Fintype.card A < 2 * size)
    (honce : ∀ a v u, B.vote a fast v → B.vote a fast u → v = u) {v w : V}
    (hv : size ≤ (B.voters fast v).card) (hw : size ≤ (B.voters fast w).card) : v = w := by
  obtain ⟨a, hav, haw⟩ :=
    exists_mem_of_card_lt (P := B.voters fast v) (Q := B.voters fast w) (by omega)
  exact honce a v w (B.mem_voters.1 hav) (B.mem_voters.1 haw)

/-! ## Safe proposals -/

variable [LinearOrder R]

/-- A majority whose reports justify proposing `v` at `r`. -/
structure Support (B : Record A R V) (fast : R) (Q : Finset A) (k r : R) (v : V) : Prop where
  majority : Majority Q
  below : k < r
  reported : ∀ a ∈ Q, ∀ k' u, B.vote a k' u → k' < r → k' ≤ k
  inherit : fast < k → B.proposed k v

omit [DecidableEq A] in
/-- Support survives in a record with further votes, as long as these are not above the report. -/
theorem Support.extend {B B' : Record A R V} {fast : R} {Q : Finset A} {k r : R} {v : V}
    (h : Support B fast Q k r v) (hproposed : ∀ u, B.proposed k u → B'.proposed k u)
    (hvotes : ∀ a ∈ Q, ∀ k' u, B'.vote a k' u → B.vote a k' u ∨ k' ≤ k) :
    Support B' fast Q k r v := by
  refine { h with
    reported := ?_
    inherit := fun hlt => hproposed v (h.inherit hlt) }
  intro a ha k' u hvote hlt
  rcases hvotes a ha k' u hvote with hold | hle
  · exact h.reported a ha k' u hold hlt
  · exact hle

/-- No value but `v` can reach `size` votes at the fast rank: the votes in `Q` and all the votes
still possible outside of `Q` are too few. -/
def Free (B : Record A R V) (fast : R) (size : Nat) (Q : Finset A) (v : V) : Prop :=
  ∀ u, u ≠ v → (B.voters fast u ∩ Q).card + (univ \ Q).card < size

/-- What every run of the protocol maintains about its proposals. -/
structure Lawful (B : Record A R V) (fast : R) : Prop where
  unique : ∀ r v u, B.proposed r v → B.proposed r u → v = u
  voted : ∀ a r v, fast < r → B.vote a r v → B.proposed r v
  supported : ∀ r v, B.proposed r v → ∃ Q k, Support B fast Q k r v

/-- A value chosen at a classic rank: a majority voted for it. -/
def Chosen (B : Record A R V) (r : R) (v : V) : Prop :=
  Majority (B.voters r v)

variable {B : Record A R V} {fast : R}

theorem Chosen.proposed (hB : Lawful B fast) {r : R} {v : V} (h : Chosen B r v)
    (hr : fast < r) : B.proposed r v := by
  obtain ⟨a, ha⟩ := Majority.nonempty h
  exact hB.voted a r v hr (B.mem_voters.1 ha)

section Agreement

variable [WellFoundedLT R]

/-- A value chosen at a classic rank is the only one proposed at higher ranks. -/
theorem Chosen.proposed_above (hB : Lawful B fast) {i : R} {w : V} (hw : Chosen B i w)
    (hi : fast < i) : ∀ r v, i < r → B.proposed r v → v = w := by
  intro r
  induction r using WellFoundedLT.induction with
  | ind r ih =>
      intro v hir hv
      obtain ⟨Q, k, hsup⟩ := hB.supported r v hv
      -- A member of both quorums voted at `i`, so the report reaches at least `i`.
      obtain ⟨a, hchosen, haQ⟩ := Majority.inter hw hsup.majority
      have hik : i ≤ k := hsup.reported a haQ i w (B.mem_voters.1 hchosen) hir
      have hkv : B.proposed k v := hsup.inherit (lt_of_lt_of_le hi hik)
      rcases lt_or_eq_of_le hik with hlt | heq
      · exact ih k hsup.below v hlt hkv
      · subst heq
        exact hB.unique i v w hkv (hw.proposed hB hi)

/-- Classic agreement: at most one value is chosen at the classic ranks. -/
theorem Chosen.agree (hB : Lawful B fast) {i j : R} {v w : V} (hv : Chosen B i v)
    (hw : Chosen B j w) (hi : fast < i) (hj : fast < j) : v = w := by
  rcases lt_trichotomy i j with hlt | heq | hgt
  · exact (hv.proposed_above hB hi j w hlt (hw.proposed hB hj)).symm
  · subst heq
    exact hB.unique i v w (hv.proposed hB hi) (hw.proposed hB hi)
  · exact hw.proposed_above hB hj i v hgt (hv.proposed hB hi)

variable {size : Nat}

/-- A value with a fast quorum is the only one proposed at classic ranks, when every proposal whose
report does not reach a classic rank is free of competitors. -/
theorem proposed_of_fast_quorum
    (hB : ∀ r v, B.proposed r v → ∃ Q k, Support B fast Q k r v ∧
      (k ≤ fast → Free B fast size Q v))
    {w : V} (hw : size ≤ (B.voters fast w).card) :
    ∀ r v, B.proposed r v → v = w := by
  intro r
  induction r using WellFoundedLT.induction with
  | ind r ih =>
      intro v hv
      obtain ⟨Q, k, hsup, hfree⟩ := hB r v hv
      rcases le_or_gt k fast with hk | hk
      · by_contra hne
        have hlt := hfree hk w (Ne.symm hne)
        have hsplit : (B.voters fast w).card ≤
            (B.voters fast w ∩ Q).card + (univ \ Q).card := by
          rw [← card_inter_add_card_sdiff (B.voters fast w) Q]
          have hsub : B.voters fast w \ Q ⊆ univ \ Q :=
            sdiff_subset_sdiff (subset_univ _) (Subset.refl _)
          exact Nat.add_le_add_left (card_le_card hsub) _
        omega
      · exact ih k hsup.below v (hsup.inherit hk)

end Agreement

end Voting
end Foundations
