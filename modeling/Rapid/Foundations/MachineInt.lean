import Mathlib.Order.Lattice
import Mathlib.Order.Defs.LinearOrder
import Mathlib.Order.RelClasses
import Mathlib.Data.Prod.Lex
import Mathlib.Data.Fintype.EquivFin
import Mathlib.Data.FinEnum

/-!
# MachineInt — signed machine integers as finite linear orders

`Int32` and `Int64` with their signed comparison, so that sorted containers and lexicographic
ranks over machine integers use the order library.
-/

namespace Foundations

instance int32LinearOrder : LinearOrder Int32 where
  le_refl := Int32.le_refl
  le_trans _ _ _ := Int32.le_trans
  lt_iff_le_not_ge a b := by
    simp only [Int32.lt_iff_toInt_lt, Int32.le_iff_toInt_le]
    omega
  le_antisymm _ _ := Int32.le_antisymm
  le_total := Int32.le_total
  toDecidableLE := inferInstance
  toDecidableLT := inferInstance
  toDecidableEq := inferInstance

instance int64LinearOrder : LinearOrder Int64 where
  le_refl := Int64.le_refl
  le_trans _ _ _ := Int64.le_trans
  lt_iff_le_not_ge a b := by
    simp only [Int64.lt_iff_toInt_lt, Int64.le_iff_toInt_le]
    omega
  le_antisymm _ _ := Int64.le_antisymm
  le_total := Int64.le_total
  toDecidableLE := inferInstance
  toDecidableLT := inferInstance
  toDecidableEq := inferInstance

instance int32Finite : Finite Int32 :=
  Finite.of_injective Int32.toBitVec fun _ _ h => Int32.toBitVec_inj.1 h

/-! ## Words read as signed numbers -/

theorem toInt_toInt64 (x : UInt64) :
    x.toInt64.toInt = if x.toNat < 2 ^ 63 then (x.toNat : Int) else x.toNat - 2 ^ 64 := by
  have htoInt : x.toInt64.toInt = x.toBitVec.toInt := rfl
  rw [htoInt, BitVec.toInt_eq_toNat_cond]
  have htoNat : x.toBitVec.toNat = x.toNat := rfl
  rw [htoNat]
  split <;> split <;> omega

/-- Two words with the same top bit compare alike, signed and unsigned. -/
theorem toInt64_lt_iff {x y : UInt64} (h : x.toNat < 2 ^ 63 ↔ y.toNat < 2 ^ 63) :
    x.toInt64 < y.toInt64 ↔ x.toNat < y.toNat := by
  rw [Int64.lt_iff_toInt_lt, toInt_toInt64, toInt_toInt64]
  by_cases hx : x.toNat < 2 ^ 63
  · rw [if_pos hx, if_pos (h.1 hx)]
    exact Int.ofNat_lt
  · rw [if_neg hx, if_neg fun hy => hx (h.2 hy)]
    omega

/-- The words with the top bit set are the large unsigned and the small signed ones. -/
theorem toInt64_lt_of_halves {x y : UInt64} (hx : ¬ x.toNat < 2 ^ 63) (hy : y.toNat < 2 ^ 63) :
    x.toInt64 < y.toInt64 ∧ y.toNat < x.toNat := by
  rw [Int64.lt_iff_toInt_lt, toInt_toInt64, toInt_toInt64, if_neg hx, if_pos hy]
  have hbound := x.toNat_lt
  constructor <;> omega

end Foundations
