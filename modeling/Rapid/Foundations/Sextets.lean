import Mathlib.Data.List.Basic
import Mathlib.Tactic.IntervalCases

/-!
# Sextets — bytes as digits of six bits

Three bytes are four digits. A list of bytes whose length is no multiple of three ends in two or three
digits, the last of which has bits that no byte uses: packing leaves them zero, unpacking ignores them.
No list of bytes packs into a number of digits that leaves one over.
-/

namespace Foundations

/-- The digits of a list of bytes. -/
def pack : List UInt8 → List UInt8
  | b0 :: b1 :: b2 :: rest =>
      b0 >>> 2 :: ((b0 &&& 0x03) <<< 4 ||| b1 >>> 4) :: ((b1 &&& 0x0F) <<< 2 ||| b2 >>> 6) ::
        (b2 &&& 0x3F) :: pack rest
  | [b0, b1] => [b0 >>> 2, (b0 &&& 0x03) <<< 4 ||| b1 >>> 4, (b1 &&& 0x0F) <<< 2]
  | [b0] => [b0 >>> 2, (b0 &&& 0x03) <<< 4]
  | [] => []

/-- The bytes that the digits give; a single digit gives none. -/
def unpack : List UInt8 → List UInt8
  | d0 :: d1 :: d2 :: d3 :: rest =>
      (d0 <<< 2 ||| d1 >>> 4) :: (d1 <<< 4 ||| d2 >>> 2) :: (d2 <<< 6 ||| d3) :: unpack rest
  | [d0, d1, d2] => [d0 <<< 2 ||| d1 >>> 4, d1 <<< 4 ||| d2 >>> 2]
  | [d0, d1] => [d0 <<< 2 ||| d1 >>> 4]
  | _ => []

/-- The bits of the last digit that no byte uses are cleared. -/
def settle : List UInt8 → List UInt8
  | d0 :: d1 :: d2 :: d3 :: rest => d0 :: d1 :: d2 :: d3 :: settle rest
  | [d0, d1, d2] => [d0, d1, d2 &&& 0x3C]
  | [d0, d1] => [d0, d1 &&& 0x30]
  | digits => digits

/-- Digits, of which at least two belong to the last bytes. -/
structure Sextets (digits : List UInt8) : Prop where
  lt : ∀ d ∈ digits, d < 64
  length : digits.length % 4 ≠ 1

/-! ## Three bytes and four digits -/

section Bits

variable (b0 b1 b2 d0 d1 d2 d3 : UInt8)

theorem first_byte : (b0 >>> 2) <<< 2 ||| ((b0 &&& 0x03) <<< 4 ||| b1 >>> 4) >>> 4 = b0 := by
  apply UInt8.toBitVec_inj.1
  ext i hi
  simp
  interval_cases i <;> simp

theorem second_byte : ((b0 &&& 0x03) <<< 4 ||| b1 >>> 4) <<< 4 |||
    ((b1 &&& 0x0F) <<< 2 ||| b2 >>> 6) >>> 2 = b1 := by
  apply UInt8.toBitVec_inj.1
  ext i hi
  simp
  interval_cases i <;> simp

theorem third_byte : ((b1 &&& 0x0F) <<< 2 ||| b2 >>> 6) <<< 6 ||| b2 &&& 0x3F = b2 := by
  apply UInt8.toBitVec_inj.1
  ext i hi
  simp
  interval_cases i <;> simp

/-- Below 64 the two upper bits are zero. -/
theorem and_digit {d : UInt8} (h : d < 64) : d &&& 0x3F = d := by
  apply UInt8.toNat_inj.1
  rw [UInt8.toNat_and]
  exact Nat.and_two_pow_sub_one_of_lt_two_pow (n := 6) h

theorem first_digit : ((d0 &&& 0x3F) <<< 2 ||| (d1 &&& 0x3F) >>> 4) >>> 2 = d0 &&& 0x3F := by
  apply UInt8.toBitVec_inj.1
  ext i hi
  simp
  interval_cases i <;> simp

theorem second_digit : (((d0 &&& 0x3F) <<< 2 ||| (d1 &&& 0x3F) >>> 4) &&& 0x03) <<< 4 |||
    ((d1 &&& 0x3F) <<< 4 ||| (d2 &&& 0x3F) >>> 2) >>> 4 = d1 &&& 0x3F := by
  apply UInt8.toBitVec_inj.1
  ext i hi
  simp
  interval_cases i <;> simp

theorem third_digit : (((d1 &&& 0x3F) <<< 4 ||| (d2 &&& 0x3F) >>> 2) &&& 0x0F) <<< 2 |||
    ((d2 &&& 0x3F) <<< 6 ||| (d3 &&& 0x3F)) >>> 6 = d2 &&& 0x3F := by
  apply UInt8.toBitVec_inj.1
  ext i hi
  simp
  interval_cases i <;> simp

theorem fourth_digit : ((d2 &&& 0x3F) <<< 6 ||| (d3 &&& 0x3F)) &&& 0x3F = d3 &&& 0x3F := by
  apply UInt8.toBitVec_inj.1
  ext i hi
  simp
  interval_cases i <;> simp

theorem settled_second : (((d0 &&& 0x3F) <<< 2 ||| (d1 &&& 0x3F) >>> 4) &&& 0x03) <<< 4 =
    (d1 &&& 0x3F) &&& 0x30 := by
  apply UInt8.toBitVec_inj.1
  ext i hi
  simp
  interval_cases i <;> simp

theorem settled_third : (((d1 &&& 0x3F) <<< 4 ||| (d2 &&& 0x3F) >>> 2) &&& 0x0F) <<< 2 =
    (d2 &&& 0x3F) &&& 0x3C := by
  apply UInt8.toBitVec_inj.1
  ext i hi
  simp
  interval_cases i <;> simp

theorem lt_of_and {d : UInt8} (h : d &&& 0x3F = d) : d < 64 := by
  have hle : (d &&& 0x3F).toNat ≤ 63 := by
    rw [UInt8.toNat_and]
    exact Nat.and_le_right
  rw [h] at hle
  exact UInt8.lt_iff_toNat_lt.2 (Nat.lt_succ_of_le hle)

theorem first_lt : b0 >>> 2 < 64 := by
  apply lt_of_and
  apply UInt8.toBitVec_inj.1
  ext i hi
  simp
  interval_cases i <;> simp

theorem second_lt : (b0 &&& 0x03) <<< 4 ||| b1 >>> 4 < 64 := by
  apply lt_of_and
  apply UInt8.toBitVec_inj.1
  ext i hi
  simp
  interval_cases i <;> simp

theorem third_lt : (b1 &&& 0x0F) <<< 2 ||| b2 >>> 6 < 64 := by
  apply lt_of_and
  apply UInt8.toBitVec_inj.1
  ext i hi
  simp
  interval_cases i <;> simp

theorem fourth_lt : b2 &&& 0x3F < 64 := by
  apply lt_of_and
  rw [UInt8.and_assoc, UInt8.and_self]

end Bits

/-! ## Packing and unpacking -/

theorem unpack_pack (bytes : List UInt8) : unpack (pack bytes) = bytes := by
  fun_induction pack bytes with
  | case1 b0 b1 b2 rest ih => simp only [unpack, first_byte, second_byte, third_byte, ih]
  | case2 b0 b1 =>
      have hsecond := second_byte b0 b1 0
      simp only [UInt8.zero_shiftRight, UInt8.or_zero] at hsecond
      simp only [unpack, first_byte, hsecond]
  | case3 b0 =>
      have hfirst := first_byte b0 0
      simp only [UInt8.zero_shiftRight, UInt8.or_zero] at hfirst
      simp only [unpack, hfirst]
  | case4 => rfl

theorem lt_of_mem_pack (bytes : List UInt8) : ∀ d ∈ pack bytes, d < 64 := by
  -- What is left of a digit when the next byte is missing.
  have hpair (b0 : UInt8) : (b0 &&& 0x03) <<< 4 < 64 := by
    simpa using second_lt b0 0
  have htriple (b1 : UInt8) : (b1 &&& 0x0F) <<< 2 < 64 := by
    simpa using third_lt b1 0
  fun_induction pack bytes with
  | case1 b0 b1 b2 rest ih => simpa [first_lt, second_lt, third_lt, fourth_lt] using ih
  | case2 b0 b1 => simp [first_lt, second_lt, htriple]
  | case3 b0 => simp [first_lt, hpair]
  | case4 => simp

theorem sextets_pack (bytes : List UInt8) : Sextets (pack bytes) := by
  refine ⟨lt_of_mem_pack bytes, ?_⟩
  fun_induction pack bytes with
  | case1 b0 b1 b2 rest ih =>
      simp only [List.length_cons]
      omega
  | case2 b0 b1 => simp
  | case3 b0 => simp
  | case4 => simp

/-- The digits come back but for the unused bits. -/
theorem pack_unpack {digits : List UInt8} (h : Sextets digits) :
    pack (unpack digits) = settle digits := by
  rcases h with ⟨hlt, hlength⟩
  fun_induction unpack digits with
  | case1 d0 d1 d2 d3 rest ih =>
      simp only [List.mem_cons, forall_eq_or_imp] at hlt
      rcases hlt with ⟨h0, h1, h2, h3, hrest⟩
      have hfirst := first_digit d0 d1
      have hsecond := second_digit d0 d1 d2
      have hthird := third_digit d1 d2 d3
      have hfourth := fourth_digit d2 d3
      rw [and_digit h0, and_digit h1] at hfirst
      rw [and_digit h0, and_digit h1, and_digit h2] at hsecond
      rw [and_digit h1, and_digit h2, and_digit h3] at hthird
      rw [and_digit h2, and_digit h3] at hfourth
      have htail := ih hrest (by simp only [List.length_cons] at hlength; omega)
      simp only [pack, settle, hfirst, hsecond, hthird, hfourth, htail]
  | case2 d0 d1 d2 =>
      simp only [List.mem_cons, forall_eq_or_imp] at hlt
      rcases hlt with ⟨h0, h1, h2, _⟩
      have hfirst := first_digit d0 d1
      have hsecond := second_digit d0 d1 d2
      have hthird := settled_third d1 d2
      rw [and_digit h0, and_digit h1] at hfirst
      rw [and_digit h0, and_digit h1, and_digit h2] at hsecond
      rw [and_digit h1, and_digit h2] at hthird
      simp only [pack, settle, hfirst, hsecond, hthird]
  | case3 d0 d1 =>
      simp only [List.mem_cons, forall_eq_or_imp] at hlt
      rcases hlt with ⟨h0, h1, _⟩
      have hfirst := first_digit d0 d1
      have hsecond := settled_second d0 d1
      rw [and_digit h0, and_digit h1] at hfirst hsecond
      simp only [pack, settle, hfirst, hsecond]
  | case4 digits hfour hthree htwo =>
      cases digits with
      | nil => rfl
      | cons d0 rest =>
          cases rest with
          | nil => exact absurd rfl hlength
          | cons d1 rest =>
              cases rest with
              | nil => exact absurd rfl (htwo d0 d1)
              | cons d2 rest =>
                  cases rest with
                  | nil => exact absurd rfl (hthree d0 d1 d2)
                  | cons d3 rest => exact absurd rfl (hfour d0 d1 d2 d3 rest)

/-- Only whole digits count. -/
theorem unpack_settle {digits : List UInt8} (h : Sextets digits) :
    unpack (settle digits) = unpack digits := by
  rw [← pack_unpack h, unpack_pack]

end Foundations
