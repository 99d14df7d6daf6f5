import Mathlib.Data.List.Basic
import Mathlib.Data.Nat.Notation

/-!
# NumberText — reading back printed numbers

A parser takes what it recognises off the front of a text and returns the rest. `readNumber` reads a
number in a given radix, as long as there are digits; the caller says how many digits there may be,
whether leading zeros are allowed, and below which bound the value must stay.

Printed numbers (`Nat.toDigits`) are read back, whatever follows, unless that starts with a digit.
-/

namespace Foundations

abbrev TextParser (α : Type) := List Char → Option (α × List Char)

def readGivenChar (target : Char) : TextParser Unit
  | [] => none
  | c :: rest => if c = target then some ((), rest) else none

/-- The value of a digit; letters of both cases stand for 10 and more. -/
def toDigit (radix : Nat) (c : Char) : Option Nat :=
  let value :=
    if '0' ≤ c ∧ c ≤ '9' then c.toNat - '0'.toNat
    else if 'a' ≤ c ∧ c ≤ 'z' then c.toNat - 'a'.toNat + 10
    else if 'A' ≤ c ∧ c ≤ 'Z' then c.toNat - 'A'.toNat + 10
    else radix
  if value < radix then some value else none

def isDigit (radix : Nat) (c : Char) : Bool :=
  (toDigit radix c).isSome

def digitsValue (radix : Nat) (digits : List Char) : Nat :=
  digits.foldl (fun value c => value * radix + (toDigit radix c).getD 0) 0

def readNumber (radix : Nat) (maxDigits : Option Nat) (allowZeroPrefix : Bool) (bound : Nat) :
    TextParser Nat := fun text =>
  let digits := text.takeWhile (isDigit radix)
  if digits = [] ∨ (∃ max ∈ maxDigits, max < digits.length) ∨
      (allowZeroPrefix = false ∧ digits.head? = some '0' ∧ 1 < digits.length) ∨
      bound ≤ digitsValue radix digits then none
  else some (digitsValue radix digits, text.dropWhile (isDigit radix))

/-! ## Printed digits -/

section Digits

variable {radix n d : Nat} {c : Char} {rest : List Char}

theorem toDigit_digitChar (hradix : radix ≤ 16) (hd : d < radix) :
    toDigit radix d.digitChar = some d := by
  have hall : ∀ radix ≤ 16, ∀ d < radix, toDigit radix d.digitChar = some d := by decide
  exact hall radix hradix d hd

theorem exists_digit_of_mem_toDigits (hradix : 1 < radix) (hc : c ∈ Nat.toDigits radix n) :
    ∃ d < radix, c = d.digitChar := by
  induction n using Nat.strongRecOn with
  | ind n ih =>
      rw [Nat.toDigits_eq_if hradix] at hc
      split at hc
      · rename_i hlt
        exact ⟨n, hlt, List.mem_singleton.1 hc⟩
      · rename_i hle
        rcases List.mem_append.1 hc with hinit | hlast
        · refine ih (n / radix) (Nat.div_lt_self ?_ hradix) hinit
          omega
        · exact ⟨n % radix, Nat.mod_lt _ (by omega), List.mem_singleton.1 hlast⟩

theorem isDigit_of_mem_toDigits (hradix : 1 < radix) (hle : radix ≤ 16)
    (hc : c ∈ Nat.toDigits radix n) : isDigit radix c = true := by
  rcases exists_digit_of_mem_toDigits hradix hc with ⟨d, hd, rfl⟩
  simp [isDigit, toDigit_digitChar hle hd]

theorem digitsValue_toDigits (hradix : 1 < radix) (hle : radix ≤ 16) :
    digitsValue radix (Nat.toDigits radix n) = n := by
  induction n using Nat.strongRecOn with
  | ind n ih =>
      rw [Nat.toDigits_eq_if hradix]
      split
      · rename_i hlt
        simp [digitsValue, toDigit_digitChar hle hlt]
      · rename_i hge
        have hinit := ih (n / radix) (Nat.div_lt_self (by omega) hradix)
        have hlast : toDigit radix (n % radix).digitChar = some (n % radix) :=
          toDigit_digitChar hle (Nat.mod_lt _ (by omega))
        unfold digitsValue at hinit ⊢
        rw [List.foldl_append, hinit]
        simp only [List.foldl_cons, List.foldl_nil, hlast, Option.getD_some]
        exact Nat.div_add_mod' n radix

/-- Only zero is printed with a leading zero. -/
theorem head?_toDigits (hradix : 1 < radix) (hle : radix ≤ 16) (hn : n ≠ 0) :
    (Nat.toDigits radix n).head? ≠ some '0' := by
  induction n using Nat.strongRecOn with
  | ind n ih =>
      rw [Nat.toDigits_eq_if hradix]
      split
      · rename_i hlt
        have hall : ∀ d < 16, d ≠ 0 → ¬ d.digitChar = '0' := by decide
        simpa using hall n (by omega) hn
      · rename_i hge
        have hhead := ih (n / radix) (Nat.div_lt_self (by omega) hradix)
          (Nat.ne_of_gt (Nat.div_pos (by omega) (by omega)))
        cases hdigits : Nat.toDigits radix (n / radix) with
        | nil => exact absurd hdigits Nat.toDigits_ne_nil
        | cons d ds => simpa [hdigits] using hhead

end Digits

/-! ## Round trip -/

/-- What follows a number does not start with a digit. -/
def NoDigitHead (radix : Nat) (rest : List Char) : Prop :=
  ∀ c ∈ rest.head?, isDigit radix c = false

section RoundTrip

variable {radix n bound : Nat} {rest : List Char}

theorem span_digits {digits : List Char} (hdigits : ∀ c ∈ digits, isDigit radix c = true)
    (hrest : NoDigitHead radix rest) :
    (digits ++ rest).takeWhile (isDigit radix) = digits ∧
      (digits ++ rest).dropWhile (isDigit radix) = rest := by
  rw [List.takeWhile_append_of_pos hdigits, List.dropWhile_append_of_pos hdigits]
  cases rest with
  | nil => simp
  | cons c rest =>
      have hc : isDigit radix c = false := hrest c rfl
      simp [hc]

/-- A printed number below the bound is read back. -/
theorem readNumber_toDigits (hradix : 1 < radix) (hle : radix ≤ 16) {maxDigits : Option Nat}
    {allowZeroPrefix : Bool} (hlength : ∀ max ∈ maxDigits, (Nat.toDigits radix n).length ≤ max)
    (hbound : n < bound) (hrest : NoDigitHead radix rest) :
    readNumber radix maxDigits allowZeroPrefix bound (Nat.toDigits radix n ++ rest) =
      some (n, rest) := by
  have hdigits : ∀ c ∈ Nat.toDigits radix n, isDigit radix c = true :=
    fun c hc => isDigit_of_mem_toDigits hradix hle hc
  have hspan := span_digits hdigits hrest
  unfold readNumber
  dsimp only
  rw [hspan.1, hspan.2, digitsValue_toDigits hradix hle]
  refine if_neg ?_
  rintro (hempty | ⟨max, hmax, hlong⟩ | ⟨_, hzero, hlong⟩ | hlarge)
  · exact Nat.toDigits_ne_nil hempty
  · exact absurd (hlength max hmax) (by omega)
  · -- Zero is a single digit.
    by_cases hn : n = 0
    · subst hn
      simp at hlong
    · exact head?_toDigits hradix hle hn hzero
  · omega

/-- What is left after a number is the text from the first character that is no digit. -/
theorem rest_of_readNumber {maxDigits : Option Nat} {allowZeroPrefix : Bool} {text : List Char}
    (h : readNumber radix maxDigits allowZeroPrefix bound text = some (n, rest)) :
    rest = text.dropWhile (isDigit radix) := by
  unfold readNumber at h
  dsimp only at h
  split at h
  · cases h
  · cases h
    rfl

end RoundTrip

end Foundations
