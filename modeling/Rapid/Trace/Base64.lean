import Rapid.Foundations.Sextets
import Mathlib.Data.List.TakeDrop

/-!
# Base64 — the payload text of a trace record, `ndjson.rs`

Three bytes are written as four characters of the alphabet; `=` fills up the last group. The reader
ignores `=` and ASCII white space wherever they stand, so it accepts more texts than the writer makes,
and of the last digit it uses only the bits that belong to a byte.
-/

namespace Rapid

open Foundations

/-! ## The code -/

/-- `ALPHABET`. -/
def base64Alphabet : List Char :=
  "ABCDEFGHIJKLMNOPQRSTUVWXYZabcdefghijklmnopqrstuvwxyz0123456789+/".toList

/-- `ALPHABET[v as usize] as char`; the index is below 64 wherever this is called. -/
def alphabetChar (v : UInt8) : Char :=
  base64Alphabet.getD v.toNat '='

/-- One turn of the loop over `bytes.chunks(3)`. -/
def encodeChunk (chunk : List UInt8) : List Char :=
  let b0 := chunk.getD 0 0
  let b1 := chunk.getD 1 0
  let b2 := chunk.getD 2 0
  [alphabetChar (b0 >>> 2), alphabetChar ((b0 &&& 0x03) <<< 4 ||| b1 >>> 4),
    if 1 < chunk.length then alphabetChar ((b1 &&& 0x0F) <<< 2 ||| b2 >>> 6) else '=',
    if 2 < chunk.length then alphabetChar (b2 &&& 0x3F) else '=']

def base64Encode : List UInt8 → List Char
  | b0 :: b1 :: b2 :: rest => encodeChunk [b0, b1, b2] ++ base64Encode rest
  | [] => []
  | chunk => encodeChunk chunk

/-- `str::bytes`. -/
def utf8Bytes (text : List Char) : List UInt8 :=
  text.flatMap String.utf8EncodeChar

/-- `u8::is_ascii_whitespace`. -/
def isAsciiWhitespace (b : UInt8) : Bool :=
  b = 0x20 || b = 0x09 || b = 0x0A || b = 0x0C || b = 0x0D

/-- The entry of `table`: the position in the alphabet, or 255. -/
def decodeTable (b : UInt8) : UInt8 :=
  ((base64Alphabet.idxOf? (Char.ofNat b.toNat)).map Nat.toUInt8).getD 255

def decodeDigit (b : UInt8) : Option UInt8 :=
  if decodeTable b = 255 then none else some (decodeTable b)

/-- One turn of the loop over the chunks of four: `buf` holds the digits of the chunk. -/
def decodeChunk (chunk : List UInt8) : Option (List UInt8) := do
  let buf ← chunk.mapM decodeDigit
  let v := fun i => buf.getD i 0
  return (if 2 ≤ chunk.length then [v 0 <<< 2 ||| v 1 >>> 4] else []) ++
    (if 3 ≤ chunk.length then [v 1 <<< 4 ||| v 2 >>> 2] else []) ++
      if 4 ≤ chunk.length then [v 2 <<< 6 ||| v 3] else []

def decodeChunks : List UInt8 → Option (List UInt8)
  | b0 :: b1 :: b2 :: b3 :: rest => do
      let decoded ← decodeChunk [b0, b1, b2, b3]
      return decoded ++ (← decodeChunks rest)
  | [] => some []
  | chunk => decodeChunk chunk

/-- The bytes that count. -/
def significant (text : List Char) : List UInt8 :=
  (utf8Bytes text).filter fun b => b != 0x3D && !isAsciiWhitespace b

def base64Decode (s : List Char) : Option (List UInt8) :=
  let bytes := significant s
  if bytes.length % 4 = 1 then none else decodeChunks bytes

/-! ## Digits -/

/-- The byte of a digit. -/
def alphabetByte (v : UInt8) : UInt8 :=
  (alphabetChar v).toNat.toUInt8

variable {v b : UInt8} {bytes digits : List UInt8} {text : List Char}

/-- What holds of the 64 digits. -/
theorem forall_digit {p : UInt8 → Prop} (h : ∀ n < 64, p n.toUInt8) (hv : v < 64) : p v := by
  have hdigit := h v.toNat (UInt8.lt_iff_toNat_lt.1 hv)
  rwa [show v.toNat.toUInt8 = v from UInt8.ofNat_toNat] at hdigit

theorem utf8EncodeChar_alphabetChar (hv : v < 64) :
    String.utf8EncodeChar (alphabetChar v) = [alphabetByte v] :=
  forall_digit (p := fun v => String.utf8EncodeChar (alphabetChar v) = [alphabetByte v])
    (by decide +kernel) hv

theorem decodeDigit_alphabetByte (hv : v < 64) : decodeDigit (alphabetByte v) = some v :=
  forall_digit (p := fun v => decodeDigit (alphabetByte v) = some v) (by decide +kernel) hv

/-- The reader skips no digit. -/
theorem alphabetByte_counts (hv : v < 64) :
    alphabetByte v ≠ 0x3D ∧ isAsciiWhitespace (alphabetByte v) = false :=
  forall_digit
    (p := fun v => alphabetByte v ≠ 0x3D ∧ isAsciiWhitespace (alphabetByte v) = false)
    (by decide +kernel) hv

theorem alphabetChar_quotable (hv : v < 64) : alphabetChar v ≠ '"' ∧ alphabetChar v ≠ '\n' :=
  forall_digit (p := fun v => alphabetChar v ≠ '"' ∧ alphabetChar v ≠ '\n') (by decide +kernel) hv

/-- A byte that has a digit is the byte of that digit. -/
theorem decodeDigit_eq_some (h : decodeDigit b = some v) : v < 64 ∧ b = alphabetByte v := by
  have hall : ∀ n < 256, ∀ v ∈ decodeDigit n.toUInt8, v < 64 ∧ n.toUInt8 = alphabetByte v := by
    decide +kernel
  have hb := hall b.toNat b.toNat_lt
  rw [show b.toNat.toUInt8 = b from UInt8.ofNat_toNat] at hb
  exact hb v h

theorem mapM_decodeDigit (hlt : ∀ d ∈ digits, d < 64) :
    (digits.map alphabetByte).mapM decodeDigit = some digits := by
  induction digits with
  | nil => rfl
  | cons d digits ih =>
      have hfirst := decodeDigit_alphabetByte (hlt d List.mem_cons_self)
      have hrest := ih fun x hx => hlt x (List.mem_cons_of_mem _ hx)
      simp [hfirst, hrest]

theorem of_mapM_decodeDigit (h : bytes.mapM decodeDigit = some digits) :
    (∀ d ∈ digits, d < 64) ∧ bytes = digits.map alphabetByte := by
  induction bytes generalizing digits with
  | nil =>
      cases h
      simp
  | cons b bytes ih =>
      simp only [List.mapM_cons, Option.bind_eq_bind, Option.pure_def, Option.bind_eq_some_iff,
        Option.some.injEq] at h
      rcases h with ⟨d, hd, rest, hrest, rfl⟩
      rcases ih hrest with ⟨hlt, hbytes⟩
      rcases decodeDigit_eq_some hd with ⟨hdlt, hb⟩
      refine ⟨by simpa [hdlt] using hlt, ?_⟩
      rw [List.map_cons, ← hb, ← hbytes]

/-! ## The writer packs -/

theorem utf8Bytes_append (text more : List Char) :
    utf8Bytes (text ++ more) = utf8Bytes text ++ utf8Bytes more :=
  List.flatMap_append

theorem significant_append (text more : List Char) :
    significant (text ++ more) = significant text ++ significant more := by
  unfold significant
  rw [utf8Bytes_append, List.filter_append]

theorem significant_digits (hlt : ∀ d ∈ digits, d < 64) :
    significant (digits.map alphabetChar) = digits.map alphabetByte := by
  induction digits with
  | nil => rfl
  | cons d digits ih =>
      have hd := hlt d List.mem_cons_self
      have hrest := ih fun x hx => hlt x (List.mem_cons_of_mem _ hx)
      have hcounts := alphabetByte_counts hd
      have hfirst : significant [alphabetChar d] = [alphabetByte d] := by
        simp [significant, utf8Bytes, utf8EncodeChar_alphabetChar hd, hcounts]
      rw [List.map_cons, List.map_cons, ← List.singleton_append, significant_append, hfirst, hrest]
      rfl

theorem significant_padding (n : Nat) : significant (List.replicate n '=') = [] := by
  have hpad : significant ['='] = [] := by decide +kernel
  induction n with
  | zero => rfl
  | succ n ih => rw [List.replicate_succ, ← List.singleton_append, significant_append, hpad, ih]; rfl

/-- What is written: the digits and the padding. -/
theorem base64Encode_eq (bytes : List UInt8) :
    ∃ n, base64Encode bytes = (pack bytes).map alphabetChar ++ List.replicate n '=' := by
  fun_induction base64Encode bytes with
  | case1 b0 b1 b2 rest ih =>
      rcases ih with ⟨n, hrest⟩
      refine ⟨n, ?_⟩
      rw [hrest]
      simp [encodeChunk, pack]
  | case2 => exact ⟨0, rfl⟩
  | case3 chunk hthree hnil =>
      cases chunk with
      | nil => exact absurd rfl hnil
      | cons b0 rest =>
          cases rest with
          | nil => exact ⟨2, by simp [encodeChunk, pack]⟩
          | cons b1 rest =>
              cases rest with
              | nil => exact ⟨1, by simp [encodeChunk, pack]⟩
              | cons b2 rest => exact absurd rfl (hthree b0 b1 b2 rest)

theorem significant_base64Encode (bytes : List UInt8) :
    significant (base64Encode bytes) = (pack bytes).map alphabetByte := by
  rcases base64Encode_eq bytes with ⟨n, heq⟩
  rw [heq, significant_append, significant_digits (sextets_pack bytes).lt, significant_padding,
    List.append_nil]

/-! ## The reader unpacks -/

theorem decodeChunks_digits (hlt : ∀ d ∈ digits, d < 64) :
    decodeChunks (digits.map alphabetByte) = some (unpack digits) := by
  fun_induction unpack digits with
  | case1 d0 d1 d2 d3 rest ih =>
      simp only [List.mem_cons, forall_eq_or_imp] at hlt
      rcases hlt with ⟨h0, h1, h2, h3, hrest⟩
      have hfour : ∀ d ∈ [d0, d1, d2, d3], d < 64 := by simp [h0, h1, h2, h3]
      have hchunk := mapM_decodeDigit hfour
      have htail := ih hrest
      simp only [List.map_cons, List.map_nil] at hchunk
      simp only [List.map_cons, decodeChunks, decodeChunk, hchunk, htail]
      rfl
  | case2 d0 d1 d2 =>
      have hchunk := mapM_decodeDigit hlt
      simp only [List.map_cons, List.map_nil] at hchunk
      simp only [List.map_cons, List.map_nil, decodeChunks, decodeChunk, hchunk]
      rfl
  | case3 d0 d1 =>
      have hchunk := mapM_decodeDigit hlt
      simp only [List.map_cons, List.map_nil] at hchunk
      simp only [List.map_cons, List.map_nil, decodeChunks, decodeChunk, hchunk]
      rfl
  | case4 digits hfour hthree htwo =>
      cases digits with
      | nil => rfl
      | cons d0 rest =>
          cases rest with
          | nil =>
              have hchunk := mapM_decodeDigit hlt
              simp only [List.map_cons, List.map_nil] at hchunk
              simp only [List.map_cons, List.map_nil, decodeChunks, decodeChunk, hchunk]
              rfl
          | cons d1 rest =>
              cases rest with
              | nil => exact absurd rfl (htwo d0 d1)
              | cons d2 rest =>
                  cases rest with
                  | nil => exact absurd rfl (hthree d0 d1 d2)
                  | cons d3 rest => exact absurd rfl (hfour d0 d1 d2 d3 rest)

/-- What the reader decodes are digits. -/
theorem digits_of_decodeChunks (h : decodeChunks bytes = some digits) :
    ∃ ds : List UInt8, (∀ d ∈ ds, d < 64) ∧ bytes = ds.map alphabetByte := by
  have hchunk : ∀ {chunk out : List UInt8}, decodeChunk chunk = some out →
      ∃ ds : List UInt8, (∀ d ∈ ds, d < 64) ∧ chunk = ds.map alphabetByte := by
    intro chunk out hout
    unfold decodeChunk at hout
    rcases Option.bind_eq_some_iff.1 hout with ⟨buf, hbuf, _⟩
    exact ⟨buf, of_mapM_decodeDigit hbuf⟩
  fun_induction decodeChunks bytes generalizing digits with
  | case1 b0 b1 b2 b3 rest ih =>
      rcases Option.bind_eq_some_iff.1 h with ⟨first, hfirst, hmore⟩
      rcases Option.bind_eq_some_iff.1 hmore with ⟨more, hrest, _⟩
      rcases hchunk hfirst with ⟨ds, hlt, heq⟩
      rcases ih hrest with ⟨es, hlt', rfl⟩
      refine ⟨ds ++ es, ?_, ?_⟩
      · intro d hd
        exact (List.mem_append.1 hd).elim (hlt d) (hlt' d)
      · rw [List.map_append, ← heq]
        rfl
  | case2 => exact ⟨[], by simp⟩
  | case3 chunk => exact hchunk h

/-- Exactly the texts whose significant bytes are digits are decoded, to the bytes of the digits. -/
theorem base64Decode_iff : base64Decode text = some bytes ↔
    ∃ digits, Sextets digits ∧ significant text = digits.map alphabetByte ∧ unpack digits = bytes := by
  unfold base64Decode
  dsimp only
  constructor
  · intro h
    split at h
    · cases h
    · rename_i hlength
      rcases digits_of_decodeChunks h with ⟨digits, hlt, heq⟩
      rw [heq, decodeChunks_digits hlt] at h
      rw [heq, List.length_map] at hlength
      exact ⟨digits, ⟨hlt, hlength⟩, heq, Option.some.inj h⟩
  · rintro ⟨digits, hdigits, heq, rfl⟩
    rw [heq, List.length_map, if_neg hdigits.length, decodeChunks_digits hdigits.lt]

theorem base64Decode_encode (bytes : List UInt8) : base64Decode (base64Encode bytes) = some bytes :=
  base64Decode_iff.2 ⟨pack bytes, sextets_pack bytes, significant_base64Encode bytes,
    unpack_pack bytes⟩

/-! ## The law -/

/-- What was written is read back, and a text is read as these bytes exactly if it consists of digits,
apart from `=` and white space, and the bytes are written with the same digits once the unused bits are
cleared. -/
theorem base64_exact (bytes : List UInt8) (text : List Char) :
    base64Decode (base64Encode bytes) = some bytes ∧
      (base64Decode text = some bytes ↔
        ∃ digits, Sextets digits ∧ significant text = digits.map alphabetByte ∧
          significant (base64Encode bytes) = (settle digits).map alphabetByte) := by
  refine ⟨base64Decode_encode bytes, base64Decode_iff.trans ?_⟩
  constructor
  · rintro ⟨digits, hdigits, heq, rfl⟩
    refine ⟨digits, hdigits, heq, ?_⟩
    rw [significant_base64Encode, pack_unpack hdigits]
  · rintro ⟨digits, hdigits, heq, hwritten⟩
    refine ⟨digits, hdigits, heq, ?_⟩
    -- The cleared digits are decoded like the text, and they are what the bytes are written with.
    have hcleared : Sextets (settle digits) := pack_unpack hdigits ▸ sextets_pack (unpack digits)
    have hread : base64Decode (base64Encode bytes) = some (unpack (settle digits)) :=
      base64Decode_iff.2 ⟨settle digits, hcleared, hwritten, rfl⟩
    rw [base64Decode_encode, unpack_settle hdigits] at hread
    exact (Option.some.inj hread).symm

/-- The unused bits of the last digit are ignored, so is a missing `=`. -/
example :
    base64Encode [104, 105] = "aGk=".toList ∧ base64Decode "a
Gl".toList = some [104, 105] ∧
      base64Decode "aGk=A".toList = some [104, 105, 0] := by
  decide +kernel

end Rapid
