import Rapid.Net.Addresses
import Mathlib.Tactic.IntervalCases

/-!
# AddressText — a printed socket address is read back

`to_string` and `parse` of `std::net` for socket addresses. An IPv6 address is printed in brackets, and
the reader finds its way through all three forms of its text: eight groups, a run of zero groups that
`::` stands for, and the IPv4 part of a mapped address. Only the flow information is not printed.
-/

namespace Rapid

open Foundations

def SocketAddr.display : SocketAddr → List Char
  | v4 ip port => ip.display ++ ':' :: decimal port.toNat
  | v6 ip port _ scopeId =>
      '[' :: (ip.display ++ ((if scopeId = 0 then [] else '%' :: decimal scopeId.toNat) ++
        ']' :: ':' :: decimal port.toNat))

/-- What the text shows of an address. -/
def SocketAddr.shown : SocketAddr → SocketAddr
  | v4 ip port => v4 ip port
  | v6 ip port _ scopeId => v6 ip port 0 scopeId

/-! ## Where the groups end -/

/-- The groups end at a bracket, at a scope or at the `::`. -/
inductive EndsGroups : List Char → Prop
  | bracket (rest : List Char) : EndsGroups (']' :: rest)
  | scope (rest : List Char) : EndsGroups ('%' :: rest)
  | zeros (rest : List Char) : EndsGroups (':' :: ':' :: rest)

/-- A text goes on after a group: with the end of the groups, or with a separator. -/
def AfterGroup (rest : List Char) : Prop :=
  EndsGroups rest ∨ ∃ more, rest = ':' :: more

variable {rest text : List Char}

theorem AfterGroup.head (h : AfterGroup rest) :
    ∃ c more, rest = c :: more ∧ isDigit 16 c = false ∧ isDigit 10 c = false ∧ c ≠ '.' := by
  rcases h with hends | ⟨more, rfl⟩
  · cases hends with
    | bracket more => exact ⟨_, _, rfl, by decide, by decide, by decide⟩
    | scope more => exact ⟨_, _, rfl, by decide, by decide, by decide⟩
    | zeros more => exact ⟨_, _, rfl, by decide, by decide, by decide⟩
  · exact ⟨_, _, rfl, by decide, by decide, by decide⟩

theorem AfterGroup.noDigitHead (h : AfterGroup rest) : NoDigitHead 16 rest := by
  rcases h.head with ⟨c, more, rfl, hc, _⟩
  intro d hd
  cases hd
  exact hc

/-! ## One group -/

theorem readNumber_lowerHex (segment : UInt16) (hrest : NoDigitHead 16 rest) :
    readNumber 16 (some 4) true 65536 (lowerHex segment.toNat ++ rest) =
      some (segment.toNat, rest) := by
  have hlt : segment.toNat < 65536 := segment.toNat_lt
  refine readNumber_toDigits (by decide) (by decide) ?_ hlt hrest
  rintro max ⟨⟩
  exact (Nat.length_toDigits_le_iff (by decide) (by decide)).2 (by omega)

/-- A dot must follow the first number of an IPv4 address. -/
theorem readIpv4Addr_eq_none (h : (text.dropWhile (isDigit 10)).head? ≠ some '.') :
    readIpv4Addr text = none := by
  unfold readIpv4Addr
  cases hfirst : readSeparator '.' true readOctet text with
  | none => rfl
  | some first =>
      have hleft : first.2 = text.dropWhile (isDigit 10) := rest_of_readNumber (n := first.1) hfirst
      have hdot : readGivenChar '.' first.2 = none := by
        rw [hleft]
        cases htext : text.dropWhile (isDigit 10) with
        | nil => rfl
        | cons c more =>
            rw [htext] at h
            exact if_neg fun hc => h (congrArg some hc)
      simp [readSeparator, hdot]

/-- A group is no IPv4 address. -/
theorem readIpv4Addr_lowerHex (n : Nat) (hrest : AfterGroup rest) :
    readIpv4Addr (lowerHex n ++ rest) = none := by
  refine readIpv4Addr_eq_none ?_
  have hdigits : ∀ c ∈ lowerHex n, c ≠ '.' := fun c hc => (ne_of_mem_lowerHex hc).1
  generalize lowerHex n = digits at hdigits
  induction digits with
  | nil =>
      rcases hrest.head with ⟨c, more, rfl, _, hten, hdot⟩
      simpa [hten] using hdot
  | cons c digits ih =>
      cases hc : isDigit 10 c with
      | true => simpa [hc] using ih fun d hd => hdigits d (List.mem_cons_of_mem _ hd)
      | false => simpa [hc] using hdigits c List.mem_cons_self

/-! ## The groups -/

theorem readGroups_ends (h : EndsGroups rest) (left : Nat) (first : Bool) :
    readGroups left first rest = ([], false, rest) := by
  cases left with
  | zero => rfl
  | succ left =>
      have hv4 : readSeparator ':' first readIpv4Addr rest = none := by
        cases h <;> cases first <;> rfl
      have hgroup : readSeparator ':' first (readNumber 16 (some 4) true 65536) rest = none := by
        cases h <;> cases first <;> rfl
      simp only [readGroups, hv4, hgroup, ite_self]

/-- The text of groups that follow another one. -/
def groupsTail (segments : List UInt16) : List Char :=
  segments.flatMap fun segment => ':' :: lowerHex segment.toNat

theorem afterGroup_tail (h : EndsGroups rest) (segments : List UInt16) :
    AfterGroup (groupsTail segments ++ rest) := by
  cases segments with
  | nil => exact .inl h
  | cons segment segments => exact .inr ⟨_, rfl⟩

/-- One group is read, whether it stands first or follows a separator. -/
theorem readGroups_step (segment : UInt16) (hrest : AfterGroup rest) (left : Nat) (first : Bool) :
    readGroups (left + 1) first ((if first then [] else [':']) ++ (lowerHex segment.toNat ++ rest)) =
      (segment :: (readGroups left false rest).1, (readGroups left false rest).2) := by
  have hv4 : readIpv4Addr (lowerHex segment.toNat ++ rest) = none :=
    readIpv4Addr_lowerHex segment.toNat hrest
  have hgroup := readNumber_lowerHex segment hrest.noDigitHead
  have hsegment : segment.toNat.toUInt16 = segment := UInt16.ofNat_toNat
  cases first with
  | true => simp only [readGroups, readSeparator, if_true, List.nil_append, hv4, hgroup, ite_self,
      hsegment]
  | false =>
      simp only [readGroups, readSeparator, Bool.false_eq_true, if_false, List.cons_append,
        List.nil_append, readGivenChar, if_true, Option.bind_some, hv4, hgroup, ite_self, hsegment]

theorem readGroups_tail (h : EndsGroups rest) (segments : List UInt16) :
    ∀ left, segments.length ≤ left →
      readGroups left false (groupsTail segments ++ rest) = (segments, false, rest) := by
  induction segments with
  | nil => exact fun left _ => readGroups_ends h left false
  | cons segment segments ih =>
      intro left hleft
      cases left with
      | zero => exact absurd hleft (by simp)
      | succ left =>
          have hrest := ih left (Nat.le_of_succ_le_succ hleft)
          have hstep := readGroups_step segment (afterGroup_tail h segments) left false
          rw [hrest] at hstep
          simpa [groupsTail] using hstep

theorem readGroups_fmtSubslice (h : EndsGroups rest) (segments : List UInt16) {left : Nat}
    (hleft : segments.length ≤ left) :
    readGroups left true (Ipv6Addr.fmtSubslice segments ++ rest) = (segments, false, rest) := by
  cases segments with
  | nil => exact readGroups_ends h left true
  | cons segment segments =>
      cases left with
      | zero => exact absurd hleft (by simp)
      | succ left =>
          have hrest := readGroups_tail h segments left (Nat.le_of_succ_le_succ hleft)
          have hstep := readGroups_step segment (afterGroup_tail h segments) left true
          rw [hrest] at hstep
          simpa [Ipv6Addr.fmtSubslice, groupsTail] using hstep

/-! ## The run of zeros -/

/-- The span is a run of zeros in the segments. -/
def ZeroRun (segments : List UInt16) (span : Ipv6Addr.Span) : Prop :=
  ∃ before after, segments = before ++ List.replicate span.len 0 ++ after ∧
    before.length = span.start

/-- The span is the run of zeros that the segments end with. -/
def LastRun (segments : List UInt16) (span : Ipv6Addr.Span) : Prop :=
  span.len = 0 ∨ ∃ before, segments = before ++ List.replicate span.len 0 ∧
    before.length = span.start

variable {segments : List UInt16} {longest current : Ipv6Addr.Span}

theorem ZeroRun.append (h : ZeroRun segments longest) (more : List UInt16) :
    ZeroRun (segments ++ more) longest := by
  rcases h with ⟨before, after, rfl, hstart⟩
  exact ⟨before, after ++ more, by simp, hstart⟩

theorem LastRun.zeroRun (h : LastRun segments current) (hlen : current.len ≠ 0) :
    ZeroRun segments current := by
  rcases h with hzero | ⟨before, rfl, hstart⟩
  · exact absurd hzero hlen
  · exact ⟨before, [], by simp, hstart⟩

/-- One more zero. -/
theorem LastRun.extend (h : LastRun segments current) :
    LastRun (segments ++ [0])
      { start := if current.len = 0 then segments.length else current.start
        len := current.len + 1 } := by
  right
  by_cases hlen : current.len = 0
  · exact ⟨segments, by simp [hlen], by simp [hlen]⟩
  · rcases h with hzero | ⟨before, rfl, hstart⟩
    · exact absurd hzero hlen
    · exact ⟨before, by simp [List.replicate_succ'], by simp [hlen, hstart]⟩

theorem zeroSpan_run (more : List UInt16) :
    ∀ {segments : List UInt16} {longest current : Ipv6Addr.Span}, ZeroRun segments longest →
      LastRun segments current →
        ZeroRun (segments ++ more) (Ipv6Addr.zeroSpan more segments.length longest current) := by
  induction more with
  | nil =>
      intro segments longest current hlongest _
      simpa [Ipv6Addr.zeroSpan] using hlongest
  | cons segment more ih =>
      intro segments longest current hlongest hcurrent
      have happend : segments ++ segment :: more = (segments ++ [segment]) ++ more := by simp
      have hlength : (segments ++ [segment]).length = segments.length + 1 := by simp
      rw [happend, Ipv6Addr.zeroSpan, ← hlength]
      by_cases hsegment : segment = 0
      · subst hsegment
        have hextended := hcurrent.extend
        simp only [if_true]
        refine ih ?_ hextended
        split
        · exact hextended.zeroRun (Nat.succ_ne_zero _)
        · exact hlongest.append [0]
      · rw [if_neg hsegment]
        exact ih (hlongest.append [segment]) (.inl rfl)

/-! ## IPv6 addresses -/

theorem ofSegments_eq (ip : Ipv6Addr) : Ipv6Addr.ofSegments ip.segments = some ip :=
  dif_pos ip.length_eq

/-- All eight groups are written. -/
theorem readIpv6Addr_full {ip : Ipv6Addr} (h : readGroups 8 true text = (ip.segments, false, rest)) :
    readIpv6Addr text = some (ip, rest) := by
  unfold readIpv6Addr
  rw [h]
  simp [ip.length_eq, ofSegments_eq]

/-- A run of groups is left out. -/
theorem readIpv6Addr_zeros {ip : Ipv6Addr} {head tail : List UInt16} {n : Nat} {mapped : Bool}
    {more : List Char} (hsegments : ip.segments = head ++ List.replicate (n + 1) 0 ++ tail)
    (hhead : readGroups 8 true text = (head, false, ':' :: ':' :: more))
    (htail : readGroups (n + tail.length) true more = (tail, mapped, rest)) :
    readIpv6Addr text = some (ip, rest) := by
  have hlength := ip.length_eq
  rw [hsegments] at hlength
  simp only [List.length_append, List.length_replicate] at hlength
  have hleft : 8 - (head.length + 1) = n + tail.length := by omega
  have hzeros : 8 - head.length - tail.length = n + 1 := by omega
  have hnot : head.length ≠ 8 := by omega
  unfold readIpv6Addr
  rw [hhead]
  simp only [if_neg hnot, Bool.false_eq_true, if_false, readGivenChar, if_true, hleft, htail, hzeros,
    Option.bind_eq_bind, Option.bind_some, ← hsegments, ofSegments_eq]
  rfl

/-- A segment is put together from its two bytes. -/
theorem segment_of_bytes (segment : UInt16) :
    (segment >>> 8).toUInt8.toUInt16 <<< 8 ||| segment.toUInt8.toUInt16 = segment := by
  have hlt := segment.toNat_lt
  have hor := Nat.shiftLeft_add_eq_or_of_lt (i := 8) (b := segment.toNat % 256)
    (Nat.mod_lt _ (by decide)) (segment.toNat / 256)
  apply UInt16.toNat_inj.1
  simp [Nat.shiftRight_eq_div_pow, Nat.shiftLeft_eq] at hor ⊢
  rw [Nat.mod_eq_of_lt (by omega : segment.toNat / 256 < 256),
    Nat.mod_eq_of_lt (by omega : segment.toNat / 256 * 256 < 65536), ← hor]
  omega

theorem noDigitHead_ten (hrest : AfterGroup rest) : NoDigitHead 10 rest := by
  rcases hrest.head with ⟨c, more, rfl, _, hc, _⟩
  intro d hd
  cases hd
  exact hc

/-- The two groups that are written as an IPv4 address. -/
theorem readGroups_ipv4 (ipv4 : Ipv4Addr) (hrest : NoDigitHead 10 rest) (left : Nat) :
    readGroups (left + 2) false (':' :: (ipv4.display ++ rest)) =
      ([ipv4.a.toUInt16 <<< 8 ||| ipv4.b.toUInt16, ipv4.c.toUInt16 <<< 8 ||| ipv4.d.toUInt16],
        true, rest) := by
  have hv4 := readIpv4Addr_display ipv4 hrest
  simp only [readGroups, readSeparator, Bool.false_eq_true, if_false, readGivenChar, if_true,
    Option.bind_some, hv4, Nat.succ_pos]

theorem readIpv6Addr_mapped {ip : Ipv6Addr} {ipv4 : Ipv4Addr} (h : ip.toIpv4Mapped = some ipv4)
    (hrest : NoDigitHead 10 rest) : readIpv6Addr (ip.display ++ rest) = some (ip, rest) := by
  have hdisplay : ip.display =
      ':' :: ':' :: (lowerHex (0xffff : UInt16).toNat ++ ':' :: ipv4.display) := by
    unfold Ipv6Addr.display
    rw [h]
    rfl
  unfold Ipv6Addr.toIpv4Mapped at h
  split at h
  · rename_i ab cd hsegments
    have hsplit : ip.segments = [] ++ List.replicate (4 + 1) 0 ++ [0xffff, ab, cd] := hsegments
    have hafter : AfterGroup (':' :: (ipv4.display ++ rest)) := .inr ⟨_, rfl⟩
    have hgroup := readGroups_step 0xffff hafter 6 true
    rw [readGroups_ipv4 ipv4 hrest 4] at hgroup
    cases Option.some.inj h
    rw [segment_of_bytes, segment_of_bytes] at hgroup
    rw [hdisplay]
    exact readIpv6Addr_zeros hsplit (readGroups_ends (.zeros _) 8 true) hgroup
  · cases h

/-- A printed IPv6 address is read back. -/
theorem readIpv6Addr_display (ip : Ipv6Addr) (hrest : EndsGroups rest) :
    readIpv6Addr (ip.display ++ rest) = some (ip, rest) := by
  cases hmapped : ip.toIpv4Mapped with
  | some ipv4 => exact readIpv6Addr_mapped hmapped (noDigitHead_ten (.inl hrest))
  | none =>
      have hempty : ZeroRun [] ⟨0, 0⟩ := ⟨[], [], rfl, rfl⟩
      have hrun : ZeroRun ip.segments (Ipv6Addr.zeroSpan ip.segments 0 ⟨0, 0⟩ ⟨0, 0⟩) :=
        zeroSpan_run ip.segments hempty (.inl rfl)
      unfold Ipv6Addr.display
      rw [hmapped]
      dsimp only
      generalize Ipv6Addr.zeroSpan ip.segments 0 ⟨0, 0⟩ ⟨0, 0⟩ = zeroes at hrun
      split
      · rename_i hlen
        rcases hrun with ⟨before, after, hsegments, hstart⟩
        rcases Nat.exists_eq_add_of_le' (Nat.le_of_lt hlen) with ⟨n, hn⟩
        have hlength := ip.length_eq
        rw [hsegments, hn] at hlength
        simp only [List.length_append, List.length_replicate] at hlength
        have htake : ip.segments.take zeroes.start = before := by
          rw [hsegments, List.append_assoc, ← hstart, List.take_left]
        have hdrop : ip.segments.drop (zeroes.start + zeroes.len) = after := by
          rw [hsegments, ← hstart]
          refine List.drop_left' ?_
          simp
        rw [htake, hdrop, List.append_assoc, List.cons_append, List.cons_append]
        have hhead : before.length ≤ 8 := by omega
        have htail : after.length ≤ n + after.length := Nat.le_add_left _ _
        exact readIpv6Addr_zeros (hn ▸ hsegments) (readGroups_fmtSubslice (.zeros _) before hhead)
          (readGroups_fmtSubslice hrest after htail)
      · exact readIpv6Addr_full
          (readGroups_fmtSubslice hrest ip.segments (Nat.le_of_eq ip.length_eq))

/-! ## Socket addresses -/

/-- The scope is read, or there is none. -/
theorem readScopeId_display (scopeId : UInt32) (rest : List Char) :
    (readScopeId ((if scopeId = 0 then [] else '%' :: decimal scopeId.toNat) ++ ']' :: rest)).getD
        (0, (if scopeId = 0 then [] else '%' :: decimal scopeId.toNat) ++ ']' :: rest) =
      (scopeId, ']' :: rest) := by
  by_cases hzero : scopeId = 0
  · subst hzero
    rfl
  · have hlt : scopeId.toNat < 4294967296 := scopeId.toNat_lt
    have hread : readNumber 10 none true 4294967296 (decimal scopeId.toNat ++ ']' :: rest) =
        some (scopeId.toNat, ']' :: rest) :=
      readNumber_toDigits (by decide) (by decide) (by simp) hlt
        (noDigitHead_ten (.inl (.bracket rest)))
    have hscope : scopeId.toNat.toUInt32 = scopeId := UInt32.ofNat_toNat
    unfold readScopeId
    simp [hzero, readGivenChar, hread, hscope]

/-- A printed socket address is read back. -/
theorem parse_display (addr : SocketAddr) : SocketAddr.parse addr.display = some addr.shown := by
  cases addr with
  | v4 ip port => exact parse_ipv4 ip port
  | v6 ip port flowinfo scopeId =>
      have hends : EndsGroups ((if scopeId = 0 then [] else '%' :: decimal scopeId.toNat) ++
          ']' :: ':' :: decimal port.toNat) := by
        split
        · exact .bracket _
        · exact .scope _
      have hip := readIpv6Addr_display ip hends
      have hscope := readScopeId_display scopeId (':' :: decimal port.toNat)
      have hread : readSocketAddrV6 (SocketAddr.v6 ip port flowinfo scopeId).display =
          some (.v6 ip port 0 scopeId, []) := by
        unfold readSocketAddrV6 SocketAddr.display
        simp only [readGivenChar, if_true, Option.bind_eq_bind, Option.bind_some, hip, hscope,
          readPort_decimal]
        rfl
      have hv4 : readSocketAddrV4 (SocketAddr.v6 ip port flowinfo scopeId).display = none := rfl
      unfold SocketAddr.parse
      rw [hv4, hread]
      rfl

end Rapid
