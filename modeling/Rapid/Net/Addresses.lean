import Rapid.Net.SocketAddr
import Rapid.View.RingKeys
import Rapid.Xxh64Reference

/-!
# Addresses — endpoints and socket addresses

An endpoint carries the text of an IP address and a port. It is made from a listen address by
`endpoint_from_socket`, and turned back into a socket address by the same few lines in every module
that sends something: the host and the port are joined by a colon and parsed.

For IPv4 this gives the address back. The text of an IPv6 address has no brackets, so that joined with
a port it is no socket address, and the endpoint is dropped.
-/

namespace Rapid

open Foundations

/-! ## The conversions -/

/-- `String::from_utf8`. -/
def fromUtf8 (bytes : List UInt8) : Option String :=
  String.fromUTF8? ⟨bytes.toArray⟩

def intoBytes (text : String) : List UInt8 :=
  text.toUTF8.data.toList

/-- `u16::try_from`. -/
def u16TryFrom (n : Int32) : Option UInt16 :=
  if 0 ≤ n.toInt ∧ n.toInt < 65536 then some n.toInt.toNat.toUInt16 else none

/-- The text `host:port`. -/
def formatHostPort (host : String) (port : UInt16) : List Char :=
  host.toList ++ ':' :: decimal port.toNat

/-- The lines shared by all the conversions below. -/
def parseEndpoint (endpoint : Endpoint) : Option SocketAddr := do
  let host ← fromUtf8 endpoint.hostname
  let port ← u16TryFrom endpoint.port
  SocketAddr.parse (formatHostPort host port)

/-- `cluster_join.rs`. -/
def endpointToSocketAddr (endpoint : Endpoint) : Option SocketAddr :=
  parseEndpoint endpoint

/-- `cluster_join.rs`. -/
def endpointFromSocket (addr : SocketAddr) : Endpoint where
  hostname := intoBytes (String.ofList addr.ip.display)
  port := Int32.ofNat addr.port.toNat

/-- `consensus_dispatch.rs`. -/
def dispatchEndpointToSocketAddr (endpoint : Endpoint) : Option SocketAddr :=
  parseEndpoint endpoint

/-- `view_change.rs`. -/
def endpointsAsSocketAddrs (endpoints : List Endpoint) : List SocketAddr :=
  endpoints.filterMap parseEndpoint

/-- `bootstrap.rs`. -/
def endpointsToSocketAddrs (endpoints : List Endpoint) : List SocketAddr :=
  endpoints.filterMap parseEndpoint

/-! ## Text and ports survive -/

theorem fromUtf8_intoBytes (text : String) : fromUtf8 (intoBytes text) = some text := by
  unfold fromUtf8 intoBytes String.fromUTF8?
  exact dif_pos text.isValidUTF8

theorem u16TryFrom_ofNat (port : UInt16) : u16TryFrom (Int32.ofNat port.toNat) = some port := by
  have hlt : port.toNat < 65536 := port.toNat_lt
  have hint : (Int32.ofNat port.toNat).toInt = port.toNat := Int32.toInt_ofNat_of_lt (by omega)
  unfold u16TryFrom
  rw [hint, if_pos (by omega)]
  simp

theorem parseEndpoint_endpointFromSocket (addr : SocketAddr) :
    parseEndpoint (endpointFromSocket addr) =
      SocketAddr.parse (addr.ip.display ++ ':' :: decimal addr.port.toNat) := by
  unfold parseEndpoint endpointFromSocket
  simp [fromUtf8_intoBytes, u16TryFrom_ofNat, formatHostPort]

/-! ## IPv4 -/

section Ipv4

theorem noDigitHead_dot (rest : List Char) : NoDigitHead 10 ('.' :: rest) := by
  intro c hc
  cases hc
  decide

theorem noDigitHead_colon (rest : List Char) : NoDigitHead 10 (':' :: rest) := by
  intro c hc
  cases hc
  decide

theorem readOctet_decimal (n : UInt8) {rest : List Char} (hrest : NoDigitHead 10 rest) :
    readOctet (decimal n.toNat ++ rest) = some (n.toNat, rest) := by
  have hlt : n.toNat < 256 := n.toNat_lt
  refine readNumber_toDigits (by decide) (by decide) ?_ hlt hrest
  rintro max ⟨⟩
  exact (Nat.length_toDigits_le_iff (by decide) (by decide)).2 (by omega)

theorem readIpv4Addr_display (ip : Ipv4Addr) {rest : List Char} (hrest : NoDigitHead 10 rest) :
    readIpv4Addr (ip.display ++ rest) = some (ip, rest) := by
  have hdotted : ∀ (n : UInt8) (more : List Char),
      readOctet (decimal n.toNat ++ '.' :: more) = some (n.toNat, '.' :: more) :=
    fun n more => readOctet_decimal n (noDigitHead_dot more)
  unfold readIpv4Addr Ipv4Addr.display readSeparator
  simp only [List.append_assoc, List.cons_append, readGivenChar, if_true, Bool.false_eq_true, if_false,
    hdotted, Option.bind_eq_bind, Option.bind_some, readOctet_decimal ip.d hrest]
  simp

theorem readPort_decimal (port : UInt16) :
    readPort (':' :: decimal port.toNat) = some (port, []) := by
  have hlt : port.toNat < 65536 := port.toNat_lt
  have hend : NoDigitHead 10 [] := by
    intro c hc
    cases hc
  have hread : readNumber 10 none true 65536 (decimal port.toNat ++ []) = some (port.toNat, []) :=
    readNumber_toDigits (by decide) (by decide) (by simp) hlt hend
  rw [List.append_nil] at hread
  unfold readPort
  simp [readGivenChar, hread]

theorem parse_ipv4 (ip : Ipv4Addr) (port : UInt16) :
    SocketAddr.parse (ip.display ++ ':' :: decimal port.toNat) = some (.v4 ip port) := by
  have hread : readSocketAddrV4 (ip.display ++ ':' :: decimal port.toNat) = some (.v4 ip port, []) := by
    unfold readSocketAddrV4
    simp [readIpv4Addr_display ip (noDigitHead_colon _), readPort_decimal]
  unfold SocketAddr.parse
  rw [hread]
  rfl

end Ipv4

/-! ## IPv6 -/

section Ipv6

/-- The text up to the first colon is a group of hexadecimal digits, or empty. -/
def StartsWithGroup (text : List Char) : Prop :=
  ∃ group rest, text = group ++ ':' :: rest ∧ ∀ c ∈ group, c ≠ '.' ∧ c ≠ '['

theorem ne_of_mem_lowerHex {c : Char} {n : Nat} (hc : c ∈ lowerHex n) : c ≠ '.' ∧ c ≠ '[' := by
  rcases exists_digit_of_mem_toDigits (by decide) hc with ⟨d, hd, rfl⟩
  have hall : ∀ d < 16, Nat.digitChar d ≠ '.' ∧ Nat.digitChar d ≠ '[' := by decide
  exact hall d hd

/-- A run of segments that goes on, or is followed by a colon. -/
theorem startsWithGroup_fmtSubslice {segments : List UInt16} {rest : List Char}
    (h : 2 ≤ segments.length ∨ ∃ more, rest = ':' :: more) :
    StartsWithGroup (Ipv6Addr.fmtSubslice segments ++ rest) := by
  cases segments with
  | nil =>
      rcases h with hlong | ⟨more, rfl⟩
      · simp at hlong
      · exact ⟨[], more, rfl, by simp⟩
  | cons first tail =>
      refine ⟨lowerHex first.toNat, ?_⟩
      cases tail with
      | nil =>
          rcases h with hlong | ⟨more, rfl⟩
          · simp at hlong
          · exact ⟨more, by simp [Ipv6Addr.fmtSubslice], fun c hc => ne_of_mem_lowerHex hc⟩
      | cons second tail =>
          exact ⟨_, by simp [Ipv6Addr.fmtSubslice]; rfl, fun c hc => ne_of_mem_lowerHex hc⟩

/-- Every text of an IPv6 address has that form, whatever follows. -/
theorem startsWithGroup_display (ip : Ipv6Addr) (rest : List Char) :
    StartsWithGroup (ip.display ++ rest) := by
  unfold Ipv6Addr.display
  split
  · -- IPv4-mapped addresses start with the colons themselves.
    exact ⟨[], _, rfl, by simp⟩
  · dsimp only
    split
    · rw [List.append_assoc]
      exact startsWithGroup_fmtSubslice (Or.inr ⟨_, rfl⟩)
    · refine startsWithGroup_fmtSubslice (Or.inl ?_)
      rw [ip.length_eq]
      decide

/-- Skipping digits stays within the group. -/
theorem StartsWithGroup.dropWhile {text : List Char} (h : StartsWithGroup text) {p : Char → Bool}
    (hcolon : p ':' = false) : StartsWithGroup (text.dropWhile p) := by
  rcases h with ⟨group, rest, rfl, hgroup⟩
  induction group with
  | nil => exact ⟨[], rest, by simp [hcolon], by simp⟩
  | cons c group ih =>
      cases hc : p c with
      | true => simpa [hc] using ih fun d hd => hgroup d (List.mem_cons_of_mem _ hd)
      | false => exact ⟨c :: group, rest, by simp [hc], hgroup⟩

/-- Neither a dot nor a bracket comes first. -/
theorem StartsWithGroup.readGivenChar {text : List Char} (h : StartsWithGroup text) {c : Char}
    (hc : c = '.' ∨ c = '[') : readGivenChar c text = none := by
  rcases h with ⟨group, rest, rfl, hgroup⟩
  cases group with
  | nil => rcases hc with rfl | rfl <;> rfl
  | cons d group =>
      have hd := hgroup d (List.mem_cons_self ..)
      rcases hc with rfl | rfl
      · exact if_neg hd.1
      · exact if_neg hd.2

/-- After the first number of such a text comes no dot. -/
theorem readIpv4Addr_of_group {text : List Char} (h : StartsWithGroup text) :
    readIpv4Addr text = none := by
  unfold readIpv4Addr
  cases hfirst : readSeparator '.' true readOctet text with
  | none => rfl
  | some first =>
      have hleft : first.2 = text.dropWhile (isDigit 10) :=
        rest_of_readNumber (n := first.1) hfirst
      have hdot : readGivenChar '.' first.2 = none := by
        rw [hleft]
        exact (h.dropWhile (by decide)).readGivenChar (Or.inl rfl)
      simp [readSeparator, hdot]

theorem parse_of_group {text : List Char} (h : StartsWithGroup text) :
    SocketAddr.parse text = none := by
  have hv4 : readSocketAddrV4 text = none := by
    unfold readSocketAddrV4
    rw [readIpv4Addr_of_group h]
    rfl
  have hv6 : readSocketAddrV6 text = none := by
    unfold readSocketAddrV6
    rw [h.readGivenChar (Or.inr rfl)]
    rfl
  unfold SocketAddr.parse
  rw [hv4, hv6]
  rfl

end Ipv6

/-! ## Which addresses come back -/

/-- Parsing what was made from a listen address. -/
theorem parseEndpoint_eq (addr : SocketAddr) :
    parseEndpoint (endpointFromSocket addr) = if addr.isIpv4 then some addr else none := by
  rw [parseEndpoint_endpointFromSocket]
  cases addr with
  | v4 ip port => exact parse_ipv4 ip port
  | v6 ip port flowinfo scopeId => exact parse_of_group (startsWithGroup_display ip _)

theorem endpointToSocketAddr_iff (addr : SocketAddr) :
    endpointToSocketAddr (endpointFromSocket addr) = some addr ↔ addr.isIpv4 = true := by
  unfold endpointToSocketAddr
  rw [parseEndpoint_eq]
  cases addr.isIpv4 with
  | true => simp
  | false => simp

section Recipients

variable {members : List Endpoint} {listen : Endpoint → SocketAddr}

/-- Of members that are made from listen addresses those with an IPv4 address are kept. -/
theorem endpointsAsSocketAddrs_eq (hlisten : ∀ e ∈ members, endpointFromSocket (listen e) = e) :
    endpointsAsSocketAddrs members = (members.map listen).filter SocketAddr.isIpv4 := by
  unfold endpointsAsSocketAddrs
  induction members with
  | nil => rfl
  | cons e members ih =>
      have hrest := ih fun x hx => hlisten x (List.mem_cons_of_mem _ hx)
      have hparse : parseEndpoint e = if (listen e).isIpv4 then some (listen e) else none := by
        rw [← parseEndpoint_eq, hlisten e (List.mem_cons_self ..)]
      cases hv4 : (listen e).isIpv4 with
      | true => simp [hparse, hv4, hrest]
      | false => simp [hparse, hv4, hrest]

/-- The recipients are the addresses of all members, once each, exactly if these are all IPv4. -/
theorem recipients_complete_iff (hnodup : members.Nodup)
    (hlisten : ∀ e ∈ members, endpointFromSocket (listen e) = e) :
    (∀ e ∈ members, (endpointsAsSocketAddrs members).count (listen e) = 1) ↔
      ∀ e ∈ members, (listen e).isIpv4 = true := by
  rw [endpointsAsSocketAddrs_eq hlisten]
  have haddresses : (members.map listen).Nodup := by
    refine List.Nodup.map_on (fun x hx y hy heq => ?_) hnodup
    rw [← hlisten x hx, ← hlisten y hy, heq]
  constructor
  · intro hcount e he
    have hmem : listen e ∈ (members.map listen).filter SocketAddr.isIpv4 :=
      List.count_pos_iff.1 (by rw [hcount e he]; decide)
    exact (List.mem_filter.1 hmem).2
  · intro hipv4 e he
    refine List.count_eq_one_of_mem (haddresses.filter _) ?_
    exact List.mem_filter.2 ⟨List.mem_map_of_mem he, hipv4 e he⟩

end Recipients

/-- The law on addresses, and what follows for the recipients that the broadcaster gets from the member
list of a view: both hold for IPv4 only. -/
theorem addresses_inverse_iff [Xxh64] {v : MembershipView} (hreach : anyViewSystem.Reachable v)
    {listen : Endpoint → SocketAddr}
    (hlisten : ∀ e ∈ v.ringZero.ordered, endpointFromSocket (listen e) = e) :
    (∀ addr, endpointToSocketAddr (endpointFromSocket addr) = some addr ↔ addr.isIpv4 = true) ∧
      ((∀ e ∈ v.ringZero.ordered,
          (endpointsAsSocketAddrs v.ringZero.ordered).count (listen e) = 1) ↔
        ∀ e ∈ v.ringZero.ordered, (listen e).isIpv4 = true) :=
  ⟨endpointToSocketAddr_iff,
    recipients_complete_iff (MembershipView.WellKept.reaches hreach).nodup_ringZero hlisten⟩

section Sample

attribute [local instance] xxh64Reference

def loopback6 : SocketAddr :=
  .v6 ⟨[0, 0, 0, 0, 0, 0, 0, 1], rfl⟩ 9000 0 0

def loopback4 : SocketAddr :=
  .v4 ⟨127, 0, 0, 1⟩ 9000

theorem loopback6_lost : endpointToSocketAddr (endpointFromSocket loopback6) ≠ some loopback6 := by
  rw [ne_eq, endpointToSocketAddr_iff]
  decide

/-- A second member on the same host. -/
def neighbour4 : SocketAddr :=
  .v4 ⟨127, 0, 0, 1⟩ 9001

def loopback4View : Option MembershipView :=
  (MembershipView.bootstrap 1 []
    [endpointFromSocket loopback4, endpointFromSocket neighbour4]).toOption

/-- Where the members of that view listen. -/
def loopback4Listen (e : Endpoint) : SocketAddr :=
  if e = endpointFromSocket loopback4 then loopback4 else neighbour4

theorem loopback4_reached :
    ∃ v, loopback4View = some v ∧
      v.ringZero.ordered = [endpointFromSocket neighbour4, endpointFromSocket loopback4] ∧
      ∀ e ∈ v.ringZero.ordered,
        (endpointsAsSocketAddrs v.ringZero.ordered).count (loopback4Listen e) = 1 := by
  have hmembers : loopback4View.map (fun v => v.ringZero.ordered) =
      some [endpointFromSocket neighbour4, endpointFromSocket loopback4] := by
    decide +kernel
  have hdistinct : endpointFromSocket neighbour4 ≠ endpointFromSocket loopback4 := by
    decide +kernel
  rcases Option.map_eq_some_iff.1 hmembers with ⟨v, hv, hordered⟩
  have hreach : anyViewSystem.Reachable v :=
    .start (Or.inr ⟨1, [], [endpointFromSocket loopback4, endpointFromSocket neighbour4],
      eq_ok_of_toOption hv⟩)
  have hlisten : ∀ e ∈ v.ringZero.ordered,
      endpointFromSocket (loopback4Listen e) = e ∧ (loopback4Listen e).isIpv4 = true := by
    intro e he
    simp only [hordered, List.mem_cons, List.not_mem_nil, or_false] at he
    rcases he with rfl | rfl
    · simp only [loopback4Listen, if_neg hdistinct]
      exact ⟨trivial, rfl⟩
    · simp only [loopback4Listen, if_true]
      exact ⟨trivial, rfl⟩
  have hlaw := addresses_inverse_iff hreach fun e he => (hlisten e he).1
  exact ⟨v, hv, hordered, hlaw.2.2 fun e he => (hlisten e he).2⟩

end Sample

end Rapid
