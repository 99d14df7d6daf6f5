import Rapid.Foundations.NumberText
import Mathlib.Data.List.TakeDrop

/-!
# SocketAddr — IP and socket addresses and their text forms

`std::net` as far as the repository uses it: the text of an `IpAddr` (`to_string`) and the socket
address of a text (`parse`).

* IPv4 is four decimal numbers with dots;
* IPv6 is eight hexadecimal groups with colons, the first of the longest runs of zero groups written
  `::`, and IPv4-mapped addresses with their IPv4 part in decimal;
* a socket address is `ip:port` for IPv4 and `[ip]:port` for IPv6, possibly with a scope.
-/

namespace Rapid

open Foundations

structure Ipv4Addr where
  a : UInt8
  b : UInt8
  c : UInt8
  d : UInt8
  deriving DecidableEq, Repr

/-- The eight segments. -/
structure Ipv6Addr where
  segments : List UInt16
  length_eq : segments.length = 8
  deriving DecidableEq

inductive IpAddr
  | v4 (ip : Ipv4Addr)
  | v6 (ip : Ipv6Addr)
  deriving DecidableEq

inductive SocketAddr
  | v4 (ip : Ipv4Addr) (port : UInt16)
  | v6 (ip : Ipv6Addr) (port : UInt16) (flowinfo scopeId : UInt32)
  deriving DecidableEq

namespace SocketAddr

def ip : SocketAddr → IpAddr
  | v4 ip _ => .v4 ip
  | v6 ip _ _ _ => .v6 ip

def port : SocketAddr → UInt16
  | v4 _ port => port
  | v6 _ port _ _ => port

def isIpv4 : SocketAddr → Bool
  | v4 _ _ => true
  | v6 _ _ _ _ => false

end SocketAddr

/-! ## Display -/

def decimal (n : Nat) : List Char :=
  Nat.toDigits 10 n

def lowerHex (n : Nat) : List Char :=
  Nat.toDigits 16 n

def Ipv4Addr.display (ip : Ipv4Addr) : List Char :=
  decimal ip.a.toNat ++ '.' :: (decimal ip.b.toNat ++ '.' :: (decimal ip.c.toNat ++ '.' ::
    decimal ip.d.toNat))

namespace Ipv6Addr

/-- The IPv4 address of `::ffff:a.b.c.d`. -/
def toIpv4Mapped (ip : Ipv6Addr) : Option Ipv4Addr :=
  match ip.segments with
  | [0, 0, 0, 0, 0, 0xffff, ab, cd] =>
      some ⟨(ab >>> 8).toUInt8, ab.toUInt8, (cd >>> 8).toUInt8, cd.toUInt8⟩
  | _ => none

structure Span where
  start : Nat
  len : Nat
  deriving DecidableEq

/-- The loop over the segments: the run of zeros that ends here, and the longest one so far. -/
def zeroSpan : List UInt16 → (i : Nat) → (longest current : Span) → Span
  | [], _, longest, _ => longest
  | segment :: segments, i, longest, current =>
      if segment = 0 then
        let current : Span :=
          { start := if current.len = 0 then i else current.start, len := current.len + 1 }
        zeroSpan segments (i + 1) (if current.len > longest.len then current else longest) current
      else zeroSpan segments (i + 1) longest ⟨0, 0⟩

def fmtSubslice : List UInt16 → List Char
  | [] => []
  | first :: tail =>
      lowerHex first.toNat ++ tail.flatMap fun segment => ':' :: lowerHex segment.toNat

def display (ip : Ipv6Addr) : List Char :=
  match ip.toIpv4Mapped with
  | some ipv4 => "::ffff:".toList ++ ipv4.display
  | none =>
      let zeroes := zeroSpan ip.segments 0 ⟨0, 0⟩ ⟨0, 0⟩
      if zeroes.len > 1 then
        fmtSubslice (ip.segments.take zeroes.start) ++ ':' :: ':' ::
          fmtSubslice (ip.segments.drop (zeroes.start + zeroes.len))
      else fmtSubslice ip.segments

end Ipv6Addr

def IpAddr.display : IpAddr → List Char
  | v4 ip => ip.display
  | v6 ip => ip.display

/-! ## Parsing -/

/-- The separator stands before every part but the first. -/
def readSeparator {α : Type} (separator : Char) (first : Bool) (inner : TextParser α) : TextParser α :=
  fun text => if first then inner text else (readGivenChar separator text).bind fun r => inner r.2

/-- An octet: at most three digits and no leading zero. -/
def readOctet : TextParser Nat :=
  readNumber 10 (some 3) false 256

def readIpv4Addr : TextParser Ipv4Addr := fun text => do
  let (a, text) ← readSeparator '.' true readOctet text
  let (b, text) ← readSeparator '.' false readOctet text
  let (c, text) ← readSeparator '.' false readOctet text
  let (d, text) ← readSeparator '.' false readOctet text
  return (⟨a.toUInt8, b.toUInt8, c.toUInt8, d.toUInt8⟩, text)

/-- The groups of `read_groups`, whether the last two come from an IPv4 address, and the rest; `left`
groups may still follow. -/
def readGroups : (left : Nat) → (first : Bool) → List Char → List UInt16 × Bool × List Char
  | 0, _, text => ([], false, text)
  | left + 1, first, text =>
      match if 0 < left then readSeparator ':' first readIpv4Addr text else none with
      | some (ip, rest) =>
          ([ip.a.toUInt16 <<< 8 ||| ip.b.toUInt16, ip.c.toUInt16 <<< 8 ||| ip.d.toUInt16], true, rest)
      | none =>
          match readSeparator ':' first (readNumber 16 (some 4) true 65536) text with
          | some (group, rest) =>
              let tail := readGroups left false rest
              (group.toUInt16 :: tail.1, tail.2)
          | none => ([], false, text)

def Ipv6Addr.ofSegments (segments : List UInt16) : Option Ipv6Addr :=
  if h : segments.length = 8 then some ⟨segments, h⟩ else none

def readIpv6Addr : TextParser Ipv6Addr := fun text => do
  let (head, headIpv4, text) := readGroups 8 true text
  if head.length = 8 then
    return (← Ipv6Addr.ofSegments head, text)
  else if headIpv4 then none
  else
    let (_, text) ← readGivenChar ':' text
    let (_, text) ← readGivenChar ':' text
    let (tail, _, text) := readGroups (8 - (head.length + 1)) true text
    let zeroes := List.replicate (8 - head.length - tail.length) 0
    return (← Ipv6Addr.ofSegments (head ++ zeroes ++ tail), text)

def readPort : TextParser UInt16 := fun text => do
  let (_, text) ← readGivenChar ':' text
  let (port, text) ← readNumber 10 none true 65536 text
  return (port.toUInt16, text)

def readScopeId : TextParser UInt32 := fun text => do
  let (_, text) ← readGivenChar '%' text
  let (scopeId, text) ← readNumber 10 none true 4294967296 text
  return (scopeId.toUInt32, text)

def readSocketAddrV4 : TextParser SocketAddr := fun text => do
  let (ip, text) ← readIpv4Addr text
  let (port, text) ← readPort text
  return (.v4 ip port, text)

def readSocketAddrV6 : TextParser SocketAddr := fun text => do
  let (_, text) ← readGivenChar '[' text
  let (ip, text) ← readIpv6Addr text
  let (scopeId, text) := (readScopeId text).getD (0, text)
  let (_, text) ← readGivenChar ']' text
  let (port, text) ← readPort text
  return (.v6 ip port 0 scopeId, text)

/-- `str::parse::<SocketAddr>`: nothing may follow the address. -/
def SocketAddr.parse (text : List Char) : Option SocketAddr :=
  match (readSocketAddrV4 text).or (readSocketAddrV6 text) with
  | some (addr, []) => some addr
  | _ => none

/-- The bracketed form is read, the bare one is not. -/
example :
    SocketAddr.parse "[::ffff:10.0.0.1%3]:80".toList =
        some (.v6 ⟨[0, 0, 0, 0, 0, 0xffff, 0x0a00, 1], rfl⟩ 80 0 3) ∧
      SocketAddr.parse "::1:9000".toList = none := by
  decide

end Rapid
