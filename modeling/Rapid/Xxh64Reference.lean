import Rapid.ViewHash

/-!
# Xxh64Reference — XXH64 as published

The hash of the `xxhash-rust` crate, so that the model can be run on concrete endpoints. No general
result depends on it: they hold for every instance of `Xxh64`.
-/

namespace Rapid
namespace Xxh64Reference

def prime1 : UInt64 := 0x9E3779B185EBCA87
def prime2 : UInt64 := 0xC2B2AE3D27D4EB4F
def prime3 : UInt64 := 0x165667B19E3779F9
def prime4 : UInt64 := 0x85EBCA77C2B2AE63
def prime5 : UInt64 := 0x27D4EB2F165667C5

def rotl (x r : UInt64) : UInt64 :=
  (x <<< r) ||| (x >>> (64 - r))

/-- The little-endian value of a list of bytes. -/
def lane (bytes : List UInt8) : UInt64 :=
  bytes.foldr (fun b acc => b.toUInt64 + 256 * acc) 0

def round (acc input : UInt64) : UInt64 :=
  rotl (acc + input * prime2) 31 * prime1

def mergeRound (acc val : UInt64) : UInt64 :=
  (acc ^^^ round 0 val) * prime1 + prime4

/-- The four accumulators after the given number of 32-byte stripes. -/
def stripes :
    Nat → List UInt8 → UInt64 × UInt64 × UInt64 × UInt64 → UInt64 × UInt64 × UInt64 × UInt64
  | 0, _, v => v
  | n + 1, bytes, (v1, v2, v3, v4) =>
      stripes n (bytes.drop 32)
        (round v1 (lane (bytes.take 8)), round v2 (lane ((bytes.drop 8).take 8)),
          round v3 (lane ((bytes.drop 16).take 8)), round v4 (lane ((bytes.drop 24).take 8)))

def tailBytes (acc : UInt64) (bytes : List UInt8) : UInt64 :=
  bytes.foldl (fun acc b => rotl (acc ^^^ b.toUInt64 * prime5) 11 * prime1) acc

/-- The rest after the stripes: eight bytes at a time, then four, then one. -/
def tail : Nat → UInt64 → List UInt8 → UInt64
  | n + 1, acc, bytes =>
      tail n (rotl (acc ^^^ round 0 (lane (bytes.take 8))) 27 * prime1 + prime4) (bytes.drop 8)
  | 0, acc, bytes =>
      if 4 ≤ bytes.length then
        tailBytes (rotl (acc ^^^ lane (bytes.take 4) * prime1) 23 * prime2 + prime3) (bytes.drop 4)
      else tailBytes acc bytes

def avalanche (h : UInt64) : UInt64 :=
  let h := (h ^^^ (h >>> 33)) * prime2
  let h := (h ^^^ (h >>> 29)) * prime3
  h ^^^ (h >>> 32)

def hash (bytes : List UInt8) (seed : UInt64) : UInt64 :=
  let n := bytes.length
  let acc :=
    if 32 ≤ n then
      let (v1, v2, v3, v4) := stripes (n / 32) bytes
        (seed + prime1 + prime2, seed + prime2, seed, seed - prime1)
      let acc := rotl v1 1 + rotl v2 7 + rotl v3 12 + rotl v4 18
      mergeRound (mergeRound (mergeRound (mergeRound acc v1) v2) v3) v4
    else seed + prime5
  let rest := bytes.drop (32 * (n / 32))
  avalanche (tail (rest.length / 8) (acc + n.toUInt64) rest)

end Xxh64Reference

@[reducible]
def xxh64Reference : Xxh64 :=
  ⟨Xxh64Reference.hash⟩

/-- The endpoint `host:port`, the host given by its text. -/
def hostEndpoint (host : String) (port : Int32) : Endpoint :=
  ⟨host.toUTF8.toList, port⟩

def hostA : Endpoint :=
  hostEndpoint "127.0.0.1" 1234

def hostB : Endpoint :=
  hostEndpoint "127.0.0.2" 2

def hostC : Endpoint :=
  hostEndpoint "10.0.0.5" 4444

section Vectors

attribute [local instance] xxh64Reference

-- Golden vectors of the repository: short inputs, a negative number, and a 32-byte hostname.
example : xxhInt 0 0 = 0x3aefa6fd5cf2deb4 := by decide +kernel
example : xxhLong 1 (-1) = 0x0ad7f61289875125 := by decide +kernel
example : addressHash 3 (hostEndpoint "127.0.0.1" 1234) = 0xfabbb6349f2935d6 := by decide +kernel
example : addressHash 0 (hostEndpoint "a-very-long-hostname.example.com" 65535) =
    0x7263015a00688edd := by decide +kernel

end Vectors

end Rapid
