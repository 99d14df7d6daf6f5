import Rapid.Pb

/-!
# ViewHash — the hash primitives behind rings and configuration ids

The hash function itself comes from the `xxhash-rust` crate and is a parameter of the model: an
instance of `Xxh64`. Everything built from it is computed as in `view_hash.rs`, in wrapping 64-bit
arithmetic.
-/

namespace Rapid

/-- `xxh64(bytes, seed)`. -/
class Xxh64 where
  xxh64 : List UInt8 → UInt64 → UInt64

export Xxh64 (xxh64)

/-- The little-endian bytes of `i64::to_le_bytes`. -/
def i64ToLeBytes (value : Int64) : List UInt8 :=
  (List.range 8).map fun i => (value.toUInt64 >>> (8 * i).toUInt64).toUInt8

/-- The little-endian bytes of `i32::to_le_bytes`. -/
def i32ToLeBytes (value : Int32) : List UInt8 :=
  (List.range 4).map fun i => (value.toUInt32 >>> (8 * i).toUInt32).toUInt8

variable [Xxh64]

def xxhLong (seed : UInt64) (value : Int64) : UInt64 :=
  xxh64 (i64ToLeBytes value) seed

def xxhInt (seed : UInt64) (value : Int32) : UInt64 :=
  xxh64 (i32ToLeBytes value) seed

def addressHash (seed : UInt64) (endpoint : Endpoint) : UInt64 :=
  let hostHash := xxh64 endpoint.hostname seed
  let portHash := xxhInt seed endpoint.port
  hostHash * 31 + portHash

def addressHashSeedZero (endpoint : Endpoint) : UInt64 :=
  addressHash 0 endpoint

/-- Identifiers are hashed in the order supplied, then the endpoints in the order supplied. -/
def configurationIdFor (identifiers : List NodeId) (endpoints : List Endpoint) : Int64 :=
  let hash := identifiers.foldl (fun hash id =>
    (hash * 37 + xxhLong 0 id.high) * 37 + xxhLong 0 id.low) (1 : UInt64)
  let hash := endpoints.foldl (fun hash endpoint =>
    (hash * 37 + xxh64 endpoint.hostname 0) * 37 + xxhInt 0 endpoint.port) hash
  hash.toInt64

end Rapid
