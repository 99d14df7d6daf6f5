import Rapid.ViewHash
import Rapid.Foundations.MachineInt
import Rapid.Foundations.OrderedMap

/-!
# Ring — one monitoring ring, `ring.rs`

The endpoints of a ring are kept by their address hash, compared as signed 64-bit integers. An
endpoint whose hash is taken is not inserted.
-/

namespace Rapid

open Foundations

structure Ring where
  seed : UInt64
  byHash : OrderedMap Int64 Endpoint
  deriving DecidableEq

namespace Ring

def new (seed : UInt64) : Ring where
  seed := seed
  byHash := .empty

variable [Xxh64] (self : Ring)

def key (endpoint : Endpoint) : Int64 :=
  (addressHash self.seed endpoint).toInt64

/-- The flag tells whether the endpoint is new. -/
def insert (endpoint : Endpoint) : Ring × Bool :=
  let key := self.key endpoint
  if self.byHash.containsKey key then (self, false)
  else ({ self with byHash := self.byHash.insert key endpoint }, true)

/-- The flag tells whether the endpoint was there. -/
def remove (endpoint : Endpoint) : Ring × Bool :=
  let key := self.key endpoint
  ({ self with byHash := self.byHash.remove key }, self.byHash.containsKey key)

def contains (endpoint : Endpoint) : Bool :=
  self.byHash.containsKey (self.key endpoint)

def lower (endpoint : Endpoint) : Option Endpoint :=
  (self.byHash.lowerEntry (self.key endpoint)).map Prod.snd

def higher (endpoint : Endpoint) : Option Endpoint :=
  (self.byHash.higherEntry (self.key endpoint)).map Prod.snd

def first : Option Endpoint :=
  self.byHash.firstEntry.map Prod.snd

def last : Option Endpoint :=
  self.byHash.lastEntry.map Prod.snd

def len : Nat :=
  self.byHash.length

/-- The endpoints in hash order. -/
def ordered : List Endpoint :=
  self.byHash.values

end Ring

end Rapid
