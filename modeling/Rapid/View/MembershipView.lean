import Rapid.View.Ring
import Mathlib.Data.Finmap

/-!
# MembershipView — the K rings and the configuration id, `view.rs`

A method that takes `&mut self` returns the view it leaves behind next to its result, also when it
fails.

* `observers` of a node are its successors on the rings: the nodes that monitor it;
* `subjects` of a node are its predecessors: the nodes it monitors.
-/

namespace Rapid

open Foundations

/-! ## Keys and errors -/

abbrev ConfigurationId := Int64

/-- `ConfigurationId::SENTINEL`. -/
def sentinelConfigurationId : ConfigurationId := -1

/-- Node ids compare by `(high, low)`, both signed. -/
structure NodeIdKey where
  high : Int64
  low : Int64
  deriving DecidableEq

namespace NodeIdKey

def tuple (key : NodeIdKey) : Int64 ×ₗ Int64 :=
  toLex (key.high, key.low)

theorem tuple_injective : Function.Injective tuple := by
  intro a b h
  have hpair : (a.high, a.low) = (b.high, b.low) := toLex.injective h
  cases a
  cases b
  simpa using hpair

instance : LinearOrder NodeIdKey :=
  LinearOrder.lift' tuple tuple_injective

def ofNodeId (id : NodeId) : NodeIdKey :=
  ⟨id.high, id.low⟩

theorem ofNodeId_injective : Function.Injective ofNodeId := by
  rintro ⟨_, _⟩ ⟨_, _⟩ ⟨⟩
  rfl

end NodeIdKey

/-- What the text of an `Error::ProtocolRejected` is formatted from. -/
inductive Rejection
  | uuidAlreadySeen (id : NodeId)
  | endpointAlreadyInRing (endpoint : Endpoint)
  | endpointNotInRing (endpoint : Endpoint)
  | nodeNotInRing
  deriving DecidableEq

/-- The errors of the modelled functions. -/
inductive Error
  | protocolRejected (reason : Rejection)
  | viewRequiresPositiveK
  | ringIndexOutOfBounds (k K : UInt8)
  | cutDetectorRequires (k h l : UInt8)
  deriving DecidableEq

theorem eq_ok_of_toOption {ε α : Type} {r : Except ε α} {a : α} (h : r.toOption = some a) :
    r = .ok a := by
  cases r with
  | error err => cases h
  | ok b =>
      cases h
      rfl

inductive JoinDisposition
  | hostnameAlreadyInRing
  | uuidAlreadyInRing
  | safeToJoin
  deriving DecidableEq, Repr

/-! ## The view -/

/-- The fields of the Rust type. There is at least one ring, and every identifier has its object,
so the indexing operations of the source cannot fail. -/
structure MembershipView where
  k : UInt8
  rings : List Ring
  identifiers : OrderedSet NodeIdKey
  identifierObjs : Finmap fun _ : NodeIdKey => NodeId
  allNodes : Finset EndpointKey
  cachedObservers : Finmap fun _ : EndpointKey => List Endpoint
  configurationId : ConfigurationId
  configurationDirty : Bool
  k_pos : 0 < k.toNat
  rings_length : rings.length = k.toNat
  objs_total : ∀ key ∈ identifiers.keys, (identifierObjs.lookup key).isSome
  objs_key : ∀ key id, identifierObjs.lookup key = some id → NodeIdKey.ofNodeId id = key

namespace MembershipView

def new (k : UInt8) : Except Error MembershipView :=
  if h : 0 < k.toNat then
    .ok {
      k := k
      rings := (List.range k.toNat).map fun i => Ring.new i.toUInt64
      identifiers := .empty
      identifierObjs := ∅
      allNodes := ∅
      cachedObservers := ∅
      configurationId := sentinelConfigurationId
      configurationDirty := true
      k_pos := h
      rings_length := by simp
      objs_total := fun key hkey => (by cases hkey)
      objs_key := fun key id hid => (by simp at hid) }
  else .error .viewRequiresPositiveK

theorem objs_insert {identifiers : OrderedSet NodeIdKey}
    {objs : Finmap fun _ : NodeIdKey => NodeId}
    (htotal : ∀ key ∈ identifiers.keys, (objs.lookup key).isSome) (id : NodeId) :
    ∀ key ∈ (identifiers.insert (.ofNodeId id) ()).keys,
      ((objs.insert (.ofNodeId id) id).lookup key).isSome := by
  intro key hkey
  by_cases h : key = .ofNodeId id
  · subst h
    rw [Finmap.lookup_insert]
    rfl
  · rw [Finmap.lookup_insert_of_ne _ h]
    rcases List.mem_map.1 hkey with ⟨p, hp, rfl⟩
    rcases OrderedMap.mem_insert.1 hp with rfl | ⟨hold, _⟩
    · exact absurd rfl h
    · exact htotal _ (List.mem_map_of_mem hold)

theorem objs_insert_key {objs : Finmap fun _ : NodeIdKey => NodeId}
    (hkey : ∀ key id, objs.lookup key = some id → NodeIdKey.ofNodeId id = key) (id : NodeId) :
    ∀ key id', (objs.insert (.ofNodeId id) id).lookup key = some id' → NodeIdKey.ofNodeId id' = key := by
  intro key id' hlookup
  by_cases h : key = .ofNodeId id
  · subst h
    rw [Finmap.lookup_insert] at hlookup
    cases hlookup
    rfl
  · rw [Finmap.lookup_insert_of_ne _ h] at hlookup
    exact hkey key id' hlookup

variable [Xxh64] (self : MembershipView)

/-- `rings[0]`. -/
def ringZero : Ring :=
  self.rings.head fun hnil => by
    have hlength := self.rings_length
    rw [hnil] at hlength
    exact absurd self.k_pos (by rw [← hlength]; decide)

/-- The common update of `identifiers` and `identifier_objs`. -/
def addIdentifier (id : NodeId) : MembershipView :=
  { self with
    identifiers := self.identifiers.insert (.ofNodeId id) ()
    identifierObjs := self.identifierObjs.insert (.ofNodeId id) id
    objs_total := objs_insert self.objs_total id
    objs_key := objs_insert_key self.objs_key id }

/-! ## Queries -/

def membershipSize : Nat :=
  self.ringZero.len

def isHostPresent (endpoint : Endpoint) : Bool :=
  endpoint ∈ self.allNodes

def isIdentifierPresent (id : NodeId) : Bool :=
  self.identifiers.containsKey (.ofNodeId id)

def isSafeToJoin (endpoint : Endpoint) (id : NodeId) : JoinDisposition :=
  if self.isHostPresent endpoint then .hostnameAlreadyInRing
  else if self.isIdentifierPresent id then .uuidAlreadyInRing
  else .safeToJoin

/-- The identifiers in key order. -/
def currentIdentifiers : List NodeId :=
  self.identifiers.keys.pmap
    (fun key h => (self.identifierObjs.lookup key).get h) self.objs_total

def getRing (k : UInt8) : Except Error (List Endpoint) :=
  if h : k.toNat < self.k.toNat then
    .ok (self.rings.get ⟨k.toNat, by rw [self.rings_length]; exact h⟩).ordered
  else .error (.ringIndexOutOfBounds k self.k)

/-- One step of the loop of `bootstrap`: an endpoint enters the members and every ring. -/
def addEndpoint (endpoint : Endpoint) : MembershipView :=
  { self with
    allNodes := insert endpoint self.allNodes
    rings := self.rings.map fun ring => (ring.insert endpoint).1
    rings_length := by rw [List.length_map]; exact self.rings_length }

def bootstrap (k : UInt8) (identifiers : List NodeId) (endpoints : List Endpoint) :
    Except Error MembershipView := do
  let v ← new k
  let v := identifiers.foldl addIdentifier v
  let v := endpoints.foldl addEndpoint v
  return { v with configurationDirty := true }

def computeObserversOf (node : Endpoint) : List Endpoint :=
  if self.ringZero.len ≤ 1 then []
  else self.rings.filterMap fun ring => (ring.higher node).or ring.first

def predecessorsOf (node : Endpoint) : List Endpoint :=
  self.rings.filterMap fun ring => (ring.lower node).or ring.last

def getSubjectsOf (node : Endpoint) : Except Error (List Endpoint) :=
  if self.isHostPresent node then
    if self.ringZero.len ≤ 1 then .ok [] else .ok (self.predecessorsOf node)
  else .error (.protocolRejected .nodeNotInRing)

/-- Also defined for nodes that are not in the ring yet. -/
def getExpectedObserversOf (node : Endpoint) : List Endpoint :=
  if self.ringZero.len = 0 then [] else self.predecessorsOf node

/-- The rings on which `subject` is the predecessor of `observer`. -/
def getRingNumbers (observer subject : Endpoint) : Except Error (List UInt8) := do
  let subjects ← self.getSubjectsOf observer
  if subjects.isEmpty then return []
  return (subjects.zipIdx.filter fun p => p.1 = subject).map fun p => p.2.toUInt8

/-! ## Updates -/

/-- `for key in keys { cached_observers.remove(&key) }`. -/
def dropCached (cache : Finmap fun _ : EndpointKey => List Endpoint) (keys : List EndpointKey) :
    Finmap fun _ : EndpointKey => List Endpoint :=
  keys.foldl (fun cache key => cache.erase key) cache

/-- The view after an accepted `ring_add`. -/
def added (endpoint : Endpoint) (id : NodeId) : MembershipView :=
  let rings := self.rings.map fun ring => (ring.insert endpoint).1
  let affectedSubjects := rings.filterMap fun ring => ring.lower endpoint
  let view :=
    { self with
      rings := rings
      rings_length := by rw [List.length_map]; exact self.rings_length
      allNodes := insert endpoint self.allNodes
      cachedObservers := dropCached self.cachedObservers affectedSubjects
      configurationDirty := true }
  view.addIdentifier id

def ringAdd (endpoint : Endpoint) (id : NodeId) : MembershipView × Except Error Unit :=
  if self.isIdentifierPresent id then (self, .error (.protocolRejected (.uuidAlreadySeen id)))
  else if self.ringZero.contains endpoint then
    (self, .error (.protocolRejected (.endpointAlreadyInRing endpoint)))
  else (self.added endpoint id, .ok ())

/-- The view after an accepted `ring_delete`. -/
def deleted (endpoint : Endpoint) : MembershipView :=
  let affectedSubjects := self.rings.filterMap fun ring => ring.lower endpoint
  { self with
    rings := self.rings.map fun ring => (ring.remove endpoint).1
    rings_length := by rw [List.length_map]; exact self.rings_length
    allNodes := self.allNodes.erase endpoint
    cachedObservers := dropCached (self.cachedObservers.erase endpoint) affectedSubjects
    configurationDirty := true }

def ringDelete (endpoint : Endpoint) : MembershipView × Except Error Unit :=
  if self.ringZero.contains endpoint then (self.deleted endpoint, .ok ())
  else (self, .error (.protocolRejected (.endpointNotInRing endpoint)))

def getObserversOf (node : Endpoint) : MembershipView × Except Error (List Endpoint) :=
  if self.isHostPresent node then
    match self.cachedObservers.lookup node with
    | some cached => (self, .ok cached)
    | none =>
        let observers := self.computeObserversOf node
        ({ self with cachedObservers := self.cachedObservers.insert node observers }, .ok observers)
  else (self, .error (.protocolRejected .nodeNotInRing))

def refreshConfigurationId : MembershipView :=
  { self with
    configurationId := configurationIdFor self.currentIdentifiers self.ringZero.ordered }

def currentConfigurationId : MembershipView × ConfigurationId :=
  let view :=
    if self.configurationDirty then
      { self.refreshConfigurationId with configurationDirty := false }
    else self
  (view, view.configurationId)

end MembershipView

end Rapid
