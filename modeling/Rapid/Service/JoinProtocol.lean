import Rapid.Service.Handlers

/-!
# JoinProtocol — what a joiner sends, `cluster_join.rs`

The joiner asks one member for the configuration and its observers to be. Then it sends a message to
each of them, with the numbers of the rings that this observer is listed for. Endpoints that are no
socket address get no message: which ones these are is a parameter.
-/

namespace Rapid

open Foundations

/-! ## The messages -/

/-- The request of `run_phase1`. -/
def phase1Message (listenEndpoint : Endpoint) (currentId : NodeId) : PreJoinMessage where
  sender := some listenEndpoint
  nodeId := some currentId
  ringNumber := []
  configurationId := -1

def configurationToJoin (phase1 : JoinResponse) : Int64 :=
  if phase1.statusCode = JoinStatusCode.hostnameAlreadyInRing.toInt32 then -1
  else phase1.configurationId

/-- `per_observer.entry(key).or_default().push(i)`. -/
def pushRing (perObserver : Finmap fun _ : EndpointKey => List Int32) (entry : Endpoint × Nat) :
    Finmap fun _ : EndpointKey => List Int32 :=
  perObserver.insert entry.1 ((perObserver.lookup entry.1).getD [] ++ [Int32.ofNat entry.2])

/-- Observers by endpoint, with their ring numbers. -/
def perObserver (endpoints : List Endpoint) : Finmap fun _ : EndpointKey => List Int32 :=
  endpoints.zipIdx.foldl pushRing ∅

/-- The messages of phase 2 with their recipients, in the order of the hash map. -/
def phase2Messages (isSocketAddr : Endpoint → Bool) (order : HashOrder EndpointKey)
    (listenEndpoint : Endpoint) (currentId : NodeId) (metadata : Metadata) (phase1 : JoinResponse) :
    List (Endpoint × JoinMessage) :=
  ((order.entries (perObserver phase1.endpoints)).filter fun entry => isSocketAddr entry.1).map
    fun entry =>
      (entry.1,
        { sender := some listenEndpoint
          nodeId := some currentId
          ringNumber := entry.2
          configurationId := configurationToJoin phase1
          metadata := some metadata })

/-! ## Grouping the rings -/

variable {o : Endpoint}

/-- The rings of an observer are collected in order. -/
theorem lookup_foldl_pushRing (entries : List (Endpoint × Nat)) :
    ∀ m : Finmap fun _ : EndpointKey => List Int32,
      ((entries.foldl pushRing m).lookup o).getD [] =
        (m.lookup o).getD [] ++
          (entries.filter fun entry => entry.1 = o).map fun entry => Int32.ofNat entry.2 := by
  induction entries with
  | nil => exact fun m => (List.append_nil _).symm
  | cons entry entries ih =>
      intro m
      have hrest := ih (pushRing m entry)
      by_cases ho : entry.1 = o
      · subst ho
        have hpushed : (pushRing m entry).lookup entry.1 =
            some ((m.lookup entry.1).getD [] ++ [Int32.ofNat entry.2]) := Finmap.lookup_insert _
        simpa [hpushed] using hrest
      · have hkept : (pushRing m entry).lookup o = m.lookup o :=
          Finmap.lookup_insert_of_ne _ fun heq => ho heq.symm
        simpa [hkept, ho] using hrest

theorem mem_foldl_pushRing (entries : List (Endpoint × Nat)) :
    ∀ m : Finmap fun _ : EndpointKey => List Int32,
      o ∈ entries.foldl pushRing m ↔ o ∈ m ∨ o ∈ entries.map Prod.fst := by
  induction entries with
  | nil => simp
  | cons entry entries ih =>
      intro m
      have hpushed : o ∈ pushRing m entry ↔ o = entry.1 ∨ o ∈ m := Finmap.mem_insert
      rw [List.foldl_cons, ih, hpushed, List.map_cons, List.mem_cons]
      tauto

variable {endpoints : List Endpoint} {n : Int32}

/-- The ring numbers sent to an observer are the places where it is listed. -/
theorem mem_perObserver : n ∈ ((perObserver endpoints).lookup o).getD [] ↔
    ∃ i, endpoints[i]? = some o ∧ n = Int32.ofNat i := by
  have hlookup : ((perObserver endpoints).lookup o).getD [] =
      (endpoints.zipIdx.filter fun entry => entry.1 = o).map fun entry => Int32.ofNat entry.2 := by
    simpa [perObserver] using lookup_foldl_pushRing endpoints.zipIdx ∅
  rw [hlookup, List.mem_map]
  constructor
  · rintro ⟨⟨e, i⟩, hentry, rfl⟩
    rcases List.mem_filter.1 hentry with ⟨hlisted, heq⟩
    refine ⟨i, ?_, rfl⟩
    rw [← of_decide_eq_true heq]
    exact List.mk_mem_zipIdx_iff_getElem?.1 hlisted
  · rintro ⟨i, hlisted, rfl⟩
    exact ⟨(o, i), List.mem_filter.2 ⟨List.mk_mem_zipIdx_iff_getElem?.2 hlisted, by simp⟩, rfl⟩

theorem mem_perObserver_keys : o ∈ perObserver endpoints ↔ o ∈ endpoints := by
  simpa [perObserver, Finmap.notMem_empty] using mem_foldl_pushRing (o := o) endpoints.zipIdx ∅

section Messages

variable {isSocketAddr : Endpoint → Bool} {order : HashOrder EndpointKey} {j : Endpoint}
  {id : NodeId} {metadata : Metadata} {phase1 : JoinResponse} {msg : JoinMessage}

/-- Every message names the joiner and places where its recipient is listed. -/
theorem phase2Messages_sound
    (h : (o, msg) ∈ phase2Messages isSocketAddr order j id metadata phase1) :
    o ∈ phase1.endpoints ∧ msg.sender = some j ∧ msg.nodeId = some id ∧
      msg.configurationId = configurationToJoin phase1 ∧
      ∀ n ∈ msg.ringNumber, ∃ i, phase1.endpoints[i]? = some o ∧ n = Int32.ofNat i := by
  rcases List.mem_map.1 h with ⟨⟨e, rings⟩, hentry, heq⟩
  rcases Prod.mk.inj heq with ⟨rfl, rfl⟩
  have hlookup : (perObserver phase1.endpoints).lookup e = some rings :=
    order.mem_entries.1 (List.mem_filter.1 hentry).1
  refine ⟨mem_perObserver_keys.1 (Finmap.mem_of_lookup_eq_some hlookup), rfl, rfl, rfl, ?_⟩
  intro n hn
  refine mem_perObserver.1 ?_
  rw [hlookup]
  exact hn

/-- Every place in the list is sent to the observer listed there. -/
theorem phase2Messages_complete {i : Nat} (hlisted : phase1.endpoints[i]? = some o)
    (haddr : isSocketAddr o = true) :
    ∃ msg, (o, msg) ∈ phase2Messages isSocketAddr order j id metadata phase1 ∧
      Int32.ofNat i ∈ msg.ringNumber := by
  have hmem : o ∈ perObserver phase1.endpoints :=
    mem_perObserver_keys.2 (List.mem_of_getElem? hlisted)
  rcases Finmap.mem_iff.1 hmem with ⟨rings, hrings⟩
  have hring : Int32.ofNat i ∈ ((perObserver phase1.endpoints).lookup o).getD [] :=
    mem_perObserver.2 ⟨i, hlisted, rfl⟩
  rw [hrings] at hring
  exact ⟨_, List.mem_map.2 ⟨(o, rings), List.mem_filter.2 ⟨order.mem_entries.2 hrings, haddr⟩, rfl⟩,
    hring⟩

end Messages

end Rapid
