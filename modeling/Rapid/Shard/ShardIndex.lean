import Rapid.Service.ViewDelta
import Rapid.Foundations.LastMention

/-!
# ShardIndex — replicas by shard, `rapid-shard/src/lib.rs`

A node advertises its shards in one entry of its metadata. The index maps every shard to the
endpoints that host it and is kept up to date by folding status changes.
-/

namespace Rapid

open Foundations

/-! ## Shard lists -/

abbrev ShardId := String

/-- `DEFAULT_METADATA_KEY`. -/
def defaultMetadataKey : String := "shards"

/-- `DEFAULT_DELIMITER`. -/
def defaultDelimiter : Char := ','

/-- `char::is_whitespace`: the Unicode property `White_Space`. -/
def isWhitespace (c : Char) : Bool :=
  let n := c.toNat
  (9 ≤ n && n ≤ 13) || n == 32 || n == 133 || n == 160 || n == 5760 || (8192 ≤ n && n ≤ 8202) ||
    n == 8232 || n == 8233 || n == 8239 || n == 8287 || n == 12288

/-- `str::trim`. -/
def trim (s : List Char) : List Char :=
  ((s.dropWhile isWhitespace).reverse.dropWhile isWhitespace).reverse

/-- The shards that the metadata lists, without empty entries and repetitions. -/
def parseShards (metadata : Metadata) (key : String) (delimiter : Char) : List ShardId :=
  match metadata.metadata.lookup key with
  | none => []
  | some raw =>
      match String.fromUTF8? ⟨raw.toArray⟩ with
      | none => []
      | some s =>
          ((((s.toList.splitOn delimiter).map trim).filter fun t => t ≠ []).map
            String.ofList).eraseDups

/-! ## The index -/

structure ShardIndex where
  configurationId : ConfigurationId
  byShard : Finmap fun _ : ShardId => List Endpoint
  byEndpoint : Finmap fun _ : EndpointKey => List ShardId

namespace ShardIndex

/-- `ShardIndex::default`. -/
def default : ShardIndex where
  configurationId := sentinelConfigurationId
  byShard := ∅
  byEndpoint := ∅

variable (index : ShardIndex)

def replicasOf (shard : ShardId) : List Endpoint :=
  (index.byShard.lookup shard).getD []

/-- The endpoint leaves one bucket; an empty bucket goes. -/
def dropFromBucket (ep : Endpoint) (byShard : Finmap fun _ : ShardId => List Endpoint)
    (shard : ShardId) : Finmap fun _ : ShardId => List Endpoint :=
  match byShard.lookup shard with
  | none => byShard
  | some eps =>
      let eps := eps.filter fun e => decide (e ≠ ep)
      if eps = [] then byShard.erase shard else byShard.insert shard eps

def dropEndpointFromBuckets (ep : Endpoint) : ShardIndex :=
  match index.byEndpoint.lookup ep with
  | none => index
  | some shards => { index with byShard := shards.foldl (dropFromBucket ep) index.byShard }

/-- The endpoint enters one bucket, unless it is there. -/
def pushToBucket (ep : Endpoint) (byShard : Finmap fun _ : ShardId => List Endpoint)
    (shard : ShardId) : Finmap fun _ : ShardId => List Endpoint :=
  let bucket := (byShard.lookup shard).getD []
  byShard.insert shard (if ep ∈ bucket then bucket else bucket ++ [ep])

/-- One change of `apply_delta`. -/
def applyChange (key : String) (delimiter : Char) (nsc : NodeStatusChange) : ShardIndex :=
  let scrubbed := index.dropEndpointFromBuckets nsc.endpoint
  match nsc.status with
  | .up =>
      let shards := parseShards nsc.metadata key delimiter
      { scrubbed with
        byShard := shards.foldl (pushToBucket nsc.endpoint) scrubbed.byShard
        byEndpoint := scrubbed.byEndpoint.insert nsc.endpoint shards }
  | .down => { scrubbed with byEndpoint := scrubbed.byEndpoint.erase nsc.endpoint }

def applyDelta (key : String) (delimiter : Char) (delta : List NodeStatusChange) : ShardIndex :=
  delta.foldl (fun index nsc => index.applyChange key delimiter nsc) index

/-- The forwarder folds a `VIEW_CHANGE` event. -/
def receive (key : String) (delimiter : Char) (ev : ClusterStatusChange) : ShardIndex :=
  { index with configurationId := ev.configurationId }.applyDelta key delimiter ev.delta

end ShardIndex

/-- The list of `UP` changes that a snapshot of the members and the metadata amounts to. -/
def snapshotDelta (membership : List Endpoint) (metadata : List (Endpoint × Metadata)) :
    List NodeStatusChange :=
  let byEndpoint : Finmap fun _ : EndpointKey => Metadata :=
    metadata.foldl (fun table entry => table.insert entry.1 entry.2) ∅
  membership.map fun e => NodeStatusChange.mk e .up ((byEndpoint.lookup e).getD default)

/-- The index built from a snapshot. -/
def snapshotIndex (key : String) (delimiter : Char) (configurationId : ConfigurationId)
    (delta : List NodeStatusChange) : ShardIndex :=
  { ShardIndex.default with configurationId := configurationId }.applyDelta key delimiter delta

/-! ## What the index says -/

/-- The member hosts the shard. -/
def Knowledge.Hosts (known : Knowledge) (key : String) (delimiter : Char) (shard : ShardId)
    (e : Endpoint) : Prop :=
  e ∈ known.members ∧ shard ∈ parseShards (known.metadata e) key delimiter

instance (known : Knowledge) (key : String) (delimiter : Char) (shard : ShardId) (e : Endpoint) :
    Decidable (known.Hosts key delimiter shard e) :=
  inferInstanceAs (Decidable (_ ∧ _))

namespace ShardIndex

/-- The index is the one derived from the members and their metadata, up to the order of the
replicas. -/
structure Describes (key : String) (delimiter : Char) (index : ShardIndex) (known : Knowledge) :
    Prop where
  replicas : ∀ shard e, e ∈ index.replicasOf shard ↔ known.Hosts key delimiter shard e
  entries : ∀ e, index.byEndpoint.lookup e =
    if e ∈ known.members then some (parseShards (known.metadata e) key delimiter) else none

variable {key : String} {delimiter : Char} {index : ShardIndex} {known : Knowledge} {ep : Endpoint}
  {byShard : Finmap fun _ : ShardId => List Endpoint} {shard : ShardId}

theorem Describes.empty (metadata : Endpoint → Metadata) (id : ConfigurationId) :
    Describes key delimiter { ShardIndex.default with configurationId := id } ⟨∅, metadata⟩ where
  replicas := by
    intro shard e
    simp [replicasOf, ShardIndex.default, Knowledge.Hosts]
  entries := by
    intro e
    simp [ShardIndex.default]

/-! ### Buckets -/

theorem bucket_dropFromBucket (ep : Endpoint) (byShard : Finmap fun _ : ShardId => List Endpoint)
    (dropped shard : ShardId) :
    ((dropFromBucket ep byShard dropped).lookup shard).getD [] =
      if shard = dropped then ((byShard.lookup shard).getD []).filter fun e => decide (e ≠ ep)
      else (byShard.lookup shard).getD [] := by
  unfold dropFromBucket
  by_cases hshard : shard = dropped
  · subst hshard
    rw [if_pos rfl]
    cases hlookup : byShard.lookup shard with
    | none => simp [hlookup]
    | some eps =>
        dsimp only
        split
        · -- A bucket that becomes empty is removed, which reads as the empty list.
          rename_i hempty
          rw [Finmap.lookup_erase]
          exact hempty.symm
        · rw [Finmap.lookup_insert]
          rfl
  · rw [if_neg hshard]
    cases byShard.lookup dropped with
    | none => rfl
    | some eps =>
        dsimp only
        split
        · rw [Finmap.lookup_erase_ne hshard]
        · rw [Finmap.lookup_insert_of_ne _ hshard]

theorem bucket_foldl_drop (ep : Endpoint) (shards : List ShardId) (shard : ShardId) :
    ∀ byShard : Finmap fun _ : ShardId => List Endpoint,
      ((shards.foldl (dropFromBucket ep) byShard).lookup shard).getD [] =
        if shard ∈ shards then ((byShard.lookup shard).getD []).filter fun e => decide (e ≠ ep)
        else (byShard.lookup shard).getD [] := by
  induction shards with
  | nil => simp
  | cons first shards ih =>
      intro byShard
      rw [List.foldl_cons, ih, bucket_dropFromBucket]
      by_cases hfirst : shard = first
      · simp [hfirst]
      · simp [hfirst]

theorem bucket_foldl_push (ep : Endpoint) (shards : List ShardId) (shard : ShardId) :
    ∀ byShard : Finmap fun _ : ShardId => List Endpoint,
      ((shards.foldl (pushToBucket ep) byShard).lookup shard).getD [] =
        (byShard.lookup shard).getD [] ++
          if shard ∈ shards ∧ ep ∉ (byShard.lookup shard).getD [] then [ep] else [] := by
  induction shards with
  | nil => simp
  | cons first shards ih =>
      intro byShard
      rw [List.foldl_cons, ih]
      by_cases hfirst : shard = first
      · subst hfirst
        by_cases hin : ep ∈ (byShard.lookup shard).getD []
        · simp [pushToBucket, hin]
        · simp [pushToBucket, hin]
      · simp [pushToBucket, hfirst]

/-! ### One change -/

/-- The reverse index knows every bucket that the endpoint is in. -/
theorem Describes.bucket_drop (h : Describes key delimiter index known) (ep : Endpoint)
    (shard : ShardId) :
    (index.dropEndpointFromBuckets ep).replicasOf shard =
      (index.replicasOf shard).filter fun e => decide (e ≠ ep) := by
  -- Who does not host the shard is in no bucket of it.
  have hout : ¬ known.Hosts key delimiter shard ep →
      (index.replicasOf shard).filter (fun e => decide (e ≠ ep)) = index.replicasOf shard := by
    intro hhosts
    rw [List.filter_eq_self]
    intro e he
    refine decide_eq_true ?_
    rintro rfl
    exact hhosts ((h.replicas shard e).1 he)
  have hentry := h.entries ep
  unfold dropEndpointFromBuckets
  split
  · rename_i hnone
    rw [hnone] at hentry
    have habsent : ep ∉ known.members := by
      intro hmember
      rw [if_pos hmember] at hentry
      cases hentry
    exact (hout fun hhosts => habsent hhosts.1).symm
  · rename_i shards hsome
    rw [hsome] at hentry
    have hlookup : replicasOf { index with
        byShard := shards.foldl (dropFromBucket ep) index.byShard } shard =
        if shard ∈ shards then (index.replicasOf shard).filter fun e => decide (e ≠ ep)
        else index.replicasOf shard := bucket_foldl_drop ep shards shard index.byShard
    rw [hlookup]
    split
    · rfl
    · rename_i hshard
      refine (hout ?_).symm
      rintro ⟨hmember, hhosts⟩
      rw [if_pos hmember] at hentry
      exact hshard (Option.some.inj hentry ▸ hhosts)

theorem byEndpoint_drop (index : ShardIndex) (ep : Endpoint) :
    (index.dropEndpointFromBuckets ep).byEndpoint = index.byEndpoint := by
  unfold dropEndpointFromBuckets
  split
  · rfl
  · rfl

/-- One change moves the endpoint to the end of the buckets it enters. -/
theorem Describes.bucket_change (h : Describes key delimiter index known) (nsc : NodeStatusChange)
    (shard : ShardId) :
    (index.applyChange key delimiter nsc).replicasOf shard =
      (index.replicasOf shard).filter (fun e => decide (e ≠ nsc.endpoint)) ++
        if nsc.status = .up ∧ shard ∈ parseShards nsc.metadata key delimiter
        then [nsc.endpoint] else [] := by
  have hdrop := h.bucket_drop nsc.endpoint shard
  unfold applyChange
  cases hstatus : nsc.status with
  | up =>
      have hpush := bucket_foldl_push nsc.endpoint (parseShards nsc.metadata key delimiter) shard
        (index.dropEndpointFromBuckets nsc.endpoint).byShard
      -- After the drop the endpoint is in no bucket, so it is pushed once.
      have hgone : nsc.endpoint ∉ (index.dropEndpointFromBuckets nsc.endpoint).replicasOf shard := by
        rw [hdrop]
        simp
      dsimp only
      rw [replicasOf] at hdrop hgone
      rw [replicasOf, hpush, hdrop]
      rw [hdrop] at hgone
      simp
  | down =>
      have hsame : ((index.dropEndpointFromBuckets nsc.endpoint)).replicasOf shard = _ := hdrop
      dsimp only
      rw [replicasOf] at hsame ⊢
      rw [hsame]
      simp

theorem hosts_apply (known : Knowledge) (nsc : NodeStatusChange) (e : Endpoint) :
    (known.apply nsc).Hosts key delimiter shard e ↔
      if e = nsc.endpoint then
        nsc.status = .up ∧ shard ∈ parseShards nsc.metadata key delimiter
      else known.Hosts key delimiter shard e := by
  unfold Knowledge.apply Knowledge.Hosts
  by_cases he : e = nsc.endpoint
  · cases hstatus : nsc.status with
    | up => simp [he]
    | down => simp [he]
  · cases hstatus : nsc.status with
    | up => simp [he]
    | down => simp [he]

/-- Folding a change keeps the index right. -/
theorem Describes.applyChange (h : Describes key delimiter index known) (nsc : NodeStatusChange) :
    Describes key delimiter (index.applyChange key delimiter nsc) (known.apply nsc) where
  replicas := by
    intro shard e
    rw [h.bucket_change, hosts_apply, List.mem_append, List.mem_filter, h.replicas]
    by_cases he : e = nsc.endpoint
    · by_cases hup : nsc.status = .up ∧ shard ∈ parseShards nsc.metadata key delimiter
      · simp [he, hup]
      · simp [he, hup]
    · by_cases hup : nsc.status = .up ∧ shard ∈ parseShards nsc.metadata key delimiter
      · simp [he, hup]
      · simp [he, hup]
  entries := by
    intro e
    have hold := h.entries e
    unfold ShardIndex.applyChange Knowledge.apply
    cases nsc.status with
    | up =>
        dsimp only
        by_cases he : e = nsc.endpoint
        · subst he
          simp
        · simp [he, Finmap.lookup_insert_of_ne, byEndpoint_drop, hold]
    | down =>
        dsimp only
        by_cases he : e = nsc.endpoint
        · subst he
          simp
        · simp [he, Finmap.lookup_erase_ne he, byEndpoint_drop, hold]

theorem Describes.applyDelta (delta : List NodeStatusChange) :
    ∀ {index : ShardIndex} {known : Knowledge}, Describes key delimiter index known →
      Describes key delimiter (index.applyDelta key delimiter delta) (known.fold delta) := by
  induction delta with
  | nil => exact fun h => h
  | cons nsc delta ih => exact fun h => ih (h.applyChange nsc)

@[simp] theorem configurationId_applyDelta (delta : List NodeStatusChange) :
    ∀ index : ShardIndex,
      (index.applyDelta key delimiter delta).configurationId = index.configurationId := by
  induction delta with
  | nil => exact fun index => rfl
  | cons nsc delta ih =>
      intro index
      have hfirst : (index.applyChange key delimiter nsc).configurationId =
          index.configurationId := by
        have hdrop : (index.dropEndpointFromBuckets nsc.endpoint).configurationId =
            index.configurationId := by
          unfold dropEndpointFromBuckets
          split
          · rfl
          · rfl
        unfold applyChange
        cases nsc.status with
        | up => exact hdrop
        | down => exact hdrop
      exact (ih _).trans hfirst

end ShardIndex

/-! ## Snapshots -/

/-- What is known before anything is known. -/
def Knowledge.none : Knowledge where
  members := ∅
  metadata := fun _ => default

/-- The entries of a table, inserted one after the other, make the table. -/
theorem lookup_foldl_insert {source : Finmap fun _ : EndpointKey => Metadata} {e : Endpoint}
    (entries : List (Endpoint × Metadata)) : ∀ table : Finmap fun _ : EndpointKey => Metadata,
      (∀ p ∈ entries, source.lookup p.1 = some p.2) →
        (entries.foldl (fun table entry => table.insert entry.1 entry.2) table).lookup e =
          if e ∈ entries.map Prod.fst then source.lookup e else table.lookup e := by
  induction entries with
  | nil => simp
  | cons entry entries ih =>
      intro table hsource
      have hfirst := hsource entry List.mem_cons_self
      rw [List.foldl_cons, ih _ fun p hp => hsource p (List.mem_cons_of_mem _ hp)]
      by_cases he : e = entry.1
      · subst he
        simp [hfirst]
      · rw [Finmap.lookup_insert_of_ne _ he]
        have hmem : e ∈ (entry :: entries).map Prod.fst ↔ e ∈ entries.map Prod.fst := by
          rw [List.map_cons, List.mem_cons, or_iff_right he]
        simp only [hmem]

/-- Every entry of the manager has its endpoint. -/
structure MetadataManager.Paired (manager : MetadataManager) : Prop where
  own : ∀ e x, manager.endpointObjs.lookup e = some x → x = e
  kept : ∀ e ∈ manager.roleMap, e ∈ manager.endpointObjs

theorem MetadataManager.Paired.lookup {manager : MetadataManager} (h : manager.Paired)
    {e : Endpoint} (he : e ∈ manager.roleMap) : manager.endpointObjs.lookup e = some e := by
  rcases Finmap.mem_iff.1 (h.kept e he) with ⟨x, hx⟩
  rw [hx, h.own e x hx]

theorem lookup_all {manager : MetadataManager} (h : manager.Paired) (order : HashOrder EndpointKey)
    (e : Endpoint) :
    ((manager.all order).foldl (fun table entry => table.insert entry.1 entry.2)
      (∅ : Finmap fun _ : EndpointKey => Metadata)).lookup e = manager.roleMap.lookup e := by
  have hentry : ∀ p : Endpoint × Metadata, p ∈ manager.all order ↔
      manager.roleMap.lookup p.1 = some p.2 := by
    intro p
    rw [MetadataManager.all, List.mem_map]
    constructor
    · rintro ⟨q, hq, rfl⟩
      have hlookup := order.mem_entries.1 hq
      rw [h.lookup (Finmap.mem_of_lookup_eq_some hlookup)]
      exact hlookup
    · intro hlookup
      refine ⟨p, order.mem_entries.2 hlookup, ?_⟩
      rw [h.lookup (Finmap.mem_of_lookup_eq_some hlookup)]
      rfl
  rw [lookup_foldl_insert _ _ fun p hp => (hentry p).1 hp]
  split
  · rfl
  · -- An endpoint that no entry names has no metadata.
    rename_i hout
    cases hlookup : manager.roleMap.lookup e with
    | none => simp
    | some metadata =>
        exact absurd (List.mem_map_of_mem ((hentry (e, metadata)).2 hlookup)) hout

theorem fold_ups (metadata : Endpoint → Metadata) (endpoints : List Endpoint) :
    ∀ known : Knowledge, known.fold (endpoints.map fun e => NodeStatusChange.mk e .up (metadata e)) =
      { members := known.members ∪ endpoints.toFinset
        metadata := fun e => if e ∈ endpoints then metadata e else known.metadata e } := by
  induction endpoints with
  | nil => simp [Knowledge.fold]
  | cons first endpoints ih =>
      intro known
      have hstep := ih (known.apply ⟨first, .up, metadata first⟩)
      rw [List.map_cons]
      refine hstep.trans ?_
      simp only [Knowledge.apply, Knowledge.mk.injEq]
      constructor
      · ext e
        simp
      · funext e
        by_cases he : e = first
        · subst he
          simp
        · simp [he]

/-- A snapshot that was taken in one piece tells what the actor knows. -/
theorem fold_snapshotDelta {manager : MetadataManager} (h : manager.Paired)
    (order : HashOrder EndpointKey) (membership : List Endpoint) :
    Knowledge.none.fold (snapshotDelta membership (manager.all order)) =
      { members := membership.toFinset
        metadata := fun e => if e ∈ membership then manager.get e else default } := by
  unfold snapshotDelta
  simp only [lookup_all h order]
  rw [fold_ups]
  simp only [Knowledge.none, Finset.empty_union]
  rfl

namespace ShardIndex

variable {key : String} {delimiter : Char}

theorem describes_snapshot (id : ConfigurationId) (delta : List NodeStatusChange) :
    Describes key delimiter (snapshotIndex key delimiter id delta) (Knowledge.none.fold delta) :=
  (Describes.empty _ id).applyDelta delta

end ShardIndex

end Rapid
