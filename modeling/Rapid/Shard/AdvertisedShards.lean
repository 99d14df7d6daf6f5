import Rapid.Shard.ShardIndex

/-!
# AdvertisedShards — the index is what the last changes advertise

The two maps of the index are repaired one change at a time. What they hold after any number of deltas
can be said without the repairs: an endpoint hosts a shard if the last change about it is an `UP` whose
metadata lists the shard. The buckets are exactly these replicas, the reverse index mirrors them, and
no empty bucket stays behind.
-/

namespace Rapid

open Foundations

/-! ## Last changes -/

/-- The last change about the endpoint. -/
def lastChange (changes : List NodeStatusChange) (e : Endpoint) : Option NodeStatusChange :=
  (changes.filter fun nsc => nsc.endpoint = e).getLast?

/-- The last change about the endpoint is an `UP` whose metadata lists the shard. -/
def Advertised (key : String) (delimiter : Char) (changes : List NodeStatusChange) (e : Endpoint)
    (shard : ShardId) : Prop :=
  ∃ nsc, lastChange changes e = some nsc ∧ nsc.status = .up ∧
    shard ∈ parseShards nsc.metadata key delimiter

theorem lastChange_append (changes : List NodeStatusChange) (nsc : NodeStatusChange) (e : Endpoint) :
    lastChange (changes ++ [nsc]) e = if nsc.endpoint = e then some nsc else lastChange changes e := by
  by_cases he : nsc.endpoint = e
  · simp [lastChange, List.filter_append, he]
  · simp [lastChange, List.filter_append, he]

/-- What the fold knows of an endpoint is what the last change says. -/
theorem fold_lastChange (changes : List NodeStatusChange) (e : Endpoint) :
    (e ∈ (Knowledge.none.fold changes).members ↔
        ∃ nsc, lastChange changes e = some nsc ∧ nsc.status = .up) ∧
      ∀ nsc, lastChange changes e = some nsc → nsc.status = .up →
        (Knowledge.none.fold changes).metadata e = nsc.metadata := by
  induction changes using List.reverseRecOn with
  | nil => simp [Knowledge.fold, Knowledge.none, lastChange]
  | append_singleton changes change ih =>
      have hfold : Knowledge.none.fold (changes ++ [change]) =
          (Knowledge.none.fold changes).apply change := List.foldl_append
      rw [hfold, lastChange_append]
      unfold Knowledge.apply
      by_cases he : change.endpoint = e
      · subst he
        cases hstatus : change.status with
        | up => simp [hstatus]
        | down => simp [hstatus]
      · have hne : e ≠ change.endpoint := fun heq => he heq.symm
        cases hstatus : change.status with
        | up => simpa [he, hne] using ih
        | down => simpa [he, hne] using ih

theorem hosts_fold_iff {key : String} {delimiter : Char} {changes : List NodeStatusChange} {e : Endpoint}
    {shard : ShardId} :
    (Knowledge.none.fold changes).Hosts key delimiter shard e ↔
      Advertised key delimiter changes e shard := by
  rcases fold_lastChange changes e with ⟨hmember, hmetadata⟩
  unfold Knowledge.Hosts Advertised
  rw [hmember]
  constructor
  · rintro ⟨⟨nsc, hlast, hup⟩, hshard⟩
    exact ⟨nsc, hlast, hup, hmetadata nsc hlast hup ▸ hshard⟩
  · rintro ⟨nsc, hlast, hup, hshard⟩
    exact ⟨⟨nsc, hlast, hup⟩, (hmetadata nsc hlast hup).symm ▸ hshard⟩

/-! ## Buckets -/

namespace ShardIndex

/-- No bucket is empty, and none lists an endpoint twice. -/
def Tidy (byShard : Finmap fun _ : ShardId => List Endpoint) : Prop :=
  ∀ shard bucket, byShard.lookup shard = some bucket → bucket ≠ [] ∧ bucket.Nodup

variable {byShard : Finmap fun _ : ShardId => List Endpoint} {ep : Endpoint} {shard : ShardId}
  {key : String} {delimiter : Char}

theorem Tidy.dropFromBucket (h : Tidy byShard) : Tidy (dropFromBucket ep byShard shard) := by
  unfold ShardIndex.dropFromBucket
  cases hlookup : byShard.lookup shard with
  | none => exact h
  | some eps =>
      dsimp only
      intro x bucket hbucket
      split at hbucket
      · by_cases hx : x = shard
        · rw [hx, Finmap.lookup_erase] at hbucket
          cases hbucket
        · exact h x bucket (by rwa [Finmap.lookup_erase_ne hx] at hbucket)
      · rename_i hsome
        by_cases hx : x = shard
        · rw [hx, Finmap.lookup_insert] at hbucket
          cases hbucket
          exact ⟨hsome, (h shard eps hlookup).2.filter _⟩
        · exact h x bucket (by rwa [Finmap.lookup_insert_of_ne _ hx] at hbucket)

theorem Tidy.pushToBucket (h : Tidy byShard) : Tidy (pushToBucket ep byShard shard) := by
  have hold : ((byShard.lookup shard).getD []).Nodup := by
    cases hlookup : byShard.lookup shard with
    | none => exact List.nodup_nil
    | some eps => exact (h shard eps hlookup).2
  intro x bucket hbucket
  by_cases hx : x = shard
  · rw [hx, ShardIndex.pushToBucket, Finmap.lookup_insert] at hbucket
    cases hbucket
    split
    · rename_i hin
      exact ⟨List.ne_nil_of_mem hin, hold⟩
    · rename_i hout
      exact ⟨by simp, List.nodup_append'.2 ⟨hold, List.nodup_singleton ep, by simpa using hout⟩⟩
  · exact h x bucket (by rwa [ShardIndex.pushToBucket, Finmap.lookup_insert_of_ne _ hx] at hbucket)

theorem Tidy.applyChange {index : ShardIndex} (h : Tidy index.byShard) (nsc : NodeStatusChange) :
    Tidy (index.applyChange key delimiter nsc).byShard := by
  have hscrubbed : Tidy (index.dropEndpointFromBuckets nsc.endpoint).byShard := by
    unfold dropEndpointFromBuckets
    split
    · exact h
    · exact List.foldlRecOn _ _ h fun _ hb _ _ => hb.dropFromBucket
  unfold ShardIndex.applyChange
  cases nsc.status with
  | up => exact List.foldlRecOn _ _ hscrubbed fun _ hb _ _ => hb.pushToBucket
  | down => exact hscrubbed

theorem tidy_applyDelta (key : String) (delimiter : Char) (changes : List NodeStatusChange) :
    Tidy (ShardIndex.default.applyDelta key delimiter changes).byShard := by
  have hempty : Tidy ShardIndex.default.byShard := by
    intro shard bucket hlookup
    simp [ShardIndex.default] at hlookup
  exact List.foldlRecOn changes _ (motive := fun index : ShardIndex => Tidy index.byShard) hempty
    fun _ hindex nsc _ => Tidy.applyChange hindex nsc

/-! ## Replica slots -/

/-- `total_replica_slots`: the values of the hash map are visited in the order `order`. -/
def totalReplicaSlots (index : ShardIndex) (order : HashOrder ShardId) : Nat :=
  ((order.entries index.byShard).map fun entry => entry.2.length).sum

/-- The deltas are folded one after the other. -/
def foldDeltas (key : String) (delimiter : Char) (deltas : List (List NodeStatusChange)) : ShardIndex :=
  deltas.foldl (fun index delta => index.applyDelta key delimiter delta) .default

theorem nodup_parseShards (metadata : Metadata) (key : String) (delimiter : Char) :
    (parseShards metadata key delimiter).Nodup := by
  unfold parseShards
  split
  · exact List.nodup_nil
  · split
    · exact List.nodup_nil
    · exact nodup_eraseDups _

theorem foldDeltas_eq (deltas : List (List NodeStatusChange)) :
    foldDeltas key delimiter deltas = ShardIndex.default.applyDelta key delimiter deltas.flatten :=
  List.foldl_flatten.symm

/-! ## The index after any number of deltas -/

variable {deltas : List (List NodeStatusChange)} {bucket : List Endpoint} {e : Endpoint}

theorem foldDeltas_describes : Describes key delimiter (foldDeltas key delimiter deltas)
    (Knowledge.none.fold deltas.flatten) := by
  rw [foldDeltas_eq]
  exact (Describes.empty _ _).applyDelta deltas.flatten

theorem foldDeltas_tidy : Tidy (foldDeltas key delimiter deltas).byShard := by
  rw [foldDeltas_eq]
  exact tidy_applyDelta key delimiter deltas.flatten

/-- A bucket lists whoever advertises its shard. -/
theorem mem_bucket_iff (hlookup : (foldDeltas key delimiter deltas).byShard.lookup shard = some bucket) :
    e ∈ bucket ↔ Advertised key delimiter deltas.flatten e shard := by
  have hreplicas : e ∈ (foldDeltas key delimiter deltas).replicasOf shard ↔
      Advertised key delimiter deltas.flatten e shard :=
    (foldDeltas_describes.replicas shard e).trans hosts_fold_iff
  rwa [replicasOf, hlookup, Option.getD_some] at hreplicas

/-- Whoever advertises a shard has a bucket. -/
theorem exists_bucket (h : Advertised key delimiter deltas.flatten e shard) :
    ∃ bucket, (foldDeltas key delimiter deltas).byShard.lookup shard = some bucket ∧ e ∈ bucket := by
  have hlisted : e ∈ (foldDeltas key delimiter deltas).replicasOf shard :=
    (foldDeltas_describes.replicas shard e).2 (hosts_fold_iff.2 h)
  rw [replicasOf] at hlisted
  cases hlookup : (foldDeltas key delimiter deltas).byShard.lookup shard with
  | none => simp [hlookup] at hlisted
  | some bucket => exact ⟨bucket, rfl, by simpa [hlookup] using hlisted⟩

/-- A bucket is there because somebody is in it. -/
theorem mem_byShard_iff : shard ∈ (foldDeltas key delimiter deltas).byShard ↔
    ∃ e, Advertised key delimiter deltas.flatten e shard := by
  constructor
  · intro hshard
    rcases Finmap.mem_iff.1 hshard with ⟨bucket, hlookup⟩
    rcases List.exists_mem_of_ne_nil bucket (foldDeltas_tidy shard bucket hlookup).1 with ⟨e, he⟩
    exact ⟨e, (mem_bucket_iff hlookup).1 he⟩
  · rintro ⟨e, he⟩
    rcases exists_bucket he with ⟨bucket, hlookup, _⟩
    exact Finmap.mem_of_lookup_eq_some hlookup

theorem mem_byEndpoint_iff : e ∈ (foldDeltas key delimiter deltas).byEndpoint ↔
    ∃ nsc, lastChange deltas.flatten e = some nsc ∧ nsc.status = .up := by
  rw [← (fold_lastChange deltas.flatten e).1, Finmap.mem_iff, foldDeltas_describes.entries e]
  split
  · rename_i hmember
    simp [hmember]
  · rename_i hout
    simp [hout]

/-- The reverse index mirrors the buckets. -/
theorem lookup_byEndpoint {shards : List ShardId}
    (hentry : (foldDeltas key delimiter deltas).byEndpoint.lookup e = some shards) :
    shards.Nodup ∧ ∀ shard, shard ∈ shards ↔
      ∃ bucket, (foldDeltas key delimiter deltas).byShard.lookup shard = some bucket ∧ e ∈ bucket := by
  have hlisted := (foldDeltas_describes.entries e).symm.trans hentry
  split at hlisted
  · rename_i hmember
    cases hlisted
    refine ⟨nodup_parseShards _ key delimiter, fun shard => ⟨fun hshard => ?_, ?_⟩⟩
    · exact exists_bucket (hosts_fold_iff.1 ⟨hmember, hshard⟩)
    · rintro ⟨bucket, hlookup, he⟩
      exact (hosts_fold_iff.2 ((mem_bucket_iff hlookup).1 he)).2
  · cases hlisted

/-- Buckets have no repetitions, so the slots are the advertised pairs. -/
theorem totalReplicaSlots_eq (order : HashOrder ShardId) :
    ∃ pairs : Finset (Endpoint × ShardId),
      (∀ p, p ∈ pairs ↔ Advertised key delimiter deltas.flatten p.1 p.2) ∧
      (foldDeltas key delimiter deltas).totalReplicaSlots order = pairs.card := by
  have hnodup : ∀ shard bucket, (foldDeltas key delimiter deltas).byShard.lookup shard = some bucket →
      bucket.Nodup := fun shard bucket hlookup => (foldDeltas_tidy shard bucket hlookup).2
  rcases order.sum_length_entries hnodup with ⟨pairs, hpairs, htotal⟩
  refine ⟨pairs, fun p => ?_, htotal⟩
  rw [hpairs]
  constructor
  · rintro ⟨bucket, hlookup, he⟩
    exact (mem_bucket_iff hlookup).1 he
  · exact exists_bucket

end ShardIndex

open ShardIndex in
/-- The index holds exactly what the last changes advertise. -/
theorem shardIndex_spec (key : String) (delimiter : Char) (deltas : List (List NodeStatusChange))
    (order : HashOrder ShardId) :
    (∀ shard, shard ∈ (foldDeltas key delimiter deltas).byShard ↔
      ∃ e, Advertised key delimiter deltas.flatten e shard) ∧
    (∀ shard bucket, (foldDeltas key delimiter deltas).byShard.lookup shard = some bucket →
      bucket ≠ [] ∧ bucket.Nodup ∧
        ∀ e, e ∈ bucket ↔ Advertised key delimiter deltas.flatten e shard) ∧
    (∀ e, e ∈ (foldDeltas key delimiter deltas).byEndpoint ↔
      ∃ nsc, lastChange deltas.flatten e = some nsc ∧ nsc.status = .up) ∧
    (∀ e shards, (foldDeltas key delimiter deltas).byEndpoint.lookup e = some shards →
      shards.Nodup ∧ ∀ shard, shard ∈ shards ↔
        ∃ bucket, (foldDeltas key delimiter deltas).byShard.lookup shard = some bucket ∧ e ∈ bucket) ∧
    ∃ pairs : Finset (Endpoint × ShardId),
      (∀ p, p ∈ pairs ↔ Advertised key delimiter deltas.flatten p.1 p.2) ∧
      (foldDeltas key delimiter deltas).totalReplicaSlots order = pairs.card := by
  refine ⟨fun shard => mem_byShard_iff, fun shard bucket hlookup => ?_, fun e => mem_byEndpoint_iff,
    fun e shards => lookup_byEndpoint, totalReplicaSlots_eq order⟩
  rcases foldDeltas_tidy shard bucket hlookup with ⟨hsome, hnodup⟩
  exact ⟨hsome, hnodup, fun e => mem_bucket_iff hlookup⟩

end Rapid
