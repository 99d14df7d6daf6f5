import Rapid.Shard.ShardIndex
import Rapid.Foundations.KeyOrder
import Rapid.Xxh64Reference

/-!
# ShardOrder — the order of the replicas

Two directories at the same view agree on the replicas of every shard, but not on their order: a
snapshot lists them in the order of ring 0, a folded delta puts the newcomers at the end. They agree
exactly when every newcomer that stays has its place on ring 0 after those that were there before
it (`directories_identical_iff`).
-/

namespace Rapid

open Foundations

section Order

variable [Xxh64]

/-- The place on ring 0. -/
def ringZeroKey (e : Endpoint) : Int64 :=
  (addressHashSeedZero e).toInt64

/-- A view as a subscriber can query it; ring 0 is sorted. -/
structure ClusterView where
  configurationId : ConfigurationId
  ring : List Endpoint
  metadata : List (Endpoint × Metadata)
  sorted : KeySorted ringZeroKey ring

namespace ClusterView

variable (v : ClusterView)

def snapshot : List NodeStatusChange :=
  snapshotDelta v.ring v.metadata

def knowledge : Knowledge :=
  Knowledge.none.fold v.snapshot

/-- The directory that starts from a snapshot of the view and folds the events. -/
def directory (key : String) (delimiter : Char) (events : List ClusterStatusChange) : ShardIndex :=
  events.foldl (fun index ev => index.receive key delimiter ev)
    (snapshotIndex key delimiter v.configurationId v.snapshot)

end ClusterView

/-- The events lead from one view to the other, each with an exact delta. -/
inductive Chain : ClusterView → List ClusterStatusChange → ClusterView → Prop
  | nil (v : ClusterView) : Chain v [] v
  | cons {v w z : ClusterView} {ev : ClusterStatusChange} {events : List ClusterStatusChange}
      (hid : ev.configurationId = w.configurationId)
      (hexact : v.knowledge.fold ev.delta = w.knowledge) :
      Chain w events z → Chain v (ev :: events) z

/-- All changes of the events. -/
def changes (events : List ClusterStatusChange) : List NodeStatusChange :=
  events.flatMap ClusterStatusChange.delta

/-- The endpoints in the order in which the events mention them. -/
def mentions (events : List ClusterStatusChange) : List Endpoint :=
  (changes events).map NodeStatusChange.endpoint

variable {v w z : ClusterView} {events : List ClusterStatusChange} {key : String} {delimiter : Char}

theorem Chain.fold (h : Chain v events w) : v.knowledge.fold (changes events) = w.knowledge := by
  induction h with
  | nil => rfl
  | cons _ hexact _ ih =>
      rw [changes, List.flatMap_cons, Knowledge.fold, List.foldl_append]
      rw [Knowledge.fold] at hexact
      rw [hexact]
      exact ih

/-! ## The order in a bucket -/

/-- The replicas stand in the order in which the changes mention them last. -/
structure Ordered (key : String) (delimiter : Char) (index : ShardIndex)
    (history : List NodeStatusChange) : Prop where
  describes : ShardIndex.Describes key delimiter index (Knowledge.none.fold history)
  replicas : ∀ shard, index.replicasOf shard =
    (history.map NodeStatusChange.endpoint).dedup.filter fun e =>
      decide ((Knowledge.none.fold history).Hosts key delimiter shard e)

variable {index : ShardIndex} {history : List NodeStatusChange}

omit [Xxh64] in
theorem Ordered.applyChange (h : Ordered key delimiter index history) (nsc : NodeStatusChange) :
    Ordered key delimiter (index.applyChange key delimiter nsc) (history ++ [nsc]) := by
  have hfold : Knowledge.none.fold (history ++ [nsc]) =
      (Knowledge.none.fold history).apply nsc := by
    simp [Knowledge.fold]
  constructor
  · rw [hfold]
    exact h.describes.applyChange nsc
  · intro shard
    rw [h.describes.bucket_change, h.replicas, hfold, List.map_append, List.map_singleton,
      dedup_concat, List.filter_append, List.filter_filter, List.filter_filter]
    congr 1
    · -- For the other endpoints nothing changes.
      refine List.filter_congr ?_
      intro e _
      by_cases he : e = nsc.endpoint
      · simp [he]
      · simp [he, ShardIndex.hosts_apply]
    · by_cases hup : nsc.status = .up ∧ shard ∈ parseShards nsc.metadata key delimiter
      · simp [hup, ShardIndex.hosts_apply]
      · simp [hup, ShardIndex.hosts_apply]

omit [Xxh64] in
theorem Ordered.applyDelta (delta : List NodeStatusChange) :
    ∀ {index : ShardIndex} {history : List NodeStatusChange}, Ordered key delimiter index history →
      Ordered key delimiter (index.applyDelta key delimiter delta) (history ++ delta) := by
  induction delta with
  | nil =>
      intro index history h
      rw [List.append_nil]
      exact h
  | cons nsc delta ih =>
      intro index history h
      have hrest := ih (h.applyChange nsc)
      rw [List.append_assoc] at hrest
      exact hrest

omit [Xxh64] in
theorem Ordered.relabel (h : Ordered key delimiter index history) (id : ConfigurationId) :
    Ordered key delimiter { index with configurationId := id } history :=
  ⟨⟨h.describes.replicas, h.describes.entries⟩, h.replicas⟩

omit [Xxh64] in
theorem Ordered.empty (id : ConfigurationId) :
    Ordered key delimiter { ShardIndex.default with configurationId := id } [] :=
  ⟨.empty _ id, fun shard => by simp [ShardIndex.replicasOf, ShardIndex.default]⟩

theorem directory_ordered (v : ClusterView) (key : String) (delimiter : Char)
    (events : List ClusterStatusChange) :
    Ordered key delimiter (v.directory key delimiter events) (v.snapshot ++ changes events) := by
  have hevents : ∀ (events : List ClusterStatusChange) {index : ShardIndex}
      {history : List NodeStatusChange}, Ordered key delimiter index history →
      Ordered key delimiter (events.foldl (fun index ev => index.receive key delimiter ev) index)
        (history ++ changes events) := by
    intro events
    induction events with
    | nil =>
        intro index history h
        rw [changes, List.flatMap_nil, List.append_nil]
        exact h
    | cons ev events ih =>
        intro index history h
        have hrest := ih ((h.relabel ev.configurationId).applyDelta ev.delta)
        rw [List.append_assoc] at hrest
        exact hrest
  have hsnapshot : Ordered key delimiter (snapshotIndex key delimiter v.configurationId v.snapshot)
      v.snapshot := (Ordered.empty v.configurationId).applyDelta v.snapshot
  exact hevents events hsnapshot

/-! ## Two starting points -/

theorem snapshot_endpoints (v : ClusterView) : v.snapshot.map NodeStatusChange.endpoint = v.ring := by
  rw [ClusterView.snapshot, snapshotDelta, List.map_map]
  exact List.map_id v.ring

theorem mem_members (v : ClusterView) (e : Endpoint) : e ∈ v.knowledge.members ↔ e ∈ v.ring := by
  rw [ClusterView.knowledge, ClusterView.snapshot, snapshotDelta, fold_ups]
  simp [Knowledge.none]

omit [Xxh64] in
/-- Who is not mentioned neither enters nor leaves. -/
theorem mem_fold_of_unmentioned {e : Endpoint} {delta : List NodeStatusChange} :
    ∀ {known : Knowledge}, e ∉ delta.map NodeStatusChange.endpoint →
      (e ∈ (known.fold delta).members ↔ e ∈ known.members) := by
  induction delta with
  | nil => exact fun _ => .rfl
  | cons nsc delta ih =>
      intro known hout
      rw [List.map_cons, List.mem_cons, not_or] at hout
      have hrest : e ∈ ((known.apply nsc).fold delta).members ↔ e ∈ (known.apply nsc).members :=
        ih hout.2
      refine hrest.trans ?_
      unfold Knowledge.apply
      cases nsc.status with
      | up => simp [hout.1]
      | down => simp [hout.1]

/-- The replicas whose place was settled before the later events, in the order of the first
directory. -/
def settledReplicas (v z : ClusterView) (key : String) (delimiter : Char) (shard : ShardId)
    (between later : List ClusterStatusChange) : List Endpoint :=
  (v.ring ++ mentions between).dedup.filter fun e =>
    decide (z.knowledge.Hosts key delimiter shard e ∧ e ∉ mentions later)

/-- The settled replicas come first, the others in the order of the later events. -/
theorem replicas_directory {between later : List ClusterStatusChange} (h : Chain v between w)
    (h' : Chain w later z) (shard : ShardId) :
    (v.directory key delimiter (between ++ later)).replicasOf shard =
      settledReplicas v z key delimiter shard between later ++
        (mentions later).dedup.filter fun e => decide (z.knowledge.Hosts key delimiter shard e) := by
  have hchanges : changes (between ++ later) = changes between ++ changes later :=
    List.flatMap_append
  have hfold : Knowledge.none.fold (v.snapshot ++ changes (between ++ later)) = z.knowledge := by
    calc
      Knowledge.none.fold (v.snapshot ++ changes (between ++ later))
          = (v.knowledge.fold (changes between)).fold (changes later) := by
            rw [hchanges]
            simp only [Knowledge.fold, List.foldl_append, ClusterView.knowledge]
      _ = w.knowledge.fold (changes later) := by rw [h.fold]
      _ = z.knowledge := h'.fold
  -- Order comes from the mentions: the members of the snapshot first, then those of the changes.
  have hmentions : (v.snapshot ++ changes (between ++ later)).map NodeStatusChange.endpoint =
      (v.ring ++ mentions between) ++ mentions later := by
    rw [hchanges, List.map_append, List.map_append, snapshot_endpoints, mentions, mentions,
      List.append_assoc]
  rw [(directory_ordered v key delimiter (between ++ later)).replicas, hfold, hmentions,
    dedup_append_filter, List.filter_append, List.filter_filter, settledReplicas]
  simp only [Bool.decide_and]

/-- The order of the settled replicas is the order of ring 0 exactly when nobody was put behind a
replica that it precedes on ring 0. -/
theorem keySorted_settledReplicas (v z : ClusterView) (shard : ShardId)
    (between later : List ClusterStatusChange) :
    KeySorted ringZeroKey (settledReplicas v z key delimiter shard between later) ↔
      ∀ x ∈ v.ring ++ mentions between, ∀ y, LastBefore (mentions between) x y →
        z.knowledge.Hosts key delimiter shard x ∧ x ∉ mentions later →
          z.knowledge.Hosts key delimiter shard y ∧ y ∉ mentions later →
            ringZeroKey x < ringZeroKey y := by
  have hring : ∀ x ∈ v.ring, ∀ y, LastBefore v.ring x y → ringZeroKey x < ringZeroKey y := by
    refine pairwise_dedup.1 ?_
    rw [v.sorted.nodup.dedup]
    exact v.sorted
  rw [KeySorted, settledReplicas, List.pairwise_filter, pairwise_dedup]
  simp only [decide_eq_true_eq]
  constructor
  · intro hsorted x hx y hxy
    exact hsorted x hx y (lastBefore_append.2 (.inl hxy))
  · intro hplaced x hx y hxy hhostx hhosty
    rcases lastBefore_append.1 hxy with hbetween | ⟨hout, hbefore⟩
    · exact hplaced x hx y hbetween hhostx hhosty
    · have hxring : x ∈ v.ring := (List.mem_append.1 hx).resolve_right hout
      exact hring x hxring y hbefore

theorem settledReplicas_snapshot (w z : ClusterView) (shard : ShardId)
    (later : List ClusterStatusChange) :
    KeySorted ringZeroKey (settledReplicas w z key delimiter shard [] later) := by
  refine (keySorted_settledReplicas w z shard [] later).2 ?_
  rintro x _ y ⟨_, before, after, hsplit, _⟩
  cases before with
  | nil => cases hsplit
  | cons => cases hsplit

/-- Two directories at the same view list the same replicas in the same order, for every shard, if
and only if each replica that events between the two snapshots put behind another one is behind it
on ring 0 as well, unless later events mention one of the two. -/
theorem directories_identical_iff {between later : List ClusterStatusChange}
    (h : Chain v between w) (h' : Chain w later z) (key : String) (delimiter : Char) :
    (∀ shard, (v.directory key delimiter (between ++ later)).replicasOf shard =
        (w.directory key delimiter later).replicasOf shard) ↔
      ∀ shard x y, LastBefore (mentions between) x y →
        z.knowledge.Hosts key delimiter shard x ∧ x ∉ mentions later →
          z.knowledge.Hosts key delimiter shard y ∧ y ∉ mentions later →
            ringZeroKey x < ringZeroKey y := by
  -- A replica that later events do not mention is a member of both earlier views or in between.
  have hmember : ∀ {shard x}, z.knowledge.Hosts key delimiter shard x ∧ x ∉ mentions later →
      x ∈ w.ring ∧ x ∈ v.ring ++ mentions between := by
    rintro shard x ⟨hhosts, hout⟩
    have hw : x ∈ w.knowledge.members := by
      rw [← mem_fold_of_unmentioned hout, h'.fold]
      exact hhosts.1
    refine ⟨(mem_members w x).1 hw, ?_⟩
    by_cases hbetween : x ∈ mentions between
    · exact List.mem_append_right _ hbetween
    · rw [← h.fold, mem_fold_of_unmentioned hbetween] at hw
      exact List.mem_append_left _ ((mem_members v x).1 hw)
  have hshard : ∀ shard, (v.directory key delimiter (between ++ later)).replicasOf shard =
      (w.directory key delimiter later).replicasOf shard ↔
      KeySorted ringZeroKey (settledReplicas v z key delimiter shard between later) := by
    intro shard
    have hsnapshot : KeySorted ringZeroKey (settledReplicas w z key delimiter shard [] later) :=
      settledReplicas_snapshot w z shard later
    have hsecond : (w.directory key delimiter later).replicasOf shard =
        settledReplicas w z key delimiter shard [] later ++ (mentions later).dedup.filter fun e =>
          decide (z.knowledge.Hosts key delimiter shard e) :=
      replicas_directory (.nil w) h' shard
    rw [replicas_directory h h' shard, hsecond, List.append_left_inj]
    constructor
    · intro heq
      rw [heq]
      exact hsnapshot
    · intro hsorted
      refine hsorted.eq_of_mem_iff hsnapshot ?_
      intro x
      simp only [settledReplicas, List.mem_filter, List.mem_dedup, decide_eq_true_eq]
      constructor
      · rintro ⟨_, hx⟩
        exact ⟨List.mem_append_left _ (hmember hx).1, hx⟩
      · rintro ⟨_, hx⟩
        exact ⟨(hmember hx).2, hx⟩
  simp only [hshard, keySorted_settledReplicas]
  constructor
  · intro hplaced shard x y hxy hx hy
    exact hplaced shard x (hmember hx).2 y hxy hx hy
  · intro hplaced shard x _ y hxy hx hy
    exact hplaced shard x y hxy hx hy

end Order

/-! ### A newcomer in front, and one at the end -/

section Sample

attribute [local instance] xxh64Reference

/-- Metadata that lists the one shard `s`. -/
def hostsShard : Metadata :=
  ⟨Finmap.singleton defaultMetadataKey [115]⟩

/-- A view whose members all host the shard. -/
def taggedView (id : ConfigurationId) (ring : List Endpoint) (sorted : KeySorted ringZeroKey ring) :
    ClusterView where
  configurationId := id
  ring := ring
  metadata := ring.map fun e => (e, hostsShard)
  sorted := sorted

/-- On ring 0 `hostB` stands before `hostA`. -/
theorem hosts_sorted : KeySorted ringZeroKey [hostB, hostA] := by
  unfold KeySorted
  decide +kernel

def bothView : ClusterView :=
  taggedView 2 [hostB, hostA] hosts_sorted

def onlyView (e : Endpoint) : ClusterView :=
  taggedView 1 [e] (List.pairwise_singleton _ e)

/-- The other host joins. -/
def joinEvent (e : Endpoint) : ClusterStatusChange where
  configurationId := 2
  membership := [hostB, hostA]
  delta := [⟨e, .up, hostsShard⟩]

theorem onlyView_knowledge (e : Endpoint) :
    (onlyView e).knowledge =
      { members := {e}
        metadata := fun x => if x = e then hostsShard else default } := by
  rw [ClusterView.knowledge, ClusterView.snapshot, snapshotDelta, fold_ups]
  simp only [Knowledge.mk.injEq]
  refine ⟨?_, ?_⟩
  · simp [Knowledge.none, onlyView, taggedView]
  · funext x
    by_cases hx : x = e
    · subst hx
      simp [onlyView, taggedView]
    · simp [onlyView, taggedView, hx, Knowledge.none]

theorem bothView_knowledge :
    bothView.knowledge =
      { members := {hostA, hostB}
        metadata := fun x => if x = hostA ∨ x = hostB then hostsShard else default } := by
  rw [ClusterView.knowledge, ClusterView.snapshot, snapshotDelta, fold_ups]
  simp only [Knowledge.mk.injEq]
  refine ⟨?_, ?_⟩
  · decide +kernel
  · funext x
    by_cases hA : x = hostA
    · subst hA
      decide +kernel
    · by_cases hB : x = hostB
      · subst hB
        decide +kernel
      · simp [bothView, taggedView, hA, hB, Knowledge.none]

theorem onlyA_chain : Chain (onlyView hostA) [joinEvent hostB] bothView := by
  refine .cons rfl ?_ (.nil _)
  rw [onlyView_knowledge, bothView_knowledge]
  simp only [joinEvent, Knowledge.fold, List.foldl_cons, List.foldl_nil, Knowledge.apply,
    Knowledge.mk.injEq]
  refine ⟨by decide +kernel, ?_⟩
  funext x
  by_cases hB : x = hostB
  · simp [hB]
  · simp [hB]

theorem onlyB_chain : Chain (onlyView hostB) [joinEvent hostA] bothView := by
  refine .cons rfl ?_ (.nil _)
  rw [onlyView_knowledge, bothView_knowledge]
  simp only [joinEvent, Knowledge.fold, List.foldl_cons, List.foldl_nil, Knowledge.apply,
    Knowledge.mk.injEq]
  refine ⟨by decide +kernel, ?_⟩
  funext x
  by_cases hA : x = hostA
  · simp [hA]
  · simp [hA]

/-- `hostB` joins after `hostA`, and a snapshot lists it first. -/
theorem onlyA_reordered :
    ∃ (v w : ClusterView) (events : List ClusterStatusChange), Chain v events w ∧
      (v.directory defaultMetadataKey defaultDelimiter events).configurationId =
        (w.directory defaultMetadataKey defaultDelimiter []).configurationId ∧
      (v.directory defaultMetadataKey defaultDelimiter events).replicasOf "s" ≠
        (w.directory defaultMetadataKey defaultDelimiter []).replicasOf "s" :=
  ⟨onlyView hostA, bothView, [joinEvent hostB], onlyA_chain, by decide +kernel, by decide +kernel⟩

/-- `hostA` joins after `hostB` and is listed last by both. -/
theorem onlyB_identical :
    ((onlyView hostB).directory defaultMetadataKey defaultDelimiter [joinEvent hostA]).replicasOf
      "s" = (bothView.directory defaultMetadataKey defaultDelimiter []).replicasOf "s" := by
  refine (directories_identical_iff onlyB_chain (.nil bothView) defaultMetadataKey
    defaultDelimiter).2 ?_ "s"
  rintro shard x y ⟨hne, before, after, hsplit, _⟩ ⟨hx, _⟩ _
  have hy : y ∈ mentions [joinEvent hostA] := by
    rw [hsplit]
    simp
  have hyA : y = hostA := by simpa [mentions, changes, joinEvent] using hy
  subst hyA
  have hmember := hx.1
  rw [bothView_knowledge] at hmember
  rcases Finset.mem_insert.1 hmember with hxA | hxB
  · exact absurd hxA hne
  · rw [Finset.mem_singleton.1 hxB]
    decide +kernel

end Sample

end Rapid
