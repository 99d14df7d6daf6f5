import Rapid.CutDetector.WatermarkLaw

/-!
# ImplicitDetection — one pass leaves nothing to detect

`invalidate_failing_edges` runs after every batch. It counts an observer of a node in flux as a
report when that observer is itself in flux or stable. A pass only moves nodes from one set to the
other, unless it hands out the proposal and so empties both sets: whatever a second pass would find,
the first one has recorded.
-/

namespace Rapid

open Foundations

namespace MultiNodeCutDetector

variable {cd cd' cd'' : MultiNodeCutDetector} {d x : Endpoint} {ring : UInt8}

/-! ## Counts over all ring numbers -/

theorem card_le_256 (rings : Finset UInt8) : rings.card ≤ 256 := by
  have hsub : rings.image UInt8.toNat ⊆ Finset.range 256 := by
    intro n hn
    rcases Finset.mem_image.1 hn with ⟨r, _, rfl⟩
    exact Finset.mem_range.2 r.toNat_lt
  calc
    rings.card = (rings.image UInt8.toNat).card :=
      (Finset.card_image_of_injective rings fun _ _ => UInt8.toNat_inj.1).symm
    _ ≤ (Finset.range 256).card := Finset.card_le_card hsub
    _ = 256 := Finset.card_range 256

/-- The count of 256 rings wraps around to zero, which is no watermark. -/
theorem toUInt8_eq_watermark {n : Nat} {mark : UInt8} (hn : n ≤ 256) (hmark : 0 < mark.toNat) :
    n.toUInt8 = mark ↔ n = mark.toNat := by
  by_cases hlt : n < 256
  · exact toUInt8_eq_iff hlt
  · have hfull : n = 256 := by omega
    subst hfull
    have hmark' : mark.toNat < 256 := mark.toNat_lt
    constructor
    · intro h
      rw [← h] at hmark
      exact absurd hmark (by decide)
    · intro h
      omega

/-- The number of rings on which a destination was reported. -/
def count (cd : MultiNodeCutDetector) (d : Endpoint) : Nat :=
  (cd.reports d).keys.card

theorem keys_insert_ring (rings : Finmap fun _ : UInt8 => Endpoint) (src : Endpoint) :
    (rings.insert ring src).keys = insert ring rings.keys := by
  ext r
  simp [Finmap.mem_keys, Finmap.mem_insert]

/-! ## One report -/

/-- What a report of `ring` about `d` does to the tables. -/
structure Reported (cd : MultiNodeCutDetector) (d : Endpoint) (ring : UInt8)
    (cd' : MultiNodeCutDetector) : Prop where
  l : cd'.l = cd.l
  h : cd'.h = cd.h
  others : ∀ x, x ≠ d → cd'.reports x = cd.reports x
  keys : (cd'.reports d).keys = insert ring (cd.reports d).keys
  sets :
    (cd'.count d = cd.count d ∧ cd'.preProposal = cd.preProposal ∧
      cd'.updatesInProgress = cd.updatesInProgress ∧ cd'.proposal = cd.proposal) ∨
    (cd'.count d = cd.count d + 1 ∧ cd.count d + 1 ≠ cd.h.toNat ∧
      cd'.preProposal =
        (if cd.count d + 1 = cd.l.toNat then insert d cd.preProposal else cd.preProposal) ∧
      cd'.updatesInProgress = (if cd.count d + 1 = cd.l.toNat then cd.updatesInProgress + 1
        else cd.updatesInProgress) ∧ cd'.proposal = cd.proposal) ∨
    (cd'.count d = cd.count d + 1 ∧ cd.count d + 1 = cd.h.toNat ∧
      cd'.preProposal = (if cd.count d + 1 = cd.l.toNat then insert d cd.preProposal
        else cd.preProposal).erase d ∧
      cd'.updatesInProgress = (if cd.count d + 1 = cd.l.toNat then cd.updatesInProgress + 1
        else cd.updatesInProgress) - 1 ∧
      (cd'.proposal = insert d cd.proposal ∨ (cd'.updatesInProgress = 0 ∧ cd'.proposal = ∅)))

theorem aggregateOne_reported (cd : MultiNodeCutDetector) (order : HashOrder EndpointKey)
    (src d : Endpoint) (status : EdgeStatus) (ring : UInt8) :
    Reported cd d ring (cd.aggregateOne order src d status ring).1 := by
  by_cases hmem : ring ∈ cd.reports d
  · rcases aggregateOne_of_mem order src status hmem with
      ⟨known, _, hl, hh, hreports, hpre, hupdates, hproposal, hcode⟩
    rw [hcode]
    -- The ring is known: the entry is written again, as it was.
    have hsame : ∀ x, known.reports x = cd.reports x := by
      intro x
      rw [reports_insert hreports]
      split
      · rename_i hx
        rw [hx]
      · rfl
    refine ⟨hl, hh, fun x _ => hsame x, ?_, .inl ⟨?_, hpre, hupdates, hproposal⟩⟩
    · rw [hsame d, Finset.insert_eq_of_mem (Finmap.mem_keys.2 hmem)]
    · rw [count, count, hsame d]
  · rcases aggregateOne_of_new order src status hmem rfl with
      ⟨flux, hobj, _, hl, hh, hreports, hpre, hupdates, hproposal, hcode⟩
    have hkeys : (flux.reports d).keys = insert ring (cd.reports d).keys := by
      rw [reports_insert hreports, if_pos rfl, keys_insert_ring]
    have hothers : ∀ x, x ≠ d → flux.reports x = cd.reports x := by
      intro x hx
      rw [reports_insert hreports, if_neg hx]
    have hcard : ((cd.reports d).insert ring src).keys.card = cd.count d + 1 := by
      rw [keys_insert_ring, Finset.card_insert_of_notMem (mt Finmap.mem_keys.1 hmem), count]
    have hcount : flux.count d = cd.count d + 1 := by
      rw [← hcard, count, hkeys, keys_insert_ring]
    have hbound : cd.count d + 1 ≤ 256 := by
      rw [← hcard]
      exact card_le_256 _
    rw [hcard] at hpre hupdates hcode
    simp only [toUInt8_eq_watermark hbound cd.l_pos, toUInt8_eq_watermark hbound cd.h_pos]
      at hpre hupdates hcode
    rw [hcode]
    by_cases hhigh : cd.count d + 1 = cd.h.toNat
    · rw [if_pos hhigh]
      by_cases hzero : (flux.enterProposal d hobj).updatesInProgress = 0
      · rw [if_pos hzero]
        refine ⟨hl, hh, hothers, hkeys, .inr (.inr ⟨hcount, hhigh, ?_, ?_, .inr ⟨hzero, rfl⟩⟩)⟩
        · rw [← hpre]
          rfl
        · rw [← hupdates]
          rfl
      · rw [if_neg hzero]
        refine ⟨hl, hh, hothers, hkeys, .inr (.inr ⟨hcount, hhigh, ?_, ?_, .inl ?_⟩)⟩
        · rw [← hpre]
          rfl
        · rw [← hupdates]
          rfl
        · rw [← hproposal]
          rfl
    · rw [if_neg hhigh]
      exact ⟨hl, hh, hothers, hkeys, .inr (.inl ⟨hcount, hhigh, hpre, hupdates, hproposal⟩)⟩

@[simp] theorem checkLow_seenLinkDownEvents {hobj : d ∈ cd.endpointObjs} {num : UInt8} :
    (cd.checkLow d hobj num).seenLinkDownEvents = cd.seenLinkDownEvents := by
  unfold checkLow
  split <;> rfl

theorem seenLinkDownEvents_aggregateOne (cd : MultiNodeCutDetector) (order : HashOrder EndpointKey)
    (src d : Endpoint) (status : EdgeStatus) (ring : UInt8) :
    (cd.aggregateOne order src d status ring).1.seenLinkDownEvents =
      (cd.seenLinkDownEvents || status = EdgeStatus.down) := by
  unfold aggregateOne
  dsimp only
  split
  · rfl
  · split
    · split
      · exact checkLow_seenLinkDownEvents
      · exact checkLow_seenLinkDownEvents
    · rw [checkLow_seenLinkDownEvents]
      rfl

/-- A report that is known already changes nothing at all. -/
theorem aggregateOne_known (order : HashOrder EndpointKey) (src : Endpoint) (status : EdgeStatus)
    (hseen : cd.seenLinkDownEvents = true) (hobj : d ∈ cd.endpointObjs)
    (hmem : ring ∈ cd.reports d) : cd.aggregateOne order src d status ring = (cd, []) := by
  have hreports : cd.reportsPerHost.insert d (cd.reports d) = cd.reportsPerHost := by
    apply Finmap.ext_lookup
    intro x
    by_cases hx : x = d
    · subst hx
      rw [Finmap.lookup_insert]
      -- The table has an entry for the destination, else there would be no report.
      cases hlookup : cd.reportsPerHost.lookup x with
      | none =>
          rw [reports, hlookup] at hmem
          exact absurd hmem Finmap.notMem_empty
      | some rings => rw [reports, hlookup, Option.getD_some]
    · rw [Finmap.lookup_insert_of_ne _ hx]
  have hcode : cd.aggregateOne order src d status ring =
      ({ ({ cd with seenLinkDownEvents := cd.seenLinkDownEvents || status = EdgeStatus.down }
          : MultiNodeCutDetector).rememberEndpoint d with
        reportsPerHost := cd.reportsPerHost.insert d (cd.reports d) }, []) := if_pos hmem
  rw [hcode]
  have hstill : (cd.seenLinkDownEvents || decide (status = EdgeStatus.down)) =
      cd.seenLinkDownEvents := by
    rw [hseen]
    rfl
  simp only [rememberEndpoint, hreports, hstill, if_pos hobj]

/-! ## The balance between counts and sets -/

/-- A destination is in flux between the two watermarks, and the counter counts those in flux. -/
structure Balanced (cd : MultiNodeCutDetector) : Prop where
  flux : ∀ d, d ∈ cd.preProposal ↔ cd.l.toNat ≤ cd.count d ∧ cd.count d < cd.h.toNat
  counter : cd.updatesInProgress = cd.preProposal.card

theorem Balanced.of_fresh (hreports : cd.reportsPerHost = ∅) (hpre : cd.preProposal = ∅)
    (hupdates : cd.updatesInProgress = 0) : Balanced cd where
  flux := by
    intro d
    have hcount : cd.count d = 0 := by
      rw [count, reports, hreports, Finmap.lookup_empty]
      rfl
    have hl := cd.l_pos
    rw [hpre, hcount]
    constructor
    · intro hd
      cases hd
    · intro hd
      omega
  counter := by
    rw [hpre, hupdates]
    rfl

theorem Reported.count_of_ne (hr : Reported cd d ring cd') (hx : x ≠ d) :
    cd'.count x = cd.count x := by
  rw [count, count, hr.others x hx]

/-- Below the upper watermark the destination is in flux from the lower one on. -/
theorem Reported.balanced (hr : Reported cd d ring cd') (hb : Balanced cd) : Balanced cd' := by
  have hle := cd.l_le_h_toNat
  have hd := hb.flux d
  have hout : cd.count d + 1 = cd.l.toNat → d ∉ cd.preProposal := by
    intro hlow hmem
    have hin := hd.1 hmem
    omega
  rcases hr.sets with ⟨hcount, hpre, hupdates, _⟩ | ⟨hcount, hhigh, hpre, hupdates, _⟩ |
    ⟨hcount, hhigh, hpre, hupdates, _⟩
  · -- Nothing is counted.
    refine ⟨?_, by rw [hupdates, hpre]; exact hb.counter⟩
    intro x
    rw [hpre, hr.l, hr.h]
    by_cases hx : x = d
    · rw [hx, hcount]
      exact hd
    · rw [hr.count_of_ne hx]
      exact hb.flux x
  · -- The destination may enter the nodes in flux.
    constructor
    · intro x
      rw [hpre, hr.l, hr.h]
      by_cases hx : x = d
      · rw [hx, hcount]
        split
        · simp only [Finset.mem_insert_self, true_iff]
          omega
        · rw [hd]
          omega
      · rw [hr.count_of_ne hx, ← hb.flux x]
        split
        · simp [hx]
        · rfl
    · rw [hupdates, hpre, hb.counter]
      split
      · rename_i hlow
        rw [Finset.card_insert_of_notMem (hout hlow)]
        push_cast
        rfl
      · rfl
  · -- The destination is stable and leaves them.
    have hmem : d ∈ (if cd.count d + 1 = cd.l.toNat then insert d cd.preProposal
        else cd.preProposal) := by
      split
      · exact Finset.mem_insert_self _ _
      · rw [hd]
        omega
    constructor
    · intro x
      rw [hpre, hr.l, hr.h]
      by_cases hx : x = d
      · rw [hx, hcount]
        simp only [Finset.notMem_erase, false_iff]
        omega
      · rw [hr.count_of_ne hx, ← hb.flux x, Finset.mem_erase]
        split
        · simp [hx]
        · simp [hx]
    · rw [hupdates, hpre, Finset.card_erase_of_mem hmem, hb.counter]
      have hpos : 0 < (if cd.count d + 1 = cd.l.toNat then insert d cd.preProposal
          else cd.preProposal).card := Finset.card_pos.2 ⟨d, hmem⟩
      split
      · rename_i hlow
        rw [Finset.card_insert_of_notMem (hout hlow)]
        omega
      · rename_i hlow
        rw [if_neg hlow] at hpos
        omega

/-! ## A pass over the nodes in flux -/

/-- The nodes that count as reporters: in flux or stable. -/
def marked (cd : MultiNodeCutDetector) : Finset Endpoint :=
  cd.proposal ∪ cd.preProposal

/-- `cd'` comes after `cd` in one pass. -/
structure Later (cd cd' : MultiNodeCutDetector) : Prop where
  l : cd'.l = cd.l
  balanced : Balanced cd → Balanced cd'
  seen : cd.seenLinkDownEvents = true → cd'.seenLinkDownEvents = true
  flux : cd'.preProposal ⊆ cd.preProposal
  marked : cd'.marked = ∅ ∨ cd'.marked = cd.marked
  grows : ∀ d r, r ∈ cd.reports d → r ∈ cd'.reports d

theorem Later.refl (cd : MultiNodeCutDetector) : Later cd cd :=
  ⟨rfl, id, id, Finset.Subset.refl _, .inr rfl, fun _ _ => id⟩

theorem Later.trans (h : Later cd cd') (h' : Later cd' cd'') : Later cd cd'' where
  l := h'.l.trans h.l
  balanced := fun hb => h'.balanced (h.balanced hb)
  seen := fun hseen => h'.seen (h.seen hseen)
  flux := h'.flux.trans h.flux
  marked := by
    rcases h'.marked with hnone | hsame
    · exact .inl hnone
    · rw [hsame]
      exact h.marked
  grows := fun d r hr => h'.grows d r (h.grows d r hr)

/-- Unless everything was handed out, the same nodes count as reporters. -/
theorem Later.mem_marked (h : Later cd cd') (hx : x ∈ cd'.marked) : x ∈ cd.marked := by
  rcases h.marked with hnone | hsame
  · rw [hnone] at hx
    cases hx
  · rw [hsame] at hx
    exact hx

theorem Later.count_le (h : Later cd cd') (d : Endpoint) : cd.count d ≤ cd'.count d := by
  refine Finset.card_le_card ?_
  intro r hr
  exact Finmap.mem_keys.2 (h.grows d r (Finmap.mem_keys.1 hr))

/-- A report about a node in flux only moves it to the stable ones, or hands everything out. -/
theorem Reported.later (hr : Reported cd d ring cd') (hb : Balanced cd)
    (hlow : cd.l.toNat ≤ cd.count d)
    (hseen : cd.seenLinkDownEvents = true → cd'.seenLinkDownEvents = true) : Later cd cd' := by
  have hgrows : ∀ x r, r ∈ cd.reports x → r ∈ cd'.reports x := by
    intro x r hmem
    by_cases hx : x = d
    · subst hx
      refine Finmap.mem_keys.1 ?_
      rw [hr.keys]
      exact Finset.mem_insert_of_mem (Finmap.mem_keys.2 hmem)
    · rw [hr.others x hx]
      exact hmem
  -- The count has left the lower watermark behind.
  have hpast : cd.count d + 1 ≠ cd.l.toNat := by omega
  have hbalanced := hr.balanced hb
  have hsets := hr.sets
  simp only [if_neg hpast] at hsets
  rcases hsets with ⟨_, hpre, _, hproposal⟩ | ⟨_, _, hpre, _, hproposal⟩ |
    ⟨_, hhigh, hpre, _, hproposal⟩
  · refine ⟨hr.l, fun _ => hbalanced, hseen, ?_, .inr ?_, hgrows⟩
    · rw [hpre]
    · rw [marked, marked, hpre, hproposal]
  · refine ⟨hr.l, fun _ => hbalanced, hseen, ?_, .inr ?_, hgrows⟩
    · rw [hpre]
    · rw [marked, marked, hpre, hproposal]
  · refine ⟨hr.l, fun _ => hbalanced, hseen, ?_, ?_, hgrows⟩
    · rw [hpre]
      exact Finset.erase_subset _ _
    · rcases hproposal with hproposal | ⟨hzero, hproposal⟩
      · refine .inr ?_
        have hmem : d ∈ cd.preProposal := (hb.flux d).2 ⟨hlow, by omega⟩
        ext x
        by_cases hx : x = d
        · simp [marked, hpre, hproposal, hx, hmem]
        · simp [marked, hpre, hproposal, hx]
      · -- The counter is zero: nothing is left in flux.
        have hempty : cd'.preProposal = ∅ := by
          have hcard := hbalanced.counter
          rw [hzero] at hcard
          exact Finset.card_eq_zero.1 (by exact_mod_cast hcard.symm)
        refine .inl ?_
        rw [marked, hproposal, hempty, Finset.union_empty]

theorem aggregateOne_later (order : HashOrder EndpointKey) (src d : Endpoint) (status : EdgeStatus)
    (ring : UInt8) (hb : Balanced cd) (hlow : cd.l.toNat ≤ cd.count d) :
    Later cd (cd.aggregateOne order src d status ring).1 := by
  refine (cd.aggregateOne_reported order src d status ring).later hb hlow ?_
  intro hseen
  rw [seenLinkDownEvents_aggregateOne, hseen, Bool.true_or]

theorem mem_reports_aggregateOne (cd : MultiNodeCutDetector) (order : HashOrder EndpointKey)
    (src d : Endpoint) (status : EdgeStatus) (ring : UInt8) :
    ring ∈ (cd.aggregateOne order src d status ring).1.reports d := by
  refine Finmap.mem_keys.1 ?_
  rw [(cd.aggregateOne_reported order src d status ring).keys]
  exact Finset.mem_insert_self _ _

/-- Every listed observer that counts as a reporter has its ring recorded. -/
def Recorded (cd : MultiNodeCutDetector) (edges : List (Endpoint × Nat)) (d : Endpoint) : Prop :=
  ∀ edge ∈ edges, edge.1 ∈ cd.marked → edge.2.toUInt8 ∈ cd.reports d

theorem Recorded.later {edges : List (Endpoint × Nat)} (hrec : Recorded cd edges d)
    (h : Later cd cd') : Recorded cd' edges d := by
  intro edge hedge hmarked
  exact h.grows d _ (hrec edge hedge (h.mem_marked hmarked))

theorem mem_marked : x ∈ cd.marked ↔ x ∈ cd.proposal ∨ x ∈ cd.preProposal :=
  Finset.mem_union

/-- The pass over the observers of one node. -/
theorem invalidateEdges_pass (order : HashOrder EndpointKey) (status : EdgeStatus)
    (edges : List (Endpoint × Nat)) : ∀ acc : MultiNodeCutDetector × List Endpoint,
      Balanced acc.1 → acc.1.l.toNat ≤ acc.1.count d →
        Later acc.1 (edges.foldl (invalidateEdge order d status) acc).1 ∧
          Recorded (edges.foldl (invalidateEdge order d status) acc).1 edges d := by
  induction edges with
  | nil =>
      intro acc _ _
      exact ⟨.refl _, fun edge hedge => by cases hedge⟩
  | cons edge edges ih =>
      intro acc hb hlow
      -- The first edge, which is recorded if its observer is marked.
      have hfirst : Later acc.1 (invalidateEdge order d status acc edge).1 ∧
          Recorded (invalidateEdge order d status acc edge).1 [edge] d := by
        unfold invalidateEdge
        split
        · refine ⟨aggregateOne_later order _ _ _ _ hb hlow, ?_⟩
          intro edge' hedge' _
          cases List.mem_singleton.1 hedge'
          exact mem_reports_aggregateOne _ _ _ _ _ _
        · rename_i hunmarked
          refine ⟨.refl _, ?_⟩
          intro edge' hedge' hmarked
          cases List.mem_singleton.1 hedge'
          exact absurd (mem_marked.1 hmarked) hunmarked
      have hlow' : (invalidateEdge order d status acc edge).1.l.toNat ≤
          (invalidateEdge order d status acc edge).1.count d := by
        rw [hfirst.1.l]
        exact hlow.trans (hfirst.1.count_le d)
      rcases ih _ (hfirst.1.balanced hb) hlow' with ⟨hlater, hrecorded⟩
      refine ⟨hfirst.1.trans hlater, ?_⟩
      intro edge' hedge'
      rcases List.mem_cons.1 hedge' with rfl | hrest
      · exact hfirst.2.later hlater edge' (List.mem_singleton_self _)
      · exact hrecorded edge' hrest

end MultiNodeCutDetector

/-! ## Filling the observer cache -/

namespace MembershipView

variable [Xxh64] {v w u : MembershipView}

/-- `w` is `v` with some observers of members looked up and remembered. -/
structure Fills (v w : MembershipView) : Prop where
  same : w = { v with cachedObservers := w.cachedObservers }
  cached : ∀ x, w.cachedObservers.lookup x = v.cachedObservers.lookup x ∨
    (x ∈ v.allNodes ∧ v.cachedObservers.lookup x = none ∧
      w.cachedObservers.lookup x = some (v.computeObserversOf x))

theorem Fills.refl (v : MembershipView) : v.Fills v :=
  ⟨rfl, fun _ => .inl rfl⟩

theorem Fills.allNodes (h : v.Fills w) : w.allNodes = v.allNodes := by
  rw [h.same]

theorem Fills.computeObserversOf (h : v.Fills w) (x : Endpoint) :
    w.computeObserversOf x = v.computeObserversOf x := by
  rw [h.same]
  rfl

theorem Fills.trans (h : v.Fills w) (h' : w.Fills u) : v.Fills u := by
  constructor
  · calc
      u = { w with cachedObservers := u.cachedObservers } := h'.same
      _ = { v with cachedObservers := u.cachedObservers } := by rw [h.same]
  · intro x
    rcases h'.cached x with hsame | ⟨hx, hnone, hfilled⟩
    · rw [hsame]
      exact h.cached x
    · rcases h.cached x with hsame | ⟨_, _, hsome⟩
      · refine .inr ⟨h.allNodes ▸ hx, hsame ▸ hnone, ?_⟩
        rw [hfilled, h.computeObserversOf]
      · rw [hsome] at hnone
        cases hnone

end MembershipView

namespace MultiNodeCutDetector

variable [Xxh64] {cd : MultiNodeCutDetector} {d : Endpoint} {v w : MembershipView}

theorem fills_observersInFlux (v : MembershipView) (x : Endpoint) :
    v.Fills (observersInFlux v x).1 := by
  unfold observersInFlux MembershipView.getObserversOf
  split
  · rename_i hx
    cases hlookup : v.cachedObservers.lookup x with
    | some observers => exact .refl v
    | none =>
        refine ⟨rfl, ?_⟩
        intro y
        by_cases hy : y = x
        · subst hy
          exact .inr ⟨of_decide_eq_true hx, hlookup, Finmap.lookup_insert _⟩
        · exact .inl (Finmap.lookup_insert_of_ne _ hy)
  · exact .refl v

/-- Whatever the detector knows, implicit detection only looks observers up. -/
theorem fills_invalidateFailingEdges (preOrder order : HashOrder EndpointKey)
    (cd : MultiNodeCutDetector) (view : MembershipView) :
    view.Fills (cd.invalidateFailingEdges preOrder order view).2.1 := by
  have hnodes : ∀ (nodes : List Endpoint)
      (acc : MultiNodeCutDetector × MembershipView × List Endpoint),
      acc.2.1.Fills (nodes.foldl (invalidateNode order) acc).2.1 := by
    intro nodes
    induction nodes with
    | nil => exact fun acc => .refl _
    | cons node nodes ih =>
        intro acc
        have hfirst : acc.2.1.Fills (invalidateNode order acc node).2.1 :=
          fills_observersInFlux acc.2.1 node
        exact hfirst.trans (ih _)
  unfold invalidateFailingEdges
  split
  · exact hnodes _ (cd, view, [])
  · exact .refl view

theorem observersInFlux_snd (v : MembershipView) (x : Endpoint) :
    (observersInFlux v x).2 =
      if x ∈ v.allNodes then (v.cachedObservers.lookup x).getD (v.computeObserversOf x)
      else v.getExpectedObserversOf x := by
  unfold observersInFlux MembershipView.getObserversOf MembershipView.isHostPresent
  by_cases hx : x ∈ v.allNodes
  · simp only [hx, decide_true, if_true]
    cases v.cachedObservers.lookup x with
    | some observers => rfl
    | none => rfl
  · simp [hx]

/-- A filled cache gives the same observers. -/
theorem observersInFlux_fills (h : v.Fills w) (x : Endpoint) :
    (observersInFlux w x).2 = (observersInFlux v x).2 := by
  have hexpected : w.getExpectedObserversOf x = v.getExpectedObserversOf x := by
    rw [h.same]
    rfl
  simp only [observersInFlux_snd, h.allNodes, h.computeObserversOf, hexpected]
  rcases h.cached x with hsame | ⟨_, hnone, hfilled⟩
  · rw [hsame]
  · rw [hnone, hfilled]
    rfl

/-! ## Implicit detection reaches its fixed point -/

/-- Implicit detection has nothing to find: every observer of a node in flux that counts as a
reporter has its ring recorded. -/
def Implied (cd : MultiNodeCutDetector) (view : MembershipView) : Prop :=
  ∀ x ∈ cd.preProposal, Recorded cd (observersInFlux view x).2.zipIdx x

theorem Implied.fills (h : Implied cd v) (hfills : v.Fills w) : Implied cd w := by
  intro x hx
  rw [observersInFlux_fills hfills]
  exact h x hx

/-- The pass over some nodes in flux. -/
theorem invalidateNodes_pass (order : HashOrder EndpointKey) (nodes : List Endpoint) :
    ∀ acc : MultiNodeCutDetector × MembershipView × List Endpoint, Balanced acc.1 →
      (∀ x ∈ nodes, acc.1.l.toNat ≤ acc.1.count x) →
        Later acc.1 (nodes.foldl (invalidateNode order) acc).1 ∧
          acc.2.1.Fills (nodes.foldl (invalidateNode order) acc).2.1 ∧
          ∀ x ∈ nodes, Recorded (nodes.foldl (invalidateNode order) acc).1
            (observersInFlux acc.2.1 x).2.zipIdx x := by
  induction nodes with
  | nil =>
      intro acc _ _
      exact ⟨.refl _, .refl _, fun x hx => by cases hx⟩
  | cons node nodes ih =>
      intro acc hb hlow
      have hfills : acc.2.1.Fills (invalidateNode order acc node).2.1 :=
        fills_observersInFlux acc.2.1 node
      have hfirst : Later acc.1 (invalidateNode order acc node).1 ∧
          Recorded (invalidateNode order acc node).1 (observersInFlux acc.2.1 node).2.zipIdx node :=
        invalidateEdges_pass order _ _ (acc.1, acc.2.2) hb (hlow node List.mem_cons_self)
      -- Counts do not fall, so the other nodes are still in flux or proposed.
      have hlow' : ∀ x ∈ nodes, (invalidateNode order acc node).1.l.toNat ≤
          (invalidateNode order acc node).1.count x := by
        intro x hx
        rw [hfirst.1.l]
        exact (hlow x (List.mem_cons_of_mem _ hx)).trans (hfirst.1.count_le x)
      rcases ih _ (hfirst.1.balanced hb) hlow' with ⟨hlater, hfills', hrecorded⟩
      refine ⟨hfirst.1.trans hlater, hfills.trans hfills', ?_⟩
      intro x hx
      rcases List.mem_cons.1 hx with rfl | hrest
      · exact hfirst.2.later hlater
      · have hrec := hrecorded x hrest
        rw [observersInFlux_fills hfills] at hrec
        exact hrec

theorem invalidateFailingEdges_pass (preOrder order : HashOrder EndpointKey) (view : MembershipView)
    (hb : Balanced cd) :
    Balanced (cd.invalidateFailingEdges preOrder order view).1 ∧
      view.Fills (cd.invalidateFailingEdges preOrder order view).2.1 ∧
      ((cd.invalidateFailingEdges preOrder order view).1.seenLinkDownEvents = true →
        Implied (cd.invalidateFailingEdges preOrder order view).1
          (cd.invalidateFailingEdges preOrder order view).2.1) := by
  unfold invalidateFailingEdges
  split
  · rw [objects_eq]
    have hlow : ∀ x ∈ preOrder.list cd.preProposal, cd.l.toNat ≤ cd.count x := by
      intro x hx
      exact ((hb.flux x).1 (preOrder.mem_list_iff.1 hx)).1
    rcases invalidateNodes_pass order (preOrder.list cd.preProposal) (cd, view, []) hb hlow with
      ⟨hlater, hfills, hrecorded⟩
    refine ⟨hlater.balanced hb, hfills, fun _ => ?_⟩
    -- What is still in flux was in flux before the pass, so its observers have been visited.
    have himplied : Implied ((preOrder.list cd.preProposal).foldl (invalidateNode order)
        (cd, view, [])).1 view := by
      intro x hx
      exact hrecorded x (preOrder.mem_list_iff.2 (hlater.flux hx))
    exact himplied.fills hfills
  · rename_i hseen
    exact ⟨hb, .refl view, fun h => absurd h hseen⟩

omit [Xxh64] in
/-- At the fixed point the pass over the observers changes nothing. -/
theorem invalidateEdges_known (order : HashOrder EndpointKey) (status : EdgeStatus)
    (hseen : cd.seenLinkDownEvents = true) (hobj : d ∈ cd.endpointObjs) (out : List Endpoint)
    {edges : List (Endpoint × Nat)} (hrec : Recorded cd edges d) :
    edges.foldl (invalidateEdge order d status) (cd, out) = (cd, out) := by
  induction edges with
  | nil => rfl
  | cons edge edges ih =>
      have hfirst : invalidateEdge order d status (cd, out) edge = (cd, out) := by
        unfold invalidateEdge
        split
        · rename_i hmarked
          have hmem := hrec edge List.mem_cons_self (mem_marked.2 hmarked)
          rw [aggregateOne_known order _ status hseen hobj hmem]
          exact Prod.ext rfl (List.append_nil out)
        · rfl
      rw [List.foldl_cons, hfirst]
      exact ih fun edge' hedge' => hrec edge' (List.mem_cons_of_mem _ hedge')

/-- At the fixed point a pass only fills the cache. -/
theorem invalidateFailingEdges_implied (preOrder order : HashOrder EndpointKey)
    {view : MembershipView} (himplied : cd.seenLinkDownEvents = true → Implied cd view) :
    ∃ filled, view.Fills filled ∧
      cd.invalidateFailingEdges preOrder order view = (cd, filled, []) := by
  unfold invalidateFailingEdges
  split
  · rename_i hseen
    rw [objects_eq]
    -- Node after node only the cache is filled, and that changes no list.
    have hnodes : ∀ (nodes : List Endpoint) (v : MembershipView), (∀ x ∈ nodes, x ∈ cd.preProposal) →
        Implied cd v → ∃ filled, v.Fills filled ∧
          nodes.foldl (invalidateNode order) (cd, v, []) = (cd, filled, []) := by
      intro nodes
      induction nodes with
      | nil =>
          intro v _ _
          exact ⟨v, .refl v, rfl⟩
      | cons node nodes ih =>
          intro v hnodes hv
          have hnode := hnodes node List.mem_cons_self
          have hfirst : invalidateNode order (cd, v, []) node =
              (cd, (observersInFlux v node).1, []) := by
            unfold invalidateNode
            dsimp only
            rw [invalidateEdges_known order _ hseen (cd.preProposal_objs node hnode) []
              (hv node hnode)]
          have hfills := fills_observersInFlux v node
          rcases ih _ (fun x hx => hnodes x (List.mem_cons_of_mem _ hx)) (hv.fills hfills) with
            ⟨filled, hfilled, hrest⟩
          refine ⟨filled, hfills.trans hfilled, ?_⟩
          rw [List.foldl_cons, hfirst]
          exact hrest
    exact hnodes _ view (fun x hx => preOrder.mem_list_iff.1 hx) (himplied hseen)
  · exact ⟨view, .refl view, rfl⟩

/-! ## Everything is a sequence of reports -/

section Keeps

variable {I : MultiNodeCutDetector → List Endpoint → Prop}

omit [Xxh64] in
/-- The rule for `aggregate`: what every report keeps, of the detector and of the endpoints emitted so
far, is kept by all of them. -/
theorem keeps_aggregateRings (order : HashOrder EndpointKey) (src d : Endpoint) (status : EdgeStatus)
    {rings : List UInt8}
    (h : ∀ cd out ring, ring ∈ rings → I cd out →
      I (aggregateOne cd order src d status ring).1
        (out ++ (aggregateOne cd order src d status ring).2)) :
    ∀ {cd out}, I cd out → I (aggregateRings order src d status rings cd).1
      (out ++ (aggregateRings order src d status rings cd).2) := by
  induction rings with
  | nil => exact fun hI => by simpa [aggregateRings] using hI
  | cons ring rings ih =>
      intro cd out hI
      have hfirst := h cd out ring List.mem_cons_self hI
      have hrest := ih (fun cd out r hr => h cd out r (List.mem_cons_of_mem ring hr)) hfirst
      simpa [aggregateRings] using hrest

omit [Xxh64] in
theorem keeps_aggregate (order : HashOrder EndpointKey) (msg : AlertMessage) (out : List Endpoint)
    (h : ∀ cd out src dst ring, msg.edgeSrc = some src → msg.edgeDst = some dst →
      ring ∈ msg.ringNumber.map ringAsUInt8 → I cd out →
        I (aggregateOne cd order src dst (statusOf msg) ring).1
          (out ++ (aggregateOne cd order src dst (statusOf msg) ring).2)) (hI : I cd out) :
    I (cd.aggregate order msg).1 (out ++ (cd.aggregate order msg).2) := by
  unfold aggregate
  split
  · rename_i src dst hsrc hdst
    refine keeps_aggregateRings order src dst _ (fun cd out ring hring => ?_) hI
    exact h cd out src dst ring hsrc hdst hring
  · simpa using hI

/-- The rule for implicit detection: its reports come from marked observers, on their own rings. -/
theorem keeps_invalidateFailingEdges (preOrder order : HashOrder EndpointKey) {view : MembershipView}
    (h : ∀ (cd : MultiNodeCutDetector) out x status observer (i : Nat), observer ∈ cd.marked →
      (observersInFlux view x).2[i]? = some observer → I cd out →
        I (cd.aggregateOne order observer x status i.toUInt8).1
          (out ++ (cd.aggregateOne order observer x status i.toUInt8).2)) (hI : I cd []) :
    I (cd.invalidateFailingEdges preOrder order view).1
      (cd.invalidateFailingEdges preOrder order view).2.2 := by
  -- One node: every observer that is marked is one more report.
  have hedges : ∀ (x : Endpoint) (status : EdgeStatus) (edges : List (Endpoint × Nat))
      (acc : MultiNodeCutDetector × List Endpoint),
      (∀ edge ∈ edges, (observersInFlux view x).2[edge.2]? = some edge.1) → I acc.1 acc.2 →
        I (edges.foldl (invalidateEdge order x status) acc).1
          (edges.foldl (invalidateEdge order x status) acc).2 := by
    intro x status edges acc hlisted hacc
    refine List.foldlRecOn edges _
      (motive := fun acc : MultiNodeCutDetector × List Endpoint => I acc.1 acc.2) hacc ?_
    intro acc hacc edge hedge
    unfold invalidateEdge
    split
    · rename_i hmarked
      exact h acc.1 acc.2 x status edge.1 edge.2 (mem_marked.2 hmarked) (hlisted edge hedge) hacc
    · exact hacc
  unfold invalidateFailingEdges
  split
  · have hnodes := List.foldlRecOn (cd.objects preOrder cd.preProposal cd.preProposal_objs)
      (invalidateNode order) (b := (cd, view, []))
      (motive := fun acc : MultiNodeCutDetector × MembershipView × List Endpoint =>
        view.Fills acc.2.1 ∧ I acc.1 acc.2.2) ⟨.refl view, hI⟩ ?_
    · exact hnodes.2
    · intro acc hacc node _
      refine ⟨hacc.1.trans (fills_observersInFlux acc.2.1 node), ?_⟩
      refine hedges node _ _ (acc.1, acc.2.2) (fun edge hedge => ?_) hacc.2
      rw [observersInFlux_fills hacc.1] at hedge
      exact List.mem_zipIdx_iff_getElem?.1 hedge
  · exact hI

end Keeps

/-! ## Batches -/

omit [Xxh64] in
theorem Balanced.aggregate (hb : Balanced cd) (order : HashOrder EndpointKey) (msg : AlertMessage) :
    Balanced (cd.aggregate order msg).1 :=
  keeps_aggregate (I := fun cd _ => Balanced cd) order msg []
    (fun cd _ src dst ring _ _ _ hb => (cd.aggregateOne_reported order src dst _ ring).balanced hb) hb

end MultiNodeCutDetector

end Rapid
