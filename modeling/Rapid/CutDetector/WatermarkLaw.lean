import Rapid.CutDetector.MultiNodeCutDetector
import Rapid.Foundations.Watermark
import Rapid.Foundations.Transition
import Rapid.Xxh64Reference

/-!
# WatermarkLaw — what the counters of the cut detector mean

The code compares a count with the two watermarks when it changes, and keeps two sets and a counter
up to date with these comparisons. They are at every moment the sets of the specification `Cut`: a
function of the reports seen and of those seen at the last cut (`Tracks`).
-/

namespace Rapid

open Foundations

namespace MultiNodeCutDetector

variable {cd : MultiNodeCutDetector} {c : Cut Endpoint UInt8} {d : Endpoint} {ring : UInt8}
  {order : HashOrder EndpointKey}

/-! ## The pieces of a report -/

theorem objects_eq {keys : Finset EndpointKey} (hobjs : ∀ key ∈ keys, key ∈ cd.endpointObjs) :
    cd.objects order keys hobjs = order.list keys := by
  have hget : ∀ key (h : (cd.endpointObjs.lookup key).isSome),
      (cd.endpointObjs.lookup key).get h = key := by
    intro key h
    exact cd.objs_key key _ (Option.some_get h).symm
  unfold objects
  simp only [hget]
  exact (List.pmap_eq_map _).trans (List.map_id' _)

section CheckLow

variable {hobj : d ∈ cd.endpointObjs} {num : UInt8}

@[simp] theorem checkLow_k : (cd.checkLow d hobj num).k = cd.k := by
  unfold checkLow
  split <;> rfl

@[simp] theorem checkLow_h : (cd.checkLow d hobj num).h = cd.h := by
  unfold checkLow
  split <;> rfl

@[simp] theorem checkLow_l : (cd.checkLow d hobj num).l = cd.l := by
  unfold checkLow
  split <;> rfl

@[simp] theorem checkLow_reportsPerHost :
    (cd.checkLow d hobj num).reportsPerHost = cd.reportsPerHost := by
  unfold checkLow
  split <;> rfl

@[simp] theorem checkLow_proposal : (cd.checkLow d hobj num).proposal = cd.proposal := by
  unfold checkLow
  split <;> rfl

@[simp] theorem checkLow_preProposal :
    (cd.checkLow d hobj num).preProposal =
      if num = cd.l then insert d cd.preProposal else cd.preProposal := by
  unfold checkLow
  split <;> rfl

@[simp] theorem checkLow_updatesInProgress :
    (cd.checkLow d hobj num).updatesInProgress =
      if num = cd.l then cd.updatesInProgress + 1 else cd.updatesInProgress := by
  unfold checkLow
  split <;> rfl

end CheckLow

/-- A repeated report only touches the tables of known endpoints. -/
theorem aggregateOne_of_mem (order : HashOrder EndpointKey) (src : Endpoint) (status : EdgeStatus)
    (hmem : ring ∈ cd.reports d) :
    ∃ known : MultiNodeCutDetector, known.k = cd.k ∧ known.l = cd.l ∧ known.h = cd.h ∧
      known.reportsPerHost = cd.reportsPerHost.insert d (cd.reports d) ∧
      known.preProposal = cd.preProposal ∧ known.updatesInProgress = cd.updatesInProgress ∧
      known.proposal = cd.proposal ∧ cd.aggregateOne order src d status ring = (known, []) := by
  let known := ({ cd with
    seenLinkDownEvents := cd.seenLinkDownEvents || status = EdgeStatus.down }).rememberEndpoint d
  let touched : MultiNodeCutDetector :=
    { known with reportsPerHost := cd.reportsPerHost.insert d (cd.reports d) }
  have hcode : cd.aggregateOne order src d status ring = (touched, []) := if_pos hmem
  exact ⟨touched, rfl, rfl, rfl, rfl, rfl, rfl, rfl, hcode⟩

/-- What `aggregate_one` does with a report that is not a repetition. -/
theorem aggregateOne_of_new (order : HashOrder EndpointKey) (src : Endpoint) (status : EdgeStatus)
    (hnew : ring ∉ cd.reports d)
    {num : UInt8} (hnum : ((cd.reports d).insert ring src).keys.card.toUInt8 = num) :
    ∃ (flux : MultiNodeCutDetector) (hobj : d ∈ flux.endpointObjs),
      flux.k = cd.k ∧ flux.l = cd.l ∧ flux.h = cd.h ∧
      flux.reportsPerHost = cd.reportsPerHost.insert d ((cd.reports d).insert ring src) ∧
      flux.preProposal = (if num = cd.l then insert d cd.preProposal else cd.preProposal) ∧
      flux.updatesInProgress =
        (if num = cd.l then cd.updatesInProgress + 1 else cd.updatesInProgress) ∧
      flux.proposal = cd.proposal ∧
      cd.aggregateOne order src d status ring =
        if num = cd.h then
          if (flux.enterProposal d hobj).updatesInProgress = 0 then
            (flux.enterProposal d hobj).emit order
          else (flux.enterProposal d hobj, [])
        else (flux, []) := by
  subst hnum
  -- The state as the code builds it up, step by step.
  let known := ({ cd with
    seenLinkDownEvents := cd.seenLinkDownEvents || status = EdgeStatus.down }).rememberEndpoint d
  let counted : MultiNodeCutDetector :=
    { known with
      reportsPerHost := cd.reportsPerHost.insert d ((cd.reports d).insert ring src) }
  have hobj : d ∈ counted.endpointObjs := mem_rememberEndpoint _ d
  let num := ((cd.reports d).insert ring src).keys.card.toUInt8
  refine ⟨counted.checkLow d hobj num, endpointObjs_checkLow counted ▸ hobj, checkLow_k, checkLow_l,
    checkLow_h, checkLow_reportsPerHost, checkLow_preProposal, checkLow_updatesInProgress,
    checkLow_proposal, ?_⟩
  have hcode : cd.aggregateOne order src d status ring =
      if num = (counted.checkLow d hobj num).h then
        if ((counted.checkLow d hobj num).enterProposal d
            (endpointObjs_checkLow counted ▸ hobj)).updatesInProgress = 0 then
          ((counted.checkLow d hobj num).enterProposal d
            (endpointObjs_checkLow counted ▸ hobj)).emit order
        else ((counted.checkLow d hobj num).enterProposal d
            (endpointObjs_checkLow counted ▸ hobj), [])
      else (counted.checkLow d hobj num, []) := if_neg hnew
  rw [hcode, checkLow_h]
  rfl

theorem l_pos (cd : MultiNodeCutDetector) : 0 < cd.l.toNat := by
  have hne : cd.l.toNat ≠ 0 := fun h => cd.l_ne_zero (UInt8.toNat_inj.1 h)
  exact Nat.pos_of_ne_zero hne

theorem l_le_h_toNat (cd : MultiNodeCutDetector) : cd.l.toNat ≤ cd.h.toNat :=
  UInt8.le_iff_toNat_le.1 cd.l_le_h

theorem h_pos (cd : MultiNodeCutDetector) : 0 < cd.h.toNat :=
  lt_of_lt_of_le cd.l_pos cd.l_le_h_toNat

/-- The rings below `k` are at most `k`. -/
theorem card_rings_le {k : UInt8} {rings : Finset UInt8} (h : ∀ r ∈ rings, r < k) :
    rings.card ≤ k.toNat := by
  have hsub : rings.image UInt8.toNat ⊆ Finset.range k.toNat := by
    intro n hn
    rcases Finset.mem_image.1 hn with ⟨r, hr, rfl⟩
    exact Finset.mem_range.2 (UInt8.lt_iff_toNat_lt.1 (h r hr))
  calc
    rings.card = (rings.image UInt8.toNat).card :=
      (Finset.card_image_of_injective _ fun _ _ => UInt8.toNat_inj.1).symm
    _ ≤ (Finset.range k.toNat).card := Finset.card_le_card hsub
    _ = k.toNat := Finset.card_range _

theorem toUInt8_eq_iff {n : Nat} {m : UInt8} (hn : n < 256) : n.toUInt8 = m ↔ n = m.toNat := by
  rw [← UInt8.toNat_inj, UInt8.toNat_ofNat', Nat.mod_eq_of_lt hn]

/-! ## The detector tracks its specification -/

/-- The tables of the detector are those of a specification state. -/
structure Tracks (cd : MultiNodeCutDetector) (c : Cut Endpoint UInt8) : Prop where
  rings : ∀ d r, (d, r) ∈ c.seen ↔ r ∈ cd.reports d
  range : ∀ p ∈ c.seen, p.2 < cd.k
  flux : cd.preProposal = inFlux cd.l.toNat cd.h.toNat c.seen
  counter : cd.updatesInProgress = cd.preProposal.card
  pending : cd.proposal = c.pending cd.h.toNat
  atCut : c.atCut ⊆ c.seen

theorem Tracks.tally_lt (ht : Tracks cd c) (hring : ring < cd.k) :
    tally (insert (d, ring) c.seen) d < 256 := by
  have hrange : ∀ p ∈ insert (d, ring) c.seen, p.2 < cd.k := by
    intro p hp
    rcases Finset.mem_insert.1 hp with rfl | hp
    · exact hring
    · exact ht.range p hp
  have hle : ((insert (d, ring) c.seen).filter fun p => p.1 = d).card ≤ cd.k.toNat := by
    rw [← Finset.card_image_of_injOn (f := Prod.snd)]
    · apply card_rings_le
      intro r hr
      rcases Finset.mem_image.1 hr with ⟨p, hp, rfl⟩
      exact hrange p (Finset.mem_filter.1 hp).1
    · intro p hp q hq heq
      exact Prod.ext ((Finset.mem_filter.1 hp).2.trans (Finset.mem_filter.1 hq).2.symm) heq
  exact lt_of_le_of_lt hle (UInt8.toNat_lt cd.k)

/-- The rings of one destination are replaced. -/
theorem reports_insert {cd' : MultiNodeCutDetector} {rings : Finmap fun _ : UInt8 => Endpoint}
    (h : cd'.reportsPerHost = cd.reportsPerHost.insert d rings) (x : Endpoint) :
    cd'.reports x = if x = d then rings else cd.reports x := by
  rw [reports, h]
  split
  · rename_i hx
    rw [hx, Finmap.lookup_insert]
    rfl
  · rename_i hx
    rw [Finmap.lookup_insert_of_ne _ hx]
    rfl

theorem Tracks.repeated (ht : Tracks cd c) {cd' : MultiNodeCutDetector}
    (hreports : cd'.reportsPerHost = cd.reportsPerHost.insert d (cd.reports d))
    (hk : cd'.k = cd.k) (hl : cd'.l = cd.l) (hh : cd'.h = cd.h)
    (hpre : cd'.preProposal = cd.preProposal) (hproposal : cd'.proposal = cd.proposal)
    (hupdates : cd'.updatesInProgress = cd.updatesInProgress) :
    Tracks cd' c := by
  refine ⟨?_, ?_, ?_, ?_, ?_, ht.atCut⟩
  · intro x r
    rw [ht.rings, reports_insert hreports]
    split
    · rename_i hx
      rw [hx]
    · rfl
  · rw [hk]
    exact ht.range
  · rw [hpre, hl, hh]
    exact ht.flux
  · rw [hupdates, hpre]
    exact ht.counter
  · rw [hproposal, hh]
    exact ht.pending

/-- A new report: the rings and the flux of the specification. -/
theorem Tracks.rings_insert (ht : Tracks cd c) {src : Endpoint} {cd' : MultiNodeCutDetector}
    (hreports : cd'.reportsPerHost =
      cd.reportsPerHost.insert d ((cd.reports d).insert ring src)) (x : Endpoint) (r : UInt8) :
    (x, r) ∈ insert (d, ring) c.seen ↔ r ∈ cd'.reports x := by
  rw [Finset.mem_insert, ht.rings, reports_insert hreports, Prod.mk.injEq]
  split
  · rename_i hx
    subst hx
    simp [Finmap.mem_insert]
  · rename_i hx
    simp [hx]

theorem Tracks.range_insert (ht : Tracks cd c) (hring : ring < cd.k) :
    ∀ p ∈ insert (d, ring) c.seen, p.2 < cd.k := by
  intro p hp
  rcases Finset.mem_insert.1 hp with rfl | hp
  · exact hring
  · exact ht.range p hp

section NewReport

variable {flux : MultiNodeCutDetector} {src : Endpoint} {n : Nat}

/-- A new report that does not reach the high watermark. -/
theorem Tracks.below (ht : Tracks cd c) (hring : ring < cd.k) (hnew : (d, ring) ∉ c.seen)
    (hn : tally (insert (d, ring) c.seen) d = n) (hk : flux.k = cd.k) (hl : flux.l = cd.l)
    (hh : flux.h = cd.h)
    (hreports : flux.reportsPerHost =
      cd.reportsPerHost.insert d ((cd.reports d).insert ring src))
    (hpre : flux.preProposal =
      if n = cd.l.toNat then insert d cd.preProposal else cd.preProposal)
    (hupdates : flux.updatesInProgress =
      if n = cd.l.toNat then cd.updatesInProgress + 1 else cd.updatesInProgress)
    (hproposal : flux.proposal = cd.proposal) (hbelow : n ≠ cd.h.toNat) :
    Tracks flux (c.advance cd.l.toNat cd.h.toNat d (insert (d, ring) c.seen)) ∧
      c.emitted cd.l.toNat cd.h.toNat d (insert (d, ring) c.seen) = ∅ := by
  have hquiet : ¬ c.Fires cd.l.toNat cd.h.toNat d (insert (d, ring) c.seen) := fun hfires =>
    hbelow ((Cut.fires_iff_of_tests hnew hn).1 hfires).1
  -- The comparisons of the code decide membership in the sets of the specification.
  have hflux := inFlux_of_tests cd.l_pos cd.l_le_h_toNat hnew hn
  have hcard := card_inFlux_of_tests cd.l_pos cd.l_le_h_toNat hnew hn
  have hpending := Cut.pending_of_tests cd.h_pos ht.atCut hnew hn
  rw [if_neg hbelow, ← ht.flux] at hflux hcard
  rw [if_neg hbelow, ← ht.pending] at hpending
  rw [Cut.advance, if_neg hquiet, Cut.emitted, if_neg hquiet]
  refine ⟨⟨ht.rings_insert hreports, ?_, ?_, ?_, ?_, ?_⟩, rfl⟩
  · rw [hk]
    exact ht.range_insert hring
  · rw [hpre, hl, hh]
    exact hflux.symm
  · rw [hupdates, ht.counter, hpre, ← hflux]
    exact hcard.symm
  · rw [hproposal, hh]
    exact hpending.symm
  · exact ht.atCut.trans (Finset.subset_insert _ _)

/-- A new report that reaches the high watermark, before a cut is emitted. -/
theorem Tracks.reached (ht : Tracks cd c) (hring : ring < cd.k) (hnew : (d, ring) ∉ c.seen)
    (hn : tally (insert (d, ring) c.seen) d = n) {stable : MultiNodeCutDetector}
    (hk : stable.k = cd.k) (hl : stable.l = cd.l) (hh : stable.h = cd.h)
    (hreports : stable.reportsPerHost =
      cd.reportsPerHost.insert d ((cd.reports d).insert ring src))
    (hpre : stable.preProposal =
      (if n = cd.l.toNat then insert d cd.preProposal else cd.preProposal).erase d)
    (hupdates : stable.updatesInProgress =
      (if n = cd.l.toNat then cd.updatesInProgress + 1 else cd.updatesInProgress) - 1)
    (hproposal : stable.proposal = insert d cd.proposal) (hatH : n = cd.h.toNat) :
    Tracks stable ⟨insert (d, ring) c.seen, c.atCut⟩ ∧
      (c.Fires cd.l.toNat cd.h.toNat d (insert (d, ring) c.seen) ↔ stable.updatesInProgress = 0) := by
  have hflux := inFlux_of_tests cd.l_pos cd.l_le_h_toNat hnew hn
  have hcard := card_inFlux_of_tests cd.l_pos cd.l_le_h_toNat hnew hn
  have hpending := Cut.pending_of_tests cd.h_pos ht.atCut hnew hn
  rw [if_pos hatH, ← ht.flux] at hflux hcard
  rw [if_pos hatH, ← ht.pending] at hpending
  -- The counter is the number of nodes in flux, before and after.
  have hcounter : stable.updatesInProgress = stable.preProposal.card := by
    rw [hupdates, ht.counter, hpre, ← hflux]
    exact hcard.symm
  refine ⟨⟨ht.rings_insert hreports, ?_, ?_, hcounter, ?_, ?_⟩, ?_⟩
  · rw [hk]
    exact ht.range_insert hring
  · rw [hpre, hl, hh]
    exact hflux.symm
  · rw [hproposal, hh]
    exact hpending.symm
  · exact ht.atCut.trans (Finset.subset_insert _ _)
  · rw [Cut.fires_iff_of_tests hnew hn, hcounter, hpre, ← hflux]
    constructor
    · rintro ⟨_, hquiet⟩
      rw [hquiet]
      rfl
    · intro hzero
      exact ⟨hatH, Int.ofNat_eq_zero.1 hzero⟩

/-- Emitting the cut leaves nothing pending. -/
theorem Tracks.emit (ht : Tracks cd c) (order : HashOrder EndpointKey) : Tracks (cd.emit order).1 ⟨c.seen, c.seen⟩ ∧
    (cd.emit order).2 = order.list (c.pending cd.h.toNat) := by
  refine ⟨⟨ht.rings, ht.range, ht.flux, ht.counter, ?_, Finset.Subset.refl _⟩, ?_⟩
  · show ∅ = stable cd.h.toNat c.seen \ stable cd.h.toNat c.seen
    rw [Finset.sdiff_self]
  · rw [← ht.pending]
    exact objects_eq cd.proposal_objs

end NewReport

/-- One report, compared with the two watermarks. -/
theorem Tracks.aggregateOne (ht : Tracks cd c) (order : HashOrder EndpointKey) (src d : Endpoint)
    (status : EdgeStatus) (hring : ring < cd.k) :
    Tracks (cd.aggregateOne order src d status ring).1 (c.advance cd.l.toNat cd.h.toNat d (insert (d, ring) c.seen)) ∧
      (cd.aggregateOne order src d status ring).2 =
        order.list (c.emitted cd.l.toNat cd.h.toNat d (insert (d, ring) c.seen)) := by
  by_cases hmem : ring ∈ cd.reports d
  · have hseen : (d, ring) ∈ c.seen := (ht.rings d ring).2 hmem
    rcases aggregateOne_of_mem order src status hmem with
      ⟨known, hk, hl, hh, hreports, hpre, hupdates, hproposal, hcode⟩
    rw [hcode, Finset.insert_eq_of_mem hseen, Cut.advance_self, Cut.emitted,
      if_neg Cut.not_fires_self, order.list_eq_nil.2 rfl]
    exact ⟨ht.repeated hreports hk hl hh hpre hproposal hupdates, rfl⟩
  · have hnew : (d, ring) ∉ c.seen := fun hseen => hmem ((ht.rings d ring).1 hseen)
    -- The number of rings, cut to a byte, is the tally.
    have hcard : ((cd.reports d).insert ring src).keys.card = tally (insert (d, ring) c.seen) d := by
      refine (tally_eq_card ?_).symm
      intro r
      rw [Finset.mem_insert, ht.rings, Finmap.mem_keys, Finmap.mem_insert, Prod.mk.injEq]
      simp
    have hnum : ∀ m : UInt8, ((cd.reports d).insert ring src).keys.card.toUInt8 = m ↔
        tally (insert (d, ring) c.seen) d = m.toNat := by
      intro m
      rw [hcard]
      exact toUInt8_eq_iff (ht.tally_lt hring)
    rcases aggregateOne_of_new order src status hmem rfl with
      ⟨flux, hobj, hk, hl, hh, hreports, hpre, hupdates, hproposal, hcode⟩
    simp only [hnum] at hpre hupdates hcode
    rw [hcode]
    split
    · rename_i hatH
      have hmore : ∀ (_ : tally (insert (d, ring) c.seen) d = cd.h.toNat),
          Tracks (flux.enterProposal d hobj) ⟨insert (d, ring) c.seen, c.atCut⟩ ∧
            (c.Fires cd.l.toNat cd.h.toNat d (insert (d, ring) c.seen) ↔
              (flux.enterProposal d hobj).updatesInProgress = 0) :=
        ht.reached hring hnew rfl hk hl hh hreports (congrArg (Finset.erase · d) hpre)
          (congrArg (· - 1) hupdates) (congrArg (insert d) hproposal)
      rcases hmore hatH with ⟨htracks, hfires⟩
      split
      · rename_i hzero
        rcases htracks.emit order with ⟨hemit, hlist⟩
        rw [Cut.advance, if_pos (hfires.2 hzero), Cut.emitted, if_pos (hfires.2 hzero), hlist]
        refine ⟨hemit, ?_⟩
        show order.list (Cut.pending flux.h.toNat _) = _
        rw [hh]
        rfl
      · rename_i hzero
        have hquiet : ¬ c.Fires cd.l.toNat cd.h.toNat d (insert (d, ring) c.seen) := fun h => hzero (hfires.1 h)
        rw [Cut.advance, if_neg hquiet, Cut.emitted, if_neg hquiet]
        exact ⟨htracks, (order.list_eq_nil.2 rfl).symm⟩
    · rename_i hbelow
      rcases ht.below hring hnew rfl hk hl hh hreports hpre hupdates hproposal hbelow with
        ⟨htracks, hempty⟩
      refine ⟨htracks, ?_⟩
      rw [hempty, order.list_eq_nil.2 rfl]

theorem aggregateOne_watermarks (cd : MultiNodeCutDetector) (order : HashOrder EndpointKey)
    (src d : Endpoint) (status : EdgeStatus) (ring : UInt8) :
    (cd.aggregateOne order src d status ring).1.k = cd.k ∧
      (cd.aggregateOne order src d status ring).1.l = cd.l ∧
      (cd.aggregateOne order src d status ring).1.h = cd.h := by
  by_cases hmem : ring ∈ cd.reports d
  · rcases aggregateOne_of_mem order src status hmem with ⟨known, hk, hl, hh, _, _, _, _, hcode⟩
    rw [hcode]
    exact ⟨hk, hl, hh⟩
  · rcases aggregateOne_of_new order src status hmem rfl with
      ⟨flux, hobj, hk, hl, hh, _, _, _, _, hcode⟩
    rw [hcode]
    split
    · split
      · exact ⟨hk, hl, hh⟩
      · exact ⟨hk, hl, hh⟩
    · exact ⟨hk, hl, hh⟩

/-! ## One call -/

/-- Only the tallies of the stable destinations at the last cut matter. -/
theorem Tracks.congr {c' : Cut Endpoint UInt8} (ht : Tracks cd c) (hseen : c'.seen = c.seen)
    (hcut : c'.atCut ⊆ c.seen) (hstable : stable cd.h.toNat c'.atCut = stable cd.h.toNat c.atCut) :
    Tracks cd c' where
  rings := by
    rw [hseen]
    exact ht.rings
  range := by
    rw [hseen]
    exact ht.range
  flux := by
    rw [hseen]
    exact ht.flux
  counter := ht.counter
  pending := by
    rw [Cut.pending, hseen, hstable]
    exact ht.pending
  atCut := by
    rw [hseen]
    exact hcut

/-- Reports about one destination in two parts: at most one part emits a cut, and the second does
not change what it held. -/
theorem Tracks.chain {cd₂ : MultiNodeCutDetector} {seen₁ seen₂ : Finset (Endpoint × UInt8)}
    {out₁ out₂ : List Endpoint} (hgrow : c.seen ⊆ seen₁) (hsub : seen₁ ⊆ seen₂)
    (hother : ∀ x ≠ d, tally seen₂ x = tally seen₁ x) (hh : cd₂.h = cd.h)
    (hout₁ : out₁ = order.list (c.emitted cd.l.toNat cd.h.toNat d seen₁))
    (ht₂ : Tracks cd₂ ((c.advance cd.l.toNat cd.h.toNat d seen₁).advance cd.l.toNat cd.h.toNat d
      seen₂))
    (hout₂ : out₂ = order.list ((c.advance cd.l.toNat cd.h.toNat d seen₁).emitted cd.l.toNat
      cd.h.toNat d seen₂)) :
    Tracks cd₂ (c.advance cd.l.toNat cd.h.toNat d seen₂) ∧
      out₁ ++ out₂ = order.list (c.emitted cd.l.toNat cd.h.toNat d seen₂) := by
  by_cases hfires : c.Fires cd.l.toNat cd.h.toNat d seen₁
  · rcases hfires.advance_advance cd.l_pos cd.h_pos hsub hother with
      ⟨hadvance, hall, hquiet, hemitted⟩
    -- The first part fires; the second reports more of the same destination and fires no more.
    have hstable := (hfires.later cd.l_pos cd.h_pos hsub hother).2.1
    have ht₂' : Tracks cd₂ ⟨seen₂, seen₁⟩ := hadvance ▸ ht₂
    refine ⟨?_, ?_⟩
    · rw [hall]
      refine ht₂'.congr rfl (Finset.Subset.refl _) ?_
      rw [hh]
      exact hstable
    · have hnothing := hout₂.trans (order.list_eq_nil.2 hquiet)
      rw [hout₁, hnothing, List.append_nil, hemitted]
  · rcases Cut.advance_advance_of_quiet cd.l_pos hgrow hsub hother hfires with ⟨hadvance, hemitted⟩
    refine ⟨hadvance ▸ ht₂, ?_⟩
    have hnothing : out₁ = [] := hout₁.trans (order.list_eq_nil.2 (if_neg hfires))
    rw [hnothing, List.nil_append, hout₂]
    exact congrArg order.list hemitted

/-- All rings of a call: at most one of them emits a cut, and no later one changes what it held. -/
theorem Tracks.aggregateRings {src : Endpoint} {status : EdgeStatus} {rings : List UInt8} :
    ∀ {cd : MultiNodeCutDetector} {c : Cut Endpoint UInt8}, Tracks cd c → (∀ r ∈ rings, r < cd.k) →
      let seen := addRings c.seen d rings
      let out := MultiNodeCutDetector.aggregateRings order src d status rings cd
      Tracks out.1 (c.advance cd.l.toNat cd.h.toNat d seen) ∧
        out.2 = order.list (c.emitted cd.l.toNat cd.h.toNat d seen) ∧
        out.1.k = cd.k ∧ out.1.l = cd.l ∧ out.1.h = cd.h := by
  induction rings with
  | nil =>
      intro cd c ht _
      have hadvance : c.advance cd.l.toNat cd.h.toNat d (addRings c.seen d []) = c := Cut.advance_self
      have hemitted : c.emitted cd.l.toNat cd.h.toNat d (addRings c.seen d []) = ∅ :=
        if_neg Cut.not_fires_self
      dsimp only
      rw [hadvance, hemitted]
      exact ⟨ht, (order.list_eq_nil.2 rfl).symm, rfl, rfl, rfl⟩
  | cons r rings ih =>
      intro cd c ht hrange seen out
      have hr : r < cd.k := hrange r List.mem_cons_self
      rcases ht.aggregateOne order src d status hr with ⟨ht₁, hout₁⟩
      rcases aggregateOne_watermarks cd order src d status r with ⟨hk, hl, hh⟩
      have hrange₁ : ∀ r' ∈ rings, r' < (cd.aggregateOne order src d status r).1.k := by
        intro r' hr'
        rw [hk]
        exact hrange r' (List.mem_cons_of_mem r hr')
      rcases ih ht₁ hrange₁ with ⟨ht₂, hout₂, hk₂, hl₂, hh₂⟩
      rw [hl, hh] at ht₂ hout₂
      have hsub : insert (d, r) c.seen ⊆ seen := subset_addRings
      -- Only the counts of `d` change, so the two parts chain to one cut.
      have hother : ∀ x ≠ d, tally seen x = tally (insert (d, r) c.seen) x := by
        intro x hx
        show tally (addRings (insert (d, r) c.seen) d rings) x = _
        exact tally_addRings_of_ne hx
      rcases Tracks.chain (Finset.subset_insert _ _) hsub hother (hh₂.trans hh) hout₁ ht₂ hout₂ with
        ⟨htracks, hout⟩
      exact ⟨htracks, hout, hk₂.trans hk, hl₂.trans hl, hh₂.trans hh⟩

theorem Tracks.of_fresh (hreports : cd.reportsPerHost = ∅) (hpre : cd.preProposal = ∅)
    (hproposal : cd.proposal = ∅) (hupdates : cd.updatesInProgress = 0) : Tracks cd ⟨∅, ∅⟩ where
  rings := by
    intro x r
    rw [reports, hreports, Finmap.lookup_empty, Option.getD_none]
    simp [Finmap.notMem_empty]
  range := fun p hp => absurd hp (Finset.notMem_empty p)
  flux := hpre
  counter := by
    rw [hupdates, hpre]
    rfl
  pending := by
    rw [hproposal, Cut.pending, Finset.sdiff_self]
  atCut := Finset.Subset.refl _

/-- Nothing was reported since the detector was created or cleared. -/
def Fresh (cd : MultiNodeCutDetector) : Prop :=
  (∃ k h l, MultiNodeCutDetector.new k h l = .ok cd) ∨ ∃ cd' : MultiNodeCutDetector, cd = cd'.clear

theorem Fresh.tracks (h : Fresh cd) : Tracks cd ⟨∅, ∅⟩ := by
  rcases h with ⟨k, h, l, hnew⟩ | ⟨cd', rfl⟩
  · unfold MultiNodeCutDetector.new at hnew
    split at hnew
    · cases hnew
    · cases hnew
      exact .of_fresh rfl rfl rfl rfl
  · exact .of_fresh rfl rfl rfl rfl

end MultiNodeCutDetector

/-! ## Runs -/

open MultiNodeCutDetector

/-- A detector with what it was told and what it returned since it was new or cleared. -/
structure CutRun where
  detector : MultiNodeCutDetector
  cut : Cut Endpoint UInt8
  returned : List Endpoint

namespace CutRun

/-- The pairs of destination and ring after an alert. -/
def seenWith (seen : Finset (Endpoint × UInt8)) (msg : AlertMessage) : Finset (Endpoint × UInt8) :=
  match msg.edgeSrc, msg.edgeDst with
  | some _, some dst => addRings seen dst (msg.ringNumber.map ringAsUInt8)
  | _, _ => seen

/-- One call of `aggregate`. -/
def call (run : CutRun) (msg : AlertMessage) (order : HashOrder EndpointKey) : CutRun :=
  let out := run.detector.aggregate order msg
  let seen := seenWith run.cut.seen msg
  { detector := out.1
    cut := ⟨seen, if out.2 = [] then run.cut.atCut else seen⟩
    returned := run.returned ++ out.2 }

/-- Every ring number of the alert is a ring. -/
def RingsInRange (run : CutRun) (label : AlertMessage × HashOrder EndpointKey) : Prop :=
  ∀ n ∈ label.1.ringNumber, 0 ≤ n.toInt ∧ n.toInt < run.detector.k.toNat

instance (run : CutRun) (label : AlertMessage × HashOrder EndpointKey) :
    Decidable (run.RingsInRange label) :=
  List.decidableBAll _ label.1.ringNumber

end CutRun

/-- Calls of `aggregate` since `new` or `clear`. -/
def cutSystem : System CutRun (AlertMessage × HashOrder EndpointKey) where
  init run := ((∃ k h l, MultiNodeCutDetector.new k h l = .ok run.detector) ∨
    ∃ cd : MultiNodeCutDetector, run.detector = cd.clear) ∧ run.cut = ⟨∅, ∅⟩ ∧ run.returned = []
  step run label := some (run.call label.1 label.2)

namespace CutRun

/-- The cast keeps the numbers that fit. -/
theorem toNat_ringAsUInt8 {n : Int32} (hpos : 0 ≤ n.toInt) (hlt : n.toInt < 256) :
    ((ringAsUInt8 n).toNat : Int) = n.toInt := by
  have hn : n.toInt = (n.toUInt32.toNat : Int) := by
    have hcond := BitVec.toInt_eq_toNat_cond n.toBitVec
    rw [Int32.toInt] at hpos hlt ⊢
    split at hcond
    · exact hcond
    · have hbound := n.toBitVec.isLt
      omega
  rw [ringAsUInt8, UInt32.toNat_toUInt8]
  omega

theorem ringAsUInt8_lt {n : Int32} {k : UInt8} (hpos : 0 ≤ n.toInt) (hlt : n.toInt < k.toNat) :
    ringAsUInt8 n < k := by
  have hk : k.toNat < 256 := k.toNat_lt
  have hcast := toNat_ringAsUInt8 hpos (by omega)
  rw [UInt8.lt_iff_toNat_lt]
  omega

/-- What holds between calls. -/
structure Lawful (run : CutRun) : Prop where
  tracks : Tracks run.detector run.cut
  nodup : run.returned.Nodup
  returned : ∀ d, d ∈ run.returned ↔ d ∈ stable run.detector.h.toNat run.cut.atCut

/-- An alert without a source or a destination is ignored. -/
theorem aggregate_incomplete (cd : MultiNodeCutDetector) (order : HashOrder EndpointKey)
    {msg : AlertMessage} (h : msg.edgeSrc = none ∨ msg.edgeDst = none)
    (seen : Finset (Endpoint × UInt8)) :
    cd.aggregate order msg = (cd, []) ∧ seenWith seen msg = seen := by
  rcases h with h | h
  · simp [aggregate, seenWith, h]
  · cases hsrc : msg.edgeSrc <;> simp [aggregate, seenWith, h, hsrc]

theorem aggregate_complete (cd : MultiNodeCutDetector) (order : HashOrder EndpointKey)
    {msg : AlertMessage} {src dst : Endpoint} (hsrc : msg.edgeSrc = some src)
    (hdst : msg.edgeDst = some dst) (seen : Finset (Endpoint × UInt8)) :
    cd.aggregate order msg =
        aggregateRings order src dst (statusOf msg) (msg.ringNumber.map ringAsUInt8) cd ∧
      seenWith seen msg = addRings seen dst (msg.ringNumber.map ringAsUInt8) := by
  simp [aggregate, seenWith, hsrc, hdst]

/-- What a call does to the specification. -/
structure Advances (run : CutRun) (msg : AlertMessage) (order : HashOrder EndpointKey)
    (d : Endpoint) : Prop where
  tracks : Tracks (run.call msg order).detector
    (run.cut.advance run.detector.l.toNat run.detector.h.toNat d (seenWith run.cut.seen msg))
  out : (run.detector.aggregate order msg).2 = order.list (run.cut.emitted run.detector.l.toNat
    run.detector.h.toNat d (seenWith run.cut.seen msg))
  grows : run.cut.seen ⊆ seenWith run.cut.seen msg
  others : ∀ x ≠ d, tally (seenWith run.cut.seen msg) x = tally run.cut.seen x
  k : (run.call msg order).detector.k = run.detector.k
  l : (run.call msg order).detector.l = run.detector.l
  h : (run.call msg order).detector.h = run.detector.h

theorem Lawful.advances {run : CutRun} (h : run.Lawful) {msg : AlertMessage}
    {order : HashOrder EndpointKey} (hrange : run.RingsInRange (msg, order)) :
    ∃ d, run.Advances msg order d := by
  by_cases hincomplete : msg.edgeSrc = none ∨ msg.edgeDst = none
  · -- An incomplete alert reports nothing; any destination will do.
    rcases aggregate_incomplete run.detector order hincomplete run.cut.seen with ⟨hcode, hseen⟩
    have hdetector : (run.call msg order).detector = run.detector := congrArg Prod.fst hcode
    refine ⟨default, ?_, ?_, ?_, ?_, ?_, ?_, ?_⟩
    · rw [hdetector, hseen, Cut.advance_self]
      exact h.tracks
    · rw [hcode, hseen, Cut.emitted, if_neg Cut.not_fires_self]
      exact (order.list_eq_nil.2 rfl).symm
    · rw [hseen]
    · intro x _
      rw [hseen]
    · rw [hdetector]
    · rw [hdetector]
    · rw [hdetector]
  · rcases not_or.1 hincomplete with ⟨hsrc, hdst⟩
    rcases Option.ne_none_iff_exists'.1 hsrc with ⟨src, hsrc⟩
    rcases Option.ne_none_iff_exists'.1 hdst with ⟨dst, hdst⟩
    rcases aggregate_complete run.detector order hsrc hdst run.cut.seen with ⟨hcode, hseen⟩
    have hdetector : (run.call msg order).detector = (aggregateRings order src dst (statusOf msg)
        (msg.ringNumber.map ringAsUInt8) run.detector).1 := congrArg Prod.fst hcode
    have hrings : ∀ r ∈ msg.ringNumber.map ringAsUInt8, r < run.detector.k := by
      intro r hr
      rcases List.mem_map.1 hr with ⟨n, hn, rfl⟩
      exact ringAsUInt8_lt (hrange n hn).1 (hrange n hn).2
    rcases h.tracks.aggregateRings hrings with ⟨htracks, hout, hk, hl, hh⟩
    refine ⟨dst, ?_, ?_, ?_, ?_, ?_, ?_, ?_⟩
    · rw [hdetector, hseen]
      exact htracks
    · rw [hcode, hseen]
      exact hout
    · rw [hseen]
      exact subset_addRings
    · intro x hx
      rw [hseen]
      exact tally_addRings_of_ne hx
    · rw [hdetector]
      exact hk
    · rw [hdetector]
      exact hl
    · rw [hdetector]
      exact hh

/-- A call returns something exactly when it fires. -/
theorem Advances.out_eq_nil_iff {run : CutRun} {msg : AlertMessage} {order : HashOrder EndpointKey}
    {d : Endpoint} (ha : run.Advances msg order d) (h : run.Lawful) :
    (run.detector.aggregate order msg).2 = [] ↔
      ¬ run.cut.Fires run.detector.l.toNat run.detector.h.toNat d (seenWith run.cut.seen msg) := by
  rw [ha.out, order.list_eq_nil]
  exact Cut.emitted_eq_empty_iff run.detector.h_pos h.tracks.atCut

theorem Advances.call_cut {run : CutRun} {msg : AlertMessage} {order : HashOrder EndpointKey}
    {d : Endpoint} (ha : run.Advances msg order d) (h : run.Lawful) :
    (run.call msg order).cut = run.cut.advance run.detector.l.toNat run.detector.h.toNat d
      (seenWith run.cut.seen msg) := by
  have hcut : (if (run.detector.aggregate order msg).2 = [] then run.cut.atCut
      else seenWith run.cut.seen msg) =
      if run.cut.Fires run.detector.l.toNat run.detector.h.toNat d (seenWith run.cut.seen msg) then
        seenWith run.cut.seen msg
      else run.cut.atCut := by
    simp only [ha.out_eq_nil_iff h, ite_not]
  exact congrArg (Cut.mk (seenWith run.cut.seen msg)) hcut

/-- The destinations a call returns: those that became stable since the last cut. -/
theorem Advances.mem_out {run : CutRun} {msg : AlertMessage} {order : HashOrder EndpointKey}
    {d : Endpoint} (ha : run.Advances msg order d)
    (hfires : run.cut.Fires run.detector.l.toNat run.detector.h.toNat d (seenWith run.cut.seen msg))
    (x : Endpoint) :
    x ∈ (run.detector.aggregate order msg).2 ↔
      x ∈ stable run.detector.h.toNat (seenWith run.cut.seen msg) ∧
        x ∉ stable run.detector.h.toNat run.cut.atCut := by
  rw [ha.out, order.mem_list_iff, Cut.emitted, if_pos hfires, Finset.mem_sdiff]

theorem Lawful.call {run : CutRun} (h : run.Lawful) {msg : AlertMessage}
    {order : HashOrder EndpointKey} (hrange : run.RingsInRange (msg, order)) :
    (run.call msg order).Lawful := by
  rcases h.advances hrange with ⟨d, ha⟩
  have hcut := ha.call_cut h
  refine ⟨hcut ▸ ha.tracks, ?_, ?_⟩
  · refine List.nodup_append'.2 ⟨h.nodup, ?_, ?_⟩
    · rw [ha.out]
      exact order.nodup _
    · intro x hold hnew
      rw [ha.out, order.mem_list_iff, Cut.emitted] at hnew
      split at hnew
      · -- Nothing is returned twice.
        exact (Finset.mem_sdiff.1 hnew).2 ((h.returned x).1 hold)
      · exact Finset.notMem_empty x hnew
  · intro x
    rw [hcut, ha.h]
    show x ∈ run.returned ++ (run.detector.aggregate order msg).2 ↔ _
    rw [List.mem_append, h.returned x, Cut.advance]
    split
    · rename_i hfires
      -- What was stable stays stable, and the new cut holds all of it.
      have hmono := stable_mono run.detector.h_pos (h.tracks.atCut.trans ha.grows)
      rw [ha.mem_out hfires]
      constructor
      · rintro (hold | hnew)
        · exact hmono hold
        · exact hnew.1
      · intro hstable
        by_cases hold : x ∈ stable run.detector.h.toNat run.cut.atCut
        · exact .inl hold
        · exact .inr ⟨hstable, hold⟩
    · rename_i hquiet
      rw [(ha.out_eq_nil_iff h).2 hquiet]
      simp

theorem Lawful.reaches {run : CutRun} (h : cutSystem.Reaches RingsInRange run) : run.Lawful := by
  refine h.invariant ?_ ?_
  · rintro ⟨cd, cut, returned⟩ ⟨hfresh, hcut, hreturned⟩
    cases hcut
    cases hreturned
    refine ⟨Fresh.tracks hfresh, List.nodup_nil, ?_⟩
    · intro d
      simp [stable]
  · intro run label run' _ hlawful hrange hstep
    cases hstep
    exact hlawful.call hrange

/-- The destinations returned or waiting are the stable ones. -/
theorem Lawful.mem_returned_or_proposal {run : CutRun} (h : run.Lawful) (d : Endpoint) :
    (d ∈ run.returned ∨ d ∈ run.detector.proposal) ↔
      run.detector.h.toNat ≤ tally run.cut.seen d := by
  have hmono := stable_mono run.detector.h_pos h.tracks.atCut
  rw [h.returned, h.tracks.pending, Cut.pending, Finset.mem_sdiff,
    ← mem_stable run.detector.h_pos]
  constructor
  · rintro (hcut | hpending)
    · exact hmono hcut
    · exact hpending.1
  · intro hstable
    by_cases hcut : d ∈ stable run.detector.h.toNat run.cut.atCut
    · exact .inl hcut
    · exact .inr ⟨hstable, hcut⟩

/-- No destination is returned twice, or returned and waiting. -/
theorem Lawful.count_add {run : CutRun} (h : run.Lawful) (d : Endpoint) :
    run.returned.count d + (if d ∈ run.detector.proposal then 1 else 0) =
      if run.detector.h.toNat ≤ tally run.cut.seen d then 1 else 0 := by
  have hiff := h.mem_returned_or_proposal d
  by_cases hreturned : d ∈ run.returned
  · have hout : d ∉ run.detector.proposal := by
      rw [h.tracks.pending, Cut.pending, Finset.mem_sdiff]
      exact fun hd => hd.2 ((h.returned d).1 hreturned)
    rw [List.count_eq_one_of_mem h.nodup hreturned, if_neg hout, if_pos (hiff.1 (.inl hreturned))]
  · rw [List.count_eq_zero_of_not_mem hreturned, Nat.zero_add]
    by_cases hproposal : d ∈ run.detector.proposal
    · rw [if_pos hproposal, if_pos (hiff.1 (.inr hproposal))]
    · have hlow : ¬ run.detector.h.toNat ≤ tally run.cut.seen d := by
        intro hhigh
        rcases hiff.2 hhigh with hd | hd
        · exact hreturned hd
        · exact hproposal hd
      rw [if_neg hproposal, if_neg hlow]

/-- Only the destination of the call can become stable in it. -/
theorem Advances.fires_iff {run : CutRun} {msg : AlertMessage} {order : HashOrder EndpointKey}
    {d : Endpoint} (ha : run.Advances msg order d) :
    run.cut.Fires run.detector.l.toNat run.detector.h.toNat d (seenWith run.cut.seen msg) ↔
      (∃ x, tally run.cut.seen x < run.detector.h.toNat ∧
        run.detector.h.toNat ≤ tally (seenWith run.cut.seen msg) x) ∧
      ∀ x, ¬ (run.detector.l.toNat ≤ tally (seenWith run.cut.seen msg) x ∧
        tally (seenWith run.cut.seen msg) x < run.detector.h.toNat) := by
  have hflux : inFlux run.detector.l.toNat run.detector.h.toNat (seenWith run.cut.seen msg) = ∅ ↔
      ∀ x, ¬ (run.detector.l.toNat ≤ tally (seenWith run.cut.seen msg) x ∧
        tally (seenWith run.cut.seen msg) x < run.detector.h.toNat) := by
    rw [Finset.eq_empty_iff_forall_notMem]
    exact forall_congr' fun x => not_congr (mem_inFlux run.detector.l_pos)
  rw [Cut.Fires, hflux]
  constructor
  · rintro ⟨hbefore, hafter, hquiet⟩
    exact ⟨⟨d, hbefore, hafter⟩, hquiet⟩
  · rintro ⟨⟨x, hbefore, hafter⟩, hquiet⟩
    -- The alert changes the count of its own destination only.
    have hx : x = d := by
      by_contra hne
      rw [ha.others x hne] at hafter
      exact absurd hbefore (not_lt.2 hafter)
    subst hx
    exact ⟨hbefore, hafter, hquiet⟩

end CutRun

open CutRun in
/-- The watermark law: sets, counter and cuts are functions of the rings reported. -/
theorem cutDetector_watermarks {run : CutRun} (hrun : cutSystem.Reaches RingsInRange run) :
    (∀ d, d ∈ run.detector.preProposal ↔
      run.detector.l.toNat ≤ tally run.cut.seen d ∧ tally run.cut.seen d < run.detector.h.toNat) ∧
    run.detector.updatesInProgress = run.detector.preProposal.card ∧
    0 ≤ run.detector.updatesInProgress ∧
    (∀ d, run.returned.count d + (if d ∈ run.detector.proposal then 1 else 0) =
      if run.detector.h.toNat ≤ tally run.cut.seen d then 1 else 0) ∧
    (∀ msg order, run.RingsInRange (msg, order) →
      ((run.detector.aggregate order msg).2 ≠ [] ↔
        (∃ d, tally run.cut.seen d < run.detector.h.toNat ∧
          run.detector.h.toNat ≤ tally (seenWith run.cut.seen msg) d) ∧
        ∀ x, ¬ (run.detector.l.toNat ≤ tally (seenWith run.cut.seen msg) x ∧
          tally (seenWith run.cut.seen msg) x < run.detector.h.toNat)) ∧
      ((run.detector.aggregate order msg).2 ≠ [] →
        (run.detector.aggregate order msg).2.Nodup ∧
        ∀ d, d ∈ (run.detector.aggregate order msg).2 ↔
          run.detector.h.toNat ≤ tally (seenWith run.cut.seen msg) d ∧
            tally run.cut.atCut d < run.detector.h.toNat)) ∧
    ∀ run', cutSystem.Reaches RingsInRange run' → run'.detector.h = run.detector.h →
      run'.cut.seen = run.cut.seen → ∀ d,
        (d ∈ run'.returned ∨ d ∈ run'.detector.proposal ↔
          d ∈ run.returned ∨ d ∈ run.detector.proposal) := by
  have h : run.Lawful := .reaches hrun
  refine ⟨?_, h.tracks.counter, ?_, h.count_add, ?_, ?_⟩
  · intro d
    rw [h.tracks.flux]
    exact mem_inFlux run.detector.l_pos
  · rw [h.tracks.counter]
    exact Int.natCast_nonneg _
  · intro msg order hrange
    rcases h.advances hrange with ⟨d, ha⟩
    have hreturns : (run.detector.aggregate order msg).2 ≠ [] ↔
        run.cut.Fires run.detector.l.toNat run.detector.h.toNat d (seenWith run.cut.seen msg) :=
      (not_congr (ha.out_eq_nil_iff h)).trans not_not
    refine ⟨hreturns.trans ha.fires_iff, ?_⟩
    intro hout
    refine ⟨?_, ?_⟩
    · rw [ha.out]
      exact order.nodup _
    · intro x
      rw [ha.mem_out (hreturns.1 hout), mem_stable run.detector.h_pos, mem_stable run.detector.h_pos,
        not_le]
  · intro run' hrun' hh hseen d
    -- What was returned or waits depends on the counts alone.
    have h' : run'.Lawful := .reaches hrun'
    rw [h'.mem_returned_or_proposal, h.mem_returned_or_proposal, hh, hseen]

/-! ### Two destinations, one blocking the other -/

/-- An alert of `hostC` about `dst` on the given rings. -/
def upAlert (dst : Endpoint) (rings : List Int32) : AlertMessage where
  edgeSrc := some hostC
  edgeDst := some dst
  edgeStatus := EdgeStatus.up.toInt32
  configurationId := 0
  ringNumber := rings
  nodeId := none
  metadata := none

/-- `K = 3`, `H = 3`, `L = 2`: `hostB` is in flux when `hostA` becomes stable. -/
def blockedRun : Option CutRun :=
  (MultiNodeCutDetector.new 3 3 2).toOption.bind fun cd =>
    cutSystem.execWhile CutRun.RingsInRange ⟨cd, ⟨∅, ∅⟩, []⟩ [(upAlert hostA [0, 2], endpointOrder),
      (upAlert hostB [1, 0, 1], endpointOrder), (upAlert hostA [1], endpointOrder)]

theorem blockedRun_emits :
    ∃ run, blockedRun = some run ∧ run.detector.updatesInProgress = run.detector.preProposal.card ∧
      (run.detector.aggregate endpointOrder (upAlert hostB [2])).2.Nodup := by
  have hfacts : (blockedRun.map fun run => (run.detector.k,
      decide ((run.detector.aggregate endpointOrder (upAlert hostB [2])).2 ≠ []))) =
        some (3, true) := by
    decide +kernel
  rcases Option.map_eq_some_iff.1 hfacts with ⟨run, hrun, heq⟩
  rcases Prod.mk.inj heq with ⟨hk, hout⟩
  rcases Option.bind_eq_some_iff.1 hrun with ⟨cd, hcd, hexec⟩
  have hinit : cutSystem.init ⟨cd, ⟨∅, ∅⟩, []⟩ :=
    ⟨Or.inl ⟨3, 3, 2, eq_ok_of_toOption hcd⟩, rfl, rfl⟩
  have hlaw := cutDetector_watermarks (System.Reaches.execWhile (.start hinit) hexec)
  have hrange : run.RingsInRange (upAlert hostB [2], endpointOrder) := by
    intro n hn
    rw [hk]
    rcases List.mem_singleton.1 hn with rfl
    decide
  exact ⟨run, hrun, hlaw.2.1, (hlaw.2.2.2.2.1 _ _ hrange).2 (of_decide_eq_true hout) |>.1⟩

end Rapid
