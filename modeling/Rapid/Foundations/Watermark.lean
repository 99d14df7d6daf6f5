import Mathlib.Data.Finset.Card
import Mathlib.Data.Finset.Prod

/-!
# Watermark — cuts of destinations by two watermarks

Reporters report destinations on numbered rings. A destination with at least `l` rings but fewer
than `h` is in flux; with at least `h` it is stable. A cut is emitted when a report makes a
destination stable and leaves none in flux: it holds the destinations that became stable since the
cut before it. All of this is a function of the set of reports seen, and of the set seen at the
last cut.
-/

namespace Foundations

variable {D R : Type*} [DecidableEq D]

/-- The number of distinct rings reported about `d`. -/
def tally (seen : Finset (D × R)) (d : D) : Nat :=
  (seen.filter fun p => p.1 = d).card

/-- The destinations between the watermarks. -/
def inFlux (l h : Nat) (seen : Finset (D × R)) : Finset D :=
  (seen.image Prod.fst).filter fun d => l ≤ tally seen d ∧ tally seen d < h

/-- The destinations that reached the high watermark. -/
def stable (h : Nat) (seen : Finset (D × R)) : Finset D :=
  (seen.image Prod.fst).filter fun d => h ≤ tally seen d

/-! ## Tallies -/

variable {seen seen' : Finset (D × R)} {d x : D} {r : R} {l h : Nat}

@[simp] theorem tally_empty : tally (∅ : Finset (D × R)) d = 0 := rfl

theorem tally_mono (hsub : seen ⊆ seen') : tally seen d ≤ tally seen' d :=
  Finset.card_le_card (Finset.filter_subset_filter _ hsub)

theorem mem_of_tally_pos (hpos : 0 < tally seen d) : d ∈ seen.image Prod.fst := by
  rcases Finset.card_pos.1 hpos with ⟨p, hp⟩
  rcases Finset.mem_filter.1 hp with ⟨hmem, rfl⟩
  exact Finset.mem_image_of_mem Prod.fst hmem

/-! ## Flux and stability -/

theorem mem_inFlux (hl : 0 < l) : d ∈ inFlux l h seen ↔ l ≤ tally seen d ∧ tally seen d < h := by
  rw [inFlux, Finset.mem_filter]
  constructor
  · intro hd
    exact hd.2
  · intro hd
    exact ⟨mem_of_tally_pos (lt_of_lt_of_le hl hd.1), hd⟩

theorem mem_stable (hh : 0 < h) : d ∈ stable h seen ↔ h ≤ tally seen d := by
  rw [stable, Finset.mem_filter]
  constructor
  · intro hd
    exact hd.2
  · intro hd
    exact ⟨mem_of_tally_pos (lt_of_lt_of_le hh hd), hd⟩

theorem stable_mono (hh : 0 < h) (hsub : seen ⊆ seen') : stable h seen ⊆ stable h seen' := by
  intro d hd
  rw [mem_stable hh] at hd ⊢
  exact le_trans hd (tally_mono hsub)

/-- Further reports about a stable destination move no other one, and it stays stable. -/
theorem inFlux_congr (hl : 0 < l) (hsub : seen ⊆ seen') (hother : ∀ x ≠ d, tally seen' x = tally seen x)
    (hd : h ≤ tally seen d) : inFlux l h seen' = inFlux l h seen := by
  ext x
  rw [mem_inFlux hl, mem_inFlux hl]
  by_cases hx : x = d
  · subst hx
    have hd' : h ≤ tally seen' x := le_trans hd (tally_mono hsub)
    constructor
    · rintro ⟨_, hlt⟩
      exact absurd hlt (not_lt.2 hd')
    · rintro ⟨_, hlt⟩
      exact absurd hlt (not_lt.2 hd)
  · rw [hother x hx]

theorem stable_congr (hh : 0 < h) (hsub : seen ⊆ seen') (hother : ∀ x ≠ d, tally seen' x = tally seen x)
    (hd : h ≤ tally seen d) : stable h seen' = stable h seen := by
  ext x
  rw [mem_stable hh, mem_stable hh]
  by_cases hx : x = d
  · subst hx
    exact ⟨fun _ => hd, fun _ => le_trans hd (tally_mono hsub)⟩
  · rw [hother x hx]

/-! ## More reports -/

section Reports

variable [DecidableEq R]

theorem tally_insert_self (hnew : (d, r) ∉ seen) : tally (insert (d, r) seen) d = tally seen d + 1 := by
  have hfilter : (d, r) ∉ seen.filter fun p => p.1 = d := fun hmem => hnew (Finset.mem_filter.1 hmem).1
  rw [tally, Finset.filter_insert, if_pos rfl, Finset.card_insert_of_notMem hfilter]
  rfl

theorem tally_insert_of_ne (hne : x ≠ d) : tally (insert (d, r) seen) x = tally seen x := by
  rw [tally, Finset.filter_insert, if_neg (Ne.symm hne)]
  rfl

/-- The rings of one destination, counted as a set of rings. -/
theorem tally_eq_card {rings : Finset R} (hrings : ∀ r, (d, r) ∈ seen ↔ r ∈ rings) :
    tally seen d = rings.card := by
  have hfilter : (seen.filter fun p => p.1 = d) = rings.image fun r => (d, r) := by
    ext ⟨x, r⟩
    rw [Finset.mem_filter, Finset.mem_image]
    constructor
    · rintro ⟨hmem, rfl⟩
      exact ⟨r, (hrings r).1 hmem, rfl⟩
    · rintro ⟨r', hmem, heq⟩
      rcases Prod.mk.inj heq with ⟨rfl, rfl⟩
      exact ⟨(hrings r').2 hmem, rfl⟩
  rw [tally, hfilter, Finset.card_image_of_injective _ fun _ _ h => (Prod.mk.inj h).2]

/-- The reports of several rings about one destination. -/
def addRings (seen : Finset (D × R)) (d : D) (rings : List R) : Finset (D × R) :=
  rings.foldl (fun seen r => insert (d, r) seen) seen

theorem mem_addRings {rings : List R} {p : D × R} :
    p ∈ addRings seen d rings ↔ p ∈ seen ∨ p.1 = d ∧ p.2 ∈ rings := by
  induction rings generalizing seen with
  | nil => simp [addRings]
  | cons r rings ih =>
      have hstep : addRings seen d (r :: rings) = addRings (insert (d, r) seen) d rings := rfl
      rw [hstep, ih, Finset.mem_insert, List.mem_cons, Prod.ext_iff]
      tauto

theorem subset_addRings {rings : List R} : seen ⊆ addRings seen d rings :=
  fun _ hp => mem_addRings.2 (.inl hp)

theorem tally_addRings_of_ne {rings : List R} (hne : x ≠ d) :
    tally (addRings seen d rings) x = tally seen x := by
  induction rings generalizing seen with
  | nil => rfl
  | cons r rings ih => exact ih.trans (tally_insert_of_ne hne)

/-- A new report moves its destination only. -/
theorem inFlux_insert (hl : 0 < l) (hnew : (d, r) ∉ seen) :
    inFlux l h (insert (d, r) seen) =
      if l ≤ tally seen d + 1 ∧ tally seen d + 1 < h then insert d (inFlux l h seen)
      else (inFlux l h seen).erase d := by
  have hself := tally_insert_self hnew
  ext x
  rw [mem_inFlux hl]
  by_cases hx : x = d
  · subst hx
    rw [hself]
    split
    · rename_i hflux
      simp [hflux]
    · rename_i hflux
      simp [hflux]
  · rw [tally_insert_of_ne hx, ← mem_inFlux hl]
    split
    · simp [hx]
    · simp [hx]

theorem stable_insert (hh : 0 < h) (hnew : (d, r) ∉ seen) :
    stable h (insert (d, r) seen) =
      if h ≤ tally seen d + 1 then insert d (stable h seen) else stable h seen := by
  have hself := tally_insert_self hnew
  ext x
  rw [mem_stable hh]
  by_cases hx : x = d
  · subst hx
    rw [hself]
    split
    · rename_i hstable
      simp [hstable]
    · rename_i hstable
      have hbelow : ¬ h ≤ tally seen x := fun hle => hstable (le_trans hle (Nat.le_succ _))
      simp [hstable, mem_stable hh, hbelow]
  · rw [tally_insert_of_ne hx, ← mem_stable hh]
    split
    · simp [hx]
    · rfl

/-! ## Equality tests

A new report raises one tally by one, so that it is enough to compare the new tally with each
watermark. -/

theorem inFlux_of_tests (hl : 0 < l) (hlh : l ≤ h) (hnew : (d, r) ∉ seen) {n : Nat}
    (hn : tally (insert (d, r) seen) d = n) :
    inFlux l h (insert (d, r) seen) =
      if n = h then (if n = l then insert d (inFlux l h seen) else inFlux l h seen).erase d
      else if n = l then insert d (inFlux l h seen) else inFlux l h seen := by
  have hself : tally seen d + 1 = n := (tally_insert_self hnew).symm.trans hn
  have hd : d ∈ inFlux l h seen ↔ l ≤ tally seen d ∧ tally seen d < h := mem_inFlux hl
  rw [inFlux_insert hl hnew, hself]
  by_cases hatH : n = h
  · have hout : ¬ (l ≤ n ∧ n < h) := fun hin => absurd hatH (ne_of_lt hin.2)
    rw [if_neg hout, if_pos hatH]
    split
    · exact (Finset.erase_insert_eq_erase _ _).symm
    · rfl
  · rw [if_neg hatH]
    by_cases hatL : n = l
    · rw [if_pos hatL, if_pos (by omega)]
    · rw [if_neg hatL]
      split
      · exact Finset.insert_eq_of_mem (hd.2 (by omega))
      · exact Finset.erase_eq_of_notMem fun hmem => absurd (hd.1 hmem) (by omega)

theorem card_inFlux_of_tests (hl : 0 < l) (hlh : l ≤ h) (hnew : (d, r) ∉ seen) {n : Nat}
    (hn : tally (insert (d, r) seen) d = n) :
    ((inFlux l h (insert (d, r) seen)).card : Int) =
      if n = h then (if n = l then ((inFlux l h seen).card : Int) + 1 else (inFlux l h seen).card) - 1
      else if n = l then ((inFlux l h seen).card : Int) + 1 else (inFlux l h seen).card := by
  have hself : tally seen d + 1 = n := (tally_insert_self hnew).symm.trans hn
  have hd : d ∈ inFlux l h seen ↔ l ≤ tally seen d ∧ tally seen d < h := mem_inFlux hl
  rw [inFlux_of_tests hl hlh hnew hn]
  by_cases hatL : n = l
  · -- The destination was below the low watermark.
    have hout : d ∉ inFlux l h seen := fun hmem => absurd (hd.1 hmem) (by omega)
    rw [if_pos hatL, if_pos hatL]
    split
    · rw [Finset.erase_insert hout]
      omega
    · rw [Finset.card_insert_of_notMem hout]
      omega
  · rw [if_neg hatL, if_neg hatL]
    split
    · rename_i hatH
      have hin : d ∈ inFlux l h seen := hd.2 (by omega)
      have hpos : 0 < (inFlux l h seen).card := Finset.card_pos.2 ⟨d, hin⟩
      rw [Finset.card_erase_of_mem hin]
      omega
    · rfl

theorem stable_of_tests (hh : 0 < h) (hnew : (d, r) ∉ seen) {n : Nat}
    (hn : tally (insert (d, r) seen) d = n) :
    stable h (insert (d, r) seen) = if n = h then insert d (stable h seen) else stable h seen := by
  have hself : tally seen d + 1 = n := (tally_insert_self hnew).symm.trans hn
  rw [stable_insert hh hnew, hself]
  by_cases hatH : n = h
  · rw [if_pos (le_of_eq hatH.symm), if_pos hatH]
  · rw [if_neg hatH]
    split
    · exact Finset.insert_eq_of_mem ((mem_stable hh).2 (by omega))
    · rfl

end Reports

/-! ## Cuts -/

/-- What a detector has seen, and what it had seen at its last cut. -/
structure Cut (D R : Type*) where
  seen : Finset (D × R)
  atCut : Finset (D × R)

namespace Cut

/-- The stable destinations that were in no cut yet. -/
def pending (h : Nat) (c : Cut D R) : Finset D :=
  stable h c.seen \ stable h c.atCut

/-- Seeing `seen'` makes the destination stable and leaves none in flux. -/
def Fires (l h : Nat) (c : Cut D R) (d : D) (seen' : Finset (D × R)) : Prop :=
  tally c.seen d < h ∧ h ≤ tally seen' d ∧ inFlux l h seen' = ∅

instance (l h : Nat) (c : Cut D R) (d : D) (seen' : Finset (D × R)) :
    Decidable (c.Fires l h d seen') :=
  inferInstanceAs (Decidable (_ ∧ _))

/-- The destinations of the cut that reports about `d` cause. -/
def emitted (l h : Nat) (c : Cut D R) (d : D) (seen' : Finset (D × R)) : Finset D :=
  if c.Fires l h d seen' then stable h seen' \ stable h c.atCut else ∅

/-- After reports about `d`. -/
def advance (l h : Nat) (c : Cut D R) (d : D) (seen' : Finset (D × R)) : Cut D R where
  seen := seen'
  atCut := if c.Fires l h d seen' then seen' else c.atCut

variable {c : Cut D R} {seen'' : Finset (D × R)}

theorem Fires.mem_emitted (hh : 0 < h) (hsub : c.atCut ⊆ c.seen) (hfires : c.Fires l h d seen') :
    d ∈ c.emitted l h d seen' := by
  rw [emitted, if_pos hfires, Finset.mem_sdiff, mem_stable hh, mem_stable hh]
  refine ⟨hfires.2.1, ?_⟩
  have hbefore : tally c.atCut d < h := lt_of_le_of_lt (tally_mono hsub) hfires.1
  exact not_le.2 hbefore

theorem emitted_eq_empty_iff (hh : 0 < h) (hsub : c.atCut ⊆ c.seen) :
    c.emitted l h d seen' = ∅ ↔ ¬ c.Fires l h d seen' := by
  constructor
  · intro hempty hfires
    have hmem := hfires.mem_emitted hh hsub
    rw [hempty] at hmem
    exact absurd hmem (Finset.notMem_empty d)
  · intro hquiet
    rw [emitted, if_neg hquiet]

/-- Nothing new causes no cut. -/
theorem not_fires_self : ¬ c.Fires l h d c.seen := by
  rintro ⟨hbefore, hafter, _⟩
  exact absurd hbefore (not_lt.2 hafter)

theorem advance_self : c.advance l h d c.seen = c := by
  rw [advance, if_neg not_fires_self]

/-- Whether a cut is due can be read off the new tally and the size of the flux. -/
theorem fires_iff_of_tests [DecidableEq R] (hnew : (d, r) ∉ c.seen) {n : Nat}
    (hn : tally (insert (d, r) c.seen) d = n) :
    c.Fires l h d (insert (d, r) c.seen) ↔
      n = h ∧ (inFlux l h (insert (d, r) c.seen)).card = 0 := by
  have hself : tally c.seen d + 1 = n := (tally_insert_self hnew).symm.trans hn
  rw [Fires, hn, Finset.card_eq_zero]
  constructor
  · rintro ⟨hbefore, hafter, hquiet⟩
    exact ⟨by omega, hquiet⟩
  · rintro ⟨hatH, hquiet⟩
    exact ⟨by omega, by omega, hquiet⟩

/-- Without a cut, the pending destinations grow by the one that becomes stable. -/
theorem pending_of_tests [DecidableEq R] (hh : 0 < h) (hsub : c.atCut ⊆ c.seen) (hnew : (d, r) ∉ c.seen) {n : Nat}
    (hn : tally (insert (d, r) c.seen) d = n) :
    stable h (insert (d, r) c.seen) \ stable h c.atCut =
      if n = h then insert d (c.pending h) else c.pending h := by
  have hself : tally c.seen d + 1 = n := (tally_insert_self hnew).symm.trans hn
  rw [stable_of_tests hh hnew hn]
  split
  · have hbefore : tally c.atCut d ≤ tally c.seen d := tally_mono hsub
    have hd : d ∉ stable h c.atCut := by
      rw [mem_stable hh]
      omega
    exact Finset.insert_sdiff_of_notMem _ hd
  · rfl

/-! ### Several reports about one destination -/

/-- After a cut, more reports about its last destination neither move a set nor cause another cut. -/
theorem Fires.later (hl : 0 < l) (hh : 0 < h) (hfires : c.Fires l h d seen') (hsub : seen' ⊆ seen'')
    (hother : ∀ x ≠ d, tally seen'' x = tally seen' x) :
    c.Fires l h d seen'' ∧ stable h seen'' = stable h seen' ∧
      ¬ (c.advance l h d seen').Fires l h d seen'' := by
  have hd : h ≤ tally seen' d := hfires.2.1
  refine ⟨⟨hfires.1, le_trans hd (tally_mono hsub), ?_⟩, stable_congr hh hsub hother hd, ?_⟩
  · rw [inFlux_congr hl hsub hother hd]
    exact hfires.2.2
  · intro hagain
    exact absurd hd (not_le.2 hagain.1)

theorem fires_later_iff (hl : 0 < l) (hgrow : c.seen ⊆ seen') (hsub : seen' ⊆ seen'')
    (hother : ∀ x ≠ d, tally seen'' x = tally seen' x) (hquiet : ¬ c.Fires l h d seen') :
    (c.advance l h d seen').Fires l h d seen'' ↔ c.Fires l h d seen'' := by
  constructor
  · rintro ⟨hbefore, hafter, hflux⟩
    exact ⟨lt_of_le_of_lt (tally_mono hgrow) hbefore, hafter, hflux⟩
  · rintro ⟨hbefore, hafter, hflux⟩
    refine ⟨?_, hafter, hflux⟩
    by_contra hge
    -- The first reports would already have caused the cut.
    have hd : h ≤ tally seen' d := not_lt.1 hge
    exact hquiet ⟨hbefore, hd, by rw [← inFlux_congr hl hsub hother hd]; exact hflux⟩

/-- Reports in two steps after a cut in the first one. -/
theorem Fires.advance_advance (hl : 0 < l) (hh : 0 < h) (hfires : c.Fires l h d seen')
    (hsub : seen' ⊆ seen'') (hother : ∀ x ≠ d, tally seen'' x = tally seen' x) :
    (c.advance l h d seen').advance l h d seen'' = ⟨seen'', seen'⟩ ∧
      c.advance l h d seen'' = ⟨seen'', seen''⟩ ∧
      (c.advance l h d seen').emitted l h d seen'' = ∅ ∧
      c.emitted l h d seen'' = c.emitted l h d seen' := by
  rcases hfires.later hl hh hsub hother with ⟨hall, hstable, hquiet⟩
  have hfirst : c.advance l h d seen' = ⟨seen', seen'⟩ := by
    rw [advance, if_pos hfires]
  refine ⟨?_, ?_, if_neg hquiet, ?_⟩
  · rw [advance, if_neg hquiet, hfirst]
  · rw [advance, if_pos hall]
  · rw [emitted, if_pos hall, emitted, if_pos hfires, hstable]

/-- Reports in two steps without a cut in the first one. -/
theorem advance_advance_of_quiet (hl : 0 < l) (hgrow : c.seen ⊆ seen') (hsub : seen' ⊆ seen'')
    (hother : ∀ x ≠ d, tally seen'' x = tally seen' x) (hquiet : ¬ c.Fires l h d seen') :
    (c.advance l h d seen').advance l h d seen'' = c.advance l h d seen'' ∧
      (c.advance l h d seen').emitted l h d seen'' = c.emitted l h d seen'' := by
  have hiff := fires_later_iff hl hgrow hsub hother hquiet
  have hkept : (c.advance l h d seen').atCut = c.atCut := if_neg hquiet
  have hcut : (if (c.advance l h d seen').Fires l h d seen'' then seen''
      else (c.advance l h d seen').atCut) = if c.Fires l h d seen'' then seen'' else c.atCut := by
    simp only [hiff, hkept]
  refine ⟨congrArg (Cut.mk seen'') hcut, ?_⟩
  simp only [emitted, hiff, hkept]

/-! ### Reports about one destination only -/

theorem inFlux_of_sole (hl : 0 < l) (hsole : ∀ p ∈ seen, p.1 = d) (hhigh : h ≤ tally seen d) :
    inFlux l h seen = ∅ := by
  refine Finset.eq_empty_iff_forall_notMem.2 ?_
  intro x hx
  rcases (mem_inFlux hl).1 hx with ⟨hlow, hlt⟩
  rcases Finset.mem_image.1 (mem_of_tally_pos (lt_of_lt_of_le hl hlow)) with ⟨p, hp, rfl⟩
  rw [hsole p hp] at hlt
  exact absurd hhigh (not_le.2 hlt)

theorem stable_of_sole (hh : 0 < h) (hsole : ∀ p ∈ seen, p.1 = d) (hhigh : h ≤ tally seen d) :
    stable h seen = {d} := by
  ext x
  rw [mem_stable hh, Finset.mem_singleton]
  constructor
  · intro hx
    rcases Finset.mem_image.1 (mem_of_tally_pos (lt_of_lt_of_le hh hx)) with ⟨p, hp, rfl⟩
    exact hsole p hp
  · intro hx
    rw [hx]
    exact hhigh

/-- The first cut is due when the only destination reaches the high watermark. -/
theorem emitted_of_sole (hl : 0 < l) (hh : 0 < h) (hsole : ∀ p ∈ seen', p.1 = d)
    (hlow : tally seen d < h) :
    (⟨seen, ∅⟩ : Cut D R).emitted l h d seen' = if h ≤ tally seen' d then {d} else ∅ := by
  by_cases hhigh : h ≤ tally seen' d
  · have hfires : (⟨seen, ∅⟩ : Cut D R).Fires l h d seen' :=
      ⟨hlow, hhigh, inFlux_of_sole hl hsole hhigh⟩
    have hnone : stable h (∅ : Finset (D × R)) = ∅ := rfl
    rw [emitted, if_pos hfires, if_pos hhigh, stable_of_sole hh hsole hhigh, hnone,
      Finset.sdiff_empty]
  · have hquiet : ¬ (⟨seen, ∅⟩ : Cut D R).Fires l h d seen' := fun hfires => hhigh hfires.2.1
    rw [emitted, if_neg hquiet, if_neg hhigh]

end Cut

end Foundations
