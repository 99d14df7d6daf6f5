import Mathlib.Order.Defs.LinearOrder
import Mathlib.Data.List.Basic
import Mathlib.Data.List.Sort
import Mathlib.Order.Lattice

/-!
# OrderedMap — finite maps with sorted keys

The entries of a map are kept as a list with strictly increasing keys. The operations are those of
a balanced tree map: lookup by key, the neighbours of a key, and iteration in key order. Two maps
with the same entries are equal, whatever the order of insertion.

The neighbours wrap around in `nextEntry` and `prevEntry`, which makes the entries a single cycle.
-/

namespace Foundations

/-- A finite map: its entries in strictly increasing key order. -/
@[ext]
structure OrderedMap (K V : Type*) [LinearOrder K] where
  entries : List (K × V)
  sorted : entries.Pairwise fun a b => a.1 < b.1

/-- A set is a map to nothing. -/
abbrev OrderedSet (K : Type*) [LinearOrder K] := OrderedMap K Unit

namespace OrderedMap

variable {K V : Type*} [LinearOrder K]

instance [DecidableEq V] : DecidableEq (OrderedMap K V) :=
  fun a b => decidable_of_iff (a.entries = b.entries) OrderedMap.ext_iff.symm

/-! ## Operations -/

def empty : OrderedMap K V where
  entries := []
  sorted := List.Pairwise.nil

variable (m : OrderedMap K V)

def containsKey (k : K) : Bool :=
  m.entries.any fun p => p.1 == k

/-- Insert or replace the entry of `k`. -/
def insert (k : K) (v : V) : OrderedMap K V where
  entries := m.entries.filter (fun p => p.1 < k) ++ (k, v) :: m.entries.filter fun p => k < p.1
  sorted := by
    refine List.pairwise_append.2 ⟨m.sorted.filter _, ?_, ?_⟩
    · refine List.pairwise_cons.2 ⟨?_, m.sorted.filter _⟩
      intro p hp
      exact of_decide_eq_true (List.mem_filter.1 hp).2
    · intro p hp q hq
      have hpk : p.1 < k := of_decide_eq_true (List.mem_filter.1 hp).2
      rcases List.mem_cons.1 hq with rfl | hq
      · exact hpk
      · exact lt_trans hpk (of_decide_eq_true (List.mem_filter.1 hq).2)

def remove (k : K) : OrderedMap K V where
  entries := m.entries.filter fun p => p.1 ≠ k
  sorted := m.sorted.filter _

def length : Nat :=
  m.entries.length

def keys : List K :=
  m.entries.map Prod.fst

def values : List V :=
  m.entries.map Prod.snd

/-- The entry with the greatest key below `k`. -/
def lowerEntry (k : K) : Option (K × V) :=
  (m.entries.filter fun p => p.1 < k).getLast?

/-- The entry with the least key above `k`. -/
def higherEntry (k : K) : Option (K × V) :=
  (m.entries.filter fun p => k < p.1).head?

def firstEntry : Option (K × V) :=
  m.entries.head?

def lastEntry : Option (K × V) :=
  m.entries.getLast?

/-- The next entry after `k`, the first one after the last. -/
def nextEntry (k : K) : Option (K × V) :=
  (m.higherEntry k).or m.firstEntry

/-- The entry before `k`, the last one before the first. -/
def prevEntry (k : K) : Option (K × V) :=
  (m.lowerEntry k).or m.lastEntry

/-! ## Membership -/

variable {m} {k k' : K} {v v' : V}

@[simp] theorem entries_empty : (empty : OrderedMap K V).entries = [] := rfl

@[simp] theorem containsKey_eq_true : m.containsKey k = true ↔ ∃ v, (k, v) ∈ m.entries := by
  simp only [containsKey, List.any_eq_true, beq_iff_eq]
  constructor
  · rintro ⟨⟨k', v⟩, hmem, rfl⟩
    exact ⟨v, hmem⟩
  · rintro ⟨v, hmem⟩
    exact ⟨(k, v), hmem, rfl⟩

theorem mem_insert {p : K × V} :
    p ∈ (m.insert k v).entries ↔ p = (k, v) ∨ p ∈ m.entries ∧ p.1 ≠ k := by
  simp only [insert, List.mem_append, List.mem_filter, List.mem_cons, decide_eq_true_eq]
  constructor
  · rintro (⟨hmem, hlt⟩ | rfl | ⟨hmem, hlt⟩)
    · exact .inr ⟨hmem, ne_of_lt hlt⟩
    · exact .inl rfl
    · exact .inr ⟨hmem, ne_of_gt hlt⟩
  · rintro (rfl | ⟨hmem, hne⟩)
    · exact .inr (.inl rfl)
    · rcases lt_or_gt_of_ne hne with hlt | hgt
      · exact .inl ⟨hmem, hlt⟩
      · exact .inr (.inr ⟨hmem, hgt⟩)

theorem mem_remove {p : K × V} : p ∈ (m.remove k).entries ↔ p ∈ m.entries ∧ p.1 ≠ k := by
  simp [remove]

theorem mem_values {v : V} : v ∈ m.values ↔ ∃ k, (k, v) ∈ m.entries := by
  simp [values]

theorem nodup_entries (m : OrderedMap K V) : m.entries.Nodup :=
  m.sorted.imp fun hlt heq => absurd (congrArg Prod.fst heq) (ne_of_lt hlt)

/-- Maps with the same entries are equal. -/
theorem eq_of_mem_iff {m m' : OrderedMap K V} (h : ∀ p, p ∈ m.entries ↔ p ∈ m'.entries) :
    m = m' := by
  apply OrderedMap.ext
  have hperm : m.entries.Perm m'.entries :=
    (List.perm_ext_iff_of_nodup (nodup_entries m) (nodup_entries m')).2 h
  exact hperm.eq_of_pairwise (fun a b _ _ hab hba => absurd hab (lt_asymm hba)) m.sorted m'.sorted

/-- A key has one value. -/
theorem value_unique (h : (k, v) ∈ m.entries) (h' : (k, v') ∈ m.entries) : v = v' := by
  rcases List.getElem_of_mem h with ⟨i, hi, hi'⟩
  rcases List.getElem_of_mem h' with ⟨j, hj, hj'⟩
  have hpair := List.pairwise_iff_getElem.1 m.sorted
  rcases lt_trichotomy i j with hlt | rfl | hgt
  · have hkey := hpair i j hi hj hlt
    rw [hi', hj'] at hkey
    exact absurd hkey (lt_irrefl k)
  · exact congrArg Prod.snd (hi'.symm.trans hj')
  · have hkey := hpair j i hj hi hgt
    rw [hi', hj'] at hkey
    exact absurd hkey (lt_irrefl k)

/-! ## Neighbours -/

theorem head?_eq_some_iff {l : List (K × V)} (hl : l.Pairwise fun a b => a.1 < b.1) {q : K × V} :
    l.head? = some q ↔ q ∈ l ∧ ∀ r ∈ l, q.1 ≤ r.1 := by
  cases l with
  | nil => simp
  | cons a l =>
      have ha := (List.pairwise_cons.1 hl).1
      rw [List.head?_cons, Option.some.injEq]
      constructor
      · rintro rfl
        refine ⟨List.mem_cons_self, ?_⟩
        intro r hr
        rcases List.mem_cons.1 hr with rfl | hr
        · exact le_refl _
        · exact le_of_lt (ha r hr)
      · rintro ⟨hq, hleast⟩
        rcases List.mem_cons.1 hq with rfl | hq
        · rfl
        · exact absurd (ha q hq) (not_lt.2 (hleast a List.mem_cons_self))

theorem getLast?_eq_some_iff {l : List (K × V)} (hl : l.Pairwise fun a b => a.1 < b.1)
    {q : K × V} : l.getLast? = some q ↔ q ∈ l ∧ ∀ r ∈ l, r.1 ≤ q.1 := by
  constructor
  · intro hlast
    rcases List.getLast?_eq_some_iff.1 hlast with ⟨front, rfl⟩
    refine ⟨by simp, ?_⟩
    intro r hr
    rcases List.mem_append.1 hr with hr | hr
    · exact le_of_lt ((List.pairwise_append.1 hl).2.2 r hr q List.mem_cons_self)
    · rw [List.mem_singleton.1 hr]
  · rintro ⟨hq, hgreatest⟩
    rcases List.append_of_mem hq with ⟨front, back, rfl⟩
    have hback := (List.pairwise_cons.1 (List.pairwise_append.1 hl).2.1).1
    cases back with
    | nil => simp
    | cons r back =>
        have hlt : q.1 < r.1 := hback r List.mem_cons_self
        exact absurd hlt (not_lt.2 (hgreatest r (by simp)))

theorem higherEntry_eq_some {q : K × V} :
    m.higherEntry k = some q ↔
      q ∈ m.entries ∧ k < q.1 ∧ ∀ r ∈ m.entries, k < r.1 → q.1 ≤ r.1 := by
  rw [higherEntry, head?_eq_some_iff (m.sorted.filter _)]
  simp only [List.mem_filter, decide_eq_true_eq, and_assoc, and_imp]

theorem higherEntry_eq_none : m.higherEntry k = none ↔ ∀ r ∈ m.entries, r.1 ≤ k := by
  simp only [higherEntry, List.head?_eq_none_iff, List.filter_eq_nil_iff, decide_eq_true_eq, not_lt]

theorem lowerEntry_eq_some {q : K × V} :
    m.lowerEntry k = some q ↔
      q ∈ m.entries ∧ q.1 < k ∧ ∀ r ∈ m.entries, r.1 < k → r.1 ≤ q.1 := by
  rw [lowerEntry, getLast?_eq_some_iff (m.sorted.filter _)]
  simp only [List.mem_filter, decide_eq_true_eq, and_assoc, and_imp]

theorem lowerEntry_eq_none : m.lowerEntry k = none ↔ ∀ r ∈ m.entries, k ≤ r.1 := by
  simp only [lowerEntry, List.getLast?_eq_none_iff, List.filter_eq_nil_iff, decide_eq_true_eq,
    not_lt]

theorem firstEntry_eq_some {q : K × V} :
    m.firstEntry = some q ↔ q ∈ m.entries ∧ ∀ r ∈ m.entries, q.1 ≤ r.1 :=
  head?_eq_some_iff m.sorted

theorem lastEntry_eq_some {q : K × V} :
    m.lastEntry = some q ↔ q ∈ m.entries ∧ ∀ r ∈ m.entries, r.1 ≤ q.1 :=
  getLast?_eq_some_iff m.sorted

/-- Inserting a key changes the next entry only at the entry before it. -/
theorem nextEntry_insert {p : K × V} (hp : p ∈ m.entries) (hk : ∀ r ∈ m.entries, r.1 ≠ k)
    (hprev : m.prevEntry k ≠ some p) : (m.insert k v).nextEntry p.1 = m.nextEntry p.1 := by
  have hpk : p.1 ≠ k := hk p hp
  cases hhigher : m.higherEntry p.1 with
  | some q =>
      rcases higherEntry_eq_some.1 hhigher with ⟨hq, hpq, hleast⟩
      -- The new key does not fall between `p` and `q`.
      have hgap : ¬ (p.1 < k ∧ k < q.1) := by
        rintro ⟨hlt, hgt⟩
        have hlower : m.lowerEntry k = some p := by
          refine lowerEntry_eq_some.2 ⟨hp, hlt, ?_⟩
          intro r hr hrk
          by_contra hge
          exact absurd (lt_of_le_of_lt (hleast r hr (not_le.1 hge)) hrk) (lt_asymm hgt)
        exact hprev (by rw [prevEntry, hlower, Option.some_or])
      have hhigher' : (m.insert k v).higherEntry p.1 = some q := by
        refine higherEntry_eq_some.2 ⟨mem_insert.2 (.inr ⟨hq, hk q hq⟩), hpq, ?_⟩
        intro r hr hpr
        rcases mem_insert.1 hr with rfl | ⟨hr, _⟩
        · exact not_lt.1 fun hkq => hgap ⟨hpr, hkq⟩
        · exact hleast r hr hpr
      rw [nextEntry, nextEntry, hhigher, hhigher', Option.some_or, Option.some_or]
  | none =>
      have hmax := higherEntry_eq_none.1 hhigher
      have hkp : k < p.1 := by
        rcases lt_or_gt_of_ne hpk with hlt | hgt
        · have hlower : m.lowerEntry k = some p :=
            lowerEntry_eq_some.2 ⟨hp, hlt, fun r hr _ => hmax r hr⟩
          exact absurd (by rw [prevEntry, hlower, Option.some_or]) hprev
        · exact hgt
      have hhigher' : (m.insert k v).higherEntry p.1 = none := by
        refine higherEntry_eq_none.2 ?_
        intro r hr
        rcases mem_insert.1 hr with rfl | ⟨hr, _⟩
        · exact le_of_lt hkp
        · exact hmax r hr
      -- Both wrap around; the new key is not the first one.
      have hfirst : (m.insert k v).firstEntry = m.firstEntry := by
        cases hm : m.firstEntry with
        | none =>
            rw [List.head?_eq_none_iff.1 hm] at hp
            cases hp
        | some f =>
            rcases firstEntry_eq_some.1 hm with ⟨hf, hleast⟩
            have hfk : f.1 < k := by
              rcases lt_or_gt_of_ne (hk f hf) with hlt | hgt
              · exact hlt
              · have hlower : m.lowerEntry k = none :=
                  lowerEntry_eq_none.2 fun r hr => le_trans (le_of_lt hgt) (hleast r hr)
                have hlast : m.lastEntry = some p := lastEntry_eq_some.2 ⟨hp, hmax⟩
                exact absurd (by rw [prevEntry, hlower, Option.none_or, hlast]) hprev
            refine firstEntry_eq_some.2 ⟨mem_insert.2 (.inr ⟨hf, hk f hf⟩), ?_⟩
            intro r hr
            rcases mem_insert.1 hr with rfl | ⟨hr, _⟩
            · exact le_of_lt hfk
            · exact hleast r hr
      rw [nextEntry, nextEntry, hhigher, hhigher', hfirst]

/-- Removing a key and inserting it again gives the map back. -/
theorem insert_remove (h : (k, v) ∈ m.entries) : (m.remove k).insert k v = m := by
  apply eq_of_mem_iff
  intro p
  rw [mem_insert, mem_remove]
  constructor
  · rintro (rfl | ⟨⟨hp, _⟩, _⟩)
    · exact h
    · exact hp
  · intro hp
    by_cases hpk : p.1 = k
    · subst hpk
      exact .inl (Prod.ext rfl (value_unique hp h))
    · exact .inr ⟨⟨hp, hpk⟩, hpk⟩

/-- The lower neighbour of a key does not depend on the key's own entry. -/
theorem lowerEntry_remove : (m.remove k).lowerEntry k = m.lowerEntry k := by
  cases h : m.lowerEntry k with
  | none =>
      refine lowerEntry_eq_none.2 ?_
      intro r hr
      exact lowerEntry_eq_none.1 h r (mem_remove.1 hr).1
  | some q =>
      rcases lowerEntry_eq_some.1 h with ⟨hq, hlt, hgreatest⟩
      refine lowerEntry_eq_some.2 ⟨mem_remove.2 ⟨hq, ne_of_lt hlt⟩, hlt, ?_⟩
      intro r hr
      exact hgreatest r (mem_remove.1 hr).1

/-- The lower neighbour of a key does not change when the key is inserted. -/
theorem lowerEntry_insert : (m.insert k v).lowerEntry k = m.lowerEntry k := by
  -- Below `k` the two maps have the same entries.
  have hbelow : ∀ r : K × V, r.1 < k → (r ∈ (m.insert k v).entries ↔ r ∈ m.entries) := by
    intro r hr
    rw [mem_insert]
    constructor
    · rintro (rfl | ⟨hmem, _⟩)
      · exact absurd hr (lt_irrefl _)
      · exact hmem
    · intro hmem
      exact .inr ⟨hmem, ne_of_lt hr⟩
  cases h : m.lowerEntry k with
  | none =>
      refine lowerEntry_eq_none.2 ?_
      intro r hr
      by_contra hlt
      have hmem : r ∈ m.entries := (hbelow r (not_le.1 hlt)).1 hr
      exact hlt (lowerEntry_eq_none.1 h r hmem)
  | some q =>
      rcases lowerEntry_eq_some.1 h with ⟨hq, hlt, hgreatest⟩
      refine lowerEntry_eq_some.2 ⟨(hbelow q hlt).2 hq, hlt, ?_⟩
      intro r hr hrk
      exact hgreatest r ((hbelow r hrk).1 hr) hrk

/-- A map with an entry has one before every key, cyclically. -/
theorem prevEntry_exists {p : K × V} (hp : p ∈ m.entries) (k : K) :
    ∃ q ∈ m.entries, m.prevEntry k = some q := by
  cases hlower : m.lowerEntry k with
  | some q =>
      refine ⟨q, (lowerEntry_eq_some.1 hlower).1, ?_⟩
      rw [prevEntry, hlower, Option.some_or]
  | none =>
      cases hlast : m.lastEntry with
      | some q =>
          refine ⟨q, (lastEntry_eq_some.1 hlast).1, ?_⟩
          rw [prevEntry, hlower, hlast, Option.none_or]
      | none =>
          rw [List.getLast?_eq_none_iff.1 hlast] at hp
          cases hp

theorem prevEntry_mem {p : K × V} (h : m.prevEntry k = some p) : p ∈ m.entries := by
  rcases Option.or_eq_some_iff.1 h with hlower | ⟨_, hlast⟩
  · exact (lowerEntry_eq_some.1 hlower).1
  · exact (lastEntry_eq_some.1 hlast).1

/-- Removing a key changes the next entry only at the entry before it. -/
theorem nextEntry_remove {p : K × V} (hk : (k, v) ∈ m.entries) (hp : p ∈ m.entries) (hpk : p.1 ≠ k)
    (hprev : m.prevEntry k ≠ some p) : (m.remove k).nextEntry p.1 = m.nextEntry p.1 := by
  have hp' : p ∈ (m.remove k).entries := mem_remove.2 ⟨hp, hpk⟩
  have hnone : ∀ r ∈ (m.remove k).entries, r.1 ≠ k := fun r hr => (mem_remove.1 hr).2
  -- Removing `k` does not make `p` its predecessor, also not across the end of the ring.
  have hprev' : (m.remove k).prevEntry k ≠ some p := by
    intro hbefore
    apply hprev
    rw [prevEntry, lowerEntry_remove] at hbefore
    cases hlower : m.lowerEntry k with
    | some q =>
        rw [hlower] at hbefore
        rw [prevEntry, hlower]
        exact hbefore
    | none =>
        rw [hlower, Option.none_or] at hbefore
        have hlast : m.lastEntry = some p := by
          refine lastEntry_eq_some.2 ⟨hp, ?_⟩
          intro r hr
          by_cases hrk : r.1 = k
          · exact hrk ▸ lowerEntry_eq_none.1 hlower p hp
          · exact (lastEntry_eq_some.1 hbefore).2 r (mem_remove.2 ⟨hr, hrk⟩)
        rw [prevEntry, hlower, hlast, Option.none_or]
  calc
    (m.remove k).nextEntry p.1 = ((m.remove k).insert k v).nextEntry p.1 :=
      (nextEntry_insert hp' hnone hprev').symm
    _ = m.nextEntry p.1 := by rw [insert_remove hk]

/-! ## Positions -/

theorem key_lt_key {i j : Nat} (hi : i < m.entries.length) (hj : j < m.entries.length) :
    m.entries[i].1 < m.entries[j].1 ↔ i < j := by
  have hpair := List.pairwise_iff_getElem.1 m.sorted
  constructor
  · intro hlt
    by_contra hge
    rcases Nat.lt_or_eq_of_le (Nat.le_of_not_lt hge) with hji | rfl
    · exact lt_asymm hlt (hpair j i hj hi hji)
    · exact lt_irrefl _ hlt
  · exact hpair i j hi hj

theorem filter_lt_key {i : Nat} (hi : i < m.entries.length) :
    (m.entries.filter fun p => p.1 < m.entries[i].1) = m.entries.take i := by
  have hsplit := List.take_append_drop i m.entries
  have htake : ∀ p ∈ m.entries.take i, p.1 < m.entries[i].1 := by
    intro p hp
    rcases List.mem_take_iff_getElem.1 hp with ⟨j, hj, rfl⟩
    exact (key_lt_key (by omega) hi).2 (by omega)
  have hdrop : ∀ p ∈ m.entries.drop i, ¬ p.1 < m.entries[i].1 := by
    intro p hp
    rcases List.mem_drop_iff_getElem.1 hp with ⟨j, hj, rfl⟩
    intro hlt
    have hij := (key_lt_key (by omega) hi).1 hlt
    omega
  calc
    (m.entries.filter fun p => p.1 < m.entries[i].1) =
        ((m.entries.take i ++ m.entries.drop i).filter fun p => p.1 < m.entries[i].1) := by
      rw [hsplit]
    _ = m.entries.take i := by
      rw [List.filter_append, List.filter_eq_self.2 (by simpa using htake),
        List.filter_eq_nil_iff.2 (by simpa using hdrop), List.append_nil]

theorem filter_key_lt {i : Nat} (hi : i < m.entries.length) :
    (m.entries.filter fun p => m.entries[i].1 < p.1) = m.entries.drop (i + 1) := by
  have hsplit := List.take_append_drop (i + 1) m.entries
  have htake : ∀ p ∈ m.entries.take (i + 1), ¬ m.entries[i].1 < p.1 := by
    intro p hp
    rcases List.mem_take_iff_getElem.1 hp with ⟨j, hj, rfl⟩
    intro hlt
    have hij := (key_lt_key hi (by omega)).1 hlt
    omega
  have hdrop : ∀ p ∈ m.entries.drop (i + 1), m.entries[i].1 < p.1 := by
    intro p hp
    rcases List.mem_drop_iff_getElem.1 hp with ⟨j, hj, rfl⟩
    exact (key_lt_key hi (by omega)).2 (by omega)
  calc
    (m.entries.filter fun p => m.entries[i].1 < p.1) =
        ((m.entries.take (i + 1) ++ m.entries.drop (i + 1)).filter
          fun p => m.entries[i].1 < p.1) := by
      rw [hsplit]
    _ = m.entries.drop (i + 1) := by
      rw [List.filter_append, List.filter_eq_nil_iff.2 (by simpa using htake),
        List.filter_eq_self.2 (by simpa using hdrop), List.nil_append]

/-- The next entry after position `i` is at position `i + 1`, cyclically. -/
theorem nextEntry_getElem {i : Nat} (hi : i < m.entries.length) :
    m.nextEntry m.entries[i].1 = m.entries[(i + 1) % m.entries.length]? := by
  rw [nextEntry, higherEntry, filter_key_lt hi, List.head?_drop, firstEntry]
  rcases Nat.lt_or_eq_of_le (Nat.succ_le_of_lt hi) with hlt | heq
  · rw [Nat.mod_eq_of_lt hlt, List.getElem?_eq_getElem hlt]
    rfl
  · have hend : i + 1 = m.entries.length := heq
    rw [hend, Nat.mod_self, List.getElem?_eq_none (Nat.le_refl _), List.head?_eq_getElem?]
    rfl

/-- The entry before position `i` is at position `i - 1`, cyclically. -/
theorem prevEntry_getElem {i : Nat} (hi : i < m.entries.length) :
    m.prevEntry m.entries[i].1 =
      m.entries[(i + (m.entries.length - 1)) % m.entries.length]? := by
  rw [prevEntry, lowerEntry, filter_lt_key hi, lastEntry, List.getLast?_eq_getElem?,
    List.getLast?_eq_getElem?]
  cases i with
  | zero =>
      have hlast : 0 + (m.entries.length - 1) < m.entries.length := by omega
      rw [Nat.mod_eq_of_lt hlast, List.take_zero]
      simp
  | succ i =>
      have hwrap : (i + 1 + (m.entries.length - 1)) % m.entries.length = i := by
        have hsum : i + 1 + (m.entries.length - 1) = i + m.entries.length := by omega
        rw [hsum, Nat.add_mod_right, Nat.mod_eq_of_lt (by omega)]
      have hlength : (m.entries.take (i + 1)).length = i + 1 := by
        rw [List.length_take]
        omega
      rw [hwrap, hlength, Nat.add_sub_cancel, List.getElem?_take_of_lt (Nat.lt_succ_self i),
        List.getElem?_eq_getElem (by omega)]
      rfl

/-! ## The cycle of entries -/

/-- Next and previous are inverse to each other on the entries. -/
theorem nextEntry_eq_some_iff {p q : K × V} (hp : p ∈ m.entries) (hq : q ∈ m.entries) :
    m.nextEntry p.1 = some q ↔ m.prevEntry q.1 = some p := by
  rcases List.getElem_of_mem hp with ⟨i, hi, rfl⟩
  rcases List.getElem_of_mem hq with ⟨j, hj, rfl⟩
  have hpos : 0 < m.entries.length := Nat.lt_of_le_of_lt (Nat.zero_le i) hi
  -- Positions and entries correspond, so both sides are equations modulo the length.
  have hinj : ∀ {a b : Nat} (ha : a < m.entries.length) (hb : b < m.entries.length),
      m.entries[a]? = some m.entries[b] ↔ a = b := by
    intro a b ha hb
    rw [List.getElem?_eq_getElem ha, Option.some.injEq]
    constructor
    · intro heq
      by_contra hne
      rcases Nat.lt_or_gt_of_ne hne with hlt | hgt
      · exact absurd (congrArg Prod.fst heq) (ne_of_lt ((key_lt_key ha hb).2 hlt))
      · exact absurd (congrArg Prod.fst heq) (ne_of_gt ((key_lt_key hb ha).2 hgt))
    · rintro rfl
      rfl
  rw [nextEntry_getElem hi, prevEntry_getElem hj, hinj (Nat.mod_lt _ hpos) hj,
    hinj (Nat.mod_lt _ hpos) hi]
  constructor
  · intro h
    rw [← h, Nat.mod_add_mod, show i + 1 + (m.entries.length - 1) = i + m.entries.length by omega,
      Nat.add_mod_right, Nat.mod_eq_of_lt hi]
  · intro h
    rw [← h, Nat.mod_add_mod, show j + (m.entries.length - 1) + 1 = j + m.entries.length by omega,
      Nat.add_mod_right, Nat.mod_eq_of_lt hj]

theorem nextEntry_mem {p : K × V} (hp : p ∈ m.entries) : ∃ q ∈ m.entries, m.nextEntry p.1 = some q := by
  rcases List.getElem_of_mem hp with ⟨i, hi, rfl⟩
  have hpos : 0 < m.entries.length := Nat.lt_of_le_of_lt (Nat.zero_le i) hi
  have hlt : (i + 1) % m.entries.length < m.entries.length := Nat.mod_lt _ hpos
  refine ⟨m.entries[(i + 1) % m.entries.length], List.getElem_mem hlt, ?_⟩
  rw [nextEntry_getElem hi, List.getElem?_eq_getElem hlt]

/-- With two entries or more, no entry is its own neighbour. -/
theorem nextEntry_ne_self {p : K × V} (hp : p ∈ m.entries) (htwo : 2 ≤ m.entries.length) :
    m.nextEntry p.1 ≠ some p := by
  rcases List.getElem_of_mem hp with ⟨i, hi, rfl⟩
  have hlt : (i + 1) % m.entries.length < m.entries.length := Nat.mod_lt _ (by omega)
  rw [nextEntry_getElem hi, List.getElem?_eq_getElem hlt]
  intro heq
  have hkey := congrArg Prod.fst (Option.some.inj heq)
  have hnot : ¬ (i + 1) % m.entries.length = i := by
    rcases Nat.lt_or_eq_of_le (Nat.succ_le_of_lt hi) with h | h
    · rw [Nat.mod_eq_of_lt h]
      omega
    · have hend : i + 1 = m.entries.length := h
      rw [hend, Nat.mod_self]
      omega
  rcases Nat.lt_or_gt_of_ne hnot with h | h
  · exact absurd hkey (ne_of_lt ((key_lt_key hlt hi).2 h))
  · exact absurd hkey (ne_of_gt ((key_lt_key hi hlt).2 h))

/-- From any value, stepping to the value of the next entry reaches every value. -/
theorem iterate_nextEntry {f : V → V}
    (hf : ∀ p ∈ m.entries, (m.nextEntry p.1).map Prod.snd = some (f p.2)) {p q : K × V}
    (hp : p ∈ m.entries) (hq : q ∈ m.entries) : ∃ n, f^[n] p.2 = q.2 := by
  rcases List.getElem_of_mem hp with ⟨i, hi, rfl⟩
  rcases List.getElem_of_mem hq with ⟨j, hj, rfl⟩
  have hpos : 0 < m.entries.length := Nat.lt_of_le_of_lt (Nat.zero_le i) hi
  -- After `n` steps the walk stands at position `i + n`, cyclically.
  have hwalk : ∀ n, m.entries[(i + n) % m.entries.length]?.map Prod.snd =
      some (f^[n] m.entries[i].2) := by
    intro n
    induction n with
    | zero =>
        rw [Nat.add_zero, Nat.mod_eq_of_lt hi, List.getElem?_eq_getElem hi]
        rfl
    | succ n ih =>
        have hlt : (i + n) % m.entries.length < m.entries.length := Nat.mod_lt _ hpos
        rw [List.getElem?_eq_getElem hlt] at ih
        have hhere : m.entries[(i + n) % m.entries.length].2 = f^[n] m.entries[i].2 :=
          Option.some.inj ih
        have hstep := hf _ (List.getElem_mem hlt)
        rw [nextEntry_getElem hlt, Nat.mod_add_mod] at hstep
        rw [Function.iterate_succ_apply', ← hhere]
        exact hstep
  refine ⟨j + m.entries.length - i, ?_⟩
  have hend : (i + (j + m.entries.length - i)) % m.entries.length = j := by
    rw [show i + (j + m.entries.length - i) = j + m.entries.length by omega, Nat.add_mod_right,
      Nat.mod_eq_of_lt hj]
  have hlast := hwalk (j + m.entries.length - i)
  rw [hend, List.getElem?_eq_getElem hj] at hlast
  exact (Option.some.inj hlast).symm

/-! ## Sizes -/

theorem length_insert_of_not_containsKey (h : m.containsKey k = false) :
    (m.insert k v).length = m.length + 1 := by
  have hne : ∀ p ∈ m.entries, p.1 ≠ k := by
    intro p hp heq
    have hfound : m.containsKey k = true := containsKey_eq_true.2 ⟨p.2, heq ▸ hp⟩
    simp [h] at hfound
  have habove : m.entries.filter (fun p => k < p.1) =
      m.entries.filter (fun p => !decide (p.1 < k)) := by
    refine List.filter_congr fun p hp => ?_
    have hiff : k < p.1 ↔ ¬ p.1 < k := by
      rw [not_lt]
      exact ⟨le_of_lt, fun hle => lt_of_le_of_ne hle (hne p hp).symm⟩
    rw [← decide_not]
    exact decide_eq_decide.2 hiff
  calc
    (m.insert k v).length =
        (m.entries.filter fun p => p.1 < k).length + (m.entries.filter fun p => k < p.1).length + 1 := by
      simp [length, insert, Nat.add_assoc]
    _ = m.length + 1 := by
      rw [habove, ← List.length_eq_length_filter_add]
      rfl

theorem length_remove_lt_of_containsKey (h : m.containsKey k = true) :
    (m.remove k).length < m.length := by
  rcases containsKey_eq_true.1 h with ⟨v, hv⟩
  refine List.length_filter_lt_length_iff_exists.2 ⟨(k, v), hv, ?_⟩
  simp

end OrderedMap

end Foundations
