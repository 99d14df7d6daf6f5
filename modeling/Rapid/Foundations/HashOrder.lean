import Mathlib.Algebra.GroupWithZero.Nat
import Mathlib.Data.Finmap
import Mathlib.Data.List.Sort

/-!
# HashOrder — the order in which a hash table is iterated

Hash sets and hash maps are finite sets and finite maps; a program that iterates one sees its
elements in some order, each once. A `HashOrder` is such a choice of orders. What is proved for
every `HashOrder` holds for every hasher and every history of the table.
-/

namespace Foundations

/-- A listing of every finite set, without repeats. -/
structure HashOrder (α : Type*) where
  list : Finset α → List α
  nodup : ∀ s, (list s).Nodup
  mem_list : ∀ s a, a ∈ list s ↔ a ∈ s

namespace HashOrder

variable {α β γ : Type*}

@[simp] theorem mem_list_iff (order : HashOrder α) {s : Finset α} {a : α} :
    a ∈ order.list s ↔ a ∈ s :=
  order.mem_list s a

@[simp] theorem list_eq_nil (order : HashOrder α) {s : Finset α} : order.list s = [] ↔ s = ∅ := by
  simp only [List.eq_nil_iff_forall_not_mem, mem_list_iff, Finset.eq_empty_iff_forall_notMem]

theorem list_singleton (order : HashOrder α) (a : α) : order.list {a} = [a] := by
  refine List.perm_singleton.1 ?_
  refine (List.perm_ext_iff_of_nodup (order.nodup {a}) (List.nodup_singleton a)).2 ?_
  intro x
  simp

/-- Two sets of which one is empty are listed one after the other. -/
theorem list_union [DecidableEq α] (order : HashOrder α) {s t : Finset α} (h : s = ∅ ∨ t = ∅) :
    order.list (s ∪ t) = order.list s ++ order.list t := by
  rcases h with rfl | rfl
  · simp [order.list_eq_nil.2 rfl]
  · simp [order.list_eq_nil.2 rfl]

variable [DecidableEq α] in
/-- The entries of a finite map, in the order of its keys. -/
def entries (order : HashOrder α) (m : Finmap fun _ : α => γ) : List (α × γ) :=
  (order.list m.keys).filterMap fun key => (m.lookup key).map fun value => (key, value)

theorem mem_entries [DecidableEq α] (order : HashOrder α) {m : Finmap fun _ : α => γ} {p : α × γ} :
    p ∈ order.entries m ↔ m.lookup p.1 = some p.2 := by
  rw [entries, List.mem_filterMap]
  constructor
  · rintro ⟨key, _, hkey⟩
    rcases Option.map_eq_some_iff.1 hkey with ⟨value, hvalue, rfl⟩
    exact hvalue
  · intro hlookup
    have hmem : p.1 ∈ m.keys := Finmap.mem_keys.2 (Finmap.mem_of_lookup_eq_some hlookup)
    exact ⟨p.1, order.mem_list_iff.2 hmem, Option.map_eq_some_iff.2 ⟨p.2, hlookup, rfl⟩⟩

theorem pairwise_entries [DecidableEq α] (order : HashOrder α) (m : Finmap fun _ : α => γ) :
    (order.entries m).Pairwise fun p q => p.1 ≠ q.1 := by
  refine List.pairwise_filterMap.2 ((order.nodup m.keys).imp fun {key key'} hne p hp q hq => ?_)
  rcases Option.map_eq_some_iff.1 hp with ⟨value, _, rfl⟩
  rcases Option.map_eq_some_iff.1 hq with ⟨value', _, rfl⟩
  exact hne

/-- The lengths of the values add up to the number of pairs of a key and an element of its value. -/
theorem sum_length_entries [DecidableEq α] [DecidableEq γ] (order : HashOrder α)
    {m : Finmap fun _ : α => List γ} (hnodup : ∀ key value, m.lookup key = some value → value.Nodup) :
    ∃ pairs : Finset (γ × α), (∀ p, p ∈ pairs ↔ ∃ value, m.lookup p.2 = some value ∧ p.1 ∈ value) ∧
      ((order.entries m).map fun entry => entry.2.length).sum = pairs.card := by
  let list := (order.entries m).flatMap fun entry => entry.2.map fun c => (c, entry.1)
  have hmem : ∀ p, p ∈ list ↔ ∃ value, m.lookup p.2 = some value ∧ p.1 ∈ value := by
    intro p
    simp only [list, List.mem_flatMap, List.mem_map, mem_entries]
    constructor
    · rintro ⟨⟨key, value⟩, hentry, c, hc, rfl⟩
      exact ⟨value, hentry, hc⟩
    · rintro ⟨value, hlookup, hc⟩
      exact ⟨(p.2, value), hlookup, p.1, hc, rfl⟩
  have hlist : list.Nodup := by
    refine List.nodup_flatMap.2 ⟨?_, ?_⟩
    · intro entry hentry
      refine (hnodup entry.1 entry.2 (order.mem_entries.1 hentry)).map ?_
      exact fun c c' heq => congrArg Prod.fst heq
    · -- Two entries have different keys.
      refine (order.pairwise_entries m).imp fun {a b} hne => ?_
      rw [Function.onFun, List.disjoint_left]
      intro p hp hp'
      rcases List.mem_map.1 hp with ⟨c, _, rfl⟩
      rcases List.mem_map.1 hp' with ⟨c', _, heq⟩
      exact hne (congrArg Prod.snd heq).symm
  refine ⟨list.toFinset, fun p => by rw [List.mem_toFinset, hmem], ?_⟩
  rw [List.toFinset_card_of_nodup hlist, List.length_flatMap]
  simp

section ByKey

variable [LinearOrder β]

/-- Lists with the same elements are sorted into the same list. -/
theorem insertionSort_eq_of_perm {key : α → β} (hkey : Function.Injective key) {l l' : List α}
    (h : l.Perm l') :
    (l.insertionSort fun a b => key a ≤ key b) = l'.insertionSort fun a b => key a ≤ key b := by
  have : IsTrans α fun a b => key a ≤ key b := ⟨fun _ _ _ => le_trans⟩
  have : Std.Total fun a b : α => key a ≤ key b := ⟨fun _ _ => le_total _ _⟩
  have hperm : (l.insertionSort fun a b => key a ≤ key b).Perm
      (l'.insertionSort fun a b => key a ≤ key b) :=
    (List.perm_insertionSort _ l).trans (h.trans (List.perm_insertionSort _ l').symm)
  refine hperm.eq_of_pairwise ?_ (List.pairwise_insertionSort _ l) (List.pairwise_insertionSort _ l')
  intro a b _ _ hab hba
  exact hkey (le_antisymm hab hba)

/-- Iteration by increasing key. -/
def ofKey (key : α → β) (hkey : Function.Injective key) : HashOrder α where
  list s := Quot.liftOn s.val (fun l => l.insertionSort fun a b => key a ≤ key b)
    fun _ _ h => insertionSort_eq_of_perm hkey h
  nodup s := by
    rcases s with ⟨⟨l⟩, hl⟩
    exact (List.perm_insertionSort _ l).nodup_iff.2 hl
  mem_list s a := by
    rcases s with ⟨⟨l⟩, hl⟩
    exact List.mem_insertionSort _

end ByKey

end HashOrder

end Foundations
