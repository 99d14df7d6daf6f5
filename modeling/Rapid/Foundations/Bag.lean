import Mathlib.Data.Finmap
import Mathlib.Data.Multiset.Bind

/-!
# Bag — what a table of lists holds

`bag table` is the multiset of all that the lists of a table contain. Taking an entry out removes
its list from the bag, and appending to an entry adds one element, so that nothing that passes
through such a table is lost or doubled. Likewise the groups of a list by a key make up the list.
-/

namespace Foundations

variable {α β : Type*} [DecidableEq α] {table : Finmap fun _ : α => List β} {a : α}

omit [DecidableEq α] in
def bag (table : Finmap fun _ : α => List β) : Multiset β :=
  table.entries.bind fun entry => (entry.2 : Multiset β)

omit [DecidableEq α] in
@[simp] theorem bag_empty : bag (∅ : Finmap fun _ : α => List β) = 0 :=
  Multiset.zero_bind _

theorem bag_insert (h : a ∉ table) (values : List β) :
    bag (table.insert a values) = bag table + values := by
  unfold bag
  rw [Finmap.entries_insert_of_notMem h, Multiset.cons_bind, add_comm]

/-- An entry that was taken out and put back. -/
theorem insert_erase_of_lookup {values : List β} (h : table.lookup a = some values) :
    (table.erase a).insert a values = table := by
  refine Finmap.ext_lookup fun x => ?_
  by_cases hx : x = a
  · subst hx
    rw [Finmap.lookup_insert, h]
  · rw [Finmap.lookup_insert_of_ne _ hx, Finmap.lookup_erase_ne hx]

theorem bag_erase {values : List β} (h : table.lookup a = some values) :
    bag (table.erase a) + values = bag table := by
  calc bag (table.erase a) + values = bag ((table.erase a).insert a values) :=
        (bag_insert Finmap.notMem_erase_self values).symm
    _ = bag table := by rw [insert_erase_of_lookup h]

/-- One more element behind those of an entry. -/
theorem bag_push (table : Finmap fun _ : α => List β) (a : α) (value : β) :
    bag (table.insert a ((table.lookup a).getD [] ++ [value])) = bag table + {value} := by
  cases hlookup : table.lookup a with
  | none => exact bag_insert (Finmap.lookup_eq_none.1 hlookup) [value]
  | some values =>
      have hback : table.insert a (values ++ [value]) =
          (table.erase a).insert a (values ++ [value]) := by
        rw [← insert_erase_of_lookup hlookup, Finmap.insert_insert,
          insert_erase_of_lookup hlookup]
      calc bag (table.insert a (values ++ [value]))
          = bag (table.erase a) + ↑(values ++ [value]) := by
            rw [hback, bag_insert Finmap.notMem_erase_self]
        _ = bag (table.erase a) + values + {value} := by
            rw [← Multiset.coe_add, ← add_assoc, Multiset.coe_singleton]
        _ = bag table + {value} := by rw [bag_erase hlookup]

/-! ## Groups -/

theorem flatMap_groups {γ : Type*} {keys : List α} (hkeys : keys.Nodup) (key : γ → α) :
    ∀ {l : List γ}, (∀ x ∈ l, key x ∈ keys) →
      (keys.flatMap fun k => l.filter fun x => key x = k).Perm l := by
  induction keys with
  | nil =>
      intro l hl
      rw [List.eq_nil_iff_forall_not_mem.2 fun x hx => absurd (hl x hx) List.not_mem_nil]
      rfl
  | cons k keys ih =>
      intro l hl
      rcases List.nodup_cons.1 hkeys with ⟨hk, hrest⟩
      have hothers := ih hrest (l := l.filter fun x => !decide (key x = k)) fun x hx => by
        rcases List.mem_filter.1 hx with ⟨hx, hne⟩
        have hne : key x ≠ k := by simpa using hne
        exact (List.mem_cons.1 (hl x hx)).resolve_left hne
      -- The other groups do not miss the elements of this one.
      have hsame : (keys.flatMap fun k' => l.filter fun x => key x = k') =
          keys.flatMap fun k' =>
            (l.filter fun x => !decide (key x = k)).filter fun x => key x = k' := by
        refine List.flatMap_congr fun k' hk' => ?_
        rw [List.filter_filter]
        refine List.filter_congr fun x _ => ?_
        by_cases hx : key x = k'
        · have hne : key x ≠ k := fun heq => hk (heq ▸ hx ▸ hk')
          simp [hx, hx ▸ hne]
        · simp [hx]
      rw [List.flatMap_cons, hsame]
      exact (hothers.append_left _).trans (List.filter_append_perm _ l)

end Foundations
