import Mathlib.Data.Finmap

/-!
# AccessTable — a table whose entries expire when nobody reads them

Each entry carries the time of its last access. `touch` drops what has not been read within a window
and reads one entry, `offer` writes an entry where there is none. Neither gives a key a new value:
what is in the table afterwards was there before, or is the offer.
-/

namespace Foundations

structure Accessed (β : Type*) where
  value : β
  lastAccess : Nat

/-- A table with the times of access. -/
abbrev AccessTable (α β : Type*) :=
  Finmap fun _ : α => Accessed β

variable {α β : Type*}

def retain (keep : β → Bool) (table : Finmap fun _ : α => β) : Finmap fun _ : α => β where
  entries := table.entries.filter fun entry => keep entry.2
  nodupKeys := by
    rw [← Multiset.nodup_keys]
    exact Multiset.nodup_of_le (Multiset.map_le_map (Multiset.filter_le _ _))
      table.nodupKeys.nodup_keys

variable [DecidableEq α]

theorem lookup_retain {keep : β → Bool} {table : Finmap fun _ : α => β} {a : α} {b : β} :
    (retain keep table).lookup a = some b ↔ table.lookup a = some b ∧ keep b = true := by
  have hmem : (⟨a, b⟩ : Sigma fun _ : α => β) ∈ (retain keep table).entries ↔
      (⟨a, b⟩ : Sigma fun _ : α => β) ∈ table.entries ∧ keep b = true := Multiset.mem_filter
  exact Finmap.mem_lookup_iff.trans (hmem.trans (and_congr_left' Finmap.mem_lookup_iff.symm))

namespace AccessTable

variable (table : AccessTable α β) (window now : Nat) (a : α) (value : β)

/-- Drop what was last read a window ago or longer, and read an entry. -/
def touch : AccessTable α β × Option (Accessed β) :=
  let kept := retain (fun entry => decide (now - entry.lastAccess < window)) table
  match kept.lookup a with
  | some entry => (kept.insert a { entry with lastAccess := now }, some entry)
  | none => (kept, none)

/-- Write an entry unless there is one. -/
def offer : AccessTable α β :=
  if a ∈ table then table else table.insert a ⟨value, now⟩

variable {table window now a value} {b : α} {entry : Accessed β}

/-- What is read was in the table, and not for longer than the window since. -/
theorem touch_eq_some (h : (touch table window now a).2 = some entry) :
    table.lookup a = some entry ∧ now - entry.lastAccess < window := by
  unfold touch at h
  dsimp only at h
  split at h
  · rename_i found hfound
    cases h
    obtain ⟨hlookup, hkeep⟩ := lookup_retain.1 hfound
    exact ⟨hlookup, of_decide_eq_true hkeep⟩
  · cases h

/-- What is in the table after a read was in it before. -/
theorem lookup_touch (h : (touch table window now a).1.lookup b = some entry) :
    ∃ old, table.lookup b = some old ∧ old.value = entry.value := by
  unfold touch at h
  dsimp only at h
  split at h
  · rename_i found hfound
    by_cases hb : b = a
    · subst hb
      rw [Finmap.lookup_insert] at h
      cases h
      exact ⟨found, (lookup_retain.1 hfound).1, rfl⟩
    · rw [Finmap.lookup_insert_of_ne _ hb] at h
      exact ⟨entry, (lookup_retain.1 h).1, rfl⟩
  · exact ⟨entry, (lookup_retain.1 h).1, rfl⟩

/-- What is in the table after an offer was in it before, or is the offer. -/
theorem lookup_offer (h : (offer table now a value).lookup b = some entry) :
    table.lookup b = some entry ∨ b = a ∧ entry.value = value := by
  unfold offer at h
  split at h
  · exact .inl h
  · by_cases hb : b = a
    · subst hb
      rw [Finmap.lookup_insert] at h
      cases h
      exact .inr ⟨rfl, rfl⟩
    · rw [Finmap.lookup_insert_of_ne _ hb] at h
      exact .inl h

theorem lookup_erased (h : Finmap.lookup b (Finmap.erase a table) = some entry) :
    b ≠ a ∧ table.lookup b = some entry := by
  by_cases hb : b = a
  · subst hb
    rw [Finmap.lookup_erase] at h
    cases h
  · rw [Finmap.lookup_erase_ne hb] at h
    exact ⟨hb, h⟩

end AccessTable

end Foundations
