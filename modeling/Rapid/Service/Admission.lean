import Rapid.Service.Decision

/-!
# Admission — who is let in by a proposal

The loop of `decide_view_change` takes members out and lets other nodes in, so an endpoint that is
listed twice leaves and comes back. A node `Enters` when the loop reaches it as a non-member. These
are facts about a processed part of the proposal, stated in terms of the state before the loop.
-/

namespace Rapid

open Foundations

variable [Xxh64]

/-! ## One ring, one key -/

namespace Ring

variable {ring : Ring} {x y : Endpoint}

theorem entries_insert_of_ne {p : Int64 × Endpoint} (hp : p.1 ≠ ring.key x) :
    p ∈ (ring.insert x).1.byHash.entries ↔ p ∈ ring.byHash.entries := by
  unfold Ring.insert
  dsimp only
  split
  · rfl
  · rw [OrderedMap.mem_insert]
    constructor
    · rintro (rfl | ⟨hold, _⟩)
      · exact absurd rfl hp
      · exact hold
    · exact fun hold => .inr ⟨hold, hp⟩

theorem entries_remove_of_ne {p : Int64 × Endpoint} (hp : p.1 ≠ ring.key x) :
    p ∈ (ring.remove x).1.byHash.entries ↔ p ∈ ring.byHash.entries :=
  OrderedMap.mem_remove.trans ⟨fun h => h.1, fun h => ⟨h, hp⟩⟩

theorem entry_insert (hfree : ring.contains x = false) :
    (ring.key x, x) ∈ (ring.insert x).1.byHash.entries := by
  have habsent : ring.byHash.containsKey (ring.key x) = false := hfree
  simp only [Ring.insert, habsent]
  exact OrderedMap.mem_insert.2 (.inl rfl)

theorem contains_remove_self : (ring.remove x).1.contains x = false := by
  refine Bool.eq_false_iff.2 ?_
  intro hcontains
  rcases OrderedMap.containsKey_eq_true.1 hcontains with ⟨v, hv⟩
  exact (OrderedMap.mem_remove.1 hv).2 rfl

end Ring

namespace MembershipView

variable {v w : MembershipView} {e : Endpoint} {id id' : NodeId}

omit [Xxh64] in
theorem isIdentifierPresent_addIdentifier :
    (v.addIdentifier id).isIdentifierPresent id' = true ↔
      id' = id ∨ v.isIdentifierPresent id' = true := by
  rw [isIdentifierPresent_iff, isIdentifierPresent_iff, mem_keys_addIdentifier]
  constructor
  · rintro (hkey | hold)
    · exact .inl (NodeIdKey.ofNodeId_injective hkey)
    · exact .inr hold
  · rintro (rfl | hold)
    · exact .inl rfl
    · exact .inr hold

theorem isIdentifierPresent_added :
    (v.added e id).isIdentifierPresent id' = true ↔
      id' = id ∨ v.isIdentifierPresent id' = true :=
  isIdentifierPresent_addIdentifier

end MembershipView

/-! ## A processed part of the proposal -/

namespace ServiceState

/-- The loop has reached the endpoint as a non-member: at its first occurrence, or at its second
one when it was a member. -/
def Enters (s : ServiceState) (nodes : List Endpoint) (y : Endpoint) : Prop :=
  (if y ∈ s.view.allNodes then 1 else 0) < nodes.count y

variable {s t u : ServiceState} {nodes : List Endpoint} {x y : Endpoint}
  {delta : List NodeStatusChange} {id : NodeId}

omit [Xxh64] in
theorem Enters.append (h : s.Enters nodes y) (more : List Endpoint) :
    s.Enters (nodes ++ more) y :=
  lt_of_lt_of_le h (by simp)

omit [Xxh64] in
theorem enters_append_of_ne (hne : x ≠ y) : s.Enters (nodes ++ [x]) y ↔ s.Enters nodes y := by
  simp [Enters, List.count_append, hne]

omit [Xxh64] in
theorem enters_append_self :
    s.Enters (nodes ++ [y]) y ↔ (if y ∈ s.view.allNodes then 1 else 0) < nodes.count y + 1 := by
  simp [Enters, List.count_append]

omit [Xxh64] in
/-- Whoever enters does so at one occurrence. -/
theorem Enters.exists_occurrence (h : s.Enters nodes y) :
    ∃ before after, nodes = before ++ y :: after ∧ ¬ s.Enters before y ∧
      s.Enters (before ++ [y]) y := by
  induction nodes using List.reverseRecOn with
  | nil => exact absurd h (by simp [Enters])
  | append_singleton before x ih =>
      by_cases hbefore : s.Enters before y
      · rcases ih hbefore with ⟨first, after, rfl, hnot, henters⟩
        exact ⟨first, after ++ [x], by simp, hnot, henters⟩
      · have hxy : x = y := by
          by_contra hne
          exact hbefore ((enters_append_of_ne hne).1 h)
        subst hxy
        exact ⟨before, [], rfl, hbefore, h⟩

/-- What the state after the nodes has to do with the state before them. -/
structure Processed (s : ServiceState) (nodes : List Endpoint) (t : ServiceState) : Prop where
  seed : t.view.ringZero.seed = s.view.ringZero.seed
  outside : ∀ y, y ∉ nodes → (y ∈ t.view.allNodes ↔ y ∈ s.view.allNodes)
  table : ∀ y id, t.joinerUuid.lookup y = some id → s.joinerUuid.lookup y = some id
  waiting : ∀ y, ¬ s.Enters nodes y → t.joinerUuid.lookup y = s.joinerUuid.lookup y
  known : ∀ id, t.view.isIdentifierPresent id = true → s.view.isIdentifierPresent id = true ∨
    ∃ y, s.Enters nodes y ∧ s.joinerUuid.lookup y = some id
  kept : ∀ id, s.view.isIdentifierPresent id = true → t.view.isIdentifierPresent id = true

omit [Xxh64] in
theorem Processed.refl (s : ServiceState) : Processed s [] s :=
  ⟨rfl, fun _ _ => .rfl, fun _ _ h => h, fun _ _ => rfl, fun _ h => .inl h, fun _ h => h⟩

omit [Xxh64] in
/-- A node that is reached as a non-member enters. -/
theorem Processed.enters (h : Processed s nodes t) (habsent : x ∉ t.view.allNodes) :
    s.Enters (nodes ++ [x]) x := by
  rw [enters_append_self]
  split
  · rename_i hmember
    have hlisted : x ∈ nodes := by
      by_contra hout
      exact habsent ((h.outside x hout).2 hmember)
    have hpos := List.count_pos_iff.2 hlisted
    omega
  · omega

omit [Xxh64] in
theorem Processed.not_enters_of_append (hout : ¬ s.Enters (nodes ++ [x]) y) :
    ¬ s.Enters nodes y :=
  fun hin => hout (hin.append [x])

omit [Xxh64] in
/-- A step that only touches members and metadata. -/
theorem Processed.sameTables (h : Processed s nodes t) (hseed : u.view.ringZero.seed = t.view.ringZero.seed)
    (hmembers : ∀ y, y ≠ x → (y ∈ u.view.allNodes ↔ y ∈ t.view.allNodes))
    (htable : u.joinerUuid = t.joinerUuid)
    (hids : ∀ id, u.view.isIdentifierPresent id = t.view.isIdentifierPresent id) :
    Processed s (nodes ++ [x]) u where
  seed := hseed.trans h.seed
  outside := by
    intro y hy
    simp only [List.mem_append, List.mem_singleton, not_or] at hy
    exact (hmembers y hy.2).trans (h.outside y hy.1)
  table := by
    rw [htable]
    exact h.table
  waiting := by
    rw [htable]
    exact fun y hy => h.waiting y (not_enters_of_append hy)
  known := by
    intro id hid
    rw [hids] at hid
    exact (h.known id hid).imp_right fun ⟨y, hy, hlookup⟩ => ⟨y, hy.append _, hlookup⟩
  kept := by
    intro id hid
    rw [hids]
    exact h.kept id hid

omit [Xxh64] in
/-- A step that uses up the joiner's entry. -/
theorem Processed.consumed (h : Processed s nodes t) (habsent : x ∉ t.view.allNodes)
    (hlookup : t.joinerUuid.lookup x = some id)
    (hseed : u.view.ringZero.seed = t.view.ringZero.seed)
    (hmembers : ∀ y, y ≠ x → (y ∈ u.view.allNodes ↔ y ∈ t.view.allNodes))
    (htable : u.joinerUuid = t.joinerUuid.erase x)
    (hids : ∀ id', u.view.isIdentifierPresent id' = true →
      id' = id ∨ t.view.isIdentifierPresent id' = true)
    (hkept : ∀ id', t.view.isIdentifierPresent id' = true →
      u.view.isIdentifierPresent id' = true) :
    Processed s (nodes ++ [x]) u where
  seed := hseed.trans h.seed
  outside := by
    intro y hy
    simp only [List.mem_append, List.mem_singleton, not_or] at hy
    exact (hmembers y hy.2).trans (h.outside y hy.1)
  table := by
    intro y id' hy
    rw [htable] at hy
    by_cases hyx : y = x
    · rw [hyx, Finmap.lookup_erase] at hy
      cases hy
    · rw [Finmap.lookup_erase_ne hyx] at hy
      exact h.table y id' hy
  waiting := by
    intro y hy
    -- `x` enters, so it does not wait any more.
    have hyx : y ≠ x := by
      rintro rfl
      exact hy (h.enters habsent)
    rw [htable, Finmap.lookup_erase_ne hyx]
    exact h.waiting y (not_enters_of_append hy)
  known := by
    intro id' hid'
    rcases hids id' hid' with rfl | hold
    · exact .inr ⟨x, h.enters habsent, h.table x id' hlookup⟩
    · exact (h.known id' hold).imp_right fun ⟨y, hy, hlookup⟩ => ⟨y, hy.append _, hlookup⟩
  kept := fun id' hid' => hkept id' (h.kept id' hid')

theorem Processed.step (h : Processed s nodes t) (hstep : NodeStep x t u delta) :
    Processed s (nodes ++ [x]) u := by
  cases hstep with
  | removed hmember hring =>
      refine h.sameTables ?_ ?_ rfl fun _ => rfl
      · rw [MembershipView.ringZero_deleted]
        rfl
      · intro y hy
        simp [MembershipView.deleted, hy]
  | stuck hmember hring => exact h.sameTables rfl (fun _ _ => .rfl) rfl fun _ => rfl
  | unknown habsent hlookup => exact h.sameTables rfl (fun _ _ => .rfl) rfl fun _ => rfl
  | rejected nodeId habsent hlookup hreason =>
      exact h.consumed habsent hlookup rfl (fun _ _ => .rfl) rfl (fun _ hold => .inr hold)
        fun _ hold => hold
  | admitted nodeId habsent hlookup hid hring =>
      refine h.consumed habsent hlookup ?_ ?_ rfl ?_ ?_
      · rw [MembershipView.ringZero_added]
        exact Ring.seed_insert
      · intro y hy
        simp [MembershipView.added, MembershipView.addIdentifier, hy]
      · exact fun id' hid' => MembershipView.isIdentifierPresent_added.1 hid'
      · exact fun id' hid' => MembershipView.isIdentifierPresent_added.2 (.inr hid')

omit [Xxh64] in
theorem applyNodes_append [Xxh64] (first second : List Endpoint) :
    ∀ s : ServiceState, (applyNodes (first ++ second) s).1 =
      (applyNodes second (applyNodes first s).1).1 := by
  induction first with
  | nil => exact fun s => rfl
  | cons node first ih => exact fun s => ih (s.applyNode node).1

theorem applyNodes_processed (s : ServiceState) (nodes : List Endpoint) :
    Processed s nodes (applyNodes nodes s).1 := by
  induction nodes using List.reverseRecOn with
  | nil => exact .refl s
  | append_singleton nodes x ih =>
      rw [applyNodes_append]
      exact ih.step (applyNode_step _ x)

/-! ## Letting one joiner in -/

/-- No other endpoint of the proposal has the endpoint's key on ring 0, and the endpoint is on
ring 0 exactly when it is a member. -/
structure Alone (s : ServiceState) (nodes : List Endpoint) (y : Endpoint) : Prop where
  onRing : y ∈ s.view.allNodes ↔ s.view.ringZero.contains y = true
  key : ∀ z ∈ nodes, z ≠ y → s.view.ringZero.key z ≠ s.view.ringZero.key y

theorem Alone.of_append {more : List Endpoint} (h : s.Alone (nodes ++ more) y) :
    s.Alone nodes y :=
  ⟨h.onRing, fun z hz => h.key z (List.mem_append_left _ hz)⟩

/-- The endpoint stays on ring 0 exactly while it is a member. -/
structure Tracked (s : ServiceState) (nodes : List Endpoint) (y : Endpoint) (t : ServiceState) :
    Prop where
  onRing : y ∈ t.view.allNodes ↔ t.view.ringZero.contains y = true
  left : y ∈ s.view.allNodes → nodes.count y = 1 → y ∉ t.view.allNodes

theorem contains_congr {v w : MembershipView} (hseed : w.ringZero.seed = v.ringZero.seed)
    (hentries : ∀ e, (v.ringZero.key y, e) ∈ w.ringZero.byHash.entries ↔
      (v.ringZero.key y, e) ∈ v.ringZero.byHash.entries) :
    w.ringZero.contains y = true ↔ v.ringZero.contains y = true := by
  have hkey : w.ringZero.key y = v.ringZero.key y := by
    rw [Ring.key, Ring.key, hseed]
  simp only [Ring.contains, OrderedMap.containsKey_eq_true, hkey, hentries]

/-- A node with another key leaves the endpoint's place on ring 0 alone. -/
theorem entries_of_ne (hstep : NodeStep x t u delta)
    (hkey : t.view.ringZero.key x ≠ t.view.ringZero.key y) (e : Endpoint) :
    (t.view.ringZero.key y, e) ∈ u.view.ringZero.byHash.entries ↔
      (t.view.ringZero.key y, e) ∈ t.view.ringZero.byHash.entries := by
  cases hstep with
  | removed =>
      rw [MembershipView.ringZero_deleted]
      exact Ring.entries_remove_of_ne hkey.symm
  | stuck => rfl
  | unknown => rfl
  | rejected => rfl
  | admitted =>
      rw [MembershipView.ringZero_added]
      exact Ring.entries_insert_of_ne hkey.symm

theorem seed_of_step (hstep : NodeStep x t u delta) :
    u.view.ringZero.seed = t.view.ringZero.seed :=
  ((Processed.refl t).step hstep).seed

theorem mem_of_step (hstep : NodeStep x t u delta) (hne : y ≠ x) :
    y ∈ u.view.allNodes ↔ y ∈ t.view.allNodes :=
  ((Processed.refl t).step hstep).outside y (by simpa using hne)

theorem Tracked.step (h : Tracked s nodes y t) (hprocessed : Processed s nodes t)
    (hkey : x ≠ y → s.view.ringZero.key x ≠ s.view.ringZero.key y)
    (hstep : NodeStep x t u delta) : Tracked s (nodes ++ [x]) y u := by
  by_cases hxy : x = y
  · subst hxy
    -- A member is taken out at its first occurrence.
    have hleft : x ∈ s.view.allNodes → (nodes ++ [x]).count x = 1 → x ∈ t.view.allNodes := by
      intro hmember hcount
      rw [List.count_append, List.count_singleton_self] at hcount
      have hout : x ∉ nodes := List.count_eq_zero.1 (by omega)
      exact (hprocessed.outside x hout).2 hmember
    cases hstep with
    | removed hmember hring =>
        have hgone : x ∉ (t.view.deleted x).allNodes := Finset.notMem_erase _ _
        refine ⟨iff_of_false hgone ?_, fun _ _ => hgone⟩
        show ¬ (t.view.deleted x).ringZero.contains x = true
        rw [MembershipView.ringZero_deleted, Ring.contains_remove_self]
        decide
    | stuck hmember hring =>
        rw [h.onRing.1 hmember] at hring
        cases hring
    | unknown habsent hlookup => exact ⟨h.onRing, fun hs hc => absurd (hleft hs hc) habsent⟩
    | rejected nodeId habsent hlookup hreason =>
        exact ⟨h.onRing, fun hs hc => absurd (hleft hs hc) habsent⟩
    | admitted nodeId habsent hlookup hid hring =>
        refine ⟨iff_of_true (Finset.mem_insert_self _ _) ?_, fun hs hc => absurd (hleft hs hc) habsent⟩
        show (t.view.added x nodeId).ringZero.contains x = true
        rw [MembershipView.ringZero_added]
        refine OrderedMap.containsKey_eq_true.2 ⟨x, ?_⟩
        rw [Ring.key, Ring.seed_insert]
        exact Ring.entry_insert hring
  · have hkey' : t.view.ringZero.key x ≠ t.view.ringZero.key y := by
      rw [Ring.key, Ring.key, hprocessed.seed]
      exact hkey hxy
    have hmem := mem_of_step hstep (Ne.symm hxy)
    constructor
    · rw [hmem, h.onRing]
      exact (contains_congr (seed_of_step hstep) (entries_of_ne hstep hkey')).symm
    · intro hmember hcount
      rw [List.count_append, List.count_singleton, if_neg (by simpa using hxy)] at hcount
      rw [hmem]
      exact h.left hmember (by simpa using hcount)

theorem Alone.tracked (h : s.Alone nodes y) : Tracked s nodes y (applyNodes nodes s).1 := by
  induction nodes using List.reverseRecOn with
  | nil => exact ⟨h.onRing, fun _ hcount => by cases hcount⟩
  | append_singleton nodes x ih =>
      rw [applyNodes_append]
      exact (ih h.of_append).step (applyNodes_processed s nodes)
        (h.key x (List.mem_append_right _ List.mem_cons_self)) (applyNode_step _ x)

/-- A joiner with an entry brings its identifier, and unless that was known already it is put on
ring 0. -/
theorem Alone.enters {before after : List Endpoint} (h : s.Alone (before ++ y :: after) y)
    (hnot : ¬ s.Enters before y) (henters : s.Enters (before ++ [y]) y)
    (hlookup : s.joinerUuid.lookup y = some id) :
    (applyNodes (before ++ [y]) s).1.view.isIdentifierPresent id = true ∧
      ((applyNodes before s).1.view.isIdentifierPresent id = false →
        (s.view.ringZero.key y, y) ∈
          (applyNodes (before ++ [y]) s).1.view.ringZero.byHash.entries) := by
  have hprocessed := applyNodes_processed s before
  have hfirst : s.Alone before y := h.of_append
  have htracked := hfirst.tracked
  rw [applyNodes_append]
  generalize (applyNodes before s).1 = t at hprocessed htracked
  -- Before the occurrence that lets `y` in, `y` is no member.
  have habsent : y ∉ t.view.allNodes := by
    rw [enters_append_self] at henters
    rw [Enters] at hnot
    split at henters
    · rename_i hmember
      rw [if_pos hmember] at hnot
      exact htracked.left hmember (by omega)
    · rename_i hmember
      rw [if_neg hmember] at hnot
      have hout : y ∉ before := List.count_eq_zero.1 (by omega)
      exact fun hin => hmember ((hprocessed.outside y hout).1 hin)
  have hentry : t.joinerUuid.lookup y = some id := (hprocessed.waiting y hnot).trans hlookup
  have hring : t.view.ringZero.contains y = false :=
    Bool.eq_false_iff.2 fun hin => habsent (htracked.onRing.2 hin)
  have hkey : s.view.ringZero.key y = t.view.ringZero.key y := by
    rw [Ring.key, Ring.key, hprocessed.seed]
  have hlast : (applyNodes [y] t).1 = (t.applyNode y).1 := rfl
  have hstep := t.applyNode_step y
  rw [hlast, hkey]
  generalize (t.applyNode y).1 = u, (t.applyNode y).2 = delta at hstep
  -- So the loop body tries to admit `y`, with the id that is stored.
  cases hstep with
  | removed hmember => exact absurd hmember habsent
  | stuck hmember => exact absurd hmember habsent
  | unknown _ hnone =>
      rw [hentry] at hnone
      cases hnone
  | rejected nodeId _ hsome hreason =>
      cases hentry.symm.trans hsome
      rcases hreason with hknown | htaken
      · -- The id was seen before: `y` is rejected, and nothing is claimed of its ring entry.
        refine ⟨hknown, fun hnew => ?_⟩
        rw [hknown] at hnew
        cases hnew
      · rw [hring] at htaken
        cases htaken
  | admitted nodeId _ hsome hid hring =>
      cases hentry.symm.trans hsome
      refine ⟨MembershipView.isIdentifierPresent_added.2 (.inl rfl), fun _ => ?_⟩
      show _ ∈ (t.view.added y id).ringZero.byHash.entries
      rw [MembershipView.ringZero_added]
      exact Ring.entry_insert hring

/-- An endpoint on ring 0 stays there while nodes with other keys are processed. -/
theorem listed_applyNodes {e : Endpoint} : ∀ {nodes : List Endpoint} {t : ServiceState},
    (∀ z ∈ nodes, t.view.ringZero.key z ≠ t.view.ringZero.key e) →
      (t.view.ringZero.key e, e) ∈ t.view.ringZero.byHash.entries →
        e ∈ (applyNodes nodes t).1.view.ringZero.ordered := by
  intro nodes
  induction nodes with
  | nil =>
      intro t _ hlisted
      exact List.mem_map_of_mem hlisted
  | cons x nodes ih =>
      intro t hkeys hlisted
      have hstep := t.applyNode_step x
      have hsame : ∀ z, (t.applyNode x).1.view.ringZero.key z = t.view.ringZero.key z := by
        intro z
        rw [Ring.key, Ring.key, seed_of_step hstep]
      refine ih ?_ ?_
      · intro z hz
        rw [hsame, hsame]
        exact hkeys z (List.mem_cons_of_mem _ hz)
      · rw [hsame]
        exact (entries_of_ne hstep (hkeys x List.mem_cons_self) e).2 hlisted

end ServiceState

end Rapid
