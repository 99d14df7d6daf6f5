import Rapid.Service.JoinResponses

/-!
# ApplyAgreement — one decision, two actors

A decided proposal has endpoints only. Whether a joiner gets in, and with which node id, depends on
the joiner table of each actor. Two actors in the same configuration agree on the next one exactly
when their tables let the same endpoints in and bring the same new identifiers.
-/

namespace Rapid

open Foundations

section ApplyAgreement

variable [Xxh64]

namespace ServiceState

/-! ## Who is a member after the loop -/

/-- The joiner table lets the endpoint in when the loop reaches it: its node id is known, new to the
view, and nobody before it brings the same one. -/
def Admits (s : ServiceState) (nodes : List Endpoint) (y : Endpoint) : Prop :=
  ∃ before after id, nodes = before ++ y :: after ∧ ¬ s.Enters before y ∧
    s.Enters (before ++ [y]) y ∧ s.joinerUuid.lookup y = some id ∧
    s.view.isIdentifierPresent id = false ∧ ∀ z, s.Enters before z → s.joinerUuid.lookup z ≠ some id

/-- The endpoint is listed once as a non-member, or twice as a member. -/
def EntersLast (s : ServiceState) (nodes : List Endpoint) (y : Endpoint) : Prop :=
  nodes.count y = (if y ∈ s.view.allNodes then 1 else 0) + 1

/-- A member that is not listed, or a joiner that is let in and not listed again. -/
def Remains (s : ServiceState) (nodes : List Endpoint) (y : Endpoint) : Prop :=
  (y ∈ s.view.allNodes ∧ nodes.count y = 0) ∨ (s.EntersLast nodes y ∧ s.Admits nodes y)

variable {s t u : ServiceState} {nodes : List Endpoint} {x y : Endpoint}
  {delta : List NodeStatusChange} {id : NodeId}

omit [Xxh64] in
theorem admits_append_of_ne (hne : x ≠ y) : s.Admits (nodes ++ [x]) y ↔ s.Admits nodes y := by
  constructor
  · rintro ⟨before, after, id, hsplit, hnot, henters, hrest⟩
    -- The last endpoint is another one, so it belongs to what comes after.
    rcases List.eq_nil_or_concat after with rfl | ⟨init, last, rfl⟩
    · have hlast : x = y := by
        have hends := congrArg List.getLast? hsplit
        simpa using hends
      exact absurd hlast hne
    · have hinit : nodes ++ [x] = (before ++ y :: init) ++ [last] := by
        simpa using hsplit
      exact ⟨before, init, id, (List.append_inj' hinit rfl).1, hnot, henters, hrest⟩
  · rintro ⟨before, after, id, rfl, hrest⟩
    exact ⟨before, after ++ [x], id, by simp, hrest⟩

omit [Xxh64] in
/-- At the occurrence where the endpoint enters, all before it counts. -/
theorem admits_append_self (hnot : ¬ s.Enters nodes y) (henters : s.Enters (nodes ++ [y]) y) :
    s.Admits (nodes ++ [y]) y ↔ ∃ id, s.joinerUuid.lookup y = some id ∧
      s.view.isIdentifierPresent id = false ∧
      ∀ z, s.Enters nodes z → s.joinerUuid.lookup z ≠ some id := by
  constructor
  · rintro ⟨before, after, id, hsplit, _, hhere, hlookup, hnew, hfirst⟩
    rcases List.eq_nil_or_concat after with rfl | ⟨init, last, rfl⟩
    · have hsame := (List.append_inj' hsplit rfl).1
      subst hsame
      exact ⟨id, hlookup, hnew, hfirst⟩
    · -- An earlier occurrence would have entered before.
      have hinit : nodes ++ [y] = ((before ++ [y]) ++ init) ++ [last] := by
        simpa using hsplit
      have hnodes := (List.append_inj' hinit rfl).1
      exact absurd (hnodes ▸ hhere.append init) hnot
  · rintro ⟨id, hrest⟩
    exact ⟨nodes, [], id, rfl, hnot, henters, hrest⟩

omit [Xxh64] in
theorem remains_append_of_ne (hne : x ≠ y) : s.Remains (nodes ++ [x]) y ↔ s.Remains nodes y := by
  have hcount : (nodes ++ [x]).count y = nodes.count y := by
    simp [List.count_append, hne]
  rw [Remains, Remains, EntersLast, EntersLast, hcount, admits_append_of_ne hne]

/-- What is known of an endpoint while the loop is at work. -/
structure Followed (s : ServiceState) (nodes : List Endpoint) (y : Endpoint) (t : ServiceState) :
    Prop where
  member : y ∈ t.view.allNodes ↔ s.Remains nodes y
  spent : s.Enters nodes y → t.joinerUuid.lookup y = none

theorem Followed.step_of_ne (h : Followed s nodes y t) (hne : x ≠ y)
    (hstep : NodeStep x t u delta) : Followed s (nodes ++ [x]) y u := by
  refine ⟨?_, ?_⟩
  · rw [mem_of_step hstep hne.symm, h.member, remains_append_of_ne hne]
  · rw [enters_append_of_ne hne]
    intro henters
    have hspent := h.spent henters
    have herased : (t.joinerUuid.erase x).lookup y = none := by
      rw [Finmap.lookup_erase_ne hne.symm]
      exact hspent
    cases hstep with
    | removed => exact hspent
    | stuck => exact hspent
    | unknown => exact hspent
    | rejected => exact herased
    | admitted => exact herased

omit [Xxh64] in
/-- A member is taken out. -/
theorem Followed.leave (h : Followed s nodes y t) (hmember : y ∈ t.view.allNodes)
    (hgone : y ∉ u.view.allNodes) (htable : u.joinerUuid = t.joinerUuid) :
    Followed s (nodes ++ [y]) y u := by
  -- `y` was a member: it has been there from the start or it entered last.
  have hremains := h.member.1 hmember
  refine ⟨iff_of_false hgone ?_, ?_⟩
  · rw [Remains, EntersLast, List.count_append, List.count_singleton_self]
    rintro (⟨_, hcount⟩ | ⟨hcount, _⟩)
    · omega
    · rcases hremains with ⟨hold, hnone⟩ | ⟨hlast, _⟩
      · rw [if_pos hold] at hcount
        omega
      · rw [EntersLast] at hlast
        omega
  · rw [enters_append_self, htable]
    intro hcount
    refine h.spent ?_
    rw [Enters]
    rcases hremains with ⟨hold, hnone⟩ | ⟨hlast, _⟩
    · rw [if_pos hold] at hcount
      omega
    · rw [EntersLast] at hlast
      omega

omit [Xxh64] in
/-- A non-member is reached: it is let in if its entry is new, and the entry is used up. -/
theorem Followed.arrive (h : Followed s nodes y t) (hprocessed : Processed s nodes t)
    (hknown : ∀ id, t.view.isIdentifierPresent id = true ↔ s.view.isIdentifierPresent id = true ∨
      ∃ z, s.Enters nodes z ∧ s.joinerUuid.lookup z = some id)
    (habsent : y ∉ t.view.allNodes) (hmember : y ∈ u.view.allNodes ↔
      ∃ id, t.joinerUuid.lookup y = some id ∧ t.view.isIdentifierPresent id = false)
    (hspent : u.joinerUuid.lookup y = none) : Followed s (nodes ++ [y]) y u := by
  refine ⟨?_, fun _ => hspent⟩
  have hcount : (nodes ++ [y]).count y = nodes.count y + 1 := by
    rw [List.count_append, List.count_singleton_self]
  have henters : s.Enters (nodes ++ [y]) y := hprocessed.enters habsent
  rw [hmember]
  by_cases hnot : s.Enters nodes y
  · -- It was reached before: its entry is gone, and it is listed too often to stay.
    have hnone := h.spent hnot
    refine iff_of_false ?_ ?_
    · rintro ⟨id, hlookup, _⟩
      rw [hnone] at hlookup
      cases hlookup
    · rw [Enters] at hnot
      rw [Remains, EntersLast, hcount]
      rintro (⟨_, hzero⟩ | ⟨hlast, _⟩)
      · omega
      · omega
  · -- This is the occurrence at which it may enter.
    have hlast : s.EntersLast (nodes ++ [y]) y := by
      rw [enters_append_self] at henters
      rw [Enters] at hnot
      rw [EntersLast, hcount]
      omega
    rw [Remains, hcount, admits_append_self hnot henters, hprocessed.waiting y hnot]
    have hnew : ∀ id, t.view.isIdentifierPresent id = false ↔
        s.view.isIdentifierPresent id = false ∧
          ∀ z, s.Enters nodes z → s.joinerUuid.lookup z ≠ some id := by
      intro id
      rw [← Bool.not_eq_true, hknown id, not_or, Bool.not_eq_true, not_exists]
      simp only [not_and]
    simp only [hnew]
    constructor
    · exact fun hentry => .inr ⟨hlast, hentry⟩
    · rintro (⟨_, hzero⟩ | ⟨_, hentry⟩)
      · omega
      · exact hentry

/-- The identifiers after the loop are the old ones and those of all who were reached. -/
theorem isIdentifierPresent_applyNodes (halone : ∀ z ∈ nodes, s.Alone nodes z) :
    (applyNodes nodes s).1.view.isIdentifierPresent id = true ↔
      s.view.isIdentifierPresent id = true ∨
        ∃ z, s.Enters nodes z ∧ s.joinerUuid.lookup z = some id := by
  have hprocessed := applyNodes_processed s nodes
  refine ⟨hprocessed.known id, ?_⟩
  rintro (hold | ⟨z, henters, hlookup⟩)
  · exact hprocessed.kept id hold
  · have hlisted : z ∈ nodes := List.count_pos_iff.1 (Nat.zero_lt_of_lt henters)
    exact (halone z hlisted).brings henters hlookup

theorem Alone.followed (h : s.Alone nodes y) (halone : ∀ z ∈ nodes, s.Alone nodes z) :
    Followed s nodes y (applyNodes nodes s).1 := by
  induction nodes using List.reverseRecOn with
  | nil =>
      refine ⟨?_, fun henters => absurd henters (Nat.not_lt_zero _)⟩
      simp [applyNodes, Remains, EntersLast]
  | append_singleton nodes x ih =>
      have halone' : ∀ z ∈ nodes, s.Alone nodes z :=
        fun z hz => (halone z (List.mem_append_left _ hz)).of_append
      have hfollowed := ih h.of_append halone'
      have hprocessed := applyNodes_processed s nodes
      have hring := h.of_append.tracked.onRing
      -- The ids seen so far are those of the nodes that entered.
      have hknown : ∀ id, (applyNodes nodes s).1.view.isIdentifierPresent id = true ↔
          s.view.isIdentifierPresent id = true ∨
            ∃ z, s.Enters nodes z ∧ s.joinerUuid.lookup z = some id :=
        fun id => isIdentifierPresent_applyNodes halone'
      rw [applyNodes_append]
      have hstep : ∃ delta, NodeStep x (applyNodes nodes s).1
          (applyNodes [x] (applyNodes nodes s).1).1 delta := ⟨_, applyNode_step _ x⟩
      generalize (applyNodes nodes s).1 = t at *
      generalize (applyNodes [x] t).1 = u at *
      rcases hstep with ⟨delta, hstep⟩
      by_cases hxy : x = y
      · subst hxy
        cases hstep with
        | removed hmember => exact hfollowed.leave hmember (Finset.notMem_erase _ _) rfl
        | stuck hmember hoff =>
            rw [hring.1 hmember] at hoff
            cases hoff
        | unknown habsent hlookup =>
            refine hfollowed.arrive hprocessed hknown habsent (iff_of_false habsent ?_) hlookup
            rintro ⟨id, hentry, _⟩
            rw [hlookup] at hentry
            cases hentry
        | rejected nodeId habsent hlookup hreason =>
            refine hfollowed.arrive hprocessed hknown habsent (iff_of_false habsent ?_)
              (Finmap.lookup_erase _ _)
            rintro ⟨id, hentry, hnew⟩
            cases hlookup.symm.trans hentry
            -- A rejected id was seen before, for the ring has no entry of `y`.
            rcases hreason with hpresent | htaken
            · rw [hpresent] at hnew
              cases hnew
            · exact habsent (hring.2 htaken)
        | admitted nodeId habsent hlookup hnew =>
            have hin : x ∈ (t.view.added x nodeId).allNodes := Finset.mem_insert_self _ _
            exact hfollowed.arrive hprocessed hknown habsent
              (iff_of_true hin ⟨nodeId, hlookup, hnew⟩) (Finmap.lookup_erase _ _)
      · -- Another endpoint leaves the fate of `y` as it is.
        exact hfollowed.step_of_ne hxy hstep

theorem mem_applyNodes_iff (halone : ∀ z ∈ nodes, s.Alone nodes z) :
    y ∈ (applyNodes nodes s).1.view.allNodes ↔ s.Remains nodes y := by
  by_cases hlisted : y ∈ nodes
  · exact ((halone y hlisted).followed halone).member
  · have hnone : nodes.count y = 0 := List.count_eq_zero.2 hlisted
    rw [(applyNodes_processed s nodes).outside y hlisted, Remains, EntersLast, hnone]
    simp

theorem alone_of_valid (hvalid : s.view.Valid)
    (hfree : CollisionFree s.view.k (s.view.allNodes ∪ nodes.toFinset)) :
    ∀ z ∈ nodes, s.Alone nodes z := by
  intro z hz
  have hlisted : ∀ {e}, e ∈ nodes → e ∈ s.view.allNodes ∪ nodes.toFinset :=
    fun he => Finset.mem_union_right _ (List.mem_toFinset.2 he)
  have hinsert : insert z s.view.allNodes ⊆ s.view.allNodes ∪ nodes.toFinset :=
    Finset.insert_subset (hlisted hz) Finset.subset_union_left
  refine ⟨(hvalid.contains_ringZero (hfree.subset hinsert)).symm, ?_⟩
  intro z' hz' hne hkey
  exact hne (hvalid.injOn hfree MembershipView.ringZero_mem (hlisted hz') (hlisted hz) hkey)

/-! ## Two actors -/

/-- Both tables let the same endpoints in for good, and those who are reached bring the same new
identifiers. -/
structure SameJoiners (s s' : ServiceState) (proposal : List Endpoint) : Prop where
  admits : ∀ y, s.EntersLast proposal y → (s.Admits proposal y ↔ s'.Admits proposal y)
  brings : ∀ id, s.view.isIdentifierPresent id = false →
    ((∃ y, s.Enters proposal y ∧ s.joinerUuid.lookup y = some id) ↔
      ∃ y, s'.Enters proposal y ∧ s'.joinerUuid.lookup y = some id)

end ServiceState

namespace MembershipView

/-- The same number of rings, the same identifiers and the same members. -/
structure SameSets (v w : MembershipView) : Prop where
  k : w.k = v.k
  identifiers : ∀ id, w.isIdentifierPresent id = v.isIdentifierPresent id
  allNodes : w.allNodes = v.allNodes

structure Agree (v w : MembershipView) : Prop where
  identifiers : w.identifiers = v.identifiers
  rings : w.rings = v.rings
  configurationId : w.currentConfigurationId.2 = v.currentConfigurationId.2

variable {v w u : MembershipView}

omit [Xxh64] in
theorem isIdentifierPresent_congr (h : w.identifiers = v.identifiers) (id : NodeId) :
    w.isIdentifierPresent id = v.isIdentifierPresent id := by
  rw [isIdentifierPresent, isIdentifierPresent, h]

/-- Valid views agree when they have the same sets, and only then. -/
theorem Valid.agree_iff (hv : v.Valid) (hw : w.Valid) (hk : w.k = v.k) :
    v.Agree w ↔ v.SameSets w := by
  constructor
  · intro h
    refine ⟨hk, isIdentifierPresent_congr h.identifiers, ?_⟩
    ext e
    rw [← (hw.holds _ ringZero_mem).mem_ordered, ← (hv.holds _ ringZero_mem).mem_ordered,
      ringZero_eq h.rings]
  · intro h
    have hrings := hw.rings_eq hv hk h.allNodes
    have hidentifiers := identifiers_eq h.identifiers
    exact ⟨hidentifiers, hrings, hw.currentConfigurationId_congr hv hrings hidentifiers⟩

end MembershipView

namespace ServiceState

variable {s s' : ServiceState} {proposal : List Endpoint}

theorem applied_valid (hvalid : s.view.Valid)
    (hfree : CollisionFree s.view.k (s.view.allNodes ∪ proposal.toFinset)) :
    (s.appliedTo proposal).1.view.Valid ∧ (s.appliedTo proposal).1.view.k = s.view.k :=
  (applyNodes_steps proposal s.cancelFailureDetectors.1).valid hvalid hfree

/-- The loop leads to the same sets exactly when the tables have the same joiners for it. -/
theorem sameSets_applied_iff (hvalid : s.view.Valid) (hvalid' : s'.view.Valid)
    (hsame : s.view.SameSets s'.view)
    (hfree : CollisionFree s.view.k (s.view.allNodes ∪ proposal.toFinset)) :
    (s.appliedTo proposal).1.view.SameSets (s'.appliedTo proposal).1.view ↔
      s.SameJoiners s' proposal := by
  have hfree' : CollisionFree s'.view.k (s'.view.allNodes ∪ proposal.toFinset) := by
    rw [hsame.k, hsame.allNodes]
    exact hfree
  have hk : (s'.appliedTo proposal).1.view.k = (s.appliedTo proposal).1.view.k := by
    rw [(applied_valid hvalid hfree).2, (applied_valid hvalid' hfree').2, hsame.k]
  -- Without collisions each endpoint is processed as if it were alone in the proposal.
  have halone := alone_of_valid (s := s.cancelFailureDetectors.1) hvalid hfree
  have halone' := alone_of_valid (s := s'.cancelFailureDetectors.1) hvalid' hfree'
  have hmember : ∀ y, y ∈ (s.appliedTo proposal).1.view.allNodes ↔ s.Remains proposal y :=
    fun y => mem_applyNodes_iff halone
  have hmember' : ∀ y, y ∈ (s'.appliedTo proposal).1.view.allNodes ↔ s'.Remains proposal y :=
    fun y => mem_applyNodes_iff halone'
  have hknown : ∀ id, (s.appliedTo proposal).1.view.isIdentifierPresent id = true ↔
      s.view.isIdentifierPresent id = true ∨
        ∃ z, s.Enters proposal z ∧ s.joinerUuid.lookup z = some id :=
    fun id => isIdentifierPresent_applyNodes halone
  have hknown' : ∀ id, (s'.appliedTo proposal).1.view.isIdentifierPresent id = true ↔
      s'.view.isIdentifierPresent id = true ∨
        ∃ z, s'.Enters proposal z ∧ s'.joinerUuid.lookup z = some id :=
    fun id => isIdentifierPresent_applyNodes halone'
  have hlast : ∀ y, s'.EntersLast proposal y ↔ s.EntersLast proposal y := by
    intro y
    rw [EntersLast, EntersLast, hsame.allNodes]
  constructor
  · intro hsets
    refine ⟨?_, ?_⟩
    · intro y hy
      -- An endpoint that enters last is a member afterwards exactly if it is admitted.
      have hremains : s'.Remains proposal y ↔ s.Remains proposal y := by
        rw [← hmember, ← hmember', hsets.allNodes]
      have hlisted : proposal.count y ≠ 0 := by
        rw [EntersLast] at hy
        omega
      simp only [Remains, hlisted, and_false, false_or, hlast, hy, true_and] at hremains
      exact hremains.symm
    · intro id hnew
      have hids := hsets.identifiers id
      rw [Bool.eq_iff_iff, hknown, hknown', hsame.identifiers, hnew] at hids
      simpa using hids.symm
  · intro hjoiners
    refine ⟨hk, ?_, ?_⟩
    · intro id
      rw [Bool.eq_iff_iff, hknown, hknown', hsame.identifiers]
      cases hnew : s.view.isIdentifierPresent id with
      | true => simp
      | false => simpa using (hjoiners.brings id hnew).symm
    · ext y
      rw [hmember, hmember', Remains, Remains, hlast, hsame.allNodes]
      refine or_congr_right ?_
      exact and_congr_right fun hy => (hjoiners.admits y hy).symm

omit [Xxh64] in
/-- Joiner tables that agree on the proposal have the same joiners for it. -/
theorem SameJoiners.of_lookup (hsame : s.view.SameSets s'.view)
    (hlookup : ∀ y ∈ proposal, s'.joinerUuid.lookup y = s.joinerUuid.lookup y) :
    s.SameJoiners s' proposal := by
  have henters : ∀ nodes y, s'.Enters nodes y ↔ s.Enters nodes y := by
    intro nodes y
    rw [Enters, Enters, hsame.allNodes]
  -- Only nodes of the proposal are looked up.
  have hlisted : ∀ {nodes : List Endpoint} {y : Endpoint}, s.Enters nodes y → y ∈ nodes :=
    fun h => List.count_pos_iff.1 (Nat.zero_lt_of_lt h)
  refine ⟨?_, ?_⟩
  · intro y _
    refine exists_congr fun before => exists_congr fun after => exists_congr fun id =>
      and_congr_right fun hsplit => ?_
    have hy : y ∈ proposal := by
      rw [hsplit]
      exact List.mem_append_right _ List.mem_cons_self
    have hbefore : ∀ z, s.Enters before z → z ∈ proposal := by
      intro z hz
      rw [hsplit]
      exact List.mem_append_left _ (hlisted hz)
    rw [henters, henters, hlookup y hy, hsame.identifiers]
    refine and_congr_right fun _ => and_congr_right fun _ => and_congr_right fun _ =>
      and_congr_right fun _ => forall_congr' fun z => ?_
    rw [henters]
    exact forall_congr' fun hz => by rw [hlookup z (hbefore z hz)]
  · intro id _
    refine exists_congr fun y => ?_
    rw [henters]
    exact and_congr_right fun hy => by rw [hlookup y (hlisted hy)]

end ServiceState

/-! ## Decisions of two runs -/

section Runs

variable {s s' : ServiceState} {proposal : List Endpoint}

/-- Views that are shown alike agree alike. -/
theorem MembershipView.Shows.agree_iff {v v' w w' u u' : MembershipView} (hv : v.Shows u)
    (hw : w.Shows u) (hv' : v'.Shows u') (hw' : w'.Shows u') : w.Agree w' ↔ v.Agree v' := by
  have hids : w.identifiers = v.identifiers := hw.identifiers.symm.trans hv.identifiers
  have hids' : w'.identifiers = v'.identifiers := hw'.identifiers.symm.trans hv'.identifiers
  have hrings : w.rings = v.rings := hw.rings.symm.trans hv.rings
  have hrings' : w'.rings = v'.rings := hw'.rings.symm.trans hv'.rings
  have hconfiguration := hw.configurationId.symm.trans hv.configurationId
  have hconfiguration' := hw'.configurationId.symm.trans hv'.configurationId
  constructor
  · rintro ⟨h₁, h₂, h₃⟩
    rw [hids, hids'] at h₁
    rw [hrings, hrings'] at h₂
    rw [hconfiguration, hconfiguration'] at h₃
    exact ⟨h₁, h₂, h₃⟩
  · rintro ⟨h₁, h₂, h₃⟩
    refine ⟨?_, ?_, ?_⟩
    · rw [hids, hids', h₁]
    · rw [hrings, hrings', h₂]
    · rw [hconfiguration, hconfiguration', h₃]

/-- Two actors that decide on the same proposal in the same configuration end with equal views
exactly when their joiner tables have the same joiners for it. -/
theorem viewAgreement_iff {run run' : ServiceRun} (hrun : serviceSystem.Reaches MembersApart run)
    (hrun' : serviceSystem.Reaches MembersApart run')
    (hcall : .call (.decideViewChange s proposal) ∈ run.trace)
    (hcall' : .call (.decideViewChange s' proposal) ∈ run'.trace)
    (hsame : s.view.SameSets s'.view)
    (hfree : CollisionFree s.view.k (s.view.allNodes ∪ proposal.toFinset)) (env env' : Environment) :
    (s.decideViewChange env proposal).1.view.Agree (s'.decideViewChange env' proposal).1.view ↔
      s.SameJoiners s' proposal := by
  have hfree' : CollisionFree s'.view.k (s'.view.allNodes ∪ proposal.toFinset) := by
    rw [hsame.k, hsame.allNodes]
    exact hfree
  -- The states before the decisions were reached in runs without collisions.
  have hvalid : s.view.Valid :=
    (sound_reaches hrun).2 s proposal hcall (hfree.subset Finset.subset_union_left)
  have hvalid' : s'.view.Valid :=
    (sound_reaches hrun').2 s' proposal hcall' (hfree'.subset Finset.subset_union_left)
  rcases ServiceState.applied_valid hvalid hfree with ⟨happlied, hk⟩
  rcases ServiceState.applied_valid hvalid' hfree' with ⟨happlied', hk'⟩
  rcases s.decideViewChange_shows env proposal with ⟨u, hv, hw⟩
  rcases s'.decideViewChange_shows env' proposal with ⟨u', hv', hw'⟩
  calc (s.decideViewChange env proposal).1.view.Agree (s'.decideViewChange env' proposal).1.view
      ↔ (s.appliedTo proposal).1.view.Agree (s'.appliedTo proposal).1.view :=
        hv.agree_iff hw hv' hw'
    _ ↔ (s.appliedTo proposal).1.view.SameSets (s'.appliedTo proposal).1.view :=
        happlied.agree_iff happlied' (hk'.trans (hsame.k.trans hk.symm))
    _ ↔ s.SameJoiners s' proposal :=
        ServiceState.sameSets_applied_iff hvalid hvalid' hsame hfree

end Runs

end ApplyAgreement

/-! ### Three actors that decide to let `hostBelow` in -/

section Sample

attribute [local instance] xxh64Reference

/-- A run of the actor of `own` in the cluster of `hostA`, `hostB` and `hostC`. -/
def actorRun (own : Endpoint) (commands : ServiceState → List ServiceCommand) : Option ServiceRun :=
  (ServiceState.join { Settings.default with k := 3, h := 3, l := 1 } own default
    { sender := none
      statusCode := JoinStatusCode.safeToJoin.toInt32
      configurationId := 0
      endpoints := [hostA, hostB, hostC]
      identifiers := [⟨1, 1⟩]
      metadataKeys := []
      metadataValues := [] }).toOption.bind fun outcome =>
    serviceSystem.execWhile MembersApart ⟨outcome.1, outcome.2, [], false⟩
      ((commands outcome.1).map fun cmd => (ServiceState.sampleEnvironment, cmd))

theorem actorRun_reaches {own : Endpoint} {commands : ServiceState → List ServiceCommand}
    {run : ServiceRun} (hrun : actorRun own commands = some run) :
    serviceSystem.Reaches MembersApart run := by
  rcases Option.bind_eq_some_iff.1 hrun with ⟨outcome, houtcome, hexec⟩
  have hboots : Boots outcome := .inr ⟨_, _, _, _, eq_ok_of_toOption houtcome⟩
  have hstart : serviceSystem.Reaches MembersApart ⟨outcome.1, outcome.2, [], false⟩ :=
    .start ⟨outcome, hboots, rfl⟩
  exact hstart.execWhile hexec

/-- The actor of `hostA` hears the alerts about the joiner. -/
def alertedRun : Option ServiceRun :=
  actorRun hostA fun state =>
    [.request (sampleAlerts state .up hostBelow (some ⟨4, 4⟩)) 0,
      .request (sampleAccept state hostB [hostBelow]) 1,
      .request (sampleAccept state hostC [hostBelow]) 2]

/-- The actor of `hostB` is asked by the joiner and hears no alert. -/
def askedRun : Option ServiceRun :=
  actorRun hostB fun state =>
    [.request ⟨some (.joinMessage (joinRequest state hostBelow ⟨4, 4⟩))⟩ 0,
      .request (sampleAccept state hostA [hostBelow]) 1,
      .request (sampleAccept state hostC [hostBelow]) 2]

/-- The actor of `hostB` knows nothing of the joiner. -/
def deafRun : Option ServiceRun :=
  actorRun hostB fun state =>
    [.request (sampleAccept state hostA [hostBelow]) 1,
      .request (sampleAccept state hostC [hostBelow]) 2]

/-- One decision, to let `hostBelow` in, with this entry for it; it leads to `size` members. -/
def decidesOnce (entry : Option NodeId) (size : Nat) (run : ServiceRun) : Bool :=
  match run.trace.filterMap Effect.decision? with
  | [(s, proposal)] => decide (proposal = [hostBelow] ∧ s.view.k = 3 ∧
      s.view.identifiers = OrderedMap.empty.insert (.ofNodeId ⟨1, 1⟩) () ∧
      s.view.allNodes = {hostA, hostB, hostC} ∧ s.joinerUuid.lookup hostBelow = entry ∧
      (s.decideViewChange ServiceState.sampleEnvironment proposal).1.view.membershipSize = size)
  | _ => false

theorem decidesOnce_runs :
    alertedRun.map (decidesOnce (some ⟨4, 4⟩) 4) = some true ∧
      askedRun.map (decidesOnce (some ⟨4, 4⟩) 4) = some true ∧
      deafRun.map (decidesOnce none 3) = some true := by
  refine ⟨?_, ?_, ?_⟩
  · decide +kernel
  · decide +kernel
  · decide +kernel

theorem decidesOnce_spec {run : ServiceRun} {entry : Option NodeId} {size : Nat}
    (h : decidesOnce entry size run = true) :
    ∃ s : ServiceState, .call (.decideViewChange s [hostBelow]) ∈ run.trace ∧ s.view.k = 3 ∧
      s.view.identifiers = OrderedMap.empty.insert (.ofNodeId ⟨1, 1⟩) () ∧
      s.view.allNodes = {hostA, hostB, hostC} ∧ s.joinerUuid.lookup hostBelow = entry ∧
      (s.decideViewChange ServiceState.sampleEnvironment [hostBelow]).1.view.membershipSize =
        size := by
  unfold decidesOnce at h
  split at h
  · rename_i s proposal hd
    rcases of_decide_eq_true h with ⟨rfl, hk, hids, hnodes, hentry, hsize⟩
    exact ⟨s, mem_decisions.1 (hd ▸ List.mem_singleton_self _), hk, hids, hnodes, hentry, hsize⟩
  · cases h

theorem sample_free {s : ServiceState} (hk : s.view.k = 3)
    (hnodes : s.view.allNodes = {hostA, hostB, hostC}) :
    CollisionFree s.view.k (s.view.allNodes ∪ [hostBelow].toFinset) := by
  rw [hk, hnodes]
  decide +kernel

/-- Two of the actors apply the same decision in the same configuration, and end with three and with
four members. -/
theorem deafRun_disagrees :
    ∃ (run run' : ServiceRun) (s s' : ServiceState), alertedRun = some run ∧ deafRun = some run' ∧
      serviceSystem.Reaches MembersApart run ∧ serviceSystem.Reaches MembersApart run' ∧
      .call (.decideViewChange s [hostBelow]) ∈ run.trace ∧
      .call (.decideViewChange s' [hostBelow]) ∈ run'.trace ∧ s.view.SameSets s'.view ∧
      CollisionFree s.view.k (s.view.allNodes ∪ [hostBelow].toFinset) ∧
      ¬ (s.decideViewChange ServiceState.sampleEnvironment [hostBelow]).1.view.Agree
        (s'.decideViewChange ServiceState.sampleEnvironment [hostBelow]).1.view := by
  rcases decidesOnce_runs with ⟨halerted, _, hdeaf⟩
  rcases Option.map_eq_some_iff.1 halerted with ⟨run, hrun, honce⟩
  rcases Option.map_eq_some_iff.1 hdeaf with ⟨run', hrun', honce'⟩
  rcases decidesOnce_spec honce with ⟨s, hcall, hk, hids, hnodes, _, hsize⟩
  rcases decidesOnce_spec honce' with ⟨s', hcall', hk', hids', hnodes', _, hsize'⟩
  have hsame : s.view.SameSets s'.view :=
    ⟨hk'.trans hk.symm, MembershipView.isIdentifierPresent_congr (hids'.trans hids.symm),
      hnodes'.trans hnodes.symm⟩
  refine ⟨run, run', s, s', hrun, hrun', actorRun_reaches hrun, actorRun_reaches hrun', hcall,
    hcall', hsame, sample_free hk hnodes, fun hagree => ?_⟩
  -- Agreeing views would have the same number of members.
  have hsizes := congrArg Ring.len (MembershipView.ringZero_eq hagree.rings)
  rw [MembershipView.membershipSize] at hsize hsize'
  rw [hsize, hsize'] at hsizes
  cases hsizes

/-- The joiner is known to the one actor from alerts and to the other from its own message. -/
theorem askedRun_agrees :
    ∃ (run run' : ServiceRun) (s s' : ServiceState), alertedRun = some run ∧
      askedRun = some run' ∧ .call (.decideViewChange s [hostBelow]) ∈ run.trace ∧
      .call (.decideViewChange s' [hostBelow]) ∈ run'.trace ∧
      (s.decideViewChange ServiceState.sampleEnvironment [hostBelow]).1.view.Agree
        (s'.decideViewChange ServiceState.sampleEnvironment [hostBelow]).1.view := by
  rcases decidesOnce_runs with ⟨halerted, hasked, _⟩
  rcases Option.map_eq_some_iff.1 halerted with ⟨run, hrun, honce⟩
  rcases Option.map_eq_some_iff.1 hasked with ⟨run', hrun', honce'⟩
  rcases decidesOnce_spec honce with ⟨s, hcall, hk, hids, hnodes, hentry, _⟩
  rcases decidesOnce_spec honce' with ⟨s', hcall', hk', hids', hnodes', hentry', _⟩
  have hsame : s.view.SameSets s'.view :=
    ⟨hk'.trans hk.symm, MembershipView.isIdentifierPresent_congr (hids'.trans hids.symm),
      hnodes'.trans hnodes.symm⟩
  refine ⟨run, run', s, s', hrun, hrun', hcall, hcall', ?_⟩
  refine (viewAgreement_iff (actorRun_reaches hrun) (actorRun_reaches hrun') hcall hcall' hsame
    (sample_free hk hnodes) _ _).2 ?_
  refine ServiceState.SameJoiners.of_lookup hsame fun y hy => ?_
  cases List.mem_singleton.1 hy
  exact hentry'.trans hentry.symm

end Sample

end Rapid
