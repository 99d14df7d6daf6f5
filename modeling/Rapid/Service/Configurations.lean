import Rapid.Service.ViewDelta
import Mathlib.Data.Prod.Lex
import Mathlib.Order.OrderDual

/-!
# Configurations — how an actor moves on

A configuration is the set of identifiers seen and the set of members. Identifiers are never
forgotten, and an endpoint can only enter with a new one: while the identifiers stay the same,
members only leave. So the configurations of an actor are ordered, and it never comes back to one
that it has left.
-/

namespace Rapid

open Foundations

variable [Xxh64]

/-- The identifiers grow, or they stay and the members become fewer. -/
abbrev Configuration := Finset NodeIdKey ×ₗ (Finset Endpoint)ᵒᵈ

namespace MembershipView

variable {v w : MembershipView} {e : Endpoint} {id : NodeId}

def configuration (v : MembershipView) : Configuration :=
  toLex (v.identifiers.keys.toFinset, OrderDual.toDual v.allNodes)

omit [Xxh64] in
theorem configuration_eq_iff : v.configuration = w.configuration ↔
    v.identifiers.keys.toFinset = w.identifiers.keys.toFinset ∧ v.allNodes = w.allNodes := by
  rw [configuration, configuration, toLex_inj, Prod.mk.injEq, OrderDual.toDual_inj]

theorem Keeps.configuration (h : v.Keeps w) : w.configuration = v.configuration := by
  rw [MembershipView.configuration, h.identifiers, h.allNodes]
  rfl

theorem configuration_deleted (he : e ∈ v.allNodes) :
    v.configuration < (v.deleted e).configuration := by
  refine Prod.Lex.toLex_lt_toLex.2 (.inr ⟨rfl, ?_⟩)
  exact OrderDual.toDual_lt_toDual.2 (Finset.erase_ssubset he)

theorem configuration_added (hid : v.isIdentifierPresent id = false) :
    v.configuration < (v.added e id).configuration := by
  have hkeys : (v.added e id).identifiers.keys.toFinset =
      insert (.ofNodeId id) v.identifiers.keys.toFinset := by
    ext key
    simp only [Finset.mem_insert, List.mem_toFinset]
    exact mem_keys_addIdentifier
  have hnew : NodeIdKey.ofNodeId id ∉ v.identifiers.keys.toFinset := by
    intro hmem
    rw [isIdentifierPresent_iff.2 (List.mem_toFinset.1 hmem)] at hid
    cases hid
  refine Prod.Lex.toLex_lt_toLex.2 (.inl ?_)
  show v.identifiers.keys.toFinset < (v.added e id).identifiers.keys.toFinset
  rw [hkeys]
  exact Finset.ssubset_insert hnew

end MembershipView

/-! ## What moves the actor on -/

namespace ServiceState

/-- The loop of `decide_view_change` takes the node out or lets it in. -/
def affects (s : ServiceState) (node : Endpoint) : Bool :=
  if s.view.isHostPresent node then s.view.ringZero.contains node
  else (s.joinerUuid.lookup node).any fun id =>
    !s.view.isIdentifierPresent id && !s.view.ringZero.contains node

variable {s s' : ServiceState} {node : Endpoint}

theorem affects_member (h : node ∈ s.view.allNodes) :
    s.affects node = s.view.ringZero.contains node :=
  if_pos (decide_eq_true h)

theorem affects_joiner (h : node ∉ s.view.allNodes) :
    s.affects node = (s.joinerUuid.lookup node).any fun id =>
      !s.view.isIdentifierPresent id && !s.view.ringZero.contains node :=
  if_neg fun hpresent => h (of_decide_eq_true hpresent)

/-- The proposal changes nothing. -/
def Idle (s : ServiceState) (proposal : List Endpoint) : Prop :=
  ∀ node ∈ proposal, s.affects node = false

instance (s : ServiceState) (proposal : List Endpoint) : Decidable (s.Idle proposal) :=
  inferInstanceAs (Decidable (∀ node ∈ proposal, _))

end ServiceState

variable {s s' : ServiceState} {node : Endpoint} {delta : List NodeStatusChange}
  {proposal : List Endpoint}

theorem NodeStep.moves (h : NodeStep node s s' delta) (haffects : s.affects node = true) :
    s.view.configuration < s'.view.configuration := by
  cases h with
  | removed hmember => exact MembershipView.configuration_deleted hmember
  | stuck hmember hmissing =>
      rw [ServiceState.affects_member hmember, hmissing] at haffects
      cases haffects
  | unknown habsent hlookup =>
      rw [ServiceState.affects_joiner habsent, hlookup] at haffects
      cases haffects
  | rejected nodeId habsent hlookup hreason =>
      rw [ServiceState.affects_joiner habsent, hlookup] at haffects
      rcases hreason with hid | hring
      · simp [hid] at haffects
      · simp [hring] at haffects
  | admitted nodeId _ _ hid => exact MembershipView.configuration_added hid

/-- A node that is neither taken out nor let in leaves everything to the other nodes. -/
theorem NodeStep.stays (h : NodeStep node s s' delta) (haffects : s.affects node = false) :
    s'.view = s.view ∧ (∀ x, s'.affects x = s.affects x) ∧
      (s.Consistent → s'.metadata = s.metadata ∧ delta = []) := by
  cases h with
  | removed hmember hring =>
      rw [ServiceState.affects_member hmember, hring] at haffects
      cases haffects
  | stuck hmember hmissing =>
      refine ⟨rfl, fun _ => rfl, fun hs => ?_⟩
      have hcontains := (hs.ring.contains_iff (hs.ring.injOn (.inl hmember))).2 hmember
      rw [hmissing] at hcontains
      cases hcontains
  | unknown => exact ⟨rfl, fun _ => rfl, fun _ => ⟨rfl, rfl⟩⟩
  | rejected nodeId habsent =>
      refine ⟨rfl, ?_, fun _ => ⟨rfl, rfl⟩⟩
      intro x
      by_cases hx : x = node
      · subst hx
        -- The joiner that was rejected is forgotten, so it affects nothing from now on.
        have hgone : (s.joinerUuid.erase x).lookup x = none :=
          Finmap.lookup_erase x _
        rw [haffects]
        simp only [ServiceState.affects, MembershipView.isHostPresent, habsent, decide_false, hgone]
        rfl
      · simp only [ServiceState.affects, Finmap.lookup_erase_ne hx]
  | admitted nodeId habsent hlookup hid hring =>
      rw [ServiceState.affects_joiner habsent, hlookup] at haffects
      simp [hid, hring] at haffects

theorem NodeStep.configuration_le (h : NodeStep node s s' delta) :
    s.view.configuration ≤ s'.view.configuration := by
  cases haffects : s.affects node with
  | true => exact (h.moves haffects).le
  | false => rw [(h.stays haffects).1]

/-! ## Proposals -/

theorem NodeSteps.configuration_le (h : NodeSteps proposal s s' delta) :
    s.view.configuration ≤ s'.view.configuration := by
  induction h with
  | nil s => exact le_rfl
  | cons hstep _ ih => exact hstep.configuration_le.trans ih

/-- A proposal with a node to take out or to let in moves the actor on. -/
theorem NodeSteps.moves (h : NodeSteps proposal s s' delta) (hmoves : ¬ s.Idle proposal) :
    s.view.configuration < s'.view.configuration := by
  induction h with
  | nil s => exact absurd (fun node hnode => by cases hnode) hmoves
  | @cons node nodes s t u first rest hstep hsteps ih =>
      cases haffects : s.affects node with
      | true => exact (hstep.moves haffects).trans_le hsteps.configuration_le
      | false =>
          rcases hstep.stays haffects with ⟨hview, hsame, _⟩
          -- Another node of the proposal moves the actor, from the same view.
          have hrest : ¬ t.Idle nodes := by
            intro hidle
            refine hmoves ?_
            intro x hx
            rcases List.mem_cons.1 hx with rfl | hx
            · exact haffects
            · rw [← hsame x]
              exact hidle x hx
          rw [← hview]
          exact ih hrest

theorem NodeSteps.stays (h : NodeSteps proposal s s' delta) (hidle : s.Idle proposal) :
    s'.view = s.view ∧ (s.Consistent → s'.metadata = s.metadata ∧ delta = []) := by
  induction h with
  | nil s => exact ⟨rfl, fun _ => ⟨rfl, rfl⟩⟩
  | @cons node nodes s t u first rest hstep hsteps ih =>
      rcases hstep.stays (hidle node List.mem_cons_self) with ⟨hview, hsame, hfirst⟩
      have hrest : t.Idle nodes := by
        intro x hx
        rw [hsame x]
        exact hidle x (List.mem_cons_of_mem _ hx)
      rcases ih hrest with ⟨hview', hlast⟩
      refine ⟨hview'.trans hview, ?_⟩
      intro hs
      rcases hfirst hs with ⟨hmetadata, rfl⟩
      rcases hlast (hstep.consistent hs).1 with ⟨hmetadata', rfl⟩
      exact ⟨hmetadata'.trans hmetadata, rfl⟩

namespace ServiceState

variable (s : ServiceState) (proposal : List Endpoint)

theorem appliedTo_steps :
    NodeSteps proposal s.cancelFailureDetectors.1 (s.appliedTo proposal).1
      (s.appliedTo proposal).2 :=
  applyNodes_steps proposal _

/-- A proposal takes the actor to a later configuration exactly when it is not idle. -/
theorem configuration_appliedTo :
    (¬ s.Idle proposal → s.view.configuration < (s.appliedTo proposal).1.view.configuration) ∧
      (s.Idle proposal → (s.appliedTo proposal).1.view = s.view) :=
  ⟨(s.appliedTo_steps proposal).moves, fun hidle => ((s.appliedTo_steps proposal).stays hidle).1⟩

theorem configuration_decide (env : Environment) :
    (s.decideAndReplace env proposal).1.view.configuration =
      (s.appliedTo proposal).1.view.configuration :=
  (s.decideViewChange_decided env proposal).view.keeps.configuration

end ServiceState

end Rapid
