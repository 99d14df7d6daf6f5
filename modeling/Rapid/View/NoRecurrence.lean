import Rapid.View.RingKeys
import Rapid.Xxh64Reference

/-!
# NoRecurrence — a view never returns to an earlier configuration

A configuration is the pair of the identifiers ever seen and the ring-0 list. An accepted `ring_add`
adds an identifier, an accepted `ring_delete` keeps the identifiers and shortens the list. So the number
of identifiers, and then the length of the list downwards, orders the configurations of a run: every
accepted call moves up, every other call stays.

This holds with hash collisions as well, because both guards test exactly what the update changes.
-/

namespace Rapid

open Foundations

section

variable [Xxh64]

namespace MembershipView

/-- The identifiers and the ring-0 list. -/
def contents (v : MembershipView) : OrderedSet NodeIdKey × List Endpoint :=
  (v.identifiers, v.ringZero.ordered)

/-- More identifiers are later; with the same number of them, fewer members are later. -/
def age (v : MembershipView) : ℕ ×ₗ ℕᵒᵈ :=
  toLex (v.contents.1.length, OrderDual.toDual v.contents.2.length)

/-- The call is a `ring_add` or a `ring_delete` and is accepted. -/
def accepts (v : MembershipView) : ViewOp → Bool
  | .ringAdd endpoint id => (v.ringAdd endpoint id).2.isOk
  | .ringDelete endpoint => (v.ringDelete endpoint).2.isOk
  | .getObserversOf _ => false
  | .currentConfigurationId => false

def applyAll (v : MembershipView) (ops : List ViewOp) : MembershipView :=
  ops.foldl apply v

/-- Some call of the run is accepted. -/
def acceptsSome (v : MembershipView) : List ViewOp → Bool
  | [] => false
  | op :: ops => v.accepts op || (v.apply op).acceptsSome ops

/-! ## One call -/

variable {v : MembershipView} {op : ViewOp} {endpoint : Endpoint} {id : NodeId}

omit [Xxh64] in
theorem age_eq_of_contents {v w : MembershipView} (h : v.contents = w.contents) : v.age = w.age := by
  unfold age
  rw [h]

/-- A call that is not accepted changes nothing that counts. -/
theorem contents_of_not_accepts (h : v.accepts op = false) : (v.apply op).contents = v.contents := by
  cases op with
  | ringAdd endpoint id =>
      rcases v.ringAdd_cases endpoint id with ⟨_, _, hadd⟩ | ⟨err, hadd⟩
      · simp [accepts, hadd, Except.isOk, Except.toBool] at h
      · simp [apply, hadd]
  | ringDelete endpoint =>
      rcases v.ringDelete_cases endpoint with ⟨_, hdelete⟩ | ⟨err, hdelete⟩
      · simp [accepts, hdelete, Except.isOk, Except.toBool] at h
      · simp [apply, hdelete]
  | getObserversOf node =>
      rcases v.getObserversOf_cases node with ⟨_, hcached⟩ | hsame
      · simp [apply, hcached, contents, ringZero]
      · simp [apply, hsame]
  | currentConfigurationId =>
      rcases v.currentConfigurationId_cases with ⟨_, hfresh⟩ | ⟨_, hsame⟩
      · simp [apply, hfresh, contents, ringZero, refreshConfigurationId]
      · simp [apply, hsame]

theorem age_added (hnew : v.isIdentifierPresent id = false) : v.age < (v.added endpoint id).age := by
  refine Prod.Lex.toLex_lt_toLex.2 (Or.inl ?_)
  have hlength : (v.added endpoint id).identifiers.length = v.identifiers.length + 1 :=
    OrderedMap.length_insert_of_not_containsKey hnew
  show v.identifiers.length < (v.added endpoint id).identifiers.length
  rw [hlength]
  exact Nat.lt_succ_self _

theorem age_deleted (hring : v.ringZero.contains endpoint = true) :
    v.age < (v.deleted endpoint).age := by
  refine Prod.Lex.toLex_lt_toLex.2 (Or.inr ⟨rfl, ?_⟩)
  have hlength : (v.ringZero.remove endpoint).1.byHash.length < v.ringZero.byHash.length :=
    OrderedMap.length_remove_lt_of_containsKey hring
  refine OrderDual.toDual_lt_toDual.2 ?_
  show (v.deleted endpoint).ringZero.ordered.length < v.ringZero.ordered.length
  rw [ringZero_deleted]
  simpa [Ring.ordered, OrderedMap.values, OrderedMap.length] using hlength

/-- An accepted call leads to a later configuration. -/
theorem age_lt_of_accepts (h : v.accepts op = true) : v.age < (v.apply op).age := by
  cases op with
  | ringAdd endpoint id =>
      rcases v.ringAdd_cases endpoint id with ⟨hid, _, hadd⟩ | ⟨err, hadd⟩
      · show v.age < (v.ringAdd endpoint id).1.age
        rw [hadd]
        exact age_added hid
      · simp [accepts, hadd, Except.isOk, Except.toBool] at h
  | ringDelete endpoint =>
      rcases v.ringDelete_cases endpoint with ⟨hring, hdelete⟩ | ⟨err, hdelete⟩
      · show v.age < (v.ringDelete endpoint).1.age
        rw [hdelete]
        exact age_deleted hring
      · simp [accepts, hdelete, Except.isOk, Except.toBool] at h
  | getObserversOf node => cases h
  | currentConfigurationId => cases h

theorem age_le_apply (v : MembershipView) (op : ViewOp) : v.age ≤ (v.apply op).age := by
  cases h : v.accepts op with
  | true => exact le_of_lt (age_lt_of_accepts h)
  | false => exact le_of_eq (age_eq_of_contents (contents_of_not_accepts h).symm)

/-! ## Runs -/

theorem age_le_applyAll (ops : List ViewOp) : ∀ v : MembershipView, v.age ≤ (v.applyAll ops).age := by
  induction ops with
  | nil => exact fun v => le_refl _
  | cons op ops ih => exact fun v => le_trans (v.age_le_apply op) (ih (v.apply op))

/-- A run with an accepted call ends in a later configuration. -/
theorem age_lt_applyAll {ops : List ViewOp} (h : v.acceptsSome ops = true) :
    v.age < (v.applyAll ops).age := by
  induction ops generalizing v with
  | nil => cases h
  | cons op ops ih =>
      have hsome : v.accepts op = true ∨ (v.apply op).acceptsSome ops = true := by
        simpa [acceptsSome] using h
      rcases hsome with hfirst | hlater
      · exact lt_of_lt_of_le (age_lt_of_accepts hfirst) (age_le_applyAll ops (v.apply op))
      · exact lt_of_le_of_lt (v.age_le_apply op) (ih hlater)

theorem reaches_applyAll (ops : List ViewOp) :
    ∀ {v : MembershipView}, anyViewSystem.Reachable v → anyViewSystem.Reachable (v.applyAll ops) := by
  induction ops with
  | nil => exact fun h => h
  | cons op ops ih => exact fun h => ih (.step h trivial rfl)

omit [Xxh64] in
/-- Different contents are hashed from different lists. -/
theorem contents_eq_of_lists {v w : MembershipView} (hids : v.currentIdentifiers = w.currentIdentifiers)
    (hring : v.ringZero.ordered = w.ringZero.ordered) : v.contents = w.contents := by
  have hkeys : v.identifiers.keys = w.identifiers.keys := by
    rw [← currentIdentifiers_map, ← currentIdentifiers_map, hids]
  have hidentifiers : v.identifiers = w.identifiers := by
    refine identifiers_eq fun id => ?_
    rw [Bool.eq_iff_iff, isIdentifierPresent_iff, isIdentifierPresent_iff, hkeys]
  exact Prod.ext hidentifiers hring

end MembershipView

/-- Two points of a run with an accepted call in between have different contents; where they have the
same configuration id, two different inputs hash to it. -/
theorem configuration_never_recurs {k : UInt8} {ids : List NodeId} {endpoints : List Endpoint}
    {start : MembershipView} (hboot : MembershipView.bootstrap k ids endpoints = .ok start)
    (earlier between : List ViewOp)
    (haccepted : (start.applyAll earlier).acceptsSome between = true) :
    let v := start.applyAll earlier
    let w := v.applyAll between
    v.contents ≠ w.contents ∧
      (v.currentConfigurationId.2 = w.currentConfigurationId.2 →
        (v.currentIdentifiers, v.ringZero.ordered) ≠ (w.currentIdentifiers, w.ringZero.ordered) ∧
          configurationIdFor v.currentIdentifiers v.ringZero.ordered =
            configurationIdFor w.currentIdentifiers w.ringZero.ordered) := by
  intro v w
  -- An accepted operation increases the age, and the age is read off the contents.
  have hcontents : v.contents ≠ w.contents := by
    intro heq
    have hlater : v.age < w.age := MembershipView.age_lt_applyAll haccepted
    exact absurd hlater (by rw [MembershipView.age_eq_of_contents heq]; exact lt_irrefl _)
  have hstart : anyViewSystem.Reachable start := .start (Or.inr ⟨k, ids, endpoints, hboot⟩)
  have hv : v.WellKept := .reaches (MembershipView.reaches_applyAll earlier hstart)
  have hw : w.WellKept := .reaches
    (MembershipView.reaches_applyAll between (MembershipView.reaches_applyAll earlier hstart))
  refine ⟨hcontents, fun hid => ⟨fun hlists => ?_, ?_⟩⟩
  · rcases Prod.mk.inj hlists with ⟨hids, hring⟩
    exact hcontents (MembershipView.contents_eq_of_lists hids hring)
  · rw [hv.currentConfigurationId_eq, hw.currentConfigurationId_eq] at hid
    exact hid

end

/-! ## A member that leaves and returns -/

section Sample

attribute [local instance] xxh64Reference

def wanderer : Endpoint := ⟨[97], 1⟩

def wandererStart : Except Error MembershipView :=
  MembershipView.bootstrap 2 [⟨1, 1⟩] [wanderer]

/-- The rejected call in between uses the old identifier. -/
def leaveAndReturn : List ViewOp :=
  [.ringDelete wanderer, .ringAdd wanderer ⟨1, 1⟩, .ringAdd wanderer ⟨1, 2⟩]

theorem leaveAndReturn_new :
    ∃ start, wandererStart.toOption = some start ∧
      start.contents ≠ (start.applyAll leaveAndReturn).contents := by
  have haccepted : wandererStart.toOption.any (fun start => start.acceptsSome leaveAndReturn) = true := by
    decide +kernel
  rcases (Option.any_eq_true _ _).1 haccepted with ⟨start, hstart, hsome⟩
  exact ⟨start, hstart, (configuration_never_recurs (eq_ok_of_toOption hstart) [] _ hsome).1⟩

end Sample

end Rapid
