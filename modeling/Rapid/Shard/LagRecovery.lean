import Rapid.Shard.ShardDirectory

/-!
# LagRecovery — the forwarder of a directory that lags behind

The broadcast channel retains the last 64 events. A receiver that has fallen behind further is told
so and goes on with the oldest event that is left, while the directory is rebuilt from a new
snapshot. The events between the two views are then folded on top of the newer one. The directory
is right at every moment as long as each event it folds starts or ends in the view that it reports,
and nothing is decided while the snapshot is under way (`lagRecovery_faithful`).
-/

namespace Rapid

open Foundations

/-! ## Folding again -/

theorem metadata_fold_of_unmentioned {e : Endpoint} {delta : List NodeStatusChange} :
    ∀ {known : Knowledge}, e ∉ delta.map NodeStatusChange.endpoint →
      (known.fold delta).metadata e = known.metadata e := by
  induction delta with
  | nil => exact fun _ => rfl
  | cons nsc delta ih =>
      intro known hout
      rw [List.map_cons, List.mem_cons, not_or] at hout
      have hrest : ((known.apply nsc).fold delta).metadata e = (known.apply nsc).metadata e :=
        ih hout.2
      refine hrest.trans ?_
      unfold Knowledge.apply
      cases nsc.status with
      | up => simp [hout.1]
      | down => simp [hout.1]

/-- What is known of an endpoint after the changes that mention it does not depend on what was
known before. -/
theorem fold_of_mentioned {e : Endpoint} {delta : List NodeStatusChange} :
    ∀ {known other : Knowledge}, e ∈ delta.map NodeStatusChange.endpoint →
      (e ∈ (known.fold delta).members ↔ e ∈ (other.fold delta).members) ∧
        (known.fold delta).metadata e = (other.fold delta).metadata e := by
  induction delta with
  | nil =>
      intro known other hin
      cases hin
  | cons nsc delta ih =>
      intro known other hin
      by_cases hlater : e ∈ delta.map NodeStatusChange.endpoint
      · have hrest : (e ∈ ((known.apply nsc).fold delta).members ↔
            e ∈ ((other.apply nsc).fold delta).members) ∧
              ((known.apply nsc).fold delta).metadata e =
                ((other.apply nsc).fold delta).metadata e := ih hlater
        exact hrest
      · -- This is the last mention of `e`; it overwrites whatever was known.
        have he : e = nsc.endpoint := (List.mem_cons.1 hin).resolve_right hlater
        subst he
        have hmembers : ∀ k : Knowledge, nsc.endpoint ∈ (k.fold (nsc :: delta)).members ↔
            nsc.endpoint ∈ (k.apply nsc).members := fun k => mem_fold_of_unmentioned hlater
        have hmetadata : ∀ k : Knowledge, (k.fold (nsc :: delta)).metadata nsc.endpoint =
            (k.apply nsc).metadata nsc.endpoint := fun k => metadata_fold_of_unmentioned hlater
        rw [hmembers, hmembers, hmetadata, hmetadata]
        unfold Knowledge.apply
        cases nsc.status with
        | up => simp
        | down => simp

/-- Folding the same changes again changes nothing. -/
theorem fold_fold (known : Knowledge) (delta : List NodeStatusChange) :
    (known.fold delta).fold delta = known.fold delta := by
  have hpoint : ∀ e, (e ∈ ((known.fold delta).fold delta).members ↔
      e ∈ (known.fold delta).members) ∧
        ((known.fold delta).fold delta).metadata e = (known.fold delta).metadata e := by
    intro e
    by_cases hmentioned : e ∈ delta.map NodeStatusChange.endpoint
    · exact fold_of_mentioned hmentioned
    · exact ⟨mem_fold_of_unmentioned hmentioned, metadata_fold_of_unmentioned hmentioned⟩
  have hmembers : ((known.fold delta).fold delta).members = (known.fold delta).members :=
    Finset.ext fun e => (hpoint e).1
  have hmetadata : ((known.fold delta).fold delta).metadata = (known.fold delta).metadata :=
    funext fun e => (hpoint e).2
  calc
    (known.fold delta).fold delta
        = ⟨((known.fold delta).fold delta).members, ((known.fold delta).fold delta).metadata⟩ := rfl
    _ = known.fold delta := by rw [hmembers, hmetadata]

section Lag

variable [Xxh64]

/-! ## The forwarder loop -/

/-- `EVENT_CHANNEL_CAPACITY`. -/
def eventChannelCapacity : Nat := 64

inductive LagStep
  | command (env : Environment) (cmd : ServiceCommand)
  | recv
  | query (env : Environment) (reply : ReplyId)
  | closed
  | write

/-- The actor, all events since the subscription, and the forwarder: `position` is the next event
to receive, `resync` a `full_resync` under way. `past` are the states that the actor has been in
between its commands, and `origin` the configuration id at the subscription. -/
structure LagRun where
  actor : ServiceRun
  past : List ServiceState
  origin : ConfigurationId
  log : List ClusterStatusChange
  position : Nat
  index : ShardIndex
  resync : Option SnapshotPhase

/-- The configuration ids before and after each event. -/
def LagRun.ids (run : LagRun) : List ConfigurationId :=
  run.origin :: run.log.map ClusterStatusChange.configurationId

/-- The directory starts from a correct snapshot of the view at the subscription. -/
def lagSystem (key : String) (delimiter : Char) : System LagRun LagStep where
  init run := ∃ (actor : ServiceRun) (index : ShardIndex), serviceSystem.Reachable actor ∧
    actor.state.Reports ∧ Tells key delimiter index actor.state.epoch ∧
    run = ⟨actor, [actor.state], actor.state.epoch.configurationId, [], 0, index, none⟩
  step run
    | .command env cmd => do
        let actor ← serviceSystem.step run.actor (env, cmd)
        return { run with
          actor := actor
          past := run.past ++ [actor.state]
          log := run.log ++ viewChanges (run.actor.effects env cmd) }
    | .recv =>
        match run.resync with
        | some _ => none
        | none =>
            if run.position + eventChannelCapacity < run.log.length then
              -- `Lagged`: the receiver continues with the oldest event that is retained.
              some { run with
                position := run.log.length - eventChannelCapacity
                resync := some .start }
            else run.log[run.position]?.map fun ev =>
              { run with
                position := run.position + 1
                index := run.index.receive key delimiter ev }
    | .query env reply =>
        run.resync.bind fun phase => (phase.ask run.actor env reply).map fun asked =>
          { run with
            actor := asked.1
            past := run.past ++ [asked.1.state]
            resync := some asked.2 }
    | .closed =>
        match run.resync with
        | none => none
        | some (.complete _ _) => none
        | some phase =>
            -- Without a snapshot the loop goes on with what it has.
            if run.actor.stopped then some { run with resync := phase.unanswered } else none
    | .write =>
        match run.resync with
        | some (.complete id delta) =>
            some { run with index := snapshotIndex key delimiter id delta, resync := none }
        | _ => none

/-- Each event that is folded starts or ends in the view that the directory reports, and while the
snapshot is under way nothing is decided and the actor is there to tell its metadata. -/
def Fits (run : LagRun) : LagStep → Prop
  | .command env cmd => run.resync.any SnapshotPhase.underWay = true →
      ∀ decision ∈ (run.actor.effects env cmd).filterMap Effect.decision?,
        decision.1.Idle decision.2
  | .recv => run.position + eventChannelCapacity < run.log.length ∨
      run.ids[run.position]? = some run.index.configurationId ∨
      run.ids[run.position + 1]? = some run.index.configurationId
  | .closed => (run.resync.bind SnapshotPhase.unanswered).isNone = true
  | _ => True

instance (run : LagRun) (step : LagStep) : Decidable (Fits run step) :=
  match step with
  | .command _ _ => inferInstanceAs (Decidable (_ → ∀ decision ∈ _, _))
  | .recv => inferInstanceAs (Decidable (_ ∨ _))
  | .query _ _ => isTrue trivial
  | .closed => inferInstanceAs (Decidable (_ = true))
  | .write => isTrue trivial

/-- No two configurations that the actor has been in have the same id. -/
def LagRun.DistinctIds (run : LagRun) : Prop :=
  ∀ s ∈ run.past, ∀ t ∈ run.past,
    s.view.currentConfigurationId.2 = t.view.currentConfigurationId.2 →
      s.view.configuration = t.view.configuration

/-! ## Events and epochs -/

variable {key : String} {delimiter : Char} {e : Epoch} {events : List ClusterStatusChange}
  {epochs : List Epoch}

omit [Xxh64] in
theorem Leads.ids (h : Leads e events epochs) :
    events.map ClusterStatusChange.configurationId = epochs.map Epoch.configurationId := by
  induction h with
  | nil => rfl
  | cons hid _ _ _ ih => rw [List.map_cons, List.map_cons, hid, ih]

omit [Xxh64] in
/-- An event leads from one epoch to the next one. -/
theorem Leads.event (h : Leads e events epochs) {i : Nat} {ev : ClusterStatusChange}
    (hev : events[i]? = some ev) :
    ∃ f g, (e :: epochs)[i]? = some f ∧ (e :: epochs)[i + 1]? = some g ∧
      ev.configurationId = g.configurationId ∧ f.knowledge.fold ev.delta = g.knowledge ∧
      f.Before g := by
  induction h generalizing i with
  | nil => cases hev
  | @cons e f first events epochs hid hfold hbefore _ ih =>
      cases i with
      | zero =>
          cases hev
          exact ⟨e, f, rfl, rfl, hid, hfold, hbefore⟩
      | succ i => exact ih hev

/-! ## What holds in every run -/

/-- The events lead through epochs that the actor has been in, up to the current one. -/
structure LagRun.Tracked (run : LagRun) : Prop where
  reports : run.actor.state.Reports
  ordered : (run.past.map ServiceState.epoch).Pairwise Epoch.Before
  current : ∃ earlier, run.past = earlier ++ [run.actor.state]
  led : ∃ e epochs, e.configurationId = run.origin ∧ Leads e run.log epochs ∧
    epochs.getLastD e = run.actor.state.epoch ∧ ∀ f ∈ e :: epochs, f ∈ run.past.map ServiceState.epoch

namespace LagRun

variable {run : LagRun}

theorem Tracked.before (h : run.Tracked) {f : Epoch} (hf : f ∈ run.past.map ServiceState.epoch) :
    f.Before run.actor.state.epoch := by
  rcases h.current with ⟨earlier, hpast⟩
  have hordered := h.ordered
  rw [hpast, List.map_append] at hordered hf
  rcases List.mem_append.1 hf with hold | hlast
  · exact (List.pairwise_append.1 hordered).2.2 f hold _ (by simp)
  · exact .inl (List.mem_singleton.1 hlast).symm

theorem Tracked.mem_current (h : run.Tracked) :
    run.actor.state.epoch ∈ run.past.map ServiceState.epoch := by
  rcases h.current with ⟨earlier, hpast⟩
  rw [hpast]
  simp

/-- No epoch comes back under its old id. -/
theorem Tracked.unique (h : run.Tracked) (hids : run.DistinctIds) {f g : Epoch}
    (hf : f ∈ run.past.map ServiceState.epoch) (hg : g ∈ run.past.map ServiceState.epoch)
    (heq : f.configurationId = g.configurationId) : f = g := by
  have hconfiguration : f.configuration = g.configuration := by
    rcases List.mem_map.1 hf with ⟨s, hs, rfl⟩
    rcases List.mem_map.1 hg with ⟨t, ht, rfl⟩
    exact hids s hs t ht heq
  have hcomparable : f.Before g ∨ g.Before f := by
    have hrelated : (run.past.map ServiceState.epoch).Pairwise
        fun a b => a.Before b ∨ b.Before a := h.ordered.imp .inl
    have hflipped : (run.past.map ServiceState.epoch).Pairwise
        (flip fun a b => a.Before b ∨ b.Before a) := h.ordered.imp .inr
    exact hrelated.forall_of_forall_of_flip (fun a _ => .inl (.inl rfl)) hflipped hf hg
  rcases hcomparable with (heq | hlt) | (heq | hlt)
  · exact heq.symm
  · rw [hconfiguration] at hlt
    exact absurd hlt (lt_irrefl _)
  · exact heq
  · rw [hconfiguration] at hlt
    exact absurd hlt (lt_irrefl _)

/-- The actor goes on. -/
theorem Tracked.extend (h : run.Tracked) {t : ServiceState} {more : List ClusterStatusChange}
    {later : List Epoch} (ht : t.Reports) (hbefore : run.actor.state.epoch.Before t.epoch)
    (hleads : Leads run.actor.state.epoch more later)
    (hlast : later.getLastD run.actor.state.epoch = t.epoch)
    (hlater : ∀ f ∈ later, f = run.actor.state.epoch ∨ f = t.epoch) {next : LagRun}
    (hactor : next.actor.state = t) (hpast : next.past = run.past ++ [t])
    (horigin : next.origin = run.origin) (hlog : next.log = run.log ++ more) : next.Tracked := by
  rcases h.led with ⟨e, epochs, hid, hled, hend, hin⟩
  have hkept : ∀ f ∈ run.past.map ServiceState.epoch, f ∈ next.past.map ServiceState.epoch := by
    intro f hf
    rw [hpast, List.map_append]
    exact List.mem_append_left _ hf
  have hnew : t.epoch ∈ next.past.map ServiceState.epoch := by
    rw [hpast]
    simp
  refine ⟨hactor ▸ ht, ?_, ⟨run.past, by rw [hpast, hactor]⟩, e, epochs ++ later,
    hid.trans horigin.symm, ?_, ?_, ?_⟩
  · rw [hpast, List.map_append, List.pairwise_append]
    refine ⟨h.ordered, List.pairwise_singleton _ _, ?_⟩
    intro f hf g hg
    rw [List.map_singleton, List.mem_singleton] at hg
    rw [hg]
    exact (h.before hf).trans hbefore
  · rw [hlog]
    refine hled.append ?_
    rw [hend]
    exact hleads
  · rw [getLastD_append, hend, hlast, hactor]
  · intro f hf
    -- Every epoch of the log was one of the actor.
    rcases List.mem_cons.1 hf with rfl | hf
    · exact hkept _ (hin _ List.mem_cons_self)
    · rcases List.mem_append.1 hf with hold | hmore
      · exact hkept f (hin f (List.mem_cons_of_mem _ hold))
      · rcases hlater f hmore with rfl | rfl
        · exact hkept _ h.mem_current
        · exact hnew

theorem Tracked.congr (h : run.Tracked) {next : LagRun} (hactor : next.actor = run.actor)
    (hpast : next.past = run.past) (horigin : next.origin = run.origin)
    (hlog : next.log = run.log) : next.Tracked := by
  rcases h with ⟨hreports, hordered, hcurrent, hled⟩
  rw [← hactor] at hreports hcurrent hled
  rw [← hpast] at hordered hcurrent hled
  rw [← horigin, ← hlog] at hled
  exact ⟨hreports, hordered, hcurrent, hled⟩

/-- Every step keeps what the actor has been through. -/
theorem Tracked.step (h : run.Tracked) {step : LagStep} {next : LagRun}
    (hstep : (lagSystem key delimiter).step run step = some next) :
    next.Tracked ∧ run.past ⊆ next.past := by
  -- Only commands and queries touch the actor and the log.
  have hsame : ∀ {next : LagRun}, next.actor = run.actor → next.past = run.past →
      next.origin = run.origin → next.log = run.log → next.Tracked ∧ run.past ⊆ next.past :=
    fun hactor hpast horigin hlog =>
      ⟨h.congr hactor hpast horigin hlog, hpast ▸ List.Subset.refl _⟩
  cases step with
  | command env cmd =>
      rcases Option.bind_eq_some_iff.1 hstep with ⟨actor, hactor, heq⟩
      cases heq
      rcases serviceSystem_step hactor with ⟨_, rfl⟩
      have hact : Act env cmd run.actor.state (run.actor.effects env cmd)
          (run.actor.next env cmd).state := run.actor.state.handleCommand_act
      rcases hact.leads h.reports with ⟨ht, hbefore, _, later, hleads, hlast, hlater⟩
      exact ⟨h.extend ht hbefore hleads hlast hlater rfl rfl rfl rfl, List.subset_append_left _ _⟩
  | recv =>
      simp only [lagSystem] at hstep
      split at hstep
      · cases hstep
      · split at hstep
        · cases hstep
          exact hsame rfl rfl rfl rfl
        · rcases Option.map_eq_some_iff.1 hstep with ⟨ev, _, rfl⟩
          exact hsame rfl rfl rfl rfl
  | query env reply =>
      rcases Option.bind_eq_some_iff.1 hstep with ⟨phase, _, hrest⟩
      rcases Option.map_eq_some_iff.1 hrest with ⟨asked, hasked, rfl⟩
      rcases SnapshotPhase.ask_keeps h.reports hasked with ⟨ht, hepoch⟩
      have hlog : run.log = run.log ++ [] := (List.append_nil _).symm
      refine ⟨?_, List.subset_append_left _ _⟩
      exact h.extend ht (.inl hepoch) (.nil _) hepoch.symm (fun f hf => by cases hf) rfl rfl rfl hlog
  | closed =>
      simp only [lagSystem] at hstep
      split at hstep
      · cases hstep
      · cases hstep
      · split at hstep
        · cases hstep
          exact hsame rfl rfl rfl rfl
        · cases hstep
  | write =>
      simp only [lagSystem] at hstep
      split at hstep
      · cases hstep
        exact hsame rfl rfl rfl rfl
      · cases hstep

theorem tracked_reaches {guard : LagRun → LagStep → Prop}
    (h : (lagSystem key delimiter).Reaches guard run) : run.Tracked := by
  refine h.invariant (I := LagRun.Tracked) ?_ ?_
  · rintro run ⟨actor, index, _, hreports, _, rfl⟩
    refine ⟨hreports, List.pairwise_singleton _ _, ⟨[], rfl⟩, actor.state.epoch, [], rfl, .nil _, rfl, ?_⟩
    intro f hf
    exact hf
  · exact fun run step next _ h _ hstep => (h.step hstep).1

/-! ## Where the directory is -/

/-- A resync brings the directory forward. -/
def Resyncing (run : LagRun) (f : Epoch) : Prop :=
  match run.resync with
  | none => True
  | some (.complete id delta) => ∃ g ∈ run.past.map ServiceState.epoch,
      f.configuration ≤ g.configuration ∧ id = g.configurationId ∧
        Knowledge.none.fold delta = g.knowledge
  | some phase => phase.Current run.actor.state

/-- The directory reports this epoch. -/
structure At (key : String) (delimiter : Char) (run : LagRun) (f : Epoch) : Prop where
  past : f ∈ run.past.map ServiceState.epoch
  tells : Tells key delimiter run.index f
  resyncing : run.Resyncing f

theorem At.command {f : Epoch} (h : run.At key delimiter f) (htracked : run.Tracked)
    {env : Environment} {cmd : ServiceCommand} {next : LagRun} (hok : Fits run (.command env cmd))
    (hstep : (lagSystem key delimiter).step run (.command env cmd) = some next) :
    next.At key delimiter f := by
  rcases Option.bind_eq_some_iff.1 hstep with ⟨actor, hactor, heq⟩
  cases heq
  rcases serviceSystem_step hactor with ⟨_, rfl⟩
  have hact : Act env cmd run.actor.state (run.actor.effects env cmd)
      (run.actor.next env cmd).state := run.actor.state.handleCommand_act
  rcases hact.leads htracked.reports with ⟨ht, _, hsame, _⟩
  have hkept : ∀ g ∈ run.past.map ServiceState.epoch,
      g ∈ (run.past ++ [(run.actor.next env cmd).state]).map ServiceState.epoch := by
    intro g hg
    rw [List.map_append]
    exact List.mem_append_left _ hg
  -- The guard: no decision between the queries of a snapshot.
  have hidle : run.resync.any SnapshotPhase.underWay = true →
      (run.actor.next env cmd).state.epoch = run.actor.state.epoch := by
    intro hunderWay
    refine hsame ?_
    intro u proposal hcall
    exact hok hunderWay (u, proposal) (mem_decisions.2 hcall)
  refine ⟨hkept f h.past, h.tells, ?_⟩
  have hresyncing := h.resyncing
  unfold Resyncing at hresyncing ⊢
  dsimp only
  cases hresync : run.resync with
  | none => trivial
  | some phase =>
      rw [hresync] at hresyncing hidle
      cases phase with
      | start => trivial
      | gotId id => exact SnapshotPhase.Current.stays hresyncing htracked.reports ht (hidle rfl)
      | gotMembers id membership =>
          exact SnapshotPhase.Current.stays hresyncing htracked.reports ht (hidle rfl)
      -- A complete snapshot keeps the epoch it was taken in, which stays in the past.
      | complete id delta =>
          rcases hresyncing with ⟨g, hg, hrest⟩
          exact ⟨g, hkept g hg, hrest⟩

theorem At.recv {f : Epoch} (h : run.At key delimiter f) (htracked : run.Tracked)
    (hids : run.DistinctIds) {next : LagRun} (hok : Fits run .recv)
    (hstep : (lagSystem key delimiter).step run .recv = some next) :
    ∃ g, next.At key delimiter g ∧ f.configuration ≤ g.configuration := by
  simp only [lagSystem] at hstep
  split at hstep
  · cases hstep
  · split at hstep
    · cases hstep
      exact ⟨f, ⟨h.past, h.tells, trivial⟩, le_rfl⟩
    · rename_i hresync hretained
      rcases Option.map_eq_some_iff.1 hstep with ⟨ev, hev, rfl⟩
      rcases htracked.led with ⟨e, epochs, horigin, hled, _, hin⟩
      rcases hled.event hev with ⟨before, after, hbefore, hafter, hid, hfold, horder⟩
      have hids' : run.ids = (e :: epochs).map Epoch.configurationId := by
        rw [LagRun.ids, hled.ids, ← horigin, List.map_cons]
      have hpastBefore := hin before (List.mem_of_getElem? hbefore)
      have hpastAfter := hin after (List.mem_of_getElem? hafter)
      -- Ids are distinct, so the id of the index tells its epoch.
      have hreported : ∀ {i : Nat} {g : Epoch}, (e :: epochs)[i]? = some g →
          run.ids[i]? = some run.index.configurationId → f = g := by
        intro i g hg hi
        rw [hids', List.getElem?_map, hg, Option.map_some, Option.some.injEq] at hi
        exact htracked.unique hids h.past (hin g (List.mem_of_getElem? hg))
          (h.tells.id.symm.trans hi.symm)
      have hquiet : Resyncing { run with
          position := run.position + 1
          index := run.index.receive key delimiter ev } after := by
        unfold Resyncing
        rw [hresync]
        trivial
      rcases hok with hlagged | hstarts | hends
      · exact absurd hlagged hretained
      · -- The event is the next one for the directory.
        cases hreported hbefore hstarts
        exact ⟨after, ⟨hin after (List.mem_of_getElem? hafter), h.tells.receive hid hfold, hquiet⟩,
          horder.le⟩
      · -- The directory has this event behind it.
        cases hreported hafter hends
        refine ⟨f, ⟨h.past, h.tells.receive hid ?_, hquiet⟩, le_rfl⟩
        rw [← hfold, fold_fold]

theorem At.query {f : Epoch} (h : run.At key delimiter f) (htracked : run.Tracked)
    {env : Environment} {reply : ReplyId} {next : LagRun}
    (hstep : (lagSystem key delimiter).step run (.query env reply) = some next) :
    next.At key delimiter f := by
  rcases Option.bind_eq_some_iff.1 hstep with ⟨phase, hresync, hrest⟩
  rcases Option.map_eq_some_iff.1 hrest with ⟨asked, hasked, rfl⟩
  rcases SnapshotPhase.ask_keeps htracked.reports hasked with ⟨_, hepoch⟩
  have hresyncing := h.resyncing
  unfold Resyncing at hresyncing
  rw [hresync] at hresyncing
  have hphase : phase.Current run.actor.state := by
    cases phase with
    | start => trivial
    | gotId id => exact hresyncing
    | gotMembers id membership => exact hresyncing
    | complete id delta => cases hasked
  have hasked' := hphase.ask htracked.reports hasked
  have hnew : asked.1.state.epoch ∈ (run.past ++ [asked.1.state]).map ServiceState.epoch := by
    simp
  refine ⟨?_, h.tells, ?_⟩
  · rw [List.map_append]
    exact List.mem_append_left _ h.past
  · unfold Resyncing
    dsimp only
    cases hanswered : asked.2 with
    | start => trivial
    | gotId id =>
        rw [hanswered] at hasked'
        exact hasked'
    | gotMembers id membership =>
        rw [hanswered] at hasked'
        exact hasked'
    | complete id delta =>
        -- The snapshot is that of the view the actor is in.
        rw [hanswered] at hasked'
        have hle := (htracked.before h.past).le
        rw [← hepoch] at hle
        exact ⟨asked.1.state.epoch, hnew, hle, hasked'⟩

theorem At.closed {f : Epoch} (h : run.At key delimiter f) {next : LagRun} (hok : Fits run .closed)
    (hstep : (lagSystem key delimiter).step run .closed = some next) : next.At key delimiter f := by
  simp only [lagSystem] at hstep
  split at hstep
  · cases hstep
  · cases hstep
  · rename_i phase _ hresync
    split at hstep
    · cases hstep
      have hfailed : phase.unanswered = none := by
        have hnone : (run.resync.bind SnapshotPhase.unanswered).isNone = true := hok
        rw [hresync] at hnone
        exact Option.isNone_iff_eq_none.1 hnone
      refine ⟨h.past, h.tells, ?_⟩
      unfold Resyncing
      rw [hfailed]
      trivial
    · cases hstep

theorem At.write {f : Epoch} (h : run.At key delimiter f) {next : LagRun}
    (hstep : (lagSystem key delimiter).step run .write = some next) :
    ∃ g, next.At key delimiter g ∧ f.configuration ≤ g.configuration := by
  simp only [lagSystem] at hstep
  split at hstep
  · rename_i id delta hresync
    cases hstep
    have hresyncing := h.resyncing
    unfold Resyncing at hresyncing
    rw [hresync] at hresyncing
    rcases hresyncing with ⟨g, hg, hle, hid, hfold⟩
    exact ⟨g, ⟨hg, .snapshot hid hfold, trivial⟩, hle⟩
  · cases hstep

/-- A step leaves the directory where it is or brings it forward. -/
theorem At.step {f : Epoch} (h : run.At key delimiter f) (htracked : run.Tracked)
    (hids : run.DistinctIds) {step : LagStep} {next : LagRun} (hok : Fits run step)
    (hstep : (lagSystem key delimiter).step run step = some next) :
    ∃ g, next.At key delimiter g ∧ f.configuration ≤ g.configuration := by
  cases step with
  | command env cmd => exact ⟨f, h.command htracked hok hstep, le_rfl⟩
  | recv => exact h.recv htracked hids hok hstep
  | query env reply => exact ⟨f, h.query htracked hstep, le_rfl⟩
  | closed => exact ⟨f, h.closed hok hstep, le_rfl⟩
  | write => exact h.write hstep

theorem DistinctIds.of_subset {next : LagRun} (h : next.DistinctIds)
    (hsub : run.past ⊆ next.past) : run.DistinctIds :=
  fun s hs t ht => h s (hsub hs) t (hsub ht)

theorem at_reaches (h : (lagSystem key delimiter).Reaches Fits run) (hids : run.DistinctIds) :
    ∃ f, run.At key delimiter f := by
  refine h.invariant (I := fun run => run.DistinctIds → ∃ f, run.At key delimiter f) ?_ ?_ hids
  · rintro run ⟨actor, index, _, _, htells, rfl⟩ _
    exact ⟨actor.state.epoch, by simp, htells, trivial⟩
  · intro run step next hreaches hat hok hstep hids
    have htracked := tracked_reaches hreaches
    have hids' := hids.of_subset (htracked.step hstep).2
    rcases hat hids' with ⟨f, hf⟩
    rcases hf.step htracked hids' hok hstep with ⟨g, hg, _⟩
    exact ⟨g, hg⟩

end LagRun

/-- In every run in which each folded event starts or ends in the reported view, and nothing is
decided while a snapshot is under way, the directory reports the id of a view that the actor has
been in, its replicas are those of that view, and no step takes it back to an earlier one. -/
theorem lagRecovery_faithful {run : LagRun} (h : (lagSystem key delimiter).Reaches Fits run)
    (hids : run.DistinctIds) :
    (∃ s ∈ run.past, s.view.currentConfigurationId.2 = run.index.configurationId) ∧
      (∀ s ∈ run.past, s.view.currentConfigurationId.2 = run.index.configurationId →
        ∀ shard e, e ∈ run.index.replicasOf shard ↔ e ∈ s.view.allNodes ∧
          shard ∈ parseShards (s.metadata.get e) key delimiter) ∧
      ∀ step next, Fits run step → (lagSystem key delimiter).step run step = some next →
        next.DistinctIds → ∀ s ∈ next.past, ∀ t ∈ next.past,
          s.view.currentConfigurationId.2 = run.index.configurationId →
          t.view.currentConfigurationId.2 = next.index.configurationId →
            s.view.configuration ≤ t.view.configuration := by
  have htracked := LagRun.tracked_reaches h
  rcases LagRun.at_reaches h hids with ⟨f, hf⟩
  refine ⟨?_, ?_, ?_⟩
  · rcases List.mem_map.1 hf.past with ⟨s, hs, rfl⟩
    exact ⟨s, hs, hf.tells.id.symm⟩
  · intro s hs hid
    -- The id of the index names one epoch of the past.
    have hsame : s.epoch = f :=
      htracked.unique hids (List.mem_map_of_mem hs) hf.past (hid.trans hf.tells.id)
    have hreplicas := hf.tells.describes.replicas
    rw [← hsame] at hreplicas
    exact hreplicas
  · intro step next hok hstep hids' s hs t ht hold hnew
    rcases hf.step htracked hids hok hstep with ⟨g, hg, hle⟩
    rcases htracked.step hstep with ⟨htracked', hsub⟩
    have hfnext : f ∈ next.past.map ServiceState.epoch := List.map_subset _ hsub hf.past
    have hfrom : s.epoch = f :=
      htracked'.unique hids' (List.mem_map_of_mem hs) hfnext (hold.trans hf.tells.id)
    have hto : t.epoch = g :=
      htracked'.unique hids' (List.mem_map_of_mem ht) hg.past (hnew.trans hg.tells.id)
    rw [← hfrom, ← hto] at hle
    exact hle

end Lag

/-! ### An old event on top of a new snapshot -/

section Sample

attribute [local instance] xxh64Reference

/-- The forwarder of `hostA` has just subscribed. -/
def lagStart (outcome : Outcome) : LagRun where
  actor := ⟨outcome.1, outcome.2, [], false⟩
  past := [outcome.1]
  origin := outcome.1.epoch.configurationId
  log := []
  position := 0
  index := snapshotIndex defaultMetadataKey defaultDelimiter outcome.1.epoch.configurationId
    (snapshotDelta outcome.1.memberlist
      (outcome.1.metadataSnapshot ServiceState.sampleEnvironment.metadataOrder))
  resync := none

theorem lagStart_init {outcome : Outcome} (h : shardJoin.toOption = some outcome) :
    (lagSystem defaultMetadataKey defaultDelimiter).init (lagStart outcome) := by
  rcases shardJoin_reports h with ⟨hboots, hreports⟩
  exact ⟨_, _, .start ⟨_, hboots, rfl⟩, hreports, .snapshot rfl (hreports.fold_snapshot _), rfl⟩

/-- Empty proposals: each publishes an event, and nothing changes. -/
def idleCommands (count : Nat) : List LagStep :=
  (List.range count).map fun i =>
    .command ServiceState.sampleEnvironment (.applyProposal [] i)

/-- The receiver is told that it lags, and the directory is rebuilt. -/
def resyncSteps : List LagStep :=
  [.recv, .query ServiceState.sampleEnvironment 100, .query ServiceState.sampleEnvironment 101,
    .query ServiceState.sampleEnvironment 102, .write]

/-- The last of 65 events says that `hostB` has left. -/
def staleRun : Option LagRun :=
  shardJoin.toOption.bind fun outcome =>
    (lagSystem defaultMetadataKey defaultDelimiter).exec (lagStart outcome)
      (idleCommands 64 ++ [.command ServiceState.sampleEnvironment (.applyProposal [hostB] 64)] ++
        resyncSteps ++ [.recv])

/-- The first of 65 events says that `hostB` has left. It is lost, and the others are idle. -/
def missedRun : Option LagRun :=
  shardJoin.toOption.bind fun outcome =>
    (lagSystem defaultMetadataKey defaultDelimiter).execWhile Fits (lagStart outcome)
      (.command ServiceState.sampleEnvironment (.applyProposal [hostB] 64) :: idleCommands 64 ++
        resyncSteps ++ [.recv])

/-- The id tells whether `hostB` is a member. -/
def identifiedBy (origin id : ConfigurationId) : Configuration :=
  toLex ({⟨1, 1⟩, ⟨2, 2⟩}, OrderDual.toDual (if id = origin then {hostA, hostB} else {hostA}))

def LagRun.identified (run : LagRun) : Bool :=
  run.past.all fun s =>
    decide (s.view.configuration = identifiedBy run.origin s.view.currentConfigurationId.2)

theorem LagRun.distinctIds_of_identified {run : LagRun} (h : run.identified = true) :
    run.DistinctIds := by
  intro s hs t ht hid
  have hs' := of_decide_eq_true (List.all_eq_true.1 h s hs)
  have ht' := of_decide_eq_true (List.all_eq_true.1 h t ht)
  rw [hs', ht', hid]

theorem staleRun_facts :
    (staleRun.bind fun run => run.past.head?.map fun s =>
      (run.identified, decide (s.view.currentConfigurationId.2 = run.index.configurationId),
        decide (hostB ∈ s.view.allNodes),
        decide ("s" ∈ parseShards (s.metadata.get hostB) defaultMetadataKey defaultDelimiter),
        run.index.replicasOf "s")) = some (true, true, true, true, [hostA]) := by
  decide +kernel

theorem missedRun_facts :
    (missedRun.map fun run => (run.identified, run.position, run.index.replicasOf "s",
      decide (run.index.configurationId = run.origin))) = some (true, 2, [hostA], false) := by
  decide +kernel

/-- After the resync, the oldest event that is left takes the directory back to the id of a view
that lists `hostB`, and `hostB` is missing. -/
theorem staleRun_misled :
    ∃ run : LagRun, (lagSystem defaultMetadataKey defaultDelimiter).Reachable run ∧
      run.DistinctIds ∧ ∃ s ∈ run.past,
        s.view.currentConfigurationId.2 = run.index.configurationId ∧ hostB ∈ s.view.allNodes ∧
        "s" ∈ parseShards (s.metadata.get hostB) defaultMetadataKey defaultDelimiter ∧
        hostB ∉ run.index.replicasOf "s" := by
  rcases Option.bind_eq_some_iff.1 staleRun_facts with ⟨run, hrun, hfacts⟩
  rcases Option.map_eq_some_iff.1 hfacts with ⟨s, hs, heq⟩
  simp only [Prod.mk.injEq, decide_eq_true_eq] at heq
  rcases heq with ⟨hidentified, hid, hmember, hhosts, hreplicas⟩
  rcases Option.bind_eq_some_iff.1 hrun with ⟨outcome, houtcome, hexec⟩
  have hstart : (lagSystem defaultMetadataKey defaultDelimiter).Reachable (lagStart outcome) :=
    .start (lagStart_init houtcome)
  have hmissing : hostB ∉ [hostA] := by
    decide +kernel
  refine ⟨run, hstart.exec hexec, LagRun.distinctIds_of_identified hidentified, s,
    List.mem_of_mem_head? hs, hid, hmember, hhosts, ?_⟩
  rw [hreplicas]
  exact hmissing

/-- The directory knows from the snapshot that `hostB` has left, and keeps knowing it. -/
theorem missedRun_faithful :
    ∃ run : LagRun, missedRun = some run ∧ run.position = 2 ∧ run.index.replicasOf "s" = [hostA] ∧
      run.index.configurationId ≠ run.origin ∧
      ∀ s ∈ run.past, s.view.currentConfigurationId.2 = run.index.configurationId →
        ∀ shard e, e ∈ run.index.replicasOf shard ↔ e ∈ s.view.allNodes ∧
          shard ∈ parseShards (s.metadata.get e) defaultMetadataKey defaultDelimiter := by
  rcases Option.map_eq_some_iff.1 missedRun_facts with ⟨run, hrun, heq⟩
  simp only [Prod.mk.injEq, decide_eq_false_iff_not] at heq
  rcases heq with ⟨hidentified, hposition, hreplicas, hid⟩
  rcases Option.bind_eq_some_iff.1 hrun with ⟨outcome, houtcome, hexec⟩
  have hstart : (lagSystem defaultMetadataKey defaultDelimiter).Reaches Fits (lagStart outcome) :=
    .start (lagStart_init houtcome)
  exact ⟨run, hrun, hposition, hreplicas, hid, (lagRecovery_faithful (hstart.execWhile hexec)
    (LagRun.distinctIds_of_identified hidentified)).2.1⟩

end Sample

end Rapid
