import Rapid.Cluster.ClusterSystem
import Rapid.Foundations.Roles
import Rapid.Service.InstanceTurns

/-!
# Agreement — the members of a configuration decide the same

In a cluster there is one consensus protocol for every configuration, and the actors go from one to the
next. As long as a run is `Regular`, what happens in one configuration is a run of the network of
`FastNetwork` between its members (`instances_mirror`), so two members that decide in the same
configuration decide the same cut (`members_agree`).
-/

namespace Rapid

open Foundations Swarm

/-! ## Regular runs -/

namespace ServiceRun

variable [Xxh64] (run : ServiceRun)

def configurationId : ConfigurationId :=
  run.state.view.currentConfigurationId.2

omit [Xxh64] in
/-- The actor is a member of its own view; one that was removed is not. -/
def Listed : Prop :=
  run.state.myAddr ∈ run.state.memberlist

omit [Xxh64] in
instance : Decidable run.Listed :=
  inferInstanceAs (Decidable (run.state.myAddr ∈ run.state.memberlist))

/-- The proposals that are announced while the input is handled. -/
def proposals (a : Environment × ServiceCommand) : List (List Endpoint) :=
  (calls (run.effects a.1 a.2)).filterMap Call.announced?

/-- The values that are decided while the input is handled. -/
def decisions (a : Environment × ServiceCommand) : List (List Endpoint) :=
  ((run.effects a.1 a.2).filterMap Effect.decision?).map Prod.snd

/-- The instance of the actor decides this value; injected proposals do not count. -/
def Decides (a : Environment × ServiceCommand) (v : List Endpoint) : Prop :=
  v ∈ run.decisions a ∧ ∀ v' reply, a.2 ≠ .applyProposal v' reply

/-- In one configuration all list the same members, and nobody else has the address of `run`. -/
def Distinct (old : ServiceRun) : Prop :=
  old.configurationId = run.configurationId →
    old.state.myAddr ≠ run.state.myAddr ∧ old.state.memberlist = run.state.memberlist

instance (old : ServiceRun) : Decidable (run.Distinct old) :=
  inferInstanceAs (Decidable (_ → _))

end ServiceRun

section Regular

variable [Xxh64] {ι : Type*}

/-- The actor is the first with its address that comes into its configuration. -/
def Arrival (w : Cluster ι) (run : ServiceRun) : Prop :=
  ∀ old, Seen w old → run.Distinct old

/-- What a run has to keep to while an actor handles a command. -/
@[mk_iff]
structure Timely (w : Cluster ι) (run : ServiceRun) (a : Environment × ServiceCommand) : Prop where
  /-- A decision leads to a configuration where the actor has not been. -/
  arrival : run.decisions a ≠ [] → Arrival w (run.next a.1 a.2)
  /-- No consensus message is handed over twice in one configuration. -/
  once : ∀ m ∈ a.2.delivers?, m.consensusId?.isSome → ∀ e ∈ w.past,
    e.state.configurationId = run.configurationId → e.state.state.myAddr = run.state.myAddr →
      e.input.2.delivers? ≠ some m
  /-- Only members take part. -/
  listed : run.proposals a ≠ [] ∨ a.2.consults → run.Listed
  /-- Nobody proposes after it has joined a classic round. -/
  round : run.proposals a ≠ [] → ∀ fp ∈ run.state.fastPaxos, ¬ fp.paxos.rnd.round > 1

def Regular (w : Cluster ι) : ClusterStep ι → Prop
  | .boot _ launch => ∀ run ∈ actors.boot launch, Arrival w run
  | .act i a => ∀ run ∈ w.party i, Timely w run a

/-! ## One step of an actor -/

variable {w : Cluster ι} {run old : ServiceRun} {a : Environment × ServiceCommand}

theorem ServiceRun.Decides.of_consults {v : List Endpoint} (hv : v ∈ run.decisions a)
    (hconsults : a.2.consults = true) : run.Decides a v := by
  refine ⟨hv, ?_⟩
  intro v' reply happly
  rw [happly] at hconsults
  cases hconsults

theorem mem_run_decisions {v : List Endpoint} :
    v ∈ run.decisions a ↔ ∃ u, .decideViewChange u v ∈ calls (run.effects a.1 a.2) := by
  unfold ServiceRun.decisions
  rw [List.mem_map]
  constructor
  · rintro ⟨⟨u, v⟩, hmem, rfl⟩
    exact ⟨u, mem_calls.2 (mem_decisions.1 hmem)⟩
  · rintro ⟨u, hmem⟩
    exact ⟨(u, v), mem_decisions.2 (mem_calls.1 hmem), rfl⟩

theorem mem_run_proposals {v : List Endpoint} :
    v ∈ run.proposals a ↔ .propose v ∈ calls (run.effects a.1 a.2) := by
  unfold ServiceRun.proposals
  rw [List.mem_filterMap]
  constructor
  · rintro ⟨call, hmem, hcall⟩
    cases call with
    | propose proposal =>
        cases hcall
        exact hmem
    | _ => cases hcall
  · exact fun hmem => ⟨_, hmem, rfl⟩

/-- What an input is to the instance of a reachable actor. -/
theorem turn_next (hrun : serviceSystem.Reachable run) (a : Environment × ServiceCommand) :
    ∃ fp, Instated run.state fp ∧
      InstanceTurn a.1 a.2 run.state fp (run.effects a.1 a.2) (run.next a.1 a.2).state := by
  rcases instated_of_reachable hrun with ⟨fp, hfp⟩
  exact ⟨fp, hfp, turn_handleCommand a.1 a.2 hfp.present⟩

theorem setup_next (run : ServiceRun) (a : Environment × ServiceCommand) :
    SameSetup run.state (run.next a.1 a.2).state :=
  setup_handleCommand run.state a.1 a.2

/-- Only a decision changes the configuration. -/
theorem stays_or_decides (hrun : serviceSystem.Reachable run) (a : Environment × ServiceCommand) :
    run.state.view.Keeps (run.next a.1 a.2).state.view ∨
      run.decisions a ≠ [] ∧ (run.next a.1 a.2).state.Fresh := by
  rcases turn_next hrun a with ⟨fp, _, hturn⟩
  rcases hturn.stays_or_decides with hkeeps | ⟨⟨u, v, hcall⟩, hfresh⟩
  · exact .inl hkeeps
  · exact .inr ⟨List.ne_nil_of_mem (mem_run_decisions.2 ⟨u, hcall⟩), hfresh⟩

/-! ## Configurations are consistent -/

/-- In one configuration all list the same members, and one address has one set of settings. -/
def Agrees (run old : ServiceRun) : Prop :=
  old.configurationId = run.configurationId → old.state.memberlist = run.state.memberlist ∧
    (old.state.myAddr = run.state.myAddr → old.state.settings = run.state.settings)

def Consistent (w : Cluster ι) : Prop :=
  ∀ run old, Seen w run → Seen w old → Agrees run old

theorem Agrees.symm (h : Agrees run old) : Agrees old run := by
  intro hid
  rcases h hid.symm with ⟨hmembers, hsettings⟩
  exact ⟨hmembers.symm, fun haddr => (hsettings haddr.symm).symm⟩

theorem Agrees.refl (run : ServiceRun) : Agrees run run :=
  fun _ => ⟨rfl, fun _ => rfl⟩

theorem Arrival.agrees (h : Arrival w run) (hold : Seen w old) : Agrees run old := by
  intro hid
  rcases h old hold hid with ⟨haddr, hmembers⟩
  exact ⟨hmembers, fun hsame => absurd hsame haddr⟩

/-- An actor that stays in its configuration agrees with whom it agreed before. -/
theorem Agrees.stays (h : Agrees run old) (hkeeps : run.state.view.Keeps (run.next a.1 a.2).state.view) :
    Agrees (run.next a.1 a.2) old := by
  have hsetup := setup_next run a
  intro hid
  rcases h (hid.trans hkeeps.configurationId) with ⟨hmembers, hsettings⟩
  refine ⟨hmembers.trans (memberlist_of_keeps hkeeps).symm, ?_⟩
  intro haddr
  exact (hsettings (haddr.trans hsetup.myAddr)).trans hsetup.settings.symm

/-- One more state, which agrees with all the others. -/
theorem Consistent.extend {w' : Cluster ι} (h : Consistent w) (hseen : ∀ s, Seen w' s ↔ s = run ∨ Seen w s)
    (hrun : ∀ old, Seen w old → Agrees run old) : Consistent w' := by
  intro r old hr hold
  rcases (hseen r).1 hr with rfl | hr
  · rcases (hseen old).1 hold with rfl | hold
    · exact .refl _
    · exact hrun old hold
  · rcases (hseen old).1 hold with rfl | hold
    · exact (hrun r hr).symm
    · exact h r old hr hold

variable [DecidableEq ι]

theorem Consistent.reaches (h : (clusterSystem ι).Reaches Regular w) : Consistent w := by
  refine h.invariant ?_ ?_
  · intro w hw
    rw [show w = ⟨fun _ => none, [], []⟩ from hw]
    rintro run old (⟨e, he, _⟩ | ⟨i, hi⟩) _
    · cases he
    · cases hi
  · intro w l w' hw h hok hstep
    rcases step_labels hstep with ⟨i, launch, run, rfl, hnone, hboot, rfl⟩ |
      ⟨i, run, a, run', rfl, hi, _, hact, rfl⟩
    · have harrival : Arrival w run := hok run hboot
      exact h.extend (fun s => seen_bootParty hnone) fun old => harrival.agrees
    · have htimely : Timely w run a := hok run hi
      have hseen : Seen w run := .inr ⟨i, hi⟩
      rw [act_spec hact]
      refine h.extend (fun s => seen_record hi) fun old hold => ?_
      rcases stays_or_decides (reachable_of_seen hw hseen) a with hkeeps | ⟨hdecides, _⟩
      · exact (h run old hseen hold).stays hkeeps
      · exact (htimely.arrival hdecides).agrees hold

end Regular

/-! ## The instances of one configuration -/

section Instances

variable [Xxh64] {ι : Type*} {N : Nat} {c : ConfigurationId} {addr : Fin N → Endpoint}
  {delay : Fin N → Duration} {w : Cluster ι} {run : ServiceRun} {a : Environment × ServiceCommand}

/-- An actor of configuration `c` is the instance of its address. -/
def instanceRoles (c : ConfigurationId) (delay : Fin N → Duration) (hinj : Function.Injective addr) :
    Roles actors (fastNetwork c addr delay) where
  plays run i fp :=
    run.configurationId = c ∧ run.state.myAddr = addr i ∧ run.state.fastPaxos = some fp
  mine m := m.consensusId? = some c
  decides run a v := run.configurationId = c ∧ run.Decides a v
  fits issued i run :=
    (∃ jitter v, (i, FastCommand.propose jitter v) ∈ issued) → run.state.lifecycle ≠ .running
  astray := Astray addr
  plays_unique := by
    rintro run i j fp fp' ⟨_, haddr, hfp⟩ ⟨_, haddr', hfp'⟩
    exact ⟨hinj (haddr.symm.trans haddr'), Option.some.inj (hfp.symm.trans hfp')⟩
  fits_other := by
    rintro issued i j run command hji hfits ⟨jitter, v, hmem⟩
    rcases List.mem_append.1 hmem with hold | hnew
    · exact hfits ⟨jitter, v, hold⟩
    · cases List.mem_singleton.1 hnew
      exact absurd rfl hji

/-- The actor is reachable, and a member of configuration `c` if it is in it. -/
structure Fitting (c : ConfigurationId) (addr : Fin N → Endpoint) (delay : Fin N → Duration)
    (run : ServiceRun) : Prop where
  reachable : serviceSystem.Reachable run
  members : run.configurationId = c → run.state.memberlist = List.ofFn addr
  delay : run.configurationId = c → ∀ i, run.state.myAddr = addr i →
    run.state.settings.paxosFallbackBaseDelay = delay i

theorem Fitting.listed (h : Fitting c addr delay run) (hc : run.configurationId = c)
    (hlisted : run.Listed) : ∃ i, run.state.myAddr = addr i := by
  have hmem : run.state.myAddr ∈ List.ofFn addr := h.members hc ▸ hlisted
  rcases List.mem_ofFn.1 hmem with ⟨i, hi⟩
  exact ⟨i, hi.symm⟩

/-- A new instance is one of the network. -/
theorem Fitting.boot (h : Fitting c addr delay run) (hc : run.configurationId = c) {i : Fin N}
    (haddr : run.state.myAddr = addr i) (hfresh : run.state.Fresh) :
    run.state.fastPaxos = some ((fastNetwork c addr delay).boot i) := by
  have hsize : run.state.view.membershipSize = N := by
    calc
      run.state.view.membershipSize = run.state.view.ringZero.ordered.length :=
        (List.length_map Prod.snd).symm
      _ = run.state.memberlist.length := by rw [ServiceState.memberlist_eq]
      _ = N := by rw [h.members hc, List.length_ofFn]
  have hid : run.state.view.currentConfigurationId.2 = c := hc
  have hinstance : run.state.fastPaxos = some (FastPaxos.new run.state.myAddr
      run.state.view.currentConfigurationId.2 run.state.view.membershipSize
      run.state.settings.paxosFallbackBaseDelay) := hfresh
  rw [hinstance, haddr, hid, hsize, h.delay hc i haddr]
  rfl

variable (hinj : Function.Injective addr)

/-- An actor that comes into the configuration arrives at its instance. -/
theorem Arrival.arrives (h : Arrival w run) (hfit : Fitting c addr delay run)
    (hfresh : run.state.Fresh) {i : Fin N} {fp : FastPaxos}
    (hplays : (instanceRoles c delay hinj).plays run i fp) :
    (instanceRoles c delay hinj).Arrives w run i fp := by
  rcases hplays with ⟨hc, haddr, hfp⟩
  refine ⟨?_, ?_, ?_⟩
  · have hboot := hfit.boot hc haddr hfresh
    exact Option.some.inj (hfp.symm.trans hboot)
  · rintro old hold fp' ⟨hc', haddr', _⟩
    exact (h old hold (hc'.trans hc.symm)).1 (haddr'.trans haddr.symm)
  · rintro issued hnone ⟨jitter, v, hmem⟩
    exact absurd hmem (hnone _)

/-- After a decision the actor is somewhere else. -/
theorem Timely.leaves (h : Timely w run a) (hseen : Seen w run) (hdecides : run.decisions a ≠ []) :
    (run.next a.1 a.2).configurationId ≠ run.configurationId :=
  fun hid => (h.arrival hdecides run hseen hid.symm).1 (setup_next run a).myAddr.symm

/-- What the actor plays after a step it plays before, or it arrives. -/
theorem plays_next (htimely : Timely w run a) (hfit : Fitting c addr delay run)
    (hfit' : Fitting c addr delay (run.next a.1 a.2)) {i : Fin N} {fp : FastPaxos}
    (hplays : (instanceRoles c delay hinj).plays (run.next a.1 a.2) i fp) :
    (instanceRoles c delay hinj).Arrives w (run.next a.1 a.2) i fp ∨
      ∃ old, (instanceRoles c delay hinj).plays run i old := by
  rcases stays_or_decides hfit.reachable a with hkeeps | ⟨hdecides, hfresh⟩
  · rcases instated_of_reachable hfit.reachable with ⟨old, hold⟩
    rcases hplays with ⟨hc, haddr, _⟩
    exact .inr ⟨old, hkeeps.configurationId.symm.trans hc, (setup_next run a).myAddr.symm.trans haddr,
      hold.present⟩
  · exact .inl ((htimely.arrival hdecides).arrives hinj hfit' hfresh hplays)

/-- An actor that was removed is not called. -/
theorem Timely.unlisted (h : Timely w run a) (hunlisted : ¬ run.Listed) :
    (∀ v, .propose v ∉ calls (run.effects a.1 a.2)) ∧ a.2.consults = false := by
  refine ⟨?_, Bool.eq_false_iff.2 fun hconsults => hunlisted (h.listed (.inr hconsults))⟩
  intro v hcall
  exact hunlisted (h.listed (.inl (List.ne_nil_of_mem (mem_run_proposals.2 hcall))))

/-- An actor that is no instance of the network has no part in its runs. -/
theorem turn_outside (htimely : Timely w run a) (hfit : Fitting c addr delay run)
    (hfit' : Fitting c addr delay (run.next a.1 a.2))
    (hout : ∀ i fp, ¬ (instanceRoles c delay hinj).plays run i fp) :
    (instanceRoles c delay hinj).Turn ProposesInFastRound w run a (run.next a.1 a.2) := by
  rcases turn_next hfit.reachable a with ⟨fp, hfp, hturn⟩
  have hplays : ∀ i new, (instanceRoles c delay hinj).plays (run.next a.1 a.2) i new →
      (instanceRoles c delay hinj).Arrives w (run.next a.1 a.2) i new := by
    intro i new hnew
    rcases plays_next hinj htimely hfit hfit' hnew with harrives | ⟨old, hold⟩
    · exact harrives
    · exact absurd hold (hout i old)
  by_cases hc : run.configurationId = c
  · have hunlisted : ¬ run.Listed := by
      intro hlisted
      rcases hfit.listed hc hlisted with ⟨i, haddr⟩
      exact hout i fp ⟨hc, haddr, hfp.present⟩
    rcases htimely.unlisted hunlisted with ⟨hpropose, hcmd⟩
    rcases hturn.unconsulted hfp.present hpropose hcmd with hidle | ⟨⟨v, reply, happly⟩, hsent⟩
    · refine .rest (fun i new hnew => .inl (hplays i new hnew)) ?_ ?_
      · intro m hm hmine
        exact absurd ((hidle.sent m hm).symm.trans hmine) (by simp)
      · rintro v ⟨_, ⟨hdecides, _⟩⟩
        rcases mem_run_decisions.1 hdecides with ⟨u, hcall⟩
        exact hidle.undecided u v hcall
    · refine .rest (fun i new hnew => .inl (hplays i new hnew)) ?_ ?_
      · intro m hm
        have hnone : m ∈ ([] : List RapidRequest) := hsent ▸ hm
        cases hnone
      · rintro v' ⟨_, ⟨_, hgenuine⟩⟩
        exact hgenuine v reply happly
  · refine .rest (fun i new hnew => .inl (hplays i new hnew)) ?_ fun v hdecides => hc hdecides.1
    intro m hm hmine
    rcases hturn.stamped hfp m hm with hnone | hown
    · exact absurd (hnone.symm.trans hmine) (by simp)
    · exact hc (Option.some.inj (hown.symm.trans hmine))

/-- A command for the instance is an input of the network, or the instance does nothing. -/
theorem called_receives (htimely : Timely w run a) {i : Fin N} {fp : FastPaxos}
    (hplays : (instanceRoles c delay hinj).plays run i fp) (hfp : Instated run.state fp)
    {called : List Effect} {r : FastPaxos × List FastOutgoing} (hcall : InstanceCalled a.2 fp called r)
    (hrunning : ∀ new, (instanceRoles c delay hinj).plays (run.next a.1 a.2) i new →
      (run.next a.1 a.2).state.lifecycle = .running → run.state.lifecycle = .running) :
    (r = (fp, []) ∧ called = []) ∨ ∃ input,
      (instanceRoles c delay hinj).Receives w run a (run.next a.1 a.2) i input ∧
        (fastNetwork c addr delay).react fp input = FastPaxos.visible r ∧
          ∀ jitter v, input ≠ .inl (.propose jitter v) := by
  rcases hplays with ⟨hc, haddr, hinstance⟩
  have hconfig : fp.For c := by
    have hfor := hfp.config
    rwa [show run.state.view.currentConfigurationId.2 = c from hc] at hfor
  cases hcall with
  | message request reply hcmd =>
      by_cases hid : request.consensusId? = some c
      · have hdelivers : a.2.delivers? = some request := by
          rw [hcmd]
          exact if_pos (internal_of_consensus hid)
        refine .inr ⟨.inr request, ⟨hdelivers, hid, ?_, ?_⟩, rfl, fun jitter v heq => by cases heq⟩
        · rintro e he ⟨old, hc', haddr', _⟩
          exact htimely.once request hdelivers (by rw [hid]; rfl) e he (hc'.trans hc.symm)
            (haddr'.trans haddr.symm)
        · intro issued new hnew hfits hissued hnow
          exact hfits hissued (hrunning new hnew hnow)
      -- A message of another configuration is dropped by the instance.
      · exact .inl ⟨FastPaxos.handle_foreign hconfig hfp.settled hid, rfl⟩
  | classic hcmd =>
      refine .inr ⟨.inl .startClassicRound, ?_, rfl, fun jitter v heq => by cases heq⟩
      intro issued hfits
      refine ⟨rfl, ?_⟩
      rintro new hnew ⟨jitter, v, hmem⟩ hnow
      refine hfits ⟨jitter, v, ?_⟩ (hrunning new hnew hnow)
      rcases List.mem_append.1 hmem with hold | hlast
      · exact hold
      · cases List.mem_singleton.1 hlast

/-- Whatever an actor is afterwards, it has the same address. -/
theorem plays_kept {i j : Fin N} {fp new : FastPaxos}
    (hplays : (instanceRoles c delay hinj).plays run i fp)
    (hnew : (instanceRoles c delay hinj).plays (run.next a.1 a.2) j new) :
    j = i ∧ (run.next a.1 a.2).state.fastPaxos = some new := by
  rcases hplays with ⟨_, haddr, _⟩
  rcases hnew with ⟨_, haddr', hpresent⟩
  exact ⟨hinj (haddr'.symm.trans ((setup_next run a).myAddr.trans haddr)), hpresent⟩

/-- After a decision it is in another configuration. -/
theorem not_plays_of_decided (htimely : Timely w run a) (hseen : Seen w run)
    (hc : run.configurationId = c) (hdecides : run.decisions a ≠ []) (j : Fin N) (new : FastPaxos) :
    ¬ (instanceRoles c delay hinj).plays (run.next a.1 a.2) j new := by
  rintro ⟨hc', _⟩
  exact htimely.leaves hseen hdecides (hc'.trans hc.symm)

/-- A command that leaves the instance alone is no turn of the network. -/
theorem Uninvolved.turn {i : Fin N} {fp : FastPaxos}
    (hidle : Uninvolved run.state (run.effects a.1 a.2) (run.next a.1 a.2).state)
    (hplays : (instanceRoles c delay hinj).plays run i fp) :
    (instanceRoles c delay hinj).Turn ProposesInFastRound w run a (run.next a.1 a.2) := by
  refine .rest ?_ ?_ ?_
  · intro j new hnew
    rcases plays_kept hinj hplays hnew with ⟨rfl, hpresent⟩
    refine .inr ⟨⟨hplays.1, hplays.2.1, hidle.fastPaxos.symm.trans hpresent⟩, ?_⟩
    exact fun issued hfits hissued hnow => hfits hissued (hidle.running hnow)
  · intro m hm hmine
    exact absurd ((hidle.sent m hm).symm.trans hmine) (by simp)
  · rintro v ⟨_, ⟨hdecides, _⟩⟩
    rcases mem_run_decisions.1 hdecides with ⟨u, hcall⟩
    exact hidle.undecided u v hcall

omit [Xxh64] in
theorem proposesInFastRound_of_ne {i : Fin N} {input : FastCommand ⊕ RapidRequest}
    (hinput : ∀ jitter v, input ≠ .inl (.propose jitter v)) (t : FastWorld N) :
    ProposesInFastRound t (Protocol.reactLabel i input) := by
  cases input with
  | inr m => trivial
  | inl command =>
      cases command with
      | startClassicRound => trivial
      | propose jitter v => exact absurd rfl (hinput jitter v)

/-- What a member does is a reaction of its instance, or nothing. -/
theorem turn_member (htimely : Timely w run a) (hseen : Seen w run) (hfit : Fitting c addr delay run)
    {i : Fin N} {fp : FastPaxos} (hplays : (instanceRoles c delay hinj).plays run i fp) :
    (instanceRoles c delay hinj).Turn ProposesInFastRound w run a (run.next a.1 a.2) := by
  rcases turn_next hfit.reachable a with ⟨fp', hfp, hturn⟩
  cases Option.some.inj (hplays.2.2.symm.trans hfp.present)
  have hleaves : run.decisions a ≠ [] →
      ∀ j new, ¬ (instanceRoles c delay hinj).plays (run.next a.1 a.2) j new :=
    not_plays_of_decided hinj htimely hseen hplays.1
  cases hturn with
  | uninvolved hidle => exact hidle.turn hinj hplays
  | announced msg reply hcmd hproposal hview hbefore hafter hinstance hsent hcalls =>
      have hannounced : run.proposals a ≠ [] := by
        refine List.ne_nil_of_mem (a := (run.state.handleBatchedAlerts a.1 msg).2) ?_
        rw [mem_run_proposals, hcalls]
        exact List.mem_cons_self
      refine .react i fp (.inl (.propose a.1.jitter (run.state.handleBatchedAlerts a.1 msg).2)) hplays
        ?_ ?_ (fun m hm _ => emitted_visible (hsent m hm)) ?_ ?_
      · intro issued hfits
        refine ⟨?_, fun new _ _ hnow => ?_⟩
        · -- Nothing was proposed before, since the actor is still running.
          have hfirst : ∀ p ∈ issued, ¬ (p.1 = i ∧ p.2.isPropose = true) := by
            rintro ⟨j, command⟩ hmem ⟨rfl, hpropose⟩
            cases command with
            | startClassicRound => cases hpropose
            | propose jitter v => exact hfits ⟨jitter, v, hmem⟩ hbefore
          simpa [fastNetwork, hproposal] using hfirst
        · rw [hafter] at hnow
          cases hnow
      · intro j new hnew
        rcases plays_kept hinj hplays hnew with ⟨rfl, hpresent⟩
        exact ⟨rfl, Option.some.inj (hpresent.symm.trans hinstance)⟩
      · rintro v ⟨_, ⟨hdecides, _⟩⟩
        rcases mem_run_decisions.1 hdecides with ⟨u, hcall⟩
        rw [hcalls] at hcall
        cases List.mem_singleton.1 hcall
      · rintro t rfl
        exact htimely.round hannounced _ hplays.2.2
  | answered called r hcall hsends hstate hsent hcalls =>
      have hnone : ∀ v, ¬ run.Decides a v := by
        rintro v ⟨hdecides, _⟩
        rcases mem_run_decisions.1 hdecides with ⟨u, hdecided⟩
        rw [hcalls] at hdecided
        exact hcall.undecided u v hdecided
      rcases called_receives hinj htimely hplays hfp hcall (fun new _ hnow => by rwa [hstate] at hnow)
        with ⟨rfl, rfl⟩ | ⟨input, hreceives, hreact, hinput⟩
      · exact (uninvolved_of_idle hfp.present hstate hsent hcalls).turn hinj hplays
      · refine .react i fp input hplays hreceives ?_ ?_ (fun v hdecides => absurd hdecides.2 (hnone v))
          fun t _ => proposesInFastRound_of_ne hinput t
        · intro j new hnew
          rcases plays_kept hinj hplays hnew with ⟨rfl, hpresent⟩
          rw [hstate] at hpresent
          rw [hreact]
          exact ⟨rfl, (Option.some.inj hpresent).symm⟩
        · intro m hm _
          rw [hreact]
          exact emitted_visible (hsent m hm)
  | decided called r proposal hcall houts hstate hsent hcalls =>
      have hdecided : ∀ u v, .decideViewChange u v ∈ calls (run.effects a.1 a.2) → v = proposal := by
        intro u v hmem
        rw [hcalls] at hmem
        rcases List.mem_append.1 hmem with hold | hnew
        · exact absurd hold (hcall.undecided u v)
        · simp only [List.mem_cons, List.not_mem_nil, or_false, reduceCtorEq] at hnew
          cases hnew
          rfl
      have hcalled : .decideViewChange { run.state with fastPaxos := some r.1 } proposal ∈
          calls (run.effects a.1 a.2) := by
        rw [hcalls]
        exact List.mem_append_right _ List.mem_cons_self
      have hdecides : run.decisions a ≠ [] := List.ne_nil_of_mem (mem_run_decisions.2 ⟨_, hcalled⟩)
      rcases called_receives hinj htimely hplays hfp hcall
        (fun new hnew => absurd hnew (hleaves hdecides i new)) with ⟨rfl, _⟩ | ⟨input, hreceives, hreact, hinput⟩
      · cases houts
      · refine .react i fp input hplays hreceives
          (fun j new hnew => absurd hnew (hleaves hdecides j new)) ?_ ?_ fun t _ => proposesInFastRound_of_ne hinput t
        · intro m hm _
          have hmem : m ∈ ([] : List RapidRequest) := hsent ▸ hm
          cases hmem
        · rintro v ⟨_, ⟨hmem, _⟩⟩
          rcases mem_run_decisions.1 hmem with ⟨u, hcalled⟩
          rw [hdecided u v hcalled, hreact]
          refine List.mem_filterMap.2 ⟨.decision proposal, ?_, rfl⟩
          rw [houts]
          exact List.mem_cons_self
  | injected proposal reply hcmd hstate hsent hcalls =>
      -- `ApplyProposal` decides without the instance: the actor leaves the network.
      have hdecides : run.decisions a ≠ [] :=
        List.ne_nil_of_mem (a := proposal) (mem_run_decisions.2 ⟨_, hcalls⟩)
      refine .rest (fun j new hnew => absurd hnew (hleaves hdecides j new)) ?_ ?_
      · intro m hm
        have hmem : m ∈ ([] : List RapidRequest) := hsent ▸ hm
        cases hmem
      · rintro v ⟨_, ⟨_, hgenuine⟩⟩
        exact hgenuine proposal reply hcmd

/-! ## Whole runs -/

variable [DecidableEq ι]

/-- Whoever decides by consensus is a member. -/
theorem listed_of_decides (hw : (clusterSystem ι).Reaches Regular w) {e : Handled ι} (he : e ∈ w.past)
    {v : List Endpoint} (hdecides : e.state.Decides e.input v) : e.state.Listed := by
  rcases taken_of_past hw e he with ⟨before, hbefore, hok, hparty⟩
  have htimely : Timely before e.state e.input := hok e.state hparty
  rcases turn_next (reachable_of_seen hbefore (.inr ⟨e.party, hparty⟩)) e.input with ⟨fp, hfp, hturn⟩
  by_contra hunlisted
  rcases htimely.unlisted hunlisted with ⟨hpropose, hcmd⟩
  rcases hturn.unconsulted hfp.present hpropose hcmd with hidle | ⟨⟨u, reply, happly⟩, _⟩
  · rcases mem_run_decisions.1 hdecides.1 with ⟨u, hcall⟩
    exact hidle.undecided u v hcall
  · exact hdecides.2 u reply happly

/-- Every step of a regular run is a turn of the network of the configuration. -/
theorem sound_of_regular (hindex : Function.Injective fun i => stableNodeIndex (addr i)) :
    (instanceRoles c delay hinj).Sound (Regular (ι := ι)) ProposesInFastRound
      (Fitting c addr delay) where
  boot := by
    intro w p launch run hok hboot hfit i fp hplays
    rcases boot_spec hboot with ⟨outcome, hboots, rfl⟩
    have harrival : Arrival w _ := hok _ hboot
    exact harrival.arrives hinj hfit hboots.fresh hplays
  turn := by
    intro w p a run run' hw hok hp hstep hfit hfit'
    have htimely : Timely w run a := hok run hp
    cases act_spec hstep
    by_cases hplays : ∃ i fp, (instanceRoles c delay hinj).plays run i fp
    · rcases hplays with ⟨i, fp, hplays⟩
      exact turn_member hinj htimely (.inr ⟨p, hp⟩) hfit hplays
    · exact turn_outside hinj htimely hfit hfit' fun i fp h => hplays ⟨i, fp, h⟩
  astray ht hlost := react_astray hindex ht hlost
  addressed ht havail := addressed_of_react hinj ht havail

end Instances

/-! ## Agreement -/

section Results

variable [Xxh64] {ι : Type*} [DecidableEq ι] {w : Cluster ι} {run : ServiceRun}

omit [DecidableEq ι] in
/-- The fallback delays of the members, as far as they have come into the configuration. -/
theorem exists_delays (h : Consistent w) (c : ConfigurationId) {N : Nat} (addr : Fin N → Endpoint) :
    ∃ delay : Fin N → Duration, ∀ i old, Seen w old → old.configurationId = c →
      old.state.myAddr = addr i → old.state.settings.paxosFallbackBaseDelay = delay i := by
  have hone : ∀ i, ∃ d, ∀ old, Seen w old → old.configurationId = c → old.state.myAddr = addr i →
      old.state.settings.paxosFallbackBaseDelay = d := by
    intro i
    by_cases hfirst : ∃ first, Seen w first ∧ first.configurationId = c ∧ first.state.myAddr = addr i
    · rcases hfirst with ⟨first, hseen, hc, haddr⟩
      refine ⟨first.state.settings.paxosFallbackBaseDelay, ?_⟩
      intro old hold hc' haddr'
      have hsettings := (h first old hseen hold (hc'.trans hc.symm)).2 (haddr'.trans haddr.symm)
      rw [hsettings]
    · refine ⟨0, ?_⟩
      intro old hold hc haddr
      exact absurd ⟨old, hold, hc, haddr⟩ hfirst
  choose delay hdelay using hone
  exact ⟨delay, hdelay⟩

theorem injective_of_nodup_map {l : List Endpoint} (h : (l.map stableNodeIndex).Nodup) :
    Function.Injective fun i => stableNodeIndex (l.get i) := by
  intro i j hij
  have hget : l.get i = l.get j := List.inj_on_of_nodup_map h (l.get_mem i) (l.get_mem j) hij
  exact List.nodup_iff_injective_get.1 (List.Nodup.of_map _ h) hget

theorem get_injective {l : List Endpoint} (h : (l.map stableNodeIndex).Nodup) :
    Function.Injective l.get :=
  fun _ _ hij => injective_of_nodup_map h (congrArg stableNodeIndex hij)

/-- The network of the members of a configuration has a run that the actors in it mirror. -/
theorem mirrors_of_regular (hw : (clusterSystem ι).Reaches Regular w) (hrun : Seen w run)
    (hindex : (run.state.memberlist.map stableNodeIndex).Nodup) :
    ∃ (delay : Fin run.state.memberlist.length → Duration)
      (t : FastWorld run.state.memberlist.length),
      (∀ old, Seen w old → Fitting run.configurationId run.state.memberlist.get delay old) ∧
        (fastNetwork run.configurationId run.state.memberlist.get delay).system.Reaches
          ProposesInFastRound t ∧
        (instanceRoles run.configurationId delay (get_injective hindex)).Mirrors w t := by
  have hconsistent : Consistent w := .reaches hw
  rcases exists_delays hconsistent run.configurationId run.state.memberlist.get with ⟨delay, hdelay⟩
  have hfit : ∀ old, Seen w old → Fitting run.configurationId run.state.memberlist.get delay old := by
    intro old hold
    refine ⟨reachable_of_seen hw hold, ?_, fun hc i haddr => hdelay i old hold hc haddr⟩
    intro hc
    rw [List.ofFn_get]
    exact (hconsistent run old hrun hold hc).1
  have hsound : (instanceRoles run.configurationId delay (get_injective hindex)).Sound
      (Regular (ι := ι)) ProposesInFastRound
      (Fitting run.configurationId run.state.memberlist.get delay) :=
    sound_of_regular _ (injective_of_nodup_map hindex)
  rcases hsound.mirrors hw hfit with ⟨t, ht, hmirrors⟩
  exact ⟨delay, t, hfit, ht, hmirrors⟩

/-- What an actor decides is decided in a network that it mirrors. -/
theorem decision_of_mirrors (hw : (clusterSystem ι).Reaches Regular w) {c : ConfigurationId} {N : Nat}
    {addr : Fin N → Endpoint} {delay : Fin N → Duration} {hinj : Function.Injective addr}
    {t : FastWorld N} (hfit : ∀ old, Seen w old → Fitting c addr delay old)
    (hmirrors : (instanceRoles c delay hinj).Mirrors w t) {e : Handled ι} (he : e ∈ w.past)
    (hc : e.state.configurationId = c) {v : List Endpoint} (hdecides : e.state.Decides e.input v) :
    ∃ i, e.state.state.myAddr = addr i ∧ (i, v) ∈ t.decisions := by
  have hseen : Seen w e.state := .inl ⟨e, he, rfl⟩
  rcases (hfit e.state hseen).listed hc (listed_of_decides hw he hdecides) with ⟨i, haddr⟩
  rcases instated_of_reachable (reachable_of_seen hw hseen) with ⟨fp, hfp⟩
  exact ⟨i, haddr, hmirrors.decided e he i fp v ⟨hc, haddr, hfp.present⟩ ⟨hc, hdecides⟩⟩

/-- In a regular run every configuration whose members have different node indices runs the network of
its members: each actor in it is the instance of its address, and each decision in it is one of the
network. -/
theorem instances_mirror (hw : (clusterSystem ι).Reaches Regular w) (hrun : Seen w run)
    (hindex : (run.state.memberlist.map stableNodeIndex).Nodup) :
    ∃ (delay : Fin run.state.memberlist.length → Duration)
      (t : FastWorld run.state.memberlist.length),
      (fastNetwork run.configurationId run.state.memberlist.get delay).system.Reaches
          ProposesInFastRound t ∧
        (∀ p other, w.party p = some other → other.configurationId = run.configurationId →
          ∀ i, other.state.myAddr = run.state.memberlist.get i →
            other.state.fastPaxos = some (t.nodes i)) ∧
        ∀ e ∈ w.past, e.state.configurationId = run.configurationId → ∀ v,
          e.state.Decides e.input v →
            ∃ i, e.state.state.myAddr = run.state.memberlist.get i ∧ (i, v) ∈ t.decisions := by
  rcases mirrors_of_regular hw hrun hindex with ⟨delay, t, hfit, ht, hmirrors⟩
  refine ⟨delay, t, ht, ?_, ?_⟩
  · intro p other hp hc i haddr
    rcases instated_of_reachable (reachable_of_seen hw (.inr ⟨p, hp⟩)) with ⟨fp, hfp⟩
    rw [(hmirrors.node p other i fp hp ⟨hc, haddr, hfp.present⟩).1]
    exact hfp.present
  · exact fun e he hc v hdecides => decision_of_mirrors hw hfit hmirrors he hc hdecides

/-- Decisions of one configuration agree if the members in the view of some actor in it have different
node indices. -/
theorem decisions_of_one (hw : (clusterSystem ι).Reaches Regular w) (hrun : Seen w run)
    (hindex : (run.state.memberlist.map stableNodeIndex).Nodup) {e e' : Handled ι} (he : e ∈ w.past)
    (he' : e' ∈ w.past) (hc : e.state.configurationId = run.configurationId)
    (hc' : e'.state.configurationId = run.configurationId) {v v' : List Endpoint}
    (hv : e.state.Decides e.input v) (hv' : e'.state.Decides e'.input v') : v = v' := by
  have hindex' := injective_of_nodup_map hindex
  rcases mirrors_of_regular hw hrun hindex with ⟨delay, t, hfit, ht, hmirrors⟩
  rcases decision_of_mirrors hw hfit hmirrors he hc hv with ⟨i, _, hd⟩
  rcases decision_of_mirrors hw hfit hmirrors he' hc' hv' with ⟨j, _, hd'⟩
  have hI : FastInv _ t := .reaches ht
  have h : Reports _ t := .reaches (get_injective hindex) ht
  rcases Refines.reaches ht with ⟨u, hu, hR⟩
  have hC : ClassicInv _ u := .reaches (get_injective hindex) hu
  -- Two classic decisions agree by their quorums, two fast ones by theirs, and a classic one picks up
  -- what a fast quorum has chosen.
  rcases hR.decided _ hd with hclassic | hfast
  · rcases hR.decided _ hd' with hclassic' | hfast'
    · exact hC.decided_agree hindex' (hC.decided _ hclassic) (hC.decided _ hclassic')
    · exact h.decided_eq hI hR hC hindex' hfast' hclassic
  · rcases hR.decided _ hd' with hclassic' | hfast'
    · exact (h.decided_eq hI hR hC hindex' hfast hclassic').symm
    · exact hI.fastDecided_unique (get_injective hindex) (Fin.pos i) hfast hfast'

/-- Two members that decide in one configuration decide the same cut. -/
theorem members_agree (hw : (clusterSystem ι).Reaches Regular w) {e e' : Handled ι} (he : e ∈ w.past)
    (he' : e' ∈ w.past) (hsame : e'.state.configurationId = e.state.configurationId)
    (hindex : (e.state.state.memberlist.map stableNodeIndex).Nodup) {v v' : List Endpoint}
    (hv : e.state.Decides e.input v) (hv' : e'.state.Decides e'.input v') : v = v' := by
  have hseen : Seen w e.state := .inl ⟨e, he, rfl⟩
  exact decisions_of_one hw hseen hindex he he' rfl hsame hv hv'

end Results

/-! ### Two members let a third one in -/

section Guards

variable [Xxh64] {ι : Type*} [Fintype ι]

instance (w : Cluster ι) (run : ServiceRun) : Decidable (Arrival w run) :=
  decidable_of_iff ((∀ e ∈ w.past, run.Distinct e.state) ∧ ∀ i, ∀ old ∈ w.party i, run.Distinct old) (by
    constructor
    · rintro ⟨hpast, hparty⟩ old (⟨e, he, rfl⟩ | ⟨i, hi⟩)
      · exact hpast e he
      · exact hparty i old hi
    · intro h
      exact ⟨fun e he => h _ (.inl ⟨e, he, rfl⟩), fun i old hi => h old (.inr ⟨i, hi⟩)⟩)

instance (w : Cluster ι) (run : ServiceRun) (a : Environment × ServiceCommand) :
    Decidable (Timely w run a) :=
  decidable_of_iff' _ (timely_iff w run a)

instance (w : Cluster ι) (l : ClusterStep ι) : Decidable (Regular w l) :=
  match l with
  | .boot _ launch => inferInstanceAs (Decidable (∀ run ∈ actors.boot launch, Arrival w run))
  | .act i a => inferInstanceAs (Decidable (∀ run ∈ w.party i, Timely w run a))

end Guards

section Sample

attribute [local instance] xxh64Reference

def twinCluster : Option (Cluster Bool) :=
  (actors.boot (twin hostA)).bind fun run =>
    (clusterSystem Bool).execWhile Regular ⟨fun _ => none, [], []⟩ (twinSteps run.state)

theorem twinCluster_regular {w : Cluster Bool} (h : twinCluster = some w) :
    (clusterSystem Bool).Reaches Regular w := by
  rcases Option.bind_eq_some_iff.1 h with ⟨run, _, hexec⟩
  exact (System.Reaches.start rfl).execWhile hexec

theorem twinCluster_facts :
    (twinCluster.bind fun w => w.past[5]?.bind fun e => w.past[7]?.map fun e' =>
      (e.state.decisions e.input, e'.state.decisions e'.input, e.input.2.consults, e'.input.2.consults,
        decide (e'.state.configurationId = e.state.configurationId),
        decide (e.state.state.memberlist.map stableNodeIndex).Nodup)) =
      some ([[hostC]], [[hostC]], true, true, true, true) := by
  decide +kernel

/-- The configuration of the two is mirrored in the network. -/
theorem twinCluster_mirror :
    ∃ (w : Cluster Bool) (run : ServiceRun) (delay : Fin run.state.memberlist.length → Duration)
      (t : FastWorld run.state.memberlist.length), twinCluster = some w ∧
      (fastNetwork run.configurationId run.state.memberlist.get delay).system.Reaches
          ProposesInFastRound t ∧
        ∃ e ∈ w.past, e.state.Decides e.input [hostC] ∧ ∃ i, (i, [hostC]) ∈ t.decisions := by
  rcases Option.bind_eq_some_iff.1 twinCluster_facts with ⟨w, hw, hrest⟩
  rcases Option.bind_eq_some_iff.1 hrest with ⟨e, he, hrest⟩
  rcases Option.map_eq_some_iff.1 hrest with ⟨e', _, hfacts⟩
  simp only [Prod.mk.injEq, decide_eq_true_eq] at hfacts
  rcases hfacts with ⟨hdecisions, _, hconsults, _, _, hindex⟩
  have hpast := List.mem_of_getElem? he
  have hdecides := ServiceRun.Decides.of_consults (hdecisions ▸ List.mem_cons_self) hconsults
  rcases instances_mirror (twinCluster_regular hw) (.inl ⟨e, hpast, rfl⟩) hindex with
    ⟨delay, t, ht, _, hdecided⟩
  rcases hdecided e hpast rfl [hostC] hdecides with ⟨i, _, hi⟩
  exact ⟨w, e.state, delay, t, hw, ht, e, hpast, hdecides, i, hi⟩

/-- Both let `hostC` in. -/
theorem twinCluster_agree :
    ∃ (w : Cluster Bool) (e e' : Handled Bool) (v v' : List Endpoint), twinCluster = some w ∧
      e ∈ w.past ∧ e' ∈ w.past ∧ e.state.Decides e.input v ∧ e'.state.Decides e'.input v' ∧ v = v' := by
  rcases Option.bind_eq_some_iff.1 twinCluster_facts with ⟨w, hw, hrest⟩
  rcases Option.bind_eq_some_iff.1 hrest with ⟨e, he, hrest⟩
  rcases Option.map_eq_some_iff.1 hrest with ⟨e', he', hfacts⟩
  simp only [Prod.mk.injEq, decide_eq_true_eq] at hfacts
  rcases hfacts with ⟨hdecisions, hdecisions', hconsults, hconsults', hsame, hindex⟩
  have hdecides := ServiceRun.Decides.of_consults (hdecisions ▸ List.mem_cons_self) hconsults
  have hdecides' := ServiceRun.Decides.of_consults (hdecisions' ▸ List.mem_cons_self) hconsults'
  have hpast := List.mem_of_getElem? he
  have hpast' := List.mem_of_getElem? he'
  exact ⟨w, e, e', _, _, hw, hpast, hpast', hdecides, hdecides',
    members_agree (twinCluster_regular hw) hpast hpast' hsame hindex hdecides hdecides'⟩

end Sample

end Rapid
