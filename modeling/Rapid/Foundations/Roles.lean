import Rapid.Foundations.Network
import Rapid.Foundations.Swarm

/-!
# Roles — the parties of a swarm as the machines of a protocol

A party of a swarm may take part in several protocols, one after the other. `Roles` says when a party
plays a machine of one of them, and `Turn` what a step of the party is to that machine: it rests, it
arrives at a machine that nobody has played before, or the machine reacts.

If every step is such a turn, every run of the swarm is a run of the network of the protocol
(`Sound.mirrors`), in which messages are delivered at most once. What is known of the network then
holds of the swarm.
-/

namespace Foundations

open Swarm

variable {ι β σ α μ A S V C : Type*} {N : Nat}

/-- How the parties of a swarm take part in a protocol. -/
structure Roles (P : Swarm β σ α μ) (Q : Protocol N A S μ V C) where
  /-- The party is this machine, in this state. -/
  plays : σ → Fin N → S → Prop
  /-- The messages of the protocol; parties may send each other other messages, too. -/
  mine : μ → Prop
  /-- The party decides this value on this input. -/
  decides : σ → α → V → Prop
  /-- The state of the party agrees with the commands that its machine was given. -/
  fits : List (Fin N × C) → Fin N → σ → Prop
  /-- The message was sent to another machine than this one. -/
  astray : Fin N → μ → Prop
  plays_unique : ∀ {s i j m n}, plays s i m → plays s j n → i = j ∧ m = n
  fits_other : ∀ {issued i j s c}, j ≠ i → fits issued j s → fits (issued ++ [(i, c)]) j s

namespace Roles

variable {P : Swarm β σ α μ} {Q : Protocol N A S μ V C} (R : Roles P Q)

/-! ## Turns -/

/-- A party that starts to play this machine is the first to do so. -/
structure Arrives (w : SwarmWorld ι σ α μ) (s : σ) (i : Fin N) (m : S) : Prop where
  boot : m = Q.boot i
  first : ∀ old, Seen w old → ∀ n, ¬ R.plays old i n
  fits : ∀ issued, (∀ c, (i, c) ∉ issued) → R.fits issued i s

/-- No party was handed this message while it played this machine. -/
def Unhanded (w : SwarmWorld ι σ α μ) (i : Fin N) (msg : μ) : Prop :=
  ∀ e ∈ w.past, (∃ m, R.plays e.state i m) → P.delivers e.input ≠ some msg

/-- What the machine receives when the party takes the input. -/
def Receives (w : SwarmWorld ι σ α μ) (s : σ) (a : α) (s' : σ) (i : Fin N) : C ⊕ μ → Prop
  | .inl c => ∀ issued, R.fits issued i s →
      Q.enabled issued i c = true ∧ ∀ m, R.plays s' i m → R.fits (issued ++ [(i, c)]) i s'
  | .inr msg => P.delivers a = some msg ∧ R.mine msg ∧ R.Unhanded w i msg ∧
      ∀ issued m, R.plays s' i m → R.fits issued i s → R.fits issued i s'

variable (okQ : World N S μ V C → NetAction N μ C → Prop)

/-- What a step of a party may be to the protocol. -/
inductive Turn (w : SwarmWorld ι σ α μ) (s : σ) (a : α) (s' : σ) : Prop
  | rest
      (hplays : ∀ i m, R.plays s' i m → R.Arrives w s' i m ∨
        R.plays s i m ∧ ∀ issued, R.fits issued i s → R.fits issued i s')
      (hsends : ∀ msg ∈ P.sends s a, ¬ R.mine msg)
      (hdecides : ∀ v, ¬ R.decides s a v) : Turn w s a s'
  | react (i : Fin N) (m : S) (input : C ⊕ μ) (hplays : R.plays s i m)
      (hreceives : R.Receives w s a s' i input)
      (hkeeps : ∀ j n, R.plays s' j n → j = i ∧ n = (Q.react m input).1)
      (hsends : ∀ msg ∈ P.sends s a, R.mine msg →
        ∃ e ∈ (Q.react m input).2, e.message? = some msg)
      (hdecides : ∀ v, R.decides s a v → .decision v ∈ (Q.react m input).2)
      (hok : ∀ t : World N S μ V C, t.nodes i = m → okQ t (Protocol.reactLabel i input)) :
      Turn w s a s'

/-! ## The mirror of a run -/

/-- `t` is what the swarm looks like to the protocol. -/
structure Mirrors (w : SwarmWorld ι σ α μ) (t : World N S μ V C) : Prop where
  node : ∀ p s i m, w.party p = some s → R.plays s i m → t.nodes i = m ∧ R.fits t.issued i s
  unplayed : ∀ i, (∀ s, Seen w s → ∀ m, ¬ R.plays s i m) →
    t.nodes i = Q.boot i ∧ ∀ c, (i, c) ∉ t.issued
  single : ∀ p q s s' i m m', w.party p = some s → w.party q = some s' → R.plays s i m →
    R.plays s' i m' → p = q
  wire : ∀ msg ∈ w.wire, R.mine msg → ∀ i, R.Unhanded w i msg →
    (i, msg) ∈ t.inflight ∨ R.astray i msg
  decided : ∀ e ∈ w.past, ∀ i m v, R.plays e.state i m → R.decides e.state e.input v →
    (i, v) ∈ t.decisions

variable {R okQ} {w : SwarmWorld ι σ α μ} {t : World N S μ V C} {p : ι} {s s' : σ} {a : α}

theorem Unhanded.of_record [DecidableEq ι] {i : Fin N} {msg : μ}
    (h : R.Unhanded (P.record w p s a s') i msg) : R.Unhanded w i msg :=
  fun e he => h e (List.mem_append_left _ he)

section Mirrors

variable [DecidableEq ι]

theorem Mirrors.boot (h : R.Mirrors w t) (hnone : w.party p = none)
    (harrives : ∀ i m, R.plays s i m → R.Arrives w s i m) : R.Mirrors (bootParty w p s) t := by
  have hparty : ∀ q u, (bootParty w p s).party q = some u →
      q = p ∧ u = s ∨ q ≠ p ∧ w.party q = some u := fun q u hq => update_cases hq
  refine ⟨?_, ?_, ?_, h.wire, h.decided⟩
  · intro q u i m hq hplays
    rcases hparty q u hq with ⟨rfl, rfl⟩ | ⟨_, hold⟩
    · have harrive := harrives i m hplays
      rcases h.unplayed i harrive.first with ⟨hnode, hissued⟩
      exact ⟨hnode.trans harrive.boot.symm, harrive.fits _ hissued⟩
    · exact h.node q u i m hold hplays
  · intro i hfirst
    exact h.unplayed i fun u hu => hfirst u ((seen_bootParty hnone).2 (.inr hu))
  · intro q r u u' i m m' hq hr hplays hplays'
    rcases hparty q u hq with ⟨rfl, rfl⟩ | ⟨_, hold⟩
    · rcases hparty r u' hr with ⟨rfl, rfl⟩ | ⟨_, hold'⟩
      · rfl
      · exact absurd hplays' ((harrives i m hplays).first u' (.inr ⟨r, hold'⟩) m')
    · rcases hparty r u' hr with ⟨rfl, rfl⟩ | ⟨_, hold'⟩
      · exact absurd hplays ((harrives i m' hplays').first u (.inr ⟨q, hold⟩) m)
      · exact h.single q r u u' i m m' hold hold' hplays hplays'

/-- The network stands still while the party rests. -/
theorem Mirrors.rest (h : R.Mirrors w t) (hp : w.party p = some s)
    (hplays : ∀ i m, R.plays s' i m → R.Arrives w s' i m ∨
      R.plays s i m ∧ ∀ issued, R.fits issued i s → R.fits issued i s')
    (hsends : ∀ msg ∈ P.sends s a, ¬ R.mine msg) (hdecides : ∀ v, ¬ R.decides s a v) :
    R.Mirrors (P.record w p s a s') t := by
  have hparty : ∀ q u, (P.record w p s a s').party q = some u →
      q = p ∧ u = s' ∨ q ≠ p ∧ w.party q = some u := fun q u hq => update_cases hq
  -- Nobody else plays the machine that the party plays now.
  have hothers : ∀ q u i m m', q ≠ p → w.party q = some u → R.plays s' i m → ¬ R.plays u i m' := by
    intro q u i m m' hqp hq hnew hold
    rcases hplays i m hnew with harrive | ⟨hkept, _⟩
    · exact harrive.first u (.inr ⟨q, hq⟩) m' hold
    · exact hqp (h.single q p u s i m' m hq hp hold hkept)
  refine ⟨?_, ?_, ?_, ?_, ?_⟩
  · intro q u i m hq hnow
    rcases hparty q u hq with ⟨rfl, rfl⟩ | ⟨_, hold⟩
    · rcases hplays i m hnow with harrive | ⟨hkept, hfits⟩
      · rcases h.unplayed i harrive.first with ⟨hnode, hissued⟩
        exact ⟨hnode.trans harrive.boot.symm, harrive.fits _ hissued⟩
      · rcases h.node q s i m hp hkept with ⟨hnode, hfit⟩
        exact ⟨hnode, hfits _ hfit⟩
    · exact h.node q u i m hold hnow
  · intro i hfirst
    exact h.unplayed i fun u hu => hfirst u ((seen_record hp).2 (.inr hu))
  · intro q r u u' i m m' hq hr hnow hnow'
    rcases hparty q u hq with ⟨rfl, rfl⟩ | ⟨hqp, hold⟩
    · rcases hparty r u' hr with ⟨rfl, rfl⟩ | ⟨hrp, hold'⟩
      · rfl
      · exact absurd hnow' (hothers r u' i m m' hrp hold' hnow)
    · rcases hparty r u' hr with ⟨rfl, rfl⟩ | ⟨_, hold'⟩
      · exact absurd hnow (hothers q u i m' m hqp hold hnow')
      · exact h.single q r u u' i m m' hold hold' hnow hnow'
  · intro msg hmsg hmine i hunhanded
    rcases List.mem_append.1 hmsg with hold | hnew
    · exact h.wire msg hold hmine i hunhanded.of_record
    · exact absurd hmine (hsends msg hnew)
  · intro e he i m v hnow hdecided
    rcases List.mem_append.1 he with hold | hnew
    · exact h.decided e hold i m v hnow hdecided
    · cases List.mem_singleton.1 hnew
      exact absurd hdecided (hdecides v)

end Mirrors

/-! ## One reaction -/

section React

variable [DecidableEq ι] [DecidableEq A] [DecidableEq μ] {i : Fin N} {m : S} {input : C ⊕ μ}

/-- The machine reacts in the network as it does in the swarm. -/
theorem Mirrors.react (h : R.Mirrors w t) (hp : w.party p = some s) (hplays : R.plays s i m)
    (hreceives : R.Receives w s a s' i input)
    (hkeeps : ∀ j n, R.plays s' j n → j = i ∧ n = (Q.react m input).1)
    (hsends : ∀ msg ∈ P.sends s a, R.mine msg →
      ∃ e ∈ (Q.react m input).2, e.message? = some msg)
    (hdecides : ∀ v, R.decides s a v → .decision v ∈ (Q.react m input).2)
    (haddressed : ∀ e ∈ (Q.react m input).2, ∀ msg, e.message? = some msg →
      ∀ j, (j, msg) ∈ e.copies Q.addr ∨ R.astray j msg) :
    R.Mirrors (P.record w p s a s')
      (Q.post (Protocol.consume t i input) i (Q.react m input)) := by
  have hparty : ∀ q u, (P.record w p s a s').party q = some u →
      q = p ∧ u = s' ∨ q ≠ p ∧ w.party q = some u := fun q u hq => update_cases hq
  have hreacted := Protocol.reacted Q t i input (Q.react m input)
  have hfit := (h.node p s i m hp hplays).2
  -- The other parties play other machines.
  have hothers : ∀ q u j n, q ≠ p → w.party q = some u → R.plays u j n → j ≠ i := by
    rintro q u j n hqp hq hnow rfl
    exact hqp (h.single q p u s j n m hq hp hnow hplays)
  have hissued : ∀ j u, j ≠ i → R.fits t.issued j u →
      R.fits (Protocol.consume t i input).issued j u := by
    intro j u hji hfits
    cases input with
    | inl c => exact R.fits_other hji hfits
    | inr msg => exact hfits
  refine ⟨?_, ?_, ?_, ?_, ?_⟩
  · intro q u j n hq hnow
    rw [hreacted.issued]
    rcases hparty q u hq with ⟨rfl, rfl⟩ | ⟨hqp, hold⟩
    · rcases hkeeps j n hnow with ⟨rfl, rfl⟩
      refine ⟨hreacted.own, ?_⟩
      cases input with
      | inl c => exact (hreceives t.issued hfit).2 _ hnow
      | inr msg => exact hreceives.2.2.2 t.issued _ hnow hfit
    · have hji := hothers q u j n hqp hold hnow
      rcases h.node q u j n hold hnow with ⟨hnode, hfits⟩
      exact ⟨(hreacted.others j hji).trans hnode, hissued j u hji hfits⟩
  · intro j hfirst
    have hji : j ≠ i := by
      rintro rfl
      exact hfirst s ((seen_record hp).2 (.inr (.inr ⟨p, hp⟩))) m hplays
    rcases h.unplayed j fun u hu => hfirst u ((seen_record hp).2 (.inr hu)) with ⟨hnode, hcommands⟩
    refine ⟨(hreacted.others j hji).trans hnode, ?_⟩
    intro c hc
    rw [hreacted.issued] at hc
    cases input with
    | inl d =>
        rcases List.mem_append.1 hc with hold | hnew
        · exact hcommands c hold
        · cases List.mem_singleton.1 hnew
          exact hji rfl
    | inr msg => exact hcommands c hc
  · intro q r u u' j n n' hq hr hnow hnow'
    rcases hparty q u hq with ⟨rfl, rfl⟩ | ⟨hqp, hold⟩
    · rcases hparty r u' hr with ⟨rfl, rfl⟩ | ⟨hrp, hold'⟩
      · rfl
      · exact absurd (hkeeps j n hnow).1 (hothers r u' j n' hrp hold' hnow')
    · rcases hparty r u' hr with ⟨rfl, rfl⟩ | ⟨_, hold'⟩
      · exact absurd (hkeeps j n' hnow').1 (hothers q u j n hqp hold hnow)
      · exact h.single q r u u' j n n' hold hold' hnow hnow'
  · intro msg hmsg hmine j hunhanded
    rcases List.mem_append.1 hmsg with hold | hnew
    · refine (h.wire msg hold hmine j hunhanded.of_record).imp_left fun hin => ?_
      refine List.mem_append_left _ ?_
      cases input with
      | inl c => exact hin
      | inr taken =>
          -- The copy that is taken out is handed over in this very step.
          have hne : (j, msg) ≠ (i, taken) := by
            intro heq
            cases heq
            exact hunhanded ⟨p, s, a⟩ (List.mem_append_right _ List.mem_cons_self) ⟨m, hplays⟩
              hreceives.1
          exact (List.mem_erase_of_ne hne).2 hin
    · rcases hsends msg hnew hmine with ⟨e, he, hmessage⟩
      refine (haddressed e he msg hmessage j).imp_left fun hcopy => ?_
      exact List.mem_append_right _ (List.mem_flatMap.2 ⟨e, he, hcopy⟩)
  · intro e he j n v hnow hdecided
    rw [Protocol.mem_post_decisions, Protocol.consume_decisions]
    rcases List.mem_append.1 he with hold | hnew
    · exact .inl (h.decided e hold j n v hnow hdecided)
    · cases List.mem_singleton.1 hnew
      exact .inr ⟨(R.plays_unique hnow hplays).1, hdecides v hdecided⟩

end React

/-! ## Whole runs -/

section Runs

variable [DecidableEq ι] [DecidableEq A] [DecidableEq μ]

/-- Every step of the guarded swarm is a turn, as far as it visits good states only. -/
structure Sound (R : Roles P Q) (ok : SwarmWorld ι σ α μ → SwarmStep ι β α → Prop)
    (okQ : World N S μ V C → NetAction N μ C → Prop) (good : σ → Prop) : Prop where
  boot : ∀ {w p b s}, ok w (.boot p b) → P.boot b = some s → good s →
    ∀ i m, R.plays s i m → R.Arrives w s i m
  turn : ∀ {w p a s s'}, (P.system ι).Reaches ok w → ok w (.act p a) → w.party p = some s →
    P.step s a = some s' → good s → good s' → R.Turn okQ w s a s'
  /-- A machine does nothing with a message that was sent to another one. -/
  astray : ∀ {t i msg}, Q.system.Reaches okQ t → R.astray i msg →
    Q.react (t.nodes i) (.inr msg) = (t.nodes i, [])
  addressed : ∀ {t i input}, Q.system.Reaches okQ t → Q.Available t i input →
    ∀ e ∈ (Q.react (t.nodes i) input).2, ∀ msg, e.message? = some msg →
      ∀ j, (j, msg) ∈ e.copies Q.addr ∨ R.astray j msg

variable {ok : SwarmWorld ι σ α μ → SwarmStep ι β α → Prop} {good : σ → Prop}

/-- A turn of a party is a step of the network, or none. -/
theorem Sound.act (hR : R.Sound ok okQ good) (ht : Q.system.Reaches okQ t) (h : R.Mirrors w t)
    (hp : w.party p = some s) (hwire : ∀ msg, P.delivers a = some msg → msg ∈ w.wire)
    (hturn : R.Turn okQ w s a s') :
    ∃ t', Q.system.Reaches okQ t' ∧ R.Mirrors (P.record w p s a s') t' := by
  cases hturn with
  | rest hplays hsends hdecides => exact ⟨t, ht, h.rest hp hplays hsends hdecides⟩
  | react i m input hplays hreceives hkeeps hsends hdecides hok =>
      rcases h.node p s i m hp hplays with ⟨rfl, hfit⟩
      have hstep : Q.Available t i input →
          ∃ t', Q.system.Reaches okQ t' ∧ R.Mirrors (P.record w p s a s') t' := by
        intro havail
        exact ⟨_, .step ht (hok t rfl) (Protocol.step_reactLabel havail),
          h.react hp hplays hreceives hkeeps hsends hdecides (hR.addressed ht havail)⟩
      cases input with
      | inl c => exact hstep (hreceives t.issued hfit).1
      | inr msg =>
          rcases h.wire msg (hwire msg hreceives.1) hreceives.2.1 i hreceives.2.2.1 with hin | hlost
          · exact hstep hin
          · -- The machine does not react, so the party rested.
            rw [hR.astray ht hlost] at hkeeps hsends hdecides
            refine ⟨t, ht, h.rest hp ?_ ?_ ?_⟩
            · intro j n hnow
              rcases hkeeps j n hnow with ⟨rfl, rfl⟩
              exact .inr ⟨hplays, fun issued => hreceives.2.2.2 issued _ hnow⟩
            · intro msg hmsg hmine
              rcases hsends msg hmsg hmine with ⟨e, he, _⟩
              cases he
            · intro v hv
              cases hdecides v hv

/-- Every run of the swarm is a run of the network. -/
theorem Sound.mirrors (hR : R.Sound ok okQ good) (h : (P.system ι).Reaches ok w) :
    (∀ s, Seen w s → good s) → ∃ t, Q.system.Reaches okQ t ∧ R.Mirrors w t := by
  induction h with
  | start hinit =>
      rename_i w
      intro _
      rw [show w = ⟨fun _ => none, [], []⟩ from hinit]
      refine ⟨Q.initial, .start rfl, ?_⟩
      exact ⟨fun p s i m hp => (by cases hp), fun i _ => ⟨rfl, fun c hc => (by cases hc)⟩,
        fun p q s s' i m m' hp => (by cases hp), fun msg hmsg => (by cases hmsg),
        fun e he => (by cases he)⟩
  | step hw hok hstep ih =>
      intro hgood
      rcases step_labels hstep with ⟨p, b, s, rfl, hnone, hs, rfl⟩ | ⟨p, s, a, s', rfl, hp, hwire, hs', rfl⟩
      · have hseen : ∀ u, Seen _ u → good u := fun u hu => hgood u ((seen_bootParty hnone).2 (.inr hu))
        rcases ih hseen with ⟨t, ht, hmirrors⟩
        have hs_good := hgood s ((seen_bootParty hnone).2 (.inl rfl))
        exact ⟨t, ht, hmirrors.boot hnone (hR.boot hok hs hs_good)⟩
      · have hseen : ∀ u, Seen _ u → good u := fun u hu => hgood u ((seen_record hp).2 (.inr hu))
        rcases ih hseen with ⟨t, ht, hmirrors⟩
        have hs_good := hseen s (.inr ⟨p, hp⟩)
        have hs'_good := hgood s' ((seen_record hp).2 (.inl rfl))
        exact hR.act ht hmirrors hp hwire (hR.turn hw hok hp hs' hs_good hs'_good)

end Runs

end Roles

end Foundations
