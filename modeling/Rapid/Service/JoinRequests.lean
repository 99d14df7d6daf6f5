import Rapid.Service.ServiceSystem

/-!
# JoinRequests — which request a join response answers

A `JoinResponse` is sent at once, on the reply channel of the command that is being handled, or it
is sent by a decision to a joiner that was parked. What is parked goes back to `JoinMessage`s
handled before.
-/

namespace Rapid

open Foundations

variable [Xxh64]

/-- The `JoinMessage` came with this reply channel. -/
def Asked (handled : List ServiceCommand) (id : ReplyId) (msg : JoinMessage) : Prop :=
  .request ⟨some (.joinMessage msg)⟩ id ∈ handled

/-- Reply channels belong to one command each, and what is parked for a node came from it. -/
structure Requests (handled : List ServiceCommand) (s : ServiceState) : Prop where
  unique : ∀ c ∈ handled, ∀ c' ∈ handled, ∀ id, c.reply? = some id → c'.reply? = some id → c = c'
  parked : ∀ node parked, s.joinersToRespondTo.lookup node = some parked → ∀ id ∈ parked,
    ∃ msg, Asked handled id msg ∧ msg.sender.getD default = node

variable {handled : List ServiceCommand} {s t : ServiceState} {env : Environment}
  {cmd : ServiceCommand} {effects : List Effect}

omit [Xxh64] in
theorem Requests.congr (h : Requests handled s)
    (hparked : t.joinersToRespondTo = s.joinersToRespondTo) : Requests handled t where
  unique := h.unique
  parked := by
    rw [hparked]
    exact h.parked

omit [Xxh64] in
theorem Requests.eq (h : Requests handled s) {id : ReplyId} {msg msg' : JoinMessage}
    (hasked : Asked handled id msg) (hasked' : Asked handled id msg') : msg = msg' := by
  have heq := h.unique _ hasked _ hasked' id rfl rfl
  cases heq
  rfl

omit [Xxh64] in
/-- A command with a new reply channel arrives. -/
theorem Requests.arrive (h : Requests handled s)
    (hfresh : ∀ id, cmd.reply? = some id → ∀ old ∈ handled, old.reply? ≠ some id) :
    Requests (handled ++ [cmd]) s where
  unique := by
    intro c hc c' hc' id hid hid'
    rcases List.mem_append.1 hc with hold | hnew
    · rcases List.mem_append.1 hc' with hold' | hnew'
      · exact h.unique c hold c' hold' id hid hid'
      · cases List.mem_singleton.1 hnew'
        exact absurd hid (hfresh id hid' c hold)
    · rcases List.mem_append.1 hc' with hold' | hnew'
      · cases List.mem_singleton.1 hnew
        exact absurd hid' (hfresh id hid c' hold')
      · rw [List.mem_singleton.1 hnew, List.mem_singleton.1 hnew']
  parked := by
    intro node parked hlookup id hid
    rcases h.parked node parked hlookup id hid with ⟨msg, hasked, hsender⟩
    exact ⟨msg, List.mem_append_left _ hasked, hsender⟩

omit [Xxh64] in
theorem ServiceRun.fresh_spec {run : ServiceRun} (h : run.fresh cmd = true) :
    ∀ id, cmd.reply? = some id → ∀ old ∈ run.handled, old.reply? ≠ some id := by
  intro id hid old hold
  unfold fresh at h
  rw [hid] at h
  simpa using List.all_eq_true.1 h old hold

theorem Requests.move (h : Requests handled s) (hcmd : cmd ∈ handled)
    (hmove : Move env cmd s effects t) : Requests handled t := by
  cases hmove with
  | calm hcalm => exact h.congr hcalm.quiet.joinersToRespondTo
  | initialView reply => exact h.congr rfl
  | preJoin msg reply => exact h.congr rfl
  | join msg reply heq =>
      unfold ServiceState.handleJoin
      dsimp only
      split
      · refine ⟨h.unique, ?_⟩
        intro node parked hlookup id hid
        by_cases hnode : node = msg.sender.getD default
        · subst hnode
          have hinserted := (Finmap.lookup_insert _).symm.trans hlookup
          cases hinserted
          -- The new reply is parked behind the earlier ones.
          rcases List.mem_append.1 hid with hold | hnew
          · cases hbefore : s.joinersToRespondTo.lookup (msg.sender.getD default) with
            | none =>
                have hempty : id ∈ (none : Option (List ReplyId)).getD [] := hbefore ▸ hold
                cases hempty
            | some before =>
                have hin : id ∈ (some before).getD [] := hbefore ▸ hold
                exact h.parked _ before hbefore id hin
          · cases List.mem_singleton.1 hnew
            exact ⟨msg, by rw [Asked, ← heq]; exact hcmd, rfl⟩
        · have hother := (Finmap.lookup_insert_of_ne _ hnode).symm.trans hlookup
          exact h.parked node parked hother id hid
      · exact h.congr (ServiceState.quiet_buildConfigMismatchResponse _ _ _ _).joinersToRespondTo
  | alerts msg =>
      have hframe := ServiceState.handleBatchedAlerts_frame env s msg
      exact h.congr (by rw [hframe])
  | announce msg =>
      have hframe := ServiceState.handleBatchedAlerts_frame env s msg
      exact h.congr (by dsimp only; rw [hframe])
  | message => exact h.congr rfl
  | startClassic => exact h.congr rfl
  | shutdown => exact h.congr rfl

theorem Requests.decide (h : Requests handled s) (proposal : List Endpoint) :
    Requests handled (s.decideAndReplace env proposal).1 where
  unique := h.unique
  parked := by
    intro node parked hlookup
    rw [ServiceState.decideAndReplace, (s.decideViewChange_decided env proposal).joinersToRespondTo]
      at hlookup
    split at hlookup
    · cases hlookup
    · exact h.parked node parked hlookup

theorem requests_reaches {guard : ServiceRun → Environment × ServiceCommand → Prop}
    {run : ServiceRun} (hrun : serviceSystem.Reaches guard run) :
    Requests run.handled run.state := by
  have hguard : ∀ (run : ServiceRun) a, guard run a → ∀ e ∈ run.effects a.1 a.2, True :=
    fun _ _ _ _ _ => trivial
  refine serviceSystem_invariant (I := fun handled s _ => Requests handled s) hguard ?_ ?_ ?_ ?_
    hrun
  · intro outcome hboots
    rcases hboots.booted with ⟨_, _, _, _, _, _, _, _, _, _, hbooted⟩
    refine ⟨fun c hc => (by cases hc), ?_⟩
    intro node parked hlookup
    rw [hbooted.joinersToRespondTo, Finmap.lookup_empty] at hlookup
    cases hlookup
  · exact fun run cmd hfresh h => h.arrive (run.fresh_spec hfresh)
  · exact fun _ env cmd s es t _ hcmd h _ hmove => h.move hcmd hmove
  · exact fun _ env s proposal _ h _ => h.decide proposal

/-! ## Where a join response comes from -/

/-- A move answers the command that is being handled, if any. -/
theorem Move.joinReply (h : Move env cmd s effects t) {id : ReplyId} {response : JoinResponse}
    (hreply : .reply id (ServiceState.joinReply response) ∈ effects) : cmd.reply? = some id := by
  cases h with
  | calm hcalm => exact (hcalm.silent _ hreply).elim
  | initialView => cases List.mem_singleton.1 hreply
  | preJoin msg reply hcmd =>
      cases List.mem_singleton.1 hreply
      rw [hcmd]
      rfl
  -- `handleJoin` parks the request or answers it at once, under its own id.
  | join msg reply hcmd =>
      unfold ServiceState.handleJoin at hreply
      dsimp only at hreply
      split at hreply
      · cases hreply
      · cases List.mem_singleton.1 hreply
        rw [hcmd]
        rfl
  | alerts msg => exact (s.silent_handleBatchedAlerts msg _ hreply).elim
  | announce msg fp broadcasts delay _ _ hsilent =>
      simp only [List.mem_append, List.mem_singleton] at hreply
      rcases hreply with (((halerts | hcall) | hsend) | habort) | hspawn
      · exact (s.silent_handleBatchedAlerts msg _ halerts).elim
      · cases hcall
      · exact (hsilent _ hsend).elim
      · rcases List.mem_map.1 habort with ⟨timer, _, htimer⟩
        cases htimer
      · cases hspawn
  | message => cases hreply
  | startClassic =>
      cases List.mem_singleton.1 hreply
  | shutdown => cases hreply

/-- A join response answers the command itself, or a joiner that a decision finds parked. -/
theorem joinReply_source {J : ServiceState → Prop} (s : ServiceState)
    (hmove : ∀ s es t, J s → Move env cmd s es t → J t) (hs : J s) {id : ReplyId}
    {response : JoinResponse}
    (hreply : .reply id (ServiceState.joinReply response) ∈ (s.handleCommand env cmd).1.2) :
    cmd.reply? = some id ∨ ∃ t proposal, J t ∧
      .call (.decideViewChange t proposal) ∈ (s.handleCommand env cmd).1.2 ∧
      Answers t proposal (.reply id (ServiceState.joinReply response)) ∧
      (t.appliedTo proposal).1.view.Refreshes (s.handleCommand env cmd).1.1.view := by
  -- Before a decision only a join request is answered with a join response.
  have hpath : ∀ {es t}, EffectPath (Move env cmd) s es t → J t ∧
      ∀ e ∈ es, e = .reply id (ServiceState.joinReply response) → cmd.reply? = some id := by
    intro es t h
    have hok : ∀ e ∈ es, True := fun _ _ => trivial
    have hstart : J s ∧ ∀ e ∈ ([] : List Effect),
        e = .reply id (ServiceState.joinReply response) → cmd.reply? = some id :=
      ⟨hs, fun e he => by cases he⟩
    have hinv := h.invariant (I := fun u trace => J u ∧ ∀ e ∈ trace,
      e = .reply id (ServiceState.joinReply response) → cmd.reply? = some id) ?_ hok hstart
    · simpa using hinv
    · intro u es v trace hI _ hstep
      refine ⟨hmove u es v hI.1 hstep, ?_⟩
      intro e he heq
      rcases List.mem_append.1 he with hold | hnew
      · exact hI.2 e hold heq
      · exact hstep.joinReply (heq ▸ hnew)
  have hact : Act env cmd s (s.handleCommand env cmd).1.2 (s.handleCommand env cmd).1.1 :=
    s.handleCommand_act
  generalize (s.handleCommand env cmd).1.2 = effects, (s.handleCommand env cmd).1.1 = last
    at hact hreply
  -- A command that decides answers the parked joiners as well.
  cases hact with
  | stay h => exact .inl ((hpath h).2 _ hreply rfl)
  | @decide t _ before after proposal h hcalm =>
      have hdecided := t.decideViewChange_decided env proposal
      rcases hdecided.effects with ⟨early, between, replies, hearly, hbetween, hreplies, heq⟩
      have heffects : (t.decideAndReplace env proposal).2 = _ := heq
      have hview : (t.appliedTo proposal).1.view.Refreshes last.view :=
        hdecided.view.trans hcalm.quiet.view
      rw [List.mem_append, List.mem_append] at hreply
      rcases hreply with (hbefore | hdecision) | hafter
      · exact .inl ((hpath h).2 _ hbefore rfl)
      · refine .inr ⟨t, proposal, (hpath h).1, ?_, ?_, hview⟩
        · simp [t.call_mem_decide env proposal]
        · rw [heffects] at hdecision
          simp only [List.mem_append, List.mem_singleton] at hdecision
          -- Of all the effects of a decision only the answers are replies.
          rcases hdecision with
            ((((((hcall | hsilent) | hpublish) | habort) | hcall) | hsilent) | hanswer) | hcall
          · cases hcall
          · exact (hearly _ hsilent).elim
          · cases hpublish
          · rcases List.mem_map.1 habort with ⟨timer, _, htimer⟩
            cases htimer
          · cases hcall
          · exact (hbetween _ hsilent).elim
          · exact hreplies _ hanswer
          · cases hcall
      · exact (hcalm.silent _ hafter).elim

end Rapid
