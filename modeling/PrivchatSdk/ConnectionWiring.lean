import PrivchatSdk.ConnectionReports

/-!
# What an authenticated session listens to

The transport, the slot with its events and the task that reads them are three places,
and each transition touches them in its own order.  An authenticated session is wired:
its task reads the transport that is there, under the epoch that the loop lets pass
(`authenticated_listens`).

Two answers to the host say that this may have ended: a `Disconnect` that fails has
stopped the task and kept the session, and an `Authenticate` of another user that
cannot be stored has moved the epoch and kept the session.
-/

namespace PrivchatSdk
namespace Connection

open StatementExec Exec EventRun

section Wiring

variable {s t : ActorState} {env : Env}

/-- The task reads the transport that is there, and its frames pass. -/
def ActorState.Listening (s : ActorState) : Prop :=
  ∃ transport, s.transport = some transport ∧
    s.inboundTask = some { epoch := s.inboundEpoch, events := some transport }

structure Wired (s : ActorState) : Prop where
  slotted : s.Slotted
  listening : s.sessionState = .authenticated → s.Listening

theorem wired_of_ne (hslot : s.Slotted) (hstate : s.sessionState ≠ .authenticated) : Wired s :=
  ⟨hslot, fun h => absurd h hstate⟩

theorem wired_in (state : SessionState) (hslot : s.Slotted) (hstate : s.sessionState = state)
    (hne : state ≠ .authenticated) : Wired s :=
  wired_of_ne hslot (hstate ▸ hne)

theorem wired_of_down (hslot : s.Slotted) (hdown : s.sessionState.isUp = false) : Wired s := by
  refine wired_of_ne hslot ?_
  intro h
  rw [h] at hdown
  cases hdown

theorem slotted_of_none (h : t.transport = none) : t.Slotted := by
  intro transport htransport
  rw [h] at htransport
  cases htransport

theorem ActorState.Slotted.worked (h : s.Slotted) (hw : Worked s t) : t.Slotted := by
  obtain ⟨_, _, _, -, rfl | ⟨moment, hup, -, -, rfl⟩⟩ := hw
  · exact h
  · rw [lostAt_of_up hup]
    exact slotted_of_none rfl

theorem Wired.worked (h : Wired s) (hw : Worked s t) : Wired t := by
  obtain ⟨_, _, _, -, rfl | ⟨moment, hup, -, -, rfl⟩⟩ := hw
  · exact ⟨h.slotted, h.listening⟩
  · rw [lostAt_of_up hup]
    exact wired_of_down (slotted_of_none rfl) rfl

theorem ActorState.Slotted.hangUp (h : s.Slotted) : s.hangUp.Slotted := by
  cases hup : s.sessionState.isUp with
  | false =>
      rw [hangUp_of_down hup]
      exact h
  | true =>
      rw [hangUp_of_up hup]
      exact slotted_of_none rfl

/-- A session that is given up is not authenticated. -/
theorem ActorState.Slotted.givenUp (h : s.Slotted) : Wired s.stopInboundTask.hangUp :=
  wired_of_down (ActorState.Slotted.hangUp (s := s.stopInboundTask) h) (hangUp_isUp _)

theorem ActorState.Slotted.dialed (h : s.Slotted) (hd : Dialed s t) : t.Slotted := by
  obtain ⟨_, _, _, _, _, -, -, hslot⟩ := hd
  exact hslot h

theorem Dialed.sessionState (h : Dialed s t) : t.sessionState = s.sessionState :=
  h.news.2.2

/-- The new task reads the transport that is there. -/
theorem listen_wired (hslot : s.Slotted) (hopen : s.transport.isSome = true) :
    Ensures listen env s (fun _ t => Wired t) (fun _ _ => False) := by
  obtain ⟨transport, htransport⟩ := Option.isSome_iff_exists.mp hopen
  have hstart : Wired s.startInboundTask := by
    refine ⟨hslot, fun _ => ⟨transport, htransport, ?_⟩⟩
    unfold ActorState.startInboundTask
    dsimp only
    rw [htransport, hslot transport htransport]
    rfl
  exact listen_spec.mono (fun _ _ ht => hstart.worked ht) (fun _ _ hfalse => hfalse)

theorem resume_wired (h : Wired s) :
    Ensures resume env s (fun _ t => Wired t) (fun _ _ => False) :=
  resume_spec.mono (fun _ _ ht => h.worked ht) (fun _ _ hfalse => hfalse)

end Wiring

section Attempts

variable {s t : ActorState} {env : Env}

/-- A failed authentication leaves the wiring, unless the disk refused what the server took. -/
def Left (e : Error) (t : ActorState) : Prop :=
  t.Slotted ∧ ((∀ message, e ≠ .storage message) → Wired t)

theorem Wired.left (h : Wired t) (e : Error) : Left e t :=
  ⟨h.slotted, fun _ => h⟩

theorem Accepted.slots {uid : String} (h : Accepted uid s t) :
    t.transport = s.transport ∧ t.transportEvents = s.transportEvents := by
  obtain ⟨_, _, _, -, rfl⟩ := h
  unfold ActorState.resetIfOwnerChanged
  split
  · exact ⟨rfl, rfl⟩
  · exact ⟨rfl, rfl⟩

theorem Accepted.slotted {uid : String} (h : Accepted uid s t) (hs : s.Slotted) :
    t.Slotted := by
  unfold ActorState.Slotted
  rw [h.slots.1, h.slots.2]
  exact hs

theorem driverAuthenticate_wired (userId call : Nat) (h : Wired s) :
    Ensures (driverAuthenticate userId call) env s
      (fun _ t => t.Slotted ∧ t.transport.isSome = true)
      (fun e t => Left e t ∧ ((∃ context, e = .requestUnanswered context) → Wired t)) := by
  refine (driverAuthenticate_spec userId call).mono ?_ ?_
  · rintro _ t ⟨hopen, r, hr, rfl⟩
    refine ⟨hr.slotted h.slotted, ?_⟩
    change r.transport.isSome = true
    rw [hr.slots.1]
    exact hopen
  · rintro e t (⟨-, haged, -⟩ | ⟨hworked, -, -⟩ | ⟨-, haccepted, message, rfl⟩)
    · have hend := h.worked haged.worked
      exact ⟨hend.left e, fun _ => hend⟩
    · have hend := h.worked hworked
      exact ⟨hend.left e, fun _ => hend⟩
    · refine ⟨⟨haccepted.slotted h.slotted, fun hnone => absurd rfl (hnone message)⟩, ?_⟩
      rintro ⟨context, hc⟩
      cases hc

theorem driverReconnect_wired (call : Nat) (hslot : s.Slotted) :
    Ensures (driverReconnect call) env s (fun _ t => Wired t) (fun e t => Left e t) := by
  have hgiven := hslot.givenUp
  refine (driverReconnect_spec call).mono ?_ ?_
  · rintro _ t ⟨d, hd, -, -, rfl⟩
    have hslotted : d.Slotted := hgiven.slotted.dialed hd
    exact wired_in .connected hslotted rfl (by decide)
  · rintro e t ⟨hd, -⟩
    refine (wired_of_down (hgiven.slotted.dialed hd) ?_).left e
    rw [hd.sessionState]
    exact hangUp_isUp _

theorem authenticateWithRetry_wired (userId : Nat) (needReconnect : Bool) (h : Wired s) :
    Ensures (authenticateWithRetry userId needReconnect) env s
      (fun _ t => t.Slotted ∧ t.transport.isSome = true) Left := by
  refine executeAuthenticateWithRetry_rule Wired Wired
    (fun call t ht => driverReconnect_wired _ ht.slotted) (fun call t ht => ?_) ?_
  · refine (driverAuthenticate_wired userId call ht).mono (fun _ _ hu => hu) ?_
    rintro e u ⟨hleft, hwired⟩
    exact ⟨fun _ => hleft, fun hc => ⟨hwired hc, hleft⟩⟩
  · split
    · exact h
    · exact h

/-- An attempt ends with a transport to listen to, or with a session that needs none. -/
theorem tryAutoReconnect_wired (hslot : s.Slotted) (hstate : s.sessionState ≠ .authenticated) :
    Ensures tryAutoReconnect env s
      (fun _ t => t.Slotted ∧ t.transport.isSome = true)
      (fun _ t => t.Slotted ∧ t.sessionState ≠ .authenticated) := by
  unfold tryAutoReconnect dismantleAuthTransport
  rw [ensures_bind]
  refine (connectWithin_spec 0 _).mono ?_ ?_
  · rintro _ d ⟨hd, hopen⟩
    have hdialed : d.Slotted := hslot.dialed hd
    have hup : Wired (d.enter .connected) :=
      wired_in .connected hdialed rfl (by decide)
    simp only [ensures_bind, ensures_modify, ensures_get, ensures_ask]
    split
    · rw [ensures_bind, ensures_attempt]
      refine (authenticateWithRetry_wired _ false hup).mono (fun _ _ ht => ht) ?_
      rintro e t ⟨ht, -⟩
      rw [ensures_bind, ensures_modify, ensures_fail]
      refine ⟨ht.givenUp.slotted, fun hauth => ?_⟩
      have hdown := hangUp_isUp t.stopInboundTask
      rw [hauth] at hdown
      cases hdown
    · exact ⟨hdialed, hopen⟩
  · rintro e d ⟨hd, -, -⟩
    refine ⟨hslot.dialed hd, ?_⟩
    rw [hd.sessionState]
    exact hstate

theorem triggerForcedLogout_wired (e : Error) (source : ForcedLogoutSource) (h : Wired s) :
    Ensures (triggerForcedLogout e source) env s (fun _ t => Wired t) (fun _ _ => False) := by
  refine (triggerForcedLogout_spec e source).mono (fun _ t ht => ?_) (fun _ _ hfalse => hfalse)
  split at ht
  · exact ht ▸ h
  · obtain ⟨transport, hkept, rfl⟩ := ht
    refine wired_in .terminated ?_ rfl (by decide)
    rcases hkept with rfl | rfl
    · exact slotted_of_none rfl
    · exact h.slotted

theorem handOverToHost_wired (e : Error) (hslot : s.Slotted)
    (hstate : s.sessionState ≠ .authenticated) :
    Ensures (handOverToHost e) env s (fun _ t => Wired t) (fun _ _ => False) := by
  unfold handOverToHost
  rw [ensures_bind]
  refine offerTransport_spec.mono (fun _ t ht => ?_) (fun _ _ hfalse => hfalse)
  rw [ensures_modify]
  obtain ⟨d, hd, hend⟩ := ht
  have hslotted : d.Slotted := hslot.dialed hd
  have hsame : d.sessionState = s.sessionState := hd.sessionState
  rcases hend with rfl | ⟨-, rfl⟩
  · exact wired_of_ne hslotted (fun hauth => hstate (hsame.symm.trans hauth))
  · exact wired_in .connected hslotted rfl (by decide)

theorem onRetry_wired (h : Wired s) :
    Ensures onRetry env s (fun _ t => Wired t) (fun _ _ => False) := by
  unfold onRetry
  rw [ensures_bind, ensures_get]
  split
  · rename_i hwants
    have hstate : s.sessionState ≠ .authenticated := by
      intro hauth
      unfold ActorState.wantsOnline ActorState.awaitingReauth at hwants
      rw [hauth] at hwants
      simp at hwants
    rw [ensures_bind, ensures_attempt]
    refine (tryAutoReconnect_wired h.slotted hstate).mono ?_ ?_
    · rintro next t ⟨hslot, hopen⟩
      simp only [ensures_bind, ensures_modify]
      refine (listen_wired ?_ ?_).mono (fun _ u hu => ?_) (fun _ _ hfalse => hfalse)
      · exact hslot
      · exact hopen
      · exact (resume_wired hu).mono (fun _ v (hv : Wired v) => ⟨hv.slotted, hv.listening⟩)
          (fun _ _ hfalse => hfalse)
    · rintro e t ⟨hslot, hne⟩
      dsimp only
      split
      · exact triggerForcedLogout_wired e _ (wired_of_ne hslot hne)
      · split
        · exact handOverToHost_wired e hslot hne
        · exact wired_of_ne hslot hne
  · exact ⟨h.slotted, h.listening⟩

end Attempts

section Commands

variable {s t : ActorState} {env : Env}

/-- The session is wired whether the command succeeds or fails. -/
def Wires (x : ConnM Unit) (env : Env) (s : ActorState) : Prop :=
  Ensures x env s (fun _ t => Wired t) (fun _ t => Wired t)

theorem Wired.flush (h : Wired s) : Wired s.flushPending :=
  ⟨h.slotted, h.listening⟩

theorem finish_wired {x : ConnM Unit} (h : Wires x env s) : Wires (finish x) env s :=
  finish_ensures h (fun _ _ ht => ht.flush) (fun _ _ ht => ht.flush)

theorem followPlan_wired {plan : Except Error ConnectPlan} (h : Wired s)
    (hplan : plan ≠ .ok .alreadyReady → s.sessionState ≠ .authenticated) :
    Ensures (followPlan plan) env s
      (fun _ t => t.Slotted ∧ (plan = .ok .alreadyReady → Wired t) ∧
        (plan ≠ .ok .alreadyReady → t.transport.isSome = true))
      (fun _ t => Wired t) := by
  unfold followPlan
  split
  · exact h
  · exact ⟨h.slotted, fun _ => h, fun hne => absurd rfl hne⟩
  · have hne := hplan (by rintro ⟨⟩)
    rw [ensures_bind]
    refine (tryAutoReconnect_wired h.slotted hne).mono ?_
      (fun _ _ ht => wired_of_ne ht.1 ht.2)
    rintro next t ⟨hslot, hopen⟩
    exact ⟨hslot, (by rintro ⟨⟩), fun _ => hopen⟩
  · have hne := hplan (by rintro ⟨⟩)
    simp only [ensures_bind, ensures_get]
    rw [ensures_ofExcept]
    refine ⟨fun next _ => ?_, fun _ _ => h⟩
    refine (connectWithin_spec 0 _).mono ?_ ?_
    · rintro _ d ⟨hd, hopen⟩
      have hslotted : d.Slotted := h.slotted.dialed hd
      exact ⟨hslotted, (by rintro ⟨⟩), fun _ => hopen⟩
    · rintro e d ⟨hd, -⟩
      refine wired_of_ne (h.slotted.dialed hd) ?_
      rw [hd.sessionState]
      exact hne

theorem connected_wired (before : ConnectionState) {fresh : Bool} (hadLocalSession : Bool)
    (hslot : s.Slotted) (hopen : fresh = true → s.transport.isSome = true)
    (hkept : fresh = false → Wired s) :
    Ensures (connected before fresh hadLocalSession) env s (fun _ t => Wired t)
      (fun _ _ => False) := by
  refine connected_rule before fresh hadLocalSession (P := Wired) ?_ (fun t ht => ?_)
    (fun t u ht hu => ht.worked hu)
  · unfold runIf
    cases fresh with
    | true =>
        refine listen_wired ?_ ?_
        · exact hslot
        · exact hopen rfl
    | false => exact ⟨hslot, (hkept rfl).listening⟩
  · unfold reportChange
    rw [ensures_modify]
    split
    · exact ht
    · exact ⟨ht.slotted, ht.listening⟩

theorem onConnect_wired (h : Wired s) : Wires onConnect env s := by
  unfold Wires onConnect
  simp only [ensures_bind, ensures_ask, ensures_modify, ensures_get, ensures_attempt]
  have hwanted : Wired { s with shouldAutoReconnect := true } := ⟨h.slotted, h.listening⟩
  refine Ensures.mono (Q := fun _ u => Wired u ∧
    (planConnect s.sessionState s.currentUid.isSome (s.transport.isSome && env.alive) ≠
      .ok .alreadyReady → u.sessionState ≠ .authenticated))
    (E := fun _ _ => False) ?_ ?_ (fun _ _ hfalse => hfalse.elim)
  · unfold runIf
    cases halive : s.transport.isSome && env.alive with
    | true =>
        refine ⟨hwanted, fun hplan hauth => hplan ?_⟩
        have hauth : s.sessionState = .authenticated := hauth
        unfold planConnect
        rw [hauth]
        rfl
    | false =>
        simp only [Bool.not_false, if_true, ensures_modify]
        split
        · refine ⟨hwanted.slotted.givenUp, fun _ hauth => ?_⟩
          have hdown := hangUp_isUp (ActorState.stopInboundTask
            { s with shouldAutoReconnect := true })
          rw [hauth] at hdown
          cases hdown
        · rename_i hdown
          refine ⟨hwanted, fun _ hauth => hdown ?_⟩
          rw [hauth]
          rfl
  · rintro _ u ⟨hu, hplan⟩
    refine (followPlan_wired hu hplan).mono ?_ ?_
    · rintro _ t ⟨hslot, hready, hopen⟩
      refine (connected_wired _ _ hslot (fun hfresh => hopen ?_) (fun hfresh => hready ?_)).mono
        (fun _ _ hv => hv) (fun _ _ hfalse => hfalse.elim)
      · intro hc
        rw [hc] at hfresh
        exact absurd rfl (of_decide_eq_true hfresh)
      · have hoption := not_not.mp (of_decide_eq_false hfresh)
        cases hc : planConnect s.sessionState s.currentUid.isSome
            (s.transport.isSome && env.alive) with
        | ok plan =>
            rw [hc] at hoption
            cases hoption
            rfl
        | error e =>
            rw [hc] at hoption
            cases hoption
    · intro e t ht
      simp only [ensures_fail]
      exact ⟨ht.slotted, ht.listening⟩

/-- A `Disconnect` that succeeds leaves no session to wire. -/
theorem onDisconnect_wired :
    Ensures onDisconnect env s (fun _ t => Wired t) (fun _ _ => True) := by
  unfold onDisconnect
  simp only [ensures_bind, ensures_modify, ensures_get]
  refine disconnect_spec.mono ?_ (fun _ _ _ => trivial)
  rintro _ t rfl
  split
  · rename_i hshutdown
    refine wired_of_ne (slotted_of_none rfl) ?_
    intro hauth
    have hauth : s.sessionState = .authenticated := hauth
    have hshutdown : s.sessionState = .shutdown := hshutdown
    rw [hauth] at hshutdown
    cases hshutdown
  · rw [ensures_bind, ensures_modify]
    exact wired_in .new (slotted_of_none rfl) rfl (by decide)

theorem loseTransport_isUp (s : ActorState) : s.loseTransport.sessionState.isUp = false := by
  cases hup : s.sessionState.isUp with
  | false =>
      rw [loseTransport_of_down hup]
      exact hup
  | true =>
      rw [loseTransport_of_up hup]
      rfl

theorem ActorState.Slotted.loseTransport (h : s.Slotted) : s.loseTransport.Slotted :=
  h.worked (Worked.of_loseTransport s s.clock s.network (Nat.le_refl _))

theorem onPing_wired (h : Wired s) : Wires onPing env s := by
  unfold Wires onPing
  simp only [ensures_bind, ensures_ask, ensures_get]
  split
  · exact h
  · simp only [ensures_bind, ensures_modify, ensures_fail]
    have hstopped : s.stopInboundTask.Slotted := h.slotted
    exact wired_of_down hstopped.loseTransport (loseTransport_isUp _)

theorem setNetworkHint_wired (hint : NetworkHint) (h : Wired s) :
    Wired (s.setNetworkHint hint) := by
  have hset : Wired (if s.networkHint = hint then s else
      { s with networkHint := hint }.emit (.networkHintChanged s.networkHint hint)) := by
    split
    · exact h
    · exact ⟨h.slotted, h.listening⟩
  unfold ActorState.setNetworkHint
  dsimp only
  split
  · exact hset.slotted.givenUp
  · split
    · exact ⟨hset.slotted, hset.listening⟩
    · exact hset

theorem onLogin_wired (context message : String) (h : Wired s) :
    Wires (onLogin context message) env s := by
  unfold Wires onLogin loginWithin
  simp only [ensures_bind, ensures_get, ensures_ask]
  rw [ensures_ofExcept]
  refine ⟨fun next hnext => ?_, fun _ _ => h⟩
  cases can_login_ok hnext
  refine (requestBytes_spec _ _ _ _).mono ?_ (fun _ _ ht => h.worked ht.1)
  rintro _ t ⟨rfl, -⟩
  have hsent : Wired ((s.send (.rpc context)).elapse env.login.took) :=
    ⟨h.slotted, h.listening⟩
  split
  · exact hsent
  · simp only [ensures_bind, ensures_modify]
    rw [ensures_ofExcept]
    refine ⟨fun uid _ => ?_, fun _ _ => hsent⟩
    rw [ensures_ofExcept]
    refine ⟨fun _ _ => ?_, fun _ _ => hsent⟩
    refine (work_spec env.replay).mono (fun _ u hu => ?_) (fun _ _ hfalse => hfalse.elim)
    have hend : Wired u := by
      refine Wired.worked ?_ hu
      exact ⟨hsent.slotted, hsent.listening⟩
    split
    · exact hend
    · exact wired_in .loggedIn hend.slotted rfl (by decide)

/-- Only an account that cannot be stored leaves the task behind. -/
theorem onAuthenticate_wired (userId : Nat) (plan : AuthenticateTransportPlan) (h : Wired s) :
    Ensures (onAuthenticate userId plan) env s (fun _ t => Wired t)
      (fun e t => (∀ message, e ≠ .storage message) → Wired t) := by
  unfold onAuthenticate
  simp only [ensures_bind, ensures_get, ensures_attempt]
  refine (authenticateWithRetry_wired userId _ h).mono ?_ ?_
  · rintro _ t ⟨hslot, hopen⟩
    simp only [ensures_modify]
    refine (listen_wired ?_ ?_).mono (fun _ u hu => ?_) (fun _ _ hfalse => hfalse.elim)
    · exact hslot
    · exact hopen
    · exact (resume_wired hu).mono (fun _ v (hv : Wired v) => ⟨hv.slotted, hv.listening⟩)
        (fun _ _ hfalse => hfalse.elim)
  · rintro e t ⟨-, hwired⟩
    unfold runIf
    split
    · rename_i hterminal
      have hnot : ∀ message, e ≠ .storage message := by
        rintro message rfl
        cases hterminal
      exact (triggerForcedLogout_wired e _ (hwired hnot)).mono (fun _ _ hu _ => hu)
        (fun _ _ hfalse => hfalse.elim)
    · exact hwired

theorem withdraw_wired (pushed : List SdkEvent) (h : Wired s) : Wires (withdraw pushed) env s := by
  have hconnected : ∀ {u : ActorState}, u.transport = s.transport →
      u.transportEvents = s.transportEvents → u.sessionState = .connected → Wired u := by
    intro u htransport hevents hstate
    refine wired_in .connected ?_ hstate (by decide)
    unfold ActorState.Slotted
    rw [htransport, hevents]
    exact h.slotted
  unfold Wires withdraw forgetUser
  simp only [ensures_bind, ensures_modify, ensures_get, ensures_ask]
  split
  · simp only [ensures_bind, ensures_modify]
    rw [ensures_ofExcept]
    refine ⟨fun _ _ => ?_, fun _ _ => hconnected rfl rfl rfl⟩
    rw [ensures_ofExcept]
    exact ⟨fun _ _ => hconnected rfl rfl rfl, fun _ _ => hconnected rfl rfl rfl⟩
  · exact hconnected rfl rfl rfl

theorem onSwitchLocalAccount_wired (uid : String) (h : Wired s) :
    Wires (onSwitchLocalAccount uid) env s := by
  have hnew : ∀ {u : ActorState} {before : ConnectionState}, u.transport = none →
      u.sessionState = .new →
      Ensures (reportChange before) env u (fun _ t => Wired t) (fun _ t => Wired t) := by
    intro u before htransport hstate
    have hu : Wired u := wired_in .new (slotted_of_none htransport) hstate (by decide)
    unfold reportChange
    rw [ensures_modify]
    split
    · exact hu
    · exact ⟨hu.slotted, hu.listening⟩
  unfold Wires onSwitchLocalAccount
  simp only [ensures_bind, ensures_get, ensures_ask]
  rw [ensures_ofExcept]
  refine ⟨fun completed _ => ?_, fun _ _ => h⟩
  simp only [ensures_modify, ensures_attempt]
  refine disconnect_spec.mono ?_ ?_
  · rintro _ t rfl
    exact hnew rfl rfl
  · rintro _ t ⟨rfl, -⟩
    exact hnew rfl rfl

theorem onSetCurrentUid_wired (uid : String) (h : Wired s) :
    Wires (onSetCurrentUid uid) env s := by
  unfold Wires onSetCurrentUid
  simp only [ensures_bind, ensures_ask, ensures_get]
  split
  · exact h
  · split
    · exact h
    · rw [ensures_bind, ensures_ofExcept]
      exact ⟨fun _ _ => ⟨h.slotted, h.listening⟩, fun _ _ => h⟩

theorem onShutdown_wired : Wires onShutdown env s :=
  wired_in .shutdown (slotted_of_none rfl) rfl (by decide)

theorem background_wired (h : Wired s) : Wires background env s :=
  background_spec.mono (fun _ _ ht => h.worked ht) (fun _ _ hfalse => hfalse.elim)

theorem onHealthTick_wired (h : Wired s) : Wires onHealthTick env s := by
  have hwatched : Wired s.watchdog := by
    unfold ActorState.watchdog
    split
    · exact ⟨h.slotted, h.listening⟩
    · exact h
  unfold Wires onHealthTick probeTransport flushPending
  simp only [ensures_bind, ensures_modify, ensures_ask, ensures_get]
  split
  · exact background_spec.mono (fun _ _ ht => (hwatched.slotted.givenUp.worked ht).flush)
      (fun _ _ hfalse => hfalse.elim)
  · exact background_spec.mono (fun _ _ ht => (hwatched.worked ht).flush)
      (fun _ _ hfalse => hfalse.elim)

theorem onRepairTick_wired (passed : Bool) (h : Wired s) :
    Wires (onRepairTick passed) env s := by
  unfold Wires onRepairTick flushPending
  rw [ensures_bind]
  refine background_spec.mono (fun _ t ht => ?_) (fun _ _ hfalse => hfalse.elim)
  split
  · exact (h.worked ht).flush
  · exact h.worked ht

end Commands

section Listens

variable {s : ActorState} {u : Turn}

/-- The host is not told that a `Disconnect`, or the storing of another user, has failed. -/
def Settles (s : ActorState) (u : Turn) : Prop :=
  match u.arm with
  | .command .disconnect => (u.run s).1 = .ok ()
  | .command (.authenticate _) => ∀ message, (u.run s).1 ≠ .error (.storage message)
  | _ => True

theorem command_wired {c : Command} {idle : Nat} {env : Env} (h : Wired s)
    (hc : Settles s ⟨idle, .command c, env⟩) : Wired (step s ⟨idle, .command c, env⟩) := by
  have hs : Wired (s.elapse idle) := ⟨h.slotted, h.listening⟩
  have hwires : Wires c.run env (s.elapse idle) → Wired (step s ⟨idle, .command c, env⟩) :=
    fun hrun => ensures_step (u := ⟨idle, .command c, env⟩) hrun
  cases c with
  | connect => exact hwires (finish_wired (onConnect_wired hs))
  | disconnect =>
      have hrun : Ensures (finish onDisconnect) env (s.elapse idle) (fun _ t => Wired t)
          (fun _ _ => True) :=
        finish_ensures onDisconnect_wired (fun _ _ ht => ht.flush) (fun _ _ _ => trivial)
      exact ensures_turn (u := ⟨idle, .command .disconnect, env⟩)
        (P := fun result t => result = .ok () → Wired t)
        (hrun.mono (fun _ _ ht _ => ht) (fun _ _ _ => by rintro ⟨⟩)) hc
  | ping => exact hwires (finish_wired (onPing_wired hs))
  | setNetworkHint hint =>
      have hset : Wires (modify (fun s => s.setNetworkHint hint)) env (s.elapse idle) :=
        setNetworkHint_wired hint hs
      exact hwires (finish_wired hset)
  | inboundFrame epoch =>
      exact hwires (inboundFrame_rule epoch (finish_wired (background_wired hs)) hs)
  | inboundDisconnected epoch =>
      have hgiven : Wires onInboundDisconnected env (s.elapse idle) := hs.slotted.givenUp
      exact hwires (inboundDisconnected_rule epoch (finish_wired hgiven) hs)
  | login => exact hwires (finish_wired (onLogin_wired _ _ hs))
  | register => exact hwires (finish_wired (onLogin_wired _ _ hs))
  | authenticate userId =>
      have hrun : Ensures (Command.authenticate userId).run env (s.elapse idle)
          (fun _ t => Wired t) (fun e t => (∀ message, e ≠ .storage message) → Wired t) :=
        authenticateCommand_rule userId
          (fun plan => finish_ensures (onAuthenticate_wired userId plan hs)
            (fun _ _ ht => ht.flush) (fun _ _ ht hnot => (ht hnot).flush))
          (fun _ _ => hs)
      exact ensures_turn (u := ⟨idle, .command (.authenticate userId), env⟩)
        (P := fun result t => (∀ message, result ≠ .error (.storage message)) → Wired t)
        (hrun.mono (fun _ _ ht _ => ht)
          (fun _ _ ht hnot => ht (fun message he => hnot message (congrArg Except.error he)))) hc
  | clearLocalState => exact hwires (finish_wired (withdraw_wired _ hs))
  | wipeCurrentUserFull => exact hwires (finish_wired (withdraw_wired _ hs))
  | switchLocalAccount uid => exact hwires (finish_wired (onSwitchLocalAccount_wired uid hs))
  | setCurrentUid uid => exact hwires (finish_wired (onSetCurrentUid_wired uid hs))
  | request => exact hwires (finish_wired (background_wired hs))
  | shutdown => exact hwires onShutdown_wired

theorem wired_step (h : Wired s) (hu : Settles s u) : Wired (step s u) := by
  have hs : Wired (s.elapse u.idle) := ⟨h.slotted, h.listening⟩
  obtain ⟨idle, arm, env⟩ := u
  cases arm with
  | retry =>
      exact ensures_step (u := ⟨idle, .retry, env⟩)
        ((onRetry_wired hs).mono (fun _ _ ht => ht) (fun _ _ hfalse => hfalse.elim))
  | healthTick =>
      exact ensures_step (u := ⟨idle, .healthTick, env⟩) (onHealthTick_wired hs)
  | repairTick passed =>
      exact ensures_step (u := ⟨idle, .repairTick passed, env⟩) (onRepairTick_wired passed hs)
  | syncRetry =>
      exact ensures_step (u := ⟨idle, .syncRetry, env⟩)
        (ensureSynced_spec.mono (fun _ _ ht => hs.worked ht) (fun _ _ hfalse => hfalse.elim))
  | command c => exact command_wired h hu

/--
An authenticated session listens: in every run in which no `Disconnect` answers an error
and no `Authenticate` one of the storage, the inbound task of an authenticated session
reads the transport that is there, and the loop lets its frames pass.
-/
theorem authenticated_listens (uid : Option String) (completed : Bool) {turns : List Turn}
    (hsettles : Guarded step Settles (ActorState.boot uid completed) turns)
    (hauth : (run step (ActorState.boot uid completed) turns).sessionState = .authenticated) :
    (run step (ActorState.boot uid completed) turns).Listening := by
  have hboot : Wired (ActorState.boot uid completed) :=
    wired_in .new (slotted_of_none rfl) rfl (by decide)
  exact (hsettles.invariant Wired (fun _ _ hs hu => wired_step hs hu) hboot).listening hauth

/-- The connection is lost in the sync, and the retry listens to the next transport. -/
theorem authenticated_listens_retry :
    (run step (ActorState.boot (some "7") true)
      (lostInSync ++ [⟨0, .retry, Env.accepting .answered⟩])).Listening :=
  authenticated_listens (some "7") true ⟨trivial, trivial, trivial, trivial⟩
    (by decide +kernel)

end Listens

end Connection
end PrivchatSdk
