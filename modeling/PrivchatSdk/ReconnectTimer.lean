import PrivchatSdk.ConnectionSpecs

/-!
# The retry timer

A session that wants to be online is kept trying by one timer.

* After a health tick the next attempt of a session that wants to be online is due
  within 60 seconds, and only an attempt or a `Connect` moves it further
  (`retry_due_after_tick`).
* After a `Disconnect`, a switch of the account or its removal nothing is dialled and
  nobody is authenticated before the host asks for it (`offline_until_asked`).
-/

namespace PrivchatSdk
namespace Connection

open StatementExec Exec EventRun

section Clock

variable {s t u : ActorState}

/-- Time does not go back, and a deadline that is new is neither past nor far. -/
def Timed (s t : ActorState) : Prop :=
  s.clock ≤ t.clock ∧ ∀ deadline, t.nextReconnectAt = some deadline →
    s.nextReconnectAt = some deadline ∨ s.clock ≤ deadline ∧ deadline ≤ t.clock + 60000

theorem Timed.refl (s : ActorState) : Timed s s :=
  ⟨Nat.le_refl _, fun _ h => Or.inl h⟩

theorem Timed.trans (s t u : ActorState) (h : Timed s t) (h' : Timed t u) : Timed s u := by
  refine ⟨h.1.trans h'.1, fun deadline hd => ?_⟩
  have hclock := h.1
  have hclock' := h'.1
  rcases h'.2 deadline hd with hold | ⟨hlow, hhigh⟩
  · rcases h.2 deadline hold with hfirst | ⟨hlow, hhigh⟩
    · exact Or.inl hfirst
    · exact Or.inr ⟨hlow, by omega⟩
  · exact Or.inr ⟨by omega, hhigh⟩

theorem Move.timed {reach : Bool} (h : Move reach s t) : Timed s t := by
  cases h with
  | elapse took => exact ⟨Nat.le_add_right _ _, fun _ hd => Or.inl hd⟩
  | disarm attempt => exact ⟨Nat.le_refl _, fun _ hd => nomatch hd⟩
  | arm attempt delay hdelay =>
      refine ⟨Nat.le_refl _, ?_⟩
      rintro _ ⟨⟩
      exact Or.inr ⟨Nat.le_add_right _ _, Nat.add_le_add_left hdelay _⟩
  | health =>
      unfold ActorState.applyTransportHealth
      simp only [Bool.false_eq_true, if_false]
      split
      · refine ⟨Nat.le_refl _, fun deadline hd => ?_⟩
        dsimp only at hd
        split at hd
        · cases hd
          exact Or.inr ⟨Nat.le_refl _, Nat.le_add_right _ _⟩
        · exact Or.inl hd
      · exact Timed.refl s
  | _ => exact ⟨Nat.le_refl _, fun _ hd => Or.inl hd⟩

theorem Moves.timed {reach : Bool} (h : Moves reach s t) : Timed s t :=
  h.lift Timed.refl Timed.trans (fun _ _ => Move.timed)

theorem timed_step (s : ActorState) (t : Turn) : Timed s (step s t) :=
  (moves_step s t).timed

/-- No deadline is more than a minute away. -/
def ActorState.Bounded (s : ActorState) : Prop :=
  ∀ deadline, s.nextReconnectAt = some deadline → deadline ≤ s.clock + 60000

theorem Bounded.step (h : s.Bounded) (t : Turn) : (step s t).Bounded := by
  intro deadline hd
  obtain ⟨hclock, hnew⟩ := timed_step s t
  rcases hnew deadline hd with hold | ⟨-, hhigh⟩
  · exact (h deadline hold).trans (Nat.add_le_add_right hclock _)
  · exact hhigh

theorem Reachable.bounded (h : Reachable s) : s.Bounded := by
  obtain ⟨uid, completed, turns, -, rfl⟩ := h
  exact run_invariant ActorState.Bounded (fun _ t hs => Bounded.step hs t)
    (by rintro deadline ⟨⟩) turns

end Clock

section Watchdog

variable {s t : ActorState} {env : Env} {limit : Nat} {α : Type}

/-- The timer is set to a moment that is past or no later than `limit`. -/
def ActorState.Armed (limit : Nat) (s : ActorState) : Prop :=
  ∃ deadline, s.nextReconnectAt = some deadline ∧ deadline ≤ max s.clock limit

/-- A wanted connection that is neither logged in nor authenticated is being tried. -/
def ActorState.Tried (limit : Nat) (s : ActorState) : Prop :=
  s.shouldAutoReconnect = true →
    s.sessionState = .loggedIn ∨ s.sessionState = .authenticated ∨ s.Armed limit

theorem tried_of_unwanted (h : s.shouldAutoReconnect = false) : s.Tried limit := by
  intro hwanted
  rw [h] at hwanted
  cases hwanted

/-- The part of a turn that keeps a session tried. -/
def KeepsTried (limit : Nat) (s t : ActorState) : Prop :=
  s.Tried limit → t.Tried limit

theorem tried_of_eq (hwanted : t.shouldAutoReconnect = s.shouldAutoReconnect)
    (hstate : t.sessionState = s.sessionState) (hnext : t.nextReconnectAt = s.nextReconnectAt)
    (hclock : s.clock ≤ t.clock) : KeepsTried limit s t := by
  intro h hw
  rw [hwanted] at hw
  rcases h hw with hl | ha | ⟨deadline, hd, hle⟩
  · exact Or.inl (hstate.trans hl)
  · exact Or.inr (Or.inl (hstate.trans ha))
  · exact Or.inr (Or.inr ⟨deadline, hnext.trans hd, by omega⟩)

theorem tried_lostAt (moment : Nat) (hup : s.sessionState.isUp = true) :
    (s.lostAt moment).Tried limit := by
  intro hwanted
  rw [lostAt_of_up hup] at hwanted ⊢
  exact Or.inr (Or.inr ⟨moment, if_pos hwanted, le_max_left _ _⟩)

theorem Worked.tried (h : Worked s t) : KeepsTried limit s t := by
  obtain ⟨c, n, b, hc, rfl | ⟨m, hup, hm, hmc, rfl⟩⟩ := h
  · exact tried_of_eq rfl rfl rfl hc
  · intro _
    refine tried_of_eq (s := s.lostAt m) rfl rfl rfl ?_ (tried_lostAt m hup)
    rw [lostAt_of_up hup]
    exact hmc

/-- A session that is given up is not up, and is tried if it is wanted. -/
theorem tried_hangUp (h : s.Tried limit) : s.hangUp.Tried limit := by
  cases hup : s.sessionState.isUp with
  | false =>
      rw [hangUp_of_down hup]
      exact h
  | true =>
      intro hwanted
      rw [hangUp_of_up hup] at hwanted ⊢
      exact Or.inr (Or.inr ⟨s.clock, if_pos hwanted, le_max_left _ _⟩)

theorem KeepsTried.refl (s : ActorState) : KeepsTried limit s s :=
  id

theorem KeepsTried.trans (s t u : ActorState) (h : KeepsTried limit s t)
    (h' : KeepsTried limit t u) : KeepsTried limit s u :=
  fun hs => h' (h hs)

/-- A change that leaves the timer, the state and the wish alone. -/
theorem relates_tried_modify {f : ActorState → ActorState}
    (h : ∀ s, (f s).shouldAutoReconnect = s.shouldAutoReconnect ∧
      (f s).sessionState = s.sessionState ∧ (f s).nextReconnectAt = s.nextReconnectAt ∧
      s.clock ≤ (f s).clock) : Relates (KeepsTried limit) (modify f) :=
  relates_modify (fun s => tried_of_eq (h s).1 (h s).2.1 (h s).2.2.1 (h s).2.2.2)

theorem KeepsTried.bind {β : Type} {x : ConnM α} {f : α → ConnM β}
    (hx : Relates (KeepsTried limit) x) (hf : ∀ a, Relates (KeepsTried limit) (f a)) :
    Relates (KeepsTried limit) (x >>= f) :=
  Relates.bind KeepsTried.trans hx hf

/-- What a computation makes sure of, whether it succeeds or fails, it relates. -/
theorem relates_of_ensures {R : ActorState → ActorState → Prop} {x : ConnM α}
    (h : ∀ env s, Ensures x env s (fun _ t => R s t) (fun _ t => R s t)) : Relates R x := by
  intro env s
  have hx := h env s
  unfold Ensures at hx
  unfold Exec.after
  cases hrun : x env s with
  | mk result t =>
  rw [hrun] at hx
  cases result with
  | ok a => exact hx
  | error e => exact hx

theorem tried_background : Relates (KeepsTried limit) background :=
  relates_of_ensures (fun _ _ =>
    background_spec.mono (fun _ _ h => h.tried) (fun _ _ hfalse => hfalse.elim))

theorem tried_finish {x : ConnM Unit} (hx : Relates (KeepsTried limit) x) :
    Relates (KeepsTried limit) (finish x) := by
  unfold finish flushPending
  exact KeepsTried.bind hx.attempt (fun r => KeepsTried.bind
    (relates_tried_modify (fun s => ⟨rfl, rfl, rfl, Nat.le_refl _⟩))
    (fun _ => relates_ofExcept KeepsTried.refl r))

theorem tried_stopInboundTask (h : s.Tried limit) : s.stopInboundTask.Tried limit :=
  tried_of_eq rfl rfl rfl (Nat.le_refl _) h

theorem tried_markReconnectReadyNow : s.markReconnectReadyNow.Tried limit :=
  fun _ => Or.inr (Or.inr ⟨s.clock, rfl, le_max_left _ _⟩)

theorem tried_onHealthTick : Relates (KeepsTried limit) onHealthTick := by
  unfold onHealthTick probeTransport flushPending
  refine KeepsTried.bind (relates_modify (fun s hs => ?_)) (fun _ => KeepsTried.bind
    (relates_of_ensures (fun env s => ?_)) (fun _ => KeepsTried.bind tried_background
      (fun _ => relates_tried_modify (fun s => ⟨rfl, rfl, rfl, Nat.le_refl _⟩))))
  · unfold ActorState.watchdog
    split
    · exact tried_markReconnectReadyNow
    · exact hs
  · simp only [ensures_bind, ensures_ask, ensures_get]
    split
    · exact fun hs => tried_hangUp (tried_stopInboundTask hs)
    · exact KeepsTried.refl s

theorem tried_setNetworkHint (hint : NetworkHint) :
    KeepsTried limit s (s.setNetworkHint hint) := by
  intro hs
  have hset : (if s.networkHint = hint then s else
      { s with networkHint := hint }.emit (.networkHintChanged s.networkHint hint)).Tried
        limit := by
    split
    · exact hs
    · exact tried_of_eq (s := s) rfl rfl rfl (Nat.le_refl _) hs
  unfold ActorState.setNetworkHint
  dsimp only
  split
  · exact tried_hangUp (tried_stopInboundTask hset)
  · split
    · exact tried_markReconnectReadyNow
    · exact hset

theorem tried_onPing : Relates (KeepsTried limit) onPing := by
  unfold onPing
  refine relates_of_ensures (fun env s => ?_)
  simp only [ensures_bind, ensures_ask, ensures_get]
  split
  · exact KeepsTried.refl s
  · simp only [ensures_bind, ensures_modify, ensures_fail]
    intro hs
    exact (Worked.of_loseTransport s.stopInboundTask s.clock s.network (Nat.le_refl _)).tried
      (tried_stopInboundTask hs)

theorem tried_onLogin (context message : String) :
    Relates (KeepsTried limit) (onLogin context message) := by
  unfold onLogin loginWithin
  refine relates_of_ensures (fun env s => ?_)
  simp only [ensures_bind, ensures_ask, ensures_get]
  rw [ensures_ofExcept]
  refine ⟨fun next hnext => ?_, fun _ _ => KeepsTried.refl s⟩
  cases can_login_ok hnext
  refine (requestBytes_spec _ _ _ _).mono ?_ (fun _ _ h => h.1.tried)
  rintro _ t ⟨rfl, -⟩
  have hsent : KeepsTried limit s ((s.send (.rpc context)).elapse env.login.took) :=
    (Worked.sent s _ _).tried
  split
  · exact hsent
  · simp only [ensures_bind, ensures_modify]
    rw [ensures_ofExcept]
    refine ⟨fun uid _ => ?_, fun _ _ => hsent⟩
    rw [ensures_ofExcept]
    refine ⟨fun _ _ => ?_, fun _ _ => hsent⟩
    refine (work_spec env.replay).mono (fun _ u hu => ?_) (fun _ _ hfalse => hfalse.elim)
    split
    · exact fun hs => hu.tried (tried_of_eq rfl rfl rfl (Nat.le_refl _) (hsent hs))
    · exact fun _ _ => Or.inl rfl

theorem tried_onSetCurrentUid (uid : String) :
    Relates (KeepsTried limit) (onSetCurrentUid uid) := by
  unfold onSetCurrentUid
  refine relates_of_ensures (fun env s => ?_)
  simp only [ensures_bind, ensures_ask, ensures_get]
  split
  · exact KeepsTried.refl s
  · split
    · exact KeepsTried.refl s
    · rw [ensures_bind, ensures_ofExcept]
      exact ⟨fun _ _ => tried_of_eq rfl rfl rfl (Nat.le_refl _), fun _ _ => KeepsTried.refl s⟩

end Watchdog

section Unwanted

variable {s t : ActorState} {env : Env}

/-- The command ends with a session that is not to be reconnected. -/
theorem onDisconnect_unwanted :
    Ensures onDisconnect env s (fun _ t => t.shouldAutoReconnect = false)
      (fun _ t => t.shouldAutoReconnect = false) := by
  unfold onDisconnect
  simp only [ensures_bind, ensures_modify, ensures_get]
  refine disconnect_spec.mono ?_ ?_
  · rintro _ t rfl
    split
    · rfl
    · rfl
  · rintro _ t ⟨rfl, -⟩
    rfl

theorem withdraw_unwanted (pushed : List SdkEvent) :
    Ensures (withdraw pushed) env s (fun _ t => t.shouldAutoReconnect = false)
      (fun _ t => t.shouldAutoReconnect = false) := by
  unfold withdraw forgetUser
  simp only [ensures_bind, ensures_modify, ensures_get, ensures_ask]
  split
  · simp only [ensures_bind, ensures_modify]
    rw [ensures_ofExcept]
    refine ⟨fun _ _ => ?_, fun _ _ => rfl⟩
    rw [ensures_ofExcept]
    exact ⟨fun _ _ => rfl, fun _ _ => rfl⟩
  · rfl

theorem onSwitchLocalAccount_unwanted (uid : String) :
    Ensures (onSwitchLocalAccount uid) env s (fun _ t => t.shouldAutoReconnect = false)
      (fun e t => t = s ∧ env.chosen = .error e) := by
  unfold onSwitchLocalAccount
  simp only [ensures_bind, ensures_get, ensures_ask]
  rw [ensures_ofExcept]
  refine ⟨fun completed _ => ?_, fun e he => ⟨rfl, he⟩⟩
  simp only [ensures_modify, ensures_attempt]
  refine disconnect_spec.mono ?_ ?_
  · rintro _ t rfl
    unfold reportChange
    rw [ensures_modify]
    unfold ActorState.emitTransition
    split
    · rfl
    · rfl
  · rintro _ t ⟨rfl, -⟩
    unfold reportChange
    rw [ensures_modify]
    unfold ActorState.emitTransition
    split
    · rfl
    · rfl

theorem onShutdown_unwanted :
    Ensures onShutdown env s (fun _ t => t.shouldAutoReconnect = false) (fun _ _ => False) := by
  rfl

theorem finish_unwanted {x : ConnM Unit}
    (h : Ensures x env s (fun _ t => t.shouldAutoReconnect = false)
      (fun _ t => t.shouldAutoReconnect = false)) :
    Ensures (finish x) env s (fun _ t => t.shouldAutoReconnect = false)
      (fun _ t => t.shouldAutoReconnect = false) :=
  finish_ensures h (fun _ _ ht => ht) (fun _ _ ht => ht)

end Unwanted

section Due

variable {s t : ActorState} {env : Env} {limit : Nat}

theorem Aged.tried (h : Aged s t) : KeepsTried limit s t :=
  h.worked.tried

theorem Accepted.tried {uid : String} (h : Accepted uid s t) : KeepsTried limit s t := by
  intro hs
  refine Aged.tried h ?_
  unfold ActorState.resetIfOwnerChanged
  split
  · exact tried_of_unwanted rfl
  · exact hs

theorem Dialed.tried (h : Dialed s t) : KeepsTried limit s t := by
  obtain ⟨_, _, _, _, _, hclock, rfl, -⟩ := h
  exact tried_of_eq rfl rfl rfl hclock

/-- Reconnecting for an authentication starts from a session that is not up. -/
theorem tried_driverReconnect (call : Nat) (hs : s.Tried limit) :
    Ensures (driverReconnect call) env s (fun _ t => t.Tried limit)
      (fun _ t => t.Tried limit) := by
  have hgiven : s.stopInboundTask.hangUp.Tried limit := tried_hangUp (tried_stopInboundTask hs)
  refine (driverReconnect_spec call).mono ?_ (fun _ t ht => ht.1.tried hgiven)
  rintro _ t ⟨d, hd, -, hdown, rfl⟩
  intro hwanted
  rcases hd.tried hgiven hwanted with hl | ha | harmed
  · rw [hl] at hdown
    cases hdown
  · rw [ha] at hdown
    cases hdown
  · exact Or.inr (Or.inr harmed)

theorem tried_driverAuthenticate (userId call : Nat) (hs : s.Tried limit) :
    Ensures (driverAuthenticate userId call) env s
      (fun _ t => t.sessionState = .authenticated) (fun _ t => t.Tried limit) := by
  refine (driverAuthenticate_spec userId call).mono ?_ ?_
  · rintro _ t ⟨-, r, -, rfl⟩
    rfl
  · rintro e t (⟨-, haged, -⟩ | ⟨hworked, -⟩ | ⟨-, haccepted, -⟩)
    · exact haged.tried hs
    · exact hworked.tried hs
    · exact haccepted.tried hs

theorem tried_authenticateWithRetry (userId : Nat) (needReconnect : Bool)
    (hs : s.Tried limit) :
    Ensures (authenticateWithRetry userId needReconnect) env s
      (fun _ t => t.sessionState = .authenticated) (fun _ t => t.Tried limit) := by
  refine executeAuthenticateWithRetry_rule (fun t => t.Tried limit)
    (fun t => t.Tried limit) (fun call t ht => tried_driverReconnect _ ht)
    (fun call t ht => ?_) ?_
  · exact (tried_driverAuthenticate userId call ht).mono (fun _ _ h => h)
      (fun e u hu => ⟨fun _ => hu, fun _ => ⟨hu, hu⟩⟩)
  · split
    · exact hs
    · exact hs

theorem tried_onAuthenticate (userId : Nat) (plan : AuthenticateTransportPlan) :
    Relates (KeepsTried limit) (onAuthenticate userId plan) := by
  refine relates_of_ensures (fun env s => ?_)
  suffices h : s.Tried limit → Ensures (onAuthenticate userId plan) env s
      (fun _ t => t.Tried limit) (fun _ t => t.Tried limit) by
    by_cases hs : s.Tried limit
    · exact (h hs).mono (fun _ _ ht _ => ht) (fun _ _ ht _ => ht)
    · exact (Relates.ensures (R := fun _ _ => True) (fun _ _ => trivial) env s).mono
        (fun _ _ _ hs' => absurd hs' hs) (fun _ _ _ hs' => absurd hs' hs)
  intro hs
  unfold onAuthenticate
  simp only [ensures_bind, ensures_get, ensures_attempt]
  refine (tried_authenticateWithRetry userId _ hs).mono (fun _ t ht => ?_) (fun e t ht => ?_)
  · simp only [ensures_modify]
    refine listen_spec.mono (fun _ u hu => ?_) (fun _ _ hfalse => hfalse.elim)
    refine resume_spec.mono (fun _ v hv => ?_) (fun _ _ hfalse => hfalse.elim)
    have hup : (ActorState.startInboundTask
        { t with authTerminalFired := false, shouldAutoReconnect := true }).Tried limit :=
      fun _ => Or.inr (Or.inl ht)
    exact hv.tried (hu.tried hup)
  · unfold runIf
    split
    · refine (triggerForcedLogout_spec e .manual).mono (fun _ u hu => ?_)
        (fun _ _ hfalse => hfalse.elim)
      rw [ensures_fail]
      split at hu
      · exact hu ▸ ht
      · obtain ⟨transport, -, rfl⟩ := hu
        exact tried_of_unwanted rfl
    · exact ht

/-- All arms but the attempts and the host's `Connect` keep a wanted session tried. -/
theorem tried_arm {a : Arm} (hretry : a ≠ .retry) (hconnect : a ≠ .command .connect) :
    Relates (KeepsTried limit) a.run := by
  have hunwanted : ∀ {x : ConnM Unit},
      (∀ env s, Ensures x env s (fun _ t => t.shouldAutoReconnect = false)
        (fun _ t => t.shouldAutoReconnect = false)) → Relates (KeepsTried limit) x :=
    fun h => relates_of_ensures (fun env s => (h env s).mono
      (fun _ _ ht _ => tried_of_unwanted ht) (fun _ _ ht _ => tried_of_unwanted ht))
  have hget : ∀ {f : ActorState → ConnM Unit},
      (∀ s, Relates (KeepsTried limit) (f s)) → Relates (KeepsTried limit) (get >>= f) :=
    KeepsTried.bind (relates_get KeepsTried.refl)
  have hpure : Relates (KeepsTried limit) (pure () : ConnM Unit) :=
    relates_pure KeepsTried.refl _
  cases a with
  | retry => exact absurd rfl hretry
  | healthTick => exact tried_onHealthTick
  | repairTick passed =>
      exact KeepsTried.bind tried_background (fun _ => Relates.ite
        (relates_tried_modify (fun s => ⟨rfl, rfl, rfl, Nat.le_refl _⟩)) hpure)
  | syncRetry =>
      exact relates_of_ensures (fun _ _ =>
        ensureSynced_spec.mono (fun _ _ h => h.tried) (fun _ _ hfalse => hfalse.elim))
  | command c =>
    cases c with
    | connect => exact absurd rfl hconnect
    | disconnect => exact tried_finish (hunwanted (fun _ _ => onDisconnect_unwanted))
    | ping => exact tried_finish tried_onPing
    | setNetworkHint hint =>
        exact tried_finish (relates_modify (fun s => tried_setNetworkHint hint))
    | inboundFrame epoch =>
        exact hget (fun s => Relates.ite (tried_finish tried_background) hpure)
    | inboundDisconnected epoch =>
        exact hget (fun s => Relates.ite (tried_finish (relates_modify (fun s hs =>
          tried_hangUp (tried_stopInboundTask hs)))) hpure)
    | login => exact tried_finish (tried_onLogin _ _)
    | register => exact tried_finish (tried_onLogin _ _)
    | authenticate userId =>
        exact KeepsTried.bind (relates_ask KeepsTried.refl) (fun env => hget (fun s =>
          KeepsTried.bind (relates_ofExcept KeepsTried.refl _)
            (fun plan => tried_finish (tried_onAuthenticate userId plan))))
    | clearLocalState => exact tried_finish (hunwanted (fun _ _ => withdraw_unwanted _))
    | wipeCurrentUserFull => exact tried_finish (hunwanted (fun _ _ => withdraw_unwanted _))
    | switchLocalAccount uid =>
        exact tried_finish (relates_of_ensures (fun env s =>
          (onSwitchLocalAccount_unwanted uid).mono (fun _ _ ht _ => tried_of_unwanted ht)
            (fun _ _ ht => by rw [ht.1]; exact KeepsTried.refl s)))
    | setCurrentUid uid => exact tried_finish (tried_onSetCurrentUid uid)
    | request => exact tried_finish tried_background
    | shutdown =>
        exact hunwanted (fun _ _ => onShutdown_unwanted.mono (fun _ _ h => h)
          (fun _ _ hfalse => hfalse.elim))

theorem tried_step {u : Turn} (hretry : u.arm ≠ .retry) (hconnect : u.arm ≠ .command .connect)
    (hs : s.Tried limit) : (step s u).Tried limit :=
  tried_arm hretry hconnect u.env (s.elapse u.idle)
    (tried_of_eq (s := s) rfl rfl rfl (Nat.le_add_right _ _) hs)

/-- A wanted session is in the timer's hands after a health tick. -/
theorem healthTick_sets (env : Env) (s : ActorState) :
    Ensures onHealthTick env s
      (fun _ t => t.wantsOnline = true → t.nextReconnectAt ≠ none) (fun _ _ => False) := by
  have hlost : ∀ {a : ActorState}, (a.wantsOnline = true → a.nextReconnectAt ≠ none) →
      (a.stopInboundTask.hangUp.wantsOnline = true →
        a.stopInboundTask.hangUp.nextReconnectAt ≠ none) := by
    intro a ha
    cases hup : a.stopInboundTask.sessionState.isUp with
    | false =>
        rw [hangUp_of_down hup]
        exact ha
    | true =>
        rw [hangUp_of_up hup]
        intro hwants
        have hwanted : a.shouldAutoReconnect = true := (Bool.and_eq_true_iff.mp hwants).1
        simp [ActorState.stopInboundTask, hwanted]
  have hworked : ∀ {a b : ActorState}, (a.wantsOnline = true → a.nextReconnectAt ≠ none) →
      Worked a b → (b.wantsOnline = true → b.nextReconnectAt ≠ none) := by
    intro a b ha hab
    obtain ⟨c, n, m, -, rfl | ⟨moment, hup, -, -, rfl⟩⟩ := hab
    · exact ha
    · rw [lostAt_of_up hup]
      intro hwants
      have hwanted : a.shouldAutoReconnect = true := (Bool.and_eq_true_iff.mp hwants).1
      simp [ActorState.aged, hwanted]
  have hwatched : s.watchdog.wantsOnline = true → s.watchdog.nextReconnectAt ≠ none := by
    unfold ActorState.watchdog
    split
    · exact fun _ h => nomatch h
    · rename_i hc
      exact fun hwants hnone => hc ⟨hwants, hnone⟩
  unfold onHealthTick probeTransport flushPending
  simp only [ensures_bind, ensures_modify, ensures_ask, ensures_get]
  split
  · exact background_spec.mono
      (fun _ t (ht : Worked _ t) => hworked (b := t) (hlost hwatched) ht) (fun _ _ h => h)
  · exact background_spec.mono
      (fun _ t (ht : Worked _ t) => hworked (b := t) hwatched ht) (fun _ _ h => h)

/-- The one server is up, and refuses the stored user with a code. -/
def Env.refusing (code : Nat) : Env where
  alive := false
  dial := fun _ => { alive := false, endpoints := [.ok ()], outOfTime := false, took := 5 }
  session := .ok (some { userId := 7, bootstrapCompleted := true })
  round := fun _ =>
    { reply := .answered
      took := 3
      response := .ok { success := false, errorCode := some code, errorMessage := none }
      existing := none
      bootstrapMark := false
      saved := .ok () }
  login := { reply := .timeout, took := 0, answer := .ok 7, saved := .ok (), cut := .never }
  closing := .ok ()
  jitter := { delay := fun base => 1000 * base, bounds := fun base => by omega }
  replay := []
  requests := []
  bootstrap := none
  clear := .ok ()
  clearUid := .ok ()
  chosen := .ok false

/-- The start of a session whose stored token the server refuses. -/
def refusedConnect : Turn :=
  { idle := 0, arm := .command .connect, env := Env.refusing 10003 }

theorem possible_refusedConnect (uid : Option String) (completed : Bool) :
    Possible (ActorState.boot uid completed) refusedConnect :=
  ⟨(fun h => nomatch h), (fun h => nomatch h)⟩

theorem ensures_turn {P : Except Error Unit → ActorState → Prop} {u : Turn}
    (h : Ensures u.arm.run u.env (s.elapse u.idle) (fun a => P (.ok a))
      (fun e => P (.error e))) : P (u.run s).1 (step s u) := by
  unfold Ensures at h
  unfold step Turn.run
  split at h
  · rename_i hrun
    rw [hrun]
    exact h
  · rename_i hrun
    rw [hrun]
    exact h

theorem ensures_step {P : ActorState → Prop} {u : Turn}
    (h : Ensures u.arm.run u.env (s.elapse u.idle) (fun _ => P) (fun _ => P)) : P (step s u) :=
  ensures_turn (P := fun _ => P) h

/--
From a health tick on, a session that wants to be online is due for an attempt within
60 seconds, whatever happens but an attempt or a `Connect` of the host: a deadline
that is set is not put off, and one that is lost is set again.
-/
theorem retry_due_after_tick (hs : Reachable s) {tick : Turn} (htick : tick.arm = .healthTick)
    {turns : List Turn}
    (hturns : ∀ u ∈ turns, u.arm ≠ .retry ∧ u.arm ≠ .command .connect)
    (hwants : (step s tick).wantsOnline = true)
    (hend : (run step (step s tick) turns).wantsOnline = true) :
    ∃ deadline, (run step (step s tick) turns).retryDeadline = some deadline ∧
      deadline ≤ max (run step (step s tick) turns).clock ((step s tick).clock + 60000) := by
  have hset : (step s tick).nextReconnectAt ≠ none := by
    refine ensures_step (P := fun t => t.wantsOnline = true → t.nextReconnectAt ≠ none) ?_ hwants
    rw [htick]
    exact (healthTick_sets tick.env (s.elapse tick.idle)).mono (fun _ _ h => h)
      (fun _ _ hfalse => hfalse.elim)
  obtain ⟨deadline, hdeadline⟩ := Option.ne_none_iff_exists'.mp hset
  have hle : deadline ≤ (step s tick).clock + 60000 :=
    Bounded.step hs.bounded tick deadline hdeadline
  have htried : ∀ us : List Turn, (∀ u ∈ us, u.arm ≠ .retry ∧ u.arm ≠ .command .connect) →
      ∀ r : ActorState, r.Tried ((step s tick).clock + 60000) →
        (run step r us).Tried ((step s tick).clock + 60000) := by
    intro us
    induction us with
    | nil =>
        exact fun _ _ hr => hr
    | cons u us ih =>
        intro hus r hr
        obtain ⟨hretry, hconnect⟩ := hus u List.mem_cons_self
        exact ih (fun v hv => hus v (List.mem_cons_of_mem _ hv)) _
          (tried_step hretry hconnect hr)
  have hlast := htried turns hturns (step s tick)
    (fun _ => Or.inr (Or.inr ⟨deadline, hdeadline, le_max_of_le_right hle⟩))
  generalize run step (step s tick) turns = t at hend hlast ⊢
  obtain ⟨hwanted, hstate⟩ := Bool.and_eq_true_iff.mp hend
  rcases hlast hwanted with hl | ha | ⟨d, hd, hdle⟩
  · simp [ActorState.awaitingReauth, hl] at hstate
  · simp [ActorState.awaitingReauth, ha] at hstate
  · exact ⟨d, by rw [ActorState.retryDeadline, if_pos hend, hd], hdle⟩

/-- Two pings later the attempt that the failed `Connect` asked for is due. -/
theorem retry_due_after_tick_pings :
    ∃ deadline,
      (run step (step (step (ActorState.boot (some "7") true) refusedConnect)
        ⟨500, .healthTick, Env.refusing 10003⟩)
        (List.replicate 2 ⟨700, .command .ping, Env.refusing 10003⟩)).retryDeadline =
          some deadline ∧
      deadline ≤ max
        (run step (step (step (ActorState.boot (some "7") true) refusedConnect)
          ⟨500, .healthTick, Env.refusing 10003⟩)
          (List.replicate 2 ⟨700, .command .ping, Env.refusing 10003⟩)).clock
        ((step (step (ActorState.boot (some "7") true) refusedConnect)
          ⟨500, .healthTick, Env.refusing 10003⟩).clock + 60000) :=
  retry_due_after_tick
    ⟨some "7", true, [refusedConnect], ⟨possible_refusedConnect _ _, trivial⟩, rfl⟩ rfl
    (by
      intro u hu
      rw [List.eq_of_mem_replicate hu]
      exact ⟨(fun h => nomatch h), (fun h => nomatch h)⟩)
    (by decide +kernel) (by decide +kernel)

end Due

section Offline

variable {s t : ActorState}

/-- A call that is to end in an authenticated connection. -/
def NetworkCall.reaches : NetworkCall → Bool
  | .dial | .auth _ => true
  | .rpc _ => false

/-- What was sent to get a connection. -/
def ActorState.attempts (s : ActorState) : List NetworkCall :=
  s.network.filter NetworkCall.reaches

/-- A session that is not wanted stays so, and nothing is done for it. -/
def Offline (s t : ActorState) : Prop :=
  s.shouldAutoReconnect = false →
    t.shouldAutoReconnect = false ∧ t.attempts = s.attempts ∧
      (t.sessionState = .authenticated → s.sessionState = .authenticated)

theorem Offline.refl (s : ActorState) : Offline s s :=
  fun h => ⟨h, rfl, id⟩

theorem Offline.trans (s t u : ActorState) (h : Offline s t) (h' : Offline t u) :
    Offline s u := by
  intro hs
  obtain ⟨ht, hattempts, hstate⟩ := h hs
  obtain ⟨hu, hattempts', hstate'⟩ := h' ht
  exact ⟨hu, hattempts'.trans hattempts, fun ha => hstate (hstate' ha)⟩

theorem Move.offline (h : Move false s t) : Offline s t := by
  intro hs
  cases h with
  | rpc context =>
      refine ⟨hs, ?_, id⟩
      simp [ActorState.attempts, ActorState.send, NetworkCall.reaches]
  | dial h => cases h
  | auth userId h => cases h
  | wanted h => cases h
  | enter next h =>
      refine ⟨hs, rfl, fun ha => ?_⟩
      have hnext : next = .authenticated := ha
      cases h hnext
  | health =>
      unfold ActorState.applyTransportHealth
      simp only [Bool.false_eq_true, if_false]
      split
      · refine ⟨hs, rfl, fun ha => ?_⟩
        cases ha
      · exact ⟨hs, rfl, id⟩
  | unwanted => exact ⟨rfl, rfl, id⟩
  | _ => exact ⟨hs, rfl, id⟩

theorem offline_step {u : Turn} (hposs : Possible s u)
    (hasks : u.arm ≠ .command .connect ∧ ∀ userId, u.arm ≠ .command (.authenticate userId)) :
    Offline s (step s u) := by
  intro hs
  have hretry : u.arm ≠ .retry := by
    intro harm
    obtain ⟨deadline, hdeadline, -⟩ := hposs.2 harm
    unfold ActorState.retryDeadline ActorState.wantsOnline at hdeadline
    rw [hs] at hdeadline
    cases hdeadline
  have hquiet : u.arm.quiet = true := by
    unfold Arm.quiet
    split
    · rename_i harm
      exact absurd harm hretry
    · rename_i harm
      exact absurd harm hasks.1
    · rename_i userId harm
      exact absurd harm (hasks.2 userId)
    · rfl
  exact (moves_quiet_step s hquiet).lift Offline.refl Offline.trans
    (fun _ _ => Move.offline) hs

/-- The host, by a command that the disk or the transport does not refuse, or the end. -/
def Turn.withdraws (u : Turn) : Prop :=
  match u.arm with
  | .command .disconnect | .command .clearLocalState | .command .wipeCurrentUserFull
  | .command .shutdown => True
  | .command (.switchLocalAccount _) => ∃ completed, u.env.chosen = .ok completed
  | _ => False

theorem withdraws_unwanted {u : Turn} (h : u.withdraws) :
    (step s u).shouldAutoReconnect = false := by
  refine ensures_step (P := fun t => t.shouldAutoReconnect = false) ?_
  unfold Turn.withdraws at h
  split at h
  · rename_i harm
    rw [harm]
    exact finish_unwanted onDisconnect_unwanted
  · rename_i harm
    rw [harm]
    exact finish_unwanted (withdraw_unwanted _)
  · rename_i harm
    rw [harm]
    exact finish_unwanted (withdraw_unwanted _)
  · rename_i harm
    rw [harm]
    exact onShutdown_unwanted.mono (fun _ _ h => h) (fun _ _ hfalse => hfalse.elim)
  · rename_i uid harm
    obtain ⟨completed, hchosen⟩ := h
    rw [harm]
    refine finish_unwanted ((onSwitchLocalAccount_unwanted uid).mono (fun _ _ h => h) ?_)
    rintro e t ⟨-, he⟩
    rw [hchosen] at he
    cases he
  · exact h.elim

/--
The host's wish to be offline holds: after a command that withdraws the session, and
until the host connects or authenticates again, nothing is dialled, nobody is
authenticated, and the session does not become authenticated by itself.
-/
theorem offline_until_asked {u : Turn} (hu : u.withdraws) {turns : List Turn}
    (hposs : Guarded step Possible (step s u) turns)
    (hasks : ∀ v ∈ turns, v.arm ≠ .command .connect ∧
      ∀ userId, v.arm ≠ .command (.authenticate userId)) :
    (run step (step s u) turns).attempts = (step s u).attempts ∧
      (run step (step s u) turns).shouldAutoReconnect = false ∧
      ((run step (step s u) turns).sessionState = .authenticated →
        (step s u).sessionState = .authenticated) := by
  have hrun : ∀ vs : List Turn, ∀ r, Guarded step Possible r vs →
      (∀ v ∈ vs, v.arm ≠ .command .connect ∧
        ∀ userId, v.arm ≠ .command (.authenticate userId)) → Offline r (run step r vs) := by
    intro vs
    induction vs with
    | nil =>
        exact fun r _ _ => Offline.refl r
    | cons v vs ih =>
        intro r hr hvs
        exact Offline.trans _ _ _ (offline_step hr.1 (hvs v List.mem_cons_self))
          (ih _ hr.2 (fun w hw => hvs w (List.mem_cons_of_mem _ hw)))
  obtain ⟨hwanted, hattempts, hstate⟩ :=
    hrun turns _ hposs hasks (withdraws_unwanted hu)
  exact ⟨hattempts, hwanted, hstate⟩

/-- A failed `Connect` is called off, and the next health tick leaves it so. -/
theorem offline_until_asked_tick :
    (run step (step (step (ActorState.boot (some "7") true) refusedConnect)
      ⟨0, .command .disconnect, Env.refusing 10003⟩)
      [⟨15000, .healthTick, Env.refusing 10003⟩]).attempts =
        (step (step (ActorState.boot (some "7") true) refusedConnect)
          ⟨0, .command .disconnect, Env.refusing 10003⟩).attempts :=
  (@offline_until_asked (step (ActorState.boot (some "7") true) refusedConnect)
    ⟨0, .command .disconnect, Env.refusing 10003⟩ trivial
    [⟨15000, .healthTick, Env.refusing 10003⟩]
    ⟨⟨by decide +kernel, (fun h => nomatch h)⟩, trivial⟩
    (by
      intro v hv
      rw [List.mem_singleton.mp hv]
      exact ⟨(fun h => nomatch h), (fun _ h => nomatch h)⟩)).1

end Offline

end Connection
end PrivchatSdk
