import PrivchatSdk.ReconnectPace

/-!
# What the host is told of the connection

The host follows the connection by its events.  A loss that a request finds is an
event that waits, and the retry arm, the repair tick and the sync timer end without
handing it over.

* As long as nothing waits when the session takes a step up, the last event names the
  state that the session is in (`reports_follow`), but for a login that loses the
  transport while it replays frames, and an account that the disk does not clear.
* After a command or a health tick nothing waits (`nothing_waits_after`).
* A retry or a `Connect` that starts while a loss waits is told before it, and the host
  takes the session for lost although the attempt succeeded (`stale_report_iff`).
-/

namespace PrivchatSdk
namespace Connection

open StatementExec Exec EventRun

section Told

/-- The state that an event names, if it names one. -/
def SdkEvent.told : SdkEvent → Option ConnectionState
  | .connectionStateChanged _ after => some after
  | .forcedLogout _ _ _ => some .terminated
  | _ => none

/-- The last state that the events name. -/
def lastTold (events : List SdkEvent) : Option ConnectionState :=
  (events.filterMap SdkEvent.told).getLast?

theorem lastTold_append (events later : List SdkEvent) :
    lastTold (events ++ later) = (lastTold later).or (lastTold events) := by
  simp [lastTold, List.filterMap_append, List.getLast?_append]

theorem lastTold_concat (events : List SdkEvent) (event : SdkEvent) :
    lastTold (events ++ [event]) = event.told.or (lastTold events) := by
  rw [lastTold_append]
  cases h : event.told <;> simp [lastTold, h]

variable {s t : ActorState} {always : Bool}

namespace ActorState

/-- The state that the waiting events name. -/
def waiting (s : ActorState) : Option ConnectionState :=
  lastTold s.pendingEvents

/-- What a host takes the state for that has got all events, those that wait too. -/
def heard (s : ActorState) : ConnectionState :=
  (lastTold (s.emitted ++ s.pendingEvents)).getD .new

theorem heard_eq (s : ActorState) :
    s.heard = (s.waiting.or (lastTold s.emitted)).getD .new := by
  unfold heard
  rw [lastTold_append]
  rfl

theorem heard_of_silent (h : s.waiting = none) :
    s.heard = (lastTold s.emitted).getD .new := by
  rw [heard_eq, h]
  rfl

theorem heard_of_waiting {state : ConnectionState} (h : s.waiting = some state) :
    s.heard = state := by
  rw [heard_eq, h]
  rfl

theorem heard_of_concat {events : List SdkEvent} {event : SdkEvent} {state : ConnectionState}
    (hsilent : s.waiting = none) (hlast : s.emitted = events ++ [event])
    (htold : event.told = some state) : s.heard = state := by
  rw [heard_of_silent hsilent, hlast, lastTold_concat, htold]
  rfl

/-- What waits is at most that the transport was lost, and the session has none since. -/
def Tidy (s : ActorState) : Prop :=
  s.waiting = none ∨ s.waiting = some .new ∧ s.sessionState = .new

/-- The events name the state of the session, `always` or at least while it is down. -/
structure Told (always : Bool) (s : ActorState) : Prop where
  tidy : s.Tidy
  heard : always = true ∨ s.sessionState.isUp = false →
    s.heard = s.sessionState.asConnectionState

end ActorState

/-- What was told, what waits and the state are the same. -/
def SameNews (s t : ActorState) : Prop :=
  t.waiting = s.waiting ∧ lastTold t.emitted = lastTold s.emitted ∧
    t.sessionState = s.sessionState

theorem SameNews.heard (h : SameNews s t) : t.heard = s.heard := by
  rw [ActorState.heard_eq, ActorState.heard_eq, h.1, h.2.1]

theorem ActorState.Tidy.same (h : s.Tidy) (hsame : SameNews s t) : t.Tidy := by
  unfold ActorState.Tidy at h ⊢
  rw [hsame.1, hsame.2.2]
  exact h

theorem ActorState.Told.same (h : s.Told always) (hsame : SameNews s t) : t.Told always where
  tidy := h.tidy.same hsame
  heard hneeded := by
    rw [hsame.2.2] at hneeded ⊢
    rw [hsame.heard]
    exact h.heard hneeded

/-- Where the session is not `New`, nothing waits. -/
theorem ActorState.Tidy.silent (h : s.Tidy) (hstate : s.sessionState ≠ .new) :
    s.waiting = none := by
  rcases h with hnone | ⟨-, hnew⟩
  · exact hnone
  · exact absurd hnew hstate

theorem ActorState.Tidy.silent_of_up (h : s.Tidy) (hup : s.sessionState.isUp = true) :
    s.waiting = none := by
  refine h.silent ?_
  intro hnew
  rw [hnew] at hup
  cases hup

/-- A loss that waits tells the state. -/
theorem told_of_lost (hwaits : t.waiting = some .new) (hnew : t.sessionState = .new) :
    t.Told always where
  tidy := Or.inr ⟨hwaits, hnew⟩
  heard _ := by
    rw [ActorState.heard_of_waiting hwaits, hnew]
    rfl

/-- The state of a session up that nothing contradicts need not have been told. -/
theorem told_of_up (hsilent : t.waiting = none) (hup : t.sessionState.isUp = true) :
    t.Told false where
  tidy := Or.inl hsilent
  heard hneeded := by
    rcases hneeded with hfalse | hdown
    · cases hfalse
    · rw [hup] at hdown
      cases hdown

theorem ActorState.Told.weaken (h : s.Told true) : s.Told always :=
  ⟨h.tidy, fun _ => h.heard (Or.inl rfl)⟩

/-- Requests change nothing of what is told, or their loss waits. -/
theorem Worked.news (h : Worked s t) :
    SameNews s t ∨ t.waiting = some .new ∧ t.sessionState = .new := by
  obtain ⟨clock, network, completed, -, rfl | ⟨moment, hup, -, -, rfl⟩⟩ := h
  · exact Or.inl ⟨rfl, rfl, rfl⟩
  · right
    rw [lostAt_of_up hup]
    refine ⟨?_, rfl⟩
    unfold ActorState.waiting ActorState.aged
    dsimp only
    rw [lastTold_concat]
    rfl

theorem ActorState.Tidy.worked (h : s.Tidy) (hw : Worked s t) : t.Tidy := by
  rcases hw.news with hsame | hlost
  · exact h.same hsame
  · exact Or.inr hlost

theorem ActorState.Told.worked (h : s.Told always) (hw : Worked s t) : t.Told always := by
  rcases hw.news with hsame | ⟨hwaits, hnew⟩
  · exact h.same hsame
  · exact told_of_lost hwaits hnew

theorem Aged.news (h : Aged s t) : SameNews s t := by
  obtain ⟨_, _, _, -, rfl⟩ := h
  exact ⟨rfl, rfl, rfl⟩

theorem Dialed.news (h : Dialed s t) : SameNews s t := by
  obtain ⟨_, _, _, _, _, -, rfl, -⟩ := h
  exact ⟨rfl, rfl, rfl⟩

/-- A reset of the memory forgets what waits, so nothing may. -/
theorem Accepted.news {uid : String} (h : Accepted uid s t) (hsilent : s.waiting = none) :
    SameNews s t := by
  obtain ⟨_, _, _, -, rfl⟩ := h
  unfold ActorState.resetIfOwnerChanged
  split
  · exact ⟨hsilent.symm, rfl, rfl⟩
  · exact ⟨rfl, rfl, rfl⟩

/-- Whoever reports the state that the session is in tells the state. -/
theorem ActorState.Tidy.report (h : s.Tidy) (before : ConnectionState) :
    (s.emit (.connectionStateChanged before s.sessionState.asConnectionState)).Told always where
  tidy := h
  heard _ := by
    rcases h with hsilent | ⟨hwaits, hnew⟩
    · exact ActorState.heard_of_concat hsilent rfl rfl
    · rw [ActorState.heard_of_waiting
        (s := s.emit (.connectionStateChanged before s.sessionState.asConnectionState)) hwaits]
      change ConnectionState.new = s.sessionState.asConnectionState
      rw [hnew]
      rfl

theorem hangUp_waiting (s : ActorState) : s.hangUp.waiting = s.waiting := by
  cases hup : s.sessionState.isUp with
  | false => rw [hangUp_of_down hup]
  | true =>
      rw [hangUp_of_up hup]
      rfl

/-- A session that is given up has told its state. -/
theorem ActorState.Told.hangUp (h : s.Told always) : s.hangUp.Told true := by
  cases hup : s.sessionState.isUp with
  | false =>
      rw [hangUp_of_down hup]
      exact ⟨h.tidy, fun _ => h.heard (Or.inr hup)⟩
  | true =>
      have hsilent := h.tidy.silent_of_up hup
      rw [hangUp_of_up hup]
      exact ⟨Or.inl hsilent, fun _ => ActorState.heard_of_concat hsilent rfl rfl⟩

theorem ActorState.Told.loseTransport (h : s.Told always) : s.loseTransport.Told always :=
  h.worked (Worked.of_loseTransport s s.clock s.network (Nat.le_refl _))

theorem ActorState.Told.stop (h : s.Told always) : s.stopInboundTask.Told always :=
  h.same ⟨rfl, rfl, rfl⟩

end Told

section Attempts

variable {s t : ActorState} {env : Env} {always : Bool}

/-- An error that the server gave as an answer, or no loss waits. -/
def Settled (e : Error) (t : ActorState) : Prop :=
  t.waiting = none ∨ e.authKind = none

theorem driverAuthenticate_told (userId call : Nat) (h : s.Told always)
    (hsilent : s.waiting = none) :
    Ensures (driverAuthenticate userId call) env s
      (fun _ t => t.waiting = none ∧ t.sessionState = .authenticated)
      (fun e t => t.Told always ∧ Settled e t ∧
        ((∃ context, e = .requestUnanswered context) → t.waiting = none)) := by
  refine (driverAuthenticate_spec userId call).mono ?_ ?_
  · rintro _ t ⟨-, r, hr, rfl⟩
    exact ⟨(hr.news hsilent).1.trans hsilent, rfl⟩
  · rintro e t (⟨-, haged, -⟩ | ⟨hworked, hkind, hmissing⟩ | ⟨-, haccepted, -⟩)
    · have hend := haged.news.1.trans hsilent
      exact ⟨h.same haged.news, Or.inl hend, fun _ => hend⟩
    · exact ⟨h.worked hworked, Or.inr hkind,
        fun hc => (hmissing hc).1.news.1.trans hsilent⟩
    · have hnews := haccepted.news hsilent
      have hend := hnews.1.trans hsilent
      exact ⟨h.same hnews, Or.inl hend, fun _ => hend⟩

/-- The driver reports each transition of its own. -/
theorem driverReconnect_told (call : Nat) (h : s.Told always) (hsilent : s.waiting = none) :
    Ensures (driverReconnect call) env s
      (fun _ t => t.Told always ∧ t.waiting = none)
      (fun _ t => t.Told always ∧ t.waiting = none) := by
  have hgiven : s.stopInboundTask.hangUp.Told true := h.stop.hangUp
  have hquiet : s.stopInboundTask.hangUp.waiting = none :=
    (hangUp_waiting s.stopInboundTask).trans hsilent
  refine (driverReconnect_spec call).mono ?_ ?_
  · rintro _ t ⟨d, hd, -, -, rfl⟩
    have hend : d.waiting = none := hd.news.1.trans hquiet
    have htidy : (d.enter .connected).Tidy := Or.inl hend
    exact ⟨htidy.report _, hend⟩
  · rintro e t ⟨hd, -, -⟩
    exact ⟨hgiven.weaken.same hd.news, hd.news.1.trans hquiet⟩

theorem authenticateWithRetry_told (userId : Nat) (needReconnect : Bool) (h : s.Told always)
    (hsilent : s.waiting = none) :
    Ensures (authenticateWithRetry userId needReconnect) env s
      (fun _ t => t.waiting = none ∧ t.sessionState = .authenticated)
      (fun e t => t.Told always ∧ Settled e t) := by
  refine executeAuthenticateWithRetry_rule (fun t => t.Told always ∧ t.waiting = none)
    (fun t => t.Told always ∧ t.waiting = none) (fun call t ht => ?_) (fun call t ht => ?_) ?_
  · exact (driverReconnect_told _ ht.1 ht.2).mono (fun _ _ hu => hu)
      (fun _ _ hu => ⟨hu.1, Or.inl hu.2⟩)
  · refine (driverAuthenticate_told userId call ht.1 ht.2).mono (fun _ _ hu => hu) ?_
    rintro e u ⟨htold, hsettled, hmissing⟩
    exact ⟨fun _ => ⟨htold, hsettled⟩, fun hc => ⟨⟨htold, hmissing hc⟩, htold, hsettled⟩⟩
  · split
    · exact ⟨h, hsilent⟩
    · exact ⟨h, hsilent⟩

/--
An attempt ends with the state told if it fails.  If it succeeds the caller reports,
unless the transport alone was made and the driver told nothing.
-/
theorem tryAutoReconnect_told (h : s.Told true) (hsilent : s.waiting = none) :
    Ensures tryAutoReconnect env s
      (fun next t => t.waiting = none ∧ (next = .authenticated ∨
        next = .connected ∧ lastTold t.emitted = lastTold s.emitted))
      (fun e t => t.Told true ∧ Settled e t) := by
  unfold tryAutoReconnect dismantleAuthTransport
  rw [ensures_bind]
  refine (connectWithin_spec 0 _).mono ?_ ?_
  · rintro _ d ⟨hd, -⟩
    have hnews := hd.news
    have hend : d.waiting = none := hnews.1.trans hsilent
    have hup : (d.enter .connected).Told false := told_of_up hend rfl
    simp only [ensures_bind, ensures_modify, ensures_get, ensures_ask]
    split
    · rw [ensures_bind, ensures_attempt]
      refine (authenticateWithRetry_told _ false hup hend).mono ?_ ?_
      · rintro _ t ⟨ht, -⟩
        exact ⟨ht, Or.inl rfl⟩
      · rintro e t ⟨ht, hsettled⟩
        rw [ensures_bind, ensures_modify, ensures_fail]
        refine ⟨ht.stop.hangUp, ?_⟩
        unfold Settled
        rw [hangUp_waiting]
        exact hsettled
    · exact ⟨hend, Or.inr ⟨rfl, hnews.2.1⟩⟩
  · rintro e d ⟨hd, -, -⟩
    exact ⟨h.same hd.news, Or.inl (hd.news.1.trans hsilent)⟩

/-- A forced logout is told by its own event. -/
theorem triggerForcedLogout_told (e : Error) (source : ForcedLogoutSource) (h : s.Told true)
    (hsilent : s.waiting = none) :
    Ensures (triggerForcedLogout e source) env s (fun _ t => t.Told true)
      (fun _ _ => False) := by
  refine (triggerForcedLogout_spec e source).mono (fun _ t ht => ?_) (fun _ _ hfalse => hfalse)
  split at ht
  · exact ht ▸ h
  · obtain ⟨transport, -, rfl⟩ := ht
    exact ⟨Or.inl hsilent, fun _ => ActorState.heard_of_concat hsilent rfl rfl⟩

theorem Settled.silent {e : Error} (h : Settled e t) (hkind : e.authKind ≠ none) :
    t.waiting = none := by
  rcases h with hsilent | hnone
  · exact hsilent
  · exact absurd hnone hkind

theorem authKind_of_isAuthTerminal {e : Error} (h : e.isAuthTerminal = true) :
    e.authKind ≠ none := by
  intro hnone
  unfold Error.isAuthTerminal at h
  rw [hnone] at h
  cases h

theorem handOverToHost_told (e : Error) (h : s.Told true) (hsilent : s.waiting = none) :
    Ensures (handOverToHost e) env s (fun _ t => t.Told true) (fun _ _ => False) := by
  unfold handOverToHost
  rw [ensures_bind]
  refine offerTransport_spec.mono (fun _ t ht => ?_) (fun _ _ hfalse => hfalse)
  rw [ensures_modify]
  have htold : t.Told true := by
    obtain ⟨d, hd, rfl | ⟨-, rfl⟩⟩ := ht
    · exact h.same hd.news
    · have htidy : (d.enter .connected).Tidy := Or.inl (hd.news.1.trans hsilent)
      exact htidy.report _
  refine htold.same ⟨rfl, ?_, rfl⟩
  unfold ActorState.emit
  rw [lastTold_concat]
  rfl

theorem listen_tidy (h : s.Tidy) :
    Ensures listen env s (fun _ t => t.Tidy) (fun _ _ => False) := by
  have hstart : s.startInboundTask.Tidy := h
  exact listen_spec.mono (fun _ _ ht => hstart.worked ht) (fun _ _ hfalse => hfalse)

theorem onRetry_told (h : s.Told true) (hsilent : s.waiting = none) :
    Ensures onRetry env s (fun _ t => t.Told true) (fun _ _ => False) := by
  unfold onRetry
  rw [ensures_bind, ensures_get]
  split
  · rw [ensures_bind, ensures_attempt]
    refine (tryAutoReconnect_told h hsilent).mono ?_ ?_
    · rintro next t ⟨ht, -⟩
      simp only [ensures_bind, ensures_modify]
      refine (listen_tidy ?_).mono (fun _ u hu => ?_) (fun _ _ hfalse => hfalse)
      · exact Or.inl ht
      · exact resume_spec.mono (fun _ v hv => (hu.worked hv).report _)
          (fun _ _ hfalse => hfalse)
    · rintro e t ⟨ht, hsettled⟩
      dsimp only
      split
      · rename_i hterminal
        exact triggerForcedLogout_told e _ ht
          (hsettled.silent (authKind_of_isAuthTerminal hterminal))
      · split
        · rename_i hrecoverable
          exact handOverToHost_told e ht
            (hsettled.silent (by rw [hrecoverable]; exact Option.some_ne_none _))
        · exact ht.same ⟨rfl, rfl, rfl⟩
  · exact h.same ⟨rfl, rfl, rfl⟩

end Attempts

section Commands

variable {s t : ActorState} {env : Env} {before : ConnectionState}

/-- A session that is where the report starts from has told its state. -/
structure Owed (before : ConnectionState) (t : ActorState) : Prop where
  tidy : t.Tidy
  heard : t.sessionState.asConnectionState = before → t.heard = before

theorem ActorState.Told.owed (h : s.Told true) : Owed before s where
  tidy := h.tidy
  heard hbefore := (h.heard (Or.inl rfl)).trans hbefore

theorem Owed.worked (h : Owed before s) (hw : Worked s t) : Owed before t := by
  refine ⟨h.tidy.worked hw, ?_⟩
  rcases hw.news with hsame | ⟨hwaits, hnew⟩
  · rw [hsame.2.2, hsame.heard]
    exact h.heard
  · intro hbefore
    rw [ActorState.heard_of_waiting hwaits, ← hbefore, hnew]
    rfl

theorem Owed.start (h : Owed before s) : Owed before s.startInboundTask :=
  ⟨h.tidy, h.heard⟩

theorem Owed.reportChange (h : Owed before s) :
    Ensures (reportChange before) env s (fun _ t => t.Told true) (fun _ _ => False) := by
  unfold Connection.reportChange
  rw [ensures_modify]
  split
  · rename_i hbefore
    exact ⟨h.tidy, fun _ => (h.heard hbefore.symm).trans hbefore⟩
  · exact h.tidy.report before

theorem followPlan_told {plan : Except Error ConnectPlan} (h : s.Told true)
    (hsilent : s.waiting = none)
    (hplan : plan = .ok .restorePersistedSession → s.sessionState ≠ .authenticated) :
    Ensures (followPlan plan) env s
      (fun _ t => Owed s.sessionState.asConnectionState t) (fun _ t => t.Told true) := by
  -- a transport that was made without a word is not a state that the host misses
  have hbare : ∀ {d : ActorState}, d.waiting = none → lastTold d.emitted = lastTold s.emitted →
      Owed s.sessionState.asConnectionState (d.enter .connected) := by
    intro d hend hlast
    refine ⟨Or.inl hend, fun _ => ?_⟩
    rw [← h.heard (Or.inl rfl), ActorState.heard_of_silent hsilent, ← hlast]
    exact ActorState.heard_of_silent (s := d.enter .connected) hend
  unfold followPlan
  split
  · exact h
  · exact h.owed
  · rw [ensures_bind]
    refine (tryAutoReconnect_told h hsilent).mono ?_ (fun _ _ ht => ht.1)
    rintro next t ⟨hend, rfl | ⟨rfl, hlast⟩⟩
    · refine ⟨Or.inl hend, fun hbefore => ?_⟩
      refine absurd ?_ (hplan rfl)
      have hstate : ConnectionState.authenticated = s.sessionState.asConnectionState := hbefore
      cases hs : s.sessionState <;> rw [hs] at hstate <;> cases hstate
    · exact hbare hend hlast
  · simp only [ensures_bind, ensures_get]
    rw [ensures_ofExcept]
    refine ⟨fun next hnext => ?_, fun _ _ => h⟩
    cases can_connect_ok hnext
    refine (connectWithin_spec 0 _).mono ?_ (fun _ _ hd => h.same hd.1.news)
    rintro _ d ⟨hd, -⟩
    exact hbare (hd.news.1.trans hsilent) hd.news.2.1

theorem connected_told (fresh hadLocalSession : Bool) (h : Owed before s) :
    Ensures (connected before fresh hadLocalSession) env s (fun _ t => t.Told true)
      (fun _ _ => False) := by
  have hready : Owed before
      { s.resetReconnectBackoff with
        networkHint := s.hintAfterSuccess
        authTerminalFired := false
        lastTerminalReason := none } := ⟨h.tidy, h.heard⟩
  refine connected_rule before fresh hadLocalSession (P := Owed before) ?_
    (fun t ht => ht.reportChange) (fun t u ht hu => ht.worked hu)
  unfold runIf
  split
  · exact listen_spec.mono (fun _ _ hu => hready.start.worked hu) (fun _ _ hfalse => hfalse)
  · exact hready

theorem onConnect_told (h : s.Told true) (hsilent : s.waiting = none) :
    Ensures onConnect env s (fun _ t => t.Told true) (fun _ t => t.Told true) := by
  unfold onConnect
  simp only [ensures_bind, ensures_ask, ensures_modify, ensures_get, ensures_attempt]
  have hwanted : ActorState.Told true { s with shouldAutoReconnect := true } :=
    h.same ⟨rfl, rfl, rfl⟩
  have hplanned : ∀ {alive : Bool}, planConnect s.sessionState s.currentUid.isSome alive =
      .ok .restorePersistedSession → s.sessionState = .authenticated → alive = false := by
    intro alive hplan hstate
    unfold planConnect at hplan
    rw [hstate] at hplan
    cases alive with
    | false => rfl
    | true => cases hplan
  refine Ensures.mono (Q := fun _ u => u.Told true ∧ u.waiting = none ∧
    (planConnect s.sessionState s.currentUid.isSome (s.transport.isSome && env.alive) =
      .ok .restorePersistedSession → u.sessionState ≠ .authenticated))
    (E := fun _ _ => False) ?_ ?_ (fun _ _ hfalse => hfalse.elim)
  · unfold runIf
    cases halive : s.transport.isSome && env.alive with
    | true =>
        refine ⟨hwanted, hsilent, fun hplan hstate => ?_⟩
        cases hplanned hplan hstate
    | false =>
        simp only [Bool.not_false, if_true, ensures_modify]
        split
        · rename_i hup
          refine ⟨hwanted.stop.hangUp, (hangUp_waiting _).trans hsilent, fun _ hstate => ?_⟩
          have hgiven := hangUp_isUp (ActorState.stopInboundTask
            { s with shouldAutoReconnect := true })
          rw [hstate] at hgiven
          cases hgiven
        · rename_i hdown
          refine ⟨hwanted, hsilent, fun _ hstate => hdown ?_⟩
          rw [hstate]
          rfl
  · rintro _ u ⟨hu, hend, hplan⟩
    refine (followPlan_told hu hend hplan).mono (fun _ t ht => ?_) (fun e t ht => ?_)
    · exact (connected_told _ _ ht).mono (fun _ _ hv => hv) (fun _ _ hfalse => hfalse.elim)
    · simp only [ensures_fail]
      exact ht.same ⟨rfl, rfl, rfl⟩

/-- The state is told whether the command succeeds or fails. -/
def Tells (x : ConnM Unit) (env : Env) (s : ActorState) : Prop :=
  Ensures x env s (fun _ t => t.Told true) (fun _ t => t.Told true)

theorem reportFrom_told (h : s.Tidy) (before : ConnectionState) :
    Tells (reportFrom before) env s :=
  h.report before

theorem onDisconnect_told (h : s.Told true) : Tells onDisconnect env s := by
  unfold Tells onDisconnect
  simp only [ensures_bind, ensures_modify, ensures_get]
  refine disconnect_spec.mono ?_ ?_
  · rintro _ t rfl
    split
    · exact h.same ⟨rfl, rfl, rfl⟩
    · have htidy : ∀ {u : ActorState}, u.waiting = s.waiting → (u.enter .new).Tidy := by
        intro u hu
        rcases h.tidy with hsilent | ⟨hwaits, -⟩
        · exact Or.inl (hu.trans hsilent)
        · exact Or.inr ⟨hu.trans hwaits, rfl⟩
      rw [ensures_bind, ensures_modify]
      refine reportFrom_told ?_ _
      exact htidy rfl
  · rintro _ t ⟨rfl, -⟩
    exact h.same ⟨rfl, rfl, rfl⟩

theorem onPing_told (h : s.Told true) : Tells onPing env s := by
  unfold Tells onPing
  simp only [ensures_bind, ensures_ask, ensures_get]
  split
  · exact h
  · simp only [ensures_bind, ensures_modify, ensures_fail]
    exact h.stop.loseTransport

theorem setNetworkHint_told (hint : NetworkHint) (h : s.Told true) :
    (s.setNetworkHint hint).Told true := by
  have hset : ActorState.Told true (if s.networkHint = hint then s else
      { s with networkHint := hint }.emit (.networkHintChanged s.networkHint hint)) := by
    split
    · exact h
    · refine h.same ⟨rfl, ?_, rfl⟩
      unfold ActorState.emit
      rw [lastTold_concat]
      rfl
  unfold ActorState.setNetworkHint
  dsimp only
  split
  · exact hset.stop.hangUp
  · split
    · exact hset.same ⟨rfl, rfl, rfl⟩
    · exact hset

/-- Requests of which none finds the connection lost leave what is told. -/
theorem work_kept {requests : List Request} (hopen : s.transport.isSome = true)
    (hkept : ∀ r ∈ requests, r.reply ≠ .connection) :
    Ensures (work requests) env s (fun _ t => SameNews s t) (fun _ _ => False) := by
  induction requests generalizing s with
  | nil =>
      exact ⟨rfl, rfl, rfl⟩
  | cons r rest ih =>
      have hrest : ∀ {a : ActorState}, a.transport.isSome = true → SameNews s a →
          Ensures (work rest) env a (fun _ t => SameNews s t) (fun _ _ => False) := by
        intro a ha hsame
        refine (ih ha (fun r' hr' => hkept r' (List.mem_cons_of_mem _ hr'))).mono
          (fun _ t ht => ?_) (fun _ _ hfalse => hfalse)
        exact ⟨ht.1.trans hsame.1, ht.2.1.trans hsame.2.1, ht.2.2.trans hsame.2.2⟩
      obtain ⟨transport, htransport⟩ := Option.isSome_iff_exists.mp hopen
      unfold work requestBytes
      simp only [ensures_bind, ensures_attempt, ensures_get, htransport, Option.isNone_some,
        Bool.false_eq_true, if_false, ensures_modify]
      cases hreply : r.reply with
      | connection => exact absurd hreply (hkept r List.mem_cons_self)
      | _ => exact hrest hopen ⟨rfl, rfl, rfl⟩

theorem onLogin_told (context message : String) (h : s.Told true)
    (hkept : ∀ r ∈ env.replay, r.reply ≠ .connection) :
    Tells (onLogin context message) env s := by
  unfold Tells onLogin loginWithin
  simp only [ensures_bind, ensures_get, ensures_ask]
  rw [ensures_ofExcept]
  refine ⟨fun next hnext => ?_, fun _ _ => h⟩
  have hsilent : s.waiting = none := by
    refine h.tidy.silent ?_
    intro hnew
    rw [hnew] at hnext
    cases hnext
  refine (requestBytes_spec _ _ _ _).mono ?_ (fun _ _ ht => h.worked ht.1)
  rintro _ t ⟨rfl, hopen⟩
  have hsent : ActorState.Told true ((s.send (.rpc context)).elapse env.login.took) :=
    h.same ⟨rfl, rfl, rfl⟩
  split
  · exact hsent
  · simp only [ensures_bind, ensures_modify]
    rw [ensures_ofExcept]
    refine ⟨fun uid _ => ?_, fun _ _ => hsent⟩
    rw [ensures_ofExcept]
    refine ⟨fun _ _ => ?_, fun _ _ => hsent⟩
    refine (work_kept ?_ hkept).mono (fun _ u hu => ?_) (fun _ _ hfalse => hfalse.elim)
    · exact hopen
    · split
      · exact hsent.same hu
      · have htidy : (u.enter next).Tidy := Or.inl (hu.1.trans hsilent)
        exact htidy.report _

theorem onAuthenticate_told (userId : Nat) (plan : AuthenticateTransportPlan)
    (h : s.Told true) (hsilent : s.waiting = none) :
    Tells (onAuthenticate userId plan) env s := by
  unfold Tells onAuthenticate
  simp only [ensures_bind, ensures_get, ensures_attempt]
  refine (authenticateWithRetry_told userId _ h hsilent).mono ?_ ?_
  · rintro _ t ⟨ht, -⟩
    simp only [ensures_modify]
    refine (listen_tidy ?_).mono (fun _ u hu => ?_) (fun _ _ hfalse => hfalse.elim)
    · exact Or.inl ht
    · exact resume_spec.mono (fun _ v hv => (hu.worked hv).report _)
        (fun _ _ hfalse => hfalse.elim)
  · rintro e t ⟨ht, hsettled⟩
    unfold runIf
    split
    · rename_i hterminal
      exact (triggerForcedLogout_told e _ ht
        (hsettled.silent (authKind_of_isAuthTerminal hterminal))).mono
          (fun _ _ hu => hu) (fun _ _ hfalse => hfalse.elim)
    · exact ht

/-- Only an account that the disk clears is told to be without its session. -/
theorem withdraw_told {pushed : List SdkEvent} (hsilent : s.waiting = none)
    (hpushed : lastTold pushed = none) (hclear : env.clear = .ok ())
    (hclearUid : env.clearUid = .ok ()) : Tells (withdraw pushed) env s := by
  have hwaits : lastTold (s.pendingEvents ++ pushed) = none := by
    rw [lastTold_append, hpushed]
    exact hsilent
  have htidy : ∀ {u : ActorState}, u.pendingEvents = s.pendingEvents ++ pushed → u.Tidy := by
    intro u hu
    left
    unfold ActorState.waiting
    rw [hu, hwaits]
  unfold Tells withdraw forgetUser
  simp only [ensures_bind, ensures_modify, ensures_get, ensures_ask]
  split
  · simp only [ensures_bind, ensures_modify, hclear, hclearUid]
    exact (htidy rfl).report _
  · exact (htidy rfl).report _

theorem onSwitchLocalAccount_told (uid : String) (h : s.Told true)
    (hsilent : s.waiting = none) : Tells (onSwitchLocalAccount uid) env s := by
  have howed : ∀ {u : ActorState}, u.pendingEvents = [] → u.emitted = s.emitted →
      u.sessionState = .new → Owed s.sessionState.asConnectionState u := by
    intro u hpending hemitted hstate
    have hend : u.waiting = none := by
      unfold ActorState.waiting
      rw [hpending]
      rfl
    refine ⟨Or.inl hend, fun _ => ?_⟩
    rw [ActorState.heard_of_silent hend, hemitted, ← ActorState.heard_of_silent hsilent]
    exact h.heard (Or.inl rfl)
  unfold Tells onSwitchLocalAccount
  simp only [ensures_bind, ensures_get, ensures_ask]
  rw [ensures_ofExcept]
  refine ⟨fun completed _ => ?_, fun _ _ => h⟩
  simp only [ensures_modify, ensures_attempt]
  refine disconnect_spec.mono ?_ ?_
  · rintro _ t rfl
    refine (Owed.reportChange ?_).mono (fun _ _ hu => hu) (fun _ _ hfalse => hfalse.elim)
    exact howed rfl rfl rfl
  · rintro _ t ⟨rfl, -⟩
    refine (Owed.reportChange ?_).mono (fun _ _ hu => hu) (fun _ _ hfalse => hfalse.elim)
    exact howed rfl rfl rfl

theorem onSetCurrentUid_told (uid : String) (h : s.Told true) :
    Tells (onSetCurrentUid uid) env s := by
  unfold Tells onSetCurrentUid
  simp only [ensures_bind, ensures_ask, ensures_get]
  split
  · exact h
  · split
    · exact h
    · rw [ensures_bind, ensures_ofExcept]
      exact ⟨fun _ _ => h.same ⟨rfl, rfl, rfl⟩, fun _ _ => h⟩

theorem onShutdown_told (hsilent : s.waiting = none) : Tells onShutdown env s := by
  have hreported : ∀ {u : ActorState}, u.waiting = none → ∀ before,
      ActorState.Told true ({ (u.emit (.connectionStateChanged before
        u.sessionState.asConnectionState)) with transport := none }.emit .shutdownCompleted) := by
    intro u hu before
    have htidy : u.Tidy := Or.inl hu
    refine (htidy.report before).same ⟨rfl, ?_, rfl⟩
    unfold ActorState.emit
    dsimp only
    rw [lastTold_concat]
    rfl
  unfold Tells onShutdown reportFrom
  simp only [ensures_bind, ensures_modify, ensures_get]
  refine hreported ?_ _
  exact hsilent

theorem background_told (h : s.Told true) : Tells background env s :=
  background_spec.mono (fun _ _ ht => h.worked ht) (fun _ _ hfalse => hfalse.elim)

theorem flushPending_heard (s : ActorState) : s.flushPending.heard = s.heard := by
  unfold ActorState.heard ActorState.flushPending
  dsimp only
  rw [List.append_nil]

theorem ActorState.Told.flush (h : s.Told true) : s.flushPending.Told true := by
  refine ⟨Or.inl rfl, fun _ => ?_⟩
  rw [flushPending_heard]
  exact h.heard (Or.inl rfl)

theorem finish_told {x : ConnM Unit} (h : Tells x env s) : Tells (finish x) env s :=
  finish_ensures h (fun _ _ ht => ht.flush) (fun _ _ ht => ht.flush)

theorem onHealthTick_told (h : s.Told true) : Tells onHealthTick env s := by
  have hwatched : s.watchdog.Told true := by
    unfold ActorState.watchdog
    split
    · exact h.same ⟨rfl, rfl, rfl⟩
    · exact h
  unfold Tells onHealthTick probeTransport flushPending
  simp only [ensures_bind, ensures_modify, ensures_ask, ensures_get]
  split
  · exact background_spec.mono (fun _ _ ht => (hwatched.stop.hangUp.worked ht).flush)
      (fun _ _ hfalse => hfalse.elim)
  · exact background_spec.mono (fun _ _ ht => (hwatched.worked ht).flush)
      (fun _ _ hfalse => hfalse.elim)

theorem onRepairTick_told (passed : Bool) (h : s.Told true) :
    Tells (onRepairTick passed) env s := by
  unfold Tells onRepairTick flushPending
  rw [ensures_bind]
  refine background_spec.mono (fun _ t ht => ?_) (fun _ _ hfalse => hfalse.elim)
  split
  · exact (h.worked ht).flush
  · exact h.worked ht

end Commands

section Reports

variable {s : ActorState} {u : Turn}

/--
The turn reports in the order of what happens: nothing waits when the session takes a
step of its own, no request that a login replays finds the connection lost, and the
disk clears the account that is withdrawn.
-/
def Orderly (s : ActorState) (u : Turn) : Prop :=
  match u.arm with
  | .retry | .command .connect | .command (.authenticate _)
  | .command (.switchLocalAccount _) | .command .shutdown => s.waiting = none
  | .command .clearLocalState | .command .wipeCurrentUserFull =>
      s.waiting = none ∧ u.env.clear = .ok () ∧ u.env.clearUid = .ok ()
  | .command .login | .command .register => ∀ r ∈ u.env.replay, r.reply ≠ .connection
  | _ => True

theorem command_told {c : Command} {idle : Nat} {env : Env} (h : s.Told true)
    (ha : Orderly s ⟨idle, .command c, env⟩) : Tells c.run env (s.elapse idle) := by
  have hs : (s.elapse idle).Told true := h.same ⟨rfl, rfl, rfl⟩
  cases c with
  | connect =>
      have hconnect : Tells onConnect env (s.elapse idle) := onConnect_told hs ha
      exact finish_told hconnect
  | disconnect => exact finish_told (onDisconnect_told hs)
  | ping => exact finish_told (onPing_told hs)
  | setNetworkHint hint =>
      have hset : Tells (modify (fun s => s.setNetworkHint hint)) env (s.elapse idle) :=
        setNetworkHint_told hint hs
      exact finish_told hset
  | inboundFrame epoch => exact inboundFrame_rule epoch (finish_told (background_told hs)) hs
  | inboundDisconnected epoch =>
      have hgiven : Tells onInboundDisconnected env (s.elapse idle) := hs.stop.hangUp
      exact inboundDisconnected_rule epoch (finish_told hgiven) hs
  | login => exact finish_told (onLogin_told _ _ hs ha)
  | register => exact finish_told (onLogin_told _ _ hs ha)
  | authenticate userId =>
      exact authenticateCommand_rule userId
        (fun plan => finish_told (onAuthenticate_told userId plan hs ha)) (fun _ => hs)
  | clearLocalState => exact finish_told (withdraw_told ha.1 rfl ha.2.1 ha.2.2)
  | wipeCurrentUserFull => exact finish_told (withdraw_told ha.1 rfl ha.2.1 ha.2.2)
  | switchLocalAccount uid => exact finish_told (onSwitchLocalAccount_told uid hs ha)
  | setCurrentUid uid => exact finish_told (onSetCurrentUid_told uid hs)
  | request => exact finish_told (background_told hs)
  | shutdown => exact onShutdown_told ha

theorem told_step (h : s.Told true) (ha : Orderly s u) : (step s u).Told true := by
  have hs : (s.elapse u.idle).Told true := h.same ⟨rfl, rfl, rfl⟩
  refine ensures_step (P := fun t => t.Told true) ?_
  obtain ⟨idle, arm, env⟩ := u
  cases arm with
  | retry => exact (onRetry_told hs ha).mono (fun _ _ ht => ht) (fun _ _ hfalse => hfalse.elim)
  | healthTick => exact onHealthTick_told hs
  | repairTick passed => exact onRepairTick_told passed hs
  | syncRetry =>
      exact ensureSynced_spec.mono (fun _ _ ht => hs.worked ht)
        (fun _ _ hfalse => hfalse.elim)
  | command c => exact command_told h ha

/--
What the host is told follows the session: in every run whose turns report in order,
the last of the events, those that wait among them, names the state of the session.
-/
theorem reports_follow (uid : Option String) (completed : Bool) {turns : List Turn}
    (horder : Guarded step Orderly (ActorState.boot uid completed) turns) :
    (run step (ActorState.boot uid completed) turns).heard =
      (run step (ActorState.boot uid completed) turns).sessionState.asConnectionState := by
  have hboot : (ActorState.boot uid completed).Told true := ⟨Or.inl rfl, fun _ => rfl⟩
  have hend := horder.invariant (fun s => s.Told true) (fun s u hs hu => told_step hs hu) hboot
  exact hend.heard (Or.inl rfl)

/-- A refused token, the forced logout, and a new `Connect`. -/
theorem reports_follow_revoked :
    (run step (ActorState.boot (some "7") true) revokedRun).heard =
      (run step (ActorState.boot (some "7") true) revokedRun).sessionState.asConnectionState :=
  reports_follow (some "7") true
    ⟨(by change ActorState.waiting _ = none; decide +kernel),
      (by change ActorState.waiting _ = none; decide +kernel),
      (by change ActorState.waiting _ = none; decide +kernel), trivial⟩

theorem finish_silent {x : ConnM Unit} {env : Env} :
    Ensures (finish x) env s (fun _ t => t.waiting = none) (fun _ t => t.waiting = none) := by
  have hrun : Ensures x env s (fun _ _ => True) (fun _ _ => True) :=
    Relates.ensures (R := fun _ _ => True) (fun _ _ => trivial) env s
  unfold finish flushPending
  simp only [ensures_bind, ensures_attempt, ensures_modify]
  refine hrun.mono (fun _ t _ => ?_) (fun _ t _ => ?_)
  · rw [ensures_ofExcept]
    exact ⟨fun _ _ => rfl, fun _ _ => rfl⟩
  · rw [ensures_ofExcept]
    exact ⟨fun _ _ => rfl, fun _ _ => rfl⟩

/-- Only the retry arm, a repair tick without a whole pass and the sync timer leave a loss. -/
theorem nothing_waits_after (hs : s.waiting = none) (hretry : u.arm ≠ .retry)
    (hrepair : u.arm ≠ .repairTick false) (hsync : u.arm ≠ .syncRetry) :
    (step s u).waiting = none := by
  refine ensures_step (P := fun t => t.waiting = none) ?_
  obtain ⟨idle, arm, env⟩ := u
  cases arm with
  | retry => exact absurd rfl hretry
  | healthTick =>
      unfold Arm.run onHealthTick probeTransport flushPending
      simp only [ensures_bind, ensures_modify, ensures_ask, ensures_get]
      split
      · exact background_spec.mono (fun _ _ _ => rfl) (fun _ _ hfalse => hfalse.elim)
      · exact background_spec.mono (fun _ _ _ => rfl) (fun _ _ hfalse => hfalse.elim)
  | repairTick passed =>
      cases passed with
      | false => exact absurd rfl hrepair
      | true =>
          unfold Arm.run onRepairTick flushPending
          rw [ensures_bind]
          exact background_spec.mono (fun _ _ _ => rfl) (fun _ _ hfalse => hfalse.elim)
  | syncRetry => exact absurd rfl hsync
  | command c =>
    cases c with
    | inboundFrame epoch => exact inboundFrame_rule epoch finish_silent hs
    | inboundDisconnected epoch => exact inboundDisconnected_rule epoch finish_silent hs
    | authenticate userId =>
        exact authenticateCommand_rule userId (fun _ => finish_silent) (fun _ => hs)
    | shutdown => exact hs
    | _ => exact finish_silent

end Reports

section Stale

variable {s t : ActorState} {env : Env} {u : Turn} {uid : String}

/-- A loss waits, and an authentication of this user does not reset the memory. -/
def Stale (uid : String) (s : ActorState) : Prop :=
  s.waiting = some .new ∧ s.ownerChanged uid = false

theorem waiting_worked (hs : s.waiting = some .new) (h : Worked s t) :
    t.waiting = some .new := by
  rcases h.news with hsame | ⟨hwaits, -⟩
  · exact hsame.1.trans hs
  · exact hwaits

theorem Stale.worked (hs : Stale uid s) (h : Worked s t) : Stale uid t := by
  refine ⟨waiting_worked hs.1 h, ?_⟩
  obtain ⟨_, _, _, -, rfl | ⟨moment, hup, -, -, rfl⟩⟩ := h
  · exact hs.2
  · rw [lostAt_of_up hup]
    exact hs.2

theorem Stale.accepted (hs : Stale uid s) (h : Accepted uid s t) : Stale uid t := by
  unfold Accepted ActorState.resetIfOwnerChanged at h
  rw [hs.2] at h
  exact hs.worked (Aged.worked h)

theorem Stale.dialed (hs : Stale uid s) (h : Dialed s t) : Stale uid t := by
  obtain ⟨_, _, _, _, _, -, rfl, -⟩ := h
  exact hs

theorem Stale.hangUp (hs : Stale uid s) : Stale uid s.hangUp := by
  refine ⟨(hangUp_waiting s).trans hs.1, ?_⟩
  cases hup : s.sessionState.isUp with
  | false =>
      rw [hangUp_of_down hup]
      exact hs.2
  | true =>
      rw [hangUp_of_up hup]
      exact hs.2

theorem stale_authenticateWithRetry (userId : Nat) (needReconnect : Bool)
    (hs : Stale (toString userId) s) :
    Ensures (authenticateWithRetry userId needReconnect) env s
      (fun _ t => t.waiting = some .new) (fun _ t => t.waiting = some .new) := by
  refine executeAuthenticateWithRetry_rule (Stale (toString userId)) (Stale (toString userId))
    (fun call t ht => ?_) (fun call t ht => ?_) ?_
  · have hgiven : Stale (toString userId) t.stopInboundTask.hangUp :=
      Stale.hangUp (s := t.stopInboundTask) ht
    refine (driverReconnect_spec _).mono ?_ (fun _ _ hd => (hgiven.dialed hd.1).1)
    rintro _ v ⟨d, hd, -, -, rfl⟩
    have hend := hgiven.dialed hd
    exact ⟨hend.1, hend.2⟩
  · refine (driverAuthenticate_spec userId call).mono ?_ ?_
    · rintro _ v ⟨-, r, hr, rfl⟩
      exact (ht.accepted hr).1
    · rintro e v hv
      have hend : Stale (toString userId) v := by
        rcases hv with ⟨-, haged, -⟩ | ⟨hworked, -⟩ | ⟨-, haccepted, -⟩
        · exact ht.worked haged.worked
        · exact ht.worked hworked
        · exact ht.accepted haccepted
      exact ⟨fun _ => hend.1, fun _ => ⟨hend, hend.1⟩⟩
  · split
    · exact hs
    · exact hs

theorem stale_tryAutoReconnect (hwaits : s.waiting = some .new)
    (hsame : ∀ snapshot, env.session = .ok (some snapshot) →
      s.ownerChanged (toString snapshot.userId) = false) :
    Ensures tryAutoReconnect env s
      (fun _ t => t.waiting = some .new) (fun _ t => t.waiting = some .new) := by
  unfold tryAutoReconnect dismantleAuthTransport
  rw [ensures_bind]
  refine (connectWithin_spec 0 _).mono ?_ (fun _ _ hd => hd.1.news.1.trans hwaits)
  rintro _ d ⟨hd, -⟩
  simp only [ensures_bind, ensures_modify, ensures_get, ensures_ask]
  split
  · rename_i snapshot _ hsession
    have hdialed : Stale (toString snapshot.userId) d :=
      Stale.dialed ⟨hwaits, hsame snapshot hsession⟩ hd
    have hup : Stale (toString snapshot.userId) (d.enter .connected) := hdialed
    rw [ensures_bind, ensures_attempt]
    refine (stale_authenticateWithRetry _ false hup).mono (fun _ _ ht => ht) (fun e t ht => ?_)
    rw [ensures_bind, ensures_modify, ensures_fail]
    exact (hangUp_waiting _).trans ht
  · exact hd.news.1.trans hwaits

theorem stale_listen (hwaits : s.waiting = some .new) :
    Ensures listen env s (fun _ t => t.waiting = some .new) (fun _ _ => False) := by
  have hstart : s.startInboundTask.waiting = some .new := hwaits
  exact listen_spec.mono (fun _ _ ht => waiting_worked hstart ht) (fun _ _ hfalse => hfalse)

theorem stale_onRetry (hwaits : s.waiting = some .new)
    (hsame : ∀ snapshot, env.session = .ok (some snapshot) →
      s.ownerChanged (toString snapshot.userId) = false) :
    Ensures onRetry env s (fun _ t => t.waiting = some .new) (fun _ _ => False) := by
  unfold onRetry
  rw [ensures_bind, ensures_get]
  split
  · rw [ensures_bind, ensures_attempt]
    refine (stale_tryAutoReconnect hwaits hsame).mono (fun next t ht => ?_) (fun e t ht => ?_)
    · simp only [ensures_bind, ensures_modify]
      refine (stale_listen ?_).mono (fun _ v hv => ?_) (fun _ _ hfalse => hfalse)
      · exact ht
      · exact resume_spec.mono (fun _ w (hw : Worked v w) => waiting_worked (t := w) hv hw)
          (fun _ _ hfalse => hfalse)
    · dsimp only
      split
      · refine (triggerForcedLogout_spec e _).mono (fun _ v hv => ?_) (fun _ _ hfalse => hfalse)
        split at hv
        · exact hv ▸ ht
        · obtain ⟨transport, -, rfl⟩ := hv
          exact ht
      · split
        · unfold handOverToHost
          rw [ensures_bind]
          refine offerTransport_spec.mono (fun _ v hv => ?_) (fun _ _ hfalse => hfalse)
          rw [ensures_modify]
          obtain ⟨d, hd, rfl | ⟨-, rfl⟩⟩ := hv
          · exact hd.news.1.trans ht
          · exact hd.news.1.trans ht
        · exact ht
  · exact hwaits

theorem stale_followPlan (plan : Except Error ConnectPlan) (hwaits : s.waiting = some .new)
    (hsame : ∀ snapshot, env.session = .ok (some snapshot) →
      s.ownerChanged (toString snapshot.userId) = false) :
    Ensures (followPlan plan) env s
      (fun _ t => t.waiting = some .new) (fun _ t => t.waiting = some .new) := by
  unfold followPlan
  split
  · exact hwaits
  · exact hwaits
  · rw [ensures_bind]
    exact (stale_tryAutoReconnect hwaits hsame).mono (fun _ _ ht => ht) (fun _ _ ht => ht)
  · simp only [ensures_bind, ensures_get]
    rw [ensures_ofExcept]
    refine ⟨fun next _ => ?_, fun _ _ => hwaits⟩
    exact (connectWithin_spec 0 _).mono (fun _ _ hd => hd.1.news.1.trans hwaits)
      (fun _ _ hd => hd.1.news.1.trans hwaits)

theorem stale_connected (before : ConnectionState) (fresh hadLocalSession : Bool)
    (hwaits : s.waiting = some .new) :
    Ensures (connected before fresh hadLocalSession) env s
      (fun _ t => t.waiting = some .new) (fun _ _ => False) := by
  refine connected_rule before fresh hadLocalSession (P := fun t => t.waiting = some .new)
    (R := fun t => t.waiting = some .new) ?_ (fun t ht => ?_)
    (fun t u ht hu => waiting_worked ht hu)
  · unfold runIf
    split
    · refine stale_listen ?_
      exact hwaits
    · exact hwaits
  · unfold reportChange
    rw [ensures_modify]
    split
    · exact ht
    · exact ht

theorem stale_onConnect (hwaits : s.waiting = some .new)
    (hsame : ∀ snapshot, env.session = .ok (some snapshot) →
      s.ownerChanged (toString snapshot.userId) = false) :
    Ensures onConnect env s
      (fun _ t => t.waiting = some .new) (fun _ t => t.waiting = some .new) := by
  unfold onConnect
  simp only [ensures_bind, ensures_ask, ensures_modify, ensures_get, ensures_attempt]
  refine Ensures.mono (Q := fun _ a => a.waiting = some .new ∧
    ∀ snapshot, env.session = .ok (some snapshot) →
      a.ownerChanged (toString snapshot.userId) = false) (E := fun _ _ => False) ?_ ?_
    (fun _ _ hfalse => hfalse.elim)
  · unfold runIf
    split
    · rw [ensures_modify]
      split
      · refine ⟨(hangUp_waiting _).trans hwaits, fun snapshot hsession => ?_⟩
        have hstale : Stale (toString snapshot.userId)
            (ActorState.stopInboundTask { s with shouldAutoReconnect := true }) :=
          ⟨hwaits, hsame snapshot hsession⟩
        exact hstale.hangUp.2
      · exact ⟨hwaits, hsame⟩
    · exact ⟨hwaits, hsame⟩
  · rintro _ a ⟨ha, howner⟩
    refine (stale_followPlan _ ha howner).mono (fun _ t ht => ?_) (fun e t ht => ?_)
    · exact (stale_connected _ _ _ ht).mono (fun _ _ hv => hv) (fun _ _ hfalse => hfalse.elim)
    · simp only [ensures_fail]
      exact ht

/--
A retry or a `Connect` that starts while a loss waits reports before the loss is told: a
host that has got all events takes the session for lost, and is right only if it is.
-/
theorem stale_report_iff (harm : u.arm = .retry ∨ u.arm = .command .connect)
    (hwaits : s.waiting = some .new)
    (hsame : ∀ snapshot, u.env.session = .ok (some snapshot) →
      s.ownerChanged (toString snapshot.userId) = false) :
    (step s u).heard = (step s u).sessionState.asConnectionState ↔
      (step s u).sessionState = .new := by
  have hend : (step s u).heard = .new := by
    refine ensures_step (P := fun t => t.heard = .new) ?_
    rcases harm with harm | harm
    · rw [harm]
      exact (stale_onRetry (s := s.elapse u.idle) hwaits hsame).mono
        (fun _ _ ht => ActorState.heard_of_waiting ht) (fun _ _ hfalse => hfalse.elim)
    · rw [harm]
      refine finish_ensures (x := onConnect) ?_
        (fun _ t ht => (flushPending_heard t).trans ht)
        (fun _ t ht => (flushPending_heard t).trans ht)
      exact (stale_onConnect (s := s.elapse u.idle) hwaits hsame).mono
        (fun _ _ ht => ActorState.heard_of_waiting ht)
        (fun _ _ ht => ActorState.heard_of_waiting ht)
  rw [hend]
  constructor
  · intro hstate
    cases hs : (step s u).sessionState <;> rw [hs] at hstate <;> cases hstate
  · intro hnew
    rw [hnew]
    rfl

/-- The server accepts the stored user; requests of the arm's own work meet this reply. -/
def Env.accepting (reply : TransportReply) : Env :=
  { Env.refusing 0 with
    round := fun _ =>
      { reply := .answered
        took := 3
        response := .ok { success := true, errorCode := none, errorMessage := none }
        existing := none
        bootstrapMark := true
        saved := .ok () }
    requests := [⟨"sync", reply, 1⟩] }

/-- The sync that is tried again finds the connection lost, and the retry is due at once. -/
def lostInSync : List Turn :=
  [⟨0, .command .connect, Env.accepting .answered⟩, ⟨5000, .syncRetry, Env.accepting .connection⟩]

/-- The retry succeeds, and the loss of the connection before is told after it. -/
theorem stale_report_iff_sync :
    Guarded step Possible (ActorState.boot (some "7") true)
        (lostInSync ++ [⟨0, .retry, Env.accepting .answered⟩]) ∧
      (step (run step (ActorState.boot (some "7") true) lostInSync)
        ⟨0, .retry, Env.accepting .answered⟩).sessionState = .authenticated ∧
      ¬ (step (run step (ActorState.boot (some "7") true) lostInSync)
          ⟨0, .retry, Env.accepting .answered⟩).heard =
        (step (run step (ActorState.boot (some "7") true) lostInSync)
          ⟨0, .retry, Env.accepting .answered⟩).sessionState.asConnectionState := by
  have hstate : (step (run step (ActorState.boot (some "7") true) lostInSync)
      ⟨0, .retry, Env.accepting .answered⟩).sessionState = .authenticated := by
    decide +kernel
  refine ⟨⟨⟨by decide +kernel, (fun h => nomatch h)⟩, ⟨by decide +kernel, (fun h => nomatch h)⟩,
    ⟨by decide +kernel, fun _ => ⟨5010, by decide +kernel, by decide +kernel⟩⟩, trivial⟩,
    hstate, fun htold => ?_⟩
  have hnew := (stale_report_iff (Or.inl rfl) (by decide +kernel) (by
    rintro snapshot ⟨⟩
    decide +kernel)).mp htold
  rw [hstate] at hnew
  cases hnew

end Stale

end Connection
end PrivchatSdk
