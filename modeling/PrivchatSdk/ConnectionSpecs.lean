import PrivchatSdk.ConnectionMoves

/-!
# What the parts of a turn leave

Requests let time pass and can lose the transport, once (`Worked`).  Dialling
leaves the session as it is (`Dialed`).  An authentication ends in one of a few
ways, and only a refusal of the server is an auth error.
-/

namespace PrivchatSdk
namespace Connection

open StatementExec Exec EventRun

section Work

variable {s t u : ActorState} {env : Env}

/-- Time has passed and requests were sent. -/
def ActorState.aged (s : ActorState) (clock : Nat) (network : List NetworkCall)
    (completed : Bool) : ActorState :=
  { s with clock := clock, network := network, bootstrapCompleted := completed }

def ActorState.lostAt (s : ActorState) (moment : Nat) : ActorState :=
  { s with clock := moment }.loseTransport

/-- After some requests: the transport is as before, or it was lost by one of them. -/
def Worked (s t : ActorState) : Prop :=
  ∃ clock network completed, s.clock ≤ clock ∧
    (t = s.aged clock network completed ∨
      ∃ moment, s.sessionState.isUp = true ∧ s.clock ≤ moment ∧ moment ≤ clock ∧
        t = (s.lostAt moment).aged clock network completed)

theorem Worked.refl (s : ActorState) : Worked s s :=
  ⟨s.clock, s.network, s.bootstrapCompleted, Nat.le_refl _, Or.inl rfl⟩

theorem loseTransport_of_up (h : s.sessionState.isUp = true) :
    s.loseTransport =
      { s with
        sessionState := .new
        transport := none
        reconnectAttempt := if s.shouldAutoReconnect then 0 else s.reconnectAttempt
        nextReconnectAt :=
          if s.shouldAutoReconnect then some s.clock else s.nextReconnectAt
        pendingEvents := s.pendingEvents ++
          [.connectionStateChanged s.sessionState.asConnectionState .new] } := by
  simp [ActorState.loseTransport, ActorState.applyTransportHealth, h,
    ActorState.pushConnectionTransitionEvent]

theorem loseTransport_of_down (h : s.sessionState.isUp = false) : s.loseTransport = s := by
  simp [ActorState.loseTransport, ActorState.applyTransportHealth, h,
    ActorState.pushConnectionTransitionEvent]

theorem hangUp_of_up (h : s.sessionState.isUp = true) :
    s.hangUp =
      { s with
        sessionState := .new
        transport := none
        reconnectAttempt := if s.shouldAutoReconnect then 0 else s.reconnectAttempt
        nextReconnectAt :=
          if s.shouldAutoReconnect then some s.clock else s.nextReconnectAt
        emitted := s.emitted ++
          [.connectionStateChanged s.sessionState.asConnectionState .new] } := by
  simp [ActorState.hangUp, ActorState.applyTransportHealth, h, ActorState.emitTransition,
    ActorState.emit]

theorem hangUp_of_down (h : s.sessionState.isUp = false) : s.hangUp = s := by
  simp [ActorState.hangUp, ActorState.applyTransportHealth, h, ActorState.emitTransition]

theorem hangUp_isUp (s : ActorState) : s.hangUp.sessionState.isUp = false := by
  cases hup : s.sessionState.isUp with
  | false =>
      rw [hangUp_of_down hup]
      exact hup
  | true =>
      rw [hangUp_of_up hup]
      rfl

theorem lostAt_of_up (h : s.sessionState.isUp = true) (moment : Nat) :
    s.lostAt moment =
      { s with
        clock := moment
        sessionState := .new
        transport := none
        reconnectAttempt := if s.shouldAutoReconnect then 0 else s.reconnectAttempt
        nextReconnectAt :=
          if s.shouldAutoReconnect then some moment else s.nextReconnectAt
        pendingEvents := s.pendingEvents ++
          [.connectionStateChanged s.sessionState.asConnectionState .new] } := by
  unfold ActorState.lostAt
  exact loseTransport_of_up h

/-- Only one request of a sequence can lose the transport. -/
theorem Worked.trans (h : Worked s t) (h' : Worked t u) : Worked s u := by
  obtain ⟨c, n, b, hc, hfirst⟩ := h
  obtain ⟨c', n', b', hc', hnext⟩ := h'
  rcases hfirst with rfl | ⟨m, hup, hm, hmc, rfl⟩
  · have hc' : c ≤ c' := hc'
    refine ⟨c', n', b', hc.trans hc', ?_⟩
    rcases hnext with rfl | ⟨m, hup, hm, hmc, rfl⟩
    · exact Or.inl rfl
    · have hup : s.sessionState.isUp = true := hup
      have hm : c ≤ m := hm
      refine Or.inr ⟨m, hup, hc.trans hm, hmc, ?_⟩
      rw [lostAt_of_up hup, lostAt_of_up (show (s.aged c n b).sessionState.isUp = true from hup)]
      rfl
  · have hc' : c ≤ c' := hc'
    refine ⟨c', n', b', hc.trans hc', Or.inr ⟨m, hup, hm, hmc.trans hc', ?_⟩⟩
    rcases hnext with rfl | ⟨m', hup', -, -, -⟩
    · rfl
    · rw [lostAt_of_up hup] at hup'
      exact absurd hup' Bool.false_ne_true

theorem Worked.of_loseTransport (s : ActorState) (clock : Nat) (network : List NetworkCall)
    (hclock : s.clock ≤ clock) :
    Worked s ({ s with clock := clock, network := network }.loseTransport) := by
  refine ⟨clock, network, s.bootstrapCompleted, hclock, ?_⟩
  cases hup : s.sessionState.isUp with
  | false =>
      left
      exact loseTransport_of_down (s := { s with clock := clock, network := network }) hup
  | true =>
      refine Or.inr ⟨clock, rfl, hclock, Nat.le_refl _, ?_⟩
      rw [lostAt_of_up hup,
        loseTransport_of_up (s := { s with clock := clock, network := network }) hup]
      rfl

theorem Worked.sent (s : ActorState) (call : NetworkCall) (took : Nat) :
    Worked s ((s.send call).elapse took) :=
  ⟨s.clock + took, s.network ++ [call], s.bootstrapCompleted, Nat.le_add_right _ _, Or.inl rfl⟩

/--
How a request ends.  An answer leaves the transport; a failure is no auth error,
and the one that proves a lost connection is not taken for a missing answer.
-/
theorem requestBytes_spec (call : NetworkCall) (context : String) (reply : TransportReply)
    (took : Nat) :
    Ensures (requestBytes call context reply took) env s
      (fun _ t => t = (s.send call).elapse took ∧ s.transport.isSome = true)
      (fun e t => Worked s t ∧ e.authKind = none ∧
        ((∃ context, e = .requestUnanswered context) →
          t = (s.send call).elapse took ∧ s.transport.isSome = true)) := by
  have hlost : ∀ {x : ActorState}, Worked s x →
      Worked s x ∧ (Error.transport networkDisconnectedMessage).authKind = none ∧
        ((∃ context, Error.transport networkDisconnectedMessage =
          .requestUnanswered context) → x = (s.send call).elapse took ∧
            s.transport.isSome = true) := by
    intro x hx
    refine ⟨hx, rfl, ?_⟩
    rintro ⟨context, hc⟩
    cases hc
  unfold requestBytes
  simp only [ensures_bind, ensures_get]
  cases htransport : s.transport with
  | none =>
      simp only [Option.isNone_none, if_true, ensures_bind, ensures_modify, ensures_fail]
      rw [← htransport]
      exact hlost (Worked.of_loseTransport s s.clock s.network (Nat.le_refl _))
  | some g =>
      simp only [Option.isNone_some, Bool.false_eq_true, if_false, ensures_bind, ensures_modify]
      cases reply with
      | answered =>
          exact ⟨rfl, rfl⟩
      | connection =>
          simp only [ensures_bind, ensures_modify, ensures_fail]
          rw [← htransport]
          exact hlost (Worked.of_loseTransport s (s.clock + took) (s.network ++ [call])
            (Nat.le_add_right _ _))
      | timeout =>
          exact ⟨Worked.sent s call took, rfl, fun _ => ⟨rfl, rfl⟩⟩
      | other message =>
          refine ⟨Worked.sent s call took, rfl, ?_⟩
          rintro ⟨context, hc⟩
          cases hc

theorem work_spec (requests : List Request) :
    Ensures (work requests) env s (fun _ t => Worked s t) (fun _ _ => False) := by
  induction requests generalizing s with
  | nil =>
      exact Worked.refl s
  | cons r rest ih =>
      unfold work
      simp only [ensures_bind, ensures_attempt]
      refine (requestBytes_spec _ _ _ _).mono ?_ ?_
      · rintro _ t ⟨rfl, -⟩
        exact ih.mono (fun _ u hu => (Worked.sent s _ _).trans hu) (fun _ _ hfalse => hfalse)
      · rintro e t ⟨ht, -⟩
        exact ih.mono (fun _ u hu => ht.trans hu) (fun _ _ hfalse => hfalse)

theorem background_spec :
    Ensures background env s (fun _ t => Worked s t) (fun _ _ => False) := by
  unfold background
  simp only [ensures_bind, ensures_ask]
  refine (work_spec env.requests).mono (fun _ t ht => ?_) (fun _ _ hfalse => hfalse)
  exact ht.trans ⟨t.clock, t.network, _, Nat.le_refl _, Or.inl rfl⟩

theorem ensureSynced_spec :
    Ensures ensureSynced env s (fun _ t => Worked s t) (fun _ _ => False) := by
  unfold ensureSynced
  simp only [ensures_bind, ensures_get]
  split
  · exact background_spec
  · exact Worked.refl s

theorem resume_spec : Ensures resume env s (fun _ t => Worked s t) (fun _ _ => False) := by
  unfold resume
  simp only [ensures_bind, ensures_get]
  split
  · exact ensureSynced_spec
  · exact Worked.refl s

theorem listen_spec :
    Ensures listen env s (fun _ t => Worked s.startInboundTask t) (fun _ _ => False) := by
  unfold listen
  simp only [ensures_bind, ensures_ask, ensures_modify]
  exact work_spec env.replay

end Work

section Dial

variable {s t u : ActorState} {env : Env}

/-- The events in the slot are those of the transport that is there. -/
def ActorState.Slotted (s : ActorState) : Prop :=
  ∀ transport, s.transport = some transport → s.transportEvents = some transport

/-- After a call of `connect`: only the transport, the time and the network differ. -/
def Dialed (s t : ActorState) : Prop :=
  ∃ transport events transports clock network, s.clock ≤ clock ∧
    t = { s with
      transport := transport
      transportEvents := events
      transports := transports
      clock := clock
      network := network } ∧
    (s.Slotted → t.Slotted)

theorem Dialed.refl (s : ActorState) : Dialed s s :=
  ⟨s.transport, s.transportEvents, s.transports, s.clock, s.network, Nat.le_refl _, rfl, id⟩

theorem firstReached_error {last : Option String} {endpoints : List (Except String Unit)}
    {e : Error} (h : firstReached last endpoints = .error e) : ∃ message, e = .transport message := by
  induction endpoints generalizing last with
  | nil =>
      unfold firstReached at h
      cases h
      exact ⟨_, rfl⟩
  | cons answer rest ih =>
      cases answer with
      | ok a => cases h
      | error message => exact ih h

/-- A connection that fails leaves no transport, and ends with a transport error. -/
theorem connect_spec (call : Nat) :
    Ensures (connect call) env s
      (fun _ t => Dialed s t ∧ t.transport.isSome = true)
      (fun e t => Dialed s t ∧ t.transport = none ∧ ∃ message, e = .transport message) := by
  unfold connect
  simp only [ensures_bind, ensures_ask, ensures_get]
  split
  · rename_i halive
    exact ⟨Dialed.refl s, (Bool.and_eq_true_iff.mp halive).1⟩
  · simp only [ensures_bind, ensures_modify, ensures_ofExcept]
    refine ⟨fun _ _ => ⟨⟨_, _, _, _, _, Nat.le_add_right _ _, rfl, fun _ _ => id⟩, rfl⟩, ?_⟩
    intro e he
    refine ⟨⟨_, _, _, _, _, Nat.le_add_right _ _, rfl, ?_⟩, rfl, firstReached_error he⟩
    rintro - transport ⟨⟩

theorem connectWithin_spec (call : Nat) (message : String) :
    Ensures (connectWithin call message) env s
      (fun _ t => Dialed s t ∧ t.transport.isSome = true)
      (fun e t => Dialed s t ∧ t.transport = none ∧ ∃ message, e = .transport message) := by
  unfold connectWithin
  simp only [ensures_bind, ensures_ask, ensures_get]
  split
  · simp only [ensures_bind, ensures_modify, ensures_fail]
    refine ⟨⟨_, _, _, _, _, Nat.le_add_right _ _, rfl, ?_⟩, rfl, _, rfl⟩
    rintro - transport ⟨⟩
  · exact connect_spec call

end Dial

section Authentication

variable {s t u : ActorState} {env : Env}

/-- Only time has passed. -/
def Aged (s t : ActorState) : Prop :=
  ∃ clock network completed, s.clock ≤ clock ∧ t = s.aged clock network completed

theorem Aged.worked (h : Aged s t) : Worked s t := by
  obtain ⟨c, n, b, hc, rfl⟩ := h
  exact ⟨c, n, b, hc, Or.inl rfl⟩

theorem resetIfOwnerChanged_aged (s : ActorState) (clock : Nat) (network : List NetworkCall)
    (completed : Bool) (uid : String) :
    (s.aged clock network completed).resetIfOwnerChanged uid =
      (s.resetIfOwnerChanged uid).aged clock network completed := by
  have hsame : (s.aged clock network completed).ownerChanged uid = s.ownerChanged uid := rfl
  unfold ActorState.resetIfOwnerChanged
  rw [hsame]
  split
  · rfl
  · rfl

theorem resetIfOwnerChanged_clock (s : ActorState) (uid : String) :
    (s.resetIfOwnerChanged uid).clock = s.clock := by
  unfold ActorState.resetIfOwnerChanged
  split
  · rfl
  · rfl

/-- The server has accepted the user, and the memory of another one is reset. -/
def Accepted (uid : String) (s t : ActorState) : Prop :=
  Aged (s.resetIfOwnerChanged uid) t

/-- The server has refused the authentication. -/
def Refused (e : Error) (s t : ActorState) : Prop :=
  s.transport.isSome = true ∧ Aged s t ∧ ∃ resp : AuthorizationResponse, e = resp.refusal

/-- The request failed, or it got no answer on a transport that seems to be there. -/
def Failed (e : Error) (s t : ActorState) : Prop :=
  Worked s t ∧ e.authKind = none ∧
    ((∃ context, e = .requestUnanswered context) → Aged s t ∧ s.transport.isSome = true)

/-- The disk did not take what the server accepted. -/
def Unsaved (uid : String) (e : Error) (s t : ActorState) : Prop :=
  s.transport.isSome = true ∧ Accepted uid s t ∧ ∃ message, e = .storage message

theorem authenticate_spec (userId call : Nat) :
    Ensures (authenticate userId call) env s
      (fun _ t => s.transport.isSome = true ∧ ∃ r, Accepted (toString userId) s r ∧
        t = { r with
          currentUid := some (toString userId), sessionEpoch := r.sessionEpoch + 1 })
      (fun e t => Refused e s t ∨ Failed e s t ∨ Unsaved (toString userId) e s t) := by
  have hsent : (s.send (.auth userId)).elapse (env.round call).took =
      s.aged (s.clock + (env.round call).took) (s.network ++ [.auth userId])
        s.bootstrapCompleted := rfl
  have haged : Aged s ((s.send (.auth userId)).elapse (env.round call).took) :=
    ⟨_, _, _, Nat.le_add_right _ _, hsent⟩
  unfold authenticate
  simp only [ensures_bind, ensures_ask]
  refine (requestBytes_spec _ _ _ _).mono ?_ ?_
  · rintro _ t ⟨rfl, hopen⟩
    rw [ensures_ofExcept]
    refine ⟨fun resp _ => ?_, ?_⟩
    · split
      · have haccepted : Accepted (toString userId) s
            { ((s.send (.auth userId)).elapse (env.round call).took).resetIfOwnerChanged
                (toString userId) with
              bootstrapCompleted :=
                (env.round call).existing.getD (env.round call).bootstrapMark } := by
          rw [hsent, resetIfOwnerChanged_aged]
          exact ⟨_, _, _, by rw [resetIfOwnerChanged_clock]; exact Nat.le_add_right _ _, rfl⟩
        simp only [ensures_bind, ensures_modify, ensures_ofExcept]
        refine ⟨fun _ _ => ⟨hopen, _, haccepted, rfl⟩, ?_⟩
        intro e he
        refine Or.inr (Or.inr ⟨hopen, haccepted, ?_⟩)
        cases hsaved : (env.round call).saved with
        | ok a =>
            rw [hsaved] at he
            cases he
        | error message =>
            rw [hsaved] at he
            cases he
            exact ⟨message, rfl⟩
      · exact Or.inl ⟨hopen, haged, resp, rfl⟩
    · intro e he
      refine Or.inr (Or.inl ⟨haged.worked, ?_, fun _ => ⟨haged, hopen⟩⟩)
      cases hresponse : (env.round call).response with
      | ok a =>
          rw [hresponse] at he
          cases he
      | error message =>
          rw [hresponse] at he
          cases he
          rfl
  · rintro e t ⟨hworked, hkind, hmissing⟩
    refine Or.inr (Or.inl ⟨hworked, hkind, fun h => ?_⟩)
    obtain ⟨rfl, hopen⟩ := hmissing h
    exact ⟨haged, hopen⟩

theorem can_authenticate_ok {state next : SessionState}
    (h : state.can .authenticate = .ok next) : next = .authenticated := by
  cases state <;> cases h <;> rfl

theorem can_authenticate_error {state : SessionState} {e : Error}
    (h : state.can .authenticate = .error e) :
    e.authKind = none ∧ ∀ context, e ≠ .requestUnanswered context := by
  cases state <;> cases h <;> exact ⟨rfl, fun _ hc => nomatch hc⟩

/-- The driver's authentication enters `Authenticated` on the transport that is there. -/
theorem driverAuthenticate_spec (userId call : Nat) :
    Ensures (driverAuthenticate userId call) env s
      (fun _ t => s.transport.isSome = true ∧ ∃ r, Accepted (toString userId) s r ∧
        t = { r with
          currentUid := some (toString userId)
          sessionEpoch := r.sessionEpoch + 1
          sessionState := .authenticated })
      (fun e t => Refused e s t ∨ Failed e s t ∨ Unsaved (toString userId) e s t) := by
  unfold driverAuthenticate
  simp only [ensures_bind, ensures_get, ensures_ofExcept]
  refine ⟨fun next hnext => ?_, fun e he => ?_⟩
  · cases can_authenticate_ok hnext
    refine (authenticate_spec userId call).mono ?_ (fun _ _ h => h)
    rintro _ t ⟨hopen, r, hr, rfl⟩
    exact ⟨hopen, r, hr, rfl⟩
  · obtain ⟨hkind, hanswer⟩ := can_authenticate_error he
    exact Or.inr (Or.inl ⟨Worked.refl s, hkind, fun hc => absurd hc (not_exists.mpr hanswer)⟩)

/-- The driver's reconnect starts from a session that is given up. -/
theorem driverReconnect_spec (call : Nat) :
    Ensures (driverReconnect call) env s
      (fun _ t => ∃ d, Dialed s.stopInboundTask.hangUp d ∧ d.transport.isSome = true ∧
        d.sessionState.isUp = false ∧
        t = (d.enter .connected).emit
          (.connectionStateChanged d.sessionState.asConnectionState .connected))
      (fun e t => Dialed s.stopInboundTask.hangUp t ∧ t.transport = none ∧
        ∃ message, e = .transport message) := by
  have hdown := hangUp_isUp s.stopInboundTask
  unfold driverReconnect dismantleAuthTransport
  simp only [ensures_bind, ensures_modify]
  refine (connectWithin_spec call _).mono ?_ (fun _ _ h => h)
  rintro _ d ⟨hd, hopen⟩
  have hdialed := hd
  obtain ⟨_, _, _, _, _, _, rfl, -⟩ := hd
  refine ⟨_, hdialed, hopen, hdown, ?_⟩
  rw [if_neg]
  · rfl
  · intro hc
    have hstate : s.stopInboundTask.hangUp.sessionState = .connected := hc
    rw [hstate] at hdown
    exact absurd hdown.symm Bool.false_ne_true

/-- The rule of the retry: reconnecting leads to where an authentication may start. -/
theorem executeAuthenticateWithRetry_rule
    {reconnect authenticate : Nat → ConnM Unit} {needReconnect : Bool}
    (Start Ready : ActorState → Prop) {Q : Unit → ActorState → Prop}
    {E : Error → ActorState → Prop}
    (hreconnect : ∀ call s, Start s → Ensures (reconnect call) env s (fun _ => Ready) E)
    (hauthenticate : ∀ call s, Ready s → Ensures (authenticate call) env s Q
      (fun e t => ((∀ context, e ≠ .requestUnanswered context) → E e t) ∧
        ((∃ context, e = .requestUnanswered context) → Start t ∧ E e t)))
    (hstart : if needReconnect then Start s else Ready s) :
    Ensures (executeAuthenticateWithRetry reconnect authenticate needReconnect) env s Q E := by
  have hsecond : ∀ {t}, Start t → Ensures (do reconnect 1; authenticate 1) env t Q E := by
    intro t ht
    rw [ensures_bind]
    refine (hreconnect 1 t ht).mono (fun _ u hu => ?_) (fun _ _ h => h)
    refine (hauthenticate 1 u hu).mono (fun _ _ h => h) (fun e v hv => ?_)
    by_cases hc : ∃ context, e = .requestUnanswered context
    · exact (hv.2 hc).2
    · exact hv.1 (fun context he => hc ⟨context, he⟩)
  have hfirst : ∀ {t}, Ready t →
      Ensures (executeAuthenticateWithRetry reconnect authenticate false) env t Q E := by
    intro t ht
    unfold executeAuthenticateWithRetry runIf
    rw [ensures_bind]
    change Ensures _ env t Q E
    rw [ensures_bind, ensures_attempt]
    refine (hauthenticate 0 t ht).mono (fun _ _ h => h) (fun e u hu => ?_)
    split
    · rename_i heq
      cases heq
    · rename_i context heq
      cases heq
      exact hsecond (hu.2 ⟨context, rfl⟩).1
    · rename_i e' hne heq
      cases heq
      exact hu.1 hne
  cases needReconnect with
  | false => exact hfirst hstart
  | true =>
      unfold executeAuthenticateWithRetry
      rw [ensures_bind]
      exact (hreconnect 0 s hstart).mono (fun _ _ h => hfirst h) (fun _ _ h => h)

theorem disconnect_spec :
    Ensures disconnect env s (fun _ t => t = { s with transport := none })
      (fun e t => t = s ∧ ∃ message, e = .transport message) := by
  unfold disconnect runIf
  simp only [ensures_bind, ensures_ask, ensures_get]
  split
  · rw [ensures_ofExcept]
    refine ⟨fun _ _ => rfl, fun e he => ⟨rfl, ?_⟩⟩
    cases hclosing : env.closing with
    | ok a =>
        rw [hclosing] at he
        cases he
    | error message =>
        rw [hclosing] at he
        cases he
        exact ⟨_, rfl⟩
  · rfl

/-- A forced logout ends the session, unless the gate says that it has happened. -/
theorem triggerForcedLogout_spec (e : Error) (source : ForcedLogoutSource) :
    Ensures (triggerForcedLogout e source) env s
      (fun _ t => if s.authTerminalFired then t = s else
        ∃ transport, (transport = none ∨ transport = s.transport) ∧
          t = { s with
            transport := transport
            sessionState := .terminated
            shouldAutoReconnect := false
            reconnectAttempt := 0
            nextReconnectAt := none
            authTerminalFired := true
            lastTerminalReason := some
              { code := e.authErrorCode.getD 0
                message := e.authMessage
                source := source
                atMs := s.clock }
            inboundEpoch := s.inboundEpoch + 1
            inboundTask := none
            emitted := s.emitted ++
              [.forcedLogout (e.authErrorCode.getD 0) e.authMessage source] })
      (fun _ _ => False) := by
  unfold triggerForcedLogout
  simp only [ensures_bind, ensures_get]
  split
  · rfl
  · simp only [ensures_bind, ensures_modify, ensures_attempt]
    refine disconnect_spec.mono ?_ ?_
    · rintro _ t rfl
      exact ⟨none, Or.inl rfl, rfl⟩
    · rintro _ t ⟨rfl, -⟩
      exact ⟨s.transport, Or.inr rfl, rfl⟩

theorem can_connect_ok {state next : SessionState} (h : state.can .connect = .ok next) :
    next = .connected := by
  cases state <;> cases h <;> rfl

theorem offerTransport_spec :
    Ensures offerTransport env s
      (fun _ t => ∃ d, Dialed s d ∧ (t = d ∨
        d.transport.isSome = true ∧ t = (d.enter .connected).emit
          (.connectionStateChanged s.sessionState.asConnectionState .connected)))
      (fun _ _ => False) := by
  unfold offerTransport
  simp only [ensures_bind, ensures_get, ensures_attempt]
  refine (connectWithin_spec 3 _).mono ?_ ?_
  · rintro _ d ⟨hd, hopen⟩
    split
    · rename_i u next _ hnext
      cases can_connect_ok hnext
      exact ⟨d, hd, Or.inr ⟨hopen, rfl⟩⟩
    · exact ⟨d, hd, Or.inl rfl⟩
  · rintro e d ⟨hd, -⟩
    exact ⟨d, hd, Or.inl rfl⟩

/-- What the host has been handed keeps a property that handing over keeps. -/
theorem finish_ensures {x : ConnM Unit} {Q : Unit → ActorState → Prop}
    {E : Error → ActorState → Prop} (h : Ensures x env s Q E)
    (hQ : ∀ a t, Q a t → Q a t.flushPending) (hE : ∀ e t, E e t → E e t.flushPending) :
    Ensures (finish x) env s Q E := by
  unfold finish flushPending
  simp only [ensures_bind, ensures_attempt, ensures_modify]
  refine h.mono (fun a t ht => ?_) (fun e t ht => ?_)
  · rw [ensures_ofExcept]
    constructor
    · rintro b ⟨⟩
      exact hQ a t ht
    · rintro e ⟨⟩
  · rw [ensures_ofExcept]
    constructor
    · rintro b ⟨⟩
    · rintro e' ⟨⟩
      exact hE e t ht

/-- Frames of an older epoch change nothing. -/
theorem inboundFrame_rule (epoch : Nat) {Q : Unit → ActorState → Prop}
    {E : Error → ActorState → Prop} (hpass : Ensures (finish background) env s Q E)
    (hdropped : Q () s) : Ensures (Command.inboundFrame epoch).run env s Q E := by
  unfold Command.run
  rw [ensures_bind, ensures_get]
  split
  · exact hpass
  · exact hdropped

theorem inboundDisconnected_rule (epoch : Nat) {Q : Unit → ActorState → Prop}
    {E : Error → ActorState → Prop} (hpass : Ensures (finish onInboundDisconnected) env s Q E)
    (hdropped : Q () s) : Ensures (Command.inboundDisconnected epoch).run env s Q E := by
  unfold Command.run
  rw [ensures_bind, ensures_get]
  split
  · exact hpass
  · exact hdropped

/-- An authentication that has no plan leaves the loop's turn at once. -/
theorem authenticateCommand_rule (userId : Nat) {Q : Unit → ActorState → Prop}
    {E : Error → ActorState → Prop}
    (hplan : ∀ plan, Ensures (finish (onAuthenticate userId plan)) env s Q E)
    (hnone : ∀ e, E e s) : Ensures (Command.authenticate userId).run env s Q E := by
  unfold Command.run
  simp only [ensures_bind, ensures_ask, ensures_get]
  rw [ensures_ofExcept]
  exact ⟨fun plan _ => hplan plan, fun e _ => hnone e⟩

/-- What holds when the new transport is listened to, and what the report makes of it. -/
theorem connected_rule {P R : ActorState → Prop} (before : ConnectionState)
    (fresh hadLocalSession : Bool)
    (hready : Ensures (runIf fresh listen) env
      { s.resetReconnectBackoff with
        networkHint := s.hintAfterSuccess
        authTerminalFired := false
        lastTerminalReason := none } (fun _ t => P t) (fun _ _ => False))
    (hreport : ∀ t, P t → Ensures (reportChange before) env t (fun _ u => R u)
      (fun _ _ => False))
    (hworked : ∀ t u, R t → Worked t u → R u) :
    Ensures (connected before fresh hadLocalSession) env s (fun _ t => R t)
      (fun _ _ => False) := by
  unfold connected
  simp only [ensures_bind, ensures_modify]
  refine hready.mono (fun _ t ht => ?_) (fun _ _ hfalse => hfalse)
  refine (hreport t ht).mono (fun _ u hu => ?_) (fun _ _ hfalse => hfalse)
  unfold runIf
  split
  · exact resume_spec.mono (fun _ v hv => hworked u v hu hv) (fun _ _ hfalse => hfalse)
  · exact hu

end Authentication

end Connection
end PrivchatSdk
