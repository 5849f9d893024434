import PrivchatSdk.MutationItems
import PrivchatSdk.ReconnectTimer

/-!
# How often the SDK tries to reconnect

Attempts are 700 ms apart, but for those that follow a turn that has set the timer to
its own moment (`retries_paced`).  After an attempt this is so when the new connection
was lost again at once, and when the server refused the user for good while the gate of
the forced logout was closed (`retry_hurried_iff`).

In the last case the attempts never end: each of them finds the gate closed and leaves
the timer where it was (`refused_for_ever`).  A host that connects again with a revoked
token after a forced logout comes into it.
-/

namespace PrivchatSdk
namespace Connection

open StatementExec Exec EventRun Receive Difference

section Refusal

theorem parseU32_toString {n : Nat} (h : n < 2 ^ 32) : parseU32 (toString n).toList = some n := by
  have hplus : ∀ rest, (toString n).toList ≠ '+' :: rest := by
    intro rest hlist
    have hdigit : '+'.isDigit = true :=
      isDigit_of_mem_version (n := n) (hlist ▸ List.mem_cons_self)
    exact absurd hdigit (by decide)
  unfold parseU32
  dsimp only
  split
  · rename_i rest hlist
    exact absurd hlist (hplus rest)
  · rw [parseDigits_toString]
    simpa using h

/-- The code of a refusal is read back from its text. -/
theorem refusal_authErrorCode (resp : AuthorizationResponse)
    (h : resp.errorCode.getD 0 < 2 ^ 32) :
    resp.refusal.authErrorCode = some (resp.errorCode.getD 0) := by
  have htext : ("[" ++ toString (resp.errorCode.getD 0) ++ "] " ++
      resp.errorMessage.getD "authorization failed").toList =
      '[' :: ((toString (resp.errorCode.getD 0)).toList ++
        ']' :: ' ' :: (resp.errorMessage.getD "authorization failed").toList) := by
    simp [String.toList_append]
  have hdigits : ∀ c ∈ (toString (resp.errorCode.getD 0)).toList, (c != ']') = true := by
    intro c hc
    have hdigit := isDigit_of_mem_version hc
    simp only [bne_iff_ne]
    rintro rfl
    exact absurd hdigit (by decide)
  unfold AuthorizationResponse.refusal Error.authErrorCode parseAuthErrorCode
  dsimp only
  rw [htext]
  simp only [List.mem_append, List.mem_cons, true_or, or_true, if_true]
  rw [List.takeWhile_append_of_pos hdigits]
  simp only [List.takeWhile_cons, bne_self_eq_false, Bool.false_eq_true, if_false,
    List.append_nil]
  exact parseU32_toString h

theorem refusal_authKind (resp : AuthorizationResponse) (h : resp.errorCode.getD 0 < 2 ^ 32) :
    resp.refusal.authKind = some (classifyAuthErrorCode (resp.errorCode.getD 0)) := by
  have hcode := refusal_authErrorCode resp h
  unfold AuthorizationResponse.refusal Error.authErrorCode at hcode
  unfold AuthorizationResponse.refusal Error.authKind
  dsimp only at hcode ⊢
  rw [hcode]
  rfl

end Refusal

section Pace

variable {s t : ActorState} {u : Turn}

/-- The timer is set to less than the shortest pause from now. -/
def ActorState.imminent (s : ActorState) : Bool :=
  s.nextReconnectAt.any (fun deadline => decide (deadline < s.clock + 700))

def Turn.isRetry (x : ActorState × Turn) : Bool :=
  x.2.arm == .retry

/-- The turn sets the timer to its own moment, or is an attempt that leaves it there. -/
def Turn.hurries (x : ActorState × Turn) : Bool :=
  (step x.1 x.2).imminent &&
    (x.2.arm == .retry || (step x.1 x.2).nextReconnectAt != x.1.nextReconnectAt)

/-- The earliest moment of the next attempt, as far as a pause reaches. -/
def ActorState.reach (s : ActorState) : Nat :=
  match s.nextReconnectAt with
  | some deadline => min deadline (s.clock + 700)
  | none => s.clock + 700

theorem reach_le (s : ActorState) : s.reach ≤ s.clock + 700 := by
  unfold ActorState.reach
  split
  · exact min_le_right _ _
  · exact Nat.le_refl _

theorem reach_of_not_imminent (h : s.imminent = false) : s.reach = s.clock + 700 := by
  unfold ActorState.imminent at h
  unfold ActorState.reach
  cases hnext : s.nextReconnectAt with
  | none => rfl
  | some deadline =>
      rw [hnext] at h
      have hle : s.clock + 700 ≤ deadline := by simpa using h
      exact min_eq_right hle

/-- An attempt moves the reach by a pause, unless the turn hurries. -/
theorem reach_step (hposs : Possible s u) :
    (if Turn.isRetry (s, u) then 700 else 0) + s.reach ≤
      (step s u).reach + if Turn.hurries (s, u) then 700 else 0 := by
  have htimed := timed_step s u
  have hturn : Timed (s.elapse u.idle) (step s u) :=
    (moves_arm u.arm u.env (s.elapse u.idle)).timed
  have hfirst := reach_le s
  have hclock := htimed.1
  by_cases hsoon : (step s u).imminent = true
  · have hreach : s.reach ≤ (step s u).reach + (if Turn.isRetry (s, u) then 0 else
        if (step s u).nextReconnectAt = s.nextReconnectAt then 0 else 700) := by
      obtain ⟨deadline, hdeadline⟩ : ∃ deadline, (step s u).nextReconnectAt = some deadline := by
        unfold ActorState.imminent at hsoon
        cases hnext : (step s u).nextReconnectAt with
        | none => rw [hnext] at hsoon; cases hsoon
        | some deadline => exact ⟨deadline, rfl⟩
      have hend : (step s u).reach = min deadline ((step s u).clock + 700) := by
        unfold ActorState.reach
        rw [hdeadline]
      rcases hturn.2 deadline hdeadline with hold | ⟨hlow, -⟩
      · have hold : s.nextReconnectAt = some deadline := hold
        have hstart : s.reach = min deadline (s.clock + 700) := by
          unfold ActorState.reach
          rw [hold]
        omega
      · have hlow : s.clock + u.idle ≤ deadline := hlow
        split
        · rename_i hretry
          obtain ⟨due, hdue, hle⟩ := hposs.2 (beq_iff_eq.mp hretry)
          have hstart : s.reach ≤ due := by
            unfold ActorState.retryDeadline at hdue
            split at hdue
            · unfold ActorState.reach
              rw [hdue]
              exact min_le_left _ _
            · cases hdue
          omega
        · split
          · rename_i hsame
            have hstart : s.reach = min deadline (s.clock + 700) := by
              unfold ActorState.reach
              rw [← hsame, hdeadline]
            omega
          · omega
    have hhurries : Turn.hurries (s, u) = (Turn.isRetry (s, u) ||
        (step s u).nextReconnectAt != s.nextReconnectAt) := by
      unfold Turn.hurries Turn.isRetry
      rw [hsoon, Bool.true_and]
    rw [hhurries]
    cases hretry : Turn.isRetry (s, u) with
    | true =>
        rw [hretry] at hreach
        simp only [Bool.true_or, if_true] at hreach ⊢
        omega
    | false =>
        rw [hretry] at hreach
        simp only [Bool.false_or, Bool.false_eq_true, if_false, bne_iff_ne, ne_eq] at hreach ⊢
        split at hreach
        · rename_i hsame
          rw [if_neg (not_not_intro hsame)]
          omega
        · rename_i hdiff
          rw [if_pos hdiff]
          omega
  · have hlater := reach_of_not_imminent (Bool.eq_false_iff.mpr hsoon)
    rw [hlater]
    split
    · rename_i hretry
      obtain ⟨due, hdue, hle⟩ := hposs.2 (beq_iff_eq.mp hretry)
      have hstart : s.reach ≤ due := by
        unfold ActorState.retryDeadline at hdue
        split at hdue
        · unfold ActorState.reach
          rw [hdue]
          exact min_le_left _ _
        · cases hdue
      have hidle : s.clock + u.idle ≤ (step s u).clock := hturn.1
      omega
    · omega

/--
In every run from the start, attempts to reconnect are as many as pauses of 700 ms fit
into the time that has passed, and one more for each turn that hurries.
-/
theorem retries_paced (uid : Option String) (completed : Bool) {turns : List Turn}
    (hposs : Guarded step Possible (ActorState.boot uid completed) turns) :
    700 * (trace step (ActorState.boot uid completed) turns).countP Turn.isRetry ≤
      (run step (ActorState.boot uid completed) turns).clock +
        700 * (trace step (ActorState.boot uid completed) turns).countP Turn.hurries := by
  have h := hposs.paced Turn.isRetry Turn.hurries 700 ActorState.reach
    (fun s u hu => reach_step hu)
  have hend := reach_le (run step (ActorState.boot uid completed) turns)
  have hstart : (ActorState.boot uid completed).reach = 700 := rfl
  omega

/-- A failed `Connect` and the attempt after it. -/
theorem retries_paced_once :
    700 * (trace step (ActorState.boot (some "7") true)
        [refusedConnect, ⟨1000, .retry, Env.refusing 10003⟩]).countP Turn.isRetry ≤
      (run step (ActorState.boot (some "7") true)
          [refusedConnect, ⟨1000, .retry, Env.refusing 10003⟩]).clock +
        700 * (trace step (ActorState.boot (some "7") true)
          [refusedConnect, ⟨1000, .retry, Env.refusing 10003⟩]).countP Turn.hurries :=
  retries_paced (some "7") true
    ⟨possible_refusedConnect _ _,
      ⟨by decide +kernel, fun _ => ⟨1008, by decide +kernel, by decide +kernel⟩⟩, trivial⟩

end Pace

section Attempt

variable {s t : ActorState} {env : Env} {u : Turn}

theorem isAuthTerminal_iff (e : Error) : e.isAuthTerminal = true ↔ e.authKind = some .terminal := by
  unfold Error.isAuthTerminal
  simp

theorem not_terminal_of_kind {e : Error} (h : e.authKind = none) : e.isAuthTerminal = false := by
  unfold Error.isAuthTerminal
  rw [h]
  rfl

/-- A refusal comes on a connection that stands, and touches neither wish nor gate. -/
def SameWish (s t : ActorState) : Prop :=
  t.authTerminalFired = s.authTerminalFired ∧ t.shouldAutoReconnect = s.shouldAutoReconnect

theorem Aged.sameWish (h : Aged s t) : SameWish s t := by
  obtain ⟨_, _, _, _, rfl⟩ := h
  exact ⟨rfl, rfl⟩

theorem Worked.sameWish (h : Worked s t) : SameWish s t := by
  obtain ⟨_, _, _, -, rfl | ⟨m, hup, -, -, rfl⟩⟩ := h
  · exact ⟨rfl, rfl⟩
  · rw [lostAt_of_up hup]
    exact ⟨rfl, rfl⟩

theorem hangUp_sameWish (s : ActorState) : SameWish s s.hangUp := by
  cases hup : s.sessionState.isUp with
  | true =>
      rw [hangUp_of_up hup]
      exact ⟨rfl, rfl⟩
  | false =>
      rw [hangUp_of_down hup]
      exact ⟨rfl, rfl⟩

/-- The part of an authentication that ends in a final refusal. -/
theorem authenticateWithRetry_refused (userId : Nat) (hup : s.sessionState = .connected) :
    Ensures (authenticateWithRetry userId false) env s
      (fun _ t => t.transport.isSome = true)
      (fun e t => e.isAuthTerminal = true → SameWish s t ∧ t.sessionState = .connected) := by
  refine executeAuthenticateWithRetry_rule (fun t => SameWish s t)
    (fun t => SameWish s t ∧ t.sessionState = .connected) (fun call t ht => ?_)
    (fun call t ht => ?_) ⟨⟨rfl, rfl⟩, hup⟩
  · refine (driverReconnect_spec (call + 1)).mono ?_ ?_
    · rintro _ a ⟨d, ⟨_, _, _, _, _, _, rfl, -⟩, -, -, rfl⟩
      obtain ⟨hgate, hwish⟩ := hangUp_sameWish t.stopInboundTask
      exact ⟨⟨hgate.trans ht.1, hwish.trans ht.2⟩, rfl⟩
    · rintro e a ⟨-, -, message, rfl⟩ hterminal
      cases hterminal
  · refine (driverAuthenticate_spec userId call).mono ?_ ?_
    · rintro _ a ⟨hopen, r, ⟨_, _, _, _, rfl⟩, rfl⟩
      change (t.resetIfOwnerChanged (toString userId)).transport.isSome = true
      unfold ActorState.resetIfOwnerChanged
      split
      · exact hopen
      · exact hopen
    · obtain ⟨⟨hgate, hwish⟩, hstate⟩ := ht
      rintro e a (⟨-, haged, resp, rfl⟩ | ⟨hworked, hkind, hmissing⟩ | ⟨-, -, message, rfl⟩)
      · obtain ⟨_, _, _, _, rfl⟩ := haged
        refine ⟨fun _ _ => ⟨⟨hgate, hwish⟩, hstate⟩, ?_⟩
        rintro ⟨context, hc⟩
        cases hc
      · have hnone : e.isAuthTerminal = false := not_terminal_of_kind hkind
        refine ⟨fun _ hterminal => ?_, fun hc => ⟨?_, fun hterminal => ?_⟩⟩
        · rw [hnone] at hterminal
          cases hterminal
        · obtain ⟨hgate', hwish'⟩ := (hmissing hc).1.sameWish
          exact ⟨hgate'.trans hgate, hwish'.trans hwish⟩
        · rw [hnone] at hterminal
          cases hterminal
      · refine ⟨fun _ hterminal => ?_, ?_⟩
        · cases hterminal
        · rintro ⟨context, hc⟩
          cases hc

/--
How an automatic reconnect ends: on a transport, in a session that is up; or with an
error, which, when it is final, leaves the timer at the moment the session was given up.
-/
theorem tryAutoReconnect_pace :
    Ensures tryAutoReconnect env s
      (fun next t => t.transport.isSome = true ∧ next.isUp = true)
      (fun e t => e.isAuthTerminal = true →
        t.authTerminalFired = s.authTerminalFired ∧
          (s.shouldAutoReconnect = true →
            ∃ deadline, t.nextReconnectAt = some deadline ∧ deadline ≤ t.clock)) := by
  unfold tryAutoReconnect dismantleAuthTransport
  simp only [ensures_bind, ensures_modify, ensures_get, ensures_ask]
  refine (connectWithin_spec 0 _).mono ?_ ?_
  · rintro _ d ⟨⟨_, _, _, _, _, _, rfl, -⟩, hopen⟩
    split
    · rename_i uid snapshot _ _
      rw [ensures_bind, ensures_attempt]
      refine (authenticateWithRetry_refused snapshot.userId rfl).mono
        (fun _ t ht => ⟨ht, rfl⟩) (fun e t ht hterminal => ?_)
      obtain ⟨⟨hgate, hwish⟩, hstate⟩ := ht hterminal
      have hup : t.stopInboundTask.sessionState.isUp = true := by
        change t.sessionState.isUp = true
        rw [hstate]
        rfl
      dsimp only
      rw [hangUp_of_up hup]
      refine ⟨hgate, fun hwanted => ⟨t.clock, if_pos (hwish.trans hwanted), Nat.le_refl _⟩⟩
    · exact ⟨hopen, rfl⟩
  · rintro e d ⟨-, -, message, rfl⟩ hterminal
    cases hterminal

theorem imminent_of_none (h : s.nextReconnectAt = none) : s.imminent = false := by
  unfold ActorState.imminent
  rw [h]
  rfl

theorem imminent_of_some {deadline : Nat} (h : s.nextReconnectAt = some deadline) :
    s.imminent = decide (deadline < s.clock + 700) := by
  unfold ActorState.imminent
  rw [h]
  rfl

theorem scheduleNextReconnect_not_imminent (s : ActorState) (jitter : Jitter) :
    (s.scheduleNextReconnect jitter).imminent = false := by
  have hdelay := (jitter.bounds s.backoffBaseSecs).1
  have hbase := s.one_le_backoffBaseSecs
  have hnext : (s.scheduleNextReconnect jitter).nextReconnectAt =
      some (s.clock + if s.networkHint.isOnline then jitter.delay s.backoffBaseSecs
        else max (jitter.delay s.backoffBaseSecs) 60000) := rfl
  have hclock : (s.scheduleNextReconnect jitter).clock = s.clock := rfl
  rw [imminent_of_some hnext, hclock, decide_eq_false_iff_not]
  split <;> omega

/-- A connection that was just made sets the timer again only by being lost. -/
theorem Worked.imminent_iff (h : Worked s t) (hup : s.sessionState.isUp = true)
    (hnone : s.nextReconnectAt = none) :
    t.imminent = true ↔ s.shouldAutoReconnect = true ∧ t.sessionState = .new := by
  obtain ⟨c, n, b, hc, rfl | ⟨m, -, hm, hmc, rfl⟩⟩ := h
  · have hidle : (s.aged c n b).imminent = false := imminent_of_none hnone
    have hstate : (s.aged c n b).sessionState ≠ .new := by
      intro hnew
      have hnew : s.sessionState = .new := hnew
      rw [hnew] at hup
      cases hup
    simp [hidle, hstate]
  · have hstate : ((s.lostAt m).aged c n b).sessionState = .new := by
      rw [lostAt_of_up hup]
      rfl
    cases hwanted : s.shouldAutoReconnect with
    | false =>
        have hnext : ((s.lostAt m).aged c n b).nextReconnectAt = none := by
          rw [lostAt_of_up hup]
          simp [ActorState.aged, hwanted, hnone]
        simp [imminent_of_none hnext]
    | true =>
        have hnext : ((s.lostAt m).aged c n b).nextReconnectAt = some m := by
          rw [lostAt_of_up hup]
          simp [ActorState.aged, hwanted]
        have hsoon : m < ((s.lostAt m).aged c n b).clock + 700 := by
          have hclock : ((s.lostAt m).aged c n b).clock = c := rfl
          omega
        simp [imminent_of_some hnext, hsoon, hstate]

/--
After an attempt the timer is left at the present moment in exactly two cases: the
connection that was made is lost again within the turn, and the server refuses the user
for good while the gate of the forced logout is closed from before.
-/
theorem retry_hurried_iff (hposs : Possible s u) (harm : u.arm = .retry) :
    Turn.hurries (s, u) = true ↔
      (∃ next, (tryAutoReconnect u.env (s.elapse u.idle)).1 = .ok next ∧
        (tryAutoReconnect u.env (s.elapse u.idle)).2.shouldAutoReconnect = true ∧
        (step s u).sessionState = .new) ∨
      ∃ e, (tryAutoReconnect u.env (s.elapse u.idle)).1 = .error e ∧
        e.isAuthTerminal = true ∧ s.authTerminalFired = true := by
  have hwants : (s.elapse u.idle).wantsOnline = true := by
    obtain ⟨deadline, hdeadline, -⟩ := hposs.2 harm
    unfold ActorState.retryDeadline at hdeadline
    split at hdeadline
    · assumption
    · cases hdeadline
  have hwanted : (s.elapse u.idle).shouldAutoReconnect = true :=
    (Bool.and_eq_true_iff.mp hwants).1
  have hhurries : Turn.hurries (s, u) = (step s u).imminent := by
    unfold Turn.hurries
    rw [harm]
    simp
  rw [hhurries]
  refine ensures_step (P := fun t => t.imminent = true ↔
    (∃ next, (tryAutoReconnect u.env (s.elapse u.idle)).1 = .ok next ∧
      (tryAutoReconnect u.env (s.elapse u.idle)).2.shouldAutoReconnect = true ∧
      t.sessionState = .new) ∨
    ∃ e, (tryAutoReconnect u.env (s.elapse u.idle)).1 = .error e ∧
      e.isAuthTerminal = true ∧ s.authTerminalFired = true) ?_
  rw [harm]
  change Ensures onRetry u.env (s.elapse u.idle) _ _
  unfold onRetry
  simp only [ensures_bind, ensures_get, if_pos hwants, ensures_attempt]
  have hpace : Ensures tryAutoReconnect u.env (s.elapse u.idle) _ _ := tryAutoReconnect_pace
  cases hrun : tryAutoReconnect u.env (s.elapse u.idle) with
  | mk result d =>
  cases result with
  | ok next =>
      rw [ensures_of_ok hrun] at hpace ⊢
      obtain ⟨hopen, hup⟩ := hpace
      simp only [ensures_modify]
      refine listen_spec.mono (fun _ v hv => ?_) (fun _ _ hfalse => hfalse.elim)
      refine resume_spec.mono (fun _ w hw => ?_) (fun _ _ hfalse => hfalse.elim)
      have hend := (hv.trans hw).imminent_iff hup rfl
      change w.imminent = true ↔ (∃ next', (Except.ok next : Except Error SessionState) =
        .ok next' ∧ d.shouldAutoReconnect = true ∧ w.sessionState = .new) ∨
        ∃ e, (Except.ok next : Except Error SessionState) = .error e ∧
          e.isAuthTerminal = true ∧ s.authTerminalFired = true
      simp only [Except.ok.injEq, exists_eq_left', reduceCtorEq, false_and, exists_false,
        or_false]
      exact hend
  | error e =>
      rw [ensures_of_error hrun] at hpace ⊢
      have hiff : ∀ t : ActorState, (t.imminent = true ↔
          e.isAuthTerminal = true ∧ s.authTerminalFired = true) →
          (t.imminent = true ↔
            (∃ next, (Except.error e : Except Error SessionState) = .ok next ∧
              d.shouldAutoReconnect = true ∧ t.sessionState = .new) ∨
            ∃ e', (Except.error e : Except Error SessionState) = .error e' ∧
              e'.isAuthTerminal = true ∧ s.authTerminalFired = true) := by
        intro t ht
        simpa using ht
      refine Ensures.mono (Q := fun _ t => t.imminent = true ↔
        e.isAuthTerminal = true ∧ s.authTerminalFired = true) (E := fun _ _ => False) ?_
        (fun _ t ht => hiff t ht) (fun _ _ hfalse => hfalse.elim)
      split
      · rename_i hterminal
        obtain ⟨hgate, hset⟩ := hpace hterminal
        obtain ⟨deadline, hdeadline, hle⟩ := hset hwanted
        have hgate : d.authTerminalFired = s.authTerminalFired := hgate
        refine (triggerForcedLogout_spec e .connectAuth).mono (fun _ t ht => ?_) (fun _ _ h => h)
        split at ht
        · rename_i hfired
          rw [ht, imminent_of_some hdeadline, hterminal, ← hgate, hfired]
          simp
          omega
        · rename_i hopen
          obtain ⟨transport, -, rfl⟩ := ht
          rw [imminent_of_none rfl, hterminal, ← hgate, Bool.eq_false_iff.mpr hopen]
          simp
      · rename_i hterminal
        have hnot : ∀ {t : ActorState}, t.imminent = false → (t.imminent = true ↔
            e.isAuthTerminal = true ∧ s.authTerminalFired = true) := by
          intro t ht
          simp [ht, hterminal]
        split
        · unfold handOverToHost
          rw [ensures_bind]
          refine offerTransport_spec.mono (fun _ t _ => hnot ?_) (fun _ _ h => h)
          refine (imminent_of_some rfl).trans ?_
          change decide (t.clock + 60000 < t.clock + 700) = false
          simp
        · simp only [ensures_bind, ensures_ask, ensures_modify]
          exact hnot (scheduleNextReconnect_not_imminent _ _)

/-- The gate is open at the first refusal, and so the timer is not left due. -/
theorem retry_unhurried_first :
    Turn.hurries (step (ActorState.boot (some "7") true) refusedConnect,
      ⟨1000, .retry, Env.refusing 10003⟩) = false := by
  have hfails : (tryAutoReconnect (Env.refusing 10003)
      ((step (ActorState.boot (some "7") true) refusedConnect).elapse 1000)).1.toOption =
        none := by
    decide +kernel
  have hopen :
      (step (ActorState.boot (some "7") true) refusedConnect).authTerminalFired = false := by
    decide +kernel
  rw [← Bool.not_eq_true]
  intro hhurries
  rcases (retry_hurried_iff
      ⟨by decide +kernel, fun _ => ⟨1008, by decide +kernel, by decide +kernel⟩⟩ rfl).mp
        hhurries with ⟨next, hok, -⟩ | ⟨e, -, -, hfired⟩
  · rw [hok] at hfails
    cases hfails
  · rw [hopen] at hfired
    cases hfired

end Attempt

section ForEver

variable {s t : ActorState} {env : Env} {u : Turn}

/-- The server can be reached, and refuses the stored session for good. -/
structure Env.Refuses (env : Env) : Prop where
  reached : firstReached none (env.dial 0).endpoints = .ok ()
  inTime : (env.dial 0).outOfTime = false
  session : ∃ snapshot, env.session = .ok (some snapshot)
  answered : (env.round 0).reply = .answered
  refused : ∃ resp, (env.round 0).response = .ok resp ∧ resp.success = false ∧
    resp.errorCode.getD 0 < 2 ^ 32 ∧
      classifyAuthErrorCode (resp.errorCode.getD 0) = .terminal

/-- The session is to be reconnected at once, and the forced logout has happened before. -/
structure ActorState.Stuck (s : ActorState) : Prop where
  state : s.sessionState = .new
  transport : s.transport = none
  user : s.currentUid.isSome = true
  wanted : s.shouldAutoReconnect = true
  fired : s.authTerminalFired = true
  due : ∃ deadline, s.nextReconnectAt = some deadline ∧ deadline ≤ s.clock

/-- Dialling reaches an endpoint. -/
theorem connectWithin_reaches {call : Nat} (message : String) (htransport : s.transport = none)
    (hinTime : (env.dial call).outOfTime = false)
    (hreached : firstReached none (env.dial call).endpoints = .ok ()) :
    connectWithin call message env s = (.ok (),
      { s with
        transport := some s.transports
        transportEvents := some s.transports
        transports := s.transports + 1
        network := s.network ++ [.dial]
        clock := s.clock + (env.dial call).took }) := by
  obtain ⟨transport, events, transports⟩ := s
  cases htransport
  simp only [connectWithin, connect, bind_run, ask, get, modify, ofExcept, hinTime, hreached,
    Option.isSome_none, Bool.false_and, Bool.false_eq_true, if_false, ActorState.send,
    ActorState.elapse]

/-- An authentication that the server refuses leaves the session as it is. -/
theorem driverAuthenticate_refused {userId call : Nat} {resp : AuthorizationResponse}
    (hstate : s.sessionState = .connected) (hopen : s.transport.isSome = true)
    (hanswered : (env.round call).reply = .answered)
    (hresponse : (env.round call).response = .ok resp) (hno : resp.success = false) :
    driverAuthenticate userId call env s =
      (.error resp.refusal, (s.send (.auth userId)).elapse (env.round call).took) := by
  have hcan : s.sessionState.can .authenticate = .ok .authenticated := by
    rw [hstate]
    rfl
  have hsome : s.transport.isNone = false := by
    rw [Option.isNone_eq_false_iff]
    exact hopen
  simp only [driverAuthenticate, authenticate, requestBytes, bind_run, ask, get, modify,
    ofExcept, hcan, hsome, hanswered, hresponse, hno, Except.mapError, Bool.false_eq_true,
    if_false, pure_run, fail_run]

theorem authenticateWithRetry_of_error {userId : Nat} {e : Error}
    (hauth : driverAuthenticate userId 0 env s = (.error e, t))
    (he : ∀ context, e ≠ .requestUnanswered context) :
    authenticateWithRetry userId false env s = (.error e, t) := by
  unfold authenticateWithRetry executeAuthenticateWithRetry runIf
  rw [if_neg Bool.false_ne_true, bind_run, pure_run]
  dsimp only
  rw [attempt_bind, hauth]
  cases e with
  | requestUnanswered context => exact absurd rfl (he context)
  | _ => rfl

/-- The attempt of a stuck session. -/
theorem tryAutoReconnect_refused (hs : s.Stuck) (henv : env.Refuses) :
    Ensures tryAutoReconnect env s (fun _ _ => False)
      (fun e t => e.isAuthTerminal = true ∧ t.Stuck ∧
        (∃ userId, t.attempts = s.attempts ++ [.dial, .auth userId]) ∧
        t.emitted = s.emitted ++ [.connectionStateChanged .connected .new]) := by
  obtain ⟨hstate, htransport, huser, hwanted, hfired, -⟩ := hs
  obtain ⟨hreached, hinTime, ⟨snapshot, hsession⟩, hanswered, resp, hresponse, hno, hcode,
    hkind⟩ := henv
  obtain ⟨uid, huid⟩ := Option.isSome_iff_exists.mp huser
  have hterminal : resp.refusal.isAuthTerminal = true := by
    rw [isAuthTerminal_iff, refusal_authKind resp hcode, hkind]
  unfold tryAutoReconnect dismantleAuthTransport
  rw [ensures_bind, ensures_of_ok (connectWithin_reaches _ htransport hinTime hreached)]
  simp only [ensures_bind, ensures_modify, ensures_get, ensures_ask, huid, hsession,
    ActorState.enter, ensures_attempt]
  rw [ensures_of_error (authenticateWithRetry_of_error
    (driverAuthenticate_refused rfl rfl hanswered hresponse hno)
    (by intro context hc; cases hc))]
  simp only [ensures_fail]
  rw [hangUp_of_up (by rfl)]
  refine ⟨hterminal, ⟨rfl, rfl, rfl, hwanted, hfired, _, if_pos hwanted, Nat.le_refl _⟩,
    ⟨snapshot.userId, ?_⟩, rfl⟩
  simp [ActorState.attempts, ActorState.stopInboundTask, ActorState.elapse, ActorState.send,
    NetworkCall.reaches]

/-- The attempt of a stuck session leaves it stuck. -/
theorem stuck_step (hs : s.Stuck) (harm : u.arm = .retry) (henv : u.env.Refuses) :
    Possible s u ∧ (step s u).Stuck ∧
      (∃ userId, (step s u).attempts = s.attempts ++ [.dial, .auth userId]) ∧
      (step s u).emitted = s.emitted ++ [.connectionStateChanged .connected .new] := by
  have hwants : s.wantsOnline = true := by
    unfold ActorState.wantsOnline
    rw [hs.wanted, hs.state]
    rfl
  obtain ⟨deadline, hnext, hle⟩ := hs.due
  have hdue : s.retryDeadline = some deadline := by
    unfold ActorState.retryDeadline
    rw [if_pos hwants, hnext]
  have hlater : (s.elapse u.idle).Stuck :=
    ⟨hs.state, hs.transport, hs.user, hs.wanted, hs.fired,
      deadline, hnext, hle.trans (Nat.le_add_right _ _)⟩
  refine ⟨⟨?_, fun _ => ⟨deadline, hdue, hle.trans (Nat.le_add_right _ _)⟩⟩, ?_⟩
  · rw [hs.state]
    exact fun h => nomatch h
  · refine ensures_step (P := fun t => t.Stuck ∧
      (∃ userId, t.attempts = s.attempts ++ [.dial, .auth userId]) ∧
      t.emitted = s.emitted ++ [.connectionStateChanged .connected .new]) ?_
    rw [harm]
    change Ensures onRetry u.env (s.elapse u.idle) _ _
    unfold onRetry
    simp only [ensures_bind, ensures_get, if_pos (show (s.elapse u.idle).wantsOnline = true from
      hwants), ensures_attempt]
    refine (tryAutoReconnect_refused hlater henv).mono (fun _ _ hfalse => hfalse.elim) ?_
    rintro e t ⟨hterminal, hstuck, hattempts, hemitted⟩
    rw [if_pos hterminal]
    refine (triggerForcedLogout_spec e .connectAuth).mono (fun _ v hv => ?_)
      (fun _ _ hfalse => hfalse.elim)
    rw [if_pos hstuck.fired] at hv
    rw [hv]
    exact ⟨hstuck, hattempts, hemitted⟩

/--
A stuck session goes on for ever as long as the server refuses it: whatever time passes
between the turns the timer is due, every attempt dials and authenticates once more, and
the forced logout is not told again.
-/
theorem refused_for_ever (hs : s.Stuck) {turns : List Turn}
    (hturns : ∀ u ∈ turns, u.arm = .retry ∧ u.env.Refuses) :
    Guarded step Possible s turns ∧ (run step s turns).Stuck ∧
      (∃ userIds : List Nat, userIds.length = turns.length ∧
        (run step s turns).attempts =
          s.attempts ++ userIds.flatMap (fun userId => [.dial, .auth userId])) ∧
      (run step s turns).emitted =
        s.emitted ++ List.replicate turns.length (.connectionStateChanged .connected .new) := by
  induction turns generalizing s with
  | nil =>
      exact ⟨trivial, hs, ⟨[], rfl, (List.append_nil _).symm⟩, (List.append_nil _).symm⟩
  | cons u us ih =>
      obtain ⟨harm, henv⟩ := hturns u List.mem_cons_self
      obtain ⟨hposs, hstuck, ⟨userId, hattempts⟩, hemitted⟩ := stuck_step hs harm henv
      obtain ⟨hrest, hend, ⟨userIds, hlength, hall⟩, htold⟩ :=
        ih hstuck (fun v hv => hturns v (List.mem_cons_of_mem _ hv))
      refine ⟨⟨hposs, hrest⟩, hend, ⟨userId :: userIds, ?_, ?_⟩, ?_⟩
      · rw [List.length_cons, List.length_cons, hlength]
      · rw [run_cons, hall, hattempts, List.append_assoc, List.flatMap_cons]
      · rw [run_cons, htold, hemitted, List.append_assoc, List.length_cons,
          List.replicate_succ]
        rfl

/-- The server refuses for good with these codes. -/
theorem refuses_of_terminal {code : Nat} (hcode : code < 2 ^ 32)
    (hkind : classifyAuthErrorCode code = .terminal) : (Env.refusing code).Refuses where
  reached := rfl
  inTime := rfl
  session := ⟨_, rfl⟩
  answered := rfl
  refused := ⟨_, rfl, rfl, hcode, hkind⟩

/-- Forced out, the host connects once more with the revoked token. -/
def revokedRun : List Turn :=
  [refusedConnect, ⟨1000, .retry, Env.refusing 10003⟩, refusedConnect]

/-- Ten attempts after that take no more time than the server needs to refuse them. -/
theorem refused_for_ever_ten :
    Guarded step Possible
        ((run step (ActorState.boot (some "7") true) revokedRun).elapse 1000)
        (List.replicate 10 ⟨0, .retry, Env.refusing 10003⟩) ∧
      (run step ((run step (ActorState.boot (some "7") true) revokedRun).elapse 1000)
        (List.replicate 10 ⟨0, .retry, Env.refusing 10003⟩)).Stuck := by
  have h := @refused_for_ever
    ((run step (ActorState.boot (some "7") true) revokedRun).elapse 1000)
    ⟨by decide +kernel, by decide +kernel, by decide +kernel, by decide +kernel,
      by decide +kernel, 2024, by decide +kernel, by decide +kernel⟩
    (List.replicate 10 ⟨0, .retry, Env.refusing 10003⟩)
    (by
      intro u hu
      rw [List.eq_of_mem_replicate hu]
      exact ⟨rfl, refuses_of_terminal (by decide) (by decide)⟩)
  exact ⟨h.1, h.2.1⟩

end ForEver

end Connection
end PrivchatSdk
