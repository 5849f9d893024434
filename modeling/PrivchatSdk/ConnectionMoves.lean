import Mathlib.Logic.Relation
import PrivchatSdk.ConnectionLoop

/-!
# What a turn of the loop is made of

Every turn is a sequence of moves: single changes of the state, of which some reach
for a connection (`Move` with `reach := true`).  A property of all
turns is then a property of the moves.

Only the retry arm, `Connect` and `Authenticate` dial or authenticate
(`moves_of_quiet`); what the others make of the state is made without.
-/

namespace PrivchatSdk
namespace Connection

open StatementExec Exec EventRun Relation

section Moves

/-- One change of the state; `reach` says whether it may reach for a connection. -/
inductive Move (reach : Bool) : ActorState → ActorState → Prop
  | elapse (s : ActorState) (took : Nat) : Move reach s (s.elapse took)
  | rpc (s : ActorState) (context : String) : Move reach s (s.send (.rpc context))
  | dial (s : ActorState) (h : reach = true) : Move reach s (s.send .dial)
  | auth (s : ActorState) (userId : Nat) (h : reach = true) :
      Move reach s (s.send (.auth userId))
  | tell (s : ActorState) (emitted pending : List SdkEvent) :
      Move reach s { s with emitted := emitted, pendingEvents := pending }
  | health (s : ActorState) : Move reach s (s.applyTransportHealth false).2
  | listen (s : ActorState) (epoch : Nat) (task : Option InboundTask) :
      Move reach s { s with inboundEpoch := epoch, inboundTask := task }
  | close (s : ActorState) : Move reach s { s with transport := none }
  | adopt (s : ActorState) : Move reach s
      { s with
        transport := some s.transports
        transportEvents := some s.transports
        transports := s.transports + 1 }
  | enter (s : ActorState) (next : SessionState)
      (h : next = .authenticated → reach = true) : Move reach s (s.enter next)
  | account (s : ActorState) (uid : Option String) (completed : Bool) (epoch : Nat) :
      Move reach s
        { s with currentUid := uid, bootstrapCompleted := completed, sessionEpoch := epoch }
  | disarm (s : ActorState) (attempt : Nat) :
      Move reach s { s with reconnectAttempt := attempt, nextReconnectAt := none }
  | arm (s : ActorState) (attempt delay : Nat) (h : delay ≤ 60000) : Move reach s
      { s with reconnectAttempt := attempt, nextReconnectAt := some (s.clock + delay) }
  | unwanted (s : ActorState) : Move reach s { s with shouldAutoReconnect := false }
  | wanted (s : ActorState) (h : reach = true) :
      Move reach s { s with shouldAutoReconnect := true }
  | verdict (s : ActorState) (fired : Bool) (reason : Option TerminalReason) :
      Move reach s { s with authTerminalFired := fired, lastTerminalReason := reason }
  | hint (s : ActorState) (hint : NetworkHint) : Move reach s { s with networkHint := hint }

def Moves (reach : Bool) : ActorState → ActorState → Prop :=
  ReflTransGen (Move reach)

variable {reach : Bool}

theorem Moves.refl (s : ActorState) : Moves reach s s :=
  ReflTransGen.refl

theorem Moves.trans (s t u : ActorState) (h : Moves reach s t) (h' : Moves reach t u) :
    Moves reach s u :=
  ReflTransGen.trans h h'

theorem Move.moves {s t : ActorState} (h : Move reach s t) : Moves reach s t :=
  ReflTransGen.single h

theorem Moves.then {s t u : ActorState} (h : Moves reach s t) (h' : Move reach t u) :
    Moves reach s u :=
  ReflTransGen.tail h h'

/-- A relation that is kept by composition and holds of the moves holds of a turn. -/
theorem Moves.lift {R : ActorState → ActorState → Prop}
    (hrefl : ∀ s, R s s) (htrans : ∀ s t u, R s t → R t u → R s u)
    (hmove : ∀ s t, Move reach s t → R s t) {s t : ActorState} (h : Moves reach s t) :
    R s t := by
  induction h with
  | refl =>
      exact hrefl s
  | tail _ hlast ih =>
      exact htrans _ _ _ ih (hmove _ _ hlast)

end Moves

section States

variable {reach : Bool} (s : ActorState)

namespace ActorState

theorem moves_emit (event : SdkEvent) : Moves reach s (s.emit event) :=
  (Move.tell s _ _).moves

theorem moves_emitTransition (change : Option (ConnectionState × ConnectionState)) :
    Moves reach s (s.emitTransition change) := by
  cases change with
  | none => exact Moves.refl s
  | some pair => exact s.moves_emit _

theorem moves_flushPending : Moves reach s s.flushPending :=
  (Move.tell s _ _).moves

theorem moves_stopInboundTask : Moves reach s s.stopInboundTask :=
  (Move.listen s _ _).moves

theorem moves_startInboundTask : Moves reach s s.startInboundTask :=
  (Move.listen s _ _).moves

theorem moves_hangUp : Moves reach s s.hangUp :=
  Moves.trans _ _ _ (Move.health s).moves (moves_emitTransition _ _)

theorem moves_loseTransport : Moves reach s s.loseTransport := by
  refine Moves.trans _ _ _ (Move.health s).moves ?_
  unfold loseTransport pushConnectionTransitionEvent
  split
  · exact (Move.tell _ _ _).moves
  · exact Moves.refl _

theorem moves_resetReconnectBackoff : Moves reach s s.resetReconnectBackoff :=
  (Move.disarm s 0).moves

theorem backoffBaseSecs_le : s.backoffBaseSecs ≤ 30 := by
  unfold backoffBaseSecs
  split <;> omega

theorem one_le_backoffBaseSecs : 1 ≤ s.backoffBaseSecs := by
  unfold backoffBaseSecs
  split <;> omega

theorem moves_scheduleNextReconnect (jitter : Jitter) :
    Moves reach s (s.scheduleNextReconnect jitter) := by
  have hdelay := (jitter.bounds s.backoffBaseSecs).2
  have hbase := s.backoffBaseSecs_le
  refine (Move.arm s s.nextAttempt _ ?_).moves
  split <;> omega

theorem moves_markReconnectReadyNow : Moves reach s s.markReconnectReadyNow :=
  (Move.arm s 0 0 (by omega)).moves

theorem moves_watchdog : Moves reach s s.watchdog := by
  unfold watchdog
  split
  · exact s.moves_markReconnectReadyNow
  · exact Moves.refl s

theorem moves_resetSessionScopedState : Moves reach s s.resetSessionScopedState :=
  (((((Move.unwanted s).moves.then (Move.disarm _ 0)).then
    (Move.verdict _ false none)).then (Move.listen _ (s.inboundEpoch + 1) s.inboundTask)).then
      (Move.tell _ s.emitted []))

theorem moves_resetIfOwnerChanged (uid : String) : Moves reach s (s.resetIfOwnerChanged uid) := by
  unfold resetIfOwnerChanged
  split
  · exact s.moves_resetSessionScopedState
  · exact Moves.refl s

theorem moves_setNetworkHint (hint : NetworkHint) : Moves reach s (s.setNetworkHint hint) := by
  have hset : Moves reach s (if s.networkHint = hint then s else
      { s with networkHint := hint }.emit (.networkHintChanged s.networkHint hint)) := by
    split
    · exact Moves.refl s
    · exact (Move.hint s hint).moves.then (Move.tell _ _ _)
  unfold setNetworkHint
  dsimp only
  split
  · exact Moves.trans _ _ _ hset
      (Moves.trans _ _ _ (moves_stopInboundTask _) (moves_hangUp _))
  · split
    · exact Moves.trans _ _ _ hset (moves_markReconnectReadyNow _)
    · exact hset

end ActorState

end States

section Quiet

variable {reach : Bool} {α β : Type}

theorem Moves.bind {x : ConnM α} {f : α → ConnM β} (hx : Relates (Moves reach) x)
    (hf : ∀ a, Relates (Moves reach) (f a)) : Relates (Moves reach) (x >>= f) :=
  Relates.bind Moves.trans hx hf

theorem moves_pure (a : α) : Relates (Moves reach) (pure a : ConnM α) :=
  relates_pure Moves.refl a

theorem moves_fail (e : Error) : Relates (Moves reach) (fail e : ConnM α) :=
  relates_fail Moves.refl e

theorem moves_get_bind {f : ActorState → ConnM β} (hf : ∀ a, Relates (Moves reach) (f a)) :
    Relates (Moves reach) (get >>= f) :=
  Moves.bind (relates_get Moves.refl) hf

theorem moves_ask_bind {f : Env → ConnM β} (hf : ∀ a, Relates (Moves reach) (f a)) :
    Relates (Moves reach) (ask >>= f) :=
  Moves.bind (relates_ask Moves.refl) hf

theorem Moves.runIf (c : Bool) {x : ConnM Unit} (hx : Relates (Moves reach) x) :
    Relates (Moves reach) (runIf c x) :=
  Relates.runIf Moves.refl c hx

theorem moves_ofExcept (x : Except Error α) : Relates (Moves reach) (ofExcept x) :=
  relates_ofExcept Moves.refl x

theorem moves_ofExcept_bind {x : Except Error α} {f : α → ConnM β}
    (hf : ∀ a, x = .ok a → Relates (Moves reach) (f a)) :
    Relates (Moves reach) (ofExcept x >>= f) := by
  cases x with
  | ok a => exact fun env s => hf a rfl env s
  | error e => exact fun _ s => Moves.refl s

theorem moves_requestBytes {call : NetworkCall} (hcall : ∀ s, Moves reach s (s.send call))
    (context : String) (reply : TransportReply) (took : Nat) :
    Relates (Moves reach) (requestBytes call context reply took) := by
  unfold requestBytes
  refine moves_get_bind (fun s => Relates.ite ?_ ?_)
  · exact Moves.bind (relates_modify ActorState.moves_loseTransport) (fun _ => moves_fail _)
  · refine Moves.bind (relates_modify (fun s => (hcall s).then (Move.elapse _ _))) (fun _ => ?_)
    cases reply with
    | answered => exact moves_pure _
    | connection =>
        exact Moves.bind (relates_modify ActorState.moves_loseTransport) (fun _ => moves_fail _)
    | timeout => exact moves_fail _
    | other message => exact moves_fail _

theorem moves_rpc (context : String) (reply : TransportReply) (took : Nat) :
    Relates (Moves reach) (requestBytes (.rpc context) context reply took) :=
  moves_requestBytes (fun s => (Move.rpc s context).moves) _ _ _

theorem moves_work (requests : List Request) : Relates (Moves reach) (work requests) := by
  induction requests with
  | nil =>
      exact moves_pure _
  | cons r rest ih =>
      exact Moves.bind (moves_rpc _ _ _).attempt (fun _ => ih)

theorem moves_background : Relates (Moves reach) background := by
  unfold background
  refine moves_ask_bind (fun env => Moves.bind (moves_work _) (fun _ => ?_))
  exact relates_modify (fun s => (Move.account s s.currentUid _ s.sessionEpoch).moves)

theorem moves_ensureSynced : Relates (Moves reach) ensureSynced := by
  unfold ensureSynced
  exact moves_get_bind (fun s => Relates.ite moves_background (moves_pure _))

theorem moves_disconnect : Relates (Moves reach) disconnect := by
  unfold disconnect
  refine moves_ask_bind (fun env => moves_get_bind (fun s => ?_))
  exact Moves.bind (Moves.runIf _ (moves_ofExcept _))
    (fun _ => relates_modify (fun s => (Move.close s).moves))

theorem moves_finish {x : ConnM Unit} (hx : Relates (Moves reach) x) :
    Relates (Moves reach) (finish x) := by
  unfold finish flushPending
  exact Moves.bind hx.attempt (fun r => Moves.bind
    (relates_modify ActorState.moves_flushPending) (fun _ => moves_ofExcept r))

theorem moves_reportFrom (before : ConnectionState) :
    Relates (Moves reach) (reportFrom before) :=
  relates_modify (fun s => s.moves_emit _)

theorem moves_reportChange (before : ConnectionState) :
    Relates (Moves reach) (reportChange before) :=
  relates_modify (fun s => s.moves_emitTransition _)

theorem moves_onHealthTick : Relates (Moves reach) onHealthTick := by
  unfold onHealthTick probeTransport flushPending
  refine Moves.bind (relates_modify ActorState.moves_watchdog) (fun _ => ?_)
  refine Moves.bind (moves_ask_bind (fun env => moves_get_bind (fun s => ?_))) (fun _ => ?_)
  · exact Relates.ite (relates_modify (fun s =>
      Moves.trans _ _ _ s.moves_stopInboundTask (ActorState.moves_hangUp _))) (moves_pure _)
  · exact Moves.bind moves_background (fun _ => relates_modify ActorState.moves_flushPending)

theorem moves_onRepairTick (passed : Bool) : Relates (Moves reach) (onRepairTick passed) := by
  unfold onRepairTick flushPending
  exact Moves.bind moves_background (fun _ =>
    Relates.ite (relates_modify ActorState.moves_flushPending) (moves_pure _))

theorem moves_onDisconnect : Relates (Moves reach) onDisconnect := by
  unfold onDisconnect
  refine Moves.bind (relates_modify (fun s => ?_)) (fun _ => moves_get_bind (fun s => ?_))
  · exact Moves.then (Moves.trans _ _ _ s.moves_resetReconnectBackoff
      (ActorState.moves_stopInboundTask _)) (Move.unwanted _)
  · exact Moves.bind moves_disconnect (fun _ => Relates.ite (moves_pure _)
      (Moves.bind (relates_modify (fun s => (Move.enter s .new (fun h => nomatch h)).moves))
        (fun _ => moves_reportFrom _)))

theorem moves_onPing : Relates (Moves reach) onPing := by
  unfold onPing
  refine moves_ask_bind (fun env => moves_get_bind (fun s =>
    Relates.ite (moves_pure _) (Moves.bind (relates_modify (fun s => ?_))
      (fun _ => moves_fail _))))
  exact Moves.trans _ _ _ s.moves_stopInboundTask (ActorState.moves_loseTransport _)

theorem moves_onInboundDisconnected : Relates (Moves reach) onInboundDisconnected :=
  relates_modify (fun s =>
    Moves.trans _ _ _ s.moves_stopInboundTask (ActorState.moves_hangUp _))

theorem moves_loginWithin (context message : String) :
    Relates (Moves reach) (loginWithin context message) := by
  unfold loginWithin
  refine moves_ask_bind (fun env => Moves.bind (moves_rpc _ _ _) (fun _ =>
    Relates.ite (moves_fail _) ?_))
  refine Moves.bind (moves_ofExcept _) (fun uid => Moves.bind (moves_ofExcept _) (fun _ => ?_))
  refine Moves.bind (relates_modify (fun s =>
    (Move.account s _ s.bootstrapCompleted _).moves)) (fun _ => ?_)
  exact Moves.bind (moves_work _) (fun _ => Relates.ite (moves_fail _) (moves_pure _))

theorem can_login_ok {state next : SessionState} (h : state.can .login = .ok next) :
    next = .loggedIn := by
  cases state <;> cases h <;> rfl

theorem moves_onLogin (context message : String) :
    Relates (Moves reach) (onLogin context message) := by
  unfold onLogin
  refine moves_get_bind (fun s => moves_ofExcept_bind (fun next hnext => ?_))
  refine Moves.bind (moves_loginWithin _ _) (fun _ => Moves.bind
    (relates_modify (fun s => (Move.enter s next (fun h => ?_)).moves))
    (fun _ => moves_reportFrom _))
  rw [can_login_ok hnext] at h
  cases h

theorem moves_forgetUser : Relates (Moves reach) forgetUser := by
  unfold forgetUser
  refine moves_ask_bind (fun env => moves_get_bind (fun s => Relates.ite ?_ (moves_pure _)))
  exact Moves.bind (relates_modify (fun s => (Move.account s _ s.bootstrapCompleted _).moves))
    (fun _ => Moves.bind (moves_ofExcept _) (fun _ => moves_ofExcept _))

theorem moves_withdraw (pushed : List SdkEvent) : Relates (Moves reach) (withdraw pushed) := by
  unfold withdraw
  refine moves_get_bind (fun s => Moves.bind (relates_modify (fun s => ?_)) (fun _ =>
    Moves.bind moves_forgetUser (fun _ => moves_reportFrom _)))
  exact ((((s.moves_resetReconnectBackoff).then (Move.unwanted _)).then
    (Move.account _ s.currentUid false s.sessionEpoch)).then
      (Move.tell _ s.emitted (s.pendingEvents ++ pushed))).then
        (Move.enter _ .connected (fun h => nomatch h))

theorem moves_onSwitchLocalAccount (uid : String) :
    Relates (Moves reach) (onSwitchLocalAccount uid) := by
  unfold onSwitchLocalAccount
  refine moves_ask_bind (fun env => moves_get_bind (fun s =>
    Moves.bind (moves_ofExcept _) (fun completed => ?_)))
  refine Moves.bind (relates_modify (fun s => Moves.trans _ _ _ s.moves_resetSessionScopedState
    (ActorState.moves_stopInboundTask _))) (fun _ => Moves.bind moves_disconnect.attempt
      (fun _ => Moves.bind (relates_modify (fun s => ?_)) (fun _ => moves_reportChange _)))
  exact ((Move.close s).moves.then (Move.account _ (some uid) completed
    (s.sessionEpoch + 1))).then (Move.enter _ .new (fun h => nomatch h))

theorem moves_onSetCurrentUid (uid : String) :
    Relates (Moves reach) (onSetCurrentUid uid) := by
  unfold onSetCurrentUid
  refine moves_ask_bind (fun env => moves_get_bind (fun s =>
    Relates.ite (moves_pure _) (Relates.ite (moves_fail _) ?_)))
  exact Moves.bind (moves_ofExcept _) (fun completed =>
    relates_modify (fun s => (Move.account s _ _ s.sessionEpoch).moves))

theorem moves_onShutdown : Relates (Moves reach) onShutdown := by
  unfold onShutdown
  refine Moves.bind (relates_modify (fun s => ?_)) (fun _ => moves_get_bind (fun s => ?_))
  · exact Moves.then (Moves.then (Moves.trans _ _ _ s.moves_resetReconnectBackoff
      (ActorState.moves_stopInboundTask _)) (Move.unwanted _)) (Move.tell _ _ _)
  · exact Moves.bind (relates_modify (fun s =>
      (Move.enter s .shutdown (fun h => nomatch h)).moves)) (fun _ =>
      Moves.bind (moves_reportFrom _) (fun _ =>
        relates_modify (fun s => (Move.close s).moves.then (Move.tell _ _ _))))

/-- The arms that reach for no connection. -/
def Arm.quiet : Arm → Bool
  | .retry | .command .connect | .command (.authenticate _) => false
  | _ => true

theorem moves_of_quiet {a : Arm} (h : a.quiet = true) : Relates (Moves reach) a.run := by
  cases a with
  | retry => exact absurd h Bool.false_ne_true
  | healthTick => exact moves_onHealthTick
  | repairTick passed => exact moves_onRepairTick passed
  | syncRetry => exact moves_ensureSynced
  | command c =>
    cases c with
    | connect => exact absurd h Bool.false_ne_true
    | authenticate userId => exact absurd h Bool.false_ne_true
    | disconnect => exact moves_finish moves_onDisconnect
    | ping => exact moves_finish moves_onPing
    | setNetworkHint hint =>
        exact moves_finish (relates_modify (fun s => s.moves_setNetworkHint hint))
    | inboundFrame epoch =>
        exact moves_get_bind (fun s => Relates.ite (moves_finish moves_background) (moves_pure _))
    | inboundDisconnected epoch =>
        exact moves_get_bind (fun s =>
          Relates.ite (moves_finish moves_onInboundDisconnected) (moves_pure _))
    | login => exact moves_finish (moves_onLogin _ _)
    | register => exact moves_finish (moves_onLogin _ _)
    | clearLocalState => exact moves_finish (moves_withdraw _)
    | wipeCurrentUserFull => exact moves_finish (moves_withdraw _)
    | switchLocalAccount uid => exact moves_finish (moves_onSwitchLocalAccount uid)
    | setCurrentUid uid => exact moves_finish (moves_onSetCurrentUid uid)
    | request => exact moves_finish moves_background
    | shutdown => exact moves_onShutdown

end Quiet

section Reaching

theorem moves_connect (call : Nat) : Relates (Moves true) (connect call) := by
  unfold connect
  refine moves_ask_bind (fun env => moves_get_bind (fun s => Relates.ite (moves_pure _) ?_))
  refine Moves.bind (relates_modify (fun s => ?_)) (fun _ => Moves.bind (moves_ofExcept _)
    (fun _ => relates_modify (fun s => (Move.adopt s).moves)))
  exact ((Move.close s).moves.then (Move.dial _ rfl)).then (Move.elapse _ _)

theorem moves_connectWithin (call : Nat) (message : String) :
    Relates (Moves true) (connectWithin call message) := by
  unfold connectWithin
  refine moves_ask_bind (fun env => moves_get_bind (fun s =>
    Relates.ite ?_ (moves_connect call)))
  refine Moves.bind (relates_modify (fun s => ?_)) (fun _ => moves_fail _)
  exact ((Move.close s).moves.then (Move.dial _ rfl)).then (Move.elapse _ _)

theorem moves_authenticate (userId call : Nat) :
    Relates (Moves true) (authenticate userId call) := by
  unfold authenticate
  refine moves_ask_bind (fun env => Moves.bind
    (moves_requestBytes (fun s => (Move.auth s userId rfl).moves) _ _ _) (fun _ => ?_))
  refine Moves.bind (moves_ofExcept _) (fun resp => Relates.ite ?_ (moves_fail _))
  refine Moves.bind (relates_modify (fun s => s.moves_resetIfOwnerChanged _)) (fun _ => ?_)
  refine Moves.bind (relates_modify (fun s =>
    (Move.account s s.currentUid _ s.sessionEpoch).moves)) (fun _ => ?_)
  exact Moves.bind (moves_ofExcept _) (fun _ =>
    relates_modify (fun s => (Move.account s _ s.bootstrapCompleted _).moves))

theorem moves_dismantleAuthTransport {reach : Bool} :
    Relates (Moves reach) dismantleAuthTransport :=
  relates_modify (fun s =>
    Moves.trans _ _ _ s.moves_stopInboundTask (ActorState.moves_hangUp _))

theorem moves_driverReconnect (call : Nat) : Relates (Moves true) (driverReconnect call) := by
  unfold driverReconnect
  refine Moves.bind moves_dismantleAuthTransport (fun _ =>
    Moves.bind (moves_connectWithin _ _) (fun _ => relates_modify (fun s => ?_)))
  exact Moves.trans _ _ _ (Move.enter s .connected (fun _ => rfl)).moves (ActorState.moves_emitTransition _ _)

theorem moves_driverAuthenticate (userId call : Nat) :
    Relates (Moves true) (driverAuthenticate userId call) := by
  unfold driverAuthenticate
  exact moves_get_bind (fun s => Moves.bind (moves_ofExcept _) (fun next =>
    Moves.bind (moves_authenticate _ _) (fun _ =>
      relates_modify (fun s => (Move.enter s next (fun _ => rfl)).moves))))

theorem moves_authenticateWithRetry (userId : Nat) (needReconnect : Bool) :
    Relates (Moves true) (authenticateWithRetry userId needReconnect) := by
  unfold authenticateWithRetry executeAuthenticateWithRetry
  refine Moves.bind (Moves.runIf _ (moves_driverReconnect _)) (fun _ =>
    Moves.bind (moves_driverAuthenticate _ _).attempt (fun first => ?_))
  split
  · exact moves_pure _
  · exact Moves.bind (moves_driverReconnect _) (fun _ => moves_driverAuthenticate _ _)
  · exact moves_fail _

theorem moves_tryAutoReconnect : Relates (Moves true) tryAutoReconnect := by
  unfold tryAutoReconnect
  refine Moves.bind (moves_connectWithin _ _) (fun _ => Moves.bind
    (relates_modify (fun s => (Move.enter s .connected (fun _ => rfl)).moves)) (fun _ => ?_))
  refine moves_get_bind (fun s => moves_ask_bind (fun env => ?_))
  split
  · refine Moves.bind (moves_authenticateWithRetry _ _).attempt (fun result => ?_)
    split
    · exact Moves.bind (relates_modify (fun s =>
        (Move.account s s.currentUid _ s.sessionEpoch).moves)) (fun _ => moves_pure _)
    · exact Moves.bind moves_dismantleAuthTransport (fun _ => moves_fail _)
  · exact moves_pure _

theorem moves_triggerForcedLogout (e : Error) (source : ForcedLogoutSource) {reach : Bool} :
    Relates (Moves reach) (triggerForcedLogout e source) := by
  unfold triggerForcedLogout
  refine moves_get_bind (fun s => Relates.ite (moves_pure _) ?_)
  refine Moves.bind (relates_modify (fun s => ?_)) (fun _ =>
    Moves.bind moves_disconnect.attempt (fun _ => relates_modify (fun s => ?_)))
  · exact (s.moves_stopInboundTask.then (Move.verdict _ true s.lastTerminalReason)).then
      (Move.listen _ (s.inboundEpoch + 1) none)
  · exact (((((s.moves_resetReconnectBackoff).then (Move.enter _ .terminated (fun h => nomatch h))).then
      (Move.unwanted _)).then (Move.verdict _ s.authTerminalFired _))).then (Move.tell _ _ _)

theorem moves_listen {reach : Bool} : Relates (Moves reach) listen := by
  unfold listen
  exact moves_ask_bind (fun env => Moves.bind
    (relates_modify ActorState.moves_startInboundTask) (fun _ => moves_work _))

theorem moves_resume {reach : Bool} : Relates (Moves reach) resume := by
  unfold resume
  exact moves_get_bind (fun s => Relates.ite moves_ensureSynced (moves_pure _))

theorem moves_offerTransport : Relates (Moves true) offerTransport := by
  unfold offerTransport
  refine moves_get_bind (fun s => Moves.bind (moves_connectWithin _ _).attempt (fun again => ?_))
  split
  · exact Moves.bind (relates_modify (fun s => (Move.enter s _ (fun _ => rfl)).moves))
      (fun _ => moves_reportFrom _)
  · exact moves_pure _

theorem moves_handOverToHost (e : Error) : Relates (Moves true) (handOverToHost e) :=
  Moves.bind moves_offerTransport (fun _ => relates_modify (fun s =>
    (Move.arm s _ 60000 (by omega)).moves.then (Move.tell _ _ _)))

theorem moves_onRetry : Relates (Moves true) onRetry := by
  unfold onRetry
  refine moves_get_bind (fun s => Relates.ite ?_
    (relates_modify (fun s => (Move.disarm s s.reconnectAttempt).moves)))
  refine Moves.bind moves_tryAutoReconnect.attempt (fun result => ?_)
  split
  · refine Moves.bind (relates_modify (fun s => ?_)) (fun _ => Moves.bind moves_listen
      (fun _ => Moves.bind moves_resume (fun _ => moves_reportFrom _)))
    exact (((s.moves_resetReconnectBackoff).then (Move.enter _ _ (fun _ => rfl))).then
      (Move.verdict _ false s.lastTerminalReason)).then (Move.hint _ _)
  · refine Relates.ite (moves_triggerForcedLogout _ _)
      (Relates.ite (moves_handOverToHost _) (moves_ask_bind (fun env => ?_)))
    exact relates_modify (fun s => s.moves_scheduleNextReconnect env.jitter)

theorem moves_followPlan (plan : Except Error ConnectPlan) :
    Relates (Moves true) (followPlan plan) := by
  unfold followPlan
  split
  · exact moves_fail _
  · exact moves_pure _
  · exact Moves.bind moves_tryAutoReconnect (fun next =>
      relates_modify (fun s => (Move.enter s next (fun _ => rfl)).moves))
  · exact moves_get_bind (fun s => Moves.bind (moves_ofExcept _) (fun next =>
      Moves.bind (moves_connectWithin _ _) (fun _ =>
        relates_modify (fun s => (Move.enter s next (fun _ => rfl)).moves))))

theorem moves_connected (before : ConnectionState) (fresh hadLocalSession : Bool) :
    Relates (Moves true) (connected before fresh hadLocalSession) := by
  unfold connected
  refine Moves.bind (relates_modify (fun s => ?_)) (fun _ =>
    Moves.bind (Moves.runIf _ moves_listen) (fun _ =>
      Moves.bind (moves_reportChange _) (fun _ => Moves.runIf _ moves_resume)))
  exact ((s.moves_resetReconnectBackoff).then (Move.verdict _ false none)).then (Move.hint _ _)

theorem moves_onConnect : Relates (Moves true) onConnect := by
  unfold onConnect
  refine moves_ask_bind (fun env => Moves.bind
    (relates_modify (fun s => (Move.wanted s rfl).moves)) (fun _ => moves_get_bind (fun s => ?_)))
  refine Moves.bind (Moves.runIf _ (relates_modify (fun s => ?_))) (fun _ =>
    moves_get_bind (fun t => Moves.bind (moves_followPlan _).attempt (fun result => ?_)))
  · split
    · exact Moves.trans _ _ _ s.moves_stopInboundTask (ActorState.moves_hangUp _)
    · exact Moves.refl s
  · split
    · exact moves_connected _ _ _
    · exact Moves.bind (relates_modify (fun s => s.moves_scheduleNextReconnect env.jitter))
        (fun _ => moves_fail _)

theorem moves_onAuthenticate (userId : Nat) (plan : AuthenticateTransportPlan) :
    Relates (Moves true) (onAuthenticate userId plan) := by
  unfold onAuthenticate
  refine moves_get_bind (fun s => Moves.bind (moves_authenticateWithRetry _ _).attempt
    (fun result => ?_))
  split
  · refine Moves.bind (relates_modify (fun s => ?_)) (fun _ => Moves.bind moves_listen
      (fun _ => Moves.bind moves_resume (fun _ => moves_reportFrom _)))
    exact (Move.verdict s false s.lastTerminalReason).moves.then (Move.wanted _ rfl)
  · exact Moves.bind (Moves.runIf _ (moves_triggerForcedLogout _ _)) (fun _ => moves_fail _)

theorem moves_arm (a : Arm) : Relates (Moves true) a.run := by
  by_cases hquiet : a.quiet = true
  · exact moves_of_quiet hquiet
  · cases a with
    | retry => exact moves_onRetry
    | command c =>
      cases c with
      | connect => exact moves_finish moves_onConnect
      | authenticate userId =>
          exact moves_ask_bind (fun env => moves_get_bind (fun s =>
            Moves.bind (moves_ofExcept _) (fun plan =>
              moves_finish (moves_onAuthenticate userId plan))))
      | _ => exact absurd rfl hquiet
    | _ => exact absurd rfl hquiet

/-- Every turn is made of moves. -/
theorem moves_step (s : ActorState) (t : Turn) : Moves true s (step s t) :=
  Moves.trans _ _ _ (Move.elapse s t.idle).moves (moves_arm t.arm t.env (s.elapse t.idle))

theorem moves_quiet_step (s : ActorState) {t : Turn} (h : t.arm.quiet = true) :
    Moves false s (step s t) :=
  Moves.trans _ _ _ (Move.elapse s t.idle).moves
    (moves_of_quiet h t.env (s.elapse t.idle))

end Reaching

end Connection
end PrivchatSdk
