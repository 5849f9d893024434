import PrivchatSdk.ConnectionState
import PrivchatSdk.Lib.Run

/-!
# The loop of the actor

Each turn of the loop runs one arm to its end: the retry timer, the health tick,
the repair tick, the timer of a failed sync, or the next command.  Only the
commands and the health tick hand over the events that wait; the other arms
leave them.
-/

namespace PrivchatSdk
namespace Connection

open StatementExec Exec EventRun

section Arms

/-- The arm's own requests end, and what waits is emitted. -/
def flushPending : ConnM Unit :=
  modify ActorState.flushPending

/-- A command hands over the waiting events whether it succeeds or fails. -/
def finish (x : ConnM Unit) : ConnM Unit := do
  let result ← x.attempt
  flushPending
  ofExcept result

/-- The host is told of the state that the session is in now. -/
def reportFrom (before : ConnectionState) : ConnM Unit :=
  modify (fun s =>
    s.emit (.connectionStateChanged before s.sessionState.asConnectionState))

def reportChange (before : ConnectionState) : ConnM Unit :=
  modify (fun s =>
    s.emitTransition
      (if before = s.sessionState.asConnectionState then none
        else some (before, s.sessionState.asConnectionState)))

/-- The new transport is listened to, and what was missed is replayed on it. -/
def listen : ConnM Unit := do
  let env ← ask
  modify ActorState.startInboundTask
  work env.replay

/-- The sync that follows a reconnect. -/
def resume : ConnM Unit := do
  let s ← get
  if s.sessionState = .authenticated ∧ s.bootstrapCompleted then ensureSynced else pure ()

/-- Another transport for the authentication with the new token. -/
def offerTransport : ConnM Unit := do
  let s ← get
  let again ← (connectWithin 3 "reconnect timeout").attempt
  match again, s.sessionState.can .connect with
  | .ok _, .ok next => do
      modify (fun s => s.enter next)
      reportFrom s.sessionState.asConnectionState
  | _, _ => pure ()

/-- The host is asked for a new token, and the next round is in 60 seconds. -/
def handOverToHost (e : Error) : ConnM Unit := do
  offerTransport
  modify (fun s =>
    { s with
      reconnectAttempt := s.nextAttempt
      nextReconnectAt := some (s.clock + 60000) }.emit
      (.accessTokenRefreshNeeded (e.authErrorCode.getD 0) e.text))

/-- The arm of the retry timer. -/
def onRetry : ConnM Unit := do
  let s ← get
  if s.wantsOnline then
    let result ← tryAutoReconnect.attempt
    match result with
    | .ok next => do
        modify (fun s =>
          { s.resetReconnectBackoff with
            sessionState := next
            authTerminalFired := false
            networkHint := s.hintAfterSuccess })
        listen
        resume
        reportFrom s.sessionState.asConnectionState
    | .error e =>
        if e.isAuthTerminal then
          triggerForcedLogout e .connectAuth
        else if e.authKind = some .recoverable then
          handOverToHost e
        else do
          let env ← ask
          modify (fun s => s.scheduleNextReconnect env.jitter)
  else
    modify (fun s => { s with nextReconnectAt := none })

/-- A session that wants to be online while the timer is not set sets it again. -/
def ActorState.watchdog (s : ActorState) : ActorState :=
  if s.wantsOnline ∧ s.nextReconnectAt = none then s.markReconnectReadyNow else s

/-- `probe_connection`, and the transport is given up when it does not answer. -/
def probeTransport : ConnM Unit := do
  let env ← ask
  let s ← get
  if s.sessionState.isUp ∧ !(s.transport.isSome && env.alive) then
    modify (fun s => s.stopInboundTask.hangUp)
  else
    pure ()

def onHealthTick : ConnM Unit := do
  modify ActorState.watchdog
  probeTransport
  background
  flushPending

/-- The repair tick: its events are handed over only after a whole convergence pass. -/
def onRepairTick (passed : Bool) : ConnM Unit := do
  background
  if passed then flushPending else pure ()

end Arms

section Commands

/-- What `Connect` does about its plan. -/
def followPlan : Except Error ConnectPlan → ConnM Unit
  | .error e => fail e
  | .ok .alreadyReady => pure ()
  | .ok .restorePersistedSession => do
      let next ← tryAutoReconnect
      modify (fun s => s.enter next)
  | .ok .connectTransportOnly => do
      let s ← get
      let next ← ofExcept (s.sessionState.can .connect)
      connectWithin 0 "connect timeout"
      modify (fun s => s.enter next)

/-- `Connect` succeeded; `fresh` unless it had nothing to do. -/
def connected (before : ConnectionState) (fresh hadLocalSession : Bool) : ConnM Unit := do
  modify (fun s =>
    { s.resetReconnectBackoff with
      networkHint := s.hintAfterSuccess
      authTerminalFired := false
      lastTerminalReason := none })
  runIf fresh listen
  reportChange before
  runIf hadLocalSession resume

def onConnect : ConnM Unit := do
  let env ← ask
  modify (fun s => { s with shouldAutoReconnect := true })
  let s ← get
  let alive := s.transport.isSome && env.alive
  let plan := planConnect s.sessionState s.currentUid.isSome alive
  runIf (!alive) (modify (fun s => if s.sessionState.isUp then s.stopInboundTask.hangUp else s))
  let t ← get
  let result ← (followPlan plan).attempt
  match result with
  | .ok _ =>
      connected t.sessionState.asConnectionState
        (decide (plan.toOption ≠ some .alreadyReady)) s.currentUid.isSome
  | .error e => do
      modify (fun s => s.scheduleNextReconnect env.jitter)
      fail e

def onDisconnect : ConnM Unit := do
  modify (fun s =>
    { s.resetReconnectBackoff.stopInboundTask with shouldAutoReconnect := false })
  let s ← get
  disconnect
  if s.sessionState = .shutdown then pure () else do
    modify (fun s => s.enter .new)
    reportFrom s.sessionState.asConnectionState

def onPing : ConnM Unit := do
  let env ← ask
  let s ← get
  if s.transport.isSome && env.alive then
    pure ()
  else do
    modify (fun s => s.stopInboundTask.loseTransport)
    fail (.transport networkDisconnectedMessage)

def ActorState.setNetworkHint (s : ActorState) (hint : NetworkHint) : ActorState :=
  let t := if s.networkHint = hint then s else
    { s with networkHint := hint }.emit (.networkHintChanged s.networkHint hint)
  if hint = .offline then
    t.stopInboundTask.hangUp
  else if s.networkHint = .offline ∧ s.shouldAutoReconnect then
    t.markReconnectReadyNow
  else
    t

def onInboundDisconnected : ConnM Unit :=
  modify (fun s => s.stopInboundTask.hangUp)

/-- `login` and `register` with the limit of 20 seconds around them. -/
def loginWithin (context message : String) : ConnM Unit := do
  let env ← ask
  requestBytes (.rpc context) context env.login.reply env.login.took
  if env.login.cut = .beforeUser then
    fail (.transport message)
  else do
    let uid ← ofExcept env.login.answer
    ofExcept (env.login.saved.mapError Error.storage)
    modify (fun s =>
      { s with currentUid := some (toString uid), sessionEpoch := s.sessionEpoch + 1 })
    work env.replay
    if env.login.cut = .inReplay then fail (.transport message) else pure ()

def onLogin (context message : String) : ConnM Unit := do
  let s ← get
  let next ← ofExcept (s.sessionState.can .login)
  loginWithin context message
  modify (fun s => s.enter next)
  reportFrom s.sessionState.asConnectionState

def onAuthenticate (userId : Nat) (plan : AuthenticateTransportPlan) : ConnM Unit := do
  let s ← get
  let result ←
    (authenticateWithRetry userId (decide (plan = .reconnectTransport))).attempt
  match result with
  | .ok _ => do
      modify (fun s => { s with authTerminalFired := false, shouldAutoReconnect := true })
      listen
      resume
      reportFrom s.sessionState.asConnectionState
  | .error e => do
      runIf e.isAuthTerminal (triggerForcedLogout e .manual)
      fail e

/-- The current user is taken off the session, whatever the disk says. -/
def forgetUser : ConnM Unit := do
  let env ← ask
  let s ← get
  if s.currentUid.isSome then
    modify (fun s => { s with currentUid := none, sessionEpoch := s.sessionEpoch + 1 })
    ofExcept (env.clear.mapError Error.storage)
    ofExcept (env.clearUid.mapError Error.storage)
  else
    pure ()

/-- `ClearLocalState`, and `WipeCurrentUserFull` without the event it pushes. -/
def withdraw (pushed : List SdkEvent) : ConnM Unit := do
  let s ← get
  modify (fun s =>
    { s.resetReconnectBackoff with
      shouldAutoReconnect := false
      bootstrapCompleted := false
      pendingEvents := s.pendingEvents ++ pushed
      sessionState := .connected })
  forgetUser
  reportFrom s.sessionState.asConnectionState

def onSwitchLocalAccount (uid : String) : ConnM Unit := do
  let env ← ask
  let s ← get
  let bootstrapCompleted ← ofExcept env.chosen
  modify (fun s => s.resetSessionScopedState.stopInboundTask)
  let _ ← disconnect.attempt
  modify (fun s =>
    { s with
      transport := none
      currentUid := some uid
      sessionEpoch := s.sessionEpoch + 1
      bootstrapCompleted := bootstrapCompleted
      sessionState := .new })
  reportChange s.sessionState.asConnectionState

def onSetCurrentUid (uid : String) : ConnM Unit := do
  let env ← ask
  let s ← get
  if s.currentUid = some uid then
    pure ()
  else if s.sessionState.isUp then
    fail (.invalidState "set_current_uid on an active session; use switch_local_account")
  else do
    let bootstrapCompleted ← ofExcept env.chosen
    modify (fun s =>
      { s with currentUid := some uid, bootstrapCompleted := bootstrapCompleted })

def onShutdown : ConnM Unit := do
  modify (fun s =>
    { s.resetReconnectBackoff.stopInboundTask with shouldAutoReconnect := false }.emit
      .shutdownStarted)
  let s ← get
  modify (fun s => s.enter .shutdown)
  reportFrom s.sessionState.asConnectionState
  modify (fun s => { s with transport := none }.emit .shutdownCompleted)

/-- The commands that the connection is about; `request` stands for the others. -/
inductive Command where
  | connect
  | disconnect
  | ping
  | setNetworkHint (hint : NetworkHint)
  | inboundFrame (epoch : Nat)
  | inboundDisconnected (epoch : Nat)
  | login
  | register
  | authenticate (userId : Nat)
  | clearLocalState
  | wipeCurrentUserFull
  | switchLocalAccount (uid : String)
  | setCurrentUid (uid : String)
  | request
  | shutdown
  deriving DecidableEq, Repr

/-- What a command answers; frames of an older epoch and refused authentications
leave the loop's turn at once. -/
def Command.run : Command → ConnM Unit
  | .connect => finish onConnect
  | .disconnect => finish onDisconnect
  | .ping => finish onPing
  | .setNetworkHint hint => finish (modify (fun s => s.setNetworkHint hint))
  | .inboundFrame epoch => do
      let s ← get
      if epoch = s.inboundEpoch then finish background else pure ()
  | .inboundDisconnected epoch => do
      let s ← get
      if epoch = s.inboundEpoch then finish onInboundDisconnected else pure ()
  | .login => finish (onLogin "rpc login" "login timeout")
  | .register => finish (onLogin "rpc register" "register timeout")
  | .authenticate userId => do
      let env ← ask
      let s ← get
      let plan ← ofExcept
        (planAuthenticateTransport s.sessionState (s.transport.isSome && env.alive))
      finish (onAuthenticate userId plan)
  | .clearLocalState => finish (withdraw [.syncStateChanged])
  | .wipeCurrentUserFull => finish (withdraw [])
  | .switchLocalAccount uid => finish (onSwitchLocalAccount uid)
  | .setCurrentUid uid => finish (onSetCurrentUid uid)
  | .request => finish background
  | .shutdown => onShutdown

end Commands

section Loop

inductive Arm where
  | retry
  | healthTick
  | repairTick (passed : Bool)
  | syncRetry
  | command (c : Command)
  deriving DecidableEq, Repr

def Arm.run : Arm → ConnM Unit
  | .retry => onRetry
  | .healthTick => onHealthTick
  | .repairTick passed => onRepairTick passed
  | .syncRetry => ensureSynced
  | .command c => c.run

/-- One turn of the loop: it waits, and then one arm runs. -/
structure Turn where
  idle : Nat
  arm : Arm
  env : Env

def Turn.run (t : Turn) (s : ActorState) : Except Error Unit × ActorState :=
  t.arm.run t.env (s.elapse t.idle)

def step (s : ActorState) (t : Turn) : ActorState :=
  (t.run s).2

/-- The loop has not ended, and the retry timer fires only when it is due. -/
def Possible (s : ActorState) (t : Turn) : Prop :=
  s.sessionState ≠ .shutdown ∧
    (t.arm = .retry → ∃ at', s.retryDeadline = some at' ∧ at' ≤ s.clock + t.idle)

/-- The states that the loop can be in. -/
def Reachable (s : ActorState) : Prop :=
  ∃ uid completed turns,
    Guarded step Possible (ActorState.boot uid completed) turns ∧
      s = run step (ActorState.boot uid completed) turns

end Loop

end Connection
end PrivchatSdk
