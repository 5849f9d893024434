import Mathlib.Order.MinMax
import PrivchatSdk.Lib.Exec
import PrivchatSdk.MessageContent

/-!
# The connection of a session

The actor owns one transport at a time, a logical session state, the retry timer
and the task that listens to the transport.  This module has the state, the
errors that the connection code tells apart, and what the actor does with them
in one go: losing the transport, arming the timer, dialling, one authentication
with its retry, the automatic reconnect, the forced logout.

What the servers, the disk, the clock and the dice do while one arm of the loop
runs is its `Env`.
-/

namespace PrivchatSdk
namespace Connection

open StatementExec Exec

section Types

/-- What the host is told. -/
inductive ConnectionState where
  | new | connected | loggedIn | authenticated | terminated | shutdown
  deriving DecidableEq, Repr

inductive SessionState where
  | new | connected | loggedIn | authenticated
  /-- Where a forced logout leaves the session. -/
  | terminated
  | shutdown
  deriving DecidableEq, Repr

inductive Action where
  | connect | login | authenticate | shutdown
  deriving DecidableEq, Repr

inductive AuthErrorKind where
  | transient | recoverable | terminal
  deriving DecidableEq, Repr

/-- The errors that a connection can end with. -/
inductive Error where
  | transport (message : String)
  | serialization (message : String)
  | storage (message : String)
  | auth (message : String)
  | requestUnanswered (context : String)
  | invalidState (message : String)
  | shutdown
  deriving DecidableEq, Repr

inductive NetworkHint where
  | unknown | offline | wifi | cellular | ethernet
  deriving DecidableEq, Repr

def NetworkHint.isOnline (hint : NetworkHint) : Bool :=
  hint != .offline

inductive ForcedLogoutSource where
  | connectAuth | rpcAuth | manual
  deriving DecidableEq, Repr

structure TerminalReason where
  code : Nat
  message : String
  source : ForcedLogoutSource
  atMs : Nat
  deriving DecidableEq, Repr

inductive SdkEvent where
  | connectionStateChanged (before after : ConnectionState)
  | networkHintChanged (before after : NetworkHint)
  | forcedLogout (code : Nat) (message : String) (source : ForcedLogoutSource)
  | accessTokenRefreshNeeded (code : Nat) (message : String)
  | syncStateChanged
  | shutdownStarted
  | shutdownCompleted
  deriving DecidableEq, Repr

def networkDisconnectedMessage : String :=
  "网络已断开，请检查网络连接后再试。"

def SessionState.asConnectionState : SessionState → ConnectionState
  | .new => .new
  | .connected => .connected
  | .loggedIn => .loggedIn
  | .authenticated => .authenticated
  | .terminated => .terminated
  | .shutdown => .shutdown

def SessionState.can : SessionState → Action → Except Error SessionState
  | .shutdown, _ => .error .shutdown
  | _, .connect => .ok .connected
  | .new, .login => .error (.invalidState "login requires connect first")
  | .terminated, .login =>
      .error (.invalidState "login requires connect after forced logout")
  | _, .login => .ok .loggedIn
  | .new, .authenticate =>
      .error (.invalidState "authenticate requires connect and login first")
  | _, .authenticate => .ok .authenticated
  | _, .shutdown => .ok .shutdown

/-- `Connected`, `LoggedIn` or `Authenticated`. -/
def SessionState.isUp : SessionState → Bool
  | .connected | .loggedIn | .authenticated => true
  | .new | .terminated | .shutdown => false

def classifyAuthErrorCode (code : Nat) : AuthErrorKind :=
  if code = 10000 ∨ code = 10002 then
    .recoverable
  else if code ∈ [10001, 10003, 10004, 10005, 10006, 10007, 10008, 10009, 10010] then
    .terminal
  else
    .transient

/-- `str::parse::<u32>`. -/
def parseU32 (text : List Char) : Option Nat :=
  let digits := match text with
    | '+' :: rest => rest
    | rest => rest
  (parseDigits digits).filter (fun n => decide (n < 2 ^ 32))

/-- The number between the brackets that an auth error starts with. -/
def parseAuthErrorCode (message : String) : Option Nat :=
  match message.toList with
  | '[' :: rest =>
      if ']' ∈ rest then
        parseU32 (rest.takeWhile (fun c => c != ']'))
      else
        none
  | _ => none

def Error.authErrorCode : Error → Option Nat
  | .auth message => parseAuthErrorCode message
  | _ => none

def Error.authKind : Error → Option AuthErrorKind
  | .auth message =>
      some (((parseAuthErrorCode message).map classifyAuthErrorCode).getD .transient)
  | _ => none

def Error.isAuthTerminal (e : Error) : Bool :=
  e.authKind == some .terminal

/-- `Display`. -/
def Error.text : Error → String
  | .transport message => "transport error: " ++ message
  | .serialization message => "serialization error: " ++ message
  | .storage message => "storage error: " ++ message
  | .auth message => "auth failed: " ++ message
  | .requestUnanswered context => "no response for " ++ context
  | .invalidState message => "invalid state: " ++ message
  | .shutdown => "sdk shutdown"

inductive ConnectPlan where
  | alreadyReady | restorePersistedSession | connectTransportOnly
  deriving DecidableEq, Repr

def planConnect (sessionState : SessionState) (hasLocalSession transportConnected : Bool) :
    Except Error ConnectPlan :=
  if sessionState = .shutdown then
    .error .shutdown
  else if sessionState = .authenticated ∧ transportConnected then
    .ok .alreadyReady
  else if hasLocalSession then
    .ok .restorePersistedSession
  else
    .ok .connectTransportOnly

inductive AuthenticateTransportPlan where
  | useCurrent | reconnectTransport
  deriving DecidableEq, Repr

def planAuthenticateTransport (sessionState : SessionState) (transportConnected : Bool) :
    Except Error AuthenticateTransportPlan :=
  if sessionState = .shutdown then
    .error .shutdown
  else if transportConnected then
    (sessionState.can .authenticate).map (fun _ => .useCurrent)
  else
    .ok .reconnectTransport

end Types

section Surroundings

/-- What becomes of a request on the transport. -/
inductive TransportReply where
  | answered
  /-- `TransportError::Connection`. -/
  | connection
  /-- `TransportError::Timeout`. -/
  | timeout
  | other (message : String)
  deriving DecidableEq, Repr

structure Request where
  context : String
  reply : TransportReply
  took : Nat
  deriving DecidableEq, Repr

/--
What one call of `connect` meets: whether the transport that is there still
answers, and what each endpoint says.  When the call is cut off, no endpoint has
answered in time; a cut-off between the two writes that follow an answer, of the
transport and of the slot of its events, is left out.
-/
structure Dial where
  alive : Bool
  endpoints : List (Except String Unit)
  outOfTime : Bool
  took : Nat

structure AuthorizationResponse where
  success : Bool
  errorCode : Option Nat
  errorMessage : Option String
  deriving DecidableEq, Repr

/--
What one authentication meets: the reply, what it decodes to, the session and the
bootstrap mark that the disk has of the user, and how the writes end.
-/
structure AuthRound where
  reply : TransportReply
  took : Nat
  response : Except String AuthorizationResponse
  existing : Option Bool
  bootstrapMark : Bool
  saved : Except String Unit

structure Snapshot where
  userId : Nat
  bootstrapCompleted : Bool
  deriving DecidableEq, Repr

/-- When the 20 seconds of a login run out. -/
inductive LoginCut where
  | never | beforeUser | inReplay
  deriving DecidableEq, Repr

structure LoginRun where
  reply : TransportReply
  took : Nat
  /-- What the server says, and who it says it is. -/
  answer : Except Error Nat
  saved : Except String Unit
  cut : LoginCut

/-- The delay that is drawn for a base of so many seconds, in milliseconds. -/
structure Jitter where
  delay : Nat → Nat
  bounds : ∀ base, 700 * base ≤ delay base ∧ delay base ≤ 1300 * base

/-- What the surroundings do while one arm of the loop runs. -/
structure Env where
  /-- What the transport that is there says when it is asked first. -/
  alive : Bool
  dial : Nat → Dial
  session : Except String (Option Snapshot)
  round : Nat → AuthRound
  login : LoginRun
  closing : Except String Unit
  jitter : Jitter
  /-- The frames and subscriptions that are replayed on a new transport. -/
  replay : List Request
  /-- The requests of the work that the arm does besides. -/
  requests : List Request
  /-- What this work makes of the bootstrap mark. -/
  bootstrap : Option Bool
  clear : Except String Unit
  clearUid : Except String Unit
  /-- How the disk takes a new current user, and the bootstrap mark it has of it. -/
  chosen : Except Error Bool

/-- What the SDK sends to a server. -/
inductive NetworkCall where
  | dial
  | auth (userId : Nat)
  | rpc (context : String)
  deriving DecidableEq, Repr

/-- The task that listens to a transport: the epoch it stamps, and the transport. -/
structure InboundTask where
  epoch : Nat
  events : Option Nat
  deriving DecidableEq, Repr

end Surroundings

section State

/-- Transports are counted; the actor's clock is in milliseconds. -/
structure ActorState where
  transport : Option Nat
  /-- The transport whose events are in the slot. -/
  transportEvents : Option Nat
  transports : Nat
  sessionState : SessionState
  currentUid : Option String
  bootstrapCompleted : Bool
  sessionEpoch : Nat
  shouldAutoReconnect : Bool
  reconnectAttempt : Nat
  nextReconnectAt : Option Nat
  authTerminalFired : Bool
  lastTerminalReason : Option TerminalReason
  networkHint : NetworkHint
  inboundEpoch : Nat
  inboundTask : Option InboundTask
  pendingEvents : List SdkEvent
  emitted : List SdkEvent
  network : List NetworkCall
  clock : Nat
  deriving DecidableEq, Repr

/-- The actor starts with the user that the disk names. -/
def ActorState.boot (currentUid : Option String) (bootstrapCompleted : Bool) :
    ActorState where
  transport := none
  transportEvents := none
  transports := 0
  sessionState := .new
  currentUid := currentUid
  bootstrapCompleted := bootstrapCompleted
  sessionEpoch := 0
  shouldAutoReconnect := false
  reconnectAttempt := 0
  nextReconnectAt := none
  authTerminalFired := false
  lastTerminalReason := none
  networkHint := .unknown
  inboundEpoch := 0
  inboundTask := none
  pendingEvents := []
  emitted := []
  network := []
  clock := 0

namespace ActorState

variable (s : ActorState)

def enter (next : SessionState) : ActorState :=
  { s with sessionState := next }

def elapse (took : Nat) : ActorState :=
  { s with clock := s.clock + took }

def send (call : NetworkCall) : ActorState :=
  { s with network := s.network ++ [call] }

/-- `emit_sequenced_event`. -/
def emit (event : SdkEvent) : ActorState :=
  { s with emitted := s.emitted ++ [event] }

def emitTransition : Option (ConnectionState × ConnectionState) → ActorState
  | some (before, after) => s.emit (.connectionStateChanged before after)
  | none => s

def pushConnectionTransitionEvent :
    Option (ConnectionState × ConnectionState) → ActorState
  | some (before, after) =>
      { s with pendingEvents := s.pendingEvents ++ [.connectionStateChanged before after] }
  | none => s

/-- `take_pending_events`, and each of them is emitted. -/
def flushPending : ActorState :=
  { s with emitted := s.emitted ++ s.pendingEvents, pendingEvents := [] }

def stopInboundTask : ActorState :=
  { s with inboundTask := none }

def startInboundTask : ActorState :=
  { s with
    inboundEpoch := s.inboundEpoch + 1
    inboundTask := s.transport.map
      (fun _ => { epoch := s.inboundEpoch + 1, events := s.transportEvents }) }

/-- The transition, if there is one, and the state after it. -/
def applyTransportHealth (isConnected : Bool) :
    Option (ConnectionState × ConnectionState) × ActorState :=
  if isConnected then
    (none, s)
  else if s.sessionState.isUp then
    (some (s.sessionState.asConnectionState, .new),
      { s with
        sessionState := .new
        transport := none
        reconnectAttempt := if s.shouldAutoReconnect then 0 else s.reconnectAttempt
        nextReconnectAt :=
          if s.shouldAutoReconnect then some s.clock else s.nextReconnectAt })
  else
    (none, s)

/-- The transport is found lost, and the host is told at once. -/
def hangUp : ActorState :=
  (s.applyTransportHealth false).2.emitTransition (s.applyTransportHealth false).1

/-- The transport is found lost by a request, and the event waits. -/
def loseTransport : ActorState :=
  (s.applyTransportHealth false).2.pushConnectionTransitionEvent
    (s.applyTransportHealth false).1

def resetReconnectBackoff : ActorState :=
  { s with reconnectAttempt := 0, nextReconnectAt := none }

/-- The attempt counter is a `u32` that stays at its largest value. -/
def nextAttempt : Nat :=
  min (s.reconnectAttempt + 1) (2 ^ 32 - 1)

def backoffBaseSecs : Nat :=
  match s.reconnectAttempt with
  | 0 => 1
  | 1 => 2
  | 2 => 4
  | 3 => 8
  | 4 => 16
  | _ => 30

def scheduleNextReconnect (jitter : Jitter) : ActorState :=
  let delay := jitter.delay s.backoffBaseSecs
  { s with
    reconnectAttempt := s.nextAttempt
    nextReconnectAt :=
      some (s.clock + if s.networkHint.isOnline then delay else max delay 60000) }

def markReconnectReadyNow : ActorState :=
  { s with reconnectAttempt := 0, nextReconnectAt := some s.clock }

/-- What it clears of the connection; what it clears besides is in `Memory`. -/
def resetSessionScopedState : ActorState :=
  { s.resetReconnectBackoff with
    shouldAutoReconnect := false
    authTerminalFired := false
    lastTerminalReason := none
    inboundEpoch := s.inboundEpoch + 1
    pendingEvents := [] }

def ownerChanged (uid : String) : Bool :=
  s.currentUid.any (fun current => current != uid)

def resetIfOwnerChanged (uid : String) : ActorState :=
  if s.ownerChanged uid then s.resetSessionScopedState else s

/-- `Connected` with a local account: the session waits for a new token. -/
def awaitingReauth : Bool :=
  s.sessionState == .connected && s.currentUid.isSome

/-- The driver wants a connection that is authenticated, and has none. -/
def wantsOnline : Bool :=
  s.shouldAutoReconnect && (s.sessionState == .new || s.awaitingReauth)

/-- When the retry arm of the loop fires. -/
def retryDeadline : Option Nat :=
  if s.wantsOnline then s.nextReconnectAt else none

/-- A session that can be reached is online, whatever the system said. -/
def hintAfterSuccess : NetworkHint :=
  if s.networkHint.isOnline then s.networkHint else .unknown

end ActorState

end State

section Statements

variable {α : Type}

abbrev ConnM (α : Type) : Type :=
  Exec Env ActorState Error α

def get : ConnM ActorState :=
  fun _ s => (.ok s, s)

def ask : ConnM Env :=
  fun env s => (.ok env, s)

def modify (f : ActorState → ActorState) : ConnM Unit :=
  fun _ s => (.ok (), f s)

def ofExcept (x : Except Error α) : ConnM α :=
  fun _ s => (x, s)

def runIf (c : Bool) (x : ConnM Unit) : ConnM Unit :=
  if c then x else pure ()

section Rules

variable {env : Env} {s : ActorState}

@[simp] theorem ensures_get (Q : ActorState → ActorState → Prop)
    (E : Error → ActorState → Prop) : Ensures get env s Q E ↔ Q s s := by
  rfl

@[simp] theorem ensures_ask (Q : Env → ActorState → Prop)
    (E : Error → ActorState → Prop) : Ensures ask env s Q E ↔ Q env s := by
  rfl

@[simp] theorem ensures_modify (f : ActorState → ActorState) (Q : Unit → ActorState → Prop)
    (E : Error → ActorState → Prop) : Ensures (modify f) env s Q E ↔ Q () (f s) := by
  rfl

theorem ensures_ofExcept (x : Except Error α) (Q : α → ActorState → Prop)
    (E : Error → ActorState → Prop) :
    Ensures (ofExcept x) env s Q E ↔ (∀ a, x = .ok a → Q a s) ∧ (∀ e, x = .error e → E e s) := by
  cases x with
  | ok a =>
      constructor
      · intro h
        refine ⟨?_, ?_⟩
        · rintro b ⟨⟩
          exact h
        · rintro e ⟨⟩
      · intro h
        exact h.1 a rfl
  | error e =>
      constructor
      · intro h
        refine ⟨?_, ?_⟩
        · rintro b ⟨⟩
        · rintro e' ⟨⟩
          exact h
      · intro h
        exact h.2 e rfl

variable {R : ActorState → ActorState → Prop}

theorem relates_get (hrefl : ∀ s, R s s) : Relates R get :=
  fun _ s => hrefl s

theorem relates_ask (hrefl : ∀ s, R s s) : Relates R ask :=
  fun _ s => hrefl s

theorem relates_modify {f : ActorState → ActorState} (h : ∀ s, R s (f s)) :
    Relates R (modify f) :=
  fun _ s => h s

theorem Relates.runIf (hrefl : ∀ s, R s s) (c : Bool) {x : ConnM Unit} (hx : Relates R x) :
    Relates R (runIf c x) :=
  hx.ite (relates_pure hrefl _)

theorem relates_ofExcept (hrefl : ∀ s, R s s) (x : Except Error α) :
    Relates R (ofExcept x) :=
  fun _ s => hrefl s

end Rules

end Statements

section Network

/-- The endpoints in their order; the last error is the one that is told. -/
def firstReached : Option String → List (Except String Unit) → Except Error Unit
  | last, [] => .error (.transport (last.getD "no endpoint"))
  | _, .ok _ :: _ => .ok ()
  | _, .error e :: rest => firstReached (some e) rest

/-- The look at the transport, which is dropped unless it answers; then the dialling. -/
def connect (call : Nat) : ConnM Unit := do
  let env ← ask
  let s ← get
  if s.transport.isSome && (env.dial call).alive then
    pure ()
  else
    modify (fun s => ({ s with transport := none }.send .dial).elapse (env.dial call).took)
    ofExcept (firstReached none (env.dial call).endpoints)
    modify (fun s =>
      { s with
        transport := some s.transports
        transportEvents := some s.transports
        transports := s.transports + 1 })

/-- `timeout(connect_timeout_total, connect())`. -/
def connectWithin (call : Nat) (message : String) : ConnM Unit := do
  let env ← ask
  let s ← get
  if (env.dial call).outOfTime && !(s.transport.isSome && (env.dial call).alive) then
    modify (fun s => ({ s with transport := none }.send .dial).elapse (env.dial call).took)
    fail (.transport message)
  else
    connect call

/-- `request_bytes`. -/
def requestBytes (call : NetworkCall) (context : String) (reply : TransportReply)
    (took : Nat) : ConnM Unit := do
  let s ← get
  if s.transport.isNone then
    modify ActorState.loseTransport
    fail (.transport networkDisconnectedMessage)
  else
    modify (fun s => (s.send call).elapse took)
    match reply with
    | .answered => pure ()
    | .connection =>
        modify ActorState.loseTransport
        fail (.transport networkDisconnectedMessage)
    | .timeout => fail (.requestUnanswered context)
    | .other message => fail (.transport (context ++ ": " ++ message))

/-- Requests whose failures nobody waits for. -/
def work : List Request → ConnM Unit
  | [] => pure ()
  | r :: rest => do
      let _ ← (requestBytes (.rpc r.context) r.context r.reply r.took).attempt
      work rest

/-- The requests of the arm's own work. -/
def background : ConnM Unit := do
  let env ← ask
  work env.requests
  modify (fun s =>
    { s with bootstrapCompleted := env.bootstrap.getD s.bootstrapCompleted })

def ensureSynced : ConnM Unit := do
  let s ← get
  if s.sessionState = .authenticated then background else pure ()

end Network

section Authentication

def AuthorizationResponse.refusal (resp : AuthorizationResponse) : Error :=
  .auth ("[" ++ toString (resp.errorCode.getD 0) ++ "] " ++
    resp.errorMessage.getD "authorization failed")

/-- `authenticate`: the request, and what the disk is told of its answer. -/
def authenticate (userId call : Nat) : ConnM Unit := do
  let env ← ask
  let round := env.round call
  requestBytes (.auth userId) "auth request" round.reply round.took
  let resp ← ofExcept (round.response.mapError Error.serialization)
  if resp.success then
    modify (fun s => s.resetIfOwnerChanged (toString userId))
    modify (fun s =>
      { s with bootstrapCompleted := round.existing.getD round.bootstrapMark })
    ofExcept (round.saved.mapError Error.storage)
    modify (fun s =>
      { s with
        currentUid := some (toString userId)
        sessionEpoch := s.sessionEpoch + 1 })
  else
    fail resp.refusal

/-- `dismantle_auth_transport`. -/
def dismantleAuthTransport : ConnM Unit :=
  modify (fun s => s.stopInboundTask.hangUp)

/-- The driver's `Reconnect`. -/
def driverReconnect (call : Nat) : ConnM Unit := do
  dismantleAuthTransport
  connectWithin call "authenticate transport reconnect timeout"
  modify (fun s =>
    (s.enter .connected).emitTransition
      (if s.sessionState = .connected then none
        else some (s.sessionState.asConnectionState, .connected)))

/-- The driver's `Authenticate`. -/
def driverAuthenticate (userId call : Nat) : ConnM Unit := do
  let s ← get
  let next ← ofExcept (s.sessionState.can .authenticate)
  authenticate userId call
  modify (fun s => s.enter next)

/-- Two rounds; only a first one without an answer is followed by the second. -/
def executeAuthenticateWithRetry (reconnect authenticate : Nat → ConnM Unit)
    (needReconnect : Bool) : ConnM Unit := do
  runIf needReconnect (reconnect 0)
  let first ← (authenticate 0).attempt
  match first with
  | .ok _ => pure ()
  | .error (.requestUnanswered _) => do
      reconnect 1
      authenticate 1
  | .error e => fail e

/-- The reconnect of a round uses the call after it. -/
def authenticateWithRetry (userId : Nat) (needReconnect : Bool) : ConnM Unit :=
  executeAuthenticateWithRetry (fun round => driverReconnect (round + 1))
    (driverAuthenticate userId) needReconnect

/-- `try_auto_reconnect`: the next session state, which the caller takes over. -/
def tryAutoReconnect : ConnM SessionState := do
  connectWithin 0 "reconnect timeout"
  modify (fun s => s.enter .connected)
  let s ← get
  let env ← ask
  match s.currentUid, env.session with
  | some _, .ok (some snapshot) => do
      let result ← (authenticateWithRetry snapshot.userId false).attempt
      match result with
      | .ok _ => do
          modify (fun s => { s with bootstrapCompleted := snapshot.bootstrapCompleted })
          pure SessionState.authenticated
      | .error e => do
          dismantleAuthTransport
          fail e
  | _, _ => pure SessionState.connected

/-- `disconnect`: a transport that cannot be closed is kept. -/
def disconnect : ConnM Unit := do
  let env ← ask
  let s ← get
  runIf s.transport.isSome
    (ofExcept (env.closing.mapError (fun e => Error.transport ("disconnect: " ++ e))))
  modify (fun s => { s with transport := none })

def Error.authMessage : Error → String
  | .auth message => message
  | e => e.text

/-- `trigger_forced_logout`: once, until the gate is lifted. -/
def triggerForcedLogout (e : Error) (source : ForcedLogoutSource) : ConnM Unit := do
  let s ← get
  if s.authTerminalFired then
    pure ()
  else do
    modify (fun s =>
      { s.stopInboundTask with authTerminalFired := true, inboundEpoch := s.inboundEpoch + 1 })
    let _ ← disconnect.attempt
    modify (fun s =>
      { s.resetReconnectBackoff with
        sessionState := .terminated
        shouldAutoReconnect := false
        lastTerminalReason := some
          { code := e.authErrorCode.getD 0
            message := e.authMessage
            source := source
            atMs := s.clock } }.emit
        (.forcedLogout (e.authErrorCode.getD 0) e.authMessage source))

end Authentication

end Connection
end PrivchatSdk
