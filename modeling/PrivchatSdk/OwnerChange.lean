import PrivchatSdk.ConnectionState
import PrivchatSdk.Lib.Run
import PrivchatSdk.SessionSync

/-!
# Changing the owner of a session

Seven commands change the current user.  Two of them reset what the session
keeps in memory, and none touches the pipeline of sync items.  The convergence that
a resume of the previous user left to do is withdrawn by one only.

What the next user sees is the same after any two histories of the previous one
when these left nothing behind: nothing queued, no remembered key that an item
of the next user has, no convergence to do, and on the paths without reset nothing
in memory (`next_owner_same`).  Otherwise an item of the previous user can reach the
next one's database (`next_owner_differs`), and the previous user's resume be
reported to the next (`converged_run_reaches_next`).
-/

namespace PrivchatSdk
namespace Session

open Receive StatementExec Exec
open Connection (SessionState TerminalReason)

section State

variable {σ π ω α : Type}

structure State (σ π : Type) where
  currentUid : Option String
  sessionState : SessionState
  bootstrapCompleted : Bool
  syncCoordinator : SyncCoordinator
  convergenceRun : Option ResumeRunStats
  authTerminalFired : Bool
  lastTerminalReason : Option TerminalReason
  inboundEpoch : Int
  pendingPreloginInboundFrames : List (InboundFrame π)
  receivePipeline : ReceivePipeline π
  memory : Memory
  /-- What is stored for each user. -/
  stores : String → σ

/-- A client that has just started. -/
def State.boot (host : SessionHost σ π ω) (currentUid : Option String)
    (stores : String → σ) : State σ π where
  currentUid := currentUid
  sessionState := .new
  bootstrapCompleted :=
    (currentUid.bind (fun uid => host.loadSession (stores uid))).getD false
  syncCoordinator := .new
  convergenceRun := none
  authTerminalFired := false
  lastTerminalReason := none
  inboundEpoch := 0
  pendingPreloginInboundFrames := []
  receivePipeline := .new recentKeyLimit
  memory := .fresh
  stores := stores

/-- What the commands of user `uid` work on. -/
def State.active (s : State σ π) (uid : String) : Active σ π where
  store := s.stores uid
  pipeline := s.receivePipeline
  memory := s.memory

def State.withActive (s : State σ π) (uid : String) (a : Active σ π) :
    State σ π :=
  { s with
    receivePipeline := a.pipeline
    memory := a.memory
    stores := Function.update s.stores uid a.store }

/-- What the sync runs of user `uid` work on. -/
def State.syncWork (s : State σ π) (uid : String) (requestsLeft : Option Nat) :
    SyncWork σ π where
  active := s.active uid
  bootstrapCompleted := s.bootstrapCompleted
  convergenceRun := s.convergenceRun
  syncCoordinator := s.syncCoordinator
  requestsLeft := requestsLeft
  results := []
  reported := []

def State.withSyncWork (s : State σ π) (uid : String) (w : SyncWork σ π) :
    State σ π :=
  { s.withActive uid w.active with
    bootstrapCompleted := w.bootstrapCompleted
    convergenceRun := w.convergenceRun
    syncCoordinator := w.syncCoordinator }

/-- `reset_session_scoped_state`. -/
def State.resetSessionScopedState (s : State σ π) (nowMs : Int) : State σ π :=
  { s with
    authTerminalFired := false
    lastTerminalReason := none
    inboundEpoch := s.inboundEpoch + 1
    pendingPreloginInboundFrames := []
    syncCoordinator := s.syncCoordinator.apply nowMs .reset
    memory := s.memory.resetSessionScopedState }

/-- `reset_if_owner_changed`. -/
def State.resetIfOwnerChanged (s : State σ π) (uid : String) (nowMs : Int) :
    State σ π :=
  match s.currentUid with
  | none => s
  | some cur => if cur ≠ uid then s.resetSessionScopedState nowMs else s

/-- `note_network_available`. -/
def State.noteNetworkAvailable (s : State σ π) : State σ π :=
  { s with syncCoordinator := s.syncCoordinator.apply 0 .noteNetworkAvailable }

def preloginFrameLimit : Nat := 256

/-- A frame that came while nobody is logged in. -/
def State.bufferFrame (s : State σ π) : InboundFrame π → State σ π
  | .ignored => s
  | frame =>
      let frames := if preloginFrameLimit ≤ s.pendingPreloginInboundFrames.length
        then s.pendingPreloginInboundFrames.drop 1
        else s.pendingPreloginInboundFrames
      { s with pendingPreloginInboundFrames := frames ++ [frame] }

/-- `replay_prelogin_inbound_frames`; its applied events are not emitted. -/
def State.replayPreloginInboundFrames
    (host : Host σ π ω) (env : ω) (s : State σ π) : Output π × State σ π :=
  match s.currentUid with
  | none => (Output.silent, s)
  | some uid =>
      let pending := s.pendingPreloginInboundFrames
      let s := { s with pendingPreloginInboundFrames := [] }
      let (os, a) := (s.active uid).replayFrames host env pending
      ({ (Output.silent : Output π) with
          results := os.flatMap (fun o => o.results) },
        s.withActive uid a)

theorem State.replayPreloginInboundFrames_none
    {s : State σ π} (huid : s.currentUid = none) (host : Host σ π ω) (env : ω) :
    s.replayPreloginInboundFrames host env = (Output.silent, s) := by
  simp only [State.replayPreloginInboundFrames, huid]

theorem State.replayPreloginInboundFrames_some
    {s : State σ π} {uid : String} (huid : s.currentUid = some uid)
    (host : Host σ π ω) (env : ω) :
    s.replayPreloginInboundFrames host env =
      ({ (Output.silent : Output π) with
          results := ((s.active uid).replayFrames host env
            s.pendingPreloginInboundFrames).1.flatMap (fun o => o.results) },
        State.withActive { s with pendingPreloginInboundFrames := [] } uid
          ((s.active uid).replayFrames host env
            s.pendingPreloginInboundFrames).2) := by
  simp only [State.replayPreloginInboundFrames, huid]
  rfl

/-- A connection stands, and is listened to under a new inbound epoch. -/
def State.connected (s : State σ π) : State σ π :=
  { s.noteNetworkAvailable with
    authTerminalFired := false
    inboundEpoch := s.inboundEpoch + 1 }

/--
What follows on a connection: the buffered frames, and the subscriptions
(`replay_subscriptions`).
-/
def State.reconnected
    (host : Host σ π ω) (env : ω) (s : State σ π) : Output π × State σ π :=
  let (o, s) := s.connected.replayPreloginInboundFrames host env
  ({ o with resubscribed := s.memory.activeSubscriptions }, s)

/--
Where a connection that succeeds leaves the session: authenticated if there is a
stored session to restore.
-/
def State.restoreSession (host : SessionHost σ π ω) (s : State σ π) : State σ π :=
  match s.currentUid.bind (fun uid => host.loadSession (s.stores uid)) with
  | some completed =>
      { s with sessionState := .authenticated, bootstrapCompleted := completed }
  | none => { s with sessionState := .connected }

/-- A statement of the sync runs on behalf of user `uid`. -/
def State.runSync (s : State σ π) (uid : String) (requestsLeft : Option Nat)
    (x : SyncM σ π α) : Except RunStop α × Output π × State σ π :=
  let (result, w) := x () (s.syncWork uid requestsLeft)
  (result,
    { (Output.silent : Output π) with results := w.results, reported := w.reported },
    s.withSyncWork uid w)

end State

section Commands

variable {σ π ω : Type}

/-- The commands that a user has to be logged in for. -/
inductive Request (π ω : Type) where
  | syncEntities (env : ω) (pull : SyncPull π)
  | queryTimelineSnapshot (key : ChannelCacheKey) (limit offset : Nat)
  | invalidateChannelCache (key : ChannelCacheKey)
  | presenceResponse (items : List PresenceStatus)
  | subscribeChannel (channelId channelType : Nat) (token : Option String)
  | unsubscribeChannel (channelId channelType : Nat)
  | enqueueProjectionRepair (now : Nat) (key : RepairKey)

/--
The gates of the commands: `require_authenticated` of those that ask the server, and
`current_uid_required` of the local ones.
-/
def State.admits (s : State σ π) : Request π ω → Bool
  | .syncEntities _ _ => s.sessionState == .authenticated
  | .presenceResponse _ => s.sessionState == .authenticated
  | .subscribeChannel _ _ _ => s.sessionState == .authenticated
  | .unsubscribeChannel _ _ => s.sessionState == .authenticated
  | .queryTimelineSnapshot _ _ _ => s.bootstrapCompleted
  | .invalidateChannelCache _ => s.bootstrapCompleted
  | .enqueueProjectionRepair _ _ => s.bootstrapCompleted

def Active.serve (host : Host σ π ω) (a : Active σ π) :
    Request π ω → Output π × Active σ π
  | .syncEntities env pull =>
      let (r, a') := a.syncEntities host env pull
      ({ (Output.silent : Output π) with
          results := [r]
          reported := if r.ok then
              r.events ++ [.syncEntitiesApplied pull.entityType pull.scope
                r.queued r.applied r.droppedDuplicates]
            else [] },
        a')
  | .queryTimelineSnapshot key limit offset =>
      let (snapshot, m) := a.memory.queryTimelineSnapshot host.cacheConfig
        (host.listMessages a.store) key limit offset
      ({ (Output.silent : Output π) with served := some snapshot },
        { a with memory := m })
  | .invalidateChannelCache key =>
      (Output.silent, { a with memory := a.memory.evictChannelCache key })
  | .presenceResponse items =>
      ({ (Output.silent : Output π) with presence := items },
        { a with memory := a.memory.updatePresenceCache items })
  | .subscribeChannel channelId channelType token =>
      (Output.silent,
        { a with memory :=
            a.memory.subscribeChannel channelId channelType token })
  | .unsubscribeChannel channelId channelType =>
      (Output.silent,
        { a with memory := a.memory.unsubscribeChannel channelId channelType })
  | .enqueueProjectionRepair now key =>
      (Output.silent,
        { a with memory := a.memory.enqueueProjectionRepair now key })

/-- What happens to a session without a change of its owner. -/
inductive Traffic (π ω : Type) where
  | request (request : Request π ω)
  /-- A frame of the inbound task that was started `epoch` epochs later than the
  epoch that a run is counted from. -/
  | inboundFrame (env : ω) (epoch : Int) (frame : InboundFrame π)
  | getCachedPresence (userIds : List Nat)
  | takePendingEvents
  /-- The repairs of a repair tick. -/
  | drainProjectionRepairs (env : ω) (now : Nat)
  /-- The convergence of a repair tick. -/
  | converge (pass : ScanPass π ω)
  /-- The anti-entropy of a health tick. -/
  | antiEntropy (pass : ScanPass π ω)
  | ensureSynced (run : SyncRun π ω)
  /-- `get_connection_state`, `is_bootstrap_completed`, `get_sync_state` and
  `last_terminal_reason`. -/
  | getStatus
  /-- A connection that the host asked for, or the retry timer. -/
  | reconnect (env : ω) (requested : Bool)
  | transportLost
  /-- The network hint turns to online, and the session wants to be. -/
  | networkOnline
  | disconnect
  | forcedLogout (reason : TerminalReason)

/-- The event of a bootstrap, where the caller reports one. -/
def bootstrapEvents (trigger : SyncTrigger) (uid : String) (before after : Bool)
    (result : Except RunStop Bool) : List SdkEvent :=
  let done : Bool := match trigger, result with
    | .runBootstrapSync, .ok ran => ran
    | .ensureSynced, .ok _ => !before && after
    | _, _ => false
  if done then (parseU64 uid).toList.map SdkEvent.bootstrapCompleted else []

/--
One step of traffic.  A frame of another inbound epoch is dropped.
-/
def State.traffic (host : SessionHost σ π ω) (base : Int) (s : State σ π) :
    Traffic π ω → Output π × State σ π
  | .request request =>
      match s.currentUid with
      | none => (Output.silent, s)
      | some uid =>
          if s.admits request then
            let (o, a) := (s.active uid).serve host.toHost request
            (o, s.withActive uid a)
          else
            (Output.silent, s)
  | .inboundFrame env epoch frame =>
      if base + epoch ≠ s.inboundEpoch then
        (Output.silent, s)
      else
        match s.currentUid with
        | none => (Output.silent, s.bufferFrame frame)
        | some uid =>
            let (_, o, a) := (s.active uid).handleInboundFrame host.toHost env frame
            (o, s.withActive uid a)
  | .getCachedPresence userIds =>
      ({ (Output.silent : Output π) with
          presence := s.memory.batchGetCachedPresence userIds }, s)
  | .takePendingEvents =>
      ({ (Output.silent : Output π) with reported := s.memory.pendingEvents },
        { s with memory := { s.memory with pendingEvents := [] } })
  | .drainProjectionRepairs env now =>
      match s.currentUid with
      | none =>
          -- without a user the repair finds no database
          let (tried, _, m) := s.memory.drainProjectionRepairs
            (fun (store : Unit) _ => (.failed, store)) now repairBatchLimit ()
          ({ (Output.silent : Output π) with repaired := tried },
            { s with memory := m })
      | some uid =>
          let (tried, store, m) := s.memory.drainProjectionRepairs
            (host.repairMessageProjection env) now repairBatchLimit
            (s.stores uid)
          ({ (Output.silent : Output π) with repaired := tried },
            { s with memory := m, stores := Function.update s.stores uid store })
  | .converge pass =>
      match s.currentUid with
      | none => (Output.silent, s)
      | some uid =>
          if s.sessionState == .authenticated then
            (s.runSync uid none (Session.converge host pass)).2
          else
            (Output.silent, s)
  | .antiEntropy pass =>
      match s.currentUid with
      | none => (Output.silent, s)
      | some uid =>
          if s.sessionState == .authenticated then
            (s.runSync uid none (runAntiEntropyOnce host pass)).2
          else
            (Output.silent, s)
  | .ensureSynced run =>
      match s.currentUid with
      | none => (Output.silent, s)
      | some uid =>
          if s.sessionState == .authenticated then
            let (result, o, s') := s.runSync uid run.requestsLeft
              (ensureSyncedInner host run)
            let events := bootstrapEvents run.trigger uid s.bootstrapCompleted
              s'.bootstrapCompleted result
            ({ o with reported := o.reported ++ events }, s')
          else
            (Output.silent, s)
  | .getStatus =>
      ({ (Output.silent : Output π) with
          status := some
            { sessionState := s.sessionState
              bootstrapCompleted := s.bootstrapCompleted
              syncState := s.syncCoordinator.snapshot
              lastTerminalReason := s.lastTerminalReason } }, s)
  | .reconnect env requested =>
      let s := s.restoreSession host
      State.reconnected host.toHost env
        { s with lastTerminalReason :=
            if requested then none else s.lastTerminalReason }
  | .transportLost =>
      (Output.silent,
        if s.sessionState.isUp then { s with sessionState := .new } else s)
  | .networkOnline => (Output.silent, s.noteNetworkAvailable)
  | .disconnect =>
      (Output.silent,
        { s with
          sessionState := .new
          memory :=
            { s.memory.clearPresenceCache with activeSubscriptions := [] } })
  | .forcedLogout reason =>
      if s.authTerminalFired then
        (Output.silent, s)
      else
        (Output.silent,
          { s with
            authTerminalFired := true
            sessionState := .terminated
            lastTerminalReason := some reason
            inboundEpoch := s.inboundEpoch + 1
            memory := { s.memory with activeSubscriptions := [] } })

/--
The commands that change the current user, where they succeed; one that fails
leaves the session as it was.
-/
inductive OwnerCommand (ω : Type) where
  | switchLocalAccount (uid : String) (nowMs : Int)
  | authenticate (env : ω) (uid : String) (nowMs : Int)
  | login (env : ω) (uid : String)
  | register (env : ω) (uid : String)
  | setCurrentUid (uid : String)
  | clearLocalState (nowMs : Int)
  | wipeCurrentUserFull

/-- The user that a command makes the current one. -/
def OwnerCommand.owner : OwnerCommand ω → Option String
  | .switchLocalAccount uid _ => some uid
  | .authenticate _ uid _ => some uid
  | .login _ uid => some uid
  | .register _ uid => some uid
  | .setCurrentUid uid => some uid
  | .clearLocalState _ => none
  | .wipeCurrentUserFull => none

/-- `save_login`. -/
def State.saveLogin (host : SessionHost σ π ω) (s : State σ π) (uid : String) :
    State σ π :=
  { s with stores := Function.update s.stores uid (host.saveLogin (s.stores uid)) }

/-- The common part of `login` and `register`. -/
def State.loggedIn
    (host : SessionHost σ π ω) (env : ω) (s : State σ π) (uid : String) :
    Output π × State σ π :=
  let s := s.saveLogin host uid
  State.replayPreloginInboundFrames host.toHost env
    { s with currentUid := some uid, sessionState := .loggedIn }

/-- The bootstrap flag that a session starts with; a logout keeps it. -/
def storedBootstrapCompleted (host : SessionHost σ π ω) (store : σ) : Bool :=
  (host.loadSession store).getD (host.loadBootstrapCompleted store)

/-- What an accepted `authenticate` sets before the session goes on as connected. -/
def State.authenticated
    (host : SessionHost σ π ω) (s : State σ π) (uid : String) : State σ π :=
  { s.saveLogin host uid with
    currentUid := some uid
    sessionState := .authenticated
    bootstrapCompleted := storedBootstrapCompleted host (s.stores uid) }

def State.changeOwner (host : SessionHost σ π ω) (s : State σ π) :
    OwnerCommand ω → Output π × State σ π
  | .switchLocalAccount uid nowMs =>
      (Output.silent,
        { s.resetSessionScopedState nowMs with
          currentUid := some uid
          sessionState := .new
          bootstrapCompleted := (host.loadSession (s.stores uid)).getD false })
  | .authenticate env uid nowMs =>
      State.reconnected host.toHost env
        ((s.resetIfOwnerChanged uid nowMs).authenticated host uid)
  | .login env uid => s.loggedIn host env uid
  | .register env uid => s.loggedIn host env uid
  | .setCurrentUid uid =>
      (Output.silent,
        if s.currentUid = some uid then s
        else
          { s with
            currentUid := some uid
            bootstrapCompleted := storedBootstrapCompleted host (s.stores uid) })
  | .clearLocalState nowMs =>
      let coordinator := s.syncCoordinator.apply nowMs .reset
      let s := { s with
        sessionState := .connected
        bootstrapCompleted := false
        convergenceRun := none
        syncCoordinator := coordinator
        memory := { s.memory with
          pendingEvents := s.memory.pendingEvents ++
            [SdkEvent.syncStateChanged coordinator.snapshot] } }
      match s.currentUid with
      | none => (Output.silent, s)
      | some uid =>
          (Output.silent,
            { s with
              currentUid := none
              stores := Function.update s.stores uid
                (host.clearSession (s.stores uid)) })
  | .wipeCurrentUserFull =>
      let s := { s with
        sessionState := .connected
        bootstrapCompleted := false
        memory := s.memory.clearPresenceCache }
      match s.currentUid with
      | none => (Output.silent, s)
      | some uid =>
          (Output.silent,
            { s with
              currentUid := none
              stores := Function.update s.stores uid host.wiped })

inductive Event (π ω : Type) where
  | traffic (traffic : Traffic π ω)
  | owner (command : OwnerCommand ω)

def State.step (host : SessionHost σ π ω) (base : Int) (s : State σ π) :
    Event π ω → Output π × State σ π
  | .traffic t => s.traffic host base t
  | .owner c => s.changeOwner host c

/-- A session with what it has shown, oldest first. -/
structure Trace (σ π : Type) where
  state : State σ π
  outputs : List (Output π)

def Trace.step (host : SessionHost σ π ω) (base : Int) (t : Trace σ π)
    (e : Event π ω) : Trace σ π :=
  let (o, s) := t.state.step host base e
  { state := s, outputs := t.outputs ++ [o] }

end Commands

section SameOwner

variable {σ π ω α : Type}

/-- The items of a request that go through the pipeline. -/
def Request.entries : Request π ω → List (Entry π)
  | .syncEntities _ pull => pull.entries
  | _ => []

def Traffic.entries : Traffic π ω → List (Entry π)
  | .request r => r.entries
  | .inboundFrame _ _ frame => frame.entries
  | .converge pass => pass.entries
  | .antiEntropy pass => pass.entries
  | .ensureSynced run => run.entries
  | _ => []

/-- The items that an event offers to the session. -/
def Event.entries : Event π ω → List (Entry π)
  | .traffic t => t.entries
  | .owner _ => []

/-- The event makes nobody of `hidden` the current user. -/
def Event.Avoids (hidden : String → Prop) : Event π ω → Prop
  | .traffic _ => True
  | .owner c => ∀ u, c.owner = some u → ¬ hidden u

variable {own : Entry π → Prop} {old : Finset String} {hidden : String → Prop}
variable {base base' : Int}

/--
The same session after different histories: it differs in the databases of the
`hidden` users, none of whom is the current one, in the keys that the pipeline
still remembers from these, and in the counts of inbound epochs and of resets.
-/
structure SameOwner (own : Entry π → Prop) (old : Finset String)
    (hidden : String → Prop) (base base' : Int) (s t : State σ π) : Prop where
  uid : s.currentUid = t.currentUid
  visible : ∀ u, s.currentUid = some u → ¬ hidden u
  sessionState : s.sessionState = t.sessionState
  bootstrapCompleted : s.bootstrapCompleted = t.bootstrapCompleted
  syncCoordinator : s.syncCoordinator.Alike t.syncCoordinator
  convergenceRun : s.convergenceRun = t.convergenceRun
  authTerminalFired : s.authTerminalFired = t.authTerminalFired
  lastTerminalReason : s.lastTerminalReason = t.lastTerminalReason
  epoch : s.inboundEpoch - base = t.inboundEpoch - base'
  frames : s.pendingPreloginInboundFrames = t.pendingPreloginInboundFrames
  framesOwn : ∀ frame ∈ s.pendingPreloginInboundFrames,
    ∀ e ∈ frame.entries, own e
  pipeline : Alike own old s.receivePipeline t.receivePipeline
  memory : s.memory = t.memory
  stores : ∀ u, ¬ hidden u → s.stores u = t.stores u

theorem SameOwner.active
    {s t : State σ π} (h : SameOwner own old hidden base base' s t)
    {uid : String} (hu : ¬ hidden uid) :
    SameView own old (s.active uid) (t.active uid) where
  store := h.stores uid hu
  memory := h.memory
  pipeline := h.pipeline

/-- Work of a visible user is taken back alike. -/
theorem SameOwner.withActive
    {s t : State σ π} (h : SameOwner own old hidden base base' s t)
    {uid : String} {a b : Active σ π} (hview : SameView own old a b) :
    SameOwner own old hidden base base' (s.withActive uid a)
      (t.withActive uid b) :=
  { h with
    pipeline := hview.pipeline
    memory := hview.memory
    stores := by
      intro u hu
      simp only [State.withActive, Function.update_apply, hview.store]
      split
      · rfl
      · exact h.stores u hu }

/-- Both may take the same memory. -/
theorem SameOwner.withMemory
    {s t : State σ π} (h : SameOwner own old hidden base base' s t)
    {m m' : Memory} (hm : m = m') :
    SameOwner own old hidden base base' { s with memory := m }
      { t with memory := m' } :=
  { h with memory := hm }

/-- Both may get the same visible user, or none. -/
theorem SameOwner.withUid
    {s t : State σ π} (h : SameOwner own old hidden base base' s t)
    {uid : Option String} (hu : ∀ u, uid = some u → ¬ hidden u) :
    SameOwner own old hidden base base' { s with currentUid := uid }
      { t with currentUid := uid } :=
  { h with uid := rfl, visible := hu }

/-- Both may start a new inbound epoch. -/
theorem SameOwner.nextEpoch
    {s t : State σ π} (h : SameOwner own old hidden base base' s t) :
    SameOwner own old hidden base base'
      { s with inboundEpoch := s.inboundEpoch + 1 }
      { t with inboundEpoch := t.inboundEpoch + 1 } :=
  { h with
    epoch := by
      have := h.epoch
      dsimp only
      omega }

theorem SameOwner.resetSessionScopedState
    {s t : State σ π} (h : SameOwner own old hidden base base' s t) (nowMs : Int) :
    SameOwner own old hidden base base' (s.resetSessionScopedState nowMs)
      (t.resetSessionScopedState nowMs) :=
  { h.nextEpoch with
    authTerminalFired := rfl
    lastTerminalReason := rfl
    frames := rfl
    framesOwn := by simp [State.resetSessionScopedState]
    syncCoordinator := h.syncCoordinator.apply nowMs .reset
    memory := by
      simp only [State.resetSessionScopedState,
        Memory.resetSessionScopedState_eq] }

theorem SameOwner.resetIfOwnerChanged
    {s t : State σ π} (h : SameOwner own old hidden base base' s t)
    (uid : String) (nowMs : Int) :
    SameOwner own old hidden base base' (s.resetIfOwnerChanged uid nowMs)
      (t.resetIfOwnerChanged uid nowMs) := by
  simp only [State.resetIfOwnerChanged, ← h.uid]
  split
  · exact h
  · split
    · exact h.resetSessionScopedState nowMs
    · exact h

theorem SameOwner.noteNetworkAvailable
    {s t : State σ π} (h : SameOwner own old hidden base base' s t) :
    SameOwner own old hidden base base' s.noteNetworkAvailable
      t.noteNetworkAvailable :=
  { h with syncCoordinator := h.syncCoordinator.apply 0 .noteNetworkAvailable }

theorem SameOwner.connected
    {s t : State σ π} (h : SameOwner own old hidden base base' s t) :
    SameOwner own old hidden base base' s.connected t.connected :=
  { h.noteNetworkAvailable.nextEpoch with authTerminalFired := rfl }

/-- The same is written for a user in both. -/
theorem SameOwner.withStore
    {s t : State σ π} (h : SameOwner own old hidden base base' s t)
    (uid : String) (f : σ → σ) :
    SameOwner own old hidden base base'
      { s with stores := Function.update s.stores uid (f (s.stores uid)) }
      { t with stores := Function.update t.stores uid (f (t.stores uid)) } :=
  { h with
    stores := by
      intro u hu
      simp only [Function.update_apply]
      split
      · rename_i heq
        rw [h.stores uid (heq ▸ hu)]
      · exact h.stores u hu }

theorem SameOwner.withSessionState
    {s t : State σ π} (h : SameOwner own old hidden base base' s t)
    (sessionState : SessionState) :
    SameOwner own old hidden base base' { s with sessionState := sessionState }
      { t with sessionState := sessionState } :=
  { h with sessionState := rfl }

theorem SameOwner.withTerminalReason
    {s t : State σ π} (h : SameOwner own old hidden base base' s t)
    {reason reason' : Option TerminalReason} (hreason : reason = reason') :
    SameOwner own old hidden base base' { s with lastTerminalReason := reason }
      { t with lastTerminalReason := reason' } :=
  { h with lastTerminalReason := hreason }

/-- The bootstrap flag and the session state are taken from what is stored. -/
theorem SameOwner.withSession
    {s t : State σ π} (h : SameOwner own old hidden base base' s t)
    (sessionState : SessionState) {completed completed' : Bool}
    (hcompleted : completed = completed') :
    SameOwner own old hidden base base'
      { s with sessionState := sessionState, bootstrapCompleted := completed }
      { t with sessionState := sessionState, bootstrapCompleted := completed' } :=
  { h with sessionState := rfl, bootstrapCompleted := hcompleted }

theorem SameOwner.restoreSession
    {s t : State σ π} (h : SameOwner own old hidden base base' s t)
    (host : SessionHost σ π ω) :
    SameOwner own old hidden base base' (s.restoreSession host)
      (t.restoreSession host) := by
  have hstored : s.currentUid.bind (fun uid => host.loadSession (s.stores uid)) =
      t.currentUid.bind (fun uid => host.loadSession (t.stores uid)) := by
    rw [← h.uid]
    cases huid : s.currentUid with
    | none =>
        rfl
    | some uid =>
        simp only [Option.bind_some, h.stores uid (h.visible uid huid)]
  simp only [State.restoreSession, ← hstored]
  split
  · exact h.withSession _ rfl
  · exact h.withSessionState _

/-- A statement that keeps sync work the same keeps the sessions the same. -/
theorem SameOwner.runSync
    {s t : State σ π} (h : SameOwner own old hidden base base' s t)
    {uid : String} (hu : ¬ hidden uid) (requestsLeft : Option Nat)
    {x : SyncM σ π α} (hx : Unwinds (SameSync own old) x) :
    (s.runSync uid requestsLeft x).1 = (t.runSync uid requestsLeft x).1 ∧
      (s.runSync uid requestsLeft x).2.1 = (t.runSync uid requestsLeft x).2.1 ∧
      (s.runSync uid requestsLeft x).2.1.HandsOwn own ∧
      SameOwner own old hidden base base' (s.runSync uid requestsLeft x).2.2
        (t.runSync uid requestsLeft x).2.2 := by
  have hwork : SameSync own old (s.syncWork uid requestsLeft)
      (t.syncWork uid requestsLeft) :=
    { active := h.active hu
      syncCoordinator := h.syncCoordinator
      rest := by simp only [State.syncWork, h.bootstrapCompleted, h.convergenceRun]
      results := by simp [State.syncWork] }
  obtain ⟨hresult, hend⟩ := hx () _ _ hwork
  refine ⟨hresult, ?_, hend.results,
    { h.withActive hend.active with
      bootstrapCompleted := hend.bootstrapCompleted
      convergenceRun := hend.convergenceRun
      syncCoordinator := hend.syncCoordinator }⟩
  have hresults := hend.results_eq
  have hreported := hend.reported
  simp only [after] at hresults hreported
  simp only [State.runSync, hresults, hreported]

theorem SameOwner.bufferFrame
    {s t : State σ π} (h : SameOwner own old hidden base base' s t)
    (frame : InboundFrame π) (hframe : ∀ e ∈ frame.entries, own e) :
    SameOwner own old hidden base base' (s.bufferFrame frame)
      (t.bufferFrame frame) := by
  have hkept : ∀ f ∈ (if preloginFrameLimit ≤ s.pendingPreloginInboundFrames.length
        then s.pendingPreloginInboundFrames.drop 1
        else s.pendingPreloginInboundFrames), ∀ e ∈ f.entries, own e := by
    intro f hf
    split at hf
    · exact h.framesOwn f (List.mem_of_mem_drop hf)
    · exact h.framesOwn f hf
  have hboth (frames : List (InboundFrame π))
      (hown : ∀ f ∈ frames, ∀ e ∈ f.entries, own e) :
      SameOwner own old hidden base base'
        { s with pendingPreloginInboundFrames := frames ++ [frame] }
        { t with pendingPreloginInboundFrames := frames ++ [frame] } :=
    { h with
      frames := rfl
      framesOwn := by
        intro f hf
        rcases List.mem_append.mp hf with hf | hf
        · exact hown f hf
        · rw [List.mem_singleton] at hf
          exact hf ▸ hframe }
  cases frame with
  | ignored =>
      exact h
  | pushes messages =>
      simp only [State.bufferFrame, ← h.frames]
      exact hboth _ hkept
  | presenceChanged channelId snapshot payload publisher id timestamp =>
      simp only [State.bufferFrame, ← h.frames]
      exact hboth _ hkept
  | roomPublish channelId topic payload publisher id timestamp =>
      simp only [State.bufferFrame, ← h.frames]
      exact hboth _ hkept

variable (hfresh : ∀ e, own e → entryKey e ∉ old)

include hfresh

theorem SameView.serve
    {a b : Active σ π} (h : SameView own old a b)
    (host : Host σ π ω) (request : Request π ω)
    (hrequest : ∀ e ∈ request.entries, own e) :
    (a.serve host request).1 = (b.serve host request).1 ∧
      (a.serve host request).1.HandsOwn own ∧
      SameView own old (a.serve host request).2 (b.serve host request).2 := by
  cases request with
  | syncEntities env pull =>
      obtain ⟨hr, hown, hview⟩ := h.syncEntities hfresh host env pull hrequest
      simp only [Active.serve, ← hr]
      refine ⟨trivial, fun r hmem => ?_, hview⟩
      rw [List.mem_singleton] at hmem
      exact hmem ▸ hown
  | queryTimelineSnapshot key limit offset =>
      simp only [Active.serve, ← h.store, ← h.memory]
      exact ⟨trivial, Output.silent_handsOwn, rfl, rfl, h.pipeline⟩
  | invalidateChannelCache key =>
      exact ⟨rfl, Output.silent_handsOwn, h.withMemory (by rw [h.memory])⟩
  | presenceResponse items =>
      exact ⟨rfl, Output.silent_handsOwn, h.withMemory (by rw [h.memory])⟩
  | subscribeChannel channelId channelType token =>
      exact ⟨rfl, Output.silent_handsOwn, h.withMemory (by rw [h.memory])⟩
  | unsubscribeChannel channelId channelType =>
      exact ⟨rfl, Output.silent_handsOwn, h.withMemory (by rw [h.memory])⟩
  | enqueueProjectionRepair now key =>
      exact ⟨rfl, Output.silent_handsOwn, h.withMemory (by rw [h.memory])⟩

theorem SameOwner.replayPreloginInboundFrames
    {s t : State σ π} (h : SameOwner own old hidden base base' s t)
    (host : Host σ π ω) (env : ω) :
    (s.replayPreloginInboundFrames host env).1 =
        (t.replayPreloginInboundFrames host env).1 ∧
      (s.replayPreloginInboundFrames host env).1.HandsOwn own ∧
      SameOwner own old hidden base base'
        (s.replayPreloginInboundFrames host env).2
        (t.replayPreloginInboundFrames host env).2 := by
  have hempty : SameOwner own old hidden base base'
      { s with pendingPreloginInboundFrames := [] }
      { t with pendingPreloginInboundFrames := [] } :=
    { h with frames := rfl, framesOwn := by simp }
  cases huid : s.currentUid with
  | none =>
      rw [State.replayPreloginInboundFrames_none huid,
        State.replayPreloginInboundFrames_none (h.uid ▸ huid)]
      exact ⟨rfl, Output.silent_handsOwn, h⟩
  | some uid =>
      obtain ⟨houts, howns, hview⟩ := SameView.replayFrames hfresh host env
        s.pendingPreloginInboundFrames h.framesOwn
        (h.active (h.visible uid huid))
      rw [State.replayPreloginInboundFrames_some huid,
        State.replayPreloginInboundFrames_some (h.uid ▸ huid), ← h.frames, ← houts]
      refine ⟨rfl, fun r hr => ?_, hempty.withActive hview⟩
      obtain ⟨o, ho, hr⟩ := List.mem_flatMap.mp hr
      exact howns o ho r hr

theorem SameOwner.reconnected
    {s t : State σ π} (h : SameOwner own old hidden base base' s t)
    (host : Host σ π ω) (env : ω) :
    (s.reconnected host env).1 = (t.reconnected host env).1 ∧
      (s.reconnected host env).1.HandsOwn own ∧
      SameOwner own old hidden base base' (s.reconnected host env).2
        (t.reconnected host env).2 := by
  obtain ⟨hout, hown, hsame⟩ :=
    h.connected.replayPreloginInboundFrames hfresh host env
  simp only [State.reconnected, ← hout, ← hsame.memory]
  exact ⟨trivial, hown, hsame⟩

omit hfresh in
/-- A sync run of an authenticated session. -/
theorem SameOwner.runAuthenticated
    {s t : State σ π} (h : SameOwner own old hidden base base' s t)
    {x : SyncM σ π α} (hx : Unwinds (SameSync own old) x) :
    let run (s : State σ π) : Output π × State σ π :=
      match s.currentUid with
      | none => (Output.silent, s)
      | some uid =>
          if s.sessionState == .authenticated then (s.runSync uid none x).2
          else (Output.silent, s)
    (run s).1 = (run t).1 ∧ (run s).1.HandsOwn own ∧
      SameOwner own old hidden base base' (run s).2 (run t).2 := by
  intro run
  simp only [run, ← h.uid, ← h.sessionState]
  split
  · exact ⟨rfl, Output.silent_handsOwn, h⟩
  · rename_i uid huid
    split
    · exact (h.runSync (h.visible uid huid) none hx).2
    · exact ⟨rfl, Output.silent_handsOwn, h⟩

/-- Traffic shows the same, and hands only own items to the database. -/
theorem SameOwner.traffic
    {s t : State σ π} (h : SameOwner own old hidden base base' s t)
    (host : SessionHost σ π ω) (event : Traffic π ω)
    (hevent : ∀ e ∈ event.entries, own e) :
    (s.traffic host base event).1 = (t.traffic host base' event).1 ∧
      (s.traffic host base event).1.HandsOwn own ∧
      SameOwner own old hidden base base' (s.traffic host base event).2
        (t.traffic host base' event).2 := by
  cases event with
  | request request =>
      have hadmits : s.admits request = t.admits request := by
        cases request <;> simp only [State.admits, h.sessionState, h.bootstrapCompleted]
      simp only [State.traffic, ← h.uid, ← hadmits]
      split
      · exact ⟨rfl, Output.silent_handsOwn, h⟩
      · rename_i uid huid
        split
        · obtain ⟨hout, hown, hview⟩ := (h.active (h.visible uid huid)).serve
            hfresh host.toHost request hevent
          exact ⟨hout, hown, h.withActive hview⟩
        · exact ⟨rfl, Output.silent_handsOwn, h⟩
  | inboundFrame env epoch frame =>
      have hepoch : base + epoch ≠ s.inboundEpoch ↔
          base' + epoch ≠ t.inboundEpoch := by
        have := h.epoch
        omega
      simp only [State.traffic, ← h.uid]
      by_cases hstale : base + epoch ≠ s.inboundEpoch
      · simp only [if_pos hstale, if_pos (hepoch.mp hstale)]
        exact ⟨trivial, Output.silent_handsOwn, h⟩
      · simp only [if_neg hstale, if_neg (fun hn => hstale (hepoch.mpr hn))]
        split
        · exact ⟨rfl, Output.silent_handsOwn, h.bufferFrame frame hevent⟩
        · rename_i uid huid
          obtain ⟨-, hout, hown, hview⟩ :=
            (h.active (h.visible uid huid)).handleInboundFrame hfresh host.toHost env
              frame hevent
          exact ⟨hout, hown, h.withActive hview⟩
  | getCachedPresence userIds =>
      simp only [State.traffic, ← h.memory]
      exact ⟨trivial, Output.silent_handsOwn, h⟩
  | takePendingEvents =>
      simp only [State.traffic, ← h.memory]
      exact ⟨trivial, Output.silent_handsOwn, h.withMemory rfl⟩
  | drainProjectionRepairs env now =>
      simp only [State.traffic, ← h.uid, ← h.memory]
      split
      · exact ⟨rfl, Output.silent_handsOwn, { h with uid := rfl, memory := rfl }⟩
      · rename_i uid huid
        rw [← h.stores uid (h.visible uid huid)]
        refine ⟨rfl, Output.silent_handsOwn,
          { h with uid := rfl, memory := rfl, stores := ?_ }⟩
        intro u hu
        simp only [Function.update_apply]
        split
        · rfl
        · exact h.stores u hu
  | converge pass =>
      exact h.runAuthenticated (unwinds_converge hfresh host pass hevent)
  | antiEntropy pass =>
      exact h.runAuthenticated (unwinds_runAntiEntropyOnce hfresh host pass hevent)
  | ensureSynced run =>
      simp only [State.traffic, ← h.uid, ← h.sessionState]
      split
      · exact ⟨rfl, Output.silent_handsOwn, h⟩
      · rename_i uid huid
        split
        · obtain ⟨hresult, hout, hown, hsame⟩ := h.runSync (h.visible uid huid)
            run.requestsLeft (unwinds_ensureSyncedInner hfresh host run hevent)
          rw [← hresult, ← hout, ← h.bootstrapCompleted, ← hsame.bootstrapCompleted]
          exact ⟨rfl, hown, hsame⟩
        · exact ⟨rfl, Output.silent_handsOwn, h⟩
  | getStatus =>
      simp only [State.traffic, h.sessionState, h.bootstrapCompleted,
        h.syncCoordinator.snapshot, h.lastTerminalReason]
      exact ⟨trivial, Output.silent_handsOwn, h⟩
  | reconnect env requested =>
      have hrestored := h.restoreSession host
      exact SameOwner.reconnected hfresh
        (hrestored.withTerminalReason (by rw [hrestored.lastTerminalReason]))
        host.toHost env
  | transportLost =>
      simp only [State.traffic, ← h.sessionState]
      refine ⟨trivial, Output.silent_handsOwn, ?_⟩
      split
      · exact h.withSessionState .new
      · exact h
  | networkOnline =>
      exact ⟨rfl, Output.silent_handsOwn, h.noteNetworkAvailable⟩
  | disconnect =>
      exact ⟨rfl, Output.silent_handsOwn,
        (h.withSessionState .new).withMemory (by rw [h.memory])⟩
  | forcedLogout reason =>
      simp only [State.traffic, ← h.authTerminalFired]
      split
      · exact ⟨rfl, Output.silent_handsOwn, h⟩
      · exact ⟨rfl, Output.silent_handsOwn,
          { ((h.nextEpoch.withSessionState .terminated).withTerminalReason
              rfl).withMemory (by rw [h.memory]) with
            authTerminalFired := rfl }⟩

theorem SameOwner.loggedIn
    {s t : State σ π} (h : SameOwner own old hidden base base' s t)
    (host : SessionHost σ π ω) (env : ω) {uid : String} (hu : ¬ hidden uid) :
    (s.loggedIn host env uid).1 = (t.loggedIn host env uid).1 ∧
      (s.loggedIn host env uid).1.HandsOwn own ∧
      SameOwner own old hidden base base' (s.loggedIn host env uid).2
        (t.loggedIn host env uid).2 :=
  SameOwner.replayPreloginInboundFrames hfresh
    (((h.withStore uid host.saveLogin).withUid
      (fun u he => by cases he; exact hu)).withSessionState .loggedIn) host.toHost env

/-- A change of owner among the visible users shows the same. -/
theorem SameOwner.changeOwner
    {s t : State σ π} (h : SameOwner own old hidden base base' s t)
    (host : SessionHost σ π ω) (c : OwnerCommand ω)
    (hc : ∀ u, c.owner = some u → ¬ hidden u) :
    (s.changeOwner host c).1 = (t.changeOwner host c).1 ∧
      (s.changeOwner host c).1.HandsOwn own ∧
      SameOwner own old hidden base base' (s.changeOwner host c).2
        (t.changeOwner host c).2 := by
  cases c with
  | switchLocalAccount uid nowMs =>
      exact ⟨rfl, Output.silent_handsOwn,
        ((h.resetSessionScopedState nowMs).withUid hc).withSession .new
          (by rw [h.stores uid (hc uid rfl)])⟩
  | authenticate env uid nowMs =>
      have hreset := h.resetIfOwnerChanged uid nowMs
      exact SameOwner.reconnected hfresh
        (((hreset.withStore uid host.saveLogin).withUid hc).withSession
          .authenticated (by rw [hreset.stores uid (hc uid rfl)])) host.toHost env
  | login env uid =>
      exact h.loggedIn hfresh host env (hc uid rfl)
  | register env uid =>
      exact h.loggedIn hfresh host env (hc uid rfl)
  | setCurrentUid uid =>
      simp only [State.changeOwner, ← h.uid]
      refine ⟨trivial, Output.silent_handsOwn, ?_⟩
      split
      · exact h
      · exact
          { h.withUid hc with
            bootstrapCompleted := by rw [h.stores uid (hc uid rfl)] }
  | clearLocalState nowMs =>
      have hcoordinator := h.syncCoordinator.apply nowMs .reset
      have hcleared : SameOwner own old hidden base base'
          { s with
            sessionState := .connected
            bootstrapCompleted := false
            convergenceRun := none
            syncCoordinator := s.syncCoordinator.apply nowMs .reset
            memory := { s.memory with
              pendingEvents := s.memory.pendingEvents ++ [.syncStateChanged
                (s.syncCoordinator.apply nowMs .reset).snapshot] } }
          { t with
            sessionState := .connected
            bootstrapCompleted := false
            convergenceRun := none
            syncCoordinator := t.syncCoordinator.apply nowMs .reset
            memory := { t.memory with
              pendingEvents := t.memory.pendingEvents ++ [.syncStateChanged
                (t.syncCoordinator.apply nowMs .reset).snapshot] } } :=
        { h with
          sessionState := rfl
          bootstrapCompleted := rfl
          convergenceRun := rfl
          syncCoordinator := hcoordinator
          memory := by rw [hcoordinator.snapshot, h.memory] }
      simp only [State.changeOwner, ← h.uid]
      split
      · exact ⟨rfl, Output.silent_handsOwn, { hcleared with uid := rfl }⟩
      · rename_i uid huid
        exact ⟨rfl, Output.silent_handsOwn,
          { hcleared.withStore uid host.clearSession with
            uid := rfl
            visible := by simp }⟩
  | wipeCurrentUserFull =>
      have hcleared : SameOwner own old hidden base base'
          { s with
            sessionState := .connected
            bootstrapCompleted := false
            memory := s.memory.clearPresenceCache }
          { t with
            sessionState := .connected
            bootstrapCompleted := false
            memory := t.memory.clearPresenceCache } :=
        { h with
          sessionState := rfl
          bootstrapCompleted := rfl
          memory := by rw [h.memory] }
      simp only [State.changeOwner, ← h.uid]
      split
      · exact ⟨rfl, Output.silent_handsOwn, { hcleared with uid := rfl }⟩
      · rename_i uid huid
        exact ⟨rfl, Output.silent_handsOwn,
          { hcleared.withStore uid (fun _ => host.wiped) with
            uid := rfl
            visible := by simp }⟩

/-- Every event that avoids the hidden users shows the same. -/
theorem SameOwner.step
    {s t : State σ π} (h : SameOwner own old hidden base base' s t)
    (host : SessionHost σ π ω) (event : Event π ω)
    (hown : ∀ e ∈ event.entries, own e) (havoid : event.Avoids hidden) :
    (s.step host base event).1 = (t.step host base' event).1 ∧
      (s.step host base event).1.HandsOwn own ∧
      SameOwner own old hidden base base' (s.step host base event).2
        (t.step host base' event).2 := by
  cases event with
  | traffic event =>
      exact h.traffic hfresh host event hown
  | owner c =>
      exact h.changeOwner hfresh host c havoid

end SameOwner

section NextOwner

variable {σ π ω α : Type}

/-- A session after the events since it started. -/
def State.after
    (host : SessionHost σ π ω) (s : State σ π) (events : List (Event π ω)) :
    State σ π :=
  EventRun.run (fun s e => (s.step host 0 e).2) s events

/-- A session after traffic of its user. -/
def State.used
    (host : SessionHost σ π ω) (s : State σ π) (history : List (Traffic π ω)) :
    State σ π :=
  EventRun.run (fun s e => (s.traffic host 0 e).2) s history

/--
What follows a change of owner.  The epochs of inbound frames are counted from
the one that the change left.
-/
def State.next
    (host : SessionHost σ π ω) (s : State σ π) (c : OwnerCommand ω)
    (rest : List (Event π ω)) : Trace σ π :=
  let (o, s') := s.changeOwner host c
  EventRun.run (Trace.step host s'.inboundEpoch)
    { state := s', outputs := [o] } rest

/-- What a session can keep of its user beside the pipeline. -/
structure Leftover (π : Type) where
  memory : Memory
  frames : List (InboundFrame π)
  sessionState : SessionState
  bootstrapCompleted : Bool
  /-- Without the count of its resets. -/
  syncCoordinator : SyncCoordinator
  convergenceRun : Option ResumeRunStats
  authTerminalFired : Bool
  lastTerminalReason : Option TerminalReason

/-- What a client that has just started has. -/
def Leftover.nothing : Leftover π where
  memory := .fresh
  frames := []
  sessionState := .new
  bootstrapCompleted := false
  syncCoordinator := .new
  convergenceRun := none
  authTerminalFired := false
  lastTerminalReason := none

def State.kept (s : State σ π) : Leftover π where
  memory := s.memory
  frames := s.pendingPreloginInboundFrames
  sessionState := s.sessionState
  bootstrapCompleted := s.bootstrapCompleted
  syncCoordinator := { s.syncCoordinator with generation := 0 }
  convergenceRun := s.convergenceRun
  authTerminalFired := s.authTerminalFired
  lastTerminalReason := s.lastTerminalReason

/--
What a command leaves to the next owner.  What it sets itself, whatever was there,
counts as nothing.
-/
def State.leftover (s : State σ π) : OwnerCommand ω → Leftover π
  | .switchLocalAccount _ _ =>
      { Leftover.nothing with convergenceRun := s.convergenceRun }
  | .authenticate _ _ _ =>
      { Leftover.nothing with convergenceRun := s.convergenceRun }
  | .login _ _ => { s.kept with sessionState := .new }
  | .register _ _ => { s.kept with sessionState := .new }
  | .setCurrentUid _ => { s.kept with bootstrapCompleted := false }
  | .clearLocalState _ =>
      { s.kept with
        sessionState := .new
        bootstrapCompleted := false
        syncCoordinator := .new
        convergenceRun := none }
  | .wipeCurrentUserFull =>
      { s.kept with
        memory := s.memory.clearPresenceCache
        sessionState := .new
        bootstrapCompleted := false }

/--
The user leaves nothing behind that `items` of the next one can meet: nothing
waits, none of their keys is remembered, and the command clears the rest.
-/
structure State.LeavesNothing
    (s : State σ π) (c : OwnerCommand ω) (items : List (Entry π)) : Prop where
  queue : s.receivePipeline.queue = []
  keys : ∀ e ∈ items, entryKey e ∉ s.receivePipeline.recentKeys
  leftover : s.leftover c = .nothing

/-- Every session is the same as itself. -/
theorem State.after_same
    (host : SessionHost σ π ω) (cur : Option String) (stores : String → σ)
    (events : List (Event π ω)) :
    SameOwner (fun _ => True) ∅ (fun _ => False) 0 0
      (State.after host (State.boot host cur stores) events)
      (State.after host (State.boot host cur stores) events) := by
  refine EventRun.run_invariant
    (fun s : State σ π => SameOwner (fun _ => True) ∅ (fun _ => False) 0 0 s s)
    (fun s e h => (h.step (by simp) host e (by simp) ?_).2.2) ?_ events
  · cases e with
    | traffic t =>
        trivial
    | owner c =>
        exact fun _ _ hfalse => hfalse
  · exact
      { uid := rfl
        visible := fun _ _ hfalse => hfalse
        sessionState := rfl
        bootstrapCompleted := rfl
        syncCoordinator := .refl _
        convergenceRun := rfl
        authTerminalFired := rfl
        lastTerminalReason := rfl
        epoch := rfl
        frames := rfl
        framesOwn := fun _ _ _ _ => trivial
        pipeline :=
          { queue := rfl
            waiting := fun _ _ => trivial
            limit := rfl
            limit' := rfl
            orders := ⟨[], [], [], rfl, rfl, by simp, by simp, by simp⟩
            left := ReceivePipeline.wellKept_new _
            right := ReceivePipeline.wellKept_new _ }
        memory := rfl
        stores := fun _ _ => rfl }

theorem State.replayPreloginInboundFrames_frame
    (host : Host σ π ω) (env : ω) (s : State σ π) :
    (s.replayPreloginInboundFrames host env).2.currentUid = s.currentUid ∧
      ∀ u, s.currentUid ≠ some u →
        (s.replayPreloginInboundFrames host env).2.stores u = s.stores u := by
  cases huid : s.currentUid with
  | none =>
      rw [State.replayPreloginInboundFrames_none huid]
      exact ⟨huid, fun _ _ => rfl⟩
  | some uid =>
      rw [State.replayPreloginInboundFrames_some huid]
      refine ⟨huid, fun u hu => ?_⟩
      have hne : u ≠ uid := fun heq => hu (heq ▸ rfl)
      simp [State.withActive, Function.update_of_ne hne]

/-- A sync run of a user leaves the data of everybody else as it is. -/
theorem State.runSync_frame
    (s : State σ π) (uid : String) (requestsLeft : Option Nat) (x : SyncM σ π α) :
    (s.runSync uid requestsLeft x).2.2.currentUid = s.currentUid ∧
      ∀ u, u ≠ uid → (s.runSync uid requestsLeft x).2.2.stores u = s.stores u := by
  refine ⟨rfl, fun u hu => ?_⟩
  simp [State.runSync, State.withSyncWork, State.withActive, Function.update_of_ne hu]

/-- Traffic leaves the owner, and the databases of everybody else, as they are. -/
theorem State.traffic_frame
    (host : SessionHost σ π ω) (base : Int) (s : State σ π) (event : Traffic π ω) :
    (s.traffic host base event).2.currentUid = s.currentUid ∧
      ∀ u, s.currentUid ≠ some u →
        (s.traffic host base event).2.stores u = s.stores u := by
  have hne {uid u : String} (huid : s.currentUid = some uid)
      (hu : s.currentUid ≠ some u) : u ≠ uid :=
    fun heq => hu (heq ▸ huid)
  -- what a sync run of the user keeps
  have hrun {β : Type} {uid : String} (huid : s.currentUid = some uid)
      (left : Option Nat) (x : SyncM σ π β) :
      (s.runSync uid left x).2.2.currentUid = s.currentUid ∧
        ∀ u, s.currentUid ≠ some u →
          (s.runSync uid left x).2.2.stores u = s.stores u :=
    ⟨(s.runSync_frame uid left x).1,
      fun u hu => (s.runSync_frame uid left x).2 u (hne huid hu)⟩
  cases event with
  | request request =>
      simp only [State.traffic]
      split
      · exact ⟨rfl, fun _ _ => rfl⟩
      · rename_i uid huid
        split
        · refine ⟨rfl, fun u hu => ?_⟩
          simp [State.withActive, Function.update_of_ne (hne huid hu)]
        · exact ⟨rfl, fun _ _ => rfl⟩
  | inboundFrame env epoch frame =>
      simp only [State.traffic]
      split
      · exact ⟨rfl, fun _ _ => rfl⟩
      · split
        · cases frame <;> exact ⟨rfl, fun _ _ => rfl⟩
        · rename_i uid huid
          refine ⟨rfl, fun u hu => ?_⟩
          simp [State.withActive, Function.update_of_ne (hne huid hu)]
  | drainProjectionRepairs env now =>
      simp only [State.traffic]
      split
      · exact ⟨rfl, fun _ _ => rfl⟩
      · rename_i uid huid
        refine ⟨rfl, fun u hu => ?_⟩
        simp [Function.update_of_ne (hne huid hu)]
  | converge pass =>
      simp only [State.traffic]
      split
      · exact ⟨rfl, fun _ _ => rfl⟩
      · rename_i uid huid
        split
        · exact hrun huid none _
        · exact ⟨rfl, fun _ _ => rfl⟩
  | antiEntropy pass =>
      simp only [State.traffic]
      split
      · exact ⟨rfl, fun _ _ => rfl⟩
      · rename_i uid huid
        split
        · exact hrun huid none _
        · exact ⟨rfl, fun _ _ => rfl⟩
  | ensureSynced run =>
      simp only [State.traffic]
      split
      · exact ⟨rfl, fun _ _ => rfl⟩
      · rename_i uid huid
        split
        · exact hrun huid run.requestsLeft _
        · exact ⟨rfl, fun _ _ => rfl⟩
  | reconnect env requested =>
      have hrestored : (s.restoreSession host).currentUid = s.currentUid ∧
          (s.restoreSession host).stores = s.stores := by
        simp only [State.restoreSession]
        split
        · exact ⟨rfl, rfl⟩
        · exact ⟨rfl, rfl⟩
      obtain ⟨huid, hframe⟩ := State.replayPreloginInboundFrames_frame host.toHost env
        (State.connected { s.restoreSession host with
          lastTerminalReason := if requested then none
            else (s.restoreSession host).lastTerminalReason })
      refine ⟨huid.trans hrestored.1, fun u hu => ?_⟩
      exact (hframe u (fun heq => hu (hrestored.1 ▸ heq))).trans
        (congrFun hrestored.2 u)
  | transportLost =>
      simp only [State.traffic]
      split
      · exact ⟨rfl, fun _ _ => rfl⟩
      · exact ⟨rfl, fun _ _ => rfl⟩
  | forcedLogout reason =>
      simp only [State.traffic]
      split
      · exact ⟨rfl, fun _ _ => rfl⟩
      · exact ⟨rfl, fun _ _ => rfl⟩
  | getCachedPresence | takePendingEvents | getStatus | networkOnline | disconnect =>
      exact ⟨rfl, fun _ _ => rfl⟩

/-- Whatever user `A` does, the databases of the others stay as they were. -/
theorem State.used_frame
    (host : SessionHost σ π ω) (s : State σ π) {A : String}
    (hA : s.currentUid = some A) (history : List (Traffic π ω)) :
    (s.used host history).currentUid = some A ∧
      ∀ u, u ≠ A → (s.used host history).stores u = s.stores u := by
  refine EventRun.run_invariant
    (fun r : State σ π => r.currentUid = some A ∧
      ∀ u, u ≠ A → r.stores u = s.stores u)
    ?_ ⟨hA, fun _ _ => rfl⟩ history
  rintro r e ⟨huid, hstores⟩
  obtain ⟨hkept, hframe⟩ := r.traffic_frame host 0 e
  refine ⟨hkept.trans huid, fun u hu => ?_⟩
  rw [hframe u (by rw [huid]; simpa using Ne.symm hu), hstores u hu]

theorem State.used_eq_after
    (host : SessionHost σ π ω) (s : State σ π) (history : List (Traffic π ω)) :
    s.used host history = s.after host (history.map Event.traffic) := by
  unfold State.used State.after
  induction history generalizing s with
  | nil =>
      rfl
  | cons e history ih =>
      exact ih (s.traffic host 0 e).2

/-- The pipeline of a used session is like itself. -/
theorem State.used_alike
    (host : SessionHost σ π ω) (cur : Option String) (stores : String → σ)
    (before : List (Event π ω)) (history : List (Traffic π ω)) :
    let s := (State.after host (State.boot host cur stores) before).used host history
    Alike (fun _ => True) ∅ s.receivePipeline s.receivePipeline := by
  intro s
  have hused : s = State.after host (State.boot host cur stores)
      (before ++ history.map Event.traffic) := by
    simp only [s, State.used_eq_after, State.after, EventRun.run_append]
  rw [hused]
  exact (State.after_same host cur stores _).pipeline

/-- Two empty pipelines are alike, whatever keys they remember. -/
theorem Alike.of_empty
    {p q : ReceivePipeline π} (own : Entry π → Prop)
    (hp : Alike (fun _ => True) ∅ p p) (hq : Alike (fun _ => True) ∅ q q)
    (hpe : p.queue = []) (hqe : q.queue = []) :
    Alike own (p.recentKeys ∪ q.recentKeys) p q where
  queue := hpe.trans hqe.symm
  waiting := by simp [ReceivePipeline.waiting, hpe, entriesOf]
  limit := hp.limit
  limit' := hq.limit
  orders := by
    refine ⟨p.recentKeyOrder, q.recentKeyOrder, [], by simp, by simp, ?_, ?_,
      by simp⟩
    · intro k hk
      rw [Finset.mem_union, hp.left.keys, List.mem_toFinset]
      exact Or.inl hk
    · intro k hk
      rw [Finset.mem_union, hq.left.keys, List.mem_toFinset]
      exact Or.inr hk
  left := hp.left
  right := hq.left

/-- Counting the epochs from the present one is always possible. -/
theorem SameOwner.rebase
    {s t : State σ π} {own : Entry π → Prop} {old : Finset String}
    {hidden : String → Prop} {base base' : Int}
    (h : SameOwner own old hidden base base' s t) :
    SameOwner own old hidden s.inboundEpoch t.inboundEpoch s t :=
  { h with epoch := by omega }

/-- Sessions that keep the same are the same, whatever their pipelines remember. -/
theorem SameOwner.of_kept
    {s t : State σ π} {own : Entry π → Prop} {old : Finset String}
    {hidden : String → Prop} {base base' : Int}
    (huid : s.currentUid = t.currentUid)
    (hvisible : ∀ u, s.currentUid = some u → ¬ hidden u)
    (hkept : s.kept = t.kept) (hframes : s.kept.frames = [])
    (hepoch : s.inboundEpoch - base = t.inboundEpoch - base')
    (hpipeline : Alike own old s.receivePipeline t.receivePipeline)
    (hstores : ∀ u, ¬ hidden u → s.stores u = t.stores u) :
    SameOwner own old hidden base base' s t where
  uid := huid
  visible := hvisible
  sessionState := congrArg Leftover.sessionState hkept
  bootstrapCompleted := congrArg Leftover.bootstrapCompleted hkept
  syncCoordinator := by
    have hcoordinator := congrArg Leftover.syncCoordinator hkept
    exact ⟨t.syncCoordinator.generation, (congrArg (fun c : SyncCoordinator =>
      { c with generation := t.syncCoordinator.generation }) hcoordinator).symm⟩
  convergenceRun := congrArg Leftover.convergenceRun hkept
  authTerminalFired := congrArg Leftover.authTerminalFired hkept
  lastTerminalReason := congrArg Leftover.lastTerminalReason hkept
  epoch := hepoch
  frames := congrArg Leftover.frames hkept
  framesOwn := by
    intro frame hframe
    rw [show s.pendingPreloginInboundFrames = [] from hframes] at hframe
    cases hframe
  pipeline := hpipeline
  memory := congrArg Leftover.memory hkept
  stores := hstores

/-- After a change of owner that leaves nothing, the sessions are the same. -/
theorem State.changeOwner_same
    {own : Entry π → Prop} {old : Finset String} {A : String}
    (hfresh : ∀ e, own e → entryKey e ∉ old)
    (host : SessionHost σ π ω) {s t : State σ π} (c : OwnerCommand ω)
    (hs : s.currentUid = some A) (ht : t.currentUid = some A)
    (hc : ∀ u, c.owner = some u → u ≠ A)
    (hpipeline : Alike own old s.receivePipeline t.receivePipeline)
    (hstores : ∀ u, u ≠ A → s.stores u = t.stores u)
    (hsleft : s.leftover c = .nothing) (htleft : t.leftover c = .nothing) :
    (s.changeOwner host c).1 = (t.changeOwner host c).1 ∧
      (s.changeOwner host c).1.HandsOwn own ∧
      SameOwner own old (fun u => u = A)
        (s.changeOwner host c).2.inboundEpoch
        (t.changeOwner host c).2.inboundEpoch
        (s.changeOwner host c).2 (t.changeOwner host c).2 := by
  have hne {uid : String} (hu : c.owner = some uid) : A ≠ uid :=
    Ne.symm (hc uid hu)
  have hleft : s.leftover c = t.leftover c := hsleft.trans htleft.symm
  have hframes : (s.leftover c).frames = [] := congrArg Leftover.frames hsleft
  have hepoch (r r' : State σ π) :
      r.inboundEpoch - r.inboundEpoch = r'.inboundEpoch - r'.inboundEpoch := by
    simp
  -- the others see no write to the data of `A`, and the same write to their own
  have hwritten (uid : String) (f : σ → σ) : ∀ u, ¬ u = A →
      Function.update s.stores uid (f (s.stores uid)) u =
        Function.update t.stores uid (f (t.stores uid)) u := by
    intro u hu
    simp only [Function.update_apply]
    split
    · rename_i heq
      rw [hstores uid (heq ▸ hu)]
    · exact hstores u hu
  have hlogin (uid : String) (env : ω) (hu : ∀ u, some uid = some u → u ≠ A)
      (hleft : { s.kept with sessionState := .new } =
        { t.kept with sessionState := .new })
      (hframes : s.pendingPreloginInboundFrames = []) :
      (s.loggedIn host env uid).1 = (t.loggedIn host env uid).1 ∧
        (s.loggedIn host env uid).1.HandsOwn own ∧
        SameOwner own old (fun u => u = A) (s.loggedIn host env uid).2.inboundEpoch
          (t.loggedIn host env uid).2.inboundEpoch
          (s.loggedIn host env uid).2 (t.loggedIn host env uid).2 := by
    have hentered : SameOwner own old (fun u => u = A) s.inboundEpoch t.inboundEpoch
        { s.saveLogin host uid with
          currentUid := some uid, sessionState := .loggedIn }
        { t.saveLogin host uid with
          currentUid := some uid, sessionState := .loggedIn } := by
      refine SameOwner.of_kept rfl hu ?_ ?_ ?_ hpipeline
        (hwritten uid host.saveLogin)
      · exact congrArg (fun l : Leftover π => { l with sessionState := .loggedIn })
          hleft
      · exact hframes
      · exact hepoch s t
    obtain ⟨hout, hown, hsame⟩ :=
      hentered.replayPreloginInboundFrames hfresh host.toHost env
    exact ⟨hout, hown, hsame.rebase⟩
  cases c with
  | switchLocalAccount uid nowMs =>
      refine ⟨rfl, Output.silent_handsOwn,
        SameOwner.of_kept rfl hc ?_ rfl (hepoch _ _) hpipeline hstores⟩
      simp only [State.changeOwner, ← hstores uid (hc uid rfl)]
      exact congrArg (fun l : Leftover π =>
        { l with
          bootstrapCompleted := (host.loadSession (s.stores uid)).getD false
          syncCoordinator := SyncCoordinator.new.abandon nowMs }) hleft
  | authenticate env uid nowMs =>
      have hreset {r : State σ π} (hr : r.currentUid = some A) :
          r.resetIfOwnerChanged uid nowMs = r.resetSessionScopedState nowMs := by
        simp [State.resetIfOwnerChanged, hr, hne rfl]
      have hentered : SameOwner own old (fun u => u = A)
          (s.inboundEpoch + 1) (t.inboundEpoch + 1)
          ((s.resetSessionScopedState nowMs).authenticated host uid)
          ((t.resetSessionScopedState nowMs).authenticated host uid) := by
        refine SameOwner.of_kept rfl hc ?_ rfl (hepoch _ _) hpipeline
          (hwritten uid host.saveLogin)
        simp only [State.authenticated, State.resetSessionScopedState,
          ← hstores uid (hc uid rfl)]
        exact congrArg (fun l : Leftover π =>
          { l with
            sessionState := .authenticated
            bootstrapCompleted := storedBootstrapCompleted host (s.stores uid)
            syncCoordinator := SyncCoordinator.new.abandon nowMs }) hleft
      obtain ⟨hout, hown, hsame⟩ := hentered.reconnected hfresh host.toHost env
      simp only [State.changeOwner, hreset hs, hreset ht]
      exact ⟨hout, hown, hsame.rebase⟩
  | login env uid =>
      exact hlogin uid env hc hleft hframes
  | register env uid =>
      exact hlogin uid env hc hleft hframes
  | setCurrentUid uid =>
      have hother {r : State σ π} (hr : r.currentUid = some A) :
          r.currentUid ≠ some uid := by
        simp [hr, hne rfl]
      simp only [State.changeOwner, if_neg (hother hs), if_neg (hother ht)]
      refine ⟨trivial, Output.silent_handsOwn,
        SameOwner.of_kept rfl hc ?_ ?_ (hepoch s t) hpipeline hstores⟩
      · simp only [← hstores uid (hc uid rfl)]
        exact congrArg (fun l : Leftover π =>
          { l with bootstrapCompleted :=
              storedBootstrapCompleted host (s.stores uid) }) hleft
      · exact hframes
  | clearLocalState nowMs =>
      simp only [State.changeOwner, hs, ht]
      refine ⟨trivial, Output.silent_handsOwn,
        SameOwner.of_kept rfl nofun ?_ ?_ (hepoch s t) hpipeline
          (hwritten A host.clearSession)⟩
      · exact congrArg (fun l : Leftover π =>
          { l with
            sessionState := .connected
            syncCoordinator := SyncCoordinator.new.abandon nowMs
            memory := { l.memory with
              pendingEvents := l.memory.pendingEvents ++
                [SdkEvent.syncStateChanged
                  (SyncCoordinator.new.abandon nowMs).snapshot] } }) hleft
      · exact hframes
  | wipeCurrentUserFull =>
      simp only [State.changeOwner, hs, ht]
      refine ⟨trivial, Output.silent_handsOwn,
        SameOwner.of_kept rfl nofun ?_ ?_ (hepoch s t) hpipeline
          (hwritten A (fun _ => host.wiped))⟩
      · exact congrArg (fun l : Leftover π => { l with sessionState := .connected })
          hleft
      · exact hframes

/-- Sessions that are the same show the same in every run. -/
theorem SameOwner.run
    {own : Entry π → Prop} {old : Finset String} {hidden : String → Prop}
    {base base' : Int} (hfresh : ∀ e, own e → entryKey e ∉ old)
    {s t : State σ π} (h : SameOwner own old hidden base base' s t)
    (host : SessionHost σ π ω) (shown : List (Output π))
    (hshown : ∀ o ∈ shown, o.HandsOwn own) (events : List (Event π ω))
    (hevents : ∀ e ∈ events, (∀ x ∈ e.entries, own x) ∧ e.Avoids hidden) :
    let r := EventRun.run (Trace.step host base)
      { state := s, outputs := shown } events
    let r' := EventRun.run (Trace.step host base')
      { state := t, outputs := shown } events
    r.outputs = r'.outputs ∧ (∀ o ∈ r.outputs, o.HandsOwn own) ∧
      SameOwner own old hidden base base' r.state r'.state := by
  refine EventRun.run_related (s := Trace.mk s shown) (t := Trace.mk t shown)
    (fun r r' : Trace σ π => r.outputs = r'.outputs ∧
      (∀ o ∈ r.outputs, o.HandsOwn own) ∧
        SameOwner own old hidden base base' r.state r'.state)
    (fun e : Event π ω => (∀ x ∈ e.entries, own x) ∧ e.Avoids hidden)
    ?_ ⟨rfl, hshown, h⟩ hevents
  rintro r r' e ⟨hown, havoid⟩ ⟨houts, hhands, hsame⟩
  obtain ⟨hout, hhand, hstep⟩ := hsame.step hfresh host e hown havoid
  refine ⟨by simp only [Trace.step, houts, hout], fun o ho => ?_, hstep⟩
  rcases List.mem_append.mp ho with ho | ho
  · exact hhands o ho
  · rw [List.mem_singleton] at ho
    exact ho ▸ hhand

/-- A switch to user `uid` at `switchedMs` that is followed by a login. -/
def State.switchedAndAuthenticated
    (host : SessionHost σ π ω) (s : State σ π) (uid : String) (switchedMs : Int)
    (env : ω) (nowMs : Int) : State σ π :=
  ((s.changeOwner host (.switchLocalAccount uid switchedMs)).2.changeOwner host
    (.authenticate env uid nowMs)).2

/-- What the previous user left in the queue or to converge is still there. -/
theorem State.switchedAndAuthenticated_spec
    (host : SessionHost σ π ω) (s : State σ π) (uid : String) (switchedMs : Int)
    (env : ω) (nowMs : Int) :
    let t := s.switchedAndAuthenticated host uid switchedMs env nowMs
    t.currentUid = some uid ∧ t.sessionState = .authenticated ∧
      t.bootstrapCompleted = storedBootstrapCompleted host (s.stores uid) ∧
      t.receivePipeline.queue = s.receivePipeline.queue ∧
      t.convergenceRun = s.convergenceRun ∧
      t.syncCoordinator.convergenceNextRetryAtMs = none := by
  intro t
  have hreset {r : State σ π} (hr : r.currentUid = some uid) :
      r.resetIfOwnerChanged uid nowMs = r := by
    simp only [State.resetIfOwnerChanged, hr]
    exact if_neg (fun hne => hne rfl)
  have hwaiting (c : SyncCoordinator) :
      c.noteNetworkAvailable.convergenceNextRetryAtMs = none := by
    simp only [SyncCoordinator.noteNetworkAvailable]
    split <;> split <;> rfl
  have ht : t = (State.reconnected host.toHost env
      ((s.changeOwner host (.switchLocalAccount uid switchedMs)).2.authenticated
        host uid)).2 := by
    change (State.reconnected host.toHost env
      ((State.resetIfOwnerChanged _ uid nowMs).authenticated host uid)).2 = _
    rw [hreset rfl]
  rw [ht]
  exact ⟨rfl, rfl, rfl, rfl, rfl, hwaiting _⟩

theorem State.next_traffic
    (host : SessionHost σ π ω) (s : State σ π) (c c' : OwnerCommand ω)
    (event : Traffic π ω) :
    (((s.changeOwner host c).2.changeOwner host c').2.traffic host
        (s.changeOwner host c).2.inboundEpoch event).1 ∈
      (s.next host c [.owner c', .traffic event]).outputs :=
  List.mem_append_right _ List.mem_cons_self

/-- A sync that brings nothing itself. -/
def emptyPull (entityType : String) : SyncPull π where
  entityType := entityType
  scope := none
  replies := []
  complete := true

/-- What is left in the queue is handed to the next owner's database. -/
theorem queued_batch_reaches_next
    (host : SessionHost σ π ω) (s : State σ π) (uid : String)
    (switchedMs nowMs : Int) (env : ω) (entityType : String)
    {batch : SyncBatch π} {queue : List (SyncBatch π)}
    (hqueue : s.receivePipeline.queue = batch :: queue) :
    ∃ o ∈ (s.next host (.switchLocalAccount uid switchedMs)
        [.owner (.authenticate env uid nowMs),
          .traffic (.request (.syncEntities env (emptyPull entityType)))]).outputs,
      ∃ r ∈ o.results, batch ∈ r.handed := by
  have hhanded (apply : σ → SyncBatch π → Except Unit (List SdkEvent) × σ)
      (store : σ) : batch ∈ (applyDrained apply store (batch :: queue)).handed := by
    simp only [applyDrained]
    split
    · exact List.mem_cons_self
    · exact List.mem_cons_self
  have hresult (a : Active σ π) (ha : a.pipeline.queue = batch :: queue) :
      batch ∈ (a.syncEntities host.toHost env (emptyPull entityType)).1.handed := by
    simp only [Active.syncEntities, emptyPull, enqueueReplies, Active.drain,
      drainBatches_eq, ha, if_true]
    split
    · split
      · exact hhanded _ _
      · exact hhanded _ _
    · exact hhanded _ _
  obtain ⟨huid, hstate, -, hkept, -, -⟩ :=
    s.switchedAndAuthenticated_spec host uid switchedMs env nowMs
  refine ⟨_, s.next_traffic host _ _ _, ?_⟩
  change ∃ r ∈ (State.traffic host _ (s.switchedAndAuthenticated host uid switchedMs
    env nowMs) _).1.results, _
  have hadmits : State.admits (ω := ω)
      (s.switchedAndAuthenticated host uid switchedMs env nowMs)
      (.syncEntities env (emptyPull entityType)) = true := by
    simp [State.admits, hstate]
  simp only [State.traffic, huid, hadmits, if_true]
  exact ⟨_, List.mem_cons_self, hresult (State.active _ uid) (hkept.trans hqueue)⟩

/-- A pass that finds all channels as the server has them. -/
def ScanPass.FindsConverged
    (host : SessionHost σ π ω) (pass : ScanPass π ω) : Prop :=
  pass.preempted = false ∧ pass.calls = [] ∧
    ∀ store, ∃ page, (host.finishScan pass.env store).1 = .ok page ∧
      page.isConverged = true

/-- A converged pass reports the run that was left to converge. -/
theorem converge_reports
    (host : SessionHost σ π ω) {pass : ScanPass π ω} (hpass : pass.FindsConverged host)
    {w : SyncWork σ π} {stats : ResumeRunStats}
    (hrun : w.convergenceRun = some stats) (hbootstrapped : w.bootstrapCompleted = true)
    (hdue : w.syncCoordinator.convergenceRetryReady pass.nowMs = true) :
    SdkEvent.resumeSyncCompleted stats.entityTypesSynced stats.channelsScanned
        stats.channelsApplied stats.channelFailures ∈
      (converge host pass () w).2.reported := by
  obtain ⟨hpreempted, hcalls, hscan⟩ := hpass
  obtain ⟨page, hpage, hconverged⟩ := hscan w.active.store
  have hscanned : runAntiEntropyOnce host pass () w =
      (.ok page, w.withStore (host.finishScan pass.env w.active.store).2) := by
    simp [runAntiEntropyOnce, runAntiEntropyOnce.finish, scan, hcalls, scanCalls,
      gets, bind_run, hbootstrapped, hpage, Except.mapError]
  simp [converge, gets, bind_run, hrun, hdue, hpreempted, attempt, hscanned, notePage,
    hconverged, modify, advance, SyncWork.withStore, SyncWork.push, SyncWork.emit,
    Active.push]

/--
The resume of the previous user is reported to the next one, by the first pass that
finds the channels of the next one converged.
-/
theorem converged_run_reaches_next
    (host : SessionHost σ π ω) (s : State σ π) (uid : String)
    (switchedMs nowMs : Int) (env : ω) {pass : ScanPass π ω}
    (hpass : pass.FindsConverged host) {stats : ResumeRunStats}
    (hrun : s.convergenceRun = some stats)
    (hbootstrapped : storedBootstrapCompleted host (s.stores uid) = true) :
    ∃ o ∈ (s.next host (.switchLocalAccount uid switchedMs)
        [.owner (.authenticate env uid nowMs), .traffic (.converge pass)]).outputs,
      SdkEvent.resumeSyncCompleted stats.entityTypesSynced stats.channelsScanned
        stats.channelsApplied stats.channelFailures ∈ o.reported := by
  obtain ⟨huid, hstate, hcompleted, -, hkept, hdue⟩ :=
    s.switchedAndAuthenticated_spec host uid switchedMs env nowMs
  refine ⟨_, s.next_traffic host _ _ _, ?_⟩
  change _ ∈ (State.traffic host _ (s.switchedAndAuthenticated host uid switchedMs
    env nowMs) _).1.reported
  simp only [State.traffic, huid, hstate, beq_self_eq_true, if_true]
  refine converge_reports host hpass (hkept.trans hrun) (hcompleted.trans hbootstrapped) ?_
  simp [SyncCoordinator.convergenceRetryReady, State.syncWork, hdue]

end NextOwner

section Examples

/--
A user's database that lists what was applied, after a finished bootstrap; `false`
makes a batch fail.
-/
def listHost : SessionHost (List (Entry Unit)) Unit Bool where
  applySyncEntities := fun ok store batch _ =>
    if ok then (.ok [], store ++ batch.entries) else (.error (), store)
  saveSyncCursor := fun _ store _ => (true, store)
  deferMutation := fun _ store _ => store
  deletePendingMutation := fun _ store _ => (true, store)
  markMessageDelivered := fun _ store _ => (none, store)
  listMessages := fun _ _ _ _ => []
  repairMessageProjection := fun _ store _ => (.missing, store)
  wiped := []
  cacheConfig := none
  fullRebuildRequired := fun _ _ => false
  putRepairMarker := fun _ store _ => (.ok (), store)
  deleteRepairMarker := fun _ store _ => (.ok (), store)
  setBootstrapCompleted := fun _ store _ => (.ok (), store)
  hydrateSystemChannels := fun _ store => (.ok (), store)
  writeDuringScan := fun _ store => store
  finishScan := fun _ store => (.ok .idle, store)
  loadSession := fun _ => some true
  loadBootstrapCompleted := fun _ => true
  saveLogin := id
  clearSession := id

/-- A client of user 1 that has just started. -/
def listClient : State (List (Entry Unit)) Unit :=
  .boot listHost (some "1") (fun _ => [])

/-- A sync of one message. -/
def pullMessage (ok : Bool) (messageId : String) : Traffic Unit Bool :=
  .request (.syncEntities ok
    { entityType := "message", scope := none,
      replies := [.page [plainItem messageId 10]], complete := true })

/-- User 1 connects and syncs messages. -/
def firstUserSyncs (pulls : List (Traffic Unit Bool)) : List (Traffic Unit Bool) :=
  .reconnect true true :: pulls

/-- User 2 logs in and syncs messages. -/
def secondUserSyncs (pulls : List (Traffic Unit Bool)) : List (Event Unit Bool) :=
  .owner (.authenticate true "2" 1) :: pulls.map Event.traffic

end Examples

end Session
end PrivchatSdk
