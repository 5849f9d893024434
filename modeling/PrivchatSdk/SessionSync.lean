import PrivchatSdk.AntiEntropy
import PrivchatSdk.Lib.Exec
import PrivchatSdk.SessionWork

/-!
# The sync runs of a session

`ensure_synced` takes the session through a bootstrap or a resume, unless the
coordinator holds the run back.  A resume that ends well leaves its counts behind:
the repair tick then scans the channels, pass after pass, and the first pass that
finds all of them converged reports the resume as completed.  A run is dropped as
soon as a switch of the account is queued.

Both are statements over the fields of the session that they work on.  Two sessions
of one user after different histories (`SameSync`) stay so under each of them, with
equal results.
-/

namespace PrivchatSdk
namespace Session

open Receive StatementExec Exec

section Types

/-- An error, as far as the sync code tells it apart. -/
structure SyncError where
  /-- `is_unsupported_entity_error`. -/
  unsupportedEntity : Bool
  /-- `classify_resume_error`. -/
  classification : ResumeFailureClass
  authTerminal : Bool
  protocolCode : Nat
  message : String
  deriving DecidableEq, Repr

/-- How a run ends before its end. -/
inductive RunStop where
  | failed (err : SyncError)
  /-- Dropped for a queued switch of the account. -/
  | yielded
  deriving DecidableEq, Repr

structure ResumeRunStats where
  entityTypesSynced : Nat
  channelsScanned : Nat
  channelsApplied : Nat
  channelFailures : Nat
  deriving DecidableEq, Repr

/--
What the replies to one `sync_entities` are, and its error if it ends in one.  A call
that is dropped has enqueued these replies, and applied `drained` of its batches if
they were complete.
-/
structure PullAnswer (π : Type) where
  replies : List (SyncReply π)
  complete : Bool
  error : SyncError
  drained : Nat

/-- A call without a scope. -/
def PullAnswer.pull {π : Type} (answer : PullAnswer π) (entityType : String) :
    SyncPull π where
  entityType := entityType
  scope := none
  replies := answer.replies
  complete := answer.complete

/-- The calls for one family of a resume: the first, and the one of a resync. -/
structure FamilyAnswer (π : Type) where
  call : PullAnswer π
  resync : PullAnswer π

/-- What a resume failure is about; a family with the answer to its resync. -/
inductive ResumeFailureTarget (π : Type) where
  | global
  | entityType (entityType : String) (resync : PullAnswer π)

def ResumeFailureTarget.name {π : Type} : ResumeFailureTarget π → Option String
  | .global => none
  | .entityType family _ => some family

/-- Whether the resume goes on after a failure. -/
inductive ResumeFailureHandling where
  | goOn
  | abort
  deriving DecidableEq, Repr

/-- What calls `ensure_synced`. -/
inductive SyncTrigger where
  /-- A reconnection, an authentication, or the deadline of a failed run. -/
  | automatic
  | ensureSynced
  | runBootstrapSync
  deriving DecidableEq, Repr

/-- What a run of `ensure_synced` meets. -/
structure SyncRun (π ω : Type) where
  trigger : SyncTrigger
  /-- A switch of the account is queued before the run. -/
  switchPending : Bool
  /-- For the read that decides the kind of the run. -/
  decision : ω
  /-- For the reads and writes of the run. -/
  env : ω
  /-- The requests until a switch is queued, if one is queued meanwhile. -/
  requestsLeft : Option Nat
  /-- The answer to `session_ready` of a resume. -/
  resumeReady : Option SyncError
  families : String → FamilyAnswer π
  bootstrapFamilies : String → PullAnswer π
  bootstrapReady : Option SyncError
  beginMs : Int
  scheduledMs : Int
  endMs : Int

/-- A step of a convergence pass that changes the session. -/
inductive ScanCall (π ω : Type) where
  /-- A write to the database: a put-off mutation, a saved pts, a counted unread. -/
  | write (env : ω)
  /-- A commit of a channel's difference, or a mutation replayed after it. -/
  | commit (env : ω) (entry : Entry π)

/-- A commit that is dropped while the first `drained` batches are applied. -/
structure CutCommit (π ω : Type) where
  env : ω
  entry : Entry π
  drained : Nat

/-- What a pass of the convergence meets. -/
structure ScanPass (π ω : Type) where
  calls : List (ScanCall π ω)
  env : ω
  /-- The error of a commit that fails. -/
  error : SyncError
  /-- A conversation is opened after these calls, and the pass is dropped. -/
  preempted : Bool
  /-- The commit that a dropped pass was at. -/
  cut : Option (CutCommit π ω)
  nowMs : Int

/-- What the sync runs and the changes of owner ask of the stored data besides. -/
structure SessionHost (σ π ω : Type) extends Host σ π ω where
  /-- `full_rebuild_required`. -/
  fullRebuildRequired : ω → σ → Bool
  /-- The marker of a family that needs a resync, or of a full rebuild. -/
  putRepairMarker : ω → σ → Option String → Except SyncError Unit × σ
  deleteRepairMarker : ω → σ → Option String → Except SyncError Unit × σ
  setBootstrapCompleted : ω → σ → Bool → Except SyncError Unit × σ
  hydrateSystemChannels : ω → σ → Except SyncError Unit × σ
  writeDuringScan : ω → σ → σ
  /-- What `run_anti_entropy_once` returns once its differences are applied. -/
  finishScan : ω → σ → Except SyncError AntiEntropyPage × σ
  /-- The bootstrap flag of the stored session, if there is a session. -/
  loadSession : σ → Option Bool
  loadBootstrapCompleted : σ → Bool
  saveLogin : σ → σ
  clearSession : σ → σ

end Types

section Statements

variable {σ π ω α : Type}

/-- The fields of the session that a sync run works on. -/
structure SyncWork (σ π : Type) where
  active : Active σ π
  bootstrapCompleted : Bool
  convergenceRun : Option ResumeRunStats
  syncCoordinator : SyncCoordinator
  requestsLeft : Option Nat
  /-- The sync calls made. -/
  results : List (SyncResult π)
  /-- The events emitted at once. -/
  reported : List SdkEvent

abbrev SyncM (σ π α : Type) : Type :=
  Exec Unit (SyncWork σ π) RunStop α

def gets (f : SyncWork σ π → α) : SyncM σ π α :=
  fun _ w => (.ok (f w), w)

def modify (f : SyncWork σ π → SyncWork σ π) : SyncM σ π Unit :=
  fun _ w => (.ok (), f w)

def SyncWork.withStore (w : SyncWork σ π) (store : σ) : SyncWork σ π :=
  { w with active := { w.active with store := store } }

def SyncWork.push (w : SyncWork σ π) (events : List SdkEvent) : SyncWork σ π :=
  { w with active := w.active.push events }

def SyncWork.emit (w : SyncWork σ π) (events : List SdkEvent) : SyncWork σ π :=
  { w with reported := w.reported ++ events }

def writeStore (f : σ → Except SyncError Unit × σ) : SyncM σ π Unit :=
  fun _ w => ((f w.active.store).1.mapError RunStop.failed,
    w.withStore (f w.active.store).2)

/-- A call of the coordinator. -/
def advance (op : SyncOp) (nowMs : Int) : SyncM σ π Unit :=
  modify (fun w => { w with syncCoordinator := w.syncCoordinator.apply nowMs op })

def emitSyncState : SyncM σ π Unit :=
  modify (fun w => w.emit [.syncStateChanged w.syncCoordinator.snapshot])

/-- A request without data; the run may be dropped while it waits. -/
def request (answer : Option SyncError) : SyncM σ π Unit :=
  fun _ w =>
    match w.requestsLeft with
    | some 0 => (.error .yielded, w)
    | left =>
        ((match answer with
          | none => .ok ()
          | some err => .error (.failed err)),
          { w with requestsLeft := left.map (fun n => n - 1) })

/-- A statement with its failure; a run that is dropped stays so. -/
def trying (x : SyncM σ π α) : SyncM σ π (Except SyncError α) := do
  let result ← attempt x
  match result with
  | .ok a => pure (.ok a)
  | .error (.failed err) => pure (.error err)
  | .error .yielded => fail .yielded

/-- `sync_entities` of a run; its value is the count of applied items. -/
def syncEntities (host : Host σ π ω) (env : ω) (entityType : String)
    (answer : PullAnswer π) : SyncM σ π Nat :=
  fun _ w =>
    match w.requestsLeft with
    | some 0 =>
        let (r, a) := w.active.dropSync host env (answer.pull entityType)
          answer.drained
        (.error .yielded, { w with active := a, results := w.results ++ [r] })
    | left =>
        let (r, a) := w.active.syncEntities host env (answer.pull entityType)
        (if r.ok then .ok r.applied else .error (.failed answer.error),
          { w with
            active := a
            requestsLeft := left.map (fun n => n - 1)
            results := w.results ++ [r] })

end Statements

section Runs

variable {σ π ω : Type}

def bootstrapEntityOrder : List String :=
  ["friend", "group", "channel", "user", "channel_read_cursor", "user_block"]

def resumeEntityOrder : List String :=
  ["friend", "group", "channel", "user", "channel_read_cursor"]

def convergenceStartGraceMs : Int := 5000

def resumeEscalationScope (classification : ResumeFailureClass)
    (target : ResumeFailureTarget π) : ResumeEscalationScope :=
  match classification with
  | .retryableTemporaryError => .retry
  | .channelResyncRequired => .channelScopedResync
  | .entityResyncRequired => .entityScopedResync
  | .fullRebuildRequired => .fullRebuild
  | .fatalProtocolError =>
      match target with
      | .entityType _ _ => .entityScopedResync
      | .global => .fullRebuild

/-- `queue_sync_summary_event`: the counts are those of the last call that counted. -/
def emitSyncSummary (entityType : String) (applied : Nat) : SyncM σ π Unit :=
  modify (fun w => w.emit [.syncEntitiesApplied entityType none
    w.active.memory.lastSyncQueued applied
    w.active.memory.lastSyncDroppedDuplicates])

def executeEntityScopedResync (host : SessionHost σ π ω) (env : ω)
    (entityType : String) (resync : PullAnswer π) : SyncM σ π Unit := do
  writeStore (fun store => host.putRepairMarker env store (some entityType))
  let applied ← syncEntities host.toHost env entityType resync
  writeStore (fun store => host.deleteRepairMarker env store (some entityType))
  modify (fun w =>
    { w with active := w.active.queueLastSyncEvents entityType none applied })

def executeFullRebuildRequired (host : SessionHost σ π ω) (env : ω) :
    SyncM σ π Unit := do
  writeStore (fun store => host.putRepairMarker env store none)
  modify (fun w => { w with bootstrapCompleted := false })
  writeStore (fun store => host.setBootstrapCompleted env store false)

/-- The end of a failure that nothing could repair. -/
def abortResume (classification : ResumeFailureClass)
    (scope : ResumeEscalationScope) (message : String) :
    SyncM σ π ResumeFailureHandling := do
  modify (fun w => w.push [.resumeSyncFailed classification scope message])
  pure .abort

def handleResumeFailure (host : SessionHost σ π ω) (env : ω)
    (target : ResumeFailureTarget π) (err : SyncError) :
    SyncM σ π ResumeFailureHandling := do
  let scope := resumeEscalationScope err.classification target
  modify (fun w => w.push
    [.resumeSyncEscalated err.classification scope err.message target.name])
  match scope, target with
  | .channelScopedResync, _ => pure .goOn
  | .entityScopedResync, .entityType entityType resync => do
      let resynced ← trying (executeEntityScopedResync host env entityType resync)
      match resynced with
      | .ok _ => pure .goOn
      | .error resyncErr =>
          abortResume err.classification scope resyncErr.message
  | .entityScopedResync, .global =>
      abortResume err.classification scope err.message
  | .retry, _ => abortResume err.classification scope err.message
  | .fullRebuild, _ => do
      let rebuilt ← trying (executeFullRebuildRequired host env)
      match rebuilt with
      | .ok _ => abortResume err.classification scope err.message
      | .error rebuildErr =>
          abortResume err.classification scope rebuildErr.message

/-- The families of a resume in their order; the value counts those synced. -/
def resumeFamilies (host : SessionHost σ π ω) (run : SyncRun π ω) :
    List String → Nat → SyncM σ π Nat
  | [], synced => pure synced
  | entityType :: rest, synced => do
      let pulled ← trying (syncEntities host.toHost run.env entityType
        (run.families entityType).call)
      match pulled with
      | .ok applied => do
          emitSyncSummary entityType applied
          resumeFamilies host run rest (synced + 1)
      | .error err =>
          if err.unsupportedEntity then
            resumeFamilies host run rest synced
          else do
            let handling ← handleResumeFailure host run.env
              (.entityType entityType (run.families entityType).resync) err
            match handling with
            | .goOn => resumeFamilies host run rest synced
            | .abort => fail (.failed err)

/--
`execute_resume_sync`.  The time of the last resume is never written, so its debounce
never skips one.
-/
def executeResumeSync (host : SessionHost σ π ω) (run : SyncRun π ω) :
    SyncM σ π Unit := do
  let completed ← gets SyncWork.bootstrapCompleted
  if completed then do
    modify (fun w => w.push [.resumeSyncStarted])
    let ready ← trying (request run.resumeReady)
    match ready with
    | .error err => do
        let _ ← handleResumeFailure host run.env .global err
        fail (.failed err)
    | .ok _ => do
        let synced ← resumeFamilies host run resumeEntityOrder 0
        modify (fun w =>
          { w with
            convergenceRun := some
              { entityTypesSynced := synced, channelsScanned := 0,
                channelsApplied := 0, channelFailures := 0 } })
        advance (.scheduleConvergence convergenceStartGraceMs) run.scheduledMs
  else
    pure ()

/-- The families of a bootstrap; one the server does not know counts as synced. -/
def bootstrapFamilies (host : SessionHost σ π ω) (run : SyncRun π ω) :
    List String → SyncM σ π Unit
  | [] => pure ()
  | entityType :: rest => do
      let pulled ← trying (syncEntities host.toHost run.env entityType
        (run.bootstrapFamilies entityType))
      match pulled with
      | .ok applied => do
          emitSyncSummary entityType applied
          bootstrapFamilies host run rest
      | .error err =>
          if err.unsupportedEntity then do
            emitSyncSummary entityType 0
            bootstrapFamilies host run rest
          else
            fail (.failed err)

/-- The part of `execute_bootstrap_sync` that syncs everything. -/
def bootstrapAll (host : SessionHost σ π ω) (run : SyncRun π ω) :
    SyncM σ π Unit := do
  bootstrapFamilies host run bootstrapEntityOrder
  modify (fun w => { w with bootstrapCompleted := true })
  writeStore (fun store => host.setBootstrapCompleted run.env store true)
  let _ ← attempt (writeStore (fun store =>
    host.deleteRepairMarker run.env store none))
  request run.bootstrapReady
  writeStore (fun store => host.hydrateSystemChannels run.env store)

/-- There is a finished bootstrap, and it need not be done again. -/
def SyncWork.resumes (host : SessionHost σ π ω) (env : ω) (w : SyncWork σ π) : Bool :=
  w.bootstrapCompleted && !host.fullRebuildRequired env w.active.store

def executeBootstrapSync (host : SessionHost σ π ω) (run : SyncRun π ω) :
    SyncM σ π Unit := do
  let resumes ← gets (SyncWork.resumes host run.env)
  if resumes then do
    let resumed ← trying (executeResumeSync host run)
    match resumed with
    | .ok _ => pure ()
    | .error err => do
        let rebuild ← gets (fun w => host.fullRebuildRequired run.env w.active.store)
        if rebuild then bootstrapAll host run else fail (.failed err)
  else
    bootstrapAll host run

/--
`ensure_synced_inner` of an authenticated session with no switch queued before it; its
value says whether the run took place.  No command is handled meanwhile, so the
generation it compares at the end is the one it began with.
-/
def ensureSyncedNow (host : SessionHost σ π ω) (run : SyncRun π ω) :
    SyncM σ π Bool := do
  let resumes ← gets (SyncWork.resumes host run.decision)
  let kind : SyncRunKind := if resumes then .resume else .bootstrap
  (if run.trigger = .runBootstrapSync then
    advance .noteExplicitRequest run.beginMs
  else pure ())
  let admitted ← gets (fun w => (w.syncCoordinator.begin kind run.beginMs).isOk)
  if admitted then do
    advance (.begin kind) run.beginMs
    emitSyncState
    let result ← attempt
      (if resumes then executeResumeSync host run else executeBootstrapSync host run)
    match result with
    | .ok _ => do
        advance (.complete kind) run.endMs
        emitSyncState
        pure true
    | .error .yielded => do
        advance .abandon run.endMs
        modify (fun w => { w with convergenceRun := none })
        pure false
    | .error (.failed err) => do
        advance (.fail kind err.authTerminal (some err.protocolCode) err.message)
          run.endMs
        emitSyncState
        fail (.failed err)
  else
    pure false

def ensureSyncedInner (host : SessionHost σ π ω) (run : SyncRun π ω) :
    SyncM σ π Bool :=
  if run.switchPending then pure false else ensureSyncedNow host run

end Runs

section Convergence

variable {σ π ω : Type}

/-- The calls of a pass, left at the first commit that fails. -/
def scanCalls (host : SessionHost σ π ω) (error : SyncError) :
    List (ScanCall π ω) → SyncM σ π Unit
  | [] => pure ()
  | .write env :: rest => do
      modify (fun w => w.withStore (host.writeDuringScan env w.active.store))
      scanCalls host error rest
  | .commit env e :: rest => do
      commit env e
      scanCalls host error rest
where
  /-- A commit is applied without counting it as unread. -/
  commit (env : ω) (e : Entry π) : SyncM σ π Unit :=
    fun _ w =>
      let (r, a) := w.active.enqueueAndApplySyncItems host.toHost env e.entityType
        e.scope [e.item] false
      if r.ok then
        (.ok (),
          { w with
            active := a.queueLastSyncEvents e.entityType e.scope r.applied
            results := w.results ++ [r] })
      else
        (.error (.failed error), { w with active := a, results := w.results ++ [r] })

/-- The calls of a pass, of which there are none before the bootstrap. -/
def scan (host : SessionHost σ π ω) (pass : ScanPass π ω) : SyncM σ π Unit := do
  let completed ← gets SyncWork.bootstrapCompleted
  if completed then scanCalls host pass.error pass.calls else pure ()

/-- The calls of a pass that is dropped, the last of them half way. -/
def scanUntilDropped (host : SessionHost σ π ω) (pass : ScanPass π ω) :
    SyncM σ π Unit := do
  let completed ← gets SyncWork.bootstrapCompleted
  if completed then do
    scanCalls host pass.error pass.calls
    match pass.cut with
    | none => pure ()
    | some c => cutCommit c
  else
    pure ()
where
  cutCommit (c : CutCommit π ω) : SyncM σ π Unit :=
    fun _ w =>
      let (r, a) := w.active.dropEnqueueAndApply host.toHost c.env
        c.entry.entityType c.entry.scope [c.entry.item] c.drained
      (.ok (), { w with active := a, results := w.results ++ [r] })

/-- `run_anti_entropy_once` of an authenticated session. -/
def runAntiEntropyOnce (host : SessionHost σ π ω) (pass : ScanPass π ω) :
    SyncM σ π AntiEntropyPage := do
  scan host pass
  let completed ← gets SyncWork.bootstrapCompleted
  if completed then finish else pure AntiEntropyPage.idle
where
  finish : SyncM σ π AntiEntropyPage :=
    fun _ w => ((host.finishScan pass.env w.active.store).1.mapError RunStop.failed,
      w.withStore (host.finishScan pass.env w.active.store).2)

/-- What a page does to the convergence. -/
def notePage (page : AntiEntropyPage) (nowMs : Int) : SyncM σ π Unit := do
  let convergenceRun ← gets SyncWork.convergenceRun
  if page.isConverged then
    match convergenceRun with
    | none => pure ()
    | some stats => do
        modify (fun w => { w with convergenceRun := none })
        advance (.setConvergence .converged) nowMs
        modify (fun w => w.push [.resumeSyncCompleted stats.entityTypesSynced
          stats.channelsScanned stats.channelsApplied stats.channelFailures])
  else
    advance (.setConvergence (if 0 < page.staleFound then .repairing else .scanning))
      nowMs

/-- The convergence of a repair tick in an authenticated session. -/
def converge (host : SessionHost σ π ω) (pass : ScanPass π ω) : SyncM σ π Unit := do
  let due ← gets (fun w => w.convergenceRun.isSome &&
    w.syncCoordinator.convergenceRetryReady pass.nowMs)
  if due then
    if pass.preempted then do
      let _ ← attempt (scanUntilDropped host pass)
      pure ()
    else do
      let result ← attempt (runAntiEntropyOnce host pass)
      match result with
      | .ok page => notePage page pass.nowMs
      | .error _ => advance .backoffConvergence pass.nowMs
      modify (fun w =>
        { w.emit w.active.memory.pendingEvents with
          active := { w.active with
            memory := { w.active.memory with pendingEvents := [] } } })
  else
    pure ()

end Convergence

section Entries

variable {π ω : Type}

/-- The items of a run, those of a resync included. -/
def SyncRun.entries (run : SyncRun π ω) : List (Entry π) :=
  resumeEntityOrder.flatMap (fun entityType =>
      ((run.families entityType).call.pull entityType).entries ++
        ((run.families entityType).resync.pull entityType).entries) ++
    bootstrapEntityOrder.flatMap (fun entityType =>
      ((run.bootstrapFamilies entityType).pull entityType).entries)

def ScanCall.entries : ScanCall π ω → List (Entry π)
  | .write _ => []
  | .commit _ e => [e]

def ScanPass.entries (pass : ScanPass π ω) : List (Entry π) :=
  pass.calls.flatMap ScanCall.entries ++ pass.cut.toList.map CutCommit.entry

theorem SyncRun.mem_entries_family
    (run : SyncRun π ω) {entityType : String} (hfamily : entityType ∈ resumeEntityOrder)
    {e : Entry π}
    (he : e ∈ ((run.families entityType).call.pull entityType).entries ∨
      e ∈ ((run.families entityType).resync.pull entityType).entries) :
    e ∈ run.entries :=
  List.mem_append_left _
    (List.mem_flatMap.mpr ⟨entityType, hfamily, List.mem_append.mpr he⟩)

theorem SyncRun.mem_entries_bootstrap
    (run : SyncRun π ω) {entityType : String}
    (hfamily : entityType ∈ bootstrapEntityOrder) {e : Entry π}
    (he : e ∈ ((run.bootstrapFamilies entityType).pull entityType).entries) :
    e ∈ run.entries :=
  List.mem_append_right _ (List.mem_flatMap.mpr ⟨entityType, hfamily, he⟩)

end Entries

section SameSync

variable {σ π ω α : Type}
variable {own : Entry π → Prop} {old : Finset String}

/-- The same sync work after different histories. -/
structure SameSync (own : Entry π → Prop) (old : Finset String)
    (v w : SyncWork σ π) : Prop where
  active : SameView own old v.active w.active
  syncCoordinator : v.syncCoordinator.Alike w.syncCoordinator
  rest : { v with active := w.active, syncCoordinator := w.syncCoordinator } = w
  results : ∀ r ∈ v.results, r.HandsOwn own

/-- Both may go on with alike fields. -/
theorem SameSync.withActive
    {v w : SyncWork σ π} (h : SameSync own old v w) {a b : Active σ π}
    (hview : SameView own old a b) :
    SameSync own old { v with active := a } { w with active := b } where
  active := hview
  syncCoordinator := h.syncCoordinator
  rest := by rw [← h.rest]
  results := h.results

theorem SameSync.bootstrapCompleted
    {v w : SyncWork σ π} (h : SameSync own old v w) :
    v.bootstrapCompleted = w.bootstrapCompleted := by
  rw [← h.rest]

theorem SameSync.convergenceRun
    {v w : SyncWork σ π} (h : SameSync own old v w) :
    v.convergenceRun = w.convergenceRun := by
  rw [← h.rest]

theorem SameSync.requestsLeft
    {v w : SyncWork σ π} (h : SameSync own old v w) :
    v.requestsLeft = w.requestsLeft := by
  rw [← h.rest]

theorem SameSync.reported
    {v w : SyncWork σ π} (h : SameSync own old v w) : v.reported = w.reported := by
  rw [← h.rest]

theorem SameSync.results_eq
    {v w : SyncWork σ π} (h : SameSync own old v w) : v.results = w.results := by
  rw [← h.rest]

/-- A call adds the same result to both, of own items only. -/
theorem SameSync.called
    {v w : SyncWork σ π} (h : SameSync own old v w) {a b : Active σ π}
    (hview : SameView own old a b) {r : SyncResult π} (hown : r.HandsOwn own) :
    SameSync own old { v with active := a, results := v.results ++ [r] }
      { w with active := b, results := w.results ++ [r] } where
  active := hview
  syncCoordinator := h.syncCoordinator
  rest := by rw [← h.rest]
  results := by
    intro x hx
    rcases List.mem_append.mp hx with hx | hx
    · exact h.results x hx
    · rw [List.mem_singleton] at hx
      exact hx ▸ hown

theorem SameSync.withRequestsLeft
    {v w : SyncWork σ π} (h : SameSync own old v w) (left : Option Nat) :
    SameSync own old { v with requestsLeft := left } { w with requestsLeft := left } where
  active := h.active
  syncCoordinator := h.syncCoordinator
  rest := by rw [← h.rest]
  results := h.results

theorem SameSync.emit
    {v w : SyncWork σ π} (h : SameSync own old v w) (events : List SdkEvent) :
    SameSync own old (v.emit events) (w.emit events) where
  active := h.active
  syncCoordinator := h.syncCoordinator
  rest := by
    rw [← h.rest]
    rfl
  results := h.results

theorem unwinds_gets {f : SyncWork σ π → α}
    (hf : ∀ v w, SameSync own old v w → f v = f w) :
    Unwinds (SameSync own old) (gets f) :=
  fun _ v w h => ⟨congrArg Except.ok (hf v w h), h⟩

theorem unwinds_modify {f : SyncWork σ π → SyncWork σ π}
    (hf : ∀ v w, SameSync own old v w → SameSync own old (f v) (f w)) :
    Unwinds (SameSync own old) (modify f) :=
  fun _ v w h => ⟨rfl, hf v w h⟩

theorem unwinds_push (events : List SdkEvent) :
    Unwinds (SameSync own old) (modify (fun w : SyncWork σ π => w.push events)) :=
  unwinds_modify (fun _ _ h => h.withActive (h.active.push events))

theorem unwinds_setBootstrapCompleted (completed : Bool) :
    Unwinds (SameSync own old)
      (modify (fun w : SyncWork σ π => { w with bootstrapCompleted := completed })) :=
  unwinds_modify (fun _ _ h =>
    { active := h.active
      syncCoordinator := h.syncCoordinator
      rest := by rw [← h.rest]
      results := h.results })

theorem unwinds_setConvergenceRun (stats : Option ResumeRunStats) :
    Unwinds (SameSync own old)
      (modify (fun w : SyncWork σ π => { w with convergenceRun := stats })) :=
  unwinds_modify (fun _ _ h =>
    { active := h.active
      syncCoordinator := h.syncCoordinator
      rest := by rw [← h.rest]
      results := h.results })

/-- A write to the store of the user has the same result, and leaves the same. -/
theorem unwinds_writeStore (f : σ → Except SyncError Unit × σ) :
    Unwinds (SameSync own old) (writeStore f : SyncM σ π Unit) := by
  intro _ v w h
  simp only [writeStore, after, SyncWork.withStore, h.active.store]
  exact ⟨trivial, h.withActive ⟨rfl, h.active.memory, h.active.pipeline⟩⟩

theorem unwinds_advance (op : SyncOp) (nowMs : Int) :
    Unwinds (SameSync own old) (advance op nowMs : SyncM σ π Unit) :=
  unwinds_modify (fun v w h =>
    { active := h.active
      syncCoordinator := h.syncCoordinator.apply nowMs op
      rest := by rw [← h.rest]
      results := h.results })

theorem unwinds_emitSyncState :
    Unwinds (SameSync own old) (emitSyncState : SyncM σ π Unit) := by
  refine unwinds_modify (fun v w h => ?_)
  rw [h.syncCoordinator.snapshot]
  exact h.emit _

theorem unwinds_request (answer : Option SyncError) :
    Unwinds (SameSync own old) (request answer : SyncM σ π Unit) := by
  intro _ v w h
  simp only [request, after, h.requestsLeft]
  split
  · exact ⟨rfl, h⟩
  · exact ⟨rfl, h.withRequestsLeft _⟩

theorem unwinds_trying {x : SyncM σ π α} (hx : Unwinds (SameSync own old) x) :
    Unwinds (SameSync own old) (trying x) := by
  refine hx.attempt.bind (fun result => ?_)
  rcases result with (err | -) | a
  · exact unwinds_pure _
  · exact unwinds_fail _
  · exact unwinds_pure _

theorem unwinds_emitSyncSummary (entityType : String) (applied : Nat) :
    Unwinds (SameSync own old) (emitSyncSummary entityType applied : SyncM σ π Unit) := by
  refine unwinds_modify (fun v w h => ?_)
  rw [h.active.memory]
  exact h.emit _

variable (hfresh : ∀ e, own e → entryKey e ∉ old)

include hfresh

theorem unwinds_syncEntities (host : Host σ π ω) (env : ω) (entityType : String)
    (answer : PullAnswer π) (hanswer : ∀ e ∈ (answer.pull entityType).entries, own e) :
    Unwinds (SameSync own old) (syncEntities host env entityType answer) := by
  intro _ v w h
  simp only [syncEntities, after, h.requestsLeft]
  split
  · obtain ⟨hr, hown, hview⟩ := h.active.dropSync hfresh host env
      (answer.pull entityType) answer.drained hanswer
    rw [← hr]
    exact ⟨rfl, (h.called hview hown).withRequestsLeft _⟩
  · obtain ⟨hr, hown, hview⟩ := h.active.syncEntities hfresh host env
      (answer.pull entityType) hanswer
    rw [← hr]
    exact ⟨rfl, (h.called hview hown).withRequestsLeft _⟩

omit hfresh in
theorem unwinds_resumes (host : SessionHost σ π ω) (env : ω) :
    Unwinds (SameSync own old) (gets (SyncWork.resumes host env)) := by
  refine unwinds_gets (fun v w h => ?_)
  simp only [SyncWork.resumes, h.bootstrapCompleted, h.active.store]

theorem unwinds_executeEntityScopedResync (host : SessionHost σ π ω) (env : ω)
    (entityType : String) (resync : PullAnswer π)
    (hresync : ∀ e ∈ (resync.pull entityType).entries, own e) :
    Unwinds (SameSync own old)
      (executeEntityScopedResync host env entityType resync) := by
  refine (unwinds_writeStore _).bind (fun _ => ?_)
  refine (unwinds_syncEntities hfresh host.toHost env entityType resync hresync).bind
    (fun applied => ?_)
  refine (unwinds_writeStore _).bind (fun _ => ?_)
  exact unwinds_modify (fun v w h => h.withActive (h.active.queueLastSyncEvents _ _ _))

omit hfresh in
theorem unwinds_executeFullRebuildRequired (host : SessionHost σ π ω) (env : ω) :
    Unwinds (SameSync own old)
      (executeFullRebuildRequired host env : SyncM σ π Unit) := by
  refine (unwinds_writeStore _).bind (fun _ => ?_)
  refine (unwinds_setBootstrapCompleted false).bind (fun _ => ?_)
  exact unwinds_writeStore _

omit hfresh in
theorem unwinds_abortResume (classification : ResumeFailureClass)
    (scope : ResumeEscalationScope) (message : String) :
    Unwinds (SameSync own old)
      (abortResume classification scope message :
        SyncM σ π ResumeFailureHandling) :=
  (unwinds_push _).bind (fun _ => unwinds_pure _)

/-- The items that the resync of a failed family would bring are own. -/
def ResumeFailureTarget.Owned (own : Entry π → Prop) : ResumeFailureTarget π → Prop
  | .global => True
  | .entityType family resync => ∀ e ∈ (resync.pull family).entries, own e

theorem unwinds_handleResumeFailure (host : SessionHost σ π ω) (env : ω)
    (target : ResumeFailureTarget π) (err : SyncError) (htarget : target.Owned own) :
    Unwinds (SameSync own old) (handleResumeFailure host env target err) := by
  refine (unwinds_push _).bind (fun _ => ?_)
  split
  · exact unwinds_pure _
  · refine (unwinds_trying (unwinds_executeEntityScopedResync hfresh host env _ _
      htarget)).bind (fun resynced => ?_)
    cases resynced with
    | ok _ =>
        exact unwinds_pure _
    | error resyncErr =>
        exact unwinds_abortResume _ _ _
  · exact unwinds_abortResume _ _ _
  · exact unwinds_abortResume _ _ _
  · refine (unwinds_trying (unwinds_executeFullRebuildRequired host env)).bind
      (fun rebuilt => ?_)
    cases rebuilt with
    | ok _ =>
        exact unwinds_abortResume _ _ _
    | error rebuildErr =>
        exact unwinds_abortResume _ _ _

theorem unwinds_resumeFamilies (host : SessionHost σ π ω) (run : SyncRun π ω)
    (families : List String)
    (hcalls : ∀ entityType ∈ families,
      (∀ e ∈ ((run.families entityType).call.pull entityType).entries, own e) ∧
        ∀ e ∈ ((run.families entityType).resync.pull entityType).entries, own e)
    (synced : Nat) :
    Unwinds (SameSync own old) (resumeFamilies host run families synced) := by
  induction families generalizing synced with
  | nil =>
      exact unwinds_pure _
  | cons entityType rest ih =>
      obtain ⟨hcall, hrest⟩ := List.forall_mem_cons.mp hcalls
      refine (unwinds_trying (unwinds_syncEntities hfresh _ _ _ _ hcall.1)).bind
        (fun pulled => ?_)
      cases pulled with
      | ok applied =>
          exact (unwinds_emitSyncSummary _ _).bind (fun _ => ih hrest _)
      | error err =>
          refine (ih hrest synced).ite ?_
          refine (unwinds_handleResumeFailure hfresh host run.env
            (.entityType entityType _) err hcall.2).bind (fun handling => ?_)
          cases handling with
          | goOn =>
              exact ih hrest synced
          | abort =>
              exact unwinds_fail _

theorem unwinds_executeResumeSync (host : SessionHost σ π ω) (run : SyncRun π ω)
    (hrun : ∀ e ∈ run.entries, own e) :
    Unwinds (SameSync own old) (executeResumeSync host run) := by
  refine (unwinds_gets (fun _ _ h => h.bootstrapCompleted)).bind (fun completed => ?_)
  refine Unwinds.ite ?_ (unwinds_pure _)
  refine (unwinds_push _).bind (fun _ => ?_)
  refine (unwinds_trying (unwinds_request _)).bind (fun ready => ?_)
  cases ready with
  | error err =>
      exact (unwinds_handleResumeFailure hfresh host run.env .global err trivial).bind
        (fun _ => unwinds_fail _)
  | ok _ =>
      refine (unwinds_resumeFamilies hfresh host run _ (fun entityType hfamily => ?_)
        0).bind (fun synced => ?_)
      · exact ⟨fun e he => hrun e (run.mem_entries_family hfamily (Or.inl he)),
          fun e he => hrun e (run.mem_entries_family hfamily (Or.inr he))⟩
      · exact (unwinds_setConvergenceRun _).bind (fun _ => unwinds_advance _ _)

theorem unwinds_bootstrapFamilies (host : SessionHost σ π ω) (run : SyncRun π ω)
    (families : List String)
    (hcalls : ∀ entityType ∈ families,
      ∀ e ∈ ((run.bootstrapFamilies entityType).pull entityType).entries, own e) :
    Unwinds (SameSync own old) (bootstrapFamilies host run families) := by
  induction families with
  | nil =>
      exact unwinds_pure _
  | cons entityType rest ih =>
      obtain ⟨hcall, hrest⟩ := List.forall_mem_cons.mp hcalls
      refine (unwinds_trying (unwinds_syncEntities hfresh _ _ _ _ hcall)).bind
        (fun pulled => ?_)
      cases pulled with
      | ok applied =>
          exact (unwinds_emitSyncSummary _ _).bind (fun _ => ih hrest)
      | error err =>
          exact ((unwinds_emitSyncSummary _ _).bind (fun _ => ih hrest)).ite
            (unwinds_fail _)

theorem unwinds_bootstrapAll (host : SessionHost σ π ω) (run : SyncRun π ω)
    (hrun : ∀ e ∈ run.entries, own e) :
    Unwinds (SameSync own old) (bootstrapAll host run) := by
  refine (unwinds_bootstrapFamilies hfresh host run _ (fun entityType hfamily e he =>
    hrun e (run.mem_entries_bootstrap hfamily he))).bind (fun _ => ?_)
  refine (unwinds_setBootstrapCompleted true).bind (fun _ => ?_)
  refine (unwinds_writeStore _).bind (fun _ => ?_)
  refine (unwinds_writeStore _).attempt.bind (fun _ => ?_)
  exact (unwinds_request _).bind (fun _ => unwinds_writeStore _)

theorem unwinds_executeBootstrapSync (host : SessionHost σ π ω) (run : SyncRun π ω)
    (hrun : ∀ e ∈ run.entries, own e) :
    Unwinds (SameSync own old) (executeBootstrapSync host run) := by
  have hall := unwinds_bootstrapAll hfresh host run hrun
  refine (unwinds_resumes host run.env).bind (fun resumes => ?_)
  refine Unwinds.ite ?_ hall
  refine (unwinds_trying (unwinds_executeResumeSync hfresh host run hrun)).bind
    (fun resumed => ?_)
  cases resumed with
  | ok _ =>
      exact unwinds_pure _
  | error err =>
      exact (unwinds_gets (fun _ _ h => by rw [h.active.store])).bind
        (fun rebuild => hall.ite (unwinds_fail _))

/-- A round of `ensure_synced` is the same in both. -/
theorem unwinds_ensureSyncedInner (host : SessionHost σ π ω) (run : SyncRun π ω)
    (hrun : ∀ e ∈ run.entries, own e) :
    Unwinds (SameSync own old) (ensureSyncedInner host run) := by
  refine Unwinds.ite (unwinds_pure _) ?_
  refine (unwinds_resumes host run.decision).bind (fun resumes => ?_)
  refine Unwinds.bind (Unwinds.ite (unwinds_advance _ _) (unwinds_pure _))
    (fun _ => ?_)
  refine (unwinds_gets (fun _ _ h => h.syncCoordinator.begin_isOk _ _)).bind
    (fun admitted => ?_)
  refine Unwinds.ite ?_ (unwinds_pure _)
  refine (unwinds_advance _ _).bind (fun _ => ?_)
  refine unwinds_emitSyncState.bind (fun _ => ?_)
  refine ((unwinds_executeResumeSync hfresh host run hrun).ite
    (unwinds_executeBootstrapSync hfresh host run hrun)).attempt.bind
    (fun result => ?_)
  rcases result with (err | -) | _
  · exact (unwinds_advance _ _).bind (fun _ =>
      unwinds_emitSyncState.bind (fun _ => unwinds_fail _))
  · exact (unwinds_advance _ _).bind (fun _ =>
      (unwinds_setConvergenceRun none).bind (fun _ => unwinds_pure _))
  · exact (unwinds_advance _ _).bind (fun _ =>
      unwinds_emitSyncState.bind (fun _ => unwinds_pure _))

theorem unwinds_scanCalls (host : SessionHost σ π ω) (error : SyncError)
    (calls : List (ScanCall π ω))
    (hcalls : ∀ e ∈ calls.flatMap ScanCall.entries, own e) :
    Unwinds (SameSync own old) (scanCalls host error calls) := by
  induction calls with
  | nil =>
      exact unwinds_pure _
  | cons call rest ih =>
      rw [List.flatMap_cons] at hcalls
      have hrest := ih (fun e he => hcalls e (List.mem_append_right _ he))
      cases call with
      | write env =>
          refine Unwinds.bind (unwinds_modify (fun v w h => ?_)) (fun _ => hrest)
          rw [h.active.store]
          exact h.withActive ⟨rfl, h.active.memory, h.active.pipeline⟩
      | commit env e =>
          have he : own e := hcalls e (List.mem_append_left _ List.mem_cons_self)
          refine Unwinds.bind ?_ (fun _ => hrest)
          intro _ v w h
          obtain ⟨hr, hown, hview⟩ := h.active.enqueueAndApplySyncItems hfresh
            host.toHost env e.entityType e.scope [e.item] false (by
              intro x hx
              rw [entriesOfCall, List.map_singleton, List.mem_singleton] at hx
              exact hx ▸ he)
          simp only [scanCalls.commit, after]
          rw [← hr]
          split
          · exact ⟨rfl, h.called (hview.queueLastSyncEvents _ _ _) hown⟩
          · exact ⟨rfl, h.called hview hown⟩

theorem unwinds_scan (host : SessionHost σ π ω) (pass : ScanPass π ω)
    (hpass : ∀ e ∈ pass.entries, own e) :
    Unwinds (SameSync own old) (scan host pass) :=
  (unwinds_gets (fun _ _ h => h.bootstrapCompleted)).bind (fun _ =>
    (unwinds_scanCalls hfresh host pass.error pass.calls
      (fun e he => hpass e (List.mem_append_left _ he))).ite (unwinds_pure _))

theorem unwinds_scanUntilDropped (host : SessionHost σ π ω) (pass : ScanPass π ω)
    (hpass : ∀ e ∈ pass.entries, own e) :
    Unwinds (SameSync own old) (scanUntilDropped host pass) := by
  refine (unwinds_gets (fun _ _ h => h.bootstrapCompleted)).bind (fun completed => ?_)
  refine Unwinds.ite ?_ (unwinds_pure _)
  refine (unwinds_scanCalls hfresh host pass.error pass.calls
    (fun e he => hpass e (List.mem_append_left _ he))).bind (fun _ => ?_)
  cases hcut : pass.cut with
  | none =>
      exact unwinds_pure _
  | some c =>
      have hc : own c.entry := hpass c.entry (List.mem_append_right _ (by simp [hcut]))
      intro _ v w h
      obtain ⟨hr, hown, hview⟩ := h.active.dropEnqueueAndApply hfresh host.toHost c.env
        c.entry.entityType c.entry.scope [c.entry.item] c.drained (by
          intro x hx
          rw [entriesOfCall, List.map_singleton, List.mem_singleton] at hx
          exact hx ▸ hc)
      simp only [scanUntilDropped.cutCommit, after]
      rw [← hr]
      exact ⟨trivial, h.called hview hown⟩

theorem unwinds_runAntiEntropyOnce (host : SessionHost σ π ω) (pass : ScanPass π ω)
    (hpass : ∀ e ∈ pass.entries, own e) :
    Unwinds (SameSync own old) (runAntiEntropyOnce host pass) := by
  refine (unwinds_scan hfresh host pass hpass).bind (fun _ => ?_)
  refine (unwinds_gets (fun _ _ h => h.bootstrapCompleted)).bind (fun completed => ?_)
  refine Unwinds.ite ?_ (unwinds_pure _)
  intro _ v w h
  simp only [runAntiEntropyOnce.finish, after, SyncWork.withStore, h.active.store]
  exact ⟨trivial, h.withActive ⟨rfl, h.active.memory, h.active.pipeline⟩⟩

omit hfresh in
theorem unwinds_notePage (page : AntiEntropyPage) (nowMs : Int) :
    Unwinds (SameSync own old) (notePage page nowMs : SyncM σ π Unit) := by
  refine (unwinds_gets (fun _ _ h => h.convergenceRun)).bind (fun convergenceRun => ?_)
  refine Unwinds.ite ?_ (unwinds_advance _ _)
  cases convergenceRun with
  | none =>
      exact unwinds_pure _
  | some stats =>
      exact (unwinds_setConvergenceRun none).bind (fun _ =>
        (unwinds_advance _ _).bind (fun _ => unwinds_push _))

/-- The convergence of a repair tick is the same in both. -/
theorem unwinds_converge (host : SessionHost σ π ω) (pass : ScanPass π ω)
    (hpass : ∀ e ∈ pass.entries, own e) :
    Unwinds (SameSync own old) (converge host pass) := by
  refine (unwinds_gets (fun v w h => ?_)).bind (fun due => ?_)
  · rw [h.convergenceRun, h.syncCoordinator.convergenceRetryReady]
  · refine Unwinds.ite ?_ (unwinds_pure _)
    refine Unwinds.ite ?_ ?_
    · exact (unwinds_scanUntilDropped hfresh host pass hpass).attempt.bind
        (fun _ => unwinds_pure _)
    · refine (unwinds_runAntiEntropyOnce hfresh host pass hpass).attempt.bind
        (fun result => ?_)
      have htaken : Unwinds (SameSync own old) (modify (fun w : SyncWork σ π =>
          { w.emit w.active.memory.pendingEvents with
            active := { w.active with
              memory := { w.active.memory with pendingEvents := [] } } })) := by
        refine unwinds_modify (fun v w h => ?_)
        rw [h.active.memory]
        exact (h.emit _).withActive (h.active.withMemory rfl)
      cases result with
      | ok page =>
          exact (unwinds_notePage page pass.nowMs).bind (fun _ => htaken)
      | error _ =>
          exact (unwinds_advance _ _).bind (fun _ => htaken)

end SameSync

end Session
end PrivchatSdk
