import PrivchatSdk.Lib.Run
import Mathlib.Tactic.IntervalCases

/-!
# The coordinator of the sync runs

One record holds the state of the critical phase and of the convergence in the
background, and the deadlines that both wait for.  Every source that triggers a
sync passes `begin`.

The published state is meant to be consistent (`Consistent`), which the failure
codes and a convergence state that is set without its deadline may break
(`snapshots_consistent_iff`).  Between a failure and the next run lies the delay
of the failure, whatever triggers arrive (`retries_spaced`).
-/

namespace PrivchatSdk

open EventRun

section Model

inductive Readiness where
  | disconnected
  | authenticated
  | syncingCritical
  | ready
  | criticalFailed
  deriving DecidableEq, Repr

inductive CriticalFailureCode where
  | network
  | serverUnavailable
  | protocol
  | storage
  | unknown
  deriving DecidableEq, Repr

inductive Convergence where
  | idle
  | scanning
  | repairing
  | backingOff
  | converged
  deriving DecidableEq, Repr

inductive SyncRunKind where
  | bootstrap
  | resume
  deriving DecidableEq, Repr

structure SyncStateSnapshot where
  readiness : Readiness
  failure : Option CriticalFailureCode
  retryable : Bool
  convergence : Convergence
  runKind : Option SyncRunKind
  attempt : Nat
  message : Option String
  updatedAtMs : Int
  deriving DecidableEq, Repr

/-- `SyncStateSnapshot::default`. -/
def SyncStateSnapshot.initial : SyncStateSnapshot where
  readiness := .disconnected
  failure := none
  retryable := true
  convergence := .idle
  runKind := none
  attempt := 0
  message := none
  updatedAtMs := 0

def syncRetryBaseMs : Int := 1000

def syncRetryMaxMs : Int := 60000

structure SyncCoordinator where
  snapshot : SyncStateSnapshot
  nextRetryAtMs : Option Int
  convergenceAttempt : Nat
  convergenceNextRetryAtMs : Option Int
  generation : Nat
  deriving DecidableEq, Repr

inductive SyncBeginRejection where
  | alreadyRunning
  | backoff (remainingMs : Int)
  | terminal
  deriving DecidableEq, Repr

/-- `saturating_add` of two `i64`. -/
def saturatingAdd (a b : Int) : Int :=
  max (-9223372036854775808) (min (a + b) 9223372036854775807)

/-- `saturating_add(1)` of a `u32`. -/
def nextAttempt (attempt : Nat) : Nat :=
  min (attempt + 1) 4294967295

namespace SyncCoordinator

/-- `SyncCoordinator::new`. -/
def new : SyncCoordinator where
  snapshot := .initial
  nextRetryAtMs := none
  convergenceAttempt := 0
  convergenceNextRetryAtMs := none
  generation := 0

/-- The delay without its jitter. -/
def retryBaseMs (attempt : Nat) : Int :=
  min (syncRetryBaseMs * 2 ^ (min (attempt - 1) 6)) syncRetryMaxMs

/-- `retry_delay_ms`. -/
def retryDelayMs (attempt : Nat) (nowMs : Int) : Int :=
  let base := retryBaseMs attempt
  let span := max (base / 4) 1
  let jitter := nowMs % (span * 2) - span
  max syncRetryBaseMs (min (base + jitter) syncRetryMaxMs)

variable (c : SyncCoordinator)

/-- The coordinator once `begin` lets the run through. -/
def started (kind : SyncRunKind) (nowMs : Int) : SyncCoordinator :=
  { c with
    nextRetryAtMs := none
    snapshot :=
      { readiness := .syncingCritical
        failure := none
        retryable := true
        convergence := c.snapshot.convergence
        runKind := some kind
        attempt := c.snapshot.attempt
        message := none
        updatedAtMs := nowMs } }

def begin (kind : SyncRunKind) (nowMs : Int) :
    Except SyncBeginRejection SyncCoordinator :=
  if c.snapshot.readiness = .syncingCritical then
    .error .alreadyRunning
  else if c.snapshot.readiness = .criticalFailed ∧ c.snapshot.retryable = false then
    .error .terminal
  else
    match c.nextRetryAtMs with
    | some deadline =>
        if nowMs < deadline then
          .error (.backoff (deadline - nowMs))
        else
          .ok (c.started kind nowMs)
    | none => .ok (c.started kind nowMs)

def complete (kind : SyncRunKind) (nowMs : Int) : SyncCoordinator :=
  { c with
    nextRetryAtMs := none
    snapshot :=
      { readiness := .ready
        failure := none
        retryable := true
        convergence := c.snapshot.convergence
        runKind := some kind
        attempt := 0
        message := none
        updatedAtMs := nowMs } }

def setConvergence (next : Convergence) (nowMs : Int) : SyncCoordinator :=
  let c' : SyncCoordinator :=
    if next ≠ .backingOff then
      { c with convergenceAttempt := 0, convergenceNextRetryAtMs := none }
    else
      c
  { c' with
    snapshot := { c'.snapshot with convergence := next, updatedAtMs := nowMs } }

def scheduleConvergence (nowMs graceMs : Int) : SyncCoordinator :=
  { c with
    convergenceAttempt := 0
    convergenceNextRetryAtMs := some (saturatingAdd nowMs (max graceMs 0))
    snapshot := { c.snapshot with convergence := .scanning, updatedAtMs := nowMs } }

def backoffConvergence (nowMs : Int) : SyncCoordinator :=
  let attempt := nextAttempt c.convergenceAttempt
  { c with
    convergenceAttempt := attempt
    convergenceNextRetryAtMs :=
      some (saturatingAdd nowMs (retryDelayMs attempt nowMs))
    snapshot :=
      { c.snapshot with convergence := .backingOff, updatedAtMs := nowMs } }

/-- `classify_failure`. -/
def classifyFailure (code : Nat) : CriticalFailureCode :=
  if code = 0 then .unknown
  else if 500 ≤ code ∧ code < 600 then .serverUnavailable
  else if 400 ≤ code ∧ code < 500 then .protocol
  else .network

def fail
    (kind : SyncRunKind) (terminal : Bool) (errorCode : Option Nat)
    (message : String) (nowMs : Int) : SyncCoordinator :=
  let attempt :=
    if terminal then c.snapshot.attempt else nextAttempt c.snapshot.attempt
  { c with
    nextRetryAtMs :=
      if terminal then none
      else some (saturatingAdd nowMs (retryDelayMs attempt nowMs))
    snapshot :=
      { readiness := if terminal then .criticalFailed else .authenticated
        failure := errorCode.map classifyFailure
        retryable := !terminal
        convergence := c.snapshot.convergence
        runKind := some kind
        attempt := attempt
        message := some message
        updatedAtMs := nowMs } }

def noteNetworkAvailable : SyncCoordinator :=
  let c' : SyncCoordinator :=
    if c.snapshot.readiness = .authenticated ∨ c.nextRetryAtMs.isSome then
      { c with nextRetryAtMs := none }
    else
      c
  let c'' : SyncCoordinator :=
    { c' with convergenceAttempt := 0, convergenceNextRetryAtMs := none }
  if c''.snapshot.convergence = .backingOff then
    { c'' with snapshot := { c''.snapshot with convergence := .scanning } }
  else
    c''

def abandon (nowMs : Int) : SyncCoordinator :=
  { c with
    nextRetryAtMs := none
    convergenceAttempt := 0
    convergenceNextRetryAtMs := none
    snapshot := { SyncStateSnapshot.initial with updatedAtMs := nowMs } }

def noteExplicitRequest : SyncCoordinator :=
  if c.snapshot.readiness ≠ .criticalFailed ∨ c.snapshot.retryable then
    { c with nextRetryAtMs := none }
  else
    c

def reset (nowMs : Int) : SyncCoordinator :=
  { c with
    generation := (c.generation + 1) % 18446744073709551616
    nextRetryAtMs := none
    convergenceAttempt := 0
    convergenceNextRetryAtMs := none
    snapshot := { SyncStateSnapshot.initial with updatedAtMs := nowMs } }

/-- A pass of the convergence has nothing to wait for. -/
def convergenceRetryReady (nowMs : Int) : Bool :=
  c.convergenceNextRetryAtMs.all (fun deadline => decide (deadline ≤ nowMs))

end SyncCoordinator

/-- The operations, without the time they are called at. -/
inductive SyncOp where
  | begin (kind : SyncRunKind)
  | complete (kind : SyncRunKind)
  | setConvergence (next : Convergence)
  | scheduleConvergence (graceMs : Int)
  | backoffConvergence
  | fail (kind : SyncRunKind) (terminal : Bool) (errorCode : Option Nat)
      (message : String)
  | noteNetworkAvailable
  | abandon
  | noteExplicitRequest
  | reset
  deriving DecidableEq, Repr

/-- The coordinator after a call; a refused `begin` leaves it alone. -/
def SyncCoordinator.apply (c : SyncCoordinator) (nowMs : Int) :
    SyncOp → SyncCoordinator
  | .begin kind =>
      match c.begin kind nowMs with
      | .ok c' => c'
      | .error _ => c
  | .complete kind => c.complete kind nowMs
  | .setConvergence next => c.setConvergence next nowMs
  | .scheduleConvergence graceMs => c.scheduleConvergence nowMs graceMs
  | .backoffConvergence => c.backoffConvergence nowMs
  | .fail kind terminal errorCode message =>
      c.fail kind terminal errorCode message nowMs
  | .noteNetworkAvailable => c.noteNetworkAvailable
  | .abandon => c.abandon nowMs
  | .noteExplicitRequest => c.noteExplicitRequest
  | .reset => c.reset nowMs

end Model

section Calls

variable (c : SyncCoordinator) (kind : SyncRunKind) {nowMs : Int}

/-- The run may begin: none is running, none failed for good, none must wait. -/
structure SyncCoordinator.Admits (c : SyncCoordinator) (nowMs : Int) : Prop where
  idle : c.snapshot.readiness ≠ .syncingCritical
  hopeful : ¬ (c.snapshot.readiness = .criticalFailed ∧
    c.snapshot.retryable = false)
  due : ∀ deadline, c.nextRetryAtMs = some deadline → deadline ≤ nowMs

theorem SyncCoordinator.begin_of_admits (hadmits : c.Admits nowMs) :
    c.begin kind nowMs = .ok (c.started kind nowMs) := by
  unfold SyncCoordinator.begin
  rw [if_neg hadmits.idle, if_neg hadmits.hopeful]
  cases hdeadline : c.nextRetryAtMs with
  | none => rfl
  | some deadline =>
      have hdue := hadmits.due deadline hdeadline
      dsimp only
      rw [if_neg (by omega)]

theorem SyncCoordinator.begin_of_not_admits (hnot : ¬ c.Admits nowMs) :
    ∃ rejection, c.begin kind nowMs = .error rejection := by
  unfold SyncCoordinator.begin
  by_cases hrunning : c.snapshot.readiness = .syncingCritical
  · rw [if_pos hrunning]
    exact ⟨_, rfl⟩
  · by_cases hterminal :
        c.snapshot.readiness = .criticalFailed ∧ c.snapshot.retryable = false
    · rw [if_neg hrunning, if_pos hterminal]
      exact ⟨_, rfl⟩
    · rw [if_neg hrunning, if_neg hterminal]
      cases hdeadline : c.nextRetryAtMs with
      | none =>
          refine absurd ⟨hrunning, hterminal, fun deadline hsome => ?_⟩ hnot
          rw [hdeadline] at hsome
          cases hsome
      | some deadline =>
          dsimp only
          by_cases hwait : nowMs < deadline
          · rw [if_pos hwait]
            exact ⟨_, rfl⟩
          · refine absurd ⟨hrunning, hterminal, fun deadline' hsome => ?_⟩ hnot
            rw [hdeadline, Option.some.injEq] at hsome
            omega

/-- A call of `begin` starts the run that is admitted, or changes nothing. -/
theorem SyncCoordinator.apply_begin :
    (c.Admits nowMs ∧ c.apply nowMs (.begin kind) = c.started kind nowMs) ∨
      (¬ c.Admits nowMs ∧ c.apply nowMs (.begin kind) = c) := by
  by_cases hadmits : c.Admits nowMs
  · refine .inl ⟨hadmits, ?_⟩
    simp [SyncCoordinator.apply, c.begin_of_admits kind hadmits]
  · obtain ⟨rejection, hrejected⟩ := c.begin_of_not_admits kind hadmits
    exact .inr ⟨hadmits, by simp [SyncCoordinator.apply, hrejected]⟩

end Calls

section Generations

/-- The same run: only the count of the resets differs, which is never published. -/
def SyncCoordinator.Alike (c d : SyncCoordinator) : Prop :=
  ∃ generation, d = { c with generation := generation }

variable {c d : SyncCoordinator}

theorem SyncCoordinator.Alike.refl (c : SyncCoordinator) : c.Alike c :=
  ⟨c.generation, rfl⟩

theorem SyncCoordinator.Alike.snapshot (h : c.Alike d) : c.snapshot = d.snapshot := by
  obtain ⟨generation, rfl⟩ := h
  rfl

theorem SyncCoordinator.Alike.convergenceRetryReady (h : c.Alike d) (nowMs : Int) :
    c.convergenceRetryReady nowMs = d.convergenceRetryReady nowMs := by
  obtain ⟨generation, rfl⟩ := h
  rfl

/-- A run is admitted by both or by none. -/
theorem SyncCoordinator.Alike.admits_iff (h : c.Alike d) (nowMs : Int) :
    c.Admits nowMs ↔ d.Admits nowMs := by
  obtain ⟨generation, rfl⟩ := h
  exact ⟨fun ⟨hidle, hhopeful, hdue⟩ => ⟨hidle, hhopeful, hdue⟩,
    fun ⟨hidle, hhopeful, hdue⟩ => ⟨hidle, hhopeful, hdue⟩⟩

theorem SyncCoordinator.Alike.begin_isOk
    (h : c.Alike d) (kind : SyncRunKind) (nowMs : Int) :
    (c.begin kind nowMs).isOk = (d.begin kind nowMs).isOk := by
  by_cases hc : c.Admits nowMs
  · rw [c.begin_of_admits kind hc,
      d.begin_of_admits kind ((h.admits_iff nowMs).mp hc)]
    rfl
  · obtain ⟨rejection, hrejected⟩ := c.begin_of_not_admits kind hc
    obtain ⟨rejection', hrejected'⟩ :=
      d.begin_of_not_admits kind (fun hd => hc ((h.admits_iff nowMs).mpr hd))
    rw [hrejected, hrejected']
    rfl

/-- No operation reads the generation. -/
theorem SyncCoordinator.Alike.apply (h : c.Alike d) (nowMs : Int) (op : SyncOp) :
    (c.apply nowMs op).Alike (d.apply nowMs op) := by
  cases op with
  | begin kind =>
      have hboth := h.admits_iff nowMs
      rcases c.apply_begin kind with ⟨hc, hbegun⟩ | ⟨hc, hkept⟩
      · rcases d.apply_begin kind with ⟨-, hbegun'⟩ | ⟨hd, -⟩
        · rw [hbegun, hbegun']
          obtain ⟨generation, rfl⟩ := h
          exact ⟨generation, rfl⟩
        · exact absurd (hboth.mp hc) hd
      · rcases d.apply_begin kind with ⟨hd, -⟩ | ⟨-, hkept'⟩
        · exact absurd (hboth.mpr hd) hc
        · rw [hkept, hkept']
          exact h
  | setConvergence next =>
      obtain ⟨generation, rfl⟩ := h
      simp only [SyncCoordinator.apply, SyncCoordinator.setConvergence]
      split <;> exact ⟨generation, rfl⟩
  | noteNetworkAvailable =>
      obtain ⟨generation, rfl⟩ := h
      simp only [SyncCoordinator.apply, SyncCoordinator.noteNetworkAvailable]
      split <;> split <;> exact ⟨generation, rfl⟩
  | noteExplicitRequest =>
      obtain ⟨generation, rfl⟩ := h
      simp only [SyncCoordinator.apply, SyncCoordinator.noteExplicitRequest]
      split <;> exact ⟨generation, rfl⟩
  | reset =>
      obtain ⟨generation, rfl⟩ := h
      exact ⟨_, rfl⟩
  | complete | scheduleConvergence | backoffConvergence | fail | abandon =>
      obtain ⟨generation, rfl⟩ := h
      exact ⟨generation, rfl⟩

end Generations

section Consistency

/-- What the fields of the published state say together. -/
structure SyncCoordinator.Consistent (c : SyncCoordinator) : Prop where
  failure : c.snapshot.failure.isSome = true ↔
    c.snapshot.readiness = .criticalFailed
  retryable : c.snapshot.retryable = false → c.snapshot.readiness = .criticalFailed
  deadline : c.nextRetryAtMs ≠ none →
    c.snapshot.readiness = .authenticated ∧ 1 ≤ c.snapshot.attempt
  backingOff : c.snapshot.convergence = .backingOff →
    c.convergenceNextRetryAtMs ≠ none ∧ 1 ≤ c.convergenceAttempt

/-- The fields of the critical phase. -/
def SyncCoordinator.critical (c : SyncCoordinator) :
    Readiness × Option CriticalFailureCode × Bool × Option SyncRunKind × Nat ×
      Option String × Option Int :=
  (c.snapshot.readiness, c.snapshot.failure, c.snapshot.retryable,
    c.snapshot.runKind, c.snapshot.attempt, c.snapshot.message, c.nextRetryAtMs)

/-- The fields of the convergence. -/
def SyncCoordinator.converging (c : SyncCoordinator) :
    Convergence × Nat × Option Int :=
  (c.snapshot.convergence, c.convergenceAttempt, c.convergenceNextRetryAtMs)

/--
The updates of the convergence.  `noteNetworkAvailable` is none of them and none of
the critical phase: by its purpose it ends the waiting of both.
-/
def SyncOp.updatesConvergence : SyncOp → Bool
  | .setConvergence _ | .scheduleConvergence _ | .backoffConvergence => true
  | _ => false

/--
The updates of the critical phase, apart from `abandon` and `reset`, which set both
phases back, and `noteNetworkAvailable`, which ends the waiting of both.
-/
def SyncOp.updatesCritical : SyncOp → Bool
  | .begin _ | .complete _ | .fail _ _ _ _ | .noteExplicitRequest => true
  | _ => false

/--
A failure carries a code exactly when it is terminal, and the convergence is set
to back off only where it has a deadline and an attempt.
-/
def SyncOp.Consistent (c : SyncCoordinator) : SyncOp → Prop
  | .fail _ terminal errorCode _ => errorCode.isSome = terminal
  | .setConvergence next =>
      next = .backingOff →
        c.convergenceNextRetryAtMs ≠ none ∧ 1 ≤ c.convergenceAttempt
  | _ => True

variable {c : SyncCoordinator} {nowMs : Int}

theorem SyncCoordinator.consistent_new : SyncCoordinator.new.Consistent := by
  constructor <;> simp [SyncCoordinator.new, SyncStateSnapshot.initial]

theorem one_le_nextAttempt (attempt : Nat) : 1 ≤ nextAttempt attempt := by
  unfold nextAttempt
  omega

theorem SyncCoordinator.Consistent.started
    (hc : c.Consistent) (kind : SyncRunKind) : (c.started kind nowMs).Consistent := by
  constructor
  · simp [SyncCoordinator.started]
  · simp [SyncCoordinator.started]
  · simp [SyncCoordinator.started]
  · exact hc.backingOff

theorem SyncCoordinator.Consistent.fail_iff
    (hc : c.Consistent) (kind : SyncRunKind) (terminal : Bool)
    (errorCode : Option Nat) (message : String) :
    (c.fail kind terminal errorCode message nowMs).Consistent ↔
      errorCode.isSome = terminal := by
  constructor
  · intro hfailed
    have hcode := hfailed.failure
    cases terminal <;> simpa [SyncCoordinator.fail] using hcode
  · intro hcode
    cases terminal with
    | true =>
        refine ⟨?_, ?_, ?_, hc.backingOff⟩
        · simpa [SyncCoordinator.fail] using hcode
        · simp [SyncCoordinator.fail]
        · simp [SyncCoordinator.fail]
    | false =>
        refine ⟨?_, ?_, ?_, hc.backingOff⟩
        · simpa [SyncCoordinator.fail] using hcode
        · simp [SyncCoordinator.fail]
        · simpa [SyncCoordinator.fail] using one_le_nextAttempt _

theorem SyncCoordinator.Consistent.setConvergence_iff
    (hc : c.Consistent) (next : Convergence) :
    (c.setConvergence next nowMs).Consistent ↔
      (next = .backingOff →
        c.convergenceNextRetryAtMs ≠ none ∧ 1 ≤ c.convergenceAttempt) := by
  by_cases hnext : next = .backingOff
  · subst hnext
    constructor
    · intro hset _
      exact hset.backingOff rfl
    · intro hwait
      exact ⟨hc.failure, hc.retryable, hc.deadline, fun _ => hwait rfl⟩
  · refine ⟨fun _ hbad => absurd hbad hnext, fun _ => ?_⟩
    unfold SyncCoordinator.setConvergence
    rw [if_pos hnext]
    exact ⟨hc.failure, hc.retryable, hc.deadline, fun hbad => absurd hbad hnext⟩

/-- The network note clears all waiting. -/
theorem SyncCoordinator.noteNetworkAvailable_eq (c : SyncCoordinator) :
    c.noteNetworkAvailable =
      { c with
        nextRetryAtMs := none
        convergenceAttempt := 0
        convergenceNextRetryAtMs := none
        snapshot :=
          { c.snapshot with
            convergence :=
              if c.snapshot.convergence = .backingOff then .scanning
              else c.snapshot.convergence } } := by
  have hcleared : (if c.snapshot.readiness = .authenticated ∨
      c.nextRetryAtMs.isSome = true then { c with nextRetryAtMs := none }
      else c) = { c with nextRetryAtMs := none } := by
    split
    · rfl
    · rename_i hnot
      obtain ⟨-, hnone⟩ := not_or.mp hnot
      rw [Option.not_isSome_iff_eq_none] at hnone
      rw [← hnone]
  unfold SyncCoordinator.noteNetworkAvailable
  rw [hcleared]
  dsimp only
  split <;> rfl

theorem SyncCoordinator.Consistent.noteNetworkAvailable
    (hc : c.Consistent) : c.noteNetworkAvailable.Consistent := by
  rw [c.noteNetworkAvailable_eq]
  refine ⟨hc.failure, hc.retryable, fun hset => absurd rfl hset, ?_⟩
  dsimp only
  split
  · intro hbad
    cases hbad
  · exact fun hbad => absurd hbad ‹_›

/-- One call keeps a consistent state consistent under this condition only. -/
theorem SyncCoordinator.Consistent.apply_iff
    (hc : c.Consistent) (nowMs : Int) (op : SyncOp) :
    (c.apply nowMs op).Consistent ↔ op.Consistent c := by
  cases op with
  | begin kind =>
      refine iff_of_true ?_ trivial
      rcases c.apply_begin kind with ⟨-, heq⟩ | ⟨-, heq⟩
      · rw [heq]
        exact hc.started kind
      · rw [heq]
        exact hc
  | complete kind =>
      refine iff_of_true ?_ trivial
      refine ⟨?_, ?_, ?_, hc.backingOff⟩ <;>
        simp [SyncCoordinator.apply, SyncCoordinator.complete]
  | setConvergence next =>
      exact hc.setConvergence_iff next
  | scheduleConvergence graceMs =>
      refine iff_of_true ?_ trivial
      refine ⟨hc.failure, hc.retryable, hc.deadline, ?_⟩
      simp [SyncCoordinator.apply, SyncCoordinator.scheduleConvergence]
  | backoffConvergence =>
      refine iff_of_true ?_ trivial
      refine ⟨hc.failure, hc.retryable, hc.deadline, fun _ => ⟨?_, ?_⟩⟩
      · simp [SyncCoordinator.apply, SyncCoordinator.backoffConvergence]
      · exact one_le_nextAttempt _
  | fail kind terminal errorCode message =>
      exact hc.fail_iff kind terminal errorCode message
  | noteNetworkAvailable =>
      exact iff_of_true hc.noteNetworkAvailable trivial
  | abandon =>
      refine iff_of_true ?_ trivial
      constructor <;> simp [SyncCoordinator.apply, SyncCoordinator.abandon,
        SyncStateSnapshot.initial]
  | noteExplicitRequest =>
      refine iff_of_true ?_ trivial
      unfold SyncCoordinator.apply SyncCoordinator.noteExplicitRequest
      dsimp only
      split
      · exact ⟨hc.failure, hc.retryable, fun hset => absurd rfl hset, hc.backingOff⟩
      · exact hc
  | reset =>
      refine iff_of_true ?_ trivial
      constructor <;> simp [SyncCoordinator.apply, SyncCoordinator.reset,
        SyncStateSnapshot.initial]

theorem SyncCoordinator.critical_apply
    (c : SyncCoordinator) (nowMs : Int) (op : SyncOp)
    (hop : op.updatesConvergence = true) :
    (c.apply nowMs op).critical = c.critical := by
  cases op with
  | setConvergence next =>
      unfold SyncCoordinator.apply SyncCoordinator.setConvergence
      dsimp only
      split <;> rfl
  | scheduleConvergence graceMs => rfl
  | backoffConvergence => rfl
  | _ => cases hop

theorem SyncCoordinator.converging_apply
    (c : SyncCoordinator) (nowMs : Int) (op : SyncOp)
    (hop : op.updatesCritical = true) :
    (c.apply nowMs op).converging = c.converging := by
  cases op with
  | begin kind =>
      rcases c.apply_begin kind with ⟨-, heq⟩ | ⟨-, heq⟩
      · rw [heq]
        rfl
      · rw [heq]
  | complete kind => rfl
  | fail kind terminal errorCode message => rfl
  | noteExplicitRequest =>
      unfold SyncCoordinator.apply SyncCoordinator.noteExplicitRequest
      dsimp only
      split <;> rfl
  | _ => cases hop

/-- A call at a time. -/
def SyncCoordinator.call (c : SyncCoordinator) (e : SyncOp × Int) :
    SyncCoordinator :=
  c.apply e.2 e.1

/--
Every state of a run is consistent exactly when each of its calls is, and the
two phases leave each other alone.
-/
theorem snapshots_consistent_iff (calls : List (SyncOp × Int)) :
    (Guarded SyncCoordinator.call (fun c e => (c.call e).Consistent)
        SyncCoordinator.new calls ↔
      Guarded SyncCoordinator.call (fun c e => e.1.Consistent c)
        SyncCoordinator.new calls) ∧
    (∀ (c : SyncCoordinator) (nowMs : Int) (op : SyncOp),
      (op.updatesConvergence = true →
        (c.apply nowMs op).critical = c.critical) ∧
      (op.updatesCritical = true →
        (c.apply nowMs op).converging = c.converging)) :=
  ⟨guarded_good_iff (fun _ => True) SyncCoordinator.Consistent (fun _ _ _ => trivial)
      (fun _ e _ hc => hc.apply_iff e.2 e.1) trivial
      SyncCoordinator.consistent_new calls,
    fun c nowMs op => ⟨c.critical_apply nowMs op, c.converging_apply nowMs op⟩⟩

/-- A failure that is retried leaves its code beside a state that has not failed. -/
theorem retryable_failure_keeps_code :
    ¬ Guarded SyncCoordinator.call (fun c e => (c.call e).Consistent)
      SyncCoordinator.new
      [(.begin .resume, 0), (.fail .resume false (some 503) "unavailable", 10)] := by
  rintro ⟨-, hfailed, -⟩
  exact absurd (hfailed.failure.mp rfl) (by decide)

end Consistency

section Retry

/-- A reading of the clock, within the range of the calendar. -/
structure ClockMs where
  ms : Int
  low : -8334601228800000 ≤ ms
  high : ms ≤ 8210266876799999

/-- The coordinator and the clock. -/
structure SyncClock where
  coordinator : SyncCoordinator
  now : ClockMs

inductive SyncEvent where
  | pass (now : ClockMs)
  | call (op : SyncOp)

def SyncClock.step (s : SyncClock) : SyncEvent → SyncClock
  | .pass now => { s with now := now }
  | .call op => { s with coordinator := s.coordinator.apply s.now.ms op }

/-- The triggers that are no new information, and the failures of begun runs. -/
def SyncOp.Automatic (c : SyncCoordinator) : SyncOp → Prop
  | .begin _ => True
  | .fail _ _ _ _ => c.snapshot.readiness = .syncingCritical
  | op => op.updatesConvergence = true

/-- The clock does not go back, and all calls are automatic. -/
def SyncEvent.Automatic (s : SyncClock) : SyncEvent → Prop
  | .pass now => s.now.ms ≤ now.ms
  | .call op => op.Automatic s.coordinator

/-- As `Automatic`, with explicit requests and network notes. -/
def SyncEvent.Triggering (s : SyncClock) : SyncEvent → Prop
  | .call .noteNetworkAvailable => True
  | .call .noteExplicitRequest => True
  | e => e.Automatic s

/-- The event begins a run. -/
def starts (x : SyncClock × SyncEvent) : Bool :=
  match x.2 with
  | .call (.begin kind) =>
      match x.1.coordinator.begin kind x.1.now.ms with
      | .ok _ => true
      | .error _ => false
  | _ => false

/-- The event is a failure, terminal or not. -/
def FailsAs (terminal : Bool) (x : SyncClock × SyncEvent) : Prop :=
  ∃ kind errorCode message, x.2 = .call (.fail kind terminal errorCode message)

/-- The attempt that a failure counts as. -/
def failedAttempt (x : SyncClock × SyncEvent) : Nat :=
  nextAttempt x.1.coordinator.snapshot.attempt

/-- The delay of a failure that is retried. -/
def failedDelay (x : SyncClock × SyncEvent) : Int :=
  SyncCoordinator.retryDelayMs (failedAttempt x) x.1.now.ms

theorem retryDelayMs_bounds (attempt : Nat) (nowMs : Int) :
    syncRetryBaseMs ≤ SyncCoordinator.retryDelayMs attempt nowMs ∧
      SyncCoordinator.retryDelayMs attempt nowMs ≤ syncRetryMaxMs := by
  unfold SyncCoordinator.retryDelayMs syncRetryBaseMs syncRetryMaxMs
  dsimp only
  omega

theorem retryBaseMs_mono {n n' : Nat} (hle : n ≤ n') :
    SyncCoordinator.retryBaseMs n ≤ SyncCoordinator.retryBaseMs n' := by
  have hpow : (2 : Int) ^ min (n - 1) 6 ≤ 2 ^ min (n' - 1) 6 :=
    pow_le_pow_right₀ (by decide) (by omega)
  unfold SyncCoordinator.retryBaseMs syncRetryBaseMs syncRetryMaxMs
  omega

/-- The delay is at most a quarter away from its base. -/
theorem retryDelayMs_near (attempt : Nat) (nowMs : Int) :
    SyncCoordinator.retryBaseMs attempt * 3 ≤
        SyncCoordinator.retryDelayMs attempt nowMs * 4 ∧
      SyncCoordinator.retryDelayMs attempt nowMs * 4 ≤
        SyncCoordinator.retryBaseMs attempt * 5 := by
  have hlow : 1000 ≤ SyncCoordinator.retryBaseMs attempt := by
    have hfirst := retryBaseMs_mono (Nat.zero_le attempt)
    rwa [show SyncCoordinator.retryBaseMs 0 = 1000 by decide] at hfirst
  have hhigh : SyncCoordinator.retryBaseMs attempt ≤ 60000 := by
    unfold SyncCoordinator.retryBaseMs syncRetryMaxMs
    omega
  unfold SyncCoordinator.retryDelayMs syncRetryBaseMs syncRetryMaxMs
  generalize SyncCoordinator.retryBaseMs attempt = base at hlow hhigh ⊢
  dsimp only
  have hspan : 0 < max (base / 4) 1 * 2 := by omega
  have hnonneg := Int.emod_nonneg nowMs (Int.ne_of_gt hspan)
  have hlt := Int.emod_lt_of_pos nowMs hspan
  omega

/-- A later attempt waits no less, while the base of the earlier one grows. -/
theorem retryDelayMs_mono
    {n n' : Nat} (hfirst : 1 ≤ n) (hlater : n < n')
    (hgrows : SyncCoordinator.retryBaseMs n < syncRetryMaxMs) (t t' : Int) :
    SyncCoordinator.retryDelayMs n t ≤ SyncCoordinator.retryDelayMs n' t' := by
  have hsmall : n ≤ 6 := by
    by_contra hlarge
    have hmax := retryBaseMs_mono (show 7 ≤ n by omega)
    rw [show SyncCoordinator.retryBaseMs 7 = syncRetryMaxMs by decide] at hmax
    omega
  have hnext : SyncCoordinator.retryBaseMs n * 5 ≤
      SyncCoordinator.retryBaseMs (n + 1) * 3 := by
    interval_cases n <;> decide
  have hmono := retryBaseMs_mono (show n + 1 ≤ n' from hlater)
  have hup := (retryDelayMs_near n t).2
  have hdown := (retryDelayMs_near n' t').1
  omega

variable {s : SyncClock} {e : SyncEvent}

/-- What begins is a call of `begin` that is admitted. -/
theorem starts_admits (hstart : starts (s, e) = true) :
    ∃ kind, e = .call (.begin kind) ∧ s.coordinator.Admits s.now.ms := by
  unfold starts at hstart
  split at hstart
  · rename_i kind heq
    refine ⟨kind, heq, ?_⟩
    by_contra hnot
    obtain ⟨rejection, hrejected⟩ := s.coordinator.begin_of_not_admits kind hnot
    rw [hrejected] at hstart
    cases hstart
  · cases hstart

/-- The deadline of a failure, which the clock is far from the end of. -/
theorem saturatingAdd_retryDelayMs (attempt : Nat) (now : ClockMs) :
    saturatingAdd now.ms (SyncCoordinator.retryDelayMs attempt now.ms) =
      now.ms + SyncCoordinator.retryDelayMs attempt now.ms := by
  obtain ⟨hlow, hhigh⟩ := retryDelayMs_bounds attempt now.ms
  have := now.low
  have := now.high
  unfold syncRetryBaseMs at hlow
  unfold syncRetryMaxMs at hhigh
  unfold saturatingAdd
  omega

/-- What an automatic event does. -/
inductive AutomaticStep (s : SyncClock) : SyncEvent → SyncClock → Prop
  | pass (now : ClockMs) (hnow : s.now.ms ≤ now.ms) :
      AutomaticStep s (.pass now) { s with now := now }
  | begins (kind : SyncRunKind) (hadmits : s.coordinator.Admits s.now.ms) :
      AutomaticStep s (.call (.begin kind))
        { s with coordinator := s.coordinator.started kind s.now.ms }
  | refused (kind : SyncRunKind) (hnot : ¬ s.coordinator.Admits s.now.ms) :
      AutomaticStep s (.call (.begin kind)) s
  | fails (kind : SyncRunKind) (terminal : Bool) (errorCode : Option Nat)
      (message : String)
      (hrunning : s.coordinator.snapshot.readiness = .syncingCritical) :
      AutomaticStep s (.call (.fail kind terminal errorCode message))
        { s with coordinator :=
            s.coordinator.fail kind terminal errorCode message s.now.ms }
  | converges (op : SyncOp) (c : SyncCoordinator)
      (hop : op.updatesConvergence = true)
      (hcritical : c.critical = s.coordinator.critical) :
      AutomaticStep s (.call op) { s with coordinator := c }

theorem automatic_step (hauto : e.Automatic s) : AutomaticStep s e (s.step e) := by
  cases e with
  | pass now => exact .pass now hauto
  | call op =>
      have hconverges : op.updatesConvergence = true →
          AutomaticStep s (.call op) (s.step (.call op)) :=
        fun hop => .converges op _ hop (s.coordinator.critical_apply s.now.ms op hop)
      cases op with
      | begin kind =>
          unfold SyncClock.step
          rcases s.coordinator.apply_begin kind with ⟨hadmits, heq⟩ | ⟨hnot, heq⟩
          · dsimp only
            rw [heq]
            exact .begins kind hadmits
          · dsimp only
            rw [heq]
            exact .refused kind hnot
      | fail kind terminal errorCode message =>
          exact .fails kind terminal errorCode message hauto
      | _ => exact hconverges hauto

/-- The fields of the critical phase that decide about the next run. -/
theorem SyncCoordinator.gate_of_critical
    {c c' : SyncCoordinator} (hcritical : c'.critical = c.critical) :
    c'.snapshot.readiness = c.snapshot.readiness ∧
      c'.snapshot.retryable = c.snapshot.retryable ∧
      c'.snapshot.attempt = c.snapshot.attempt ∧
      c'.nextRetryAtMs = c.nextRetryAtMs := by
  simp only [SyncCoordinator.critical, Prod.mk.injEq] at hcritical
  exact ⟨hcritical.1, hcritical.2.2.1, hcritical.2.2.2.2.1,
    hcritical.2.2.2.2.2.2⟩

/-- A deadline that was set keeps every run waiting. -/
theorem deadline_spaced {es : List SyncEvent}
    (hauto : Guarded SyncClock.step SyncEvent.Automatic s es) :
    (trace SyncClock.step s es).Pairwise (fun x y =>
      FailsAs false x → starts y = true →
        x.1.now.ms + failedDelay x ≤ y.1.now.ms) := by
  -- Either the delay has passed, or the deadline still stands.
  refine hauto.pairwise_trace (fun x s => FailsAs false x →
    x.1.now.ms + failedDelay x ≤ s.now.ms ∨
      (s.coordinator.snapshot.readiness ≠ .syncingCritical ∧
        s.coordinator.nextRetryAtMs = some (x.1.now.ms + failedDelay x))) ?_ ?_
  · rintro s e - ⟨kind, errorCode, message, rfl⟩
    refine .inr ⟨by simp [SyncClock.step, SyncCoordinator.apply,
      SyncCoordinator.fail], ?_⟩
    simp [SyncClock.step, SyncCoordinator.apply, SyncCoordinator.fail, failedDelay,
      failedAttempt, saturatingAdd_retryDelayMs]
  · intro x s e hsince hauto
    have hstep := automatic_step hauto
    generalize s.step e = s' at hstep ⊢
    cases hstep with
    | pass now hnow =>
        refine ⟨fun _ hstart => (Bool.false_ne_true hstart).elim, fun hx => ?_⟩
        rcases hsince hx with hpassed | hwaits
        · exact .inl (Int.le_trans hpassed hnow)
        · exact .inr hwaits
    | begins kind hadmits =>
        have hpassed : FailsAs false x → x.1.now.ms + failedDelay x ≤ s.now.ms := by
          intro hx
          rcases hsince hx with hpassed | ⟨-, hdeadline⟩
          · exact hpassed
          · exact hadmits.due _ hdeadline
        exact ⟨fun hx _ => hpassed hx, fun hx => .inl (hpassed hx)⟩
    | refused kind hnot =>
        exact ⟨fun _ hstart => absurd (starts_admits hstart).choose_spec.2 hnot, hsince⟩
    | fails kind terminal errorCode message hrunning =>
        refine ⟨fun _ hstart => (Bool.false_ne_true hstart).elim, fun hx => ?_⟩
        rcases hsince hx with hpassed | ⟨hidle, -⟩
        · exact .inl hpassed
        · exact absurd hrunning hidle
    | converges op c hop hcritical =>
        obtain ⟨hreadiness, -, -, hdeadline⟩ :=
          SyncCoordinator.gate_of_critical hcritical
        refine ⟨fun _ hstart => ?_, fun hx => ?_⟩
        · obtain ⟨kind, heq, -⟩ := starts_admits hstart
          cases heq
          cases hop
        · dsimp only
          rw [hreadiness, hdeadline]
          exact hsince hx

/-- While the base grows, a later failure waits no less than an earlier one. -/
theorem delays_grow {es : List SyncEvent}
    (hauto : Guarded SyncClock.step SyncEvent.Automatic s es) :
    (trace SyncClock.step s es).Pairwise (fun x y =>
      FailsAs false x → FailsAs false y →
        SyncCoordinator.retryBaseMs (failedAttempt x) < syncRetryMaxMs →
        failedDelay x ≤ failedDelay y) := by
  refine hauto.pairwise_trace (fun x s => FailsAs false x →
    failedAttempt x ≤ s.coordinator.snapshot.attempt) ?_ ?_
  · rintro s e - ⟨kind, errorCode, message, rfl⟩
    exact Nat.le_refl _
  · intro x s e hsince hauto
    refine ⟨fun hx hy hgrows => ?_, fun hx => ?_⟩
    · have hle := hsince hx
      have hsmall : failedAttempt x ≤ 6 := by
        by_contra hlarge
        have hmax := retryBaseMs_mono (show 7 ≤ failedAttempt x by omega)
        rw [show SyncCoordinator.retryBaseMs 7 = syncRetryMaxMs by decide] at hmax
        omega
      refine retryDelayMs_mono (one_le_nextAttempt _) ?_ hgrows _ _
      unfold failedAttempt nextAttempt at hle hsmall ⊢
      dsimp only
      omega
    · have hle := hsince hx
      have hbound : failedAttempt x ≤ 4294967295 := Nat.min_le_right _ _
      have hstep := automatic_step hauto
      generalize s.step e = s' at hstep ⊢
      cases hstep with
      | pass now hnow => exact hle
      | begins kind hadmits => exact hle
      | refused kind hnot => exact hle
      | fails kind terminal errorCode message hrunning =>
          cases terminal with
          | true => exact hle
          | false =>
              show failedAttempt x ≤ nextAttempt s.coordinator.snapshot.attempt
              unfold nextAttempt
              omega
      | converges op c hop hcritical =>
          dsimp only
          rw [(SyncCoordinator.gate_of_critical hcritical).2.2.1]
          exact hle

/-- Two runs that begin lie a delay apart. -/
theorem starts_spaced {es : List SyncEvent}
    (hauto : Guarded SyncClock.step SyncEvent.Automatic s es) :
    (trace SyncClock.step s es).Pairwise (fun x y =>
      starts x = true → starts y = true →
        x.1.now.ms + syncRetryBaseMs ≤ y.1.now.ms) := by
  -- The run still goes on, failed for good, or its failure set a deadline.
  refine hauto.pairwise_trace (fun x s => starts x = true →
    x.1.now.ms ≤ s.now.ms ∧
      (s.coordinator.snapshot.readiness = .syncingCritical ∨
        (s.coordinator.snapshot.readiness = .criticalFailed ∧
          s.coordinator.snapshot.retryable = false) ∨
        x.1.now.ms + syncRetryBaseMs ≤ s.now.ms ∨
        ∃ deadline, s.coordinator.nextRetryAtMs = some deadline ∧
          x.1.now.ms + syncRetryBaseMs ≤ deadline)) ?_ ?_
  · intro s e hauto hstart
    have hstep := automatic_step hauto
    generalize s.step e = s' at hstep ⊢
    cases hstep with
    | pass now hnow => cases hstart
    | begins kind hadmits => exact ⟨Int.le_refl _, .inl rfl⟩
    | refused kind hnot => exact absurd (starts_admits hstart).choose_spec.2 hnot
    | fails kind terminal errorCode message hrunning => cases hstart
    | converges op c hop hcritical =>
        obtain ⟨kind, heq, -⟩ := starts_admits hstart
        cases heq
        cases hop
  · intro x s e hsince hauto
    have hstep := automatic_step hauto
    generalize s.step e = s' at hstep ⊢
    cases hstep with
    | pass now hnow =>
        refine ⟨fun _ hstart => (Bool.false_ne_true hstart).elim, fun hx => ?_⟩
        obtain ⟨hafter, hstate⟩ := hsince hx
        refine ⟨Int.le_trans hafter hnow, ?_⟩
        rcases hstate with hrunning | hfailed | hpassed | hwaits
        · exact .inl hrunning
        · exact .inr (.inl hfailed)
        · exact .inr (.inr (.inl (Int.le_trans hpassed hnow)))
        · exact .inr (.inr (.inr hwaits))
    | begins kind hadmits =>
        have hpassed : starts x = true → x.1.now.ms + syncRetryBaseMs ≤ s.now.ms := by
          intro hx
          rcases (hsince hx).2 with hrunning | hfailed | hpassed | ⟨_, hset, hle⟩
          · exact absurd hrunning hadmits.idle
          · exact absurd hfailed hadmits.hopeful
          · exact hpassed
          · exact Int.le_trans hle (hadmits.due _ hset)
        exact ⟨fun hx _ => hpassed hx, fun hx => ⟨(hsince hx).1, .inl rfl⟩⟩
    | refused kind hnot =>
        exact ⟨fun _ hstart => absurd (starts_admits hstart).choose_spec.2 hnot, hsince⟩
    | fails kind terminal errorCode message hrunning =>
        refine ⟨fun _ hstart => (Bool.false_ne_true hstart).elim, fun hx => ?_⟩
        obtain ⟨hafter, -⟩ := hsince hx
        refine ⟨hafter, ?_⟩
        cases terminal with
        | true => exact .inr (.inl ⟨rfl, rfl⟩)
        | false =>
            have hdelay := (retryDelayMs_bounds
              (nextAttempt s.coordinator.snapshot.attempt) s.now.ms).1
            refine .inr (.inr (.inr ⟨_, congrArg some
              (saturatingAdd_retryDelayMs _ s.now), ?_⟩))
            rw [if_neg Bool.false_ne_true]
            omega
    | converges op c hop hcritical =>
        obtain ⟨hreadiness, hretryable, -, hdeadline⟩ :=
          SyncCoordinator.gate_of_critical hcritical
        refine ⟨fun _ hstart => ?_, fun hx => ?_⟩
        · obtain ⟨kind, heq, -⟩ := starts_admits hstart
          cases heq
          cases hop
        · dsimp only
          rw [hreadiness, hretryable, hdeadline]
          exact hsince hx

/-- A network note or an explicit request, or an automatic event. -/
theorem SyncEvent.Triggering.cases (htrigger : e.Triggering s) :
    e = .call .noteNetworkAvailable ∨ e = .call .noteExplicitRequest ∨
      e.Automatic s := by
  unfold SyncEvent.Triggering at htrigger
  split at htrigger
  · exact .inl rfl
  · exact .inr (.inl rfl)
  · exact .inr (.inr htrigger)

/-- After a terminal failure no run begins, whatever triggers arrive. -/
theorem terminal_blocks {es : List SyncEvent}
    (htrigger : Guarded SyncClock.step SyncEvent.Triggering s es) :
    (trace SyncClock.step s es).Pairwise (fun x y =>
      FailsAs true x → starts y = false) := by
  refine htrigger.pairwise_trace (fun x s => FailsAs true x →
    s.coordinator.snapshot.readiness = .criticalFailed ∧
      s.coordinator.snapshot.retryable = false) ?_ ?_
  · rintro s e - ⟨kind, errorCode, message, rfl⟩
    exact ⟨rfl, rfl⟩
  · intro x s e hsince htrigger
    refine ⟨fun hx => ?_, fun hx => ?_⟩
    · by_contra hstart
      obtain ⟨-, -, hadmits⟩ := starts_admits (Bool.not_eq_false _ ▸ hstart)
      exact hadmits.hopeful (hsince hx)
    · obtain ⟨hreadiness, hretryable⟩ := hsince hx
      rcases htrigger.cases with rfl | rfl | hauto
      · unfold SyncClock.step SyncCoordinator.apply
        dsimp only
        rw [SyncCoordinator.noteNetworkAvailable_eq]
        exact ⟨hreadiness, hretryable⟩
      · unfold SyncClock.step SyncCoordinator.apply SyncCoordinator.noteExplicitRequest
        dsimp only
        split
        · exact ⟨hreadiness, hretryable⟩
        · exact ⟨hreadiness, hretryable⟩
      · have hstep := automatic_step hauto
        generalize s.step e = s' at hstep ⊢
        cases hstep with
        | pass now hnow => exact ⟨hreadiness, hretryable⟩
        | begins kind hadmits =>
            exact absurd ⟨hreadiness, hretryable⟩ hadmits.hopeful
        | refused kind hnot => exact ⟨hreadiness, hretryable⟩
        | fails kind terminal errorCode message hrunning =>
            rw [hreadiness] at hrunning
            cases hrunning
        | converges op c hop hcritical =>
            obtain ⟨hreadiness', hretryable', -, -⟩ :=
              SyncCoordinator.gate_of_critical hcritical
            exact ⟨hreadiness'.trans hreadiness, hretryable'.trans hretryable⟩

/-- The runs that begin in a window, oldest first. -/
def startsIn (first last : Int) (xs : List (SyncClock × SyncEvent)) :
    List (SyncClock × SyncEvent) :=
  xs.filter (fun x => starts x && decide (first ≤ x.1.now.ms ∧ x.1.now.ms ≤ last))

/-- A window has room for one run more than delays. -/
theorem startsIn_length {es : List SyncEvent} {first last : Int}
    (hauto : Guarded SyncClock.step SyncEvent.Automatic s es)
    (hwindow : first ≤ last) :
    (startsIn first last (trace SyncClock.step s es)).length * syncRetryBaseMs ≤
      last - first + syncRetryBaseMs := by
  have hin : ∀ x ∈ startsIn first last (trace SyncClock.step s es),
      starts x = true ∧ first ≤ x.1.now.ms ∧ x.1.now.ms ≤ last := by
    intro x hx
    simpa using (List.mem_filter.mp hx).2
  have hspaced : ((startsIn first last (trace SyncClock.step s es)).map
      (fun x => x.1.now.ms)).Pairwise (fun t t' => t + syncRetryBaseMs ≤ t') := by
    rw [List.pairwise_map]
    exact ((starts_spaced hauto).filter _).imp_of_mem
      (fun hx hy hxy => hxy (hin _ hx).1 (hin _ hy).1)
  have hlength := length_of_spaced (by decide) hspaced
    (fun t ht => ?_) (fun t ht => ?_) hwindow
  · simpa using hlength
  · obtain ⟨x, hx, rfl⟩ := List.mem_map.mp ht
    exact (hin x hx).2.1
  · obtain ⟨x, hx, rfl⟩ := List.mem_map.mp ht
    exact (hin x hx).2.2

/--
After a failure that is retried no run begins before its delay is over; the
delays lie within the bounds and do not shrink while their base grows; after a
terminal failure no run begins; and a window bounds the runs that begin in it.
-/
theorem retries_spaced (s : SyncClock) (es : List SyncEvent) :
    (Guarded SyncClock.step SyncEvent.Automatic s es →
      (trace SyncClock.step s es).Pairwise (fun x y =>
        FailsAs false x → starts y = true →
          x.1.now.ms + failedDelay x ≤ y.1.now.ms) ∧
      (∀ x ∈ trace SyncClock.step s es, FailsAs false x →
        syncRetryBaseMs ≤ failedDelay x ∧ failedDelay x ≤ syncRetryMaxMs) ∧
      (trace SyncClock.step s es).Pairwise (fun x y =>
        FailsAs false x → FailsAs false y →
          SyncCoordinator.retryBaseMs (failedAttempt x) < syncRetryMaxMs →
          failedDelay x ≤ failedDelay y) ∧
      ∀ first last : Int, first ≤ last →
        (startsIn first last (trace SyncClock.step s es)).length *
            syncRetryBaseMs ≤ last - first + syncRetryBaseMs) ∧
    (Guarded SyncClock.step SyncEvent.Triggering s es →
      (trace SyncClock.step s es).Pairwise (fun x y =>
        FailsAs true x → starts y = false)) :=
  ⟨fun hauto => ⟨deadline_spaced hauto, fun _ _ _ => retryDelayMs_bounds _ _,
      delays_grow hauto, fun _ _ hwindow => startsIn_length hauto hwindow⟩,
    terminal_blocks⟩

def ClockMs.at (ms : Nat) (h : ms ≤ 8210266876799999) : ClockMs where
  ms := ms
  low := by omega
  high := by omega

/-- A failure, and a begin before and one after its delay. -/
def retriedOnce : List SyncEvent :=
  [.call (.begin .resume), .call (.fail .resume false (some 503) "unavailable"),
    .call (.begin .resume), .pass (.at 2000 (by decide)), .call (.begin .resume)]

theorem retries_spaced_once :
    (trace SyncClock.step ⟨.new, .at 0 (by decide)⟩ retriedOnce).Pairwise
      (fun x y => FailsAs false x → starts y = true →
        x.1.now.ms + failedDelay x ≤ y.1.now.ms) :=
  ((retries_spaced ⟨.new, .at 0 (by decide)⟩ retriedOnce).1
    ⟨trivial, rfl, trivial, show (0 : Int) ≤ 2000 by decide, trivial, trivial⟩).1

end Retry

end PrivchatSdk
