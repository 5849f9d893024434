import PrivchatSdk.Lib.Run
import PrivchatSdk.Lib.SingleFlight
import PrivchatSdk.TimelineCache

/-!
# The queue of projection repairs

Reads put damaged messages into a bounded queue, a tick repairs a batch of them, and a
message whose repair failed waits for its backoff before it is queued again.

The tick awaits one repair after the other.  The actor is at one await or idle, so a step
here is what happens up to the next await: a tick starts the first repair, the end of a
repair starts the next one of the batch.  The drain borrows the session meanwhile, which
makes a reset wait; an enqueue would have to wait as well and is allowed all the same.

The seen set is the keys that are queued or at an await (`SingleFlight.Line.Exact`), and
the backoff of a key is a function of the failures in a row of its history.
-/

namespace PrivchatSdk
namespace Session

open EventRun
open SingleFlight (Line)

section Actor

/-- What became of a key, or of all of them. -/
inductive RepairRecord where
  | done (key : RepairKey) (outcome : RepairOutcome) (now : Nat)
  | reset

/-- The memory of the session and the repair it awaits. -/
structure RepairActor where
  memory : Memory
  /-- The key at the await, and how many repairs its tick may still start. -/
  running : Option (RepairKey × Nat)
  /-- What happened so far, the latest first; the program keeps no such record. -/
  history : List RepairRecord

def RepairActor.start : RepairActor where
  memory := Memory.fresh
  running := none
  history := []

/-- The key whose repair is awaited. -/
def RepairActor.inFlight (a : RepairActor) : Option RepairKey :=
  a.running.map Prod.fst

/-- What `drain_projection_repairs` does behind its await. -/
def Memory.finishRepair (m : Memory) (now : Nat) (key : RepairKey)
    (outcome : RepairOutcome) : Memory :=
  let m' := { m with repairSeen := m.repairSeen.erase key }
  let forget := { m' with
    repairBackoff := Function.update m'.repairBackoff key none }
  match outcome with
  | .repaired _ => forget.evictChannelCache
      { channelId := key.channelId, channelType := key.channelType }
  | .missing => forget
  | .failed => m'.noteRepairFailure now key

/-- The head of the loop of `drain_projection_repairs`, up to the await. -/
def RepairActor.nextRepair (a : RepairActor) : Nat → RepairActor
  | 0 => a
  | left + 1 =>
      match a.memory.repairQueue with
      | [] => a
      | key :: queue =>
          { a with
            memory := { a.memory with repairQueue := queue }
            running := some (key, left) }

/-- The awaited repair ended, and the next one has not been started. -/
def RepairActor.settled (a : RepairActor) (now : Nat) (key : RepairKey)
    (outcome : RepairOutcome) : RepairActor where
  memory := a.memory.finishRepair now key outcome
  running := none
  history := .done key outcome now :: a.history

inductive RepairEvent where
  /-- `enqueue_projection_repair` at the time `now`. -/
  | enqueue (now : Nat) (key : RepairKey)
  /-- The repair tick fires. -/
  | tick
  /-- The awaited repair ends; a timeout is a failure. -/
  | finish (now : Nat) (outcome : RepairOutcome)
  /-- `reset_session_scoped_state`. -/
  | reset

def RepairActor.step (a : RepairActor) : RepairEvent → RepairActor
  | .enqueue now key => { a with memory := a.memory.enqueueProjectionRepair now key }
  | .tick =>
      match a.running with
      | none => a.nextRepair repairBatchLimit
      | some _ => a
  | .finish now outcome =>
      match a.running with
      | none => a
      | some (key, left) => (a.settled now key outcome).nextRepair left
  | .reset =>
      match a.running with
      | none =>
          { a with
            memory := a.memory.resetSessionScopedState
            history := .reset :: a.history }
      | some _ => a

end Actor

section Backoff

/-- The times at which a key failed since it last did not, the latest first. -/
def failuresInRow (key : RepairKey) : List RepairRecord → List Nat
  | [] => []
  | .reset :: _ => []
  | .done k outcome now :: earlier =>
      if k = key then
        match outcome with
        | .failed => now :: failuresInRow key earlier
        | _ => []
      else
        failuresInRow key earlier

/-- The delay behind the `n`-th failure in a row. -/
def backoffDelay (n : Nat) : Nat :=
  repairBackoffBaseMs * 2 ^ min n repairBackoffMaxShift

/-- The backoff entry after these failures in a row. -/
def backoffAfter : List Nat → Option (Nat × Nat)
  | [] => none
  | last :: earlier =>
      some (earlier.length + 1, last + backoffDelay (earlier.length + 1))

/-- The delay behind the last failure of the key is over. -/
def BackoffOver (failures : List Nat) (now : Nat) : Prop :=
  ∀ last earlier, failures = last :: earlier →
    last + backoffDelay (earlier.length + 1) ≤ now

theorem backoffOver_iff (failures : List Nat) (now : Nat) :
    BackoffOver failures now ↔
      ¬ ((backoffAfter failures).any (fun b => decide (now < b.2)) = true) := by
  cases failures with
  | nil =>
      simp [BackoffOver, backoffAfter]
  | cons last earlier =>
      simp [BackoffOver, backoffAfter]

/-- The backoff entry of a key behind the end of its repair. -/
def Memory.backoffBehind (m : Memory) (now : Nat) (key : RepairKey) :
    RepairOutcome → Option (Nat × Nat)
  | .failed =>
      let attempts := (m.repairBackoff key).elim 0 Prod.fst + 1
      some (attempts, now + backoffDelay attempts)
  | _ => none

/-- The end of a repair takes its key out of the set and renews its backoff. -/
theorem repairs_finishRepair (m : Memory) (now : Nat) (key : RepairKey)
    (outcome : RepairOutcome) :
    (m.finishRepair now key outcome).repairs =
      (m.repairQueue, m.repairSeen.erase key,
        Function.update m.repairBackoff key (m.backoffBehind now key outcome)) := by
  cases outcome with
  | repaired messageId => exact repairs_evict _ _
  | missing => rfl
  | failed => rfl

/-- The backoff that a repair leaves depends on the key's own records only. -/
theorem repairBackoff_finishRepair
    (m : Memory) (now : Nat) (key : RepairKey) (outcome : RepairOutcome)
    {history : List RepairRecord}
    (h : ∀ k, m.repairBackoff k = backoffAfter (failuresInRow k history))
    (k : RepairKey) :
    (m.finishRepair now key outcome).repairBackoff k =
      backoffAfter (failuresInRow k (.done key outcome now :: history)) := by
  have hbackoff : (m.finishRepair now key outcome).repairBackoff =
      Function.update m.repairBackoff key (m.backoffBehind now key outcome) :=
    congrArg (fun r => r.2.2) (repairs_finishRepair m now key outcome)
  rw [hbackoff]
  by_cases hk : k = key
  · subst hk
    rw [Function.update_self]
    cases outcome with
    | repaired messageId => simp [Memory.backoffBehind, failuresInRow, backoffAfter]
    | missing => simp [Memory.backoffBehind, failuresInRow, backoffAfter]
    | failed =>
        simp only [Memory.backoffBehind, failuresInRow, if_true, h]
        cases failuresInRow k history with
        | nil => rfl
        | cons last earlier => rfl
  · rw [Function.update_of_ne hk, h]
    simp only [failuresInRow, if_neg (Ne.symm hk)]

end Backoff

section Runs

/-- The line of the keys to repair. -/
def RepairActor.line (a : RepairActor) : Line RepairKey where
  queue := a.memory.repairQueue
  seen := a.memory.repairSeen
  running := a.inFlight

theorem line_finishRepair (m : Memory) (now : Nat) (key : RepairKey)
    (outcome : RepairOutcome) :
    (m.finishRepair now key outcome).repairQueue = m.repairQueue ∧
      (m.finishRepair now key outcome).repairSeen = m.repairSeen.erase key := by
  have hrepairs := repairs_finishRepair m now key outcome
  exact ⟨congrArg Prod.fst hrepairs, congrArg (fun r => r.2.1) hrepairs⟩

/-- What an enqueue does to the line: nothing within the backoff. -/
theorem line_enqueue (a : RepairActor) (now : Nat) (key : RepairKey) :
    (a.step (.enqueue now key)).line =
      if (a.memory.repairBackoff key).any (fun b => decide (now < b.2)) then a.line
      else a.line.offer repairQueueLimit key := by
  unfold RepairActor.step Memory.enqueueProjectionRepair Line.offer
  by_cases hbackoff : (a.memory.repairBackoff key).any (fun b => decide (now < b.2)) = true
  · simp [hbackoff]
  · by_cases hseen : key ∈ a.memory.repairSeen
    · simp [hbackoff, hseen, RepairActor.line]
    · by_cases hfull : repairQueueLimit ≤ a.memory.repairQueue.length
      · simp [hbackoff, hseen, hfull, RepairActor.line]
      · simp [hbackoff, hseen, hfull, RepairActor.line, RepairActor.inFlight]

theorem line_nextRepair (a : RepairActor) (left : Nat) :
    (a.nextRepair (left + 1)).line = a.line.start := by
  unfold RepairActor.nextRepair Line.start
  cases hqueue : a.memory.repairQueue with
  | nil => simp [RepairActor.line, hqueue]
  | cons key queue => simp [RepairActor.line, RepairActor.inFlight, hqueue]

/-- Starting a repair concerns neither the backoff nor the records. -/
theorem nextRepair_backoff (a : RepairActor) (left : Nat) :
    (a.nextRepair left).memory.repairBackoff = a.memory.repairBackoff ∧
      (a.nextRepair left).history = a.history := by
  cases left with
  | zero => exact ⟨rfl, rfl⟩
  | succ left =>
      unfold RepairActor.nextRepair
      cases a.memory.repairQueue with
      | nil => exact ⟨rfl, rfl⟩
      | cons key queue => exact ⟨rfl, rfl⟩

/-- The line is exact, and the backoff is that of the failures in a row. -/
structure RepairActor.Sound (a : RepairActor) : Prop where
  line : a.line.Exact repairQueueLimit
  backoff : ∀ key, a.memory.repairBackoff key =
    backoffAfter (failuresInRow key a.history)

variable {a : RepairActor}

theorem RepairActor.sound_start : RepairActor.start.Sound where
  line := SingleFlight.Line.exact_empty repairQueueLimit
  backoff := fun _ => rfl

theorem RepairActor.Sound.nextRepair (h : a.Sound) (hidle : a.running = none)
    (left : Nat) : (a.nextRepair left).Sound := by
  obtain ⟨hbackoff, hhistory⟩ := nextRepair_backoff a left
  refine ⟨?_, fun key => by rw [hbackoff, hhistory, h.backoff]⟩
  cases left with
  | zero => exact h.line
  | succ left =>
      rw [line_nextRepair]
      exact h.line.start (by simp [RepairActor.line, RepairActor.inFlight, hidle])

theorem RepairActor.Sound.enqueue (h : a.Sound) (now : Nat) (key : RepairKey) :
    (a.step (.enqueue now key)).Sound := by
  refine ⟨?_, fun k => ?_⟩
  · rw [line_enqueue]
    split
    · exact h.line
    · exact h.line.offer key
  · have hsame : (a.step (.enqueue now key)).memory.repairBackoff =
        a.memory.repairBackoff := by
      unfold RepairActor.step Memory.enqueueProjectionRepair
      dsimp only
      split
      · rfl
      · split
        · rfl
        · split
          · rfl
          · rfl
    rw [hsame]
    exact h.backoff k

theorem RepairActor.Sound.settled (h : a.Sound) {key : RepairKey} {left : Nat}
    (hrunning : a.running = some (key, left)) (now : Nat) (outcome : RepairOutcome) :
    (a.settled now key outcome).Sound where
  line := by
    have hline : (a.settled now key outcome).line = a.line.finish key := by
      obtain ⟨hqueue, hseen⟩ := line_finishRepair a.memory now key outcome
      simp [RepairActor.line, RepairActor.settled, RepairActor.inFlight, Line.finish,
        hqueue, hseen]
    rw [hline]
    exact h.line.finish (by simp [RepairActor.line, RepairActor.inFlight, hrunning])
  backoff := fun k => repairBackoff_finishRepair a.memory now key outcome h.backoff k

theorem RepairActor.Sound.step (h : a.Sound) (event : RepairEvent) :
    (a.step event).Sound := by
  cases event with
  | enqueue now key => exact h.enqueue now key
  | tick =>
      unfold RepairActor.step
      cases hrunning : a.running with
      | none => simpa [hrunning] using h.nextRepair hrunning repairBatchLimit
      | some running => simpa [hrunning] using h
  | finish now outcome =>
      unfold RepairActor.step
      cases hrunning : a.running with
      | none => simpa [hrunning] using h
      | some running =>
          obtain ⟨key, left⟩ := running
          have hnext := (h.settled hrunning now outcome).nextRepair rfl left
          simpa [hrunning] using hnext
  | reset =>
      unfold RepairActor.step
      cases hrunning : a.running with
      | none =>
          have hline : (RepairActor.line
              { a with
                memory := a.memory.resetSessionScopedState
                history := .reset :: a.history }) = Line.empty := by
            simp [RepairActor.line, RepairActor.inFlight, hrunning, Line.empty,
              Memory.resetSessionScopedState_eq, Memory.fresh]
          have hreset : RepairActor.Sound
              { a with
                memory := a.memory.resetSessionScopedState
                history := .reset :: a.history } :=
            ⟨hline ▸ SingleFlight.Line.exact_empty repairQueueLimit, fun _ => rfl⟩
          simpa [hrunning] using hreset
      | some running => simpa [hrunning] using h

theorem RepairActor.sound_run (events : List RepairEvent) :
    (run RepairActor.step RepairActor.start events).Sound :=
  run_invariant RepairActor.Sound (fun _ event h => h.step event)
    RepairActor.sound_start events

end Runs

section Batches

variable {a : RepairActor}

/-- The ends of the repairs of a batch. -/
def batchEvents (outcomes : List (Nat × RepairOutcome)) : List RepairEvent :=
  outcomes.map (fun o => .finish o.1 o.2)

theorem run_batch_cons (a : RepairActor) (now : Nat) (outcome : RepairOutcome)
    (outcomes : List (Nat × RepairOutcome)) :
    run RepairActor.step a (batchEvents ((now, outcome) :: outcomes)) =
      run RepairActor.step (a.step (.finish now outcome)) (batchEvents outcomes) := by
  rfl

theorem run_batch_of_idle (hidle : a.running = none)
    (outcomes : List (Nat × RepairOutcome)) :
    run RepairActor.step a (batchEvents outcomes) = a := by
  induction outcomes with
  | nil =>
      rfl
  | cons outcome outcomes ih =>
      have hstep : a.step (.finish outcome.1 outcome.2) = a := by
        simp [RepairActor.step, hidle]
      rw [run_batch_cons a outcome.1 outcome.2, hstep]
      exact ih

/-- A finished batch has taken its keys off the queue and touched no other key. -/
structure RepairActor.Drained (a : RepairActor) (n : Nat) (a' : RepairActor) : Prop where
  idle : a'.running = none
  queue : a'.memory.repairQueue = a.memory.repairQueue.drop n
  history : ∀ key, key ∉ a.memory.repairQueue →
    failuresInRow key a'.history = failuresInRow key a.history

theorem drained_batch (n : Nat) {a : RepairActor} (hidle : a.running = none)
    (outcomes : List (Nat × RepairOutcome)) (hlength : outcomes.length = n) :
    a.Drained n (run RepairActor.step (a.nextRepair n) (batchEvents outcomes)) := by
  induction n generalizing a outcomes with
  | zero =>
      have hsame : run RepairActor.step (a.nextRepair 0) (batchEvents outcomes) = a :=
        run_batch_of_idle hidle outcomes
      rw [hsame]
      exact ⟨hidle, rfl, fun _ _ => rfl⟩
  | succ n ih =>
      cases hqueue : a.memory.repairQueue with
      | nil =>
          have hnext : a.nextRepair (n + 1) = a := by
            simp [RepairActor.nextRepair, hqueue]
          rw [hnext, run_batch_of_idle hidle]
          exact ⟨hidle, by simp [hqueue], fun _ _ => rfl⟩
      | cons key queue =>
          obtain ⟨⟨now, outcome⟩, outcomes, rfl⟩ :=
            List.exists_cons_of_length_eq_add_one hlength
          have hstep : (a.nextRepair (n + 1)).step (.finish now outcome) =
              ((a.nextRepair (n + 1)).settled now key outcome).nextRepair n := by
            simp [RepairActor.step, RepairActor.nextRepair, hqueue]
          have hsettled : ((a.nextRepair (n + 1)).settled now key
              outcome).memory.repairQueue = queue := by
            refine (line_finishRepair _ now key outcome).1.trans ?_
            simp [RepairActor.nextRepair, hqueue]
          have hrest := ih rfl outcomes (Nat.succ.inj hlength)
            (a := (a.nextRepair (n + 1)).settled now key outcome)
          rw [run_batch_cons, hstep]
          refine ⟨hrest.idle, ?_, fun k hk => ?_⟩
          · rw [hrest.queue, hsettled, hqueue, List.drop_succ_cons]
          · rw [hqueue, List.mem_cons, not_or] at hk
            have hhistory := (nextRepair_backoff a (n + 1)).2
            rw [hrest.history k (hsettled.symm ▸ hk.2)]
            simp only [RepairActor.settled, failuresInRow, if_neg (Ne.symm hk.1), hhistory]

/-- A tick and the ends of its repairs are one call of `drain_projection_repairs`. -/
theorem run_tick_eq_drain {σ : Type} (repair : σ → RepairKey → RepairOutcome × σ)
    (now n : Nat) (store : σ) {a : RepairActor} (hidle : a.running = none) :
    let drained := a.memory.drainProjectionRepairs repair now n store
    let a' := run RepairActor.step (a.nextRepair n)
      (batchEvents (drained.1.map (fun tried => (now, tried.2))))
    a'.memory = drained.2.2 ∧ a'.running = none := by
  induction n generalizing a store with
  | zero =>
      exact ⟨rfl, hidle⟩
  | succ n ih =>
      unfold Memory.drainProjectionRepairs
      cases hqueue : a.memory.repairQueue with
      | nil =>
          have hnext : a.nextRepair (n + 1) = a := by
            simp [RepairActor.nextRepair, hqueue]
          rw [hnext]
          exact ⟨rfl, hidle⟩
      | cons key queue =>
          have hstep : (a.nextRepair (n + 1)).step (.finish now (repair store key).1) =
              ((a.nextRepair (n + 1)).settled now key (repair store key).1).nextRepair
                n := by
            simp [RepairActor.step, RepairActor.nextRepair, hqueue]
          have hrest := ih (repair store key).2
            (a := (a.nextRepair (n + 1)).settled now key (repair store key).1) rfl
          dsimp only at hrest ⊢
          rw [List.map_cons, run_batch_cons, hstep]
          have hmemory : ((a.nextRepair (n + 1)).settled now key
              (repair store key).1).memory =
              Memory.finishRepair { a.memory with repairQueue := queue } now key
                (repair store key).1 := by
            simp [RepairActor.settled, RepairActor.nextRepair, hqueue]
          rw [hmemory] at hrest
          exact hrest

end Batches

section Main

variable {a : RepairActor} {key : RepairKey}

theorem enqueue_of_full (hfull : repairQueueLimit ≤ a.memory.repairQueue.length)
    (now : Nat) (key : RepairKey) : a.step (.enqueue now key) = a := by
  unfold RepairActor.step Memory.enqueueProjectionRepair
  simp [hfull]

/-- Whoever is not in the line comes in, where there is room and no backoff. -/
theorem RepairActor.Sound.enqueued (h : a.Sound) {now : Nat}
    (hover : BackoffOver (failuresInRow key a.history) now)
    (hout : key ∉ a.memory.repairQueue) (hflight : a.inFlight ≠ some key)
    (hroom : a.memory.repairQueue.length < repairQueueLimit) :
    (a.step (.enqueue now key)).memory.repairQueue = a.memory.repairQueue ++ [key] := by
  have hseen : key ∉ a.line.seen := by
    have hmem := (h.line.mem_seen key).not
    exact hmem.mpr (not_or.mpr ⟨hout, hflight⟩)
  have hbackoff : ¬ (a.memory.repairBackoff key).any (fun b => decide (now < b.2)) = true := by
    rw [h.backoff]
    exact (backoffOver_iff _ _).mp hover
  have hline := congrArg Line.queue (line_enqueue a now key)
  rw [if_neg hbackoff] at hline
  exact hline.trans (Line.queue_offer_of_room hseen hroom)

theorem mem_queue_nextRepair {left : Nat}
    (h : key ∈ (a.nextRepair left).memory.repairQueue) : key ∈ a.memory.repairQueue := by
  cases left with
  | zero => exact h
  | succ left =>
      unfold RepairActor.nextRepair at h
      cases hqueue : a.memory.repairQueue with
      | nil => simp [hqueue] at h
      | cons k queue =>
          rw [hqueue] at h
          exact List.mem_cons_of_mem k h

/-- Only an enqueue behind the backoff brings a key to the queue. -/
theorem RepairActor.Sound.queued (h : a.Sound) {event : RepairEvent}
    (hmem : key ∈ (a.step event).memory.repairQueue)
    (hout : key ∉ a.memory.repairQueue) :
    ∃ now, event = .enqueue now key ∧
      BackoffOver (failuresInRow key a.history) now := by
  cases event with
  | enqueue now k =>
      have hline : key ∈ (a.step (.enqueue now k)).line.queue := hmem
      rw [line_enqueue] at hline
      split at hline
      · exact absurd hline hout
      · rename_i hbackoff
        obtain hold | ⟨rfl, -, -⟩ := Line.mem_queue_offer.mp hline
        · exact absurd hold hout
        · rw [h.backoff] at hbackoff
          exact ⟨now, rfl, (backoffOver_iff _ _).mpr hbackoff⟩
  | tick =>
      unfold RepairActor.step at hmem
      cases hrunning : a.running with
      | none =>
          rw [hrunning] at hmem
          exact absurd (mem_queue_nextRepair hmem) hout
      | some running =>
          rw [hrunning] at hmem
          exact absurd hmem hout
  | finish now outcome =>
      unfold RepairActor.step at hmem
      cases hrunning : a.running with
      | none =>
          rw [hrunning] at hmem
          exact absurd hmem hout
      | some running =>
          rw [hrunning] at hmem
          have hsettled := mem_queue_nextRepair hmem
          rw [RepairActor.settled, (line_finishRepair _ _ _ _).1] at hsettled
          exact absurd hsettled hout
  | reset =>
      unfold RepairActor.step at hmem
      cases hrunning : a.running with
      | none =>
          rw [hrunning] at hmem
          cases hmem
      | some running =>
          rw [hrunning] at hmem
          exact absurd hmem hout

/-- A full queue has room again behind a tick. -/
theorem RepairActor.Sound.enqueued_later (h : a.Sound)
    (hidle : a.running = none)
    {outcomes : List (Nat × RepairOutcome)} (hlength : outcomes.length = repairBatchLimit)
    (hseen : key ∉ a.memory.repairSeen) {later : Nat}
    (hover : BackoffOver (failuresInRow key a.history) later) :
    key ∈ (run RepairActor.step a
      (.tick :: batchEvents outcomes ++ [.enqueue later key])).memory.repairQueue := by
  have hout : key ∉ a.memory.repairQueue := fun hmem =>
    hseen ((h.line.mem_seen key).mpr (Or.inl hmem))
  have htick : a.step .tick = a.nextRepair repairBatchLimit := by
    simp [RepairActor.step, hidle]
  have hdrained := drained_batch repairBatchLimit hidle outcomes hlength
  rw [List.cons_append, run_cons, htick, run_append]
  have hsound : (run RepairActor.step (a.nextRepair repairBatchLimit)
      (batchEvents outcomes)).Sound :=
    run_invariant RepairActor.Sound (fun _ event h => h.step event)
      (h.nextRepair hidle repairBatchLimit) _
  have hroom : (a.memory.repairQueue.drop repairBatchLimit).length < repairQueueLimit := by
    have hbounded : a.memory.repairQueue.length ≤ repairQueueLimit := h.line.bounded
    rw [List.length_drop]
    simp only [repairBatchLimit, repairQueueLimit] at hbounded ⊢
    omega
  have henqueued := @RepairActor.Sound.enqueued _ key hsound later
    (by rw [hdrained.history key hout]; exact hover)
    (by rw [hdrained.queue]; exact fun hmem => hout (List.mem_of_mem_drop hmem))
    (by simp [RepairActor.inFlight, hdrained.idle])
    (by rw [hdrained.queue]; exact hroom)
  rw [run_cons, run_nil, henqueued]
  exact List.mem_append_right _ List.mem_cons_self

/--
In every run of enqueues, ticks, ends of repairs and resets, at any times: the seen set
is the keys queued or at an await, which are in the line once each, and the queue is
bounded.  A key comes to the queue by an enqueue only, and not before the delay behind
its failures in a row is over; then it does come, if it is in no line and there is room.
A key that found the queue full leaves no trace, and is queued behind the next tick.
-/
theorem repairQueue_exact (events : List RepairEvent) :
    let a := run RepairActor.step RepairActor.start events
    (∀ key, key ∈ a.memory.repairSeen ↔
      key ∈ a.memory.repairQueue ∨ a.inFlight = some key) ∧
    a.memory.repairQueue.Nodup ∧
    (∀ key, a.inFlight = some key → key ∉ a.memory.repairQueue) ∧
    a.memory.repairQueue.length ≤ repairQueueLimit ∧
    (∀ event key, key ∈ (a.step event).memory.repairQueue →
      key ∉ a.memory.repairQueue →
      ∃ now, event = .enqueue now key ∧
        BackoffOver (failuresInRow key a.history) now) ∧
    (∀ now key, BackoffOver (failuresInRow key a.history) now →
      key ∉ a.memory.repairQueue → a.inFlight ≠ some key →
      a.memory.repairQueue.length < repairQueueLimit →
      (a.step (.enqueue now key)).memory.repairQueue = a.memory.repairQueue ++ [key]) ∧
    (∀ now key, repairQueueLimit ≤ a.memory.repairQueue.length →
      a.step (.enqueue now key) = a ∧
      ∀ outcomes later, a.running = none → outcomes.length = repairBatchLimit →
        key ∉ a.memory.repairSeen → BackoffOver (failuresInRow key a.history) later →
        key ∈ (run RepairActor.step a
          (.tick :: batchEvents outcomes ++ [.enqueue later key])).memory.repairQueue) := by
  intro a
  have h : a.Sound := RepairActor.sound_run events
  exact ⟨h.line.mem_seen, h.line.nodup, h.line.running_not_mem, h.line.bounded,
    fun event key hmem hout => h.queued hmem hout,
    fun now key hover hout hflight hroom => h.enqueued hover hout hflight hroom,
    fun now key hfull => ⟨enqueue_of_full hfull now key,
      fun outcomes later hidle hlength hseen hover =>
        h.enqueued_later hidle hlength hseen hover⟩⟩

end Main

end Session
end PrivchatSdk
