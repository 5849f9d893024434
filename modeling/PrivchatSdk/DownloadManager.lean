import Mathlib.Data.List.AList
import PrivchatSdk.Lib.Run

/-!
# The coordinator of media downloads

A key has one entry, which names the task that works on it; a task takes a slot, two
if it is background work, and gives everything back when its future is dropped.  A
cancelled task is dropped at its next await point only, so that it overlaps with a
newer task of its key.

The slots and the entries are right in every run.  A task's cleanup compares the task
id, but its state updates do not: an update of a cancelled task changes the entry of a
newer one, and that is the only step of a task that touches an entry of another
(`downloadManager_keeps_entries`).
-/

namespace PrivchatSdk

open EventRun

section Model

def maxActiveDownloads : Nat := 3
def maxBackgroundDownloads : Nat := 2
def maxTrackedDownloads : Nat := 512
def maxBackgroundTrackedDownloads : Nat := 480

inductive MediaKind where
  | payload
  | thumbnail
  deriving DecidableEq, Repr

inductive DownloadPriority where
  | visible
  | background
  deriving DecidableEq, Repr

structure MediaTaskKey where
  ownerUid : String
  sessionEpoch : Nat
  messageId : Nat
  mediaKind : MediaKind
  deriving DecidableEq, Repr

inductive MediaDownloadState where
  | idle
  | downloading (bytes : Nat) (total : Option Nat)
  | paused (bytes : Nat) (total : Option Nat)
  | done (path : String)
  | failed (code : Nat) (message : String)
  deriving DecidableEq, Repr

/-- The flags of an entry are shared with its task, and stand there. -/
structure HandleEntry where
  taskId : Nat
  state : MediaDownloadState
  deriving DecidableEq, Repr

/-- How far the future of a task is; its variables are dropped last one first. -/
inductive TaskPhase where
  | spawned
  /-- It has its `EntryCleanup`, and waits for `start_rx`. -/
  | gated
  | waitingBackground
  | waitingActive
  | running
  | droppingActive
  | droppingBackground
  | cleaning
  | finished
  deriving DecidableEq, Repr

structure DownloadTask where
  key : MediaTaskKey
  priority : DownloadPriority
  phase : TaskPhase
  paused : Bool
  cancelled : Bool
  aborted : Bool
  deriving DecidableEq, Repr

def DownloadTask.new (key : MediaTaskKey) (priority : DownloadPriority) :
    DownloadTask where
  key := key
  priority := priority
  phase := .spawned
  paused := false
  cancelled := false
  aborted := false

/--
The coordinator and its tasks.  The list has all tasks ever spawned, each at its task
id; the ids count from 0 here, and from 1 in the source.
-/
structure DownloadManager where
  entries : AList (fun _ : MediaTaskKey => HandleEntry)
  activeSlots : Nat
  backgroundSlots : Nat
  tasks : List DownloadTask
  /-- Taken out of the entries, but not aborted yet. -/
  cancelling : List Nat
  deriving DecidableEq

namespace DownloadManager

def new : DownloadManager where
  entries := ∅
  activeSlots := maxActiveDownloads
  backgroundSlots := maxBackgroundDownloads
  tasks := []
  cancelling := []

def getState (c : DownloadManager) (key : MediaTaskKey) : MediaDownloadState :=
  match c.entries.lookup key with
  | none => .idle
  | some entry => entry.state

/-- The spawn of a task and the insertion of its entry, under one lock. -/
def spawn (c : DownloadManager) (key : MediaTaskKey) (priority : DownloadPriority)
    (state : MediaDownloadState) : DownloadManager :=
  { c with
    entries := c.entries.insert key ⟨c.tasks.length, state⟩
    tasks := c.tasks ++ [.new key priority] }

def submit (c : DownloadManager) (key : MediaTaskKey) (priority : DownloadPriority) :
    Bool × DownloadManager :=
  if (c.entries.lookup key).isSome ∨ maxTrackedDownloads ≤ c.entries.entries.length ∨
      (priority = .background ∧
        maxBackgroundTrackedDownloads ≤ c.entries.entries.length) then
    (false, c)
  else
    (true, c.spawn key priority .idle)

def startWithTicket (c : DownloadManager) (key : MediaTaskKey) :
    Except String Unit × DownloadManager :=
  if (c.entries.lookup key).isSome then
    (.ok (), c)
  else if maxTrackedDownloads ≤ c.entries.entries.length then
    (.error "receiver download queue is full", c)
  else
    (.ok (), c.spawn key .visible (.downloading 0 none))

def setTask (c : DownloadManager) (id : Nat) (t : DownloadTask) : DownloadManager :=
  { c with tasks := c.tasks.set id t }

/-- `pause` and `resume` of the tracked task. -/
def setPaused (c : DownloadManager) (key : MediaTaskKey) (paused : Bool) :
    DownloadManager :=
  match c.entries.lookup key with
  | none => c
  | some entry =>
      match c.tasks[entry.taskId]? with
      | none => c
      | some t => c.setTask entry.taskId { t with paused := paused }

/-- `cancel`, up to the end of its lock. -/
def cancel (c : DownloadManager) (key : MediaTaskKey) : DownloadManager :=
  match c.entries.lookup key with
  | none => c
  | some entry =>
      { c with
        entries := c.entries.erase key
        cancelling := entry.taskId :: c.cancelling }

/-- `cancel_all_scoped`, up to the end of its lock. -/
def cancelAllScoped (c : DownloadManager) : DownloadManager :=
  { c with
    entries := ∅
    cancelling := c.entries.entries.map (fun x => x.2.taskId) ++ c.cancelling }

/-- The rest of `cancel` and `cancel_all_scoped` for one task. -/
def abort (c : DownloadManager) (id : Nat) : DownloadManager :=
  match c.tasks[id]? with
  | none => c
  | some t =>
      if id ∈ c.cancelling then
        { c.setTask id { t with cancelled := true, aborted := true } with
          cancelling := c.cancelling.filter (· ≠ id) }
      else
        c

def setState (c : DownloadManager) (key : MediaTaskKey) (state : MediaDownloadState) :
    DownloadManager :=
  match c.entries.lookup key with
  | none => c
  | some entry => { c with entries := c.entries.insert key { entry with state := state } }

def removeIfCurrent (c : DownloadManager) (key : MediaTaskKey) (taskId : Nat) :
    DownloadManager :=
  match c.entries.lookup key with
  | none => c
  | some entry =>
      if entry.taskId = taskId then { c with entries := c.entries.erase key } else c

/-- What a task does of its own. -/
inductive TaskStep where
  /-- Up to the next await point or slot; the end of the job, where it runs. -/
  | advance
  /-- `emit`, called by the job. -/
  | emit (state : MediaDownloadState)
  /-- The runtime drops the future of an aborted task. -/
  | dropFuture
  deriving DecidableEq, Repr

/-- The next phase of a task, and the slots and the entry that it takes or gives. -/
def advance (c : DownloadManager) (id : Nat) (t : DownloadTask) : DownloadManager :=
  let next (phase : TaskPhase) := c.setTask id { t with phase := phase }
  match t.phase with
  | .spawned => next .gated
  | .gated =>
      match t.priority with
      | .visible => next .waitingActive
      | .background => next .waitingBackground
  | .waitingBackground =>
      if 0 < c.backgroundSlots then
        { next .waitingActive with backgroundSlots := c.backgroundSlots - 1 }
      else
        c
  | .waitingActive =>
      if 0 < c.activeSlots then
        { next .running with activeSlots := c.activeSlots - 1 }
      else
        c
  | .running => next .droppingActive
  | .droppingActive =>
      { next .droppingBackground with activeSlots := c.activeSlots + 1 }
  | .droppingBackground =>
      match t.priority with
      | .visible => next .cleaning
      | .background =>
          { next .cleaning with backgroundSlots := c.backgroundSlots + 1 }
  | .cleaning => (next .finished).removeIfCurrent t.key id
  | .finished => c

/-- Where the drop of a future begins. -/
def TaskPhase.dropped : TaskPhase → TaskPhase
  | .spawned => .finished
  | .gated => .cleaning
  | .waitingBackground => .cleaning
  | .waitingActive => .droppingBackground
  | .running => .droppingActive
  | phase => phase

def taskStep (c : DownloadManager) (id : Nat) (t : DownloadTask) :
    TaskStep → DownloadManager
  | .advance => c.advance id t
  | .emit state => if t.phase = .running then c.setState t.key state else c
  | .dropFuture =>
      if t.aborted then
        c.setTask id { t with phase := TaskPhase.dropped t.phase }
      else
        c

end DownloadManager

inductive DownloadEvent where
  | submit (key : MediaTaskKey) (priority : DownloadPriority)
  | startWithTicket (key : MediaTaskKey)
  | pause (key : MediaTaskKey)
  | resume (key : MediaTaskKey)
  | cancel (key : MediaTaskKey)
  | cancelAllScoped
  | abort (id : Nat)
  | task (id : Nat) (step : DownloadManager.TaskStep)
  deriving DecidableEq, Repr

def DownloadManager.step (c : DownloadManager) : DownloadEvent → DownloadManager
  | .submit key priority => (c.submit key priority).2
  | .startWithTicket key => (c.startWithTicket key).2
  | .pause key => c.setPaused key true
  | .resume key => c.setPaused key false
  | .cancel key => c.cancel key
  | .cancelAllScoped => c.cancelAllScoped
  | .abort id => c.abort id
  | .task id step =>
      match c.tasks[id]? with
      | none => c
      | some t => c.taskStep id t step

end Model

section Properties

def DownloadTask.runs (t : DownloadTask) : Bool :=
  t.phase = .running

def DownloadTask.runsBackground (t : DownloadTask) : Bool :=
  t.priority = .background && t.runs

/-- The task has an active slot. -/
def DownloadTask.holdsActive (t : DownloadTask) : Bool :=
  t.phase = .running || t.phase = .droppingActive

/-- The task has a background slot. -/
def DownloadTask.holdsBackground (t : DownloadTask) : Bool :=
  t.priority = .background &&
    (t.phase = .waitingActive || t.phase = .running || t.phase = .droppingActive ||
      t.phase = .droppingBackground)

namespace DownloadManager

/-- Every slot is free, or a task has it. -/
structure Slots (c : DownloadManager) : Prop where
  active : c.activeSlots + c.tasks.countP DownloadTask.holdsActive = maxActiveDownloads
  background :
    c.backgroundSlots + c.tasks.countP DownloadTask.holdsBackground = maxBackgroundDownloads
  /-- Only background work waits for a background slot. -/
  waiting : ∀ t ∈ c.tasks, t.phase = .waitingBackground → t.priority = .background

/-- The entry names a task of its key that is neither finished nor cancelled. -/
def Live (c : DownloadManager) (key : MediaTaskKey) (entry : HandleEntry) : Prop :=
  ∃ t, c.tasks[entry.taskId]? = some t ∧ t.key = key ∧ t.phase ≠ .finished ∧
    t.cancelled = false ∧ t.aborted = false ∧ entry.taskId ∉ c.cancelling

/-- The task is finished, cancelled, or has the entry of its key. -/
def Accounted (c : DownloadManager) (id : Nat) (t : DownloadTask) : Prop :=
  t.phase = .finished ∨ t.aborted = true ∨ id ∈ c.cancelling ∨
    ∃ state, c.entries.lookup t.key = some ⟨id, state⟩

/-- The entries are those of the tasks that are neither finished nor cancelled. -/
structure Tracked (c : DownloadManager) : Prop where
  live : ∀ key entry, c.entries.lookup key = some entry → c.Live key entry
  accounted : ∀ id t, c.tasks[id]? = some t → c.Accounted id t
  cancelling_lt : ∀ id ∈ c.cancelling, id < c.tasks.length

/-- The step leaves every entry that is not the task's own as it is. -/
def KeepsOthers (c : DownloadManager) (e : DownloadEvent) : Prop :=
  ∀ id step, e = .task id step → ∀ key entry, c.entries.lookup key = some entry →
    entry.taskId ≠ id → (c.step e).entries.lookup key = some entry

/-- The step is no state update, or as `KeepsOthers`. -/
def CleansOwn (c : DownloadManager) (e : DownloadEvent) : Prop :=
  (∃ id state, e = .task id (.emit state)) ∨ c.KeepsOthers e

/-- A state update finds no entry, that of its task, or the state that it writes. -/
def EmitsOwn (c : DownloadManager) (e : DownloadEvent) : Prop :=
  ∀ id state t entry, e = .task id (.emit state) → c.tasks[id]? = some t →
    t.phase = .running → c.entries.lookup t.key = some entry →
    entry.taskId = id ∨ entry.state = state

end DownloadManager

end Properties

section SlotLemmas

variable {c : DownloadManager} {id : Nat} {t t' : DownloadTask}

theorem countP_set_task {ts : List DownloadTask} (p : DownloadTask → Bool)
    (h : ts[id]? = some t) (u : DownloadTask) :
    (ts.set id u).countP p + (p t).toNat = ts.countP p + (p u).toNat := by
  obtain ⟨hid, rfl⟩ := List.getElem?_eq_some_iff.mp h
  rw [List.countP_set hid]
  cases hp : p ts[id] with
  | false =>
      cases hp' : p u <;> simp
  | true =>
      have hpos : 0 < ts.countP p := List.countP_pos_iff.mpr ⟨_, List.getElem_mem hid, hp⟩
      cases hp' : p u <;> simp only [if_true, Bool.toNat_true, Bool.toNat_false,
        Bool.false_eq_true, if_false] <;> omega

namespace DownloadManager

/-- A task that is set again moves the slots that it takes or gives. -/
theorem Slots.setTask
    (hc : c.Slots) (h : c.tasks[id]? = some t) {active background : Nat}
    (hactive : active + t'.holdsActive.toNat = c.activeSlots + t.holdsActive.toNat)
    (hbackground : background + t'.holdsBackground.toNat =
      c.backgroundSlots + t.holdsBackground.toNat)
    (hwaiting : t'.phase = .waitingBackground → t'.priority = .background) :
    Slots { c.setTask id t' with activeSlots := active, backgroundSlots := background } := by
  have ha := countP_set_task DownloadTask.holdsActive h t'
  have hb := countP_set_task DownloadTask.holdsBackground h t'
  have hca := hc.active
  have hcb := hc.background
  constructor
  · simp only [DownloadManager.setTask]
    omega
  · simp only [DownloadManager.setTask]
    omega
  · intro u hu
    rcases List.mem_or_eq_of_mem_set hu with hu | rfl
    · exact hc.waiting u hu
    · exact hwaiting

/-- The slots do not depend on the entries. -/
theorem Slots.of_same {c c' : DownloadManager} (hc : c.Slots)
    (hactive : c'.activeSlots = c.activeSlots)
    (hbackground : c'.backgroundSlots = c.backgroundSlots) (htasks : c'.tasks = c.tasks) :
    c'.Slots := by
  constructor
  · rw [hactive, htasks]
    exact hc.active
  · rw [hbackground, htasks]
    exact hc.background
  · rw [htasks]
    exact hc.waiting

theorem slots_removeIfCurrent (hc : c.Slots) (key : MediaTaskKey) (taskId : Nat) :
    (c.removeIfCurrent key taskId).Slots := by
  unfold removeIfCurrent
  split
  · exact hc
  · split
    · exact hc.of_same rfl rfl rfl
    · exact hc

theorem slots_advance (hc : c.Slots) (h : c.tasks[id]? = some t) :
    (c.advance id t).Slots := by
  have hmem : t ∈ c.tasks := List.mem_of_getElem? h
  have hwaiting := hc.waiting t hmem
  obtain ⟨key, priority, phase, paused, cancelled, aborted⟩ := t
  cases phase with
  | spawned =>
      exact hc.setTask h rfl rfl nofun
  | gated =>
      cases priority with
      | visible =>
          exact hc.setTask h rfl rfl nofun
      | background =>
          exact hc.setTask h rfl rfl (fun _ => rfl)
  | waitingBackground =>
      cases hwaiting rfl
      simp only [advance]
      split
      · rename_i hfree
        refine hc.setTask h rfl ?_ nofun
        exact Nat.sub_add_cancel hfree
      · exact hc
  | waitingActive =>
      simp only [advance]
      split
      · rename_i hfree
        refine hc.setTask h ?_ rfl nofun
        exact Nat.sub_add_cancel hfree
      · exact hc
  | running =>
      exact hc.setTask h rfl rfl nofun
  | droppingActive =>
      exact hc.setTask h rfl rfl nofun
  | droppingBackground =>
      cases priority with
      | visible =>
          exact hc.setTask h rfl rfl nofun
      | background =>
          exact hc.setTask h rfl rfl nofun
  | cleaning =>
      have hset : Slots (c.setTask id ⟨key, priority, .finished, paused, cancelled, aborted⟩) :=
        hc.setTask h rfl rfl nofun
      exact slots_removeIfCurrent hset key id
  | finished =>
      exact hc

theorem slots_dropped (hc : c.Slots) (h : c.tasks[id]? = some t) :
    (c.setTask id { t with phase := TaskPhase.dropped t.phase }).Slots := by
  have hwaiting := hc.waiting t (List.mem_of_getElem? h)
  obtain ⟨key, priority, phase, paused, cancelled, aborted⟩ := t
  cases phase with
  | waitingBackground =>
      cases hwaiting rfl
      exact hc.setTask h rfl rfl nofun
  | waitingActive =>
      cases priority with
      | visible =>
          exact hc.setTask h rfl rfl nofun
      | background =>
          exact hc.setTask h rfl rfl nofun
  | _ =>
      exact hc.setTask h rfl rfl nofun

theorem slots_spawn (hc : c.Slots) (key : MediaTaskKey) (priority : DownloadPriority)
    (state : MediaDownloadState) : (c.spawn key priority state).Slots := by
  have hactive := hc.active
  have hbackground := hc.background
  constructor
  · simpa [spawn, List.countP_append, DownloadTask.new, DownloadTask.holdsActive] using
      hactive
  · simpa [spawn, List.countP_append, DownloadTask.new, DownloadTask.holdsBackground] using
      hbackground
  · intro t ht
    rcases List.mem_append.mp ht with ht | ht
    · exact hc.waiting t ht
    · cases List.mem_singleton.mp ht
      nofun

theorem slots_setPaused (hc : c.Slots) (key : MediaTaskKey) (paused : Bool) :
    (c.setPaused key paused).Slots := by
  unfold setPaused
  split
  · exact hc
  · split
    · exact hc
    · rename_i t ht
      exact hc.setTask ht rfl rfl (hc.waiting t (List.mem_of_getElem? ht))

theorem slots_step (hc : c.Slots) (e : DownloadEvent) : (c.step e).Slots := by
  cases e with
  | submit key priority =>
      simp only [step, submit]
      split
      · exact hc
      · exact slots_spawn hc key priority _
  | startWithTicket key =>
      simp only [step, startWithTicket]
      split
      · exact hc
      · split
        · exact hc
        · exact slots_spawn hc key _ _
  | pause key =>
      exact slots_setPaused hc key true
  | resume key =>
      exact slots_setPaused hc key false
  | cancel key =>
      simp only [step, cancel]
      split
      · exact hc
      · exact hc.of_same rfl rfl rfl
  | cancelAllScoped =>
      exact hc.of_same rfl rfl rfl
  | abort id =>
      simp only [step, abort]
      split
      · exact hc
      · rename_i t ht
        split
        · have hset : Slots (c.setTask id { t with cancelled := true, aborted := true }) :=
            hc.setTask ht rfl rfl (hc.waiting t (List.mem_of_getElem? ht))
          exact hset.of_same rfl rfl rfl
        · exact hc
  | task id step =>
      simp only [DownloadManager.step]
      split
      · exact hc
      · rename_i t ht
        cases step with
        | advance =>
            exact slots_advance hc ht
        | emit state =>
            simp only [taskStep, setState]
            split
            · split
              · exact hc
              · exact hc.of_same rfl rfl rfl
            · exact hc
        | dropFuture =>
            simp only [taskStep]
            split
            · exact slots_dropped hc ht
            · exact hc

end DownloadManager

end SlotLemmas

section EntryLemmas

namespace DownloadManager

variable {c : DownloadManager} {id : Nat} {t t' : DownloadTask}

theorem Tracked.of_same {c c' : DownloadManager} (hc : c.Tracked)
    (hentries : c'.entries = c.entries) (htasks : c'.tasks = c.tasks)
    (hcancelling : c'.cancelling = c.cancelling) : c'.Tracked := by
  constructor
  · simpa only [Live, hentries, htasks, hcancelling] using hc.live
  · simpa only [Accounted, hentries, htasks, hcancelling] using hc.accounted
  · simpa only [htasks, hcancelling] using hc.cancelling_lt

theorem setTask_self (h : c.tasks[id]? = some t) (u : DownloadTask) :
    (c.setTask id u).tasks[id]? = some u := by
  obtain ⟨hid, -⟩ := List.getElem?_eq_some_iff.mp h
  exact List.getElem?_set_self hid

theorem setTask_of_ne {i : Nat} (h : i ≠ id) :
    (c.setTask id t').tasks[i]? = c.tasks[i]? := by
  exact List.getElem?_set_ne (Ne.symm h)

/-- A task that goes on, or ends after it was aborted, keeps the entries right. -/
theorem Tracked.setTask
    (hc : c.Tracked) (h : c.tasks[id]? = some t) (hkey : t'.key = t.key)
    (hcancelled : t'.cancelled = t.cancelled) (haborted : t'.aborted = t.aborted)
    (hends : t'.phase = .finished → t.phase = .finished ∨ t.aborted = true)
    (hended : t.phase = .finished → t'.phase = .finished) :
    (c.setTask id t').Tracked := by
  constructor
  · intro key entry hentry
    obtain ⟨u, hu, rfl, hphase, hnot, hrest⟩ := hc.live key entry hentry
    by_cases hid : entry.taskId = id
    · rw [hid, h] at hu
      cases hu
      refine ⟨t', by rw [hid]; exact setTask_self h t', hkey, ?_, hcancelled.trans hnot,
        haborted.trans hrest.1, hrest.2⟩
      intro hfinished
      rcases hends hfinished with hf | ha
      · exact hphase hf
      · rw [hrest.1] at ha
        cases ha
    · exact ⟨u, by rw [setTask_of_ne hid]; exact hu, rfl, hphase, hnot, hrest⟩
  · intro i u hu
    by_cases hid : i = id
    · subst hid
      rw [setTask_self h _] at hu
      cases hu
      rcases hc.accounted i t h with hf | ha | hin | hentry
      · exact Or.inl (hended hf)
      · exact Or.inr (Or.inl (haborted.trans ha))
      · exact Or.inr (Or.inr (Or.inl hin))
      · refine Or.inr (Or.inr (Or.inr ?_))
        rwa [hkey]
    · rw [setTask_of_ne hid] at hu
      exact hc.accounted i u hu
  · intro i hi
    simpa [DownloadManager.setTask] using hc.cancelling_lt i hi

theorem lookup_removeIfCurrent {key k : MediaTaskKey} {taskId : Nat}
    {entry : HandleEntry} :
    (c.removeIfCurrent key taskId).entries.lookup k = some entry ↔
      c.entries.lookup k = some entry ∧ ¬ (k = key ∧ entry.taskId = taskId) := by
  unfold removeIfCurrent
  cases hkey : c.entries.lookup key with
  | none =>
      constructor
      · intro hk
        refine ⟨hk, ?_⟩
        rintro ⟨rfl, -⟩
        rw [hkey] at hk
        cases hk
      · exact fun hk => hk.1
  | some current =>
      by_cases hcurrent : current.taskId = taskId
      · simp only [if_pos hcurrent]
        by_cases hk : k = key
        · subst hk
          rw [AList.lookup_erase, hkey]
          constructor
          · intro hnone
            cases hnone
          · rintro ⟨⟨⟩, hnot⟩
            exact absurd ⟨rfl, hcurrent⟩ hnot
        · rw [AList.lookup_erase_ne hk]
          exact (and_iff_left (fun h => hk h.1)).symm
      · simp only [if_neg hcurrent]
        constructor
        · intro hk
          refine ⟨hk, ?_⟩
          rintro ⟨rfl, hid⟩
          rw [hkey] at hk
          cases hk
          exact hcurrent hid
        · exact fun hk => hk.1

@[simp] theorem removeIfCurrent_tasks (key : MediaTaskKey) (taskId : Nat) :
    (c.removeIfCurrent key taskId).tasks = c.tasks := by
  unfold removeIfCurrent
  split
  · rfl
  · split
    · rfl
    · rfl

@[simp] theorem removeIfCurrent_cancelling (key : MediaTaskKey) (taskId : Nat) :
    (c.removeIfCurrent key taskId).cancelling = c.cancelling := by
  unfold removeIfCurrent
  split
  · rfl
  · split
    · rfl
    · rfl

/-- The cleanup takes the entry of the task that ends, and no other. -/
theorem tracked_cleanup
    (hc : c.Tracked) (h : c.tasks[id]? = some t) :
    ((c.setTask id { t with phase := .finished }).removeIfCurrent t.key id).Tracked := by
  constructor
  · intro key entry hentry
    obtain ⟨hlookup, hother⟩ := lookup_removeIfCurrent.mp hentry
    obtain ⟨u, hu, rfl, hlive⟩ := hc.live key entry hlookup
    have hid : entry.taskId ≠ id := by
      rintro rfl
      rw [h] at hu
      cases hu
      exact hother ⟨rfl, rfl⟩
    refine ⟨u, ?_, rfl, ?_⟩
    · rw [removeIfCurrent_tasks, setTask_of_ne hid]
      exact hu
    · rw [removeIfCurrent_cancelling]
      exact hlive
  · intro i u hu
    rw [removeIfCurrent_tasks] at hu
    by_cases hid : i = id
    · subst hid
      rw [setTask_self h _] at hu
      cases hu
      exact Or.inl rfl
    · rw [setTask_of_ne hid] at hu
      rcases hc.accounted i u hu with hf | ha | hin | ⟨state, hentry⟩
      · exact Or.inl hf
      · exact Or.inr (Or.inl ha)
      · refine Or.inr (Or.inr (Or.inl ?_))
        rwa [removeIfCurrent_cancelling]
      · exact Or.inr (Or.inr (Or.inr
          ⟨state, lookup_removeIfCurrent.mpr ⟨hentry, fun hboth => hid hboth.2⟩⟩))
  · intro i hi
    rw [removeIfCurrent_cancelling] at hi
    simpa [DownloadManager.setTask] using hc.cancelling_lt i hi

theorem tracked_advance (hc : c.Tracked) (h : c.tasks[id]? = some t) :
    (c.advance id t).Tracked := by
  have hnext : ∀ phase, phase ≠ .finished → t.phase ≠ .finished →
      (c.setTask id { t with phase := phase }).Tracked :=
    fun phase hphase ht => hc.setTask h rfl rfl rfl (fun hf => absurd hf hphase)
      (fun hf => absurd hf ht)
  obtain ⟨key, priority, phase, paused, cancelled, aborted⟩ := t
  cases phase with
  | spawned =>
      exact hnext _ nofun nofun
  | gated =>
      cases priority with
      | visible =>
          exact hnext _ nofun nofun
      | background =>
          exact hnext _ nofun nofun
  | waitingBackground =>
      simp only [advance]
      split
      · exact (hnext .waitingActive nofun nofun).of_same rfl rfl rfl
      · exact hc
  | waitingActive =>
      simp only [advance]
      split
      · exact (hnext .running nofun nofun).of_same rfl rfl rfl
      · exact hc
  | running =>
      exact hnext _ nofun nofun
  | droppingActive =>
      exact (hnext .droppingBackground nofun nofun).of_same rfl rfl rfl
  | droppingBackground =>
      cases priority with
      | visible =>
          exact hnext _ nofun nofun
      | background =>
          exact (hnext .cleaning nofun nofun).of_same rfl rfl rfl
  | cleaning =>
      exact tracked_cleanup hc h
  | finished =>
      exact hc

theorem tracked_spawn
    (hc : c.Tracked) {key : MediaTaskKey} (hkey : c.entries.lookup key = none)
    (priority : DownloadPriority) (state : MediaDownloadState) :
    (c.spawn key priority state).Tracked := by
  constructor
  · intro k entry hentry
    by_cases hk : k = key
    · subst hk
      rw [spawn, AList.lookup_insert] at hentry
      cases hentry
      refine ⟨.new k priority, by simp [spawn], rfl, nofun, rfl, rfl, ?_⟩
      exact fun hin => Nat.lt_irrefl _ (hc.cancelling_lt _ hin)
    · rw [spawn, AList.lookup_insert_ne hk] at hentry
      obtain ⟨u, hu, hlive⟩ := hc.live k entry hentry
      have hlt := (List.getElem?_eq_some_iff.mp hu).1
      exact ⟨u, by rw [spawn, List.getElem?_append_left hlt]; exact hu, hlive⟩
  · intro i u hu
    simp only [spawn, List.getElem?_append] at hu
    split at hu
    · rcases hc.accounted i u hu with hf | ha | hin | ⟨state', hentry⟩
      · exact Or.inl hf
      · exact Or.inr (Or.inl ha)
      · exact Or.inr (Or.inr (Or.inl hin))
      · have hne : u.key ≠ key := by
          rintro rfl
          rw [hkey] at hentry
          cases hentry
        exact Or.inr (Or.inr (Or.inr
          ⟨state', by rw [spawn, AList.lookup_insert_ne hne]; exact hentry⟩))
    · rename_i hlt
      obtain ⟨hi, hnew⟩ := List.getElem?_eq_some_iff.mp hu
      have hid : i = c.tasks.length := by
        simp at hi
        omega
      subst hid
      have hnew : u = .new key priority := by
        simpa using hnew.symm
      rw [hnew]
      exact Or.inr (Or.inr (Or.inr ⟨state, AList.lookup_insert _⟩))
  · intro i hi
    have hlt := hc.cancelling_lt i hi
    simp only [spawn, List.length_append, List.length_singleton]
    omega

theorem tracked_cancel (hc : c.Tracked) (key : MediaTaskKey) : (c.cancel key).Tracked := by
  unfold cancel
  cases hkey : c.entries.lookup key with
  | none =>
      exact hc
  | some entry =>
      obtain ⟨t, ht, htkey, -⟩ := hc.live key entry hkey
      constructor
      · intro k other hother
        have hk : k ≠ key := by
          rintro rfl
          rw [AList.lookup_erase] at hother
          cases hother
        rw [AList.lookup_erase_ne hk] at hother
        obtain ⟨u, hu, hukey, hphase, hcancelled, haborted, hin⟩ := hc.live k other hother
        refine ⟨u, hu, hukey, hphase, hcancelled, haborted, ?_⟩
        intro hmem
        rcases List.mem_cons.mp hmem with hid | hmem
        · rw [hid, ht] at hu
          cases hu
          exact hk (hukey.symm.trans htkey)
        · exact hin hmem
      · intro i u hu
        rcases hc.accounted i u hu with hf | ha | hin | ⟨state, hentry⟩
        · exact Or.inl hf
        · exact Or.inr (Or.inl ha)
        · exact Or.inr (Or.inr (Or.inl (List.mem_cons_of_mem _ hin)))
        · by_cases hk : u.key = key
          · rw [hk, hkey] at hentry
            cases hentry
            exact Or.inr (Or.inr (Or.inl List.mem_cons_self))
          · exact Or.inr (Or.inr (Or.inr
              ⟨state, by rw [AList.lookup_erase_ne hk]; exact hentry⟩))
      · intro i hi
        rcases List.mem_cons.mp hi with rfl | hi
        · exact (List.getElem?_eq_some_iff.mp ht).1
        · exact hc.cancelling_lt i hi

theorem tracked_cancelAllScoped (hc : c.Tracked) : c.cancelAllScoped.Tracked := by
  constructor
  · intro k entry hentry
    simp [cancelAllScoped] at hentry
  · intro i u hu
    rcases hc.accounted i u hu with hf | ha | hin | ⟨state, hentry⟩
    · exact Or.inl hf
    · exact Or.inr (Or.inl ha)
    · exact Or.inr (Or.inr (Or.inl (List.mem_append_right _ hin)))
    · refine Or.inr (Or.inr (Or.inl (List.mem_append_left _ ?_)))
      exact List.mem_map.mpr ⟨⟨u.key, ⟨i, state⟩⟩, AList.mem_lookup_iff.mp hentry, rfl⟩
  · intro i hi
    rcases List.mem_append.mp hi with hi | hi
    · obtain ⟨⟨key, entry⟩, hmem, rfl⟩ := List.mem_map.mp hi
      obtain ⟨t, ht, -⟩ := hc.live key entry (AList.mem_lookup_iff.mpr hmem)
      exact (List.getElem?_eq_some_iff.mp ht).1
    · exact hc.cancelling_lt i hi

theorem tracked_abort (hc : c.Tracked) (id : Nat) : (c.abort id).Tracked := by
  unfold abort
  split
  · exact hc
  · rename_i t ht
    split
    · rename_i hin
      constructor
      · intro k entry hentry
        obtain ⟨u, hu, hukey, hphase, hcancelled, haborted, hnot⟩ := hc.live k entry hentry
        have hid : entry.taskId ≠ id := by
          rintro rfl
          exact hnot hin
        refine ⟨u, ?_, hukey, hphase, hcancelled, haborted, ?_⟩
        · exact (setTask_of_ne hid).trans hu
        · exact fun hmem => hnot (List.mem_of_mem_filter hmem)
      · intro i u hu
        by_cases hid : i = id
        · subst hid
          have hset := setTask_self ht { t with cancelled := true, aborted := true }
          cases hset.symm.trans hu
          exact Or.inr (Or.inl rfl)
        · rcases hc.accounted i u ((setTask_of_ne hid).symm.trans hu) with
            hf | ha | hi | hentry
          · exact Or.inl hf
          · exact Or.inr (Or.inl ha)
          · exact Or.inr (Or.inr (Or.inl (List.mem_filter.mpr ⟨hi, by simpa using hid⟩)))
          · exact Or.inr (Or.inr (Or.inr hentry))
      · intro i hi
        have hlt := hc.cancelling_lt i (List.mem_of_mem_filter hi)
        simpa [DownloadManager.setTask] using hlt
    · exact hc

theorem tracked_setPaused (hc : c.Tracked) (key : MediaTaskKey) (paused : Bool) :
    (c.setPaused key paused).Tracked := by
  unfold setPaused
  split
  · exact hc
  · split
    · exact hc
    · rename_i t ht
      exact hc.setTask ht rfl rfl rfl Or.inl id

theorem tracked_setState (hc : c.Tracked) (key : MediaTaskKey)
    (state : MediaDownloadState) : (c.setState key state).Tracked := by
  unfold setState
  cases hkey : c.entries.lookup key with
  | none =>
      exact hc
  | some current =>
      constructor
      · intro k entry hentry
        by_cases hk : k = key
        · subst hk
          rw [AList.lookup_insert] at hentry
          cases hentry
          exact hc.live k current hkey
        · rw [AList.lookup_insert_ne hk] at hentry
          exact hc.live k entry hentry
      · intro i u hu
        rcases hc.accounted i u hu with hf | ha | hin | ⟨old, hentry⟩
        · exact Or.inl hf
        · exact Or.inr (Or.inl ha)
        · exact Or.inr (Or.inr (Or.inl hin))
        · refine Or.inr (Or.inr (Or.inr ?_))
          by_cases hk : u.key = key
          · rw [hk, hkey] at hentry
            cases hentry
            exact ⟨state, by rw [hk, AList.lookup_insert]⟩
          · exact ⟨old, by rw [AList.lookup_insert_ne hk]; exact hentry⟩
      · exact hc.cancelling_lt

theorem tracked_step (hc : c.Tracked) (e : DownloadEvent) : (c.step e).Tracked := by
  cases e with
  | submit key priority =>
      simp only [step, submit]
      split
      · exact hc
      · rename_i hfree
        have hkey : c.entries.lookup key = none := by
          simpa using (not_or.mp hfree).1
        exact tracked_spawn hc hkey priority _
  | startWithTicket key =>
      simp only [step, startWithTicket]
      split
      · exact hc
      · rename_i hfree
        split
        · exact hc
        · exact tracked_spawn hc (by simpa using hfree) _ _
  | pause key =>
      exact tracked_setPaused hc key true
  | resume key =>
      exact tracked_setPaused hc key false
  | cancel key =>
      exact tracked_cancel hc key
  | cancelAllScoped =>
      exact tracked_cancelAllScoped hc
  | abort id =>
      exact tracked_abort hc id
  | task id step =>
      simp only [DownloadManager.step]
      split
      · exact hc
      · rename_i t ht
        cases step with
        | advance =>
            exact tracked_advance hc ht
        | emit state =>
            simp only [taskStep]
            split
            · exact tracked_setState hc t.key state
            · exact hc
        | dropFuture =>
            simp only [taskStep]
            split
            · rename_i haborted
              refine hc.setTask ht rfl rfl rfl (fun _ => Or.inr haborted) ?_
              intro hfinished
              simp [hfinished, TaskPhase.dropped]
            · exact hc

end DownloadManager

end EntryLemmas

section Entries

namespace DownloadManager

variable {c : DownloadManager}

theorem countP_runs_le (hc : c.Slots) :
    c.tasks.countP DownloadTask.runs ≤ maxActiveDownloads := by
  have hle : c.tasks.countP DownloadTask.runs ≤ c.tasks.countP DownloadTask.holdsActive := by
    refine List.countP_mono_left (fun t _ ht => ?_)
    simp [DownloadTask.holdsActive, show t.phase = .running by simpa [DownloadTask.runs] using ht]
  have hactive := hc.active
  omega

theorem countP_runsBackground_le (hc : c.Slots) :
    c.tasks.countP DownloadTask.runsBackground ≤ maxBackgroundDownloads := by
  have hle : c.tasks.countP DownloadTask.runsBackground ≤
      c.tasks.countP DownloadTask.holdsBackground := by
    refine List.countP_mono_left (fun t _ ht => ?_)
    simp only [DownloadTask.runsBackground, DownloadTask.runs, Bool.and_eq_true,
      decide_eq_true_eq] at ht
    simp [DownloadTask.holdsBackground, ht.1, ht.2]
  have hbackground := hc.background
  omega

theorem lookup_advance
    {id : Nat} {t : DownloadTask} {key : MediaTaskKey} {entry : HandleEntry}
    (hentry : c.entries.lookup key = some entry) (hother : entry.taskId ≠ id) :
    (c.advance id t).entries.lookup key = some entry := by
  obtain ⟨k, priority, phase, paused, cancelled, aborted⟩ := t
  cases phase with
  | gated =>
      cases priority with
      | visible =>
          exact hentry
      | background =>
          exact hentry
  | waitingBackground =>
      simp only [advance]
      split
      · exact hentry
      · exact hentry
  | waitingActive =>
      simp only [advance]
      split
      · exact hentry
      · exact hentry
  | droppingBackground =>
      cases priority with
      | visible =>
          exact hentry
      | background =>
          exact hentry
  | cleaning =>
      exact lookup_removeIfCurrent.mpr ⟨hentry, fun hboth => hother hboth.2⟩
  | _ =>
      exact hentry

/-- Every step but a state update leaves the entries of other tasks. -/
theorem keepsOthers_of_not_emit
    {e : DownloadEvent} (he : ∀ id state, e ≠ .task id (.emit state)) :
    c.KeepsOthers e := by
  rintro id step rfl key entry hentry hother
  simp only [DownloadManager.step]
  split
  · exact hentry
  · rename_i t ht
    cases step with
    | advance =>
        exact lookup_advance hentry hother
    | emit state =>
        exact absurd rfl (he id state)
    | dropFuture =>
        simp only [taskStep]
        split
        · exact hentry
        · exact hentry

theorem lookup_setState
    {key k : MediaTaskKey} {state : MediaDownloadState} {entry : HandleEntry}
    (hentry : c.entries.lookup k = some entry) :
    (c.setState key state).entries.lookup k =
      some (if k = key then { entry with state := state } else entry) := by
  unfold setState
  by_cases hk : k = key
  · subst hk
    simp [hentry]
  · rw [if_neg hk]
    split
    · exact hentry
    · rw [AList.lookup_insert_ne hk]
      exact hentry

/-- A state update changes an entry of another task, unless it writes what is there. -/
theorem keepsOthers_emit_iff (id : Nat) (state : MediaDownloadState) :
    c.KeepsOthers (.task id (.emit state)) ↔ c.EmitsOwn (.task id (.emit state)) := by
  constructor
  · rintro hkeeps _ _ t entry ⟨⟩ ht hrunning hentry
    by_cases hid : entry.taskId = id
    · exact Or.inl hid
    · have hsame := hkeeps id (.emit state) rfl t.key entry hentry hid
      simp only [step, ht, taskStep, if_pos hrunning, lookup_setState hentry] at hsame
      have hentries := Option.some.inj hsame
      exact Or.inr (congrArg HandleEntry.state hentries).symm
  · rintro hown _ _ ⟨⟩ key entry hentry hother
    simp only [step]
    split
    · exact hentry
    · rename_i t ht
      simp only [taskStep]
      split
      · rename_i hrunning
        rw [lookup_setState hentry]
        split
        · rename_i hkey
          subst hkey
          have hstate := (hown id state t entry rfl ht hrunning hentry).resolve_left hother
          rw [← hstate]
        · rfl
      · exact hentry

theorem keepsOthers_iff (e : DownloadEvent) : c.KeepsOthers e ↔ c.EmitsOwn e := by
  by_cases hemit : ∃ id state, e = .task id (.emit state)
  · obtain ⟨id, state, rfl⟩ := hemit
    exact keepsOthers_emit_iff id state
  · have hnot : ∀ id state, e ≠ .task id (.emit state) :=
      fun id state he => hemit ⟨id, state, he⟩
    exact iff_of_true (keepsOthers_of_not_emit hnot)
      (fun id state _ _ he => absurd he (hnot id state))

theorem cleansOwn (c : DownloadManager) (e : DownloadEvent) : c.CleansOwn e := by
  by_cases hemit : ∃ id state, e = .task id (.emit state)
  · exact Or.inl hemit
  · exact Or.inr (keepsOthers_of_not_emit (fun id state he => hemit ⟨id, state, he⟩))

theorem slots_new : new.Slots := by
  exact ⟨rfl, rfl, nofun⟩

theorem tracked_new : new.Tracked := by
  refine ⟨?_, nofun, nofun⟩
  intro key entry hentry
  simp [new] at hentry

end DownloadManager

/--
In every run at most three jobs run, two of them background work; every slot is free or
in the hands of an unfinished task; the entries are those of the tasks that are neither
finished nor cancelled; and a task's steps other than its state updates leave the
entries of other tasks alone.  All its steps do, exactly if the updates find its own
entry.
-/
theorem downloadManager_keeps_entries (es : List DownloadEvent) :
    let c := run DownloadManager.step DownloadManager.new es
    c.tasks.countP DownloadTask.runs ≤ maxActiveDownloads ∧
      c.tasks.countP DownloadTask.runsBackground ≤ maxBackgroundDownloads ∧
      c.Slots ∧ c.Tracked ∧
      Guarded DownloadManager.step DownloadManager.CleansOwn .new es ∧
      (Guarded DownloadManager.step DownloadManager.KeepsOthers .new es ↔
        Guarded DownloadManager.step DownloadManager.EmitsOwn .new es) := by
  have hslots := run_invariant DownloadManager.Slots (fun _ e hc => DownloadManager.slots_step hc e)
    DownloadManager.slots_new es
  have htracked := run_invariant DownloadManager.Tracked (fun _ e hc => DownloadManager.tracked_step hc e)
    DownloadManager.tracked_new es
  refine ⟨DownloadManager.countP_runs_le hslots,
    DownloadManager.countP_runsBackground_le hslots, hslots, htracked, ?_, ?_⟩
  · exact guarded_of_invariant (fun _ => True)
      (fun c e _ => ⟨trivial, c.cleansOwn e⟩) trivial es
  · have hsame : DownloadManager.KeepsOthers = DownloadManager.EmitsOwn :=
      funext₂ (fun _ e => propext (DownloadManager.keepsOthers_iff e))
    rw [hsame]

def sampleMedia : MediaTaskKey := ⟨"1", 0, 7, .payload⟩

/--
A download is cancelled while it writes a chunk, and started again; its progress goes
into the entry of the new task.
-/
theorem emit_after_restart :
    let c := run DownloadManager.step DownloadManager.new
      [.startWithTicket sampleMedia, .task 0 .advance, .task 0 .advance, .task 0 .advance,
        .cancel sampleMedia, .abort 0, .startWithTicket sampleMedia]
    let updated := c.step (.task 0 (.emit (.downloading 4096 none)))
    c.entries.lookup sampleMedia = some ⟨1, .downloading 0 none⟩ ∧
      updated.entries.lookup sampleMedia = some ⟨1, .downloading 4096 none⟩ := by
  decide

end Entries

end PrivchatSdk
