import PrivchatSdk.Lib.Interleave
import PrivchatSdk.MessageContent
import PrivchatSdk.OutboundFile

/-!
# The cached avatar of one user

A task downloads a URL into one temporary file, renames it over the one file of the
user, and then writes the URL and the path into the user's row, if the row still has
this avatar.  All tasks of the user share the two files; which URLs are being fetched,
and which were found or made current, is remembered for the process.

The file is replaced before the row, and by a task whose URL may be outdated, and what
was remembered outlives a change of the URL.  Row and file agree in every run in which
one task at a time is between its write and its row update and no task replaces the
file of another URL; a call fetches what the row asks for exactly if it does not
remember it (`avatar_file_agrees`).
-/

namespace PrivchatSdk
namespace Avatar

open EventRun Interleave

section Model

/-- The columns of the user's row. -/
structure AvatarRow where
  avatar : String
  avatarLocalPath : String
  avatarCachedUrl : String
  deriving DecidableEq, Repr

/-- The account, the user, the user's file, and what the server has at each URL. -/
structure AvatarEnv where
  selfUid : String
  userId : Nat
  dest : String
  body : String → Bytes

/-- The temporary name beside the user's file. -/
def AvatarEnv.part (env : AvatarEnv) : String :=
  env.dest ++ ".part"

def maxConcurrentAvatarCacheJobs : Nat := 3

/-- The row, the files, and the manager's memory. -/
structure AvatarShared where
  row : Option AvatarRow
  files : String → Option Bytes
  inflight : List String
  verified : List String
  permits : Nat

/-- `selfUid|user_id|url`. -/
def AvatarEnv.key (env : AvatarEnv) (url : String) : String :=
  env.selfUid ++ "|" ++ toString env.userId ++ "|" ++ url

def isHttp (url : String) : Bool :=
  "http".toList.isPrefixOf url.toList

/-- A download; `row` is what `run_ensure` read, and a recache reads none. -/
structure AvatarJob where
  url : String
  row : Option AvatarRow
  deriving DecidableEq, Repr

/-- Where a call stands, and the task that it spawned. -/
inductive AvatarTask where
  | idle
  /-- For a permit of the limiter. -/
  | waiting (url : String)
  | reading (url : String)
  /-- About to look whether the file of the row is there. -/
  | probing (url : String) (row : AvatarRow)
  | requesting (job : AvatarJob)
  | writing (job : AvatarJob)
  | moving (job : AvatarJob)
  | updating (job : AvatarJob)
  /-- About to remove the file of the old layout. -/
  | removing (url : String) (old : String)
  /-- Gives the permit back. -/
  | releasing (url : String) (ok : Bool)
  | settling (url : String) (ok : Bool)
  | done
  deriving DecidableEq, Repr

/-- Calls, and the steps of tasks; `fault` is an error of the step's own. -/
inductive AvatarEvent where
  /-- The user's row gets another avatar; it is made if there is none. -/
  | setAvatar (url : String)
  | ensure (avatarUrl : String)
  | recacheUserAvatar (url : String)
  | advance (fault : Bool)
  deriving DecidableEq, Repr

def AvatarShared.setFile (s : AvatarShared) (path : String) (content : Option Bytes) :
    AvatarShared :=
  { s with files := fun p => if p = path then content else s.files p }

def AvatarShared.setAvatar (s : AvatarShared) (url : String) : AvatarShared :=
  { s with row := some (match s.row with
      | none => ⟨url, "", ""⟩
      | some r => { r with avatar := url }) }

/-- `set_user_avatar_cache`; what it returns is whether a row was changed. -/
def AvatarShared.setUserAvatarCache (s : AvatarShared) (url path : String) :
    Bool × AvatarShared :=
  match s.row with
  | none => (false, s)
  | some r =>
      if r.avatar = url then
        (true, { s with row := some ⟨url, path, url⟩ })
      else
        (false, s)

/-- `force_set_user_avatar_cache`. -/
def AvatarShared.forceSetUserAvatarCache (s : AvatarShared) (url path : String) :
    AvatarShared :=
  { s with row := s.row.map (fun _ => ⟨url, path, url⟩) }

/-- `ensure`: the phase of the task that it spawns, if it does. -/
def ensure (env : AvatarEnv) (s : AvatarShared) (avatarUrl : String) :
    AvatarShared × AvatarTask :=
  let url := trim avatarUrl
  if url = "" ∨ isHttp url = false then
    (s, .done)
  else if env.key url ∈ s.verified ∨ env.key url ∈ s.inflight then
    (s, .done)
  else
    ({ s with inflight := env.key url :: s.inflight }, .waiting url)

def recacheUserAvatar (s : AvatarShared) (avatarUrl : String) :
    AvatarShared × AvatarTask :=
  let url := trim avatarUrl
  if url = "" ∨ isHttp url = false then (s, .done) else (s, .requesting ⟨url, none⟩)

/-- Where a download goes that failed. -/
def AvatarJob.failed (job : AvatarJob) : AvatarTask :=
  match job.row with
  | none => .done
  | some _ => .releasing job.url false

/-- The row update of a download. -/
def updateRow (env : AvatarEnv) (s : AvatarShared) (job : AvatarJob) :
    AvatarShared × AvatarTask :=
  match job.row with
  | none => (s.forceSetUserAvatarCache job.url env.dest, .done)
  | some row =>
      match s.setUserAvatarCache job.url env.dest with
      | (false, s') => (s', .releasing job.url false)
      | (true, s') =>
          if row.avatarLocalPath ≠ "" ∧ row.avatarLocalPath ≠ env.dest then
            (s', .removing job.url row.avatarLocalPath)
          else
            (s', .releasing job.url true)

/-- The next step of a task. -/
def advance (env : AvatarEnv) (s : AvatarShared) (fault : Bool) :
    AvatarTask → AvatarShared × AvatarTask
  | .idle => (s, .idle)
  | .waiting url =>
      if 0 < s.permits then
        ({ s with permits := s.permits - 1 }, .reading url)
      else
        (s, .waiting url)
  | .reading url =>
      if fault then
        (s, .releasing url false)
      else
        match s.row with
        | none => (s, .releasing url false)
        | some r =>
            if r.avatarCachedUrl = url ∧ r.avatarLocalPath ≠ "" then
              (s, .probing url r)
            else
              (s, .requesting ⟨url, some r⟩)
  | .probing url r =>
      if (s.files r.avatarLocalPath).isSome then
        (s, .releasing url true)
      else
        (s, .requesting ⟨url, some r⟩)
  | .requesting job =>
      if fault ∨ env.body job.url = [] then (s, job.failed) else (s, .writing job)
  | .writing job =>
      if fault then
        (s, job.failed)
      else
        (s.setFile env.part (some (env.body job.url)), .moving job)
  | .moving job =>
      match s.files env.part with
      | none => (s, job.failed)
      | some content =>
          if fault then
            (s, job.failed)
          else
            ((s.setFile env.part none).setFile env.dest (some content), .updating job)
  | .updating job => if fault then (s, job.failed) else updateRow env s job
  | .removing url old =>
      (if fault then s else s.setFile old none, .releasing url true)
  | .releasing url ok => ({ s with permits := s.permits + 1 }, .settling url ok)
  | .settling url ok =>
      ({ s with
          inflight := s.inflight.filter (· ≠ env.key url)
          verified := if ok then env.key url :: s.verified else s.verified }, .done)
  | .done => (s, .done)

def avatarStep (env : AvatarEnv) (s : AvatarShared) (task : AvatarTask) :
    AvatarEvent → AvatarShared × AvatarTask
  | .setAvatar url => (s.setAvatar url, task)
  | .ensure avatarUrl =>
      match task with
      | .idle => ensure env s avatarUrl
      | _ => (s, task)
  | .recacheUserAvatar url =>
      match task with
      | .idle => recacheUserAvatar s url
      | _ => (s, task)
  | .advance fault => advance env s fault task

/-- The row names a file only if it holds the body of the row's URL. -/
def Agrees (env : AvatarEnv) (s : AvatarShared) : Prop :=
  ∀ r, s.row = some r → r.avatarLocalPath ≠ "" →
    s.files r.avatarLocalPath = some (env.body r.avatarCachedUrl)

/-- A row and files that agree, of a user whom no task of this process has touched. -/
structure AvatarStart (env : AvatarEnv) where
  row : Option AvatarRow
  files : String → Option Bytes
  agrees : ∀ r, row = some r → r.avatarLocalPath ≠ "" →
    files r.avatarLocalPath = some (env.body r.avatarCachedUrl)
  not_part : ∀ r, row = some r → r.avatarLocalPath ≠ env.part

variable {ι : Type}

abbrev AvatarRun (ι : Type) := Threads ι AvatarShared AvatarTask

def AvatarStart.threads {env : AvatarEnv} (start : AvatarStart env) (ι : Type) :
    AvatarRun ι where
  shared := ⟨start.row, start.files, [], [], maxConcurrentAvatarCacheJobs⟩
  phase _ := .idle

end Model

section Conditions

variable {ι : Type} [DecidableEq ι]

/-- Between the write of the temporary file and the row update. -/
def AvatarTask.InWindow : AvatarTask → Prop
  | .moving _ => True
  | .updating _ => True
  | _ => False

/-- The task writes the temporary file while no other task is in its window. -/
def WritesAlone (c : AvatarRun ι) (e : ι × AvatarEvent) : Prop :=
  ∀ job, c.phase e.1 = .writing job → e.2 = .advance false →
    ∀ i, i ≠ e.1 → ¬ (c.phase i).InWindow

/-- The task renames its file while the row does not name the file of another URL. -/
def ReplacesOwn (env : AvatarEnv) (c : AvatarRun ι) (e : ι × AvatarEvent) : Prop :=
  ∀ job, c.phase e.1 = .moving job → e.2 = .advance false →
    ∀ r, c.shared.row = some r → r.avatarLocalPath = env.dest →
      r.avatarCachedUrl = job.url

def Orderly (env : AvatarEnv) (c : AvatarRun ι) (e : ι × AvatarEvent) : Prop :=
  WritesAlone c e ∧ ReplacesOwn env c e

/-- The URL that a task of `ensure` works on. -/
def AvatarTask.inFlight : AvatarTask → Option String
  | .waiting url => some url
  | .reading url => some url
  | .probing url _ => some url
  | .requesting job => job.row.map (fun _ => job.url)
  | .writing job => job.row.map (fun _ => job.url)
  | .moving job => job.row.map (fun _ => job.url)
  | .updating job => job.row.map (fun _ => job.url)
  | .removing url _ => some url
  | .releasing url _ => some url
  | .settling url _ => some url
  | _ => none

/--
A call of `ensure` for the row's avatar, with another URL in the cache and no task of
this URL in flight.
-/
structure Due (c : AvatarRun ι) (e : ι × AvatarEvent) (url : String) : Prop where
  call : e.2 = .ensure url
  idle : c.phase e.1 = .idle
  current : ∃ r, c.shared.row = some r ∧ r.avatar = url ∧ r.avatarCachedUrl ≠ url
  quiet : ∀ i, (c.phase i).inFlight ≠ some (trim url)

/-- A call that is due starts a download. -/
def StartsDownload (env : AvatarEnv) (c : AvatarRun ι) (e : ι × AvatarEvent) : Prop :=
  ∀ url, Due c e url →
    (c.step (avatarStep env) e).phase e.1 = .waiting (trim url)

/-- A call that is due is for an http URL that is not remembered as verified. -/
def Forgotten (env : AvatarEnv) (c : AvatarRun ι) (e : ι × AvatarEvent) : Prop :=
  ∀ url, Due c e url →
    isHttp (trim url) = true ∧ env.key (trim url) ∉ c.shared.verified

end Conditions

section Steps

variable {env : AvatarEnv} {s s' : AvatarShared} {task : AvatarTask} {e : AvatarEvent}

/-- What a step does to the row and the files. -/
inductive Change (env : AvatarEnv) (s : AvatarShared) (task : AvatarTask)
    (e : AvatarEvent) (s' : AvatarShared) : Prop where
  | same (hrow : s'.row = s.row) (hfiles : s'.files = s.files)
  | avatar (url : String) (hs : s' = s.setAvatar url)
  | wrote (job : AvatarJob) (htask : task = .writing job) (he : e = .advance false)
      (hs : s' = s.setFile env.part (some (env.body job.url)))
  | renamed (job : AvatarJob) (content : Bytes) (htask : task = .moving job)
      (he : e = .advance false) (hpart : s.files env.part = some content)
      (hs : s' = (s.setFile env.part none).setFile env.dest (some content))
  | updated (job : AvatarJob) (htask : task = .updating job)
      (hrow : s'.row = some ⟨job.url, env.dest, job.url⟩) (hfiles : s'.files = s.files)
  | removed (url old : String) (htask : task = .removing url old)
      (hs : s' = s.setFile old none)

theorem change_updateRow (job : AvatarJob) :
    Change env s (.updating job) e (updateRow env s job).1 := by
  unfold updateRow
  split
  · cases hrow : s.row with
    | none =>
        exact .same (by simp [AvatarShared.forceSetUserAvatarCache, hrow]) rfl
    | some r =>
        exact .updated job rfl (by simp [AvatarShared.forceSetUserAvatarCache, hrow]) rfl
  · cases hrow : s.row with
    | none =>
        simp only [AvatarShared.setUserAvatarCache, hrow]
        exact .same rfl rfl
    | some r =>
        by_cases havatar : r.avatar = job.url
        · simp only [AvatarShared.setUserAvatarCache, hrow, if_pos havatar]
          split
          · exact .updated job rfl rfl rfl
          · exact .updated job rfl rfl rfl
        · simp only [AvatarShared.setUserAvatarCache, hrow, if_neg havatar]
          exact .same rfl rfl

theorem change_advance (fault : Bool) :
    Change env s task (.advance fault) (advance env s fault task).1 := by
  cases task with
  | waiting url =>
      simp only [advance]
      split
      · exact .same rfl rfl
      · exact .same rfl rfl
  | reading url =>
      simp only [advance]
      split
      · exact .same rfl rfl
      · split
        · exact .same rfl rfl
        · split
          · exact .same rfl rfl
          · exact .same rfl rfl
  | probing url r =>
      simp only [advance]
      split
      · exact .same rfl rfl
      · exact .same rfl rfl
  | requesting job =>
      simp only [advance]
      split
      · exact .same rfl rfl
      · exact .same rfl rfl
  | writing job =>
      cases fault with
      | true =>
          exact .same rfl rfl
      | false =>
          exact .wrote job rfl rfl rfl
  | moving job =>
      cases hpart : s.files env.part with
      | none =>
          simp only [advance, hpart]
          exact .same rfl rfl
      | some content =>
          cases fault with
          | true =>
              simp only [advance, hpart]
              exact .same rfl rfl
          | false =>
              simp only [advance, hpart]
              exact .renamed job content rfl rfl hpart rfl
  | updating job =>
      cases fault with
      | true =>
          exact .same rfl rfl
      | false =>
          exact change_updateRow job
  | removing url old =>
      cases fault with
      | true =>
          exact .same rfl rfl
      | false =>
          exact .removed url old rfl rfl
  | _ =>
      exact .same rfl rfl

theorem change_step : Change env s task e (avatarStep env s task e).1 := by
  cases e with
  | setAvatar url =>
      exact .avatar url rfl
  | ensure avatarUrl =>
      cases task with
      | idle =>
          simp only [avatarStep, ensure]
          split
          · exact .same rfl rfl
          · split
            · exact .same rfl rfl
            · exact .same rfl rfl
      | _ =>
          exact .same rfl rfl
  | recacheUserAvatar url =>
      cases task with
      | idle =>
          simp only [avatarStep, recacheUserAvatar]
          split
          · exact .same rfl rfl
          · exact .same rfl rfl
      | _ =>
          exact .same rfl rfl
  | advance fault =>
      exact change_advance fault

end Steps

section Agreement

variable {env : AvatarEnv} {s s' : AvatarShared} {task : AvatarTask} {e : AvatarEvent}

theorem part_ne_dest (env : AvatarEnv) : env.part ≠ env.dest := by
  intro h
  have hlength := congrArg (fun x => x.toList.length) h
  simp [AvatarEnv.part] at hlength

/-- The row does not name the temporary file. -/
def NotPart (env : AvatarEnv) (row : Option AvatarRow) : Prop :=
  ∀ r, row = some r → r.avatarLocalPath ≠ env.part

/-- The row names the user's file. -/
def NamesDest (env : AvatarEnv) (s : AvatarShared) : Prop :=
  ∃ r, s.row = some r ∧ r.avatarLocalPath = env.dest

/-- What holds of a task, its row and its files. -/
def TaskInv (env : AvatarEnv) (s : AvatarShared) : AvatarTask → Prop
  | .probing _ r => NotPart env (some r)
  | .requesting job => NotPart env job.row
  | .writing job => NotPart env job.row
  | .moving job => NotPart env job.row ∧ s.files env.part = some (env.body job.url)
  | .updating job => NotPart env job.row ∧ s.files env.dest = some (env.body job.url)
  | .removing _ old => old ≠ env.dest ∧ old ≠ env.part ∧ NamesDest env s
  | _ => True

theorem notPart_change (h : NotPart env s.row) (hc : Change env s task e s') :
    NotPart env s'.row := by
  cases hc with
  | same hrow hfiles =>
      rwa [hrow]
  | avatar url hs =>
      subst hs
      rintro r ⟨⟩
      cases hrow : s.row with
      | none =>
          exact fun hpart => absurd (congrArg (fun x => x.toList.length) hpart)
            (by simp [AvatarEnv.part])
      | some r =>
          exact h r hrow
  | wrote job htask he hs =>
      subst hs
      exact h
  | renamed job content htask he hpart hs =>
      subst hs
      exact h
  | updated job htask hrow hfiles =>
      rw [hrow]
      rintro r ⟨⟩
      exact (part_ne_dest env).symm
  | removed url old htask hs =>
      subst hs
      exact h

theorem namesDest_change (h : NamesDest env s) (hc : Change env s task e s') :
    NamesDest env s' := by
  obtain ⟨r, hr, hdest⟩ := h
  cases hc with
  | same hrow hfiles =>
      exact ⟨r, hrow.trans hr, hdest⟩
  | avatar url hs =>
      subst hs
      exact ⟨{ r with avatar := url }, by simp [AvatarShared.setAvatar, hr], hdest⟩
  | wrote job htask he hs =>
      subst hs
      exact ⟨r, hr, hdest⟩
  | renamed job content htask he hpart hs =>
      subst hs
      exact ⟨r, hr, hdest⟩
  | updated job htask hrow hfiles =>
      exact ⟨_, hrow, rfl⟩
  | removed url old htask hs =>
      subst hs
      exact ⟨r, hr, hdest⟩

/-- Outside its window a task only relies on what every step keeps. -/
theorem taskInv_change {other : AvatarTask} (h : TaskInv env s other)
    (hc : Change env s task e s') (htask : TaskInv env s task)
    (hwindow : other.InWindow → ¬ task.InWindow ∧ ∀ job, task = .writing job →
      e ≠ .advance false) :
    TaskInv env s' other := by
  have hfiles : other.InWindow →
      s'.files env.part = s.files env.part ∧ s'.files env.dest = s.files env.dest := by
    intro hin
    obtain ⟨hout, hwrites⟩ := hwindow hin
    cases hc with
    | same hrow hfiles =>
        rw [hfiles]
        exact ⟨rfl, rfl⟩
    | avatar url hs =>
        subst hs
        exact ⟨rfl, rfl⟩
    | wrote job hwriting he hs =>
        exact absurd he (hwrites job hwriting)
    | renamed job content hmoving he hpart hs =>
        subst hmoving
        exact absurd trivial hout
    | updated job hupdating hrow hfiles =>
        subst hupdating
        exact absurd trivial hout
    | removed url old hremoving hs =>
        subst hremoving
        subst hs
        exact ⟨if_neg htask.2.1.symm, if_neg htask.1.symm⟩
  cases other with
  | moving job =>
      exact ⟨h.1, (hfiles trivial).1.trans h.2⟩
  | updating job =>
      exact ⟨h.1, (hfiles trivial).2.trans h.2⟩
  | removing url old =>
      exact ⟨h.1, h.2.1, namesDest_change h.2.2 hc⟩
  | _ =>
      exact h

/-- Only a rename can part the row from its file. -/
theorem agrees_change
    (h : Agrees env s) (hnot : NotPart env s.row) (hc : Change env s task e s')
    (htask : TaskInv env s task)
    (hreplaces : ∀ job, task = .moving job → e = .advance false →
      ∀ r, s.row = some r → r.avatarLocalPath = env.dest → r.avatarCachedUrl = job.url) :
    Agrees env s' := by
  intro r hr hpath
  cases hc with
  | same hrow hfiles =>
      rw [hfiles]
      exact h r (hrow.symm.trans hr) hpath
  | avatar url hs =>
      subst hs
      cases hrow : s.row with
      | none =>
          simp only [AvatarShared.setAvatar, hrow, Option.some.injEq] at hr
          subst hr
          exact absurd rfl hpath
      | some old =>
          simp only [AvatarShared.setAvatar, hrow, Option.some.injEq] at hr
          subst hr
          exact h old hrow hpath
  | wrote job hwriting he hs =>
      subst hs
      exact (if_neg (hnot r hr)).trans (h r hr hpath)
  | renamed job content hmoving he hpart hs =>
      subst hs
      subst hmoving
      have hcontent : content = env.body job.url :=
        Option.some.inj (hpart.symm.trans htask.2)
      by_cases hdest : r.avatarLocalPath = env.dest
      · rw [hdest, hreplaces job rfl he r hr hdest, ← hcontent]
        exact if_pos rfl
      · exact (if_neg hdest).trans ((if_neg (hnot r hr)).trans (h r hr hpath))
  | updated job hupdating hrow hfiles =>
      subst hupdating
      rw [hrow] at hr
      cases hr
      rw [hfiles]
      exact htask.2
  | removed url old hremoving hs =>
      subst hremoving
      subst hs
      obtain ⟨hold, -, r', hr', hdest⟩ := htask
      cases hr'.symm.trans hr
      have hne : r.avatarLocalPath ≠ old := by
        rw [hdest]
        exact hold.symm
      exact (if_neg hne).trans (h r hr hpath)

theorem taskInv_failed (job : AvatarJob) (s : AvatarShared) : TaskInv env s job.failed := by
  unfold AvatarJob.failed
  split
  · trivial
  · trivial

theorem taskInv_updateRow {job : AvatarJob} (hjob : NotPart env job.row) :
    TaskInv env (updateRow env s job).1 (updateRow env s job).2 := by
  unfold updateRow
  split
  · trivial
  · rename_i row hrow
    cases hr : s.row with
    | none =>
        simp only [AvatarShared.setUserAvatarCache, hr]
        trivial
    | some r =>
        by_cases havatar : r.avatar = job.url
        · simp only [AvatarShared.setUserAvatarCache, hr, if_pos havatar]
          split
          · rename_i hold
            exact ⟨hold.2, hjob row hrow, _, rfl, rfl⟩
          · trivial
        · simp only [AvatarShared.setUserAvatarCache, hr, if_neg havatar]
          trivial

/-- The step of a task keeps what holds of it. -/
theorem taskInv_advance
    (h : TaskInv env s task) (hnot : NotPart env s.row) (fault : Bool) :
    TaskInv env (advance env s fault task).1 (advance env s fault task).2 := by
  cases task with
  | waiting url =>
      simp only [advance]
      split
      · trivial
      · trivial
  | reading url =>
      simp only [advance]
      split
      · trivial
      · cases hrow : s.row with
        | none =>
            trivial
        | some r =>
            have hr : NotPart env (some r) := hrow ▸ hnot
            simp only
            split
            · exact hr
            · exact hr
  | probing url r =>
      simp only [advance]
      split
      · trivial
      · exact h
  | requesting job =>
      simp only [advance]
      split
      · exact taskInv_failed job s
      · exact h
  | writing job =>
      cases fault with
      | true =>
          exact taskInv_failed job s
      | false =>
          exact ⟨h, if_pos rfl⟩
  | moving job =>
      cases fault with
      | true =>
          simp only [advance, h.2]
          exact taskInv_failed job s
      | false =>
          simp only [advance, h.2]
          exact ⟨h.1, if_pos rfl⟩
  | updating job =>
      cases fault with
      | true =>
          exact taskInv_failed job s
      | false =>
          exact taskInv_updateRow h.1
  | _ =>
      trivial

theorem taskInv_step
    (h : TaskInv env s task) (hnot : NotPart env s.row) (e : AvatarEvent) :
    TaskInv env (avatarStep env s task e).1 (avatarStep env s task e).2 := by
  cases e with
  | setAvatar url =>
      have hc : Change env s .idle (.setAvatar url) (s.setAvatar url) := .avatar url rfl
      exact taskInv_change h hc trivial (fun _ => ⟨nofun, nofun⟩)
  | ensure avatarUrl =>
      cases task with
      | idle =>
          simp only [avatarStep, ensure]
          split
          · trivial
          · split
            · trivial
            · trivial
      | _ =>
          exact h
  | recacheUserAvatar url =>
      cases task with
      | idle =>
          simp only [avatarStep, recacheUserAvatar]
          split
          · trivial
          · exact nofun
      | _ =>
          exact h
  | advance fault =>
      exact taskInv_advance h hnot fault

theorem not_inWindow_failed (job : AvatarJob) : ¬ job.failed.InWindow := by
  unfold AvatarJob.failed
  split
  · exact id
  · exact id

/-- A task enters its window by its write only. -/
theorem writing_of_enters
    (hafter : (avatarStep env s task e).2.InWindow) (hbefore : ¬ task.InWindow) :
    e = .advance false ∧ ∃ job, task = .writing job := by
  cases e with
  | setAvatar url =>
      exact absurd hafter hbefore
  | ensure avatarUrl =>
      cases task with
      | idle =>
          simp only [avatarStep, ensure] at hafter
          split at hafter
          · cases hafter
          · split at hafter
            · cases hafter
            · cases hafter
      | _ =>
          exact absurd hafter hbefore
  | recacheUserAvatar url =>
      cases task with
      | idle =>
          simp only [avatarStep, recacheUserAvatar] at hafter
          split at hafter
          · cases hafter
          · cases hafter
      | _ =>
          exact absurd hafter hbefore
  | advance fault =>
      cases task with
      | waiting url =>
          simp only [avatarStep, advance] at hafter
          split at hafter
          · cases hafter
          · cases hafter
      | reading url =>
          simp only [avatarStep, advance] at hafter
          split at hafter
          · cases hafter
          · split at hafter
            · cases hafter
            · split at hafter
              · cases hafter
              · cases hafter
      | probing url r =>
          simp only [avatarStep, advance] at hafter
          split at hafter
          · cases hafter
          · cases hafter
      | requesting job =>
          simp only [avatarStep, advance] at hafter
          split at hafter
          · exact absurd hafter (not_inWindow_failed job)
          · cases hafter
      | writing job =>
          cases fault with
          | true =>
              exact absurd hafter (not_inWindow_failed job)
          | false =>
              exact ⟨rfl, job, rfl⟩
      | moving job =>
          exact absurd trivial hbefore
      | updating job =>
          exact absurd trivial hbefore
      | _ =>
          cases hafter

variable {ι : Type} [DecidableEq ι]

/-- What holds of the row, the files and the tasks in an orderly run. -/
structure RunInv (env : AvatarEnv) (c : AvatarRun ι) : Prop where
  agrees : Agrees env c.shared
  not_part : NotPart env c.shared.row
  tasks : ∀ i, TaskInv env c.shared (c.phase i)
  exclusive : c.Exclusive AvatarTask.InWindow

theorem runInv_step {c : AvatarRun ι} (h : RunInv env c) {e : ι × AvatarEvent}
    (horderly : Orderly env c e) : RunInv env (c.step (avatarStep env) e) := by
  have hc : Change env c.shared (c.phase e.1) e.2 (c.step (avatarStep env) e).shared :=
    change_step
  refine ⟨agrees_change h.agrees h.not_part hc (h.tasks e.1) horderly.2,
    notPart_change h.not_part hc, ?_, ?_⟩
  · refine Threads.forall_step e (taskInv_step (h.tasks e.1) h.not_part e.2) ?_
    intro i hi
    refine taskInv_change (h.tasks i) hc (h.tasks e.1) ?_
    intro hin
    refine ⟨fun hown => hi (h.exclusive i e.1 hin hown), ?_⟩
    intro job hwriting he
    exact horderly.1 job hwriting he i hi hin
  · refine h.exclusive.step e ?_
    intro hafter
    by_cases hbefore : (c.phase e.1).InWindow
    · exact Or.inl hbefore
    · obtain ⟨he, job, hwriting⟩ := writing_of_enters hafter hbefore
      exact Or.inr (horderly.1 job hwriting he)

end Agreement

section Calls

variable {env : AvatarEnv}

theorem key_inj {url url' : String} (h : env.key url = env.key url') : url = url' := by
  have hlist := congrArg String.toList h
  simp only [AvatarEnv.key, String.toList_append] at hlist
  exact String.ext (List.append_cancel_left hlist)

variable {ι : Type} [DecidableEq ι] {c : AvatarRun ι}

/-- What is remembered as in flight is the URL of a task. -/
def InflightTracked (env : AvatarEnv) (c : AvatarRun ι) : Prop :=
  ∀ k ∈ c.shared.inflight, ∃ i url, env.key url = k ∧ (c.phase i).inFlight = some url

theorem inFlight_failed (job : AvatarJob) :
    job.failed.inFlight = job.row.map (fun _ => job.url) := by
  unfold AvatarJob.failed
  cases job.row with
  | none =>
      rfl
  | some row =>
      rfl

theorem inFlight_updateRow (s : AvatarShared) (job : AvatarJob) :
    (updateRow env s job).2.inFlight = job.row.map (fun _ => job.url) := by
  unfold updateRow
  cases job.row with
  | none =>
      rfl
  | some row =>
      simp only
      split
      · rfl
      · split
        · rfl
        · rfl

theorem inflight_updateRow (s : AvatarShared) (job : AvatarJob) :
    (updateRow env s job).1.inflight = s.inflight := by
  unfold updateRow
  split
  · rfl
  · unfold AvatarShared.setUserAvatarCache
    cases s.row with
    | none =>
        rfl
    | some r =>
        by_cases havatar : r.avatar = job.url
        · simp only [if_pos havatar]
          split
          · rfl
          · rfl
        · simp only [if_neg havatar]

/-- A step of a task keeps its URL in flight, or takes it out of the memory. -/
theorem inFlight_advance {s : AvatarShared} {task : AvatarTask} {fault : Bool}
    {url : String} (h : task.inFlight = some url)
    (hkey : env.key url ∈ (advance env s fault task).1.inflight) :
    (advance env s fault task).2.inFlight = some url := by
  cases task with
  | waiting u =>
      simp only [advance]
      split
      · exact h
      · exact h
  | reading u =>
      simp only [advance]
      split
      · exact h
      · split
        · exact h
        · split
          · exact h
          · exact h
  | probing u r =>
      simp only [advance]
      split
      · exact h
      · exact h
  | requesting job =>
      simp only [advance]
      split
      · exact (inFlight_failed job).trans h
      · exact h
  | writing job =>
      simp only [advance]
      split
      · exact (inFlight_failed job).trans h
      · exact h
  | moving job =>
      simp only [advance]
      split
      · exact (inFlight_failed job).trans h
      · split
        · exact (inFlight_failed job).trans h
        · exact h
  | updating job =>
      simp only [advance]
      split
      · exact (inFlight_failed job).trans h
      · exact (inFlight_updateRow s job).trans h
  | settling u ok =>
      cases h
      have hne : env.key url ≠ env.key url := by
        simpa using (List.mem_filter.mp hkey).2
      exact absurd rfl hne
  | _ =>
      exact h

theorem inflight_advance (s : AvatarShared) (task : AvatarTask) (fault : Bool) {k : String}
    (hk : k ∈ (advance env s fault task).1.inflight) : k ∈ s.inflight := by
  cases task with
  | waiting u =>
      simp only [advance] at hk
      split at hk
      · exact hk
      · exact hk
  | reading u =>
      simp only [advance] at hk
      split at hk
      · exact hk
      · split at hk
        · exact hk
        · split at hk
          · exact hk
          · exact hk
  | probing u r =>
      simp only [advance] at hk
      split at hk
      · exact hk
      · exact hk
  | requesting job =>
      simp only [advance] at hk
      split at hk
      · exact hk
      · exact hk
  | writing job =>
      simp only [advance] at hk
      split at hk
      · exact hk
      · exact hk
  | moving job =>
      simp only [advance] at hk
      split at hk
      · exact hk
      · split at hk
        · exact hk
        · exact hk
  | updating job =>
      simp only [advance] at hk
      split at hk
      · exact hk
      · rwa [inflight_updateRow] at hk
  | removing u old =>
      simp only [advance] at hk
      split at hk
      · exact hk
      · exact hk
  | settling u ok =>
      exact List.mem_of_mem_filter hk
  | _ =>
      exact hk

theorem inFlight_step {s : AvatarShared} {task : AvatarTask} {e : AvatarEvent} {url : String}
    (h : task.inFlight = some url)
    (hkey : env.key url ∈ (avatarStep env s task e).1.inflight) :
    (avatarStep env s task e).2.inFlight = some url := by
  cases e with
  | setAvatar u =>
      exact h
  | ensure u =>
      cases task with
      | idle =>
          cases h
      | _ =>
          exact h
  | recacheUserAvatar u =>
      cases task with
      | idle =>
          cases h
      | _ =>
          exact h
  | advance fault =>
      exact inFlight_advance h hkey

/-- A step adds the URL of its task only. -/
theorem mem_inflight_step {s : AvatarShared} {task : AvatarTask} {e : AvatarEvent}
    {k : String} (hk : k ∈ (avatarStep env s task e).1.inflight) :
    k ∈ s.inflight ∨ ∃ url, env.key url = k ∧
      (avatarStep env s task e).2.inFlight = some url := by
  cases e with
  | setAvatar u =>
      exact Or.inl hk
  | ensure u =>
      cases task with
      | idle =>
          simp only [avatarStep, ensure] at hk ⊢
          split at hk
          · exact Or.inl hk
          · split at hk
            · exact Or.inl hk
            · rename_i hhttp hnew
              rcases List.mem_cons.mp hk with rfl | hk
              · rw [if_neg hhttp, if_neg hnew]
                exact Or.inr ⟨trim u, rfl, rfl⟩
              · exact Or.inl hk
      | _ =>
          exact Or.inl hk
  | recacheUserAvatar u =>
      cases task with
      | idle =>
          simp only [avatarStep, recacheUserAvatar] at hk
          split at hk
          · exact Or.inl hk
          · exact Or.inl hk
      | _ =>
          exact Or.inl hk
  | advance fault =>
      exact Or.inl (inflight_advance s task fault hk)

theorem inflightTracked_step
    (h : InflightTracked env c) (e : ι × AvatarEvent) :
    InflightTracked env (c.step (avatarStep env) e) := by
  intro k hk
  rcases mem_inflight_step hk with hold | ⟨url, hurl, hin⟩
  · obtain ⟨i, url, rfl, hin⟩ := h k hold
    by_cases hi : i = e.1
    · subst hi
      refine ⟨e.1, url, rfl, ?_⟩
      rw [Threads.step_phase_self]
      exact inFlight_step hin hk
    · exact ⟨i, url, rfl, by rw [Threads.step_phase_of_ne e hi]; exact hin⟩
  · refine ⟨e.1, url, hurl, ?_⟩
    rw [Threads.step_phase_self]
    exact hin

/-- A call that is due starts a download exactly if its URL is not remembered. -/
theorem startsDownload_iff
    (h : InflightTracked env c) (e : ι × AvatarEvent) :
    StartsDownload env c e ↔ Forgotten env c e := by
  have hcall : ∀ url, Due c e url → ((c.step (avatarStep env) e).phase e.1 =
      .waiting (trim url) ↔
        isHttp (trim url) = true ∧ env.key (trim url) ∉ c.shared.verified) := by
    intro url hdue
    have hnew : env.key (trim url) ∉ c.shared.inflight := by
      intro hin
      obtain ⟨i, other, hkey, htask⟩ := h _ hin
      rw [key_inj hkey] at htask
      exact hdue.quiet i htask
    rw [Threads.step_phase_self, hdue.call, hdue.idle]
    simp only [avatarStep, ensure]
    by_cases hhttp : isHttp (trim url) = true
    · have hne : trim url ≠ "" := by
        intro hempty
        rw [hempty] at hhttp
        exact absurd hhttp (by decide)
      by_cases hverified : env.key (trim url) ∈ c.shared.verified
      · simp [hhttp, hne, hverified]
      · simp [hhttp, hne, hverified, hnew]
    · simp [hhttp]
  exact forall_congr' (fun url => forall_congr' (fun hdue => hcall url hdue))

end Calls

section Results

variable {env : AvatarEnv}

theorem runInv_start (start : AvatarStart env) (ι : Type) :
    RunInv env (start.threads ι) := by
  refine ⟨start.agrees, start.not_part, fun _ => trivial, ?_⟩
  intro i j hi
  cases hi

/--
Row and file agree after every run in which one task at a time is between its write and
its row update and no rename replaces the file of another URL.  And in every run the
calls that are due start a download, exactly if the memory has forgotten their URL.
-/
theorem avatar_file_agrees
    {ι : Type} [DecidableEq ι] (start : AvatarStart env) (es : List (ι × AvatarEvent)) :
    (Guarded (Threads.step (avatarStep env)) (Orderly env) (start.threads ι) es →
      Agrees env (run (Threads.step (avatarStep env)) (start.threads ι) es).shared) ∧
    (Guarded (Threads.step (avatarStep env)) (StartsDownload env) (start.threads ι) es ↔
      Guarded (Threads.step (avatarStep env)) (Forgotten env) (start.threads ι) es) := by
  constructor
  · intro hguarded
    exact (hguarded.invariant (RunInv env) (fun c e hc he => runInv_step hc he)
      (runInv_start start ι)).agrees
  · have hstart : InflightTracked env (start.threads ι) := nofun
    constructor
    · intro hstarts
      exact hstarts.entails (InflightTracked env)
        (fun c e hc he => ⟨inflightTracked_step hc e, (startsDownload_iff hc e).mp he⟩)
        hstart
    · intro hforgotten
      exact hforgotten.entails (InflightTracked env)
        (fun c e hc he => ⟨inflightTracked_step hc e, (startsDownload_iff hc e).mpr he⟩)
        hstart

/-- A user with the avatar `http://a`, of which nothing is cached. -/
def sampleAvatar : AvatarEnv where
  selfUid := "1"
  userId := 2
  dest := "2.img"
  body url := if url = "http://a" then [1] else [2]

def uncached : AvatarStart sampleAvatar where
  row := some ⟨"http://a", "", ""⟩
  files _ := none
  agrees := by
    rintro r ⟨⟩ hpath
    exact absurd rfl hpath
  not_part := by
    rintro r ⟨⟩
    decide

def advances {ι : Type} (i : ι) (n : Nat) : List (ι × AvatarEvent) :=
  List.replicate n (i, .advance false)

/-- A row that names a file with another body does not agree. -/
theorem not_agrees {env : AvatarEnv} {s : AvatarShared} {r : AvatarRow}
    (hrow : s.row = some r) (hpath : r.avatarLocalPath ≠ "")
    (hfile : s.files r.avatarLocalPath ≠ some (env.body r.avatarCachedUrl)) :
    ¬ Agrees env s :=
  fun h => hfile (h r hrow hpath)

/-- A task that runs alone renames its file while the row names no other. -/
def AvatarRun.replacesOwn (env : AvatarEnv) (c : AvatarRun Unit) : Bool :=
  match c.phase () with
  | .moving job =>
      c.shared.row.all (fun r =>
        r.avatarLocalPath != env.dest || r.avatarCachedUrl == job.url)
  | _ => true

theorem orderly_alone {c : AvatarRun Unit} (h : AvatarRun.replacesOwn env c = true)
    (e : Unit × AvatarEvent) : Orderly env c e := by
  refine ⟨fun job _ _ i hi => absurd (Subsingleton.elim i e.1) hi, ?_⟩
  intro job hjob _ r hr hpath
  have hphase : c.phase () = .moving job := hjob
  unfold AvatarRun.replacesOwn at h
  rw [hphase] at h
  simpa [hr, hpath] using h

/-- One call that downloads the avatar. -/
def fetched : List (Unit × AvatarEvent) :=
  ((), .ensure "http://a") :: advances () 8

/-- The call leaves a row that names its file, and the file has the right body. -/
theorem avatar_file_agrees_fetched :
    (run (Threads.step (avatarStep sampleAvatar)) (uncached.threads Unit)
        fetched).shared.row = some ⟨"http://a", "2.img", "http://a"⟩ ∧
      (run (Threads.step (avatarStep sampleAvatar)) (uncached.threads Unit)
        fetched).shared.files "2.img" = some [1] := by
  have hrow : (run (Threads.step (avatarStep sampleAvatar)) (uncached.threads Unit)
      fetched).shared.row = some ⟨"http://a", "2.img", "http://a"⟩ := by
    decide +kernel
  have horderly : Guarded (Threads.step (avatarStep sampleAvatar)) (Orderly sampleAvatar)
      (uncached.threads Unit) fetched := by
    have hreplaces : Guarded (Threads.step (avatarStep sampleAvatar))
        (fun c _ => AvatarRun.replacesOwn sampleAvatar c = true)
        (uncached.threads Unit) fetched := by
      decide +kernel
    exact hreplaces.entails (fun _ => True)
      (fun _ e _ he => ⟨trivial, orderly_alone he e⟩) trivial
  exact ⟨hrow, (avatar_file_agrees uncached fetched).1 horderly _ hrow (by decide)⟩

/-- Two overlapping downloads; the older one is renamed last. -/
def overtaken : List (Bool × AvatarEvent) :=
  (true, .ensure "http://a") :: advances true 3 ++
    (true, .setAvatar "http://b") :: (false, .ensure "http://b") :: advances false 8 ++
    advances true 2

/-- One download after the other, up to the second rename. -/
def replaced : List (Bool × AvatarEvent) :=
  (true, .ensure "http://a") :: advances true 8 ++
    (false, .setAvatar "http://b") :: (false, .ensure "http://b") :: advances false 5

/-- The avatar changes, is cached, and changes back. -/
def changedBack : List (Fin 3 × AvatarEvent) :=
  (0, .ensure "http://a") :: advances 0 8 ++
    (0, .setAvatar "http://b") :: (1, .ensure "http://b") :: advances 1 8 ++
    [(1, .setAvatar "http://a")]

/--
A slow download of the old avatar is renamed over the file of the new one; a rename
replaces the file before the row; and an old avatar that comes back is not fetched.
-/
theorem avatar_file_differs :
    ¬ Agrees sampleAvatar
        (run (Threads.step (avatarStep sampleAvatar)) (uncached.threads Bool) overtaken).shared ∧
      ¬ Agrees sampleAvatar
        (run (Threads.step (avatarStep sampleAvatar)) (uncached.threads Bool) replaced).shared ∧
      ¬ StartsDownload sampleAvatar
        (run (Threads.step (avatarStep sampleAvatar)) (uncached.threads (Fin 3)) changedBack)
        (2, .ensure "http://a") := by
  refine ⟨?_, ?_, ?_⟩
  · have hrow : (run (Threads.step (avatarStep sampleAvatar)) (uncached.threads Bool)
        overtaken).shared.row = some ⟨"http://b", "2.img", "http://b"⟩ := by
      decide +kernel
    exact not_agrees hrow (by decide) (by decide +kernel)
  · have hrow : (run (Threads.step (avatarStep sampleAvatar)) (uncached.threads Bool)
        replaced).shared.row = some ⟨"http://b", "2.img", "http://a"⟩ := by
      decide +kernel
    exact not_agrees hrow (by decide) (by decide +kernel)
  · intro hstarts
    have hrow : (run (Threads.step (avatarStep sampleAvatar)) (uncached.threads (Fin 3))
        changedBack).shared.row = some ⟨"http://a", "2.img", "http://b"⟩ := by
      decide +kernel
    have hdue : Due (run (Threads.step (avatarStep sampleAvatar)) (uncached.threads (Fin 3))
        changedBack) (2, .ensure "http://a") "http://a" :=
      ⟨rfl, by decide +kernel, ⟨_, hrow, rfl, by decide⟩, by decide +kernel⟩
    exact absurd (hstarts "http://a" hdue) (by decide +kernel)

end Results

end Avatar
end PrivchatSdk
