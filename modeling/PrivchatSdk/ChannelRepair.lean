import PrivchatSdk.Lib.Run
import PrivchatSdk.ChannelDifference

/-!
# One run of a channel's difference

A run of `resume_channel_difference` asks a server whose commits do not change: it answers
with the next commits and whether there are more, or that the channel has to start over,
or not at all.  Every statement of the run can fail, and the run can be dropped.

A run touches the saved position of its own channel only (`resumeRun_others`).  One that
starts behind the server and ends well has saved a position that reaches the server's
(`resumeRun_reaches`); one that fails may leave any position on the way.
-/

namespace PrivchatSdk
namespace Difference

open StatementExec EventRun Receive

section Server

/-- The commits of the channels on the server, and the channels that it knows. -/
structure PtsServer where
  commits : Timeline → List ServerCommit
  increasing : ∀ t, LogPages.Increasing ServerCommit.pts (commits t)
  known : Timeline → Bool

variable (server : PtsServer) (t : Timeline)

/-- `current_pts`: the place of the last commit. -/
def PtsServer.currentPts : Nat :=
  ((server.commits t).getLast?.map ServerCommit.pts).getD 0

variable {server t}

/-- A place before the server's leaves a commit behind it that reaches that. -/
theorem PtsServer.exists_behind {last : Nat} (h : last < server.currentPts t) :
    ∃ c ∈ LogPages.behind ServerCommit.pts (server.commits t) last,
      server.currentPts t = c.pts := by
  unfold PtsServer.currentPts at h ⊢
  cases hlast : (server.commits t).getLast? with
  | none =>
      rw [hlast] at h
      exact absurd h (Nat.not_lt_zero last)
  | some c =>
      rw [hlast] at h
      exact ⟨c, LogPages.mem_behind.mpr ⟨List.mem_of_getLast? hlast, h⟩, rfl⟩

end Server

section Model

/--
What becomes of the requests of a run: at most `count + 1` commits; the order to start
over, with the server's position or without, and the history; or an error.
-/
inductive ServerAnswer where
  | commits (count : Nat)
  | startOver (pts : Bool) (history : Option (List MessageHistoryItem))
  | failed

/-- The answer to what the actor asks for. -/
def PtsServer.reply (server : PtsServer) (a : SyncActor) (r : ServerAnswer) :
    DifferenceReply :=
  match a.task, r with
  | .fetch t lastPts _, .commits count =>
      .page (count + 1) (decide (count + 1 <
        (LogPages.behind ServerCommit.pts (server.commits t) lastPts).length))
  | .fetch t _ _, .startOver pts history =>
      .resyncRequired (if pts then some (server.currentPts t) else none) history
  | _, _ => .failed

inductive RepairEvent where
  | answer (r : ServerAnswer)
  | proceed

/-- What a run meets, from its first statement on. -/
structure RepairScript where
  start : Faults
  events : List (Faults × RepairEvent)

variable (codec : Codec) (currentUid : Option Nat) (server : PtsServer)

def SyncActor.repairStep (a : SyncActor) (e : Faults × RepairEvent) : SyncActor :=
  match e.2 with
  | .answer r => a.receive codec currentUid e.1 server.commits (server.reply a r)
  | .proceed => a.proceed codec currentUid e.1

/--
`resume_channel_difference`, called while the actor is idle.  It has returned `Ok` if the
channel is `completed`; else it has failed, or was dropped where it stands.
-/
def SyncActor.resumeRun (script : RepairScript) (a : SyncActor) (t : Timeline) : SyncActor :=
  run (SyncActor.repairStep codec currentUid server)
    ((a.goto .idle).resume script.start t) script.events

end Model

section Repairs

variable (server : PtsServer) (t : Timeline)

/-- The saved position of the channel reaches the server's. -/
def SyncActor.Reaches (a : SyncActor) : Prop :=
  server.currentPts t ≤ (a.resumePts t).getD 0

/-- The page is what comes next, and it says whether it is the last. -/
structure PageOfRun (reaches : Prop) (page : Page) : Prop where
  timeline : page.timeline = t
  position : page.lastPts < server.currentPts t ∨ reaches
  nonempty : page.commits ≠ []
  commits : ∃ count, page.commits =
      (LogPages.behind ServerCommit.pts (server.commits t) page.lastPts).take count ∧
    (page.hasMore = false →
      (LogPages.behind ServerCommit.pts (server.commits t) page.lastPts).length ≤ count)

def CallerOfRun (reaches : Prop) : Caller → Prop
  | .page page => PageOfRun server t reaches page
  | .push => False

def AfterOfRun (reaches : Prop) : AfterApply → Prop
  | .commit _ caller => CallerOfRun server t reaches caller
  | .mutation _ _ caller => CallerOfRun server t reaches caller
  | .pushes => False

/-- Where the run of a channel stands: before the server's position, unless it `reaches`. -/
def TaskOfRun (reaches : Prop) : Task → Prop
  | .idle => True
  | .fetch t' lastPts _ => t' = t ∧ (lastPts < server.currentPts t ∨ reaches)
  | .page page => PageOfRun server t reaches page
  | .apply _ after => AfterOfRun server t reaches after
  | .replay _ caller => CallerOfRun server t reaches caller
  | .reconcile t' => t' = t ∧ reaches

/--
The actor within the run of a channel.  What a run reaches is said of one that started
behind the server; `other` is that this one did not.
-/
structure RunsFor (other : Prop) (a₀ a : SyncActor) : Prop where
  others : ∀ t', t' ≠ t → a.resumePts t' = a₀.resumePts t'
  task : TaskOfRun server t (a.Reaches server t ∨ other) a.task
  completed : ∀ t', a.completed = some t' → a.Reaches server t ∨ other

variable {server t} {other : Prop} {a₀ a : SyncActor}

/-- Going on elsewhere leaves the positions alone. -/
theorem RunsFor.goto (h : RunsFor server t other a₀ a) (a' : SyncActor)
    (hpts : a'.resumePts = a.resumePts) {task : Task} (htask : TaskOfRun server t (a.Reaches server t ∨ other) task) :
    RunsFor server t other a₀ (a'.goto task) where
  others t' ht' := (congrFun hpts t').trans (h.others t' ht')
  task := by
    unfold SyncActor.Reaches at htask ⊢
    rw [← hpts] at htask
    exact htask
  completed _ hnone := nomatch hnone

theorem RunsFor.failed (h : RunsFor server t other a₀ a) (a' : SyncActor)
    (hpts : a'.resumePts = a.resumePts) : RunsFor server t other a₀ a'.failed :=
  h.goto a' hpts trivial

theorem RunsFor.enqueueAndDrain (h : RunsFor server t other a₀ a) {entityType : String}
    {scope : Option String} {items : List (SyncEntityItem ItemPayload)} {after : AfterApply}
    (hafter : AfterOfRun server t (a.Reaches server t ∨ other) after) :
    RunsFor server t other a₀ (a.enqueueAndDrain entityType scope items after) := by
  unfold SyncActor.enqueueAndDrain
  refine h.goto _ ?_ ?_
  · rfl
  · exact hafter

/-- A page that is through goes on with the same commits. -/
theorem CallerOfRun.behindCommit {reaches : Prop} {caller : Caller}
    (h : CallerOfRun server t reaches caller) :
    CallerOfRun server t reaches caller.behindCommit := by
  cases caller with
  | page page => exact ⟨h.timeline, h.position, h.nonempty, h.commits⟩
  | push => exact h

theorem CallerOfRun.task {reaches : Prop} {caller : Caller}
    (h : CallerOfRun server t reaches caller) :
    TaskOfRun server t reaches caller.task := by
  cases caller with
  | page page => exact h
  | push => exact trivial

theorem RunsFor.takeCommit (h : RunsFor server t other a₀ a) (codec : Codec) (f : Faults)
    {scope : String} {commit : ServerCommit} {caller : Caller}
    (hcaller : CallerOfRun server t (a.Reaches server t ∨ other) caller) :
    RunsFor server t other a₀ (a.takeCommit codec f scope commit caller) := by
  unfold SyncActor.takeCommit
  split
  · exact h.failed _ rfl
  · refine h.goto _ ?_ hcaller.behindCommit.task
    rfl
  · exact h.enqueueAndDrain hcaller

theorem RunsFor.finishApply (h : RunsFor server t other a₀ a) (codec : Codec) (f : Faults)
    {after : AfterApply}
    (hafter : AfterOfRun server t (a.Reaches server t ∨ other) after) :
    RunsFor server t other a₀ (a.finishApply codec f after) := by
  unfold SyncActor.finishApply
  cases after with
  | commit commit caller =>
      dsimp only
      split
      · split
        · exact h.failed _ rfl
        · exact h.goto _ rfl hafter.behindCommit
      · exact h.goto _ rfl hafter.behindCommit.task
  | mutation m rest caller =>
      dsimp only
      split
      · exact h.failed _ rfl
      · refine h.goto _ ?_ ?_
        · rfl
        · exact hafter
  | pushes => exact hafter.elim

/-- The position behind a page lies behind the one before it. -/
theorem PageOfRun.lt_next {reaches : Prop} {page : Page}
    (h : PageOfRun server t reaches page) :
    page.lastPts < LogPages.nextPosition ServerCommit.pts page.lastPts page.commits := by
  obtain ⟨count, hcommits, -⟩ := h.commits
  unfold LogPages.nextPosition
  cases hmax : (page.commits.map ServerCommit.pts).max? with
  | none =>
      rw [List.max?_eq_none_iff, List.map_eq_nil_iff] at hmax
      exact absurd hmax h.nonempty
  | some top =>
      obtain ⟨c, hc, rfl⟩ := List.mem_map.mp (List.max?_mem hmax)
      rw [hcommits] at hc
      exact (LogPages.mem_behind.mp (List.mem_of_mem_take hc)).2

/-- The last page reaches the server's position. -/
theorem PageOfRun.last_reaches {reaches : Prop} {page : Page}
    (h : PageOfRun server t reaches page) (hlast : page.hasMore = false) :
    server.currentPts t ≤
      LogPages.nextPosition ServerCommit.pts page.lastPts page.commits := by
  by_cases hposition : page.lastPts < server.currentPts t
  · obtain ⟨count, hcommits, hall⟩ := h.commits
    obtain ⟨c, hc, hpts⟩ := PtsServer.exists_behind hposition
    rw [List.take_of_length_le (hall hlast)] at hcommits
    unfold LogPages.nextPosition
    rw [hcommits, hpts]
    exact LogPages.le_nextPosition hc
  · exact (Nat.le_of_not_lt hposition).trans h.lt_next.le

/-- A new position of the channel. -/
theorem RunsFor.save (h : RunsFor server t other a₀ a) {pts : Nat} {task : Task}
    (htask : TaskOfRun server t (server.currentPts t ≤ pts ∨ other) task) :
    RunsFor server t other a₀
      ({ a with resumePts := Function.update a.resumePts t (some pts) }.goto task) where
  others t' ht' := (Function.update_of_ne ht' _ _).trans (h.others t' ht')
  task := by
    have hreaches : ({ a with resumePts := Function.update a.resumePts t (some pts) }.goto
        task).Reaches server t ↔ server.currentPts t ≤ pts := by
      unfold SyncActor.Reaches SyncActor.goto
      dsimp only
      rw [Function.update_self, Option.getD_some]
    rw [hreaches]
    exact htask
  completed _ hnone := nomatch hnone

theorem RunsFor.endPage (h : RunsFor server t other a₀ a) (f : Faults) {page : Page}
    (hpage : PageOfRun server t (a.Reaches server t ∨ other) page) :
    RunsFor server t other a₀ (a.endPage f page) := by
  have hnext := hpage.lt_next
  unfold SyncActor.endPage
  dsimp only
  rw [if_neg (Nat.not_le.mpr hnext), hpage.timeline]
  split
  · exact h.failed _ rfl
  · refine h.save ?_
    split
    · exact ⟨rfl, (Nat.lt_or_ge _ _).imp_right .inl⟩
    · rename_i hlast
      exact ⟨rfl, .inl (hpage.last_reaches (Bool.eq_false_of_not_eq_true hlast))⟩

theorem RunsFor.proceed (h : RunsFor server t other a₀ a) (codec : Codec)
    (currentUid : Option Nat) (f : Faults) :
    RunsFor server t other a₀ (a.proceed codec currentUid f) := by
  have htask := h.task
  unfold SyncActor.proceed
  split
  · exact h
  · exact h
  · rename_i page hat
    rw [hat] at htask
    split
    · exact h.takeCommit codec f htask
    · exact h.endPage f htask
  · rename_i after hat
    rw [hat] at htask
    exact h.finishApply codec f htask
  · rename_i batches after hat
    rw [hat] at htask
    exact h.goto _ rfl htask
  · rename_i batch item items batches after hat
    rw [hat] at htask
    unfold SyncActor.applyItem
    split
    · refine h.goto _ ?_ ?_
      · rfl
      · exact htask
    · exact h.failed _ rfl
  · rename_i caller hat
    rw [hat] at htask
    exact h.goto _ rfl htask.task
  · rename_i m rest caller hat
    rw [hat] at htask
    unfold SyncActor.replayMutation
    split
    · exact h.failed _ rfl
    · exact h.enqueueAndDrain htask
  · rename_i t' hat
    rw [hat] at htask
    split
    · exact h.failed _ rfl
    · exact ⟨h.others, trivial, fun _ _ => htask.2⟩

theorem RunsFor.answer (h : RunsFor server t other a₀ a) (codec : Codec)
    (currentUid : Option Nat) (f : Faults) (r : ServerAnswer) :
    RunsFor server t other a₀
      (a.receive codec currentUid f server.commits (server.reply a r)) := by
  have htask := h.task
  cases hat : a.task with
  | fetch t' lastPts pages =>
      rw [hat] at htask
      obtain ⟨rfl, hposition⟩ := htask
      unfold SyncActor.receive PtsServer.reply
      rw [hat]
      dsimp only
      split
      · exact h.failed _ rfl
      · cases r with
        | failed => exact h.failed _ rfl
        | commits count =>
            dsimp only
            split
            · rename_i hempty
              -- nothing is left behind the position
              refine h.goto _ rfl ⟨rfl, hposition.resolve_left (fun hless => ?_)⟩
              obtain ⟨c, hc, -⟩ := PtsServer.exists_behind hless
              rw [List.isEmpty_iff, List.take_eq_nil_iff] at hempty
              rw [hempty.resolve_left (Nat.succ_ne_zero count)] at hc
              cases hc
            · rename_i hsome
              refine h.goto _ rfl ⟨rfl, hposition, ?_, count + 1, rfl, ?_⟩
              · exact fun hempty => hsome (List.isEmpty_iff.mpr hempty)
              · exact fun hlast => Nat.le_of_not_lt (of_decide_eq_false hlast)
        | startOver pts history =>
            cases pts with
            | false => exact h.failed _ rfl
            | true =>
                have hsaved : ∀ a' : SyncActor, a'.task = .idle →
                    a'.resumePts = Function.update a.resumePts t'
                      (some (server.currentPts t')) →
                    RunsFor server t' other a₀ a' := by
                  intro a' hidle hpts
                  have hreaches : a'.Reaches server t' := by
                    unfold SyncActor.Reaches
                    rw [hpts, Function.update_self]
                    exact Nat.le_refl _
                  refine ⟨fun t'' ht'' => ?_, ?_, fun _ _ => .inl hreaches⟩
                  · rw [hpts, Function.update_of_ne ht'']
                    exact h.others t'' ht''
                  · rw [hidle]
                    trivial
                dsimp only
                rw [if_pos rfl]
                dsimp only
                split
                · exact h.failed _ rfl
                · cases history with
                  | none => exact hsaved _ rfl rfl
                  | some items => exact hsaved _ rfl rfl
  | idle =>
      unfold SyncActor.receive
      rw [hat]
      exact h
  | page page =>
      unfold SyncActor.receive
      rw [hat]
      exact h
  | apply batches after =>
      unfold SyncActor.receive
      rw [hat]
      exact h
  | replay mutations caller =>
      unfold SyncActor.receive
      rw [hat]
      exact h
  | reconcile t' =>
      unfold SyncActor.receive
      rw [hat]
      exact h

theorem RunsFor.step (h : RunsFor server t other a₀ a) (codec : Codec)
    (currentUid : Option Nat) (e : Faults × RepairEvent) :
    RunsFor server t other a₀ (a.repairStep codec currentUid server e) := by
  unfold SyncActor.repairStep
  split
  · exact h.answer codec currentUid e.1 _
  · exact h.proceed codec currentUid e.1

/-- What a client that is not behind asks for lies before the server's position. -/
theorem runsFor_resume (a : SyncActor) (f : Faults)
    (hother : ∀ pts, (maxMessagePts t f.env a.store).1 = .ok pts →
      max pts ((a.resumePts t).getD 0) < server.currentPts t ∨ other) :
    RunsFor server t other a ((a.goto .idle).resume f t) := by
  have hidle : RunsFor server t other a (a.goto .idle) :=
    ⟨fun _ _ => rfl, trivial, fun _ hnone => nomatch hnone⟩
  unfold SyncActor.resume
  split
  · exact hidle.failed _ rfl
  · rename_i pts hpts
    refine hidle.goto _ rfl ⟨rfl, (hother pts hpts).imp (fun hless => ?_) .inr⟩
    rw [max_lt_iff] at hless
    unfold SyncActor.loadResumeChannelPts SyncActor.goto
    dsimp only
    split
    · rename_i cursorPts hcursor
      split at hcursor
      · cases hcursor
      · rw [hcursor] at hless
        exact max_lt hless.1 hless.2
    · exact hless.1

variable (codec : Codec) (currentUid : Option Nat) (script : RepairScript) (a : SyncActor)

/-- A run leaves the positions of the other channels alone. -/
theorem resumeRun_others {t' : Timeline} (ht' : t' ≠ t) :
    (a.resumeRun codec currentUid server script t).resumePts t' = a.resumePts t' :=
  (run_invariant (RunsFor server t True a)
    (fun _ e h => h.step codec currentUid e)
    (runsFor_resume a script.start (fun _ _ => .inr trivial)) script.events).others t' ht'

/-- A run that starts behind the server and ends well has reached it. -/
theorem resumeRun_reaches
    (hbehind : ∀ pts, (maxMessagePts t script.start.env a.store).1 = .ok pts →
      max pts ((a.resumePts t).getD 0) < server.currentPts t)
    (hcompleted : (a.resumeRun codec currentUid server script t).completed = some t) :
    (a.resumeRun codec currentUid server script t).Reaches server t :=
  ((run_invariant (RunsFor server t False a)
    (fun _ e h => h.step codec currentUid e)
    (runsFor_resume a script.start (fun pts hpts => .inl (hbehind pts hpts)))
    script.events).completed t hcompleted).resolve_right id

end Repairs

end Difference
end PrivchatSdk
