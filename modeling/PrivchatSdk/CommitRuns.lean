import PrivchatSdk.CommitCoverage

/-!
# No commit is skipped

Every step that meets its condition keeps what the run relies on, one lemma for each
statement of the actor and for each call from outside (`Kept.step`).  So in every run
of such steps all commits at or before the saved position are covered
(`no_commit_skipped`).
-/

namespace PrivchatSdk
namespace Difference

open StatementExec RelTable Receive

section Starts

variable {codec : Codec} {log : ∀ t, ServerLog t} {a : SyncActor} {f : Faults}

theorem asU64_le {n : Int} (h : 0 ≤ n) : (asU64 n : Int) ≤ n := by
  unfold asU64
  omega

/-- A commit up to the largest `pts` of a channel is reached by one of its messages. -/
theorem StoreKept.covered_max (h : StoreKept codec log a) {t : Timeline} {pts : Nat}
    (hmax : asU64 ((((a.store.message.rows.filter t.has).map
      (fun r => r.pts)).max?).getD 0) = pts)
    {c : ServerCommit} (hc : c ∈ (log t).commits) (hle : c.pts ≤ pts) :
    Covered codec a t c := by
  have hpos := (log t).pts_pos c hc
  cases hfound : ((a.store.message.rows.filter t.has).map (fun r => r.pts)).max? with
  | none =>
      rw [hfound] at hmax
      have hzero : pts = 0 := hmax.symm
      omega
  | some m =>
      rw [hfound] at hmax
      have hmem := List.max?_mem hfound
      obtain ⟨r, hr, rfl⟩ := List.mem_map.mp hmem
      obtain ⟨hrow, hhas⟩ := List.mem_filter.mp hr
      obtain ⟨hnonneg, hreached⟩ := h.rows r hrow
      have hbound := asU64_le hnonneg
      have heq : asU64 r.pts = pts := hmax
      exact hreached t hhas c hc (by omega)

/-- A resume run starts behind nothing that is not covered. -/
theorem Kept.resume (hkept : Kept codec log a) (hidle : a.task.entries = [])
    (t : Timeline) : Kept codec log (a.resume f t) := by
  unfold SyncActor.resume
  split
  · exact hkept.failed hidle
  · rename_i pts hmax
    have hmaxEq := (query_ok.mp (Prod.ext hmax rfl)).2.1
    refine hkept.goto ?_ (by simp [hidle])
    have hstart : ∀ c ∈ (log t).commits, c.pts ≤ pts → Covered codec a t c :=
      fun c hc hle => hkept.store.covered_max hmaxEq hc hle
    cases hcursor : a.loadResumeChannelPts f t with
    | none =>
        exact hstart
    | some cursorPts =>
        intro c hc hle
        rcases le_max_iff.mp hle with hle | hle
        · exact hstart c hc hle
        · unfold SyncActor.loadResumeChannelPts at hcursor
          split at hcursor
          · cases hcursor
          · exact hkept.cursors t cursorPts hcursor c hc hle

end Starts

section Commits

variable {codec : Codec} {log : ∀ t, ServerLog t} {a : SyncActor} {f : Faults}

/-- A mutation of a commit that is put aside covers it and is truthful. -/
theorem Kept.put (hkept : Kept codec log a) (hnone : a.task.entries = [])
    {m : PendingTimelineMutation} (hm : Truthful log m) {task : Task}
    (htask : TaskKept codec log
      ({ a with
        pendingMutations := putPendingTimelineMutation a.pendingMutations m }.goto task)
      task) :
    Kept codec log
      ({ a with
        pendingMutations := putPendingTimelineMutation a.pendingMutations m }.goto
        task) := by
  have hgrows : Grows codec log a _ := grows_put hkept.pending hm task
  refine hkept.grow hgrows (hkept.store.grow hgrows rfl) rfl rfl ?_ ?_ htask
  · intro m' hm'
    rcases mem_put hm' with rfl | hold
    · exact hm
    · exact hkept.pending m' hold
  · rw [hnone]
    exact fun e he => absurd he List.not_mem_nil

/-- The next commit of a page is put aside or enters the pipeline. -/
theorem Kept.takeCommit_page {page : Page} {c : ServerCommit} {rest : List ServerCommit}
    (hkept : Kept codec log a) (htask : a.task = .page page)
    (hrest : page.rest = c :: rest) :
    Kept codec log (a.takeCommit codec f page.timeline.scope c (.page page)) := by
  have hnone : a.task.entries = [] := by rw [htask]; rfl
  have hpage : PageKept codec log a page := by
    have h := hkept.task
    rw [htask] at h
    exact h
  have hc := hpage.head_mem hrest
  obtain ⟨hid, htype⟩ := (log page.timeline).channel c hc
  unfold SyncActor.takeCommit
  split
  · exact hkept.failed hnone
  · rename_i pending hdefer
    obtain ⟨target, eventId, htarget, heventId, rfl⟩ := deferred hdefer
    have hlogged : c ∈ (log { channelId := c.channelId
                              channelType := c.channelType }).commits := by
      rw [hid, htype]
      exact hc
    have hm : Truthful log
        { channelId := c.channelId
          channelType := c.channelType
          targetServerMessageId := target
          eventId := eventId
          pts := c.pts
          canonicalEvent := c.canonicalEvent } :=
      ⟨c, hlogged, rfl, rfl, htarget, heventId⟩
    refine hkept.put hnone hm ?_
    refine (hpage.grow (grows_put hkept.pending hm _)).behind hrest (Or.inr ?_)
    exact ⟨_, List.mem_cons_self, hid, htype, rfl, rfl⟩
  · refine hkept.enqueueAndDrain hnone ?_ ⟨hpage, by rw [hrest]; rfl, ?_⟩
    · intro item hitem
      rw [List.mem_singleton] at hitem
      subst hitem
      exact built_commitEntry hc
    · exact awaited_single hkept hnone (built_commitEntry hc)

/-- A push of a commit is put aside or enters the pipeline. -/
theorem Kept.takeCommit_push {push : PushMessageRequest} {event : CanonicalTimelineEvent}
    {c : ServerCommit} (hkept : Kept codec log a) (hnone : a.task.entries = [])
    (hc : c ∈ (log { channelId := push.channelId
                     channelType := push.channelType }).commits)
    (hpush : PushOf codec push event c) :
    Kept codec log (a.takeCommit codec f
      ({ channelId := push.channelId, channelType := push.channelType } : Timeline).scope
      (canonicalPushCommit push event) .push) := by
  have hsame : IsMessage codec (canonicalPushCommit push event) ↔ IsMessage codec c :=
    isMessage_congr rfl hpush.event
  unfold SyncActor.takeCommit
  split
  · exact hkept.failed hnone
  · rename_i pending hdefer
    obtain ⟨target, eventId, htarget, heventId, rfl⟩ := deferred hdefer
    have hne : ¬ IsMessage codec c :=
      fun h => not_isMessage_of_target htarget (hsame.mpr h)
    refine hkept.put hnone ?_ trivial
    refine ⟨c, hc, hpush.pts, hpush.event, ?_, ?_⟩
    · unfold mutationTarget at htarget ⊢
      rw [hpush.event]
      exact htarget
    · cases heventId
      exact hpush.eventId hne
  · refine hkept.enqueueAndDrain hnone ?_ trivial
    intro item hitem
    rw [List.mem_singleton] at hitem
    subst hitem
    refine built_entry (c := canonicalPushCommit push event) (fun hmessage => ?_)
      (fun hne => ?_)
    · have hpos := (log _).serverMsgId_pos c hc
      rw [hpush.message (hsame.mp hmessage)] at hpos
      exact ⟨hpos, ((log _).known c hc).1⟩
    · refine ⟨_, c, hc, ?_⟩
      exact sameMutation_of_event hne rfl hpush.event hpush.pts.symm
        ((log _).channel c hc).1.symm ((log _).channel c hc).2.symm

/-- A mutation of the replay enters the pipeline. -/
theorem Kept.replayMutation {m : PendingTimelineMutation}
    {rest : List PendingTimelineMutation} {caller : Caller}
    (hkept : Kept codec log a) (htask : a.task = .replay (m :: rest) caller) :
    Kept codec log (a.replayMutation codec m rest caller) := by
  have hnone : a.task.entries = [] := by rw [htask]; rfl
  have h := hkept.task
  rw [htask] at h
  obtain ⟨htrue, hcaller⟩ := h
  have hm := htrue m List.mem_cons_self
  have hrest : ∀ m' ∈ rest, Truthful log m' :=
    fun m' hm' => htrue m' (List.mem_cons_of_mem _ hm')
  unfold SyncActor.replayMutation
  split
  · exact hkept.failed hnone
  · rename_i event hevent
    have hbuilt := hm.built_replay codec hevent
    refine hkept.enqueueAndDrain hnone ?_ ⟨hm, hrest, hcaller, event, hevent, ?_⟩
    · intro item hitem
      rw [List.mem_singleton] at hitem
      subst hitem
      exact hbuilt
    · exact awaited_single hkept hnone hbuilt

end Commits

section Turns

variable {codec : Codec} {currentUid : Option Nat} {log : ∀ t, ServerLog t}
variable {a a' : SyncActor} {f : Faults} {page : Page} {c : ServerCommit}

theorem asMessage_queued (item : SyncEntityItem MessageSyncPayload) :
    readItem ItemPayload.asMessage (queued ItemPayload.message item) = item := by
  cases item with
  | mk entityId version deleted payload =>
      cases payload with
      | none => rfl
      | some p => rfl

theorem clampI64_bounds (n : Nat) : 0 ≤ clampI64 n ∧ clampI64 n ≤ n := by
  unfold clampI64
  omega

/-- The upsert of a commit puts the message where the server has it. -/
theorem place_commitEntry {t : Timeline} (hmessage : IsMessage codec c)
    (htype : 0 < c.channelType) (scope : Option String) (now : Int) :
    (codec.messageItemInput scope now
      (readItem ItemPayload.asMessage (commitEntry codec t c).item)).place =
      { serverMessageId := some c.serverMsgId
        pts := clampI64 c.pts
        channelId := c.channelId
        channelType := c.channelType } := by
  obtain ⟨messageType, contentAndExtra, hitem⟩ := commitEntry_message (t := t) hmessage
  rw [hitem, asMessage_queued]
  have hne : c.channelType ≠ 0 := Nat.ne_of_gt htype
  simp [UpsertRemoteMessageInput.place, Codec.messageItemInput, canonicalOfItem,
    commitMessageItem, buildMessageSyncItem, fromSyncEntity, messageItemServerId,
    CanonicalInboundMessage.toUpsertInput, hne]

/-- The message of the commit that a page has come to stands well. -/
theorem PageKept.standsWell (hpage : PageKept codec log a page)
    (hhead : page.rest.head? = some c) (hmessage : IsMessage codec c)
    (h : Grows codec log a a') {r : MessageRow} {scope : Option String} {now : Int}
    (hplace : r.place = (codec.messageItemInput scope now (readItem ItemPayload.asMessage
      (commitEntry codec page.timeline c).item)).place)
    (hr : r ∈ a'.store.message.rows) (hcurrent : a'.store ∈ a'.stores) :
    StandsWell codec log a' r := by
  obtain ⟨rest, hrest⟩ := List.head?_eq_some_iff.mp hhead
  have hc := hpage.head_mem hrest
  obtain ⟨hid, htype⟩ := (log page.timeline).channel c hc
  rw [place_commitEntry hmessage (htype ▸ ((log page.timeline).known c hc).2.1)] at hplace
  simp only [MessageRow.place, MessagePlace.mk.injEq] at hplace
  obtain ⟨hsid, hpts, hrowId, hrowType⟩ := hplace
  obtain ⟨hlow, hhigh⟩ := clampI64_bounds c.pts
  refine ⟨hpts ▸ hlow, fun t hhas c' hc' hle => ?_⟩
  have ht : t = page.timeline := by
    simp only [Timeline.has, Bool.and_eq_true, beq_iff_eq] at hhas
    rw [hrowId, hrowType, hid, htype] at hhas
    cases t
    cases hpageLine : page.timeline
    rw [hpageLine] at hhas
    simp only [Timeline.mk.injEq]
    exact ⟨hhas.1.symm, by exact_mod_cast hhas.2.symm⟩
  subst ht
  rcases hpage.covered_upto hrest hc' (by omega) with hcovered | rfl
  · exact h.covered hc' hcovered
  · exact Or.inl (.message hmessage _ hcurrent ⟨r, hr, hsid⟩)

variable {batch : SyncBatch ItemPayload} {item : SyncEntityItem ItemPayload}
variable {items : List (SyncEntityItem ItemPayload)} {batches : List OpenBatch}
variable {after : AfterApply}

/-- The store after an item has only messages that stand well. -/
theorem Kept.storeKept_item (hkept : Kept codec log a)
    (hafter : AfterKept codec log a
      (openEntries ((batch, item :: items) :: batches)) after)
    (hmeets : TurnMeets codec currentUid log a f batch item batches after)
    {res : Except StoreError PUnit} {s : Store}
    (hrun : applySyncEntity codec currentUid batch.entityType batch.scope item f.env
      a.store = (res, s))
    (h : Grows codec log a a') (hstore : a'.store = s) (hcurrent : a'.store ∈ a'.stores) :
    StoreKept codec log a' := by
  have hplaced := placedFrom_applySyncEntity hrun
  rw [← hstore] at hplaced
  refine hkept.store.placed h hplaced hcurrent ?_
  rintro r hr ⟨htype, input, haction, hplace⟩
  rcases (hmeets.message htype input haction).1 with ⟨c, page, hafterEq, he⟩ | hready
  · subst hafterEq
    obtain ⟨hpage, hhead, -⟩ := hafter
    simp only [Entry.mk.injEq, commitEntry] at he
    obtain ⟨hetype, -, hitem⟩ := he
    have hmessage : IsMessage codec c := hetype.symm.trans htype
    obtain ⟨-, -, -, rfl⟩ := messageItemAction_upsert haction
    rw [hitem] at hplace
    exact hpage.standsWell hhead hmessage h hplace hr hcurrent
  · exact hready.standsWell h hplace hr hcurrent

/-- An item that was applied without an error has landed. -/
theorem landed_item
    (hmeets : TurnMeets codec currentUid log a f batch item batches after)
    {u : PUnit} {s : Store}
    (hrun : applySyncEntity codec currentUid batch.entityType batch.scope item f.env
      a.store = (.ok u, s))
    {turn : Turn} (hturn : turn ∈ a'.turns)
    (hentry : turn.entry =
      { entityType := batch.entityType, scope := batch.scope, item := item })
    (hbefore : turn.before = a.store) (hs : s ∈ a'.stores) :
    Landed a' { entityType := batch.entityType, scope := batch.scope, item := item } where
  message htype hsid hlive hchannel := by
    have haction : codec.messageItemAction batch.scope f.env.now
        (readItem ItemPayload.asMessage item) = .upsert _ :=
      messageItemAction_of_pos f.env.now hsid hlive hchannel
    have happly : codec.applyMessageItem currentUid batch.scope
        (readItem ItemPayload.asMessage item) f.env a.store = (.ok u, s) := by
      unfold applySyncEntity at hrun
      rwa [if_pos htype] at hrun
    exact ⟨s, hs, stored_of_applyMessageItem happly haction
      (hmeets.message htype _ haction).2⟩
  mutation htype := by
    refine ⟨turn, hturn, hentry, ?_⟩
    rw [hentry, hbefore]
    exact hmeets.mutation htype

/-- An item is applied, or its batch goes back to the front of the queue. -/
theorem Kept.applyItem (hkept : Kept codec log a)
    (htask : a.task = .apply ((batch, item :: items) :: batches) after)
    (hmeets : TurnMeets codec currentUid log a f batch item batches after) :
    Kept codec log (a.applyItem codec currentUid f batch item items batches after) := by
  have h := hkept.task
  rw [htask] at h
  obtain ⟨hqueue, hbatches, hafter⟩ := h
  have hentries : a.task.entries = openEntries ((batch, item :: items) :: batches) := by
    rw [htask]
    rfl
  have hbatch := hbatches _ List.mem_cons_self
  unfold SyncActor.applyItem
  split
  · rename_i u s hrun
    generalize ha' : SyncActor.goto _ _ = a'
    have hgrows : Grows codec log a a' := by
      subst ha'
      exact grows_of_pending (fun _ => List.mem_cons_of_mem _)
        (fun _ => List.mem_cons_of_mem _) rfl
    have hlanded : Landed a'
        { entityType := batch.entityType, scope := batch.scope, item := item } := by
      subst ha'
      exact landed_item hmeets hrun List.mem_cons_self rfl rfl List.mem_cons_self
    have hleft : ∀ e ∈ openEntries ((batch, item :: items) :: batches),
        Landed a' e ∨ e ∈ openEntries ((batch, items) :: batches) := by
      intro e he
      rcases List.mem_cons.mp he with rfl | hrest
      · exact Or.inl hlanded
      · exact Or.inr hrest
    have hstore : StoreKept codec log a' := by
      subst ha'
      exact hkept.storeKept_item hafter hmeets hrun hgrows rfl List.mem_cons_self
    have htask' : a'.task = .apply ((batch, items) :: batches) after := by
      rw [← ha']
      rfl
    have hpipeline : a'.receivePipeline = a.receivePipeline := by
      rw [← ha']
      rfl
    refine hkept.grow hgrows hstore (by rw [← ha']; rfl) hpipeline
      (by rw [← ha']; exact hkept.pending) ?_ ?_
    · rw [hentries, htask']
      exact hleft
    · rw [htask']
      refine ⟨hpipeline ▸ hqueue, ?_, hafter.grow hgrows hleft⟩
      intro b hb
      rcases List.mem_cons.mp hb with rfl | hb
      · exact ⟨fun i hi => hbatch.1 i (List.mem_cons_of_mem _ hi), hbatch.2⟩
      · exact hbatches b (List.mem_cons_of_mem _ hb)
  · rename_i e s hrun
    have hnone := hmeets.alone e s hrun
    subst hnone
    generalize ha' : SyncActor.failed _ = a'
    have hgrows : Grows codec log a a' := by
      subst ha'
      exact grows_of_pending (fun _ => List.mem_cons_of_mem _) (fun _ h => h) rfl
    have hpipeline : a'.receivePipeline = a.receivePipeline.requeueFront batch := by
      rw [← ha']
      rfl
    refine
      { store := ?_
        cursors := hkept.cursors.grow hgrows (by rw [← ha']; rfl)
        pending := by rw [← ha']; exact hkept.pending
        pipeline := { keys := ?_, batches := ?_ }
        task := by rw [← ha']; trivial }
    · subst ha'
      exact hkept.storeKept_item hafter hmeets hrun hgrows rfl List.mem_cons_self
    · intro key hkey
      rw [hpipeline] at hkey ⊢
      refine (hkept.pipeline.keys key hkey).grow hgrows (fun e he => Or.inr ?_)
      refine List.mem_append_left _ ?_
      change e ∈ batch.entries ++ a.receivePipeline.waiting
      rcases List.mem_append.mp he with hwaiting | hopen
      · exact List.mem_append_right _ hwaiting
      · rw [hentries, openEntries, List.flatMap_singleton] at hopen
        obtain ⟨i, hi, rfl⟩ := List.mem_map.mp hopen
        exact List.mem_append_left _ (List.mem_map.mpr ⟨i, hbatch.1 i hi, rfl⟩)
    · rw [hpipeline]
      intro b hb
      rcases List.mem_cons.mp hb with rfl | hb
      · exact hbatch.2
      · exact hkept.pipeline.batches b hb

end Turns

section Ends

variable {codec : Codec} {log : ∀ t, ServerLog t} {a : SyncActor} {f : Faults}

/-- With nothing open, what a call waited for has landed. -/
theorem Awaited.landed {key : String} (h : Awaited codec log a [] key) :
    ∃ e : Entry ItemPayload, e.key = key ∧ Built codec log e ∧ Landed a e := by
  obtain ⟨e, hkey, hbuilt, hlanded | hnone⟩ := h
  · exact ⟨e, hkey, hbuilt, hlanded⟩
  · exact absurd hnone List.not_mem_nil

/-- A commit whose entry has landed is applied. -/
theorem Awaited.applied {t : Timeline} {c : ServerCommit} (hc : c ∈ (log t).commits)
    (h : Awaited codec log a [] (commitEntry codec t c).key) : Applied codec a t c := by
  obtain ⟨e, hkey, hbuilt, hlanded⟩ := h.landed
  by_cases hmessage : IsMessage codec c
  · exact hlanded.applied_message hbuilt hc hmessage hkey
  · obtain ⟨htype, hscope, -, hversion, -⟩ :=
      hbuilt.same_of_key (built_commitEntry hc) hkey
    exact hlanded.applied_mutation hbuilt hc hmessage htype hscope
      (hversion.trans (commitEntry_version hmessage))

/-- A mutation whose replay has landed is applied. -/
theorem Awaited.applied_replay {m : PendingTimelineMutation} (hm : Truthful log m)
    {event : CanonicalTimelineEvent} (hevent : m.canonicalEvent = some event)
    (h : Awaited codec log a []
      (commitEntry codec m.timeline (replayCommit m event)).key)
    {c : ServerCommit} (hc : c ∈ (log m.timeline).commits) (hpts : c.pts = m.pts) :
    Applied codec a m.timeline c := by
  obtain ⟨e, hkey, hbuilt, hlanded⟩ := h.landed
  obtain ⟨c', hc', hpts', hne, hsame⟩ := hm.sameMutation_replay codec hevent
  obtain rfl := (log m.timeline).eq_of_pts hc hc' (hpts.trans hpts'.symm)
  obtain ⟨htype, hscope, -, hversion, -⟩ :=
    hbuilt.same_of_key (hm.built_replay codec hevent) hkey
  exact hlanded.applied_mutation hbuilt hc hne (htype.trans hsame.entityType) hscope
    (hversion.trans (hsame.version.trans (commitEntry_version hne)))

theorem CallerKept.task {caller : Caller} (h : CallerKept codec log a caller) :
    TaskKept codec log a caller.task := by
  cases caller with
  | page page => exact h
  | push => trivial

/-- After its commit the caller goes on behind it. -/
theorem AfterKept.behindCommit {c : ServerCommit} {caller : Caller}
    (h : AfterKept codec log a [] (.commit c caller)) :
    CallerKept codec log a caller.behindCommit := by
  cases caller with
  | push => trivial
  | page page =>
      obtain ⟨hpage, hhead, hawaited⟩ := h
      obtain ⟨rest, hrest⟩ := List.head?_eq_some_iff.mp hhead
      exact hpage.behind hrest (Or.inl (hawaited.applied (hpage.head_mem hrest)))

/-- What follows a drain finds its items applied. -/
theorem Kept.finishApply {after : AfterApply} (hkept : Kept codec log a)
    (htask : a.task = .apply [] after) :
    Kept codec log (a.finishApply codec f after) := by
  have hnone : a.task.entries = [] := by rw [htask]; rfl
  have h := hkept.task
  rw [htask] at h
  obtain ⟨-, -, hafter⟩ := h
  have hgoto : ∀ {task : Task}, TaskKept codec log a task → Kept codec log (a.goto task) :=
    fun htask => hkept.goto htask (by simp [hnone])
  cases after with
  | commit c caller =>
      have hcaller := hafter.behindCommit
      simp only [SyncActor.finishApply]
      split
      · split
        · exact hkept.failed hnone
        · refine hgoto ⟨fun m hm => ?_, hcaller⟩
          exact hkept.pending m (List.mem_filter.mp
            ((List.mem_insertionSort _).mp hm)).1
      · exact hgoto hcaller.task
  | mutation m rest caller =>
      obtain ⟨hm, hrest, hcaller, event, hevent, hawaited⟩ := hafter
      simp only [SyncActor.finishApply]
      split
      · exact hkept.failed hnone
      · have hgrows : Grows codec log a _ :=
          grows_delete hkept.pending hm (.replay rest caller)
            (fun c hc hpts => hawaited.applied_replay hm hevent hc hpts)
        refine hkept.grow hgrows (hkept.store.grow hgrows rfl) rfl rfl ?_ (by simp [hnone])
          ⟨hrest, hcaller.grow hgrows⟩
        exact fun m' hm' => hkept.pending m' (List.mem_filter.mp hm').1
  | pushes =>
      exact hgoto trivial

/-- A position is saved that passes nothing which is not covered then. -/
theorem Kept.save {a' : SyncActor} (hkept : Kept codec log a) (hnone : a.task.entries = [])
    (h : Grows codec log a a') (hstore : StoreKept codec log a')
    (hpending : a'.pendingMutations = a.pendingMutations)
    (hpipeline : a'.receivePipeline = a.receivePipeline) {t : Timeline} {pts : Nat}
    (hcursors : a'.resumePts = Function.update a.resumePts t (some pts))
    (hpts : ∀ c ∈ (log t).commits, c.pts ≤ pts → Covered codec a' t c)
    (htask : TaskKept codec log a' a'.task) : Kept codec log a' where
  store := hstore
  cursors := by
    intro t' p hp c hc hle
    rw [hcursors] at hp
    by_cases ht : t' = t
    · subst ht
      rw [Function.update_self] at hp
      cases hp
      exact hpts c hc hle
    · rw [Function.update_of_ne ht] at hp
      exact h.covered hc (hkept.cursors t' p hp c hc hle)
  pending := by
    rw [hpending]
    exact hkept.pending
  pipeline :=
    { keys := by
        intro key hkey
        rw [hpipeline] at hkey ⊢
        refine (hkept.pipeline.keys key hkey).grow h (fun e he => Or.inr ?_)
        rw [hnone, List.append_nil] at he
        exact List.mem_append_left _ he
      batches := by
        rw [hpipeline]
        exact hkept.pipeline.batches }
  task := htask

/-- The end of a page saves the position behind it. -/
theorem Kept.endPage {page : Page} (hkept : Kept codec log a)
    (htask : a.task = .page page) (hrest : page.rest = []) :
    Kept codec log (a.endPage f page) := by
  have hnone : a.task.entries = [] := by rw [htask]; rfl
  have hpage : PageKept codec log a page := by
    have h := hkept.task
    rw [htask] at h
    exact h
  have hnext : ∀ c ∈ (log page.timeline).commits,
      c.pts ≤ LogPages.nextPosition ServerCommit.pts page.lastPts page.commits →
      Covered codec a page.timeline c :=
    fun c hc hle => hpage.covered_next hrest hc hle
  unfold SyncActor.endPage
  dsimp only
  split
  · exact hkept.goto trivial (by simp [hnone])
  · split
    · exact hkept.failed hnone
    · have hgrows : ∀ task, Grows codec log a
          ({ a with
            resumePts := Function.update a.resumePts page.timeline (some
              (LogPages.nextPosition ServerCommit.pts page.lastPts page.commits)) }.goto
            task) :=
        fun task => grows_of_pending (fun _ h => h) (fun _ h => h) rfl
      refine hkept.save hnone (hgrows _) (hkept.store.grow (hgrows _) rfl) rfl rfl rfl
        (fun c hc hle => (hgrows _).covered hc (hnext c hc hle)) ?_
      refine TaskKept.grow (hgrows _) rfl ?_
      change TaskKept codec log a (if page.hasMore = true then _ else _)
      split
      · exact hnext
      · trivial

end Ends

section Calls

variable {codec : Codec} {currentUid : Option Nat} {log : ∀ t, ServerLog t}
variable {a : SyncActor} {f : Faults}

/-- A call writes messages where they may stand and is over. -/
theorem Kept.wrote (hkept : Kept codec log a) (hnone : a.task.entries = []) {s : Store}
    {new : MessagePlace → Prop} (hplaced : PlacedFrom new a.store s)
    (hnew : ∀ a', Grows codec log a a' → a'.store = s → s ∈ a'.stores →
      ∀ r ∈ s.message.rows, new r.place → StandsWell codec log a' r) :
    Kept codec log ((a.withStore s).goto .idle) := by
  have hgrows : Grows codec log a ((a.withStore s).goto .idle) :=
    grows_of_pending (fun _ => List.mem_cons_of_mem _) (fun _ h => h) rfl
  refine hkept.grow hgrows ?_ rfl rfl hkept.pending (by simp [hnone]) trivial
  exact hkept.store.placed hgrows hplaced List.mem_cons_self
    (hnew _ hgrows rfl List.mem_cons_self)

/-- An acknowledgement that meets its condition. -/
theorem Kept.ack (hkept : Kept codec log a) (hnone : a.task.entries = [])
    {messageId serverMessageId messageSeq : Nat}
    (hmeets : AckMeets codec log a messageId serverMessageId messageSeq) {s : Store}
    (hplaced : PlacedFrom (fun place => ∃ row, a.store.message.byRowid messageId = some row ∧
      place =
        { row.place with
          serverMessageId := some serverMessageId
          pts := messageSeq }) a.store s) :
    Kept codec log ((a.withStore s).goto .idle) := by
  refine hkept.wrote hnone hplaced ?_
  rintro a' hgrows rfl hcurrent r hr ⟨row, hrow, hplace⟩
  exact (hmeets row hrow).standsWell hgrows hplace hr hcurrent

/-- The messages of a history page that meets its condition stand well. -/
theorem HistoryMeets.standsWell {items : List MessageHistoryItem} {channelType : Nat}
    (hmeets : HistoryMeets codec log a f items channelType) {a' : SyncActor}
    (h : Grows codec log a a')
    (hstore : a'.store = (codec.storeHistoryItems currentUid items
      (historyType channelType)).after f.env a.store)
    (hcurrent : a'.store ∈ a'.stores) {r : MessageRow} (hr : r ∈ a'.store.message.rows)
    {item : MessageHistoryItem} (hitem : item ∈ items)
    (hplace : r.place =
      (codec.historyItemToUpsertInput item (historyType channelType)).place) :
    StandsWell codec log a' r := by
  have hmeet := hmeets item hitem
  dsimp only at hmeet
  rw [← hplace] at hmeet
  refine ⟨hmeet.1, fun t hhas c hc hle => ?_⟩
  simp only [Timeline.has, Bool.and_eq_true, beq_iff_eq] at hhas
  rcases hmeet.2 t hhas.1 hhas.2 c hc hle with hcovered | ⟨hmessage, hown | hbrought⟩
  · exact h.covered hc hcovered
  · have hsid : r.serverMessageId = some item.messageId :=
      congrArg MessagePlace.serverMessageId hplace
    exact Or.inl (.message hmessage _ hcurrent ⟨r, hr, hown ▸ hsid⟩)
  · refine Or.inl (.message hmessage _ hcurrent ?_)
    rw [hstore]
    exact hbrought.stored _ ((log t).serverMsgId_pos c hc)

/-- The position of a channel that starts over, without a history. -/
theorem Kept.resync_bare {t : Timeline} {currentPts : Nat} (hkept : Kept codec log a)
    (hnone : a.task.entries = [])
    (hmeets : ResyncMeets codec log a f t currentPts none) :
    Kept codec log
      ({ a with
        resumePts := Function.update a.resumePts t (some currentPts) }.complete t) := by
  have hgrows : Grows codec log a
      ({ a with
        resumePts := Function.update a.resumePts t (some currentPts) }.complete t) :=
    grows_of_pending (fun _ h => h) (fun _ h => h) rfl
  refine hkept.save hnone hgrows (hkept.store.grow hgrows rfl) rfl rfl rfl
    (fun c hc hle => hgrows.covered hc ?_) trivial
  rcases hmeets.1 c hc hle with hcovered | ⟨-, items, hitems, -⟩
  · exact hcovered
  · cases hitems

/-- The position of a channel that starts over, and its history behind it. -/
theorem Kept.resync_history {t : Timeline} {currentPts : Nat}
    {items : List MessageHistoryItem} (hkept : Kept codec log a)
    (hnone : a.task.entries = [])
    (hmeets : ResyncMeets codec log a f t currentPts (some items)) :
    Kept codec log
      (({ a with
        resumePts := Function.update a.resumePts t (some currentPts) }.storeHistory codec
          currentUid f items t.channelType).complete t) := by
  generalize ha' : SyncActor.complete _ _ = a'
  have hgrows : Grows codec log a a' := by
    subst ha'
    exact grows_of_pending (fun _ => List.mem_cons_of_mem _) (fun _ h => h) rfl
  have hstored : a'.store = (codec.storeHistoryItems currentUid items
      (historyType t.channelType)).after f.env a.store := by
    rw [← ha']
    rfl
  have hcurrent : a'.store ∈ a'.stores := by
    rw [← ha']
    exact List.mem_cons_self
  have hplaced := placedFrom_history codec currentUid items (historyType t.channelType)
    f.env a.store
  rw [← hstored] at hplaced
  have hstore : StoreKept codec log a' := by
    refine hkept.store.placed hgrows hplaced hcurrent ?_
    rintro r hr ⟨item, hitem, hplace⟩
    exact (hmeets.2 items rfl).standsWell hgrows hstored hcurrent hr hitem hplace
  refine hkept.save hnone hgrows hstore (by rw [← ha']; rfl) (by rw [← ha']; rfl)
    (by rw [← ha']; rfl) (fun c hc hle => ?_) (by rw [← ha']; trivial)
  rcases hmeets.1 c hc hle with hcovered | ⟨hmessage, items', hitems, hbrought⟩
  · exact hgrows.covered hc hcovered
  · cases hitems
    refine Or.inl (.message hmessage _ hcurrent ?_)
    rw [hstored]
    exact hbrought.stored _ ((log t).serverMsgId_pos c hc)

/-- A page that has come in stands behind a position up to which all is covered. -/
theorem pageKept_received {t : Timeline} {lastPts : Nat}
    (hlow : ∀ c ∈ (log t).commits, c.pts ≤ lastPts → Covered codec a t c)
    (pages count : Nat) (hasMore : Bool) :
    let commits := (LogPages.behind ServerCommit.pts (log t).commits lastPts).take count
    PageKept codec log a
      { timeline := t
        lastPts := lastPts
        pages := pages
        commits := commits
        hasMore := hasMore
        rest := commits } where
  commits := ⟨count, rfl⟩
  low := hlow
  front := ⟨[], rfl, fun _ hc => absurd hc List.not_mem_nil⟩

/-- An answer to the request of a run. -/
theorem Kept.receive (hkept : Kept codec log a) {r : DifferenceReply}
    (hmeets : ReplyMeets codec log a f r) :
    Kept codec log (a.receive codec currentUid f (fun t => (log t).commits) r) := by
  unfold SyncActor.receive
  split
  · rename_i t lastPts pages htask
    have hnone : a.task.entries = [] := by rw [htask]; rfl
    have hlow := hkept.task
    rw [htask] at hlow
    unfold ReplyMeets at hmeets
    rw [htask] at hmeets
    have hgoto : ∀ {task : Task}, TaskKept codec log a task →
        Kept codec log (a.goto task) :=
      fun htask => hkept.goto htask (by simp [hnone])
    split
    · exact hkept.failed hnone
    · cases r with
      | failed =>
          exact hkept.failed hnone
      | page count hasMore =>
          dsimp only
          split
          · exact hgoto trivial
          · exact hgoto (pageKept_received hlow (pages + 1) count hasMore)
      | resyncRequired currentPts history =>
          cases currentPts with
          | none =>
              exact hkept.failed hnone
          | some currentPts =>
              dsimp only
              split
              · exact hkept.failed hnone
              · cases history with
                | none => exact hkept.resync_bare hnone hmeets
                | some items => exact hkept.resync_history hnone hmeets
  · exact hkept

/-- A call from outside. -/
theorem Kept.command (hkept : Kept codec log a) (hidle : a.task = .idle) {c : Command}
    (hmeets : CommandMeets codec log a f c) :
    Kept codec log (a.command codec currentUid f c) := by
  have hnone : a.task.entries = [] := by rw [hidle]; rfl
  cases c with
  | resume t =>
      exact hkept.resume hnone t
  | timelinePush push event =>
      obtain ⟨c, hc, hpush⟩ := hmeets
      exact hkept.takeCommit_push hnone hc hpush
  | messagePushes pushes =>
      refine hkept.enqueueAndDrain hnone ?_ trivial
      intro item hitem
      obtain ⟨push, -, rfl⟩ := List.mem_map.mp hitem
      exact built_pushEntry codec log push
  | createLocalMessage input localMessageId =>
      refine hkept.wrote hnone (placedFrom_createLocalMessage input localMessageId f.env
        a.store) ?_
      intro a' _ _ _ r _ hpts
      have hzero : r.pts = 0 := hpts
      refine ⟨Int.le_of_eq hzero.symm, fun t _ c hc hle => ?_⟩
      have hpos := (log t).pts_pos c hc
      omega
  | outboxAckSent messageId serverMessageId messageSeq =>
      exact hkept.ack hnone hmeets (placedFrom_ack (outboxAckSent_outcome rfl))
  | markMessageSent messageId serverMessageId messageSeq =>
      exact hkept.ack hnone hmeets (placedFrom_ack (markMessageSent_outcome rfl))
  | history items channelType =>
      refine hkept.wrote hnone (placedFrom_history codec currentUid items
        (historyType channelType) f.env a.store) ?_
      rintro a' hgrows hstore hcurrent r hr ⟨item, hitem, hplace⟩
      rw [← hstore] at hr hcurrent
      exact hmeets.standsWell hgrows hstore hcurrent hr hitem hplace

end Calls

section Runs

variable {codec : Codec} {currentUid : Option Nat} {log : ∀ t, ServerLog t}
variable {a : SyncActor}

/-- The next statement of what the actor is at. -/
theorem Kept.proceed {f : Faults} (hkept : Kept codec log a)
    (hmeets : StepMeets codec currentUid log a (f, .proceed)) :
    Kept codec log (a.proceed codec currentUid f) := by
  unfold StepMeets at hmeets
  unfold SyncActor.proceed
  split
  · exact hkept
  · exact hkept
  · rename_i page htask
    split
    · rename_i c rest hrest
      exact hkept.takeCommit_page htask hrest
    · rename_i hrest
      exact hkept.endPage htask hrest
  · rename_i after htask
    exact hkept.finishApply htask
  · rename_i batch batches after htask
    have h := hkept.task
    rw [htask] at h
    obtain ⟨hqueue, hbatches, hafter⟩ := h
    refine hkept.goto ⟨hqueue, fun b hb => hbatches b (List.mem_cons_of_mem _ hb),
      hafter⟩ ?_
    rw [htask]
    exact fun e he => Or.inr he
  · rename_i batch item items batches after htask
    rw [htask] at hmeets
    exact hkept.applyItem htask hmeets
  · rename_i caller htask
    have h := hkept.task
    rw [htask] at h
    have hnone : a.task.entries = [] := by rw [htask]; rfl
    exact hkept.goto (CallerKept.task h.2) (by simp [hnone])
  · rename_i m rest caller htask
    exact hkept.replayMutation htask
  · rename_i t htask
    have hnone : a.task.entries = [] := by rw [htask]; rfl
    split
    · exact hkept.failed hnone
    · exact hkept.complete hnone t

/-- Every step that meets its condition keeps what the run relies on. -/
theorem Kept.step (hkept : Kept codec log a) {e : Faults × SyncEvent}
    (hmeets : StepMeets codec currentUid log a e) :
    Kept codec log (a.step codec currentUid (fun t => (log t).commits) e) := by
  obtain ⟨f, event⟩ := e
  cases event with
  | command c =>
      unfold SyncActor.step
      dsimp only
      split
      · rename_i hidle
        exact hkept.command hidle (hmeets hidle)
      · exact hkept
  | reply r =>
      exact hkept.receive hmeets
  | proceed =>
      exact hkept.proceed hmeets
  | cancel =>
      refine hkept.goto trivial (fun e he => ?_)
      unfold StepMeets at hmeets
      cases htask : a.task with
      | apply batches after =>
          rw [htask] at hmeets he
          obtain ⟨b, hb, hitem⟩ := List.mem_flatMap.mp he
          rw [hmeets b hb] at hitem
          exact absurd hitem List.not_mem_nil
      | _ =>
          rw [htask] at he
          exact absurd he List.not_mem_nil

/-- A new account has nothing to rely on yet. -/
theorem kept_start (codec : Codec) (log : ∀ t, ServerLog t) (recentKeyLimit : Nat) :
    Kept codec log (.start recentKeyLimit) where
  store :=
    { rows := fun r hr => absurd hr List.not_mem_nil
      current := List.mem_cons_self }
  cursors t p hp := by cases hp
  pending m hm := absurd hm List.not_mem_nil
  pipeline :=
    { keys := fun key hkey => absurd hkey (Finset.notMem_empty _)
      batches := fun b hb => absurd hb List.not_mem_nil }
  task := trivial

/--
In every run whose steps meet their condition, every commit at or before the saved
position of its channel has been applied or waits among the pending mutations.
-/
theorem no_commit_skipped
    (codec : Codec) (currentUid : Option Nat) (log : ∀ t, ServerLog t)
    (recentKeyLimit : Nat) (es : List (Faults × SyncEvent))
    (hmeets : EventRun.Guarded
      (SyncActor.step codec currentUid (fun t => (log t).commits))
      (StepMeets codec currentUid log) (.start recentKeyLimit) es) :
    SkipsNothing codec log
      (EventRun.run (SyncActor.step codec currentUid (fun t => (log t).commits))
        (.start recentKeyLimit) es) :=
  (hmeets.invariant (Kept codec log) (fun _ _ hkept hstep => hkept.step hstep)
    (kept_start codec log recentKeyLimit)).cursors

/-- A text of the channel that the sample runs are about. -/
def numberedCommit (n : Nat) : ServerCommit where
  eventId := none
  pts := n
  serverMsgId := 10 + n
  localMessageId := none
  channelId := 7
  channelType := 1
  messageType := "text"
  content := .null
  serverTimestamp := 0
  senderId := 2
  canonicalEvent := some (.newMessage .text (.obj [("content", .str "hi")]))

def numberedTimeline : Timeline where
  channelId := 7
  channelType := 1

/-- The server has three texts in one channel and nothing elsewhere. -/
def numberedLog (t : Timeline) : ServerLog t where
  commits := if t = numberedTimeline then [1, 2, 3].map numberedCommit else []
  increasing := by
    split
    · unfold LogPages.Increasing
      decide
    · exact List.Pairwise.nil
  pts_pos c hc := by
    split at hc
    · revert c
      decide
    · cases hc
  serverMsgId_pos c hc := by
    split at hc
    · obtain ⟨n, -, rfl⟩ := List.mem_map.mp hc
      exact Nat.add_pos_left (by decide) n
    · cases hc
  channel c hc := by
    split at hc
    · rename_i ht
      subst ht
      obtain ⟨n, -, rfl⟩ := List.mem_map.mp hc
      exact ⟨rfl, rfl⟩
    · cases hc
  known c hc := by
    split at hc
    · rename_i ht
      subst ht
      decide
    · cases hc
  events c hc c' hc' eventId target h := by
    split at hc
    · obtain ⟨n, -, rfl⟩ := List.mem_map.mp hc
      cases h
    · cases hc

/-- The push of the second text; the first was lost. -/
def secondPush : PushMessageRequest where
  serverMessageId := 12
  localMessageId := 0
  channelId := 7
  channelType := 1
  fromUid := 2
  messageType := 0
  messageSeq := 2
  timestamp := 0
  needReceipt := false
  deleted := false
  payload := .text "hi"

/-- The actor after a run against the sample log. -/
def afterNumbered (es : List SyncEvent) : SyncActor :=
  EventRun.run (SyncActor.step sampleCodec (some 1) (fun t => (numberedLog t).commits))
    (.start 512) (es.map (fun e => (.calm 0, e)))

/-- A run gets the first text, applies it and saves its position. -/
def pagedRun : List SyncEvent :=
  [.command (.resume numberedTimeline), .reply (.page 1 false)] ++
    List.replicate 7 .proceed

theorem no_commit_skipped_paged :
    SkipsNothing sampleCodec numberedLog (afterNumbered pagedRun) ∧
      (afterNumbered pagedRun).resumePts numberedTimeline = some 1 := by
  refine ⟨no_commit_skipped sampleCodec (some 1) numberedLog 512 _ ?_, by decide +kernel⟩
  refine ⟨fun _ => trivial, trivial, trivial, ?_, trivial, trivial, trivial, trivial,
    trivial, trivial⟩
  refine { message := ?_, mutation := ?_, alone := ?_ }
  · intro _ input _
    refine ⟨Or.inl ⟨_, _, rfl, rfl⟩, fun _ row hrow => ?_⟩
    exact absurd (Store.mem_of_byInputLocalId hrow).1 List.not_mem_nil
  · intro hne
    exact absurd rfl hne
  · intro e s _
    rfl

/-- The second text comes in alone, and a run brings what is behind it. -/
def pushedRun : List SyncEvent :=
  [.command (.messagePushes [secondPush])] ++ List.replicate 3 .proceed ++
    [.command (.resume numberedTimeline), .reply (.page 10 false)] ++
    List.replicate 7 .proceed

/-- The channel has to start over, and its history does not come. -/
def resyncRun : List SyncEvent :=
  [.command (.resume numberedTimeline), .reply (.resyncRequired (some 3) none)]

theorem not_covered_of_absent {t : Timeline} {c : ServerCommit}
    (hmessage : IsMessage codec c)
    (hstores : ∀ s ∈ a.stores, ∀ r ∈ s.message.rows,
      r.serverMessageId ≠ some c.serverMsgId)
    (hpending : a.pendingMutations.isEmpty = true) : ¬ Covered codec a t c := by
  rintro (happlied | ⟨m, hm, -⟩)
  · cases happlied with
    | message _ s hs hstored =>
        obtain ⟨r, hr, hsid⟩ := hstored
        exact hstores s hs r hr hsid
    | mutation hne _ _ _ _ =>
        exact hne hmessage
  · rw [List.isEmpty_iff.mp hpending] at hm
    cases hm

/-- The run ends well with the first text before the saved position and nowhere else. -/
def LosesFirst (es : List SyncEvent) : Prop :=
  (afterNumbered es).completed = some numberedTimeline ∧
    (afterNumbered es).resumePts numberedTimeline = some 3 ∧
    numberedCommit 1 ∈ (numberedLog numberedTimeline).commits ∧
    ¬ Covered sampleCodec (afterNumbered es) numberedTimeline (numberedCommit 1)

theorem commit_skipped : LosesFirst pushedRun ∧ LosesFirst resyncRun := by
  constructor
  · refine ⟨by decide +kernel, by decide +kernel, List.mem_cons_self, ?_⟩
    exact not_covered_of_absent rfl (by decide +kernel) (by decide +kernel)
  · refine ⟨by decide +kernel, by decide +kernel, List.mem_cons_self, ?_⟩
    exact not_covered_of_absent rfl (by decide +kernel) (by decide +kernel)

end Runs

end Difference
end PrivchatSdk
