import PrivchatSdk.SettledSteps

/-!
# What is seen does not depend on the order of arrival

Every step that converges keeps the messages settled (`Sound.step`).  So in every run of
such steps, whenever the actor is between two calls, no mutation is pending for a message
that is stored, and once all events of the channel have come every message looks as their
order says (`timeline_converges`).
-/

namespace PrivchatSdk
namespace Difference

open StatementExec RelTable Receive StampedWrites

section History

variable {codec : Codec} {t : Timeline} {log : EventLog codec t} {w : Reception}
variable {currentUid : Option Nat} {now : Int} {x : Standing}
variable {p : ReceivePipeline ItemPayload}

/-- The upsert of an item of a history page. -/
def pageInput (codec : Codec) (t : Timeline) (item : MessageHistoryItem) :
    UpsertRemoteMessageInput :=
  codec.historyItemToUpsertInput item t.channelType

theorem HistoryTells.known {item : MessageHistoryItem} (h : HistoryTells log item) :
    t.Known := by
  obtain ⟨e, he, -⟩ := h.tells.posted
  obtain ⟨c, hc, -⟩ := mem_logged.mp he
  exact known_of_commit hc

theorem HistoryTells.channelOf {item : MessageHistoryItem} (h : HistoryTells log item) :
    (pageInput codec t item).channelId = t.channelId ∧
      (pageInput codec t item).channelType = t.channelType := by
  have hne : t.channelType ≠ 0 := Nat.ne_of_gt h.known.channelType_pos
  refine ⟨h.channel, ?_⟩
  simp [pageInput, Codec.historyItemToUpsertInput, Codec.fromHistoryItem,
    CanonicalInboundMessage.toUpsertInput, hne]

/-- The upserts of a history page, one after the other. -/
theorem settled_history (items : List MessageHistoryItem)
    (hcore : Core log x p []) (hsettled : ∀ T, Settled log x T)
    (hpending : x.pending = w.actor.pendingMutations) (harrived : x.arrived = w.arrived)
    (htells : ∀ item ∈ items, HistoryTells log item)
    (htold : ∀ item ∈ items, item.revoked = true → item.messageId ∈ x.told)
    (hguarded : EventRun.Guarded (Store.afterUpsert currentUid (.calm now))
      (w.UpsertConverges currentUid false) x.store (items.map (pageInput codec t))) :
    let s' := EventRun.run (Store.afterUpsert currentUid (.calm now)) x.store
      (items.map (pageInput codec t))
    Core log { x with store := s' } p [] ∧
      (∀ T, Settled log { x with store := s' } T) ∧
      (∀ T, x.store.view T ≠ none → s'.view T ≠ none) ∧
      ∀ item ∈ items, s'.view item.messageId ≠ none := by
  induction items generalizing x with
  | nil =>
      exact ⟨hcore, hsettled, fun _ h => h, fun _ h => absurd h List.not_mem_nil⟩
  | cons item items ih =>
      obtain ⟨hmeets, hrest⟩ := hguarded
      have hitem := htells item List.mem_cons_self
      obtain ⟨e, he, hposted⟩ := hitem.tells.posted
      have hpos : 0 < (pageInput codec t item).serverMessageId :=
        serverMessageId_pos he hposted
      obtain ⟨hfits, hnone⟩ := UpsertFits.of_converges hpending
        (fun e _ => by rw [harrived]) hmeets hpos hitem.tells (fun _ hn => hn)
        (htold item List.mem_cons_self)
      have hviews := fun (T : Nat) hT =>
        view_afterUpsert_ne_none hcore.store hpos hfits.own now (T := T) hT
      have hcore' : Core log
          { x with
            store := x.store.afterUpsert currentUid (.calm now) (pageInput codec t item) }
          p [] :=
        hcore.restored (hcore.store.afterUpsert hpos hfits.own hitem.channelOf now)
          (fun T hT => hviews T (Or.inr hT))
      have hsettled' := settled_afterUpsert hcore hsettled hfits (hnone rfl) now
      obtain ⟨hcore'', hsettled'', hkept, hstored⟩ := ih hcore' hsettled' hpending harrived
        (fun i hi => htells i (List.mem_cons_of_mem _ hi))
        (fun i hi => htold i (List.mem_cons_of_mem _ hi)) hrest
      refine ⟨hcore'', hsettled'', fun T hT => hkept T (hviews T (Or.inr hT)), ?_⟩
      intro i hi
      rcases List.mem_cons.mp hi with rfl | hi
      · exact hkept _ (hviews _ (Or.inl rfl))
      · exact hstored i hi

/-- The messages of which a page says that they are revoked. -/
def pageTold (items : List MessageHistoryItem) : List Nat :=
  (items.filter (fun item => item.revoked)).map (fun item => item.messageId)

theorem mem_pageTold {items : List MessageHistoryItem} {n : Nat} :
    n ∈ pageTold items ↔ ∃ item ∈ items, item.revoked = true ∧ item.messageId = n := by
  unfold pageTold
  simp only [List.mem_map, List.mem_filter, and_assoc]

/-- A history page that is stored while nothing else is going on. -/
theorem Sound.storeHistory (h : Sound log w) (hnone : w.actor.task.entries = [])
    (hsettled : ∀ S, Settled log w.standing S) {items : List MessageHistoryItem}
    (htells : ∀ item ∈ items, HistoryTells log item)
    (hguarded : EventRun.Guarded (Store.afterUpsert currentUid (.calm now))
      (w.UpsertConverges currentUid false) w.actor.store (items.map (pageInput codec t)))
    {a' : SyncActor} (hidle : a'.task = .idle)
    (hstore : a'.store =
      (w.actor.storeHistory codec currentUid (.calm now) items t.channelType).store)
    (hpending : a'.pendingMutations = w.actor.pendingMutations)
    (hpipeline : a'.receivePipeline = w.actor.receivePipeline) :
    Sound log
      { actor := a'
        arrived := items.flatMap (fun item => log.posts item.messageId) ++ w.arrived
        told := pageTold items ++ w.told } := by
  have hcore := h.core
  rw [hnone] at hcore
  have hrun : a'.store = EventRun.run (Store.afterUpsert currentUid (.calm now))
      w.actor.store (items.map (pageInput codec t)) := by
    have hmap : items.map (fun item => codec.historyItemToUpsertInput item
        (if t.channelType = 0 then 1 else t.channelType)) =
          items.map (pageInput codec t) := by
      refine List.map_congr_left (fun item hitem => ?_)
      rw [if_neg (Nat.ne_of_gt (htells item hitem).known.channelType_pos)]
      rfl
    rw [hstore]
    unfold SyncActor.storeHistory
    change (codec.storeHistoryItems currentUid items _).after _ w.actor.store = _
    rw [after_storeHistoryItems, hmap]
    rfl
  have htoldSub : ∀ n ∈ w.told, n ∈ pageTold items ++ w.told :=
    fun n hn => List.mem_append_right _ hn
  have hcore₁ : Core log { w.standing with told := pageTold items ++ w.told }
      w.actor.receivePipeline [] := by
    refine hcore.stored hcore.store (fun _ hT => hT) (fun n hn => ?_)
    rcases List.mem_append.mp hn with hnew | hold
    · obtain ⟨item, hitem, hrevoked, rfl⟩ := mem_pageTold.mp hnew
      exact (htells item hitem).revoked hrevoked
    · exact hcore.told n hold
  have hsettled₁ : ∀ S, Settled log
      { w.standing with told := pageTold items ++ w.told } S :=
    fun S => (hsettled S).congr rfl htoldSub (fun _ _ => Iff.rfl) (fun _ _ => Iff.rfl)
  obtain ⟨hcore₂, hsettled₂, hkept, hstored⟩ := settled_history (w := w) items hcore₁
    hsettled₁ rfl rfl htells
    (fun item hitem hrevoked => List.mem_append_left _
      (mem_pageTold.mpr ⟨item, hitem, hrevoked, rfl⟩)) hguarded
  have hposts : ∀ e ∈ items.flatMap (fun item => log.posts item.messageId),
      ∃ item ∈ items, e ∈ log.logged ∧ e.change.posted = some item.messageId := by
    intro e he
    obtain ⟨item, hitem, hmem⟩ := List.mem_flatMap.mp he
    exact ⟨item, hitem, mem_posts.mp hmem⟩
  have hcore₃ : Core log
      { store := EventRun.run (Store.afterUpsert currentUid (.calm now)) w.actor.store
          (items.map (pageInput codec t))
        pending := w.actor.pendingMutations
        arrived := items.flatMap (fun item => log.posts item.messageId) ++ w.arrived
        told := pageTold items ++ w.told } w.actor.receivePipeline [] := by
    refine hcore₂.opened (fun e he => List.mem_append_right _ he) (fun e he => ?_)
      (fun e he hcame S hS => ?_) hcore.queue (fun key hkey => Or.inl hkey)
      (fun y hy => absurd hy List.not_mem_nil) (fun y hy => absurd hy List.not_mem_nil)
    · rcases List.mem_append.mp he with hnew | hold
      · obtain ⟨item, -, hlogged, -⟩ := hposts e hnew
        exact hlogged
      · exact hcore.arrived e hold
    · rcases List.mem_append.mp he with hnew | hold
      · obtain ⟨item, hitem, -, hposted⟩ := hposts e hnew
        rw [hS] at hposted
        cases hposted
        exact Or.inl (hstored item hitem)
      · exact absurd hold hcame
  have hnew : ∀ e ∈ items.flatMap (fun item => log.posts item.messageId),
      e.change.target = none := by
    intro e he
    obtain ⟨item, -, -, hposted⟩ := hposts e he
    exact target_of_posted hposted
  have hsettled₃ := fun S => (hsettled₂ S).arrive hnew
  have hstanding : Reception.standing
      { actor := a'
        arrived := items.flatMap (fun item => log.posts item.messageId) ++ w.arrived
        told := pageTold items ++ w.told } =
      { store := EventRun.run (Store.afterUpsert currentUid (.calm now)) w.actor.store
          (items.map (pageInput codec t))
        pending := w.actor.pendingMutations
        arrived := items.flatMap (fun item => log.posts item.messageId) ++ w.arrived
        told := pageTold items ++ w.told } := by
    unfold Reception.standing
    rw [hrun, hpending]
  refine { core := ?_, task := ?_ }
  · rw [hstanding]
    dsimp only
    rw [hidle, hpipeline]
    exact hcore₃
  · rw [hstanding]
    dsimp only
    rw [hidle]
    exact hsettled₃

end History

section Calls

variable {codec : Codec} {t : Timeline} {log : EventLog codec t} {w : Reception}
variable {currentUid : Option Nat} {now : Int}

/-- Plain pushes are opened, or their messages are there. -/
theorem Sound.messagePushes (h : Sound log w) (hnone : w.actor.task.entries = [])
    (hsettled : ∀ S, Settled log w.standing S) {pushes : List PushMessageRequest}
    (htells : ∀ push ∈ pushes, PushTells log push) :
    Sound log
      { actor := w.actor.enqueueAndDrain "message" none
          (pushes.map (fun push => queued .message (codec.pushMessageToSyncItem push)))
          .pushes
        arrived := pushes.flatMap (fun push => log.posts push.serverMessageId) ++ w.arrived
        told := w.told } := by
  have hcore := h.core
  rw [hnone] at hcore
  have hopened := opened_enqueueAndDrain hcore.queue "message" none
    (pushes.map (fun push => queued .message (codec.pushMessageToSyncItem push))) .pushes
  have hentry : ∀ y ∈ acceptedEntries w.actor.receivePipeline "message" none
      (pushes.map (fun push => queued .message (codec.pushMessageToSyncItem push))),
      ∃ push ∈ pushes, y = pushEntry codec push := by
    intro y hy
    obtain ⟨item, hitem, rfl⟩ := mem_acceptedEntries _ hy
    obtain ⟨push, hpush, rfl⟩ := List.mem_map.mp hitem
    exact ⟨push, hpush, rfl⟩
  have hposts : ∀ e ∈ pushes.flatMap (fun push => log.posts push.serverMessageId),
      ∃ push ∈ pushes, e ∈ log.logged ∧ e.change.posted = some push.serverMessageId := by
    intro e he
    obtain ⟨push, hpush, hmem⟩ := List.mem_flatMap.mp he
    exact ⟨push, hpush, mem_posts.mp hmem⟩
  have hthere : ∀ push ∈ pushes, w.actor.store.view push.serverMessageId ≠ none ∨
      ∃ y ∈ acceptedEntries w.actor.receivePipeline "message" none
          (pushes.map (fun push => queued .message (codec.pushMessageToSyncItem push))),
        y.entityType = "message" ∧ y.item.entityId = toString push.serverMessageId := by
    intro push hpush
    have hcarries := carries_pushEntry (htells push hpush)
    have hitem : (pushEntry codec push).item ∈ pushes.map
        (fun push => queued .message (codec.pushMessageToSyncItem push)) :=
      List.mem_map.mpr ⟨push, hpush, rfl⟩
    rcases remembered_or_accepted _ hitem with hkey | ⟨y, hy, hkey⟩
    · refine (hcore.remembered.message (pushEntry codec push) hcarries.plain hkey
        hcarries.type _ hcarries.id).imp_right ?_
      rintro ⟨z, hz, -⟩
      exact absurd hz List.not_mem_nil
    · obtain ⟨push', hpush', rfl⟩ := hentry y hy
      have hcarries' := carries_pushEntry (htells push' hpush')
      obtain ⟨-, -, hid, -⟩ := hcarries'.plain.same_of_key hcarries.plain hkey
      exact Or.inr ⟨_, hy, rfl, hid.trans hcarries.id⟩
  refine Sound.opened hopened (hcore.opened (fun e he => List.mem_append_right _ he) ?_ ?_
    hopened.queue hopened.keys ?_ ?_) ⟨?_, fun S => (hsettled S).arrive ?_⟩
  · intro e he
    rcases List.mem_append.mp he with hnew | hold
    · obtain ⟨push, -, hlogged, -⟩ := hposts e hnew
      exact hlogged
    · exact hcore.arrived e hold
  · intro e he hcame S hS
    rcases List.mem_append.mp he with hnew | hold
    · obtain ⟨push, hpush, -, hposted⟩ := hposts e hnew
      rw [hS] at hposted
      cases hposted
      exact hthere push hpush
    · exact absurd hold hcame
  · intro y hy
    obtain ⟨push, hpush, rfl⟩ := hentry y hy
    exact (carries_pushEntry (htells push hpush)).plain
  · intro y hy hne
    obtain ⟨push, -, rfl⟩ := hentry y hy
    exact absurd rfl hne
  · intro y hy
    obtain ⟨push, hpush, rfl⟩ := hentry y hy
    exact ⟨_, carries_pushEntry (htells push hpush)⟩
  · intro e he
    obtain ⟨push, -, -, hposted⟩ := hposts e he
    exact target_of_posted hposted

/-- A resume run begins. -/
theorem Sound.resume (h : Sound log w) (hnone : w.actor.task.entries = [])
    (hsettled : ∀ S, Settled log w.standing S) :
    Sound log { w with actor := w.actor.resume (.calm now) t } := by
  unfold SyncActor.resume
  split
  · exact h.goto hnone hsettled rfl
  · exact h.goto hnone ⟨rfl, hsettled⟩ rfl

/-- A call that is over leaves the actor idle. -/
theorem Sound.over (h : Sound log w) (hnone : w.actor.task.entries = [])
    (hsettled : ∀ S, Settled log w.standing S) {a' : SyncActor}
    (hidle : a'.task = .idle) (hstore : a'.store = w.actor.store)
    (hpending : a'.pendingMutations = w.actor.pendingMutations)
    (hpipeline : a'.receivePipeline = w.actor.receivePipeline) :
    Sound log { w with actor := a' } := by
  have hcore := h.core
  rw [hnone] at hcore
  have hstanding : Reception.standing { w with actor := a' } = w.standing := by
    unfold Reception.standing
    rw [hstore, hpending]
  refine { core := ?_, task := ?_ }
  · rw [hstanding]
    dsimp only
    rw [hidle, hpipeline]
    exact hcore
  · rw [hstanding]
    dsimp only
    rw [hidle]
    exact hsettled

/-- The end of a page. -/
theorem Sound.endPage {page : Page} (h : Sound log w) (htask : w.actor.task = .page page) :
    Sound log { w with actor := w.actor.endPage (.calm now) page } := by
  have hnone : w.actor.task.entries = [] := by rw [htask]; rfl
  have hsound := h.task
  rw [htask] at hsound
  obtain ⟨⟨hline, -⟩, hsettled⟩ := hsound
  have hcore := h.core
  rw [hnone] at hcore
  unfold SyncActor.endPage
  dsimp only
  split
  · exact h.goto hnone hsettled rfl
  · rw [if_neg (by exact Bool.false_ne_true)]
    split
    · exact { core := hcore, task := ⟨hline, hsettled⟩ }
    · exact { core := hcore, task := hsettled }

/-- An answer to the request of a run. -/
theorem Sound.receive {r : DifferenceReply} (h : Sound log w)
    (hbrings : w.Brings log (now, .reply r))
    (hconverges : Reception.Converges currentUid codec t w (now, .reply r)) :
    Sound log (w.step log currentUid (now, .reply r)) := by
  have hreceive : w.step log currentUid (now, .reply r) =
      { actor := w.actor.receive codec currentUid (.calm now)
          (Function.update (fun _ => []) t log.commits) r
        arrived := w.arrivals log (.reply r) ++ w.arrived
        told := pageTold (w.historyPage (.reply r)) ++ w.told } := rfl
  rw [hreceive]
  cases htask : w.actor.task with
  | fetch line lastPts pages =>
      have hnone : w.actor.task.entries = [] := by rw [htask]; rfl
      have hsound := h.task
      rw [htask] at hsound
      obtain ⟨rfl, hsettled⟩ := hsound
      simp only [Reception.Brings, Reception.Converges, Reception.historyPage, htask]
        at hbrings hconverges
      simp only [Reception.arrivals, Reception.historyPage, SyncActor.receive, htask]
      by_cases hlimit : 64 < pages + 1
      · rw [if_pos hlimit]
        cases r with
        | failed => exact h.goto hnone hsettled rfl
        | page count hasMore => exact h.goto hnone hsettled rfl
        | resyncRequired currentPts history =>
            cases currentPts with
            | none => exact h.goto hnone hsettled rfl
            | some currentPts =>
                cases history with
                | none => exact h.goto hnone hsettled rfl
                | some items =>
                    dsimp only
                    rw [if_pos hlimit]
                    exact h.goto hnone hsettled rfl
      · rw [if_neg hlimit]
        cases r with
        | failed => exact h.goto hnone hsettled rfl
        | page count hasMore =>
            dsimp only
            rw [Function.update_self]
            split
            · exact h.goto hnone hsettled rfl
            · refine h.goto hnone ⟨⟨rfl, fun c hc => ?_⟩, hsettled⟩ rfl
              exact (LogPages.mem_behind.mp (List.mem_of_mem_take hc)).1
        | resyncRequired currentPts history =>
            cases currentPts with
            | none => exact h.goto hnone hsettled rfl
            | some currentPts =>
                dsimp only
                rw [if_neg (by exact Bool.false_ne_true)]
                cases history with
                | none => exact h.over hnone hsettled rfl rfl rfl rfl
                | some items =>
                    dsimp only at hbrings hconverges ⊢
                    rw [if_neg hlimit] at hbrings hconverges ⊢
                    exact h.storeHistory hnone hsettled hbrings hconverges rfl rfl rfl rfl
  | idle | page | apply | replay | reconcile =>
      simp only [Reception.arrivals, Reception.historyPage, SyncActor.receive, htask]
      exact h

/-- A call from outside, when the actor is idle. -/
theorem Sound.call {d : Delivery} (h : Sound log w) (hidle : w.actor.task = .idle)
    (hbrings : w.Brings log (now, d))
    (hconverges : Reception.Converges currentUid codec t w (now, d)) :
    Sound log (w.step log currentUid (now, d)) := by
  have hnone : w.actor.task.entries = [] := by rw [hidle]; rfl
  have hsettled := h.task
  rw [hidle] at hsettled
  change ∀ S, Settled log w.standing S at hsettled
  cases d with
  | resume =>
      simp only [Reception.step, Reception.arrivals, Reception.historyPage, hidle,
        Delivery.syncEvent, SyncActor.step]
      exact h.resume hnone hsettled
  | reply r =>
      exact h.receive hbrings hconverges
  | timelinePush push event =>
      simp only [Reception.Brings, hidle] at hbrings
      obtain ⟨hchannel, c, hc, hpush⟩ := hbrings
      simp only [Reception.step, Reception.arrivals, Reception.historyPage, hidle,
        Delivery.syncEvent, SyncActor.step, SyncActor.command]
      have hline : ({ channelId := push.channelId, channelType := push.channelType } :
          Timeline) = t := by
        rw [hchannel.1, hchannel.2]
      rw [hline]
      have hcaller : CallerSound log .push := trivial
      exact h.takeCommit hnone hsettled (fromLog_push hc hpush hchannel) hcaller now
  | messagePushes pushes =>
      simp only [Reception.Brings, hidle] at hbrings
      simp only [Reception.step, Reception.arrivals, Reception.historyPage, hidle,
        Delivery.syncEvent, SyncActor.step, SyncActor.command]
      exact h.messagePushes hnone hsettled hbrings
  | history items =>
      simp only [Reception.Brings, Reception.Converges, Reception.historyPage, hidle]
        at hbrings hconverges
      simp only [Reception.step, Reception.arrivals, Reception.historyPage, hidle,
        Delivery.syncEvent, SyncActor.step, SyncActor.command]
      exact h.storeHistory hnone hsettled hbrings hconverges rfl rfl rfl rfl
  | proceed =>
      simp only [Reception.step, Reception.arrivals, Reception.historyPage, hidle,
        Delivery.syncEvent, SyncActor.step, SyncActor.proceed]
      exact h

end Calls

section Runs

variable {codec : Codec} {t : Timeline} {log : EventLog codec t} {w : Reception}
variable {currentUid : Option Nat} {now : Int}

/-- The next statement of what the actor is at. -/
theorem Sound.proceed (h : Sound log w)
    (hconverges : Reception.Converges currentUid codec t w (now, .proceed)) :
    Sound log (w.step log currentUid (now, .proceed)) := by
  have hsound := h.task
  cases htask : w.actor.task with
  | idle | fetch =>
      simp only [Reception.step, Reception.arrivals, Reception.historyPage, htask,
        Delivery.syncEvent, SyncActor.step, SyncActor.proceed]
      exact h
  | page page =>
      have hnone : w.actor.task.entries = [] := by rw [htask]; rfl
      rw [htask] at hsound
      obtain ⟨timeline, lastPts, pages, commits, hasMore, rest⟩ := page
      cases rest with
      | nil =>
          simp only [Reception.step, Reception.arrivals, Reception.historyPage, htask,
            Delivery.syncEvent, SyncActor.step, SyncActor.proceed]
          exact h.endPage htask
      | cons c rest =>
          obtain ⟨⟨rfl, hlogged⟩, hsettled⟩ := hsound
          simp only [Reception.step, Reception.arrivals, Reception.historyPage, htask,
            Delivery.syncEvent, SyncActor.step, SyncActor.proceed]
          have hcaller : CallerSound log (.page ⟨timeline, lastPts, pages, commits, hasMore,
              c :: rest⟩) := ⟨rfl, hlogged⟩
          exact h.takeCommit hnone hsettled
            (fromLog_of_mem (hlogged c List.mem_cons_self)) hcaller now
  | apply batches after =>
      rw [htask] at hsound
      have hcore := h.core
      rw [htask] at hcore
      match batches with
      | [] =>
          simp only [Reception.step, Reception.arrivals, Reception.historyPage, htask,
            Delivery.syncEvent, SyncActor.step, SyncActor.proceed]
          exact h.finishApply htask
      | (batch, []) :: batches =>
          simp only [Reception.step, Reception.arrivals, Reception.historyPage, htask,
            Delivery.syncEvent, SyncActor.step, SyncActor.proceed]
          exact { core := hcore, task := hsound }
      | (batch, item :: items) :: batches =>
          simp only [Reception.Converges, htask] at hconverges
          simp only [Reception.step, Reception.arrivals, Reception.historyPage, htask,
            Delivery.syncEvent, SyncActor.step, SyncActor.proceed]
          cases after with
          | commit c caller =>
              obtain ⟨hmessage, hmutation⟩ := hconverges
              have hsound' := hsound
              obtain ⟨-, hc, hcommit, -⟩ := hsound'
              unfold CommitSound at hcommit
              cases htarget : mutationTarget c with
              | none =>
                  rw [htarget] at hcommit
                  rcases hcommit with ⟨hone, -⟩ | ⟨hempty, -⟩
                  · have htype := congrArg Entry.entityType (List.cons.inj hone).1
                    exact Sound.applyMessage hcore hsound htarget
                      (hmessage (htype.trans (hc.isMessage htarget)))
                  · cases hempty
              | some S =>
                  rw [htarget] at hcommit
                  rcases hcommit with ⟨hone, -⟩ | ⟨hempty, -⟩
                  · have htype := congrArg Entry.entityType (List.cons.inj hone).1
                    refine Sound.applyMutation hcore hsound htarget (hmutation ?_)
                    exact fun heq => not_isMessage_of_target htarget (htype.symm.trans heq)
                  · cases hempty
          | mutation m rest caller =>
              exact Sound.applyReplay hcore hsound
          | pushes =>
              exact Sound.applyPush hcore hsound hconverges
  | replay mutations caller =>
      have hnone : w.actor.task.entries = [] := by rw [htask]; rfl
      rw [htask] at hsound
      obtain ⟨hcaller, -, S, hreplaying⟩ := hsound
      cases mutations with
      | nil =>
          simp only [Reception.step, Reception.arrivals, Reception.historyPage, htask,
            Delivery.syncEvent, SyncActor.step, SyncActor.proceed]
          exact h.goto hnone (hcaller.task hreplaying.settled) (entries_callerTask caller)
      | cons m rest =>
          simp only [Reception.step, Reception.arrivals, Reception.historyPage, htask,
            Delivery.syncEvent, SyncActor.step, SyncActor.proceed]
          exact h.replayMutation htask
  | reconcile line =>
      have hnone : w.actor.task.entries = [] := by rw [htask]; rfl
      rw [htask] at hsound
      simp only [Reception.step, Reception.arrivals, Reception.historyPage, htask,
        Delivery.syncEvent, SyncActor.step, SyncActor.proceed]
      rw [if_neg (by exact Bool.false_ne_true)]
      exact h.over hnone hsound rfl rfl rfl rfl

/-- Every step that converges keeps the messages settled. -/
theorem Sound.step (h : Sound log w) {x : Int × Delivery} (hbrings : w.Brings log x)
    (hconverges : Reception.Converges currentUid codec t w x) :
    Sound log (w.step log currentUid x) := by
  obtain ⟨now, d⟩ := x
  cases d with
  | reply r =>
      exact h.receive hbrings hconverges
  | proceed =>
      exact h.proceed hconverges
  | resume | timelinePush | messagePushes | history =>
      cases htask : w.actor.task with
      | idle =>
          exact h.call htask hbrings hconverges
      | fetch | page | apply | replay | reconcile =>
          simp only [Reception.step, Reception.arrivals, Reception.historyPage, htask,
            Delivery.syncEvent, SyncActor.step]
          exact h

/-- Nothing is known of a new account. -/
theorem sound_start (log : EventLog codec t) (recentKeyLimit : Nat) :
    Sound log (.start recentKeyLimit) where
  core :=
    { store := Store.ofChannel_empty
      arrived := fun e he => absurd he List.not_mem_nil
      told := fun S hS => absurd hS List.not_mem_nil
      pending := fun m hm => absurd hm List.not_mem_nil
      nodup := List.nodup_nil
      queue := rfl
      remembered :=
        { message := fun y _ hkey => absurd hkey (Finset.notMem_empty _)
          mutation := fun y _ hkey => absurd hkey (Finset.notMem_empty _) }
      posted := fun e he => absurd he List.not_mem_nil }
  task S :=
    { missing := fun _ e he => absurd he List.not_mem_nil
      shown := fun v hv => by cases hv
      replayed := fun v _ m hm => absurd hm List.not_mem_nil }

/-- The actor is between two calls, or waits for the server. -/
def Task.atRest : Task → Bool
  | .apply _ _ => false
  | .replay _ _ => false
  | _ => true

theorem Sound.settled (h : Sound log w) (hrest : w.actor.task.atRest = true) (S : Nat) :
    Settled log w.standing S := by
  have hsound := h.task
  cases htask : w.actor.task with
  | apply | replay =>
      rw [htask] at hrest
      cases hrest
  | idle | reconcile =>
      rw [htask] at hsound
      exact hsound S
  | fetch | page =>
      rw [htask] at hsound
      exact hsound.2 S

theorem entries_of_atRest {task : Task} (h : task.atRest = true) : task.entries = [] := by
  cases task with
  | apply => cases h
  | idle | fetch | page | replay | reconcile => rfl

/-- All events of the channel have come. -/
def Reception.Complete (w : Reception) (log : EventLog codec t) : Prop :=
  ∀ e ∈ log.logged, e ∈ w.arrived

/--
In every run in which no statement fails and no call is dropped, and whose steps bring
events of the channel and converge, in every state between two calls: no mutation is
pending for a message that is stored; every mutation of a message that is missing and has
come is pending; and once all events have come, every message of the channel looks as the
events in their order say.
-/
theorem timeline_converges
    (codec : Codec) (t : Timeline) (log : EventLog codec t) (currentUid : Option Nat)
    (recentKeyLimit : Nat) (xs : List (Int × Delivery))
    (hmeets : EventRun.Guarded (Reception.step log currentUid)
      (fun w x => w.Brings log x ∧ Reception.Converges currentUid codec t w x)
      (.start recentKeyLimit) xs) :
    let w := EventRun.run (Reception.step log currentUid)
      (.start recentKeyLimit) xs
    w.actor.task.atRest = true →
      (∀ S, w.actor.store.view S ≠ none →
        ∀ m ∈ w.actor.pendingMutations, m.targetServerMessageId ≠ S) ∧
      (∀ S, w.actor.store.view S = none → ∀ e ∈ w.arrived, e.change.target = some S →
        ∃ m ∈ w.actor.pendingMutations, m.targetServerMessageId = S ∧ m.pts = e.pts) ∧
      (w.Complete log → ∀ e ∈ log.logged, ∀ S, e.change.posted = some S →
        w.actor.store.view S = (inOrder S log.logged).view) := by
  intro w hrest
  have hsound : Sound log w := hmeets.invariant (Sound log)
    (fun _ _ h hstep => h.step hstep.1 hstep.2) (sound_start log recentKeyLimit)
  have hcore := hsound.core
  rw [entries_of_atRest hrest] at hcore
  refine ⟨fun S hstored m hm => ?_, fun S hnone e he hS => ?_, ?_⟩
  · obtain ⟨v, hv⟩ := Option.ne_none_iff_exists'.mp hstored
    exact (hsound.settled hrest S).replayed v hv m hm
  · exact (hsound.settled hrest S).missing hnone e he hS
  · intro hcomplete e he S hS
    rcases hcore.posted e (hcomplete e he) S hS with hstored | ⟨y, hy, -⟩
    · obtain ⟨v, hv⟩ := Option.ne_none_iff_exists'.mp hstored
      have hshows := (hsound.settled hrest S).shown v hv
      have hsorted : LogPages.Increasing LogEvent.pts log.logged :=
        List.pairwise_map.mpr log.increasing
      refine hv.trans (Eq.symm ?_)
      exact hshows.view_inOrder hsorted
        (fun e _ => ⟨fun he => hcore.arrived e he, fun he => hcomplete e he⟩)
        (fun _ he => he)
        (fun e he e' he' n hn hn' => eq_of_posted he he' hn hn') ⟨e, he, hS⟩
        (hcore.told S)
    · exact absurd hy List.not_mem_nil

end Runs

section Quiet

/-- No message and no reaction is applied next. -/
def Task.quiet : Task → Bool
  | .apply ((_, _ :: _) :: _) (.mutation _ _ _) => true
  | .apply ((_, _ :: _) :: _) _ => false
  | _ => true

/-- A commit that posts a message is applied next. -/
def Task.posts (codec : Codec) : Task → Bool
  | .apply _ (.commit c _) => (commitChange codec c).target.isNone
  | _ => false

variable {codec : Codec} {t : Timeline} {w : Reception}
variable {currentUid : Option Nat} {now : Int}

theorem historyPage_proceed (w : Reception) : w.historyPage .proceed = [] := by
  unfold Reception.historyPage
  cases w.actor.task with
  | idle | fetch | page | apply | replay | reconcile => rfl

theorem brings_proceed (log : EventLog codec t) (w : Reception) (now : Int) :
    w.Brings log (now, .proceed) := by
  have hnone : ∀ item ∈ w.historyPage .proceed, HistoryTells log item := by
    rw [historyPage_proceed]
    exact fun item hitem => absurd hitem List.not_mem_nil
  unfold Reception.Brings
  cases w.actor.task with
  | idle | fetch | page | apply | replay | reconcile => exact hnone

/-- A quiet step converges. -/
theorem converges_of_quiet (hquiet : w.actor.task.quiet = true) :
    Reception.Converges currentUid codec t w (now, .proceed) := by
  unfold Reception.Converges
  rw [historyPage_proceed]
  cases htask : w.actor.task with
  | idle | fetch | page | replay | reconcile => trivial
  | apply batches after =>
      rw [htask] at hquiet
      match batches with
      | [] => trivial
      | (batch, []) :: batches => trivial
      | (batch, item :: items) :: batches =>
          cases after with
          | mutation m rest caller => trivial
          | commit c caller => cases hquiet
          | pushes => cases hquiet

/-- The first message of a channel converges. -/
theorem converges_of_posts (hposts : w.actor.task.posts codec = true)
    (hempty : w.actor.store.message.rows.isEmpty = true) :
    Reception.Converges currentUid codec t w (now, .proceed) := by
  have hrows := List.isEmpty_iff.mp hempty
  unfold Reception.Converges
  rw [historyPage_proceed]
  cases htask : w.actor.task with
  | idle | fetch | page | replay | reconcile => trivial
  | apply batches after =>
      rw [htask] at hposts
      match batches with
      | [] => trivial
      | (batch, []) :: batches => trivial
      | (batch, item :: items) :: batches =>
          cases after with
          | mutation m rest caller => cases hposts
          | pushes => cases hposts
          | commit c caller =>
              refine ⟨fun _ input _ => ?_, fun _ target actorId emoji remove hchange => ?_⟩
              · refine
                  { own := fun row hrow => ?_
                    pending := fun hfalse => by cases hfalse
                    revoked := fun row hrow => ?_ }
                · have hmem := (Store.mem_of_byInputLocalId hrow).1
                  rw [hrows] at hmem
                  exact absurd hmem List.not_mem_nil
                · have hmem := List.mem_of_find?_eq_some hrow
                  rw [hrows] at hmem
                  exact absurd hmem List.not_mem_nil
              · change (commitChange codec c).target.isNone = true at hposts
                rw [hchange] at hposts
                cases hposts

/-- The next steps are quiet. -/
def Reception.quietFor (log : EventLog codec t) (currentUid : Option Nat) :
    Nat → Reception → Bool
  | 0, _ => true
  | n + 1, w => w.actor.task.quiet &&
      quietFor log currentUid n (w.step log currentUid (0, .proceed))

theorem guarded_of_quietFor {log : EventLog codec t} {n : Nat}
    (h : w.quietFor log currentUid n = true) :
    EventRun.Guarded (Reception.step log currentUid)
      (fun w x => w.Brings log x ∧ Reception.Converges currentUid codec t w x) w
      (List.replicate n (0, .proceed)) := by
  induction n generalizing w with
  | zero => trivial
  | succ n ih =>
      obtain ⟨hquiet, hrest⟩ := Bool.and_eq_true_iff.mp h
      exact ⟨⟨brings_proceed log w 0, converges_of_quiet hquiet⟩, ih hrest⟩

end Quiet

section Sample

/-- A commit that changes the first text. -/
def mutationCommit (n : Nat) (event : CanonicalTimelineEvent) : ServerCommit :=
  { numberedCommit n with
    eventId := some (10 + n)
    canonicalEvent := some event }

def firstRevoke : CanonicalTimelineEvent := .revoke 11 2 0

def firstReaction : CanonicalTimelineEvent := .reactionChange 11 3 "+" false

/-- A text, its revoke and a reaction to it. -/
def mutatedLog : EventLog sampleCodec numberedTimeline where
  commits := [numberedCommit 1, mutationCommit 2 firstRevoke, mutationCommit 3 firstReaction]
  increasing := by
    unfold LogPages.Increasing
    decide
  pts_pos := by decide
  serverMsgId_pos := by decide
  channel := by decide
  known := by decide
  events c hc c' hc' eventId target h h' := by
    simp only [List.mem_cons, List.not_mem_nil, or_false] at hc hc'
    rcases hc with rfl | rfl | rfl
    · cases h
    · cases h
      rcases hc' with rfl | rfl | rfl
      · cases h'
      · exact fun _ _ => rfl
      · cases h'
    · cases h
      rcases hc' with rfl | rfl | rfl
      · cases h'
      · cases h'
      · exact fun _ _ => rfl
  channelId_lt := by decide
  messages c hc c' hc' h h' _ := by
    simp only [List.mem_cons, List.not_mem_nil, or_false] at hc hc'
    rcases hc with rfl | rfl | rfl
    · rcases hc' with rfl | rfl | rfl
      · rfl
      · cases h'
      · cases h'
    · cases h
    · cases h
  legacy c hc h := by
    simp only [List.mem_cons, List.not_mem_nil, or_false] at hc
    rcases hc with rfl | rfl | rfl
    · cases h
    · cases h
    · cases h
  eventIds c hc h := by
    simp only [List.mem_cons, List.not_mem_nil, or_false] at hc
    rcases hc with rfl | rfl | rfl
    · exact absurd rfl h
    · exact Option.some_ne_none _
    · exact Option.some_ne_none _
  fits c hc event h := by
    simp only [List.mem_cons, List.not_mem_nil, or_false] at hc
    rcases hc with rfl | rfl | rfl
    · cases h
      trivial
    · cases h
      exact ⟨by decide, by decide⟩
    · cases h
      exact ⟨⟨by decide, by decide⟩, ⟨by decide, by decide⟩, by decide⟩

/-- The push of a mutation. -/
def mutationPush (n : Nat) : PushMessageRequest :=
  { secondPush with
    serverMessageId := 10 + n
    messageSeq := n }

/-- The mutations come first, as pushes, and the page with the text after them. -/
def mutationsFirst : List (Int × Delivery) :=
  [(0, .timelinePush (mutationPush 2) firstRevoke),
    (0, .timelinePush (mutationPush 3) firstReaction), (0, .resume),
    (0, .reply (.page 1 false))] ++ List.replicate 15 (0, .proceed)

def afterMutations : Reception :=
  EventRun.run (Reception.step mutatedLog (some 1)) (.start 512) mutationsFirst

theorem pushOf_mutation {n : Nat} {event : CanonicalTimelineEvent}
    (htarget : mutationTarget (mutationCommit n event) ≠ none) :
    PushOf sampleCodec (mutationPush n) event (mutationCommit n event) where
  pts := rfl
  event := rfl
  message hmessage := by
    obtain ⟨S, hS⟩ := Option.ne_none_iff_exists'.mp htarget
    exact absurd hmessage (not_isMessage_of_target hS)
  eventId _ := rfl

/-- The text comes after its mutations and shows both. -/
theorem timeline_converges_mutationsFirst :
    afterMutations.actor.pendingMutations.isEmpty = true ∧
      afterMutations.actor.store.view 11 = (inOrder 11 mutatedLog.logged).view ∧
      ((afterMutations.actor.store.view 11).map (fun v => (v.shown, v.reacted 3 "+"))) =
        some (placeholder, true) := by
  have hnothing : ∀ item ∈ ([] : List MessageHistoryItem), HistoryTells mutatedLog item :=
    fun _ h => absurd h List.not_mem_nil
  have hconverges := timeline_converges sampleCodec numberedTimeline mutatedLog (some 1) 512
    mutationsFirst
    ⟨⟨⟨⟨rfl, rfl⟩, _, List.mem_cons_of_mem _ List.mem_cons_self,
        pushOf_mutation (Option.some_ne_none _)⟩, trivial⟩,
      ⟨⟨⟨rfl, rfl⟩, _, List.mem_cons_of_mem _ (List.mem_cons_of_mem _ List.mem_cons_self),
        pushOf_mutation (Option.some_ne_none _)⟩, trivial⟩,
      ⟨hnothing, trivial⟩, ⟨hnothing, trivial⟩,
      ⟨brings_proceed _ _ 0, converges_of_quiet (by decide +kernel)⟩,
      ⟨brings_proceed _ _ 0, converges_of_posts (by decide +kernel) (by decide +kernel)⟩,
      guarded_of_quietFor (by decide +kernel)⟩
  have hrest : afterMutations.actor.task.atRest = true := by decide +kernel
  have hcomplete : afterMutations.Complete mutatedLog := by
    unfold Reception.Complete
    decide +kernel
  refine ⟨by decide +kernel, ?_, by decide +kernel⟩
  exact (hconverges hrest).2.2 hcomplete (commitEvent sampleCodec (numberedCommit 1))
    List.mem_cons_self 11 rfl

/-- The text as a page of the history has it. -/
def firstText : MessageHistoryItem where
  messageId := 11
  channelId := 7
  senderId := 2
  content := "hi"
  messageType := "text"
  timestamp := 0
  messageSeq := some 1
  metadata := none
  revoked := false

/-- The mutations come first, as pushes, and the text with the history after them. -/
def historyLast : List (Int × Delivery) :=
  [(0, .timelinePush (mutationPush 2) firstRevoke),
    (0, .timelinePush (mutationPush 3) firstReaction), (0, .history [firstText])]

def afterHistory : Reception :=
  EventRun.run (Reception.step mutatedLog (some 1)) (.start 512) historyLast

/--
The steps bring events of the channel, and all have come; but storing a page of the
history replays nothing: both mutations stay pending for the stored text, which looks as
if there were none.
-/
theorem history_leaves_mutations_pending :
    EventRun.Guarded (Reception.step mutatedLog (some 1)) (Reception.Brings mutatedLog)
        (.start 512) historyLast ∧
      afterHistory.actor.task.atRest = true ∧
      afterHistory.Complete mutatedLog ∧
      afterHistory.actor.pendingMutations.map (fun m => m.targetServerMessageId) =
        [11, 11] ∧
      ((afterHistory.actor.store.view 11).map (fun v => (v.shown, v.reacted 3 "+"))) =
        some ((0, "hi"), false) ∧
      afterHistory.actor.store.view 11 ≠ (inOrder 11 mutatedLog.logged).view := by
  have htells : HistoryTells mutatedLog firstText := by
    refine { channel := rfl, tells := ?_, revoked := fun h => by cases h }
    refine
      { posted := ⟨commitEvent sampleCodec (numberedCommit 1), List.mem_cons_self, rfl⟩
        shown := ?_ }
    intro _ e he shown hchange
    obtain ⟨c, hc, rfl⟩ := List.mem_map.mp he
    have hlog : c ∈ [numberedCommit 1, mutationCommit 2 firstRevoke,
        mutationCommit 3 firstReaction] := hc
    simp only [List.mem_cons, List.not_mem_nil, or_false] at hlog
    rcases hlog with rfl | rfl | rfl
    · cases hchange
      decide +kernel
    · cases hchange
    · cases hchange
  have hcomplete : afterHistory.Complete mutatedLog := by
    unfold Reception.Complete
    decide +kernel
  refine ⟨⟨⟨⟨rfl, rfl⟩, _, List.mem_cons_of_mem _ List.mem_cons_self,
        pushOf_mutation (Option.some_ne_none _)⟩,
      ⟨⟨rfl, rfl⟩, _, List.mem_cons_of_mem _ (List.mem_cons_of_mem _ List.mem_cons_self),
        pushOf_mutation (Option.some_ne_none _)⟩, ?_, trivial⟩,
    by decide +kernel, hcomplete, by decide +kernel, by decide +kernel, ?_⟩
  · intro item hitem
    rw [List.mem_singleton.mp hitem]
    exact htells
  · intro heq
    have hshown := congrArg (Option.map (fun v => v.shown)) heq
    revert hshown
    decide +kernel

end Sample

end Difference
end PrivchatSdk
