import PrivchatSdk.SettledMessages

/-!
# The actor keeps its messages settled

One lemma for each statement of the actor: a commit is put aside or opened, an entry is
applied, and what follows a drain replays the pending mutations of its message or goes
on behind the commit.
-/

namespace PrivchatSdk
namespace Difference

open StatementExec RelTable Receive StampedWrites

section Commits

variable {codec : Codec} {t : Timeline} {log : EventLog codec t} {w : Reception}
variable {c : ServerCommit} {caller : Caller}

/-- An actor that goes on elsewhere, with nothing open. -/
theorem Sound.goto (h : Sound log w) (hnone : w.actor.task.entries = []) {task : Task}
    (htask : TaskSound log w.standing w.actor.receivePipeline task)
    (hentries : task.entries = []) : Sound log { w with actor := w.actor.goto task } where
  core := by
    have hcore := h.core
    rw [hnone] at hcore
    change Core log w.standing w.actor.receivePipeline task.entries
    rw [hentries]
    exact hcore
  task := htask

theorem CallerSound.behindCommit (h : CallerSound log caller) :
    CallerSound log caller.behindCommit := by
  cases caller with
  | push =>
      trivial
  | page page =>
      exact ⟨h.1, fun c hc => h.2 c (List.mem_of_mem_tail hc)⟩

theorem CallerSound.task (h : CallerSound log caller) {x : Standing}
    {p : ReceivePipeline ItemPayload} (hsettled : ∀ S, Settled log x S) :
    TaskSound log x p caller.task := by
  cases caller with
  | push => exact hsettled
  | page page => exact ⟨h, hsettled⟩

theorem entries_callerTask (caller : Caller) : caller.task.entries = [] := by
  cases caller with
  | push => rfl
  | page page => rfl

/-- A mutation that is put aside is that of its commit. -/
theorem FromLog.held (hc : FromLog log c) {S eventId : Nat}
    (htarget : mutationTarget c = some S) (heventId : c.eventId = some eventId) :
    ∃ c' ∈ log.commits, commitEvent codec c' = commitEvent codec c ∧
      HeldFor t
        { channelId := c.channelId
          channelType := c.channelType
          targetServerMessageId := S
          eventId := eventId
          pts := c.pts
          canonicalEvent := c.canonicalEvent } c' := by
  obtain ⟨c', hc', hevent, hcanonical, hid⟩ := hc.logged
  have htarget' : mutationTarget c' = some S := by
    unfold mutationTarget at htarget ⊢
    rw [← hcanonical]
    exact htarget
  have hne : mutationTarget c ≠ none := by
    rw [htarget]
    exact Option.some_ne_none S
  refine ⟨c', hc', hevent.symm, ?_⟩
  exact
    { channel := hc.channel
      pts := congrArg LogEvent.pts hevent
      event := hcanonical
      target := htarget'
      eventId := (hid hne).symm.trans heventId }

/-- Every mutation of the log has an event id. -/
theorem FromLog.eventId_ne_none (hc : FromLog log c) {S : Nat}
    (htarget : mutationTarget c = some S) : c.eventId ≠ none := by
  obtain ⟨c', hc', -, hcanonical, hid⟩ := hc.logged
  have hne : mutationTarget c ≠ none := by
    rw [htarget]
    exact Option.some_ne_none S
  have hne' : mutationTarget c' ≠ none := by
    unfold mutationTarget at hne ⊢
    rw [← hcanonical]
    exact hne
  rw [hid hne]
  exact log.eventIds c' hc' hne'

/-- The pending mutations after one more. -/
theorem Core.mem_put {x : Standing} {p : ReceivePipeline ItemPayload}
    {entries : List (Entry ItemPayload)} (h : Core log x p entries)
    {m : PendingTimelineMutation} {c' : ServerCommit} (hc' : c' ∈ log.commits)
    (hheld : HeldFor t m c') (m' : PendingTimelineMutation) :
    m' ∈ putPendingTimelineMutation x.pending m ↔ m' = m ∨ m' ∈ x.pending := by
  unfold putPendingTimelineMutation
  rw [List.mem_cons, List.mem_filter, decide_eq_true_eq]
  constructor
  · exact Or.imp_right (fun hkept => hkept.1)
  · rintro (heq | hold)
    · exact Or.inl heq
    · by_cases hkey : m'.key = m.key
      · obtain ⟨c'', hc'', hheld', -⟩ := h.pending m' hold
        exact Or.inl (hheld'.eq_of_key hheld hc'' hc' hkey)
      · exact Or.inr ⟨hold, hkey⟩

/-- A mutation is put aside. -/
theorem Core.put {x : Standing} {p : ReceivePipeline ItemPayload} (h : Core log x p [])
    {m : PendingTimelineMutation} {c' : ServerCommit} (hc' : c' ∈ log.commits)
    (hheld : HeldFor t m c') :
    Core log
      { x with
        pending := putPendingTimelineMutation x.pending m
        arrived := commitEvent codec c' :: x.arrived } p [] :=
  { h with
    arrived := fun e he => by
      rcases List.mem_cons.mp he with rfl | hold
      · exact mem_logged.mpr ⟨c', hc', rfl⟩
      · exact h.arrived e hold
    pending := fun m' hm' => by
      rcases (h.mem_put hc' hheld m').mp hm' with rfl | hold
      · exact ⟨c', hc', hheld, List.mem_cons_self⟩
      · obtain ⟨c'', hc'', hheld', he⟩ := h.pending m' hold
        exact ⟨c'', hc'', hheld', List.mem_cons_of_mem _ he⟩
    nodup := by
      refine List.nodup_cons.mpr ⟨fun hm => ?_, h.nodup.filter _⟩
      have hkey := (List.mem_filter.mp hm).2
      rw [decide_eq_true_eq] at hkey
      exact hkey rfl
    remembered :=
      { message := h.remembered.message
        mutation := fun y hy hkey htype => by
          obtain ⟨e, he, hrest⟩ := h.remembered.mutation y hy hkey htype
          exact ⟨e, List.mem_cons_of_mem _ he, hrest⟩ }
    posted := fun e he S hS => by
      rcases List.mem_cons.mp he with rfl | hold
      · have htarget := (posted_commitChange hS).1
        rw [hheld.target] at htarget
        cases htarget
      · exact h.posted e hold S hS }

/-- An event that is about no message leaves all of them settled. -/
theorem Settled.arrive {x : Standing} {S : Nat} (h : Settled log x S)
    {events : List LogEvent} (hnone : ∀ e ∈ events, e.change.target = none) :
    Settled log { x with arrived := events ++ x.arrived } S := by
  refine h.congr rfl (fun _ hn => hn) (fun e hS => ?_) (fun _ _ => Iff.rfl)
  rw [List.mem_append]
  refine ⟨Or.inr, fun hmem => hmem.resolve_left (fun he => ?_)⟩
  rw [hnone e he] at hS
  cases hS

theorem Settled.arrive_other {x : Standing} {S : Nat} (h : Settled log x S)
    {e : LogEvent} (hnone : e.change.target = none) :
    Settled log { x with arrived := e :: x.arrived } S := by
  have hsingle : ∀ e' ∈ [e], e'.change.target = none := by
    intro e' he'
    rw [List.mem_singleton.mp he']
    exact hnone
  exact h.arrive hsingle

/-- An event that has come before changes nothing. -/
theorem Settled.arrive_again {x : Standing} {S : Nat} (h : Settled log x S)
    {e : LogEvent} (he : e ∈ x.arrived) :
    Settled log { x with arrived := e :: x.arrived } S := by
  refine h.congr rfl (fun _ hn => hn) (fun e' _ => ?_) (fun _ _ => Iff.rfl)
  rw [List.mem_cons]
  refine ⟨Or.inr, ?_⟩
  rintro (rfl | hold)
  · exact he
  · exact hold

theorem plain_commitEntry (codec : Codec) (t : Timeline) (c : ServerCommit) :
    Plain t (commitEntry codec t c) where
  type := commitEntry_type_bar codec t c
  scope := Or.inr rfl

/-- What an enqueue opens is what follows it. -/
theorem Sound.opened {a' : SyncActor} {after : AfterApply}
    {entries : List (Entry ItemPayload)} {arrived' : List LogEvent}
    (hopened : Opened w.actor a' after entries)
    (hcore : Core log { w.standing with arrived := arrived' } a'.receivePipeline entries)
    (hafter : AfterSound log { w.standing with arrived := arrived' } a'.receivePipeline
      entries after) :
    Sound log { actor := a', arrived := arrived', told := w.told } := by
  obtain ⟨batches, htask, rfl⟩ := hopened.task
  have hstanding : Reception.standing { actor := a', arrived := arrived', told := w.told } =
      { w.standing with arrived := arrived' } := by
    unfold Reception.standing
    rw [hopened.store, hopened.pending]
  refine { core := ?_, task := ?_ }
  · rw [hstanding]
    dsimp only
    rw [htask]
    exact hcore
  · rw [hstanding]
    dsimp only
    rw [htask]
    exact hafter

/-- A commit has come; its entry is opened, or it is remembered. -/
def OpensCommit (w : Reception) (codec : Codec) (t : Timeline) (c : ServerCommit)
    (entries : List (Entry ItemPayload)) : Prop :=
  entries = [commitEntry codec t c] ∨
    entries = [] ∧ (commitEntry codec t c).key ∈ w.actor.receivePipeline.recentKeys

theorem OpensCommit.eq_of_mem {entries : List (Entry ItemPayload)}
    (h : OpensCommit w codec t c entries) {y : Entry ItemPayload} (hy : y ∈ entries) :
    y = commitEntry codec t c := by
  rcases h with rfl | ⟨rfl, -⟩
  · exact List.mem_singleton.mp hy
  · exact absurd hy List.not_mem_nil

/-- What is known when a commit has come. -/
theorem Core.opened_commit {a' : SyncActor} {entries : List (Entry ItemPayload)}
    {after : AfterApply}
    (hcore : Core log w.standing w.actor.receivePipeline []) (hc : FromLog log c)
    (hopened : Opened w.actor a' after entries) (hopens : OpensCommit w codec t c entries)
    (hposted : mutationTarget c = none → w.actor.store.view c.serverMsgId ≠ none ∨
      ∃ y ∈ entries, y.entityType = "message" ∧ y.item.entityId = toString c.serverMsgId)
    (hmutation : ¬ IsMessage codec c →
      ∃ S, mutationTarget c = some S ∧ w.actor.store.view S ≠ none) :
    Core log { w.standing with arrived := commitEvent codec c :: w.arrived }
      a'.receivePipeline entries := by
  refine hcore.opened (fun e he => List.mem_cons_of_mem _ he) ?_ ?_ hopened.queue
    hopened.keys ?_ ?_
  · intro e he
    rcases List.mem_cons.mp he with rfl | hold
    · exact hc.mem_logged
    · exact hcore.arrived e hold
  · intro e he hcame S hS
    have heq := (List.mem_cons.mp he).resolve_right hcame
    subst heq
    obtain ⟨htarget, rfl⟩ := posted_commitChange hS
    exact hposted htarget
  · intro y hy
    rw [hopens.eq_of_mem hy]
    exact plain_commitEntry codec t c
  · intro y hy hne
    rw [hopens.eq_of_mem hy] at hne ⊢
    obtain ⟨S, htarget, hstored⟩ := hmutation hne
    exact ⟨_, List.mem_cons_self, (commitEntry_version hne).symm, S,
      (target_commitChange codec c).trans htarget, hstored⟩

/-- The commit of a message is opened, or its message is there. -/
theorem Sound.takeMessage (h : Sound log w) (hnone : w.actor.task.entries = [])
    (hsettled : ∀ S, Settled log w.standing S) (hc : FromLog log c)
    (htarget : mutationTarget c = none) (hcaller : CallerSound log caller)
    {entries : List (Entry ItemPayload)} {a' : SyncActor}
    (hopened : Opened w.actor a' (.commit c caller) entries)
    (hopens : OpensCommit w codec t c entries) :
    Sound log
      { actor := a', arrived := commitEvent codec c :: w.arrived, told := w.told } := by
  have hcore := h.core
  rw [hnone] at hcore
  have hcarries := carries_commitEntry hc htarget
  have hstored : (commitEntry codec t c).key ∈ w.actor.receivePipeline.recentKeys →
      w.actor.store.view c.serverMsgId ≠ none := by
    intro hkey
    refine (hcore.remembered.message _ hcarries.plain hkey hcarries.type _
      hcarries.id).resolve_right ?_
    rintro ⟨y, hy, -⟩
    exact absurd hy List.not_mem_nil
  have hcore' := hcore.opened_commit hc hopened hopens (fun _ => by
      rcases hopens with rfl | ⟨-, hkey⟩
      · exact Or.inr ⟨_, List.mem_cons_self, hcarries.type, hcarries.id⟩
      · exact Or.inl (hstored hkey)) (fun hne => absurd hcarries.type hne)
  have hsettled' : ∀ S, Settled log
      { w.standing with arrived := commitEvent codec c :: w.arrived } S := by
    refine fun S => (hsettled S).arrive_other ?_
    exact (target_commitChange codec c).trans htarget
  refine Sound.opened hopened hcore'
    ⟨hcaller, hc, ?_, fun _ => hcore'.fresh (hsettled' c.serverMsgId)⟩
  unfold CommitSound
  rw [htarget]
  rcases hopens with hone | ⟨hempty, hkey⟩
  · exact Or.inl ⟨hone, hsettled'⟩
  · refine Or.inr ⟨hempty, ?_, fun T _ => hsettled' T⟩
    obtain ⟨v, hv⟩ := Option.ne_none_iff_exists'.mp (hstored hkey)
    exact Replaying.again (hsettled' c.serverMsgId) hcore' (hstored hkey) hv
      ((hsettled' c.serverMsgId).shown v hv)

/-- The mutation of a stored message is opened, or it has come before. -/
theorem Sound.takeMutation (h : Sound log w) (hnone : w.actor.task.entries = [])
    (hsettled : ∀ S, Settled log w.standing S) (hc : FromLog log c) {S : Nat}
    (htarget : mutationTarget c = some S) (hstored : w.actor.store.view S ≠ none)
    (hcaller : CallerSound log caller)
    {entries : List (Entry ItemPayload)} {a' : SyncActor}
    (hopened : Opened w.actor a' (.commit c caller) entries)
    (hopens : OpensCommit w codec t c entries) :
    Sound log
      { actor := a', arrived := commitEvent codec c :: w.arrived, told := w.told } := by
  have hcore := h.core
  rw [hnone] at hcore
  have hne : ¬ IsMessage codec c := not_isMessage_of_target htarget
  have hcore' := hcore.opened_commit hc hopened hopens (fun hmessage => by
    rw [htarget] at hmessage
    cases hmessage) (fun _ => ⟨S, htarget, hstored⟩)
  refine Sound.opened hopened hcore' ⟨hcaller, hc, ?_, fun hmessage => ?_⟩
  · unfold CommitSound
    rw [htarget]
    rcases hopens with hone | ⟨hempty, hkey⟩
    · exact Or.inl ⟨hone, hstored, w.arrived, rfl, hsettled⟩
    · refine Or.inr ⟨hempty, fun T => (hsettled T).arrive_again ?_⟩
      obtain ⟨e, he, hpts, -⟩ := hcore.remembered.mutation _ (plain_commitEntry codec t c)
        hkey hne
      have heq : e = commitEvent codec c := eq_of_pts (hcore.arrived e he) hc.mem_logged
        (hpts.trans (commitEntry_version hne))
      rw [← heq]
      exact he
  · rw [htarget] at hmessage
    cases hmessage

/-- The mutation of a message that is not stored is put aside. -/
theorem Sound.put (h : Sound log w) (hnone : w.actor.task.entries = [])
    (hsettled : ∀ S, Settled log w.standing S) (hc : FromLog log c) {S eventId : Nat}
    (htarget : mutationTarget c = some S) (heventId : c.eventId = some eventId)
    (hmissing : w.actor.store.view S = none) (hcaller : CallerSound log caller) :
    Sound log
      { actor :=
          { w.actor with
            pendingMutations := putPendingTimelineMutation w.actor.pendingMutations
              { channelId := c.channelId
                channelType := c.channelType
                targetServerMessageId := S
                eventId := eventId
                pts := c.pts
                canonicalEvent := c.canonicalEvent } }.goto caller.behindCommit.task
        arrived := commitEvent codec c :: w.arrived
        told := w.told } := by
  obtain ⟨c', hc', hevent, hheld⟩ := hc.held htarget heventId
  have hcore := h.core
  rw [hnone] at hcore
  have hchange : (commitEvent codec c).change.target = some S :=
    (target_commitChange codec c).trans htarget
  refine { core := ?_, task := ?_ }
  · have hput := hcore.put hc' hheld
    rw [hevent] at hput
    dsimp only [SyncActor.goto]
    rw [entries_callerTask]
    exact hput
  · exact hcaller.behindCommit.task
      (settled_put hsettled rfl hchange rfl hmissing (hcore.mem_put hc' hheld))

/-- One turn of the loop over the commits, and of a push. -/
theorem Sound.takeCommit (h : Sound log w) (hnone : w.actor.task.entries = [])
    (hsettled : ∀ S, Settled log w.standing S) (hc : FromLog log c)
    (hcaller : CallerSound log caller) (now : Int) :
    Sound log
      { actor := w.actor.takeCommit codec (.calm now) t.scope c caller
        arrived := commitEvent codec c :: w.arrived
        told := w.told } := by
  have hcore := h.core
  rw [hnone] at hcore
  obtain ⟨hid, htype⟩ := hc.channel
  have hsingle := opened_single hcore.queue (.commit c caller) (commitEntry codec t c)
  have hlookup : ∀ S, (getMessageIdByServerMessageId c.channelId c.channelType S
      (Faults.calm now).env w.actor.store).1 =
        .ok ((w.actor.store.byServerId S).map (fun r => r.id)) := by
    intro S
    have hfound := getMessageId_ofChannel hcore.store S now
    rw [hid, htype]
    exact congrArg Prod.fst hfound
  unfold SyncActor.takeCommit SyncActor.deferCanonicalMutationIfTargetMissing
  cases htarget : mutationTarget c with
  | none =>
      dsimp only
      rcases hsingle with ⟨hkey, hopened⟩ | ⟨-, hopened⟩
      · exact h.takeMessage hnone hsettled hc htarget hcaller hopened (Or.inr ⟨rfl, hkey⟩)
      · exact h.takeMessage hnone hsettled hc htarget hcaller hopened (Or.inl rfl)
  | some S =>
      dsimp only
      rw [hlookup S]
      cases hrow : w.actor.store.byServerId S with
      | some row =>
          have hstored : w.actor.store.view S ≠ none := by
            rw [Store.view_of_row hrow]
            exact Option.some_ne_none _
          dsimp only [Option.map_some]
          rcases hsingle with ⟨hkey, hopened⟩ | ⟨-, hopened⟩
          · exact h.takeMutation hnone hsettled hc htarget hstored hcaller hopened
              (Or.inr ⟨rfl, hkey⟩)
          · exact h.takeMutation hnone hsettled hc htarget hstored hcaller hopened
              (Or.inl rfl)
      | none =>
          dsimp only [Option.map_none]
          cases heventId : c.eventId with
          | none =>
              exact absurd heventId (hc.eventId_ne_none htarget)
          | some eventId =>
              exact h.put hnone hsettled hc htarget heventId (Store.view_eq_none_iff.mpr hrow)
                hcaller

end Commits

section Turns

variable {codec : Codec} {t : Timeline} {log : EventLog codec t} {w : Reception}
variable {currentUid : Option Nat} {a a' : SyncActor}
variable {batch : SyncBatch ItemPayload} {item : SyncEntityItem ItemPayload}
variable {items : List (SyncEntityItem ItemPayload)} {batches : List OpenBatch}
variable {after : AfterApply} {now : Int} {s' : Store} {y : Entry ItemPayload}
variable {rest : List (Entry ItemPayload)}

/-- The entry that a drain has come to. -/
def turnEntry (batch : SyncBatch ItemPayload) (item : SyncEntityItem ItemPayload) :
    Entry ItemPayload where
  entityType := batch.entityType
  scope := batch.scope
  item := item

/-- An entry was applied without an error. -/
structure Turned (a a' : SyncActor) (batches : List OpenBatch) (after : AfterApply)
    (s' : Store) : Prop where
  store : a'.store = s'
  pending : a'.pendingMutations = a.pendingMutations
  pipeline : a'.receivePipeline = a.receivePipeline
  task : a'.task = .apply batches after

theorem turned_applyItem
    (hrun : applyEntry codec currentUid (turnEntry batch item) (.calm now) a.store =
      (.ok .unit, s')) :
    Turned a (a.applyItem codec currentUid (.calm now) batch item items batches after)
      ((batch, items) :: batches) after s' := by
  have happlied : applySyncEntity codec currentUid batch.entityType batch.scope item
      (Faults.calm now).env a.store = (.ok .unit, s') := hrun
  unfold SyncActor.applyItem
  rw [happlied]
  exact { store := rfl, pending := rfl, pipeline := rfl, task := rfl }

/-- What an entry makes of the store is what follows it. -/
theorem Sound.turned (hturned : Turned w.actor a' batches after s')
    (hcore : Core log { w.standing with store := s' } w.actor.receivePipeline
      (openEntries batches))
    (hafter : AfterSound log { w.standing with store := s' } w.actor.receivePipeline
      (openEntries batches) after) : Sound log { w with actor := a' } := by
  have hstanding : Reception.standing { w with actor := a' } =
      { w.standing with store := s' } := by
    unfold Reception.standing
    rw [hturned.store, hturned.pending]
  refine { core := ?_, task := ?_ }
  · rw [hstanding]
    dsimp only
    rw [hturned.task, hturned.pipeline]
    exact hcore
  · rw [hstanding]
    dsimp only
    rw [hturned.task, hturned.pipeline]
    exact hafter

/-- The entry of a message is applied. -/
theorem Core.upserted {x : Standing} {p : ReceivePipeline ItemPayload}
    (hcore : Core log x p (y :: rest)) {input : UpsertRemoteMessageInput}
    (hcarries : Carries log y input.serverMessageId)
    (hchannel : input.channelId = t.channelId ∧ input.channelType = t.channelType)
    (hfits : UpsertFits x log currentUid input x.told) (now : Int) :
    Core log { x with store := x.store.afterUpsert currentUid (.calm now) input } p
      rest := by
  have hviews := fun (T : Nat) hT =>
    view_afterUpsert_ne_none hcore.store hfits.pos hfits.own now (T := T) hT
  refine (hcore.restored (hcore.store.afterUpsert hfits.pos hfits.own hchannel now)
    (fun T hT => hviews T (Or.inr hT))).behind ?_
  intro _ T hid
  have heq : T = input.serverMessageId := toString_nat_inj (hid.symm.trans hcarries.id)
  exact hviews T (Or.inl heq)

/-- An upsert that converges does no harm. -/
theorem UpsertFits.of_converges {x : Standing} {input : UpsertRemoteMessageInput}
    {replayed : Bool} (hx : x.pending = w.actor.pendingMutations)
    (harrived : ∀ e : LogEvent, e.change.target ≠ none →
      (e ∈ x.arrived ↔ e ∈ w.arrived))
    (h : w.UpsertConverges currentUid replayed x.store input)
    (hpos : 0 < input.serverMessageId) (htells : Tells log.logged input)
    {told' : List Nat} (htold : ∀ n ∈ x.told, n ∈ told')
    (hsaid : input.revoked = true → input.serverMessageId ∈ told') :
    UpsertFits x log currentUid input told' ∧
      (replayed = false → x.store.byServerId input.serverMessageId = none →
        ∀ m ∈ x.pending, m.targetServerMessageId ≠ input.serverMessageId) := by
  refine ⟨⟨hpos, h.own, htells, htold, hsaid, ?_⟩, ?_⟩
  · rintro row hrow ⟨e, he, hchange⟩
    refine h.revoked row hrow ⟨e, (harrived e ?_).mp he, hchange⟩
    rw [hchange]
    exact Option.some_ne_none _
  · intro hreplayed hnone m hm
    rw [hx] at hm
    exact h.pending hreplayed hnone m hm

/-- The entry of a commit that posts a message is applied. -/
theorem Sound.applyMessage {c : ServerCommit} {caller : Caller}
    (hcore : Core log w.standing w.actor.receivePipeline
      (turnEntry batch item :: openEntries ((batch, items) :: batches)))
    (hafter : AfterSound log w.standing w.actor.receivePipeline
      (turnEntry batch item :: openEntries ((batch, items) :: batches))
      (.commit c caller))
    (htarget : mutationTarget c = none)
    (hconverges : Reception.ItemConverges currentUid codec w true now batch.scope item) :
    Sound log
      { w with
        actor := w.actor.applyItem codec currentUid (.calm now) batch item items batches
          (.commit c caller) } := by
  obtain ⟨hcaller, hc, hsound, hfresh⟩ := hafter
  unfold CommitSound at hsound
  rw [htarget] at hsound
  rcases hsound with ⟨hone, hsettled⟩ | ⟨hempty, -⟩
  · obtain ⟨hy, hrest⟩ := List.cons.inj hone
    have hcarries : Carries log (turnEntry batch item) c.serverMsgId := by
      rw [hy]
      exact carries_commitEntry hc htarget
    obtain ⟨input, haction, hid, hpos, hchannel, hlive, htells⟩ := hcarries.upsert now
    rw [← hid] at hpos hcarries
    have hrun := applyEntry_upsert hcarries.type haction hpos currentUid w.actor.store
    have hfits := (UpsertFits.of_converges (x := w.standing) rfl (fun _ _ => Iff.rfl)
      (hconverges input haction) hpos htells (fun _ hn => hn) (by
        rw [hlive]
        exact fun hfalse => absurd hfalse Bool.false_ne_true)).1
    refine Sound.turned (turned_applyItem hrun) (hcore.upserted hcarries hchannel hfits now)
      ⟨hcaller, hc, ?_, hfresh⟩
    unfold CommitSound
    rw [htarget]
    have hone' := oneReplaying_afterUpsert hcore hsettled hfits now
    rw [hid] at hone'
    exact Or.inr ⟨hrest, hone'⟩
  · cases hempty

/-- The entry of a plain push is applied. -/
theorem Sound.applyPush
    (hcore : Core log w.standing w.actor.receivePipeline
      (turnEntry batch item :: openEntries ((batch, items) :: batches)))
    (hafter : AfterSound log w.standing w.actor.receivePipeline
      (turnEntry batch item :: openEntries ((batch, items) :: batches)) .pushes)
    (hconverges : Reception.ItemConverges currentUid codec w false now batch.scope item) :
    Sound log
      { w with
        actor := w.actor.applyItem codec currentUid (.calm now) batch item items batches
          .pushes } := by
  obtain ⟨hcarried, hsettled⟩ := hafter
  obtain ⟨S, hcarries⟩ := hcarried _ List.mem_cons_self
  obtain ⟨input, haction, rfl, hpos, hchannel, hlive, htells⟩ := hcarries.upsert now
  have hrun := applyEntry_upsert hcarries.type haction hpos currentUid w.actor.store
  obtain ⟨hfits, hpending⟩ := UpsertFits.of_converges (x := w.standing) rfl
    (fun _ _ => Iff.rfl) (hconverges input haction) hpos htells (fun _ hn => hn) (by
      rw [hlive]
      exact fun hfalse => absurd hfalse Bool.false_ne_true)
  refine Sound.turned (turned_applyItem hrun) (hcore.upserted hcarries hchannel hfits now)
    ⟨fun z hz => hcarried z (List.mem_cons_of_mem _ hz), ?_⟩
  exact settled_afterUpsert hcore hsettled hfits (hpending rfl) now

/-- The entry of a mutation is applied to its message. -/
theorem Core.mutated
    (currentUid : Option Nat) {x : Standing} {p : ReceivePipeline ItemPayload}
    (hcore : Core log x p (y :: rest)) {c : ServerCommit} {S : Nat} (hc : FromLog log c)
    (htarget : mutationTarget c = some S) (hy : y = commitEntry codec t c)
    (hstored : x.store.view S ≠ none) (now : Int) :
    ∃ s', applyEntry codec currentUid y (.calm now) x.store = (.ok .unit, s') ∧
      Core log { x with store := s' } p rest ∧
      s'.view S = (x.store.view S).map (commitChange codec c).act ∧
      ∀ T, T ≠ S → s'.view T = x.store.view T := by
  obtain ⟨c', hc', -, hcanonical, -⟩ := hc.logged
  obtain ⟨row, hrow⟩ : ∃ row, x.store.byServerId S = some row := by
    rw [← Option.ne_none_iff_exists']
    exact fun hnone => hstored (Store.view_eq_none_iff.mpr hnone)
  cases hevent : c.canonicalEvent with
  | none =>
      unfold mutationTarget at htarget
      rw [hevent] at htarget
      cases htarget
  | some event =>
      have hfits : EventFits event := log.fits c' hc' event (hcanonical.symm.trans hevent)
      obtain ⟨s', hrun, hstore, hview, hothers⟩ := applyEntry_mutation codec currentUid
        hevent hfits htarget hc.known hc.channel hcore.store hrow now
      refine ⟨s', hy ▸ hrun, ?_, hview, hothers⟩
      refine (hcore.restored hstore (fun T hT => ?_)).behind ?_
      · by_cases hne : T = S
        · subst hne
          rw [hview]
          exact fun hnone => hT (Option.map_eq_none_iff.mp hnone)
        · rw [hothers T hne]
          exact hT
      · intro hmessage
        rw [hy] at hmessage
        exact absurd hmessage (not_isMessage_of_target htarget)

/-- The entry of a mutation that has come is applied. -/
theorem Sound.applyMutation {c : ServerCommit} {caller : Caller} {S : Nat}
    (hcore : Core log w.standing w.actor.receivePipeline
      (turnEntry batch item :: openEntries ((batch, items) :: batches)))
    (hafter : AfterSound log w.standing w.actor.receivePipeline
      (turnEntry batch item :: openEntries ((batch, items) :: batches))
      (.commit c caller))
    (htarget : mutationTarget c = some S)
    (hconverges : Reception.ReactionConverges codec w c) :
    Sound log
      { w with
        actor := w.actor.applyItem codec currentUid (.calm now) batch item items batches
          (.commit c caller) } := by
  obtain ⟨hcaller, hc, hsound, -⟩ := hafter
  unfold CommitSound at hsound
  rw [htarget] at hsound
  rcases hsound with ⟨hone, hstored, old, hold, hsettled⟩ | ⟨hempty, -⟩
  · obtain ⟨hy, hrest⟩ := List.cons.inj hone
    obtain ⟨s', hrun, hcore', hview, hothers⟩ :=
      hcore.mutated currentUid hc htarget hy hstored now
    refine Sound.turned (turned_applyItem hrun) hcore' ⟨hcaller, hc, ?_, fun hnone => ?_⟩
    · unfold CommitSound
      rw [htarget]
      refine Or.inr ⟨hrest, settled_mutation hold hsettled
        ((target_commitChange codec c).trans htarget) hstored hview hothers ?_⟩
      exact fun actorId emoji remove hchange => hconverges S actorId emoji remove hchange
    · rw [htarget] at hnone
      cases hnone
  · cases hempty

/-- A pending mutation is replayed. -/
theorem Sound.applyReplay {m : PendingTimelineMutation}
    {ms : List PendingTimelineMutation} {caller : Caller}
    (hcore : Core log w.standing w.actor.receivePipeline
      (turnEntry batch item :: openEntries ((batch, items) :: batches)))
    (hafter : AfterSound log w.standing w.actor.receivePipeline
      (turnEntry batch item :: openEntries ((batch, items) :: batches))
      (.mutation m ms caller)) :
    Sound log
      { w with
        actor := w.actor.applyItem codec currentUid (.calm now) batch item items batches
          (.mutation m ms caller) } := by
  obtain ⟨hcaller, hfresh, ⟨⟨event, hevent, hone⟩, hreplaying⟩ | ⟨hempty, -⟩⟩ := hafter
  · obtain ⟨hy, hrest⟩ := List.cons.inj hone
    have hpending := ((hreplaying.1.pending m).mp List.mem_cons_self).1
    obtain ⟨c, hc, hheld, harrived⟩ := hcore.pending m hpending
    obtain ⟨hfrom, hsame, htarget⟩ := fromLog_replay hheld hc hevent
    have hstored : w.standing.store.view m.targetServerMessageId ≠ none := by
      obtain ⟨done, v, hdone⟩ := hreplaying.1.shown
      rw [hdone.view]
      exact Option.some_ne_none v
    obtain ⟨s', hrun, hcore', hview, hothers⟩ :=
      hcore.mutated currentUid hfrom htarget hy hstored now
    refine Sound.turned (turned_applyItem hrun) hcore' ⟨hcaller, hfresh, Or.inr ⟨hrest, ?_⟩⟩
    refine hreplaying.act hcore harrived ?_ hheld.pts.symm ?_ hothers
    · exact (target_commitChange codec c).trans hheld.target
    · rw [← hsame]
      exact hview
  · cases hempty

end Turns

section Ends

variable {codec : Codec} {t : Timeline} {log : EventLog codec t} {w : Reception}
variable {now : Int}

/-- What follows a drain. -/
theorem Sound.finishApply {after : AfterApply} (h : Sound log w)
    (htask : w.actor.task = .apply [] after) :
    Sound log { w with actor := w.actor.finishApply codec (.calm now) after } := by
  have hnone : w.actor.task.entries = [] := by rw [htask]; rfl
  have hcore := h.core
  rw [hnone] at hcore
  have hafter := h.task
  rw [htask] at hafter
  change AfterSound log w.standing w.actor.receivePipeline [] after at hafter
  cases after with
  | commit c caller =>
      obtain ⟨hcaller, hc, hsound, hfresh⟩ := hafter
      unfold CommitSound at hsound
      cases htarget : mutationTarget c with
      | none =>
          rw [htarget] at hsound
          have hone := hsound.resolve_left (fun hopen => by cases hopen.1)
          have hmessage : itemType (codec.syncItemFromDifferenceCommit c) = "message" ∧
              (itemEntity (codec.syncItemFromDifferenceCommit c)).deleted = false := by
            obtain ⟨messageType, contentAndExtra, hitem, -⟩ :=
              commitEntry_post (t := t) (hc.isMessage htarget) htarget
            refine ⟨hc.isMessage htarget, ?_⟩
            change (commitEntry codec t c).item.deleted = false
            rw [hitem]
            rfl
          unfold SyncActor.finishApply
          dsimp only
          rw [if_pos hmessage, if_neg (by exact Bool.false_ne_true)]
          obtain ⟨hid, htype⟩ := hc.channel
          have hlist : listPendingTimelineMutations w.actor.pendingMutations
              { channelId := c.channelId, channelType := c.channelType } c.serverMsgId =
                listPendingTimelineMutations w.actor.pendingMutations t c.serverMsgId := by
            rw [hid, htype]
          rw [hlist]
          exact h.goto hnone
            ⟨hcaller.behindCommit, hfresh htarget, c.serverMsgId, hone.2⟩ rfl
      | some S =>
          rw [htarget] at hsound
          have hsettled := hsound.resolve_left (fun hopen => by cases hopen.1)
          unfold SyncActor.finishApply
          dsimp only
          rw [if_neg (fun hmessage => not_isMessage_of_target htarget hmessage.1)]
          exact h.goto hnone (hcaller.behindCommit.task hsettled.2) (entries_callerTask _)
  | mutation m ms caller =>
      obtain ⟨hcaller, hfresh, hopen | ⟨-, hreplaying⟩⟩ := hafter
      · obtain ⟨⟨event, -, hone⟩, -⟩ := hopen
        cases hone
      · have hdeleted := hreplaying.delete hcore
        refine { core := ?_, task := ⟨hcaller, hfresh, _, hdeleted⟩ }
        exact
          { hcore with
            pending := fun m' hm' => hcore.pending m' (List.mem_filter.mp hm').1
            nodup := hcore.nodup.filter _
            remembered :=
              { message := hcore.remembered.message
                mutation := hcore.remembered.mutation } }
  | pushes =>
      exact h.goto hnone hafter.2 rfl

/-- One turn of the replay. -/
theorem Sound.replayMutation {m : PendingTimelineMutation}
    {ms : List PendingTimelineMutation} {caller : Caller} (h : Sound log w)
    (htask : w.actor.task = .replay (m :: ms) caller) :
    Sound log { w with actor := w.actor.replayMutation codec m ms caller } := by
  have hnone : w.actor.task.entries = [] := by rw [htask]; rfl
  have hcore := h.core
  rw [hnone] at hcore
  have hsound := h.task
  rw [htask] at hsound
  obtain ⟨hcaller, hfresh, S, hreplaying⟩ := hsound
  obtain ⟨hpending, rfl⟩ := (hreplaying.1.pending m).mp List.mem_cons_self
  obtain ⟨c, hc, hheld, harrived⟩ := hcore.pending m hpending
  have hchange : (commitEvent codec c).change.target = some m.targetServerMessageId :=
    (target_commitChange codec c).trans hheld.target
  have hstored : w.standing.store.view m.targetServerMessageId ≠ none := by
    obtain ⟨done, v, hdone⟩ := hreplaying.1.shown
    rw [hdone.view]
    exact Option.some_ne_none v
  cases hevent : m.canonicalEvent with
  | none =>
      have htarget := hheld.target
      unfold mutationTarget at htarget
      rw [← hheld.event, hevent] at htarget
      cases htarget
  | some event =>
      obtain ⟨hfrom, hsame, htarget⟩ := fromLog_replay hheld hc hevent
      have hne : ¬ IsMessage codec (replayCommit m event) := not_isMessage_of_target htarget
      have hversion : (commitEntry codec t (replayCommit m event)).item.version = m.pts :=
        commitEntry_version hne
      have hscope : m.timeline.scope = t.scope := by
        unfold PendingTimelineMutation.timeline Timeline.scope
        rw [hheld.channel.1, hheld.channel.2]
      unfold SyncActor.replayMutation
      rw [hevent, hscope]
      dsimp only
      rcases opened_single hcore.queue (.mutation m ms caller)
        (commitEntry codec t (replayCommit m event)) with ⟨hkey, -⟩ | ⟨-, hopened⟩
      · exact absurd hversion (hfresh _ (plain_commitEntry codec t _) hkey hne m
          List.mem_cons_self)
      · have hplain := plain_commitEntry codec t (replayCommit m event)
        refine Sound.opened hopened (hcore.opened (fun _ he => he) hcore.arrived
          (fun e he hcame => absurd he hcame) hopened.queue hopened.keys ?_ ?_)
          ⟨hcaller, ?_, Or.inl ⟨⟨event, hevent, rfl⟩, hreplaying⟩⟩
        · intro y hy
          rw [List.mem_singleton.mp hy]
          exact hplain
        · intro y hy _
          rw [List.mem_singleton.mp hy, hversion]
          exact ⟨_, harrived, hheld.pts.symm, _, hchange, hstored⟩
        · intro y hy hkey htype m' hm' heq
          rcases hopened.keys _ hkey with hold | ⟨z, hz, hkey'⟩
          · exact hfresh y hy hold htype m' (List.mem_cons_of_mem _ hm') heq
          · rw [List.mem_singleton] at hz
            subst hz
            obtain ⟨-, -, -, hversion'⟩ := hplain.same_of_key hy hkey'
            have hmem := ((hreplaying.1.pending m').mp (List.mem_cons_of_mem _ hm')).1
            have hpts : m'.pts = m.pts := by rw [← heq, ← hversion', hversion]
            have hsame' := hcore.pending_of_pts hpending hmem hpts
            exact (List.nodup_cons.mp hreplaying.1.nodup).1 (hsame' ▸ hm')

end Ends

end Difference
end PrivchatSdk
