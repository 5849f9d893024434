import PrivchatSdk.TimelineConvergence

/-!
# What settles a message

An upsert stores a message and leaves its pending mutations to be replayed; a mutation
that is applied, in the order of the log or in the replay, becomes part of what the
message shows; and with nothing left to replay the message is settled.
-/

namespace PrivchatSdk
namespace Difference

open StatementExec RelTable Receive StampedWrites

section Settling

variable {codec : Codec} {t : Timeline} {log : EventLog codec t}
variable {x x' : Standing} {S : Nat}

/-- A message of which nothing changes stays settled. -/
theorem Settled.congr (h : Settled log x S) (hview : x'.store.view S = x.store.view S)
    (htold : ∀ n ∈ x.told, n ∈ x'.told)
    (harrived : ∀ e : LogEvent, e.change.target = some S →
      (e ∈ x.arrived ↔ e ∈ x'.arrived))
    (hpending : ∀ m : PendingTimelineMutation, m.targetServerMessageId = S →
      (m ∈ x.pending ↔ m ∈ x'.pending)) : Settled log x' S where
  missing hnone e he hS := by
    obtain ⟨m, hm, htarget, hpts⟩ :=
      h.missing (hview.symm.trans hnone) e ((harrived e hS).mpr he) hS
    exact ⟨m, (hpending m htarget).mp hm, htarget, hpts⟩
  shown v hv := ((h.shown v (hview.symm.trans hv)).congr harrived).told_mono htold
  replayed v hv m hm htarget :=
    h.replayed v (hview.symm.trans hv) m ((hpending m htarget).mpr hm) htarget

/-- With nothing left to replay the message is settled. -/
theorem Replaying.settled (h : Replaying log x S [] []) : Settled log x S := by
  obtain ⟨done, v, hdone⟩ := h.shown
  have hsame : ∀ e : LogEvent, e.change.target = some S → (e ∈ done ↔ e ∈ x.arrived) := by
    intro e hS
    refine ⟨fun he => hdone.arrived e he hS, fun he => ?_⟩
    refine (hdone.split e he hS).resolve_right ?_
    rintro ⟨m, hm, -⟩
    exact absurd hm List.not_mem_nil
  refine { missing := fun hnone => ?_, shown := fun v' hv' => ?_, replayed := ?_ }
  · rw [hdone.view] at hnone
    cases hnone
  · rw [hdone.view] at hv'
    cases hv'
    exact hdone.shows.congr hsame
  · intro v' _ m hm htarget
    exact absurd ((h.pending m).mpr ⟨hm, htarget⟩) List.not_mem_nil

theorem OneReplaying.settled (h : OneReplaying log x S [] []) (T : Nat) :
    Settled log x T := by
  by_cases hT : T = S
  · subst hT
    exact h.1.settled
  · exact h.2 T hT

variable {p : ReceivePipeline ItemPayload} {entries : List (Entry ItemPayload)}

theorem Core.mem_listPending (h : Core log x p entries) {m : PendingTimelineMutation} :
    m ∈ listPendingTimelineMutations x.pending t S ↔
      m ∈ x.pending ∧ m.targetServerMessageId = S := by
  unfold listPendingTimelineMutations
  rw [List.mem_insertionSort, List.mem_filter]
  refine and_congr_right (fun hm => ?_)
  obtain ⟨c, -, hheld, -⟩ := h.pending m hm
  obtain ⟨hid, htype⟩ := hheld.channel
  simp [hid, htype]

theorem Core.listPending_nodup (h : Core log x p entries) :
    (listPendingTimelineMutations x.pending t S).Nodup :=
  (List.perm_insertionSort _ _).nodup_iff.mpr (h.nodup.filter _)

instance instTotalReplayedBefore : Std.Total replayedBefore where
  total m m' := by
    unfold replayedBefore
    omega

instance instIsTransReplayedBefore : IsTrans PendingTimelineMutation replayedBefore where
  trans m m' m'' h h' := by
    unfold replayedBefore at h h' ⊢
    omega

theorem listPending_sorted (pending : List PendingTimelineMutation) :
    (listPendingTimelineMutations pending t S).Pairwise replayedBefore :=
  List.pairwise_insertionSort _ _

/-- A settled message that is stored has nothing pending. -/
theorem Settled.listPending_eq_nil (h : Settled log x S) (hcore : Core log x p entries)
    (hstored : x.store.view S ≠ none) :
    listPendingTimelineMutations x.pending t S = [] := by
  obtain ⟨v, hv⟩ := Option.ne_none_iff_exists'.mp hstored
  rw [List.eq_nil_iff_forall_not_mem]
  intro m hm
  obtain ⟨hpending, htarget⟩ := hcore.mem_listPending.mp hm
  exact h.replayed v hv m hpending htarget

/-- The pending mutation of an event that has come. -/
theorem Core.event_of_pending (h : Core log x p entries) {m : PendingTimelineMutation}
    (hm : m ∈ x.pending) :
    ∃ e ∈ x.arrived, e.pts = m.pts ∧ e.change.target = some m.targetServerMessageId := by
  obtain ⟨c, -, hheld, harrived⟩ := h.pending m hm
  refine ⟨_, harrived, hheld.pts.symm, ?_⟩
  exact (target_commitChange codec c).trans hheld.target

/-- The events of a message that is stored with all of them pending are replayed. -/
theorem Replaying.start (h : Settled log x S) (hcore : Core log x p entries)
    (hnone : x.store.view S = none) {s' : Store} {told' : List Nat} {v : MessageView}
    (hview : s'.view S = some v) (hshows : Shows log.logged told' [] S v) :
    Replaying log { x with store := s', told := told' } S
      (listPendingTimelineMutations x.pending t S)
      (listPendingTimelineMutations x.pending t S) where
  shown := by
    refine ⟨[], v, ?_⟩
    refine
      { view := hview
        shows := hshows
        split := fun e he hS => ?_
        arrived := fun e he => absurd he List.not_mem_nil
        earlier := fun e he => absurd he List.not_mem_nil }
    obtain ⟨m, hm, htarget, hpts⟩ := h.missing hnone e he hS
    exact Or.inr ⟨m, hcore.mem_listPending.mpr ⟨hm, htarget⟩, hpts⟩
  pending _ := hcore.mem_listPending
  sorted := listPending_sorted x.pending
  nodup := hcore.listPending_nodup

/-- A message that was stored before shows what it showed, or what it was told anew. -/
theorem Replaying.again (h : Settled log x S) (hcore : Core log x p entries)
    (hstored : x.store.view S ≠ none) {s' : Store} {told' : List Nat} {v : MessageView}
    (hview : s'.view S = some v) (hshows : Shows log.logged told' x.arrived S v) :
    Replaying log { x with store := s', told := told' } S
      (listPendingTimelineMutations x.pending t S)
      (listPendingTimelineMutations x.pending t S) where
  shown := by
    refine ⟨x.arrived, v, ?_⟩
    refine
      { view := hview
        shows := hshows
        split := fun e he _ => Or.inl he
        arrived := fun e he _ => he
        earlier := fun e _ _ m hm => ?_ }
    rw [h.listPending_eq_nil hcore hstored] at hm
    exact absurd hm List.not_mem_nil
  pending _ := hcore.mem_listPending
  sorted := listPending_sorted x.pending
  nodup := hcore.listPending_nodup

end Settling

section Upserts

variable {codec : Codec} {t : Timeline} {log : EventLog codec t}
variable {x : Standing} {p : ReceivePipeline ItemPayload}
variable {entries : List (Entry ItemPayload)} {currentUid : Option Nat}
variable {input : UpsertRemoteMessageInput} {now : Int} {told' : List Nat}

/-- No upsert takes a message away, and it stores its own. -/
theorem view_afterUpsert_ne_none {s : Store}
    (hstore : s.OfChannel t.channelId t.channelType) (hpos : 0 < input.serverMessageId)
    (hown : OwnRow currentUid s input) (now : Int) {T : Nat}
    (h : T = input.serverMessageId ∨ s.view T ≠ none) :
    (s.afterUpsert currentUid (.calm now) input).view T ≠ none := by
  by_cases hT : T = input.serverMessageId
  · subst hT
    cases upsertedView hstore hpos hown now with
    | stale row hrow hstale hsame =>
        rw [hsame, Store.view_of_row hrow]
        exact Option.some_ne_none _
    | overwritten row hrow hfresh hview =>
        rw [hview, Store.view_of_row hrow]
        exact Option.some_ne_none _
    | inserted hnone hview =>
        rw [hview]
        exact Option.some_ne_none _
  · rw [view_afterUpsert_of_ne hpos hown now hT]
    exact h.resolve_left hT

/-- What an upsert needs to do no harm, but for the pending mutations. -/
structure UpsertFits (x : Standing) (log : EventLog codec t) (currentUid : Option Nat)
    (input : UpsertRemoteMessageInput) (told' : List Nat) : Prop where
  pos : 0 < input.serverMessageId
  own : OwnRow currentUid x.store input
  tells : Tells log.logged input
  told : ∀ n ∈ x.told, n ∈ told'
  toldRevoked : input.revoked = true → input.serverMessageId ∈ told'
  revoked : ∀ row, x.store.byServerId input.serverMessageId = some row →
    (∃ e ∈ x.arrived, e.change = .revoke input.serverMessageId) →
    input.stale row = true ∨ (input.messageType, input.content) = placeholder

/-- After an upsert the pending mutations of its message are to be replayed. -/
theorem oneReplaying_afterUpsert (hcore : Core log x p entries)
    (hsettled : ∀ T, Settled log x T) (h : UpsertFits x log currentUid input told')
    (now : Int) :
    let pending := listPendingTimelineMutations x.pending t input.serverMessageId
    OneReplaying log
      { x with
        store := x.store.afterUpsert currentUid (.calm now) input
        told := told' } input.serverMessageId pending pending := by
  have hS := hsettled input.serverMessageId
  refine ⟨?_, fun T hT => ?_⟩
  · cases upsertedView hcore.store h.pos h.own now with
    | stale row hrow hstale hsame =>
        have hview := Store.view_of_row hrow
        refine Replaying.again hS hcore (hview ▸ Option.some_ne_none _)
          (by rw [hsame, hview]) ?_
        exact (hS.shown _ hview).told_mono h.told
    | overwritten row hrow hfresh hview =>
        have hold := Store.view_of_row hrow
        rw [hold, Option.map_some] at hview
        refine Replaying.again hS hcore (hold ▸ Option.some_ne_none _) hview ?_
        refine ((hS.shown _ hold).told_mono h.told).overwrite h.tells h.toldRevoked ?_
        intro hrevoke
        refine (h.revoked row hrow hrevoke).resolve_left ?_
        rw [hfresh]
        exact Bool.false_ne_true
    | inserted hnone hview =>
        exact Replaying.start hS hcore hnone hview (shows_view h.tells h.toldRevoked)
  · refine (hsettled T).congr (view_afterUpsert_of_ne h.pos h.own now hT) h.told ?_ ?_
    · exact fun _ _ => Iff.rfl
    · exact fun _ _ => Iff.rfl

/-- Without pending mutations an upsert keeps all messages settled. -/
theorem settled_afterUpsert (hcore : Core log x p entries)
    (hsettled : ∀ T, Settled log x T) (h : UpsertFits x log currentUid input told')
    (hpending : x.store.byServerId input.serverMessageId = none →
      ∀ m ∈ x.pending, m.targetServerMessageId ≠ input.serverMessageId)
    (now : Int) (T : Nat) :
    Settled log
      { x with
        store := x.store.afterUpsert currentUid (.calm now) input
        told := told' } T := by
  have hnone : listPendingTimelineMutations x.pending t input.serverMessageId = [] := by
    by_cases hstored : x.store.byServerId input.serverMessageId = none
    · rw [List.eq_nil_iff_forall_not_mem]
      intro m hm
      obtain ⟨hmem, htarget⟩ := hcore.mem_listPending.mp hm
      exact hpending hstored m hmem htarget
    · refine (hsettled input.serverMessageId).listPending_eq_nil hcore ?_
      exact fun hview => hstored (Store.view_eq_none_iff.mp hview)
  have hone := oneReplaying_afterUpsert hcore hsettled h now
  rw [hnone] at hone
  exact hone.settled T

end Upserts

section Mutations

variable {codec : Codec} {t : Timeline} {log : EventLog codec t}
variable {x : Standing} {p : ReceivePipeline ItemPayload}
variable {entries : List (Entry ItemPayload)} {c : ServerCommit} {S : Nat} {s' : Store}

/-- A mutation is applied of which a reaction is the latest of its kind. -/
theorem Shows.act {told : List Nat} {events : List LogEvent} {v : MessageView}
    {e : LogEvent} (h : Shows log.logged told events S v) (hS : e.change.target = some S)
    (hlatest : ∀ actorId emoji remove, e.change = .react S actorId emoji remove →
      Latest (reactions S (e :: events)) false (actorId, emoji) (!remove)) :
    Shows log.logged told (e :: events) S (e.change.act v) := by
  cases hchange : e.change with
  | post serverMessageId shown =>
      rw [hchange] at hS
      cases hS
  | revoke target =>
      rw [hchange] at hS
      cases hS
      exact h.revoke hchange
  | react target actorId emoji remove =>
      rw [hchange] at hS
      cases hS
      exact h.react hchange (hlatest actorId emoji remove hchange)

/-- A mutation of a stored message that has come is applied. -/
theorem settled_mutation {old : List LogEvent} {e : LogEvent}
    (hx : x.arrived = e :: old)
    (hsettled : ∀ T, Settled log { x with arrived := old } T)
    (hS : e.change.target = some S) (hstored : x.store.view S ≠ none)
    (hview : s'.view S = (x.store.view S).map e.change.act)
    (hothers : ∀ T, T ≠ S → s'.view T = x.store.view T)
    (hlatest : ∀ actorId emoji remove, e.change = .react S actorId emoji remove →
      Latest (reactions S x.arrived) false (actorId, emoji) (!remove)) (T : Nat) :
    Settled log { x with store := s' } T := by
  by_cases hT : T = S
  · subst hT
    obtain ⟨v, hv⟩ := Option.ne_none_iff_exists'.mp hstored
    rw [hv, Option.map_some] at hview
    refine { missing := fun hnone => ?_, shown := fun v' hv' => ?_, replayed := ?_ }
    · rw [hview] at hnone
      cases hnone
    · rw [hview] at hv'
      cases hv'
      rw [hx] at hlatest
      have hshows := ((hsettled T).shown v hv).act hS hlatest
      rw [← hx] at hshows
      exact hshows
    · exact fun v' _ => (hsettled T).replayed v hv
  · refine (hsettled T).congr (hothers T hT) (fun _ hn => hn) (fun e' he' => ?_)
      (fun _ _ => Iff.rfl)
    change e' ∈ old ↔ e' ∈ x.arrived
    rw [hx, List.mem_cons]
    refine ⟨Or.inr, fun hmem => hmem.resolve_left ?_⟩
    rintro rfl
    rw [hS] at he'
    exact hT (Option.some.inj he').symm

variable {m : PendingTimelineMutation} {rest : List PendingTimelineMutation}

/-- The pending mutations are known by their `pts`. -/
theorem Core.pending_of_pts (hcore : Core log x p entries) {m' : PendingTimelineMutation}
    (hm : m ∈ x.pending) (hm' : m' ∈ x.pending) (hpts : m'.pts = m.pts) : m' = m := by
  obtain ⟨c, hc, hheld, -⟩ := hcore.pending m hm
  obtain ⟨c', hc', hheld', -⟩ := hcore.pending m' hm'
  exact hheld'.eq_of_pts hheld hc' hc hpts

/-- The pending mutations are known by their keys. -/
theorem Core.pending_of_key (hcore : Core log x p entries) {m' : PendingTimelineMutation}
    (hm : m ∈ x.pending) (hm' : m' ∈ x.pending) (hkey : m'.key = m.key) : m' = m := by
  obtain ⟨c, hc, hheld, -⟩ := hcore.pending m hm
  obtain ⟨c', hc', hheld', -⟩ := hcore.pending m' hm'
  exact hheld'.eq_of_key hheld hc' hc hkey

/-- A pending mutation is replayed after the earlier ones. -/
theorem OneReplaying.act (h : OneReplaying log x S (m :: rest) (m :: rest))
    (hcore : Core log x p entries) {e : LogEvent} (he : e ∈ x.arrived)
    (hS : e.change.target = some S) (hpts : e.pts = m.pts)
    (hview : s'.view S = (x.store.view S).map e.change.act)
    (hothers : ∀ T, T ≠ S → s'.view T = x.store.view T) :
    OneReplaying log { x with store := s' } S rest (m :: rest) := by
  obtain ⟨hreplaying, hsettled⟩ := h
  obtain ⟨done, v, hdone⟩ := hreplaying.shown
  obtain ⟨hfirst, hsorted⟩ := List.pairwise_cons.mp hreplaying.sorted
  have hlater : ∀ m' ∈ rest, m.pts ≤ m'.pts := by
    intro m' hm'
    have hbefore := hfirst m' hm'
    unfold replayedBefore at hbefore
    omega
  have hshows := hdone.shows.act hS (fun actorId emoji remove hchange =>
    latest_of_newest hchange (fun e' he' remove' hchange' => by
      rw [hpts]
      exact hdone.earlier e' he' (by rw [hchange']; rfl) m List.mem_cons_self))
  refine ⟨⟨⟨e :: done, e.change.act v, ?_⟩, hreplaying.pending, hsorted,
    hreplaying.nodup⟩, fun T hT => ?_⟩
  · refine
      { view := by rw [hview, hdone.view]; rfl
        shows := hshows
        split := fun e' he' hS' => ?_
        arrived := fun e' he' hS' => ?_
        earlier := fun e' he' hS' m' hm' => ?_ }
    · rcases hdone.split e' he' hS' with hmem | ⟨m', hm', hpts'⟩
      · exact Or.inl (List.mem_cons_of_mem _ hmem)
      · rcases List.mem_cons.mp hm' with rfl | hrest
        · have heq : e' = e := eq_of_pts (hcore.arrived e' he')
            (hcore.arrived e he) (by rw [← hpts', hpts])
          rw [heq]
          exact Or.inl List.mem_cons_self
        · exact Or.inr ⟨m', hrest, hpts'⟩
    · rcases List.mem_cons.mp he' with rfl | hmem
      · exact he
      · exact hdone.arrived e' hmem hS'
    · rcases List.mem_cons.mp he' with rfl | hmem
      · rw [hpts]
        exact hlater m' hm'
      · exact hdone.earlier e' hmem hS' m' (List.mem_cons_of_mem _ hm')
  · exact (hsettled T hT).congr (hothers T hT) (fun _ hn => hn) (fun _ _ => Iff.rfl)
      (fun _ _ => Iff.rfl)

/-- A mutation that was replayed is pending no more. -/
theorem OneReplaying.delete (h : OneReplaying log x S rest (m :: rest))
    (hcore : Core log x p entries) :
    OneReplaying log
      { x with pending := deletePendingTimelineMutation x.pending m } S rest rest := by
  obtain ⟨hreplaying, hsettled⟩ := h
  obtain ⟨hpending, htarget⟩ := (hreplaying.pending m).mp List.mem_cons_self
  obtain ⟨hnot, hnodup⟩ := List.nodup_cons.mp hreplaying.nodup
  have hmem : ∀ m', m' ∈ deletePendingTimelineMutation x.pending m ↔
      m' ∈ x.pending ∧ m' ≠ m := by
    intro m'
    unfold deletePendingTimelineMutation
    rw [List.mem_filter, decide_eq_true_eq]
    refine and_congr_right (fun hm' => not_congr ⟨fun hkey => ?_, fun heq => heq ▸ rfl⟩)
    exact hcore.pending_of_key hpending hm' hkey
  obtain ⟨done, v, hdone⟩ := hreplaying.shown
  refine ⟨⟨⟨done, v, ⟨hdone.view, hdone.shows, hdone.split, hdone.arrived,
    hdone.earlier⟩⟩, fun m' => ?_, hreplaying.sorted, hnodup⟩, fun T hT => ?_⟩
  · rw [hmem]
    have hheld := hreplaying.pending m'
    rw [List.mem_cons] at hheld
    constructor
    · intro hm'
      obtain ⟨hold, htarget'⟩ := hheld.mp (Or.inr hm')
      exact ⟨⟨hold, fun heq => hnot (heq ▸ hm')⟩, htarget'⟩
    · rintro ⟨⟨hold, hne⟩, htarget'⟩
      exact (hheld.mpr ⟨hold, htarget'⟩).resolve_left hne
  · refine (hsettled T hT).congr rfl (fun _ hn => hn) (fun _ _ => Iff.rfl)
      (fun m' htarget' => ?_)
    rw [hmem]
    refine ⟨fun hold => ⟨hold, ?_⟩, fun hkept => hkept.1⟩
    rintro rfl
    exact hT (htarget'.symm.trans htarget)

/-- A mutation of a message that is not stored is put aside. -/
theorem settled_put {e : LogEvent} (hsettled : ∀ T, Settled log x T)
    (hm : m.targetServerMessageId = S) (hS : e.change.target = some S)
    (hpts : m.pts = e.pts) (hnone : x.store.view S = none)
    (hmem : ∀ m', m' ∈ putPendingTimelineMutation x.pending m ↔ m' = m ∨ m' ∈ x.pending)
    (T : Nat) :
    Settled log
      { x with
        pending := putPendingTimelineMutation x.pending m
        arrived := e :: x.arrived } T := by
  by_cases hT : T = S
  · subst hT
    refine { missing := fun _ e' he' hS' => ?_, shown := fun v hv => ?_, replayed := ?_ }
    · rcases List.mem_cons.mp he' with rfl | hold
      · exact ⟨m, (hmem m).mpr (Or.inl rfl), hm, hpts⟩
      · obtain ⟨m', hm', htarget, hpts'⟩ := (hsettled T).missing hnone e' hold hS'
        exact ⟨m', (hmem m').mpr (Or.inr hm'), htarget, hpts'⟩
    · rw [hnone] at hv
      cases hv
    · intro v hv
      rw [hnone] at hv
      cases hv
  · refine (hsettled T).congr rfl (fun _ hn => hn) (fun e' he' => ?_)
      (fun m' htarget => ?_)
    · rw [List.mem_cons]
      refine ⟨Or.inr, fun hcons => hcons.resolve_left ?_⟩
      rintro rfl
      rw [hS] at he'
      exact hT (Option.some.inj he').symm
    · rw [hmem]
      refine ⟨Or.inr, fun hcons => hcons.resolve_left ?_⟩
      rintro rfl
      exact hT (htarget.symm.trans hm)

end Mutations

section Carried

variable {codec : Codec} {t : Timeline} {log : EventLog codec t}
variable {c : ServerCommit} {S : Nat}

/-- The entry of a commit that posts a message. -/
theorem commitEntry_post (h : IsMessage codec c) (htarget : mutationTarget c = none) :
    ∃ messageType contentAndExtra,
      (commitEntry codec t c).item =
        queued .message (commitMessageItem c messageType contentAndExtra) ∧
      commitChange codec c = .post c.serverMsgId (messageType, contentAndExtra.1) := by
  unfold IsMessage Codec.syncItemFromDifferenceCommit at h
  unfold commitEntry Codec.syncItemFromDifferenceCommit commitChange
  unfold mutationTarget at htarget
  cases hevent : c.canonicalEvent with
  | some event =>
      rw [hevent] at htarget
      cases event with
      | newMessage messageType legacy => exact ⟨_, _, rfl, rfl⟩
      | revoke target revokedBy revokedAt => cases htarget
      | reactionChange target actorId emoji remove => cases htarget
  | none =>
      rw [hevent] at h
      dsimp only at h ⊢
      unfold Codec.syncItemFromLegacyDifferenceCommit at h ⊢
      have hextra : "message_extra" ≠ "message" := by decide
      have hreactions : "message_reaction" ≠ "message" := by decide
      split at h
      · exact absurd h hextra
      · rename_i hrevoke
        split at h
        · exact absurd h hreactions
        · rename_i hreaction
          rw [if_neg hrevoke, if_neg hreaction]
          exact ⟨_, _, rfl, rfl⟩

/-- A message that some event of the log posts has a server id. -/
theorem serverMessageId_pos {e : LogEvent} (he : e ∈ log.logged)
    (hS : e.change.posted = some S) : 0 < S := by
  obtain ⟨c, hc, rfl⟩ := mem_logged.mp he
  have hpost : c.serverMsgId = S := (posted_commitChange hS).2
  rw [← hpost]
  exact log.serverMsgId_pos c hc

/-- The log says once what a message shows. -/
theorem tells_of_posted {input : UpsertRemoteMessageInput} {e : LogEvent}
    (he : e ∈ log.logged)
    (hchange : e.change = .post input.serverMessageId (input.messageType, input.content)) :
    Tells log.logged input where
  posted := ⟨e, he, by rw [hchange]; rfl⟩
  shown _ e' he' shown hchange' := by
    have heq : e' = e := eq_of_posted he' he (by rw [hchange']; rfl) (by rw [hchange]; rfl)
    rw [heq, hchange] at hchange'
    simp only [Change.post.injEq, true_and] at hchange'
    exact hchange'

/-- The commit of a message becomes its upsert. -/
theorem carries_commitEntry (hc : FromLog log c) (htarget : mutationTarget c = none) :
    Carries log (commitEntry codec t c) c.serverMsgId := by
  have hmessage := hc.isMessage htarget
  obtain ⟨messageType, contentAndExtra, hitem, hchange⟩ :=
    commitEntry_post (t := t) hmessage htarget
  have hposted : (commitEvent codec c).change.posted = some c.serverMsgId := by
    unfold commitEvent
    rw [hchange]
    rfl
  have hpos := serverMessageId_pos hc.mem_logged hposted
  have hknown := hc.known
  obtain ⟨hid, htype⟩ := hc.channel
  have hchannelPos : 0 < c.channelId := hid ▸ hknown.channelId_pos
  have htypeNe : t.channelType ≠ 0 := Nat.ne_of_gt hknown.channelType_pos
  refine
    { plain := ⟨commitEntry_type_bar codec t c, Or.inr rfl⟩
      type := hmessage
      id := by rw [hitem]; rfl
      upsert := fun now => ?_ }
  rw [hitem, asMessage_queued]
  have haction : codec.messageItemAction (some t.scope) now
      (commitMessageItem c messageType contentAndExtra) = .upsert _ :=
    messageItemAction_of_pos now hpos rfl hchannelPos
  refine ⟨_, haction, rfl, hpos, ⟨hid, ?_⟩, rfl, tells_of_posted hc.mem_logged hchange⟩
  simp [Codec.messageItemInput, canonicalOfItem, commitMessageItem, buildMessageSyncItem,
    fromSyncEntity, CanonicalInboundMessage.toUpsertInput, htypeNe, htype]

/-- A plain push as it enters the pipeline. -/
def pushEntry (codec : Codec) (push : PushMessageRequest) : Entry ItemPayload where
  entityType := "message"
  scope := none
  item := queued .message (codec.pushMessageToSyncItem push)

/-- A plain push becomes the upsert of its message. -/
theorem carries_pushEntry {push : PushMessageRequest} (hpush : PushTells log push) :
    Carries log (pushEntry codec push) push.serverMessageId := by
  obtain ⟨e, he, hchange⟩ := hpush.posted
  have hpos := serverMessageId_pos he (S := push.serverMessageId) (by rw [hchange]; rfl)
  obtain ⟨c, hc, -⟩ := mem_logged.mp he
  have hknown := known_of_commit hc
  obtain ⟨hid, htype⟩ := hpush.channel
  have hchannelPos : 0 < push.channelId := hid ▸ hknown.channelId_pos
  have htypeNe : t.channelType ≠ 0 := Nat.ne_of_gt hknown.channelType_pos
  refine
    { plain := ⟨by change '|' ∉ "message".toList; decide, Or.inl rfl⟩
      type := rfl
      id := rfl
      upsert := fun now => ?_ }
  change ∃ input, codec.messageItemAction none now
    (readItem ItemPayload.asMessage (queued .message (codec.pushMessageToSyncItem push))) =
      .upsert input ∧ _
  rw [asMessage_queued]
  have haction : codec.messageItemAction none now (codec.pushMessageToSyncItem push) =
      .upsert _ := messageItemAction_of_pos now hpos hpush.live hchannelPos
  refine ⟨_, haction, rfl, hpos, ⟨hid, ?_⟩, rfl, tells_of_posted he hchange⟩
  simp [Codec.messageItemInput, canonicalOfItem, Codec.pushMessageToSyncItem,
    Codec.pushCanonical, fromPush, buildMessageSyncItem,
    fromSyncEntity, CanonicalInboundMessage.toUpsertInput, htypeNe, htype]

/-- A message entry is its upsert. -/
theorem applyEntry_upsert {y : Entry ItemPayload} (htype : y.entityType = "message")
    {now : Int} {input : UpsertRemoteMessageInput}
    (haction : codec.messageItemAction y.scope now
      (readItem ItemPayload.asMessage y.item) = .upsert input)
    (hpos : 0 < input.serverMessageId) (currentUid : Option Nat) (s : Store) :
    applyEntry codec currentUid y (.calm now) s =
      (.ok .unit, s.afterUpsert currentUid (.calm now) input) := by
  obtain ⟨r, s', hrun⟩ := upsert_calm_ok input currentUid s now hpos
  have hafter : s.afterUpsert currentUid (.calm now) input = s' := by
    unfold Store.afterUpsert Exec.after
    rw [hrun]
  have haction' : codec.messageItemAction y.scope (Env.calm now).now
      (readItem ItemPayload.asMessage y.item) = .upsert input := haction
  unfold applyEntry applySyncEntity Codec.applyMessageItem
  rw [if_pos htype, nowMs_bind, haction', hafter]
  exact Exec.bind_ok.mpr ⟨_, _, hrun, rfl⟩

end Carried

section Opening

variable {a : SyncActor} {entityType : String} {scope : Option String}

/-- Every item of an enqueue has its key remembered, or that of an accepted one. -/
theorem remembered_or_accepted {π : Type} {p : ReceivePipeline π}
    (items : List (SyncEntityItem π)) {item : SyncEntityItem π} (hitem : item ∈ items) :
    dedupeKey entityType scope item ∈ p.recentKeys ∨
      ∃ y ∈ acceptedEntries p entityType scope items,
        y.key = dedupeKey entityType scope item := by
  induction items generalizing p with
  | nil =>
      exact absurd hitem List.not_mem_nil
  | cons first items ih =>
      rw [acceptedEntries_cons]
      split
      · rename_i hold
        rcases List.mem_cons.mp hitem with rfl | hrest
        · exact Or.inl hold
        · exact ih hrest
      · rcases List.mem_cons.mp hitem with rfl | hrest
        · exact Or.inr ⟨_, List.mem_cons_self, rfl⟩
        · rcases ih hrest with hkey | ⟨y, hy, hkey⟩
          · rcases recentKeys_rememberKey hkey with heq | hold
            · exact Or.inr ⟨_, List.mem_cons_self, heq.symm⟩
            · exact Or.inl hold
          · exact Or.inr ⟨y, List.mem_cons_of_mem _ hy, hkey⟩

/-- What an enqueue with an empty queue leaves open. -/
structure Opened (a a' : SyncActor) (after : AfterApply)
    (entries : List (Entry ItemPayload)) : Prop where
  store : a'.store = a.store
  pending : a'.pendingMutations = a.pendingMutations
  task : ∃ batches, a'.task = .apply batches after ∧ openEntries batches = entries
  queue : a'.receivePipeline.queue = []
  keys : ∀ key ∈ a'.receivePipeline.recentKeys,
    key ∈ a.receivePipeline.recentKeys ∨ ∃ y ∈ entries, y.key = key

theorem opened_enqueueAndDrain
    (hqueue : a.receivePipeline.queue = []) (entityType : String) (scope : Option String)
    (items : List (SyncEntityItem ItemPayload)) (after : AfterApply) :
    Opened a (a.enqueueAndDrain entityType scope items after) after
      (acceptedEntries a.receivePipeline entityType scope items) where
  store := rfl
  pending := rfl
  task := by
    refine ⟨_, rfl, ?_⟩
    rw [openEntries_start, drainBatches_eq]
    change (a.receivePipeline.enqueue entityType scope items).2.waiting = _
    rw [enqueue_waiting]
    unfold ReceivePipeline.waiting entriesOf
    rw [hqueue, List.flatMap_nil, List.nil_append]
  queue := by
    unfold SyncActor.enqueueAndDrain
    dsimp only [SyncActor.goto]
    rw [drainBatches_eq]
  keys key hkey := by
    unfold SyncActor.enqueueAndDrain at hkey
    dsimp only [SyncActor.goto] at hkey
    rw [drainBatches_eq] at hkey
    dsimp only at hkey
    rw [recentKeys_enqueue] at hkey
    exact recentKeys_acceptItems items hkey

/-- An entry is opened unless its key is remembered. -/
theorem opened_single
    (hqueue : a.receivePipeline.queue = []) (after : AfterApply)
    (y : Entry ItemPayload) :
    (y.key ∈ a.receivePipeline.recentKeys ∧
      Opened a (a.enqueueAndDrain y.entityType y.scope [y.item] after) after []) ∨
    (y.key ∉ a.receivePipeline.recentKeys ∧
      Opened a (a.enqueueAndDrain y.entityType y.scope [y.item] after) after [y]) := by
  have hopened := opened_enqueueAndDrain hqueue y.entityType y.scope [y.item] after
  rw [acceptedEntries_cons] at hopened
  by_cases hkey : dedupeKey y.entityType y.scope y.item ∈ a.receivePipeline.recentKeys
  · rw [if_pos hkey] at hopened
    exact Or.inl ⟨hkey, hopened⟩
  · rw [if_neg hkey] at hopened
    exact Or.inr ⟨hkey, hopened⟩

end Opening

section Cores

variable {codec : Codec} {t : Timeline} {log : EventLog codec t} {x : Standing}
variable {p p' : ReceivePipeline ItemPayload} {y : Entry ItemPayload}
variable {entries entries' : List (Entry ItemPayload)}

/-- The store changes and every message stays stored. -/
theorem Core.stored (h : Core log x p entries) {s' : Store} {told' : List Nat}
    (hstore : s'.OfChannel t.channelId t.channelType)
    (hviews : ∀ S, x.store.view S ≠ none → s'.view S ≠ none)
    (htold : ∀ S ∈ told', ∃ e ∈ log.logged, e.change = .revoke S) :
    Core log { x with store := s', told := told' } p entries :=
  { h with
    store := hstore
    told := htold
    remembered :=
      { message := fun y hy hkey htype S hid =>
          (h.remembered.message y hy hkey htype S hid).imp_left (hviews S)
        mutation := fun y hy hkey htype => by
          obtain ⟨e, he, hpts, S, hS, hstored⟩ := h.remembered.mutation y hy hkey htype
          exact ⟨e, he, hpts, S, hS, hviews S hstored⟩ }
    posted := fun e he S hS => (h.posted e he S hS).imp_left (hviews S) }

theorem Core.restored (h : Core log x p entries) {s' : Store}
    (hstore : s'.OfChannel t.channelId t.channelType)
    (hviews : ∀ S, x.store.view S ≠ none → s'.view S ≠ none) :
    Core log { x with store := s' } p entries :=
  h.stored hstore hviews h.told

/-- An entry is done, and if it is that of a message, this is stored. -/
theorem Core.behind (h : Core log x p (y :: entries))
    (hstored : y.entityType = "message" → ∀ S, y.item.entityId = toString S →
      x.store.view S ≠ none) : Core log x p entries :=
  { h with
    remembered :=
      { message := fun z hz hkey htype S hid => by
          rcases h.remembered.message z hz hkey htype S hid with hview | ⟨z', hz', hplain, heq⟩
          · exact Or.inl hview
          · rcases List.mem_cons.mp hz' with rfl | hrest
            · obtain ⟨htype', -, hid', -⟩ := hplain.same_of_key hz heq
              exact Or.inl (hstored (htype'.trans htype) S (hid'.trans hid))
            · exact Or.inr ⟨z', hrest, hplain, heq⟩
        mutation := h.remembered.mutation }
    posted := fun e he S hS => by
      rcases h.posted e he S hS with hview | ⟨z, hz, htype, hid⟩
      · exact Or.inl hview
      · rcases List.mem_cons.mp hz with rfl | hrest
        · exact Or.inl (hstored htype S hid)
        · exact Or.inr ⟨z, hrest, htype, hid⟩ }

/-- Entries are opened for what comes. -/
theorem Core.opened (h : Core log x p []) {arrived' : List LogEvent}
    (hold : ∀ e ∈ x.arrived, e ∈ arrived') (hlogged : ∀ e ∈ arrived', e ∈ log.logged)
    (hposted : ∀ e ∈ arrived', e ∉ x.arrived → ∀ S, e.change.posted = some S →
      x.store.view S ≠ none ∨
        ∃ y ∈ entries, y.entityType = "message" ∧ y.item.entityId = toString S)
    (hqueue : p'.queue = [])
    (hkeys : ∀ key ∈ p'.recentKeys, key ∈ p.recentKeys ∨ ∃ y ∈ entries, y.key = key)
    (hplain : ∀ y ∈ entries, Plain t y)
    (hmutation : ∀ y ∈ entries, y.entityType ≠ "message" →
      ∃ e ∈ arrived', e.pts = y.item.version ∧
        ∃ S, e.change.target = some S ∧ x.store.view S ≠ none) :
    Core log { x with arrived := arrived' } p' entries :=
  { h with
    arrived := hlogged
    pending := fun m hm => by
      obtain ⟨c, hc, hheld, he⟩ := h.pending m hm
      exact ⟨c, hc, hheld, hold _ he⟩
    queue := hqueue
    remembered :=
      { message := fun y hy hkey htype S hid => by
          rcases hkeys _ hkey with hkey | ⟨z, hz, heq⟩
          · rcases h.remembered.message y hy hkey htype S hid with hview | ⟨z, hz, -⟩
            · exact Or.inl hview
            · exact absurd hz List.not_mem_nil
          · exact Or.inr ⟨z, hz, hplain z hz, heq⟩
        mutation := fun y hy hkey htype => by
          rcases hkeys _ hkey with hkey | ⟨z, hz, heq⟩
          · obtain ⟨e, he, hpts, hS⟩ := h.remembered.mutation y hy hkey htype
            exact ⟨e, hold e he, hpts, hS⟩
          · obtain ⟨htype', -, -, hversion⟩ := (hplain z hz).same_of_key hy heq
            rw [← hversion]
            exact hmutation z hz (fun hmessage => htype (htype'.symm.trans hmessage)) }
    posted := fun e he S hS => by
      by_cases hcame : e ∈ x.arrived
      · rcases h.posted e hcame S hS with hview | ⟨z, hz, -⟩
        · exact Or.inl hview
        · exact absurd hz List.not_mem_nil
      · exact hposted e he hcame S hS }

/-- The pending mutations of a message to come are not remembered. -/
theorem Core.fresh (h : Core log x p entries) {S : Nat} (hsettled : Settled log x S) :
    Fresh t p (listPendingTimelineMutations x.pending t S) := by
  intro y hy hkey htype m hm hversion
  obtain ⟨hpending, htarget⟩ := h.mem_listPending.mp hm
  obtain ⟨e, he, hpts, T, hT, hstored⟩ := h.remembered.mutation y hy hkey htype
  obtain ⟨e', he', hpts', hT'⟩ := h.event_of_pending hpending
  have heq : e = e' := eq_of_pts (h.arrived e he) (h.arrived e' he')
    (hpts.trans (hversion.trans hpts'.symm))
  rw [heq, hT', htarget] at hT
  cases hT
  obtain ⟨v, hv⟩ := Option.ne_none_iff_exists'.mp hstored
  exact hsettled.replayed v hv m hpending htarget

end Cores

end Difference
end PrivchatSdk
