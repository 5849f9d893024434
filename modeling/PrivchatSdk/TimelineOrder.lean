import PrivchatSdk.CommitRuns
import PrivchatSdk.Lib.LatestWrite
import PrivchatSdk.MessageViews

/-!
# The events of a channel in their order

A commit of a channel posts a message, revokes one, or says that somebody reacted to
one.  Applied in the order of their `pts`, the events leave each message with its
content, or with the placeholder if any of them revokes it, and each reaction as the
latest event about it says (`inOrder`).

`Shows` says what a view has to look like if just some of the events have been applied,
in whatever order; if these are all the events, it is the view that the order gives
(`Shows.view_inOrder`).
-/

namespace PrivchatSdk
namespace Difference

open StampedWrites

section Events

/-- What an event does to the message that it names. -/
inductive Change where
  | post (serverMessageId : Nat) (shown : Int × String)
  | revoke (target : Nat)
  | react (target actorId : Nat) (emoji : String) (remove : Bool)
  deriving DecidableEq

/-- The message that the change is about, if it is stored before. -/
def Change.target : Change → Option Nat
  | .post _ _ => none
  | .revoke target => some target
  | .react target _ _ _ => some target

/-- The message that the change posts. -/
def Change.posted : Change → Option Nat
  | .post serverMessageId _ => some serverMessageId
  | .revoke _ => none
  | .react _ _ _ _ => none

structure LogEvent where
  pts : Nat
  change : Change
  deriving DecidableEq

/-- What a commit does. -/
def commitChange (codec : Codec) (c : ServerCommit) : Change :=
  match c.canonicalEvent with
  | some (.newMessage messageType legacy) =>
      .post c.serverMsgId
        (messageType.toI32, (codec.normalizedMessageContentAndExtra legacy).1)
  | some (.revoke target _ _) => .revoke target
  | some (.reactionChange target actorId emoji remove) => .react target actorId emoji remove
  | none =>
      .post c.serverMsgId
        (normalizedMessageTypeFromStr c.messageType,
          (codec.normalizedMessageContentAndExtra c.content).1)

def commitEvent (codec : Codec) (c : ServerCommit) : LogEvent where
  pts := c.pts
  change := commitChange codec c

theorem target_commitChange (codec : Codec) (c : ServerCommit) :
    (commitChange codec c).target = mutationTarget c := by
  unfold commitChange mutationTarget
  cases c.canonicalEvent with
  | none =>
      rfl
  | some event =>
      cases event with
      | newMessage messageType legacy => rfl
      | revoke target revokedBy revokedAt => rfl
      | reactionChange target actorId emoji remove => rfl

end Events

section Order

/-- What is known of a message. -/
structure MessageState where
  posted : Option (Int × String)
  revoked : Bool
  reacted : Nat × String → Bool

def MessageState.unknown : MessageState where
  posted := none
  revoked := false
  reacted _ := false

/-- Take one event; `S` is the message. -/
def MessageState.apply (S : Nat) (m : MessageState) (e : LogEvent) : MessageState :=
  match e.change with
  | .post serverMessageId shown =>
      if serverMessageId = S then { m with posted := some shown } else m
  | .revoke target => if target = S then { m with revoked := true } else m
  | .react target actorId emoji remove =>
      if target = S then
        { m with reacted := Function.update m.reacted (actorId, emoji) (!remove) }
      else
        m

/-- What one sees of a message: a revoked one shows the placeholder. -/
def MessageState.view (m : MessageState) : Option MessageView :=
  m.posted.map (fun shown =>
    { shown := if m.revoked then placeholder else shown
      revoked := m.revoked
      reacted := fun uid emoji => m.reacted (uid, emoji) })

/-- The message after the events in the given order. -/
def inOrder (S : Nat) (events : List LogEvent) : MessageState :=
  events.foldl (MessageState.apply S) .unknown

/-- The write of a reaction event to the register of its user and emoji. -/
def LogEvent.reaction (S : Nat) (e : LogEvent) : Option (Write (Nat × String) Bool) :=
  match e.change with
  | .react target actorId emoji remove =>
      if target = S then
        some { stamp := e.pts, key := (actorId, emoji), value := !remove }
      else
        none
  | _ => none

def reactions (S : Nat) (events : List LogEvent) : List (Write (Nat × String) Bool) :=
  events.filterMap (LogEvent.reaction S)

variable {S : Nat} {e : LogEvent} {events : List LogEvent}

theorem mem_reactions {w : Write (Nat × String) Bool} :
    w ∈ reactions S events ↔ ∃ e ∈ events, e.reaction S = some w :=
  List.mem_filterMap

theorem reaction_eq_some {w : Write (Nat × String) Bool} :
    e.reaction S = some w ↔
      w.stamp = e.pts ∧ e.change = .react S w.key.1 w.key.2 (!w.value) := by
  obtain ⟨stamp, ⟨uid, emoji⟩, value⟩ := w
  unfold LogEvent.reaction
  split
  · rename_i target actorId emoji' remove hchange
    rw [hchange]
    split
    · rename_i heq
      subst heq
      simp only [Option.some.injEq, Write.mk.injEq, Prod.mk.injEq, Change.react.injEq,
        true_and]
      constructor
      · rintro ⟨rfl, ⟨rfl, rfl⟩, rfl⟩
        exact ⟨rfl, rfl, rfl, (Bool.not_not _).symm⟩
      · rintro ⟨rfl, rfl, rfl, rfl⟩
        exact ⟨rfl, ⟨rfl, rfl⟩, Bool.not_not _⟩
    · rename_i hne
      simp [hne]
  · rename_i hother
    simp only [reduceCtorEq, false_iff, not_and]
    exact fun _ hchange => hother _ _ _ _ hchange

theorem revoked_inOrder :
    (inOrder S events).revoked = true ↔ ∃ e ∈ events, e.change = .revoke S := by
  have hfold : ∀ (events : List LogEvent) (m : MessageState),
      (events.foldl (MessageState.apply S) m).revoked = true ↔
        m.revoked = true ∨ ∃ e ∈ events, e.change = .revoke S := by
    intro events
    induction events with
    | nil =>
        intro m
        simp
    | cons e events ih =>
        intro m
        rw [List.foldl_cons, ih]
        have hone : (m.apply S e).revoked = true ↔
            m.revoked = true ∨ e.change = .revoke S := by
          unfold MessageState.apply
          cases e.change with
          | post serverMessageId shown =>
              dsimp only
              split
              · simp
              · simp
          | revoke target =>
              dsimp only
              split
              · rename_i heq
                simp [heq]
              · rename_i hne
                simp [hne]
          | react target actorId emoji remove =>
              dsimp only
              split
              · simp
              · simp
        rw [hone]
        simp only [List.mem_cons, exists_eq_or_imp, or_assoc]
  rw [inOrder, hfold]
  simp [MessageState.unknown]

/-- A message that is posted in one way shows what was posted. -/
theorem posted_inOrder {shown : Int × String}
    (hposted : ∃ e ∈ events, e.change = .post S shown)
    (honce : ∀ e ∈ events, ∀ shown', e.change = .post S shown' → shown' = shown) :
    (inOrder S events).posted = some shown := by
  have hfold : ∀ (events : List LogEvent) (m : MessageState),
      (∀ e ∈ events, ∀ shown', e.change = .post S shown' → shown' = shown) →
      (m.posted = some shown ∨ ∃ e ∈ events, e.change = .post S shown) →
      (events.foldl (MessageState.apply S) m).posted = some shown := by
    intro events
    induction events with
    | nil =>
        rintro m - (hm | ⟨e, he, -⟩)
        · exact hm
        · exact absurd he List.not_mem_nil
    | cons e events ih =>
        intro m hall hsome
        rw [List.foldl_cons]
        refine ih _ (fun e' he' => hall e' (List.mem_cons_of_mem _ he')) ?_
        by_cases hnow : e.change = .post S shown
        · left
          unfold MessageState.apply
          rw [hnow]
          dsimp only
          rw [if_pos rfl]
        · rcases hsome with hm | ⟨e', he', hlater⟩
          · left
            rw [← hm]
            unfold MessageState.apply
            cases hchange : e.change with
            | post serverMessageId shown' =>
                dsimp only
                rw [if_neg]
                rintro rfl
                have hsame := hall e List.mem_cons_self shown' hchange
                rw [hsame] at hchange
                exact hnow hchange
            | revoke target =>
                dsimp only
                split
                · rfl
                · rfl
            | react target actorId emoji remove =>
                dsimp only
                split
                · rfl
                · rfl
          · rcases List.mem_cons.mp he' with rfl | hmem
            · exact absurd hlater hnow
            · exact Or.inr ⟨e', hmem, hlater⟩
  exact hfold events .unknown honce (Or.inr hposted)

theorem reacted_inOrder (S : Nat) (events : List LogEvent) :
    (inOrder S events).reacted = writeAll (fun _ => false) (reactions S events) := by
  have hfold : ∀ (events : List LogEvent) (m : MessageState),
      (events.foldl (MessageState.apply S) m).reacted =
        writeAll m.reacted (reactions S events) := by
    intro events
    induction events with
    | nil =>
        intro m
        rfl
    | cons e events ih =>
        intro m
        rw [List.foldl_cons, ih]
        unfold reactions
        rw [List.filterMap_cons]
        unfold MessageState.apply LogEvent.reaction
        cases e.change with
        | post serverMessageId shown =>
            dsimp only
            split
            · rfl
            · rfl
        | revoke target =>
            dsimp only
            split
            · rfl
            · rfl
        | react target actorId emoji remove =>
            dsimp only
            split
            · rfl
            · rfl
  exact hfold events .unknown

end Order

section Shows

/--
What the view of message `S` is after the events, in whatever order.  `posts` has the
events that post messages, and `told` the messages of which a page of the history said
that they are revoked.
-/
structure Shows (posts : List LogEvent) (told : List Nat) (events : List LogEvent)
    (S : Nat) (v : MessageView) : Prop where
  hidden : (∃ e ∈ events, e.change = .revoke S) → v.shown = placeholder ∧ v.revoked = true
  plain : (∀ e ∈ events, e.change ≠ .revoke S) → S ∉ told →
    v.revoked = false ∧
      ∀ e ∈ posts, ∀ shown, e.change = .post S shown → v.shown = shown
  reacted : ∀ uid emoji,
    Latest (reactions S events) false (uid, emoji) (v.reacted uid emoji)

/-- The input of an upsert is a message that some event posts. -/
structure Tells (posts : List LogEvent) (input : UpsertRemoteMessageInput) : Prop where
  posted : ∃ e ∈ posts, e.change.posted = some input.serverMessageId
  shown : input.revoked = false → ∀ e ∈ posts, ∀ shown,
    e.change = .post input.serverMessageId shown →
      (input.messageType, input.content) = shown

variable {posts events : List LogEvent} {told : List Nat} {S : Nat} {v : MessageView}

/-- Only the events about the message matter. -/
theorem Shows.congr {events' : List LogEvent} (h : Shows posts told events S v)
    (hsame : ∀ e : LogEvent, e.change.target = some S → (e ∈ events ↔ e ∈ events')) :
    Shows posts told events' S v where
  hidden := by
    rintro ⟨e, he, hchange⟩
    exact h.hidden ⟨e, (hsame e (by rw [hchange]; rfl)).mpr he, hchange⟩
  plain hnone := by
    refine h.plain (fun e he hchange => ?_)
    exact hnone e ((hsame e (by rw [hchange]; rfl)).mp he) hchange
  reacted uid emoji := by
    refine (h.reacted uid emoji).congr (fun w _ => ?_)
    rw [mem_reactions, mem_reactions]
    refine exists_congr (fun e => ?_)
    refine and_congr_left (fun hreaction => hsame e ?_)
    rw [(reaction_eq_some.mp hreaction).2]
    rfl

theorem Shows.told_mono {told' : List Nat} (h : Shows posts told events S v)
    (hsub : ∀ n ∈ told, n ∈ told') : Shows posts told' events S v where
  hidden := h.hidden
  plain hnone htold := h.plain hnone (fun hmem => htold (hsub S hmem))
  reacted := h.reacted

theorem reactions_of_other {e : LogEvent} (h : e.reaction S = none) :
    reactions S (e :: events) = reactions S events := by
  unfold reactions
  rw [List.filterMap_cons, h]

/-- A revoke is applied. -/
theorem Shows.revoke (h : Shows posts told events S v) {e : LogEvent}
    (hchange : e.change = .revoke S) : Shows posts told (e :: events) S v.revoke where
  hidden _ := ⟨rfl, rfl⟩
  plain hnone := absurd hchange (hnone e List.mem_cons_self)
  reacted uid emoji := by
    rw [reactions_of_other]
    · exact h.reacted uid emoji
    · unfold LogEvent.reaction
      rw [hchange]

/-- A reaction is applied that no later one contradicts. -/
theorem Shows.react (h : Shows posts told events S v) {e : LogEvent} {uid : Nat}
    {emoji : String} {remove : Bool} (hchange : e.change = .react S uid emoji remove)
    (hlatest : Latest (reactions S (e :: events)) false (uid, emoji) (!remove)) :
    Shows posts told (e :: events) S (v.react uid emoji (!remove)) where
  hidden := by
    rintro ⟨e', he', hrevoke⟩
    rcases List.mem_cons.mp he' with rfl | hmem
    · rw [hchange] at hrevoke
      cases hrevoke
    · exact h.hidden ⟨e', hmem, hrevoke⟩
  plain hnone := h.plain (fun e' he' => hnone e' (List.mem_cons_of_mem _ he'))
  reacted u em := by
    change Latest _ false (u, em) (if u = uid ∧ em = emoji then !remove else v.reacted u em)
    split
    · rename_i heq
      obtain ⟨rfl, rfl⟩ := heq
      exact hlatest
    · rename_i hne
      have hreaction : e.reaction S =
          some { stamp := e.pts, key := (uid, emoji), value := !remove } :=
        reaction_eq_some.mpr ⟨rfl, by rw [hchange, Bool.not_not]⟩
      have hcons : reactions S (e :: events) =
          { stamp := e.pts, key := (uid, emoji), value := !remove } ::
            reactions S events := by
        unfold reactions
        rw [List.filterMap_cons, hreaction]
      rw [hcons]
      refine (h.reacted u em).cons_of_ne (fun heq => hne ?_)
      rw [Prod.mk.injEq] at heq
      exact ⟨heq.1.symm, heq.2.symm⟩

/-- A reaction that is not older than the others of its user and emoji. -/
theorem latest_of_newest {e : LogEvent} {uid : Nat} {emoji : String} {remove : Bool}
    (hchange : e.change = .react S uid emoji remove)
    (hnewest : ∀ e' ∈ events, ∀ remove', e'.change = .react S uid emoji remove' →
      e'.pts ≤ e.pts) :
    Latest (reactions S (e :: events)) false (uid, emoji) (!remove) := by
  have hreaction : e.reaction S =
      some { stamp := e.pts, key := (uid, emoji), value := !remove } :=
    reaction_eq_some.mpr ⟨rfl, by rw [hchange, Bool.not_not]⟩
  unfold reactions
  rw [List.filterMap_cons, hreaction]
  refine latest_cons_of_newest (fun w hw hkey => ?_)
  obtain ⟨e', he', hreaction'⟩ := mem_reactions.mp hw
  obtain ⟨hstamp, hchange'⟩ := reaction_eq_some.mp hreaction'
  rw [hstamp]
  refine hnewest e' he' (!w.value) ?_
  rw [hchange', hkey]

/-- A message is stored before anything happened to it. -/
theorem shows_view {input : UpsertRemoteMessageInput} (htells : Tells posts input)
    (htold : input.revoked = true → input.serverMessageId ∈ told) :
    Shows posts told [] input.serverMessageId input.view where
  hidden := by
    rintro ⟨e, he, -⟩
    exact absurd he List.not_mem_nil
  plain _ hnot := by
    have hrevoked : input.revoked = false := by
      cases hrevoked : input.revoked with
      | true => exact absurd (htold hrevoked) hnot
      | false => rfl
    exact ⟨hrevoked, htells.shown hrevoked⟩
  reacted uid emoji := latest_nil false (uid, emoji)

/-- A stored message is written again. -/
theorem Shows.overwrite {input : UpsertRemoteMessageInput}
    (h : Shows posts told events input.serverMessageId v) (htells : Tells posts input)
    (htold : input.revoked = true → input.serverMessageId ∈ told)
    (hhidden : (∃ e ∈ events, e.change = .revoke input.serverMessageId) →
      (input.messageType, input.content) = placeholder) :
    Shows posts told events input.serverMessageId (v.overwrite input) where
  hidden hrevoke := by
    refine ⟨hhidden hrevoke, ?_⟩
    change (v.revoked || input.revoked) = true
    rw [(h.hidden hrevoke).2, Bool.true_or]
  plain hnone hnot := by
    have hrevoked : input.revoked = false := by
      cases hrevoked : input.revoked with
      | true => exact absurd (htold hrevoked) hnot
      | false => rfl
    refine ⟨?_, htells.shown hrevoked⟩
    change (v.revoked || input.revoked) = false
    rw [(h.plain hnone hnot).1, hrevoked, Bool.or_false]
  reacted := h.reacted

/-- If all events have been applied, the view is that of their order. -/
theorem Shows.view_inOrder {ordered : List LogEvent} (h : Shows posts told events S v)
    (hsorted : LogPages.Increasing LogEvent.pts ordered)
    (hsame : ∀ e : LogEvent, e.change.target = some S → (e ∈ events ↔ e ∈ ordered))
    (hposts : ∀ e ∈ ordered, e ∈ posts)
    (honce : ∀ e ∈ posts, ∀ e' ∈ posts, ∀ n, e.change.posted = some n →
      e'.change.posted = some n → e = e')
    (hposted : ∃ e ∈ ordered, e.change.posted = some S)
    (htold : S ∈ told → ∃ e ∈ ordered, e.change = .revoke S) :
    (inOrder S ordered).view = some v := by
  obtain ⟨e, he, hS⟩ := hposted
  obtain ⟨shown, hchange⟩ : ∃ shown, e.change = .post S shown := by
    cases hchange : e.change with
    | post serverMessageId shown =>
        rw [hchange] at hS
        cases hS
        exact ⟨shown, rfl⟩
    | revoke target =>
        rw [hchange] at hS
        cases hS
    | react target actorId emoji remove =>
        rw [hchange] at hS
        cases hS
  have hshown : (inOrder S ordered).posted = some shown := by
    refine posted_inOrder ⟨e, he, hchange⟩ (fun e' he' shown' hchange' => ?_)
    have heq := honce e (hposts e he) e' (hposts e' he') S hS (by rw [hchange']; rfl)
    rw [← heq, hchange] at hchange'
    cases hchange'
    rfl
  have hevents := h.congr hsame
  unfold MessageState.view
  rw [hshown, Option.map_some]
  congr 1
  have hreacted : ∀ uid emoji,
      (inOrder S ordered).reacted (uid, emoji) = v.reacted uid emoji := by
    intro uid emoji
    have hstamps : LogPages.Increasing Write.stamp (reactions S ordered) := by
      refine List.Pairwise.filterMap _ (fun e e' hlt w hw w' hw' => ?_) hsorted
      rw [(reaction_eq_some.mp hw).1, (reaction_eq_some.mp hw').1]
      exact hlt
    rw [reacted_inOrder]
    refine Latest.unique (latest_writeAll _ hstamps _) (hevents.reacted uid emoji) ?_
    exact fun w hw w' hw' hstamp => hstamps.eq_of_position hw hw' hstamp
  by_cases hrevoked : ∃ e ∈ ordered, e.change = .revoke S
  · obtain ⟨hplaceholder, hflag⟩ := hevents.hidden hrevoked
    rw [revoked_inOrder.mpr hrevoked, if_pos rfl]
    refine MessageView.ext hplaceholder.symm hflag.symm ?_
    funext uid emoji
    exact hreacted uid emoji
  · have hflag : (inOrder S ordered).revoked = false :=
      Bool.eq_false_iff.mpr (fun hflag => hrevoked (revoked_inOrder.mp hflag))
    obtain ⟨hnot, hcontent⟩ := hevents.plain
      (fun e he hchange => hrevoked ⟨e, he, hchange⟩) (fun hmem => hrevoked (htold hmem))
    rw [hflag, if_neg Bool.false_ne_true]
    refine MessageView.ext (hcontent e (hposts e he) shown hchange).symm hnot.symm ?_
    funext uid emoji
    exact hreacted uid emoji

end Shows

end Difference
end PrivchatSdk
