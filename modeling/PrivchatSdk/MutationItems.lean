import Mathlib.Data.List.TakeWhile
import PrivchatSdk.TimelineOrder

/-!
# A mutation of a commit, applied

A revoke or a reaction of a commit names its message by the server id, and its channel
by number.  Where no statement fails and the message is stored, the item that the commit
becomes changes the view of this message as the event says.
-/

namespace PrivchatSdk
namespace Difference

open StatementExec RelTable Receive

section Numbers

theorem asU64_ofNat {n : Nat} (h : n < 2 ^ 64) : (Json.int n).asU64 = some n := by
  have hrange : (0 : Int) ≤ n ∧ (n : Int) < 2 ^ 64 := by omega
  simp only [Json.asU64]
  rw [if_pos hrange, Int.toNat_natCast]

/-- The code of a decimal digit. -/
theorem toNat_of_isDigit {c : Char} (h : c.isDigit = true) : 48 ≤ c.toNat ∧ c.toNat ≤ 57 := by
  simp only [Char.isDigit, ge_iff_le, Bool.and_eq_true, decide_eq_true_eq,
    UInt32.le_iff_toNat_le] at h
  exact h

theorem isWhiteSpace_of_isDigit {c : Char} (h : c.isDigit = true) :
    isWhiteSpace c = false := by
  obtain ⟨hlow, hhigh⟩ := toNat_of_isDigit h
  unfold isWhiteSpace
  simp only [Bool.or_eq_false_iff, Bool.and_eq_false_iff, decide_eq_false_iff_not,
    beq_eq_false_iff_ne]
  omega

theorem isIdSeparator_of_isDigit {c : Char} (h : c.isDigit = true) :
    isIdSeparator c = false := by
  obtain ⟨hlow, hhigh⟩ := toNat_of_isDigit h
  unfold isIdSeparator
  simp only [Bool.or_eq_false_iff, beq_eq_false_iff_ne]
  refine ⟨⟨⟨?_, ?_⟩, ?_⟩, ?_⟩
  all_goals
    rintro rfl
    revert hlow hhigh
    decide

theorem trim_of_digits {text : String} (h : ∀ c ∈ text.toList, c.isDigit = true) :
    trim text = text := by
  have hkeep : ∀ l : List Char, (∀ c ∈ l, c.isDigit = true) →
      l.dropWhile isWhiteSpace = l := by
    intro l hl
    rw [List.dropWhile_eq_self_iff]
    intro hlen
    rw [isWhiteSpace_of_isDigit (hl _ (List.getElem_mem hlen))]
    exact Bool.false_ne_true
  unfold trim
  rw [hkeep _ h, hkeep _ (fun c hc => h c (List.mem_reverse.mp hc)), List.reverse_reverse,
    String.ofList_toList]

theorem parseDigits_toString (n : Nat) : parseDigits (toString n).toList = some n := by
  have hdigits : ∀ c ∈ (toString n).toList, c.isDigit = true :=
    fun c hc => isDigit_of_mem_version hc
  have hvalue : (toString n).toList.foldl (fun n c => n * 10 + (c.toNat - '0'.toNat)) 0 =
      n := by
    rw [Nat.toString_eq_ofList_toDigits, String.toList_ofList]
    refine Eq.trans ?_ (Nat.ofDigitChars_ten_toDigits (n := n))
    rw [Nat.ofDigitChars_eq_foldl]
    congr 1
    funext m c
    rw [Nat.mul_comm]
  cases hlist : (toString n).toList with
  | nil =>
      rw [Nat.toString_eq_ofList_toDigits, String.toList_ofList] at hlist
      exact absurd hlist Nat.toDigits_ne_nil
  | cons c cs =>
      rw [hlist] at hdigits hvalue
      simp only [parseDigits]
      rw [if_pos (List.all_eq_true.mpr hdigits), hvalue]

theorem parseU64_toString {n : Nat} (h : n < 2 ^ 64) : parseU64 (toString n) = some n := by
  have hplus : ∀ rest, (toString n).toList ≠ '+' :: rest := by
    intro rest hlist
    have hdigit : '+'.isDigit = true :=
      isDigit_of_mem_version (n := n) (hlist ▸ List.mem_cons_self)
    exact absurd hdigit (by decide)
  unfold parseU64
  dsimp only
  split
  · rename_i rest hlist
    exact absurd hlist (hplus rest)
  · rw [parseDigits_toString]
    simpa using h

/-- The scope of a channel says its type and its id. -/
theorem parseChannelScope_scope (t : Timeline) (htype : 0 < t.channelType)
    (hbyte : t.channelType < 256) (hid : t.channelId < 2 ^ 64) :
    parseChannelScope (some t.scope) = some ((t.channelType : Int), t.channelId) := by
  have hnone : ∀ n : Nat, ∀ c ∈ (toString n).toList, isIdSeparator c = false :=
    fun n c hc => isIdSeparator_of_isDigit (isDigit_of_mem_version hc)
  have htoken : ∀ n : Nat, n < 2 ^ 64 →
      parseU64 (trim (String.ofList (toString n).toList)) = some n := by
    intro n hn
    rw [String.ofList_toList, trim_of_digits (fun c hc => isDigit_of_mem_version hc)]
    exact parseU64_toString hn
  have hparts : idParts t.scope = [t.channelType, t.channelId] := by
    unfold idParts
    rw [Timeline.scope_toList, List.splitOnP_append_cons _ _ (by decide),
      List.splitOnP_eq_singleton (hnone _), List.splitOnP_eq_singleton (hnone _)]
    rw [List.singleton_append, List.filterMap_cons, htoken _ (by omega),
      List.filterMap_cons, htoken _ hid, List.filterMap_nil]
  unfold parseChannelScope
  rw [Option.map_some, hparts]
  dsimp only
  rw [if_pos (by omega), if_neg (by omega)]

end Numbers

section Targets

variable {s : Store} {t : Timeline}

/-- In the store of one channel a message is found by its server id. -/
theorem getMessageId_ofChannel (h : s.OfChannel t.channelId t.channelType)
    (target : Nat) (now : Int) :
    getMessageIdByServerMessageId t.channelId t.channelType target (.calm now) s =
      (.ok ((s.byServerId target).map (fun r => r.id)), s) := by
  unfold getMessageIdByServerMessageId
  rw [query_calm]
  have hfind : s.message.rows.find? (fun r => r.serverMessageId == some target &&
      r.channelId == t.channelId && r.channelType == (t.channelType : Int)) =
        s.byServerId target := by
    refine List.find?_congr (fun r hr => ?_)
    obtain ⟨hid, htype⟩ := h.rows r hr
    rw [hid, htype, beq_self_eq_true, beq_self_eq_true, Bool.and_true, Bool.and_true]
  rw [hfind]

theorem resolveMessageId_ofChannel (h : s.OfChannel t.channelId t.channelType)
    (hid : 0 < t.channelId) {target : Nat} {row : MessageRow}
    (hrow : s.byServerId target = some row) (now : Int) :
    resolveMessageId t.channelId t.channelType target (.calm now) s =
      (.ok row.id, s) := by
  unfold resolveMessageId
  rw [if_pos hid, Exec.bind_run, getMessageId_ofChannel h, hrow]
  rfl

/-- The channel of a commit is a channel of the protocol. -/
structure Timeline.Known (t : Timeline) : Prop where
  channelId_pos : 0 < t.channelId
  channelId_lt : t.channelId < 2 ^ 64
  channelType_pos : 0 < t.channelType
  channelType_lt : t.channelType < 256

theorem itemChannelType_scope (ht : t.Known) {members : List (String × Json)}
    (hget : (Json.obj members).get "channel_type" = some (.int t.channelType)) :
    itemChannelType (some t.scope) (.obj members) = t.channelType := by
  have hsmall := ht.channelType_lt
  have hread : jsonGetI32 (.obj members) ["channel_type", "type", "conversation_type"] =
      some (t.channelType : Int) := by
    have hi64 : (Json.int (t.channelType : Int)).asI64 = some (t.channelType : Int) := by
      simp only [Json.asI64]
      rw [if_pos (by omega)]
    unfold jsonGetI32 jsonGetI64
    rw [List.findSome?_cons, hget, Option.bind_some, hi64]
    dsimp only [Option.or, Option.map]
    unfold wrapI32
    rw [Int.bmod_eq_of_le (by omega) (by omega)]
  unfold itemChannelType
  rw [parseChannelScope_scope t ht.channelType_pos ht.channelType_lt ht.channelId_lt]
  unfold parseProtocolChannelType
  rw [hread]
  split
  · rename_i h
    have hpos := ht.channelType_pos
    simp only [Option.some.injEq] at h
    omega
  · rename_i h
    exact (Option.some.inj h).symm
  · rename_i h
    exact (Option.some.inj h).symm
  · rename_i h
    exact (Option.some.inj h).symm
  · rfl

end Targets

section Mutations

/-- The numbers of an event fit into their types, and a reaction has a user and an emoji. -/
def EventFits : CanonicalTimelineEvent → Prop
  | .newMessage _ _ => True
  | .revoke target _ _ => 0 < target ∧ target < 2 ^ 64
  | .reactionChange target actorId emoji _ =>
      (0 < target ∧ target < 2 ^ 64) ∧ (0 < actorId ∧ actorId < 2 ^ 64) ∧ emoji ≠ ""

/-- What the change makes of the view of its message. -/
def Change.act : Change → MessageView → MessageView
  | .post _ _ => id
  | .revoke _ => MessageView.revoke
  | .react _ actorId emoji remove => MessageView.react actorId emoji (!remove)

/-- The statements of an entry of the pipeline. -/
def applyEntry (codec : Codec) (currentUid : Option Nat) (e : Entry ItemPayload) :
    StoreM PUnit :=
  applySyncEntity codec currentUid e.entityType e.scope e.item

variable {codec : Codec} {currentUid : Option Nat} {s : Store} {t : Timeline}
  {c : ServerCommit} {S : Nat} {row : MessageRow}

theorem asValue_queued (item : SyncEntityItem Json) :
    readItem ItemPayload.asValue (queued .value item) = item := by
  obtain ⟨entityId, version, deleted, payload⟩ := item
  cases payload with
  | none => rfl
  | some payload => rfl

theorem jsonGetU64_head {members : List (String × Json)} {key : String} {n : Nat}
    {keys : List String} (hget : (Json.obj members).get key = some (.int n))
    (hn : n < 2 ^ 64) : jsonGetU64 (.obj members) (key :: keys) = some n := by
  unfold jsonGetU64
  rw [List.findSome?_cons, hget, Option.bind_some, asU64_ofNat hn]
  rfl

theorem rawMessageId_of_get {item : SyncEntityItem Json} {members : List (String × Json)}
    (hpayload : item.payload = some (.obj members))
    (hget : (Json.obj members).get "message_id" = some (.int S)) (hS : S < 2 ^ 64) :
    rawMessageId item = S := by
  unfold rawMessageId itemPayload
  rw [hpayload, Option.getD_some, jsonGetU64_head hget hS]
  rfl

theorem itemChannelId_of_get {members : List (String × Json)} {scope : Option String}
    (hget : (Json.obj members).get "channel_id" = some (.int t.channelId))
    (ht : t.Known) : itemChannelId scope (.obj members) = t.channelId := by
  unfold itemChannelId
  rw [jsonGetU64_head hget ht.channelId_lt]
  rfl

/-- The payload of the item that a revoke becomes. -/
def revokeMembers (t : Timeline) (S revokedBy : Nat) (revokedAt : Int) :
    List (String × Json) :=
  [("message_id", .int S), ("revoke", .bool true), ("revoked_by", .int revokedBy),
    ("revoked_at", .int revokedAt), ("channel_id", .int t.channelId),
    ("channel_type", .int t.channelType)]

theorem commitEntry_revoke {revokedBy : Nat} {revokedAt : Int}
    (hevent : c.canonicalEvent = some (.revoke S revokedBy revokedAt))
    (hchannel : c.channelId = t.channelId ∧ c.channelType = t.channelType) :
    commitEntry codec t c =
      { entityType := "message_extra"
        scope := some t.scope
        item := queued .value
          { entityId := toString c.serverMsgId
            version := c.pts
            deleted := false
            payload := some (.obj (revokeMembers t S revokedBy revokedAt)) } } := by
  unfold commitEntry Codec.syncItemFromDifferenceCommit
  rw [hevent]
  unfold revokeMembers
  rw [← hchannel.1, ← hchannel.2]
  rfl

theorem applyEntry_revoke
    (codec : Codec) (currentUid : Option Nat) {revokedBy : Nat} {revokedAt : Int}
    (hevent : c.canonicalEvent = some (.revoke S revokedBy revokedAt))
    (hfits : 0 < S ∧ S < 2 ^ 64) (ht : t.Known)
    (hchannel : c.channelId = t.channelId ∧ c.channelType = t.channelType)
    (h : s.OfChannel t.channelId t.channelType) (hrow : s.byServerId S = some row)
    (now : Int) :
    ∃ revoker, applyEntry codec currentUid (commitEntry codec t c) (.calm now) s =
      (.ok .unit, s.afterRevoke row revoker now) := by
  obtain ⟨hmem, -⟩ := (s.byServerId_eq_some_iff hfits.1 row).mp hrow
  have hfound : s.message.byRowid row.id = some row :=
    (s.message.byRowid_eq_some_iff _ _).mpr ⟨hmem, rfl⟩
  let members := revokeMembers t S revokedBy revokedAt
  have hchannelId : itemChannelId (some t.scope) (.obj members) = t.channelId :=
    itemChannelId_of_get rfl ht
  have hchannelType : itemChannelType (some t.scope) (.obj members) = t.channelType :=
    itemChannelType_scope ht rfl
  have hrevoke : applyExtraRevoke (.obj members) row.id =
      setMessageRevoke row.id true (jsonGetU64 (.obj members) ["revoker", "revoked_by"]) :=
    rfl
  have hedit : codec.applyExtraEdit (.obj members) row.id = pure .unit := rfl
  have hpin : applyExtraPin (.obj members) row.id = pure .unit := rfl
  refine ⟨jsonGetU64 (.obj members) ["revoker", "revoked_by"], ?_⟩
  rw [commitEntry_revoke hevent hchannel]
  unfold applyEntry applySyncEntity
  dsimp only
  rw [if_neg (by decide), if_pos (Or.inl rfl), asValue_queued]
  unfold Codec.applyExtraItem
  rw [rawMessageId_of_get rfl rfl hfits.2, if_neg (Nat.ne_of_gt hfits.1)]
  dsimp only [itemPayload, Option.getD_some]
  rw [hchannelId, hchannelType, Exec.bind_run,
    resolveMessageId_ofChannel h ht.channelId_pos hrow]
  dsimp only
  rw [hrevoke, Exec.bind_run, setMessageRevoke_run hfound]
  dsimp only
  rw [hedit, hpin]
  rfl

/-- The payload of the item that a reaction becomes. -/
def reactionMembers (t : Timeline) (S actorId : Nat) (emoji : String) (remove : Bool) :
    List (String × Json) :=
  [("message_id", .int S), ("uid", .int actorId), ("emoji", .str emoji),
    ("deleted", .bool remove), ("channel_id", .int t.channelId),
    ("channel_type", .int t.channelType)]

theorem commitEntry_reaction {actorId : Nat} {emoji : String} {remove : Bool}
    (hevent : c.canonicalEvent = some (.reactionChange S actorId emoji remove))
    (hchannel : c.channelId = t.channelId ∧ c.channelType = t.channelType) :
    commitEntry codec t c =
      { entityType := "message_reaction"
        scope := some t.scope
        item := queued .value
          { entityId := toString S ++ ":" ++ toString actorId ++ ":" ++ emoji
            version := c.pts
            deleted := false
            payload := some (.obj (reactionMembers t S actorId emoji remove)) } } := by
  unfold commitEntry Codec.syncItemFromDifferenceCommit
  rw [hevent]
  unfold reactionMembers
  rw [← hchannel.1, ← hchannel.2]
  rfl

/-- A reaction item whose parts are all there is written. -/
theorem applyReactionItem_calm
    (codec : Codec) (item : SyncEntityItem Json) {payload : Json}
    (hpayload : itemPayload item = payload) (hraw : rawMessageId item = S) (hS : 0 < S)
    (hchannelId : itemChannelId (some t.scope) payload = t.channelId)
    (hchannelType : itemChannelType (some t.scope) payload = t.channelType)
    {actorId : Nat} (hactor : 0 < actorId)
    (huid : jsonGetU64 payload ["uid", "user_id", "sender_id"] = some actorId)
    {emoji : String} (hemoji : emoji ≠ "")
    (htext : codec.jsonGetString payload ["emoji"] = some emoji)
    (ht : t.Known) (h : s.OfChannel t.channelId t.channelType)
    (hrow : s.byServerId S = some row) (now : Int) :
    codec.applyReactionItem (some t.scope) item (.calm now) s =
      (.ok .unit, s.afterReaction
        { channelId := t.channelId
          channelType := t.channelType
          uid := actorId
          name := (codec.jsonGetString payload ["name", "nickname"]).getD ""
          emoji := emoji
          messageId := row.id
          seq := (jsonGetI64 payload ["seq", "version"]).getD (wrapI64 item.version)
          isDeleted := item.deleted ||
            (jsonGetBool payload ["deleted", "is_deleted"]).getD false
          createdAt := (jsonGetI64 payload ["created_at"]).getD now }) := by
  have hid : 0 < row.id := h.ids row (List.mem_of_find?_eq_some hrow)
  unfold Codec.applyReactionItem
  simp only [hpayload, hraw, hchannelId, hchannelType, huid, htext, Option.getD_some]
  rw [if_pos hS, Exec.bind_run, resolveMessageId_ofChannel h ht.channelId_pos hrow]
  dsimp only
  split
  · rename_i hskip
    rcases hskip with hzero | hzero | hzero | hempty
    · exact absurd hzero (Nat.ne_of_gt hid)
    · exact absurd hzero (Nat.ne_of_gt ht.channelId_pos)
    · exact absurd hzero (Nat.ne_of_gt hactor)
    · exact absurd hempty hemoji
  · rw [nowMs_bind]
    exact exec_calm _ _ now s

theorem applyEntry_reaction
    (codec : Codec) (currentUid : Option Nat) {actorId : Nat} {emoji : String} {remove : Bool}
    (hevent : c.canonicalEvent = some (.reactionChange S actorId emoji remove))
    (hS : 0 < S ∧ S < 2 ^ 64) (hactor : 0 < actorId ∧ actorId < 2 ^ 64)
    (hemoji : emoji ≠ "") (ht : t.Known)
    (hchannel : c.channelId = t.channelId ∧ c.channelType = t.channelType)
    (h : s.OfChannel t.channelId t.channelType) (hrow : s.byServerId S = some row)
    (now : Int) :
    ∃ input : UpsertMessageReactionInput, input.messageId = row.id ∧
      input.uid = actorId ∧ input.emoji = emoji ∧ input.isDeleted = remove ∧
      applyEntry codec currentUid (commitEntry codec t c) (.calm now) s =
        (.ok .unit, s.afterReaction input) := by
  have hextra : ¬ ("message_reaction" = "message_extra" ∨
      "message_reaction" = "message_ext") := by decide
  rw [commitEntry_reaction hevent hchannel]
  unfold applyEntry applySyncEntity
  dsimp only
  rw [if_neg (by decide), if_neg hextra, if_pos (Or.inl rfl), asValue_queued]
  have hrun := applyReactionItem_calm codec
    { entityId := toString S ++ ":" ++ toString actorId ++ ":" ++ emoji
      version := c.pts
      deleted := false
      payload := some (.obj (reactionMembers t S actorId emoji remove)) }
    rfl (rawMessageId_of_get rfl rfl hS.2) hS.1 (itemChannelId_of_get rfl ht)
    (itemChannelType_scope ht rfl) hactor.1 (jsonGetU64_head rfl hactor.2) hemoji rfl ht h
    hrow now
  exact ⟨_, rfl, rfl, rfl, rfl, hrun⟩

/-- A mutation whose message is stored changes the view of it, and of no other. -/
theorem applyEntry_mutation
    (codec : Codec) (currentUid : Option Nat) {event : CanonicalTimelineEvent}
    (hevent : c.canonicalEvent = some event) (hfits : EventFits event)
    (htarget : mutationTarget c = some S) (ht : t.Known)
    (hchannel : c.channelId = t.channelId ∧ c.channelType = t.channelType)
    (h : s.OfChannel t.channelId t.channelType) (hrow : s.byServerId S = some row)
    (now : Int) :
    ∃ s', applyEntry codec currentUid (commitEntry codec t c) (.calm now) s =
        (.ok .unit, s') ∧
      s'.OfChannel t.channelId t.channelType ∧
      s'.view S = (s.view S).map (commitChange codec c).act ∧
      ∀ T, T ≠ S → s'.view T = s.view T := by
  unfold mutationTarget at htarget
  unfold commitChange
  rw [hevent] at htarget ⊢
  cases event with
  | newMessage messageType legacy =>
      cases htarget
  | revoke target revokedBy revokedAt =>
      cases htarget
      obtain ⟨revoker, hrun⟩ := applyEntry_revoke codec currentUid
        hevent hfits ht hchannel h hrow now
      exact ⟨_, hrun, h.afterRevoke hrow revoker now, view_afterRevoke hrow revoker now,
        fun T hne => view_afterRevoke_of_ne hrow revoker now hne⟩
  | reactionChange target actorId emoji remove =>
      cases htarget
      obtain ⟨hS, hactor, hemoji⟩ := hfits
      obtain ⟨input, hid, huid, htext, hdeleted, hrun⟩ := applyEntry_reaction
        codec currentUid hevent hS hactor hemoji ht hchannel h
        hrow now
      refine ⟨_, hrun, h.afterReaction hrow hid, ?_,
        fun T hne => view_afterReaction_of_ne hrow hid hne⟩
      rw [view_afterReaction hrow hid, huid, htext, hdeleted]
      rfl

end Mutations

end Difference
end PrivchatSdk
