import Mathlib.Data.List.Nodup
import PrivchatSdk.ReceivePipeline

/-!
# Which item a key stands for

The pipeline remembers the keys of the items it accepted last, and rejects an item
whose key is remembered.  A key joins the type, the scope, the id, the version and the
deletion with bars that none of them is kept from containing; a missing scope and an
empty one are the same.

Here every call is logged with the items it accepts, so that it can be said for which
item a key is remembered and in which order the items come out
(`pipeline_keys_and_order`).
-/

namespace PrivchatSdk
namespace Receive

universe u

section Texts

variable {π : Type u}

def Entry.key (e : Entry π) : String :=
  dedupeKey e.entityType e.scope e.item

/-- The part of the key in front of the version. -/
def Entry.text (e : Entry π) : String :=
  e.entityType ++ "|" ++ e.scope.getD "" ++ "|" ++ e.item.entityId

/-- What makes two items the same to the pipeline. -/
def Entry.identity (e : Entry π) : String × Option String × String × Nat × Bool :=
  (e.entityType, e.scope, e.item.entityId, e.item.version, e.item.deleted)

/-- The last separator splits a text in one way. -/
theorem append_separator_inj
    {sep : Char} {xs ys a b : List Char} (ha : sep ∉ a) (hb : sep ∉ b)
    (h : xs ++ sep :: a = ys ++ sep :: b) : xs = ys ∧ a = b := by
  induction xs generalizing ys with
  | nil =>
      cases ys with
      | nil =>
          exact ⟨rfl, (List.cons.inj h).2⟩
      | cons y ys =>
          have htail : a = ys ++ sep :: b := (List.cons.inj h).2
          exact absurd (htail ▸ List.mem_append_right ys List.mem_cons_self) ha
  | cons x xs ih =>
      cases ys with
      | nil =>
          have htail : xs ++ sep :: a = b := (List.cons.inj h).2
          exact absurd (htail ▸ List.mem_append_right xs List.mem_cons_self) hb
      | cons y ys =>
          obtain ⟨rfl, htail⟩ := List.cons.inj h
          obtain ⟨rfl, rfl⟩ := ih htail
          exact ⟨rfl, rfl⟩

theorem isDigit_of_mem_version {n : Nat} {ch : Char} (h : ch ∈ (toString n).toList) :
    ch.isDigit = true := by
  rw [Nat.toString_eq_ofList_toDigits, String.toList_ofList] at h
  exact Nat.isDigit_of_mem_toDigits (by decide) (by decide) h

theorem bar_not_mem_version (n : Nat) : '|' ∉ (toString n).toList :=
  fun hbar => absurd (isDigit_of_mem_version hbar) (by decide)

theorem bar_not_mem_deleted (b : Bool) : '|' ∉ (toString b).toList := by
  cases b with
  | false => decide
  | true => decide

theorem version_inj {n m : Nat} (h : (toString n).toList = (toString m).toList) :
    n = m := by
  rw [Nat.toString_eq_ofList_toDigits, Nat.toString_eq_ofList_toDigits,
    String.toList_ofList, String.toList_ofList] at h
  rw [← Nat.ofDigitChars_ten_toDigits (n := n), h, Nat.ofDigitChars_ten_toDigits]

theorem deleted_inj {a b : Bool} (h : (toString a).toList = (toString b).toList) :
    a = b := by
  revert h
  cases a <;> cases b <;> decide

/-- A key says the version, the deletion and the text in front of them, and no more. -/
theorem Entry.key_eq_iff (e e' : Entry π) :
    e.key = e'.key ↔ e.text = e'.text ∧ e.item.version = e'.item.version ∧
      e.item.deleted = e'.item.deleted := by
  have hsplit : ∀ x : Entry π, x.key.toList =
      (x.text.toList ++ '|' :: (toString x.item.version).toList) ++
        '|' :: (toString x.item.deleted).toList := by
    intro x
    simp [Entry.key, dedupeKey, Entry.text]
  constructor
  · intro h
    have hlist := congrArg String.toList h
    rw [hsplit, hsplit] at hlist
    obtain ⟨hfront, hdeleted⟩ := append_separator_inj (bar_not_mem_deleted _)
      (bar_not_mem_deleted _) hlist
    obtain ⟨htext, hversion⟩ := append_separator_inj (bar_not_mem_version _)
      (bar_not_mem_version _) hfront
    exact ⟨String.ext htext, version_inj hversion, deleted_inj hdeleted⟩
  · rintro ⟨htext, hversion, hdeleted⟩
    apply String.ext
    rw [hsplit, hsplit, htext, hversion, hdeleted]

theorem Entry.key_of_identity {e e' : Entry π} (h : e.identity = e'.identity) :
    e.key = e'.key := by
  obtain ⟨t, sc, ⟨id, v, d, p⟩⟩ := e
  obtain ⟨t', sc', ⟨id', v', d', p'⟩⟩ := e'
  simp only [Entry.identity, Prod.mk.injEq] at h
  obtain ⟨rfl, rfl, rfl, rfl, rfl⟩ := h
  rfl

/-- The first separator splits a text in one way. -/
theorem separator_append_inj
    {sep : Char} {xs ys a b : List Char} (hxs : sep ∉ xs) (hys : sep ∉ ys)
    (h : xs ++ sep :: a = ys ++ sep :: b) : xs = ys ∧ a = b := by
  have hreverse : a.reverse ++ sep :: xs.reverse = b.reverse ++ sep :: ys.reverse := by
    simpa using congrArg List.reverse h
  obtain ⟨htail, hhead⟩ := append_separator_inj (by simpa using hxs) (by simpa using hys)
    hreverse
  exact ⟨List.reverse_injective hhead, List.reverse_injective htail⟩

/-- Types and scopes without a bar keep the texts apart, if no scope is empty. -/
theorem Entry.text_inj
    {e e' : Entry π} (h : e.text = e'.text)
    (htype : '|' ∉ e.entityType.toList) (htype' : '|' ∉ e'.entityType.toList)
    (hscope : '|' ∉ (e.scope.getD "").toList) (hscope' : '|' ∉ (e'.scope.getD "").toList)
    (hempty : e.scope ≠ some "") (hempty' : e'.scope ≠ some "") :
    e.entityType = e'.entityType ∧ e.scope = e'.scope ∧
      e.item.entityId = e'.item.entityId := by
  have hsplit : ∀ x : Entry π, x.text.toList =
      x.entityType.toList ++ '|' :: ((x.scope.getD "").toList ++
        '|' :: x.item.entityId.toList) := by
    intro x
    simp [Entry.text]
  have hlist := congrArg String.toList h
  rw [hsplit, hsplit] at hlist
  obtain ⟨hfirst, hrest⟩ := separator_append_inj htype htype' hlist
  obtain ⟨hsecond, hthird⟩ := separator_append_inj hscope hscope' hrest
  refine ⟨String.ext hfirst, ?_, String.ext hthird⟩
  have hgetD := String.ext hsecond
  cases hs : e.scope with
  | none =>
      cases hs' : e'.scope with
      | none => rfl
      | some sc =>
          rw [hs, hs', Option.getD_none, Option.getD_some] at hgetD
          exact absurd (hs'.trans (congrArg some hgetD.symm)) hempty'
  | some sc =>
      cases hs' : e'.scope with
      | none =>
          rw [hs, hs', Option.getD_none, Option.getD_some] at hgetD
          exact absurd (hs.trans (congrArg some hgetD)) hempty
      | some sc' =>
          rw [hs, hs', Option.getD_some, Option.getD_some] at hgetD
          exact congrArg some hgetD

end Texts

section Log

variable {π : Type u}

/-- The calls of the pipeline; a drain takes everything out. -/
inductive QueueCall (π : Type u) where
  | enqueue (entityType : String) (scope : Option String)
      (items : List (SyncEntityItem π))
  | drain
  | requeue (batch : SyncBatch π)

/--
The pipeline, all items it accepted so far, what the last drain took out, and what
of it went back since.
-/
structure PipelineLog (π : Type u) where
  pipeline : ReceivePipeline π
  accepted : List (Entry π)
  drained : List (SyncBatch π)
  returned : List (SyncBatch π)

def PipelineLog.start (recentKeyLimit : Nat) : PipelineLog π where
  pipeline := .new recentKeyLimit
  accepted := []
  drained := []
  returned := []

def PipelineLog.step (l : PipelineLog π) : QueueCall π → PipelineLog π
  | .enqueue entityType scope items =>
      { l with
        pipeline := (l.pipeline.enqueue entityType scope items).2
        accepted := l.accepted ++
          acceptedEntries l.pipeline entityType scope items }
  | .drain =>
      { l with
        pipeline := (drainBatches l.pipeline).2
        drained := (drainBatches l.pipeline).1
        returned := [] }
  | .requeue batch =>
      { l with
        pipeline := l.pipeline.requeueFront batch
        returned := batch :: l.returned }

/-- The last accepted items, as many as keys are remembered. -/
def recentEntries (limit : Nat) (accepted : List (Entry π)) : List (Entry π) :=
  accepted.drop (accepted.length - limit)

/-- The turns of the items of an enqueue; `ok` is asked before each. -/
def EveryTurn
    (ok : ReceivePipeline π → List (Entry π) → Entry π → Prop)
    (entityType : String) (scope : Option String) :
    ReceivePipeline π → List (Entry π) → List (SyncEntityItem π) → Prop
  | _, _, [] => True
  | p, accepted, item :: items =>
      let e : Entry π := { entityType := entityType, scope := scope, item := item }
      ok p (recentEntries p.recentKeyLimit accepted) e ∧
        if e.key ∈ p.recentKeys then
          EveryTurn ok entityType scope p accepted items
        else
          EveryTurn ok entityType scope (p.rememberKey e.key) (accepted ++ [e]) items

/-- An item that is rejected is among the last accepted ones. -/
def RejectsSame (p : ReceivePipeline π) (recent : List (Entry π)) (e : Entry π) : Prop :=
  e.key ∈ p.recentKeys → ∃ r ∈ recent, r.identity = e.identity

/-- No other item of this text, version and deletion is among the last accepted ones. -/
def Unmistakable (_ : ReceivePipeline π) (recent : List (Entry π)) (e : Entry π) : Prop :=
  ∀ r ∈ recent, r.text = e.text → r.item.version = e.item.version →
    r.item.deleted = e.item.deleted → r.identity = e.identity

/-- Every item of the call meets the condition at its turn. -/
def PipelineLog.ItemsMeet
    (ok : ReceivePipeline π → List (Entry π) → Entry π → Prop) (l : PipelineLog π) :
    QueueCall π → Prop
  | .enqueue entityType scope items =>
      EveryTurn ok entityType scope l.pipeline l.accepted items
  | .drain => True
  | .requeue _ => True

/-- What goes back is of the last drain, and from before all that went back already. -/
def PipelineLog.ReturnsInOrder (l : PipelineLog π) : QueueCall π → Prop
  | .requeue batch => (batch :: l.returned).Sublist l.drained
  | _ => True

/-- The remembered keys are those of the last accepted items. -/
structure Remembers (p : ReceivePipeline π) (accepted : List (Entry π)) : Prop where
  kept : p.WellKept
  order : p.recentKeyOrder = (recentEntries p.recentKeyLimit accepted).map Entry.key

variable {p : ReceivePipeline π} {accepted : List (Entry π)} {e : Entry π}

theorem remembers_new (recentKeyLimit : Nat) :
    Remembers (.new recentKeyLimit) ([] : List (Entry π)) where
  kept := ReceivePipeline.wellKept_new recentKeyLimit
  order := by simp [ReceivePipeline.new, recentEntries]

/-- The queue does not matter. -/
theorem Remembers.withQueue (h : Remembers p accepted) (queue : List (SyncBatch π)) :
    Remembers { p with queue := queue } accepted where
  kept := { keys := h.kept.keys, nodup := h.kept.nodup }
  order := h.order

theorem Remembers.length_le (h : Remembers p accepted) :
    p.recentKeyOrder.length ≤ p.recentKeyLimit := by
  rw [h.order, List.length_map, recentEntries, List.length_drop]
  omega

/-- A key is remembered if it is that of one of the last accepted items. -/
theorem Remembers.mem_recentKeys (h : Remembers p accepted) :
    e.key ∈ p.recentKeys ↔
      ∃ r ∈ recentEntries p.recentKeyLimit accepted, r.key = e.key := by
  rw [h.kept.keys, List.mem_toFinset, h.order, List.mem_map]

/-- One more accepted item takes the place of the oldest. -/
theorem Remembers.rememberKey
    (h : Remembers p accepted) (hnew : e.key ∉ p.recentKeys) :
    Remembers (p.rememberKey e.key) (accepted ++ [e]) where
  kept := h.kept.rememberKey hnew
  order := by
    rw [ReceivePipeline.rememberKey_order, h.order]
    change _ = (recentEntries p.recentKeyLimit (accepted ++ [e])).map Entry.key
    unfold recentEntries
    rw [List.length_map, List.length_drop, List.length_append, List.length_singleton,
      ← List.map_singleton, ← List.map_append, ← List.map_drop]
    congr 1
    have hback : (accepted ++ [e]).drop (accepted.length - p.recentKeyLimit) =
        accepted.drop (accepted.length - p.recentKeyLimit) ++ [e] :=
      List.drop_append_of_le_length (Nat.sub_le _ _)
    rw [← hback, List.drop_drop]
    congr 1
    omega

theorem acceptedEntries_cons
    (p : ReceivePipeline π) (entityType : String) (scope : Option String)
    (item : SyncEntityItem π) (items : List (SyncEntityItem π)) :
    acceptedEntries p entityType scope (item :: items) =
      if dedupeKey entityType scope item ∈ p.recentKeys then
        acceptedEntries p entityType scope items
      else
        { entityType := entityType, scope := scope, item := item } ::
          acceptedEntries (p.rememberKey (dedupeKey entityType scope item))
            entityType scope items := by
  unfold acceptedEntries
  rw [ReceivePipeline.acceptItems]
  dsimp only
  split
  · rfl
  · rfl

/-- The loop of an enqueue leaves the keys of what it accepts. -/
theorem Remembers.acceptItems
    (h : Remembers p accepted) (entityType : String) (scope : Option String)
    (items : List (SyncEntityItem π)) :
    Remembers (p.acceptItems entityType scope items).2.2
      (accepted ++ acceptedEntries p entityType scope items) := by
  induction items generalizing p accepted with
  | nil =>
      change Remembers p (accepted ++ [])
      rwa [List.append_nil]
  | cons item items ih =>
      rw [acceptedEntries_cons, ReceivePipeline.acceptItems]
      dsimp only
      split
      · exact ih h
      · rename_i hnew
        have hnext := ih (Remembers.rememberKey (e :=
          { entityType := entityType, scope := scope, item := item }) h hnew)
        rwa [List.append_assoc, List.singleton_append] at hnext

/-- An item is rejected for the right reason iff nothing is taken for it. -/
theorem Remembers.rejectsSame_iff (h : Remembers p accepted) :
    RejectsSame p (recentEntries p.recentKeyLimit accepted) e ↔
      Unmistakable p (recentEntries p.recentKeyLimit accepted) e := by
  have hnodup : ((recentEntries p.recentKeyLimit accepted).map Entry.key).Nodup :=
    h.order ▸ h.kept.nodup
  constructor
  · intro hsame r hr htext hversion hdeleted
    have hkey : r.key = e.key := (Entry.key_eq_iff r e).mpr ⟨htext, hversion, hdeleted⟩
    obtain ⟨r', hr', hidentity⟩ := hsame (h.mem_recentKeys.mpr ⟨r, hr, hkey⟩)
    have hkeys : r'.key = r.key := (Entry.key_of_identity hidentity).trans hkey.symm
    have hone := List.inj_on_of_nodup_map hnodup hr' hr hkeys
    exact hone ▸ hidentity
  · intro hclear hkey
    obtain ⟨r, hr, hsame⟩ := h.mem_recentKeys.mp hkey
    obtain ⟨htext, hversion, hdeleted⟩ := (Entry.key_eq_iff r e).mp hsame
    exact ⟨r, hr, hclear r hr htext hversion hdeleted⟩

theorem Remembers.everyTurn_iff
    (h : Remembers p accepted) (entityType : String) (scope : Option String)
    (items : List (SyncEntityItem π)) :
    EveryTurn RejectsSame entityType scope p accepted items ↔
      EveryTurn Unmistakable entityType scope p accepted items := by
  induction items generalizing p accepted with
  | nil =>
      exact Iff.rfl
  | cons item items ih =>
      unfold EveryTurn
      dsimp only
      refine and_congr h.rejectsSame_iff ?_
      split
      · exact ih h
      · rename_i hnew
        exact ih (h.rememberKey hnew)

variable {l : PipelineLog π}

theorem remembers_step (h : Remembers l.pipeline l.accepted) (call : QueueCall π) :
    Remembers (l.step call).pipeline (l.step call).accepted := by
  cases call with
  | enqueue entityType scope items =>
      have haccept := h.acceptItems entityType scope items
      change Remembers (l.pipeline.enqueue entityType scope items).2 _
      unfold ReceivePipeline.enqueue
      dsimp only
      split
      · exact haccept
      · exact haccept.withQueue _
  | drain =>
      change Remembers (drainBatches l.pipeline).2 l.accepted
      rw [drainBatches_eq]
      exact h.withQueue []
  | requeue batch =>
      exact h.withQueue _

theorem recentKeyLimit_acceptItems
    (p : ReceivePipeline π) (entityType : String) (scope : Option String)
    (items : List (SyncEntityItem π)) :
    (p.acceptItems entityType scope items).2.2.recentKeyLimit = p.recentKeyLimit := by
  induction items generalizing p with
  | nil =>
      rfl
  | cons item items ih =>
      rw [ReceivePipeline.acceptItems]
      dsimp only
      split
      · exact ih p
      · exact ih (p.rememberKey _)

theorem recentKeyLimit_step (l : PipelineLog π) (call : QueueCall π) :
    (l.step call).pipeline.recentKeyLimit = l.pipeline.recentKeyLimit := by
  cases call with
  | enqueue entityType scope items =>
      have haccept := recentKeyLimit_acceptItems l.pipeline entityType scope items
      change (l.pipeline.enqueue entityType scope items).2.recentKeyLimit = _
      unfold ReceivePipeline.enqueue
      dsimp only
      split
      · exact haccept
      · exact haccept
  | drain =>
      change (drainBatches l.pipeline).2.recentKeyLimit = _
      rw [drainBatches_eq]
  | requeue batch =>
      rfl

/--
In front of the queue is what went back, in the order of the last drain, and behind
it what was accepted since.
-/
def PipelineLog.InOrder (l : PipelineLog π) : Prop :=
  ∃ fresh, l.pipeline.queue = l.returned ++ fresh ∧
    l.returned.Sublist l.drained ∧
    (entriesOf l.drained ++ entriesOf fresh).Sublist l.accepted

theorem entriesOf_sublist {batches batches' : List (SyncBatch π)}
    (h : batches.Sublist batches') :
    (entriesOf batches).Sublist (entriesOf batches') := by
  unfold entriesOf
  induction h with
  | slnil =>
      exact List.Sublist.refl _
  | cons batch _ ih =>
      rw [List.flatMap_cons]
      exact ih.trans (List.sublist_append_right _ _)
  | cons_cons batch _ ih =>
      rw [List.flatMap_cons, List.flatMap_cons]
      exact ih.append_left _

/-- What a drain takes out was accepted in this order. -/
theorem PipelineLog.InOrder.waiting (h : l.InOrder) :
    (entriesOf (drainBatches l.pipeline).1).Sublist l.accepted := by
  obtain ⟨fresh, hqueue, hreturned, hentries⟩ := h
  have hsplit : entriesOf (l.returned ++ fresh) =
      entriesOf l.returned ++ entriesOf fresh := List.flatMap_append
  rw [drainBatches_eq, hqueue, hsplit]
  exact ((entriesOf_sublist hreturned).append (List.Sublist.refl _)).trans hentries

theorem PipelineLog.InOrder.step
    (h : l.InOrder) {call : QueueCall π} (hcall : l.ReturnsInOrder call) :
    (l.step call).InOrder := by
  cases call with
  | enqueue entityType scope items =>
      obtain ⟨fresh, hqueue, hreturned, hentries⟩ := h
      obtain ⟨more, henqueue, hmore⟩ :
          ∃ more, (l.pipeline.enqueue entityType scope items).2.queue =
              l.pipeline.queue ++ more ∧
            entriesOf more = acceptedEntries l.pipeline entityType scope items :=
        ⟨_, enqueue_queue .., entriesOf_enqueued ..⟩
      refine ⟨fresh ++ more, ?_, hreturned, ?_⟩
      · change (l.pipeline.enqueue entityType scope items).2.queue = _
        rw [henqueue, hqueue, List.append_assoc]
        rfl
      · have hsplit : entriesOf (fresh ++ more) = entriesOf fresh ++ entriesOf more :=
          List.flatMap_append
        rw [hsplit, hmore, ← List.append_assoc]
        exact hentries.append_right _
  | drain =>
      refine ⟨[], ?_, List.nil_sublist _, ?_⟩
      · change (drainBatches l.pipeline).2.queue = []
        rw [drainBatches_eq]
      · have hout := h.waiting
        change (entriesOf (drainBatches l.pipeline).1 ++ []).Sublist l.accepted
        rwa [List.append_nil]
  | requeue batch =>
      obtain ⟨fresh, hqueue, hreturned, hentries⟩ := h
      refine ⟨fresh, ?_, hcall, hentries⟩
      change batch :: l.pipeline.queue = batch :: l.returned ++ fresh
      rw [hqueue, List.cons_append]

theorem Remembers.itemsMeet_iff
    (h : Remembers l.pipeline l.accepted) (call : QueueCall π) :
    l.ItemsMeet RejectsSame call ↔ l.ItemsMeet Unmistakable call := by
  cases call with
  | enqueue entityType scope items =>
      exact h.everyTurn_iff entityType scope items
  | drain =>
      exact Iff.rfl
  | requeue batch =>
      exact Iff.rfl

/-- Nothing is taken for another item in exactly the runs that reject only the same. -/
theorem guarded_rejectsSame_iff (recentKeyLimit : Nat) (calls : List (QueueCall π)) :
    EventRun.Guarded PipelineLog.step (PipelineLog.ItemsMeet RejectsSame)
        (.start recentKeyLimit) calls ↔
      EventRun.Guarded PipelineLog.step (PipelineLog.ItemsMeet Unmistakable)
        (.start recentKeyLimit) calls := by
  constructor
  · intro hmeet
    exact hmeet.entails (fun l => Remembers l.pipeline l.accepted)
      (fun l call h hcall => ⟨remembers_step h call, (h.itemsMeet_iff call).mp hcall⟩)
      (remembers_new recentKeyLimit)
  · intro hmeet
    exact hmeet.entails (fun l => Remembers l.pipeline l.accepted)
      (fun l call h hcall => ⟨remembers_step h call, (h.itemsMeet_iff call).mpr hcall⟩)
      (remembers_new recentKeyLimit)

/-- No bar in the type and the scope of a lane, and no empty scope. -/
structure PlainLane (entityType : String) (scope : Option String) : Prop where
  typeBarless : '|' ∉ entityType.toList
  scopeBarless : '|' ∉ (scope.getD "").toList
  nonempty : scope ≠ some ""

def QueueCall.Plain : QueueCall π → Prop
  | .enqueue entityType scope _ => PlainLane entityType scope
  | _ => True

theorem everyTurn_of_plain
    {entityType : String} {scope : Option String} (hlane : PlainLane entityType scope)
    (haccepted : ∀ e ∈ accepted, PlainLane e.entityType e.scope)
    (items : List (SyncEntityItem π)) :
    EveryTurn Unmistakable entityType scope p accepted items := by
  induction items generalizing p accepted with
  | nil => trivial
  | cons item items ih =>
      refine ⟨?_, ?_⟩
      · intro r hr htext hversion hdeleted
        have hplain := haccepted r (List.mem_of_mem_drop hr)
        obtain ⟨htype, hscope, hid⟩ := Entry.text_inj htext hplain.typeBarless
          hlane.typeBarless hplain.scopeBarless hlane.scopeBarless hplain.nonempty hlane.nonempty
        simp only [Entry.identity, htype, hscope, hid, hversion, hdeleted]
      · split
        · exact ih haccepted
        · refine ih ?_
          intro e he
          rcases List.mem_append.mp he with he | he
          · exact haccepted e he
          · rw [List.mem_singleton.mp he]
            exact hlane

/-- In plain lanes only an item that was accepted before is rejected. -/
theorem rejectsSame_of_plain
    (recentKeyLimit : Nat) (calls : List (QueueCall π))
    (hplain : EventRun.Guarded PipelineLog.step (fun _ call => call.Plain)
      (.start recentKeyLimit) calls) :
    EventRun.Guarded PipelineLog.step (PipelineLog.ItemsMeet RejectsSame)
      (.start recentKeyLimit) calls := by
  refine (guarded_rejectsSame_iff recentKeyLimit calls).mpr ?_
  refine hplain.entails
    (fun l => ∀ e ∈ l.accepted, PlainLane e.entityType e.scope) ?_ (by
      intro e he
      cases he)
  intro l call haccepted hcall
  cases call with
  | enqueue entityType scope items =>
      refine ⟨?_, everyTurn_of_plain hcall haccepted items⟩
      intro e he
      rcases List.mem_append.mp he with he | he
      · exact haccepted e he
      · obtain ⟨item, -, rfl⟩ := List.mem_map.mp he
        exact hcall
  | drain => exact ⟨haccepted, trivial⟩
  | requeue batch => exact ⟨haccepted, trivial⟩

/--
The remembered keys are exactly those in the order list, each once and no more than
the limit; every rejected item is among the last accepted ones in exactly the runs in
which no other item is taken for it; and items come out in the order in which they
were accepted, in every lane, if what goes back goes back in order.
-/
theorem pipeline_keys_and_order
    (recentKeyLimit : Nat) (calls : List (QueueCall π)) :
    let start : PipelineLog π := .start recentKeyLimit
    let l := EventRun.run PipelineLog.step start calls
    (l.pipeline.recentKeys = l.pipeline.recentKeyOrder.toFinset ∧
        l.pipeline.recentKeyOrder.Nodup ∧
        l.pipeline.recentKeyOrder.length ≤ max recentKeyLimit 512) ∧
      (EventRun.Guarded PipelineLog.step (PipelineLog.ItemsMeet RejectsSame) start calls ↔
        EventRun.Guarded PipelineLog.step (PipelineLog.ItemsMeet Unmistakable) start
          calls) ∧
      (EventRun.Guarded PipelineLog.step PipelineLog.ReturnsInOrder start calls →
        ∀ entityType scope,
          ((entriesOf (drainBatches l.pipeline).1).filter (fun e =>
            e.entityType == entityType && e.scope == scope)).Sublist
          (l.accepted.filter (fun e =>
            e.entityType == entityType && e.scope == scope))) := by
  intro start l
  have hremembers : ∀ calls : List (QueueCall π),
      Remembers (EventRun.run PipelineLog.step start calls).pipeline
        (EventRun.run PipelineLog.step start calls).accepted :=
    EventRun.run_invariant (fun l : PipelineLog π => Remembers l.pipeline l.accepted)
      (fun _ call h => remembers_step h call) (remembers_new recentKeyLimit)
  have hlimit : l.pipeline.recentKeyLimit = max recentKeyLimit 512 :=
    EventRun.run_invariant
      (fun l : PipelineLog π => l.pipeline.recentKeyLimit = max recentKeyLimit 512)
      (fun l call h => (recentKeyLimit_step l call).trans h) rfl calls
  have hl : Remembers l.pipeline l.accepted := hremembers calls
  refine ⟨⟨hl.kept.keys, hl.kept.nodup, hlimit ▸ hl.length_le⟩,
    guarded_rejectsSame_iff recentKeyLimit calls, ?_⟩
  · intro hreturns entityType scope
    have hstart : start.InOrder :=
      ⟨[], rfl, List.Sublist.refl _, List.Sublist.refl _⟩
    have horder : l.InOrder := hreturns.invariant PipelineLog.InOrder
      (fun _ _ h hcall => h.step hcall) hstart
    exact horder.waiting.filter _

/--
Two items of different scopes share a key, and the second is rejected; and two batches
that go back in the order in which they came out come out the wrong way round.
-/
theorem shared_key_rejected :
    ¬ EventRun.Guarded PipelineLog.step (PipelineLog.ItemsMeet RejectsSame)
        (.start 512 : PipelineLog Unit)
        [.enqueue "reaction" (some "1") [plainItem "2|3" 7],
          .enqueue "reaction" (some "1|2") [plainItem "3" 7]] ∧
      ¬ (let l := EventRun.run PipelineLog.step (.start 512 : PipelineLog Unit)
          [.enqueue "reaction" none [plainItem "1" 7],
            .enqueue "reaction" none [plainItem "2" 8],
            .drain,
            .requeue { entityType := "reaction", scope := none,
                       items := [plainItem "1" 7] },
            .requeue { entityType := "reaction", scope := none,
                       items := [plainItem "2" 8] }]
        (entriesOf (drainBatches l.pipeline).1).Sublist l.accepted) := by
  constructor
  · rintro ⟨-, ⟨hsame, -⟩, -⟩
    obtain ⟨r, hr, hidentity⟩ := hsame (by decide +kernel)
    revert r
    decide +kernel
  · decide +kernel

end Log

end Receive
end PrivchatSdk
