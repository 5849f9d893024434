import Mathlib.Data.List.Basic
import Mathlib.Logic.Function.Basic
import PrivchatSdk.Lib.Run

/-!
# The event history and its consumer

An emitter takes a sequence id in one step and pushes its event into the history
in another.  A consumer asks for the events after the largest id it has.

When an emitter pushes after one that took its id later, the history is out of
order, and a consumer that was there in between never gets the event
(`overtaken_event_skipped`).  The history and the consumer are in order after
every step exactly when the pushes are (`bus_inOrder_iff`).
-/

namespace PrivchatSdk

open EventRun

variable {α : Type}

section Model

structure SequencedSdkEvent (α : Type) where
  sequenceId : Nat
  timestampMs : Int
  event : α
  deriving DecidableEq, Repr

/-- `DEFAULT_EVENT_HISTORY_LIMIT`. -/
def eventHistoryLimit : Nat := 1024

/--
The counter, the history with its oldest event first, the emitters between their
two steps, and what the consumer received, oldest first.
-/
structure EventBus (α : Type) where
  eventSeq : Nat
  eventHistory : List (SequencedSdkEvent α)
  emitting : Nat → Option (SequencedSdkEvent α)
  received : List (SequencedSdkEvent α)

def EventBus.initial : EventBus α where
  eventSeq := 0
  eventHistory := []
  emitting _ := none
  received := []

/-- The first step of `emit_sequenced_event`, up to its envelope. -/
def EventBus.takeSequenceId
    (s : EventBus α) (emitter : Nat) (timestampMs : Int) (event : α) :
    EventBus α :=
  { s with
    eventSeq := s.eventSeq + 1
    emitting := Function.update s.emitting emitter
      (some ⟨s.eventSeq + 1, timestampMs, event⟩) }

/-- Push to the back, and pop from the front what is over the limit. -/
def pushHistory
    (history : List (SequencedSdkEvent α)) (envelope : SequencedSdkEvent α) :
    List (SequencedSdkEvent α) :=
  let locked := history ++ [envelope]
  locked.drop (locked.length - eventHistoryLimit)

/-- The second step of `emit_sequenced_event`, under the lock. -/
def EventBus.push
    (s : EventBus α) (emitter : Nat) (envelope : SequencedSdkEvent α) :
    EventBus α :=
  { s with
    eventHistory := pushHistory s.eventHistory envelope
    emitting := Function.update s.emitting emitter none }

/-- `events_since`. -/
def EventBus.eventsSince (s : EventBus α) (fromSequenceId limit : Nat) :
    List (SequencedSdkEvent α) :=
  let capped := min limit eventHistoryLimit
  if capped = 0 then
    []
  else
    (s.eventHistory.filter (fun evt => fromSequenceId < evt.sequenceId)).take capped

/-- The largest id among the events, or 0. -/
def largestId (events : List (SequencedSdkEvent α)) : Nat :=
  (events.map SequencedSdkEvent.sequenceId).max?.getD 0

/-- The largest id that the consumer received. -/
def EventBus.cursor (s : EventBus α) : Nat :=
  largestId s.received

@[simp] theorem EventBus.push_eventSeq
    (s : EventBus α) (emitter : Nat) (envelope : SequencedSdkEvent α) :
    (s.push emitter envelope).eventSeq = s.eventSeq := by
  rw [EventBus.push]

@[simp] theorem EventBus.push_received
    (s : EventBus α) (emitter : Nat) (envelope : SequencedSdkEvent α) :
    (s.push emitter envelope).received = s.received := by
  rw [EventBus.push]

@[simp] theorem EventBus.push_eventHistory
    (s : EventBus α) (emitter : Nat) (envelope : SequencedSdkEvent α) :
    (s.push emitter envelope).eventHistory =
      pushHistory s.eventHistory envelope := by
  rw [EventBus.push]

inductive BusEvent (α : Type) where
  | take (emitter : Nat) (timestampMs : Int) (event : α)
  | push (emitter : Nat)
  | poll (limit : Nat)
  deriving DecidableEq, Repr

/-- An emitter takes its next id after it pushed the one before. -/
def EventBus.step (s : EventBus α) : BusEvent α → EventBus α
  | .take emitter timestampMs event =>
      match s.emitting emitter with
      | none => s.takeSequenceId emitter timestampMs event
      | some _ => s
  | .push emitter =>
      match s.emitting emitter with
      | none => s
      | some envelope => s.push emitter envelope
  | .poll limit => { s with received := s.received ++ s.eventsSince s.cursor limit }

end Model

section Orders

/-- The events come with increasing ids. -/
def Increasing (events : List (SequencedSdkEvent α)) : Prop :=
  events.Pairwise (fun x y => x.sequenceId < y.sequenceId)

theorem le_largestId
    {events : List (SequencedSdkEvent α)} {x : SequencedSdkEvent α}
    (hx : x ∈ events) : x.sequenceId ≤ largestId events :=
  List.le_max?_getD_of_mem (List.mem_map_of_mem hx)

/-- The largest id is one of the ids, unless it is 0. -/
theorem largestId_mem
    {events : List (SequencedSdkEvent α)} (hpos : 0 < largestId events) :
    ∃ x ∈ events, x.sequenceId = largestId events := by
  unfold largestId at hpos ⊢
  cases hmax : (events.map SequencedSdkEvent.sequenceId).max? with
  | none =>
      rw [hmax] at hpos
      exact absurd hpos (Nat.lt_irrefl 0)
  | some n =>
      exact List.mem_map.mp (List.max?_mem hmax)

theorem largestId_le_iff {events : List (SequencedSdkEvent α)} {n : Nat} :
    largestId events ≤ n ↔ ∀ x ∈ events, x.sequenceId ≤ n := by
  constructor
  · intro hle x hx
    exact Nat.le_trans (le_largestId hx) hle
  · intro hall
    by_contra hlarge
    obtain ⟨x, hx, heq⟩ := @largestId_mem α events (by omega)
    have hle := hall x hx
    omega

/-- What lies before a taken event is taken. -/
theorem mem_take_of_le
    {events : List (SequencedSdkEvent α)} {x y : SequencedSdkEvent α} {k : Nat}
    (hincreasing : Increasing events) (hx : x ∈ events) (hy : y ∈ events.take k)
    (hle : x.sequenceId ≤ y.sequenceId) : x ∈ events.take k := by
  rw [Increasing, ← List.take_append_drop k events, List.pairwise_append]
    at hincreasing
  rw [← List.take_append_drop k events, List.mem_append] at hx
  rcases hx with hx | hx
  · exact hx
  · have hlt := hincreasing.2.2 y hy x hx
    omega

end Orders

section Invariants

/-- The ids are given out once, and an event between the steps is in no list. -/
structure EventBus.Distinct (s : EventBus α) : Prop where
  emitting : ∀ w x, s.emitting w = some x → x.sequenceId ≤ s.eventSeq
  emitters : ∀ w w' x y, s.emitting w = some x → s.emitting w' = some y →
    x.sequenceId = y.sequenceId → w = w'
  listed : ∀ x, x ∈ s.eventHistory ∨ x ∈ s.received → x.sequenceId ≤ s.eventSeq
  apart : ∀ w x, s.emitting w = some x →
    ∀ y, y ∈ s.eventHistory ∨ y ∈ s.received → y.sequenceId ≠ x.sequenceId

/--
The history and what the consumer received are in order, and the consumer has
passed no event of the history without receiving it.
-/
structure EventBus.InOrder (s : EventBus α) : Prop where
  history : Increasing s.eventHistory
  received : Increasing s.received
  complete : ∀ x ∈ s.eventHistory, x.sequenceId ≤ s.cursor → x ∈ s.received

/-- A push comes after what the history holds and what the consumer has. -/
def BusEvent.InOrder (s : EventBus α) : BusEvent α → Prop
  | .push emitter =>
      ∀ x, s.emitting emitter = some x →
        (∀ y ∈ s.eventHistory, y.sequenceId < x.sequenceId) ∧
          s.cursor < x.sequenceId
  | _ => True

variable {s : EventBus α}

theorem mem_pushHistory
    {history : List (SequencedSdkEvent α)} {envelope x : SequencedSdkEvent α}
    (hx : x ∈ pushHistory history envelope) : x ∈ history ∨ x = envelope := by
  have hmem := List.mem_of_mem_drop hx
  rwa [List.mem_append, List.mem_singleton] at hmem

theorem mem_eventsSince
    {fromSequenceId limit : Nat} {x : SequencedSdkEvent α}
    (hx : x ∈ s.eventsSince fromSequenceId limit) :
    x ∈ s.eventHistory ∧ fromSequenceId < x.sequenceId := by
  unfold EventBus.eventsSince at hx
  dsimp only at hx
  split at hx
  · cases hx
  · simpa using List.mem_of_mem_take hx

theorem EventBus.Distinct.initial : (EventBus.initial : EventBus α).Distinct where
  emitting _ _ h := nomatch h
  emitters _ _ _ _ h := nomatch h
  listed _ h := by
    rcases h with h | h <;> cases h
  apart _ _ h := nomatch h

theorem EventBus.InOrder.initial : (EventBus.initial : EventBus α).InOrder where
  history := .nil
  received := .nil
  complete _ hx := nomatch hx

theorem EventBus.Distinct.takeSequenceId
    (hs : s.Distinct) (emitter : Nat) (timestampMs : Int) (event : α) :
    (s.takeSequenceId emitter timestampMs event).Distinct := by
  have hcases : ∀ w x,
      (s.takeSequenceId emitter timestampMs event).emitting w = some x →
        (w = emitter ∧ x.sequenceId = s.eventSeq + 1) ∨ s.emitting w = some x := by
    intro w x hx
    simp only [EventBus.takeSequenceId, Function.update_apply] at hx
    split at hx
    · rename_i hw
      cases hx
      exact .inl ⟨hw, rfl⟩
    · exact .inr hx
  refine ⟨fun w x hx => ?_, fun w w' x y hx hy heq => ?_, fun x hx => ?_,
    fun w x hx y hy => ?_⟩
  · rcases hcases w x hx with ⟨-, hid⟩ | hwas
    · exact Nat.le_of_eq hid
    · exact Nat.le_succ_of_le (hs.emitting w x hwas)
  · rcases hcases w x hx with ⟨rfl, hid⟩ | hwas
    · rcases hcases w' y hy with ⟨rfl, -⟩ | hwas'
      · rfl
      · have hle := hs.emitting w' y hwas'
        omega
    · rcases hcases w' y hy with ⟨rfl, hid⟩ | hwas'
      · have hle := hs.emitting w x hwas
        omega
      · exact hs.emitters w w' x y hwas hwas' heq
  · exact Nat.le_succ_of_le (hs.listed x hx)
  · have hle := hs.listed y hy
    rcases hcases w x hx with ⟨-, hid⟩ | hwas
    · omega
    · exact hs.apart w x hwas y hy

theorem EventBus.Distinct.push
    (hs : s.Distinct) {emitter : Nat} {envelope : SequencedSdkEvent α}
    (hpending : s.emitting emitter = some envelope) :
    (s.push emitter envelope).Distinct := by
  have hcases : ∀ w x, (s.push emitter envelope).emitting w = some x →
      w ≠ emitter ∧ s.emitting w = some x := by
    intro w x hx
    simp only [EventBus.push, Function.update_apply] at hx
    split at hx
    · cases hx
    · exact ⟨‹_›, hx⟩
  have hlisted : ∀ x, x ∈ (s.push emitter envelope).eventHistory ∨
      x ∈ (s.push emitter envelope).received →
      (x ∈ s.eventHistory ∨ x ∈ s.received) ∨ x = envelope := by
    intro x hx
    rw [EventBus.push_eventHistory, EventBus.push_received] at hx
    rcases hx with hx | hx
    · rcases mem_pushHistory hx with hx | hx
      · exact .inl (.inl hx)
      · exact .inr hx
    · exact .inl (.inr hx)
  refine ⟨fun w x hx => ?_,
    fun w w' x y hx hy => hs.emitters w w' x y (hcases w x hx).2 (hcases w' y hy).2,
    fun x hx => ?_, fun w x hx y hy => ?_⟩
  · rw [EventBus.push_eventSeq]
    exact hs.emitting w x (hcases w x hx).2
  · rw [EventBus.push_eventSeq]
    rcases hlisted x hx with hx | rfl
    · exact hs.listed x hx
    · exact hs.emitting emitter x hpending
  · obtain ⟨hw, hwas⟩ := hcases w x hx
    rcases hlisted y hy with hy | rfl
    · exact hs.apart w x hwas y hy
    · exact fun heq => hw (hs.emitters w emitter x y hwas hpending heq.symm)

theorem EventBus.Distinct.step (hs : s.Distinct) (e : BusEvent α) :
    (s.step e).Distinct := by
  cases e with
  | take emitter timestampMs event =>
      unfold EventBus.step
      dsimp only
      split
      · exact hs.takeSequenceId emitter timestampMs event
      · exact hs
  | push emitter =>
      unfold EventBus.step
      dsimp only
      split
      · exact hs
      · rename_i envelope hpending
        exact hs.push hpending
  | poll limit =>
      have hlisted : ∀ x, x ∈ s.eventHistory ∨
          x ∈ s.received ++ s.eventsSince s.cursor limit →
          x ∈ s.eventHistory ∨ x ∈ s.received := by
        intro x hx
        rcases hx with hx | hx
        · exact .inl hx
        · rcases List.mem_append.mp hx with hx | hx
          · exact .inr hx
          · exact .inl (mem_eventsSince hx).1
      exact ⟨hs.emitting, hs.emitters, fun x hx => hs.listed x (hlisted x hx),
        fun w x hx y hy => hs.apart w x hx y (hlisted y hy)⟩

theorem eventsSince_sublist (fromSequenceId limit : Nat) :
    (s.eventsSince fromSequenceId limit).Sublist s.eventHistory := by
  unfold EventBus.eventsSince
  dsimp only
  split
  · exact List.nil_sublist _
  · exact (List.take_sublist _ _).trans List.filter_sublist

/-- An answer leaves out no event before one that it holds. -/
theorem eventsSince_closed
    (hs : Increasing s.eventHistory) {fromSequenceId limit : Nat}
    {x y : SequencedSdkEvent α} (hx : x ∈ s.eventHistory)
    (hafter : fromSequenceId < x.sequenceId)
    (hy : y ∈ s.eventsSince fromSequenceId limit)
    (hle : x.sequenceId ≤ y.sequenceId) :
    x ∈ s.eventsSince fromSequenceId limit := by
  unfold EventBus.eventsSince at hy ⊢
  dsimp only at hy ⊢
  split at hy
  · cases hy
  · rename_i hcapped
    rw [if_neg hcapped]
    refine mem_take_of_le (hs.sublist List.filter_sublist) ?_ hy hle
    simp [hx, hafter]

/-- The consumer goes on with the events after its cursor. -/
theorem EventBus.InOrder.poll (hs : s.InOrder) (limit : Nat) :
    (s.step (.poll limit)).InOrder := by
  refine ⟨hs.history, ?_, fun x hx hle => ?_⟩
  · refine List.pairwise_append.mpr
      ⟨hs.received, hs.history.sublist (eventsSince_sublist _ _), ?_⟩
    intro x hx y hy
    have hcursor : x.sequenceId ≤ s.cursor := le_largestId hx
    have hlt := (mem_eventsSince hy).2
    omega
  · by_cases hold : x.sequenceId ≤ s.cursor
    · exact List.mem_append_left _ (hs.complete x hx hold)
    · have hpos : 0 < largestId (s.received ++ s.eventsSince s.cursor limit) :=
        Nat.lt_of_lt_of_le (by omega) hle
      obtain ⟨y, hy, heq⟩ := largestId_mem hpos
      have hxy : x.sequenceId ≤ y.sequenceId := Nat.le_trans hle (Nat.le_of_eq heq.symm)
      rcases List.mem_append.mp hy with hy | hy
      · have hcursor : y.sequenceId ≤ s.cursor := le_largestId hy
        omega
      · exact List.mem_append_right _
          (eventsSince_closed hs.history hx (by omega) hy hxy)

/-- The history keeps the last two events that were pushed. -/
theorem pushHistory_concat
    (front : List (SequencedSdkEvent α)) (last envelope : SequencedSdkEvent α) :
    ∃ kept, pushHistory (front ++ [last]) envelope = kept ++ [last, envelope] := by
  refine ⟨front.drop (front.length + 2 - eventHistoryLimit), ?_⟩
  have hlength : (front ++ [last] ++ [envelope]).length = front.length + 2 := by
    simp
  unfold pushHistory
  dsimp only
  rw [hlength, List.append_assoc, List.singleton_append,
    List.drop_append_of_le_length]
  unfold eventHistoryLimit
  omega

theorem mem_pushHistory_self
    (history : List (SequencedSdkEvent α)) (envelope : SequencedSdkEvent α) :
    envelope ∈ pushHistory history envelope := by
  rcases List.eq_nil_or_concat history with rfl | ⟨front, last, rfl⟩
  · simp [pushHistory, eventHistoryLimit]
  · obtain ⟨kept, heq⟩ := pushHistory_concat front last envelope
    rw [List.concat_eq_append, heq]
    simp

/-- A push keeps the order exactly when it comes in order. -/
theorem EventBus.InOrder.push_iff
    (hdistinct : s.Distinct) (hs : s.InOrder) {emitter : Nat}
    {envelope : SequencedSdkEvent α}
    (hpending : s.emitting emitter = some envelope) :
    (s.push emitter envelope).InOrder ↔
      (∀ y ∈ s.eventHistory, y.sequenceId < envelope.sequenceId) ∧
        s.cursor < envelope.sequenceId := by
  constructor
  · rintro ⟨hhistory, -, hcomplete⟩
    rw [EventBus.push_eventHistory] at hhistory hcomplete
    rw [EventBus.push_received] at hcomplete
    refine ⟨fun y hy => ?_, ?_⟩
    · rcases List.eq_nil_or_concat s.eventHistory with hnil | ⟨front, last, heq⟩
      · rw [hnil] at hy
        cases hy
      · rw [List.concat_eq_append] at heq
        obtain ⟨kept, hpushed⟩ := pushHistory_concat front last envelope
        rw [heq, hpushed] at hhistory
        have hlast : last.sequenceId < envelope.sequenceId := by
          have hpair := (List.pairwise_append.mp hhistory).2.1
          simpa using hpair
        have hsorted := hs.history
        rw [heq] at hsorted hy
        rcases List.mem_append.mp hy with hy | hy
        · have hlt := (List.pairwise_append.mp hsorted).2.2 y hy last (by simp)
          omega
        · rw [List.mem_singleton.mp hy]
          exact hlast
    · by_contra hcursor
      -- The consumer would have passed an event that it cannot have.
      have hreceived := hcomplete envelope (mem_pushHistory_self _ _) (by
        unfold EventBus.cursor at hcursor ⊢
        rw [EventBus.push_received]
        omega)
      exact hdistinct.apart emitter envelope hpending envelope (.inr hreceived) rfl
  · rintro ⟨hafter, hcursor⟩
    refine ⟨?_, ?_, fun x hx hle => ?_⟩
    · rw [EventBus.push_eventHistory]
      refine List.Pairwise.sublist (List.drop_sublist _ _)
        (List.pairwise_append.mpr ⟨hs.history, List.pairwise_singleton _ _, ?_⟩)
      intro y hy z hz
      rw [List.mem_singleton.mp hz]
      exact hafter y hy
    · rw [EventBus.push_received]
      exact hs.received
    · rw [EventBus.push_eventHistory] at hx
      unfold EventBus.cursor at hle
      rw [EventBus.push_received] at hle ⊢
      rcases mem_pushHistory hx with hx | rfl
      · exact hs.complete x hx hle
      · unfold EventBus.cursor at hcursor
        omega

theorem EventBus.InOrder.step_iff
    (hdistinct : s.Distinct) (hs : s.InOrder) (e : BusEvent α) :
    (s.step e).InOrder ↔ e.InOrder s := by
  cases e with
  | take emitter timestampMs event =>
      refine iff_of_true ?_ trivial
      unfold EventBus.step
      dsimp only
      split
      · exact ⟨hs.history, hs.received, hs.complete⟩
      · exact hs
  | push emitter =>
      cases hpending : s.emitting emitter with
      | none =>
          have hsame : s.step (.push emitter) = s := by
            simp [EventBus.step, hpending]
          rw [hsame]
          refine iff_of_true hs (fun x hx => ?_)
          rw [hpending] at hx
          cases hx
      | some envelope =>
          have hpush : s.step (.push emitter) = s.push emitter envelope := by
            simp [EventBus.step, hpending]
          rw [hpush, hs.push_iff hdistinct hpending]
          constructor
          · intro horder x hx
            rw [hpending, Option.some.injEq] at hx
            exact hx ▸ horder
          · exact fun horder => horder envelope hpending
  | poll limit =>
      exact iff_of_true (hs.poll limit) trivial

end Invariants

section Consumer

variable {s : EventBus α}

/-- The events of the history that the consumer has yet to get. -/
def EventBus.unseen (s : EventBus α) : List (SequencedSdkEvent α) :=
  s.eventHistory.filter (fun evt => s.cursor < evt.sequenceId)

theorem cursor_le_poll (limit : Nat) : s.cursor ≤ (s.step (.poll limit)).cursor :=
  largestId_le_iff.mpr (fun _ hx => le_largestId (List.mem_append_left _ hx))

/-- A poll takes at least the first of the unseen events. -/
theorem unseen_poll {limit : Nat} (hlimit : 0 < limit) :
    (s.step (.poll limit)).unseen.length ≤ s.unseen.length - 1 := by
  have hcursor := cursor_le_poll (s := s) limit
  have hfilter : (s.step (.poll limit)).unseen =
      s.unseen.filter (fun evt => (s.step (.poll limit)).cursor < evt.sequenceId) := by
    show s.eventHistory.filter _ = _
    rw [EventBus.unseen, List.filter_filter]
    refine List.filter_congr (fun x _ => ?_)
    by_cases hx : (s.step (.poll limit)).cursor < x.sequenceId
    · have hseen : s.cursor < x.sequenceId := by omega
      simp [hx, hseen]
    · simp [hx]
  rw [hfilter]
  cases hunseen : s.unseen with
  | nil => simp
  | cons x rest =>
      have hcapped : min limit eventHistoryLimit ≠ 0 := by
        unfold eventHistoryLimit
        omega
      have hx : x ∈ s.eventsSince s.cursor limit := by
        unfold EventBus.eventsSince
        rw [if_neg hcapped]
        show x ∈ s.unseen.take _
        obtain ⟨k, hk⟩ := Nat.exists_eq_succ_of_ne_zero hcapped
        rw [hunseen, hk]
        exact List.mem_cons_self
      have hpassed : x.sequenceId ≤ (s.step (.poll limit)).cursor :=
        le_largestId (List.mem_append_right _ hx)
      rw [List.filter_cons_of_neg (by simpa using hpassed), List.length_cons,
        Nat.add_sub_cancel]
      exact List.length_filter_le _ _

/-- Polls with positive limits bring all of the history. -/
theorem polls_receive
    (hs : s.InOrder) {limits : List Nat} (hlimits : ∀ limit ∈ limits, 0 < limit)
    (henough : s.unseen.length ≤ limits.length) :
    ∀ x ∈ s.eventHistory,
      x ∈ (run EventBus.step s (limits.map BusEvent.poll)).received := by
  induction limits generalizing s with
  | nil =>
      intro x hx
      have hnone : s.unseen = [] := List.eq_nil_of_length_eq_zero (by simpa using henough)
      refine hs.complete x hx ?_
      by_contra hunseen
      have hmem : x ∈ s.unseen :=
        List.mem_filter.mpr ⟨hx, by simpa using Nat.lt_of_not_le hunseen⟩
      rw [hnone] at hmem
      cases hmem
  | cons limit limits ih =>
      have hfewer := unseen_poll (s := s) (hlimits limit List.mem_cons_self)
      rw [List.length_cons] at henough
      exact ih (hs.poll limit)
        (fun l hl => hlimits l (List.mem_cons_of_mem _ hl)) (by omega)

/--
The history and the consumer are in order after every step exactly when every
push is; and a consumer in order gets all of the history with so many polls.
-/
theorem bus_inOrder_iff (events : List (BusEvent α)) :
    (Guarded EventBus.step (fun s e => (s.step e).InOrder) EventBus.initial events ↔
      Guarded EventBus.step (fun s e => e.InOrder s) EventBus.initial events) ∧
    ∀ (s : EventBus α) (limits : List Nat), s.InOrder →
      (∀ limit ∈ limits, 0 < limit) → s.eventHistory.length ≤ limits.length →
        ∀ x ∈ s.eventHistory,
          x ∈ (run EventBus.step s (limits.map BusEvent.poll)).received :=
  ⟨guarded_good_iff EventBus.Distinct EventBus.InOrder
      (fun _ e hs => hs.step e) (fun _ e hdistinct hs => hs.step_iff hdistinct e)
      .initial .initial events,
    fun _ _ hs hlimits henough => polls_receive hs hlimits
      (Nat.le_trans (List.length_filter_le _ _) henough)⟩

/-- Emitter 0 takes its id first and pushes last, with a poll in between. -/
theorem overtaken_event_skipped :
    ¬ Guarded EventBus.step (fun s e => (s.step e).InOrder)
      (EventBus.initial : EventBus String)
      [.take 0 0 "first", .take 1 0 "second", .push 1, .poll 16, .push 0,
        .poll 16] := by
  rintro ⟨-, -, -, -, hpushed, -⟩
  have hsorted := hpushed.history
  revert hsorted
  unfold Increasing
  decide +kernel

end Consumer

end PrivchatSdk
