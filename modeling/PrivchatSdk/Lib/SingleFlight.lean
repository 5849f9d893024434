import Mathlib.Data.Finset.Insert
import Mathlib.Data.Finset.Erase
import Mathlib.Data.List.Nodup

/-!
# A bounded queue of keys, each at work once

Keys wait in a queue of bounded length; the first one is taken out and worked on.  A set
remembers which keys are in the line, so that none is taken in twice.  The set is
redundant: it has the keys that wait and the one at work (`Line.Exact`).
-/

namespace SingleFlight

universe u

structure Line (κ : Type u) where
  queue : List κ
  seen : Finset κ
  running : Option κ

variable {κ : Type u}

section Operations

def Line.empty : Line κ where
  queue := []
  seen := ∅
  running := none

/-- Work on the first key of the queue. -/
def Line.start (l : Line κ) : Line κ :=
  match l.queue with
  | [] => l
  | k :: queue => { l with queue := queue, running := some k }

variable [DecidableEq κ]

/-- Take a key in, unless it is in the line or the queue is full. -/
def Line.offer (capacity : Nat) (l : Line κ) (k : κ) : Line κ :=
  if k ∈ l.seen then l
  else if capacity ≤ l.queue.length then l
  else { l with seen := insert k l.seen, queue := l.queue ++ [k] }

/-- The key at work leaves the line. -/
def Line.finish (l : Line κ) (k : κ) : Line κ :=
  { l with seen := l.seen.erase k, running := none }

end Operations

/-- The set has the keys of the line, each of which is there once. -/
structure Line.Exact (capacity : Nat) (l : Line κ) : Prop where
  nodup : l.queue.Nodup
  mem_seen : ∀ k, k ∈ l.seen ↔ k ∈ l.queue ∨ l.running = some k
  running_not_mem : ∀ k, l.running = some k → k ∉ l.queue
  bounded : l.queue.length ≤ capacity

variable {capacity : Nat} {l : Line κ}

theorem Line.exact_empty (capacity : Nat) : (Line.empty : Line κ).Exact capacity where
  nodup := List.nodup_nil
  mem_seen := fun k => by simp [Line.empty]
  running_not_mem := fun k h => by cases h
  bounded := Nat.zero_le _

theorem Line.Exact.start (h : l.Exact capacity) (hidle : l.running = none) :
    l.start.Exact capacity := by
  unfold Line.start
  split
  · exact h
  · rename_i k queue hqueue
    have hnodup := List.nodup_cons.mp (hqueue ▸ h.nodup)
    exact
      { nodup := hnodup.2
        mem_seen := fun j => by
          rw [h.mem_seen, hqueue, hidle, List.mem_cons]
          simp only [reduceCtorEq, or_false, Option.some.injEq]
          rw [or_comm, eq_comm]
        running_not_mem := fun j hj => by
          cases hj
          exact hnodup.1
        bounded := by
          have hlength := h.bounded
          rw [hqueue, List.length_cons] at hlength
          exact Nat.le_of_succ_le hlength }

variable [DecidableEq κ]

/-- Offering a key adds no other key to the queue. -/
theorem Line.mem_queue_offer {k j : κ} :
    j ∈ (l.offer capacity k).queue ↔
      j ∈ l.queue ∨ (j = k ∧ k ∉ l.seen ∧ l.queue.length < capacity) := by
  unfold Line.offer
  by_cases hseen : k ∈ l.seen
  · simp [hseen]
  · by_cases hfull : capacity ≤ l.queue.length
    · have hnot : ¬ l.queue.length < capacity := by omega
      simp [hseen, hfull, hnot]
    · have hroom : l.queue.length < capacity := by omega
      simp [hseen, hfull, hroom]

theorem Line.queue_offer_of_room {k : κ} (hseen : k ∉ l.seen)
    (hroom : l.queue.length < capacity) :
    (l.offer capacity k).queue = l.queue ++ [k] := by
  unfold Line.offer
  rw [if_neg hseen, if_neg (Nat.not_le.mpr hroom)]

theorem Line.Exact.offer (h : l.Exact capacity) (k : κ) :
    (l.offer capacity k).Exact capacity := by
  unfold Line.offer
  by_cases hseen : k ∈ l.seen
  · simpa [hseen] using h
  · by_cases hfull : capacity ≤ l.queue.length
    · simpa [hseen, hfull] using h
    · rw [if_neg hseen, if_neg hfull]
      have hout : k ∉ l.queue ∧ l.running ≠ some k := by
        simpa [h.mem_seen] using hseen
      exact
        { nodup := by
            have hperm := List.perm_append_singleton k l.queue
            exact hperm.nodup_iff.mpr (List.nodup_cons.mpr ⟨hout.1, h.nodup⟩)
          mem_seen := fun j => by
            rw [Finset.mem_insert, h.mem_seen, List.mem_append, List.mem_singleton]
            tauto
          running_not_mem := fun j hj hmem => by
            rw [List.mem_append, List.mem_singleton] at hmem
            rcases hmem with hmem | rfl
            · exact h.running_not_mem j hj hmem
            · exact hout.2 hj
          bounded := by
            rw [List.length_append, List.length_singleton]
            omega }

theorem Line.Exact.finish {k : κ} (h : l.Exact capacity) (hrunning : l.running = some k) :
    (l.finish k).Exact capacity where
  nodup := h.nodup
  mem_seen := fun j => by
    have hout := h.running_not_mem k hrunning
    have hfinish : j ∈ (l.finish k).seen ↔ j ≠ k ∧ (j ∈ l.queue ∨ l.running = some j) := by
      rw [← h.mem_seen]
      exact Finset.mem_erase
    rw [hfinish, hrunning]
    constructor
    · rintro ⟨hne, hmem | heq⟩
      · exact Or.inl hmem
      · cases heq
        exact absurd rfl hne
    · rintro (hmem | heq)
      · exact ⟨fun heq => hout (heq ▸ hmem), Or.inl hmem⟩
      · cases heq
  running_not_mem := fun j hj => by cases hj
  bounded := h.bounded

end SingleFlight
