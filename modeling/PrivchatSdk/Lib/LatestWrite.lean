import Mathlib.Data.List.Basic
import Mathlib.Logic.Function.Basic

/-!
# The latest write of each register

Writes to registers carry a stamp.  `Latest` says what the write with the largest stamp
left in a register, in whatever order the writes are known; and writing all of them in
the order of their stamps leaves just that (`latest_writeAll`).
-/

namespace StampedWrites

universe u v

structure Write (κ : Type u) (ν : Type v) where
  stamp : Nat
  key : κ
  value : ν

variable {κ : Type u} {ν : Type v}

/-- The registers after the writes, one after the other. -/
def writeAll [DecidableEq κ] (f : κ → ν) (ws : List (Write κ ν)) : κ → ν :=
  ws.foldl (fun f w => Function.update f w.key w.value) f

/-- The latest write to the register wrote the value; without one it is `d`. -/
def Latest (ws : List (Write κ ν)) (d : ν) (k : κ) (v : ν) : Prop :=
  (∃ w ∈ ws, w.key = k ∧ w.value = v ∧ ∀ w' ∈ ws, w'.key = k → w'.stamp ≤ w.stamp) ∨
    v = d ∧ ∀ w ∈ ws, w.key ≠ k

variable {ws : List (Write κ ν)} {d v : ν} {k : κ}

theorem latest_nil (d : ν) (k : κ) : Latest ([] : List (Write κ ν)) d k d :=
  Or.inr ⟨rfl, fun _ hw => absurd hw List.not_mem_nil⟩

/-- Only which writes there are matters, not how often or in which order. -/
theorem Latest.congr {ws' : List (Write κ ν)} (h : Latest ws d k v)
    (hsame : ∀ w : Write κ ν, w.key = k → (w ∈ ws ↔ w ∈ ws')) : Latest ws' d k v := by
  rcases h with ⟨w, hw, hkey, hvalue, hlatest⟩ | ⟨hvalue, hnone⟩
  · refine Or.inl ⟨w, (hsame w hkey).mp hw, hkey, hvalue, fun w' hw' hkey' => ?_⟩
    exact hlatest w' ((hsame w' hkey').mpr hw') hkey'
  · exact Or.inr ⟨hvalue, fun w hw hkey => hnone w ((hsame w hkey).mpr hw) hkey⟩

/-- A write that is not older than the others to its register is the latest. -/
theorem latest_cons_of_newest {w : Write κ ν}
    (h : ∀ w' ∈ ws, w'.key = w.key → w'.stamp ≤ w.stamp) :
    Latest (w :: ws) d w.key w.value := by
  refine Or.inl ⟨w, List.mem_cons_self, rfl, rfl, fun w' hw' hkey => ?_⟩
  rcases List.mem_cons.mp hw' with rfl | hmem
  · exact Nat.le_refl _
  · exact h w' hmem hkey

/-- A write to another register leaves this one. -/
theorem Latest.cons_of_ne {w : Write κ ν} (h : Latest ws d k v) (hne : w.key ≠ k) :
    Latest (w :: ws) d k v := by
  refine h.congr (fun w' hkey => ?_)
  rw [List.mem_cons]
  exact ⟨Or.inr, fun hmem => hmem.resolve_left (fun heq => hne (heq ▸ hkey))⟩

/-- Writes that are known by their stamps have one latest value. -/
theorem Latest.unique {v' : ν} (h : Latest ws d k v) (h' : Latest ws d k v')
    (hstamp : ∀ w ∈ ws, ∀ w' ∈ ws, w.stamp = w'.stamp → w = w') : v = v' := by
  rcases h with ⟨w, hw, hkey, rfl, hlatest⟩ | ⟨rfl, hnone⟩
  · rcases h' with ⟨w', hw', hkey', rfl, hlatest'⟩ | ⟨-, hnone'⟩
    · have heq := hstamp w hw w' hw'
        (Nat.le_antisymm (hlatest' w hw hkey) (hlatest w' hw' hkey'))
      rw [heq]
    · exact absurd hkey (hnone' w hw)
  · rcases h' with ⟨w', hw', hkey', -, -⟩ | ⟨rfl, -⟩
    · exact absurd hkey' (hnone w' hw')
    · rfl

/-- In the order of the stamps the latest write is the one that stays. -/
theorem latest_writeAll [DecidableEq κ] (f : κ → ν)
    (hsorted : ws.Pairwise (fun w w' => w.stamp < w'.stamp)) (k : κ) :
    Latest ws (f k) k (writeAll f ws k) := by
  induction ws generalizing f with
  | nil =>
      exact latest_nil _ _
  | cons w ws ih =>
      obtain ⟨hfirst, hrest⟩ := List.pairwise_cons.mp hsorted
      rcases ih (Function.update f w.key w.value) hrest with
        ⟨w', hw', hkey, hvalue, hlatest⟩ | ⟨hvalue, hnone⟩
      · refine Or.inl ⟨w', List.mem_cons_of_mem _ hw', hkey, hvalue, fun w'' hw'' hk => ?_⟩
        rcases List.mem_cons.mp hw'' with rfl | hmem
        · exact Nat.le_of_lt (hfirst w' hw')
        · exact hlatest w'' hmem hk
      · change Latest (w :: ws) (f k) k (writeAll (Function.update f w.key w.value) ws k)
        rw [hvalue]
        by_cases hkey : w.key = k
        · subst hkey
          rw [Function.update_self]
          exact latest_cons_of_newest (fun w' hw' hk => absurd hk (hnone w' hw'))
        · rw [Function.update_of_ne (Ne.symm hkey)]
          refine Or.inr ⟨rfl, fun w' hw' => ?_⟩
          rcases List.mem_cons.mp hw' with rfl | hmem
          · exact hkey
          · exact hnone w' hmem

end StampedWrites
