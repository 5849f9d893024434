import Mathlib.Logic.Function.Basic
import PrivchatSdk.Lib.Run

/-!
# Interleaved threads over a shared state

Each thread is in a phase of its own; an event names the thread that takes a step, and
the step reads and writes the shared state and the thread's phase.  Every interleaving
is a run of such events; a thread that stops is one that takes no more steps.

An assertion about the shared state and the phase of a thread holds of all threads, if
a step keeps it for the thread that takes the step and does not interfere with it for
the others (`Threads.all_step`).  A section of phases that is entered only while no
other thread is in it has one thread at most (`Threads.Exclusive.step`).
-/

namespace Interleave

universe u v w x

variable {ι : Type u} {σ : Type v} {φ : Type w} {ε : Type x} [DecidableEq ι]

/-- A shared state and the phases of the threads. -/
structure Threads (ι : Type u) (σ : Type v) (φ : Type w) where
  shared : σ
  phase : ι → φ

namespace Threads

/-- The step of one thread. -/
def step (next : σ → φ → ε → σ × φ) (c : Threads ι σ φ) (e : ι × ε) :
    Threads ι σ φ where
  shared := (next c.shared (c.phase e.1) e.2).1
  phase := Function.update c.phase e.1 (next c.shared (c.phase e.1) e.2).2

variable {next : σ → φ → ε → σ × φ} {c : Threads ι σ φ}

@[simp] theorem step_shared (e : ι × ε) :
    (c.step next e).shared = (next c.shared (c.phase e.1) e.2).1 := by
  rfl

@[simp] theorem step_phase_self (e : ι × ε) :
    (c.step next e).phase e.1 = (next c.shared (c.phase e.1) e.2).2 := by
  exact Function.update_self ..

theorem step_phase_of_ne (e : ι × ε) {i : ι} (h : i ≠ e.1) :
    (c.step next e).phase i = c.phase i := by
  exact Function.update_of_ne h ..

/-- A step that changes nothing leaves the whole as it is. -/
theorem step_of_same {e : ι × ε} (h : next c.shared (c.phase e.1) e.2 = (c.shared, c.phase e.1)) :
    c.step next e = c := by
  unfold step
  rw [h, Function.update_eq_self]

/-- An assertion holds of all threads, if it does of the stepping one and of the others. -/
theorem forall_step
    {G : σ → φ → Prop} (e : ι × ε)
    (hown : G (next c.shared (c.phase e.1) e.2).1 (next c.shared (c.phase e.1) e.2).2)
    (hother : ∀ i, i ≠ e.1 → G (next c.shared (c.phase e.1) e.2).1 (c.phase i)) :
    ∀ i, G (c.step next e).shared ((c.step next e).phase i) := by
  intro i
  by_cases hi : i = e.1
  · subst hi
    rw [step_phase_self, step_shared]
    exact hown
  · rw [step_phase_of_ne e hi, step_shared]
    exact hother i hi

/-- An assertion of all threads is kept by a step that keeps it and does not interfere. -/
theorem all_step
    {G : σ → φ → Prop} (h : ∀ i, G c.shared (c.phase i)) (e : ι × ε)
    (hown : G (next c.shared (c.phase e.1) e.2).1 (next c.shared (c.phase e.1) e.2).2)
    (hother : ∀ q, G c.shared q → G (next c.shared (c.phase e.1) e.2).1 q) :
    ∀ i, G (c.step next e).shared ((c.step next e).phase i) :=
  forall_step e hown (fun i _ => hother _ (h i))

/-- At most one thread is in the section `W`. -/
def Exclusive (W : φ → Prop) (c : Threads ι σ φ) : Prop :=
  ∀ i j, W (c.phase i) → W (c.phase j) → i = j

/-- A section stays exclusive, if a thread enters it only while it is empty. -/
theorem Exclusive.step
    {W : φ → Prop} (h : Exclusive W c) (e : ι × ε)
    (henter : W (next c.shared (c.phase e.1) e.2).2 →
      W (c.phase e.1) ∨ ∀ i, i ≠ e.1 → ¬ W (c.phase i)) :
    Exclusive W (c.step next e) := by
  have hself : ∀ i, W ((c.step next e).phase e.1) → W ((c.step next e).phase i) →
      i = e.1 := by
    intro i hown hi
    by_contra hne
    rw [step_phase_of_ne e hne] at hi
    rw [step_phase_self] at hown
    rcases henter hown with hin | hempty
    · exact hne (h i e.1 hi hin)
    · exact hempty i hne hi
  intro i j hi hj
  by_cases hie : i = e.1
  · subst hie
    exact (hself j hi hj).symm
  · by_cases hje : j = e.1
    · subst hje
      exact hself i hj hi
    · rw [step_phase_of_ne e hie] at hi
      rw [step_phase_of_ne e hje] at hj
      exact h i j hi hj

end Threads

end Interleave
