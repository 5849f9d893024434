import Mathlib.Data.Set.Function
import PrivchatSdk.Lib.Run

/-!
# A finite map under other names

A store keeps values under names, its callers know them by keys.  The store of the
names is a finite map again; it is the finite map of the keys where no two keys in use
have one name.
-/

namespace KeyedStore

open EventRun

universe u v w

variable {κ : Type u} {ν : Type v} {ω : Type w}

inductive Op (κ : Type u) (ω : Type w) where
  | put (key : κ) (value : ω)
  | delete (key : κ)

def Op.key : Op κ ω → κ
  | .put key _ => key
  | .delete key => key

/-- The operation with the name of its key. -/
def Op.rename (name : κ → ν) : Op κ ω → Op ν ω
  | .put key value => .put (name key) value
  | .delete key => .delete (name key)

@[simp] theorem Op.key_rename (name : κ → ν) (op : Op κ ω) :
    (op.rename name).key = name op.key := by
  cases op with
  | put key value => rfl
  | delete key => rfl

/-- What the operation leaves under a key. -/
def step [DecidableEq κ] (s : κ → Option ω) : Op κ ω → κ → Option ω
  | .put key value => Function.update s key (some value)
  | .delete key => Function.update s key none

variable [DecidableEq κ]

theorem step_self (s : κ → Option ω) (op : Op κ ω) :
    step s op op.key = match op with
      | .put _ value => some value
      | .delete _ => none := by
  cases op with
  | put key value => exact Function.update_self key (some value) s
  | delete key => exact Function.update_self key none s

theorem step_of_ne {s : κ → Option ω} {op : Op κ ω} {key : κ} (h : key ≠ op.key) :
    step s op key = s key := by
  cases op with
  | put k value => exact Function.update_of_ne h _ s
  | delete k => exact Function.update_of_ne h _ s

section Names

variable [DecidableEq ν]

/-- One step under names is one step under keys, as far as names tell keys apart. -/
theorem step_rename {name : κ → ν} {keys : Set κ} (hname : Set.InjOn name keys)
    {s : κ → Option ω} {t : ν → Option ω} (hview : ∀ key ∈ keys, t (name key) = s key)
    {op : Op κ ω} (hop : op.key ∈ keys) :
    ∀ key ∈ keys, step t (op.rename name) (name key) = step s op key := by
  intro key hkey
  by_cases heq : key = op.key
  · subst heq
    rw [step_self, ← Op.key_rename name op, step_self]
    cases op with
    | put key value => rfl
    | delete key => rfl
  · have hne : name key ≠ (op.rename name).key := by
      rw [Op.key_rename]
      exact fun h => heq (hname hkey hop h)
    rw [step_of_ne heq, step_of_ne hne, hview key hkey]

/-- The run lemma of `step_rename`. -/
theorem run_rename {name : κ → ν} {keys : Set κ} (hname : Set.InjOn name keys)
    {s : κ → Option ω} {t : ν → Option ω} (hview : ∀ key ∈ keys, t (name key) = s key)
    {ops : List (Op κ ω)} (hops : ∀ op ∈ ops, op.key ∈ keys) :
    ∀ key ∈ keys, run step t (ops.map (Op.rename name)) (name key) = run step s ops key := by
  induction ops generalizing s t with
  | nil =>
      exact hview
  | cons op ops ih =>
      refine ih (step_rename hname hview (hops op List.mem_cons_self)) ?_
      exact fun op' hop' => hops op' (List.mem_cons_of_mem _ hop')

end Names

/-- What holds of every value that is put holds of every value that is found. -/
theorem run_forall {P : κ → ω → Prop} {s : κ → Option ω}
    (hstart : ∀ key value, s key = some value → P key value) {ops : List (Op κ ω)}
    (hops : ∀ key value, Op.put key value ∈ ops → P key value) :
    ∀ key value, run step s ops key = some value → P key value := by
  induction ops generalizing s with
  | nil =>
      exact hstart
  | cons op ops ih =>
      refine ih ?_ (fun key value h => hops key value (List.mem_cons_of_mem _ h))
      intro key value hfound
      by_cases heq : key = op.key
      · subst heq
        rw [step_self] at hfound
        cases op with
        | put key put =>
            cases hfound
            exact hops key value List.mem_cons_self
        | delete key =>
            cases hfound
      · rw [step_of_ne heq] at hfound
        exact hstart key value hfound

end KeyedStore
