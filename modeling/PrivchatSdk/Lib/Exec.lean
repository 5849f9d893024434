import Mathlib.Data.List.Basic

/-!
# Fallible statements over a state, and transactions

A computation reads an environment, changes a state and may fail.  A failure
keeps the state it happened in: what earlier statements wrote stays written.
Only `transaction` undoes work, by putting the state of its start back.

A computation is analysed by inversion: `bind_ok` and `bind_error` peel one
statement off, `transaction_ok` and `transaction_error` open a transaction.
`Relates R` is the frame rule: a reflexive and transitive relation that holds
between the states around every statement holds around the computation, whether
it succeeds or fails.
`Ensures` is the rule of pre- and postconditions: it splits over a sequence
(`ensures_bind`), and its two postconditions may be weakened and joined.
`Fails E` bounds the errors a computation can end with.
`Unwinds S` is the rule of two runs: started in states that `S` relates, they end
with the same result in states that `S` relates.
-/

namespace StatementExec

universe u

/-- A computation with environment `η`, state `σ` and errors `ε`. -/
def Exec (η σ ε : Type u) (α : Type u) : Type u :=
  η → σ → Except ε α × σ

namespace Exec

section Basic

variable {η σ ε α β : Type u}

protected def pure (a : α) : Exec η σ ε α :=
  fun _ s => (.ok a, s)

protected def bind
    (x : Exec η σ ε α) (f : α → Exec η σ ε β) :
    Exec η σ ε β :=
  fun env s =>
    match x env s with
    | (.ok a, s') => f a env s'
    | (.error e, s') => (.error e, s')

instance : Monad (Exec η σ ε) where
  pure := Exec.pure
  bind := Exec.bind

/-- Fail without touching the state. -/
def fail (e : ε) : Exec η σ ε α :=
  fun _ s => (.error e, s)

/-- The state after the computation, whether it succeeds or fails. -/
def after (x : Exec η σ ε α) (env : η) (s : σ) : σ :=
  (x env s).2

/-- Turn a failure into a value; the writes before it stay. -/
def attempt (x : Exec η σ ε α) : Exec η σ ε (Except ε α) :=
  fun env s => (.ok (x env s).1, (x env s).2)

/-- Run `y` in the state a failure of `x` left behind. -/
def recover (x y : Exec η σ ε α) : Exec η σ ε α :=
  fun env s =>
    match x env s with
    | (.ok a, s') => (.ok a, s')
    | (.error _, s') => y env s'

/-- Run the body between `begin` and `commit`; any failure restores the state. -/
def transaction
    (begin commit : Exec η σ ε PUnit) (body : Exec η σ ε α) :
    Exec η σ ε α :=
  fun env s =>
    match (do
        let _ ← begin
        let a ← body
        let _ ← commit
        pure a : Exec η σ ε α) env s with
    | (.ok a, s') => (.ok a, s')
    | (.error e, _) => (.error e, s)

@[simp] theorem pure_run
    (a : α) (env : η) (s : σ) :
    (pure a : Exec η σ ε α) env s = (.ok a, s) := by
  rfl

@[simp] theorem fail_run
    (e : ε) (env : η) (s : σ) :
    (fail e : Exec η σ ε α) env s = (.error e, s) := by
  rfl

theorem bind_run
    (x : Exec η σ ε α) (f : α → Exec η σ ε β) (env : η) (s : σ) :
    (x >>= f) env s =
      match x env s with
      | (.ok a, s') => f a env s'
      | (.error e, s') => (.error e, s') := by
  rfl

/-- A statement whose value is only converted writes nothing more. -/
theorem after_map
    (x : Exec η σ ε α) (f : α → β) (env : η) (s : σ) :
    (x >>= fun a => pure (f a)).after env s = x.after env s := by
  unfold after
  rw [bind_run]
  rcases x env s with ⟨_ | _, _⟩
  · rfl
  · rfl

theorem attempt_bind
    (x : Exec η σ ε α) (f : Except ε α → Exec η σ ε β) (env : η) (s : σ) :
    (attempt x >>= f) env s = f (x env s).1 env (x env s).2 := by
  rfl

theorem bind_assoc
    {γ : Type u} (x : Exec η σ ε α) (f : α → Exec η σ ε β)
    (g : β → Exec η σ ε γ) :
    (x >>= f) >>= g = x >>= fun a => f a >>= g := by
  funext env s
  simp only [bind_run]
  cases x env s with
  | mk res s' =>
  cases res with
  | ok a =>
      rfl
  | error e =>
      rfl

/-- A sequence succeeds exactly when both parts do. -/
theorem bind_ok
    {x : Exec η σ ε α} {f : α → Exec η σ ε β}
    {env : η} {s s' : σ} {b : β} :
    (x >>= f) env s = (.ok b, s') ↔
      ∃ a s₁, x env s = (.ok a, s₁) ∧ f a env s₁ = (.ok b, s') := by
  rw [bind_run]
  constructor
  · intro h
    split at h
    · rename_i a s₁ hx
      exact ⟨a, s₁, hx, h⟩
    · cases h
  · rintro ⟨a, s₁, hx, hf⟩
    rw [hx]
    exact hf

/-- A sequence fails in its first part, or in its second part after the first. -/
theorem bind_error
    {x : Exec η σ ε α} {f : α → Exec η σ ε β}
    {env : η} {s s' : σ} {e : ε} :
    (x >>= f) env s = (.error e, s') ↔
      x env s = (.error e, s') ∨
        ∃ a s₁, x env s = (.ok a, s₁) ∧ f a env s₁ = (.error e, s') := by
  rw [bind_run]
  constructor
  · intro h
    split at h
    · rename_i a s₁ hx
      exact Or.inr ⟨a, s₁, hx, h⟩
    · rename_i e' s₁ hx
      cases h
      exact Or.inl hx
  · rintro (hx | ⟨a, s₁, hx, hf⟩)
    · rw [hx]
    · rw [hx]
      exact hf

theorem recover_of_ok
    {x y : Exec η σ ε α} {env : η} {s s' : σ} {a : α}
    (h : x env s = (.ok a, s')) :
    recover x y env s = (.ok a, s') := by
  unfold recover
  rw [h]

theorem recover_of_error
    {x y : Exec η σ ε α} {env : η} {s s' : σ} {e : ε}
    (h : x env s = (.error e, s')) :
    recover x y env s = y env s' := by
  unfold recover
  rw [h]

/-- A failed transaction leaves the state it started in. -/
theorem transaction_error
    {begin commit : Exec η σ ε PUnit} {body : Exec η σ ε α}
    {env : η} {s s' : σ} {e : ε}
    (h : transaction begin commit body env s = (.error e, s')) :
    s' = s := by
  unfold transaction at h
  split at h
  · cases h
  · cases h
    rfl

/-- A failed transaction failed in its begin, its body or its commit. -/
theorem transaction_failed
    {begin commit : Exec η σ ε PUnit} {body : Exec η σ ε α}
    {env : η} {s s' : σ} {e : ε}
    (h : transaction begin commit body env s = (.error e, s')) :
    (∃ s₁, begin env s = (.error e, s₁)) ∨
      (∃ u s₁ s₂, begin env s = (.ok u, s₁) ∧
        body env s₁ = (.error e, s₂)) ∨
      ∃ s₁ s₂, commit env s₁ = (.error e, s₂) := by
  unfold transaction at h
  split at h
  · cases h
  · rename_i e' s₁ hrun
    cases h
    rcases bind_error.mp hrun with hb | ⟨u, s₂, hb, hrest⟩
    · exact Or.inl ⟨_, hb⟩
    · rcases bind_error.mp hrest with hbody | ⟨a, s₃, hbody, hrest⟩
      · exact Or.inr (Or.inl ⟨u, s₂, _, hb, hbody⟩)
      · rcases bind_error.mp hrest with hc | ⟨w, s₄, -, hp⟩
        · exact Or.inr (Or.inr ⟨s₃, _, hc⟩)
        · cases hp

/-- A successful transaction ran its begin, its body and its commit. -/
theorem transaction_ok
    {begin commit : Exec η σ ε PUnit} {body : Exec η σ ε α}
    {env : η} {s s' : σ} {a : α}
    (h : transaction begin commit body env s = (.ok a, s')) :
    ∃ u s₁ s₂ w, begin env s = (.ok u, s₁) ∧
      body env s₁ = (.ok a, s₂) ∧
      commit env s₂ = (.ok w, s') := by
  unfold transaction at h
  split at h
  · rename_i a' s'' hrun
    cases h
    obtain ⟨u, s₁, hb, hrest⟩ := bind_ok.mp hrun
    obtain ⟨a₁, s₂, hbody, hrest⟩ := bind_ok.mp hrest
    obtain ⟨w, s₃, hc, hp⟩ := bind_ok.mp hrest
    cases hp
    exact ⟨u, s₁, s₂, w, hb, hbody, hc⟩
  · cases h

end Basic

section Relates

variable {η σ ε α β : Type u} {R : σ → σ → Prop}

/-- The state after the computation is related to the state before it. -/
def Relates (R : σ → σ → Prop) (x : Exec η σ ε α) : Prop :=
  ∀ env s, R s (x.after env s)

theorem relates_pure
    (hrefl : ∀ s, R s s) (a : α) :
    Relates R (pure a : Exec η σ ε α) := by
  intro _ s
  exact hrefl s

theorem relates_fail
    (hrefl : ∀ s, R s s) (e : ε) :
    Relates R (fail e : Exec η σ ε α) := by
  intro _ s
  exact hrefl s

theorem Relates.bind
    (htrans : ∀ s t u, R s t → R t u → R s u)
    {x : Exec η σ ε α} {f : α → Exec η σ ε β}
    (hx : Relates R x) (hf : ∀ a, Relates R (f a)) :
    Relates R (x >>= f) := by
  intro env s
  have hx' := hx env s
  unfold after at hx' ⊢
  rw [bind_run]
  split
  · rename_i a s' hrun
    rw [hrun] at hx'
    exact htrans s s' _ hx' (hf a env s')
  · rename_i e s' hrun
    rw [hrun] at hx'
    exact hx'

theorem Relates.ite
    {c : Prop} [Decidable c] {x y : Exec η σ ε α}
    (hx : Relates R x) (hy : Relates R y) :
    Relates R (if c then x else y) := by
  split
  · exact hx
  · exact hy

theorem Relates.attempt
    {x : Exec η σ ε α} (hx : Relates R x) :
    Relates R (attempt x) :=
  hx

theorem Relates.transaction
    (hrefl : ∀ s, R s s) (htrans : ∀ s t u, R s t → R t u → R s u)
    {begin commit : Exec η σ ε PUnit} {body : Exec η σ ε α}
    (hb : Relates R begin) (hc : Relates R commit) (hbody : Relates R body) :
    Relates R (transaction begin commit body) := by
  intro env s
  have hall : Relates R (do
      let _ ← begin
      let a ← body
      let _ ← commit
      pure a : Exec η σ ε α) :=
    hb.bind htrans (fun _ => hbody.bind htrans (fun a =>
      hc.bind htrans (fun _ => relates_pure hrefl a)))
  have hrun := hall env s
  unfold after Exec.transaction at *
  split
  · rename_i a s' h
    rw [h] at hrun
    exact hrun
  · exact hrefl s

end Relates

section Ensures

variable {η σ ε α β : Type u}

/--
The computation ends in `Q` with its value, or in `E` with its error: the
weakest precondition, taken at one environment and one state.
-/
def Ensures
    (x : Exec η σ ε α) (env : η) (s : σ)
    (Q : α → σ → Prop) (E : ε → σ → Prop) : Prop :=
  match x env s with
  | (.ok a, s') => Q a s'
  | (.error e, s') => E e s'

@[simp] theorem ensures_pure
    (a : α) (env : η) (s : σ) (Q : α → σ → Prop) (E : ε → σ → Prop) :
    Ensures (pure a) env s Q E ↔ Q a s := by
  rfl

@[simp] theorem ensures_fail
    (e : ε) (env : η) (s : σ) (Q : α → σ → Prop) (E : ε → σ → Prop) :
    Ensures (fail e) env s Q E ↔ E e s := by
  rfl

@[simp] theorem ensures_bind
    (x : Exec η σ ε α) (f : α → Exec η σ ε β) (env : η) (s : σ)
    (Q : β → σ → Prop) (E : ε → σ → Prop) :
    Ensures (x >>= f) env s Q E ↔
      Ensures x env s (fun a s' => Ensures (f a) env s' Q E) E := by
  unfold Ensures
  rw [bind_run]
  cases x env s with
  | mk res s' =>
  cases res <;> rfl

@[simp] theorem ensures_attempt
    (x : Exec η σ ε α) (env : η) (s : σ)
    (Q : Except ε α → σ → Prop) (E : ε → σ → Prop) :
    Ensures x.attempt env s Q E ↔
      Ensures x env s (fun a => Q (.ok a)) (fun e => Q (.error e)) := by
  unfold Ensures Exec.attempt
  cases x env s with
  | mk res s' =>
  cases res <;> rfl

/-- A computation whose end is known makes sure of what holds there. -/
theorem ensures_of_ok
    {x : Exec η σ ε α} {env : η} {s t : σ} {a : α} (h : x env s = (.ok a, t))
    (Q : α → σ → Prop) (E : ε → σ → Prop) :
    Ensures x env s Q E ↔ Q a t := by
  unfold Ensures
  rw [h]

theorem ensures_of_error
    {x : Exec η σ ε α} {env : η} {s t : σ} {e : ε} (h : x env s = (.error e, t))
    (Q : α → σ → Prop) (E : ε → σ → Prop) :
    Ensures x env s Q E ↔ E e t := by
  unfold Ensures
  rw [h]

theorem Ensures.mono
    {x : Exec η σ ε α} {env : η} {s : σ}
    {Q Q' : α → σ → Prop} {E E' : ε → σ → Prop}
    (h : Ensures x env s Q E)
    (hok : ∀ a s', Q a s' → Q' a s') (herr : ∀ e s', E e s' → E' e s') :
    Ensures x env s Q' E' := by
  unfold Ensures at h ⊢
  split at h
  · rename_i a s' hrun
    exact hok a s' h
  · rename_i e s' hrun
    exact herr e s' h

theorem Ensures.and
    {x : Exec η σ ε α} {env : η} {s : σ}
    {Q Q' : α → σ → Prop} {E E' : ε → σ → Prop}
    (h : Ensures x env s Q E) (h' : Ensures x env s Q' E') :
    Ensures x env s (fun a s' => Q a s' ∧ Q' a s')
      (fun e s' => E e s' ∧ E' e s') := by
  unfold Ensures at *
  cases hrun : x env s with
  | mk res s' =>
  rw [hrun] at h h'
  cases res with
  | ok a =>
      exact ⟨h, h'⟩
  | error e =>
      exact ⟨h, h'⟩

/-- The frame of a computation is one of its postconditions. -/
theorem Relates.ensures
    {R : σ → σ → Prop} {x : Exec η σ ε α} (hx : Relates R x) (env : η) (s : σ) :
    Ensures x env s (fun _ s' => R s s') (fun _ s' => R s s') := by
  have h := hx env s
  unfold after at h
  unfold Ensures
  cases hrun : x env s with
  | mk res s' =>
  rw [hrun] at h
  cases res with
  | ok a =>
      exact h
  | error e =>
      exact h

end Ensures

section Fails

variable {η σ ε α β : Type u}

/-- Every error the computation ends with meets `E`. -/
def Fails (E : ε → Prop) (x : Exec η σ ε α) : Prop :=
  ∀ env s e s', x env s = (.error e, s') → E e

theorem fails_pure
    (E : ε → Prop) (a : α) :
    Fails E (pure a : Exec η σ ε α) := by
  intro _ _ _ _ h
  cases h

theorem Fails.bind
    {E : ε → Prop} {x : Exec η σ ε α} {f : α → Exec η σ ε β}
    (hx : Fails E x) (hf : ∀ a, Fails E (f a)) :
    Fails E (x >>= f) := by
  intro env s e s' h
  rcases bind_error.mp h with h | ⟨a, s₁, -, h⟩
  · exact hx env s e s' h
  · exact hf a env s₁ e s' h

theorem Fails.transaction
    {E : ε → Prop}
    {begin commit : Exec η σ ε PUnit} {body : Exec η σ ε α}
    (hb : Fails E begin) (hc : Fails E commit) (hbody : Fails E body) :
    Fails E (transaction begin commit body) := by
  intro env s e s' h
  have hall : Fails E (do
      let _ ← begin
      let a ← body
      let _ ← commit
      pure a : Exec η σ ε α) :=
    hb.bind (fun _ => hbody.bind (fun a => hc.bind (fun _ => fails_pure E a)))
  unfold Exec.transaction at h
  split at h
  · cases h
  · rename_i e' s₁ hrun
    cases h
    exact hall env s e s₁ hrun

end Fails

section Unwinds

variable {η σ ε α β : Type u} {S : σ → σ → Prop}

/-- Two runs from related states have the same result and end in related states. -/
def Unwinds (S : σ → σ → Prop) (x : Exec η σ ε α) : Prop :=
  ∀ env s t, S s t → (x env s).1 = (x env t).1 ∧ S (x.after env s) (x.after env t)

theorem unwinds_pure (a : α) : Unwinds S (pure a : Exec η σ ε α) :=
  fun _ _ _ hst => ⟨rfl, hst⟩

theorem unwinds_fail (e : ε) : Unwinds S (fail e : Exec η σ ε α) :=
  fun _ _ _ hst => ⟨rfl, hst⟩

theorem Unwinds.bind
    {x : Exec η σ ε α} {f : α → Exec η σ ε β}
    (hx : Unwinds S x) (hf : ∀ a, Unwinds S (f a)) :
    Unwinds S (x >>= f) := by
  intro env s t hst
  obtain ⟨hresult, hafter⟩ := hx env s t hst
  unfold after at *
  rw [bind_run, bind_run]
  cases hs : x env s with
  | mk res s' =>
  cases ht : x env t with
  | mk res' t' =>
  rw [hs, ht] at hresult hafter
  cases hresult
  cases res with
  | ok a =>
      exact hf a env s' t' hafter
  | error e =>
      exact ⟨rfl, hafter⟩

theorem Unwinds.ite
    {c : Prop} [Decidable c] {x y : Exec η σ ε α}
    (hx : Unwinds S x) (hy : Unwinds S y) :
    Unwinds S (if c then x else y) := by
  split
  · exact hx
  · exact hy

theorem Unwinds.attempt
    {x : Exec η σ ε α} (hx : Unwinds S x) :
    Unwinds S (attempt x) := by
  intro env s t hst
  obtain ⟨hresult, hafter⟩ := hx env s t hst
  exact ⟨congrArg Except.ok hresult, hafter⟩

end Unwinds

end Exec

end StatementExec
