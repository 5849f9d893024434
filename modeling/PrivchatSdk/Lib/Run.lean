import Mathlib.Data.List.Basic

/-!
# Runs of a deterministic event system

A system is a step function `σ → ε → σ`; every choice the environment makes is
part of the event.  A run folds the step over a list of events.

Three induction principles carry all run theorems built on this module:

* an invariant preserved by every step holds after every run (`run_invariant`);
* an invariant preserved by the steps that meet a guard holds after every run
  whose events all meet it (`Guarded.invariant`);
* and what each such step does besides holds along the run (`Guarded.entails`).

`Guarded.paced` bounds how often one kind of events comes, by a potential.

`Guarded.pairwise_trace` is the principle for two events of one run: what the
earlier one starts, and every step keeps, relates it to the later one.

The two-run principle (`run_related`) is the unwinding rule: a relation between
two states preserved by one common event relates the ends of two runs with the
same events.
-/

namespace EventRun

universe u v w

section Runs

variable {σ : Type u} {ε : Type v}

/-- Fold the step function over the events, oldest event first. -/
def run
    (step : σ → ε → σ) :
    σ → List ε → σ
  | s, [] => s
  | s, e :: es => run step (step s e) es

@[simp] theorem run_nil
    (step : σ → ε → σ) (s : σ) :
    run step s [] = s := by
  rfl

@[simp] theorem run_cons
    (step : σ → ε → σ) (s : σ) (e : ε) (es : List ε) :
    run step s (e :: es) = run step (step s e) es := by
  rfl

theorem run_append
    (step : σ → ε → σ) (s : σ) (xs ys : List ε) :
    run step s (xs ++ ys) = run step (run step s xs) ys := by
  induction xs generalizing s with
  | nil =>
      rfl
  | cons e es ih =>
      simp [ih]

/-- Every event of the run meets `ok` in the state it is taken from. -/
def Guarded
    (step : σ → ε → σ) (ok : σ → ε → Prop) :
    σ → List ε → Prop
  | _, [] => True
  | s, e :: es => ok s e ∧ Guarded step ok (step s e) es

@[simp] theorem guarded_nil
    (step : σ → ε → σ) (ok : σ → ε → Prop) (s : σ) :
    Guarded step ok s [] := by
  trivial

@[simp] theorem guarded_cons
    (step : σ → ε → σ) (ok : σ → ε → Prop)
    (s : σ) (e : ε) (es : List ε) :
    Guarded step ok s (e :: es) ↔
      ok s e ∧ Guarded step ok (step s e) es := by
  rfl

/-- A run is guarded exactly if its two parts are, one after the other. -/
theorem guarded_append
    {step : σ → ε → σ} {ok : σ → ε → Prop} {s : σ} {xs ys : List ε} :
    Guarded step ok s (xs ++ ys) ↔
      Guarded step ok s xs ∧ Guarded step ok (run step s xs) ys := by
  induction xs generalizing s with
  | nil =>
      exact (and_iff_right trivial).symm
  | cons e es ih =>
      rw [List.cons_append, guarded_cons, guarded_cons, run_cons, ih, and_assoc]

instance decidableGuarded
    (step : σ → ε → σ) (ok : σ → ε → Prop)
    [∀ s e, Decidable (ok s e)] :
    ∀ (s : σ) (es : List ε), Decidable (Guarded step ok s es)
  | _, [] => isTrue trivial
  | s, e :: es =>
      match (inferInstance : Decidable (ok s e)),
          decidableGuarded step ok (step s e) es with
      | isTrue h, isTrue h' => isTrue ⟨h, h'⟩
      | isFalse h, _ => isFalse (fun hg => h hg.1)
      | _, isFalse h' => isFalse (fun hg => h' hg.2)

/-- An invariant preserved by every step holds after every run. -/
theorem run_invariant
    {step : σ → ε → σ} (Inv : σ → Prop)
    (hstep : ∀ s e, Inv s → Inv (step s e))
    {s : σ} (hs : Inv s) (es : List ε) :
    Inv (run step s es) := by
  induction es generalizing s with
  | nil =>
      exact hs
  | cons e es ih =>
      exact ih (hstep s e hs)

/-- An invariant preserved by the guarded steps holds after every guarded run. -/
theorem Guarded.invariant
    {step : σ → ε → σ} {ok : σ → ε → Prop} (Inv : σ → Prop)
    (hstep : ∀ s e, Inv s → ok s e → Inv (step s e))
    {s : σ} (hs : Inv s) {es : List ε}
    (hok : Guarded step ok s es) :
    Inv (run step s es) := by
  induction es generalizing s with
  | nil =>
      exact hs
  | cons e es ih =>
      exact ih (hstep s e hs hok.1) hok.2

/-- What every guarded step from an invariant state does holds along the run. -/
theorem Guarded.entails
    {step : σ → ε → σ} {ok good : σ → ε → Prop} (Inv : σ → Prop)
    (hstep : ∀ s e, Inv s → ok s e → Inv (step s e) ∧ good s e)
    {s : σ} (hs : Inv s) {es : List ε} (hok : Guarded step ok s es) :
    Guarded step good s es := by
  induction es generalizing s with
  | nil =>
      trivial
  | cons e es ih =>
      obtain ⟨hinv, hgood⟩ := hstep s e hs hok.1
      exact ⟨hgood, ih hinv hok.2⟩

/-- What every step from an invariant state does holds along every run. -/
theorem guarded_of_invariant
    {step : σ → ε → σ} {good : σ → ε → Prop} (Inv : σ → Prop)
    (hstep : ∀ s e, Inv s → Inv (step s e) ∧ good s e)
    {s : σ} (hs : Inv s) (es : List ε) :
    Guarded step good s es := by
  induction es generalizing s with
  | nil =>
      trivial
  | cons e es ih =>
      obtain ⟨hinv, hgood⟩ := hstep s e hs
      exact ⟨hgood, ih hinv⟩

/-- A rank that every guarded step lowers is used up by a long enough run. -/
theorem Guarded.rank_run
    {step : σ → ε → σ} {ok : σ → ε → Prop} (Inv : σ → Prop) (rank : σ → Nat)
    (hstep : ∀ s e, Inv s → ok s e → Inv (step s e) ∧ rank (step s e) ≤ rank s - 1)
    {s : σ} (hs : Inv s) {es : List ε} (hok : Guarded step ok s es) :
    rank (run step s es) ≤ rank s - es.length := by
  induction es generalizing s with
  | nil =>
      exact Nat.le_refl _
  | cons e es ih =>
      obtain ⟨hinv, hrank⟩ := hstep s e hs hok.1
      have hrest := ih hinv hok.2
      rw [run_cons, List.length_cons]
      omega

/--
Along a run every state is good exactly when every event is guarded, if that is
so of every step, given what holds of all states anyhow.
-/
theorem guarded_good_iff
    {step : σ → ε → σ} {ok : σ → ε → Prop} (Inv Good : σ → Prop)
    (hinv : ∀ s e, Inv s → Inv (step s e))
    (hstep : ∀ s e, Inv s → Good s → (Good (step s e) ↔ ok s e))
    {s : σ} (hs : Inv s) (hgood : Good s) (es : List ε) :
    Guarded step (fun s e => Good (step s e)) s es ↔ Guarded step ok s es := by
  induction es generalizing s with
  | nil =>
      exact Iff.rfl
  | cons e es ih =>
      have hs' := hinv s e hs
      constructor
      · rintro ⟨hnext, hrest⟩
        exact ⟨(hstep s e hs hgood).mp hnext, (ih hs' hnext).mp hrest⟩
      · rintro ⟨hok, hrest⟩
        have hnext := (hstep s e hs hgood).mpr hok
        exact ⟨hnext, (ih hs' hnext).mpr hrest⟩

/-- Two guards that agree from every invariant state are met by the same runs. -/
theorem guarded_congr
    {step : σ → ε → σ} {good ok : σ → ε → Prop} (Inv : σ → Prop)
    (hkeep : ∀ s e, Inv s → ok s e → Inv (step s e))
    (hiff : ∀ s e, Inv s → (good s e ↔ ok s e))
    {s : σ} (hs : Inv s) (es : List ε) :
    Guarded step good s es ↔ Guarded step ok s es := by
  induction es generalizing s with
  | nil =>
      exact Iff.rfl
  | cons e es ih =>
      rw [guarded_cons, guarded_cons, hiff s e hs]
      exact and_congr_right (fun hok => ih (hkeep s e hs hok))

/-- The events of a run, each with the state it is taken from. -/
def trace (step : σ → ε → σ) : σ → List ε → List (σ × ε)
  | _, [] => []
  | s, e :: es => (s, e) :: trace step (step s e) es

/-- What an invariant says of the guarded events holds of the whole trace. -/
theorem Guarded.forall_trace
    {step : σ → ε → σ} {ok : σ → ε → Prop} {P : σ × ε → Prop} (Inv : σ → Prop)
    (hstep : ∀ s e, Inv s → ok s e → P (s, e) ∧ Inv (step s e))
    {s : σ} (hs : Inv s) {es : List ε} (hok : Guarded step ok s es) :
    ∀ x ∈ trace step s es, P x := by
  induction es generalizing s with
  | nil =>
      intro x hx
      cases hx
  | cons e es ih =>
      obtain ⟨hP, hinv⟩ := hstep s e hs hok.1
      intro x hx
      rcases List.mem_cons.mp hx with rfl | hx
      · exact hP
      · exact ih hinv hok.2 x hx

/--
Two events of a run are related in their order, when each event starts an
invariant (`Since`) that relates it to every later one.
-/
theorem Guarded.pairwise_trace
    {step : σ → ε → σ} {ok : σ → ε → Prop} {R : σ × ε → σ × ε → Prop}
    (Since : σ × ε → σ → Prop)
    (hstart : ∀ s e, ok s e → Since (s, e) (step s e))
    (hkeep : ∀ x s e, Since x s → ok s e → R x (s, e) ∧ Since x (step s e))
    {s : σ} {es : List ε} (hok : Guarded step ok s es) :
    (trace step s es).Pairwise R := by
  induction es generalizing s with
  | nil =>
      exact .nil
  | cons e es ih =>
      refine .cons ?_ (ih hok.2)
      exact hok.2.forall_trace (Since (s, e)) (hkeep (s, e)) (hstart s e hok.1)

/--
A potential that gains `gap` at each `p`-event, but for what the `q`-events may take
back, bounds how often the one kind comes more than the other.
-/
theorem Guarded.paced
    {step : σ → ε → σ} {ok : σ → ε → Prop} (p q : σ × ε → Bool) (gap : Nat) (φ : σ → Nat)
    (hstep : ∀ s e, ok s e →
      (if p (s, e) then gap else 0) + φ s ≤ φ (step s e) + if q (s, e) then gap else 0)
    {s : σ} {es : List ε} (hok : Guarded step ok s es) :
    gap * (trace step s es).countP p + φ s ≤
      φ (run step s es) + gap * (trace step s es).countP q := by
  induction es generalizing s with
  | nil =>
      exact Nat.le_of_eq (by simp [trace])
  | cons e es ih =>
      have hfirst := hstep s e hok.1
      have hrest := ih hok.2
      have hcount : ∀ r : σ × ε → Bool, gap * (trace step s (e :: es)).countP r =
          gap * (trace step (step s e) es).countP r + if r (s, e) then gap else 0 := by
        intro r
        rw [trace, List.countP_cons, Nat.mul_add]
        split <;> simp_all
      rw [hcount p, hcount q, run_cons]
      omega

/--
If a state without the defect never loses it, and an unguarded step from an
invariant state introduces it, a run ends without the defect exactly when all
its events are guarded.
-/
theorem guarded_iff_of_persistent
    {step : σ → ε → σ} {ok : σ → ε → Prop} (Inv Bad : σ → Prop)
    (hkeep : ∀ s e, Inv s → ok s e → Inv (step s e))
    (hgood : ∀ s, Inv s → ¬ Bad s)
    (hbad : ∀ s e, Inv s → ¬ ok s e → Bad (step s e))
    (hpersist : ∀ s e, Bad s → Bad (step s e))
    {s : σ} (hs : Inv s) (es : List ε) :
    ¬ Bad (run step s es) ↔ Guarded step ok s es := by
  induction es generalizing s with
  | nil =>
      simpa using hgood s hs
  | cons e es ih =>
      by_cases hok : ok s e
      · simpa [hok] using ih (hkeep s e hs hok)
      · have hb : Bad (run step (step s e) es) :=
          run_invariant Bad hpersist (hbad s e hs hok) es
        simp [hok, hb]

variable {τ : Type w}

/--
Unwinding: a relation preserved by the common events that meet `P` relates the
ends of two runs over events that all meet it.
-/
theorem run_related
    {step : σ → ε → σ} {step' : τ → ε → τ} (R : σ → τ → Prop) (P : ε → Prop)
    (hstep : ∀ s t e, P e → R s t → R (step s e) (step' t e))
    {s : σ} {t : τ} (hst : R s t) {es : List ε} (hes : ∀ e ∈ es, P e) :
    R (run step s es) (run step' t es) := by
  induction es generalizing s t with
  | nil =>
      exact hst
  | cons e es ih =>
      have he : P e := hes e List.mem_cons_self
      exact ih (hstep s t e he hst)
        (fun e' he' => hes e' (List.mem_cons_of_mem _ he'))

end Runs

section Spacing

/-- Instants that lie a gap apart are few in every window. -/
theorem length_of_spaced
    {gap first last : Int} {ts : List Int} (hgap : 0 ≤ gap)
    (hspaced : ts.Pairwise (fun t t' => t + gap ≤ t'))
    (hfirst : ∀ t ∈ ts, first ≤ t) (hlast : ∀ t ∈ ts, t ≤ last)
    (hwindow : first ≤ last) :
    ts.length * gap ≤ last - first + gap := by
  induction ts generalizing first with
  | nil =>
      simp only [List.length_nil, Int.natCast_zero, Int.zero_mul]
      omega
  | cons t ts ih =>
      obtain ⟨hlater, hrest⟩ := List.pairwise_cons.mp hspaced
      have ht := hfirst t List.mem_cons_self
      have hlength : ((t :: ts).length : Int) * gap = ts.length * gap + gap := by
        rw [List.length_cons, Int.natCast_add, Int.natCast_one, Int.add_mul, Int.one_mul]
      rw [hlength]
      cases ts with
      | nil =>
          simp only [List.length_nil, Int.natCast_zero, Int.zero_mul]
          omega
      | cons t' ts =>
          have hnext := hlater t' List.mem_cons_self
          have hend := hlast t' (List.mem_cons_of_mem _ List.mem_cons_self)
          have htail := ih hrest hlater
            (fun u hu => hlast u (List.mem_cons_of_mem _ hu)) (by omega)
          omega

end Spacing

end EventRun
