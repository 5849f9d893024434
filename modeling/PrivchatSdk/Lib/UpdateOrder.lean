import Mathlib.Data.List.Dedup
import Mathlib.Data.List.MinMax
import Mathlib.Data.List.Sort
import PrivchatSdk.Lib.Run

/-!
# When the order of updates does not matter

Items are applied one after the other, each at some moment, in any order and
any number of times.  They converge when all ways to apply them end in the same
state, or, which is the same, when each way ends as the run in version order
does (`converges_iff_inOrder`).

Three kinds of stored rows are characterized.  A row that every item overwrites
converges when all items write the same (`converges_overwrite_iff`).  Rows that
some items remove converge when either all items remove or none does and the
rest converges (`converges_withRemoval_iff`).  A versioned register takes an item
that is not older than its row; a part of the row may be kept from the old row
where the item says nothing about it.  It converges when the newest item that can
be taken determines the row (`Register.converges_iff`).
-/

namespace UpdateOrder

open EventRun

universe u v w

section Converges

variable {σ : Type u} {τ : Type v} {ι : Type w}

/-- The applications bring exactly these items. -/
def Covers (items : List ι) (r : List (τ × ι)) : Prop :=
  ∀ i, i ∈ r.map Prod.snd ↔ i ∈ items

/-- All ways to apply the items end in the same state. -/
def Converges (step : σ → τ × ι → σ) (s : σ) (items : List ι) : Prop :=
  ∀ r r', Covers items r → Covers items r' → run step s r = run step s r'

theorem covers_once (t : τ) (items : List ι) :
    Covers items (items.map (fun i => (t, i))) := by
  intro i
  simp

theorem Covers.mem
    {items : List ι} {r : List (τ × ι)} (h : Covers items r) {a : τ × ι}
    (ha : a ∈ r) :
    a.2 ∈ items :=
  (h a.2).mp (List.mem_map_of_mem ha)

theorem Covers.exists_mem
    {items : List ι} {r : List (τ × ι)} (h : Covers items r) {i : ι}
    (hi : i ∈ items) :
    ∃ t, (t, i) ∈ r := by
  obtain ⟨⟨t, j⟩, ha, rfl⟩ := List.mem_map.mp ((h i).mpr hi)
  exact ⟨t, ha⟩

theorem Covers.eq_nil
    {r : List (τ × ι)} (h : Covers [] r) : r = [] := by
  rw [List.eq_nil_iff_forall_not_mem]
  intro a ha
  cases h.mem ha

/-- Applying items again, before or after, brings the same items. -/
theorem Covers.repeat
    {items : List ι} {r : List (τ × ι)} (h : Covers items r)
    (before after : List (τ × ι))
    (hbefore : ∀ a ∈ before, a.2 ∈ items) (hafter : ∀ a ∈ after, a.2 ∈ items) :
    Covers items (before ++ (r ++ after)) := by
  intro i
  simp only [List.map_append, List.mem_append, h i]
  constructor
  · rintro (hb | hi | ha)
    · obtain ⟨a, hmem, rfl⟩ := List.mem_map.mp hb
      exact hbefore a hmem
    · exact hi
    · obtain ⟨a, hmem, rfl⟩ := List.mem_map.mp ha
      exact hafter a hmem
  · intro hi
    exact Or.inr (Or.inl hi)

/-- Steps that agree on the items converge together. -/
theorem converges_congr
    {step step' : σ → τ × ι → σ} {items : List ι}
    (h : ∀ s t, ∀ i ∈ items, step s (t, i) = step' s (t, i)) (s : σ) :
    Converges step s items ↔ Converges step' s items := by
  have hrun : ∀ r : List (τ × ι), (∀ a ∈ r, a.2 ∈ items) →
      ∀ s, run step s r = run step' s r := by
    intro r
    induction r with
    | nil =>
        intro _ s
        rfl
    | cons a r ih =>
        intro hr s
        rw [run_cons, run_cons, h s a.1 a.2 (hr a List.mem_cons_self)]
        exact ih (fun b hb => hr b (List.mem_cons_of_mem _ hb)) _
  unfold Converges
  constructor
  · intro hc r r' hr hr'
    rw [← hrun r (fun _ => hr.mem), ← hrun r' (fun _ => hr'.mem)]
    exact hc r r' hr hr'
  · intro hc r r' hr hr'
    rw [hrun r (fun _ => hr.mem), hrun r' (fun _ => hr'.mem)]
    exact hc r r' hr hr'

variable {σ' : Type u}

theorem run_pair
    (step : σ → τ × ι → σ) (step' : σ' → τ × ι → σ') (s : σ) (s' : σ')
    (r : List (τ × ι)) :
    run (fun p a => (step p.1 a, step' p.2 a)) (s, s') r =
      (run step s r, run step' s' r) := by
  induction r generalizing s s' with
  | nil =>
      rfl
  | cons a r ih =>
      rw [run_cons, run_cons, run_cons, ih]

/-- Two rows that do not read each other converge separately. -/
theorem converges_pair_iff
    (step : σ → τ × ι → σ) (step' : σ' → τ × ι → σ') (s : σ) (s' : σ')
    (items : List ι) :
    Converges (fun p a => (step p.1 a, step' p.2 a)) (s, s') items ↔
      Converges step s items ∧ Converges step' s' items := by
  unfold Converges
  simp only [run_pair, Prod.mk.injEq]
  constructor
  · intro h
    exact ⟨fun r r' hr hr' => (h r r' hr hr').1, fun r r' hr hr' =>
      (h r r' hr hr').2⟩
  · rintro ⟨h, h'⟩ r r' hr hr'
    exact ⟨h r r' hr hr', h' r r' hr hr'⟩

/-- An idempotent change that all items make. -/
theorem converges_of_idempotent
    {f : σ → σ} (hf : ∀ s, f (f s) = f s) (s : σ) (items : List ι) :
    Converges (fun s (_ : τ × ι) => f s) s items := by
  have hrun : ∀ r : List (τ × ι), ∀ s, r ≠ [] →
      run (fun s (_ : τ × ι) => f s) s r = f s := by
    intro r
    induction r with
    | nil =>
        intro s h
        exact absurd rfl h
    | cons a r ih =>
        intro s _
        cases r with
        | nil => rfl
        | cons b r => rw [run_cons, ih (f s) (by simp), hf]
  intro r r' hr hr'
  by_cases hnil : items = []
  · subst hnil
    rw [hr.eq_nil, hr'.eq_nil]
  · obtain ⟨i, hi⟩ := List.exists_mem_of_ne_nil items hnil
    have hne : ∀ r : List (τ × ι), Covers items r → r ≠ [] := by
      rintro r hr rfl
      obtain ⟨t, ht⟩ := hr.exists_mem hi
      cases ht
    rw [hrun r s (hne r hr), hrun r' s (hne r' hr')]

/-- Where every item overwrites the row, the last one decides. -/
theorem converges_overwrite_iff
    [Nonempty τ] (out : τ × ι → σ) (s : σ) (items : List ι) :
    Converges (fun _ a => out a) s items ↔
      ∀ i ∈ items, ∀ j ∈ items, ∀ t t', out (t, i) = out (t', j) := by
  constructor
  · intro h i hi j hj t t'
    have hcovers := covers_once (Classical.arbitrary τ) items
    have hlast : ∀ (t : τ) (i : ι), i ∈ items →
        Covers items (items.map (fun i => (Classical.arbitrary τ, i)) ++
          [(t, i)]) := by
      intro t i hi
      exact hcovers.repeat [] [(t, i)] (by simp) (by simpa using hi)
    have heq := h _ _ (hlast t i hi) (hlast t' j hj)
    rw [run_append, run_append] at heq
    exact heq
  · intro h r r' hr hr'
    by_cases hnil : items = []
    · subst hnil
      rw [hr.eq_nil, hr'.eq_nil]
    · obtain ⟨i, hi⟩ := List.exists_mem_of_ne_nil items hnil
      have hend : ∀ r : List (τ × ι), Covers items r →
          ∀ s, run (fun _ a => out a) s r = out (Classical.arbitrary τ, i) := by
        intro r hr s
        obtain ⟨t, ht⟩ := hr.exists_mem hi
        have hne : r ≠ [] := List.ne_nil_of_mem ht
        obtain ⟨front, last, rfl⟩ := List.eq_nil_or_concat r |>.resolve_left hne
        rw [List.concat_eq_append, run_append]
        exact h last.2 (hr.mem (by simp)) i hi last.1 _
      rw [hend r hr, hend r' hr']

/-- Each item once, in the order of the versions. -/
def InOrder (version : ι → Nat) (items : List ι) (r : List (τ × ι)) : Prop :=
  Covers items r ∧ (r.map (fun a => version a.2)).Pairwise (· < ·)

theorem exists_inOrder
    (t : τ) (version : ι → Nat) (items : List ι)
    (hdistinct : ∀ i ∈ items, ∀ j ∈ items, version i = version j → i = j) :
    ∃ r : List (τ × ι), InOrder version items r := by
  classical
  obtain ⟨sorted, hperm, hsorted⟩ : ∃ sorted : List ι,
      sorted.Perm items.dedup ∧
        sorted.Pairwise (fun i j => version i ≤ version j) := by
    refine ⟨_, List.mergeSort_perm items.dedup
      (fun i j => decide (version i ≤ version j)), ?_⟩
    refine (List.pairwise_mergeSort ?_ ?_ items.dedup).imp of_decide_eq_true
    · intro i j k hij hjk
      simp only [decide_eq_true_eq] at hij hjk ⊢
      exact Nat.le_trans hij hjk
    · intro i j
      simp only [Bool.or_eq_true, decide_eq_true_eq]
      exact Nat.le_total _ _
  have hmem : ∀ i, i ∈ sorted ↔ i ∈ items := by
    intro i
    rw [hperm.mem_iff, List.mem_dedup]
  have hnodup : sorted.Nodup := hperm.nodup_iff.mpr items.nodup_dedup
  refine ⟨sorted.map (fun i => (t, i)), ?_, ?_⟩
  · intro i
    simpa using hmem i
  · rw [List.map_map, List.pairwise_map]
    refine (hsorted.and hnodup).imp_of_mem ?_
    rintro i j hi hj ⟨hle, hne⟩
    refine Nat.lt_of_le_of_ne hle (fun heq => hne ?_)
    exact hdistinct i ((hmem i).mp hi) j ((hmem j).mp hj) heq

/-- It is enough to compare with the runs in version order. -/
theorem converges_iff_inOrder
    [Nonempty τ] {version : ι → Nat} {items : List ι}
    (hdistinct : ∀ i ∈ items, ∀ j ∈ items, version i = version j → i = j)
    (step : σ → τ × ι → σ) (s : σ) :
    Converges step s items ↔
      ∀ r r₀, Covers items r → InOrder version items r₀ →
        run step s r = run step s r₀ := by
  constructor
  · intro h r r₀ hr hr₀
    exact h r r₀ hr hr₀.1
  · intro h r r' hr hr'
    obtain ⟨r₀, hr₀⟩ := exists_inOrder (Classical.arbitrary τ) version items
      hdistinct
    rw [h r r₀ hr hr₀, h r' r₀ hr' hr₀]

end Converges

section Removal

variable {ρ : Type u} {τ : Type v} {ι : Type w}

/-- Some items remove the row, the others change it. -/
def withRemoval
    (removes : ι → Bool) (step : Option ρ → τ × ι → Option ρ)
    (s : Option ρ) (a : τ × ι) : Option ρ :=
  if removes a.2 then none else step s a

theorem withRemoval_of_removes
    {removes : ι → Bool} {a : τ × ι} (h : removes a.2 = true)
    (step : Option ρ → τ × ι → Option ρ) (s : Option ρ) :
    withRemoval removes step s a = none :=
  if_pos h

theorem withRemoval_of_keeps
    {removes : ι → Bool} {a : τ × ι} (h : removes a.2 = false)
    (step : Option ρ → τ × ι → Option ρ) (s : Option ρ) :
    withRemoval removes step s a = step s a :=
  if_neg (by simp [h])

/-- An item that removes and an item that stores do not commute. -/
theorem converges_withRemoval_iff
    [Nonempty τ] {removes : ι → Bool} {step : Option ρ → τ × ι → Option ρ}
    (hstores : ∀ s a, (step s a).isSome = true) (s : Option ρ)
    (items : List ι) :
    Converges (withRemoval removes step) s items ↔
      (∀ i ∈ items, removes i = true) ∨
        ((∀ i ∈ items, removes i = false) ∧ Converges step s items) := by
  constructor
  · intro h
    by_cases hall : ∀ i ∈ items, removes i = true
    · exact Or.inl hall
    · simp only [not_forall, Bool.not_eq_true] at hall
      obtain ⟨u, hu, hkeeps⟩ := hall
      have hnone : ∀ i ∈ items, removes i = false := by
        intro d hd
        by_contra hremoves
        rw [Bool.not_eq_false] at hremoves
        have t : τ := Classical.arbitrary τ
        have hcovers := covers_once t items
        have hleft := hcovers.repeat [] [(t, d)] (by simp) (by simpa using hd)
        have hright := hcovers.repeat [] [(t, u)] (by simp) (by simpa using hu)
        have heq := h _ _ hleft hright
        rw [List.nil_append, List.nil_append, run_append, run_append] at heq
        simp only [run_cons, run_nil, withRemoval, hremoves, hkeeps, if_true,
          Bool.false_eq_true, if_false] at heq
        have hsome := hstores
          (run (withRemoval removes step) s (items.map (fun i => (t, i)))) (t, u)
        rw [← heq] at hsome
        cases hsome
      refine Or.inr ⟨hnone, (converges_congr ?_ s).mp h⟩
      intro s t i hi
      exact withRemoval_of_keeps (hnone i hi) step s
  · rintro (hall | ⟨hnone, h⟩)
    · refine (converges_congr ?_ s).mpr
        (converges_of_idempotent (f := fun _ => none) (fun _ => rfl) s items)
      intro s t i hi
      exact withRemoval_of_removes (hall i hi) step s
    · refine (converges_congr ?_ s).mpr h
      intro s t i hi
      exact withRemoval_of_keeps (hnone i hi) step s

end Removal

section Register

variable (ρ : Type u) (τ : Type v) (ι : Type w) (β γ : Type u)

/--
A row with a version.  An item that is not older writes its version and its core
and, if it says something about it, the kept part.
-/
structure Register where
  /-- The item concerns the row at all. -/
  touches : ι → Bool
  version : ι → Int
  rowVersion : ρ → Int
  core : ρ → β
  kept : ρ → γ
  coreOf : τ → ι → β
  keptOf : ι → Option γ
  /-- The kept part where there is no row and the item says nothing. -/
  initial : ι → γ
  write : τ → ι → Option ρ → ρ
  row_ext : ∀ r r', core r = core r' → kept r = kept r' → r = r'
  write_version : ∀ t i o, rowVersion (write t i o) = version i
  write_core : ∀ t i o, core (write t i o) = coreOf t i
  write_kept : ∀ t i o,
    kept (write t i o) = (keptOf i).getD ((o.map kept).getD (initial i))

variable {ρ τ ι β γ}
variable (R : Register ρ τ ι β γ)

/-- `INSERT .. ON CONFLICT DO UPDATE .. WHERE` the item is not older. -/
def Register.step (s : Option ρ) (a : τ × ι) : Option ρ :=
  if R.touches a.2 then
    match s with
    | none => some (R.write a.1 a.2 none)
    | some r =>
        if R.rowVersion r ≤ R.version a.2 then some (R.write a.1 a.2 (some r))
        else some r
  else
    s

/-- The item can be taken over the row. -/
def Register.Takes (o : Option ρ) (i : ι) : Prop :=
  R.touches i = true ∧ ∀ r, o = some r → R.rowVersion r ≤ R.version i

/-- The newest of the items that can be taken. -/
def Register.Newest (o : Option ρ) (items : List ι) (m : ι) : Prop :=
  m ∈ items ∧ R.Takes o m ∧
    ∀ i ∈ items, R.touches i = true → R.version i ≤ R.version m

/-- The kept part after the item alone. -/
def Register.keptAfter (o : Option ρ) (i : ι) : γ :=
  (R.keptOf i).getD ((o.map R.kept).getD (R.initial i))

variable {R}
variable {o : Option ρ} {items : List ι} {m : ι}

theorem Register.step_of_takes
    {i : ι} (h : R.Takes o i) (t : τ) :
    R.step o (t, i) = some (R.write t i o) := by
  unfold Register.step
  rw [if_pos h.1]
  cases o with
  | none => rfl
  | some r => exact if_pos (h.2 r rfl)

theorem Register.step_of_not_takes
    {i : ι} (h : ¬ R.Takes o i) (t : τ) :
    R.step o (t, i) = o := by
  unfold Register.step
  by_cases htouch : R.touches i = true
  · rw [if_pos htouch]
    cases o with
    | none => exact absurd ⟨htouch, fun _ hr => by cases hr⟩ h
    | some r =>
        have hlt : ¬ R.rowVersion r ≤ R.version i := by
          intro hle
          exact h ⟨htouch, fun r' hr' => by cases hr'; exact hle⟩
        exact if_neg hlt
  · rw [if_neg htouch]

theorem Register.isSome_step
    {i : ι} (htouch : R.touches i = true) (o : Option ρ) (t : τ) :
    (R.step o (t, i)).isSome = true := by
  by_cases htakes : R.Takes o i
  · rw [R.step_of_takes htakes t]
    rfl
  · rw [R.step_of_not_takes htakes t]
    cases o with
    | none => exact absurd ⟨htouch, fun _ hr => by cases hr⟩ htakes
    | some r => rfl

/-- The row that the newest item left, at one of the moments `C` speaks of. -/
def Register.Settled (R : Register ρ τ ι β γ) (m : ι) (C : β → Prop) (k : γ)
    (s : Option ρ) : Prop :=
  ∃ r, s = some r ∧ R.rowVersion r = R.version m ∧ C (R.core r) ∧ R.kept r = k

/-- What the newest item left stays. -/
theorem Register.Settled.run
    {C : β → Prop} {k : γ} (hnewest : R.Newest o items m)
    (hdistinct : ∀ i ∈ items, R.version i = R.version m → i = m)
    (hk : (R.keptOf m).getD k = k) {r : List (τ × ι)}
    (hr : ∀ a ∈ r, a.2 ∈ items) (hC : ∀ a ∈ r, a.2 = m → C (R.coreOf a.1 m))
    {s : Option ρ} (hs : R.Settled m C k s) :
    R.Settled m C k (EventRun.run R.step s r) := by
  induction r generalizing s with
  | nil =>
      exact hs
  | cons a r ih =>
      refine ih (fun b hb => hr b (List.mem_cons_of_mem _ hb))
        (fun b hb => hC b (List.mem_cons_of_mem _ hb)) ?_
      obtain ⟨row, rfl, hversion, hcore, hkept⟩ := hs
      by_cases htakes : R.Takes (some row) a.2
      · -- only the newest item itself is not older than what it left
        have hle := hnewest.2.2 a.2 (hr a List.mem_cons_self) htakes.1
        have hge := htakes.2 row rfl
        have ham : a.2 = m :=
          hdistinct a.2 (hr a List.mem_cons_self) (by omega)
        rw [show a = (a.1, a.2) from rfl, R.step_of_takes htakes a.1]
        refine ⟨_, rfl, ?_, ?_, ?_⟩
        · rw [R.write_version, ham]
        · rw [R.write_core, ham]
          exact hC a List.mem_cons_self ham
        · rw [R.write_kept, ham, Option.map_some, Option.getD_some, hkept, hk]
      · rw [show a = (a.1, a.2) from rfl, R.step_of_not_takes htakes a.1]
        exact ⟨row, rfl, hversion, hcore, hkept⟩

theorem Register.exists_newest
    {i : ι} (hi : i ∈ items) (htakes : R.Takes o i) :
    ∃ m, R.Newest o items m := by
  have hmem : i ∈ items.filter (fun i => R.touches i) :=
    List.mem_filter.mpr ⟨hi, htakes.1⟩
  cases hmax : (items.filter (fun i => R.touches i)).argmax R.version with
  | none =>
      rw [List.argmax_eq_none.mp hmax] at hmem
      cases hmem
  | some m =>
      obtain ⟨hm, htouch⟩ := List.mem_filter.mp (List.argmax_mem hmax)
      have hle : ∀ j ∈ items, R.touches j = true → R.version j ≤ R.version m :=
        fun j hj ht => List.le_of_mem_argmax (List.mem_filter.mpr ⟨hj, ht⟩) hmax
      refine ⟨m, hm, ⟨htouch, fun r hr => ?_⟩, hle⟩
      exact Int.le_trans (htakes.2 r hr) (hle i hi htakes.1)

/-- Before and after other items the newest can be taken. -/
theorem Register.Newest.takes_run
    (hnewest : R.Newest o items m) {r : List (τ × ι)}
    (hr : ∀ a ∈ r, a.2 ∈ items) :
    R.Takes (EventRun.run R.step o r) m := by
  suffices h : ∀ s, R.Takes s m → R.Takes (EventRun.run R.step s r) m from
    h o hnewest.2.1
  induction r with
  | nil =>
      exact fun s hs => hs
  | cons a r ih =>
      intro s hs
      refine ih (fun b hb => hr b (List.mem_cons_of_mem _ hb)) _ ?_
      by_cases htakes : R.Takes s a.2
      · rw [show a = (a.1, a.2) from rfl, R.step_of_takes htakes a.1]
        refine ⟨hs.1, ?_⟩
        rintro row ⟨⟩
        rw [R.write_version]
        exact hnewest.2.2 a.2 (hr a List.mem_cons_self) htakes.1
      · rw [show a = (a.1, a.2) from rfl, R.step_of_not_takes htakes a.1]
        exact hs

/-- The newest item settles the row, with the kept part it found or wrote. -/
theorem Register.settled_of_newest
    (C : β → Prop) (r r' : List (τ × ι)) (t : τ)
    (hnewest : R.Newest o items m)
    (hdistinct : ∀ i ∈ items, R.version i = R.version m → i = m)
    (hr : ∀ a ∈ r ++ (t, m) :: r', a.2 ∈ items)
    (hC : ∀ a ∈ (t, m) :: r', a.2 = m → C (R.coreOf a.1 m)) :
    R.Settled m C (R.keptAfter (EventRun.run R.step o r) m)
      (EventRun.run R.step o (r ++ (t, m) :: r')) := by
  have htakes : R.Takes (EventRun.run R.step o r) m :=
    hnewest.takes_run (fun a ha => hr a (List.mem_append_left _ ha))
  rw [run_append, run_cons, R.step_of_takes htakes t]
  refine Register.Settled.run hnewest hdistinct ?_
    (fun a ha => hr a (List.mem_append_right _ (List.mem_cons_of_mem _ ha)))
    (fun a ha => hC a (List.mem_cons_of_mem _ ha)) ?_
  · unfold Register.keptAfter
    cases R.keptOf m <;> rfl
  · exact ⟨_, rfl, R.write_version .., by
      rw [R.write_core]
      exact hC (t, m) List.mem_cons_self rfl, R.write_kept ..⟩

/-- Where the newest item says nothing about the kept part, nothing changes it. -/
theorem Register.keptAfter_run
    (hkept : R.keptOf m = none)
    (hsame : ∀ i ∈ items, R.Takes o i → R.keptAfter o i = R.keptAfter o m)
    {r : List (τ × ι)} (hr : ∀ a ∈ r, a.2 ∈ items) :
    R.keptAfter (EventRun.run R.step o r) m = R.keptAfter o m := by
  -- the row is the old one, or an item wrote it and left the common part
  let Inv : Option ρ → Prop := fun s =>
    s = o ∨ ∃ row, s = some row ∧ R.kept row = R.keptAfter o m ∧
      ∀ r₀, o = some r₀ → R.rowVersion r₀ ≤ R.rowVersion row
  have hstep : ∀ s, Inv s → ∀ a : τ × ι, a.2 ∈ items → Inv (R.step s a) := by
    rintro s hs ⟨t, i⟩ hi
    by_cases htakes : R.Takes s i
    · rw [R.step_of_takes htakes t]
      rcases hs with rfl | ⟨row, rfl, hrow, hold⟩
      · refine Or.inr ⟨_, rfl, ?_, ?_⟩
        · rw [R.write_kept]
          exact hsame i hi htakes
        · intro r₀ hr₀
          rw [R.write_version]
          exact htakes.2 r₀ hr₀
      · have hle := htakes.2 row rfl
        have htakes₀ : R.Takes o i :=
          ⟨htakes.1, fun r₀ hr₀ => Int.le_trans (hold r₀ hr₀) hle⟩
        refine Or.inr ⟨_, rfl, ?_, ?_⟩
        · rw [R.write_kept, Option.map_some, Option.getD_some, hrow]
          have hthis := hsame i hi htakes₀
          unfold Register.keptAfter at hthis
          cases hi' : R.keptOf i with
          | none => rfl
          | some k =>
              rw [hi'] at hthis
              exact hthis
        · intro r₀ hr₀
          rw [R.write_version]
          exact htakes₀.2 r₀ hr₀
    · rw [R.step_of_not_takes htakes t]
      exact hs
  have hinv : Inv (EventRun.run R.step o r) := by
    suffices h : ∀ s, Inv s → Inv (EventRun.run R.step s r) from h o (Or.inl rfl)
    induction r with
    | nil =>
        exact fun s hs => hs
    | cons a r ih =>
        intro s hs
        exact ih (fun b hb => hr b (List.mem_cons_of_mem _ hb)) _
          (hstep s hs a (hr a List.mem_cons_self))
  rcases hinv with heq | ⟨row, heq, hrow, -⟩
  · rw [heq]
  · rw [heq, Register.keptAfter, hkept, Option.getD_none, Option.map_some,
      Option.getD_some, hrow]

/--
The newest item that can be taken writes its core at all moments alike, and
either writes the kept part or finds the same in it whichever item came first.
-/
def Register.Determined
    (R : Register ρ τ ι β γ) (o : Option ρ) (items : List ι) : Prop :=
  ∀ m, R.Newest o items m →
    (∀ t t', R.coreOf t m = R.coreOf t' m) ∧
      ((R.keptOf m).isSome = true ∨
        ∀ i ∈ items, R.Takes o i → R.keptAfter o i = R.keptAfter o m)

/-- Versioned items with distinct versions converge exactly if they are determined. -/
theorem Register.converges_iff
    [Nonempty τ] (R : Register ρ τ ι β γ) (o : Option ρ) (items : List ι)
    (hdistinct : ∀ i ∈ items, ∀ j ∈ items, R.version i = R.version j → i = j) :
    Converges R.step o items ↔ R.Determined o items := by
  constructor
  · intro h m hnewest
    have hm := hnewest.1
    have hunique : ∀ i ∈ items, R.version i = R.version m → i = m :=
      fun i hi heq => hdistinct i hi m hm heq
    constructor
    · intro t t'
      have hend : ∀ t : τ, ∃ row,
          EventRun.run R.step o (items.map (fun i => (t, i))) = some row ∧
            R.core row = R.coreOf t m := by
        intro t
        obtain ⟨front, back, hsplit⟩ := List.append_of_mem hm
        have hmap : items.map (fun i => (t, i)) =
            front.map (fun i => (t, i)) ++ (t, m) :: back.map (fun i => (t, i)) := by
          rw [hsplit, List.map_append, List.map_cons]
        have hcovers := covers_once t items
        obtain ⟨row, hrow, -, hcore, -⟩ :=
          R.settled_of_newest (fun b => b = R.coreOf t m)
            (front.map (fun i => (t, i))) (back.map (fun i => (t, i))) t
            hnewest hunique (fun a ha => hcovers.mem (hmap ▸ ha)) (by
              intro a ha ham
              rcases List.mem_cons.mp ha with rfl | ha
              · rfl
              · obtain ⟨i, -, rfl⟩ := List.mem_map.mp ha
                rfl)
        exact ⟨row, hmap ▸ hrow, hcore⟩
      obtain ⟨row, hrow, hcore⟩ := hend t
      obtain ⟨row', hrow', hcore'⟩ := hend t'
      have heq := h _ _ (covers_once t items) (covers_once t' items)
      rw [hrow, hrow', Option.some.injEq] at heq
      rw [← hcore, ← hcore', heq]
    · cases hkept : R.keptOf m with
      | some k => exact Or.inl rfl
      | none =>
          refine Or.inr (fun i hi htakes => ?_)
          have t : τ := Classical.arbitrary τ
          have hcovers := covers_once t items
          have hend : ∀ before : List (τ × ι), (∀ a ∈ before, a.2 ∈ items) →
              ∃ row, EventRun.run R.step o
                (before ++ (t, m) :: items.map (fun i => (t, i))) = some row ∧
                  R.kept row = R.keptAfter (EventRun.run R.step o before) m := by
            intro before hbefore
            obtain ⟨row, hrow, -, -, hk⟩ :=
              R.settled_of_newest (fun _ => True) before
                (items.map (fun i => (t, i))) t hnewest hunique
                (by
                  intro a ha
                  rcases List.mem_append.mp ha with ha | ha
                  · exact hbefore a ha
                  · rcases List.mem_cons.mp ha with rfl | ha
                    · exact hm
                    · exact hcovers.mem ha)
                (fun _ _ _ => trivial)
            exact ⟨row, hrow, hk⟩
          obtain ⟨row, hrow, hk⟩ := hend [(t, i)] (by simpa using hi)
          obtain ⟨row', hrow', hk'⟩ := hend [] (by simp)
          have hleft := hcovers.repeat [(t, i), (t, m)] [] (by simp [hi, hm])
            (by simp)
          have hright := hcovers.repeat [(t, m)] [] (by simpa using hm) (by simp)
          have heq := h _ _ hleft hright
          simp only [List.append_nil, List.cons_append, List.nil_append] at heq
          rw [List.cons_append, List.nil_append] at hrow
          rw [List.nil_append] at hrow'
          rw [hrow, hrow', Option.some.injEq] at heq
          have hfirst : R.keptAfter (EventRun.run R.step o [(t, i)]) m =
              R.keptAfter o i := by
            rw [run_cons, run_nil, R.step_of_takes htakes t]
            unfold Register.keptAfter
            rw [hkept, Option.getD_none, Option.map_some, Option.getD_some,
              R.write_kept]
          rw [← hfirst, ← hk, heq, hk']
          rfl
  · intro h r r' hr hr'
    by_cases hnone : ∀ i ∈ items, ¬ R.Takes o i
    · have hkeep : ∀ r : List (τ × ι), (∀ a ∈ r, a.2 ∈ items) →
          EventRun.run R.step o r = o := by
        intro r
        induction r with
        | nil =>
            intro _
            rfl
        | cons a r ih =>
            intro hr
            rw [run_cons, show a = (a.1, a.2) from rfl,
              R.step_of_not_takes (hnone a.2 (hr a List.mem_cons_self)) a.1]
            exact ih (fun b hb => hr b (List.mem_cons_of_mem _ hb))
      rw [hkeep r (fun _ => hr.mem), hkeep r' (fun _ => hr'.mem)]
    · simp only [not_forall, not_not] at hnone
      obtain ⟨i, hi, htakes⟩ := hnone
      obtain ⟨m, hnewest⟩ := Register.exists_newest hi htakes
      obtain ⟨hcore, hkept⟩ := h m hnewest
      have t₀ : τ := Classical.arbitrary τ
      have hend : ∀ r : List (τ × ι), Covers items r → ∃ row,
          EventRun.run R.step o r = some row ∧ R.core row = R.coreOf t₀ m ∧
            R.kept row = R.keptAfter o m := by
        intro r hr
        obtain ⟨t, ht⟩ := hr.exists_mem hnewest.1
        obtain ⟨front, back, rfl⟩ := List.append_of_mem ht
        obtain ⟨row, hrow, -, hc, hk⟩ :=
          R.settled_of_newest (fun b => b = R.coreOf t₀ m) front back t hnewest
            (fun i hi heq => hdistinct i hi m hnewest.1 heq)
            (fun _ => hr.mem) (fun a _ _ => hcore a.1 t₀)
        refine ⟨row, hrow, hc, hk.trans ?_⟩
        cases hm : R.keptOf m with
        | some k => simp [Register.keptAfter, hm]
        | none =>
            refine Register.keptAfter_run hm
              (hkept.resolve_left (by simp [hm])) ?_
            exact fun a ha => hr.mem (List.mem_append_left _ ha)
      obtain ⟨row, hrow, hc, hk⟩ := hend r hr
      obtain ⟨row', hrow', hc', hk'⟩ := hend r' hr'
      rw [hrow, hrow', R.row_ext row row' (hc.trans hc'.symm) (hk.trans hk'.symm)]

/-- A register whose items write the whole row. -/
def Register.whole
    (touches : ι → Bool) (version : ι → Int) (rowVersion : ρ → Int)
    (rowOf : τ → ι → ρ) (hversion : ∀ t i, rowVersion (rowOf t i) = version i) :
    Register ρ τ ι ρ PUnit where
  touches := touches
  version := version
  rowVersion := rowVersion
  core := id
  kept _ := ⟨⟩
  coreOf := rowOf
  keptOf _ := some ⟨⟩
  initial _ := ⟨⟩
  write t i _ := rowOf t i
  row_ext _ _ h _ := h
  write_version t i _ := hversion t i
  write_core _ _ _ := rfl
  write_kept _ _ _ := rfl

end Register

end UpdateOrder
