import Mathlib.Algebra.BigOperators.Group.List.Lemmas
import Mathlib.Algebra.Order.BigOperators.Group.List
import Mathlib.Data.List.AList
import Mathlib.Tactic.Abel

/-!
# Totals over a finite map

The total of an amount over the values of a finite map, as a query with `SUM`
computes it.  Two maps that agree away from one key have totals that differ by
the amounts under that key (`total_add_of_agree`), so the total after a write
follows from two lookups.
-/

namespace MapTotal

variable {κ ρ M : Type} [DecidableEq κ] [AddCommMonoid M]

/-- The total over the values that `p` selects. -/
def total (p : κ → ρ → Bool) (f : ρ → M) (m : AList (fun _ : κ => ρ)) : M :=
  ((m.entries.filter (fun e => p e.1 e.2)).map (fun e => f e.2)).sum

/-- The amount under one key, 0 where there is none. -/
def amount (f : ρ → M) (m : AList (fun _ : κ => ρ)) (k : κ) : M :=
  ((m.lookup k).map f).getD 0

section Totals

variable {f : ρ → M} {m m' : AList (fun _ : κ => ρ)} {k : κ}

theorem total_eq_erase (f : ρ → M) (m : AList (fun _ : κ => ρ)) (k : κ) :
    total (fun _ _ => true) f m =
      amount f m k + total (fun _ _ => true) f (m.erase k) := by
  simp only [total, List.filter_true]
  cases hk : m.lookup k with
  | none =>
      have hkeys : k ∉ m.entries.keys := by
        rw [← AList.keys, ← AList.mem_keys, ← AList.lookup_eq_none]
        exact hk
      have herase : (m.erase k).entries = m.entries :=
        List.kerase_of_notMem_keys hkeys
      simp [amount, hk, herase]
  | some r =>
      have hmem : k ∈ m.entries.keys := by
        rw [← AList.keys, ← AList.mem_keys, ← AList.lookup_isSome, hk]
        rfl
      obtain ⟨r', l₁, l₂, -, hentries, herase⟩ := List.exists_of_kerase hmem
      have hr : m.lookup k = some r' := by
        refine AList.mem_lookup_iff.mpr ?_
        simp [hentries]
      have herase' : (m.erase k).entries = l₁ ++ l₂ := herase
      obtain rfl : r' = r := Option.some.inj (hr.symm.trans hk)
      rw [herase', hentries]
      simp [amount, hr, add_left_comm]

/-- A write under one key changes the total by the amounts under it. -/
theorem total_add_of_agree
    (h : ∀ k', k' ≠ k → m'.lookup k' = m.lookup k') :
    total (fun _ _ => true) f m' + amount f m k =
      total (fun _ _ => true) f m + amount f m' k := by
  have hperm : (m'.erase k).entries.Perm (m.erase k).entries := by
    refine List.lookup_ext (m'.erase k).nodupKeys (m.erase k).nodupKeys ?_
    intro k' r
    have hlookup : (m'.erase k).lookup k' = (m.erase k).lookup k' := by
      by_cases hk : k' = k
      · rw [hk, AList.lookup_erase, AList.lookup_erase]
      · rw [AList.lookup_erase_ne hk, AList.lookup_erase_ne hk, h k' hk]
    exact Iff.of_eq (congrArg (r ∈ ·) hlookup)
  have hrest : total (fun _ _ => true) f (m'.erase k) =
      total (fun _ _ => true) f (m.erase k) := by
    simp only [total, List.filter_true]
    exact (hperm.map _).sum_eq
  rw [total_eq_erase f m' k, total_eq_erase f m k, hrest]
  abel

end Totals

section Selected

variable {f : ρ → M} {m : AList (fun _ : κ => ρ)}

/-- What is left out does not count where its amount is 0. -/
theorem total_eq_of_zero
    {p q : κ → ρ → Bool}
    (h : ∀ k r, m.lookup k = some r → q k r = true → p k r = false → f r = 0) :
    total q f m = total (fun k r => p k r && q k r) f m := by
  unfold total
  have hentries : ∀ e ∈ m.entries, q e.1 e.2 = true → p e.1 e.2 = false →
      f e.2 = 0 := fun e he => h e.1 e.2 (AList.mem_lookup_iff.mpr he)
  revert hentries
  induction m.entries with
  | nil =>
      exact fun _ => rfl
  | cons e rest ih =>
      intro hentries
      have hrest := ih (fun e' he' => hentries e' (List.mem_cons_of_mem _ he'))
      have hhead := hentries e List.mem_cons_self
      cases hq : q e.1 e.2 with
      | false =>
          simp [hq, hrest]
      | true =>
          cases hp : p e.1 e.2 with
          | true =>
              simp [hp, hq, hrest]
          | false =>
              simp [hp, hq, hrest, hhead hq hp]

end Selected

section Order

variable [PartialOrder M] [IsOrderedAddMonoid M]
variable {f : ρ → M} {m : AList (fun _ : κ => ρ)}

theorem total_nonneg
    (p : κ → ρ → Bool) (h : ∀ k r, m.lookup k = some r → 0 ≤ f r) :
    0 ≤ total p f m := by
  refine List.sum_nonneg (fun x hx => ?_)
  obtain ⟨e, he, rfl⟩ := List.mem_map.mp hx
  exact h e.1 e.2 (AList.mem_lookup_iff.mpr (List.mem_filter.mp he).1)

/-- A part of nonnegative amounts is at most the whole. -/
theorem total_le_total
    (p : κ → ρ → Bool) (h : ∀ k r, m.lookup k = some r → 0 ≤ f r) :
    total p f m ≤ total (fun _ _ => true) f m := by
  unfold total
  have hentries : ∀ e ∈ m.entries, 0 ≤ f e.2 :=
    fun e he => h e.1 e.2 (AList.mem_lookup_iff.mpr he)
  revert hentries
  induction m.entries with
  | nil =>
      exact fun _ => le_refl _
  | cons e rest ih =>
      intro hentries
      have hrest := ih (fun e' he' => hentries e' (List.mem_cons_of_mem _ he'))
      have hhead := hentries e List.mem_cons_self
      cases hp : p e.1 e.2 with
      | true =>
          have hsum := add_le_add (le_refl (f e.2)) hrest
          simpa [hp] using hsum
      | false =>
          have hsum := add_le_add hhead hrest
          simpa [hp] using hsum

end Order

end MapTotal
