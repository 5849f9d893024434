import Mathlib.Data.Finset.Card
import Mathlib.Data.List.MinMax
import Mathlib.Data.List.Sort

/-!
# A window of a sorted table

The rows of a table are sorted by a key that no two of them share.  A window around a
row is read in two queries, one for the keys below its own and one for those above,
each cut off at a number of rows.  It is a slice of the sorted rows
(`isWindow_around`).

Two keys sort a table alike exactly if they order every two of its rows alike
(`ascending_eq_iff`).
-/

namespace SortedWindow

universe u v w

variable {ρ : Type u} {κ : Type v} [LinearOrder κ] (key : ρ → κ)

section Sorting

instance totalAscending : Std.Total (fun a b : ρ => key a ≤ key b) :=
  ⟨fun a b => le_total (key a) (key b)⟩

instance transAscending : IsTrans ρ (fun a b : ρ => key a ≤ key b) :=
  ⟨fun _ _ _ h h' => le_trans h h'⟩

instance totalDescending : Std.Total (fun a b : ρ => key b ≤ key a) :=
  ⟨fun a b => le_total (key b) (key a)⟩

instance transDescending : IsTrans ρ (fun a b : ρ => key b ≤ key a) :=
  ⟨fun _ _ _ h h' => le_trans h' h⟩

/-- The rows by rising key. -/
def ascending (rows : List ρ) : List ρ :=
  rows.insertionSort (fun a b => key a ≤ key b)

/-- The rows by falling key. -/
def descending (rows : List ρ) : List ρ :=
  rows.insertionSort (fun a b => key b ≤ key a)

/-- The row with the larger key, of one that may be there and another. -/
def largerOf : Option ρ → ρ → Option ρ :=
  List.argAux (fun b c => key c < key b)

/-- The row with the largest key. -/
def newest (rows : List ρ) : Option ρ :=
  rows.foldl (largerOf key) none

/-- No two rows share a key. -/
def DistinctKeys (rows : List ρ) : Prop :=
  rows.Pairwise (fun a b => key a ≠ key b)

/-- Strictly rising keys. -/
def Rising (rows : List ρ) : Prop :=
  rows.Pairwise (fun a b => key a < key b)

theorem newest_eq (rows : List ρ) : newest key rows = rows.argmax key := by
  rfl

variable {key} {rows : List ρ}

theorem ascending_perm (key : ρ → κ) (rows : List ρ) : (ascending key rows).Perm rows :=
  List.perm_insertionSort _ rows

theorem DistinctKeys.rising (h : DistinctKeys key rows) : Rising key (ascending key rows) := by
  have hdistinct : DistinctKeys key (ascending key rows) :=
    h.perm (ascending_perm key rows).symm (fun hne => hne.symm)
  have hsorted := List.pairwise_insertionSort (fun a b => key a ≤ key b) rows
  exact (hsorted.and hdistinct).imp (fun h => lt_of_le_of_ne h.1 h.2)

/-- There is one way to sort rows by rising keys. -/
theorem Rising.eq_of_perm {l l' : List ρ} (h : Rising key l) (h' : Rising key l')
    (hperm : l.Perm l') : l = l' := by
  refine List.Perm.eq_of_pairwise ?_ h h' hperm
  intro a b _ _ hab hba
  exact absurd hab (lt_asymm hba)

omit [LinearOrder κ] in
theorem DistinctKeys.filter (h : DistinctKeys key rows) (p : ρ → Bool) :
    DistinctKeys key (rows.filter p) :=
  List.Pairwise.filter p h

/-- What is picked out and sorted is what is sorted and picked out. -/
theorem DistinctKeys.ascending_filter (h : DistinctKeys key rows) (p : ρ → Bool) :
    ascending key (rows.filter p) = (ascending key rows).filter p := by
  refine (h.filter p).rising.eq_of_perm (List.Pairwise.filter p h.rising) ?_
  exact (ascending_perm key _).trans ((ascending_perm key rows).symm.filter p)

theorem DistinctKeys.descending_eq (h : DistinctKeys key rows) :
    descending key rows = (ascending key rows).reverse := by
  rw [← List.reverse_inj, List.reverse_reverse]
  have hperm : (descending key rows).reverse.Perm rows :=
    (List.reverse_perm _).trans (List.perm_insertionSort _ rows)
  refine Rising.eq_of_perm ?_ h.rising (hperm.trans (ascending_perm key rows).symm)
  have hsorted := List.pairwise_insertionSort (fun a b => key b ≤ key a) rows
  have hdistinct : DistinctKeys key (descending key rows) :=
    h.perm (List.perm_insertionSort _ rows).symm (fun hne => hne.symm)
  rw [Rising, List.pairwise_reverse]
  exact (hsorted.and hdistinct).imp (fun h => lt_of_le_of_ne h.1 h.2.symm)

omit [LinearOrder κ] in
theorem DistinctKeys.eq_of_key (h : DistinctKeys key rows) {a b : ρ} (ha : a ∈ rows) (hb : b ∈ rows)
    (heq : key a = key b) : a = b := by
  have hnodup : (rows.map key).Nodup := List.pairwise_map.mpr h
  exact List.inj_on_of_nodup_map hnodup ha hb heq

/-- The row with the largest key comes first. -/
theorem DistinctKeys.newest_eq_head? (h : DistinctKeys key rows) :
    newest key rows = (descending key rows).head? := by
  rw [newest_eq]
  have hperm : (descending key rows).Perm rows := List.perm_insertionSort _ rows
  have hsorted := List.pairwise_insertionSort (fun a b => key b ≤ key a) rows
  cases hfirst : descending key rows with
  | nil =>
      rw [hfirst] at hperm
      rw [List.nil_perm.mp hperm, List.argmax_nil, List.head?_nil]
  | cons x xs =>
      have hx : x ∈ rows := hperm.mem_iff.mp (hfirst ▸ List.mem_cons_self)
      cases hmax : rows.argmax key with
      | none =>
          rw [List.argmax_eq_none.mp hmax] at hx
          exact absurd hx List.not_mem_nil
      | some m =>
          have hm : m ∈ rows := List.argmax_mem hmax
          have hxm : key x ≤ key m := List.le_of_mem_argmax hx hmax
          have hmx : key m ≤ key x := by
            have hmem : m ∈ x :: xs := hfirst ▸ hperm.mem_iff.mpr hm
            rw [descending] at hfirst
            rw [hfirst] at hsorted
            rcases List.mem_cons.mp hmem with rfl | hrest
            · exact le_rfl
            · exact List.rel_of_pairwise_cons hsorted hrest
          rw [h.eq_of_key hm hx (le_antisymm hmx hxm), List.head?_cons]

/-- The rows below a row and those above it stand before and behind it. -/
theorem Rising.split {l pre post : List ρ} {a : ρ} (h : Rising key l)
    (hl : l = pre ++ a :: post) :
    l.filter (fun r => decide (key r < key a)) = pre ∧
      l.filter (fun r => decide (key a < key r)) = post := by
  subst hl
  obtain ⟨hpre, hpost, hcross⟩ := List.pairwise_append.mp h
  have hbelow : ∀ r ∈ pre, key r < key a := fun r hr => hcross r hr a List.mem_cons_self
  have habove : ∀ r ∈ post, key a < key r := (List.pairwise_cons.mp hpost).1
  constructor
  · rw [List.filter_append, List.filter_cons_of_neg (by simp),
      List.filter_eq_self.mpr (by simpa using hbelow),
      List.filter_eq_nil_iff.mpr (by simpa using fun r hr => (habove r hr).le),
      List.append_nil]
  · rw [List.filter_append, List.filter_cons_of_neg (by simp),
      List.filter_eq_nil_iff.mpr (by simpa using fun r hr => (hbelow r hr).le),
      List.filter_eq_self.mpr (by simpa using habove), List.nil_append]

end Sorting

section Windows

/-- At most `before` rows in front of the row, the row, at most `after` behind it. -/
def IsWindow {α : Type w} (full : List α) (a : α) (before after : Nat) (window : List α) :
    Prop :=
  ∃ pre post, full = pre ++ a :: post ∧
    window = pre.drop (pre.length - before) ++ a :: post.take after

/-- The rows around one: those below it, cut off from above, and those above it. -/
def around (rows : List ρ) (a : ρ) (before after : Nat) : List ρ :=
  ascending key ((descending key (rows.filter (fun r => key r < key a))).take before) ++
    a :: (ascending key (rows.filter (fun r => key a < key r))).take after

variable {key} {rows : List ρ} {a : ρ}

/-- The last rows of a sorted list, sorted again. -/
theorem DistinctKeys.ascending_take (h : DistinctKeys key rows) (n : Nat) :
    ascending key ((descending key rows).take n) =
      (ascending key rows).drop ((ascending key rows).length - n) := by
  rw [h.descending_eq, List.take_reverse]
  have hsub := List.drop_sublist ((ascending key rows).length - n) (ascending key rows)
  have hrising : Rising key ((ascending key rows).drop ((ascending key rows).length - n)) :=
    h.rising.sublist hsub
  have hdistinct : DistinctKeys key ((ascending key rows).drop
      ((ascending key rows).length - n)).reverse := by
    rw [DistinctKeys, List.pairwise_reverse]
    exact hrising.imp (fun hlt => hlt.ne')
  exact hdistinct.rising.eq_of_perm hrising
    ((ascending_perm key _).trans (List.reverse_perm _))

theorem isWindow_around (h : DistinctKeys key rows) (ha : a ∈ rows) (before after : Nat) :
    IsWindow (ascending key rows) a before after (around key rows a before after) := by
  obtain ⟨pre, post, hsplit⟩ := List.append_of_mem ((ascending_perm key rows).mem_iff.mpr ha)
  obtain ⟨hpre, hpost⟩ := h.rising.split hsplit
  refine ⟨pre, post, hsplit, ?_⟩
  rw [around, (h.filter _).ascending_take, h.ascending_filter, h.ascending_filter, hpre,
    hpost]

theorem IsWindow.sublist {α : Type w} {full window : List α} {a : α} {before after : Nat}
    (h : IsWindow full a before after window) : window.Sublist full := by
  obtain ⟨pre, post, rfl, rfl⟩ := h
  exact (List.drop_sublist _ pre).append ((List.take_sublist _ post).cons_cons a)

/-- A window that is wide enough is the whole. -/
theorem IsWindow.eq_full {α : Type w} {full window : List α} {a : α} {before after : Nat}
    (h : IsWindow full a before after window) (hbefore : full.length ≤ before)
    (hafter : full.length ≤ after) : window = full := by
  obtain ⟨pre, post, rfl, rfl⟩ := h
  rw [List.length_append, List.length_cons] at hbefore hafter
  rw [Nat.sub_eq_zero_of_le (by omega), List.drop_zero, List.take_of_length_le (by omega)]

end Windows

section TwoKeys

variable {μ : Type w} [LinearOrder μ] {key : ρ → κ} {key' : ρ → μ} {rows : List ρ}

/-- Two keys sort rows alike exactly if they order every two of them alike. -/
theorem ascending_eq_iff (h : DistinctKeys key rows) (h' : DistinctKeys key' rows) :
    ascending key rows = ascending key' rows ↔
      ∀ a ∈ rows, ∀ b ∈ rows, key a < key b ↔ key' a < key' b := by
  constructor
  · intro heq
    have hrising' := h'.rising
    rw [← heq] at hrising'
    have hboth := h.rising.and hrising'
    have hagree : ∀ a ∈ ascending key rows, ∀ b ∈ ascending key rows,
        (key a < key b ↔ key' a < key' b) := by
      refine fun a ha b hb => List.Pairwise.forall_of_forall_of_flip
        (R := fun a b => key a < key b ↔ key' a < key' b) ?_ ?_ ?_ ha hb
      · exact fun a _ => iff_of_false (lt_irrefl _) (lt_irrefl _)
      · exact hboth.imp (fun hab => iff_of_true hab.1 hab.2)
      · exact hboth.imp (fun hab => iff_of_false (lt_asymm hab.1) (lt_asymm hab.2))
    intro a ha b hb
    exact hagree a ((ascending_perm key rows).mem_iff.mpr ha) b
      ((ascending_perm key rows).mem_iff.mpr hb)
  · intro hagree
    refine Rising.eq_of_perm h.rising ?_
      ((ascending_perm key rows).trans (ascending_perm key' rows).symm)
    refine h'.rising.imp_of_mem (fun ha hb hlt => ?_)
    exact (hagree _ ((ascending_perm key' rows).mem_iff.mp ha) _
      ((ascending_perm key' rows).mem_iff.mp hb)).mpr hlt

end TwoKeys

end SortedWindow
