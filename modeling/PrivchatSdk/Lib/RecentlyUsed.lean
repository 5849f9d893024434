import Mathlib.Algebra.BigOperators.Group.List.Basic
import Mathlib.Algebra.Order.BigOperators.Group.List
import Mathlib.Algebra.Order.Ring.Nat
import Mathlib.Data.List.Dedup
import Mathlib.Logic.Function.Basic

/-!
# A cache that forgets what was used longest ago

Entries under keys, the keys in the order of their last use, and a running total of what
the entries weigh.  Three things are kept beside each other that one of them determines:
the list has each key of an entry once (`Accounted`), the total is the sum over the
entries, and the list is in the order of use (`OrderedBy`).

`trim` drops entries from the front of the list while the total is over a budget;
`Trimmed` says which ones and that the total follows exactly.
-/

namespace RecentlyUsed

universe u v

structure Cache (κ : Type u) (ν : Type v) where
  entries : κ → Option ν
  order : List κ
  total : Nat

variable {κ : Type u} {ν : Type v}

section Operations

def Cache.empty : Cache κ ν where
  entries := fun _ => none
  order := []
  total := 0

/-- There is an entry under the key. -/
def Cache.live (c : Cache κ ν) (k : κ) : Bool :=
  (c.entries k).isSome

variable [DecidableEq κ]

/-- Use a key: it becomes the last one of the order. -/
def Cache.touch (c : Cache κ ν) (k : κ) : Cache κ ν :=
  { c with order := c.order.erase k ++ [k] }

variable (weight : ν → Nat)

/-- What the entry under a key weighs; nothing, where there is none. -/
def Cache.weightAt (c : Cache κ ν) (k : κ) : Nat :=
  (c.entries k).elim 0 weight

/-- Take out the entry of a key, and its weight off the total. -/
def Cache.drop (c : Cache κ ν) (k : κ) : Cache κ ν :=
  { c with
    entries := Function.update c.entries k none
    total := c.total - c.weightAt weight k }

def Cache.evict (c : Cache κ ν) (k : κ) : Cache κ ν :=
  { c.drop weight k with order := c.order.erase k }

/-- Put an entry under a key, in place of the one that is there. -/
def Cache.insert (c : Cache κ ν) (k : κ) (v : ν) : Cache κ ν :=
  Cache.touch
    { c.evict weight k with
      entries := Function.update (c.evict weight k).entries k (some v)
      total := (c.evict weight k).total + weight v } k

/-- Drop entries in the order given while the total is over the budget. -/
def Cache.trimFrom (budget : Nat) : Cache κ ν → List κ → Cache κ ν
  | c, [] => c
  | c, k :: ks =>
      if budget < c.total then
        Cache.trimFrom budget { c.drop weight k with order := ks } ks
      else
        c

def Cache.trim (budget : Nat) (c : Cache κ ν) : Cache κ ν :=
  c.trimFrom weight budget c.order

end Operations

section Accounting

/-- The list has the keys of the entries, once each, and the total is their weight. -/
structure Cache.Accounted (weight : ν → Nat) (c : Cache κ ν) : Prop where
  nodup : c.order.Nodup
  mem_order : ∀ k, k ∈ c.order ↔ c.live k
  total_eq : c.total = (c.order.map (c.weightAt weight)).sum

variable {weight : ν → Nat} {c : Cache κ ν} {k : κ}

theorem Cache.accounted_empty : (Cache.empty : Cache κ ν).Accounted weight where
  nodup := List.nodup_nil
  mem_order := fun k => by simp [Cache.empty, Cache.live]
  total_eq := rfl

theorem Cache.weightAt_of_not_live (h : ¬ c.live k) : c.weightAt weight k = 0 := by
  have hnone : c.entries k = none := by
    simpa [Cache.live] using h
  simp [Cache.weightAt, hnone]

theorem nodup_append_singleton {l : List κ} (h : l.Nodup) (hk : k ∉ l) :
    (l ++ [k]).Nodup := by
  refine List.nodup_append.mpr ⟨h, List.nodup_singleton k, fun a ha b hb heq => ?_⟩
  rw [List.mem_singleton] at hb
  exact hk (hb ▸ heq ▸ ha)

/-- The total of an accounted cache covers each of its entries. -/
theorem Cache.Accounted.weightAt_le (h : c.Accounted weight) (k : κ) :
    c.weightAt weight k ≤ c.total := by
  by_cases hlive : c.live k
  · rw [h.total_eq]
    have hmem : c.weightAt weight k ∈ c.order.map (c.weightAt weight) :=
      List.mem_map_of_mem ((h.mem_order k).mpr hlive)
    exact List.le_sum_of_mem hmem
  · rw [Cache.weightAt_of_not_live hlive]
    exact Nat.zero_le _

variable [DecidableEq κ]

/-- Nothing is lost where the weight of an entry comes off the total. -/
theorem Cache.Accounted.evict_exact (h : c.Accounted weight) (k : κ) :
    (c.evict weight k).total + c.weightAt weight k = c.total :=
  Nat.sub_add_cancel (h.weightAt_le k)

theorem Cache.Accounted.touch (h : c.Accounted weight) (hk : c.live k) :
    (c.touch k).Accounted weight where
  nodup := by
    have hnot : k ∉ c.order.erase k := fun hmem =>
      ((h.nodup.mem_erase_iff).mp hmem).1 rfl
    exact nodup_append_singleton (h.nodup.erase k) hnot
  mem_order := fun j => by
    have hmem : j ∈ (c.touch k).order ↔ j ∈ c.order := by
      rw [Cache.touch, List.mem_append, h.nodup.mem_erase_iff, List.mem_singleton]
      constructor
      · rintro (⟨-, hj⟩ | rfl)
        · exact hj
        · exact (h.mem_order j).mpr hk
      · intro hj
        by_cases heq : j = k
        · exact Or.inr heq
        · exact Or.inl ⟨heq, hj⟩
    exact hmem.trans (h.mem_order j)
  total_eq := by
    have hsum := List.sum_map_erase (c.weightAt weight) ((h.mem_order k).mpr hk)
    have htouch : ((c.touch k).order.map (c.weightAt weight)).sum =
        c.weightAt weight k + ((c.order.erase k).map (c.weightAt weight)).sum := by
      simp [Cache.touch, Nat.add_comm]
    exact h.total_eq.trans (hsum.symm.trans htouch.symm)

theorem Cache.weightAt_evict (j : κ) :
    (c.evict weight k).weightAt weight j =
      if j = k then 0 else c.weightAt weight j := by
  by_cases hj : j = k
  · subst hj
    simp [Cache.weightAt, Cache.evict, Cache.drop]
  · simp [Cache.weightAt, Cache.evict, Cache.drop, hj]

theorem Cache.live_evict (j : κ) :
    (c.evict weight k).live j = (j != k && c.live j) := by
  by_cases hj : j = k
  · subst hj
    simp [Cache.live, Cache.evict, Cache.drop]
  · simp [Cache.live, Cache.evict, Cache.drop, hj]

theorem Cache.Accounted.evict (h : c.Accounted weight) (k : κ) :
    (c.evict weight k).Accounted weight where
  nodup := h.nodup.erase k
  mem_order := fun j => by
    rw [Cache.live_evict]
    have hmem : j ∈ (c.evict weight k).order ↔ j ≠ k ∧ j ∈ c.order :=
      h.nodup.mem_erase_iff
    rw [hmem, h.mem_order]
    simp
  total_eq := by
    have hrest : ((c.order.erase k).map ((c.evict weight k).weightAt weight)).sum =
        ((c.order.erase k).map (c.weightAt weight)).sum := by
      congr 1
      refine List.map_congr_left (fun j hj => ?_)
      rw [Cache.weightAt_evict, if_neg ((h.nodup.mem_erase_iff).mp hj).1]
    have hexact := h.evict_exact k
    by_cases hlive : c.live k
    · have hsum := List.sum_map_erase (c.weightAt weight) ((h.mem_order k).mpr hlive)
      rw [h.total_eq] at hexact
      refine Eq.trans ?_ hrest.symm
      omega
    · have hnot : k ∉ c.order := fun hmem => hlive ((h.mem_order k).mp hmem)
      rw [Cache.weightAt_of_not_live hlive, h.total_eq] at hexact
      refine Eq.trans ?_ hrest.symm
      rw [List.erase_of_not_mem hnot]
      exact hexact

theorem Cache.live_insert (v : ν) (j : κ) :
    (c.insert weight k v).live j = (decide (j = k) || c.live j) := by
  by_cases hj : j = k
  · subst hj
    simp [Cache.live, Cache.insert, Cache.touch]
  · simp [Cache.live, Cache.insert, Cache.touch, Cache.evict, Cache.drop, hj]

theorem Cache.Accounted.insert (h : c.Accounted weight) (k : κ) (v : ν) :
    (c.insert weight k v).Accounted weight := by
  have hevict := h.evict k
  have hnot : k ∉ (c.evict weight k).order := fun hmem => by
    have hlive := (hevict.mem_order k).mp hmem
    rw [Cache.live_evict] at hlive
    simp at hlive
  have horder : (c.insert weight k v).order = (c.evict weight k).order ++ [k] := by
    exact congrArg (fun l => l ++ [k]) (List.erase_of_not_mem hnot)
  refine ⟨?_, fun j => ?_, ?_⟩
  · rw [horder]
    exact nodup_append_singleton hevict.nodup hnot
  · rw [horder, List.mem_append, List.mem_singleton, hevict.mem_order, Cache.live_evict,
      Cache.live_insert]
    by_cases hj : j = k
    · simp [hj]
    · simp [hj]
  · have hself : (c.insert weight k v).weightAt weight k = weight v := by
      simp [Cache.weightAt, Cache.insert, Cache.touch]
    have hrest : ((c.evict weight k).order.map ((c.insert weight k v).weightAt weight)) =
        (c.evict weight k).order.map ((c.evict weight k).weightAt weight) := by
      refine List.map_congr_left (fun j hj => ?_)
      have hne : j ≠ k := fun heq => hnot (heq ▸ hj)
      simp [Cache.weightAt, Cache.insert, Cache.touch, hne]
    rw [horder, List.map_append, List.sum_append, hrest, ← hevict.total_eq,
      List.map_singleton, hself, List.sum_singleton]
    rfl

end Accounting

section Trimming

variable [DecidableEq κ] {weight : ν → Nat}

/-- What trimming to a budget did: the keys that went, and why each of them. -/
structure Trimmed (weight : ν → Nat) (budget : Nat) (c c' : Cache κ ν) (gone : List κ) :
    Prop where
  /-- They were the ones used longest ago. -/
  order : c.order = gone ++ c'.order
  entries : ∀ k, c'.entries k = if k ∈ gone then none else c.entries k
  /-- The total lost exactly what they weighed. -/
  exact : c'.total + (gone.map (c.weightAt weight)).sum = c.total
  /-- Each went while the total of what was left was over the budget. -/
  needed : ∀ before k after, gone = before ++ k :: after →
    budget + (before.map (c.weightAt weight)).sum < c.total
  within : c'.total ≤ budget

theorem Cache.Accounted.trimFrom {budget : Nat} (ks : List κ) {c : Cache κ ν}
    (h : c.Accounted weight) (horder : c.order = ks) :
    (c.trimFrom weight budget ks).Accounted weight ∧
      ∃ gone, Trimmed weight budget c (c.trimFrom weight budget ks) gone := by
  induction ks generalizing c with
  | nil =>
      refine ⟨h, [], ?_⟩
      have hzero : c.total = 0 := by
        rw [h.total_eq, horder]
        rfl
      exact
        { order := rfl
          entries := fun k => by simp [Cache.trimFrom]
          exact := rfl
          needed := fun before k after heq => by simp at heq
          within := by simp [Cache.trimFrom, hzero] }
  | cons oldest ks ih =>
      unfold Cache.trimFrom
      split
      · rename_i hover
        have hevict : { c.drop weight oldest with order := ks } =
            c.evict weight oldest := by
          rw [Cache.evict, horder, List.erase_cons_head]
        have hks : (c.evict weight oldest).order = ks := by
          rw [Cache.evict, horder, List.erase_cons_head]
        have hnot : oldest ∉ ks := (List.nodup_cons.mp (horder ▸ h.nodup)).1
        rw [hevict]
        obtain ⟨haccounted, gone, hgone⟩ := ih (h.evict oldest) hks
        have hexact := h.evict_exact oldest
        -- what goes later weighs what it weighed before the first one went
        have hweights : ∀ l : List κ, l ⊆ ks →
            l.map ((c.evict weight oldest).weightAt weight) =
              l.map (c.weightAt weight) := by
          intro l hl
          refine List.map_congr_left (fun j hj => ?_)
          have hne : j ≠ oldest := fun heq => hnot (heq ▸ hl hj)
          rw [Cache.weightAt_evict, if_neg hne]
        have hsub : gone ⊆ ks := fun j hj => by
          rw [← hks, hgone.order]
          exact List.mem_append_left _ hj
        refine ⟨haccounted, oldest :: gone, ?_⟩
        exact
          { order := by rw [horder, List.cons_append, ← hgone.order, hks]
            entries := fun k => by
              rw [hgone.entries]
              by_cases hk : k = oldest
              · simp [hk, Cache.evict, Cache.drop]
              · simp [hk, Cache.evict, Cache.drop]
            exact := by
              have hrest := hgone.exact
              rw [hweights gone hsub] at hrest
              rw [List.map_cons, List.sum_cons]
              omega
            needed := by
              intro before k after heq
              cases before with
              | nil =>
                  simpa using hover
              | cons first before =>
                  obtain ⟨rfl, hafter⟩ := List.cons.inj heq
                  have hbefore : before ⊆ ks := fun j hj =>
                    hsub (hafter ▸ List.mem_append_left _ hj)
                  have hneeded := hgone.needed before k after hafter
                  rw [hweights before hbefore] at hneeded
                  rw [List.map_cons, List.sum_cons]
                  omega
            within := hgone.within }
      · rename_i hwithin
        exact ⟨h, [],
          { order := rfl
            entries := fun k => by simp
            exact := rfl
            needed := fun before k after heq => by simp at heq
            within := Nat.le_of_not_lt hwithin }⟩

/-- Trimming keeps the accounts and ends within the budget. -/
theorem Cache.Accounted.trim {c : Cache κ ν} (h : c.Accounted weight) (budget : Nat) :
    (c.trim weight budget).Accounted weight ∧
      ∃ gone, Trimmed weight budget c (c.trim weight budget) gone :=
  h.trimFrom c.order rfl

end Trimming

section Order

variable [DecidableEq κ]

/-- The keys of the entries stand in the order of their last use. -/
def Cache.OrderedBy (uses : List κ) (c : Cache κ ν) : Prop :=
  c.order = uses.dedup.filter c.live

variable {uses : List κ} {c c' : Cache κ ν}

theorem Cache.orderedBy_of_none (horder : c.order = []) (h : ∀ k, ¬ c.live k) :
    c.OrderedBy uses := by
  rw [Cache.OrderedBy, horder]
  exact (List.filter_eq_nil_iff.mpr (fun k _ => h k)).symm

/-- A key that is used moves to the end of the keys used so far. -/
theorem dedup_append_singleton (uses : List κ) (k : κ) :
    (uses ++ [k]).dedup = uses.dedup.filter (fun j => j != k) ++ [k] := by
  induction uses with
  | nil =>
      simp
  | cons j uses ih =>
      rw [List.cons_append, List.dedup_cons, List.dedup_cons, ih]
      by_cases hk : j = k
      · subst hk
        by_cases hj : j ∈ uses
        · simp [hj]
        · simp [hj]
      · by_cases hj : j ∈ uses
        · simp [hj]
        · simp [hj, hk]

/-- Losing entries leaves the order of those that stay. -/
theorem Cache.OrderedBy.restrict (h : c.OrderedBy uses) (keep : κ → Bool)
    (horder : c'.order = c.order.filter keep)
    (hlive : ∀ k, c'.live k = (keep k && c.live k)) :
    c'.OrderedBy uses := by
  rw [Cache.OrderedBy, horder, h, List.filter_filter]
  exact List.filter_congr (fun k _ => (hlive k).symm)

/-- Using a key that has an entry afterwards puts it last. -/
theorem Cache.OrderedBy.use (h : c.OrderedBy uses) {k : κ}
    (horder : c'.order = c.order.filter (fun j => j != k) ++ [k])
    (hself : c'.live k) (hlive : ∀ j, j ≠ k → c'.live j = c.live j) :
    c'.OrderedBy (uses ++ [k]) := by
  rw [Cache.OrderedBy, horder, h, dedup_append_singleton, List.filter_append,
    List.filter_filter, List.filter_filter]
  congr 1
  · refine List.filter_congr (fun j _ => ?_)
    by_cases hj : j = k
    · simp [hj]
    · rw [hlive j hj, Bool.and_comm]
  · simp [hself]

variable {weight : ν → Nat}

theorem Cache.OrderedBy.touch (h : c.OrderedBy uses) (hc : c.Accounted weight) {k : κ}
    (hk : c.live k) : (c.touch k).OrderedBy (uses ++ [k]) := by
  refine h.use ?_ hk (fun _ _ => rfl)
  exact congrArg (fun l => l ++ [k]) (hc.nodup.erase_eq_filter k)

theorem Cache.OrderedBy.evict (h : c.OrderedBy uses) (hc : c.Accounted weight) (k : κ) :
    (c.evict weight k).OrderedBy uses :=
  h.restrict (fun j => j != k) (hc.nodup.erase_eq_filter k) (fun j => Cache.live_evict j)

theorem Cache.OrderedBy.insert (h : c.OrderedBy uses) (hc : c.Accounted weight) (k : κ)
    (v : ν) : (c.insert weight k v).OrderedBy (uses ++ [k]) := by
  have hevict := hc.evict k
  have hnot : k ∉ (c.evict weight k).order := fun hmem => by
    have hlive := (hevict.mem_order k).mp hmem
    rw [Cache.live_evict] at hlive
    simp at hlive
  refine h.use ?_ ?_ (fun j hj => ?_)
  · have horder : (c.insert weight k v).order = (c.evict weight k).order ++ [k] :=
      congrArg (fun l => l ++ [k]) (List.erase_of_not_mem hnot)
    rw [horder]
    exact congrArg (fun l => l ++ [k]) (hc.nodup.erase_eq_filter k)
  · rw [Cache.live_insert]
    simp
  · rw [Cache.live_insert]
    simp [hj]

theorem Cache.OrderedBy.trimmed (h : c.OrderedBy uses) (hc : c.Accounted weight)
    {budget : Nat} {gone : List κ} (hgone : Trimmed weight budget c c' gone) :
    c'.OrderedBy uses := by
  have hnodup : (gone ++ c'.order).Nodup := hgone.order ▸ hc.nodup
  refine h.restrict (fun k => decide (k ∉ gone)) ?_ (fun k => ?_)
  · rw [hgone.order, List.filter_append]
    have hnone : gone.filter (fun k => decide (k ∉ gone)) = [] :=
      List.filter_eq_nil_iff.mpr (fun k hk => by simp [hk])
    have hall : c'.order.filter (fun k => decide (k ∉ gone)) = c'.order :=
      List.filter_eq_self.mpr (fun k hk => by
        simpa using fun hmem => (List.disjoint_of_nodup_append hnodup) hmem hk)
    rw [hnone, hall, List.nil_append]
  · unfold Cache.live
    rw [hgone.entries]
    by_cases hk : k ∈ gone
    · simp [hk]
    · simp [hk]

end Order

end RecentlyUsed
