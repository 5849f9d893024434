import Mathlib.Data.List.Basic

/-!
# Picking what does not clash

From a list, in its order, everything is picked that clashes with nothing picked
before it.
-/

namespace GreedyPick

universe u v

variable {α : Type u} {β : Type v}

/-- Pick behind what is picked already. -/
def pickFrom (clash : α → α → Bool) : List α → List α → List α
  | picked, [] => picked
  | picked, x :: xs =>
      if picked.any (fun v => clash v x) then pickFrom clash picked xs
      else pickFrom clash (picked ++ [x]) xs

/-- What is picked from a list. -/
def pick (clash : α → α → Bool) (l : List α) : List α :=
  pickFrom clash [] l

variable {clash : α → α → Bool}

theorem pickFrom_sublist (picked l : List α) :
    (pickFrom clash picked l).Sublist (picked ++ l) := by
  induction l generalizing picked with
  | nil =>
      rw [pickFrom, List.append_nil]
  | cons x xs ih =>
      rw [pickFrom]
      split
      · exact (ih picked).trans ((List.sublist_cons_self x xs).append_left picked)
      · have hrest := ih (picked ++ [x])
        rwa [List.append_assoc, List.singleton_append] at hrest

theorem pick_sublist (l : List α) : (pick clash l).Sublist l :=
  pickFrom_sublist [] l

theorem pickFrom_pairwise {picked l : List α}
    (h : picked.Pairwise (fun a b => clash a b = false)) :
    (pickFrom clash picked l).Pairwise (fun a b => clash a b = false) := by
  induction l generalizing picked with
  | nil =>
      rwa [pickFrom]
  | cons x xs ih =>
      rw [pickFrom]
      split
      · exact ih h
      · rename_i hfree
        refine ih (List.pairwise_append.mpr ⟨h, List.pairwise_singleton _ _, ?_⟩)
        intro v hv y hy
        rw [List.mem_singleton.mp hy]
        have hnone := mt List.any_eq_true.mpr hfree
        rw [Bool.eq_false_iff]
        exact fun hclash => hnone ⟨v, hv, hclash⟩

/-- Nothing picked clashes with what is picked behind it. -/
theorem pick_pairwise (l : List α) :
    (pick clash l).Pairwise (fun a b => clash a b = false) :=
  pickFrom_pairwise List.Pairwise.nil

/-- What clashes alike is picked alike. -/
theorem pickFrom_map {clash' : β → β → Bool} {f : α → β} (picked l : List α)
    (h : ∀ a ∈ picked ++ l, ∀ b ∈ picked ++ l, clash' (f a) (f b) = clash a b) :
    pickFrom clash' (picked.map f) (l.map f) = (pickFrom clash picked l).map f := by
  induction l generalizing picked with
  | nil =>
      rfl
  | cons x xs ih =>
      have hany : (picked.map f).any (fun v => clash' v (f x)) =
          picked.any (fun v => clash v x) := by
        have hx : x ∈ picked ++ x :: xs := List.mem_append_right _ List.mem_cons_self
        rw [List.any_map, Bool.eq_iff_iff, List.any_eq_true, List.any_eq_true]
        refine exists_congr (fun v => and_congr_right (fun hv => ?_))
        rw [Function.comp_apply, h v (List.mem_append_left _ hv) x hx]
      rw [List.map_cons, pickFrom, pickFrom, hany]
      split
      · refine ih picked (fun a ha b hb => h a ?_ b ?_)
        · exact List.mem_append.mpr ((List.mem_append.mp ha).imp_right (List.mem_cons_of_mem x))
        · exact List.mem_append.mpr ((List.mem_append.mp hb).imp_right (List.mem_cons_of_mem x))
      · rw [← ih (picked ++ [x]), List.map_append]
        · rfl
        · rwa [List.append_assoc, List.singleton_append]

theorem pick_map {clash' : β → β → Bool} {f : α → β} {l : List α}
    (h : ∀ a ∈ l, ∀ b ∈ l, clash' (f a) (f b) = clash a b) :
    pick clash' (l.map f) = (pick clash l).map f :=
  pickFrom_map [] l h

end GreedyPick
