import Mathlib.Data.List.Pairwise
import Mathlib.Order.Basic

/-!
# A log that is read in pages

The entries of a log stand at increasing positions.  A reader asks for what lies
behind a position and gets a page, a first part of that.  The lemmas say what a page
holds: whatever lies behind the position and not behind an entry of the page.
-/

namespace LogPages

universe u

variable {α : Type u} (position : α → Nat)

def Increasing (log : List α) : Prop :=
  log.Pairwise (fun a b => position a < position b)

/-- The entries behind a position. -/
def behind (log : List α) (last : Nat) : List α :=
  log.filter (fun a => decide (last < position a))

/-- The position behind a page, or the old one if the page is empty. -/
def nextPosition (last : Nat) (page : List α) : Nat :=
  ((page.map position).max?).getD last

variable {position}
variable {log : List α} {a b : α}

theorem mem_behind {last : Nat} :
    a ∈ behind position log last ↔ a ∈ log ∧ last < position a := by
  simp [behind]

theorem Increasing.behind (h : Increasing position log) (last : Nat) :
    Increasing position (behind position log last) :=
  h.sublist List.filter_sublist

/-- A page reaches its entries. -/
theorem le_nextPosition {page : List α} {last : Nat} (ha : a ∈ page) :
    position a ≤ nextPosition position last page := by
  unfold nextPosition
  have hin : position a ∈ page.map position := List.mem_map_of_mem ha
  cases hmax : (page.map position).max? with
  | none =>
      rw [List.max?_eq_none_iff.mp hmax] at hin
      cases hin
  | some top => exact (List.max?_eq_some_iff.mp hmax).2 _ hin

/-- Two entries at one position are one entry. -/
theorem Increasing.eq_of_position (h : Increasing position log)
    (ha : a ∈ log) (hb : b ∈ log) (heq : position a = position b) : a = b := by
  refine List.Pairwise.forall_of_forall_of_flip (R := fun a b => position a = position b → a = b)
    ?_ ?_ ?_ ha hb heq
  · exact fun _ _ _ => rfl
  · exact h.imp (fun hlt hxy => absurd hxy (Nat.ne_of_lt hlt))
  · exact h.imp (fun hlt hxy => absurd hxy (Nat.ne_of_gt hlt))

/-- An entry that is not behind one of the list stands in front of it. -/
theorem Increasing.mem_front {front rest : List α}
    (h : Increasing position (front ++ a :: rest))
    (hb : b ∈ front ++ a :: rest) (hle : position b ≤ position a) :
    b ∈ front ∨ b = a := by
  rcases List.mem_append.mp hb with hfront | htail
  · exact Or.inl hfront
  · rcases List.mem_cons.mp htail with rfl | hrest
    · exact Or.inr rfl
    · have hlt := (List.pairwise_cons.mp (List.pairwise_append.mp h).2.1).1 b hrest
      omega

/-- A page holds what is not behind one of its entries. -/
theorem Increasing.mem_take (h : Increasing position log) {n : Nat}
    (ha : a ∈ log.take n) (hb : b ∈ log) (hle : position b ≤ position a) :
    b ∈ log.take n := by
  rw [← List.take_append_drop n log] at hb h
  rcases List.mem_append.mp hb with htake | hdrop
  · exact htake
  · have hlt := (List.pairwise_append.mp h).2.2 a ha b hdrop
    omega

/-- What is not behind the position behind a page is old or on the page. -/
theorem Increasing.mem_page (h : Increasing position log) {last n : Nat}
    (hb : b ∈ log)
    (hle : position b ≤
      nextPosition position last ((LogPages.behind position log last).take n)) :
    position b ≤ last ∨ b ∈ (LogPages.behind position log last).take n := by
  by_cases hold : position b ≤ last
  · exact Or.inl hold
  · have hbehind := mem_behind.mpr ⟨hb, Nat.lt_of_not_le hold⟩
    unfold nextPosition at hle
    cases hmax : (((LogPages.behind position log last).take n).map position).max? with
    | none =>
        rw [hmax, Option.getD_none] at hle
        exact absurd hle hold
    | some top =>
        rw [hmax, Option.getD_some] at hle
        obtain ⟨a, ha, rfl⟩ := List.mem_map.mp (List.max?_mem hmax)
        exact Or.inr ((h.behind last).mem_take ha hbehind hle)

end LogPages
