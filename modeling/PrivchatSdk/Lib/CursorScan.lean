import Mathlib.Data.List.Rotate
import Mathlib.Order.Lattice

/-!
# Scanning a sorted list from a cursor

The scan order starts behind the cursor and goes on at the beginning.  A cursor
that moves to the last element of a consumed prefix rotates the scan order by
that prefix (`scanFrom_advance`).

A scan makes progress if each of its rounds does something that no later round undoes, or
comes nearer to something that is left to do; `exists_of_rank` is the rule for such runs,
and `countP_lt_of_imp` counts what is left to do.
-/

namespace CursorScan

universe u

section Progress

/--
From the time `start` on, every round that is not at its goal keeps the invariant and
lowers the rank; so the goal comes.
-/
theorem exists_of_rank (Inv goal : Nat → Prop) (rank : Nat → Nat) {start : Nat}
    (hstep : ∀ n, start ≤ n → Inv n → ¬ goal n → Inv (n + 1) ∧ rank (n + 1) < rank n)
    (hstart : Inv start) : ∃ n, start ≤ n ∧ Inv n ∧ goal n := by
  have hfrom : ∀ r n, start ≤ n → Inv n → rank n = r → ∃ m, start ≤ m ∧ Inv m ∧ goal m := by
    intro r
    induction r using Nat.strong_induction_on with
    | _ r ih =>
        intro n hn hinv hrank
        by_cases hgoal : goal n
        · exact ⟨n, hn, hinv, hgoal⟩
        · obtain ⟨hnext, hless⟩ := hstep n hn hinv hgoal
          exact ih (rank (n + 1)) (hrank ▸ hless) (n + 1) (Nat.le_succ_of_le hn) hnext rfl
  exact hfrom _ start (Nat.le_refl start) hstart rfl

/-- Fewer elements are counted if one is no longer, and no new one is. -/
theorem countP_lt_of_imp {α : Type u} {p q : α → Bool} {l : List α}
    (himp : ∀ x ∈ l, q x = true → p x = true) {c : α} (hc : c ∈ l)
    (hp : p c = true) (hq : q c = false) : l.countP q < l.countP p := by
  obtain ⟨xs, ys, rfl⟩ := List.append_of_mem hc
  have hxs : xs.countP q ≤ xs.countP p :=
    List.countP_mono_left (fun x hx => himp x (List.mem_append_left _ hx))
  have hys : ys.countP q ≤ ys.countP p :=
    List.countP_mono_left
      (fun x hx => himp x (List.mem_append_right _ (List.mem_cons_of_mem _ hx)))
  rw [List.countP_append, List.countP_append, List.countP_cons_of_neg (by simp [hq]),
    List.countP_cons_of_pos hp]
  omega

end Progress

section Scan

variable {α : Type u} [LinearOrder α]

/-- What comes after the cursor. -/
def ahead (cs : List α) (cursor : α) : List α :=
  cs.filter (fun c => cursor < c)

/-- What does not come after the cursor. -/
def passed (cs : List α) (cursor : α) : List α :=
  cs.filter (fun c => ¬ cursor < c)

def scanFrom (cs : List α) (cursor : α) : List α :=
  ahead cs cursor ++ passed cs cursor

variable {cs : List α}

theorem mem_scanFrom {cursor c : α} : c ∈ scanFrom cs cursor ↔ c ∈ cs := by
  simp only [scanFrom, ahead, passed, List.mem_append, List.mem_filter, decide_eq_true_eq]
  tauto

/-- A list split at the cursor. -/
theorem split_of_append
    {xs ys : List α} {cursor : α} (hcs : cs = xs ++ ys)
    (hxs : ∀ x ∈ xs, ¬ cursor < x) (hys : ∀ y ∈ ys, cursor < y) :
    ahead cs cursor = ys ∧ passed cs cursor = xs := by
  subst hcs
  unfold ahead passed
  rw [List.filter_append, List.filter_append]
  constructor
  · have hnone : xs.filter (fun c => cursor < c) = [] :=
      List.filter_eq_nil_iff.mpr (fun x hx => by simpa using hxs x hx)
    have hall : ys.filter (fun c => cursor < c) = ys :=
      List.filter_eq_self.mpr (fun y hy => by simpa using hys y hy)
    rw [hnone, hall, List.nil_append]
  · have hall : xs.filter (fun c => ¬ cursor < c) = xs :=
      List.filter_eq_self.mpr (fun x hx => by simpa using hxs x hx)
    have hnone : ys.filter (fun c => ¬ cursor < c) = [] :=
      List.filter_eq_nil_iff.mpr (fun y hy => by simpa using hys y hy)
    rw [hnone, hall, List.append_nil]

theorem passed_append_ahead (hcs : cs.Pairwise (· < ·)) (cursor : α) :
    passed cs cursor ++ ahead cs cursor = cs := by
  induction cs with
  | nil => rfl
  | cons c cs ih =>
      obtain ⟨hfirst, hrest⟩ := List.pairwise_cons.mp hcs
      by_cases hc : cursor < c
      · obtain ⟨hahead, hpassed⟩ := split_of_append (List.nil_append (c :: cs)).symm
          (fun x hx => by cases hx)
          (fun y hy => by
            rcases List.mem_cons.mp hy with rfl | hy
            · exact hc
            · exact hc.trans (hfirst y hy))
        rw [hahead, hpassed, List.nil_append]
      · have hkeep : passed (c :: cs) cursor = c :: passed cs cursor := by
          exact List.filter_cons_of_pos (by simpa using hc)
        have hdrop : ahead (c :: cs) cursor = ahead cs cursor := by
          exact List.filter_cons_of_neg (by simpa using hc)
        rw [hkeep, hdrop, List.cons_append, ih hrest]

theorem scanFrom_start {start : α} (hstart : ∀ c ∈ cs, start < c) :
    ahead cs start = cs ∧ scanFrom cs start = cs := by
  obtain ⟨hahead, hpassed⟩ := split_of_append (List.nil_append cs).symm
    (fun x hx => by cases hx) hstart
  refine ⟨hahead, ?_⟩
  rw [scanFrom, hahead, hpassed, List.append_nil]

/-- The cursor on the last consumed element leaves what comes after it. -/
theorem split_advance
    (hcs : cs.Pairwise (· < ·)) {cursor last : α} {u v : List α}
    (hahead : ahead cs cursor = u ++ [last] ++ v) :
    ahead cs last = v ∧ passed cs last = passed cs cursor ++ (u ++ [last]) := by
  have hall := passed_append_ahead hcs cursor
  rw [hahead] at hall
  have hsplit : cs = (passed cs cursor ++ (u ++ [last])) ++ v := by
    rw [List.append_assoc]
    exact hall.symm
  have hsorted := hcs
  rw [hsplit, List.pairwise_append] at hsorted
  obtain ⟨hbefore, -, hacross⟩ := hsorted
  have hlast : last ∈ passed cs cursor ++ (u ++ [last]) := by simp
  refine split_of_append hsplit (fun x hx => ?_) (fun y hy => hacross last hlast y hy)
  -- no element before the last one comes after it
  rw [← List.append_assoc, List.pairwise_append] at hbefore
  rcases List.mem_append.mp (List.append_assoc _ _ _ ▸ hx) with hx | hx
  · exact (hbefore.2.2 x hx last (List.mem_singleton_self last)).asymm
  · rw [List.mem_singleton.mp hx]
    exact lt_irrefl last

/-- The scan is rotated by what the cursor has passed. -/
theorem scanFrom_advance
    (hcs : cs.Pairwise (· < ·)) {cursor last : α} {u v : List α}
    (hahead : ahead cs cursor = u ++ [last] ++ v) :
    scanFrom cs last = (scanFrom cs cursor).rotate (u ++ [last]).length := by
  obtain ⟨hahead', hpassed'⟩ := split_advance hcs hahead
  rw [scanFrom, hahead', hpassed', scanFrom, hahead, List.append_assoc (u ++ [last]),
    List.rotate_append_length_eq, List.append_assoc]

end Scan

end CursorScan
