import Mathlib.Data.List.Basic
import Mathlib.Data.List.Pairwise

/-!
# Relational tables with AUTOINCREMENT row ids and unique indexes

A table is a list of rows in row-id order.  Two facts about it are part of the
structure, so no operation can build a table that breaks them:

* row ids increase along the list and stay below the next id to be handed out,
  hence a row id is never used twice, not even after a deletion;
* the unique keys of two rows are disjoint.  A row lists the keys under which
  the unique indexes know it; a row that a partial index skips lists none.

Statements that could break a unique index return `none` and leave the caller
with the old table, which is the behaviour of a failed SQL statement.
-/

namespace RelTable

/-- Row id and unique keys of one kind of row. -/
class Record (ρ : Type) (κ : outParam Type) where
  rowid : ρ → Nat
  keys : ρ → List κ

section Tables

variable {ρ κ : Type} [Record ρ κ]

/-- No key is listed by two different rows. -/
def KeysUnique (rows : List ρ) : Prop :=
  rows.Pairwise
    (fun a b => ∀ k ∈ Record.keys a, k ∉ Record.keys b)

instance decidableKeysUnique
    [DecidableEq κ] (rows : List ρ) :
    Decidable (KeysUnique rows) :=
  inferInstanceAs (Decidable (List.Pairwise _ rows))

/-- Two different rows of a duplicate-free list share no key. -/
theorem KeysUnique.disjoint
    {rows : List ρ} (h : KeysUnique rows) {a b : ρ}
    (ha : a ∈ rows) (hb : b ∈ rows) (hne : a ≠ b) :
    ∀ k ∈ Record.keys a, k ∉ Record.keys b := by
  have hsymm : Std.Symm
      (fun a b : ρ => ∀ k ∈ Record.keys a, k ∉ Record.keys b) :=
    ⟨fun _ _ hxy k hy hx => hxy k hx hy⟩
  exact List.Pairwise.forall h ha hb hne

/-- Rows in row-id order together with the next row id. -/
@[ext] structure Table (ρ : Type) {κ : Type} [Record ρ κ] where
  rows : List ρ
  nextRowid : Nat
  rowid_lt : ∀ r ∈ rows, Record.rowid r < nextRowid
  sorted : rows.Pairwise (fun a b => Record.rowid a < Record.rowid b)
  unique : KeysUnique rows

namespace Table

/-- The table without rows; row ids start at 1. -/
def empty : Table ρ where
  rows := []
  nextRowid := 1
  rowid_lt := by simp
  sorted := by simp
  unique := by simp [KeysUnique]

@[simp] theorem rows_empty :
    (empty : Table ρ).rows = [] := by
  rfl

/-- A row id determines the row. -/
theorem rowid_inj
    (t : Table ρ) {a b : ρ}
    (ha : a ∈ t.rows) (hb : b ∈ t.rows)
    (hab : Record.rowid a = Record.rowid b) :
    a = b := by
  by_contra hne
  have hsymm : Std.Symm
      (fun a b : ρ => Record.rowid a ≠ Record.rowid b) :=
    ⟨fun _ _ hxy => hxy.symm⟩
  have hall := t.sorted.imp (fun h => Nat.ne_of_lt h)
  exact List.Pairwise.forall hall ha hb hne hab

/-- A key determines the row that lists it. -/
theorem key_inj
    (t : Table ρ) {a b : ρ} {k : κ}
    (ha : a ∈ t.rows) (hb : b ∈ t.rows)
    (hka : k ∈ Record.keys a) (hkb : k ∈ Record.keys b) :
    a = b := by
  by_contra hne
  exact KeysUnique.disjoint t.unique ha hb hne k hka hkb

/-- Delete the rows that satisfy `p`. -/
def deleteWhere
    (t : Table ρ) (p : ρ → Bool) : Table ρ where
  rows := t.rows.filter (fun r => !p r)
  nextRowid := t.nextRowid
  rowid_lt := by
    intro r hr
    exact t.rowid_lt r (List.mem_of_mem_filter hr)
  sorted := t.sorted.filter _
  unique := List.Pairwise.filter _ t.unique

@[simp] theorem mem_deleteWhere
    (t : Table ρ) (p : ρ → Bool) (r : ρ) :
    r ∈ (t.deleteWhere p).rows ↔ r ∈ t.rows ∧ p r = false := by
  simp [deleteWhere]

@[simp] theorem nextRowid_deleteWhere
    (t : Table ρ) (p : ρ → Bool) :
    (t.deleteWhere p).nextRowid = t.nextRowid := by
  rfl

theorem deleteWhere_eq_self
    (t : Table ρ) (p : ρ → Bool)
    (h : ∀ r ∈ t.rows, p r = false) :
    t.deleteWhere p = t := by
  ext1
  · simpa [deleteWhere] using h
  · rfl

/-- The rows after applying `f` to those that satisfy `p`. -/
def updatedRows
    (t : Table ρ) (p : ρ → Bool) (f : ρ → ρ) : List ρ :=
  t.rows.map (fun r => if p r then f r else r)

theorem mem_updatedRows
    (t : Table ρ) (p : ρ → Bool) (f : ρ → ρ) (r : ρ) :
    r ∈ t.updatedRows p f ↔
      ∃ r₀ ∈ t.rows, (if p r₀ then f r₀ else r₀) = r := by
  simp [updatedRows]

theorem updatedRows_eq_self
    (t : Table ρ) (p : ρ → Bool) (f : ρ → ρ)
    (h : ∀ r ∈ t.rows, p r = false) :
    t.updatedRows p f = t.rows := by
  unfold updatedRows
  rw [List.map_congr_left (g := id)]
  · simp
  · intro r hr
    simp [h r hr]

section Update

variable (t : Table ρ) (p : ρ → Bool) (f : ρ → ρ)
  (hid : ∀ r, Record.rowid (f r) = Record.rowid r)
include hid

theorem rowid_ite (r : ρ) :
    Record.rowid (if p r then f r else r) = Record.rowid r := by
  split
  · exact hid r
  · rfl

theorem updatedRows_rowid_lt :
    ∀ r ∈ t.updatedRows p f, Record.rowid r < t.nextRowid := by
  intro r hr
  obtain ⟨r₀, hr₀, rfl⟩ := (t.mem_updatedRows p f r).mp hr
  rw [rowid_ite p f hid]
  exact t.rowid_lt r₀ hr₀

theorem updatedRows_sorted :
    (t.updatedRows p f).Pairwise
      (fun a b => Record.rowid a < Record.rowid b) := by
  unfold updatedRows
  rw [List.pairwise_map]
  refine t.sorted.imp ?_
  intro a b hab
  rw [rowid_ite p f hid, rowid_ite p f hid]
  exact hab

end Update

/-- `UPDATE` of columns that no unique index covers. -/
def modify
    (t : Table ρ) (p : ρ → Bool) (f : ρ → ρ)
    (hid : ∀ r, Record.rowid (f r) = Record.rowid r)
    (hkeys : ∀ r, Record.keys (f r) = Record.keys r) :
    Table ρ where
  rows := t.updatedRows p f
  nextRowid := t.nextRowid
  rowid_lt := t.updatedRows_rowid_lt p f hid
  sorted := t.updatedRows_sorted p f hid
  unique := by
    have hk (r : ρ) :
        Record.keys (if p r then f r else r) = Record.keys r := by
      split
      · exact hkeys r
      · rfl
    show List.Pairwise _ (t.rows.map _)
    rw [List.pairwise_map]
    refine List.Pairwise.imp ?_ t.unique
    intro a b hab
    rw [hk a, hk b]
    exact hab

@[simp] theorem rows_modify
    (t : Table ρ) (p : ρ → Bool) (f : ρ → ρ) (hid hkeys) :
    (t.modify p f hid hkeys).rows = t.updatedRows p f := by
  rfl

theorem mem_modify
    {t : Table ρ} {p : ρ → Bool} {f : ρ → ρ} {hid hkeys} {r : ρ} :
    r ∈ (t.modify p f hid hkeys).rows ↔
      ∃ r₀ ∈ t.rows, (if p r₀ then f r₀ else r₀) = r := by
  exact t.mem_updatedRows p f r

@[simp] theorem nextRowid_modify
    (t : Table ρ) (p : ρ → Bool) (f : ρ → ρ) (hid hkeys) :
    (t.modify p f hid hkeys).nextRowid = t.nextRowid := by
  rfl

/-- An update that matches no row changes nothing. -/
theorem modify_eq_self
    (t : Table ρ) (p : ρ → Bool) (f : ρ → ρ) (hid hkeys)
    (h : ∀ r ∈ t.rows, p r = false) :
    t.modify p f hid hkeys = t := by
  ext1
  · exact t.updatedRows_eq_self p f h
  · rfl

section Checked

variable [DecidableEq κ]

/-- `UPDATE` that may touch a unique key; `none` is a constraint failure. -/
def update
    (t : Table ρ) (p : ρ → Bool) (f : ρ → ρ)
    (hid : ∀ r, Record.rowid (f r) = Record.rowid r) :
    Option (Table ρ) :=
  if h : KeysUnique (t.updatedRows p f) then
    some
      { rows := t.updatedRows p f
        nextRowid := t.nextRowid
        rowid_lt := t.updatedRows_rowid_lt p f hid
        sorted := t.updatedRows_sorted p f hid
        unique := h }
  else
    none

/-- A successful update holds exactly the updated rows. -/
theorem rows_of_update
    {t t' : Table ρ} {p : ρ → Bool} {f : ρ → ρ}
    {hid : ∀ r, Record.rowid (f r) = Record.rowid r}
    (h : t.update p f hid = some t') :
    t'.rows = t.updatedRows p f ∧ t'.nextRowid = t.nextRowid := by
  unfold update at h
  split at h
  · cases h
    exact ⟨rfl, rfl⟩
  · cases h

theorem update_eq_none_iff
    (t : Table ρ) (p : ρ → Bool) (f : ρ → ρ)
    (hid : ∀ r, Record.rowid (f r) = Record.rowid r) :
    t.update p f hid = none ↔ ¬ KeysUnique (t.updatedRows p f) := by
  unfold update
  split
  · simp_all
  · simp_all

/-- An update that matches no row succeeds and changes nothing. -/
theorem update_eq_self
    (t : Table ρ) (p : ρ → Bool) (f : ρ → ρ)
    (hid : ∀ r, Record.rowid (f r) = Record.rowid r)
    (h : ∀ r ∈ t.rows, p r = false) :
    t.update p f hid = some t := by
  have hrows := t.updatedRows_eq_self p f h
  have hunique : KeysUnique (t.updatedRows p f) := by
    rw [hrows]
    exact t.unique
  unfold update
  rw [dif_pos hunique]
  congr 1
  ext1
  · exact hrows
  · rfl

omit [DecidableEq κ] in
/--
An update keeps the keys unique when the updated rows clash neither with the
other rows nor with each other.
-/
theorem keysUnique_updatedRows
    (t : Table ρ) (p : ρ → Bool) (f : ρ → ρ)
    (hother : ∀ a ∈ t.rows, p a = true → ∀ b ∈ t.rows, p b = false →
      ∀ k ∈ Record.keys (f a), k ∉ Record.keys b)
    (hboth : ∀ a ∈ t.rows, p a = true → ∀ b ∈ t.rows, p b = true →
      Record.rowid a < Record.rowid b →
        ∀ k ∈ Record.keys (f a), k ∉ Record.keys (f b)) :
    KeysUnique (t.updatedRows p f) := by
  unfold KeysUnique updatedRows
  rw [List.pairwise_map]
  have hpairs := t.unique.and t.sorted
  refine (List.Pairwise.and_mem.mp hpairs).imp ?_
  rintro a b ⟨ha, hb, huniq, hlt⟩
  cases hpa : p a with
  | true =>
      cases hpb : p b with
      | true =>
          simpa using hboth a ha hpa b hb hpb hlt
      | false =>
          simpa using hother a ha hpa b hb hpb
  | false =>
      cases hpb : p b with
      | true =>
          simp only [Bool.false_eq_true, if_false, if_true]
          intro k hka hkb
          exact hother b hb hpb a ha hpa k hkb hka
      | false =>
          simpa using huniq

omit [DecidableEq κ] in
/--
Updating the single row `n` succeeds when the new keys of that row are listed
by no other row.
-/
theorem keysUnique_updatedRow
    (t : Table ρ) (n : Nat) (f : ρ → ρ)
    (hfree : ∀ a ∈ t.rows, Record.rowid a = n →
      ∀ b ∈ t.rows, Record.rowid b ≠ n →
        ∀ k ∈ Record.keys (f a), k ∉ Record.keys b) :
    KeysUnique (t.updatedRows (fun r => Record.rowid r == n) f) := by
  refine t.keysUnique_updatedRows _ f ?_ ?_
  · intro a ha hpa b hb hpb
    exact hfree a ha (by simpa using hpa) b hb (by simpa using hpb)
  · intro a _ hpa b _ hpb hlt
    have han : Record.rowid a = n := by simpa using hpa
    have hbn : Record.rowid b = n := by simpa using hpb
    omega

/-- `INSERT` of the row built from the next row id. -/
def insert
    (t : Table ρ) (mk : Nat → ρ)
    (hid : ∀ n, Record.rowid (mk n) = n) :
    Option (Table ρ × Nat) :=
  if h : ∀ r ∈ t.rows,
      ∀ k ∈ Record.keys r, k ∉ Record.keys (mk t.nextRowid) then
    some
      ({ rows := t.rows ++ [mk t.nextRowid]
         nextRowid := t.nextRowid + 1
         rowid_lt := by
          intro r hr
          rcases List.mem_append.mp hr with hr | hr
          · exact Nat.lt_succ_of_lt (t.rowid_lt r hr)
          · rw [List.mem_singleton.mp hr, hid]
            exact Nat.lt_succ_self _
         sorted := by
          refine List.pairwise_append.mpr ⟨t.sorted, by simp, ?_⟩
          intro a ha b hb
          rw [List.mem_singleton.mp hb, hid]
          exact t.rowid_lt a ha
         unique := by
          refine List.pairwise_append.mpr ⟨t.unique, by simp, ?_⟩
          intro a ha b hb
          rw [List.mem_singleton.mp hb]
          exact h a ha },
        t.nextRowid)
  else
    none

/-- A successful insert appends one row under the next row id. -/
theorem rows_of_insert
    {t t' : Table ρ} {mk : Nat → ρ} {n : Nat}
    {hid : ∀ n, Record.rowid (mk n) = n}
    (h : t.insert mk hid = some (t', n)) :
    n = t.nextRowid ∧
      t'.rows = t.rows ++ [mk t.nextRowid] ∧
      t'.nextRowid = t.nextRowid + 1 := by
  unfold insert at h
  split at h
  · cases h
    exact ⟨rfl, rfl, rfl⟩
  · cases h

theorem insert_eq_none_iff
    (t : Table ρ) (mk : Nat → ρ)
    (hid : ∀ n, Record.rowid (mk n) = n) :
    t.insert mk hid = none ↔
      ∃ r ∈ t.rows, ∃ k ∈ Record.keys r,
        k ∈ Record.keys (mk t.nextRowid) := by
  unfold insert
  split
  · rename_i h
    simp only [reduceCtorEq, false_iff, not_exists, not_and]
    exact h
  · rename_i h
    simpa using h

end Checked

section Lookup

/-- The row with row id `n`. -/
def byRowid (t : Table ρ) (n : Nat) : Option ρ :=
  t.rows.find? (fun r => Record.rowid r == n)

theorem byRowid_eq_some_iff
    (t : Table ρ) (n : Nat) (r : ρ) :
    t.byRowid n = some r ↔ r ∈ t.rows ∧ Record.rowid r = n := by
  constructor
  · intro h
    exact ⟨List.mem_of_find?_eq_some h, by simpa using List.find?_some h⟩
  · rintro ⟨hr, rfl⟩
    cases hf : t.byRowid (Record.rowid r) with
    | none =>
        have hnone := List.find?_eq_none.mp hf r hr
        simp at hnone
    | some r' =>
        have hr' := List.mem_of_find?_eq_some hf
        have heq : Record.rowid r' = Record.rowid r := by
          simpa using List.find?_some hf
        rw [t.rowid_inj hr' hr heq]

theorem byRowid_eq_none_iff
    (t : Table ρ) (n : Nat) :
    t.byRowid n = none ↔ ∀ r ∈ t.rows, Record.rowid r ≠ n := by
  simp [byRowid]

/-- The row id of a stored row was handed out before. -/
theorem lt_of_byRowid
    (t : Table ρ) {n : Nat} {r : ρ} (h : t.byRowid n = some r) :
    n < t.nextRowid := by
  obtain ⟨hr, rfl⟩ := (t.byRowid_eq_some_iff n r).mp h
  exact t.rowid_lt r hr

theorem byRowid_deleteWhere
    (t : Table ρ) (p : ρ → Bool) (n : Nat) :
    (t.deleteWhere p).byRowid n = (t.byRowid n).filter (fun r => !p r) := by
  ext r
  rw [byRowid_eq_some_iff, Option.filter_eq_some_iff, byRowid_eq_some_iff,
    mem_deleteWhere]
  simp only [Bool.not_eq_true']
  tauto

theorem byRowid_of_updatedRows
    {t t' : Table ρ} {p : ρ → Bool} {f : ρ → ρ}
    (hid : ∀ r, Record.rowid (f r) = Record.rowid r)
    (h : t'.rows = t.updatedRows p f) (n : Nat) :
    t'.byRowid n =
      (t.byRowid n).map (fun r => if p r then f r else r) := by
  ext r
  rw [byRowid_eq_some_iff, Option.map_eq_some_iff, h, mem_updatedRows]
  constructor
  · rintro ⟨⟨r₀, hr₀, rfl⟩, hn⟩
    rw [rowid_ite p f hid] at hn
    exact ⟨r₀, (t.byRowid_eq_some_iff n r₀).mpr ⟨hr₀, hn⟩, rfl⟩
  · rintro ⟨r₀, hr₀, rfl⟩
    obtain ⟨hmem, hn⟩ := (t.byRowid_eq_some_iff n r₀).mp hr₀
    exact ⟨⟨r₀, hmem, rfl⟩, by rw [rowid_ite p f hid, hn]⟩

@[simp] theorem byRowid_modify
    (t : Table ρ) (p : ρ → Bool) (f : ρ → ρ) (hid hkeys) (n : Nat) :
    (t.modify p f hid hkeys).byRowid n =
      (t.byRowid n).map (fun r => if p r then f r else r) :=
  byRowid_of_updatedRows hid (t.rows_modify p f hid hkeys) n

theorem byRowid_of_append
    {t t' : Table ρ} {mk : Nat → ρ}
    (hid : ∀ n, Record.rowid (mk n) = n)
    (h : t'.rows = t.rows ++ [mk t.nextRowid]) (n : Nat) :
    t'.byRowid n =
      if n = t.nextRowid then some (mk n) else t.byRowid n := by
  ext r
  rw [byRowid_eq_some_iff, h, List.mem_append, List.mem_singleton]
  by_cases hn : n = t.nextRowid
  · subst hn
    rw [if_pos rfl, Option.some.injEq]
    constructor
    · rintro ⟨hr | rfl, hrn⟩
      · have := t.rowid_lt r hr
        omega
      · rfl
    · rintro rfl
      exact ⟨Or.inr rfl, hid _⟩
  · rw [if_neg hn, byRowid_eq_some_iff]
    constructor
    · rintro ⟨hr | rfl, hrn⟩
      · exact ⟨hr, hrn⟩
      · rw [hid] at hrn
        exact absurd hrn.symm hn
    · rintro ⟨hr, hrn⟩
      exact ⟨Or.inl hr, hrn⟩

variable [DecidableEq κ]

/-- The row that the unique indexes know under the key `k`. -/
def lookup (t : Table ρ) (k : κ) : Option ρ :=
  t.rows.find? (fun r => k ∈ Record.keys r)

theorem lookup_eq_some_iff
    (t : Table ρ) (k : κ) (r : ρ) :
    t.lookup k = some r ↔ r ∈ t.rows ∧ k ∈ Record.keys r := by
  constructor
  · intro h
    exact ⟨List.mem_of_find?_eq_some h, by simpa using List.find?_some h⟩
  · rintro ⟨hr, hk⟩
    cases hf : t.lookup k with
    | none =>
        have hnone := List.find?_eq_none.mp hf r hr
        simp [hk] at hnone
    | some r' =>
        have hr' := List.mem_of_find?_eq_some hf
        have hk' : k ∈ Record.keys r' := by
          simpa using List.find?_some hf
        rw [t.key_inj hr' hr hk' hk]

theorem lookup_eq_none_iff
    (t : Table ρ) (k : κ) :
    t.lookup k = none ↔ ∀ r ∈ t.rows, k ∉ Record.keys r := by
  simp [lookup]

theorem lookup_deleteWhere
    (t : Table ρ) (p : ρ → Bool) (k : κ) :
    (t.deleteWhere p).lookup k = (t.lookup k).filter (fun r => !p r) := by
  ext r
  rw [lookup_eq_some_iff, Option.filter_eq_some_iff, lookup_eq_some_iff,
    mem_deleteWhere]
  simp only [Bool.not_eq_true']
  tauto

theorem lookup_modify
    (t : Table ρ) (p : ρ → Bool) (f : ρ → ρ) (hid)
    (hkeys : ∀ r, Record.keys (f r) = Record.keys r) (k : κ) :
    (t.modify p f hid hkeys).lookup k =
      (t.lookup k).map (fun r => if p r then f r else r) := by
  have hk (r : ρ) :
      Record.keys (if p r then f r else r) = Record.keys r := by
    split
    · exact hkeys r
    · rfl
  ext r
  rw [lookup_eq_some_iff, Option.map_eq_some_iff, rows_modify, mem_updatedRows]
  constructor
  · rintro ⟨⟨r₀, hr₀, rfl⟩, hmem⟩
    rw [hk] at hmem
    exact ⟨r₀, (t.lookup_eq_some_iff k r₀).mpr ⟨hr₀, hmem⟩, rfl⟩
  · rintro ⟨r₀, hr₀, rfl⟩
    obtain ⟨hmem, hkr⟩ := (t.lookup_eq_some_iff k r₀).mp hr₀
    exact ⟨⟨r₀, hmem, rfl⟩, by rwa [hk]⟩

end Lookup

section Upsert

variable [DecidableEq κ]
variable (t : Table ρ) (k : κ) (mk : Nat → ρ) (f : ρ → ρ)

/--
`INSERT .. ON CONFLICT(k) DO UPDATE` for rows whose only key is `k`: it cannot
fail, because the conflict is the one it handles.
-/
def upsert
    (hmk : ∀ n, Record.rowid (mk n) = n)
    (hmkKeys : ∀ n, Record.keys (mk n) = [k])
    (hid : ∀ r, Record.rowid (f r) = Record.rowid r)
    (hkeys : ∀ r, Record.keys (f r) = Record.keys r) :
    Table ρ :=
  if h : ∀ r ∈ t.rows, k ∉ Record.keys r then
    { rows := t.rows ++ [mk t.nextRowid]
      nextRowid := t.nextRowid + 1
      rowid_lt := by
        intro r hr
        rcases List.mem_append.mp hr with hr | hr
        · exact Nat.lt_succ_of_lt (t.rowid_lt r hr)
        · rw [List.mem_singleton.mp hr, hmk]
          exact Nat.lt_succ_self _
      sorted := by
        refine List.pairwise_append.mpr ⟨t.sorted, by simp, ?_⟩
        intro a ha b hb
        rw [List.mem_singleton.mp hb, hmk]
        exact t.rowid_lt a ha
      unique := by
        refine List.pairwise_append.mpr ⟨t.unique, by simp, ?_⟩
        intro a ha b hb k' hk'
        rw [List.mem_singleton.mp hb, hmkKeys, List.mem_singleton]
        rintro rfl
        exact h a ha hk' }
  else
    t.modify (fun r => k ∈ Record.keys r) f hid hkeys

variable {t k mk f}
variable {hmk : ∀ n, Record.rowid (mk n) = n}
  {hmkKeys : ∀ n, Record.keys (mk n) = [k]}
  {hid : ∀ r, Record.rowid (f r) = Record.rowid r}
  {hkeys : ∀ r, Record.keys (f r) = Record.keys r}

/-- The rows after an upsert. -/
theorem mem_upsert (r : ρ) :
    r ∈ (t.upsert k mk f hmk hmkKeys hid hkeys).rows ↔
      (r ∈ t.rows ∧ k ∉ Record.keys r) ∨
        r = ((t.lookup k).map f).getD (mk t.nextRowid) := by
  unfold upsert
  split
  · rename_i h
    rw [(t.lookup_eq_none_iff k).mpr h]
    simp only [List.mem_append, List.mem_singleton, Option.map_none,
      Option.getD_none]
    constructor
    · rintro (hr | hr)
      · exact Or.inl ⟨hr, h r hr⟩
      · exact Or.inr hr
    · rintro (⟨hr, -⟩ | hr)
      · exact Or.inl hr
      · exact Or.inr hr
  · rename_i h
    obtain ⟨r₁, hl⟩ : ∃ r₁, t.lookup k = some r₁ := by
      rw [← Option.ne_none_iff_exists']
      exact fun hn => h ((t.lookup_eq_none_iff k).mp hn)
    obtain ⟨hr₁, hk₁⟩ := (t.lookup_eq_some_iff k r₁).mp hl
    rw [rows_modify, mem_updatedRows, hl, Option.map_some, Option.getD_some]
    constructor
    · rintro ⟨r₀, hr₀, rfl⟩
      by_cases hk₀ : k ∈ Record.keys r₀
      · rw [t.key_inj hr₀ hr₁ hk₀ hk₁]
        exact Or.inr (by simp [hk₁])
      · rw [if_neg (by simpa using hk₀)]
        exact Or.inl ⟨hr₀, hk₀⟩
    · rintro (⟨hr, hk⟩ | rfl)
      · exact ⟨r, hr, by simp [hk]⟩
      · exact ⟨r₁, hr₁, by simp [hk₁]⟩

/-- The row under the key of an upsert. -/
theorem lookup_upsert_self :
    (t.upsert k mk f hmk hmkKeys hid hkeys).lookup k =
      some (((t.lookup k).map f).getD (mk t.nextRowid)) := by
  rw [lookup_eq_some_iff, mem_upsert]
  refine ⟨Or.inr rfl, ?_⟩
  cases hl : t.lookup k with
  | none =>
      simp [hmkKeys]
  | some r =>
      simpa [hkeys] using ((t.lookup_eq_some_iff k r).mp hl).2

/-- An upsert does not touch the rows under other keys. -/
theorem lookup_upsert_of_ne
    (hone : ∀ r : ρ, k ∈ Record.keys r → Record.keys r = [k])
    {k' : κ} (hne : k' ≠ k) :
    (t.upsert k mk f hmk hmkKeys hid hkeys).lookup k' = t.lookup k' := by
  have hother : k' ∉
      Record.keys (((t.lookup k).map f).getD (mk t.nextRowid)) := by
    cases hl : t.lookup k with
    | none =>
        simpa [hmkKeys] using hne
    | some r =>
        have hr := hone r ((t.lookup_eq_some_iff k r).mp hl).2
        simpa [hkeys, hr] using hne
  ext r
  rw [lookup_eq_some_iff, lookup_eq_some_iff, mem_upsert]
  constructor
  · rintro ⟨⟨hr, -⟩ | rfl, hk'⟩
    · exact ⟨hr, hk'⟩
    · exact absurd hk' hother
  · rintro ⟨hr, hk'⟩
    refine ⟨Or.inl ⟨hr, ?_⟩, hk'⟩
    intro hk
    rw [hone r hk, List.mem_singleton] at hk'
    exact hne hk'

end Upsert

section UpsertKeys

variable [DecidableEq κ] {t : Table ρ} {k : κ} {mk : Nat → ρ} {f : ρ → ρ}
variable (hmk : ∀ n, Record.rowid (mk n) = n)
  (hmkKeys : ∀ n, Record.keys (mk n) = [k])
  (hid : ∀ r, Record.rowid (f r) = Record.rowid r)
  (hkeys : ∀ r, Record.keys (f r) = Record.keys r)

/-- The row that an upsert leaves has its key. -/
theorem mem_keys_upsertedRow
    (hmkKeys : ∀ n, Record.keys (mk n) = [k])
    (hkeys : ∀ r, Record.keys (f r) = Record.keys r) :
    k ∈ Record.keys (((t.lookup k).map f).getD (mk t.nextRowid)) := by
  cases hl : t.lookup k with
  | none =>
      simp [hmkKeys]
  | some r =>
      simpa [hkeys] using ((t.lookup_eq_some_iff k r).mp hl).2

variable {hmk hmkKeys hid hkeys} in
/-- The rows of an upsert under other keys were there before. -/
theorem mem_of_mem_upsert
    {r : ρ} (hr : r ∈ (t.upsert k mk f hmk hmkKeys hid hkeys).rows)
    (hk : k ∉ Record.keys r) :
    r ∈ t.rows := by
  rcases (mem_upsert r).mp hr with ⟨hr, -⟩ | rfl
  · exact hr
  · exact absurd (mem_keys_upsertedRow hmkKeys hkeys) hk

variable (t k mk f) in
/-- An upsert adds its key to the keys of the table. -/
theorem exists_key_upsert_iff
    (hone : ∀ r : ρ, k ∈ Record.keys r → Record.keys r = [k]) (k' : κ) :
    (∃ r ∈ (t.upsert k mk f hmk hmkKeys hid hkeys).rows, k' ∈ Record.keys r) ↔
      (∃ r ∈ t.rows, k' ∈ Record.keys r) ∨ k' = k := by
  have hself := mem_keys_upsertedRow (t := t) (f := f) hmkKeys hkeys
  constructor
  · rintro ⟨r, hr, hk'⟩
    by_cases hk : k ∈ Record.keys r
    · rw [hone r hk, List.mem_singleton] at hk'
      exact Or.inr hk'
    · exact Or.inl ⟨r, mem_of_mem_upsert hr hk, hk'⟩
  · rintro (⟨r, hr, hk'⟩ | rfl)
    · by_cases hk : k ∈ Record.keys r
      · rw [hone r hk, List.mem_singleton] at hk'
        subst hk'
        exact ⟨_, (mem_upsert _).mpr (Or.inr rfl), hself⟩
      · exact ⟨r, (mem_upsert r).mpr (Or.inl ⟨hr, hk⟩), hk'⟩
    · exact ⟨_, (mem_upsert _).mpr (Or.inr rfl), hself⟩

end UpsertKeys

end Table

end Tables

end RelTable
