import PrivchatSdk.Lib.Table

/-!
# Merging what refers to duplicates

Rows of a table refer to an object by its number, and a unique index covers the
number together with a part of the row.  When two objects turn out to be one, the
rows of the dropped one are merged into those of the kept one, for many pairs at
once and by statements over the whole table: the kept rows take over what the
dropped ones know better, rows that would clash are deleted, and the rest is
pointed at the kept object.

If no object is in two pairs, all of this is done key by key (`Merged`), and the
last statement cannot hit the index (`exists_repoint`).
-/

namespace RelTable

variable {ρ κ β : Type} [Record ρ κ] [DecidableEq κ]

section Sequential

/-- `UPDATE` of several rows: the index is checked after each of them. -/
def Table.updateEach
    (t : Table ρ) (p : ρ → Bool) (f : ρ → ρ)
    (hid : ∀ r, Record.rowid (f r) = Record.rowid r) : Option (Table ρ) :=
  t.rows.foldlM (fun u r =>
    if p r then u.update (fun x => Record.rowid x == Record.rowid r) f hid
    else some u) t

variable {t : Table ρ} {p : ρ → Bool} {f : ρ → ρ}
variable {hid : ∀ r, Record.rowid (f r) = Record.rowid r}

/-- The rows that are updated when the rows `passed` have had their turn. -/
def passedBy (p : ρ → Bool) (passed : List ρ) (r : ρ) : Bool :=
  p r && passed.any (fun x => Record.rowid x == Record.rowid r)

omit [DecidableEq κ] in
/-- When all rows have had their turn, all rows that match are updated. -/
theorem updatedRows_passedBy_all :
    t.updatedRows (passedBy p t.rows) f = t.updatedRows p f := by
  unfold Table.updatedRows
  refine List.map_congr_left (fun r hr => ?_)
  have hany : t.rows.any (fun x => Record.rowid x == Record.rowid r) = true :=
    List.any_eq_true.mpr ⟨r, hr, by simp⟩
  rw [passedBy, hany, Bool.and_true]

omit [DecidableEq κ] in
/-- The next row has not had its turn yet. -/
theorem passedBy_next
    {passed rest : List ρ} {r : ρ} (hsplit : t.rows = passed ++ r :: rest) :
    passedBy p passed r = false := by
  have hsorted := t.sorted
  rw [hsplit] at hsorted
  have hlt := (List.pairwise_append.mp hsorted).2.2
  have hany : passed.any (fun x => Record.rowid x == Record.rowid r) = false := by
    rw [List.any_eq_false]
    intro x hx
    have hx' := hlt x hx r List.mem_cons_self
    simp only [beq_iff_eq]
    omega
  rw [passedBy, hany, Bool.and_false]

omit [DecidableEq κ] in
/-- The rows after the turn of one more row that matches. -/
theorem updatedRows_passedBy_append
    (hid : ∀ r, Record.rowid (f r) = Record.rowid r)
    {passed rest : List ρ} {r : ρ} (hsplit : t.rows = passed ++ r :: rest)
    (hp : p r = true) :
    (t.updatedRows (passedBy p passed) f).map
        (fun x => if Record.rowid x == Record.rowid r then f x else x) =
      t.updatedRows (passedBy p (passed ++ [r])) f := by
  have hr : r ∈ t.rows := by
    rw [hsplit]
    exact List.mem_append_right _ List.mem_cons_self
  unfold Table.updatedRows
  rw [List.map_map]
  refine List.map_congr_left (fun x hx => ?_)
  dsimp only [Function.comp]
  by_cases hxr : Record.rowid x = Record.rowid r
  · have hx' : x = r := t.rowid_inj hx hr hxr
    subst hx'
    have hdone : passedBy p (passed ++ [x]) x = true := by
      simp [passedBy, hp]
    have hturn : passedBy p passed x = false := passedBy_next hsplit
    simp [hturn, hdone]
  · have hdone : passedBy p (passed ++ [r]) x = passedBy p passed x := by
      have hne : (Record.rowid r == Record.rowid x) = false :=
        beq_false_of_ne (Ne.symm hxr)
      simp [passedBy, hne]
    have hother : (Record.rowid (if passedBy p passed x = true then f x else x) ==
        Record.rowid r) = false := by
      rw [Table.rowid_ite _ f hid]
      exact beq_false_of_ne hxr
    simp [hother, hdone]

theorem updateEach_from
    (hfree : ∀ a ∈ t.rows, p a = true → ∀ b ∈ t.rows,
      Record.rowid b ≠ Record.rowid a → ∀ k ∈ Record.keys (f a),
        k ∉ Record.keys b ∧ (p b = true → k ∉ Record.keys (f b)))
    {passed rest : List ρ} (hsplit : t.rows = passed ++ rest) {u : Table ρ}
    (hrows : u.rows = t.updatedRows (passedBy p passed) f)
    (hnext : u.nextRowid = t.nextRowid) :
    ∃ t', rest.foldlM (fun u r =>
        if p r then u.update (fun x => Record.rowid x == Record.rowid r) f hid
        else some u) u = some t' ∧
      t'.rows = t.updatedRows p f ∧ t'.nextRowid = t.nextRowid := by
  induction rest generalizing passed u with
  | nil =>
      rw [List.append_nil] at hsplit
      refine ⟨u, rfl, ?_, hnext⟩
      rw [hrows, ← hsplit, updatedRows_passedBy_all]
  | cons r rest ih =>
      have hr : r ∈ t.rows := by
        rw [hsplit]
        exact List.mem_append_right _ List.mem_cons_self
      have hsplit' : t.rows = (passed ++ [r]) ++ rest := by
        rw [hsplit, List.append_assoc, List.singleton_append]
      rw [List.foldlM_cons]
      cases hp : p r with
      | false =>
          have hsame : t.updatedRows (passedBy p passed) f =
              t.updatedRows (passedBy p (passed ++ [r])) f := by
            refine List.map_congr_left (fun x hx => ?_)
            have hx : passedBy p (passed ++ [r]) x = passedBy p passed x := by
              by_cases hxr : Record.rowid x = Record.rowid r
              · rw [t.rowid_inj hx hr hxr]
                simp [passedBy, hp]
              · have hne : (Record.rowid r == Record.rowid x) = false :=
                  beq_false_of_ne (Ne.symm hxr)
                simp [passedBy, hne]
            rw [hx]
          rw [hsame] at hrows
          exact ih hsplit' hrows hnext
      | true =>
          have hunique : KeysUnique
              (u.updatedRows (fun x => Record.rowid x == Record.rowid r) f) := by
            refine u.keysUnique_updatedRow _ f ?_
            intro a ha han b hb hbn k hka hkb
            rw [hrows, Table.mem_updatedRows] at ha hb
            obtain ⟨a₀, ha₀, rfl⟩ := ha
            obtain ⟨b₀, hb₀, rfl⟩ := hb
            rw [Table.rowid_ite _ f hid] at han hbn
            have ha' : a₀ = r := t.rowid_inj ha₀ hr han
            subst ha'
            rw [passedBy_next hsplit] at hka
            have hfree' := hfree a₀ hr hp b₀ hb₀ hbn k hka
            split at hkb
            · rename_i hb'
              rw [passedBy, Bool.and_eq_true] at hb'
              exact hfree'.2 hb'.1 hkb
            · exact hfree'.1 hkb
          cases hupdate : u.update (fun x => Record.rowid x == Record.rowid r) f
              hid with
          | none =>
              exact absurd hunique ((Table.update_eq_none_iff _ _ _ _).mp hupdate)
          | some u' =>
              obtain ⟨hrows', hnext'⟩ := Table.rows_of_update hupdate
              have hu' : u'.rows = t.updatedRows (passedBy p (passed ++ [r])) f := by
                rw [hrows', Table.updatedRows, hrows]
                exact updatedRows_passedBy_append hid hsplit hp
              exact ih hsplit' hu' (hnext'.trans hnext)

/--
The update goes through if no new key is a key of another row, before or after the
update of that row.
-/
theorem exists_updateEach
    (hfree : ∀ a ∈ t.rows, p a = true → ∀ b ∈ t.rows,
      Record.rowid b ≠ Record.rowid a → ∀ k ∈ Record.keys (f a),
        k ∉ Record.keys b ∧ (p b = true → k ∉ Record.keys (f b))) :
    ∃ t', t.updateEach p f hid = some t' ∧
      t'.rows = t.updatedRows p f ∧ t'.nextRowid = t.nextRowid := by
  have hnone : t.rows = t.updatedRows (passedBy p []) f :=
    (t.updatedRows_eq_self _ f (fun r _ => by simp [passedBy])).symm
  exact updateEach_from hfree (List.nil_append t.rows).symm hnone rfl

end Sequential

section References

/--
Rows that refer to an object by its number: the index covers the number and a
part of the row, and a row can be pointed at another object.
-/
structure Reference (ρ : Type) {κ : Type} [Record ρ κ] (β : Type) where
  target : ρ → Nat
  part : ρ → β
  key : Nat → β → κ
  move : Nat → ρ → ρ
  keys_eq : ∀ r, Record.keys r = [key (target r) (part r)]
  key_inj : ∀ {n n' b b'}, key n b = key n' b' → n = n' ∧ b = b'
  target_move : ∀ n r, target (move n r) = n
  part_move : ∀ n r, part (move n r) = part r
  rowid_move : ∀ n r, Record.rowid (move n r) = Record.rowid r

/-- The pairs of a kept and a dropped object: no object is in two of them. -/
structure Pairing (pairs : List (Nat × Nat)) : Prop where
  drop_eq : ∀ {k d d'}, (k, d) ∈ pairs → (k, d') ∈ pairs → d = d'
  keep_eq : ∀ {k k' d}, (k, d) ∈ pairs → (k', d) ∈ pairs → k = k'
  apart : ∀ {k d k' d'}, (k, d) ∈ pairs → (k', d') ∈ pairs → k ≠ d'

def isKept (pairs : List (Nat × Nat)) (n : Nat) : Bool :=
  pairs.any (fun p => p.1 == n)

def isDropped (pairs : List (Nat × Nat)) (n : Nat) : Bool :=
  pairs.any (fun p => p.2 == n)

/-- The kept object of a dropped one. -/
def keptOf (pairs : List (Nat × Nat)) (n : Nat) : Nat :=
  ((pairs.find? (fun p => p.2 == n)).map Prod.fst).getD n

theorem isKept_iff {pairs : List (Nat × Nat)} {n : Nat} :
    isKept pairs n = true ↔ ∃ d, (n, d) ∈ pairs := by
  simp [isKept]

theorem isDropped_iff {pairs : List (Nat × Nat)} {n : Nat} :
    isDropped pairs n = true ↔ ∃ k, (k, n) ∈ pairs := by
  simp [isDropped]

theorem Pairing.keptOf_eq
    {pairs : List (Nat × Nat)} (h : Pairing pairs) {k d : Nat}
    (hmem : (k, d) ∈ pairs) : keptOf pairs d = k := by
  unfold keptOf
  cases hfind : pairs.find? (fun p => p.2 == d) with
  | none =>
      have hnone := List.find?_eq_none.mp hfind _ hmem
      simp at hnone
  | some p =>
      have hp := List.mem_of_find?_eq_some hfind
      have hd : p.2 = d := by simpa using List.find?_some hfind
      rw [Option.map_some, Option.getD_some]
      refine h.keep_eq ?_ hmem
      rw [← hd]
      exact hp

variable [DecidableEq β] (ref : Reference ρ β) (pairs : List (Nat × Nat))

/-- The row `r` of a kept object and the row `x` of its dropped one clash. -/
def Reference.partner (r x : ρ) : Bool :=
  pairs.any (fun p => p.1 == ref.target r && p.2 == ref.target x) &&
    decide (ref.part r = ref.part x)

/-- Let the rows of kept objects take over from those of their dropped ones. -/
def Reference.align
    (better : ρ → ρ → Bool) (take : ρ → ρ → ρ)
    (hid : ∀ r x, Record.rowid (take r x) = Record.rowid r)
    (hkeys : ∀ r x, Record.keys (take r x) = Record.keys r)
    (t : Table ρ) : Table ρ :=
  t.modify
    (fun r => isKept pairs (ref.target r) &&
      t.rows.any (fun x => ref.partner pairs r x && better r x))
    (fun r => ((t.rows.find? (ref.partner pairs r)).map (take r)).getD r)
    (fun r => by
      cases t.rows.find? (ref.partner pairs r) with
      | none => rfl
      | some x => exact hid r x)
    (fun r => by
      cases t.rows.find? (ref.partner pairs r) with
      | none => rfl
      | some x => exact hkeys r x)

/-- Delete the rows of dropped objects that a row of the kept one covers. -/
def Reference.deleteCovered (covers : ρ → ρ → Bool) (t : Table ρ) : Table ρ :=
  t.deleteWhere (fun x => isDropped pairs (ref.target x) &&
    t.rows.any (fun r => ref.partner pairs r x && covers r x))

/-- Delete the rows of kept objects that a row of the dropped one beats. -/
def Reference.deleteBeaten (beaten : ρ → ρ → Bool) (t : Table ρ) : Table ρ :=
  t.deleteWhere (fun r => isKept pairs (ref.target r) &&
    t.rows.any (fun x => ref.partner pairs r x && beaten r x))

/-- Point the rows of dropped objects at the kept ones. -/
def Reference.repoint (t : Table ρ) : Option (Table ρ) :=
  t.updateEach (fun x => isDropped pairs (ref.target x))
    (fun x => ref.move (keptOf pairs (ref.target x)) x)
    (fun x => ref.rowid_move _ x)

end References

section Keywise

variable [DecidableEq β] {ref : Reference ρ β} {pairs : List (Nat × Nat)}
variable {t : Table ρ} {k d : Nat}

/-- The row that refers to an object with a part. -/
def Reference.row (ref : Reference ρ β) (t : Table ρ) (n : Nat) (b : β) :
    Option ρ :=
  t.lookup (ref.key n b)

omit [DecidableEq β] in
theorem Reference.row_eq_some_iff {n : Nat} {b : β} {r : ρ} :
    ref.row t n b = some r ↔ r ∈ t.rows ∧ ref.target r = n ∧ ref.part r = b := by
  unfold Reference.row
  rw [Table.lookup_eq_some_iff, ref.keys_eq, List.mem_singleton]
  constructor
  · rintro ⟨hr, hkey⟩
    obtain ⟨hn, hb⟩ := ref.key_inj hkey
    exact ⟨hr, hn.symm, hb.symm⟩
  · rintro ⟨hr, rfl, rfl⟩
    exact ⟨hr, rfl⟩

omit [DecidableEq κ] in
/-- The partners of a kept row are the row of the dropped object. -/
theorem Pairing.partner_kept_iff
    (h : Pairing pairs) (hmem : (k, d) ∈ pairs) {r x : ρ}
    (hr : ref.target r = k) :
    ref.partner pairs r x = true ↔
      ref.target x = d ∧ ref.part x = ref.part r := by
  simp only [Reference.partner, Bool.and_eq_true, List.any_eq_true, beq_iff_eq,
    decide_eq_true_eq, hr]
  constructor
  · rintro ⟨⟨p, hp, hpk, hpd⟩, hpart⟩
    refine ⟨?_, hpart.symm⟩
    rw [← hpd]
    exact h.drop_eq (hpk ▸ hp) hmem
  · rintro ⟨rfl, hpart⟩
    exact ⟨⟨_, hmem, rfl, rfl⟩, hpart.symm⟩

omit [DecidableEq κ] in
/-- The partners of a dropped row are the row of the kept object. -/
theorem Pairing.partner_dropped_iff
    (h : Pairing pairs) (hmem : (k, d) ∈ pairs) {r x : ρ}
    (hx : ref.target x = d) :
    ref.partner pairs r x = true ↔
      ref.target r = k ∧ ref.part r = ref.part x := by
  simp only [Reference.partner, Bool.and_eq_true, List.any_eq_true, beq_iff_eq,
    decide_eq_true_eq, hx]
  constructor
  · rintro ⟨⟨p, hp, hpk, hpd⟩, hpart⟩
    refine ⟨?_, hpart⟩
    rw [← hpk]
    exact h.keep_eq (hpd ▸ hp) hmem
  · rintro ⟨rfl, hpart⟩
    exact ⟨⟨_, hmem, rfl, rfl⟩, hpart⟩

/-- A search for partners of a kept row looks at one row. -/
theorem Pairing.any_partner_kept
    (h : Pairing pairs) (hmem : (k, d) ∈ pairs) {r : ρ}
    (hr : ref.target r = k) (q : ρ → Bool) :
    t.rows.any (fun x => ref.partner pairs r x && q x) =
      (ref.row t d (ref.part r)).any q := by
  rw [Bool.eq_iff_iff, List.any_eq_true, Option.any_eq_true]
  constructor
  · rintro ⟨x, hx, hpartner⟩
    rw [Bool.and_eq_true, h.partner_kept_iff hmem hr] at hpartner
    exact ⟨x, Reference.row_eq_some_iff.mpr ⟨hx, hpartner.1.1, hpartner.1.2⟩,
      hpartner.2⟩
  · rintro ⟨x, hx, hq⟩
    obtain ⟨hx, htarget, hpart⟩ := Reference.row_eq_some_iff.mp hx
    refine ⟨x, hx, ?_⟩
    rw [Bool.and_eq_true, h.partner_kept_iff hmem hr]
    exact ⟨⟨htarget, hpart⟩, hq⟩

/-- A search for partners of a dropped row looks at one row. -/
theorem Pairing.any_partner_dropped
    (h : Pairing pairs) (hmem : (k, d) ∈ pairs) {x : ρ}
    (hx : ref.target x = d) (q : ρ → Bool) :
    t.rows.any (fun r => ref.partner pairs r x && q r) =
      (ref.row t k (ref.part x)).any q := by
  rw [Bool.eq_iff_iff, List.any_eq_true, Option.any_eq_true]
  constructor
  · rintro ⟨r, hr, hpartner⟩
    rw [Bool.and_eq_true, h.partner_dropped_iff hmem hx] at hpartner
    exact ⟨r, Reference.row_eq_some_iff.mpr ⟨hr, hpartner.1.1, hpartner.1.2⟩,
      hpartner.2⟩
  · rintro ⟨r, hr, hq⟩
    obtain ⟨hr, htarget, hpart⟩ := Reference.row_eq_some_iff.mp hr
    refine ⟨r, hr, ?_⟩
    rw [Bool.and_eq_true, h.partner_dropped_iff hmem hx]
    exact ⟨⟨htarget, hpart⟩, hq⟩

/-- The partner that is found is the row of the dropped object. -/
theorem Pairing.find_partner
    (h : Pairing pairs) (hmem : (k, d) ∈ pairs) {r : ρ}
    (hr : ref.target r = k) :
    t.rows.find? (ref.partner pairs r) = ref.row t d (ref.part r) := by
  cases hfind : t.rows.find? (ref.partner pairs r) with
  | none =>
      cases hrow : ref.row t d (ref.part r) with
      | none =>
          rfl
      | some x =>
          obtain ⟨hx, htarget, hpart⟩ := Reference.row_eq_some_iff.mp hrow
          have hnone := List.find?_eq_none.mp hfind x hx
          exact absurd ((h.partner_kept_iff hmem hr).mpr ⟨htarget, hpart⟩) hnone
  | some x =>
      have hpartner := (h.partner_kept_iff hmem hr).mp (List.find?_some hfind)
      exact (Reference.row_eq_some_iff.mpr
        ⟨List.mem_of_find?_eq_some hfind, hpartner.1, hpartner.2⟩).symm

theorem Pairing.kept_not_dropped
    (h : Pairing pairs) (hmem : (k, d) ∈ pairs) : isDropped pairs k = false := by
  rw [← Bool.not_eq_true, isDropped_iff]
  rintro ⟨k', hk'⟩
  exact h.apart hmem hk' rfl

theorem Pairing.dropped_not_kept
    (h : Pairing pairs) (hmem : (k, d) ∈ pairs) : isKept pairs d = false := by
  rw [← Bool.not_eq_true, isKept_iff]
  rintro ⟨d', hd'⟩
  exact h.apart hd' hmem rfl

section Statements

variable {better : ρ → ρ → Bool} {take : ρ → ρ → ρ}
variable {hid : ∀ r x, Record.rowid (take r x) = Record.rowid r}
variable {hkeys : ∀ r x, Record.keys (take r x) = Record.keys r}

/-- A kept row takes over from the dropped one where that is better. -/
theorem Pairing.row_align_kept
    (h : Pairing pairs) (hmem : (k, d) ∈ pairs) (b : β) :
    ref.row (ref.align pairs better take hid hkeys t) k b =
      (ref.row t k b).map (fun r => (((ref.row t d b).filter (better r)).map
        (take r)).getD r) := by
  unfold Reference.align
  rw [Reference.row, Table.lookup_modify]
  cases hrow : t.lookup (ref.key k b) with
  | none =>
      simp [Reference.row, hrow]
  | some r =>
      obtain ⟨-, htarget, hpart⟩ := Reference.row_eq_some_iff.mp hrow
      rw [Option.map_some, h.find_partner hmem htarget,
        h.any_partner_kept hmem htarget, hpart]
      have hkept : isKept pairs (ref.target r) = true := by
        rw [htarget, isKept_iff]
        exact ⟨d, hmem⟩
      have hrow' : ref.row t k b = some r := hrow
      rw [hkept, Bool.true_and, hrow', Option.map_some]
      cases ref.row t d b with
      | none =>
          rfl
      | some x =>
          cases hbetter : better r x with
          | true =>
              simp [Option.filter, hbetter]
          | false =>
              simp [Option.filter, hbetter]

/-- No row of another object takes over anything. -/
theorem Reference.row_align_of_not_kept
    {n : Nat} (hn : isKept pairs n = false) (b : β) :
    ref.row (ref.align pairs better take hid hkeys t) n b = ref.row t n b := by
  unfold Reference.align
  rw [Reference.row, Table.lookup_modify]
  cases hrow : t.lookup (ref.key n b) with
  | none =>
      simp [Reference.row, hrow]
  | some r =>
      obtain ⟨-, htarget, -⟩ := Reference.row_eq_some_iff.mp hrow
      simp [Reference.row, hrow, htarget, hn]

/-- A dropped row stays if the kept one does not cover it. -/
theorem Pairing.row_deleteCovered_dropped
    (h : Pairing pairs) (hmem : (k, d) ∈ pairs) (covers : ρ → ρ → Bool) (b : β) :
    ref.row (ref.deleteCovered pairs covers t) d b =
      (ref.row t d b).filter (fun x =>
        !(ref.row t k b).any (fun r => covers r x)) := by
  unfold Reference.deleteCovered
  rw [Reference.row, Table.lookup_deleteWhere]
  cases hrow : t.lookup (ref.key d b) with
  | none =>
      simp [Reference.row, hrow]
  | some x =>
      obtain ⟨-, htarget, hpart⟩ := Reference.row_eq_some_iff.mp hrow
      have hdropped : isDropped pairs (ref.target x) = true := by
        rw [htarget, isDropped_iff]
        exact ⟨k, hmem⟩
      have hrow' : ref.row t d b = some x := hrow
      rw [hrow']
      simp only [Option.filter_some, hdropped, Bool.true_and,
        h.any_partner_dropped hmem htarget, hpart]

theorem Reference.row_deleteCovered_of_not_dropped
    {n : Nat} (hn : isDropped pairs n = false) (covers : ρ → ρ → Bool) (b : β) :
    ref.row (ref.deleteCovered pairs covers t) n b = ref.row t n b := by
  unfold Reference.deleteCovered
  rw [Reference.row, Table.lookup_deleteWhere]
  cases hrow : t.lookup (ref.key n b) with
  | none =>
      simp [Reference.row, hrow]
  | some x =>
      obtain ⟨-, htarget, -⟩ := Reference.row_eq_some_iff.mp hrow
      simp [Reference.row, hrow, htarget, hn]

/-- A kept row stays if the dropped one does not beat it. -/
theorem Pairing.row_deleteBeaten_kept
    (h : Pairing pairs) (hmem : (k, d) ∈ pairs) (beaten : ρ → ρ → Bool) (b : β) :
    ref.row (ref.deleteBeaten pairs beaten t) k b =
      (ref.row t k b).filter (fun r => !(ref.row t d b).any (beaten r)) := by
  unfold Reference.deleteBeaten
  rw [Reference.row, Table.lookup_deleteWhere]
  cases hrow : t.lookup (ref.key k b) with
  | none =>
      simp [Reference.row, hrow]
  | some r =>
      obtain ⟨-, htarget, hpart⟩ := Reference.row_eq_some_iff.mp hrow
      have hkept : isKept pairs (ref.target r) = true := by
        rw [htarget, isKept_iff]
        exact ⟨d, hmem⟩
      have hrow' : ref.row t k b = some r := hrow
      rw [hrow']
      simp only [Option.filter_some, hkept, Bool.true_and,
        h.any_partner_kept hmem htarget, hpart]

theorem Reference.row_deleteBeaten_of_not_kept
    {n : Nat} (hn : isKept pairs n = false) (beaten : ρ → ρ → Bool) (b : β) :
    ref.row (ref.deleteBeaten pairs beaten t) n b = ref.row t n b := by
  unfold Reference.deleteBeaten
  rw [Reference.row, Table.lookup_deleteWhere]
  cases hrow : t.lookup (ref.key n b) with
  | none =>
      simp [Reference.row, hrow]
  | some r =>
      obtain ⟨-, htarget, -⟩ := Reference.row_eq_some_iff.mp hrow
      simp [Reference.row, hrow, htarget, hn]

end Statements

section Pointing

/-- No row of a kept object clashes with one of its dropped object. -/
def Reference.Clashless
    (ref : Reference ρ β) (pairs : List (Nat × Nat)) (t : Table ρ) : Prop :=
  ∀ {k d}, (k, d) ∈ pairs → ∀ b, ref.row t k b = none ∨ ref.row t d b = none

omit [DecidableEq β] in
/-- Without a clash the rows of dropped objects can be pointed at the kept ones. -/
theorem Pairing.exists_repoint
    (h : Pairing pairs) (hclash : ref.Clashless pairs t) :
    ∃ t', ref.repoint pairs t = some t' ∧
      t'.rows = t.updatedRows (fun x => isDropped pairs (ref.target x))
        (fun x => ref.move (keptOf pairs (ref.target x)) x) := by
  have hpoint : ∃ t', ref.repoint pairs t = some t' ∧
      t'.rows = t.updatedRows (fun x => isDropped pairs (ref.target x))
        (fun x => ref.move (keptOf pairs (ref.target x)) x) ∧
      t'.nextRowid = t.nextRowid := by
    refine exists_updateEach ?_
    intro a ha hadrop c hc hne key hkey
    obtain ⟨k, hk⟩ := isDropped_iff.mp hadrop
    rw [h.keptOf_eq hk, ref.keys_eq, ref.target_move, ref.part_move,
      List.mem_singleton] at hkey
    subst hkey
    have harow : ref.row t (ref.target a) (ref.part a) = some a :=
      Reference.row_eq_some_iff.mpr ⟨ha, rfl, rfl⟩
    constructor
    · -- the row of the kept object would have clashed
      rw [ref.keys_eq, List.mem_singleton]
      intro hkeyc
      obtain ⟨htarget, hpart⟩ := ref.key_inj hkeyc
      have hcrow : ref.row t k (ref.part a) = some c :=
        Reference.row_eq_some_iff.mpr ⟨hc, htarget.symm, hpart.symm⟩
      rcases hclash hk (ref.part a) with hnone | hnone
      · rw [hcrow] at hnone
        cases hnone
      · rw [harow] at hnone
        cases hnone
    · -- another dropped row goes to another object or has another part
      intro hcdrop
      obtain ⟨k', hk'⟩ := isDropped_iff.mp hcdrop
      rw [h.keptOf_eq hk', ref.keys_eq, ref.target_move, ref.part_move,
        List.mem_singleton]
      intro hkeyc
      obtain ⟨rfl, hpart⟩ := ref.key_inj hkeyc
      have htarget := h.drop_eq hk hk'
      have hcrow : ref.row t (ref.target a) (ref.part a) = some c :=
        Reference.row_eq_some_iff.mpr ⟨hc, htarget.symm, hpart.symm⟩
      rw [harow] at hcrow
      cases hcrow
      exact hne rfl
  obtain ⟨t', ht', hrows, -⟩ := hpoint
  exact ⟨t', ht', hrows⟩

/-- The row that two rows of a pair end in, where `join` decides between both. -/
def Reference.joined
    (ref : Reference ρ β) (join : ρ → ρ → ρ) (k : Nat) :
    Option ρ → Option ρ → Option ρ
  | some r, some x => some (join r x)
  | some r, none => some r
  | none, some x => some (ref.move k x)
  | none, none => none

/-- The rows of each pair are joined, and all others are as they were. -/
structure Reference.Merged
    (ref : Reference ρ β) (pairs : List (Nat × Nat)) (join : ρ → ρ → ρ)
    (t t' : Table ρ) : Prop where
  kept : ∀ {k d}, (k, d) ∈ pairs → ∀ b,
    ref.row t' k b = ref.joined join k (ref.row t k b) (ref.row t d b)
  dropped : ∀ {k d}, (k, d) ∈ pairs → ∀ b, ref.row t' d b = none
  others : ∀ {n}, isKept pairs n = false → isDropped pairs n = false → ∀ b,
    ref.row t' n b = ref.row t n b

omit [DecidableEq β] in
/-- A row after the pointing was there under its key, or under a dropped one. -/
theorem Pairing.row_repoint_iff
    (h : Pairing pairs) {t' : Table ρ}
    (hrows : t'.rows = t.updatedRows (fun x => isDropped pairs (ref.target x))
      (fun x => ref.move (keptOf pairs (ref.target x)) x)) {n : Nat} {b : β}
    {y : ρ} :
    ref.row t' n b = some y ↔
      isDropped pairs n = false ∧ ref.row t n b = some y ∨
        ∃ d x, (n, d) ∈ pairs ∧ ref.row t d b = some x ∧ y = ref.move n x := by
  rw [Reference.row_eq_some_iff, hrows, Table.mem_updatedRows]
  constructor
  · rintro ⟨⟨x, hx, rfl⟩, htarget, hpart⟩
    cases hdropped : isDropped pairs (ref.target x) with
    | true =>
        obtain ⟨k, hk⟩ := isDropped_iff.mp hdropped
        rw [hdropped, if_pos rfl, h.keptOf_eq hk, ref.target_move] at htarget
        rw [hdropped, if_pos rfl, ref.part_move] at hpart
        subst htarget
        refine Or.inr ⟨ref.target x, x, hk, ?_, ?_⟩
        · exact Reference.row_eq_some_iff.mpr ⟨hx, rfl, hpart⟩
        · rw [if_pos rfl, h.keptOf_eq hk]
    | false =>
        rw [hdropped, if_neg Bool.false_ne_true] at htarget hpart
        rw [if_neg Bool.false_ne_true]
        refine Or.inl ⟨htarget ▸ hdropped, ?_⟩
        exact Reference.row_eq_some_iff.mpr ⟨hx, htarget, hpart⟩
  · rintro (⟨hdropped, hrow⟩ | ⟨d, x, hmem, hrow, rfl⟩)
    · obtain ⟨hy, htarget, hpart⟩ := Reference.row_eq_some_iff.mp hrow
      refine ⟨⟨y, hy, ?_⟩, htarget, hpart⟩
      rw [htarget, hdropped, if_neg Bool.false_ne_true]
    · obtain ⟨hx, htarget, hpart⟩ := Reference.row_eq_some_iff.mp hrow
      refine ⟨⟨x, hx, ?_⟩, ref.target_move n x, (ref.part_move n x).trans hpart⟩
      rw [htarget, isDropped_iff.mpr ⟨n, hmem⟩, if_pos rfl, h.keptOf_eq hmem]

omit [DecidableEq β] in
/-- The pointing joins the two rows of a pair, only one of which is there. -/
theorem Pairing.merged_repoint
    (h : Pairing pairs) (hclash : ref.Clashless pairs t) {t' : Table ρ}
    (hrows : t'.rows = t.updatedRows (fun x => isDropped pairs (ref.target x))
      (fun x => ref.move (keptOf pairs (ref.target x)) x)) (join : ρ → ρ → ρ) :
    ref.Merged pairs join t t' where
  kept := by
    intro k d hmem b
    cases hkept : ref.row t k b with
    | some r =>
        rcases hclash hmem b with hnone | hnone
        · rw [hkept] at hnone
          cases hnone
        · rw [hnone]
          exact (h.row_repoint_iff hrows).mpr
            (Or.inl ⟨h.kept_not_dropped hmem, hkept⟩)
    | none =>
        cases hdropped : ref.row t d b with
        | some x =>
            exact (h.row_repoint_iff hrows).mpr
              (Or.inr ⟨d, x, hmem, hdropped, rfl⟩)
        | none =>
            rw [Reference.joined, Option.eq_none_iff_forall_ne_some]
            intro y hy
            rcases (h.row_repoint_iff hrows).mp hy with
              ⟨-, hrow⟩ | ⟨d', x, hmem', hrow, -⟩
            · rw [hkept] at hrow
              cases hrow
            · rw [h.drop_eq hmem' hmem, hdropped] at hrow
              cases hrow
  dropped := by
    intro k d hmem b
    rw [Option.eq_none_iff_forall_ne_some]
    intro y hy
    rcases (h.row_repoint_iff hrows).mp hy with
      ⟨hdropped, -⟩ | ⟨d', x, hmem', -, -⟩
    · rw [isDropped_iff.mpr ⟨k, hmem⟩] at hdropped
      cases hdropped
    · exact h.apart hmem' hmem rfl
  others := by
    intro n hkept hdropped b
    ext y
    rw [h.row_repoint_iff hrows]
    constructor
    · rintro (⟨-, hrow⟩ | ⟨d, x, hmem, -, -⟩)
      · exact hrow
      · rw [isKept_iff.mpr ⟨d, hmem⟩] at hkept
        cases hkept
    · exact fun hrow => Or.inl ⟨hdropped, hrow⟩

variable (ref) in
/-- The merge of three statements: take over, delete what clashes, point. -/
theorem Pairing.merged_align
    (h : Pairing pairs) (better : ρ → ρ → Bool) (take : ρ → ρ → ρ)
    (hid : ∀ r x, Record.rowid (take r x) = Record.rowid r)
    (hkeys : ∀ r x, Record.keys (take r x) = Record.keys r) (t : Table ρ) :
    ∃ t', ref.repoint pairs (ref.deleteCovered pairs (fun _ _ => true)
        (ref.align pairs better take hid hkeys t)) = some t' ∧
      ref.Merged pairs (fun r x => if better r x then take r x else r) t t' := by
  generalize hu : ref.deleteCovered pairs (fun _ _ => true)
    (ref.align pairs better take hid hkeys t) = u
  have hkept {k d} (hmem : (k, d) ∈ pairs) (b : β) : ref.row u k b =
      (ref.row t k b).map (fun r => (((ref.row t d b).filter (better r)).map
        (take r)).getD r) := by
    rw [← hu, Reference.row_deleteCovered_of_not_dropped (h.kept_not_dropped hmem),
      h.row_align_kept hmem]
  have hdropped {k d} (hmem : (k, d) ∈ pairs) (b : β) : ref.row u d b =
      (ref.row t d b).filter (fun _ => (ref.row t k b).isNone) := by
    rw [← hu, h.row_deleteCovered_dropped hmem,
      Reference.row_align_of_not_kept (h.dropped_not_kept hmem),
      h.row_align_kept hmem]
    cases ref.row t k b with
    | none =>
        rfl
    | some r =>
        rfl
  have hclash : ref.Clashless pairs u := by
    intro k d hmem b
    rw [hkept hmem, hdropped hmem]
    cases ref.row t k b with
    | none =>
        exact Or.inl rfl
    | some r =>
        refine Or.inr ?_
        cases ref.row t d b with
        | none => rfl
        | some x => rfl
  obtain ⟨t', ht', hrows⟩ := h.exists_repoint hclash
  have hmerged := h.merged_repoint hclash hrows (fun r _ => r)
  refine ⟨t', ht', ?_, hmerged.dropped, ?_⟩
  · intro k d hmem b
    rw [hmerged.kept hmem, hkept hmem, hdropped hmem]
    cases ref.row t k b with
    | none =>
        cases ref.row t d b with
        | none => rfl
        | some x => rfl
    | some r =>
        cases ref.row t d b with
        | none => rfl
        | some x =>
            cases hbetter : better r x with
            | true =>
                simp [Reference.joined, Option.filter, hbetter]
            | false =>
                simp [Reference.joined, Option.filter, hbetter]
  · intro n hn hn' b
    rw [hmerged.others hn hn', ← hu,
      Reference.row_deleteCovered_of_not_dropped hn',
      Reference.row_align_of_not_kept hn]

variable (ref) in
/-- The merge of three statements where the older row of a pair is deleted. -/
theorem Pairing.merged_newest
    (h : Pairing pairs) (older : ρ → ρ → Bool) (t : Table ρ) :
    ∃ t', ref.repoint pairs (ref.deleteBeaten pairs older
        (ref.deleteCovered pairs (fun r x => !older r x) t)) = some t' ∧
      ref.Merged pairs
        (fun r x => if older r x then ref.move (ref.target r) x else r) t t' := by
  generalize hu : ref.deleteBeaten pairs older
    (ref.deleteCovered pairs (fun r x => !older r x) t) = u
  have hdropped {k d} (hmem : (k, d) ∈ pairs) (b : β) : ref.row u d b =
      (ref.row t d b).filter (fun x =>
        !(ref.row t k b).any (fun r => !older r x)) := by
    rw [← hu, Reference.row_deleteBeaten_of_not_kept (h.dropped_not_kept hmem),
      h.row_deleteCovered_dropped hmem]
  have hkept {k d} (hmem : (k, d) ∈ pairs) (b : β) : ref.row u k b =
      (ref.row t k b).filter (fun r => !(ref.row u d b).any (older r)) := by
    rw [hdropped hmem, ← hu, h.row_deleteBeaten_kept hmem,
      Reference.row_deleteCovered_of_not_dropped (h.kept_not_dropped hmem),
      h.row_deleteCovered_dropped hmem]
  have hclash : ref.Clashless pairs u := by
    intro k d hmem b
    rw [hkept hmem, hdropped hmem]
    cases ref.row t k b with
    | none =>
        exact Or.inl rfl
    | some r =>
        cases ref.row t d b with
        | none =>
            exact Or.inr rfl
        | some x =>
            cases holder : older r x with
            | true =>
                simp [Option.filter, holder]
            | false =>
                simp [Option.filter, holder]
  obtain ⟨t', ht', hrows⟩ := h.exists_repoint hclash
  have hmerged := h.merged_repoint hclash hrows (fun r _ => r)
  refine ⟨t', ht', ?_, hmerged.dropped, ?_⟩
  · intro k d hmem b
    rw [hmerged.kept hmem, hkept hmem, hdropped hmem]
    cases hrow : ref.row t k b with
    | none =>
        cases ref.row t d b with
        | none => rfl
        | some x => rfl
    | some r =>
        obtain ⟨-, htarget, -⟩ := Reference.row_eq_some_iff.mp hrow
        cases ref.row t d b with
        | none => rfl
        | some x =>
            cases holder : older r x with
            | true =>
                simp [Reference.joined, Option.filter, holder, htarget]
            | false =>
                simp [Reference.joined, Option.filter, holder]
  · intro n hn hn' b
    rw [hmerged.others hn hn', ← hu, Reference.row_deleteBeaten_of_not_kept hn,
      Reference.row_deleteCovered_of_not_dropped hn']

end Pointing

end Keywise

end RelTable
