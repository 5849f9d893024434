import Mathlib.Data.List.Sort
import PrivchatSdk.Lib.GreedyPick
import PrivchatSdk.Lib.TextOffsets

/-!
# Links, numbers and mentions in a text

`scan_entities` looks for five patterns, sorts what they match by its place and keeps
what overlaps nothing that it kept before.  The user of a mention is the entry of the
id list at the place of the match among all matches of the mention pattern.

The regular expressions are those of a crate; `RegexCrate` is what is used of it.
The entities are sorted, disjoint and delimited by their UTF-16 offsets
(`scanEntities_eq`, `Found.toEntity`).  Their users are those of the id list
exactly if no mention that is dropped shifts the places (`scanEntities_exact_iff`).
-/

namespace PrivchatSdk

open GreedyPick TextOffsets

section Patterns

inductive EntityKind where
  | url
  | email
  | phone
  | number
  | mention
  deriving DecidableEq, Repr

/-- The regular expression of a kind. -/
def EntityKind.pattern : EntityKind → String
  | .url => "https?://[^\\s<>\x7b\x7d\\[\\]\\\"']+"
  | .email => "[A-Za-z0-9._%+-]+@[A-Za-z0-9.-]+\\.[A-Za-z]\x7b2,\x7d"
  | .phone => "(?:\\+?86[- ]?)?1[3-9][0-9]\x7b9\x7d"
  | .number => "[0-9]+"
  | .mention => "@[\\p\x7bL\x7d\\p\x7bN\x7d_-]+"

/-- None of the patterns matches the empty text, and a mention starts with its sign. -/
def EntityKind.Accepts : EntityKind → List Char → Prop
  | .mention, hit => ∃ name, name ≠ [] ∧ hit = '@' :: name
  | _, hit => hit ≠ []

/-- A match, by its byte offsets. -/
structure Span where
  start : Nat
  stop : Nat
  deriving DecidableEq, Repr

/-- The regular expressions: a match is a part of the text that its pattern accepts. -/
structure RegexCrate where
  findIter : String → List Char → List Span
  accepts : ∀ (kind : EntityKind) (text : List Char), ∀ m ∈ findIter kind.pattern text,
    ∃ before hit after, text = before ++ hit ++ after ∧ kind.Accepts hit ∧
      m = ⟨utf8Len before, utf8Len (before ++ hit)⟩

/-- The four kinds that are looked for in one loop. -/
def entityPatterns : List EntityKind :=
  [.url, .email, .phone, .number]

/-- A match with its kind; a mention has its place among the matches of its pattern. -/
structure Found where
  kind : EntityKind
  start : Nat
  stop : Nat
  place : Option Nat
  deriving DecidableEq, Repr

/-- What the patterns match, in the order in which it is collected. -/
def RegexCrate.finds (r : RegexCrate) (text : List Char) : List Found :=
  entityPatterns.flatMap (fun kind =>
    (r.findIter kind.pattern text).map (fun m => ⟨kind, m.start, m.stop, none⟩)) ++
  (r.findIter EntityKind.mention.pattern text).zipIdx.map
    (fun m => ⟨.mention, m.1.start, m.1.stop, some m.2⟩)

end Patterns

section Scan

/-- A `MessageTextEntity`, its kind and its texts before they are printed. -/
structure ScannedEntity where
  kind : EntityKind
  start : Nat
  stop : Nat
  text : List Char
  value : List Char
  userId : Option Nat
  deriving DecidableEq, Repr

/-- `has_adjacent_digit`. -/
def hasAdjacentDigit (text : List Char) (start stop : Nat) : Option Bool := do
  let before ← sliceTo text start
  let after ← sliceFrom text stop
  some (before.getLast?.any Char.isDigit || after.head?.any Char.isDigit)

/-- The `value` of an entity. -/
def EntityKind.value (kind : EntityKind) (raw : List Char) : Option (List Char) :=
  match kind with
  | .mention => sliceFrom raw 1
  | .phone => some (raw.filter (fun c => c != ' ' && c != '-'))
  | _ => some raw

/-- `entity`; the offsets are 32-bit numbers. -/
def entity (kind : EntityKind) (text : List Char) (start stop : Nat)
    (userId : Option Nat) : Option ScannedEntity := do
  let raw ← slice text start stop
  let before ← sliceTo text start
  let through ← sliceTo text stop
  let value ← kind.value raw
  some
    { kind := kind
      start := utf16Len before % 2 ^ 32
      stop := utf16Len through % 2 ^ 32
      text := raw
      value := value
      userId := userId }

/-- The entity of a match; a number within longer digits is no phone number. -/
def pushEntity (text : List Char) (mentions : List Nat) (f : Found) :
    Option (List ScannedEntity) := do
  let skipped ← if f.kind = .phone then hasAdjacentDigit text f.start f.stop else some false
  if skipped then
    some []
  else
    let e ← entity f.kind text f.start f.stop (f.place.bind (fun i => mentions[i]?))
    some [e]

/-- `item.start < v.end && item.end > v.start`. -/
def ScannedEntity.overlaps (v item : ScannedEntity) : Bool :=
  decide (item.start < v.stop) && decide (v.start < item.stop)

/-- `scan_entities`; `none` is a slice within a character. -/
def scanEntities (r : RegexCrate) (text : List Char) (mentions : List Nat) :
    Option (List ScannedEntity) := do
  let out ← (r.finds text).mapM (pushEntity text mentions)
  some (pick ScannedEntity.overlaps
    (out.flatten.insertionSort (fun a b => a.start ≤ b.start)))

end Scan

section Standing

/-- `has_adjacent_digit` of a phone number. -/
def Found.skipped (text : List Char) (f : Found) : Bool :=
  f.kind == .phone && hasAdjacentDigit text f.start f.stop == some true

/-- Two matches overlap, by their bytes. -/
def Found.overlaps (v item : Found) : Bool :=
  decide (item.start < v.stop) && decide (v.start < item.stop)

/-- The matches that stand: from left to right, those that overlap none before. -/
def RegexCrate.standing (r : RegexCrate) (text : List Char) : List Found :=
  pick Found.overlaps
    (((r.finds text).filter (fun f => !f.skipped text)).insertionSort
      (fun a b => a.start ≤ b.start))

/-- No match lies beyond what a 32-bit offset counts. -/
def RegexCrate.OffsetsFit (r : RegexCrate) (text : List Char) : Prop :=
  ∀ f ∈ r.finds text, ∀ through, sliceTo text f.stop = some through →
    utf16Len through < 2 ^ 32

/--
The id list has the same entry at the place of a standing mention among the matches
of its pattern and at its place among the standing ones.
-/
def RegexCrate.KeepsPlaces (r : RegexCrate) (text : List Char) (mentions : List Nat) :
    Prop :=
  ∀ (k i : Nat), ((r.standing text).filterMap Found.place)[k]? = some i →
    mentions[i]? = mentions[k]?

/-- Sorted, disjoint, delimited by their offsets, and bound to the users in order. -/
structure EntitiesExact (text : List Char) (mentions : List Nat)
    (entities : List ScannedEntity) : Prop where
  sorted : entities.Pairwise (fun a b => a.start ≤ b.start)
  disjoint : entities.Pairwise (fun a b => a.stop ≤ b.start)
  delimits : ∀ e ∈ entities, e.start ≤ e.stop ∧ e.stop ≤ utf16Len text ∧
    ((encodeUtf16 text).drop e.start).take (e.stop - e.start) = encodeUtf16 e.text
  bound : ∀ (k : Nat) (e : ScannedEntity),
    (entities.filter (fun e => e.kind == .mention))[k]? = some e → e.userId = mentions[k]?

end Standing

section Offsets

variable {r : RegexCrate} {text : List Char} {mentions : List Nat} {f g : Found}

/-- Every match is a part of the text. -/
theorem RegexCrate.exists_parts (hf : f ∈ r.finds text) :
    ∃ before hit after, text = before ++ hit ++ after ∧ f.kind.Accepts hit ∧
      f.start = utf8Len before ∧ f.stop = utf8Len (before ++ hit) := by
  rcases List.mem_append.mp hf with hf | hf
  · obtain ⟨kind, -, hkind⟩ := List.mem_flatMap.mp hf
    obtain ⟨m, hm, rfl⟩ := List.mem_map.mp hkind
    obtain ⟨before, hit, after, htext, haccepts, rfl⟩ := r.accepts kind text m hm
    exact ⟨before, hit, after, htext, haccepts, rfl, rfl⟩
  · obtain ⟨⟨m, i⟩, hm, rfl⟩ := List.mem_map.mp hf
    obtain ⟨before, hit, after, htext, haccepts, rfl⟩ :=
      r.accepts .mention text m (List.fst_mem_of_mem_zipIdx hm)
    exact ⟨before, hit, after, htext, haccepts, rfl, rfl⟩

/-- A match has a place exactly if it is a mention. -/
theorem RegexCrate.mention_iff (hf : f ∈ r.finds text) :
    f.kind = .mention ↔ f.place.isSome = true := by
  rcases List.mem_append.mp hf with hf | hf
  · obtain ⟨kind, hkind, hm⟩ := List.mem_flatMap.mp hf
    obtain ⟨m, hm, rfl⟩ := List.mem_map.mp hm
    simp only [entityPatterns, List.mem_cons, List.not_mem_nil, or_false] at hkind
    rcases hkind with rfl | rfl | rfl | rfl <;> simp
  · obtain ⟨m, -, rfl⟩ := List.mem_map.mp hf
    simp

theorem EntityKind.Accepts.ne_nil {kind : EntityKind} {hit : List Char}
    (h : kind.Accepts hit) : hit ≠ [] := by
  cases kind with
  | mention =>
      obtain ⟨name, -, rfl⟩ := h
      exact List.cons_ne_nil _ _
  | url => exact h
  | email => exact h
  | phone => exact h
  | number => exact h

/-- The text of a match. -/
def Found.hit (text : List Char) (f : Found) : List Char :=
  (slice text f.start f.stop).getD []

/-- The UTF-16 offset of a byte offset. -/
def unitsBefore (text : List Char) (n : Nat) : Nat :=
  utf16Len ((sliceTo text n).getD [])

/-- The entity of a match, offsets that fit assumed. -/
def Found.toEntity (text : List Char) (mentions : List Nat) (f : Found) :
    ScannedEntity where
  kind := f.kind
  start := unitsBefore text f.start
  stop := unitsBefore text f.stop
  text := f.hit text
  value := (f.kind.value (f.hit text)).getD []
  userId := f.place.bind (fun i => mentions[i]?)

/-- The offset is at the border of a character. -/
def Border (text : List Char) (n : Nat) : Prop :=
  ∃ before after, text = before ++ after ∧ n = utf8Len before

theorem Border.sliceTo {n : Nat} (h : Border text n) :
    ∃ before, TextOffsets.sliceTo text n = some before ∧ before <+: text ∧
      n = utf8Len before ∧ unitsBefore text n = utf16Len before := by
  obtain ⟨before, after, rfl, rfl⟩ := h
  have hslice := sliceTo_append before after
  refine ⟨before, hslice, ⟨after, rfl⟩, rfl, ?_⟩
  rw [unitsBefore, hslice, Option.getD_some]

/-- At the borders of characters units are counted as bytes are. -/
theorem Border.unitsBefore_lt_iff {n m : Nat} (hn : Border text n) (hm : Border text m) :
    unitsBefore text n < unitsBefore text m ↔ n < m := by
  obtain ⟨cs, -, hcs, hncs, hnunits⟩ := hn.sliceTo
  obtain ⟨ds, -, hds, hmds, hmunits⟩ := hm.sliceTo
  rw [hnunits, hmunits, hncs, hmds]
  exact (utf8Len_lt_iff hcs hds).symm

theorem Border.unitsBefore_le {n : Nat} (h : Border text n) :
    unitsBefore text n ≤ utf16Len text := by
  obtain ⟨before, -, ⟨after, rfl⟩, -, hunits⟩ := h.sliceTo
  rw [hunits, utf16Len_append]
  omega

theorem RegexCrate.border_start (hf : f ∈ r.finds text) : Border text f.start := by
  obtain ⟨before, hit, after, htext, -, hstart, -⟩ := r.exists_parts hf
  exact ⟨before, hit ++ after, by rw [htext, List.append_assoc], hstart⟩

theorem RegexCrate.border_stop (hf : f ∈ r.finds text) : Border text f.stop := by
  obtain ⟨before, hit, after, htext, -, -, hstop⟩ := r.exists_parts hf
  exact ⟨before ++ hit, after, htext, hstop⟩

theorem RegexCrate.start_lt_stop (hf : f ∈ r.finds text) : f.start < f.stop := by
  obtain ⟨before, hit, after, -, haccepts, hstart, hstop⟩ := r.exists_parts hf
  have hpos := utf8Len_pos haccepts.ne_nil
  rw [hstart, hstop, utf8Len_append]
  omega

/-- What the offsets of a match delimit. -/
theorem RegexCrate.hit_delimited (hf : f ∈ r.finds text) :
    ((encodeUtf16 text).drop (unitsBefore text f.start)).take
      (unitsBefore text f.stop - unitsBefore text f.start) =
        encodeUtf16 (f.hit text) := by
  obtain ⟨before, hit, after, rfl, -, hstart, hstop⟩ := r.exists_parts hf
  have hto : sliceTo (before ++ hit ++ after) (utf8Len before) = some before := by
    rw [List.append_assoc]
    exact sliceTo_append before (hit ++ after)
  have hunits : unitsBefore (before ++ hit ++ after) f.stop -
      unitsBefore (before ++ hit ++ after) f.start = utf16Len hit := by
    rw [unitsBefore, unitsBefore, hstart, hstop, sliceTo_append, hto, Option.getD_some,
      Option.getD_some, utf16Len_append]
    omega
  rw [hunits, Found.hit, hstart, hstop, slice_append, unitsBefore, hto, Option.getD_some,
    Option.getD_some]
  exact units_between before hit after

/-- No slice of a match fails. -/
theorem RegexCrate.entity_eq (hf : f ∈ r.finds text) (hfits : r.OffsetsFit text) :
    entity f.kind text f.start f.stop (f.place.bind (fun i => mentions[i]?)) =
      some (f.toEntity text mentions) := by
  obtain ⟨before, hit, after, rfl, haccepts, hstart, hstop⟩ := r.exists_parts hf
  have hto : sliceTo (before ++ hit ++ after) (utf8Len before) = some before := by
    rw [List.append_assoc]
    exact sliceTo_append before (hit ++ after)
  have hthrough := sliceTo_append (before ++ hit) after
  have hfit := hfits f hf (before ++ hit) (hstop ▸ hthrough)
  have hfit' : utf16Len before < 2 ^ 32 := by
    rw [utf16Len_append] at hfit
    omega
  have hvalue : ∃ value, f.kind.value hit = some value := by
    cases hkind : f.kind with
    | mention =>
        rw [hkind] at haccepts
        obtain ⟨name, -, rfl⟩ := haccepts
        exact ⟨name, sliceFrom_append ['@'] name⟩
    | phone => exact ⟨_, rfl⟩
    | url => exact ⟨_, rfl⟩
    | email => exact ⟨_, rfl⟩
    | number => exact ⟨_, rfl⟩
  obtain ⟨value, hvalue⟩ := hvalue
  unfold entity Found.toEntity Found.hit unitsBefore
  rw [hstart, hstop, slice_append, hto, hthrough]
  simp only [Option.bind_eq_bind, Option.bind_some, hvalue, Option.getD_some,
    Nat.mod_eq_of_lt hfit, Nat.mod_eq_of_lt hfit']

theorem RegexCrate.pushEntity_eq (mentions : List Nat) (hf : f ∈ r.finds text)
    (hfits : r.OffsetsFit text) :
    pushEntity text mentions f =
      some (if f.skipped text = true then [] else [f.toEntity text mentions]) := by
  have hentity : entity f.kind text f.start f.stop (f.place.bind (fun i => mentions[i]?)) =
      some (f.toEntity text mentions) := r.entity_eq hf hfits
  obtain ⟨before, hbefore, -⟩ := (r.border_start hf).sliceTo
  obtain ⟨through, after, htext, hstop⟩ := r.border_stop hf
  have hafter : sliceFrom text f.stop = some after := by
    rw [htext, hstop]
    exact sliceFrom_append through after
  have hdigit : ∃ adjacent, hasAdjacentDigit text f.start f.stop = some adjacent := by
    unfold hasAdjacentDigit
    rw [hbefore, hafter]
    exact ⟨_, rfl⟩
  obtain ⟨adjacent, hdigit⟩ := hdigit
  unfold pushEntity Found.skipped
  rw [hdigit, hentity]
  by_cases hphone : f.kind = .phone
  · cases adjacent <;> simp [hphone]
  · simp [hphone]

/-- What is pushed for every match, one after another. -/
theorem mapM_eq_map {α β : Type} {l : List α} {g : α → Option β} {h : α → β}
    (heq : ∀ x ∈ l, g x = some (h x)) : l.mapM g = some (l.map h) := by
  induction l with
  | nil =>
      rfl
  | cons x xs ih =>
      rw [List.mapM_cons, heq x List.mem_cons_self,
        ih (fun y hy => heq y (List.mem_cons_of_mem x hy))]
      rfl

theorem flatten_map_ite {α β : Type} (l : List α) (p : α → Bool) (h : α → β) :
    (l.map (fun x => if p x = true then [] else [h x])).flatten =
      (l.filter (fun x => !p x)).map h := by
  induction l with
  | nil =>
      rfl
  | cons x xs ih =>
      rw [List.map_cons, List.flatten_cons, ih, List.filter_cons]
      cases p x <;> simp

theorem RegexCrate.mem_of_standing (hf : f ∈ r.standing text) : f ∈ r.finds text := by
  have hsorted := (pick_sublist _).subset hf
  have hmatch := (List.perm_insertionSort _ _).mem_iff.mp hsorted
  exact List.mem_of_mem_filter hmatch

/-- The entities are the standing matches, from left to right. -/
theorem scanEntities_eq (hfits : r.OffsetsFit text) (mentions : List Nat) :
    scanEntities r text mentions =
      some ((r.standing text).map (Found.toEntity text mentions)) := by
  have hpushed : (r.finds text).mapM (pushEntity text mentions) =
      some ((r.finds text).map (fun f =>
        if f.skipped text = true then [] else [f.toEntity text mentions])) :=
    mapM_eq_map (fun f hf => r.pushEntity_eq mentions hf hfits)
  have hborders : ∀ f ∈ (r.finds text).filter (fun f => !f.skipped text),
      Border text f.start ∧ Border text f.stop := fun f hf =>
    ⟨r.border_start (List.mem_of_mem_filter hf), r.border_stop (List.mem_of_mem_filter hf)⟩
  unfold scanEntities RegexCrate.standing
  rw [hpushed, Option.bind_eq_bind, Option.bind_some, flatten_map_ite]
  congr 1
  rw [← List.map_insertionSort (fun a b : Found => a.start ≤ b.start)
    (fun a b : ScannedEntity => a.start ≤ b.start)]
  · refine pick_map (fun f hf g hg => ?_)
    obtain ⟨hfstart, hfstop⟩ := hborders f ((List.perm_insertionSort _ _).mem_iff.mp hf)
    obtain ⟨hgstart, hgstop⟩ := hborders g ((List.perm_insertionSort _ _).mem_iff.mp hg)
    unfold ScannedEntity.overlaps Found.overlaps Found.toEntity
    simp only [hgstart.unitsBefore_lt_iff hfstop, hfstart.unitsBefore_lt_iff hgstop]
  · intro f hf g hg
    have hlt := (hborders g hg).1.unitsBefore_lt_iff (hborders f hf).1
    rw [← not_lt, ← not_lt]
    exact not_congr hlt.symm

end Offsets

section Exact

variable {r : RegexCrate} {text : List Char} {mentions : List Nat}

/-- The standing matches follow one another. -/
theorem RegexCrate.standing_disjoint (r : RegexCrate) (text : List Char) :
    (r.standing text).Pairwise (fun f g => f.start ≤ g.start ∧ f.stop ≤ g.start) := by
  have hsorted : (r.standing text).Pairwise (fun f g => f.start ≤ g.start) := by
    refine List.Pairwise.sublist (pick_sublist _) ?_
    have htotal : Std.Total (fun a b : Found => a.start ≤ b.start) :=
      ⟨fun a b => le_total a.start b.start⟩
    have htrans : IsTrans Found (fun a b => a.start ≤ b.start) :=
      ⟨fun _ _ _ h h' => le_trans h h'⟩
    exact List.pairwise_insertionSort _ _
  have hapart : (r.standing text).Pairwise (fun f g => f.overlaps g = false) :=
    pick_pairwise _
  refine (hsorted.and hapart).imp_of_mem (fun hf hg h => ⟨h.1, ?_⟩)
  have hlength := r.start_lt_stop (r.mem_of_standing hg)
  have hoverlap := h.2
  simp only [Found.overlaps, Bool.and_eq_false_iff, decide_eq_false_iff_not] at hoverlap
  have hle := h.1
  omega

theorem entities_ordered (r : RegexCrate) (text : List Char) (mentions : List Nat) :
    ((r.standing text).map (Found.toEntity text mentions)).Pairwise
      (fun a b => a.start ≤ b.start ∧ a.stop ≤ b.start) := by
  refine List.pairwise_map.mpr ((r.standing_disjoint text).imp_of_mem (fun hf hg h => ?_))
  have hstart := (r.border_start (r.mem_of_standing hg)).unitsBefore_lt_iff
    (r.border_start (r.mem_of_standing hf))
  have hstop := (r.border_start (r.mem_of_standing hg)).unitsBefore_lt_iff
    (r.border_stop (r.mem_of_standing hf))
  unfold Found.toEntity
  dsimp only
  omega

theorem entities_delimited (r : RegexCrate) (text : List Char) (mentions : List Nat) :
    ∀ e ∈ (r.standing text).map (Found.toEntity text mentions),
      e.start ≤ e.stop ∧ e.stop ≤ utf16Len text ∧
        ((encodeUtf16 text).drop e.start).take (e.stop - e.start) = encodeUtf16 e.text := by
  intro e he
  obtain ⟨f, hf, rfl⟩ := List.mem_map.mp he
  have hfinds := r.mem_of_standing hf
  have hlt := ((r.border_start hfinds).unitsBefore_lt_iff (r.border_stop hfinds)).mpr
    (r.start_lt_stop hfinds)
  exact ⟨hlt.le, (r.border_stop hfinds).unitsBefore_le, r.hit_delimited hfinds⟩

/-- The users of the mentions among some entities, by their places. -/
theorem users_of_places (text : List Char) (mentions : List Nat) (fs : List Found)
    (h : ∀ f ∈ fs, f.kind = .mention ↔ f.place.isSome = true) :
    ((fs.map (Found.toEntity text mentions)).filter
        (fun e => e.kind == .mention)).map ScannedEntity.userId =
      (fs.filterMap Found.place).map (fun i => mentions[i]?) := by
  induction fs with
  | nil =>
      rfl
  | cons f fs ih =>
      have hf := h f List.mem_cons_self
      have hrest := ih (fun g hg => h g (List.mem_cons_of_mem f hg))
      cases hplace : f.place with
      | none =>
          have hkind : f.kind ≠ .mention := by
            rw [ne_eq, hf, hplace]
            decide
          rw [List.map_cons, List.filter_cons_of_neg (by simpa [Found.toEntity] using hkind),
            List.filterMap_cons_none hplace, hrest]
      | some i =>
          have hkind : f.kind = .mention := by
            rw [hf, hplace]
            rfl
          rw [List.map_cons, List.filter_cons_of_pos (by simpa [Found.toEntity] using hkind),
            List.filterMap_cons_some hplace, List.map_cons, List.map_cons, hrest]
          simp [Found.toEntity, hplace]

/-- The offsets fit in every text of fewer than `2 ^ 32` units. -/
theorem RegexCrate.offsetsFit_of_length (r : RegexCrate) (h : utf16Len text < 2 ^ 32) :
    r.OffsetsFit text := by
  intro f hf through hthrough
  obtain ⟨before, hbefore, ⟨after, rfl⟩, -⟩ := (r.border_stop hf).sliceTo
  rw [hbefore] at hthrough
  obtain rfl := Option.some.inj hthrough
  rw [utf16Len_append] at h
  omega

/-- A place is one among the matches of the mention pattern. -/
theorem RegexCrate.place_lt {f : Found} {i : Nat} (hf : f ∈ r.finds text)
    (hplace : f.place = some i) :
    i < (r.findIter EntityKind.mention.pattern text).length := by
  rcases List.mem_append.mp hf with hf | hf
  · obtain ⟨kind, -, hkind⟩ := List.mem_flatMap.mp hf
    obtain ⟨m, -, rfl⟩ := List.mem_map.mp hkind
    cases hplace
  · obtain ⟨m, hm, rfl⟩ := List.mem_map.mp hf
    obtain rfl := Option.some.inj hplace
    exact List.snd_lt_of_mem_zipIdx hm

/-- With an own id for every match, places are kept where no match before is dropped. -/
theorem RegexCrate.keepsPlaces_iff_of_nodup (r : RegexCrate) (hnodup : mentions.Nodup)
    (hlength : (r.findIter EntityKind.mention.pattern text).length ≤ mentions.length) :
    r.KeepsPlaces text mentions ↔
      ∀ (k i : Nat), ((r.standing text).filterMap Found.place)[k]? = some i → i = k := by
  refine forall_congr' (fun k => forall_congr' (fun i => forall_congr' (fun hi => ?_)))
  obtain ⟨f, hf, hplace⟩ := List.mem_filterMap.mp (List.mem_of_getElem? hi)
  have hlt := r.place_lt (r.mem_of_standing hf) hplace
  constructor
  · intro hsame
    exact (List.getElem?_inj (hlt.trans_le hlength) hnodup).mp hsame
  · intro heq
    rw [heq]

end Exact

section Texts

/-- The crate on one text, by the parts of the text around every match. -/
def RegexCrate.onText (text : List Char)
    (parts : EntityKind → List (List Char × List Char × List Char))
    (h : ∀ kind, ∀ p ∈ parts kind, text = p.1 ++ p.2.1 ++ p.2.2 ∧ kind.Accepts p.2.1) :
    RegexCrate where
  findIter pattern t :=
    if t = text then
      ((EntityKind.mention :: entityPatterns).filter (fun kind => kind.pattern == pattern)).flatMap
        (fun kind => (parts kind).map (fun p => ⟨utf8Len p.1, utf8Len (p.1 ++ p.2.1)⟩))
    else
      []
  accepts kind t m hm := by
    have hkind : (EntityKind.mention :: entityPatterns).filter
        (fun k => k.pattern == kind.pattern) = [kind] := by
      cases kind <;> decide
    split at hm
    · rename_i ht
      rw [hkind, List.flatMap_singleton] at hm
      obtain ⟨p, hp, rfl⟩ := List.mem_map.mp hm
      obtain ⟨htext, haccepts⟩ := h kind p hp
      exact ⟨p.1, p.2.1, p.2.2, ht.trans htext, haccepts, rfl⟩
    · cases hm

/-- The text `hi@ex.co @ann`: an address, whose end looks like a mention, and a mention. -/
def addressCrate : RegexCrate :=
  .onText "hi@ex.co @ann".toList
    (fun
      | .email => [([], "hi@ex.co".toList, " @ann".toList)]
      | .mention =>
          [("hi".toList, "@ex".toList, ".co @ann".toList),
            ("hi@ex.co ".toList, "@ann".toList, [])]
      | _ => [])
    (by
      intro kind p hp
      cases kind with
      | email =>
          rw [List.mem_singleton.mp hp]
          exact ⟨by decide, List.cons_ne_nil _ _⟩
      | mention =>
          rcases List.mem_cons.mp hp with rfl | hp
          · exact ⟨by decide, "ex".toList, List.cons_ne_nil _ _, rfl⟩
          · rw [List.mem_singleton.mp hp]
            exact ⟨by decide, "ann".toList, List.cons_ne_nil _ _, rfl⟩
      | url => cases hp
      | phone => cases hp
      | number => cases hp)

/-- The user of the address's end is nobody's, and `@ann` is left without hers. -/
theorem addressCrate_misbinds :
    ¬ ∃ entities, scanEntities addressCrate "hi@ex.co @ann".toList [9] = some entities ∧
      EntitiesExact "hi@ex.co @ann".toList [9] entities := by
  have hscan : scanEntities addressCrate "hi@ex.co @ann".toList [9] =
      some
        [⟨.email, 0, 8, "hi@ex.co".toList, "hi@ex.co".toList, none⟩,
          ⟨.mention, 9, 13, "@ann".toList, "ann".toList, none⟩] := by
    decide +kernel
  rintro ⟨entities, heq, hexact⟩
  rw [hscan] at heq
  obtain rfl := Option.some.inj heq
  have hbound := hexact.bound 0 _ rfl
  cases hbound

/-- The text `😀 @ann`, whose only match is the mention. -/
def mentionCrate : RegexCrate :=
  .onText "😀 @ann".toList
    (fun
      | .mention => [("😀 ".toList, "@ann".toList, [])]
      | _ => [])
    (by
      intro kind p hp
      cases kind with
      | mention =>
          rw [List.mem_singleton.mp hp]
          exact ⟨by decide, "ann".toList, List.cons_ne_nil _ _, rfl⟩
      | url => cases hp
      | email => cases hp
      | phone => cases hp
      | number => cases hp)

end Texts

/--
Of every text the scan makes entities that are sorted, disjoint and delimited by their
offsets; their users are those of the id list in order exactly if the standing
mentions keep their places.
-/
theorem scanEntities_exact_iff (r : RegexCrate) (text : List Char) (mentions : List Nat)
    (hfits : r.OffsetsFit text) :
    (∃ entities, scanEntities r text mentions = some entities ∧
      EntitiesExact text mentions entities) ↔ r.KeepsPlaces text mentions := by
  rw [scanEntities_eq hfits]
  have husers := users_of_places text mentions (r.standing text)
    (fun f hf => r.mention_iff (r.mem_of_standing hf))
  constructor
  · rintro ⟨entities, heq, hexact⟩ k i hk
    obtain rfl := Option.some.inj heq
    have huser := congrArg (fun l : List (Option Nat) => l[k]?) husers
    simp only [List.getElem?_map, hk, Option.map_some] at huser
    obtain ⟨e, he, huserId⟩ := Option.map_eq_some_iff.mp huser
    rw [← huserId]
    exact hexact.bound k e he
  · intro hkeeps
    refine ⟨_, rfl, ?_⟩
    exact
      { sorted := (entities_ordered r text mentions).imp (fun h => h.1)
        disjoint := (entities_ordered r text mentions).imp (fun h => h.2)
        delimits := entities_delimited r text mentions
        bound := by
          intro k e he
          have huser := congrArg (fun l : List (Option Nat) => l[k]?) husers
          simp only [List.getElem?_map, he, Option.map_some] at huser
          obtain ⟨i, hi, huserId⟩ := Option.map_eq_some_iff.mp huser.symm
          rw [← huserId]
          exact hkeeps k i hi }

/-- The one mention of `😀 @ann` keeps its place, and so the scan is exact. -/
theorem mentionCrate_exact :
    ∃ entities, scanEntities mentionCrate "😀 @ann".toList [9] = some entities ∧
      EntitiesExact "😀 @ann".toList [9] entities := by
  have hplaces :
      (mentionCrate.standing "😀 @ann".toList).filterMap Found.place = [0] := by
    decide +kernel
  refine (scanEntities_exact_iff mentionCrate "😀 @ann".toList [9]
    (mentionCrate.offsetsFit_of_length (by decide))).mpr ?_
  intro k i hk
  rw [hplaces] at hk
  cases k with
  | zero =>
      cases hk
      rfl
  | succ k => cases hk

end PrivchatSdk
