import Mathlib.Algebra.GroupWithZero.Nat
import Mathlib.Data.List.Infix

/-!
# Offsets into a text

A place in a text is counted in bytes of its UTF-8 form or in units of its UTF-16
form.  Texts are lists of characters; slicing by byte offsets fails between the bytes
of a character.

At the borders of characters the two counts grow together (`utf8Len_lt_iff`), and the
units between two of them encode the text between them (`units_between`).
-/

namespace TextOffsets

section Counting

/-- The bytes of the UTF-8 form. -/
def utf8Len (cs : List Char) : Nat :=
  (cs.map Char.utf8Size).sum

/-- The UTF-16 units of a character; two for one beyond the basic plane. -/
def unitsOf (c : Char) : List Nat :=
  if c.toNat < 0x10000 then
    [c.toNat]
  else
    [0xD800 + (c.toNat - 0x10000) / 0x400, 0xDC00 + (c.toNat - 0x10000) % 0x400]

/-- `encode_utf16`. -/
def encodeUtf16 (cs : List Char) : List Nat :=
  cs.flatMap unitsOf

/-- `encode_utf16().count()`. -/
def utf16Len (cs : List Char) : Nat :=
  (encodeUtf16 cs).length

@[simp] theorem utf8Len_nil : utf8Len [] = 0 := by
  rfl

@[simp] theorem utf8Len_cons (c : Char) (cs : List Char) :
    utf8Len (c :: cs) = c.utf8Size + utf8Len cs := by
  simp [utf8Len]

@[simp] theorem utf8Len_append (cs ds : List Char) :
    utf8Len (cs ++ ds) = utf8Len cs + utf8Len ds := by
  simp [utf8Len]

@[simp] theorem encodeUtf16_append (cs ds : List Char) :
    encodeUtf16 (cs ++ ds) = encodeUtf16 cs ++ encodeUtf16 ds := by
  simp [encodeUtf16]

@[simp] theorem utf16Len_append (cs ds : List Char) :
    utf16Len (cs ++ ds) = utf16Len cs + utf16Len ds := by
  simp [utf16Len]

theorem utf8Len_pos {cs : List Char} (h : cs ≠ []) : 0 < utf8Len cs := by
  obtain ⟨c, ds, rfl⟩ := List.exists_cons_of_ne_nil h
  have hc := c.utf8Size_pos
  simp only [utf8Len_cons]
  omega

theorem utf16Len_pos {cs : List Char} (h : cs ≠ []) : 0 < utf16Len cs := by
  obtain ⟨c, ds, rfl⟩ := List.exists_cons_of_ne_nil h
  have hc : 0 < (unitsOf c).length := by
    unfold unitsOf
    split <;> simp
  simp only [utf16Len, encodeUtf16, List.flatMap_cons, List.length_append]
  omega

/-- Of two beginnings of a text the shorter is shorter in either form. -/
theorem utf8Len_lt_iff {text cs ds : List Char} (hcs : cs <+: text) (hds : ds <+: text) :
    utf8Len cs < utf8Len ds ↔ utf16Len cs < utf16Len ds := by
  rcases List.prefix_or_prefix_of_prefix hcs hds with ⟨rest, rfl⟩ | ⟨rest, rfl⟩
  · cases rest with
    | nil =>
        simp
    | cons c rest =>
        have h8 := utf8Len_pos (List.cons_ne_nil c rest)
        have h16 := utf16Len_pos (List.cons_ne_nil c rest)
        rw [utf8Len_append, utf16Len_append]
        omega
  · rw [utf8Len_append, utf16Len_append]
    omega

/-- The units between two places encode the text between them. -/
theorem units_between (before hit after : List Char) :
    ((encodeUtf16 (before ++ hit ++ after)).drop (utf16Len before)).take (utf16Len hit) =
      encodeUtf16 hit := by
  unfold utf16Len
  rw [encodeUtf16_append, encodeUtf16_append, List.append_assoc, List.drop_left,
    List.take_left]

end Counting

section Slicing

/-- The text before and behind a byte offset, if it is at the border of a character. -/
def splitAtByte : List Char → Nat → Option (List Char × List Char)
  | cs, 0 => some ([], cs)
  | [], _ + 1 => none
  | c :: cs, n + 1 =>
      if c.utf8Size ≤ n + 1 then
        (splitAtByte cs (n + 1 - c.utf8Size)).map (fun p => (c :: p.1, p.2))
      else
        none

/-- `&text[..n]`. -/
def sliceTo (text : List Char) (n : Nat) : Option (List Char) :=
  (splitAtByte text n).map Prod.fst

/-- `&text[n..]`. -/
def sliceFrom (text : List Char) (n : Nat) : Option (List Char) :=
  (splitAtByte text n).map Prod.snd

/-- `&text[start..stop]`. -/
def slice (text : List Char) (start stop : Nat) : Option (List Char) :=
  (sliceTo text stop).bind (fun through => sliceFrom through start)

@[simp] theorem splitAtByte_append (before after : List Char) :
    splitAtByte (before ++ after) (utf8Len before) = some (before, after) := by
  induction before with
  | nil =>
      unfold splitAtByte
      rfl
  | cons c before ih =>
      have hc := c.utf8Size_pos
      obtain ⟨n, hn⟩ : ∃ n, utf8Len (c :: before) = n + 1 :=
        ⟨utf8Len (c :: before) - 1, by rw [utf8Len_cons]; omega⟩
      have hrest : n + 1 - c.utf8Size = utf8Len before := by
        rw [← hn, utf8Len_cons]
        omega
      have hle : c.utf8Size ≤ n + 1 := by
        rw [← hn, utf8Len_cons]
        omega
      rw [hn, List.cons_append, splitAtByte, if_pos hle, hrest, ih]
      rfl

@[simp] theorem sliceTo_append (before after : List Char) :
    sliceTo (before ++ after) (utf8Len before) = some before := by
  simp [sliceTo]

@[simp] theorem sliceFrom_append (before after : List Char) :
    sliceFrom (before ++ after) (utf8Len before) = some after := by
  simp [sliceFrom]

@[simp] theorem slice_append (before hit after : List Char) :
    slice (before ++ hit ++ after) (utf8Len before) (utf8Len (before ++ hit)) = some hit := by
  rw [slice, sliceTo_append, Option.bind_some, sliceFrom_append]

end Slicing

end TextOffsets
