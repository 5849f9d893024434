import Mathlib.Data.Nat.Digits.Lemmas

/-!
# Numbers as bytes, the highest first

A number of a fixed width is written byte by byte and read back; what does not fit
into the width is cut off.
-/

namespace BigEndian

/-- The bytes of a number in this width. -/
def toBytes (width n : Nat) : List UInt8 :=
  ((List.range width).map (fun i => UInt8.ofNat (n / 256 ^ i))).reverse

/-- The number with these bytes. -/
def ofBytes (bytes : List UInt8) : Nat :=
  Nat.ofDigits 256 (bytes.reverse.map UInt8.toNat)

@[simp] theorem length_toBytes (width n : Nat) : (toBytes width n).length = width := by
  simp [toBytes]

theorem ofBytes_toBytes (width n : Nat) : ofBytes (toBytes width n) = n % 256 ^ width := by
  unfold ofBytes toBytes
  rw [List.reverse_reverse, List.map_map]
  induction width with
  | zero =>
      simp [Nat.mod_one]
  | succ width ih =>
      rw [List.range_succ, List.map_append, Nat.ofDigits_append, ih, List.length_map,
        List.length_range, Nat.mod_pow_succ]
      simp [Nat.ofDigits_singleton]

theorem ofBytes_toBytes_of_lt {width n : Nat} (h : n < 256 ^ width) :
    ofBytes (toBytes width n) = n := by
  rw [ofBytes_toBytes, Nat.mod_eq_of_lt h]

end BigEndian
