import Mathlib.Logic.Function.Basic

/-!
# Files by name and by handle

A name stands for a file, and a handle for the file that the name stood for when it was
opened; a rename or a removal changes names and leaves the handles alone.  Writes go
through a handle, at its own position or at the end of the file.

A disk carries the proof that no two names share a file.  The lemmas on `read` say what
each operation does to the contents under every name.
-/

namespace Inodes

universe u v

variable {ν : Type u} {β : Type v}

/-- Which file each name stands for, and the contents of the files. -/
structure Disk (ν : Type u) (β : Type v) where
  inode : ν → Option Nat
  data : Nat → List β
  fresh : Nat
  inode_lt : ∀ a i, inode a = some i → i < fresh
  inode_inj : ∀ a b i, inode a = some i → inode b = some i → a = b

/-- An open file; without a position it is open for appending. -/
structure Handle where
  inode : Nat
  position : Option Nat
  deriving DecidableEq, Repr

namespace Disk

def empty : Disk ν β where
  inode _ := none
  data _ := []
  fresh := 0
  inode_lt := nofun
  inode_inj := nofun

/-- The content of the file under a name. -/
def read (d : Disk ν β) (a : ν) : Option (List β) :=
  (d.inode a).map d.data

def setData (d : Disk ν β) (i : Nat) (content : List β) : Disk ν β :=
  { d with data := Function.update d.data i content }

/-- A write through a handle. -/
def write (d : Disk ν β) [Inhabited β] (h : Handle) (bytes : List β) : Disk ν β × Handle :=
  match h.position with
  | none => (d.setData h.inode (d.data h.inode ++ bytes), h)
  | some p =>
      let old := d.data h.inode
      (d.setData h.inode
        (old.take p ++ List.replicate (p - old.length) default ++ bytes ++
          old.drop (p + bytes.length)),
        { h with position := some (p + bytes.length) })

variable [DecidableEq ν]

def remove (d : Disk ν β) (a : ν) : Disk ν β where
  inode := Function.update d.inode a none
  data := d.data
  fresh := d.fresh
  inode_lt := by
    intro b i hb
    by_cases hba : b = a
    · rw [hba, Function.update_self] at hb
      cases hb
    · rw [Function.update_of_ne hba] at hb
      exact d.inode_lt b i hb
  inode_inj := by
    intro b c i hb hc
    by_cases hba : b = a
    · rw [hba, Function.update_self] at hb
      cases hb
    · by_cases hca : c = a
      · rw [hca, Function.update_self] at hc
        cases hc
      · rw [Function.update_of_ne hba] at hb
        rw [Function.update_of_ne hca] at hc
        exact d.inode_inj b c i hb hc

/-- Let a name stand for a file that has no name. -/
def link (d : Disk ν β) (a : ν) (i : Nat) (hlt : i < d.fresh)
    (hfree : ∀ b, d.inode b ≠ some i) : Disk ν β where
  inode := Function.update d.inode a (some i)
  data := d.data
  fresh := d.fresh
  inode_lt := by
    intro b j hb
    by_cases hba : b = a
    · rw [hba, Function.update_self] at hb
      cases hb
      exact hlt
    · rw [Function.update_of_ne hba] at hb
      exact d.inode_lt b j hb
  inode_inj := by
    intro b c j hb hc
    by_cases hba : b = a
    · by_cases hca : c = a
      · rw [hba, hca]
      · rw [hba, Function.update_self] at hb
        rw [Function.update_of_ne hca] at hc
        cases hb
        exact absurd hc (hfree c)
    · rw [Function.update_of_ne hba] at hb
      by_cases hca : c = a
      · rw [hca, Function.update_self] at hc
        cases hc
        exact absurd hb (hfree b)
      · rw [Function.update_of_ne hca] at hc
        exact d.inode_inj b c j hb hc

/-- A new empty file without a name. -/
def alloc (d : Disk ν β) : Disk ν β where
  inode := d.inode
  data := Function.update d.data d.fresh []
  fresh := d.fresh + 1
  inode_lt a i ha := Nat.lt_succ_of_lt (d.inode_lt a i ha)
  inode_inj := d.inode_inj

omit [DecidableEq ν] in
theorem inode_ne_fresh (d : Disk ν β) (a : ν) : d.inode a ≠ some d.fresh :=
  fun h => Nat.lt_irrefl _ (d.inode_lt a _ h)

theorem remove_free {d : Disk ν β} {a : ν} {i : Nat} (h : d.inode a = some i) (b : ν) :
    (d.remove a).inode b ≠ some i := by
  intro hb
  have hupdate : Function.update d.inode a none b = some i := hb
  by_cases hba : b = a
  · rw [hba, Function.update_self] at hupdate
    cases hupdate
  · rw [Function.update_of_ne hba] at hupdate
    exact hba (d.inode_inj b a i hupdate h)

/-- A new file under a name. -/
def create (d : Disk ν β) (a : ν) : Disk ν β :=
  d.alloc.link a d.fresh (Nat.lt_succ_self _) d.inode_ne_fresh

/-- Open for appending. -/
def openAppend (d : Disk ν β) (a : ν) : Disk ν β × Handle :=
  match d.inode a with
  | some i => (d, ⟨i, none⟩)
  | none => (d.create a, ⟨d.fresh, none⟩)

/-- Open for writing from the start, and truncate. -/
def openTruncate (d : Disk ν β) (a : ν) : Disk ν β × Handle :=
  match d.inode a with
  | some i => (d.setData i [], ⟨i, some 0⟩)
  | none => (d.create a, ⟨d.fresh, some 0⟩)

/-- The file under `a` gets the name `b`, if there is one. -/
def rename (d : Disk ν β) (a b : ν) : Option (Disk ν β) :=
  match h : d.inode a with
  | none => none
  | some i => some ((d.remove a).link b i (d.inode_lt a i h) (remove_free h))

end Disk

section Contents

variable {d : Disk ν β} {a b : ν} {i : Nat}

namespace Disk

theorem read_eq_some {content : List β} :
    d.read a = some content ↔ ∃ i, d.inode a = some i ∧ d.data i = content := by
  exact Option.map_eq_some_iff

theorem read_of_inode (h : d.inode a = some i) : d.read a = some (d.data i) := by
  rw [read, h]
  rfl

theorem read_setData_self {content : List β} (h : d.inode a = some i) :
    (d.setData i content).read a = some content := by
  refine (read_of_inode (d := d.setData i content) h).trans ?_
  simp [setData]

theorem read_setData_of_ne {content : List β} (h : d.inode b ≠ some i) :
    (d.setData i content).read b = d.read b := by
  cases hb : d.inode b with
  | none =>
      simp [read, setData, hb]
  | some j =>
      have hji : j ≠ i := by
        rintro rfl
        exact h hb
      simp [read, setData, hb, Function.update_of_ne hji]

variable [DecidableEq ν]

@[simp] theorem read_remove_self : (d.remove a).read a = none := by
  simp [read, remove]

theorem read_remove_of_ne (h : b ≠ a) : (d.remove a).read b = d.read b := by
  simp [read, remove, Function.update_of_ne h]

@[simp] theorem read_create_self : (d.create a).read a = some [] := by
  simp [read, create, link, alloc]

theorem read_create_of_ne (h : b ≠ a) : (d.create a).read b = d.read b := by
  cases hb : d.inode b with
  | none =>
      simp [read, create, link, alloc, Function.update_of_ne h, hb]
  | some j =>
      have hj : j ≠ d.fresh := Nat.ne_of_lt (d.inode_lt b j hb)
      simp [read, create, link, alloc, Function.update_of_ne h, hb,
        Function.update_of_ne hj]

@[simp] theorem inode_create_self : (d.create a).inode a = some d.fresh := by
  simp [create, link]

/-- Opening for appending makes the file if it is not there. -/
theorem openAppend_spec (d : Disk ν β) (a : ν) :
    (d.openAppend a).1.inode a = some (d.openAppend a).2.inode ∧
      (d.openAppend a).2.position = none ∧
      (d.openAppend a).1.read a = some ((d.read a).getD []) ∧
      ∀ b, b ≠ a → (d.openAppend a).1.read b = d.read b := by
  unfold openAppend
  split
  · rename_i i hi
    exact ⟨hi, rfl, by rw [read_of_inode hi]; rfl, fun b _ => rfl⟩
  · rename_i hnone
    refine ⟨inode_create_self, rfl, ?_, fun b hb => read_create_of_ne hb⟩
    rw [read_create_self, read, hnone]
    rfl

/-- Opening with truncation leaves an empty file. -/
theorem openTruncate_spec (d : Disk ν β) (a : ν) :
    (d.openTruncate a).1.inode a = some (d.openTruncate a).2.inode ∧
      (d.openTruncate a).2.position = some 0 ∧
      (d.openTruncate a).1.read a = some [] ∧
      ∀ b, b ≠ a → (d.openTruncate a).1.read b = d.read b := by
  unfold openTruncate
  split
  · rename_i i hi
    refine ⟨hi, rfl, read_setData_self hi, ?_⟩
    intro b hb
    exact read_setData_of_ne (fun h => hb (d.inode_inj b a i h hi))
  · exact ⟨inode_create_self, rfl, read_create_self, fun b hb => read_create_of_ne hb⟩

theorem rename_spec {content : List β} (h : d.read a = some content) (hab : b ≠ a) :
    ∃ d', d.rename a b = some d' ∧ d'.read b = some content ∧ d'.read a = none ∧
      ∀ c, c ≠ a → c ≠ b → d'.read c = d.read c := by
  obtain ⟨i, hi, rfl⟩ := read_eq_some.mp h
  have hrename : d.rename a b =
      some ((d.remove a).link b i (d.inode_lt a i hi) (remove_free hi)) := by
    unfold rename
    split
    · rename_i hnone
      rw [hi] at hnone
      cases hnone
    · rename_i j hj
      cases hi.symm.trans hj
      rfl
  refine ⟨_, hrename, ?_, ?_, ?_⟩
  · simp [read, link, remove]
  · simp [read, link, remove, Function.update_of_ne hab.symm]
  · intro c hca hcb
    simp [read, link, remove, Function.update_of_ne hca, Function.update_of_ne hcb]

omit [DecidableEq ν] in
/-- A write at the end of a file appends, whichever way the file was opened. -/
theorem write_spec [Inhabited β] {h : Handle} (bytes : List β)
    (ha : d.inode a = some h.inode)
    (hend : ∀ p, h.position = some p → p = (d.data h.inode).length) :
    (d.write h bytes).1.inode a = some (d.write h bytes).2.inode ∧
      (d.write h bytes).1.data (d.write h bytes).2.inode = d.data h.inode ++ bytes ∧
      (∀ p, (d.write h bytes).2.position = some p →
        p = (d.data h.inode ++ bytes).length) ∧
      ∀ b, b ≠ a → (d.write h bytes).1.read b = d.read b := by
  obtain ⟨i, position⟩ := h
  have hother : ∀ content b, b ≠ a → (d.setData i content).read b = d.read b :=
    fun content b hb => read_setData_of_ne (fun hbi => hb (d.inode_inj b a i hbi ha))
  cases position with
  | none =>
      exact ⟨ha, by simp [write, setData], nofun, hother _⟩
  | some p =>
      have hp : p = (d.data i).length := hend p rfl
      refine ⟨ha, by simp [write, setData, hp], ?_, hother _⟩
      rintro q ⟨⟩
      rw [hp, List.length_append]

end Disk

end Contents

end Inodes
