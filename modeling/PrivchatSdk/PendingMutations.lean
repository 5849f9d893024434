import Mathlib.Data.List.AList
import Mathlib.Data.List.Sort
import PrivchatSdk.Lib.BigEndian
import PrivchatSdk.Lib.KeyedStore
import PrivchatSdk.ReceiveKeys

/-!
# The pending mutations in the key value tree

A mutation that came before its message lies in the key value tree of the account.
The key is a text with the channel, the message and the event; the value is a version
byte, event id and `pts` in eight bytes each, and the bytes of the event.  A list scans
the keys with the prefix of a message and takes out what it cannot read.

The tree behaves as a map from events to mutations as long as no message is listed
that waits for a mutation without event bytes (`pendingMutations_listed_iff`): such a
value is one byte too short to be read, and is taken out as corrupt.
-/

namespace PrivchatSdk
namespace PendingStore

open EventRun Receive

section Codec

/-- The message that mutations wait for. -/
structure Target where
  channelId : UInt64
  channelType : Int32
  targetServerMessageId : UInt64
  deriving DecidableEq

/-- `PendingTimelineMutation`, with the bytes of its event. -/
structure PendingTimelineMutation where
  channelId : UInt64
  channelType : Int32
  targetServerMessageId : UInt64
  eventId : UInt64
  pts : UInt64
  canonicalEvent : List UInt8
  deriving DecidableEq

def PendingTimelineMutation.target (m : PendingTimelineMutation) : Target where
  channelId := m.channelId
  channelType := m.channelType
  targetServerMessageId := m.targetServerMessageId

/-- `encode_pending_timeline_mutation`. -/
def encodePendingTimelineMutation (m : PendingTimelineMutation) : List UInt8 :=
  1 :: (BigEndian.toBytes 8 m.eventId.toNat ++
    (BigEndian.toBytes 8 m.pts.toNat ++ m.canonicalEvent))

/-- `decode_pending_timeline_mutation`. -/
def decodePendingTimelineMutation (t : Target) (value : List UInt8) :
    Except String PendingTimelineMutation :=
  if value.length < 18 ∨ value.head? ≠ some 1 then
    .error "invalid pending timeline mutation record"
  else
    .ok
      { channelId := t.channelId
        channelType := t.channelType
        targetServerMessageId := t.targetServerMessageId
        eventId := UInt64.ofNat (BigEndian.ofBytes ((value.drop 1).take 8))
        pts := UInt64.ofNat (BigEndian.ofBytes ((value.drop 9).take 8))
        canonicalEvent := value.drop 17 }

theorem ofBytes_toBytes_u64 (n : UInt64) :
    UInt64.ofNat (BigEndian.ofBytes (BigEndian.toBytes 8 n.toNat)) = n := by
  rw [BigEndian.ofBytes_toBytes_of_lt (by simpa using n.toNat_lt), UInt64.ofNat_toNat]

/-- Where the parts of a value stand. -/
theorem encode_parts (m : PendingTimelineMutation) :
    let value := encodePendingTimelineMutation m
    value.length = 17 + m.canonicalEvent.length ∧ value.head? = some 1 ∧
      (value.drop 1).take 8 = BigEndian.toBytes 8 m.eventId.toNat ∧
      (value.drop 9).take 8 = BigEndian.toBytes 8 m.pts.toNat ∧
      value.drop 17 = m.canonicalEvent := by
  have hevent := BigEndian.length_toBytes 8 m.eventId.toNat
  have hpts := BigEndian.length_toBytes 8 m.pts.toNat
  have hbehind : (encodePendingTimelineMutation m).drop 9 =
      BigEndian.toBytes 8 m.pts.toNat ++ m.canonicalEvent := by
    rw [encodePendingTimelineMutation, List.drop_succ_cons, List.drop_left' hevent]
  refine ⟨?_, rfl, ?_, ?_, ?_⟩
  · simp only [encodePendingTimelineMutation, List.length_cons, List.length_append, hevent,
      hpts]
    omega
  · exact List.take_left' hevent
  · rw [hbehind, List.take_left' hpts]
  · rw [show (17 : Nat) = 9 + 8 from rfl, ← List.drop_drop, hbehind, List.drop_left' hpts]

/-- A mutation with event bytes is read as it was written. -/
theorem decode_encode {m : PendingTimelineMutation} (h : m.canonicalEvent ≠ []) :
    decodePendingTimelineMutation m.target (encodePendingTimelineMutation m) = .ok m := by
  obtain ⟨hlength, hhead, hevent, hpts, hrest⟩ := encode_parts m
  have hpos := List.length_pos_of_ne_nil h
  unfold decodePendingTimelineMutation
  rw [if_neg (by rw [hlength, hhead]; simp; omega), hevent, hpts, hrest,
    ofBytes_toBytes_u64, ofBytes_toBytes_u64]
  rfl

/-- Without event bytes the value is one byte too short. -/
theorem decode_encode_nil {m : PendingTimelineMutation} (h : m.canonicalEvent = []) :
    decodePendingTimelineMutation m.target (encodePendingTimelineMutation m) =
      .error "invalid pending timeline mutation record" := by
  obtain ⟨hlength, -⟩ := encode_parts m
  unfold decodePendingTimelineMutation
  rw [if_pos (Or.inl (by rw [hlength, h]; decide))]

end Codec

section Keys

/-- `{:020}`. -/
def padded (n : Nat) : String :=
  String.ofList (List.replicate (20 - (toString n).toList.length) '0') ++ toString n

/-- `PENDING_TIMELINE_MUTATION_PREFIX`. -/
def pendingTimelineMutationMark : String :=
  "__pending_timeline_mutation__:v1"

/-- `pending_timeline_mutation_prefix`. -/
def pendingTimelineMutationPrefix (t : Target) : String :=
  pendingTimelineMutationMark ++ ":" ++ (toString t.channelType.toInt ++ ":" ++
    (padded t.channelId.toNat ++ ":" ++ (padded t.targetServerMessageId.toNat ++ ":")))

/-- An event that is waited for: a message and the id of the event. -/
abbrev EventKey : Type :=
  Target × UInt64

def PendingTimelineMutation.key (m : PendingTimelineMutation) : EventKey :=
  (m.target, m.eventId)

/-- `pending_timeline_mutation_key`. -/
def pendingTimelineMutationKey (k : EventKey) : String :=
  pendingTimelineMutationPrefix k.1 ++ padded k.2.toNat

theorem toList_padded (n : Nat) :
    (padded n).toList =
      List.replicate (20 - (toString n).toList.length) '0' ++ Nat.toDigits 10 n := by
  rw [padded, String.toList_append, String.toList_ofList]
  congr 1
  rw [Nat.toString_eq_ofList_toDigits, String.toList_ofList]

theorem padded_inj {n m : Nat} (h : (padded n).toList = (padded m).toList) : n = m := by
  have hvalue : ∀ k : Nat, Nat.ofDigitChars 10 (padded k).toList 0 = k := by
    intro k
    rw [toList_padded, Nat.ofDigitChars_append, Nat.ofDigitChars_replicate_zero,
      Nat.mul_zero, Nat.ofDigitChars_ten_toDigits]
  rw [← hvalue n, h, hvalue]

theorem colon_not_mem_padded (n : Nat) : ':' ∉ (padded n).toList := by
  rw [toList_padded, List.mem_append]
  rintro (hzero | hdigit)
  · exact absurd (List.eq_of_mem_replicate hzero) (by decide)
  · exact absurd (Nat.isDigit_of_mem_toDigits (by decide) (by decide) hdigit) (by decide)

/-- A channel type is printed as its digits, with a sign in front of a negative one. -/
theorem toList_int (n : Int) :
    (toString n).toList =
      if 0 ≤ n then Nat.toDigits 10 n.natAbs else '-' :: Nat.toDigits 10 n.natAbs := by
  cases n with
  | ofNat m =>
      refine Eq.trans ?_ (if_pos (Int.natCast_nonneg m)).symm
      change (toString m).toList = Nat.toDigits 10 m
      rw [Nat.toString_eq_ofList_toDigits, String.toList_ofList]
  | negSucc m =>
      rw [if_neg (Int.not_le.mpr (Int.negSucc_lt_zero m))]
      change ("-" ++ toString (m + 1)).toList = _
      rw [String.toList_append, Nat.toString_eq_ofList_toDigits]
      simp

theorem colon_not_mem_int (n : Int) : ':' ∉ (toString n).toList := by
  have hdigits : ':' ∉ Nat.toDigits 10 n.natAbs := fun h =>
    absurd (Nat.isDigit_of_mem_toDigits (by decide) (by decide) h) (by decide)
  rw [toList_int]
  split
  · exact hdigits
  · rw [List.mem_cons]
    rintro (hminus | h)
    · exact absurd hminus (by decide)
    · exact hdigits h

theorem toString_int_inj {n m : Int} (h : (toString n).toList = (toString m).toList) :
    n = m := by
  have hvalue : ∀ {a b : Nat}, Nat.toDigits 10 a = Nat.toDigits 10 b → a = b := by
    intro a b hab
    rw [← Nat.ofDigitChars_ten_toDigits (n := a), hab, Nat.ofDigitChars_ten_toDigits]
  have hminus : ∀ a : Nat, '-' ∉ Nat.toDigits 10 a := fun a h =>
    absurd (Nat.isDigit_of_mem_toDigits (by decide) (by decide) h) (by decide)
  rw [toList_int, toList_int] at h
  split at h
  · split at h
    · have := hvalue h
      omega
    · exact absurd (h ▸ List.mem_cons_self) (hminus n.natAbs)
  · split at h
    · exact absurd (h.symm ▸ List.mem_cons_self) (hminus m.natAbs)
    · have := hvalue (List.cons.inj h).2
      omega

theorem toList_targetPart (t : Target) :
    (pendingTimelineMutationPrefix t).toList = pendingTimelineMutationMark.toList ++
      ':' :: ((toString t.channelType.toInt).toList ++ ':' ::
        ((padded t.channelId.toNat).toList ++ ':' ::
          ((padded t.targetServerMessageId.toNat).toList ++ ':' :: []))) := by
  simp [pendingTimelineMutationPrefix]

/-- What follows the prefixes of two messages is a text only if they are one message. -/
theorem targetPart_append_inj {t t' : Target} {rest rest' : List Char}
    (h : (pendingTimelineMutationPrefix t).toList ++ rest =
      (pendingTimelineMutationPrefix t').toList ++ rest') : t = t' ∧ rest = rest' := by
  rw [toList_targetPart, toList_targetPart] at h
  simp only [List.append_assoc, List.cons_append, List.nil_append] at h
  have hmark := List.append_cancel_left h
  obtain ⟨htype, h⟩ := separator_append_inj (colon_not_mem_int _) (colon_not_mem_int _)
    (List.cons.inj hmark).2
  obtain ⟨hid, h⟩ := separator_append_inj (colon_not_mem_padded _) (colon_not_mem_padded _) h
  obtain ⟨htarget, h⟩ := separator_append_inj (colon_not_mem_padded _)
    (colon_not_mem_padded _) h
  refine ⟨?_, h⟩
  cases t
  cases t'
  simp only [Target.mk.injEq]
  exact ⟨UInt64.toNat_inj.mp (padded_inj hid), Int32.toInt_inj.mp (toString_int_inj htype),
    UInt64.toNat_inj.mp (padded_inj htarget)⟩

theorem pendingTimelineMutationKey_inj {k k' : EventKey}
    (h : pendingTimelineMutationKey k = pendingTimelineMutationKey k') : k = k' := by
  have hlist := congrArg String.toList h
  rw [pendingTimelineMutationKey, pendingTimelineMutationKey, String.toList_append,
    String.toList_append] at hlist
  obtain ⟨htarget, hevent⟩ := targetPart_append_inj hlist
  exact Prod.ext htarget (UInt64.toNat_inj.mp (padded_inj hevent))

/-- A key has the prefix of its own message only. -/
theorem isPrefixOf_key_iff (t : Target) (k : EventKey) :
    (pendingTimelineMutationPrefix t).toList.isPrefixOf
      (pendingTimelineMutationKey k).toList = true ↔ k.1 = t := by
  rw [List.isPrefixOf_iff_prefix, pendingTimelineMutationKey, String.toList_append]
  constructor
  · rintro ⟨rest, hrest⟩
    exact (targetPart_append_inj hrest).1.symm
  · rintro rfl
    exact List.prefix_append _ _

end Keys

section Tree

/-- The key value tree of an account. -/
abbrev KvTree : Type :=
  AList (fun _ : String => List UInt8)

/-- `scan_prefix`: in the order of the keys. -/
def KvTree.scanPrefix (tree : KvTree) (front : String) : List (String × List UInt8) :=
  ((tree.entries.filter (fun e => front.toList.isPrefixOf e.1.toList)).map
    (fun e => (e.1, e.2))).insertionSort (fun e e' => e.1 ≤ e'.1)

/-- `put_pending_timeline_mutation`. -/
def KvTree.putPendingTimelineMutation (tree : KvTree) (m : PendingTimelineMutation) :
    KvTree :=
  tree.insert (pendingTimelineMutationKey m.key) (encodePendingTimelineMutation m)

/-- `delete_pending_timeline_mutation`. -/
def KvTree.deletePendingTimelineMutation (tree : KvTree) (m : PendingTimelineMutation) :
    KvTree :=
  tree.erase (pendingTimelineMutationKey m.key)

/-- The order of the list: by `pts`, then by event id. -/
def replayedBefore (m m' : PendingTimelineMutation) : Prop :=
  m.pts < m'.pts ∨ m.pts = m'.pts ∧ m.eventId ≤ m'.eventId

instance : DecidableRel replayedBefore := fun m m' =>
  inferInstanceAs (Decidable (m.pts < m'.pts ∨ m.pts = m'.pts ∧ m.eventId ≤ m'.eventId))

/-- The rows that a scan decodes to. -/
def decodedRows (t : Target) (scan : List (String × List UInt8)) :
    List PendingTimelineMutation :=
  scan.filterMap (fun e => (decodePendingTimelineMutation t e.2).toOption)

/-- The keys of what a scan cannot decode. -/
def corruptKeys (t : Target) (scan : List (String × List UInt8)) : List String :=
  (scan.filter (fun e => (decodePendingTimelineMutation t e.2).toOption.isNone)).map
    Prod.fst

/-- `list_pending_timeline_mutations`: the rows, and the tree without the corrupt ones. -/
def KvTree.listPendingTimelineMutations (tree : KvTree) (t : Target) :
    List PendingTimelineMutation × KvTree :=
  let scan := tree.scanPrefix (pendingTimelineMutationPrefix t)
  ((decodedRows t scan).insertionSort replayedBefore,
    (corruptKeys t scan).foldl (fun tree key => tree.erase key) tree)

inductive MutationOp where
  | put (m : PendingTimelineMutation)
  | list (t : Target)
  | delete (m : PendingTimelineMutation)

/-- The tree after an operation. -/
def KvTree.step (tree : KvTree) : MutationOp → KvTree
  | .put m => tree.putPendingTimelineMutation m
  | .list t => (tree.listPendingTimelineMutations t).2
  | .delete m => tree.deletePendingTimelineMutation m

/-- The mutations that were put and not deleted, each under its event. -/
abbrev Table : Type :=
  EventKey → Option PendingTimelineMutation

def Table.step (table : Table) : MutationOp → Table
  | .put m => KeyedStore.step table (.put m.key m)
  | .list _ => table
  | .delete m => KeyedStore.step table (.delete m.key)

/-- Tree and table side by side. -/
def pairStep (s : KvTree × Table) (op : MutationOp) : KvTree × Table :=
  (s.1.step op, s.2.step op)

/-- The rows are the mutations of the table for the message, each once and in order. -/
structure ListsTable (table : Table) (t : Target) (rows : List PendingTimelineMutation) :
    Prop where
  mem : ∀ m, m ∈ rows ↔ m.target = t ∧ table m.key = some m
  nodup : rows.Nodup
  sorted : rows.Pairwise replayedBefore

/-- A list answers what the table has. -/
def AnswersTable (s : KvTree × Table) : MutationOp → Prop
  | .put _ => True
  | .list t => ListsTable s.2 t (s.1.listPendingTimelineMutations t).1
  | .delete _ => True

/-- A message is listed only if all that waits for it has event bytes. -/
def ListsBytes (s : KvTree × Table) : MutationOp → Prop
  | .put _ => True
  | .list t => ∀ m, m.target = t → s.2 m.key = some m → m.canonicalEvent ≠ []
  | .delete _ => True

/-- The tree has the mutations of the table under their keys, and no others. -/
structure Holds (tree : KvTree) (table : Table) : Prop where
  own : ∀ k m, table k = some m → m.key = k
  found : ∀ k m, table k = some m →
    tree.lookup (pendingTimelineMutationKey k) = some (encodePendingTimelineMutation m)
  only : ∀ key value, tree.lookup key = some value →
    (∃ t, (pendingTimelineMutationPrefix t).toList.isPrefixOf key.toList = true) →
      ∃ k m, table k = some m ∧ key = pendingTimelineMutationKey k ∧
        value = encodePendingTimelineMutation m

end Tree

section Steps

variable {tree : KvTree} {table : Table}

theorem Holds.put (h : Holds tree table) (m : PendingTimelineMutation) :
    Holds (tree.putPendingTimelineMutation m) (table.step (.put m)) where
  own k m' hfound := by
    rw [Table.step, KeyedStore.step, Function.update_apply] at hfound
    split at hfound
    · rename_i hk
      cases hfound
      exact hk.symm
    · exact h.own k m' hfound
  found k m' hfound := by
    rw [Table.step, KeyedStore.step, Function.update_apply] at hfound
    unfold KvTree.putPendingTimelineMutation
    split at hfound
    · rename_i hk
      cases hfound
      rw [hk, AList.lookup_insert]
    · rename_i hk
      rw [AList.lookup_insert_ne (fun heq => hk (pendingTimelineMutationKey_inj heq))]
      exact h.found k m' hfound
  only key value hvalue hprefix := by
    unfold KvTree.putPendingTimelineMutation at hvalue
    by_cases hkey : key = pendingTimelineMutationKey m.key
    · subst hkey
      rw [AList.lookup_insert] at hvalue
      cases hvalue
      refine ⟨m.key, m, ?_, rfl, rfl⟩
      rw [Table.step, KeyedStore.step, Function.update_self]
    · rw [AList.lookup_insert_ne hkey] at hvalue
      obtain ⟨k, m', hfound, rfl, rfl⟩ := h.only key value hvalue hprefix
      refine ⟨k, m', ?_, rfl, rfl⟩
      have hne : k ≠ m.key := fun heq => hkey (congrArg _ heq)
      rwa [Table.step, KeyedStore.step, Function.update_of_ne hne]

theorem Holds.delete (h : Holds tree table) (m : PendingTimelineMutation) :
    Holds (tree.deletePendingTimelineMutation m) (table.step (.delete m)) where
  own k m' hfound := by
    rw [Table.step, KeyedStore.step, Function.update_apply] at hfound
    split at hfound
    · cases hfound
    · exact h.own k m' hfound
  found k m' hfound := by
    rw [Table.step, KeyedStore.step, Function.update_apply] at hfound
    unfold KvTree.deletePendingTimelineMutation
    split at hfound
    · cases hfound
    · rename_i hk
      rw [AList.lookup_erase_ne (fun heq => hk (pendingTimelineMutationKey_inj heq))]
      exact h.found k m' hfound
  only key value hvalue hprefix := by
    unfold KvTree.deletePendingTimelineMutation at hvalue
    by_cases hkey : key = pendingTimelineMutationKey m.key
    · subst hkey
      rw [AList.lookup_erase] at hvalue
      cases hvalue
    · rw [AList.lookup_erase_ne hkey] at hvalue
      obtain ⟨k, m', hfound, rfl, rfl⟩ := h.only key value hvalue hprefix
      refine ⟨k, m', ?_, rfl, rfl⟩
      have hne : k ≠ m.key := fun heq => hkey (congrArg _ heq)
      rwa [Table.step, KeyedStore.step, Function.update_of_ne hne]

end Steps

section Lists

variable {tree : KvTree} {table : Table}

theorem mem_scanPrefix {front : String} {e : String × List UInt8} :
    e ∈ tree.scanPrefix front ↔
      tree.lookup e.1 = some e.2 ∧ front.toList.isPrefixOf e.1.toList = true := by
  unfold KvTree.scanPrefix
  rw [List.mem_insertionSort, List.mem_map]
  constructor
  · rintro ⟨x, hx, rfl⟩
    obtain ⟨hmem, hfront⟩ := List.mem_filter.mp hx
    exact ⟨AList.mem_lookup_iff.mpr hmem, hfront⟩
  · rintro ⟨hlookup, hfront⟩
    exact ⟨⟨e.1, e.2⟩, List.mem_filter.mpr ⟨AList.mem_lookup_iff.mp hlookup, hfront⟩, rfl⟩

theorem nodup_scanPrefix (front : String) : (tree.scanPrefix front).Nodup := by
  unfold KvTree.scanPrefix
  rw [(List.perm_insertionSort _ _).nodup_iff]
  refine List.Nodup.map ?_ (tree.nodupKeys.nodup.filter _)
  rintro ⟨key, value⟩ ⟨key', value'⟩ h
  cases h
  rfl

/-- A scan finds the mutations of the table for the message. -/
theorem Holds.mem_scan (h : Holds tree table) {t : Target} {e : String × List UInt8} :
    e ∈ tree.scanPrefix (pendingTimelineMutationPrefix t) ↔
      ∃ m : PendingTimelineMutation, m.target = t ∧ table m.key = some m ∧
        e = (pendingTimelineMutationKey m.key, encodePendingTimelineMutation m) := by
  rw [mem_scanPrefix]
  constructor
  · rintro ⟨hlookup, hfront⟩
    obtain ⟨k, m, hfound, hkey, hvalue⟩ := h.only e.1 e.2 hlookup ⟨t, hfront⟩
    obtain rfl := h.own k m hfound
    rw [hkey, isPrefixOf_key_iff] at hfront
    exact ⟨m, hfront, hfound, Prod.ext hkey hvalue⟩
  · rintro ⟨m, ht, hfound, rfl⟩
    exact ⟨h.found m.key m hfound, (isPrefixOf_key_iff t m.key).mpr ht⟩

/-- The decoded rows are the mutations of the message that have event bytes. -/
theorem Holds.mem_decodedRows (h : Holds tree table) {t : Target}
    {m : PendingTimelineMutation} :
    m ∈ decodedRows t (tree.scanPrefix (pendingTimelineMutationPrefix t)) ↔
      m.target = t ∧ table m.key = some m ∧ m.canonicalEvent ≠ [] := by
  unfold decodedRows
  rw [List.mem_filterMap]
  constructor
  · rintro ⟨e, he, hdecode⟩
    obtain ⟨m', rfl, hfound, rfl⟩ := h.mem_scan.mp he
    by_cases hempty : m'.canonicalEvent = []
    · rw [decode_encode_nil hempty] at hdecode
      cases hdecode
    · rw [decode_encode hempty] at hdecode
      cases hdecode
      exact ⟨rfl, hfound, hempty⟩
  · rintro ⟨rfl, hfound, hbytes⟩
    refine ⟨_, h.mem_scan.mpr ⟨m, rfl, hfound, rfl⟩, ?_⟩
    rw [decode_encode hbytes]
    rfl

theorem Holds.nodup_decodedRows (h : Holds tree table) (t : Target) :
    (decodedRows t (tree.scanPrefix (pendingTimelineMutationPrefix t))).Nodup := by
  unfold decodedRows List.Nodup
  rw [List.pairwise_filterMap]
  refine (nodup_scanPrefix (pendingTimelineMutationPrefix t)).imp_of_mem ?_
  intro e e' he he' hne m hm m' hm' heq
  subst heq
  have hentry : ∀ {x : String × List UInt8},
      x ∈ tree.scanPrefix (pendingTimelineMutationPrefix t) →
      (decodePendingTimelineMutation t x.2).toOption = some m →
      x = (pendingTimelineMutationKey m.key, encodePendingTimelineMutation m) := by
    intro x hx hdecode
    obtain ⟨m', rfl, -, rfl⟩ := h.mem_scan.mp hx
    by_cases hempty : m'.canonicalEvent = []
    · rw [decode_encode_nil hempty] at hdecode
      cases hdecode
    · rw [decode_encode hempty] at hdecode
      cases hdecode
      rfl
  exact hne ((hentry he hm).trans (hentry he' hm').symm)

theorem replayedBefore_iff (m m' : PendingTimelineMutation) :
    replayedBefore m m' ↔ m.pts.toNat < m'.pts.toNat ∨
      m.pts.toNat = m'.pts.toNat ∧ m.eventId.toNat ≤ m'.eventId.toNat := by
  rw [replayedBefore, UInt64.lt_iff_toNat_lt, UInt64.le_iff_toNat_le, UInt64.toNat_inj]

theorem replayedBefore_total (m m' : PendingTimelineMutation) :
    replayedBefore m m' ∨ replayedBefore m' m := by
  rw [replayedBefore_iff, replayedBefore_iff]
  omega

theorem replayedBefore_trans (m m' m'' : PendingTimelineMutation)
    (h : replayedBefore m m') (h' : replayedBefore m' m'') : replayedBefore m m'' := by
  rw [replayedBefore_iff] at h h' ⊢
  omega

instance : Std.Total replayedBefore :=
  ⟨replayedBefore_total⟩

instance : IsTrans PendingTimelineMutation replayedBefore :=
  ⟨replayedBefore_trans⟩

/-- A list answers what the table has exactly if all of that has event bytes. -/
theorem Holds.answers_iff (h : Holds tree table) (op : MutationOp) :
    AnswersTable (tree, table) op ↔ ListsBytes (tree, table) op := by
  cases op with
  | put m => exact Iff.rfl
  | delete m => exact Iff.rfl
  | list t =>
      have hmem : ∀ m, m ∈ (tree.listPendingTimelineMutations t).1 ↔
          m.target = t ∧ table m.key = some m ∧ m.canonicalEvent ≠ [] := by
        intro m
        rw [KvTree.listPendingTimelineMutations, List.mem_insertionSort, h.mem_decodedRows]
      constructor
      · intro hlists m ht hfound
        exact ((hmem m).mp ((hlists.mem m).mpr ⟨ht, hfound⟩)).2.2
      · intro hbytes
        refine { mem := fun m => ?_, nodup := ?_, sorted := ?_ }
        · rw [hmem]
          constructor
          · rintro ⟨ht, hfound, -⟩
            exact ⟨ht, hfound⟩
          · rintro ⟨ht, hfound⟩
            exact ⟨ht, hfound, hbytes m ht hfound⟩
        · rw [KvTree.listPendingTimelineMutations,
            (List.perm_insertionSort _ _).nodup_iff]
          exact h.nodup_decodedRows t
        · exact List.pairwise_insertionSort replayedBefore _

/-- A list of readable mutations takes nothing out of the tree. -/
theorem Holds.list (h : Holds tree table) {t : Target}
    (hbytes : ∀ m, m.target = t → table m.key = some m → m.canonicalEvent ≠ []) :
    (tree.listPendingTimelineMutations t).2 = tree := by
  have hnone : corruptKeys t (tree.scanPrefix (pendingTimelineMutationPrefix t)) = [] := by
    unfold corruptKeys
    rw [List.map_eq_nil_iff, List.filter_eq_nil_iff]
    intro e he
    obtain ⟨m, rfl, hfound, rfl⟩ := h.mem_scan.mp he
    rw [decode_encode (hbytes m rfl hfound)]
    exact Bool.false_ne_true
  rw [KvTree.listPendingTimelineMutations, hnone]
  rfl

/-- Operations that meet the condition keep the tree holding the table. -/
theorem Holds.step (h : Holds tree table) {op : MutationOp}
    (hbytes : ListsBytes (tree, table) op) : Holds (tree.step op) (table.step op) := by
  cases op with
  | put m => exact h.put m
  | delete m => exact h.delete m
  | list t =>
      rw [KvTree.step, h.list hbytes]
      exact h

/--
In every run each list answers the mutations that were put for its message and not
deleted, in order, exactly if no message is listed that waits for a mutation without
event bytes; and a mutation is read as it was written exactly if it has such bytes.
-/
theorem pendingMutations_listed_iff (h : Holds tree table) (ops : List MutationOp) :
    (Guarded pairStep AnswersTable (tree, table) ops ↔
      Guarded pairStep ListsBytes (tree, table) ops) ∧
    ∀ m : PendingTimelineMutation,
      decodePendingTimelineMutation m.target (encodePendingTimelineMutation m) = .ok m ↔
        m.canonicalEvent ≠ [] := by
  constructor
  · exact guarded_congr (fun s : KvTree × Table => Holds s.1 s.2)
      (fun s op hs hok => hs.step hok)
      (fun s op hs => hs.answers_iff op) h ops
  · intro m
    constructor
    · intro hdecode hempty
      rw [decode_encode_nil hempty] at hdecode
      cases hdecode
    · exact decode_encode

theorem holds_empty : Holds ∅ (fun _ => none) where
  own k m hfound := by cases hfound
  found k m hfound := by cases hfound
  only key value hvalue := by
    rw [AList.lookup_empty] at hvalue
    cases hvalue

/-- A revoke of the message 902 in the group 901. -/
def revokeAt (eventId pts : UInt64) (canonicalEvent : List UInt8) :
    PendingTimelineMutation where
  channelId := 901
  channelType := 2
  targetServerMessageId := 902
  eventId := eventId
  pts := pts
  canonicalEvent := canonicalEvent

theorem pendingMutations_listed_two :
    Guarded pairStep AnswersTable (∅, fun _ => none)
      [.put (revokeAt 904 12 [1]), .put (revokeAt 903 11 [2]),
        .list (revokeAt 904 12 [1]).target] := by
  refine (pendingMutations_listed_iff holds_empty _).1.mpr ⟨trivial, trivial, ?_, trivial⟩
  intro m _ hfound
  have hput := @KeyedStore.run_forall _ _ _
    (fun _ m => m.canonicalEvent ≠ []) (fun _ => none)
    (fun _ _ hnone => by cases hnone)
    [.put (revokeAt 904 12 [1]).key (revokeAt 904 12 [1]),
      .put (revokeAt 903 11 [2]).key (revokeAt 903 11 [2])]
  refine hput ?_ m.key m hfound
  intro key m' hm'
  simp only [List.mem_cons, List.not_mem_nil, or_false, KeyedStore.Op.put.injEq] at hm'
  rcases hm' with ⟨-, rfl⟩ | ⟨-, rfl⟩
  · exact List.cons_ne_nil 1 []
  · exact List.cons_ne_nil 2 []

/-- A mutation without event bytes is put and not listed. -/
theorem pendingMutation_not_listed :
    ¬ Guarded pairStep AnswersTable (∅, fun _ => none)
      [.put (revokeAt 904 12 []), .list (revokeAt 904 12 []).target] := by
  rintro ⟨-, hlists, -⟩
  have hholds := holds_empty.put (revokeAt 904 12 [])
  refine (hholds.answers_iff (.list (revokeAt 904 12 []).target)).mp hlists
    (revokeAt 904 12 []) rfl ?_ rfl
  exact @KeyedStore.step_self EventKey _ _ (fun _ => none)
    (.put (revokeAt 904 12 []).key (revokeAt 904 12 []))

end Lists

end PendingStore
end PrivchatSdk
