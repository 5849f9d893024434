import Mathlib.Algebra.GroupWithZero.Nat
import Mathlib.Data.List.Basic
import Mathlib.Data.List.Nodup
import Mathlib.Data.List.Perm.Subperm
import Mathlib.Data.List.Sort
import PrivchatSdk.Lib.Run

/-!
# The upload in chunks

The server fixes the grid, and says which ranges it misses; the client decides
the size of each request.  A chunk is the beginning of the first gap; a success
takes it off, a failure halves the next size, and the server's answer replaces
the gaps.

The gaps and the confirmed bytes together are the whole, and between two answers
of the server every missing byte is sent once.  The loop ends, and asks for
completion only when the server has all bytes (`resumable_upload_sound`).
-/

namespace PrivchatSdk

open EventRun

section Model

structure UploadPlan where
  baseUnit : Nat
  initialRequestSize : Nat
  maxRequestSize : Nat
  deriving DecidableEq, Repr

/-- `UploadPlan::for_base_unit`. -/
def UploadPlan.forBaseUnit (baseUnit : Nat) : UploadPlan where
  baseUnit := max baseUnit 1
  initialRequestSize := max baseUnit 1
  maxRequestSize := max (2 * 1024 * 1024) (max baseUnit 1)

structure ChunkSizer where
  plan : UploadPlan
  next : Nat
  deriving DecidableEq, Repr

def ChunkSizer.new (plan : UploadPlan) : ChunkSizer where
  plan := plan
  next := max plan.initialRequestSize plan.baseUnit

/-- Into the bounds, and down to the grid. -/
def ChunkSizer.clamp (sizer : ChunkSizer) (want : Nat) : Nat :=
  let base := max sizer.plan.baseUnit 1
  let limit := max sizer.plan.maxRequestSize sizer.plan.baseUnit
  let want := max base (min want limit)
  max (want / base * base) base

/-- `on_success`; the target is the smoothed throughput of the moment. -/
def ChunkSizer.onSuccess (sizer : ChunkSizer) (bytes target : Nat) : ChunkSizer :=
  { sizer with next := sizer.clamp (min target (bytes * 4)) }

def ChunkSizer.onFailure (sizer : ChunkSizer) : ChunkSizer :=
  { sizer with next := sizer.clamp (max (sizer.next / 2) sizer.plan.baseUnit) }

/-- A range that is not confirmed. -/
structure Gap where
  offset : Nat
  len : Nat
  deriving DecidableEq, Repr

/-- The loop of `split_gap`; every piece of a positive size takes one round. -/
def splitGapFrom (size total stop : Nat) : Nat → Nat → List Gap
  | 0, _ => []
  | rounds + 1, offset =>
      if offset < stop then
        let len := min size (stop - offset)
        let aligned := len / max size 1 * max size 1
        let len := if offset + len < total ∧ 0 < aligned then aligned else len
        ⟨offset, len⟩ :: splitGapFrom size total stop rounds (offset + len)
      else
        []

def splitGap (gap : Gap) (size total : Nat) : List Gap :=
  splitGapFrom size total (gap.offset + gap.len) gap.len gap.offset

structure UploadProgress where
  uploaded : Nat
  total : Nat
  deriving DecidableEq, Repr

structure ResumableUpload where
  total : Nat
  sizer : ChunkSizer
  gaps : List Gap
  confirmed : Nat
  deriving DecidableEq, Repr

/-- The lengths of the gaps together. -/
def missingBytes (gaps : List Gap) : Nat :=
  (gaps.map Gap.len).sum

/-- The gaps in the order of their offsets. -/
def gapsFromMissing (missing : List (Nat × Nat)) : List Gap :=
  (missing.map (fun r => Gap.mk r.1 r.2)).insertionSort (fun g g' => g.offset ≤ g'.offset)

namespace ResumableUpload

def fromMissing (total : Nat) (plan : UploadPlan) (missing : List (Nat × Nat)) :
    ResumableUpload where
  total := total
  sizer := .new plan
  gaps := gapsFromMissing missing
  confirmed := total - missingBytes (gapsFromMissing missing)

variable (up : ResumableUpload)

def resyncMissing (missing : List (Nat × Nat)) : ResumableUpload :=
  let fresh := fromMissing up.total up.sizer.plan missing
  { up with gaps := fresh.gaps, confirmed := fresh.confirmed }

def progress : UploadProgress where
  uploaded := up.confirmed
  total := up.total

def isDone : Bool :=
  up.gaps.isEmpty

def nextChunk : Option Gap :=
  up.gaps.head?.bind (fun gap => (splitGap gap up.sizer.next up.total).head?)

def consume (chunk : Gap) : ResumableUpload :=
  match up.gaps with
  | [] => up
  | first :: rest =>
      if chunk.offset ≠ first.offset then
        up
      else if first.len ≤ chunk.len then
        { up with gaps := rest }
      else
        { up with gaps := ⟨first.offset + chunk.len, first.len - chunk.len⟩ :: rest }

def onChunkOk (chunk : Gap) (target : Nat) : ResumableUpload :=
  let sized := { up with sizer := up.sizer.onSuccess chunk.len target }
  let consumed := sized.consume chunk
  { consumed with confirmed := min (consumed.confirmed + chunk.len) consumed.total }

def onChunkFailed : ResumableUpload :=
  { up with sizer := up.sizer.onFailure }

end ResumableUpload

end Model

section Bytes

/-- The offsets of the bytes in the gaps, gap by gap. -/
def gapBytes (gaps : List Gap) : List Nat :=
  gaps.flatMap (fun g => List.range' g.offset g.len)

/-- Disjoint ranges that are not empty, in a file of this length. -/
structure MissingRanges (total : Nat) (missing : List (Nat × Nat)) : Prop where
  inside : ∀ r ∈ missing, 0 < r.2 ∧ r.1 + r.2 ≤ total
  disjoint : missing.Pairwise (fun r r' => r.1 + r.2 ≤ r'.1 ∨ r'.1 + r'.2 ≤ r.1)

/-- Gaps that are not empty, apart from each other, in a file of this length. -/
structure SoundGaps (total : Nat) (gaps : List Gap) : Prop where
  inside : ∀ g ∈ gaps, 0 < g.len ∧ g.offset + g.len ≤ total
  disjoint : gaps.Pairwise
    (fun g g' => g.offset + g.len ≤ g'.offset ∨ g'.offset + g'.len ≤ g.offset)

variable {total : Nat} {gaps : List Gap}

theorem mem_gapBytes {b : Nat} :
    b ∈ gapBytes gaps ↔ ∃ g ∈ gaps, g.offset ≤ b ∧ b < g.offset + g.len := by
  simp [gapBytes, List.mem_flatMap, List.mem_range'_1]

theorem length_gapBytes (gaps : List Gap) :
    (gapBytes gaps).length = missingBytes gaps := by
  induction gaps with
  | nil => rfl
  | cons g gaps ih =>
      simp only [gapBytes, missingBytes, List.flatMap_cons, List.length_append,
        List.length_range', List.map_cons, List.sum_cons]
      simp only [gapBytes, missingBytes] at ih
      rw [ih]

theorem SoundGaps.nodup (hgaps : SoundGaps total gaps) : (gapBytes gaps).Nodup := by
  unfold gapBytes
  rw [List.nodup_flatMap]
  refine ⟨fun g _ => List.nodup_range', hgaps.disjoint.imp ?_⟩
  intro g g' hapart b hb hb'
  rw [List.mem_range'_1] at hb hb'
  omega

/-- The gaps are no longer than the file. -/
theorem SoundGaps.missingBytes_le (hgaps : SoundGaps total gaps) :
    missingBytes gaps ≤ total := by
  have hsubset : gapBytes gaps ⊆ List.range total := by
    intro b hb
    obtain ⟨g, hg, hlow, hhigh⟩ := mem_gapBytes.mp hb
    have hin := (hgaps.inside g hg).2
    rw [List.mem_range]
    omega
  have hle := (List.subperm_of_subset hgaps.nodup hsubset).length_le
  rwa [length_gapBytes, List.length_range] at hle

theorem gapsFromMissing_perm (missing : List (Nat × Nat)) :
    (gapsFromMissing missing).Perm (missing.map (fun r => Gap.mk r.1 r.2)) :=
  List.perm_insertionSort _ _

theorem MissingRanges.soundGaps {missing : List (Nat × Nat)}
    (hmissing : MissingRanges total missing) :
    SoundGaps total (gapsFromMissing missing) := by
  have hperm := gapsFromMissing_perm missing
  refine ⟨fun g hg => ?_, ?_⟩
  · obtain ⟨r, hr, rfl⟩ := List.mem_map.mp (hperm.mem_iff.mp hg)
    exact hmissing.inside r hr
  · refine (hperm.pairwise_iff (fun h => h.symm)).mpr ?_
    rw [List.pairwise_map]
    exact hmissing.disjoint

theorem SoundGaps.tail {g : Gap} (hgaps : SoundGaps total (g :: gaps)) :
    SoundGaps total gaps where
  inside g' hg' := hgaps.inside g' (List.mem_cons_of_mem _ hg')
  disjoint := (List.pairwise_cons.mp hgaps.disjoint).2

/-- The beginning of the first gap is taken off. -/
theorem SoundGaps.shrink {offset len taken : Nat}
    (hgaps : SoundGaps total (⟨offset, len⟩ :: gaps)) (htaken : taken < len) :
    SoundGaps total (⟨offset + taken, len - taken⟩ :: gaps) := by
  have hfirst := hgaps.inside ⟨offset, len⟩ List.mem_cons_self
  obtain ⟨hapart, hrest⟩ := List.pairwise_cons.mp hgaps.disjoint
  dsimp only at hfirst
  refine ⟨fun g hg => ?_, List.pairwise_cons.mpr ⟨fun g hg => ?_, hrest⟩⟩
  · rcases List.mem_cons.mp hg with rfl | hg
    · dsimp only
      omega
    · exact hgaps.tail.inside g hg
  · have hg' := hapart g hg
    dsimp only at hg' ⊢
    omega

end Bytes

section Chunks

variable {base total : Nat}

/-- The sizer of a plan of this unit, and the next size on its grid. -/
structure SoundSizer (base : Nat) (sizer : ChunkSizer) : Prop where
  plan : sizer.plan = .forBaseUnit base
  grid : max base 1 ∣ sizer.next
  pos : 0 < sizer.next

theorem soundSizer_new (base : Nat) : SoundSizer base (.new (.forBaseUnit base)) where
  plan := rfl
  grid := by simp [ChunkSizer.new, UploadPlan.forBaseUnit]
  pos := by
    show 0 < max (max base 1) (max base 1)
    omega

theorem SoundSizer.clamp {sizer : ChunkSizer} (hsizer : SoundSizer base sizer)
    (want : Nat) :
    max base 1 ∣ sizer.clamp want ∧ 0 < sizer.clamp want := by
  have hunit : max sizer.plan.baseUnit 1 = max base 1 := by
    rw [hsizer.plan]
    simp [UploadPlan.forBaseUnit]
  have hpos : 0 < max base 1 := by omega
  unfold ChunkSizer.clamp
  dsimp only
  rw [hunit]
  constructor
  · rcases Nat.le_total
      (max (max base 1) (min want (max sizer.plan.maxRequestSize sizer.plan.baseUnit))
        / max base 1 * max base 1) (max base 1) with h | h
    · exact ⟨1, (Nat.max_eq_right h).trans (Nat.mul_one _).symm⟩
    · rw [Nat.max_eq_left h]
      exact Nat.dvd_mul_left _ _
  · exact Nat.lt_of_lt_of_le hpos (Nat.le_max_right _ _)

theorem SoundSizer.onSuccess {sizer : ChunkSizer} (hsizer : SoundSizer base sizer)
    (bytes target : Nat) : SoundSizer base (sizer.onSuccess bytes target) where
  plan := hsizer.plan
  grid := (hsizer.clamp _).1
  pos := (hsizer.clamp _).2

theorem SoundSizer.onFailure {sizer : ChunkSizer} (hsizer : SoundSizer base sizer) :
    SoundSizer base sizer.onFailure where
  plan := hsizer.plan
  grid := (hsizer.clamp _).1
  pos := (hsizer.clamp _).2

/-- A piece is already whole: of the asked size, or all that is left. -/
theorem piece_aligned {size left offset : Nat} (hsize : 0 < size) :
    (if offset + min size left < total ∧ 0 < min size left / max size 1 * max size 1 then
      min size left / max size 1 * max size 1
    else min size left) = min size left := by
  have hunit : max size 1 = size := by omega
  rw [hunit]
  split
  · rename_i halign
    -- a piece shorter than the size has no whole unit in it
    rcases Nat.le_total size left with h | h
    · rw [Nat.min_eq_left h, Nat.div_self hsize, Nat.one_mul]
    · rw [Nat.min_eq_right h] at halign ⊢
      rcases Nat.lt_or_eq_of_le h with hlt | heq
      · rw [Nat.div_eq_of_lt hlt, Nat.zero_mul] at halign
        exact absurd halign.2 (Nat.lt_irrefl 0)
      · rw [heq, Nat.div_self hsize, Nat.one_mul]
  · rfl

/-- The first piece of a gap: the asked size, or the whole gap. -/
theorem head_splitGap {gap : Gap} {size : Nat} (hlen : 0 < gap.len) (hsize : 0 < size) :
    (splitGap gap size total).head? = some ⟨gap.offset, min size gap.len⟩ := by
  obtain ⟨rounds, hrounds⟩ : ∃ rounds, gap.len = rounds + 1 :=
    ⟨gap.len - 1, by omega⟩
  have hinside : gap.offset < gap.offset + gap.len := by omega
  have hleft : gap.offset + gap.len - gap.offset = gap.len := by omega
  unfold splitGap
  rw [hrounds, splitGapFrom, ← hrounds, if_pos hinside, hleft]
  dsimp only
  rw [List.head?_cons, piece_aligned hsize]

/-- An upload whose gaps and counter fit, with chunks on the grid. -/
structure SoundUpload (base : Nat) (up : ResumableUpload) : Prop where
  gaps : SoundGaps up.total up.gaps
  sizer : SoundSizer base up.sizer
  accounts : up.confirmed + missingBytes up.gaps = up.total

variable {up : ResumableUpload}

theorem SoundUpload.nextChunk (hup : SoundUpload base up) {gap : Gap} {rest : List Gap}
    (hgaps : up.gaps = gap :: rest) :
    up.nextChunk = some ⟨gap.offset, min up.sizer.next gap.len⟩ := by
  have hlen := (hup.gaps.inside gap (hgaps ▸ List.mem_cons_self)).1
  unfold ResumableUpload.nextChunk
  rw [hgaps, List.head?_cons, Option.bind_some, head_splitGap hlen hup.sizer.pos]

/-- What is sent next: the beginning of the first gap. -/
theorem SoundUpload.nextChunk_cases (hup : SoundUpload base up) :
    (up.gaps = [] ∧ up.nextChunk = none) ∨
    ∃ gap rest chunk, up.gaps = gap :: rest ∧ up.nextChunk = some chunk ∧
      chunk.offset = gap.offset ∧ 0 < chunk.len ∧ chunk.len ≤ gap.len ∧
      (chunk.len < gap.len → max base 1 ∣ chunk.len) := by
  cases hgaps : up.gaps with
  | nil =>
      refine .inl ⟨rfl, ?_⟩
      unfold ResumableUpload.nextChunk
      rw [hgaps, List.head?_nil, Option.bind_none]
  | cons gap rest =>
      have hlen := (hup.gaps.inside gap (hgaps ▸ List.mem_cons_self)).1
      have hsize := hup.sizer.pos
      refine .inr ⟨gap, rest, _, rfl, hup.nextChunk hgaps, rfl, ?_, ?_, ?_⟩
      · dsimp only
        omega
      · exact Nat.min_le_right _ _
      · intro hless
        dsimp only at hless ⊢
        rw [Nat.min_eq_left (by omega)]
        exact hup.sizer.grid

/-- A success takes the chunk off the gaps and adds it to the confirmed bytes. -/
theorem SoundUpload.onChunkOk (hup : SoundUpload base up) {chunk : Gap}
    (hchunk : up.nextChunk = some chunk) (target : Nat) :
    SoundUpload base (up.onChunkOk chunk target) ∧
    gapBytes [chunk] ++ gapBytes (up.onChunkOk chunk target).gaps = gapBytes up.gaps ∧
    (up.onChunkOk chunk target).total = up.total := by
  obtain ⟨-, hnone⟩ | ⟨gap, rest, chunk', hgaps, hnext, hoffset, hpos, hle, -⟩ :=
    hup.nextChunk_cases
  · rw [hnone] at hchunk
    cases hchunk
  obtain rfl : chunk' = chunk := Option.some.inj (hnext.symm.trans hchunk)
  have hsizer := hup.sizer.onSuccess chunk'.len target
  have hsound := hup.gaps
  have haccounts := hup.accounts
  rw [hgaps] at hsound haccounts
  have hcount : missingBytes (gap :: rest) = gap.len + missingBytes rest := by
    simp [missingBytes]
  rw [hcount] at haccounts
  have htotal : min (up.confirmed + chunk'.len) up.total = up.confirmed + chunk'.len := by
    omega
  by_cases hwhole : gap.len ≤ chunk'.len
  · have hlen : chunk'.len = gap.len := by omega
    have hafter : up.onChunkOk chunk' target =
        { up with
          sizer := up.sizer.onSuccess chunk'.len target
          gaps := rest
          confirmed := up.confirmed + chunk'.len } := by
      simp [ResumableUpload.onChunkOk, ResumableUpload.consume, hgaps, hoffset, hwhole,
        htotal]
    rw [hafter, hgaps]
    refine ⟨⟨hsound.tail, hsizer, ?_⟩, ?_, rfl⟩
    · dsimp only
      omega
    · simp [gapBytes, hoffset, hlen]
  · have hafter : up.onChunkOk chunk' target =
        { up with
          sizer := up.sizer.onSuccess chunk'.len target
          gaps := ⟨gap.offset + chunk'.len, gap.len - chunk'.len⟩ :: rest
          confirmed := up.confirmed + chunk'.len } := by
      simp [ResumableUpload.onChunkOk, ResumableUpload.consume, hgaps, hoffset, hwhole,
        htotal]
    rw [hafter, hgaps]
    refine ⟨⟨hsound.shrink (by omega), hsizer, ?_⟩, ?_, rfl⟩
    · have hcount' :
          missingBytes (⟨gap.offset + chunk'.len, gap.len - chunk'.len⟩ :: rest) =
            gap.len - chunk'.len + missingBytes rest := by
        simp [missingBytes]
      dsimp only
      rw [hcount']
      omega
    · -- the two parts of the first gap, one after the other
      have hsplit : List.range' gap.offset chunk'.len ++
          List.range' (gap.offset + chunk'.len) (gap.len - chunk'.len) =
            List.range' gap.offset gap.len := by
        rw [List.range'_append_1, Nat.add_sub_cancel' hle]
      simp only [gapBytes, List.flatMap_cons, List.flatMap_nil, List.append_nil, hoffset]
      rw [← hsplit, List.append_assoc]

theorem SoundUpload.onChunkFailed (hup : SoundUpload base up) :
    SoundUpload base up.onChunkFailed where
  gaps := hup.gaps
  sizer := hup.sizer.onFailure
  accounts := hup.accounts

theorem soundUpload_fromMissing {missing : List (Nat × Nat)} (base : Nat)
    (hmissing : MissingRanges total missing) :
    SoundUpload base (.fromMissing total (.forBaseUnit base) missing) where
  gaps := hmissing.soundGaps
  sizer := soundSizer_new base
  accounts := Nat.sub_add_cancel hmissing.soundGaps.missingBytes_le

theorem SoundUpload.resyncMissing (hup : SoundUpload base up)
    {missing : List (Nat × Nat)} (hmissing : MissingRanges up.total missing) :
    SoundUpload base (up.resyncMissing missing) where
  gaps := hmissing.soundGaps
  sizer := hup.sizer
  accounts := Nat.sub_add_cancel hmissing.soundGaps.missingBytes_le

theorem SoundUpload.isDone_iff (hup : SoundUpload base up) :
    up.isDone = true ↔ up.nextChunk = none := by
  obtain ⟨hgaps, hnone⟩ | ⟨gap, rest, chunk, hgaps, hnext, -⟩ := hup.nextChunk_cases
  · simp [ResumableUpload.isDone, hgaps, hnone]
  · simp [ResumableUpload.isDone, hgaps, hnext]

end Chunks

section Calls

/-- One call of the loop on the upload. -/
inductive UploadCall
  | chunkOk (target : Nat)
  | chunkFailed
  | resync (missing : List (Nat × Nat))
  deriving DecidableEq, Repr

/-- The upload, what the server missed at its last answer, and the successes since. -/
structure UploadRun where
  up : ResumableUpload
  missing : List (Nat × Nat)
  sent : List Gap
  deriving DecidableEq, Repr

def UploadRun.start (total base : Nat) (missing : List (Nat × Nat)) : UploadRun where
  up := .fromMissing total (.forBaseUnit base) missing
  missing := missing
  sent := []

def UploadRun.step (s : UploadRun) : UploadCall → UploadRun
  | .chunkOk target =>
      match s.up.nextChunk with
      | none => s
      | some chunk =>
          { s with up := s.up.onChunkOk chunk target, sent := s.sent ++ [chunk] }
  | .chunkFailed => { s with up := s.up.onChunkFailed }
  | .resync missing =>
      { s with up := s.up.resyncMissing missing, missing := missing, sent := [] }

/-- The server's answers are disjoint ranges of the file. -/
def UploadCall.Ranges (total : Nat) : UploadCall → Prop
  | .resync missing => MissingRanges total missing
  | _ => True

/-- The bytes of the ranges the server misses. -/
def rangeBytes (missing : List (Nat × Nat)) : List Nat :=
  missing.flatMap (fun r => List.range' r.1 r.2)

theorem gapBytes_gapsFromMissing (missing : List (Nat × Nat)) :
    (gapBytes (gapsFromMissing missing)).Perm (rangeBytes missing) := by
  have hperm := (gapsFromMissing_perm missing).flatMap_right
    (fun g => List.range' g.offset g.len)
  rwa [List.flatMap_map] at hperm

variable {base total : Nat}

/-- The sent bytes and the gaps together are what the server missed. -/
structure UploadRun.Sound (total base : Nat) (s : UploadRun) : Prop where
  length : s.up.total = total
  upload : SoundUpload base s.up
  covers : (gapBytes s.sent ++ gapBytes s.up.gaps).Perm (rangeBytes s.missing)
  ranges : MissingRanges total s.missing

theorem UploadRun.Sound.step {s : UploadRun} (hs : s.Sound total base)
    (call : UploadCall) (hcall : call.Ranges total) : (s.step call).Sound total base := by
  cases call with
  | chunkOk target =>
      unfold UploadRun.step
      cases hchunk : s.up.nextChunk with
      | none => exact hs
      | some chunk =>
          obtain ⟨hsound, hbytes, hlength⟩ := hs.upload.onChunkOk hchunk target
          refine ⟨hlength.trans hs.length, hsound, ?_, hs.ranges⟩
          have hsent : gapBytes (s.sent ++ [chunk]) = gapBytes s.sent ++ gapBytes [chunk] := by
            simp [gapBytes]
          dsimp only
          rw [hsent, List.append_assoc, hbytes]
          exact hs.covers
  | chunkFailed => exact ⟨hs.length, hs.upload.onChunkFailed, hs.covers, hs.ranges⟩
  | resync missing =>
      have hmissing : MissingRanges s.up.total missing := by
        rw [hs.length]
        exact hcall
      refine ⟨hs.length, hs.upload.resyncMissing hmissing, ?_, hcall⟩
      exact gapBytes_gapsFromMissing missing

theorem UploadRun.sound_start (base : Nat) {missing : List (Nat × Nat)}
    (hmissing : MissingRanges total missing) :
    (UploadRun.start total base missing).Sound total base where
  length := rfl
  upload := soundUpload_fromMissing base hmissing
  covers := gapBytes_gapsFromMissing missing
  ranges := hmissing

theorem UploadRun.sound_run (base : Nat) {missing : List (Nat × Nat)}
    (hmissing : MissingRanges total missing) (calls : List UploadCall)
    (hcalls : ∀ call ∈ calls, call.Ranges total) :
    (run UploadRun.step (UploadRun.start total base missing) calls).Sound total base := by
  have hstart := UploadRun.sound_start base hmissing
  generalize UploadRun.start total base missing = s at hstart
  induction calls generalizing s with
  | nil => exact hstart
  | cons call calls ih =>
      exact ih (fun call' h => hcalls call' (List.mem_cons_of_mem _ h)) _
        (hstart.step call (hcalls call List.mem_cons_self))

/-- A missing byte is sent once or still in one gap; any other byte is in neither. -/
theorem UploadRun.Sound.count {s : UploadRun} (hs : s.Sound total base) (b : Nat) :
    (gapBytes s.sent).count b + (gapBytes s.up.gaps).count b =
      if b ∈ rangeBytes s.missing then 1 else 0 := by
  have hnodup : (rangeBytes s.missing).Nodup :=
    (gapBytes_gapsFromMissing s.missing).nodup_iff.mp hs.ranges.soundGaps.nodup
  rw [← List.count_append, hs.covers.count_eq]
  split
  · rename_i hb
    exact List.count_eq_one_of_mem hnodup hb
  · rename_i hb
    exact List.count_eq_zero.mpr hb

end Calls

section Loop

inductive ChunkVerdict
  | ok
  | retryChunk
  | resync
  | startOver
  | fatal
  deriving DecidableEq, Repr

def chunkVerdict (code : Option Nat) (isServerError : Bool) : ChunkVerdict :=
  match code with
  | some 0 | some 20614 => .ok
  | some 20611 | some 20612 => .retryChunk
  | some 20610 | some 20615 => .resync
  | some 20613 => .startOver
  | _ => if isServerError then .retryChunk else .fatal

structure ChunkResponse where
  code : Option Nat
  isServerError : Bool
  deriving DecidableEq, Repr

/-- A response that does not come is worth another try. -/
def putChunk : Option ChunkResponse → ChunkVerdict
  | none => .retryChunk
  | some response => chunkVerdict response.code response.isServerError

def chunkRetries : Nat := 2

inductive UploadStatusOutcome
  | status (missing : List (Nat × Nat)) (completed : Bool)
  | sessionGone
  deriving DecidableEq, Repr

inductive UploadError
  | uploadSessionGone
  | statusQuery
  | shortBlob
  | noProgress (failuresSinceProgress offset : Nat)
  | rangesOutOfStep
  | rejected (offset : Nat)
  deriving DecidableEq, Repr

/-- Where `upload_in_chunks` is; `completing` asks the server for completion. -/
inductive UploadPhase
  | sending (up : ResumableUpload) (failuresSinceProgress : Nat)
  | completing
  | failed (error : UploadError)
  deriving DecidableEq, Repr

/-- What one round reads and hears, and the bytes the server has after it. -/
structure UploadRound where
  fileRead : Bool
  response : Option ChunkResponse
  target : Nat
  /-- The answer to a status query, if there is one and it can be read. -/
  status : Option UploadStatusOutcome
  recorded : Nat → Bool

/-- The condition of the `while`. -/
def continueLoop (up : ResumableUpload) (failuresSinceProgress : Nat) : UploadPhase :=
  if up.nextChunk.isSome then .sending up failuresSinceProgress else .completing

def uploadRound (up : ResumableUpload) (failuresSinceProgress : Nat) (chunk : Gap)
    (r : UploadRound) : UploadPhase :=
  -- the sealed file first, and the blob where it cannot be read
  if r.fileRead = false ∧ up.total < chunk.offset + chunk.len then
    .failed .shortBlob
  else
    match putChunk r.response with
    | .ok => continueLoop (up.onChunkOk chunk r.target) 0
    | .retryChunk =>
        if chunkRetries < failuresSinceProgress + 1 then
          .failed (.noProgress (failuresSinceProgress + 1) chunk.offset)
        else
          continueLoop up.onChunkFailed (failuresSinceProgress + 1)
    | .resync =>
        if chunkRetries < failuresSinceProgress + 1 then
          .failed .rangesOutOfStep
        else
          match r.status with
          | none => .failed .statusQuery
          | some .sessionGone => .failed .uploadSessionGone
          | some (.status missing completed) =>
              if completed = true ∧ missing = [] then
                .completing
              else
                continueLoop (up.resyncMissing missing) (failuresSinceProgress + 1)
    | .startOver => .failed .uploadSessionGone
    | .fatal => .failed (.rejected chunk.offset)

/-- The loop, and the bytes the server has. -/
structure ChunkedUpload where
  phase : UploadPhase
  recorded : Nat → Bool

/-- Up to the loop; the total is the length of the blob. -/
def ChunkedUpload.start (total base : Nat) (status : Option UploadStatusOutcome)
    (recorded : Nat → Bool) : ChunkedUpload where
  phase :=
    match status with
    | none => .failed .statusQuery
    | some .sessionGone => .failed .uploadSessionGone
    | some (.status missing completed) =>
        if completed then
          .completing
        else
          continueLoop (.fromMissing total (.forBaseUnit base) missing) 0
  recorded := recorded

def ChunkedUpload.step (s : ChunkedUpload) (r : UploadRound) : ChunkedUpload where
  phase :=
    match s.phase with
    | .sending up failuresSinceProgress =>
        match up.nextChunk with
        | some chunk => uploadRound up failuresSinceProgress chunk r
        | none => .completing
    | phase => phase
  recorded := r.recorded

end Loop

section Server

variable {total base : Nat}

/-- The server reports what it has not recorded. -/
structure HonestStatus (total : Nat) (recorded : Nat → Bool)
    (missing : List (Nat × Nat)) (completed : Bool) : Prop where
  ranges : MissingRanges total missing
  exactly : ∀ b, b ∈ rangeBytes missing ↔ b < total ∧ recorded b = false
  whole : completed = true → missing = []

/-- The server keeps what it has, and has what it acknowledges. -/
structure HonestRound (total : Nat) (s : ChunkedUpload) (r : UploadRound) : Prop where
  keeps : ∀ b, s.recorded b = true → r.recorded b = true
  acknowledged : putChunk r.response = .ok →
    ∀ up failures chunk, s.phase = .sending up failures → up.nextChunk = some chunk →
      ∀ b, chunk.offset ≤ b → b < chunk.offset + chunk.len → r.recorded b = true
  status : ∀ missing completed, r.status = some (.status missing completed) →
    HonestStatus total r.recorded missing completed

/-- What the server has not is in the gaps. -/
structure CoversServer (total base : Nat) (recorded : Nat → Bool) (up : ResumableUpload) :
    Prop where
  length : up.total = total
  upload : SoundUpload base up
  covers : ∀ b, b < total → recorded b = false → b ∈ gapBytes up.gaps

/-- What holds in every phase of the loop. -/
def ChunkedUpload.Sound (total base : Nat) (s : ChunkedUpload) : Prop :=
  match s.phase with
  | .sending up failures =>
      CoversServer total base s.recorded up ∧ up.nextChunk.isSome ∧ failures ≤ chunkRetries
  | .completing => ∀ b, b < total → s.recorded b = true
  | .failed _ => True

/-- Three rounds for every missing byte, less the failures since the last success. -/
def UploadPhase.rank : UploadPhase → Nat
  | .sending up failures => 3 * missingBytes up.gaps - failures
  | _ => 0

variable {up : ResumableUpload} {recorded : Nat → Bool}

/-- The loop goes on soundly, whether a chunk is left or not. -/
theorem CoversServer.continueLoop (hup : CoversServer total base recorded up)
    {failures : Nat} (hfailures : failures ≤ chunkRetries) :
    ChunkedUpload.Sound total base ⟨continueLoop up failures, recorded⟩ ∧
    (PrivchatSdk.continueLoop up failures).rank ≤ 3 * missingBytes up.gaps - failures := by
  unfold PrivchatSdk.continueLoop
  obtain ⟨hgaps, hnone⟩ | ⟨gap, rest, chunk, hgaps, hnext, -⟩ := hup.upload.nextChunk_cases
  · rw [hnone]
    refine ⟨?_, Nat.zero_le _⟩
    -- no gap is left, so the server has all
    intro b hb
    cases hrecorded : recorded b with
    | true => exact hrecorded
    | false =>
        have hin := hup.covers b hb hrecorded
        rw [hgaps] at hin
        cases hin
  · rw [hnext]
    refine ⟨⟨hup, ?_, hfailures⟩, Nat.le_refl _⟩
    rw [hnext]
    rfl

theorem not_recorded_before {recorded' : Nat → Bool}
    (hkeeps : ∀ b, recorded b = true → recorded' b = true) {b : Nat}
    (hnot : recorded' b = false) : recorded b = false := by
  cases h : recorded b with
  | false => rfl
  | true => exact (hkeeps b h).symm.trans hnot

theorem CoversServer.onChunkOk (hup : CoversServer total base recorded up)
    {chunk : Gap} (hchunk : up.nextChunk = some chunk) (target : Nat)
    {recorded' : Nat → Bool} (hkeeps : ∀ b, recorded b = true → recorded' b = true)
    (hack : ∀ b, chunk.offset ≤ b → b < chunk.offset + chunk.len → recorded' b = true) :
    CoversServer total base recorded' (up.onChunkOk chunk target) ∧
    missingBytes (up.onChunkOk chunk target).gaps < missingBytes up.gaps := by
  obtain ⟨hsound, hbytes, hlength⟩ := hup.upload.onChunkOk hchunk target
  refine ⟨⟨hlength.trans hup.length, hsound, fun b hb hnot => ?_⟩, ?_⟩
  · have hin := hup.covers b hb (not_recorded_before hkeeps hnot)
    rw [← hbytes, List.mem_append] at hin
    refine hin.resolve_left (fun hsent => ?_)
    obtain ⟨g, hg, hlow, hhigh⟩ := mem_gapBytes.mp hsent
    obtain rfl := List.mem_singleton.mp hg
    rw [hack b hlow hhigh] at hnot
    cases hnot
  · obtain ⟨-, hnone⟩ | ⟨gap, rest, chunk', -, hnext, -, hpos, -⟩ :=
      hup.upload.nextChunk_cases
    · rw [hnone] at hchunk
      cases hchunk
    obtain rfl : chunk' = chunk := Option.some.inj (hnext.symm.trans hchunk)
    have hcount := congrArg List.length hbytes
    rw [List.length_append, length_gapBytes, length_gapBytes, length_gapBytes] at hcount
    have hone : missingBytes [chunk'] = chunk'.len := by
      simp [missingBytes]
    omega

theorem CoversServer.keeps (hup : CoversServer total base recorded up)
    {recorded' : Nat → Bool} (hkeeps : ∀ b, recorded b = true → recorded' b = true) :
    CoversServer total base recorded' up where
  length := hup.length
  upload := hup.upload
  covers b hb hnot := hup.covers b hb (not_recorded_before hkeeps hnot)

theorem CoversServer.onChunkFailed (hup : CoversServer total base recorded up) :
    CoversServer total base recorded up.onChunkFailed where
  length := hup.length
  upload := hup.upload.onChunkFailed
  covers := hup.covers

theorem HonestStatus.fromMissing {missing : List (Nat × Nat)} {completed : Bool}
    (hstatus : HonestStatus total recorded missing completed) (base : Nat) :
    CoversServer total base recorded (.fromMissing total (.forBaseUnit base) missing) where
  length := rfl
  upload := soundUpload_fromMissing base hstatus.ranges
  covers b hb hnot :=
    (gapBytes_gapsFromMissing missing).mem_iff.mpr ((hstatus.exactly b).mpr ⟨hb, hnot⟩)

/-- The server's answer never brings a byte back into the gaps. -/
theorem CoversServer.resyncMissing (hup : CoversServer total base recorded up)
    {missing : List (Nat × Nat)} {completed : Bool}
    (hstatus : HonestStatus total recorded missing completed) :
    CoversServer total base recorded (up.resyncMissing missing) ∧
    missingBytes (up.resyncMissing missing).gaps ≤ missingBytes up.gaps := by
  have hmissing : MissingRanges up.total missing := by
    rw [hup.length]
    exact hstatus.ranges
  have hbytes := gapBytes_gapsFromMissing missing
  refine ⟨⟨hup.length, hup.upload.resyncMissing hmissing, fun b hb hnot => ?_⟩, ?_⟩
  · exact hbytes.mem_iff.mpr ((hstatus.exactly b).mpr ⟨hb, hnot⟩)
  · have hsubset : gapBytes (up.resyncMissing missing).gaps ⊆ gapBytes up.gaps := by
      intro b hb
      obtain ⟨hlow, hnot⟩ := (hstatus.exactly b).mp (hbytes.mem_iff.mp hb)
      exact hup.covers b hlow hnot
    have hle := (List.subperm_of_subset hmissing.soundGaps.nodup hsubset).length_le
    rwa [length_gapBytes, length_gapBytes] at hle

/-- One round of the loop keeps what holds, and uses up one of its rounds. -/
theorem CoversServer.uploadRound (hup : CoversServer total base recorded up)
    {failures : Nat} (hfailures : failures ≤ chunkRetries) {chunk : Gap}
    (hchunk : up.nextChunk = some chunk) {r : UploadRound}
    (hr : HonestRound total ⟨.sending up failures, recorded⟩ r) :
    ChunkedUpload.Sound total base ⟨uploadRound up failures chunk r, r.recorded⟩ ∧
    (PrivchatSdk.uploadRound up failures chunk r).rank ≤
      3 * missingBytes up.gaps - failures - 1 := by
  have hretries : chunkRetries = 2 := rfl
  have hended : ∀ error,
      ChunkedUpload.Sound total base ⟨.failed error, r.recorded⟩ ∧
      (UploadPhase.failed error).rank ≤ 3 * missingBytes up.gaps - failures - 1 :=
    fun _ => ⟨trivial, Nat.zero_le _⟩
  unfold PrivchatSdk.uploadRound
  split
  · exact hended _
  cases hverdict : putChunk r.response with
  | ok =>
      obtain ⟨hnext, hless⟩ := hup.onChunkOk hchunk r.target hr.keeps
        (hr.acknowledged hverdict up failures chunk rfl hchunk)
      obtain ⟨hsound, hrank⟩ := hnext.continueLoop (Nat.zero_le chunkRetries)
      dsimp only
      exact ⟨hsound, by omega⟩
  | retryChunk =>
      dsimp only
      split
      · exact hended _
      · rename_i hleft
        have hnext := (hup.keeps hr.keeps).onChunkFailed
        obtain ⟨hsound, hrank⟩ := hnext.continueLoop (Nat.le_of_not_lt hleft)
        have hgaps : up.onChunkFailed.gaps = up.gaps := rfl
        rw [hgaps] at hrank
        exact ⟨hsound, by omega⟩
  | resync =>
      dsimp only
      split
      · exact hended _
      rename_i hleft
      cases hstatus : r.status with
      | none => exact hended _
      | some outcome =>
          cases outcome with
          | sessionGone => exact hended _
          | status missing completed =>
              have hhonest := hr.status missing completed hstatus
              dsimp only
              split
              · rename_i hwhole
                refine ⟨fun b hb => ?_, Nat.zero_le _⟩
                have hexactly := hhonest.exactly b
                rw [hwhole.2] at hexactly
                by_contra hnot
                have hin := hexactly.mpr ⟨hb, Bool.eq_false_iff.mpr hnot⟩
                cases hin
              · obtain ⟨hnext, hle⟩ := (hup.keeps hr.keeps).resyncMissing hhonest
                obtain ⟨hsound, hrank⟩ := hnext.continueLoop (Nat.le_of_not_lt hleft)
                exact ⟨hsound, by omega⟩
  | startOver => exact hended _
  | fatal => exact hended _

theorem ChunkedUpload.Sound.step {s : ChunkedUpload} (hs : s.Sound total base)
    {r : UploadRound} (hr : HonestRound total s r) :
    (s.step r).Sound total base ∧ (s.step r).phase.rank ≤ s.phase.rank - 1 := by
  obtain ⟨phase, recorded⟩ := s
  cases phase with
  | sending up failures =>
      obtain ⟨hup, hsome, hfailures⟩ := hs
      obtain ⟨chunk, hchunk⟩ := Option.isSome_iff_exists.mp hsome
      have hround := hup.uploadRound hfailures hchunk hr
      simp only [ChunkedUpload.step, hchunk]
      exact hround
  | completing => exact ⟨fun b hb => hr.keeps b (hs b hb), Nat.le_refl 0⟩
  | failed error => exact ⟨trivial, Nat.le_refl 0⟩

theorem ChunkedUpload.sound_start (base : Nat) {status : Option UploadStatusOutcome}
    (hstatus : ∀ missing completed, status = some (.status missing completed) →
      HonestStatus total recorded missing completed) :
    (ChunkedUpload.start total base status recorded).Sound total base ∧
    (ChunkedUpload.start total base status recorded).phase.rank ≤ 3 * total := by
  rcases status with _ | ⟨missing, completed⟩ | _
  · exact ⟨trivial, Nat.zero_le _⟩
  · have hhonest := hstatus missing completed rfl
    cases completed with
    | true =>
        refine ⟨fun b hb => ?_, Nat.zero_le _⟩
        have hexactly := hhonest.exactly b
        rw [hhonest.whole rfl] at hexactly
        by_contra hnot
        have hin := hexactly.mpr ⟨hb, Bool.eq_false_iff.mpr hnot⟩
        cases hin
    | false =>
        have hup := hhonest.fromMissing base
        obtain ⟨hsound, hrank⟩ := hup.continueLoop (Nat.zero_le chunkRetries)
        have hle := hup.upload.gaps.missingBytes_le
        refine ⟨hsound, Nat.le_trans hrank ?_⟩
        have hlength := hup.length
        omega
  · exact ⟨trivial, Nat.zero_le _⟩

/-- While the loop is sending, rounds are left. -/
theorem ChunkedUpload.Sound.rank_pos {s : ChunkedUpload} (hs : s.Sound total base)
    {up : ResumableUpload} {failures : Nat} (hsending : s.phase = .sending up failures) :
    0 < s.phase.rank := by
  unfold ChunkedUpload.Sound at hs
  rw [hsending] at hs ⊢
  obtain ⟨hup, hsome, hfailures⟩ := hs
  obtain ⟨-, hnone⟩ | ⟨gap, rest, chunk, hgaps, -, -, hpos, hle, -⟩ :=
    hup.upload.nextChunk_cases
  · rw [hnone] at hsome
    cases hsome
  have hretries : chunkRetries = 2 := rfl
  have hcount : missingBytes up.gaps = gap.len + missingBytes rest := by
    rw [hgaps]
    simp [missingBytes]
  unfold UploadPhase.rank
  dsimp only
  omega

/--
The gaps and the confirmed bytes make up the file, a missing byte is sent once or
still in a gap, and the chunks lie on the grid.  With a server that keeps what it
acknowledges and reports the rest, the loop ends within three rounds for each
byte, and asks for completion only when the server has all of them.
-/
theorem resumable_upload_sound (total base : Nat) :
    (∀ (missing : List (Nat × Nat)) (calls : List UploadCall),
      MissingRanges total missing → (∀ call ∈ calls, call.Ranges total) →
      let s := run UploadRun.step (UploadRun.start total base missing) calls
      s.up.progress.uploaded + (s.up.gaps.map Gap.len).sum = total ∧
      (s.up.isDone = true ↔ s.up.nextChunk = none) ∧
      (∀ b, (gapBytes s.sent).count b + (gapBytes s.up.gaps).count b =
        if b ∈ rangeBytes s.missing then 1 else 0) ∧
      ∀ chunk, s.up.nextChunk = some chunk →
        ∃ gap rest, s.up.gaps = gap :: rest ∧ chunk.offset = gap.offset ∧
          0 < chunk.len ∧ chunk.len ≤ gap.len ∧
          (chunk.len < gap.len → (UploadPlan.forBaseUnit base).baseUnit ∣ chunk.len)) ∧
    ∀ (status : Option UploadStatusOutcome) (recorded : Nat → Bool)
      (rounds : List UploadRound),
      (∀ missing completed, status = some (.status missing completed) →
        HonestStatus total recorded missing completed) →
      Guarded ChunkedUpload.step (HonestRound total)
        (ChunkedUpload.start total base status recorded) rounds →
      let s := run ChunkedUpload.step (ChunkedUpload.start total base status recorded) rounds
      (s.phase = .completing → ∀ b, b < total → s.recorded b = true) ∧
      (3 * total ≤ rounds.length → ∀ up failures, s.phase ≠ .sending up failures) := by
  constructor
  · intro missing calls hmissing hcalls
    have hs := UploadRun.sound_run base hmissing calls hcalls
    dsimp only
    generalize run UploadRun.step (UploadRun.start total base missing) calls = s at hs
    refine ⟨hs.upload.accounts.trans hs.length, hs.upload.isDone_iff, hs.count, ?_⟩
    intro chunk hchunk
    obtain ⟨-, hnone⟩ | ⟨gap, rest, chunk', hgaps, hnext, hoffset, hpos, hle, hgrid⟩ :=
      hs.upload.nextChunk_cases
    · rw [hnone] at hchunk
      cases hchunk
    obtain rfl : chunk' = chunk := Option.some.inj (hnext.symm.trans hchunk)
    refine ⟨gap, rest, hgaps, hoffset, hpos, hle, fun hless => ?_⟩
    have hunit : (UploadPlan.forBaseUnit base).baseUnit = max base 1 := rfl
    rw [hunit]
    exact hgrid hless
  · intro status recorded rounds hstatus hrounds
    obtain ⟨hstart, hrank⟩ := ChunkedUpload.sound_start base hstatus
    have hs := hrounds.invariant (ChunkedUpload.Sound total base)
      (fun s r hs hr => (hs.step hr).1) hstart
    have hleft := hrounds.rank_run (ChunkedUpload.Sound total base)
      (fun s => s.phase.rank) (fun s r hs hr => hs.step hr) hstart
    dsimp only
    refine ⟨fun hphase => ?_, fun hlong up failures hsending => ?_⟩
    · unfold ChunkedUpload.Sound at hs
      rwa [hphase] at hs
    · have hpos := hs.rank_pos hsending
      omega

/-- Ten bytes on a grid of four: a success, a lost receipt, a new start, the end. -/
def tenBytes : List UploadRound :=
  [{ fileRead := true, response := some ⟨some 0, false⟩, target := 4, status := none,
     recorded := fun b => b < 4 },
   { fileRead := true, response := none, target := 0, status := none,
     recorded := fun b => b < 8 },
   { fileRead := true, response := some ⟨some 20610, false⟩, target := 0,
     status := some (.status [(8, 2)] false), recorded := fun b => b < 8 },
   { fileRead := false, response := some ⟨some 0, false⟩, target := 4, status := none,
     recorded := fun b => b < 10 }]

theorem honest_whole : HonestStatus 10 (fun _ => false) [(0, 10)] false where
  ranges := ⟨by decide, by decide⟩
  exactly b := by
    simp [rangeBytes, List.mem_range'_1]
  whole := Bool.noConfusion

theorem honest_tail : HonestStatus 10 (fun b => b < 8) [(8, 2)] false where
  ranges := ⟨by decide, by decide⟩
  exactly b := by
    simp [rangeBytes, List.mem_range'_1]
    omega
  whole := Bool.noConfusion

theorem honest_tenBytes :
    Guarded ChunkedUpload.step (HonestRound 10)
      (.start 10 4 (some (.status [(0, 10)] false)) (fun _ => false)) tenBytes := by
  refine ⟨⟨?_, ?_, ?_⟩, ⟨?_, ?_, ?_⟩, ⟨?_, ?_, ?_⟩, ⟨?_, ?_, ?_⟩, trivial⟩
  · intro b hb
    cases hb
  · intro _ up failures chunk hphase hchunk b hlow hhigh
    cases hphase
    obtain rfl : chunk = ⟨0, 4⟩ := Option.some.inj (hchunk.symm.trans (by decide +kernel))
    exact decide_eq_true (by dsimp only at hhigh; omega)
  · intro missing completed h
    cases h
  · simp [ChunkedUpload.step]
    omega
  · intro h
    cases h
  · intro missing completed h
    cases h
  · simp [ChunkedUpload.step]
  · intro h
    cases h
  · intro missing completed h
    cases h
    exact honest_tail
  · simp [ChunkedUpload.step]
    omega
  · intro _ up failures chunk hphase hchunk b hlow hhigh
    cases hphase
    obtain rfl : chunk = ⟨8, 2⟩ := Option.some.inj (hchunk.symm.trans (by decide +kernel))
    exact decide_eq_true (by dsimp only at hhigh; omega)
  · intro missing completed h
    cases h

def tenBytesCalls : List UploadCall :=
  [.chunkOk 8, .chunkFailed, .resync [(6, 4), (0, 3)], .chunkOk 9, .chunkOk 9]

/-- The ten bytes are sent, counted and completed. -/
theorem resumable_upload_sound_ten :
    ((run UploadRun.step (UploadRun.start 10 4 [(0, 10)]) tenBytesCalls).sent =
        [⟨0, 3⟩, ⟨6, 4⟩] ∧
      (run UploadRun.step (UploadRun.start 10 4 [(0, 10)]) tenBytesCalls).up.isDone = true ∧
      (run UploadRun.step (UploadRun.start 10 4 [(0, 10)]) tenBytesCalls).up.nextChunk =
        none) ∧
    (run ChunkedUpload.step (.start 10 4 (some (.status [(0, 10)] false)) (fun _ => false))
        tenBytes).phase = .completing ∧
    ∀ b, b < 10 → (run ChunkedUpload.step
      (.start 10 4 (some (.status [(0, 10)] false)) (fun _ => false))
        tenBytes).recorded b = true := by
  have hcalls := (resumable_upload_sound 10 4).1 [(0, 10)] tenBytesCalls
    ⟨by decide, by decide⟩
    (by
      intro call hcall
      simp only [tenBytesCalls, List.mem_cons, List.not_mem_nil, or_false] at hcall
      rcases hcall with rfl | rfl | rfl | rfl | rfl
      · trivial
      · trivial
      · exact ⟨by decide, by decide⟩
      · trivial
      · trivial)
  have hloop := (resumable_upload_sound 10 4).2 (some (.status [(0, 10)] false))
    (fun _ => false) tenBytes
    (by
      intro missing completed h
      cases h
      exact honest_whole)
    honest_tenBytes
  have hdone :
      (run UploadRun.step (UploadRun.start 10 4 [(0, 10)]) tenBytesCalls).up.isDone = true := by
    decide +kernel
  have hcompleting : (run ChunkedUpload.step
      (.start 10 4 (some (.status [(0, 10)] false)) (fun _ => false)) tenBytes).phase =
        .completing := by
    decide +kernel
  exact ⟨⟨by decide +kernel, hdone, hcalls.2.1.mp hdone⟩, hcompleting, hloop.1 hcompleting⟩

end Server

end PrivchatSdk
