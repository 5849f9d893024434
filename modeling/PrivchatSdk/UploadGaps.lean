import Mathlib.Data.List.Pairwise
import PrivchatSdk.ResumableUpload

/-!
# What is missing of an upload, and in which pieces it is sent

`gaps_from_confirmed` sweeps over the confirmed ranges and writes a gap wherever one
begins behind what was covered so far.  It knows the end of the file only for the last
gap, and a range without bytes ends a gap as any other; the result is right exactly if
no range does either (`gapsFromConfirmed_exact_iff`).

The sizes of the requests are kept on the grid by every success and every failure, and
the first size by neither (`chunkSizer_keeps_iff`).
-/

namespace PrivchatSdk

section Gaps

/-- The sweep behind the sort: what is covered so far ends at the cursor. -/
def sweepGaps (total : Nat) : Nat → List (Nat × Nat) → List Gap
  | cursor, [] =>
      if cursor < total then [⟨cursor, total - cursor⟩] else []
  | cursor, (off, len) :: ranges =>
      if cursor < off then
        ⟨cursor, off - cursor⟩ :: sweepGaps total (max cursor (off + len)) ranges
      else
        sweepGaps total (max cursor (off + len)) ranges

/-- `gaps_from_confirmed`; a range is an offset and a length. -/
def gapsFromConfirmed (confirmed : List (Nat × Nat)) (total : Nat) : List Gap :=
  sweepGaps total 0 (confirmed.insertionSort (fun r r' => r.1 ≤ r'.1))

def Gap.Has (g : Gap) (b : Nat) : Prop :=
  g.offset ≤ b ∧ b < g.offset + g.len

/-- The byte is in one of the confirmed ranges. -/
def Confirmed (confirmed : List (Nat × Nat)) (b : Nat) : Prop :=
  ∃ r ∈ confirmed, r.1 ≤ b ∧ b < r.1 + r.2

instance (confirmed : List (Nat × Nat)) (b : Nat) : Decidable (Confirmed confirmed b) :=
  inferInstanceAs (Decidable (∃ r ∈ confirmed, _))

/-- Gaps in order, apart from each other, that are what is not confirmed. -/
structure ExactGaps
    (start total : Nat) (confirmed : List (Nat × Nat)) (gaps : List Gap) : Prop where
  nonempty : ∀ g ∈ gaps, 0 < g.len
  inside : ∀ g ∈ gaps, start ≤ g.offset ∧ g.offset + g.len ≤ total
  apart : gaps.Pairwise (fun g g' => g.offset + g.len < g'.offset)
  exact : ∀ b, start ≤ b →
    ((∃ g ∈ gaps, g.Has b) ↔ b < total ∧ ¬ Confirmed confirmed b)

/--
A range that begins behind a byte that is missing begins at the end of the file, or
in the file and with a byte.
-/
def EndsGaps (start total : Nat) (confirmed : List (Nat × Nat)) : Prop :=
  ∀ r ∈ confirmed, start < r.1 → ¬ Confirmed confirmed (r.1 - 1) →
    r.1 = total ∨ r.1 < total ∧ Confirmed confirmed r.1

instance (start total : Nat) (confirmed : List (Nat × Nat)) :
    Decidable (EndsGaps start total confirmed) :=
  inferInstanceAs (Decidable (∀ r ∈ confirmed, _))

variable {start total cursor : Nat} {confirmed ranges : List (Nat × Nat)}

theorem confirmed_cons {r : Nat × Nat} {b : Nat} :
    Confirmed (r :: ranges) b ↔
      (r.1 ≤ b ∧ b < r.1 + r.2) ∨ Confirmed ranges b := by
  simp [Confirmed]

theorem Confirmed.of_perm {confirmed' : List (Nat × Nat)}
    (hperm : confirmed.Perm confirmed') {b : Nat} :
    Confirmed confirmed b ↔ Confirmed confirmed' b := by
  unfold Confirmed
  constructor
  · rintro ⟨r, hr, hb⟩
    exact ⟨r, hperm.mem_iff.mp hr, hb⟩
  · rintro ⟨r, hr, hb⟩
    exact ⟨r, hperm.mem_iff.mpr hr, hb⟩

/-- A range that begins behind a missing byte ends a gap. -/
theorem sweepGaps_ends
    (hsorted : ranges.Pairwise (fun r r' => r.1 ≤ r'.1))
    {r : Nat × Nat} (hr : r ∈ ranges) (hcursor : cursor < r.1)
    (hmissing : ¬ Confirmed ranges (r.1 - 1)) :
    ∃ g ∈ sweepGaps total cursor ranges, 0 < g.len ∧ g.offset + g.len = r.1 := by
  induction ranges generalizing cursor with
  | nil =>
      cases hr
  | cons first ranges ih =>
      obtain ⟨hfirst, hsorted⟩ := List.pairwise_cons.mp hsorted
      rw [confirmed_cons, not_or] at hmissing
      have hle : first.1 ≤ r.1 := by
        rcases List.mem_cons.mp hr with rfl | hr
        · exact Nat.le_refl _
        · exact hfirst r hr
      unfold sweepGaps
      rcases Nat.lt_or_eq_of_le hle with hlt | heq
      · -- the range begins later, and nothing before it reaches up to it
        have hr' : r ∈ ranges := by
          rcases List.mem_cons.mp hr with rfl | hr
          · exact absurd hlt (Nat.lt_irrefl _)
          · exact hr
        have hnext : max cursor (first.1 + first.2) < r.1 := by omega
        obtain ⟨g, hg, hends⟩ := ih hsorted hr' hnext hmissing.2
        split
        · exact ⟨g, List.mem_cons_of_mem _ hg, hends⟩
        · exact ⟨g, hg, hends⟩
      · rw [if_pos (by omega)]
        refine ⟨_, List.mem_cons_self, ?_⟩
        dsimp only
        omega

/-- A range that begins in what is covered so far takes no gap. -/
theorem ExactGaps.skip
    {off len : Nat} {gaps : List Gap} (hoff : off ≤ cursor)
    (h : ExactGaps (max cursor (off + len)) total ranges gaps) :
    ExactGaps cursor total ((off, len) :: ranges) gaps := by
  refine ⟨h.nonempty, fun g hg => ?_, h.apart, fun b hb => ?_⟩
  · have hin := h.inside g hg
    omega
  · rw [confirmed_cons]
    dsimp only
    rcases Nat.lt_or_ge b (max cursor (off + len)) with hlt | hge
    · -- the range has the byte, and no gap begins so early
      constructor
      · rintro ⟨g, hg, hhas, -⟩
        have hin := h.inside g hg
        omega
      · rintro ⟨-, hnot⟩
        exact absurd (Or.inl (by omega)) hnot
    · rw [h.exact b hge, not_or]
      constructor
      · rintro ⟨hin, hmissing⟩
        exact ⟨hin, by omega, hmissing⟩
      · rintro ⟨hin, -, hmissing⟩
        exact ⟨hin, hmissing⟩

/-- A range that begins behind the cursor ends a gap there. -/
theorem ExactGaps.push
    {off len : Nat} {gaps : List Gap} (hoff : cursor < off)
    (hfirst : ∀ r ∈ ranges, off ≤ r.1)
    (hend : off = total ∨ off < total ∧ Confirmed ((off, len) :: ranges) off)
    (h : ExactGaps (max cursor (off + len)) total ranges gaps) :
    ExactGaps cursor total ((off, len) :: ranges)
      (⟨cursor, off - cursor⟩ :: gaps) := by
  have hlater : ∀ g ∈ gaps, off < g.offset := by
    intro g hg
    have hin := h.inside g hg
    have hpos := h.nonempty g hg
    by_contra hle
    have hlen : len = 0 ∧ g.offset = off := by omega
    rcases hend with htotal | ⟨-, hconfirmed⟩
    · omega
    · have hmissing := ((h.exact off (by omega)).mp
        ⟨g, hg, by omega, by omega⟩).2
      rw [confirmed_cons] at hconfirmed
      exact hmissing (hconfirmed.resolve_left (by dsimp only; omega))
  refine ⟨?_, ?_, List.pairwise_cons.mpr ⟨?_, h.apart⟩, fun b hb => ?_⟩
  · rw [List.forall_mem_cons]
    exact ⟨by dsimp only; omega, h.nonempty⟩
  · rw [List.forall_mem_cons]
    refine ⟨by dsimp only; omega, fun g hg => ?_⟩
    have hin := h.inside g hg
    omega
  · intro g hg
    have hlt := hlater g hg
    dsimp only
    omega
  · rw [List.exists_mem_cons_iff, confirmed_cons]
    dsimp only [Gap.Has]
    rcases Nat.lt_or_ge b off with hlt | hge
    · -- in the gap, before all ranges that are left
      constructor
      · intro _
        refine ⟨by omega, ?_⟩
        rintro (hin | ⟨r, hr, hin⟩)
        · omega
        · have hle := hfirst r hr
          omega
      · intro _
        exact Or.inl (by omega)
    · rcases Nat.lt_or_ge b (off + len) with hin | hbehind
      · constructor
        · rintro (hin' | ⟨g, hg, hhas, -⟩)
          · omega
          · have hin' := h.inside g hg
            omega
        · rintro ⟨-, hnot⟩
          exact absurd (Or.inl ⟨hge, hin⟩) hnot
      · have hexact := h.exact b (by omega)
        dsimp only [Gap.Has] at hexact
        constructor
        · rintro (hin | hg)
          · omega
          · obtain ⟨hin, hmissing⟩ := hexact.mp hg
            exact ⟨hin, fun hor => hor.elim (by omega) hmissing⟩
        · rintro ⟨hin, hnot⟩
          exact Or.inr (hexact.mpr ⟨hin, fun hc => hnot (Or.inr hc)⟩)

/-- Where no range ends a gap wrongly, the sweep finds exactly what is missing. -/
theorem sweepGaps_exact
    (hsorted : ranges.Pairwise (fun r r' => r.1 ≤ r'.1))
    (hends : EndsGaps cursor total ranges) :
    ExactGaps cursor total ranges (sweepGaps total cursor ranges) := by
  induction ranges generalizing cursor with
  | nil =>
      unfold sweepGaps
      by_cases hcursor : cursor < total
      · rw [if_pos hcursor]
        refine ⟨?_, ?_, List.pairwise_singleton _ _, ?_⟩
        · simp
          omega
        · simp
          omega
        · intro b hb
          simp [Gap.Has, Confirmed]
          omega
      · rw [if_neg hcursor]
        refine ⟨by simp, by simp, List.Pairwise.nil, ?_⟩
        intro b hb
        simp [Confirmed]
        omega
  | cons first ranges ih =>
      obtain ⟨off, len⟩ := first
      obtain ⟨hfirst, hsorted⟩ := List.pairwise_cons.mp hsorted
      dsimp only at hfirst
      have hrest : EndsGaps (max cursor (off + len)) total ranges := by
        intro r hr hlt hmissing
        have hends' := hends r (List.mem_cons_of_mem _ hr) (by omega) (by
          rw [confirmed_cons, not_or]
          exact ⟨by dsimp only; omega, hmissing⟩)
        rw [confirmed_cons] at hends'
        dsimp only at hends'
        refine hends'.imp id (fun h => ⟨h.1, h.2.resolve_left ?_⟩)
        omega
      have hsweep := ih hsorted hrest
      unfold sweepGaps
      by_cases hoff : cursor < off
      · rw [if_pos hoff]
        refine hsweep.push hoff hfirst (hends (off, len) List.mem_cons_self hoff ?_)
        rw [confirmed_cons, not_or]
        refine ⟨by dsimp only; omega, ?_⟩
        rintro ⟨r, hr, hin⟩
        have hle := hfirst r hr
        dsimp only at hin
        omega
      · rw [if_neg hoff]
        exact hsweep.skip (Nat.not_lt.mp hoff)

/-- Two gaps do not touch. -/
theorem ExactGaps.apart_of_ne
    {gaps : List Gap} (h : ExactGaps start total confirmed gaps)
    {g g' : Gap} (hg : g ∈ gaps) (hg' : g' ∈ gaps) (hne : g ≠ g') :
    g.offset + g.len < g'.offset ∨ g'.offset + g'.len < g.offset := by
  have hsymm : Std.Symm (fun g g' : Gap =>
      g.offset + g.len < g'.offset ∨ g'.offset + g'.len < g.offset) :=
    ⟨fun _ _ h => h.symm⟩
  have hpairwise : gaps.Pairwise (fun g g' : Gap =>
      g.offset + g.len < g'.offset ∨ g'.offset + g'.len < g.offset) :=
    h.apart.imp Or.inl
  exact hpairwise.forall hg hg' hne

/-- What an exact list of gaps says of the ends of its gaps. -/
theorem ExactGaps.endsGaps
    {gaps : List Gap} (h : ExactGaps start total confirmed gaps)
    (hgaps : ∀ r ∈ confirmed, start < r.1 → ¬ Confirmed confirmed (r.1 - 1) →
      ∃ g ∈ gaps, 0 < g.len ∧ g.offset + g.len = r.1) :
    EndsGaps start total confirmed := by
  intro r hr hstart hmissing
  obtain ⟨g, hg, hpos, hend⟩ := hgaps r hr hstart hmissing
  have hin := h.inside g hg
  rcases Nat.lt_or_eq_of_le (hend ▸ hin.2) with hlt | heq
  · right
    refine ⟨hlt, ?_⟩
    by_contra hnot
    -- the byte behind the gap would be in a gap that touches it
    obtain ⟨g', hg', hhas⟩ := (h.exact r.1 hstart.le).mpr ⟨hlt, hnot⟩
    unfold Gap.Has at hhas
    have hne : g ≠ g' := by
      rintro rfl
      omega
    have hapart := h.apart_of_ne hg hg' hne
    omega
  · exact Or.inl heq

/--
The gaps are in order, apart from each other, and exactly what is not confirmed, if
and only if every range that begins behind a missing byte begins at the end of the
file, or in the file and with a byte.
-/
theorem gapsFromConfirmed_exact_iff (confirmed : List (Nat × Nat)) (total : Nat) :
    ExactGaps 0 total confirmed (gapsFromConfirmed confirmed total) ↔
      EndsGaps 0 total confirmed := by
  have hperm := List.perm_insertionSort (fun r r' : Nat × Nat => r.1 ≤ r'.1) confirmed
  have hsorted : (confirmed.insertionSort
      (fun r r' => r.1 ≤ r'.1)).Pairwise (fun r r' => r.1 ≤ r'.1) :=
    List.pairwise_insertionSort _ _
  have hconfirmed : ∀ b, Confirmed (confirmed.insertionSort (fun r r' => r.1 ≤ r'.1)) b ↔
      Confirmed confirmed b := fun b => Confirmed.of_perm hperm
  constructor
  · intro hexact
    refine hexact.endsGaps ?_
    intro r hr hstart hmissing
    refine sweepGaps_ends hsorted (hperm.mem_iff.mpr hr) hstart ?_
    rwa [hconfirmed]
  · intro hends
    have hends' : EndsGaps 0 total
        (confirmed.insertionSort (fun r r' => r.1 ≤ r'.1)) := by
      intro r hr hstart hmissing
      rw [hconfirmed] at hmissing ⊢
      exact hends r (hperm.mem_iff.mp hr) hstart hmissing
    have hsweep := sweepGaps_exact hsorted hends'
    exact ⟨hsweep.nonempty, hsweep.inside, hsweep.apart,
      fun b hb => (hsweep.exact b hb).trans (by rw [hconfirmed])⟩

/-- A range past the end, and a range without bytes in the middle of a gap. -/
theorem gapsFromConfirmed_inexact :
    ¬ ExactGaps 0 8 [(10, 5)] (gapsFromConfirmed [(10, 5)] 8) ∧
      ¬ ExactGaps 0 8 [(4, 0)] (gapsFromConfirmed [(4, 0)] 8) := by
  constructor
  · intro h
    have hin := h.inside ⟨0, 10⟩ (by decide)
    exact absurd hin.2 (by decide)
  · intro h
    have hfirst : (⟨0, 4⟩ : Gap) ∈ gapsFromConfirmed [(4, 0)] 8 := by decide
    have hsecond : (⟨4, 4⟩ : Gap) ∈ gapsFromConfirmed [(4, 0)] 8 := by decide
    exact absurd (h.apart_of_ne hfirst hsecond (by decide)) (by decide)

end Gaps

section Sizes

/-- The `clamp` of `u64` stops the program if its bounds are the wrong way round. -/
def ChunkSizer.boundsInOrder (sizer : ChunkSizer) : Bool :=
  max sizer.plan.baseUnit 1 ≤ max sizer.plan.maxRequestSize sizer.plan.baseUnit

inductive SizerEvent where
  | success (bytes target : Nat)
  | failure
  deriving DecidableEq, Repr

/-- `on_success` and `on_failure`; `none` is a stop of the program. -/
def ChunkSizer.step (sizer : ChunkSizer) : SizerEvent → Option ChunkSizer
  | .success bytes target =>
      if sizer.boundsInOrder then some (sizer.onSuccess bytes target) else none
  | .failure =>
      if sizer.boundsInOrder then some sizer.onFailure else none

/-- The loop of `split_gap` as it is written; `none` is a loop that is not done yet. -/
def splitGapWithin (size total stop : Nat) : Nat → Nat → Option (List Gap)
  | 0, offset => if offset < stop then none else some []
  | fuel + 1, offset =>
      if offset < stop then
        let len := min size (stop - offset)
        let aligned := len / max size 1 * max size 1
        let len := if offset + len < total ∧ 0 < aligned then aligned else len
        (splitGapWithin size total stop fuel (offset + len)).map (⟨offset, len⟩ :: ·)
      else
        some []

/-- Where a gap ends, as a `u64`. -/
def Gap.stop (gap : Gap) : Nat :=
  (gap.offset + gap.len) % 2 ^ 64

/-- The pieces lie one behind the other, from the start to the end. -/
def Tiles (start stop : Nat) : List Gap → Prop
  | [] => start = stop
  | piece :: pieces =>
      piece.offset = start ∧ 0 < piece.len ∧ start + piece.len ≤ stop ∧
        Tiles (start + piece.len) stop pieces

/-- `split_gap` comes to its end, with pieces that make up the gap. -/
def SplitsExactly (gap : Gap) (size total : Nat) : Prop :=
  ∃ fuel pieces, splitGapWithin size total gap.stop fuel gap.offset = some pieces ∧
    Tiles gap.offset (gap.offset + gap.len) pieces

/-- A size on the grid, in the bounds, that one step does not raise too far. -/
structure ChunkSizer.Sound (sizer : ChunkSizer) : Prop where
  pos : 0 < sizer.next
  grid : sizer.plan.baseUnit ∣ sizer.next
  low : sizer.plan.baseUnit ≤ sizer.next
  high : sizer.next ≤ max sizer.plan.maxRequestSize sizer.plan.baseUnit
  grows : ∀ bytes target sizer', sizer.step (.success bytes target) = some sizer' →
    sizer'.next ≤ max sizer.plan.baseUnit (4 * bytes)
  shrinks : ∀ sizer', sizer.step .failure = some sizer' → sizer'.next ≤ sizer.next

/-- The first size of the plan is on its grid and in its bounds. -/
def UploadPlan.aligned (plan : UploadPlan) : Prop :=
  0 < plan.baseUnit ∧
    (plan.initialRequestSize ≤ plan.baseUnit ∨
      plan.baseUnit ∣ plan.initialRequestSize ∧
        plan.initialRequestSize ≤ plan.maxRequestSize)

instance (plan : UploadPlan) : Decidable plan.aligned :=
  inferInstanceAs (Decidable (_ ∧ _))

variable {sizer : ChunkSizer} {size total stop : Nat}

/-- A clamped size is on the grid, in the bounds and no more than what was wanted. -/
theorem ChunkSizer.clamp_spec (hbase : 0 < sizer.plan.baseUnit) (want : Nat) :
    0 < sizer.clamp want ∧ sizer.plan.baseUnit ∣ sizer.clamp want ∧
      sizer.plan.baseUnit ≤ sizer.clamp want ∧
      sizer.clamp want ≤ max sizer.plan.maxRequestSize sizer.plan.baseUnit ∧
      sizer.clamp want ≤ max sizer.plan.baseUnit want := by
  have hunit : max sizer.plan.baseUnit 1 = sizer.plan.baseUnit := by omega
  unfold ChunkSizer.clamp
  dsimp only
  rw [hunit]
  generalize hwant : max sizer.plan.baseUnit
    (min want (max sizer.plan.maxRequestSize sizer.plan.baseUnit)) = bounded
  have hfloor : bounded / sizer.plan.baseUnit * sizer.plan.baseUnit ≤ bounded :=
    Nat.div_mul_le_self _ _
  have hgrid : sizer.plan.baseUnit ∣
      max (bounded / sizer.plan.baseUnit * sizer.plan.baseUnit) sizer.plan.baseUnit := by
    rcases Nat.le_total sizer.plan.baseUnit
      (bounded / sizer.plan.baseUnit * sizer.plan.baseUnit) with h | h
    · rw [Nat.max_eq_left h]
      exact Nat.dvd_mul_left _ _
    · exact (Nat.max_eq_right h).symm ▸ Nat.dvd_refl _
  refine ⟨?_, hgrid, ?_, ?_, ?_⟩
  · omega
  · omega
  · omega
  · omega

/-- A size on the grid and in the bounds is sound, whatever comes next. -/
theorem ChunkSizer.sound_of_bounds
    (hbase : 0 < sizer.plan.baseUnit) (hgrid : sizer.plan.baseUnit ∣ sizer.next)
    (hlow : sizer.plan.baseUnit ≤ sizer.next)
    (hhigh : sizer.next ≤ max sizer.plan.maxRequestSize sizer.plan.baseUnit) :
    sizer.Sound where
  pos := Nat.lt_of_lt_of_le hbase hlow
  grid := hgrid
  low := hlow
  high := hhigh
  grows := by
    intro bytes target sizer' hstep
    change (if sizer.boundsInOrder then some (sizer.onSuccess bytes target)
      else none) = some sizer' at hstep
    split at hstep
    · cases hstep
      have hclamp := (clamp_spec hbase (min target (bytes * 4))).2.2.2.2
      change sizer.clamp (min target (bytes * 4)) ≤ _
      omega
    · cases hstep
  shrinks := by
    intro sizer' hstep
    change (if sizer.boundsInOrder then some sizer.onFailure else none) =
      some sizer' at hstep
    split at hstep
    · cases hstep
      have hclamp := (clamp_spec hbase
        (max (sizer.next / 2) sizer.plan.baseUnit)).2.2.2.2
      change sizer.clamp (max (sizer.next / 2) sizer.plan.baseUnit) ≤ _
      omega
    · cases hstep

/-- A step keeps the plan and takes the size back to the grid. -/
theorem ChunkSizer.sound_step
    (sizer : ChunkSizer) (hbase : 0 < sizer.plan.baseUnit) (e : SizerEvent) :
    ∃ sizer', sizer.step e = some sizer' ∧ sizer'.plan = sizer.plan ∧
      sizer'.Sound := by
  have horder : sizer.boundsInOrder = true := by
    unfold ChunkSizer.boundsInOrder
    rw [decide_eq_true_eq]
    omega
  have hsound : ∀ want, ChunkSizer.Sound { sizer with next := sizer.clamp want } := by
    intro want
    obtain ⟨-, hgrid, hlow, hhigh, -⟩ := clamp_spec hbase want
    exact sound_of_bounds hbase hgrid hlow hhigh
  cases e with
  | success bytes target =>
      exact ⟨_, if_pos horder, rfl, hsound _⟩
  | failure =>
      exact ⟨_, if_pos horder, rfl, hsound _⟩

/-- Pieces of a positive size make up what is left of a gap. -/
theorem splitGapWithin_tiles (hsize : 0 < size) {fuel offset : Nat}
    (hoffset : offset ≤ stop) (hfuel : stop - offset ≤ fuel) :
    ∃ pieces, splitGapWithin size total stop fuel offset = some pieces ∧
      Tiles offset stop pieces := by
  induction fuel generalizing offset with
  | zero =>
      refine ⟨[], if_neg (by omega), ?_⟩
      show offset = stop
      omega
  | succ fuel ih =>
      unfold splitGapWithin
      by_cases hlt : offset < stop
      · have hpos : 0 < min size (stop - offset) := by omega
        have hnext : offset + min size (stop - offset) ≤ stop := by omega
        obtain ⟨pieces, hpieces, htiles⟩ := ih hnext (by omega)
        rw [if_pos hlt]
        dsimp only
        rw [piece_aligned hsize, hpieces, Option.map_some]
        exact ⟨_, rfl, rfl, hpos, by dsimp only; omega, htiles⟩
      · refine ⟨[], if_neg hlt, ?_⟩
        show offset = stop
        omega

/-- With a size of zero the loop does not get ahead. -/
theorem splitGapWithin_zero {fuel offset : Nat} (hoffset : offset < stop) :
    splitGapWithin 0 total stop fuel offset = none := by
  induction fuel with
  | zero =>
      exact if_pos hoffset
  | succ fuel ih =>
      unfold splitGapWithin
      rw [if_pos hoffset]
      simp [ih]

/-- A gap of `u64` values is split exactly if it does not end behind them. -/
theorem splitsExactly_iff {gap : Gap} (hsize : 0 < size) (hoffset : gap.offset < 2 ^ 64)
    (hlen : gap.len < 2 ^ 64) :
    SplitsExactly gap size total ↔ gap.offset + gap.len < 2 ^ 64 := by
  unfold SplitsExactly Gap.stop
  constructor
  · rintro ⟨fuel, pieces, hpieces, htiles⟩
    by_contra hwrap
    have hstop : ¬ gap.offset < (gap.offset + gap.len) % 2 ^ 64 := by omega
    have hnone : splitGapWithin size total ((gap.offset + gap.len) % 2 ^ 64) fuel
        gap.offset = some [] := by
      cases fuel with
      | zero => exact if_neg hstop
      | succ fuel => exact if_neg hstop
    rw [hnone] at hpieces
    cases hpieces
    change gap.offset = gap.offset + gap.len at htiles
    omega
  · intro hend
    rw [Nat.mod_eq_of_lt hend]
    have hle : gap.offset ≤ gap.offset + gap.len := Nat.le_add_right _ _
    exact ⟨_, splitGapWithin_tiles hsize hle (Nat.le_refl _)⟩

/-- Every size of every run is sound and splits the gap exactly. -/
def UploadPlan.KeepsToGrid (plan : UploadPlan) (gap : Gap) (total : Nat) : Prop :=
  ∀ es : List SizerEvent, ∃ sizer, es.foldlM ChunkSizer.step (.new plan) = some sizer ∧
    sizer.plan = plan ∧ sizer.Sound ∧ SplitsExactly gap sizer.next total

/-- The first size of an aligned plan is as sound as the later ones. -/
theorem UploadPlan.aligned_iff (plan : UploadPlan) :
    plan.aligned ↔ 0 < plan.baseUnit ∧ (ChunkSizer.new plan).Sound := by
  constructor
  · rintro ⟨hbase, hinitial⟩
    have hgrid : plan.baseUnit ∣ max plan.initialRequestSize plan.baseUnit := by
      rcases Nat.le_total plan.initialRequestSize plan.baseUnit with h | h
      · exact (Nat.max_eq_right h).symm ▸ Nat.dvd_refl _
      · rw [Nat.max_eq_left h]
        rcases hinitial with hle | ⟨hgrid, -⟩
        · exact Nat.le_antisymm hle h ▸ Nat.dvd_refl _
        · exact hgrid
    have hhigh : max plan.initialRequestSize plan.baseUnit ≤
        max plan.maxRequestSize plan.baseUnit := by
      omega
    exact ⟨hbase, ChunkSizer.sound_of_bounds hbase hgrid (Nat.le_max_right _ _) hhigh⟩
  · rintro ⟨hbase, hsound⟩
    refine ⟨hbase, ?_⟩
    have hgrid : plan.baseUnit ∣ max plan.initialRequestSize plan.baseUnit := hsound.grid
    have hhigh : max plan.initialRequestSize plan.baseUnit ≤
        max plan.maxRequestSize plan.baseUnit := hsound.high
    rcases Nat.le_total plan.initialRequestSize plan.baseUnit with h | h
    · exact Or.inl h
    · rw [Nat.max_eq_left h] at hgrid hhigh
      by_cases hle : plan.initialRequestSize ≤ plan.baseUnit
      · exact Or.inl hle
      · exact Or.inr ⟨hgrid, by omega⟩

/--
Every size that is handed out is on the grid and in the bounds, no step raises it too
far, and it splits the gap exactly: for the aligned plans and the gaps that end in the
`u64` values, and for no others.
-/
theorem chunkSizer_keeps_iff (plan : UploadPlan) (gap : Gap) (total : Nat)
    (hoffset : gap.offset < 2 ^ 64) (hlen : gap.len < 2 ^ 64) :
    plan.KeepsToGrid gap total ↔
      plan.aligned ∧ gap.offset + gap.len < 2 ^ 64 := by
  constructor
  · intro hkeeps
    obtain ⟨sizer, hrun, -, hsound, hsplits⟩ := hkeeps []
    cases hrun
    have hbase : 0 < plan.baseUnit := by
      have hgrid : plan.baseUnit ∣ (ChunkSizer.new plan).next := hsound.grid
      exact Nat.pos_of_dvd_of_pos hgrid hsound.pos
    exact ⟨plan.aligned_iff.mpr ⟨hbase, hsound⟩,
      (splitsExactly_iff hsound.pos hoffset hlen).mp hsplits⟩
  · rintro ⟨haligned, hend⟩ es
    obtain ⟨hbase, hfirst⟩ := plan.aligned_iff.mp haligned
    have hrun : ∀ sizer : ChunkSizer, sizer.plan = plan → sizer.Sound →
        ∃ sizer', es.foldlM ChunkSizer.step sizer = some sizer' ∧
          sizer'.plan = plan ∧ sizer'.Sound := by
      induction es with
      | nil =>
          intro sizer hplan hsound
          exact ⟨sizer, rfl, hplan, hsound⟩
      | cons e es ih =>
          intro sizer hplan hsound
          obtain ⟨next, hstep, hplan', hnext⟩ :=
            sizer.sound_step (by rwa [hplan]) e
          rw [List.foldlM_cons, hstep]
          exact ih next (hplan'.trans hplan) hnext
    obtain ⟨sizer, hsizer, hplan, hsound⟩ := hrun _ rfl hfirst
    exact ⟨sizer, hsizer, hplan, hsound,
      (splitsExactly_iff hsound.pos hoffset hlen).mpr hend⟩

/-- A plan whose first size is two units, in a gap of three. -/
theorem chunkSizer_keeps_two :
    UploadPlan.KeepsToGrid
      { baseUnit := 64, initialRequestSize := 128, maxRequestSize := 4096 }
      ⟨0, 192⟩ 200 :=
  (chunkSizer_keeps_iff _ _ _ (by decide) (by decide)).mpr (by decide)

/-- A first size off the grid, and one of zero, with which the loop never ends. -/
theorem chunkSizer_first_size :
    ¬ UploadPlan.KeepsToGrid
        { baseUnit := 64, initialRequestSize := 100, maxRequestSize := 4096 }
        ⟨0, 192⟩ 200 ∧
      ∀ fuel, splitGapWithin
        (ChunkSizer.new
          { baseUnit := 0, initialRequestSize := 0, maxRequestSize := 4096 }).next
        200 192 fuel 0 = none := by
  constructor
  · intro hkeeps
    obtain ⟨sizer, hrun, -, hsound, -⟩ := hkeeps []
    cases hrun
    exact absurd hsound.grid (by decide)
  · intro fuel
    exact splitGapWithin_zero (by decide)

end Sizes

end PrivchatSdk
