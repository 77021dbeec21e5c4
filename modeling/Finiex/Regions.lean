import Finiex.GapValidation
import Finiex.Lib.Spans

namespace Finiex.Regions

open Finiex.Types
open Finiex.Lib
open Finiex.Bars
open Finiex.Coverage
open Finiex.GapValidation

section Extraction

structure ContinuousRegion where
  start : Instant
  «end» : Instant
  followingGap : Option Gap
  precedingGap : Option Gap
  deriving DecidableEq

def ContinuousRegion.span (region : ContinuousRegion) : Instant × Instant :=
  (region.start, region.end)

/-- The regions between ascending gaps. A gap that ends a region starts behind the region's
start, so the region is not empty. -/
def regionsBetween (finalEnd : Instant) : Instant → Option Gap → List Gap → List ContinuousRegion
  | currentStart, precedingGap, [] =>
      if currentStart < finalEnd then [⟨currentStart, finalEnd, none, precedingGap⟩] else []
  | currentStart, precedingGap, gap :: gaps =>
      if gap.gapStart ≤ currentStart then regionsBetween finalEnd gap.gapEnd (some gap) gaps
      else ⟨currentStart, gap.gapStart, some gap, precedingGap⟩ ::
        regionsBetween finalEnd gap.gapEnd (some gap) gaps

def interruptingGaps (allowed : List GapCategory) (gaps : List Gap) : List Gap :=
  gaps.filter fun gap => decide (gap.category ∉ allowed)

/-- `_extract_full`; `none` stands for the one region without times of a report without bars. -/
def extractFull (allowed : List GapCategory) (report : DataCoverageReport) :
    Option (List ContinuousRegion) :=
  match report.startTime, report.endTime with
  | some start, some «end» =>
      if interruptingGaps allowed report.gaps = [] then some [⟨start, «end», none, none⟩]
      else some (regionsBetween «end» start none ((interruptingGaps allowed report.gaps).insertionSort
        fun gap later => gap.gapStart ≤ later.gapStart))
  | _, _ => none

/-- `_clip`: regions that are empty after it are dropped. -/
def clip (startTime endTime : Option Instant) (regions : List ContinuousRegion) :
    List ContinuousRegion :=
  regions.filterMap fun region =>
    let start := (startTime.map (max region.start)).getD region.start
    let «end» := (endTime.map (min region.end)).getD region.end
    if start < «end» then some { region with start := start, «end» := «end» } else none

def extract (allowed : List GapCategory) (report : DataCoverageReport)
    (startTime endTime : Option Instant) : Option (List ContinuousRegion) :=
  if startTime = none ∧ endTime = none then extractFull allowed report
  else (extractFull allowed report).map (clip startTime endTime)

end Extraction

section Pieces

variable {config : CoverageConfig} {closes : Bool}

def jumps (config : CoverageConfig) (bars : List Bar) : List (Instant × Instant) :=
  let timestamps := (bars.map Bar.timestamp).insertionSort (· ≤ ·)
  (timestamps.zip timestamps.tail).filter fun (prevTs, currTs) =>
    decide ((config.granularity.minutes * 60 * 2 : ℚ) < secondsBetween prevTs currTs)

def pieces (config : CoverageConfig) (closes : Bool) (jump : Instant × Instant) : List Gap :=
  (if closes then splitGapAtMarketBoundaries jump.1 jump.2 else [jump]).map
    (classified config.thresholds closes fun _ =>
      "detected via " ++ timeframeName config.granularity)

theorem detectGapsFromBars_eq (config : CoverageConfig) (closes : Bool) (bars : List Bar) :
    detectGapsFromBars config closes bars = (jumps config bars).flatMap (pieces config closes) :=
  rfl

def span (gap : Gap) : Instant × Instant := (gap.gapStart, gap.gapEnd)

theorem tiles_splitFrom {current «end» : Instant} (h : current ≤ «end») :
    Spans.Tiles «end» current (splitFrom «end» current) := by
  induction current using splitFrom.induct «end» with
  | case1 current hlt hstep ih =>
      rw [splitFrom, dif_pos hlt]
      exact ⟨rfl, hstep, ih segmentEnd_le⟩
  | case2 current hnot =>
      rw [splitFrom, dif_neg hnot]
      exact le_antisymm h (not_lt.mp hnot)

theorem tiles_pieces {jump : Instant × Instant} (h : jump.1 < jump.2) :
    Spans.Tiles jump.2 jump.1 ((pieces config closes jump).map span) := by
  have hspan (note : ℚ → String) : span ∘ classified config.thresholds closes note = id := rfl
  rw [pieces, List.map_map, hspan, List.map_id]
  have hwhole : Spans.Tiles jump.2 jump.1 [jump] := ⟨rfl, h, rfl⟩
  split
  · rw [splitGapAtMarketBoundaries]
    split
    · exact hwhole
    · exact tiles_splitFrom h.le
  · exact hwhole

end Pieces

section Bounds

variable {config : CoverageConfig} {closes : Bool} {allowed : List GapCategory}

theorem regionsBetween_spans (finalEnd start : Instant) (precedingGap : Option Gap)
    (gaps : List Gap) : (regionsBetween finalEnd start precedingGap gaps).map
      ContinuousRegion.span = Spans.complement finalEnd start (gaps.map span) := by
  induction gaps generalizing start precedingGap with
  | nil =>
      rw [regionsBetween, List.map_nil, Spans.complement]
      split <;> rfl
  | cons gap gaps ih =>
      rw [regionsBetween, List.map_cons, Spans.complement]
      by_cases hle : gap.gapStart ≤ start
      · rw [if_pos hle, if_pos (show (span gap).1 ≤ start from hle), ih]
        rfl
      · rw [if_neg hle, if_neg (show ¬(span gap).1 ≤ start from hle), List.map_cons, ih]
        rfl

/-- Ascending bars, at least two, by the first and the last of them. -/
structure Spread (bars : List Bar) (first last : Instant) : Prop where
  ascending : (bars.map Bar.timestamp).Pairwise (· < ·)
  head : (bars.map Bar.timestamp).head? = some first
  getLast : (bars.map Bar.timestamp).getLast? = some last
  lt : first < last

variable {bars : List Bar} {first last : Instant}

theorem Spread.times_inside (h : Spread bars first last) {t : Instant}
    (ht : t ∈ bars.map Bar.timestamp) : first ≤ t ∧ t ≤ last := by
  have hsorted := h.ascending.imp fun {a b : Instant} hlt => hlt.le
  obtain ⟨rest, hrest⟩ := List.head?_eq_some_iff.mp h.head
  obtain ⟨before, hbefore⟩ := List.getLast?_eq_some_iff.mp h.getLast
  constructor
  · rw [hrest] at ht hsorted
    rcases List.mem_cons.mp ht with rfl | hlater
    · exact le_refl _
    · exact (List.pairwise_cons.mp hsorted).1 t hlater
  · rw [hbefore] at ht hsorted
    rcases List.mem_append.mp ht with hearlier | hlast
    · exact (List.pairwise_append.mp hsorted).2.2 t hearlier last List.mem_cons_self
    · exact (List.mem_singleton.mp hlast).le

theorem Spread.several (h : Spread bars first last) : 2 ≤ bars.length := by
  obtain ⟨hhead, hlast, hlt⟩ := And.intro h.head (And.intro h.getLast h.lt)
  cases bars with
  | nil => cases hhead
  | cons bar bars =>
      cases bars with
      | nil =>
          cases hhead
          cases hlast
          exact absurd hlt (lt_irrefl _)
      | cons second bars => exact Nat.le_add_left 2 _

theorem Spread.exists_head (h : Spread bars first last) :
    ∃ bar, bars.head? = some bar ∧ bar.timestamp = first := by
  have hhead := h.head
  rw [List.head?_map] at hhead
  exact Option.map_eq_some_iff.mp hhead

theorem Spread.exists_getLast (h : Spread bars first last) :
    ∃ bar, bars.getLast? = some bar ∧ bar.timestamp = last := by
  have hlast := h.getLast
  rw [List.getLast?_map] at hlast
  exact Option.map_eq_some_iff.mp hlast

theorem Spread.first_mem (h : Spread bars first last) : first ∈ bars.map Bar.timestamp :=
  List.mem_of_mem_head? h.head

theorem Spread.last_mem (h : Spread bars first last) : last ∈ bars.map Bar.timestamp :=
  List.mem_of_getLast? h.getLast

theorem Spread.mem_jumps (h : Spread bars first last) {jump : Instant × Instant}
    (hjump : jump ∈ jumps config bars) :
    jump ∈ (bars.map Bar.timestamp).zip (bars.map Bar.timestamp).tail := by
  unfold jumps at hjump
  rw [(h.ascending.imp fun {a b : Instant} hlt => hlt.le).insertionSort_eq] at hjump
  exact (List.mem_filter.mp hjump).1

theorem Spread.jump_lt (h : Spread bars first last) {jump : Instant × Instant}
    (hjump : jump ∈ jumps config bars) : jump.1 < jump.2 :=
  Spans.rel_of_neighbours h.ascending (h.mem_jumps hjump)

theorem Spread.separate (config : CoverageConfig) (closes : Bool) (h : Spread bars first last) :
    Spans.Separate last first ((detectGapsFromBars config closes bars).map span) := by
  have hsorted := h.ascending.imp fun {a b : Instant} hlt => hlt.le
  rw [detectGapsFromBars_eq, List.map_flatMap]
  unfold jumps
  rw [hsorted.insertionSort_eq]
  obtain ⟨rest, hrest⟩ := List.head?_eq_some_iff.mp h.head
  have hlast := h.getLast
  have hascending := h.ascending
  rw [hrest] at hsorted hlast hascending ⊢
  refine Spans.separate_flatMap_neighbours hsorted hlast fun a b hmem _ => ?_
  have hboth : (a, b) ∈ (first :: rest).zip (first :: rest).tail := hmem
  have hlt : (a, b).1 < (a, b).2 := Spans.rel_of_neighbours hascending hboth
  exact (tiles_pieces hlt).separate

theorem Spread.separate_interrupting (config : CoverageConfig) (closes : Bool)
    (allowed : List GapCategory) (h : Spread bars first last) :
    Spans.Separate last first
      ((interruptingGaps allowed (detectGapsFromBars config closes bars)).map span) :=
  (h.separate config closes).sublist (List.filter_sublist.map span)

theorem Spread.extract_spans (config : CoverageConfig) (closes : Bool)
    (allowed : List GapCategory) (h : Spread bars first last) :
    ∃ regions, extract allowed (analyze config closes bars) none none = some regions ∧
      regions.map ContinuousRegion.span = Spans.complement last first
        ((interruptingGaps allowed (detectGapsFromBars config closes bars)).map span) := by
  obtain ⟨firstBar, hhead, hfirst⟩ := h.exists_head
  obtain ⟨lastBar, hlast, hfinal⟩ := h.exists_getLast
  have hseparate := h.separate_interrupting config closes allowed
  have hordered : (interruptingGaps allowed (detectGapsFromBars config closes bars)).Pairwise
      fun gap later => gap.gapStart ≤ later.gapStart := by
    refine List.Pairwise.imp_of_mem ?_ (List.pairwise_map.mp hseparate.pairwise)
    intro gap later hgap _ hle
    exact (hseparate.inside (List.mem_map_of_mem hgap)).2.1.le.trans hle
  unfold extract extractFull analyze
  simp only [hhead, hlast, Option.map_some, hfirst, hfinal, and_self, if_true]
  split
  · next hnone =>
      refine ⟨_, rfl, ?_⟩
      rw [hnone, List.map_nil, Spans.complement, if_pos h.lt]
      rfl
  · refine ⟨_, rfl, ?_⟩
    rw [hordered.insertionSort_eq]
    exact regionsBetween_spans _ _ _ _

end Bounds

section Data

variable {config : CoverageConfig} {closes : Bool} {allowed : List GapCategory} {bars : List Bar}
  {first last : Instant}

def interruptions (config : CoverageConfig) (closes : Bool) (allowed : List GapCategory)
    (bars : List Bar) : List Gap :=
  interruptingGaps allowed (analyze config closes bars).gaps

/-- Regions that are made of data: they follow one another, hold every bar that is not alone
between two interruptions, hold no interruption, and begin with a bar. -/
structure MadeOfData (interruptions : List Gap) (bars : List Bar)
    (regions : List ContinuousRegion) : Prop where
  chronological : regions.Pairwise fun region later => region.end < later.start
  nonempty : ∀ region ∈ regions, region.start < region.end
  covers : ∀ bar ∈ bars, ¬((∃ gap ∈ interruptions, gap.gapEnd = bar.timestamp) ∧
      ∃ gap ∈ interruptions, gap.gapStart = bar.timestamp) →
    ∃ region ∈ regions, region.start ≤ bar.timestamp ∧ bar.timestamp ≤ region.end
  uninterrupted : ∀ region ∈ regions, ∀ gap ∈ interruptions,
    gap.gapEnd ≤ region.start ∨ region.end ≤ gap.gapStart
  begins : ∀ region ∈ regions, ∃ bar ∈ bars, bar.timestamp = region.start

/-- Neither the first nor the last bar is cut off from the rest, and a jump is not cut into an
interruption and an allowed gap behind it. -/
structure CutWhole (config : CoverageConfig) (closes : Bool) (allowed : List GapCategory)
    (bars : List Bar) : Prop where
  several : 2 ≤ bars.length
  first : ∀ bar ∈ bars.head?, ∀ gap ∈ interruptions config closes allowed bars,
    gap.gapStart ≠ bar.timestamp
  last : ∀ bar ∈ bars.getLast?, ∀ gap ∈ interruptions config closes allowed bars,
    gap.gapEnd ≠ bar.timestamp
  unbroken : ∀ jump ∈ jumps config bars, ∀ gap next,
    (gap, next) ∈ (pieces config closes jump).zip (pieces config closes jump).tail →
      gap.category ∉ allowed → next.category ∉ allowed

theorem spread_of_several (hascending : (bars.map Bar.timestamp).Pairwise (· < ·))
    (hseveral : 2 ≤ bars.length) : ∃ first last, Spread bars first last := by
  cases bars with
  | nil => cases hseveral
  | cons bar bars =>
      cases hlast : bars.getLast? with
      | none =>
          rw [List.getLast?_eq_none_iff.mp hlast, List.length_singleton] at hseveral
          exact absurd hseveral (by decide)
      | some final =>
          refine ⟨bar.timestamp, final.timestamp, hascending, rfl, ?_, ?_⟩
          · rw [List.getLast?_map, List.getLast?_cons, hlast]
            rfl
          · exact (List.pairwise_cons.mp hascending).1 _
              (List.mem_map_of_mem (List.mem_of_getLast? hlast))

theorem Spread.piece_inside (h : Spread bars first last) {jump : Instant × Instant}
    (hjump : jump ∈ jumps config bars) {gap : Gap} (hgap : gap ∈ pieces config closes jump) :
    jump.1 ≤ gap.gapStart ∧ gap.gapStart < gap.gapEnd ∧ gap.gapEnd ≤ jump.2 :=
  (tiles_pieces (h.jump_lt hjump)).separate.inside (List.mem_map_of_mem hgap)

theorem Spread.bar_apart (h : Spread bars first last) {gap : Gap}
    (hgap : gap ∈ detectGapsFromBars config closes bars) {t : Instant}
    (ht : t ∈ bars.map Bar.timestamp) : t ≤ gap.gapStart ∨ gap.gapEnd ≤ t := by
  rw [detectGapsFromBars_eq] at hgap
  obtain ⟨jump, hjump, hpiece⟩ := List.mem_flatMap.mp hgap
  obtain ⟨hlow, -, hhigh⟩ := h.piece_inside hjump hpiece
  have hsorted := h.ascending.imp fun {a b : Instant} hlt => hlt.le
  rcases Spans.apart_of_neighbours hsorted (h.mem_jumps hjump) ht with hle | hge
  · exact .inl (hle.trans hlow)
  · exact .inr (hhigh.trans hge)

theorem Spread.covers_iff (config : CoverageConfig) (closes : Bool) (allowed : List GapCategory)
    (h : Spread bars first last) :
    (∀ bar ∈ bars,
      ¬((∃ gap ∈ interruptions config closes allowed bars, gap.gapEnd = bar.timestamp) ∧
        ∃ gap ∈ interruptions config closes allowed bars, gap.gapStart = bar.timestamp) →
      ∃ region ∈ Spans.complement last first
        ((interruptions config closes allowed bars).map span),
          region.1 ≤ bar.timestamp ∧ bar.timestamp ≤ region.2) ↔
      (∀ gap ∈ interruptions config closes allowed bars, gap.gapStart ≠ first) ∧
        ∀ gap ∈ interruptions config closes allowed bars, gap.gapEnd ≠ last := by
  have hseparate : Spans.Separate last first
      ((interruptions config closes allowed bars).map span) :=
    h.separate_interrupting config closes allowed
  have hinside : ∀ gap ∈ interruptions config closes allowed bars,
      first ≤ gap.gapStart ∧ gap.gapStart < gap.gapEnd ∧ gap.gapEnd ≤ last := fun gap hgap =>
    hseparate.inside (List.mem_map_of_mem hgap)
  simp only [Spans.covered_complement_iff hseparate, List.mem_map, exists_exists_and_eq_and,
    forall_exists_index, and_imp, forall_apply_eq_imp_iff₂, span]
  constructor
  · intro hcovers
    constructor
    · intro gap hgap hstart
      obtain ⟨bar, hbar, hfirst⟩ := List.mem_map.mp h.first_mem
      obtain ⟨-, -, -, halone⟩ := hcovers bar hbar (by
        rintro ⟨⟨gap', hgap', hend⟩, -⟩
        obtain ⟨hlow, hlt, -⟩ := hinside gap' hgap'
        exact absurd (hend.trans hfirst) (hlow.trans_lt hlt).ne')
      exact halone ⟨.inl hfirst, .inr ⟨gap, hgap, hstart.trans hfirst.symm⟩⟩
    · intro gap hgap hend
      obtain ⟨bar, hbar, hlast⟩ := List.mem_map.mp h.last_mem
      obtain ⟨-, -, -, halone⟩ := hcovers bar hbar (by
        rintro ⟨-, ⟨gap', hgap', hstart⟩⟩
        obtain ⟨-, hlt, hhigh⟩ := hinside gap' hgap'
        exact absurd (hstart.trans hlast) (hlt.trans_le hhigh).ne)
      exact halone ⟨.inr ⟨gap, hgap, hend.trans hlast.symm⟩, .inl hlast⟩
  · rintro ⟨hfirst, hlast⟩ bar hbar hnot
    have htime := List.mem_map_of_mem (f := Bar.timestamp) hbar
    obtain ⟨hlow, hhigh⟩ := h.times_inside htime
    refine ⟨hlow, hhigh, fun gap hgap => h.bar_apart (List.mem_filter.mp hgap).1 htime, ?_⟩
    rintro ⟨hstop | ⟨gap, hgap, hend⟩, hstop' | ⟨gap', hgap', hstart⟩⟩
    · exact h.lt.ne (hstop.symm.trans hstop')
    · exact hfirst gap' hgap' (hstart.trans hstop)
    · exact hlast gap hgap (hend.trans hstop')
    · exact hnot ⟨⟨gap, hgap, hend⟩, ⟨gap', hgap', hstart⟩⟩

/-- The regions begin with bars exactly if no jump is cut behind an interruption. -/
theorem Spread.begins_iff (config : CoverageConfig) (closes : Bool) (allowed : List GapCategory)
    (h : Spread bars first last) :
    (∀ region ∈ Spans.complement last first
      ((interruptions config closes allowed bars).map span),
        region.1 ∈ bars.map Bar.timestamp) ↔
      ∀ jump ∈ jumps config bars, ∀ gap next,
        (gap, next) ∈ (pieces config closes jump).zip (pieces config closes jump).tail →
          gap.category ∉ allowed → next.category ∉ allowed := by
  have hseparate : Spans.Separate last first
      ((interruptions config closes allowed bars).map span) :=
    h.separate_interrupting config closes allowed
  have hstarts : ∀ {x : Instant}, (∃ region ∈ Spans.complement last first
      ((interruptions config closes allowed bars).map span), region.1 = x) ↔
        (x = first ∨ ∃ gap ∈ interruptions config closes allowed bars, gap.gapEnd = x) ∧
          x < last ∧ ∀ gap ∈ interruptions config closes allowed bars, gap.gapStart ≠ x := by
    intro x
    simp only [Spans.starts_complement_iff hseparate, List.mem_map, exists_exists_and_eq_and,
      forall_exists_index, and_imp, forall_apply_eq_imp_iff₂, span]
  have hgap_of : ∀ {jump gap}, jump ∈ jumps config bars → gap ∈ pieces config closes jump →
      gap ∈ detectGapsFromBars config closes bars := fun {jump gap} hjump hgap =>
    List.mem_flatMap.mpr ⟨jump, hjump, hgap⟩
  constructor
  · intro hbegins jump hjump gap next hboth hinterrupts hallowed
    have hgap := (List.of_mem_zip hboth).1
    have hnext := List.mem_of_mem_tail (List.of_mem_zip hboth).2
    have hmeet : gap.gapEnd = next.gapStart := (tiles_pieces (h.jump_lt hjump)).meet hboth
    obtain ⟨hlow, hlt, -⟩ := h.piece_inside hjump hgap
    obtain ⟨-, hlt', hhigh⟩ := h.piece_inside hjump hnext
    have hbefore : gap.gapEnd < jump.2 := hmeet ▸ hlt'.trans_le hhigh
    have hjump_last : jump.2 ≤ last :=
      (h.times_inside (List.mem_of_mem_tail (List.of_mem_zip (h.mem_jumps hjump)).2)).2
    -- the allowed gap is the only one that starts there
    have honly : ∀ other ∈ interruptions config closes allowed bars,
        other.gapStart ≠ gap.gapEnd := by
      intro other hother hstart
      have hdistinct : (detectGapsFromBars config closes bars).Pairwise
          fun gap later => gap.gapStart < later.gapStart := by
        refine List.Pairwise.imp_of_mem ?_ (List.pairwise_map.mp
          (h.separate config closes).pairwise)
        intro gap later hgap _ hle
        exact ((h.separate config closes).inside (List.mem_map_of_mem hgap)).2.1.trans_le hle
      have hsame : other = next := by
        have hnodup : ((detectGapsFromBars config closes bars).map Gap.gapStart).Nodup :=
          (List.pairwise_map.mpr hdistinct).imp fun hlt => hlt.ne
        exact List.inj_on_of_nodup_map hnodup (List.mem_filter.mp hother).1
          (hgap_of hjump hnext) (hstart.trans hmeet)
      rw [hsame] at hother
      exact of_decide_eq_true (List.mem_filter.mp hother).2 hallowed
    obtain ⟨region, hregion, hstart⟩ := hstarts.mpr
      ⟨.inr ⟨gap, List.mem_filter.mpr ⟨hgap_of hjump hgap, decide_eq_true hinterrupts⟩, rfl⟩,
        hbefore.trans_le hjump_last, honly⟩
    have hbar := hbegins region hregion
    rw [hstart] at hbar
    have hsorted := h.ascending.imp fun {a b : Instant} hlt => hlt.le
    rcases Spans.apart_of_neighbours hsorted (h.mem_jumps hjump) hbar with hle | hge
    · exact absurd (hlow.trans_lt hlt) (not_lt.mpr hle)
    · exact absurd hbefore (not_lt.mpr hge)
  · intro hunbroken region hregion
    obtain ⟨hstart | ⟨gap, hgap, hend⟩, -, hfree⟩ := hstarts.mp ⟨region, hregion, rfl⟩
    · rw [hstart]
      exact h.first_mem
    · obtain ⟨hmem, hinterrupts⟩ := List.mem_filter.mp hgap
      obtain ⟨jump, hjump, hpiece⟩ := List.mem_flatMap.mp hmem
      rcases (tiles_pieces (h.jump_lt hjump)).next hpiece with hlast | ⟨next, hboth⟩
      · rw [← hend, show gap.gapEnd = jump.2 from hlast]
        exact List.mem_of_mem_tail (List.of_mem_zip (h.mem_jumps hjump)).2
      · -- the next piece of the jump would interrupt as well
        have hmeet : gap.gapEnd = next.gapStart := (tiles_pieces (h.jump_lt hjump)).meet hboth
        have hnext := List.mem_of_mem_tail (List.of_mem_zip hboth).2
        have hinterrupts' := hunbroken jump hjump gap next hboth (of_decide_eq_true hinterrupts)
        refine absurd (hmeet.symm.trans hend) (hfree next (List.mem_filter.mpr ⟨?_, ?_⟩))
        · exact hgap_of hjump hnext
        · exact decide_eq_true hinterrupts'

theorem Spread.made_iff (h : Spread bars first last) {regions : List ContinuousRegion}
    (hspans : regions.map ContinuousRegion.span = Spans.complement last first
      ((interruptions config closes allowed bars).map span)) :
    MadeOfData (interruptions config closes allowed bars) bars regions ↔
      CutWhole config closes allowed bars := by
  have hseparate : Spans.Separate last first
      ((interruptions config closes allowed bars).map span) :=
    h.separate_interrupting config closes allowed
  have hcovers := h.covers_iff config closes allowed
  have hbegins := h.begins_iff config closes allowed
  rw [← hspans] at hcovers hbegins
  simp only [List.mem_map, exists_exists_and_eq_and, forall_exists_index, and_imp,
    forall_apply_eq_imp_iff₂] at hcovers hbegins
  obtain ⟨firstBar, hhead, hfirst⟩ := h.exists_head
  obtain ⟨lastBar, hlast, hfinal⟩ := h.exists_getLast
  have hregions : ∀ region ∈ regions, region.span ∈ Spans.complement last first
      ((interruptions config closes allowed bars).map span) := by
    intro region hregion
    rw [← hspans]
    exact List.mem_map_of_mem hregion
  constructor
  · intro hmade
    obtain ⟨hstarts, hends⟩ := hcovers.mp hmade.covers
    refine ⟨h.several, ?_, ?_, hbegins.mp hmade.begins⟩
    · intro bar hbar gap hgap
      cases hhead.symm.trans hbar
      exact hfirst ▸ hstarts gap hgap
    · intro bar hbar gap hgap
      cases hlast.symm.trans hbar
      exact hfinal ▸ hends gap hgap
  · intro hwhole
    refine ⟨?_, fun region hregion => ?_, hcovers.mpr ⟨?_, ?_⟩, fun region hregion gap hgap => ?_,
      hbegins.mpr hwhole.unbroken⟩
    · have hordered := Spans.complement_pairwise hseparate
      rw [← hspans] at hordered
      exact List.pairwise_map.mp hordered
    · exact (Spans.complement_inside hseparate (hregions region hregion)).2.1
    · exact hfirst ▸ hwhole.first firstBar hhead
    · exact hfinal ▸ hwhole.last lastBar hlast
    · exact Spans.complement_apart hseparate (hregions region hregion) (List.mem_map_of_mem hgap)

/-- The regions of ascending bars are made of data exactly if the jumps are cut whole. -/
theorem madeOfData_iff (config : CoverageConfig) (closes : Bool) (allowed : List GapCategory)
    (bars : List Bar) (hascending : (bars.map Bar.timestamp).Pairwise (· < ·)) :
    (∃ regions, extract allowed (analyze config closes bars) none none = some regions ∧
      MadeOfData (interruptions config closes allowed bars) bars regions) ↔
      CutWhole config closes allowed bars := by
  rcases lt_or_ge bars.length 2 with hfew | hseveral
  · refine iff_of_false ?_ fun hwhole => absurd hwhole.several (not_le.mpr hfew)
    rintro ⟨regions, hextract, hmade⟩
    cases bars with
    | nil => cases hextract
    | cons bar bars =>
        cases bars with
        | nil =>
            have hsingle : extract allowed (analyze config closes [bar]) none none =
                some [⟨bar.timestamp, bar.timestamp, none, none⟩] := rfl
            rw [hsingle] at hextract
            cases hextract
            exact lt_irrefl _ (hmade.nonempty _ List.mem_cons_self)
        | cons second bars => exact absurd hfew (not_lt.mpr (Nat.le_add_left 2 _))
  · obtain ⟨first, last, h⟩ := spread_of_several hascending hseveral
    obtain ⟨regions, hextract, hspans⟩ := h.extract_spans config closes allowed
    rw [hextract]
    simp only [Option.some.injEq, exists_eq_left', h.made_iff hspans]

def barAt (day minute : ℤ) : Bar where
  symbol := "EURUSD"
  timeframe := .m5
  timestamp := atHour day 0 + minute * microsecondsPerMinute

/-- Two bars of a Tuesday and, after an outage, two of the Wednesday of the next week. -/
def outageBars : List Bar := [barAt 19731 0, barAt 19731 5, barAt 19739 0, barAt 19739 5]

def usuallyAllowed : List GapCategory := [.weekend, .holiday, .seamless, .short]

theorem madeOfData_outage :
    (∃ regions, extract usuallyAllowed (analyze {} true outageBars) none none = some regions ∧
      MadeOfData (interruptions {} true usuallyAllowed outageBars) outageBars regions) ↔
      CutWhole {} true usuallyAllowed outageBars :=
  madeOfData_iff {} true usuallyAllowed outageBars (by decide +kernel)

theorem weekend_in_outage :
    ¬∀ (config : CoverageConfig) (closes : Bool) (allowed : List GapCategory) (bars : List Bar),
      (bars.map Bar.timestamp).Pairwise (· < ·) →
        ∃ regions, extract allowed (analyze config closes bars) none none = some regions ∧
          MadeOfData (interruptions config closes allowed bars) bars regions := by
  intro h
  obtain ⟨regions, hextract, hmade⟩ := h {} true usuallyAllowed outageBars (by decide +kernel)
  have hspans : (extract usuallyAllowed (analyze {} true outageBars) none none).map
      (List.map ContinuousRegion.start) = some [atHour 19731 0, atHour 19734 20, atHour 19739 0] := by
    decide +kernel
  rw [hextract, Option.map_some] at hspans
  have hstart : atHour 19734 20 ∈ regions.map ContinuousRegion.start := by
    rw [Option.some.inj hspans]
    decide
  obtain ⟨region, hregion, hfriday⟩ := List.mem_map.mp hstart
  obtain ⟨bar, hbar, hbegins⟩ := hmade.begins region hregion
  have hnone : ∀ bar ∈ outageBars, bar.timestamp ≠ atHour 19734 20 := by decide +kernel
  exact hnone bar hbar (hbegins.trans hfriday)

end Data

end Finiex.Regions
