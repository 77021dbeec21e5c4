import Finiex.Regions
import Mathlib.Data.List.Chain

namespace Finiex.GapSplitting

open Finiex.Types
open Finiex.Lib
open Finiex.Fees
open Finiex.Coverage
open Finiex.GapValidation
open Finiex.Regions

section Weeks

def fridayClose (week : ℤ) : ℤ := atHour (7 * week + 1) weekendClosure.fridayStartHour

def sundayOpen (week : ℤ) : ℤ := atHour (7 * week + 3) weekendClosure.sundayEndHour

theorem fridayClose_lt_sundayOpen (week : ℤ) : fridayClose week < sundayOpen week := by
  simp only [fridayClose, sundayOpen, atHour, weekendClosure, microsecondsPerDay,
    microsecondsPerHour]
  omega

theorem sundayOpen_lt_fridayClose (week : ℤ) : sundayOpen week < fridayClose (week + 1) := by
  simp only [fridayClose, sundayOpen, atHour, weekendClosure, microsecondsPerDay,
    microsecondsPerHour]
  omega

/-- Every instant is in the weekend of a week or in the trading week behind it. -/
theorem exists_week (t : ℤ) :
    ∃ week, (fridayClose week ≤ t ∧ t < sundayOpen week) ∨
      (sundayOpen week ≤ t ∧ t < fridayClose (week + 1)) := by
  refine ⟨(t - fridayClose 0) / (7 * microsecondsPerDay), ?_⟩
  simp only [fridayClose, sundayOpen, atHour, weekendClosure, microsecondsPerDay,
    microsecondsPerHour]
  omega

variable {t week : ℤ}

theorem weekend_boundary (hlow : fridayClose week ≤ t) (hhigh : t < sundayOpen week) :
    isInWeekendClosure t = true ∧ getWeekendEnd t = sundayOpen week := by
  obtain ⟨day, rest, ht, hrest, hrest', hday, hhour⟩ := exists_dayTime t
  simp only [fridayClose, sundayOpen, atHour, weekendClosure, microsecondsPerDay,
    microsecondsPerHour] at hlow hhigh
  simp only [isInWeekendClosure, sundayOpen, getWeekendEnd, hday, hhour, atHour, weekday,
    weekendClosure, microsecondsPerDay, microsecondsPerHour, Bool.or_eq_true, decide_eq_true_eq]
  constructor
  · omega
  · show (_ : ℤ) = _
    split
    · omega
    · split <;> omega

theorem tradingWeek_boundary (hlow : sundayOpen week ≤ t) (hhigh : t < fridayClose (week + 1)) :
    isInWeekendClosure t = false ∧ getNextFridayClose t = fridayClose (week + 1) := by
  obtain ⟨day, rest, ht, hrest, hrest', hday, hhour⟩ := exists_dayTime t
  simp only [fridayClose, sundayOpen, atHour, weekendClosure, microsecondsPerDay,
    microsecondsPerHour] at hlow hhigh
  simp only [isInWeekendClosure, fridayClose, getNextFridayClose, hday, hhour, atHour, weekday,
    weekendClosure, microsecondsPerDay, microsecondsPerHour, Bool.or_eq_false_iff,
    decide_eq_false_iff_not]
  constructor
  · omega
  · show (_ : ℤ) = _
    split <;> omega

theorem segmentEnd_weekend (hlow : fridayClose week ≤ t) (hhigh : t < sundayOpen week)
    (stop : ℤ) : segmentEnd t stop = min (sundayOpen week) stop := by
  obtain ⟨hclosed, hopen⟩ := weekend_boundary hlow hhigh
  rw [segmentEnd, if_pos hclosed, hopen]

theorem segmentEnd_tradingWeek (hlow : sundayOpen week ≤ t) (hhigh : t < fridayClose (week + 1))
    (stop : ℤ) : segmentEnd t stop = min (fridayClose (week + 1)) stop := by
  obtain ⟨hopen, hclose⟩ := tradingWeek_boundary hlow hhigh
  rw [segmentEnd, if_neg (by simp [hopen]), hclose]
  split
  · next hlt => exact (min_eq_left (le_of_lt hlt)).symm
  · next hge => exact (min_eq_right (not_lt.mp hge)).symm

end Weeks

section Segments

/-- Inside one weekend closure. -/
def InWeekend (week : ℤ) (segment : Instant × Instant) : Prop :=
  fridayClose week ≤ segment.1 ∧ segment.2 ≤ sundayOpen week

/-- Inside the trading week that follows a weekend. -/
def InTradingWeek (week : ℤ) (segment : Instant × Instant) : Prop :=
  sundayOpen week ≤ segment.1 ∧ segment.2 ≤ fridayClose (week + 1)

/-- Neighbouring segments: a weekend and the trading week behind it, or a trading week and the
weekend that ends it. -/
def Alternates (segment later : Instant × Instant) : Prop :=
  ∃ week, (InWeekend week segment ∧ InTradingWeek week later) ∨
    (InTradingWeek week segment ∧ InWeekend (week + 1) later)

variable {current stop : ℤ}

theorem inWeekend_segmentEnd {week : ℤ} (hlow : fridayClose week ≤ current)
    (hhigh : current < sundayOpen week) (stop : ℤ) :
    InWeekend week (current, segmentEnd current stop) := by
  rw [segmentEnd_weekend hlow hhigh]
  exact ⟨hlow, min_le_left _ _⟩

theorem inTradingWeek_segmentEnd {week : ℤ} (hlow : sundayOpen week ≤ current)
    (hhigh : current < fridayClose (week + 1)) (stop : ℤ) :
    InTradingWeek week (current, segmentEnd current stop) := by
  rw [segmentEnd_tradingWeek hlow hhigh]
  exact ⟨hlow, min_le_left _ _⟩

theorem splitFrom_inWeek {segment : Instant × Instant} (h : segment ∈ splitFrom stop current) :
    ∃ week, InWeekend week segment ∨ InTradingWeek week segment := by
  induction current using splitFrom.induct stop with
  | case1 current hlt hstep ih =>
      rw [splitFrom, dif_pos hlt] at h
      rcases List.mem_cons.mp h with rfl | hlater
      · rcases exists_week current with ⟨week, ⟨hlow, hhigh⟩ | ⟨hlow, hhigh⟩⟩
        · exact ⟨week, .inl (inWeekend_segmentEnd hlow hhigh stop)⟩
        · exact ⟨week, .inr (inTradingWeek_segmentEnd hlow hhigh stop)⟩
      · exact ih hlater
  | case2 current hnot =>
      rw [splitFrom, dif_neg hnot] at h
      cases h

theorem mem_head?_splitFrom {segment : Instant × Instant}
    (h : segment ∈ (splitFrom stop current).head?) :
    current < stop ∧ segment = (current, segmentEnd current stop) := by
  rw [splitFrom] at h
  split at h
  · next hlt =>
      simp only [List.head?_cons, Option.mem_def, Option.some.injEq] at h
      exact ⟨hlt, h.symm⟩
  · simp at h

/-- A segment that is not the last one ends at a boundary, where the next kind begins. -/
theorem splitFrom_alternates (stop current : ℤ) :
    (splitFrom stop current).IsChain Alternates := by
  induction current using splitFrom.induct stop with
  | case1 current hlt hstep ih =>
      rw [splitFrom, dif_pos hlt]
      refine List.isChain_cons.mpr ⟨fun later hlater => ?_, ih⟩
      obtain ⟨hbefore, rfl⟩ := mem_head?_splitFrom hlater
      rcases exists_week current with ⟨week, ⟨hlow, hhigh⟩ | ⟨hlow, hhigh⟩⟩
      · have hin := inWeekend_segmentEnd hlow hhigh stop
        have hboundary : segmentEnd current stop = sundayOpen week := by
          rw [segmentEnd_weekend hlow hhigh] at hbefore ⊢
          exact min_eq_left (le_of_lt (by simpa using hbefore))
        refine ⟨week, .inl ⟨hin, ?_⟩⟩
        rw [hboundary]
        exact inTradingWeek_segmentEnd (le_refl _) (sundayOpen_lt_fridayClose week) stop
      · have hin := inTradingWeek_segmentEnd hlow hhigh stop
        have hboundary : segmentEnd current stop = fridayClose (week + 1) := by
          rw [segmentEnd_tradingWeek hlow hhigh] at hbefore ⊢
          exact min_eq_left (le_of_lt (by simpa using hbefore))
        refine ⟨week, .inr ⟨hin, ?_⟩⟩
        rw [hboundary]
        exact inWeekend_segmentEnd (le_refl _) (fridayClose_lt_sundayOpen (week + 1)) stop
  | case2 current hnot =>
      rw [splitFrom, dif_neg hnot]
      exact List.IsChain.nil

end Segments

section Partition

/-- Consecutive segments from one instant to another. -/
structure Partition (start stop : Instant) (segments : List (Instant × Instant)) : Prop where
  begins : segments.head?.map Prod.fst = some start
  ends : segments.getLast?.map Prod.snd = some stop
  meet : segments.IsChain fun segment later => segment.2 = later.1
  nonempty : start < stop → ∀ segment ∈ segments, segment.1 < segment.2

theorem partition_whole {start stop : ℤ} : Partition start stop [(start, stop)] := by
  refine ⟨rfl, rfl, List.IsChain.singleton _, ?_⟩
  rintro hlt segment hsegment
  cases List.mem_singleton.mp hsegment
  exact hlt

theorem partition_splitFrom {start stop : ℤ} (h : start < stop) :
    Partition start stop (splitFrom stop start) := by
  have htiles := tiles_splitFrom (le_of_lt h)
  obtain ⟨hbegins, hends⟩ := htiles.ends h
  refine ⟨hbegins, hends, htiles.isChain, ?_⟩
  rintro - segment hsegment
  exact (splitFrom_inside hsegment).2.1

theorem splitGapAtMarketBoundaries_partition {start «end» : Instant} (h : start ≤ «end») :
    Partition start «end» (splitGapAtMarketBoundaries start «end») ∧
      (weekendClosure.maxDurationHours < secondsBetween start «end» / 3600 →
        (∀ segment ∈ splitGapAtMarketBoundaries start «end»,
            ∃ week, InWeekend week segment ∨ InTradingWeek week segment) ∧
          (splitGapAtMarketBoundaries start «end»).IsChain Alternates) := by
  unfold splitGapAtMarketBoundaries
  split
  · next hshort => exact ⟨partition_whole, fun hlong => absurd hshort (not_le.mpr hlong)⟩
  · next hlong =>
      have hlt : start < «end» := by
        refine lt_of_le_of_ne h ?_
        rintro rfl
        exact hlong (by norm_num [secondsBetween, weekendClosure])
      refine ⟨partition_splitFrom hlt, fun _ => ⟨fun segment hsegment => ?_, ?_⟩⟩
      · exact splitFrom_inWeek hsegment
      · exact splitFrom_alternates «end» start

/-- From a Wednesday noon to the Monday after the second weekend. -/
theorem splitGapAtMarketBoundaries_partition_twoWeekends :
    Partition (atHour 19725 12) (atHour 19737 12)
        (splitGapAtMarketBoundaries (atHour 19725 12) (atHour 19737 12)) ∧
      (splitGapAtMarketBoundaries (atHour 19725 12) (atHour 19737 12)).IsChain Alternates := by
  have hsplit := splitGapAtMarketBoundaries_partition
    (show atHour 19725 12 ≤ atHour 19737 12 by decide)
  have hlong : weekendClosure.maxDurationHours <
      secondsBetween (atHour 19725 12) (atHour 19737 12) / 3600 := by decide +kernel
  exact ⟨hsplit.1, (hsplit.2 hlong).2⟩

end Partition

end Finiex.GapSplitting
