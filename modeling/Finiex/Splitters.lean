import Finiex.Regions
import Finiex.Lib.Rounding
import Mathlib.Data.List.Dedup
import Mathlib.Data.List.MinMax
import Mathlib.Tactic.Linarith

namespace Finiex.Splitters

open Finiex.Types
open Finiex.Lib
open Finiex.Fees
open Finiex.Bars
open Finiex.Coverage
open Finiex.Regions

section Windows

inductive VolatilityRegime
  | veryLow | low | medium | high | veryHigh
  deriving DecidableEq, Repr

inductive TradingSession
  | sydneyTokyo | london | newYork | transition
  deriving DecidableEq, Repr

def getSessionFromUtcHour (hour : ℤ) : TradingSession :=
  if (22 ≤ hour ∧ hour ≤ 23) ∨ (0 ≤ hour ∧ hour < 8) then .sydneyTokyo
  else if 8 ≤ hour ∧ hour < 13 then .london
  else if 13 ≤ hour ∧ hour < 16 then .london
  else if 16 ≤ hour ∧ hour < 21 then .newYork
  else .transition

structure GeneratedWindow where
  blockIndex : ℕ
  startTime : Instant
  endTime : Instant
  regime : VolatilityRegime
  session : TradingSession
  estimatedTicks : ℕ
  atr : ℚ
  splitReason : String := ""
  tickDensity : ℚ := 0
  distanceToNextBlockHours : Option ℚ := none
  deriving DecidableEq

def GeneratedWindow.span (window : GeneratedWindow) : Instant × Instant :=
  (window.startTime, window.endTime)

def hours (n : ℤ) : ℤ := n * microsecondsPerHour

theorem hours_le {m n : ℤ} (h : m ≤ n) : hours m ≤ hours n :=
  Int.mul_le_mul_of_nonneg_right h (by decide)

theorem hours_pos {n : ℤ} (h : 0 < n) : 0 < hours n :=
  Int.mul_pos h (by decide)

end Windows

section MarketDays

def isMarketHoliday (t : Instant) : Bool := decide (monthDay (dayOf t) ∈ marketHolidays)

def closedDay (day : ℤ) : Bool := decide (¬weekday day ≤ 4 ∨ monthDay day ∈ marketHolidays)

def isClosed (t : Instant) : Bool := !isMarketOpen t || isMarketHoliday t

theorem isClosed_eq (t : Instant) : isClosed t = closedDay (dayOf t) := by
  have hweekday : 0 ≤ weekday (dayOf t) := Int.emod_nonneg _ (by decide)
  unfold isClosed isMarketOpen isMarketHoliday closedDay
  simp only [hweekday, true_and]
  rw [Bool.decide_or, ← decide_not]

def dayOfYear (day : ℤ) : ℤ :=
  let dayOfEra := (day + 719468) % 146097
  let yearOfEra := (dayOfEra - dayOfEra / 1460 + dayOfEra / 36524 - dayOfEra / 146096) / 365
  dayOfEra - (365 * yearOfEra + yearOfEra / 4 - yearOfEra / 100)

theorem dayOfYear_of_holiday {day : ℤ} (h : monthDay day ∈ marketHolidays) :
    dayOfYear day = 299 ∨ dayOfYear day = 306 ∨ dayOfYear day = 667 ∨ dayOfYear day = -61 := by
  have hsplit : monthDay day =
      (if (5 * dayOfYear day + 2) / 153 < 10 then (5 * dayOfYear day + 2) / 153 + 3
        else (5 * dayOfYear day + 2) / 153 - 9,
        dayOfYear day - (153 * ((5 * dayOfYear day + 2) / 153) + 2) / 5 + 1) := rfl
  rw [hsplit] at h
  simp only [marketHolidays, List.mem_cons, Prod.mk.injEq, List.not_mem_nil, or_false] at h
  generalize dayOfYear day = d at h ⊢
  omega

theorem dayOfYear_succ (day : ℤ) : dayOfYear (day + 1) = dayOfYear day + 1 ∨
    dayOfYear (day + 1) = dayOfYear day + 1 - 365 ∨
    dayOfYear (day + 1) = dayOfYear day + 1 - 366 := by
  unfold dayOfYear
  dsimp only
  generalize hera : (day + 719468) % 146097 = e
  have hsucc : (day + 1 + 719468) % 146097 = e + 1 ∨
      (day + 1 + 719468) % 146097 = 0 ∧ e = 146096 := by omega
  have hlow : 0 ≤ e := by omega
  have hhigh : e ≤ 146096 := by omega
  rcases hsucc with h | ⟨h, rfl⟩
  · rw [h]
    -- within an era the years are counted by a sum that grows by two at most
    have hgrows : e - e / 1460 + e / 36524 - e / 146096 ≤
        (e + 1) - (e + 1) / 1460 + (e + 1) / 36524 - (e + 1) / 146096 := by omega
    have hslow : (e + 1) - (e + 1) / 1460 + (e + 1) / 36524 - (e + 1) / 146096 ≤
        e - e / 1460 + e / 36524 - e / 146096 + 2 := by omega
    generalize (e + 1) - (e + 1) / 1460 + (e + 1) / 36524 - (e + 1) / 146096 = later at *
    generalize e - e / 1460 + e / 36524 - e / 146096 = counted at *
    have hyear : later / 365 = counted / 365 ∨ later / 365 = counted / 365 + 1 := by omega
    generalize later / 365 = yearAfter at *
    generalize counted / 365 = year at *
    omega
  · rw [h]
    decide

theorem not_holiday_succ {day : ℤ} (h : monthDay day ∈ marketHolidays) :
    monthDay (day + 1) ∉ marketHolidays := by
  intro hnext
  have hday := dayOfYear_of_holiday h
  have hnext' := dayOfYear_of_holiday hnext
  have hsucc := dayOfYear_succ day
  omega

theorem exists_openDay (day : ℤ) : ∃ n : ℕ, closedDay (day + n) = false := by
  -- of a Monday and a Tuesday ahead one is no holiday
  have hpair : ∃ n : ℕ, weekday (day + n) ≤ 4 ∧ weekday (day + n + 1) ≤ 4 := by
    refine ⟨(if weekday day ≤ 3 then 0 else 7 - weekday day).toNat, ?_⟩
    unfold weekday
    split <;> omega
  obtain ⟨n, hfirst, hsecond⟩ := hpair
  by_cases hholiday : monthDay (day + n) ∈ marketHolidays
  · refine ⟨n + 1, decide_eq_false ?_⟩
    rw [Nat.cast_add, Nat.cast_one, ← add_assoc]
    exact not_or.mpr ⟨not_not.mpr hsecond, not_holiday_succ hholiday⟩
  · exact ⟨n, decide_eq_false (not_or.mpr ⟨not_not.mpr hfirst, hholiday⟩)⟩

def daysToOpen (day : ℤ) : ℕ := Nat.find (exists_openDay day)

theorem daysToOpen_succ {day : ℤ} (h : closedDay day = true) :
    daysToOpen (day + 1) < daysToOpen day := by
  have hopen := Nat.find_spec (exists_openDay day)
  cases hfind : Nat.find (exists_openDay day) with
  | zero =>
      rw [hfind, Nat.cast_zero, add_zero, h] at hopen
      cases hopen
  | succ n =>
      rw [hfind, Nat.cast_add, Nat.cast_one, add_comm (n : ℤ), ← add_assoc] at hopen
      unfold daysToOpen
      rw [hfind]
      exact Nat.lt_succ_of_le (Nat.find_min' _ hopen)

theorem dayOf_atHour (day : ℤ) : dayOf (atHour day 0) = day := by
  unfold atHour dayOf
  rw [zero_mul, add_zero]
  exact Int.mul_fdiv_cancel _ (by decide)

theorem lt_nextDay (t : ℤ) : t < atHour (dayOf t + 1) 0 := by
  obtain ⟨day, rest, ht, -, hrest, hday, -⟩ := exists_dayTime t
  rw [hday, atHour, microsecondsPerDay, ht]
  omega

/-- `next_market_open`: the midnight of the next open day, unless the market is open. -/
def nextMarketOpen (after : Instant) : Instant :=
  if h : isClosed after = true then nextMarketOpen (atHour (dayOf after + 1) 0) else after
termination_by daysToOpen (dayOf after)
decreasing_by
  rw [dayOf_atHour]
  exact daysToOpen_succ (isClosed_eq after ▸ h)

theorem nextMarketOpen_spec (after : Instant) :
    isClosed (nextMarketOpen after) = false ∧ after ≤ nextMarketOpen after ∧
      (isClosed after = true → after < nextMarketOpen after) := by
  induction after using nextMarketOpen.induct with
  | case1 after hclosed ih =>
      obtain ⟨hopen, hle, -⟩ := ih
      rw [nextMarketOpen, dif_pos hclosed]
      have hlt := (lt_nextDay after).trans_le hle
      exact ⟨hopen, hlt.le, fun _ => hlt⟩
  | case2 after hopen =>
      rw [nextMarketOpen, dif_neg hopen]
      exact ⟨Bool.eq_false_iff.mpr hopen, le_refl _, fun hclosed => absurd hclosed hopen⟩

end MarketDays

section Blocks

structure BlocksStrategyConfig where
  defaultBlockHours : ℤ := 6
  minBlockHours : ℤ := 1
  min_pos : 0 < minBlockHours := by decide
  min_le : minBlockHours ≤ defaultBlockHours := by decide

namespace BlocksStrategyConfig

variable (config : BlocksStrategyConfig)

def blockStart (snapToMarketOpen : Bool) (currentStart : Instant) : Instant :=
  if snapToMarketOpen && isClosed currentStart then nextMarketOpen currentStart else currentStart

theorem le_blockStart (snapToMarketOpen : Bool) (currentStart : Instant) :
    currentStart ≤ blockStart snapToMarketOpen currentStart := by
  unfold blockStart
  split
  · exact (nextMarketOpen_spec currentStart).2.1
  · exact le_refl _

def blockEnd (regionEnd start : Instant) : Instant :=
  if regionEnd - start < hours config.defaultBlockHours then regionEnd
  else start + hours config.defaultBlockHours

theorem blockEnd_bounds {regionEnd start : Instant}
    (h : hours config.minBlockHours ≤ regionEnd - start) :
    start < config.blockEnd regionEnd start ∧ config.blockEnd regionEnd start ≤ regionEnd ∧
      hours config.minBlockHours ≤ config.blockEnd regionEnd start - start ∧
      config.blockEnd regionEnd start - start ≤ hours config.defaultBlockHours := by
  have hpos := hours_pos config.min_pos
  have hle := hours_le config.min_le
  unfold blockEnd
  generalize hours config.minBlockHours = least at *
  generalize hours config.defaultBlockHours = length at *
  split <;> (refine ⟨?_, ?_, ?_, ?_⟩ <;> linarith)

theorem lt_blockEnd {snapToMarketOpen : Bool} {regionEnd currentStart : Instant}
    (h : currentStart < regionEnd)
    (hrest : ¬regionEnd - blockStart snapToMarketOpen currentStart < hours config.minBlockHours) :
    (regionEnd - config.blockEnd regionEnd (blockStart snapToMarketOpen currentStart)).toNat <
      (regionEnd - currentStart).toNat := by
  have hstart := le_blockStart snapToMarketOpen currentStart
  have hend := (config.blockEnd_bounds (not_lt.mp hrest)).1
  exact (Int.toNat_lt_toNat (sub_pos.mpr h)).mpr (sub_lt_sub_left (hstart.trans_lt hend) _)

def block (start «end» : Instant) : GeneratedWindow where
  blockIndex := 0
  startTime := start
  endTime := «end»
  regime := .medium
  session := getSessionFromUtcHour (hourOf start)
  estimatedTicks := 0
  atr := 0

def generateBlocks (snapToMarketOpen : Bool) (regionEnd currentStart : Instant) :
    List GeneratedWindow :=
  if hregion : currentStart < regionEnd then
    let start := blockStart snapToMarketOpen currentStart
    if regionEnd ≤ start then []
    else if hrest : regionEnd - start < hours config.minBlockHours then []
    else
      have := config.lt_blockEnd hregion hrest
      block start (config.blockEnd regionEnd start) ::
        generateBlocks snapToMarketOpen regionEnd (config.blockEnd regionEnd start)
  else []
termination_by (regionEnd - currentStart).toNat

def blocksOf (snapToMarketOpen : Bool) (regions : List ContinuousRegion) : List GeneratedWindow :=
  regions.flatMap fun region => config.generateBlocks snapToMarketOpen region.end region.start

end BlocksStrategyConfig

inductive SplitError
  | noContinuousRegions (brokerType symbol : String)
  deriving DecidableEq

/-- `BlocksSplit.split`, from the regions on: at most `countMax` windows, numbered by place. A
limit of zero is none. -/
def blocksSplit (config : BlocksStrategyConfig) (brokerType symbol : String)
    (snapToMarketOpen : Bool) (countMax : Option ℕ) (regions : List ContinuousRegion) :
    Except SplitError (List GeneratedWindow) :=
  if regions = [] then .error (.noContinuousRegions brokerType symbol)
  else
    let windows := config.blocksOf snapToMarketOpen regions
    let limited := match countMax with
      | some (count + 1) => windows.take (count + 1)
      | _ => windows
    .ok (limited.mapIdx fun place window => { window with blockIndex := place })

end Blocks

section Volatility

structure VolatilityPeriod where
  startTime : Instant
  endTime : Instant
  session : TradingSession
  atr : ℚ
  regime : VolatilityRegime
  tickCount : ℕ
  deriving DecidableEq

structure ProfileStrategyConfig where
  minBlockHours : ℤ := 2
  maxBlockHours : ℤ := 24
  min_pos : 0 < minBlockHours := by decide
  min_le : minBlockHours ≤ maxBlockHours := by decide

namespace ProfileStrategyConfig

variable (config : ProfileStrategyConfig)

/-- The period starts where the next split may lie. -/
def Splits (regionEnd current : Instant) (period : VolatilityPeriod) : Prop :=
  current + hours config.minBlockHours ≤ period.startTime ∧
    period.startTime ≤ current + hours config.maxBlockHours ∧
      hours config.minBlockHours ≤ regionEnd - period.startTime

instance (regionEnd current : Instant) (period : VolatilityPeriod) :
    Decidable (config.Splits regionEnd current period) :=
  inferInstanceAs (Decidable (_ ∧ _ ∧ _))

def candidates (periods : List VolatilityPeriod) (atrThreshold : ℚ) : List VolatilityPeriod :=
  (periods.filter fun period => decide (period.atr ≤ atrThreshold)).insertionSort
    fun period later => period.startTime ≤ later.startTime

/-- The period at which the next split is made: the least volatile candidate, or else the least
volatile period. -/
def nextSplit (regionEnd : Instant) (periods : List VolatilityPeriod) (atrThreshold : ℚ)
    (current : Instant) : Option VolatilityPeriod :=
  match ((candidates periods atrThreshold).filter fun period =>
      decide (config.Splits regionEnd current period)).argmin VolatilityPeriod.atr with
  | some best => some best
  | none => (periods.filter fun period =>
      decide (config.Splits regionEnd current period)).argmin VolatilityPeriod.atr

theorem nextSplit_spec {regionEnd current : Instant} {periods : List VolatilityPeriod}
    {atrThreshold : ℚ} {best : VolatilityPeriod}
    (h : config.nextSplit regionEnd periods atrThreshold current = some best) :
    best ∈ periods ∧ config.Splits regionEnd current best := by
  unfold nextSplit at h
  split at h
  · next hcandidate =>
      cases h
      obtain ⟨hmem, hsplits⟩ := List.mem_filter.mp (List.argmin_mem hcandidate)
      rw [candidates, List.mem_insertionSort] at hmem
      exact ⟨(List.mem_filter.mp hmem).1, of_decide_eq_true hsplits⟩
  · obtain ⟨hmem, hsplits⟩ := List.mem_filter.mp (List.argmin_mem h)
    exact ⟨hmem, of_decide_eq_true hsplits⟩

def nextPeriod (periods : List VolatilityPeriod) (current : Instant) : Option VolatilityPeriod :=
  periods.find? fun period => decide (current + hours config.maxBlockHours < period.startTime)

theorem nextPeriod_spec {periods : List VolatilityPeriod} {current : Instant}
    {next : VolatilityPeriod} (h : config.nextPeriod periods current = some next) :
    next ∈ periods ∧ current + hours config.maxBlockHours < next.startTime :=
  ⟨List.mem_of_find?_eq_some h, by simpa using List.find?_some h⟩

/-- Behind a position that does not reach the end every move goes on. -/
theorem toNat_sub_lt {regionEnd current next : Instant}
    (hfits : ¬regionEnd - current ≤ hours config.maxBlockHours)
    (hnext : current + hours config.minBlockHours ≤ next) :
    (regionEnd - next).toNat < (regionEnd - current).toNat := by
  have hpos := hours_pos config.min_pos
  have hmax := hours_le config.min_le
  refine (Int.toNat_lt_toNat ?_).mpr ?_ <;> linarith

/-- The walk of `_find_split_points`: a split, or a jump over a stretch without periods. -/
def walk (regionEnd : Instant) (periods : List VolatilityPeriod) (atrThreshold : ℚ)
    (current : Instant) : List Instant :=
  if hfits : regionEnd - current ≤ hours config.maxBlockHours then []
  else
    match hsplit : config.nextSplit regionEnd periods atrThreshold current with
    | some best =>
        have := config.toNat_sub_lt hfits (config.nextSplit_spec hsplit).2.1
        best.startTime :: walk regionEnd periods atrThreshold best.startTime
    | none =>
        match hskip : config.nextPeriod periods current with
        | some next =>
            have := config.toNat_sub_lt hfits ((add_le_add_right (hours_le config.min_le)
              current).trans (config.nextPeriod_spec hskip).2.le)
            walk regionEnd periods atrThreshold next.startTime
        | none => []
termination_by (regionEnd - current).toNat

def findSplitPoints (regionStart regionEnd : Instant) (periods : List VolatilityPeriod)
    (atrThreshold : ℚ) : List Instant :=
  (config.walk regionEnd periods atrThreshold regionStart).dedup.insertionSort (· ≤ ·)

end ProfileStrategyConfig

def overlapping (start «end» : Instant) (periods : List VolatilityPeriod) :
    List VolatilityPeriod :=
  periods.filter fun period => decide (start < period.endTime ∧ period.startTime < «end»)

def volatilityWindow (startIndex : ℕ) (splitPoints : List Instant)
    (periods : List VolatilityPeriod) (place : ℕ) (bounds : Instant × Instant) :
    GeneratedWindow :=
  let blockPeriods := overlapping bounds.1 bounds.2 periods
  let first := blockPeriods.head?
  { blockIndex := startIndex + place
    startTime := bounds.1
    endTime := bounds.2
    regime := (first.map VolatilityPeriod.regime).getD .medium
    session := (first.map VolatilityPeriod.session).getD .transition
    estimatedTicks := (blockPeriods.map VolatilityPeriod.tickCount).sum
    atr := Rounding.roundTo 6 ((first.map VolatilityPeriod.atr).getD 0)
    splitReason :=
      if place = 0 ∧ splitPoints = [] then "single_region"
      else if place = 0 then "region_start"
      else if bounds.1 ∈ splitPoints then "atr_minima"
      else "forced" }

def buildWindowsFromSplits (startIndex : ℕ) (regionStart regionEnd : Instant)
    (splitPoints : List Instant) (periods : List VolatilityPeriod) : List GeneratedWindow :=
  let boundaries := regionStart :: splitPoints.insertionSort (· ≤ ·) ++ [regionEnd]
  (boundaries.zip boundaries.tail).mapIdx (volatilityWindow startIndex splitPoints periods)

end Volatility

end Finiex.Splitters
