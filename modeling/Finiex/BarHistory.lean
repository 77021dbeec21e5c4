import Finiex.Bars
import Mathlib.Data.List.Induction
import Mathlib.Tactic.Linarith
import Mathlib.Tactic.Ring

namespace Finiex.BarHistory

open Finiex.Types
open Finiex.Fees
open Finiex.Bars
open Finiex.Bars.BarRenderingController

section Periods

variable (timeframe : Timeframe)

theorem duration_pos : 0 < timeframe.duration := by
  cases timeframe <;> decide

theorem dayStart_eq (t : Instant) : dayStart t = t / microsecondsPerDay * microsecondsPerDay := by
  rw [dayStart, dayOf, Int.fdiv_eq_ediv_of_nonneg _ (by decide)]

/-- Rounding the minute of the day rounds the instant, as the day is a multiple of the period. -/
theorem floor_within_day {day minute minutes : ℤ} (hday : minutes * minute ∣ day)
    (hminute : 0 < minute) (hminutes : 0 < minutes) (t : ℤ) :
    t / day * day + (t - t / day * day) / minute / minutes * minutes * minute =
      t / (minutes * minute) * (minutes * minute) := by
  obtain ⟨periods, rfl⟩ := hday
  have hperiod : minutes * minute ≠ 0 := (mul_pos hminutes hminute).ne'
  rw [Int.ediv_ediv_of_nonneg hminute.le, mul_comm minute minutes, mul_assoc _ minutes minute]
  have hshift : t - t / (minutes * minute * periods) * (minutes * minute * periods) =
      t + minutes * minute * -(t / (minutes * minute * periods) * periods) := by ring
  rw [hshift, Int.add_mul_ediv_left _ _ hperiod]
  ring

theorem day_of_periods : timeframe.minutes * microsecondsPerMinute ∣ microsecondsPerDay := by
  cases timeframe <;> decide

/-- Every timeframe divides the day, so bars start at the multiples of their duration. -/
theorem getBarStartTime_eq (t : Instant) :
    getBarStartTime t timeframe = t / timeframe.duration * timeframe.duration := by
  have hminutes : 0 < timeframe.minutes := by cases timeframe <;> decide
  have hfloor := floor_within_day (day_of_periods timeframe) (by decide) hminutes t
  rw [getBarStartTime, dayStart_eq]
  exact hfloor

theorem resampleBin_eq (s t : Instant) :
    resampleBin (dayStart s) timeframe t = getBarStartTime t timeframe := by
  rw [getBarStartTime_eq, resampleBin, dayStart_eq]
  obtain ⟨periods, hday⟩ := day_of_periods timeframe
  have hperiod : timeframe.duration ≠ 0 := (duration_pos timeframe).ne'
  have horigin : s / microsecondsPerDay * microsecondsPerDay =
      timeframe.duration * (s / microsecondsPerDay * periods) := by
    rw [hday, Timeframe.duration]
    ring
  rw [horigin, Int.sub_mul_ediv_left _ _ hperiod]
  ring

theorem getBarStartTime_le (t : Instant) : getBarStartTime t timeframe ≤ t := by
  rw [getBarStartTime_eq]
  exact Int.ediv_mul_le t (duration_pos timeframe).ne'

theorem getBarStartTime_mono {s t : Instant} (h : s ≤ t) :
    getBarStartTime s timeframe ≤ getBarStartTime t timeframe := by
  rw [getBarStartTime_eq, getBarStartTime_eq]
  exact Int.mul_le_mul_of_nonneg_right (Int.ediv_le_ediv (duration_pos timeframe) h)
    (duration_pos timeframe).le

theorem getBarStartTime_idem (t : Instant) :
    getBarStartTime (getBarStartTime t timeframe) timeframe = getBarStartTime t timeframe := by
  rw [getBarStartTime_eq, getBarStartTime_eq,
    Int.mul_ediv_cancel _ (duration_pos timeframe).ne']

/-- A period that starts before an instant lies before it or is the one that contains it. -/
theorem start_le_of_lt {start t : Instant} (hstart : getBarStartTime start timeframe = start)
    (h : start < t) : start ≤ getBarStartTime t timeframe := by
  have hmono := getBarStartTime_mono timeframe h.le
  rwa [hstart] at hmono

end Periods

section Files

variable {symbol : String} {timeframe : Timeframe} {rows : List TickRow}

/-- The rendered bars, as one bar for each period that holds a row. -/
theorem renderSingleTimeframe_eq (symbol : String) (timeframe : Timeframe) (rows : List TickRow) :
    renderSingleTimeframe symbol timeframe rows =
      ((rows.map fun row => getBarStartTime row.timestamp timeframe).dedup.map fun start =>
        aggregate symbol timeframe start
          (rows.filter fun row => getBarStartTime row.timestamp timeframe = start)) := by
  cases rows with
  | nil => rfl
  | cons row rows => simp only [renderSingleTimeframe, List.head?_cons, resampleBin_eq]

theorem rendered_timestamps (symbol : String) (timeframe : Timeframe) (rows : List TickRow) :
    (renderSingleTimeframe symbol timeframe rows).map Bar.timestamp =
      (rows.map fun row => getBarStartTime row.timestamp timeframe).dedup := by
  rw [renderSingleTimeframe_eq, List.map_map]
  exact List.map_id _

theorem mem_rendered_timestamps {start : Instant} :
    start ∈ (renderSingleTimeframe symbol timeframe rows).map Bar.timestamp ↔
      ∃ row ∈ rows, getBarStartTime row.timestamp timeframe = start := by
  rw [rendered_timestamps, List.mem_dedup, List.mem_map]

theorem rendered_ascending (symbol : String) (timeframe : Timeframe)
    (hsorted : rows.Pairwise fun row later => row.timestamp ≤ later.timestamp) :
    ((renderSingleTimeframe symbol timeframe rows).map Bar.timestamp).Pairwise (· < ·) := by
  rw [rendered_timestamps]
  have hstarts : (rows.map fun row => getBarStartTime row.timestamp timeframe).Pairwise (· ≤ ·) :=
    List.pairwise_map.mpr (hsorted.imp fun h => getBarStartTime_mono timeframe h)
  have hle := hstarts.sublist (List.dedup_sublist _)
  exact (hle.and (List.nodup_dedup _)).imp fun ⟨hle, hne⟩ => lt_of_le_of_ne hle hne

theorem tail_suffix {α : Type} (n : ℕ) (xs : List α) : tail n xs <:+ xs := List.drop_suffix _ _

theorem tail_append_tail {α : Type} (n : ℕ) (xs ys : List α) :
    tail n (tail n xs ++ ys) = tail n (xs ++ ys) := by
  rw [tail, tail, tail, List.drop_append, List.drop_append, List.drop_drop]
  simp only [List.length_append, List.length_drop]
  congr 2 <;> omega

theorem tail_map {α β : Type} (f : α → β) (n : ℕ) (xs : List α) :
    (tail n xs).map f = tail n (xs.map f) := by
  simp [tail, List.map_drop]

theorem getLast?_tail {α : Type} {n : ℕ} (hn : 0 < n) (xs : List α) :
    (tail n xs).getLast? = xs.getLast? := by
  rw [tail, List.getLast?_drop]
  split
  · next h =>
    have : xs.length = 0 := by omega
    rw [List.eq_nil_of_length_eq_zero this]; rfl
  · rfl

end Files

section Warmup

variable {symbol : String} {timeframe : Timeframe} {rows : List TickRow} {startTime : Instant}
  {warmupCount : ℕ}

/-- The scenario starts inside a period the file has a bar for, and takes that bar as warmup. -/
def CutInside (rows : List TickRow) (timeframe : Timeframe) (startTime : Instant)
    (warmupCount : ℕ) : Prop :=
  0 < warmupCount ∧ getBarStartTime startTime timeframe ≠ startTime ∧
    ∃ row ∈ rows, getBarStartTime row.timestamp timeframe = getBarStartTime startTime timeframe

/-- Each row a bar is made of comes before the start of the scenario. -/
def NoLookAhead (rows : List TickRow) (timeframe : Timeframe) (startTime : Instant)
    (bars : List Bar) : Prop :=
  ∀ bar ∈ bars, ∀ row ∈ rows, getBarStartTime row.timestamp timeframe = bar.timestamp →
    row.timestamp < startTime

instance (rows : List TickRow) (timeframe : Timeframe) (startTime : Instant) (bars : List Bar) :
    Decidable (NoLookAhead rows timeframe startTime bars) :=
  inferInstanceAs (Decidable (∀ _ ∈ _, ∀ _ ∈ _, _ → _))

theorem warmupCut_sublist (bars : List Bar) (startTime : Instant) (warmupCount : ℕ) :
    (warmupCut bars startTime warmupCount).Sublist bars :=
  (tail_suffix _ _).sublist.trans List.filter_sublist

theorem warmup_ascending
    (hsorted : rows.Pairwise fun row later => row.timestamp ≤ later.timestamp) :
    ((warmupCut (renderSingleTimeframe symbol timeframe rows) startTime warmupCount).map
      Bar.timestamp).Pairwise (· < ·) :=
  (rendered_ascending symbol timeframe hsorted).sublist ((warmupCut_sublist _ _ _).map _)

theorem warmup_start {bar : Bar}
    (hbar : bar ∈ warmupCut (renderSingleTimeframe symbol timeframe rows) startTime warmupCount) :
    bar.timestamp < startTime ∧ getBarStartTime bar.timestamp timeframe = bar.timestamp := by
  have hfiltered := (tail_suffix _ _).subset hbar
  rw [List.mem_filter, decide_eq_true_eq] at hfiltered
  refine ⟨hfiltered.2, ?_⟩
  obtain ⟨row, -, hrow⟩ := mem_rendered_timestamps.mp (List.mem_map_of_mem hfiltered.1)
  rw [← hrow]
  exact getBarStartTime_idem timeframe row.timestamp

theorem getLast?_of_max {xs : List ℤ} {x : ℤ} (hascending : xs.Pairwise (· < ·)) (hx : x ∈ xs)
    (hmax : ∀ y ∈ xs, y ≤ x) : xs.getLast? = some x := by
  obtain ⟨before, after, rfl⟩ := List.append_of_mem hx
  cases after with
  | nil => exact List.getLast?_concat
  | cons y after =>
      have hlt : x < y :=
        (List.pairwise_cons.mp (List.pairwise_append.mp hascending).2.1).1 y List.mem_cons_self
      have hle := hmax y (by simp)
      omega

theorem mem_warmup_iff
    (hsorted : rows.Pairwise fun row later => row.timestamp ≤ later.timestamp) :
    getBarStartTime startTime timeframe ∈
        (warmupCut (renderSingleTimeframe symbol timeframe rows) startTime warmupCount).map
          Bar.timestamp ↔
      CutInside rows timeframe startTime warmupCount := by
  constructor
  · intro hmem
    have hcount : 0 < warmupCount := by
      rw [Nat.pos_iff_ne_zero]
      rintro rfl
      simp [warmupCut, tail] at hmem
    obtain ⟨bar, hbar, htimestamp⟩ := List.mem_map.mp hmem
    have hstart := warmup_start hbar
    refine ⟨hcount, fun haligned => ?_, ?_⟩
    · rw [htimestamp, haligned] at hstart
      exact lt_irrefl _ hstart.1
    · have hrendered := List.mem_map_of_mem (f := Bar.timestamp)
        ((warmupCut_sublist _ _ _).subset hbar)
      rw [htimestamp] at hrendered
      exact mem_rendered_timestamps.mp hrendered
  · rintro ⟨hcount, hunaligned, hrow⟩
    have hrendered : getBarStartTime startTime timeframe ∈
        (renderSingleTimeframe symbol timeframe rows).map Bar.timestamp :=
      mem_rendered_timestamps.mpr hrow
    obtain ⟨bar, hbar, htimestamp⟩ := List.mem_map.mp hrendered
    have hbefore : bar.timestamp < startTime := by
      rw [htimestamp]
      exact lt_of_le_of_ne (getBarStartTime_le timeframe startTime) hunaligned
    have hkept : bar ∈ (renderSingleTimeframe symbol timeframe rows).filter
        fun bar => bar.timestamp < startTime :=
      List.mem_filter.mpr ⟨hbar, decide_eq_true hbefore⟩
    have hlast := getLast?_of_max
      ((rendered_ascending symbol timeframe hsorted).sublist (List.filter_sublist.map _))
      (List.mem_map_of_mem (f := Bar.timestamp) hkept)
      (fun start hstart => by
        obtain ⟨other, hother, rfl⟩ := List.mem_map.mp hstart
        rw [List.mem_filter, decide_eq_true_eq] at hother
        obtain ⟨row, -, hrow⟩ := mem_rendered_timestamps.mp (List.mem_map_of_mem hother.1)
        rw [htimestamp]
        refine start_le_of_lt timeframe ?_ hother.2
        rw [← hrow]
        exact getBarStartTime_idem timeframe row.timestamp)
    rw [warmupCut, tail_map]
    apply List.mem_of_mem_getLast?
    rw [getLast?_tail hcount, hlast, htimestamp]
    rfl

/-- The warmup bars hold only ticks before the scenario, unless the cut is inside a period
with a later row. -/
theorem noLookAhead_iff
    (hsorted : rows.Pairwise fun row later => row.timestamp ≤ later.timestamp) :
    NoLookAhead rows timeframe startTime
        (warmupCut (renderSingleTimeframe symbol timeframe rows) startTime warmupCount) ↔
      ¬(CutInside rows timeframe startTime warmupCount ∧
        ∃ row ∈ rows, getBarStartTime row.timestamp timeframe = getBarStartTime startTime timeframe ∧
          startTime ≤ row.timestamp) := by
  have hcut : getBarStartTime startTime timeframe ∈
      (warmupCut (renderSingleTimeframe symbol timeframe rows) startTime warmupCount).map
        Bar.timestamp ↔ CutInside rows timeframe startTime warmupCount := mem_warmup_iff hsorted
  rw [← hcut]
  constructor
  · rintro hbefore ⟨hmem, row, hrow, hperiod, hle⟩
    obtain ⟨bar, hbar, htimestamp⟩ := List.mem_map.mp hmem
    have hlt := hbefore bar hbar row hrow (hperiod.trans htimestamp.symm)
    exact absurd hlt (not_lt.mpr hle)
  · intro hnone bar hbar row hrow hperiod
    by_contra hlate
    rw [not_lt] at hlate
    have hstart := warmup_start hbar
    have hupper := start_le_of_lt timeframe hstart.2 hstart.1
    have hlower := getBarStartTime_mono timeframe hlate
    rw [hperiod] at hlower
    have hsame := le_antisymm hupper hlower
    exact hnone ⟨List.mem_map.mpr ⟨bar, hbar, hsame⟩, row, hrow, hperiod.trans hsame, hlate⟩

end Warmup

section Slots

variable {timeframe : Timeframe}

def openedPeriods (timeframe : Timeframe) (ticks : List TickData) : List Instant :=
  ticks.foldl (fun periods tick =>
    let period := getBarStartTime tick.timestamp timeframe
    if periods.getLast? = some period then periods else periods ++ [period]) []

theorem openedPeriods_concat (ticks : List TickData) (tick : TickData) :
    openedPeriods timeframe (ticks ++ [tick]) =
      if (openedPeriods timeframe ticks).getLast? = some (getBarStartTime tick.timestamp timeframe)
      then openedPeriods timeframe ticks
      else openedPeriods timeframe ticks ++ [getBarStartTime tick.timestamp timeframe] := by
  rw [openedPeriods, List.foldl_append]
  rfl

theorem openedPeriods_head? (ticks : List TickData) :
    (openedPeriods timeframe ticks).head? =
      ticks.head?.map fun tick => getBarStartTime tick.timestamp timeframe := by
  induction ticks using List.reverseRecOn with
  | nil => rfl
  | append_singleton ticks tick ih =>
      rw [openedPeriods_concat, List.head?_append]
      cases ticks with
      | nil => rfl
      | cons first ticks =>
          rw [List.head?_cons, Option.map_some] at ih
          split
          · rw [ih]
            rfl
          · rw [List.head?_append, ih]
            rfl

theorem openedPeriods_ascending {ticks : List TickData}
    (hsorted : ticks.Pairwise fun tick later => tick.timestamp ≤ later.timestamp) :
    (openedPeriods timeframe ticks).Pairwise (· < ·) ∧
      ∀ period ∈ openedPeriods timeframe ticks, ∀ tick ∈ ticks.getLast?,
        period ≤ getBarStartTime tick.timestamp timeframe := by
  induction ticks using List.reverseRecOn with
  | nil => exact ⟨List.Pairwise.nil, by simp [openedPeriods]⟩
  | append_singleton ticks tick ih =>
      obtain ⟨hbefore, -, hafter⟩ := List.pairwise_append.mp hsorted
      obtain ⟨hascending, hle⟩ := ih hbefore
      have hupper : ∀ period ∈ openedPeriods timeframe ticks,
          period ≤ getBarStartTime tick.timestamp timeframe := by
        intro period hperiod
        cases hlast : ticks.getLast? with
        | none =>
            rw [List.getLast?_eq_none_iff] at hlast
            subst hlast
            simp [openedPeriods] at hperiod
        | some last =>
            refine (hle period hperiod last hlast).trans (getBarStartTime_mono timeframe ?_)
            exact hafter last (List.mem_of_mem_getLast? hlast) tick List.mem_cons_self
      rw [openedPeriods_concat, List.getLast?_concat]
      split
      · refine ⟨hascending, fun period hperiod last hlast => ?_⟩
        cases hlast
        exact hupper period hperiod
      · next hother =>
          constructor
          · refine List.pairwise_append.mpr ⟨hascending, List.pairwise_singleton _ _, ?_⟩
            intro period hperiod other hopened
            rw [List.mem_singleton] at hopened
            subst hopened
            refine lt_of_le_of_ne (hupper period hperiod) fun heq => hother ?_
            refine getLast?_of_max hascending (heq ▸ hperiod) fun y hy => hupper y hy
          · intro period hperiod last hlast
            cases hlast
            rcases List.mem_append.mp hperiod with hold | hnew
            · exact hupper period hold
            · exact (List.mem_singleton.mp hnew).le

/-- What a slot holds after the ticks: the last of the periods before the open one, and the
open one. -/
structure Trail (limit : ℕ) (warmup : List Instant) (periods : List Instant) (slot : BarSlot) :
    Prop where
  completed : slot.completedBars.map Bar.timestamp = tail limit (warmup ++ periods.dropLast)
  current : slot.currentBar.map Bar.timestamp = periods.getLast?
  start : slot.currentBarStart = periods.getLast?

theorem updateWithTick_timestamp (bar : Bar) (price volume : ℚ) :
    (bar.updateWithTick price volume).timestamp = bar.timestamp := rfl

theorem updateSlot_trail {limit : ℕ} {warmup : List Instant} {ticks : List TickData}
    {slot : BarSlot} (htrail : Trail limit warmup (openedPeriods timeframe ticks) slot)
    (tick : TickData) :
    Trail limit warmup (openedPeriods timeframe (ticks ++ [tick]))
      (updateSlot limit tick timeframe slot).1 := by
  obtain ⟨hcompleted, hcurrent, hstart⟩ := htrail
  rw [openedPeriods_concat]
  cases hbar : slot.currentBar with
  | none =>
      rw [hbar, Option.map_none, eq_comm, List.getLast?_eq_none_iff] at hcurrent
      rw [hcurrent] at hcompleted ⊢
      rw [if_neg (by simp)]
      constructor
      · simpa [updateSlot, hbar] using hcompleted
      · simp only [updateSlot, hbar, Option.map_some, apply_ite Bar.timestamp,
          updateWithTick_timestamp, ite_self]
        rfl
      · simp only [updateSlot, hbar]
        rfl
  | some current =>
      rw [hbar, Option.map_some] at hcurrent
      by_cases hsame : slot.currentBarStart = some (getBarStartTime tick.timestamp timeframe)
      · rw [if_pos (hstart ▸ hsame)]
        constructor
        · simpa [updateSlot, hbar, hsame] using hcompleted
        · simp only [updateSlot, hbar, hsame, if_true, Option.map_some,
            apply_ite Bar.timestamp, updateWithTick_timestamp, ite_self]
          exact hcurrent
        · simpa [updateSlot, hbar, hsame] using hstart
      · rw [if_neg (hstart ▸ hsame)]
        constructor
        · simp only [updateSlot, hbar, if_neg hsame, appendDeque, tail_map, List.map_append,
            List.map_cons, List.map_nil, hcompleted, List.dropLast_concat]
          rw [tail_append_tail, List.append_assoc]
          congr 2
          exact List.dropLast_append_getLast? _ hcurrent.symm
        · simp only [updateSlot, hbar, if_neg hsame, Option.map_some,
            apply_ite Bar.timestamp, updateWithTick_timestamp, ite_self, List.getLast?_concat]
        · simp only [updateSlot, hbar, if_neg hsame, List.getLast?_concat]

theorem updateSlot_keeps {limit : ℕ} {tick : TickData} {slot : BarSlot}
    (hopen : (updateSlot limit tick timeframe slot).2 = false) :
    (updateSlot limit tick timeframe slot).1.completedBars = slot.completedBars := by
  unfold updateSlot at hopen ⊢
  cases hbar : slot.currentBar with
  | none => rfl
  | some current =>
      rw [hbar] at hopen
      by_cases hsame : slot.currentBarStart = some (getBarStartTime tick.timestamp timeframe)
      · simp only [if_pos hsame]
      · simp only [if_neg hsame] at hopen
        cases hopen

end Slots

section Controllers

inductive ControllerCall
  | processTick (tick : TickData)
  | getAllBarHistory

def ControllerCall.tick? : ControllerCall → Option TickData
  | .processTick tick => some tick
  | .getAllBarHistory => none

variable (symbol : String) (timeframe : Timeframe)

def controllerStep (controller : BarRenderingController) :
    ControllerCall → BarRenderingController
  | .processTick tick => controller.processTick tick
  | .getAllBarHistory => (controller.getAllBarHistory symbol).1

/-- The start times of the bar history of a timeframe, followed by the current bar's. -/
def historyPeriods (controller : BarRenderingController) : List Instant :=
  ((controller.getAllBarHistory symbol).2 timeframe).map Bar.timestamp ++
    ((controller.renderer.getCurrentBar symbol timeframe).map Bar.timestamp).toList

/-- The warmup bars of a scenario, cut from the bar file of each required timeframe. -/
def prepareWarmup (rows : List TickRow) (startTime : Instant)
    (requirements : List (Timeframe × ℕ)) : List (Timeframe × List Bar) :=
  requirements.map fun (timeframe, warmupCount) =>
    (timeframe, warmupCut (renderSingleTimeframe symbol timeframe rows) startTime warmupCount)

def injected (maxHistory : ℕ) (required : List Timeframe) (rows : List TickRow)
    (startTime : Instant) (requirements : List (Timeframe × ℕ)) : BarRenderingController :=
  injectWarmupBars { renderer := { maxHistory := maxHistory }, requiredTimeframes := required }
    symbol (prepareWarmup symbol rows startTime requirements)

/-- The controller follows the ticks it was given, after warmup bars of these periods. -/
structure Follows (maxHistory : ℕ) (required : List Timeframe) (warmup : List Instant)
    (ticks : List TickData) (controller : BarRenderingController) : Prop where
  limit : controller.renderer.maxHistory = maxHistory
  required : controller.requiredTimeframes = required
  trail : Trail maxHistory warmup (openedPeriods timeframe ticks)
    (controller.renderer.slots timeframe symbol)
  cache : controller.cacheValid timeframe = true →
    ∀ history ∈ controller.cachedBarHistory timeframe,
      history = controller.renderer.getBarHistory symbol timeframe

variable {symbol timeframe} {maxHistory : ℕ} {required : List Timeframe} {warmup : List Instant}
  {ticks : List TickData} {controller : BarRenderingController}

theorem historyOf_eq
    (hcache : controller.cacheValid timeframe = true →
      ∀ history ∈ controller.cachedBarHistory timeframe,
        history = controller.renderer.getBarHistory symbol timeframe) :
    controller.historyOf symbol timeframe = controller.renderer.getBarHistory symbol timeframe := by
  unfold historyOf
  split
  · next history hvalid hhistory => exact hcache hvalid history hhistory
  · rfl

theorem Follows.processTick
    (h : Follows symbol timeframe maxHistory required warmup ticks controller)
    (hrequired : timeframe ∈ required) {tick : TickData} (hsymbol : tick.symbol = symbol) :
    Follows symbol timeframe maxHistory required warmup (ticks ++ [tick])
      (controller.processTick tick) := by
  have hmem : timeframe ∈ controller.requiredTimeframes := h.required ▸ hrequired
  have hslot : (controller.processTick tick).renderer.slots timeframe symbol =
      (updateSlot maxHistory tick timeframe (controller.renderer.slots timeframe symbol)).1 := by
    subst hsymbol
    simp only [BarRenderingController.processTick, BarRenderer.updateCurrentBars, hmem,
      and_self, if_true, h.limit]
  refine ⟨h.limit, h.required, ?_, ?_⟩
  · rw [hslot]
    exact updateSlot_trail h.trail tick
  · intro hvalid history hhistory
    simp only [BarRenderingController.processTick, BarRenderer.updateCurrentBars, hsymbol,
      Bool.and_eq_true, Bool.not_eq_true', hmem, decide_true, Bool.true_and, h.limit] at hvalid
    rw [BarRenderer.getBarHistory, hslot, updateSlot_keeps hvalid.2]
    exact h.cache hvalid.1 history hhistory

theorem Follows.getAllBarHistory
    (h : Follows symbol timeframe maxHistory required warmup ticks controller)
    (hrequired : timeframe ∈ required) :
    Follows symbol timeframe maxHistory required warmup ticks
      (controller.getAllBarHistory symbol).1 := by
  have hmem : timeframe ∈ controller.requiredTimeframes := h.required ▸ hrequired
  refine ⟨h.limit, h.required, h.trail, fun _ history hhistory => ?_⟩
  simp only [BarRenderingController.getAllBarHistory, if_pos hmem, Option.mem_def,
    Option.some.injEq] at hhistory
  rw [← hhistory]
  exact historyOf_eq h.cache

theorem Follows.run (h : Follows symbol timeframe maxHistory required warmup [] controller)
    (hrequired : timeframe ∈ required) {calls : List ControllerCall}
    (hsymbol : ∀ tick ∈ calls.filterMap ControllerCall.tick?, tick.symbol = symbol) :
    Follows symbol timeframe maxHistory required warmup (calls.filterMap ControllerCall.tick?)
      (calls.foldl (controllerStep symbol) controller) := by
  induction calls using List.reverseRecOn with
  | nil => exact h
  | append_singleton calls call ih =>
      rw [List.filterMap_append] at hsymbol ⊢
      rw [List.foldl_append]
      have hfollows := ih fun tick htick => hsymbol tick (List.mem_append_left _ htick)
      cases call with
      | processTick tick =>
          refine hfollows.processTick hrequired (hsymbol tick ?_)
          exact List.mem_append_right _ List.mem_cons_self
      | getAllBarHistory =>
          rw [show [ControllerCall.getAllBarHistory].filterMap ControllerCall.tick? = [] from rfl,
            List.append_nil]
          exact hfollows.getAllBarHistory hrequired

theorem Follows.historyPeriods
    (h : Follows symbol timeframe maxHistory required warmup ticks controller) :
    historyPeriods symbol timeframe controller =
      tail maxHistory (warmup ++ (openedPeriods timeframe ticks).dropLast) ++
        (openedPeriods timeframe ticks).getLast?.toList := by
  have hhistory : (controller.getAllBarHistory symbol).2 timeframe =
      (controller.renderer.slots timeframe symbol).completedBars := historyOf_eq h.cache
  rw [BarHistory.historyPeriods, hhistory, BarRenderer.getCurrentBar, h.trail.completed,
    h.trail.current]

theorem foldl_appendDeque {α : Type} (limit : ℕ) (xs ys : List α) :
    ys.foldl (appendDeque limit) (tail limit xs) = tail limit (xs ++ ys) := by
  induction ys generalizing xs with
  | nil => rw [List.append_nil, List.foldl_nil]
  | cons y ys ih =>
      rw [List.foldl_cons, appendDeque, tail_append_tail, ih, List.append_assoc]
      rfl

theorem map_foldl_appendDeque {α β : Type} (f : α → β) (limit : ℕ) (xs ys : List α) :
    (ys.foldl (appendDeque limit) xs).map f =
      (ys.map f).foldl (appendDeque limit) (xs.map f) := by
  induction ys generalizing xs with
  | nil => rfl
  | cons y ys ih =>
      rw [List.foldl_cons, ih, appendDeque, tail_map, List.map_append]
      rfl

theorem injectWarmupBars_cons (controller : BarRenderingController)
    (entry : Timeframe × List Bar) (warmupBars : List (Timeframe × List Bar)) :
    controller.injectWarmupBars symbol (entry :: warmupBars) =
      (controller.injectWarmupBars symbol [entry]).injectWarmupBars symbol warmupBars := rfl

theorem Follows.inject
    (h : Follows symbol timeframe maxHistory required warmup [] controller) (bars : List Bar) :
    Follows symbol timeframe maxHistory required (warmup ++ bars.map Bar.timestamp) []
      (controller.injectWarmupBars symbol [(timeframe, bars)]) := by
  have hslot : (controller.injectWarmupBars symbol [(timeframe, bars)]).renderer.slots timeframe
      symbol =
      { controller.renderer.slots timeframe symbol with
        completedBars := (deserializeBars symbol bars).foldl (appendDeque maxHistory)
          (controller.renderer.slots timeframe symbol).completedBars } := by
    simp only [injectWarmupBars, List.foldl_cons, List.foldl_nil,
      BarRenderer.initializeHistoricalBars, and_self, if_true, h.limit]
  have hstarts : (deserializeBars symbol bars).map Bar.timestamp = bars.map Bar.timestamp := by
    rw [deserializeBars, List.map_map]
    rfl
  have hcompleted := h.trail.completed
  refine ⟨h.limit, h.required, ⟨?_, ?_, ?_⟩, ?_⟩
  · rw [hslot]
    show ((deserializeBars symbol bars).foldl (appendDeque maxHistory) _).map Bar.timestamp = _
    rw [map_foldl_appendDeque, hcompleted, foldl_appendDeque, hstarts]
    simp [openedPeriods]
  · rw [hslot]
    exact h.trail.current
  · rw [hslot]
    exact h.trail.start
  · intro hvalid
    simp [injectWarmupBars] at hvalid

theorem Follows.inject_other
    (h : Follows symbol timeframe maxHistory required warmup [] controller)
    {other : Timeframe} (hother : timeframe ≠ other) (bars : List Bar) :
    Follows symbol timeframe maxHistory required warmup []
      (controller.injectWarmupBars symbol [(other, bars)]) := by
  have hslot : (controller.injectWarmupBars symbol [(other, bars)]).renderer.slots timeframe
      symbol = controller.renderer.slots timeframe symbol := by
    simp only [injectWarmupBars, List.foldl_cons, List.foldl_nil,
      BarRenderer.initializeHistoricalBars, hother, false_and, if_false]
  refine ⟨h.limit, h.required, ?_, fun hvalid history hhistory => ?_⟩
  · rw [hslot]
    exact h.trail
  · rw [BarRenderer.getBarHistory, hslot]
    refine h.cache ?_ history hhistory
    simpa [injectWarmupBars, Function.update_of_ne hother] using hvalid

/-- Injecting the warmup bars fills the slots of their timeframes, once each. -/
theorem Follows.injectAll {controller : BarRenderingController}
    (h : Follows symbol timeframe maxHistory required warmup [] controller)
    {warmupBars : List (Timeframe × List Bar)} (hdistinct : (warmupBars.map Prod.fst).Nodup) :
    (timeframe ∉ warmupBars.map Prod.fst →
      Follows symbol timeframe maxHistory required warmup []
        (controller.injectWarmupBars symbol warmupBars)) ∧
    ∀ bars, (timeframe, bars) ∈ warmupBars →
      Follows symbol timeframe maxHistory required (warmup ++ bars.map Bar.timestamp) []
        (controller.injectWarmupBars symbol warmupBars) := by
  induction warmupBars generalizing controller warmup with
  | nil => exact ⟨fun _ => h, fun bars hmem => absurd hmem List.not_mem_nil⟩
  | cons entry warmupBars ih =>
      obtain ⟨other, otherBars⟩ := entry
      rw [List.map_cons, List.nodup_cons] at hdistinct
      rw [injectWarmupBars_cons]
      by_cases hsame : timeframe = other
      · subst hsame
        refine ⟨fun hnot => absurd List.mem_cons_self hnot, fun bars hmem => ?_⟩
        rcases List.mem_cons.mp hmem with heq | hlater
        · cases heq
          exact (ih (h.inject otherBars) hdistinct.2).1 hdistinct.1
        · exact absurd (List.mem_map_of_mem (f := Prod.fst) hlater) hdistinct.1
      · have hafter := ih (h.inject_other hsame otherBars) hdistinct.2
        refine ⟨fun hnot => hafter.1 fun hmem => hnot (List.mem_cons_of_mem _ hmem),
          fun bars hmem => hafter.2 bars ?_⟩
        rcases List.mem_cons.mp hmem with heq | hlater
        · cases heq
          exact absurd rfl hsame
        · exact hlater

theorem injected_follows {rows : List TickRow} {startTime : Instant}
    {requirements : List (Timeframe × ℕ)} (hdistinct : (requirements.map Prod.fst).Nodup)
    {warmupCount : ℕ} (hrequirement : (timeframe, warmupCount) ∈ requirements) :
    Follows symbol timeframe maxHistory required
      ((warmupCut (renderSingleTimeframe symbol timeframe rows) startTime warmupCount).map
        Bar.timestamp) []
      (injected symbol maxHistory required rows startTime requirements) := by
  have hfresh : Follows symbol timeframe maxHistory required [] []
      { renderer := { maxHistory := maxHistory }, requiredTimeframes := required } := by
    refine ⟨rfl, rfl, ⟨?_, rfl, rfl⟩, fun hvalid => by cases hvalid⟩
    simp [openedPeriods, tail]
  have hnames : (prepareWarmup symbol rows startTime requirements).map Prod.fst =
      requirements.map Prod.fst := by
    rw [prepareWarmup, List.map_map]
    rfl
  refine (hfresh.injectAll (hnames ▸ hdistinct)).2 _ ?_
  exact List.mem_map.mpr ⟨(timeframe, warmupCount), hrequirement, rfl⟩

end Controllers

section Results

variable {symbol : String} {timeframe : Timeframe} {rows : List TickRow} {startTime : Instant}
  {warmupCount : ℕ}

/-- The first of the ticks lies in the period the scenario starts in. -/
def FirstInside (timeframe : Timeframe) (startTime : Instant) (ticks : List TickData) : Prop :=
  ∃ tick ∈ ticks.head?,
    getBarStartTime tick.timestamp timeframe = getBarStartTime startTime timeframe

theorem openedPeriods_ge {ticks : List TickData}
    (hafter : ∀ tick ∈ ticks, startTime ≤ tick.timestamp) :
    ∀ period ∈ openedPeriods timeframe ticks, getBarStartTime startTime timeframe ≤ period := by
  induction ticks using List.reverseRecOn with
  | nil => simp [openedPeriods]
  | append_singleton ticks tick ih =>
      intro period hperiod
      have hbefore := ih fun earlier hearlier => hafter earlier (List.mem_append_left _ hearlier)
      rw [openedPeriods_concat] at hperiod
      split at hperiod
      · exact hbefore period hperiod
      · rcases List.mem_append.mp hperiod with hold | hnew
        · exact hbefore period hold
        · rw [List.mem_singleton.mp hnew]
          exact getBarStartTime_mono timeframe
            (hafter tick (List.mem_append_right _ List.mem_cons_self))

/-- Warmup periods up to the start's and opened periods from it on ascend together, unless
both hold it. -/
theorem periods_ascend {warmup : List Instant} {ticks : List TickData}
    (hwarmup : warmup.Pairwise (· < ·))
    (hbefore : ∀ period ∈ warmup, period ≤ getBarStartTime startTime timeframe)
    (hafter : ∀ tick ∈ ticks, startTime ≤ tick.timestamp)
    (hordered : ticks.Pairwise fun tick later => tick.timestamp ≤ later.timestamp)
    (hapart : ¬(getBarStartTime startTime timeframe ∈ warmup ∧
      FirstInside timeframe startTime ticks)) :
    (warmup ++ openedPeriods timeframe ticks).Pairwise (· < ·) := by
  have hascending : (openedPeriods timeframe ticks).Pairwise (· < ·) :=
    (openedPeriods_ascending hordered).1
  have hge : ∀ period ∈ openedPeriods timeframe ticks,
      getBarStartTime startTime timeframe ≤ period := openedPeriods_ge hafter
  refine List.pairwise_append.mpr ⟨hwarmup, hascending, fun period hperiod opened hopened => ?_⟩
  have hle := (hbefore period hperiod).trans (hge opened hopened)
  refine lt_of_le_of_ne hle fun heq => hapart ?_
  -- both are the period of the start, and nothing opened comes before it
  have hstart : opened = getBarStartTime startTime timeframe :=
    le_antisymm (heq ▸ hbefore period hperiod) (hge opened hopened)
  refine ⟨hstart ▸ heq ▸ hperiod, ?_⟩
  have hhead : (openedPeriods timeframe ticks).head? =
      ticks.head?.map fun tick => getBarStartTime tick.timestamp timeframe :=
    openedPeriods_head? ticks
  cases hfirst : (openedPeriods timeframe ticks).head? with
  | none =>
      rw [List.head?_eq_none_iff] at hfirst
      rw [hfirst] at hopened
      exact absurd hopened List.not_mem_nil
  | some first =>
      have hlow := hge first (List.mem_of_mem_head? hfirst)
      have hhigh : first ≤ opened := by
        obtain ⟨later, hlater⟩ := List.head?_eq_some_iff.mp hfirst
        rw [hlater] at hopened hascending
        rcases List.mem_cons.mp hopened with heq | hmem
        · exact heq.ge
        · exact ((List.pairwise_cons.mp hascending).1 opened hmem).le
      rw [hfirst] at hhead
      obtain ⟨tick, htick, hperiod⟩ := Option.map_eq_some_iff.mp hhead.symm
      exact ⟨tick, htick, hperiod.trans (le_antisymm (hstart ▸ hhigh) hlow)⟩

theorem dropLast_append_getLast {α : Type} (xs : List α) :
    xs.dropLast ++ xs.getLast?.toList = xs := by
  cases hlast : xs.getLast? with
  | none =>
      rw [List.getLast?_eq_none_iff] at hlast
      subst hlast
      rfl
  | some last => exact List.dropLast_append_getLast? _ hlast

theorem shown_ascending {limit : ℕ} {warmup periods : List Instant}
    (h : (warmup ++ periods).Pairwise (· < ·)) :
    (tail limit (warmup ++ periods.dropLast) ++ periods.getLast?.toList).Pairwise (· < ·) := by
  rw [← dropLast_append_getLast periods, ← List.append_assoc] at h
  exact h.sublist ((tail_suffix _ _).sublist.append (List.Sublist.refl _))

theorem exists_take_filterMap {α β : Type} {f : α → Option β} {xs : List α} {y : β}
    (h : (xs.filterMap f).head? = some y) : ∃ n, (xs.take n).filterMap f = [y] := by
  induction xs with
  | nil => cases h
  | cons x xs ih =>
      cases hx : f x with
      | none =>
          rw [List.filterMap_cons_none hx] at h
          obtain ⟨n, hn⟩ := ih h
          exact ⟨n + 1, by rw [List.take_succ_cons, List.filterMap_cons_none hx, hn]⟩
      | some z =>
          rw [List.filterMap_cons_some hx, List.head?_cons] at h
          exact ⟨1, by simpa [hx] using h⟩

/-- Warmup and bar history of one timeframe of a scenario: no bar looks ahead and no period
repeats, exactly unless the scenario starts inside a period the warmup has a bar for, and a
row of the archive or the scenario's first tick lies in the rest of that period. -/
theorem warmup_apart_iff (symbol : String) (maxHistory : ℕ) {required : List Timeframe}
    {rows : List TickRow} (hrows : rows.Pairwise fun row later => row.timestamp ≤ later.timestamp)
    (startTime : Instant) {requirements : List (Timeframe × ℕ)}
    (hdistinct : (requirements.map Prod.fst).Nodup) {timeframe : Timeframe} {warmupCount : ℕ}
    (hrequired : timeframe ∈ required) (hrequirement : (timeframe, warmupCount) ∈ requirements)
    {calls : List ControllerCall}
    (hcalls : ∀ tick ∈ calls.filterMap ControllerCall.tick?,
      tick.symbol = symbol ∧ startTime ≤ tick.timestamp)
    (hordered : (calls.filterMap ControllerCall.tick?).Pairwise
      fun tick later => tick.timestamp ≤ later.timestamp) :
    (NoLookAhead rows timeframe startTime
        (warmupCut (renderSingleTimeframe symbol timeframe rows) startTime warmupCount) ∧
      ∀ n, (historyPeriods symbol timeframe ((calls.take n).foldl (controllerStep symbol)
        (injected symbol maxHistory required rows startTime requirements))).Pairwise (· < ·)) ↔
    ¬(CutInside rows timeframe startTime warmupCount ∧
      ((∃ row ∈ rows,
          getBarStartTime row.timestamp timeframe = getBarStartTime startTime timeframe ∧
            startTime ≤ row.timestamp) ∨
        0 < maxHistory ∧
          FirstInside timeframe startTime (calls.filterMap ControllerCall.tick?))) := by
  have hfollows : ∀ n, Follows symbol timeframe maxHistory required
      ((warmupCut (renderSingleTimeframe symbol timeframe rows) startTime warmupCount).map
        Bar.timestamp) ((calls.take n).filterMap ControllerCall.tick?)
      ((calls.take n).foldl (controllerStep symbol)
        (injected symbol maxHistory required rows startTime requirements)) := by
    intro n
    refine (injected_follows hdistinct hrequirement).run hrequired fun tick htick => ?_
    exact (hcalls tick (((List.take_sublist n calls).filterMap _).subset htick)).1
  have hhistory := fun n => (hfollows n).historyPeriods
  have hwarmup : ((warmupCut (renderSingleTimeframe symbol timeframe rows) startTime
      warmupCount).map Bar.timestamp).Pairwise (· < ·) := warmup_ascending hrows
  have hbefore : ∀ period ∈ (warmupCut (renderSingleTimeframe symbol timeframe rows) startTime
      warmupCount).map Bar.timestamp, period ≤ getBarStartTime startTime timeframe := by
    intro period hperiod
    obtain ⟨bar, hbar, rfl⟩ := List.mem_map.mp hperiod
    exact start_le_of_lt timeframe (warmup_start hbar).2 (warmup_start hbar).1
  have hcut : getBarStartTime startTime timeframe ∈
      (warmupCut (renderSingleTimeframe symbol timeframe rows) startTime warmupCount).map
        Bar.timestamp ↔ CutInside rows timeframe startTime warmupCount := mem_warmup_iff hrows
  rw [noLookAhead_iff hrows, ← hcut]
  generalize (warmupCut (renderSingleTimeframe symbol timeframe rows) startTime warmupCount).map
    Bar.timestamp = warmup at *
  rw [and_or_left, not_or]
  refine and_congr_right fun _ => ?_
  constructor
  · rintro hascending ⟨hmem, hlimit, first, hfirst, hperiod⟩
    obtain ⟨n, hn⟩ := exists_take_filterMap hfirst
    have hrepeat := hascending n
    rw [hhistory n, hn] at hrepeat
    have hlast : (tail maxHistory warmup).getLast? =
        some (getBarStartTime startTime timeframe) := by
      rw [getLast?_tail hlimit]
      exact getLast?_of_max hwarmup hmem hbefore
    have hopened : openedPeriods timeframe [first] = [getBarStartTime first.timestamp timeframe] :=
      rfl
    rw [hopened, List.dropLast_singleton, List.append_nil, List.getLast?_singleton, hperiod]
      at hrepeat
    have hlt := (List.pairwise_append.mp hrepeat).2.2 _ (List.mem_of_mem_getLast? hlast) _
      List.mem_cons_self
    exact lt_irrefl _ hlt
  · intro hapart n
    rw [hhistory n]
    rcases Nat.eq_zero_or_pos maxHistory with hzero | hpos
    · subst hzero
      rw [show ∀ xs : List Instant, tail 0 xs = [] from fun xs => List.drop_length, List.nil_append]
      cases (openedPeriods timeframe ((calls.take n).filterMap ControllerCall.tick?)).getLast? with
      | none => exact List.Pairwise.nil
      | some last => exact List.pairwise_singleton _ _
    · have hsub := (List.take_sublist n calls).filterMap ControllerCall.tick?
      have hfirst : FirstInside timeframe startTime
          ((calls.take n).filterMap ControllerCall.tick?) →
          FirstInside timeframe startTime (calls.filterMap ControllerCall.tick?) := by
        rintro ⟨first, hfirst, hperiod⟩
        refine ⟨first, ?_, hperiod⟩
        rw [← List.take_append_drop n calls, List.filterMap_append, List.head?_append, hfirst]
        rfl
      refine shown_ascending (periods_ascend hwarmup hbefore
        (fun tick htick => (hcalls tick (hsub.subset htick)).2) (hordered.sublist hsub) ?_)
      rintro ⟨hmem, hinside⟩
      exact hapart ⟨hmem, hpos, hfirst hinside⟩

def processedAt (n : ℤ) : ControllerCall :=
  .processTick { timestamp := minute n, symbol := "BTCUSD", bid := 100, ask := 102 }

theorem warmup_apart_iff_aligned :
    NoLookAhead [rowAt 1, rowAt 6, rowAt 8, rowAt 11] .m5 (minute 10)
        (warmupCut (renderSingleTimeframe "BTCUSD" .m5 [rowAt 1, rowAt 6, rowAt 8, rowAt 11])
          (minute 10) 2) ∧
      ∀ n, (historyPeriods "BTCUSD" .m5
        (([processedAt 11, .getAllBarHistory, processedAt 16].take n).foldl (controllerStep "BTCUSD")
          (injected "BTCUSD" 1000 [.m5] [rowAt 1, rowAt 6, rowAt 8, rowAt 11] (minute 10)
            [(.m5, 2)]))).Pairwise (· < ·) :=
  (warmup_apart_iff "BTCUSD" 1000 (by decide +kernel) (minute 10) (by decide)
    List.mem_cons_self List.mem_cons_self (by decide +kernel) (by decide +kernel)).mpr
    fun hinside => absurd hinside.1.2.1 (by decide +kernel)

/-- A scenario from minute 7 takes the bar of minutes 5 to 9 as warmup, and renders it again. -/
theorem warmup_midPeriod_repeated :
    ¬NoLookAhead [rowAt 1, rowAt 6, rowAt 8] .m5 (minute 7)
        (warmupCut (renderSingleTimeframe "BTCUSD" .m5 [rowAt 1, rowAt 6, rowAt 8])
          (minute 7) 2) ∧
      ¬∀ n, (historyPeriods "BTCUSD" .m5
        (([processedAt 8].take n).foldl (controllerStep "BTCUSD")
          (injected "BTCUSD" 1000 [.m5] [rowAt 1, rowAt 6, rowAt 8] (minute 7)
            [(.m5, 2)]))).Pairwise (· < ·) := by
  refine ⟨by decide +kernel, fun hascending => absurd (hascending 1) ?_⟩
  decide +kernel

end Results

end Finiex.BarHistory
