import Finiex.Fees
import Mathlib.Data.List.Dedup
import Mathlib.Logic.Function.Basic

/-!
# Bars

The bar files rendered from a tick archive, the warmup cut taken from them, and the
renderer that builds bars from the ticks of a scenario.
-/

namespace Finiex.Bars

open Finiex.Types
open Finiex.Fees

inductive Timeframe
  | m1 | m5 | m15 | m30 | h1 | h4 | d1
  deriving DecidableEq, Repr

def Timeframe.minutes : Timeframe → ℤ
  | .m1 => 1
  | .m5 => 5
  | .m15 => 15
  | .m30 => 30
  | .h1 => 60
  | .h4 => 240
  | .d1 => 1440

def microsecondsPerMinute : ℤ := 60000000

def Timeframe.duration (timeframe : Timeframe) : ℤ := timeframe.minutes * microsecondsPerMinute

structure Bar where
  symbol : String
  timeframe : Timeframe
  timestamp : Instant
  open_ : ℚ := 0
  high : ℚ := 0
  low : ℚ := 0
  close : ℚ := 0
  volume : ℚ := 0
  tickCount : ℕ := 0
  isComplete : Bool := false
  deriving DecidableEq

def Bar.updateWithTick (bar : Bar) (tickPrice tickVolume : ℚ) : Bar :=
  let fresh := bar.open_ = 0
  { bar with
    open_ := if fresh then tickPrice else bar.open_
    high := if fresh then tickPrice else max bar.high tickPrice
    low := if fresh then tickPrice else min bar.low tickPrice
    close := tickPrice
    volume := bar.volume + tickVolume
    tickCount := bar.tickCount + 1 }

def dayStart (t : Instant) : Instant := dayOf t * microsecondsPerDay

/-- `get_bar_start_time`: the minute of the day, rounded down to the timeframe. -/
def getBarStartTime (timestamp : Instant) (timeframe : Timeframe) : Instant :=
  let totalMinutes := (timestamp - dayStart timestamp) / microsecondsPerMinute
  dayStart timestamp + totalMinutes / timeframe.minutes * timeframe.minutes * microsecondsPerMinute

section Rendering

structure TickRow where
  timestamp : Instant
  timeMsc : ℤ
  collectedMsc : ℤ := 0
  bid : ℚ
  ask : ℚ
  volume : ℚ := 0
  deriving DecidableEq

def TickRow.mid (row : TickRow) : ℚ := (row.bid + row.ask) / 2

/-- The bin of a resampling: bins are counted from midnight of the first row's day. -/
def resampleBin (origin : Instant) (timeframe : Timeframe) (t : Instant) : Instant :=
  origin + (t - origin) / timeframe.duration * timeframe.duration

def aggregate (symbol : String) (timeframe : Timeframe) (start : Instant) (rows : List TickRow) :
    Bar where
  symbol := symbol
  timeframe := timeframe
  timestamp := start
  open_ := (rows.head?.map TickRow.mid).getD 0
  high := (rows.map TickRow.mid).foldl max ((rows.head?.map TickRow.mid).getD 0)
  low := (rows.map TickRow.mid).foldl min ((rows.head?.map TickRow.mid).getD 0)
  close := (rows.getLast?.map TickRow.mid).getD 0
  volume := (rows.map TickRow.volume).sum
  tickCount := rows.length

/-- `_render_single_timeframe`, on rows in the order of their timestamps: one bar for each
bin that holds a row. -/
def renderSingleTimeframe (symbol : String) (timeframe : Timeframe) (rows : List TickRow) :
    List Bar :=
  match rows.head? with
  | none => []
  | some first =>
      let bin := fun row : TickRow => resampleBin (dayStart first.timestamp) timeframe row.timestamp
      (rows.map bin).dedup.map fun start =>
        aggregate symbol timeframe start (rows.filter fun row => bin row = start)

end Rendering

section Warmup

def tail {α : Type} (n : ℕ) (xs : List α) : List α := xs.drop (xs.length - n)

/-- The warmup bars cut from the bars of a file: the last ones that start before the
scenario. -/
def warmupCut (bars : List Bar) (startTime : Instant) (warmupCount : ℕ) : List Bar :=
  tail warmupCount (bars.filter fun bar => bar.timestamp < startTime)

/-- `deserialize_bars_batch`: the symbol is the scenario's, and every bar counts as complete. -/
def deserializeBars (symbol : String) (bars : List Bar) : List Bar :=
  bars.map fun bar => { bar with symbol := symbol, isComplete := true }

def timeframeName : Timeframe → String
  | .m1 => "M1"
  | .m5 => "M5"
  | .m15 => "M15"
  | .m30 => "M30"
  | .h1 => "H1"
  | .h4 => "H4"
  | .d1 => "D1"

end Warmup

section Renderer

/-- Append to a deque that keeps its last `limit` elements. -/
def appendDeque {α : Type} (limit : ℕ) (xs : List α) (x : α) : List α := tail limit (xs ++ [x])

/-- What the renderer keeps for one timeframe and symbol. -/
structure BarSlot where
  currentBar : Option Bar := none
  currentBarStart : Option Instant := none
  completedBars : List Bar := []
  deriving DecidableEq

structure BarRenderer where
  maxHistory : ℕ := 1000
  slots : Timeframe → String → BarSlot := fun _ _ => {}

def isBarComplete (barStart currentTime : Instant) (timeframe : Timeframe) : Bool :=
  decide (barStart + timeframe.duration ≤ currentTime)

/-- One timeframe's share of `update_current_bars`, and whether a bar was closed. -/
def updateSlot (maxHistory : ℕ) (tick : TickData) (timeframe : Timeframe) (slot : BarSlot) :
    BarSlot × Bool :=
  let barStart := getBarStartTime tick.timestamp timeframe
  let opened : Bar := { symbol := tick.symbol, timeframe := timeframe, timestamp := barStart }
  let finish := fun bar : Bar =>
    let updated := bar.updateWithTick tick.mid tick.volume
    if isBarComplete barStart tick.timestamp timeframe then { updated with isComplete := true }
    else updated
  match slot.currentBar with
  | none =>
      ({ slot with currentBar := some (finish opened), currentBarStart := some barStart }, false)
  | some current =>
      if slot.currentBarStart = some barStart then
        ({ slot with currentBar := some (finish current) }, false)
      else
        ({ currentBar := some (finish opened)
           currentBarStart := some barStart
           completedBars :=
             appendDeque maxHistory slot.completedBars { current with isComplete := true } }, true)

def BarRenderer.updateCurrentBars (renderer : BarRenderer) (tick : TickData)
    (requiredTimeframes : List Timeframe) : BarRenderer × (Timeframe → Bool) :=
  let updated := fun timeframe =>
    updateSlot renderer.maxHistory tick timeframe (renderer.slots timeframe tick.symbol)
  ({ renderer with slots := fun timeframe symbol =>
      if timeframe ∈ requiredTimeframes ∧ symbol = tick.symbol then (updated timeframe).1
      else renderer.slots timeframe symbol },
    fun timeframe => decide (timeframe ∈ requiredTimeframes) && (updated timeframe).2)

def BarRenderer.getBarHistory (renderer : BarRenderer) (symbol : String) (timeframe : Timeframe) :
    List Bar := (renderer.slots timeframe symbol).completedBars

def BarRenderer.getCurrentBar (renderer : BarRenderer) (symbol : String) (timeframe : Timeframe) :
    Option Bar := (renderer.slots timeframe symbol).currentBar

def BarRenderer.initializeHistoricalBars (renderer : BarRenderer) (symbol : String)
    (timeframe : Timeframe) (bars : List Bar) : BarRenderer :=
  { renderer with slots := fun timeframe' symbol' =>
      let slot := renderer.slots timeframe' symbol'
      if timeframe' = timeframe ∧ symbol' = symbol then
        { slot with
          completedBars := bars.foldl (appendDeque renderer.maxHistory) slot.completedBars }
      else slot }

structure BarRenderingController where
  renderer : BarRenderer := {}
  requiredTimeframes : List Timeframe
  cachedBarHistory : Timeframe → Option (List Bar) := fun _ => none
  cacheValid : Timeframe → Bool := fun _ => false

namespace BarRenderingController

def processTick (controller : BarRenderingController) (tick : TickData) : BarRenderingController :=
  let (renderer, closed) :=
    controller.renderer.updateCurrentBars tick controller.requiredTimeframes
  { controller with
    renderer := renderer
    cacheValid := fun timeframe => controller.cacheValid timeframe && !closed timeframe }

/-- The cached history of a timeframe, rebuilt when a bar has closed since. -/
def historyOf (controller : BarRenderingController) (symbol : String) (timeframe : Timeframe) :
    List Bar :=
  match controller.cacheValid timeframe, controller.cachedBarHistory timeframe with
  | true, some history => history
  | _, _ => controller.renderer.getBarHistory symbol timeframe

/-- `get_all_bar_history`: the histories, and the controller with its cache filled. -/
def getAllBarHistory (controller : BarRenderingController) (symbol : String) :
    BarRenderingController × (Timeframe → List Bar) :=
  ({ controller with
      cachedBarHistory := fun timeframe =>
        if timeframe ∈ controller.requiredTimeframes then some (controller.historyOf symbol timeframe)
        else controller.cachedBarHistory timeframe
      cacheValid := fun timeframe =>
        decide (timeframe ∈ controller.requiredTimeframes) || controller.cacheValid timeframe },
    controller.historyOf symbol)

def injectWarmupBars (controller : BarRenderingController) (symbol : String)
    (warmupBars : List (Timeframe × List Bar)) : BarRenderingController :=
  warmupBars.foldl (fun controller (timeframe, bars) =>
    { controller with
      renderer := controller.renderer.initializeHistoricalBars symbol timeframe
        (deserializeBars symbol bars)
      cacheValid := Function.update controller.cacheValid timeframe false }) controller

end BarRenderingController

end Renderer

section Minutes

def minute (n : ℤ) : Instant := n * microsecondsPerMinute

def rowAt (n : ℤ) : TickRow where
  timestamp := minute n
  timeMsc := 60000 * n
  bid := 100
  ask := 102

end Minutes

end Finiex.Bars
