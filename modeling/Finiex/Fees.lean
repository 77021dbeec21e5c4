import Finiex.Types
import Mathlib.Algebra.Order.Ring.Abs
import Mathlib.Algebra.Order.Ring.Rat
import Mathlib.Algebra.Field.Rat
import Mathlib.Algebra.Group.Defs

namespace Finiex.Fees

open Finiex.Types

inductive FeeDetail
  | spread (bid ask lots tickValue : ℚ) (digits : ℕ)
  | swap (swapRatePoints : ℚ) (daysHeld : ℤ) (tickValue lots : ℚ) (timestamp : Instant)
  | commission (commissionRate lots : ℚ)
  | makerTaker (isMaker : Bool) (makerRate takerRate orderValue : ℚ)
  deriving DecidableEq

/-- `AbstractTradingFee`; `cost` is set from the detail and scaled by partial closes. -/
structure TradingFee where
  detail : FeeDetail
  cost : ℚ
  deriving DecidableEq

def FeeDetail.calculateCost : FeeDetail → ℚ
  | .spread bid ask lots tickValue digits => |(ask - bid) * 10 ^ digits * tickValue * lots|
  | .swap rate days tickValue lots _ => -(rate * days * tickValue * lots)
  | .commission _ _ => 0
  | .makerTaker isMaker makerRate takerRate orderValue =>
      |orderValue * ((if isMaker then makerRate else takerRate) / 100)|

def FeeDetail.charge (detail : FeeDetail) : TradingFee :=
  ⟨detail, detail.calculateCost⟩

def TradingFee.feeType (fee : TradingFee) : FeeType :=
  match fee.detail with
  | .spread .. => .spread
  | .swap .. => .swap
  | .commission .. => .commission
  | .makerTaker .. => .makerTaker

def spreadFee (bid ask lots tickValue : ℚ) (digits : ℕ) : TradingFee :=
  (FeeDetail.spread bid ask lots tickValue digits).charge

def swapFee (rate : ℚ) (days : ℤ) (tickValue lots : ℚ) (timestamp : Instant) : TradingFee :=
  (FeeDetail.swap rate days tickValue lots timestamp).charge

def createMakerTakerFee (lots contractSize entryPrice makerRate takerRate : ℚ)
    (isMaker : Bool) : TradingFee :=
  (FeeDetail.makerTaker isMaker makerRate takerRate (lots * contractSize * entryPrice)).charge

def createSpreadFeeFromTick (tick : TickData) (lots tickValue : ℚ) (digits : ℕ) : TradingFee :=
  spreadFee tick.bid tick.ask lots tickValue digits

structure CostBreakdown where
  totalSpreadCost : ℚ := 0
  totalCommission : ℚ := 0
  totalSwap : ℚ := 0
  makerFee : ℚ := 0
  takerFee : ℚ := 0
  totalFees : ℚ := 0
  currency : String := ""
  deriving DecidableEq

def CostBreakdown.recordFeeCost (costs : CostBreakdown) (fee : TradingFee) : CostBreakdown :=
  let categorized := match fee.detail with
    | .spread .. => { costs with totalSpreadCost := costs.totalSpreadCost + fee.cost }
    | .commission .. => { costs with totalCommission := costs.totalCommission + fee.cost }
    | .swap .. => { costs with totalSwap := costs.totalSwap + fee.cost }
    | .makerTaker true _ _ _ => { costs with makerFee := costs.makerFee + fee.cost }
    | .makerTaker false _ _ _ => { costs with takerFee := costs.takerFee + fee.cost }
  { categorized with totalFees := costs.totalFees + fee.cost }

section Calendar

def microsecondsPerDay : ℤ := 86400000000

def dayOf (t : Instant) : ℤ := t.fdiv microsecondsPerDay

/-- Monday is 0; 1970-01-01 was a Thursday. -/
def weekday (day : ℤ) : ℤ := (day + 3) % 7

def mt5WeekdayToPython (mt5Weekday : ℤ) : ℤ := (mt5Weekday - 1) % 7

/-- The timezone database: UTC offset in force at a local wall-clock instant. -/
abbrev ZoneDatabase := String → Instant → ℤ

def localTimeToUtc (zones : ZoneDatabase) (day : ℤ) (rollover : SwapRolloverConfig) : Instant :=
  let wallClock :=
    day * microsecondsPerDay + ((rollover.hour : ℤ) * 60 + rollover.minute) * 60000000
  wallClock - zones rollover.timezone wallClock

/-- Scan `count` local days from `day` for crossings in `(start, end]`. -/
def scanRollovers (zones : ZoneDatabase) (rollover : SwapRolloverConfig)
    (tripleWeekdayPy : ℤ) (start «end» : Instant) : ℕ → ℤ → List (Instant × ℤ)
  | 0, _ => []
  | count + 1, day =>
      let rest := scanRollovers zones rollover tripleWeekdayPy start «end» count (day + 1)
      if weekday day ≤ 4 then
        let rolloverUtc := localTimeToUtc zones day rollover
        if start < rolloverUtc ∧ rolloverUtc ≤ «end» then
          (rolloverUtc, if weekday day = tripleWeekdayPy then 3 else 1) :: rest
        else rest
      else rest

/-- The rollover crossings in `(start, end]`, each with its swap-day multiplier. -/
def iterSwapRollovers (zones : ZoneDatabase) (rollover : SwapRolloverConfig)
    (tripleWeekdayPy : ℤ) (start «end» : Instant) : List (Instant × ℤ) :=
  if start ≥ «end» then []
  else
    -- one day of padding on each side, as a UTC day may start on another local day
    let current := dayOf (start - microsecondsPerDay)
    let last := dayOf («end» + microsecondsPerDay)
    scanRollovers zones rollover tripleWeekdayPy start «end» (last - current + 1).toNat current

end Calendar

end Finiex.Fees
