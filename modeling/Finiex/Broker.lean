import Finiex.Types
import Finiex.Lib.Rounding
import Mathlib.Algebra.Order.Ring.Rat

namespace Finiex.Broker

open Finiex.Types
open Finiex.Lib
open Finiex.Lib.Rounding

def getSymbolSpecification (broker : BrokerConfig) (symbol : String) :
    Except PyError SymbolSpecification :=
  match broker.symbols.get? symbol with
  | some spec => .ok spec
  | none => .error (.symbolNotFound symbol)

def isSymbolTradeable (broker : BrokerConfig) (symbol : String) : Bool :=
  match broker.symbols.get? symbol with
  | some spec => spec.tradeAllowed
  | none => false

/-- Python's `%` on a positive divisor. -/
def remainder (x step : ℚ) : ℚ := x - step * ⌊x / step⌋

/-- `_validate_lot_size`: `none` is a valid size, otherwise the error text. -/
def validateLotSize (spec : SymbolSpecification) (lots : ℚ) : Option RejectionMessage :=
  if lots < spec.volumeMin then some (.lotSizeBelowMinimum lots spec.volumeMin)
  else if spec.volumeMax < lots then some (.lotSizeExceedsMaximum lots spec.volumeMax)
  else
    let rest := remainder (lots - spec.volumeMin) spec.volumeStep
    if 0 < spec.volumeStep ∧ 1 / 1000000 < rest ∧ 1 / 1000000 < spec.volumeStep - rest then
      some (.lotSizeNotAligned lots spec.volumeStep)
    else none

def validateOrder (broker : BrokerConfig) (symbol : String) (lots : ℚ) :
    Except PyError (Option RejectionMessage) :=
  match broker.symbols.get? symbol with
  | none => .error (.symbolNotFound symbol)
  | some spec =>
      if spec.tradeAllowed then .ok (validateLotSize spec lots)
      else match broker.kind with
        | .mt5 => .error (.tradingNotAllowed symbol)
        | .kraken => .ok (some (.tradingNotAllowed symbol))

def calculateMargin (broker : BrokerConfig) (symbol : String) (lots : ℚ) (tick : TickData)
    (direction : OrderDirection) : Except PyError ℚ := do
  let spec ← getSymbolSpecification broker symbol
  let positionValue :=
    if spec.marginCurrency = spec.quoteCurrency then lots * spec.contractSize
    else
      let price := match direction with
        | .long => tick.ask
        | .short => tick.bid
      lots * spec.contractSize * price
  if broker.leverage ≤ 1 then return positionValue
  return positionValue / broker.leverage

def roundPrice (digits : ℕ) (price : Option ℚ) : Option ℚ := price.map (roundTo digits)

end Finiex.Broker
