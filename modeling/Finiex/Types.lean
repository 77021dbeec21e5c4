import Finiex.Lib.Dict
import Mathlib.Data.Rat.Defs
import Mathlib.Data.Int.Notation

/-!
# Shared data types

The records and enumerations the trading environment passes around. Prices, lots
and money are exact rationals, an instant is a number of microseconds since the
epoch (UTC), and `msc` values are milliseconds.
-/

namespace Finiex.Types

open Finiex.Lib

/-- Microseconds since the epoch, UTC. -/
abbrev Instant := ℤ

-- Days of a year and identities of envelopes are looked up as pairs of numbers.
instance lawfulPairs : LawfulBEq (ℤ × ℤ) := inferInstance

inductive OrderType
  | market | limit | stop | stopLimit | trailingStop | iceberg
  deriving DecidableEq, Repr

inductive OrderDirection
  | long | short
  deriving DecidableEq, Repr

inductive OrderSide
  | buy | sell
  deriving DecidableEq, Repr

inductive OrderAction
  | openAction | closeAction
  deriving DecidableEq, Repr

inductive CloseType
  | full | partialClose
  deriving DecidableEq, Repr

inductive CloseReason
  | manual | slTriggered | tpTriggered | scenarioEnd
  deriving DecidableEq, Repr

inductive EntryType
  | market | limit | stop | stopLimit
  deriving DecidableEq, Repr

inductive FillType
  | market | limit | limitImmediate | stop | stopLimit
  deriving DecidableEq, Repr

inductive OrderStatus
  | pending | submitted | executed | partiallyFilled | rejected | cancelled | expired
  deriving DecidableEq, Repr

inductive BrokerOrderStatus
  | pending | filled | partiallyFilled | rejected | cancelled | expired
  deriving DecidableEq, Repr

inductive RejectionReason
  | insufficientMargin | insufficientFunds | invalidLotSize | symbolNotTradeable
  | marketClosed | invalidPrice | orderTypeNotSupported | brokerError
  | rejectionCooldown | staleMarketData
  deriving DecidableEq, Repr

inductive RejectionMessage
  | empty
  | lotSizeBelowMinimum (lots minimum : ℚ)
  | lotSizeExceedsMaximum (lots maximum : ℚ)
  | lotSizeNotAligned (lots step : ℚ)
  | tradingNotAllowed (symbol : String)
  | symbolNotTradeable (symbol : String)
  | limitRequiresPositivePrice (got : Option ℚ)
  | stopRequiresPositiveStopPrice (got : Option ℚ)
  | stopLimitRequiresPositiveStopPrice (got : Option ℚ)
  | stopLimitRequiresPositiveLimitPrice (got : Option ℚ)
  | orderTypeNotSupported (orderType : OrderType)
  | requiredMarginExceedsFree (required free : ℚ)
  | buyRequires (required : ℚ) (currency : String) (available : ℚ)
  | sellRequires (lots : ℚ) (currency : String) (available : ℚ)
  | stressTest (rejectionCount : ℕ)
  | positionNotFound (positionId : String)
  | notSupportedInLive (orderType : OrderType)
  | brokerRejected (reason : String)
  | brokerRejectedLimit (reason : String)
  | modifyRejected (reason : String)
  | brokerEnded (status : BrokerOrderStatus) (reason : String)
  | orderTimedOut (seconds : ℚ)
  | marketDataStale (secondsSinceLastTick : ℚ)
  | blockedByCooldown (direction : OrderDirection) (remainingSeconds : ℚ)
  deriving DecidableEq

inductive ModificationRejectionReason
  | positionNotFound | limitOrderNotFound | stopOrderNotFound | invalidSlLevel
  | invalidTpLevel | slTpCross | invalidPrice | noCurrentPrice | orderNotConfirmed
  | operationBusy | orderTypeNotSupported
  deriving DecidableEq, Repr

inductive ModificationStatus
  | pending | success | rejected
  deriving DecidableEq, Repr

inductive FeeType
  | spread | swap | commission | makerTaker
  deriving DecidableEq, Repr

inductive SwapMode
  | points | interestCurrent | interestOpen | percentage | none | unknown
  deriving DecidableEq, Repr

/-- A value of a modification call: absent (`UNSET`) or given. -/
inductive Setting (α : Type)
  | unset
  | given (value : α)
  deriving DecidableEq, Repr

namespace Setting

def getD {α : Type} (s : Setting α) (current : α) : α :=
  match s with
  | .unset => current
  | .given v => v

end Setting

def directionToSide (direction : OrderDirection) (action : OrderAction) : OrderSide :=
  match direction, action with
  | .long, .openAction => .buy
  | .long, .closeAction => .sell
  | .short, .openAction => .sell
  | .short, .closeAction => .buy

/-- The exceptions the modelled code raises. -/
inductive PyError
  | positionNotFound (positionId : String)
  | invalidTickValuePrice (currentPrice : ℚ)
  | crossCurrency (account symbol base quote : String)
  | symbolNotFound (symbol : String)
  | tradingNotAllowed (symbol : String)
  | noCurrentPriceData (symbol : String)
  | clockNotInjected
  | noCurrentTick
  | keyError (key : String)
  | typeError
  | zeroDivision
  | adapterError (text : String)
  deriving DecidableEq, Repr

structure TickData where
  timestamp : Instant
  symbol : String
  bid : ℚ
  ask : ℚ
  timeMsc : ℤ := 0
  collectedMsc : ℤ := 0
  volume : ℚ := 0
  deriving DecidableEq

def TickData.mid (tick : TickData) : ℚ := (tick.bid + tick.ask) / 2

structure SymbolSpecification where
  symbol : String
  volumeMin : ℚ
  volumeMax : ℚ
  volumeStep : ℚ
  tickSize : ℚ
  digits : ℕ
  contractSize : ℚ
  baseCurrency : String
  quoteCurrency : String
  marginCurrency : String
  tradeAllowed : Bool
  swapMode : SwapMode
  swapLong : ℚ
  swapShort : ℚ
  swapRollover3days : ℤ
  deriving DecidableEq

structure OrderCapabilities where
  stopOrders : Bool := false
  stopLimitOrders : Bool := false
  nativePositionSlTp : Bool := false
  deriving DecidableEq

/-- The broker's daily rollover: local wall-clock time and IANA timezone. -/
structure SwapRolloverConfig where
  hour : ℕ
  minute : ℕ
  timezone : String
  deriving DecidableEq

inductive BrokerKind
  | mt5 | kraken
  deriving DecidableEq, Repr

structure BrokerConfig where
  kind : BrokerKind
  symbols : Dict String SymbolSpecification
  leverage : ℕ
  capabilities : OrderCapabilities
  feeModel : FeeType
  makerFee : ℚ
  takerFee : ℚ

structure BrokerTrade where
  tradeId : String
  parentBrokerRef : String
  orderId : String
  volume : ℚ
  price : ℚ
  fee : ℚ
  feeCurrency : String
  timestamp : Instant
  side : OrderSide
  isMaker : Bool
  deriving DecidableEq

end Finiex.Types
