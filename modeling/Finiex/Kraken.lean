import Finiex.LiveTypes
import Finiex.Lib.Rounding

namespace Finiex.Kraken

open Finiex.Types
open Finiex.Lib
open Finiex.Lib.Rounding
open Finiex.LiveTypes

structure OrderInfo where
  status : Option String := none
  price : Option ℚ := none
  volExec : Option ℚ := none
  deriving DecidableEq

/-- An entry of a QueryTrades reply; `time` is in seconds since the epoch. -/
structure TradeInfo where
  orderTxid : Option String := none
  pair : String := ""
  time : Option ℚ := none
  side : Option String := none
  orderType : String := ""
  price : Option ℚ := none
  vol : Option ℚ := none
  fee : Option ℚ := none
  deriving DecidableEq

/-- A result of the API: the transaction ids of AddOrder, the orders of QueryOrders by their
reference, or the trades of QueryTrades by their id. Other endpoints answer with none of these. -/
structure RawResult where
  txid : List String := []
  orders : Dict String OrderInfo := ∅
  tradesRaw : Dict String TradeInfo := ∅

/-- `kraken_pair_name` and `quote_currency` of the configured symbols. -/
structure PairConfig where
  krakenPairName : String
  quoteCurrency : Option String := none

/-- `_STATUS_MAP`, with PENDING for what it does not know. -/
def statusOf (krakenStatus : String) : BrokerOrderStatus :=
  if krakenStatus = "closed" then .filled
  else if krakenStatus = "canceled" then .cancelled
  else if krakenStatus = "expired" then .expired
  else .pending

/-- `order_info`, empty for an order the reply does not name. -/
def orderInfo (raw : RawResult) (brokerRef : String) : OrderInfo := raw.orders.getD brokerRef {}

def parseSubmitResponse (raw : RawResult) : BrokerResponse RawResult where
  brokerRef := raw.txid.headD ""
  status := .pending
  rawResponse := some raw

def parseQueryResponse (raw : RawResult) (brokerRef : String) : BrokerResponse RawResult :=
  let info := orderInfo raw brokerRef
  let status := statusOf (info.status.getD "pending")
  let isFilled := decide (status = .filled)
  { brokerRef := brokerRef
    status := status
    fillPrice := if isFilled then some (info.price.getD 0) else none
    filledLots := if isFilled then some (info.volExec.getD 0) else none
    rawResponse := some raw }

def parseCancelResponse (raw : RawResult) (brokerRef : String) : BrokerResponse RawResult where
  brokerRef := brokerRef
  status := .cancelled
  rawResponse := some raw

/-- An amended order keeps its reference. -/
def parseModifyResponse (raw : RawResult) (originalBrokerRef : String) :
    BrokerResponse RawResult where
  brokerRef := originalBrokerRef
  status := .pending
  rawResponse := some raw

def resolveQuoteCurrencyFromPair (pairs : List PairConfig) (pair : String) : String :=
  if pair = "" then "USD"
  else match pairs.find? fun config => decide (config.krakenPairName = pair) with
    | some config => config.quoteCurrency.getD "USD"
    | none => "USD"

def isMakerType (orderType : String) : Bool :=
  "limit".isPrefixOf orderType ||
    decide (orderType = "take-profit-limit" ∨ orderType = "stop-loss-limit")

def parseTrade (pairs : List PairConfig) (brokerRef orderId : String)
    (entry : String × TradeInfo) : BrokerTrade where
  tradeId := entry.1
  parentBrokerRef := entry.2.orderTxid.getD brokerRef
  orderId := orderId
  volume := entry.2.vol.getD 0
  price := entry.2.price.getD 0
  fee := entry.2.fee.getD 0
  feeCurrency := resolveQuoteCurrencyFromPair pairs entry.2.pair
  timestamp := roundHalfEven (entry.2.time.getD 0 * 1000000)
  side := if entry.2.side = some "buy" then .buy else .sell
  isMaker := isMakerType entry.2.orderType

def parseTradesQueryResponse (pairs : List PairConfig) (raw : RawResult)
    (brokerRef orderId : String) : List BrokerTrade :=
  raw.tradesRaw.entries.map (parseTrade pairs brokerRef orderId)

/-- The adapter has no request for the SL and TP of a position. -/
def adapter (pairs : List PairConfig) : BrokerAdapter RawResult where
  parseSubmitResponse raw := .ok (parseSubmitResponse raw)
  parseModifyResponse raw brokerRef := .ok (parseModifyResponse raw brokerRef)
  parseCancelResponse raw brokerRef := .ok (parseCancelResponse raw brokerRef)
  parsePositionModifyResponse _ _ :=
    .error "'KrakenAdapter' object has no attribute '_build_position_modify_payload'"
  parseQueryResponse raw brokerRef := .ok (parseQueryResponse raw brokerRef)
  parseTradesQueryResponse raw brokerRef orderId :=
    .ok (parseTradesQueryResponse pairs raw brokerRef orderId)

end Finiex.Kraken
