import Finiex.Orders
import Finiex.Lib.Pipeline

namespace Finiex.LiveTypes

open Finiex.Types
open Finiex.Orders

/-- A broker's reply in the unified form; `Raw` is the form the broker sent it in. -/
structure BrokerResponse (Raw : Type) where
  brokerRef : String
  status : BrokerOrderStatus
  fillPrice : Option ℚ := none
  filledLots : Option ℚ := none
  rejectionReason : Option String := none
  rawResponse : Option Raw := none

namespace BrokerResponse

variable {Raw : Type}

def isFilled (response : BrokerResponse Raw) : Bool := decide (response.status = .filled)

def isRejected (response : BrokerResponse Raw) : Bool := decide (response.status = .rejected)

def isTerminal (response : BrokerResponse Raw) : Bool :=
  match response.status with
  | .filled | .rejected | .cancelled | .expired => true
  | .pending | .partiallyFilled => false

def reasonText (response : BrokerResponse Raw) : String :=
  match response.rejectionReason with
  | none => "unknown"
  | some reason => if reason = "" then "unknown" else reason

end BrokerResponse

structure SubmitPayload where
  symbol : String
  direction : OrderDirection
  lots : ℚ
  price : Option ℚ := none

inductive Job
  | submit (orderId : String) (action : PendingOrderAction) (orderType : Types.OrderType)
      (payload : SubmitPayload)
  | edit (orderId brokerRef symbol : String) (newPrice newStopLoss newTakeProfit : Option ℚ)
  | cancel (orderId brokerRef : String)
  | positionModify (positionId symbol : String) (newStopLoss newTakeProfit : Option ℚ)
  | query (orderId brokerRef : String)
  | tradesQuery (orderId brokerRef : String)

structure TradesQueryResponse where
  orderId : String
  brokerRef : String
  trades : List BrokerTrade := []
  success : Bool := true

inductive Response (Raw : Type)
  | submit (orderId : String) (action : PendingOrderAction) (orderType : Types.OrderType)
      (response : BrokerResponse Raw)
  | edit (orderId : String) (response : BrokerResponse Raw)
  | cancel (orderId : String) (response : BrokerResponse Raw)
  | positionModify (positionId : String) (response : BrokerResponse Raw)
  | query (orderId : String) (response : BrokerResponse Raw)
  | tradesQuery (response : TradesQueryResponse)

/-- The parse layer of a live adapter; a parser may raise. The reference after the reply is
the one the request was made for. -/
structure BrokerAdapter (Raw : Type) where
  parseSubmitResponse : Raw → Except String (BrokerResponse Raw)
  parseModifyResponse : Raw → String → Except String (BrokerResponse Raw)
  parseCancelResponse : Raw → String → Except String (BrokerResponse Raw)
  parsePositionModifyResponse : Raw → String → Except String (BrokerResponse Raw)
  parseQueryResponse : Raw → String → Except String (BrokerResponse Raw)
  parseTradesQueryResponse : Raw → String → String → Except String (List BrokerTrade)

section Worker

variable {Raw : Type} (adapter : BrokerAdapter Raw)

/-- The response of a request that raised: REJECTED, with the exception as the reason. -/
def transportFailure (brokerRef text : String) : BrokerResponse Raw where
  brokerRef := brokerRef
  status := .rejected
  rejectionReason := some text

def guarded (brokerRef : String) (result : Except String (BrokerResponse Raw)) :
    BrokerResponse Raw :=
  match result with
  | .ok response => response
  | .error text => transportFailure brokerRef text

/-- `_dispatch_*_job`: the response to a job, from the reply of the transport or the text of
the exception it raised. -/
def dispatch (answer : Except String Raw) : Job → Response Raw
  | .submit orderId action orderType _ =>
      .submit orderId action orderType (guarded "" (answer >>= adapter.parseSubmitResponse))
  | .edit orderId brokerRef _ _ _ _ =>
      .edit orderId (guarded brokerRef (answer >>= (adapter.parseModifyResponse · brokerRef)))
  | .cancel orderId brokerRef =>
      .cancel orderId (guarded brokerRef (answer >>= (adapter.parseCancelResponse · brokerRef)))
  | .positionModify positionId _ _ _ =>
      .positionModify positionId
        (guarded positionId (answer >>= (adapter.parsePositionModifyResponse · positionId)))
  | .query orderId brokerRef =>
      .query orderId (guarded brokerRef (answer >>= (adapter.parseQueryResponse · brokerRef)))
  | .tradesQuery orderId brokerRef =>
      match answer >>= (adapter.parseTradesQueryResponse · brokerRef orderId) with
      | .ok trades => .tradesQuery ⟨orderId, brokerRef, trades, true⟩
      | .error _ => .tradesQuery ⟨orderId, brokerRef, [], false⟩

end Worker

end Finiex.LiveTypes
