import Finiex.Lib.Index
import Finiex.LiveSteps

/-!
# Broker references at the request processor

The processor keeps its pending orders by order id and an index from broker references to
order ids. A submission receives its reference with the response to it; the state remembers
beside the processor which submission received which reference.
-/

namespace Finiex.LiveReferences

open Finiex.Types
open Finiex.Lib
open Finiex.Lib.Run
open Finiex.Orders
open Finiex.Portfolio
open Finiex.Executor
open Finiex.AuditTrail
open Finiex.LiveTypes
open Finiex.Live
open Finiex.LiveSpecs

variable {Raw : Type}

/-- The processor within its executor, and the submission that received each reference. -/
structure Referenced (Raw : Type) where
  executor : LiveTradeExecutor Raw
  received : Dict String PendingOrder := ∅

inductive ProcessorOp (Raw : Type)
  | moveMarket (market : MarketState)
  | registerPendingOpen (orderId : String) (request : OpenOrderRequest)
      (brokerRef : Option String)
  | registerPendingClose (positionId : String) (closeLots : Option ℚ) (brokerRef : Option String)
  | submitResponse (submission : PendingOrder) (response : BrokerResponse Raw)
  | markFilled (brokerRef : String) (fillPrice : Option ℚ)
  | markRejected (brokerRef : String)
  | updateBrokerRef (oldRef newRef : String)
  | clearPending

def introduces : ProcessorOp Raw → Option String
  | .registerPendingOpen _ _ brokerRef => brokerRef
  | .registerPendingClose _ _ brokerRef => brokerRef
  | .submitResponse _ response =>
      if response.isRejected then none else some response.brokerRef
  | .updateBrokerRef _ newRef => some newRef
  | _ => none

variable (cfg : LiveConfig Raw)

def register (s : Referenced Raw) (submission : PendingOrder) : Referenced Raw where
  executor := registerPending s.executor submission
  received := match submission.brokerRef with
    | none => s.received
    | some ref => s.received.set ref submission

def processorStep (s : Referenced Raw) : ProcessorOp Raw → Except PyError (Referenced Raw)
  | .moveMarket market => .ok { s with executor := { s.executor with market := market } }
  | .registerPendingOpen orderId request brokerRef =>
      .ok (register s (pendingOpen cfg s.executor orderId request brokerRef))
  | .registerPendingClose positionId closeLots brokerRef =>
      .ok (register s (pendingClose cfg s.executor positionId closeLots brokerRef))
  | .submitResponse submission response => do
      let executor ← handleMarketSubmitResponse cfg s.executor submission.pendingOrderId
        submission.orderAction response
      return {
        executor := executor
        received :=
          if response.isRejected then s.received
          else s.received.set response.brokerRef submission }
  | .markFilled brokerRef fillPrice => do
      let executor ← handleBrokerResponse cfg s.executor brokerRef
        { brokerRef := brokerRef, status := .filled, fillPrice := fillPrice }
      return { s with executor := executor }
  | .markRejected brokerRef =>
      .ok { s with executor := (markRejected s.executor (some brokerRef)).1 }
  | .updateBrokerRef oldRef newRef =>
      .ok {
        executor := updateBrokerRef s.executor (some oldRef) newRef
        received := match s.received.get? oldRef with
          | none => s.received
          | some submission => s.received.set newRef submission }
  | .clearPending => .ok { s with executor := clearPending s.executor }

def start (cfg : LiveConfig Raw) : Referenced Raw where
  executor := Live.new cfg

def getByBrokerRef (s : LiveTradeExecutor Raw) (brokerRef : String) : Option PendingOrder :=
  lookupBy s.pendingOrders s.brokerRefIndex brokerRef

def getBrokerRef (s : LiveTradeExecutor Raw) (orderId : String) : Option String :=
  keyOf s.brokerRefIndex orderId

/-- The order stored under this id has no reference. -/
def Unconfirmed (s : LiveTradeExecutor Raw) (orderId : String) : Prop :=
  ∀ pending ∈ s.pendingOrders.get? orderId, pending.brokerRef = none

/-- Nothing is registered over an order that has its reference, and a submission that is
accepted finds its own record, without a reference, if any is stored under its id. -/
def Undisturbed (s : Referenced Raw) : ProcessorOp Raw → Prop
  | .registerPendingOpen orderId _ _ => Unconfirmed s.executor orderId
  | .registerPendingClose positionId _ _ => Unconfirmed s.executor positionId
  | .submitResponse submission response =>
      response.isRejected = true ∨
        ∀ pending ∈ s.executor.pendingOrders.get? submission.pendingOrderId,
          pending = submission ∧ submission.brokerRef = none
  | _ => True

instance (s : LiveTradeExecutor Raw) (orderId : String) : Decidable (Unconfirmed s orderId) :=
  inferInstanceAs (Decidable (∀ _ ∈ _, _))

instance (s : Referenced Raw) : ∀ op : ProcessorOp Raw, Decidable (Undisturbed s op)
  | .registerPendingOpen orderId _ _ => inferInstanceAs (Decidable (Unconfirmed _ orderId))
  | .registerPendingClose positionId _ _ => inferInstanceAs (Decidable (Unconfirmed _ positionId))
  | .submitResponse _ response =>
      inferInstanceAs (Decidable (response.isRejected = true ∨ ∀ _ ∈ _, _))
  | .moveMarket _ => .isTrue trivial
  | .markFilled _ _ => .isTrue trivial
  | .markRejected _ => .isTrue trivial
  | .updateBrokerRef _ _ => .isTrue trivial
  | .clearPending => .isTrue trivial

variable {cfg}

/-- The record is the one of the submission that received its reference. -/
def OwnedBy (received : Dict String PendingOrder) (pending : PendingOrder) : Prop :=
  ∀ ref, pending.brokerRef = some ref → ∃ submission, received.get? ref = some submission ∧
    pending = { submission with brokerRef := some ref }

/-- What the processor knows agrees with itself and with who received which reference. -/
structure Agrees (pendings : Dict String PendingOrder) (index : Dict String String)
    (received : Dict String PendingOrder) : Prop where
  keyed : ∀ k p, pendings.get? k = some p → p.pendingOrderId = k
  indexes : Indexes PendingOrder.brokerRef pendings index
  owned : ∀ k p, pendings.get? k = some p → OwnedBy received p

section Dictionaries

variable {pendings : Dict String PendingOrder} {index : Dict String String}
  {received : Dict String PendingOrder}

theorem OwnedBy.fresh {pending : PendingOrder} {ref : String} (submission : PendingOrder)
    (h : OwnedBy received pending) (hfresh : received.get? ref = none) :
    OwnedBy (received.set ref submission) pending := by
  intro ref' href'
  obtain ⟨owner, howner, heq⟩ := h ref' href'
  have hne : ref' ≠ ref := by
    rintro rfl
    rw [hfresh] at howner
    cases howner
  exact ⟨owner, (Dict.get?_set_ne _ _ hne).trans howner, heq⟩

theorem Agrees.fresh {ref : String} (h : Agrees pendings index received)
    (hfresh : received.get? ref = none) : index.get? ref = none := by
  by_contra hsome
  obtain ⟨k, hget⟩ := Option.ne_none_iff_exists'.mp hsome
  obtain ⟨p, hp, href⟩ := (h.indexes ref k).mp hget
  obtain ⟨submission, hreceived, -⟩ := h.owned k p hp ref href
  rw [hfresh] at hreceived
  cases hreceived

theorem Agrees.setUnconfirmed {order : PendingOrder} (h : Agrees pendings index received)
    (hold : ∀ p ∈ pendings.get? order.pendingOrderId, p.brokerRef = none)
    (hnone : order.brokerRef = none) :
    Agrees (pendings.set order.pendingOrderId order) index received where
  keyed := OrderBooks.keyed_set order h.keyed
  indexes := h.indexes.set_unkeyed hold hnone
  owned k p hget := by
    by_cases hk : k = order.pendingOrderId
    · rw [hk, Dict.get?_set_self] at hget
      cases hget
      intro ref href
      rw [hnone] at href
      cases href
    · rw [Dict.get?_set_ne _ _ hk] at hget
      exact h.owned k p hget

theorem Agrees.setConfirmed (submission : PendingOrder) {ref : String}
    (h : Agrees pendings index received)
    (hold : ∀ p ∈ pendings.get? submission.pendingOrderId, p.brokerRef = none)
    (hfresh : received.get? ref = none) :
    Agrees (pendings.set submission.pendingOrderId { submission with brokerRef := some ref })
      (index.set ref submission.pendingOrderId) (received.set ref submission) where
  keyed := OrderBooks.keyed_set { submission with brokerRef := some ref } h.keyed
  indexes := h.indexes.set_keyed hold rfl (h.fresh hfresh)
  owned k p hget := by
    by_cases hk : k = submission.pendingOrderId
    · rw [hk, Dict.get?_set_self] at hget
      cases hget
      intro ref' href'
      have heq : ref = ref' := Option.some.inj href'
      subst heq
      exact ⟨submission, Dict.get?_set_self _ _ _, rfl⟩
    · rw [Dict.get?_set_ne _ _ hk] at hget
      exact (h.owned k p hget).fresh submission hfresh

theorem Agrees.receive {ref : String} (submission : PendingOrder)
    (h : Agrees pendings index received) (hfresh : received.get? ref = none) :
    Agrees pendings index (received.set ref submission) :=
  ⟨h.keyed, h.indexes, fun k p hget => (h.owned k p hget).fresh submission hfresh⟩

theorem get?_of_erase {k k' : String} {p : PendingOrder}
    (hget : (pendings.erase k).get? k' = some p) : pendings.get? k' = some p := by
  by_cases hk : k' = k
  · rw [hk, Dict.get?_erase_self] at hget
    cases hget
  · rwa [Dict.get?_erase_ne _ hk] at hget

theorem Agrees.take {ref orderId : String} (h : Agrees pendings index received)
    (hget : index.get? ref = some orderId) :
    Agrees (pendings.erase orderId) (index.erase ref) received :=
  ⟨fun k p hp => h.keyed k p (get?_of_erase hp), h.indexes.erase hget,
    fun k p hp => h.owned k p (get?_of_erase hp)⟩

theorem Agrees.dropUnconfirmed {orderId : String} (h : Agrees pendings index received)
    (hold : ∀ p ∈ pendings.get? orderId, p.brokerRef = none) :
    Agrees (pendings.erase orderId) index received :=
  ⟨fun k p hp => h.keyed k p (get?_of_erase hp), h.indexes.erase_unkeyed hold,
    fun k p hp => h.owned k p (get?_of_erase hp)⟩

theorem Agrees.move {old new orderId : String} {pending submission : PendingOrder}
    (h : Agrees pendings index received) (hindex : index.get? old = some orderId)
    (hget : pendings.get? orderId = some pending) (hreceived : received.get? old = some submission)
    (hfresh : received.get? new = none) :
    Agrees (pendings.set orderId { pending with brokerRef := some new })
      ((index.erase old).set new orderId) (received.set new submission) where
  keyed k p hp := by
    by_cases hk : k = orderId
    · rw [hk, Dict.get?_set_self] at hp
      cases hp
      rw [hk]
      exact h.keyed orderId pending hget
    · rw [Dict.get?_set_ne _ _ hk] at hp
      exact h.keyed k p hp
  indexes := h.indexes.rekey hindex rfl (h.fresh hfresh)
  owned k p hp := by
    by_cases hk : k = orderId
    · rw [hk, Dict.get?_set_self] at hp
      cases hp
      intro ref href
      have heq : new = ref := Option.some.inj href
      subst heq
      obtain ⟨stored, hstored, hold⟩ := (h.indexes old orderId).mp hindex
      rw [hget] at hstored
      cases hstored
      obtain ⟨owner, howner, heq⟩ := h.owned orderId pending hget old hold
      rw [hreceived] at howner
      cases howner
      refine ⟨submission, Dict.get?_set_self _ _ _, ?_⟩
      rw [heq]
    · rw [Dict.get?_set_ne _ _ hk] at hp
      exact (h.owned k p hp).fresh submission hfresh

end Dictionaries

section Steps

variable {s s' : Referenced Raw} {executor executor' : LiveTradeExecutor Raw}
  {received : Dict String PendingOrder}

/-- Every close that was filled was filled as the submission that received its reference. -/
def Applied (log : List AuditEvent) (received : Dict String PendingOrder) : Prop :=
  ∀ pending reason, .fillCloseOrder pending reason ∈ log →
    pending.brokerRef ≠ none ∧ OwnedBy received pending

theorem Applied.append {log events : List AuditEvent} (h : Applied log received)
    (hevents : ∀ event ∈ events, ∀ pending reason, event ≠ .fillCloseOrder pending reason) :
    Applied (log ++ events) received := by
  intro pending reason hmem
  rcases List.mem_append.mp hmem with hold | hnew
  · exact h pending reason hold
  · exact absurd rfl (hevents _ hnew pending reason)

theorem Applied.receive {log : List AuditEvent} {ref : String} (submission : PendingOrder)
    (h : Applied log received) (hfresh : received.get? ref = none) :
    Applied log (received.set ref submission) := by
  intro pending reason hmem
  obtain ⟨hconfirmed, howned⟩ := h pending reason hmem
  exact ⟨hconfirmed, howned.fresh submission hfresh⟩

/-- What holds between the operations. -/
structure Referencing (executor : LiveTradeExecutor Raw) (received : Dict String PendingOrder) :
    Prop where
  agrees : Agrees executor.pendingOrders executor.brokerRefIndex received
  applied : Applied executor.ledger.log received

theorem takeByRef_referencing (h : Referencing executor received) (brokerRef : Option String) :
    Referencing (takeByRef executor brokerRef).1 received := by
  rcases takeByRef_cases executor brokerRef with htake | ⟨ref, orderId, -, hget, htake⟩
  · rw [htake]
    exact h
  · rw [htake]
    exact ⟨h.agrees.take hget, h.applied⟩

theorem takeByRef_owned {ref : String} {pending : PendingOrder}
    (h : Agrees executor.pendingOrders executor.brokerRefIndex received)
    (htaken : (takeByRef executor (some ref)).2 = some pending) :
    pending.brokerRef = some ref ∧ OwnedBy received pending := by
  rcases takeByRef_cases executor (some ref) with htake | ⟨ref', orderId, href, hget, htake⟩
  · rw [htake] at htaken
    cases htaken
  · cases href
    rw [htake] at htaken
    have hstored : executor.pendingOrders.get? orderId = some pending := htaken
    obtain ⟨p, hp, hpref⟩ := (h.indexes ref orderId).mp hget
    rw [hstored] at hp
    cases hp
    exact ⟨hpref, h.owned orderId pending hstored⟩

/-- A fill leaves the processor alone and is applied as the record says. -/
theorem fillByAction_referencing {action : PendingOrderAction} {pending : PendingOrder}
    {fillPrice : Option ℚ} (h : Referencing executor received)
    (hconfirmed : pending.brokerRef ≠ none) (howned : OwnedBy received pending)
    (hfill : fillByAction cfg executor action pending fillPrice = .ok executor') :
    Referencing executor' received := by
  cases action with
  | openOrder =>
      obtain ⟨ledger, hledger, hpure⟩ := bind_eq_ok.mp hfill
      cases hpure
      obtain ⟨records, hlog, hrecords⟩ := fillOpenOrder_log hledger
      refine ⟨h.agrees, ?_⟩
      show Applied ledger.log received
      rw [hlog]
      refine h.applied.append fun event hevent p reason heq => ?_
      have hrecord := hrecords event hevent
      rw [heq] at hrecord
      cases hrecord
  | closeOrder =>
      obtain ⟨ledger, hledger, hpure⟩ := bind_eq_ok.mp hfill
      cases hpure
      obtain ⟨records, hlog, hrecords⟩ := fillCloseOrder_log hledger
      refine ⟨h.agrees, ?_⟩
      show Applied ledger.log received
      rw [hlog]
      intro p reason hmem
      rcases List.mem_append.mp hmem with hold | hnew
      · exact h.applied p reason hold
      · rcases List.mem_cons.mp hnew with heq | hrecord
        · cases heq
          exact ⟨hconfirmed, howned⟩
        · have hnone := hrecords _ hrecord
          cases hnone

theorem recordRejection_referencing {source : ResultSource}
    {direction : Option OrderDirection} {rejection : OrderResult} {pendingId : Option String}
    (h : Referencing executor received) :
    Referencing (recordRejection cfg executor source direction rejection pendingId) received := by
  refine ⟨h.agrees, ?_⟩
  have hlog : (recordRejection cfg executor source direction rejection pendingId).ledger.log =
      executor.ledger.log ++ [.result source rejection, .notified direction rejection pendingId] :=
    List.append_assoc _ [_] [_]
  rw [hlog]
  refine h.applied.append fun event hevent p reason heq => ?_
  subst heq
  simp at hevent

theorem register_referencing {submission : PendingOrder}
    (h : Referencing s.executor s.received)
    (hold : Unconfirmed s.executor submission.pendingOrderId)
    (hnew : ∀ ref ∈ submission.brokerRef, s.received.get? ref = none) :
    Referencing (register s submission).executor (register s submission).received := by
  have hlog : ∀ {received : Dict String PendingOrder}, Applied s.executor.ledger.log received →
      Applied (registerPending s.executor submission).ledger.log received := by
    intro received happlied
    refine happlied.append fun event hevent p reason heq => ?_
    subst heq
    simp at hevent
  cases href : submission.brokerRef with
  | none =>
      have hset := h.agrees.setUnconfirmed hold href
      rw [register, registerPending, href]
      exact ⟨hset, hlog h.applied⟩
  | some ref =>
      have hfresh := hnew ref href
      have hset := h.agrees.setConfirmed submission hold hfresh
      have hsame : ({ submission with brokerRef := some ref } : PendingOrder) = submission := by
        rw [← href]
      rw [hsame] at hset
      rw [register, registerPending, href]
      exact ⟨hset, hlog (h.applied.receive submission hfresh)⟩

/-- A rejected submission takes its record away, whatever is stored there. -/
theorem discardPending_referencing {orderId : String} {pending : PendingOrder}
    (h : Referencing executor received)
    (hget : executor.pendingOrders.get? orderId = some pending) :
    Referencing (discardPending executor pending) received := by
  have hid := h.agrees.keyed orderId pending hget
  subst hid
  refine ⟨?_, h.applied⟩
  show Agrees (executor.pendingOrders.erase pending.pendingOrderId) (match pending.brokerRef with
    | none => executor.brokerRefIndex
    | some ref => executor.brokerRefIndex.erase ref) received
  cases href : pending.brokerRef with
  | none =>
      refine h.agrees.dropUnconfirmed fun p hp => ?_
      rw [hget] at hp
      cases hp
      exact href
  | some ref =>
      exact h.agrees.take ((h.agrees.indexes ref _).mpr ⟨pending, hget, href⟩)

theorem submitResponse_referencing {submission : PendingOrder} {response : BrokerResponse Raw}
    (h : Referencing s.executor s.received)
    (hfresh : response.isRejected = false →
      response.brokerRef ≠ "" ∧ s.received.get? response.brokerRef = none)
    (hown : Undisturbed s (.submitResponse submission response))
    (hstep : processorStep cfg s (.submitResponse submission response) = .ok s') :
    Referencing s'.executor s'.received := by
  obtain ⟨executor, hhandle, hpure⟩ := bind_eq_ok.mp hstep
  cases hpure
  rw [handleMarketSubmitResponse] at hhandle
  cases hrejected : response.isRejected with
  | true =>
      cases hget : s.executor.pendingOrders.get? submission.pendingOrderId with
      | none =>
          simp only [hget] at hhandle
          cases hhandle
          exact h
      | some pending =>
          simp only [hget, hrejected] at hhandle
          cases hhandle
          exact recordRejection_referencing (discardPending_referencing h hget)
  | false =>
      obtain ⟨hne, hnone⟩ := hfresh hrejected
      cases hget : s.executor.pendingOrders.get? submission.pendingOrderId with
      | none =>
          simp only [hget] at hhandle
          cases hhandle
          exact ⟨h.agrees.receive submission hnone, h.applied.receive submission hnone⟩
      | some pending =>
          simp only [hget, hrejected, Bool.false_eq_true, if_false] at hhandle
          rcases hown with hrejected' | hown
          · rw [hrejected] at hrejected'
            cases hrejected'
          obtain ⟨rfl, hunconfirmed⟩ := hown pending hget
          have hconfirmed : Referencing
              (confirmPending s.executor pending.pendingOrderId pending response.brokerRef)
              (s.received.set response.brokerRef pending) := by
            have hset := h.agrees.setConfirmed pending (fun p hp => by
              rw [hget] at hp
              cases hp
              exact hunconfirmed) hnone
            refine ⟨?_, h.applied.receive pending hnone⟩
            rw [confirmPending, if_neg hne]
            exact hset
          split at hhandle
          · split at hhandle
            · next taken hmark =>
                cases hhandle
                have htaken := takeByRef_referencing hconfirmed (some response.brokerRef)
                rw [markFilled] at hmark
                rw [hmark] at htaken
                exact htaken
            · next taken filled hmark =>
                rw [markFilled] at hmark
                have htaken := takeByRef_referencing hconfirmed (some response.brokerRef)
                obtain ⟨href, howned⟩ := takeByRef_owned hconfirmed.agrees
                  (congrArg Prod.snd hmark)
                rw [hmark] at htaken
                refine fillByAction_referencing htaken ?_ howned hhandle
                rw [href]
                exact Option.some_ne_none _
          · cases hhandle
            exact hconfirmed

theorem markFilled_referencing {brokerRef : String} {fillPrice : Option ℚ}
    (h : Referencing s.executor s.received)
    (hstep : processorStep cfg s (.markFilled brokerRef fillPrice) = .ok s') :
    Referencing s'.executor s'.received := by
  obtain ⟨executor, hhandle, hpure⟩ := bind_eq_ok.mp hstep
  cases hpure
  have htaken := takeByRef_referencing h (some brokerRef)
  simp only [handleBrokerResponse] at hhandle
  split at hhandle
  · next taken hmark =>
      cases hhandle
      rw [markFilled] at hmark
      rw [hmark] at htaken
      exact htaken
  · next taken filled hmark =>
      rw [markFilled] at hmark
      obtain ⟨href, howned⟩ := takeByRef_owned h.agrees (congrArg Prod.snd hmark)
      rw [hmark] at htaken
      have hconfirmed : filled.brokerRef ≠ none := by
        rw [href]
        exact Option.some_ne_none _
      have hrecorded : Referencing (recordOutcome taken filled .filled) s.received := by
        refine ⟨htaken.agrees, htaken.applied.append fun event hevent p reason heq => ?_⟩
        rw [List.mem_singleton.mp hevent] at heq
        cases heq
      exact fillByAction_referencing hrecorded hconfirmed howned hhandle

theorem updateBrokerRef_referencing {oldRef newRef : String}
    (h : Referencing s.executor s.received) (hfresh : s.received.get? newRef = none)
    (hstep : processorStep cfg s (.updateBrokerRef oldRef newRef) = .ok s') :
    Referencing s'.executor s'.received := by
  cases hstep
  cases hget : s.executor.brokerRefIndex.get? oldRef with
  | none =>
      simp only [updateBrokerRef, hget]
      split
      · exact h
      · next submission hreceived =>
          exact ⟨h.agrees.receive submission hfresh, h.applied.receive submission hfresh⟩
  | some orderId =>
      obtain ⟨pending, hpending, href⟩ := (h.agrees.indexes oldRef orderId).mp hget
      obtain ⟨submission, hreceived, -⟩ := h.agrees.owned orderId pending hpending oldRef href
      simp only [updateBrokerRef, hget, hpending, hreceived]
      exact ⟨h.agrees.move hget hpending hreceived hfresh, h.applied.receive submission hfresh⟩

theorem clearPending_referencing (h : Referencing executor received) :
    Referencing (clearPending executor) received := by
  refine ⟨⟨fun k p hget => ?_, Indexes.empty _, fun k p hget => ?_⟩, ?_⟩
  · cases hget
  · cases hget
  · refine h.applied.append fun event hevent p reason heq => ?_
    obtain ⟨pending, -, hrecord⟩ := List.mem_map.mp hevent
    rw [heq] at hrecord
    cases hrecord

theorem processorStep_referencing {op : ProcessorOp Raw} (h : Referencing s.executor s.received)
    (hfresh : ∀ ref ∈ introduces op, ref ≠ "" ∧ s.received.get? ref = none)
    (hundisturbed : Undisturbed s op) (hstep : processorStep cfg s op = .ok s') :
    Referencing s'.executor s'.received := by
  cases op with
  | moveMarket market =>
      cases hstep
      exact ⟨h.agrees, h.applied⟩
  | registerPendingOpen orderId request brokerRef =>
      cases hstep
      exact register_referencing h hundisturbed fun ref href => (hfresh ref href).2
  | registerPendingClose positionId closeLots brokerRef =>
      cases hstep
      exact register_referencing h hundisturbed fun ref href => (hfresh ref href).2
  | submitResponse submission response =>
      refine submitResponse_referencing h (fun haccepted => hfresh _ ?_) hundisturbed hstep
      rw [introduces, haccepted]
      rfl
  | markFilled brokerRef fillPrice => exact markFilled_referencing h hstep
  | markRejected brokerRef =>
      cases hstep
      exact takeByRef_referencing h (some brokerRef)
  | updateBrokerRef oldRef newRef =>
      exact updateBrokerRef_referencing h (hfresh newRef rfl).2 hstep
  | clearPending =>
      cases hstep
      exact clearPending_referencing h

theorem processorStep_received {op : ProcessorOp Raw} {ref : String}
    (hstep : processorStep cfg s op = .ok s') (hne : ref ∉ introduces op)
    (hnone : s.received.get? ref = none) : s'.received.get? ref = none := by
  have hset : ∀ {new : String} (submission : PendingOrder), introduces op = some new →
      (s.received.set new submission).get? ref = none := by
    intro new submission hnew
    have hne' : ref ≠ new := by
      rintro rfl
      exact hne hnew
    rw [Dict.get?_set_ne _ _ hne']
    exact hnone
  have hregister : ∀ submission : PendingOrder, introduces op = submission.brokerRef →
      (register s submission).received.get? ref = none := by
    intro submission hnew
    rw [register]
    split
    · exact hnone
    · next new href => exact hset submission (hnew.trans href)
  cases op with
  | moveMarket market =>
      cases hstep
      exact hnone
  | registerPendingOpen orderId request brokerRef =>
      cases hstep
      exact hregister _ rfl
  | registerPendingClose positionId closeLots brokerRef =>
      cases hstep
      exact hregister _ rfl
  | submitResponse submission response =>
      obtain ⟨executor, -, hpure⟩ := bind_eq_ok.mp hstep
      cases hpure
      show (if response.isRejected then s.received
        else s.received.set response.brokerRef submission).get? ref = none
      split
      · exact hnone
      · next haccepted => exact hset submission (if_neg haccepted)
  | markFilled brokerRef fillPrice =>
      obtain ⟨executor, -, hpure⟩ := bind_eq_ok.mp hstep
      cases hpure
      exact hnone
  | markRejected brokerRef =>
      cases hstep
      exact hnone
  | updateBrokerRef oldRef newRef =>
      cases hstep
      show (match s.received.get? oldRef with
        | none => s.received
        | some submission => s.received.set newRef submission).get? ref = none
      split
      · exact hnone
      · next submission _ => exact hset submission rfl
  | clearPending =>
      cases hstep
      exact hnone

/-- A whole sequence of operations, with references that nothing received before. -/
theorem run_referencing {ops : List (ProcessorOp Raw)} {t : Referenced Raw}
    (h : Referencing s.executor s.received) (hdistinct : (ops.filterMap introduces).Nodup)
    (hfresh : ∀ ref ∈ ops.filterMap introduces, ref ≠ "" ∧ s.received.get? ref = none)
    (hall : StepsAll (processorStep cfg) Undisturbed s ops)
    (hrun : run (processorStep cfg) s ops = .ok t) : Referencing t.executor t.received := by
  induction ops generalizing s with
  | nil =>
      cases hrun
      exact h
  | cons op ops ih =>
      obtain ⟨s', hop, hops⟩ := run_cons_eq_ok.mp hrun
      obtain ⟨hundisturbed, hrest⟩ := hall
      rw [hop] at hrest
      have hsome : ∀ ref, introduces op = some ref →
          ref ∈ (op :: ops).filterMap introduces ∧ ref ∉ ops.filterMap introduces := by
        intro ref href
        rw [List.filterMap_cons_some href] at hdistinct ⊢
        exact ⟨List.mem_cons_self, (List.nodup_cons.mp hdistinct).1⟩
      have hsub : (ops.filterMap introduces).Sublist ((op :: ops).filterMap introduces) :=
        (List.sublist_cons_self op ops).filterMap introduces
      have h' := processorStep_referencing h (fun ref href => hfresh ref (hsome ref href).1)
        hundisturbed hop
      refine ih h' (hdistinct.sublist hsub) (fun ref href => ?_) hrest hops
      obtain ⟨hne, hnone⟩ := hfresh ref (hsub.subset href)
      refine ⟨hne, processorStep_received hop (fun hintroduced => ?_) hnone⟩
      exact (hsome ref hintroduced).2 href

theorem start_referencing (cfg : LiveConfig Raw) :
    Referencing (start cfg).executor (start cfg).received where
  agrees := {
    keyed := fun k p hget => by cases hget
    indexes := Indexes.empty _
    owned := fun k p hget => by cases hget }
  applied p reason hmem := by cases hmem

/-- The index holds the references of the pending orders, lookups by reference and by order
id are inverse to each other, and a fill is applied to the submission that received its
reference. -/
theorem references_agree (cfg : LiveConfig Raw) {ops : List (ProcessorOp Raw)} {t : Referenced Raw}
    (hdistinct : (ops.filterMap introduces).Nodup) (hnonempty : "" ∉ ops.filterMap introduces)
    (hall : StepsAll (processorStep cfg) Undisturbed (start cfg) ops)
    (hrun : run (processorStep cfg) (start cfg) ops = .ok t) :
    (∀ ref orderId, t.executor.brokerRefIndex.get? ref = some orderId ↔
      ∃ pending, t.executor.pendingOrders.get? orderId = some pending ∧
        pending.brokerRef = some ref) ∧
    (∀ ref orderId, getBrokerRef t.executor orderId = some ref ↔
      ∃ pending, getByBrokerRef t.executor ref = some pending ∧
        pending.pendingOrderId = orderId) ∧
    (∀ ref pending, (markFilled t.executor (some ref)).2 = some pending →
      ∃ submission, t.received.get? ref = some submission ∧
        pending = { submission with brokerRef := some ref }) ∧
    ∀ pending reason, .fillCloseOrder pending reason ∈ t.executor.ledger.log →
      ∃ ref submission, pending.brokerRef = some ref ∧ t.received.get? ref = some submission ∧
        pending.closeLots = submission.closeLots := by
  have hfresh : ∀ ref ∈ ops.filterMap introduces,
      ref ≠ "" ∧ (start cfg).received.get? ref = none := by
    intro ref href
    refine ⟨?_, rfl⟩
    rintro rfl
    exact hnonempty href
  obtain ⟨hagrees, happlied⟩ :=
    run_referencing (start_referencing cfg) hdistinct hfresh hall hrun
  refine ⟨hagrees.indexes, fun ref orderId => ?_, fun ref pending htaken => ?_,
    fun pending reason hmem => ?_⟩
  · rw [getBrokerRef, hagrees.indexes.keyOf_eq_some]
    constructor
    · intro hindex
      obtain ⟨pending, hget, href⟩ := (hagrees.indexes ref orderId).mp hindex
      refine ⟨pending, ?_, hagrees.keyed orderId pending hget⟩
      exact hagrees.indexes.lookupBy_eq_some.mpr ⟨orderId, hindex, hget, href⟩
    · rintro ⟨pending, hlookup, hid⟩
      obtain ⟨k, hindex, hget, -⟩ := hagrees.indexes.lookupBy_eq_some.mp hlookup
      rw [← hid, hagrees.keyed k pending hget]
      exact hindex
  · obtain ⟨href, howned⟩ := takeByRef_owned hagrees htaken
    exact howned ref href
  · obtain ⟨hconfirmed, howned⟩ := happlied pending reason hmem
    obtain ⟨ref, href⟩ := Option.ne_none_iff_exists'.mp hconfirmed
    obtain ⟨submission, hreceived, heq⟩ := howned ref href
    refine ⟨ref, submission, href, hreceived, ?_⟩
    rw [heq]

end Steps

section Closes

open Finiex.LiveSteps
open Finiex.Kraken

def closeSubmission (lots : ℚ) : PendingOrder :=
  pendingClose krakenSession (start krakenSession).executor "pos_ethusd_1" (some lots) none

def confirmedClose (lots : ℚ) (ref : String) : List (ProcessorOp RawResult) :=
  [.registerPendingClose "pos_ethusd_1" (some lots) none,
    .submitResponse (closeSubmission lots) { brokerRef := ref, status := .pending }]

theorem references_agree_closing :
    ∃ t : Referenced RawResult,
      run (processorStep krakenSession) (start krakenSession)
        (confirmedClose (1 / 2) "OID-1") = .ok t ∧
      t.executor.brokerRefIndex.get? "OID-1" = some "pos_ethusd_1" ∧
      ∃ pending, t.executor.pendingOrders.get? "pos_ethusd_1" = some pending ∧
        pending.brokerRef = some "OID-1" := by
  have hrun : (run (processorStep krakenSession) (start krakenSession)
      (confirmedClose (1 / 2) "OID-1")).map
      (fun t => t.executor.brokerRefIndex.get? "OID-1") = .ok (some "pos_ethusd_1") := by
    decide +kernel
  obtain ⟨t, ht, hindex⟩ := exists_of_map_eq_ok hrun
  have hagree := references_agree krakenSession (by decide +kernel) (by decide +kernel)
    (by decide +kernel) ht
  exact ⟨t, ht, hindex, (hagree.1 "OID-1" "pos_ethusd_1").mp hindex⟩

/-- A second close is registered over the one that the broker confirmed: the index still
names it, and its fill is applied to the lots of the second. -/
theorem confirmed_close_overwritten :
    ∃ t : Referenced RawResult,
      run (processorStep krakenSession) (start krakenSession)
        (confirmedClose (1 / 2) "OID-1" ++
          [.registerPendingClose "pos_ethusd_1" (some (3 / 10)) none]) = .ok t ∧
      t.executor.brokerRefIndex.get? "OID-1" = some "pos_ethusd_1" ∧
      (t.executor.pendingOrders.get? "pos_ethusd_1").map PendingOrder.brokerRef = some none ∧
      (t.received.get? "OID-1").map PendingOrder.closeLots = some (some (1 / 2)) ∧
      (markFilled t.executor (some "OID-1")).2.map PendingOrder.closeLots =
        some (some (3 / 10)) := by
  have hrun : (run (processorStep krakenSession) (start krakenSession)
      (confirmedClose (1 / 2) "OID-1" ++
        [.registerPendingClose "pos_ethusd_1" (some (3 / 10)) none])).map
      (fun t => (t.executor.brokerRefIndex.get? "OID-1",
        (t.executor.pendingOrders.get? "pos_ethusd_1").map PendingOrder.brokerRef,
        (t.received.get? "OID-1").map PendingOrder.closeLots,
        (markFilled t.executor (some "OID-1")).2.map PendingOrder.closeLots)) =
      .ok (some "pos_ethusd_1", some none, some (some (1 / 2)), some (some (3 / 10))) := by
    decide +kernel
  obtain ⟨t, ht, hresult⟩ := exists_of_map_eq_ok hrun
  exact ⟨t, ht, congrArg Prod.fst hresult, congrArg (·.2.1) hresult,
    congrArg (·.2.2.1) hresult, congrArg (·.2.2.2) hresult⟩

end Closes

end Finiex.LiveReferences
