import Finiex.LiveCancels
import Finiex.LivePrices
import Finiex.SimulatorSteps

namespace Finiex.Modifications

open Finiex.Types
open Finiex.Lib
open Finiex.Lib.Run
open Finiex.Lib.Rounding
open Finiex.Broker
open Finiex.Orders
open Finiex.OrderBooks
open Finiex.Portfolio
open Finiex.Executor
open Finiex.PortfolioRefresh
open Finiex.Simulator
open Finiex.LiveTypes
open Finiex.Live
open Finiex.LiveSpecs
open Finiex.LiveSteps
open Finiex.LiveOperations
open Finiex.LivePrices
open Finiex.LiveOutcomes
open Finiex.LiveCancels

structure Levels where
  entryPrice : Option ℚ
  stopLoss : Option ℚ
  takeProfit : Option ℚ

def levels (order : PendingOrder) : Levels where
  entryPrice := order.entryPrice
  stopLoss := order.orderKwargs.stopLoss
  takeProfit := order.orderKwargs.takeProfit

/-- The arguments of `modify_limit_order`. -/
structure LimitChange where
  newPrice : Setting ℚ := .unset
  newStopLoss : Setting (Option ℚ) := .unset
  newTakeProfit : Setting (Option ℚ) := .unset

/-- UNSET keeps a level, None removes it, and a value replaces it. -/
def newLevel (digits : ℕ) (setting : Setting (Option ℚ)) (current : Option ℚ) : Option ℚ :=
  match setting with
  | .unset => current
  | .given none => none
  | .given (some level) => some (roundTo digits level)

def newEntryPrice (digits : ℕ) (setting : Setting ℚ) (current : Option ℚ) : Option ℚ :=
  match setting with
  | .unset => current
  | .given price => some (roundTo digits price)

def meaning (digits : ℕ) (change : LimitChange) (current : Levels) : Levels where
  entryPrice := newEntryPrice digits change.newPrice current.entryPrice
  stopLoss := newLevel digits change.newStopLoss current.stopLoss
  takeProfit := newLevel digits change.newTakeProfit current.takeProfit

/-- No level that the order has is to be removed. -/
def RemovesNothing (change : LimitChange) (current : Levels) : Prop :=
  (change.newStopLoss = .given none → current.stopLoss = none) ∧
    (change.newTakeProfit = .given none → current.takeProfit = none)

/-- The simulator accepts the change of this order, and resolves it when it is due; while it is
in flight nothing else changes the order. -/
def SimulatorResolves (cfg : SimulatorConfig) (change : LimitChange)
    (order order' : PendingOrder) : Prop :=
  ∃ (s s' : TradeSimulator) (result : ModificationResult) (scheduled : PendingOrder) (msc : ℤ),
    findOrder s.activeLimitOrders order.pendingOrderId = some order ∧
    Simulator.modifyLimitOrder cfg s order.pendingOrderId change.newPrice change.newStopLoss
      change.newTakeProfit = .ok (s', result) ∧ result.success = true ∧
    findOrder s'.activeLimitOrders order.pendingOrderId = some scheduled ∧
    (dueModification msc scheduled).isSome ∧ order' = resolveModification msc scheduled

/-- The live executor accepts the change of this order, and the broker confirms it; until then
the order may be polled and partially filled. -/
def LiveConfirms {Raw : Type} (cfg : LiveConfig Raw) (s : LiveTradeExecutor Raw)
    (change : LimitChange) (order order' : PendingOrder) : Prop :=
  ∃ (accepted later confirmed : LiveTradeExecutor Raw) (result : ModificationResult)
    (sent pending : PendingOrder) (response : BrokerResponse Raw),
    findOrder s.activeLimitOrders order.pendingOrderId = some order ∧
    Live.modifyLimitOrder cfg s order.pendingOrderId change.newPrice change.newStopLoss
      change.newTakeProfit = .ok (accepted, result) ∧ result.success = true ∧
    findOrder accepted.activeLimitOrders order.pendingOrderId = some sent ∧
    findOrder later.activeLimitOrders order.pendingOrderId = some pending ∧
    levels pending = levels sent ∧ pending.pendingModification = sent.pendingModification ∧
    response.isRejected = false ∧
    handleModifyResponse cfg later order.pendingOrderId response = .ok confirmed ∧
    findOrder confirmed.activeLimitOrders order.pendingOrderId = some order'

section Found

variable {orders : List PendingOrder} {order : PendingOrder} {orderId : String}

theorem findOrder_updateOrder (state : PendingOrderExecutionState)
    (h : findOrder orders orderId = some order) :
    findOrder (updateOrder orderId state orders) orderId =
      some { order with executionState := state } := by
  induction orders with
  | nil => cases h
  | cons p ps ih =>
      rw [updateOrder]
      by_cases hid : p.pendingOrderId = orderId
      · have hp : p = order := by simpa [findOrder, hid] using h
        rw [if_pos hid, hp]
        simp [findOrder, ← hp, hid]
      · rw [if_neg hid]
        have hrest : findOrder ps orderId = some order := by simpa [findOrder, hid] using h
        have hupdated := ih hrest
        simpa [findOrder, hid] using hupdated

theorem findOrder_replaceOrder (changed : PendingOrder)
    (h : findOrder orders changed.pendingOrderId = some order) :
    findOrder (replaceOrder changed orders) changed.pendingOrderId = some changed := by
  induction orders with
  | nil => cases h
  | cons p ps ih =>
      rw [replaceOrder]
      by_cases hid : p.pendingOrderId = changed.pendingOrderId
      · rw [if_pos hid]
        simp [findOrder]
      · rw [if_neg hid]
        have hrest : findOrder ps changed.pendingOrderId = some order := by
          simpa [findOrder, hid] using h
        have hreplaced := ih hrest
        simpa [findOrder, hid] using hreplaced

end Found

section Levels

variable {broker : BrokerConfig} {symbol : String} {spec : SymbolSpecification}

theorem newLevel_eq (hspec : broker.symbols.get? symbol = some spec) {current : Option ℚ}
    (hcurrent : Snapped broker symbol current) (setting : Setting (Option ℚ)) :
    roundPrice spec.digits (setting.getD current) = newLevel spec.digits setting current := by
  cases setting with
  | unset => exact hcurrent spec hspec
  | given level =>
      cases level with
      | none => rfl
      | some level => rfl

theorem newEntryPrice_eq (hspec : broker.symbols.get? symbol = some spec) {current : Option ℚ}
    (hcurrent : Snapped broker symbol current) (setting : Setting ℚ) :
    roundPrice spec.digits (effectivePrice setting current) =
      newEntryPrice spec.digits setting current := by
  cases setting with
  | unset => exact hcurrent spec hspec
  | given price => rfl

theorem newEntryPrice_sent (digits : ℕ) (setting : Setting ℚ) (current : Option ℚ) :
    (roundPrice digits (adapterPrice setting)).or current =
      newEntryPrice digits setting current := by
  cases setting with
  | unset => rfl
  | given price => rfl

theorem newLevel_sent (digits : ℕ) (setting : Setting (Option ℚ)) (current : Option ℚ) :
    (roundPrice digits (adapterValue setting)).or current = newLevel digits setting current ↔
      (setting = .given none → current = none) := by
  cases setting with
  | unset =>
      constructor
      · intro _ hnone
        cases hnone
      · intro _
        rfl
  | given level =>
      cases level with
      | none => exact ⟨fun heq _ => heq, fun hnone => hnone rfl⟩
      | some level =>
          constructor
          · intro _ hnone
            cases hnone
          · intro _
            rfl

end Levels

section Outcomes

variable {Raw : Type} {change : LimitChange} {order order' : PendingOrder}

theorem resolveModification_of_due {msc : ℤ} {mod : ModificationRequest}
    (h : dueModification msc order = some mod) :
    resolveModification msc order = applyPendingModification order mod := by
  unfold resolveModification
  rw [h]

theorem simulatorResolves_levels {cfg : SimulatorConfig}
    (hprice : Snapped cfg.executor.broker order.symbol order.entryPrice)
    (hstop : Snapped cfg.executor.broker order.symbol order.orderKwargs.stopLoss)
    (htake : Snapped cfg.executor.broker order.symbol order.orderKwargs.takeProfit)
    (h : SimulatorResolves cfg change order order') :
    ∃ spec, cfg.executor.broker.symbols.get? order.symbol = some spec ∧
      levels order' = meaning spec.digits change (levels order) := by
  obtain ⟨s, s', result, scheduled, msc, hfind, hmodify, hsuccess, hscheduled, hdue, rfl⟩ := h
  unfold Simulator.modifyLimitOrder at hmodify
  simp only [hfind] at hmodify
  split at hmodify
  · cases hmodify
    cases hsuccess
  · split at hmodify
    · cases hmodify
      cases hsuccess
    · obtain ⟨spec, hspec, hmodify⟩ := bind_eq_ok.mp hmodify
      obtain ⟨reference, -, hmodify⟩ := bind_eq_ok.mp hmodify
      split at hmodify
      · cases hmodify
        cases hsuccess
      · obtain ⟨now, -, hmodify⟩ := bind_eq_ok.mp hmodify
        cases hmodify
        have hsymbol := getSymbolSpecification_eq_ok.mp hspec
        refine ⟨spec, hsymbol, ?_⟩
        have hupdated := findOrder_updateOrder { order.executionState with
          inFlightOperation := .pendingModify
          pendingModification := some {
            newPrice := roundPrice spec.digits (effectivePrice change.newPrice order.entryPrice)
            newStopLoss := roundPrice spec.digits
              (change.newStopLoss.getD order.orderKwargs.stopLoss)
            newTakeProfit := roundPrice spec.digits
              (change.newTakeProfit.getD order.orderKwargs.takeProfit)
            applyAtMsc := now + modifyCancelDelayMsc } } hfind
        have heq := hscheduled.symm.trans hupdated
        cases heq
        obtain ⟨mod, hmod⟩ := Option.isSome_iff_exists.mp hdue
        have hresolved := resolveModification_of_due hmod
        rw [hresolved]
        rw [dueModification] at hmod
        split at hmod
        · obtain ⟨hsome, -⟩ := Option.filter_eq_some_iff.mp hmod
          cases hsome
          simp only [levels, applyPendingModification, meaning, newEntryPrice_eq hsymbol hprice,
            newLevel_eq hsymbol hstop, newLevel_eq hsymbol htake]
        · cases hmod

theorem handleModifyResponse_levels {cfg : LiveConfig Raw} {s s' : LiveTradeExecutor Raw}
    {response : BrokerResponse Raw} {orderId : String}
    (hfind : findOrder s.activeLimitOrders orderId = some order)
    (hrejected : response.isRejected = false)
    (hhandle : handleModifyResponse cfg s orderId response = .ok s')
    (hconfirmed : findOrder s'.activeLimitOrders orderId = some order') :
    levels order' = levels (applyModification order order.pendingModification) := by
  rw [handleModifyResponse] at hhandle
  simp only [hfind, hrejected, Bool.false_eq_true, if_false] at hhandle
  cases hhandle
  have hid : (applyModification order order.pendingModification).pendingOrderId = orderId := by
    rw [← findOrder_id hfind]
    unfold applyModification
    split <;> rfl
  have hset : ∀ changed : PendingOrder, changed.pendingOrderId = orderId →
      findOrder (replaceOrder changed s.activeLimitOrders) orderId = some changed := by
    intro changed hchanged
    rw [← hchanged] at hfind ⊢
    exact findOrder_replaceOrder changed hfind
  rw [swapBrokerRef] at hconfirmed
  split at hconfirmed
  · have hfound : findOrder (replaceOrder _ (updateBrokerRef _ _ _).activeLimitOrders) orderId =
        some order' := hconfirmed
    rw [(updateBrokerRef_frame _ _ _).1, hset] at hfound
    · cases hfound
      rfl
    · exact hid
  · have hfound := (hset (clearModification _) hid).symm.trans hconfirmed
    cases hfound
    rfl

theorem liveConfirms_levels {cfg : LiveConfig Raw} {s : LiveTradeExecutor Raw}
    (h : LiveConfirms cfg s change order order') :
    ∃ spec, cfg.executor.broker.symbols.get? order.symbol = some spec ∧
      levels order' = {
        entryPrice := (roundPrice spec.digits (adapterPrice change.newPrice)).or order.entryPrice
        stopLoss := (roundPrice spec.digits (adapterValue change.newStopLoss)).or
          order.orderKwargs.stopLoss
        takeProfit := (roundPrice spec.digits (adapterValue change.newTakeProfit)).or
          order.orderKwargs.takeProfit } := by
  obtain ⟨accepted, later, confirmed, result, sent, pending, response, hfind, hmodify, hsuccess,
    hsent, hpending, hlevels, hmod, hrejected, hhandle, hconfirmed⟩ := h
  rw [Live.modifyLimitOrder] at hmodify
  simp only [hfind] at hmodify
  cases href : order.brokerRef with
  | none =>
      simp only [href] at hmodify
      cases hmodify
      cases hsuccess
  | some ref =>
      simp only [href] at hmodify
      split at hmodify
      · cases hmodify
        cases hsuccess
      · obtain ⟨spec, hspec, hmodify⟩ := bind_eq_ok.mp hmodify
        cases hmodify
        refine ⟨spec, getSymbolSpecification_eq_ok.mp hspec, ?_⟩
        let mod : ModificationRequest := {
          newPrice := roundPrice spec.digits (adapterPrice change.newPrice)
          newStopLoss := roundPrice spec.digits (adapterValue change.newStopLoss)
          newTakeProfit := roundPrice spec.digits (adapterValue change.newTakeProfit) }
        have hstarted : findOrder (replaceOrder (startModification order mod) s.activeLimitOrders)
            order.pendingOrderId = some (startModification order mod) :=
          findOrder_replaceOrder (startModification order mod) hfind
        have heq := hsent.symm.trans hstarted
        cases heq
        have happlied := handleModifyResponse_levels hpending hrejected hhandle hconfirmed
        have hpendingMod : pending.pendingModification = some mod := hmod
        rw [happlied, hpendingMod]
        have hentry : pending.entryPrice = order.entryPrice := congrArg Levels.entryPrice hlevels
        have hstop : pending.orderKwargs.stopLoss = order.orderKwargs.stopLoss :=
          congrArg Levels.stopLoss hlevels
        have htake : pending.orderKwargs.takeProfit = order.orderKwargs.takeProfit :=
          congrArg Levels.takeProfit hlevels
        simp only [levels, applyModification, mod, hentry, hstop, htake]

/-- Both executors do what the change means exactly when it removes no level. -/
theorem modifications_agree (simCfg : SimulatorConfig) (liveCfg : LiveConfig Raw)
    (hsymbols : simCfg.executor.broker.symbols = liveCfg.executor.broker.symbols)
    {ops : List (LiveOp Raw)} {s : LiveTradeExecutor Raw}
    (hrun : run (Live.step liveCfg) (Live.new liveCfg) ops = .ok s)
    {simOrder simOrder' liveOrder liveOrder' : PendingOrder}
    (hsame : levels simOrder = levels liveOrder) (hsymbol : simOrder.symbol = liveOrder.symbol)
    (hsim : SimulatorResolves simCfg change simOrder simOrder')
    (hlive : LiveConfirms liveCfg s change liveOrder liveOrder') :
    ∃ spec, liveCfg.executor.broker.symbols.get? liveOrder.symbol = some spec ∧
      ((levels simOrder' = meaning spec.digits change (levels simOrder) ∧
          levels liveOrder' = meaning spec.digits change (levels liveOrder)) ↔
        RemovesNothing change (levels liveOrder)) := by
  obtain ⟨spec, hspec, hconfirmed⟩ := liveConfirms_levels hlive
  have hpriced : Priced liveCfg.executor.broker liveOrder := by
    obtain ⟨_, _, _, _, _, _, _, hfind, -⟩ := hlive
    exact (run_priced hrun).found hfind
  have hsnapped : ∀ {price : Option ℚ}, Snapped liveCfg.executor.broker liveOrder.symbol price →
      Snapped simCfg.executor.broker simOrder.symbol price := by
    intro price hprice spec hspec
    rw [hsymbols, hsymbol] at hspec
    exact hprice spec hspec
  have hentry : simOrder.entryPrice = liveOrder.entryPrice := congrArg Levels.entryPrice hsame
  have hstop : simOrder.orderKwargs.stopLoss = liveOrder.orderKwargs.stopLoss :=
    congrArg Levels.stopLoss hsame
  have htake : simOrder.orderKwargs.takeProfit = liveOrder.orderKwargs.takeProfit :=
    congrArg Levels.takeProfit hsame
  obtain ⟨spec', hspec', hresolved⟩ := simulatorResolves_levels
    (hsnapped (hentry ▸ hpriced.price)) (hsnapped (hstop ▸ hpriced.stopLoss))
    (hsnapped (htake ▸ hpriced.takeProfit)) hsim
  rw [hsymbols, hsymbol, hspec] at hspec'
  cases hspec'
  refine ⟨spec, hspec, ?_⟩
  rw [hconfirmed, newEntryPrice_sent]
  constructor
  · rintro ⟨-, hmeans⟩
    exact ⟨(newLevel_sent _ _ _).mp (congrArg Levels.stopLoss hmeans),
      (newLevel_sent _ _ _).mp (congrArg Levels.takeProfit hmeans)⟩
  · rintro ⟨hstops, htakes⟩
    have hstops' : (roundPrice spec.digits (adapterValue change.newStopLoss)).or
        liveOrder.orderKwargs.stopLoss = _ := (newLevel_sent _ _ _).mpr hstops
    have htakes' : (roundPrice spec.digits (adapterValue change.newTakeProfit)).or
        liveOrder.orderKwargs.takeProfit = _ := (newLevel_sent _ _ _).mpr htakes
    refine ⟨hresolved, ?_⟩
    rw [hstops', htakes']
    rfl

end Outcomes

section Confirmations

variable {Raw : Type} {cfg : LiveConfig Raw} {s s' : LiveTradeExecutor Raw}
  {limits : List PendingOrder} {sent order pending : PendingOrder}

def editing (order : PendingOrder) : Levels × Option ModificationRequest × PendingOperation :=
  (levels order, order.pendingModification, order.inFlightOperation)

/-- What rests under the id of this order has its levels, and waits for the same edit. -/
def Unanswered (sent : PendingOrder) (limits : List PendingOrder) : Prop :=
  ∀ order ∈ limits, order.pendingOrderId = sent.pendingOrderId → editing order = editing sent

theorem Unanswered.erase (h : Unanswered sent limits) (order : PendingOrder) :
    Unanswered sent (limits.erase order) :=
  fun x hx => h x (List.mem_of_mem_erase hx)

theorem Unanswered.replace (h : Unanswered sent limits) (hmem : pending ∈ limits)
    (hid : order.pendingOrderId = pending.pendingOrderId) (hsame : editing order = editing pending) :
    Unanswered sent (replaceOrder order limits) := by
  intro x hx hxid
  rcases mem_replaceOrder_or hx with rfl | hin
  · exact hsame.trans (h pending hmem (hid.symm.trans hxid))
  · exact h x hin hxid

theorem Unanswered.replace_ne (h : Unanswered sent limits)
    (hne : order.pendingOrderId ≠ sent.pendingOrderId) :
    Unanswered sent (replaceOrder order limits) := by
  intro x hx hxid
  rcases mem_replaceOrder_or hx with rfl | hin
  · exact absurd hxid hne
  · exact h x hin hxid

theorem Unanswered.ne (h : Unanswered sent limits) (hsent : sent.inFlightOperation = .pendingModify)
    (hmem : pending ∈ limits) (hoperation : pending.inFlightOperation ≠ .pendingModify) :
    pending.pendingOrderId ≠ sent.pendingOrderId := by
  intro hid
  have hsame : pending.inFlightOperation = sent.inFlightOperation :=
    congrArg (·.2.2) (h pending hmem hid)
  exact hoperation (hsame.trans hsent)

theorem handled_unanswered {response : Response Raw} (hsound : LiveSound s)
    (hpopped : AllInStep s.activeLimitOrders (responseTag response :: inFlight s))
    (hsent : sent.inFlightOperation = .pendingModify)
    (hother : responseTag response ≠ (.edit, sent.pendingOrderId))
    (h : Unanswered sent s.activeLimitOrders) (hhandled : Handled cfg s response s') :
    Unanswered sent s'.activeLimitOrders := by
  cases hhandled with
  | unknown _ => exact h
  | untouched _ => exact h
  | positionModified _ _ _ => exact h
  | marketRejected _ _ => exact h
  | marketConfirmed _ _ => exact h
  | marketFilled htype hget hne hfill =>
      rw [(fillByAction_frame hfill).1]
      show Unanswered sent (takeByRef _ _).1.activeLimitOrders
      rw [(takeByRef_frame _ _).1]
      exact h
  | limitRejected hfind => exact h.erase _
  | limitConfirmed hfind _ => exact h.replace (mem_of_findOrder hfind) rfl rfl
  | @limitDeferred orderId action response pending hfind =>
      -- its submission was in flight, and with it nothing else
      have hfound := inStep_found hpopped hfind
      have hidle := (hfound.unconfirmed (@inStep_confirmed _ _ response.brokerRef hfound).1).1
      have hne := h.ne hsent (mem_of_findOrder hfind) (by rw [hidle]; exact nofun)
      refine Unanswered.replace_ne ?_ hne
      exact h.replace_ne hne
  | limitFilled order hid hmem hfill =>
      obtain ⟨ledger, -, hpure⟩ := bind_eq_ok.mp hfill
      cases hpure
      exact fun x hx => h x (mem_erase_replaceOrder hsound.nodup hmem hx).1
  | @modifyRejected orderId response pending hfind =>
      refine h.replace_ne fun hid => hother ?_
      rw [responseTag, ← hid, ← findOrder_id hfind]
      rfl
  | @modified orderId response pending hfind =>
      obtain ⟨hid', -⟩ := applyModification_frame pending pending.pendingModification
      have hne : pending.pendingOrderId ≠ sent.pendingOrderId := by
        intro hid
        refine hother ?_
        rw [responseTag, ← hid, ← findOrder_id hfind]
      rw [swapBrokerRef]
      split
      · show Unanswered sent (replaceOrder _ (updateBrokerRef _ _ _).activeLimitOrders)
        rw [(updateBrokerRef_frame _ _ _).1]
        exact h.replace_ne (hid' ▸ hne)
      · exact h.replace_ne (hid' ▸ hne)
  | @cancelRefused orderId response pending hfind =>
      -- its cancel was in flight, and with it nothing else
      have hcancels := (inStep_found hpopped hfind).cancels
      have hne := h.ne hsent (mem_of_findOrder hfind) (fun hmodify => by
        rw [hmodify, List.count_cons_self, if_neg (by simp)] at hcancels
        omega)
      exact h.replace_ne hne
  | cancelled hfind => exact h.erase _
  | tradesAppended hfind => exact h.replace (mem_of_findOrder hfind) rfl rfl
  | queryCleared hfind => exact h.replace (mem_of_findOrder hfind) rfl rfl
  | @queryEnded orderId response pending hfind =>
      have hkept : Unanswered sent (replaceOrder (clearQuery pending) s.activeLimitOrders) :=
        h.replace (mem_of_findOrder hfind) rfl rfl
      exact hkept.erase _

def NotAnswered (orderId : String) (s : LiveTradeExecutor Raw) : LiveOp Raw → Prop
  | .drain => ∀ response ∈ s.requests.inbox.head?, responseTag response ≠ (.edit, orderId)
  | _ => True

theorem stepped_unanswered {op : LiveOp Raw} (hreached : Reached s)
    (hissued : IssuedIn s sent.pendingOrderId) (hsent : sent.inFlightOperation = .pendingModify)
    (hother : NotAnswered sent.pendingOrderId s op) (h : Unanswered sent s.activeLimitOrders)
    (hstepped : Stepped cfg s op s') : Unanswered sent s'.activeLimitOrders := by
  have hframe : s'.activeLimitOrders = s.activeLimitOrders →
      Unanswered sent s'.activeLimitOrders := fun heq => heq ▸ h
  cases hstepped with
  | quiet hquiet => exact hframe hquiet.limits
  | guarded hquiet => exact hframe hquiet.limits
  | refused request => exact h
  | enqueued hkind hquiet => exact hframe hquiet.limits
  | registered request htype => exact h
  | rested request htype hnormalized =>
      intro x hx hid
      rcases List.mem_append.mp hx with hold | hnew
      · exact h x hold hid
      · have hfresh := nextId_unissued s request
        rw [List.mem_singleton.mp hnew] at hid
        have hnext : nextId s request = sent.pendingOrderId := hid
        rw [hnext] at hfresh
        exact absurd hissued hfresh
  | closing hposition => exact h
  | startedModify mod hfind href hidle =>
      have hne := h.ne hsent (mem_of_findOrder hfind) (by rw [hidle]; exact nofun)
      exact h.replace_ne hne
  | startedCancel hfind href hidle =>
      have hne := h.ne hsent (mem_of_findOrder hfind) (by rw [hidle]; exact nofun)
      exact h.replace_ne hne
  | requestedCancel hfind href => exact h.replace (mem_of_findOrder hfind) rfl rfl
  | scheduled =>
      intro x hx hid
      obtain ⟨order, horder, rfl⟩ := List.mem_map.mp hx
      have hsame : (schedulePoll cfg (s.wallClock / 1000) order).pendingOrderId =
          order.pendingOrderId ∧
          editing (schedulePoll cfg (s.wallClock / 1000) order) = editing order := by
        rw [schedulePoll]
        split <;> exact ⟨rfl, rfl⟩
      exact hsame.2.trans (h order horder (hsame.1.symm.trans hid))
  | @drained response rest s' hinbox hhandled =>
      have hsound := hreached.filed.sound
      have hall := hreached.inStep
      rw [LiveSound, inFlight, Pipeline.items_of_inbox hinbox] at hsound
      rw [inFlight, Pipeline.items_of_inbox hinbox] at hall
      have hrest : LiveSound { s with requests := { s.requests with inbox := rest } } :=
        hsound.items_sublist (List.sublist_cons_self _ _)
      have htag : responseTag response ≠ (.edit, sent.pendingOrderId) :=
        hother response (by rw [hinbox]; rfl)
      have hkept := handled_unanswered hrest hall hsent htag h hhandled
      exact hkept
  | polled hpolling href hquery hpolled => exact hframe (polled_frame hpolled).1
  | @expired pending rest hexpiring =>
      exact hframe (takeByRef_frame (recordOutcome { s with expiring := rest } pending .timedOut) _).1
  | ended hpendings hindex hlimits hitems hledger hevents => exact hframe hlimits

/-- Until its answer is drained, the session leaves an edited order as the edit found it. -/
theorem run_unanswered {ops : List (LiveOp Raw)} (hreached : Reached s)
    (hissued : IssuedIn s sent.pendingOrderId) (hsent : sent.inFlightOperation = .pendingModify)
    (h : Unanswered sent s.activeLimitOrders)
    (hall : StepsAll (Live.step cfg) (NotAnswered sent.pendingOrderId) s ops)
    (hrun : run (Live.step cfg) s ops = .ok s') : Unanswered sent s'.activeLimitOrders := by
  have hinv : (Reached s' ∧ IssuedIn s' sent.pendingOrderId) ∧
      Unanswered sent s'.activeLimitOrders := by
    refine run_invariant_of_stepsAll
      (I := fun u => (Reached u ∧ IssuedIn u sent.pendingOrderId) ∧
        Unanswered sent u.activeLimitOrders)
      (fun u op u' hinv hother hop => ?_) ⟨⟨hreached, hissued⟩, h⟩ hall hrun
    obtain ⟨⟨hreached, hissued⟩, h⟩ := hinv
    obtain ⟨hreached', new, hext, -⟩ := reached_step hreached hop
    exact ⟨⟨hreached', hissued.mono hext.counter⟩,
      stepped_unanswered hreached hissued hsent hother h
        (step_stepped hreached.filed.sound hop)⟩
  exact hinv.2

theorem sent_of_modify {change : LimitChange} {accepted : LiveTradeExecutor Raw}
    {result : ModificationResult} {orderId : String}
    (hfind : findOrder s.activeLimitOrders orderId = some order)
    (hmodify : Live.modifyLimitOrder cfg s orderId change.newPrice change.newStopLoss
      change.newTakeProfit = .ok (accepted, result)) (hsuccess : result.success = true) :
    ∃ sent, findOrder accepted.activeLimitOrders orderId = some sent ∧
      sent.pendingOrderId = orderId ∧ sent.inFlightOperation = .pendingModify := by
  rw [Live.modifyLimitOrder] at hmodify
  simp only [hfind] at hmodify
  cases href : order.brokerRef with
  | none =>
      simp only [href] at hmodify
      cases hmodify
      cases hsuccess
  | some ref =>
      simp only [href] at hmodify
      split at hmodify
      · cases hmodify
        cases hsuccess
      · obtain ⟨spec, -, hmodify⟩ := bind_eq_ok.mp hmodify
        cases hmodify
        have hid := findOrder_id hfind
        subst hid
        exact ⟨_, findOrder_replaceOrder (startModification order _) hfind, rfl, rfl⟩

/-- A broker's confirmation that is the first answer drained after the edit finds the order as the
edit left it, whatever the session did in between. -/
theorem liveConfirms_of_run {change : LimitChange} {order order' pending : PendingOrder}
    {before between : List (LiveOp Raw)} {accepted later confirmed : LiveTradeExecutor Raw}
    {result : ModificationResult} {response : BrokerResponse Raw} {rest : List (Response Raw)}
    (hbefore : run (Live.step cfg) (Live.new cfg) before = .ok s)
    (hfind : findOrder s.activeLimitOrders order.pendingOrderId = some order)
    (hmodify : Live.modifyLimitOrder cfg s order.pendingOrderId change.newPrice change.newStopLoss
      change.newTakeProfit = .ok (accepted, result)) (hsuccess : result.success = true)
    (hbetween : run (Live.step cfg) accepted between = .ok later)
    (hunanswered : StepsAll (Live.step cfg) (NotAnswered order.pendingOrderId) accepted between)
    (hpending : findOrder later.activeLimitOrders order.pendingOrderId = some pending)
    (hinbox : later.requests.inbox = .edit order.pendingOrderId response :: rest)
    (hrejected : response.isRejected = false) (hdrain : Live.step cfg later .drain = .ok confirmed)
    (hconfirmed : findOrder confirmed.activeLimitOrders order.pendingOrderId = some order') :
    LiveConfirms cfg s change order order' := by
  have hreached : Reached s := run_reached (new_reached cfg) hbefore
  have hop : Live.step cfg s (.modifyLimitOrder order.pendingOrderId change.newPrice
      change.newStopLoss change.newTakeProfit) = .ok accepted := map_eq_ok.mpr ⟨_, hmodify, rfl⟩
  obtain ⟨hreached', new, hext, -⟩ := reached_step hreached hop
  have hissued : IssuedIn s order.pendingOrderId :=
    hreached.filed.sound.issued _ (.resting (mem_orderIds_of_findOrder hfind))
  obtain ⟨sent, hsent, hid, hoperation⟩ := sent_of_modify hfind hmodify hsuccess
  have hstart : Unanswered sent accepted.activeLimitOrders := by
    intro x hx hxid
    rw [List.inj_on_of_nodup_map hreached'.filed.sound.nodup hx (mem_of_findOrder hsent) hxid]
  rw [← hid] at hissued hunanswered
  have hlater := run_unanswered hreached' (hissued.mono hext.counter) hoperation hstart hunanswered
    hbetween
  have hsame : editing pending = editing sent :=
    hlater pending (mem_of_findOrder hpending) ((findOrder_id hpending).trans hid.symm)
  let popped := { later with requests := { later.requests with inbox := rest } }
  have hdrained : handleModifyResponse cfg popped order.pendingOrderId response =
      .ok confirmed := by
    rw [← hdrain]
    show _ = drain cfg later
    rw [drain, hinbox]
    rfl
  exact ⟨accepted, popped, confirmed, result, sent, pending, response, hfind, hmodify, hsuccess, hsent,
    hpending, congrArg Prod.fst hsame, congrArg (·.2.1) hsame, hrejected, hdrained, hconfirmed⟩

end Confirmations

section Removal

open Finiex.Kraken

def cryptoSimulator : SimulatorConfig where
  executor := { portfolio := spotAccount }
  inboundDelay := fun _ => 0

def stoppedLimit : OpenOrderRequest := { limitLong with stopLoss := some 1400 }

def simulatedResting : List SimulatorOp :=
  [.tick (ethusdTick 1600 1601 1000), .openOrder stoppedLimit, .tick (ethusdTick 1600 1601 1010)]

def liveResting : List (LiveOp RawResult) :=
  [.receiveTick (ethusdTick 1600 1601 1000), .openOrder stoppedLimit] ++
    answered (accepted "OID-1") ++ [.drain]

def simulatedOrder : PendingOrder :=
  pendingOpenOrder "pos_ethusd_1" stoppedLimit (ethusdTick 1600 1601 1000) 0

def liveOrder : PendingOrder :=
  { pendingLimit (Live.new krakenSession) "pos_ethusd_1" stoppedLimit 1000000 with
    brokerRef := some "OID-1" }

/-- What the simulator answers to the change, and whether it is resolved ten milliseconds later. -/
def simulatedChange (change : LimitChange) :
    Except PyError (Option PendingOrder × Bool × Bool) := do
  let s ← run (Simulator.step cryptoSimulator) (Simulator.new cryptoSimulator) simulatedResting
  let (s', result) ← Simulator.modifyLimitOrder cryptoSimulator s "pos_ethusd_1" change.newPrice
    change.newStopLoss change.newTakeProfit
  return (findOrder s.activeLimitOrders "pos_ethusd_1", result.success,
    ((findOrder s'.activeLimitOrders "pos_ethusd_1").bind (dueModification 1020)).isSome)

theorem simulator_resolves {change : LimitChange}
    (h : simulatedChange change = .ok (some simulatedOrder, true, true)) :
    ∃ order', SimulatorResolves cryptoSimulator change simulatedOrder order' := by
  obtain ⟨s, -, h⟩ := bind_eq_ok.mp h
  obtain ⟨⟨s', result⟩, hmodify, h⟩ := bind_eq_ok.mp h
  have hall := Except.ok.inj h
  have hfind := congrArg Prod.fst hall
  have hsuccess := congrArg (·.2.1) hall
  have hdue := congrArg (·.2.2) hall
  obtain ⟨mod, hmod⟩ := Option.isSome_iff_exists.mp hdue
  obtain ⟨scheduled, hscheduled, hmod⟩ := Option.bind_eq_some_iff.mp hmod
  exact ⟨_, s, s', result, scheduled, 1020, hfind, hmodify, hsuccess, hscheduled,
    Option.isSome_iff_exists.mpr ⟨mod, hmod⟩, rfl⟩

/-- All that the inbox holds is the broker's consent to the edit. -/
def consents (orderId : String) : List (Response RawResult) → Bool
  | [.edit editedId response] => decide (editedId = orderId) && !response.isRejected
  | _ => false

theorem exists_of_consents {orderId : String} {inbox : List (Response RawResult)}
    (h : consents orderId inbox = true) :
    ∃ response, inbox = [.edit orderId response] ∧ response.isRejected = false := by
  unfold consents at h
  split at h
  · obtain ⟨hid, haccepted⟩ := Bool.and_eq_true_iff.mp h
    rw [of_decide_eq_true hid]
    exact ⟨_, rfl, by simpa using haccepted⟩
  · cases h

/-- What the live executor answers to the change, and whether the order is there before and after
the answer of the broker is drained. -/
def liveChange (change : LimitChange) : Except PyError (Option PendingOrder × Bool × Bool × Bool) := do
  let s ← run (Live.step krakenSession) (Live.new krakenSession) liveResting
  let (sent, result) ← Live.modifyLimitOrder krakenSession s "pos_ethusd_1" change.newPrice
    change.newStopLoss change.newTakeProfit
  let later ← run (Live.step krakenSession) sent (answered {})
  let confirmed ← Live.step krakenSession later .drain
  return (findOrder s.activeLimitOrders "pos_ethusd_1", result.success,
    (findOrder later.activeLimitOrders "pos_ethusd_1").isSome &&
      consents "pos_ethusd_1" later.requests.inbox,
    (findOrder confirmed.activeLimitOrders "pos_ethusd_1").isSome)

theorem live_confirms {change : LimitChange}
    (h : liveChange change = .ok (some liveOrder, true, true, true)) :
    ∃ s order', run (Live.step krakenSession) (Live.new krakenSession) liveResting = .ok s ∧
      LiveConfirms krakenSession s change liveOrder order' := by
  obtain ⟨s, hrun, h⟩ := bind_eq_ok.mp h
  obtain ⟨⟨sent, result⟩, hmodify, h⟩ := bind_eq_ok.mp h
  obtain ⟨later, hanswered, h⟩ := bind_eq_ok.mp h
  obtain ⟨confirmed, hdrain, h⟩ := bind_eq_ok.mp h
  have hall := Except.ok.inj h
  have hfind := congrArg Prod.fst hall
  have hsuccess := congrArg (·.2.1) hall
  obtain ⟨hthere, hconsents⟩ := Bool.and_eq_true_iff.mp (congrArg (·.2.2.1) hall)
  obtain ⟨response, hinbox, hrejected⟩ := exists_of_consents hconsents
  obtain ⟨pending, hpending⟩ := Option.isSome_iff_exists.mp hthere
  obtain ⟨order', hconfirmed⟩ := Option.isSome_iff_exists.mp (congrArg (·.2.2.2) hall)
  have hunanswered : StepsAll (Live.step krakenSession) (NotAnswered "pos_ethusd_1") sent
      (answered {}) := ⟨trivial, trivial, trivial⟩
  exact ⟨s, order', hrun, liveConfirms_of_run hrun hfind hmodify hsuccess hanswered hunanswered
    hpending hinbox hrejected hdrain hconfirmed⟩

def movedLimit : LimitChange where
  newPrice := .given 1510
  newStopLoss := .given (some 1450)

theorem modifications_agree_moved :
    ∃ simOrder' liveOrder', levels simOrder' = ⟨some 1510, some 1450, none⟩ ∧
      levels liveOrder' = levels simOrder' ∧
      SimulatorResolves cryptoSimulator movedLimit simulatedOrder simOrder' := by
  obtain ⟨simOrder', hsim⟩ := simulator_resolves (show simulatedChange movedLimit = _ by
    decide +kernel)
  obtain ⟨s, liveOrder', hrun, hlive⟩ := live_confirms (show liveChange movedLimit = _ by
    decide +kernel)
  have hsame : levels simulatedOrder = levels liveOrder := rfl
  have hsymbol : simulatedOrder.symbol = liveOrder.symbol := rfl
  obtain ⟨spec, hspec, hagree⟩ := modifications_agree cryptoSimulator krakenSession rfl hrun hsame
    hsymbol hsim hlive
  obtain ⟨hsim', hlive'⟩ := hagree.mpr ⟨fun hnone => (by cases hnone), fun hnone => (by cases hnone)⟩
  have hethusd : spec = ethusd := by
    have hfound : krakenSession.executor.broker.symbols.get? liveOrder.symbol = some ethusd := by
      decide +kernel
    rw [hfound] at hspec
    exact (Option.some.inj hspec).symm
  subst hethusd
  have hlevels : meaning ethusd.digits movedLimit (levels simulatedOrder) =
      ⟨some 1510, some 1450, none⟩ := by
    rw [Levels.mk.injEq]
    decide +kernel
  exact ⟨simOrder', liveOrder', hsim'.trans hlevels, hlive'.trans hsim'.symm, hsim⟩

/-- The stop is removed in the simulator, and stays in the live executor. -/
theorem stop_removed_only_in_simulator :
    ∃ s simOrder' liveOrder',
      run (Live.step krakenSession) (Live.new krakenSession) liveResting = .ok s ∧
      levels simulatedOrder = levels liveOrder ∧
      SimulatorResolves cryptoSimulator { newStopLoss := .given none } simulatedOrder simOrder' ∧
      LiveConfirms krakenSession s { newStopLoss := .given none } liveOrder liveOrder' ∧
      simOrder'.orderKwargs.stopLoss = none ∧ liveOrder'.orderKwargs.stopLoss = some 1400 := by
  obtain ⟨simOrder', hsim⟩ := simulator_resolves
    (show simulatedChange { newStopLoss := .given none } = _ by decide +kernel)
  obtain ⟨s, liveOrder', hrun, hlive⟩ := live_confirms
    (show liveChange { newStopLoss := .given none } = _ by decide +kernel)
  obtain ⟨spec, -, hconfirmed⟩ := liveConfirms_levels hlive
  have hpriced : Priced krakenSession.executor.broker liveOrder := by
    obtain ⟨_, _, _, _, _, _, _, hfind, -⟩ := hlive
    exact (run_priced hrun).found hfind
  have hprice : Snapped cryptoSimulator.executor.broker simulatedOrder.symbol
      simulatedOrder.entryPrice := hpriced.price
  obtain ⟨spec', -, hresolved⟩ :=
    simulatorResolves_levels hprice hpriced.stopLoss hpriced.takeProfit hsim
  exact ⟨s, simOrder', liveOrder', hrun, rfl, hsim, hlive, congrArg Levels.stopLoss hresolved,
    congrArg Levels.stopLoss hconfirmed⟩

end Removal

end Finiex.Modifications
