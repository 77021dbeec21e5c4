import Finiex.SimulatorLedger

namespace Finiex.SimulatorProfits

open Finiex.Types
open Finiex.Lib
open Finiex.Lib.Run
open Finiex.Positions
open Finiex.Orders
open Finiex.OrderBooks
open Finiex.Portfolio
open Finiex.Portfolio.PortfolioManager
open Finiex.PortfolioRefresh
open Finiex.PortfolioLedger
open Finiex.PortfolioFrames
open Finiex.Executor
open Finiex.ExecutorFills
open Finiex.Simulator
open Finiex.SimulatorSpecs
open Finiex.SimulatorSteps
open Finiex.SimulatorConservation
open Finiex.SimulatorLedger

section Profits

variable (cfg : ExecutorConfig)

def directionSign : OrderDirection → ℚ
  | .long => 1
  | .short => -1

/-- The gross P&L of a record is the profit at its exit price. -/
def GrossAtExit (record : TradeRecord) : Prop :=
  record.grossPnl = directionSign record.direction * (record.exitPrice - record.entryPrice) *
    10 ^ record.digits * record.exitTickValue * record.lots

instance (record : TradeRecord) : Decidable (GrossAtExit record) := by
  unfold GrossAtExit
  infer_instance

def QuotedInAccount : Prop :=
  ∀ symbol spec, cfg.broker.symbols.get? symbol = some spec →
    cfg.portfolio.accountCurrency = spec.quoteCurrency

def constantTickValue (symbol : String) : ℚ :=
  match cfg.broker.symbols.get? symbol with
  | some spec => spec.tickSize * spec.contractSize
  | none => 0

def profitAt (position : Position) (price : ℚ) : ℚ :=
  grossPnlFromPriceDiff (position.priceDiff price) position.digits
    (constantTickValue cfg position.symbol) position.lots

/-- The close executes at the mark: at the quote at which the refresh inside the close marks
the position or, where nothing is refreshed, at a price whose profit is the cached gross P&L. -/
def ClosesAtMark (fill : CloseFill) : Prop :=
  match fill.quote with
  | some (bid, ask) =>
      fill.position.closeSide bid ask = fill.closePrice ∨
        constantTickValue cfg fill.position.symbol * fill.position.lots = 0
  | none => fill.position.grossPnl = profitAt cfg fill.position fill.closePrice

instance (fill : CloseFill) : Decidable (ClosesAtMark cfg fill) := by
  unfold ClosesAtMark
  split <;> infer_instance

def markedGross (fill : CloseFill) : ℚ :=
  match fill.quote with
  | some (bid, ask) => profitAt cfg fill.position (fill.position.closeSide bid ask)
  | none => fill.position.grossPnl

variable {cfg}

theorem priceDiff_eq (position : Position) (price : ℚ) :
    position.priceDiff price =
      directionSign position.direction * (price - position.entryPrice) := by
  unfold Position.priceDiff directionSign
  cases position.direction with
  | long => ring
  | short => ring

theorem profitAt_eq_iff (position : Position) (price price' : ℚ) :
    profitAt cfg position price = profitAt cfg position price' ↔
      price = price' ∨ constantTickValue cfg position.symbol * position.lots = 0 := by
  have hsign : directionSign position.direction ≠ 0 := by
    cases position.direction <;> simp [directionSign]
  have hdigits : (10 : ℚ) ^ position.digits ≠ 0 := pow_ne_zero _ (by norm_num)
  have hdiff : profitAt cfg position price - profitAt cfg position price' =
      directionSign position.direction * 10 ^ position.digits *
        ((price - price') * (constantTickValue cfg position.symbol * position.lots)) := by
    rw [profitAt, profitAt, grossPnlFromPriceDiff, grossPnlFromPriceDiff, priceDiff_eq,
      priceDiff_eq]
    ring
  rw [← sub_eq_zero, hdiff, mul_eq_zero, or_iff_right (mul_ne_zero hsign hdigits), mul_eq_zero,
    sub_eq_zero]

theorem markedGross_eq_iff (fill : CloseFill) :
    markedGross cfg fill = profitAt cfg fill.position fill.closePrice ↔ ClosesAtMark cfg fill := by
  unfold markedGross ClosesAtMark
  cases fill.quote with
  | none => exact Iff.rfl
  | some quote => exact profitAt_eq_iff _ _ _

/-- A closed fraction makes its profit exactly when the whole position makes its own. -/
theorem fraction_eq_iff {gross priceDiff tickValue closeLots lots : ℚ} {digits : ℕ}
    (hlots : lots ≠ 0) (hclose : closeLots ≠ 0) :
    gross * (closeLots / lots) = grossPnlFromPriceDiff priceDiff digits tickValue closeLots ↔
      gross = grossPnlFromPriceDiff priceDiff digits tickValue lots := by
  have hfraction : grossPnlFromPriceDiff priceDiff digits tickValue closeLots =
      grossPnlFromPriceDiff priceDiff digits tickValue lots * (closeLots / lots) := by
    unfold grossPnlFromPriceDiff
    field_simp
  rw [hfraction, mul_left_inj' (div_ne_zero hclose hlots)]

theorem contract_eq_iff {position position' : Position} :
    contract position' = contract position ↔
      position'.positionId = position.positionId ∧ position'.symbol = position.symbol ∧
        position'.direction = position.direction ∧ position'.entryPrice = position.entryPrice ∧
        position'.digits = position.digits := by
  simp [contract]

/-- The formula of a record, read through the position it was made of. -/
theorem grossAtExit_iff {record : TradeRecord} {position : Position}
    (hdirection : record.direction = position.direction)
    (hentry : record.entryPrice = position.entryPrice) (hdigits : record.digits = position.digits) :
    GrossAtExit record ↔ record.grossPnl = grossPnlFromPriceDiff
      (position.priceDiff record.exitPrice) position.digits record.exitTickValue record.lots := by
  rw [GrossAtExit, hdirection, hentry, hdigits, priceDiff_eq, grossPnlFromPriceDiff]

end Profits

section Fills

variable {cfg : ExecutorConfig} {market : MarketState}

theorem refreshed_gross (clock : Option Instant) (hquoted : QuotedInAccount cfg)
    {pm : PortfolioManager} {position : Position} {spec : SymbolSpecification}
    (hspec : cfg.broker.symbols.get? position.symbol = some spec)
    (hdigits : position.digits = spec.digits) (fill : CloseFill)
    (hposition : fill.position = position) (hquote : fill.quote = refreshQuote pm position) :
    (marked cfg.portfolio pm (accrued cfg.portfolio clock position)).lots = position.lots ∧
      (marked cfg.portfolio pm (accrued cfg.portfolio clock position)).grossPnl =
        markedGross cfg fill := by
  obtain ⟨fees, now, hframe⟩ := accrued_frame cfg.portfolio clock position
  rw [hframe, markedGross, hquote, hposition, refreshQuote]
  by_cases hdirty : pm.positionsDirty = true
  · rw [if_pos hdirty]
    cases hprice : pm.currentPrices.get? position.symbol with
    | none =>
        rw [marked_of_not_marks]
        · exact ⟨rfl, rfl⟩
        · rintro ⟨-, hsome⟩
          rw [show (position.accrue fees now).symbol = position.symbol from rfl, hprice] at hsome
          cases hsome
    | some quote =>
        have hprice' : pm.currentPrices.get? (position.accrue fees now).symbol = some quote :=
          hprice
        have hspec' : cfg.broker.symbols.get? (position.accrue fees now).symbol = some spec := hspec
        rw [marked_of_marks hdirty hprice' hspec', tickValueAt, if_pos (hquoted _ _ hspec)]
        refine ⟨rfl, ?_⟩
        simp only [profitAt, constantTickValue, hspec, hdigits]
        rfl
  · rw [if_neg hdirty, marked_of_not_marks fun hmarks => hdirty hmarks.1]
    exact ⟨rfl, rfl⟩

/-- The record written for a close: its exit price is the one the result reports, and its
gross P&L is the profit there exactly when the close executed at the mark. -/
structure Documents (cfg : ExecutorConfig) (fill : CloseFill) (record : TradeRecord) : Prop where
  exitPrice : record.exitPrice = fill.closePrice
  executedPrice : fill.result.executedPrice = some record.exitPrice
  executedLots : fill.result.executedLots = some record.lots
  tickValue : record.exitTickValue = constantTickValue cfg fill.position.symbol
  gross : GrossAtExit record ↔ ClosesAtMark cfg fill

def closeFill : AuditEvent → Option CloseFill
  | .closeFilled fill => some fill
  | _ => none

def closeFills (ledger : ExecutionLedger) : List CloseFill := ledger.log.filterMap closeFill

/-- Nothing is closed, and the balance stays. -/
structure NoClose (cfg : ExecutorConfig) (ledger ledger' : ExecutionLedger) : Prop where
  fills : closeFills ledger' = closeFills ledger
  records : ledger'.portfolio.tradeLog = ledger.portfolio.tradeLog
  balance : ledger'.portfolio.balance cfg.portfolio = ledger.portfolio.balance cfg.portfolio

/-- One close is recorded, and its net P&L is booked. -/
structure OneClose (cfg : ExecutorConfig) (ledger ledger' : ExecutionLedger) (fill : CloseFill)
    (record : TradeRecord) : Prop where
  fills : closeFills ledger' = closeFills ledger ++ [fill]
  records : ledger'.portfolio.tradeLog = ledger.portfolio.tradeLog ++ [record]
  balance : ledger'.portfolio.balance cfg.portfolio =
    ledger.portfolio.balance cfg.portfolio + record.netPnl
  documents : Documents cfg fill record

theorem filterMap_notes {events : List AuditEvent}
    (hevents : ∀ event ∈ events, isNote event = true) : events.filterMap closeFill = [] := by
  apply List.filterMap_eq_nil_iff.mpr
  intro event hmem
  have hnote := hevents event hmem
  cases event with
  | closeFilled fill => cases hnote
  | _ => rfl

theorem closeFills_concat {ledger ledger' : ExecutionLedger} {first last : AuditEvent}
    {fill : CloseFill} {events : List AuditEvent}
    (hlog : ledger'.log = ledger.log ++ [first, .closeFilled fill, last] ++ events)
    (hfirst : isNote first = true) (hlast : isNote last = true)
    (hevents : ∀ event ∈ events, isNote event = true) :
    closeFills ledger' = closeFills ledger ++ [fill] := by
  have hbefore : [first].filterMap closeFill = [] := filterMap_notes (by simpa using hfirst)
  have hafter : [last].filterMap closeFill = [] := filterMap_notes (by simpa using hlast)
  have hsplit : [first, .closeFilled fill, last] = [first] ++ [.closeFilled fill] ++ [last] := rfl
  rw [closeFills, hlog, hsplit]
  simp only [List.filterMap_append, hbefore, hafter, filterMap_notes hevents, List.append_nil,
    List.nil_append]
  rfl

theorem closeFills_append {ledger ledger' : ExecutionLedger} (events : List AuditEvent)
    (hlog : ledger'.log = ledger.log ++ events) (hevents : ∀ event ∈ events, isNote event = true) :
    closeFills ledger' = closeFills ledger := by
  rw [closeFills, hlog, List.filterMap_append, filterMap_notes hevents, List.append_nil]
  rfl

theorem ensure_keeps_log {clock : Option Instant} {pm pm' : PortfolioManager}
    (h : pm.ensurePositionsUpdated cfg.portfolio clock = .ok pm') :
    pm'.balance cfg.portfolio = pm.balance cfg.portfolio ∧ pm'.tradeLog = pm.tradeLog := by
  obtain ⟨⟨costs, positions, rate, rfl⟩, -⟩ := ensurePositionsUpdated_eq_ok h
  exact ⟨rfl, rfl⟩

theorem ensure_noClose {clock : Option Instant} {ledger : ExecutionLedger} {pm : PortfolioManager}
    (h : ledger.portfolio.ensurePositionsUpdated cfg.portfolio clock = .ok pm) :
    NoClose cfg ledger { ledger with portfolio := pm } := by
  obtain ⟨hbalance, hrecords⟩ := ensure_keeps_log h
  exact ⟨rfl, hrecords, hbalance⟩

theorem fillOpenOrder_noClose (hmargin : cfg.portfolio.spotMode = false)
    {ledger ledger' : ExecutionLedger} {pending : PendingOrder} {fillPrice : Option ℚ}
    {entryType : EntryType} {fillType : FillType}
    (h : fillOpenOrder cfg market ledger pending fillPrice entryType fillType = .ok ledger') :
    NoClose cfg ledger ledger' := by
  obtain ⟨tick, spec, entryPrice, pm, -, -, -, -, hpm, hend⟩ := fillOpenOrder_eq_ok h
  have hensured : NoClose cfg ledger { ledger with portfolio := pm } := by
    rcases hpm with rfl | hensure
    · exact ⟨rfl, rfl, rfl⟩
    · exact ensure_noClose hensure
  rcases hend with ⟨reason, message, rfl⟩ |
      ⟨tickValue, bid, ask, entryFee, trades, seq, pm', now, -, -, hopen, rfl⟩
  · refine ⟨?_, hensured.records, hensured.balance⟩
    exact closeFills_append [.result .fill _, .notified _ _ _] (List.append_assoc _ [_] [_])
      (by simp [isNote])
  · obtain ⟨now', -, rfl⟩ := openPosition_margin_eq_ok hmargin hopen
    exact ⟨closeFills_append [.result .fill _, .notified _ _ _] (List.append_assoc _ [_] [_])
      (by simp [isNote]), hensured.records, hensured.balance⟩

theorem partialLots_eq_some {closeLots : Option ℚ} {positionLots volumeMin lots : ℚ}
    (h : partialLots closeLots positionLots volumeMin = some lots) : closeLots = some lots := by
  unfold partialLots at h
  split at h
  · cases h
  · split at h
    · exact h
    · cases h

/-- A close fill closes nothing, or leaves one record of what it closed. -/
theorem fillCloseOrder_oneClose (hmargin : cfg.portfolio.spotMode = false)
    (hquoted : QuotedInAccount cfg) {ledger ledger' : ExecutionLedger}
    (hsound : PositionsSound cfg ledger) {pending : PendingOrder} {fillPrice : Option ℚ}
    {closeReason : CloseReason}
    (h : fillCloseOrder cfg market ledger pending fillPrice closeReason = .ok ledger') :
    NoClose cfg ledger ledger' ∨ ∃ fill record, OneClose cfg ledger ledger' fill record := by
  obtain ⟨tick, -, ⟨rfl, -⟩ | ⟨position, spec, closePrice, exitTickValue, closing, seq, trades, pm,
    pnl, now, result, hposition, -, hlots, hspec, hprice, hvalue, hclosing, hclose, rfl, rfl⟩⟩ :=
    fillCloseOrder_eq_ok h
  · exact .inl ⟨closeFills_append [.fillCloseOrder _ _] rfl (by simp [isNote]), rfl, rfl⟩
  let fill : CloseFill := ⟨pending, fillPrice, closeReason, tick, position,
    refreshQuote ledger.portfolio position,
    closeOrderResult pending position closePrice closing pnl now⟩
  have hclosePrice : fill.closePrice = closePrice := hprice.symm
  obtain ⟨-, spec', hspec', hdigits⟩ := hsound _ _ hposition
  obtain rfl : spec' = spec := Option.some.inj (hspec'.symm.trans hspec)
  have htick : exitTickValue = constantTickValue cfg position.symbol := by
    rw [hvalue, tickValueAt, if_pos (hquoted _ _ hspec), constantTickValue, hspec]
  obtain ⟨hkeep, hgross⟩ :=
    refreshed_gross market.clockTime hquoted hspec hdigits fill rfl rfl
  obtain ⟨-, -, hdirection, hentry, hsame⟩ := contract_eq_iff.mp
    (refreshed_contract cfg.portfolio market.clockTime ledger.portfolio position).1
  have hmark : markedGross cfg fill = profitAt cfg position closePrice ↔ ClosesAtMark cfg fill := by
    rw [← hclosePrice]
    exact markedGross_eq_iff fill
  have hnotes : ∀ event ∈ closing.toList.map fun lots =>
      AuditEvent.partialClose pending.pendingOrderId lots (position.lots - lots) closePrice,
      isNote event = true := by
    intro event hmem
    obtain ⟨lots, -, rfl⟩ := List.mem_map.mp hmem
    rfl
  have hfills : ∀ ledger' : ExecutionLedger,
      ledger'.log = ledger.log ++ [.fillCloseOrder pending closeReason, .closeFilled fill,
        .result .fill fill.result] ++ closing.toList.map (fun lots =>
          .partialClose pending.pendingOrderId lots (position.lots - lots) closePrice) →
      closeFills ledger' = closeFills ledger ++ [fill] :=
    fun ledger' hlog => closeFills_concat hlog rfl rfl hnotes
  refine .inr ⟨fill, ?_⟩
  cases closing with
  | none =>
      obtain ⟨before, pm₁, now', closed, hbefore, hensure, -, rfl, -, rfl⟩ :=
        closePositionPortfolio_eq_ok hmargin rfl hclose
      obtain rfl : before = position := Option.some.inj (hbefore.symm.trans hposition)
      obtain ⟨hbalance, hrecords⟩ := ensure_keeps_log hensure
      refine ⟨_, hfills _ rfl, congrArg (· ++ [_]) hrecords, ?_, ?_⟩
      · rw [← hbalance]
        exact booked_balance _ _ _
      · refine ⟨hprice, rfl, congrArg some hkeep.symm, htick, ?_⟩
        rw [grossAtExit_iff hdirection hentry hsame, ← hmark, ← hgross]
        show _ = grossPnlFromPriceDiff _ _ exitTickValue _ ↔ _
        rw [htick, profitAt]
        exact Iff.of_eq (congrArg _ (congrArg _ hkeep))
  | some lots =>
      obtain ⟨before, pm₁, now', closed, hbefore, hensure, -, rfl, hnonzero, -, rfl⟩ :=
        partialClosePosition_eq_ok hmargin rfl hclose
      obtain rfl : before = position := Option.some.inj (hbefore.symm.trans hposition)
      obtain ⟨hbalance, hrecords⟩ := ensure_keeps_log hensure
      have hpositive : lots ≠ 0 := by
        intro hzero
        rw [partialLots_eq_some hclosing.symm, hzero] at hlots
        simp at hlots
      refine ⟨_, hfills _ rfl, congrArg (· ++ [_]) hrecords, ?_, ?_⟩
      · rw [← hbalance]
        exact booked_balance _ _ _
      · refine ⟨hprice, rfl, rfl, htick, ?_⟩
        rw [grossAtExit_iff hdirection hentry hsame, ← hmark, ← hgross]
        show _ * (lots / _) = grossPnlFromPriceDiff _ _ exitTickValue lots ↔ _
        rw [fraction_eq_iff hnonzero hpositive, htick, profitAt, hkeep]
        rfl

theorem move_closes (hmargin : cfg.portfolio.spotMode = false) (hquoted : QuotedInAccount cfg)
    {ledger ledger' : ExecutionLedger} (hsound : PositionsSound cfg ledger)
    (hmove : LedgerMove cfg ledger ledger') :
    NoClose cfg ledger ledger' ∨ ∃ fill record, OneClose cfg ledger ledger' fill record := by
  cases hmove with
  | openFill hfill => exact .inl (fillOpenOrder_noClose hmargin hfill)
  | closeFill hfill => exact fillCloseOrder_oneClose hmargin hquoted hsound hfill
  | refreshed hensure => exact .inl (ensure_noClose hensure)
  | levelsModified positionId stopLoss takeProfit =>
      obtain ⟨positions, hframe, -⟩ :=
        modifyPosition_frame ledger.portfolio positionId stopLoss takeProfit
      rw [hframe]
      exact .inl ⟨rfl, rfl, rfl⟩
  | priced tick => exact .inl ⟨rfl, rfl, rfl⟩
  | numbered symbol => exact .inl ⟨rfl, rfl, rfl⟩
  | noted events hportfolio hlog hevents =>
      exact .inl ⟨closeFills_append events hlog hevents, by rw [hportfolio], by rw [hportfolio]⟩

end Fills

section Runs

/-- The records document the closes of the log one by one, and the balance has moved by
their net P&L. -/
structure Booked (cfg : ExecutorConfig) (ledger : ExecutionLedger) : Prop where
  positions : PositionsSound cfg ledger
  records : List.Forall₂ (Documents cfg) (closeFills ledger) ledger.portfolio.tradeLog
  balance : ledger.portfolio.balance cfg.portfolio =
    cfg.portfolio.startBalances.getD cfg.portfolio.accountCurrency 0 +
      (ledger.portfolio.tradeLog.map TradeRecord.netPnl).sum

variable {cfg : ExecutorConfig} {ledger ledger' : ExecutionLedger}

theorem Booked.move (hmargin : cfg.portfolio.spotMode = false) (hquoted : QuotedInAccount cfg)
    (h : Booked cfg ledger) (hmove : LedgerMove cfg ledger ledger') : Booked cfg ledger' := by
  have hpositions := move_positionsSound h.positions hmove
  rcases move_closes hmargin hquoted h.positions hmove with hnone | ⟨fill, record, hone⟩
  · refine ⟨hpositions, ?_, ?_⟩
    · rw [hnone.fills, hnone.records]
      exact h.records
    · rw [hnone.balance, hnone.records]
      exact h.balance
  · refine ⟨hpositions, ?_, ?_⟩
    · rw [hone.fills, hone.records]
      exact List.rel_append h.records (.cons hone.documents .nil)
    · rw [hone.balance, hone.records, h.balance, List.map_append, List.sum_append]
      simp only [List.map_cons, List.map_nil, List.sum_cons, List.sum_nil, add_zero]
      ring

theorem grossAtExit_all_iff {fills : List CloseFill} {records : List TradeRecord}
    (h : List.Forall₂ (Documents cfg) fills records) :
    (∀ record ∈ records, GrossAtExit record) ↔ ∀ fill ∈ fills, ClosesAtMark cfg fill := by
  induction h with
  | nil => simp
  | cons hdocuments _ ih =>
      rw [List.forall_mem_cons, List.forall_mem_cons, hdocuments.gross, ih]

end Runs

section Sessions

variable {cfg : SimulatorConfig} {ops : List SimulatorOp} {s s' : TradeSimulator}

/-- In every margin session whose symbols are quoted in the account currency, ended or not:
each close leaves one record, at the price its result reports; the balance moves by the net
P&L of the records; and every record shows the profit at its exit price exactly when every
close executed at the mark. -/
theorem gross_pnl_at_exit (hmargin : cfg.executor.portfolio.spotMode = false)
    (hquoted : QuotedInAccount cfg.executor)
    (hrun : run (step cfg) (Simulator.new cfg) ops = .ok s)
    (hend : s' = s ∨ closeAllRemainingOrders cfg s = .ok s') :
    List.Forall₂ (fun fill record => fill.result.executedPrice = some record.exitPrice)
        (closeFills s'.ledger) s'.ledger.portfolio.tradeLog ∧
      s'.ledger.portfolio.balance cfg.executor.portfolio =
        cfg.executor.portfolio.startBalances.getD cfg.executor.portfolio.accountCurrency 0 +
          (s'.ledger.portfolio.tradeLog.map TradeRecord.netPnl).sum ∧
      ((∀ record ∈ s'.ledger.portfolio.tradeLog, GrossAtExit record) ↔
        ∀ fill ∈ closeFills s'.ledger, ClosesAtMark cfg.executor fill) := by
  have hmove : ∀ ledger ledger', Booked cfg.executor ledger →
      LedgerMove cfg.executor ledger ledger' → Booked cfg.executor ledger' :=
    fun _ _ => Booked.move hmargin hquoted
  have hinit : Booked cfg.executor (Simulator.new cfg).ledger := by
    refine ⟨?_, List.Forall₂.nil, (add_zero _).symm⟩
    intro k position hposition
    cases hposition
  have hrunning : Booked cfg.executor s.ledger := ledger_invariant hmove hinit hrun
  have hended : Booked cfg.executor s'.ledger := by
    rcases hend with rfl | hclosed
    · exact hrunning
    · exact (path_closeAllRemainingOrders hclosed).invariant hmove hrunning
  exact ⟨hended.records.imp fun _ _ hdocuments => hdocuments.executedPrice, hended.balance,
    grossAtExit_all_iff hended.records⟩

theorem forexSimulator_quoted : QuotedInAccount forexSimulator.executor := by
  intro symbol spec hspec
  by_cases hsymbol : symbol = "EURUSD"
  · rw [hsymbol] at hspec
    cases (Dict.get?_set_self _ _ _).symm.trans hspec
    rfl
  · cases (Dict.get?_set_ne _ _ hsymbol).symm.trans hspec

def filledLong (stopLoss : Option ℚ) : List SimulatorOp :=
  [.tick (eurusdTick (11000 / 10000) (11002 / 10000) 1000),
    .openOrder { symbol := "EURUSD", orderType := .market, direction := .long, lots := 1,
                 stopLoss := stopLoss },
    .tick (eurusdTick (11000 / 10000) (11002 / 10000) 1010)]

def endedSession (ops : List SimulatorOp) : Except PyError TradeSimulator := do
  let s ← run (step forexSimulator) (Simulator.new forexSimulator) ops
  closeAllRemainingOrders forexSimulator s

theorem endedSession_records :
    (endedSession (filledLong none ++
      [.tick (eurusdTick (11010 / 10000) (11012 / 10000) 1020)])).map
      (fun s => s.ledger.portfolio.tradeLog.map TradeRecord.grossPnl) = .ok [80] := by
  decide +kernel

theorem gross_pnl_at_exit_scenarioEnd :
    ∃ s s', run (step forexSimulator) (Simulator.new forexSimulator) (filledLong none ++
        [.tick (eurusdTick (11010 / 10000) (11012 / 10000) 1020)]) = .ok s ∧
      closeAllRemainingOrders forexSimulator s = .ok s' ∧
      List.Forall₂ (fun fill record => fill.result.executedPrice = some record.exitPrice)
        (closeFills s'.ledger) s'.ledger.portfolio.tradeLog ∧
      s'.ledger.portfolio.balance usdAccount =
        usdAccount.startBalances.getD usdAccount.accountCurrency 0 +
          (s'.ledger.portfolio.tradeLog.map TradeRecord.netPnl).sum ∧
      ((∀ record ∈ s'.ledger.portfolio.tradeLog, GrossAtExit record) ↔
        ∀ fill ∈ closeFills s'.ledger, ClosesAtMark forexSimulator.executor fill) := by
  obtain ⟨s', hended, -⟩ := exists_of_map_eq_ok endedSession_records
  obtain ⟨s, hrun, hclosed⟩ := bind_eq_ok.mp hended
  exact ⟨s, s', hrun, hclosed,
    gross_pnl_at_exit rfl forexSimulator_quoted hrun (.inr hclosed)⟩

/-- The price gaps below an SL at 1.0990: the record shows 1.0990 as the exit, and the
profit at 1.0980. -/
theorem gapped_stop_records :
    (run (step forexSimulator) (Simulator.new forexSimulator) (filledLong (some (10990 / 10000)) ++
      [.tick (eurusdTick (10980 / 10000) (10982 / 10000) 1020)])).map
      (fun s => s.ledger.portfolio.tradeLog.map fun record =>
        (record.exitPrice, record.grossPnl, decide (GrossAtExit record))) =
      .ok [(10990 / 10000, -220, false)] := by
  decide +kernel

theorem gapped_stop_pnl :
    ∃ s, run (step forexSimulator) (Simulator.new forexSimulator)
        (filledLong (some (10990 / 10000)) ++
          [.tick (eurusdTick (10980 / 10000) (10982 / 10000) 1020)]) = .ok s ∧
      ∃ record ∈ s.ledger.portfolio.tradeLog, ¬ GrossAtExit record := by
  obtain ⟨s, hrun, hrecords⟩ := exists_of_map_eq_ok gapped_stop_records
  obtain ⟨record, hmem, hvalues⟩ := List.mem_map.mp
    (hrecords.symm ▸ List.mem_singleton_self ((10990 / 10000 : ℚ), (-220 : ℚ), false))
  obtain ⟨-, hrest⟩ := Prod.mk.inj hvalues
  exact ⟨s, hrun, record, hmem, of_decide_eq_false (Prod.mk.inj hrest).2⟩

end Sessions

end Finiex.SimulatorProfits
