import Finiex.SpotHoldings

namespace Finiex.CloseLots

open Finiex.Types
open Finiex.Lib
open Finiex.Lib.Run
open Finiex.Positions
open Finiex.Broker hiding remainder
open Finiex.Orders
open Finiex.Portfolio
open Finiex.Portfolio.PortfolioManager
open Finiex.PortfolioRefresh
open Finiex.PortfolioLedger
open Finiex.PortfolioFrames
open Finiex.PortfolioRuns
open Finiex.Executor
open Finiex.ExecutorFills
open Finiex.SpotLedger
open Finiex.SpotHoldings

section Grid

/-- A whole number of hundred-millionths of a lot. -/
def OnGrid (lots : ℚ) : Prop := ∃ n : ℤ, lots * 10 ^ 8 = n

theorem OnGrid.sub {lots closed : ℚ} (hlots : OnGrid lots) (hclosed : OnGrid closed) :
    OnGrid (lots - closed) := by
  obtain ⟨n, hn⟩ := hlots
  obtain ⟨m, hm⟩ := hclosed
  refine ⟨n - m, ?_⟩
  rw [sub_mul, hn, hm]
  push_cast
  rfl

theorem OnGrid.roundTo {lots : ℚ} (h : OnGrid lots) : Rounding.roundTo 8 lots = lots := by
  obtain ⟨n, hn⟩ := h
  exact Rounding.roundTo_of_grid hn

end Grid

section Book

def closedLots (k : String) (log : List TradeRecord) : ℚ :=
  ((log.filter fun record => record.positionId = k).map TradeRecord.lots).sum

def openLots (k : String) (pm : PortfolioManager) : ℚ :=
  ((pm.getPosition k).map Position.lots).getD 0

theorem closedLots_append (k : String) (log : List TradeRecord) (record : TradeRecord) :
    closedLots k (log ++ [record]) =
      closedLots k log + if record.positionId = k then record.lots else 0 := by
  by_cases h : record.positionId = k <;> simp [closedLots, h]

/-- The positions stand under their own ids, and position `k` is accounted for: what is closed
and what is open make up the original lots, and what is open is on the grid and no dust. -/
structure LotBook (k symbol : String) (original volumeMin : ℚ) (pm : PortfolioManager) :
    Prop where
  keyed : ∀ id position, pm.getPosition id = some position → position.positionId = id
  balanced : closedLots k pm.tradeLog + openLots k pm = original
  positive : ∀ record ∈ pm.tradeLog, record.positionId = k → 0 < record.lots
  held : ∀ position, pm.getPosition k = some position → position.symbol = symbol ∧
    OnGrid position.lots ∧ 0 < position.lots ∧ volumeMin - 1 / 1000000000 ≤ position.lots

variable {k symbol : String} {original volumeMin : ℚ} {pm pm' : PortfolioManager}
variable {cfg : PortfolioConfig} {clock : Option Instant}

def identity (position : Position) : String × String × ℚ :=
  (position.positionId, position.symbol, position.lots)

theorem identity_afterRefresh (s : Session) (position : Position) :
    identity (afterRefresh cfg s position) = identity position := by
  obtain ⟨fees, now, hframe⟩ := accrued_frame cfg s.clock position
  rw [afterRefresh, hframe]
  unfold marked
  split <;> rfl

theorem LotBook.of_same (hlog : pm'.tradeLog = pm.tradeLog)
    (hsame : ∀ id, (pm'.getPosition id).map identity = (pm.getPosition id).map identity)
    (h : LotBook k symbol original volumeMin pm) : LotBook k symbol original volumeMin pm' := by
  have hback : ∀ id position', pm'.getPosition id = some position' →
      ∃ position, pm.getPosition id = some position ∧ identity position' = identity position := by
    intro id position' hposition'
    have hid := hsame id
    rw [hposition', Option.map_some] at hid
    obtain ⟨position, hposition, heq⟩ := Option.map_eq_some_iff.mp hid.symm
    exact ⟨position, hposition, heq.symm⟩
  refine ⟨fun id position' hposition' => ?_, ?_, by rw [hlog]; exact h.positive,
    fun position' hposition' => ?_⟩
  · obtain ⟨position, hposition, heq⟩ := hback id position' hposition'
    exact (congrArg Prod.fst heq).trans (h.keyed id position hposition)
  · have hopen : openLots k pm' = openLots k pm := by
      have hlots := congrArg (Option.map fun x : String × String × ℚ => x.2.2) (hsame k)
      rw [Option.map_map, Option.map_map] at hlots
      exact congrArg (·.getD 0) hlots
    rw [hlog, hopen]
    exact h.balanced
  · obtain ⟨position, hposition, heq⟩ := hback k position' hposition'
    have hsymbol : position'.symbol = position.symbol := congrArg (·.2.1) heq
    have hlots : position'.lots = position.lots := congrArg (·.2.2) heq
    rw [hsymbol, hlots]
    exact h.held position hposition

theorem LotBook.refresh (h : LotBook k symbol original volumeMin pm)
    (hensure : pm.ensurePositionsUpdated cfg clock = .ok pm') :
    LotBook k symbol original volumeMin pm' := by
  obtain ⟨hframe, hget⟩ := ensurePositionsUpdated_eq_ok hensure
  refine h.of_same ?_ fun id => ?_
  · obtain ⟨costs, positions, rate, rfl⟩ := hframe
    rfl
  · have hsame : identity ∘ (fun position => marked cfg pm (accrued cfg clock position)) =
        identity := by
      funext position
      exact identity_afterRefresh ⟨pm, clock⟩ position
    rw [hget id, Option.map_map, hsame]

theorem LotBook.modify (h : LotBook k symbol original volumeMin pm) (positionId : String)
    (newStopLoss newTakeProfit : Setting (Option ℚ)) :
    LotBook k symbol original volumeMin
      (pm.modifyPosition positionId newStopLoss newTakeProfit).1 := by
  rcases modifyPosition_cases pm positionId newStopLoss newTakeProfit with
    hsame | ⟨target, stopLoss, takeProfit, htarget, hset⟩
  · rw [hsame]
    exact h
  · rw [hset]
    refine h.of_same ?_ fun id => ?_
    · rfl
    · by_cases hid : id = positionId
      · subst hid
        rw [htarget, getPosition, Dict.get?_set_self]
        rfl
      · simp only [getPosition, Dict.get?_set_ne _ _ hid]

theorem LotBook.openOther (h : LotBook k symbol original volumeMin pm) {args : OpenPositionArgs}
    (hother : args.orderId ≠ k) (hopen : pm.openPosition cfg clock args = .ok pm') :
    LotBook k symbol original volumeMin pm' := by
  obtain ⟨now, costs, balances, -, rfl⟩ := openPosition_eq_ok hopen
  have hk : Dict.get? (pm.openPositions.set args.orderId (args.position now)) k =
      pm.getPosition k := Dict.get?_set_ne _ _ (Ne.symm hother)
  refine ⟨fun id position hposition => ?_, ?_, h.positive, fun position hposition => ?_⟩
  · by_cases hid : id = args.orderId
    · subst hid
      cases (Dict.get?_set_self _ _ _).symm.trans hposition
      rfl
    · exact h.keyed id position ((Dict.get?_set_ne _ _ hid).symm.trans hposition)
  · have hopen : openLots k { pm with
        costTracking := costs
        balances := balances
        openPositions := pm.openPositions.set args.orderId (args.position now) } = openLots k pm :=
      congrArg (fun position : Option Position => (position.map Position.lots).getD 0) hk
    rw [hopen]
    exact h.balanced
  · exact h.held position (hk.symm.trans hposition)

/-- A record of the position takes its lots from what is open; a record of another position
leaves the book as it is. -/
theorem LotBook.record (h : LotBook k symbol original volumeMin pm) {id : String}
    {position : Position} {record : TradeRecord} (hposition : pm.getPosition id = some position)
    (hid : record.positionId = position.positionId) {kept : Option Position}
    (hlog : pm'.tradeLog = pm.tradeLog ++ [record])
    (hget : pm'.getPosition id = kept)
    (hothers : ∀ other, other ≠ id → pm'.getPosition other = pm.getPosition other)
    (hkept : ∀ rest ∈ kept, rest.positionId = position.positionId ∧ rest.symbol = position.symbol)
    (hlots : id = k → 0 < record.lots ∧
      record.lots + (kept.map Position.lots).getD 0 = position.lots ∧
      ∀ rest ∈ kept, OnGrid rest.lots ∧ 0 < rest.lots ∧ volumeMin - 1 / 1000000000 ≤ rest.lots) :
    LotBook k symbol original volumeMin pm' := by
  have hown : position.positionId = id := h.keyed id position hposition
  have hkeyed : ∀ other rest, pm'.getPosition other = some rest → rest.positionId = other := by
    intro other rest hrest
    by_cases hother : other = id
    · subst hother
      rw [hget] at hrest
      exact (hkept rest hrest).1.trans hown
    · rw [hothers other hother] at hrest
      exact h.keyed other rest hrest
  by_cases hk : id = k
  · subst hk
    obtain ⟨hpositive, hsum, hrest⟩ := hlots rfl
    have hrecord : record.positionId = id := hid.trans hown
    refine ⟨hkeyed, ?_, fun r hr hrid => ?_, fun rest hrestGet => ?_⟩
    · have hbalanced := h.balanced
      rw [openLots, hposition, Option.map_some, Option.getD_some] at hbalanced
      rw [hlog, closedLots_append, if_pos hrecord, openLots, hget, ← hbalanced, ← hsum]
      ring
    · rw [hlog] at hr
      rcases List.mem_append.mp hr with hold | hnew
      · exact h.positive r hold hrid
      · cases List.mem_singleton.mp hnew
        exact hpositive
    · rw [hget] at hrestGet
      refine ⟨(hkept rest hrestGet).2.trans (h.held position hposition).1, hrest rest hrestGet⟩
  · have hrecord : record.positionId ≠ k := by
      rw [hid, hown]
      exact hk
    have hsame : pm'.getPosition k = pm.getPosition k := hothers k (Ne.symm hk)
    refine ⟨hkeyed, ?_, fun r hr hrid => ?_, fun rest hrestGet => ?_⟩
    · rw [hlog, closedLots_append, if_neg hrecord, add_zero, openLots, hsame]
      exact h.balanced
    · rw [hlog] at hr
      rcases List.mem_append.mp hr with hold | hnew
      · exact h.positive r hold hrid
      · cases List.mem_singleton.mp hnew
        exact absurd hrid hrecord
    · rw [hsame] at hrestGet
      exact h.held rest hrestGet

end Book

section Closes

variable {k symbol : String} {original volumeMin : ℚ} {pm pm' : PortfolioManager}
variable {cfg : PortfolioConfig} {clock : Option Instant}

theorem identity_withExitFee (position : Position) (fee : Option Fees.TradingFee) :
    identity (withExitFee position fee) = identity position := by
  cases fee <;> rfl

theorem identity_realizeClose {args : CloseArgs} {position closed : Position}
    (h : realizeClose cfg pm args position = .ok (pm', closed)) :
    identity closed = identity position := by
  rcases (realizeClose_inv h).2 with rfl | rfl
  · rfl
  · rfl

/-- A full close records all lots that were open. -/
theorem LotBook.close (h : LotBook k symbol original volumeMin pm) {args : CloseArgs} {pnl : ℚ}
    (hclose : pm.closePositionPortfolio cfg clock args = .ok (pm', pnl)) :
    LotBook k symbol original volumeMin pm' := by
  obtain ⟨position, pm₁, pm₂, closed, now, hposition, hensure, hrealize, -, -, rfl⟩ :=
    closePositionPortfolio_inv hclose
  have hbook := h.refresh hensure
  have hget : pm₁.getPosition args.positionId = some (afterRefresh cfg ⟨pm, clock⟩ position) :=
    ensure_treats hensure hposition
  have hclosed : identity closed = identity (afterRefresh cfg ⟨pm, clock⟩ position) :=
    (identity_realizeClose hrealize).trans (identity_withExitFee _ _)
  have hrecord : (createTradeRecord cfg args closed now).positionId =
      (afterRefresh cfg ⟨pm, clock⟩ position).positionId := congrArg Prod.fst hclosed
  obtain ⟨costs, balances, rfl⟩ := realizeClose_frame hrealize
  refine hbook.record hget hrecord rfl (Dict.get?_erase_self _ _)
    (fun other hother => Dict.get?_erase_ne _ hother) (by simp) fun hk => ?_
  subst hk
  have hlots : closed.lots = (afterRefresh cfg ⟨pm, clock⟩ position).lots :=
    congrArg (·.2.2) hclosed
  have hheld := hbook.held _ hget
  refine ⟨?_, ?_, by simp⟩
  · exact lt_of_lt_of_eq hheld.2.2.1 hlots.symm
  · rw [Option.map_none, Option.getD_none, add_zero]
    exact hlots

/-- A partial close of a valid size records the closed lots and leaves the rest open. -/
theorem LotBook.partialClose (h : LotBook k symbol original volumeMin pm) {args : CloseArgs}
    {closeLots pnl : ℚ}
    (hclose : pm.partialClosePosition cfg clock args closeLots = .ok (pm', pnl))
    (hvalid : args.positionId = k → OnGrid closeLots ∧ 0 < closeLots ∧
      ∀ position ∈ pm.getPosition k, closeLots < position.lots ∧
        volumeMin - 1 / 1000000000 ≤ position.lots - closeLots) :
    LotBook k symbol original volumeMin pm' := by
  obtain ⟨position, pm₁, pm₂, now, closed, balances, hposition, hensure, -, hclosed, -, -, rfl,
    -, -, rfl⟩ := partialClosePosition_inv hclose
  have hbook := h.refresh hensure
  have hget : pm₁.getPosition args.positionId = some closed := by
    have hrefreshed : pm₁.getPosition args.positionId =
        some (afterRefresh cfg ⟨pm, clock⟩ position) := ensure_treats hensure hposition
    rw [hclosed]
    exact hrefreshed
  obtain ⟨costs, hcosts⟩ := recordFee_frame pm₁ args.exitFee
  rw [hcosts]
  have hrecord : (partialRecord cfg args closed now closeLots).positionId = closed.positionId := rfl
  refine hbook.record hget hrecord rfl
    (Dict.get?_set_self _ _ _) (fun other hother => Dict.get?_set_ne _ _ hother) ?_ fun hk => ?_
  · rintro rest hrest
    cases hrest
    exact ⟨rfl, rfl⟩
  · subst hk
    obtain ⟨hgrid, hpositive, hsizes⟩ := hvalid rfl
    have hlots : closed.lots = position.lots := by
      have hidentity : identity (afterRefresh cfg ⟨pm, clock⟩ position) = identity position :=
        identity_afterRefresh _ position
      rw [hclosed]
      exact congrArg (·.2.2) hidentity
    obtain ⟨hless, hdust⟩ := hsizes position hposition
    rw [← hlots] at hless hdust
    have hrest : OnGrid (closed.lots - closeLots) := (hbook.held _ hget).2.1.sub hgrid
    have hrounded : (remainder closed closeLots (1 - closeLots / closed.lots)).lots =
        closed.lots - closeLots := hrest.roundTo
    refine ⟨hpositive, ?_, ?_⟩
    · rw [Option.map_some, Option.getD_some, hrounded]
      exact add_sub_cancel _ _
    · rintro rest hsome
      cases hsome
      rw [hrounded]
      exact ⟨hrest, sub_pos.mpr hless, hdust⟩

end Closes

section Fills

variable {k symbol : String} {original : ℚ} {spec : SymbolSpecification}
variable {cfg : ExecutorConfig} {market : MarketState} {ledger ledger' : ExecutionLedger}

def OpensNot (k : String) : ExecutorCall → Prop
  | .fillOpenOrder pending _ _ _ => pending.pendingOrderId ≠ k
  | _ => True

def AsksOnGrid (k : String) : ExecutorCall → Prop
  | .fillCloseOrder pending _ _ => pending.pendingOrderId = k → ∀ lots ∈ pending.closeLots, OnGrid lots
  | _ => True

/-- What is closed partially is what was asked for, less than the position and leaving no dust. -/
theorem partialLots_eq_some {request : Option ℚ} {positionLots volumeMin lots : ℚ}
    (h : partialLots request positionLots volumeMin = some lots) :
    request = some lots ∧ lots < positionLots ∧
      volumeMin - 1 / 1000000000 ≤ positionLots - lots := by
  unfold partialLots at h
  split at h
  · cases h
  · split at h
    · next hpartial =>
        cases h
        exact ⟨rfl, hpartial⟩
    · cases h

theorem LotBook.fillCloseOrder (hspec : cfg.broker.symbols.get? symbol = some spec)
    (h : LotBook k symbol original spec.volumeMin ledger.portfolio) {pending : PendingOrder}
    {fillPrice : Option ℚ} {closeReason : CloseReason}
    (hgrid : ledger.portfolio.getPosition k ≠ none → pending.pendingOrderId = k →
      ∀ lots ∈ pending.closeLots, OnGrid lots)
    (hfill : Executor.fillCloseOrder cfg market ledger pending fillPrice closeReason = .ok ledger') :
    LotBook k symbol original spec.volumeMin ledger'.portfolio := by
  obtain ⟨tick, -, ⟨rfl, -⟩ | ⟨position, spec', closePrice, exitTickValue, closing, seq, trades,
    pm, pnl, now, result, hposition, -, hvalid, hspec', -, -, hclosing, hclose, -, rfl⟩⟩ :=
    fillCloseOrder_eq_ok hfill
  · exact h
  · cases closing with
    | none => exact h.close hclose
    | some lots =>
        obtain ⟨hrequest, hless, hdust⟩ := partialLots_eq_some hclosing.symm
        refine h.partialClose hclose fun hk => ?_
        have hopen : ledger.portfolio.getPosition k = some position := by
          rw [← hk]
          exact hposition
        rw [(h.held position hopen).1, hspec] at hspec'
        cases hspec'
        rw [hrequest] at hvalid
        refine ⟨hgrid (by simp [hopen]) hk lots hrequest, by simpa using hvalid, ?_⟩
        intro other hother
        rw [hopen] at hother
        cases hother
        exact ⟨hless, hdust⟩

theorem LotBook.fillOpenOther {volumeMin : ℚ}
    (h : LotBook k symbol original volumeMin ledger.portfolio) {pending : PendingOrder}
    {fillPrice : Option ℚ} {entryType : EntryType} {fillType : FillType}
    (hother : pending.pendingOrderId ≠ k)
    (hfill : fillOpenOrder cfg market ledger pending fillPrice entryType fillType = .ok ledger') :
    LotBook k symbol original volumeMin ledger'.portfolio := by
  obtain ⟨tick, spec, entryPrice, pm, -, -, -, -, hfunds, hresult⟩ := fillOpenOrder_eq_ok hfill
  have hbook : LotBook k symbol original volumeMin pm := by
    rcases hfunds with rfl | hensure
    · exact h
    · exact h.refresh hensure
  rcases hresult with ⟨reason, message, rfl⟩ | ⟨tickValue, bid, ask, entryFee, trades, seq, pm', now,
    -, -, hopen, rfl⟩
  · exact hbook
  · exact hbook.openOther hother hopen

end Fills

section Runs

variable {k symbol : String} {original : ℚ} {spec : SymbolSpecification} {cfg : ExecutorConfig}

theorem lotBook_step (hspec : cfg.broker.symbols.get? symbol = some spec) {s s' : ExecutorState}
    {call : ExecutorCall} (h : LotBook k symbol original spec.volumeMin s.ledger.portfolio)
    (hopens : OpensNot k call)
    (hgrid : s.ledger.portfolio.getPosition k ≠ none → AsksOnGrid k call)
    (hstep : executorStep cfg s call = .ok s') :
    LotBook k symbol original spec.volumeMin s'.ledger.portfolio := by
  cases call with
  | receiveTick tick =>
      cases hstep
      exact ⟨h.keyed, h.balanced, h.positive, h.held⟩
  | setCurrentTime now =>
      cases hstep
      exact h
  | modifyPosition positionId newStopLoss newTakeProfit =>
      cases hstep
      exact h.modify positionId newStopLoss newTakeProfit
  | getAccountInfo direction =>
      obtain ⟨⟨pm, info⟩, hinfo, hpure⟩ := bind_eq_ok.mp hstep
      cases hpure
      exact h.refresh (getAccountInfo_eq_ok hinfo)
  | fillOpenOrder pending fillPrice entryType fillType =>
      obtain ⟨ledger, hfill, hpure⟩ := bind_eq_ok.mp hstep
      cases hpure
      exact h.fillOpenOther hopens hfill
  | fillCloseOrder pending fillPrice closeReason =>
      obtain ⟨ledger, hfill, hpure⟩ := bind_eq_ok.mp hstep
      cases hpure
      exact h.fillCloseOrder hspec hgrid hfill

/-- A book without lots: the position is not open and no record is of it. -/
theorem LotBook.nothing {volumeMin : ℚ} {pm : PortfolioManager}
    (h : LotBook k symbol 0 volumeMin pm) :
    pm.getPosition k = none ∧ closedLots k pm.tradeLog = 0 := by
  have hclosed : 0 ≤ closedLots k pm.tradeLog := by
    apply List.sum_nonneg
    simp only [List.mem_map, List.mem_filter, decide_eq_true_eq]
    rintro lots ⟨record, ⟨hrecord, hid⟩, rfl⟩
    exact (h.positive record hrecord hid).le
  have hbalanced := h.balanced
  cases hposition : pm.getPosition k with
  | none =>
      rw [openLots, hposition] at hbalanced
      exact ⟨rfl, by simpa using hbalanced⟩
  | some position =>
      have hpositive := (h.held position hposition).2.2.1
      rw [openLots, hposition, Option.map_some, Option.getD_some] at hbalanced
      linarith

theorem lotBook_begin (cfg : ExecutorConfig) (k symbol : String) (volumeMin : ℚ) :
    LotBook k symbol 0 volumeMin (begin cfg).ledger.portfolio := by
  refine ⟨?_, ?_, ?_, ?_⟩
  · intro id position hposition
    cases hposition
  · simp [begin, Portfolio.new, closedLots, openLots, getPosition]
  · simp [begin, Portfolio.new]
  · intro position hposition
    cases hposition

theorem LotBook.opened {volumeMin : ℚ} {pm pm' : PortfolioManager} {clock : Option Instant}
    {config : PortfolioConfig} (args : OpenPositionArgs)
    (h : LotBook args.orderId args.symbol 0 volumeMin pm) (hgrid : OnGrid args.lots)
    (hpositive : 0 < args.lots) (hmin : volumeMin ≤ args.lots)
    (hopen : pm.openPosition config clock args = .ok pm') :
    LotBook args.orderId args.symbol args.lots volumeMin pm' ∧
      ∃ now, pm'.getPosition args.orderId = some (args.position now) := by
  obtain ⟨-, hclosed⟩ := h.nothing
  obtain ⟨now, costs, balances, -, rfl⟩ := openPosition_eq_ok hopen
  have hdust : volumeMin - 1 / 1000000000 ≤ args.lots := by linarith
  have hget : Dict.get? (pm.openPositions.set args.orderId (args.position now)) args.orderId =
      some (args.position now) := Dict.get?_set_self _ _ _
  refine ⟨⟨fun id position hposition => ?_, ?_, h.positive, fun position hposition => ?_⟩,
    now, hget⟩
  · by_cases hid : id = args.orderId
    · subst hid
      cases hget.symm.trans hposition
      rfl
    · exact h.keyed id position ((Dict.get?_set_ne _ _ hid).symm.trans hposition)
  · rw [openLots, getPosition, hget, hclosed, Option.map_some, Option.getD_some, zero_add]
    rfl
  · cases hget.symm.trans hposition
    exact ⟨rfl, hgrid, hpositive, hdust⟩

theorem LotBook.fillOpen {volumeMin : ℚ} {market : MarketState} {ledger ledger' : ExecutionLedger}
    {pending : PendingOrder} {fillPrice : Option ℚ} {entryType : EntryType} {fillType : FillType}
    (h : LotBook pending.pendingOrderId pending.symbol 0 volumeMin ledger.portfolio)
    (hgrid : OnGrid pending.lots) (hpositive : 0 < pending.lots) (hmin : volumeMin ≤ pending.lots)
    (hfill : fillOpenOrder cfg market ledger pending fillPrice entryType fillType = .ok ledger')
    {position : Position}
    (hposition : ledger'.portfolio.getPosition pending.pendingOrderId = some position) :
    LotBook pending.pendingOrderId pending.symbol position.originalLots volumeMin
      ledger'.portfolio := by
  obtain ⟨tick, spec, entryPrice, pm, -, -, -, -, hfunds, hresult⟩ := fillOpenOrder_eq_ok hfill
  have hbook : LotBook pending.pendingOrderId pending.symbol 0 volumeMin pm := by
    rcases hfunds with rfl | hensure
    · exact h
    · exact h.refresh hensure
  rcases hresult with ⟨reason, message, rfl⟩ | ⟨tickValue, bid, ask, entryFee, trades, seq, pm', now,
    -, -, hopen, rfl⟩
  · have hnone : pm.getPosition pending.pendingOrderId = none := hbook.nothing.1
    cases hnone.symm.trans hposition
  · obtain ⟨hopened, now', hget⟩ := LotBook.opened
      (openPositionArgs market pending (pending.direction.getD .short) spec entryPrice tickValue bid
        ask entryFee entryType trades) hbook hgrid hpositive hmin hopen
    cases hget.symm.trans hposition
    exact hopened

/-- From the open fill of a position on, over every sequence of calls that ask for lots on the
grid: the lots of its records and the lots still open make up the original lots, each record
closes something, the position is gone exactly when all its lots are closed, and what is open is
not less than the minimum volume. -/
theorem lots_conserved {before after : List ExecutorCall} {s opened t : ExecutorState}
    {pending : PendingOrder} {fillPrice : Option ℚ} {entryType : EntryType} {fillType : FillType}
    {spec : SymbolSpecification} {position : Position}
    (hspec : cfg.broker.symbols.get? pending.symbol = some spec) (hgrid : OnGrid pending.lots)
    (hpositive : 0 < pending.lots) (hmin : spec.volumeMin ≤ pending.lots)
    (hnew : ∀ call ∈ before, OpensNot pending.pendingOrderId call)
    (hbefore : run (executorStep cfg) (begin cfg) before = .ok s)
    (hopen : executorStep cfg s (.fillOpenOrder pending fillPrice entryType fillType) = .ok opened)
    (hposition : opened.ledger.portfolio.getPosition pending.pendingOrderId = some position)
    (hcalls : ∀ call ∈ after, OpensNot pending.pendingOrderId call ∧
      AsksOnGrid pending.pendingOrderId call)
    (hafter : run (executorStep cfg) opened after = .ok t) :
    closedLots pending.pendingOrderId t.ledger.portfolio.tradeLog +
          openLots pending.pendingOrderId t.ledger.portfolio = position.originalLots ∧
      (∀ record ∈ t.ledger.portfolio.tradeLog,
        record.positionId = pending.pendingOrderId → 0 < record.lots) ∧
      (t.ledger.portfolio.getPosition pending.pendingOrderId = none ↔
        closedLots pending.pendingOrderId t.ledger.portfolio.tradeLog = position.originalLots) ∧
      ∀ rest, t.ledger.portfolio.getPosition pending.pendingOrderId = some rest →
        spec.volumeMin - 1 / 1000000000 ≤ rest.lots := by
  have hempty : LotBook pending.pendingOrderId pending.symbol 0 spec.volumeMin s.ledger.portfolio := by
    refine run_invariant_of_stepsAll (I := fun u : ExecutorState =>
      LotBook pending.pendingOrderId pending.symbol 0 spec.volumeMin u.ledger.portfolio)
      (fun u call u' hbook hother hstep => ?_) (lotBook_begin cfg _ _ _)
      (stepsAll_of_forall _ hnew) hbefore
    exact lotBook_step hspec hbook hother (fun hsome => absurd hbook.nothing.1 hsome) hstep
  obtain ⟨ledger, hfill, hpure⟩ := bind_eq_ok.mp hopen
  cases hpure
  have hbook : LotBook pending.pendingOrderId pending.symbol position.originalLots spec.volumeMin
      t.ledger.portfolio := by
    refine run_invariant_of_stepsAll (I := fun u : ExecutorState => LotBook pending.pendingOrderId
      pending.symbol position.originalLots spec.volumeMin u.ledger.portfolio)
      (fun u call u' hbook hcall hstep => ?_)
      (hempty.fillOpen hgrid hpositive hmin hfill hposition) (stepsAll_of_forall _ hcalls) hafter
    exact lotBook_step hspec hbook hcall.1 (fun _ => hcall.2) hstep
  refine ⟨hbook.balanced, hbook.positive, ?_, fun rest hrest => (hbook.held rest hrest).2.2.2⟩
  have hbalanced := hbook.balanced
  cases hrest : t.ledger.portfolio.getPosition pending.pendingOrderId with
  | none => simpa [openLots, hrest] using hbalanced
  | some rest =>
      have hheld := (hbook.held rest hrest).2.2.1
      rw [openLots, hrest, Option.map_some, Option.getD_some] at hbalanced
      simp only [reduceCtorEq, false_iff]
      linarith

end Runs

section Account

open Finiex.LiveSteps

def closeLotsOrder (lots : ℚ) : PendingOrder :=
  { closeOrder "pos_ethusd_1" with closeLots := some lots }

/-- An invalid request, a partial close, a request that leaves dust, and one too many. -/
def scaledOut : List ExecutorCall :=
  [.fillCloseOrder (closeLotsOrder (-1)) none .manual,
    .fillCloseOrder (closeLotsOrder (1 / 4)) none .manual,
    .fillCloseOrder (closeLotsOrder (3 / 4 - 1 / 10 ^ 8)) none .manual]

def heldAfter (calls : List ExecutorCall) : Except PyError (ℚ × Option ℚ) :=
  (run (executorStep spotExecutor) (begin spotExecutor) calls).map fun s =>
    (closedLots "pos_ethusd_1" s.ledger.portfolio.tradeLog,
      (s.ledger.portfolio.getPosition "pos_ethusd_1").map Position.lots)

example : heldAfter (boughtThen (scaledOut.take 2)) = .ok (1 / 4, some (3 / 4)) := by
  decide +kernel

example : heldAfter (boughtThen scaledOut) = .ok (1, none) := by decide +kernel

theorem lots_conserved_scaledOut :
    ∃ t, run (executorStep spotExecutor) (begin spotExecutor) (boughtThen scaledOut) = .ok t ∧
      closedLots "pos_ethusd_1" t.ledger.portfolio.tradeLog +
        openLots "pos_ethusd_1" t.ledger.portfolio = 1 := by
  obtain ⟨t, hrun, -⟩ := map_eq_ok.mp (show heldAfter (boughtThen scaledOut) = .ok (1, none) by
    decide +kernel)
  obtain ⟨opened, hbought, hafter⟩ := run_append_eq_ok.mp (show
    run (executorStep spotExecutor) (begin spotExecutor) (boughtThen [] ++ scaledOut) = .ok t from
      hrun)
  obtain ⟨opened', hbought', horiginal⟩ := map_eq_ok.mp (show
    (run (executorStep spotExecutor) (begin spotExecutor) (boughtThen [])).map
      (fun s => (s.ledger.portfolio.getPosition "pos_ethusd_1").map Position.originalLots) =
        .ok (some 1) by decide +kernel)
  cases hbought.symm.trans hbought'
  obtain ⟨position, hposition, hlots⟩ := Option.map_eq_some_iff.mp horiginal
  obtain ⟨s, hbefore, hopen⟩ := run_append_eq_ok.mp (show
    run (executorStep spotExecutor) (begin spotExecutor) ([.receiveTick (ethusdTick 2000 2001 1)] ++
      [.fillOpenOrder (marketOrder "pos_ethusd_1" .long) none .market .market]) = .ok opened from
        hbought)
  obtain ⟨s', hfill, hdone⟩ := run_cons_eq_ok.mp hopen
  cases hdone
  have hspec : spotExecutor.broker.symbols.get? (marketOrder "pos_ethusd_1" .long).symbol =
      some ethusd := rfl
  have hcalls : ∀ call ∈ scaledOut, OpensNot "pos_ethusd_1" call ∧
      AsksOnGrid "pos_ethusd_1" call := by
    simp only [scaledOut, List.forall_mem_cons, OpensNot, AsksOnGrid, closeLotsOrder]
    refine ⟨⟨trivial, ?_⟩, ⟨trivial, ?_⟩, ⟨trivial, ?_⟩, by simp⟩
    · rintro - lots ⟨⟩
      exact ⟨-10 ^ 8, by norm_num⟩
    · rintro - lots ⟨⟩
      exact ⟨25000000, by norm_num⟩
    · rintro - lots ⟨⟩
      exact ⟨74999999, by norm_num⟩
  refine ⟨t, hrun, ?_⟩
  rw [← hlots]
  exact (lots_conserved hspec ⟨10 ^ 8, by norm_num [marketOrder]⟩ (by norm_num [marketOrder])
    (by decide +kernel) (by simp [OpensNot]) hbefore hfill hposition hcalls hafter).1

end Account

end Finiex.CloseLots
