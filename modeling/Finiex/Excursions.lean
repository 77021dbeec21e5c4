import Finiex.PortfolioRuns
import Finiex.Lib.Extremes

namespace Finiex.Excursions

open Finiex.Types
open Finiex.Lib
open Finiex.Lib.Run
open Finiex.Lib.Extremes
open Finiex.Positions
open Finiex.Broker
open Finiex.Portfolio
open Finiex.Portfolio.PortfolioManager
open Finiex.PortfolioRefresh
open Finiex.PortfolioLedger
open Finiex.PortfolioFrames
open Finiex.PortfolioRuns

section Position

/-- The recorded prices are the most adverse and the most favourable of the prices seen. -/
def TrueExtremes (seen : List ℚ) (position : Position) : Prop :=
  match position.direction with
  | .long => IsLeast {price | price ∈ seen} position.maePrice ∧
      IsGreatest {price | price ∈ seen} position.mfePrice
  | .short => IsGreatest {price | price ∈ seen} position.maePrice ∧
      IsLeast {price | price ∈ seen} position.mfePrice

/-- A price with its gross P&L breaks the recorded P&L when it is beyond the recorded price, and
only when it does not fall short of it. -/
def Ranked (position : Position) (price gross : ℚ) : Prop :=
  ((position.priceDiff price < position.priceDiff position.maePrice → gross < position.maePnl) ∧
    (gross < position.maePnl → position.priceDiff price ≤ position.priceDiff position.maePrice)) ∧
  ((position.priceDiff position.mfePrice < position.priceDiff price → position.mfePnl < gross) ∧
    (position.mfePnl < gross → position.priceDiff position.mfePrice ≤ position.priceDiff price))

instance (position : Position) (price gross : ℚ) : Decidable (Ranked position price gross) :=
  inferInstanceAs (Decidable ((_ ∧ _) ∧ (_ ∧ _)))

variable {seen : List ℚ} {position : Position}

def excursion (position : Position) : OrderDirection × ℚ × ℚ :=
  (position.direction, position.maePrice, position.mfePrice)

theorem trueExtremes_congr (seen : List ℚ) {other : Position}
    (h : excursion other = excursion position) :
    TrueExtremes seen other ↔ TrueExtremes seen position := by
  simp only [excursion, Prod.mk.injEq] at h
  rw [TrueExtremes, TrueExtremes, h.1, h.2.1, h.2.2]

theorem setOf_mem_cons (price : ℚ) (seen : List ℚ) :
    {p | p ∈ price :: seen} = insert price {p | p ∈ seen} := by
  ext p
  simp

theorem trueExtremes_update_iff (h : TrueExtremes seen position) (bid ask tickValue : ℚ)
    (digits : ℕ) :
    TrueExtremes (position.closeSide bid ask :: seen)
        (position.updateCurrentPrice bid ask tickValue digits) ↔
      Ranked position (position.closeSide bid ask)
        (grossPnlFromPriceDiff (position.priceDiff (position.closeSide bid ask)) digits tickValue
          position.lots) := by
  have hdirection : (position.updateCurrentPrice bid ask tickValue digits).direction =
      position.direction := rfl
  unfold TrueExtremes at h ⊢
  rw [hdirection, setOf_mem_cons]
  cases hlong : position.direction with
  | long =>
      rw [hlong] at h
      simp only [Position.updateCurrentPrice, Ranked]
      rw [isLeast_insert_iff h.1, isGreatest_insert_iff h.2]
      simp only [Position.priceDiff, hlong, sub_lt_sub_iff_right, sub_le_sub_iff_right]
  | short =>
      rw [hlong] at h
      simp only [Position.updateCurrentPrice, Ranked]
      rw [isGreatest_insert_iff h.1, isLeast_insert_iff h.2]
      simp only [Position.priceDiff, hlong, sub_lt_sub_iff_left, sub_le_sub_iff_left]

end Position

section Watch

variable (cfg : PortfolioConfig) (k : String)

/-- A session with the prices that position `k` has been shown. -/
structure Watch where
  session : Session
  seen : List ℚ

def refreshQuote (pm : PortfolioManager) (position : Position) :
    Option (ℚ × ℚ × SymbolSpecification) :=
  match pm.positionsDirty, pm.currentPrices.get? position.symbol,
      cfg.broker.symbols.get? position.symbol with
  | true, some (bid, ask), some spec => some (bid, ask, spec)
  | _, _, _ => none

def refreshes : PortfolioCall → Bool
  | .getAccountInfo _ | .ensurePositionsUpdated | .partialClose _ _ | .close _ => true
  | .markDirty _ | .setClock _ | .openPosition _ | .modifyPosition _ _ _ => false

/-- The close-side price that a call shows to position `k`. -/
def shownBy (s : Session) (call : PortfolioCall) : List ℚ :=
  if refreshes call then
    ((s.portfolio.getPosition k).bind fun position =>
      (refreshQuote cfg s.portfolio position).map fun quote =>
        position.closeSide quote.1 quote.2.1).toList
  else []

def watchStep (w : Watch) (call : PortfolioCall) : Except PyError Watch := do
  let s ← callStep cfg w.session call
  return { session := s, seen := shownBy cfg k w.session call ++ w.seen }

def quotedPnl (position : Position) (quote : ℚ × ℚ × SymbolSpecification) : ℚ :=
  grossPnlFromPriceDiff (position.priceDiff (position.closeSide quote.1 quote.2.1))
    quote.2.2.digits (tickValueAt cfg quote.2.2 ((quote.1 + quote.2.1) / 2)) position.lots

/-- Whatever price the call shows to position `k` ranks the same by price and by P&L. -/
def RanksAlike (w : Watch) (call : PortfolioCall) : Prop :=
  refreshes call → ∀ position ∈ w.session.portfolio.getPosition k,
    ∀ quote ∈ refreshQuote cfg w.session.portfolio position,
      Ranked position (position.closeSide quote.1 quote.2.1) (quotedPnl cfg position quote)

instance (w : Watch) (call : PortfolioCall) : Decidable (RanksAlike cfg k w call) :=
  inferInstanceAs (Decidable (_ → ∀ _ ∈ _, ∀ _ ∈ _, _))

variable {cfg k}

theorem marked_eq (pm : PortfolioManager) (position : Position) :
    marked cfg pm position = (refreshQuote cfg pm position).elim position fun quote =>
      position.updateCurrentPrice quote.1 quote.2.1
        (tickValueAt cfg quote.2.2 ((quote.1 + quote.2.1) / 2)) quote.2.2.digits := by
  unfold marked refreshQuote
  cases pm.positionsDirty with
  | false => rfl
  | true =>
      cases pm.currentPrices.get? position.symbol with
      | none => rfl
      | some quote => cases cfg.broker.symbols.get? position.symbol <;> rfl

theorem afterRefresh_symbol (s : Session) (position : Position) :
    (afterRefresh cfg s position).symbol = position.symbol := by
  rw [afterRefresh, marked_eq]
  cases refreshQuote cfg s.portfolio (accrued cfg s.clock position) <;>
    exact accrued_symbol cfg s.clock position

/-- A refresh leaves the extremes true exactly when the price it shows ranks alike. -/
theorem trueExtremes_refresh_iff (s : Session) {position : Position} {seen : List ℚ}
    (h : TrueExtremes seen position) :
    TrueExtremes (((refreshQuote cfg s.portfolio position).map fun quote =>
          position.closeSide quote.1 quote.2.1).toList ++ seen) (afterRefresh cfg s position) ↔
      ∀ quote ∈ refreshQuote cfg s.portfolio position,
        Ranked position (position.closeSide quote.1 quote.2.1) (quotedPnl cfg position quote) := by
  obtain ⟨fees, now, haccrued⟩ := accrued_frame cfg s.clock position
  have hquote : refreshQuote cfg s.portfolio (position.accrue fees now) =
      refreshQuote cfg s.portfolio position := rfl
  rw [afterRefresh, haccrued, marked_eq, hquote]
  cases refreshQuote cfg s.portfolio position with
  | none =>
      simp only [Option.map_none, Option.toList_none, List.nil_append, Option.mem_def, reduceCtorEq,
        false_implies, implies_true, iff_true]
      exact h
  | some quote =>
      have haccrue : TrueExtremes seen (position.accrue fees now) := h
      simp only [Option.map_some, Option.toList_some, List.singleton_append, Option.mem_def,
        Option.some.injEq, forall_eq', Option.elim_some]
      exact trueExtremes_update_iff haccrue quote.1 quote.2.1
        (tickValueAt cfg quote.2.2 ((quote.1 + quote.2.1) / 2)) quote.2.2.digits

/-- The extremes of a position that stays open are those of its refreshed self. -/
theorem excursion_keptAs {s : Session} {position position' : Position} {call : PortfolioCall}
    (h : KeptAs cfg s k position call position') :
    excursion position' =
      excursion (if refreshes call then afterRefresh cfg s position else position) := by
  cases call with
  | getAccountInfo | ensurePositionsUpdated | close => exact congrArg excursion h
  | markDirty | setClock | openPosition => exact congrArg excursion h
  | modifyPosition =>
      obtain ⟨stopLoss, takeProfit, rfl⟩ := h
      rfl
  | partialClose args closeLots =>
      rw [KeptAs] at h
      split at h
      · rw [h.2]
        rfl
      · exact congrArg excursion h

def IsOpen (k : String) (w : Watch) : Prop := (w.session.portfolio.getPosition k).isSome

/-- The extremes of position `k` are true. -/
def ReadsTrue (k : String) (w : Watch) : Prop :=
  ∀ position ∈ w.session.portfolio.getPosition k, TrueExtremes w.seen position

theorem readsTrue_step (w : Watch) (call : PortfolioCall) (w' : Watch) (hopen : IsOpen k w)
    (hkeeps : KeepsOpen k call) (htrue : ReadsTrue k w)
    (hstep : watchStep cfg k w call = .ok w') :
    IsOpen k w' ∧ (ReadsTrue k w' ↔ RanksAlike cfg k w call) := by
  obtain ⟨s', hcall, hpure⟩ := bind_eq_ok.mp hstep
  cases hpure
  obtain ⟨position, hposition⟩ := Option.isSome_iff_exists.mp hopen
  obtain ⟨position', hposition', hkept⟩ := callStep_keeps hcall hkeeps hposition
  refine ⟨by simp [IsOpen, hposition'], ?_⟩
  have hread := trueExtremes_congr (shownBy cfg k w.session call ++ w.seen)
    (excursion_keptAs hkept)
  simp only [ReadsTrue, RanksAlike, hposition, hposition', Option.mem_def, Option.some.injEq,
    forall_eq']
  rw [hread, shownBy]
  cases refreshes call with
  | false => simpa using htrue position hposition
  | true =>
      simp only [if_true, hposition, Option.bind_some, true_implies]
      exact trueExtremes_refresh_iff w.session (htrue position hposition)

theorem opened_reads_true_iff {s opened : Session} {args : OpenPositionArgs}
    {calls : List PortfolioCall} {t : Watch}
    (hopen : callStep cfg s (.openPosition args) = .ok opened)
    (hkeeps : ∀ call ∈ calls, KeepsOpen args.orderId call)
    (hrun : run (watchStep cfg args.orderId) ⟨opened, [args.entryPrice]⟩ calls = .ok t) :
    (∀ n u, run (watchStep cfg args.orderId) ⟨opened, [args.entryPrice]⟩ (calls.take n) = .ok u →
        ReadsTrue args.orderId u) ↔
      StepsAll (watchStep cfg args.orderId) (RanksAlike cfg args.orderId)
        ⟨opened, [args.entryPrice]⟩ calls := by
  obtain ⟨pm, hopened, hpure⟩ := bind_eq_ok.mp hopen
  cases hpure
  obtain ⟨now, costs, balances, -, rfl⟩ := openPosition_eq_ok hopened
  have hget : Dict.get? (s.portfolio.openPositions.set args.orderId (args.position now))
      args.orderId = some (args.position now) := Dict.get?_set_self _ _ _
  refine reached_iff_stepsAll readsTrue_step hkeeps ?_ ?_ hrun
  · exact Option.isSome_iff_exists.mpr ⟨_, hget⟩
  · intro position hposition
    cases hget.symm.trans hposition
    have hsingle : {price | price ∈ [args.entryPrice]} = {args.entryPrice} := by simp
    unfold TrueExtremes
    rw [hsingle]
    split
    · exact ⟨isLeast_singleton, isGreatest_singleton⟩
    · exact ⟨isGreatest_singleton, isLeast_singleton⟩

/-- From the open of a position on, over every run that keeps it open, its excursion prices are
the true extremes in every state reached exactly when every price it is shown ranks the same by
price and by P&L. -/
theorem excursions_true_iff {s opened : Session} {args : OpenPositionArgs}
    {calls : List PortfolioCall} {t : Watch}
    (hopen : callStep cfg s (.openPosition args) = .ok opened)
    (hkeeps : ∀ call ∈ calls, KeepsOpen args.orderId call)
    (hrun : run (watchStep cfg args.orderId) ⟨opened, [args.entryPrice]⟩ calls = .ok t) :
    (∀ n u, run (watchStep cfg args.orderId) ⟨opened, [args.entryPrice]⟩ (calls.take n) = .ok u →
        ∀ position ∈ u.session.portfolio.getPosition args.orderId,
          TrueExtremes u.seen position) ↔
      StepsAll (watchStep cfg args.orderId) (RanksAlike cfg args.orderId)
        ⟨opened, [args.entryPrice]⟩ calls :=
  opened_reads_true_iff hopen hkeeps hrun

end Watch

section Unreduced

variable {cfg : PortfolioConfig} {value : ℚ} {position : Position}

/-- The recorded P&L is that of the recorded prices at the current lots. -/
structure Proportional (value : ℚ) (position : Position) : Prop where
  lots : 0 < position.lots
  mae : position.maePnl = position.priceDiff position.maePrice * (value * position.lots)
  mfe : position.mfePnl = position.priceDiff position.mfePrice * (value * position.lots)

theorem grossPnl_eq (position : Position) (price : ℚ) (digits : ℕ) (tickValue : ℚ) :
    grossPnlFromPriceDiff (position.priceDiff price) digits tickValue position.lots =
      position.priceDiff price * (10 ^ digits * tickValue * position.lots) := by
  unfold grossPnlFromPriceDiff
  ring

theorem Proportional.ranked (h : Proportional value position) (hvalue : 0 < value) (price : ℚ) :
    Ranked position price (position.priceDiff price * (value * position.lots)) := by
  have hscale : 0 < value * position.lots := mul_pos hvalue h.lots
  rw [Ranked, h.mae, h.mfe]
  simp only [mul_lt_mul_iff_left₀ hscale]
  exact ⟨⟨id, le_of_lt⟩, id, le_of_lt⟩

theorem Proportional.update {digits : ℕ} {tickValue : ℚ}
    (h : Proportional (10 ^ digits * tickValue) position) (bid ask : ℚ) :
    Proportional (10 ^ digits * tickValue)
      (position.updateCurrentPrice bid ask tickValue digits) := by
  refine ⟨h.lots, ?_, ?_⟩
  · simp only [Position.updateCurrentPrice, grossPnl_eq]
    split
    · rfl
    · exact h.mae
  · simp only [Position.updateCurrentPrice, grossPnl_eq]
    split
    · rfl
    · exact h.mfe

theorem Proportional.afterRefresh {spec : SymbolSpecification}
    (hquoted : cfg.accountCurrency = spec.quoteCurrency)
    (hspec : ∀ other, cfg.broker.symbols.get? position.symbol = some other → other = spec)
    (h : Proportional (10 ^ spec.digits * (spec.tickSize * spec.contractSize)) position)
    (s : Session) :
    Proportional (10 ^ spec.digits * (spec.tickSize * spec.contractSize))
      (afterRefresh cfg s position) := by
  obtain ⟨fees, now, haccrued⟩ := accrued_frame cfg s.clock position
  rw [PortfolioRuns.afterRefresh, haccrued]
  have haccrue : Proportional (10 ^ spec.digits * (spec.tickSize * spec.contractSize))
      (position.accrue fees now) := ⟨h.lots, h.mae, h.mfe⟩
  unfold marked
  split
  · next hother =>
      rw [hspec _ hother, tickValueAt, if_pos hquoted]
      exact haccrue.update _ _
  · exact haccrue

/-- The call keeps position `k` open and takes no lots from it. -/
def TakesNothing (k : String) : PortfolioCall → Prop
  | .openPosition args => args.orderId ≠ k
  | .close args | .partialClose args _ => args.positionId ≠ k
  | _ => True

theorem TakesNothing.keepsOpen {k : String} {call : PortfolioCall} (h : TakesNothing k call) :
    KeepsOpen k call := by
  cases call <;> first | exact h | trivial

/-- Position `k` is open and its recorded P&L is that of the recorded prices. -/
def RecordsPrices (k symbol : String) (spec : SymbolSpecification) (w : Watch) : Prop :=
  ∃ position, w.session.portfolio.getPosition k = some position ∧ position.symbol = symbol ∧
    Proportional (10 ^ spec.digits * (spec.tickSize * spec.contractSize)) position

variable {k symbol : String} {spec : SymbolSpecification}

theorem recordsPrices_step (hspec : cfg.broker.symbols.get? symbol = some spec)
    (hquoted : cfg.accountCurrency = spec.quoteCurrency) (w : Watch) (call : PortfolioCall)
    (w' : Watch) (h : RecordsPrices k symbol spec w) (hcall : TakesNothing k call)
    (hstep : watchStep cfg k w call = .ok w') : RecordsPrices k symbol spec w' := by
  obtain ⟨s', hdone, hpure⟩ := bind_eq_ok.mp hstep
  cases hpure
  obtain ⟨position, hposition, hsymbol, hproportional⟩ := h
  obtain ⟨position', hposition', hkept⟩ := callStep_keeps hdone hcall.keepsOpen hposition
  have hrefreshed : (afterRefresh cfg w.session position).symbol = symbol ∧
      Proportional (10 ^ spec.digits * (spec.tickSize * spec.contractSize))
        (afterRefresh cfg w.session position) := by
    refine ⟨?_, hproportional.afterRefresh hquoted ?_ w.session⟩
    · rw [afterRefresh_symbol, hsymbol]
    · intro other hother
      rw [hsymbol, hspec] at hother
      exact (Option.some.inj hother).symm
  refine ⟨position', hposition', ?_⟩
  cases call with
  | getAccountInfo | ensurePositionsUpdated | close =>
      rw [hkept]
      exact hrefreshed
  | markDirty | setClock | openPosition =>
      rw [hkept]
      exact ⟨hsymbol, hproportional⟩
  | modifyPosition =>
      obtain ⟨stopLoss, takeProfit, rfl⟩ := hkept
      exact ⟨hsymbol, hproportional.lots, hproportional.mae, hproportional.mfe⟩
  | partialClose args closeLots =>
      rw [KeptAs, if_neg hcall] at hkept
      rw [hkept]
      exact hrefreshed

theorem ranksAlike_of_recordsPrices (hspec : cfg.broker.symbols.get? symbol = some spec)
    (hquoted : cfg.accountCurrency = spec.quoteCurrency)
    (hvalue : 0 < spec.tickSize * spec.contractSize) (w : Watch) (call : PortfolioCall)
    (h : RecordsPrices k symbol spec w) : RanksAlike cfg k w call := by
  obtain ⟨position, hposition, hsymbol, hproportional⟩ := h
  rintro - position' hposition' ⟨bid, ask, other⟩ hquote
  cases hposition.symm.trans hposition'
  have hother : other = spec := by
    unfold refreshQuote at hquote
    split at hquote
    · next hget =>
        cases hquote
        rw [hsymbol, hspec] at hget
        exact (Option.some.inj hget).symm
    · cases hquote
  subst hother
  rw [quotedPnl, grossPnl_eq, tickValueAt, if_pos hquoted]
  exact hproportional.ranked (by positivity) _

/-- In an account in the quote currency the excursion prices of a position that is never closed
partially are the true extremes. -/
theorem excursions_true_of_whole (hspec : cfg.broker.symbols.get? symbol = some spec)
    (hquoted : cfg.accountCurrency = spec.quoteCurrency)
    (hvalue : 0 < spec.tickSize * spec.contractSize) {s opened : Session} {args : OpenPositionArgs}
    (hsymbol : args.symbol = symbol) (hlots : 0 < args.lots) {calls : List PortfolioCall}
    {t : Watch} (hopen : callStep cfg s (.openPosition args) = .ok opened)
    (hcalls : ∀ call ∈ calls, TakesNothing args.orderId call)
    (hrun : run (watchStep cfg args.orderId) ⟨opened, [args.entryPrice]⟩ calls = .ok t)
    {position : Position} (hposition : t.session.portfolio.getPosition args.orderId = some position) :
    TrueExtremes t.seen position := by
  have hinit : RecordsPrices args.orderId symbol spec ⟨opened, [args.entryPrice]⟩ := by
    obtain ⟨pm, hopened, hpure⟩ := bind_eq_ok.mp hopen
    cases hpure
    obtain ⟨now, costs, balances, -, rfl⟩ := openPosition_eq_ok hopened
    refine ⟨args.position now, Dict.get?_set_self _ _ _, hsymbol, hlots, ?_, ?_⟩ <;>
      cases hdirection : args.direction <;>
      simp [OpenPositionArgs.position, Position.priceDiff, hdirection]
  have hsteps := stepsAll_of_invariant (recordsPrices_step hspec hquoted)
    (fun w call h _ => ranksAlike_of_recordsPrices hspec hquoted hvalue w call h) hinit hcalls
  have htrue := (opened_reads_true_iff hopen (fun call hcall => (hcalls call hcall).keepsOpen)
    hrun).mpr hsteps
  exact htrue calls.length t (by rw [List.take_length]; exact hrun) position hposition

end Unreduced

section Account

/-- One lot is bought on the first tick, and the bid falls to 1.09. -/
def bought : Session where
  portfolio := (Portfolio.new usdAccount).markDirty (eurusdTick (11000 / 10000) (11002 / 10000) 1)
  clock := some 1000

def fallTo (bid : ℚ) (msc : ℤ) : List PortfolioCall :=
  [.markDirty (eurusdTick bid (bid + 2 / 10000) msc), .ensurePositionsUpdated]

theorem excursions_true_of_whole_falls :
    ∃ opened t position, callStep usdAccount bought (.openPosition oneLotLong) = .ok opened ∧
      run (watchStep usdAccount "pos_eurusd_1") ⟨opened, [oneLotLong.entryPrice]⟩
        (fallTo (10900 / 10000) 2 ++ fallTo (10950 / 10000) 3) = .ok t ∧
      t.session.portfolio.getPosition "pos_eurusd_1" = some position ∧
      position.maePrice = 10900 / 10000 ∧ TrueExtremes t.seen position := by
  have hread : (do
      let opened ← callStep usdAccount bought (.openPosition oneLotLong)
      let t ← run (watchStep usdAccount "pos_eurusd_1") ⟨opened, [oneLotLong.entryPrice]⟩
        (fallTo (10900 / 10000) 2 ++ fallTo (10950 / 10000) 3)
      return (t.session.portfolio.getPosition "pos_eurusd_1").map Position.maePrice) =
        (.ok (some (10900 / 10000)) : Except PyError (Option ℚ)) := by decide +kernel
  obtain ⟨opened, hopen, hrest⟩ := bind_eq_ok.mp hread
  obtain ⟨t, hrun, hpure⟩ := bind_eq_ok.mp hrest
  obtain ⟨position, hposition, hmae⟩ := Option.map_eq_some_iff.mp (pure_eq_ok.mp hpure)
  have hcalls : ∀ call ∈ fallTo (10900 / 10000) 2 ++ fallTo (10950 / 10000) 3,
      TakesNothing oneLotLong.orderId call := by
    simp [fallTo, TakesNothing]
  exact ⟨opened, t, position, hopen, hrun, hposition, hmae,
    @excursions_true_of_whole usdAccount "EURUSD" eurusd rfl rfl (by decide +kernel) bought opened
      oneLotLong rfl (by decide +kernel) _ t hopen hcalls hrun position hposition⟩

def halfClose : PortfolioCall :=
  .partialClose { positionId := "pos_eurusd_1", exitPrice := 10900 / 10000, exitTickValue := 1,
                  exitTickIndex := 2 } (1 / 2)

def scaledOut (bid : ℚ) : List PortfolioCall :=
  fallTo (10900 / 10000) 2 ++ [halfClose] ++ fallTo bid 3

def readAfter (calls : List PortfolioCall) :
    Except PyError (Option (OrderDirection × ℚ × ℚ) × List ℚ) := do
  let opened ← callStep usdAccount bought (.openPosition oneLotLong)
  let w ← run (watchStep usdAccount "pos_eurusd_1") ⟨opened, [oneLotLong.entryPrice]⟩ calls
  return ((w.session.portfolio.getPosition "pos_eurusd_1").map excursion, w.seen)

example : readAfter (scaledOut (10700 / 10000)) = .ok (some (.long, 10700 / 10000, 11002 / 10000),
    [10700 / 10000, 10900 / 10000, 11002 / 10000]) := by decide +kernel

/-- The bid falls further after the half close, but the P&L of half a lot does not. -/
theorem scaledOut_hides_low :
    ∃ opened w position, callStep usdAccount bought (.openPosition oneLotLong) = .ok opened ∧
      run (watchStep usdAccount "pos_eurusd_1") ⟨opened, [oneLotLong.entryPrice]⟩
        (scaledOut (10850 / 10000)) = .ok w ∧
      w.session.portfolio.getPosition "pos_eurusd_1" = some position ∧
      usdAccount.accountCurrency = eurusd.quoteCurrency ∧ ¬ TrueExtremes w.seen position := by
  have hread : readAfter (scaledOut (10850 / 10000)) =
      .ok (some (.long, 10900 / 10000, 11002 / 10000),
        [10850 / 10000, 10900 / 10000, 11002 / 10000]) := by decide +kernel
  obtain ⟨opened, hopen, hrest⟩ := bind_eq_ok.mp hread
  obtain ⟨w, hrun, hpure⟩ := bind_eq_ok.mp hrest
  obtain ⟨hposition, hseen⟩ := Prod.mk.inj (pure_eq_ok.mp hpure)
  obtain ⟨position, hposition, hexcursion⟩ := Option.map_eq_some_iff.mp hposition
  refine ⟨opened, w, position, hopen, hrun, hposition, rfl, ?_⟩
  simp only [excursion, Prod.mk.injEq] at hexcursion
  rw [TrueExtremes, hexcursion.1, hexcursion.2.1, hseen]
  rintro ⟨hleast, -⟩
  have hlow : (10900 / 10000 : ℚ) ≤ 10850 / 10000 := hleast.2 (by simp)
  norm_num at hlow

theorem excursions_true_furtherFall :
    ∃ opened w, callStep usdAccount bought (.openPosition oneLotLong) = .ok opened ∧
      run (watchStep usdAccount "pos_eurusd_1") ⟨opened, [oneLotLong.entryPrice]⟩
        (scaledOut (10700 / 10000)) = .ok w ∧
      ∀ position ∈ w.session.portfolio.getPosition "pos_eurusd_1", TrueExtremes w.seen position := by
  obtain ⟨opened, hopen, hruns⟩ := map_eq_ok.mp (show
    (callStep usdAccount bought (.openPosition oneLotLong)).map (fun opened =>
      ((run (watchStep usdAccount "pos_eurusd_1") ⟨opened, [oneLotLong.entryPrice]⟩
          (scaledOut (10700 / 10000))).toOption.isSome,
        decide (StepsAll (watchStep usdAccount "pos_eurusd_1") (RanksAlike usdAccount "pos_eurusd_1")
          ⟨opened, [oneLotLong.entryPrice]⟩ (scaledOut (10700 / 10000))))) = .ok (true, true) by
      decide +kernel)
  simp only [Prod.mk.injEq, decide_eq_true_eq] at hruns
  obtain ⟨hsome, hranked⟩ := hruns
  cases hrun : run (watchStep usdAccount "pos_eurusd_1") ⟨opened, [oneLotLong.entryPrice]⟩
      (scaledOut (10700 / 10000)) with
  | error e => simp [hrun, Except.toOption] at hsome
  | ok w =>
      have hkeeps : ∀ call ∈ scaledOut (10700 / 10000), KeepsOpen oneLotLong.orderId call := by
        simp [scaledOut, fallTo, halfClose, KeepsOpen]
      have htrue := (excursions_true_iff hopen hkeeps hrun).mpr hranked
      exact ⟨opened, w, hopen, hrun, htrue 5 w hrun⟩

end Account

end Finiex.Excursions
