import Finiex.SpotLedger

namespace Finiex.PortfolioCosts

open Finiex.Types
open Finiex.Lib
open Finiex.Lib.Run
open Finiex.Fees
open Finiex.Positions
open Finiex.Portfolio
open Finiex.Portfolio.PortfolioManager
open Finiex.PortfolioRefresh
open Finiex.PortfolioLedger
open Finiex.PortfolioFrames
open Finiex.PortfolioRuns
open Finiex.SpotLedger

section Components

def attached (feeType : FeeType) (fees : List TradingFee) : ℚ :=
  Position.totalCost (fees.filter fun fee => fee.feeType = feeType)

theorem attached_append (feeType : FeeType) (fees later : List TradingFee) :
    attached feeType (fees ++ later) = attached feeType fees + attached feeType later := by
  simp [attached]

theorem attached_cons (feeType : FeeType) (fee : TradingFee) (fees : List TradingFee) :
    attached feeType (fee :: fees) =
      (if fee.feeType = feeType then fee.cost else 0) + attached feeType fees := by
  by_cases h : fee.feeType = feeType <;> simp [attached, Position.totalCost, h]

theorem attached_scaled (feeType : FeeType) (fees : List TradingFee) (ratio : ℚ) :
    attached feeType (fees.map fun fee => { fee with cost := fee.cost * ratio }) =
      attached feeType fees * ratio := by
  induction fees with
  | nil => simp [attached]
  | cons fee fees ih =>
      have hsame : ({ fee with cost := fee.cost * ratio } : TradingFee).feeType = fee.feeType := rfl
      rw [List.map_cons, attached_cons, attached_cons, ih, hsame]
      split <;> ring

theorem totalCost_eq (fees : List TradingFee) :
    Position.totalCost fees = attached .spread fees + attached .commission fees +
      attached .swap fees + attached .makerTaker fees := by
  induction fees with
  | nil => simp [attached]
  | cons fee fees ih =>
      have hcons : Position.totalCost (fee :: fees) = fee.cost + Position.totalCost fees := by
        simp [Position.totalCost]
      rw [hcons, ih, attached_cons, attached_cons, attached_cons, attached_cons]
      cases fee.feeType <;> simp <;> ring

inductive CostComponent
  | spread | commission | swap

namespace CostComponent

def feeType : CostComponent → FeeType
  | .spread => .spread
  | .commission => .commission
  | .swap => .swap

def running : CostComponent → CostBreakdown → ℚ
  | .spread => CostBreakdown.totalSpreadCost
  | .commission => CostBreakdown.totalCommission
  | .swap => CostBreakdown.totalSwap

def reported : CostComponent → TradeRecord → ℚ
  | .spread => TradeRecord.spreadCost
  | .commission => TradeRecord.commissionCost
  | .swap => TradeRecord.swapCost

def carried (component : CostComponent) (position : Position) : ℚ :=
  attached component.feeType position.fees

end CostComponent

variable (component : CostComponent)

theorem running_recordFeeCost (costs : CostBreakdown) (fee : TradingFee) :
    component.running (costs.recordFeeCost fee) =
      component.running costs + attached component.feeType [fee] := by
  rw [attached_cons]
  rcases fee with ⟨detail, cost⟩
  cases component <;> rcases detail with _ | _ | _ | ⟨_ | _, _, _, _⟩ <;>
    simp [CostComponent.running, CostComponent.feeType, CostBreakdown.recordFeeCost,
      TradingFee.feeType, attached]

theorem running_foldl (costs : CostBreakdown) (fees : List TradingFee) :
    component.running (fees.foldl CostBreakdown.recordFeeCost costs) =
      component.running costs + attached component.feeType fees := by
  induction fees generalizing costs with
  | nil => simp [attached]
  | cons fee fees ih =>
      rw [List.foldl_cons, ih, running_recordFeeCost, attached_cons, attached_cons]
      simp [attached]
      ring

end Components

section Refresh

variable {cfg : PortfolioConfig} {clock : Option Instant} (component : CostComponent)

/-- What the cost tracking has counted beyond what the open positions carry. -/
def settled (pm : PortfolioManager) : ℚ :=
  component.running pm.costTracking - total component.carried pm.openPositions

theorem accrueSwap_settles {rollover : SwapRolloverConfig} {now : Instant}
    {costs costs' : CostBreakdown} {position position' : Position}
    (h : accrueSwap cfg rollover now costs position = .ok (costs', position')) :
    component.running costs' - component.carried position' =
      component.running costs - component.carried position := by
  unfold accrueSwap at h
  split at h
  · cases h
    rfl
  · obtain ⟨spec, -, h⟩ := bind_eq_ok.mp h
    split at h
    · cases h
      simp [CostComponent.carried, Position.accrue]
    · cases h
      rw [running_foldl, CostComponent.carried, CostComponent.carried, Position.accrue,
        attached_append]
      ring

theorem accrueAllSwaps_settled {pm pm' : PortfolioManager}
    (h : pm.accrueAllSwaps cfg clock = .ok pm') : settled component pm' = settled component pm := by
  unfold accrueAllSwaps at h
  split at h
  · cases h
    rfl
  · split at h
    · cases h
      rfl
    · obtain ⟨now, -, h⟩ := bind_eq_ok.mp h
      obtain ⟨⟨costs, positions⟩, hvisit, hpure⟩ := bind_eq_ok.mp h
      cases hpure
      exact Dict.mapAccumM_sum (fun _ _ _ _ => accrueSwap_settles component) hvisit

theorem refreshPosition_carried {prices : Dict String (ℚ × ℚ)} {rate rate' : Option ℚ}
    {position position' : Position}
    (h : refreshPosition cfg prices rate position = .ok (rate', position')) :
    component.carried position' = component.carried position := by
  unfold refreshPosition at h
  split at h
  · cases h
    rfl
  · obtain ⟨spec, -, h⟩ := bind_eq_ok.mp h
    obtain ⟨⟨rate'', value⟩, -, h⟩ := bind_eq_ok.mp h
    cases h
    rfl

/-- A refresh counts the swaps it attaches, and only those. -/
theorem ensure_settled {pm pm' : PortfolioManager}
    (h : pm.ensurePositionsUpdated cfg clock = .ok pm') :
    settled component pm' = settled component pm := by
  unfold ensurePositionsUpdated at h
  obtain ⟨pm₁, haccrue, h⟩ := bind_eq_ok.mp h
  rw [← accrueAllSwaps_settled component haccrue]
  split at h
  · cases h
    rfl
  · obtain ⟨⟨rate, positions⟩, hvisit, hpure⟩ := bind_eq_ok.mp h
    cases hpure
    have hsame := Dict.mapAccumM_sum (m := fun _ => (0 : ℚ)) (g := component.carried)
      (fun _ _ _ _ hrefresh => by rw [refreshPosition_carried component hrefresh]) hvisit
    simp only [settled, total]
    linarith

end Refresh

section Records

variable {cfg : PortfolioConfig} (component : CostComponent)

def makerTakerCost (position : Position) : ℚ := attached .makerTaker position.fees

theorem makerTaker_map_swapFee {α : Type} (f : α → ℚ × ℤ × ℚ × ℚ × Instant) (xs : List α) :
    attached .makerTaker (xs.map fun x => swapFee (f x).1 (f x).2.1 (f x).2.2.1 (f x).2.2.2.1
      (f x).2.2.2.2) = 0 := by
  induction xs with
  | nil => rfl
  | cons x xs ih =>
      rw [List.map_cons, attached_cons, ih]
      simp [swapFee, FeeDetail.charge, TradingFee.feeType]

theorem makerTakerCost_afterRefresh (s : Session) (position : Position) :
    makerTakerCost (afterRefresh cfg s position) = makerTakerCost position := by
  have hmarked : ∀ p : Position, (marked cfg s.portfolio p).fees = p.fees := by
    intro p
    unfold marked
    split <;> rfl
  have hswaps : attached .makerTaker (swapsDue cfg s.clock position) = 0 := by
    unfold swapsDue
    split
    · split
      · rfl
      · exact makerTaker_map_swapFee (fun crossing : Instant × ℤ =>
          (_, crossing.2, position.entryTickValue, position.lots, crossing.1)) _
    · rfl
  rw [makerTakerCost, makerTakerCost, afterRefresh, hmarked]
  unfold accrued
  split
  · split
    · rfl
    · rw [Position.accrue, attached_append, hswaps, add_zero]
  · rfl

/-- The total fees of a record are the sum of the components it reports. -/
def Itemized (record : TradeRecord) : Prop :=
  record.totalFees = record.spreadCost + record.commissionCost + record.swapCost

variable {args : CloseArgs} {position : Position} {now : Instant}

theorem reported_createTradeRecord :
    component.reported (createTradeRecord cfg args position now) = component.carried position := by
  cases component <;> exact mul_one _

theorem reported_partialRecord (closeLots : ℚ) :
    component.reported (partialRecord cfg args position now closeLots) =
      component.carried position * (closeLots / position.lots) := by
  cases component <;> rfl

theorem carried_remainder (closeLots ratio : ℚ) :
    component.carried (remainder position closeLots ratio) = component.carried position * ratio :=
  attached_scaled component.feeType position.fees ratio

theorem itemized_createTradeRecord :
    Itemized (createTradeRecord cfg args position now) ↔ makerTakerCost position = 0 := by
  have htotal : (createTradeRecord cfg args position now).totalFees =
      attached .spread position.fees * 1 + attached .commission position.fees * 1 +
        attached .swap position.fees * 1 + makerTakerCost position := by
    simp only [mul_one]
    exact totalCost_eq position.fees
  have hitems : Itemized (createTradeRecord cfg args position now) ↔
      (createTradeRecord cfg args position now).totalFees =
        attached .spread position.fees * 1 + attached .commission position.fees * 1 +
          attached .swap position.fees * 1 := Iff.rfl
  rw [hitems, htotal, add_eq_left]

theorem itemized_partialRecord (hfee : args.exitFee = none) (hlots : position.lots ≠ 0)
    (closeLots : ℚ) :
    Itemized (partialRecord cfg args position now closeLots) ↔
      closeLots = 0 ∨ makerTakerCost position = 0 := by
  have htotal : (partialRecord cfg args position now closeLots).totalFees =
      attached .spread position.fees * (closeLots / position.lots) +
        attached .commission position.fees * (closeLots / position.lots) +
        attached .swap position.fees * (closeLots / position.lots) +
        makerTakerCost position * (closeLots / position.lots) := by
    have hrecord : (partialRecord cfg args position now closeLots).totalFees =
        Position.totalCost position.fees * (closeLots / position.lots) + feeCost args.exitFee := rfl
    have hnone : feeCost none = 0 := rfl
    rw [hrecord, totalCost_eq, hfee, hnone, makerTakerCost]
    ring
  have hitems : Itemized (partialRecord cfg args position now closeLots) ↔
      (partialRecord cfg args position now closeLots).totalFees =
        attached .spread position.fees * (closeLots / position.lots) +
          attached .commission position.fees * (closeLots / position.lots) +
          attached .swap position.fees * (closeLots / position.lots) := Iff.rfl
  rw [hitems, htotal, add_eq_left, mul_eq_zero, div_eq_zero_iff]
  constructor
  · rintro (hcost | hzero | hlots')
    · exact .inr hcost
    · exact .inl hzero
    · exact absurd hlots' hlots
  · rintro (hzero | hcost)
    · exact .inr (.inl hzero)
    · exact .inl hcost

end Records

section Runs

variable (cfg : PortfolioConfig)

/-- Every component the cost tracking has counted is in the records or on an open position. -/
def Conserved (pm : PortfolioManager) : Prop :=
  ∀ component : CostComponent, component.running pm.costTracking =
    (pm.tradeHistory.map component.reported).sum + total component.carried pm.openPositions

structure CostsConserved (pm : PortfolioManager) : Prop where
  components : Conserved pm
  itemized : ∀ record ∈ pm.tradeHistory, Itemized record

def NoExitFee : PortfolioCall → Prop
  | .partialClose args _ => args.exitFee = none
  | .close args => args.exitFee = none
  | _ => True

/-- An open takes the place of no position that carries a cost, and a close finds no fee of the
maker/taker model. -/
def KeepsCosts (s : Session) : PortfolioCall → Prop
  | .openPosition args => ∀ position ∈ s.portfolio.getPosition args.orderId,
      ∀ component : CostComponent, component.carried position = 0
  | .partialClose args closeLots => ∀ position ∈ s.portfolio.getPosition args.positionId,
      closeLots = 0 ∨ makerTakerCost position = 0
  | .close args => ∀ position ∈ s.portfolio.getPosition args.positionId,
      makerTakerCost position = 0
  | _ => True

instance (position : Position) :
    Decidable (∀ component : CostComponent, component.carried position = 0) :=
  decidable_of_iff (CostComponent.spread.carried position = 0 ∧
      CostComponent.commission.carried position = 0 ∧ CostComponent.swap.carried position = 0) <| by
    constructor
    · rintro ⟨hspread, hcommission, hswap⟩ component
      cases component
      · exact hspread
      · exact hcommission
      · exact hswap
    · intro h
      exact ⟨h .spread, h .commission, h .swap⟩

instance (s : Session) : ∀ call, Decidable (KeepsCosts s call)
  | .openPosition _ | .partialClose _ _ | .close _ => inferInstanceAs (Decidable (∀ _ ∈ _, _))
  | .markDirty _ | .setClock _ | .getAccountInfo _ | .ensurePositionsUpdated
  | .modifyPosition _ _ _ => .isTrue trivial

variable {cfg}

theorem conserved_iff_settled (pm : PortfolioManager) :
    Conserved pm ↔ ∀ component : CostComponent,
      settled component pm = (pm.tradeHistory.map component.reported).sum := by
  unfold Conserved settled
  exact forall_congr' fun component => sub_eq_iff_eq_add.symm

theorem conserved_of_recorded {pm pm' : PortfolioManager} (records : List TradeRecord)
    (hhistory : pm'.tradeHistory = pm.tradeHistory ++ records) (h : Conserved pm) :
    Conserved pm' ↔ ∀ component : CostComponent, settled component pm' =
      settled component pm + (records.map component.reported).sum := by
  rw [conserved_iff_settled] at h ⊢
  refine forall_congr' fun component => ?_
  rw [hhistory, List.map_append, List.sum_append, h component]

theorem costsConserved_iff {pm pm' : PortfolioManager} (records : List TradeRecord)
    (hhistory : pm'.tradeHistory = pm.tradeHistory ++ records) (h : CostsConserved pm) :
    CostsConserved pm' ↔ (∀ component : CostComponent, settled component pm' =
        settled component pm + (records.map component.reported).sum) ∧
      ∀ record ∈ records, Itemized record := by
  rw [← conserved_of_recorded records hhistory h.components]
  constructor
  · rintro ⟨hcomponents, hitemized⟩
    refine ⟨hcomponents, fun record hrecord => hitemized record ?_⟩
    rw [hhistory]
    exact List.mem_append_right _ hrecord
  · rintro ⟨hcomponents, hitemized⟩
    refine ⟨hcomponents, fun record hrecord => ?_⟩
    rw [hhistory] at hrecord
    rcases List.mem_append.mp hrecord with hold | hnew
    · exact h.itemized record hold
    · exact hitemized record hnew

theorem costsConserved_of_settled {pm pm' : PortfolioManager}
    (hhistory : pm'.tradeHistory = pm.tradeHistory)
    (hsettled : ∀ component, settled component pm' = settled component pm)
    (h : CostsConserved pm) : CostsConserved pm' := by
  rw [costsConserved_iff [] (by rw [hhistory, List.append_nil]) h]
  exact ⟨fun component => by simpa using hsettled component, by simp⟩

theorem total_modified (component : CostComponent) (pm : PortfolioManager) (positionId : String)
    (newStopLoss newTakeProfit : Setting (Option ℚ)) :
    settled component (pm.modifyPosition positionId newStopLoss newTakeProfit).1 =
      settled component pm := by
  unfold PortfolioManager.modifyPosition
  cases hposition : pm.getPosition positionId with
  | none => rfl
  | some position =>
      simp only
      split
      · rfl
      · split
        · rfl
        · simp only [settled]
          rw [total_set, total_of_get? _ hposition]
          rfl

theorem openPosition_costs {clock : Option Instant} {pm pm' : PortfolioManager}
    {args : OpenPositionArgs} (h : pm.openPosition cfg clock args = .ok pm') :
    ∃ now, pm'.costTracking = (pm.recordFee args.entryFee).costTracking ∧
      pm'.tradeHistory = pm.tradeHistory ∧
      pm'.openPositions = pm.openPositions.set args.orderId (args.position now) := by
  have hpositions : (pm.recordFee args.entryFee).openPositions = pm.openPositions := by
    cases args.entryFee <;> rfl
  have hhistory := (recordFee_keeps pm args.entryFee).2
  unfold openPosition at h
  obtain ⟨now, -, h⟩ := bind_eq_ok.mp h
  refine ⟨now, ?_⟩
  split at h
  · cases h
    exact ⟨rfl, hhistory, by rw [hpositions]⟩
  · obtain ⟨spec, -, h⟩ := bind_eq_ok.mp h
    obtain ⟨balances, -, h⟩ := bind_eq_ok.mp h
    cases h
    exact ⟨rfl, hhistory, by rw [hpositions]⟩

theorem running_recordFee (component : CostComponent) (pm : PortfolioManager)
    (fee : Option TradingFee) :
    component.running (pm.recordFee fee).costTracking =
      component.running pm.costTracking + attached component.feeType fee.toList := by
  cases fee with
  | none => simp [recordFee, attached]
  | some fee => exact running_recordFeeCost component pm.costTracking fee

theorem open_settles (component : CostComponent) {clock : Option Instant}
    {pm pm' : PortfolioManager} {args : OpenPositionArgs}
    (h : pm.openPosition cfg clock args = .ok pm') :
    settled component pm' = settled component pm +
      ((pm.getPosition args.orderId).map component.carried).getD 0 := by
  obtain ⟨now, hcosts, -, hpositions⟩ := openPosition_costs h
  have hentry : component.carried (args.position now) =
      attached component.feeType args.entryFee.toList := rfl
  rw [settled, settled, hcosts, hpositions, running_recordFee, total_set, hentry]
  cases hold : pm.getPosition args.orderId with
  | none =>
      rw [Dict.erase_eq_self_of_get?_none hold]
      simp only [Option.map_none, Option.getD_none]
      ring
  | some position =>
      rw [total_of_get? _ hold]
      simp only [Option.map_some, Option.getD_some]
      ring

theorem realizeClose_costs {pm pm' : PortfolioManager} {args : CloseArgs}
    {position closed : Position} (h : realizeClose cfg pm args position = .ok (pm', closed)) :
    pm'.costTracking = pm.costTracking ∧ pm'.openPositions = pm.openPositions ∧
      pm'.tradeHistory = pm.tradeHistory ∧ closed.fees = position.fees := by
  obtain ⟨⟨balances, rfl⟩, hclosed⟩ := realizeClose_inv h
  refine ⟨rfl, rfl, rfl, ?_⟩
  rcases hclosed with rfl | rfl
  · rfl
  · rfl

/-- A full close moves the costs of the refreshed position into its record. -/
theorem close_settles (hmax : cfg.tradeHistoryMax = 0) {s : Session} {pm : PortfolioManager}
    {args : CloseArgs} {pnl : ℚ} (hfee : args.exitFee = none)
    (h : s.portfolio.closePositionPortfolio cfg s.clock args = .ok (pm, pnl)) :
    ∃ position record, s.portfolio.getPosition args.positionId = some position ∧
      pm.tradeHistory = s.portfolio.tradeHistory ++ [record] ∧
      (∀ component : CostComponent, settled component pm =
        settled component s.portfolio + component.reported record) ∧
      (Itemized record ↔ makerTakerCost position = 0) := by
  obtain ⟨position, pm₁, pm₂, closed, now, hposition, hensure, hrealize, -, -, rfl⟩ :=
    closePositionPortfolio_inv h
  simp only [hfee, recordFee, withExitFee] at hrealize
  obtain ⟨hcosts, hpositions, hhistory, hfees⟩ := realizeClose_costs hrealize
  refine ⟨position, createTradeRecord cfg args closed now, hposition, ?_, fun component => ?_, ?_⟩
  · have happend : appendBounded cfg.tradeHistoryMax pm₂.tradeHistory
        (createTradeRecord cfg args closed now) =
          s.portfolio.tradeHistory ++ [createTradeRecord cfg args closed now] := by
      rw [hmax, appendBounded_zero, hhistory, (ensure_keeps hensure).2]
    exact happend
  · have hrefreshed := ensure_treats hensure hposition
    have hcarried : component.carried closed =
        component.carried (afterRefresh cfg s position) := by
      rw [CostComponent.carried, CostComponent.carried, hfees]
      rfl
    have hsettled : component.running pm₂.costTracking -
        total component.carried (pm₂.openPositions.erase args.positionId) =
          settled component pm₁ + component.carried closed := by
      rw [hcosts, hpositions, settled, total_of_get? _ hrefreshed, hcarried]
      ring
    rw [reported_createTradeRecord, ← ensure_settled component hensure, ← hsettled]
    rfl
  · rw [itemized_createTradeRecord, makerTakerCost, hfees]
    exact Eq.congr_left (makerTakerCost_afterRefresh s position)

/-- A partial close moves the closed share of the costs into its record. -/
theorem partialClose_settles (hmax : cfg.tradeHistoryMax = 0) {s : Session}
    {pm : PortfolioManager} {args : CloseArgs} {closeLots pnl : ℚ} (hfee : args.exitFee = none)
    (h : s.portfolio.partialClosePosition cfg s.clock args closeLots = .ok (pm, pnl)) :
    ∃ position record, s.portfolio.getPosition args.positionId = some position ∧
      pm.tradeHistory = s.portfolio.tradeHistory ++ [record] ∧
      (∀ component : CostComponent, settled component pm =
        settled component s.portfolio + component.reported record) ∧
      (Itemized record ↔ closeLots = 0 ∨ makerTakerCost position = 0) := by
  obtain ⟨position, pm₁, pm₂, now, closed, balances, hposition, hensure, -, hclosed, hlots, -,
    rfl, -, -, rfl⟩ := partialClosePosition_inv h
  have hrefreshed : closed = afterRefresh cfg s position := hclosed
  refine ⟨position, partialRecord cfg args closed now closeLots, hposition, ?_,
    fun component => ?_, ?_⟩
  · have happend : appendBounded cfg.tradeHistoryMax (pm₁.recordFee args.exitFee).tradeHistory
        (partialRecord cfg args closed now closeLots) =
          s.portfolio.tradeHistory ++ [partialRecord cfg args closed now closeLots] := by
      rw [hmax, appendBounded_zero, (recordFee_keeps pm₁ args.exitFee).2, (ensure_keeps hensure).2]
    exact happend
  · have hget := ensure_treats hensure hposition
    rw [← hrefreshed] at hget
    have hsettled : component.running pm₁.costTracking -
        total component.carried (pm₁.openPositions.set args.positionId
          (remainder closed closeLots (1 - closeLots / closed.lots))) =
          settled component pm₁ + component.carried closed * (closeLots / closed.lots) := by
      rw [settled, total_set, total_of_get? _ hget, carried_remainder]
      ring
    rw [reported_partialRecord, ← ensure_settled component hensure, ← hsettled, hfee]
    rfl
  · rw [itemized_partialRecord hfee hlots, hrefreshed, makerTakerCost_afterRefresh]

/-- One call keeps the costs conserved and itemized exactly under its condition. -/
theorem costs_step (hmax : cfg.tradeHistoryMax = 0) (s : Session) (call : PortfolioCall)
    (s' : Session) (hfee : NoExitFee call) (hgood : CostsConserved s.portfolio)
    (h : callStep cfg s call = .ok s') : CostsConserved s'.portfolio ↔ KeepsCosts s call := by
  have hrefreshed : ∀ {pm : PortfolioManager},
      s.portfolio.ensurePositionsUpdated cfg s.clock = .ok pm → CostsConserved pm :=
    fun hensure => costsConserved_of_settled (ensure_keeps hensure).2
      (fun component => ensure_settled component hensure) hgood
  cases callStep_called h with
  | priced tick =>
      refine iff_of_true (costsConserved_of_settled ?_ (fun component => ?_) hgood) trivial
      · rfl
      · rfl
  | clockSet now => exact iff_of_true hgood trivial
  | queried hensure => exact iff_of_true (hrefreshed hensure) trivial
  | refreshed hensure => exact iff_of_true (hrefreshed hensure) trivial
  | modified positionId newStopLoss newTakeProfit =>
      obtain ⟨positions, hframe, -⟩ :=
        modifyPosition_frame s.portfolio positionId newStopLoss newTakeProfit
      refine iff_of_true (costsConserved_of_settled ?_ (fun component => ?_) hgood) trivial
      · simp only [hframe]
      · exact total_modified component s.portfolio positionId newStopLoss newTakeProfit
  | @opened args pm hopen =>
      obtain ⟨now, -, hhistory, -⟩ := openPosition_costs hopen
      rw [costsConserved_iff [] (by rw [hhistory, List.append_nil]) hgood]
      simp only [open_settles _ hopen, List.map_nil, List.sum_nil, add_right_inj]
      cases hold : s.portfolio.getPosition args.orderId with
      | none => simp [KeepsCosts, hold]
      | some position => simp [KeepsCosts, hold]
  | reduced hclose =>
      obtain ⟨position, record, hposition, hhistory, hsettled, hitemized⟩ :=
        partialClose_settles hmax hfee hclose
      rw [costsConserved_iff [record] hhistory hgood]
      simp [KeepsCosts, hposition, hsettled, hitemized]
  | closed hclose =>
      obtain ⟨position, record, hposition, hhistory, hsettled, hitemized⟩ :=
        close_settles hmax hfee hclose
      rw [costsConserved_iff [record] hhistory hgood]
      simp [KeepsCosts, hposition, hsettled, hitemized]

theorem costsConserved_new (cfg : PortfolioConfig) : CostsConserved (new cfg) := by
  refine ⟨fun component => ?_, by simp [new]⟩
  have hempty : total component.carried (new cfg).openPositions = 0 := total_empty _ rfl
  rw [hempty]
  cases component <;> simp [CostComponent.running, new]

/-- Over a run with unlimited history and without exit fees, every state conserves each cost
component and itemizes the fees of every record exactly when no open takes the place of a
position that carries costs and no close finds a maker/taker fee. -/
theorem costs_conserved_iff (cfg : PortfolioConfig) (clock : Option Instant)
    (hmax : cfg.tradeHistoryMax = 0) {calls : List PortfolioCall} {t : Session}
    (hfee : ∀ call ∈ calls, NoExitFee call)
    (hrun : run (callStep cfg) (start cfg clock) calls = .ok t) :
    (∀ n u, run (callStep cfg) (start cfg clock) (calls.take n) = .ok u →
        CostsConserved u.portfolio) ↔
      StepsAll (callStep cfg) KeepsCosts (start cfg clock) calls :=
  reached_iff_stepsAll (I := fun _ => True)
    (fun s call s' _ hfee hgood h => ⟨trivial, costs_step hmax s call s' hfee hgood h⟩) hfee
    trivial (costsConserved_new cfg) hrun

end Runs

section Account

open Finiex.LiveSteps

def unlimitedSpot : PortfolioConfig := { spotAccount with tradeHistoryMax := 0 }

/-- A lot of EURUSD bought under the spread model, half of it closed, then the rest. -/
def spreadRoundTrip : List PortfolioCall :=
  [.markDirty (eurusdTick (11000 / 10000) (11002 / 10000) 1), .setClock 1000,
    .openPosition oneLotLong,
    .partialClose { positionId := "pos_eurusd_1", exitPrice := 11000 / 10000,
                    exitTickValue := 1, exitTickIndex := 1 } (1 / 2),
    .close { positionId := "pos_eurusd_1", exitPrice := 11000 / 10000,
             exitTickValue := 1, exitTickIndex := 1 }]

theorem costs_conserved_spreadRoundTrip :
    ∃ t, run (callStep usdAccount) (start usdAccount none) spreadRoundTrip = .ok t ∧
      ∀ n u, run (callStep usdAccount) (start usdAccount none) (spreadRoundTrip.take n) = .ok u →
        CostsConserved u.portfolio := by
  obtain ⟨t, hrun, -⟩ := exists_of_map_eq_ok (show
    (run (callStep usdAccount) (start usdAccount none) spreadRoundTrip).map (fun t =>
      t.portfolio.costTracking.totalSpreadCost) = .ok 20 by decide +kernel)
  have hfee : ∀ call ∈ spreadRoundTrip, NoExitFee call := by
    simp [spreadRoundTrip, NoExitFee]
  exact ⟨t, hrun, (costs_conserved_iff usdAccount none rfl hfee hrun).mpr (by decide +kernel)⟩

def takerRoundTrip : List PortfolioCall :=
  [.markDirty (ethusdTick 2000 2001 1), .setClock 1000,
    .openPosition { twoEther with
      entryFee := some (createMakerTakerFee 2 1 2001 (16 / 100) (26 / 100) false) },
    .partialClose (exitAt 2000) 1, .close (exitAt 2000)]

theorem takerRoundTrip_fees :
    (run (callStep unlimitedSpot) (start unlimitedSpot none) takerRoundTrip).map
      (fun s => s.portfolio.tradeHistory.map fun record =>
        (record.totalFees, record.spreadCost + record.commissionCost + record.swapCost)) =
      .ok [(52026 / 10000, 0), (52026 / 10000, 0)] := by
  decide +kernel

/-- The taker fee is in the total fees of both records and in none of their components. -/
theorem takerRoundTrip_not_itemized :
    ∃ s, run (callStep unlimitedSpot) (start unlimitedSpot none) takerRoundTrip = .ok s ∧
      ¬ CostsConserved s.portfolio := by
  obtain ⟨s, hrun, hrecords⟩ := exists_of_map_eq_ok takerRoundTrip_fees
  obtain ⟨record, hmem, hvalues⟩ := List.mem_map.mp
    (hrecords.symm ▸ List.mem_cons_self)
  refine ⟨s, hrun, fun hconserved => ?_⟩
  have hitemized := hconserved.itemized record hmem
  obtain ⟨htotal, hsum⟩ := Prod.mk.inj hvalues
  rw [Itemized, htotal, hsum] at hitemized
  norm_num at hitemized

end Account

end Finiex.PortfolioCosts
