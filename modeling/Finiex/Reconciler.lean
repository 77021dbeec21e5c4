import Finiex.LivePrices
import Finiex.Lib.Joins

namespace Finiex.Reconciler

open Finiex.Types
open Finiex.Lib
open Finiex.Lib.Run
open Finiex.Positions
open Finiex.Orders
open Finiex.Portfolio
open Finiex.Portfolio.PortfolioManager
open Finiex.Executor
open Finiex.LiveTypes
open Finiex.Live
open Finiex.LiveSteps
open Finiex.LivePrices

structure BrokerPosition where
  lots : ℚ
  entryPrice : ℚ
  brokerRef : Option String := none
  deriving DecidableEq

structure BrokerOrder where
  brokerRef : String
  lots : ℚ
  price : Option ℚ := none
  deriving DecidableEq

inductive TradingModel
  | spot | margin
  deriving DecidableEq, Repr

structure ReconciliationResult where
  ghostPositions : List BrokerPosition := []
  orphanPositions : List Position := []
  stalePositions : List (Position × BrokerPosition) := []
  ghostOrders : List BrokerOrder := []
  orphanOrders : List PendingOrder := []
  staleOrders : List (PendingOrder × BrokerOrder) := []
  partialFills : List PendingOrder := []
  isClean : Bool := true

section Comparison

def staleTolerancePct : ℚ := 1 / 10

/-- The relative distance of `a` from the broker's value `b` is within the tolerance. -/
def withinTol (a b : ℚ) : Bool :=
  decide (|a - b| / max |b| (1 / 1000000000000) * 100 ≤ staleTolerancePct)

/-- Neither in transit nor from a dry run. -/
def isReconcilableRef (brokerRef : Option String) : Bool :=
  match brokerRef with
  | none => false
  | some ref => ref != "" && !"DRYRUN-".isPrefixOf ref

/-- Only the values that both sides have are compared; a resting order has its lots. -/
def orderIsStale (localOrder : PendingOrder) (brokerOrder : BrokerOrder) : Bool :=
  match localOrder.orderKwargs.limitPrice, brokerOrder.price with
  | some localPrice, some price =>
      !withinTol localPrice price || !withinTol localOrder.lots brokerOrder.lots
  | _, _ => !withinTol localOrder.lots brokerOrder.lots

def positionIsStale (localPosition : Position) (brokerPosition : BrokerPosition) : Bool :=
  !withinTol localPosition.entryPrice brokerPosition.entryPrice ||
    !withinTol localPosition.lots brokerPosition.lots

end Comparison

section Diff

def truthy (ref : Option String) : Option String := ref.filter fun ref => ref != ""

def localRef (order : PendingOrder) : Option String :=
  if isReconcilableRef order.brokerRef then order.brokerRef else none

def brokerOrderRef (order : BrokerOrder) : Option String := truthy (some order.brokerRef)

def isPartiallyFilled (order : PendingOrder) : Bool :=
  decide (order.lots ≠ 0 ∧ 0 < order.fills.cumulativeFilledLots ∧
    order.fills.cumulativeFilledLots < order.lots)

def diff (brokerPositions : List BrokerPosition) (brokerOrders : List BrokerOrder)
    (localPositions : List Position) (localOrders : List PendingOrder) : ReconciliationResult :=
  let localOrdersByRef := Dict.ofKeyed localRef localOrders
  let brokerOrdersByRef := Dict.ofKeyed brokerOrderRef brokerOrders
  let ghostOrders := (onlyIn brokerOrdersByRef localOrdersByRef).map Prod.snd
  let orphanOrders := (onlyIn localOrdersByRef brokerOrdersByRef).map Prod.snd
  let staleOrders := (inBoth orderIsStale localOrdersByRef brokerOrdersByRef).map Prod.snd
  let localPosByRef := Dict.ofKeyed (fun p => truthy p.brokerRef) localPositions
  let brokerPosByRef := Dict.ofKeyed (fun p => truthy p.brokerRef) brokerPositions
  let ghostPositions := (onlyIn brokerPosByRef localPosByRef).map Prod.snd
  let orphanPositions := (onlyIn localPosByRef brokerPosByRef).map Prod.snd
  let stalePositions := (inBoth positionIsStale localPosByRef brokerPosByRef).map Prod.snd
  { ghostPositions := ghostPositions
    orphanPositions := orphanPositions
    stalePositions := stalePositions
    ghostOrders := ghostOrders
    orphanOrders := orphanOrders
    staleOrders := staleOrders
    partialFills := localOrders.filter isPartiallyFilled
    isClean := ghostPositions.isEmpty && orphanPositions.isEmpty && stalePositions.isEmpty &&
      ghostOrders.isEmpty && orphanOrders.isEmpty && staleOrders.isEmpty }

variable {Raw : Type}

/-- `reconcile`, from what the broker reports. Positions are matched on MARGIN only. -/
def reconcile (model : TradingModel) (brokerPositions : List BrokerPosition)
    (brokerOrders : List BrokerOrder) (s : LiveTradeExecutor Raw) : ReconciliationResult :=
  match model with
  | .margin => diff brokerPositions brokerOrders s.ledger.portfolio.getOpenPositions
      s.activeLimitOrders
  | .spot => diff [] brokerOrders [] s.activeLimitOrders

end Diff

section Completeness

/-- The order is known to both sides under one settled reference. -/
def Shared (localOrder : PendingOrder) (brokerOrder : BrokerOrder) : Prop :=
  ∃ ref, localRef localOrder = some ref ∧ brokerOrderRef brokerOrder = some ref

def LotsAgree (localOrder : PendingOrder) (brokerOrder : BrokerOrder) : Prop :=
  withinTol localOrder.lots brokerOrder.lots = true

/-- The limit prices agree, where both sides have one. -/
def PricesAgree (localOrder : PendingOrder) (brokerOrder : BrokerOrder) : Prop :=
  ∀ localPrice ∈ localOrder.entryPrice, ∀ price ∈ brokerOrder.price,
    withinTol localPrice price = true

variable (localOrders : List PendingOrder) (brokerOrders : List BrokerOrder)

def LocalRef (ref : String) : Prop := ∃ order ∈ localOrders, localRef order = some ref

def BrokerRef (ref : String) : Prop := ∃ order ∈ brokerOrders, brokerOrderRef order = some ref

/-- The order under this reference is missing at the broker, extra there, or differs. -/
def Diverges (ref : String) : Prop :=
  (LocalRef localOrders ref ∧ ¬BrokerRef brokerOrders ref) ∨
  (BrokerRef brokerOrders ref ∧ ¬LocalRef localOrders ref) ∨
  ∃ localOrder ∈ localOrders, ∃ brokerOrder ∈ brokerOrders,
    localRef localOrder = some ref ∧ brokerOrderRef brokerOrder = some ref ∧
      ¬(PricesAgree localOrder brokerOrder ∧ LotsAgree localOrder brokerOrder)

def reportedRefs (result : ReconciliationResult) : List String :=
  result.orphanOrders.filterMap localRef ++
    (result.ghostOrders.filterMap brokerOrderRef ++
      result.staleOrders.filterMap fun pair => localRef pair.1)

/-- A result is clean when nothing diverges, and otherwise reports exactly once what does. -/
def Complete (result : ReconciliationResult) : Prop :=
  (result.isClean = true ↔
    (∀ ref, LocalRef localOrders ref ↔ BrokerRef brokerOrders ref) ∧
      ∀ localOrder ∈ localOrders, ∀ brokerOrder ∈ brokerOrders, Shared localOrder brokerOrder →
        PricesAgree localOrder brokerOrder ∧ LotsAgree localOrder brokerOrder) ∧
  ∀ ref, Diverges localOrders brokerOrders ref → (reportedRefs result).count ref = 1

variable {localOrders brokerOrders} {ref : String}

theorem localRef_of_brokerRef {order : PendingOrder} (h : localRef order = some ref) :
    order.brokerRef = some ref := by
  rw [localRef] at h
  split at h
  · exact h
  · cases h

theorem brokerRef_of_brokerOrderRef {order : BrokerOrder} (h : brokerOrderRef order = some ref) :
    order.brokerRef = ref := by
  rw [brokerOrderRef, truthy] at h
  obtain ⟨hsome, -⟩ := Option.filter_eq_some_iff.mp h
  exact Option.some.inj hsome

/-- Distinct references stay distinct where only some of them are matched. -/
theorem nodup_matched {α : Type} {xs : List α} {f g : α → Option String}
    (hfrom : ∀ x r, g x = some r → f x = some r) (hnodup : (xs.filterMap f).Nodup) :
    (xs.filterMap g).Nodup := by
  refine hnodup.sublist ?_
  induction xs with
  | nil => exact .slnil
  | cons x xs ih =>
      have hrest := ih (hnodup.sublist ((List.sublist_cons_self x xs).filterMap f))
      cases hg : g x with
      | none =>
          rw [List.filterMap_cons_none hg]
          exact hrest.trans ((List.sublist_cons_self x xs).filterMap f)
      | some r =>
          rw [List.filterMap_cons_some hg, List.filterMap_cons_some (hfrom x r hg)]
          exact hrest.cons_cons r

/-- The orders that both sides know under this reference are stale. -/
def StaleRef (localOrders : List PendingOrder) (brokerOrders : List BrokerOrder) (ref : String) :
    Prop :=
  ∃ localOrder ∈ localOrders, ∃ brokerOrder ∈ brokerOrders,
    localRef localOrder = some ref ∧ brokerOrderRef brokerOrder = some ref ∧
      orderIsStale localOrder brokerOrder = true

variable (hlocal : (localOrders.filterMap localRef).Nodup)
  (hbroker : (brokerOrders.filterMap brokerOrderRef).Nodup)

include hlocal hbroker

theorem reportedRefs_diff : reportedRefs (diff [] brokerOrders [] localOrders) =
    joinKeys orderIsStale (Dict.ofKeyed localRef localOrders)
      (Dict.ofKeyed brokerOrderRef brokerOrders) := by
  rw [reportedRefs, joinKeys]
  refine congrArg₂ _ ?_ (congrArg₂ _ ?_ ?_)
  · refine filterMap_map_eq fun e he => ?_
    exact ((Dict.get?_ofKeyed hlocal).mp (mem_onlyIn.mp he).1).2
  · refine filterMap_map_eq fun e he => ?_
    exact ((Dict.get?_ofKeyed hbroker).mp (mem_onlyIn.mp he).1).2
  · refine filterMap_map_eq fun e he => ?_
    exact ((Dict.get?_ofKeyed hlocal).mp (mem_inBoth.mp he).1).2

theorem mem_reportedRefs : ref ∈ reportedRefs (diff [] brokerOrders [] localOrders) ↔
    (LocalRef localOrders ref ∧ ¬BrokerRef brokerOrders ref) ∨
    (BrokerRef brokerOrders ref ∧ ¬LocalRef localOrders ref) ∨
    StaleRef localOrders brokerOrders ref := by
  have hknown : (Dict.ofKeyed localRef localOrders).get? ref ≠ none ↔ LocalRef localOrders ref := by
    rw [Option.ne_none_iff_exists']
    exact exists_congr fun order => Dict.get?_ofKeyed hlocal
  have hknown' : (Dict.ofKeyed brokerOrderRef brokerOrders).get? ref ≠ none ↔
      BrokerRef brokerOrders ref := by
    rw [Option.ne_none_iff_exists']
    exact exists_congr fun order => Dict.get?_ofKeyed hbroker
  rw [reportedRefs_diff hlocal hbroker, mem_joinKeys, ← hknown, ← hknown', not_not, not_not]
  refine or_congr_right (or_congr_right ?_)
  constructor
  · rintro ⟨x, y, hx, hy, hstale⟩
    obtain ⟨hmem, hkey⟩ := (Dict.get?_ofKeyed hlocal).mp hx
    obtain ⟨hmem', hkey'⟩ := (Dict.get?_ofKeyed hbroker).mp hy
    exact ⟨x, hmem, y, hmem', hkey, hkey', hstale⟩
  · rintro ⟨x, hmem, y, hmem', hkey, hkey', hstale⟩
    exact ⟨x, y, (Dict.get?_ofKeyed hlocal).mpr ⟨hmem, hkey⟩,
      (Dict.get?_ofKeyed hbroker).mpr ⟨hmem', hkey'⟩, hstale⟩

theorem isClean_diff : (diff [] brokerOrders [] localOrders).isClean = true ↔
    reportedRefs (diff [] brokerOrders [] localOrders) = [] := by
  rw [reportedRefs_diff hlocal hbroker, joinKeys, List.append_eq_nil_iff, List.append_eq_nil_iff,
    List.map_eq_nil_iff, List.map_eq_nil_iff, List.map_eq_nil_iff]
  have hempty : (diff [] brokerOrders [] localOrders).isClean =
      (((onlyIn (Dict.ofKeyed brokerOrderRef brokerOrders)
        (Dict.ofKeyed localRef localOrders)).map Prod.snd).isEmpty &&
      ((onlyIn (Dict.ofKeyed localRef localOrders)
        (Dict.ofKeyed brokerOrderRef brokerOrders)).map Prod.snd).isEmpty &&
      ((inBoth orderIsStale (Dict.ofKeyed localRef localOrders)
        (Dict.ofKeyed brokerOrderRef brokerOrders)).map Prod.snd).isEmpty) := rfl
  rw [hempty]
  simp only [Bool.and_eq_true, List.isEmpty_iff, List.map_eq_nil_iff]
  constructor
  · rintro ⟨⟨hghost, horphan⟩, hstale⟩
    exact ⟨horphan, hghost, hstale⟩
  · rintro ⟨horphan, hghost, hstale⟩
    exact ⟨⟨hghost, horphan⟩, hstale⟩

end Completeness

section Resting

variable {Raw : Type} {s : LiveTradeExecutor Raw}

theorem orderIsStale_unpriced {localOrder : PendingOrder} {brokerOrder : BrokerOrder}
    (h : localOrder.orderKwargs.limitPrice = none) :
    orderIsStale localOrder brokerOrder = true ↔ ¬LotsAgree localOrder brokerOrder := by
  rw [orderIsStale, h, LotsAgree]
  simp

/-- A reconciliation on SPOT is complete exactly when no resting order differs from the
broker's in its limit price alone. -/
theorem reconcile_complete (cfg : LiveConfig Raw) {ops : List (LiveOp Raw)}
    (brokerPositions : List BrokerPosition) (brokerOrders : List BrokerOrder)
    (hrun : run (step cfg) (Live.new cfg) ops = .ok s)
    (hlocal : (s.activeLimitOrders.filterMap PendingOrder.brokerRef).Nodup)
    (hbroker : (brokerOrders.map BrokerOrder.brokerRef).Nodup) :
    Complete s.activeLimitOrders brokerOrders (reconcile .spot brokerPositions brokerOrders s) ↔
      ∀ localOrder ∈ s.activeLimitOrders, ∀ brokerOrder ∈ brokerOrders,
        Shared localOrder brokerOrder → LotsAgree localOrder brokerOrder →
          PricesAgree localOrder brokerOrder := by
  have hunpriced : ∀ order ∈ s.activeLimitOrders, order.orderKwargs.limitPrice = none :=
    fun order horder => (run_priced hrun order horder).unpriced
  have hlocal' : (s.activeLimitOrders.filterMap localRef).Nodup :=
    nodup_matched (fun order ref => localRef_of_brokerRef) hlocal
  have hbroker' : (brokerOrders.filterMap brokerOrderRef).Nodup := by
    rw [← List.filterMap_eq_map] at hbroker
    refine nodup_matched (fun order ref h => ?_) hbroker
    exact congrArg some (brokerRef_of_brokerOrderRef h)
  show Complete _ _ (diff [] brokerOrders [] s.activeLimitOrders) ↔ _
  rw [Complete, isClean_diff hlocal' hbroker', List.eq_nil_iff_forall_not_mem]
  have hnodup : (reportedRefs (diff [] brokerOrders [] s.activeLimitOrders)).Nodup := by
    rw [reportedRefs_diff hlocal' hbroker']
    exact nodup_joinKeys _ _ _
  constructor
  · rintro ⟨-, hdivergent⟩ localOrder hmem brokerOrder hmem' ⟨ref, href, href'⟩ hlots
    by_contra hprices
    have hcount := hdivergent ref (.inr (.inr ⟨localOrder, hmem, brokerOrder, hmem', href, href',
      fun hagree => hprices hagree.1⟩))
    have hreported : ref ∈ reportedRefs (diff [] brokerOrders [] s.activeLimitOrders) :=
      List.count_pos_iff.mp (by omega)
    rcases (mem_reportedRefs hlocal' hbroker').mp hreported with ⟨-, hmissing⟩ | ⟨-, hextra⟩ |
        ⟨lo, hlo, bo, hbo, hloref, hboref, hstale⟩
    · exact hmissing ⟨brokerOrder, hmem', href'⟩
    · exact hextra ⟨localOrder, hmem, href⟩
    · have hsame : lo = localOrder := by
        have hleft := (Dict.get?_ofKeyed hlocal').mpr ⟨hlo, hloref⟩
        rw [(Dict.get?_ofKeyed hlocal').mpr ⟨hmem, href⟩] at hleft
        exact (Option.some.inj hleft).symm
      have hsame' : bo = brokerOrder := by
        have hleft := (Dict.get?_ofKeyed hbroker').mpr ⟨hbo, hboref⟩
        rw [(Dict.get?_ofKeyed hbroker').mpr ⟨hmem', href'⟩] at hleft
        exact (Option.some.inj hleft).symm
      rw [hsame, hsame', orderIsStale_unpriced (hunpriced localOrder hmem)] at hstale
      exact hstale hlots
  · intro hprices
    have hreports : ∀ ref, ref ∈ reportedRefs (diff [] brokerOrders [] s.activeLimitOrders) ↔
        Diverges s.activeLimitOrders brokerOrders ref := by
      intro ref
      rw [mem_reportedRefs hlocal' hbroker']
      refine or_congr_right (or_congr_right ?_)
      refine exists_congr fun lo => and_congr_right fun hlo => exists_congr fun bo =>
        and_congr_right fun hbo => and_congr_right fun hloref => and_congr_right fun hboref => ?_
      rw [orderIsStale_unpriced (hunpriced lo hlo)]
      constructor
      · exact fun hlots hagree => hlots hagree.2
      · exact fun hdiffer hlots => hdiffer ⟨hprices lo hlo bo hbo ⟨ref, hloref, hboref⟩ hlots, hlots⟩
    refine ⟨?_, fun ref hdiverges => List.count_eq_one_of_mem hnodup ((hreports ref).mpr hdiverges)⟩
    simp only [hreports]
    constructor
    · intro hnone
      refine ⟨fun ref => ⟨fun hknown => ?_, fun hknown => ?_⟩,
        fun lo hlo bo hbo ⟨ref, hloref, hboref⟩ => ?_⟩
      · by_contra hmissing
        exact hnone ref (.inl ⟨hknown, hmissing⟩)
      · by_contra hextra
        exact hnone ref (.inr (.inl ⟨hknown, hextra⟩))
      · by_contra hdiffer
        exact hnone ref (.inr (.inr ⟨lo, hlo, bo, hbo, hloref, hboref, hdiffer⟩))
    · rintro ⟨hsame, hagree⟩ ref (⟨hknown, hmissing⟩ | ⟨hknown, hextra⟩ |
        ⟨lo, hlo, bo, hbo, hloref, hboref, hdiffer⟩)
      · exact hmissing ((hsame ref).mp hknown)
      · exact hextra ((hsame ref).mpr hknown)
      · exact hdiffer (hagree lo hlo bo hbo ⟨ref, hloref, hboref⟩)

def brokerLimit (price : ℚ) : BrokerOrder where
  brokerRef := "OID-1"
  lots := 2
  price := some price

theorem reconcile_complete_resting :
    ∃ s : LiveTradeExecutor Kraken.RawResult,
      run (step krakenSession) (Live.new krakenSession) restingLimit = .ok s ∧
      Complete s.activeLimitOrders [brokerLimit 1500]
        (reconcile .spot [] [brokerLimit 1500] s) := by
  have hrun : (run (step krakenSession) (Live.new krakenSession) restingLimit).map
      (fun s => s.activeLimitOrders.map fun order => (order.brokerRef, order.entryPrice)) =
      .ok [(some "OID-1", some 1500)] := by
    decide +kernel
  obtain ⟨s, hs, horders⟩ := exists_of_map_eq_ok hrun
  obtain ⟨order, hlimits, horder⟩ := List.map_eq_singleton_iff.mp horders
  have href : order.brokerRef = some "OID-1" := congrArg Prod.fst horder
  have hprice : order.entryPrice = some 1500 := congrArg Prod.snd horder
  refine ⟨s, hs, (reconcile_complete krakenSession [] [brokerLimit 1500] hs ?_ ?_).mpr ?_⟩
  · rw [hlimits, List.filterMap_cons_some href]
    exact List.nodup_singleton _
  · exact List.nodup_singleton _
  · intro localOrder hlocal brokerOrder hbroker _ _ localPrice hlocalPrice price hbrokerPrice
    rw [hlimits, List.mem_singleton] at hlocal
    rw [List.mem_singleton] at hbroker
    subst hlocal hbroker
    rw [hprice] at hlocalPrice
    cases hlocalPrice
    cases hbrokerPrice
    decide +kernel

/-- A limit price that differs from the broker's goes unnoticed. -/
theorem price_difference_unnoticed :
    ∃ s : LiveTradeExecutor Kraken.RawResult,
      run (step krakenSession) (Live.new krakenSession) restingLimit = .ok s ∧
      (s.activeLimitOrders.filterMap PendingOrder.brokerRef).Nodup ∧
      ¬Complete s.activeLimitOrders [brokerLimit 1600]
        (reconcile .spot [] [brokerLimit 1600] s) := by
  have hrun : (run (step krakenSession) (Live.new krakenSession) restingLimit).map
      (fun s => (s.activeLimitOrders.map fun order => (order.brokerRef, order.entryPrice),
        (reconcile .spot [] [brokerLimit 1600] s).isClean)) =
      .ok ([(some "OID-1", some 1500)], true) := by
    decide +kernel
  obtain ⟨s, hs, hresult⟩ := exists_of_map_eq_ok hrun
  obtain ⟨order, hlimits, horder⟩ := List.map_eq_singleton_iff.mp (congrArg Prod.fst hresult)
  have href : order.brokerRef = some "OID-1" := congrArg Prod.fst horder
  have hprice : order.entryPrice = some 1500 := congrArg Prod.snd horder
  refine ⟨s, hs, ?_, fun hcomplete => ?_⟩
  · rw [hlimits, List.filterMap_cons_some href]
    exact List.nodup_singleton _
  · have hagree := (hcomplete.1.mp (congrArg Prod.snd hresult)).2 order
      (hlimits ▸ List.mem_singleton_self order) (brokerLimit 1600) (List.mem_singleton_self _)
      ⟨"OID-1", by rw [localRef, href]; decide +kernel, by decide +kernel⟩
    have hwithin := hagree.1 1500 hprice 1600 rfl
    revert hwithin
    decide +kernel

end Resting

end Finiex.Reconciler
