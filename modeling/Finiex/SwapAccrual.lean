import Finiex.Lib.Windows
import Finiex.PortfolioRuns
import Mathlib.Data.Int.ConditionallyCompleteOrder
import Mathlib.Order.ConditionallyCompleteLattice.Basic

namespace Finiex.SwapAccrual

open Finiex.Types
open Finiex.Lib
open Finiex.Lib.Run
open Finiex.Lib.Windows
open Finiex.Fees
open Finiex.Positions
open Finiex.Broker
open Finiex.Portfolio
open Finiex.Portfolio.PortfolioManager
open Finiex.PortfolioRefresh
open Finiex.PortfolioLedger
open Finiex.PortfolioFrames
open Finiex.PortfolioRuns

section Calendar

/-- A local day that carries a rollover: Monday to Friday. -/
def TradingDay (day : ℤ) : Prop := weekday day ≤ 4

instance (day : ℤ) : Decidable (TradingDay day) := inferInstanceAs (Decidable (_ ≤ _))

/-- What the accrual relies on from the timezone database, at this rollover time. -/
structure ZoneLaws (zones : ZoneDatabase) (rollover : SwapRolloverConfig) : Prop where
  increasing : StrictMono fun day => localTimeToUtc zones day rollover
  near : ∀ day, day - 1 ≤ dayOf (localTimeToUtc zones day rollover) ∧
    dayOf (localTimeToUtc zones day rollover) ≤ day + 1

def swapMultiplier (tripleWeekdayPy day : ℤ) : ℤ :=
  if weekday day = tripleWeekdayPy then 3 else 1

theorem dayOf_mono {s t : Instant} (h : s ≤ t) : dayOf s ≤ dayOf t := by
  unfold dayOf microsecondsPerDay
  rw [Int.fdiv_eq_ediv_of_nonneg _ (by decide), Int.fdiv_eq_ediv_of_nonneg _ (by decide)]
  exact Int.ediv_le_ediv (by decide) h

theorem dayOf_sub_day (t : Instant) : dayOf (t - microsecondsPerDay) = dayOf t - 1 := by
  unfold dayOf microsecondsPerDay
  rw [Int.fdiv_eq_ediv_of_nonneg _ (by decide), Int.fdiv_eq_ediv_of_nonneg _ (by decide)]
  omega

theorem dayOf_add_day (t : Instant) : dayOf (t + microsecondsPerDay) = dayOf t + 1 := by
  unfold dayOf microsecondsPerDay
  rw [Int.fdiv_eq_ediv_of_nonneg _ (by decide), Int.fdiv_eq_ediv_of_nonneg _ (by decide)]
  omega

variable (zones : ZoneDatabase) (rollover : SwapRolloverConfig) (tripleWeekdayPy : ℤ)

/-- The trading days whose rollover falls in `(start, end]`. -/
abbrev RolloverDays (start «end» : Instant) (days : List ℤ) : Prop :=
  Crossings (fun day => localTimeToUtc zones day rollover) TradingDay start «end» days

/-- The crossing a scan reports for a trading day. -/
def crossing (day : ℤ) : Instant × ℤ :=
  (localTimeToUtc zones day rollover, swapMultiplier tripleWeekdayPy day)

theorem scanRollovers_days (start «end» : Instant) (count : ℕ) (day : ℤ) :
    ∃ days : List ℤ, days.Pairwise (· < ·) ∧
      (∀ d, d ∈ days ↔ (day ≤ d ∧ d < day + count) ∧ TradingDay d ∧
        start < localTimeToUtc zones d rollover ∧ localTimeToUtc zones d rollover ≤ «end») ∧
      scanRollovers zones rollover tripleWeekdayPy start «end» count day =
        days.map (crossing zones rollover tripleWeekdayPy) := by
  induction count generalizing day with
  | zero =>
      refine ⟨[], List.Pairwise.nil, fun d => ?_, rfl⟩
      simp only [List.not_mem_nil, false_iff]
      omega
  | succ count ih =>
      obtain ⟨days, hascending, hmem, hscan⟩ := ih (day + 1)
      have hlater : ∀ d ∈ days, day < d := fun d hd => by
        have := ((hmem d).mp hd).1
        omega
      have hrange : ∀ d, d ≠ day → ((day + 1 ≤ d ∧ d < day + 1 + count) ↔
          (day ≤ d ∧ d < day + (count + 1 : ℕ))) := by
        intro d hd
        push_cast
        omega
      by_cases hday : TradingDay day ∧ start < localTimeToUtc zones day rollover ∧
          localTimeToUtc zones day rollover ≤ «end»
      · refine ⟨day :: days, List.pairwise_cons.mpr ⟨hlater, hascending⟩, fun d => ?_, ?_⟩
        · rw [List.mem_cons, hmem]
          by_cases hd : d = day
          · subst hd
            simp only [true_or, true_iff]
            exact ⟨⟨le_refl d, by push_cast; omega⟩, hday⟩
          · rw [hrange d hd]
            simp [hd]
        · have htrading : weekday day ≤ 4 := hday.1
          rw [scanRollovers, hscan, if_pos htrading, if_pos hday.2]
          rfl
      · refine ⟨days, hascending, fun d => ?_, ?_⟩
        · rw [hmem]
          by_cases hd : d = day
          · subst hd
            constructor
            · rintro ⟨hlow, -⟩
              omega
            · rintro ⟨-, hin⟩
              exact absurd hin hday
          · rw [hrange d hd]
        · rw [scanRollovers, hscan]
          by_cases htrading : weekday day ≤ 4
          · have hwindow : ¬ (start < localTimeToUtc zones day rollover ∧
                localTimeToUtc zones day rollover ≤ «end») := fun hin => hday ⟨htrading, hin⟩
            rw [if_pos htrading, if_neg hwindow]
          · rw [if_neg htrading]

/-- The one-day padding loses no rollover: the scan reports the trading days whose
rollover falls in the window, each once. -/
theorem iterSwapRollovers_days_of_near
    (hnear : ∀ day, day - 1 ≤ dayOf (localTimeToUtc zones day rollover) ∧
      dayOf (localTimeToUtc zones day rollover) ≤ day + 1) (start «end» : Instant) :
    ∃ days, RolloverDays zones rollover start «end» days ∧
      iterSwapRollovers zones rollover tripleWeekdayPy start «end» =
        days.map (crossing zones rollover tripleWeekdayPy) := by
  unfold iterSwapRollovers
  by_cases hempty : start ≥ «end»
  · rw [if_pos hempty]
    exact ⟨[], crossings_empty hempty, rfl⟩
  · rw [if_neg hempty]
    simp only [dayOf_sub_day, dayOf_add_day]
    obtain ⟨days, hascending, hmem, hscan⟩ := scanRollovers_days zones rollover tripleWeekdayPy
      start «end» (dayOf «end» + 1 - (dayOf start - 1) + 1).toNat (dayOf start - 1)
    refine ⟨days, ⟨hascending, fun d => ?_⟩, hscan⟩
    rw [hmem]
    constructor
    · rintro ⟨-, hin⟩
      exact hin
    · rintro ⟨htrading, hlow, hhigh⟩
      obtain ⟨hbefore, hbehind⟩ := hnear d
      have hstart := dayOf_mono hlow.le
      have hend := dayOf_mono hhigh
      exact ⟨⟨by omega, by omega⟩, htrading, hlow, hhigh⟩

theorem iterSwapRollovers_days (hzones : ZoneLaws zones rollover) (start «end» : Instant) :
    ∃ days, RolloverDays zones rollover start «end» days ∧
      iterSwapRollovers zones rollover tripleWeekdayPy start «end» =
        days.map (crossing zones rollover tripleWeekdayPy) :=
  iterSwapRollovers_days_of_near zones rollover tripleWeekdayPy hzones.near start «end»

end Calendar

section Book

structure SwapTerms where
  zones : ZoneDatabase
  rollover : SwapRolloverConfig
  tripleWeekdayPy : ℤ
  rate : ℚ
  tickValue : ℚ

namespace SwapTerms

variable (terms : SwapTerms)

def rolloverInstant (day : ℤ) : Instant := localTimeToUtc terms.zones day terms.rollover

def owed (day : ℤ) (lots : ℚ) : FeeDetail :=
  .swap terms.rate (swapMultiplier terms.tripleWeekdayPy day) terms.tickValue lots
    (terms.rolloverInstant day)

/-- The trading days whose rollover falls in `(start, end]`. -/
def Days (start «end» : Instant) (days : List ℤ) : Prop :=
  RolloverDays terms.zones terms.rollover start «end» days

def windowFees (lots : ℚ) (start «end» : Instant) : List TradingFee :=
  (iterSwapRollovers terms.zones terms.rollover terms.tripleWeekdayPy start «end»).map
    fun crossing => swapFee terms.rate crossing.2 terms.tickValue lots crossing.1

variable {terms}

theorem windowFees_days (hzones : ZoneLaws terms.zones terms.rollover) (lots : ℚ)
    (start «end» : Instant) :
    ∃ days, terms.Days start «end» days ∧
      terms.windowFees lots start «end» = days.map fun day => (terms.owed day lots).charge := by
  obtain ⟨days, hdays, hscan⟩ := iterSwapRollovers_days terms.zones terms.rollover
    terms.tripleWeekdayPy hzones start «end»
  refine ⟨days, hdays, ?_⟩
  rw [windowFees, hscan, List.map_map]
  rfl

theorem windowFees_append (hzones : ZoneLaws terms.zones terms.rollover) (lots : ℚ)
    {a b c : Instant} (hab : a ≤ b) (hbc : b ≤ c) :
    terms.windowFees lots a b ++ terms.windowFees lots b c = terms.windowFees lots a c := by
  obtain ⟨xs, hxs, hleft⟩ := windowFees_days hzones lots a b
  obtain ⟨ys, hys, hright⟩ := windowFees_days hzones lots b c
  obtain ⟨zs, hzs, hwhole⟩ := windowFees_days hzones lots a c
  have hjoin : xs ++ ys = zs := (hxs.append hzones.increasing hab hbc hys).unique hzs
  rw [hleft, hright, hwhole, ← hjoin, List.map_append]

end SwapTerms

/-- The part of a position that swap accrual reads and writes. -/
structure SwapBook where
  lots : ℚ
  fees : List TradingFee
  accruedUntil : Instant

namespace SwapBook

variable (terms : SwapTerms)

/-- Charge the rollovers up to `now`. -/
def settle (now : Instant) (book : SwapBook) : SwapBook :=
  if now ≤ book.accruedUntil then book
  else { book with
    fees := book.fees ++ terms.windowFees book.lots book.accruedUntil now
    accruedUntil := now }

/-- Give up part of the lots, with the same share of every fee. -/
def reduce (closeLots : ℚ) (book : SwapBook) : SwapBook :=
  { book with
    lots := Rounding.roundTo 8 (book.lots - closeLots)
    fees := book.fees.map fun fee => { fee with cost := fee.cost * (1 - closeLots / book.lots) } }

/-- A sequence of reductions, each settled at its own instant first. -/
def afterChanges (book : SwapBook) (changes : List (Instant × ℚ)) : SwapBook :=
  changes.foldl (fun book change => (book.settle terms change.1).reduce change.2) book

variable {terms}

theorem settle_accrued {now : Instant} {book : SwapBook} (h : now ≤ book.accruedUntil) :
    book.settle terms now = book := if_pos h

variable (terms) in
theorem settle_accruedUntil {now : Instant} {book : SwapBook} (h : book.accruedUntil ≤ now) :
    (book.settle terms now).accruedUntil = now := by
  unfold settle
  split
  · next hpast => exact le_antisymm h hpast
  · rfl

theorem settle_lots (now : Instant) (book : SwapBook) :
    (book.settle terms now).lots = book.lots := by
  unfold settle
  split <;> rfl

theorem settle_settle (hzones : ZoneLaws terms.zones terms.rollover) {first second : Instant}
    (h : first ≤ second) (book : SwapBook) :
    (book.settle terms first).settle terms second = book.settle terms second := by
  by_cases hfirst : first ≤ book.accruedUntil
  · have hsame : book.settle terms first = book := if_pos hfirst
    rw [hsame]
  · have hopen : book.settle terms first = { book with
        fees := book.fees ++ terms.windowFees book.lots book.accruedUntil first
        accruedUntil := first } := if_neg hfirst
    have hpast : ¬ second ≤ book.accruedUntil := fun hle => hfirst (h.trans hle)
    rw [hopen]
    unfold settle
    rw [if_neg hpast]
    by_cases hsecond : second ≤ first
    · have heq : second = first := le_antisymm hsecond h
      rw [if_pos hsecond, heq]
    · rw [if_neg hsecond]
      have happend := SwapTerms.windowFees_append hzones book.lots
        (le_of_not_ge hfirst) h
      simp only [List.append_assoc, happend]

/-- An early settlement is absorbed by the next reduction or by the final one. -/
theorem afterChanges_settle (hzones : ZoneLaws terms.zones terms.rollover)
    {early now : Instant} (hnow : early ≤ now) {changes : List (Instant × ℚ)}
    (hchanges : ∀ change ∈ changes, early ≤ change.1) (book : SwapBook) :
    ((book.settle terms early).afterChanges terms changes).settle terms now =
      (book.afterChanges terms changes).settle terms now := by
  cases changes with
  | nil => exact settle_settle hzones hnow book
  | cons change changes =>
      have hfirst := settle_settle hzones (hchanges change (List.mem_cons_self ..)) book
      simp only [afterChanges, List.foldl_cons]
      rw [hfirst]

end SwapBook

end Book

section Positions

def swapTerms (cfg : PortfolioConfig) (rollover : SwapRolloverConfig)
    (spec : SymbolSpecification) (position : Position) : SwapTerms where
  zones := cfg.zones
  rollover := rollover
  tripleWeekdayPy := mt5WeekdayToPython spec.swapRollover3days
  rate := match position.direction with
    | .long => spec.swapLong
    | .short => spec.swapShort
  tickValue := position.entryTickValue

def swapBook (position : Position) : SwapBook where
  lots := position.lots
  fees := position.fees
  accruedUntil := position.swapAccruedUntil

def termsKey (position : Position) : String × OrderDirection × ℚ :=
  (position.symbol, position.direction, position.entryTickValue)

variable {cfg : PortfolioConfig} {rollover : SwapRolloverConfig} {spec : SymbolSpecification}

theorem swapTerms_congr {position position' : Position} (h : termsKey position' = termsKey position) :
    swapTerms cfg rollover spec position' = swapTerms cfg rollover spec position := by
  obtain ⟨-, hrest⟩ := Prod.mk.inj h
  obtain ⟨hdirection, htick⟩ := Prod.mk.inj hrest
  simp only [swapTerms, hdirection, htick]

variable (cfg) in
theorem marked_swapBook (pm : PortfolioManager) (position : Position) :
    swapBook (marked cfg pm position) = swapBook position ∧
      termsKey (marked cfg pm position) = termsKey position := by
  unfold marked
  split
  · exact ⟨rfl, rfl⟩
  · exact ⟨rfl, rfl⟩

theorem accrued_swapBook (hmargin : cfg.spotMode = false)
    (hrollover : cfg.swapRollover = some rollover) (now : Instant) {position : Position}
    (hspec : cfg.broker.symbols.get? position.symbol = some spec)
    (hmode : spec.swapMode = .points) :
    swapBook (accrued cfg (some now) position) =
        (swapBook position).settle (swapTerms cfg rollover spec position) now ∧
      termsKey (accrued cfg (some now) position) = termsKey position := by
  unfold accrued swapsDue
  simp only [hrollover, hspec, hmargin, Bool.false_eq_true, false_or, hmode, ne_eq,
    not_true_eq_false, or_false]
  by_cases hpast : now ≤ position.swapAccruedUntil
  · have hsettled : (swapBook position).settle (swapTerms cfg rollover spec position) now =
        swapBook position := if_pos hpast
    rw [if_pos hpast, hsettled]
    exact ⟨rfl, rfl⟩
  · have hsettled : (swapBook position).settle (swapTerms cfg rollover spec position) now =
        { swapBook position with
          fees := position.fees ++ (swapTerms cfg rollover spec position).windowFees position.lots
            position.swapAccruedUntil now
          accruedUntil := now } := if_neg hpast
    rw [if_neg hpast, if_neg hpast, hsettled]
    exact ⟨rfl, rfl⟩

theorem remainder_swapBook (position : Position) (closeLots : ℚ) :
    swapBook (remainder position closeLots (1 - closeLots / position.lots)) =
      (swapBook position).reduce closeLots := rfl

end Positions

section Schedules

def advance (now : Instant) : PortfolioCall → Instant
  | .setClock later => later
  | _ => now

def lotChange (k : String) : PortfolioCall → Option ℚ
  | .partialClose args closeLots => if args.positionId = k then some closeLots else none
  | _ => none

/-- The partial closes of a position, each with the clock reading at which it happens. -/
def lotChanges (k : String) : Instant → List PortfolioCall → List (Instant × ℚ)
  | _, [] => []
  | now, call :: calls =>
      ((lotChange k call).map fun closeLots => (now, closeLots)).toList ++
        lotChanges k (advance now call) calls

/-- The clock never goes back and the position with this id stays open. -/
def Forward (k : String) : Instant → List PortfolioCall → Prop
  | _, [] => True
  | now, call :: calls =>
      now ≤ advance now call ∧ KeepsOpen k call ∧ Forward k (advance now call) calls

instance decidableForward (k : String) :
    ∀ now calls, Decidable (Forward k now calls)
  | _, [] => .isTrue trivial
  | now, call :: calls =>
      have := decidableForward k (advance now call) calls
      inferInstanceAs (Decidable (now ≤ advance now call ∧ KeepsOpen k call ∧ _))

def lotsOf (k : String) (s : Session) : ℚ := ((s.portfolio.getPosition k).map Position.lots).getD 0

def lotsHeldAt (cfg : PortfolioConfig) (k : String) (instant : Instant) :
    Session → List PortfolioCall → ℚ
  | s, [] => lotsOf k s
  | s, call :: calls =>
      match callStep cfg s call with
      | .error _ => lotsOf k s
      | .ok s' =>
          if s'.clock.any (instant ≤ ·) then lotsOf k s else lotsHeldAt cfg k instant s' calls

theorem lotChanges_from (k : String) {now : Instant} {calls : List PortfolioCall}
    (h : Forward k now calls) : ∀ change ∈ lotChanges k now calls, now ≤ change.1 := by
  induction calls generalizing now with
  | nil =>
      intro change hmem
      cases hmem
  | cons call calls ih =>
      obtain ⟨hlater, -, hrest⟩ := h
      intro change hmem
      rw [lotChanges, List.mem_append] at hmem
      rcases hmem with hhead | htail
      · rw [Option.mem_toList, Option.map_eq_some_iff] at hhead
        obtain ⟨closeLots, -, rfl⟩ := hhead
        exact le_refl now
      · exact hlater.trans (ih hrest change htail)

theorem Forward.of_append {k : String} {now : Instant} {calls later : List PortfolioCall}
    (h : Forward k now (calls ++ later)) : Forward k now calls := by
  induction calls generalizing now with
  | nil => trivial
  | cons call calls ih => exact ⟨h.1, h.2.1, ih h.2.2⟩

end Schedules

section Runs

variable {cfg : PortfolioConfig} {rollover : SwapRolloverConfig} {spec : SymbolSpecification}

/-- The position with this id is open in a swap-bearing symbol, accrued no further than
the clock. -/
structure Standing (cfg : PortfolioConfig) (spec : SymbolSpecification) (k : String)
    (s : Session) (now : Instant) (position : Position) : Prop where
  clock : s.clock = some now
  held : s.portfolio.getPosition k = some position
  symbol : cfg.broker.symbols.get? position.symbol = some spec
  accrued : position.swapAccruedUntil ≤ now

/-- What one call does to the book of a position that stays open. -/
inductive BookStep (terms : SwapTerms) (now : Instant) (book : SwapBook) :
    Option ℚ → SwapBook → Prop
  | kept : BookStep terms now book none book
  | settled : BookStep terms now book none (book.settle terms now)
  | reduced (closeLots : ℚ) :
      BookStep terms now book (some closeLots) ((book.settle terms now).reduce closeLots)

theorem BookStep.accruedUntil {terms : SwapTerms} {now : Instant} {book book' : SwapBook}
    {change : Option ℚ} (h : BookStep terms now book change book') (hbook : book.accruedUntil ≤ now) :
    book'.accruedUntil = book.accruedUntil ∧ book' = book ∨ book'.accruedUntil = now := by
  have hsettle := SwapBook.settle_accruedUntil terms hbook
  cases h with
  | kept => exact .inl ⟨rfl, rfl⟩
  | settled => exact .inr hsettle
  | reduced closeLots => exact .inr hsettle

theorem afterRefresh_book (hmargin : cfg.spotMode = false)
    (hrollover : cfg.swapRollover = some rollover) (hmode : spec.swapMode = .points) {k : String}
    {s : Session} {now : Instant} {position : Position}
    (hstanding : Standing cfg spec k s now position) :
    swapBook (afterRefresh cfg s position) =
        (swapBook position).settle (swapTerms cfg rollover spec position) now ∧
      termsKey (afterRefresh cfg s position) = termsKey position := by
  obtain ⟨hbook, hkey⟩ := accrued_swapBook hmargin hrollover now hstanding.symbol hmode
  have hmarked := marked_swapBook cfg s.portfolio (accrued cfg (some now) position)
  rw [afterRefresh, hstanding.clock]
  exact ⟨hmarked.1.trans hbook, hmarked.2.trans hkey⟩

theorem treated_book (hmargin : cfg.spotMode = false)
    (hrollover : cfg.swapRollover = some rollover) (hmode : spec.swapMode = .points) {k : String}
    {s : Session} {now : Instant} {position position' : Position} {call : PortfolioCall}
    (hstanding : Standing cfg spec k s now position)
    (h : Treated cfg s k position call position') :
    BookStep (swapTerms cfg rollover spec position) now (swapBook position) (lotChange k call)
      (swapBook position') ∧ termsKey position' = termsKey position := by
  have hrefresh := afterRefresh_book hmargin hrollover hmode hstanding
  have hnone : ∀ {call : PortfolioCall}, (∀ args closeLots, call = .partialClose args closeLots →
      args.positionId ≠ k) → lotChange k call = none := by
    intro call hcall
    cases call with
    | partialClose args closeLots => exact if_neg (hcall args closeLots rfl)
    | _ => rfl
  cases h with
  | untouched call hcall =>
      rw [hnone hcall]
      exact ⟨.kept, rfl⟩
  | modified id newStopLoss newTakeProfit stopLoss takeProfit => exact ⟨.kept, rfl⟩
  | refreshed call hcall =>
      rw [hnone hcall, hrefresh.1]
      exact ⟨.settled, hrefresh.2⟩
  | reduced args closeLots hkey hlots =>
      have hchange : lotChange k (.partialClose args closeLots) = some closeLots := if_pos hkey
      rw [remainder_swapBook, hrefresh.1, hchange]
      exact ⟨.reduced closeLots, hrefresh.2⟩

theorem standing_step (hmargin : cfg.spotMode = false)
    (hrollover : cfg.swapRollover = some rollover) (hmode : spec.swapMode = .points) {k : String}
    {s s' : Session} {now : Instant} {position : Position} {call : PortfolioCall}
    (hstanding : Standing cfg spec k s now position) (hlater : now ≤ advance now call)
    (hkeeps : KeepsOpen k call) (h : callStep cfg s call = .ok s') :
    ∃ position', Standing cfg spec k s' (advance now call) position' ∧
      termsKey position' = termsKey position ∧
      BookStep (swapTerms cfg rollover spec position) now (swapBook position) (lotChange k call)
        (swapBook position') := by
  obtain ⟨position', hposition', htreated⟩ := callStep_treats h hkeeps hstanding.held
  obtain ⟨hbook, hkey⟩ := treated_book hmargin hrollover hmode hstanding htreated
  have hclock : s'.clock = some (advance now call) := by
    rw [callStep_clock h, hstanding.clock]
    cases call <;> rfl
  have hsymbol : position'.symbol = position.symbol := (Prod.mk.inj hkey).1
  refine ⟨position', ⟨hclock, hposition', ?_, ?_⟩, hkey, hbook⟩
  · rw [hsymbol]
    exact hstanding.symbol
  · rcases hbook.accruedUntil hstanding.accrued with ⟨hsame, -⟩ | hnow
    · exact (le_of_eq hsame).trans (hstanding.accrued.trans hlater)
    · exact (le_of_eq hnow).trans hlater

theorem lotsOf_standing {k : String} {s : Session} {now : Instant} {position : Position}
    (hstanding : Standing cfg spec k s now position) : lotsOf k s = (swapBook position).lots := by
  rw [lotsOf, hstanding.held]
  rfl

/-- The lots held at an instant the clock has reached already are the current ones. -/
theorem lotsHeldAt_reached {k : String} {s : Session} {now instant : Instant}
    {calls : List PortfolioCall} (hclock : s.clock = some now) (hreached : instant ≤ now)
    (hforward : Forward k now calls) : lotsHeldAt cfg k instant s calls = lotsOf k s := by
  cases calls with
  | nil => rfl
  | cons call calls =>
      rw [lotsHeldAt]
      cases hcall : callStep cfg s call with
      | error e => rfl
      | ok s' =>
          have hclock' : s'.clock = some (advance now call) := by
            rw [callStep_clock hcall, hclock]
            cases call <;> rfl
          have hany : s'.clock.any (instant ≤ ·) = true := by
            rw [hclock']
            simpa using hreached.trans hforward.1
          simp only [hany, if_true]

/-- The charges of one call: the rollovers up to the new accrual instant, on the lots held
before the call. -/
theorem BookStep.charges {terms : SwapTerms} (hzones : ZoneLaws terms.zones terms.rollover)
    {now : Instant} {book book' : SwapBook} {change : Option ℚ}
    (h : BookStep terms now book change book') :
    ∃ days, terms.Days book.accruedUntil book'.accruedUntil days ∧
      book'.fees.map TradingFee.detail =
        book.fees.map TradingFee.detail ++ days.map fun day => terms.owed day book.lots := by
  have hsettle : ∃ days, terms.Days book.accruedUntil (book.settle terms now).accruedUntil days ∧
      (book.settle terms now).fees.map TradingFee.detail =
        book.fees.map TradingFee.detail ++ days.map fun day => terms.owed day book.lots := by
    unfold SwapBook.settle
    split
    · exact ⟨[], crossings_empty (le_refl _), by simp⟩
    · obtain ⟨days, hdays, hfees⟩ := SwapTerms.windowFees_days hzones book.lots
        book.accruedUntil now
      refine ⟨days, hdays, ?_⟩
      rw [List.map_append, hfees, List.map_map]
      rfl
  cases h with
  | kept => exact ⟨[], crossings_empty (le_refl _), by simp⟩
  | settled => exact hsettle
  | reduced closeLots =>
      obtain ⟨days, hdays, hfees⟩ := hsettle
      refine ⟨days, hdays, ?_⟩
      rw [← hfees, SwapBook.reduce, List.map_map]
      rfl

theorem BookStep.lots_of_none {terms : SwapTerms} {now : Instant} {book book' : SwapBook}
    (h : BookStep terms now book none book') : book'.lots = book.lots := by
  cases h with
  | kept => rfl
  | settled => exact SwapBook.settle_lots now book

/-- No call both changes the lots and moves the clock. -/
theorem lotChange_or_advance (k : String) (now : Instant) (call : PortfolioCall) :
    lotChange k call = none ∨ advance now call = now := by
  cases call with
  | setClock later => exact .inl rfl
  | _ => exact .inr rfl

/-- Over a run, the rollovers up to the last accrual are charged once each, on the lots
held when they were crossed. -/
theorem run_charges (hmargin : cfg.spotMode = false)
    (hrollover : cfg.swapRollover = some rollover) (hmode : spec.swapMode = .points)
    (hzones : ZoneLaws cfg.zones rollover) {k : String} {s t : Session} {now : Instant}
    {position : Position} {calls : List PortfolioCall}
    (hstanding : Standing cfg spec k s now position) (hforward : Forward k now calls)
    (hrun : run (callStep cfg) s calls = .ok t) :
    ∃ now' position', Standing cfg spec k t now' position' ∧
      termsKey position' = termsKey position ∧
      position.swapAccruedUntil ≤ position'.swapAccruedUntil ∧
      ∃ days, (swapTerms cfg rollover spec position).Days position.swapAccruedUntil
          position'.swapAccruedUntil days ∧
        position'.fees.map TradingFee.detail = position.fees.map TradingFee.detail ++
          days.map fun day => (swapTerms cfg rollover spec position).owed day
            (lotsHeldAt cfg k ((swapTerms cfg rollover spec position).rolloverInstant day) s
              calls) := by
  induction calls generalizing s now position with
  | nil =>
      cases hrun
      exact ⟨now, position, hstanding, rfl, le_refl _, [], crossings_empty (le_refl _), by simp⟩
  | cons call calls ih =>
      obtain ⟨s₁, hcall, hcalls⟩ := run_cons_eq_ok.mp hrun
      obtain ⟨hlater, hkeeps, hforward'⟩ := hforward
      obtain ⟨position₁, hstanding₁, hkey₁, hbook⟩ :=
        standing_step hmargin hrollover hmode hstanding hlater hkeeps hcall
      obtain ⟨now', position', hstanding', hkey', hgrow, later, hlaterDays, hlaterFees⟩ :=
        ih hstanding₁ hforward' hcalls
      rw [swapTerms_congr hkey₁] at hlaterDays hlaterFees
      have hzones' : ZoneLaws (swapTerms cfg rollover spec position).zones
          (swapTerms cfg rollover spec position).rollover := hzones
      obtain ⟨first, hfirstDays, hfirstFees⟩ := hbook.charges hzones'
      have hgrow₁ : position.swapAccruedUntil ≤ position₁.swapAccruedUntil := by
        rcases hbook.accruedUntil hstanding.accrued with ⟨hsame, -⟩ | hnow
        · exact le_of_eq hsame.symm
        · exact hstanding.accrued.trans (le_of_eq hnow.symm)
      have hlots : lotsOf k s = (swapBook position).lots := lotsOf_standing hstanding
      refine ⟨now', position', hstanding', hkey'.trans hkey₁, hgrow₁.trans hgrow, first ++ later,
        hfirstDays.append hzones.increasing hgrow₁ hgrow hlaterDays, ?_⟩
      have hheld : ∀ instant, lotsHeldAt cfg k instant s (call :: calls) =
          if instant ≤ advance now call then lotsOf k s
          else lotsHeldAt cfg k instant s₁ calls := by
        intro instant
        simp only [lotsHeldAt, hcall, hstanding₁.clock, Option.any_some, decide_eq_true_eq]
      have hfirstHeld : ∀ day ∈ first, lotsHeldAt cfg k
          ((swapTerms cfg rollover spec position).rolloverInstant day) s (call :: calls) =
            (swapBook position).lots := by
        intro day hday
        have hreached : (swapTerms cfg rollover spec position).rolloverInstant day ≤
            advance now call :=
          ((hfirstDays.mem_iff day).mp hday).2.2.trans hstanding₁.accrued
        rw [hheld, if_pos hreached, hlots]
      -- a rollover the clock has passed without an accrual met no lot change either
      have hlaterHeld : ∀ day ∈ later, lotsHeldAt cfg k
          ((swapTerms cfg rollover spec position).rolloverInstant day) s (call :: calls) =
            lotsHeldAt cfg k ((swapTerms cfg rollover spec position).rolloverInstant day) s₁
              calls := by
        intro day hday
        have hafter := ((hlaterDays.mem_iff day).mp hday).2.1
        rw [hheld]
        split
        · next hreached =>
            rw [lotsHeldAt_reached hstanding₁.clock hreached hforward',
              lotsOf_standing hstanding₁, hlots]
            rcases lotChange_or_advance k now call with hnone | hstill
            · rw [hnone] at hbook
              exact hbook.lots_of_none.symm
            · rcases hbook.accruedUntil hstanding.accrued with ⟨-, hsame⟩ | hnow
              · rw [hsame]
              · have hpassed : position₁.swapAccruedUntil = now := hnow
                rw [hstill, ← hpassed] at hreached
                exact absurd hreached (not_le_of_gt hafter)
        · rfl
      have hpositionFees : position₁.fees.map TradingFee.detail =
          position.fees.map TradingFee.detail ++ first.map fun day =>
            (swapTerms cfg rollover spec position).owed day (swapBook position).lots := hfirstFees
      rw [hlaterFees, hpositionFees, List.map_append, List.append_assoc]
      congr 2
      · exact List.map_congr_left fun day hday => by rw [hfirstHeld day hday]
      · exact List.map_congr_left fun day hday => by rw [hlaterHeld day hday]

theorem run_clock {k : String} {s t : Session} {now now' : Instant} {calls : List PortfolioCall}
    (hforward : Forward k now calls) (hrun : run (callStep cfg) s calls = .ok t)
    (hs : s.clock = some now) (ht : t.clock = some now') : now ≤ now' := by
  induction calls generalizing s now with
  | nil =>
      cases hrun
      rw [hs] at ht
      exact le_of_eq (Option.some.inj ht)
  | cons call calls ih =>
      obtain ⟨s₁, hcall, hcalls⟩ := run_cons_eq_ok.mp hrun
      have hs₁ : s₁.clock = some (advance now call) := by
        rw [callStep_clock hcall, hs]
        cases call <;> rfl
      exact hforward.1.trans (ih hforward.2.2 hcalls hs₁)

/-- A refresh at the end of a run leaves the position accrued up to the clock. -/
theorem ends_accrued (hmargin : cfg.spotMode = false)
    (hrollover : cfg.swapRollover = some rollover) (hmode : spec.swapMode = .points)
    (hzones : ZoneLaws cfg.zones rollover) {k : String} {s t : Session} {now now' : Instant}
    {position position' : Position} {calls : List PortfolioCall}
    (hstanding : Standing cfg spec k s now position)
    (hforward : Forward k now (calls ++ [.ensurePositionsUpdated]))
    (hrun : run (callStep cfg) s (calls ++ [.ensurePositionsUpdated]) = .ok t)
    (ht : Standing cfg spec k t now' position') : position'.swapAccruedUntil = now' := by
  obtain ⟨s₁, hcalls, hlast⟩ := run_append_eq_ok.mp hrun
  obtain ⟨now₁, position₁, h₁, -⟩ := run_charges hmargin hrollover hmode hzones hstanding
    (hforward.of_append) hcalls
  obtain ⟨s₂, hcall, hnil⟩ := run_cons_eq_ok.mp hlast
  cases hnil
  obtain ⟨pm, hensure, hpure⟩ := bind_eq_ok.mp hcall
  cases hpure
  have hposition := ensure_treats hensure h₁.held
  have hclock : now' = now₁ := Option.some.inj (ht.clock.symm.trans h₁.clock)
  have hsame : position' = afterRefresh cfg s₁ position₁ :=
    Option.some.inj (ht.held.symm.trans hposition)
  have hbook := (afterRefresh_book hmargin hrollover hmode h₁).1
  have haccrued := congrArg SwapBook.accruedUntil hbook
  rw [SwapBook.settle_accruedUntil _ h₁.accrued] at haccrued
  rw [hsame, hclock]
  exact haccrued

theorem opened_standing {s opened : Session} {args : OpenPositionArgs} {now : Instant}
    (hspec : cfg.broker.symbols.get? args.symbol = some spec) (hclock : s.clock = some now)
    (hopen : callStep cfg s (.openPosition args) = .ok opened) :
    Standing cfg spec args.orderId opened now (args.position now) := by
  obtain ⟨pm, hstored, hpure⟩ := bind_eq_ok.mp hopen
  cases hpure
  obtain ⟨now', costs, balances, hnow, rfl⟩ := openPosition_eq_ok hstored
  rw [hclock] at hnow
  cases hnow
  exact ⟨hclock, Dict.get?_set_self _ _ _, hspec, le_refl now⟩

/-- The lot changes of a run alone decide the book as it stands once settled: any other
refresh is absorbed. -/
theorem run_settled (hmargin : cfg.spotMode = false)
    (hrollover : cfg.swapRollover = some rollover) (hmode : spec.swapMode = .points)
    (hzones : ZoneLaws cfg.zones rollover) {k : String} {s t : Session} {now now' : Instant}
    {position position' : Position} {calls : List PortfolioCall}
    (hstanding : Standing cfg spec k s now position) (hforward : Forward k now calls)
    (hrun : run (callStep cfg) s calls = .ok t) (ht : Standing cfg spec k t now' position') :
    (swapBook position').settle (swapTerms cfg rollover spec position) now' =
      ((swapBook position).afterChanges (swapTerms cfg rollover spec position)
        (lotChanges k now calls)).settle (swapTerms cfg rollover spec position) now' := by
  induction calls generalizing s now position with
  | nil =>
      cases hrun
      have hsame : position' = position :=
        Option.some.inj (ht.held.symm.trans hstanding.held)
      rw [hsame]
      rfl
  | cons call calls ih =>
      obtain ⟨s₁, hcall, hcalls⟩ := run_cons_eq_ok.mp hrun
      obtain ⟨hlater, hkeeps, hforward'⟩ := hforward
      obtain ⟨position₁, hstanding₁, hkey₁, hbook⟩ :=
        standing_step hmargin hrollover hmode hstanding hlater hkeeps hcall
      have hzones' : ZoneLaws (swapTerms cfg rollover spec position).zones
          (swapTerms cfg rollover spec position).rollover := hzones
      have hfrom : ∀ change ∈ lotChanges k (advance now call) calls, now ≤ change.1 :=
        fun change hmem => hlater.trans (lotChanges_from k hforward' change hmem)
      have hend : now ≤ now' := hlater.trans (run_clock hforward' hcalls hstanding₁.clock ht.clock)
      have hrest := ih hstanding₁ hforward' hcalls
      rw [swapTerms_congr hkey₁] at hrest
      rw [hrest, lotChanges]
      generalize swapBook position₁ = book₁ at hbook
      generalize lotChange k call = change at hbook
      cases hbook with
      | kept => rfl
      | settled => exact SwapBook.afterChanges_settle hzones' hend hfrom _
      | reduced closeLots => rfl

/-- The swap fees of a margin position in a symbol with swap points are, at every refresh,
one per rollover since it was opened, each with the multiplier of its local weekday and on
the lots held when it was crossed; every schedule of refreshes with the same lot changes
leaves the same fees. -/
theorem swaps_charged_once (hmargin : cfg.spotMode = false)
    (hrollover : cfg.swapRollover = some rollover) (hzones : ZoneLaws cfg.zones rollover)
    {s opened t : Session} {args : OpenPositionArgs} {openedAt : Instant}
    {calls : List PortfolioCall}
    (hspec : cfg.broker.symbols.get? args.symbol = some spec) (hmode : spec.swapMode = .points)
    (hclock : s.clock = some openedAt)
    (hopen : callStep cfg s (.openPosition args) = .ok opened)
    (hforward : Forward args.orderId openedAt (calls ++ [.ensurePositionsUpdated]))
    (hrun : run (callStep cfg) opened (calls ++ [.ensurePositionsUpdated]) = .ok t) :
    ∃ now position days, t.clock = some now ∧
      t.portfolio.getPosition args.orderId = some position ∧
      (swapTerms cfg rollover spec (args.position openedAt)).Days openedAt now days ∧
      position.fees.map TradingFee.detail = args.entryFee.toList.map TradingFee.detail ++
        days.map (fun day => (swapTerms cfg rollover spec (args.position openedAt)).owed day
          (lotsHeldAt cfg args.orderId
            ((swapTerms cfg rollover spec (args.position openedAt)).rolloverInstant day) opened
            (calls ++ [.ensurePositionsUpdated]))) ∧
      ∀ calls' t', Forward args.orderId openedAt (calls' ++ [.ensurePositionsUpdated]) →
        run (callStep cfg) opened (calls' ++ [.ensurePositionsUpdated]) = .ok t' →
        t'.clock = t.clock →
        lotChanges args.orderId openedAt (calls' ++ [.ensurePositionsUpdated]) =
          lotChanges args.orderId openedAt (calls ++ [.ensurePositionsUpdated]) →
        ∃ position', t'.portfolio.getPosition args.orderId = some position' ∧
          position'.fees = position.fees := by
  have hstanding : Standing cfg spec args.orderId opened openedAt (args.position openedAt) :=
    opened_standing hspec hclock hopen
  obtain ⟨now, position, ht, -, -, days, hdays, hfees⟩ :=
    run_charges hmargin hrollover hmode hzones hstanding hforward hrun
  have haccrued := ends_accrued hmargin hrollover hmode hzones hstanding hforward hrun ht
  rw [haccrued] at hdays
  refine ⟨now, position, days, ht.clock, ht.held, hdays, hfees, ?_⟩
  intro calls' t' hforward' hrun' hclock' hchanges
  obtain ⟨now', position', ht', -⟩ :=
    run_charges hmargin hrollover hmode hzones hstanding hforward' hrun'
  have haccrued' := ends_accrued hmargin hrollover hmode hzones hstanding hforward' hrun' ht'
  have hnow : now' = now := by
    rw [ht.clock, ht'.clock] at hclock'
    exact Option.some.inj hclock'
  have hbook := run_settled hmargin hrollover hmode hzones hstanding hforward hrun ht
  have hbook' := run_settled hmargin hrollover hmode hzones hstanding hforward' hrun' ht'
  have hsettled : ∀ terms, (swapBook position).settle terms now = swapBook position :=
    fun terms => SwapBook.settle_accrued (le_of_eq haccrued.symm)
  have hsettled' : ∀ terms, (swapBook position').settle terms now' = swapBook position' :=
    fun terms => SwapBook.settle_accrued (le_of_eq haccrued'.symm)
  rw [hsettled', hchanges, hnow, ← hbook, hsettled] at hbook'
  exact ⟨position', ht'.held, congrArg SwapBook.fees hbook'⟩

end Runs

section Account

def newYorkWinter : ZoneDatabase := fun _ _ => -18000000000

def newYorkClose : SwapRolloverConfig := { hour := 17, minute := 0, timezone := "America/New_York" }

theorem newYorkWinter_laws : ZoneLaws newYorkWinter newYorkClose := by
  have hutc : ∀ day, localTimeToUtc newYorkWinter day newYorkClose =
      day * microsecondsPerDay + 79200000000 := by
    intro day
    unfold localTimeToUtc newYorkWinter newYorkClose
    ring
  constructor
  · intro day day' h
    have hdays : day * microsecondsPerDay < day' * microsecondsPerDay :=
      Int.mul_lt_mul_of_pos_right h (by decide)
    simpa only [hutc] using Int.add_lt_add_right hdays _
  · intro day
    rw [hutc, dayOf, Int.fdiv_eq_ediv_of_nonneg _ (by decide), microsecondsPerDay]
    omega

def swapAccount : PortfolioConfig :=
  { usdAccount with swapRollover := some newYorkClose, zones := newYorkWinter }

/-- Noon UTC, this many days after Monday 2024-01-08. -/
def noon (days : ℤ) : Instant := (19730 + days) * microsecondsPerDay + 43200000000

/-- Half of the lot is closed on Tuesday, the account is queried on Wednesday night. -/
def acrossWednesday : List PortfolioCall :=
  [.setClock (noon 1),
    .partialClose { positionId := "pos_eurusd_1", exitPrice := 11000 / 10000,
                    exitTickValue := 1, exitTickIndex := 2 } (1 / 2),
    .setClock (noon 2 + 43200000000), .getAccountInfo .long, .setClock (noon 3)]

def mondayNoon : Session :=
  { portfolio := (new swapAccount).markDirty (eurusdTick (11000 / 10000) (11002 / 10000) 1)
    clock := some (noon 0) }

theorem acrossWednesday_runs :
    (callStep swapAccount mondayNoon (.openPosition oneLotLong) >>= fun opened =>
      run (callStep swapAccount) opened (acrossWednesday ++ [.ensurePositionsUpdated])).map
        (fun t => (t.portfolio.getPosition "pos_eurusd_1").map fun position =>
          position.fees.map TradingFee.cost) = .ok (some [10, 7 / 2, 7 / 2, 21 / 2]) := by
  decide +kernel

/-- Opened on Monday at noon, the position is charged on Thursday at noon for the three
nights in between. -/
theorem swaps_charged_once_acrossWednesday :
    ∃ opened t, callStep swapAccount mondayNoon (.openPosition oneLotLong) = .ok opened ∧
      run (callStep swapAccount) opened (acrossWednesday ++ [.ensurePositionsUpdated]) = .ok t ∧
      ∃ now position days, t.clock = some now ∧
        t.portfolio.getPosition "pos_eurusd_1" = some position ∧
        (swapTerms swapAccount newYorkClose eurusd (oneLotLong.position (noon 0))).Days (noon 0)
          now days ∧
        position.fees.map TradingFee.detail = oneLotLong.entryFee.toList.map TradingFee.detail ++
          days.map (fun day =>
            (swapTerms swapAccount newYorkClose eurusd (oneLotLong.position (noon 0))).owed day
              (lotsHeldAt swapAccount "pos_eurusd_1"
                ((swapTerms swapAccount newYorkClose eurusd
                  (oneLotLong.position (noon 0))).rolloverInstant day) opened
                (acrossWednesday ++ [.ensurePositionsUpdated]))) := by
  obtain ⟨t, hboth, -⟩ := exists_of_map_eq_ok acrossWednesday_runs
  obtain ⟨opened, hopen, hrun⟩ := bind_eq_ok.mp hboth
  have hspec : swapAccount.broker.symbols.get? oneLotLong.symbol = some eurusd := rfl
  obtain ⟨now, position, days, hclock, hposition, hdays, hfees, -⟩ :=
    swaps_charged_once rfl rfl newYorkWinter_laws hspec rfl rfl hopen (by decide) hrun
  exact ⟨opened, t, hopen, hrun, now, position, days, hclock, hposition, hdays, hfees⟩

end Account

end Finiex.SwapAccrual
