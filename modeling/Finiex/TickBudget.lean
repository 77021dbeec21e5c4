import Finiex.PreparationIsolation
import Finiex.Lib.Rounding
import Finiex.Lib.Thinning

namespace Finiex.TickBudget

open Finiex.Types
open Finiex.Bars
open Finiex.Preparation
open Finiex.Lib
open Finiex.Lib.Thinning

section Clipping

structure ClippingStats where
  ticksTotal : ℕ := 0
  ticksKept : ℕ := 0
  ticksClipped : ℕ := 0
  clippingRatePct : ℚ := 0
  budgetMs : ℚ := 0
  deriving DecidableEq

/-- The loop of `_apply_tick_budget` over the virtual clock and `ticks_kept`. -/
def flagTicks (budgetMs : ℚ) : ℚ → ℕ → List TickRow → List TransportTick × ℕ
  | _, ticksKept, [] => ([], ticksKept)
  | clock, ticksKept, row :: rows =>
      if clock ≤ row.collectedMsc then
        let rest := flagTicks budgetMs (row.collectedMsc + budgetMs) (ticksKept + 1) rows
        ({ row := row, isClipped := some false } :: rest.1, rest.2)
      else
        let rest := flagTicks budgetMs clock ticksKept rows
        ({ row := row, isClipped := some true } :: rest.1, rest.2)

/-- `_apply_tick_budget` with the statistics it returns. -/
def applyTickBudgetStats (budgetMs : ℚ) (rows : List TickRow) :
    List TransportTick × ClippingStats :=
  match rows with
  | [] => ([], { budgetMs := budgetMs })
  | first :: _ =>
      let ticksTotal := rows.length
      if first.collectedMsc = 0 then
        (rows.map fun row => { row := row },
          { ticksTotal := ticksTotal, ticksKept := ticksTotal, budgetMs := budgetMs })
      else
        let flagged := flagTicks budgetMs 0 0 rows
        let ticksClipped := ticksTotal - flagged.2
        (flagged.1,
          { ticksTotal := ticksTotal
            ticksKept := flagged.2
            ticksClipped := ticksClipped
            clippingRatePct := Rounding.roundTo 2 ((ticksClipped : ℚ) / ticksTotal * 100)
            budgetMs := budgetMs })

def keptRows (ticks : List TransportTick) : List TickRow :=
  (ticks.filter fun tick => tick.isClipped = some false).map TransportTick.row

end Clipping

section Marks

variable {budgetMs : ℚ} {rows : List TickRow}

def collectedAt (row : TickRow) : ℚ := row.collectedMsc

def freeAt (budgetMs : ℚ) (row : TickRow) : ℚ := row.collectedMsc + budgetMs

def flagOf (marked : TickRow × Bool) : TransportTick :=
  { row := marked.1, isClipped := some !marked.2 }

theorem flagClipped_eq (clock : ℚ) (rows : List TickRow) :
    flagClipped budgetMs clock rows =
      (mark collectedAt (freeAt budgetMs) clock rows).map flagOf := by
  induction rows generalizing clock with
  | nil => rfl
  | cons row rows ih =>
      by_cases h : clock ≤ row.collectedMsc
      · simp [flagClipped, mark, collectedAt, freeAt, flagOf, h, ih]
      · simp [flagClipped, mark, collectedAt, flagOf, h, ih]

theorem keptRows_map_flagOf (marked : List (TickRow × Bool)) :
    keptRows (marked.map flagOf) = kept marked := by
  induction marked with
  | nil => rfl
  | cons head marked ih =>
      obtain ⟨row, flag⟩ := head
      cases flag
      · simpa [keptRows, flagOf] using ih
      · simpa [keptRows, flagOf] using ih

theorem flagTicks_eq (clock : ℚ) (ticksKept : ℕ) (rows : List TickRow) :
    flagTicks budgetMs clock ticksKept rows =
      (flagClipped budgetMs clock rows,
        ticksKept + (keptRows (flagClipped budgetMs clock rows)).length) := by
  induction rows generalizing clock ticksKept with
  | nil => simp [flagTicks, flagClipped, keptRows]
  | cons row rows ih =>
      by_cases h : clock ≤ row.collectedMsc
      · simp [flagTicks, flagClipped, h, ih, keptRows]
        omega
      · simp [flagTicks, flagClipped, h, ih, keptRows]

end Marks

section Optimality

/-- The ticks are an optimal thinning of the rows: all of them are there, the kept ones are a
budget apart and as many as can be, also for every larger budget, and a clipped one follows on
the last kept one within the budget. -/
structure OptimalThinning (budgetMs : ℚ) (rows : List TickRow) (ticks : List TransportTick)
    (stats : ClippingStats) : Prop where
  rows_eq : ticks.map TransportTick.row = rows
  flagged : ∀ tick ∈ ticks, tick.isClipped = some false ∨ tick.isClipped = some true
  spaced : (keptRows ticks).Pairwise fun row later =>
    budgetMs ≤ ((later.collectedMsc - row.collectedMsc : ℤ) : ℚ)
  clipped : ∀ front tick back, ticks = front ++ tick :: back → tick.isClipped = some true →
    ∃ last ∈ (keptRows front).getLast?,
      ((tick.row.collectedMsc - last.collectedMsc : ℤ) : ℚ) < budgetMs
  maximal : ∀ selected : List TickRow, selected.Sublist rows →
    (selected.Pairwise fun row later =>
      budgetMs ≤ ((later.collectedMsc - row.collectedMsc : ℤ) : ℚ)) →
    selected.length ≤ (keptRows ticks).length
  antitone : ∀ budget, budgetMs ≤ budget →
    (applyTickBudgetStats budget rows).2.ticksKept ≤ stats.ticksKept
  ticksKept : stats.ticksKept = (keptRows ticks).length
  ticksClipped : stats.ticksClipped =
    (ticks.filter fun tick => tick.isClipped = some true).length
  ticksTotal : stats.ticksTotal = rows.length
  total : stats.ticksKept + stats.ticksClipped = stats.ticksTotal

variable {budgetMs : ℚ} {rows : List TickRow}

theorem freeAt_mono (row later : TickRow) (h : collectedAt row ≤ collectedAt later) :
    freeAt budgetMs row ≤ freeAt budgetMs later := by
  simpa [freeAt, collectedAt] using h

theorem freeAt_le_collectedAt {row later : TickRow} :
    freeAt budgetMs row ≤ collectedAt later ↔
      budgetMs ≤ ((later.collectedMsc - row.collectedMsc : ℤ) : ℚ) := by
  rw [freeAt, collectedAt, Int.cast_sub, le_sub_iff_add_le, add_comm]

theorem length_keptRows_add (ticks : List TransportTick)
    (hflagged : ∀ tick ∈ ticks, tick.isClipped = some false ∨ tick.isClipped = some true) :
    (keptRows ticks).length + (ticks.filter fun tick => tick.isClipped = some true).length =
      ticks.length := by
  induction ticks with
  | nil => rfl
  | cons tick ticks ih =>
      have hrest := ih fun later hlater => hflagged later (List.mem_cons_of_mem _ hlater)
      rcases hflagged tick List.mem_cons_self with h | h
      · simp [keptRows, h] at hrest ⊢
        omega
      · simp [keptRows, h] at hrest ⊢
        omega

theorem applyTickBudgetStats_eq (budgetMs : ℚ) (hpositive : ∀ row ∈ rows, 0 < row.collectedMsc) :
    (applyTickBudgetStats budgetMs rows).1 = flagClipped budgetMs 0 rows ∧
      (applyTickBudgetStats budgetMs rows).2.ticksKept =
        (keptRows (flagClipped budgetMs 0 rows)).length ∧
      (applyTickBudgetStats budgetMs rows).2.ticksClipped =
        rows.length - (keptRows (flagClipped budgetMs 0 rows)).length ∧
      (applyTickBudgetStats budgetMs rows).2.ticksTotal = rows.length := by
  cases rows with
  | nil => simp [applyTickBudgetStats, flagClipped, keptRows]
  | cons first rest =>
      have hfirst : first.collectedMsc ≠ 0 := (hpositive first List.mem_cons_self).ne'
      simp [applyTickBudgetStats, hfirst, flagTicks_eq]

theorem mem_flagOf {marked : List (TickRow × Bool)} {tick : TransportTick}
    (h : tick ∈ marked.map flagOf) :
    tick.isClipped = some false ∨ tick.isClipped = some true := by
  obtain ⟨⟨row, flag⟩, -, rfl⟩ := List.mem_map.mp h
  cases flag
  · right
    rfl
  · left
    rfl

def collectedRow (collectedMsc : ℤ) : TickRow :=
  { timestamp := collectedMsc * 1000, timeMsc := collectedMsc, collectedMsc := collectedMsc,
    bid := 100, ask := 101 }

/-- A clipped tick follows on a kept one, as the first clock is over from the start. -/
theorem lt_of_clipped {marked : List (TickRow × Bool)} {front back : List TransportTick}
    {tick : TransportTick} (hmarked : marked = mark collectedAt (freeAt budgetMs) 0 rows)
    (hpositive : ∀ row ∈ rows, 0 < row.collectedMsc)
    (hsplit : marked.map flagOf = front ++ tick :: back) (hclipped : tick.isClipped = some true) :
    ∃ last ∈ (keptRows front).getLast?,
      ((tick.row.collectedMsc - last.collectedMsc : ℤ) : ℚ) < budgetMs := by
  obtain ⟨before, rest, rfl, rfl, hrest⟩ := List.map_eq_append_iff.mp hsplit
  obtain ⟨⟨row, flag⟩, after, rfl, rfl, rfl⟩ := List.map_eq_cons_iff.mp hrest
  have hflag : flag = false := by simpa [flagOf] using hclipped
  subst hflag
  have hlt := lt_of_dropped hmarked.symm
  have hrows : (mark collectedAt (freeAt budgetMs) 0 rows).map Prod.fst = rows :=
    map_fst_mark 0 rows
  have hmem : row ∈ rows := by
    rw [← hrows, ← hmarked]
    simp
  rw [keptRows_map_flagOf]
  cases hlast : (kept before).getLast? with
  | none =>
      rw [hlast] at hlt
      have hpos : (0 : ℚ) < collectedAt row := Int.cast_pos.mpr (hpositive row hmem)
      exact absurd hlt hpos.not_gt
  | some last =>
      refine ⟨last, rfl, ?_⟩
      simp only [hlast, Option.map_some, Option.getD_some] at hlt
      rw [← not_le, freeAt_le_collectedAt, not_le] at hlt
      exact hlt

/-- The budget clips as few ticks as a spacing by the budget allows for. -/
theorem applyTickBudget_optimal {budgetMs : ℚ} {rows : List TickRow}
    (hordered : rows.Pairwise fun row later => row.collectedMsc ≤ later.collectedMsc)
    (hpositive : ∀ row ∈ rows, 0 < row.collectedMsc) :
    OptimalThinning budgetMs rows (applyTickBudgetStats budgetMs rows).1
      (applyTickBudgetStats budgetMs rows).2 := by
  have hsorted : rows.Pairwise fun row later => collectedAt row ≤ collectedAt later :=
    hordered.imp fun {row later} hle => Int.cast_le.mpr hle
  obtain ⟨hticks, hkept, hclipped, htotal⟩ := applyTickBudgetStats_eq budgetMs hpositive
  have hflagged : ∀ tick ∈ flagClipped budgetMs 0 rows,
      tick.isClipped = some false ∨ tick.isClipped = some true := by
    rw [flagClipped_eq]
    intro tick
    exact mem_flagOf
  have hrows := PreparationIsolation.flagClipped_rows budgetMs 0 rows
  have hlength : (flagClipped budgetMs 0 rows).length = rows.length := by
    simpa using congrArg List.length hrows
  have hcount := length_keptRows_add _ hflagged
  have hmarks : keptRows (flagClipped budgetMs 0 rows) =
      kept (mark collectedAt (freeAt budgetMs) 0 rows) := by
    rw [flagClipped_eq, keptRows_map_flagOf]
  rw [hticks]
  refine ⟨hrows, hflagged, ?_, ?_, ?_, ?_, hkept, ?_, htotal, ?_⟩
  · have hspaced : Spaced collectedAt (freeAt budgetMs)
        (kept (mark collectedAt (freeAt budgetMs) 0 rows)) := spaced_kept hsorted
    rw [hmarks]
    apply List.Pairwise.imp _ hspaced
    intro row later h
    exact freeAt_le_collectedAt.mp h
  · intro front tick back hsplit
    rw [flagClipped_eq] at hsplit
    exact lt_of_clipped rfl hpositive hsplit
  · intro selected hsub hspaced
    rw [hmarks]
    apply length_le_kept freeAt_mono hsorted hsub
    · apply List.Pairwise.imp _ hspaced
      intro row later h
      exact freeAt_le_collectedAt.mpr h
    · intro row hrow
      exact Int.cast_nonneg (hpositive row (hsub.subset hrow)).le
  · intro budget hle
    obtain ⟨-, hlater, -⟩ := applyTickBudgetStats_eq budget hpositive
    have hnext : ∀ row, freeAt budgetMs row ≤ freeAt budget row := by
      intro row
      simpa [freeAt] using hle
    rw [hlater, hkept, hmarks, flagClipped_eq, keptRows_map_flagOf]
    exact length_kept_anti freeAt_mono hnext hsorted
  · rw [hclipped]
    omega
  · rw [hkept, hclipped, htotal]
    omega

/-- Of six ticks in two bursts, those at 1, 11 and 25 are kept under a budget of ten. -/
theorem applyTickBudget_optimal_bursts :
    OptimalThinning 10 ([1, 1, 5, 11, 12, 25].map collectedRow)
      (applyTickBudgetStats 10 ([1, 1, 5, 11, 12, 25].map collectedRow)).1
      (applyTickBudgetStats 10 ([1, 1, 5, 11, 12, 25].map collectedRow)).2 ∧
    (applyTickBudgetStats 10 ([1, 1, 5, 11, 12, 25].map collectedRow)).2.ticksKept = 3 :=
  ⟨applyTickBudget_optimal (by decide) (by decide), by decide +kernel⟩

end Optimality

end Finiex.TickBudget
