import Finiex.DiscoveryCaches
import Finiex.Lib.Greedy

namespace Finiex.ExtremeMoves

open Finiex.Types
open Finiex.Lib
open Finiex.Bars
open Finiex.Coverage
open Finiex.DiscoveryCaches

section Overlaps

/-- The seconds between the first and the last bar of a move. -/
def duration (move : ExtremeMove) : ℚ := secondsBetween move.startTime move.endTime

/-- The seconds that two moves have in common. -/
def shared (move other : ExtremeMove) : ℚ :=
  max 0 (secondsBetween (max move.startTime other.startTime) (min move.endTime other.endTime))

theorem secondsBetween_le {first last first' last' : Instant} (hfirst : first' ≤ first)
    (hlast : last ≤ last') : secondsBetween first last ≤ secondsBetween first' last' := by
  have hle : last - first ≤ last' - first' := sub_le_sub hlast hfirst
  unfold secondsBetween
  gcongr

theorem secondsBetween_pos {first last : Instant} (h : first < last) :
    0 < secondsBetween first last := by
  have hpos : (0 : ℚ) < (last - first : ℤ) := by exact_mod_cast sub_pos.mpr h
  unfold secondsBetween
  positivity

theorem secondsBetween_nonpos {first last : Instant} (h : last ≤ first) :
    secondsBetween first last ≤ 0 := by
  apply (secondsBetween_le le_rfl h).trans
  simp [secondsBetween]

theorem secondsBetween_nonneg {first last : Instant} (h : first ≤ last) :
    0 ≤ secondsBetween first last := by
  apply le_trans _ (secondsBetween_le le_rfl h)
  simp [secondsBetween]

theorem overlapsMove_iff {move other : ExtremeMove} (h : move.startTime ≤ move.endTime) :
    overlapsMove move other = true ↔ duration move < 2 * shared move other := by
  have hduration : 0 ≤ duration move := secondsBetween_nonneg h
  simp only [overlapsMove, Bool.and_eq_true, decide_eq_true_eq]
  rcases lt_or_ge (max move.startTime other.startTime) (min move.endTime other.endTime) with
    hlt | hge
  · have hpos := secondsBetween_pos hlt
    have hmove : 0 < secondsBetween move.startTime move.endTime :=
      hpos.trans_le (secondsBetween_le (le_max_left _ _) (min_le_left _ _))
    rw [shared, max_eq_right hpos.le, duration, lt_div_iff₀ hmove]
    constructor
    · rintro ⟨-, hhalf⟩
      linarith
    · intro hhalf
      exact ⟨⟨hlt, hmove⟩, by linarith⟩
  · rw [shared, max_eq_left (secondsBetween_nonpos hge)]
    constructor
    · rintro ⟨⟨hlt, -⟩, -⟩
      exact absurd hlt (not_lt.mpr hge)
    · intro hneg
      linarith

end Overlaps

section Windows

variable {inputs : ScanInputs} {direction : MoveDirection} {move : ExtremeMove}

theorem pairwise_sortedBars (inputs : ScanInputs) :
    inputs.sortedBars.Pairwise fun bar later => bar.timestamp ≤ later.timestamp :=
  List.pairwise_insertionSort (fun bar later : Bar => bar.timestamp ≤ later.timestamp) inputs.bars

theorem head_le_getLast {window : List Bar} {first last : Bar}
    (h : window.Pairwise fun bar later => bar.timestamp ≤ later.timestamp)
    (hfirst : window.head? = some first) (hlast : window.getLast? = some last) :
    first.timestamp ≤ last.timestamp := by
  obtain ⟨rest, rfl⟩ := List.head?_eq_some_iff.mp hfirst
  have hmem := List.mem_of_getLast? hlast
  rcases List.mem_cons.mp hmem with rfl | hmem
  · exact le_rfl
  · exact (List.pairwise_cons.mp h).1 last hmem

theorem startTime_le_endTime {bars : List Bar} {windowSize startIdx : ℕ}
    (hbars : bars.Pairwise fun bar later => bar.timestamp ≤ later.timestamp)
    (h : inputs.windowMove bars direction windowSize startIdx = some move) :
    move.startTime ≤ move.endTime := by
  have hwindow := (hbars.drop (i := startIdx)).take (i := windowSize)
  unfold ScanInputs.windowMove at h
  dsimp only at h
  split at h
  · next first last hfirst hlast =>
      split at h
      · cases h
      · split at h
        · obtain rfl := Option.some.inj h
          exact head_le_getLast hwindow hfirst hlast
        · cases h
  · cases h

theorem startTime_le_endTime_of_mem (h : move ∈ inputs.windowMoves direction) :
    move.startTime ≤ move.endTime := by
  simp only [ScanInputs.windowMoves, List.mem_flatMap, List.mem_filterMap] at h
  obtain ⟨windowSize, -, startIdx, -, hmove⟩ := h
  exact startTime_le_endTime (pairwise_sortedBars inputs) hmove

def windowAtr (inputs : ScanInputs) (windowSize startIdx : ℕ) : ℚ :=
  average (((atrs inputs.config inputs.sortedBars).drop startIdx).take windowSize)

/-- How far the bars of a window go from its first price in a direction. -/
def excursion (inputs : ScanInputs) (direction : MoveDirection) (windowSize startIdx : ℕ) : ℚ :=
  let window := (inputs.sortedBars.drop startIdx).take windowSize
  let entry := (window.head?.map Bar.open_).getD 0
  direction.pick (((window.map Bar.high).max?).getD 0 - entry)
    (entry - ((window.map Bar.low).min?).getD 0)

/-- The move of a window is large enough and not too adverse, in multiples of its true range. -/
structure Strong (inputs : ScanInputs) (direction : MoveDirection) (windowSize startIdx : ℕ) :
    Prop where
  atr : 0 < windowAtr inputs windowSize startIdx
  move : inputs.config.minAtrMultiple ≤
    excursion inputs direction windowSize startIdx / windowAtr inputs windowSize startIdx
  adverse : excursion inputs (direction.pick .short .long) windowSize startIdx /
    windowAtr inputs windowSize startIdx ≤ inputs.config.maxAdverseAtrMultiple

theorem strong_of_windowMove {windowSize startIdx : ℕ}
    (h : inputs.windowMove inputs.sortedBars direction windowSize startIdx = some move) :
    Strong inputs direction windowSize startIdx := by
  unfold ScanInputs.windowMove at h
  dsimp only at h
  split at h
  · next first last hfirst _ =>
      split at h
      · cases h
      · next hatr =>
          split at h
          · next hthresholds =>
              have hentry : ((((inputs.sortedBars.drop startIdx).take windowSize).head?.map
                  Bar.open_).getD 0) = first.open_ := by
                rw [hfirst]
                rfl
              refine ⟨not_le.mp hatr, ?_, ?_⟩
              · simp only [excursion, hentry]
                exact hthresholds.1
              · simp only [excursion, hentry]
                cases direction with
                | long => exact hthresholds.2
                | short => exact hthresholds.2
          · cases h
  · cases h

end Windows

section Listings

structure Listing (inputs : ScanInputs) (direction : MoveDirection) (listed : List ExtremeMove) :
    Prop where
  found : ∀ move ∈ listed, move ∈ inputs.windowMoves direction ∧ inDataGap inputs.gaps move = false
  strong : ∀ move ∈ listed, ∃ windowSize ∈ inputs.config.windowSizes, ∃ startIdx,
    inputs.windowMove inputs.sortedBars direction windowSize startIdx = some move ∧
      Strong inputs direction windowSize startIdx
  ranked : listed.Pairwise fun move later => later.moveAtrMultiple ≤ move.moveAtrMultiple
  apart : listed.Pairwise fun move later => 2 * shared later move ≤ duration later
  complete : ∀ move ∈ inputs.windowMoves direction, move ∉ listed →
    inDataGap inputs.gaps move = true ∨
      ∃ stronger ∈ inputs.windowMoves direction,
        (stronger ∈ listed ∨ inDataGap inputs.gaps stronger = true) ∧
          move.moveAtrMultiple ≤ stronger.moveAtrMultiple ∧
            duration move < 2 * shared move stronger

theorem pairwise_rankMoves (moves : List ExtremeMove) :
    (rankMoves moves).Pairwise fun move later => later.moveAtrMultiple ≤ move.moveAtrMultiple :=
  List.pairwise_insertionSort
    (fun move later : ExtremeMove => later.moveAtrMultiple ≤ move.moveAtrMultiple) moves

/-- Ranking again what is left of the ranked moves changes nothing. -/
theorem rankMoves_filter_deduplicateMoves (p : ExtremeMove → Bool) (moves : List ExtremeMove) :
    rankMoves ((deduplicateMoves moves).filter p) = (deduplicateMoves moves).filter p := by
  have hsub : ((deduplicateMoves moves).filter p).Sublist (rankMoves moves) :=
    List.filter_sublist.trans (Greedy.select_sublist _)
  exact ((pairwise_rankMoves moves).sublist hsub).insertionSort_eq

variable (inputs : ScanInputs) (direction : MoveDirection)

theorem listing_candidates : Listing inputs direction
    ((inputs.candidates direction).filter fun move => !inDataGap inputs.gaps move) := by
  have hmem {move : ExtremeMove} (h : move ∈ inputs.candidates direction) :
      move ∈ inputs.windowMoves direction := mem_of_deduplicateMoves h
  have hranked := pairwise_rankMoves (inputs.windowMoves direction)
  have hselected : (inputs.candidates direction).Sublist (rankMoves (inputs.windowMoves direction)) :=
    Greedy.select_sublist _
  refine ⟨?_, ?_, ?_, ?_, ?_⟩
  · intro move hmove
    obtain ⟨hcandidate, hgap⟩ := List.mem_filter.mp hmove
    exact ⟨hmem hcandidate, by simpa using hgap⟩
  · intro move hmove
    have hfound := hmem (List.mem_of_mem_filter hmove)
    simp only [ScanInputs.windowMoves, List.mem_flatMap, List.mem_filterMap] at hfound
    obtain ⟨windowSize, hsize, startIdx, -, hwindow⟩ := hfound
    exact ⟨windowSize, hsize, startIdx, hwindow, strong_of_windowMove hwindow⟩
  · exact hranked.sublist (List.filter_sublist.trans hselected)
  · have hapart : (inputs.candidates direction).Pairwise fun move later =>
        overlapsMove later move = false := Greedy.pairwise_select _
    refine (hapart.filter _).imp_of_mem ?_
    intro move later _ hlater hfalse
    have htimes := startTime_le_endTime_of_mem (hmem (List.mem_of_mem_filter hlater))
    apply not_lt.mp
    intro hlt
    rw [(overlapsMove_iff htimes).mpr hlt] at hfalse
    cases hfalse
  · intro move hmove hleft
    rcases Bool.eq_false_or_eq_true (inDataGap inputs.gaps move) with hgap | hgap
    · exact .inl hgap
    · right
      have hdropped : move ∉ inputs.candidates direction := by
        intro hcandidate
        exact hleft (List.mem_filter.mpr ⟨hcandidate, by simp [hgap]⟩)
      obtain ⟨stronger, hstronger, hrank, hoverlap⟩ :=
        Greedy.exists_of_not_mem_select hranked (mem_rankMoves.mpr hmove) hdropped
      refine ⟨stronger, hmem hstronger, ?_, hrank, ?_⟩
      · rcases Bool.eq_false_or_eq_true (inDataGap inputs.gaps stronger) with hgap' | hgap'
        · exact .inr hgap'
        · exact .inl (List.mem_filter.mpr ⟨hstronger, by simp [hgap']⟩)
      · exact (overlapsMove_iff (startTime_le_endTime_of_mem hmove)).mp hoverlap

theorem listing_result :
    Listing inputs direction (direction.pick inputs.result.longs inputs.result.shorts) := by
  have hlist := listing_candidates inputs direction
  cases direction with
  | long =>
      simp only [MoveDirection.pick, ScanInputs.result, ScanInputs.resultOf]
      rwa [show inputs.candidates .long = deduplicateMoves (inputs.windowMoves .long) from rfl,
        rankMoves_filter_deduplicateMoves]
  | short =>
      simp only [MoveDirection.pick, ScanInputs.result, ScanInputs.resultOf]
      rwa [show inputs.candidates .short = deduplicateMoves (inputs.windowMoves .short) from rfl,
        rankMoves_filter_deduplicateMoves]

/-- What a scan lists of each direction, from the bar files, the settings and the coverage report
that it finds. -/
theorem scan_lists (market : Market) (w : World) (brokerType : BrokerType) (symbol : String)
    (storage : Storage) :
    ∀ result ∈ (w.scan market brokerType symbol storage).1,
      ∃ inputs ∈ w.scanInputs market brokerType symbol storage, ∀ direction : MoveDirection,
        Listing inputs direction (direction.pick result.longs result.shorts) := by
  intro result hresult
  rw [scan_fst] at hresult
  obtain ⟨inputs, hinputs, rfl⟩ := Option.map_eq_some_iff.mp hresult
  exact ⟨inputs, hinputs, listing_result inputs⟩

/-- Three bars that rise from the same price, in windows of three and of two. -/
def risingWorld : World :=
  startWorld { extremeMoves := { minAtrMultiple := 1, windowSizes := [3, 2] } }
    (oneBarFile [barFrom 0, barFrom 5, barFrom 10]) .m5

theorem scan_lists_rising :
    ∃ result ∈ (risingWorld.scan spotMarket .krakenSpot "BTCUSD" {}).1,
      result.longs.map ExtremeMove.barCount = [3] ∧ result.shorts = [] ∧
        ∃ inputs ∈ risingWorld.scanInputs spotMarket .krakenSpot "BTCUSD" {},
          inputs.sortedBars.length = 3 ∧ ∀ direction : MoveDirection,
            Listing inputs direction (direction.pick result.longs result.shorts) := by
  have hsome : (risingWorld.scan spotMarket .krakenSpot "BTCUSD" {}).1.isSome := by decide +kernel
  obtain ⟨result, hresult⟩ := Option.isSome_iff_exists.mp hsome
  have hlisted : (risingWorld.scan spotMarket .krakenSpot "BTCUSD" {}).1.map
      (fun result => (result.longs.map ExtremeMove.barCount, result.shorts)) = some ([3], []) := by
    decide +kernel
  have hbars : (risingWorld.scanInputs spotMarket .krakenSpot "BTCUSD" {}).map
      (fun inputs => inputs.sortedBars.length) = some 3 := by
    decide +kernel
  obtain ⟨inputs, hinputs, hlisting⟩ :=
    scan_lists spotMarket risingWorld .krakenSpot "BTCUSD" {} result hresult
  rw [hresult] at hlisted
  rw [hinputs] at hbars
  obtain ⟨hlongs, hshorts⟩ := Prod.mk.inj (Option.some.inj hlisted)
  exact ⟨result, hresult, hlongs, hshorts, inputs, hinputs, Option.some.inj hbars, hlisting⟩

end Listings

end Finiex.ExtremeMoves
