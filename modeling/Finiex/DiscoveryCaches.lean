import Finiex.Coverage
import Finiex.Lib.Run
import Finiex.Lib.Rounding
import Mathlib.Data.Int.ConditionallyCompleteOrder
import Mathlib.Order.ConditionallyCompleteLattice.Basic

/-!
# Discovery caches

The caches of the coverage reports and of the extreme moves, in sequences of calls between which
bar files are rewritten and the settings of the discoveries change.
-/

namespace Finiex.DiscoveryCaches

open Finiex.Types
open Finiex.Lib
open Finiex.Lib.Run
open Finiex.Lib.Rounding
open Finiex.Bars
open Finiex.Coverage

section Moves

inductive BrokerType
  | mt5Forex | mt5Cfd | mt5Crypto | krakenSpot | binanceFutures
  deriving DecidableEq

def BrokerType.value : BrokerType → String
  | .mt5Forex => "mt5"
  | .mt5Cfd => "mt5_cfd"
  | .mt5Crypto => "mt5_crypto"
  | .krakenSpot => "kraken_spot"
  | .binanceFutures => "binance_futures"

inductive MoveDirection
  | long | short
  deriving DecidableEq

/-- What is measured upwards for a long move, and downwards for a short one. -/
def MoveDirection.pick {α : Type} (direction : MoveDirection) (long short : α) : α :=
  match direction with
  | .long => long
  | .short => short

structure ExtremeMovesConfig where
  timeframe : Timeframe := .m5
  atrPeriod : ℕ := 14
  minAtrMultiple : ℚ := 3
  maxAdverseAtrMultiple : ℚ := 3 / 2
  windowSizes : List ℕ := [200, 500, 1000, 2000]
  positive : ∀ size ∈ windowSizes, 0 < size := by decide

structure SymbolSpecification where
  digits : ℕ
  pipSize : ℚ

structure ExtremeMove where
  brokerType : BrokerType
  symbol : String
  timeframe : Timeframe
  direction : MoveDirection
  startTime : Instant
  endTime : Instant
  barCount : ℕ
  entryPrice : ℚ
  extremePrice : ℚ
  exitPrice : ℚ
  movePips : ℚ
  moveAtrMultiple : ℚ
  maxAdversePips : ℚ
  windowAtr : ℚ
  tickCount : ℕ
  deriving DecidableEq

structure ExtremeMoveResult where
  brokerType : BrokerType
  symbol : String
  timeframe : Timeframe
  longs : List ExtremeMove
  shorts : List ExtremeMove
  scannedBars : ℕ
  avgAtr : Option ℚ
  pipSize : ℚ
  deriving DecidableEq

/-- What a scan depends on: of the coverage report it reads the gaps. -/
structure ScanInputs where
  brokerType : BrokerType
  symbol : String
  config : ExtremeMovesConfig
  specification : SymbolSpecification
  bars : List Bar
  gaps : List Gap

def average (values : List ℚ) : ℚ := values.sum / values.length

def trueRange (previousClose : Option ℚ) (bar : Bar) : ℚ :=
  match previousClose with
  | none => bar.high - bar.low
  | some close => max (max (bar.high - bar.low) |bar.high - close|) |bar.low - close|

def trueRanges : Option ℚ → List Bar → List ℚ
  | _, [] => []
  | previousClose, bar :: bars => trueRange previousClose bar :: trueRanges (some bar.close) bars

/-- The exponential mean of a column, without adjustment. -/
def smoothed (alpha : ℚ) : Option ℚ → List ℚ → List ℚ
  | _, [] => []
  | none, x :: xs => x :: smoothed alpha (some x) xs
  | some last, x :: xs =>
      ((1 - alpha) * last + alpha * x) :: smoothed alpha (some ((1 - alpha) * last + alpha * x)) xs

def atrs (config : ExtremeMovesConfig) (bars : List Bar) : List ℚ :=
  smoothed (2 / (config.atrPeriod + 1)) none (trueRanges none bars)

def windowStarts (totalBars windowSize : ℕ) : List ℕ :=
  if totalBars < windowSize then []
  else
    let step := max 1 (windowSize / 4)
    (List.range ((totalBars - windowSize) / step + 1)).map (· * step)

namespace ScanInputs

/-- The move of a window in a direction, if it is large enough and not too adverse. -/
def windowMove (inputs : ScanInputs) (bars : List Bar) (direction : MoveDirection)
    (windowSize startIdx : ℕ) : Option ExtremeMove :=
  let window := (bars.drop startIdx).take windowSize
  let windowAtr := average (((atrs inputs.config bars).drop startIdx).take windowSize)
  match window.head?, window.getLast? with
  | some first, some last =>
      let windowHigh := ((window.map Bar.high).max?).getD 0
      let windowLow := ((window.map Bar.low).min?).getD 0
      let upward := windowHigh - first.open_
      let downward := first.open_ - windowLow
      let move := direction.pick upward downward
      let adverse := direction.pick downward upward
      if windowAtr ≤ 0 then none
      else if inputs.config.minAtrMultiple ≤ move / windowAtr ∧
          adverse / windowAtr ≤ inputs.config.maxAdverseAtrMultiple then
        some {
          brokerType := inputs.brokerType
          symbol := inputs.symbol
          timeframe := inputs.config.timeframe
          direction := direction
          startTime := first.timestamp
          endTime := last.timestamp
          barCount := windowSize
          entryPrice := first.open_
          extremePrice := direction.pick windowHigh windowLow
          exitPrice := last.close
          movePips := roundTo 1 (move / inputs.specification.pipSize)
          moveAtrMultiple := roundTo 2 (move / windowAtr)
          maxAdversePips := roundTo 1 (adverse / inputs.specification.pipSize)
          windowAtr := roundTo inputs.specification.digits windowAtr
          tickCount := (window.map Bar.tickCount).sum }
      else none
  | _, _ => none

def sortedBars (inputs : ScanInputs) : List Bar :=
  inputs.bars.insertionSort fun bar later => bar.timestamp ≤ later.timestamp

def windowMoves (inputs : ScanInputs) (direction : MoveDirection) : List ExtremeMove :=
  inputs.config.windowSizes.flatMap fun windowSize =>
    (windowStarts inputs.sortedBars.length windowSize).filterMap
      (inputs.windowMove inputs.sortedBars direction windowSize)

end ScanInputs

def rankMoves (moves : List ExtremeMove) : List ExtremeMove :=
  moves.insertionSort fun move later => later.moveAtrMultiple ≤ move.moveAtrMultiple

def overlapsMove (candidate existing : ExtremeMove) : Bool :=
  let overlapStart := max candidate.startTime existing.startTime
  let overlapEnd := min candidate.endTime existing.endTime
  let candidateBars := secondsBetween candidate.startTime candidate.endTime
  decide (overlapStart < overlapEnd) && decide (0 < candidateBars) &&
    decide (1 / 2 < secondsBetween overlapStart overlapEnd / candidateBars)

def deduplicateMoves (moves : List ExtremeMove) : List ExtremeMove :=
  (rankMoves moves).foldl (fun kept candidate =>
    if kept.any (overlapsMove candidate) then kept else kept ++ [candidate]) []

def inDataGap (gaps : List Gap) (move : ExtremeMove) : Bool :=
  gaps.any fun gap => decide (gap.category ∈ [GapCategory.weekend, .holiday, .large]) &&
    decide (gap.gapStart ≤ move.startTime) && decide (move.startTime ≤ gap.gapEnd)

namespace ScanInputs

/-- The moves of a direction before the gaps of the data are looked at. -/
def candidates (inputs : ScanInputs) (direction : MoveDirection) : List ExtremeMove :=
  deduplicateMoves (inputs.windowMoves direction)

def resultOf (inputs : ScanInputs) (longs shorts : List ExtremeMove) : ExtremeMoveResult where
  brokerType := inputs.brokerType
  symbol := inputs.symbol
  timeframe := inputs.config.timeframe
  longs := rankMoves longs
  shorts := rankMoves shorts
  scannedBars := inputs.sortedBars.length
  avgAtr := if inputs.bars = [] then none
    else some (roundTo inputs.specification.digits
      (average (atrs inputs.config inputs.sortedBars)))
  pipSize := inputs.specification.pipSize

def result (inputs : ScanInputs) : ExtremeMoveResult :=
  inputs.resultOf ((inputs.candidates .long).filter fun move => !inDataGap inputs.gaps move)
    ((inputs.candidates .short).filter fun move => !inDataGap inputs.gaps move)

end ScanInputs

end Moves

section Caches

structure BarFile where
  bars : List Bar
  modified : ℚ

structure DiscoveriesConfig where
  dataCoverage : CoverageConfig := {}
  extremeMoves : ExtremeMovesConfig := {}

structure CoverageCacheFile where
  gaps : List Gap
  gapCounts : List (GapCategory × ℕ)
  startTime : Option Instant
  endTime : Option Instant
  sourceBarMtime : ℚ
  granularity : Timeframe

structure MovesCacheFile where
  rows : List ExtremeMove
  timeframe : Timeframe
  avgAtr : Option ℚ
  pipSize : ℚ
  scannedBars : ℕ
  sourceBarMtime : ℚ

/-- What stays as it is: when the markets close, and the symbols of the brokers. -/
structure Market where
  closes : BrokerType → Bool
  specification : BrokerType → String → Option SymbolSpecification

/-- The settings and the files, with the granularity that the coverage cache has been opened
with. -/
structure World where
  config : DiscoveriesConfig
  barFile : BrokerType → String → Timeframe → Option BarFile
  granularity : Timeframe
  coverageCache : Dict String CoverageCacheFile := ∅
  movesCache : Dict String MovesCacheFile := ∅

/-- Whether a file of a cache can be read and written. -/
structure Storage where
  readable : Bool := true
  writable : Bool := true

def coverageCachePath (brokerType : BrokerType) (symbol : String) : String :=
  brokerType.value ++ "_" ++ symbol

def movesCachePath (brokerType : BrokerType) (symbol : String) : String :=
  brokerType.value ++ "_" ++ symbol ++ "_extreme_moves"

def CoverageCacheFile.load (file : CoverageCacheFile) : DataCoverageReport where
  gaps := file.gaps
  gapCounts := file.gapCounts
  startTime := file.startTime
  endTime := file.endTime

def MovesCacheFile.load (file : MovesCacheFile) (brokerType : BrokerType) (symbol : String) :
    ExtremeMoveResult :=
  let moves := file.rows.map fun row =>
    { row with brokerType := brokerType, symbol := symbol, timeframe := file.timeframe }
  { brokerType := brokerType
    symbol := symbol
    timeframe := file.timeframe
    longs := moves.filter fun move => move.direction = .long
    shorts := moves.filter fun move => move.direction ≠ .long
    scannedBars := file.scannedBars
    avgAtr := file.avgAtr
    pipSize := file.pipSize }

namespace World

variable (market : Market) (w : World) (brokerType : BrokerType) (symbol : String)

def bars (timeframe : Timeframe) : List Bar :=
  ((w.barFile brokerType symbol timeframe).map BarFile.bars).getD []

/-- `_get_source_bar_mtime`, at a granularity. -/
def sourceBarMtime (granularity : Timeframe) : Option ℚ :=
  (w.barFile brokerType symbol granularity).map BarFile.modified

def freshReport : DataCoverageReport :=
  analyze w.config.dataCoverage (market.closes brokerType)
    (w.bars brokerType symbol w.config.dataCoverage.granularity)

def validReport (granularity : Timeframe) (storage : Storage) : Option CoverageCacheFile :=
  ((w.coverageCache.get? (coverageCachePath brokerType symbol)).filter fun file =>
    storage.readable && decide (file.granularity = granularity)).filter fun file =>
      (w.sourceBarMtime brokerType symbol granularity).any fun modified =>
        decide (modified ≤ file.sourceBarMtime)

def saveReport (granularity : Timeframe) (storage : Storage) (report : DataCoverageReport) : World :=
  if storage.writable then
    { w with coverageCache := w.coverageCache.set (coverageCachePath brokerType symbol) {
        gaps := report.gaps
        gapCounts := report.gapCounts
        startTime := report.startTime
        endTime := report.endTime
        sourceBarMtime := (w.sourceBarMtime brokerType symbol granularity).getD 0
        granularity := granularity } }
  else w

def getReport (granularity : Timeframe) (forceRebuild : Bool) (storage : Storage) :
    DataCoverageReport × World :=
  match if forceRebuild then none else w.validReport brokerType symbol granularity storage with
  | some file => (file.load, w)
  | none =>
      (w.freshReport market brokerType symbol,
        w.saveReport brokerType symbol granularity storage
          (w.freshReport market brokerType symbol))

/-- `_filter_by_tick_coverage`: the report is read through a cache that is opened for the scan. -/
def filterByTickCoverage (storage : Storage) (moves : List ExtremeMove) :
    List ExtremeMove × World :=
  if moves = [] then ([], w)
  else
    let (report, w') :=
      w.getReport market brokerType symbol w.config.dataCoverage.granularity false storage
    (moves.filter fun move => !inDataGap report.gaps move, w')

/-- What a scan depends on, with the gaps that it reads; without a specification or a bar file
there is no scan. -/
def inputsWith (gaps : List Gap) : Option ScanInputs :=
  match market.specification brokerType symbol,
    w.barFile brokerType symbol w.config.extremeMoves.timeframe with
  | some specification, some file => some {
      brokerType := brokerType
      symbol := symbol
      config := w.config.extremeMoves
      specification := specification
      bars := file.bars
      gaps := gaps }
  | _, _ => none

def scanGaps (storage : Storage) : List Gap :=
  (w.getReport market brokerType symbol w.config.dataCoverage.granularity false storage).1.gaps

def scanInputs (storage : Storage) : Option ScanInputs :=
  w.inputsWith market brokerType symbol (w.scanGaps market brokerType symbol storage)

/-- `scan`; nothing is returned where it raises. -/
def scan (storage : Storage) : Option ExtremeMoveResult × World :=
  match w.scanInputs market brokerType symbol storage with
  | none => (none, w)
  | some inputs =>
      let (longs, w₁) := w.filterByTickCoverage market brokerType symbol storage
        (inputs.candidates .long)
      let (shorts, w₂) := w₁.filterByTickCoverage market brokerType symbol storage
        (inputs.candidates .short)
      (some (inputs.resultOf longs shorts), w₂)

/-- The cached moves that are valid: those of a bar file of five minutes that is not newer. -/
def validMoves (storage : Storage) : Option MovesCacheFile :=
  ((w.movesCache.get? (movesCachePath brokerType symbol)).filter fun _ => storage.readable).filter
    fun file => (w.sourceBarMtime brokerType symbol .m5).any fun modified =>
      decide (modified ≤ file.sourceBarMtime)

def saveMoves (storage : Storage) (result : ExtremeMoveResult) : World :=
  if storage.writable then
    { w with movesCache := w.movesCache.set (movesCachePath brokerType symbol) {
        rows := result.longs ++ result.shorts
        timeframe := result.timeframe
        avgAtr := result.avgAtr
        pipSize := result.pipSize
        scannedBars := result.scannedBars
        sourceBarMtime := (w.sourceBarMtime brokerType symbol .m5).getD 0 } }
  else w

def getExtremeMoves (forceRebuild : Bool) (storage : Storage) : Option ExtremeMoveResult × World :=
  match if forceRebuild then none else w.validMoves brokerType symbol storage with
  | some file => (some (file.load brokerType symbol), w)
  | none =>
      match w.scan market brokerType symbol storage with
      | (some result, w') => (some result, w'.saveMoves brokerType symbol storage result)
      | (none, w') => (none, w')

def rewrite (timeframe : Timeframe) (file : Option BarFile) : World :=
  { w with barFile := fun b s t =>
      if b = brokerType ∧ s = symbol ∧ t = timeframe then file else w.barFile b s t }

end World

inductive Op
  | rewrite (brokerType : BrokerType) (symbol : String) (timeframe : Timeframe)
      (file : Option BarFile)
  | configure (config : DiscoveriesConfig)
  | openCache
  | clearCache
  | getReport (brokerType : BrokerType) (symbol : String) (forceRebuild : Bool) (storage : Storage)
  | getExtremeMoves (brokerType : BrokerType) (symbol : String) (forceRebuild : Bool)
      (storage : Storage)

def World.step (market : Market) (w : World) : Op → World
  | .rewrite brokerType symbol timeframe file => w.rewrite brokerType symbol timeframe file
  | .configure config => { w with config := config }
  | .openCache => { w with granularity := w.config.dataCoverage.granularity }
  | .clearCache => { w with coverageCache := ∅, movesCache := ∅ }
  | .getReport brokerType symbol forceRebuild storage =>
      (w.getReport market brokerType symbol w.granularity forceRebuild storage).2
  | .getExtremeMoves brokerType symbol forceRebuild storage =>
      (w.getExtremeMoves market brokerType symbol forceRebuild storage).2

def discoveryStep (market : Market) (w : World) (op : Op) : Except Empty World :=
  .ok (w.step market op)

def startWorld (config : DiscoveriesConfig)
    (barFile : BrokerType → String → Timeframe → Option BarFile) (granularity : Timeframe) :
    World where
  config := config
  barFile := barFile
  granularity := granularity

end Caches

section Scanning

variable {market : Market} {w : World} {brokerType : BrokerType} {symbol : String}
  {storage : Storage}

/-- Two states have the same settings and the same bar files. -/
def SameSettings (w w' : World) : Prop := w'.config = w.config ∧ w'.barFile = w.barFile

theorem sameSettings_saveReport (granularity : Timeframe) (report : DataCoverageReport) :
    SameSettings w (w.saveReport brokerType symbol granularity storage report) := by
  unfold World.saveReport
  split <;> exact ⟨rfl, rfl⟩

theorem sameSettings_getReport (granularity : Timeframe) (forceRebuild : Bool) :
    SameSettings w
      (w.getReport market brokerType symbol granularity forceRebuild storage).2 := by
  unfold World.getReport
  split
  · exact ⟨rfl, rfl⟩
  · exact sameSettings_saveReport granularity _

theorem sameSettings_filterByTickCoverage (moves : List ExtremeMove) :
    SameSettings w (w.filterByTickCoverage market brokerType symbol storage moves).2 := by
  unfold World.filterByTickCoverage
  split
  · exact ⟨rfl, rfl⟩
  · exact sameSettings_getReport _ _

theorem sameSettings_scan : SameSettings w (w.scan market brokerType symbol storage).2 := by
  unfold World.scan
  split
  · exact ⟨rfl, rfl⟩
  · next inputs _ =>
      have hlongs := @sameSettings_filterByTickCoverage market w brokerType symbol storage
        (inputs.candidates .long)
      have hshorts := @sameSettings_filterByTickCoverage market
        (w.filterByTickCoverage market brokerType symbol storage (inputs.candidates .long)).2
        brokerType symbol storage (inputs.candidates .short)
      exact ⟨hshorts.1.trans hlongs.1, hshorts.2.trans hlongs.2⟩

theorem freshReport_saveReport (granularity : Timeframe) (report : DataCoverageReport) :
    (w.saveReport brokerType symbol granularity storage report).freshReport market brokerType
      symbol = w.freshReport market brokerType symbol := by
  unfold World.saveReport
  split <;> rfl

theorem load_of_validReport_saveReport {granularity : Timeframe} {file : CoverageCacheFile}
    (hnone : w.validReport brokerType symbol granularity storage = none)
    (h : (w.saveReport brokerType symbol granularity storage
      (w.freshReport market brokerType symbol)).validReport brokerType symbol granularity storage =
        some file) : file.load = w.freshReport market brokerType symbol := by
  unfold World.saveReport at h
  split at h
  · simp only [World.validReport, Dict.get?_set_self, Option.filter_eq_some_iff] at h
    rw [← Option.some.inj h.1.1]
    rfl
  · rw [hnone] at h
    cases h

theorem getReport_again (granularity : Timeframe) :
    ((w.getReport market brokerType symbol granularity false storage).2.getReport market brokerType
      symbol granularity false storage).1 =
        (w.getReport market brokerType symbol granularity false storage).1 := by
  cases hvalid : w.validReport brokerType symbol granularity storage with
  | some file => simp [World.getReport, hvalid]
  | none =>
      have hfirst : w.getReport market brokerType symbol granularity false storage =
          (w.freshReport market brokerType symbol,
            w.saveReport brokerType symbol granularity storage
              (w.freshReport market brokerType symbol)) := by
        simp [World.getReport, hvalid]
      rw [hfirst, World.getReport]
      simp only [Bool.false_eq_true, if_false]
      split
      · next file hagain => exact load_of_validReport_saveReport hvalid hagain
      · exact freshReport_saveReport granularity _

theorem filterByTickCoverage_fst (moves : List ExtremeMove) :
    (w.filterByTickCoverage market brokerType symbol storage moves).1 =
      moves.filter fun move => !inDataGap (w.scanGaps market brokerType symbol storage) move := by
  unfold World.filterByTickCoverage
  split
  · next hempty => simp [hempty]
  · rfl

theorem scanGaps_filterByTickCoverage (moves : List ExtremeMove) :
    (w.filterByTickCoverage market brokerType symbol storage moves).2.scanGaps market brokerType
      symbol storage = w.scanGaps market brokerType symbol storage := by
  unfold World.filterByTickCoverage
  split
  · rfl
  · rw [World.scanGaps, (sameSettings_getReport _ _).1]
    exact congrArg (fun report : DataCoverageReport => report.gaps) (getReport_again _)

theorem gaps_of_inputsWith {gaps : List Gap} {inputs : ScanInputs}
    (h : w.inputsWith market brokerType symbol gaps = some inputs) : inputs.gaps = gaps := by
  unfold World.inputsWith at h
  split at h
  · cases h
    rfl
  · cases h

theorem scan_fst : (w.scan market brokerType symbol storage).1 =
    (w.scanInputs market brokerType symbol storage).map ScanInputs.result := by
  unfold World.scan
  cases hinputs : w.scanInputs market brokerType symbol storage with
  | none => rfl
  | some inputs =>
      have hgaps := gaps_of_inputsWith hinputs
      simp only [Option.map_some, filterByTickCoverage_fst, scanGaps_filterByTickCoverage,
        ScanInputs.result, hgaps]

/-- A move is labelled with what has been scanned. -/
structure Labelled (inputs : ScanInputs) (direction : MoveDirection) (move : ExtremeMove) : Prop where
  brokerType : move.brokerType = inputs.brokerType
  symbol : move.symbol = inputs.symbol
  timeframe : move.timeframe = inputs.config.timeframe
  direction : move.direction = direction

theorem labelled_windowMove {inputs : ScanInputs} {bars : List Bar} {direction : MoveDirection}
    {windowSize startIdx : ℕ} {move : ExtremeMove}
    (h : inputs.windowMove bars direction windowSize startIdx = some move) :
    Labelled inputs direction move := by
  unfold ScanInputs.windowMove at h
  dsimp only at h
  split at h
  · split at h
    · cases h
    · split at h
      · cases h
        exact ⟨rfl, rfl, rfl, rfl⟩
      · cases h
  · cases h

theorem mem_rankMoves {moves : List ExtremeMove} {move : ExtremeMove} :
    move ∈ rankMoves moves ↔ move ∈ moves :=
  List.mem_insertionSort _

theorem mem_of_deduplicateMoves {moves : List ExtremeMove} {move : ExtremeMove}
    (h : move ∈ deduplicateMoves moves) : move ∈ moves := by
  have hkept (ranked kept : List ExtremeMove)
      (h : move ∈ ranked.foldl (fun kept candidate =>
        if kept.any (overlapsMove candidate) then kept else kept ++ [candidate]) kept) :
      move ∈ kept ∨ move ∈ ranked := by
    induction ranked generalizing kept with
    | nil => exact .inl h
    | cons candidate ranked ih =>
        rcases ih _ h with hmem | hmem
        · dsimp only at hmem
          split at hmem
          · exact .inl hmem
          · simp only [List.mem_append, List.mem_singleton] at hmem
            rcases hmem with hmem | rfl
            · exact .inl hmem
            · exact .inr List.mem_cons_self
        · exact .inr (List.mem_cons_of_mem _ hmem)
  rcases hkept _ _ h with hmem | hmem
  · cases hmem
  · exact mem_rankMoves.mp hmem

theorem labelled_candidates {inputs : ScanInputs} {direction : MoveDirection} {move : ExtremeMove}
    (h : move ∈ inputs.candidates direction) : Labelled inputs direction move := by
  have hmove := mem_of_deduplicateMoves h
  simp only [ScanInputs.windowMoves, List.mem_flatMap, List.mem_filterMap] at hmove
  obtain ⟨windowSize, -, startIdx, -, hmove⟩ := hmove
  exact labelled_windowMove hmove

/-- Rows of labelled moves are read back as they were written, the long ones apart. -/
theorem read_rows {inputs : ScanInputs} {longs shorts : List ExtremeMove}
    (hlongs : ∀ move ∈ longs, Labelled inputs .long move)
    (hshorts : ∀ move ∈ shorts, Labelled inputs .short move) :
    ((longs ++ shorts).map fun row => ({ row with
        brokerType := inputs.brokerType
        symbol := inputs.symbol
        timeframe := inputs.config.timeframe } : ExtremeMove)) = longs ++ shorts ∧
      (longs ++ shorts).filter (fun move => move.direction = .long) = longs ∧
      (longs ++ shorts).filter (fun move => move.direction ≠ .long) = shorts := by
  refine ⟨?_, ?_, ?_⟩
  · refine (List.map_congr_left ?_).trans (List.map_id _)
    intro row hrow
    rcases List.mem_append.mp hrow with hlong | hshort
    · rw [← (hlongs row hlong).brokerType, ← (hlongs row hlong).symbol,
        ← (hlongs row hlong).timeframe]
      rfl
    · rw [← (hshorts row hshort).brokerType, ← (hshorts row hshort).symbol,
        ← (hshorts row hshort).timeframe]
      rfl
  · rw [List.filter_append, List.filter_eq_self.mpr, List.filter_eq_nil_iff.mpr, List.append_nil]
    · intro move hmove
      simp [(hshorts move hmove).direction]
    · intro move hmove
      simp [(hlongs move hmove).direction]
  · rw [List.filter_append, List.filter_eq_nil_iff.mpr, List.filter_eq_self.mpr, List.nil_append]
    · intro move hmove
      simp [(hshorts move hmove).direction]
    · intro move hmove
      simp [(hlongs move hmove).direction]

theorem labelled_result (inputs : ScanInputs) :
    (∀ move ∈ inputs.result.longs, Labelled inputs .long move) ∧
      ∀ move ∈ inputs.result.shorts, Labelled inputs .short move := by
  constructor
  · intro move hmove
    exact labelled_candidates (List.mem_of_mem_filter (mem_rankMoves.mp hmove))
  · intro move hmove
    exact labelled_candidates (List.mem_of_mem_filter (mem_rankMoves.mp hmove))

/-- Saved moves are read back. -/
theorem load_result {inputs : ScanInputs} (modified : ℚ) :
    (MovesCacheFile.load {
        rows := inputs.result.longs ++ inputs.result.shorts
        timeframe := inputs.result.timeframe
        avgAtr := inputs.result.avgAtr
        pipSize := inputs.result.pipSize
        scannedBars := inputs.result.scannedBars
        sourceBarMtime := modified } inputs.brokerType inputs.symbol) = inputs.result := by
  obtain ⟨hlongs, hshorts⟩ := labelled_result inputs
  obtain ⟨hrows, hlong, hshort⟩ := read_rows hlongs hshorts
  have htimeframe : inputs.result.timeframe = inputs.config.timeframe := rfl
  simp only [MovesCacheFile.load, htimeframe, hrows, hlong, hshort]
  rfl

theorem labels_of_inputsWith {gaps : List Gap} {inputs : ScanInputs}
    (h : w.inputsWith market brokerType symbol gaps = some inputs) :
    inputs.brokerType = brokerType ∧ inputs.symbol = symbol := by
  unfold World.inputsWith at h
  split at h
  · cases h
    exact ⟨rfl, rfl⟩
  · cases h

end Scanning

section Serving

variable {market : Market}

def Op.called : Op → Option (BrokerType × String)
  | .getReport brokerType symbol _ _ | .getExtremeMoves brokerType symbol _ _ =>
      some (brokerType, symbol)
  | _ => none

/-- A call returns what a fresh analysis, or a fresh scan, returns at that moment. -/
def Transparent (market : Market) (w : World) : Op → Prop
  | .getReport brokerType symbol forceRebuild storage =>
      (w.getReport market brokerType symbol w.granularity forceRebuild storage).1 =
        w.freshReport market brokerType symbol
  | .getExtremeMoves brokerType symbol forceRebuild storage =>
      (w.getExtremeMoves market brokerType symbol forceRebuild storage).1 =
        (w.scan market brokerType symbol storage).1
  | _ => True

/-- There is a bar file, and it is not newer than noted. -/
def World.UpToDate (w : World) (brokerType : BrokerType) (symbol : String) (timeframe : Timeframe)
    (noted : ℚ) : Prop :=
  ∃ modified ∈ w.sourceBarMtime brokerType symbol timeframe, modified ≤ noted

/-- A report at a granularity depends on the same in two states. -/
structure SameReport (w w' : World) (brokerType : BrokerType) (symbol : String)
    (granularity : Timeframe) : Prop where
  thresholds : w'.config.dataCoverage.thresholds = w.config.dataCoverage.thresholds
  timestamps : (w'.bars brokerType symbol granularity).map Bar.timestamp =
    (w.bars brokerType symbol granularity).map Bar.timestamp

structure SameMoves (w w' : World) (brokerType : BrokerType) (symbol : String) : Prop where
  settings : w'.config.extremeMoves = w.config.extremeMoves
  bars : (w'.barFile brokerType symbol w.config.extremeMoves.timeframe).map BarFile.bars =
    (w.barFile brokerType symbol w.config.extremeMoves.timeframe).map BarFile.bars
  granularity : w'.config.dataCoverage.granularity = w.config.dataCoverage.granularity
  report : SameReport w w' brokerType symbol w.config.dataCoverage.granularity

/-- A change of the files or of the settings is noticed: what is cached for a symbol is out of date
afterwards, or it was up to date before and depends on the same. -/
structure Noticed (w w' : World) (brokerType : BrokerType) (symbol : String) : Prop where
  reports : ∀ file ∈ w.coverageCache.get? (coverageCachePath brokerType symbol),
    w'.UpToDate brokerType symbol file.granularity file.sourceBarMtime →
      w.UpToDate brokerType symbol file.granularity file.sourceBarMtime ∧
        SameReport w w' brokerType symbol file.granularity
  moves : ∀ file ∈ w.movesCache.get? (movesCachePath brokerType symbol),
    w'.UpToDate brokerType symbol .m5 file.sourceBarMtime →
      w.UpToDate brokerType symbol .m5 file.sourceBarMtime ∧ SameMoves w w' brokerType symbol

/-- What a step must meet for the caches of a symbol to notice what changes: calls write its cache
files for no other symbol, and its reports through an instance of the configured granularity. -/
def Noticeable (brokerType : BrokerType) (symbol : String) (w : World) : Op → Prop
  | .rewrite broker name timeframe file =>
      Noticed w (w.rewrite broker name timeframe file) brokerType symbol
  | .configure config => Noticed w { w with config := config } brokerType symbol
  | .openCache | .clearCache => True
  | .getReport broker name _ _ =>
      coverageCachePath broker name = coverageCachePath brokerType symbol →
        (broker, name) = (brokerType, symbol) ∧ w.granularity = w.config.dataCoverage.granularity
  | .getExtremeMoves broker name _ _ =>
      coverageCachePath broker name = coverageCachePath brokerType symbol →
        (broker, name) = (brokerType, symbol)

def World.reportAt (market : Market) (w : World) (brokerType : BrokerType) (symbol : String)
    (granularity : Timeframe) : DataCoverageReport :=
  analyze { w.config.dataCoverage with granularity := granularity } (market.closes brokerType)
    (w.bars brokerType symbol granularity)

def World.freshMoves (market : Market) (w : World) (brokerType : BrokerType) (symbol : String) :
    Option ExtremeMoveResult :=
  (w.inputsWith market brokerType symbol (w.freshReport market brokerType symbol).gaps).map
    ScanInputs.result

/-- What is cached for a symbol and up to date is what there is now. -/
structure Consistent (market : Market) (brokerType : BrokerType) (symbol : String) (w : World) :
    Prop where
  reports : ∀ file ∈ w.coverageCache.get? (coverageCachePath brokerType symbol),
    w.UpToDate brokerType symbol file.granularity file.sourceBarMtime →
      file.load = w.reportAt market brokerType symbol file.granularity
  moves : ∀ file ∈ w.movesCache.get? (movesCachePath brokerType symbol),
    w.UpToDate brokerType symbol .m5 file.sourceBarMtime →
      some (file.load brokerType symbol) = w.freshMoves market brokerType symbol

variable {w w' : World} {brokerType : BrokerType} {symbol : String} {storage : Storage}

theorem freshReport_eq : w.freshReport market brokerType symbol =
    w.reportAt market brokerType symbol w.config.dataCoverage.granularity := rfl

theorem analyze_congr {config config' : CoverageConfig} {bars bars' : List Bar} {closes : Bool}
    (hgranularity : config'.granularity = config.granularity)
    (hthresholds : config'.thresholds = config.thresholds)
    (htimestamps : bars'.map Bar.timestamp = bars.map Bar.timestamp) :
    analyze config' closes bars' = analyze config closes bars := by
  have hgaps : detectGapsFromBars config' closes bars' = detectGapsFromBars config closes bars := by
    simp only [detectGapsFromBars, hgranularity, hthresholds, htimestamps]
  have hhead : bars'.head?.map Bar.timestamp = bars.head?.map Bar.timestamp := by
    rw [← List.head?_map, ← List.head?_map, htimestamps]
  have hlast : bars'.getLast?.map Bar.timestamp = bars.getLast?.map Bar.timestamp := by
    rw [← List.getLast?_map, ← List.getLast?_map, htimestamps]
  simp only [analyze, hgaps, hhead, hlast]

theorem SameReport.reportAt_eq {granularity : Timeframe}
    (h : SameReport w w' brokerType symbol granularity) :
    w'.reportAt market brokerType symbol granularity =
      w.reportAt market brokerType symbol granularity :=
  analyze_congr rfl h.thresholds h.timestamps

theorem SameMoves.freshMoves_eq (h : SameMoves w w' brokerType symbol) :
    w'.freshMoves market brokerType symbol = w.freshMoves market brokerType symbol := by
  have hreport : w'.freshReport market brokerType symbol =
      w.freshReport market brokerType symbol := by
    rw [freshReport_eq, freshReport_eq, h.granularity, h.report.reportAt_eq]
  have hbars := h.bars
  unfold World.freshMoves World.inputsWith
  rw [hreport, h.settings]
  cases hfile : w.barFile brokerType symbol w.config.extremeMoves.timeframe with
  | none =>
      rw [hfile, Option.map_none, Option.map_eq_none_iff] at hbars
      rw [hbars]
  | some file =>
      rw [hfile, Option.map_some, Option.map_eq_some_iff] at hbars
      obtain ⟨file', hfile', hsame⟩ := hbars
      rw [hfile']
      cases market.specification brokerType symbol with
      | none => rfl
      | some specification => simp only [hsame]

theorem Consistent.change (h : Consistent market brokerType symbol w)
    (hnoticed : Noticed w w' brokerType symbol) (hreports : w'.coverageCache = w.coverageCache)
    (hmoves : w'.movesCache = w.movesCache) : Consistent market brokerType symbol w' := by
  constructor
  · intro file hfile hdate
    rw [hreports] at hfile
    obtain ⟨hbefore, hsame⟩ := hnoticed.reports file hfile hdate
    rw [hsame.reportAt_eq]
    exact h.reports file hfile hbefore
  · intro file hfile hdate
    rw [hmoves] at hfile
    obtain ⟨hbefore, hsame⟩ := hnoticed.moves file hfile hdate
    rw [hsame.freshMoves_eq]
    exact h.moves file hfile hbefore

/-- Nothing of a symbol is touched between two states. -/
structure Untouched (w w' : World) (brokerType : BrokerType) (symbol : String) : Prop where
  config : w'.config = w.config
  barFile : w'.barFile = w.barFile
  report : w'.coverageCache.get? (coverageCachePath brokerType symbol) =
    w.coverageCache.get? (coverageCachePath brokerType symbol)
  moves : w'.movesCache.get? (movesCachePath brokerType symbol) =
    w.movesCache.get? (movesCachePath brokerType symbol)

theorem noticed_of_newer {timeframe : Timeframe} {file : BarFile}
    (hreports : ∀ cached ∈ w.coverageCache.get? (coverageCachePath brokerType symbol),
      cached.granularity = timeframe ∧ cached.sourceBarMtime < file.modified)
    (hmoves : ∀ cached ∈ w.movesCache.get? (movesCachePath brokerType symbol),
      timeframe = .m5 ∧ cached.sourceBarMtime < file.modified) :
    Noticed w (w.rewrite brokerType symbol timeframe (some file)) brokerType symbol := by
  have hnewer {noted : ℚ} (hlt : noted < file.modified) :
      ¬ (w.rewrite brokerType symbol timeframe (some file)).UpToDate brokerType symbol timeframe
        noted := by
    simpa [World.UpToDate, World.sourceBarMtime, World.rewrite] using hlt
  constructor
  · intro cached hcached hdate
    obtain ⟨rfl, hlt⟩ := hreports cached hcached
    exact absurd hdate (hnewer hlt)
  · intro cached hcached hdate
    obtain ⟨rfl, hlt⟩ := hmoves cached hcached
    exact absurd hdate (hnewer hlt)

theorem Untouched.refl (w : World) : Untouched w w brokerType symbol := ⟨rfl, rfl, rfl, rfl⟩

theorem Untouched.trans {w'' : World} (h : Untouched w w' brokerType symbol)
    (h' : Untouched w' w'' brokerType symbol) : Untouched w w'' brokerType symbol :=
  ⟨h'.config.trans h.config, h'.barFile.trans h.barFile, h'.report.trans h.report,
    h'.moves.trans h.moves⟩

theorem Untouched.upToDate (h : Untouched w w' brokerType symbol) {timeframe : Timeframe} {noted : ℚ}
    (hdate : w'.UpToDate brokerType symbol timeframe noted) :
    w.UpToDate brokerType symbol timeframe noted := by
  unfold World.UpToDate World.sourceBarMtime at hdate ⊢
  rwa [h.barFile] at hdate

theorem Untouched.sameReport (h : Untouched w w' brokerType symbol) (granularity : Timeframe) :
    SameReport w w' brokerType symbol granularity where
  thresholds := by rw [h.config]
  timestamps := by rw [World.bars, World.bars, h.barFile]

theorem Untouched.sameMoves (h : Untouched w w' brokerType symbol) :
    SameMoves w w' brokerType symbol where
  settings := by rw [h.config]
  bars := by rw [h.barFile]
  granularity := by rw [h.config]
  report := h.sameReport _

theorem Consistent.untouched (h : Consistent market brokerType symbol w)
    (hsame : Untouched w w' brokerType symbol) : Consistent market brokerType symbol w' := by
  constructor
  · intro file hfile hdate
    rw [hsame.report] at hfile
    rw [(hsame.sameReport file.granularity).reportAt_eq]
    exact h.reports file hfile (hsame.upToDate hdate)
  · intro file hfile hdate
    rw [hsame.moves] at hfile
    rw [hsame.sameMoves.freshMoves_eq]
    exact h.moves file hfile (hsame.upToDate hdate)

theorem inputs_congr (h : SameSettings w w') :
    w'.inputsWith market brokerType symbol (w'.freshReport market brokerType symbol).gaps =
      w.inputsWith market brokerType symbol (w.freshReport market brokerType symbol).gaps := by
  unfold World.inputsWith World.freshReport World.bars
  rw [h.1, h.2]

section OtherSymbols

variable {broker : BrokerType} {name : String}
  (hpath : coverageCachePath brokerType symbol ≠ coverageCachePath broker name)

include hpath

theorem untouched_saveReport (granularity : Timeframe) (report : DataCoverageReport) :
    Untouched w (w.saveReport broker name granularity storage report) brokerType symbol := by
  unfold World.saveReport
  split
  · exact ⟨rfl, rfl, Dict.get?_set_ne _ _ hpath, rfl⟩
  · exact .refl w

theorem untouched_getReport (granularity : Timeframe) (forceRebuild : Bool) :
    Untouched w (w.getReport market broker name granularity forceRebuild storage).2 brokerType
      symbol := by
  unfold World.getReport
  split
  · exact .refl w
  · exact untouched_saveReport hpath granularity _

theorem untouched_filterByTickCoverage (moves : List ExtremeMove) :
    Untouched w (w.filterByTickCoverage market broker name storage moves).2 brokerType symbol := by
  unfold World.filterByTickCoverage
  split
  · exact .refl w
  · exact untouched_getReport hpath _ _

theorem untouched_scan :
    Untouched w (w.scan market broker name storage).2 brokerType symbol := by
  unfold World.scan
  split
  · exact .refl w
  · exact (untouched_filterByTickCoverage hpath _).trans (untouched_filterByTickCoverage hpath _)

theorem untouched_saveMoves (result : ExtremeMoveResult) :
    Untouched w (w.saveMoves broker name storage result) brokerType symbol := by
  have hmoves : movesCachePath brokerType symbol ≠ movesCachePath broker name := by
    intro heq
    exact hpath ((String.append_left_inj _).mp heq)
  unfold World.saveMoves
  split
  · exact ⟨rfl, rfl, rfl, Dict.get?_set_ne _ _ hmoves⟩
  · exact .refl w

theorem untouched_getExtremeMoves (forceRebuild : Bool) :
    Untouched w (w.getExtremeMoves market broker name forceRebuild storage).2 brokerType symbol := by
  unfold World.getExtremeMoves
  split
  · exact .refl w
  · have hscan := @untouched_scan market w brokerType symbol storage broker name hpath
    split
    · next result w' heq =>
        rw [heq] at hscan
        exact hscan.trans (untouched_saveMoves hpath result)
    · next w' heq =>
        rw [heq] at hscan
        exact hscan

end OtherSymbols

section SameSymbol

variable (h : Consistent market brokerType symbol w)

include h

/-- A report through an instance of the configured granularity is a fresh one. -/
theorem Consistent.getReport_fst (forceRebuild : Bool) :
    (w.getReport market brokerType symbol w.config.dataCoverage.granularity forceRebuild storage).1 =
      w.freshReport market brokerType symbol := by
  unfold World.getReport
  split
  · next file hfile =>
      split at hfile
      · cases hfile
      · simp only [World.validReport, Option.filter_eq_some_iff, Bool.and_eq_true,
          decide_eq_true_eq] at hfile
        obtain ⟨⟨hcached, -, hgranularity⟩, hdate⟩ := hfile
        have hload := h.reports file hcached
          (by simpa [World.UpToDate, hgranularity, Option.any_eq_true] using hdate)
        rw [hload, hgranularity]
        exact freshReport_eq.symm
  · rfl

theorem Consistent.saveReport :
    Consistent market brokerType symbol (w.saveReport brokerType symbol
      w.config.dataCoverage.granularity storage (w.freshReport market brokerType symbol)) := by
  unfold World.saveReport
  split
  · constructor
    · intro file hfile hdate
      rw [Dict.get?_set_self, Option.mem_some] at hfile
      rw [← hfile]
      rfl
    · exact h.moves
  · exact h

theorem Consistent.getReport (forceRebuild : Bool) :
    Consistent market brokerType symbol (w.getReport market brokerType symbol
      w.config.dataCoverage.granularity forceRebuild storage).2 := by
  unfold World.getReport
  split
  · exact h
  · exact h.saveReport

theorem Consistent.filterByTickCoverage (moves : List ExtremeMove) :
    Consistent market brokerType symbol
      (w.filterByTickCoverage market brokerType symbol storage moves).2 := by
  unfold World.filterByTickCoverage
  split
  · exact h
  · exact h.getReport _

theorem Consistent.scan :
    Consistent market brokerType symbol (w.scan market brokerType symbol storage).2 := by
  unfold World.scan
  split
  · exact h
  · exact (h.filterByTickCoverage _).filterByTickCoverage _

theorem Consistent.scan_fst :
    (w.scan market brokerType symbol storage).1 = w.freshMoves market brokerType symbol := by
  rw [DiscoveryCaches.scan_fst, World.scanInputs, World.scanGaps, h.getReport_fst]
  rfl

theorem Consistent.saveMoves {inputs : ScanInputs}
    (hinputs : w.inputsWith market brokerType symbol (w.freshReport market brokerType symbol).gaps =
      some inputs) :
    Consistent market brokerType symbol (w.saveMoves brokerType symbol storage inputs.result) := by
  unfold World.saveMoves
  split
  · refine ⟨h.reports, ?_⟩
    intro file hfile hdate
    rw [Dict.get?_set_self, Option.mem_some] at hfile
    obtain ⟨hbroker, hsymbol⟩ := labels_of_inputsWith hinputs
    have hfresh : w.freshMoves market brokerType symbol = some inputs.result := by
      rw [World.freshMoves, hinputs, Option.map_some]
    rw [← hfile, ← hbroker, ← hsymbol, load_result, hbroker, hsymbol]
    exact hfresh.symm
  · exact h

theorem Consistent.getExtremeMoves (forceRebuild : Bool) :
    Consistent market brokerType symbol
      (w.getExtremeMoves market brokerType symbol forceRebuild storage).2 := by
  unfold World.getExtremeMoves
  split
  · exact h
  · have hresult := @Consistent.scan_fst market w brokerType symbol storage h
    have hscan := @Consistent.scan market w brokerType symbol storage h
    have hsettings := @sameSettings_scan market w brokerType symbol storage
    split
    · next result w' heq =>
        rw [heq] at hresult hscan hsettings
        obtain ⟨inputs, hinputs, rfl⟩ := Option.map_eq_some_iff.mp hresult.symm
        apply hscan.saveMoves
        rw [inputs_congr hsettings, hinputs]
    · next w' heq =>
        rw [heq] at hscan
        exact hscan

theorem Consistent.getExtremeMoves_fst (forceRebuild : Bool) :
    (w.getExtremeMoves market brokerType symbol forceRebuild storage).1 =
      (w.scan market brokerType symbol storage).1 := by
  unfold World.getExtremeMoves
  split
  · next file hfile =>
      split at hfile
      · cases hfile
      · simp only [World.validMoves, Option.filter_eq_some_iff] at hfile
        rw [h.scan_fst]
        exact h.moves file hfile.1.1
          (by simpa [World.UpToDate, Option.any_eq_true] using hfile.2)
  · split
    · next heq => rw [heq]
    · next heq => rw [heq]

end SameSymbol

theorem Consistent.step (h : Consistent market brokerType symbol w) {op : Op}
    (hop : Noticeable brokerType symbol w op) :
    Consistent market brokerType symbol (w.step market op) := by
  cases op with
  | rewrite broker name timeframe file => exact h.change hop rfl rfl
  | configure config => exact h.change hop rfl rfl
  | openCache => exact ⟨h.reports, h.moves⟩
  | clearCache =>
      constructor
      · intro file hfile
        cases hfile
      · intro file hfile
        cases hfile
  | getReport broker name forceRebuild storage =>
      by_cases hpath : coverageCachePath broker name = coverageCachePath brokerType symbol
      · obtain ⟨hcalled, hgranularity⟩ := hop hpath
        cases hcalled
        have hkept := @Consistent.getReport market w _ _ storage h forceRebuild
        rwa [← hgranularity] at hkept
      · exact h.untouched (untouched_getReport (Ne.symm hpath) _ _)
  | getExtremeMoves broker name forceRebuild storage =>
      by_cases hpath : coverageCachePath broker name = coverageCachePath brokerType symbol
      · cases hop hpath
        exact h.getExtremeMoves forceRebuild
      · exact h.untouched (untouched_getExtremeMoves (Ne.symm hpath) _)

theorem Consistent.transparent (h : Consistent market brokerType symbol w) {op : Op}
    (hop : Noticeable brokerType symbol w op) (hcalled : op.called = some (brokerType, symbol)) :
    Transparent market w op := by
  cases op with
  | getReport broker name forceRebuild storage =>
      cases hcalled
      change (w.getReport market brokerType symbol w.granularity forceRebuild storage).1 = _
      rw [(hop rfl).2]
      exact h.getReport_fst forceRebuild
  | getExtremeMoves broker name forceRebuild storage =>
      cases hcalled
      exact h.getExtremeMoves_fst forceRebuild
  | _ => cases hcalled

end Serving

section Staleness

def spotMarket : Market where
  closes _ := false
  specification _ _ := some { digits := 2, pipSize := 1 }

def barFrom (minute : ℤ) : Bar where
  symbol := "BTCUSD"
  timeframe := .m5
  timestamp := minute * 60000000
  open_ := 1
  high := 3
  low := 1
  close := 3

def sparseBars : List Bar := [barFrom 0, barFrom 600]

def oneBarFile (bars : List Bar) : BrokerType → String → Timeframe → Option BarFile :=
  fun _ _ _ => some { bars := bars, modified := 10 }

def moveConfig (minAtrMultiple : ℚ) : DiscoveriesConfig where
  extremeMoves := { minAtrMultiple := minAtrMultiple, windowSizes := [1] }

def reportCall : Op := .getReport .krakenSpot "BTCUSD" false {}

def movesCall : Op := .getExtremeMoves .krakenSpot "BTCUSD" false {}

theorem not_stepsAll_transparent {market : Market} {w : World} {op op' op'' : Op}
    (h : ¬ Transparent market ((w.step market op).step market op') op'') :
    ¬ StepsAll (discoveryStep market) (Transparent market) w [op, op', op''] := by
  rintro ⟨-, -, hlast, -⟩
  exact h hlast

end Staleness

end Finiex.DiscoveryCaches
