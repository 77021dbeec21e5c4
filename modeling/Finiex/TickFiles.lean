import Finiex.Preparation
import Mathlib.Data.List.SplitBy
import Mathlib.Data.Prod.Lex
import Mathlib.Order.WithBot
import Mathlib.Data.Int.ConditionallyCompleteOrder
import Mathlib.Order.ConditionallyCompleteLattice.Basic

/-!
# Tick files

The tick files of a symbol: their validation, their index, and the stream of ticks prepared
from them for one request.
-/

namespace Finiex.TickFiles

open Finiex.Types
open Finiex.Bars

section Files

/-- A row of an imported tick file; files of old exports have no event time. -/
structure ArchivedRow where
  timestamp : Instant
  timeMsc : Option ℤ
  collectedMsc : ℤ := 0
  bid : ℚ
  ask : ℚ
  volume : ℚ := 0
  deriving DecidableEq

/-- An imported tick file: all of its rows have the column `time_msc`, or none has. -/
structure ArchivedFile where
  rows : List ArchivedRow
  hasTimeMsc : Bool := true
  uniform : ∀ row ∈ rows, row.timeMsc.isSome = hasTimeMsc
  declaredTickCount : Option ℕ := none
  collectedMscIsUtc : Bool := false

end Files

section Validation

inductive TimeColumn
  | timeMsc | collectedMsc
  deriving DecidableEq

/-- Why a file is rejected, with the numbers of the message. -/
inductive FileError
  | noTicks
  | tickCountMismatch (delivered declared : ℕ)
  | nonPositivePrices (count : ℕ)
  | invertedSpreads (count : ℕ)
  | stepsBackwards (column : TimeColumn) (count : ℕ) (largestStep : ℤ)
  | timestampsDisagree (count : ℕ) (worst : ℤ)
  | implausibleLag (lag : ℤ) (segments : ℕ) (collectedMscIsUtc : Bool)
  deriving DecidableEq

inductive FileWarning
  | noTimeMsc
  | noArrivalTiming
  deriving DecidableEq

structure TickFileValidationResult where
  errors : List FileError := []
  warnings : List FileWarning := []
  deriving DecidableEq

def reportCount (count : ℕ) (error : ℕ → FileError) : List FileError :=
  if 0 < count then [error count] else []

def checkTickCount (file : ArchivedFile) : List FileError :=
  match file.declaredTickCount with
  | none => []
  | some declared =>
      if file.rows.length ≠ declared then [.tickCountMismatch file.rows.length declared] else []

def checkPrices (rows : List ArchivedRow) : List FileError :=
  reportCount (rows.countP fun row => row.bid ≤ 0 ∨ row.ask ≤ 0) .nonPositivePrices ++
    reportCount (rows.countP fun row => row.ask < row.bid) .invertedSpreads

/-- `np.diff`. -/
def steps (values : List ℤ) : List ℤ := List.zipWith (fun value next => next - value) values values.tail

def checkMonotonic (column : TimeColumn) (values : List ℤ) : List FileError :=
  reportCount ((steps values).countP (· < 0))
    (.stepsBackwards column · ((steps values).min?.getD 0))

def timestampConsistencyToleranceMs : ℤ := 1000

def stampMs (t : Instant) : ℤ := t / 1000

def checkTimestampConsistency (times : List (Instant × ℤ)) : List FileError :=
  let deviations := times.map fun (stamp, timeMsc) => |stampMs stamp - timeMsc|
  reportCount (deviations.countP (timestampConsistencyToleranceMs < ·))
    (.timestampsDisagree · (deviations.max?.getD 0))

def plausibleLagWindowMs : ℤ := 300000

def segmentSplitForwardMs : ℤ := 7 * 24 * 3600000

def splitAnchorSegments (times : List (ℤ × ℤ)) : List (List (ℤ × ℤ)) :=
  times.splitBy fun earlier later =>
    decide (0 ≤ later.1 - earlier.1 ∧ later.1 - earlier.1 ≤ segmentSplitForwardMs)

def worstLag (segments : List (List (ℤ × ℤ))) : ℤ :=
  segments.foldl (fun worst segment =>
    let lag := (segment.map fun (collected, timeMsc) => collected - timeMsc).min?.getD 0
    if |worst| < |lag| then lag else worst) 0

def checkCollectedMscLag (times : List (ℤ × ℤ)) (collectedMscIsUtc : Bool) :
    TickFileValidationResult :=
  if times.all fun (collected, _) => collected = 0 then { warnings := [.noArrivalTiming] }
  else
    let segments := splitAnchorSegments times
    if |worstLag segments| ≤ plausibleLagWindowMs then {}
    else { errors := [.implausibleLag (worstLag segments) segments.length collectedMscIsUtc] }

def ArchivedFile.timedRows (file : ArchivedFile) : List (ArchivedRow × ℤ) :=
  file.rows.filterMap fun row => row.timeMsc.map fun timeMsc => (row, timeMsc)

def validateFile (file : ArchivedFile) : TickFileValidationResult :=
  if file.rows = [] then { errors := [.noTicks] }
  else
    let untimed := checkTickCount file ++ checkPrices file.rows
    if file.hasTimeMsc then
      let lag := checkCollectedMscLag
        (file.timedRows.map fun (row, timeMsc) => (row.collectedMsc, timeMsc)) file.collectedMscIsUtc
      { errors := untimed ++ checkMonotonic .timeMsc (file.timedRows.map Prod.snd) ++
          checkMonotonic .collectedMsc (file.rows.map ArchivedRow.collectedMsc) ++
          checkTimestampConsistency
            (file.timedRows.map fun (row, timeMsc) => (row.timestamp, timeMsc)) ++ lag.errors
        warnings := lag.warnings }
    else { errors := untimed, warnings := [.noTimeMsc] }

end Validation

section Index

/-- A file in the tick index, with the bounds of its first and last row. -/
structure IndexEntry where
  file : ArchivedFile
  startTime : Instant
  endTime : Instant
  collectedStart : ℤ
  collectedEnd : ℤ

def scanFile (file : ArchivedFile) : Option IndexEntry :=
  match file.rows.head?, file.rows.getLast? with
  | some first, some last => some {
      file := file
      startTime := first.timestamp
      endTime := last.timestamp
      collectedStart := first.collectedMsc
      collectedEnd := last.collectedMsc }
  | _, _ => none

def buildIndex (files : List ArchivedFile) : List IndexEntry :=
  (files.filterMap scanFile).insertionSort fun entry later => entry.startTime ≤ later.startTime

inductive OrderingFinding
  | overlaps (duration : ℤ)
  | arrivalStepsBack (duration : ℤ)
  | arrivalUnchecked (unchecked transitions : ℕ)
  deriving DecidableEq

/-- Two files that follow each other; their arrival is compared where both bounds are known. -/
def checkTransition (previous current : IndexEntry) : List OrderingFinding :=
  (if current.startTime < previous.endTime then
    [.overlaps (previous.endTime - current.startTime)] else []) ++
  (if previous.collectedEnd ≠ 0 ∧ current.collectedStart ≠ 0 ∧
      current.collectedStart < previous.collectedEnd then
    [.arrivalStepsBack (previous.collectedEnd - current.collectedStart)] else [])

def validateArchiveOrdering (entries : List IndexEntry) : List OrderingFinding :=
  let bounds := entries.insertionSort fun entry later => entry.startTime ≤ later.startTime
  let transitions := bounds.zip bounds.tail
  let unchecked := transitions.countP fun (previous, current) =>
    previous.collectedEnd = 0 ∨ current.collectedStart = 0
  (transitions.flatMap fun (previous, current) => checkTransition previous current) ++
    (if unchecked ≠ 0 then [.arrivalUnchecked unchecked transitions.length] else [])

end Index

section Stream

/-- What a scenario asks for: the ticks of a timespan, or a number of ticks from a start. -/
inductive TickRequest
  | timespan (startTime endTime : Instant)
  | maxTicks (startTime : Instant) (count : ℕ)

def TickRequest.startTime : TickRequest → Instant
  | .timespan startTime _ => startTime
  | .maxTicks startTime _ => startTime

def TickRequest.unionEnd (entries : List IndexEntry) : TickRequest → Instant
  | .timespan _ endTime => endTime
  | .maxTicks _ _ => (entries.getLast?.map IndexEntry.endTime).getD 0

def IndexEntry.isRelevant (entry : IndexEntry) (startDate endDate : Instant) : Bool :=
  decide (entry.startTime ≤ endDate) && decide (startDate ≤ entry.endTime)

def relevantFiles (entries : List IndexEntry) (request : TickRequest) : List IndexEntry :=
  entries.filter fun entry => entry.isRelevant request.startTime (request.unionEnd entries)

/-- What rows are sorted by: the timestamp, then the event time; a missing one sorts last. -/
def sortKey (row : ArchivedRow) : Instant ×ₗ WithTop ℤ :=
  toLex (row.timestamp, row.timeMsc.elim ⊤ fun timeMsc => timeMsc)

def sortRows (rows : List ArchivedRow) : List ArchivedRow :=
  rows.insertionSort fun row later => sortKey row ≤ sortKey later

def sliceRows (rows : List ArchivedRow) (request : TickRequest) : List ArchivedRow :=
  let startIdx := rows.countP fun row => row.timestamp < request.startTime
  match request with
  | .timespan _ endTime =>
      (rows.drop startIdx).take ((rows.countP fun row => row.timestamp ≤ endTime) - startIdx)
  | .maxTicks _ count => (rows.drop startIdx).take count

inductive StreamError
  | missingTimeMscColumn
  | missingTimeMsc
  deriving DecidableEq

def toTick (symbol : String) (row : ArchivedRow) : Option TickData :=
  row.timeMsc.map fun timeMsc => {
    timestamp := timeMsc * 1000
    symbol := symbol
    bid := row.bid
    ask := row.ask
    timeMsc := timeMsc
    collectedMsc := row.collectedMsc
    volume := row.volume }

/-- `process_deserialize_ticks_batch`: a row without event time raises. -/
def deserializeTicks (symbol : String) : List ArchivedRow → Except StreamError (List TickData)
  | [] => .ok []
  | row :: rows =>
      match toTick symbol row with
      | none => .error .missingTimeMsc
      | some tick => (deserializeTicks symbol rows).map (tick :: ·)

/-- `prepare_ticks` for one request, and the ticks its rows become. -/
def prepareStream (entries : List IndexEntry) (symbol : String) (request : TickRequest) :
    Except StreamError (List TickData) :=
  let relevant := relevantFiles entries request
  if relevant = [] then .ok []
  else if relevant.any fun entry => entry.file.hasTimeMsc then
    deserializeTicks symbol (sliceRows (sortRows (relevant.flatMap fun entry => entry.file.rows)) request)
  else .error .missingTimeMscColumn

end Stream

end Finiex.TickFiles
