import Finiex.Signals
import Mathlib.Data.List.Dedup
import Mathlib.Data.String.Basic
import Mathlib.Algebra.Ring.Int.Defs

namespace Finiex.SignalImport

open Finiex.Types
open Finiex.Lib
open Finiex.Signals

section Validation

def resolvePipelineId (snapshots : List SignalSnapshot) : Except SignalError String :=
  match ((snapshots.map SignalSnapshot.pipelineId).filter fun id => id ≠ "").dedup with
  | [] => .error .noPipelineId
  | [id] => .ok id
  | ids => .error (.mixedPipelineIds (ids.insertionSort (· ≤ ·)))

structure StreamCheck where
  highestEpoch : ℤ
  lastSeq : Dict ℤ ℤ := ∅
  seqsPerEpoch : Dict ℤ (List ℤ) := ∅

structure SeqHoles where
  epoch : ℤ
  missing : ℤ
  first : ℤ
  last : ℤ
  deriving DecidableEq

/-- The epochs never go backwards, nor the numbers within an epoch. -/
def checkIdentity (check : StreamCheck) (epoch seq : ℤ) : Except SignalError StreamCheck := do
  if epoch < check.highestEpoch then throw (.epochWentBackwards check.highestEpoch epoch)
  match check.lastSeq.get? epoch with
  | some last => if seq < last then throw (.seqWentBackwards epoch last seq)
  | none => pure ()
  return { highestEpoch := epoch
           lastSeq := check.lastSeq.set epoch seq
           seqsPerEpoch := check.seqsPerEpoch.set epoch
             (check.seqsPerEpoch.getD epoch [] ++ [seq]) }

def missingBetween (seqs : List ℤ) : ℤ :=
  (List.zipWith (fun a b => if 1 < b - a then b - a - 1 else 0) seqs seqs.tail).sum

/-- `_validate_stream_identity`: the holes of the file, which do not refuse it. -/
def validateStreamIdentity (snapshots : List SignalSnapshot) :
    Except SignalError (List SeqHoles) := do
  let identified := snapshots.filterMap fun snapshot =>
    match snapshot.streamEpoch, snapshot.seq with
    | some epoch, some seq => some (epoch, seq)
    | _, _ => none
  match identified with
  | [] => return []
  | (firstEpoch, _) :: _ =>
      let check ← identified.foldlM (fun check (epoch, seq) => checkIdentity check epoch seq)
        { highestEpoch := firstEpoch }
      return check.seqsPerEpoch.entries.filterMap fun (epoch, seqs) =>
        if missingBetween seqs = 0 then none
        else some { epoch := epoch
                    missing := missingBetween seqs
                    first := seqs.headD 0
                    last := seqs.getLastD 0 }

end Validation

section Conversion

/-- `_row`: a result of an envelope, or the envelope itself. -/
def rowOf (symbol : String) (result : Option SentimentResult) (snapshot : SignalSnapshot) :
    ParquetRow where
  collectedMsc := epochMs snapshot.collectedMsc
  symbol := symbol
  signal := (result.map SentimentResult.signal).getD ""
  sentimentScore := (result.map SentimentResult.sentimentScore).getD 0
  confidence := (result.map SentimentResult.confidence).getD 0
  reasoning := (result.map SentimentResult.reasoning).getD ""
  urgency := (result.map SentimentResult.urgency).getD 0
  isBreaking := (result.map SentimentResult.isBreaking).getD false
  basis := (result.map SentimentResult.basis).getD ""
  status := snapshot.status
  schemaVersion := snapshot.schemaVersion
  pipelineId := snapshot.pipelineId
  seq := snapshot.seq
  streamEpoch := snapshot.streamEpoch
  availableMsc := snapshot.availableMsc.map epochMs
  evidenceAsOf := result.bind fun result => result.evidenceAsOf.map epochMs
  envelopeEvidenceAsOf := snapshot.getEvidenceAsOf.map epochMs
  promptVersion := snapshot.promptVersion
  promptId := snapshot.promptId
  promptHash := snapshot.promptHash
  dataOrigin := snapshot.dataOrigin
  configFingerprint := snapshot.configFingerprint
  triggerReason := snapshot.triggerReason

def rowsOf (snapshot : SignalSnapshot) : List ParquetRow :=
  rowOf signalEnvelopeSymbol none snapshot ::
    snapshot.result.map fun result => rowOf result.symbol (some result) snapshot

def explode (snapshots : List SignalSnapshot) : List ParquetRow := snapshots.flatMap rowsOf

structure ImportedFile where
  pipelineId : String
  rows : List ParquetRow
  holes : List SeqHoles
  deriving DecidableEq

/-- `convert_jsonl_to_parquet`: the file to write, unless there is nothing to import. -/
def convertJsonlToParquet (validateLine : String → Except SignalError SignalSnapshot)
    (targetExists override : Bool) (lines : List String) :
    Except SignalError (Option ImportedFile) := do
  let series ← loadSignalSeries validateLine lines "" none none
  if series.snapshots = [] then return none
  let pipelineId ← resolvePipelineId series.snapshots
  let holes ← validateStreamIdentity series.snapshots
  if targetExists && !override then throw .targetExists
  return some { pipelineId := pipelineId, rows := explode series.snapshots, holes := holes }

end Conversion

end Finiex.SignalImport
