import Finiex.Types
import Finiex.Lib.Dict
import Finiex.Lib.Timelines
import Mathlib.Data.List.Sort
import Mathlib.Data.Prod.Lex
import Mathlib.Order.MinMax
import Mathlib.Data.Int.ConditionallyCompleteOrder
import Mathlib.Order.ConditionallyCompleteLattice.Basic

/-!
# Signal series

The archived envelopes of a signal source, the two ways a series is loaded from an archive, and
the provider that resolves the envelope of a moment.
-/

namespace Finiex.Signals

open Finiex.Types
open Finiex.Lib

section Data

/-- Epoch milliseconds of a moment; the fraction is cut off. The source cuts it off a product of
floats, which comes to the same for each whole millisecond from 2004-11-04 to 2038-01-18. -/
def epochMs (moment : Instant) : ℤ := Int.tdiv moment 1000

def ofEpochMs (ms : ℤ) : Instant := ms * 1000

structure SentimentResult where
  symbol : String
  signal : String
  sentimentScore : ℚ := 0
  confidence : ℚ := 0
  reasoning : String := ""
  urgency : ℚ := 0
  isBreaking : Bool := false
  basis : String := ""
  evidenceAsOf : Option Instant := none
  deriving DecidableEq

/-- One archived line: an envelope with the stamp of its receipt. -/
structure SignalSnapshot where
  schemaVersion : String
  pipelineId : String := ""
  seq : Option ℤ := none
  streamEpoch : Option ℤ := none
  triggerReason : String := ""
  promptVersion : String := ""
  promptId : String := ""
  promptHash : String := ""
  dataOrigin : String := ""
  configFingerprint : String := ""
  availableMsc : Option Instant := none
  status : String := "success"
  result : List SentimentResult := []
  collectedMsc : Instant
  envelopeEvidenceAsOf : Option Instant := none
  deriving DecidableEq

namespace SignalSnapshot

def getResolutionKey (snapshot : SignalSnapshot) : Instant :=
  snapshot.availableMsc.getD snapshot.collectedMsc

def getEvidenceAsOf (snapshot : SignalSnapshot) : Option Instant :=
  match snapshot.envelopeEvidenceAsOf with
  | some evidence => some evidence
  | none => (snapshot.result.filterMap SentimentResult.evidenceAsOf).max?

/-- The place of a snapshot in its stream; unnumbered ones come first. -/
def getOrderKey (snapshot : SignalSnapshot) : ℤ ×ₗ ℤ ×ₗ ℤ :=
  match snapshot.seq, snapshot.streamEpoch with
  | some seq, some epoch => toLex (epoch, toLex (seq, 0))
  | _, _ => toLex (-1, toLex (-1, snapshot.getResolutionKey))

end SignalSnapshot

structure SignalSeries where
  signalKind : String
  snapshots : List SignalSnapshot := []
  deriving DecidableEq

structure ResolvedSignal where
  collectedMsc : Instant
  result : SentimentResult
  evidenceAsOf : Option Instant := none
  deriving DecidableEq

end Data

section Provider

structure SignalDataProvider where
  signalKind : String
  snapshots : List SignalSnapshot
  gateKeys : List Instant
  seen : List (ℤ × ℤ)

def identity (snapshot : SignalSnapshot) : ℤ × ℤ :=
  match snapshot.seq, snapshot.streamEpoch with
  | some seq, some epoch => (epoch, seq)
  | _, _ => (-1, epochMs snapshot.getResolutionKey)

def streamOrder (snapshots : List SignalSnapshot) : List SignalSnapshot :=
  snapshots.insertionSort fun snapshot later => snapshot.getOrderKey ≤ later.getOrderKey

def nextGate (gateKeys : List Instant) (key : Instant) : Instant :=
  match gateKeys.getLast? with
  | some last => if key < last then last else key
  | none => key

def gateKeysOf (ordered : List SignalSnapshot) : List Instant :=
  ordered.foldl (fun gateKeys snapshot =>
    gateKeys ++ [nextGate gateKeys snapshot.getResolutionKey]) []

def reindex (signalKind : String) (snapshots : List SignalSnapshot) : SignalDataProvider where
  signalKind := signalKind
  snapshots := streamOrder snapshots
  gateKeys := gateKeysOf (streamOrder snapshots)
  seen := (streamOrder snapshots).map identity

/-- The index behind the last of ascending keys that a moment has reached. -/
def bisectRight (keys : List Instant) (timestamp : Instant) : ℕ :=
  (keys.takeWhile fun key => key ≤ timestamp).length

def defensiveHold (symbol : String) : SentimentResult where
  symbol := symbol
  signal := "HOLD"
  reasoning := "Symbol not present in snapshot"

def extractSymbol (snapshot : SignalSnapshot) (symbol : String) : SentimentResult :=
  (snapshot.result.find? fun result => result.symbol = symbol).getD (defensiveHold symbol)

namespace SignalDataProvider

def ofSeries (series : SignalSeries) : SignalDataProvider :=
  reindex series.signalKind series.snapshots

/-- Merge newly arrived snapshots; how many were new. -/
def extend (provider : SignalDataProvider) (snapshots : List SignalSnapshot) :
    SignalDataProvider × ℕ :=
  let fresh := snapshots.filter fun snapshot => identity snapshot ∉ provider.seen
  if fresh = [] then (provider, 0)
  else (reindex provider.signalKind (provider.snapshots ++ fresh), fresh.length)

/-- The most recent snapshot available at or before a moment. -/
def nearest (provider : SignalDataProvider) (timestamp : Instant) (symbol : String) :
    Option ResolvedSignal :=
  match bisectRight provider.gateKeys timestamp with
  | 0 => none
  | idx + 1 => provider.snapshots[idx]?.map fun snapshot =>
      { collectedMsc := snapshot.collectedMsc
        result := extractSymbol snapshot symbol
        evidenceAsOf := snapshot.getEvidenceAsOf }

end SignalDataProvider

end Provider

section Loading

inductive SignalError
  | invalidLine (message : String)
  | incompatibleSchema (version : String)
  | noPipelineId
  | mixedPipelineIds (ids : List String)
  | epochWentBackwards (highest epoch : ℤ)
  | seqWentBackwards (epoch last seq : ℤ)
  | targetExists
  deriving DecidableEq

def supportedSchemaMajors : List String := ["1", "2"]

def schemaMajor (version : String) : String :=
  String.ofList (version.toList.takeWhile fun c => c ≠ '.')

def trimRange (start stop : Option Instant) (snapshots : List SignalSnapshot) :
    List SignalSnapshot :=
  let upTo := match stop with
    | none => snapshots
    | some stop => snapshots.filter fun snapshot => snapshot.collectedMsc ≤ stop
  match start with
  | none => upTo
  | some start =>
      upTo.drop ((upTo.takeWhile fun snapshot => snapshot.collectedMsc ≤ start).length - 1)

/-- The snapshots of the lines; an empty line is none. -/
def readLines (validateLine : String → Except SignalError SignalSnapshot) :
    List String → Except SignalError (List SignalSnapshot)
  | [] => .ok []
  | line :: lines =>
      if line = "" then readLines validateLine lines
      else do
        let snapshot ← validateLine line
        if schemaMajor snapshot.schemaVersion ∉ supportedSchemaMajors then
          throw (.incompatibleSchema snapshot.schemaVersion)
        return snapshot :: (← readLines validateLine lines)

/-- Load an archived JSONL file, given as its stripped lines. -/
def loadSignalSeries (validateLine : String → Except SignalError SignalSnapshot)
    (lines : List String) (signalKind : String) (start stop : Option Instant) :
    Except SignalError SignalSeries := do
  let snapshots ← readLines validateLine lines
  let sorted := snapshots.insertionSort fun snapshot later =>
    snapshot.collectedMsc ≤ later.collectedMsc
  return { signalKind := signalKind, snapshots := trimRange start stop sorted }

def signalEnvelopeSymbol : String := "*"

structure ParquetRow where
  collectedMsc : ℤ
  symbol : String
  signal : String := ""
  sentimentScore : ℚ := 0
  confidence : ℚ := 0
  reasoning : String := ""
  urgency : ℚ := 0
  isBreaking : Bool := false
  basis : String := ""
  status : String
  schemaVersion : String
  pipelineId : String
  seq : Option ℤ
  streamEpoch : Option ℤ
  availableMsc : Option ℤ
  evidenceAsOf : Option ℤ := none
  envelopeEvidenceAsOf : Option ℤ
  promptVersion : String
  promptId : String
  promptHash : String
  dataOrigin : String
  configFingerprint : String
  triggerReason : String
  deriving DecidableEq

/-- One row for each receive stamp: a row of the symbol wins over one of the envelope, and a later
row over an earlier one. -/
def byMsc (symbol : String) (rows : List ParquetRow) : Dict ℤ ParquetRow :=
  rows.foldl (fun byMsc row =>
    match byMsc.get? row.collectedMsc with
    | some existing =>
        if existing.symbol = symbol ∧ row.symbol ≠ symbol then byMsc
        else byMsc.set row.collectedMsc row
    | none => byMsc.set row.collectedMsc row) ∅

def snapshotOfRow (symbol : String) (row : ParquetRow) : SignalSnapshot where
  schemaVersion := row.schemaVersion
  status := row.status
  collectedMsc := ofEpochMs row.collectedMsc
  seq := row.seq
  streamEpoch := row.streamEpoch
  availableMsc := row.availableMsc.map ofEpochMs
  envelopeEvidenceAsOf := row.envelopeEvidenceAsOf.map ofEpochMs
  result :=
    if row.symbol = symbol then
      [{ symbol := symbol
         signal := row.signal
         sentimentScore := row.sentimentScore
         confidence := row.confidence
         reasoning := row.reasoning
         urgency := row.urgency
         isBreaking := row.isBreaking
         basis := row.basis
         evidenceAsOf := row.evidenceAsOf.map ofEpochMs }]
    else []

def loadSignalSeriesFromParquet (paths : List (List ParquetRow)) (signalKind symbol : String)
    (start stop : Option Instant) : SignalSeries :=
  let keep := paths.flatten.filter fun row => row.symbol ∈ [symbol, signalEnvelopeSymbol]
  let rows := byMsc symbol keep
  let stamps := rows.keys.insertionSort (· ≤ ·)
  let snapshots := stamps.filterMap fun msc => (rows.get? msc).map (snapshotOfRow symbol)
  { signalKind := signalKind, snapshots := trimRange start stop snapshots }

end Loading

section Lookups

/-- The snapshots in stream order, each with the instant it became usable. -/
def entries (ordered : List SignalSnapshot) : List (Instant × SignalSnapshot) :=
  ordered.map fun snapshot => (snapshot.getResolutionKey, snapshot)

theorem gateKeysOf_eq (ordered : List SignalSnapshot) :
    gateKeysOf ordered = (Timeline.gates (entries ordered)).map Prod.fst := by
  have hfrom : ∀ (ordered : List SignalSnapshot) (opened : List Instant) (last : Instant),
      ordered.foldl (fun gateKeys snapshot =>
        gateKeys ++ [nextGate gateKeys snapshot.getResolutionKey]) (opened ++ [last]) =
      opened ++ [last] ++ (Timeline.gatesFrom last (entries ordered)).map Prod.fst := by
    intro ordered
    induction ordered with
    | nil => exact fun _ _ => (List.append_nil _).symm
    | cons snapshot ordered ih =>
        intro opened last
        have hgate : nextGate (opened ++ [last]) snapshot.getResolutionKey =
            max last snapshot.getResolutionKey := by
          rw [nextGate, List.getLast?_concat]
          dsimp only
          split
          · next hlt => exact (max_eq_left hlt.le).symm
          · next hle => exact (max_eq_right (not_lt.mp hle)).symm
        rw [List.foldl_cons, hgate, ih, List.append_assoc (opened ++ [last])]
        rfl
  cases ordered with
  | nil => rfl
  | cons snapshot ordered => exact hfrom ordered [] snapshot.getResolutionKey

theorem gates_snapshots (ordered : List SignalSnapshot) :
    (Timeline.gates (entries ordered)).map Prod.snd = ordered := by
  have hfrom : ∀ (ordered : List SignalSnapshot) (opened : Instant),
      (Timeline.gatesFrom opened (entries ordered)).map Prod.snd = ordered := by
    intro ordered
    induction ordered with
    | nil => exact fun _ => rfl
    | cons snapshot ordered ih => exact fun opened => congrArg (snapshot :: ·) (ih _)
  cases ordered with
  | nil => rfl
  | cons snapshot ordered => exact congrArg (snapshot :: ·) (hfrom ordered _)

theorem current_entries_eq_some_iff {ordered : List SignalSnapshot} {t : Instant}
    {snapshot : SignalSnapshot} :
    Timeline.current (entries ordered) t = some snapshot ↔
      ∃ ahead behind, ordered = ahead ++ snapshot :: behind ∧
        (∀ other ∈ ahead, other.getResolutionKey ≤ t) ∧ snapshot.getResolutionKey ≤ t ∧
          ∀ next ∈ behind.head?, t < next.getResolutionKey := by
  rw [Timeline.current_eq_some_iff, entries]
  constructor
  · rintro ⟨ahead, entry, behind, hsplit, hvalue, hahead, hcome, hnext⟩
    obtain ⟨ahead, rest, rfl, rfl, hrest⟩ := List.map_eq_append_iff.mp hsplit
    obtain ⟨snapshot', behind, rfl, rfl, rfl⟩ := List.map_eq_cons_iff.mp hrest
    cases hvalue
    exact ⟨ahead, behind, rfl, by simpa using hahead, hcome, by simpa [List.head?_map] using hnext⟩
  · rintro ⟨ahead, behind, rfl, hahead, hcome, hnext⟩
    refine ⟨entries ahead, (snapshot.getResolutionKey, snapshot), entries behind, ?_, rfl, ?_,
      hcome, ?_⟩
    · rw [List.map_append, List.map_cons]
      rfl
    · simpa [entries] using hahead
    · simpa [entries, List.head?_map] using hnext

def resolved (symbol : String) (snapshot : SignalSnapshot) : ResolvedSignal where
  collectedMsc := snapshot.collectedMsc
  result := extractSymbol snapshot symbol
  evidenceAsOf := snapshot.getEvidenceAsOf

def SignalDataProvider.resolvedAt (provider : SignalDataProvider) (timestamp : Instant) :
    Option SignalSnapshot :=
  match bisectRight provider.gateKeys timestamp with
  | 0 => none
  | idx + 1 => provider.snapshots[idx]?

theorem SignalDataProvider.nearest_eq_resolvedAt (provider : SignalDataProvider)
    (timestamp : Instant) (symbol : String) :
    provider.nearest timestamp symbol = (provider.resolvedAt timestamp).map (resolved symbol) := by
  unfold nearest resolvedAt
  cases bisectRight provider.gateKeys timestamp <;> rfl

theorem resolvedAt_reindex (signalKind : String) (snapshots : List SignalSnapshot)
    (timestamp : Instant) :
    (reindex signalKind snapshots).resolvedAt timestamp =
      Timeline.current (entries (streamOrder snapshots)) timestamp := by
  have hprovider : (reindex signalKind snapshots).snapshots = streamOrder snapshots ∧
      (reindex signalKind snapshots).gateKeys = gateKeysOf (streamOrder snapshots) := ⟨rfl, rfl⟩
  rw [SignalDataProvider.resolvedAt, hprovider.1, hprovider.2, ← Timeline.current_gates,
    Timeline.current, gateKeysOf_eq, bisectRight, List.takeWhile_map, List.length_map]
  have hordered := gates_snapshots (streamOrder snapshots)
  generalize Timeline.gates (entries (streamOrder snapshots)) = opened at hordered ⊢
  generalize hreached : opened.takeWhile (fun entry => decide (entry.1 ≤ timestamp)) = reached
  have hreached' : opened.takeWhile ((fun key => decide (key ≤ timestamp)) ∘ Prod.fst) = reached :=
    hreached
  rw [hreached']
  have hprefix : reached <+: opened := hreached ▸ List.takeWhile_prefix _
  rcases List.eq_nil_or_concat reached with hnil | ⟨earlier, entry, hconcat⟩
  · rw [hnil]
    rfl
  · obtain ⟨later, hlater⟩ := hprefix
    rw [List.concat_eq_append] at hconcat
    rw [hconcat, List.length_append, List.length_singleton, List.getLast?_concat, ← hordered,
      ← hlater, hconcat]
    simp

theorem nearest_eq (series : SignalSeries) (timestamp : Instant) (symbol : String) :
    (SignalDataProvider.ofSeries series).nearest timestamp symbol =
      (Timeline.current (entries (streamOrder series.snapshots)) timestamp).map
        (resolved symbol) := by
  rw [SignalDataProvider.nearest_eq_resolvedAt]
  exact congrArg (Option.map (resolved symbol)) (resolvedAt_reindex _ _ _)

end Lookups

def numbered (seq : ℤ) (collectedMsc availableMsc : Instant) : SignalSnapshot where
  schemaVersion := "2.0"
  seq := some seq
  streamEpoch := some 1
  availableMsc := some availableMsc
  collectedMsc := collectedMsc

end Finiex.Signals
