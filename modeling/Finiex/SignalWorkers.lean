import Finiex.DataOutages
import Finiex.SignalRuns
import Finiex.Lib.Dict

namespace Finiex.SignalWorkers

open Finiex.Types
open Finiex.Lib
open Finiex.Signals
open Finiex.DataOutages

section Worker

inductive SignalResolution
  | fresh
  | stale
  | blind
  deriving DecidableEq

/-- A worker with its place of a provider, if one is injected, its notion of staleness, and the
mapping of a signal to its outputs. -/
structure SignalWorker (Output : Type) where
  name : String
  consumedSignalKind : String
  symbol : String
  provider : Option ℕ
  evaluateStale : Option ResolvedSignal → Instant → Bool
  buildResult : Option ResolvedSignal → Instant → Bool → Output

/-- `_evaluate_stale` of a worker that does not override it. -/
def olderThan (maxStalenessMinutes : ℕ) (resolved : Option ResolvedSignal) (now : Instant) : Bool :=
  match resolved with
  | none => true
  | some resolved => decide (60000000 * (maxStalenessMinutes : ℤ) < now - resolved.collectedMsc)

def classify (resolved : Option ResolvedSignal) (stale : Bool) : SignalResolution :=
  match resolved with
  | none => .blind
  | some _ => if stale then .stale else .fresh

structure WorkerResult (Output : Type) where
  resolved : Option ResolvedSignal
  outputs : Output
  isStale : Bool

/-- A worker with what it tracks, and what the orchestrator holds under its name. -/
structure SignalSlot (Output : Type) where
  worker : SignalWorker Output
  lastSnapshotMsc : Option Instant := none
  lastServedStale : Option Bool := none
  lastResolution : SignalResolution := .blind
  lastServedEvidence : Option Instant := none
  evidenceRegressed : Bool := false
  result : Option (WorkerResult Output) := none
  freshTicks : ℕ := 0
  staleTicks : ℕ := 0
  blindTicks : ℕ := 0
  offTickArrivals : ℕ := 0
  staleState : Bool := false
  episodeOpen : Option Instant := none

namespace SignalSlot

variable {Output : Type}

def evaluateEvidenceRegression (slot : SignalSlot Output) (resolved : Option ResolvedSignal) :
    SignalSlot Output :=
  match resolved.bind ResolvedSignal.evidenceAsOf with
  | none => { slot with evidenceRegressed := false }
  | some evidence =>
      { slot with
        lastServedEvidence := some evidence
        evidenceRegressed := slot.lastServedEvidence.any fun previous => evidence < previous }

def computeSignalAt (slot : SignalSlot Output) (provider : SignalDataProvider) (now : Instant) :
    SignalSlot Output :=
  let resolved := provider.nearest now slot.worker.symbol
  let stale := slot.worker.evaluateStale resolved now
  let evaluated := slot.evaluateEvidenceRegression resolved
  { evaluated with
    lastSnapshotMsc := resolved.map ResolvedSignal.collectedMsc
    lastServedStale := some stale
    lastResolution := classify resolved stale
    result := some
      { resolved := resolved
        outputs := slot.worker.buildResult resolved now evaluated.evidenceRegressed
        isStale := stale } }

/-- `should_refresh_at`, which records the resolution if the cached result may stay. -/
def shouldRefreshAt (slot : SignalSlot Output) (provider : SignalDataProvider) (now : Instant) :
    SignalSlot Output × Bool :=
  let resolved := provider.nearest now slot.worker.symbol
  if resolved.map ResolvedSignal.collectedMsc ≠ slot.lastSnapshotMsc then (slot, true)
  else
    let stale := slot.worker.evaluateStale resolved now
    ({ slot with lastResolution := classify resolved stale },
      decide (some stale ≠ slot.lastServedStale))

/-- A worker at a tick: it computes at first, and then when it should refresh. -/
def processTick (slot : SignalSlot Output) (provider : SignalDataProvider) (now : Instant) :
    SignalSlot Output :=
  match slot.result with
  | none => slot.computeSignalAt provider now
  | some _ =>
      let asked := slot.shouldRefreshAt provider now
      if asked.2 then asked.1.computeSignalAt provider now else asked.1

def processArrival (slot : SignalSlot Output) (provider : SignalDataProvider) (now : Instant) :
    SignalSlot Output :=
  let asked := slot.shouldRefreshAt provider now
  if asked.2 then
    { asked.1.computeSignalAt provider now with offTickArrivals := slot.offTickArrivals + 1 }
  else asked.1

/-- The decision logic is notified: the result has become stale. -/
def becomesStale (slot : SignalSlot Output) : Bool :=
  slot.result.any WorkerResult.isStale && !slot.staleState

def countTick (slot : SignalSlot Output) : SignalSlot Output :=
  match slot.lastResolution with
  | .fresh => { slot with freshTicks := slot.freshTicks + 1 }
  | .stale => { slot with staleTicks := slot.staleTicks + 1 }
  | .blind => { slot with blindTicks := slot.blindTicks + 1 }

def buildSignalEpisode (slot : SignalSlot Output) (started : Instant) (staleTo : Option Instant)
    (measuredEnd : Instant) : DisturbanceEpisode where
  source := ""
  domain := .signal
  staleFrom := started
  staleTo := staleTo
  durationSeconds := max 0 (measuredEnd - started)
  symbol := slot.worker.symbol

def recovered (slot : SignalSlot Output) (tickTime : Instant) : Option DisturbanceEpisode :=
  match slot.result with
  | none => none
  | some result =>
      if result.isStale then none
      else slot.episodeOpen.map fun started =>
        slot.buildSignalEpisode started (some tickTime) tickTime

/-- What a signal pass leaves of a worker. -/
def observe (slot : SignalSlot Output) (tickTime : Instant) (counting : Bool) :
    SignalSlot Output :=
  match slot.result with
  | none => slot
  | some result =>
      let counted := if counting then slot.countTick else slot
      { counted with
        episodeOpen :=
          if result.isStale then
            if slot.staleState then slot.episodeOpen else some tickTime
          else none
        staleState := result.isStale }

end SignalSlot

end Worker

section Orchestrator

inductive SignalWorkerError
  | providerNotInjected (name : String)
  deriving DecidableEq

structure WorkerOrchestrator (Output : Type) where
  slots : List (SignalSlot Output)
  providers : List SignalDataProvider
  ticksProcessed : ℕ := 0
  onSignalStale : List (String × String) := []
  signalEpisodes : List DisturbanceEpisode := []
  lastSignalPassTime : Option Instant := none

namespace WorkerOrchestrator

variable {Output : Type}

def ofWorkers (workers : List (SignalWorker Output)) (providers : List SignalDataProvider) :
    WorkerOrchestrator Output where
  slots := workers.map fun worker => { worker := worker }
  providers := providers

def requireProvider (orchestrator : WorkerOrchestrator Output) (worker : SignalWorker Output) :
    Except SignalWorkerError SignalDataProvider :=
  match worker.provider.bind fun place => orchestrator.providers[place]? with
  | some provider => .ok provider
  | none => .error (.providerNotInjected worker.name)

def processSignalPass (orchestrator : WorkerOrchestrator Output) (tickTime : Instant)
    (counting : Bool) : WorkerOrchestrator Output :=
  { orchestrator with
    slots := orchestrator.slots.map fun slot => slot.observe tickTime counting
    onSignalStale := orchestrator.onSignalStale ++
      (orchestrator.slots.filter SignalSlot.becomesStale).map fun slot =>
        (slot.worker.name, slot.worker.consumedSignalKind)
    signalEpisodes := orchestrator.signalEpisodes ++
      orchestrator.slots.filterMap fun slot => slot.recovered tickTime
    lastSignalPassTime := some tickTime }

def processTick (orchestrator : WorkerOrchestrator Output) (now : Instant) :
    Except SignalWorkerError (WorkerOrchestrator Output) := do
  let slots ← orchestrator.slots.mapM fun slot => do
    let provider ← orchestrator.requireProvider slot.worker
    return slot.processTick provider now
  let processed :=
    { orchestrator with slots := slots, ticksProcessed := orchestrator.ticksProcessed + 1 }
  return if slots.isEmpty then processed else processed.processSignalPass now true

def providerOf (orchestrator : WorkerOrchestrator Output) (kind : String) : Option ℕ :=
  (orchestrator.slots.filter fun slot => slot.worker.consumedSignalKind = kind).findSome?
    fun slot => slot.worker.provider

/-- Extend the provider of one kind; how many snapshots were new. -/
def mergeKind (orchestrator : WorkerOrchestrator Output)
    (merged : List SignalDataProvider × ℕ) (arrival : String × List SignalSnapshot) :
    List SignalDataProvider × ℕ :=
  match orchestrator.providerOf arrival.1 with
  | none => merged
  | some place =>
      match merged.1[place]? with
      | none => merged
      | some provider =>
          (merged.1.set place (provider.extend arrival.2).1,
            merged.2 + (provider.extend arrival.2).2)

def mergeSignalArrivals (orchestrator : WorkerOrchestrator Output)
    (arrivals : Dict String (List SignalSnapshot)) : WorkerOrchestrator Output × ℕ :=
  let merged := arrivals.entries.foldl orchestrator.mergeKind (orchestrator.providers, 0)
  ({ orchestrator with providers := merged.1 }, merged.2)

def processSignalArrivals (orchestrator : WorkerOrchestrator Output)
    (arrivals : Dict String (List SignalSnapshot)) (now : Instant) :
    Except SignalWorkerError (WorkerOrchestrator Output) := do
  let merged := orchestrator.mergeSignalArrivals arrivals
  if merged.2 = 0 then return merged.1
  let slots ← merged.1.slots.mapM fun slot => do
    if slot.worker.consumedSignalKind ∈ arrivals.keys then
      let provider ← merged.1.requireProvider slot.worker
      return slot.processArrival provider now
    else return slot
  return processSignalPass { merged.1 with slots := slots } now false

end WorkerOrchestrator

inductive Operation
  | tick (now : Instant)
  | merge (arrivals : Dict String (List SignalSnapshot))
  | arrive (arrivals : Dict String (List SignalSnapshot)) (now : Instant)

def WorkerOrchestrator.step {Output : Type} (orchestrator : WorkerOrchestrator Output) :
    Operation → Except SignalWorkerError (WorkerOrchestrator Output)
  | .tick now => orchestrator.processTick now
  | .merge arrivals => .ok (orchestrator.mergeSignalArrivals arrivals).1
  | .arrive arrivals now => orchestrator.processSignalArrivals arrivals now

def WorkerOrchestrator.run {Output : Type} (orchestrator : WorkerOrchestrator Output) :
    List Operation → Except SignalWorkerError (List (WorkerOrchestrator Output))
  | [] => .ok []
  | operation :: operations => do
      let next ← orchestrator.step operation
      let states ← next.run operations
      return next :: states

end Orchestrator

end Finiex.SignalWorkers
