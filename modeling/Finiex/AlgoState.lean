import Finiex.Fees
import Finiex.Lib.Files
import Finiex.Lib.PythonJson
import Mathlib.Data.Int.ConditionallyCompleteOrder
import Mathlib.Data.List.DropRight
import Mathlib.Order.ConditionallyCompleteLattice.Basic

/-!
# The algo state store

The memory of the bots of one state directory: what is saved of it, file by file and step by step,
what a crash leaves of that, and what a restarted bot loads.
-/

namespace Finiex.AlgoState

open Finiex.Types
open Finiex.Fees
open Finiex.Lib
open Finiex.Lib.PythonJson

section Types

/-- The methods of Python's strings and floats that file names and keys are built with. -/
structure PythonText where
  isalnum : Char → Bool
  lower : String → String
  floatRepr : ℚ → String

inductive OnCorrupt
  | warnReset | fail
  deriving DecidableEq

inductive OnStale
  | warnReset | halt
  deriving DecidableEq

structure StatePersistenceDefaults where
  maxAgeTradingDays : ℤ := 5
  onCorrupt : OnCorrupt := .warnReset
  onStale : OnStale := .warnReset

structure AlgoStateStore where
  config : StatePersistenceDefaults
  profile : String
  symbol : String
  weekendAware : Bool

structure RestoreContext where
  savedAtUtc : Instant
  nowUtc : Instant
  ageSeconds : ℚ
  tradingDays : ℤ
  weekendAware : Bool

/-- What a state file says; its instant is written by `isoformat` and read by `parse_datetime`. -/
structure Envelope where
  schemaVersion : ℤ
  savedAtUtc : Instant
  profile : String
  symbol : String
  snapshot : JsonText

inductive StoreError
  | notSerializable
  | unreadable
  | schemaVersion (found : ℤ)
  | stale (savedAt : Instant) (tradingDays maxAge : ℤ)
  | typeError

structure Payload (floatRepr : ℚ → String) where
  snapshot : PyValue
  savedAt : Instant
  json : JsonText
  dumped : dumps floatRepr snapshot = some json

end Types

section Preflight

structure DecisionLogic where
  name : String
  usesStatePersistence : Bool
  stateSnapshot : PyValue

def keyText (python : PythonText) : PyKey → String
  | .none => "None"
  | .bool true => "True"
  | .bool false => "False"
  | .int value => toString value
  | .float (.finite value) => python.floatRepr value
  | .float .infinity => "inf"
  | .float .negInfinity => "-inf"
  | .float .nan => "nan"
  | .text value => value
  | .other _ text => text

/-- The entries whose values are not serializable; the keys are not looked at. -/
def offenders (python : PythonText) : PyValue → List String
  | .dict entries =>
      (entries.filter fun entry => (dumps python.floatRepr entry.2).isNone).map fun entry =>
        "'" ++ keyText python entry.1 ++ "' (" ++ entry.2.typeName ++ ")"
  | _ => []

def validateStateSnapshotSerializable (python : PythonText) (logic : DecisionLogic) :
    Except String Unit :=
  if !logic.usesStatePersistence then .ok ()
  else
    match dumps python.floatRepr logic.stateSnapshot with
    | some _ => .ok ()
    | none =>
        let found := offenders python logic.stateSnapshot
        let detail :=
          if found.isEmpty then "snapshot type " ++ logic.stateSnapshot.typeName
          else ", ".intercalate found
        .error ("Decision logic '" ++ logic.name ++ "' get_state_snapshot() is not " ++
          "JSON-serializable: " ++ detail ++ ". Use only JSON primitives " ++
          "(str/int/float/bool/list/dict/None); store timestamps as ISO strings.")

theorem validate_eq_ok_iff (python : PythonText) (logic : DecisionLogic) :
    validateStateSnapshotSerializable python logic = .ok () ↔
      (logic.usesStatePersistence → (dumps python.floatRepr logic.stateSnapshot).isSome) := by
  unfold validateStateSnapshotSerializable
  cases logic.usesStatePersistence with
  | false => simp
  | true =>
      cases dumps python.floatRepr logic.stateSnapshot with
      | some json => simp
      | none => simp

end Preflight

section Names

variable (python : PythonText)

def sanitize (name : String) : String :=
  let token := name.toList.map fun c => if python.isalnum c then c else '_'
  python.lower (String.ofList ((token.dropWhile (· = '_')).rdropWhile (· = '_')))

/-- The state file of a bot in the directory. -/
def path (store : AlgoStateStore) : String :=
  sanitize python store.profile ++ "_" ++ sanitize python store.symbol ++ ".json"

def tmpPath (store : AlgoStateStore) : String := path python store ++ ".tmp"

theorem append_tmp_ne (stem other : String) : stem ++ ".json" ++ ".tmp" ≠ other ++ ".json" := by
  intro h
  have hlast := congrArg (fun name : String => name.toList.getLast?) h
  simp at hlast

theorem tmpPath_ne_path (store other : AlgoStateStore) :
    tmpPath python store ≠ path python other :=
  append_tmp_ne _ _

theorem path_eq_of_tmpPath_eq {store other : AlgoStateStore}
    (h : tmpPath python store = tmpPath python other) :
    path python store = path python other :=
  (String.append_left_inj _).mp h

end Names

section Store

variable {β : Type} (python : PythonText) (store : AlgoStateStore)

def schemaVersion : ℤ := 1

/-- What is left to write of a snapshot: nothing if it is empty. -/
def serialize (snapshot : PyValue) (now : Instant) :
    Except StoreError (Option (Payload python.floatRepr)) :=
  if !snapshot.truthy then .ok none
  else
    match h : dumps python.floatRepr snapshot with
    | some json => .ok (some ⟨snapshot, now, json, h⟩)
    | none => .error .notSerializable

def envelope (payload : Payload python.floatRepr) : Envelope where
  schemaVersion := schemaVersion
  savedAtUtc := payload.savedAt
  profile := store.profile
  symbol := store.symbol
  snapshot := payload.json

def getTradingDays (start «end» : Instant) : ℤ :=
  ((List.range (dayOf «end» - dayOf start + 1).toNat).filter fun n =>
    decide (weekday (dayOf start + n) ≤ 4)).length

def tradingDaysBetween (savedAt now : Instant) : ℤ :=
  if now ≤ savedAt then 0
  else if store.weekendAware then max 0 (getTradingDays savedAt now - 1)
  else (now - savedAt).fdiv microsecondsPerDay

def isStale (savedAt now : Instant) : Bool :=
  decide (store.config.maxAgeTradingDays > 0 ∧
    tradingDaysBetween store savedAt now > store.config.maxAgeTradingDays)

def handleCorrupt (reason : StoreError) : Except StoreError (Option (PyValue × RestoreContext)) :=
  match store.config.onCorrupt with
  | .fail => .error reason
  | .warnReset => .ok none

def handleStale (savedAt : Instant) (tradingDays : ℤ) :
    Except StoreError (Option (PyValue × RestoreContext)) :=
  match store.config.onStale with
  | .halt => .error (.stale savedAt tradingDays store.config.maxAgeTradingDays)
  | .warnReset => .ok none

theorem handleCorrupt_ne (reason : StoreError) (loaded : PyValue × RestoreContext) :
    handleCorrupt store reason ≠ .ok (some loaded) := by
  unfold handleCorrupt
  cases store.config.onCorrupt <;> exact nofun

theorem handleStale_ne (savedAt : Instant) (tradingDays : ℤ) (loaded : PyValue × RestoreContext) :
    handleStale store savedAt tradingDays ≠ .ok (some loaded) := by
  unfold handleStale
  cases store.config.onStale <;> exact nofun

def restoreContext (savedAt now : Instant) : RestoreContext where
  savedAtUtc := savedAt
  nowUtc := now
  ageSeconds := (max 0 (now - savedAt) : ℤ) / 1000000
  tradingDays := tradingDaysBetween store savedAt now
  weekendAware := store.weekendAware

/-- The keys of the snapshot are counted for the log. -/
def load (files : FileSystem String β Envelope) (now : Instant) :
    Except StoreError (Option (PyValue × RestoreContext)) :=
  match files.read (path python store) with
  | none => .ok none
  | some none => handleCorrupt store .unreadable
  | some (some envelope) =>
      if envelope.schemaVersion ≠ schemaVersion then
        handleCorrupt store (.schemaVersion envelope.schemaVersion)
      else if envelope.profile ≠ store.profile ∨ envelope.symbol ≠ store.symbol then .ok none
      else if isStale store envelope.savedAtUtc now then
        handleStale store envelope.savedAtUtc (tradingDaysBetween store envelope.savedAtUtc now)
      else
        match (loads envelope.snapshot).length with
        | none => .error .typeError
        | some _ =>
            .ok (some (loads envelope.snapshot, restoreContext store envelope.savedAtUtc now))

end Store

end Finiex.AlgoState
