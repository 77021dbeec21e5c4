import Finiex.TickFiles
import Finiex.SweepRuns
import Finiex.WindowProfiles
import Finiex.Lib.Displacement

/-!
# Tick imports

The archive of tick files over any sequence of imports: which exports are converted, which are
refused, and what of the archive a later import replaces.
-/

namespace Finiex.TickImports

open Finiex.Types
open Finiex.Lib
open Finiex.Lib.Displacement
open Finiex.Bars
open Finiex.Coverage
open Finiex.Splitters
open Finiex.WindowProfiles
open Finiex.TickFiles

section Exports

/-- A tick of an export; `none` where the key is missing. -/
structure JsonTick where
  timestamp : Instant
  timeMsc : Option ℤ := none
  collectedMsc : Option ℤ := none
  bid : ℚ
  ask : ℚ
  realVolume : ℚ := 0
  session : Option String := none

structure ExportMetadata where
  brokerType : Option String := none
  dataCollector : Option String := none
  symbol : Option String := none
  startTime : Option Instant := none
  collectedMscTimebase : Option String := none

structure ExportData where
  metadata : ExportMetadata
  ticks : List JsonTick
  totalTicks : Option ℕ := none

/-- A file to import; without data where it cannot be read or lacks `ticks` or `metadata`. -/
structure JsonExport where
  name : String
  data : Option ExportData
  readAt : Instant := 0

structure ImporterSettings where
  override : Bool := false
  offsetRegistry : Dict String ℤ := ∅
  /-- The broker types of the market configuration. -/
  brokerTypes : List String
  /-- `str.lower`. -/
  lower : String → String
  /-- The nearest number of single precision. -/
  float32 : ℚ → ℚ

inductive ImportError
  | invalidStructure
  | missingValues
  | missingBrokerType
  | unknownBrokerType (brokerType : String)
  | validationFailed (errors : List FileError)
  deriving DecidableEq

end Exports

section Tables

/-- A row of a tick table: what the archive keeps of it, and its session. -/
structure ImportedRow extends ArchivedRow where
  session : Option String := none
  deriving DecidableEq

/-- A tick table: all of its rows have the column `time_msc`, or none has. -/
structure ImportedTable where
  rows : List ImportedRow
  hasTimeMsc : Bool
  uniform : ∀ row ∈ rows, row.timeMsc.isSome = hasTimeMsc
  deriving DecidableEq

/-- The same rows, each changed by a function that keeps the column `time_msc`. -/
def ImportedTable.map (table : ImportedTable) (f : ImportedRow → ImportedRow)
    (hf : ∀ row, (f row).timeMsc.isSome = row.timeMsc.isSome) : ImportedTable where
  rows := table.rows.map f
  hasTimeMsc := table.hasTimeMsc
  uniform := by
    intro row hrow
    obtain ⟨source, hsource, rfl⟩ := List.mem_map.mp hrow
    rw [hf, table.uniform source hsource]

def toRow (float32 : ℚ → ℚ) (tick : JsonTick) : ImportedRow where
  timestamp := tick.timestamp
  timeMsc := tick.timeMsc
  collectedMsc := tick.collectedMsc.getD 0
  bid := float32 tick.bid
  ask := float32 tick.ask
  volume := float32 tick.realVolume
  session := tick.session

/-- The table of an export; a column of whole numbers that misses a value raises. -/
def optimizeDatatypes (float32 : ℚ → ℚ) (ticks : List JsonTick) :
    Except ImportError ImportedTable :=
  let rows := ticks.map (toRow float32)
  if ticks.any (fun tick => tick.collectedMsc.isSome) ∧
      ticks.any (fun tick => tick.collectedMsc.isNone) then .error .missingValues
  else if htimed : ∀ row ∈ rows, row.timeMsc.isSome = true then .ok ⟨rows, true, htimed⟩
  else if huntimed : ∀ row ∈ rows, row.timeMsc.isSome = false then .ok ⟨rows, false, huntimed⟩
  else .error .missingValues

def shiftRow (offsetHours : ℤ) (row : ImportedRow) : ImportedRow :=
  { row with
    timestamp := row.timestamp + hours offsetHours
    timeMsc := row.timeMsc.map (· + offsetHours * 3600000) }

/-- Event times move to UTC; the arrival times are left as they are. -/
def applyTimeOffset (table : ImportedTable) (offsetHours : ℤ) : ImportedTable :=
  table.map (shiftRow offsetHours) fun row => by simp [shiftRow]

def recalculateSessions (table : ImportedTable) : ImportedTable :=
  if table.rows.any fun row => row.session.isSome then
    table.map
      (fun row => { row with
        session := some (sessionValue (getSessionFromUtcHour (hourOf row.timestamp))) })
      fun _ => rfl
  else table

def ImportedTable.toArchivedFile (table : ImportedTable) (declaredTickCount : Option ℕ)
    (collectedMscIsUtc : Bool) : ArchivedFile where
  rows := table.rows.map ImportedRow.toArchivedRow
  hasTimeMsc := table.hasTimeMsc
  uniform := by
    intro row hrow
    obtain ⟨source, hsource, rfl⟩ := List.mem_map.mp hrow
    exact table.uniform source hsource
  declaredTickCount := declaredTickCount
  collectedMscIsUtc := collectedMscIsUtc

end Tables

section Brokers

def strip (text : String) : String :=
  String.ofList
    (((text.toList.dropWhile SweepRuns.isSpace).reverse.dropWhile SweepRuns.isSpace).reverse)

def isPlain (c : Char) : Bool :=
  ('a' ≤ c && c ≤ 'z') || ('0' ≤ c && c ≤ '9') || c == '_'

/-- `_normalize_broker_type`: whatever is not a letter, a digit or `_` becomes `_`. -/
def normalizeBrokerType (lower : String → String) (brokerType : String) : String :=
  String.ofList ((strip (lower brokerType)).toList.map fun c => if isPlain c then c else '_')

def validateBrokerType (settings : ImporterSettings) (metadata : ExportMetadata) :
    Except ImportError String :=
  match metadata.brokerType.or metadata.dataCollector with
  | none => .error .missingBrokerType
  | some brokerType =>
      let normalized := normalizeBrokerType settings.lower brokerType
      if normalized ∈ settings.brokerTypes then .ok normalized
      else .error (.unknownBrokerType normalized)

end Brokers

section Archive

/-- Where an imported file lies: its directory, and the second in its name. -/
structure TickPath where
  brokerType : String
  symbol : String
  startSecond : ℤ
  deriving DecidableEq

structure ParquetFile where
  path : TickPath
  sourceFile : String
  table : ImportedTable
  tickCount : ℕ
  userTimeOffsetHours : ℤ
  utcConversionApplied : Bool
  deriving DecidableEq

structure TickArchive where
  files : List ParquetFile
  nodup : (files.map ParquetFile.path).Nodup

def TickArchive.empty : TickArchive := ⟨[], List.nodup_nil⟩

/-- Writing a file: one that lies at the same path is overwritten. -/
def TickArchive.write (archive : TickArchive) (file : ParquetFile) : TickArchive where
  files := (archive.files.filter fun other => decide (other.path ≠ file.path)) ++ [file]
  nodup := by
    rw [List.map_append, List.nodup_append]
    refine ⟨archive.nodup.sublist (List.filter_sublist.map _), List.nodup_singleton _, ?_⟩
    rintro path hpath other hother rfl
    obtain ⟨kept, hkept, rfl⟩ := List.mem_map.mp hpath
    have hne : kept.path ≠ file.path := by simpa using (List.mem_filter.mp hkept).2
    exact hne (by simpa using hother)

def TickArchive.unlink (archive : TickArchive) (path : TickPath) : TickArchive where
  files := archive.files.filter fun other => decide (other.path ≠ path)
  nodup := archive.nodup.sublist (List.filter_sublist.map _)

/-- The file of a symbol that was imported from the same source, of whichever broker. -/
def TickArchive.checkForExistingDuplicate (archive : TickArchive) (sourceFile symbol : String) :
    Option ParquetFile :=
  archive.files.find? fun file => decide (file.path.symbol = symbol ∧ file.sourceFile = sourceFile)

end Archive

section Imports

/-- An export on its way into the archive. -/
structure Conversion where
  file : ParquetFile
  validation : TickFileValidationResult

/-- `convert_json_to_parquet` up to the validation; an export without ticks is passed over. -/
def prepareExport (settings : ImporterSettings) (json : JsonExport) :
    Except ImportError (Option Conversion) :=
  match json.data with
  | none => .error .invalidStructure
  | some data =>
      if data.ticks = [] then .ok none
      else do
        let table ← optimizeDatatypes settings.float32 data.ticks
        let brokerType ← validateBrokerType settings data.metadata
        let fileOffset := settings.offsetRegistry.getD brokerType 0
        let table :=
          if fileOffset ≠ 0 then recalculateSessions (applyTimeOffset table fileOffset) else table
        let symbol := data.metadata.symbol.getD "UNKNOWN"
        return some {
          file := {
            path := {
              brokerType := brokerType
              symbol := symbol
              startSecond := data.metadata.startTime.getD json.readAt / 1000000 }
            sourceFile := json.name
            table := table
            tickCount := table.rows.length
            userTimeOffsetHours := fileOffset
            utcConversionApplied := decide (fileOffset ≠ 0) }
          validation := validateFile (table.toArchivedFile data.totalTicks
            (decide (data.metadata.collectedMscTimebase = some "utc"))) }

inductive BatchWarning
  | fileWarning (name : String) (warning : FileWarning)
  | duplicateDetected (name : String)
  deriving DecidableEq

inductive BatchError
  | validationFailed (name : String)
  | failed (name : String) (error : ImportError)
  deriving DecidableEq

structure Importer where
  archive : TickArchive
  processedFiles : ℕ := 0
  totalTicks : ℕ := 0
  errors : List BatchError := []
  warnings : List BatchWarning := []
  processedBrokerTypes : List String := []

/-- What `convert_json_to_parquet` raises. -/
inductive ConversionFailure
  | refused (error : ImportError)
  | artificialDuplicate (existing : TickPath)
  deriving DecidableEq

def Importer.writeParquet (importer : Importer) (file : ParquetFile) : Importer :=
  { importer with
    archive := importer.archive.write file
    totalTicks := importer.totalTicks + file.tickCount }

def Importer.note (importer : Importer) (conversion : Conversion) : Importer :=
  { importer with
    processedBrokerTypes := importer.processedBrokerTypes.insert conversion.file.path.brokerType
    warnings := importer.warnings ++
      conversion.validation.warnings.map (.fileWarning conversion.file.sourceFile) }

def convertJsonToParquet (settings : ImporterSettings) (importer : Importer) (json : JsonExport) :
    Importer × Except ConversionFailure Unit :=
  match prepareExport settings json with
  | .error error => (importer, .error (.refused error))
  | .ok none => (importer, .ok ())
  | .ok (some conversion) =>
      let importer := importer.note conversion
      let file := conversion.file
      if conversion.validation.errors ≠ [] then
        (importer, .error (.refused (.validationFailed conversion.validation.errors)))
      else
        match importer.archive.checkForExistingDuplicate json.name file.path.symbol with
        | none => (importer.writeParquet file, .ok ())
        | some existing =>
            if settings.override then
              ({ importer with archive := importer.archive.unlink existing.path }.writeParquet file,
                .ok ())
            else (importer, .error (.artificialDuplicate existing.path))

/-- One file of a batch; an error does not stop the batch. -/
def processExport (settings : ImporterSettings) (importer : Importer) (json : JsonExport) :
    Importer :=
  match convertJsonToParquet settings importer json with
  | (importer, .ok _) => { importer with processedFiles := importer.processedFiles + 1 }
  | (importer, .error (.artificialDuplicate _)) =>
      { importer with warnings := importer.warnings ++ [.duplicateDetected json.name] }
  | (importer, .error (.refused (.validationFailed _))) =>
      { importer with errors := importer.errors ++ [.validationFailed json.name] }
  | (importer, .error (.refused error)) =>
      { importer with errors := importer.errors ++ [.failed json.name error] }

def processAllExports (settings : ImporterSettings) (archive : TickArchive)
    (exports : List JsonExport) : Importer :=
  exports.foldl (processExport settings) { archive := archive }

structure Batch where
  settings : ImporterSettings
  exports : List JsonExport

def runBatches (archive : TickArchive) (batches : List Batch) : TickArchive :=
  batches.foldl (fun archive batch =>
    (processAllExports batch.settings archive batch.exports).archive) archive

end Imports

section Log

variable {archive : TickArchive} {file : ParquetFile}

/-- A valid file that an export becomes. -/
def Converts (settings : ImporterSettings) (json : JsonExport) (file : ParquetFile) : Prop :=
  ∃ conversion, prepareExport settings json = .ok (some conversion) ∧
    conversion.validation.errors = [] ∧ conversion.file = file

def TickArchive.importFile (archive : TickArchive) (file : ParquetFile) : TickArchive :=
  match archive.checkForExistingDuplicate file.sourceFile file.path.symbol with
  | none => archive.write file
  | some existing => (archive.unlink existing.path).write file

def importedFile (archive : TickArchive) (call : ImporterSettings × JsonExport) :
    Option ParquetFile :=
  match prepareExport call.1 call.2 with
  | .ok (some conversion) =>
      if conversion.validation.errors = [] ∧ (call.1.override = true ∨
          archive.checkForExistingDuplicate call.2.name conversion.file.path.symbol = none) then
        some conversion.file
      else none
  | _ => none

def TickArchive.afterCall (archive : TickArchive) (call : ImporterSettings × JsonExport) :
    TickArchive :=
  (importedFile archive call).elim archive archive.importFile

def importLog : TickArchive → List (ImporterSettings × JsonExport) → List ParquetFile
  | _, [] => []
  | archive, call :: calls =>
      (importedFile archive call).toList ++ importLog (archive.afterCall call) calls

def calls (batches : List Batch) : List (ImporterSettings × JsonExport) :=
  batches.flatMap fun batch => batch.exports.map fun json => (batch.settings, json)

theorem sourceFile_of_prepare {settings : ImporterSettings} {json : JsonExport}
    {conversion : Conversion} (h : prepareExport settings json = .ok (some conversion)) :
    conversion.file.sourceFile = json.name := by
  rw [prepareExport] at h
  split at h
  · cases h
  · split at h
    · cases h
    · obtain ⟨table, -, h⟩ := Run.bind_eq_ok.mp h
      obtain ⟨brokerType, -, h⟩ := Run.bind_eq_ok.mp h
      cases h
      rfl

theorem convertJsonToParquet_archive (settings : ImporterSettings) (importer : Importer)
    (json : JsonExport) :
    (convertJsonToParquet settings importer json).1.archive =
      importer.archive.afterCall (settings, json) := by
  rw [convertJsonToParquet, TickArchive.afterCall, importedFile]
  cases hprepare : prepareExport settings json with
  | error error => rfl
  | ok prepared =>
      cases prepared with
      | none => rfl
      | some conversion =>
          have hsource := sourceFile_of_prepare hprepare
          by_cases hvalid : conversion.validation.errors = []
          · cases hduplicate : importer.archive.checkForExistingDuplicate json.name
                conversion.file.path.symbol with
            | none =>
                simp [hvalid, hduplicate, Importer.note, Importer.writeParquet,
                  TickArchive.importFile, hsource]
            | some existing =>
                cases hoverride : settings.override <;>
                  simp [hvalid, hduplicate, Importer.note, Importer.writeParquet,
                    TickArchive.importFile, hsource]
          · simp [hvalid, Importer.note]

theorem processExport_archive (settings : ImporterSettings) (importer : Importer)
    (json : JsonExport) :
    (processExport settings importer json).archive =
      importer.archive.afterCall (settings, json) := by
  rw [← convertJsonToParquet_archive, processExport]
  split <;> next hconvert => rw [hconvert]

theorem processAllExports_archive (settings : ImporterSettings) (archive : TickArchive)
    (exports : List JsonExport) :
    (processAllExports settings archive exports).archive =
      (exports.map fun json => (settings, json)).foldl TickArchive.afterCall archive := by
  have hfold : ∀ importer : Importer,
      (exports.foldl (processExport settings) importer).archive =
        (exports.map fun json => (settings, json)).foldl TickArchive.afterCall importer.archive := by
    induction exports with
    | nil => exact fun importer => rfl
    | cons json exports ih =>
        intro importer
        rw [List.foldl_cons, ih, processExport_archive, List.map_cons, List.foldl_cons]
  exact hfold { archive := archive }

theorem runBatches_eq (archive : TickArchive) (batches : List Batch) :
    runBatches archive batches = (calls batches).foldl TickArchive.afterCall archive := by
  induction batches generalizing archive with
  | nil => rfl
  | cons batch batches ih =>
      rw [runBatches, List.foldl_cons, ← runBatches, ih, processAllExports_archive, calls, calls,
        List.flatMap_cons, List.foldl_append]

theorem converts_of_importedFile {call : ImporterSettings × JsonExport}
    (h : importedFile archive call = some file) : Converts call.1 call.2 file := by
  rw [importedFile] at h
  split at h
  · next conversion hprepare =>
      split at h
      · next hwritten => exact ⟨conversion, hprepare, hwritten.1, Option.some.inj h⟩
      · cases h
  · cases h

theorem converts_of_mem_importLog {log : List (ImporterSettings × JsonExport)}
    (h : file ∈ importLog archive log) : ∃ call ∈ log, Converts call.1 call.2 file := by
  induction log generalizing archive with
  | nil => cases h
  | cons call log ih =>
      rcases List.mem_append.mp h with hcall | hlater
      · exact ⟨call, List.mem_cons_self, converts_of_importedFile (Option.mem_toList.mp hcall)⟩
      · obtain ⟨other, hother, hconverts⟩ := ih hlater
        exact ⟨other, List.mem_cons_of_mem call hother, hconverts⟩

theorem importLog_append (archive : TickArchive)
    (earlier later : List (ImporterSettings × JsonExport)) :
    importLog archive (earlier ++ later) =
      importLog archive earlier ++
        importLog (earlier.foldl TickArchive.afterCall archive) later := by
  induction earlier generalizing archive with
  | nil => rfl
  | cons call earlier ih => simp [importLog, ih]

end Log

section Displaced

variable {archive : TickArchive} {file other : ParquetFile}

/-- What a file was imported from: no two files of a symbol come from one export. -/
def ParquetFile.source (file : ParquetFile) : String × String :=
  (file.path.symbol, file.sourceFile)

/-- A later import replaces the file at its path and the one from its source. -/
def displaces (later file : ParquetFile) : Bool :=
  decide (file.path = later.path ∨ file.source = later.source)

def TickArchive.SourcesDistinct (archive : TickArchive) : Prop :=
  (archive.files.map ParquetFile.source).Nodup

theorem displaces_eq_false_iff :
    displaces other file = false ↔ file.path ≠ other.path ∧ file.source ≠ other.source := by
  simp [displaces]

theorem TickArchive.sourcesDistinct_iff :
    archive.SourcesDistinct ↔
      archive.files.Pairwise fun file later => displaces later file = false := by
  have hpaths : archive.files.Pairwise fun file later => file.path ≠ later.path :=
    List.pairwise_map.mp archive.nodup
  simp only [displaces_eq_false_iff, List.pairwise_and_iff]
  constructor
  · intro h
    exact ⟨hpaths, List.pairwise_map.mp h⟩
  · rintro ⟨-, hsources⟩
    exact List.pairwise_map.mpr hsources

theorem checkForExistingDuplicate_eq_none_iff :
    archive.checkForExistingDuplicate file.sourceFile file.path.symbol = none ↔
      ∀ other ∈ archive.files, other.source ≠ file.source := by
  simp [TickArchive.checkForExistingDuplicate, ParquetFile.source]

theorem exists_source_of_converts {call : ImporterSettings × JsonExport}
    (h : Converts call.1 call.2 file) :
    ∃ held ∈ archive.files ++ (importedFile archive call).toList, held.source = file.source := by
  obtain ⟨conversion, hprepare, hvalid, rfl⟩ := h
  have hname := sourceFile_of_prepare hprepare
  by_cases hwritten : call.1.override = true ∨
      archive.checkForExistingDuplicate call.2.name conversion.file.path.symbol = none
  · have hfile : importedFile archive call = some conversion.file := by
      simp [importedFile, hprepare, hvalid, hwritten]
    exact ⟨conversion.file, by simp [hfile], rfl⟩
  · obtain ⟨-, hduplicate⟩ := not_or.mp hwritten
    obtain ⟨existing, hexisting⟩ := Option.ne_none_iff_exists'.mp hduplicate
    refine ⟨existing, List.mem_append_left _ (List.mem_of_find?_eq_some hexisting), ?_⟩
    simpa [ParquetFile.source, hname] using List.find?_some hexisting

theorem TickArchive.importFile_files (h : archive.SourcesDistinct) (file : ParquetFile) :
    (archive.importFile file).files = Displacement.put displaces archive.files file := by
  rw [TickArchive.importFile, Displacement.put]
  cases hduplicate : archive.checkForExistingDuplicate file.sourceFile file.path.symbol with
  | none =>
      have hnone := checkForExistingDuplicate_eq_none_iff.mp hduplicate
      refine congrArg (· ++ [file]) (List.filter_congr ?_)
      intro other hother
      simp [displaces, hnone other hother]
  | some existing =>
      have hfound := List.mem_of_find?_eq_some hduplicate
      have hsource : existing.source = file.source := by
        simpa [ParquetFile.source] using List.find?_some hduplicate
      refine congrArg (· ++ [file]) ?_
      rw [TickArchive.unlink, List.filter_filter]
      apply List.filter_congr
      intro other hother
      -- the file that was found is the only one from its source
      have hpath : other.path = existing.path ↔ other.source = file.source := by
        constructor
        · intro heq
          rw [List.inj_on_of_nodup_map archive.nodup hother hfound heq, hsource]
        · intro heq
          rw [List.inj_on_of_nodup_map h hother hfound (heq.trans hsource.symm)]
      simp [displaces, hpath]

theorem TickArchive.SourcesDistinct.importFile (h : archive.SourcesDistinct)
    (file : ParquetFile) : (archive.importFile file).SourcesDistinct := by
  have hsettled := Displacement.survivors_eq_self_iff.mpr (TickArchive.sourcesDistinct_iff.mp h)
  rw [TickArchive.sourcesDistinct_iff, TickArchive.importFile_files h, ← hsettled,
    ← Displacement.survivors_concat]
  exact Displacement.pairwise_survivors _

theorem TickArchive.SourcesDistinct.afterCall (h : archive.SourcesDistinct)
    (call : ImporterSettings × JsonExport) : (archive.afterCall call).SourcesDistinct := by
  rw [TickArchive.afterCall]
  cases importedFile archive call with
  | none => exact h
  | some file => exact h.importFile file

theorem TickArchive.SourcesDistinct.afterCalls (h : archive.SourcesDistinct)
    (log : List (ImporterSettings × JsonExport)) :
    (log.foldl TickArchive.afterCall archive).SourcesDistinct := by
  induction log generalizing archive with
  | nil => exact h
  | cons call log ih => exact ih (h.afterCall call)

theorem TickArchive.SourcesDistinct.files_afterCalls (h : archive.SourcesDistinct)
    (log : List (ImporterSettings × JsonExport)) :
    (log.foldl TickArchive.afterCall archive).files =
      survivors displaces (archive.files ++ importLog archive log) := by
  rw [← Displacement.foldl_put,
    Displacement.survivors_eq_self_iff.mpr (TickArchive.sourcesDistinct_iff.mp h)]
  induction log generalizing archive with
  | nil => rfl
  | cons call log ih =>
      rw [List.foldl_cons, ih (h.afterCall call), importLog, List.foldl_append]
      refine congrArg (List.foldl _ · _) ?_
      rw [TickArchive.afterCall]
      cases importedFile archive call with
      | none => rfl
      | some file => exact TickArchive.importFile_files h file

/-- What an import without override replaces: the file at its path. -/
def overwrites (later file : ParquetFile) : Bool := decide (file.path = later.path)

theorem TickArchive.afterCall_files_of_kept {call : ImporterSettings × JsonExport}
    (hkept : call.1.override = false) :
    (archive.afterCall call).files =
      (importedFile archive call).toList.foldl (put overwrites) archive.files := by
  rw [TickArchive.afterCall]
  cases himported : importedFile archive call with
  | none => rfl
  | some file =>
      have hnew : archive.checkForExistingDuplicate file.sourceFile file.path.symbol = none := by
        rw [importedFile] at himported
        split at himported
        · next conversion hprepare =>
            split at himported
            · next hwritten =>
                obtain rfl := Option.some.inj himported
                rw [sourceFile_of_prepare hprepare]
                exact hwritten.2.resolve_left (by simp [hkept])
            · cases himported
        · cases himported
      simp [TickArchive.importFile, hnew, TickArchive.write, put, overwrites]

theorem TickArchive.files_afterCalls_of_kept (archive : TickArchive)
    (log : List (ImporterSettings × JsonExport))
    (hkept : ∀ call ∈ log, call.1.override = false) :
    (log.foldl TickArchive.afterCall archive).files =
      survivors overwrites (archive.files ++ importLog archive log) := by
  have hpaths : archive.files.Pairwise fun file later => overwrites later file = false := by
    simpa [overwrites] using List.pairwise_map.mp archive.nodup
  rw [← Displacement.foldl_put, Displacement.survivors_eq_self_iff.mpr hpaths]
  clear hpaths
  induction log generalizing archive with
  | nil => rfl
  | cons call log ih =>
      rw [List.foldl_cons, ih _ (fun other hother => hkept other (List.mem_cons_of_mem call hother)),
        importLog, List.foldl_append,
        TickArchive.afterCall_files_of_kept (hkept call List.mem_cons_self)]

/-- A valid export lies in the log, or was found to lie in the archive already. -/
theorem TickArchive.SourcesDistinct.exists_source (h : archive.SourcesDistinct)
    {log : List (ImporterSettings × JsonExport)} {call : ImporterSettings × JsonExport}
    (hcall : call ∈ log) (hconverts : Converts call.1 call.2 file) :
    ∃ held ∈ archive.files ++ importLog archive log, held.source = file.source := by
  obtain ⟨earlier, later, rfl⟩ := List.append_of_mem hcall
  obtain ⟨held, hheld, hsource⟩ :=
    @exists_source_of_converts (earlier.foldl TickArchive.afterCall archive) _ _ hconverts
  refine ⟨held, ?_, hsource⟩
  rw [importLog_append, importLog, ← List.append_assoc]
  rcases List.mem_append.mp hheld with hbefore | himported
  · rw [h.files_afterCalls] at hbefore
    exact List.mem_append_left _ ((Displacement.survivors_sublist _).subset hbefore)
  · exact List.mem_append_right _ (List.mem_append_left _ himported)

end Displaced

section Runs

variable {archive : TickArchive} {batches : List Batch}

theorem mem_calls {call : ImporterSettings × JsonExport} :
    call ∈ calls batches ↔
      ∃ batch ∈ batches, ∃ json ∈ batch.exports, (batch.settings, json) = call := by
  simp [calls]

/-- Whatever is imported in whatever order and with whatever settings, the archive holds exactly
the files that no later import displaces, each the valid conversion of an export; and no valid
export is passed over that was not imported before. Without override a file gives way to nothing
but a file at its own path. -/
theorem runBatches_files (h : archive.SourcesDistinct) (batches : List Batch) :
    (runBatches archive batches).SourcesDistinct ∧
      (∀ file ∈ importLog archive (calls batches),
        ∃ batch ∈ batches, ∃ json ∈ batch.exports, Converts batch.settings json file) ∧
      (∀ batch ∈ batches, ∀ json ∈ batch.exports, ∀ file, Converts batch.settings json file →
        ∃ held ∈ archive.files ++ importLog archive (calls batches),
          held.source = file.source) ∧
      (∀ file, file ∈ (runBatches archive batches).files ↔
        ∃ earlier later,
          archive.files ++ importLog archive (calls batches) = earlier ++ file :: later ∧
            ∀ other ∈ later, file.path ≠ other.path ∧ file.source ≠ other.source) ∧
      ((∀ batch ∈ batches, batch.settings.override = false) →
        ∀ file, file ∈ (runBatches archive batches).files ↔
          ∃ earlier later,
            archive.files ++ importLog archive (calls batches) = earlier ++ file :: later ∧
              ∀ other ∈ later, file.path ≠ other.path) := by
  rw [runBatches_eq]
  refine ⟨h.afterCalls _, ?_, ?_, ?_, ?_⟩
  · intro file hfile
    obtain ⟨call, hcall, hconverts⟩ := converts_of_mem_importLog hfile
    obtain ⟨batch, hbatch, json, hjson, rfl⟩ := mem_calls.mp hcall
    exact ⟨batch, hbatch, json, hjson, hconverts⟩
  · intro batch hbatch json hjson file hconverts
    exact h.exists_source (mem_calls.mpr ⟨batch, hbatch, json, hjson, rfl⟩) hconverts
  · intro file
    rw [h.files_afterCalls, mem_survivors_iff]
    simp only [displaces_eq_false_iff]
  · intro hkept file
    have hcalls : ∀ call ∈ calls batches, call.1.override = false := by
      intro call hcall
      obtain ⟨batch, hbatch, json, -, rfl⟩ := mem_calls.mp hcall
      exact hkept batch hbatch
    rw [TickArchive.files_afterCalls_of_kept archive _ hcalls, mem_survivors_iff]
    simp only [overwrites, decide_eq_false_iff_not]

def importerSettings (override : Bool) : ImporterSettings where
  override := override
  brokerTypes := ["mt5"]
  lower text := String.ofList (text.toList.map Char.toLower)
  float32 := id

def oneTickExport (name : String) (startSecond : ℤ) : JsonExport where
  name := name
  data := some {
    metadata := {
      brokerType := some "MT5"
      symbol := some "EURUSD"
      startTime := some (startSecond * 1000000) }
    ticks := [{
      timestamp := (startSecond + 1) * 1000000
      timeMsc := some ((startSecond + 1) * 1000)
      collectedMsc := some ((startSecond + 1) * 1000 + 20)
      bid := 1
      ask := 2 }]
    totalTicks := some 1 }

/-- Two exports that start in the same second, and one that is imported again after a change. -/
def reimports : List Batch :=
  [ { settings := importerSettings false
      exports := [oneTickExport "a_ticks.json" 0, oneTickExport "c_ticks.json" 60,
        oneTickExport "b_ticks.json" 0, oneTickExport "c_ticks.json" 90] },
    { settings := importerSettings true, exports := [oneTickExport "c_ticks.json" 120] } ]

theorem runBatches_files_reimports :
    ((runBatches TickArchive.empty reimports).files.map fun file =>
        (file.sourceFile, file.path.startSecond)) =
      [("b_ticks.json", 0), ("c_ticks.json", 120)] ∧
    ∀ file, file ∈ (runBatches TickArchive.empty reimports).files ↔
      ∃ earlier later,
        TickArchive.empty.files ++ importLog TickArchive.empty (calls reimports) =
            earlier ++ file :: later ∧
          ∀ other ∈ later, file.path ≠ other.path ∧ file.source ≠ other.source :=
  ⟨by decide +kernel, (@runBatches_files TickArchive.empty List.nodup_nil reimports).2.2.2.1⟩

end Runs

end Finiex.TickImports
