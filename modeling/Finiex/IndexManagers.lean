import Finiex.Lib.Catalogues
import Finiex.Lib.Run
import Finiex.TickFiles
import Finiex.SignalLoading
import Finiex.Lib.Rounding

namespace Finiex.IndexManagers

open Finiex.Types
open Finiex.Lib
open Finiex.Lib.Run
open Catalogue
open Rounding

section Managers

/-- What the managers of the two indexes differ in. A scan of a file draws a sample of its rows;
under which keys it finds the file does not depend on it. -/
structure Manager (φ ε δ : Type) where
  path : φ → String
  modified : φ → ℚ
  scanFile : δ → φ → List (String × String × ε)
  entryPath : ε → String
  startTime : ε → Instant
  relevantFiles : List ε → Instant → Instant → List ε
  keys : φ → List (String × String)
  scanned_keys : ∀ draw file, (scanFile draw file).map (fun row => (row.1, row.2.1)) = keys file
  nodup_keys : ∀ file, (keys file).Nodup
  scanned_path : ∀ draw file, ∀ row ∈ scanFile draw file, entryPath row.2.2 = path file
  nodup_relevantFiles : ∀ entries startDate endDate, (entries.map entryPath).Nodup →
    ((relevantFiles entries startDate endDate).map entryPath).Nodup

variable {φ ε δ : Type}

structure Library (manager : Manager φ ε δ) where
  files : List φ
  distinct : (files.map manager.path).Nodup

structure IndexFile (ε : Type) where
  rows : List (String × String × ε)
  modified : ℚ

/-- An index in the old format: what is read of it, and whether it can be written in the new one
and be renamed. -/
structure LegacyFile (ε : Type) where
  index : Option (Catalogue String String ε)
  saved : Bool := true
  renamed : Bool := true

structure IndexManager (ε : Type) where
  index : Catalogue String String ε := ∅
  indexFile : Option (IndexFile ε) := none
  legacyJson : Option (LegacyFile ε) := none

structure Call (δ : Type) where
  forceRebuild : Bool := false
  checkStale : Bool := false
  now : ℚ
  draw : δ

variable {manager : Manager φ ε δ}

def Manager.sortEntries (manager : Manager φ ε δ) (entries : List ε) : List ε :=
  entries.insertionSort fun entry later => manager.startTime entry ≤ manager.startTime later

def Library.scan (library : Library manager) (draw : δ) : List (String × String × ε) :=
  library.files.flatMap (manager.scanFile draw)

namespace IndexManager

def needsRebuild (m : IndexManager ε) (library : Library manager) : Bool :=
  match m.indexFile with
  | none => true
  | some written => library.files.any fun file => decide (written.modified < manager.modified file)

/-- A call loads the written index without a scan. -/
def loads (m : IndexManager ε) (library : Library manager) (call : Call δ) : Bool :=
  !call.forceRebuild && m.indexFile.isSome && (!call.checkStale || !m.needsRebuild library)

def loadIndex (m : IndexManager ε) (manager : Manager φ ε δ) : IndexManager ε :=
  match m.indexFile with
  | none => { m with index := ∅ }
  | some written =>
      { m with index := mapEntries manager.sortEntries (addAll ∅ written.rows) }

def saveIndex (m : IndexManager ε) (now : ℚ) : IndexManager ε :=
  { m with indexFile := some ⟨rows m.index, now⟩ }

def migrateFromJson (m : IndexManager ε) (now : ℚ) : IndexManager ε × Bool :=
  match m.legacyJson with
  | none => (m, false)
  | some legacy =>
      match legacy.index with
      | none => (m, false)
      | some index =>
          let read := { m with index := index }
          if legacy.saved = false then (read, false)
          else if legacy.renamed then ({ read.saveIndex now with legacyJson := none }, true)
          else (read.saveIndex now, false)

/-- The migration of an old index, which is tried when no index has been written. -/
def migrated (m : IndexManager ε) (call : Call δ) : IndexManager ε × Bool :=
  if !call.forceRebuild && m.legacyJson.isSome && m.indexFile.isNone then m.migrateFromJson call.now
  else (m, false)

/-- The scan of `build_index`: the entries are added to the index there is. -/
def rescan (m : IndexManager ε) (library : Library manager) (call : Call δ) : IndexManager ε :=
  if library.files.isEmpty then { m with index := ∅ }
  else
    let index := mapEntries manager.sortEntries (addAll m.index (library.scan call.draw))
    saveIndex { m with index := index } call.now

def buildIndex (m : IndexManager ε) (library : Library manager) (call : Call δ) :
    IndexManager ε :=
  if m.loads library call then m.loadIndex manager
  else if (m.migrated call).2 then (m.migrated call).1
  else (m.migrated call).1.rescan library call

def getRelevantFiles (m : IndexManager ε) (manager : Manager φ ε δ) (source symbol : String)
    (startDate endDate : Instant) : List String :=
  (manager.relevantFiles (entriesOf m.index source symbol) startDate endDate).map manager.entryPath

end IndexManager

def Library.freshIndex (library : Library manager) (draw : δ) : Catalogue String String ε :=
  (({} : IndexManager ε).buildIndex library { forceRebuild := true, now := 0, draw := draw }).index

end Managers

section Entries

variable {φ ε δ : Type} {manager : Manager φ ε δ} (library : Library manager)

theorem entriesOf_sortEntries (index : Catalogue String String ε) (source symbol : String) :
    entriesOf (mapEntries manager.sortEntries index) source symbol =
      manager.sortEntries (entriesOf index source symbol) :=
  entriesOf_mapEntries rfl index source symbol

theorem sortEntries_perm (entries : List ε) : (manager.sortEntries entries).Perm entries :=
  List.perm_insertionSort _ entries

theorem sortEntries_sorted (entries : List ε) : (manager.sortEntries entries).Pairwise
    fun entry later => manager.startTime entry ≤ manager.startTime later := by
  have htotal : Std.Total fun entry later => manager.startTime entry ≤ manager.startTime later :=
    ⟨fun entry later => le_total _ _⟩
  have htrans : IsTrans ε fun entry later => manager.startTime entry ≤ manager.startTime later :=
    ⟨fun _ _ _ => le_trans⟩
  exact List.pairwise_insertionSort _ entries

theorem sortEntries_sortEntries (entries : List ε) :
    manager.sortEntries (manager.sortEntries entries) = manager.sortEntries entries :=
  (sortEntries_sorted entries).insertionSort_eq

theorem entriesOf_freshIndex (draw : δ) (source symbol : String) :
    entriesOf (library.freshIndex draw) source symbol =
      manager.sortEntries (entriesAt (library.scan draw) source symbol) := by
  have hindex : library.freshIndex draw =
      (IndexManager.rescan {} library { forceRebuild := true, now := 0, draw := draw }).index := rfl
  rw [hindex, IndexManager.rescan]
  split
  · next hempty =>
      rw [List.isEmpty_iff] at hempty
      simp [Library.scan, hempty, Manager.sortEntries]
  · simp [IndexManager.saveIndex, entriesOf_sortEntries, entriesOf_addAll]

theorem paths_scanFile (draw : δ) (file : φ) (source symbol : String) :
    (entriesAt (manager.scanFile draw file) source symbol).map manager.entryPath =
      List.replicate ((manager.keys file).count (source, symbol)) (manager.path file) := by
  rw [List.eq_replicate_iff]
  constructor
  · rw [← manager.scanned_keys draw file, List.count, List.countP_map, List.length_map,
      entriesAt, List.length_map, List.countP_eq_length_filter]
    congr 2
    funext row
    apply Bool.eq_iff_iff.mpr
    simp [Prod.ext_iff]
  · intro path hpath
    obtain ⟨entry, hentry, rfl⟩ := List.mem_map.mp hpath
    obtain ⟨row, hrow, rfl⟩ := List.mem_map.mp hentry
    exact manager.scanned_path draw file row (List.mem_of_mem_filter hrow)

theorem paths_scan (draw : δ) (source symbol : String) :
    (entriesAt (library.scan draw) source symbol).map manager.entryPath =
      (library.files.filter fun file => (source, symbol) ∈ manager.keys file).map manager.path := by
  have hfile (file : φ) :
      (entriesAt (manager.scanFile draw file) source symbol).map manager.entryPath =
        if (source, symbol) ∈ manager.keys file then [manager.path file] else [] := by
    rw [paths_scanFile]
    split
    · next hmem =>
        rw [List.count_eq_one_of_mem (manager.nodup_keys file) hmem, List.replicate_one]
    · next hnot => rw [List.count_eq_zero_of_not_mem hnot, List.replicate_zero]
  unfold Library.scan
  induction library.files with
  | nil => rfl
  | cons file files ih =>
      rw [List.flatMap_cons, entriesAt_append, List.map_append, hfile, ih]
      split
      · next hmem => simp [hmem]
      · next hnot => simp [hnot]

theorem length_scan (draw draw' : δ) (source symbol : String) :
    (entriesAt (library.scan draw) source symbol).length =
      (entriesAt (library.scan draw') source symbol).length := by
  have hlength := congrArg List.length ((paths_scan library draw source symbol).trans
    (paths_scan library draw' source symbol).symm)
  simpa using hlength

end Entries

section Rebuilding

variable {φ ε δ : Type} {manager : Manager φ ε δ}

/-- The index holds, and has written, each file once under its keys, in order, as a fresh instance
builds it. -/
structure Rebuilt (library : Library manager) (m : IndexManager ε) : Prop where
  fresh : ∃ draw, ∀ source symbol,
    entriesOf m.index source symbol = entriesOf (library.freshIndex draw) source symbol
  written : ∀ file ∈ m.indexFile, ∀ source symbol,
    entriesAt file.rows source symbol = entriesOf m.index source symbol
  persisted : m.indexFile = none → library.files = []
  once : ∀ source symbol, ((entriesOf m.index source symbol).map manager.entryPath).Perm
    ((library.files.filter fun file => (source, symbol) ∈ manager.keys file).map manager.path)
  sorted : ∀ source symbol, (entriesOf m.index source symbol).Pairwise
    fun entry later => manager.startTime entry ≤ manager.startTime later
  served : ∀ source symbol startDate endDate,
    (m.getRelevantFiles manager source symbol startDate endDate).Nodup

/-- The written index, if there is one, holds what a fresh instance builds. -/
def KeptFile (library : Library manager) (m : IndexManager ε) : Prop :=
  ∀ file ∈ m.indexFile, ∃ draw, ∀ source symbol,
    entriesAt file.rows source symbol = entriesOf (library.freshIndex draw) source symbol

/-- A call that scans adds to an index without entries, or finds no files and leaves the written
index as it is; an index that is migrated holds what a fresh instance builds. -/
def Clean (library : Library manager) (m : IndexManager ε) (call : Call δ) : Prop :=
  m.loads library call = false →
    if (m.migrated call).2 then ∃ draw, ∀ source symbol,
      entriesOf (m.migrated call).1.index source symbol =
        entriesOf (library.freshIndex draw) source symbol
    else (∀ source symbol, entriesOf (m.migrated call).1.index source symbol = []) ∨
      (library.files = [] ∧ (m.migrated call).1.indexFile = m.indexFile)

variable {library : Library manager} {m : IndexManager ε}

theorem rebuilt_iff : Rebuilt library m ↔
    (∃ draw, ∀ source symbol,
      entriesOf m.index source symbol = entriesOf (library.freshIndex draw) source symbol) ∧
    (∀ file ∈ m.indexFile, ∀ source symbol,
      entriesAt file.rows source symbol = entriesOf m.index source symbol) ∧
    (m.indexFile = none → library.files = []) := by
  constructor
  · intro h
    exact ⟨h.fresh, h.written, h.persisted⟩
  · rintro ⟨⟨draw, hfresh⟩, hwritten, hpersisted⟩
    have honce (source symbol : String) :
        ((entriesOf m.index source symbol).map manager.entryPath).Perm
          ((library.files.filter fun file => (source, symbol) ∈ manager.keys file).map
            manager.path) := by
      rw [hfresh, entriesOf_freshIndex, ← paths_scan library draw]
      exact (sortEntries_perm _).map _
    refine ⟨⟨draw, hfresh⟩, hwritten, hpersisted, honce, ?_, ?_⟩
    · intro source symbol
      rw [hfresh, entriesOf_freshIndex]
      exact sortEntries_sorted _
    · intro source symbol startDate endDate
      apply manager.nodup_relevantFiles
      rw [(honce source symbol).nodup_iff]
      exact library.distinct.sublist (List.filter_sublist.map _)

theorem Rebuilt.keptFile (h : Rebuilt library m) : KeptFile library m := by
  obtain ⟨draw, hfresh⟩ := h.fresh
  intro file hfile
  refine ⟨draw, ?_⟩
  intro source symbol
  rw [h.written file hfile, hfresh]

theorem rebuilt_loadIndex (h : KeptFile library m) (hsome : m.indexFile.isSome = true) :
    Rebuilt library (m.loadIndex manager) := by
  obtain ⟨file, hfile⟩ := Option.isSome_iff_exists.mp hsome
  obtain ⟨draw, hrows⟩ := h file hfile
  have hindex : m.loadIndex manager =
      { m with index := mapEntries manager.sortEntries (addAll ∅ file.rows) } := by
    simp [IndexManager.loadIndex, hfile]
  have hentries (source symbol : String) : entriesOf (m.loadIndex manager).index source symbol =
      entriesOf (library.freshIndex draw) source symbol := by
    rw [hindex, entriesOf_sortEntries, entriesOf_addAll, entriesOf_empty, List.nil_append, hrows,
      entriesOf_freshIndex, sortEntries_sortEntries]
  rw [rebuilt_iff]
  refine ⟨⟨draw, hentries⟩, ?_, ?_⟩
  · intro file' hfile' source symbol
    have hsame : file' = file := by
      rw [hindex] at hfile'
      exact Option.some.inj (hfile'.symm.trans hfile)
    rw [hentries, hsame, hrows]
  · simp [hindex, hfile]

/-- A scan rebuilds the index exactly if it adds to one without entries. -/
theorem rebuilt_rescan_iff (hfiles : library.files ≠ []) (call : Call δ) :
    Rebuilt library (m.rescan library call) ↔
      ∀ source symbol, entriesOf m.index source symbol = [] := by
  have hrescan : m.rescan library call = { m with
      index := mapEntries manager.sortEntries (addAll m.index (library.scan call.draw)) }.saveIndex
        call.now := by
    simp [IndexManager.rescan, hfiles]
  have hentries (source symbol : String) : entriesOf (m.rescan library call).index source symbol =
      manager.sortEntries
        (entriesOf m.index source symbol ++ entriesAt (library.scan call.draw) source symbol) := by
    rw [hrescan, IndexManager.saveIndex, entriesOf_sortEntries, entriesOf_addAll]
  rw [rebuilt_iff]
  constructor
  · rintro ⟨⟨draw, hfresh⟩, -⟩ source symbol
    have hlength := congrArg List.length (hfresh source symbol)
    rw [hentries, entriesOf_freshIndex, (sortEntries_perm _).length_eq,
      (sortEntries_perm _).length_eq, List.length_append, length_scan library draw call.draw]
      at hlength
    apply List.eq_nil_of_length_eq_zero
    omega
  · intro hnone
    refine ⟨⟨call.draw, ?_⟩, ?_, ?_⟩
    · intro source symbol
      rw [hentries, hnone, List.nil_append, entriesOf_freshIndex]
    · intro file hfile source symbol
      rw [hrescan] at hfile ⊢
      cases hfile
      exact entriesAt_rows _ source symbol
    · simp [hrescan, IndexManager.saveIndex]

/-- A migration that reaches the written index writes what it has read. -/
theorem indexFile_migrated (m : IndexManager ε) (call : Call δ) :
    ((m.migrated call).1.indexFile = m.indexFile ∧ (m.migrated call).2 = false) ∨
      (m.indexFile = none ∧
        (m.migrated call).1.indexFile = some ⟨rows (m.migrated call).1.index, call.now⟩) := by
  unfold IndexManager.migrated
  split
  · next htried =>
      simp only [Bool.and_eq_true, Option.isNone_iff_eq_none] at htried
      unfold IndexManager.migrateFromJson
      split
      · exact .inl ⟨rfl, rfl⟩
      · split
        · exact .inl ⟨rfl, rfl⟩
        · simp only
          split_ifs
          · exact .inl ⟨rfl, rfl⟩
          · exact .inr ⟨htried.2, rfl⟩
          · exact .inr ⟨htried.2, rfl⟩
  · exact .inl ⟨rfl, rfl⟩

theorem rebuilt_of_written {written : Catalogue String String ε} {now : ℚ}
    (hindex : m.index = written) (hfile : m.indexFile = some ⟨rows written, now⟩) :
    Rebuilt library m ↔ ∃ draw, ∀ source symbol,
      entriesOf m.index source symbol = entriesOf (library.freshIndex draw) source symbol := by
  rw [rebuilt_iff, and_iff_left]
  constructor
  · intro file hsome source symbol
    rw [hfile] at hsome
    cases hsome
    rw [hindex]
    exact entriesAt_rows written source symbol
  · simp [hfile]

/-- Where no files are found, the index is emptied and the written one stays. -/
theorem rebuilt_rescan_empty_iff (hfiles : library.files = []) (call : Call δ) :
    Rebuilt library (m.rescan library call) ↔
      ∀ file ∈ m.indexFile, ∀ source symbol, entriesAt file.rows source symbol = [] := by
  have hrescan : m.rescan library call = { m with index := ∅ } := by
    simp [IndexManager.rescan, hfiles]
  have hfresh (source symbol : String) :
      entriesOf (library.freshIndex call.draw) source symbol = [] := by
    rw [entriesOf_freshIndex]
    simp [Library.scan, hfiles, Manager.sortEntries]
  rw [rebuilt_iff, hrescan]
  simp only [entriesOf_empty]
  constructor
  · intro h
    exact h.2.1
  · intro h
    exact ⟨⟨call.draw, fun source symbol => (hfresh source symbol).symm⟩, h, fun _ => hfiles⟩

theorem kept_of_files_nil (h : KeptFile library m) (hfiles : library.files = []) :
    ∀ file ∈ m.indexFile, ∀ source symbol, entriesAt file.rows source symbol = [] := by
  intro file hfile source symbol
  obtain ⟨draw, hrows⟩ := h file hfile
  rw [hrows, entriesOf_freshIndex]
  simp [Library.scan, hfiles, Manager.sortEntries]

theorem rebuilt_buildIndex_iff (h : KeptFile library m) (call : Call δ) :
    Rebuilt library (m.buildIndex library call) ↔ Clean library m call := by
  unfold IndexManager.buildIndex Clean
  by_cases hloads : m.loads library call = true
  · simp only [hloads, if_true, Bool.true_eq_false, false_implies, iff_true]
    apply rebuilt_loadIndex h
    simp only [IndexManager.loads, Bool.and_eq_true] at hloads
    exact hloads.1.2
  · simp only [hloads, Bool.false_eq_true, if_false, true_implies]
    rcases indexFile_migrated m call with ⟨hsame, hfailed⟩ | ⟨hnone, hwritten⟩
    · simp only [hfailed, Bool.false_eq_true, if_false, hsame, and_true]
      by_cases hfiles : library.files = []
      · rw [rebuilt_rescan_empty_iff hfiles, hsame]
        simpa [hfiles] using kept_of_files_nil h hfiles
      · rw [rebuilt_rescan_iff hfiles]
        simp [hfiles]
    · split
      · exact rebuilt_of_written rfl hwritten
      · by_cases hfiles : library.files = []
        · rw [rebuilt_rescan_empty_iff hfiles, hwritten]
          simp [hnone, entriesAt_rows]
        · rw [rebuilt_rescan_iff hfiles]
          simp [hfiles]

end Rebuilding

section Calls

variable {φ ε δ : Type} {manager : Manager φ ε δ} (library : Library manager)

def buildStep (library : Library manager) (m : IndexManager ε) (call : Call δ) :
    Except Empty (IndexManager ε) := .ok (m.buildIndex library call)

/-- A fresh instance over the files, with the index that a fresh instance has built of them if one
has, and an index in the old format if there is one. -/
def Library.opened (library : Library manager) (built : Option (δ × ℚ))
    (legacyJson : Option (LegacyFile ε)) : IndexManager ε where
  indexFile := built.map fun build => ⟨rows (library.freshIndex build.1), build.2⟩
  legacyJson := legacyJson

theorem keptFile_opened (built : Option (δ × ℚ)) (legacyJson : Option (LegacyFile ε)) :
    KeptFile library (library.opened built legacyJson) := by
  intro file hfile
  obtain ⟨build, -, rfl⟩ := Option.map_eq_some_iff.mp hfile
  exact ⟨build.1, fun source symbol => entriesAt_rows _ source symbol⟩

theorem rebuilt_after_calls_iff {m : IndexManager ε} (h : KeptFile library m)
    (calls : List (Call δ)) :
    StepsAll (buildStep library) (fun m call => Rebuilt library (m.buildIndex library call)) m
        calls ↔
      StepsAll (buildStep library) (Clean library) m calls := by
  apply stepsAll_congr_of_kept
  · intro m call hkept
    exact rebuilt_buildIndex_iff hkept call
  · rintro m call m' hrebuilt ⟨⟩
    exact hrebuilt.keptFile
  · exact h

section Plain

variable {m : IndexManager ε} {call : Call δ}

end Plain

end Calls

section Ticks

open TickFiles

/-- An imported tick file as the scan finds it: its rows, the columns that are only counted and
averaged, and its metadata. -/
structure TickParquet where
  name : String
  path : String
  modified : ℚ
  sizeBytes : ℕ
  contents : ArchivedFile
  numRowGroups : ℕ := 1
  spreadPoints : Option (List ℚ) := none
  spreadPct : Option (List ℚ) := none
  session : Option (List String) := none
  sourceFile : Option String := none
  brokerType : Option String := none
  dataCollector : Option String := none
  dataFormatVersion : Option String := none

structure TickStatistics where
  avgSpreadPoints : Option ℚ
  avgSpreadPct : Option ℚ
  tickFrequencyPerSecond : ℚ
  deriving DecidableEq

structure TickIndexEntry where
  file : String
  path : String
  symbol : String
  bounds : IndexEntry
  tickCount : ℕ
  fileSizeMb : ℚ
  sourceFile : String
  numRowGroups : ℕ
  statistics : TickStatistics
  sessions : List (String × ℕ)
  brokerType : String
  dataFormatVersion : String

/-- The order in which the rows of a file are drawn for its sample. -/
abbrev SampleDraw := String → List ℕ

def sampledFrom : ℕ := 50000

def sampleSize (tickCount : ℕ) : ℕ := min (max 5000 (tickCount / 10)) tickCount

/-- The mean of a column, of a sample of it in a long file. -/
def mean (values : List ℚ) : Option ℚ :=
  if values = [] then none else some (values.sum / values.length)

def columnMean (draw : SampleDraw) (file : TickParquet) (column : List ℚ) : Option ℚ :=
  if sampledFrom < file.contents.rows.length then
    mean (((draw file.path).take (sampleSize file.contents.rows.length)).filterMap (column[·]?))
  else mean column

/-- An average that is missing or zero is not given. -/
def rounded (digits : ℕ) (average : Option ℚ) : Option ℚ :=
  average.bind fun value => if value = 0 then none else some (roundTo digits value)

def sessionCounts (session : List String) : List (String × ℕ) :=
  (session.dedup.map fun name => (name, session.count name)).insertionSort
    fun count later => later.2 ≤ count.2

def symbolOf (file : TickParquet) : String :=
  String.ofList (file.name.toList.takeWhile fun c => c ≠ '_')

def brokerTypeOf (file : TickParquet) : String :=
  match file.brokerType with
  | none | some "" => file.dataCollector.getD "mt5"
  | some brokerType => brokerType

def tickFrequency (tickCount : ℕ) (duration : ℤ) : ℚ :=
  if 0 < duration then roundTo 2 (tickCount * 1000000 / duration) else 0

def tickEntry (draw : SampleDraw) (file : TickParquet) (bounds : IndexEntry) : TickIndexEntry where
  file := file.name
  path := file.path
  symbol := symbolOf file
  bounds := bounds
  tickCount := file.contents.rows.length
  fileSizeMb := roundTo 2 (file.sizeBytes / 1048576)
  sourceFile := file.sourceFile.getD "unknown"
  numRowGroups := file.numRowGroups
  statistics :=
    { avgSpreadPoints := rounded 2 (file.spreadPoints.bind (columnMean draw file))
      avgSpreadPct := rounded 6 (file.spreadPct.bind (columnMean draw file))
      tickFrequencyPerSecond :=
        tickFrequency file.contents.rows.length (bounds.endTime - bounds.startTime) }
  sessions := (file.session.map sessionCounts).getD []
  brokerType := brokerTypeOf file
  dataFormatVersion := file.dataFormatVersion.getD "unknown"

/-- `_scan_file`, as the rows of the index; a file that cannot be scanned has none. -/
def scanTickFile (draw : SampleDraw) (file : TickParquet) : List (String × String × TickIndexEntry) :=
  (scanFile file.contents).toList.map fun bounds =>
    (brokerTypeOf file, symbolOf file, tickEntry draw file bounds)

def relevantTickFiles (entries : List TickIndexEntry) (startDate endDate : Instant) :
    List TickIndexEntry :=
  entries.filter fun entry => entry.bounds.isRelevant startDate endDate

def tickIndexManager : Manager TickParquet TickIndexEntry SampleDraw where
  path := TickParquet.path
  modified := TickParquet.modified
  scanFile := scanTickFile
  entryPath := TickIndexEntry.path
  startTime entry := entry.bounds.startTime
  relevantFiles := relevantTickFiles
  keys file := (scanFile file.contents).toList.map fun _ => (brokerTypeOf file, symbolOf file)
  scanned_keys draw file := by
    rw [scanTickFile, List.map_map]
    rfl
  nodup_keys file := by
    cases scanFile file.contents <;> simp
  scanned_path draw file row hrow := by
    obtain ⟨bounds, -, rfl⟩ := List.mem_map.mp hrow
    rfl
  nodup_relevantFiles entries startDate endDate hnodup :=
    hnodup.sublist (List.filter_sublist.map _)

end Ticks

section Signals

open Signals SignalLoading

/-- An imported signal file as the scan finds it. -/
structure SignalParquet where
  name : String
  path : String
  modified : ℚ
  sizeBytes : ℕ
  rows : List ParquetRow

structure SignalIndexEntry where
  file : String
  path : String
  dataSentimentType : String
  symbol : String
  contents : SignalFile
  rowCount : ℕ
  fileSizeMb : ℚ

def symbolsOf (rows : List ParquetRow) : List String :=
  ((rows.map ParquetRow.symbol).dedup.filter fun symbol => symbol ≠ signalEnvelopeSymbol).insertionSort
    (· ≤ ·)

def signalEntry (file : SignalParquet) (contents : SignalFile) (source symbol : String) :
    SignalIndexEntry where
  file := file.name
  path := file.path
  dataSentimentType := source
  symbol := symbol
  contents := contents
  rowCount := contents.rows.length
  fileSizeMb := roundTo 4 (file.sizeBytes / 1048576)

/-- `_scan_file`, with the rows of the index for the symbols of the file. -/
def scanSignalFile (file : SignalParquet) : List (String × String × SignalIndexEntry) :=
  match h : file.rows with
  | [] => []
  | first :: rest =>
      (symbolsOf file.rows).map fun symbol => (first.pipelineId, symbol,
        signalEntry file ⟨first :: rest, by simp⟩ first.pipelineId symbol)

/-- `get_relevant_files`, on the entries. -/
def relevantSignalFiles (entries : List SignalIndexEntry) (startDate endDate : Instant) :
    List SignalIndexEntry :=
  let relevant := entries.filter fun entry => entry.contents.overlaps startDate endDate
  let preceding := (entries.filter fun entry => !entry.contents.overlaps startDate endDate &&
    decide (entry.contents.endTime < startDate)).getLast?
  if relevant.any fun entry => entry.contents.startTime ≤ startDate then relevant
  else preceding.toList ++ relevant

theorem nodup_relevantSignalFiles {entries : List SignalIndexEntry} (startDate endDate : Instant)
    (h : (entries.map SignalIndexEntry.path).Nodup) :
    ((relevantSignalFiles entries startDate endDate).map SignalIndexEntry.path).Nodup := by
  have hrelevant : ((entries.filter fun entry =>
      entry.contents.overlaps startDate endDate).map SignalIndexEntry.path).Nodup :=
    h.sublist (List.filter_sublist.map _)
  simp only [relevantSignalFiles]
  split
  · exact hrelevant
  · cases hlast : (entries.filter fun entry => !entry.contents.overlaps startDate endDate &&
        decide (entry.contents.endTime < startDate)).getLast? with
    | none => simpa using hrelevant
    | some preceding =>
        have hmem := List.mem_filter.mp (List.mem_of_getLast? hlast)
        simp only [Option.toList_some, List.singleton_append, List.map_cons, List.nodup_cons]
        refine ⟨?_, hrelevant⟩
        intro hpath
        obtain ⟨entry, hentry, hsame⟩ := List.mem_map.mp hpath
        have hoverlaps := List.mem_filter.mp hentry
        have heq := List.inj_on_of_nodup_map h hoverlaps.1 hmem.1 hsame
        subst heq
        simp [hoverlaps.2] at hmem

theorem nodup_symbolsOf (rows : List ParquetRow) : (symbolsOf rows).Nodup :=
  (List.perm_insertionSort _ _).nodup_iff.mpr ((List.nodup_dedup _).filter _)

def signalKeys (file : SignalParquet) : List (String × String) :=
  match file.rows with
  | [] => []
  | first :: _ => (symbolsOf file.rows).map fun symbol => (first.pipelineId, symbol)

theorem map_scanSignalFile (file : SignalParquet) :
    (scanSignalFile file).map (fun row => (row.1, row.2.1)) = signalKeys file := by
  unfold scanSignalFile signalKeys
  split
  · next hrows => simp [hrows]
  · next first rest hrows => simp [hrows]

def signalIndexManager : Manager SignalParquet SignalIndexEntry Unit where
  path := SignalParquet.path
  modified := SignalParquet.modified
  scanFile _ := scanSignalFile
  entryPath := SignalIndexEntry.path
  startTime entry := entry.contents.startTime
  relevantFiles := relevantSignalFiles
  keys := signalKeys
  scanned_keys _ := map_scanSignalFile
  nodup_keys file := by
    unfold signalKeys
    split
    · exact List.nodup_nil
    · apply (nodup_symbolsOf _).map
      intro symbol symbol' hsame
      exact congrArg Prod.snd hsame
  scanned_path _ file row hrow := by
    unfold scanSignalFile at hrow
    split at hrow
    · simp at hrow
    · obtain ⟨symbol, -, rfl⟩ := List.mem_map.mp hrow
      rfl
  nodup_relevantFiles _ := nodup_relevantSignalFiles

end Signals

section Idempotence

/-- On one instance of either manager every call of `build_index` leaves the index as a fresh
instance builds it exactly if every call is clean. -/
theorem buildIndex_idempotent_iff (ticks : Library tickIndexManager)
    (builtTicks : Option (SampleDraw × ℚ)) (legacyJson : Option (LegacyFile TickIndexEntry))
    (tickCalls : List (Call SampleDraw)) (signals : Library signalIndexManager)
    (builtSignals : Option (Unit × ℚ)) (signalCalls : List (Call Unit)) :
    (StepsAll (buildStep ticks) (fun m call => Rebuilt ticks (m.buildIndex ticks call))
        (ticks.opened builtTicks legacyJson) tickCalls ↔
      StepsAll (buildStep ticks) (Clean ticks) (ticks.opened builtTicks legacyJson) tickCalls) ∧
    (StepsAll (buildStep signals) (fun m call => Rebuilt signals (m.buildIndex signals call))
        (signals.opened builtSignals none) signalCalls ↔
      StepsAll (buildStep signals) (Clean signals) (signals.opened builtSignals none)
        signalCalls) :=
  ⟨rebuilt_after_calls_iff ticks (keptFile_opened ticks builtTicks legacyJson) tickCalls,
    rebuilt_after_calls_iff signals (keptFile_opened signals builtSignals none) signalCalls⟩

def oneFile : Library tickIndexManager where
  files := [{
    name := "EURUSD_20250101.parquet"
    path := "/data/mt5/ticks/EURUSD/EURUSD_20250101.parquet"
    modified := 1
    sizeBytes := 1048576
    contents :=
      { rows := [{ timestamp := 0, timeMsc := some 0, bid := 1, ask := 1 },
          { timestamp := 60000000, timeMsc := some 60000, bid := 1, ask := 1 }]
        uniform := by decide } }]
  distinct := by simp

def buildThenRebuild : List (Call SampleDraw) :=
  [{ now := 2, draw := fun _ => [] }, { forceRebuild := true, now := 3, draw := fun _ => [] }]

def rebuiltTwice : IndexManager TickIndexEntry :=
  buildThenRebuild.foldl (fun m call => m.buildIndex oneFile call) (oneFile.opened none none)

/-- A rebuild on an instance with an index serves its only file twice. -/
theorem rebuild_doubles :
    rebuiltTwice.getRelevantFiles tickIndexManager "mt5" "EURUSD" 0 0 =
      ["/data/mt5/ticks/EURUSD/EURUSD_20250101.parquet",
        "/data/mt5/ticks/EURUSD/EURUSD_20250101.parquet"] ∧
    ¬ StepsAll (buildStep oneFile) (fun m call => Rebuilt oneFile (m.buildIndex oneFile call))
      (oneFile.opened none none) buildThenRebuild := by
  have htwice : rebuiltTwice.getRelevantFiles tickIndexManager "mt5" "EURUSD" 0 0 =
      ["/data/mt5/ticks/EURUSD/EURUSD_20250101.parquet",
        "/data/mt5/ticks/EURUSD/EURUSD_20250101.parquet"] := by
    decide +kernel
  refine ⟨htwice, ?_⟩
  intro hrebuilt
  have hserved := hrebuilt.2.1.served "mt5" "EURUSD" 0 0
  change (rebuiltTwice.getRelevantFiles tickIndexManager "mt5" "EURUSD" 0 0).Nodup at hserved
  simp [htwice] at hserved

end Idempotence

end Finiex.IndexManagers
