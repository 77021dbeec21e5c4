import Finiex.DataIdentity

namespace Finiex.SignalProbes

open Finiex.Types
open Finiex.Lib
open Finiex.Bars
open Finiex.Preparation
open Finiex.PreparationIsolation
open Finiex.Mounts
open Finiex.Signals
open Finiex.SignalLoading
open Finiex.DataIdentity

section Reading

theorem last_mem_drop {α : Type} (p : α → Bool) (before : List α) (last : α) :
    last ∈ (before ++ [last]).drop (((before ++ [last]).takeWhile p).length - 1) := by
  have hlength := (List.takeWhile_prefix (l := before ++ [last]) p).length_le
  rw [List.length_append, List.length_singleton] at hlength
  rw [List.drop_append_of_le_length (by omega)]
  exact List.mem_append_right _ List.mem_cons_self

theorem last_mem_trimRange {start stop : Option Instant} {snapshots : List SignalSnapshot}
    {last : SignalSnapshot} (h : ∀ moment ∈ stop, last.collectedMsc ≤ moment) :
    last ∈ trimRange start stop (snapshots ++ [last]) := by
  cases stop with
  | none =>
      cases start with
      | none => exact List.mem_append_right _ List.mem_cons_self
      | some start => exact last_mem_drop _ snapshots last
  | some stop =>
      have hupTo : (snapshots ++ [last]).filter (fun snapshot => snapshot.collectedMsc ≤ stop) =
          snapshots.filter (fun snapshot => snapshot.collectedMsc ≤ stop) ++ [last] := by
        rw [List.filter_append]
        exact congrArg _ (List.filter_eq_self.mpr fun snapshot hsnapshot => by
          rw [List.mem_singleton.mp hsnapshot]
          exact decide_eq_true (h stop rfl))
      unfold trimRange
      simp only [hupTo]
      cases start with
      | none => exact List.mem_append_right _ List.mem_cons_self
      | some start => exact last_mem_drop _ _ last

theorem trimRange_nil (start stop : Option Instant) : trimRange start stop [] = [] := by
  cases start <;> cases stop <;> rfl

theorem getRelevantFiles_singleton {file : SignalFile} {startDate endDate : Instant}
    (h : file.startTime ≤ endDate) : getRelevantFiles [file] startDate endDate = [file] := by
  have hoverlaps : file.overlaps startDate endDate = decide (startDate ≤ file.endTime) := by
    rw [SignalFile.overlaps, decide_eq_true h, Bool.true_and]
  unfold getRelevantFiles
  by_cases hends : startDate ≤ file.endTime
  · rw [decide_eq_true hends] at hoverlaps
    simp [hoverlaps]
  · rw [decide_eq_false hends] at hoverlaps
    have hends' : file.endTime < startDate := not_le.mp hends
    simp [hoverlaps, hends']

def stampRow (source symbol : String) (msc : ℤ) : ParquetRow where
  collectedMsc := msc
  symbol := symbol
  status := "success"
  schemaVersion := "2.0"
  pipelineId := source
  seq := none
  streamEpoch := none
  availableMsc := none
  envelopeEvidenceAsOf := none
  promptVersion := ""
  promptId := ""
  promptHash := ""
  dataOrigin := ""
  configFingerprint := ""
  triggerReason := ""

def stampFile (source symbol : String) (first last : ℤ) : SignalFile where
  rows := [stampRow source symbol first, stampRow source symbol last]
  nonempty := List.cons_ne_nil _ _

theorem stampFile_startTime {first last : ℤ} (source symbol : String) (h : first ≤ last) :
    (stampFile source symbol first last).startTime = ofEpochMs first := by
  show ofEpochMs (min first last) = _
  rw [min_eq_left h]

theorem byMsc_stampFile (source symbol : String) (first last : ℤ) :
    byMsc symbol (stampFile source symbol first last).rows =
      ((∅ : Dict ℤ ParquetRow).set first (stampRow source symbol first)).set last
        (stampRow source symbol last) := by
  have hsymbol : (stampRow source symbol last).symbol = symbol := rfl
  simp only [byMsc, stampFile, List.foldl_cons, List.foldl_nil, Dict.get?_empty]
  split
  · exact if_neg fun h => h.2 hsymbol
  · rfl

theorem last_read {source symbol : String} {first last : ℤ} {start : Instant}
    {stop : Option Instant} (hordered : first ≤ last)
    (hstop : ∀ moment ∈ stop, ofEpochMs last ≤ moment) :
    ∃ snapshot ∈ (loadSignalSeriesFromParquet [(stampFile source symbol first last).rows] ""
        symbol (some start) stop).snapshots, snapshot.collectedMsc = ofEpochMs last := by
  refine ⟨snapshotOfRow symbol (stampRow source symbol last), ?_, rfl⟩
  have hkeep : [(stampFile source symbol first last).rows].flatten.filter
      (fun row => row.symbol ∈ [symbol, signalEnvelopeSymbol]) =
        (stampFile source symbol first last).rows := by
    simp [stampFile, stampRow]
  have hsnapshots : ∃ before,
      ((byMsc symbol (stampFile source symbol first last).rows).keys.insertionSort
        (· ≤ ·)).filterMap (fun msc =>
          ((byMsc symbol (stampFile source symbol first last).rows).get? msc).map
            (snapshotOfRow symbol)) =
        before ++ [snapshotOfRow symbol (stampRow source symbol last)] := by
    rw [byMsc_stampFile]
    rcases hordered.eq_or_lt with rfl | hlt
    · have hkeys : (((∅ : Dict ℤ ParquetRow).set first (stampRow source symbol first)).set first
          (stampRow source symbol first)).keys = [first] := by
        show (if first = first then [(first, stampRow source symbol first)]
          else [(first, stampRow source symbol first),
            (first, stampRow source symbol first)]).map Prod.fst = _
        rw [if_pos rfl]
        rfl
      rw [hkeys, List.insertionSort_cons, List.insertionSort_nil, List.orderedInsert_nil,
        List.filterMap_cons, Dict.get?_set_self]
      exact ⟨[], rfl⟩
    · have hkeys : (((∅ : Dict ℤ ParquetRow).set first (stampRow source symbol first)).set last
          (stampRow source symbol last)).keys = [first, last] := by
        show (if first = last then [(last, stampRow source symbol last)]
          else [(first, stampRow source symbol first),
            (last, stampRow source symbol last)]).map Prod.fst = _
        rw [if_neg hlt.ne]
        rfl
      rw [hkeys, List.insertionSort_cons, List.insertionSort_cons, List.insertionSort_nil,
        List.orderedInsert_nil, List.orderedInsert_cons, if_pos hlt.le, List.filterMap_cons,
        List.filterMap_cons, Dict.get?_set_self, Dict.get?_set_ne _ _ hlt.ne, Dict.get?_set_self]
      exact ⟨[snapshotOfRow symbol (stampRow source symbol first)], rfl⟩
  obtain ⟨before, hbefore⟩ := hsnapshots
  rw [loadSignalSeriesFromParquet, hkeep, hbefore]
  exact @last_mem_trimRange (some start) stop before
    (snapshotOfRow symbol (stampRow source symbol last)) hstop

/-- What is read of an imported archive has a stamp in milliseconds, not behind the end. -/
theorem stamp_of_read {paths : List (List ParquetRow)} {kind symbol : String} {start : Instant}
    {stop : Option Instant} {snapshot : SignalSnapshot}
    (h : snapshot ∈ (loadSignalSeriesFromParquet paths kind symbol (some start) stop).snapshots) :
    ∃ stamp : ℤ, snapshot.collectedMsc = ofEpochMs stamp ∧
      ∀ moment ∈ stop, ofEpochMs stamp ≤ moment := by
  have hread : ∀ {snapshots : List SignalSnapshot}, snapshot ∈ trimRange (some start) stop snapshots →
      snapshot ∈ snapshots ∧ ∀ moment ∈ stop, snapshot.collectedMsc ≤ moment := by
    intro snapshots hmem
    cases stop with
    | none => exact ⟨List.mem_of_mem_drop hmem, fun moment hmoment => by cases hmoment⟩
    | some stop =>
        obtain ⟨hsnapshot, hle⟩ := List.mem_filter.mp (List.mem_of_mem_drop hmem)
        refine ⟨hsnapshot, fun moment hmoment => ?_⟩
        rw [← Option.some.inj hmoment]
        exact of_decide_eq_true hle
  obtain ⟨hmem, hstop⟩ := hread h
  obtain ⟨msc, -, hrow⟩ := List.mem_filterMap.mp hmem
  obtain ⟨row, -, rfl⟩ := Option.map_eq_some_iff.mp hrow
  exact ⟨row.collectedMsc, rfl, hstop⟩

end Reading

section Sources

variable {context : LoadContext} {archive : SignalArchive} {scenario other : StressedScenario}

/-- The snapshots of a scenario's imported source, before its outages are carved out. -/
def imported (archive : SignalArchive) (scenario : SingleScenario) : List SignalSnapshot :=
  (loadSignalSeriesFromParquet ((signalFiles archive scenario).map SignalFile.rows) ""
    scenario.symbol (some scenario.startDate) scenario.endDate).snapshots

theorem snapshotsFor_imported (h : scenario.dataSentimentType ≠ "") (path : String) :
    snapshotsFor context archive scenario path =
      if signalFiles archive scenario.toSingleScenario = [] then none
      else some ((imported archive scenario.toSingleScenario).filter fun snapshot =>
        !isStale scenario snapshot.collectedMsc) :=
  if_pos h

theorem snapshotsFor_jsonl (h : scenario.dataSentimentType = "") (path : String) :
    snapshotsFor context archive scenario path =
      if path ≠ "" then (archive.jsonl (context.resolvePath path)).toOption.map fun snapshots =>
        (orderedSeries snapshots "" (some scenario.startDate) scenario.endDate).snapshots
      else none :=
  if_neg (not_not.mpr h)

theorem signalFiles_eq (hbasis : SameBasis scenario other)
    (hsource : scenario.dataSentimentType = other.dataSentimentType) :
    signalFiles archive scenario.toSingleScenario = signalFiles archive other.toSingleScenario := by
  rw [signalFiles, signalFiles, hbasis.symbol, hbasis.start, hbasis.stop, hsource]

theorem imported_eq (hbasis : SameBasis scenario other)
    (hsource : scenario.dataSentimentType = other.dataSentimentType) :
    imported archive scenario.toSingleScenario = imported archive other.toSingleScenario := by
  rw [imported, imported, signalFiles_eq hbasis hsource, hbasis.symbol, hbasis.start, hbasis.stop]

theorem not_refused_of_loaded {series : Dict String SignalSeries}
    (h : loadedSignals context archive scenario = some series) : ¬Refused scenario := by
  obtain ⟨hknown, hloaded, -⟩ := loadedSignals_eq_some_iff.mp h
  rintro (hunknown | ⟨hsource, worker, hworker, hpath⟩)
  · exact hunknown hknown
  · have hsome := hloaded worker hworker
    rw [snapshotsFor_jsonl hsource, hpath, if_neg (not_not.mpr rfl)] at hsome
    cases hsome

theorem signalWorkers_of_kinds
    (h : ∀ kind, (lastPath scenario.toSingleScenario kind).isSome =
      (lastPath other.toSingleScenario kind).isSome)
    (hworkers : signalWorkers other.toSingleScenario ≠ []) :
    signalWorkers scenario.toSingleScenario ≠ [] := by
  obtain ⟨worker, hworker⟩ := List.exists_mem_of_ne_nil _ hworkers
  have hkind := lastPath_isSome_iff.mpr (List.mem_map_of_mem hworker)
  rw [← h, lastPath_isSome_iff] at hkind
  rintro hnone
  rw [hnone] at hkind
  cases hkind

theorem snapshotsFor_covered (hbasis : SameBasis scenario other)
    (hcovers : Covers context.resolvePath scenario other)
    (hworkers : signalWorkers scenario.toSingleScenario ≠ []) {path path' : String}
    (hpath : scenario.dataSentimentType = "" →
      path ≠ "" ∧ path' ≠ "" ∧ context.resolvePath path = context.resolvePath path') :
    snapshotsFor context archive scenario path = snapshotsFor context archive other path' := by
  have hsource := hcovers.source hworkers
  by_cases hempty : scenario.dataSentimentType = ""
  · obtain ⟨hne, hne', hresolve⟩ := hpath hempty
    rw [snapshotsFor_jsonl hempty, snapshotsFor_jsonl (hsource ▸ hempty), if_pos hne, if_pos hne',
      hresolve, hbasis.start, hbasis.stop]
  · rw [snapshotsFor_imported hempty, snapshotsFor_imported (hsource ▸ hempty),
      signalFiles_eq hbasis hsource, imported_eq hbasis hsource]
    have hoff : (imported archive other.toSingleScenario).filter
        (fun snapshot => !isStale scenario snapshot.collectedMsc) =
          (imported archive other.toSingleScenario).filter
            (fun snapshot => !isStale other snapshot.collectedMsc) := by
      refine List.filter_congr fun snapshot hsnapshot => ?_
      obtain ⟨stamp, hstamp, hstop⟩ := stamp_of_read hsnapshot
      rw [hstamp, hcovers.outages hworkers hempty stamp (hbasis.stop ▸ hstop)]
    rw [hoff]

theorem signals_of_covers (hbasis : SameBasis scenario other)
    (hcovers : Covers context.resolvePath scenario other) {series : Dict String SignalSeries}
    (h : loadedSignals context archive scenario = some series) :
    ∃ series', loadedSignals context archive other = some series' ∧
      ∀ kind, series.get? kind = series'.get? kind := by
  obtain ⟨-, hloaded, rfl⟩ := loadedSignals_eq_some_iff.mp h
  have haccepted := hcovers.accepted
  unfold Refused at haccepted
  push Not at haccepted
  obtain ⟨hknown, hnonempty⟩ := haccepted
  -- a path that the covering scenario loads is not empty either
  have hownPath : ∀ worker ∈ signalWorkers scenario.toSingleScenario,
      scenario.dataSentimentType = "" → worker.2 ≠ "" := by
    intro worker hworker hempty hpath
    have hsome := hloaded worker hworker
    rw [snapshotsFor_jsonl hempty, hpath, if_neg (not_not.mpr rfl)] at hsome
    cases hsome
  refine ⟨_, loadedSignals_eq_some_iff.mpr ⟨hknown, ?_, rfl⟩, ?_⟩
  · intro worker hworker
    have hworkers := signalWorkers_of_kinds hcovers.kinds (List.ne_nil_of_mem hworker)
    have hsource := hcovers.source hworkers
    by_cases hempty : scenario.dataSentimentType = ""
    · obtain ⟨worker', hworker', hresolve⟩ := hcovers.readable hempty worker hworker
      rw [← snapshotsFor_covered hbasis hcovers hworkers fun _ =>
        ⟨hownPath worker' hworker' hempty, hnonempty (hsource ▸ hempty) worker hworker, hresolve⟩]
      exact hloaded worker' hworker'
    · obtain ⟨worker', hworker'⟩ := List.exists_mem_of_ne_nil _ hworkers
      rw [← @snapshotsFor_covered context archive scenario other hbasis hcovers hworkers worker'.2
        worker.2 fun hsource' => absurd hsource' hempty]
      exact hloaded worker' hworker'
  · intro kind
    rw [get?_workerSeries, get?_workerSeries]
    have hkind := hcovers.kinds kind
    cases hlast : lastPath scenario.toSingleScenario kind with
    | none =>
        rw [hlast, Option.isSome_none, eq_comm, Option.isSome_eq_false_iff,
          Option.isNone_iff_eq_none] at hkind
        rw [hkind]
        rfl
    | some path =>
        rw [hlast, Option.isSome_some, eq_comm, Option.isSome_iff_exists] at hkind
        obtain ⟨path', hlast'⟩ := hkind
        have hmem := mem_of_lastPath hlast
        have hworkers := List.ne_nil_of_mem hmem
        rw [hlast', Option.map_some, Option.map_some,
          snapshotsFor_covered hbasis hcovers hworkers fun hempty => ?_]
        have hpaths := hcovers.paths hempty kind
        rw [hlast, hlast'] at hpaths
        exact ⟨hownPath _ hmem hempty,
          hnonempty (hcovers.source hworkers ▸ hempty) _ (mem_of_lastPath hlast'),
          Option.some.inj hpaths⟩

end Sources

section Probes

variable {context : LoadContext} {scenario other : StressedScenario} {sources : String → Bool}
  {file : SignalFile} {jsonl : String → Except String (List SignalSnapshot)}

/-- An archive with one imported file, of some of the sources, and these JSONL files. -/
def signalProbe (sources : String → Bool) (file : SignalFile)
    (jsonl : String → Except String (List SignalSnapshot)) : SignalArchive where
  index source _ := if sources source then [file] else []
  jsonl := jsonl
  sorted source _ := by
    split
    · exact List.pairwise_singleton _ _
    · exact List.Pairwise.nil

theorem signalProbe_jsonl : (signalProbe sources file jsonl).jsonl = jsonl := rfl

/-- The last millisecond a lookup of the scenario's files reaches. -/
def lookupMs (scenario : SingleScenario) : ℤ := (scenario.endDate.getD farFuture) / 1000

def fileWith (scenario : SingleScenario) (stamp : ℤ) : SignalFile :=
  stampFile scenario.dataSentimentType scenario.symbol (min stamp (lookupMs scenario)) stamp

theorem fileWith_startTime (scenario : SingleScenario) (stamp : ℤ) :
    (fileWith scenario stamp).startTime ≤ scenario.endDate.getD farFuture := by
  rw [fileWith, stampFile_startTime _ _ (min_le_left _ _)]
  calc ofEpochMs (min stamp (lookupMs scenario)) ≤ ofEpochMs (lookupMs scenario) :=
        mul_le_mul_of_nonneg_right (min_le_right _ _) (by decide)
    _ ≤ scenario.endDate.getD farFuture := Int.ediv_mul_le _ (by decide)

theorem signalFiles_probe (h : file.startTime ≤ scenario.endDate.getD farFuture) :
    signalFiles (signalProbe sources file jsonl) scenario.toSingleScenario =
      if sources scenario.dataSentimentType then [file] else [] := by
  show getRelevantFiles (if sources scenario.dataSentimentType then [file] else []) _ _ = _
  split
  · exact getRelevantFiles_singleton h
  · rfl

/-- On a probe, the imported sources can be loaded, and the JSONL files that can be read. -/
theorem isSome_probe (h : file.startTime ≤ scenario.endDate.getD farFuture) (path : String) :
    (snapshotsFor context (signalProbe sources file jsonl) scenario path).isSome =
      if scenario.dataSentimentType ≠ "" then sources scenario.dataSentimentType
      else decide (path ≠ "") && (jsonl (context.resolvePath path)).isOk := by
  by_cases hempty : scenario.dataSentimentType = ""
  · rw [snapshotsFor_jsonl hempty, if_neg (not_not.mpr hempty)]
    by_cases hpath : path = ""
    · rw [if_neg (not_not.mpr hpath), decide_eq_false (not_not.mpr hpath)]
      rfl
    · rw [if_pos hpath, decide_eq_true hpath, Bool.true_and, Option.isSome_map,
        MountLookups.isSome_toOption]
      rfl
  · rw [snapshotsFor_imported hempty, signalFiles_probe h, if_pos hempty]
    cases sources scenario.dataSentimentType <;> rfl

def Serves (context : LoadContext) (scenario other : StressedScenario) : Prop :=
  ∀ archive series, loadedSignals context archive scenario = some series →
    ∃ series', loadedSignals context archive other = some series' ∧
      ∀ kind, series.get? kind = series'.get? kind

theorem Serves.loaded (h : Serves context scenario other) (haccepted : ¬Refused scenario)
    {archive : SignalArchive}
    (hsome : ∀ worker ∈ signalWorkers scenario.toSingleScenario,
      (snapshotsFor context archive scenario worker.2).isSome) :
    unknownStaleSources other.toSingleScenario = [] ∧
      (∀ worker ∈ signalWorkers other.toSingleScenario,
        (snapshotsFor context archive other worker.2).isSome) ∧
      ¬Refused other ∧
      ∀ kind, (lastPath scenario.toSingleScenario kind).map (fun path =>
          (snapshotsFor context archive scenario path).getD []) =
        (lastPath other.toSingleScenario kind).map fun path =>
          (snapshotsFor context archive other path).getD [] := by
  unfold Refused at haccepted
  push Not at haccepted
  obtain ⟨series', hseries', hsame⟩ := h archive _
    (loadedSignals_eq_some_iff.mpr ⟨haccepted.1, hsome, rfl⟩)
  have hloaded := loadedSignals_eq_some_iff.mp hseries'
  refine ⟨hloaded.1, hloaded.2.1, not_refused_of_loaded hseries', fun kind => ?_⟩
  have hkind := hsame kind
  rw [hloaded.2.2, get?_workerSeries, get?_workerSeries] at hkind
  have hsnapshots := congrArg (Option.map SignalSeries.snapshots) hkind
  rw [Option.map_map, Option.map_map] at hsnapshots
  exact hsnapshots

theorem nonempty_paths (h : ¬Refused scenario) (hempty : scenario.dataSentimentType = "") :
    ∀ worker ∈ signalWorkers scenario.toSingleScenario, worker.2 ≠ "" := by
  intro worker hworker hpath
  exact h (.inr ⟨hempty, worker, hworker, hpath⟩)

/-- A scenario loads its signals on a probe that has its source, or the files of its paths. -/
theorem some_on_probe (sources : String → Bool) (file : SignalFile)
    (jsonl : String → Except String (List SignalSnapshot)) (haccepted : ¬Refused scenario)
    (hfile : file.startTime ≤ scenario.endDate.getD farFuture)
    (hsource : scenario.dataSentimentType ≠ "" → sources scenario.dataSentimentType = true)
    (hjsonl : scenario.dataSentimentType = "" →
      ∀ worker ∈ signalWorkers scenario.toSingleScenario,
        (jsonl (context.resolvePath worker.2)).isOk = true) :
    ∀ worker ∈ signalWorkers scenario.toSingleScenario,
      (snapshotsFor context (signalProbe sources file jsonl) scenario worker.2).isSome := by
  intro worker hworker
  rw [isSome_probe hfile]
  by_cases hempty : scenario.dataSentimentType = ""
  · rw [if_neg (not_not.mpr hempty), decide_eq_true (nonempty_paths haccepted hempty worker hworker),
      hjsonl hempty worker hworker]
    rfl
  · rw [if_pos hempty, hsource hempty]

theorem fileWith_startTime_other (hbasis : SameBasis scenario other) (stamp : ℤ) :
    (fileWith scenario.toSingleScenario stamp).startTime ≤ other.endDate.getD farFuture := by
  rw [← hbasis.stop]
  exact fileWith_startTime scenario.toSingleScenario stamp

variable (h : Serves context scenario other) (haccepted : ¬Refused scenario)

include h haccepted

theorem Serves.kinds : ¬Refused other ∧ ∀ kind,
    (lastPath scenario.toSingleScenario kind).isSome =
      (lastPath other.toSingleScenario kind).isSome := by
  obtain ⟨-, -, haccepted', hsame⟩ := h.loaded haccepted (some_on_probe
    (fun _ => true) (fileWith scenario.toSingleScenario 0) (fun _ => .ok []) haccepted
    (fileWith_startTime scenario.toSingleScenario 0) (fun _ => rfl) fun _ _ _ => rfl)
  refine ⟨haccepted', fun kind => ?_⟩
  have hkind := congrArg Option.isSome (hsame kind)
  rw [Option.isSome_map, Option.isSome_map] at hkind
  exact hkind

variable (hbasis : SameBasis scenario other)

include hbasis

theorem Serves.source (hworkers : signalWorkers scenario.toSingleScenario ≠ []) :
    scenario.dataSentimentType = other.dataSentimentType := by
  have hkinds := (h.kinds haccepted).2
  obtain ⟨worker, hworker⟩ := List.exists_mem_of_ne_nil _
    (signalWorkers_of_kinds (fun kind => (hkinds kind).symm) hworkers)
  by_cases hempty : scenario.dataSentimentType = ""
  · -- without an imported archive, a scenario that has a source is given nothing
    obtain ⟨-, hsome, -, -⟩ := h.loaded haccepted (some_on_probe (fun _ => false)
      (fileWith scenario.toSingleScenario 0) (fun _ => .ok []) haccepted
      (fileWith_startTime scenario.toSingleScenario 0) (fun hne => absurd hempty hne)
      fun _ _ _ => rfl)
    have hother := hsome worker hworker
    rw [isSome_probe (fileWith_startTime_other hbasis 0)] at hother
    by_contra hne
    rw [if_pos fun hempty' => hne (hempty.trans hempty'.symm)] at hother
    cases hother
  · -- with nothing but the source of the one, the other has to read it too
    obtain ⟨-, hsome, -, -⟩ := h.loaded haccepted (some_on_probe
      (fun source => decide (source = scenario.dataSentimentType))
      (fileWith scenario.toSingleScenario 0) (fun _ => .error "") haccepted
      (fileWith_startTime scenario.toSingleScenario 0) (fun _ => decide_eq_true rfl)
      fun hempty' => absurd hempty' hempty)
    have hother := hsome worker hworker
    rw [isSome_probe (fileWith_startTime_other hbasis 0)] at hother
    split at hother
    · exact (of_decide_eq_true hother).symm
    · rw [Bool.and_eq_true] at hother
      cases hother.2

theorem Serves.outages (hworkers : signalWorkers scenario.toSingleScenario ≠ [])
    (hne : scenario.dataSentimentType ≠ "") {stamp : ℤ}
    (hstop : ∀ stop ∈ scenario.endDate, ofEpochMs stamp ≤ stop) :
    isStale scenario (ofEpochMs stamp) = isStale other (ofEpochMs stamp) := by
  have hsource := h.source haccepted hbasis hworkers
  obtain ⟨worker, hworker⟩ := List.exists_mem_of_ne_nil _ hworkers
  obtain ⟨path, hpath⟩ := Option.isSome_iff_exists.mp
    (lastPath_isSome_iff.mpr (List.mem_map_of_mem hworker))
  have hkind := (h.kinds haccepted).2 worker.1
  rw [hpath, Option.isSome_some, eq_comm, Option.isSome_iff_exists] at hkind
  obtain ⟨path', hpath'⟩ := hkind
  obtain ⟨-, -, -, hsame⟩ := h.loaded haccepted (some_on_probe (fun _ => true)
    (fileWith scenario.toSingleScenario stamp) (fun _ => .ok []) haccepted
    (fileWith_startTime scenario.toSingleScenario stamp) (fun _ => rfl) fun _ _ _ => rfl)
  have hsnapshots := hsame worker.1
  rw [hpath, hpath', Option.map_some, Option.map_some, snapshotsFor_imported hne,
    snapshotsFor_imported (hsource ▸ hne), ← signalFiles_eq hbasis hsource,
    ← imported_eq hbasis hsource, imported, signalFiles_probe
      (fileWith_startTime scenario.toSingleScenario stamp), if_pos rfl,
    if_neg (List.cons_ne_nil _ _), if_neg (List.cons_ne_nil _ _), Option.getD_some,
    Option.getD_some] at hsnapshots
  obtain ⟨snapshot, hread, hstamp⟩ := @last_read scenario.dataSentimentType scenario.symbol _ stamp
    scenario.startDate scenario.endDate (min_le_left stamp (lookupMs scenario.toSingleScenario)) hstop
  have hkept : (snapshot ∈ _) = (snapshot ∈ _) :=
    congrArg (fun snapshots => snapshot ∈ snapshots) (Option.some.inj hsnapshots)
  rw [List.mem_filter, List.mem_filter, hstamp, eq_iff_iff, and_congr_right_iff] at hkept
  have hsame' := hkept hread
  rw [← Bool.eq_iff_iff] at hsame'
  exact Bool.not_inj hsame'

theorem Serves.readable (hempty : scenario.dataSentimentType = "") :
    ∀ worker ∈ signalWorkers other.toSingleScenario,
      ∃ worker' ∈ signalWorkers scenario.toSingleScenario,
        context.resolvePath worker'.2 = context.resolvePath worker.2 := by
  intro worker hworker
  have hkinds := (h.kinds haccepted).2
  have hsource := h.source haccepted hbasis
    (signalWorkers_of_kinds hkinds (List.ne_nil_of_mem hworker))
  -- only the files of the one can be read
  obtain ⟨-, hsome, -, -⟩ := h.loaded haccepted (some_on_probe (fun _ => false)
    (fileWith scenario.toSingleScenario 0)
    (fun path => if (signalWorkers scenario.toSingleScenario).any
      (fun worker => context.resolvePath worker.2 = path) then .ok [] else .error "") haccepted
    (fileWith_startTime scenario.toSingleScenario 0) (fun hne => absurd hempty hne)
    fun _ worker' hworker' => by
      rw [if_pos (List.any_eq_true.mpr ⟨worker', hworker', decide_eq_true rfl⟩)]
      rfl)
  have hother := hsome worker hworker
  rw [isSome_probe (fileWith_startTime_other hbasis 0), if_neg (not_not.mpr (hsource ▸ hempty)),
    Bool.and_eq_true] at hother
  obtain ⟨-, hread⟩ := hother
  split at hread
  · next hany =>
      obtain ⟨worker', hworker', hresolve⟩ := List.any_eq_true.mp hany
      exact ⟨worker', hworker', of_decide_eq_true hresolve⟩
  · cases hread

def stampSnapshot (moment : Instant) : SignalSnapshot where
  schemaVersion := "2.0"
  collectedMsc := moment

def onlyAt (path : String) (moment : Instant) (path' : String) :
    Except String (List SignalSnapshot) :=
  .ok (if path' = path then [stampSnapshot moment] else [])

theorem Serves.paths (hempty : scenario.dataSentimentType = "") (kind : String) :
    (lastPath scenario.toSingleScenario kind).map context.resolvePath =
      (lastPath other.toSingleScenario kind).map context.resolvePath := by
  have hkinds := (h.kinds haccepted).2
  have hkind := hkinds kind
  cases hlast : lastPath scenario.toSingleScenario kind with
  | none =>
      rw [hlast, Option.isSome_none, eq_comm, Option.isSome_eq_false_iff,
        Option.isNone_iff_eq_none] at hkind
      rw [hkind]
  | some path =>
      rw [hlast, Option.isSome_some, eq_comm, Option.isSome_iff_exists] at hkind
      obtain ⟨path', hlast'⟩ := hkind
      have hmem := mem_of_lastPath hlast
      have hmem' := mem_of_lastPath hlast'
      have hsource := h.source haccepted hbasis (List.ne_nil_of_mem hmem)
      have haccepted' := (h.kinds haccepted).1
      rw [hlast']
      by_contra hne
      have hne' : context.resolvePath path' ≠ context.resolvePath path :=
        fun heq => hne (congrArg some heq.symm)
      -- a snapshot in the file of the one, none in the file of the other
      obtain ⟨-, -, -, hsame⟩ := h.loaded haccepted (some_on_probe (fun _ => false)
        (fileWith scenario.toSingleScenario 0)
        (onlyAt (context.resolvePath path) (scenario.endDate.getD 0)) haccepted
        (fileWith_startTime scenario.toSingleScenario 0) (fun hne => absurd hempty hne)
        fun _ worker _ => rfl)
      have hsnapshots := hsame kind
      have hown : onlyAt (context.resolvePath path) (scenario.endDate.getD 0)
          (context.resolvePath path) = .ok [stampSnapshot (scenario.endDate.getD 0)] :=
        congrArg Except.ok (if_pos rfl)
      have hother : onlyAt (context.resolvePath path) (scenario.endDate.getD 0)
          (context.resolvePath path') = .ok [] := congrArg Except.ok (if_neg hne')
      rw [hlast, hlast', Option.map_some, Option.map_some, snapshotsFor_jsonl hempty,
        snapshotsFor_jsonl (hsource ▸ hempty),
        if_pos (nonempty_paths haccepted hempty _ hmem),
        if_pos (nonempty_paths haccepted' (hsource ▸ hempty) _ hmem'), signalProbe_jsonl, hown,
        hother] at hsnapshots
      have hread : trimRange (some scenario.startDate) scenario.endDate
          ([] ++ [stampSnapshot (scenario.endDate.getD 0)]) =
            trimRange (some other.startDate) other.endDate [] := Option.some.inj hsnapshots
      have hlastRead := @last_mem_trimRange (some scenario.startDate) scenario.endDate []
        (stampSnapshot (scenario.endDate.getD 0)) fun stop hstop => by
          rw [hstop]
          exact le_refl stop
      rw [hread, trimRange_nil] at hlastRead
      cases hlastRead

theorem Serves.covers : Covers context.resolvePath scenario other where
  accepted := (h.kinds haccepted).1
  kinds := (h.kinds haccepted).2
  source := h.source haccepted hbasis
  outages hworkers hne _ hstop := h.outages haccepted hbasis hworkers hne hstop
  readable := h.readable haccepted hbasis
  paths := h.paths haccepted hbasis

end Probes

end Finiex.SignalProbes
