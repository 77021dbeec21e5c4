import Finiex.PreparationIsolation
import Finiex.PreparedStream

namespace Finiex.BatchStreams

open Finiex.Types
open Finiex.Bars
open Finiex.Lib
open Finiex.TickFiles
open Finiex.Preparation
open Finiex.PreparationIsolation (SharesRows groupOf ticksOf transported)
open Finiex.PreparedStream

section Requests

variable {entries : List IndexEntry} {symbol : String}

def symbolFilesOf (entries : List IndexEntry) (h : entries ≠ []) : SymbolFiles where
  files := entries.map fun entry => {
    startTime := entry.startTime
    endTime := entry.endTime
    rows := entry.file.rows.map tickRowOf }
  nonempty := fun hnil => h (List.map_eq_nil_iff.mp hnil)

def requirementOf (scenarioName brokerType symbol : String) : TickRequest → TickRequirement
  | .timespan startTime endTime => {
      scenarioName := scenarioName
      brokerType := brokerType
      symbol := symbol
      startTime := startTime
      endTime := some endTime
      maxTicks := none
      bounded := .inr rfl }
  | .maxTicks startTime count => {
      scenarioName := scenarioName
      brokerType := brokerType
      symbol := symbol
      startTime := startTime
      endTime := none
      maxTicks := some count
      bounded := .inl rfl }

theorem sortKey_le_iff {row later : ArchivedRow} (hrow : row.timeMsc.isSome = true)
    (hlater : later.timeMsc.isSome = true) :
    sortKey row ≤ sortKey later ↔ notAfter (tickRowOf row) (tickRowOf later) := by
  obtain ⟨timeMsc, htime⟩ := Option.isSome_iff_exists.mp hrow
  obtain ⟨timeMsc', htime'⟩ := Option.isSome_iff_exists.mp hlater
  rw [sortKey, sortKey, Prod.Lex.toLex_le_toLex, htime, htime', notAfter, tickRowOf, tickRowOf,
    htime, htime']
  exact or_congr Iff.rfl (and_congr Iff.rfl WithTop.coe_le_coe)

theorem cut_subset {row : ArchivedRow} {request : TickRequest}
    (h : row ∈ cut request (servedRows entries request)) :
    row ∈ rowsOf (relevantFiles entries request) := by
  have hserved : row ∈ servedRows entries request := by
    cases request with
    | timespan startTime endTime => exact h
    | maxTicks startTime count => exact List.mem_of_mem_take h
  exact (List.mem_insertionSort _).mp (List.mem_of_mem_filter hserved)

theorem timed_rows (htimed : ∀ entry ∈ entries, entry.file.hasTimeMsc = true)
    {request : TickRequest} :
    ∀ row ∈ rowsOf (relevantFiles entries request), row.timeMsc.isSome = true := by
  intro row hrow
  obtain ⟨entry, hentry, hmem⟩ := List.mem_flatMap.mp hrow
  rw [entry.file.uniform row hmem, htimed entry (List.mem_of_mem_filter hentry)]

theorem sliceRows_map (rows : List ArchivedRow) (scenarioName brokerType : String)
    (request : TickRequest) :
    Preparation.sliceRows (rows.map tickRowOf)
        (requirementOf scenarioName brokerType symbol request) =
      (TickFiles.sliceRows rows request).map tickRowOf := by
  have hstart : searchsortedLeft (rows.map tickRowOf) request.startTime =
      rows.countP fun row => row.timestamp < request.startTime := List.countP_map
  cases request with
  | timespan startTime endTime =>
      have hend : searchsortedRight (rows.map tickRowOf) endTime =
          rows.countP fun row => row.timestamp ≤ endTime := List.countP_map
      rw [TickFiles.sliceRows, List.map_take, List.map_drop, ← hstart, ← hend]
      rfl
  | maxTicks startTime count =>
      rw [TickFiles.sliceRows, List.map_take, List.map_drop, ← hstart]
      rfl

theorem loadRows_eq (hne : entries ≠ [])
    (htimed : ∀ entry ∈ entries, entry.file.hasTimeMsc = true) (scenarioName brokerType : String)
    (request : TickRequest) :
    loadRows (symbolFilesOf entries hne) [requirementOf scenarioName brokerType symbol request] =
      (sortRows (rowsOf (relevantFiles entries request))).map tickRowOf := by
  have hstart : unionStart [requirementOf scenarioName brokerType symbol request] =
      request.startTime := by cases request <;> rfl
  have hend : unionEnd (symbolFilesOf entries hne)
      [requirementOf scenarioName brokerType symbol request] = request.unionEnd entries := by
    cases request with
    | timespan startTime endTime => rfl
    | maxTicks startTime count =>
        rw [TickRequest.unionEnd, List.getLast?_eq_some_getLast hne]
        exact congrArg TickFile.endTime (List.getLast_map _)
  have hrows : (((symbolFilesOf entries hne).getRelevantFiles request.startTime
      (request.unionEnd entries)).flatMap TickFile.rows) =
      (rowsOf (relevantFiles entries request)).map tickRowOf := by
    rw [SymbolFiles.getRelevantFiles, symbolFilesOf, List.filter_map, List.flatMap_map, rowsOf,
      List.map_flatMap]
    rfl
  rw [loadRows, hstart, hend, hrows, sortRows]
  refine (List.map_insertionSort _ _ tickRowOf _ fun row hrow later hlater => ?_).symm
  exact sortKey_le_iff (timed_rows htimed row hrow) (timed_rows htimed later hlater)

/-- For files with event times, the stream of a request is what the request loads alone. -/
theorem prepareStream_eq_ticksOf (hne : entries ≠ [])
    (htimed : ∀ entry ∈ entries, entry.file.hasTimeMsc = true) {archive : DataArchive}
    {brokerType : String}
    (harchive : archive.tickFiles brokerType symbol = some (symbolFilesOf entries hne))
    (scenarioName : String) (request : TickRequest) :
    prepareStream entries symbol request =
      .ok ((ticksOf archive [requirementOf scenarioName brokerType symbol request]
        (requirementOf scenarioName brokerType symbol request)).map (tickOf symbol)) := by
  have hticks : ticksOf archive [requirementOf scenarioName brokerType symbol request]
      (requirementOf scenarioName brokerType symbol request) =
        (cut request (servedRows entries request)).map tickRowOf := by
    have hfiles : archive.tickFiles
        (requirementOf scenarioName brokerType symbol request).brokerType
        (requirementOf scenarioName brokerType symbol request).symbol =
          some (symbolFilesOf entries hne) := by
      cases request <;> exact harchive
    rw [ticksOf, hfiles, ← sliceRows_eq, ← sliceRows_map, ← loadRows_eq hne htimed]
  have hsome : ∀ row ∈ cut request (servedRows entries request), row.timeMsc.isSome = true := by
    intro row hrow
    exact timed_rows htimed row (cut_subset hrow)
  rw [hticks, List.map_map]
  refine prepareStream_iff.mpr ⟨?_, hsome, (ticks_of_timed hsome).symm⟩
  rintro ⟨entry, hentry, hread⟩
  exact ⟨entry, hentry, hread, htimed entry hentry⟩

end Requests

section Packages

variable {files : List ArchivedFile} {symbol : String} {request : TickRequest}

def AskedFor (files : List ArchivedFile) (symbol : String) (ticks : List TickData) :
    TickRequest → Prop
  | .timespan startTime endTime =>
      Chronological ticks ∧
        ticks.Perm ((archivedTicks symbol files).filter fun tick =>
          decide (startTime ≤ tick.timestamp) && decide (tick.timestamp ≤ endTime))
  | .maxTicks startTime count =>
      Chronological ticks ∧ ∃ rest,
        (ticks ++ rest).Perm ((archivedTicks symbol files).filter fun tick =>
          decide (startTime ≤ tick.timestamp)) ∧
        ticks.length = min count (ticks ++ rest).length ∧
        ∀ tick ∈ ticks, ∀ later ∈ rest, tick.timeMsc ≤ later.timeMsc

theorem askedFor_of_clocksAgree (hvalid : ∀ file ∈ files, (validateFile file).errors = [])
    (hordering : validateArchiveOrdering (buildIndex files) = [])
    (hclocks : ClocksAgree (buildIndex files) request) {ticks : List TickData}
    (hstream : prepareStream (buildIndex files) symbol request = .ok ticks) :
    AskedFor files symbol ticks request := by
  have hsound : ∀ file ∈ files, Sound file := fun file hfile => sound_of_valid (hvalid file hfile)
  cases request with
  | timespan startTime endTime =>
      obtain ⟨stream, hprepared, hdelivered⟩ :=
        (delivers_timespan_iff hsound hordering symbol startTime endTime).mpr hclocks
      cases hstream.symm.trans hprepared
      exact hdelivered
  | maxTicks startTime count =>
      -- whether the clocks agree does not depend on the number of ticks
      have hall : ∀ count', ClocksAgree (buildIndex files) (.maxTicks startTime count') :=
        fun _ => ⟨hclocks.readable, hclocks.sides, hclocks.order, hclocks.ties⟩
      obtain ⟨stream, rest, hprepared, hchronological, hdelivered⟩ :=
        (delivers_maxTicks_iff hsound hordering symbol startTime).mpr hall count
      cases hstream.symm.trans hprepared
      exact ⟨hchronological, rest, hdelivered⟩

variable {Series : Type}

def burstArchive : DataArchive where
  tickFiles broker symbol :=
    if broker = "kraken" ∧ symbol = "BTCUSD" then
      some (symbolFilesOf (buildIndex [burstFile]) (by decide +kernel))
    else none
  barFile _ _ _ := none

def firstSeconds : SingleScenario where
  name := "first"
  scenarioIndex := 0
  symbol := "BTCUSD"
  dataBrokerType := "kraken"
  startDate := 0
  endDate := some 11000000
  bounded := .inr rfl

def twoTicks : SingleScenario where
  name := "two"
  scenarioIndex := 1
  symbol := "BTCUSD"
  dataBrokerType := "kraken"
  startDate := 5000000
  maxTicks := some 2
  bounded := .inl rfl

end Packages

end Finiex.BatchStreams
