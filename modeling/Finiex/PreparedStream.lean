import Finiex.TickFiles
import Finiex.Lib.Lists
import Finiex.Lib.Selections

namespace Finiex.PreparedStream

open Finiex.Types
open Finiex.Bars
open Finiex.Lib
open Finiex.TickFiles

section Validated

theorem reportCount_nil {count : ℕ} {error : ℕ → FileError} (h : reportCount count error = []) :
    count = 0 := by
  unfold reportCount at h
  split at h
  · cases h
  · next hzero => omega

theorem ascending_of_steps {values : List ℤ} (h : (steps values).countP (· < 0) = 0) :
    values.IsChain (· ≤ ·) := by
  induction values with
  | nil => exact List.IsChain.nil
  | cons value values ih =>
      cases values with
      | nil => exact List.IsChain.singleton _
      | cons next values =>
          have hcons : steps (value :: next :: values) = (next - value) :: steps (next :: values) :=
            rfl
          rw [hcons, List.countP_eq_zero] at h
          have hfirst := h (next - value) List.mem_cons_self
          have hrest := ih (List.countP_eq_zero.mpr fun step hstep =>
            h step (List.mem_cons_of_mem _ hstep))
          refine List.IsChain.cons_cons ?_ hrest
          simpa using hfirst

/-- What the proofs use of a file without errors. -/
structure Sound (file : ArchivedFile) : Prop where
  nonempty : file.rows ≠ []
  prices : ∀ row ∈ file.rows, 0 < row.bid ∧ 0 < row.ask
  arrivals : file.hasTimeMsc = true →
    (file.rows.map ArchivedRow.collectedMsc).IsChain (· ≤ ·)

theorem sound_of_valid {file : ArchivedFile} (h : (validateFile file).errors = []) : Sound file := by
  unfold validateFile at h
  split at h
  · cases h
  · next hne =>
      have hprices : checkPrices file.rows = [] → ∀ row ∈ file.rows, 0 < row.bid ∧ 0 < row.ask := by
        intro hcheck row hrow
        rw [checkPrices, List.append_eq_nil_iff] at hcheck
        have hpositive := List.countP_eq_zero.mp (reportCount_nil hcheck.1) row hrow
        simpa using hpositive
      dsimp only at h
      split at h
      · simp only [List.append_eq_nil_iff] at h
        obtain ⟨⟨⟨⟨⟨-, hcheck⟩, -⟩, hcollected⟩, -⟩, -⟩ := h
        exact ⟨hne, hprices hcheck, fun _ => ascending_of_steps (reportCount_nil hcollected)⟩
      · next huntimed =>
          rw [List.append_eq_nil_iff] at h
          exact ⟨hne, hprices h.2, fun htimed => absurd htimed huntimed⟩

def rowsOf (entries : List IndexEntry) : List ArchivedRow :=
  entries.flatMap fun entry => entry.file.rows

theorem scanFile_file {file : ArchivedFile} {entry : IndexEntry} (h : scanFile file = some entry) :
    entry.file = file ∧ file.rows.head?.map ArchivedRow.collectedMsc = some entry.collectedStart ∧
      file.rows.getLast?.map ArchivedRow.collectedMsc = some entry.collectedEnd := by
  unfold scanFile at h
  split at h
  · next first last hfirst hlast =>
      cases h
      rw [hfirst, hlast]
      exact ⟨rfl, rfl, rfl⟩
  · cases h

theorem scanFile_bounds {file : ArchivedFile} {entry : IndexEntry}
    (h : scanFile file = some entry) :
    (∃ first ∈ file.rows, first.timestamp = entry.startTime) ∧
      ∃ last ∈ file.rows, last.timestamp = entry.endTime := by
  unfold scanFile at h
  split at h
  · next first last hfirst hlast =>
      cases h
      exact ⟨⟨first, List.mem_of_mem_head? hfirst, rfl⟩,
        ⟨last, List.mem_of_mem_getLast? hlast, rfl⟩⟩
  · cases h

theorem scanFile_none {file : ArchivedFile} (h : scanFile file = none) : file.rows = [] := by
  unfold scanFile at h
  cases hrows : file.rows with
  | nil => rfl
  | cons row rows =>
      rw [hrows, List.head?_cons, List.getLast?_cons] at h
      cases h

theorem mem_buildIndex {files : List ArchivedFile} {entry : IndexEntry} :
    entry ∈ buildIndex files ↔ ∃ file ∈ files, scanFile file = some entry := by
  rw [buildIndex, List.mem_insertionSort, List.mem_filterMap]

theorem rowsOf_buildIndex (files : List ArchivedFile) :
    (rowsOf (buildIndex files)).Perm (files.flatMap ArchivedFile.rows) := by
  have hscanned : rowsOf (files.filterMap scanFile) = files.flatMap ArchivedFile.rows := by
    induction files with
    | nil => rfl
    | cons file files ih =>
        rw [List.flatMap_cons, ← ih]
        cases hscan : scanFile file with
        | none => rw [List.filterMap_cons_none hscan, scanFile_none hscan, List.nil_append]
        | some entry =>
            rw [List.filterMap_cons_some hscan, rowsOf, List.flatMap_cons, (scanFile_file hscan).1]
            rfl
  rw [← hscanned]
  exact (List.perm_insertionSort _ _).flatMap_right _

theorem isChain_of_transitions {α : Type} {R : α → α → Prop} {xs : List α}
    (h : ∀ pair ∈ xs.zip xs.tail, R pair.1 pair.2) : xs.IsChain R := by
  induction xs with
  | nil => exact List.IsChain.nil
  | cons x xs ih =>
      cases xs with
      | nil => exact List.IsChain.singleton x
      | cons y xs =>
          refine List.IsChain.cons_cons (h (x, y) List.mem_cons_self) (ih fun pair hpair => ?_)
          exact h pair (List.mem_cons_of_mem _ hpair)

/-- Where nothing is found, each file arrives after the one before it. -/
theorem arrivals_chain {entries : List IndexEntry}
    (hsorted : entries.Pairwise fun entry later => entry.startTime ≤ later.startTime)
    (h : validateArchiveOrdering entries = []) :
    entries.IsChain fun previous current => previous.collectedEnd ≤ current.collectedStart := by
  rw [validateArchiveOrdering, hsorted.insertionSort_eq] at h
  obtain ⟨hchecks, hunchecked⟩ := List.append_eq_nil_iff.mp h
  have hknown := List.countP_eq_zero.mp (by_contra fun hne => by
    rw [if_pos hne] at hunchecked
    cases hunchecked)
  refine isChain_of_transitions ?_
  rintro ⟨previous, current⟩ hpair
  have hcheck : checkTransition previous current = [] :=
    List.flatMap_eq_nil_iff.mp hchecks _ hpair
  have hbounds := hknown _ hpair
  simp only [decide_eq_true_eq, not_or] at hbounds
  rw [checkTransition, List.append_eq_nil_iff] at hcheck
  by_contra hback
  rw [not_le] at hback
  have hstep := hcheck.2
  rw [if_pos ⟨hbounds.1, hbounds.2, hback⟩] at hstep
  cases hstep

/-- The rows of files with event times arrive in the order of the archive. -/
theorem rows_arrive {files : List ArchivedFile} (hsound : ∀ file ∈ files, Sound file)
    (htimed : ∀ entry ∈ buildIndex files, entry.file.hasTimeMsc = true)
    (hordering : validateArchiveOrdering (buildIndex files) = []) :
    (rowsOf (buildIndex files)).Pairwise fun row later =>
      row.collectedMsc ≤ later.collectedMsc := by
  have hsorted : (buildIndex files).Pairwise fun entry later =>
      entry.startTime ≤ later.startTime := List.pairwise_insertionSort _ _
  have hchain := arrivals_chain hsorted hordering
  have hnonempty : [] ∉ (buildIndex files).map fun entry => entry.file.rows := by
    intro hmem
    obtain ⟨entry, hentry, hrows⟩ := List.mem_map.mp hmem
    obtain ⟨file, hfile, hscan⟩ := mem_buildIndex.mp hentry
    rw [(scanFile_file hscan).1] at hrows
    exact (hsound file hfile).nonempty hrows
  rw [rowsOf, List.flatMap_def]
  apply List.IsChain.pairwise
  rw [List.isChain_flatten hnonempty]
  constructor
  · intro rows hrows
    obtain ⟨entry, hentry, rfl⟩ := List.mem_map.mp hrows
    obtain ⟨file, hfile, hscan⟩ := mem_buildIndex.mp hentry
    have harrivals := (hsound entry.file ((scanFile_file hscan).1 ▸ hfile)).arrivals
      (htimed entry hentry)
    exact List.isChain_map _ |>.mp harrivals
  · rw [List.isChain_map]
    refine hchain.imp_of_mem_imp fun previous current hprevious hcurrent hle last hlast first hfirst => ?_
    obtain ⟨file, -, hscan⟩ := mem_buildIndex.mp hprevious
    obtain ⟨file', -, hscan'⟩ := mem_buildIndex.mp hcurrent
    obtain ⟨rfl, -, hend⟩ := scanFile_file hscan
    obtain ⟨rfl, hstart, -⟩ := scanFile_file hscan'
    rw [Option.mem_def] at hlast hfirst
    rw [hlast, Option.map_some, Option.some.injEq] at hend
    rw [hfirst, Option.map_some, Option.some.injEq] at hstart
    rw [hend, hstart]
    exact hle

end Validated

section Requests

/-- The end of a span; a number of ticks is taken from a span without end. -/
def endTime? : TickRequest → Option Instant
  | .timespan _ endTime => some endTime
  | .maxTicks _ _ => none

def covers (request : TickRequest) (t : Instant) : Bool :=
  decide (request.startTime ≤ t) && (endTime? request).all fun endTime => decide (t ≤ endTime)

def isDue (request : TickRequest) (row : ArchivedRow) : Bool :=
  row.timeMsc.any fun timeMsc => covers request (timeMsc * 1000)

def isRead (entries : List IndexEntry) (request : TickRequest) (entry : IndexEntry) : Bool :=
  entry.isRelevant request.startTime (request.unionEnd entries)

/-- The rows whose event times a request asks for, in the order of the archive. -/
def dueRows (entries : List IndexEntry) (request : TickRequest) : List ArchivedRow :=
  (rowsOf entries).filter (isDue request)

/-- Neither clock of a later row is behind. -/
def InOrder (row later : ArchivedRow) : Prop :=
  (∀ timeMsc ∈ row.timeMsc, ∀ timeMsc' ∈ later.timeMsc, timeMsc ≤ timeMsc') ∧
    row.collectedMsc ≤ later.collectedMsc

instance (row later : ArchivedRow) : Decidable (InOrder row later) :=
  inferInstanceAs (Decidable (_ ∧ _))

/-- For the rows of a request, the timestamps tell what the other clocks tell: which rows are
asked for, and which of two comes first. -/
structure ClocksAgree (entries : List IndexEntry) (request : TickRequest) : Prop where
  /-- If a file is read, one with event times is. -/
  readable : (∃ entry ∈ entries, isRead entries request entry = true) →
    ∃ entry ∈ entries, isRead entries request entry = true ∧ entry.file.hasTimeMsc = true
  /-- A row is read and has a timestamp in the span if and only if its event time is in it. -/
  sides : ∀ entry ∈ entries, ∀ row ∈ entry.file.rows,
    isRead entries request entry = true ∧ covers request row.timestamp = true ↔
      isDue request row = true
  /-- A row that sorts before another is not behind it. -/
  order : ∀ row ∈ dueRows entries request, ∀ later ∈ dueRows entries request,
    sortKey row < sortKey later → InOrder row later
  /-- Around a file without event times, whose arrival is not validated, rows that sort alike
  arrive as the archive has them. -/
  ties : (∃ entry ∈ entries, entry.file.hasTimeMsc = false) →
    (dueRows entries request).Pairwise fun row later =>
      sortKey row = sortKey later → row.collectedMsc ≤ later.collectedMsc

instance (entries : List IndexEntry) (request : TickRequest) :
    Decidable (ClocksAgree entries request) :=
  decidable_of_iff
    (((∃ entry ∈ entries, isRead entries request entry = true) →
      ∃ entry ∈ entries, isRead entries request entry = true ∧ entry.file.hasTimeMsc = true) ∧
    (∀ entry ∈ entries, ∀ row ∈ entry.file.rows,
      isRead entries request entry = true ∧ covers request row.timestamp = true ↔
        isDue request row = true) ∧
    (∀ row ∈ dueRows entries request, ∀ later ∈ dueRows entries request,
      sortKey row < sortKey later → InOrder row later) ∧
    ((∃ entry ∈ entries, entry.file.hasTimeMsc = false) →
      (dueRows entries request).Pairwise fun row later =>
        sortKey row = sortKey later → row.collectedMsc ≤ later.collectedMsc))
    ⟨fun ⟨hreadable, hsides, horder, hties⟩ => ⟨hreadable, hsides, horder, hties⟩,
      fun ⟨hreadable, hsides, horder, hties⟩ => ⟨hreadable, hsides, horder, hties⟩⟩

def archivedTicks (symbol : String) (files : List ArchivedFile) : List TickData :=
  (files.flatMap ArchivedFile.rows).filterMap (toTick symbol)

/-- Neither clock of the ticks steps back. -/
def Chronological (ticks : List TickData) : Prop :=
  ticks.Pairwise fun tick later =>
    tick.timeMsc ≤ later.timeMsc ∧ tick.collectedMsc ≤ later.collectedMsc

/-- The stream of a request is chronological, and has each tick that was asked for once: those
of the span, or the earliest of those from the start. -/
def Delivers (files : List ArchivedFile) (symbol : String) : TickRequest → Prop
  | .timespan startTime endTime =>
      ∃ ticks, prepareStream (buildIndex files) symbol (.timespan startTime endTime) = .ok ticks ∧
        Chronological ticks ∧
        ticks.Perm ((archivedTicks symbol files).filter fun tick =>
          decide (startTime ≤ tick.timestamp) && decide (tick.timestamp ≤ endTime))
  | .maxTicks startTime count =>
      ∃ ticks rest, prepareStream (buildIndex files) symbol (.maxTicks startTime count) = .ok ticks ∧
        Chronological ticks ∧
        (ticks ++ rest).Perm ((archivedTicks symbol files).filter fun tick =>
          decide (startTime ≤ tick.timestamp)) ∧
        ticks.length = min count (ticks ++ rest).length ∧
        ∀ tick ∈ ticks, ∀ later ∈ rest, tick.timeMsc ≤ later.timeMsc

end Requests

section Serving

variable {entries : List IndexEntry} {request : TickRequest} {symbol : String}

def servedRows (entries : List IndexEntry) (request : TickRequest) : List ArchivedRow :=
  (sortRows (rowsOf (relevantFiles entries request))).filter fun row => covers request row.timestamp

def cut : TickRequest → List ArchivedRow → List ArchivedRow
  | .timespan _ _, rows => rows
  | .maxTicks _ count, rows => rows.take count

theorem sortRows_timestamps (rows : List ArchivedRow) :
    (sortRows rows).Pairwise fun row later => row.timestamp ≤ later.timestamp := by
  refine (List.pairwise_insertionSort (fun row later => sortKey row ≤ sortKey later) rows).imp ?_
  intro row later hle
  rcases Prod.Lex.le_iff.mp hle with hlt | ⟨heq, -⟩
  · exact hlt.le
  · exact heq.le

theorem sliceRows_eq (entries : List IndexEntry) (request : TickRequest) :
    sliceRows (sortRows (rowsOf (relevantFiles entries request))) request =
      cut request (servedRows entries request) := by
  have hsorted := sortRows_timestamps (rowsOf (relevantFiles entries request))
  cases request with
  | timespan startTime endTime =>
      exact slice_between ArchivedRow.timestamp hsorted startTime endTime
  | maxTicks startTime count =>
      have hdrop := drop_below ArchivedRow.timestamp hsorted startTime
      refine (congrArg (List.take count) hdrop).trans (congrArg (List.take count) ?_)
      exact List.filter_congr fun row _ => (Bool.and_true _).symm

theorem deserializeTicks_iff {rows : List ArchivedRow} {ticks : List TickData} :
    deserializeTicks symbol rows = .ok ticks ↔
      (∀ row ∈ rows, row.timeMsc.isSome = true) ∧ ticks = rows.filterMap (toTick symbol) := by
  induction rows generalizing ticks with
  | nil =>
      rw [deserializeTicks, Except.ok.injEq, eq_comm]
      simp
  | cons row rows ih =>
      unfold deserializeTicks
      cases htick : toTick symbol row with
      | none =>
          have hmissing : row.timeMsc = none := Option.map_eq_none_iff.mp htick
          simp [hmissing]
      | some tick =>
          obtain ⟨timeMsc, htime, -⟩ := Option.map_eq_some_iff.mp htick
          have hcons : (row :: rows).filterMap (toTick symbol) =
              tick :: rows.filterMap (toTick symbol) := List.filterMap_cons_some htick
          have hhead : (∀ x ∈ row :: rows, x.timeMsc.isSome = true) ↔
              ∀ x ∈ rows, x.timeMsc.isSome = true := by simp [htime]
          rw [hcons, hhead]
          constructor
          · intro hmap
            cases hrest : deserializeTicks symbol rows with
            | error error =>
                rw [hrest] at hmap
                cases hmap
            | ok rest =>
                rw [hrest] at hmap
                cases hmap
                obtain ⟨htimed, heq⟩ := ih.mp hrest
                exact ⟨htimed, congrArg (tick :: ·) heq⟩
          · rintro ⟨htimed, rfl⟩
            rw [ih.mpr ⟨htimed, rfl⟩]
            rfl

theorem prepareStream_iff {ticks : List TickData} :
    prepareStream entries symbol request = .ok ticks ↔
      ((∃ entry ∈ entries, isRead entries request entry = true) →
        ∃ entry ∈ entries, isRead entries request entry = true ∧ entry.file.hasTimeMsc = true) ∧
      (∀ row ∈ cut request (servedRows entries request), row.timeMsc.isSome = true) ∧
      ticks = (cut request (servedRows entries request)).filterMap (toTick symbol) := by
  have hmem : ∀ entry, entry ∈ relevantFiles entries request ↔
      entry ∈ entries ∧ isRead entries request entry = true := fun _ => List.mem_filter
  have hrows : (relevantFiles entries request).flatMap (fun entry => entry.file.rows) =
      rowsOf (relevantFiles entries request) := rfl
  rw [prepareStream, hrows, sliceRows_eq]
  split
  · next hnone =>
      have hserved : servedRows entries request = [] := by
        rw [servedRows, hnone]
        rfl
      have hcut : cut request (servedRows entries request) = [] := by
        rw [hserved]
        cases request with
        | timespan startTime endTime => rfl
        | maxTicks startTime count => exact List.take_nil
      have hunread : ¬∃ entry ∈ entries, isRead entries request entry = true := by
        rintro ⟨entry, hentry, hread⟩
        have hrelevant := (hmem entry).mpr ⟨hentry, hread⟩
        rw [hnone] at hrelevant
        exact absurd hrelevant List.not_mem_nil
      rw [hcut, Except.ok.injEq, eq_comm]
      simp [hunread]
  · next hsome =>
      obtain ⟨first, hfirst⟩ := List.exists_mem_of_ne_nil _ hsome
      have hread : ∃ entry ∈ entries, isRead entries request entry = true :=
        ⟨first, (hmem first).mp hfirst⟩
      split
      · next htimed =>
          obtain ⟨entry, hentry, htime⟩ := List.any_eq_true.mp htimed
          obtain ⟨hindexed, hrelevant⟩ := (hmem entry).mp hentry
          rw [deserializeTicks_iff]
          exact ⟨fun h => ⟨fun _ => ⟨entry, hindexed, hrelevant, htime⟩, h⟩, fun h => h.2⟩
      · next huntimed =>
          constructor
          · intro h
            cases h
          · rintro ⟨hreadable, -⟩
            obtain ⟨entry, hindexed, hrelevant, htime⟩ := hreadable hread
            refine absurd (List.any_eq_true.mpr ⟨entry, ?_, htime⟩) huntimed
            exact (hmem entry).mpr ⟨hindexed, hrelevant⟩

def taggedRows (entries : List IndexEntry) : List (IndexEntry × ArchivedRow) :=
  entries.flatMap fun entry => entry.file.rows.map fun row => (entry, row)

def isServed (entries : List IndexEntry) (request : TickRequest) (x : IndexEntry × ArchivedRow) :
    Bool :=
  covers request x.2.timestamp && isRead entries request x.1

theorem mem_taggedRows {x : IndexEntry × ArchivedRow} :
    x ∈ taggedRows entries ↔ x.1 ∈ entries ∧ x.2 ∈ x.1.file.rows := by
  rw [taggedRows, List.mem_flatMap]
  constructor
  · rintro ⟨entry, hentry, hx⟩
    obtain ⟨row, hrow, rfl⟩ := List.mem_map.mp hx
    exact ⟨hentry, hrow⟩
  · rintro ⟨hentry, hrow⟩
    exact ⟨x.1, hentry, List.mem_map.mpr ⟨x.2, hrow, rfl⟩⟩

theorem rowsOf_eq (entries : List IndexEntry) : rowsOf entries = (taggedRows entries).map Prod.snd := by
  have hall := flatMap_filter_groups (fun _ => true) (fun entry => entry.file.rows) entries
  rwa [List.filter_true, List.filter_true] at hall

theorem dueRows_eq (entries : List IndexEntry) (request : TickRequest) :
    dueRows entries request =
      ((taggedRows entries).filter fun x => isDue request x.2).map Prod.snd := by
  rw [dueRows, rowsOf_eq, List.filter_map]
  rfl

/-- The served rows are the sorted rows of those read with a timestamp in the span. -/
theorem servedRows_eq (entries : List IndexEntry) (request : TickRequest) :
    servedRows entries request =
      sortRows (((taggedRows entries).filter (isServed entries request)).map Prod.snd) := by
  have hread : rowsOf (relevantFiles entries request) =
      ((taggedRows entries).filter fun x => isRead entries request x.1).map Prod.snd :=
    flatMap_filter_groups _ _ _
  rw [servedRows, hread, sortRows, ← insertionSort_filter, List.filter_map, List.filter_filter]
  rfl

end Serving

section Ticks

open Finiex.Preparation

variable {symbol : String}

def tickRowOf (row : ArchivedRow) : TickRow where
  timestamp := row.timestamp
  timeMsc := row.timeMsc.getD 0
  collectedMsc := row.collectedMsc
  bid := row.bid
  ask := row.ask
  volume := row.volume

def tickOf (symbol : String) (row : TickRow) : TickData where
  timestamp := row.timeMsc * 1000
  symbol := symbol
  bid := row.bid
  ask := row.ask
  timeMsc := row.timeMsc
  collectedMsc := row.collectedMsc
  volume := row.volume

theorem ticks_of_timed {rows : List ArchivedRow}
    (h : ∀ row ∈ rows, row.timeMsc.isSome = true) :
    rows.filterMap (toTick symbol) = rows.map (tickOf symbol ∘ tickRowOf) := by
  refine List.filterMap_eq_map_iff_forall_eq_some.mpr fun row hrow => ?_
  obtain ⟨timeMsc, htime⟩ := Option.isSome_iff_exists.mp (h row hrow)
  simp [toTick, tickOf, tickRowOf, htime]

end Ticks

section Agreement

variable {files : List ArchivedFile} {entries : List IndexEntry} {request : TickRequest}
  {symbol : String}

theorem length_filterMap_toTick {rows : List ArchivedRow}
    (h : ∀ row ∈ rows, row.timeMsc.isSome = true) :
    (rows.filterMap (toTick symbol)).length = rows.length := by
  refine List.filterMap_length_eq_length.mpr fun row hrow => ?_
  rw [toTick, Option.isSome_map]
  exact h row hrow

theorem isSome_of_isDue {row : ArchivedRow} (h : isDue request row = true) :
    row.timeMsc.isSome = true := by
  unfold isDue at h
  cases htime : row.timeMsc with
  | none =>
      rw [htime] at h
      cases h
  | some timeMsc => rfl

theorem covers_toTick {row : ArchivedRow} {tick : TickData} (h : toTick symbol row = some tick) :
    covers request tick.timestamp = isDue request row := by
  obtain ⟨timeMsc, htime, rfl⟩ := Option.map_eq_some_iff.mp h
  rw [isDue, htime]
  rfl

theorem ticks_due (rows : List ArchivedRow) :
    (rows.filterMap (toTick symbol)).filter (fun tick => covers request tick.timestamp) =
      (rows.filter (isDue request)).filterMap (toTick symbol) := by
  rw [List.filter_filterMap, List.filterMap_filter]
  refine List.filterMap_congr fun row _ => ?_
  cases htick : toTick symbol row with
  | none => rw [Option.filter_none, ite_self]
  | some tick => rw [Option.filter_some, covers_toTick htick]

theorem archivedTicks_due (files : List ArchivedFile) (symbol : String) (request : TickRequest) :
    ((archivedTicks symbol files).filter fun tick => covers request tick.timestamp).Perm
      ((dueRows (buildIndex files) request).filterMap (toTick symbol)) := by
  rw [archivedTicks, ticks_due, dueRows]
  exact (((rowsOf_buildIndex files).symm).filter _).filterMap _

theorem chronological_iff {rows : List ArchivedRow} (h : ∀ row ∈ rows, row.timeMsc.isSome = true) :
    Chronological (rows.filterMap (toTick symbol)) ↔ rows.Pairwise InOrder := by
  rw [Chronological, List.pairwise_filterMap]
  refine List.Pairwise.iff_of_mem fun {row later} hrow hlater => ?_
  obtain ⟨timeMsc, htime⟩ := Option.isSome_iff_exists.mp (h row hrow)
  obtain ⟨timeMsc', htime'⟩ := Option.isSome_iff_exists.mp (h later hlater)
  simp [toTick, InOrder, htime, htime']

theorem served_all_iff (entries : List IndexEntry) (request : TickRequest) (symbol : String) :
    ((∀ row ∈ servedRows entries request, row.timeMsc.isSome = true) ∧
      ((servedRows entries request).filterMap (toTick symbol)).Perm
        ((dueRows entries request).filterMap (toTick symbol))) ↔
    ∀ x ∈ taggedRows entries, isServed entries request x = isDue request x.2 := by
  have hperm : (servedRows entries request).Perm
      (((taggedRows entries).filter (isServed entries request)).map Prod.snd) := by
    rw [servedRows_eq]
    exact List.perm_insertionSort _ _
  have hdue : ∀ row ∈ dueRows entries request, row.timeMsc.isSome = true := fun row hrow =>
    isSome_of_isDue (List.mem_filter.mp hrow).2
  constructor
  · rintro ⟨htimed, hticks⟩
    refine agree_of_length_eq (fun x hx hserved => ?_) ?_
    · have hrow : x.2 ∈ servedRows entries request :=
        hperm.mem_iff.mpr (List.mem_map_of_mem (List.mem_filter.mpr ⟨hx, hserved⟩))
      obtain ⟨tick, htick⟩ := Option.isSome_iff_exists.mp
        (show (toTick symbol x.2).isSome = true by
          rw [toTick, Option.isSome_map]
          exact htimed x.2 hrow)
      have hmem := hticks.mem_iff.mp (List.mem_filterMap.mpr ⟨x.2, hrow, htick⟩)
      obtain ⟨row, hdueRow, hsame⟩ := List.mem_filterMap.mp hmem
      rw [← covers_toTick htick, covers_toTick hsame]
      exact (List.mem_filter.mp hdueRow).2
    · have hlength := hticks.length_eq
      rw [length_filterMap_toTick htimed, length_filterMap_toTick hdue, hperm.length_eq, dueRows_eq,
        List.length_map, List.length_map] at hlength
      exact hlength
  · intro hagree
    have hrows : (servedRows entries request).Perm (dueRows entries request) := by
      rw [dueRows_eq, ← List.filter_congr hagree]
      exact hperm
    exact ⟨fun row hrow => hdue row (hrows.mem_iff.mp hrow), hrows.filterMap _⟩

theorem served_inOrder_iff
    (hagree : ∀ x ∈ taggedRows entries, isServed entries request x = isDue request x.2) :
    (servedRows entries request).Pairwise InOrder ↔
      (∀ row ∈ dueRows entries request, ∀ later ∈ dueRows entries request,
        sortKey row < sortKey later → InOrder row later) ∧
      (dueRows entries request).Pairwise fun row later =>
        sortKey row = sortKey later → InOrder row later := by
  rw [servedRows_eq, List.filter_congr hagree, ← dueRows_eq, sortRows]
  exact pairwise_sortedBy_iff sortKey _

theorem inOrder_of_tie {row later : ArchivedRow} (hkey : sortKey row = sortKey later) :
    InOrder row later ↔ row.collectedMsc ≤ later.collectedMsc := by
  refine ⟨fun h => h.2, fun h => ⟨fun timeMsc htime timeMsc' htime' => ?_, h⟩⟩
  rw [Option.mem_def] at htime htime'
  have htimes : (timeMsc : WithTop ℤ) = timeMsc' := by
    have hsecond := congrArg Prod.snd (toLex.injective hkey)
    rwa [htime, htime'] at hsecond
  exact (WithTop.coe_injective htimes).le

theorem clocksAgree_iff (hsound : ∀ file ∈ files, Sound file)
    (hordering : validateArchiveOrdering (buildIndex files) = []) (request : TickRequest) :
    ClocksAgree (buildIndex files) request ↔
      ((∃ entry ∈ buildIndex files, isRead (buildIndex files) request entry = true) →
        ∃ entry ∈ buildIndex files, isRead (buildIndex files) request entry = true ∧
          entry.file.hasTimeMsc = true) ∧
      (∀ x ∈ taggedRows (buildIndex files),
        isServed (buildIndex files) request x = isDue request x.2) ∧
      (servedRows (buildIndex files) request).Pairwise InOrder := by
  have hsides : (∀ x ∈ taggedRows (buildIndex files),
      isServed (buildIndex files) request x = isDue request x.2) ↔
      ∀ entry ∈ buildIndex files, ∀ row ∈ entry.file.rows,
        isRead (buildIndex files) request entry = true ∧ covers request row.timestamp = true ↔
          isDue request row = true := by
    constructor
    · intro hagree entry hentry row hrow
      rw [← hagree (entry, row) (mem_taggedRows.mpr ⟨hentry, hrow⟩), isServed, Bool.and_eq_true,
        and_comm]
    · intro hagree x hx
      obtain ⟨hentry, hrow⟩ := mem_taggedRows.mp hx
      rw [Bool.eq_iff_iff, ← hagree x.1 hentry x.2 hrow, isServed, Bool.and_eq_true, and_comm]
  constructor
  · rintro ⟨hreadable, hagree, horder, hties⟩
    refine ⟨hreadable, hsides.mpr hagree, (served_inOrder_iff (hsides.mpr hagree)).mpr ⟨horder, ?_⟩⟩
    by_cases huntimed : ∃ entry ∈ buildIndex files, entry.file.hasTimeMsc = false
    · refine (hties huntimed).imp ?_
      intro row later harrival hkey
      exact (inOrder_of_tie hkey).mpr (harrival hkey)
    · have htimed : ∀ entry ∈ buildIndex files, entry.file.hasTimeMsc = true :=
        fun entry hentry => by_contra fun hnot =>
          huntimed ⟨entry, hentry, Bool.eq_false_iff.mpr hnot⟩
      refine ((rows_arrive hsound htimed hordering).sublist List.filter_sublist).imp ?_
      intro row later harrival hkey
      exact (inOrder_of_tie hkey).mpr harrival
  · rintro ⟨hreadable, hagree, hserved⟩
    obtain ⟨horder, hties⟩ := (served_inOrder_iff hagree).mp hserved
    refine ⟨hreadable, hsides.mp hagree, horder, fun _ => hties.imp fun hinOrder hkey => ?_⟩
    exact (inOrder_of_tie hkey).mp (hinOrder hkey)

theorem servedRows_of_cover {startTime endTime : Instant} (hcover : ∀ file ∈ files,
    ∀ row ∈ file.rows, startTime ≤ row.timestamp ∧ row.timestamp ≤ endTime) :
    servedRows (buildIndex files) (.timespan startTime endTime) =
      sortRows (rowsOf (buildIndex files)) := by
  have hread : relevantFiles (buildIndex files) (.timespan startTime endTime) =
      buildIndex files := by
    refine List.filter_eq_self.mpr fun entry hentry => ?_
    obtain ⟨file, hfile, hscan⟩ := mem_buildIndex.mp hentry
    obtain ⟨⟨first, hfirst, hstart⟩, last, hlast, hend⟩ := scanFile_bounds hscan
    rw [IndexEntry.isRelevant, ← hstart, ← hend]
    exact Bool.and_eq_true_iff.mpr
      ⟨decide_eq_true (hcover file hfile first hfirst).2,
        decide_eq_true (hcover file hfile last hlast).1⟩
  rw [servedRows, hread]
  refine List.filter_eq_self.mpr fun row hrow => ?_
  have hindexed := (rowsOf_buildIndex files).mem_iff.mp ((List.mem_insertionSort _).mp hrow)
  obtain ⟨file, hfile, hmem⟩ := List.mem_flatMap.mp hindexed
  exact Bool.and_eq_true_iff.mpr
    ⟨decide_eq_true (hcover file hfile row hmem).1, decide_eq_true (hcover file hfile row hmem).2⟩

end Agreement

section Results

variable {files : List ArchivedFile}

theorem delivers_timespan_iff (hsound : ∀ file ∈ files, Sound file)
    (hordering : validateArchiveOrdering (buildIndex files) = []) (symbol : String)
    (startTime endTime : Instant) :
    Delivers files symbol (.timespan startTime endTime) ↔
      ClocksAgree (buildIndex files) (.timespan startTime endTime) := by
  have hwindow := archivedTicks_due files symbol (.timespan startTime endTime)
  rw [clocksAgree_iff hsound hordering]
  constructor
  · rintro ⟨ticks, hstream, hchronological, hperm⟩
    obtain ⟨hreadable, htimed, rfl⟩ := prepareStream_iff.mp hstream
    refine ⟨hreadable, (served_all_iff _ _ symbol).mp ⟨htimed, hperm.trans hwindow⟩, ?_⟩
    exact (chronological_iff htimed).mp hchronological
  · rintro ⟨hreadable, hagree, hserved⟩
    obtain ⟨htimed, hperm⟩ := (served_all_iff _ _ symbol).mpr hagree
    exact ⟨_, prepareStream_iff.mpr ⟨hreadable, htimed, rfl⟩, (chronological_iff htimed).mpr hserved,
      hperm.trans hwindow.symm⟩

theorem delivers_maxTicks_iff (hsound : ∀ file ∈ files, Sound file)
    (hordering : validateArchiveOrdering (buildIndex files) = []) (symbol : String)
    (startTime : Instant) :
    (∀ count, Delivers files symbol (.maxTicks startTime count)) ↔
      ∀ count, ClocksAgree (buildIndex files) (.maxTicks startTime count) := by
  have hwindow : ∀ count, ((archivedTicks symbol files).filter fun tick =>
      decide (startTime ≤ tick.timestamp)).Perm
      ((dueRows (buildIndex files) (.maxTicks startTime count)).filterMap (toTick symbol)) := by
    intro count
    refine Eq.subst (motive := fun ticks => List.Perm ticks _) ?_
      (archivedTicks_due files symbol (.maxTicks startTime count))
    exact List.filter_congr fun tick _ => Bool.and_true _
  constructor
  · intro hdelivers count
    rw [clocksAgree_iff hsound hordering]
    -- as many ticks as there are rows leave none behind
    let all := (servedRows (buildIndex files) (.maxTicks startTime count)).length +
      ((archivedTicks symbol files).filter fun tick => decide (startTime ≤ tick.timestamp)).length
    obtain ⟨ticks, rest, hstream, hchronological, hperm, hlength, -⟩ := hdelivers all
    obtain ⟨hreadable, htimed, rfl⟩ := prepareStream_iff.mp hstream
    have hcut : cut (.maxTicks startTime all) (servedRows (buildIndex files)
        (.maxTicks startTime all)) = servedRows (buildIndex files) (.maxTicks startTime count) :=
      List.take_of_length_le (Nat.le_add_right _ _)
    rw [hcut] at htimed hchronological hperm hlength
    have hrest : rest = [] := by
      have hsum := hperm.length_eq
      rw [List.length_append] at hsum hlength
      refine List.eq_nil_of_length_eq_zero ?_
      omega
    rw [hrest, List.append_nil] at hperm
    refine ⟨hreadable, (served_all_iff _ _ symbol).mp ⟨htimed, hperm.trans (hwindow count)⟩, ?_⟩
    exact (chronological_iff htimed).mp hchronological
  · intro hagree count
    obtain ⟨hreadable, hrows, hserved⟩ := (clocksAgree_iff hsound hordering _).mp (hagree count)
    obtain ⟨htimed, hperm⟩ := (served_all_iff _ _ symbol).mpr hrows
    have hsplit := List.take_append_drop count
      (servedRows (buildIndex files) (.maxTicks startTime count))
    have hticks : ((servedRows (buildIndex files) (.maxTicks startTime count)).take
        count).filterMap (toTick symbol) ++
        ((servedRows (buildIndex files) (.maxTicks startTime count)).drop count).filterMap
          (toTick symbol) =
        (servedRows (buildIndex files) (.maxTicks startTime count)).filterMap (toTick symbol) := by
      rw [← List.filterMap_append, hsplit]
    have htaken : ∀ row ∈ (servedRows (buildIndex files) (.maxTicks startTime count)).take count,
        row.timeMsc.isSome = true := fun row hrow => htimed row (List.mem_of_mem_take hrow)
    have hchronological : Chronological (List.filterMap (toTick symbol) _) :=
      (chronological_iff htimed).mpr hserved
    rw [← hticks, Chronological, List.pairwise_append] at hchronological
    refine ⟨_, ((servedRows (buildIndex files) (.maxTicks startTime count)).drop count).filterMap
      (toTick symbol), prepareStream_iff.mpr ⟨hreadable, htaken, rfl⟩, hchronological.1, ?_, ?_, ?_⟩
    · exact (hticks ▸ hperm).trans (hwindow count).symm
    · have hlength := congrArg List.length hticks
      rw [length_filterMap_toTick htimed] at hlength
      refine (length_filterMap_toTick htaken).trans ?_
      rw [List.length_take, ← hlength]
      rfl
    · exact fun tick htick later hlater => (hchronological.2.2 tick htick later hlater).1

/-- Prepared from validated files, the stream of a timespan is as asked for exactly if the
clocks of its rows agree, and those of a number of ticks from a start are for every number
exactly if the clocks of the rows from the start agree. -/
theorem prepared_stream_iff {files : List ArchivedFile}
    (hvalid : ∀ file ∈ files, (validateFile file).errors = [])
    (hordering : validateArchiveOrdering (buildIndex files) = []) (symbol : String)
    (startTime : Instant) :
    (∀ endTime, Delivers files symbol (.timespan startTime endTime) ↔
      ClocksAgree (buildIndex files) (.timespan startTime endTime)) ∧
    ((∀ count, Delivers files symbol (.maxTicks startTime count)) ↔
      ∀ count, ClocksAgree (buildIndex files) (.maxTicks startTime count)) :=
  have hsound : ∀ file ∈ files, Sound file := fun file hfile => sound_of_valid (hvalid file hfile)
  ⟨fun endTime => delivers_timespan_iff hsound hordering symbol startTime endTime,
    delivers_maxTicks_iff hsound hordering symbol startTime⟩

/-- A row whose timestamp is cut to the second, as collectors write it. -/
def rowAtMsc (timeMsc : ℤ) (price : ℚ) : ArchivedRow where
  timestamp := timeMsc / 1000 * 1000000
  timeMsc := some timeMsc
  collectedMsc := timeMsc + 7
  bid := price - 1
  ask := price + 1

def fileOfRows (rows : List ArchivedRow) (h : ∀ row ∈ rows, row.timeMsc.isSome = true) :
    ArchivedFile where
  rows := rows
  uniform := h

def burstFile : ArchivedFile :=
  fileOfRows [rowAtMsc 1000 100, rowAtMsc 10000 101, rowAtMsc 10500 102] (by decide)

instance (files : List ArchivedFile) : Decidable (∀ file ∈ files, (validateFile file).errors = []) :=
  inferInstanceAs (Decidable (∀ _ ∈ _, _ = _))

theorem prepared_stream_iff_seconds :
    ∃ ticks, prepareStream (buildIndex [burstFile]) "BTCUSD" (.timespan 0 11000000) = .ok ticks ∧
      Chronological ticks ∧
      ticks.Perm ((archivedTicks "BTCUSD" [burstFile]).filter fun tick =>
        decide (0 ≤ tick.timestamp) && decide (tick.timestamp ≤ 11000000)) :=
  have hvalid : ∀ file ∈ [burstFile], (validateFile file).errors = [] := by decide +kernel
  ((prepared_stream_iff hvalid (by decide +kernel) "BTCUSD" 0).1 11000000).mpr (by decide +kernel)

/-- Two ticks in one second, the first of which carries the next second as its timestamp. -/
def roundedFile : ArchivedFile :=
  fileOfRows [{ rowAtMsc 10600 100 with timestamp := 11000000 }, rowAtMsc 10700 101] (by decide)

/-- Up to the tenth second, the ticks after it are served too; and a timestamp of the next
second puts a tick behind a later one. -/
theorem seconds_misplace_ticks :
    ((∀ file ∈ [burstFile], (validateFile file).errors = []) ∧
      validateArchiveOrdering (buildIndex [burstFile]) = [] ∧
      ¬Delivers [burstFile] "BTCUSD" (.timespan 0 10000000)) ∧
    ((∀ file ∈ [roundedFile], (validateFile file).errors = []) ∧
      validateArchiveOrdering (buildIndex [roundedFile]) = [] ∧
      ¬Delivers [roundedFile] "BTCUSD" (.timespan 0 20000000)) := by
  have hburst : ∀ file ∈ [burstFile], (validateFile file).errors = [] := by decide +kernel
  have hrounded : ∀ file ∈ [roundedFile], (validateFile file).errors = [] := by decide +kernel
  refine ⟨⟨hburst, by decide +kernel, fun hdelivers => ?_⟩, hrounded, by decide +kernel,
    fun hdelivers => ?_⟩
  · have hagree := (delivers_timespan_iff (fun file hfile => sound_of_valid (hburst file hfile))
      (by decide +kernel) _ _ _).mp hdelivers
    exact absurd hagree (by decide +kernel)
  · have hagree := (delivers_timespan_iff (fun file hfile => sound_of_valid (hrounded file hfile))
      (by decide +kernel) _ _ _).mp hdelivers
    exact absurd hagree (by decide +kernel)

end Results

end Finiex.PreparedStream
