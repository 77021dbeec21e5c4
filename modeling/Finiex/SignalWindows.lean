import Finiex.SignalLoading
import Finiex.SignalRoundTrip
import Finiex.Lib.Selections

namespace Finiex.SignalWindows

open Finiex.Types
open Finiex.Lib
open Finiex.Signals
open Finiex.SignalLoading
open Finiex.SignalRoundTrip

section Cuts

variable {keep : SignalSnapshot → Bool} {snapshots : List SignalSnapshot} {t : Instant}

theorem entries_filter (keep : SignalSnapshot → Bool) (ordered : List SignalSnapshot) :
    entries (ordered.filter keep) = (entries ordered).filter fun entry => keep entry.2 := by
  rw [entries, entries, List.filter_map]
  rfl

theorem streamOrder_filter (keep : SignalSnapshot → Bool) (snapshots : List SignalSnapshot) :
    streamOrder (snapshots.filter keep) = (streamOrder snapshots).filter keep :=
  insertionSort_filter _ keep snapshots

def stream (snapshots : List SignalSnapshot) : List (Instant × SignalSnapshot) :=
  entries (streamOrder snapshots)

theorem stream_filter (keep : SignalSnapshot → Bool) (snapshots : List SignalSnapshot) :
    stream (snapshots.filter keep) = (stream snapshots).filter fun entry => keep entry.2 := by
  rw [stream, streamOrder_filter, entries_filter]
  rfl

theorem map_snd_stream (snapshots : List SignalSnapshot) :
    (stream snapshots).map Prod.snd = streamOrder snapshots := by
  rw [stream, entries, List.map_map]
  exact List.map_id _

theorem mem_of_current {snapshot : SignalSnapshot}
    (h : Timeline.current (stream snapshots) t = some snapshot) : snapshot ∈ snapshots := by
  have hmem := Timeline.mem_of_current h
  rw [map_snd_stream] at hmem
  exact (List.mem_insertionSort _).mp hmem

/-- With distinct stamps of receipt a lookup tells the snapshot it resolves to. -/
theorem nearest_eq_iff (symbol : String) {series series' : SignalSeries}
    (hsubset : series'.snapshots ⊆ series.snapshots)
    (hstamps : (series.snapshots.map SignalSnapshot.collectedMsc).Nodup) :
    (SignalDataProvider.ofSeries series').nearest t symbol =
        (SignalDataProvider.ofSeries series).nearest t symbol ↔
      Timeline.current (stream series'.snapshots) t =
        Timeline.current (stream series.snapshots) t := by
  rw [nearest_eq, nearest_eq]
  refine ⟨fun heq => ?_, fun heq => congrArg (Option.map (resolved symbol)) heq⟩
  change (Timeline.current (stream series'.snapshots) t).map _ =
    (Timeline.current (stream series.snapshots) t).map _ at heq
  cases hwhole : Timeline.current (stream series.snapshots) t with
  | none =>
      rw [hwhole, Option.map_none, Option.map_eq_none_iff] at heq
      exact heq
  | some snapshot =>
      rw [hwhole, Option.map_some, Option.map_eq_some_iff] at heq
      obtain ⟨snapshot', hcut, hsame⟩ := heq
      have hstamp : snapshot'.collectedMsc = snapshot.collectedMsc :=
        congrArg ResolvedSignal.collectedMsc hsame
      rw [hcut, List.inj_on_of_nodup_map hstamps (hsubset (mem_of_current hcut))
        (mem_of_current hwhole) hstamp]

end Cuts

section Trim

variable {snapshots : List SignalSnapshot} {snapshot : SignalSnapshot} {start : Instant}

theorem mem_drop_iff
    (hascending : snapshots.Pairwise fun a b => a.collectedMsc < b.collectedMsc) :
    snapshot ∈ snapshots.drop
        ((snapshots.takeWhile fun other => other.collectedMsc ≤ start).length - 1) ↔
      snapshot ∈ snapshots ∧ ∀ other ∈ snapshots, other.collectedMsc ≤ start →
        other.collectedMsc ≤ snapshot.collectedMsc := by
  induction snapshots with
  | nil => simp
  | cons first snapshots ih =>
      obtain ⟨hfirst, hrest⟩ := List.pairwise_cons.mp hascending
      by_cases hle : first.collectedMsc ≤ start
      · rw [List.takeWhile_cons_of_pos (by simpa using hle), List.length_cons,
          Nat.add_sub_cancel]
        cases hreached : snapshots.takeWhile fun other => other.collectedMsc ≤ start with
        | nil =>
            have hlater : ∀ other ∈ snapshots, start < other.collectedMsc := by
              cases snapshots with
              | nil => simp
              | cons second snapshots =>
                  have hsecond : start < second.collectedMsc := by
                    by_contra hnot
                    rw [List.takeWhile_cons_of_pos (by simpa using not_lt.mp hnot)] at hreached
                    cases hreached
                  rintro other hother
                  rcases List.mem_cons.mp hother with rfl | hother
                  · exact hsecond
                  · exact hsecond.trans ((List.pairwise_cons.mp hrest).1 other hother)
            refine ⟨fun hmem => ⟨hmem, fun other hother hcome => ?_⟩, fun h => h.1⟩
            rcases List.mem_cons.mp hother with rfl | hother
            · rcases List.mem_cons.mp hmem with rfl | hmem
              · exact le_rfl
              · exact (hfirst snapshot hmem).le
            · exact absurd hcome (not_le.mpr (hlater other hother))
        | cons second reached =>
            have hsecond : second ∈ snapshots ∧ second.collectedMsc ≤ start := by
              have hmem : second ∈ snapshots.takeWhile fun other => other.collectedMsc ≤ start :=
                hreached ▸ List.mem_cons_self
              refine ⟨(List.takeWhile_prefix _).subset hmem, ?_⟩
              simpa using List.all_eq_true.mp List.all_takeWhile second hmem
            have hlength : (second :: reached).length = (second :: reached).length - 1 + 1 := rfl
            rw [hlength, List.drop_succ_cons, ← hreached, ih hrest]
            constructor
            · rintro ⟨hmem, hlast⟩
              refine ⟨List.mem_cons_of_mem _ hmem, fun other hother hcome => ?_⟩
              rcases List.mem_cons.mp hother with rfl | hother
              · exact (hfirst snapshot hmem).le
              · exact hlast other hother hcome
            · rintro ⟨hmem, hlast⟩
              refine ⟨?_, fun other hother => hlast other (List.mem_cons_of_mem _ hother)⟩
              apply (List.mem_cons.mp hmem).resolve_left
              rintro rfl
              exact absurd (hlast second (List.mem_cons_of_mem _ hsecond.1) hsecond.2)
                (not_le.mpr (hfirst second hsecond.1))
      · rw [List.takeWhile_cons_of_neg (by simpa using hle)]
        refine ⟨fun hmem => ⟨hmem, fun other hother hcome => ?_⟩, fun h => h.1⟩
        rcases List.mem_cons.mp hother with rfl | hother
        · exact absurd hcome hle
        · exact absurd ((hfirst other hother).le.trans hcome) hle

theorem mem_trimRange {stop : Instant} (hrange : start ≤ stop)
    (hascending : snapshots.Pairwise fun a b => a.collectedMsc < b.collectedMsc) :
    snapshot ∈ trimRange (some start) (some stop) snapshots ↔
      snapshot ∈ snapshots ∧ snapshot.collectedMsc ≤ stop ∧
        ∀ other ∈ snapshots, other.collectedMsc ≤ start →
          other.collectedMsc ≤ snapshot.collectedMsc := by
  rw [trimRange, mem_drop_iff (hascending.filter _), List.mem_filter, decide_eq_true_eq, and_assoc]
  refine and_congr_right fun _ => and_congr_right fun _ => ⟨fun h other hother hcome => ?_,
    fun h other hother => h other (List.mem_of_mem_filter hother)⟩
  exact h other (List.mem_filter.mpr ⟨hother, decide_eq_true (hcome.trans hrange)⟩) hcome

theorem trimRange_sublist (start stop : Option Instant) (snapshots : List SignalSnapshot) :
    (trimRange start stop snapshots).Sublist snapshots := by
  unfold trimRange
  cases stop <;> cases start
  · exact List.Sublist.refl _
  · exact List.drop_sublist _ _
  · exact List.filter_sublist
  · exact (List.drop_sublist _ _).trans List.filter_sublist

end Trim

section Stored

def symbolRows (symbol : String) (files : List SignalFile) : List ParquetRow :=
  (files.map SignalFile.rows).flatten.filter fun row => row.symbol ∈ [symbol, signalEnvelopeSymbol]

def readAt (symbol : String) (files : List SignalFile) (msc : ℤ) : Option SignalSnapshot :=
  ((byMsc symbol (symbolRows symbol files)).get? msc).map (snapshotOfRow symbol)

def storedSnapshots (symbol : String) (files : List SignalFile) : List SignalSnapshot :=
  ((byMsc symbol (symbolRows symbol files)).keys.insertionSort (· ≤ ·)).filterMap
    (readAt symbol files)

theorem loadSignalSeriesFromParquet_eq (files : List SignalFile) (signalKind symbol : String)
    (start stop : Option Instant) :
    loadSignalSeriesFromParquet (files.map SignalFile.rows) signalKind symbol start stop =
      { signalKind := signalKind
        snapshots := trimRange start stop (storedSnapshots symbol files) } := rfl

variable {symbol : String} {files : List SignalFile} {msc : ℤ} {snapshot : SignalSnapshot}

theorem ofEpochMs_le {msc other : ℤ} : ofEpochMs msc ≤ ofEpochMs other ↔ msc ≤ other := by
  rw [ofEpochMs, ofEpochMs]
  exact Int.mul_le_mul_right (by decide)

theorem ofEpochMs_lt {msc other : ℤ} : ofEpochMs msc < ofEpochMs other ↔ msc < other := by
  rw [ofEpochMs, ofEpochMs]
  exact Int.mul_lt_mul_right (by decide)

theorem collectedMsc_of_get? {rows : List ParquetRow} {row : ParquetRow}
    (h : (byMsc symbol rows).get? msc = some row) : row.collectedMsc = msc := by
  rw [get?_byMsc, foldl_winner] at h
  have hmem : row ∈ rows.filter fun row => row.collectedMsc = msc := by
    rcases Option.or_eq_some_iff.mp h with hlast | ⟨-, hlast⟩
    · exact List.mem_of_mem_filter (List.mem_of_getLast? hlast)
    · exact List.mem_of_getLast? hlast
  simpa using (List.mem_filter.mp hmem).2

theorem collectedMsc_of_readAt (h : readAt symbol files msc = some snapshot) :
    snapshot.collectedMsc = ofEpochMs msc := by
  obtain ⟨row, hrow, rfl⟩ := Option.map_eq_some_iff.mp h
  rw [← collectedMsc_of_get? hrow]
  rfl

theorem mem_storedSnapshots :
    snapshot ∈ storedSnapshots symbol files ↔ ∃ msc, readAt symbol files msc = some snapshot := by
  rw [storedSnapshots, List.mem_filterMap]
  constructor
  · rintro ⟨msc, -, hread⟩
    exact ⟨msc, hread⟩
  · rintro ⟨msc, hread⟩
    refine ⟨msc, (List.mem_insertionSort _).mpr ?_, hread⟩
    by_contra hnone
    rw [readAt, (Dict.get?_eq_none_iff _).mpr hnone] at hread
    cases hread

theorem storedSnapshots_ascending (symbol : String) (files : List SignalFile) :
    (storedSnapshots symbol files).Pairwise fun a b => a.collectedMsc < b.collectedMsc := by
  have hnodup : ((byMsc symbol (symbolRows symbol files)).keys.insertionSort (· ≤ ·)).Nodup :=
    (List.perm_insertionSort _ _).nodup_iff.mpr (byMsc symbol (symbolRows symbol files)).nodup
  have hsorted := (List.pairwise_insertionSort (· ≤ ·)
    (byMsc symbol (symbolRows symbol files)).keys).and hnodup
  rw [storedSnapshots, List.pairwise_filterMap]
  refine hsorted.imp fun hlt a ha b hb => ?_
  rw [collectedMsc_of_readAt ha, collectedMsc_of_readAt hb, ofEpochMs_lt]
  exact lt_of_le_of_ne hlt.1 hlt.2

theorem nodup_collectedMsc (symbol : String) (files : List SignalFile) :
    ((storedSnapshots symbol files).map SignalSnapshot.collectedMsc).Nodup := by
  apply List.pairwise_map.mpr
  exact (storedSnapshots_ascending symbol files).imp fun hlt => hlt.ne

def receiveStamps (symbol : String) (files : List SignalFile) : List Instant :=
  (symbolRows symbol files).map fun row => ofEpochMs row.collectedMsc

theorem mem_receiveStamps :
    ofEpochMs msc ∈ receiveStamps symbol files ↔
      ∃ snapshot, readAt symbol files msc = some snapshot := by
  rw [receiveStamps, List.mem_map]
  have hrow : (∃ row ∈ symbolRows symbol files, ofEpochMs row.collectedMsc = ofEpochMs msc) ↔
      ∃ row ∈ symbolRows symbol files, row.collectedMsc = msc := by
    refine exists_congr fun row => and_congr_right fun _ => ?_
    rw [le_antisymm_iff, le_antisymm_iff, ofEpochMs_le, ofEpochMs_le]
  rw [hrow, ← mem_keys_byMsc, ← Option.isSome_iff_exists, readAt, Option.isSome_map,
    ← not_iff_not, ← Dict.get?_eq_none_iff, Option.not_isSome_iff_eq_none]

theorem collectedMsc_mem_receiveStamps (h : snapshot ∈ storedSnapshots symbol files) :
    snapshot.collectedMsc ∈ receiveStamps symbol files := by
  obtain ⟨msc, hread⟩ := mem_storedSnapshots.mp h
  rw [collectedMsc_of_readAt hread]
  exact mem_receiveStamps.mpr ⟨snapshot, hread⟩

theorem exists_of_mem_receiveStamps {stamp : Instant} (h : stamp ∈ receiveStamps symbol files) :
    ∃ snapshot ∈ storedSnapshots symbol files, snapshot.collectedMsc = stamp := by
  obtain ⟨row, -, rfl⟩ := List.mem_map.mp h
  obtain ⟨snapshot, hread⟩ := mem_receiveStamps.mp h
  exact ⟨snapshot, mem_storedSnapshots.mpr ⟨_, hread⟩, collectedMsc_of_readAt hread⟩

end Stored

section Chosen

variable {symbol : String} {files : List SignalFile} {msc : ℤ} {start stop : Instant}

theorem flatMap_filter_of_nil {α β : Type} {f : α → List β} {p : α → Bool} {xs : List α}
    (h : ∀ x, p x = false → f x = []) : (xs.filter p).flatMap f = xs.flatMap f := by
  induction xs with
  | nil => rfl
  | cons x xs ih =>
      cases hp : p x with
      | true => rw [List.filter_cons_of_pos hp, List.flatMap_cons, List.flatMap_cons, ih]
      | false =>
          rw [List.filter_cons_of_neg (by simp [hp]), List.flatMap_cons, h x hp, ih]
          rfl

def rowsAt (symbol : String) (msc : ℤ) (file : SignalFile) : List ParquetRow :=
  (file.rows.filter fun row => row.symbol ∈ [symbol, signalEnvelopeSymbol]).filter fun row =>
    row.collectedMsc = msc

theorem get?_symbolRows (symbol : String) (files : List SignalFile) (msc : ℤ) :
    (byMsc symbol (symbolRows symbol files)).get? msc =
      (files.flatMap (rowsAt symbol msc)).foldl (winner symbol) none := by
  rw [get?_byMsc, symbolRows, ← List.flatMap_def, List.filter_flatMap, List.filter_flatMap]
  rfl

theorem startTime_le {file : SignalFile} {row : ParquetRow} (hrow : row ∈ file.rows) :
    file.startTime ≤ ofEpochMs row.collectedMsc ∧ ofEpochMs row.collectedMsc ≤ file.endTime := by
  have hmem : row.collectedMsc ∈ file.rows.map ParquetRow.collectedMsc := List.mem_map_of_mem hrow
  rw [SignalFile.startTime, SignalFile.endTime, ofEpochMs_le, ofEpochMs_le]
  cases hmin : (file.rows.map ParquetRow.collectedMsc).min? with
  | none =>
      rw [List.min?_eq_none_iff.mp hmin] at hmem
      cases hmem
  | some first =>
      cases hmax : (file.rows.map ParquetRow.collectedMsc).max? with
      | none =>
          rw [List.max?_eq_none_iff.mp hmax] at hmem
          cases hmem
      | some last =>
          exact ⟨(List.min?_eq_some_iff.mp hmin).2 _ hmem, (List.max?_eq_some_iff.mp hmax).2 _ hmem⟩

theorem rowsAt_of_not_overlaps (hstart : start ≤ ofEpochMs msc) (hstop : ofEpochMs msc ≤ stop)
    {file : SignalFile} (hnot : file.overlaps start stop = false) : rowsAt symbol msc file = [] := by
  refine List.filter_eq_nil_iff.mpr fun row hrow hmsc => ?_
  obtain ⟨hfirst, hlast⟩ := startTime_le (List.mem_of_mem_filter hrow)
  rw [of_decide_eq_true hmsc] at hfirst hlast
  rw [SignalFile.overlaps, Bool.and_eq_false_iff, decide_eq_false_iff_not,
    decide_eq_false_iff_not] at hnot
  exact hnot.elim (absurd (hfirst.trans hstop)) (absurd (hstart.trans hlast))

theorem readAt_getRelevantFiles (hstart : start ≤ ofEpochMs msc) (hstop : ofEpochMs msc ≤ stop) :
    readAt symbol (getRelevantFiles files start stop) msc = readAt symbol files msc := by
  have hnone : ∀ file : SignalFile, file.overlaps start stop = false →
      rowsAt symbol msc file = [] := fun _ => rowsAt_of_not_overlaps hstart hstop
  have hrows : (getRelevantFiles files start stop).flatMap (rowsAt symbol msc) =
      files.flatMap (rowsAt symbol msc) := by
    unfold getRelevantFiles
    dsimp only
    split
    · exact flatMap_filter_of_nil hnone
    · rw [List.flatMap_append, flatMap_filter_of_nil hnone]
      cases hlast : (files.filter fun file => !file.overlaps start stop &&
          decide (file.endTime < start)).getLast? with
      | none => rfl
      | some file =>
          have hmem := (List.mem_filter.mp (List.mem_of_getLast? hlast)).2
          rw [Bool.and_eq_true, Bool.not_eq_true'] at hmem
          rw [Option.toList_some, List.flatMap_singleton, hnone file hmem.1, List.nil_append]
  rw [readAt, readAt, get?_symbolRows, get?_symbolRows, hrows]

end Chosen

section Windows

variable {symbol : String} {files : List SignalFile} {start stop t : Instant}

/-- A snapshot is loaded for a window: it was received in the window, or as the last before it of
those in the chosen files. -/
def isLoaded (symbol : String) (chosen : List SignalFile) (start stop : Instant)
    (snapshot : SignalSnapshot) : Bool :=
  decide (snapshot.collectedMsc ∈ receiveStamps symbol chosen) &&
    decide (snapshot.collectedMsc ≤ stop) &&
      (receiveStamps symbol chosen).all fun other =>
        decide (other ≤ snapshot.collectedMsc) || decide (start < other)

/-- The last stamp before the start is read from the chosen files as from all. -/
def CarriedAlike (symbol : String) (chosen files : List SignalFile) (start : Instant) : Prop :=
  ∀ msc, ofEpochMs msc < start → ofEpochMs msc ∈ receiveStamps symbol chosen →
    (∀ other ∈ receiveStamps symbol chosen, other ≤ ofEpochMs msc ∨ start < other) →
      readAt symbol chosen msc = readAt symbol files msc

theorem isLoaded_iff {chosen : List SignalFile} {snapshot : SignalSnapshot} :
    isLoaded symbol chosen start stop snapshot = true ↔
      snapshot.collectedMsc ∈ receiveStamps symbol chosen ∧ snapshot.collectedMsc ≤ stop ∧
        ∀ other ∈ receiveStamps symbol chosen, other ≤ snapshot.collectedMsc ∨ start < other := by
  simp [isLoaded, and_assoc]

theorem trimRange_storedSnapshots (hrange : start ≤ stop)
    (halike : CarriedAlike symbol (getRelevantFiles files start stop) files start) :
    trimRange (some start) (some stop)
        (storedSnapshots symbol (getRelevantFiles files start stop)) =
      (storedSnapshots symbol files).filter
        (isLoaded symbol (getRelevantFiles files start stop) start stop) := by
  have hchosen := storedSnapshots_ascending symbol (getRelevantFiles files start stop)
  have hsame : ∀ {msc}, ofEpochMs msc ∈ receiveStamps symbol (getRelevantFiles files start stop) →
      ofEpochMs msc ≤ stop →
      (∀ other ∈ receiveStamps symbol (getRelevantFiles files start stop),
        other ≤ ofEpochMs msc ∨ start < other) →
      readAt symbol (getRelevantFiles files start stop) msc = readAt symbol files msc := by
    intro msc hmem hstop hlast
    rcases le_or_gt start (ofEpochMs msc) with hstart | hbefore
    · exact readAt_getRelevantFiles hstart hstop
    · exact halike msc hbefore hmem hlast
  refine (hchosen.sublist (trimRange_sublist _ _ _)).eq_of_mem_iff
    ((storedSnapshots_ascending symbol files).filter _) fun snapshot => ?_
  rw [mem_trimRange hrange hchosen, List.mem_filter, isLoaded_iff]
  constructor
  · rintro ⟨hmem, hstop, hlast⟩
    have hstamp := collectedMsc_mem_receiveStamps hmem
    have hlast' : ∀ other ∈ receiveStamps symbol (getRelevantFiles files start stop),
        other ≤ snapshot.collectedMsc ∨ start < other := by
      intro other hother
      obtain ⟨earlier, hearlier, rfl⟩ := exists_of_mem_receiveStamps hother
      rcases le_or_gt earlier.collectedMsc start with hcome | hlater
      · exact Or.inl (hlast earlier hearlier hcome)
      · exact Or.inr hlater
    obtain ⟨msc, hread⟩ := mem_storedSnapshots.mp hmem
    rw [collectedMsc_of_readAt hread] at hstamp hstop hlast' ⊢
    exact ⟨mem_storedSnapshots.mpr ⟨msc, hsame hstamp hstop hlast' ▸ hread⟩, hstamp, hstop,
      hlast'⟩
  · rintro ⟨hmem, hstamp, hstop, hlast⟩
    obtain ⟨msc, hread⟩ := mem_storedSnapshots.mp hmem
    rw [collectedMsc_of_readAt hread] at hstamp hstop hlast ⊢
    refine ⟨mem_storedSnapshots.mpr ⟨msc, (hsame hstamp hstop hlast).trans hread⟩, hstop,
      fun other hother hcome => ?_⟩
    exact (hlast _ (collectedMsc_mem_receiveStamps hother)).resolve_right (not_lt.mpr hcome)

/-- At an instant the window shows what all files show: the snapshot then in force is loaded, and
none left out stands ahead of a loaded one that has come while it has not. -/
structure Covers (symbol : String) (chosen files : List SignalFile) (start stop t : Instant) :
    Prop where
  inForce : ∀ snapshot ∈ Timeline.current (stream (storedSnapshots symbol files)) t,
    isLoaded symbol chosen start stop snapshot = true
  unobstructed : ¬Timeline.HoldsBack (isLoaded symbol chosen start stop)
    (stream (storedSnapshots symbol files)) t

def windowSeries (archive : SignalArchive) (source symbol signalKind : String)
    (start stop : Instant) : SignalSeries :=
  loadSignalSeriesFromParquet
    ((getRelevantFiles (archive.index source symbol) start stop).map SignalFile.rows) signalKind
    symbol (some start) (some stop)

def wholeSeries (archive : SignalArchive) (source symbol signalKind : String) : SignalSeries :=
  loadSignalSeriesFromParquet ((archive.index source symbol).map SignalFile.rows) signalKind symbol
    none none

/-- A lookup in the window is the lookup in all files exactly if the window covers the instant. -/
theorem nearest_window_iff (archive : SignalArchive) (source symbol signalKind : String)
    (hstart : start ≤ t) (hstop : t ≤ stop)
    (halike : CarriedAlike symbol (getRelevantFiles (archive.index source symbol) start stop)
      (archive.index source symbol) start) :
    (SignalDataProvider.ofSeries (windowSeries archive source symbol signalKind start stop)).nearest
        t symbol =
      (SignalDataProvider.ofSeries (wholeSeries archive source symbol signalKind)).nearest
        t symbol ↔
      Covers symbol (getRelevantFiles (archive.index source symbol) start stop)
        (archive.index source symbol) start stop t := by
  generalize hfiles : archive.index source symbol = files at halike ⊢
  have hwhole : (wholeSeries archive source symbol signalKind).snapshots =
      storedSnapshots symbol files := by
    rw [wholeSeries, hfiles, loadSignalSeriesFromParquet_eq]
    rfl
  have hwindow : (windowSeries archive source symbol signalKind start stop).snapshots =
      (storedSnapshots symbol files).filter
        (isLoaded symbol (getRelevantFiles files start stop) start stop) := by
    rw [windowSeries, hfiles, loadSignalSeriesFromParquet_eq]
    exact trimRange_storedSnapshots (hstart.trans hstop) halike
  have hdistinct : ((stream (storedSnapshots symbol files)).map Prod.snd).Nodup := by
    rw [map_snd_stream]
    exact (List.perm_insertionSort _ _).nodup_iff.mpr (nodup_collectedMsc symbol files).of_map
  rw [nearest_eq_iff symbol, hwindow, hwhole, stream_filter, Timeline.current_filter_eq_iff hdistinct]
  · exact ⟨fun h => ⟨h.1, h.2⟩, fun h => ⟨h.inForce, h.unobstructed⟩⟩
  · rw [hwindow, hwhole]
    exact List.filter_sublist.subset
  · rw [hwhole]
    exact nodup_collectedMsc symbol files

def numberedRow (seq collectedMsc availableMsc : ℤ) : ParquetRow where
  collectedMsc := collectedMsc
  symbol := signalEnvelopeSymbol
  status := "success"
  schemaVersion := "2.0"
  pipelineId := "sentiment"
  seq := some seq
  streamEpoch := some 1
  availableMsc := some availableMsc
  envelopeEvidenceAsOf := none
  promptVersion := ""
  promptId := ""
  promptHash := ""
  dataOrigin := ""
  configFingerprint := ""
  triggerReason := ""

/-- One file of two envelopes, of which the second is received later than it became available. -/
def lateArchive (collectedMsc : ℤ) : SignalArchive where
  index := fun _ _ => [⟨[numberedRow 1 0 0, numberedRow 2 collectedMsc 900], by simp⟩]
  jsonl := fun _ => .ok []
  sorted := fun _ _ => List.pairwise_singleton _ _

theorem nearest_window_inTime :
    (SignalDataProvider.ofSeries (windowSeries (lateArchive 950) "s" "EURUSD" "k" (ofEpochMs 100)
      (ofEpochMs 1000))).nearest (ofEpochMs 1000) "EURUSD" =
    (SignalDataProvider.ofSeries (wholeSeries (lateArchive 950) "s" "EURUSD" "k")).nearest
      (ofEpochMs 1000) "EURUSD" := by
  have hchosen : getRelevantFiles ((lateArchive 950).index "s" "EURUSD") (ofEpochMs 100)
      (ofEpochMs 1000) = (lateArchive 950).index "s" "EURUSD" := by decide +kernel
  have hcome : ∀ entry ∈ stream (storedSnapshots "EURUSD" ((lateArchive 950).index "s" "EURUSD")),
      entry.1 ≤ ofEpochMs 1000 := by decide +kernel
  refine (nearest_window_iff (lateArchive 950) "s" "EURUSD" "k" (by decide) le_rfl ?_).mpr
    ⟨?_, Timeline.not_holdsBack_of_forall fun entry hentry => Or.inr (hcome entry hentry)⟩
  · rw [hchosen]
    exact fun _ _ _ _ => rfl
  · decide +kernel

/-- An envelope received after the end of the window was available within it. -/
theorem window_loses_late :
    ¬∀ (archive : SignalArchive) (source symbol signalKind : String) (start stop t : Instant),
      start ≤ t → t ≤ stop →
        (SignalDataProvider.ofSeries (windowSeries archive source symbol signalKind start
          stop)).nearest t symbol =
        (SignalDataProvider.ofSeries (wholeSeries archive source symbol signalKind)).nearest
          t symbol := by
  intro h
  have hlate := h (lateArchive 1500) "s" "EURUSD" "k" (ofEpochMs 100) (ofEpochMs 1000)
    (ofEpochMs 1000) (by decide) le_rfl
  revert hlate
  decide +kernel

end Windows

section Carved

variable {series : SignalSeries} {windows : List (Instant × Instant)}

def receivedOutside (windows : List (Instant × Instant)) (snapshot : SignalSnapshot) : Bool :=
  !windows.any (inWindow snapshot.collectedMsc)

theorem carveSignalSeries_eq (series : SignalSeries) (windows : List (Instant × Instant)) :
    (carveSignalSeries series windows).snapshots =
      series.snapshots.filter (receivedOutside windows) := by
  rw [carveSignalSeries_snapshots]
  rfl

/-- The carved series is dark within each window, and untouched before all of them. -/
structure Dark (series : SignalSeries) (windows : List (Instant × Instant)) : Prop where
  within : ∀ window ∈ windows, ∀ t, inWindow t window = true →
    ∀ snapshot ∈ (SignalDataProvider.ofSeries (carveSignalSeries series windows)).resolvedAt t,
      inWindow snapshot.getResolutionKey window = false
  before : ∀ t symbol, (∀ window ∈ windows, t < window.1) →
    (SignalDataProvider.ofSeries (carveSignalSeries series windows)).nearest t symbol =
      (SignalDataProvider.ofSeries series).nearest t symbol

/-- A snapshot of a stream comes into force before an instant: those ahead of it are available by
then, and the next one only after all of these. -/
def ComesIntoForce (ordered : List SignalSnapshot) (stop : Instant) (snapshot : SignalSnapshot) :
    Prop :=
  ∃ ahead behind, ordered = ahead ++ snapshot :: behind ∧
    (∀ other ∈ snapshot :: ahead, other.getResolutionKey < stop) ∧
      ∀ next ∈ behind.head?, ∀ other ∈ snapshot :: ahead,
        other.getResolutionKey < next.getResolutionKey

/-- What a carve must find: no snapshot received outside the windows that becomes available and
comes into force within one, and before all of them none in force that was received in one, nor
one that holds back another. -/
structure Carvable (series : SignalSeries) (windows : List (Instant × Instant)) : Prop where
  noneWithin : ∀ window ∈ windows, ∀ snapshot, inWindow snapshot.getResolutionKey window = true →
    ¬ComesIntoForce (streamOrder (series.snapshots.filter (receivedOutside windows))) window.2
      snapshot
  inForce : ∀ t, (∀ window ∈ windows, t < window.1) →
    ∀ snapshot ∈ Timeline.current (stream series.snapshots) t,
      receivedOutside windows snapshot = true
  unobstructed : ∀ t, (∀ window ∈ windows, t < window.1) →
    ¬Timeline.HoldsBack (receivedOutside windows) (stream series.snapshots) t

theorem comesIntoForce_iff {snapshots : List SignalSnapshot} {stop : Instant}
    {snapshot : SignalSnapshot} : ComesIntoForce (streamOrder snapshots) stop snapshot ↔
      ∃ t, t < stop ∧ Timeline.current (stream snapshots) t = some snapshot := by
  rw [Timeline.exists_current_iff, stream, entries]
  constructor
  · rintro ⟨ahead, behind, hsplit, hbefore, hnext⟩
    refine ⟨entries ahead, (snapshot.getResolutionKey, snapshot), entries behind, ?_, rfl, ?_, ?_⟩
    · rw [hsplit, List.map_append, List.map_cons]
      rfl
    · change ∀ other ∈ entries (snapshot :: ahead), other.1 < stop
      simpa [entries] using hbefore
    · change ∀ next ∈ (entries behind).head?, ∀ other ∈ entries (snapshot :: ahead),
        other.1 < next.1
      simpa [entries, List.head?_map] using hnext
  · rintro ⟨ahead, entry, behind, hsplit, hvalue, hbefore, hnext⟩
    obtain ⟨ahead, rest, hordered, rfl, hrest⟩ := List.map_eq_append_iff.mp hsplit
    obtain ⟨snapshot', behind, rfl, rfl, rfl⟩ := List.map_eq_cons_iff.mp hrest
    cases hvalue
    refine ⟨ahead, behind, hordered, ?_, ?_⟩
    · change ∀ other ∈ entries (snapshot' :: ahead), other.1 < stop at hbefore
      simpa [entries] using hbefore
    · change ∀ next ∈ (entries behind).head?, ∀ other ∈ entries (snapshot' :: ahead),
        other.1 < next.1 at hnext
      simpa [entries, List.head?_map] using hnext

theorem resolvedAt_ofSeries (series : SignalSeries) (t : Instant) :
    (SignalDataProvider.ofSeries series).resolvedAt t =
      Timeline.current (stream series.snapshots) t :=
  resolvedAt_reindex series.signalKind series.snapshots t

theorem getResolutionKey_le {snapshots : List SignalSnapshot} {t : Instant}
    {snapshot : SignalSnapshot} (h : Timeline.current (stream snapshots) t = some snapshot) :
    snapshot.getResolutionKey ≤ t := by
  obtain ⟨ahead, entry, behind, hsplit, rfl, -, hcome, -⟩ := Timeline.current_eq_some_iff.mp h
  have hmem : entry ∈ stream snapshots := hsplit ▸ List.mem_append_right _ List.mem_cons_self
  obtain ⟨snapshot, -, rfl⟩ := List.mem_map.mp hmem
  exact hcome

theorem dark_within_iff :
    (∀ window ∈ windows, ∀ t, inWindow t window = true →
      ∀ snapshot ∈ (SignalDataProvider.ofSeries (carveSignalSeries series windows)).resolvedAt t,
        inWindow snapshot.getResolutionKey window = false) ↔
      ∀ window ∈ windows, ∀ snapshot, inWindow snapshot.getResolutionKey window = true →
        ¬ComesIntoForce (streamOrder (series.snapshots.filter (receivedOutside windows))) window.2
          snapshot := by
  simp only [resolvedAt_ofSeries, carveSignalSeries_eq, comesIntoForce_iff, inWindow,
    Bool.and_eq_true, decide_eq_true_eq]
  constructor
  · rintro hdark window hwindow snapshot havailable ⟨t, hbefore, hcurrent⟩
    have hwithin := hdark window hwindow t
      ⟨havailable.1.trans (getResolutionKey_le hcurrent), hbefore⟩ snapshot hcurrent
    simp [havailable] at hwithin
  · intro hnone window hwindow t ht snapshot hcurrent
    rw [Bool.eq_false_iff]
    intro havailable
    rw [Bool.and_eq_true, decide_eq_true_eq, decide_eq_true_eq] at havailable
    exact hnone window hwindow snapshot havailable ⟨t, ht.2, hcurrent⟩

theorem carve_current_iff (t : Instant)
    (hstamps : (series.snapshots.map SignalSnapshot.collectedMsc).Nodup) :
    Timeline.current (stream (carveSignalSeries series windows).snapshots) t =
        Timeline.current (stream series.snapshots) t ↔
      (∀ snapshot ∈ Timeline.current (stream series.snapshots) t,
        receivedOutside windows snapshot = true) ∧
      ¬Timeline.HoldsBack (receivedOutside windows) (stream series.snapshots) t := by
  rw [carveSignalSeries_eq, stream_filter]
  apply Timeline.current_filter_eq_iff
  rw [map_snd_stream]
  exact (List.perm_insertionSort _ _).nodup_iff.mpr hstamps.of_map

/-- A carved series is dark if the series can be carved so; of a series with distinct stamps of
receipt also only if. -/
theorem dark_of_carvable (series : SignalSeries) (windows : List (Instant × Instant)) :
    (Carvable series windows → Dark series windows) ∧
      ((series.snapshots.map SignalSnapshot.collectedMsc).Nodup →
        Dark series windows → Carvable series windows) := by
  constructor
  · intro hcarvable
    refine ⟨dark_within_iff.mpr hcarvable.noneWithin, fun t symbol hbefore => ?_⟩
    rw [SignalDataProvider.nearest_eq_resolvedAt, SignalDataProvider.nearest_eq_resolvedAt,
      resolvedAt_ofSeries, resolvedAt_ofSeries, carveSignalSeries_eq, stream_filter,
      Timeline.current_filter (hcarvable.inForce t hbefore) (hcarvable.unobstructed t hbefore)]
  · intro hstamps hdark
    have hbefore : ∀ t, (∀ window ∈ windows, t < window.1) →
        (∀ snapshot ∈ Timeline.current (stream series.snapshots) t,
          receivedOutside windows snapshot = true) ∧
        ¬Timeline.HoldsBack (receivedOutside windows) (stream series.snapshots) t := by
      intro t ht
      rw [← carve_current_iff t hstamps, ← nearest_eq_iff "" ?_ hstamps]
      · exact hdark.before t "" ht
      · rw [carveSignalSeries_eq]
        exact List.filter_sublist.subset
    exact ⟨dark_within_iff.mp hdark.within, fun t ht => (hbefore t ht).1,
      fun t ht => (hbefore t ht).2⟩

/-- Four snapshots, of which the third becomes available and is received in a window. -/
def announced : SignalSeries where
  signalKind := "k"
  snapshots := [numbered 1 10 10, numbered 2 20 15, numbered 3 36 35, numbered 4 55 50]

theorem dark_of_announced :
    (carveSignalSeries announced [(30, 40)]).snapshots =
        [numbered 1 10 10, numbered 2 20 15, numbered 4 55 50] ∧
      Dark announced [(30, 40)] := by
  refine ⟨by decide +kernel, (dark_of_carvable _ _).1 ⟨?_, ?_, ?_⟩⟩
  · rintro window hwindow snapshot havailable ⟨ahead, behind, hsplit, -⟩
    have houtside : ∀ other ∈ streamOrder (announced.snapshots.filter
        (receivedOutside [(30, 40)])), ∀ window ∈ [((30 : Instant), (40 : Instant))],
          inWindow other.getResolutionKey window = false := by decide +kernel
    have hnot := houtside snapshot (hsplit ▸ List.mem_append_right _ List.mem_cons_self) window
      hwindow
    rw [havailable] at hnot
    cases hnot
  · intro t hbefore snapshot hcurrent
    have hearlier : ∀ other ∈ announced.snapshots, other.getResolutionKey < 30 →
        receivedOutside [(30, 40)] other = true := by decide +kernel
    refine hearlier snapshot (mem_of_current hcurrent) ?_
    exact (getResolutionKey_le hcurrent).trans_lt (hbefore (30, 40) List.mem_cons_self)
  · intro t _
    exact Timeline.not_holdsBack_of_ascending (by decide +kernel)

/-- A snapshot that becomes available in a window and is received after it stays in the series. -/
theorem carve_keeps_late : ¬∀ series windows, Dark series windows := by
  intro h
  have hdark := h { signalKind := "k", snapshots := [numbered 1 10 10, numbered 2 45 35] } [(30, 40)]
  have hwithin := hdark.within (30, 40) List.mem_cons_self 36 (by decide) (numbered 2 45 35)
    (by decide +kernel)
  revert hwithin
  decide +kernel

end Carved

end Finiex.SignalWindows
