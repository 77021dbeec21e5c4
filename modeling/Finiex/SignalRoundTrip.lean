import Finiex.SignalImport
import Finiex.Lib.Lists
import Finiex.Lib.Run
import Finiex.Lib.Selections
import Mathlib.Data.List.Induction

namespace Finiex.SignalRoundTrip

open Finiex.Types
open Finiex.Lib
open Finiex.Signals
open Finiex.SignalImport

section Rows

variable {symbol : String} {rows : List ParquetRow}

/-- The row that stands for a receive stamp after another row of it. -/
def winner (symbol : String) (existing : Option ParquetRow) (row : ParquetRow) :
    Option ParquetRow :=
  match existing with
  | some existing =>
      if existing.symbol = symbol ∧ row.symbol ≠ symbol then some existing else some row
  | none => some row

theorem get?_byMsc (symbol : String) (rows : List ParquetRow) (msc : ℤ) :
    (byMsc symbol rows).get? msc =
      (rows.filter fun row => row.collectedMsc = msc).foldl (winner symbol) none := by
  induction rows using List.reverseRecOn with
  | nil => rfl
  | append_singleton rows row ih =>
      have hstep : (byMsc symbol (rows ++ [row])).get? msc =
          if row.collectedMsc = msc then winner symbol ((byMsc symbol rows).get? msc) row
          else (byMsc symbol rows).get? msc := by
        rw [byMsc, List.foldl_append]
        show Dict.get? (match (byMsc symbol rows).get? row.collectedMsc with
          | some existing => if existing.symbol = symbol ∧ row.symbol ≠ symbol then byMsc symbol rows
            else (byMsc symbol rows).set row.collectedMsc row
          | none => (byMsc symbol rows).set row.collectedMsc row) msc = _
        by_cases hmsc : row.collectedMsc = msc
        · subst hmsc
          rw [if_pos rfl]
          unfold winner
          cases hget : (byMsc symbol rows).get? row.collectedMsc with
          | none => exact Dict.get?_set_self _ _ _
          | some existing =>
              dsimp only
              split
              · exact hget
              · exact Dict.get?_set_self _ _ _
        · rw [if_neg hmsc]
          have hother := Dict.get?_set_ne (byMsc symbol rows) row (Ne.symm hmsc)
          split
          · split
            · rfl
            · exact hother
          · exact hother
      rw [hstep, ih, List.filter_append]
      by_cases hmsc : row.collectedMsc = msc
      · rw [if_pos hmsc, List.filter_cons_of_pos (by simpa using hmsc), List.filter_nil,
          List.foldl_append]
        rfl
      · rw [if_neg hmsc, List.filter_cons_of_neg (by simpa using hmsc), List.filter_nil,
          List.append_nil]

theorem foldl_winner (symbol : String) (rows : List ParquetRow) :
    rows.foldl (winner symbol) none =
      (rows.filter fun row => row.symbol = symbol).getLast?.or rows.getLast? := by
  induction rows using List.reverseRecOn with
  | nil => rfl
  | append_singleton rows row ih =>
      rw [List.foldl_append, ih, List.filter_append, List.getLast?_concat]
      by_cases hsymbol : row.symbol = symbol
      · rw [List.filter_cons_of_pos (by simpa using hsymbol), List.filter_nil,
          List.getLast?_concat, List.foldl_cons, List.foldl_nil]
        unfold winner
        split
        · rw [if_neg fun hboth => hboth.2 hsymbol]
          rfl
        · rfl
      · rw [List.filter_cons_of_neg (by simpa using hsymbol), List.filter_nil, List.append_nil,
          List.foldl_cons, List.foldl_nil]
        unfold winner
        cases hlast : (rows.filter fun row => row.symbol = symbol).getLast? with
        | none =>
            rw [Option.none_or, Option.none_or]
            split
            · next existing hexisting =>
                -- the last row is not of the symbol, as no row is
                have hnone : existing.symbol ≠ symbol := by
                  intro hsame
                  have hmem : existing ∈ rows.filter fun row => row.symbol = symbol :=
                    List.mem_filter.mpr ⟨List.mem_of_getLast? hexisting, decide_eq_true hsame⟩
                  rw [List.getLast?_eq_none_iff.mp hlast] at hmem
                  cases hmem
                rw [if_neg fun hboth => hnone hboth.1]
            · rfl
        | some existing =>
            have hexisting : existing.symbol = symbol := by
              simpa using (List.mem_filter.mp (List.mem_of_getLast? hlast)).2
            rw [Option.some_or, Option.some_or]
            dsimp only
            rw [if_pos ⟨hexisting, hsymbol⟩]

theorem mem_keys_byMsc {msc : ℤ} :
    msc ∈ (byMsc symbol rows).keys ↔ ∃ row ∈ rows, row.collectedMsc = msc := by
  rw [← not_iff_not, ← Dict.get?_eq_none_iff, get?_byMsc, foldl_winner, Option.or_eq_none_iff,
    List.getLast?_eq_none_iff, List.getLast?_eq_none_iff]
  constructor
  · rintro ⟨-, hnil⟩ ⟨row, hrow, hmsc⟩
    have hmem : row ∈ rows.filter fun row => row.collectedMsc = msc :=
      List.mem_filter.mpr ⟨hrow, decide_eq_true hmsc⟩
    rw [hnil] at hmem
    cases hmem
  · intro hnone
    have hnil : (rows.filter fun row => row.collectedMsc = msc) = [] := by
      refine List.filter_eq_nil_iff.mpr fun row hrow hmsc => hnone ⟨row, hrow, ?_⟩
      exact of_decide_eq_true hmsc
    rw [hnil]
    exact ⟨rfl, rfl⟩

end Rows

section Kept

/-- The envelope names the symbol; every one has a row of the envelope symbol. -/
def named (symbol : String) (snapshot : SignalSnapshot) : Bool :=
  decide (symbol = signalEnvelopeSymbol) ||
    snapshot.result.any fun result => result.symbol = symbol

/-- The envelope an import keeps of those received at a moment: the last one that names the
symbol, or without one the last. -/
def keptOf (symbol : String) (snapshots : List SignalSnapshot) (collectedMsc : Instant) :
    Option SignalSnapshot :=
  let received := snapshots.filter fun snapshot => snapshot.collectedMsc = collectedMsc
  (received.filter (named symbol)).getLast?.or received.getLast?

/-- The envelopes an import keeps for a symbol, by the moment of their receipt. -/
def kept (symbol : String) (snapshots : List SignalSnapshot) : List SignalSnapshot :=
  (((snapshots.map SignalSnapshot.collectedMsc).dedup.insertionSort (· ≤ ·)).filterMap
    (keptOf symbol snapshots))

def blankResult : SentimentResult where
  symbol := signalEnvelopeSymbol
  signal := ""

def keptResult (symbol : String) (snapshot : SignalSnapshot) : SentimentResult :=
  (snapshot.result.filter fun result => result.symbol = symbol).getLast?.getD
    (if symbol = signalEnvelopeSymbol then blankResult else defensiveHold symbol)

def projected (symbol : String) (snapshot : SignalSnapshot) : SignalSnapshot where
  schemaVersion := snapshot.schemaVersion
  status := snapshot.status
  collectedMsc := snapshot.collectedMsc
  seq := snapshot.seq
  streamEpoch := snapshot.streamEpoch
  availableMsc := snapshot.availableMsc
  envelopeEvidenceAsOf := snapshot.getEvidenceAsOf
  result := if named symbol snapshot then [keptResult symbol snapshot] else []

/-- The stamps are whole milliseconds. -/
structure Precise (snapshot : SignalSnapshot) : Prop where
  collected : ofEpochMs (epochMs snapshot.collectedMsc) = snapshot.collectedMsc
  available : ∀ stamp ∈ snapshot.availableMsc, ofEpochMs (epochMs stamp) = stamp
  envelope : ∀ stamp ∈ snapshot.envelopeEvidenceAsOf, ofEpochMs (epochMs stamp) = stamp
  evidence : ∀ result ∈ snapshot.result, ∀ stamp ∈ result.evidenceAsOf,
    ofEpochMs (epochMs stamp) = stamp

variable {symbol : String} {snapshot : SignalSnapshot} {snapshots : List SignalSnapshot}

theorem map_ofEpochMs {stamp : Option Instant}
    (h : ∀ moment ∈ stamp, ofEpochMs (epochMs moment) = moment) :
    (stamp.map epochMs).map ofEpochMs = stamp := by
  cases stamp with
  | none => rfl
  | some moment => exact congrArg some (h moment rfl)

theorem Precise.getEvidenceAsOf (h : Precise snapshot) :
    ∀ stamp ∈ snapshot.getEvidenceAsOf, ofEpochMs (epochMs stamp) = stamp := by
  intro stamp hstamp
  unfold SignalSnapshot.getEvidenceAsOf at hstamp
  split at hstamp
  · next evidence henvelope =>
      exact h.envelope stamp (henvelope.trans hstamp)
  · have hmem := List.max?_mem hstamp
    obtain ⟨result, hresult, hevidence⟩ := List.mem_filterMap.mp hmem
    exact h.evidence result hresult stamp hevidence

theorem filter_rowsOf (symbol : String) (snapshot : SignalSnapshot) :
    (rowsOf snapshot).filter (fun row => row.symbol = symbol) =
      (if symbol = signalEnvelopeSymbol then [rowOf signalEnvelopeSymbol none snapshot] else []) ++
        (snapshot.result.filter fun result => result.symbol = symbol).map fun result =>
          rowOf symbol (some result) snapshot := by
  have hresults : (snapshot.result.map fun result =>
        rowOf result.symbol (some result) snapshot).filter (fun row => row.symbol = symbol) =
      (snapshot.result.filter fun result => result.symbol = symbol).map fun result =>
        rowOf symbol (some result) snapshot := by
    rw [List.filter_map]
    refine List.map_congr_left fun result hresult => ?_
    have hsame : result.symbol = symbol := by
      simpa [rowOf] using (List.mem_filter.mp hresult).2
    rw [hsame]
  rw [rowsOf, List.filter_cons, hresults]
  by_cases hsymbol : symbol = signalEnvelopeSymbol
  · rw [if_pos (by simp [rowOf, hsymbol]), if_pos hsymbol]
    rfl
  · rw [if_neg (by simpa [rowOf, eq_comm] using hsymbol), if_neg hsymbol]
    rfl

theorem filter_rowsOf_ne_nil (symbol : String) (snapshot : SignalSnapshot) :
    (rowsOf snapshot).filter (fun row => row.symbol = symbol) ≠ [] ↔
      named symbol snapshot = true := by
  rw [filter_rowsOf, named, Bool.or_eq_true, decide_eq_true_iff]
  by_cases hsymbol : symbol = signalEnvelopeSymbol
  · simp [hsymbol]
  · simp [hsymbol, List.filter_eq_nil_iff]

theorem snapshotOfRow_rowOf (h : Precise snapshot) (symbol rowSymbol : String)
    (result : Option SentimentResult) :
    snapshotOfRow symbol (rowOf rowSymbol result snapshot) =
      { projected symbol snapshot with
        result := (snapshotOfRow symbol (rowOf rowSymbol result snapshot)).result } := by
  simp only [snapshotOfRow, rowOf, projected, h.collected, map_ofEpochMs h.available,
    map_ofEpochMs h.getEvidenceAsOf]

theorem snapshotOfRow_last (h : Precise snapshot) {row : ParquetRow}
    (hlast : ((rowsOf snapshot).filter fun row => row.symbol = symbol).getLast? = some row) :
    snapshotOfRow symbol row = projected symbol snapshot := by
  have hnamed : named symbol snapshot = true := by
    rw [← filter_rowsOf_ne_nil]
    intro hnil
    rw [hnil] at hlast
    cases hlast
  have hread : ∀ result, row = rowOf symbol result snapshot →
      (snapshotOfRow symbol (rowOf symbol result snapshot)).result =
        [keptResult symbol snapshot] → snapshotOfRow symbol row = projected symbol snapshot := by
    rintro result rfl hresult
    rw [snapshotOfRow_rowOf h, hresult]
    simp only [projected, hnamed, if_true]
  rw [filter_rowsOf, List.getLast?_append, List.getLast?_map] at hlast
  cases hresults : (snapshot.result.filter fun result => result.symbol = symbol).getLast? with
  | some result =>
      rw [hresults, Option.map_some, Option.some_or] at hlast
      refine hread (some result) (Option.some.inj hlast).symm ?_
      obtain ⟨hmem, hsame⟩ := List.mem_filter.mp (List.mem_of_getLast? hresults)
      have hsymbol : result.symbol = symbol := by simpa using hsame
      rw [keptResult, hresults]
      simp only [snapshotOfRow, rowOf, if_true, Option.map_some, Option.getD_some, Option.bind_some,
        map_ofEpochMs (h.evidence result hmem), ← hsymbol]
  | none =>
      rw [hresults, Option.map_none, Option.none_or] at hlast
      by_cases hsymbol : symbol = signalEnvelopeSymbol
      · rw [if_pos hsymbol] at hlast
        subst hsymbol
        refine hread none (Option.some.inj hlast).symm ?_
        rw [keptResult, hresults]
        rfl
      · rw [if_neg hsymbol] at hlast
        cases hlast

theorem snapshotOfRow_other (h : Precise snapshot) {row : ParquetRow} (hrow : row ∈ rowsOf snapshot)
    (hsymbol : row.symbol ≠ symbol) (hnamed : named symbol snapshot = false) :
    snapshotOfRow symbol row = projected symbol snapshot := by
  have hread : ∀ rowSymbol result, row = rowOf rowSymbol result snapshot →
      snapshotOfRow symbol row = projected symbol snapshot := by
    rintro rowSymbol result rfl
    have hresult : (snapshotOfRow symbol (rowOf rowSymbol result snapshot)).result = [] :=
      if_neg hsymbol
    rw [snapshotOfRow_rowOf h, hresult]
    simp only [projected, hnamed, Bool.false_eq_true, if_false]
  rcases List.mem_cons.mp hrow with heq | hresult
  · exact hread _ _ heq
  · obtain ⟨result, -, heq⟩ := List.mem_map.mp hresult
    exact hread _ _ heq.symm

def readRows (symbol : String) (snapshots : List SignalSnapshot) : List ParquetRow :=
  (explode snapshots).filter fun row => row.symbol ∈ [symbol, signalEnvelopeSymbol]

theorem sentinel_read (symbol : String) (snapshot : SignalSnapshot) :
    rowOf signalEnvelopeSymbol none snapshot ∈
      (rowsOf snapshot).filter fun row => row.symbol ∈ [symbol, signalEnvelopeSymbol] := by
  refine List.mem_filter.mpr ⟨List.mem_cons_self, ?_⟩
  simp [rowOf]

theorem collectedMsc_of_mem_rowsOf {row : ParquetRow} (h : row ∈ rowsOf snapshot) :
    row.collectedMsc = epochMs snapshot.collectedMsc := by
  rcases List.mem_cons.mp h with rfl | hresult
  · rfl
  · obtain ⟨result, -, rfl⟩ := List.mem_map.mp hresult
    rfl

theorem epochMs_inj (hprecise : ∀ snapshot ∈ snapshots, Precise snapshot) {later : SignalSnapshot}
    (hsnapshot : snapshot ∈ snapshots) (hlater : later ∈ snapshots)
    (h : epochMs snapshot.collectedMsc = epochMs later.collectedMsc) :
    snapshot.collectedMsc = later.collectedMsc := by
  rw [← (hprecise snapshot hsnapshot).collected, h, (hprecise later hlater).collected]

/-- The rows of a receive stamp are those of the envelopes received then. -/
theorem filter_readRows (hprecise : ∀ snapshot ∈ snapshots, Precise snapshot)
    (hsnapshot : snapshot ∈ snapshots) :
    (readRows symbol snapshots).filter
        (fun row => row.collectedMsc = epochMs snapshot.collectedMsc) =
      (snapshots.filter fun other => other.collectedMsc = snapshot.collectedMsc).flatMap
        fun other => (rowsOf other).filter fun row =>
          row.symbol ∈ [symbol, signalEnvelopeSymbol] := by
  rw [readRows, explode, List.filter_flatMap, List.filter_flatMap]
  have hrows : ∀ others : List SignalSnapshot, others ⊆ snapshots →
      (others.flatMap fun other => ((rowsOf other).filter fun row =>
        row.symbol ∈ [symbol, signalEnvelopeSymbol]).filter fun row =>
          row.collectedMsc = epochMs snapshot.collectedMsc) =
      (others.filter fun other => other.collectedMsc = snapshot.collectedMsc).flatMap
        fun other => (rowsOf other).filter fun row =>
          row.symbol ∈ [symbol, signalEnvelopeSymbol] := by
    intro others
    induction others with
    | nil => exact fun _ => rfl
    | cons other others ih =>
        intro hsubset
        have hother : other ∈ snapshots := hsubset List.mem_cons_self
        rw [List.flatMap_cons, ih fun x hx => hsubset (List.mem_cons_of_mem _ hx)]
        by_cases hsame : other.collectedMsc = snapshot.collectedMsc
        · rw [List.filter_cons_of_pos (by simpa using hsame), List.flatMap_cons]
          congr 1
          refine List.filter_eq_self.mpr fun row hrow => ?_
          rw [collectedMsc_of_mem_rowsOf (List.mem_of_mem_filter hrow), hsame]
          exact decide_eq_true rfl
        · rw [List.filter_cons_of_neg (by simpa using hsame)]
          have hnone : ((rowsOf other).filter fun row =>
              row.symbol ∈ [symbol, signalEnvelopeSymbol]).filter (fun row =>
                row.collectedMsc = epochMs snapshot.collectedMsc) = [] := by
            refine List.filter_eq_nil_iff.mpr fun row hrow hmsc => hsame ?_
            rw [collectedMsc_of_mem_rowsOf (List.mem_of_mem_filter hrow)] at hmsc
            exact epochMs_inj hprecise hother hsnapshot (of_decide_eq_true hmsc)
          rw [hnone, List.nil_append]
  exact hrows snapshots (List.Subset.refl _)

/-- The row that stands for a receive stamp is read as the kept envelope. -/
theorem get?_readRows (hprecise : ∀ snapshot ∈ snapshots, Precise snapshot)
    (hsnapshot : snapshot ∈ snapshots) {keptSnapshot : SignalSnapshot}
    (hkept : keptOf symbol snapshots snapshot.collectedMsc = some keptSnapshot) :
    ((byMsc symbol (readRows symbol snapshots)).get? (epochMs snapshot.collectedMsc)).map
      (snapshotOfRow symbol) = some (projected symbol keptSnapshot) := by
  have hmem : ∀ {others : List SignalSnapshot} {other : SignalSnapshot},
      others ⊆ snapshots → others.getLast? = some other → Precise other :=
    fun hsubset hlast => hprecise _ (hsubset (List.mem_of_getLast? hlast))
  rw [get?_byMsc, filter_readRows hprecise hsnapshot, foldl_winner, List.filter_flatMap]
  unfold keptOf at hkept
  dsimp only at hkept
  generalize hreceived : (snapshots.filter fun other =>
    other.collectedMsc = snapshot.collectedMsc) = received at hkept ⊢
  have hsubset : received ⊆ snapshots := by
    rw [← hreceived]
    exact List.filter_sublist.subset
  have hboth : ∀ other : SignalSnapshot, ((rowsOf other).filter fun row =>
      row.symbol ∈ [symbol, signalEnvelopeSymbol]).filter (fun row => row.symbol = symbol) =
      (rowsOf other).filter fun row => row.symbol = symbol := by
    intro other
    rw [List.filter_filter]
    refine List.filter_congr fun row _ => ?_
    by_cases hsame : row.symbol = symbol
    · simp [hsame]
    · simp [hsame]
  rw [funext hboth, Lists.getLast?_flatMap_filter fun other _ => filter_rowsOf_ne_nil symbol other]
  cases hnamed : (received.filter (named symbol)).getLast? with
  | some last =>
      rw [hnamed, Option.some_or] at hkept
      cases hkept
      obtain ⟨row, hrow⟩ := Option.ne_none_iff_exists'.mp (mt List.getLast?_eq_none_iff.mp
        ((filter_rowsOf_ne_nil symbol keptSnapshot).mpr
          (List.mem_filter.mp (List.mem_of_getLast? hnamed)).2))
      rw [Option.bind_some, hrow, Option.some_or, Option.map_some]
      exact congrArg some (snapshotOfRow_last
        (hmem (List.Subset.trans List.filter_sublist.subset hsubset) hnamed) hrow)
  | none =>
      rw [hnamed, Option.none_or] at hkept
      rw [Option.bind_none, Option.none_or,
        Lists.getLast?_flatMap_filter (p := fun _ => true) fun other _ => ⟨fun _ => rfl, fun _ => ?_⟩]
      · rw [List.filter_true, hkept, Option.bind_some]
        have hnotNamed : named symbol keptSnapshot = false := by
          rw [List.getLast?_eq_none_iff, List.filter_eq_nil_iff] at hnamed
          simpa using hnamed keptSnapshot (List.mem_of_getLast? hkept)
        obtain ⟨row, hrow⟩ := Option.ne_none_iff_exists'.mp
          (mt List.getLast?_eq_none_iff.mp (List.ne_nil_of_mem (sentinel_read symbol keptSnapshot)))
        rw [hrow, Option.map_some]
        have hrowMem := List.mem_of_mem_filter (List.mem_of_getLast? hrow)
        refine congrArg some (snapshotOfRow_other (hmem hsubset hkept) hrowMem ?_ hnotNamed)
        intro hsame
        have hof : row ∈ (rowsOf keptSnapshot).filter fun row => row.symbol = symbol :=
          List.mem_filter.mpr ⟨hrowMem, decide_eq_true hsame⟩
        have htrue := (filter_rowsOf_ne_nil symbol keptSnapshot).mp (List.ne_nil_of_mem hof)
        exact Bool.false_ne_true (hnotNamed.symm.trans htrue)
      · exact List.ne_nil_of_mem (sentinel_read symbol other)

theorem keptOf_spec {collectedMsc : Instant}
    (hmem : collectedMsc ∈ snapshots.map SignalSnapshot.collectedMsc) :
    ∃ keptSnapshot ∈ snapshots, keptOf symbol snapshots collectedMsc = some keptSnapshot ∧
      keptSnapshot.collectedMsc = collectedMsc := by
  obtain ⟨snapshot, hsnapshot, rfl⟩ := List.mem_map.mp hmem
  have hreceived : snapshot ∈ snapshots.filter fun other =>
      other.collectedMsc = snapshot.collectedMsc :=
    List.mem_filter.mpr ⟨hsnapshot, decide_eq_true rfl⟩
  have hlast : ∀ {keptSnapshot : SignalSnapshot}, (keptSnapshot ∈ snapshots.filter fun other =>
      other.collectedMsc = snapshot.collectedMsc) →
      keptSnapshot ∈ snapshots ∧ keptSnapshot.collectedMsc = snapshot.collectedMsc := by
    intro keptSnapshot hkept
    obtain ⟨hmem, hsame⟩ := List.mem_filter.mp hkept
    exact ⟨hmem, of_decide_eq_true hsame⟩
  unfold keptOf
  dsimp only
  cases hnamed : ((snapshots.filter fun other =>
      other.collectedMsc = snapshot.collectedMsc).filter (named symbol)).getLast? with
  | some keptSnapshot =>
      obtain ⟨hmem, hsame⟩ := hlast (List.mem_of_mem_filter (List.mem_of_getLast? hnamed))
      exact ⟨keptSnapshot, hmem, rfl, hsame⟩
  | none =>
      obtain ⟨keptSnapshot, hkept⟩ := Option.ne_none_iff_exists'.mp
        (mt List.getLast?_eq_none_iff.mp (List.ne_nil_of_mem hreceived))
      obtain ⟨hmem, hsame⟩ := hlast (List.mem_of_getLast? hkept)
      exact ⟨keptSnapshot, hmem, hkept, hsame⟩

theorem mem_kept {keptSnapshot : SignalSnapshot} :
    keptSnapshot ∈ kept symbol snapshots ↔
      keptSnapshot ∈ snapshots ∧
        keptOf symbol snapshots keptSnapshot.collectedMsc = some keptSnapshot := by
  rw [kept, List.mem_filterMap]
  constructor
  · rintro ⟨collectedMsc, hstamp, hkept⟩
    rw [List.mem_insertionSort, List.mem_dedup] at hstamp
    obtain ⟨other, hother, hsome, hsame⟩ := keptOf_spec hstamp
    rw [hkept] at hsome
    cases hsome
    rw [hsame]
    exact ⟨hother, hkept⟩
  · rintro ⟨hmem, hkept⟩
    refine ⟨keptSnapshot.collectedMsc, ?_, hkept⟩
    rw [List.mem_insertionSort, List.mem_dedup]
    exact List.mem_map_of_mem hmem

theorem epochMs_le_iff {moment later : Instant} (h : ofEpochMs (epochMs moment) = moment)
    (hlater : ofEpochMs (epochMs later) = later) : moment ≤ later ↔ epochMs moment ≤ epochMs later := by
  rw [← h, ← hlater, h, hlater]
  unfold ofEpochMs at h hlater
  constructor
  · intro hle
    exact Int.tdiv_le_tdiv (by decide) hle
  · intro hle
    rw [← h, ← hlater]
    exact Int.mul_le_mul_of_nonneg_right hle (by decide)

/-- The imported file is read as the kept envelopes. -/
theorem load_explode (hprecise : ∀ snapshot ∈ snapshots, Precise snapshot) (signalKind : String) :
    (loadSignalSeriesFromParquet [explode snapshots] signalKind symbol none none).snapshots =
      (kept symbol snapshots).map (projected symbol) := by
  have hstamp : ∀ collectedMsc ∈ (snapshots.map SignalSnapshot.collectedMsc).dedup,
      ofEpochMs (epochMs collectedMsc) = collectedMsc := by
    intro collectedMsc hmem
    obtain ⟨snapshot, hsnapshot, rfl⟩ := List.mem_map.mp (List.mem_dedup.mp hmem)
    exact (hprecise snapshot hsnapshot).collected
  have hperm : (byMsc symbol (readRows symbol snapshots)).keys.Perm
      ((snapshots.map SignalSnapshot.collectedMsc).dedup.map epochMs) := by
    refine (List.perm_ext_iff_of_nodup (Dict.nodup _) ?_).mpr fun msc => ?_
    · refine (List.nodup_map_iff_inj_on (List.nodup_dedup _)).mpr fun stamp hs other ho heq => ?_
      rw [← hstamp stamp hs, heq, hstamp other ho]
    · show msc ∈ (byMsc symbol (readRows symbol snapshots)).keys ↔ _
      rw [mem_keys_byMsc, List.mem_map]
      constructor
      · rintro ⟨row, hrow, rfl⟩
        obtain ⟨snapshot, hsnapshot, hof⟩ := List.mem_flatMap.mp (List.mem_of_mem_filter hrow)
        refine ⟨snapshot.collectedMsc, ?_, (collectedMsc_of_mem_rowsOf hof).symm⟩
        exact List.mem_dedup.mpr (List.mem_map_of_mem hsnapshot)
      · rintro ⟨collectedMsc, hmem, rfl⟩
        obtain ⟨snapshot, hsnapshot, rfl⟩ := List.mem_map.mp (List.mem_dedup.mp hmem)
        obtain ⟨hof, hread⟩ := List.mem_filter.mp (sentinel_read symbol snapshot)
        exact ⟨_, List.mem_filter.mpr ⟨List.mem_flatMap.mpr ⟨snapshot, hsnapshot, hof⟩, hread⟩, rfl⟩
  have hsorted : (byMsc symbol (readRows symbol snapshots)).keys.insertionSort (· ≤ ·) =
      ((snapshots.map SignalSnapshot.collectedMsc).dedup.insertionSort (· ≤ ·)).map epochMs := by
    rw [List.map_insertionSort (r := (· ≤ ·)) (s := (· ≤ ·)) epochMs _ fun stamp hs other ho =>
      epochMs_le_iff (hstamp stamp hs) (hstamp other ho)]
    refine List.Perm.eq_of_pairwise' (List.pairwise_insertionSort _ _)
      (List.pairwise_insertionSort _ _) ?_
    exact ((List.perm_insertionSort _ _).trans hperm).trans (List.perm_insertionSort _ _).symm
  have hread : loadSignalSeriesFromParquet [explode snapshots] signalKind symbol none none =
      { signalKind := signalKind
        snapshots := ((byMsc symbol (readRows symbol snapshots)).keys.insertionSort
          (· ≤ ·)).filterMap fun msc => ((byMsc symbol (readRows symbol snapshots)).get? msc).map
            (snapshotOfRow symbol) } := by
    rw [loadSignalSeriesFromParquet, List.flatten_singleton]
    rfl
  rw [hread, hsorted, List.filterMap_map, kept, List.map_filterMap]
  refine List.filterMap_congr fun collectedMsc hmem => ?_
  rw [List.mem_insertionSort, List.mem_dedup] at hmem
  obtain ⟨keptSnapshot, -, hkept, -⟩ := @keptOf_spec symbol _ _ hmem
  obtain ⟨snapshot, hsnapshot, rfl⟩ := List.mem_map.mp hmem
  rw [hkept]
  exact get?_readRows hprecise hsnapshot hkept

end Kept

section Lookups

variable {symbol : String} {snapshot : SignalSnapshot} {snapshots : List SignalSnapshot}

theorem getOrderKey_projected (snapshot : SignalSnapshot) :
    (projected symbol snapshot).getOrderKey = snapshot.getOrderKey := rfl

theorem getEvidenceAsOf_projected (snapshot : SignalSnapshot) :
    (projected symbol snapshot).getEvidenceAsOf = snapshot.getEvidenceAsOf := by
  cases hevidence : snapshot.getEvidenceAsOf with
  | some evidence =>
      rw [SignalSnapshot.getEvidenceAsOf]
      simp only [projected, hevidence]
  | none =>
      -- an envelope without evidence has no result with any
      have hnone : ∀ result ∈ snapshot.result, result.evidenceAsOf = none := by
        intro result hresult
        unfold SignalSnapshot.getEvidenceAsOf at hevidence
        split at hevidence
        · cases hevidence
        · rw [List.max?_eq_none_iff, List.filterMap_eq_nil_iff] at hevidence
          exact hevidence result hresult
      have hkept : (keptResult symbol snapshot).evidenceAsOf = none := by
        rw [keptResult]
        cases hlast : (snapshot.result.filter fun result => result.symbol = symbol).getLast? with
        | some result =>
            exact hnone result (List.mem_of_mem_filter (List.mem_of_getLast? hlast))
        | none =>
            rw [Option.getD_none]
            split
            · rfl
            · rfl
      rw [SignalSnapshot.getEvidenceAsOf]
      simp only [projected, hevidence]
      split
      · rw [List.filterMap_cons, hkept]
        rfl
      · rfl

theorem extractSymbol_projected (snapshot : SignalSnapshot) :
    extractSymbol (projected symbol snapshot) symbol = keptResult symbol snapshot := by
  have hsymbol : (keptResult symbol snapshot).symbol = symbol := by
    rw [keptResult]
    cases hlast : (snapshot.result.filter fun result => result.symbol = symbol).getLast? with
    | some result => simpa using (List.mem_filter.mp (List.mem_of_getLast? hlast)).2
    | none =>
        rw [Option.getD_none]
        split
        · next henvelope => exact henvelope.symm
        · rfl
  rw [extractSymbol]
  cases hnamed : named symbol snapshot with
  | true => simp [projected, hnamed, hsymbol]
  | false =>
      rw [named, Bool.or_eq_false_iff, decide_eq_false_iff_not, List.any_eq_false] at hnamed
      have hnone : (snapshot.result.filter fun result => result.symbol = symbol) = [] :=
        List.filter_eq_nil_iff.mpr hnamed.2
      have hnot : named symbol snapshot = false := by
        rw [named, Bool.or_eq_false_iff, decide_eq_false_iff_not, List.any_eq_false]
        exact hnamed
      simp [projected, hnot, keptResult, hnone, hnamed.1]

/-- What a lookup in the imported series returns, by the envelope it resolves to. -/
def keptResolved (symbol : String) (snapshot : SignalSnapshot) : ResolvedSignal where
  collectedMsc := snapshot.collectedMsc
  result := keptResult symbol snapshot
  evidenceAsOf := snapshot.getEvidenceAsOf

theorem nearest_imported (hprecise : ∀ snapshot ∈ snapshots, Precise snapshot)
    (signalKind : String) (timestamp : Instant) :
    (SignalDataProvider.ofSeries (loadSignalSeriesFromParquet [explode snapshots] signalKind symbol
      none none)).nearest timestamp symbol =
      (Timeline.current (entries (streamOrder (kept symbol snapshots))) timestamp).map
        (keptResolved symbol) := by
  have horder : streamOrder ((kept symbol snapshots).map (projected symbol)) =
      (streamOrder (kept symbol snapshots)).map (projected symbol) := by
    refine (List.map_insertionSort _ _ _ _ fun snapshot _ other _ => ?_).symm
    rw [getOrderKey_projected, getOrderKey_projected]
  have hentries : entries ((streamOrder (kept symbol snapshots)).map (projected symbol)) =
      (entries (streamOrder (kept symbol snapshots))).map fun entry =>
        (entry.1, projected symbol entry.2) := by
    rw [entries, entries, List.map_map, List.map_map]
    rfl
  rw [nearest_eq, load_explode hprecise, horder, hentries, Timeline.current_map, Option.map_map]
  congr 1
  funext snapshot
  rw [Function.comp_apply, resolved, extractSymbol_projected, getEvidenceAsOf_projected]
  rfl

/-- The receive stamps of envelopes in stream order, each with the instant it became usable. -/
def stamps (ordered : List SignalSnapshot) : List (Instant × Instant) :=
  ordered.map fun snapshot => (snapshot.getResolutionKey, snapshot.collectedMsc)

/-- Keeping one envelope for each receive stamp leaves the schedule of the stamps as it is, and
the kept envelope says of the symbol what every envelope of its stamp says that is in force. -/
structure SurvivesImport (symbol : String) (snapshots : List SignalSnapshot) : Prop where
  schedule : Timeline.schedule (stamps (streamOrder snapshots)) =
    Timeline.schedule (stamps (streamOrder (kept symbol snapshots)))
  contents : ∀ snapshot ∈ Timeline.inForce (entries (streamOrder snapshots)),
    ∀ keptSnapshot ∈ kept symbol snapshots,
      keptSnapshot.collectedMsc = snapshot.collectedMsc →
        keptResult symbol keptSnapshot = extractSymbol snapshot symbol ∧
          keptSnapshot.getEvidenceAsOf = snapshot.getEvidenceAsOf

theorem current_stamps (ordered : List SignalSnapshot) (timestamp : Instant) :
    Timeline.current (stamps ordered) timestamp =
      (Timeline.current (entries ordered) timestamp).map SignalSnapshot.collectedMsc := by
  rw [← Timeline.current_map, entries, List.map_map]
  rfl

theorem mem_of_current_entries {ordered : List SignalSnapshot} {timestamp : Instant}
    (h : Timeline.current (entries ordered) timestamp = some snapshot) : snapshot ∈ ordered := by
  have hmem := Timeline.mem_of_current h
  rw [entries, List.map_map] at hmem
  obtain ⟨other, hother, rfl⟩ := List.mem_map.mp hmem
  exact hother

/-- Lookups agree at all moments exactly if the symbol survives the import. -/
theorem nearest_agree_iff (hprecise : ∀ snapshot ∈ snapshots, Precise snapshot)
    (signalKind : String) :
    (∀ timestamp, (SignalDataProvider.ofSeries (loadSignalSeriesFromParquet [explode snapshots]
        signalKind symbol none none)).nearest timestamp symbol =
      (SignalDataProvider.ofSeries { signalKind := signalKind, snapshots := snapshots }).nearest
        timestamp symbol) ↔
      SurvivesImport symbol snapshots := by
  have hcollected : ∀ {current keptCurrent : Option SignalSnapshot},
      keptCurrent.map (keptResolved symbol) = current.map (resolved symbol) →
      current.map SignalSnapshot.collectedMsc = keptCurrent.map SignalSnapshot.collectedMsc := by
    intro current keptCurrent heq
    have hstamps := congrArg (Option.map ResolvedSignal.collectedMsc) heq
    rw [Option.map_map, Option.map_map] at hstamps
    exact hstamps.symm
  simp only [nearest_imported hprecise, nearest_eq]
  constructor
  · intro h
    refine ⟨(Timeline.current_eq_iff _ _).mp fun timestamp => ?_, ?_⟩
    · rw [current_stamps, current_stamps]
      exact hcollected (h timestamp)
    · intro snapshot hsnapshot keptSnapshot hkept hsame
      obtain ⟨timestamp, hcurrent⟩ := Timeline.mem_inForce.mp hsnapshot
      have hagree := h timestamp
      rw [hcurrent, Option.map_some] at hagree
      obtain ⟨shown, hshown, hresolved⟩ := Option.map_eq_some_iff.mp hagree
      have hmem : shown ∈ kept symbol snapshots :=
        (List.mem_insertionSort _).mp (mem_of_current_entries hshown)
      -- the kept envelope of the stamp is the one shown
      have hstamp : shown.collectedMsc = snapshot.collectedMsc :=
        congrArg ResolvedSignal.collectedMsc hresolved
      have hshownKept := (mem_kept.mp hmem).2
      rw [hstamp, ← hsame, (mem_kept.mp hkept).2] at hshownKept
      rw [Option.some.inj hshownKept]
      exact ⟨congrArg ResolvedSignal.result hresolved,
        congrArg ResolvedSignal.evidenceAsOf hresolved⟩
  · intro hsurvives timestamp
    have hstamps := (Timeline.current_eq_iff _ _).mpr hsurvives.schedule timestamp
    rw [current_stamps, current_stamps] at hstamps
    cases hcurrent : Timeline.current (entries (streamOrder snapshots)) timestamp with
    | none =>
        rw [hcurrent, Option.map_none, eq_comm, Option.map_eq_none_iff] at hstamps
        rw [hstamps]
        rfl
    | some snapshot =>
        rw [hcurrent, Option.map_some] at hstamps
        obtain ⟨keptSnapshot, hkept, hsame⟩ := Option.map_eq_some_iff.mp hstamps.symm
        have hmem : keptSnapshot ∈ kept symbol snapshots :=
          (List.mem_insertionSort _).mp (mem_of_current_entries hkept)
        obtain ⟨hresult, hevidence⟩ := hsurvives.contents snapshot
          (Timeline.mem_inForce.mpr ⟨timestamp, hcurrent⟩) keptSnapshot hmem hsame
        rw [hkept, Option.map_some, Option.map_some, keptResolved, resolved, hsame, hresult,
          hevidence]

end Lookups

section Files

variable {symbol : String} {snapshots : List SignalSnapshot}

theorem kept_of_distinct
    (hsorted : snapshots.Pairwise fun snapshot later => snapshot.collectedMsc ≤ later.collectedMsc)
    (hdistinct : (snapshots.map SignalSnapshot.collectedMsc).Nodup) :
    kept symbol snapshots = snapshots := by
  have hown : ∀ snapshot ∈ snapshots, keptOf symbol snapshots snapshot.collectedMsc = some snapshot := by
    intro snapshot hsnapshot
    obtain ⟨keptSnapshot, hmem, hkept, hsame⟩ :=
      @keptOf_spec symbol snapshots _ (List.mem_map_of_mem hsnapshot)
    rw [hkept, List.inj_on_of_nodup_map hdistinct hmem hsnapshot hsame]
  rw [kept, hdistinct.dedup, List.Pairwise.insertionSort_eq (List.pairwise_map.mpr hsorted),
    List.filterMap_map]
  exact (List.filterMap_congr hown).trans List.filterMap_some

/-- A file that repeats neither a receive stamp nor a symbol in an envelope survives. -/
theorem survivesImport_of_distinct (hsymbol : symbol ≠ signalEnvelopeSymbol)
    (hsorted : snapshots.Pairwise fun snapshot later => snapshot.collectedMsc ≤ later.collectedMsc)
    (hdistinct : (snapshots.map SignalSnapshot.collectedMsc).Nodup)
    (hnamed : ∀ snapshot ∈ snapshots, (snapshot.result.map SentimentResult.symbol).Nodup) :
    SurvivesImport symbol snapshots := by
  have hkept : kept symbol snapshots = snapshots := kept_of_distinct hsorted hdistinct
  refine ⟨by rw [hkept], fun snapshot hsnapshot keptSnapshot hmem hsame => ?_⟩
  obtain ⟨timestamp, hcurrent⟩ := Timeline.mem_inForce.mp hsnapshot
  have hsnapshot' : snapshot ∈ snapshots :=
    (List.mem_insertionSort _).mp (mem_of_current_entries hcurrent)
  rw [hkept] at hmem
  have hone : keptSnapshot = snapshot := List.inj_on_of_nodup_map hdistinct hmem hsnapshot' hsame
  subst hone
  refine ⟨?_, rfl⟩
  rw [keptResult, if_neg hsymbol, extractSymbol, ← List.head?_filter]
  congr 1
  have hunique : (keptSnapshot.result.filter fun result => result.symbol = symbol).length ≤ 1 := by
    have hcount := (List.nodup_iff_count_le_one.mp (hnamed keptSnapshot hmem)) symbol
    rw [List.count_eq_countP, List.countP_map, List.countP_eq_length_filter] at hcount
    exact hcount
  generalize (keptSnapshot.result.filter fun result => decide (result.symbol = symbol)) = results
    at hunique
  match results, hunique with
  | [], _ => rfl
  | [result], _ => rfl

def symbolsOf (snapshots : List SignalSnapshot) : List String :=
  snapshots.flatMap fun snapshot => snapshot.result.map SentimentResult.symbol

variable {validateLine : String → Except SignalError SignalSnapshot} {lines : List String}
  {targetExists override : Bool} {imported : ImportedFile}

theorem rows_of_convert
    (hconvert : convertJsonlToParquet validateLine targetExists override lines =
      .ok (some imported)) (signalKind : String) :
    ∃ snapshots, imported.rows = explode snapshots ∧
      loadSignalSeries validateLine lines signalKind none none =
        .ok { signalKind := signalKind, snapshots := snapshots } := by
  unfold convertJsonlToParquet at hconvert
  obtain ⟨series, hload, hrest⟩ := Run.bind_eq_ok.mp hconvert
  refine ⟨series.snapshots, ?_, ?_⟩
  · split at hrest
    · cases Run.pure_eq_ok.mp hrest
    · obtain ⟨pipelineId, -, hrest⟩ := Run.bind_eq_ok.mp hrest
      obtain ⟨holes, -, hrest⟩ := Run.bind_eq_ok.mp hrest
      split at hrest
      · cases hrest
      · rw [← Option.some.inj (Run.pure_eq_ok.mp hrest)]
  · unfold loadSignalSeries at hload ⊢
    obtain ⟨snapshots, hread, hsorted⟩ := Run.bind_eq_ok.mp hload
    rw [hread, ← Run.pure_eq_ok.mp hsorted]
    rfl

/-- An imported file resolves as the file itself at all moments, for every symbol in it, exactly
if each of these symbols survives the import. -/
theorem import_preserves_iff
    (hconvert : convertJsonlToParquet validateLine targetExists override lines =
      .ok (some imported)) {signalKind : String} {series : SignalSeries}
    (hseries : loadSignalSeries validateLine lines signalKind none none = .ok series)
    (hprecise : ∀ snapshot ∈ series.snapshots, Precise snapshot) :
    (∀ symbol ∈ symbolsOf series.snapshots, ∀ timestamp,
      (SignalDataProvider.ofSeries (loadSignalSeriesFromParquet [imported.rows] signalKind symbol
        none none)).nearest timestamp symbol =
        (SignalDataProvider.ofSeries series).nearest timestamp symbol) ↔
      ∀ symbol ∈ symbolsOf series.snapshots, SurvivesImport symbol series.snapshots := by
  obtain ⟨snapshots, hrows, hload⟩ := rows_of_convert hconvert signalKind
  rw [hload] at hseries
  cases hseries
  rw [hrows]
  exact forall₂_congr fun symbol _ => nearest_agree_iff hprecise signalKind

end Files

section Examples

def fullEnvelope : SignalSnapshot where
  schemaVersion := "2.0"
  pipelineId := "news"
  seq := some 1
  streamEpoch := some 1
  result := [{ symbol := "EURUSD", signal := "BUY" }]
  collectedMsc := ofEpochMs 1000

def partialEnvelope : SignalSnapshot where
  schemaVersion := "2.0"
  pipelineId := "news"
  seq := some 2
  streamEpoch := some 1
  status := "partial"
  collectedMsc := ofEpochMs 1000

/-- An envelope received a second later, which changes the symbol and names another. -/
def laterEnvelope : SignalSnapshot where
  schemaVersion := "2.0"
  pipelineId := "news"
  seq := some 2
  streamEpoch := some 1
  result := [{ symbol := "EURUSD", signal := "SELL" }, { symbol := "GBPUSD", signal := "BUY" }]
  collectedMsc := ofEpochMs 2000

def fullLine : String :=
  "\x7b\"schema_version\":\"2.0\",\"pipeline_id\":\"news\",\"seq\":1,\"stream_epoch\":1," ++
    "\"result\":[\x7b\"symbol\":\"EURUSD\",\"signal\":\"BUY\"\x7d],\"collected_msc\":1000\x7d"

def partialLine : String :=
  "\x7b\"schema_version\":\"2.0\",\"pipeline_id\":\"news\",\"seq\":2,\"stream_epoch\":1," ++
    "\"status\":\"partial\",\"result\":[],\"collected_msc\":1000\x7d"

def laterLine : String :=
  "\x7b\"schema_version\":\"2.0\",\"pipeline_id\":\"news\",\"seq\":2,\"stream_epoch\":1," ++
    "\"result\":[\x7b\"symbol\":\"EURUSD\",\"signal\":\"SELL\"\x7d," ++
    "\x7b\"symbol\":\"GBPUSD\",\"signal\":\"BUY\"\x7d],\"collected_msc\":2000\x7d"

def validateEnvelope (line : String) : Except SignalError SignalSnapshot :=
  if line = fullLine then .ok fullEnvelope
  else if line = laterLine then .ok laterEnvelope
  else if line = partialLine then .ok partialEnvelope
  else .error (.invalidLine "not an envelope")

/-- What names no moment but its receive stamp is as precise as that. -/
theorem precise_of_collected {snapshot : SignalSnapshot}
    (hcollected : ofEpochMs (epochMs snapshot.collectedMsc) = snapshot.collectedMsc)
    (havailable : snapshot.availableMsc = none) (henvelope : snapshot.envelopeEvidenceAsOf = none)
    (hresult : ∀ result ∈ snapshot.result, result.evidenceAsOf = none) : Precise snapshot := by
  refine ⟨hcollected, ?_, ?_, ?_⟩
  · intro stamp hstamp
    rw [havailable] at hstamp
    cases hstamp
  · intro stamp hstamp
    rw [henvelope] at hstamp
    cases hstamp
  · intro result hmem stamp hstamp
    rw [hresult result hmem] at hstamp
    cases hstamp

theorem precise_fullEnvelope : Precise fullEnvelope :=
  precise_of_collected (by decide) rfl rfl (by decide)

/-- The second envelope turns a symbol and brings another, and the import shows both turns. -/
theorem import_preserves_iff_updated :
    convertJsonlToParquet validateEnvelope false false [fullLine, laterLine] =
        .ok (some ⟨"news", explode [fullEnvelope, laterEnvelope], []⟩) ∧
      symbolsOf [fullEnvelope, laterEnvelope] = ["EURUSD", "EURUSD", "GBPUSD"] ∧
      ∀ symbol ∈ symbolsOf [fullEnvelope, laterEnvelope], ∀ timestamp,
        (SignalDataProvider.ofSeries (loadSignalSeriesFromParquet
          [explode [fullEnvelope, laterEnvelope]] "news" symbol none none)).nearest timestamp symbol =
          (SignalDataProvider.ofSeries ⟨"news", [fullEnvelope, laterEnvelope]⟩).nearest
            timestamp symbol := by
  have hprecise : ∀ snapshot ∈ [fullEnvelope, laterEnvelope], Precise snapshot := by
    intro snapshot hsnapshot
    rcases List.mem_pair.mp hsnapshot with rfl | rfl
    · exact precise_fullEnvelope
    · exact precise_of_collected (by decide) rfl rfl (by decide)
  have hconvert : convertJsonlToParquet validateEnvelope false false [fullLine, laterLine] =
      .ok (some ⟨"news", explode [fullEnvelope, laterEnvelope], []⟩) := by
    decide +kernel
  have hseries : loadSignalSeries validateEnvelope [fullLine, laterLine] "news" none none =
      .ok ⟨"news", [fullEnvelope, laterEnvelope]⟩ := by
    decide +kernel
  refine ⟨hconvert, by decide,
    (import_preserves_iff hconvert hseries hprecise).mpr fun symbol hsymbol => ?_⟩
  have hplain : symbol ≠ signalEnvelopeSymbol := by
    rintro rfl
    exact absurd hsymbol (by decide)
  exact survivesImport_of_distinct hplain (by decide) (by decide) (by decide)

/-- Of two envelopes received together the import keeps the one that names the symbol, so a lookup
finds a result again that the later envelope had taken back. -/
theorem repeated_stamp_revives :
    ∃ imported series,
      convertJsonlToParquet validateEnvelope false false [fullLine, partialLine] =
        .ok (some imported) ∧
      loadSignalSeries validateEnvelope [fullLine, partialLine] "news" none none = .ok series ∧
      (∀ snapshot ∈ series.snapshots, Precise snapshot) ∧
      ¬ ∀ symbol ∈ symbolsOf series.snapshots, ∀ timestamp,
        (SignalDataProvider.ofSeries (loadSignalSeriesFromParquet [imported.rows] "news" symbol
          none none)).nearest timestamp symbol =
          (SignalDataProvider.ofSeries series).nearest timestamp symbol := by
  refine ⟨⟨"news", explode [fullEnvelope, partialEnvelope], []⟩,
    ⟨"news", [fullEnvelope, partialEnvelope]⟩, by decide +kernel, by decide +kernel, ?_, ?_⟩
  · intro snapshot hsnapshot
    rcases List.mem_cons.mp hsnapshot with rfl | hsnapshot
    · exact precise_fullEnvelope
    · rw [List.mem_singleton.mp hsnapshot]
      exact precise_of_collected (by decide) rfl rfl (by decide)
  · intro hsame
    have hagree := hsame "EURUSD" (by decide +kernel) (ofEpochMs 1000)
    exact absurd hagree (by decide +kernel)

end Examples

end Finiex.SignalRoundTrip
