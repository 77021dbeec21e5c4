import Finiex.PreparedStream
import Finiex.RendererAgreement
import Mathlib.Algebra.BigOperators.Group.List.Basic

namespace Finiex.PrerenderedBars

open Finiex.Types
open Finiex.Fees
open Finiex.Bars
open Finiex.BarHistory
open Finiex.RendererAgreement
open Finiex.TickFiles
open Finiex.PreparedStream
open Finiex.Lib
open Finiex.Lib.Memo

section Rendering

/-- `_load_all_ticks_for_symbol` and the sort before resampling: all rows, in an order of their
timestamps. -/
def LoadedTicks (files : List ArchivedFile) (loaded : List ArchivedRow) : Prop :=
  loaded.Perm (rowsOf (buildIndex files)) ∧
    loaded.Pairwise fun row later => row.timestamp ≤ later.timestamp

def importBars (symbol : String) (timeframe : Timeframe) (loaded : List ArchivedRow) : List Bar :=
  renderSingleTimeframe symbol timeframe (loaded.map tickRowOf)

/-- All bars the renderer of the tick loop makes of the ticks, the running one last. -/
def replayBars (requiredTimeframes : List Timeframe) (symbol : String) (timeframe : Timeframe)
    (ticks : List TickData) : List Bar :=
  let renderer := (CachingRenderer.run { renderer := { maxHistory := ticks.length } }
    requiredTimeframes ticks).renderer
  (renderer.getBarHistory symbol timeframe ++
    (renderer.getCurrentBar symbol timeframe).toList).map shown

def stampTick (symbol : String) (row : ArchivedRow) : TickData :=
  { tickOf symbol (tickRowOf row) with timestamp := row.timestamp }

end Rendering

section Slots

variable {symbol : String} {timeframe : Timeframe} {maxHistory : ℕ}

def barsOf (slot : BarSlot) : List Bar := slot.completedBars ++ slot.currentBar.toList

theorem replayBars_eq {requiredTimeframes : List Timeframe} (hdistinct : requiredTimeframes.Nodup)
    (hrequired : timeframe ∈ requiredTimeframes) {ticks : List TickData}
    (hsymbol : ∀ tick ∈ ticks, tick.symbol = symbol) :
    replayBars requiredTimeframes symbol timeframe ticks =
      (barsOf (slotAfter ticks.length timeframe ticks)).map shown := by
  obtain ⟨-, -, hslot⟩ := run_slot hdistinct hrequired hsymbol
  rw [replayBars, BarRenderer.getBarHistory, BarRenderer.getCurrentBar, hslot]
  rfl

structure Counts (timeframe : Timeframe) (ticks : List TickData) (slot : BarSlot) : Prop where
  periods : (barsOf slot).flatMap (fun bar => List.replicate bar.tickCount bar.timestamp) =
    ticks.map fun tick => getBarStartTime tick.timestamp timeframe
  start : slot.currentBarStart = slot.currentBar.map Bar.timestamp
  fewer : (barsOf slot).length ≤ ticks.length

theorem updateWithTick_tickCount (bar : Bar) (price volume : ℚ) :
    (bar.updateWithTick price volume).tickCount = bar.tickCount + 1 := rfl

theorem Counts.updateSlot {ticks : List TickData} {slot : BarSlot}
    (hcounts : Counts timeframe ticks slot) (hroom : ticks.length < maxHistory) (tick : TickData) :
    Counts timeframe (ticks ++ [tick]) (updateSlot maxHistory tick timeframe slot).1 := by
  obtain ⟨hperiods, hstart, hfewer⟩ := hcounts
  cases hbar : slot.currentBar with
  | none =>
      rw [barsOf, hbar, Option.toList_none, List.append_nil] at hperiods hfewer
      constructor
      · rw [List.map_append, ← hperiods]
        simp [barsOf, Bars.updateSlot, hbar, apply_ite Bar.tickCount, apply_ite Bar.timestamp,
          updateWithTick_timestamp, updateWithTick_tickCount]
      · simp [Bars.updateSlot, hbar, apply_ite Bar.timestamp, updateWithTick_timestamp]
      · simpa [barsOf, Bars.updateSlot, hbar] using hfewer
  | some current =>
      rw [hbar, Option.map_some] at hstart
      rw [barsOf, hbar, Option.toList_some, List.flatMap_append, List.flatMap_singleton] at hperiods
      rw [barsOf, hbar, Option.toList_some, List.length_append, List.length_singleton] at hfewer
      by_cases hsame : slot.currentBarStart = some (getBarStartTime tick.timestamp timeframe)
      · have hcurrent : current.timestamp = getBarStartTime tick.timestamp timeframe :=
          Option.some.inj (hstart.symm.trans hsame)
        constructor
        · rw [List.map_append, ← hperiods]
          simp [barsOf, Bars.updateSlot, hbar, hsame, apply_ite Bar.tickCount,
            apply_ite Bar.timestamp, updateWithTick_timestamp, updateWithTick_tickCount,
            List.replicate_succ', hcurrent]
        · simp [Bars.updateSlot, hbar, hsame, apply_ite Bar.timestamp, updateWithTick_timestamp,
            hcurrent]
        · simp only [barsOf, Bars.updateSlot, hbar, hsame, if_true, Option.toList_some,
            List.length_append, List.length_singleton]
          omega
      · have harchived : appendDeque maxHistory slot.completedBars
            { current with isComplete := true } =
            slot.completedBars ++ [{ current with isComplete := true }] := by
          refine tail_of_length_le ?_
          rw [List.length_append, List.length_singleton]
          omega
        constructor
        · rw [List.map_append, ← hperiods]
          simp [barsOf, Bars.updateSlot, hbar, hsame, harchived, apply_ite Bar.tickCount,
            apply_ite Bar.timestamp, updateWithTick_timestamp, updateWithTick_tickCount]
        · simp [Bars.updateSlot, hbar, hsame, apply_ite Bar.timestamp, updateWithTick_timestamp]
        · simp only [barsOf, Bars.updateSlot, hbar, hsame, if_false, harchived, Option.toList_some,
            List.length_append, List.length_singleton]
          omega

theorem slotAfter_counts {ticks : List TickData} (hroom : ticks.length ≤ maxHistory) :
    Counts timeframe ticks (slotAfter maxHistory timeframe ticks) := by
  induction ticks using List.reverseRecOn with
  | nil => exact ⟨rfl, rfl, le_rfl⟩
  | append_singleton ticks tick ih =>
      rw [List.length_append, List.length_singleton] at hroom
      rw [slotAfter_concat]
      exact (ih (by omega)).updateSlot (by omega) tick

theorem not_isBarComplete (t : Instant) (timeframe : Timeframe) :
    isBarComplete (getBarStartTime t timeframe) t timeframe = false := by
  rw [isBarComplete, decide_eq_false_iff_not, getBarStartTime_eq, not_le]
  exact Int.lt_ediv_add_one_mul_self t (duration_pos timeframe) |>.trans_eq (by ring)

theorem updateSlot_congr {tick tick' : TickData} (hsymbol : tick.symbol = tick'.symbol)
    (hmid : tick.mid = tick'.mid) (hvolume : tick.volume = tick'.volume)
    (hperiod : getBarStartTime tick.timestamp timeframe = getBarStartTime tick'.timestamp timeframe)
    (slot : BarSlot) :
    updateSlot maxHistory tick timeframe slot = updateSlot maxHistory tick' timeframe slot := by
  have hopen := not_isBarComplete tick.timestamp timeframe
  have hopen' := not_isBarComplete tick'.timestamp timeframe
  rw [hperiod] at hopen
  simp only [updateSlot, hsymbol, hmid, hvolume, hperiod, hopen, hopen']

theorem slotAfter_congr {rows : List ArchivedRow}
    (h : ∀ row ∈ rows, getBarStartTime ((tickRowOf row).timeMsc * 1000) timeframe =
      getBarStartTime row.timestamp timeframe) :
    slotAfter maxHistory timeframe (rows.map (tickOf symbol ∘ tickRowOf)) =
      slotAfter maxHistory timeframe (rows.map (stampTick symbol)) := by
  induction rows using List.reverseRecOn with
  | nil => rfl
  | append_singleton rows row ih =>
      rw [List.map_append, List.map_append, List.map_singleton, List.map_singleton,
        slotAfter_concat, slotAfter_concat, ih fun earlier hearlier =>
          h earlier (List.mem_append_left _ hearlier)]
      have hperiod := h row (List.mem_append_right _ List.mem_cons_self)
      refine congrArg Prod.fst (updateSlot_congr ?_ ?_ ?_ hperiod _)
      · rfl
      · rfl
      · rfl

theorem periods_of_bars (ticks : List TickData) :
    ((barsOf (slotAfter ticks.length timeframe ticks)).map shown).flatMap
        (fun bar => List.replicate bar.tickCount bar.timestamp) =
      ticks.map fun tick => getBarStartTime tick.timestamp timeframe := by
  rw [← (slotAfter_counts le_rfl).periods, List.flatMap_map]
  rfl

end Slots

section Rows

variable {symbol : String} {timeframe : Timeframe} {rows loaded : List ArchivedRow}

def periodOf (timeframe : Timeframe) (row : ArchivedRow) : Instant :=
  getBarStartTime row.timestamp timeframe

def midOf (row : ArchivedRow) : ℚ := (row.bid + row.ask) / 2

/-- No row of its period has an earlier timestamp. -/
def Opens (timeframe : Timeframe) (rows : List ArchivedRow) (row : ArchivedRow) : Prop :=
  ∀ other ∈ rows, periodOf timeframe other = periodOf timeframe row →
    row.timestamp ≤ other.timestamp

/-- No row of its period has a later timestamp. -/
def Closes (timeframe : Timeframe) (rows : List ArchivedRow) (row : ArchivedRow) : Prop :=
  ∀ other ∈ rows, periodOf timeframe other = periodOf timeframe row →
    other.timestamp ≤ row.timestamp

/-- The timestamps of the rows tell their bars: each row has its event time in the period of its
timestamp, and the rows that share the first or the last timestamp of a period have one price. -/
structure StampsTell (timeframe : Timeframe) (rows : List ArchivedRow) : Prop where
  periods : ∀ row ∈ rows, ∃ timeMsc ∈ row.timeMsc,
    getBarStartTime (timeMsc * 1000) timeframe = periodOf timeframe row
  opens : ∀ row ∈ rows, ∀ other ∈ rows, periodOf timeframe row = periodOf timeframe other →
    Opens timeframe rows row → Opens timeframe rows other → midOf row = midOf other
  closes : ∀ row ∈ rows, ∀ other ∈ rows, periodOf timeframe row = periodOf timeframe other →
    Closes timeframe rows row → Closes timeframe rows other → midOf row = midOf other

def binOf (timeframe : Timeframe) (loaded : List ArchivedRow) (period : Instant) :
    List ArchivedRow := loaded.filter fun row => periodOf timeframe row = period

theorem mem_binOf {row : ArchivedRow} {period : Instant} :
    row ∈ binOf timeframe loaded period ↔ row ∈ loaded ∧ periodOf timeframe row = period := by
  rw [binOf, List.mem_filter, decide_eq_true_eq]

theorem importBars_eq (symbol : String) (timeframe : Timeframe) (loaded : List ArchivedRow) :
    importBars symbol timeframe loaded = ((loaded.map (periodOf timeframe)).dedup).map fun period =>
      aggregate symbol timeframe period ((binOf timeframe loaded period).map tickRowOf) := by
  rw [importBars, renderSingleTimeframe_eq, List.map_map]
  refine List.map_congr_left fun period _ => ?_
  rw [List.filter_map]
  rfl

theorem periods_eq {loaded' : List ArchivedRow} (hperm : loaded.Perm loaded')
    (hsorted : loaded.Pairwise fun row later => row.timestamp ≤ later.timestamp)
    (hsorted' : loaded'.Pairwise fun row later => row.timestamp ≤ later.timestamp) :
    loaded.map (periodOf timeframe) = loaded'.map (periodOf timeframe) := by
  have hmono : ∀ {xs : List ArchivedRow},
      (xs.Pairwise fun row later => row.timestamp ≤ later.timestamp) →
      (xs.map (periodOf timeframe)).Pairwise (· ≤ ·) := fun h =>
    List.pairwise_map.mpr (h.imp fun hle => getBarStartTime_mono timeframe hle)
  exact (hperm.map _).eq_of_pairwise' (hmono hsorted) (hmono hsorted')

theorem opens_of_head {row : ArchivedRow} {period : Instant} (hperm : loaded.Perm rows)
    (hsorted : loaded.Pairwise fun row later => row.timestamp ≤ later.timestamp)
    (hhead : (binOf timeframe loaded period).head? = some row) :
    row ∈ rows ∧ periodOf timeframe row = period ∧ Opens timeframe rows row := by
  obtain ⟨later, hbin⟩ := List.head?_eq_some_iff.mp hhead
  obtain ⟨hmem, hperiod⟩ := mem_binOf.mp (List.mem_of_mem_head? hhead)
  refine ⟨hperm.mem_iff.mp hmem, hperiod, fun other hother hsame => ?_⟩
  have hotherBin : other ∈ binOf timeframe loaded period :=
    mem_binOf.mpr ⟨hperm.mem_iff.mpr hother, hsame.trans hperiod⟩
  have hordered : (binOf timeframe loaded period).Pairwise
      fun row later => row.timestamp ≤ later.timestamp := hsorted.sublist List.filter_sublist
  rw [hbin] at hotherBin hordered
  rcases List.mem_cons.mp hotherBin with rfl | hafter
  · exact le_rfl
  · exact (List.pairwise_cons.mp hordered).1 other hafter

theorem closes_of_last {row : ArchivedRow} {period : Instant} (hperm : loaded.Perm rows)
    (hsorted : loaded.Pairwise fun row later => row.timestamp ≤ later.timestamp)
    (hlast : (binOf timeframe loaded period).getLast? = some row) :
    row ∈ rows ∧ periodOf timeframe row = period ∧ Closes timeframe rows row := by
  obtain ⟨earlier, hbin⟩ := List.getLast?_eq_some_iff.mp hlast
  obtain ⟨hmem, hperiod⟩ := mem_binOf.mp (List.mem_of_mem_getLast? hlast)
  refine ⟨hperm.mem_iff.mp hmem, hperiod, fun other hother hsame => ?_⟩
  have hotherBin : other ∈ binOf timeframe loaded period :=
    mem_binOf.mpr ⟨hperm.mem_iff.mpr hother, hsame.trans hperiod⟩
  have hordered : (binOf timeframe loaded period).Pairwise
      fun row later => row.timestamp ≤ later.timestamp := hsorted.sublist List.filter_sublist
  rw [hbin] at hotherBin hordered
  rcases List.mem_append.mp hotherBin with hbefore | hsingle
  · exact (List.pairwise_append.mp hordered).2.2 other hbefore row List.mem_cons_self
  · rw [List.mem_singleton.mp hsingle]

theorem aggregate_open (period : Instant) (bin : List ArchivedRow) :
    (aggregate symbol timeframe period (bin.map tickRowOf)).open_ = (bin.head?.map midOf).getD 0 := by
  cases bin <;> rfl

theorem aggregate_close (period : Instant) (bin : List ArchivedRow) :
    (aggregate symbol timeframe period (bin.map tickRowOf)).close =
      (bin.getLast?.map midOf).getD 0 := by
  rw [aggregate, List.getLast?_map, Option.map_map]
  rfl

/-- Bins of the same rows that open and close at one price make the same bar. -/
theorem aggregate_eq {bin bin' : List ArchivedRow} (hperm : bin.Perm bin') (period : Instant)
    (hopen : bin.head?.map midOf = bin'.head?.map midOf)
    (hclose : bin.getLast?.map midOf = bin'.getLast?.map midOf) :
    aggregate symbol timeframe period (bin.map tickRowOf) =
      aggregate symbol timeframe period (bin'.map tickRowOf) := by
  have hmids : ((bin.map tickRowOf).map TickRow.mid).Perm ((bin'.map tickRowOf).map TickRow.mid) :=
    (hperm.map _).map _
  have hvolumes : ((bin.map tickRowOf).map TickRow.volume).Perm
      ((bin'.map tickRowOf).map TickRow.volume) := (hperm.map _).map _
  have hhead : (bin.map tickRowOf).head?.map TickRow.mid = (bin'.map tickRowOf).head?.map TickRow.mid := by
    rw [List.head?_map, List.head?_map, Option.map_map, Option.map_map]
    exact hopen
  have hlast : (bin.map tickRowOf).getLast?.map TickRow.mid =
      (bin'.map tickRowOf).getLast?.map TickRow.mid := by
    rw [List.getLast?_map, List.getLast?_map, Option.map_map, Option.map_map]
    exact hclose
  rw [aggregate, aggregate, hhead, hlast, hmids.foldl_eq, hmids.foldl_eq, hvolumes.sum_eq,
    List.length_map, List.length_map, hperm.length_eq]

/-- Where the first and the last price of each period are determined, any order by timestamp
gives the same bars. -/
theorem imports_agree {loaded' : List ArchivedRow} (htell : StampsTell timeframe rows)
    (hperm : loaded.Perm rows)
    (hsorted : loaded.Pairwise fun row later => row.timestamp ≤ later.timestamp)
    (hperm' : loaded'.Perm rows)
    (hsorted' : loaded'.Pairwise fun row later => row.timestamp ≤ later.timestamp) :
    importBars symbol timeframe loaded = importBars symbol timeframe loaded' := by
  rw [importBars_eq, importBars_eq, periods_eq (hperm.trans hperm'.symm) hsorted hsorted']
  refine List.map_congr_left fun period _ => ?_
  have hbins : (binOf timeframe loaded period).Perm (binOf timeframe loaded' period) :=
    (hperm.trans hperm'.symm).filter _
  apply aggregate_eq hbins
  · cases hhead : (binOf timeframe loaded period).head? with
    | none =>
        rw [List.head?_eq_none_iff] at hhead
        rw [hhead, List.nil_perm] at hbins
        rw [hbins]
        rfl
    | some row =>
        cases hhead' : (binOf timeframe loaded' period).head? with
        | none =>
            rw [List.head?_eq_none_iff] at hhead'
            rw [hhead', List.perm_nil] at hbins
            rw [hbins] at hhead
            cases hhead
        | some row' =>
            obtain ⟨hrow, hperiod, hopens⟩ := opens_of_head hperm hsorted hhead
            obtain ⟨hrow', hperiod', hopens'⟩ := opens_of_head hperm' hsorted' hhead'
            exact congrArg some
              (htell.opens row hrow row' hrow' (hperiod.trans hperiod'.symm) hopens hopens')
  · cases hlast : (binOf timeframe loaded period).getLast? with
    | none =>
        rw [List.getLast?_eq_none_iff] at hlast
        rw [hlast, List.nil_perm] at hbins
        rw [hbins]
        rfl
    | some row =>
        cases hlast' : (binOf timeframe loaded' period).getLast? with
        | none =>
            rw [List.getLast?_eq_none_iff] at hlast'
            rw [hlast', List.perm_nil] at hbins
            rw [hbins] at hlast
            cases hlast
        | some row' =>
            obtain ⟨hrow, hperiod, hcloses⟩ := closes_of_last hperm hsorted hlast
            obtain ⟨hrow', hperiod', hcloses'⟩ := closes_of_last hperm' hsorted' hlast'
            exact congrArg some
              (htell.closes row hrow row' hrow' (hperiod.trans hperiod'.symm) hcloses hcloses')

def byStamp (rows : List ArchivedRow) : List ArchivedRow :=
  rows.insertionSort fun row later => row.timestamp ≤ later.timestamp

theorem binOf_byStamp (rows : List ArchivedRow) (period : Instant) :
    binOf timeframe (byStamp rows) period = byStamp (binOf timeframe rows period) :=
  (insertionSort_filter _ _ rows).symm

theorem opens_front {row : ArchivedRow} (hopens : Opens timeframe rows row) :
    (binOf timeframe (byStamp (row :: rows.erase row)) (periodOf timeframe row)).head? = some row := by
  rw [binOf_byStamp, binOf, List.filter_cons_of_pos (by simp), byStamp, List.insertionSort_cons,
    orderedInsert_eq_cons]
  · rfl
  · intro other hother
    obtain ⟨hmem, hsame⟩ := mem_binOf.mp ((List.mem_insertionSort _).mp hother)
    exact hopens other (List.mem_of_mem_erase hmem) hsame

theorem closes_end {row : ArchivedRow} (hcloses : Closes timeframe rows row) :
    (binOf timeframe (byStamp (rows.erase row ++ [row])) (periodOf timeframe row)).getLast? =
      some row := by
  have hlast : binOf timeframe (rows.erase row ++ [row]) (periodOf timeframe row) =
      binOf timeframe (rows.erase row) (periodOf timeframe row) ++ [row] := by
    rw [binOf, List.filter_append, List.filter_singleton, decide_eq_true rfl]
    rfl
  rw [binOf_byStamp, hlast, byStamp, insertionSort_concat, List.getLast?_concat]
  intro other hother
  obtain ⟨hmem, hsame⟩ := mem_binOf.mp hother
  exact hcloses other (List.mem_of_mem_erase hmem) hsame

/-- If every order by timestamp gives the same bars, the first and the last price of each period
are determined. -/
theorem prices_of_imports {bars : List Bar}
    (h : ∀ loaded : List ArchivedRow, loaded.Perm rows →
      (loaded.Pairwise fun row later => row.timestamp ≤ later.timestamp) →
      importBars symbol timeframe loaded = bars) :
    (∀ row ∈ rows, ∀ other ∈ rows, periodOf timeframe row = periodOf timeframe other →
      Opens timeframe rows row → Opens timeframe rows other → midOf row = midOf other) ∧
    (∀ row ∈ rows, ∀ other ∈ rows, periodOf timeframe row = periodOf timeframe other →
      Closes timeframe rows row → Closes timeframe rows other → midOf row = midOf other) := by
  have hbar : ∀ loaded loaded' : List ArchivedRow, loaded.Perm rows → loaded'.Perm rows →
      ∀ row ∈ rows, aggregate symbol timeframe (periodOf timeframe row)
        ((binOf timeframe (byStamp loaded) (periodOf timeframe row)).map tickRowOf) =
      aggregate symbol timeframe (periodOf timeframe row)
        ((binOf timeframe (byStamp loaded') (periodOf timeframe row)).map tickRowOf) := by
    intro loaded loaded' hperm hperm' row hrow
    have hstamps : (byStamp loaded).Perm rows := (List.perm_insertionSort _ _).trans hperm
    have hstamps' : (byStamp loaded').Perm rows := (List.perm_insertionSort _ _).trans hperm'
    have hsorted : (byStamp loaded).Pairwise fun row later => row.timestamp ≤ later.timestamp :=
      List.pairwise_insertionSort _ _
    have hsorted' : (byStamp loaded').Pairwise fun row later => row.timestamp ≤ later.timestamp :=
      List.pairwise_insertionSort _ _
    have hsame := (h _ hstamps hsorted).trans (h _ hstamps' hsorted').symm
    rw [importBars_eq, importBars_eq, periods_eq (hstamps.trans hstamps'.symm) hsorted hsorted'] at hsame
    refine List.map_inj_left.mp hsame _ ?_
    rw [List.mem_dedup]
    exact List.mem_map_of_mem (hstamps'.mem_iff.mpr hrow)
  have hend : ∀ row ∈ rows, (rows.erase row ++ [row]).Perm rows := fun row hrow =>
    (List.perm_append_singleton row _).trans (List.perm_cons_erase hrow).symm
  constructor
  · intro row hrow other hother hsame hopens hopens'
    have hopen := congrArg Bar.open_ (hbar (row :: rows.erase row) (other :: rows.erase other)
      (List.perm_cons_erase hrow).symm (List.perm_cons_erase hother).symm row hrow)
    rw [aggregate_open, aggregate_open, opens_front hopens, hsame, opens_front hopens'] at hopen
    exact hopen
  · intro row hrow other hother hsame hcloses hcloses'
    have hclose := congrArg Bar.close (hbar (rows.erase row ++ [row]) (rows.erase other ++ [other])
      (hend row hrow) (hend other hother) row hrow)
    rw [aggregate_close, aggregate_close, closes_end hcloses, hsame, closes_end hcloses'] at hclose
    exact hclose

end Rows

section Results

variable {files : List ArchivedFile} {symbol : String} {timeframe : Timeframe}
  {requiredTimeframes : List Timeframe}

/-- The bars of ordered rows are those the renderer makes of them on their timestamps. -/
theorem replay_stamped (hdistinct : requiredTimeframes.Nodup)
    (hrequired : timeframe ∈ requiredTimeframes) {rows : List ArchivedRow}
    (hprices : ∀ row ∈ rows, 0 < row.bid ∧ 0 < row.ask)
    (hsorted : rows.Pairwise fun row later => row.timestamp ≤ later.timestamp) :
    replayBars requiredTimeframes symbol timeframe (rows.map (stampTick symbol)) =
      importBars symbol timeframe rows := by
  have hticks : ∀ tick ∈ rows.map (stampTick symbol), tick.symbol = symbol ∧ 0 < tick.mid := by
    intro tick htick
    obtain ⟨row, hrow, rfl⟩ := List.mem_map.mp htick
    exact ⟨rfl, mid_pos (hprices row hrow).1 (hprices row hrow).2⟩
  have hstamps : (rows.map (stampTick symbol)).Pairwise
      fun tick later => tick.timestamp ≤ later.timestamp := List.pairwise_map.mpr hsorted
  obtain ⟨hcompleted, hcurrent, -⟩ : Agrees (rows.map (stampTick symbol)).length symbol timeframe
      (rows.map (stampTick symbol)) _ := slotAfter_agrees hticks hstamps
  have hbars : importBars symbol timeframe rows =
      (openedPeriods timeframe (rows.map (stampTick symbol))).map
        (barOf symbol timeframe (rows.map (stampTick symbol))) := by
    rw [← rendered_eq hstamps, List.map_map]
    rfl
  have hlength : (importBars symbol timeframe rows).dropLast.length ≤
      (rows.map (stampTick symbol)).length := by
    have hperiods := (List.dedup_sublist (rows.map (periodOf timeframe))).length_le
    rw [List.length_dropLast, importBars_eq, List.length_map, List.length_map]
    rw [List.length_map] at hperiods
    omega
  rw [← hbars] at hcompleted hcurrent
  rw [tail_of_length_le hlength] at hcompleted
  rw [replayBars_eq hdistinct hrequired fun tick htick => (hticks tick htick).1, barsOf,
    List.map_append, hcompleted, ← Option.toList_map, hcurrent]
  exact dropLast_append_getLast _

/-- A replay on two clocks makes the same bars if they agree on the periods, and only then. -/
theorem replay_clock_iff (hdistinct : requiredTimeframes.Nodup)
    (hrequired : timeframe ∈ requiredTimeframes) (rows : List ArchivedRow) :
    replayBars requiredTimeframes symbol timeframe (rows.map (tickOf symbol ∘ tickRowOf)) =
        replayBars requiredTimeframes symbol timeframe (rows.map (stampTick symbol)) ↔
      ∀ row ∈ rows, getBarStartTime ((tickRowOf row).timeMsc * 1000) timeframe =
        periodOf timeframe row := by
  have hsymbol : ∀ tick ∈ rows.map (tickOf symbol ∘ tickRowOf), tick.symbol = symbol := by
    intro tick htick
    obtain ⟨row, -, rfl⟩ := List.mem_map.mp htick
    rfl
  have hsymbol' : ∀ tick ∈ rows.map (stampTick symbol), tick.symbol = symbol := by
    intro tick htick
    obtain ⟨row, -, rfl⟩ := List.mem_map.mp htick
    rfl
  rw [replayBars_eq hdistinct hrequired hsymbol, replayBars_eq hdistinct hrequired hsymbol']
  constructor
  · intro hbars
    have hperiods := congrArg
      (List.flatMap fun bar => List.replicate bar.tickCount bar.timestamp) hbars
    rw [periods_of_bars, periods_of_bars, List.map_map, List.map_map] at hperiods
    exact List.map_inj_left.mp hperiods
  · intro hsame
    rw [List.length_map, List.length_map, slotAfter_congr hsame]

/-- The bars written for validated files are those of any replay of all their ticks, exactly if
the timestamps tell the bars. -/
theorem prerendered_iff {files : List ArchivedFile}
    (hvalid : ∀ file ∈ files, (validateFile file).errors = []) (symbol : String)
    {requiredTimeframes : List Timeframe} (hdistinct : requiredTimeframes.Nodup)
    {timeframe : Timeframe} (hrequired : timeframe ∈ requiredTimeframes)
    {startTime endTime : Instant} (hcover : ∀ file ∈ files, ∀ row ∈ file.rows,
      startTime ≤ row.timestamp ∧ row.timestamp ≤ endTime) :
    (∃ ticks, prepareStream (buildIndex files) symbol (.timespan startTime endTime) = .ok ticks ∧
      ∀ loaded, LoadedTicks files loaded →
        importBars symbol timeframe loaded =
          replayBars requiredTimeframes symbol timeframe ticks) ↔
    StampsTell timeframe (files.flatMap ArchivedFile.rows) := by
  have hindex := rowsOf_buildIndex files
  have hsortedPerm : (sortRows (rowsOf (buildIndex files))).Perm (rowsOf (buildIndex files)) :=
    List.perm_insertionSort _ _
  have hperm := hsortedPerm.trans hindex
  have hsorted := sortRows_timestamps (rowsOf (buildIndex files))
  have hprices : ∀ row ∈ sortRows (rowsOf (buildIndex files)), 0 < row.bid ∧ 0 < row.ask := by
    intro row hrow
    obtain ⟨file, hfile, hmem⟩ := List.mem_flatMap.mp (hperm.mem_iff.mp hrow)
    exact (sound_of_valid (hvalid file hfile)).prices row hmem
  have hstamped : replayBars requiredTimeframes symbol timeframe
      ((sortRows (rowsOf (buildIndex files))).map (stampTick symbol)) = _ :=
    replay_stamped hdistinct hrequired hprices hsorted
  constructor
  · rintro ⟨ticks, hstream, hbars⟩
    obtain ⟨-, htimed, rfl⟩ := prepareStream_iff.mp hstream
    rw [cut, servedRows_of_cover hcover] at htimed hbars
    rw [ticks_of_timed htimed] at hbars
    obtain ⟨hopens, hcloses⟩ := prices_of_imports fun loaded hloaded hordered =>
      hbars loaded ⟨hloaded.trans hindex.symm, hordered⟩
    refine ⟨fun row hrow => ?_, hopens, hcloses⟩
    have hserved := hperm.mem_iff.mpr hrow
    have hclock := (replay_clock_iff hdistinct hrequired _).mp
      ((hbars _ ⟨hsortedPerm, hsorted⟩).symm.trans hstamped.symm) row hserved
    obtain ⟨timeMsc, htime⟩ := Option.isSome_iff_exists.mp (htimed row hserved)
    refine ⟨timeMsc, htime, ?_⟩
    rw [tickRowOf, htime] at hclock
    exact hclock
  · intro htell
    have htime : ∀ row ∈ sortRows (rowsOf (buildIndex files)), ∃ timeMsc, row.timeMsc = some timeMsc ∧
        getBarStartTime (timeMsc * 1000) timeframe = periodOf timeframe row := fun row hrow =>
      htell.periods row (hperm.mem_iff.mp hrow)
    have htimed : ∀ row ∈ sortRows (rowsOf (buildIndex files)), row.timeMsc.isSome = true := by
      intro row hrow
      obtain ⟨timeMsc, hsome, -⟩ := htime row hrow
      rw [hsome]
      rfl
    have hreadable : ∀ entry ∈ buildIndex files, entry.file.hasTimeMsc = true := by
      intro entry hentry
      obtain ⟨file, hfile, hscan⟩ := mem_buildIndex.mp hentry
      obtain ⟨⟨first, hfirst, -⟩, -⟩ := scanFile_bounds hscan
      rw [← (scanFile_file hscan).1] at hfirst
      have hserved : first ∈ sortRows (rowsOf (buildIndex files)) :=
        hsortedPerm.mem_iff.mpr (List.mem_flatMap.mpr ⟨entry, hentry, hfirst⟩)
      rw [← entry.file.uniform first hfirst]
      exact htimed first hserved
    refine ⟨_, prepareStream_iff.mpr ⟨?_, ?_, rfl⟩, fun loaded hloaded => ?_⟩
    · rintro ⟨entry, hentry, hread⟩
      exact ⟨entry, hentry, hread, hreadable entry hentry⟩
    · rw [cut, servedRows_of_cover hcover]
      exact htimed
    · rw [cut, servedRows_of_cover hcover, ticks_of_timed htimed]
      rw [imports_agree htell (hloaded.1.trans hindex) hloaded.2 hperm hsorted, ← hstamped]
      refine ((replay_clock_iff hdistinct hrequired _).mpr fun row hrow => ?_).symm
      obtain ⟨timeMsc, hsome, hperiod⟩ := htime row hrow
      rw [tickRowOf, hsome]
      exact hperiod

def quietFile : ArchivedFile :=
  fileOfRows [rowAtMsc 1000 100, rowAtMsc 10000 101, rowAtMsc 20500 102] (by decide)

instance (timeframe : Timeframe) (rows : List ArchivedRow) :
    Decidable (StampsTell timeframe rows) :=
  decidable_of_iff
    ((∀ row ∈ rows, (row.timeMsc.any fun timeMsc =>
        decide (getBarStartTime (timeMsc * 1000) timeframe = periodOf timeframe row)) = true) ∧
      (∀ row ∈ rows, ∀ other ∈ rows, periodOf timeframe row = periodOf timeframe other →
        (∀ x ∈ rows, periodOf timeframe x = periodOf timeframe row → row.timestamp ≤ x.timestamp) →
        (∀ x ∈ rows, periodOf timeframe x = periodOf timeframe other →
          other.timestamp ≤ x.timestamp) → midOf row = midOf other) ∧
      (∀ row ∈ rows, ∀ other ∈ rows, periodOf timeframe row = periodOf timeframe other →
        (∀ x ∈ rows, periodOf timeframe x = periodOf timeframe row → x.timestamp ≤ row.timestamp) →
        (∀ x ∈ rows, periodOf timeframe x = periodOf timeframe other →
          x.timestamp ≤ other.timestamp) → midOf row = midOf other))
    ⟨fun ⟨hperiods, hopens, hcloses⟩ => ⟨fun row hrow => by
        obtain ⟨timeMsc, htime, hperiod⟩ := (Option.any_eq_true _ _).mp (hperiods row hrow)
        exact ⟨timeMsc, htime, of_decide_eq_true hperiod⟩, hopens, hcloses⟩,
      fun ⟨hperiods, hopens, hcloses⟩ => ⟨fun row hrow => by
        obtain ⟨timeMsc, htime, hperiod⟩ := hperiods row hrow
        exact (Option.any_eq_true _ _).mpr ⟨timeMsc, htime, decide_eq_true hperiod⟩, hopens,
        hcloses⟩⟩

theorem prerendered_iff_quiet :
    ∃ ticks, prepareStream (buildIndex [quietFile]) "BTCUSD" (.timespan 0 60000000) = .ok ticks ∧
      ∀ loaded, LoadedTicks [quietFile] loaded →
        importBars "BTCUSD" .m1 loaded = replayBars [.m1] "BTCUSD" .m1 ticks :=
  (prerendered_iff (by decide +kernel) "BTCUSD" (by decide) (by decide)
    (by decide +kernel)).mpr (by decide +kernel)

/-- Of two ticks in the last second of a bar, the importer may take either as the close. -/
theorem burst_close_undetermined :
    (∀ file ∈ [burstFile], (validateFile file).errors = []) ∧
      ¬∃ ticks, prepareStream (buildIndex [burstFile]) "BTCUSD" (.timespan 0 60000000) = .ok ticks ∧
        ∀ loaded, LoadedTicks [burstFile] loaded →
          importBars "BTCUSD" .m1 loaded = replayBars [.m1] "BTCUSD" .m1 ticks := by
  refine ⟨by decide +kernel, ?_⟩
  rintro ⟨ticks, -, hbars⟩
  have hfirst := hbars [rowAtMsc 1000 100, rowAtMsc 10000 101, rowAtMsc 10500 102]
    (by constructor <;> decide +kernel)
  have hsecond := hbars [rowAtMsc 1000 100, rowAtMsc 10500 102, rowAtMsc 10000 101]
    (by constructor <;> decide +kernel)
  exact absurd (hfirst.trans hsecond.symm) (by decide +kernel)

end Results

end Finiex.PrerenderedBars
