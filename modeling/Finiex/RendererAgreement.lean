import Finiex.BarHistory
import Finiex.Lib.Memo
import Mathlib.Data.List.Sort

namespace Finiex.RendererAgreement

open Finiex.Types
open Finiex.Fees
open Finiex.Bars
open Finiex.BarHistory
open Finiex.Lib
open Finiex.Lib.Memo

section Cache

def minuteOf (t : Instant) : ℤ := t / microsecondsPerMinute

def barStartCache : Use (Instant × Timeframe) Instant (ℤ × Timeframe) where
  key := fun (t, timeframe) => (minuteOf t, timeframe)
  compute := fun (t, timeframe) => getBarStartTime t timeframe
  limit := 10000
  dropped := 5000

theorem getBarStartTime_minute (t : Instant) (timeframe : Timeframe) :
    getBarStartTime t timeframe =
      minuteOf t / timeframe.minutes * timeframe.minutes * microsecondsPerMinute := by
  rw [getBarStartTime_eq, Timeframe.duration, minuteOf, mul_comm timeframe.minutes,
    ← Int.ediv_ediv_of_nonneg (by decide)]
  ring

theorem barStartCache_respects : barStartCache.Respects := by
  rintro ⟨s, timeframe⟩ ⟨t, timeframe'⟩ hkey
  obtain ⟨hminute, rfl⟩ := Prod.mk.inj hkey
  show getBarStartTime s timeframe = getBarStartTime t timeframe
  rw [getBarStartTime_minute, getBarStartTime_minute, hminute]

structure CachingRenderer where
  renderer : BarRenderer := {}
  barStarts : Dict (ℤ × Timeframe) Instant := ∅

/-- One timeframe's share of a tick, with the bar start time it was given. -/
def updateSlotAt (maxHistory : ℕ) (tick : TickData) (timeframe : Timeframe) (barStart : Instant)
    (slot : BarSlot) : BarSlot × Bool :=
  let opened : Bar := { symbol := tick.symbol, timeframe := timeframe, timestamp := barStart }
  let finish := fun bar : Bar =>
    let updated := bar.updateWithTick tick.mid tick.volume
    if isBarComplete barStart tick.timestamp timeframe then { updated with isComplete := true }
    else updated
  match slot.currentBar with
  | none =>
      ({ slot with currentBar := some (finish opened), currentBarStart := some barStart }, false)
  | some current =>
      if slot.currentBarStart = some barStart then
        ({ slot with currentBar := some (finish current) }, false)
      else
        ({ currentBar := some (finish opened)
           currentBarStart := some barStart
           completedBars :=
             appendDeque maxHistory slot.completedBars { current with isComplete := true } }, true)

theorem updateSlot_eq (maxHistory : ℕ) (tick : TickData) (timeframe : Timeframe) (slot : BarSlot) :
    updateSlot maxHistory tick timeframe slot =
      updateSlotAt maxHistory tick timeframe (getBarStartTime tick.timestamp timeframe) slot := rfl

/-- What the loop over the timeframes writes: the slots, and which timeframes closed a bar. -/
structure Updates where
  slots : Timeframe → String → BarSlot
  closed : Timeframe → Bool := fun _ => false

def Updates.visit (maxHistory : ℕ) (tick : TickData) (updates : Updates)
    (input : Instant × Timeframe) (barStart : Instant) : Updates :=
  let result := updateSlotAt maxHistory tick input.2 barStart (updates.slots input.2 tick.symbol)
  { slots := Function.update updates.slots input.2
      (Function.update (updates.slots input.2) tick.symbol result.1)
    closed := Function.update updates.closed input.2 result.2 }

def CachingRenderer.updateCurrentBars (caching : CachingRenderer) (tick : TickData)
    (requiredTimeframes : List Timeframe) : CachingRenderer × (Timeframe → Bool) :=
  let (updates, barStarts) :=
    barStartCache.loop (Updates.visit caching.renderer.maxHistory tick)
      { slots := caching.renderer.slots } caching.barStarts
      (requiredTimeframes.map fun timeframe => (tick.timestamp, timeframe))
  ({ renderer := { caching.renderer with slots := updates.slots }, barStarts := barStarts },
    updates.closed)

theorem foldl_visit (maxHistory : ℕ) (tick : TickData) {timeframes : List Timeframe}
    (hdistinct : timeframes.Nodup) (updates : Updates) :
    let visited := timeframes.foldl (fun updates timeframe => updates.visit maxHistory tick
      (tick.timestamp, timeframe) (getBarStartTime tick.timestamp timeframe)) updates
    (∀ timeframe symbol, visited.slots timeframe symbol =
      if timeframe ∈ timeframes ∧ symbol = tick.symbol then
        (updateSlot maxHistory tick timeframe (updates.slots timeframe tick.symbol)).1
      else updates.slots timeframe symbol) ∧
    ∀ timeframe, visited.closed timeframe =
      if timeframe ∈ timeframes then
        (updateSlot maxHistory tick timeframe (updates.slots timeframe tick.symbol)).2
      else updates.closed timeframe := by
  induction timeframes generalizing updates with
  | nil => simp
  | cons first timeframes ih =>
      obtain ⟨hfirst, hrest⟩ := List.nodup_cons.mp hdistinct
      obtain ⟨hslots, hclosed⟩ := ih hrest (updates.visit maxHistory tick (tick.timestamp, first)
        (getBarStartTime tick.timestamp first))
      rw [List.foldl_cons]
      refine ⟨fun timeframe symbol => ?_, fun timeframe => ?_⟩
      · rw [hslots]
        by_cases hsame : timeframe = first
        · subst hsame
          by_cases hsymbol : symbol = tick.symbol
          · simp [hfirst, hsymbol, Updates.visit, updateSlot_eq]
          · simp [hsymbol, Updates.visit]
        · simp [hsame, Updates.visit]
      · rw [hclosed]
        by_cases hsame : timeframe = first
        · subst hsame
          simp [hfirst, Updates.visit, updateSlot_eq]
        · simp [hsame, Updates.visit]

theorem updateCurrentBars_eq {caching : CachingRenderer}
    (hsound : barStartCache.Sound caching.barStarts) (tick : TickData)
    {requiredTimeframes : List Timeframe} (hdistinct : requiredTimeframes.Nodup) :
    (caching.updateCurrentBars tick requiredTimeframes).1.renderer =
        (caching.renderer.updateCurrentBars tick requiredTimeframes).1 ∧
      (caching.updateCurrentBars tick requiredTimeframes).2 =
        (caching.renderer.updateCurrentBars tick requiredTimeframes).2 ∧
      barStartCache.Sound (caching.updateCurrentBars tick requiredTimeframes).1.barStarts := by
  obtain ⟨hupdates, hkept⟩ := loop_eq barStartCache_respects
    (Updates.visit caching.renderer.maxHistory tick) { slots := caching.renderer.slots } hsound
    (requiredTimeframes.map fun timeframe => (tick.timestamp, timeframe))
  rw [List.foldl_map] at hupdates
  obtain ⟨hslots, hclosed⟩ := foldl_visit caching.renderer.maxHistory tick hdistinct
    { slots := caching.renderer.slots }
  refine ⟨?_, ?_, hkept⟩
  · simp only [CachingRenderer.updateCurrentBars, BarRenderer.updateCurrentBars, hupdates]
    congr 1
    funext timeframe symbol
    exact hslots timeframe symbol
  · simp only [CachingRenderer.updateCurrentBars, BarRenderer.updateCurrentBars, hupdates]
    funext timeframe
    rw [show (barStartCache.compute) = fun x => getBarStartTime x.1 x.2 from rfl]
    rw [hclosed timeframe]
    split
    · next hmem => simp [hmem]
    · next hmem => simp [hmem]

end Cache

section Rows

variable {symbol : String} {timeframe : Timeframe}

def rowOf (tick : TickData) : TickRow where
  timestamp := tick.timestamp
  timeMsc := tick.timeMsc
  collectedMsc := tick.collectedMsc
  bid := tick.bid
  ask := tick.ask
  volume := tick.volume

/-- A bar as the other renderer writes it, without the flag of the running one. -/
def shown (bar : Bar) : Bar := { bar with isComplete := false }

/-- `_prepare_ticks_for_resampling` and `_render_single_timeframe`, with the sort it uses. -/
def renderTimeframe (sortIndex : List TickRow → List TickRow) (symbol : String)
    (timeframe : Timeframe) (rows : List TickRow) : List Bar :=
  renderSingleTimeframe symbol timeframe (sortIndex rows)

def barOf (symbol : String) (timeframe : Timeframe) (ticks : List TickData) (period : Instant) :
    Bar :=
  aggregate symbol timeframe period
    ((ticks.filter fun tick => getBarStartTime tick.timestamp timeframe = period).map rowOf)

theorem mem_openedPeriods {ticks : List TickData} {period : Instant} :
    period ∈ openedPeriods timeframe ticks ↔
      ∃ tick ∈ ticks, getBarStartTime tick.timestamp timeframe = period := by
  induction ticks using List.reverseRecOn with
  | nil => simp [openedPeriods]
  | append_singleton ticks tick ih =>
      rw [openedPeriods_concat]
      split
      · next hlast =>
          rw [ih]
          constructor
          · rintro ⟨earlier, hearlier, hperiod⟩
            exact ⟨earlier, List.mem_append_left _ hearlier, hperiod⟩
          · rintro ⟨later, hlater, hperiod⟩
            rcases List.mem_append.mp hlater with hold | hnew
            · exact ⟨later, hold, hperiod⟩
            · rw [List.mem_singleton] at hnew
              subst hnew
              rw [hperiod] at hlast
              exact ih.mp (List.mem_of_mem_getLast? hlast)
      · rw [List.mem_append, ih, List.mem_singleton]
        constructor
        · rintro (⟨earlier, hearlier, hperiod⟩ | hnew)
          · exact ⟨earlier, List.mem_append_left _ hearlier, hperiod⟩
          · exact ⟨tick, List.mem_append_right _ List.mem_cons_self, hnew.symm⟩
        · rintro ⟨later, hlater, hperiod⟩
          rcases List.mem_append.mp hlater with hold | hnew
          · exact .inl ⟨later, hold, hperiod⟩
          · rw [List.mem_singleton] at hnew
            exact .inr (hnew ▸ hperiod.symm)

theorem rendered_eq {ticks : List TickData}
    (hsorted : ticks.Pairwise fun tick later => tick.timestamp ≤ later.timestamp) :
    renderSingleTimeframe symbol timeframe (ticks.map rowOf) =
      (openedPeriods timeframe ticks).map (barOf symbol timeframe ticks) := by
  have hperiods : ((ticks.map rowOf).map fun row => getBarStartTime row.timestamp timeframe).dedup =
      openedPeriods timeframe ticks := by
    have hascending : ((renderSingleTimeframe symbol timeframe (ticks.map rowOf)).map
        Bar.timestamp).Pairwise (· < ·) :=
      rendered_ascending symbol timeframe (List.pairwise_map.mpr hsorted)
    rw [rendered_timestamps] at hascending
    refine hascending.eq_of_mem_iff (openedPeriods_ascending hsorted).1 fun period => ?_
    rw [List.mem_dedup, List.map_map, List.mem_map, mem_openedPeriods]
    rfl
  rw [renderSingleTimeframe_eq, hperiods]
  refine List.map_congr_left fun period _ => ?_
  rw [barOf, List.filter_map]
  rfl

theorem aggregate_concat (period : Instant) {rows : List TickRow}
    (hpositive : ∀ row ∈ rows, 0 < row.mid) (row : TickRow) :
    aggregate symbol timeframe period (rows ++ [row]) =
      (aggregate symbol timeframe period rows).updateWithTick row.mid row.volume := by
  cases rows with
  | nil => simp [aggregate, Bar.updateWithTick]
  | cons first rows =>
      have hopen : first.mid ≠ 0 := (hpositive first List.mem_cons_self).ne'
      have hlast : (first :: (rows ++ [row])).getLast? = some row := by
        rw [← List.cons_append, List.getLast?_concat]
      simp only [aggregate, Bar.updateWithTick, List.cons_append, List.head?_cons, Option.map_some,
        Option.getD_some, hopen, if_false, hlast, List.map_cons, List.map_append, List.map_nil,
        List.foldl_cons, List.foldl_append, List.foldl_nil, List.sum_cons, List.sum_append,
        List.sum_nil, List.length_cons, List.length_append, List.length_nil, zero_add,
        add_zero, add_assoc]

theorem barOf_concat {ticks : List TickData} (hpositive : ∀ tick ∈ ticks, 0 < tick.mid)
    (tick : TickData) (period : Instant) :
    barOf symbol timeframe (ticks ++ [tick]) period =
      if getBarStartTime tick.timestamp timeframe = period then
        (barOf symbol timeframe ticks period).updateWithTick tick.mid tick.volume
      else barOf symbol timeframe ticks period := by
  unfold barOf
  rw [List.filter_append, List.map_append]
  split
  · next hperiod =>
      rw [List.filter_singleton, decide_eq_true hperiod, cond_true]
      refine aggregate_concat period (fun row hrow => ?_) (rowOf tick)
      obtain ⟨earlier, hearlier, rfl⟩ := List.mem_map.mp hrow
      exact hpositive earlier (List.mem_of_mem_filter hearlier)
  · next hperiod =>
      rw [List.filter_singleton, decide_eq_false hperiod, cond_false, List.map_nil,
        List.append_nil]

def openedBar (symbol : String) (timeframe : Timeframe) (period : Instant) : Bar where
  symbol := symbol
  timeframe := timeframe
  timestamp := period

theorem barOf_untouched {ticks : List TickData} {period : Instant}
    (hperiod : period ∉ openedPeriods timeframe ticks) :
    barOf symbol timeframe ticks period = openedBar symbol timeframe period := by
  have hnone : ticks.filter (fun tick => getBarStartTime tick.timestamp timeframe = period) = [] := by
    refine List.filter_eq_nil_iff.mpr fun tick htick heq => hperiod ?_
    exact mem_openedPeriods.mpr ⟨tick, htick, of_decide_eq_true heq⟩
  rw [barOf, hnone]
  rfl

end Rows

section Agreement

variable {symbol : String} {timeframe : Timeframe} {maxHistory : ℕ}

/-- The slot holds the rendered bars of the ticks so far: the last of them is running. -/
structure Agrees (maxHistory : ℕ) (symbol : String) (timeframe : Timeframe)
    (ticks : List TickData) (slot : BarSlot) : Prop where
  completed : slot.completedBars.map shown =
    tail maxHistory ((openedPeriods timeframe ticks).map (barOf symbol timeframe ticks)).dropLast
  current : slot.currentBar.map shown =
    ((openedPeriods timeframe ticks).map (barOf symbol timeframe ticks)).getLast?
  start : slot.currentBarStart = (openedPeriods timeframe ticks).getLast?

/-- A tick that stays in the running period changes its bar, and no other. -/
theorem bars_concat_same {ticks : List TickData} {tick : TickData}
    (hpositive : ∀ earlier ∈ ticks, 0 < earlier.mid)
    (hascending : (openedPeriods timeframe ticks).Pairwise (· < ·))
    (hsame : (openedPeriods timeframe ticks).getLast? =
      some (getBarStartTime tick.timestamp timeframe)) :
    (openedPeriods timeframe ticks).map (barOf symbol timeframe (ticks ++ [tick])) =
      ((openedPeriods timeframe ticks).map (barOf symbol timeframe ticks)).dropLast ++
        [(barOf symbol timeframe ticks
          (getBarStartTime tick.timestamp timeframe)).updateWithTick tick.mid tick.volume] := by
  obtain ⟨earlier, hearlier⟩ := List.getLast?_eq_some_iff.mp hsame
  rw [hearlier] at hascending ⊢
  rw [List.map_append, List.map_append, List.map_singleton, List.map_singleton,
    List.dropLast_concat, barOf_concat hpositive tick, if_pos rfl]
  congr 1
  refine List.map_congr_left fun period hperiod => ?_
  have hlt := (List.pairwise_append.mp hascending).2.2 period hperiod _ List.mem_cons_self
  rw [barOf_concat hpositive tick, if_neg hlt.ne']

theorem bars_concat_new {ticks : List TickData} {tick : TickData}
    (hpositive : ∀ earlier ∈ ticks, 0 < earlier.mid)
    (hnew : getBarStartTime tick.timestamp timeframe ∉ openedPeriods timeframe ticks) :
    (openedPeriods timeframe ticks ++ [getBarStartTime tick.timestamp timeframe]).map
        (barOf symbol timeframe (ticks ++ [tick])) =
      (openedPeriods timeframe ticks).map (barOf symbol timeframe ticks) ++
        [(openedBar symbol timeframe
          (getBarStartTime tick.timestamp timeframe)).updateWithTick tick.mid tick.volume] := by
  rw [List.map_append, List.map_singleton, barOf_concat hpositive tick, if_pos rfl,
    barOf_untouched hnew]
  congr 1
  refine List.map_congr_left fun period hperiod => ?_
  have hother : getBarStartTime tick.timestamp timeframe ≠ period := by
    rintro rfl
    exact hnew hperiod
  rw [barOf_concat hpositive tick, if_neg hother]

theorem shown_updateWithTick (bar : Bar) (price volume : ℚ) :
    shown (bar.updateWithTick price volume) = (shown bar).updateWithTick price volume := rfl

theorem shown_flag (bar : Bar) (flag : Bool) : shown { bar with isComplete := flag } = shown bar :=
  rfl

theorem Agrees.updateSlot {ticks : List TickData} {slot : BarSlot}
    (hagrees : Agrees maxHistory symbol timeframe ticks slot) {tick : TickData}
    (hsymbol : tick.symbol = symbol) (hpositive : ∀ earlier ∈ ticks, 0 < earlier.mid)
    (hsorted : (ticks ++ [tick]).Pairwise fun tick later => tick.timestamp ≤ later.timestamp) :
    Agrees maxHistory symbol timeframe (ticks ++ [tick])
      (updateSlot maxHistory tick timeframe slot).1 := by
  obtain ⟨hcompleted, hcurrent, hstart⟩ := hagrees
  have hascending : (openedPeriods timeframe (ticks ++ [tick])).Pairwise (· < ·) :=
    (openedPeriods_ascending hsorted).1
  have hbefore : (openedPeriods timeframe ticks).Pairwise (· < ·) :=
    (openedPeriods_ascending (List.pairwise_append.mp hsorted).1).1
  rw [openedPeriods_concat] at hascending
  by_cases hsame : (openedPeriods timeframe ticks).getLast? =
      some (getBarStartTime tick.timestamp timeframe)
  · -- the running bar takes the tick
    have hbars : _ = _ ++ [(barOf symbol timeframe ticks _).updateWithTick _ _] :=
      bars_concat_same hpositive hbefore hsame
    have hopen : slot.currentBarStart = some (getBarStartTime tick.timestamp timeframe) :=
      hstart.trans hsame
    rw [List.getLast?_map, hsame, Option.map_some] at hcurrent
    obtain ⟨current, hbar, hshown⟩ := Option.map_eq_some_iff.mp hcurrent
    constructor
    · rw [openedPeriods_concat, if_pos hsame, hbars, List.dropLast_concat]
      simpa only [Bars.updateSlot, hbar, hopen, if_true] using hcompleted
    · rw [openedPeriods_concat, if_pos hsame, hbars, List.getLast?_concat]
      simp only [Bars.updateSlot, hbar, hopen, if_true, Option.map_some, apply_ite shown,
        shown_flag, ite_self, shown_updateWithTick, hshown]
    · rw [openedPeriods_concat, if_pos hsame]
      simpa only [Bars.updateSlot, hbar, hopen, if_true] using hsame.symm
  · -- the running bar, if there is one, is archived
    rw [if_neg hsame] at hascending
    have hnew : getBarStartTime tick.timestamp timeframe ∉ openedPeriods timeframe ticks :=
      fun hmem => lt_irrefl _
        ((List.pairwise_append.mp hascending).2.2 _ hmem _ List.mem_cons_self)
    have hbars : _ = _ ++ [(openedBar symbol timeframe _).updateWithTick _ _] :=
      bars_concat_new hpositive hnew
    have hother : slot.currentBarStart ≠ some (getBarStartTime tick.timestamp timeframe) :=
      fun hopen => hsame (hstart.symm.trans hopen)
    cases hbar : slot.currentBar with
    | none =>
        rw [hbar, Option.map_none, eq_comm, List.getLast?_eq_none_iff] at hcurrent
        rw [hcurrent] at hbars hcompleted
        constructor
        · rw [openedPeriods_concat, if_neg hsame, hbars]
          simpa [Bars.updateSlot, hbar] using hcompleted
        · rw [openedPeriods_concat, if_neg hsame, hbars]
          simp only [Bars.updateSlot, hbar, Option.map_some, apply_ite shown, shown_flag,
            ite_self, shown_updateWithTick, hsymbol]
          rfl
        · rw [openedPeriods_concat, if_neg hsame, List.getLast?_concat]
          simp only [Bars.updateSlot, hbar]
    | some current =>
        rw [hbar, Option.map_some] at hcurrent
        constructor
        · rw [openedPeriods_concat, if_neg hsame, hbars, List.dropLast_concat]
          simp only [Bars.updateSlot, hbar, if_neg hother, appendDeque, tail_map, List.map_append,
            List.map_cons, List.map_nil, hcompleted, shown_flag]
          rw [tail_append_tail, List.dropLast_append_getLast? _ hcurrent.symm]
        · rw [openedPeriods_concat, if_neg hsame, hbars, List.getLast?_concat]
          simp only [Bars.updateSlot, hbar, if_neg hother, Option.map_some, apply_ite shown,
            shown_flag, ite_self, shown_updateWithTick, hsymbol]
          rfl
        · rw [openedPeriods_concat, if_neg hsame, List.getLast?_concat]
          simp only [Bars.updateSlot, hbar, if_neg hother]

theorem agrees_fresh (maxHistory : ℕ) (symbol : String) (timeframe : Timeframe) :
    Agrees maxHistory symbol timeframe [] {} :=
  ⟨by simp [openedPeriods, tail], rfl, rfl⟩

end Agreement

section Runs

variable {symbol : String} {timeframe : Timeframe} {maxHistory : ℕ}

def CachingRenderer.run (caching : CachingRenderer) (requiredTimeframes : List Timeframe)
    (ticks : List TickData) : CachingRenderer :=
  ticks.foldl (fun caching tick => (caching.updateCurrentBars tick requiredTimeframes).1) caching

theorem CachingRenderer.run_concat (caching : CachingRenderer) (requiredTimeframes : List Timeframe)
    (ticks : List TickData) (tick : TickData) :
    caching.run requiredTimeframes (ticks ++ [tick]) =
      ((caching.run requiredTimeframes ticks).updateCurrentBars tick requiredTimeframes).1 := by
  rw [run, run, List.foldl_append]
  rfl

theorem updateCurrentBars_slot {renderer : BarRenderer} {tick : TickData}
    {requiredTimeframes : List Timeframe} (hrequired : timeframe ∈ requiredTimeframes)
    (hsymbol : tick.symbol = symbol) :
    (renderer.updateCurrentBars tick requiredTimeframes).1.slots timeframe symbol =
      (updateSlot renderer.maxHistory tick timeframe (renderer.slots timeframe symbol)).1 := by
  subst hsymbol
  simp only [BarRenderer.updateCurrentBars, hrequired, and_self, if_true]

def slotAfter (maxHistory : ℕ) (timeframe : Timeframe) (ticks : List TickData) : BarSlot :=
  ticks.foldl (fun slot tick => (updateSlot maxHistory tick timeframe slot).1) {}

theorem slotAfter_concat (ticks : List TickData) (tick : TickData) :
    slotAfter maxHistory timeframe (ticks ++ [tick]) =
      (updateSlot maxHistory tick timeframe (slotAfter maxHistory timeframe ticks)).1 := by
  rw [slotAfter, List.foldl_append]
  rfl

theorem run_slot {requiredTimeframes : List Timeframe} (hdistinct : requiredTimeframes.Nodup)
    (hrequired : timeframe ∈ requiredTimeframes) {ticks : List TickData}
    (hsymbol : ∀ tick ∈ ticks, tick.symbol = symbol) :
    let rendered := CachingRenderer.run { renderer := { maxHistory := maxHistory } }
      requiredTimeframes ticks
    barStartCache.Sound rendered.barStarts ∧ rendered.renderer.maxHistory = maxHistory ∧
      rendered.renderer.slots timeframe symbol = slotAfter maxHistory timeframe ticks := by
  induction ticks using List.reverseRecOn with
  | nil => exact ⟨sound_empty, rfl, rfl⟩
  | append_singleton ticks tick ih =>
      obtain ⟨hsound, hlimit, hslot⟩ :=
        ih fun earlier hearlier => hsymbol earlier (List.mem_append_left _ hearlier)
      obtain ⟨hrenderer, -, hkept⟩ := updateCurrentBars_eq hsound tick hdistinct
      have hlast := hsymbol tick (List.mem_append_right _ List.mem_cons_self)
      dsimp only
      rw [CachingRenderer.run_concat]
      refine ⟨hkept, ?_, ?_⟩
      · rw [hrenderer]
        exact hlimit
      · rw [hrenderer, updateCurrentBars_slot hrequired hlast, hlimit, hslot, slotAfter_concat]

theorem slotAfter_agrees {ticks : List TickData}
    (hticks : ∀ tick ∈ ticks, tick.symbol = symbol ∧ 0 < tick.mid)
    (hsorted : ticks.Pairwise fun tick later => tick.timestamp ≤ later.timestamp) :
    Agrees maxHistory symbol timeframe ticks (slotAfter maxHistory timeframe ticks) := by
  induction ticks using List.reverseRecOn with
  | nil => exact agrees_fresh maxHistory symbol timeframe
  | append_singleton ticks tick ih =>
      have hearlier : ∀ earlier ∈ ticks, earlier.symbol = symbol ∧ 0 < earlier.mid :=
        fun earlier hmem => hticks earlier (List.mem_append_left _ hmem)
      have hlast := hticks tick (List.mem_append_right _ List.mem_cons_self)
      rw [slotAfter_concat]
      exact (ih hearlier (List.pairwise_append.mp hsorted).1).updateSlot hlast.1
        (fun earlier hmem => (hearlier earlier hmem).2) hsorted

theorem mid_pos {tick : TickData} (hbid : 0 < tick.bid) (hask : 0 < tick.ask) : 0 < tick.mid :=
  div_pos (add_pos hbid hask) two_pos

theorem tail_of_length_le {α : Type} {n : ℕ} {xs : List α} (h : xs.length ≤ n) : tail n xs = xs := by
  rw [tail, Nat.sub_eq_zero_of_le h, List.drop_zero]

/-- The bars archived for the ticks and the running one are the bars rendered from the rows,
as long as no more bars are archived than the history takes. -/
theorem renderers_agree {sortIndex : List TickRow → List TickRow}
    (hsort : ∀ rows : List TickRow,
      (rows.Pairwise fun row later => row.timestamp ≤ later.timestamp) → sortIndex rows = rows)
    (symbol : String) {maxHistory : ℕ} {requiredTimeframes : List Timeframe}
    (hdistinct : requiredTimeframes.Nodup) {timeframe : Timeframe}
    (hrequired : timeframe ∈ requiredTimeframes) {ticks : List TickData} (hticks : ticks ≠ [])
    (hprices : ∀ tick ∈ ticks, tick.symbol = symbol ∧ 0 < tick.bid ∧ 0 < tick.ask)
    (hsorted : ticks.Pairwise fun tick later => tick.timestamp ≤ later.timestamp)
    (hlimit : (openedPeriods timeframe ticks).length ≤ maxHistory + 1) :
    let renderer := (CachingRenderer.run { renderer := { maxHistory := maxHistory } }
      requiredTimeframes ticks).renderer
    ∃ current, renderer.getCurrentBar symbol timeframe = some current ∧
      (renderer.getBarHistory symbol timeframe ++ [current]).map shown =
        renderTimeframe sortIndex symbol timeframe (ticks.map rowOf) ∧
      ∀ bar ∈ renderer.getBarHistory symbol timeframe ++ [current],
        ∃ tick ∈ ticks, getBarStartTime tick.timestamp timeframe = bar.timestamp := by
  have hpositive : ∀ tick ∈ ticks, tick.symbol = symbol ∧ 0 < tick.mid := fun tick htick =>
    ⟨(hprices tick htick).1, mid_pos (hprices tick htick).2.1 (hprices tick htick).2.2⟩
  obtain ⟨-, -, hslot⟩ := run_slot hdistinct hrequired fun tick htick => (hprices tick htick).1
  obtain ⟨hcompleted, hcurrent, -⟩ :
      Agrees maxHistory symbol timeframe ticks (slotAfter maxHistory timeframe ticks) :=
    slotAfter_agrees hpositive hsorted
  rw [← hslot] at hcompleted hcurrent
  have hrendered : renderTimeframe sortIndex symbol timeframe (ticks.map rowOf) =
      (openedPeriods timeframe ticks).map (barOf symbol timeframe ticks) := by
    rw [renderTimeframe, hsort _ (List.pairwise_map.mpr hsorted), rendered_eq hsorted]
  have hopened : openedPeriods timeframe ticks ≠ [] := by
    obtain ⟨tick, htick⟩ := List.exists_mem_of_ne_nil ticks hticks
    exact List.ne_nil_of_mem (mem_openedPeriods.mpr ⟨tick, htick, rfl⟩)
  rw [← hrendered] at hcompleted hcurrent
  have hlength : (renderTimeframe sortIndex symbol timeframe (ticks.map rowOf)).dropLast.length ≤
      maxHistory := by
    rw [hrendered, List.length_dropLast, List.length_map]
    omega
  rw [tail_of_length_le hlength] at hcompleted
  have hbars : renderTimeframe sortIndex symbol timeframe (ticks.map rowOf) ≠ [] := by
    rw [hrendered]
    exact fun hnil => hopened (List.map_eq_nil_iff.mp hnil)
  obtain ⟨last, hlast⟩ := Option.ne_none_iff_exists'.mp (mt List.getLast?_eq_none_iff.mp hbars)
  rw [hlast] at hcurrent
  obtain ⟨current, hrunning, hshown⟩ := Option.map_eq_some_iff.mp hcurrent
  have hagree : ((CachingRenderer.run { renderer := { maxHistory := maxHistory } }
      requiredTimeframes ticks).renderer.getBarHistory symbol timeframe ++ [current]).map shown =
      renderTimeframe sortIndex symbol timeframe (ticks.map rowOf) := by
    rw [List.map_append, BarRenderer.getBarHistory, hcompleted, List.map_singleton, hshown]
    exact List.dropLast_append_getLast? _ hlast
  refine ⟨current, hrunning, hagree, fun bar hbar => ?_⟩
  have hmem := List.mem_map_of_mem (f := shown) hbar
  rw [hagree, hrendered] at hmem
  obtain ⟨period, hperiod, hbarOf⟩ := List.mem_map.mp hmem
  obtain ⟨tick, htick, hstart⟩ := mem_openedPeriods.mp hperiod
  refine ⟨tick, htick, hstart.trans ?_⟩
  exact congrArg Bar.timestamp hbarOf

def quoteAt (n : ℤ) (price : ℚ) : TickData where
  timestamp := minute n
  symbol := "BTCUSD"
  bid := price - 1
  ask := price + 1
  volume := 1

theorem renderers_agree_days :
    let renderer := (CachingRenderer.run { renderer := { maxHistory := 2 } } [.m5, .d1]
      [quoteAt 1 100, quoteAt 3 104, quoteAt 3 98, quoteAt 11 101, quoteAt 1441 102]).renderer
    ∃ current, renderer.getCurrentBar "BTCUSD" .m5 = some current ∧
      (renderer.getBarHistory "BTCUSD" .m5 ++ [current]).map shown =
        renderTimeframe (List.insertionSort fun row later => row.timestamp ≤ later.timestamp)
          "BTCUSD" .m5 ([quoteAt 1 100, quoteAt 3 104, quoteAt 3 98, quoteAt 11 101,
            quoteAt 1441 102].map rowOf) ∧
      ∀ bar ∈ renderer.getBarHistory "BTCUSD" .m5 ++ [current],
        ∃ tick ∈ [quoteAt 1 100, quoteAt 3 104, quoteAt 3 98, quoteAt 11 101, quoteAt 1441 102],
          getBarStartTime tick.timestamp .m5 = bar.timestamp :=
  renderers_agree (fun _ hrows => List.Pairwise.insertionSort_eq hrows) "BTCUSD" (by decide)
    List.mem_cons_self (by decide) (by decide +kernel) (by decide +kernel) (by decide +kernel)

end Runs

end Finiex.RendererAgreement
