import Finiex.Splitters
import Finiex.Lib.Lists

namespace Finiex.VolatilityBounds

open Finiex.Types
open Finiex.Lib
open Finiex.Regions
open Finiex.Splitters
open Finiex.Splitters.ProfileStrategyConfig

section Walk

variable {config : ProfileStrategyConfig} {regionEnd current : Instant}
  {periods : List VolatilityPeriod} {atrThreshold : ℚ} {best next : VolatilityPeriod}

theorem nextSplit_eq_none_iff : config.nextSplit regionEnd periods atrThreshold current = none ↔
    ∀ period ∈ periods, ¬config.Splits regionEnd current period := by
  constructor
  · intro h period hperiod hsplits
    unfold nextSplit at h
    split at h
    · cases h
    · rw [List.argmin_eq_none, List.filter_eq_nil_iff] at h
      exact h period hperiod (decide_eq_true hsplits)
  · intro h
    cases hsplit : config.nextSplit regionEnd periods atrThreshold current with
    | none => rfl
    | some best =>
        obtain ⟨hbest, hsplits⟩ := config.nextSplit_spec hsplit
        exact absurd hsplits (h best hbest)

theorem walk_fits (h : regionEnd - current ≤ hours config.maxBlockHours) :
    config.walk regionEnd periods atrThreshold current = [] := by
  rw [walk, dif_pos h]

theorem walk_split (h : ¬regionEnd - current ≤ hours config.maxBlockHours)
    (hsplit : config.nextSplit regionEnd periods atrThreshold current = some best) :
    config.walk regionEnd periods atrThreshold current =
      best.startTime :: config.walk regionEnd periods atrThreshold best.startTime := by
  rw [walk, dif_neg h]
  split
  · next hother =>
      rw [hsplit] at hother
      cases hother
      rfl
  · next hnone =>
      rw [hsplit] at hnone
      cases hnone

theorem walk_skip (h : ¬regionEnd - current ≤ hours config.maxBlockHours)
    (hsplit : config.nextSplit regionEnd periods atrThreshold current = none)
    (hskip : config.nextPeriod periods current = some next) :
    config.walk regionEnd periods atrThreshold current =
      config.walk regionEnd periods atrThreshold next.startTime := by
  rw [walk, dif_neg h]
  split
  · next hsome =>
      rw [hsplit] at hsome
      cases hsome
  · split
    · next hother =>
        rw [hskip] at hother
        cases hother
        rfl
    · next hnone =>
        rw [hskip] at hnone
        cases hnone

theorem walk_end (h : ¬regionEnd - current ≤ hours config.maxBlockHours)
    (hsplit : config.nextSplit regionEnd periods atrThreshold current = none)
    (hskip : config.nextPeriod periods current = none) :
    config.walk regionEnd periods atrThreshold current = [] := by
  rw [walk, dif_neg h]
  split
  · next hsome =>
      rw [hsplit] at hsome
      cases hsome
  · split
    · next hsome =>
        rw [hskip] at hsome
        cases hsome
    · rfl

/-- The split points lie apart from each other and from the ends of the walk. -/
structure Points (config : ProfileStrategyConfig) (regionEnd current : Instant)
    (periods : List VolatilityPeriod) (points : List Instant) : Prop where
  ahead : ∀ x ∈ points, current + hours config.minBlockHours ≤ x
  before : ∀ x ∈ points, x + hours config.minBlockHours ≤ regionEnd
  apart : points.Pairwise fun x y => x + hours config.minBlockHours ≤ y
  starts : ∀ x ∈ points, ∃ period ∈ periods, period.startTime = x

theorem Points.nil : Points config regionEnd current periods [] where
  ahead := fun _ hx => (nomatch hx)
  before := fun _ hx => (nomatch hx)
  apart := List.Pairwise.nil
  starts := fun _ hx => (nomatch hx)

theorem Points.of_le {later : Instant} {points : List Instant}
    (h : Points config regionEnd later periods points) (hle : current ≤ later) :
    Points config regionEnd current periods points where
  ahead x hx := (add_le_add_left hle _).trans (h.ahead x hx)
  before := h.before
  apart := h.apart
  starts := h.starts

theorem nextPeriod_le (h : config.nextPeriod periods current = some next) :
    current ≤ next.startTime := by
  have hnext := (config.nextPeriod_spec h).2
  have hpos := (hours_pos config.min_pos).trans_le (hours_le config.min_le)
  linarith

theorem walk_points (config : ProfileStrategyConfig) (regionEnd : Instant)
    (periods : List VolatilityPeriod) (atrThreshold : ℚ) (current : Instant) :
    Points config regionEnd current periods
      (config.walk regionEnd periods atrThreshold current) := by
  induction current using walk.induct config regionEnd periods atrThreshold with
  | case1 current hfits =>
      rw [walk_fits hfits]
      exact Points.nil
  | case2 current hfits best hsplit hmoves ih =>
      rw [walk_split hfits hsplit]
      obtain ⟨hbest, hleast, hmost, hrest⟩ := config.nextSplit_spec hsplit
      have hpos := hours_pos config.min_pos
      refine ⟨List.forall_mem_cons.mpr ⟨hleast, fun x hx => ?_⟩,
        List.forall_mem_cons.mpr ⟨?_, ih.before⟩, List.pairwise_cons.mpr ⟨ih.ahead, ih.apart⟩,
        List.forall_mem_cons.mpr ⟨⟨best, hbest, rfl⟩, ih.starts⟩⟩
      · have hahead := ih.ahead x hx
        linarith
      · linarith
  | case3 current hfits hsplit next hskip hmoves ih =>
      rw [walk_skip hfits hsplit hskip]
      exact ih.of_le (nextPeriod_le hskip)
  | case4 current hfits hsplit hskip =>
      rw [walk_end hfits hsplit hskip]
      exact Points.nil

inductive Stands (config : ProfileStrategyConfig) (regionEnd : Instant)
    (periods : List VolatilityPeriod) (atrThreshold : ℚ) : Instant → Instant → Prop
  | here (current : Instant) : Stands config regionEnd periods atrThreshold current current
  | split {current position : Instant} {best : VolatilityPeriod}
      (hfar : hours config.maxBlockHours < regionEnd - current)
      (hsplit : config.nextSplit regionEnd periods atrThreshold current = some best)
      (hlater : Stands config regionEnd periods atrThreshold best.startTime position) :
      Stands config regionEnd periods atrThreshold current position

/-- From every position that does not reach the end a split can be made. -/
def AlwaysSplits (config : ProfileStrategyConfig) (regionEnd : Instant)
    (periods : List VolatilityPeriod) (atrThreshold : ℚ) (start : Instant) : Prop :=
  ∀ position, Stands config regionEnd periods atrThreshold start position →
    hours config.maxBlockHours < regionEnd - position →
      ∃ period ∈ periods, config.Splits regionEnd position period

def cuts (start : Instant) (points : List Instant) («end» : Instant) :
    List (Instant × Instant) :=
  (start :: points ++ [«end»]).zip (points ++ [«end»])

theorem not_short_of_ahead {points : List Instant}
    (hfits : ¬regionEnd - current ≤ hours config.maxBlockHours)
    (hahead : ∀ x ∈ points, current + hours config.maxBlockHours < x) :
    ¬∀ span ∈ cuts current points regionEnd, span.2 - span.1 ≤ hours config.maxBlockHours := by
  intro hshort
  cases points with
  | nil => exact hfits (hshort (current, regionEnd) List.mem_cons_self)
  | cons x points =>
      have hfirst := hshort (current, x) List.mem_cons_self
      exact absurd (hahead x List.mem_cons_self) (not_lt.mpr (sub_le_iff_le_add'.mp hfirst))

theorem not_alwaysSplits (hfits : ¬regionEnd - current ≤ hours config.maxBlockHours)
    (hsplit : config.nextSplit regionEnd periods atrThreshold current = none) :
    ¬AlwaysSplits config regionEnd periods atrThreshold current := by
  intro halways
  obtain ⟨period, hperiod, hsplits⟩ := halways current (.here current) (not_le.mp hfits)
  exact nextSplit_eq_none_iff.mp hsplit period hperiod hsplits

/-- No span of a walk is too long exactly if a split can always be made. -/
theorem cuts_short_iff (config : ProfileStrategyConfig) (regionEnd : Instant)
    (periods : List VolatilityPeriod) (atrThreshold : ℚ) (current : Instant) :
    (∀ span ∈ cuts current (config.walk regionEnd periods atrThreshold current) regionEnd,
      span.2 - span.1 ≤ hours config.maxBlockHours) ↔
        AlwaysSplits config regionEnd periods atrThreshold current := by
  induction current using walk.induct config regionEnd periods atrThreshold with
  | case1 current hfits =>
      rw [walk_fits hfits]
      refine iff_of_true ?_ ?_
      · exact List.forall_mem_singleton.mpr hfits
      · intro position hstands hfar
        cases hstands with
        | here => exact absurd hfits (not_le.mpr hfar)
        | split hfar' => exact absurd hfits (not_le.mpr hfar')
  | case2 current hfits best hsplit hmoves ih =>
      rw [walk_split hfits hsplit]
      obtain ⟨hbest, hsplits⟩ := config.nextSplit_spec hsplit
      have hcuts : cuts current (best.startTime ::
          config.walk regionEnd periods atrThreshold best.startTime) regionEnd =
            (current, best.startTime) :: cuts best.startTime
              (config.walk regionEnd periods atrThreshold best.startTime) regionEnd := rfl
      rw [hcuts, List.forall_mem_cons, ih]
      constructor
      · rintro ⟨-, hlater⟩ position hstands hfar
        cases hstands with
        | here => exact ⟨best, hbest, hsplits⟩
        | split hfar' hsplit' hstands' =>
            rw [hsplit] at hsplit'
            cases hsplit'
            exact hlater position hstands' hfar
      · intro halways
        refine ⟨?_, fun position hstands hfar => ?_⟩
        · exact sub_le_iff_le_add'.mpr hsplits.2.1
        · exact halways position (.split (not_le.mp hfits) hsplit hstands) hfar
  | case3 current hfits hsplit next hskip hmoves ih =>
      rw [walk_skip hfits hsplit hskip]
      refine iff_of_false (not_short_of_ahead hfits fun x hx => ?_)
        (not_alwaysSplits hfits hsplit)
      have hahead := (walk_points config regionEnd periods atrThreshold next.startTime).ahead x hx
      have hnext := (config.nextPeriod_spec hskip).2
      have hpos := hours_pos config.min_pos
      linarith
  | case4 current hfits hsplit hskip =>
      rw [walk_end hfits hsplit hskip]
      exact iff_of_false (not_short_of_ahead hfits fun _ hx => (nomatch hx))
        (not_alwaysSplits hfits hsplit)

end Walk

section Ticks

def ticksIn (periods : List VolatilityPeriod) (start «end» : Instant) : ℕ :=
  ((overlapping start «end» periods).map VolatilityPeriod.tickCount).sum

theorem ticksIn_cons (period : VolatilityPeriod) (periods : List VolatilityPeriod)
    (start «end» : Instant) : ticksIn (period :: periods) start «end» =
      (if start < period.endTime ∧ period.startTime < «end» then period.tickCount else 0) +
        ticksIn periods start «end» := by
  unfold ticksIn overlapping
  rw [List.filter_cons]
  by_cases h : start < period.endTime ∧ period.startTime < «end»
  · rw [if_pos (decide_eq_true h), if_pos h, List.map_cons, List.sum_cons]
  · rw [if_neg (by simpa using h), if_neg h, zero_add]

theorem ticksIn_split {periods : List VolatilityPeriod} {start mid «end» : Instant}
    (hperiods : ∀ period ∈ periods, period.startTime < period.endTime ∧
      (period.endTime ≤ mid ∨ mid ≤ period.startTime))
    (hstart : start < mid) (hend : mid < «end») :
    ticksIn periods start «end» = ticksIn periods start mid + ticksIn periods mid «end» := by
  induction periods with
  | nil => rfl
  | cons period periods ih =>
      obtain ⟨⟨hlt, hapart⟩, hrest⟩ := List.forall_mem_cons.mp hperiods
      rw [ticksIn_cons, ticksIn_cons, ticksIn_cons, ih hrest]
      have hone : (if start < period.endTime ∧ period.startTime < «end» then period.tickCount
          else 0) =
          (if start < period.endTime ∧ period.startTime < mid then period.tickCount else 0) +
            if mid < period.endTime ∧ period.startTime < «end» then period.tickCount else 0 := by
        rcases hapart with hbefore | hbehind
        · have hmid : period.startTime < mid := hlt.trans_le hbefore
          rw [if_neg fun h : mid < period.endTime ∧ period.startTime < «end» =>
            absurd h.1 (not_lt.mpr hbefore), add_zero]
          simp only [hmid, hmid.trans hend]
        · have hmid : mid < period.endTime := hbehind.trans_lt hlt
          rw [if_neg fun h : start < period.endTime ∧ period.startTime < mid =>
            absurd h.2 (not_lt.mpr hbehind), zero_add]
          simp only [hmid, hstart.trans hmid]
      omega

theorem ticksIn_cuts {periods : List VolatilityPeriod} {start «end» : Instant}
    {points : List Instant} (hsorted : (start :: points ++ [«end»]).Pairwise (· < ·))
    (hperiods : ∀ period ∈ periods, period.startTime < period.endTime ∧
      ∀ x ∈ points, period.endTime ≤ x ∨ x ≤ period.startTime) :
    ((cuts start points «end»).map fun span => ticksIn periods span.1 span.2).sum =
      ticksIn periods start «end» := by
  induction points generalizing start with
  | nil => rfl
  | cons x points ih =>
      obtain ⟨hfirst, hrest⟩ := List.pairwise_cons.mp hsorted
      have hlater := ih hrest fun period hperiod =>
        ⟨(hperiods period hperiod).1, fun y hy =>
          (hperiods period hperiod).2 y (List.mem_cons_of_mem x hy)⟩
      have hcuts : cuts start (x :: points) «end» = (start, x) :: cuts x points «end» := rfl
      rw [hcuts, List.map_cons, List.sum_cons, hlater]
      refine (ticksIn_split (fun period hperiod => ?_) ?_ ?_).symm
      · exact ⟨(hperiods period hperiod).1, (hperiods period hperiod).2 x List.mem_cons_self⟩
      · exact hfirst x List.mem_cons_self
      · exact (List.pairwise_cons.mp hrest).1 _ (List.mem_append_right _ List.mem_cons_self)

end Ticks

section Windows

variable {config : ProfileStrategyConfig} {regionStart regionEnd : Instant}
  {periods : List VolatilityPeriod} {atrThreshold : ℚ}

structure Chronological (periods : List VolatilityPeriod) : Prop where
  lasting : ∀ period ∈ periods, period.startTime < period.endTime
  ordered : periods.Pairwise fun period later => period.endTime ≤ later.startTime

theorem Chronological.apart (h : Chronological periods) {period other : VolatilityPeriod}
    (hperiod : period ∈ periods) (hother : other ∈ periods) :
    period.endTime ≤ other.startTime ∨ other.startTime ≤ period.startTime := by
  induction periods with
  | nil => cases hperiod
  | cons first periods ih =>
      obtain ⟨hfirst, hrest⟩ := List.pairwise_cons.mp h.ordered
      have hlasting := h.lasting first List.mem_cons_self
      rcases List.mem_cons.mp hperiod with rfl | hperiod'
      · rcases List.mem_cons.mp hother with rfl | hother'
        · exact .inr (le_refl _)
        · exact .inl (hfirst other hother')
      · rcases List.mem_cons.mp hother with rfl | hother'
        · exact .inr (hlasting.le.trans (hfirst period hperiod'))
        · exact ih ⟨fun p hp => h.lasting p (List.mem_cons_of_mem _ hp), hrest⟩ hperiod' hother'

/-- Windows of a region that keep to the bounds of the blocks. -/
structure WithinBounds (config : ProfileStrategyConfig) (regionStart regionEnd : Instant)
    (periods : List VolatilityPeriod) (windows : List GeneratedWindow) : Prop where
  partition : Spans.Tiles regionEnd regionStart (windows.map GeneratedWindow.span)
  least : hours config.minBlockHours ≤ regionEnd - regionStart → ∀ window ∈ windows,
    hours config.minBlockHours ≤ window.endTime - window.startTime
  most : ∀ window ∈ windows,
    window.endTime - window.startTime ≤ hours config.maxBlockHours
  ticks : (windows.map GeneratedWindow.estimatedTicks).sum =
    ticksIn periods regionStart regionEnd

theorem Points.ascending {current : Instant} {points : List Instant}
    (h : Points config regionEnd current periods points) : points.Pairwise (· < ·) :=
  h.apart.imp fun {x y : Instant} hle => by
    have hpos := hours_pos config.min_pos
    linarith

theorem findSplitPoints_eq (config : ProfileStrategyConfig) (regionStart regionEnd : Instant)
    (periods : List VolatilityPeriod) (atrThreshold : ℚ) :
    config.findSplitPoints regionStart regionEnd periods atrThreshold =
      config.walk regionEnd periods atrThreshold regionStart := by
  have hascending := (walk_points config regionEnd periods atrThreshold regionStart).ascending
  unfold findSplitPoints
  rw [List.dedup_eq_self.mpr (hascending.imp fun {x y : Instant} hlt => hlt.ne),
    (hascending.imp fun {x y : Instant} hlt => hlt.le).insertionSort_eq]

variable {points : List Instant}

theorem windows_spans (startIndex : ℕ) (regionStart regionEnd : Instant)
    (periods : List VolatilityPeriod) (hpoints : points.Pairwise (· < ·)) :
    (buildWindowsFromSplits startIndex regionStart regionEnd points periods).map
      GeneratedWindow.span = cuts regionStart points regionEnd := by
  unfold buildWindowsFromSplits cuts
  rw [(hpoints.imp fun {x y : Instant} hlt => hlt.le).insertionSort_eq]
  refine (Lists.map_mapIdx_eq (h := id) ?_ _).trans (List.map_id _)
  exact fun place bounds => rfl

theorem windows_ticks (startIndex : ℕ) (regionStart regionEnd : Instant)
    (periods : List VolatilityPeriod) (hpoints : points.Pairwise (· < ·)) :
    (buildWindowsFromSplits startIndex regionStart regionEnd points periods).map
      GeneratedWindow.estimatedTicks =
        (cuts regionStart points regionEnd).map fun span => ticksIn periods span.1 span.2 := by
  unfold buildWindowsFromSplits cuts
  rw [(hpoints.imp fun {x y : Instant} hlt => hlt.le).insertionSort_eq]
  apply Lists.map_mapIdx_eq
  exact fun place bounds => rfl

theorem Points.cuts_apart (h : Points config regionEnd regionStart periods points)
    (hregion : regionStart + hours config.minBlockHours ≤ regionEnd) :
    (regionStart :: points ++ [regionEnd]).Pairwise fun x y =>
      x + hours config.minBlockHours ≤ y := by
  refine List.pairwise_append.mpr ⟨List.pairwise_cons.mpr ⟨h.ahead, h.apart⟩,
    List.pairwise_singleton _ _, fun x hx y hy => ?_⟩
  rw [List.mem_singleton.mp hy]
  rcases List.mem_cons.mp hx with rfl | hpoint
  · exact hregion
  · exact h.before x hpoint

theorem Points.cuts_ascending (h : Points config regionEnd regionStart periods points)
    (hregion : regionStart < regionEnd) :
    (regionStart :: points ++ [regionEnd]).Pairwise (· < ·) := by
  have hpos := hours_pos config.min_pos
  refine List.pairwise_append.mpr ⟨List.pairwise_cons.mpr ⟨fun x hx => ?_, h.ascending⟩,
    List.pairwise_singleton _ _, fun x hx y hy => ?_⟩
  · have hahead := h.ahead x hx
    linarith
  · rw [List.mem_singleton.mp hy]
    rcases List.mem_cons.mp hx with rfl | hpoint
    · exact hregion
    · have hbefore := h.before x hpoint
      linarith

/-- The windows of a region keep to the bounds exactly if from every position of the walk that
does not reach the end a split can be made. -/
theorem withinBounds_iff (config : ProfileStrategyConfig) (startIndex : ℕ)
    (regionStart regionEnd : Instant) (periods : List VolatilityPeriod) (atrThreshold : ℚ)
    (hregion : regionStart < regionEnd) (hperiods : Chronological periods) :
    WithinBounds config regionStart regionEnd periods
      (buildWindowsFromSplits startIndex regionStart regionEnd
        (config.findSplitPoints regionStart regionEnd periods atrThreshold) periods) ↔
      AlwaysSplits config regionEnd periods atrThreshold regionStart := by
  rw [findSplitPoints_eq]
  have hpoints := walk_points config regionEnd periods atrThreshold regionStart
  have hascending := hpoints.cuts_ascending hregion
  have hshort := cuts_short_iff config regionEnd periods atrThreshold regionStart
  generalize config.walk regionEnd periods atrThreshold regionStart = points at *
  have hspans := windows_spans startIndex regionStart regionEnd periods hpoints.ascending
  have hticks := windows_ticks startIndex regionStart regionEnd periods hpoints.ascending
  rw [← hspans, List.forall_mem_map] at hshort
  constructor
  · exact fun h => hshort.mp h.most
  · intro halways
    refine ⟨?_, fun hlong window hwindow => ?_, hshort.mpr halways, ?_⟩
    · rw [hspans]
      apply Spans.tiles_neighbours hascending
      exact List.getLast?_concat (l := regionStart :: points)
    · have hspan : window.span ∈ cuts regionStart points regionEnd := by
        rw [← hspans]
        exact List.mem_map_of_mem hwindow
      have hapart := Spans.rel_of_neighbours
        (hpoints.cuts_apart (add_le_of_le_sub_left hlong)) hspan
      exact le_sub_iff_add_le'.mpr hapart
    · rw [hticks]
      apply ticksIn_cuts hascending
      refine fun period hperiod => ⟨hperiods.lasting period hperiod, fun x hx => ?_⟩
      obtain ⟨other, hother, rfl⟩ := hpoints.starts x hx
      exact hperiods.apart hperiod hother

def hourly (n : ℕ) : List VolatilityPeriod :=
  (List.range n).map fun hour =>
    { startTime := hours hour, endTime := hours (hour + 1), session := .london, atr := 1,
      regime := .low, tickCount := 60 }

theorem withinBounds_hourly :
    WithinBounds {} 0 (hours 30) (hourly 30)
      (buildWindowsFromSplits 0 0 (hours 30)
        (findSplitPoints {} 0 (hours 30) (hourly 30) 1) (hourly 30)) ↔
      AlwaysSplits {} (hours 30) (hourly 30) 1 0 :=
  withinBounds_iff {} 0 0 (hours 30) (hourly 30) 1 (by decide) ⟨by decide +kernel, by decide +kernel⟩

theorem twelve_hours_unsplit :
    ¬∀ (config : ProfileStrategyConfig) (startIndex : ℕ) (regionStart regionEnd : Instant)
      (periods : List VolatilityPeriod) (atrThreshold : ℚ), regionStart < regionEnd →
        Chronological periods → WithinBounds config regionStart regionEnd periods
          (buildWindowsFromSplits startIndex regionStart regionEnd
            (config.findSplitPoints regionStart regionEnd periods atrThreshold) periods) := by
  intro h
  have hmost := (h { minBlockHours := 8, maxBlockHours := 10 } 0 0 (hours 12) (hourly 12) 1
    (by decide) ⟨by decide +kernel, by decide +kernel⟩).most
  revert hmost
  decide +kernel

end Windows

end Finiex.VolatilityBounds
