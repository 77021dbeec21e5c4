import Finiex.Splitters
import Finiex.Lib.Lists

namespace Finiex.BlockCoverage

open Finiex.Types
open Finiex.Lib
open Finiex.Fees
open Finiex.Bars
open Finiex.Coverage
open Finiex.Regions
open Finiex.Splitters
open Finiex.Splitters.BlocksStrategyConfig

section NextOpen

theorem dayOf_eq_of_between {t s : ℤ} (hlow : t ≤ s) (hhigh : s < atHour (dayOf t + 1) 0) :
    dayOf s = dayOf t := by
  obtain ⟨day, rest, ht, hrest, -, hday, -⟩ := exists_dayTime t
  obtain ⟨day', rest', hs, hlow', hrest', hday', -⟩ := exists_dayTime s
  rw [hday, atHour, microsecondsPerDay] at hhigh
  rw [hday, hday']
  subst ht hs
  omega

theorem isClosed_until {after t : Instant} (hlow : after ≤ t) (hhigh : t < nextMarketOpen after) :
    isClosed t = true := by
  induction after using nextMarketOpen.induct with
  | case1 after hclosed ih =>
      rw [nextMarketOpen, dif_pos hclosed] at hhigh
      rcases lt_or_ge t (atHour (dayOf after + 1) 0) with hsame | hlater
      · rw [isClosed_eq, dayOf_eq_of_between hlow hsame, ← isClosed_eq]
        exact hclosed
      · exact ih hlater hhigh
  | case2 after hopen =>
      rw [nextMarketOpen, dif_neg hopen] at hhigh
      exact absurd hlow (not_le.mpr hhigh)

/-- An instant is skipped: it lies in a stretch in which the market is closed, up to its open. -/
def Skipped (start t : Instant) : Prop :=
  ∃ skipped opening, start ≤ skipped ∧ skipped ≤ t ∧ t < opening ∧ isClosed opening = false ∧
    ∀ s, skipped ≤ s → s < opening → isClosed s = true

variable {snapToMarketOpen : Bool} {currentStart : Instant}

theorem blockStart_spec {start : Instant} (h : blockStart snapToMarketOpen currentStart = start) :
    currentStart ≤ start ∧ (snapToMarketOpen = true → isClosed start = false) ∧
      (start = currentStart ∨ snapToMarketOpen = true ∧ start = nextMarketOpen currentStart) := by
  rw [← h]
  refine ⟨le_blockStart _ _, ?_, ?_⟩
  · rintro rfl
    unfold blockStart
    cases hclosed : isClosed currentStart with
    | false => exact hclosed
    | true => exact (nextMarketOpen_spec currentStart).1
  · unfold blockStart
    split
    · next hsnap => exact .inr ⟨(Bool.and_eq_true_iff.mp hsnap).1, rfl⟩
    · exact .inl rfl

theorem skipped_of_lt {start t : Instant} (h : blockStart snapToMarketOpen currentStart = start)
    (hlow : currentStart ≤ t) (hlt : t < start) :
    snapToMarketOpen = true ∧ Skipped currentStart t := by
  obtain ⟨-, hopen, hplain | ⟨hsnap, hnext⟩⟩ := blockStart_spec h
  · exact absurd hlow (not_le.mpr (hplain ▸ hlt))
  · exact ⟨hsnap, currentStart, start, le_refl _, hlow, hlt, hopen hsnap, fun s hfrom hbefore =>
      isClosed_until hfrom (hnext ▸ hbefore)⟩

end NextOpen

section Region

variable {config : BlocksStrategyConfig} {snapToMarketOpen : Bool}
  {regionEnd currentStart : Instant}

def LeftOver (config : BlocksStrategyConfig) (start regionEnd t : Instant)
    (spans : List (Instant × Instant)) : Prop :=
  ∃ tail, start ≤ tail ∧ tail ≤ t ∧ regionEnd - tail < hours config.minBlockHours ∧
    ∀ span ∈ spans, span.2 ≤ tail

structure Blocks (config : BlocksStrategyConfig) (snapToMarketOpen : Bool)
    (regionEnd currentStart : Instant) (spans : List (Instant × Instant)) : Prop where
  separate : currentStart ≤ regionEnd → Spans.Separate regionEnd currentStart spans
  empty : regionEnd ≤ currentStart → spans = []
  bounded : ∀ span ∈ spans, hours config.minBlockHours ≤ span.2 - span.1 ∧
    span.2 - span.1 ≤ hours config.defaultBlockHours
  opens : snapToMarketOpen = true → ∀ span ∈ spans, isClosed span.1 = false
  contiguous : snapToMarketOpen = false → ∃ tail, Spans.Tiles tail currentStart spans ∧
    regionEnd - tail < hours config.minBlockHours
  covers : ∀ t, currentStart ≤ t → t < regionEnd → (∃ span ∈ spans, span.1 ≤ t ∧ t < span.2) ∨
    snapToMarketOpen = true ∧ Skipped currentStart t ∨
      LeftOver config currentStart regionEnd t spans

theorem Blocks.nil
    (hleft : snapToMarketOpen = false → regionEnd - currentStart < hours config.minBlockHours)
    (hcovers : ∀ t, currentStart ≤ t → t < regionEnd →
      snapToMarketOpen = true ∧ Skipped currentStart t ∨
        LeftOver config currentStart regionEnd t []) :
    Blocks config snapToMarketOpen regionEnd currentStart [] where
  separate h := h
  empty _ := rfl
  bounded _ := fun hspan => (nomatch hspan)
  opens _ _ := fun hspan => (nomatch hspan)
  contiguous hsnap := ⟨currentStart, rfl, hleft hsnap⟩
  covers t hlow hhigh := .inr (hcovers t hlow hhigh)

theorem generateBlocks_spec (config : BlocksStrategyConfig) (snapToMarketOpen : Bool)
    (regionEnd currentStart : Instant) : Blocks config snapToMarketOpen regionEnd currentStart
      ((config.generateBlocks snapToMarketOpen regionEnd currentStart).map
        GeneratedWindow.span) := by
  induction currentStart using generateBlocks.induct config snapToMarketOpen regionEnd with
  | case1 currentStart hregion start hbehind =>
      -- the market opens behind the region
      rw [generateBlocks, dif_pos hregion, if_pos hbehind]
      apply Blocks.nil
      · intro hsnap
        obtain ⟨-, -, hplain | ⟨hsnap', -⟩⟩ := blockStart_spec (show _ = start from rfl)
        · exact absurd hregion (not_lt.mpr (hplain ▸ hbehind))
        · rw [hsnap] at hsnap'
          cases hsnap'
      · exact fun t hlow hhigh => .inl (skipped_of_lt rfl hlow (hhigh.trans_le hbehind))
  | case2 currentStart hregion start hbefore hrest =>
      -- the rest is too short
      rw [generateBlocks, dif_pos hregion, if_neg hbefore, dif_pos hrest]
      obtain ⟨hle, -, hmoved⟩ := blockStart_spec (show _ = start from rfl)
      apply Blocks.nil
      · intro hsnap
        rcases hmoved with hplain | ⟨hsnap', -⟩
        · exact hplain ▸ hrest
        · rw [hsnap] at hsnap'
          cases hsnap'
      · intro t hlow hhigh
        rcases lt_or_ge t start with hlt | hge
        · exact .inl (skipped_of_lt rfl hlow hlt)
        · exact .inr ⟨start, hle, hge, hrest, fun _ hspan => (nomatch hspan)⟩
  | case3 currentStart hregion start hbefore hrest hmoves ih =>
      rw [generateBlocks, dif_pos hregion, if_neg hbefore, dif_neg hrest, List.map_cons]
      obtain ⟨hle, hopen, hmoved⟩ := blockStart_spec (show _ = start from rfl)
      obtain ⟨hlt, hend, hlong, hshort⟩ := config.blockEnd_bounds (not_lt.mp hrest)
      refine ⟨fun _ => ⟨hle, hlt, ih.separate hend⟩, fun h => ?_, ?_, ?_, ?_, ?_⟩
      · exact absurd hregion (not_lt.mpr h)
      · exact List.forall_mem_cons.mpr ⟨⟨hlong, hshort⟩, ih.bounded⟩
      · exact fun hsnap => List.forall_mem_cons.mpr ⟨hopen hsnap, ih.opens hsnap⟩
      · intro hsnap
        obtain ⟨tail, htiles, htail⟩ := ih.contiguous hsnap
        rcases hmoved with hplain | ⟨hsnap', -⟩
        · exact ⟨tail, ⟨hplain, hlt, htiles⟩, htail⟩
        · rw [hsnap] at hsnap'
          cases hsnap'
      · intro t hlow hhigh
        have hforward := hle.trans hlt.le
        rcases lt_or_ge t start with hbefore' | hfrom
        · exact .inr (.inl (skipped_of_lt rfl hlow hbefore'))
        · rcases lt_or_ge t (config.blockEnd regionEnd start) with hwithin | hbehind
          · exact .inl ⟨_, List.mem_cons_self, hfrom, hwithin⟩
          · rcases ih.covers t hbehind hhigh with ⟨span, hspan, hcovered⟩ |
              ⟨hsnap, skipped, opening, hlater, hskipped⟩ | ⟨tail, hlater, htail, hsmall, hends⟩
            · exact .inl ⟨span, List.mem_cons_of_mem _ hspan, hcovered⟩
            · exact .inr (.inl ⟨hsnap, skipped, opening, hforward.trans hlater, hskipped⟩)
            · exact .inr (.inr ⟨tail, hforward.trans hlater, htail, hsmall,
                List.forall_mem_cons.mpr ⟨hlater, hends⟩⟩)
  | case4 currentStart hregion =>
      rw [generateBlocks, dif_neg hregion]
      apply Blocks.nil
      · intro _
        exact (sub_nonpos.mpr (not_lt.mp hregion)).trans_lt (hours_pos config.min_pos)
      · exact fun t hlow hhigh => absurd (hlow.trans_lt hhigh) hregion

theorem Blocks.inside {spans : List (Instant × Instant)}
    (h : Blocks config snapToMarketOpen regionEnd currentStart spans) {span : Instant × Instant}
    (hspan : span ∈ spans) : currentStart ≤ span.1 ∧ span.1 < span.2 ∧ span.2 ≤ regionEnd := by
  rcases lt_or_ge currentStart regionEnd with hlt | hge
  · exact (h.separate hlt.le).inside hspan
  · rw [h.empty hge] at hspan
    cases hspan

theorem Blocks.pairwise {spans : List (Instant × Instant)}
    (h : Blocks config snapToMarketOpen regionEnd currentStart spans) :
    spans.Pairwise fun span later => span.2 ≤ later.1 := by
  rcases lt_or_ge currentStart regionEnd with hlt | hge
  · exact (h.separate hlt.le).pairwise
  · rw [h.empty hge]
    exact List.Pairwise.nil

end Region

section Regions

variable {config : BlocksStrategyConfig} {snapToMarketOpen : Bool}
  {regions : List ContinuousRegion} {region : ContinuousRegion}

def blockSpans (config : BlocksStrategyConfig) (snapToMarketOpen : Bool)
    (regions : List ContinuousRegion) : List (Instant × Instant) :=
  (config.blocksOf snapToMarketOpen regions).map GeneratedWindow.span

def within (region : ContinuousRegion) (spans : List (Instant × Instant)) :
    List (Instant × Instant) :=
  spans.filter fun span => decide (region.start ≤ span.1 ∧ span.2 ≤ region.end)

def regionSpans (config : BlocksStrategyConfig) (snapToMarketOpen : Bool)
    (region : ContinuousRegion) : List (Instant × Instant) :=
  (config.generateBlocks snapToMarketOpen region.end region.start).map GeneratedWindow.span

theorem blockSpans_cons (config : BlocksStrategyConfig) (snapToMarketOpen : Bool)
    (region : ContinuousRegion) (regions : List ContinuousRegion) :
    blockSpans config snapToMarketOpen (region :: regions) =
      regionSpans config snapToMarketOpen region ++
        blockSpans config snapToMarketOpen regions := by
  unfold blockSpans blocksOf regionSpans
  rw [List.flatMap_cons, List.map_append]

theorem mem_blockSpans {span : Instant × Instant} :
    span ∈ blockSpans config snapToMarketOpen regions ↔
      ∃ region ∈ regions, span ∈ regionSpans config snapToMarketOpen region := by
  unfold blockSpans blocksOf regionSpans
  rw [List.map_flatMap, List.mem_flatMap]

theorem regionSpans_spec (config : BlocksStrategyConfig) (snapToMarketOpen : Bool)
    (region : ContinuousRegion) : Blocks config snapToMarketOpen region.end region.start
      (regionSpans config snapToMarketOpen region) :=
  generateBlocks_spec config snapToMarketOpen region.end region.start

theorem blockSpans_pairwise (config : BlocksStrategyConfig) (snapToMarketOpen : Bool)
    (hregions : regions.Pairwise fun region later => region.end ≤ later.start) :
    (blockSpans config snapToMarketOpen regions).Pairwise fun span later => span.2 ≤ later.1 := by
  induction regions with
  | nil => exact List.Pairwise.nil
  | cons region regions ih =>
      obtain ⟨hfirst, hrest⟩ := List.pairwise_cons.mp hregions
      rw [blockSpans_cons]
      refine List.pairwise_append.mpr ⟨(regionSpans_spec _ _ _).pairwise, ih hrest, ?_⟩
      intro span hspan later hlater
      obtain ⟨other, hother, hmem⟩ := mem_blockSpans.mp hlater
      obtain ⟨-, -, hend⟩ := (regionSpans_spec _ _ _).inside hspan
      obtain ⟨hstart, -⟩ := (regionSpans_spec _ _ _).inside hmem
      exact hend.trans ((hfirst other hother).trans hstart)

theorem within_blockSpans
    (hregions : regions.Pairwise fun region later => region.end ≤ later.start)
    (hregion : region ∈ regions) : within region (blockSpans config snapToMarketOpen regions) =
      regionSpans config snapToMarketOpen region := by
  induction regions with
  | nil => cases hregion
  | cons first regions ih =>
      obtain ⟨hfirst, hrest⟩ := List.pairwise_cons.mp hregions
      rw [blockSpans_cons, within, List.filter_append]
      rcases List.mem_cons.mp hregion with rfl | hlater
      · have hown : (regionSpans config snapToMarketOpen region).filter (fun span =>
            decide (region.start ≤ span.1 ∧ span.2 ≤ region.end)) =
              regionSpans config snapToMarketOpen region := by
          apply List.filter_eq_self.mpr
          intro span hspan
          obtain ⟨hstart, -, hend⟩ := (regionSpans_spec _ _ _).inside hspan
          exact decide_eq_true ⟨hstart, hend⟩
        have hnone : (blockSpans config snapToMarketOpen regions).filter (fun span =>
            decide (region.start ≤ span.1 ∧ span.2 ≤ region.end)) = [] := by
          apply List.filter_eq_nil_iff.mpr
          intro span hspan hinside
          obtain ⟨other, hother, hmem⟩ := mem_blockSpans.mp hspan
          obtain ⟨hstart, hlt, -⟩ := (regionSpans_spec _ _ _).inside hmem
          have hend := (of_decide_eq_true hinside).2
          exact absurd (hend.trans ((hfirst other hother).trans hstart)) (not_le.mpr hlt)
        rw [hown, hnone, List.append_nil]
      · have hnone : (regionSpans config snapToMarketOpen first).filter (fun span =>
            decide (region.start ≤ span.1 ∧ span.2 ≤ region.end)) = [] := by
          apply List.filter_eq_nil_iff.mpr
          intro span hspan hinside
          obtain ⟨-, hlt, hend⟩ := (regionSpans_spec _ _ _).inside hspan
          have hstart := (of_decide_eq_true hinside).1
          exact absurd (hend.trans ((hfirst region hlater).trans hstart)) (not_le.mpr hlt)
        rw [hnone, List.nil_append]
        exact ih hrest hlater

structure Covers (config : BlocksStrategyConfig) (snapToMarketOpen : Bool)
    (regions : List ContinuousRegion) (windows : List GeneratedWindow) : Prop where
  chronological : windows.Pairwise fun window later => window.endTime ≤ later.startTime
  inside : ∀ window ∈ windows, ∃ region ∈ regions,
    region.start ≤ window.startTime ∧ window.endTime ≤ region.end
  bounded : ∀ window ∈ windows,
    hours config.minBlockHours ≤ window.endTime - window.startTime ∧
      window.endTime - window.startTime ≤ hours config.defaultBlockHours
  opens : snapToMarketOpen = true → ∀ window ∈ windows,
    isMarketOpen window.startTime = true ∧ isMarketHoliday window.startTime = false
  contiguous : snapToMarketOpen = false → ∀ region ∈ regions, ∃ tail,
    Spans.Tiles tail region.start (within region (windows.map GeneratedWindow.span)) ∧
      region.end - tail < hours config.minBlockHours
  covers : ∀ region ∈ regions, ∀ t, region.start ≤ t → t < region.end →
    (∃ window ∈ windows, window.startTime ≤ t ∧ t < window.endTime) ∨
      snapToMarketOpen = true ∧ Skipped region.start t ∨
        LeftOver config region.start region.end t
          (within region (windows.map GeneratedWindow.span))

theorem map_span_numbered (windows : List GeneratedWindow) :
    (windows.mapIdx fun place window => { window with blockIndex := place }).map
      GeneratedWindow.span = windows.map GeneratedWindow.span := by
  apply Lists.map_mapIdx_eq
  intro place window
  rfl

theorem blocksSplit_spans {brokerType symbol : String} (hregions : regions ≠ []) :
    ∃ windows, blocksSplit config brokerType symbol snapToMarketOpen none regions = .ok windows ∧
      windows.map GeneratedWindow.span = blockSpans config snapToMarketOpen regions := by
  unfold blocksSplit
  rw [if_neg hregions]
  exact ⟨_, rfl, map_span_numbered _⟩

theorem blocksSplit_limited {brokerType symbol : String} {countMax : Option ℕ}
    {windows : List GeneratedWindow}
    (h : blocksSplit config brokerType symbol snapToMarketOpen countMax regions = .ok windows) :
    (windows.map GeneratedWindow.span).IsPrefix (blockSpans config snapToMarketOpen regions) := by
  unfold blocksSplit at h
  split at h
  · cases h
  · rw [← Except.ok.inj h, map_span_numbered]
    apply List.IsPrefix.map
    split
    · exact List.take_prefix _ _
    · exact List.prefix_refl _

/-- The blocks of chronological regions cover them, but for stretches in which the market is
closed and tails too short for a block. -/
theorem blocksSplit_covers (config : BlocksStrategyConfig) (brokerType symbol : String)
    (snapToMarketOpen : Bool) (regions : List ContinuousRegion)
    (hchronological : regions.Pairwise fun region later => region.end ≤ later.start)
    (hregions : regions ≠ []) :
    ∃ windows, blocksSplit config brokerType symbol snapToMarketOpen none regions = .ok windows ∧
      Covers config snapToMarketOpen regions windows := by
  obtain ⟨windows, hsplit, hspans⟩ := blocksSplit_spans hregions
  have hwindow : ∀ window ∈ windows, ∃ region ∈ regions,
      window.span ∈ regionSpans config snapToMarketOpen region := by
    intro window hmem
    rw [← mem_blockSpans, ← hspans]
    exact List.mem_map_of_mem hmem
  have hwithin : ∀ region ∈ regions, within region (windows.map GeneratedWindow.span) =
      regionSpans config snapToMarketOpen region := by
    intro region hregion
    rw [hspans]
    exact within_blockSpans hchronological hregion
  refine ⟨windows, hsplit, ?_, ?_, ?_, ?_, ?_, ?_⟩
  · have hordered := blockSpans_pairwise config snapToMarketOpen hchronological
    rw [← hspans] at hordered
    exact List.pairwise_map.mp hordered
  · intro window hmem
    obtain ⟨region, hregion, hspan⟩ := hwindow window hmem
    obtain ⟨hstart, -, hend⟩ := (regionSpans_spec _ _ _).inside hspan
    exact ⟨region, hregion, hstart, hend⟩
  · intro window hmem
    obtain ⟨region, -, hspan⟩ := hwindow window hmem
    exact (regionSpans_spec _ _ _).bounded _ hspan
  · intro hsnap window hmem
    obtain ⟨region, -, hspan⟩ := hwindow window hmem
    have hopen := (regionSpans_spec _ _ _).opens hsnap _ hspan
    simpa [isClosed, GeneratedWindow.span] using hopen
  · intro hsnap region hregion
    rw [hwithin region hregion]
    exact (regionSpans_spec _ _ _).contiguous hsnap
  · intro region hregion t hlow hhigh
    rw [hwithin region hregion]
    rcases (regionSpans_spec config snapToMarketOpen region).covers t hlow hhigh with
      ⟨span, hspan, hcovered⟩ | hrest
    · have hmem : span ∈ windows.map GeneratedWindow.span := by
        rw [hspans]
        exact mem_blockSpans.mpr ⟨region, hregion, hspan⟩
      obtain ⟨window, hwindow', rfl⟩ := List.mem_map.mp hmem
      exact .inl ⟨window, hwindow', hcovered⟩
    · exact .inr hrest

theorem blocksSplit_weekend :
    ∃ windows, blocksSplit {} "mt5" "EURUSD" true none
        [⟨atHour 19734 18, atHour 19737 12, none, none⟩] = .ok windows ∧
      Covers {} true [⟨atHour 19734 18, atHour 19737 12, none, none⟩] windows :=
  blocksSplit_covers {} "mt5" "EURUSD" true _ (List.pairwise_singleton _ _) (List.cons_ne_nil _ _)

end Regions

end Finiex.BlockCoverage
