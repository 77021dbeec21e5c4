import Finiex.Preparation
import Finiex.Lib.Lists
import Finiex.Lib.Selections

namespace Finiex.PreparationIsolation

open Finiex.Types
open Finiex.Lib
open Finiex.Bars
open Finiex.Preparation

section Aggregation

theorem aggregate_fields (scenarios : List SingleScenario) (requirements : RequirementsMap) :
    scenarios.foldl RequirementsMap.addScenario requirements =
      { tickRequirements :=
          requirements.tickRequirements ++ scenarios.map SingleScenario.tickRequirement
        barRequirements :=
          requirements.barRequirements ++ scenarios.flatMap SingleScenario.barRequirements
        signalRequirements :=
          requirements.signalRequirements ++
            scenarios.flatMap SingleScenario.signalRequirements } := by
  induction scenarios generalizing requirements with
  | nil => simp
  | cons scenario scenarios ih =>
      rw [List.foldl_cons, ih]
      simp [RequirementsMap.addScenario]

theorem aggregate_tickRequirements (scenarios : List SingleScenario) :
    (aggregateRequirements scenarios).tickRequirements = scenarios.map SingleScenario.tickRequirement := by
  rw [aggregateRequirements, aggregate_fields]
  exact List.nil_append _

theorem aggregate_barRequirements (scenarios : List SingleScenario) :
    (aggregateRequirements scenarios).barRequirements =
      scenarios.flatMap SingleScenario.barRequirements := by
  rw [aggregateRequirements, aggregate_fields]
  exact List.nil_append _

theorem aggregate_signalRequirements (scenarios : List SingleScenario) :
    (aggregateRequirements scenarios).signalRequirements =
      scenarios.flatMap SingleScenario.signalRequirements := by
  rw [aggregateRequirements, aggregate_fields]
  exact List.nil_append _

end Aggregation

section Windows

variable {α : Type}

/-- A row may belong to a requirement: from its start on, and up to its end if the end bounds
it. -/
def keeps (requirement : TickRequirement) (row : TickRow) : Bool :=
  decide (requirement.startTime ≤ row.timestamp) &&
    (requirement.maxTicks.isSome || requirement.endTime.all fun endTime =>
      decide (row.timestamp ≤ endTime))

def window (requirement : TickRequirement) (row : α → TickRow) (rows : List α) : List α :=
  let kept := rows.filter fun x => keeps requirement (row x)
  match requirement.maxTicks with
  | some maxTicks => kept.take maxTicks
  | none => kept

theorem window_map {β : Type} (requirement : TickRequirement) (f : β → α) (row : α → TickRow)
    (rows : List β) :
    (window requirement (row ∘ f) rows).map f = window requirement row (rows.map f) := by
  unfold window
  cases requirement.maxTicks with
  | some maxTicks =>
      rw [List.map_take, List.filter_map]
      rfl
  | none =>
      rw [List.filter_map]
      rfl

theorem notAfter_timestamp {row later : TickRow} (h : notAfter row later) :
    row.timestamp ≤ later.timestamp := by
  rcases h with hlt | ⟨heq, -⟩
  · exact hlt.le
  · exact heq.le

theorem sliceRows_eq {rows : List TickRow}
    (hsorted : rows.Pairwise fun row later => row.timestamp ≤ later.timestamp)
    (requirement : TickRequirement) : sliceRows rows requirement = window requirement id rows := by
  unfold sliceRows window
  split
  · next maxTicks hmax =>
      have hdrop := drop_below TickRow.timestamp hsorted requirement.startTime
      have hkeeps : (rows.filter fun row => decide (requirement.startTime ≤ row.timestamp)) =
          rows.filter fun row => keeps requirement (id row) := by
        refine List.filter_congr fun row _ => ?_
        simp [keeps, hmax]
      rw [hmax, ← hkeeps, ← hdrop]
      rfl
  · next hmax =>
      obtain ⟨endTime, hend⟩ := Option.isSome_iff_exists.mp
        (requirement.bounded.resolve_left (by simp [hmax]))
      have hbetween := slice_between TickRow.timestamp hsorted requirement.startTime endTime
      have hkeeps : (rows.filter fun row => decide (requirement.startTime ≤ row.timestamp) &&
            decide (row.timestamp ≤ endTime)) =
          rows.filter fun row => keeps requirement (id row) := by
        refine List.filter_congr fun row _ => ?_
        simp [keeps, hmax, hend]
      simp only [hmax, hend, Option.get_some]
      rw [← hkeeps, ← hbetween]
      rfl

end Windows

section SharedFiles

def taggedRows (symbolFiles : SymbolFiles) : List (TickFile × TickRow) :=
  symbolFiles.files.flatMap fun file => file.rows.map fun row => (file, row)

def orderedRows (symbolFiles : SymbolFiles) : List (TickFile × TickRow) :=
  (taggedRows symbolFiles).insertionSort fun x y => notAfter x.2 y.2

def loads (symbolFiles : SymbolFiles) (group : List TickRequirement) (x : TickFile × TickRow) :
    Bool :=
  x.1.isRelevant (unionStart group) (unionEnd symbolFiles group)

instance : IsTrans TickRow notAfter where
  trans a b c hab hbc := by
    unfold notAfter at *
    rcases hab with hab | ⟨hab, hab'⟩ <;> rcases hbc with hbc | ⟨hbc, hbc'⟩
    · exact .inl (hab.trans hbc)
    · exact .inl (hbc ▸ hab)
    · exact .inl (hab ▸ hbc)
    · exact .inr ⟨hab.trans hbc, hab'.trans hbc'⟩

instance : Std.Total notAfter where
  total a b := by
    unfold notAfter
    rcases lt_trichotomy a.timestamp b.timestamp with hlt | heq | hgt
    · exact .inl (.inl hlt)
    · rcases le_total a.timeMsc b.timeMsc with hle | hle
      · exact .inl (.inr ⟨heq, hle⟩)
      · exact .inr (.inr ⟨heq.symm, hle⟩)
    · exact .inr (.inl hgt)

instance : IsTrans (TickFile × TickRow) fun x y => notAfter x.2 y.2 where
  trans _ _ _ hab hbc := IsTrans.trans (r := notAfter) _ _ _ hab hbc

instance : Std.Total fun x y : TickFile × TickRow => notAfter x.2 y.2 where
  total x y := Std.Total.total (r := notAfter) x.2 y.2

variable {symbolFiles : SymbolFiles} {group : List TickRequirement}

theorem loadRows_eq (symbolFiles : SymbolFiles) (group : List TickRequirement) :
    loadRows symbolFiles group =
      ((orderedRows symbolFiles).filter (loads symbolFiles group)).map Prod.snd := by
  rw [loadRows, SymbolFiles.getRelevantFiles, flatMap_filter_groups, orderedRows,
    ← insertionSort_filter]
  exact (List.map_insertionSort _ _ Prod.snd _ fun x _ y _ => Iff.rfl).symm

theorem loadRows_ascending (symbolFiles : SymbolFiles) (group : List TickRequirement) :
    (loadRows symbolFiles group).Pairwise fun row later => row.timestamp ≤ later.timestamp :=
  (List.pairwise_insertionSort notAfter _).imp notAfter_timestamp

def ticksOf (archive : DataArchive) (group : List TickRequirement)
    (requirement : TickRequirement) : List TickRow :=
  match archive.tickFiles requirement.brokerType requirement.symbol with
  | none => []
  | some symbolFiles => sliceRows (loadRows symbolFiles group) requirement

def groupOf (requirements : List TickRequirement) (requirement : TickRequirement) :
    List TickRequirement :=
  requirements.filter fun r =>
    (r.brokerType, r.symbol) = (requirement.brokerType, requirement.symbol)

theorem sliceRows_nil (requirement : TickRequirement) : sliceRows [] requirement = [] := by
  rw [sliceRows_eq List.Pairwise.nil, window]
  cases requirement.maxTicks <;> simp

theorem mem_loadGroup {archive : DataArchive} {brokerType symbol : String} {name : String}
    {ticks : List TickRow}
    (hgroup : ∀ r ∈ group, r.brokerType = brokerType ∧ r.symbol = symbol) :
    (name, ticks) ∈ loadGroup archive brokerType symbol group ↔
      ∃ r ∈ group, r.scenarioName = name ∧ ticks = ticksOf archive group r ∧ ticks ≠ [] := by
  unfold loadGroup
  cases hfiles : archive.tickFiles brokerType symbol with
  | none =>
      constructor
      · intro h
        exact absurd h List.not_mem_nil
      · rintro ⟨r, hr, -, rfl, hne⟩
        obtain ⟨rfl, rfl⟩ := hgroup r hr
        rw [ticksOf, hfiles] at hne
        exact absurd rfl hne
  | some symbolFiles =>
      have hticks : ∀ r ∈ group,
          ticksOf archive group r = sliceRows (loadRows symbolFiles group) r := by
        intro r hr
        obtain ⟨rfl, rfl⟩ := hgroup r hr
        rw [ticksOf, hfiles]
      simp only
      split
      · next hempty =>
          constructor
          · intro h
            exact absurd h List.not_mem_nil
          · rintro ⟨r, hr, -, rfl, hne⟩
            refine absurd ?_ hne
            rw [hticks r hr, loadRows, hempty]
            exact sliceRows_nil r
      · rw [List.mem_filterMap]
        constructor
        · rintro ⟨r, hr, hsome⟩
          split at hsome
          · cases hsome
          · next hne =>
              cases hsome
              exact ⟨r, hr, rfl, (hticks r hr).symm, hne⟩
        · rintro ⟨r, hr, rfl, rfl, hne⟩
          refine ⟨r, hr, ?_⟩
          rw [hticks r hr] at hne ⊢
          rw [if_neg hne]

/-- The slices loaded for the groups, before they are stored by scenario. -/
def loadsOf (archive : DataArchive) (requirements : List TickRequirement) :
    List (String × List TickRow) :=
  (groupBy (fun r : TickRequirement => (r.brokerType, r.symbol)) requirements).entries.flatMap
    fun entry => loadGroup archive entry.1.1 entry.1.2 entry.2

theorem mem_loadsOf {archive : DataArchive} {requirements : List TickRequirement}
    (hnames : (requirements.map TickRequirement.scenarioName).Nodup)
    {requirement : TickRequirement} (hmem : requirement ∈ requirements) {ticks : List TickRow} :
    (requirement.scenarioName, ticks) ∈ loadsOf archive requirements ↔
      ticks = ticksOf archive (groupOf requirements requirement) requirement ∧ ticks ≠ [] := by
  rw [loadsOf, List.mem_flatMap]
  constructor
  · rintro ⟨⟨key, group⟩, hentry, hload⟩
    obtain ⟨-, rfl⟩ := mem_groupBy.mp hentry
    have hgroup : ∀ r ∈ requirements.filter (fun r => (r.brokerType, r.symbol) = key),
        r.brokerType = key.1 ∧ r.symbol = key.2 := by
      intro r hr
      have hkey := of_decide_eq_true (List.mem_filter.mp hr).2
      rw [← hkey]
      exact ⟨rfl, rfl⟩
    obtain ⟨r, hr, hname, hticks, hne⟩ := (mem_loadGroup hgroup).mp hload
    have hsame : r = requirement :=
      List.inj_on_of_nodup_map hnames (List.mem_of_mem_filter hr) hmem hname
    subst hsame
    obtain ⟨hbroker, hsymbol⟩ := hgroup r hr
    refine ⟨?_, hne⟩
    rw [hticks, groupOf, hbroker, hsymbol]
  · rintro ⟨rfl, hne⟩
    refine ⟨((requirement.brokerType, requirement.symbol), groupOf requirements requirement),
      mem_groupBy.mpr ⟨?_, rfl⟩, ?_⟩
    · exact List.ne_nil_of_mem (List.mem_filter.mpr ⟨hmem, decide_eq_true rfl⟩)
    · refine (mem_loadGroup ?_).mpr ⟨requirement, ?_, rfl, rfl, hne⟩
      · intro r hr
        have hkey := of_decide_eq_true (List.mem_filter.mp hr).2
        exact ⟨congrArg Prod.fst hkey, congrArg Prod.snd hkey⟩
      · exact List.mem_filter.mpr ⟨hmem, decide_eq_true rfl⟩

/-- The prepared ticks of a scenario are the slice of its group's load. -/
theorem prepareTicks_get? {archive : DataArchive} {requirements : List TickRequirement}
    (hnames : (requirements.map TickRequirement.scenarioName).Nodup)
    {requirement : TickRequirement} (hmem : requirement ∈ requirements) :
    (prepareTicks archive requirements).get? requirement.scenarioName =
      if ticksOf archive (groupOf requirements requirement) requirement = [] then none
      else some (ticksOf archive (groupOf requirements requirement) requirement) := by
  show (Dict.assignAll ∅ (loadsOf archive requirements)).get? requirement.scenarioName = _
  split
  · next hempty =>
      refine Dict.get?_assignAll_of_absent fun habsent => ?_
      obtain ⟨⟨name, ticks⟩, hload, hname⟩ := List.mem_map.mp habsent
      subst hname
      obtain ⟨rfl, hne⟩ := (mem_loadsOf hnames hmem).mp hload
      exact hne hempty
  · next hne =>
      exact Dict.get?_assignAll_of_unique ((mem_loadsOf hnames hmem).mpr ⟨rfl, hne⟩)
        fun ticks hload => ((mem_loadsOf hnames hmem).mp hload).1

end SharedFiles

section SharedTicks

variable {α : Type} {requirement : TickRequirement} {row : α → TickRow} {rows : List α}
  {p q : α → Bool}

theorem window_filter_of_all (h : ∀ x ∈ window requirement row rows, p x = true) :
    window requirement row (rows.filter p) = window requirement row rows := by
  unfold window at h ⊢
  rw [List.filter_comm]
  cases hmax : requirement.maxTicks with
  | some maxTicks =>
      rw [hmax] at h
      exact take_filter_of_all h
  | none =>
      rw [hmax] at h
      exact List.filter_eq_self.mpr h

/-- Two loads with the same window share its rows, if no two rows are the same. -/
theorem both_of_window_eq (hdistinct : (rows.map row).Nodup)
    (hcover : ∀ x ∈ rows, p x = true ∨ q x = true)
    (h : (window requirement row (rows.filter p)).map row =
      (window requirement row (rows.filter q)).map row) :
    ∀ x ∈ window requirement row rows, p x = true ∧ q x = true := by
  have hkept : ((rows.filter fun x => keeps requirement (row x)).map row).Nodup :=
    hdistinct.sublist (List.filter_sublist.map _)
  have hcoverKept : ∀ x ∈ rows.filter fun x => keeps requirement (row x),
      p x = true ∨ q x = true := fun x hx => hcover x (List.mem_of_mem_filter hx)
  unfold window at h ⊢
  rw [List.filter_comm, List.filter_comm (p := fun x => keeps requirement (row x)) (q := q)] at h
  cases hmax : requirement.maxTicks with
  | some maxTicks =>
      rw [hmax] at h
      exact all_of_take_filter_eq hkept hcoverKept h
  | none =>
      rw [hmax] at h
      have hwhole : ∀ s : α → Bool,
          ((rows.filter fun x => keeps requirement (row x)).filter s).take
            (rows.filter fun x => keeps requirement (row x)).length =
          (rows.filter fun x => keeps requirement (row x)).filter s :=
        fun s => List.take_of_length_le (List.length_filter_le _ _)
      have hall := all_of_take_filter_eq hkept hcoverKept
        (n := (rows.filter fun x => keeps requirement (row x)).length) (by rw [hwhole, hwhole]; exact h)
      rw [List.take_length] at hall
      exact hall

variable {archive : DataArchive} {group : List TickRequirement}

/-- Among the rows loaded with the group or for the requirement alone, those in the window of
the requirement come from files that are loaded either way. -/
def SharesRows (archive : DataArchive) (group : List TickRequirement)
    (requirement : TickRequirement) : Prop :=
  ∀ symbolFiles ∈ archive.tickFiles requirement.brokerType requirement.symbol,
    ∀ x ∈ window requirement Prod.snd ((orderedRows symbolFiles).filter fun x =>
        loads symbolFiles group x || loads symbolFiles [requirement] x),
      loads symbolFiles group x = true ∧ loads symbolFiles [requirement] x = true

/-- No two rows of the symbol are the same. -/
def RowsDistinct (archive : DataArchive) (brokerType symbol : String) : Prop :=
  ∀ symbolFiles ∈ archive.tickFiles brokerType symbol,
    (symbolFiles.files.flatMap TickFile.rows).Nodup

theorem ticksOf_eq {symbolFiles : SymbolFiles}
    (hfiles : archive.tickFiles requirement.brokerType requirement.symbol = some symbolFiles) :
    ticksOf archive group requirement =
      (window requirement Prod.snd
        ((orderedRows symbolFiles).filter (loads symbolFiles group))).map Prod.snd := by
  rw [ticksOf, hfiles]
  show sliceRows (loadRows symbolFiles group) requirement = _
  rw [sliceRows_eq (loadRows_ascending symbolFiles group), loadRows_eq]
  exact (window_map requirement Prod.snd id _).symm

theorem filter_either_left {xs : List α} :
    (xs.filter fun x => p x || q x).filter p = xs.filter p := by
  rw [List.filter_filter]
  exact List.filter_congr fun x _ => by cases p x <;> rfl

theorem filter_either_right {xs : List α} :
    (xs.filter fun x => p x || q x).filter q = xs.filter q := by
  rw [List.filter_filter]
  exact List.filter_congr fun x _ => by cases q x <;> cases p x <;> rfl

theorem ticksOf_eq_of_shares (h : SharesRows archive group requirement) :
    ticksOf archive group requirement = ticksOf archive [requirement] requirement := by
  cases hfiles : archive.tickFiles requirement.brokerType requirement.symbol with
  | none => rw [ticksOf, ticksOf, hfiles]
  | some symbolFiles =>
      have hboth := h symbolFiles hfiles
      have hgroup := window_filter_of_all fun x hx => (hboth x hx).1
      have halone := window_filter_of_all fun x hx => (hboth x hx).2
      rw [filter_either_left] at hgroup
      rw [filter_either_right] at halone
      rw [ticksOf_eq hfiles, ticksOf_eq hfiles, hgroup, halone]

theorem shares_of_ticksOf_eq
    (hdistinct : RowsDistinct archive requirement.brokerType requirement.symbol)
    (h : ticksOf archive group requirement = ticksOf archive [requirement] requirement) :
    SharesRows archive group requirement := by
  intro symbolFiles hfiles
  rw [ticksOf_eq hfiles, ticksOf_eq hfiles] at h
  have hrows : ((orderedRows symbolFiles).map Prod.snd).Nodup := by
    have hall := flatMap_filter_groups (fun _ => true) TickFile.rows symbolFiles.files
    rw [List.filter_true, List.filter_true] at hall
    refine (List.Perm.nodup_iff ?_).mpr (hall ▸ hdistinct symbolFiles hfiles)
    exact (List.perm_insertionSort _ _).map _
  refine both_of_window_eq (hrows.sublist (List.filter_sublist.map _)) ?_ ?_
  · intro x hx
    have heither := (List.mem_filter.mp hx).2
    rwa [Bool.or_eq_true] at heither
  · rw [filter_either_left, filter_either_right]
    exact h

/-- A requirement loads a row alone. -/
def HasRows (archive : DataArchive) (requirement : TickRequirement) : Prop :=
  requirement.maxTicks ≠ some 0 ∧
    ∃ symbolFiles ∈ archive.tickFiles requirement.brokerType requirement.symbol,
      ∃ x ∈ taggedRows symbolFiles,
        loads symbolFiles [requirement] x = true ∧ keeps requirement x.2 = true

theorem ticksOf_ne_nil_iff :
    ticksOf archive [requirement] requirement ≠ [] ↔ HasRows archive requirement := by
  unfold HasRows
  cases hfiles : archive.tickFiles requirement.brokerType requirement.symbol with
  | none => simp [ticksOf, hfiles]
  | some symbolFiles =>
      have hkept : ((orderedRows symbolFiles).filter (loads symbolFiles [requirement])).filter
            (fun x => keeps requirement x.2) ≠ [] ↔
          ∃ x ∈ taggedRows symbolFiles,
            loads symbolFiles [requirement] x = true ∧ keeps requirement x.2 = true := by
        rw [List.filter_filter, ne_eq, List.filter_eq_nil_iff]
        simp [orderedRows, List.mem_insertionSort, and_comm]
      have hfiles' : (∃ symbolFiles' ∈ some symbolFiles, ∃ x ∈ taggedRows symbolFiles',
          loads symbolFiles' [requirement] x = true ∧ keeps requirement x.2 = true) ↔
          ∃ x ∈ taggedRows symbolFiles,
            loads symbolFiles [requirement] x = true ∧ keeps requirement x.2 = true :=
        ⟨fun ⟨_, hsome, hrow⟩ => Option.some.inj hsome ▸ hrow, fun hrow => ⟨symbolFiles, rfl, hrow⟩⟩
      rw [ticksOf_eq hfiles, ne_eq, List.map_eq_nil_iff, window, hfiles', ← hkept]
      cases hmax : requirement.maxTicks with
      | some maxTicks => simp only [List.take_eq_nil_iff, not_or, ne_eq, Option.some.injEq]
      | none => simp only [ne_eq, reduceCtorEq, not_false_eq_true, true_and]

end SharedTicks

section SharedBars

def barKey (requirement : BarRequirement) : BarKey :=
  (requirement.symbol, requirement.timeframe, requirement.startTime)

def fileOf (archive : DataArchive) (requirement : BarRequirement) : Option (List Bar) :=
  archive.barFile requirement.brokerType requirement.symbol requirement.timeframe

def barsBefore (archive : DataArchive) (requirement : BarRequirement) : List Bar :=
  ((fileOf archive requirement).getD []).filter fun bar => bar.timestamp < requirement.startTime

def cutOf (archive : DataArchive) (requirement : BarRequirement) : List Bar :=
  tail requirement.warmupCount (barsBefore archive requirement)

def loadOrder (archive : DataArchive) (requirements : List BarRequirement) :
    List BarRequirement :=
  (groupBy (fun r : BarRequirement => (r.brokerType, r.symbol, r.timeframe))
      requirements).entries.flatMap
    fun entry => entry.2.filter fun r => (fileOf archive r).isSome

def lastLoaded (archive : DataArchive) (requirements : List BarRequirement) (key : BarKey) :
    Option BarRequirement :=
  ((loadOrder archive requirements).filter fun r => barKey r = key).getLast?

variable {archive : DataArchive} {requirements : List BarRequirement}

theorem mem_loadOrder {requirement : BarRequirement} :
    requirement ∈ loadOrder archive requirements ↔
      requirement ∈ requirements ∧ (fileOf archive requirement).isSome := by
  rw [loadOrder, List.mem_flatMap]
  constructor
  · rintro ⟨⟨key, group⟩, hentry, hmem⟩
    obtain ⟨-, rfl⟩ := mem_groupBy.mp hentry
    obtain ⟨hgroup, hfile⟩ := List.mem_filter.mp hmem
    exact ⟨List.mem_of_mem_filter hgroup, hfile⟩
  · rintro ⟨hmem, hfile⟩
    have hgroup : requirement ∈ requirements.filter fun r =>
        (r.brokerType, r.symbol, r.timeframe) =
          (requirement.brokerType, requirement.symbol, requirement.timeframe) :=
      List.mem_filter.mpr ⟨hmem, decide_eq_true rfl⟩
    exact ⟨(_, _), mem_groupBy.mpr ⟨List.ne_nil_of_mem hgroup, rfl⟩,
      List.mem_filter.mpr ⟨hgroup, hfile⟩⟩

theorem prepareBars_eq (archive : DataArchive) (requirements : List BarRequirement) :
    prepareBars archive requirements =
      (∅ : Dict BarKey (List Bar)).assignAll
        ((loadOrder archive requirements).map fun r => (barKey r, cutOf archive r)) := by
  rw [prepareBars, loadOrder, List.map_flatMap]
  congr 1
  refine List.flatMap_congr fun entry hentry => ?_
  obtain ⟨key, group⟩ := entry
  obtain ⟨-, hgroup⟩ := mem_groupBy.mp hentry
  have hkey : ∀ r ∈ group,
      r.brokerType = key.1 ∧ r.symbol = key.2.1 ∧ r.timeframe = key.2.2 := by
    intro r hr
    rw [hgroup] at hr
    have heq := of_decide_eq_true (List.mem_filter.mp hr).2
    rw [← heq]
    exact ⟨rfl, rfl, rfl⟩
  have hfile : ∀ r ∈ group, fileOf archive r = archive.barFile key.1 key.2.1 key.2.2 := by
    intro r hr
    obtain ⟨hbroker, hsymbol, htimeframe⟩ := hkey r hr
    rw [fileOf, hbroker, hsymbol, htimeframe]
  simp only
  cases hbars : archive.barFile key.1 key.2.1 key.2.2 with
  | none =>
      have hskipped : group.filter (fun r => (fileOf archive r).isSome) = [] :=
        List.filter_eq_nil_iff.mpr fun r hr => by rw [hfile r hr, hbars]; simp
      rw [hskipped]
      rfl
  | some bars =>
      have hkept : group.filter (fun r => (fileOf archive r).isSome) = group :=
        List.filter_eq_self.mpr fun r hr => by rw [hfile r hr, hbars]; rfl
      rw [hkept]
      refine List.map_congr_left fun r hr => ?_
      obtain ⟨-, hsymbol, htimeframe⟩ := hkey r hr
      rw [barKey, cutOf, barsBefore, hfile r hr, hbars, hsymbol, htimeframe]
      rfl

theorem prepareBars_get? (key : BarKey) :
    (prepareBars archive requirements).get? key =
      (lastLoaded archive requirements key).map (cutOf archive) := by
  rw [prepareBars_eq, Dict.get?_assignAll_empty, List.filter_map, List.getLast?_map,
    Option.map_map, lastLoaded]
  rfl

theorem filterBarsForScenario_get? (scenario : SingleScenario) (allBars : Dict BarKey (List Bar))
    (key : BarKey) :
    (filterBarsForScenario scenario allBars).get? key =
      if key.1 = scenario.symbol ∧ key.2.2 = scenario.startDate then
        (allBars.get? key).map (internBars scenario.symbol key.2.1)
      else none := by
  have hentries : ∀ bars, (key, bars) ∈
      ((allBars.entries.filter fun entry => decide (entry.1.1 = scenario.symbol) &&
          decide (entry.1.2.2 = scenario.startDate)).map fun entry =>
        ((scenario.symbol, entry.1.2.1, entry.1.2.2),
          internBars scenario.symbol entry.1.2.1 entry.2)) ↔
      (key.1 = scenario.symbol ∧ key.2.2 = scenario.startDate) ∧
        ∃ stored, allBars.get? key = some stored ∧
          bars = internBars scenario.symbol key.2.1 stored := by
    intro bars
    rw [List.mem_map]
    constructor
    · rintro ⟨⟨⟨symbol, timeframe, start⟩, stored⟩, hmem, heq⟩
      obtain ⟨hentry, hmatch⟩ := List.mem_filter.mp hmem
      rw [Bool.and_eq_true, decide_eq_true_eq, decide_eq_true_eq] at hmatch
      obtain ⟨rfl, hstart⟩ := hmatch
      cases heq
      exact ⟨⟨rfl, hstart⟩, stored, (Dict.get?_eq_some_iff _).mpr hentry, rfl⟩
    · rintro ⟨⟨hsymbol, hstart⟩, stored, hstored, rfl⟩
      refine ⟨(key, stored), List.mem_filter.mpr ⟨(Dict.get?_eq_some_iff _).mp hstored, ?_⟩, ?_⟩
      · rw [Bool.and_eq_true, decide_eq_true_eq, decide_eq_true_eq]
        exact ⟨hsymbol, hstart⟩
      · obtain ⟨symbol, timeframe, start⟩ := key
        cases hsymbol
        rfl
  rw [filterBarsForScenario]
  cases hresult : (if key.1 = scenario.symbol ∧ key.2.2 = scenario.startDate then
      (allBars.get? key).map (internBars scenario.symbol key.2.1) else none) with
  | none =>
      refine Dict.get?_assignAll_of_absent fun habsent => ?_
      obtain ⟨⟨found, bars⟩, hmem, rfl⟩ := List.mem_map.mp habsent
      obtain ⟨hmatch, stored, hstored, -⟩ := (hentries bars).mp hmem
      rw [if_pos hmatch, hstored] at hresult
      cases hresult
  | some bars =>
      split at hresult
      · next hmatch =>
          obtain ⟨stored, hstored, rfl⟩ := Option.map_eq_some_iff.mp hresult
          refine Dict.get?_assignAll_of_unique ((hentries _).mpr ⟨hmatch, stored, hstored, rfl⟩) ?_
          intro bars hmem
          obtain ⟨-, other, hother, rfl⟩ := (hentries bars).mp hmem
          rw [hstored] at hother
          cases hother
          rfl
      · cases hresult

/-- Two requirements of one key cut the same bars: as many of one broker's file, or the same
bars of two brokers' files. -/
def SameWarmup (archive : DataArchive) (own stored : BarRequirement) : Prop :=
  if own.brokerType = stored.brokerType then
    min own.warmupCount (barsBefore archive own).length =
      min stored.warmupCount (barsBefore archive own).length
  else internBars own.symbol own.timeframe (cutOf archive own) =
    internBars own.symbol own.timeframe (cutOf archive stored)

/-- Of the batch's requirements for the scenario's symbol and start, the last to be loaded for
a timeframe cuts the bars the scenario requires of that timeframe itself. -/
def BarsShared (archive : DataArchive) (requirements : List BarRequirement)
    (scenario : SingleScenario) : Prop :=
  ∀ timeframe, ∀ stored ∈ lastLoaded archive requirements
      (scenario.symbol, timeframe, scenario.startDate),
    ∃ own ∈ scenario.barRequirements,
      own.timeframe = timeframe ∧ (fileOf archive own).isSome ∧ SameWarmup archive own stored

theorem tail_eq_iff {α : Type} (m n : ℕ) (xs : List α) :
    tail m xs = tail n xs ↔ min m xs.length = min n xs.length := by
  constructor
  · intro h
    have hlength := congrArg List.length h
    simp only [tail, List.length_drop] at hlength
    omega
  · intro h
    rw [tail, tail, show xs.length - m = xs.length - n by omega]

theorem lastLoaded_some {requirement : BarRequirement} {key : BarKey}
    (h : lastLoaded archive requirements key = some requirement) :
    requirement ∈ requirements ∧ (fileOf archive requirement).isSome ∧
      barKey requirement = key := by
  have hmem := List.mem_filter.mp (List.mem_of_mem_getLast? h)
  have hloaded := mem_loadOrder.mp hmem.1
  exact ⟨hloaded.1, hloaded.2, of_decide_eq_true hmem.2⟩

theorem lastLoaded_isSome {requirement : BarRequirement} (hmem : requirement ∈ requirements)
    (hfile : (fileOf archive requirement).isSome) :
    ∃ stored, lastLoaded archive requirements (barKey requirement) = some stored := by
  rw [← Option.isSome_iff_exists, lastLoaded, List.getLast?_isSome]
  exact List.ne_nil_of_mem
    (List.mem_filter.mpr ⟨mem_loadOrder.mpr ⟨hmem, hfile⟩, decide_eq_true rfl⟩)

theorem mem_barRequirements {scenario : SingleScenario} {requirement : BarRequirement}
    (h : requirement ∈ scenario.barRequirements) :
    requirement.brokerType = scenario.dataBrokerType ∧ requirement.symbol = scenario.symbol ∧
      requirement.startTime = scenario.startDate := by
  obtain ⟨entry, -, rfl⟩ := List.mem_map.mp h
  exact ⟨rfl, rfl, rfl⟩

theorem barRequirements_unique {scenario : SingleScenario} {requirement other : BarRequirement}
    (h : requirement ∈ scenario.barRequirements) (hother : other ∈ scenario.barRequirements)
    (htimeframe : requirement.timeframe = other.timeframe) : requirement = other := by
  obtain ⟨⟨timeframe, count⟩, hentry, rfl⟩ := List.mem_map.mp h
  obtain ⟨⟨timeframe', count'⟩, hentry', rfl⟩ := List.mem_map.mp hother
  cases htimeframe
  rw [Dict.snd_eq_of_mem _ hentry hentry']

theorem sameWarmup_iff {own stored : BarRequirement} (hkey : barKey stored = barKey own) :
    SameWarmup archive own stored ↔
      internBars own.symbol own.timeframe (cutOf archive own) =
        internBars own.symbol own.timeframe (cutOf archive stored) := by
  obtain ⟨hsymbol, htimeframe, hstart⟩ :
      stored.symbol = own.symbol ∧ stored.timeframe = own.timeframe ∧
        stored.startTime = own.startTime := by
    simpa [barKey] using hkey
  unfold SameWarmup
  split
  · next hbroker =>
      have hbefore : barsBefore archive stored = barsBefore archive own := by
        rw [barsBefore, barsBefore, fileOf, fileOf, hsymbol, htimeframe, hstart, hbroker]
      rw [cutOf, cutOf, hbefore, ← tail_eq_iff]
      constructor
      · intro h
        rw [h]
      · intro h
        have hlength := congrArg List.length h
        simp only [internBars, List.length_map, tail, List.length_drop] at hlength
        rw [tail_eq_iff]
        omega
  · exact Iff.rfl

/-- The warmup bars of a scenario in a batch are its own exactly when the batch shares them. -/
theorem bars_eq_iff {scenario : SingleScenario}
    (hown : ∀ requirement ∈ scenario.barRequirements, requirement ∈ requirements) :
    (∀ key, (filterBarsForScenario scenario (prepareBars archive requirements)).get? key =
      (filterBarsForScenario scenario
        (prepareBars archive scenario.barRequirements)).get? key) ↔
    BarsShared archive requirements scenario := by
  -- alone, a key holds the bars of the scenario's own requirement
  have halone : ∀ own ∈ scenario.barRequirements, (fileOf archive own).isSome →
      lastLoaded archive scenario.barRequirements (barKey own) = some own := by
    intro own hmem hfile
    obtain ⟨stored, hstored⟩ := lastLoaded_isSome hmem hfile
    obtain ⟨hmem', -, hkey⟩ := lastLoaded_some hstored
    have htimeframe : stored.timeframe = own.timeframe := congrArg (fun key => key.2.1) hkey
    rw [hstored, barRequirements_unique hmem' hmem htimeframe]
  have hkeyOf : ∀ own ∈ scenario.barRequirements,
      barKey own = (scenario.symbol, own.timeframe, scenario.startDate) := by
    intro own hmem
    obtain ⟨-, hsymbol, hstart⟩ := mem_barRequirements hmem
    rw [barKey, hsymbol, hstart]
  constructor
  · intro hsame timeframe stored hstored
    have hkey := hsame (scenario.symbol, timeframe, scenario.startDate)
    rw [filterBarsForScenario_get?, filterBarsForScenario_get?, if_pos ⟨rfl, rfl⟩,
      if_pos ⟨rfl, rfl⟩, prepareBars_get?, prepareBars_get?, hstored] at hkey
    cases hlast : lastLoaded archive scenario.barRequirements
        (scenario.symbol, timeframe, scenario.startDate) with
    | none =>
        rw [hlast] at hkey
        cases hkey
    | some own =>
        obtain ⟨hmem, hfile, hownKey⟩ := lastLoaded_some hlast
        have htimeframe : own.timeframe = timeframe := congrArg (fun key => key.2.1) hownKey
        refine ⟨own, hmem, htimeframe, hfile, ?_⟩
        rw [sameWarmup_iff ((lastLoaded_some hstored).2.2.trans hownKey.symm),
          (mem_barRequirements hmem).2.1, htimeframe]
        rw [hlast] at hkey
        exact (Option.some.inj hkey).symm
  · intro hshared key
    rw [filterBarsForScenario_get?, filterBarsForScenario_get?, prepareBars_get?,
      prepareBars_get?]
    split
    · next hmatch =>
        obtain ⟨symbol, timeframe, start⟩ := key
        obtain ⟨rfl, rfl⟩ := hmatch
        cases hstored : lastLoaded archive requirements
            (scenario.symbol, timeframe, scenario.startDate) with
        | some stored =>
            obtain ⟨own, hmem, htimeframe, hfile, hwarmup⟩ := hshared timeframe stored hstored
            subst htimeframe
            have hlast := halone own hmem hfile
            rw [hkeyOf own hmem] at hlast
            rw [sameWarmup_iff ((lastLoaded_some hstored).2.2.trans (hkeyOf own hmem).symm),
              (mem_barRequirements hmem).2.1] at hwarmup
            rw [hlast]
            exact congrArg some hwarmup.symm
        | none =>
            cases hlast : lastLoaded archive scenario.barRequirements
                (scenario.symbol, timeframe, scenario.startDate) with
            | none => rfl
            | some own =>
                obtain ⟨hmem, hfile, hkey⟩ := lastLoaded_some hlast
                obtain ⟨stored, hbatch⟩ := lastLoaded_isSome (hown own hmem) hfile
                rw [hkey, hstored] at hbatch
                cases hbatch
    · rfl

end SharedBars

section Packages

variable {Series : Type} {archive : DataArchive}
  {loadSeries : SingleScenario → SignalRequirement → Except String Series}
  {scenarios : List SingleScenario} {scenario : SingleScenario}

theorem flagClipped_rows (budgetMs clock : ℚ) (rows : List TickRow) :
    (flagClipped budgetMs clock rows).map TransportTick.row = rows := by
  induction rows generalizing clock with
  | nil => rfl
  | cons row rows ih =>
      rw [flagClipped]
      split
      · rw [List.map_cons, ih]
      · rw [List.map_cons, ih]

theorem applyTickBudget_rows (budgetMs : ℚ) (rows : List TickRow) :
    (applyTickBudget budgetMs rows).map TransportTick.row = rows := by
  unfold applyTickBudget
  cases rows with
  | nil => rfl
  | cons first rest =>
      simp only
      split
      · rw [List.map_map]
        exact List.map_id _
      · exact flagClipped_rows budgetMs 0 (first :: rest)

theorem mem_signalRequirements {requirement : SignalRequirement}
    (h : requirement ∈ scenario.signalRequirements) :
    requirement.scenarioName = scenario.name := by
  obtain ⟨worker, -, hworker⟩ := List.mem_filterMap.mp h
  cases worker with
  | indicator bars => cases hworker
  | signal kind dataPath =>
      cases hworker
      rfl

/-- Of a batch with distinct names, a scenario finds its own signal requirements. -/
theorem signalRequirements_of_name (hnames : (scenarios.map SingleScenario.name).Nodup)
    (hmem : scenario ∈ scenarios) :
    (aggregateRequirements scenarios).signalRequirements.filter
        (fun r => r.scenarioName = scenario.name) = scenario.signalRequirements := by
  rw [aggregate_signalRequirements]
  exact Lists.filter_flatMap_of_mem (fun _ _ _ hr => mem_signalRequirements hr) hnames hmem

def packagesOf (archive : DataArchive)
    (loadSeries : SingleScenario → SignalRequirement → Except String Series)
    (requirements : RequirementsMap) (scenarios : List SingleScenario) :
    List (ℕ × ProcessDataPackage Series) :=
  scenarios.filterMap fun scenario =>
    match packageFor loadSeries requirements (prepareTicks archive requirements.tickRequirements)
        (prepareBars archive requirements.barRequirements) scenario with
    | .error _ => none
    | .ok package => some (scenario.scenarioIndex, package)

theorem mem_packagesOf {requirements : RequirementsMap}
    (hindices : (scenarios.map SingleScenario.scenarioIndex).Nodup) (hmem : scenario ∈ scenarios)
    {package : ProcessDataPackage Series} :
    (scenario.scenarioIndex, package) ∈ packagesOf archive loadSeries requirements scenarios ↔
      packageFor loadSeries requirements (prepareTicks archive requirements.tickRequirements)
        (prepareBars archive requirements.barRequirements) scenario = .ok package := by
  rw [packagesOf, List.mem_filterMap]
  constructor
  · rintro ⟨other, hother, hpackage⟩
    split at hpackage
    · cases hpackage
    · next hok =>
        have hindex : other.scenarioIndex = scenario.scenarioIndex :=
          congrArg Prod.fst (Option.some.inj hpackage)
        rw [List.inj_on_of_nodup_map hindices hother hmem hindex] at hok
        rw [hok]
        exact congrArg Except.ok (congrArg Prod.snd (Option.some.inj hpackage))
  · intro hok
    exact ⟨scenario, hmem, by rw [hok]⟩

theorem prepareScenarioPackages_get? {requirements : RequirementsMap}
    (hindices : (scenarios.map SingleScenario.scenarioIndex).Nodup) (hmem : scenario ∈ scenarios) :
    (prepareScenarioPackages archive loadSeries requirements scenarios).get?
        scenario.scenarioIndex =
      (packageFor loadSeries requirements (prepareTicks archive requirements.tickRequirements)
        (prepareBars archive requirements.barRequirements) scenario).toOption := by
  show (Dict.assignAll ∅ (packagesOf archive loadSeries requirements scenarios)).get?
    scenario.scenarioIndex = _
  cases hresult : packageFor loadSeries requirements
      (prepareTicks archive requirements.tickRequirements)
      (prepareBars archive requirements.barRequirements) scenario with
  | ok package =>
      refine Dict.get?_assignAll_of_unique ((mem_packagesOf hindices hmem).mpr hresult)
        fun other hother => ?_
      have hok := (mem_packagesOf hindices hmem).mp hother
      rw [hresult] at hok
      exact (Except.ok.inj hok).symm
  | error _ =>
      refine Dict.get?_assignAll_of_absent fun habsent => ?_
      obtain ⟨⟨index, package⟩, hentry, hindex⟩ := List.mem_map.mp habsent
      subst hindex
      have hok := (mem_packagesOf hindices hmem).mp hentry
      rw [hresult] at hok
      cases hok

/-- The same ticks and the same warmup bars, or no package either way. -/
def SamePackage (batch alone : Option (ProcessDataPackage Series)) : Prop :=
  match batch, alone with
  | none, none => True
  | some package, some package' =>
      package.ticks = package'.ticks ∧ ∀ key, package.bars.get? key = package'.bars.get? key
  | _, _ => False

/-- A scenario is excluded for a reason of its own: an event names a data source it does not
bind, or a signal it requires cannot be loaded. -/
def Excluded (loadSeries : SingleScenario → SignalRequirement → Except String Series)
    (scenario : SingleScenario) : Prop :=
  unknownStaleSources scenario ≠ [] ∨
    ∃ message, loadSignalsForScenario loadSeries scenario (aggregateRequirements [scenario]) =
      .error message

/-- The package of a scenario does not depend on the others of its batch. -/
def PreparedApart (archive : DataArchive)
    (loadSeries : SingleScenario → SignalRequirement → Except String Series)
    (scenarios : List SingleScenario) (scenario : SingleScenario) : Prop :=
  Excluded loadSeries scenario ∨
    SharesRows archive
        (groupOf (scenarios.map SingleScenario.tickRequirement) scenario.tickRequirement)
        scenario.tickRequirement ∧
      (HasRows archive scenario.tickRequirement →
        BarsShared archive (aggregateRequirements scenarios).barRequirements scenario)

def transported (scenario : SingleScenario) (rows : List TickRow) : List TransportTick :=
  if 0 < scenario.tickProcessingBudgetMs
  then applyTickBudget scenario.tickProcessingBudgetMs rows
  else rows.map fun row => { row := row }

theorem transported_rows (scenario : SingleScenario) (rows : List TickRow) :
    (transported scenario rows).map TransportTick.row = rows := by
  unfold transported
  split
  · exact applyTickBudget_rows _ rows
  · rw [List.map_map]
    exact List.map_id rows

theorem packageFor_toOption {requirements : RequirementsMap}
    {allTicks : Dict String (List TickRow)} {allBars : Dict BarKey (List Bar)}
    {rows : List TickRow}
    (hrows : allTicks.get? scenario.name = if rows = [] then none else some rows) :
    (packageFor loadSeries requirements allTicks allBars scenario).toOption =
      if rows = [] ∨ unknownStaleSources scenario ≠ [] then none
      else
        (loadSignalsForScenario loadSeries scenario requirements).toOption.map fun signalSeries =>
          { ticks := (∅ : Dict String (List TransportTick)).set scenario.symbol
              (transported scenario rows)
            bars := filterBarsForScenario scenario allBars
            signalSeries := signalSeries } := by
  unfold packageFor
  rw [hrows]
  by_cases hempty : rows = []
  · rw [if_pos hempty, if_pos (Or.inl hempty)]
    rfl
  · rw [if_neg hempty]
    by_cases hstale : unknownStaleSources scenario = []
    · rw [if_neg (by simp [hempty, hstale])]
      simp only [if_pos hstale]
      cases loadSignalsForScenario loadSeries scenario requirements <;> rfl
    · rw [if_pos (Or.inr hstale)]
      simp only [if_neg hstale]
      rfl

/-- Two packages of a scenario from the same signals are the same if it is excluded or they
have the same ticks and, if any, the same bars. -/
theorem samePackage_iff {rows rows' : List TickRow} {bars bars' : Dict BarKey (List Bar)}
    {signals : Except String (Dict String Series)} :
    SamePackage
      (if rows = [] ∨ unknownStaleSources scenario ≠ [] then none
        else signals.toOption.map fun signalSeries =>
          { ticks := (∅ : Dict String (List TransportTick)).set scenario.symbol
              (transported scenario rows)
            bars := bars
            signalSeries := signalSeries })
      (if rows' = [] ∨ unknownStaleSources scenario ≠ [] then none
        else signals.toOption.map fun signalSeries =>
          { ticks := (∅ : Dict String (List TransportTick)).set scenario.symbol
              (transported scenario rows')
            bars := bars'
            signalSeries := signalSeries }) ↔
    (unknownStaleSources scenario ≠ [] ∨ ∃ message, signals = .error message) ∨
      rows = rows' ∧ (rows' ≠ [] → ∀ key, bars.get? key = bars'.get? key) := by
  by_cases hstale : unknownStaleSources scenario = []
  · cases signals with
    | error message =>
        refine iff_of_true ?_ (.inl (.inr ⟨message, rfl⟩))
        split <;> split <;> trivial
    | ok signalSeries =>
        have hincluded : ¬(unknownStaleSources scenario ≠ [] ∨
            ∃ message, (Except.ok signalSeries : Except String _) = .error message) := by
          rintro (h | ⟨message, hmessage⟩)
          · exact h hstale
          · cases hmessage
        rw [or_iff_right hincluded]
        by_cases hrows : rows = [] <;> by_cases hrows' : rows' = []
        · rw [if_pos (Or.inl hrows), if_pos (Or.inl hrows')]
          exact iff_of_true trivial ⟨hrows.trans hrows'.symm, fun h => absurd hrows' h⟩
        · rw [if_pos (Or.inl hrows), if_neg (by simp [hrows', hstale])]
          exact iff_of_false id fun h => hrows' (h.1 ▸ hrows)
        · rw [if_neg (by simp [hrows, hstale]), if_pos (Or.inl hrows')]
          exact iff_of_false id fun h => hrows (h.1 ▸ hrows')
        · rw [if_neg (by simp [hrows, hstale]), if_neg (by simp [hrows', hstale])]
          refine and_congr ⟨fun hticks => ?_, fun heq => by rw [heq]⟩
            ⟨fun h _ => h, fun h => h hrows'⟩
          have hstored := congrArg (fun ticks => Dict.get? ticks scenario.symbol) hticks
          simp only [Dict.get?_set_self, Option.some.injEq] at hstored
          rw [← transported_rows scenario rows, hstored, transported_rows]
  · refine iff_of_true ?_ (.inl (.inl hstale))
    rw [if_pos (Or.inr hstale), if_pos (Or.inr hstale)]
    trivial

/-- The package of a scenario in a batch, and the one it gets alone: they are the same if the
files loaded for its symbol and the warmup bars stored for its start leave its own data alone,
or the scenario is excluded; on rows that differ, only then. -/
theorem prepared_apart (archive : DataArchive)
    (loadSeries : SingleScenario → SignalRequirement → Except String Series)
    {scenarios : List SingleScenario} (hnames : (scenarios.map SingleScenario.name).Nodup)
    (hindices : (scenarios.map SingleScenario.scenarioIndex).Nodup)
    {scenario : SingleScenario} (hmem : scenario ∈ scenarios) :
    (PreparedApart archive loadSeries scenarios scenario →
      SamePackage
        ((prepareScenarioPackages archive loadSeries (aggregateRequirements scenarios)
          scenarios).get? scenario.scenarioIndex)
        ((prepareScenarioPackages archive loadSeries (aggregateRequirements [scenario])
          [scenario]).get? scenario.scenarioIndex)) ∧
    (RowsDistinct archive scenario.dataBrokerType scenario.symbol →
      SamePackage
        ((prepareScenarioPackages archive loadSeries (aggregateRequirements scenarios)
          scenarios).get? scenario.scenarioIndex)
        ((prepareScenarioPackages archive loadSeries (aggregateRequirements [scenario])
          [scenario]).get? scenario.scenarioIndex) →
      PreparedApart archive loadSeries scenarios scenario) := by
  have hname : ([scenario].map SingleScenario.name).Nodup := List.nodup_singleton _
  have hindex : ([scenario].map SingleScenario.scenarioIndex).Nodup := List.nodup_singleton _
  have hsignals : loadSignalsForScenario loadSeries scenario (aggregateRequirements scenarios) =
      loadSignalsForScenario loadSeries scenario (aggregateRequirements [scenario]) := by
    rw [loadSignalsForScenario, loadSignalsForScenario, signalRequirements_of_name hnames hmem,
      signalRequirements_of_name hname List.mem_cons_self]
  have hown : ∀ requirement ∈ scenario.barRequirements,
      requirement ∈ (aggregateRequirements scenarios).barRequirements := by
    intro requirement hrequirement
    rw [aggregate_barRequirements]
    exact List.mem_flatMap.mpr ⟨scenario, hmem, hrequirement⟩
  have hticks : ∀ {others : List SingleScenario}, (others.map SingleScenario.name).Nodup →
      scenario ∈ others →
      (prepareTicks archive (aggregateRequirements others).tickRequirements).get? scenario.name =
        if ticksOf archive (groupOf (others.map SingleScenario.tickRequirement)
            scenario.tickRequirement) scenario.tickRequirement = [] then none
        else some (ticksOf archive (groupOf (others.map SingleScenario.tickRequirement)
            scenario.tickRequirement) scenario.tickRequirement) := by
    intro others hdistinct hscenario
    rw [aggregate_tickRequirements]
    refine prepareTicks_get? ?_ (List.mem_map_of_mem hscenario)
    rw [List.map_map]
    exact hdistinct
  have hsingle : groupOf ([scenario].map SingleScenario.tickRequirement) scenario.tickRequirement =
      [scenario.tickRequirement] := List.filter_eq_self.mpr fun r hr => by
    rw [List.mem_singleton.mp hr]
    exact decide_eq_true rfl
  have halone : (aggregateRequirements [scenario]).barRequirements = scenario.barRequirements := by
    rw [aggregate_barRequirements]
    exact List.append_nil _
  have hbars : (∀ key, (filterBarsForScenario scenario (prepareBars archive
      (aggregateRequirements scenarios).barRequirements)).get? key =
      (filterBarsForScenario scenario (prepareBars archive scenario.barRequirements)).get? key) ↔
        BarsShared archive (aggregateRequirements scenarios).barRequirements scenario :=
    bars_eq_iff hown
  rw [prepareScenarioPackages_get? hindices hmem,
    prepareScenarioPackages_get? hindex List.mem_cons_self,
    packageFor_toOption (hticks hnames hmem), packageFor_toOption (hticks hname List.mem_cons_self),
    hsignals, halone, hsingle, samePackage_iff, hbars, ticksOf_ne_nil_iff]
  refine ⟨Or.imp id (And.imp ticksOf_eq_of_shares id), fun hdistinct => ?_⟩
  exact Or.imp id (And.imp (shares_of_ticksOf_eq hdistinct) id)

theorem SamePackage.ticks_eq {batch alone : Option (ProcessDataPackage Series)}
    (h : SamePackage batch alone) :
    batch.map ProcessDataPackage.ticks = alone.map ProcessDataPackage.ticks := by
  cases batch <;> cases alone <;> first | rfl | exact absurd h id | exact congrArg some h.1

end Packages

section Examples

def fileOfMinutes (minutes : List ℤ) : TickFile where
  startTime := minute (minutes.head?.getD 0)
  endTime := minute (minutes.getLast?.getD 0)
  rows := minutes.map rowAt

def twoFiles : DataArchive where
  tickFiles broker symbol :=
    if broker = "mt5" ∧ symbol = "EURUSD" then
      some { files := [fileOfMinutes [10, 11, 12], fileOfMinutes [20, 21]], nonempty := by simp }
    else none
  barFile broker symbol timeframe :=
    if broker = "mt5" ∧ symbol = "EURUSD" ∧ timeframe = .m5 then
      some [{ symbol := "EURUSD", timeframe := .m5, timestamp := minute 0 },
        { symbol := "EURUSD", timeframe := .m5, timestamp := minute 5 }]
    else none

def noSignals : SingleScenario → SignalRequirement → Except String Unit := fun _ _ => .ok ()

def fourTicks : SingleScenario where
  name := "four"
  scenarioIndex := 0
  symbol := "EURUSD"
  dataBrokerType := "mt5"
  startDate := minute 10
  maxTicks := some 4
  workers := [.indicator [(.m5, 1)]]
  bounded := .inl rfl

def twoMinutes : SingleScenario where
  name := "two"
  scenarioIndex := 1
  symbol := "EURUSD"
  dataBrokerType := "mt5"
  startDate := minute 10
  endDate := some (minute 11)
  workers := [.indicator [(.m5, 2)]]
  bounded := .inr rfl

def laterMinutes : SingleScenario where
  name := "later"
  scenarioIndex := 2
  symbol := "EURUSD"
  dataBrokerType := "mt5"
  startDate := minute 20
  endDate := some (minute 21)
  workers := [.indicator [(.m5, 2)]]
  bounded := .inr rfl

theorem prepared_apart_otherStart :
    SamePackage
      ((prepareScenarioPackages twoFiles noSignals
        (aggregateRequirements [twoMinutes, laterMinutes]) [twoMinutes, laterMinutes]).get? 1)
      ((prepareScenarioPackages twoFiles noSignals
        (aggregateRequirements [twoMinutes]) [twoMinutes]).get? 1) := by
  have hmem : twoMinutes ∈ [twoMinutes, laterMinutes] := List.mem_cons_self
  refine (prepared_apart twoFiles noSignals (by decide) (by decide) hmem).1
    (.inr ⟨?_, fun _ timeframe stored hstored => ?_⟩)
  · intro symbolFiles hfiles
    cases hfiles
    decide +kernel
  · have hloaded : ∀ timeframe, ∀ stored ∈ lastLoaded twoFiles
        (aggregateRequirements [twoMinutes, laterMinutes]).barRequirements
          ("EURUSD", timeframe, minute 10),
        stored ∈ twoMinutes.barRequirements ∧ stored.timeframe = timeframe ∧
          (fileOf twoFiles stored).isSome = true := by
      intro timeframe
      cases timeframe <;> decide +kernel
    obtain ⟨hown, htimeframe, hfile⟩ := hloaded timeframe stored hstored
    exact ⟨stored, hown, htimeframe, hfile, (sameWarmup_iff rfl).mpr rfl⟩

/-- Beside a scenario that ends at minute 11, the four ticks are three and the warmup bar is
two. -/
theorem neighbour_changes_package :
    ¬SamePackage
      ((prepareScenarioPackages twoFiles noSignals
        (aggregateRequirements [fourTicks, twoMinutes]) [fourTicks, twoMinutes]).get? 0)
      ((prepareScenarioPackages twoFiles noSignals
        (aggregateRequirements [fourTicks]) [fourTicks]).get? 0) := by
  intro hsame
  exact absurd hsame.ticks_eq (by decide +kernel)

end Examples

end Finiex.PreparationIsolation
