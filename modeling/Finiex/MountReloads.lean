import Finiex.SweepPhases
import Finiex.IdentitySoundness

namespace Finiex.MountReloads

open Finiex.Types
open Finiex.Lib
open Finiex.Bars
open Finiex.Preparation
open Finiex.PreparationIsolation
open Finiex.Coverage
open Finiex.Mounts
open Finiex.MountLookups
open Finiex.SweepPhases

section Twice

variable {Series : Type} {archive : DataArchive}

theorem min?_congr {xs ys : List ℤ} (h : ∀ x, x ∈ xs ↔ x ∈ ys) : xs.min? = ys.min? := by
  ext least
  simp only [List.min?_eq_some_iff, h]

theorem max?_congr {xs ys : List ℤ} (h : ∀ x, x ∈ xs ↔ x ∈ ys) : xs.max? = ys.max? := by
  ext greatest
  simp only [List.max?_eq_some_iff, h]

theorem unionStart_twice (group : List TickRequirement) :
    unionStart (group ++ group) = unionStart group := by
  have hmin : ((group ++ group).map TickRequirement.startTime).min? =
      (group.map TickRequirement.startTime).min? := min?_congr (by simp)
  rw [unionStart, hmin, unionStart]

theorem unionEnd_twice (symbolFiles : SymbolFiles) (group : List TickRequirement) :
    unionEnd symbolFiles (group ++ group) = unionEnd symbolFiles group := by
  have hmax : ((group ++ group).filterMap TickRequirement.endTime).max? =
      (group.filterMap TickRequirement.endTime).max? := max?_congr (by simp)
  rw [unionEnd, hmax, unionEnd]

theorem loadGroup_twice (brokerType symbol : String) (group : List TickRequirement) :
    loadGroup archive brokerType symbol (group ++ group) =
      loadGroup archive brokerType symbol group ++ loadGroup archive brokerType symbol group := by
  unfold loadGroup
  split
  · rfl
  · rw [unionStart_twice, unionEnd_twice]
    split
    · rfl
    · have hrows (symbolFiles : SymbolFiles) :
          loadRows symbolFiles (group ++ group) = loadRows symbolFiles group := by
        rw [loadRows, unionStart_twice, unionEnd_twice, loadRows]
      simp only [hrows, List.filterMap_append]

theorem prepareTicks_twice (requirements : List TickRequirement) :
    prepareTicks archive (requirements ++ requirements) = prepareTicks archive requirements := by
  unfold prepareTicks
  rw [groupBy_twice, List.flatMap_map]
  simp only [loadGroup_twice]
  exact Dict.assignAll_flatMap_twice ∅ _ _

theorem prepareBars_twice (requirements : List BarRequirement) :
    prepareBars archive (requirements ++ requirements) = prepareBars archive requirements := by
  unfold prepareBars
  rw [groupBy_twice, List.flatMap_map]
  refine Eq.trans (congrArg _ (List.flatMap_congr fun entry _ => ?_))
    (Dict.assignAll_flatMap_twice ∅ _ _)
  dsimp only
  split
  · rfl
  · exact List.map_append

variable {loadSeries : SingleScenario → SignalRequirement → Except String Series}

theorem loadSignals_twice {scenario : SingleScenario} {requirements requirements' : RequirementsMap}
    (h : requirements'.signalRequirements =
      requirements.signalRequirements ++ requirements.signalRequirements) :
    loadSignalsForScenario loadSeries scenario requirements' =
      loadSignalsForScenario loadSeries scenario requirements := by
  unfold loadSignalsForScenario
  rw [h, List.filter_append]
  exact Dict.foldlM_set_twice ∅

theorem packageFor_twice {requirements requirements' : RequirementsMap}
    (h : requirements'.signalRequirements =
      requirements.signalRequirements ++ requirements.signalRequirements)
    (allTicks : Dict String (List TickRow)) (allBars : Dict BarKey (List Bar))
    (scenario : SingleScenario) :
    packageFor loadSeries requirements' allTicks allBars scenario =
      packageFor loadSeries requirements allTicks allBars scenario := by
  unfold packageFor
  rw [loadSignals_twice h]

end Twice

section Collected

variable {collection : SingleScenario → Collection} {held : RequirementsMap}
  {scenarios : List SingleScenario}

/-- The requirements of no scenario are collected in part. -/
def CollectsWhole (collection : SingleScenario → Collection) (scenarios : List SingleScenario) :
    Prop :=
  ∀ scenario ∈ scenarios, ∀ workers, collection scenario ≠ .raised workers

def added (collection : SingleScenario → Collection) (scenario : SingleScenario) : Bool :=
  decide (collection scenario = .added)

theorem collectAndValidate_whole (h : CollectsWhole collection scenarios) :
    collectAndValidate collection held scenarios =
      (scenarios.filter (added collection)).foldl RequirementsMap.addScenario held := by
  induction scenarios generalizing held with
  | nil => rfl
  | cons scenario scenarios ih =>
      obtain ⟨hscenario, hscenarios⟩ := List.forall_mem_cons.mp h
      rw [collectAndValidate, List.foldl_cons, ← collectAndValidate, ih hscenarios, collect,
        List.filter_cons, added]
      cases hcollection : collection scenario with
      | added => rfl
      | excluded => rfl
      | raised workers => exact absurd hcollection (hscenario workers)

theorem collect_again (h : CollectsWhole collection scenarios) :
    collectAndValidate collection (collectAndValidate collection {} scenarios)
        (scenarios.filter (added collection)) =
      { tickRequirements :=
          (collectAndValidate collection {} scenarios).tickRequirements ++
            (collectAndValidate collection {} scenarios).tickRequirements
        barRequirements :=
          (collectAndValidate collection {} scenarios).barRequirements ++
            (collectAndValidate collection {} scenarios).barRequirements
        signalRequirements :=
          (collectAndValidate collection {} scenarios).signalRequirements ++
            (collectAndValidate collection {} scenarios).signalRequirements } := by
  have hagain : CollectsWhole collection (scenarios.filter (added collection)) :=
    fun scenario hscenario => h scenario (List.mem_of_mem_filter hscenario)
  rw [collectAndValidate_whole hagain, collectAndValidate_whole h, List.filter_filter]
  simp only [Bool.and_self, aggregate_fields, List.nil_append]

theorem prepareTicks_get?_none {archive : DataArchive} {requirements : List TickRequirement}
    {name : String} (h : name ∉ requirements.map TickRequirement.scenarioName) :
    (prepareTicks archive requirements).get? name = none := by
  refine (Dict.get?_assignAll_of_absent fun hmem => h ?_).trans rfl
  obtain ⟨⟨_, ticks⟩, hload, rfl⟩ := List.mem_map.mp hmem
  obtain ⟨⟨key, group⟩, hentry, hload⟩ := List.mem_flatMap.mp hload
  obtain ⟨-, rfl⟩ := mem_groupBy.mp hentry
  have hgroup : ∀ r ∈ requirements.filter (fun r => (r.brokerType, r.symbol) = key),
      r.brokerType = key.1 ∧ r.symbol = key.2 := by
    intro r hr
    have hkey := of_decide_eq_true (List.mem_filter.mp hr).2
    rw [← hkey]
    exact ⟨rfl, rfl⟩
  obtain ⟨r, hr, hname, -⟩ := (mem_loadGroup hgroup).mp hload
  exact List.mem_map.mpr ⟨r, List.mem_of_mem_filter hr, hname⟩

end Collected

section Marks

theorem map_valid?_marked (check : SingleScenario → Bool) (entries : List BatchScenario) :
    (marked (onBounded check) entries).map BatchScenario.valid? =
      (entries.map BatchScenario.valid?).map (Option.filter check) := by
  rw [marked, List.map_map, List.map_map]
  refine List.map_congr_left fun entry _ => ?_
  obtain ⟨listed, isValid⟩ := entry
  cases isValid <;> cases listed <;> simp [BatchScenario.valid?, onBounded, Option.filter]
  split <;> simp_all

theorem map_valid?_configured {validators : Validators} (h : ∀ listed, validators.config listed = true)
    (entries : List BatchScenario) :
    (marked (configured validators) entries).map BatchScenario.valid? =
      entries.map BatchScenario.valid? := by
  rw [marked, List.map_map]
  refine List.map_congr_left fun entry _ => ?_
  obtain ⟨listed, isValid⟩ := entry
  cases isValid <;> cases listed <;> simp [BatchScenario.valid?, configured, h]

theorem validScenarios_eq (entries : List BatchScenario) :
    validScenarios entries = (entries.map BatchScenario.valid?).reduceOption := by
  rw [List.reduceOption, List.filterMap_map]
  rfl

theorem validScenarios_congr {entries entries' : List BatchScenario}
    (h : entries'.map BatchScenario.valid? = entries.map BatchScenario.valid?) :
    validScenarios entries' = validScenarios entries := by
  rw [validScenarios_eq, validScenarios_eq, h]

theorem validScenarios_filter {check : SingleScenario → Bool} {entries entries' : List BatchScenario}
    (h : entries'.map BatchScenario.valid? =
      (entries.map BatchScenario.valid?).map (Option.filter check)) :
    validScenarios entries' = (validScenarios entries).filter check := by
  rw [validScenarios_eq, h, List.map_map, List.reduceOption, List.filterMap_map, validScenarios,
    List.filter_filterMap]
  rfl

theorem absorb_congr {entries entries' : List BatchScenario}
    {checked checked' : List (SingleScenario × List ValidationMessage)}
    (hvalid : entries'.map BatchScenario.valid? = entries.map BatchScenario.valid?)
    (hchecked : List.Forall₂ (fun result result' =>
      result'.1 = result.1 ∧ (result'.2 = [] ↔ result.2 = [])) checked checked') :
    (absorb entries' checked').map BatchScenario.valid? =
      (absorb entries checked).map BatchScenario.valid? := by
  induction entries generalizing entries' checked checked' with
  | nil =>
      obtain rfl := List.map_eq_nil_iff.mp hvalid
      rfl
  | cons entry entries ih =>
      cases entries' with
      | nil => cases hvalid
      | cons entry' entries' =>
          obtain ⟨hentry, hentries⟩ := List.cons.inj hvalid
          cases hscenario : entry.valid? with
          | none =>
              have hrest := ih hentries hchecked
              rw [hscenario] at hentry
              simp only [absorb, hscenario, hentry, List.map_cons, hrest]
          | some scenario =>
              rw [hscenario] at hentry
              cases hchecked with
              | nil =>
                  have hrest := ih hentries .nil
                  simp only [absorb, hscenario, hentry, List.map_cons, hrest]
              | @cons result result' _ _ hresult hresults =>
                  obtain ⟨moved, errors⟩ := result
                  obtain ⟨moved', errors'⟩ := result'
                  obtain ⟨rfl, herrors⟩ := hresult
                  have hrest := ih hentries hresults
                  have hempty : errors' = [] ↔ errors = [] := herrors
                  simp only [absorb, hscenario, hentry, List.map_cons, hrest]
                  simp only [BatchScenario.valid?, hempty]

end Marks

section Checks

variable {Series : Type} {validator validator' : ScenarioDataValidator}
  {requirements requirements' : RequirementsMap} {scenario : SingleScenario}

/-- Two validators judge a scenario by the same reports. -/
structure SameReports (validator validator' : ScenarioDataValidator) (scenario : SingleScenario) :
    Prop where
  coverage : validator'.dataCoverageReports scenario.dataBrokerType scenario.symbol =
    validator.dataCoverageReports scenario.dataBrokerType scenario.symbol
  signals : scenario.dataSentimentType ≠ "" →
    validator'.signalCoverageReports scenario.dataSentimentType scenario.symbol =
      validator.signalCoverageReports scenario.dataSentimentType scenario.symbol
  standard : validator'.isStandard = validator.isStandard
  allowed : validator'.allowedGapCategories = validator.allowedGapCategories

theorem warmupErrors_twice (h : validator'.isStandard = validator.isStandard)
    (hbars : requirements'.barRequirements =
      requirements.barRequirements ++ requirements.barRequirements)
    (package : ProcessDataPackage Series) :
    (validator'.validateWarmupQuality scenario package requirements').errors = [] ↔
      (validator.validateWarmupQuality scenario package requirements).errors = [] := by
  unfold ScenarioDataValidator.validateWarmupQuality
  rw [h, hbars]
  split
  · simp only [List.filter_append, List.filterMap_append, List.append_eq_nil_iff, and_self]
  · exact Iff.rfl

theorem signalStretch_congr (h : SameReports validator validator' scenario) (startDate : Instant)
    (package : ProcessDataPackage Series) :
    validator'.validateSignalStretch { scenario with startDate := startDate } package =
      validator.validateSignalStretch { scenario with startDate := startDate } package := by
  unfold ScenarioDataValidator.validateSignalStretch
  dsimp only
  split
  · rfl
  · next hsource => rw [h.signals hsource, h.allowed]

/-- A scenario is judged alike on requirements that are held twice. -/
theorem validateSingleScenario_twice (h : SameReports validator validator' scenario)
    (hbars : requirements'.barRequirements =
      requirements.barRequirements ++ requirements.barRequirements)
    (package : ProcessDataPackage Series) :
    (validator'.validateSingleScenario scenario package requirements').1 =
        (validator.validateSingleScenario scenario package requirements).1 ∧
      ((validator'.validateSingleScenario scenario package requirements').2.errors = [] ↔
        (validator.validateSingleScenario scenario package requirements).2.errors = []) := by
  unfold ScenarioDataValidator.validateSingleScenario
  rw [h.coverage]
  split
  · exact ⟨rfl, Iff.rfl⟩
  · next report _ =>
      obtain ⟨startDate, hmoved⟩ := validateStartDateNotInGap_moves scenario report
      refine ⟨rfl, ?_⟩
      simp only [hmoved, List.append_eq_nil_iff, signalStretch_congr h,
        warmupErrors_twice h.standard hbars, ScenarioDataValidator.validateTickStretch, h.allowed]

end Checks

section Reload

variable {Series : Type} {workspace : Workspace Series} {entries reloaded : List BatchScenario}

/-- The scenarios of a batch whose requirements have been collected once, without those that are
not available or whose requirements are not added. -/
structure Reload (workspace : Workspace Series) (entries reloaded : List BatchScenario) : Prop where
  names : ((validScenarios entries).map SingleScenario.name).Nodup
  config : ∀ listed, workspace.validators.config listed = true
  whole : CollectsWhole workspace.validators.collection
    ((validScenarios entries).filter workspace.validators.availability)
  kept : reloaded.map BatchScenario.valid? =
    ((entries.map BatchScenario.valid?).map (Option.filter workspace.validators.availability)).map
      (Option.filter (added workspace.validators.collection))

def heldBy (workspace : Workspace Series) (entries : List BatchScenario) : RequirementsMap :=
  collectAndValidate workspace.validators.collection {}
    ((validScenarios entries).filter workspace.validators.availability)

theorem validScenarios_available (hconfig : ∀ listed, workspace.validators.config listed = true)
    (entries : List BatchScenario) :
    validScenarios (marked (onBounded workspace.validators.availability)
      (marked (configured workspace.validators) entries)) =
        (validScenarios entries).filter workspace.validators.availability := by
  have hconfigured := validScenarios_congr (map_valid?_configured hconfig entries)
  rw [validScenarios_filter (map_valid?_marked _ _), hconfigured]

/-- What is valid after the load has passed the checks of the phases before, and has its data. -/
theorem map_valid?_loadBatch (hconfig : ∀ listed, workspace.validators.config listed = true)
    (held : RequirementsMap) (entries : List BatchScenario) :
    (loadBatch workspace held entries).entries.map BatchScenario.valid? =
      (((entries.map BatchScenario.valid?).map
        (Option.filter workspace.validators.availability)).map
          (Option.filter (added workspace.validators.collection))).map
            (Option.filter fun scenario => (packageFor workspace.loadSeries
              (loadBatch workspace held entries).requirementsMap
              (prepareTicks workspace.archive
                (loadBatch workspace held entries).requirementsMap.tickRequirements)
              (prepareBars workspace.archive
                (loadBatch workspace held entries).requirementsMap.barRequirements)
              scenario).isOk) := by
  rw [← map_valid?_configured hconfig entries, ← map_valid?_marked, ← map_valid?_marked,
    ← map_valid?_marked]
  rfl

variable (h : Reload workspace entries reloaded)

include h

theorem Reload.valid_reloaded : validScenarios reloaded =
    ((validScenarios entries).filter workspace.validators.availability).filter
      (added workspace.validators.collection) := by
  have hmarked : (marked (onBounded workspace.validators.availability) entries).map
      BatchScenario.valid? =
        (entries.map BatchScenario.valid?).map (Option.filter workspace.validators.availability) :=
    map_valid?_marked _ _
  rw [validScenarios_filter (h.kept.trans (congrArg _ hmarked.symm)), validScenarios_filter hmarked]

theorem Reload.valid_of_reloaded {scenario : SingleScenario}
    (hscenario : scenario ∈ validScenarios reloaded) :
    scenario ∈ validScenarios entries ∧ workspace.validators.availability scenario = true := by
  rw [h.valid_reloaded] at hscenario
  exact List.mem_filter.mp (List.mem_of_mem_filter hscenario)

theorem Reload.requirements : (loadBatch workspace {} entries).requirementsMap =
    heldBy workspace entries :=
  congrArg _ (validScenarios_available h.config entries)

theorem Reload.requirements_again :
    (loadBatch workspace (heldBy workspace entries) reloaded).requirementsMap =
      { tickRequirements :=
          (heldBy workspace entries).tickRequirements ++ (heldBy workspace entries).tickRequirements
        barRequirements :=
          (heldBy workspace entries).barRequirements ++ (heldBy workspace entries).barRequirements
        signalRequirements := (heldBy workspace entries).signalRequirements ++
          (heldBy workspace entries).signalRequirements } := by
  have havailable : (validScenarios reloaded).filter workspace.validators.availability =
      validScenarios reloaded :=
    List.filter_eq_self.mpr fun _ hscenario => (h.valid_of_reloaded hscenario).2
  have hcollected : (loadBatch workspace (heldBy workspace entries) reloaded).requirementsMap =
      collectAndValidate workspace.validators.collection (heldBy workspace entries)
        ((validScenarios reloaded).filter workspace.validators.availability) :=
    congrArg _ (validScenarios_available h.config reloaded)
  rw [hcollected, havailable, h.valid_reloaded]
  exact collect_again h.whole

theorem Reload.package_none {scenario : SingleScenario}
    (hscenario : scenario ∈ validScenarios entries)
    (hout : scenario ∉ ((validScenarios entries).filter workspace.validators.availability).filter
      (added workspace.validators.collection))
    (allBars : Dict BarKey (List Bar)) :
    packageFor workspace.loadSeries (heldBy workspace entries)
        (prepareTicks workspace.archive (heldBy workspace entries).tickRequirements) allBars scenario =
      .error (.noTickData scenario.name
        (prepareTicks workspace.archive (heldBy workspace entries).tickRequirements).keys) := by
  have hname : scenario.name ∉
      (heldBy workspace entries).tickRequirements.map TickRequirement.scenarioName := by
    rw [heldBy, collectAndValidate_whole h.whole, aggregate_fields]
    intro hmem
    rw [List.nil_append, List.map_map] at hmem
    obtain ⟨other, hother, hsame⟩ := List.mem_map.mp hmem
    have hvalid := List.mem_of_mem_filter (List.mem_of_mem_filter hother)
    rw [List.inj_on_of_nodup_map h.names hvalid hscenario hsame] at hother
    exact hout hother
  unfold packageFor
  rw [prepareTicks_get?_none hname]

theorem Reload.packages : (loadBatch workspace (heldBy workspace entries) reloaded).scenarioPackages =
    (loadBatch workspace {} entries).scenarioPackages := by
  have hfirst := validScenarios_congr (map_valid?_configured h.config entries)
  have hsecond := validScenarios_congr (map_valid?_configured h.config reloaded)
  show Dict.assignAll ∅ (packagesOf workspace.archive workspace.loadSeries
      (loadBatch workspace (heldBy workspace entries) reloaded).requirementsMap _) =
    Dict.assignAll ∅ (packagesOf workspace.archive workspace.loadSeries
      (loadBatch workspace {} entries).requirementsMap _)
  rw [h.requirements, h.requirements_again, hfirst, hsecond, h.valid_reloaded]
  apply congrArg
  unfold packagesOf
  rw [prepareTicks_twice, prepareBars_twice, List.filter_filter, List.filterMap_filter]
  refine List.filterMap_congr fun scenario hscenario => ?_
  rw [packageFor_twice rfl]
  split
  · rfl
  · next hout =>
      rw [h.package_none hscenario]
      rw [List.filter_filter, List.mem_filter]
      exact fun hmem => hout hmem.2

theorem Reload.loaded :
    (loadBatch workspace (heldBy workspace entries) reloaded).entries.map BatchScenario.valid? =
      (loadBatch workspace {} entries).entries.map BatchScenario.valid? := by
  have hok : (fun scenario => (packageFor workspace.loadSeries
        (loadBatch workspace (heldBy workspace entries) reloaded).requirementsMap
        (prepareTicks workspace.archive
          (loadBatch workspace (heldBy workspace entries) reloaded).requirementsMap.tickRequirements)
        (prepareBars workspace.archive
          (loadBatch workspace (heldBy workspace entries) reloaded).requirementsMap.barRequirements)
        scenario).isOk) =
      fun scenario => (packageFor workspace.loadSeries
        (loadBatch workspace {} entries).requirementsMap
        (prepareTicks workspace.archive
          (loadBatch workspace {} entries).requirementsMap.tickRequirements)
        (prepareBars workspace.archive
          (loadBatch workspace {} entries).requirementsMap.barRequirements) scenario).isOk := by
    funext scenario
    rw [h.requirements, h.requirements_again, prepareTicks_twice, prepareBars_twice,
      packageFor_twice rfl]
  rw [map_valid?_loadBatch h.config, map_valid?_loadBatch h.config, hok, h.kept]
  simp only [List.map_map]
  refine List.map_congr_left fun entry _ => ?_
  simp only [Function.comp_apply, Option.filter_filter]
  congr 1
  funext scenario
  cases workspace.validators.availability scenario <;>
    cases added workspace.validators.collection scenario <;> simp

theorem Reload.sameReports {scenario : SingleScenario}
    (hscenario : scenario ∈ validScenarios reloaded) :
    SameReports (loadBatch workspace {} entries).validator
      (loadBatch workspace (heldBy workspace entries) reloaded).validator scenario := by
  have hfirst := validScenarios_congr (map_valid?_configured h.config entries)
  have hsecond := validScenarios_congr (map_valid?_configured h.config reloaded)
  have hmem : scenario ∈ validScenarios entries := (h.valid_of_reloaded hscenario).1
  rw [← hfirst] at hmem
  rw [← hsecond] at hscenario
  have hdata {scenarios : List SingleScenario} (h : scenario ∈ scenarios) :
      (scenario.dataBrokerType, scenario.symbol) ∈
        scenarios.map fun s => (s.dataBrokerType, s.symbol) := List.mem_map.mpr ⟨scenario, h, rfl⟩
  have hsignals {scenarios : List SingleScenario} (h : scenario ∈ scenarios) :
      (scenario.dataSentimentType, scenario.symbol) ∈
        scenarios.map fun s => (s.dataSentimentType, s.symbol) := List.mem_map.mpr ⟨scenario, h, rfl⟩
  refine ⟨?_, fun hsource => ?_, rfl, rfl⟩
  · simp only [loadBatch, ScenarioDataValidator.build]
    rw [if_pos (hdata hscenario), if_pos (hdata hmem)]
  · simp only [loadBatch, ScenarioDataValidator.build]
    rw [if_pos ⟨hsource, hsignals hscenario⟩, if_pos ⟨hsource, hsignals hmem⟩]

theorem Reload.valid_of_loaded {scenario : SingleScenario}
    (hscenario : scenario ∈ validScenarios (loadBatch workspace {} entries).entries) :
    scenario ∈ validScenarios reloaded := by
  rw [← validScenarios_congr h.loaded] at hscenario
  rw [← validScenarios_congr (map_valid?_configured h.config reloaded)]
  exact (mem_valid_of_marked (mem_valid_of_marked (mem_valid_of_marked hscenario).1).1).1

theorem Reload.checked :
    (prepareMount workspace (heldBy workspace entries) reloaded).2.map BatchScenario.valid? =
      (prepareMount workspace {} entries).2.map BatchScenario.valid? := by
  have hbars : (loadBatch workspace (heldBy workspace entries) reloaded).requirementsMap.barRequirements =
      (loadBatch workspace {} entries).requirementsMap.barRequirements ++
        (loadBatch workspace {} entries).requirementsMap.barRequirements := by
    rw [h.requirements_again, h.requirements]
  apply absorb_congr h.loaded
  unfold ScenarioDataValidator.validateLoadedData
  rw [validScenarios_congr h.loaded, h.packages]
  refine Pointwise.mapIdx ?_ (List.forall₂_eq_eq_eq ▸ rfl)
  rintro place scenario _ hplace rfl
  have hscenario := List.mem_of_getElem? hplace
  dsimp only
  split
  · exact ⟨rfl, Iff.rfl⟩
  · exact validateSingleScenario_twice (h.sameReports (h.valid_of_loaded hscenario)) hbars _

/-- The guard passes on what has been loaded again exactly if it passes on the first load. -/
theorem Reload.guard (hnumbered : Numbered entries) (hnumbered' : Numbered reloaded) :
    (prepareMount workspace (heldBy workspace entries) reloaded).2.all
        (passesGuard (prepareMount workspace (heldBy workspace entries) reloaded).1) =
      (prepareMount workspace {} entries).2.all
        (passesGuard (prepareMount workspace {} entries).1) := by
  have hfirst := @numbered_prepareMount _ workspace {} _ hnumbered
  have hsecond := @numbered_prepareMount _ workspace (heldBy workspace entries) _ hnumbered'
  have hpairs : (prepareMount workspace (heldBy workspace entries) reloaded).2.map
        (fun entry => (entry.scenario.scenarioIndex, entry.valid?)) =
      (prepareMount workspace {} entries).2.map
        fun entry => (entry.scenario.scenarioIndex, entry.valid?) := by
    have hlength := congrArg List.length h.checked
    simp only [List.length_map] at hlength
    have hindices := hsecond.trans ((congrArg List.range hlength).trans hfirst.symm)
    rw [← List.zip_map', ← List.zip_map', hindices]
    exact congrArg _ h.checked
  have hpackages : (prepareMount workspace (heldBy workspace entries) reloaded).1.scenarioPackages =
      (prepareMount workspace {} entries).1.scenarioPackages := h.packages
  have hpasses (mount : MountPackage Series) (checked : List BatchScenario)
      (hguard : checked.all (passesGuard mount) = true ↔ ∀ entry ∈ checked,
        ∀ package ∈ mount.scenarioPackages.get? entry.scenario.scenarioIndex,
          entry.valid?.isSome = true) :
      checked.all (passesGuard mount) = true ↔
        ∀ pair ∈ checked.map fun entry => (entry.scenario.scenarioIndex, entry.valid?),
          ∀ package ∈ mount.scenarioPackages.get? pair.1, pair.2.isSome = true := by
    rw [hguard, List.forall_mem_map]
  have hagain := hpasses (prepareMount workspace (heldBy workspace entries) reloaded).1
    (prepareMount workspace (heldBy workspace entries) reloaded).2 (guard_iff hsecond)
  have honce := hpasses (prepareMount workspace {} entries).1 (prepareMount workspace {} entries).2
    (guard_iff hfirst)
  rw [Bool.eq_iff_iff, hagain, honce, hpairs, hpackages]

end Reload

end Finiex.MountReloads
