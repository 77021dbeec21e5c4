import Finiex.SweepReloads

namespace Finiex.SweepSelections

open Finiex.Types
open Finiex.Lib
open Finiex.Bars
open Finiex.Preparation
open Finiex.PreparationIsolation
open Finiex.Coverage
open Finiex.Mounts
open Finiex.MountLookups
open Finiex.DataIdentity
open Finiex.MountReloads
open Finiex.SweepGrid
open Finiex.SweepRuns
open Finiex.SweepPhases
open Finiex.SweepOverrides
open Finiex.SweepReloads

section Execution

variable {Series : Type} {env : Environment Series} {mount mount' : MountPackage Series}
  {mode : ExecutionMode} {scenarios scenarios' : List ConfiguredScenario}

/-- Two packages hold the same data. -/
structure SamePackages (package package' : ProcessDataPackage Series) : Prop where
  ticks : package'.ticks = package.ticks
  bars : ∀ key, package'.bars.get? key = package.bars.get? key
  signals : package'.signalSeries = package.signalSeries

/-- Two runs are of one scenario, in one configuration, on the same data. -/
structure SameRun (run run' : ProcessRun Series) : Prop where
  scenario : run'.scenario = run.scenario
  package : SamePackages run.package run'.package

theorem SameRun.refl (run : ProcessRun Series) : SameRun run run :=
  ⟨rfl, rfl, fun _ => rfl, rfl⟩

theorem rel_cases {α : Type} {R : α → α → Prop} {x? y? : Option α} (h : Option.Rel R x? y?) :
    (x? = none ∧ y? = none) ∨ ∃ x y, x? = some x ∧ y? = some y ∧ R x y := by
  cases h with
  | none => exact .inl ⟨rfl, rfl⟩
  | some hvalue => exact .inr ⟨_, _, rfl, rfl, hvalue⟩

theorem runAt_rel {place : ℕ} {scenario : ConfiguredScenario}
    (h : scenario.isValid = true → Option.Rel SamePackages
      (mount.scenarioPackages.get? place) (mount'.scenarioPackages.get? place)) :
    Option.Rel SameRun (runAt env mount.scenarioPackages mode place scenario)
      (runAt env mount'.scenarioPackages mode place scenario) := by
  unfold runAt
  split
  · unfold resultAt
    cases hentry : (env.entry scenario).valid? with
    | none => exact .none
    | some single =>
        have hpackages := h (BatchScenario.valid?_eq_some.mp hentry).1
        rcases rel_cases hpackages with ⟨hnone, hnone'⟩ | ⟨package, package', hsome, hsome', hsame⟩
        · rw [hnone, hnone']
          exact .none
        · rw [hsome, hsome']
          exact .some ⟨rfl, hsame⟩
  · exact .none

/-- Two executions that the guard lets pass run the same, where what is valid is the same. -/
theorem execute_rel (hguard : (env.entries scenarios).all (passesGuard mount) = true)
    (hguard' : (env.entries scenarios').all (passesGuard mount') = true)
    (hsame : List.Forall₂ SameIfValid scenarios scenarios')
    (hpackages : ∀ place scenario, scenarios[place]? = some scenario → scenario.isValid = true →
      Option.Rel SamePackages (mount.scenarioPackages.get? place)
        (mount'.scenarioPackages.get? place)) :
    List.Forall₂ SameRun (env.execute mount mode scenarios)
      (env.execute mount' mode scenarios') := by
  rw [execute_eq, execute_eq, if_pos hguard, if_pos hguard']
  refine Pointwise.reduceOption (Pointwise.mapIdx ?_ hsame)
  intro place scenario scenario' hplace hvalid
  rw [runAt_congr hvalid]
  exact runAt_rel (hpackages place scenario hplace)

end Execution

section Checks

variable {Series : Type} {validator validator' : ScenarioDataValidator}
  {requirements requirements' : RequirementsMap} {scenario : SingleScenario}
  {package package' : ProcessDataPackage Series}

/-- A scenario is judged alike on the same data and the same requirements. -/
theorem validateSingleScenario_congr (h : SameReports validator validator' scenario)
    (hbars : requirements'.barRequirements.filter (fun r => r.scenarioName = scenario.name) =
      requirements.barRequirements.filter fun r => r.scenarioName = scenario.name)
    (hpackage : SamePackages package package') :
    validator'.validateSingleScenario scenario package' requirements' =
      validator.validateSingleScenario scenario package requirements := by
  unfold ScenarioDataValidator.validateSingleScenario
  rw [h.coverage]
  split
  · rfl
  · next report _ =>
      obtain ⟨startDate, hmoved⟩ := validateStartDateNotInGap_moves scenario report
      have hwarmup : validator'.validateWarmupQuality { scenario with startDate := startDate }
          package' requirements' =
            validator.validateWarmupQuality { scenario with startDate := startDate } package
              requirements := by
        unfold ScenarioDataValidator.validateWarmupQuality
        simp only [hbars, hpackage.bars, h.standard]
      have hticks : validator'.validateTickStretch { scenario with startDate := startDate } report
          package' =
            validator.validateTickStretch { scenario with startDate := startDate } report package := by
        unfold ScenarioDataValidator.validateTickStretch
        rw [hpackage.ticks, h.allowed]
      have hsignals : validator'.validateSignalStretch { scenario with startDate := startDate }
          package' =
            validator.validateSignalStretch { scenario with startDate := startDate } package := by
        rw [signalStretch_congr h]
        unfold ScenarioDataValidator.validateSignalStretch
        rw [hpackage.ticks]
      simp only [hmoved, hwarmup, hticks, hsignals]

/-- The quality check says of each scenario, on the package it meets, what it says on its own. -/
def ChecksAlike (batch : LoadedBatch Series) : Prop :=
  ∀ (place : ℕ) (scenario : SingleScenario),
    (validScenarios batch.entries)[place]? = some scenario →
      (checkedOn batch.validator batch.requirementsMap scenario
          (checkedPackage batch.scenarioPackages place)).1 = (ownCheck batch scenario).1 ∧
        ((checkedOn batch.validator batch.requirementsMap scenario
          (checkedPackage batch.scenarioPackages place)).2 = [] ↔
            (ownCheck batch scenario).2 = [])

/-- What the quality check leaves of a scenario on its own package. -/
def passed (batch : LoadedBatch Series) (scenario : SingleScenario) : Option SingleScenario :=
  if (ownCheck batch scenario).2 = [] then some (ownCheck batch scenario).1 else none

theorem valid?_settled (batch : LoadedBatch Series) (entry : BatchScenario) :
    (settled (ownCheck batch) entry).valid? = entry.valid?.bind (passed batch) := by
  unfold settled passed
  cases hvalid : entry.valid? with
  | none => exact hvalid
  | some scenario =>
      by_cases hpass : (ownCheck batch scenario).2 = [] <;>
        simp [BatchScenario.valid?, hpass]

end Checks

section Packages

variable {Series : Type} {archive : DataArchive}
  {loadSeries : SingleScenario → SignalRequirement → Except String Series}
  {collection : SingleScenario → Collection} {requirements requirements' : RequirementsMap}
  {scenarios : List SingleScenario} {scenario : SingleScenario}

/-- The requirements of a batch with those of a scenario, which are alone under its name. -/
structure Requires (requirements : RequirementsMap) (scenario : SingleScenario) : Prop where
  names : (requirements.tickRequirements.map TickRequirement.scenarioName).Nodup
  ticks : scenario.tickRequirement ∈ requirements.tickRequirements
  bars : requirements.barRequirements.filter (fun r => r.scenarioName = scenario.name) =
    scenario.barRequirements
  signals : requirements.signalRequirements.filter (fun r => r.scenarioName = scenario.name) =
    scenario.signalRequirements

def collectedSignals (collection : SingleScenario → Collection) (scenario : SingleScenario) :
    List SignalRequirement :=
  match collection scenario with
  | .added => scenario.signalRequirements
  | .excluded => []
  | .raised workers => { scenario with workers := scenario.workers.take workers }.signalRequirements

theorem collected_ticks_signals (held : RequirementsMap) (scenarios : List SingleScenario) :
    (collectAndValidate collection held scenarios).tickRequirements = held.tickRequirements ++
        (scenarios.filter fun s => collection s ≠ .excluded).map SingleScenario.tickRequirement ∧
      (collectAndValidate collection held scenarios).signalRequirements =
        held.signalRequirements ++ scenarios.flatMap (collectedSignals collection) := by
  induction scenarios generalizing held with
  | nil => exact ⟨(List.append_nil _).symm, (List.append_nil _).symm⟩
  | cons scenario scenarios ih =>
      obtain ⟨hticks, hsignals⟩ := ih (collect collection held scenario)
      rw [collectAndValidate, List.foldl_cons, ← collectAndValidate, hticks, hsignals,
        List.flatMap_cons, collectedSignals, collect, List.filter_cons]
      cases hcollection : collection scenario <;> simp [RequirementsMap.addScenario]

theorem scenarioName_of_collected {requirement : SignalRequirement}
    (h : requirement ∈ collectedSignals collection scenario) :
    requirement.scenarioName = scenario.name := by
  unfold collectedSignals at h
  split at h
  · exact mem_signalRequirements h
  · cases h
  · exact @mem_signalRequirements { scenario with workers := scenario.workers.take _ } _ h

theorem requires_collected (hnames : (scenarios.map SingleScenario.name).Nodup)
    (hmem : scenario ∈ scenarios) (hadded : collection scenario = .added) :
    Requires (collectAndValidate collection {} scenarios) scenario := by
  obtain ⟨hticks, hsignals⟩ := @collected_ticks_signals collection {} scenarios
  rw [List.nil_append] at hticks hsignals
  refine ⟨?_, ?_, IdentitySoundness.barRequirements_collected hnames hmem hadded, ?_⟩
  · rw [hticks, List.map_map]
    exact hnames.sublist (List.filter_sublist.map _)
  · rw [hticks]
    exact List.mem_map_of_mem (List.mem_filter.mpr ⟨hmem, by simp [hadded]⟩)
  · rw [hsignals]
    refine (Lists.filter_flatMap_of_mem (fun _ _ _ hr => scenarioName_of_collected hr) hnames
      hmem).trans ?_
    rw [collectedSignals, hadded]

/-- The data that a batch loads for a scenario is what is loaded for it alone, or it is excluded for
a reason of its own. -/
def LoadedApart (archive : DataArchive)
    (loadSeries : SingleScenario → SignalRequirement → Except String Series)
    (requirements : RequirementsMap) (scenario : SingleScenario) : Prop :=
  Excluded loadSeries scenario ∨
    SharesRows archive (groupOf requirements.tickRequirements scenario.tickRequirement)
        scenario.tickRequirement ∧
      (HasRows archive scenario.tickRequirement →
        BarsShared archive requirements.barRequirements scenario)

def packageOf (archive : DataArchive)
    (loadSeries : SingleScenario → SignalRequirement → Except String Series)
    (requirements : RequirementsMap) (scenario : SingleScenario) :
    Option (ProcessDataPackage Series) :=
  (packageFor loadSeries requirements (prepareTicks archive requirements.tickRequirements)
    (prepareBars archive requirements.barRequirements) scenario).toOption

theorem loadSignals_eq (h : Requires requirements scenario) :
    loadSignalsForScenario loadSeries scenario requirements =
      loadSignalsForScenario loadSeries scenario (aggregateRequirements [scenario]) := by
  have hname : ([scenario].map SingleScenario.name).Nodup := List.nodup_singleton _
  have halone := signalRequirements_of_name hname (List.mem_singleton_self scenario)
  rw [loadSignalsForScenario, loadSignalsForScenario, h.signals, halone]

theorem packageOf_eq (h : Requires requirements scenario) :
    packageOf archive loadSeries requirements scenario =
      if ticksOf archive (groupOf requirements.tickRequirements scenario.tickRequirement)
          scenario.tickRequirement = [] ∨ unknownStaleSources scenario ≠ [] then none
      else
        (loadSignalsForScenario loadSeries scenario
          (aggregateRequirements [scenario])).toOption.map fun signalSeries =>
            { ticks := (∅ : Dict String (List TransportTick)).set scenario.symbol
                (transported scenario (ticksOf archive
                  (groupOf requirements.tickRequirements scenario.tickRequirement)
                    scenario.tickRequirement))
              bars := filterBarsForScenario scenario
                (prepareBars archive requirements.barRequirements)
              signalSeries := signalSeries } := by
  have hticks := @prepareTicks_get? archive _ h.names _ h.ticks
  rw [packageOf, packageFor_toOption hticks, loadSignals_eq h]

theorem packageOf_excluded (h : Requires requirements scenario)
    (hexcluded : Excluded loadSeries scenario) :
    packageOf archive loadSeries requirements scenario = none := by
  rw [packageOf_eq h]
  rcases hexcluded with hunknown | ⟨message, hmessage⟩
  · rw [if_pos (Or.inr hunknown)]
  · rw [hmessage]
    split <;> rfl

/-- A scenario gets the same package from two batches that both load its data as for it alone. -/
theorem package_rel (h : Requires requirements scenario) (h' : Requires requirements' scenario)
    (hapart : LoadedApart archive loadSeries requirements scenario)
    (hapart' : LoadedApart archive loadSeries requirements' scenario) :
    Option.Rel SamePackages (packageOf archive loadSeries requirements scenario)
      (packageOf archive loadSeries requirements' scenario) := by
  rcases hapart with hexcluded | ⟨hshares, hshared⟩
  · rw [packageOf_excluded h hexcluded, packageOf_excluded h' hexcluded]
    exact .none
  rcases hapart' with hexcluded | ⟨hshares', hshared'⟩
  · rw [packageOf_excluded h hexcluded, packageOf_excluded h' hexcluded]
    exact .none
  rw [packageOf_eq h, packageOf_eq h', ticksOf_eq_of_shares hshares, ticksOf_eq_of_shares hshares']
  by_cases hrows : ticksOf archive [scenario.tickRequirement] scenario.tickRequirement = []
  · rw [if_pos (Or.inl hrows), if_pos (Or.inl hrows)]
    exact .none
  have hown {requirements : RequirementsMap} (h : Requires requirements scenario) :
      ∀ requirement ∈ scenario.barRequirements, requirement ∈ requirements.barRequirements := by
    intro requirement hrequirement
    rw [← h.bars] at hrequirement
    exact List.mem_of_mem_filter hrequirement
  have hbars := (bars_eq_iff (hown h)).mpr (hshared (ticksOf_ne_nil_iff.mp hrows))
  have hbars' := (bars_eq_iff (hown h')).mpr (hshared' (ticksOf_ne_nil_iff.mp hrows))
  split
  · exact .none
  · cases loadSignalsForScenario loadSeries scenario (aggregateRequirements [scenario]) with
    | error message => exact .none
    | ok signalSeries => exact .some ⟨rfl, fun key => (hbars' key).trans (hbars key).symm, rfl⟩

end Packages

section Loads

variable {Series : Type} {env : Environment Series} {combo : Combination}
  {base : List ConfiguredScenario} {scenario : ConfiguredScenario} {single : SingleScenario}

def preparedList (env : Environment Series) (combo : Combination)
    (base : List ConfiguredScenario) : List ConfiguredScenario :=
  env.prepareScenarios (freshList env combo base)

/-- The base with a combination, loaded afresh; without one, for the mount. -/
def load (env : Environment Series) (combo : Combination) (base : List ConfiguredScenario) :
    LoadedBatch Series :=
  loadBatch (env.workspace (preparedList env combo base)) {}
    (env.entries (preparedList env combo base))

theorem listed_preparedCopy (env : Environment Series) (combo : Combination)
    (base : List ConfiguredScenario) (scenario : ConfiguredScenario) :
    env.listed (preparedCopy env combo base scenario) =
      env.listed (withOverrides combo scenario) := by
  unfold preparedCopy
  split <;> rfl

theorem map_valid?_checkQuality {batch : LoadedBatch Series} (halike : ChecksAlike batch) :
    batch.checkQuality.map BatchScenario.valid? =
      (batch.entries.map BatchScenario.valid?).map (Option.bind · (passed batch)) := by
  have hchecked : List.Forall₂ (fun result result' : SingleScenario × List ValidationMessage =>
      result'.1 = result.1 ∧ (result'.2 = [] ↔ result.2 = []))
        ((validScenarios batch.entries).map (ownCheck batch))
        (batch.validator.validateLoadedData (validScenarios batch.entries) batch.scenarioPackages
          batch.requirementsMap) := by
    have hown : (validScenarios batch.entries).map (ownCheck batch) =
        (validScenarios batch.entries).mapIdx fun _ scenario => ownCheck batch scenario :=
      (List.mapIdx_eq_iff.mpr fun _ => List.getElem?_map).symm
    rw [validateLoadedData_eq, hown]
    refine Pointwise.mapIdx ?_ (List.forall₂_eq_eq_eq ▸ rfl)
    rintro place scenario _ hplace rfl
    exact halike place scenario hplace
  have hsettled := @absorb_congr batch.entries _ _ _ rfl hchecked
  rw [absorb_map] at hsettled
  rw [LoadedBatch.checkQuality, hsettled, List.map_map, List.map_map]
  exact List.map_congr_left fun entry _ => valid?_settled batch entry

def verdict (env : Environment Series) (combo : Combination) (base : List ConfiguredScenario)
    (scenario : ConfiguredScenario) : Option SingleScenario :=
  ((((env.entry (preparedCopy env combo base scenario)).valid?.filter fun single =>
      env.availability { single with workers := [] }).filter
        (added (env.collectionOf (preparedList env combo base)))).filter fun single =>
          (packageOf env.archive env.loadSeries (load env combo base).requirementsMap
            single).isSome).bind (passed (load env combo base))

theorem map_valid?_verdict (halike : ChecksAlike (load env combo base)) :
    (load env combo base).checkQuality.map BatchScenario.valid? =
      base.map (verdict env combo base) := by
  have hloaded : (load env combo base).entries.map BatchScenario.valid? = _ :=
    map_valid?_loadBatch (fun _ => rfl) {} (env.entries (preparedList env combo base))
  have hentries : env.entries (preparedList env combo base) =
      base.map fun scenario => env.entry (preparedCopy env combo base scenario) := by
    rw [preparedList, prepareScenarios_fresh, Environment.entries, List.map_map]
    rfl
  rw [map_valid?_checkQuality halike, hloaded, hentries]
  simp only [List.map_map]
  refine List.map_congr_left fun scenario _ => ?_
  simp only [Function.comp_apply, verdict, packageOf, isSome_toOption]
  rw [← hentries]
  rfl

theorem mem_preparedList (hscenario : scenario ∈ base) :
    preparedCopy env combo base scenario ∈ preparedList env combo base := by
  rw [preparedList, prepareScenarios_fresh]
  exact List.mem_map_of_mem hscenario

theorem isAdded_preparedCopy (hplaces : InPlace base) (hscenario : scenario ∈ base)
    (hlisted : env.listed (withOverrides combo scenario) = .bounded single) :
    isAdded env (preparedCopy env combo base scenario) =
      added (env.collectionOf (preparedList env combo base)) single :=
  isAdded_eq (inPlace_fresh env combo hplaces) (mem_preparedList hscenario)
    ((listed_preparedCopy env combo base scenario).trans hlisted)

theorem verdict_eq_none (hplaces : InPlace base) (hscenario : scenario ∈ base)
    (h : ¬(Keeps env combo scenario ∧ Passes env combo base scenario)) :
    verdict env combo base scenario = none := by
  unfold verdict
  cases hentry : (env.entry (preparedCopy env combo base scenario)).valid? with
  | none => rfl
  | some single =>
      obtain ⟨hvalid, hbounded⟩ := BatchScenario.valid?_eq_some.mp hentry
      have hlisted := (listed_preparedCopy env combo base scenario).symm.trans hbounded
      have hout : ¬((excludeUnless (fun copy => isAvailable env copy && isAdded env copy)
          (preparedCopy env combo base scenario)).isValid = true) :=
        fun hkept => h (prepared_valid_iff.mp hkept)
      have hchecks : (isAvailable env (preparedCopy env combo base scenario) &&
          isAdded env (preparedCopy env combo base scenario)) = false := by
        rw [← Bool.not_eq_true]
        exact fun hboth => hout (Bool.and_eq_true_iff.mpr ⟨hvalid, hboth⟩)
      rw [isAvailable_eq hbounded, isAdded_preparedCopy hplaces hscenario hlisted] at hchecks
      rcases Bool.and_eq_false_iff.mp hchecks with havailable | hadded
      · simp [Option.filter_some, havailable]
      · cases havailable : env.availability { single with workers := [] } <;>
          simp [Option.filter_some, havailable, hadded]

section Kept

variable (hscenario : scenario ∈ base) (hkeeps : Keeps env combo scenario)
  (hpasses : Passes env combo base scenario)
  (hlisted : env.listed (withOverrides combo scenario) = .bounded single)

include hpasses hlisted

theorem entry_preparedCopy :
    (env.entry (preparedCopy env combo base scenario)).valid? = some single := by
  refine BatchScenario.valid?_eq_some.mpr
    ⟨?_, (listed_preparedCopy env combo base scenario).trans hlisted⟩
  show (preparedCopy env combo base scenario).isValid = true
  rw [preparedCopy, if_pos hpasses.1]
  exact configured_valid hpasses.1

include hkeeps in
theorem available_of_passes : env.availability { single with workers := [] } = true := by
  have hvalid := prepared_valid_iff.mpr ⟨hkeeps, hpasses⟩
  rw [← isAvailable_eq ((listed_preparedCopy env combo base scenario).trans hlisted)]
  exact (Bool.and_eq_true_iff.mp (Bool.and_eq_true_iff.mp hvalid).2).1

include hscenario

theorem mem_valid_prepared :
    single ∈ validScenarios (env.entries (preparedList env combo base)) :=
  mem_validScenarios.mpr ⟨_, List.mem_map_of_mem (mem_preparedList hscenario),
    entry_preparedCopy hpasses hlisted⟩

theorem get?_load (hplaces : InPlace base) :
    (load env combo base).scenarioPackages.get? single.scenarioIndex =
      packageOf env.archive env.loadSeries (load env combo base).requirementsMap single := by
  have hnumbered : Numbered (marked (configured (env.workspace
      (preparedList env combo base)).validators) (env.entries (preparedList env combo base))) :=
    (numbered_congr (marked_indices _ _)).mpr
      ((numbered_entries env _).mpr (inPlace_fresh env combo hplaces))
  refine prepareScenarioPackages_get? hnumbered.nodup_valid ?_
  rw [validScenarios_congr (map_valid?_configured (fun _ => rfl) _)]
  exact mem_valid_prepared hscenario hpasses hlisted

include hkeeps

theorem added_preparedList (hplaces : InPlace base) :
    added (env.collectionOf (preparedList env combo base)) single = true := by
  rw [← isAdded_preparedCopy hplaces hscenario hlisted]
  have hvalid := prepared_valid_iff.mpr ⟨hkeeps, hpasses⟩
  exact (Bool.and_eq_true_iff.mp (Bool.and_eq_true_iff.mp hvalid).2).2

theorem requires_load (hplaces : InPlace base) :
    Requires (load env combo base).requirementsMap single := by
  have hrequirements : (load env combo base).requirementsMap = collectAndValidate
      (env.collectionOf (preparedList env combo base)) {}
        ((validScenarios (env.entries (preparedList env combo base))).filter fun single =>
          env.availability { single with workers := [] }) :=
    congrArg _ (validScenarios_available (fun _ => rfl) _)
  rw [hrequirements]
  refine requires_collected ?_ ?_ ?_
  · exact (nodup_prepared_names env (freshList env combo base)).sublist (List.filter_sublist.map _)
  · exact List.mem_filter.mpr ⟨mem_valid_prepared hscenario hpasses hlisted,
      available_of_passes hkeeps hpasses hlisted⟩
  · exact of_decide_eq_true (added_preparedList hscenario hkeeps hpasses hlisted hplaces)

theorem verdict_eq (hplaces : InPlace base) :
    verdict env combo base scenario =
      if (packageOf env.archive env.loadSeries (load env combo base).requirementsMap single).isSome
      then passed (load env combo base) single else none := by
  unfold verdict
  rw [entry_preparedCopy hpasses hlisted, Option.filter_some,
    if_pos (available_of_passes hkeeps hpasses hlisted), Option.filter_some,
    if_pos (added_preparedList hscenario hkeeps hpasses hlisted hplaces), Option.filter_some]
  split <;> rfl

end Kept

theorem final_of_verdict (halike : ChecksAlike (load env combo base)) :
    List.Forall₂ (fun scenario final =>
        (∃ startDate isValid, final = { preparedCopy env combo base scenario with
          startDate := startDate, isValid := isValid }) ∧
        final.isValid = (verdict env combo base scenario).isSome ∧
        ∀ single ∈ verdict env combo base scenario, final.startDate = single.startDate)
      base (env.prepareMount {} (freshList env combo base)).2 := by
  have hverdicts : List.Forall₂ (fun scenario checked =>
      verdict env combo base scenario = checked.valid?) base (load env combo base).checkQuality :=
    Pointwise.of_map_eq (map_valid?_verdict halike).symm
  have hlist : preparedList env combo base = base.map (preparedCopy env combo base) :=
    prepareScenarios_fresh env combo base
  have hchecked := (List.forall₂_and_left _ _).mpr
    ⟨fun _ hprepared => hprepared, checked_entries env {} (preparedList env combo base)⟩
  conv at hchecked => arg 2; rw [hlist]
  rw [List.forall₂_map_left_iff] at hchecked
  rw [prepareMount_eq, ← preparedList]
  dsimp only
  conv => arg 3; arg 2; rw [hlist]
  rw [List.zipWith_map_left]
  refine Pointwise.zipWith_left ?_ (Pointwise.and hchecked hverdicts)
  rintro scenario checked ⟨⟨hprepared, hcheck⟩, hverdict⟩
  refine ⟨⟨_, _, rfl⟩, ?_, ?_⟩
  · rw [hverdict]
    show checked.isValid = checked.valid?.isSome
    cases hvalid : checked.isValid with
    | false => simp [BatchScenario.valid?, hvalid]
    | true =>
        obtain ⟨single, hlisted⟩ := isBounded_of_prepared hprepared (hcheck.valid hvalid)
        obtain ⟨startDate, hmoved⟩ := hcheck.moved
        rw [show (env.entry (preparedCopy env combo base scenario)).scenario = .bounded single from
          hlisted] at hmoved
        rw [BatchScenario.valid?_eq_some.mpr ⟨hvalid, hmoved⟩]
        rfl
  · intro single hsingle
    rw [hverdict] at hsingle
    have hbounded := (BatchScenario.valid?_eq_some.mp hsingle).2
    unfold settle
    rw [hbounded]

theorem kept_of_packaged (hplaces : InPlace base) (hwhole : WholeCollections env combo base)
    (hscenario : scenario ∈ base) {package : ProcessDataPackage Series}
    (hpackage : (load env combo base).scenarioPackages.get? scenario.scenarioIndex =
      some package) : Keeps env combo scenario ∧ Passes env combo base scenario := by
  have hprepared : validScenarios (marked (configured (env.workspace
      (preparedList env combo base)).validators) (env.entries (preparedList env combo base))) =
        validScenarios (env.entries (preparedList env combo base)) :=
    validScenarios_congr (map_valid?_configured (fun _ => rfl) _)
  have hentry : scenario.scenarioIndex ∈ (packagesOf env.archive env.loadSeries
      (load env combo base).requirementsMap (validScenarios (marked (configured (env.workspace
        (preparedList env combo base)).validators)
          (env.entries (preparedList env combo base))))).map Prod.fst := by
    by_contra habsent
    have hnone : (load env combo base).scenarioPackages.get? scenario.scenarioIndex = none :=
      (Dict.get?_assignAll_of_absent habsent).trans rfl
    rw [hnone] at hpackage
    cases hpackage
  rw [hprepared] at hentry
  obtain ⟨⟨index, built⟩, hbuilt, hindex⟩ := List.mem_map.mp hentry
  obtain ⟨single, hsingle, hok⟩ := List.mem_filterMap.mp hbuilt
  split at hok
  · cases hok
  next hpackage' =>
  cases hok
  -- it has ticks, so its requirements have been collected
  have hname : single.name ∈
      (load env combo base).requirementsMap.tickRequirements.map TickRequirement.scenarioName := by
    by_contra habsent
    rw [packageFor, prepareTicks_get?_none habsent] at hpackage'
    cases hpackage'
  have hticks := (@collected_ticks_signals (env.collectionOf (preparedList env combo base)) {}
    ((validScenarios (env.entries (preparedList env combo base))).filter fun single =>
      env.availability { single with workers := [] })).1
  have hrequirements : (load env combo base).requirementsMap = _ :=
    congrArg (collectAndValidate (env.collectionOf (preparedList env combo base)) {})
      (validScenarios_available (fun _ => rfl) (env.entries (preparedList env combo base)))
  rw [hrequirements] at hname
  change single.name ∈ (collectAndValidate (env.collectionOf (preparedList env combo base)) {}
    ((validScenarios (env.entries (preparedList env combo base))).filter fun single =>
      env.availability { single with workers := [] })).tickRequirements.map
        TickRequirement.scenarioName at hname
  rw [hticks, List.nil_append, List.map_map] at hname
  obtain ⟨other, hother, hsame⟩ := List.mem_map.mp hname
  obtain ⟨hfiltered, hcollected⟩ := List.mem_filter.mp hother
  obtain ⟨hvalid, havailable⟩ := List.mem_filter.mp hfiltered
  obtain rfl : other = single := List.inj_on_of_nodup_map
    (nodup_prepared_names env (freshList env combo base)) hvalid hsingle hsame
  have hadded : added (env.collectionOf (preparedList env combo base)) other = true := by
    cases hcollection : env.collectionOf (preparedList env combo base) other with
    | added => exact decide_eq_true hcollection
    | excluded => exact absurd hcollection (of_decide_eq_true hcollected)
    | raised workers => exact absurd hcollection (whole_fresh hplaces hwhole other hvalid workers)
  obtain ⟨entry, hentry', hvalid?⟩ := mem_validScenarios.mp hsingle
  obtain ⟨copy, hcopy, rfl⟩ := List.mem_map.mp hentry'
  obtain ⟨hkept, hbounded⟩ := BatchScenario.valid?_eq_some.mp hvalid?
  have hindices : other.scenarioIndex = copy.scenarioIndex := by
    rw [← @listed_scenarioIndex _ env, show env.listed copy = .bounded other from hbounded]
    rfl
  rw [preparedList, prepareScenarios_fresh] at hcopy
  obtain ⟨scenario', hscenario', rfl⟩ := List.mem_map.mp hcopy
  have hnodup : (base.map ConfiguredScenario.scenarioIndex).Nodup := by
    rw [hplaces]
    exact List.nodup_range
  have hplace : scenario'.scenarioIndex = scenario.scenarioIndex := by
    have hcopied : (preparedCopy env combo base scenario').scenarioIndex =
        scenario'.scenarioIndex := by
      unfold preparedCopy
      split <;> rfl
    exact hcopied.symm.trans (hindices.symm.trans hindex)
  obtain rfl := List.inj_on_of_nodup_map hnodup hscenario' hscenario hplace
  have hlisted := (listed_preparedCopy env combo base scenario').symm.trans hbounded
  refine prepared_valid_iff.mp (Bool.and_eq_true_iff.mpr ⟨hkept, Bool.and_eq_true_iff.mpr ⟨?_, ?_⟩⟩)
  · exact (isAvailable_eq hbounded).trans havailable
  · exact (isAdded_preparedCopy hplaces hscenario' hlisted).trans hadded

end Loads

section Selected

variable {Series : Type} {env : Environment Series} {combo combo' : Combination}
  {base : List ConfiguredScenario} {scenario : ConfiguredScenario} {single : SingleScenario}

/-- A scenario that passes with two combinations, asks for the same with both, and whose data is
loaded apart with both. -/
structure PassesAlike (env : Environment Series) (combo combo' : Combination)
    (base : List ConfiguredScenario) (scenario : ConfiguredScenario) (single : SingleScenario) :
    Prop where
  mem : scenario ∈ base
  keeps : Keeps env combo scenario
  keeps' : Keeps env combo' scenario
  passes : Passes env combo base scenario
  passes' : Passes env combo' base scenario
  listed : env.listed (withOverrides combo scenario) = .bounded single
  listed' : env.listed (withOverrides combo' scenario) = .bounded single
  apart : LoadedApart env.archive env.loadSeries (load env combo base).requirementsMap single
  apart' : LoadedApart env.archive env.loadSeries (load env combo' base).requirementsMap single

variable (h : PassesAlike env combo combo' base scenario single)

include h

theorem PassesAlike.packages (hplaces : InPlace base) :
    Option.Rel SamePackages
      ((load env combo base).scenarioPackages.get? single.scenarioIndex)
      ((load env combo' base).scenarioPackages.get? single.scenarioIndex) := by
  rw [get?_load h.mem h.passes h.listed hplaces, get?_load h.mem h.passes' h.listed' hplaces]
  exact package_rel (requires_load h.mem h.keeps h.passes h.listed hplaces)
    (requires_load h.mem h.keeps' h.passes' h.listed' hplaces) h.apart h.apart'

theorem PassesAlike.reports :
    SameReports (load env combo base).validator (load env combo' base).validator single := by
  have hvalid {combo : Combination} (hpasses : Passes env combo base scenario)
      (hlisted : env.listed (withOverrides combo scenario) = .bounded single) :
      single ∈ validScenarios (marked (configured (env.workspace
        (preparedList env combo base)).validators) (env.entries (preparedList env combo base))) := by
    rw [validScenarios_congr (map_valid?_configured (fun _ => rfl) _)]
    exact mem_valid_prepared h.mem hpasses hlisted
  have hdata {scenarios : List SingleScenario} (h : single ∈ scenarios) :
      (single.dataBrokerType, single.symbol) ∈
        scenarios.map fun s => (s.dataBrokerType, s.symbol) := List.mem_map.mpr ⟨single, h, rfl⟩
  have hsignals {scenarios : List SingleScenario} (h : single ∈ scenarios) :
      (single.dataSentimentType, single.symbol) ∈
        scenarios.map fun s => (s.dataSentimentType, s.symbol) := List.mem_map.mpr ⟨single, h, rfl⟩
  have hfirst := hvalid h.passes h.listed
  have hsecond := hvalid h.passes' h.listed'
  refine ⟨?_, fun hsource => ?_, rfl, rfl⟩
  · simp only [load, loadBatch, ScenarioDataValidator.build]
    rw [if_pos (hdata hfirst), if_pos (hdata hsecond)]
    rfl
  · simp only [load, loadBatch, ScenarioDataValidator.build]
    rw [if_pos ⟨hsource, hsignals hsecond⟩, if_pos ⟨hsource, hsignals hfirst⟩]
    rfl

theorem PassesAlike.verdict_eq (hplaces : InPlace base) :
    verdict env combo' base scenario = verdict env combo base scenario := by
  have hpackages := h.packages hplaces
  have hpackage := get?_load h.mem h.passes h.listed hplaces
  have hpackage' := get?_load h.mem h.passes' h.listed' hplaces
  rw [SweepSelections.verdict_eq h.mem h.keeps h.passes h.listed hplaces,
    SweepSelections.verdict_eq h.mem h.keeps' h.passes' h.listed' hplaces, ← hpackage, ← hpackage']
  have hcheck {batch : LoadedBatch Series} {package : ProcessDataPackage Series}
      (hpackage : batch.scenarioPackages.get? single.scenarioIndex = some package) :
      ownCheck batch single =
        ((batch.validator.validateSingleScenario single package batch.requirementsMap).1,
          (batch.validator.validateSingleScenario single package
            batch.requirementsMap).2.errors) := by
    rw [ownCheck, builtPackage, hpackage]
    rfl
  rcases rel_cases hpackages with ⟨hnone, hnone'⟩ | ⟨package, package', hsome, hsome', hsame⟩
  · rw [hnone, hnone', Option.isSome_none, if_neg Bool.false_ne_true,
      if_neg Bool.false_ne_true]
  · have hbars := (requires_load h.mem h.keeps h.passes h.listed hplaces).bars
    have hbars' := (requires_load h.mem h.keeps' h.passes' h.listed' hplaces).bars
    rw [hsome, hsome', Option.isSome_some, if_pos rfl, Option.isSome_some, if_pos rfl, passed,
      passed, hcheck hsome, hcheck hsome',
      validateSingleScenario_congr h.reports (hbars'.trans hbars.symm) hsame]

end Selected

section Guard

variable {Series : Type} {env : Environment Series} {combo : Combination}
  {base : List ConfiguredScenario} {scenario : ConfiguredScenario}

theorem entries_final (env : Environment Series) (combo : Combination)
    (base : List ConfiguredScenario) :
    env.entries (env.prepareMount {} (freshList env combo base)).2 =
      (load env combo base).checkQuality :=
  entries_prepareMount env {} (freshList env combo base)

theorem guard_load_iff (hplaces : InPlace base) (halike : ChecksAlike (load env combo base)) :
    (env.entries (env.prepareMount {} (freshList env combo base)).2).all
        (passesGuard (env.prepareMount {} (freshList env combo base)).1) = true ↔
      ∀ scenario ∈ base,
        ∀ package ∈ (load env combo base).scenarioPackages.get? scenario.scenarioIndex,
          (verdict env combo base scenario).isSome = true := by
  have hnumbered : Numbered (load env combo base).checkQuality :=
    numbered_prepareMount ((numbered_entries env _).mpr (inPlace_fresh env combo hplaces))
  have hverdicts := map_valid?_verdict halike
  have hlength := congrArg List.length hverdicts
  simp only [List.length_map] at hlength
  have hpairs : (load env combo base).checkQuality.map
        (fun entry => (entry.scenario.scenarioIndex, entry.valid?)) =
      base.map fun scenario => (scenario.scenarioIndex, verdict env combo base scenario) := by
    rw [← List.zip_map', ← List.zip_map', hverdicts, hnumbered, hplaces, hlength]
  have hguard : (load env combo base).checkQuality.all
        (passesGuard (env.prepareMount {} (freshList env combo base)).1) = true ↔
      ∀ pair ∈ (load env combo base).checkQuality.map
          (fun entry => (entry.scenario.scenarioIndex, entry.valid?)),
        ∀ package ∈ (load env combo base).scenarioPackages.get? pair.1,
          pair.2.isSome = true := by
    rw [List.forall_mem_map]
    exact guard_iff hnumbered
  rw [entries_final, hguard, hpairs, List.forall_mem_map]

theorem freshList_nil (env : Environment Series) (base : List ConfiguredScenario) :
    freshList env [] base = env.validateScenarioParameters base := by
  have hall : applyOverrides [] base = base := List.map_id base
  rw [freshList, hall]

theorem buildMount_eq (env : Environment Series) (base : List ConfiguredScenario) :
    env.buildMount base = env.prepareMount {} (freshList env [] base) := by
  rw [freshList_nil]
  rfl

theorem passesGuard_copy (mount : MountPackage Series) (check : ConfiguredScenario → Bool)
    (scenario : ConfiguredScenario) :
    passesGuard mount (env.entry (excludeUnless check (freshCopy env combo scenario))) =
      passesGuard mount (env.entry scenario) := by
  unfold passesGuard Environment.entry
  dsimp only
  by_cases h : scenario.maxTicks.any (0 < ·) = true ∨ scenario.endDate.isSome = true
  · rw [show env.listed (excludeUnless check (freshCopy env combo scenario)) = _ from dif_pos h,
      show env.listed scenario = _ from dif_pos h]
    rfl
  · rw [show env.listed (excludeUnless check (freshCopy env combo scenario)) = _ from dif_neg h,
      show env.listed scenario = _ from dif_neg h]
    rfl

theorem exists_single_of_passes (hpasses : Passes env combo base scenario) :
    ∃ single, env.listed (withOverrides combo scenario) = .bounded single := by
  obtain ⟨single, hlisted, -⟩ := exists_listed_of_bounded env (configured_bounded hpasses.1)
  exact ⟨single, hlisted⟩

end Guard

section Selection

variable {Series : Type} {env : Environment Series} {combo : Combination}
  {base : List ConfiguredScenario} {scenario : ConfiguredScenario}

/-- The scenarios that a combination keeps pass with it exactly if they pass without, with the
same requirements, and both loads give them the packages they get alone. The quality check finds
on the package it takes for a scenario what it finds on its own, and the guard passes on the
mount. -/
structure Selects (env : Environment Series) (combo : Combination)
    (base : List ConfiguredScenario) : Prop where
  unchanged : ∀ scenario ∈ base, Keeps env combo scenario → Unchanged env combo scenario
  passes : ∀ scenario ∈ base, Keeps env combo scenario →
    (Passes env combo base scenario ↔ Passes env [] base scenario)
  apart : ∀ scenario ∈ base, Keeps env combo scenario → ∀ single,
    env.listed scenario = .bounded single →
      LoadedApart env.archive env.loadSeries (load env [] base).requirementsMap single ∧
        LoadedApart env.archive env.loadSeries (load env combo base).requirementsMap single
  alike : ChecksAlike (load env [] base) ∧ ChecksAlike (load env combo base)
  guarded : (env.entries (env.buildMount base).2).all (passesGuard (env.buildMount base).1) = true
  whole : WholeCollections env combo base

variable (h : Selects env combo base)

include h

theorem Selects.passesAlike (hscenario : scenario ∈ base) (hkeeps : Keeps env combo scenario)
    (hpasses : Passes env combo base scenario) :
    ∃ single, PassesAlike env [] combo base scenario single := by
  obtain ⟨single, hlisted⟩ := exists_single_of_passes hpasses
  have hunchanged := h.unchanged scenario hscenario hkeeps
  have hlisted' : env.listed scenario = .bounded single := hunchanged.requests.symm.trans hlisted
  obtain ⟨hapart, hapart'⟩ := h.apart scenario hscenario hkeeps single hlisted'
  exact ⟨single, hscenario, ⟨hunchanged.parameters.symm.trans hkeeps.1,
    hunchanged.collection.symm.trans hkeeps.2⟩, hkeeps,
      (h.passes scenario hscenario hkeeps).mp hpasses, hpasses, hlisted', hlisted, hapart, hapart'⟩

theorem Selects.verdict_eq (hplaces : InPlace base) (hscenario : scenario ∈ base)
    (hkeeps : Keeps env combo scenario) :
    verdict env combo base scenario = verdict env [] base scenario := by
  by_cases hpasses : Passes env combo base scenario
  · obtain ⟨single, halike⟩ := h.passesAlike hscenario hkeeps hpasses
    exact halike.verdict_eq hplaces
  · rw [verdict_eq_none hplaces hscenario fun hboth => hpasses hboth.2,
      verdict_eq_none hplaces hscenario fun hboth =>
        hpasses ((h.passes scenario hscenario hkeeps).mpr hboth.2)]

theorem Selects.matches (hplaces : InPlace base) :
    matchesMount (env.collectionOf (copiedList env combo base)) (env.buildMount base).1
      (validScenarios (env.entries (copiedList env combo base))) = true := by
  refine (matchesMount_iff (nodup_copied_names hplaces)).mpr fun single hsingle hadded => ?_
  obtain ⟨entry, hentry, hvalid⟩ := mem_validScenarios.mp hsingle
  obtain ⟨copy, hcopy, rfl⟩ := List.mem_map.mp hentry
  obtain ⟨hkept, hbounded⟩ := BatchScenario.valid?_eq_some.mp hvalid
  have hown : isAdded env copy = true :=
    (isAdded_eq (inPlace_copied hplaces) hcopy hbounded).trans (decide_eq_true hadded)
  rw [copiedList_eq] at hcopy
  obtain ⟨built, hbuilt, rfl⟩ := List.mem_map.mp hcopy
  obtain ⟨scenario, hscenario, hfollows⟩ :=
    Pointwise.exists_left (built_buildMount env hplaces) hbuilt
  obtain ⟨hbuiltValid, hkeeps⟩ := (copied_valid_iff hfollows.toFollows).mp
    (Bool.and_eq_true_iff.mpr ⟨hkept, hown⟩)
  have hunchanged := (h.unchanged scenario hscenario hkeeps).follows hfollows.toFollows
  have hlisted : env.listed built = .bounded single := hunchanged.requests.symm.trans hbounded
  exact identity_built hplaces hbuilt hbuiltValid hlisted

/-- What is left valid of the mount's scenarios is what is left valid of a fresh load. -/
theorem Selects.sameIfValid (hplaces : InPlace base) :
    List.Forall₂ SameIfValid (env.collected (copiedList env combo base))
      (env.prepareMount {} (freshList env combo base)).2 := by
  have hfirst := final_of_verdict h.alike.1
  rw [← buildMount_eq] at hfirst
  have hbuilt := (List.forall₂_and_left _ _).mpr
    ⟨fun _ hscenario => hscenario, Pointwise.and (built_buildMount env hplaces) hfirst⟩
  rw [copiedList_eq, Environment.collected, List.map_map, List.forall₂_map_left_iff]
  refine Pointwise.trans ?_ hbuilt.flip (final_of_verdict h.alike.2)
  rintro built scenario final ⟨hscenario, hbuilt, ⟨startDate, isValid, heq⟩, hvalid, hstart⟩
    ⟨⟨startDate', isValid', heq'⟩, hvalid', hstart'⟩
  have hcopied := @copied_valid_iff _ env combo _ _ hbuilt.toFollows
  have hkept (hkeeps : Keeps env combo scenario) : final.isValid = built.isValid := by
    rw [hvalid, hvalid', h.verdict_eq hplaces hscenario hkeeps]
  have hkeeps (hfinal : final.isValid = true) : Keeps env combo scenario := by
    by_contra hout
    rw [hvalid', verdict_eq_none hplaces hscenario fun hboth => hout hboth.1] at hfinal
    cases hfinal
  refine ⟨Bool.eq_iff_iff.mpr ⟨fun hfinal => ?_, fun hcopy => ?_⟩, fun hcopy => ?_⟩
  · have hown := hkeeps hfinal
    exact hcopied.mpr ⟨(hkept hown).symm.trans hfinal, hown⟩
  · obtain ⟨hbuiltValid, hown⟩ := hcopied.mp hcopy
    exact (hkept hown).trans hbuiltValid
  · obtain ⟨hbuiltValid, hown⟩ := hcopied.mp hcopy
    obtain ⟨single, hsingle⟩ := Option.isSome_iff_exists.mp (hvalid.symm.trans hbuiltValid)
    have hsingle' : verdict env combo base scenario = some single :=
      (h.verdict_eq hplaces hscenario hown).trans hsingle
    have hpasses : Passes env combo base scenario := by
      by_contra hout
      rw [verdict_eq_none hplaces hscenario fun hboth => hout hboth.2] at hsingle'
      cases hsingle'
    have hpasses' := (h.passes scenario hscenario hown).mp hpasses
    have hmoved := (hstart' single hsingle').trans (hstart single hsingle).symm
    have hfinalValid := (hkept hown).trans hbuiltValid
    have hprepared : preparedCopy env combo base scenario = { freshCopy env combo scenario with
        accountCurrency := env.accountCurrency (freshCopy env combo scenario) } :=
      if_pos hpasses.1
    have hprepared' : preparedCopy env [] base scenario = { freshCopy env [] scenario with
        accountCurrency := env.accountCurrency (freshCopy env [] scenario) } :=
      if_pos hpasses'.1
    refine eq_of_valid hfinalValid hcopy ?_
    rw [hprepared] at heq'
    rw [hprepared'] at heq
    rw [heq, heq'] at hmoved
    have hstarts : startDate' = startDate := hmoved
    rw [heq, heq', hstarts]
    rfl

theorem Selects.guarded_verdict (hplaces : InPlace base) (hscenario : scenario ∈ base)
    {package : ProcessDataPackage Series}
    (hpackage : (load env [] base).scenarioPackages.get? scenario.scenarioIndex = some package) :
    (verdict env [] base scenario).isSome = true := by
  have hguard := h.guarded
  rw [buildMount_eq] at hguard
  exact (guard_load_iff hplaces h.alike.1).mp hguard scenario hscenario package hpackage

theorem Selects.packages (hplaces : InPlace base) (hscenario : scenario ∈ base)
    (hkeeps : Keeps env combo scenario) (hpasses : Passes env combo base scenario) :
    Option.Rel SamePackages
      ((load env [] base).scenarioPackages.get? scenario.scenarioIndex)
      ((load env combo base).scenarioPackages.get? scenario.scenarioIndex) := by
  obtain ⟨single, halike⟩ := h.passesAlike hscenario hkeeps hpasses
  have hindex : single.scenarioIndex = scenario.scenarioIndex := by
    have hlisted := congrArg ListedScenario.scenarioIndex halike.listed'
    rw [listed_scenarioIndex] at hlisted
    exact hlisted.symm
  rw [← hindex]
  exact halike.packages hplaces

theorem Selects.guard_fresh (hplaces : InPlace base) :
    (env.entries (env.prepareMount {} (freshList env combo base)).2).all
      (passesGuard (env.prepareMount {} (freshList env combo base)).1) = true := by
  refine (guard_load_iff hplaces h.alike.2).mpr fun scenario hscenario package hpackage => ?_
  obtain ⟨hkeeps, hpasses⟩ := kept_of_packaged hplaces h.whole hscenario hpackage
  rw [h.verdict_eq hplaces hscenario hkeeps]
  rcases rel_cases (h.packages hplaces hscenario hkeeps hpasses) with
    ⟨-, hnone⟩ | ⟨package', -, hsome, -, -⟩
  · rw [hnone] at hpackage
    cases hpackage
  · exact h.guarded_verdict hplaces hscenario hsome

theorem Selects.guard_copied :
    (env.entries (env.collected (copiedList env combo base))).all
      (passesGuard (env.buildMount base).1) = true := by
  have hguard := h.guarded
  rw [Environment.entries, List.all_map, List.all_eq_true] at hguard
  rw [copiedList_eq, Environment.collected, Environment.entries, List.map_map, List.all_map,
    List.all_map, List.all_eq_true]
  intro built hbuilt
  simp only [Function.comp_apply]
  rw [passesGuard_copy]
  exact hguard built hbuilt

/-- A combination that keeps some scenarios of the mount as they are runs them as a fresh load
does. -/
theorem Selects.runs (hplaces : InPlace base) (mode : ExecutionMode) :
    List.Forall₂ SameRun (env.warmRun mode base combo) (env.coldRun mode base combo) := by
  have hwarm : env.warmRun mode base combo =
      env.execute (env.buildMount base).1 mode (env.collected (copiedList env combo base)) := by
    unfold Environment.warmRun
    dsimp only
    split
    · next hempty => exact (execute_of_isEmpty hempty).symm
    · unfold Environment.run
      dsimp only
      rw [← copiedList, prepareScenarios_copiedList hplaces, if_pos (h.matches hplaces)]
  have hcold : env.coldRun mode base combo =
      env.execute (env.prepareMount {} (freshList env combo base)).1 mode
        (env.prepareMount {} (freshList env combo base)).2 := rfl
  rw [hwarm, hcold]
  refine execute_rel h.guard_copied (h.guard_fresh hplaces) (h.sameIfValid hplaces) ?_
  intro place copy hcopy hvalid
  have hcopies : List.Forall₂ (fun scenario copy => Follows (withOverrides combo scenario) copy ∧
      (copy.isValid = true → Keeps env combo scenario ∧ (verdict env [] base scenario).isSome = true))
        base (env.collected (copiedList env combo base)) := by
    have hfirst := final_of_verdict h.alike.1
    rw [← buildMount_eq] at hfirst
    rw [copiedList_eq, Environment.collected, List.map_map, List.forall₂_map_right_iff]
    refine (Pointwise.and (built_buildMount env hplaces) hfirst).imp fun scenario built hboth => ?_
    obtain ⟨hbuilt, -, hverdict, -⟩ := hboth
    refine ⟨(follows_freshCopy hbuilt.toFollows).trans (follows_excludeUnless _ _), fun hkept => ?_⟩
    obtain ⟨hbuiltValid, hkeeps⟩ := (copied_valid_iff hbuilt.toFollows).mp hkept
    exact ⟨hkeeps, hverdict.symm.trans hbuiltValid⟩
  obtain ⟨scenario, hplace, hfollows, hkept⟩ := Pointwise.of_getElem? hcopies.flip hcopy
  obtain ⟨hkeeps, hverdict⟩ := hkept hvalid
  have hscenario := List.mem_of_getElem? hplace
  have hpasses : Passes env combo base scenario := by
    by_contra hout
    rw [verdict_eq_none hplaces hscenario fun hboth =>
      hout ((h.passes scenario hscenario hkeeps).mpr hboth.2)] at hverdict
    cases hverdict
  have hindex := hplaces.scenarioIndex_eq hplace
  have hpackages := h.packages hplaces hscenario hkeeps hpasses
  rw [hindex] at hpackages
  rw [buildMount_eq]
  exact hpackages

end Selection

end Finiex.SweepSelections
