import Finiex.IdentitySoundness
import Finiex.SweepPhases
import Mathlib.Data.List.ReduceOption

namespace Finiex.SweepOverrides

open Finiex.Types
open Finiex.Lib
open Finiex.Bars
open Finiex.Preparation
open Finiex.Coverage
open Finiex.Mounts
open Finiex.MountLookups
open Finiex.DataIdentity
open Finiex.SweepGrid
open Finiex.SweepRuns
open Finiex.SweepPhases

section Execution

variable {Series : Type} {env : Environment Series} {mount : MountPackage Series}
  {mode : ExecutionMode} {scenarios scenarios' : List ConfiguredScenario}

theorem result_of_execute {entries : List BatchScenario}
    {results : List (Option (ScenarioResult Series))}
    (h : Mounts.execute mount mode entries = .ok results) {place : ℕ}
    {result : ScenarioResult Series} (hresult : results[place]? = some (some result)) :
    ∃ entry, entries[place]? = some entry ∧
      result = resultAt mount.scenarioPackages place entry := by
  unfold Mounts.execute at h
  split at h
  · cases mode with
    | sequential =>
        cases h
        rw [executeSequential, List.getElem?_map, List.getElem?_mapIdx] at hresult
        cases hentry : entries[place]? with
        | none =>
            rw [hentry] at hresult
            cases hresult
        | some entry =>
            rw [hentry] at hresult
            cases hresult
            exact ⟨entry, rfl, rfl⟩
    | parallel completed =>
        cases h
        unfold executeParallel at hresult
        rw [Lists.getElem?_foldl_set, List.getElem?_map] at hresult
        cases hentry : entries[place]? with
        | none => simp [hentry] at hresult
        | some entry =>
            rw [hentry, Option.map_some, Option.map_some, Option.map_some] at hresult
            split at hresult
            · cases hresult
              exact ⟨entry, rfl, rfl⟩
            · cases hresult
  · cases h

theorem valid_of_executed {packages : Dict ℕ (ProcessDataPackage Series)} {place : ℕ}
    {entry : BatchScenario} {single : SingleScenario} {package : ProcessDataPackage Series}
    (h : resultAt packages place entry = .executed single package) :
    entry.valid? = some single ∧ packages.get? place = some package := by
  unfold resultAt at h
  split at h
  · cases h
  · next hvalid =>
      split at h
      · cases h
      · next hpackage =>
          cases h
          exact ⟨hvalid, hpackage⟩

/-- What is executed is a valid scenario of the list, on a package of the mount. -/
theorem mem_execute {run : ProcessRun Series} (h : run ∈ env.execute mount mode scenarios) :
    run.scenario ∈ scenarios ∧ run.scenario.isValid = true ∧
      mount.scenarioPackages.isEmpty = false := by
  unfold Environment.execute at h
  split at h
  · cases h
  · next results hresults =>
      rw [List.reduceOption_mem_iff] at h
      obtain ⟨place, hplace⟩ := List.getElem?_of_mem h
      rw [List.getElem?_zipWith] at hplace
      split at hplace
      · next scenario result hscenario hresult =>
          rw [Option.some.injEq] at hplace
          unfold processRun? at hplace
          split at hplace
          · next single package =>
              cases hplace
              obtain ⟨entry, hentry, heq⟩ := result_of_execute hresults hresult
              obtain ⟨hvalid, hpackage⟩ := valid_of_executed heq.symm
              rw [Environment.entries, List.getElem?_map, hscenario, Option.map_some,
                Option.some.injEq] at hentry
              refine ⟨List.mem_of_getElem? hscenario, ?_, ?_⟩
              · have hentry' := (BatchScenario.valid?_eq_some.mp hvalid).1
                rw [← hentry] at hentry'
                exact hentry'
              · have hmem := (Dict.get?_eq_some_iff _).mp hpackage
                rw [Dict.isEmpty, List.isEmpty_eq_false_iff]
                exact List.ne_nil_of_mem hmem
          · cases hplace
      · cases hplace

theorem execute_of_isEmpty (h : mount.scenarioPackages.isEmpty = true) :
    env.execute mount mode scenarios = [] := by
  refine List.eq_nil_iff_forall_not_mem.mpr fun run hrun => ?_
  rw [(mem_execute hrun).2.2] at h
  cases h

end Execution

section Overrides

variable {Series : Type} {env : Environment Series} {combo : Combination}
  {held : RequirementsMap} {scenarios scenarios' : List ConfiguredScenario}
  {scenario scenario' : ConfiguredScenario}

/-- A combination leaves the verdict on a scenario's parameters, what its workers ask for, and the
outcome of its collection as they are. -/
structure Unchanged (env : Environment Series) (combo : Combination)
    (scenario : ConfiguredScenario) : Prop where
  parameters : parametersValid env.schemas (overridden combo scenario.strategyConfig) =
    parametersValid env.schemas scenario.strategyConfig
  requests : env.listed (withOverrides combo scenario) = env.listed scenario
  collection : env.collection scenario.dataBrokerType (overridden combo scenario.strategyConfig) =
    env.collection scenario.dataBrokerType scenario.strategyConfig

theorem Unchanged.follows (h : Unchanged env combo scenario) (hfollows : Follows scenario scenario') :
    Unchanged env combo scenario' := by
  obtain ⟨startDate, accountCurrency, isValid, rfl⟩ := hfollows.same
  refine ⟨h.parameters, ?_, h.collection⟩
  calc env.listed (withOverrides combo { scenario with
        startDate := startDate, accountCurrency := accountCurrency, isValid := isValid })
      = startingAt startDate (env.listed (withOverrides combo scenario)) :=
        listed_moved env (withOverrides combo scenario) startDate accountCurrency isValid
    _ = startingAt startDate (env.listed scenario) := congrArg _ h.requests
    _ = _ := (listed_moved env scenario startDate accountCurrency isValid).symm

theorem unchanged_follows (h : ∀ scenario ∈ scenarios, Unchanged env combo scenario)
    (hfollows : List.Forall₂ Follows scenarios scenarios') :
    ∀ scenario' ∈ scenarios', Unchanged env combo scenario' := by
  intro scenario' hscenario
  obtain ⟨scenario, hmem, hfollow⟩ := Pointwise.exists_left hfollows hscenario
  exact (h scenario hmem).follows hfollow

theorem configured_applyOverrides (combo : Combination) (scenarios : List ConfiguredScenario)
    (scenario : ConfiguredScenario) :
    env.configured (applyOverrides combo scenarios) (withOverrides combo scenario) =
      env.configured scenarios scenario := by
  have hvalid : (applyOverrides combo scenarios).filter ConfiguredScenario.isValid =
      (scenarios.filter ConfiguredScenario.isValid).map (withOverrides combo) := by
    rw [applyOverrides, List.filter_map]
    rfl
  have hbroker : ∀ broker, env.brokerConfigured
      ((scenarios.filter ConfiguredScenario.isValid).map (withOverrides combo)) broker =
        env.brokerConfigured (scenarios.filter ConfiguredScenario.isValid) broker := by
    intro broker
    unfold Environment.brokerConfigured
    split
    · rfl
    · rw [List.all_map]
      rfl
  have hbrokered : env.brokered (applyOverrides combo scenarios) =
      (env.brokered scenarios).map (withOverrides combo) := by
    unfold Environment.brokered
    rw [hvalid, List.filter_map]
    refine congrArg _ (List.filter_congr fun other _ => ?_)
    exact hbroker other.dataBrokerType
  have hname : nameValid ((env.brokered scenarios).map (withOverrides combo))
      (withOverrides combo scenario) = nameValid (env.brokered scenarios) scenario := by
    unfold nameValid
    rw [List.countP_map]
    rfl
  unfold Environment.configured
  rw [hbrokered, hname, hvalid, hbroker]
  rfl

theorem prepareScenarios_applyOverrides (combo : Combination)
    (scenarios : List ConfiguredScenario) :
    env.prepareScenarios (applyOverrides combo scenarios) =
      applyOverrides combo (env.prepareScenarios scenarios) := by
  unfold Environment.prepareScenarios
  rw [applyOverrides, List.map_map, applyOverrides, List.map_map]
  refine List.map_congr_left fun scenario _ => ?_
  rw [Function.comp_apply, Function.comp_apply, ← applyOverrides, configured_applyOverrides]
  split <;> rfl

theorem exclude_applyOverrides {check check' : ConfiguredScenario → Bool}
    (h : ∀ scenario ∈ scenarios, check (withOverrides combo scenario) = check' scenario) :
    (applyOverrides combo scenarios).map (excludeUnless check) =
      applyOverrides combo (scenarios.map (excludeUnless check')) := by
  rw [applyOverrides, List.map_map, applyOverrides, List.map_map]
  refine List.map_congr_left fun scenario hscenario => ?_
  rw [Function.comp_apply, Function.comp_apply, excludeUnless, h scenario hscenario]
  rfl

section Unchanged

variable (h : ∀ scenario ∈ scenarios, Unchanged env combo scenario)

include h

theorem validate_applyOverrides :
    env.validateScenarioParameters (applyOverrides combo scenarios) =
      applyOverrides combo (env.validateScenarioParameters scenarios) :=
  exclude_applyOverrides fun scenario hscenario => (h scenario hscenario).parameters

theorem entries_applyOverrides : env.entries (applyOverrides combo scenarios) = env.entries scenarios := by
  unfold Environment.entries
  rw [applyOverrides, List.map_map]
  refine List.map_congr_left fun scenario hscenario => ?_
  rw [Function.comp_apply, Environment.entry, (h scenario hscenario).requests]
  rfl

theorem collectionOf_applyOverrides :
    env.collectionOf (applyOverrides combo scenarios) = env.collectionOf scenarios := by
  funext single
  unfold Environment.collectionOf
  rw [applyOverrides, List.getElem?_map]
  cases hplace : scenarios[single.scenarioIndex]? with
  | none => rfl
  | some scenario => exact (h scenario (List.mem_of_getElem? hplace)).collection

theorem prepareMount_applyOverrides :
    env.prepareMount held (applyOverrides combo scenarios) =
      ((env.prepareMount held scenarios).1,
        applyOverrides combo (env.prepareMount held scenarios).2) := by
  have hprepared := unchanged_follows h (follows_prepareScenarios env scenarios)
  unfold Environment.prepareMount
  dsimp only
  rw [prepareScenarios_applyOverrides, entries_applyOverrides hprepared]
  unfold Environment.workspace
  rw [collectionOf_applyOverrides hprepared]
  refine Prod.ext rfl ?_
  show List.zipWith settle (applyOverrides combo _) _ = applyOverrides combo (List.zipWith settle _ _)
  unfold applyOverrides
  rw [List.zipWith_map_left, List.map_zipWith]
  rfl

theorem collected_applyOverrides :
    env.collected (applyOverrides combo scenarios) = applyOverrides combo (env.collected scenarios) :=
  exclude_applyOverrides fun scenario hscenario => by
    rw [← (h scenario hscenario).collection]
    rfl

end Unchanged

end Overrides

section Matching

variable {Series : Type} {workspace : Workspace Series} {held : RequirementsMap}
  {entries checked : List BatchScenario} {scenario : SingleScenario}

theorem validScenarios_marked_sublist (check : ListedScenario → Bool)
    (entries : List BatchScenario) :
    (validScenarios (marked check entries)).Sublist (validScenarios entries) := by
  induction entries with
  | nil => exact List.Sublist.refl []
  | cons entry entries ih =>
      obtain ⟨listed, isValid⟩ := entry
      cases isValid with
      | false => exact ih
      | true =>
          cases listed with
          | unbounded name scenarioIndex =>
              have hskip : (BatchScenario.mk (.unbounded name scenarioIndex)
                (true && check (.unbounded name scenarioIndex))).valid? = none := by
                unfold BatchScenario.valid?
                split <;> simp_all
              rw [marked, List.map_cons, validScenarios, List.filterMap_cons_none hskip]
              exact ih
          | bounded scenario =>
              cases hcheck : check (.bounded scenario) with
              | true =>
                  rw [marked, List.map_cons]
                  simp only [hcheck]
                  exact ih.cons_cons scenario
              | false =>
                  rw [marked, List.map_cons]
                  simp only [hcheck]
                  exact ih.cons scenario

theorem exists_unmoved (h : List.Forall₂ (fun entry checked =>
        (∃ startDate, checked.scenario = startingAt startDate entry.scenario) ∧
          (checked.isValid = true → entry.isValid = true)) entries checked)
    (hscenario : scenario ∈ validScenarios checked) :
    ∃ before ∈ validScenarios entries, ∃ startDate,
      scenario = { before with startDate := startDate } := by
  obtain ⟨after, hafter, hvalid⟩ := mem_validScenarios.mp hscenario
  obtain ⟨hvalid', hbounded⟩ := BatchScenario.valid?_eq_some.mp hvalid
  obtain ⟨entry, hentry, ⟨startDate, hmoved⟩, hkept⟩ := Pointwise.exists_left h hafter
  rw [hbounded] at hmoved
  cases hlisted : entry.scenario with
  | unbounded name scenarioIndex =>
      rw [hlisted] at hmoved
      cases hmoved
  | bounded before =>
      rw [hlisted] at hmoved
      exact ⟨before, mem_validScenarios.mpr ⟨entry, hentry,
        BatchScenario.valid?_eq_some.mpr ⟨hkept hvalid', hlisted⟩⟩, startDate,
          ListedScenario.bounded.inj hmoved⟩

theorem checked_names_sublist (h : List.Forall₂ (Checked workspace) entries checked) :
    ((validScenarios checked).map SingleScenario.name).Sublist
      ((validScenarios entries).map SingleScenario.name) := by
  induction h with
  | nil => exact List.Sublist.refl []
  | @cons entry after entries checked hhead _ ih =>
      obtain ⟨listed, isValid⟩ := entry
      obtain ⟨listed', isValid'⟩ := after
      obtain ⟨startDate, hmoved⟩ := hhead.moved
      have hlisted : listed' = startingAt startDate listed := hmoved
      subst hlisted
      cases isValid' with
      | false =>
          refine ih.trans ?_
          cases isValid with
          | false => exact List.Sublist.refl _
          | true =>
              cases listed with
              | unbounded name scenarioIndex => exact List.Sublist.refl _
              | bounded scenario => exact List.sublist_cons_self _ _
      | true =>
          have hvalid : isValid = true := hhead.valid rfl
          subst hvalid
          cases listed with
          | unbounded name scenarioIndex => exact ih
          | bounded scenario => exact ih.cons_cons _

def ownIdentity (scenario : SingleScenario) : DataIdentityKey :=
  .fromScenario scenario scenario.barRequirements

theorem fromScenario_eq {requirements : List BarRequirement}
    (h : requirements.filter (fun r => r.scenarioName = scenario.name) = scenario.barRequirements) :
    DataIdentityKey.fromScenario scenario requirements = ownIdentity scenario := by
  unfold ownIdentity DataIdentityKey.fromScenario
  rw [h, IdentitySoundness.filter_own_name]

theorem warmupBars_moved (before : SingleScenario) (startDate : Instant) :
    ({ before with startDate := startDate } : SingleScenario).barRequirements.map
        (fun r => (timeframeName r.timeframe, r.warmupCount)) =
      before.barRequirements.map fun r => (timeframeName r.timeframe, r.warmupCount) := by
  rw [SingleScenario.barRequirements, SingleScenario.barRequirements, List.map_map, List.map_map]
  rfl

theorem identity_prepareMount (hnumbered : Numbered entries)
    (hnames : ((validScenarios entries).map SingleScenario.name).Nodup)
    (hvalid : scenario ∈ validScenarios (Mounts.prepareMount workspace {} entries).2) :
    (Mounts.prepareMount workspace {} entries).1.dataIdentity.get? scenario.scenarioIndex =
      some (ownIdentity scenario) := by
  have hnumbered' := @numbered_prepareMount _ workspace {} _ hnumbered
  obtain ⟨before, hbefore, startDate, hmoved⟩ :=
    exists_unmoved (checkQuality_moves (loadBatch workspace {} entries)) hvalid
  obtain ⟨hcollected, -⟩ := mem_valid_of_marked hbefore
  obtain ⟨havailable, haddedBefore⟩ := mem_valid_of_marked hcollected
  have hindex : scenario.scenarioIndex = before.scenarioIndex := by rw [hmoved]
  have hcontains : (loadBatch workspace {} entries).scenarioPackages.contains
      scenario.scenarioIndex = true := by
    rw [hindex]
    exact package_of_valid hnumbered hbefore
  have hidentity : (Mounts.prepareMount workspace {} entries).1.dataIdentity.get?
      scenario.scenarioIndex = some (DataIdentityKey.fromScenario scenario
        (Mounts.prepareMount workspace {} entries).1.requirementsMap.barRequirements) :=
    identities_of_valid hnumbered' hvalid hcontains
  have hsublist := ((validScenarios_marked_sublist (onBounded workspace.validators.availability)
    (marked (configured workspace.validators) entries)).trans
      (validScenarios_marked_sublist _ entries)).map SingleScenario.name
  have hloaded : (Mounts.prepareMount workspace {} entries).1.requirementsMap.barRequirements.filter
      (fun r => r.scenarioName = before.name) = before.barRequirements :=
    IdentitySoundness.barRequirements_collected (hnames.sublist hsublist) havailable
      (of_decide_eq_true haddedBefore)
  have hname : scenario.name = before.name := by rw [hmoved]
  have hbars : scenario.barRequirements.map (fun r => (timeframeName r.timeframe, r.warmupCount)) =
      before.barRequirements.map fun r => (timeframeName r.timeframe, r.warmupCount) := by
    rw [hmoved]
    exact warmupBars_moved before startDate
  rw [hidentity]
  unfold ownIdentity DataIdentityKey.fromScenario
  rw [hname, hloaded, ← hname, IdentitySoundness.filter_own_name, hbars]

/-- A batch matches a mount exactly if the mount has the identities of what it collects. -/
theorem matchesMount_iff {collection : SingleScenario → Collection} {mount : MountPackage Series}
    {scenarios : List SingleScenario} (hnames : (scenarios.map SingleScenario.name).Nodup) :
    matchesMount collection mount scenarios = true ↔
      ∀ scenario ∈ scenarios, collection scenario = .added →
        mount.dataIdentity.get? scenario.scenarioIndex = some (ownIdentity scenario) := by
  have hown {scenario : SingleScenario} (hmem : scenario ∈ scenarios)
      (hadded : collection scenario = .added) :
      DataIdentityKey.fromScenario scenario
        (collectAndValidate collection {} scenarios).barRequirements = ownIdentity scenario :=
    fromScenario_eq (IdentitySoundness.barRequirements_collected hnames hmem hadded)
  rw [matchesMount, List.all_eq_true]
  constructor
  · intro h scenario hmem hadded
    have hmatch := h scenario (List.mem_filter.mpr ⟨hmem, decide_eq_true hadded⟩)
    split at hmatch
    · cases hmatch
    · next key hkey => rw [hkey, ← of_decide_eq_true hmatch, hown hmem hadded]
  · intro h scenario hscenario
    obtain ⟨hmem, hadded⟩ := List.mem_filter.mp hscenario
    rw [h scenario hmem (of_decide_eq_true hadded)]
    exact decide_eq_true (hown hmem (of_decide_eq_true hadded))

theorem matchesMount_prepareMount (hnumbered : Numbered entries)
    (hnames : ((validScenarios entries).map SingleScenario.name).Nodup) :
    matchesMount workspace.validators.collection (Mounts.prepareMount workspace {} entries).1
      (validScenarios (Mounts.prepareMount workspace {} entries).2) = true :=
  (matchesMount_iff (hnames.sublist (checked_names_sublist
    (prepareMount_checked workspace {} entries)))).mpr
      fun _ hvalid _ => identity_prepareMount hnumbered hnames hvalid

end Matching

section Unchanged

variable {Series : Type} {env : Environment Series} {combo : Combination}
  {held : RequirementsMap} {scenarios scenarios' base : List ConfiguredScenario}
  {scenario : ConfiguredScenario}

theorem name_of_listed {single : SingleScenario} (h : env.listed scenario = .bounded single) :
    single.name = scenario.name := by
  unfold Environment.listed at h
  split at h
  · cases h
    rfl
  · cases h

theorem valid_names_sublist (env : Environment Series) (scenarios : List ConfiguredScenario) :
    ((validScenarios (env.entries scenarios)).map SingleScenario.name).Sublist
      ((scenarios.filter ConfiguredScenario.isValid).map ConfiguredScenario.name) := by
  induction scenarios with
  | nil => exact List.Sublist.refl []
  | cons scenario scenarios ih =>
      rw [Environment.entries, List.map_cons, validScenarios]
      cases hvalid : (env.entry scenario).valid? with
      | none =>
          rw [List.filterMap_cons_none hvalid, List.filter_cons]
          refine ih.trans (List.Sublist.map _ ?_)
          split
          · exact List.sublist_cons_self _ _
          · exact List.Sublist.refl _
      | some single =>
          obtain ⟨hentry, hlisted⟩ := BatchScenario.valid?_eq_some.mp hvalid
          have hkept : scenario.isValid = true := hentry
          rw [List.filterMap_cons_some hvalid, List.filter_cons_of_pos hkept, List.map_cons,
            List.map_cons, name_of_listed hlisted]
          exact ih.cons_cons _

theorem nodup_prepared_names (env : Environment Series) (scenarios : List ConfiguredScenario) :
    ((validScenarios (env.entries (env.prepareScenarios scenarios))).map
      SingleScenario.name).Nodup :=
  (nodup_names_of_prepared (prepared_prepareScenarios env scenarios)).sublist
    (valid_names_sublist env _)

theorem collectionOf_follows (h : List.Forall₂ Follows scenarios scenarios') :
    env.collectionOf scenarios = env.collectionOf scenarios' := by
  have hkeys : scenarios.map (fun s => env.collection s.dataBrokerType s.strategyConfig) =
      scenarios'.map fun s => env.collection s.dataBrokerType s.strategyConfig := by
    refine Pointwise.map_eq_map (fun before after hafter => ?_) h
    obtain ⟨_, _, _, heq⟩ := hafter.same
    rw [heq]
  funext single
  have hplace := congrArg (fun keys => keys[single.scenarioIndex]?) hkeys
  simp only [List.getElem?_map] at hplace
  unfold Environment.collectionOf
  cases hbefore : scenarios[single.scenarioIndex]? with
  | none =>
      rw [hbefore] at hplace
      cases hafter : scenarios'[single.scenarioIndex]? with
      | none => rfl
      | some after =>
          rw [hafter] at hplace
          cases hplace
  | some before =>
      rw [hbefore] at hplace
      cases hafter : scenarios'[single.scenarioIndex]? with
      | none =>
          rw [hafter] at hplace
          cases hplace
      | some after =>
          rw [hafter] at hplace
          exact Option.some.inj hplace

theorem prepared_prepareMount (env : Environment Series) (held : RequirementsMap)
    (hplaces : InPlace scenarios) :
    List.Forall₂ (Prepared env scenarios) scenarios (env.prepareMount held scenarios).2 :=
  Pointwise.trans
    (fun _ _ _ h h' => ⟨h.toFollows.trans h'.toFollows, fun hvalid =>
      h.configured (h'.valid hvalid)⟩)
    (prepared_prepareScenarios env scenarios) (prepareMount_settled env held hplaces)

theorem currency_prepareMount (hplaces : InPlace scenarios)
    (hscenario : scenario ∈ (env.prepareMount held scenarios).2)
    (hvalid : scenario.isValid = true) :
    env.accountCurrency scenario = scenario.accountCurrency := by
  obtain ⟨prepared, hprepared, hsettled⟩ :=
    Pointwise.exists_left (prepareMount_settled env held hplaces) hscenario
  obtain ⟨before, -, rfl⟩ := List.mem_map.mp hprepared
  split at hsettled
  · obtain ⟨startDate, accountCurrency, isValid, rfl⟩ := hsettled.same
    have hcurrency : accountCurrency = env.accountCurrency before := hsettled.currency
    subst hcurrency
    exact accountCurrency_idem before startDate isValid
  · exact absurd (hsettled.valid hvalid) (by simp)

theorem exclude_eq_self {check : ConfiguredScenario → Bool}
    (h : ∀ scenario ∈ scenarios, scenario.isValid = true → check scenario = true) :
    scenarios.map (excludeUnless check) = scenarios := by
  conv_rhs => rw [← List.map_id scenarios]
  refine List.map_congr_left fun scenario hscenario => ?_
  cases hvalid : scenario.isValid with
  | true =>
      rw [excludeUnless, h scenario hscenario hvalid, hvalid, Bool.and_self, ← hvalid]
      rfl
  | false =>
      rw [excludeUnless, hvalid, Bool.false_and, ← hvalid]
      rfl

theorem inPlace_validated (env : Environment Series) (hplaces : InPlace base) :
    InPlace (env.validateScenarioParameters base) :=
  hplaces.follows (follows_map (follows_excludeUnless _) base)

theorem checks_buildMount (hplaces : InPlace base)
    (hscenario : scenario ∈ (env.buildMount base).2) (hvalid : scenario.isValid = true) :
    parametersValid env.schemas scenario.strategyConfig = true ∧
      env.collection scenario.dataBrokerType scenario.strategyConfig = .added := by
  have hplaces' := inPlace_validated env hplaces
  constructor
  · obtain ⟨validated, hvalidated, hfollows⟩ :=
      Pointwise.exists_left (follows_prepareMount env {} hplaces') hscenario
    obtain ⟨before, -, rfl⟩ := List.mem_map.mp hvalidated
    obtain ⟨_, _, _, heq⟩ := hfollows.same
    have hkept := (Bool.and_eq_true_iff.mp (hfollows.valid hvalid)).2
    rw [heq]
    exact hkept
  · obtain ⟨prepared, -, hsettled⟩ :=
      Pointwise.exists_left (prepareMount_settled env {} hplaces') hscenario
    obtain ⟨_, _, _, heq⟩ := hsettled.same
    have hadded := hsettled.added hvalid
    rw [heq]
    exact hadded

/-- A combination that changes no verdict and no requirement runs on the mount what it runs on a
fresh load. -/
theorem sameRuns_of_unchanged (hplaces : InPlace base)
    (h : ∀ scenario ∈ base, Unchanged env combo scenario) (mode : ExecutionMode) :
    env.warmRun mode base combo = env.coldRun mode base combo := by
  have hplaces' := inPlace_validated env hplaces
  have hvalidated : ∀ scenario ∈ env.validateScenarioParameters base,
      Unchanged env combo scenario :=
    unchanged_follows h (follows_map (follows_excludeUnless _) base)
  have hbuilt : ∀ scenario ∈ (env.buildMount base).2, Unchanged env combo scenario :=
    unchanged_follows hvalidated (follows_prepareMount env {} hplaces')
  have hcold : env.coldRun mode base combo = env.execute (env.buildMount base).1 mode
      (applyOverrides combo (env.buildMount base).2) := by
    unfold Environment.coldRun Environment.run
    dsimp only
    rw [validate_applyOverrides h, prepareMount_applyOverrides hvalidated]
    rfl
  have hparameters : env.validateScenarioParameters (applyOverrides combo (env.buildMount base).2) =
      applyOverrides combo (env.buildMount base).2 := by
    rw [validate_applyOverrides hbuilt]
    exact congrArg _ (exclude_eq_self fun scenario hscenario hvalid =>
      (checks_buildMount hplaces hscenario hvalid).1)
  have hphase : env.prepareScenarios (applyOverrides combo (env.buildMount base).2) =
      applyOverrides combo (env.buildMount base).2 := by
    rw [prepareScenarios_applyOverrides]
    exact congrArg _ (prepareScenarios_eq_self (prepared_prepareMount env {} hplaces')
      fun scenario hscenario hvalid => currency_prepareMount hplaces' hscenario hvalid)
  have hcollected : env.collected (applyOverrides combo (env.buildMount base).2) =
      applyOverrides combo (env.buildMount base).2 := by
    rw [collected_applyOverrides hbuilt]
    exact congrArg _ (exclude_eq_self fun scenario hscenario hvalid =>
      decide_eq_true (checks_buildMount hplaces hscenario hvalid).2)
  have hmatches : matchesMount (env.collectionOf (applyOverrides combo (env.buildMount base).2))
      (env.buildMount base).1
      (validScenarios (env.entries (applyOverrides combo (env.buildMount base).2))) = true := by
    rw [collectionOf_applyOverrides hbuilt, entries_applyOverrides hbuilt]
    have hsettled : List.Forall₂ Follows
        (env.prepareScenarios (env.validateScenarioParameters base)) (env.buildMount base).2 :=
      (prepareMount_settled env {} hplaces').imp fun _ _ hsettled => hsettled.toFollows
    rw [← collectionOf_follows hsettled, Environment.buildMount, entries_prepareMount]
    exact @matchesMount_prepareMount _ (env.workspace _) _
      ((numbered_entries env _).mpr (hplaces'.follows (follows_prepareScenarios env _)))
      (nodup_prepared_names env _)
  rw [hcold, Environment.warmRun]
  dsimp only
  split
  · next hempty => exact (execute_of_isEmpty hempty).symm
  · unfold Environment.run
    dsimp only
    rw [hparameters, hphase, if_pos hmatches, hcollected]

end Unchanged

end Finiex.SweepOverrides
