import Finiex.Mounts
import Finiex.PreparationIsolation
import Finiex.Lib.Lists

namespace Finiex.MountLookups

open Finiex.Types
open Finiex.Lib
open Finiex.Lib.Lists
open Finiex.Bars
open Finiex.Preparation
open Finiex.Coverage
open Finiex.Mounts

section Statement

variable {Series : Type}

/-- The scenarios of a list carry their places. -/
def Numbered (entries : List BatchScenario) : Prop :=
  (entries.map fun entry => entry.scenario.scenarioIndex) = List.range entries.length

instance (entries : List BatchScenario) : Decidable (Numbered entries) :=
  inferInstanceAs (Decidable (_ = _))

/-- The package the quality check takes for the scenario at a place of its list, with the
index it was built under. -/
def checkedPackage (packages : Dict ℕ (ProcessDataPackage Series)) (place : ℕ) :
    Option (ℕ × ProcessDataPackage Series) :=
  (packages.get? place).map fun package => (place, package)

def builtPackage (packages : Dict ℕ (ProcessDataPackage Series)) (scenario : SingleScenario) :
    Option (ℕ × ProcessDataPackage Series) :=
  (packages.get? scenario.scenarioIndex).map fun package => (scenario.scenarioIndex, package)

def checkedOn (validator : ScenarioDataValidator) (requirements : RequirementsMap)
    (scenario : SingleScenario) :
    Option (ℕ × ProcessDataPackage Series) → SingleScenario × List ValidationMessage
  | none => (scenario, [])
  | some (_, package) =>
      let (scenario, result) := validator.validateSingleScenario scenario package requirements
      (scenario, result.errors)

theorem validateLoadedData_eq (validator : ScenarioDataValidator) (requirements : RequirementsMap)
    (packages : Dict ℕ (ProcessDataPackage Series)) (scenarios : List SingleScenario) :
    validator.validateLoadedData scenarios packages requirements =
      scenarios.mapIdx fun place scenario =>
        checkedOn validator requirements scenario (checkedPackage packages place) := by
  unfold ScenarioDataValidator.validateLoadedData
  congr 1
  funext place scenario
  rw [checkedPackage]
  cases packages.get? place <;> rfl

/-- Each scenario that is still valid is checked against the package built for it, or marked
if there is none. -/
structure ChecksOwnPackages (batch : LoadedBatch Series) : Prop where
  own : ∀ (place : ℕ) (scenario : SingleScenario),
    (validScenarios batch.entries)[place]? = some scenario →
      checkedPackage batch.scenarioPackages place = builtPackage batch.scenarioPackages scenario
  missing : ∀ scenario ∈ validScenarios batch.entries,
    builtPackage batch.scenarioPackages scenario = none →
      ∃ entry ∈ batch.checkQuality,
        entry.scenario.scenarioIndex = scenario.scenarioIndex ∧ entry.isValid = false

def ownResult (packages : Dict ℕ (ProcessDataPackage Series)) (entry : BatchScenario) :
    ScenarioResult Series :=
  match entry.valid? with
  | none => .validationFailed entry.scenario
  | some scenario =>
      match builtPackage packages scenario with
      | none => .validationFailed entry.scenario
      | some (_, package) => .executed scenario package

/-- In parallel, each of `n` places completes once. -/
def Completes (n : ℕ) : ExecutionMode → Prop
  | .sequential => True
  | .parallel completed => completed.Perm (List.range n)

/-- Every scenario has its result, in its place, however the batch is executed. -/
def RunsInPlace (mount : MountPackage Series) (entries : List BatchScenario) : Prop :=
  ∀ mode, Completes entries.length mode →
    execute mount mode entries =
      .ok (entries.map fun entry => some (ownResult mount.scenarioPackages entry))

/-- Preparing the mount and executing on it, each scenario meets its own package. -/
def MeetsOwnPackages (workspace : Workspace Series) (held : RequirementsMap)
    (entries : List BatchScenario) : Prop :=
  ChecksOwnPackages (loadBatch workspace held entries) ∧
    RunsInPlace (prepareMount workspace held entries).1 (prepareMount workspace held entries).2

/-- Where the scenarios stand that were excluded before the quality check. -/
def ExclusionsBehind (batch : LoadedBatch Series) : Prop :=
  ValuesInFront BatchScenario.valid? batch.entries

instance (batch : LoadedBatch Series) : Decidable (ExclusionsBehind batch) :=
  inferInstanceAs (Decidable (List.Pairwise _ _))

/-- Every scenario with a package is valid and passes the quality check on it. -/
def PackagedPass (batch : LoadedBatch Series) : Prop :=
  ∀ entry ∈ batch.entries,
    ∀ package ∈ batch.scenarioPackages.get? entry.scenario.scenarioIndex,
      ∃ scenario ∈ entry.valid?,
        (batch.validator.validateSingleScenario scenario package
          batch.requirementsMap).2.errors = []

instance (batch : LoadedBatch Series) : Decidable (PackagedPass batch) :=
  inferInstanceAs (Decidable (∀ entry ∈ batch.entries, _))

end Statement

section Places

variable {entries : List BatchScenario} {entry other : BatchScenario}
  {scenario : SingleScenario}

theorem BatchScenario.valid?_eq_some :
    entry.valid? = some scenario ↔ entry.isValid = true ∧ entry.scenario = .bounded scenario := by
  obtain ⟨listed, isValid⟩ := entry
  cases isValid <;> cases listed <;> simp [BatchScenario.valid?]

theorem scenarioIndex_of_valid (h : entry.valid? = some scenario) :
    entry.scenario.scenarioIndex = scenario.scenarioIndex := by
  rw [(BatchScenario.valid?_eq_some.mp h).2]
  rfl

theorem Numbered.scenarioIndex_eq (h : Numbered entries) {place : ℕ}
    (hentry : entries[place]? = some entry) : entry.scenario.scenarioIndex = place := by
  have hlt : place < entries.length := (List.getElem?_eq_some_iff.mp hentry).1
  have hplace := congrArg (fun indices => indices[place]?) h
  simp only [List.getElem?_map, hentry, Option.map_some, List.getElem?_range hlt,
    Option.some.injEq] at hplace
  exact hplace

theorem Numbered.eq_of_scenarioIndex (h : Numbered entries) (hentry : entry ∈ entries)
    (hother : other ∈ entries)
    (hindex : entry.scenario.scenarioIndex = other.scenario.scenarioIndex) : entry = other := by
  have hnodup : (entries.map fun entry => entry.scenario.scenarioIndex).Nodup := by
    rw [h]
    exact List.nodup_range
  exact List.inj_on_of_nodup_map hnodup hentry hother hindex

theorem mem_validScenarios :
    scenario ∈ validScenarios entries ↔ ∃ entry ∈ entries, entry.valid? = some scenario :=
  List.mem_filterMap

theorem sublist_valid_indices (entries : List BatchScenario) :
    ((validScenarios entries).map SingleScenario.scenarioIndex).Sublist
      (entries.map fun entry => entry.scenario.scenarioIndex) := by
  induction entries with
  | nil => exact List.Sublist.refl []
  | cons entry entries ih =>
      rw [validScenarios, List.map_cons]
      cases hvalid : entry.valid? with
      | none =>
          rw [List.filterMap_cons_none hvalid]
          exact ih.cons _
      | some scenario =>
          rw [List.filterMap_cons_some hvalid, List.map_cons, scenarioIndex_of_valid hvalid]
          exact ih.cons_cons _

theorem Numbered.nodup_valid (h : Numbered entries) :
    ((validScenarios entries).map SingleScenario.scenarioIndex).Nodup := by
  refine List.Nodup.sublist (sublist_valid_indices entries) ?_
  rw [h]
  exact List.nodup_range

theorem numbered_congr {entries' : List BatchScenario}
    (h : (entries.map fun entry => entry.scenario.scenarioIndex) =
      entries'.map fun entry => entry.scenario.scenarioIndex) :
    Numbered entries ↔ Numbered entries' := by
  have hlength : entries.length = entries'.length := by
    simpa using congrArg List.length h
  rw [Numbered, Numbered, h, hlength]

theorem marked_indices (check : ListedScenario → Bool) (entries : List BatchScenario) :
    ((marked check entries).map fun entry => entry.scenario.scenarioIndex) =
      entries.map fun entry => entry.scenario.scenarioIndex := by
  rw [marked, List.map_map]
  rfl

theorem valid?_marked (check : SingleScenario → Bool)
    (h : ({ entry with isValid := entry.isValid && onBounded check entry.scenario } :
      BatchScenario).valid? = some scenario) :
    entry.valid? = some scenario ∧ check scenario = true := by
  obtain ⟨hvalid, hbounded⟩ := BatchScenario.valid?_eq_some.mp h
  rw [Bool.and_eq_true] at hvalid
  refine ⟨BatchScenario.valid?_eq_some.mpr ⟨hvalid.1, hbounded⟩, ?_⟩
  have hcheck := hvalid.2
  rw [hbounded] at hcheck
  exact hcheck

theorem mem_valid_of_marked {check : SingleScenario → Bool}
    (h : scenario ∈ validScenarios (marked (onBounded check) entries)) :
    scenario ∈ validScenarios entries ∧ check scenario = true := by
  obtain ⟨entry', hentry', hvalid⟩ := mem_validScenarios.mp h
  obtain ⟨entry, hentry, rfl⟩ := List.mem_map.mp hentry'
  obtain ⟨hbefore, hcheck⟩ := valid?_marked check hvalid
  exact ⟨mem_validScenarios.mpr ⟨entry, hentry, hbefore⟩, hcheck⟩

end Places

section Load

variable {Series : Type} {workspace : Workspace Series} {held : RequirementsMap}
  {entries : List BatchScenario} {scenario : SingleScenario}

theorem numbered_loadBatch :
    Numbered (loadBatch workspace held entries).entries ↔ Numbered entries := by
  apply numbered_congr
  simp only [loadBatch, marked_indices]

theorem isSome_toOption {ε α : Type} (x : Except ε α) : x.toOption.isSome = x.isOk := by
  cases x <;> rfl

theorem package_of_valid (hnumbered : Numbered entries)
    (h : scenario ∈ validScenarios (loadBatch workspace held entries).entries) :
    ((loadBatch workspace held entries).scenarioPackages.get?
      scenario.scenarioIndex).isSome = true := by
  obtain ⟨hcollected, hpackage⟩ := mem_valid_of_marked h
  have hconfigured := (mem_valid_of_marked (mem_valid_of_marked hcollected).1).1
  have hnumbered' : Numbered (marked (configured workspace.validators) entries) :=
    (numbered_congr (marked_indices _ _)).mpr hnumbered
  rw [loadBatch, PreparationIsolation.prepareScenarioPackages_get? hnumbered'.nodup_valid
    hconfigured, isSome_toOption]
  exact hpackage

end Load

section Check

variable {Series : Type} {workspace : Workspace Series} {held : RequirementsMap}
  {entries : List BatchScenario} {entry : BatchScenario} {scenario : SingleScenario}

/-- What the quality check makes of an entry, given what it makes of its scenario. -/
def settled (check : SingleScenario → SingleScenario × List ValidationMessage)
    (entry : BatchScenario) : BatchScenario :=
  match entry.valid? with
  | none => entry
  | some scenario =>
      { scenario := .bounded (check scenario).1, isValid := decide ((check scenario).2 = []) }

theorem absorb_map (check : SingleScenario → SingleScenario × List ValidationMessage)
    (entries : List BatchScenario) :
    absorb entries ((validScenarios entries).map check) = entries.map (settled check) := by
  induction entries with
  | nil => rfl
  | cons entry entries ih =>
      rw [validScenarios, List.map_cons]
      cases hvalid : entry.valid? with
      | none =>
          have hsettled : settled check entry = entry := by rw [settled, hvalid]
          rw [List.filterMap_cons_none hvalid, hsettled]
          simp only [absorb, hvalid]
          exact congrArg _ ih
      | some scenario =>
          have hsettled : settled check entry =
              { scenario := .bounded (check scenario).1
                isValid := decide ((check scenario).2 = []) } := by rw [settled, hvalid]
          rw [List.filterMap_cons_some hvalid, List.map_cons, hsettled]
          simp only [absorb, hvalid]
          exact congrArg _ ih

/-- The scenarios keep their places exactly if the exclusions stand behind. -/
theorem exclusionsBehind_iff {batch : LoadedBatch Series} (hnumbered : Numbered batch.entries) :
    ExclusionsBehind batch ↔ ∀ (place : ℕ) (scenario : SingleScenario),
      (validScenarios batch.entries)[place]? = some scenario →
        scenario.scenarioIndex = place := by
  rw [ExclusionsBehind, valuesInFront_iff]
  constructor
  · intro h place scenario hplace
    obtain ⟨entry, hentry, hvalid⟩ := Option.bind_eq_some_iff.mp (h place scenario hplace)
    rw [← scenarioIndex_of_valid hvalid]
    exact hnumbered.scenarioIndex_eq hentry
  · intro h place scenario hplace
    obtain ⟨entry, hentry, hvalid⟩ :=
      mem_validScenarios.mp (List.mem_of_getElem? hplace)
    obtain ⟨place', hplace'⟩ := List.getElem?_of_mem hentry
    have heq : place' = place := by
      rw [← hnumbered.scenarioIndex_eq hplace', scenarioIndex_of_valid hvalid]
      exact h place scenario hplace
    rw [← heq, hplace', Option.bind_some]
    exact hvalid

theorem checksOwnPackages_iff (hnumbered : Numbered entries) :
    ChecksOwnPackages (loadBatch workspace held entries) ↔
      ExclusionsBehind (loadBatch workspace held entries) := by
  rw [exclusionsBehind_iff (numbered_loadBatch.mpr hnumbered)]
  constructor
  · intro h place scenario hplace
    have hsome := package_of_valid hnumbered (List.mem_of_getElem? hplace)
    obtain ⟨package, hpackage⟩ := Option.isSome_iff_exists.mp hsome
    have hown := h.own place scenario hplace
    rw [builtPackage, hpackage, Option.map_some, checkedPackage, Option.map_eq_some_iff] at hown
    obtain ⟨package', -, hkeys⟩ := hown
    exact (congrArg Prod.fst hkeys).symm
  · intro h
    refine ⟨fun place scenario hplace => ?_, fun scenario hscenario hmissing => ?_⟩
    · rw [checkedPackage, builtPackage, h place scenario hplace]
    · have hsome := package_of_valid hnumbered hscenario
      rw [builtPackage, Option.map_eq_none_iff] at hmissing
      rw [hmissing] at hsome
      cases hsome

def ownCheck (batch : LoadedBatch Series) (scenario : SingleScenario) :
    SingleScenario × List ValidationMessage :=
  checkedOn batch.validator batch.requirementsMap scenario
    (builtPackage batch.scenarioPackages scenario)

theorem checkQuality_eq {batch : LoadedBatch Series} (hnumbered : Numbered batch.entries)
    (hbehind : ExclusionsBehind batch) :
    batch.checkQuality = batch.entries.map (settled (ownCheck batch)) := by
  rw [LoadedBatch.checkQuality, ← absorb_map, validateLoadedData_eq]
  congr 1
  apply List.ext_getElem?
  intro place
  rw [List.getElem?_mapIdx, List.getElem?_map]
  cases hplace : (validScenarios batch.entries)[place]? with
  | none => rfl
  | some scenario =>
      have hindex := (exclusionsBehind_iff hnumbered).mp hbehind place scenario hplace
      rw [Option.map_some, Option.map_some, ownCheck, checkedPackage, builtPackage, hindex]

theorem validateSingleScenario_scenarioIndex (validator : ScenarioDataValidator)
    (scenario : SingleScenario) (package : ProcessDataPackage Series)
    (requirements : RequirementsMap) :
    (validator.validateSingleScenario scenario package requirements).1.scenarioIndex =
      scenario.scenarioIndex := by
  unfold ScenarioDataValidator.validateSingleScenario
  split
  · rfl
  · unfold ScenarioDataValidator.validateStartDateNotInGap
    dsimp only
    split
    · rfl
    · split <;> rfl

theorem ownCheck_scenarioIndex (batch : LoadedBatch Series) (scenario : SingleScenario) :
    (ownCheck batch scenario).1.scenarioIndex = scenario.scenarioIndex := by
  unfold ownCheck
  cases builtPackage batch.scenarioPackages scenario with
  | none => rfl
  | some keyed =>
      exact validateSingleScenario_scenarioIndex batch.validator scenario keyed.2
        batch.requirementsMap

theorem settled_scenarioIndex (batch : LoadedBatch Series) (entry : BatchScenario) :
    (settled (ownCheck batch) entry).scenario.scenarioIndex = entry.scenario.scenarioIndex := by
  unfold settled
  split
  · rfl
  · next scenario hvalid =>
      rw [scenarioIndex_of_valid hvalid]
      exact ownCheck_scenarioIndex batch scenario

theorem numbered_settled {batch : LoadedBatch Series} :
    Numbered (batch.entries.map (settled (ownCheck batch))) ↔ Numbered batch.entries := by
  apply numbered_congr
  rw [List.map_map]
  exact List.map_congr_left fun entry _ => settled_scenarioIndex batch entry

/-- An entry with a package stays valid exactly if it was and passes the check. -/
theorem settled_valid_iff {batch : LoadedBatch Series} {package : ProcessDataPackage Series}
    (hpackage : batch.scenarioPackages.get? entry.scenario.scenarioIndex = some package) :
    (settled (ownCheck batch) entry).valid?.isSome = true ↔
      ∃ scenario ∈ entry.valid?,
        (batch.validator.validateSingleScenario scenario package
          batch.requirementsMap).2.errors = [] := by
  cases hvalid : entry.valid? with
  | none => simp [settled, hvalid]
  | some scenario =>
      rw [scenarioIndex_of_valid hvalid] at hpackage
      have hcheck : (ownCheck batch scenario).2 =
          (batch.validator.validateSingleScenario scenario package
            batch.requirementsMap).2.errors := by
        rw [ownCheck, builtPackage, hpackage]
        rfl
      rw [settled, hvalid]
      simp only [Option.mem_some_iff, exists_eq_left', ← hcheck]
      by_cases hpass : (ownCheck batch scenario).2 = [] <;>
        simp [BatchScenario.valid?, hpass]

end Check

section Run

variable {Series : Type} {workspace : Workspace Series} {held : RequirementsMap}
  {entries : List BatchScenario} {entry : BatchScenario} {scenario : SingleScenario}
  {packages : Dict ℕ (ProcessDataPackage Series)} {requirements : RequirementsMap}

def mountOf (packages : Dict ℕ (ProcessDataPackage Series)) (requirements : RequirementsMap)
    (entries : List BatchScenario) : MountPackage Series where
  scenarioPackages := packages
  requirementsMap := requirements
  dataIdentity := identities packages requirements entries

theorem mem_identities {key : ℕ × DataIdentityKey} :
    key ∈ (((validScenarios entries).filter fun scenario =>
        packages.contains scenario.scenarioIndex).map fun scenario =>
          (scenario.scenarioIndex,
            DataIdentityKey.fromScenario scenario requirements.barRequirements)) ↔
      ∃ scenario ∈ validScenarios entries, packages.contains scenario.scenarioIndex = true ∧
        key = (scenario.scenarioIndex,
          DataIdentityKey.fromScenario scenario requirements.barRequirements) := by
  rw [List.mem_map]
  constructor
  · rintro ⟨scenario, hscenario, rfl⟩
    rw [List.mem_filter] at hscenario
    exact ⟨scenario, hscenario.1, hscenario.2, rfl⟩
  · rintro ⟨scenario, hscenario, hcontains, rfl⟩
    exact ⟨scenario, List.mem_filter.mpr ⟨hscenario, hcontains⟩, rfl⟩

theorem identities_of_valid (hnumbered : Numbered entries)
    (hscenario : scenario ∈ validScenarios entries)
    (hcontains : packages.contains scenario.scenarioIndex = true) :
    (identities packages requirements entries).get? scenario.scenarioIndex =
      some (DataIdentityKey.fromScenario scenario requirements.barRequirements) := by
  refine Dict.get?_assignAll_of_unique (mem_identities.mpr ⟨scenario, hscenario, hcontains, rfl⟩) ?_
  intro key hkey
  obtain ⟨scenario', hscenario', -, heq⟩ := mem_identities.mp hkey
  obtain ⟨hindex, rfl⟩ := Prod.mk.inj heq
  rw [List.inj_on_of_nodup_map hnumbered.nodup_valid hscenario' hscenario hindex.symm]

theorem identities_of_invalid (hnumbered : Numbered entries) (hentry : entry ∈ entries)
    (hinvalid : entry.valid? = none) :
    (identities packages requirements entries).get? entry.scenario.scenarioIndex = none := by
  refine Dict.get?_assignAll_of_absent fun hmem => ?_
  obtain ⟨key, hkey, hindex⟩ := List.mem_map.mp hmem
  obtain ⟨scenario, hscenario, -, rfl⟩ := mem_identities.mp hkey
  obtain ⟨entry', hentry', hvalid⟩ := mem_validScenarios.mp hscenario
  have heq : entry' = entry := by
    apply hnumbered.eq_of_scenarioIndex hentry' hentry
    rw [scenarioIndex_of_valid hvalid]
    exact hindex
  rw [heq, hinvalid] at hvalid
  cases hvalid

theorem passesGuard_iff (hnumbered : Numbered entries) (hentry : entry ∈ entries) :
    passesGuard (mountOf packages requirements entries) entry = true ↔
      ∀ package ∈ packages.get? entry.scenario.scenarioIndex, entry.valid?.isSome = true := by
  rw [passesGuard, Bool.or_eq_true, Bool.not_eq_true', decide_eq_true_iff]
  show packages.contains entry.scenario.scenarioIndex = false ∨
    (identities packages requirements entries).get? entry.scenario.scenarioIndex ≠ none ∧
      (identities packages requirements entries).get? entry.scenario.scenarioIndex =
        entry.scenario.identity? requirements.barRequirements ↔ _
  rw [Dict.contains]
  cases hpackage : packages.get? entry.scenario.scenarioIndex with
  | none => simp
  | some package =>
      simp only [Option.isSome_some, Bool.true_eq_false, false_or, Option.mem_some_iff,
        forall_eq']
      cases hvalid : entry.valid? with
      | none =>
          rw [identities_of_invalid hnumbered hentry hvalid]
          simp
      | some scenario =>
          have hindex := scenarioIndex_of_valid hvalid
          have hcontains : packages.contains scenario.scenarioIndex = true := by
            rw [Dict.contains, ← hindex, hpackage]
            rfl
          rw [hindex, identities_of_valid hnumbered
            (mem_validScenarios.mpr ⟨entry, hentry, hvalid⟩) hcontains,
            (BatchScenario.valid?_eq_some.mp hvalid).2]
          simp [ListedScenario.identity?]

theorem resultAt_eq {place : ℕ} (hplace : entry.scenario.scenarioIndex = place) :
    resultAt packages place entry = ownResult packages entry := by
  unfold resultAt ownResult
  cases hvalid : entry.valid? with
  | none => rfl
  | some scenario =>
      have hbuilt : builtPackage packages scenario =
          (packages.get? place).map fun package => (place, package) := by
        rw [builtPackage, ← scenarioIndex_of_valid hvalid, hplace]
      simp only [hbuilt]
      cases packages.get? place <;> rfl

theorem executeSequential_eq (hnumbered : Numbered entries) :
    executeSequential packages entries = entries.map (ownResult packages) := by
  apply List.ext_getElem?
  intro place
  rw [executeSequential, List.getElem?_mapIdx, List.getElem?_map]
  cases hentry : entries[place]? with
  | none => rfl
  | some entry =>
      rw [Option.map_some, Option.map_some, resultAt_eq (hnumbered.scenarioIndex_eq hentry)]

theorem executeParallel_eq (hnumbered : Numbered entries) {completed : List ℕ}
    (hcompleted : completed.Perm (List.range entries.length)) :
    executeParallel packages completed entries =
      entries.map fun entry => some (ownResult packages entry) := by
  apply List.ext_getElem?
  intro place
  have hmem : place ∈ completed ↔ place < entries.length := by
    rw [hcompleted.mem_iff, List.mem_range]
  rw [executeParallel, getElem?_foldl_set, List.getElem?_map, List.getElem?_map]
  cases hentry : entries[place]? with
  | none => simp
  | some entry =>
      rw [if_pos (hmem.mpr (List.getElem?_eq_some_iff.mp hentry).1), Option.map_some,
        Option.map_some, Option.map_some, Option.map_some,
        resultAt_eq (hnumbered.scenarioIndex_eq hentry)]

theorem guard_iff (hnumbered : Numbered entries) :
    entries.all (passesGuard (mountOf packages requirements entries)) = true ↔
      ∀ entry ∈ entries, ∀ package ∈ packages.get? entry.scenario.scenarioIndex,
        entry.valid?.isSome = true := by
  rw [List.all_eq_true]
  exact forall₂_congr fun entry hentry => passesGuard_iff hnumbered hentry

theorem runsInPlace_iff (hnumbered : Numbered entries) :
    RunsInPlace (mountOf packages requirements entries) entries ↔
      ∀ entry ∈ entries, ∀ package ∈ packages.get? entry.scenario.scenarioIndex,
        entry.valid?.isSome = true := by
  have hguard := @guard_iff _ _ packages requirements hnumbered
  rw [← hguard]
  constructor
  · intro h
    have hrun := h .sequential trivial
    unfold execute at hrun
    split at hrun
    · assumption
    · cases hrun
  · intro h mode hmode
    unfold execute
    rw [if_pos h]
    cases mode with
    | sequential =>
        show Except.ok ((executeSequential packages entries).map some) = _
        rw [executeSequential_eq hnumbered, List.map_map]
        rfl
    | parallel completed =>
        show Except.ok (executeParallel packages completed entries) = _
        rw [executeParallel_eq hnumbered hmode]
        rfl

/-- Each scenario meets its own package exactly if the excluded ones stand behind and every
scenario with a package stays valid. -/
theorem meets_own_packages_iff (workspace : Workspace Series) (held : RequirementsMap)
    (hnumbered : Numbered entries) :
    MeetsOwnPackages workspace held entries ↔
      ExclusionsBehind (loadBatch workspace held entries) ∧
        PackagedPass (loadBatch workspace held entries) := by
  have hloaded : Numbered (loadBatch workspace held entries).entries :=
    numbered_loadBatch.mpr hnumbered
  rw [MeetsOwnPackages, checksOwnPackages_iff hnumbered]
  refine and_congr_right fun hbehind => ?_
  have hchecked := checkQuality_eq hloaded hbehind
  show RunsInPlace (mountOf (loadBatch workspace held entries).scenarioPackages
    (loadBatch workspace held entries).requirementsMap
    (loadBatch workspace held entries).checkQuality)
    (loadBatch workspace held entries).checkQuality ↔ _
  rw [hchecked, runsInPlace_iff (numbered_settled.mpr hloaded), List.forall_mem_map]
  refine forall₂_congr fun entry hentry => ?_
  rw [settled_scenarioIndex]
  exact forall₂_congr fun package hpackage => settled_valid_iff hpackage

end Run

section Examples

open Finiex.PreparationIsolation

def eurusdOnly : Workspace Unit where
  archive := twoFiles
  loadSeries := noSignals
  coverage := {}
  closes _ := false
  snapshots _ _ := []
  isStandard := true
  allowedGapCategories := [.seamless, .short]
  validators :=
    { config := fun _ => true
      availability := fun scenario => decide (scenario.symbol = "EURUSD")
      collection := fun _ => .added }

def atPlace (scenario : SingleScenario) (place : ℕ) : BatchScenario where
  scenario := .bounded { scenario with scenarioIndex := place }

def otherSymbol : SingleScenario := { twoMinutes with name := "other", symbol := "GBPUSD" }

theorem excluded_behind_meets :
    MeetsOwnPackages eurusdOnly {} [atPlace twoMinutes 0, atPlace otherSymbol 1] :=
  (meets_own_packages_iff eurusdOnly {} (by decide)).mpr
    ⟨by decide +kernel, by decide +kernel⟩

/-- Behind an excluded scenario, the check finds no package for the scenario that has one. -/
theorem excluded_in_front_hides_package :
    Numbered [atPlace otherSymbol 0, atPlace twoMinutes 1] ∧
      ¬MeetsOwnPackages eurusdOnly {} [atPlace otherSymbol 0, atPlace twoMinutes 1] := by
  refine ⟨by decide, fun h => ?_⟩
  have hown := h.1.own 0 { twoMinutes with scenarioIndex := 1 } (by decide +kernel)
  exact absurd (congrArg (Option.map Prod.fst) hown) (by decide +kernel)

end Examples

end Finiex.MountLookups
