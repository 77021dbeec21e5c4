import Finiex.MountReloads
import Finiex.SweepOverrides

namespace Finiex.SweepReloads

open Finiex.Types
open Finiex.Lib
open Finiex.Bars
open Finiex.Preparation
open Finiex.Coverage
open Finiex.Mounts
open Finiex.MountLookups
open Finiex.DataIdentity
open Finiex.MountReloads
open Finiex.SweepGrid
open Finiex.SweepRuns
open Finiex.SweepPhases
open Finiex.SweepOverrides

section Execution

variable {Series : Type} {env : Environment Series} {mount mount' : MountPackage Series}
  {scenarios scenarios' : List ConfiguredScenario}

/-- Two scenarios are both excluded, or valid and the same. -/
structure SameIfValid (scenario scenario' : ConfiguredScenario) : Prop where
  valid : scenario'.isValid = scenario.isValid
  same : scenario.isValid = true → scenario' = scenario

theorem SameIfValid.valid? {scenario scenario' : ConfiguredScenario}
    (h : SameIfValid scenario scenario') :
    (env.entry scenario').valid? = (env.entry scenario).valid? := by
  cases hvalid : scenario.isValid with
  | true => rw [h.same hvalid]
  | false =>
      have hout : scenario'.isValid = false := h.valid.trans hvalid
      simp [BatchScenario.valid?, Environment.entry, hvalid, hout]

theorem map_valid?_entries (h : List.Forall₂ SameIfValid scenarios scenarios') :
    (env.entries scenarios').map BatchScenario.valid? =
      (env.entries scenarios).map BatchScenario.valid? := by
  unfold Environment.entries
  rw [List.map_map, List.map_map]
  exact (Pointwise.map_eq_map (fun _ _ hsame => hsame.valid?.symm) h).symm

/-- A place is filled, one after the other or when its scenario completes. -/
def Fills (mode : ExecutionMode) (place : ℕ) : Prop :=
  match mode with
  | .sequential => True
  | .parallel completed => place ∈ completed

instance (mode : ExecutionMode) (place : ℕ) : Decidable (Fills mode place) :=
  match mode with
  | .sequential => .isTrue trivial
  | .parallel _ => inferInstanceAs (Decidable (place ∈ _))

def runAt (env : Environment Series) (packages : Dict ℕ (ProcessDataPackage Series))
    (mode : ExecutionMode) (place : ℕ) (scenario : ConfiguredScenario) : Option (ProcessRun Series) :=
  if Fills mode place then processRun? scenario (some (resultAt packages place (env.entry scenario)))
  else none

theorem runAt_congr {packages : Dict ℕ (ProcessDataPackage Series)} {mode : ExecutionMode}
    {place : ℕ} {scenario scenario' : ConfiguredScenario} (h : SameIfValid scenario scenario') :
    runAt env packages mode place scenario' = runAt env packages mode place scenario := by
  cases hvalid : scenario.isValid with
  | true => rw [h.same hvalid]
  | false =>
      have hnone {other : ConfiguredScenario} (hout : other.isValid = false) :
          runAt env packages mode place other = none := by
        have hentry : (env.entry other).valid? = none := by
          simp [BatchScenario.valid?, Environment.entry, hout]
        unfold runAt resultAt
        rw [hentry]
        split <;> rfl
      rw [hnone hvalid, hnone (h.valid.trans hvalid)]

theorem execute_eq (mount : MountPackage Series) (mode : ExecutionMode)
    (scenarios : List ConfiguredScenario) :
    env.execute mount mode scenarios =
      if (env.entries scenarios).all (passesGuard mount) then
        (scenarios.mapIdx (runAt env mount.scenarioPackages mode)).reduceOption
      else [] := by
  unfold Environment.execute Mounts.execute
  split
  · next hguard =>
      split at hguard
      · cases hguard
      · next hfails => rw [if_neg hfails]
  · next results hresults =>
      split at hresults
      · next hpasses =>
          rw [if_pos hpasses]
          cases hresults
          apply congrArg
          apply List.ext_getElem?
          intro place
          rw [List.getElem?_zipWith, List.getElem?_mapIdx]
          cases hscenario : scenarios[place]? with
          | none => rfl
          | some scenario =>
              have hentry : (env.entries scenarios)[place]? = some (env.entry scenario) := by
                rw [Environment.entries, List.getElem?_map, hscenario]
                rfl
              cases mode with
              | sequential =>
                  rw [Option.map_some, runAt, if_pos (show Fills .sequential place from trivial)]
                  simp only [executeSequential, List.getElem?_map, List.getElem?_mapIdx, hentry,
                    Option.map_some]
              | parallel completed =>
                  simp only [executeParallel, Lists.getElem?_foldl_set, List.getElem?_map, hentry,
                    Option.map_some, runAt]
                  by_cases hfills : place ∈ completed
                  · rw [if_pos hfills, if_pos (show Fills (.parallel completed) place from hfills)]
                  · rw [if_neg hfills, if_neg (show ¬Fills (.parallel completed) place from hfills)]
                    rfl
      · cases hresults

theorem execute_congr {mode : ExecutionMode}
    (hpackages : mount'.scenarioPackages = mount.scenarioPackages)
    (hguard : (env.entries scenarios').all (passesGuard mount') =
      (env.entries scenarios).all (passesGuard mount))
    (hsame : List.Forall₂ SameIfValid scenarios scenarios') :
    env.execute mount' mode scenarios' = env.execute mount mode scenarios := by
  rw [execute_eq, execute_eq, hguard, hpackages]
  have hruns : scenarios'.mapIdx (runAt env mount.scenarioPackages mode) =
      scenarios.mapIdx (runAt env mount.scenarioPackages mode) := by
    apply List.ext_getElem?
    intro place
    rw [List.getElem?_mapIdx, List.getElem?_mapIdx]
    cases hscenario : scenarios[place]? with
    | none =>
        have hlength := hsame.length_eq
        rw [List.getElem?_eq_none_iff] at hscenario
        rw [List.getElem?_eq_none_iff.mpr (hlength ▸ hscenario)]
    | some scenario =>
        obtain ⟨scenario', hplace, hscenarios⟩ := Pointwise.of_getElem? hsame hscenario
        rw [hplace, Option.map_some, Option.map_some, runAt_congr hscenarios]
  rw [hruns]

end Execution

section Built

variable {Series : Type} {env : Environment Series} {combo : Combination}
  {base : List ConfiguredScenario} {scenario built : ConfiguredScenario}

/-- What building the mount makes of a scenario of the base. -/
structure Built (env : Environment Series) (base : List ConfiguredScenario)
    (scenario built : ConfiguredScenario) : Prop extends Follows scenario built where
  configured : built.isValid = true →
    env.configured (env.validateScenarioParameters base) (excludeUnless
      (fun scenario => parametersValid env.schemas scenario.strategyConfig) scenario) = true
  currency : built.isValid = true → built.accountCurrency = env.accountCurrency scenario
  available : built.isValid = true → onBounded
    (fun single => env.availability { single with workers := [] }) (env.listed scenario) = true

theorem built_buildMount (env : Environment Series) (hplaces : InPlace base) :
    List.Forall₂ (Built env base) base (env.buildMount base).2 := by
  have hplaces' := inPlace_validated env hplaces
  have hprepared := prepared_prepareMount env {} hplaces'
  have hsettled := prepareMount_settled env {} hplaces'
  unfold Environment.prepareScenarios at hsettled
  rw [List.forall₂_map_left_iff] at hsettled
  have hboth := Pointwise.and hprepared hsettled
  unfold Environment.validateScenarioParameters at hboth
  rw [List.forall₂_map_left_iff] at hboth
  refine hboth.imp fun scenario built h => ?_
  obtain ⟨hprepared, hsettled⟩ := h
  refine ⟨(follows_excludeUnless _ scenario).trans hprepared.toFollows, hprepared.configured, ?_, ?_⟩
  · intro hvalid
    have hcurrency := hsettled.currency
    rw [if_pos (hprepared.configured hvalid)] at hcurrency
    exact hcurrency
  · intro hvalid
    have havailable := hsettled.available hvalid
    rw [if_pos (hprepared.configured hvalid)] at havailable
    exact havailable

/-- The combination keeps a scenario: its parameters are valid, and its requirements collected. -/
def Keeps (env : Environment Series) (combo : Combination) (scenario : ConfiguredScenario) : Prop :=
  parametersValid env.schemas (overridden combo scenario.strategyConfig) = true ∧
    env.collection scenario.dataBrokerType (overridden combo scenario.strategyConfig) = .added

instance (env : Environment Series) (combo : Combination) (scenario : ConfiguredScenario) :
    Decidable (Keeps env combo scenario) := inferInstanceAs (Decidable (_ ∧ _))

def isAvailable (env : Environment Series) (scenario : ConfiguredScenario) : Bool :=
  onBounded (fun single => env.availability { single with workers := [] }) (env.listed scenario)

def isAdded (env : Environment Series) (scenario : ConfiguredScenario) : Bool :=
  decide (env.collection scenario.dataBrokerType scenario.strategyConfig = .added)

def freshCopy (env : Environment Series) (combo : Combination) (scenario : ConfiguredScenario) :
    ConfiguredScenario :=
  excludeUnless (fun scenario => parametersValid env.schemas scenario.strategyConfig)
    (withOverrides combo scenario)

def freshList (env : Environment Series) (combo : Combination) (base : List ConfiguredScenario) :
    List ConfiguredScenario :=
  env.validateScenarioParameters (applyOverrides combo base)

def copiedList (env : Environment Series) (combo : Combination) (base : List ConfiguredScenario) :
    List ConfiguredScenario :=
  env.validateScenarioParameters (applyOverrides combo (env.buildMount base).2)

/-- With the combination, a scenario passes phase 0, and its data is available. -/
def Passes (env : Environment Series) (combo : Combination) (base : List ConfiguredScenario)
    (scenario : ConfiguredScenario) : Prop :=
  env.configured (freshList env combo base) (freshCopy env combo scenario) = true ∧
    isAvailable env scenario = true

instance (env : Environment Series) (combo : Combination) (base : List ConfiguredScenario)
    (scenario : ConfiguredScenario) : Decidable (Passes env combo base scenario) :=
  inferInstanceAs (Decidable (_ ∧ _))

/-- Of the scenarios that the combination keeps, building the mount leaves those valid that pass
with the combination, and leaves them their starts. -/
def LeftAlone (env : Environment Series) (combo : Combination) (base : List ConfiguredScenario)
    (scenario built : ConfiguredScenario) : Prop :=
  Keeps env combo scenario →
    (built.isValid = true ↔ Passes env combo base scenario) ∧
      (built.isValid = true → built.startDate = scenario.startDate)

instance (env : Environment Series) (combo : Combination) (base : List ConfiguredScenario)
    (scenario built : ConfiguredScenario) : Decidable (LeftAlone env combo base scenario built) :=
  inferInstanceAs (Decidable (_ → _ ∧ _))

theorem freshList_eq (env : Environment Series) (combo : Combination)
    (scenarios : List ConfiguredScenario) :
    freshList env combo scenarios = scenarios.map (freshCopy env combo) := by
  unfold freshList Environment.validateScenarioParameters applyOverrides
  rw [List.map_map]
  rfl

theorem copiedList_eq (env : Environment Series) (combo : Combination)
    (base : List ConfiguredScenario) :
    copiedList env combo base = (env.buildMount base).2.map (freshCopy env combo) :=
  freshList_eq env combo _

theorem follows_freshCopy (h : Follows scenario built) :
    Follows (withOverrides combo scenario) (freshCopy env combo built) := by
  refine ⟨fun hvalid => h.valid (Bool.and_eq_true_iff.mp hvalid).1, ?_⟩
  obtain ⟨startDate, accountCurrency, _, rfl⟩ := h.same
  exact ⟨startDate, accountCurrency, _, rfl⟩

theorem follows_copied (hplaces : InPlace base) :
    List.Forall₂ Follows (applyOverrides combo base) (copiedList env combo base) := by
  rw [copiedList_eq, applyOverrides, List.forall₂_map_left_iff, List.forall₂_map_right_iff]
  exact (built_buildMount env hplaces).imp fun _ _ h => follows_freshCopy h.toFollows

theorem prepareScenarios_copied (hplaces : InPlace base) (check : ConfiguredScenario → Bool) :
    env.prepareScenarios ((copiedList env combo base).map (excludeUnless check)) =
      (copiedList env combo base).map (excludeUnless check) := by
  have hbuilt := built_buildMount env hplaces
  have hvalidated : applyOverrides combo (env.validateScenarioParameters base) =
      base.map fun scenario => withOverrides combo (excludeUnless
        (fun scenario => parametersValid env.schemas scenario.strategyConfig) scenario) := by
    unfold Environment.validateScenarioParameters applyOverrides
    rw [List.map_map]
    rfl
  have hprepared : List.Forall₂
      (Prepared env (applyOverrides combo (env.validateScenarioParameters base)))
      (applyOverrides combo (env.validateScenarioParameters base))
      ((copiedList env combo base).map (excludeUnless check)) := by
    -- the list that phase 0 has seen stays as it is, and its scenarios are taken one by one
    generalize hlist : applyOverrides combo (env.validateScenarioParameters base) = list
    conv => arg 2; rw [← hlist, hvalidated]
    rw [copiedList_eq, List.map_map, List.forall₂_map_left_iff, List.forall₂_map_right_iff]
    refine hbuilt.imp fun scenario built h => ?_
    have hkept (hvalid : (excludeUnless check (freshCopy env combo built)).isValid = true) :
        built.isValid = true :=
      (Bool.and_eq_true_iff.mp (Bool.and_eq_true_iff.mp hvalid).1).1
    refine ⟨⟨fun hvalid => configured_valid (h.configured (hkept hvalid)), ?_⟩, fun hvalid => ?_⟩
    · obtain ⟨startDate, accountCurrency, _, rfl⟩ := h.same
      exact ⟨startDate, accountCurrency, _, rfl⟩
    · rw [← hlist, configured_applyOverrides]
      exact h.configured (hkept hvalid)
  refine prepareScenarios_eq_self hprepared fun copy hcopy hvalid => ?_
  rw [copiedList_eq, List.map_map] at hcopy
  obtain ⟨built, hmem, rfl⟩ := List.mem_map.mp hcopy
  obtain ⟨before, -, h⟩ := Pointwise.exists_left hbuilt hmem
  have hcurrency := h.currency (Bool.and_eq_true_iff.mp (Bool.and_eq_true_iff.mp hvalid).1).1
  obtain ⟨startDate, accountCurrency, isValid, rfl⟩ := h.same
  have hset : accountCurrency = env.accountCurrency before := hcurrency
  subst hset
  exact accountCurrency_idem before startDate isValid

theorem prepareScenarios_copiedList (hplaces : InPlace base) :
    env.prepareScenarios (copiedList env combo base) = copiedList env combo base := by
  have hall := @prepareScenarios_copied _ env combo _ hplaces fun _ => true
  rwa [exclude_eq_self fun _ _ _ => rfl] at hall

theorem isAvailable_freshCopy (env : Environment Series) (combo : Combination)
    (scenario : ConfiguredScenario) (accountCurrency : String) (isValid : Bool) :
    isAvailable env { freshCopy env combo scenario with
      accountCurrency := accountCurrency, isValid := isValid } = isAvailable env scenario := by
  unfold isAvailable
  by_cases h : scenario.maxTicks.any (0 < ·) = true ∨ scenario.endDate.isSome = true
  · rw [show env.listed { freshCopy env combo scenario with
        accountCurrency := accountCurrency, isValid := isValid } = _ from dif_pos h,
      show env.listed scenario = _ from dif_pos h]
    rfl
  · rw [show env.listed { freshCopy env combo scenario with
        accountCurrency := accountCurrency, isValid := isValid } = _ from dif_neg h,
      show env.listed scenario = _ from dif_neg h]
    rfl

def preparedCopy (env : Environment Series) (combo : Combination) (base : List ConfiguredScenario)
    (scenario : ConfiguredScenario) : ConfiguredScenario :=
  if env.configured (freshList env combo base) (freshCopy env combo scenario) then
    { freshCopy env combo scenario with
      accountCurrency := env.accountCurrency (freshCopy env combo scenario) }
  else { freshCopy env combo scenario with isValid := false }

theorem prepareScenarios_fresh (env : Environment Series) (combo : Combination)
    (base : List ConfiguredScenario) :
    env.prepareScenarios (freshList env combo base) = base.map (preparedCopy env combo base) := by
  unfold Environment.prepareScenarios
  generalize hlist : freshList env combo base = list
  conv => lhs; arg 2; rw [← hlist, freshList_eq]
  rw [List.map_map, ← hlist]
  rfl

theorem prepared_valid_iff : (excludeUnless (fun copy => isAvailable env copy && isAdded env copy)
    (preparedCopy env combo base scenario)).isValid = true ↔
      Keeps env combo scenario ∧ Passes env combo base scenario := by
  unfold preparedCopy
  split
  · next hconfigured =>
      have hfresh := configured_valid hconfigured
      have havailable := isAvailable_freshCopy env combo scenario
        (env.accountCurrency (freshCopy env combo scenario)) (freshCopy env combo scenario).isValid
      have hparameters : parametersValid env.schemas (overridden combo scenario.strategyConfig) =
          true := (Bool.and_eq_true_iff.mp hfresh).2
      simp only [excludeUnless, Bool.and_eq_true, Keeps, Passes, hconfigured, hparameters, true_and,
        isAdded, decide_eq_true_eq]
      constructor
      · rintro ⟨-, hdata, hadded⟩
        exact ⟨hadded, havailable.symm.trans hdata⟩
      · rintro ⟨hadded, hdata⟩
        exact ⟨hfresh, havailable.trans hdata, hadded⟩
  · next hconfigured =>
      refine iff_of_false (by simp [excludeUnless]) ?_
      rintro ⟨-, hpasses, -⟩
      exact hconfigured hpasses

theorem copied_valid_iff (h : Follows scenario built) :
    (excludeUnless (isAdded env) (freshCopy env combo built)).isValid = true ↔
      built.isValid = true ∧ Keeps env combo scenario := by
  obtain ⟨_, _, _, heq⟩ := h.same
  have hconfig : built.strategyConfig = scenario.strategyConfig := by rw [heq]
  have hbroker : built.dataBrokerType = scenario.dataBrokerType := by rw [heq]
  rw [Keeps, ← hconfig, ← hbroker, ← and_assoc]
  show ((built.isValid && parametersValid env.schemas (overridden combo built.strategyConfig)) &&
    decide (env.collection built.dataBrokerType (overridden combo built.strategyConfig) = .added)) =
      true ↔ _
  rw [Bool.and_eq_true, Bool.and_eq_true, decide_eq_true_eq]

theorem eq_of_valid {copy copy' : ConfiguredScenario} (hcopy : copy.isValid = true)
    (hcopy' : copy'.isValid = true)
    (heq : { copy with isValid := true } = { copy' with isValid := true }) : copy = copy' := by
  cases copy
  cases copy'
  cases hcopy
  cases hcopy'
  exact heq

/-- The kept copies are what phase 0 makes of the base with the combination, as far as its data is
available and collected. -/
theorem fresh_sameIfValid (hplaces : InPlace base)
    (hleft : List.Forall₂ (LeftAlone env combo base) base (env.buildMount base).2) :
    List.Forall₂ SameIfValid
      ((env.prepareScenarios (freshList env combo base)).map
        (excludeUnless fun copy => isAvailable env copy && isAdded env copy))
      (env.collected (copiedList env combo base)) := by
  rw [prepareScenarios_fresh, copiedList_eq, Environment.collected, List.map_map, List.map_map,
    List.forall₂_map_left_iff, List.forall₂_map_right_iff]
  refine (Pointwise.and (built_buildMount env hplaces) hleft).imp fun scenario built h => ?_
  obtain ⟨hbuilt, halone⟩ := h
  have hprepared := @prepared_valid_iff _ env combo base scenario
  have hcopied := @copied_valid_iff _ env combo _ _ hbuilt.toFollows
  refine ⟨?_, fun hvalid => ?_⟩
  · refine Bool.eq_iff_iff.mpr (hcopied.trans (Iff.trans ?_ hprepared.symm))
    rw [and_comm]
    exact and_congr_right fun hkeeps => (halone hkeeps).1
  · obtain ⟨hkeeps, hpasses⟩ := hprepared.mp hvalid
    obtain ⟨hpassed, hunmoved⟩ := halone hkeeps
    have hvalidBuilt := hpassed.mpr hpasses
    have hcopy := hcopied.mpr ⟨hvalidBuilt, hkeeps⟩
    have hcurrency := hbuilt.currency hvalidBuilt
    have hstart := hunmoved hvalidBuilt
    obtain ⟨startDate, accountCurrency, isValid, rfl⟩ := hbuilt.same
    have hset : accountCurrency = env.accountCurrency scenario := hcurrency
    have hmoved : startDate = scenario.startDate := hstart
    subst hset hmoved
    have hwhole : preparedCopy env combo base scenario = { freshCopy env combo scenario with
        accountCurrency := env.accountCurrency (freshCopy env combo scenario) } :=
      if_pos hpasses.1
    refine eq_of_valid hcopy hvalid ?_
    simp only [Function.comp_apply, hwhole]
    rfl

end Built

section Reloaded

variable {Series : Type} {env : Environment Series} {combo : Combination}
  {base scenarios : List ConfiguredScenario} {scenario : ConfiguredScenario}
  {single : SingleScenario}

theorem valid?_excludeUnless (check : ConfiguredScenario → Bool) (scenario : ConfiguredScenario) :
    (env.entry (excludeUnless check scenario)).valid? =
      if check scenario then (env.entry scenario).valid? else none := by
  obtain ⟨hlisted, hvalid⟩ : (env.entry (excludeUnless check scenario)).scenario =
      (env.entry scenario).scenario ∧ (env.entry (excludeUnless check scenario)).isValid =
        ((env.entry scenario).isValid && check scenario) := ⟨rfl, rfl⟩
  unfold BatchScenario.valid?
  rw [hlisted, hvalid]
  cases check scenario with
  | true => rw [Bool.and_true, if_pos rfl]
  | false => rw [Bool.and_false]; rfl

theorem map_valid?_excludeUnless {check : ConfiguredScenario → Bool}
    {check' : SingleScenario → Bool}
    (h : ∀ scenario ∈ scenarios, ∀ single, env.listed scenario = .bounded single →
      check scenario = check' single) :
    (env.entries (scenarios.map (excludeUnless check))).map BatchScenario.valid? =
      ((env.entries scenarios).map BatchScenario.valid?).map (Option.filter check') := by
  unfold Environment.entries
  rw [List.map_map, List.map_map, List.map_map, List.map_map]
  refine List.map_congr_left fun scenario hscenario => ?_
  simp only [Function.comp_apply]
  rw [valid?_excludeUnless]
  cases hentry : (env.entry scenario).valid? with
  | none => simp
  | some single =>
      have hbounded := (BatchScenario.valid?_eq_some.mp hentry).2
      rw [h scenario hscenario single hbounded, Option.filter_some]

theorem isAdded_eq (hplaces : InPlace scenarios) (hscenario : scenario ∈ scenarios)
    (hbounded : env.listed scenario = .bounded single) :
    isAdded env scenario = added (env.collectionOf scenarios) single := by
  have hindex : single.scenarioIndex = scenario.scenarioIndex := by
    rw [← @listed_scenarioIndex _ env, hbounded]
    rfl
  rw [isAdded, added, collectionOf_eq hplaces hscenario hindex]

theorem isAvailable_eq (hbounded : env.listed scenario = .bounded single) :
    isAvailable env scenario = env.availability { single with workers := [] } := by
  rw [isAvailable, hbounded]
  rfl

theorem inPlace_applyOverrides (combo : Combination) (hplaces : InPlace scenarios) :
    InPlace (applyOverrides combo scenarios) := by
  rw [InPlace, applyOverrides, List.map_map, List.length_map]
  exact hplaces

theorem follows_fresh (env : Environment Series) (combo : Combination)
    (base : List ConfiguredScenario) :
    List.Forall₂ Follows (applyOverrides combo base)
      (env.prepareScenarios (freshList env combo base)) :=
  follows_trans (follows_map (follows_excludeUnless _) _) (follows_prepareScenarios env _)

theorem inPlace_fresh (env : Environment Series) (combo : Combination) (hplaces : InPlace base) :
    InPlace (env.prepareScenarios (freshList env combo base)) :=
  (inPlace_applyOverrides combo hplaces).follows (follows_fresh env combo base)

theorem inPlace_copied (hplaces : InPlace base) : InPlace (copiedList env combo base) :=
  (inPlace_applyOverrides combo hplaces).follows (follows_copied hplaces)

theorem collectionOf_fresh (hplaces : InPlace base) :
    env.collectionOf (env.prepareScenarios (freshList env combo base)) =
      env.collectionOf (copiedList env combo base) :=
  (collectionOf_follows (follows_fresh env combo base)).symm.trans
    (collectionOf_follows (follows_copied hplaces))

theorem collectionOf_collected (env : Environment Series) (scenarios : List ConfiguredScenario) :
    env.collectionOf (env.collected scenarios) = env.collectionOf scenarios :=
  (collectionOf_follows (follows_map (follows_excludeUnless _) scenarios)).symm

theorem exists_of_follows {list : List ConfiguredScenario}
    (h : List.Forall₂ (fun scenario copy => Follows (withOverrides combo scenario) copy ∧
      (copy.isValid = true → parametersValid env.schemas copy.strategyConfig = true)) base list)
    (hplaces : InPlace list) (hsingle : single ∈ validScenarios (env.entries list)) :
    ∃ scenario ∈ base,
      parametersValid env.schemas (overridden combo scenario.strategyConfig) = true ∧
      env.collectionOf list single =
        env.collection scenario.dataBrokerType (overridden combo scenario.strategyConfig) := by
  obtain ⟨entry, hentry, hvalid⟩ := mem_validScenarios.mp hsingle
  obtain ⟨copy, hcopy, rfl⟩ := List.mem_map.mp hentry
  obtain ⟨hkept, hbounded⟩ := BatchScenario.valid?_eq_some.mp hvalid
  obtain ⟨scenario, hscenario, hfollows, hparameters⟩ := Pointwise.exists_left h hcopy
  have hcollection : env.collectionOf list single =
      env.collection copy.dataBrokerType copy.strategyConfig := by
    apply collectionOf_eq hplaces hcopy
    rw [← @listed_scenarioIndex _ env, show env.listed copy = .bounded single from hbounded]
    rfl
  have hown := hparameters hkept
  obtain ⟨_, _, _, heq⟩ := hfollows.same
  have hconfig : copy.strategyConfig = overridden combo scenario.strategyConfig := by rw [heq]; rfl
  have hbroker : copy.dataBrokerType = scenario.dataBrokerType := by rw [heq]; rfl
  rw [hconfig] at hown
  rw [hconfig, hbroker] at hcollection
  exact ⟨scenario, hscenario, hown, hcollection⟩

/-- With a combination, no scenario of the base has its requirements collected in part. -/
def WholeCollections (env : Environment Series) (combo : Combination)
    (base : List ConfiguredScenario) : Prop :=
  ∀ scenario ∈ base,
    parametersValid env.schemas (overridden combo scenario.strategyConfig) = true →
      ∀ workers, env.collection scenario.dataBrokerType (overridden combo scenario.strategyConfig) ≠
        .raised workers

theorem whole_copied (hplaces : InPlace base) (hwhole : WholeCollections env combo base) :
    CollectsWhole (env.collectionOf (copiedList env combo base))
      (validScenarios (env.entries (copiedList env combo base))) := by
  have hcopies : List.Forall₂ (fun scenario copy => Follows (withOverrides combo scenario) copy ∧
      (copy.isValid = true → parametersValid env.schemas copy.strategyConfig = true)) base
        (copiedList env combo base) := by
    rw [copiedList_eq, List.forall₂_map_right_iff]
    exact (built_buildMount env hplaces).imp fun _ _ h =>
      ⟨follows_freshCopy h.toFollows, fun hvalid => (Bool.and_eq_true_iff.mp hvalid).2⟩
  intro single hsingle workers
  obtain ⟨scenario, hscenario, hparameters, hcollection⟩ :=
    exists_of_follows hcopies (inPlace_copied hplaces) hsingle
  rw [hcollection]
  exact hwhole scenario hscenario hparameters workers

theorem whole_fresh (hplaces : InPlace base) (hwhole : WholeCollections env combo base) :
    CollectsWhole (env.collectionOf (env.prepareScenarios (freshList env combo base)))
      (validScenarios (env.entries (env.prepareScenarios (freshList env combo base)))) := by
  have hcopies : List.Forall₂ (fun scenario copy => Follows (withOverrides combo scenario) copy ∧
      (copy.isValid = true → parametersValid env.schemas copy.strategyConfig = true)) base
        (env.prepareScenarios (freshList env combo base)) := by
    rw [prepareScenarios_fresh, List.forall₂_map_right_iff]
    refine List.forall₂_same.mpr fun scenario _ => ?_
    unfold preparedCopy
    split
    · next hconfigured =>
        exact ⟨⟨fun hvalid => (Bool.and_eq_true_iff.mp hvalid).1, _, _, _, rfl⟩,
          fun hvalid => (Bool.and_eq_true_iff.mp hvalid).2⟩
    · refine ⟨⟨?_, _, _, _, rfl⟩, ?_⟩
      · rintro ⟨⟩
      · rintro ⟨⟩
  intro single hsingle workers
  obtain ⟨scenario, hscenario, hparameters, hcollection⟩ :=
    exists_of_follows hcopies (inPlace_fresh env combo hplaces) hsingle
  rw [hcollection]
  exact hwhole scenario hscenario hparameters workers

theorem valid_collected (hplaces : InPlace scenarios) :
    validScenarios (env.entries (env.collected scenarios)) =
      (validScenarios (env.entries scenarios)).filter (added (env.collectionOf scenarios)) :=
  validScenarios_filter
    (map_valid?_excludeUnless fun _ hscenario _ hbounded => isAdded_eq hplaces hscenario hbounded)

theorem reload_copied (hplaces : InPlace base)
    (hleft : List.Forall₂ (LeftAlone env combo base) base (env.buildMount base).2)
    (hwhole : WholeCollections env combo base) :
    Reload (env.workspace (env.prepareScenarios (freshList env combo base)))
      (env.entries (env.prepareScenarios (freshList env combo base)))
      (env.entries (env.collected (copiedList env combo base))) := by
  refine ⟨nodup_prepared_names env _, fun _ => rfl, fun single hsingle => ?_, ?_⟩
  · exact whole_fresh hplaces hwhole single (List.mem_of_mem_filter hsingle)
  · have hplaces' := inPlace_fresh env combo hplaces
    have hchecks : ∀ copy ∈ env.prepareScenarios (freshList env combo base), ∀ single,
        env.listed copy = .bounded single → (isAvailable env copy && isAdded env copy) =
          (env.availability { single with workers := [] } &&
            added (env.collectionOf (env.prepareScenarios (freshList env combo base))) single) := by
      intro copy hcopy single hbounded
      rw [isAvailable_eq hbounded, isAdded_eq hplaces' hcopy hbounded]
    rw [map_valid?_entries (fresh_sameIfValid hplaces hleft), List.map_map,
      map_valid?_excludeUnless hchecks]
    refine List.map_congr_left fun valid _ => ?_
    rw [Function.comp_apply, Option.filter_filter]
    rfl

/-- What the comparison with the mount has collected is what the load of the base with the
combination collects. -/
theorem held_copied (hplaces : InPlace base)
    (hleft : List.Forall₂ (LeftAlone env combo base) base (env.buildMount base).2)
    (hwhole : WholeCollections env combo base) :
    collectAndValidate (env.collectionOf (copiedList env combo base)) {}
        (validScenarios (env.entries (copiedList env combo base))) =
      heldBy (env.workspace (env.prepareScenarios (freshList env combo base)))
        (env.entries (env.prepareScenarios (freshList env combo base))) := by
  have hreload := reload_copied hplaces hleft hwhole
  have hadded := hreload.valid_reloaded
  rw [valid_collected (inPlace_copied hplaces)] at hadded
  rw [heldBy, collectAndValidate_whole hreload.whole,
    collectAndValidate_whole (whole_copied hplaces hwhole), hadded]

theorem excludeUnless_of_valid {check : ConfiguredScenario → Bool}
    (h : (excludeUnless check scenario).isValid = true) : excludeUnless check scenario = scenario := by
  have hvalid : (scenario.isValid && check scenario) = scenario.isValid :=
    Eq.trans h (Bool.and_eq_true_iff.mp h).1.symm
  show { scenario with isValid := scenario.isValid && check scenario } = scenario
  rw [hvalid]

theorem isBounded_of_prepared {prepared : ConfiguredScenario}
    (hprepared : prepared ∈ env.prepareScenarios scenarios) (hvalid : prepared.isValid = true) :
    ∃ single, env.listed prepared = .bounded single := by
  obtain ⟨before, -, hphase⟩ :=
    Pointwise.exists_left (prepared_prepareScenarios env scenarios) hprepared
  have hbounded := configured_bounded (hphase.configured hvalid)
  obtain ⟨_, _, _, heq⟩ := hphase.same
  have hsame : prepared.isBounded = before.isBounded := by rw [heq]; rfl
  obtain ⟨single, hlisted, -⟩ := exists_listed_of_bounded env (hsame.trans hbounded)
  exact ⟨single, hlisted⟩

/-- Two checks that leave the same valid settle a scenario and its kept copy alike. -/
theorem settle_sameIfValid {workspace workspace' : Workspace Series}
    {prepared copy : ConfiguredScenario} {checked checked' : BatchScenario}
    {check : ConfiguredScenario → Bool} (h : SameIfValid (excludeUnless check prepared) copy)
    (hbounded : prepared.isValid = true → ∃ single, env.listed prepared = .bounded single)
    (hchecked : Checked workspace (env.entry prepared) checked)
    (hchecked' : Checked workspace' (env.entry copy) checked')
    (hvalid? : checked'.valid? = checked.valid?) :
    SameIfValid (settle prepared checked) (settle copy checked') := by
  have hsome {scenario : ConfiguredScenario} {checked : BatchScenario}
      {workspace : Workspace Series} (h : Checked workspace (env.entry scenario) checked)
      (hlisted : ∃ single, env.listed scenario = .bounded single) (hvalid : checked.isValid = true) :
      ∃ single, checked.valid? = some single := by
    obtain ⟨startDate, hmoved⟩ := h.moved
    obtain ⟨single, hsingle⟩ := hlisted
    rw [show (env.entry scenario).scenario = .bounded single from hsingle] at hmoved
    exact ⟨_, BatchScenario.valid?_eq_some.mpr ⟨hvalid, hmoved⟩⟩
  -- where either is valid, the copy is the prepared scenario and they are checked alike
  have hboth (hkept : checked.isValid = true ∨ checked'.isValid = true) :
      copy = prepared ∧ checked' = checked := by
    have hprepared : (excludeUnless check prepared).isValid = true ∧
        ∃ single, checked.valid? = some single := by
      rcases hkept with hkept | hkept
      · obtain ⟨single, hsingle⟩ := hsome hchecked (hbounded (hchecked.valid hkept)) hkept
        rw [hsingle] at hvalid?
        have hcopy := hchecked'.valid (BatchScenario.valid?_eq_some.mp hvalid?).1
        exact ⟨h.valid.symm.trans hcopy, single, hsingle⟩
      · have hcopy : (excludeUnless check prepared).isValid = true :=
          h.valid.symm.trans (hchecked'.valid hkept)
        have hlisted := hbounded (Bool.and_eq_true_iff.mp hcopy).1
        rw [← excludeUnless_of_valid hcopy, ← h.same hcopy] at hlisted
        obtain ⟨single, hsingle⟩ := hsome hchecked' hlisted hkept
        exact ⟨hcopy, single, hvalid?.symm.trans hsingle⟩
    obtain ⟨hcopy, single, hsingle⟩ := hprepared
    obtain ⟨hvalid, hscenario⟩ := BatchScenario.valid?_eq_some.mp hsingle
    obtain ⟨hvalid', hscenario'⟩ := BatchScenario.valid?_eq_some.mp (hvalid?.trans hsingle)
    refine ⟨(h.same hcopy).trans (excludeUnless_of_valid hcopy), ?_⟩
    cases checked
    cases checked'
    rw [BatchScenario.mk.injEq]
    exact ⟨hscenario'.trans hscenario.symm, hvalid'.trans hvalid.symm⟩
  refine ⟨Bool.eq_iff_iff.mpr ⟨fun hkept => ?_, fun hkept => ?_⟩, fun hkept => ?_⟩
  · obtain ⟨hsame, hcheck⟩ := hboth (.inr hkept)
    rw [hcheck] at hkept
    exact hkept
  · obtain ⟨hsame, hcheck⟩ := hboth (.inl hkept)
    show checked'.isValid = true
    rw [hcheck]
    exact hkept
  · obtain ⟨hsame, hcheck⟩ := hboth (.inl hkept)
    rw [hsame, hcheck]

theorem prepareMount_eq (env : Environment Series) (held : RequirementsMap)
    (scenarios : List ConfiguredScenario) :
    env.prepareMount held scenarios =
      ((Mounts.prepareMount (env.workspace (env.prepareScenarios scenarios)) held
          (env.entries (env.prepareScenarios scenarios))).1,
        List.zipWith settle (env.prepareScenarios scenarios)
          (Mounts.prepareMount (env.workspace (env.prepareScenarios scenarios)) held
            (env.entries (env.prepareScenarios scenarios))).2) := rfl

/-- A combination that the mount is rejected for runs what it runs on a fresh load, if building the
mount has left alone what passes with the combination. -/
theorem sameRuns_of_reloaded (hplaces : InPlace base)
    (hleft : List.Forall₂ (LeftAlone env combo base) base (env.buildMount base).2)
    (hwhole : WholeCollections env combo base)
    (hmount : (env.buildMount base).1.scenarioPackages.isEmpty = false)
    (hrejected : matchesMount (env.collectionOf (copiedList env combo base)) (env.buildMount base).1
      (validScenarios (env.entries (copiedList env combo base))) = false) (mode : ExecutionMode) :
    env.warmRun mode base combo = env.coldRun mode base combo := by
  have hplaces' := inPlace_fresh env combo hplaces
  have hreload := reload_copied hplaces hleft hwhole
  have hcollected : env.prepareScenarios (env.collected (copiedList env combo base)) =
      env.collected (copiedList env combo base) := prepareScenarios_copied hplaces _
  have hworkspace : env.workspace (env.collected (copiedList env combo base)) =
      env.workspace (env.prepareScenarios (freshList env combo base)) := by
    unfold Environment.workspace
    rw [collectionOf_collected, collectionOf_fresh hplaces]
  have hwarm : env.warmRun mode base combo =
      env.execute (env.prepareMount (heldBy (env.workspace (env.prepareScenarios
          (freshList env combo base))) (env.entries (env.prepareScenarios
            (freshList env combo base)))) (env.collected (copiedList env combo base))).1 mode
        (env.prepareMount (heldBy (env.workspace (env.prepareScenarios
          (freshList env combo base))) (env.entries (env.prepareScenarios
            (freshList env combo base)))) (env.collected (copiedList env combo base))).2 := by
    rw [← held_copied hplaces hleft hwhole]
    unfold Environment.warmRun
    dsimp only
    rw [if_neg (by rw [hmount]; exact Bool.false_ne_true)]
    unfold Environment.run
    dsimp only
    rw [← copiedList, prepareScenarios_copiedList hplaces,
      if_neg (by rw [hrejected]; exact Bool.false_ne_true)]
  have hcold : env.coldRun mode base combo =
      env.execute (env.prepareMount {} (freshList env combo base)).1 mode
        (env.prepareMount {} (freshList env combo base)).2 := rfl
  rw [hwarm, hcold]
  have hchecked := checked_entries env {} (env.prepareScenarios (freshList env combo base))
  have hchecked' := checked_entries env (heldBy (env.workspace (env.prepareScenarios
    (freshList env combo base))) (env.entries (env.prepareScenarios (freshList env combo base))))
      (env.collected (copiedList env combo base))
  refine execute_congr ?_ ?_ ?_
  · rw [prepareMount_eq, prepareMount_eq, hcollected, hworkspace]
    exact hreload.packages
  · rw [entries_prepareMount, entries_prepareMount, prepareMount_eq, prepareMount_eq, hcollected,
      hworkspace]
    exact hreload.guard ((numbered_entries env _).mpr hplaces') ((numbered_entries env _).mpr
      ((inPlace_copied hplaces).follows (follows_map (follows_excludeUnless _) _)))
  · have hsame := fresh_sameIfValid hplaces hleft
    have hbounded := (List.forall₂_and_left _ _).mpr
      ⟨fun _ hprepared => hprepared, List.forall₂_map_left_iff.mp hsame⟩
    have hvalid? := Pointwise.of_map_eq hreload.checked.symm
    rw [hworkspace] at hchecked'
    rw [prepareMount_eq, prepareMount_eq, hcollected, hworkspace]
    refine Pointwise.zipWith ?_ hbounded hchecked hchecked' hvalid?
    intro prepared copy checked checked' h hcheck hcheck' hvalid
    exact settle_sameIfValid h.2 (isBounded_of_prepared h.1) hcheck hcheck' hvalid.symm

end Reloaded

section Rejected

variable {Series : Type} {env : Environment Series} {combo : Combination}
  {base : List ConfiguredScenario} {scenario built : ConfiguredScenario} {single : SingleScenario}

def warmups (env : Environment Series) (scenario : ConfiguredScenario) : List (String × ℕ) :=
  match env.listed scenario with
  | .bounded single => (ownIdentity single).warmupBars
  | .unbounded _ _ => []

theorem warmups_of_follows {scenario' : ConfiguredScenario} (h : Follows scenario scenario') :
    warmups env scenario' = warmups env scenario := by
  obtain ⟨startDate, accountCurrency, isValid, rfl⟩ := h.same
  unfold warmups
  rw [listed_moved env scenario startDate accountCurrency isValid]
  cases env.listed scenario with
  | unbounded name scenarioIndex => rfl
  | bounded single =>
      have hbars := warmupBars_moved single startDate
      simp only [startingAt, ownIdentity, DataIdentityKey.fromScenario,
        IdentitySoundness.filter_own_name]
      rw [← hbars]
      exact congrArg (fun requirements : List BarRequirement =>
        (requirements.map fun r => (timeframeName r.timeframe, r.warmupCount)).insertionSort pairLe)
          (IdentitySoundness.filter_own_name { single with startDate := startDate })

theorem mem_valid_built (hbuilt : built ∈ (env.buildMount base).2) (hvalid : built.isValid = true)
    (hbounded : env.listed built = .bounded single) :
    single ∈ validScenarios (Mounts.prepareMount
      (env.workspace (env.prepareScenarios (env.validateScenarioParameters base))) {}
        (env.entries (env.prepareScenarios (env.validateScenarioParameters base)))).2 := by
  rw [← entries_prepareMount]
  exact mem_validScenarios.mpr ⟨env.entry built, List.mem_map_of_mem hbuilt,
    BatchScenario.valid?_eq_some.mpr ⟨hvalid, hbounded⟩⟩

theorem numbered_validated (hplaces : InPlace base) :
    Numbered (env.entries (env.prepareScenarios (env.validateScenarioParameters base))) :=
  (numbered_entries env _).mpr
    ((inPlace_validated env hplaces).follows (follows_prepareScenarios env _))

theorem identity_built (hplaces : InPlace base) (hbuilt : built ∈ (env.buildMount base).2)
    (hvalid : built.isValid = true) (hbounded : env.listed built = .bounded single) :
    (env.buildMount base).1.dataIdentity.get? single.scenarioIndex = some (ownIdentity single) :=
  identity_prepareMount (numbered_validated hplaces) (nodup_prepared_names env _)
    (mem_valid_built hbuilt hvalid hbounded)

theorem packaged_built (hplaces : InPlace base) (hbuilt : built ∈ (env.buildMount base).2)
    (hvalid : built.isValid = true) (hbounded : env.listed built = .bounded single) :
    ((env.buildMount base).1.scenarioPackages.get? single.scenarioIndex).isSome = true := by
  obtain ⟨before, hbefore, startDate, hmoved⟩ :=
    exists_unmoved (checkQuality_moves _) (mem_valid_built hbuilt hvalid hbounded)
  have hpackage := package_of_valid (numbered_validated hplaces) hbefore
  rw [hmoved]
  exact hpackage

theorem nonempty_of_package {mount : MountPackage Series} {place : ℕ}
    (h : (mount.scenarioPackages.get? place).isSome = true) :
    mount.scenarioPackages.isEmpty = false := by
  obtain ⟨package, hpackage⟩ := Option.isSome_iff_exists.mp h
  rw [Dict.isEmpty, List.isEmpty_eq_false_iff]
  exact List.ne_nil_of_mem ((Dict.get?_eq_some_iff _).mp hpackage)

theorem nodup_copied_names (hplaces : InPlace base) :
    ((validScenarios (env.entries (copiedList env combo base))).map SingleScenario.name).Nodup := by
  have hnames := nodup_prepared_names env (copiedList env combo base)
  rwa [prepareScenarios_copiedList hplaces] at hnames

/-- A kept scenario has boundaries before and after the combination. -/
theorem listed_copied (hplaces : InPlace base) (hbuilt : built ∈ (env.buildMount base).2)
    (hvalid : (freshCopy env combo built).isValid = true) :
    ∃ single before, env.listed (freshCopy env combo built) = .bounded single ∧
      env.listed built = .bounded before ∧ single.scenarioIndex = before.scenarioIndex := by
  have hcopy : freshCopy env combo built ∈ env.prepareScenarios (copiedList env combo base) := by
    rw [prepareScenarios_copiedList hplaces, copiedList_eq]
    exact List.mem_map_of_mem hbuilt
  obtain ⟨before, -, hphase⟩ :=
    Pointwise.exists_left (prepared_prepareScenarios env (copiedList env combo base)) hcopy
  have hbounded := configured_bounded (hphase.configured hvalid)
  obtain ⟨_, _, _, heq⟩ := hphase.same
  have hsame : (freshCopy env combo built).isBounded = before.isBounded := by rw [heq]; rfl
  obtain ⟨single, hsingle, hindex⟩ := exists_listed_of_bounded env (hsame.trans hbounded)
  have hown : built.isBounded = true := hsame.trans hbounded
  obtain ⟨unset, hunset, hindex'⟩ := exists_listed_of_bounded env hown
  exact ⟨single, unset, hsingle, hunset, hindex.trans hindex'.symm⟩

theorem rejected_of_warmups (hplaces : InPlace base) (hbuilt : built ∈ (env.buildMount base).2)
    (hvalid : built.isValid = true) (hkeeps : Keeps env combo built)
    (hwarmups : warmups env (withOverrides combo built) ≠ warmups env built) :
    (env.buildMount base).1.scenarioPackages.isEmpty = false ∧
      matchesMount (env.collectionOf (copiedList env combo base)) (env.buildMount base).1
        (validScenarios (env.entries (copiedList env combo base))) = false := by
  obtain ⟨hparameters, hadded⟩ := hkeeps
  have hcopyValid : (freshCopy env combo built).isValid = true :=
    Bool.and_eq_true_iff.mpr ⟨hvalid, hparameters⟩
  have hcopy : freshCopy env combo built ∈ copiedList env combo base := by
    rw [copiedList_eq]
    exact List.mem_map_of_mem hbuilt
  obtain ⟨single, before, hsingle, hbefore, hindex⟩ := listed_copied hplaces hbuilt hcopyValid
  refine ⟨nonempty_of_package (packaged_built hplaces hbuilt hvalid hbefore), ?_⟩
  rw [← Bool.not_eq_true]
  intro hmatches
  have hidentity := (matchesMount_iff (nodup_copied_names hplaces)).mp hmatches single
    (mem_validScenarios.mpr ⟨env.entry (freshCopy env combo built), List.mem_map_of_mem hcopy,
      BatchScenario.valid?_eq_some.mpr ⟨hcopyValid, hsingle⟩⟩)
    (by rw [← hadded]
        refine collectionOf_eq (inPlace_copied hplaces) hcopy ?_
        rw [← @listed_scenarioIndex _ env, hsingle]
        rfl)
  rw [hindex, identity_built hplaces hbuilt hvalid hbefore, Option.some.injEq] at hidentity
  apply hwarmups
  have hcopied : warmups env (freshCopy env combo built) = (ownIdentity single).warmupBars := by
    unfold warmups
    rw [hsingle]
  have hown : warmups env built = (ownIdentity before).warmupBars := by
    unfold warmups
    rw [hbefore]
  rw [hown, hidentity, ← hcopied]
  exact (warmups_of_follows (follows_excludeUnless _ _)).symm

end Rejected

end Finiex.SweepReloads
