import Finiex.Lib.Pointwise
import Finiex.SweepRuns

namespace Finiex.SweepPhases

open Finiex.Types
open Finiex.Lib
open Finiex.Preparation
open Finiex.Coverage
open Finiex.Mounts
open Finiex.MountLookups
open Finiex.SweepGrid
open Finiex.SweepRuns

section Checks

variable {Series : Type} {workspace : Workspace Series} {held : RequirementsMap}
  {entries : List BatchScenario}

def startingAt (startDate : Instant) : ListedScenario → ListedScenario
  | .bounded scenario => .bounded { scenario with startDate := startDate }
  | .unbounded name scenarioIndex => .unbounded name scenarioIndex

theorem exists_startingAt (listed : ListedScenario) :
    ∃ startDate, listed = startingAt startDate listed := by
  cases listed with
  | bounded scenario => exact ⟨scenario.startDate, rfl⟩
  | unbounded name scenarioIndex => exact ⟨0, rfl⟩

/-- What preparing a mount makes of an entry: its start may be moved, and it is still valid only
if it was and passes the checks of availability and collection. -/
structure Checked (workspace : Workspace Series) (entry checked : BatchScenario) : Prop where
  moved : ∃ startDate, checked.scenario = startingAt startDate entry.scenario
  valid : checked.isValid = true → entry.isValid = true
  available : checked.isValid = true →
    onBounded workspace.validators.availability entry.scenario = true
  added : checked.isValid = true → onBounded
    (fun scenario => decide (workspace.validators.collection scenario = .added))
      entry.scenario = true

theorem loadBatch_checked (workspace : Workspace Series) (held : RequirementsMap)
    (entries : List BatchScenario) :
    List.Forall₂ (Checked workspace) entries (loadBatch workspace held entries).entries := by
  simp only [loadBatch, marked, List.forall₂_map_right_iff, List.forall₂_same]
  intro entry _
  constructor
  · exact exists_startingAt entry.scenario
  all_goals
    intro hvalid
    simp only [Bool.and_eq_true] at hvalid
  · exact hvalid.1.1.1.1
  · exact hvalid.1.1.2
  · exact hvalid.1.2

theorem validateStartDateNotInGap_moves (scenario : SingleScenario) (report : CoverageReport) :
    ∃ startDate, (ScenarioDataValidator.validateStartDateNotInGap scenario report).1 =
      { scenario with startDate := startDate } := by
  unfold ScenarioDataValidator.validateStartDateNotInGap
  split
  · exact ⟨scenario.startDate, rfl⟩
  · split
    · exact ⟨_, rfl⟩
    · exact ⟨scenario.startDate, rfl⟩

theorem validateSingleScenario_moves (validator : ScenarioDataValidator)
    (scenario : SingleScenario) (package : ProcessDataPackage Series)
    (requirements : RequirementsMap) :
    ∃ startDate, (validator.validateSingleScenario scenario package requirements).1 =
      { scenario with startDate := startDate } := by
  unfold ScenarioDataValidator.validateSingleScenario
  split
  · exact ⟨scenario.startDate, rfl⟩
  · exact validateStartDateNotInGap_moves scenario _

theorem absorb_moves {check : ℕ → SingleScenario → SingleScenario × List ValidationMessage}
    (hmoves : ∀ place scenario, ∃ startDate,
      (check place scenario).1 = { scenario with startDate := startDate })
    (entries : List BatchScenario) :
    List.Forall₂ (fun entry checked =>
        (∃ startDate, checked.scenario = startingAt startDate entry.scenario) ∧
          (checked.isValid = true → entry.isValid = true))
      entries (absorb entries ((validScenarios entries).mapIdx check)) := by
  induction entries generalizing check with
  | nil => exact .nil
  | cons entry entries ih =>
      rw [validScenarios]
      cases hvalid : entry.valid? with
      | none =>
          rw [List.filterMap_cons_none hvalid]
          simp only [absorb, hvalid]
          exact .cons ⟨exists_startingAt entry.scenario, id⟩ (ih hmoves)
      | some scenario =>
          rw [List.filterMap_cons_some hvalid, List.mapIdx_cons]
          simp only [absorb, hvalid]
          obtain ⟨hentry, hbounded⟩ := BatchScenario.valid?_eq_some.mp hvalid
          obtain ⟨startDate, hmoved⟩ := hmoves 0 scenario
          refine .cons ⟨⟨startDate, ?_⟩, fun _ => hentry⟩ (ih fun place => hmoves (place + 1))
          rw [hmoved, hbounded]
          rfl

theorem checkQuality_moves (batch : LoadedBatch Series) :
    List.Forall₂ (fun entry checked =>
        (∃ startDate, checked.scenario = startingAt startDate entry.scenario) ∧
          (checked.isValid = true → entry.isValid = true))
      batch.entries batch.checkQuality := by
  apply absorb_moves
  intro place scenario
  dsimp only
  split
  · exact ⟨scenario.startDate, rfl⟩
  · exact validateSingleScenario_moves _ _ _ _

theorem prepareMount_checked (workspace : Workspace Series) (held : RequirementsMap)
    (entries : List BatchScenario) :
    List.Forall₂ (Checked workspace) entries (Mounts.prepareMount workspace held entries).2 := by
  refine Pointwise.trans ?_ (loadBatch_checked workspace held entries) (checkQuality_moves _)
  rintro entry loaded checked hloaded ⟨⟨startDate, hmoved⟩, hvalid⟩
  refine ⟨⟨startDate, ?_⟩, fun h => hloaded.valid (hvalid h),
    fun h => hloaded.available (hvalid h), fun h => hloaded.added (hvalid h)⟩
  obtain ⟨startDate', hmoved'⟩ := hloaded.moved
  rw [hmoved, hmoved']
  cases entry.scenario <;> rfl

theorem numbered_prepareMount (hnumbered : Numbered entries) :
    Numbered (Mounts.prepareMount workspace held entries).2 := by
  refine (numbered_congr (Pointwise.map_eq_map (fun entry after h => ?_)
    (prepareMount_checked workspace held entries))).mp hnumbered
  obtain ⟨startDate, hmoved⟩ := h.moved
  rw [hmoved]
  cases entry.scenario <;> rfl

end Checks

section Scenarios

variable {Series : Type} {env : Environment Series} {combo : Combination}
  {scenarios scenarios' : List ConfiguredScenario} {scenario scenario' : ConfiguredScenario}

/-- A scenario after some phases. -/
structure Follows (scenario scenario' : ConfiguredScenario) : Prop where
  valid : scenario'.isValid = true → scenario.isValid = true
  same : ∃ startDate accountCurrency isValid, scenario' =
    { scenario with
      startDate := startDate, accountCurrency := accountCurrency, isValid := isValid }

theorem Follows.trans {scenario'' : ConfiguredScenario} (h : Follows scenario scenario')
    (h' : Follows scenario' scenario'') : Follows scenario scenario'' := by
  refine ⟨fun hvalid => h.valid (h'.valid hvalid), ?_⟩
  obtain ⟨_, _, _, heq⟩ := h.same
  obtain ⟨startDate, accountCurrency, isValid, heq'⟩ := h'.same
  refine ⟨startDate, accountCurrency, isValid, ?_⟩
  rw [heq', heq]

theorem follows_trans {scenarios'' : List ConfiguredScenario}
    (h : List.Forall₂ Follows scenarios scenarios')
    (h' : List.Forall₂ Follows scenarios' scenarios'') :
    List.Forall₂ Follows scenarios scenarios'' := by
  refine Pointwise.trans ?_ h h'
  intro _ _ _ hfirst hsecond
  exact hfirst.trans hsecond

theorem follows_map {f : ConfiguredScenario → ConfiguredScenario}
    (hf : ∀ scenario, Follows scenario (f scenario)) (scenarios : List ConfiguredScenario) :
    List.Forall₂ Follows scenarios (scenarios.map f) :=
  List.forall₂_map_right_iff.mpr (List.forall₂_same.mpr fun scenario _ => hf scenario)

theorem follows_excludeUnless (check : ConfiguredScenario → Bool)
    (scenario : ConfiguredScenario) : Follows scenario (excludeUnless check scenario) :=
  ⟨fun hvalid => (Bool.and_eq_true_iff.mp hvalid).1, _, _, _, rfl⟩

theorem follows_prepareScenarios (env : Environment Series)
    (scenarios : List ConfiguredScenario) :
    List.Forall₂ Follows scenarios (env.prepareScenarios scenarios) := by
  apply follows_map
  intro scenario
  split
  · exact ⟨id, _, _, _, rfl⟩
  · refine ⟨?_, _, _, _, rfl⟩
    rintro ⟨⟩

theorem listed_scenarioIndex (scenario : ConfiguredScenario) :
    (env.listed scenario).scenarioIndex = scenario.scenarioIndex := by
  unfold Environment.listed
  split <;> rfl

/-- The start of a scenario is listed with it; the verdict and the currency are not. -/
theorem listed_moved (env : Environment Series) (scenario : ConfiguredScenario) (startDate : Instant)
    (accountCurrency : String) (isValid : Bool) :
    env.listed { scenario with
      startDate := startDate, accountCurrency := accountCurrency, isValid := isValid } =
      startingAt startDate (env.listed scenario) := by
  unfold Environment.listed
  dsimp only
  split <;> rfl

theorem entry_settle {workspace : Workspace Series} {checked : BatchScenario}
    (h : Checked workspace (env.entry scenario) checked) :
    env.entry (settle scenario checked) = checked := by
  obtain ⟨startDate, hmoved⟩ := h.moved
  obtain ⟨listed, isValid⟩ := checked
  have hlisted : listed = startingAt startDate (env.listed scenario) := hmoved
  subst hlisted
  have hsettled := listed_moved env scenario
    (settle scenario ⟨startingAt startDate (env.listed scenario), isValid⟩).startDate
    scenario.accountCurrency isValid
  rw [Environment.entry, BatchScenario.mk.injEq]
  refine ⟨hsettled.trans ?_, rfl⟩
  unfold settle
  cases hbounded : env.listed scenario <;> rfl

end Scenarios

section Configured

variable {Series : Type} {env : Environment Series}
  {scenarios scenarios' : List ConfiguredScenario} {scenario scenario' : ConfiguredScenario}

/-- A scenario after some phases, the first of which is phase 0 on its list. -/
structure Prepared (env : Environment Series) (scenarios : List ConfiguredScenario)
    (scenario scenario' : ConfiguredScenario) : Prop extends Follows scenario scenario' where
  configured : scenario'.isValid = true → env.configured scenarios scenario = true

theorem configured_valid (h : env.configured scenarios scenario = true) :
    scenario.isValid = true := by
  unfold Environment.configured at h
  simp only [Bool.and_eq_true] at h
  exact h.1.1.1.1

theorem configured_bounded (h : env.configured scenarios scenario = true) :
    scenario.isBounded = true := by
  unfold Environment.configured at h
  simp only [Bool.and_eq_true] at h
  exact h.1.2

theorem nameValid_of_configured (h : env.configured scenarios scenario = true) :
    (!scenario.name.toList.all isSpace) = true ∧
      (env.brokered scenarios).countP (fun other => other.name = scenario.name) = 1 := by
  unfold Environment.configured nameValid at h
  simp only [Bool.and_eq_true, decide_eq_true_eq] at h
  exact h.1.1.2

theorem prepared_prepareScenarios (env : Environment Series)
    (scenarios : List ConfiguredScenario) :
    List.Forall₂ (Prepared env scenarios) scenarios (env.prepareScenarios scenarios) := by
  refine List.forall₂_map_right_iff.mpr (List.forall₂_same.mpr fun scenario _ => ?_)
  split
  · next hconfigured => exact ⟨⟨id, _, _, _, rfl⟩, fun _ => hconfigured⟩
  · refine ⟨⟨?_, _, _, _, rfl⟩, ?_⟩
    · rintro ⟨⟩
    · rintro ⟨⟩

theorem brokerConfigured_iff {broker : String} :
    env.brokerConfigured scenarios broker = true ↔
      ∀ cached, env.configMode broker = .dynamic cached →
        ∀ scenario ∈ scenarios, scenario.dataBrokerType = broker → scenario.symbol ∈ cached := by
  unfold Environment.brokerConfigured
  split
  · next hstatic => simp [hstatic]
  · next cached hdynamic =>
      rw [List.all_eq_true, hdynamic]
      constructor
      · rintro h _ ⟨⟩ scenario hscenario
        exact of_decide_eq_true (h scenario hscenario)
      · intro h scenario hscenario
        exact decide_eq_true (h cached rfl scenario hscenario)

theorem countP_brokered_of_configured (scenarios : List ConfiguredScenario) (name : String) :
    (scenarios.filter (env.configured scenarios)).countP (fun other => other.name = name) ≤
      (env.brokered scenarios).countP fun other => other.name = name := by
  rw [Environment.brokered, List.countP_filter, List.countP_filter, List.countP_filter]
  refine List.countP_mono_left fun other _ hother => ?_
  unfold Environment.configured at hother
  simp only [Bool.and_eq_true] at hother ⊢
  exact ⟨⟨hother.1, hother.2.1.1.1.2⟩, hother.2.1.1.1.1⟩

theorem nodup_names_of_prepared
    (h : List.Forall₂ (Prepared env scenarios) scenarios scenarios') :
    ((scenarios'.filter ConfiguredScenario.isValid).map ConfiguredScenario.name).Nodup := by
  rw [List.nodup_iff_count_le_one]
  intro name
  by_contra hcount
  have hmem : name ∈ (scenarios'.filter ConfiguredScenario.isValid).map ConfiguredScenario.name :=
    List.count_pos_iff.mp (by omega)
  obtain ⟨scenario', hscenario, rfl⟩ := List.mem_map.mp hmem
  rw [List.mem_filter] at hscenario
  obtain ⟨scenario, -, hprepared⟩ := Pointwise.exists_left h hscenario.1
  have hname := nameValid_of_configured (hprepared.configured hscenario.2)
  obtain ⟨_, _, _, heq⟩ := hprepared.same
  have hsame : scenario'.name = scenario.name := by rw [heq]
  have hsublist := Pointwise.map_filter_sublist (f := ConfiguredScenario.name)
    (g := ConfiguredScenario.name) (p := env.configured scenarios)
    (q := ConfiguredScenario.isValid)
    (fun before after hafter hkeep => by
      obtain ⟨_, _, _, hcopy⟩ := hafter.same
      exact ⟨hafter.configured hkeep, by rw [hcopy]⟩) h
  have hle := hsublist.count_le scenario'.name
  rw [List.count_eq_countP, List.count_eq_countP, List.countP_map, List.countP_map] at hle
  apply hcount
  calc ((scenarios'.filter ConfiguredScenario.isValid).map ConfiguredScenario.name).count
        scenario'.name
      = (scenarios'.filter ConfiguredScenario.isValid).countP
          fun other => other.name == scenario'.name := by
        rw [List.count_eq_countP, List.countP_map]
        rfl
    _ ≤ (scenarios.filter (env.configured scenarios)).countP
          fun other => other.name == scenario'.name := hle
    _ = (scenarios.filter (env.configured scenarios)).countP
          fun other => other.name = scenario.name := by
        rw [hsame]
        rfl
    _ ≤ (env.brokered scenarios).countP fun other => other.name = scenario.name :=
          countP_brokered_of_configured scenarios scenario.name
    _ = 1 := hname.2

theorem configured_of_prepared (h : List.Forall₂ (Prepared env scenarios) scenarios scenarios')
    (hscenario : scenario' ∈ scenarios') (hvalid : scenario'.isValid = true) :
    env.configured scenarios' scenario' = true := by
  obtain ⟨scenario, -, hprepared⟩ := Pointwise.exists_left h hscenario
  have hconfigured := hprepared.configured hvalid
  have hname := nameValid_of_configured hconfigured
  obtain ⟨_, _, _, heq⟩ := hprepared.same
  unfold Environment.configured at hconfigured
  simp only [Bool.and_eq_true] at hconfigured
  obtain ⟨⟨⟨⟨-, hbroker⟩, -⟩, hbounded⟩, hsymbol⟩ := hconfigured
  have hbroker' : env.brokerConfigured (scenarios'.filter ConfiguredScenario.isValid)
      scenario'.dataBrokerType = true := by
    rw [brokerConfigured_iff]
    intro cached hdynamic other hother hsame
    rw [List.mem_filter] at hother
    obtain ⟨before, hbefore, hother'⟩ := Pointwise.exists_left h hother.1
    obtain ⟨_, _, _, hcopy⟩ := hother'.same
    rw [heq] at hdynamic hsame
    rw [hcopy] at hsame ⊢
    exact brokerConfigured_iff.mp hbroker cached hdynamic before
      (List.mem_filter.mpr ⟨hbefore, hother'.valid hother.2⟩) hsame
  have hname' : nameValid (env.brokered scenarios') scenario' = true := by
    have hsame : scenario'.name = scenario.name := by rw [heq]
    unfold nameValid
    rw [Bool.and_eq_true, decide_eq_true_eq]
    refine ⟨by rw [hsame]; exact hname.1, le_antisymm ?_ ?_⟩
    · have hnodup : ((env.brokered scenarios').map ConfiguredScenario.name).Nodup :=
        (nodup_names_of_prepared h).sublist (List.filter_sublist.map _)
      have hle := List.nodup_iff_count_le_one.mp hnodup scenario'.name
      rw [List.count_eq_countP, List.countP_map] at hle
      exact hle
    · refine List.countP_pos_iff.mpr ⟨scenario', ?_, decide_eq_true rfl⟩
      exact List.mem_filter.mpr ⟨List.mem_filter.mpr ⟨hscenario, hvalid⟩, hbroker'⟩
  unfold Environment.configured
  rw [hvalid, hbroker', hname']
  rw [heq]
  exact Bool.and_eq_true_iff.mpr ⟨hbounded, hsymbol⟩

theorem accountCurrency_idem (scenario : ConfiguredScenario) (startDate : Instant)
    (isValid : Bool) :
    env.accountCurrency { scenario with
      startDate := startDate, accountCurrency := env.accountCurrency scenario,
      isValid := isValid } = env.accountCurrency scenario := by
  unfold Environment.accountCurrency
  dsimp only
  cases env.symbolSpecification scenario.dataBrokerType scenario.symbol with
  | none => rfl
  | some specification =>
      dsimp only
      split <;> rfl

/-- Phase 0 leaves scenarios that have passed it, with their currency set, as they are. -/
theorem prepareScenarios_eq_self
    (h : List.Forall₂ (Prepared env scenarios) scenarios scenarios')
    (hcurrency : ∀ scenario' ∈ scenarios', scenario'.isValid = true →
      env.accountCurrency scenario' = scenario'.accountCurrency) :
    env.prepareScenarios scenarios' = scenarios' := by
  unfold Environment.prepareScenarios
  conv_rhs => rw [← List.map_id scenarios']
  refine List.map_congr_left fun scenario' hscenario => ?_
  cases hvalid : scenario'.isValid with
  | true =>
      rw [if_pos (configured_of_prepared h hscenario hvalid), hcurrency scenario' hscenario hvalid,
        ← hvalid]
      rfl
  | false =>
      have hout : ¬env.configured scenarios' scenario' = true := fun hin => by
        rw [configured_valid hin] at hvalid
        cases hvalid
      rw [if_neg hout, ← hvalid]
      rfl

end Configured

section Mount

variable {Series : Type} {env : Environment Series} {held : RequirementsMap}
  {scenarios scenarios' : List ConfiguredScenario} {scenario scenario' : ConfiguredScenario}

/-- The scenarios carry their places. -/
def InPlace (scenarios : List ConfiguredScenario) : Prop :=
  scenarios.map ConfiguredScenario.scenarioIndex = List.range scenarios.length

instance (scenarios : List ConfiguredScenario) : Decidable (InPlace scenarios) :=
  inferInstanceAs (Decidable (_ = _))

theorem numbered_entries (env : Environment Series) (scenarios : List ConfiguredScenario) :
    Numbered (env.entries scenarios) ↔ InPlace scenarios := by
  have hindices : ((env.entries scenarios).map fun entry => entry.scenario.scenarioIndex) =
      scenarios.map ConfiguredScenario.scenarioIndex := by
    rw [Environment.entries, List.map_map]
    exact List.map_congr_left fun scenario _ => listed_scenarioIndex scenario
  rw [Numbered, hindices, Environment.entries, List.length_map, InPlace]

theorem InPlace.follows (hplaces : InPlace scenarios)
    (h : List.Forall₂ Follows scenarios scenarios') : InPlace scenarios' := by
  have hindices : scenarios.map ConfiguredScenario.scenarioIndex =
      scenarios'.map ConfiguredScenario.scenarioIndex := by
    refine Pointwise.map_eq_map (fun scenario scenario' hfollows => ?_) h
    obtain ⟨_, _, _, heq⟩ := hfollows.same
    rw [heq]
  rw [InPlace, ← hindices, ← h.length_eq]
  exact hplaces

theorem InPlace.scenarioIndex_eq (hplaces : InPlace scenarios) {place : ℕ}
    (hplace : scenarios[place]? = some scenario) : scenario.scenarioIndex = place := by
  have hlt : place < scenarios.length := (List.getElem?_eq_some_iff.mp hplace).1
  have hown := congrArg (fun indices => indices[place]?) hplaces
  simp only [List.getElem?_map, hplace, Option.map_some, List.getElem?_range hlt,
    Option.some.injEq] at hown
  exact hown

theorem collectionOf_eq (hplaces : InPlace scenarios) (hscenario : scenario ∈ scenarios)
    {single : SingleScenario} (hindex : single.scenarioIndex = scenario.scenarioIndex) :
    env.collectionOf scenarios single =
      env.collection scenario.dataBrokerType scenario.strategyConfig := by
  obtain ⟨place, hplace⟩ := List.getElem?_of_mem hscenario
  rw [Environment.collectionOf, hindex, hplaces.scenarioIndex_eq hplace, hplace]

theorem exists_listed_of_bounded (env : Environment Series) (h : scenario.isBounded = true) :
    ∃ single, env.listed scenario = .bounded single ∧
      single.scenarioIndex = scenario.scenarioIndex := by
  unfold Environment.listed
  rw [ConfiguredScenario.isBounded, Bool.or_eq_true] at h
  rw [dif_pos h]
  exact ⟨_, rfl, rfl⟩

/-- What preparing a mount makes of a scenario after phase 0. -/
structure Settled (env : Environment Series) (scenario scenario' : ConfiguredScenario) : Prop
    extends Follows scenario scenario' where
  currency : scenario'.accountCurrency = scenario.accountCurrency
  available : scenario'.isValid = true → onBounded
    (fun single => env.availability { single with workers := [] }) (env.listed scenario) = true
  added : scenario'.isValid = true →
    env.collection scenario.dataBrokerType scenario.strategyConfig = .added

theorem checked_entries (env : Environment Series) (held : RequirementsMap)
    (scenarios : List ConfiguredScenario) :
    List.Forall₂ (fun scenario checked =>
        Checked (env.workspace scenarios) (env.entry scenario) checked)
      scenarios (Mounts.prepareMount (env.workspace scenarios) held (env.entries scenarios)).2 :=
  List.forall₂_map_left_iff.mp (prepareMount_checked _ held (env.entries scenarios))

theorem entries_prepareMount (env : Environment Series) (held : RequirementsMap)
    (scenarios : List ConfiguredScenario) :
    env.entries (env.prepareMount held scenarios).2 =
      (Mounts.prepareMount (env.workspace (env.prepareScenarios scenarios)) held
        (env.entries (env.prepareScenarios scenarios))).2 :=
  Pointwise.map_zipWith (fun _ _ => entry_settle) (checked_entries env held _)

theorem prepareMount_settled (env : Environment Series) (held : RequirementsMap)
    (hplaces : InPlace scenarios) :
    List.Forall₂ (Settled env) (env.prepareScenarios scenarios)
      (env.prepareMount held scenarios).2 := by
  have hplaces' := hplaces.follows (follows_prepareScenarios env scenarios)
  have hchecked := checked_entries env held (env.prepareScenarios scenarios)
  refine Pointwise.zipWith_left ?_ ((List.forall₂_and_left _ _).mpr ⟨fun _ hmem => hmem, hchecked⟩)
  rintro prepared checked ⟨hmem, hprepared⟩
  refine ⟨⟨hprepared.valid, _, _, _, rfl⟩, rfl, hprepared.available, fun hvalid => ?_⟩
  obtain ⟨scenario, -, hphase⟩ :=
    Pointwise.exists_left (prepared_prepareScenarios env scenarios) hmem
  obtain ⟨_, _, _, heq⟩ := hphase.same
  have hbounded := configured_bounded (hphase.configured (hprepared.valid hvalid))
  have hsame : prepared.isBounded = scenario.isBounded := by rw [heq]; rfl
  obtain ⟨single, hlisted, hindex⟩ := exists_listed_of_bounded env (hsame.trans hbounded)
  have hadded := hprepared.added hvalid
  rw [Environment.entry, hlisted] at hadded
  rw [← collectionOf_eq hplaces' hmem hindex]
  exact of_decide_eq_true hadded

theorem follows_prepareMount (env : Environment Series) (held : RequirementsMap)
    (hplaces : InPlace scenarios) :
    List.Forall₂ Follows scenarios (env.prepareMount held scenarios).2 :=
  Pointwise.trans (fun _ _ _ h h' => h.trans h'.toFollows)
    (follows_prepareScenarios env scenarios) (prepareMount_settled env held hplaces)

end Mount

end Finiex.SweepPhases
