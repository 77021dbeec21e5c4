import Finiex.SweepSelections

namespace Finiex.SweepReuse

open Finiex.Types
open Finiex.Lib
open Finiex.Bars
open Finiex.Preparation
open Finiex.Coverage
open Finiex.Mounts
open Finiex.MountLookups
open Finiex.DataIdentity
open Finiex.SweepGrid
open Finiex.SweepRuns
open Finiex.SweepPhases
open Finiex.SweepOverrides
open Finiex.SweepReloads
open Finiex.SweepSelections

section Executed

variable {Series : Type} {env : Environment Series} {combo : Combination}
  {scenarios base : List ConfiguredScenario} {mount? : Option (MountPackage Series)}
  {mode : ExecutionMode} {run : ProcessRun Series}

/-- What a batch runs is a scenario of its list that was valid, with valid parameters and collected
requirements. -/
theorem mem_run (hplaces : InPlace scenarios) (h : run ∈ env.run mount? mode scenarios) :
    ∃ scenario ∈ scenarios, Follows scenario run.scenario ∧ scenario.isValid = true ∧
      parametersValid env.schemas scenario.strategyConfig = true ∧
      env.collection scenario.dataBrokerType scenario.strategyConfig = .added := by
  have hplaces' := inPlace_validated env hplaces
  have hstems : ∃ validated ∈ env.validateScenarioParameters scenarios,
      Follows validated run.scenario ∧ run.scenario.isValid = true ∧
        env.collection run.scenario.dataBrokerType run.scenario.strategyConfig = .added := by
    have hcollected : ∀ prepared : List ConfiguredScenario,
        ∀ scenario ∈ env.collected prepared, scenario.isValid = true →
          env.collection scenario.dataBrokerType scenario.strategyConfig = .added := by
      intro prepared scenario hscenario hvalid
      obtain ⟨before, -, rfl⟩ := List.mem_map.mp hscenario
      exact of_decide_eq_true (Bool.and_eq_true_iff.mp hvalid).2
    have hphase : List.Forall₂ Follows (env.validateScenarioParameters scenarios)
        (env.collected (env.prepareScenarios (env.validateScenarioParameters scenarios))) :=
      follows_trans (follows_prepareScenarios env _) (follows_map (follows_excludeUnless _) _)
    unfold Environment.run at h
    dsimp only at h
    split at h
    · obtain ⟨hmem, hvalid, -⟩ := mem_execute h
      obtain ⟨validated, hvalidated, hfollows⟩ :=
        Pointwise.exists_left (follows_prepareMount env {} hplaces') hmem
      obtain ⟨prepared, -, hsettled⟩ :=
        Pointwise.exists_left (prepareMount_settled env {} hplaces') hmem
      obtain ⟨_, _, _, heq⟩ := hsettled.same
      have hadded := hsettled.added hvalid
      refine ⟨validated, hvalidated, hfollows, hvalid, ?_⟩
      rw [heq]
      exact hadded
    · split at h
      · obtain ⟨hmem, hvalid, -⟩ := mem_execute h
        obtain ⟨validated, hvalidated, hfollows⟩ := Pointwise.exists_left hphase hmem
        exact ⟨validated, hvalidated, hfollows, hvalid, hcollected _ _ hmem hvalid⟩
      · obtain ⟨hmem, hvalid, -⟩ := mem_execute h
        obtain ⟨collected, hmem', hfollows⟩ :=
          Pointwise.exists_left (follows_prepareMount env _ (hplaces'.follows hphase)) hmem
        obtain ⟨validated, hvalidated, hfollows'⟩ := Pointwise.exists_left hphase hmem'
        have hadded := hcollected _ _ hmem' (hfollows.valid hvalid)
        refine ⟨validated, hvalidated, hfollows'.trans hfollows, hvalid, ?_⟩
        obtain ⟨_, _, _, heq⟩ := hfollows.same
        rw [heq]
        exact hadded
  obtain ⟨validated, hvalidated, hfollows, hvalid, hadded⟩ := hstems
  obtain ⟨scenario, hscenario, rfl⟩ := List.mem_map.mp hvalidated
  obtain ⟨hkept, hparameters⟩ := Bool.and_eq_true_iff.mp (hfollows.valid hvalid)
  refine ⟨scenario, hscenario, (follows_excludeUnless _ scenario).trans hfollows, hkept,
    hparameters, ?_⟩
  obtain ⟨_, _, _, heq⟩ := hfollows.same
  rw [heq] at hadded
  exact hadded

theorem inPlace_buildMount (hplaces : InPlace base) : InPlace (env.buildMount base).2 :=
  (inPlace_validated env hplaces).follows (follows_prepareMount env {} (inPlace_validated env hplaces))

theorem follows_buildMount (env : Environment Series) (hplaces : InPlace base) :
    List.Forall₂ Follows base (env.buildMount base).2 :=
  follows_trans (follows_map (follows_excludeUnless _) base)
    (follows_prepareMount env {} (inPlace_validated env hplaces))

theorem mem_warmRun (hplaces : InPlace base) (h : run ∈ env.warmRun mode base combo) :
    ∃ scenario ∈ (env.buildMount base).2, scenario.isValid = true ∧
      scenario.scenarioIndex = run.scenario.scenarioIndex ∧
      parametersValid env.schemas (overridden combo scenario.strategyConfig) = true ∧
      env.collection scenario.dataBrokerType (overridden combo scenario.strategyConfig) =
        .added := by
  unfold Environment.warmRun at h
  dsimp only at h
  split at h
  · cases h
  · obtain ⟨copy, hcopy, hfollows, hvalid, hparameters, hadded⟩ :=
      mem_run (inPlace_applyOverrides combo (inPlace_buildMount hplaces)) h
    obtain ⟨scenario, hscenario, rfl⟩ := List.mem_map.mp hcopy
    obtain ⟨_, _, _, heq⟩ := hfollows.same
    refine ⟨scenario, hscenario, hvalid, ?_, hparameters, hadded⟩
    rw [heq]
    rfl

theorem mem_coldRun (hplaces : InPlace base) (h : run ∈ env.coldRun mode base combo) :
    ∃ scenario ∈ base, Keeps env combo scenario ∧ Passes env combo base scenario := by
  have hfresh : InPlace (freshList env combo base) :=
    inPlace_validated env (inPlace_applyOverrides combo hplaces)
  have hrun : run ∈ env.execute (env.prepareMount {} (freshList env combo base)).1 mode
      (env.prepareMount {} (freshList env combo base)).2 := h
  obtain ⟨hmem, hvalid, -⟩ := mem_execute hrun
  obtain ⟨prepared, hprepared, hsettled⟩ :=
    Pointwise.exists_left (prepareMount_settled env {} hfresh) hmem
  rw [prepareScenarios_fresh] at hprepared
  obtain ⟨scenario, hscenario, rfl⟩ := List.mem_map.mp hprepared
  exact ⟨scenario, hscenario, prepared_valid_iff.mp (Bool.and_eq_true_iff.mpr
    ⟨hsettled.valid hvalid, Bool.and_eq_true_iff.mpr
      ⟨hsettled.available hvalid, decide_eq_true (hsettled.added hvalid)⟩⟩)⟩

/-- No scenario that the combination keeps passes with it or is left valid by building the
mount. -/
def RunsNothing (env : Environment Series) (combo : Combination)
    (base : List ConfiguredScenario) : Prop :=
  List.Forall₂ (fun scenario built => Keeps env combo scenario →
    ¬Passes env combo base scenario ∧ built.isValid = false) base (env.buildMount base).2

theorem eq_of_runsNothing (hplaces : InPlace base) (h : RunsNothing env combo base)
    (mode : ExecutionMode) : env.warmRun mode base combo = env.coldRun mode base combo := by
  have hcold : env.coldRun mode base combo = [] := by
    refine List.eq_nil_iff_forall_not_mem.mpr fun run hrun => ?_
    obtain ⟨scenario, hscenario, hkeeps, hpasses⟩ := mem_coldRun hplaces hrun
    obtain ⟨built, -, hout⟩ := Pointwise.exists_right h hscenario
    exact (hout hkeeps).1 hpasses
  have hwarm : env.warmRun mode base combo = [] := by
    refine List.eq_nil_iff_forall_not_mem.mpr fun run hrun => ?_
    obtain ⟨built, hbuilt, hvalid, -, hkept⟩ := mem_warmRun hplaces hrun
    obtain ⟨scenario, -, hfollows, hout⟩ :=
      Pointwise.exists_left (Pointwise.and (follows_buildMount env hplaces) h) hbuilt
    obtain ⟨_, _, _, heq⟩ := hfollows.same
    rw [heq] at hkept
    rw [(hout hkept).2] at hvalid
    cases hvalid
  rw [hcold, hwarm]

/-- The mount is rejected for a combination, and building it has left alone what passes with it. -/
structure Reloads (env : Environment Series) (combo : Combination)
    (base : List ConfiguredScenario) : Prop where
  left : List.Forall₂ (LeftAlone env combo base) base (env.buildMount base).2
  whole : WholeCollections env combo base
  rejected : ∃ scenario ∈ base, Keeps env combo scenario ∧ Passes env combo base scenario ∧
    warmups env (withOverrides combo scenario) ≠ warmups env scenario

theorem eq_of_reloads (hplaces : InPlace base) (h : Reloads env combo base)
    (mode : ExecutionMode) : env.warmRun mode base combo = env.coldRun mode base combo := by
  obtain ⟨scenario, hscenario, hkeeps, hpasses, hwarmups⟩ := h.rejected
  obtain ⟨built, hbuilt, hfollows, halone⟩ := Pointwise.exists_right
    (Pointwise.and (follows_buildMount env hplaces) h.left) hscenario
  have hvalid := (halone hkeeps).1.mpr hpasses
  have hkept : Keeps env combo built := by
    obtain ⟨_, _, _, heq⟩ := hfollows.same
    rw [heq]
    exact hkeeps
  have hmoved : warmups env (withOverrides combo built) ≠ warmups env built := by
    have hoverridden : Follows (withOverrides combo scenario) (withOverrides combo built) := by
      refine ⟨hfollows.valid, ?_⟩
      obtain ⟨startDate, accountCurrency, _, rfl⟩ := hfollows.same
      exact ⟨startDate, accountCurrency, _, rfl⟩
    rw [warmups_of_follows hoverridden, warmups_of_follows hfollows]
    exact hwarmups
  obtain ⟨hmount, hrejected⟩ := rejected_of_warmups hplaces hbuilt hvalid hkept hmoved
  exact sameRuns_of_reloaded hplaces h.left h.whole hmount hrejected mode

/-- A combination runs on the shared mount what it runs on a base that is loaded afresh. -/
def SameRuns (env : Environment Series) (base : List ConfiguredScenario) (combo : Combination) :
    Prop :=
  ∀ mode, Completes base.length mode →
    List.Forall₂ SameRun (env.warmRun mode base combo) (env.coldRun mode base combo)

theorem sameRuns_of_eq
    (h : ∀ mode, env.warmRun mode base combo = env.coldRun mode base combo) :
    SameRuns env base combo := by
  intro mode _
  rw [h mode]
  exact List.forall₂_same.mpr fun run _ => SameRun.refl run

end Executed

section Examples

open Finiex.PreparationIsolation

def thresholdInRange : Json → Bool
  | .object fields => match getField fields "threshold" with
    | some (.number value) => decide (0 ≤ value) && decide (value ≤ 100)
    | _ => false
  | _ => false

def eurusdEnvironment : Environment Unit where
  archive := twoFiles
  loadSeries := noSignals
  coverage := {}
  closes _ := false
  snapshots _ _ := []
  isStandard := true
  allowedGapCategories := [.seamless, .short]
  configMode _ := .static
  symbolSpecification _ _ := some { baseCurrency := "EUR", quoteCurrency := "USD" }
  isSpot _ := false
  schemas := { logic := fun _ => some thresholdInRange, worker := fun _ _ => none }
  workers _ := []
  availability _ := true
  collection _ _ := .added

def thresholdScenario (single : SingleScenario) (place : ℕ) (threshold : ℚ) :
    ConfiguredScenario where
  name := single.name
  scenarioIndex := place
  symbol := single.symbol
  dataBrokerType := single.dataBrokerType
  startDate := single.startDate
  endDate := single.endDate
  maxTicks := single.maxTicks
  strategyConfig := [("decision_logic_type", .text "breakout"),
    ("decision_logic_config", .object [("threshold", .number threshold)])]
  tradeSimulatorConfig := { balances := ["USD"] }

def thresholdGrid : Grid := [("decision_logic_config.threshold", [.number 40, .number 60])]

def sixty : Combination := [("decision_logic_config.threshold", .number 60)]

def outOfRangeBase : List ConfiguredScenario :=
  [thresholdScenario twoMinutes 0 50, thresholdScenario laterMinutes 1 200]

/-- As many M5 warmup bars as the `period` of the strategy says. -/
def periodWorkers (config : StrategyConfig) : List WorkerRequirement :=
  match getField config "decision_logic_config" with
  | some (.object fields) => match getField fields "period" with
    | some (.number value) => [.indicator [(.m5, value.num.toNat)]]
    | _ => []
  | _ => []

def periodEnvironment : Environment Unit :=
  { eurusdEnvironment with
    schemas := { logic := fun _ => some fun _ => true, worker := fun _ _ => none }
    workers := periodWorkers }

def periodScenario (single : SingleScenario) (place : ℕ) (period : ℚ) : ConfiguredScenario :=
  { thresholdScenario single place 0 with
    strategyConfig := [("decision_logic_type", .text "breakout"),
      ("decision_logic_config", .object [("period", .number period)])] }

def twoBars : Combination := [("decision_logic_config.period", .number 2)]

end Examples

end Finiex.SweepReuse
