import Finiex.SignalProbes

namespace Finiex.IdentitySoundness

open Finiex.Types
open Finiex.Lib
open Finiex.Bars
open Finiex.Preparation
open Finiex.PreparationIsolation
open Finiex.Mounts
open Finiex.Signals
open Finiex.SignalLoading
open Finiex.DataIdentity
open Finiex.SignalProbes

section Soundness

variable {context : LoadContext} {scenario other : StressedScenario}

/-- The data of a scenario is a fresh load of another exactly when the loads do not differ. -/
theorem fresh_iff (hbasis : SameBasis scenario other) :
    (∀ archive signals, ∀ package ∈ preparedAlone context archive signals scenario,
      IsFresh context archive signals other package) ↔
        LoadsTheSame context.resolvePath scenario other := by
  constructor
  · intro h
    by_cases hnever : NeverTicks scenario
    · exact .inl hnever
    by_cases hrefused : Refused scenario
    · exact .inr (.inl hrefused)
    -- with ticks and signals there is a package, and what it holds is loaded for the other
    have hpackage : ∀ barFile signals series, loadedSignals context signals scenario = some series →
        ∃ archive : DataArchive, archive.barFile = barFile ∧
          ∃ series', loadedSignals context signals other = some series' ∧
            (∀ key, (filterBarsForScenario scenario.toSingleScenario
                (prepareBars archive scenario.barRequirements)).get? key =
              (filterBarsForScenario other.toSingleScenario
                (prepareBars archive other.barRequirements)).get? key) ∧
            ∀ kind, series.get? kind = series'.get? kind := by
      intro barFile signals series hseries
      obtain ⟨archive, hfile, hticks⟩ := exists_ticks hnever barFile
      obtain ⟨fresh, hfresh, hsame⟩ := h archive signals _
        (mem_preparedAlone.mpr ⟨hticks, series, hseries, rfl⟩)
      obtain ⟨-, series', hseries', rfl⟩ := mem_preparedAlone.mp hfresh
      exact ⟨archive, hfile, series', hseries', hsame.bars, hsame.signals⟩
    refine .inr (.inr ⟨warmup_of_bars hbasis fun barFile => ?_, ?_⟩)
    · obtain ⟨archive, hfile, -, -, hbars, -⟩ := hpackage barFile _ _
        (loadedSignals_eq_some_iff.mpr ⟨not_not.mp fun hunknown => hrefused (.inl hunknown),
          some_on_probe (fun _ => true) (fileWith scenario.toSingleScenario 0) (fun _ => .ok [])
            hrefused (fileWith_startTime scenario.toSingleScenario 0) (fun _ => rfl)
            fun _ _ _ => rfl, rfl⟩)
      exact ⟨archive, hfile, hbars⟩
    · refine Serves.covers (fun signals series hseries => ?_) hrefused hbasis
      obtain ⟨-, -, series', hseries', -, hsignals⟩ :=
        hpackage (fun _ _ _ => none) signals series hseries
      exact ⟨series', hseries', hsignals⟩
  · rintro h archive signals package hpackage
    obtain ⟨hticks, series, hseries, rfl⟩ := mem_preparedAlone.mp hpackage
    rcases h with hnever | hrefused | ⟨hwarmup, hcovers⟩
    · exact absurd (ownTicks_of_neverTicks hnever archive) hticks
    · exact absurd hrefused (not_refused_of_loaded hseries)
    · obtain ⟨series', hseries', hsignals⟩ := signals_of_covers hbasis hcovers hseries
      refine ⟨_, mem_preparedAlone.mpr ⟨ownTicks_eq hbasis archive ▸ hticks, series', hseries', rfl⟩,
        ⟨fun symbol => ?_, bars_of_warmup hbasis hwarmup archive, hsignals⟩⟩
      rw [ownTicks_eq hbasis, transported_eq hbasis, hbasis.symbol]

end Soundness

section Guards

variable {context : LoadContext} {scenario other : StressedScenario}

theorem sameBasis_of_key {requirements requirements' : List BarRequirement}
    (h : DataIdentityKey.fromScenario scenario.toSingleScenario requirements =
      .fromScenario other.toSingleScenario requirements') : SameBasis scenario other := by
  obtain ⟨hbroker, hsymbol, hstart, hstop, hmax, -, hbudget⟩ := DataIdentityKey.mk.inj h
  exact ⟨hbroker, hsymbol, hstart, hstop, hmax, hbudget⟩

theorem sameData_symm {package fresh : ProcessDataPackage SignalSeries}
    (h : SameData package fresh) : SameData fresh package :=
  ⟨fun symbol => (h.ticks symbol).symm, fun key => (h.bars key).symm,
    fun kind => (h.signals kind).symm⟩

theorem rel_iff {package? fresh? : Option (ProcessDataPackage SignalSeries)} :
    Option.Rel SameData package? fresh? ↔
      (∀ package ∈ package?, ∃ fresh ∈ fresh?, SameData package fresh) ∧
        ∀ fresh ∈ fresh?, ∃ package ∈ package?, SameData fresh package := by
  constructor
  · rintro (⟨hsame⟩ | _)
    · refine ⟨?_, ?_⟩
      · rintro _ ⟨⟩
        exact ⟨_, rfl, hsame⟩
      · rintro _ ⟨⟩
        exact ⟨_, rfl, sameData_symm hsame⟩
    · refine ⟨?_, ?_⟩
      · rintro _ ⟨⟩
      · rintro _ ⟨⟩
  · rintro ⟨hforth, hback⟩
    cases package? with
    | none =>
        cases fresh? with
        | none => exact .none
        | some fresh =>
            obtain ⟨_, hmem, -⟩ := hback fresh rfl
            cases hmem
    | some package =>
        obtain ⟨fresh, hfresh, hsame⟩ := hforth package rfl
        rw [hfresh]
        exact .some hsame

theorem keySound_iff : KeySound context scenario other ↔
    ownKey scenario ≠ ownKey other ∨ LoadsTheSame context.resolvePath scenario other ∧
      LoadsTheSame context.resolvePath other scenario := by
  unfold KeySound
  by_cases hkey : ownKey scenario = ownKey other
  · have hbasis := sameBasis_of_key hkey
    rw [or_iff_right (not_not.mpr hkey), ← fresh_iff hbasis, ← fresh_iff hbasis.symm]
    constructor
    · intro h
      exact ⟨fun archive signals => (rel_iff.mp (h hkey archive signals)).1,
        fun archive signals => (rel_iff.mp (h hkey archive signals)).2⟩
    · rintro ⟨hforth, hback⟩ - archive signals
      exact rel_iff.mpr ⟨hforth archive signals, hback archive signals⟩
  · exact iff_of_true (fun h => absurd h hkey) (.inl hkey)

def requirementsFor (scenario : SingleScenario) (name : String) : List BarRequirement :=
  if name = scenario.name then scenario.barRequirements
  else scenario.barRequirements ++
    scenario.barRequirements.map fun r => { r with scenarioName := name }

def mountWith (place : ℕ) (package : ProcessDataPackage SignalSeries) (key : DataIdentityKey)
    (barRequirements : List BarRequirement) : MountPackage SignalSeries where
  scenarioPackages := (∅ : Dict ℕ (ProcessDataPackage SignalSeries)).set place package
  requirementsMap := { barRequirements := barRequirements }
  dataIdentity := (∅ : Dict ℕ DataIdentityKey).set place key

theorem scenarioName_of_mem {scenario : SingleScenario} {requirement : BarRequirement}
    (h : requirement ∈ scenario.barRequirements) : requirement.scenarioName = scenario.name := by
  obtain ⟨entry, -, rfl⟩ := List.mem_map.mp h
  rfl

theorem filter_own_name (scenario : SingleScenario) :
    scenario.barRequirements.filter (fun r => r.scenarioName = scenario.name) =
      scenario.barRequirements :=
  List.filter_eq_self.mpr fun _ hr => decide_eq_true (scenarioName_of_mem hr)

theorem requirementsFor_own (scenario : SingleScenario) (name : String) :
    (requirementsFor scenario name).filter (fun r => r.scenarioName = scenario.name) =
      scenario.barRequirements := by
  unfold requirementsFor
  split
  · exact filter_own_name scenario
  · next hne =>
      have hnone : (scenario.barRequirements.map fun r => { r with scenarioName := name }).filter
          (fun r => r.scenarioName = scenario.name) = [] := by
        refine List.filter_eq_nil_iff.mpr fun r hr => ?_
        obtain ⟨own, -, rfl⟩ := List.mem_map.mp hr
        rw [decide_eq_true_eq]
        exact hne
      rw [List.filter_append, filter_own_name, hnone, List.append_nil]

theorem key_requirementsFor (hbasis : SameBasis scenario other) :
    DataIdentityKey.fromScenario other.toSingleScenario
      (requirementsFor scenario.toSingleScenario other.name) = ownKey scenario := by
  have hwarmup : ((requirementsFor scenario.toSingleScenario other.name).filter
        fun r => r.scenarioName = other.name).map
          (fun r => (timeframeName r.timeframe, r.warmupCount)) =
      (scenario.barRequirements.filter fun r => r.scenarioName = scenario.name).map
        fun r => (timeframeName r.timeframe, r.warmupCount) := by
    unfold requirementsFor
    split
    · next heq => rw [heq]
    · next hne =>
        have hnone : scenario.barRequirements.filter (fun r => r.scenarioName = other.name) = [] := by
          refine List.filter_eq_nil_iff.mpr fun r hr => ?_
          rw [decide_eq_true_eq, scenarioName_of_mem hr]
          exact Ne.symm hne
        have hall : (scenario.barRequirements.map fun r =>
            { r with scenarioName := other.name }).filter
              (fun r => r.scenarioName = other.name) =
            scenario.barRequirements.map fun r => { r with scenarioName := other.name } := by
          refine List.filter_eq_self.mpr fun r hr => ?_
          obtain ⟨own, -, rfl⟩ := List.mem_map.mp hr
          exact decide_eq_true rfl
        rw [List.filter_append, hnone, hall, List.nil_append, List.map_map, filter_own_name]
        rfl
  rw [ownKey, barRequirements_alone]
  unfold DataIdentityKey.fromScenario
  rw [hwarmup, hbasis.broker, hbasis.symbol, hbasis.start, hbasis.stop, hbasis.maxTicks,
    hbasis.budget]

theorem holds_mountWith {archive : DataArchive} {signals : SignalArchive}
    {package : ProcessDataPackage SignalSeries}
    (hpackage : package ∈ preparedAlone context archive signals scenario) (place : ℕ)
    (name : String) :
    Holds context archive signals
      (mountWith place package (ownKey scenario) (requirementsFor scenario.toSingleScenario name))
      place scenario where
  package := (Dict.get?_set_self _ _ _).trans hpackage.symm
  identity key hkey := by
    rw [mountWith, Dict.get?_set_self] at hkey
    exact (Option.some.inj hkey).symm
  requirements := requirementsFor_own scenario.toSingleScenario name

theorem guardSound_iff : GuardSound context scenario other ↔
    ¬SameBasis scenario other ∨ LoadsTheSame context.resolvePath scenario other := by
  constructor
  · intro h
    by_cases hbasis : SameBasis scenario other
    · refine .inr ((fresh_iff hbasis).mp fun archive signals package hpackage => ?_)
      refine h archive signals _ (holds_mountWith hpackage other.scenarioIndex other.name) ?_ package
        (Dict.get?_set_self _ _ _)
      have hidentity : ((∅ : Dict ℕ DataIdentityKey).set other.scenarioIndex (ownKey scenario)).get?
          other.scenarioIndex = some (ownKey scenario) := Dict.get?_set_self _ _ _
      rw [passesGuard, Bool.or_eq_true, decide_eq_true_eq]
      refine .inr ⟨?_, ?_⟩
      · exact Option.ne_none_iff_exists'.mpr ⟨_, hidentity⟩
      · exact hidentity.trans (congrArg some (key_requirementsFor hbasis).symm)
    · exact .inl hbasis
  · intro h archive signals mount hholds hguard package hpackage
    rw [passesGuard, Bool.or_eq_true, Bool.not_eq_true', decide_eq_true_eq] at hguard
    rcases hguard with habsent | ⟨hidentity, hequal⟩
    · have hcontains : (mount.scenarioPackages.get? other.scenarioIndex).isSome = false := habsent
      rw [hpackage] at hcontains
      cases hcontains
    · obtain ⟨key, hkey⟩ := Option.ne_none_iff_exists'.mp hidentity
      have hkey' : mount.dataIdentity.get? other.scenarioIndex = some key := hkey
      have hown := hholds.identity key hkey'
      rw [hkey] at hequal
      have hbasis : SameBasis scenario other :=
        sameBasis_of_key (hown.symm.trans (Option.some.inj hequal))
      rw [hholds.package] at hpackage
      exact (fresh_iff hbasis).mpr (h.resolve_left (not_not.mpr hbasis)) archive signals package
        hpackage

theorem barRequirements_collected {collection : SingleScenario → Collection}
    {scenarios : List SingleScenario} (hnames : (scenarios.map SingleScenario.name).Nodup)
    {scenario : SingleScenario} (hmem : scenario ∈ scenarios)
    (hadded : collection scenario = .added) :
    (collectAndValidate collection {} scenarios).barRequirements.filter
        (fun r => r.scenarioName = scenario.name) = scenario.barRequirements := by
  have hcollected : ∀ (scenarios : List SingleScenario) (held : RequirementsMap),
      (collectAndValidate collection held scenarios).barRequirements =
        held.barRequirements ++ scenarios.flatMap fun scenario =>
          if collection scenario = .added then scenario.barRequirements else [] := by
    intro scenarios
    induction scenarios with
    | nil => exact fun held => (List.append_nil _).symm
    | cons scenario scenarios ih =>
        intro held
        rw [collectAndValidate, List.foldl_cons, ← collectAndValidate, ih, List.flatMap_cons,
          ← List.append_assoc]
        apply congrArg (· ++ _)
        unfold collect
        cases collection scenario with
        | added => rfl
        | excluded => exact (List.append_nil _).symm
        | raised workers => exact (List.append_nil _).symm
  have hown := Lists.filter_flatMap_of_mem (f := fun scenario : SingleScenario =>
      if collection scenario = .added then scenario.barRequirements else [])
    (fun other _ r hr => by
      split at hr
      · exact scenarioName_of_mem hr
      · cases hr) hnames hmem
  rw [hcollected, List.nil_append, hown, if_pos hadded]

theorem matchSound_iff : MatchSound context scenario other ↔
    ownKey scenario ≠ ownKey other ∨ LoadsTheSame context.resolvePath scenario other := by
  have hcollectedKey : ∀ {collection : SingleScenario → Collection}
      {scenarios : List SingleScenario}, (scenarios.map SingleScenario.name).Nodup →
      other.toSingleScenario ∈ scenarios → collection other.toSingleScenario = .added →
      DataIdentityKey.fromScenario other.toSingleScenario
        (collectAndValidate collection {} scenarios).barRequirements = ownKey other := by
    intro collection scenarios hnames hmem hadded
    unfold ownKey DataIdentityKey.fromScenario
    rw [barRequirements_collected hnames hmem hadded, barRequirements_alone, filter_own_name]
  constructor
  · intro h
    by_cases hkey : ownKey scenario = ownKey other
    · refine .inr ((fresh_iff (sameBasis_of_key hkey)).mp fun archive signals package hpackage => ?_)
      have hnames : ([other.toSingleScenario].map SingleScenario.name).Nodup :=
        List.nodup_singleton _
      refine h archive signals _ (holds_mountWith hpackage other.scenarioIndex scenario.name)
        (fun _ => .added) [other.toSingleScenario] hnames List.mem_cons_self rfl ?_ package
        (Dict.get?_set_self _ _ _)
      rw [matchesMount, List.all_eq_true]
      intro scenario' hscenario'
      rw [List.mem_singleton.mp (List.mem_of_mem_filter hscenario'), mountWith,
        Dict.get?_set_self]
      exact decide_eq_true ((hcollectedKey hnames List.mem_cons_self rfl).trans hkey.symm)
    · exact .inl hkey
  · intro h archive signals mount hholds collection scenarios hnames hmem hadded hmatches package
      hpackage
    rw [matchesMount, List.all_eq_true] at hmatches
    have hmatch := hmatches other.toSingleScenario
      (List.mem_filter.mpr ⟨hmem, decide_eq_true hadded⟩)
    split at hmatch
    · cases hmatch
    · next key hidentity =>
        have hkey : ownKey scenario = ownKey other := by
          rw [← hcollectedKey hnames hmem hadded, of_decide_eq_true hmatch]
          exact (hholds.identity key hidentity).symm
        rw [hholds.package] at hpackage
        exact (fresh_iff (sameBasis_of_key hkey)).mpr (h.resolve_left (not_not.mpr hkey)) archive
          signals package hpackage

/-- Scenarios of one key are given the same data, and the guard and the match of a mount let a
scenario run only on data of its own, exactly if what the key leaves out is not read or is the
same as well. -/
theorem data_identity_sound_iff (context : LoadContext) (scenario other : StressedScenario) :
    (KeySound context scenario other ↔
      ownKey scenario ≠ ownKey other ∨ LoadsTheSame context.resolvePath scenario other ∧
        LoadsTheSame context.resolvePath other scenario) ∧
    (GuardSound context scenario other ↔
      ¬SameBasis scenario other ∨ LoadsTheSame context.resolvePath scenario other) ∧
    (MatchSound context scenario other ↔
      ownKey scenario ≠ ownKey other ∨ LoadsTheSame context.resolvePath scenario other) :=
  ⟨keySound_iff, guardSound_iff, matchSound_iff⟩

end Guards

section Examples

def workingDirectory : LoadContext where
  resolvePath path := "/app/" ++ path
  timeText _ := ""

def cryptoSentiment : StressedScenario where
  name := "btc_window_01"
  scenarioIndex := 0
  symbol := "BTCUSD"
  dataBrokerType := "kraken_spot"
  startDate := 1735689600000000
  maxTicks := some 10
  dataSentimentType := "crypto_sentiment"
  workers := [.signal "llm_sentiment" ""]
  bounded := .inl rfl
  referenced := rfl

def macroSentiment : StressedScenario :=
  { cryptoSentiment with dataSentimentType := "macro_sentiment", referenced := rfl }

def btcTicks : DataArchive where
  tickFiles brokerType symbol :=
    if brokerType = "kraken_spot" ∧ symbol = "BTCUSD" then some
      { files := [{ startTime := 1735689600000000, endTime := 1735689660000000
                    rows := [tickAt 1735689600000000, tickAt 1735689660000000] }]
        nonempty := List.cons_ne_nil _ _ }
    else none
  barFile _ _ _ := none

def buyRow : ParquetRow := { stampRow "crypto_sentiment" "BTCUSD" 1735689000000 with signal := "BUY" }

def sellRow : ParquetRow := { stampRow "macro_sentiment" "BTCUSD" 1735689300000 with signal := "SELL" }

def twoSources : SignalArchive where
  index source _ :=
    if source = "crypto_sentiment" then [⟨[buyRow], List.cons_ne_nil _ _⟩]
    else if source = "macro_sentiment" then [⟨[sellRow], List.cons_ne_nil _ _⟩]
    else []
  jsonl path := .error path
  sorted source _ := by
    split
    · exact List.pairwise_singleton _ _
    · split
      · exact List.pairwise_singleton _ _
      · exact List.Pairwise.nil

def cryptoMount : MountPackage SignalSeries :=
  MountLookups.mountOf
    (prepareScenarioPackages btcTicks
      (fun _ => loadSeries workingDirectory twoSources cryptoSentiment)
      (aggregateRequirements [cryptoSentiment.toSingleScenario])
      [cryptoSentiment.toSingleScenario])
    (aggregateRequirements [cryptoSentiment.toSingleScenario])
    [{ scenario := .bounded cryptoSentiment.toSingleScenario }]

theorem signals_of_rel {package? fresh? : Option (ProcessDataPackage SignalSeries)}
    (h : Option.Rel SameData package? fresh?) (kind : String) :
    package?.map (fun package => package.signalSeries.get? kind) =
      fresh?.map fun package => package.signalSeries.get? kind := by
  cases h with
  | none => rfl
  | some hdata => exact congrArg some (hdata.signals kind)

/-- The signal source is not part of the key: two sources have one key and different series, and
both checks let the one run on the other's. -/
theorem source_not_in_key :
    ¬KeySound workingDirectory cryptoSentiment macroSentiment ∧
      passesGuard cryptoMount { scenario := .bounded macroSentiment.toSingleScenario } = true ∧
      matchesMount (fun _ => .added) cryptoMount [macroSentiment.toSingleScenario] = true := by
  refine ⟨fun h => ?_, by decide +kernel, by decide +kernel⟩
  have hseries := signals_of_rel (h (by decide +kernel) btcTicks twoSources) "llm_sentiment"
  exact absurd hseries (by decide +kernel)

end Examples

end Finiex.IdentitySoundness
