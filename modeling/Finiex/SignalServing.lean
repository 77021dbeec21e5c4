import Finiex.SignalWorkers
import Finiex.Lib.Lists
import Finiex.Lib.Pointwise

namespace Finiex.SignalServing

open Finiex.Types
open Finiex.Lib
open Finiex.Signals
open Finiex.SignalWorkers

variable {Output : Type}

section Slots

variable {slot refreshed : SignalSlot Output} {provider : SignalDataProvider} {now : Instant}

/-- The tracking fields of a worker are those of its cached result. -/
def Stamped (slot : SignalSlot Output) : Prop :=
  ∀ result ∈ slot.result,
    slot.lastSnapshotMsc = result.resolved.map ResolvedSignal.collectedMsc ∧
      slot.lastServedStale = some result.isStale

def servesStale (slot : SignalSlot Output) : Bool := slot.result.any WorkerResult.isStale

def totalTicks (slot : SignalSlot Output) : ℕ :=
  slot.freshTicks + slot.staleTicks + slot.blindTicks

/-- What a refresh leaves of a worker, whether or not it computes. -/
structure Refreshed (slot refreshed : SignalSlot Output) : Prop where
  worker : refreshed.worker = slot.worker
  staleState : refreshed.staleState = slot.staleState
  total : totalTicks refreshed = totalTicks slot
  stamped : Stamped slot → Stamped refreshed
  cold : refreshed.result = none → slot.result = none

theorem Refreshed.refl (slot : SignalSlot Output) : Refreshed slot slot :=
  ⟨rfl, rfl, rfl, id, id⟩

theorem Refreshed.trans {later : SignalSlot Output} (h : Refreshed slot refreshed)
    (h' : Refreshed refreshed later) : Refreshed slot later :=
  ⟨h'.worker.trans h.worker, h'.staleState.trans h.staleState, h'.total.trans h.total,
    h'.stamped ∘ h.stamped, h.cold ∘ h'.cold⟩

theorem refreshed_computeSignalAt (slot : SignalSlot Output) (provider : SignalDataProvider)
    (now : Instant) : Refreshed slot (slot.computeSignalAt provider now) := by
  unfold SignalSlot.computeSignalAt SignalSlot.evaluateEvidenceRegression
  dsimp only
  split
  all_goals
    refine ⟨rfl, rfl, rfl, fun _ result hresult => ?_, fun hnone => (nomatch hnone)⟩
    cases hresult
    exact ⟨rfl, rfl⟩

theorem refreshed_shouldRefreshAt (slot : SignalSlot Output) (provider : SignalDataProvider)
    (now : Instant) : Refreshed slot (slot.shouldRefreshAt provider now).1 := by
  unfold SignalSlot.shouldRefreshAt
  dsimp only
  split
  · exact Refreshed.refl slot
  · exact ⟨rfl, rfl, rfl, id, id⟩

theorem refreshed_processTick (slot : SignalSlot Output) (provider : SignalDataProvider)
    (now : Instant) : Refreshed slot (slot.processTick provider now) := by
  unfold SignalSlot.processTick
  split
  · exact refreshed_computeSignalAt slot provider now
  · dsimp only
    split
    · exact (refreshed_shouldRefreshAt slot provider now).trans
        (refreshed_computeSignalAt _ provider now)
    · exact refreshed_shouldRefreshAt slot provider now

theorem refreshed_processArrival (slot : SignalSlot Output) (provider : SignalDataProvider)
    (now : Instant) : Refreshed slot (slot.processArrival provider now) := by
  unfold SignalSlot.processArrival
  dsimp only
  split
  · have h := (refreshed_shouldRefreshAt slot provider now).trans
      (refreshed_computeSignalAt _ provider now)
    exact ⟨h.worker, h.staleState, h.total, h.stamped, h.cold⟩
  · exact refreshed_shouldRefreshAt slot provider now

theorem processTick_result (slot : SignalSlot Output) (provider : SignalDataProvider)
    (now : Instant) : (slot.processTick provider now).result.isSome = true := by
  have hcold := (refreshed_processTick slot provider now).cold
  cases hresult : (slot.processTick provider now).result with
  | some result => rfl
  | none =>
      unfold SignalSlot.processTick at hresult
      rw [hcold hresult] at hresult
      cases hresult

/-- The cached result of a worker carries the signal, the staleness and the resolution that would
be computed at a moment. -/
structure Current (slot : SignalSlot Output) (provider : SignalDataProvider) (now : Instant) :
    Prop where
  resolved : slot.result.map WorkerResult.resolved =
    (slot.computeSignalAt provider now).result.map WorkerResult.resolved
  isStale : slot.result.map WorkerResult.isStale =
    (slot.computeSignalAt provider now).result.map WorkerResult.isStale
  resolution : slot.lastResolution = (slot.computeSignalAt provider now).lastResolution

/-- If the signal of a moment has the stamp of receipt of the one that is served, and is as stale,
it is that one. -/
def Distinguished (slot : SignalSlot Output) (provider : SignalDataProvider) (now : Instant) :
    Prop :=
  ∀ result ∈ slot.result,
    (provider.nearest now slot.worker.symbol).map ResolvedSignal.collectedMsc =
        result.resolved.map ResolvedSignal.collectedMsc →
      slot.worker.evaluateStale (provider.nearest now slot.worker.symbol) now = result.isStale →
        provider.nearest now slot.worker.symbol = result.resolved

theorem current_iff : Current slot provider now ↔ ∃ result, slot.result = some result ∧
    result.resolved = provider.nearest now slot.worker.symbol ∧
    result.isStale =
      slot.worker.evaluateStale (provider.nearest now slot.worker.symbol) now ∧
    slot.lastResolution = classify (provider.nearest now slot.worker.symbol)
      (slot.worker.evaluateStale (provider.nearest now slot.worker.symbol) now) := by
  constructor
  · rintro ⟨hresolved, hstale, hresolution⟩
    cases hresult : slot.result with
    | none =>
        rw [hresult] at hresolved
        cases hresolved
    | some result =>
        rw [hresult] at hresolved hstale
        exact ⟨result, rfl, Option.some.inj hresolved, Option.some.inj hstale, hresolution⟩
  · rintro ⟨result, hresult, hresolved, hstale, hresolution⟩
    refine ⟨?_, ?_, hresolution⟩
    · rw [hresult, Option.map_some, hresolved]
      rfl
    · rw [hresult, Option.map_some, hstale]
      rfl

theorem current_computeSignalAt (slot : SignalSlot Output) (provider : SignalDataProvider)
    (now : Instant) : Current (slot.computeSignalAt provider now) provider now := by
  apply current_iff.mpr
  rw [(refreshed_computeSignalAt slot provider now).worker]
  exact ⟨_, rfl, rfl, rfl, rfl⟩

/-- After a tick the cached result is current exactly if the stamp tells the signal. -/
theorem current_processTick_iff (h : Stamped slot) :
    Current (slot.processTick provider now) provider now ↔ Distinguished slot provider now := by
  unfold SignalSlot.processTick Distinguished
  cases hresult : slot.result with
  | none =>
      exact iff_of_true (current_computeSignalAt slot provider now) fun _ hmem => (nomatch hmem)
  | some result =>
      obtain ⟨hstamp, hserved⟩ := h result hresult
      dsimp only
      unfold SignalSlot.shouldRefreshAt
      by_cases hsame : (provider.nearest now slot.worker.symbol).map ResolvedSignal.collectedMsc =
          slot.lastSnapshotMsc
      · rw [if_neg (not_not.mpr hsame), hserved]
        by_cases hstale : slot.worker.evaluateStale (provider.nearest now slot.worker.symbol) now =
            result.isStale
        · simp only [hstale, ne_eq, not_true_eq_false, decide_false, Bool.false_eq_true, if_false,
            current_iff, hresult, Option.some.injEq, exists_eq_left', Option.mem_def, forall_eq',
            and_true, hsame, hstamp, forall_const]
          exact eq_comm
        · simp only [Option.some.injEq, hstale, ne_eq, not_false_eq_true, decide_true, if_true]
          refine iff_of_true (current_computeSignalAt _ provider now) ?_
          rintro _ ⟨⟩ - hsame'
          exact absurd hsame' hstale
      · rw [if_pos hsame]
        refine iff_of_true (current_computeSignalAt slot provider now) ?_
        rintro _ ⟨⟩ hsame'
        exact absurd (hsame'.trans hstamp.symm) hsame

theorem observe_frame (slot : SignalSlot Output) (tickTime : Instant) (counting : Bool) :
    (slot.observe tickTime counting).worker = slot.worker ∧
      (slot.observe tickTime counting).result = slot.result ∧
      (slot.observe tickTime counting).lastSnapshotMsc = slot.lastSnapshotMsc ∧
      (slot.observe tickTime counting).lastServedStale = slot.lastServedStale ∧
      (slot.observe tickTime counting).lastResolution = slot.lastResolution := by
  unfold SignalSlot.observe
  cases hresult : slot.result with
  | none => exact ⟨rfl, hresult, rfl, rfl, rfl⟩
  | some result =>
      cases counting with
      | false => exact ⟨rfl, hresult, rfl, rfl, rfl⟩
      | true =>
          unfold SignalSlot.countTick
          cases slot.lastResolution <;> exact ⟨rfl, hresult, rfl, rfl, rfl⟩

theorem current_observe_iff (tickTime : Instant) (counting : Bool) :
    Current (slot.observe tickTime counting) provider now ↔ Current slot provider now := by
  obtain ⟨hworker, hresult, -, -, hresolution⟩ := observe_frame slot tickTime counting
  rw [current_iff, current_iff, hworker, hresult, hresolution]

theorem staleState_observe (slot : SignalSlot Output) (tickTime : Instant) (counting : Bool)
    (hcold : slot.result = none → slot.staleState = false) :
    (slot.observe tickTime counting).staleState = servesStale slot := by
  unfold SignalSlot.observe servesStale
  cases hresult : slot.result with
  | none => exact hcold hresult
  | some result => rfl

theorem totalTicks_observe (slot : SignalSlot Output) (tickTime : Instant) (counting : Bool)
    (hresult : counting = true → slot.result.isSome = true) :
    totalTicks (slot.observe tickTime counting) =
      totalTicks slot + if counting = true then 1 else 0 := by
  unfold SignalSlot.observe
  cases hcached : slot.result with
  | none =>
      cases counting with
      | false => rfl
      | true =>
          rw [hcached] at hresult
          cases hresult rfl
  | some result =>
      cases counting with
      | false => rfl
      | true =>
          unfold SignalSlot.countTick totalTicks
          cases slot.lastResolution <;> (simp only [if_true]; omega)

end Slots

section Steps

variable {orchestrator next : WorkerOrchestrator Output} {now : Instant}

/-- A pass of an orchestrator: its workers are refreshed and then observed. -/
structure Passed (orchestrator next : WorkerOrchestrator Output) (slots : List (SignalSlot Output))
    (now : Instant) (counting : Bool) : Prop where
  refreshed : List.Forall₂ Refreshed orchestrator.slots slots
  computed : counting = true → ∀ slot ∈ slots, slot.result.isSome = true
  observed : next.slots = slots.map fun slot => slot.observe now counting
  notified : next.onSignalStale = orchestrator.onSignalStale ++
    (slots.filter SignalSlot.becomesStale).map fun slot =>
      (slot.worker.name, slot.worker.consumedSignalKind)
  ticks : next.ticksProcessed = orchestrator.ticksProcessed + if counting = true then 1 else 0

theorem processTick_eq_ok (h : orchestrator.processTick now = .ok next) :
    ∃ refreshed, List.Forall₂ (fun slot slot' => ∃ provider,
        orchestrator.requireProvider slot.worker = .ok provider ∧
          slot' = slot.processTick provider now) orchestrator.slots refreshed ∧
      next.providers = orchestrator.providers ∧
      next.slots = refreshed.map (fun slot => slot.observe now true) ∧
      next.onSignalStale = orchestrator.onSignalStale ++
        (refreshed.filter SignalSlot.becomesStale).map (fun slot =>
          (slot.worker.name, slot.worker.consumedSignalKind)) ∧
      next.ticksProcessed = orchestrator.ticksProcessed + 1 := by
  obtain ⟨refreshed, hrefreshed, hnext⟩ := Run.bind_eq_ok.mp h
  refine ⟨refreshed, (Pointwise.mapM_eq_ok_iff.mp hrefreshed).imp fun slot slot' hslot => ?_, ?_⟩
  · obtain ⟨provider, hprovider, hslot'⟩ := Run.bind_eq_ok.mp hslot
    exact ⟨provider, hprovider, (Except.ok.inj hslot').symm⟩
  · rw [← Except.ok.inj hnext]
    cases refreshed with
    | nil => exact ⟨rfl, rfl, (List.append_nil _).symm, rfl⟩
    | cons slot slots => exact ⟨rfl, rfl, rfl, rfl⟩

theorem Passed.of_processTick (h : orchestrator.processTick now = .ok next) :
    ∃ refreshed, Passed orchestrator next refreshed now true := by
  obtain ⟨refreshed, hslots, -, hnext, hnotified, hticks⟩ := processTick_eq_ok h
  refine ⟨refreshed, hslots.imp ?_, fun _ slot hslot => ?_, hnext, hnotified, hticks⟩
  · rintro slot slot' ⟨provider, -, rfl⟩
    exact refreshed_processTick slot provider now
  · obtain ⟨before, -, provider, -, rfl⟩ := Pointwise.exists_left hslots hslot
    exact processTick_result before provider now

/-- An operation without a pass leaves the workers, the notifications and the ticks. -/
structure Quiet (orchestrator next : WorkerOrchestrator Output) : Prop where
  slots : next.slots = orchestrator.slots
  notified : next.onSignalStale = orchestrator.onSignalStale
  ticks : next.ticksProcessed = orchestrator.ticksProcessed

theorem processSignalArrivals_cases {arrivals : Dict String (List SignalSnapshot)}
    (h : orchestrator.processSignalArrivals arrivals now = .ok next) :
    Quiet orchestrator next ∨ ∃ refreshed, Passed orchestrator next refreshed now false := by
  unfold WorkerOrchestrator.processSignalArrivals at h
  dsimp only at h
  split at h
  · exact Or.inl (Except.ok.inj h ▸ ⟨rfl, rfl, rfl⟩)
  · obtain ⟨refreshed, hrefreshed, hnext⟩ := Run.bind_eq_ok.mp h
    refine Or.inr ⟨refreshed, ?_⟩
    rw [← Except.ok.inj hnext]
    refine ⟨(Pointwise.mapM_eq_ok_iff.mp hrefreshed).imp fun slot slot' hslot => ?_,
      fun hcounting => (nomatch hcounting), rfl, rfl, rfl⟩
    split at hslot
    · obtain ⟨provider, -, hslot'⟩ := Run.bind_eq_ok.mp hslot
      exact Except.ok.inj hslot' ▸ refreshed_processArrival slot provider now
    · exact Except.ok.inj hslot ▸ Refreshed.refl slot

def isTick : Operation → Bool
  | .tick _ => true
  | _ => false

theorem step_cases {operation : Operation} (h : orchestrator.step operation = .ok next) :
    isTick operation = false ∧ Quiet orchestrator next ∨
      ∃ refreshed now, Passed orchestrator next refreshed now (isTick operation) := by
  cases operation with
  | tick now =>
      obtain ⟨refreshed, hpassed⟩ := Passed.of_processTick h
      exact Or.inr ⟨refreshed, now, hpassed⟩
  | merge arrivals => exact Or.inl ⟨rfl, Except.ok.inj h ▸ ⟨rfl, rfl, rfl⟩⟩
  | arrive arrivals now =>
      rcases processSignalArrivals_cases h with hquiet | ⟨refreshed, hpassed⟩
      · exact Or.inl ⟨rfl, hquiet⟩
      · exact Or.inr ⟨refreshed, now, hpassed⟩

end Steps

section Runs

variable {orchestrator next : WorkerOrchestrator Output} {now : Instant}

/-- Between two operations the tracking of every worker agrees with its cached result, and every
tick has been counted for it. -/
structure Healthy (orchestrator : WorkerOrchestrator Output) : Prop where
  distinct : (orchestrator.slots.map fun slot => slot.worker.name).Nodup
  stamped : ∀ slot ∈ orchestrator.slots, Stamped slot
  edge : ∀ slot ∈ orchestrator.slots, slot.staleState = servesStale slot
  counted : ∀ slot ∈ orchestrator.slots, totalTicks slot = orchestrator.ticksProcessed

theorem Refreshed.staleState_eq {slot refreshed : SignalSlot Output} (h : Refreshed slot refreshed)
    (hedge : slot.staleState = servesStale slot) : refreshed.staleState = servesStale slot ∧
      (refreshed.result = none → refreshed.staleState = false) := by
  refine ⟨h.staleState.trans hedge, fun hnone => ?_⟩
  rw [h.staleState, hedge, servesStale, h.cold hnone]
  rfl

theorem Healthy.of_passed {slots : List (SignalSlot Output)} {counting : Bool}
    (h : Healthy orchestrator) (hpassed : Passed orchestrator next slots now counting) :
    Healthy next := by
  have hnames : next.slots.map (fun slot => slot.worker.name) =
      orchestrator.slots.map fun slot => slot.worker.name := by
    rw [hpassed.observed, List.map_map]
    refine (Pointwise.map_eq_map (fun slot refreshed hslot => ?_) hpassed.refreshed).symm
    rw [Function.comp_apply, (observe_frame refreshed now counting).1, hslot.worker]
  have hslots : ∀ slot' ∈ next.slots, ∃ slot ∈ orchestrator.slots, ∃ refreshed ∈ slots,
      Refreshed slot refreshed ∧ slot' = refreshed.observe now counting := by
    intro slot' hmem
    rw [hpassed.observed] at hmem
    obtain ⟨refreshed, hrefreshed, rfl⟩ := List.mem_map.mp hmem
    obtain ⟨slot, hslot, hboth⟩ := Pointwise.exists_left hpassed.refreshed hrefreshed
    exact ⟨slot, hslot, refreshed, hrefreshed, hboth, rfl⟩
  refine ⟨hnames ▸ h.distinct, ?_, ?_, ?_⟩
  · intro slot' hmem result hresult
    obtain ⟨slot, hslot, refreshed, -, hboth, rfl⟩ := hslots slot' hmem
    obtain ⟨-, hsame, hstamp, hserved, -⟩ := observe_frame refreshed now counting
    rw [hstamp, hserved]
    exact hboth.stamped (h.stamped slot hslot) result (hsame ▸ hresult)
  · intro slot' hmem
    obtain ⟨slot, hslot, refreshed, -, hboth, rfl⟩ := hslots slot' hmem
    rw [staleState_observe refreshed now counting (hboth.staleState_eq (h.edge slot hslot)).2,
      servesStale, servesStale, (observe_frame refreshed now counting).2.1]
  · intro slot' hmem
    obtain ⟨slot, hslot, refreshed, hrefreshed, hboth, rfl⟩ := hslots slot' hmem
    rw [totalTicks_observe refreshed now counting fun hcounting =>
      hpassed.computed hcounting refreshed hrefreshed, hboth.total, h.counted slot hslot,
      hpassed.ticks]

/-- The notifications of a pass for a worker: one, if its result has become stale. -/
theorem countP_notified {slots : List (SignalSlot Output)} {slot : SignalSlot Output}
    (hnodup : (slots.map fun slot => slot.worker.name).Nodup) (hmem : slot ∈ slots) :
    ((slots.filter SignalSlot.becomesStale).map fun slot =>
        (slot.worker.name, slot.worker.consumedSignalKind)).countP
        (fun call => call.1 = slot.worker.name) =
      if slot.becomesStale = true then 1 else 0 := by
  rw [List.countP_map, List.countP_filter]
  exact Lists.countP_of_nodup hnodup hmem

def staleAt (place : ℕ) (orchestrator : WorkerOrchestrator Output) : Bool :=
  orchestrator.slots[place]?.any servesStale

def staleEdges (held : Bool) : List Bool → ℕ
  | [] => 0
  | stale :: results => (if stale && !held then 1 else 0) + staleEdges stale results

theorem Passed.notified_count {slots : List (SignalSlot Output)} {counting : Bool}
    (h : Healthy orchestrator) (hpassed : Passed orchestrator next slots now counting)
    {place : ℕ} {slot : SignalSlot Output} (hplace : orchestrator.slots[place]? = some slot) :
    ∃ slot', next.slots[place]? = some slot' ∧ slot'.worker = slot.worker ∧
      next.onSignalStale.countP (fun call => call.1 = slot.worker.name) =
        orchestrator.onSignalStale.countP (fun call => call.1 = slot.worker.name) +
          if servesStale slot' && !servesStale slot then 1 else 0 := by
  obtain ⟨refreshed, hrefreshed, hboth⟩ := Pointwise.of_getElem? hpassed.refreshed hplace
  obtain ⟨hworker, hresult, -⟩ := observe_frame refreshed now counting
  have hnodup : (slots.map fun slot => slot.worker.name).Nodup := by
    rw [← Pointwise.map_eq_map (fun slot refreshed hslot => ?_) hpassed.refreshed]
    · exact h.distinct
    · rw [hslot.worker]
  refine ⟨refreshed.observe now counting, ?_, hworker.trans hboth.worker, ?_⟩
  · rw [hpassed.observed, List.getElem?_map, hrefreshed]
    rfl
  · rw [hpassed.notified, List.countP_append, ← hboth.worker,
      countP_notified hnodup (List.mem_of_getElem? hrefreshed), SignalSlot.becomesStale,
      (hboth.staleState_eq (h.edge slot (List.mem_of_getElem? hplace))).1]
    simp only [servesStale, hresult]
    rfl

/-- What a step of an orchestrator does to its counters and its notifications. -/
structure Stepped (orchestrator next : WorkerOrchestrator Output) (operation : Operation) : Prop
    where
  healthy : Healthy next
  ticks : next.ticksProcessed = orchestrator.ticksProcessed +
    if isTick operation = true then 1 else 0
  notified : ∀ (place : ℕ) (slot : SignalSlot Output), orchestrator.slots[place]? = some slot →
    ∃ slot', next.slots[place]? = some slot' ∧ slot'.worker = slot.worker ∧
      next.onSignalStale.countP (fun call => call.1 = slot.worker.name) =
        orchestrator.onSignalStale.countP (fun call => call.1 = slot.worker.name) +
          if servesStale slot' && !servesStale slot then 1 else 0

theorem Healthy.step {operation : Operation} (h : Healthy orchestrator)
    (hstep : orchestrator.step operation = .ok next) : Stepped orchestrator next operation := by
  rcases step_cases hstep with ⟨htick, hquiet⟩ | ⟨slots, now, hpassed⟩
  · refine ⟨⟨?_, ?_, ?_, ?_⟩, ?_, fun place slot hplace => ⟨slot, ?_, rfl, ?_⟩⟩
    · exact hquiet.slots ▸ h.distinct
    · exact hquiet.slots ▸ h.stamped
    · exact hquiet.slots ▸ h.edge
    · exact hquiet.slots ▸ hquiet.ticks ▸ h.counted
    · rw [hquiet.ticks, htick]
      rfl
    · exact hquiet.slots ▸ hplace
    · rw [hquiet.notified]
      simp
  · exact ⟨h.of_passed hpassed, hpassed.ticks, fun place slot hplace =>
      hpassed.notified_count h hplace⟩

/-- After a run every worker has been counted at each tick, and the decision logic notified of it
as often as its results became stale. -/
theorem run_spec {operations : List Operation} {states : List (WorkerOrchestrator Output)}
    (h : Healthy orchestrator) (hrun : orchestrator.run operations = .ok states) :
    Healthy (states.getLastD orchestrator) ∧
      (states.getLastD orchestrator).ticksProcessed =
        orchestrator.ticksProcessed + operations.countP isTick ∧
      ∀ place slot, orchestrator.slots[place]? = some slot →
        ∃ slot', (states.getLastD orchestrator).slots[place]? = some slot' ∧
          slot'.worker = slot.worker ∧
          (states.getLastD orchestrator).onSignalStale.countP
              (fun call => call.1 = slot.worker.name) =
            orchestrator.onSignalStale.countP (fun call => call.1 = slot.worker.name) +
              staleEdges (servesStale slot) (states.map (staleAt place)) := by
  induction operations generalizing orchestrator states with
  | nil =>
      cases hrun
      exact ⟨h, rfl, fun place slot hplace => ⟨slot, hplace, rfl, rfl⟩⟩
  | cons operation operations ih =>
      obtain ⟨next, hstep, hrest⟩ := Run.bind_eq_ok.mp hrun
      obtain ⟨later, hlater, hstates⟩ := Run.bind_eq_ok.mp hrest
      cases hstates
      have hnext := h.step hstep
      obtain ⟨hhealthy, hticks, hslots⟩ := ih hnext.healthy hlater
      rw [List.getLastD_cons]
      refine ⟨hhealthy, ?_, fun place slot hplace => ?_⟩
      · rw [hticks, hnext.ticks, List.countP_cons]
        omega
      · obtain ⟨slot', hplace', hworker, hcount⟩ := hnext.notified place slot hplace
        obtain ⟨final, hfinal, hworker', hcount'⟩ := hslots place slot' hplace'
        rw [hworker] at hcount'
        refine ⟨final, hfinal, hworker'.trans hworker, ?_⟩
        have hstale : staleAt place next = servesStale slot' := by
          rw [staleAt, hplace']
          rfl
        rw [hcount', hcount, List.map_cons, hstale, staleEdges]
        omega

theorem run_step {operations : List Operation} {states : List (WorkerOrchestrator Output)}
    (h : Healthy orchestrator) (hrun : orchestrator.run operations = .ok states) {place : ℕ}
    {operation : Operation} (hplace : operations[place]? = some operation) :
    ∃ before after, (orchestrator :: states)[place]? = some before ∧
      states[place]? = some after ∧ Healthy before ∧ before.step operation = .ok after := by
  induction operations generalizing orchestrator states place with
  | nil => cases hplace
  | cons first operations ih =>
      obtain ⟨next, hstep, hrest⟩ := Run.bind_eq_ok.mp hrun
      obtain ⟨later, hlater, hstates⟩ := Run.bind_eq_ok.mp hrest
      cases hstates
      cases place with
      | zero =>
          cases hplace
          exact ⟨orchestrator, next, rfl, rfl, h, hstep⟩
      | succ place =>
          obtain ⟨before, after, hbefore, hafter, hboth⟩ := ih (h.step hstep).healthy hlater hplace
          exact ⟨before, after, hbefore, hafter, hboth⟩

theorem healthy_ofWorkers {workers : List (SignalWorker Output)}
    {providers : List SignalDataProvider}
    (hdistinct : (workers.map SignalWorker.name).Nodup) :
    Healthy (WorkerOrchestrator.ofWorkers workers providers) := by
  have hslots : ∀ slot ∈ (WorkerOrchestrator.ofWorkers workers providers).slots,
      ∃ worker, slot = { worker := worker } := by
    intro slot hslot
    obtain ⟨worker, -, rfl⟩ := List.mem_map.mp hslot
    exact ⟨worker, rfl⟩
  refine ⟨?_, ?_, ?_, ?_⟩
  · unfold WorkerOrchestrator.ofWorkers
    rw [List.map_map]
    exact hdistinct
  · intro slot hslot result hresult
    obtain ⟨worker, rfl⟩ := hslots slot hslot
    cases hresult
  · intro slot hslot
    obtain ⟨worker, rfl⟩ := hslots slot hslot
    rfl
  · intro slot hslot
    obtain ⟨worker, rfl⟩ := hslots slot hslot
    rfl

end Runs

section Served

variable {before after : WorkerOrchestrator Output} {now : Instant}

/-- Every worker serves what it would compute at a moment. -/
def ServesCurrent (orchestrator : WorkerOrchestrator Output) (now : Instant) : Prop :=
  ∀ slot ∈ orchestrator.slots, ∀ provider,
    orchestrator.requireProvider slot.worker = .ok provider → Current slot provider now

/-- For every worker the stamp of receipt and the staleness tell the signal of a moment from the
one that it serves. -/
def Distinguishes (orchestrator : WorkerOrchestrator Output) (now : Instant) : Prop :=
  ∀ slot ∈ orchestrator.slots, ∀ provider,
    orchestrator.requireProvider slot.worker = .ok provider → Distinguished slot provider now

theorem servesCurrent_iff (h : Healthy before) (htick : before.processTick now = .ok after) :
    ServesCurrent after now ↔ Distinguishes before now := by
  obtain ⟨refreshed, hslots, hproviders, hafter, -⟩ := processTick_eq_ok htick
  have hsame : ∀ worker, after.requireProvider worker = before.requireProvider worker := by
    intro worker
    unfold WorkerOrchestrator.requireProvider
    rw [hproviders]
  constructor
  · intro hserves slot hslot provider hprovider
    obtain ⟨place, hplace⟩ := List.getElem?_of_mem hslot
    obtain ⟨slot', hslot', provider', hprovider', rfl⟩ := Pointwise.of_getElem? hslots hplace
    rw [hprovider] at hprovider'
    cases hprovider'
    apply (current_processTick_iff (h.stamped slot hslot)).mp
    apply (current_observe_iff now true).mp
    apply hserves
    · rw [hafter]
      exact List.mem_map_of_mem (List.mem_of_getElem? hslot')
    · rw [hsame, (observe_frame _ now true).1, (refreshed_processTick slot provider now).worker]
      exact hprovider
  · intro hdistinguishes slot' hslot' provider hprovider
    rw [hafter] at hslot'
    obtain ⟨slot', hmem, rfl⟩ := List.mem_map.mp hslot'
    obtain ⟨slot, hslot, provider', hprovider', rfl⟩ := Pointwise.exists_left hslots hmem
    rw [hsame, (observe_frame _ now true).1, (refreshed_processTick slot provider' now).worker,
      hprovider'] at hprovider
    cases hprovider
    apply (current_observe_iff now true).mpr
    apply (current_processTick_iff (h.stamped slot hslot)).mpr
    exact hdistinguishes slot hslot _ hprovider'

/-- In every run of an orchestrator each tick is counted once and each turn to a stale result is
notified once; after a tick the results are current exactly if their stamps told them apart. -/
theorem run_serves {workers : List (SignalWorker Output)} {providers : List SignalDataProvider}
    {operations : List Operation} {states : List (WorkerOrchestrator Output)}
    (hdistinct : (workers.map SignalWorker.name).Nodup)
    (hrun : (WorkerOrchestrator.ofWorkers workers providers).run operations = .ok states) :
    (∀ slot ∈ (states.getLastD (WorkerOrchestrator.ofWorkers workers providers)).slots,
      slot.freshTicks + slot.staleTicks + slot.blindTicks = operations.countP isTick) ∧
    (∀ place worker, workers[place]? = some worker →
      (states.getLastD (WorkerOrchestrator.ofWorkers workers providers)).onSignalStale.countP
        (fun call => call.1 = worker.name) = staleEdges false (states.map (staleAt place))) ∧
    ∀ (place : ℕ) (now : Instant) (before after : WorkerOrchestrator Output),
      operations[place]? = some (Operation.tick now) →
      (WorkerOrchestrator.ofWorkers workers providers :: states)[place]? = some before →
        states[place]? = some after → (ServesCurrent after now ↔ Distinguishes before now) := by
  have hhealthy : Healthy (WorkerOrchestrator.ofWorkers workers providers) :=
    healthy_ofWorkers hdistinct
  obtain ⟨hfinal, hticks, hnotified⟩ := run_spec hhealthy hrun
  refine ⟨fun slot hslot => ?_, fun place worker hworker => ?_, ?_⟩
  · exact (hfinal.counted slot hslot).trans (hticks.trans (Nat.zero_add _))
  · have hplace : (WorkerOrchestrator.ofWorkers workers providers).slots[place]? =
        some { worker := worker } := by
      unfold WorkerOrchestrator.ofWorkers
      rw [List.getElem?_map, hworker]
      rfl
    obtain ⟨slot, -, -, hcount⟩ := hnotified place _ hplace
    exact hcount.trans (Nat.zero_add _)
  · intro place now before after hoperation hbefore hafter
    obtain ⟨before', after', hbefore', hafter', hbound, hstep⟩ := run_step hhealthy hrun hoperation
    rw [hbefore] at hbefore'
    rw [hafter] at hafter'
    cases hbefore'
    cases hafter'
    exact servesCurrent_iff hbound hstep

def reader : SignalWorker Unit where
  name := "reader"
  consumedSignalKind := "news"
  symbol := "EURUSD"
  provider := some 0
  evaluateStale := olderThan 1
  buildResult := fun _ _ _ => ()

def news (seq : ℤ) (signal : String) (available received : Instant) : SignalSnapshot :=
  { numbered seq received available with result := [{ symbol := "EURUSD", signal := signal }] }

def readerStates (archive : List SignalSnapshot) (operations : List Operation) :
    List (WorkerOrchestrator Unit) :=
  ((WorkerOrchestrator.ofWorkers [reader] [SignalDataProvider.ofSeries ⟨"news", archive⟩]).run
    operations).toOption.getD []

theorem readerStates_eq {archive : List SignalSnapshot} {operations : List Operation}
    (h : ((WorkerOrchestrator.ofWorkers [reader]
      [SignalDataProvider.ofSeries ⟨"news", archive⟩]).run operations).toOption.isSome = true) :
    (WorkerOrchestrator.ofWorkers [reader] [SignalDataProvider.ofSeries ⟨"news", archive⟩]).run
      operations = .ok (readerStates archive operations) := by
  unfold readerStates
  cases hrun : (WorkerOrchestrator.ofWorkers [reader]
      [SignalDataProvider.ofSeries ⟨"news", archive⟩]).run operations with
  | ok states => rfl
  | error err =>
      rw [hrun] at h
      cases h

theorem run_serves_outage :
    let archive := [news 1 "BUY" 10 20]
    let operations : List Operation :=
      [.tick 15, .tick 70000000,
        .arrive ⟨[("news", [news 2 "SELL" 70000010 70000020])], by decide⟩ 70000030, .tick 70000040]
    let start := WorkerOrchestrator.ofWorkers [reader]
      [SignalDataProvider.ofSeries ⟨"news", archive⟩]
    (∀ slot ∈ ((readerStates archive operations).getLastD start).slots,
      slot.freshTicks + slot.staleTicks + slot.blindTicks = operations.countP isTick) ∧
    (∀ place worker, [reader][place]? = some worker →
      ((readerStates archive operations).getLastD start).onSignalStale.countP
        (fun call => call.1 = worker.name) =
          staleEdges false ((readerStates archive operations).map (staleAt place))) ∧
    ∀ (place : ℕ) (now : Instant) (before after : WorkerOrchestrator Unit),
      operations[place]? = some (Operation.tick now) →
      (start :: readerStates archive operations)[place]? = some before →
        (readerStates archive operations)[place]? = some after →
          (ServesCurrent after now ↔ Distinguishes before now) :=
  run_serves (by decide +kernel) (readerStates_eq (by decide +kernel))

def servesResolved (orchestrator : WorkerOrchestrator Output) (now : Instant) : Bool :=
  orchestrator.slots.all fun slot =>
    match orchestrator.requireProvider slot.worker with
    | .ok provider => decide (slot.result.map WorkerResult.resolved =
        (slot.computeSignalAt provider now).result.map WorkerResult.resolved)
    | .error _ => true

theorem ServesCurrent.resolved {orchestrator : WorkerOrchestrator Output}
    (h : ServesCurrent orchestrator now) : servesResolved orchestrator now = true := by
  apply List.all_eq_true.mpr
  intro slot hslot
  cases hprovider : orchestrator.requireProvider slot.worker with
  | error err => rfl
  | ok provider => exact decide_eq_true (h slot hslot provider hprovider).resolved

def moment : Operation → Option Instant
  | .tick now => some now
  | .merge _ => none
  | .arrive _ now => some now

def together : List SignalSnapshot := [news 1 "BUY" 90 100, news 2 "SELL" 95 100]

/-- Of two snapshots that were received at one moment the first stays. -/
theorem received_together :
    ¬∀ (workers : List (SignalWorker Unit)) (providers : List SignalDataProvider)
      (operations : List Operation) (states : List (WorkerOrchestrator Unit)),
      (workers.map SignalWorker.name).Nodup → (operations.filterMap moment).Pairwise (· ≤ ·) →
        (WorkerOrchestrator.ofWorkers workers providers).run operations = .ok states →
          ∀ (place : ℕ) (now : Instant) (after : WorkerOrchestrator Unit),
            operations[place]? = some (Operation.tick now) → states[place]? = some after →
              ServesCurrent after now := by
  intro h
  have hrun : (WorkerOrchestrator.ofWorkers [reader]
      [SignalDataProvider.ofSeries ⟨"news", together⟩]).run [.tick 92, .tick 96] =
        .ok (readerStates together [.tick 92, .tick 96]) :=
    readerStates_eq (by decide +kernel)
  obtain ⟨after, hafter⟩ : ∃ after,
      (readerStates together [.tick 92, .tick 96])[1]? = some after :=
    Option.isSome_iff_exists.mp (by decide +kernel)
  have hserves := (h _ _ _ _ (by decide) (by decide +kernel) hrun 1 96 after rfl hafter).resolved
  have hfirst : (readerStates together [.tick 92, .tick 96])[1]?.map
      (fun state => servesResolved state 96) = some false := by decide +kernel
  rw [hafter, Option.map_some, hserves] at hfirst
  cases hfirst

end Served

end Finiex.SignalServing
