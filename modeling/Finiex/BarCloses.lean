import Finiex.BarHistory
import Finiex.Lib.Grouping
import Mathlib.Data.List.DropRight

namespace Finiex.BarCloses

open Finiex.Types
open Finiex.Bars
open Finiex.BarHistory
open Finiex.Lib

section Workers

inductive ComputeBasis
  | live | barClose
  deriving DecidableEq

abbrev BarsHandedOver := Timeframe → Option (List Bar)

abbrev CurrentBars := Timeframe → Option Bar

inductive WorkerKind (ω : Type)
  | indicator (basis : ComputeBasis) (timeframes : List Timeframe)
      (compute : TickData → BarsHandedOver → CurrentBars → ω)
  | signal (computeSignal : TickData → ω)

structure Worker (ω : Type) where
  name : String
  kind : WorkerKind ω

variable {ω : Type}

def Worker.getRequiredTimeframes (worker : Worker ω) : List Timeframe :=
  match worker.kind with
  | .indicator _ timeframes _ => timeframes
  | .signal _ => []

def Worker.computesOnClose (worker : Worker ω) : Bool :=
  match worker.kind with
  | .indicator basis _ _ => decide (basis = .barClose)
  | .signal _ => false

def Worker.run (worker : Worker ω) (tick : TickData) (barHistory : BarsHandedOver)
    (currentBars : CurrentBars) : ω :=
  match worker.kind with
  | .indicator _ _ compute => compute tick barHistory currentBars
  | .signal computeSignal => computeSignal tick

def getRequiredTimeframes (workers : List (Worker ω)) : List Timeframe :=
  (workers.flatMap Worker.getRequiredTimeframes).dedup

/-- An order in which the futures of a pass complete. -/
structure Completion (α : Type) where
  order : List α → List α := id
  perm : ∀ due, (order due).Perm due := by exact fun _ => List.Perm.refl _

/-- A tick of the loop, with what its pass finds: the answers of `should_recompute` and
`should_refresh` by worker, and the order in which parallel workers complete. -/
structure LoopTick (ω : Type) where
  data : TickData
  isClipped : Bool := false
  refreshes : String → Bool := fun _ => true
  completion : Completion (Worker ω) := {}

structure WorkerOrchestrator (ω : Type) where
  workers : List (Worker ω)
  distinct : (workers.map Worker.name).Nodup
  parallelWorkers : Bool := false
  workerResults : Dict String ω := ∅

def workerNeedsRecompute (workerResults : Dict String ω) (refreshes : String → Bool)
    (closedTimeframes : Timeframe → Bool) (worker : Worker ω) : Bool :=
  match worker.kind with
  | .signal _ => !workerResults.contains worker.name || refreshes worker.name
  | .indicator .barClose timeframes _ =>
      !workerResults.contains worker.name || timeframes.any closedTimeframes
  | .indicator .live _ _ => refreshes worker.name

def filterBarHistoryForWorker (worker : Worker ω) (barHistory : BarsHandedOver) :
    BarsHandedOver :=
  fun timeframe =>
    if timeframe ∈ worker.getRequiredTimeframes then barHistory timeframe else none

def computed (tick : TickData) (barHistory : BarsHandedOver) (currentBars : CurrentBars)
    (worker : Worker ω) : ω :=
  worker.run tick (filterBarHistoryForWorker worker barHistory) currentBars

/-- `_process_workers_sequential`: each worker is asked when its turn comes. -/
def processWorkersSequential (needs : Dict String ω → Worker ω → Bool) (result : Worker ω → ω)
    (workers : List (Worker ω)) (workerResults : Dict String ω) : Dict String ω :=
  workers.foldl (fun results worker =>
    if needs results worker then results.set worker.name (result worker) else results)
    workerResults

/-- `_process_workers_parallel`: the workers are asked first, and store in any order. -/
def processWorkersParallel (needs : Dict String ω → Worker ω → Bool) (result : Worker ω → ω)
    (completion : Completion (Worker ω)) (workers : List (Worker ω))
    (workerResults : Dict String ω) : Dict String ω :=
  workerResults.assignAll ((completion.order (workers.filter (needs workerResults))).map
    fun worker => (worker.name, result worker))

def WorkerOrchestrator.processTick (orchestrator : WorkerOrchestrator ω) (tick : LoopTick ω)
    (currentBars : CurrentBars) (barHistory : BarsHandedOver)
    (closedTimeframes : Timeframe → Bool) : WorkerOrchestrator ω :=
  let needs := fun results => workerNeedsRecompute results tick.refreshes closedTimeframes
  let result := computed tick.data barHistory currentBars
  { orchestrator with
    workerResults :=
      if orchestrator.parallelWorkers ∧ 1 < orchestrator.workers.length then
        processWorkersParallel needs result tick.completion orchestrator.workers
          orchestrator.workerResults
      else
        processWorkersSequential needs result orchestrator.workers orchestrator.workerResults }

end Workers

section Controller

structure ClosingController extends BarRenderingController where
  pendingClosedTimeframes : Timeframe → Bool := fun _ => false

namespace ClosingController

def processTick (controller : ClosingController) (tick : TickData) : ClosingController where
  toBarRenderingController := controller.toBarRenderingController.processTick tick
  pendingClosedTimeframes := fun timeframe =>
    controller.pendingClosedTimeframes timeframe ||
      (controller.renderer.updateCurrentBars tick controller.requiredTimeframes).2 timeframe

/-- The bars `process_tick` returns. -/
def currentBars (controller : ClosingController) (symbol : String) : CurrentBars :=
  fun timeframe =>
    if timeframe ∈ controller.requiredTimeframes then
      controller.renderer.getCurrentBar symbol timeframe
    else none

/-- The closes since the last call, which clears them. -/
def consumeBarRenderState (controller : ClosingController) :
    ClosingController × (Timeframe → Bool) :=
  ({ controller with pendingClosedTimeframes := fun _ => false },
    controller.pendingClosedTimeframes)

def getAllBarHistory (controller : ClosingController) (symbol : String) :
    ClosingController × BarsHandedOver :=
  let (cached, histories) := controller.toBarRenderingController.getAllBarHistory symbol
  ({ controller with toBarRenderingController := cached }, fun timeframe =>
    if timeframe ∈ controller.requiredTimeframes then some (histories timeframe) else none)

end ClosingController

end Controller

section Loop

variable {ω : Type}

structure LoopState (ω : Type) where
  controller : ClosingController
  orchestrator : WorkerOrchestrator ω

structure AlgoPass (ω : Type) where
  barHistory : BarsHandedOver
  closedTimeframes : Timeframe → Bool
  after : LoopState ω

def executeAlgoPath (symbol : String) (rendered : LoopState ω) (tick : LoopTick ω) :
    AlgoPass ω :=
  let (cached, barHistory) := rendered.controller.getAllBarHistory symbol
  let (consumed, closedTimeframes) := cached.consumeBarRenderState
  { barHistory := barHistory
    closedTimeframes := closedTimeframes
    after :=
      { controller := consumed
        orchestrator := rendered.orchestrator.processTick tick
          (rendered.controller.currentBars tick.data.symbol) barHistory closedTimeframes } }

def renderBarsForTick (state : LoopState ω) (tick : LoopTick ω) : LoopState ω :=
  { state with controller := state.controller.processTick tick.data }

/-- A turn of `execute_tick_loop`: the gate leaves clipped ticks out of the algo path. -/
def loopStep (symbol : String) (state : LoopState ω) (tick : LoopTick ω) : LoopState ω :=
  let rendered := renderBarsForTick state tick
  if tick.isClipped then rendered else (executeAlgoPath symbol rendered tick).after

def runLoop (symbol : String) (state : LoopState ω) (ticks : List (LoopTick ω)) : LoopState ω :=
  ticks.foldl (loopStep symbol) state

def startLoop (symbol : String) (maxHistory : ℕ) (warmupBars : List (Timeframe × List Bar))
    (orchestrator : WorkerOrchestrator ω) : LoopState ω where
  controller :=
    { toBarRenderingController :=
        BarRenderingController.injectWarmupBars
          { renderer := { maxHistory := maxHistory }
            requiredTimeframes := getRequiredTimeframes orchestrator.workers }
          symbol warmupBars }
  orchestrator := { orchestrator with workerResults := ∅ }

def upToLastPass (ticks : List (LoopTick ω)) : List (LoopTick ω) :=
  ticks.rdropWhile LoopTick.isClipped

def sinceLastPass (ticks : List (LoopTick ω)) : List (LoopTick ω) :=
  ticks.rtakeWhile LoopTick.isClipped

end Loop

section Archive

variable {limit : ℕ} {timeframe : Timeframe} {symbol : String}

/-- The bar a tick archives: the open one, when the tick belongs to another period. -/
def archivedBy (timeframe : Timeframe) (tick : TickData) (slot : BarSlot) : Option Bar :=
  if slot.currentBarStart = some (getBarStartTime tick.timestamp timeframe) then none
  else slot.currentBar.map fun current => { current with isComplete := true }

theorem updateSlot_archives (tick : TickData) (slot : BarSlot) :
    (updateSlot limit tick timeframe slot).2 = (archivedBy timeframe tick slot).isSome ∧
      (updateSlot limit tick timeframe slot).1.completedBars =
        (archivedBy timeframe tick slot).toList.foldl (appendDeque limit) slot.completedBars := by
  unfold updateSlot archivedBy
  cases hbar : slot.currentBar with
  | none => simp
  | some current =>
      by_cases hsame : slot.currentBarStart = some (getBarStartTime tick.timestamp timeframe)
      · simp [hsame]
      · simp [hsame]

def slotAfter (limit : ℕ) (timeframe : Timeframe) (slot : BarSlot) (ticks : List TickData) :
    BarSlot :=
  ticks.foldl (fun slot tick => (updateSlot limit tick timeframe slot).1) slot

theorem slotAfter_append (slot : BarSlot) (ticks later : List TickData) :
    slotAfter limit timeframe slot (ticks ++ later) =
      slotAfter limit timeframe (slotAfter limit timeframe slot ticks) later :=
  List.foldl_append

def archivedBars (limit : ℕ) (timeframe : Timeframe) : BarSlot → List TickData → List Bar
  | _, [] => []
  | slot, tick :: ticks =>
      (archivedBy timeframe tick slot).toList ++
        archivedBars limit timeframe (updateSlot limit tick timeframe slot).1 ticks

theorem archivedBars_append (slot : BarSlot) (ticks later : List TickData) :
    archivedBars limit timeframe slot (ticks ++ later) =
      archivedBars limit timeframe slot ticks ++
        archivedBars limit timeframe (slotAfter limit timeframe slot ticks) later := by
  induction ticks generalizing slot with
  | nil => rfl
  | cons tick ticks ih =>
      rw [List.cons_append, archivedBars, archivedBars, ih, List.append_assoc]
      rfl

/-- The history of a slot holds the last of the bars archived into it. -/
theorem slotAfter_completedBars {slot : BarSlot} {bars : List Bar}
    (hbars : slot.completedBars = tail limit bars) (ticks : List TickData) :
    (slotAfter limit timeframe slot ticks).completedBars =
      tail limit (bars ++ archivedBars limit timeframe slot ticks) := by
  induction ticks generalizing slot bars with
  | nil =>
      rw [archivedBars, List.append_nil]
      exact hbars
  | cons tick ticks ih =>
      have hfirst : (updateSlot limit tick timeframe slot).1.completedBars =
          tail limit (bars ++ (archivedBy timeframe tick slot).toList) := by
        rw [(updateSlot_archives tick slot).2, hbars, foldl_appendDeque]
      rw [archivedBars, ← List.append_assoc]
      exact ih hfirst

end Archive

section Results

variable {ω : Type} {result : Worker ω → ω} {worker : Worker ω} {workers : List (Worker ω)}

/-- Whether a worker needs a result depends on the results through its own alone. -/
def AsksForItsOwn (needs : Dict String ω → Worker ω → Bool) : Prop :=
  ∀ results results' : Dict String ω, ∀ worker : Worker ω,
    results.get? worker.name = results'.get? worker.name →
      needs results worker = needs results' worker

variable {needs : Dict String ω → Worker ω → Bool}

theorem get?_processWorkersSequential (hneeds : AsksForItsOwn needs)
    (hdistinct : (workers.map Worker.name).Nodup) (hworker : worker ∈ workers)
    (workerResults : Dict String ω) :
    (processWorkersSequential needs result workers workerResults).get? worker.name =
      if needs workerResults worker then some (result worker)
      else workerResults.get? worker.name := by
  -- on a suffix without the worker nothing is stored under its name
  have hother : ∀ (others : List (Worker ω)) (results : Dict String ω),
      worker.name ∉ others.map Worker.name →
      (processWorkersSequential needs result others results).get? worker.name =
        results.get? worker.name := by
    intro others
    induction others with
    | nil => exact fun _ _ => rfl
    | cons other others ih =>
        intro results habsent
        rw [List.map_cons, List.mem_cons, not_or] at habsent
        rw [processWorkersSequential, List.foldl_cons]
        refine (ih _ habsent.2).trans ?_
        split
        · exact Dict.get?_set_ne _ _ habsent.1
        · rfl
  induction workers generalizing workerResults with
  | nil => cases hworker
  | cons first workers ih =>
      rw [List.map_cons, List.nodup_cons] at hdistinct
      rw [processWorkersSequential, List.foldl_cons]
      rcases List.mem_cons.mp hworker with rfl | hlater
      · refine (hother workers _ hdistinct.1).trans ?_
        split
        · exact Dict.get?_set_self _ _ _
        · rfl
      · have hne : worker.name ≠ first.name := fun heq =>
          hdistinct.1 (heq ▸ List.mem_map_of_mem hlater)
        have hkept : (if needs workerResults first then
            workerResults.set first.name (result first) else workerResults).get? worker.name =
            workerResults.get? worker.name := by
          split
          · exact Dict.get?_set_ne _ _ hne
          · rfl
        refine (ih hdistinct.2 hlater _).trans ?_
        rw [hneeds _ _ worker hkept, hkept]

theorem get?_processWorkersParallel (completion : Completion (Worker ω))
    (hdistinct : (workers.map Worker.name).Nodup) (hworker : worker ∈ workers)
    (workerResults : Dict String ω) :
    (processWorkersParallel needs result completion workers workerResults).get? worker.name =
      if needs workerResults worker then some (result worker)
      else workerResults.get? worker.name := by
  have hstored : ∀ other ∈ completion.order (workers.filter (needs workerResults)),
      other.name = worker.name → other = worker ∧ needs workerResults worker := by
    intro other hother hname
    obtain ⟨hmem, hneeded⟩ := List.mem_filter.mp ((completion.perm _).mem_iff.mp hother)
    have hsame : other = worker := List.inj_on_of_nodup_map hdistinct hmem hworker hname
    exact ⟨hsame, hsame ▸ hneeded⟩
  rw [processWorkersParallel]
  by_cases hneeded : needs workerResults worker
  · rw [if_pos hneeded]
    refine Dict.get?_assignAll_of_unique (List.mem_map.mpr ⟨worker, ?_, rfl⟩) ?_
    · exact (completion.perm _).mem_iff.mpr (List.mem_filter.mpr ⟨hworker, hneeded⟩)
    · intro w hw
      obtain ⟨other, hother, heq⟩ := List.mem_map.mp hw
      obtain ⟨hname, rfl⟩ := Prod.mk.inj heq
      rw [(hstored other hother hname).1]
  · rw [if_neg hneeded]
    refine Dict.get?_assignAll_of_absent fun hmem => ?_
    obtain ⟨entry, hentry, hkey⟩ := List.mem_map.mp hmem
    obtain ⟨other, hother, rfl⟩ := List.mem_map.mp hentry
    exact hneeded (hstored other hother hkey).2

theorem workerNeedsRecompute_own (refreshes : String → Bool) (closed : Timeframe → Bool) :
    AsksForItsOwn (ω := ω) fun results => workerNeedsRecompute results refreshes closed := by
  intro results results' worker hsame
  simp only [workerNeedsRecompute, Dict.contains, hsame]

theorem get?_processTick (orchestrator : WorkerOrchestrator ω) (tick : LoopTick ω)
    (currentBars : CurrentBars) (barHistory : BarsHandedOver) (closed : Timeframe → Bool)
    (hworker : worker ∈ orchestrator.workers) :
    (orchestrator.processTick tick currentBars barHistory closed).workerResults.get? worker.name =
      if workerNeedsRecompute orchestrator.workerResults tick.refreshes closed worker then
        some (computed tick.data barHistory currentBars worker)
      else orchestrator.workerResults.get? worker.name := by
  simp only [WorkerOrchestrator.processTick]
  split
  · exact get?_processWorkersParallel tick.completion orchestrator.distinct hworker _
  · exact get?_processWorkersSequential (workerNeedsRecompute_own _ _) orchestrator.distinct
      hworker _

end Results

section Invariant

variable {ω : Type} {symbol : String} {limit : ℕ} {required : List Timeframe}
  {start : Timeframe → BarSlot} {passed since : List TickData}

/-- A controller that rendered the ticks of the passes and those since the last one: its caches
agree with the slots, and the pending closes are the bars archived since. -/
structure Keeps (symbol : String) (limit : ℕ) (required : List Timeframe)
    (start : Timeframe → BarSlot) (passed since : List TickData) (controller : ClosingController) :
    Prop where
  maxHistory : controller.renderer.maxHistory = limit
  timeframes : controller.requiredTimeframes = required
  slot : ∀ timeframe ∈ required, controller.renderer.slots timeframe symbol =
    slotAfter limit timeframe (start timeframe) (passed ++ since)
  cache : ∀ timeframe ∈ required, controller.cacheValid timeframe = true →
    ∀ history ∈ controller.cachedBarHistory timeframe,
      history = controller.renderer.getBarHistory symbol timeframe
  pending : ∀ timeframe, controller.pendingClosedTimeframes timeframe = true ↔
    timeframe ∈ required ∧ archivedBars limit timeframe
      (slotAfter limit timeframe (start timeframe) passed) since ≠ []

theorem Keeps.processTick {controller : ClosingController}
    (h : Keeps symbol limit required start passed since controller) {tick : TickData}
    (hsymbol : tick.symbol = symbol) :
    Keeps symbol limit required start passed (since ++ [tick]) (controller.processTick tick) := by
  subst hsymbol
  have hupdated : ∀ timeframe ∈ required,
      (controller.processTick tick).renderer.slots timeframe tick.symbol =
        (updateSlot limit tick timeframe (controller.renderer.slots timeframe tick.symbol)).1 := by
    intro timeframe hmem
    have hmem' : timeframe ∈ controller.requiredTimeframes := h.timeframes ▸ hmem
    simp only [ClosingController.processTick, BarRenderingController.processTick,
      BarRenderer.updateCurrentBars, hmem', and_self, if_true, h.maxHistory]
  have hclosed : ∀ timeframe,
      (controller.renderer.updateCurrentBars tick controller.requiredTimeframes).2 timeframe =
        (decide (timeframe ∈ required) && (archivedBy timeframe tick
          (controller.renderer.slots timeframe tick.symbol)).isSome) := by
    intro timeframe
    rw [← (updateSlot_archives tick _).1, ← h.timeframes]
    rfl
  refine ⟨h.maxHistory, h.timeframes, fun timeframe hmem => ?_, fun timeframe hmem hvalid => ?_,
    fun timeframe => ?_⟩
  · rw [hupdated timeframe hmem, h.slot timeframe hmem, ← List.append_assoc,
      slotAfter_append _ (passed ++ since)]
    rfl
  · intro history hhistory
    have hvalid' : controller.cacheValid timeframe = true ∧ (archivedBy timeframe tick
        (controller.renderer.slots timeframe tick.symbol)).isSome = false := by
      have hboth : (controller.cacheValid timeframe && !(controller.renderer.updateCurrentBars tick
        controller.requiredTimeframes).2 timeframe) = true := hvalid
      rw [hclosed, decide_eq_true hmem, Bool.true_and] at hboth
      simpa using hboth
    rw [h.cache timeframe hmem hvalid'.1 history hhistory, BarRenderer.getBarHistory,
      BarRenderer.getBarHistory, hupdated timeframe hmem, updateSlot_keeps]
    rw [(updateSlot_archives tick _).1]
    exact hvalid'.2
  · have hpending : (controller.processTick tick).pendingClosedTimeframes timeframe =
        (controller.pendingClosedTimeframes timeframe || (controller.renderer.updateCurrentBars tick
          controller.requiredTimeframes).2 timeframe) := rfl
    rw [hpending, Bool.or_eq_true, h.pending, hclosed, archivedBars_append, Bool.and_eq_true,
      decide_eq_true_iff, ← and_or_left, ← slotAfter_append]
    refine and_congr_right fun hmem => ?_
    rw [h.slot timeframe hmem, archivedBars, archivedBars, List.append_nil, ne_eq, ne_eq,
      List.append_eq_nil_iff, not_and_or, Option.toList_eq_nil_iff, Option.isSome_iff_ne_none]

/-- The history handed over is the renderer's, and the pass leaves nothing pending. -/
theorem Keeps.getAllBarHistory {controller : ClosingController}
    (h : Keeps symbol limit required start passed since controller) :
    (∀ timeframe ∈ required, (controller.getAllBarHistory symbol).2 timeframe =
      some (controller.renderer.getBarHistory symbol timeframe)) ∧
    Keeps symbol limit required start (passed ++ since) []
      (controller.getAllBarHistory symbol).1.consumeBarRenderState.1 := by
  have hhistory : ∀ timeframe ∈ required,
      controller.historyOf symbol timeframe = controller.renderer.getBarHistory symbol timeframe :=
    fun timeframe hmem => historyOf_eq (h.cache timeframe hmem)
  refine ⟨fun timeframe hmem => ?_, h.maxHistory, h.timeframes, ?_, fun timeframe hmem _ history hcached => ?_,
    fun timeframe => ?_⟩
  · rw [← hhistory timeframe hmem]
    exact if_pos (h.timeframes ▸ hmem)
  · rw [List.append_nil]
    exact h.slot
  · have hfilled : some (controller.historyOf symbol timeframe) = some history := by
      rw [← hcached]
      exact (if_pos (h.timeframes ▸ hmem)).symm
    rw [← Option.some.inj hfilled]
    exact hhistory timeframe hmem
  · exact ⟨fun hpending => absurd hpending Bool.false_ne_true, fun hnone => absurd rfl hnone.2⟩

/-- The result of a worker was computed on the histories after these ticks. -/
def ComputedOn (limit : ℕ) (start : Timeframe → BarSlot) (ticks : List TickData)
    (worker : Worker ω) (workerResults : Dict String ω) : Prop :=
  ∃ tick barHistory currentBars,
    workerResults.get? worker.name = some (worker.run tick barHistory currentBars) ∧
    ∀ timeframe ∈ worker.getRequiredTimeframes, barHistory timeframe =
      some (slotAfter limit timeframe (start timeframe) ticks).completedBars

theorem completedBars_of_nothing_archived {timeframe : Timeframe} {slot : BarSlot}
    {bars : List Bar} (hbars : slot.completedBars = tail limit bars) {ticks later : List TickData}
    (hnothing : archivedBars limit timeframe (slotAfter limit timeframe slot ticks) later = []) :
    (slotAfter limit timeframe slot (ticks ++ later)).completedBars =
      (slotAfter limit timeframe slot ticks).completedBars := by
  rw [slotAfter_completedBars hbars, slotAfter_completedBars hbars, archivedBars_append, hnothing,
    List.append_nil]

/-- The state of the loop: the controller keeps the ticks, and each worker that computes on closes
has no result yet or one computed on the histories of the last pass. -/
structure LoopKeeps (symbol : String) (limit : ℕ) (start : Timeframe → BarSlot)
    (workers : List (Worker ω)) (passed since : List TickData) (state : LoopState ω) : Prop where
  controller : Keeps symbol limit (getRequiredTimeframes workers) start passed since
    state.controller
  registered : state.orchestrator.workers = workers
  results : ∀ worker ∈ workers, worker.computesOnClose →
    state.orchestrator.workerResults.get? worker.name = none ∨
      ComputedOn limit start passed worker state.orchestrator.workerResults

variable {workers : List (Worker ω)}

theorem mem_getRequiredTimeframes {worker : Worker ω} (hworker : worker ∈ workers)
    {timeframe : Timeframe} (hmem : timeframe ∈ worker.getRequiredTimeframes) :
    timeframe ∈ getRequiredTimeframes workers :=
  List.mem_dedup.mpr (List.mem_flatMap.mpr ⟨worker, hworker, hmem⟩)

theorem workerNeedsRecompute_eq {worker : Worker ω} (hcloses : worker.computesOnClose)
    (workerResults : Dict String ω) (refreshes : String → Bool) (closed : Timeframe → Bool) :
    workerNeedsRecompute workerResults refreshes closed worker =
      (!workerResults.contains worker.name || worker.getRequiredTimeframes.any closed) := by
  unfold Worker.computesOnClose at hcloses
  unfold workerNeedsRecompute Worker.getRequiredTimeframes
  cases hkind : worker.kind with
  | signal _ =>
      rw [hkind] at hcloses
      cases hcloses
  | indicator basis timeframes compute =>
      rw [hkind] at hcloses
      have hbasis : basis = .barClose := of_decide_eq_true hcloses
      subst hbasis
      rfl

/-- A pass brings the result of every worker that computes on closes up to date. -/
theorem LoopKeeps.pass {state : LoopState ω} (hstart : ∀ timeframe, ∃ bars,
      (start timeframe).completedBars = tail limit bars)
    (h : LoopKeeps symbol limit start workers passed since state) (tick : LoopTick ω) :
    (∀ worker ∈ workers, worker.computesOnClose → ComputedOn limit start (passed ++ since) worker
      (executeAlgoPath symbol state tick).after.orchestrator.workerResults) ∧
    LoopKeeps symbol limit start workers (passed ++ since) []
      (executeAlgoPath symbol state tick).after := by
  obtain ⟨hhistory, hkeeps⟩ := h.controller.getAllBarHistory
  have hcomputed : ∀ worker ∈ workers, worker.computesOnClose →
      ComputedOn limit start (passed ++ since) worker
        (executeAlgoPath symbol state tick).after.orchestrator.workerResults := by
    intro worker hworker hcloses
    have hresult := get?_processTick state.orchestrator tick
      (state.controller.currentBars tick.data.symbol) (state.controller.getAllBarHistory symbol).2
      state.controller.pendingClosedTimeframes (h.registered ▸ hworker)
    rw [workerNeedsRecompute_eq hcloses] at hresult
    split at hresult
    · next _ =>
        refine ⟨tick.data, _, _, hresult, fun timeframe hmem => ?_⟩
        have hrequired := mem_getRequiredTimeframes hworker hmem
        rw [filterBarHistoryForWorker, if_pos hmem, hhistory timeframe hrequired,
          BarRenderer.getBarHistory, h.controller.slot timeframe hrequired]
    · next hkept =>
        -- no timeframe of the worker is pending, so its last result is on the same histories
        rw [Bool.or_eq_true, not_or, Bool.not_eq_true', Bool.not_eq_false, List.any_eq_true] at hkept
        obtain ⟨hcached, hquiet⟩ := hkept
        rcases h.results worker hworker hcloses with hnone | ⟨tick', history, current, hold, hbars⟩
        · rw [Dict.contains, hnone] at hcached
          cases hcached
        · refine ⟨tick', history, current, hresult.trans hold, fun timeframe hmem => ?_⟩
          have hnothing : archivedBars limit timeframe
              (slotAfter limit timeframe (start timeframe) passed) since = [] := by
            by_contra harchived
            exact hquiet ⟨timeframe, hmem, (h.controller.pending timeframe).mpr
              ⟨mem_getRequiredTimeframes hworker hmem, harchived⟩⟩
          obtain ⟨bars, hwarmup⟩ := hstart timeframe
          rw [hbars timeframe hmem, completedBars_of_nothing_archived hwarmup hnothing]
  refine ⟨hcomputed, hkeeps, h.registered, fun worker hworker hcloses => .inr ?_⟩
  exact hcomputed worker hworker hcloses

theorem LoopKeeps.render {state : LoopState ω}
    (h : LoopKeeps symbol limit start workers passed since state) {tick : LoopTick ω}
    (hsymbol : tick.data.symbol = symbol) :
    LoopKeeps symbol limit start workers passed (since ++ [tick.data])
      (renderBarsForTick state tick) :=
  ⟨h.controller.processTick hsymbol, h.registered, h.results⟩

theorem LoopKeeps.run {state : LoopState ω} (hstart : ∀ timeframe, ∃ bars,
      (start timeframe).completedBars = tail limit bars)
    (h : LoopKeeps symbol limit start workers [] [] state) {ticks : List (LoopTick ω)}
    (hsymbol : ∀ tick ∈ ticks, tick.data.symbol = symbol) :
    LoopKeeps symbol limit start workers ((upToLastPass ticks).map LoopTick.data)
      ((sinceLastPass ticks).map LoopTick.data) (runLoop symbol state ticks) ∧
    (upToLastPass ticks).map LoopTick.data ++ (sinceLastPass ticks).map LoopTick.data =
      ticks.map LoopTick.data := by
  induction ticks using List.reverseRecOn with
  | nil => exact ⟨h, rfl⟩
  | append_singleton ticks tick ih =>
      obtain ⟨hkept, hticks⟩ := ih fun earlier hmem => hsymbol earlier (List.mem_append_left _ hmem)
      have hrendered := hkept.render (hsymbol tick (List.mem_append_right _ List.mem_cons_self))
      rw [runLoop, List.foldl_append, upToLastPass, sinceLastPass, List.rdropWhile_concat,
        List.rtakeWhile_concat]
      show LoopKeeps _ _ _ _ _ _ (loopStep symbol (runLoop symbol state ticks) tick) ∧ _
      cases hclipped : tick.isClipped with
      | true =>
          rw [if_pos rfl, if_pos rfl, List.map_append, loopStep, if_pos hclipped]
          refine ⟨hrendered, ?_⟩
          rw [List.map_append, ← hticks, List.append_assoc]
          rfl
      | false =>
          rw [if_neg Bool.false_ne_true, if_neg Bool.false_ne_true, loopStep,
            if_neg (by rw [hclipped]; exact Bool.false_ne_true)]
          refine ⟨?_, List.append_nil _⟩
          have hpassed := (hrendered.pass hstart tick).2
          rw [← List.append_assoc, hticks] at hpassed
          rw [List.map_append]
          exact hpassed

end Invariant

section Start

variable {symbol : String} {limit : ℕ} {timeframe : Timeframe}

def warmupOf (symbol : String) (warmupBars : List (Timeframe × List Bar)) (timeframe : Timeframe) :
    List Bar :=
  (warmupBars.filter fun entry => entry.1 = timeframe).flatMap fun entry =>
    deserializeBars symbol entry.2

theorem injectWarmupBars_slot (warmupBars : List (Timeframe × List Bar))
    {controller : BarRenderingController} (hlimit : controller.renderer.maxHistory = limit)
    (hinvalid : ∀ timeframe, controller.cacheValid timeframe = false) {bars : List Bar}
    (hslot : controller.renderer.slots timeframe symbol = { completedBars := tail limit bars }) :
    let injected := controller.injectWarmupBars symbol warmupBars
    injected.renderer.maxHistory = limit ∧
      injected.requiredTimeframes = controller.requiredTimeframes ∧
      (∀ timeframe, injected.cacheValid timeframe = false) ∧
      injected.renderer.slots timeframe symbol =
        { completedBars := tail limit (bars ++ warmupOf symbol warmupBars timeframe) } := by
  induction warmupBars generalizing controller bars with
  | nil =>
      refine ⟨hlimit, rfl, hinvalid, ?_⟩
      rw [warmupOf, List.filter_nil, List.flatMap_nil, List.append_nil]
      exact hslot
  | cons entry warmupBars ih =>
      obtain ⟨other, otherBars⟩ := entry
      rw [injectWarmupBars_cons]
      have hlimit' : (controller.injectWarmupBars symbol [(other, otherBars)]).renderer.maxHistory =
        limit := hlimit
      have hinvalid' : ∀ timeframe,
          (controller.injectWarmupBars symbol [(other, otherBars)]).cacheValid timeframe = false := by
        intro timeframe
        by_cases hsame : timeframe = other
        · subst hsame
          exact Function.update_self _ _ _
        · exact (Function.update_of_ne hsame _ _).trans (hinvalid timeframe)
      by_cases hsame : timeframe = other
      · subst hsame
        have hfilled : (controller.injectWarmupBars symbol [(timeframe, otherBars)]).renderer.slots
            timeframe symbol =
            { completedBars := tail limit (bars ++ deserializeBars symbol otherBars) } := by
          simp only [BarRenderingController.injectWarmupBars, List.foldl_cons, List.foldl_nil,
            BarRenderer.initializeHistoricalBars, and_self, if_true, hlimit, hslot,
            foldl_appendDeque]
        obtain ⟨hlimit, htimeframes, hinvalid, hslot⟩ := ih hlimit' hinvalid' hfilled
        refine ⟨hlimit, htimeframes, hinvalid, hslot.trans ?_⟩
        simp [warmupOf]
      · have hkept : (controller.injectWarmupBars symbol [(other, otherBars)]).renderer.slots
            timeframe symbol = { completedBars := tail limit bars } := by
          simp only [BarRenderingController.injectWarmupBars, List.foldl_cons, List.foldl_nil,
            BarRenderer.initializeHistoricalBars, hsame, false_and, if_false, hslot]
        obtain ⟨hlimit, htimeframes, hinvalid, hslot⟩ := ih hlimit' hinvalid' hkept
        refine ⟨hlimit, htimeframes, hinvalid, hslot.trans ?_⟩
        simp [warmupOf, Ne.symm hsame]

theorem archivedBars_open {slot slot' : BarSlot} (hbar : slot.currentBar = slot'.currentBar)
    (hbarStart : slot.currentBarStart = slot'.currentBarStart) (ticks : List TickData) :
    archivedBars limit timeframe slot ticks = archivedBars limit timeframe slot' ticks := by
  induction ticks generalizing slot slot' with
  | nil => rfl
  | cons tick ticks ih =>
      have hopened : (updateSlot limit tick timeframe slot).1.currentBar =
            (updateSlot limit tick timeframe slot').1.currentBar ∧
          (updateSlot limit tick timeframe slot).1.currentBarStart =
            (updateSlot limit tick timeframe slot').1.currentBarStart := by
        unfold updateSlot
        rw [hbar, hbarStart]
        cases slot'.currentBar with
        | none => exact ⟨rfl, rfl⟩
        | some current =>
            by_cases hsame : slot'.currentBarStart =
                some (getBarStartTime tick.timestamp timeframe)
            · simp [hsame]
            · simp [hsame]
      rw [archivedBars, archivedBars, ih hopened.1 hopened.2, archivedBy, archivedBy, hbar,
        hbarStart]

theorem startLoop_keeps {ω : Type} (symbol : String) (maxHistory : ℕ)
    (warmupBars : List (Timeframe × List Bar)) (orchestrator : WorkerOrchestrator ω) :
    LoopKeeps symbol maxHistory
      (fun timeframe => { completedBars := tail maxHistory (warmupOf symbol warmupBars timeframe) })
      orchestrator.workers [] [] (startLoop symbol maxHistory warmupBars orchestrator) := by
  have hfresh : ∀ timeframe, ({ maxHistory := maxHistory } : BarRenderer).slots timeframe symbol =
      { completedBars := tail maxHistory [] } := by
    intro timeframe
    rw [tail, List.drop_nil]
  have hinjected := fun timeframe => injectWarmupBars_slot warmupBars
    (by rfl : ({ renderer := { maxHistory := maxHistory }
                 requiredTimeframes := getRequiredTimeframes orchestrator.workers } :
      BarRenderingController).renderer.maxHistory = maxHistory) (fun _ => rfl) (hfresh timeframe)
  refine ⟨⟨(hinjected .m1).1, (hinjected .m1).2.1, fun timeframe _ => (hinjected timeframe).2.2.2,
    fun timeframe _ hvalid => ?_, fun timeframe => ?_⟩, rfl, fun _ _ _ => .inl rfl⟩
  · have hinvalid := (hinjected timeframe).2.2.1 timeframe
    exact absurd (hinvalid.symm.trans hvalid) Bool.false_ne_true
  · exact ⟨fun hpending => absurd hpending Bool.false_ne_true, fun hnone => absurd rfl hnone.2⟩

end Start

section Passes

variable {ω : Type}

def closedSoFar (symbol : String) (maxHistory : ℕ) (warmupBars : List (Timeframe × List Bar))
    (ticks : List (LoopTick ω)) (timeframe : Timeframe) : List Bar :=
  warmupOf symbol warmupBars timeframe ++
    archivedBars maxHistory timeframe {} (ticks.map LoopTick.data)

/-- At every pass the workers are handed the renderer's histories and the timeframes of which a
bar was archived since the last pass, and a worker that computes on closes is left with a result
of the last bars that closed so far. -/
theorem no_close_lost (symbol : String) (maxHistory : ℕ)
    (warmupBars : List (Timeframe × List Bar)) (orchestrator : WorkerOrchestrator ω)
    {ticks : List (LoopTick ω)} {tick : LoopTick ω}
    (hsymbol : ∀ earlier ∈ ticks ++ [tick], earlier.data.symbol = symbol)
    (hpass : tick.isClipped = false) :
    let required := getRequiredTimeframes orchestrator.workers
    let start := startLoop symbol maxHistory warmupBars orchestrator
    let rendered := renderBarsForTick (runLoop symbol start ticks) tick
    let pass := executeAlgoPath symbol rendered tick
    runLoop symbol start (ticks ++ [tick]) = pass.after ∧
    (∀ timeframe, pass.barHistory timeframe =
      if timeframe ∈ required then
        some (rendered.controller.renderer.getBarHistory symbol timeframe)
      else none) ∧
    (∀ timeframe, pass.closedTimeframes timeframe = true ↔
      timeframe ∈ required ∧
        archivedBars maxHistory timeframe
          ((runLoop symbol start (upToLastPass ticks)).controller.renderer.slots timeframe symbol)
          ((sinceLastPass ticks ++ [tick]).map LoopTick.data) ≠ []) ∧
    ∀ worker ∈ orchestrator.workers, worker.computesOnClose →
      ∃ computedAt barHistory currentBars,
        pass.after.orchestrator.workerResults.get? worker.name =
          some (worker.run computedAt barHistory currentBars) ∧
        ∀ timeframe ∈ worker.getRequiredTimeframes, barHistory timeframe =
          some (tail maxHistory
            (closedSoFar symbol maxHistory warmupBars (ticks ++ [tick]) timeframe)) := by
  have hwarmup : ∀ timeframe, ∃ bars, (⟨none, none, tail maxHistory (warmupOf symbol warmupBars
      timeframe)⟩ : BarSlot).completedBars = tail maxHistory bars := fun timeframe => ⟨_, rfl⟩
  have hearlier : ∀ earlier ∈ ticks, earlier.data.symbol = symbol :=
    fun earlier hmem => hsymbol earlier (List.mem_append_left _ hmem)
  obtain ⟨hkept, hticks⟩ := (startLoop_keeps symbol maxHistory warmupBars orchestrator).run
    hwarmup hearlier
  have hrendered := hkept.render (hsymbol tick (List.mem_append_right _ List.mem_cons_self))
  obtain ⟨hresults, -⟩ := hrendered.pass hwarmup tick
  refine ⟨?_, fun timeframe => ?_, fun timeframe => ?_, fun worker hworker hcloses => ?_⟩
  · rw [runLoop, List.foldl_append, List.foldl_cons, List.foldl_nil, loopStep, if_neg]
    · rfl
    · rw [hpass]
      exact Bool.false_ne_true
  · split
    · next hmem => exact hrendered.controller.getAllBarHistory.1 timeframe hmem
    · next hmem => exact if_neg (hrendered.controller.timeframes ▸ hmem)
  · have hpending := hrendered.controller.pending timeframe
    refine hpending.trans (and_congr_right fun hmem => ?_)
    have hlast := (startLoop_keeps symbol maxHistory warmupBars orchestrator).run hwarmup
      (fun earlier hmem => hearlier earlier ((List.rdropWhile_prefix _ _).subset hmem) :
        ∀ earlier ∈ upToLastPass ticks, earlier.data.symbol = symbol)
    rw [hlast.1.controller.slot timeframe hmem, hlast.2, List.map_append]
    rfl
  · obtain ⟨computedAt, barHistory, currentBars, hresult, hbars⟩ := hresults worker hworker hcloses
    refine ⟨computedAt, barHistory, currentBars, hresult, fun timeframe hmem => ?_⟩
    have hopen : ∀ data, archivedBars maxHistory timeframe
        ⟨none, none, tail maxHistory (warmupOf symbol warmupBars timeframe)⟩ data =
        archivedBars maxHistory timeframe {} data := archivedBars_open rfl rfl
    rw [hbars timeframe hmem, slotAfter_completedBars rfl, ← List.append_assoc, hticks, closedSoFar,
      List.map_append]
    dsimp only
    rw [hopen]
    rfl

def minuteWorker : Worker (List Bar) where
  name := "history"
  kind := .indicator .barClose [.m1] fun _ barHistory _ => (barHistory .m1).getD []

def minuteOrchestrator : WorkerOrchestrator (List Bar) where
  workers := [minuteWorker]
  distinct := List.nodup_singleton _

def minuteTick (n : ℤ) (isClipped : Bool) : LoopTick (List Bar) where
  data := { timestamp := n * microsecondsPerMinute, symbol := "EURUSD", bid := 1, ask := 1 }
  isClipped := isClipped

theorem no_close_lost_clipped :
    (executeAlgoPath "EURUSD" (renderBarsForTick (runLoop "EURUSD"
      (startLoop "EURUSD" 1000 [] minuteOrchestrator)
      [minuteTick 0 false, minuteTick 1 true, minuteTick 2 true]) (minuteTick 2 false))
      (minuteTick 2 false)).closedTimeframes .m1 = true :=
  ((no_close_lost "EURUSD" 1000 [] minuteOrchestrator (by decide +kernel) rfl).2.2.1 .m1).mpr
    (by decide +kernel)

/-- With a history of one bar, the first of two closed bars is in no history the result was
computed on. -/
theorem early_close_dropped :
    let ticks := [minuteTick 0 false, minuteTick 1 false, minuteTick 2 false]
    let after := runLoop "EURUSD" (startLoop "EURUSD" 1 [] minuteOrchestrator) ticks
    ¬ ∃ computedAt barHistory currentBars,
      after.orchestrator.workerResults.get? minuteWorker.name =
        some (minuteWorker.run computedAt barHistory currentBars) ∧
      ∀ bar ∈ closedSoFar "EURUSD" 1 [] ticks .m1, ∃ bars, barHistory .m1 = some bars ∧ bar ∈ bars := by
  rintro ticks after ⟨computedAt, barHistory, currentBars, hresult, hbars⟩
  have hlength : (after.orchestrator.workerResults.get? "history").map List.length = some 1 := by
    decide +kernel
  have hclosed : (closedSoFar "EURUSD" 1 [] ticks .m1).length = 2 ∧
      (closedSoFar "EURUSD" 1 [] ticks .m1).Nodup := by
    decide +kernel
  rw [show after.orchestrator.workerResults.get? "history" = _ from hresult] at hlength
  have hone : ((barHistory .m1).getD []).length = 1 := Option.some.inj hlength
  have hsubset : closedSoFar "EURUSD" 1 [] ticks .m1 ⊆ (barHistory .m1).getD [] := by
    intro bar hbar
    obtain ⟨bars, hhistory, hmem⟩ := hbars bar hbar
    rw [hhistory]
    exact hmem
  have hle := (List.subperm_of_subset hclosed.2 hsubset).length_le
  rw [hclosed.1, hone] at hle
  omega

end Passes

end Finiex.BarCloses
