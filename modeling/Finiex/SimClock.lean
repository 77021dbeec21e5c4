import Finiex.SimulatorSteps
import Mathlib.Data.List.Chain

/-!
# The clock of a simulation

The readings of the executor's clock in the tick loop: the event time of each tick, and the
moments of the ghost passes that are spread over the arrival gaps between the ticks.
-/

namespace Finiex.SimClock

open Finiex.Types
open Finiex.Lib.Run
open Finiex.Orders
open Finiex.Executor
open Finiex.Simulator
open Finiex.SimulatorSteps

section Executor

variable {cfg : SimulatorConfig} {s s' : TradeSimulator}

theorem placed_market {order : PendingOrder} (h : SimulatorSpecs.Placed cfg s order s') :
    s'.market = s.market := by
  cases h <;> rfl

theorem resolved_market {pending : PendingOrder} (h : SimulatorSpecs.Resolved cfg s pending s') :
    s'.market = s.market := by
  cases h with
  | stressRejected hopen => rfl
  | @activated calls order placed hopen hbecomes hplaced =>
      show placed.market = s.market
      rw [placed_market hplaced]
  | closed hclose hfill => rfl

theorem drainLatencyQueue_market {msc : ℤ} (h : drainLatencyQueue cfg s msc = .ok s') :
    s'.market = s.market := by
  refine foldlM_induct (P := fun _ t => t.market = s.market) ?_ rfl h
  intro pending rest t t' ht hstep
  rw [resolved_market (SimulatorSpecs.fillResolvedOrder_resolved hstep), ht]

theorem fillOpen_market {pending : PendingOrder} {fillPrice : Option ℚ} {entryType : EntryType}
    {fillType : FillType} (h : fillOpen cfg s pending fillPrice entryType fillType = .ok s') :
    s'.market = s.market := by
  obtain ⟨ledger, -, rfl⟩ := SimulatorSpecs.fillOpen_eq_ok h
  rfl

theorem monitorStopOrder_market {pending : PendingOrder} {remaining : List PendingOrder}
    {state' : TradeSimulator × List PendingOrder}
    (h : monitorStopOrder cfg (s, remaining) pending = .ok state') :
    state'.1.market = s.market := by
  obtain ⟨reached, -, h⟩ := bind_eq_ok.mp h
  cases reached with
  | false =>
      cases h
      rfl
  | true =>
      simp only [if_true] at h
      split at h
      · obtain ⟨s₁, hfill, hpure⟩ := bind_eq_ok.mp h
        cases hpure
        exact fillOpen_market hfill
      · obtain ⟨s₁, hconvert, hpure⟩ := bind_eq_ok.mp h
        cases hpure
        exact placed_market (SimulatorSpecs.convertStopLimitToLimit_placed hconvert)
      · cases h
        rfl

theorem monitorStopOrders_market (h : monitorStopOrders cfg s = .ok s') :
    s'.market = s.market := by
  obtain ⟨⟨s₁, remaining⟩, hloop, hpure⟩ := bind_eq_ok.mp h
  cases hpure
  have hmarket : s₁.market = s.market := by
    refine foldlM_induct (P := fun _ state => state.1.market = s.market) ?_ rfl hloop
    intro pending rest state state' hstate hstep
    rw [monitorStopOrder_market hstep, hstate]
  exact hmarket

theorem resolvePendingOperations_market (h : resolvePendingOperations s = .ok s') :
    s'.market = s.market := by
  obtain ⟨tick, portfolio, modifications, -, -, rfl⟩ :=
    SimulatorSpecs.resolvePendingOperations_eq_ok h
  rfl

theorem processPendingOrders_market (h : processPendingOrders cfg s = .ok s') :
    s'.market = s.market := by
  obtain ⟨s₁, hresolve, h⟩ := bind_eq_ok.mp h
  obtain ⟨msc, -, h⟩ := bind_eq_ok.mp h
  obtain ⟨s₂, hdrain, h⟩ := bind_eq_ok.mp h
  obtain ⟨s₃, hlimits, hstops⟩ := bind_eq_ok.mp h
  obtain ⟨⟨ledger, remaining⟩, -, hpure⟩ := bind_eq_ok.mp hlimits
  cases hpure
  rw [monitorStopOrders_market hstops]
  show s₂.market = s.market
  rw [drainLatencyQueue_market hdrain, resolvePendingOperations_market hresolve]

theorem heartbeat_market (h : heartbeat cfg s = .ok s') : s'.market = s.market := by
  obtain ⟨rfl, -⟩ | ⟨_, _, resolved, -, -, hresolve, hdrain⟩ :=
    SimulatorSpecs.heartbeat_eq_ok h
  · rfl
  · rw [drainLatencyQueue_market hdrain, resolvePendingOperations_market hresolve]

end Executor

section Loop

structure ReplayedTick where
  tick : TickData
  isClipped : Bool := false
  stamped : tick.timestamp = tick.timeMsc * 1000

structure HeartbeatConfig where
  heartbeatIntervalMs : ℤ := 1000
  interTickGapThresholdS : ℚ := 300

def currentMsc (tick : TickData) : ℤ :=
  if 0 < tick.collectedMsc then tick.collectedMsc else tick.timeMsc

/-- A value of the clock: at a tick, or at a ghost pass between two ticks. -/
inductive Reading
  | onTick (tick : ReplayedTick)
  | ghost (previous current : ReplayedTick) (ghostMsc : ℤ)

def Reading.time : Reading → Instant
  | .onTick tick => tick.tick.timestamp
  | .ghost _ _ ghostMsc => ghostMsc * 1000

/-- What the decision logic answers, after what has happened so far. -/
structure Behaviour where
  wantsHeartbeat : List Reading → Bool
  requestsEnd : List Reading → Bool

/-- The moments from one on, an interval apart, while they lie before the current tick. -/
def ghostsFrom (intervalMs currentMsc : ℤ) : ℕ → ℤ → List ℤ
  | 0, _ => []
  | n + 1, ghostMsc =>
      if ghostMsc < currentMsc then
        ghostMsc :: ghostsFrom intervalMs currentMsc n (ghostMsc + intervalMs)
      else []

/-- The moments of `_run_sim_heartbeats`; there are fewer than milliseconds in the gap. -/
def ghostMoments (cfg : HeartbeatConfig) (prevMsc currentMsc : ℤ) : List ℤ :=
  let gapMs := currentMsc - prevMsc
  if gapMs ≤ cfg.heartbeatIntervalMs ∨ cfg.interTickGapThresholdS * 1000 < gapMs then []
  else ghostsFrom cfg.heartbeatIntervalMs currentMsc gapMs.toNat (prevMsc + cfg.heartbeatIntervalMs)

/-- The ghost passes of a gap, until one requests the end of the session. -/
def runGhosts (behaviour : Behaviour) (previous current : ReplayedTick) :
    List Reading → List ℤ → List Reading × Bool
  | readings, [] => (readings, false)
  | readings, ghostMsc :: moments =>
      let readings := readings ++ [.ghost previous current ghostMsc]
      if behaviour.requestsEnd readings then (readings, true)
      else runGhosts behaviour previous current readings moments

def gapMoments (cfg : HeartbeatConfig) (previous current : ReplayedTick) : List ℤ :=
  if 0 < cfg.heartbeatIntervalMs ∧ 0 < currentMsc previous.tick ∧ 0 < currentMsc current.tick then
    ghostMoments cfg (currentMsc previous.tick) (currentMsc current.tick)
  else []

def runSimHeartbeats (cfg : HeartbeatConfig) (behaviour : Behaviour) (readings : List Reading)
    (previous : Option ReplayedTick) (current : ReplayedTick) : List Reading × Bool :=
  match previous with
  | none => (readings, false)
  | some previous =>
      if behaviour.wantsHeartbeat readings then
        runGhosts behaviour previous current readings (gapMoments cfg previous current)
      else (readings, false)

/-- `execute_tick_loop`; a clipped tick skips the algo path and cannot end the session. -/
def executeTickLoop (cfg : HeartbeatConfig) (behaviour : Behaviour) :
    List Reading → Option ReplayedTick → List ReplayedTick → List Reading
  | readings, _, [] => readings
  | readings, previous, tick :: ticks =>
      let (readings, ended) := runSimHeartbeats cfg behaviour readings previous tick
      if ended then readings
      else
        let readings := readings ++ [.onTick tick]
        if !tick.isClipped && behaviour.requestsEnd readings then readings
        else executeTickLoop cfg behaviour readings (some tick) ticks

end Loop

section Gaps

variable {cfg : HeartbeatConfig} {previous current : ReplayedTick} {m : ℤ}

theorem mem_ghostsFrom {intervalMs currentMsc : ℤ} (hinterval : 0 < intervalMs) {n : ℕ}
    {first : ℤ} : m ∈ ghostsFrom intervalMs currentMsc n first ↔
      ∃ k : ℕ, k < n ∧ m = first + k * intervalMs ∧ m < currentMsc := by
  induction n generalizing first with
  | zero => simp [ghostsFrom]
  | succ n ih =>
      unfold ghostsFrom
      split
      · next hfirst =>
          rw [List.mem_cons, ih]
          constructor
          · rintro (rfl | ⟨k, hk, rfl, hlt⟩)
            · exact ⟨0, Nat.succ_pos n, by simp, hfirst⟩
            · refine ⟨k + 1, Nat.succ_lt_succ hk, ?_, hlt⟩
              push_cast
              ring
          · rintro ⟨k, hk, rfl, hlt⟩
            cases k with
            | zero => exact .inl (by simp)
            | succ k =>
                refine .inr ⟨k, Nat.lt_of_succ_lt_succ hk, ?_, hlt⟩
                push_cast
                ring
      · next hfirst =>
          constructor
          · intro h
            exact absurd h List.not_mem_nil
          · rintro ⟨k, -, rfl, hlt⟩
            have hforward : 0 ≤ (k : ℤ) * intervalMs :=
              mul_nonneg (Int.natCast_nonneg k) hinterval.le
            omega

theorem ghostsFrom_ascending {intervalMs currentMsc : ℤ} (hinterval : 0 < intervalMs) (n : ℕ)
    (first : ℤ) : (ghostsFrom intervalMs currentMsc n first).Pairwise (· < ·) := by
  induction n generalizing first with
  | zero => exact List.Pairwise.nil
  | succ n ih =>
      unfold ghostsFrom
      split
      · refine List.pairwise_cons.mpr ⟨fun later hlater => ?_, ih (first + intervalMs)⟩
        obtain ⟨k, -, rfl, -⟩ := (mem_ghostsFrom hinterval).mp hlater
        have hforward : 0 ≤ (k : ℤ) * intervalMs :=
          mul_nonneg (Int.natCast_nonneg k) hinterval.le
        omega
      · exact List.Pairwise.nil

def arrivalLag (tick : TickData) : ℤ := currentMsc tick - tick.timeMsc

def arrivalGap (previous current : ReplayedTick) : ℤ :=
  currentMsc current.tick - currentMsc previous.tick

def restAfterGhosts (cfg : HeartbeatConfig) (previous current : ReplayedTick) : ℤ :=
  (arrivalGap previous current - 1) % cfg.heartbeatIntervalMs + 1

theorem gapMoments_ascending : (gapMoments cfg previous current).Pairwise (· < ·) := by
  unfold gapMoments ghostMoments
  split
  · next hruns =>
      dsimp only
      split
      · exact List.Pairwise.nil
      · exact ghostsFrom_ascending hruns.1 _ _
  · exact List.Pairwise.nil

theorem mem_gapMoments (h : gapMoments cfg previous current ≠ []) :
    0 < cfg.heartbeatIntervalMs ∧ cfg.heartbeatIntervalMs < arrivalGap previous current ∧
      ∀ m, m ∈ gapMoments cfg previous current ↔
        ∃ k : ℕ, k < (arrivalGap previous current).toNat ∧
          m = currentMsc previous.tick + cfg.heartbeatIntervalMs + k * cfg.heartbeatIntervalMs ∧
          m < currentMsc current.tick := by
  unfold gapMoments ghostMoments at h ⊢
  split at h
  · next hruns =>
      rw [if_pos hruns]
      dsimp only at h ⊢
      split at h
      · exact absurd rfl h
      · next hgap =>
          rw [if_neg hgap]
          rw [not_or, not_le] at hgap
          exact ⟨hruns.1, hgap.1, fun m => mem_ghostsFrom hruns.1⟩
  · exact absurd rfl h

theorem gapMoments_bounds (hm : m ∈ gapMoments cfg previous current) :
    currentMsc previous.tick + cfg.heartbeatIntervalMs ≤ m ∧
      m ≤ currentMsc current.tick - restAfterGhosts cfg previous current := by
  obtain ⟨hinterval, -, hmem⟩ := mem_gapMoments (List.ne_nil_of_mem hm)
  obtain ⟨k, -, rfl, hlt⟩ := (hmem m).mp hm
  have hforward : 0 ≤ (k : ℤ) * cfg.heartbeatIntervalMs :=
    mul_nonneg (Int.natCast_nonneg k) hinterval.le
  refine ⟨by omega, ?_⟩
  have hdivision := Int.emod_add_mul_ediv (arrivalGap previous current - 1) cfg.heartbeatIntervalMs
  have hsteps : (k : ℤ) + 1 ≤ (arrivalGap previous current - 1) / cfg.heartbeatIntervalMs := by
    rw [Int.le_ediv_iff_mul_le hinterval, add_mul, one_mul, arrivalGap]
    omega
  have hscaled := mul_le_mul_of_nonneg_left hsteps hinterval.le
  rw [mul_add, mul_one, mul_comm cfg.heartbeatIntervalMs (k : ℤ)] at hscaled
  rw [restAfterGhosts]
  simp only [arrivalGap] at hdivision hscaled ⊢
  omega

theorem gapMoments_ends (h : gapMoments cfg previous current ≠ []) :
    currentMsc previous.tick + cfg.heartbeatIntervalMs ∈ gapMoments cfg previous current ∧
      currentMsc current.tick - restAfterGhosts cfg previous current ∈
        gapMoments cfg previous current := by
  obtain ⟨hinterval, hgap, hmem⟩ := mem_gapMoments h
  have hgapDef : arrivalGap previous current =
    currentMsc current.tick - currentMsc previous.tick := rfl
  constructor
  · refine (hmem _).mpr ⟨0, by omega, by simp, by omega⟩
  · have hdivision :=
      Int.emod_add_mul_ediv (arrivalGap previous current - 1) cfg.heartbeatIntervalMs
    have hsteps : 1 ≤ (arrivalGap previous current - 1) / cfg.heartbeatIntervalMs := by
      rw [Int.le_ediv_iff_mul_le hinterval]
      omega
    have hrest := Int.emod_nonneg (arrivalGap previous current - 1) hinterval.ne'
    obtain ⟨k, hk⟩ := Int.le.dest hsteps
    have hscaled : (k : ℤ) * 1 ≤ k * cfg.heartbeatIntervalMs :=
      mul_le_mul_of_nonneg_left hinterval (Int.natCast_nonneg k)
    rw [← hk, mul_add, mul_one, mul_comm cfg.heartbeatIntervalMs (k : ℤ)] at hdivision
    refine (hmem _).mpr ⟨k, ?_, ?_, ?_⟩
    · omega
    · rw [restAfterGhosts]
      omega
    · rw [restAfterGhosts]
      omega

/-- The lags of the two ticks leave room for the ghost passes between them. -/
def GapFits (cfg : HeartbeatConfig) (previous current : ReplayedTick) : Prop :=
  gapMoments cfg previous current = [] ∨
    -cfg.heartbeatIntervalMs < arrivalLag previous.tick ∧
      arrivalLag current.tick < restAfterGhosts cfg previous current

instance (cfg : HeartbeatConfig) : DecidableRel (GapFits cfg) :=
  fun _ _ => inferInstanceAs (Decidable (_ ∨ _))

theorem gapFits_iff : GapFits cfg previous current ↔
    ∀ m ∈ gapMoments cfg previous current,
      previous.tick.timeMsc < m ∧ m < current.tick.timeMsc := by
  unfold GapFits arrivalLag
  constructor
  · rintro (hnone | hfits) m hm
    · rw [hnone] at hm
      exact absurd hm List.not_mem_nil
    · have hbounds := gapMoments_bounds hm
      omega
  · intro h
    by_cases hnone : gapMoments cfg previous current = []
    · exact .inl hnone
    · obtain ⟨hfirst, hlast⟩ := gapMoments_ends hnone
      have hafter := (h _ hfirst).1
      have hbefore := (h _ hlast).2
      exact .inr (by omega)

end Gaps

section Runs

variable {cfg : HeartbeatConfig} {behaviour : Behaviour} {readings : List Reading}
  {previous current : ReplayedTick} {ticks : List ReplayedTick}

/-- The clock never goes back, and each ghost pass lies between its ticks. -/
structure ClockOrdered (readings : List Reading) : Prop where
  forward : readings.Pairwise fun earlier later => earlier.time ≤ later.time
  between : ∀ previous current ghostMsc, .ghost previous current ghostMsc ∈ readings →
    previous.tick.timestamp < ghostMsc * 1000 ∧ ghostMsc * 1000 < current.tick.timestamp

def Reached (readings : List Reading) (now : Instant) : Prop :=
  ∀ reading ∈ readings, reading.time ≤ now

theorem clockOrdered_nil : ClockOrdered [] := by
  refine ⟨List.Pairwise.nil, fun previous current m h => ?_⟩
  exact absurd h List.not_mem_nil

theorem Reached.concat {now : Instant} {reading : Reading} (h : Reached readings now)
    (hreading : reading.time ≤ now) : Reached (readings ++ [reading]) now := by
  intro r hr
  rcases List.mem_append.mp hr with hold | hnew
  · exact h r hold
  · rw [List.mem_singleton.mp hnew]
    exact hreading

theorem Reached.mono {now later : Instant} (h : Reached readings now) (hle : now ≤ later) :
    Reached readings later := fun reading hreading => (h reading hreading).trans hle

theorem ClockOrdered.onTick (h : ClockOrdered readings)
    (hreached : Reached readings current.tick.timestamp) :
    ClockOrdered (readings ++ [.onTick current]) := by
  refine ⟨List.pairwise_append.mpr ⟨h.forward, List.pairwise_singleton _ _, ?_⟩, ?_⟩
  · intro earlier hearlier later hlater
    rw [List.mem_singleton.mp hlater]
    exact hreached earlier hearlier
  · intro p c m hghost
    rcases List.mem_append.mp hghost with hold | hnew
    · exact h.between p c m hold
    · cases List.mem_singleton.mp hnew

theorem ClockOrdered.ghost {ghostMsc : ℤ} (h : ClockOrdered readings)
    (hreached : Reached readings (ghostMsc * 1000))
    (hafter : previous.tick.timestamp < ghostMsc * 1000)
    (hbefore : ghostMsc * 1000 < current.tick.timestamp) :
    ClockOrdered (readings ++ [.ghost previous current ghostMsc]) := by
  refine ⟨List.pairwise_append.mpr ⟨h.forward, List.pairwise_singleton _ _, ?_⟩, ?_⟩
  · intro earlier hearlier later hlater
    rw [List.mem_singleton.mp hlater]
    exact hreached earlier hearlier
  · intro p c m hghost
    rcases List.mem_append.mp hghost with hold | hnew
    · exact h.between p c m hold
    · cases List.mem_singleton.mp hnew
      exact ⟨hafter, hbefore⟩

/-- The ghost passes of a gap keep the clock in order, if they lie between the ticks. -/
theorem ordered_runGhosts {moments : List ℤ} (h : ClockOrdered readings)
    (hascending : moments.Pairwise (· < ·))
    (hbetween : ∀ m ∈ moments, previous.tick.timestamp < m * 1000 ∧
      m * 1000 < current.tick.timestamp)
    (hreached : Reached readings current.tick.timestamp)
    (hbefore : ∀ m ∈ moments, Reached readings (m * 1000)) :
    ClockOrdered (runGhosts behaviour previous current readings moments).1 ∧
      Reached (runGhosts behaviour previous current readings moments).1
        current.tick.timestamp := by
  induction moments generalizing readings with
  | nil => exact ⟨h, hreached⟩
  | cons m moments ih =>
      obtain ⟨hrest, hascending⟩ := List.pairwise_cons.mp hascending
      obtain ⟨hlow, hhigh⟩ := hbetween m List.mem_cons_self
      have hm := hbefore m List.mem_cons_self
      have hordered := h.ghost hm hlow hhigh
      have hreached' : Reached (readings ++ [.ghost previous current m])
          current.tick.timestamp := hreached.concat hhigh.le
      simp only [runGhosts]
      split
      · exact ⟨hordered, hreached'⟩
      · refine ih hordered hascending (fun m' hm' => hbetween m' (List.mem_cons_of_mem m hm'))
          hreached' fun m' hm' => ?_
        have hle : m * 1000 ≤ m' * 1000 :=
          Int.mul_le_mul_of_nonneg_right (hrest m' hm').le (by decide)
        exact (hm.mono hle).concat hle

theorem timestamp_le (h : previous.tick.timeMsc ≤ current.tick.timeMsc) :
    previous.tick.timestamp ≤ current.tick.timestamp := by
  rw [previous.stamped, current.stamped]
  exact Int.mul_le_mul_of_nonneg_right h (by decide)

theorem between_of_fits (hfits : GapFits cfg previous current) :
    ∀ m ∈ gapMoments cfg previous current, previous.tick.timestamp < m * 1000 ∧
      m * 1000 < current.tick.timestamp := by
  intro m hm
  obtain ⟨hafter, hbefore⟩ := gapFits_iff.mp hfits m hm
  rw [previous.stamped, current.stamped]
  exact ⟨Int.mul_lt_mul_of_pos_right hafter (by decide),
    Int.mul_lt_mul_of_pos_right hbefore (by decide)⟩

theorem ordered_executeTickLoop (h : ClockOrdered readings)
    (hreached : Reached readings previous.tick.timestamp)
    (hevent : (previous :: ticks).Pairwise fun a b => a.tick.timeMsc ≤ b.tick.timeMsc)
    (hfits : (previous :: ticks).IsChain (GapFits cfg)) :
    ClockOrdered (executeTickLoop cfg behaviour readings (some previous) ticks) := by
  induction ticks generalizing readings previous with
  | nil => exact h
  | cons tick ticks ih =>
      obtain ⟨hlater, hevent⟩ := List.pairwise_cons.mp hevent
      obtain ⟨hgap, hfits⟩ := List.isChain_cons_cons.mp hfits
      have hbetween := between_of_fits hgap
      have hstep : previous.tick.timestamp ≤ tick.tick.timestamp :=
        timestamp_le (hlater tick List.mem_cons_self)
      have hgap' : ClockOrdered
            (runSimHeartbeats cfg behaviour readings (some previous) tick).1 ∧
          Reached (runSimHeartbeats cfg behaviour readings (some previous) tick).1
            tick.tick.timestamp := by
        unfold runSimHeartbeats
        dsimp only
        split
        · exact ordered_runGhosts h gapMoments_ascending hbetween (hreached.mono hstep)
            fun m hm => hreached.mono (hbetween m hm).1.le
        · exact ⟨h, hreached.mono hstep⟩
      have hticked := hgap'.1.onTick hgap'.2
      simp only [executeTickLoop]
      split
      · exact hgap'.1
      · split
        · exact hticked
        · exact ih hticked (hgap'.2.concat le_rfl) hevent hfits

/-- A logic that wants every ghost pass and never ends the session. -/
def alwaysOn : Behaviour where
  wantsHeartbeat _ := true
  requestsEnd _ := false

theorem runGhosts_alwaysOn (readings : List Reading) (moments : List ℤ) :
    runGhosts alwaysOn previous current readings moments =
      (readings ++ moments.map (.ghost previous current), false) := by
  induction moments generalizing readings with
  | nil => rw [List.map_nil, List.append_nil, runGhosts]
  | cons m moments ih =>
      have hon : alwaysOn.requestsEnd (readings ++ [.ghost previous current m]) = false := rfl
      simp only [runGhosts, hon, ih, Bool.false_eq_true, if_false]
      rw [List.map_cons, List.append_assoc, List.singleton_append]

theorem executeTickLoop_alwaysOn (readings : List Reading) (tick : ReplayedTick)
    (ticks : List ReplayedTick) :
    executeTickLoop cfg alwaysOn readings (some previous) (tick :: ticks) =
      executeTickLoop cfg alwaysOn (readings ++
        (gapMoments cfg previous tick).map (.ghost previous tick) ++ [.onTick tick])
        (some tick) ticks := by
  have hon : ∀ r, alwaysOn.requestsEnd r = false := fun _ => rfl
  have hgap : runSimHeartbeats cfg alwaysOn readings (some previous) tick =
      (readings ++ (gapMoments cfg previous tick).map (.ghost previous tick), false) := by
    rw [← runGhosts_alwaysOn]
    rfl
  simp only [executeTickLoop, hgap, hon, Bool.and_false, Bool.false_eq_true, if_false]

theorem subset_executeTickLoop (readings : List Reading) :
    readings ⊆ executeTickLoop cfg alwaysOn readings (some previous) ticks := by
  induction ticks generalizing readings previous with
  | nil => exact List.Subset.refl readings
  | cons tick ticks ih =>
      rw [executeTickLoop_alwaysOn]
      refine List.Subset.trans ?_ (ih _)
      rw [List.append_assoc]
      exact List.subset_append_left _ _

theorem fits_of_ordered
    (h : ClockOrdered (executeTickLoop cfg alwaysOn readings (some previous) ticks)) :
    (previous :: ticks).IsChain (GapFits cfg) := by
  induction ticks generalizing readings previous with
  | nil => exact List.isChain_singleton previous
  | cons tick ticks ih =>
      rw [executeTickLoop_alwaysOn] at h
      refine List.isChain_cons_cons.mpr ⟨gapFits_iff.mpr fun m hm => ?_, ih h⟩
      have hghost : Reading.ghost previous tick m ∈ readings ++
          (gapMoments cfg previous tick).map (.ghost previous tick) ++ [.onTick tick] := by
        simp [hm]
      have hbetween := h.between previous tick m (subset_executeTickLoop _ hghost)
      rw [previous.stamped, tick.stamped] at hbetween
      exact ⟨lt_of_mul_lt_mul_right hbetween.1 (by decide),
        lt_of_mul_lt_mul_right hbetween.2 (by decide)⟩

/-- The clock of every run over a tick stream is in order exactly if the arrival lags of the
ticks leave room for the ghost passes between them. -/
theorem sim_clock_ordered_iff (cfg : HeartbeatConfig) (ticks : List ReplayedTick)
    (hevent : ticks.Pairwise fun a b => a.tick.timeMsc ≤ b.tick.timeMsc) :
    (∀ behaviour, ClockOrdered (executeTickLoop cfg behaviour [] none ticks)) ↔
      ticks.IsChain (GapFits cfg) := by
  cases ticks with
  | nil =>
      refine iff_of_true (fun behaviour => ?_) List.isChain_nil
      exact clockOrdered_nil
  | cons tick ticks =>
      have hstart : ∀ behaviour, executeTickLoop cfg behaviour [] none (tick :: ticks) =
          if !tick.isClipped && behaviour.requestsEnd [.onTick tick] then [.onTick tick]
          else executeTickLoop cfg behaviour [.onTick tick] (some tick) ticks := fun _ => rfl
      have hfirst : ClockOrdered [.onTick tick] := by
        refine ⟨List.pairwise_singleton _ _, fun previous current m hm => ?_⟩
        cases List.mem_singleton.mp hm
      constructor
      · intro h
        have hon := h alwaysOn
        rw [hstart, show alwaysOn.requestsEnd [.onTick tick] = false from rfl, Bool.and_false,
          if_neg Bool.false_ne_true] at hon
        exact fits_of_ordered hon
      · intro hfits behaviour
        rw [hstart]
        split
        · exact hfirst
        · refine ordered_executeTickLoop hfirst ?_ hevent hfits
          intro reading hreading
          rw [List.mem_singleton.mp hreading]
          exact le_rfl

end Runs

section Examples

def replayedAt (timeMsc collectedMsc : ℤ) : ReplayedTick where
  tick :=
    { timestamp := timeMsc * 1000, symbol := "EURUSD", bid := 1, ask := 1, timeMsc := timeMsc,
      collectedMsc := collectedMsc }
  stamped := rfl

theorem steady_lag_ordered :
    [replayedAt 100000 100200, replayedAt 103000 103200].IsChain (GapFits {}) ∧
      ∀ behaviour, ClockOrdered
        (executeTickLoop {} behaviour [] none [replayedAt 100000 100200, replayedAt 103000 103200]) := by
  have hfits : [replayedAt 100000 100200, replayedAt 103000 103200].IsChain (GapFits {}) := by
    decide +kernel
  refine ⟨hfits, ?_⟩
  exact (sim_clock_ordered_iff {} [replayedAt 100000 100200, replayedAt 103000 103200]
    (by decide)).mpr hfits

/-- A tick that arrives with a longer lag than the one before it turns the clock back. -/
theorem growing_lag_turns_back :
    (replayedAt 100000 100000).tick.timeMsc ≤ (replayedAt 101500 103000).tick.timeMsc ∧
      (replayedAt 100000 100000).tick.collectedMsc ≤ (replayedAt 101500 103000).tick.collectedMsc ∧
      (executeTickLoop {} alwaysOn [] none [replayedAt 100000 100000, replayedAt 101500 103000]).map
        Reading.time = [100000000, 101000000, 102000000, 101500000] ∧
      ¬∀ behaviour, ClockOrdered
        (executeTickLoop {} behaviour [] none [replayedAt 100000 100000, replayedAt 101500 103000]) := by
  refine ⟨by decide, by decide, by decide +kernel, fun h => ?_⟩
  have hforward := (List.pairwise_map.mpr (h alwaysOn).forward :
    ((executeTickLoop {} alwaysOn [] none [replayedAt 100000 100000, replayedAt 101500 103000]).map
      Reading.time).Pairwise (· ≤ ·))
  exact absurd hforward (by decide +kernel)

end Examples

end Finiex.SimClock
