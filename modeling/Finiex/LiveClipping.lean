import Mathlib.Algebra.BigOperators.Group.List.Basic
import Mathlib.Algebra.Order.Field.Rat
import Mathlib.Tactic.Ring
import Mathlib.Tactic.Linarith
import Mathlib.Tactic.Positivity
import Mathlib.Tactic.FieldSimp

namespace Finiex.LiveClipping

section Monitor

structure ClippingReport where
  intervalTicks : ℕ
  intervalClipped : ℕ
  intervalMaxStaleMs : ℚ
  intervalAvgStaleMs : ℚ
  intervalMaxProcessingMs : ℚ
  intervalAvgProcessingMs : ℚ
  intervalMaxQueueDepth : ℕ
  deriving DecidableEq

structure ClippingSessionSummary where
  totalTicks : ℕ
  ticksClipped : ℕ
  clippingRatio : ℚ
  maxStaleMs : ℚ
  avgStaleMs : ℚ
  maxProcessingMs : ℚ
  avgProcessingMs : ℚ
  maxQueueDepth : ℕ
  processingTimesMs : List ℚ
  deriving DecidableEq

structure LiveClippingMonitor where
  reportIntervalS : ℚ := 60
  totalTicks : ℕ := 0
  ticksClipped : ℕ := 0
  totalStaleMs : ℚ := 0
  maxStaleMs : ℚ := 0
  maxProcessingMs : ℚ := 0
  totalProcessingMs : ℚ := 0
  maxQueueDepth : ℕ := 0
  processingTimesMs : List ℚ := []
  intervalTicks : ℕ := 0
  intervalClipped : ℕ := 0
  intervalStaleMs : ℚ := 0
  intervalMaxStaleMs : ℚ := 0
  intervalMaxProcessingMs : ℚ := 0
  intervalTotalProcessingMs : ℚ := 0
  intervalMaxQueueDepth : ℕ := 0
  lastReportTime : ℚ
  deriving DecidableEq

def processingMs (processingNs : ℕ) : ℚ := (processingNs : ℚ) / 1000000

def isClipped (processingNs : ℕ) (tickDeltaMs : ℚ) : Bool :=
  decide (0 < tickDeltaMs) && decide (tickDeltaMs < processingMs processingNs)

namespace LiveClippingMonitor

/-- The first phase of `record_tick`. -/
def countTick (monitor : LiveClippingMonitor) (processing : ℚ) : LiveClippingMonitor :=
  { monitor with
    totalTicks := monitor.totalTicks + 1
    intervalTicks := monitor.intervalTicks + 1
    totalProcessingMs := monitor.totalProcessingMs + processing
    intervalTotalProcessingMs := monitor.intervalTotalProcessingMs + processing
    processingTimesMs := monitor.processingTimesMs ++ [processing]
    maxProcessingMs :=
      if monitor.maxProcessingMs < processing then processing else monitor.maxProcessingMs
    intervalMaxProcessingMs :=
      if monitor.intervalMaxProcessingMs < processing then processing
      else monitor.intervalMaxProcessingMs }

def countClipped (monitor : LiveClippingMonitor) (staleMs : ℚ) : LiveClippingMonitor :=
  { monitor with
    ticksClipped := monitor.ticksClipped + 1
    intervalClipped := monitor.intervalClipped + 1
    totalStaleMs := monitor.totalStaleMs + staleMs
    intervalStaleMs := monitor.intervalStaleMs + staleMs
    maxStaleMs := if monitor.maxStaleMs < staleMs then staleMs else monitor.maxStaleMs
    intervalMaxStaleMs :=
      if monitor.intervalMaxStaleMs < staleMs then staleMs else monitor.intervalMaxStaleMs }

def recordTick (monitor : LiveClippingMonitor) (processingNs : ℕ) (tickDeltaMs : ℚ) :
    LiveClippingMonitor :=
  let counted := monitor.countTick (processingMs processingNs)
  if isClipped processingNs tickDeltaMs then
    counted.countClipped (processingMs processingNs - tickDeltaMs)
  else counted

def recordQueueDepth (monitor : LiveClippingMonitor) (depth : ℕ) : LiveClippingMonitor :=
  { monitor with
    maxQueueDepth := if monitor.maxQueueDepth < depth then depth else monitor.maxQueueDepth
    intervalMaxQueueDepth :=
      if monitor.intervalMaxQueueDepth < depth then depth else monitor.intervalMaxQueueDepth }

def intervalReport (monitor : LiveClippingMonitor) : ClippingReport where
  intervalTicks := monitor.intervalTicks
  intervalClipped := monitor.intervalClipped
  intervalMaxStaleMs := monitor.intervalMaxStaleMs
  intervalAvgStaleMs :=
    if 0 < monitor.intervalClipped then monitor.intervalStaleMs / monitor.intervalClipped else 0
  intervalMaxProcessingMs := monitor.intervalMaxProcessingMs
  intervalAvgProcessingMs := monitor.intervalTotalProcessingMs / monitor.intervalTicks
  intervalMaxQueueDepth := monitor.intervalMaxQueueDepth

def resetInterval (monitor : LiveClippingMonitor) (now : ℚ) : LiveClippingMonitor :=
  { monitor with
    intervalTicks := 0
    intervalClipped := 0
    intervalStaleMs := 0
    intervalMaxStaleMs := 0
    intervalMaxProcessingMs := 0
    intervalTotalProcessingMs := 0
    intervalMaxQueueDepth := 0
    lastReportTime := now }

def getPeriodicReport (monitor : LiveClippingMonitor) (now : ℚ) :
    LiveClippingMonitor × Option ClippingReport :=
  if now - monitor.lastReportTime < monitor.reportIntervalS then (monitor, none)
  else if monitor.intervalTicks = 0 then ({ monitor with lastReportTime := now }, none)
  else (monitor.resetInterval now, some monitor.intervalReport)

def getSessionSummary (monitor : LiveClippingMonitor) : ClippingSessionSummary where
  totalTicks := monitor.totalTicks
  ticksClipped := monitor.ticksClipped
  clippingRatio :=
    if 0 < monitor.totalTicks then (monitor.ticksClipped : ℚ) / monitor.totalTicks else 0
  maxStaleMs := monitor.maxStaleMs
  avgStaleMs :=
    if 0 < monitor.ticksClipped then monitor.totalStaleMs / monitor.ticksClipped else 0
  maxProcessingMs := monitor.maxProcessingMs
  avgProcessingMs :=
    if 0 < monitor.totalTicks then monitor.totalProcessingMs / monitor.totalTicks else 0
  maxQueueDepth := monitor.maxQueueDepth
  processingTimesMs := monitor.processingTimesMs

end LiveClippingMonitor

end Monitor

section Loop

/-- A tick with how long its pass takes, whether the session's end is requested in it, and the
queue depth and the time at its end. -/
structure TickPass where
  collectedMsc : ℤ
  timeMsc : ℤ
  elapsedNs : ℕ
  endRequested : Bool := false
  queueDepth : ℕ := 0
  now : ℚ
  deriving DecidableEq

/-- What the loop gets from the queue; without a further pass it is stopped. -/
inductive Pass
  | tick (pass : TickPass)
  | idle (exhausted endRequested : Bool)
  | sentinel
  deriving DecidableEq

def currentMsc (pass : TickPass) : ℤ :=
  if 0 < pass.collectedMsc then pass.collectedMsc else pass.timeMsc

def tickDelta (prevMsc : ℤ) (pass : TickPass) : ℚ :=
  if 0 < prevMsc ∧ prevMsc < currentMsc pass then ((currentMsc pass - prevMsc : ℤ) : ℚ) else 0

def nextMsc (prevMsc : ℤ) (pass : TickPass) : ℤ :=
  if 0 < currentMsc pass then currentMsc pass else prevMsc

/-- The variables of the loop, with the reports it has logged and the states its monitor has been
in, each with the reports issued by then. -/
structure LoopState where
  monitor : LiveClippingMonitor
  ticksProcessed : ℕ := 0
  ticksClipped : ℕ := 0
  prevMsc : ℤ := 0
  reports : List ClippingReport := []
  moments : List (LiveClippingMonitor × List ClippingReport) := []

def LoopState.arrive (s : LoopState) (pass : TickPass) : LoopState :=
  { s with prevMsc := nextMsc s.prevMsc pass, ticksProcessed := s.ticksProcessed + 1 }

def LoopState.measure (s : LoopState) (pass : TickPass) (tickDeltaMs : ℚ) : LoopState :=
  let recorded := s.monitor.recordTick pass.elapsedNs tickDeltaMs
  let observed := recorded.recordQueueDepth pass.queueDepth
  let (reported, report) := observed.getPeriodicReport pass.now
  let reports := s.reports ++ report.toList
  { s with
    monitor := reported
    ticksClipped := s.ticksClipped + (report.map ClippingReport.intervalClipped).getD 0
    reports := reports
    moments := s.moments ++ [(recorded, s.reports), (observed, s.reports), (reported, reports)] }

/-- The passes of `run`. A pass that ends the session is not measured. -/
def runFrom (s : LoopState) : List Pass → LoopState
  | [] => s
  | .sentinel :: _ => s
  | .idle exhausted endRequested :: passes =>
      if exhausted || endRequested then s else runFrom s passes
  | .tick pass :: passes =>
      if pass.endRequested then s.arrive pass
      else runFrom ((s.arrive pass).measure pass (tickDelta s.prevMsc pass)) passes

def newMonitor (reportIntervalS created : ℚ) : LiveClippingMonitor :=
  { reportIntervalS := reportIntervalS, lastReportTime := created }

def startLoop (reportIntervalS created : ℚ) : LoopState :=
  { monitor := newMonitor reportIntervalS created
    moments := [(newMonitor reportIntervalS created, [])] }

def run (reportIntervalS created : ℚ) (passes : List Pass) : LoopState :=
  runFrom (startLoop reportIntervalS created) passes

end Loop

section Accounts

/-- The session totals are what the reports show, with the open interval. -/
structure Accounted (monitor : LiveClippingMonitor) (reports : List ClippingReport) : Prop where
  totalTicks : monitor.totalTicks =
    (reports.map ClippingReport.intervalTicks).sum + monitor.intervalTicks
  ticksClipped : monitor.ticksClipped =
    (reports.map ClippingReport.intervalClipped).sum + monitor.intervalClipped
  totalProcessingMs : monitor.totalProcessingMs =
    (reports.map fun report => report.intervalAvgProcessingMs * (report.intervalTicks : ℚ)).sum +
      monitor.intervalTotalProcessingMs
  totalStaleMs : monitor.totalStaleMs =
    (reports.map fun report => report.intervalAvgStaleMs * (report.intervalClipped : ℚ)).sum +
      monitor.intervalStaleMs
  maxProcessingMs : monitor.maxProcessingMs =
    (reports.map ClippingReport.intervalMaxProcessingMs).foldr max monitor.intervalMaxProcessingMs
  maxStaleMs : monitor.maxStaleMs =
    (reports.map ClippingReport.intervalMaxStaleMs).foldr max monitor.intervalMaxStaleMs
  maxQueueDepth : monitor.maxQueueDepth =
    (reports.map ClippingReport.intervalMaxQueueDepth).foldr max monitor.intervalMaxQueueDepth

/-- An interval without clipped ticks has no stale time, and its maxima are not negative. -/
structure IntervalSound (monitor : LiveClippingMonitor) : Prop where
  unclipped : monitor.intervalClipped = 0 → monitor.intervalStaleMs = 0
  maxProcessingMs : 0 ≤ monitor.intervalMaxProcessingMs
  maxStaleMs : 0 ≤ monitor.intervalMaxStaleMs

variable {monitor : LiveClippingMonitor} {reports : List ClippingReport}

theorem ite_lt_eq_max {α : Type} [LinearOrder α] (a b : α) :
    (if a < b then b else a) = max a b := by
  by_cases h : a < b
  · rw [if_pos h, max_eq_right h.le]
  · rw [if_neg h, max_eq_left (not_lt.mp h)]

theorem foldr_max_max {α : Type} [LinearOrder α] (xs : List α) (a b : α) :
    xs.foldr max (max a b) = max (xs.foldr max a) b := by
  induction xs with
  | nil => rfl
  | cons x xs ih => simp [ih, max_assoc]

theorem IntervalSound.recordTick (h : IntervalSound monitor) (processingNs : ℕ)
    (tickDeltaMs : ℚ) : IntervalSound (monitor.recordTick processingNs tickDeltaMs) := by
  unfold LiveClippingMonitor.recordTick
  by_cases hclipped : isClipped processingNs tickDeltaMs = true
  · simp only [hclipped, if_true]
    constructor
    · intro hzero
      simp [LiveClippingMonitor.countClipped] at hzero
    · simp [LiveClippingMonitor.countClipped, LiveClippingMonitor.countTick, ite_lt_eq_max,
        h.maxProcessingMs]
    · simp [LiveClippingMonitor.countClipped, LiveClippingMonitor.countTick, ite_lt_eq_max,
        h.maxStaleMs]
  · simp only [hclipped]
    constructor
    · exact h.unclipped
    · simp [LiveClippingMonitor.countTick, ite_lt_eq_max, h.maxProcessingMs]
    · exact h.maxStaleMs

theorem Accounted.recordTick (h : Accounted monitor reports) (processingNs : ℕ)
    (tickDeltaMs : ℚ) : Accounted (monitor.recordTick processingNs tickDeltaMs) reports := by
  have hcounted : Accounted (monitor.countTick (processingMs processingNs)) reports := by
    constructor
    · simp [LiveClippingMonitor.countTick, h.totalTicks, add_assoc]
    · exact h.ticksClipped
    · simp [LiveClippingMonitor.countTick, h.totalProcessingMs, add_assoc]
    · exact h.totalStaleMs
    · simp [LiveClippingMonitor.countTick, h.maxProcessingMs, ite_lt_eq_max, foldr_max_max]
    · exact h.maxStaleMs
    · exact h.maxQueueDepth
  unfold LiveClippingMonitor.recordTick
  by_cases hclipped : isClipped processingNs tickDeltaMs = true
  · simp only [hclipped, if_true]
    constructor
    · exact hcounted.totalTicks
    · simp [LiveClippingMonitor.countClipped, hcounted.ticksClipped, add_assoc]
    · exact hcounted.totalProcessingMs
    · simp [LiveClippingMonitor.countClipped, hcounted.totalStaleMs, add_assoc]
    · exact hcounted.maxProcessingMs
    · simp [LiveClippingMonitor.countClipped, hcounted.maxStaleMs, ite_lt_eq_max, foldr_max_max]
    · exact hcounted.maxQueueDepth
  · simp only [hclipped]
    exact hcounted

theorem Accounted.recordQueueDepth (h : Accounted monitor reports) (depth : ℕ) :
    Accounted (monitor.recordQueueDepth depth) reports := by
  constructor
  · exact h.totalTicks
  · exact h.ticksClipped
  · exact h.totalProcessingMs
  · exact h.totalStaleMs
  · exact h.maxProcessingMs
  · exact h.maxStaleMs
  · simp [LiveClippingMonitor.recordQueueDepth, h.maxQueueDepth, ite_lt_eq_max, foldr_max_max]

theorem Accounted.resetInterval (h : Accounted monitor reports) (hsound : IntervalSound monitor)
    (hticks : monitor.intervalTicks ≠ 0) (now : ℚ) :
    Accounted (monitor.resetInterval now) (reports ++ [monitor.intervalReport]) := by
  have hprocessing : monitor.intervalTotalProcessingMs / monitor.intervalTicks *
      monitor.intervalTicks = monitor.intervalTotalProcessingMs :=
    div_mul_cancel₀ _ (Nat.cast_ne_zero.mpr hticks)
  have hstale : monitor.intervalReport.intervalAvgStaleMs * monitor.intervalClipped =
      monitor.intervalStaleMs := by
    by_cases hclipped : 0 < monitor.intervalClipped
    · simp only [LiveClippingMonitor.intervalReport, hclipped, if_true]
      exact div_mul_cancel₀ _ (Nat.cast_ne_zero.mpr hclipped.ne')
    · have hzero : monitor.intervalClipped = 0 := by
        omega
      simp [hzero, hsound.unclipped hzero]
  constructor
  · simp [LiveClippingMonitor.resetInterval, LiveClippingMonitor.intervalReport, h.totalTicks]
  · simp [LiveClippingMonitor.resetInterval, LiveClippingMonitor.intervalReport, h.ticksClipped]
  · simp [LiveClippingMonitor.resetInterval, LiveClippingMonitor.intervalReport,
      h.totalProcessingMs, hprocessing]
  · simp only [LiveClippingMonitor.resetInterval, List.map_append, List.map_cons, List.map_nil,
      List.sum_append, List.sum_cons, List.sum_nil, add_zero, h.totalStaleMs]
    rw [← hstale]
    rfl
  · simp [LiveClippingMonitor.resetInterval, LiveClippingMonitor.intervalReport,
      h.maxProcessingMs, hsound.maxProcessingMs]
  · simp [LiveClippingMonitor.resetInterval, LiveClippingMonitor.intervalReport,
      h.maxStaleMs, hsound.maxStaleMs]
  · simp [LiveClippingMonitor.resetInterval, LiveClippingMonitor.intervalReport,
      h.maxQueueDepth]

theorem IntervalSound.recordQueueDepth (h : IntervalSound monitor) (depth : ℕ) :
    IntervalSound (monitor.recordQueueDepth depth) :=
  ⟨h.unclipped, h.maxProcessingMs, h.maxStaleMs⟩

theorem intervalSound_resetInterval (now : ℚ) : IntervalSound (monitor.resetInterval now) :=
  ⟨fun _ => rfl, le_rfl, le_rfl⟩

end Accounts

section Totals

/-- The loop has returned what the reports have shown as clipped, and its monitor has been
accounted for in every moment. -/
structure Tallied (s : LoopState) : Prop where
  accounted : Accounted s.monitor s.reports
  sound : IntervalSound s.monitor
  reported : s.ticksClipped = (s.reports.map ClippingReport.intervalClipped).sum
  moments : ∀ moment ∈ s.moments, Accounted moment.1 moment.2

theorem intervalTicks_recordTick (monitor : LiveClippingMonitor) (processingNs : ℕ)
    (tickDeltaMs : ℚ) :
    (monitor.recordTick processingNs tickDeltaMs).intervalTicks = monitor.intervalTicks + 1 := by
  unfold LiveClippingMonitor.recordTick
  by_cases hclipped : isClipped processingNs tickDeltaMs = true
  · simp [hclipped, LiveClippingMonitor.countClipped, LiveClippingMonitor.countTick]
  · simp [hclipped, LiveClippingMonitor.countTick]

/-- A tick has just been recorded when a report is asked for, so a due one is issued. -/
theorem getPeriodicReport_recorded {monitor : LiveClippingMonitor} (now : ℚ)
    (hticks : monitor.intervalTicks ≠ 0) :
    monitor.getPeriodicReport now =
      if now - monitor.lastReportTime < monitor.reportIntervalS then (monitor, none)
      else (monitor.resetInterval now, some monitor.intervalReport) := by
  simp [LiveClippingMonitor.getPeriodicReport, hticks]

theorem Tallied.measure {s : LoopState} (h : Tallied s) (pass : TickPass) (tickDeltaMs : ℚ) :
    Tallied (s.measure pass tickDeltaMs) := by
  have hrecorded := h.accounted.recordTick pass.elapsedNs tickDeltaMs
  have hobserved := hrecorded.recordQueueDepth pass.queueDepth
  have hsound := (h.sound.recordTick pass.elapsedNs tickDeltaMs).recordQueueDepth pass.queueDepth
  have hticks : ((s.monitor.recordTick pass.elapsedNs tickDeltaMs).recordQueueDepth
      pass.queueDepth).intervalTicks ≠ 0 := by
    change (s.monitor.recordTick pass.elapsedNs tickDeltaMs).intervalTicks ≠ 0
    rw [intervalTicks_recordTick]
    exact Nat.succ_ne_zero _
  unfold LoopState.measure
  simp only [getPeriodicReport_recorded pass.now hticks]
  split
  · constructor
    · simpa using hobserved
    · exact hsound
    · simpa using h.reported
    · simpa [or_imp, forall_and] using
      ⟨fun a b => h.moments (a, b), hrecorded, hobserved⟩
  · have hreset := hobserved.resetInterval hsound hticks pass.now
    constructor
    · exact hreset
    · exact intervalSound_resetInterval pass.now
    · simp [h.reported, LiveClippingMonitor.intervalReport]
    · simpa [or_imp, forall_and] using
        ⟨fun a b => h.moments (a, b), hrecorded, hobserved, hreset⟩

theorem Tallied.runFrom {s : LoopState} (h : Tallied s) (passes : List Pass) :
    Tallied (runFrom s passes) := by
  induction passes generalizing s with
  | nil => exact h
  | cons pass passes ih =>
      cases pass with
      | sentinel => exact h
      | idle exhausted endRequested =>
          rw [LiveClipping.runFrom]
          split
          · exact h
          · exact ih h
      | tick pass =>
          have harrived : Tallied (s.arrive pass) :=
            ⟨h.accounted, h.sound, h.reported, h.moments⟩
          rw [LiveClipping.runFrom]
          split
          · exact harrived
          · exact ih (harrived.measure pass _)

theorem startLoop_tallied (reportIntervalS created : ℚ) :
    Tallied (startLoop reportIntervalS created) := by
  have haccounted : Accounted (newMonitor reportIntervalS created) [] := by
    constructor <;> simp [newMonitor]
  constructor
  · exact haccounted
  · exact ⟨fun _ => rfl, le_rfl, le_rfl⟩
  · rfl
  · simpa [startLoop] using haccounted

end Totals

section OpenInterval

def measuredTicks (prevMsc : ℤ) : List Pass → List (TickPass × ℚ)
  | [] => []
  | .sentinel :: _ => []
  | .idle exhausted endRequested :: passes =>
      if exhausted || endRequested then [] else measuredTicks prevMsc passes
  | .tick pass :: passes =>
      if pass.endRequested then []
      else (pass, tickDelta prevMsc pass) :: measuredTicks (nextMsc prevMsc pass) passes

def unreported (reportIntervalS lastReportTime : ℚ) (since : List (TickPass × ℚ)) :
    List (TickPass × ℚ) → List (TickPass × ℚ)
  | [] => since
  | tick :: ticks =>
      if tick.1.now - lastReportTime < reportIntervalS then
        unreported reportIntervalS lastReportTime (since ++ [tick]) ticks
      else unreported reportIntervalS tick.1.now [] ticks

def clippedTick (tick : TickPass × ℚ) : Bool := isClipped tick.1.elapsedNs tick.2

theorem intervalClipped_recordTick (monitor : LiveClippingMonitor) (processingNs : ℕ)
    (tickDeltaMs : ℚ) :
    (monitor.recordTick processingNs tickDeltaMs).intervalClipped =
      monitor.intervalClipped + if isClipped processingNs tickDeltaMs then 1 else 0 := by
  unfold LiveClippingMonitor.recordTick
  by_cases hclipped : isClipped processingNs tickDeltaMs = true
  · simp [hclipped, LiveClippingMonitor.countClipped, LiveClippingMonitor.countTick]
  · simp [hclipped, LiveClippingMonitor.countTick]

theorem clock_recordTick (monitor : LiveClippingMonitor) (processingNs : ℕ) (tickDeltaMs : ℚ) :
    (monitor.recordTick processingNs tickDeltaMs).lastReportTime = monitor.lastReportTime ∧
      (monitor.recordTick processingNs tickDeltaMs).reportIntervalS = monitor.reportIntervalS := by
  unfold LiveClippingMonitor.recordTick
  by_cases hclipped : isClipped processingNs tickDeltaMs = true
  · simp [hclipped, LiveClippingMonitor.countClipped, LiveClippingMonitor.countTick]
  · simp [hclipped, LiveClippingMonitor.countTick]

/-- A pass leaves its tick in the open interval, or closes the interval with it. -/
theorem measure_monitor (s : LoopState) (pass : TickPass) (tickDeltaMs : ℚ) :
    (s.measure pass tickDeltaMs).monitor.reportIntervalS = s.monitor.reportIntervalS ∧
      if pass.now - s.monitor.lastReportTime < s.monitor.reportIntervalS then
        (s.measure pass tickDeltaMs).monitor.lastReportTime = s.monitor.lastReportTime ∧
          (s.measure pass tickDeltaMs).monitor.intervalClipped =
            s.monitor.intervalClipped + if isClipped pass.elapsedNs tickDeltaMs then 1 else 0
      else
        (s.measure pass tickDeltaMs).monitor.lastReportTime = pass.now ∧
          (s.measure pass tickDeltaMs).monitor.intervalClipped = 0 := by
  obtain ⟨hlast, hinterval⟩ := clock_recordTick s.monitor pass.elapsedNs tickDeltaMs
  have hclipped := intervalClipped_recordTick s.monitor pass.elapsedNs tickDeltaMs
  have hticks : ((s.monitor.recordTick pass.elapsedNs tickDeltaMs).recordQueueDepth
      pass.queueDepth).intervalTicks ≠ 0 := by
    change (s.monitor.recordTick pass.elapsedNs tickDeltaMs).intervalTicks ≠ 0
    rw [intervalTicks_recordTick]
    exact Nat.succ_ne_zero _
  have hreport := getPeriodicReport_recorded pass.now hticks
  change _ = (if pass.now - (s.monitor.recordTick pass.elapsedNs tickDeltaMs).lastReportTime <
    (s.monitor.recordTick pass.elapsedNs tickDeltaMs).reportIntervalS then _ else _) at hreport
  rw [hlast, hinterval] at hreport
  unfold LoopState.measure
  by_cases hearly : pass.now - s.monitor.lastReportTime < s.monitor.reportIntervalS
  · rw [if_pos hearly] at hreport ⊢
    simp only [hreport]
    exact ⟨hinterval, hlast, hclipped⟩
  · rw [if_neg hearly] at hreport ⊢
    simp only [hreport]
    exact ⟨hinterval, rfl, rfl⟩

/-- At the end the open interval counts the clipped ticks since the last due report. -/
theorem intervalClipped_runFrom {s : LoopState} {since : List (TickPass × ℚ)}
    (hsince : s.monitor.intervalClipped = since.countP clippedTick) (passes : List Pass) :
    (runFrom s passes).monitor.intervalClipped =
      (unreported s.monitor.reportIntervalS s.monitor.lastReportTime since
        (measuredTicks s.prevMsc passes)).countP clippedTick := by
  induction passes generalizing s since with
  | nil => exact hsince
  | cons pass passes ih =>
      cases pass with
      | sentinel => exact hsince
      | idle exhausted endRequested =>
          rw [runFrom, measuredTicks]
          split
          · exact hsince
          · exact ih hsince
      | tick pass =>
          rw [runFrom, measuredTicks]
          split
          · exact hsince
          · obtain ⟨hinterval, hopen⟩ :=
              measure_monitor (s.arrive pass) pass (tickDelta s.prevMsc pass)
            change (if pass.now - s.monitor.lastReportTime < s.monitor.reportIntervalS then _
              else _) at hopen
            rw [unreported]
            by_cases hearly : pass.now - s.monitor.lastReportTime < s.monitor.reportIntervalS
            · rw [if_pos hearly] at hopen ⊢
              obtain ⟨hlast, hclipped⟩ := hopen
              have hcount : ((s.arrive pass).measure pass
                  (tickDelta s.prevMsc pass)).monitor.intervalClipped =
                  (since ++ [(pass, tickDelta s.prevMsc pass)]).countP clippedTick := by
                have harrived : (s.arrive pass).monitor.intervalClipped =
                    since.countP clippedTick := hsince
                rw [hclipped, harrived, List.countP_append, List.countP_singleton]
                rfl
              rw [ih hcount, hinterval, hlast]
              rfl
            · rw [if_neg hearly] at hopen ⊢
              obtain ⟨hlast, hclipped⟩ := hopen
              have hcount : ((s.arrive pass).measure pass
                  (tickDelta s.prevMsc pass)).monitor.intervalClipped =
                  ([] : List (TickPass × ℚ)).countP clippedTick := by
                rw [hclipped]
                rfl
              rw [ih hcount, hinterval, hlast]
              rfl

/-- The totals of a session agree: `ticks_clipped` is returned as the summary has it, and in every
moment the totals of the monitor are those of the reports and of the open interval. -/
structure TotalsAgree (reportIntervalS created : ℚ) (passes : List Pass) : Prop where
  returned : (run reportIntervalS created passes).ticksClipped =
    (run reportIntervalS created passes).monitor.getSessionSummary.ticksClipped
  moments : ∀ moment ∈ (run reportIntervalS created passes).moments, Accounted moment.1 moment.2

/-- The totals agree exactly if no tick since the last due report is clipped. -/
theorem totalsAgree_iff (reportIntervalS created : ℚ) (passes : List Pass) :
    TotalsAgree reportIntervalS created passes ↔
      ∀ tick ∈ unreported reportIntervalS created [] (measuredTicks 0 passes),
        clippedTick tick = false := by
  have htallied : Tallied (run reportIntervalS created passes) :=
    (startLoop_tallied reportIntervalS created).runFrom passes
  have hopen : (run reportIntervalS created passes).monitor.intervalClipped =
      (unreported reportIntervalS created [] (measuredTicks 0 passes)).countP clippedTick :=
    intervalClipped_runFrom rfl passes
  have hsummary : (run reportIntervalS created passes).monitor.getSessionSummary.ticksClipped =
      (run reportIntervalS created passes).ticksClipped +
        (run reportIntervalS created passes).monitor.intervalClipped := by
    change (run reportIntervalS created passes).monitor.ticksClipped = _
    rw [htallied.accounted.ticksClipped, ← htallied.reported]
  constructor
  · intro hagree tick htick
    have hzero := hagree.returned
    rw [hsummary, hopen] at hzero
    have hcount : (unreported reportIntervalS created [] (measuredTicks 0 passes)).countP
        clippedTick = 0 := by
      omega
    simpa using List.countP_eq_zero.mp hcount tick htick
  · intro hclear
    have hcount : (unreported reportIntervalS created [] (measuredTicks 0 passes)).countP
        clippedTick = 0 := by
      apply List.countP_eq_zero.mpr
      intro tick htick
      simp [hclear tick htick]
    constructor
    · rw [hsummary, hopen, hcount, Nat.add_zero]
    · exact htallied.moments

/-- Of two ticks 10 ms apart the second takes 25 ms, and the session ends before a report is
due. -/
def shortSession : List Pass :=
  [.tick { collectedMsc := 1000, timeMsc := 1000, elapsedNs := 1000000, now := 1 },
    .tick { collectedMsc := 1010, timeMsc := 1010, elapsedNs := 25000000, now := 2 }, .sentinel]

/-- The clipped tick is in the summary, and not in what is returned. -/
theorem open_interval_lost :
    (run 60 0 shortSession).ticksClipped = 0 ∧
      (run 60 0 shortSession).monitor.getSessionSummary.ticksClipped = 1 := by
  decide +kernel

end OpenInterval

end Finiex.LiveClipping
