import Mathlib.Algebra.Order.Field.Rat

/-!
# The phase machine of a field study

The engine that leads a field study through its phases: one observation at a time, it issues an
operation, waits, or ends the phase with an outcome.
-/

namespace Finiex.PhaseMachine

section Types

inductive PhaseType
  | marketOpen
  | marketCloseAll
  | limitOpen
  | limitModify
  | limitCancel
  | multiLimit
  | multiCancel
  | partialClose
  | idle
  | forceClose
  | finalSummary
  deriving DecidableEq

inductive PhaseSide
  | long
  | short
  | none
  deriving DecidableEq

inductive PhaseState
  | pending
  | submit
  | awaitFill
  | postFillWait
  | close
  | postCloseWait
  | done
  | skipped
  deriving DecidableEq

inductive PhaseOutcome
  | pending
  | pass
  | fail
  | skipped
  | expectedRejection
  | inconclusive
  deriving DecidableEq

inductive PhaseActionKind
  | none
  | submitMarket
  | submitLimit
  | closeAll
  | closePartial
  | cancel
  | cancelAll
  | modifyLimit
  | endSession
  deriving DecidableEq

structure FieldStudyPhase where
  phaseId : String
  phaseType : PhaseType
  side : PhaseSide := .none
  enabled : Bool := true
  expectRejection : Bool := false
  lots : Option ℚ := none
  limitOffsetPct : Option ℚ := none
  orderCount : ℤ := 1
  fillTimeoutS : ℚ := 30
  idleSeconds : ℚ := 20
  rearm : Bool := false
  deriving DecidableEq

structure PhaseAction where
  kind : PhaseActionKind
  phaseId : String
  side : PhaseSide := .none
  lots : Option ℚ := none
  price : Option ℚ := none
  closeFraction : Option ℚ := none
  deriving DecidableEq

/-- One observation; times are in seconds. -/
structure PhaseContext where
  now : ℚ
  midPrice : ℚ
  openPositionCount : ℕ
  activeLimitCount : ℕ
  hasPending : Bool
  filledSinceSubmit : Bool
  rejectedSinceSubmit : Bool
  cancelledSinceSubmit : Bool
  currentPositionLots : Option ℚ
  budgetOk : Bool
  deriving DecidableEq

structure PhaseResult where
  phaseId : String
  phaseType : PhaseType
  outcome : PhaseOutcome
  reason : String
  startedUtc : Option ℚ
  endedUtc : ℚ
  rearmAttempts : ℕ := 0
  deriving DecidableEq

end Types

section Machine

structure FieldStudyPhaseMachine where
  phases : List FieldStudyPhase
  defaultLot : ℚ
  defaultOffset : ℚ
  maxRearm : ℤ
  rearmShrink : ℚ
  idx : ℕ := 0
  state : PhaseState := .pending
  step : ℕ := 0
  phaseStart : Option ℚ := none
  submitTime : Option ℚ := none
  rearmAttempts : ℕ := 0
  submittedCount : ℕ := 0
  curOffset : ℚ := defaultOffset
  fullLots : Option ℚ := none
  results : List PhaseResult := []
  deriving DecidableEq

namespace FieldStudyPhaseMachine

/-- Issue an operation and restart the wait clock. -/
def act (m : FieldStudyPhaseMachine) (ctx : PhaseContext) (action : PhaseAction) :
    FieldStudyPhaseMachine × PhaseAction :=
  ({ m with submitTime := some ctx.now }, action)

def wait (m : FieldStudyPhaseMachine) (phase : FieldStudyPhase) :
    FieldStudyPhaseMachine × PhaseAction :=
  (m, { kind := .none, phaseId := phase.phaseId })

def record (m : FieldStudyPhaseMachine) (phase : FieldStudyPhase) (outcome : PhaseOutcome)
    (reason : String) (now : ℚ) (rearmAttempts : ℕ) : FieldStudyPhaseMachine :=
  { m with
    results := m.results ++ [⟨phase.phaseId, phase.phaseType, outcome, reason, m.phaseStart, now,
      rearmAttempts⟩]
    idx := m.idx + 1
    phaseStart := none
    submitTime := none }

def finish (m : FieldStudyPhaseMachine) (phase : FieldStudyPhase) (outcome : PhaseOutcome)
    (reason : String) (now : ℚ) : FieldStudyPhaseMachine × PhaseAction :=
  (m.record phase outcome reason now m.rearmAttempts, { kind := .none, phaseId := phase.phaseId })

def timedOut (m : FieldStudyPhaseMachine) (phase : FieldStudyPhase) (ctx : PhaseContext) : Bool :=
  match m.submitTime with
  | none => false
  | some submitTime => decide (phase.fillTimeoutS < ctx.now - submitTime)

def lotsOf (m : FieldStudyPhaseMachine) (phase : FieldStudyPhase) : ℚ :=
  phase.lots.getD m.defaultLot

/-- Below the market for a buy, above it for a sell. -/
def limitPrice (phase : FieldStudyPhase) (mid offset : ℚ) : ℚ :=
  if phase.side = .short then mid * (1 + offset) else mid * (1 - offset)

def submitMarket (m : FieldStudyPhaseMachine) (phase : FieldStudyPhase) : PhaseAction :=
  { kind := .submitMarket, phaseId := phase.phaseId, side := phase.side, lots := m.lotsOf phase }

def submitLimit (m : FieldStudyPhaseMachine) (phase : FieldStudyPhase) (ctx : PhaseContext)
    (offset : ℚ) : PhaseAction :=
  { kind := .submitLimit, phaseId := phase.phaseId, side := phase.side, lots := m.lotsOf phase
    price := some (limitPrice phase ctx.midPrice offset) }

def operation (kind : PhaseActionKind) (phase : FieldStudyPhase) : PhaseAction :=
  { kind := kind, phaseId := phase.phaseId }

end FieldStudyPhaseMachine

end Machine

section Handlers

open FieldStudyPhaseMachine

variable (m : FieldStudyPhaseMachine) (phase : FieldStudyPhase) (ctx : PhaseContext)

def PhaseContext.isFilled : Bool := ctx.filledSinceSubmit || decide (0 < ctx.openPositionCount)

def handleMarketOpen : FieldStudyPhaseMachine × PhaseAction :=
  if m.state = .pending then
    act { m with state := .awaitFill } ctx (m.submitMarket phase)
  else if ctx.rejectedSinceSubmit then
    if phase.expectRejection then
      m.finish phase .expectedRejection "rejected as expected" ctx.now
    else m.finish phase .fail "unexpected rejection" ctx.now
  else if ctx.isFilled then
    if phase.expectRejection then
      m.finish phase .fail "filled but rejection expected" ctx.now
    else m.finish phase .pass "filled" ctx.now
  else if m.timedOut phase ctx then
    m.finish phase .fail "no fill/rejection within timeout" ctx.now
  else m.wait phase

def isForce : Bool := decide (phase.phaseType = .forceClose)

def isFlat : Bool :=
  decide (ctx.openPositionCount = 0) && (!isForce phase || decide (ctx.activeLimitCount = 0))

def closeOperation : Option PhaseAction :=
  if isForce phase = true ∧ 0 < ctx.activeLimitCount then some (operation .cancelAll phase)
  else if 0 < ctx.openPositionCount then some (operation .closeAll phase)
  else none

def handleCloseAll : FieldStudyPhaseMachine × PhaseAction :=
  if m.state = .pending then
    if ctx.openPositionCount = 0 ∧ ctx.activeLimitCount = 0 then
      m.finish phase .skipped "already flat" ctx.now
    else if isForce phase = true ∧ 0 < ctx.activeLimitCount then
      act { m with state := .close } ctx (operation .cancelAll phase)
    else act { m with state := .close } ctx (operation .closeAll phase)
  else if isFlat phase ctx then m.finish phase .pass "flat" ctx.now
  else if m.timedOut phase ctx then m.finish phase .fail "not flat within timeout" ctx.now
  else if ctx.hasPending then m.wait phase
  else
    match closeOperation phase ctx with
    | some action => m.act ctx action
    | none => m.wait phase

def maySubmitAgain : Bool :=
  phase.rearm && (decide (m.maxRearm ≤ 0) || decide ((m.rearmAttempts : ℤ) < m.maxRearm)) &&
    ctx.budgetOk

/-- The `SUBMIT` state of a limit phase: it waits for what rests or is pending, without a look at
the clock. -/
def submitLimitOpen : FieldStudyPhaseMachine × PhaseAction :=
  if m.submitTime.isSome = true ∧ ctx.isFilled = true then m.finish phase .pass "filled" ctx.now
  else if 0 < ctx.activeLimitCount ∨ ctx.hasPending = true then m.wait phase
  else act { m with state := .awaitFill } ctx (m.submitLimit phase ctx m.curOffset)

def awaitLimitOpen : FieldStudyPhaseMachine × PhaseAction :=
  if ctx.isFilled then m.finish phase .pass "filled" ctx.now
  else if ctx.rejectedSinceSubmit then
    if phase.expectRejection then
      m.finish phase .expectedRejection "rejected as expected" ctx.now
    else m.finish phase .fail "unexpected rejection" ctx.now
  else if m.timedOut phase ctx then
    if maySubmitAgain m phase ctx then
      act { m with
        rearmAttempts := m.rearmAttempts + 1
        curOffset := m.curOffset * (1 - m.rearmShrink)
        state := .submit } ctx (operation .cancelAll phase)
    else m.finish phase .inconclusive "not filled within re-arm budget" ctx.now
  else m.wait phase

def handleLimitOpen : FieldStudyPhaseMachine × PhaseAction :=
  if m.state = .pending ∨ m.state = .submit then
    submitLimitOpen { m with state := .submit } phase ctx
  else awaitLimitOpen m phase ctx

def handleLimitModify : FieldStudyPhaseMachine × PhaseAction :=
  if m.state = .pending then
    act { m with state := .awaitFill } ctx (m.submitLimit phase ctx m.curOffset)
  else if ctx.isFilled then m.finish phase .pass "filled" ctx.now
  else if ctx.rejectedSinceSubmit then m.finish phase .fail "rejected" ctx.now
  else if m.step = 0 ∧ 1 ≤ ctx.activeLimitCount then
    act { m with step := 1 } ctx
      { kind := .modifyLimit, phaseId := phase.phaseId
        price := some (limitPrice phase ctx.midPrice (m.curOffset * (1 / 4))) }
  else if m.timedOut phase ctx then
    if m.step = 0 then m.finish phase .fail "never rested" ctx.now
    else m.finish phase .inconclusive "no fill after modify" ctx.now
  else m.wait phase

def handleLimitCancel : FieldStudyPhaseMachine × PhaseAction :=
  if m.state = .pending then
    act { m with state := .awaitFill } ctx (m.submitLimit phase ctx m.curOffset)
  else if m.state = .awaitFill then
    if ctx.isFilled then m.finish phase .fail "filled before cancel" ctx.now
    else if 1 ≤ ctx.activeLimitCount then
      act { m with state := .postCloseWait } ctx (operation .cancel phase)
    else if m.timedOut phase ctx then m.finish phase .fail "never rested" ctx.now
    else m.wait phase
  else if ctx.activeLimitCount = 0 ∧ ctx.openPositionCount = 0 then
    m.finish phase .pass "cancelled, no position" ctx.now
  else if m.timedOut phase ctx then m.finish phase .fail "cancel not confirmed" ctx.now
  else m.wait phase

def awaitMultiLimit : FieldStudyPhaseMachine × PhaseAction :=
  if phase.orderCount ≤ ctx.activeLimitCount then m.finish phase .pass "all watching" ctx.now
  else if m.timedOut phase ctx then m.finish phase .fail "not all resting" ctx.now
  else m.wait phase

def handleMultiLimit : FieldStudyPhaseMachine × PhaseAction :=
  if m.state = .pending ∨ m.state = .submit then
    if (m.submittedCount : ℤ) < phase.orderCount then
      if ctx.hasPending then wait { m with state := .submit } phase
      else
        act { m with state := .submit, submittedCount := m.submittedCount + 1 } ctx
          (m.submitLimit phase ctx (m.curOffset * (1 + 1 / 2 * m.submittedCount)))
    else awaitMultiLimit { m with state := .awaitFill } phase ctx
  else awaitMultiLimit m phase ctx

def handleMultiCancel : FieldStudyPhaseMachine × PhaseAction :=
  if m.state = .pending then
    if ctx.activeLimitCount = 0 then m.finish phase .skipped "nothing to cancel" ctx.now
    else act { m with state := .postCloseWait } ctx (operation .cancelAll phase)
  else if ctx.activeLimitCount = 0 then m.finish phase .pass "all cancelled" ctx.now
  else if m.timedOut phase ctx then m.finish phase .fail "cancel-all not confirmed" ctx.now
  else m.wait phase

def lotsEps : ℚ := 1 / 1000000000

def isReduced : Option ℚ → Option ℚ → Bool
  | some fullLots, some lots => decide (lots < fullLots - lotsEps)
  | _, _ => false

def handlePartialClose : FieldStudyPhaseMachine × PhaseAction :=
  if m.state = .pending then
    act { m with state := .awaitFill } ctx (m.submitMarket phase)
  else if m.state = .awaitFill then
    if ctx.rejectedSinceSubmit then m.finish phase .fail "open rejected" ctx.now
    else if ctx.isFilled then
      act { m with fullLots := ctx.currentPositionLots, state := .close } ctx
        { kind := .closePartial, phaseId := phase.phaseId, closeFraction := some (1 / 2) }
    else if m.timedOut phase ctx then m.finish phase .fail "open not filled" ctx.now
    else m.wait phase
  else if m.state = .close then
    if isReduced m.fullLots ctx.currentPositionLots then
      act { m with state := .postCloseWait } ctx (operation .closeAll phase)
    else if m.timedOut phase ctx then m.finish phase .fail "partial close not observed" ctx.now
    else m.wait phase
  else if ctx.openPositionCount = 0 then m.finish phase .pass "half then flat" ctx.now
  else if m.timedOut phase ctx then m.finish phase .fail "remainder not closed" ctx.now
  else m.wait phase

def idleOver : Bool := decide (phase.idleSeconds ≤ ctx.now - m.submitTime.getD ctx.now)

def handleIdle : FieldStudyPhaseMachine × PhaseAction :=
  if m.state = .pending then
    wait { m with state := .postFillWait, submitTime := some ctx.now } phase
  else if idleOver m phase ctx then m.finish phase .pass "idle complete" ctx.now
  else m.wait phase

def handleFinal : FieldStudyPhaseMachine × PhaseAction :=
  (m.record phase .pass "session end requested" ctx.now 0, operation .endSession phase)

def handle : FieldStudyPhaseMachine × PhaseAction :=
  match phase.phaseType with
  | .marketOpen => handleMarketOpen m phase ctx
  | .marketCloseAll => handleCloseAll m phase ctx
  | .forceClose => handleCloseAll m phase ctx
  | .limitOpen => handleLimitOpen m phase ctx
  | .limitModify => handleLimitModify m phase ctx
  | .limitCancel => handleLimitCancel m phase ctx
  | .multiLimit => handleMultiLimit m phase ctx
  | .multiCancel => handleMultiCancel m phase ctx
  | .partialClose => handlePartialClose m phase ctx
  | .idle => handleIdle m phase ctx
  | .finalSummary => handleFinal m phase ctx

def enter : FieldStudyPhaseMachine :=
  { m with
    phaseStart := some ctx.now
    state := .pending
    step := 0
    rearmAttempts := 0
    submittedCount := 0
    fullLots := none
    curOffset := phase.limitOffsetPct.getD m.defaultOffset }

def entered : FieldStudyPhaseMachine :=
  if m.phaseStart.isSome then m else enter m phase ctx

def FieldStudyPhaseMachine.advance : FieldStudyPhaseMachine × PhaseAction :=
  match m.phases[m.idx]? with
  | none => (m, { kind := .none, phaseId := "" })
  | some phase =>
      if m.phaseStart = none ∧ phase.enabled = false then
        (enter m phase ctx).finish phase .skipped "disabled" ctx.now
      else handle (entered m phase ctx) phase ctx

end Handlers

end Finiex.PhaseMachine
