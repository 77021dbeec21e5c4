import Finiex.PhaseTimeouts

/-!
# Sessions of a live field study

The decision logic around the phase machine, in sessions in which its orders and those of others
are filled, rejected and cancelled, and the events of it are delivered, in any order.
-/

namespace Finiex.FieldStudy

open PhaseMachine FieldStudyPhaseMachine PhaseTimeouts

section Study

structure LiveFieldStudy where
  machine : FieldStudyPhaseMachine
  maxSessionCostUsd : ℚ
  sessionTimeoutS : ℚ
  realizedCost : ℚ := 0
  sessionStartedAt : Option ℚ := none
  safeAbortActive : Bool := false
  phaseOrderIds : List String := []
  lastPhaseId : Option String := none
  filledFlag : Bool := false
  rejectedFlag : Bool := false
  cancelledFlag : Bool := false
  deriving DecidableEq

/-- An order, and the index of the phase that submitted it if one did. -/
structure Order where
  orderId : String
  phase : Option ℕ
  deriving DecidableEq

inductive OrderEvent
  | filled (order : Order) (commission : ℚ)
  | rejected (order : Order)
  | cancelled (order : Order)
  | partialClose (order : Order) (commission : ℚ)
  deriving DecidableEq

inductive SubmitResponse
  | accepted (orderId : String)
  | rejected
  | nothing
  deriving DecidableEq

/-- What a pass of the study sees, besides the open positions, and how a submit in it ends. -/
structure Pass where
  now : ℚ
  mid : ℚ
  activeLimitCount : ℕ
  hasPending : Bool
  suppressed : Bool := false
  response : SubmitResponse := .nothing
  deriving DecidableEq

namespace LiveFieldStudy

def resetFlags (study : LiveFieldStudy) : LiveFieldStudy :=
  { study with filledFlag := false, rejectedFlag := false, cancelledFlag := false }

def onEvent (study : LiveFieldStudy) : OrderEvent → LiveFieldStudy
  | .filled _ commission =>
      { study with filledFlag := true, realizedCost := study.realizedCost + commission }
  | .rejected _ => { study with rejectedFlag := true }
  | .cancelled _ => { study with cancelledFlag := true }
  | .partialClose _ commission => { study with realizedCost := study.realizedCost + commission }

def budgetOk (study : LiveFieldStudy) : Bool :=
  decide (study.maxSessionCostUsd ≤ 0) || decide (study.realizedCost < study.maxSessionCostUsd)

def sessionGuardBreached (study : LiveFieldStudy) (now : ℚ) : Bool :=
  (decide (0 < study.sessionTimeoutS) &&
    decide (study.sessionTimeoutS < now - study.sessionStartedAt.getD now)) ||
  (decide (0 < study.maxSessionCostUsd) &&
    decide (study.maxSessionCostUsd ≤ study.realizedCost))

def aborts (study : LiveFieldStudy) (now : ℚ) : Bool :=
  study.safeAbortActive || study.sessionGuardBreached now

def observe (study : LiveFieldStudy) (positions : List (Order × ℚ)) (pass : Pass) :
    PhaseContext where
  now := pass.now
  midPrice := pass.mid
  openPositionCount := positions.length
  activeLimitCount := pass.activeLimitCount
  hasPending := pass.hasPending
  filledSinceSubmit := study.filledFlag
  rejectedSinceSubmit := study.rejectedFlag
  cancelledSinceSubmit := study.cancelledFlag
  currentPositionLots := positions.head?.map Prod.snd
  budgetOk := study.budgetOk

def currentPhaseId (study : LiveFieldStudy) : Option String :=
  study.machine.phases[study.machine.idx]?.map FieldStudyPhase.phaseId

def enterPhase (study : LiveFieldStudy) : LiveFieldStudy :=
  if study.currentPhaseId = study.lastPhaseId then study
  else { study.resetFlags with phaseOrderIds := [], lastPhaseId := study.currentPhaseId }

def advancePhaseMachine (study : LiveFieldStudy) (positions : List (Order × ℚ)) (pass : Pass) :
    LiveFieldStudy × Option PhaseAction :=
  let started := { study with
    sessionStartedAt := some (study.sessionStartedAt.getD pass.now) }
  if study.aborts pass.now then
    ({ started with safeAbortActive := true, phaseOrderIds :=
        if study.safeAbortActive then study.phaseOrderIds else [] }, none)
  else
    let (machine, action) := study.machine.advance (study.observe positions pass)
    (enterPhase { started with machine := machine }, some action)

def submit (study : LiveFieldStudy) (isLimit : Bool) (response : SubmitResponse) :
    LiveFieldStudy × List Order :=
  match response with
  | .rejected => ({ study.resetFlags with rejectedFlag := true }, [])
  | .nothing => (study.resetFlags, [])
  | .accepted orderId =>
      ({ study.resetFlags with
          phaseOrderIds :=
            if isLimit then study.phaseOrderIds ++ [orderId] else study.phaseOrderIds },
        [⟨orderId, some study.machine.idx⟩])

/-- `_execute_decision_impl`, with the orders it places. -/
def executeDecision (study : LiveFieldStudy) (action : PhaseAction) (pass : Pass) :
    LiveFieldStudy × List Order :=
  match action.kind with
  | .submitMarket => if pass.suppressed then (study, []) else study.submit false pass.response
  | .submitLimit => if pass.suppressed then (study, []) else study.submit true pass.response
  | .cancel => ({ study with phaseOrderIds := [] }, [])
  | .cancelAll => ({ study with phaseOrderIds := [] }, [])
  | _ => (study, [])

def pass (study : LiveFieldStudy) (positions : List (Order × ℚ)) (pass : Pass) :
    LiveFieldStudy × List Order :=
  match study.advancePhaseMachine positions pass with
  | (advanced, none) => (advanced, [])
  | (advanced, some action) => advanced.executeDecision action pass

end LiveFieldStudy

end Study

section Session

/-- The study among the orders, positions and undelivered events of its symbol; of the orders it
is kept which have been filled, and which fills have been reported since the flags were reset. -/
structure StudySession where
  study : LiveFieldStudy
  live : List Order := []
  filled : List Order := []
  positions : List (Order × ℚ) := []
  events : List OrderEvent := []
  reported : List Order := []
  deriving DecidableEq

inductive Step
  | fill (order : Order) (lots commission : ℚ)
  | reject (order : Order)
  | cancel (order : Order)
  | close (order : Order) (remaining : Option ℚ) (commission : ℚ)
  | deliver
  | pass (pass : Pass)
  deriving DecidableEq

def closePosition (order : Order) (remaining : Option ℚ) (positions : List (Order × ℚ)) :
    List (Order × ℚ) :=
  match remaining with
  | none => positions.filter fun position => position.1 ≠ order
  | some lots =>
      positions.map fun position => if position.1 = order then (order, lots) else position

def reportedBy : OrderEvent → List Order
  | .filled order _ => [order]
  | _ => []

namespace StudySession

def deliver (s : StudySession) : StudySession :=
  match s.events with
  | [] => s
  | event :: events =>
      { s with
        study := s.study.onEvent event
        events := events
        reported := s.reported ++ reportedBy event }

def runPass (s : StudySession) (pass : Pass) : StudySession :=
  let (study, placed) := s.study.pass s.positions pass
  { s with
    study := study
    live := s.live ++ placed
    reported := if study.filledFlag then s.reported else [] }

def step (s : StudySession) : Step → StudySession
  | .fill order lots commission =>
      if order ∈ s.live then
        { s with
          live := s.live.erase order
          filled := s.filled ++ [order]
          positions := s.positions ++ [(order, lots)]
          events := s.events ++ [.filled order commission] }
      else s
  | .reject order =>
      if order ∈ s.live then
        { s with live := s.live.erase order, events := s.events ++ [.rejected order] }
      else s
  | .cancel order =>
      if order ∈ s.live then
        { s with live := s.live.erase order, events := s.events ++ [.cancelled order] }
      else s
  | .close order remaining commission =>
      { s with
        positions := closePosition order remaining s.positions
        events := s.events ++ if remaining.isSome then [.partialClose order commission] else [] }
  | .deliver => s.deliver
  | .pass pass => s.runPass pass

end StudySession

/-- A session before its first pass, with the orders and positions it finds. -/
def startSession (machine : FieldStudyPhaseMachine) (maxSessionCostUsd sessionTimeoutS : ℚ)
    (resting : List String) (openPositions : List (String × ℚ)) : StudySession where
  study :=
    { machine := machine, maxSessionCostUsd := maxSessionCostUsd
      sessionTimeoutS := sessionTimeoutS }
  live := resting.map fun orderId => ⟨orderId, none⟩
  positions := openPositions.map fun position => (⟨position.1, none⟩, position.2)

end Session

section Passing

/-- A market phase or a limit phase that has issued its order and takes a fill for its own. -/
def AwaitsFill (m : FieldStudyPhaseMachine) (phase : FieldStudyPhase) : Prop :=
  m.phaseStart.isSome = true ∧
    match phase.phaseType with
    | .marketOpen => m.state ≠ .pending
    | .limitOpen => (m.state = .pending ∨ m.state = .submit) → m.submitTime.isSome = true
    | _ => False

def RecordsPass (m m' : FieldStudyPhaseMachine) : Prop :=
  ∃ result, m'.results = m.results ++ [result] ∧ result.outcome = .pass

variable {m m' : FieldStudyPhaseMachine} {phase : FieldStudyPhase} {ctx : PhaseContext}

@[simp] theorem recordsPass_finish (outcome : PhaseOutcome) (reason : String) (now : ℚ) :
    RecordsPass m (m.finish phase outcome reason now).1 ↔ outcome = .pass := by
  simp [RecordsPass, finish, record]

theorem not_recordsPass (hsame : m'.results = m.results) : ¬ RecordsPass m m' := by
  rintro ⟨result, hresults, -⟩
  simp [hsame] at hresults

theorem recordsPass_handleMarketOpen :
    RecordsPass m (handleMarketOpen m phase ctx).1 ↔ m.state ≠ .pending ∧
      ctx.rejectedSinceSubmit = false ∧ ctx.isFilled = true ∧ phase.expectRejection = false := by
  unfold handleMarketOpen
  split_ifs with hpending hrejected hexpected hfilled hexpected htimeout
  · simp only [hpending, ne_eq, not_true_eq_false, false_and, iff_false]
    exact not_recordsPass rfl
  · simp [hrejected]
  · simp [hrejected]
  · simp [hexpected]
  · simpa [hpending, hrejected, hfilled] using hexpected
  · simp [hfilled]
  · simp only [hfilled, Bool.false_eq_true, false_and, and_false, iff_false]
    exact not_recordsPass rfl

theorem recordsPass_handleLimitOpen :
    RecordsPass m (handleLimitOpen m phase ctx).1 ↔
      ((m.state = .pending ∨ m.state = .submit) → m.submitTime.isSome = true) ∧
        ctx.isFilled = true := by
  unfold handleLimitOpen
  split_ifs with hsubmit
  · simp only [hsubmit, true_implies]
    unfold submitLimitOpen
    split_ifs with hfilled
    · simp only [hfilled, and_self, iff_true]
      exact ⟨_, rfl, rfl⟩
    · simp only [hfilled, iff_false]
      exact not_recordsPass rfl
    · simp only [hfilled, iff_false]
      exact not_recordsPass rfl
  · simp only [hsubmit, false_implies, true_and]
    unfold awaitLimitOpen
    split_ifs with hfilled
    · simpa using hfilled
    · simp [hfilled]
    · simp [hfilled]
    · simp only [hfilled, Bool.false_eq_true, iff_false]
      exact not_recordsPass rfl
    · simp [hfilled]
    · simp only [hfilled, Bool.false_eq_true, iff_false]
      exact not_recordsPass rfl

theorem recordsPass_advance (hbetween : m.phaseStart = none → m.submitTime = none)
    (hphase : m.phases[m.idx]? = some phase)
    (htype : phase.phaseType = .marketOpen ∨ phase.phaseType = .limitOpen) :
    RecordsPass m (m.advance ctx).1 ↔ AwaitsFill m phase ∧ ctx.isFilled = true ∧
      (phase.phaseType = .marketOpen →
        ctx.rejectedSinceSubmit = false ∧ phase.expectRejection = false) := by
  unfold FieldStudyPhaseMachine.advance
  rw [hphase]
  simp only
  cases hstart : m.phaseStart with
  | none =>
      have hfalse : ¬ AwaitsFill m phase := by
        simp [AwaitsFill, hstart]
      have hentered : entered m phase ctx = enter m phase ctx := by
        simp [entered, hstart]
      simp only [hfalse, false_and, iff_false, hentered, true_and]
      split_ifs
      · have hskipped := @recordsPass_finish (enter m phase ctx) phase .skipped "disabled" ctx.now
        exact hskipped.not.mpr (by simp)
      · rcases htype with htype | htype
        · have hpasses := @recordsPass_handleMarketOpen (enter m phase ctx) phase ctx
          rw [handle, htype]
          exact hpasses.not.mpr (by simp [enter])
        · have hpasses := @recordsPass_handleLimitOpen (enter m phase ctx) phase ctx
          rw [handle, htype]
          exact hpasses.not.mpr (by simp [enter, hbetween hstart])
  | some start =>
      have hentered : entered m phase ctx = m := by
        simp [entered, hstart]
      rw [if_neg (by simp), hentered]
      rcases htype with htype | htype
      · simp only [handle, htype, recordsPass_handleMarketOpen, AwaitsFill, hstart,
          Option.isSome_some, true_and, true_implies]
        tauto
      · simp [handle, htype, recordsPass_handleLimitOpen, AwaitsFill, hstart]

end Passing

section Tracing

/-- Every position, and every fill reported or still to be, of an order of the study stems from
its fill. -/
structure Traced (s : StudySession) : Prop where
  positions : ∀ position ∈ s.positions, position.1.phase ≠ none → position.1 ∈ s.filled
  events : ∀ event ∈ s.events, ∀ order ∈ reportedBy event, order.phase ≠ none → order ∈ s.filled
  reported : ∀ order ∈ s.reported, order.phase ≠ none → order ∈ s.filled
  flagged : s.study.filledFlag = true ↔ s.reported ≠ []
  between : s.study.machine.phaseStart = none → s.study.machine.submitTime = none

theorem between_advance {m : FieldStudyPhaseMachine} {ctx : PhaseContext}
    (h : m.phaseStart = none → m.submitTime = none) :
    (m.advance ctx).1.phaseStart = none → (m.advance ctx).1.submitTime = none := by
  cases hphase : m.phases[m.idx]? with
  | none =>
      unfold FieldStudyPhaseMachine.advance
      rw [hphase]
      exact h
  | some phase =>
      have hentered : (entered m phase ctx).phaseStart ≠ none := by
        unfold entered
        split
        · next hstart => simpa using Option.ne_none_iff_isSome.mpr hstart
        · simp [enter]
      cases stepped_advance m phase ctx hphase with
      | left hsame outcome reason attempts hleft =>
          rw [hleft]
          exact fun _ => rfl
      | stayed hsame =>
          intro hnone
          exact absurd (hsame.phaseStart.symm.trans hnone) hentered

variable {study : LiveFieldStudy} {positions : List (Order × ℚ)} {pass : Pass}

theorem machine_enterPhase : (study.enterPhase).machine = study.machine := by
  unfold LiveFieldStudy.enterPhase
  split <;> rfl

theorem machine_executeDecision (action : PhaseAction) :
    (study.executeDecision action pass).1.machine = study.machine := by
  unfold LiveFieldStudy.executeDecision LiveFieldStudy.submit
  split
  · split
    · rfl
    · split <;> rfl
  · split
    · rfl
    · split <;> rfl
  · rfl
  · rfl
  · rfl

theorem flag_enterPhase :
    study.enterPhase.filledFlag = false ∨ study.enterPhase.filledFlag = study.filledFlag := by
  unfold LiveFieldStudy.enterPhase
  split
  · exact .inr rfl
  · exact .inl rfl

theorem flag_executeDecision (action : PhaseAction) :
    (study.executeDecision action pass).1.filledFlag = false ∨
      (study.executeDecision action pass).1.filledFlag = study.filledFlag := by
  unfold LiveFieldStudy.executeDecision LiveFieldStudy.submit
  split
  · split
    · exact .inr rfl
    · split <;> exact .inl rfl
  · split
    · exact .inr rfl
    · split <;> exact .inl rfl
  · exact .inr rfl
  · exact .inr rfl
  · exact .inr rfl

/-- A pass advances the machine unless the session is aborted. -/
theorem machine_pass :
    (study.pass positions pass).1.machine =
      if study.aborts pass.now then study.machine
      else (study.machine.advance (study.observe positions pass)).1 := by
  unfold LiveFieldStudy.pass LiveFieldStudy.advancePhaseMachine
  by_cases haborts : study.aborts pass.now = true
  · simp [haborts]
  · simp [haborts, machine_executeDecision, machine_enterPhase]

theorem flag_pass (study : LiveFieldStudy) (positions : List (Order × ℚ)) (pass : Pass) :
    (study.pass positions pass).1.filledFlag = false ∨
      (study.pass positions pass).1.filledFlag = study.filledFlag := by
  unfold LiveFieldStudy.pass LiveFieldStudy.advancePhaseMachine
  by_cases haborts : study.aborts pass.now = true
  · simp [haborts]
  · simp only [haborts, Bool.false_eq_true, if_false]
    rcases flag_executeDecision (study.machine.advance (study.observe positions pass)).2 with
      hdecision | hdecision
    · exact .inl hdecision
    · rw [hdecision]
      exact flag_enterPhase

variable {s : StudySession}

theorem reportedBy_subset {events : List OrderEvent} {event : OrderEvent} {filled : List Order}
    (hevents : ∀ event ∈ events, ∀ order ∈ reportedBy event, order.phase ≠ none → order ∈ filled)
    (hevent : ∀ order ∈ reportedBy event, order ∈ filled) :
    ∀ e ∈ events ++ [event], ∀ order ∈ reportedBy e, order.phase ≠ none → order ∈ filled := by
  intro e he order horder hphase
  rcases List.mem_append.mp he with hold | hnew
  · exact hevents e hold order horder hphase
  · rw [List.mem_singleton] at hnew
    subst hnew
    exact hevent order horder

theorem Traced.fill (h : Traced s) (order : Order) (lots commission : ℚ) :
    Traced (s.step (.fill order lots commission)) := by
  simp only [StudySession.step]
  split
  · constructor
    · intro position hposition hphase
      rcases List.mem_append.mp hposition with hold | hnew
      · exact List.mem_append_left _ (h.positions position hold hphase)
      · rw [List.mem_singleton] at hnew
        simp [hnew]
    · apply reportedBy_subset
      · intro event hevent order horder hphase
        exact List.mem_append_left _ (h.events event hevent order horder hphase)
      · simp [reportedBy]
    · intro order horder hphase
      exact List.mem_append_left _ (h.reported order horder hphase)
    · exact h.flagged
    · exact h.between
  · exact h

theorem Traced.reject (h : Traced s) (order : Order) : Traced (s.step (.reject order)) := by
  simp only [StudySession.step]
  split
  · exact ⟨h.positions, reportedBy_subset h.events (by simp [reportedBy]), h.reported, h.flagged,
      h.between⟩
  · exact h

theorem Traced.cancel (h : Traced s) (order : Order) : Traced (s.step (.cancel order)) := by
  simp only [StudySession.step]
  split
  · exact ⟨h.positions, reportedBy_subset h.events (by simp [reportedBy]), h.reported, h.flagged,
      h.between⟩
  · exact h

theorem fst_mem_closePosition {order : Order} {remaining : Option ℚ}
    {positions : List (Order × ℚ)} {position : Order × ℚ}
    (h : position ∈ closePosition order remaining positions) :
    ∃ old ∈ positions, old.1 = position.1 := by
  cases remaining with
  | none => exact ⟨position, List.mem_of_mem_filter h, rfl⟩
  | some lots =>
      obtain ⟨old, hold, rfl⟩ := List.mem_map.mp h
      refine ⟨old, hold, ?_⟩
      split
      · next heq => exact heq
      · rfl

theorem Traced.close (h : Traced s) (order : Order) (remaining : Option ℚ) (commission : ℚ) :
    Traced (s.step (.close order remaining commission)) := by
  constructor
  · intro position hposition hphase
    obtain ⟨old, hold, heq⟩ := fst_mem_closePosition hposition
    rw [← heq] at hphase ⊢
    exact h.positions old hold hphase
  · simp only [StudySession.step]
    split
    · exact reportedBy_subset h.events (by simp [reportedBy])
    · simpa using h.events
  · exact h.reported
  · exact h.flagged
  · exact h.between

theorem Traced.deliver (h : Traced s) : Traced s.deliver := by
  unfold StudySession.deliver
  split
  · exact h
  · next event events hevents =>
      constructor
      · exact h.positions
      · intro e he
        exact h.events e (by simp [hevents, he])
      · intro order horder hphase
        rcases List.mem_append.mp horder with hold | hnew
        · exact h.reported order hold hphase
        · exact h.events event (by simp [hevents]) order hnew hphase
      · have hflagged := h.flagged
        cases event with
        | filled order commission => simp [LiveFieldStudy.onEvent, reportedBy]
        | _ => simpa [LiveFieldStudy.onEvent, reportedBy] using hflagged
      · cases event <;> exact h.between

theorem Traced.runPass (h : Traced s) (pass : Pass) : Traced (s.runPass pass) := by
  constructor
  · exact h.positions
  · exact h.events
  · intro order horder hphase
    simp only [StudySession.runPass] at horder
    split at horder
    · exact h.reported order horder hphase
    · simp at horder
  · simp only [StudySession.runPass]
    split
    · next hflag =>
        have hkept := (flag_pass s.study s.positions pass).resolve_left (by simp [hflag])
        simp only [hflag, true_iff]
        exact h.flagged.mp (hkept.symm.trans hflag)
    · next hflag => simpa using hflag
  · change (s.study.pass s.positions pass).1.machine.phaseStart = none →
      (s.study.pass s.positions pass).1.machine.submitTime = none
    rw [machine_pass]
    split
    · exact h.between
    · exact between_advance h.between

theorem Traced.step (h : Traced s) (next : Step) : Traced (s.step next) := by
  cases next with
  | fill order lots commission => exact h.fill order lots commission
  | reject order => exact h.reject order
  | cancel order => exact h.cancel order
  | close order remaining commission => exact h.close order remaining commission
  | deliver => exact h.deliver
  | pass pass => exact h.runPass pass

end Tracing

section Earning

/-- An order of the current phase has been filled. -/
def OwnFill (s : StudySession) : Prop :=
  ∃ order ∈ s.filled, order.phase = some s.study.machine.idx

def TakesFill (phase : FieldStudyPhase) : Prop :=
  phase.phaseType = .marketOpen ∨ phase.phaseType = .limitOpen

/-- A market or limit phase passes in a step only if an order of it has been filled. -/
def Earned (s : StudySession) : Step → Prop
  | .pass pass => ∀ phase ∈ s.study.machine.phases[s.study.machine.idx]?, TakesFill phase →
      RecordsPass s.study.machine (s.step (.pass pass)).study.machine → OwnFill s
  | _ => True

/-- In a phase that takes a fill for its own, and that has had none, every open position and every
fill reported since the last reset of the flags is of an order of it. -/
def Clean (s : StudySession) : Step → Prop
  | .pass pass => ∀ phase ∈ s.study.machine.phases[s.study.machine.idx]?, TakesFill phase →
      s.study.aborts pass.now = false → AwaitsFill s.study.machine phase →
      (phase.phaseType = .marketOpen →
        s.study.rejectedFlag = false ∧ phase.expectRejection = false) →
      OwnFill s ∨
        ((∀ position ∈ s.positions, position.1.phase = some s.study.machine.idx) ∧
          ∀ order ∈ s.reported, order.phase = some s.study.machine.idx)
  | _ => True

def AllSteps (P : StudySession → Step → Prop) (s : StudySession) : List Step → Prop
  | [] => True
  | next :: steps => P s next ∧ AllSteps P (s.step next) steps

variable {s : StudySession}

theorem isFilled_observe_iff (h : Traced s) (pass : Pass) :
    (s.study.observe s.positions pass).isFilled = true ↔ s.reported ≠ [] ∨ s.positions ≠ [] := by
  rw [← h.flagged]
  simp [PhaseContext.isFilled, LiveFieldStudy.observe, List.length_pos_iff]

theorem earned_iff_clean (h : Traced s) (next : Step) : Earned s next ↔ Clean s next := by
  cases next with
  | pass pass =>
      apply forall₂_congr
      intro phase hphase
      apply forall_congr'
      intro htype
      have hmachine : (s.step (.pass pass)).study.machine =
          (s.study.pass s.positions pass).1.machine := rfl
      rw [hmachine, machine_pass]
      by_cases haborts : s.study.aborts pass.now = true
      · simp only [haborts, if_true]
        constructor
        · intro _ hfalse
          cases hfalse
        · intro _ hpass
          exact absurd hpass (not_recordsPass rfl)
      · simp only [haborts, Bool.false_eq_true, if_false, true_implies]
        rw [recordsPass_advance h.between hphase htype]
        constructor
        · intro hearned hawaits hmarket
          by_cases hown : OwnFill s
          · exact .inl hown
          · right
            have hnone : ¬ (s.reported ≠ [] ∨ s.positions ≠ []) := by
              rw [← isFilled_observe_iff h pass]
              exact fun hfilled => hown (hearned ⟨hawaits, hfilled, hmarket⟩)
            simp only [not_or, not_not] at hnone
            simp [hnone]
        · rintro hclean ⟨hawaits, hfilled, hmarket⟩
          rcases hclean hawaits hmarket with hown | ⟨hpositions, hreported⟩
          · exact hown
          · rcases (isFilled_observe_iff h pass).mp hfilled with hsome | hsome
            · obtain ⟨order, horder⟩ := List.exists_mem_of_ne_nil _ hsome
              have hphase := hreported order horder
              exact ⟨order, h.reported order horder (by simp [hphase]), hphase⟩
            · obtain ⟨position, hposition⟩ := List.exists_mem_of_ne_nil _ hsome
              have hphase := hpositions position hposition
              exact ⟨position.1, h.positions position hposition (by simp [hphase]), hphase⟩
  | _ => exact Iff.rfl

theorem traced_startSession (phases : List FieldStudyPhase)
    (defaultLot defaultOffset rearmShrink maxSessionCostUsd sessionTimeoutS : ℚ) (maxRearm : ℤ)
    (resting : List String) (openPositions : List (String × ℚ)) :
    Traced (startSession (newMachine phases defaultLot defaultOffset maxRearm rearmShrink)
      maxSessionCostUsd sessionTimeoutS resting openPositions) := by
  constructor
  · intro position hposition hphase
    obtain ⟨old, -, rfl⟩ := List.mem_map.mp hposition
    exact absurd rfl hphase
  · simp [startSession]
  · simp [startSession]
  · simp [startSession]
  · exact fun _ => rfl

theorem allSteps_earned_iff (h : Traced s) (steps : List Step) :
    AllSteps Earned s steps ↔ AllSteps Clean s steps := by
  induction steps generalizing s with
  | nil => exact Iff.rfl
  | cons next steps ih =>
      rw [AllSteps, AllSteps, earned_iff_clean h next, ih (h.step next)]

/-- Every pass of a session is earned exactly if its steps are all clean. -/
theorem passes_earned_iff (phases : List FieldStudyPhase)
    (defaultLot defaultOffset rearmShrink maxSessionCostUsd sessionTimeoutS : ℚ) (maxRearm : ℤ)
    (resting : List String) (openPositions : List (String × ℚ)) (steps : List Step) :
    AllSteps Earned (startSession
        (newMachine phases defaultLot defaultOffset maxRearm rearmShrink)
        maxSessionCostUsd sessionTimeoutS resting openPositions) steps ↔
      AllSteps Clean (startSession
        (newMachine phases defaultLot defaultOffset maxRearm rearmShrink)
        maxSessionCostUsd sessionTimeoutS resting openPositions) steps :=
  allSteps_earned_iff (traced_startSession phases defaultLot defaultOffset rearmShrink
    maxSessionCostUsd sessionTimeoutS maxRearm resting openPositions) steps

def limitThenMarket : StudySession :=
  startSession (newMachine [{ phaseId := "limit", phaseType := .limitOpen, side := .long },
      { phaseId := "market", phaseType := .marketOpen, side := .long }]
    (1 / 100) (1 / 500) 6 (1 / 4)) 0 0 [] []

def passAt (now : ℚ) (response : SubmitResponse) : Pass :=
  { now := now, mid := 2000, activeLimitCount := 1, hasPending := false, response := response }

/-- The limit order of the first phase is filled when the market phase has sent its order. -/
def lateFill : List Step :=
  [.pass { passAt 0 (.accepted "1") with activeLimitCount := 0 }, .pass (passAt 31 .nothing),
    .pass (passAt 32 (.accepted "2")), .fill ⟨"1", some 0⟩ (1 / 100) 0, .pass (passAt 33 .nothing)]

def finalSession : StudySession := lateFill.foldl StudySession.step limitThenMarket

/-- The market phase passes, and of the two orders only that of the first phase is filled. -/
theorem late_fill_passes :
    finalSession.study.machine.results.map PhaseResult.outcome = [.inconclusive, .pass] ∧
      finalSession.filled = [⟨"1", some 0⟩] ∧ ¬ AllSteps Earned limitThenMarket lateFill := by
  refine ⟨by decide +kernel, by decide +kernel, ?_⟩
  intro hearned
  have hlast := hearned.2.2.2.2.1
  have hown := hlast { phaseId := "market", phaseType := .marketOpen, side := .long }
    (by decide +kernel) (.inl rfl) ⟨⟨"market", .marketOpen, .pass, "filled", some 32, 33, 0⟩,
      by decide +kernel, rfl⟩
  revert hown
  simp only [OwnFill]
  decide +kernel

end Earning

end Finiex.FieldStudy
