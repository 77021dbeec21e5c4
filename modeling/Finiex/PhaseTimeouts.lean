import Finiex.PhaseMachine
import Mathlib.Data.List.Forall2
import Mathlib.Tactic.Linarith
import Mathlib.Tactic.Ring
import Mathlib.Tactic.NormNum
import Mathlib.Tactic.SplitIfs

namespace Finiex.PhaseTimeouts

open PhaseMachine FieldStudyPhaseMachine

section Runs

def newMachine (phases : List FieldStudyPhase) (defaultLot defaultOffset : ℚ) (maxRearm : ℤ)
    (rearmShrink : ℚ) : FieldStudyPhaseMachine :=
  { phases := phases, defaultLot := defaultLot, defaultOffset := defaultOffset
    maxRearm := maxRearm, rearmShrink := rearmShrink }

def runFrom (m : FieldStudyPhaseMachine) : List PhaseContext → FieldStudyPhaseMachine
  | [] => m
  | ctx :: rest => runFrom (m.advance ctx).1 rest

/-- Time increases, by at most `d` from one observation to the next. -/
def Spaced (d : ℚ) : Option ℚ → List PhaseContext → Prop
  | _, [] => True
  | last, ctx :: rest =>
      (∀ now ∈ last, now < ctx.now ∧ ctx.now ≤ now + d) ∧ Spaced d (some ctx.now) rest

instance decidableSpaced (d : ℚ) :
    ∀ (last : Option ℚ) (observations : List PhaseContext), Decidable (Spaced d last observations)
  | _, [] => .isTrue trivial
  | _, ctx :: rest =>
      have := decidableSpaced d (some ctx.now) rest
      inferInstanceAs (Decidable (_ ∧ _))

def lastTime (last : Option ℚ) (observations : List PhaseContext) : Option ℚ :=
  observations.foldl (fun _ ctx => some ctx.now) last

end Runs

section Records

def Records (phase : FieldStudyPhase) (result : PhaseResult) : Prop :=
  result.phaseId = phase.phaseId ∧ result.phaseType = phase.phaseType

/-- The results are those of the phases that have been left, in their order. -/
def Recorded (m : FieldStudyPhaseMachine) : Prop :=
  List.Forall₂ Records (m.phases.take m.idx) m.results

/-- Two machines that are in one phase, with the same results. -/
structure SameRecords (m m' : FieldStudyPhaseMachine) : Prop where
  phases : m.phases = m'.phases
  maxRearm : m.maxRearm = m'.maxRearm
  idx : m.idx = m'.idx
  phaseStart : m.phaseStart = m'.phaseStart
  results : m.results = m'.results

/-- An observation leaves the phase with a result, or stays in it. -/
inductive Stepped (m : FieldStudyPhaseMachine) (phase : FieldStudyPhase) (now : ℚ) :
    FieldStudyPhaseMachine → Prop
  | left {m₀ m' : FieldStudyPhaseMachine} (hsame : SameRecords m₀ m) (outcome : PhaseOutcome)
      (reason : String) (rearmAttempts : ℕ)
      (hleft : m' = m₀.record phase outcome reason now rearmAttempts) : Stepped m phase now m'
  | stayed {m' : FieldStudyPhaseMachine} (hsame : SameRecords m' m) : Stepped m phase now m'

theorem SameRecords.trans {m₁ m₂ m₃ : FieldStudyPhaseMachine} (h₁₂ : SameRecords m₁ m₂)
    (h₂₃ : SameRecords m₂ m₃) : SameRecords m₁ m₃ :=
  ⟨h₁₂.phases.trans h₂₃.phases, h₁₂.maxRearm.trans h₂₃.maxRearm, h₁₂.idx.trans h₂₃.idx,
    h₁₂.phaseStart.trans h₂₃.phaseStart, h₁₂.results.trans h₂₃.results⟩

theorem Stepped.of_same {m₁ m m' : FieldStudyPhaseMachine} {phase : FieldStudyPhase} {now : ℚ}
    (hsame : SameRecords m₁ m) (h : Stepped m₁ phase now m') : Stepped m phase now m' := by
  cases h with
  | left hfirst outcome reason attempts hleft =>
      exact .left (hfirst.trans hsame) outcome reason attempts hleft
  | stayed hstayed => exact .stayed (hstayed.trans hsame)

variable (m : FieldStudyPhaseMachine) (phase : FieldStudyPhase) (ctx : PhaseContext)

theorem stepped_handleMarketOpen : Stepped m phase ctx.now (handleMarketOpen m phase ctx).1 := by
  unfold handleMarketOpen
  split_ifs <;> first
    | exact .left ⟨rfl, rfl, rfl, rfl, rfl⟩ _ _ _ rfl
    | exact .stayed ⟨rfl, rfl, rfl, rfl, rfl⟩

theorem stepped_handleCloseAll : Stepped m phase ctx.now (handleCloseAll m phase ctx).1 := by
  unfold handleCloseAll
  split_ifs <;> first
    | exact .left ⟨rfl, rfl, rfl, rfl, rfl⟩ _ _ _ rfl
    | exact .stayed ⟨rfl, rfl, rfl, rfl, rfl⟩
    | cases closeOperation phase ctx <;> exact .stayed ⟨rfl, rfl, rfl, rfl, rfl⟩

theorem stepped_submitLimitOpen : Stepped m phase ctx.now (submitLimitOpen m phase ctx).1 := by
  unfold submitLimitOpen
  split_ifs <;> first
    | exact .left ⟨rfl, rfl, rfl, rfl, rfl⟩ _ _ _ rfl
    | exact .stayed ⟨rfl, rfl, rfl, rfl, rfl⟩

theorem stepped_awaitLimitOpen : Stepped m phase ctx.now (awaitLimitOpen m phase ctx).1 := by
  unfold awaitLimitOpen
  split_ifs <;> first
    | exact .left ⟨rfl, rfl, rfl, rfl, rfl⟩ _ _ _ rfl
    | exact .stayed ⟨rfl, rfl, rfl, rfl, rfl⟩

theorem stepped_handleLimitOpen : Stepped m phase ctx.now (handleLimitOpen m phase ctx).1 := by
  unfold handleLimitOpen
  split_ifs
  · apply Stepped.of_same ?_ (stepped_submitLimitOpen _ phase ctx)
    exact ⟨rfl, rfl, rfl, rfl, rfl⟩
  · exact stepped_awaitLimitOpen m phase ctx

theorem stepped_handleLimitModify :
    Stepped m phase ctx.now (handleLimitModify m phase ctx).1 := by
  unfold handleLimitModify
  split_ifs <;> first
    | exact .left ⟨rfl, rfl, rfl, rfl, rfl⟩ _ _ _ rfl
    | exact .stayed ⟨rfl, rfl, rfl, rfl, rfl⟩

theorem stepped_handleLimitCancel :
    Stepped m phase ctx.now (handleLimitCancel m phase ctx).1 := by
  unfold handleLimitCancel
  split_ifs <;> first
    | exact .left ⟨rfl, rfl, rfl, rfl, rfl⟩ _ _ _ rfl
    | exact .stayed ⟨rfl, rfl, rfl, rfl, rfl⟩

theorem stepped_awaitMultiLimit : Stepped m phase ctx.now (awaitMultiLimit m phase ctx).1 := by
  unfold awaitMultiLimit
  split_ifs <;> first
    | exact .left ⟨rfl, rfl, rfl, rfl, rfl⟩ _ _ _ rfl
    | exact .stayed ⟨rfl, rfl, rfl, rfl, rfl⟩

theorem stepped_handleMultiLimit : Stepped m phase ctx.now (handleMultiLimit m phase ctx).1 := by
  unfold handleMultiLimit
  split_ifs
  · exact .stayed ⟨rfl, rfl, rfl, rfl, rfl⟩
  · exact .stayed ⟨rfl, rfl, rfl, rfl, rfl⟩
  · apply Stepped.of_same ?_ (stepped_awaitMultiLimit _ phase ctx)
    exact ⟨rfl, rfl, rfl, rfl, rfl⟩
  · exact stepped_awaitMultiLimit m phase ctx

theorem stepped_handleMultiCancel :
    Stepped m phase ctx.now (handleMultiCancel m phase ctx).1 := by
  unfold handleMultiCancel
  split_ifs <;> first
    | exact .left ⟨rfl, rfl, rfl, rfl, rfl⟩ _ _ _ rfl
    | exact .stayed ⟨rfl, rfl, rfl, rfl, rfl⟩

theorem stepped_handlePartialClose :
    Stepped m phase ctx.now (handlePartialClose m phase ctx).1 := by
  unfold handlePartialClose
  split_ifs <;> first
    | exact .left ⟨rfl, rfl, rfl, rfl, rfl⟩ _ _ _ rfl
    | exact .stayed ⟨rfl, rfl, rfl, rfl, rfl⟩

theorem stepped_handleIdle : Stepped m phase ctx.now (handleIdle m phase ctx).1 := by
  unfold handleIdle
  split_ifs <;> first
    | exact .left ⟨rfl, rfl, rfl, rfl, rfl⟩ _ _ _ rfl
    | exact .stayed ⟨rfl, rfl, rfl, rfl, rfl⟩

theorem stepped_handle : Stepped m phase ctx.now (handle m phase ctx).1 := by
  unfold handle
  cases phase.phaseType with
  | marketOpen => exact stepped_handleMarketOpen m phase ctx
  | marketCloseAll => exact stepped_handleCloseAll m phase ctx
  | forceClose => exact stepped_handleCloseAll m phase ctx
  | limitOpen => exact stepped_handleLimitOpen m phase ctx
  | limitModify => exact stepped_handleLimitModify m phase ctx
  | limitCancel => exact stepped_handleLimitCancel m phase ctx
  | multiLimit => exact stepped_handleMultiLimit m phase ctx
  | multiCancel => exact stepped_handleMultiCancel m phase ctx
  | partialClose => exact stepped_handlePartialClose m phase ctx
  | idle => exact stepped_handleIdle m phase ctx
  | finalSummary => exact .left ⟨rfl, rfl, rfl, rfl, rfl⟩ _ _ _ rfl

theorem stepped_advance (hphase : m.phases[m.idx]? = some phase) :
    Stepped (entered m phase ctx) phase ctx.now (m.advance ctx).1 := by
  unfold FieldStudyPhaseMachine.advance
  rw [hphase]
  simp only
  split_ifs with hdisabled
  · have hentered : entered m phase ctx = enter m phase ctx := by
      simp [entered, hdisabled.1]
    rw [hentered]
    exact .left ⟨rfl, rfl, rfl, rfl, rfl⟩ _ _ _ rfl
  · exact stepped_handle _ phase ctx

theorem entered_records : (entered m phase ctx).phases = m.phases ∧
    (entered m phase ctx).maxRearm = m.maxRearm ∧ (entered m phase ctx).idx = m.idx ∧
    (entered m phase ctx).results = m.results := by
  unfold entered
  split_ifs <;> exact ⟨rfl, rfl, rfl, rfl⟩

variable {m phase ctx}

theorem Recorded.advance (h : Recorded m) : Recorded (m.advance ctx).1 := by
  cases hphase : m.phases[m.idx]? with
  | none =>
      unfold FieldStudyPhaseMachine.advance
      rw [hphase]
      exact h
  | some phase =>
      obtain ⟨hphases, -, hidx, hresults⟩ := entered_records m phase ctx
      unfold Recorded at h ⊢
      cases stepped_advance m phase ctx hphase with
      | left hsame outcome reason attempts hleft =>
          have hresult : List.Forall₂ Records [phase] [⟨phase.phaseId, phase.phaseType, outcome,
              reason, (entered m phase ctx).phaseStart, ctx.now, attempts⟩] :=
            .cons ⟨rfl, rfl⟩ .nil
          rw [hleft]
          simp only [record, hsame.phases, hsame.idx, hsame.results, hsame.phaseStart, hphases,
            hidx, hresults, List.take_add_one, hphase, Option.toList_some]
          exact List.rel_append h hresult
      | stayed hsame =>
          rw [hsame.phases, hsame.idx, hsame.results, hphases, hidx, hresults]
          exact h

theorem Recorded.runFrom (h : Recorded m) (observations : List PhaseContext) :
    Recorded (runFrom m observations) := by
  induction observations generalizing m with
  | nil => exact h
  | cons ctx observations ih => exact ih h.advance

end Records

section Budgets

/-- How many operations a phase is meant to issue. -/
def operations (maxRearm : ℤ) (phase : FieldStudyPhase) : ℤ :=
  match phase.phaseType with
  | .multiLimit => phase.orderCount + 1
  | .limitOpen => 2 * maxRearm + 2
  | _ => 3

def phaseBudget (maxRearm : ℤ) (d : ℚ) (phase : FieldStudyPhase) : ℚ :=
  (operations maxRearm phase : ℚ) * (phase.fillTimeoutS + d) + phase.idleSeconds + d

/-- The durations and the number of orders of a phase are not negative. -/
structure Sane (phase : FieldStudyPhase) : Prop where
  fillTimeoutS : 0 ≤ phase.fillTimeoutS
  idleSeconds : 0 ≤ phase.idleSeconds
  orderCount : 0 ≤ phase.orderCount

def waits (m : FieldStudyPhaseMachine) (phase : FieldStudyPhase) : ℤ :=
  match phase.phaseType with
  | .marketCloseAll => 2
  | .forceClose => 2
  | .limitOpen =>
      2 * m.rearmAttempts + (if m.state = .pending ∨ m.state = .submit then 0 else 1)
  | .limitModify => if m.step = 0 then 0 else 1
  | .limitCancel => if m.state = .postCloseWait then 1 else 0
  | .multiLimit => m.submittedCount
  | .partialClose =>
      if m.state = .pending ∨ m.state = .awaitFill then 0 else if m.state = .close then 1 else 2
  | _ => 0

def clockOf (m : FieldStudyPhaseMachine) (start : ℚ) : ℚ := m.submitTime.getD start

def patience (phase : FieldStudyPhase) : ℚ :=
  if phase.phaseType = .idle then phase.idleSeconds else phase.fillTimeoutS

/-- Without a clock a phase is still waiting to submit its first order. -/
def Unissued (m : FieldStudyPhaseMachine) (phase : FieldStudyPhase) : Prop :=
  m.submittedCount = 0 ∧ (m.state = .pending ∨ m.state = .submit) ∧
    (m.state = .submit → phase.phaseType = .limitOpen ∨ phase.phaseType = .multiLimit)

/-- A phase in progress, after the observation at `now`. -/
structure Running (maxRearm : ℤ) (d : ℚ) (m : FieldStudyPhaseMachine) (phase : FieldStudyPhase)
    (start now : ℚ) : Prop where
  begun : m.phaseStart = some start
  notPending : m.state ≠ .pending
  issued : m.submitTime = none → Unissued m phase
  idleClock : phase.phaseType = .idle → m.submitTime = some start
  bounded : waits m phase + 1 ≤ operations maxRearm phase
  clock : clockOf m start ≤ start + (waits m phase : ℚ) * (phase.fillTimeoutS + d)
  waited : now ≤ clockOf m start + patience phase

/-- A phase in progress, before the observation at `now`. -/
structure Ready (maxRearm : ℤ) (d : ℚ) (m : FieldStudyPhaseMachine) (phase : FieldStudyPhase)
    (start now : ℚ) : Prop where
  begun : m.phaseStart = some start
  fresh : m.state = .pending → now = start ∧ m.submitTime = none ∧ m.rearmAttempts = 0 ∧
    m.step = 0
  issued : m.submitTime = none → Unissued m phase
  idleClock : phase.phaseType = .idle → m.state ≠ .pending → m.submitTime = some start
  bounded : waits m phase + 1 ≤ operations maxRearm phase
  clock : clockOf m start ≤ start + (waits m phase : ℚ) * (phase.fillTimeoutS + d)
  late : now ≤ clockOf m start + patience phase + d

variable {maxRearm : ℤ} {d : ℚ} {m m' : FieldStudyPhaseMachine} {phase : FieldStudyPhase}
  {ctx : PhaseContext} {start now : ℚ}

theorem Running.ready (h : Running maxRearm d m phase start now) {next : ℚ}
    (hspaced : next ≤ now + d) : Ready maxRearm d m phase start next := by
  refine ⟨h.begun, fun hpending => absurd hpending h.notPending, h.issued,
    fun htype _ => h.idleClock htype, h.bounded, h.clock, ?_⟩
  linarith [h.waited]

theorem waits_of_idle (htype : phase.phaseType = .idle) : waits m phase = 0 := by
  simp [waits, htype]

theorem patience_nonneg (hsane : Sane phase) : 0 ≤ patience phase := by
  unfold patience
  split
  · exact hsane.idleSeconds
  · exact hsane.fillTimeoutS

theorem operations_nonneg (hmax : 0 < maxRearm) (hsane : Sane phase) :
    0 ≤ operations maxRearm phase := by
  have := hsane.orderCount
  unfold operations
  split <;> omega

/-- The end of the current wait is within the budget of the phase. -/
theorem Ready.inBudget (h : Ready maxRearm d m phase start now) (hmax : 0 < maxRearm)
    (hd : 0 < d) (hsane : Sane phase) : now - start ≤ phaseBudget maxRearm d phase := by
  have hpositive : 0 ≤ phase.fillTimeoutS + d := by linarith [hsane.fillTimeoutS]
  have hidle := hsane.idleSeconds
  have hbounded : ((waits m phase : ℚ) + 1) * (phase.fillTimeoutS + d) ≤
      (operations maxRearm phase : ℚ) * (phase.fillTimeoutS + d) := by
    apply mul_le_mul_of_nonneg_right _ hpositive
    exact_mod_cast h.bounded
  have hclock := h.clock
  have hlate := h.late
  unfold phaseBudget
  by_cases htype : phase.phaseType = .idle
  · have hops : 0 ≤ (operations maxRearm phase : ℚ) * (phase.fillTimeoutS + d) :=
      mul_nonneg (by exact_mod_cast operations_nonneg hmax hsane) hpositive
    simp only [patience, htype, if_true] at hlate
    simp only [waits_of_idle htype, Int.cast_zero, zero_mul, add_zero] at hclock
    linarith
  · simp only [patience, htype, if_false] at hlate
    linarith [add_one_mul (waits m phase : ℚ) (phase.fillTimeoutS + d)]

end Budgets

section Handlers

variable {maxRearm : ℤ} {d : ℚ} {m m' : FieldStudyPhaseMachine} {phase : FieldStudyPhase}
  {ctx : PhaseContext} {start : ℚ}

/-- After an observation the phase is left, or it is in progress within its waits. -/
def Continues (maxRearm : ℤ) (d : ℚ) (m' : FieldStudyPhaseMachine) (phase : FieldStudyPhase)
    (start now : ℚ) : Prop :=
  m'.phaseStart = none ∨ Running maxRearm d m' phase start now

theorem Ready.isIssued (h : Ready maxRearm d m phase start ctx.now)
    (hpending : m.state ≠ .pending) (hlimit : phase.phaseType ≠ .limitOpen)
    (hmulti : phase.phaseType ≠ .multiLimit) : m.submitTime ≠ none := by
  intro hnone
  obtain ⟨-, hstate, hsubmit⟩ := h.issued hnone
  rcases hstate with hstate | hstate
  · exact hpending hstate
  · rcases hsubmit hstate with htype | htype
    · exact hlimit htype
    · exact hmulti htype

theorem Ready.stays (h : Ready maxRearm d m phase start ctx.now) (hpending : m.state ≠ .pending)
    (htype : phase.phaseType ≠ .idle)
    (hwaited : ctx.now ≤ clockOf m start + phase.fillTimeoutS) :
    Running maxRearm d m phase start ctx.now := by
  refine ⟨h.begun, hpending, h.issued, fun hidle => absurd hidle htype, h.bounded, h.clock, ?_⟩
  simpa [patience, htype] using hwaited

theorem Ready.waiting (h : Ready maxRearm d m phase start ctx.now)
    (hpending : m.state ≠ .pending) (htype : phase.phaseType ≠ .idle)
    (hissued : m.submitTime ≠ none) (htimeout : ¬ m.timedOut phase ctx = true) :
    Running maxRearm d m phase start ctx.now := by
  obtain ⟨submitted, hsubmitted⟩ := Option.ne_none_iff_exists'.mp hissued
  apply h.stays hpending htype
  simp only [timedOut, hsubmitted, decide_eq_true_eq, not_lt] at htimeout
  simp only [clockOf, hsubmitted, Option.getD_some]
  linarith

theorem Ready.inWaits (h : Ready maxRearm d m phase start ctx.now)
    (htype : phase.phaseType ≠ .idle) :
    ctx.now ≤ start + ((waits m phase : ℚ) + 1) * (phase.fillTimeoutS + d) := by
  have hclock := h.clock
  have hlate := h.late
  simp only [patience, htype, if_false] at hlate
  linarith [add_one_mul (waits m phase : ℚ) (phase.fillTimeoutS + d)]

/-- An operation restarts the clock. -/
theorem Ready.act (h : Ready maxRearm d m phase start ctx.now) (hsane : Sane phase)
    (htype : phase.phaseType ≠ .idle) (hbegun : m'.phaseStart = m.phaseStart)
    (hsubmit : m'.submitTime = some ctx.now) (hstate : m'.state ≠ .pending)
    (hbounded : waits m' phase + 1 ≤ operations maxRearm phase)
    (hclock : ctx.now ≤ start + (waits m' phase : ℚ) * (phase.fillTimeoutS + d)) :
    Running maxRearm d m' phase start ctx.now := by
  refine ⟨hbegun.trans h.begun, hstate, ?_, fun hidle => absurd hidle htype, hbounded, ?_, ?_⟩
  · simp [hsubmit]
  · simpa [clockOf, hsubmit] using hclock
  · simp only [clockOf, hsubmit, Option.getD_some, patience, htype, if_false]
    linarith [hsane.fillTimeoutS]

theorem Ready.actFirst (h : Ready maxRearm d m phase start ctx.now) (hd : 0 < d)
    (hsane : Sane phase) (htype : phase.phaseType ≠ .idle) (hpending : m.state = .pending)
    (hbegun : m'.phaseStart = m.phaseStart) (hsubmit : m'.submitTime = some ctx.now)
    (hstate : m'.state ≠ .pending) (hwaits : 0 ≤ waits m' phase)
    (hbounded : waits m' phase + 1 ≤ operations maxRearm phase) :
    Running maxRearm d m' phase start ctx.now := by
  apply h.act hsane htype hbegun hsubmit hstate hbounded
  have hpositive : 0 ≤ phase.fillTimeoutS + d := by linarith [hsane.fillTimeoutS]
  have hcast : (0 : ℚ) ≤ waits m' phase := by exact_mod_cast hwaits
  linarith [mul_nonneg hcast hpositive, (h.fresh hpending).1]

theorem Ready.actNext (h : Ready maxRearm d m phase start ctx.now) (hsane : Sane phase)
    (htype : phase.phaseType ≠ .idle) (hbegun : m'.phaseStart = m.phaseStart)
    (hsubmit : m'.submitTime = some ctx.now) (hstate : m'.state ≠ .pending)
    (hwaits : waits m' phase = waits m phase + 1)
    (hbounded : waits m' phase + 1 ≤ operations maxRearm phase) :
    Running maxRearm d m' phase start ctx.now := by
  apply h.act hsane htype hbegun hsubmit hstate hbounded
  rw [hwaits]
  exact_mod_cast h.inWaits htype

theorem continues_handleMarketOpen (h : Ready maxRearm d m phase start ctx.now) (hd : 0 < d)
    (hsane : Sane phase) (htype : phase.phaseType = .marketOpen) :
    Continues maxRearm d (handleMarketOpen m phase ctx).1 phase start ctx.now := by
  have hidle : phase.phaseType ≠ .idle := by simp [htype]
  unfold handleMarketOpen
  split_ifs with hpending
  · exact .inr (h.actFirst hd hsane hidle hpending rfl rfl (by simp [act]) (by simp [waits, htype])
      (by simp [waits, operations, htype]))
  · exact .inl rfl
  · exact .inl rfl
  · exact .inl rfl
  · exact .inl rfl
  · exact .inl rfl
  · exact .inr (h.waiting hpending hidle
      (h.isIssued hpending (by simp [htype]) (by simp [htype])) (by assumption))

/-- What goes on although its wait is over: a limit phase that waits to submit without a look at
its clock, and a close that is retried late. -/
def Overwaits (d : ℚ) (m : FieldStudyPhaseMachine) (phase : FieldStudyPhase) (ctx : PhaseContext) :
    Prop :=
  match phase.phaseType with
  | .limitOpen =>
      (m.state = .pending ∨ m.state = .submit) ∧ ¬ (m.submitTime.isSome = true ∧ ctx.isFilled = true) ∧
        (0 < ctx.activeLimitCount ∨ ctx.hasPending = true) ∧
        phase.fillTimeoutS < ctx.now - clockOf m (m.phaseStart.getD ctx.now)
  | .multiLimit =>
      (m.state = .pending ∨ m.state = .submit) ∧ (m.submittedCount : ℤ) < phase.orderCount ∧
        ctx.hasPending = true ∧
        phase.fillTimeoutS < ctx.now - clockOf m (m.phaseStart.getD ctx.now)
  | .marketCloseAll | .forceClose =>
      m.state ≠ .pending ∧ isFlat phase ctx = false ∧ m.timedOut phase ctx = false ∧
        ctx.hasPending = false ∧
        2 * (phase.fillTimeoutS + d) < ctx.now - m.phaseStart.getD ctx.now
  | _ => False

instance (d : ℚ) (m : FieldStudyPhaseMachine) (phase : FieldStudyPhase) (ctx : PhaseContext) :
    Decidable (Overwaits d m phase ctx) := by
  unfold Overwaits
  cases phase.phaseType <;> infer_instance

theorem Ready.closeInTime (h : Ready maxRearm d m phase start ctx.now)
    (htype : phase.phaseType = .marketCloseAll ∨ phase.phaseType = .forceClose)
    (hprompt : ¬ Overwaits d m phase ctx) (hstate : m.state ≠ .pending)
    (hflat : ¬ isFlat phase ctx = true) (htimeout : ¬ m.timedOut phase ctx = true)
    (hnone : ¬ ctx.hasPending = true) : ctx.now ≤ start + 2 * (phase.fillTimeoutS + d) := by
  by_contra hlate
  apply hprompt
  have hbody : m.state ≠ .pending ∧ isFlat phase ctx = false ∧ m.timedOut phase ctx = false ∧
      ctx.hasPending = false ∧
      2 * (phase.fillTimeoutS + d) < ctx.now - m.phaseStart.getD ctx.now := by
    refine ⟨hstate, by simpa using hflat, by simpa using htimeout, by simpa using hnone, ?_⟩
    rw [h.begun, Option.getD_some]
    linarith
  unfold Overwaits
  rcases htype with htype | htype <;> simpa [htype] using hbody

theorem continues_handleCloseAll (h : Ready maxRearm d m phase start ctx.now) (hd : 0 < d)
    (hsane : Sane phase) (htype : phase.phaseType = .marketCloseAll ∨ phase.phaseType = .forceClose)
    (hprompt : ¬ Overwaits d m phase ctx) :
    Continues maxRearm d (handleCloseAll m phase ctx).1 phase start ctx.now := by
  have hwaits : ∀ m', waits m' phase = 2 := by
    intro m'
    rcases htype with htype | htype <;> simp [waits, htype]
  have hoperations : operations maxRearm phase = 3 := by
    rcases htype with htype | htype <;> simp [operations, htype]
  have hidle : phase.phaseType ≠ .idle := by
    rcases htype with htype | htype <;> simp [htype]
  have hissued : m.state ≠ .pending → m.submitTime ≠ none := by
    intro hpending
    apply h.isIssued hpending <;> rcases htype with htype | htype <;> simp [htype]
  unfold handleCloseAll
  split_ifs with hpending
  · exact .inl rfl
  · exact .inr (h.actFirst hd hsane hidle hpending rfl rfl (by simp [FieldStudyPhaseMachine.act])
      (by simp [hwaits]) (by simp [hwaits, hoperations]))
  · exact .inr (h.actFirst hd hsane hidle hpending rfl rfl (by simp [FieldStudyPhaseMachine.act])
      (by simp [hwaits]) (by simp [hwaits, hoperations]))
  · exact .inl rfl
  · exact .inl rfl
  · exact .inr (h.waiting hpending hidle (hissued hpending) (by assumption))
  · right
    cases closeOperation phase ctx with
    | none => exact h.waiting hpending hidle (hissued hpending) (by assumption)
    | some action =>
        refine h.act hsane hidle rfl rfl hpending (by simp [hwaits, hoperations]) ?_
        rw [hwaits]
        exact h.closeInTime htype hprompt hpending (by assumption) (by assumption) (by assumption)

theorem continues_handleLimitModify (h : Ready maxRearm d m phase start ctx.now) (hd : 0 < d)
    (hsane : Sane phase) (htype : phase.phaseType = .limitModify) :
    Continues maxRearm d (handleLimitModify m phase ctx).1 phase start ctx.now := by
  have hidle : phase.phaseType ≠ .idle := by simp [htype]
  unfold handleLimitModify
  split_ifs with hpending hfilled hrejected hstep
  · exact .inr (h.actFirst hd hsane hidle hpending rfl rfl (by simp [act])
      (by simp [waits, htype]; split <;> simp) (by simp [waits, operations, htype]; split <;> simp))
  · exact .inl rfl
  · exact .inl rfl
  · exact .inr (h.actNext hsane hidle rfl rfl hpending
      (by simp [waits, htype, act, hstep.1]) (by simp [waits, operations, htype, act]))
  · exact .inl rfl
  · exact .inl rfl
  · exact .inr (h.waiting hpending hidle
      (h.isIssued hpending (by simp [htype]) (by simp [htype])) (by assumption))

theorem continues_handleLimitCancel (h : Ready maxRearm d m phase start ctx.now) (hd : 0 < d)
    (hsane : Sane phase) (htype : phase.phaseType = .limitCancel) :
    Continues maxRearm d (handleLimitCancel m phase ctx).1 phase start ctx.now := by
  have hidle : phase.phaseType ≠ .idle := by simp [htype]
  have hissued : m.state ≠ .pending → m.submitTime ≠ none := fun hpending =>
    h.isIssued hpending (by simp [htype]) (by simp [htype])
  unfold handleLimitCancel
  split_ifs with hpending hawait
  · exact .inr (h.actFirst hd hsane hidle hpending rfl rfl (by simp [act])
      (by simp [waits, htype, act]) (by simp [waits, operations, htype, act]))
  · exact .inl rfl
  · exact .inr (h.actNext hsane hidle rfl rfl (by simp [act])
      (by simp [waits, htype, act, hawait]) (by simp [waits, operations, htype, act]))
  · exact .inl rfl
  · exact .inr (h.waiting hpending hidle (hissued hpending) (by assumption))
  · exact .inl rfl
  · exact .inl rfl
  · exact .inr (h.waiting hpending hidle (hissued hpending) (by assumption))

theorem continues_handleMultiCancel (h : Ready maxRearm d m phase start ctx.now) (hd : 0 < d)
    (hsane : Sane phase) (htype : phase.phaseType = .multiCancel) :
    Continues maxRearm d (handleMultiCancel m phase ctx).1 phase start ctx.now := by
  have hidle : phase.phaseType ≠ .idle := by simp [htype]
  unfold handleMultiCancel
  split_ifs with hpending
  · exact .inl rfl
  · exact .inr (h.actFirst hd hsane hidle hpending rfl rfl (by simp [act])
      (by simp [waits, htype]) (by simp [waits, operations, htype]))
  · exact .inl rfl
  · exact .inl rfl
  · exact .inr (h.waiting hpending hidle
      (h.isIssued hpending (by simp [htype]) (by simp [htype])) (by assumption))

theorem continues_handlePartialClose (h : Ready maxRearm d m phase start ctx.now) (hd : 0 < d)
    (hsane : Sane phase) (htype : phase.phaseType = .partialClose) :
    Continues maxRearm d (handlePartialClose m phase ctx).1 phase start ctx.now := by
  have hidle : phase.phaseType ≠ .idle := by simp [htype]
  have hissued : m.state ≠ .pending → m.submitTime ≠ none := fun hpending =>
    h.isIssued hpending (by simp [htype]) (by simp [htype])
  unfold handlePartialClose
  split_ifs with hpending hawait _ _ _ hclose
  · exact .inr (h.actFirst hd hsane hidle hpending rfl rfl (by simp [act])
      (by simp [waits, htype, act]) (by simp [waits, operations, htype, act]))
  · exact .inl rfl
  · exact .inr (h.actNext hsane hidle rfl rfl (by simp [act])
      (by simp [waits, htype, act, hawait]) (by simp [waits, operations, htype, act]))
  · exact .inl rfl
  · exact .inr (h.waiting hpending hidle (hissued hpending) (by assumption))
  · exact .inr (h.actNext hsane hidle rfl rfl (by simp [act])
      (by simp [waits, htype, act, hclose]) (by simp [waits, operations, htype, act]))
  · exact .inl rfl
  · exact .inr (h.waiting hpending hidle (hissued hpending) (by assumption))
  · exact .inl rfl
  · exact .inl rfl
  · exact .inr (h.waiting hpending hidle (hissued hpending) (by assumption))

theorem continues_handleIdle (h : Ready maxRearm d m phase start ctx.now) (hsane : Sane phase)
    (htype : phase.phaseType = .idle) :
    Continues maxRearm d (handleIdle m phase ctx).1 phase start ctx.now := by
  have hbounded : ∀ m', waits m' phase + 1 ≤ operations maxRearm phase := by
    simp [waits, operations, htype]
  unfold handleIdle
  split_ifs with hpending hover
  · right
    have hnow := (h.fresh hpending).1
    refine ⟨h.begun, by simp [wait], by simp [wait], fun _ => by simp [wait, hnow], hbounded _,
      ?_, ?_⟩
    · simp [wait, clockOf, waits, htype, hnow]
    · simp [wait, clockOf, patience, htype, hnow, hsane.idleSeconds]
  · exact .inl rfl
  · right
    have hclock := h.idleClock htype hpending
    refine ⟨h.begun, hpending, h.issued, fun _ => hclock, hbounded _, h.clock, ?_⟩
    simp only [idleOver, hclock, Option.getD_some, decide_eq_true_eq, not_le] at hover
    simp only [wait, clockOf, hclock, Option.getD_some, patience, htype, if_true]
    linarith

/-- The state of a phase may change without an operation. -/
theorem Ready.restate (h : Ready maxRearm d m phase start ctx.now)
    (htype : phase.phaseType ≠ .idle) (hbegun : m'.phaseStart = m.phaseStart)
    (hsubmit : m'.submitTime = m.submitTime) (hstate : m'.state ≠ .pending)
    (hwaits : waits m' phase = waits m phase)
    (hissued : m.submitTime = none → Unissued m' phase) :
    Ready maxRearm d m' phase start ctx.now := by
  refine ⟨hbegun.trans h.begun, fun hpending => absurd hpending hstate, ?_,
    fun hidle => absurd hidle htype, ?_, ?_, ?_⟩
  · rw [hsubmit]
    exact hissued
  · rw [hwaits]
    exact h.bounded
  · rw [hwaits, clockOf, hsubmit]
    exact h.clock
  · rw [clockOf, hsubmit]
    exact h.late

theorem continues_awaitMultiLimit (h : Ready maxRearm d m phase start ctx.now)
    (htype : phase.phaseType = .multiLimit) (hpending : m.state ≠ .pending)
    (hissued : m.submitTime ≠ none) :
    Continues maxRearm d (awaitMultiLimit m phase ctx).1 phase start ctx.now := by
  unfold awaitMultiLimit
  split_ifs
  · exact .inl rfl
  · exact .inl rfl
  · exact .inr (h.waiting hpending (by simp [htype]) hissued (by assumption))

theorem continues_handleMultiLimit (h : Ready maxRearm d m phase start ctx.now)
    (hsane : Sane phase) (htype : phase.phaseType = .multiLimit)
    (hprompt : ¬ Overwaits d m phase ctx) :
    Continues maxRearm d (handleMultiLimit m phase ctx).1 phase start ctx.now := by
  have hidle : phase.phaseType ≠ .idle := by simp [htype]
  have hbounded := h.bounded
  simp only [waits, operations, htype] at hbounded
  unfold handleMultiLimit
  split_ifs with hsubmit hmore hnone
  · right
    have hready : Ready maxRearm d { m with state := .submit } phase start ctx.now :=
      h.restate hidle rfl rfl (by simp) (by simp [waits, htype]) fun hclock =>
        ⟨(h.issued hclock).1, .inr rfl, fun _ => .inr htype⟩
    apply hready.stays (by simp) hidle
    by_contra hlate
    simp only [Overwaits, htype, hsubmit, hmore, hnone, true_and, not_lt, h.begun,
      Option.getD_some] at hprompt
    change ¬ ctx.now ≤ clockOf m start + phase.fillTimeoutS at hlate
    linarith
  · exact .inr (h.actNext hsane hidle rfl rfl (by simp [act])
      (by simp [waits, htype, act]) (by simp [waits, operations, htype, act]; omega))
  · by_cases hclock : m.submitTime = none
    · -- nothing has been submitted, so the phase asks for no order
      have hcount := (h.issued hclock).1
      left
      unfold awaitMultiLimit
      rw [if_pos]
      · rfl
      · omega
    · have hready : Ready maxRearm d { m with state := .awaitFill } phase start ctx.now :=
        h.restate hidle rfl rfl (by simp) (by simp [waits, htype]) fun hnone =>
          absurd hnone hclock
      exact continues_awaitMultiLimit hready htype (by simp) hclock
  · have hpending : m.state ≠ .pending := fun hpending => hsubmit (.inl hpending)
    apply continues_awaitMultiLimit h htype hpending
    intro hclock
    exact hsubmit (h.issued hclock).2.1

theorem continues_submitLimitOpen (h : Ready maxRearm d m phase start ctx.now)
    (hsane : Sane phase) (htype : phase.phaseType = .limitOpen) (hstate : m.state = .submit)
    (hprompt : ¬ Overwaits d m phase ctx) :
    Continues maxRearm d (submitLimitOpen m phase ctx).1 phase start ctx.now := by
  have hidle : phase.phaseType ≠ .idle := by simp [htype]
  have hbounded := h.bounded
  simp only [waits, operations, htype, hstate] at hbounded
  unfold submitLimitOpen
  split_ifs with hfilled hrests
  · exact .inl rfl
  · right
    apply h.stays (by simp [hstate]) hidle
    by_contra hlate
    simp only [Overwaits, htype, hstate, hfilled, hrests, or_true, not_false_eq_true, true_and,
      not_lt, h.begun, Option.getD_some] at hprompt
    linarith
  · exact .inr (h.actNext hsane hidle rfl rfl (by simp [act])
      (by simp [waits, htype, act, hstate])
      (by simp [waits, operations, htype, act] at hbounded ⊢; omega))

theorem continues_awaitLimitOpen (h : Ready maxRearm d m phase start ctx.now)
    (hmax : 0 < maxRearm) (hcap : m.maxRearm = maxRearm) (hsane : Sane phase)
    (htype : phase.phaseType = .limitOpen) (hstate : ¬ (m.state = .pending ∨ m.state = .submit)) :
    Continues maxRearm d (awaitLimitOpen m phase ctx).1 phase start ctx.now := by
  have hidle : phase.phaseType ≠ .idle := by simp [htype]
  have hpending : m.state ≠ .pending := fun hpending => hstate (.inl hpending)
  unfold awaitLimitOpen
  split_ifs with hfilled hrejected hexpect htimeout hagain
  · exact .inl rfl
  · exact .inl rfl
  · exact .inl rfl
  · have hattempts : (m.rearmAttempts : ℤ) < maxRearm := by
      simp only [maySubmitAgain, Bool.and_eq_true, Bool.or_eq_true, decide_eq_true_eq] at hagain
      omega
    exact .inr (h.actNext hsane hidle rfl rfl (by simp [act])
      (by simp [waits, htype, act, hstate]; omega)
      (by simp [waits, operations, htype, act]; omega))
  · exact .inl rfl
  · exact .inr (h.waiting hpending hidle
      (fun hclock => hstate (h.issued hclock).2.1) (by assumption))

theorem continues_handleLimitOpen (h : Ready maxRearm d m phase start ctx.now)
    (hmax : 0 < maxRearm) (hcap : m.maxRearm = maxRearm) (hsane : Sane phase)
    (htype : phase.phaseType = .limitOpen) (hprompt : ¬ Overwaits d m phase ctx) :
    Continues maxRearm d (handleLimitOpen m phase ctx).1 phase start ctx.now := by
  unfold handleLimitOpen
  split_ifs with hsubmit
  · have hready : Ready maxRearm d { m with state := .submit } phase start ctx.now :=
      h.restate (by simp [htype]) rfl rfl (by simp) (by simp [waits, htype, hsubmit]) fun hclock =>
        ⟨(h.issued hclock).1, .inr rfl, fun _ => .inl htype⟩
    apply continues_submitLimitOpen hready hsane htype rfl
    simp only [Overwaits, htype, hsubmit, true_and, clockOf] at hprompt
    simpa only [Overwaits, htype, or_true, true_and, clockOf] using hprompt
  · exact continues_awaitLimitOpen h hmax hcap hsane htype hsubmit

theorem continues_handle (h : Ready maxRearm d m phase start ctx.now) (hd : 0 < d)
    (hmax : 0 < maxRearm) (hcap : m.maxRearm = maxRearm) (hsane : Sane phase)
    (hprompt : ¬ Overwaits d m phase ctx) :
    Continues maxRearm d (handle m phase ctx).1 phase start ctx.now := by
  unfold handle
  split
  · next htype => exact continues_handleMarketOpen h hd hsane htype
  · next htype => exact continues_handleCloseAll h hd hsane (.inl htype) hprompt
  · next htype => exact continues_handleCloseAll h hd hsane (.inr htype) hprompt
  · next htype => exact continues_handleLimitOpen h hmax hcap hsane htype hprompt
  · next htype => exact continues_handleLimitModify h hd hsane htype
  · next htype => exact continues_handleLimitCancel h hd hsane htype
  · next htype => exact continues_handleMultiLimit h hsane htype hprompt
  · next htype => exact continues_handleMultiCancel h hd hsane htype
  · next htype => exact continues_handlePartialClose h hd hsane htype
  · next htype => exact continues_handleIdle h hsane htype
  · exact .inl rfl

end Handlers

section Bounds

variable {maxRearm : ℤ} {d : ℚ} {m : FieldStudyPhaseMachine} {phase : FieldStudyPhase}
  {ctx : PhaseContext} {last : Option ℚ}

def InTime (maxRearm : ℤ) (d : ℚ) (phase : FieldStudyPhase) (result : PhaseResult) : Prop :=
  ∃ start, result.startedUtc = some start ∧
    result.endedUtc - start ≤ phaseBudget maxRearm d phase

/-- Every phase that has been left was within its budget, and the current one is. -/
structure Bounded (maxRearm : ℤ) (d : ℚ) (m : FieldStudyPhaseMachine) (last : Option ℚ) :
    Prop where
  left : List.Forall₂ (InTime maxRearm d) (m.phases.take m.idx) m.results
  current : ∀ phase ∈ m.phases[m.idx]?, ∀ start ∈ m.phaseStart, ∀ now ∈ last,
    now - start < phaseBudget maxRearm d phase

/-- No wait of the current phase goes on although it is over. -/
def Prompt (d : ℚ) (m : FieldStudyPhaseMachine) (ctx : PhaseContext) : Prop :=
  ∀ phase ∈ m.phases[m.idx]?, ¬ Overwaits d (entered m phase ctx) phase ctx

instance (d : ℚ) (m : FieldStudyPhaseMachine) (ctx : PhaseContext) : Decidable (Prompt d m ctx) :=
  inferInstanceAs (Decidable (∀ _ ∈ _, _))

def PromptRun (d : ℚ) (m : FieldStudyPhaseMachine) : List PhaseContext → Prop
  | [] => True
  | ctx :: rest => Prompt d m ctx ∧ PromptRun d (m.advance ctx).1 rest

instance decidablePromptRun (d : ℚ) :
    ∀ (m : FieldStudyPhaseMachine) (observations : List PhaseContext),
      Decidable (PromptRun d m observations)
  | _, [] => .isTrue trivial
  | m, ctx :: rest =>
      have := decidablePromptRun d (m.advance ctx).1 rest
      inferInstanceAs (Decidable (_ ∧ _))

/-- What a run keeps: a phase in progress is running, and without one no clock is set. -/
structure Progress (maxRearm : ℤ) (d : ℚ) (m : FieldStudyPhaseMachine) (last : Option ℚ) :
    Prop where
  cap : m.maxRearm = maxRearm
  left : List.Forall₂ (InTime maxRearm d) (m.phases.take m.idx) m.results
  between : m.phaseStart = none → m.submitTime = none
  current : ∀ phase ∈ m.phases[m.idx]?, ∀ start ∈ m.phaseStart,
    ∃ now ∈ last, Running maxRearm d m phase start now

theorem ready_enter (hclock : m.submitTime = none) (hd : 0 < d) (hmax : 0 < maxRearm)
    (hsane : Sane phase) :
    Ready maxRearm d (enter m phase ctx) phase ctx.now ctx.now := by
  have hentered : (enter m phase ctx).submitTime = none := hclock
  have hwaits : 0 ≤ waits (enter m phase ctx) phase ∧
      waits (enter m phase ctx) phase + 1 ≤ operations maxRearm phase := by
    have := hsane.orderCount
    cases htype : phase.phaseType <;> simp [waits, operations, htype, enter] <;> omega
  refine ⟨rfl, fun _ => ⟨rfl, hentered, rfl, rfl⟩, fun _ => ⟨rfl, .inl rfl, by simp [enter]⟩,
    fun _ hpending => absurd rfl hpending, hwaits.2, ?_, ?_⟩
  · have hpositive : 0 ≤ phase.fillTimeoutS + d := by linarith [hsane.fillTimeoutS]
    have hcast : (0 : ℚ) ≤ waits (enter m phase ctx) phase := by exact_mod_cast hwaits.1
    rw [clockOf, hentered, Option.getD_none]
    linarith [mul_nonneg hcast hpositive]
  · rw [clockOf, hentered, Option.getD_none]
    linarith [patience_nonneg hsane]

/-- An observation finds a phase ready, at its begin or in progress. -/
theorem Progress.ready (h : Progress maxRearm d m last) (hd : 0 < d) (hmax : 0 < maxRearm)
    (hspaced : ∀ now ∈ last, now < ctx.now ∧ ctx.now ≤ now + d)
    (hphase : m.phases[m.idx]? = some phase) (hsane : Sane phase) :
    ∃ start, Ready maxRearm d (entered m phase ctx) phase start ctx.now := by
  cases hstart : m.phaseStart with
  | none =>
      have hentered : entered m phase ctx = enter m phase ctx := by
        simp [entered, hstart]
      rw [hentered]
      exact ⟨ctx.now, ready_enter (h.between hstart) hd hmax hsane⟩
  | some start =>
      obtain ⟨now, hnow, hrunning⟩ := h.current phase hphase start hstart
      have hentered : entered m phase ctx = m := by
        simp [entered, hstart]
      rw [hentered]
      exact ⟨start, hrunning.ready (hspaced now hnow).2⟩

theorem continues_advance {start : ℚ} (hphase : m.phases[m.idx]? = some phase)
    (hready : Ready maxRearm d (entered m phase ctx) phase start ctx.now) (hd : 0 < d)
    (hmax : 0 < maxRearm) (hcap : (entered m phase ctx).maxRearm = maxRearm)
    (hsane : Sane phase) (hprompt : ¬ Overwaits d (entered m phase ctx) phase ctx) :
    Continues maxRearm d (m.advance ctx).1 phase start ctx.now := by
  unfold FieldStudyPhaseMachine.advance
  rw [hphase]
  simp only
  split_ifs
  · exact .inl rfl
  · exact continues_handle hready hd hmax hcap hsane hprompt

theorem Progress.advance (h : Progress maxRearm d m last) (hd : 0 < d) (hmax : 0 < maxRearm)
    (hsane : ∀ phase ∈ m.phases, Sane phase)
    (hspaced : ∀ now ∈ last, now < ctx.now ∧ ctx.now ≤ now + d) (hprompt : Prompt d m ctx) :
    Progress maxRearm d (m.advance ctx).1 (some ctx.now) := by
  cases hphase : m.phases[m.idx]? with
  | none =>
      have hsame : (m.advance ctx).1 = m := by
        unfold FieldStudyPhaseMachine.advance
        rw [hphase]
      rw [hsame]
      exact ⟨h.cap, h.left, h.between, by simp [hphase]⟩
  | some phase =>
      have hphaseSane := hsane phase (List.mem_of_getElem? hphase)
      obtain ⟨start, hready⟩ := h.ready hd hmax hspaced hphase hphaseSane
      obtain ⟨hphases, hcap, hidx, hresults⟩ := entered_records m phase ctx
      have hcontinues := continues_advance hphase hready hd hmax (hcap.trans h.cap) hphaseSane
        (hprompt phase hphase)
      cases stepped_advance m phase ctx hphase with
      | left hsame outcome reason attempts hleft =>
          have hresult : List.Forall₂ (InTime maxRearm d) [phase] [⟨phase.phaseId,
              phase.phaseType, outcome, reason, (entered m phase ctx).phaseStart, ctx.now,
              attempts⟩] :=
            .cons ⟨start, hready.begun, hready.inBudget hmax hd hphaseSane⟩ .nil
          rw [hleft]
          refine ⟨(hsame.maxRearm.trans hcap).trans h.cap, ?_, fun _ => rfl, ?_⟩
          · simp only [record, hsame.phases, hsame.idx, hsame.results, hsame.phaseStart, hphases,
              hidx, hresults, List.take_add_one, hphase, Option.toList_some]
            exact List.rel_append h.left hresult
          · simp [record]
      | stayed hsame =>
          have hbegun := hsame.phaseStart.trans hready.begun
          have hrunning := hcontinues.resolve_left (by simp [hbegun])
          refine ⟨(hsame.maxRearm.trans hcap).trans h.cap, ?_, by simp [hbegun], ?_⟩
          · rw [hsame.phases, hsame.idx, hsame.results, hphases, hidx, hresults]
            exact h.left
          · rw [hsame.phases, hsame.idx, hphases, hidx, hphase, hbegun]
            rintro _ ⟨⟩ _ ⟨⟩
            exact ⟨ctx.now, rfl, hrunning⟩

theorem phases_advance : (m.advance ctx).1.phases = m.phases := by
  cases hphase : m.phases[m.idx]? with
  | none =>
      unfold FieldStudyPhaseMachine.advance
      rw [hphase]
  | some phase =>
      have hentered := (entered_records m phase ctx).1
      cases stepped_advance m phase ctx hphase with
      | left hsame outcome reason attempts hleft =>
          rw [hleft]
          exact hsame.phases.trans hentered
      | stayed hsame => exact hsame.phases.trans hentered

theorem Progress.runFrom (h : Progress maxRearm d m last) (hd : 0 < d) (hmax : 0 < maxRearm)
    (hsane : ∀ phase ∈ m.phases, Sane phase) {observations : List PhaseContext}
    (hspaced : Spaced d last observations) (hprompt : PromptRun d m observations) :
    Progress maxRearm d (runFrom m observations) (lastTime last observations) ∧
      (runFrom m observations).phases = m.phases := by
  induction observations generalizing m last with
  | nil => exact ⟨h, rfl⟩
  | cons ctx observations ih =>
      have hnext := h.advance hd hmax hsane hspaced.1 hprompt.1
      have hphases : (m.advance ctx).1.phases = m.phases := phases_advance
      rw [← hphases]
      apply ih hnext _ hspaced.2 hprompt.2
      rw [hphases]
      exact hsane

theorem Progress.bounded (h : Progress maxRearm d m last) (hd : 0 < d) (hmax : 0 < maxRearm)
    (hsane : ∀ phase ∈ m.phases, Sane phase) : Bounded maxRearm d m last := by
  refine ⟨h.left, ?_⟩
  intro phase hphase start hstart now hnow
  obtain ⟨now', hnow', hrunning⟩ := h.current phase hphase start hstart
  have hsame : now' = now := Option.some.inj (hnow'.symm.trans hnow)
  subst hsame
  have hphaseSane := hsane phase (List.mem_of_getElem? hphase)
  have hlater := (hrunning.ready (le_refl (now' + d))).inBudget hmax hd hphaseSane
  linarith

/-- The results of a run are always those of the phases left, and if no wait goes on although it
is over, every phase is within its budget. -/
theorem phases_in_time (phases : List FieldStudyPhase) (defaultLot defaultOffset rearmShrink : ℚ)
    (maxRearm : ℤ) :
    (∀ observations, Recorded (runFrom
      (newMachine phases defaultLot defaultOffset maxRearm rearmShrink) observations)) ∧
    ∀ d, 0 < maxRearm → 0 < d → (∀ phase ∈ phases, Sane phase) → ∀ observations,
      Spaced d none observations →
      PromptRun d (newMachine phases defaultLot defaultOffset maxRearm rearmShrink)
        observations →
      Bounded maxRearm d
        (runFrom (newMachine phases defaultLot defaultOffset maxRearm rearmShrink) observations)
        (lastTime none observations) := by
  constructor
  · intro observations
    have hstart : Recorded (newMachine phases defaultLot defaultOffset maxRearm rearmShrink) :=
      List.Forall₂.nil
    exact hstart.runFrom observations
  · intro d hmax hd hsane observations hspaced hprompt
    have hstart : Progress maxRearm d
        (newMachine phases defaultLot defaultOffset maxRearm rearmShrink) none :=
      ⟨rfl, .nil, fun _ => rfl, by simp [newMachine]⟩
    obtain ⟨hprogress, hphases⟩ := hstart.runFrom hd hmax hsane hspaced hprompt
    apply hprogress.bounded hd hmax
    rw [hphases]
    exact hsane

def observation (now : ℚ) (openPositionCount activeLimitCount : ℕ) (hasPending : Bool) :
    PhaseContext :=
  { now := now, midPrice := 2000, openPositionCount := openPositionCount
    activeLimitCount := activeLimitCount, hasPending := hasPending, filledSinceSubmit := false
    rejectedSinceSubmit := false, cancelledSinceSubmit := false, currentPositionLots := none
    budgetOk := true }

def closePhase : FieldStudyPhase :=
  { phaseId := "close", phaseType := .marketCloseAll, fillTimeoutS := 1, idleSeconds := 0 }

def rearmedPhase : FieldStudyPhase :=
  { phaseId := "limit", phaseType := .limitOpen, side := .long, fillTimeoutS := 1
    idleSeconds := 0, rearm := true }

/-- A limit order that is submitted once nothing is pending, cancelled, submitted again once its
cancellation is over and filled; and a close that is retried once. -/
def rearmedAndClosed : List PhaseContext :=
  [observation 0 0 0 true, observation 1 0 0 false, observation 2 0 1 false,
    observation 3 0 1 false, observation 4 0 1 true, observation 5 0 0 false,
    observation 6 1 0 false, observation 7 1 0 false, observation 8 1 0 false,
    observation 9 0 0 false]

theorem phases_in_time_rearmed :
    (runFrom (newMachine [rearmedPhase, closePhase] (1 / 100) (1 / 500) 3 (1 / 4))
        rearmedAndClosed).results.map (fun result => (result.outcome, result.endedUtc)) =
      [(.pass, 6), (.pass, 9)] ∧
    Bounded 3 1
      (runFrom (newMachine [rearmedPhase, closePhase] (1 / 100) (1 / 500) 3 (1 / 4))
        rearmedAndClosed)
      (lastTime none rearmedAndClosed) := by
  refine ⟨by decide +kernel, (phases_in_time _ _ _ _ 3).2 1 (by norm_num) (by norm_num) ?_ _ ?_ ?_⟩
  · simp only [List.forall_mem_cons, List.not_mem_nil, false_implies, implies_true, and_true]
    exact ⟨⟨zero_le_one, le_rfl, zero_le_one⟩, zero_le_one, le_rfl, zero_le_one⟩
  · decide +kernel
  · decide +kernel

def closeRetried : List PhaseContext :=
  [0, 1, 2, 3, 4, 5, 6, 7, 8].map fun now => observation now 1 0 false

/-- Each retry of the close restarts its clock: after 8 seconds the phase is still in progress, and
it may last 7. -/
theorem close_retried_beyond_budget :
    Spaced 1 none closeRetried ∧
      ¬ Bounded 3 1 (runFrom (newMachine [closePhase] (1 / 100) (1 / 500) 3 (1 / 4)) closeRetried)
        (lastTime none closeRetried) := by
  constructor
  · simp [Spaced, closeRetried, observation]
    norm_num
  · intro h
    have hlate :=
      h.current closePhase (by decide +kernel) 0 (by decide +kernel) 8 (by decide +kernel)
    revert hlate
    decide +kernel

end Bounds

end Finiex.PhaseTimeouts
