import Finiex.Lib.Dict
import Finiex.Lib.Rounding
import Finiex.Orders
import Mathlib.Data.List.Induction

namespace Finiex.OrderGuards

open Finiex.Types
open Finiex.Lib
open Finiex.Orders

section Guard

structure MarketDataStatus where
  isStale : Bool := false
  secondsSinceLastTick : ℚ := 0

structure OrderGuard where
  cooldownSeconds : ℚ := 60
  maxConsecutiveRejections : ℤ := 2
  blockStaleMarketData : Bool := true
  rejectionCounts : Dict OrderDirection ℤ := ∅
  cooldownUntil : Dict OrderDirection Instant := ∅

def cooldownOf (cooldownSeconds : ℚ) : ℤ := Rounding.roundHalfEven (cooldownSeconds * 1000000)

namespace OrderGuard

def new (cooldownSeconds : ℚ) (maxConsecutiveRejections : ℤ) (blockStaleMarketData : Bool) :
    OrderGuard :=
  { cooldownSeconds, maxConsecutiveRejections, blockStaleMarketData }

variable (guard : OrderGuard)

def cooldown : ℤ := cooldownOf guard.cooldownSeconds

def staleRejection (orderId : String) (status : MarketDataStatus) : OrderResult :=
  createRejectionResult orderId .staleMarketData (.marketDataStale status.secondsSinceLastTick)

def cooldownRejection (orderId : String) (direction : OrderDirection) (remaining : ℤ) :
    OrderResult :=
  createRejectionResult orderId .rejectionCooldown
    (.blockedByCooldown direction (remaining / 1000000))

def staleBlocked (marketDataStatus : Option MarketDataStatus) : Bool :=
  marketDataStatus.any fun status => guard.blockStaleMarketData && status.isStale

/-- The cooldown rule of `validate`. -/
def checkCooldown (direction : OrderDirection) (now : Instant) (orderId : String) :
    Option OrderResult :=
  match guard.cooldownUntil.get? direction with
  | none => none
  | some cooldownUntil =>
      if cooldownUntil > now then
        some (cooldownRejection orderId direction (cooldownUntil - now))
      else none

/-- `validate`, with the id `_make_order_id` gives a rejection. -/
def validate (request : OpenOrderRequest) (now : Instant)
    (marketDataStatus : Option MarketDataStatus) (orderId : String) : Option OrderResult :=
  match marketDataStatus with
  | none => guard.checkCooldown request.direction now orderId
  | some status =>
      if guard.blockStaleMarketData && status.isStale then some (staleRejection orderId status)
      else guard.checkCooldown request.direction now orderId

def recordRejection (direction : OrderDirection) (now : Instant) : OrderGuard :=
  let count := guard.rejectionCounts.getD direction 0 + 1
  { guard with
    rejectionCounts := guard.rejectionCounts.set direction count
    cooldownUntil :=
      if guard.maxConsecutiveRejections ≤ count then
        guard.cooldownUntil.set direction (now + guard.cooldown)
      else guard.cooldownUntil }

def recordSuccess (direction : OrderDirection) : OrderGuard :=
  { guard with
    rejectionCounts := guard.rejectionCounts.set direction 0
    cooldownUntil := guard.cooldownUntil.erase direction }

def isDirectionBlocked (direction : OrderDirection) (now : Instant) : Bool :=
  match guard.cooldownUntil.get? direction with
  | none => false
  | some cooldownUntil => decide (cooldownUntil > now)

end OrderGuard

end Guard

section Api

def cooldownRejectionReasons : List RejectionReason :=
  [.insufficientMargin, .insufficientFunds, .brokerError, .marketClosed]

/-- A rejection by the broker or the account, not by local validation. -/
def feedsCooldown (result : OrderResult) : Bool :=
  decide (result.status = .rejected) &&
    result.rejectionReason.any fun reason => decide (reason ∈ cooldownRejectionReasons)

def onOrderOutcome (guard : OrderGuard) (direction : OrderDirection) (result : OrderResult)
    (now : Instant) : OrderGuard :=
  if result.status = .rejected then
    if feedsCooldown result then guard.recordRejection direction now else guard
  else if result.status = .executed then guard.recordSuccess direction
  else guard

end Api

section History

inductive GuardEvent
  | rejection (direction : OrderDirection) (now : Instant)
  | success (direction : OrderDirection)
  deriving DecidableEq

namespace GuardEvent

def direction : GuardEvent → OrderDirection
  | .rejection direction _ => direction
  | .success direction => direction

def rejectedAt (d : OrderDirection) : GuardEvent → Option Instant
  | .rejection direction now => if direction = d then some now else none
  | .success _ => none

end GuardEvent

def recordEvent (guard : OrderGuard) : GuardEvent → OrderGuard
  | .rejection direction now => guard.recordRejection direction now
  | .success direction => guard.recordSuccess direction

def recordHistory (guard : OrderGuard) (history : List GuardEvent) : OrderGuard :=
  history.foldl recordEvent guard

/-- The times of a direction's rejections since its last success, newest first. -/
def rejectionsSinceSuccess (direction : OrderDirection) (history : List GuardEvent) :
    List Instant :=
  (history.reverse.takeWhile fun event => event != .success direction).filterMap
    (GuardEvent.rejectedAt direction)

variable {direction other : OrderDirection} {history : List GuardEvent} {now : Instant}

@[simp] theorem recordHistory_append_singleton (guard : OrderGuard) (history : List GuardEvent)
    (event : GuardEvent) :
    recordHistory guard (history ++ [event]) = recordEvent (recordHistory guard history) event := by
  simp [recordHistory]

@[simp] theorem rejectionsSinceSuccess_nil (direction : OrderDirection) :
    rejectionsSinceSuccess direction [] = [] := rfl

@[simp] theorem rejectionsSinceSuccess_success (direction : OrderDirection)
    (history : List GuardEvent) :
    rejectionsSinceSuccess direction (history ++ [.success direction]) = [] := by
  simp [rejectionsSinceSuccess]

@[simp] theorem rejectionsSinceSuccess_rejection (direction : OrderDirection)
    (history : List GuardEvent) (now : Instant) :
    rejectionsSinceSuccess direction (history ++ [.rejection direction now]) =
      now :: rejectionsSinceSuccess direction history := by
  simp [rejectionsSinceSuccess, GuardEvent.rejectedAt]

theorem rejectionsSinceSuccess_other {event : GuardEvent} (h : event.direction ≠ direction) :
    rejectionsSinceSuccess direction (history ++ [event]) =
      rejectionsSinceSuccess direction history := by
  cases event with
  | rejection other now =>
      have hne : other ≠ direction := h
      simp [rejectionsSinceSuccess, GuardEvent.rejectedAt, hne]
  | success other =>
      have hne : other ≠ direction := h
      simp [rejectionsSinceSuccess, List.filterMap_cons, GuardEvent.rejectedAt, hne]

theorem rejectionsSinceSuccess_filter (direction : OrderDirection) (history : List GuardEvent) :
    rejectionsSinceSuccess direction
        (history.filter fun event => decide (event.direction = direction)) =
      rejectionsSinceSuccess direction history := by
  induction history using List.reverseRecOn with
  | nil => rfl
  | append_singleton history event ih =>
      rw [List.filter_append]
      by_cases h : event.direction = direction
      · cases event with
        | rejection d now =>
            cases h
            simpa [GuardEvent.direction] using ih
        | success d =>
            cases h
            simp [GuardEvent.direction]
      · simpa [h, rejectionsSinceSuccess_other h] using ih

end History

section Contract

variable {direction : OrderDirection} {now : Instant}

/-- What the two dictionaries hold of a direction after a history. -/
structure Tracks (guard : OrderGuard) (direction : OrderDirection) (rejections : List Instant) :
    Prop where
  count : guard.rejectionCounts.getD direction 0 = rejections.length
  deadline : guard.cooldownUntil.get? direction =
    if guard.maxConsecutiveRejections ≤ rejections.length then
      rejections.head?.map (· + guard.cooldown)
    else none

variable {guard : OrderGuard} {rejections : List Instant}

theorem Tracks.recordRejection (h : Tracks guard direction rejections) (now : Instant) :
    Tracks (guard.recordRejection direction now) direction (now :: rejections) := by
  have hcount : guard.rejectionCounts.getD direction 0 + 1 = ((now :: rejections).length : ℤ) := by
    rw [h.count, List.length_cons]
    push_cast
    rfl
  refine ⟨?_, ?_⟩
  · simp only [OrderGuard.recordRejection, Dict.getD, Dict.get?_set_self, Option.getD_some]
    exact hcount
  · simp only [OrderGuard.recordRejection, hcount, OrderGuard.cooldown]
    split
    · simp
    · next hbelow =>
        rw [h.deadline, if_neg]
        rw [List.length_cons] at hbelow
        push_cast at hbelow
        omega

theorem Tracks.recordSuccess (guard : OrderGuard) (direction : OrderDirection) :
    Tracks (guard.recordSuccess direction) direction [] := by
  refine ⟨?_, ?_⟩
  · simp [OrderGuard.recordSuccess, Dict.getD]
  · simp [OrderGuard.recordSuccess]

theorem Tracks.recordOther (h : Tracks guard direction rejections) {event : GuardEvent}
    (hother : event.direction ≠ direction) :
    Tracks (recordEvent guard event) direction rejections := by
  obtain ⟨hcount, hdeadline⟩ := h
  cases event with
  | rejection other now =>
      have hne : direction ≠ other := Ne.symm hother
      refine ⟨?_, ?_⟩
      · rw [← hcount]
        simp only [recordEvent, OrderGuard.recordRejection, Dict.getD, Dict.get?_set_ne _ _ hne]
      · refine Eq.trans ?_ hdeadline
        simp only [recordEvent, OrderGuard.recordRejection]
        split
        · exact Dict.get?_set_ne _ _ hne
        · rfl
  | success other =>
      have hne : direction ≠ other := Ne.symm hother
      refine ⟨?_, ?_⟩
      · rw [← hcount]
        simp only [recordEvent, OrderGuard.recordSuccess, Dict.getD, Dict.get?_set_ne _ _ hne]
      · exact Eq.trans (Dict.get?_erase_ne _ hne) hdeadline

theorem tracks_recordHistory (hcounts : guard.rejectionCounts = ∅)
    (hdeadlines : guard.cooldownUntil = ∅) (direction : OrderDirection)
    (history : List GuardEvent) :
    Tracks (recordHistory guard history) direction (rejectionsSinceSuccess direction history) := by
  induction history using List.reverseRecOn with
  | nil =>
      refine ⟨?_, ?_⟩
      · simp [recordHistory, hcounts, Dict.getD]
      · simp [recordHistory, hdeadlines]
  | append_singleton history event ih =>
      rw [recordHistory_append_singleton]
      by_cases hown : event.direction = direction
      · cases event with
        | rejection d now =>
            cases hown
            simpa [recordEvent, GuardEvent.direction] using ih.recordRejection now
        | success d =>
            cases hown
            simpa [recordEvent, GuardEvent.direction] using
              Tracks.recordSuccess (recordHistory guard history) d
      · rw [rejectionsSinceSuccess_other hown]
        exact ih.recordOther hown

@[simp] theorem maxConsecutiveRejections_recordHistory (guard : OrderGuard)
    (history : List GuardEvent) :
    (recordHistory guard history).maxConsecutiveRejections = guard.maxConsecutiveRejections := by
  induction history using List.reverseRecOn with
  | nil => rfl
  | append_singleton history event ih =>
      rw [recordHistory_append_singleton, ← ih]
      cases event <;> rfl

@[simp] theorem cooldown_recordHistory (guard : OrderGuard) (history : List GuardEvent) :
    (recordHistory guard history).cooldown = guard.cooldown := by
  induction history using List.reverseRecOn with
  | nil => rfl
  | append_singleton history event ih =>
      rw [recordHistory_append_singleton, ← ih]
      cases event <;> rfl

/-- What the guard promises: enough rejections of a direction since its last success, and the
latest of them less than a cooldown ago. -/
def Blocked (maxConsecutiveRejections cooldown : ℤ) (history : List GuardEvent)
    (direction : OrderDirection) (now : Instant) : Prop :=
  maxConsecutiveRejections ≤ (rejectionsSinceSuccess direction history).length ∧
    ∃ latest, (rejectionsSinceSuccess direction history).head? = some latest ∧
      now < latest + cooldown

theorem Tracks.isDirectionBlocked_iff (h : Tracks guard direction rejections) (now : Instant) :
    guard.isDirectionBlocked direction now = true ↔
      guard.maxConsecutiveRejections ≤ rejections.length ∧
        ∃ latest, rejections.head? = some latest ∧ now < latest + guard.cooldown := by
  rw [OrderGuard.isDirectionBlocked, h.deadline]
  by_cases hcount : guard.maxConsecutiveRejections ≤ rejections.length
  · rw [if_pos hcount, and_iff_right hcount]
    cases rejections <;> simp
  · simp [hcount]

def isCooldownRejection (result : OrderResult) : Bool :=
  decide (result.rejectionReason = some .rejectionCooldown)

theorem any_checkCooldown (guard : OrderGuard) (direction : OrderDirection) (now : Instant)
    (orderId : String) :
    (guard.checkCooldown direction now orderId).any isCooldownRejection =
      guard.isDirectionBlocked direction now := by
  rw [OrderGuard.checkCooldown, OrderGuard.isDirectionBlocked]
  rcases guard.cooldownUntil.get? direction with _ | deadline
  · rfl
  · by_cases hlater : deadline > now
    · simp only [hlater, if_true, decide_true]
      rfl
    · simp only [hlater, if_false, decide_false]
      rfl

theorem any_validate (guard : OrderGuard) (request : OpenOrderRequest) (now : Instant)
    (marketDataStatus : Option MarketDataStatus) (orderId : String) :
    (guard.validate request now marketDataStatus orderId).any isCooldownRejection =
      (!guard.staleBlocked marketDataStatus &&
        guard.isDirectionBlocked request.direction now) := by
  rw [← any_checkCooldown guard request.direction now orderId]
  rcases marketDataStatus with _ | status
  · rfl
  · rw [OrderGuard.validate, OrderGuard.staleBlocked, Option.any_some]
    rcases guard.blockStaleMarketData && status.isStale with _ | _
    · rfl
    · rfl

theorem isDirectionBlocked_iff (cooldownSeconds : ℚ) (maxConsecutiveRejections : ℤ)
    (blockStaleMarketData : Bool) (history : List GuardEvent) (direction : OrderDirection)
    (now : Instant) :
    (recordHistory (.new cooldownSeconds maxConsecutiveRejections blockStaleMarketData)
        history).isDirectionBlocked direction now = true ↔
      Blocked maxConsecutiveRejections (cooldownOf cooldownSeconds) history direction now := by
  have htracks : Tracks (recordHistory
      (.new cooldownSeconds maxConsecutiveRejections blockStaleMarketData) history) direction
        (rejectionsSinceSuccess direction history) :=
    tracks_recordHistory rfl rfl direction history
  rw [htracks.isDirectionBlocked_iff, maxConsecutiveRejections_recordHistory,
    cooldown_recordHistory]
  rfl

theorem blocked_filter (maxConsecutiveRejections cooldown : ℤ) (history : List GuardEvent)
    (direction : OrderDirection) (now : Instant) :
    Blocked maxConsecutiveRejections cooldown
        (history.filter fun event => decide (event.direction = direction)) direction now ↔
      Blocked maxConsecutiveRejections cooldown history direction now := by
  rw [Blocked, Blocked, rejectionsSinceSuccess_filter]

/-- Over every history the guard blocks a direction exactly when enough of its rejections since
its last success stand and the latest is less than a cooldown ago; the other direction's events
do not matter, and `validate` reaches the same verdict. -/
theorem guard_contract (cooldownSeconds : ℚ) (maxConsecutiveRejections : ℤ)
    (blockStaleMarketData : Bool) (history : List GuardEvent) (direction : OrderDirection)
    (now : Instant) :
    ((recordHistory (.new cooldownSeconds maxConsecutiveRejections blockStaleMarketData)
          history).isDirectionBlocked direction now = true ↔
        Blocked maxConsecutiveRejections (cooldownOf cooldownSeconds) history direction now) ∧
      (recordHistory (.new cooldownSeconds maxConsecutiveRejections blockStaleMarketData)
          history).isDirectionBlocked direction now =
        (recordHistory (.new cooldownSeconds maxConsecutiveRejections blockStaleMarketData)
          (history.filter fun event =>
            decide (event.direction = direction))).isDirectionBlocked direction now ∧
      ∀ (request : OpenOrderRequest) (marketDataStatus : Option MarketDataStatus)
          (orderId : String),
        ((recordHistory (.new cooldownSeconds maxConsecutiveRejections blockStaleMarketData)
            history).validate request now marketDataStatus orderId).any isCooldownRejection =
          (!(recordHistory (.new cooldownSeconds maxConsecutiveRejections blockStaleMarketData)
              history).staleBlocked marketDataStatus &&
            (recordHistory (.new cooldownSeconds maxConsecutiveRejections blockStaleMarketData)
              history).isDirectionBlocked request.direction now) := by
  refine ⟨?_, ?_, fun request marketDataStatus orderId => any_validate _ _ _ _ _⟩
  · apply isDirectionBlocked_iff
  · apply Bool.eq_iff_iff.mpr
    rw [isDirectionBlocked_iff, isDirectionBlocked_iff, blocked_filter]

end Contract

end Finiex.OrderGuards
