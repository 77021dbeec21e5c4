import Finiex.SwapAccrual

namespace Finiex.SwapCountdown

open Finiex.Types
open Finiex.Lib.Windows
open Finiex.Fees
open Finiex.SwapAccrual

section Clock

inductive CalendarError
  | noSwapRollover (after : Instant)
  deriving DecidableEq

/-- Scan `count` local days from `day` for the first crossing behind `after`. -/
def scanNextRollover (zones : ZoneDatabase) (rollover : SwapRolloverConfig)
    (tripleWeekdayPy : ℤ) (after : Instant) : ℕ → ℤ → Except CalendarError (Instant × ℤ)
  | 0, _ => .error (.noSwapRollover after)
  | count + 1, day =>
      let rest := scanNextRollover zones rollover tripleWeekdayPy after count (day + 1)
      if weekday day ≤ 4 then
        let rolloverUtc := localTimeToUtc zones day rollover
        if after < rolloverUtc then
          .ok (rolloverUtc, if weekday day = tripleWeekdayPy then 3 else 1)
        else rest
      else rest

def nextSwapRollover (zones : ZoneDatabase) (rollover : SwapRolloverConfig)
    (tripleWeekdayPy : ℤ) (after : Instant) : Except CalendarError (Instant × ℤ) :=
  scanNextRollover zones rollover tripleWeekdayPy after 8 (dayOf after)

end Clock

section Ahead

/-- What the countdown relies on from the timezone database, at this rollover time: a zone may
leave out a day, so that two days share an instant. -/
structure ZoneOrder (zones : ZoneDatabase) (rollover : SwapRolloverConfig) : Prop where
  monotone : Monotone fun day => localTimeToUtc zones day rollover
  near : ∀ day, day - 1 ≤ dayOf (localTimeToUtc zones day rollover) ∧
    dayOf (localTimeToUtc zones day rollover) ≤ day + 1

variable {zones : ZoneDatabase} {rollover : SwapRolloverConfig} {tripleWeekdayPy : ℤ}
variable {after : Instant} {day : ℤ}

/-- A trading day whose rollover is still to come. -/
def Ahead (zones : ZoneDatabase) (rollover : SwapRolloverConfig) (after : Instant) (day : ℤ) :
    Prop :=
  TradingDay day ∧ after < localTimeToUtc zones day rollover

theorem scanNextRollover_of_ahead {count : ℕ} (hday : Ahead zones rollover after day) :
    scanNextRollover zones rollover tripleWeekdayPy after (count + 1) day =
      .ok (crossing zones rollover tripleWeekdayPy day) := by
  have htrading : weekday day ≤ 4 := hday.1
  rw [scanNextRollover, if_pos htrading, if_pos hday.2]
  rfl

theorem scanNextRollover_of_not_ahead {count : ℕ} (hday : ¬ Ahead zones rollover after day) :
    scanNextRollover zones rollover tripleWeekdayPy after (count + 1) day =
      scanNextRollover zones rollover tripleWeekdayPy after count (day + 1) := by
  rw [scanNextRollover]
  split
  · next htrading => rw [if_neg fun hahead => hday ⟨htrading, hahead⟩]
  · rfl

theorem scanNextRollover_eq_ok {count n : ℕ} (hn : n < count)
    (hday : Ahead zones rollover after (day + n))
    (hbefore : ∀ d, day ≤ d → d < day + n → ¬ Ahead zones rollover after d) :
    scanNextRollover zones rollover tripleWeekdayPy after count day =
      .ok (crossing zones rollover tripleWeekdayPy (day + n)) := by
  induction count generalizing day n with
  | zero => omega
  | succ count ih =>
      cases n with
      | zero =>
          simp only [Nat.cast_zero, add_zero] at hday ⊢
          exact scanNextRollover_of_ahead hday
      | succ n =>
          have hnext : day + (n + 1 : ℕ) = day + 1 + n := by
            push_cast
            ring
          rw [hnext] at hday hbefore ⊢
          rw [scanNextRollover_of_not_ahead (hbefore day (le_refl _) (by omega))]
          exact ih (by omega) hday fun d hlow hhigh => hbefore d (by omega) hhigh

/-- A rollover ahead falls on the day before the instant's own, or later. -/
theorem le_of_ahead (hzones : ZoneOrder zones rollover) (hday : Ahead zones rollover after day) :
    dayOf after - 1 ≤ day := by
  have hmono := dayOf_mono hday.2.le
  have hnear := (hzones.near day).2
  omega

theorem ahead_of_le (hzones : ZoneOrder zones rollover) (htrading : TradingDay day)
    (hday : dayOf after + 2 ≤ day) : Ahead zones rollover after day := by
  refine ⟨htrading, ?_⟩
  by_contra hnot
  have hmono := dayOf_mono (not_lt.mp hnot)
  have hnear := (hzones.near day).1
  omega

def nextTradingDay (day : ℤ) : ℤ := if weekday day ≤ 4 then day else day + (7 - weekday day)

theorem nextTradingDay_spec (day : ℤ) :
    TradingDay (nextTradingDay day) ∧ day ≤ nextTradingDay day ∧ nextTradingDay day ≤ day + 2 ∧
      ∀ d, day ≤ d → d < nextTradingDay day → ¬ TradingDay d := by
  unfold nextTradingDay TradingDay weekday
  by_cases htrading : (day + 3) % 7 ≤ 4
  · rw [if_pos htrading]
    exact ⟨htrading, by omega, by omega, fun d hlow hhigh => by omega⟩
  · rw [if_neg htrading]
    exact ⟨by omega, by omega, by omega, fun d hlow hhigh => by omega⟩

theorem exists_ahead (hzones : ZoneOrder zones rollover) (after : Instant) :
    ∃ n : ℕ, n ≤ 4 ∧ Ahead zones rollover after (dayOf after + n) := by
  obtain ⟨htrading, hlow, hhigh, -⟩ := nextTradingDay_spec (dayOf after + 2)
  refine ⟨(nextTradingDay (dayOf after + 2) - dayOf after).toNat, by omega, ?_⟩
  rw [Int.toNat_of_nonneg (by omega), add_sub_cancel]
  exact ahead_of_le hzones htrading hlow

theorem exists_first (hzones : ZoneOrder zones rollover) (after : Instant) :
    ∃ day, Ahead zones rollover after day ∧ dayOf after ≤ day ∧
      (∀ d, dayOf after ≤ d → d < day → ¬ Ahead zones rollover after d) ∧
      ∀ tripleWeekdayPy, nextSwapRollover zones rollover tripleWeekdayPy after =
        .ok (crossing zones rollover tripleWeekdayPy day) := by
  classical
  obtain ⟨bound, hbound, hahead⟩ := exists_ahead hzones after
  have hexists : ∃ n : ℕ, Ahead zones rollover after (dayOf after + n) := ⟨bound, hahead⟩
  have hfirst : ∀ d, dayOf after ≤ d → d < dayOf after + Nat.find hexists →
      ¬ Ahead zones rollover after d := by
    intro d hlow hhigh hd
    apply Nat.find_min hexists (m := (d - dayOf after).toNat) (by omega)
    rwa [Int.toNat_of_nonneg (by omega), add_sub_cancel]
  refine ⟨dayOf after + Nat.find hexists, Nat.find_spec hexists, by omega, hfirst, ?_⟩
  intro tripleWeekdayPy
  have hle : Nat.find hexists ≤ bound := Nat.find_min' hexists hahead
  exact scanNextRollover_eq_ok (by omega) (Nat.find_spec hexists) hfirst

/-- The enumeration starts with the first day of all whose rollover is ahead. -/
theorem iterSwapRollovers_head (hzones : ZoneOrder zones rollover)
    (hday : Ahead zones rollover after day)
    (hfirst : ∀ d, d < day → ¬ Ahead zones rollover after d) (tripleWeekdayPy : ℤ)
    {stop : Instant} (hne : iterSwapRollovers zones rollover tripleWeekdayPy after stop ≠ []) :
    (iterSwapRollovers zones rollover tripleWeekdayPy after stop).head hne =
      crossing zones rollover tripleWeekdayPy day := by
  obtain ⟨days, hdays, hiter⟩ :=
    iterSwapRollovers_days_of_near zones rollover tripleWeekdayPy hzones.near after stop
  cases days with
  | nil => exact absurd hiter hne
  | cons head later =>
      have hhead := (hdays.mem_iff head).mp List.mem_cons_self
      have hle : day ≤ head := not_lt.mp fun hlt => hfirst head hlt ⟨hhead.1, hhead.2.1⟩
      have hmem : day ∈ head :: later :=
        (hdays.mem_iff day).mpr ⟨hday.1, hday.2, (hzones.monotone hle).trans hhead.2.2⟩
      have hsame : head = day := by
        rcases List.mem_cons.mp hmem with rfl | hlater
        · rfl
        · exact absurd ((List.pairwise_cons.mp hdays.ascending).1 day hlater) (not_lt.mpr hle)
      simp only [hiter, List.map_cons, List.head_cons, hsame]

theorem iterSwapRollovers_ne_nil (hzones : ZoneOrder zones rollover)
    (hday : Ahead zones rollover after day) (tripleWeekdayPy : ℤ) :
    iterSwapRollovers zones rollover tripleWeekdayPy after (localTimeToUtc zones day rollover) ≠
      [] := by
  obtain ⟨days, hdays, hiter⟩ := iterSwapRollovers_days_of_near zones rollover tripleWeekdayPy
    hzones.near after (localTimeToUtc zones day rollover)
  have hmem := (hdays.mem_iff day).mpr ⟨hday.1, hday.2, le_refl _⟩
  rw [hiter, Ne, List.map_eq_nil_iff]
  exact List.ne_nil_of_mem hmem

end Ahead

section Agreement

variable {zones : ZoneDatabase} {rollover : SwapRolloverConfig}

/-- Where rollovers are charged behind an instant, the countdown names the first of them. -/
def Agrees (zones : ZoneDatabase) (rollover : SwapRolloverConfig) (tripleWeekdayPy : ℤ)
    (after : Instant) : Prop :=
  ∀ (stop : Instant) (hne : iterSwapRollovers zones rollover tripleWeekdayPy after stop ≠ []),
    nextSwapRollover zones rollover tripleWeekdayPy after =
      .ok ((iterSwapRollovers zones rollover tripleWeekdayPy after stop).head hne)

/-- The countdown starts on the instant's UTC date: it agrees unless the trading day before has
its rollover still ahead. Then it names the rollover of the next trading day, which is the same
one only where the zone leaves out the day between. -/
theorem agrees_iff (hzones : ZoneOrder zones rollover) (tripleWeekdayPy : ℤ) (after : Instant) :
    Agrees zones rollover tripleWeekdayPy after ↔
      (Ahead zones rollover after (dayOf after - 1) →
        crossing zones rollover tripleWeekdayPy (nextTradingDay (dayOf after)) =
          crossing zones rollover tripleWeekdayPy (dayOf after - 1)) := by
  obtain ⟨day, hday, hlow, hfirst, hnext⟩ := exists_first hzones after
  by_cases hbefore : Ahead zones rollover after (dayOf after - 1)
  · have hfirst' : ∀ d, d < dayOf after - 1 → ¬ Ahead zones rollover after d :=
      fun d hlt hahead => absurd (le_of_ahead hzones hahead) (by omega)
    obtain ⟨htrading, hlow', -, hskipped⟩ := nextTradingDay_spec (dayOf after)
    have hsame : day = nextTradingDay (dayOf after) := by
      refine le_antisymm ?_ ?_
      · refine not_lt.mp fun hlt => hfirst _ hlow' hlt ⟨htrading, ?_⟩
        exact hbefore.2.trans_le (hzones.monotone (by omega))
      · exact not_lt.mp fun hlt => hskipped day hlow hlt hday.1
    subst hsame
    constructor
    · intro hagrees _
      have hne := iterSwapRollovers_ne_nil hzones hbefore tripleWeekdayPy
      have hhead := hagrees _ hne
      rw [iterSwapRollovers_head hzones hbefore hfirst' tripleWeekdayPy hne, hnext] at hhead
      exact Except.ok.inj hhead
    · intro hcrossing stop hne
      rw [iterSwapRollovers_head hzones hbefore hfirst' tripleWeekdayPy hne, hnext,
        hcrossing hbefore]
  · refine ⟨fun _ hahead => absurd hahead hbefore, fun _ stop hne => ?_⟩
    have hfirst' : ∀ d, d < day → ¬ Ahead zones rollover after d := by
      intro d hlt hahead
      have hle := le_of_ahead hzones hahead
      rcases eq_or_lt_of_le hle with rfl | hgt
      · exact hbefore hahead
      · exact hfirst d (by omega) hlt hahead
    rw [iterSwapRollovers_head hzones hday hfirst' tripleWeekdayPy hne, hnext]

theorem newYorkWinter_order (hour : ℕ) (hhour : hour < 24) :
    ZoneOrder newYorkWinter { hour := hour, minute := 0, timezone := "America/New_York" } := by
  have hutc : ∀ day, localTimeToUtc newYorkWinter day
      { hour := hour, minute := 0, timezone := "America/New_York" } =
        day * 86400000000 + (hour * 3600000000 + 18000000000) := by
    intro day
    unfold localTimeToUtc newYorkWinter microsecondsPerDay
    push_cast
    ring
  constructor
  · intro day day' h
    simpa only [hutc] using
      Int.add_le_add_right (Int.mul_le_mul_of_nonneg_right h (by decide)) _
  · intro day
    rw [hutc, dayOf, Int.fdiv_eq_ediv_of_nonneg _ (by decide), microsecondsPerDay]
    omega

/-- Eight in the evening in New York is one o'clock of the next UTC day in winter. -/
def newYorkEvening : SwapRolloverConfig :=
  { hour := 20, minute := 0, timezone := "America/New_York" }

/-- Half an hour into Wednesday 2024-01-10 (UTC), the rollover of Tuesday is half an hour away;
the countdown names the one of Wednesday. -/
theorem countdown_misses_tuesday :
    ZoneOrder newYorkWinter newYorkEvening ∧
      ¬ Agrees newYorkWinter newYorkEvening 2 (19732 * microsecondsPerDay + 1800000000) := by
  refine ⟨newYorkWinter_order 20 (by decide), fun hagrees => ?_⟩
  have hnext := hagrees (19732 * microsecondsPerDay + 43200000000) (by decide)
  revert hnext
  decide

theorem agrees_iff_newYorkClose :
    Agrees newYorkWinter newYorkClose 2 (19732 * microsecondsPerDay + 1800000000) :=
  (agrees_iff (newYorkWinter_order 17 (by decide)) 2 _).mpr fun hahead =>
    absurd hahead.2 (by decide)

end Agreement

end Finiex.SwapCountdown
