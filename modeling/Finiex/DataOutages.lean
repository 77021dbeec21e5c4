import Finiex.SignalLoading

/-!
# Planned outages of the market data

The driver that walks the planned outages of the tick source along the ticks, and the tracker that
records the outages a run has observed.
-/

namespace Finiex.DataOutages

open Finiex.Types
open Finiex.SignalLoading

section Driver

structure MarketDataStatus where
  isStale : Bool := false
  staleSince : Option Instant := none
  secondsSinceLastTick : ℤ := 0
  reconnectCount : ℕ := 0
  deriving DecidableEq

structure StressEvent extends StaleDataEvent where
  label : String
  deriving DecidableEq

structure StaleDataStressDriver where
  events : List StressEvent
  idx : ℕ := 0
  active : Option StressEvent := none
  status : MarketDataStatus := {}

namespace StaleDataStressDriver

def leave (driver : StaleDataStressDriver) (tickTime : Instant) : StaleDataStressDriver :=
  match driver.active with
  | some event =>
      if event.staleEndDate ≤ tickTime then
        { driver with status := {}, active := none, idx := driver.idx + 1 }
      else driver
  | none => driver

def skip (driver : StaleDataStressDriver) (tickTime : Instant) : StaleDataStressDriver :=
  match driver.active with
  | some _ => driver
  | none =>
      { driver with
        idx := driver.idx + ((driver.events.drop driver.idx).takeWhile fun event =>
          event.staleEndDate ≤ tickTime).length }

/-- `on_tick`, with the status the decision logic is notified of. -/
def onTick (driver : StaleDataStressDriver) (tickTime : Instant) :
    StaleDataStressDriver × Option MarketDataStatus :=
  let driver := (driver.leave tickTime).skip tickTime
  match driver.events[driver.idx]? with
  | none => (driver, none)
  | some event =>
      if tickTime < event.staleStartDate then (driver, none)
      else
        let status : MarketDataStatus :=
          { isStale := true
            staleSince := some event.staleStartDate
            secondsSinceLastTick := tickTime - event.staleStartDate }
        match driver.active with
        | none => ({ driver with active := some event, status := status }, some status)
        | some _ => ({ driver with status := status }, none)

def getActiveLabel (driver : StaleDataStressDriver) : String :=
  (driver.active.map StressEvent.label).getD ""

end StaleDataStressDriver

def getEventsForSource (events : List StressEvent) (dataSource : String) : List StressEvent :=
  (events.filter fun event => event.dataSource = dataSource).insertionSort fun event later =>
    event.staleStartDate ≤ later.staleStartDate

theorem getEventsForSource_sorted (events : List StressEvent) (dataSource : String) :
    (getEventsForSource events dataSource).Pairwise fun event later =>
      event.staleStartDate ≤ later.staleStartDate :=
  List.pairwise_insertionSort _ _

end Driver

section Tracker

inductive DisturbanceDomain
  | tick
  | signal
  deriving DecidableEq

inductive DisturbanceOrigin
  | liveReal
  | stressInjected
  deriving DecidableEq

structure DisturbanceEpisode where
  source : String
  domain : DisturbanceDomain
  staleFrom : Instant
  staleTo : Option Instant
  durationSeconds : ℤ
  origin : DisturbanceOrigin := .liveReal
  label : String := ""
  symbol : String := ""
  deriving DecidableEq

/-- The tracker of a simulation, which measures on the axis of the ticks. -/
structure MarketDataEpisodeTracker where
  source : String
  episodes : List DisturbanceEpisode := []
  openFrom : Option Instant := none
  openLabel : String := ""
  lastTickTime : Option Instant := none
  freshTicks : ℕ := 0
  staleTicks : ℕ := 0

namespace MarketDataEpisodeTracker

def buildEpisode (tracker : MarketDataEpisodeTracker) (openFrom : Instant)
    (staleTo : Option Instant) (stop : Instant) : DisturbanceEpisode where
  source := tracker.source
  domain := .tick
  staleFrom := openFrom
  staleTo := staleTo
  durationSeconds := max 0 (stop - openFrom)
  origin := if tracker.openLabel = "" then .liveReal else .stressInjected
  label := tracker.openLabel

def observe (tracker : MarketDataEpisodeTracker) (now : Instant) (status : MarketDataStatus)
    (injectedLabel : String) : MarketDataEpisodeTracker :=
  match tracker.openFrom with
  | none =>
      if status.isStale then { tracker with openFrom := some now, openLabel := injectedLabel }
      else tracker
  | some openFrom =>
      if status.isStale then
        if injectedLabel ≠ "" ∧ tracker.openLabel = "" then
          { tracker with openLabel := injectedLabel }
        else tracker
      else
        { tracker with
          episodes := tracker.episodes ++ [tracker.buildEpisode openFrom (some now) now]
          openFrom := none
          openLabel := "" }

def onTick (tracker : MarketDataEpisodeTracker) (now : Instant) (status : MarketDataStatus)
    (injectedLabel : String) : MarketDataEpisodeTracker :=
  let counted :=
    if status.isStale then { tracker with staleTicks := tracker.staleTicks + 1 }
    else { tracker with freshTicks := tracker.freshTicks + 1 }
  { counted.observe now status injectedLabel with lastTickTime := some now }

def getEpisodes (tracker : MarketDataEpisodeTracker) (runEnd : Option Instant) :
    List DisturbanceEpisode :=
  match tracker.openFrom with
  | none => tracker.episodes
  | some openFrom =>
      tracker.episodes ++ [tracker.buildEpisode openFrom none
        (runEnd.getD (tracker.lastTickTime.getD openFrom))]

end MarketDataEpisodeTracker

end Tracker

section Runs

/-- What a tick leaves: the status that is set at the executor, and the one the decision logic is
notified of. -/
structure Observation where
  time : Instant
  status : MarketDataStatus
  notified : Option MarketDataStatus
  label : String

def drive (driver : StaleDataStressDriver) : List Instant → List Observation
  | [] => []
  | time :: ticks =>
      let step := driver.onTick time
      { time := time, status := step.1.status, notified := step.2
        label := step.1.getActiveLabel } :: drive step.1 ticks

def track (tracker : MarketDataEpisodeTracker) (observations : List Observation) :
    MarketDataEpisodeTracker :=
  observations.foldl (fun tracker observation =>
    tracker.onTick observation.time observation.status observation.label) tracker

def covers (event : StressEvent) (moment : Instant) : Bool :=
  inWindow moment (event.staleStartDate, event.staleEndDate)

def windowAt (events : List StressEvent) (moment : Instant) : Option ℕ :=
  events.findIdx? fun event => covers event moment

/-- The maximal runs of consecutive stale ticks: the first tick of each, and the next fresh one. -/
def staleRuns : List (Instant × Bool) → List (Instant × Option Instant)
  | [] => []
  | (_, false) :: ticks => staleRuns ticks
  | (time, true) :: ticks =>
      (time, (ticks.dropWhile Prod.snd).head?.map Prod.fst) ::
        staleRuns (ticks.dropWhile Prod.snd)
  termination_by ticks => ticks.length
  decreasing_by
    · exact Nat.lt_succ_self _
    · exact Nat.lt_succ_of_le (List.dropWhile_sublist _).length_le

def span (episode : DisturbanceEpisode) : Instant × Option Instant :=
  (episode.staleFrom, episode.staleTo)

end Runs

section Driving

variable {driver : StaleDataStressDriver} {now stop : Instant}

/-- Where a driver stands: the windows behind it are over, the active one is at its place, and the
status is stale as long as one is active. -/
structure Steady (driver : StaleDataStressDriver) (now : Instant) : Prop where
  passed : ∀ event ∈ driver.events.take driver.idx, event.staleEndDate ≤ now
  place : ∀ event ∈ driver.active, driver.events[driver.idx]? = some event
  started : ∀ event ∈ driver.active, event.staleStartDate ≤ now
  status : driver.status.isStale = driver.active.isSome

theorem Steady.later (h : Steady driver now) (hle : now ≤ stop) : Steady driver stop :=
  ⟨fun event hmem => (h.passed event hmem).trans hle, h.place,
    fun event hmem => (h.started event hmem).trans hle, h.status⟩

theorem getElem?_length_takeWhile {α : Type} {p : α → Bool} {xs : List α} {x : α}
    (h : xs[(xs.takeWhile p).length]? = some x) : p x = false := by
  induction xs with
  | nil => cases h
  | cons y xs ih =>
      cases hp : p y with
      | true =>
          rw [List.takeWhile_cons_of_pos hp, List.length_cons, List.getElem?_cons_succ] at h
          exact ih h
      | false =>
          rw [List.takeWhile_cons_of_neg (by simp [hp])] at h
          exact Option.some.inj h ▸ hp

theorem Steady.skip (h : Steady driver now) (hnone : driver.active = none) :
    Steady (driver.skip now) now ∧ (driver.skip now).events = driver.events ∧
      (driver.skip now).active = none ∧ driver.idx ≤ (driver.skip now).idx ∧
        ∀ event ∈ driver.events[(driver.skip now).idx]?, now < event.staleEndDate := by
  have hskip : driver.skip now =
      { driver with
        idx := driver.idx + ((driver.events.drop driver.idx).takeWhile fun event =>
          event.staleEndDate ≤ now).length } := by
    rw [StaleDataStressDriver.skip, hnone]
  have hprefix : (driver.events.drop driver.idx).take
      ((driver.events.drop driver.idx).takeWhile fun event =>
        event.staleEndDate ≤ now).length =
      (driver.events.drop driver.idx).takeWhile fun event => event.staleEndDate ≤ now :=
    (List.prefix_iff_eq_take.mp (List.takeWhile_prefix _)).symm
  rw [hskip]
  refine ⟨⟨?_, ?_, ?_, h.status⟩, rfl, hnone, Nat.le_add_right _ _, ?_⟩
  · dsimp only
    intro event hmem
    rw [List.take_add, hprefix, List.mem_append] at hmem
    rcases hmem with hmem | hmem
    · exact h.passed event hmem
    · simpa using List.all_eq_true.mp List.all_takeWhile event hmem
  · intro event hactive
    dsimp only at hactive
    rw [hnone] at hactive
    cases hactive
  · exact h.started
  · dsimp only
    intro event hmem
    rw [Option.mem_def, ← List.getElem?_drop] at hmem
    simpa using getElem?_length_takeWhile hmem

/-- Leaving the active window and skipping those that are over leads to the first that is not. -/
theorem Steady.advance (h : Steady driver now) (hle : now ≤ stop) :
    Steady ((driver.leave stop).skip stop) stop ∧
      ((driver.leave stop).skip stop).events = driver.events ∧
      driver.idx ≤ ((driver.leave stop).skip stop).idx ∧
      (∀ event ∈ driver.events[((driver.leave stop).skip stop).idx]?, stop < event.staleEndDate) ∧
      (((driver.leave stop).skip stop).active.isSome = true ↔
        driver.active.isSome = true ∧ ((driver.leave stop).skip stop).idx = driver.idx) := by
  cases hactive : driver.active with
  | none =>
      have hleave : driver.leave stop = driver := by
        rw [StaleDataStressDriver.leave, hactive]
      obtain ⟨hsteady, hevents, hnone, hidx, hahead⟩ := (h.later hle).skip hactive
      rw [hleave]
      exact ⟨hsteady, hevents, hidx, hahead, by simp [hnone]⟩
  | some event =>
      have hplace := h.place event hactive
      by_cases hover : event.staleEndDate ≤ stop
      · have hleave : driver.leave stop =
            { driver with status := {}, active := none, idx := driver.idx + 1 } := by
          rw [StaleDataStressDriver.leave, hactive]
          exact if_pos hover
        have hleft : Steady (driver.leave stop) stop := by
          rw [hleave]
          refine ⟨?_, ?_, ?_, rfl⟩
          · dsimp only
            intro other hmem
            rw [List.take_add_one, hplace, Option.toList_some, List.mem_append,
              List.mem_singleton] at hmem
            rcases hmem with hmem | rfl
            · exact (h.passed other hmem).trans hle
            · exact hover
          · exact fun other hmem => (nomatch hmem)
          · exact fun other hmem => (nomatch hmem)
        have hfields : (driver.leave stop).active = none ∧
            (driver.leave stop).events = driver.events ∧
              (driver.leave stop).idx = driver.idx + 1 := by
          rw [hleave]
          exact ⟨rfl, rfl, rfl⟩
        obtain ⟨hsteady, hevents, hnone, hidx, hahead⟩ := hleft.skip hfields.1
        rw [hfields.2.1] at hevents hahead
        rw [hfields.2.2] at hidx
        refine ⟨hsteady, hevents, by omega, hahead, ?_⟩
        rw [hnone]
        simp
        omega
      · have hleave : driver.leave stop = driver := by
          rw [StaleDataStressDriver.leave, hactive]
          exact if_neg hover
        have hskip : driver.skip stop = driver := by
          rw [StaleDataStressDriver.skip, hactive]
        rw [hleave, hskip]
        refine ⟨h.later hle, rfl, le_rfl, fun other hmem => ?_, by simp [hactive]⟩
        rw [hplace] at hmem
        cases hmem
        exact not_le.mp hover

/-- What a tick does: it ends at the first window that is not over, which is active if it has
begun, and notifies of it unless it was active before. -/
theorem Steady.onTick (h : Steady driver now) (hle : now ≤ stop) :
    Steady (driver.onTick stop).1 stop ∧ (driver.onTick stop).1.events = driver.events ∧
      driver.idx ≤ (driver.onTick stop).1.idx ∧
      (∀ event ∈ driver.events[(driver.onTick stop).1.idx]?, stop < event.staleEndDate) ∧
      (driver.onTick stop).1.active = (driver.events[(driver.onTick stop).1.idx]?).filter
        (fun event => event.staleStartDate ≤ stop) ∧
      ((driver.onTick stop).2.isSome = true ↔ (driver.onTick stop).1.active.isSome = true ∧
        ¬(driver.active.isSome = true ∧ (driver.onTick stop).1.idx = driver.idx)) := by
  obtain ⟨hsteady, hevents, hidx, hahead, hactive⟩ := h.advance hle
  unfold StaleDataStressDriver.onTick
  generalize (driver.leave stop).skip stop = moved at hsteady hevents hidx hahead hactive ⊢
  dsimp only
  rw [← hevents] at hahead ⊢
  split
  · next hnone =>
      have hidle : moved.active = none := by
        cases hmoved : moved.active with
        | none => rfl
        | some event =>
            have hplace := hsteady.place event hmoved
            rw [hnone] at hplace
            cases hplace
      refine ⟨hsteady, rfl, hidx, hahead, ?_, ?_⟩
      · rw [hidle, hnone]
        rfl
      · simp [hidle]
  · next event hevent =>
      have hsame : ∀ other ∈ moved.active, other = event := by
        intro other hother
        have hplace := hsteady.place other hother
        rw [hevent] at hplace
        exact (Option.some.inj hplace).symm
      split
      · next hbefore =>
          have hidle : moved.active = none := by
            cases hmoved : moved.active with
            | none => rfl
            | some other =>
                have hstarted := hsteady.started other hmoved
                rw [hsame other hmoved] at hstarted
                exact absurd hbefore (not_lt.mpr hstarted)
          refine ⟨hsteady, rfl, hidx, hahead, ?_, ?_⟩
          · rw [hidle, hevent, Option.filter_some, if_neg (by simpa using hbefore)]
          · simp [hidle]
      · next hbegun =>
          have hfilter : (some event).filter
              (fun event : StressEvent => decide (event.staleStartDate ≤ stop)) = some event := by
            rw [Option.filter_some, if_pos (by simpa using hbegun)]
          split
          · next hidle =>
              rw [hidle] at hactive
              refine ⟨⟨hsteady.passed, ?_, ?_, rfl⟩, rfl, hidx, hahead, ?_, ?_⟩
              · rintro other hother
                cases hother
                exact hevent
              · rintro other hother
                cases hother
                exact not_lt.mp hbegun
              · rw [hevent, hfilter]
              · simpa using hactive
          · next other hother =>
              have hboth := hsame other hother
              subst hboth
              rw [hother] at hactive
              refine ⟨⟨hsteady.passed, hsteady.place, hsteady.started, ?_⟩, rfl, hidx, hahead,
                ?_, ?_⟩
              · dsimp only
                rw [hother]
                rfl
              · dsimp only
                rw [hother, hevent, hfilter]
              · simpa [hother] using hactive

end Driving

section Observed

variable {driver : StaleDataStressDriver} {now stop : Instant} {events : List StressEvent}

theorem covers_iff {event : StressEvent} :
    covers event stop = true ↔ event.staleStartDate ≤ stop ∧ stop < event.staleEndDate := by
  simp [covers, inWindow]

theorem not_covers_of_over {event : StressEvent} (h : event.staleEndDate ≤ stop) :
    covers event stop = false := by
  rw [Bool.eq_false_iff, Ne, covers_iff]
  exact fun hcovers => absurd h (not_le.mpr hcovers.2)

/-- The window that covers a moment is the first one that is not over, once it has begun. -/
theorem windowAt_of_passed {idx : ℕ}
    (hsorted : events.Pairwise fun event later => event.staleStartDate ≤ later.staleStartDate)
    (hpassed : ∀ event ∈ events.take idx, event.staleEndDate ≤ stop)
    (hahead : ∀ event ∈ events[idx]?, stop < event.staleEndDate) :
    windowAt events stop =
      ((events[idx]?).filter fun event => event.staleStartDate ≤ stop).map fun _ => idx := by
  have hover : ∀ event ∈ events.take idx, covers event stop = false :=
    fun event hmem => not_covers_of_over (hpassed event hmem)
  unfold windowAt
  cases hplace : events[idx]? with
  | none =>
      rw [List.take_of_length_le (List.getElem?_eq_none_iff.mp hplace)] at hover
      exact List.findIdx?_eq_none_iff.mpr hover
  | some event =>
      obtain ⟨hlt, hget⟩ := List.getElem?_eq_some_iff.mp hplace
      rw [Option.filter_some]
      split
      · next hbegun =>
          rw [Option.map_some, List.findIdx?_eq_some_iff_getElem]
          refine ⟨hlt, ?_, fun place hplace' => ?_⟩
          · rw [hget, covers_iff]
            exact ⟨by simpa using hbegun, hahead event hplace⟩
          · rw [hover _ (List.mem_take_iff_getElem.mpr ⟨place, by omega, rfl⟩)]
            simp
      · next hbefore =>
          rw [Option.map_none, List.findIdx?_eq_none_iff]
          intro other hmem
          have hbefore' : stop < event.staleStartDate := by simpa using hbefore
          rw [← List.take_append_drop idx events, List.mem_append] at hmem
          rcases hmem with hmem | hmem
          · exact hover other hmem
          · have hlater : event.staleStartDate ≤ other.staleStartDate := by
              rw [List.drop_eq_getElem_cons hlt, hget] at hmem
              rcases List.mem_cons.mp hmem with rfl | hmem
              · exact le_rfl
              · have hdrop := hsorted.sublist (List.drop_sublist idx events)
                rw [List.drop_eq_getElem_cons hlt, hget] at hdrop
                exact (List.pairwise_cons.mp hdrop).1 other hmem
            rw [Bool.eq_false_iff, Ne, covers_iff]
            exact fun hcovers => absurd (hcovers.1.trans_lt hbefore') (not_lt.mpr hlater)

theorem windowAt_ne_of_passed {idx place : ℕ} (hplace : place < idx)
    (hpassed : ∀ event ∈ events.take idx, event.staleEndDate ≤ stop) :
    windowAt events stop ≠ some place := by
  intro hwindow
  obtain ⟨hlt, hcovers, -⟩ := List.findIdx?_eq_some_iff_getElem.mp hwindow
  have hmem : events[place] ∈ events.take idx :=
    List.mem_take_iff_getElem.mpr ⟨place, by omega, rfl⟩
  rw [not_covers_of_over (hpassed _ hmem)] at hcovers
  cases hcovers

theorem windowAt_isSome_iff :
    (windowAt events stop).isSome = true ↔ ∃ event ∈ events, covers event stop = true := by
  rw [windowAt, List.findIdx?_isSome, List.any_eq_true]

/-- The statuses a driver leaves are stale within the windows; nothing else is notified of. -/
theorem drive_stale
    (hsorted : driver.events.Pairwise fun event later =>
      event.staleStartDate ≤ later.staleStartDate)
    (hsteady : Steady driver now) {ticks : List Instant} (hticks : (now :: ticks).Pairwise (· ≤ ·)) :
    ∀ observation ∈ drive driver ticks,
      observation.status.isStale = (windowAt driver.events observation.time).isSome ∧
        (observation.notified.isSome = true →
          (windowAt driver.events observation.time).isSome = true) := by
  induction ticks generalizing driver now with
  | nil => exact fun observation hmem => (nomatch hmem)
  | cons time ticks ih =>
      obtain ⟨hfirst, hrest⟩ := List.pairwise_cons.mp hticks
      obtain ⟨hnext, hevents, hidx, hahead, hactive, hnotified⟩ :=
        hsteady.onTick (hfirst time List.mem_cons_self)
      have hpassed := hnext.passed
      rw [hevents] at hpassed
      have hwindow : (windowAt driver.events time).isSome = (driver.onTick time).1.active.isSome := by
        rw [windowAt_of_passed hsorted hpassed hahead, Option.isSome_map, hactive]
      intro observation hmem
      rcases List.mem_cons.mp hmem with rfl | hmem
      · dsimp only
        rw [hwindow, hnext.status]
        exact ⟨rfl, fun h => (hnotified.mp h).1⟩
      · rw [← hevents]
        rw [← hevents] at hsorted
        exact ih hsorted hnext hrest observation hmem

/-- Of each window that covers a tick the decision logic is notified once. -/
theorem drive_notified
    (hsorted : driver.events.Pairwise fun event later =>
      event.staleStartDate ≤ later.staleStartDate)
    (hsteady : Steady driver now) {ticks : List Instant} (hticks : (now :: ticks).Pairwise (· ≤ ·))
    (place : ℕ) :
    (drive driver ticks).countP (fun observation =>
        observation.notified.isSome &&
          decide (windowAt driver.events observation.time = some place)) =
      if (∃ tick ∈ ticks, windowAt driver.events tick = some place) ∧
        ¬(driver.active.isSome = true ∧ driver.idx = place) then 1 else 0 := by
  induction ticks generalizing driver now with
  | nil => simp [drive]
  | cons time ticks ih =>
      obtain ⟨hfirst, hrest⟩ := List.pairwise_cons.mp hticks
      have hle := hfirst time List.mem_cons_self
      obtain ⟨hnext, hevents, hidx, hahead, hactive, hnotified⟩ := hsteady.onTick hle
      have hpassed := hnext.passed
      rw [hevents] at hpassed
      have hwindow : windowAt driver.events time = some place ↔
          (driver.onTick time).1.active.isSome = true ∧ (driver.onTick time).1.idx = place := by
        rw [windowAt_of_passed hsorted hpassed hahead, ← hactive]
        cases (driver.onTick time).1.active <;> simp
      have htail := ih (hevents ▸ hsorted) hnext hrest
      rw [hevents] at htail
      simp only [← hwindow] at htail
      rw [drive, List.countP_cons, htail]
      by_cases hhead : windowAt driver.events time = some place
      · obtain ⟨hsome, hplace⟩ := hwindow.mp hhead
        simp only [hhead, not_true_eq_false, and_false, if_false, decide_true, Bool.and_true,
          hnotified, hsome, true_and, hplace, List.mem_cons, exists_eq_or_imp, true_or, zero_add,
          eq_comm (a := place)]
      · have hnever : driver.active.isSome = true ∧ driver.idx = place →
            ¬∃ tick ∈ ticks, windowAt driver.events tick = some place := by
          rintro ⟨hsome, hplace⟩ ⟨tick, htick, hcovers⟩
          obtain ⟨event, hevent⟩ := Option.isSome_iff_exists.mp hsome
          have hpast : place < (driver.onTick time).1.idx := by
            refine lt_of_le_of_ne (hplace ▸ hidx) fun hsame => hhead (hwindow.mpr ⟨?_, hsame.symm⟩)
            have hget := hsteady.place event hevent
            rw [hplace, hsame] at hget
            rw [hactive, hget, Option.filter_some, if_pos]
            · rfl
            · exact decide_eq_true ((hsteady.started event hevent).trans hle)
          refine windowAt_ne_of_passed hpast (fun other hother => ?_) hcovers
          exact (hpassed other hother).trans ((List.pairwise_cons.mp hrest).1 tick htick)
        have hticks' : (∃ tick ∈ time :: ticks, windowAt driver.events tick = some place) ↔
            ∃ tick ∈ ticks, windowAt driver.events tick = some place := by
          simp [hhead]
        simp only [hhead, decide_false, Bool.and_false, Bool.false_eq_true, if_false, Nat.add_zero,
          not_false_eq_true, and_true, hticks']
        by_cases hbefore : driver.active.isSome = true ∧ driver.idx = place
        · rw [if_neg (hnever hbefore), if_neg fun h => h.2 hbefore]
        · simp only [hbefore, not_false_eq_true, and_true]

end Observed

section Tracked

variable {tracker : MarketDataEpisodeTracker}

def observed (observations : List Observation) : List (Instant × Bool) :=
  observations.map fun observation => (observation.time, observation.status.isStale)

/-- The spans that are recorded of the ticks behind an open episode, or without one. -/
def spansFrom (openFrom : Option Instant) (ticks : List (Instant × Bool)) :
    List (Instant × Option Instant) :=
  match openFrom with
  | none => staleRuns ticks
  | some openFrom =>
      (openFrom, (ticks.dropWhile Prod.snd).head?.map Prod.fst) ::
        staleRuns (ticks.dropWhile Prod.snd)

theorem map_span_getEpisodes (tracker : MarketDataEpisodeTracker) (runEnd : Option Instant) :
    (tracker.getEpisodes runEnd).map span =
      tracker.episodes.map span ++ spansFrom tracker.openFrom [] := by
  unfold MarketDataEpisodeTracker.getEpisodes spansFrom
  cases tracker.openFrom with
  | none => simp [staleRuns]
  | some openFrom =>
      simp [staleRuns]
      rfl

theorem onTick_spans (tracker : MarketDataEpisodeTracker) (now : Instant)
    (status : MarketDataStatus) (label : String) (ticks : List (Instant × Bool)) :
    (tracker.onTick now status label).episodes.map span ++
        spansFrom (tracker.onTick now status label).openFrom ticks =
      tracker.episodes.map span ++ spansFrom tracker.openFrom ((now, status.isStale) :: ticks) := by
  unfold MarketDataEpisodeTracker.onTick MarketDataEpisodeTracker.observe
  cases hopen : tracker.openFrom with
  | none => cases hstale : status.isStale <;> simp [spansFrom, staleRuns]
  | some openFrom =>
      cases hstale : status.isStale with
      | false => simp [spansFrom, staleRuns, span, MarketDataEpisodeTracker.buildEpisode]
      | true =>
          by_cases hlabel : label ≠ "" ∧ tracker.openLabel = "" <;>
            simp [hlabel, spansFrom]

theorem onTick_counts (tracker : MarketDataEpisodeTracker) (now : Instant)
    (status : MarketDataStatus) (label : String) :
    (tracker.onTick now status label).freshTicks + (tracker.onTick now status label).staleTicks =
      tracker.freshTicks + tracker.staleTicks + 1 := by
  have hobserve : ∀ counted : MarketDataEpisodeTracker,
      (counted.observe now status label).freshTicks = counted.freshTicks ∧
        (counted.observe now status label).staleTicks = counted.staleTicks := by
    intro counted
    unfold MarketDataEpisodeTracker.observe
    repeat' split
    all_goals exact ⟨rfl, rfl⟩
  unfold MarketDataEpisodeTracker.onTick
  dsimp only
  rw [(hobserve _).1, (hobserve _).2]
  split <;> (dsimp only; omega)

theorem track_spans (observations : List Observation) :
    (track tracker observations).episodes.map span ++
        spansFrom (track tracker observations).openFrom [] =
      tracker.episodes.map span ++ spansFrom tracker.openFrom (observed observations) := by
  induction observations generalizing tracker with
  | nil => rfl
  | cons observation observations ih =>
      rw [track, List.foldl_cons]
      refine ih.trans ?_
      exact onTick_spans tracker observation.time observation.status observation.label _

theorem track_counts (observations : List Observation) :
    (track tracker observations).freshTicks + (track tracker observations).staleTicks =
      tracker.freshTicks + tracker.staleTicks + observations.length := by
  induction observations generalizing tracker with
  | nil => rfl
  | cons observation observations ih =>
      rw [track, List.foldl_cons]
      refine ih.trans ?_
      rw [onTick_counts, List.length_cons]
      omega

end Tracked

section Outages

variable {events : List StressEvent} {ticks : List Instant}

/-- What a run observes of planned outages: its stale ticks are those that a window covers, of each
window that becomes active the decision logic is notified once, and the episodes recorded are the
maximal runs of stale ticks. -/
structure ObservesOutages (events : List StressEvent) (ticks : List Instant)
    (observations : List Observation) (tracker : MarketDataEpisodeTracker) : Prop where
  times : observations.map Observation.time = ticks
  stale : ∀ observation ∈ observations, observation.status.isStale = true ↔
    ∃ event ∈ events, covers event observation.time = true
  notifiedOnce : ∀ place, observations.countP (fun observation =>
      observation.notified.isSome && decide (windowAt events observation.time = some place)) =
    if ∃ tick ∈ ticks, windowAt events tick = some place then 1 else 0
  notifiedWithin : ∀ observation ∈ observations, observation.notified.isSome = true →
    (windowAt events observation.time).isSome = true
  episodes : ∀ runEnd, (tracker.getEpisodes runEnd).map span =
    staleRuns (ticks.map fun tick => (tick, events.any fun event => covers event tick))
  counted : tracker.freshTicks + tracker.staleTicks = ticks.length

theorem drive_times (driver : StaleDataStressDriver) (ticks : List Instant) :
    (drive driver ticks).map Observation.time = ticks := by
  induction ticks generalizing driver with
  | nil => rfl
  | cons time ticks ih => exact congrArg (time :: ·) (ih _)

/-- The observed outages of planned windows are exactly the stale stretches. -/
theorem drive_observes (source : String)
    (hsorted : events.Pairwise fun event later => event.staleStartDate ≤ later.staleStartDate)
    (hticks : ticks.Pairwise (· ≤ ·)) :
    ObservesOutages events ticks (drive { events := events } ticks)
      (track { source := source } (drive { events := events } ticks)) := by
  have htimes := drive_times { events := events } ticks
  cases ticks with
  | nil =>
      refine ⟨rfl, ?_, ?_, ?_, ?_, rfl⟩
      · exact fun observation hmem => (nomatch hmem)
      · exact fun place => by simp [drive]
      · exact fun observation hmem => (nomatch hmem)
      · exact fun runEnd => by simp [drive, track, MarketDataEpisodeTracker.getEpisodes, staleRuns]
  | cons first rest =>
      have hsteady : Steady { events := events } first :=
        ⟨by simp, by simp, by simp, rfl⟩
      have hpairs : (first :: first :: rest).Pairwise (· ≤ ·) := by
        refine List.pairwise_cons.mpr ⟨fun tick hmem => ?_, hticks⟩
        rcases List.mem_cons.mp hmem with rfl | hmem
        · exact le_rfl
        · exact (List.pairwise_cons.mp hticks).1 tick hmem
      have hstale := drive_stale hsorted hsteady hpairs
      have hobserved : observed (drive { events := events } (first :: rest)) =
          (first :: rest).map fun tick => (tick, events.any fun event => covers event tick) := by
        refine Eq.trans ?_ (List.map_map.symm.trans (congrArg (List.map fun tick =>
          (tick, events.any fun event => covers event tick)) htimes))
        refine List.map_congr_left fun observation hmem => ?_
        rw [(hstale observation hmem).1]
        exact congrArg (Prod.mk observation.time) List.findIdx?_isSome
      refine ⟨htimes, fun observation hmem => ?_, fun place => ?_,
        fun observation hmem => (hstale observation hmem).2, fun runEnd => ?_, ?_⟩
      · rw [(hstale observation hmem).1]
        exact windowAt_isSome_iff
      · rw [drive_notified hsorted hsteady hpairs]
        simp
      · rw [map_span_getEpisodes, track_spans, hobserved]
        rfl
      · rw [track_counts, ← congrArg List.length htimes, List.length_map]
        simp

def planned (start stop : Instant) (h : start < stop) : StressEvent where
  dataSource := "kraken"
  staleStartDate := start
  staleEndDate := stop
  named := by decide
  ordered := h
  label := "planned"

def plannedEvents : List StressEvent :=
  getEventsForSource [planned 40 50 (by decide), planned 10 40 (by decide),
    planned 15 20 (by decide)] "kraken"

theorem drive_observes_nested :
    ObservesOutages plannedEvents [5, 12, 18, 41, 60]
      (drive { events := plannedEvents } [5, 12, 18, 41, 60])
      (track { source := "kraken" } (drive { events := plannedEvents } [5, 12, 18, 41, 60])) :=
  drive_observes "kraken" (getEventsForSource_sorted _ _) (by decide +kernel)

end Outages

end Finiex.DataOutages
