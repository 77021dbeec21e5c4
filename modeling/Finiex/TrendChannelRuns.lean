import Finiex.TrailingStops
import Finiex.TrendChannel

namespace Finiex.TrendChannelRuns

open Finiex.Types
open Finiex.Lib
open Finiex.Lib.Run
open Finiex.Lib.Reach
open Finiex.Positions
open Finiex.Orders
open Finiex.OrderBooks
open Finiex.Portfolio
open Finiex.Portfolio.PortfolioManager
open Finiex.PortfolioFrames
open Finiex.Executor
open Finiex.AuditTrail
open Finiex.Simulator
open Finiex.SimulatorSteps
open Finiex.SimulatorConservation
open Finiex.SimulatorLedger
open Finiex.SimulatorExposure
open Finiex.PortfolioLedger
open Finiex.PositionLevels
open Finiex.PriceGrid
open Finiex.TrailingStops
open Finiex.TradingApi
open Finiex.SinglePosition
open Finiex.TrendChannel

variable {cfg : ApiConfig} {params : TrendChannelParams} {session session' : TradingSession}
  {state state' : TrendChannelState}

section Stops

theorem trailRisk_pos {position : Position} (hoffset : 0 < params.trailMult * trailRisk state position.positionId) :
    0 < trailRisk state position.positionId := by
  have hmult := params.trailMult_min
  by_contra hnot
  have hrisk : trailRisk state position.positionId ≤ 0 := not_lt.mp hnot
  nlinarith

/-- The stop asked for is tighter than the one in force by a tenth of the risk at least. -/
theorem trailTarget_tightens {position : Position} {newSl : ℚ}
    (h : trailTarget params state position = some newSl) :
    Tightens position.direction position.stopLoss (some newSl) := by
  intro sl hsl
  refine ⟨newSl, rfl, ?_⟩
  unfold trailTarget at h
  dsimp only at h
  split at h
  · cases h
  · next hoffset =>
      have hrisk := trailRisk_pos (not_le.mp hoffset)
      cases hdirection : position.direction with
      | long =>
          simp only [hdirection, hsl, Option.all_some, decide_eq_true_eq] at h
          split at h
          · next htighter =>
              cases h
              change sl ≤ _
              linarith
          · cases h
      | short =>
          simp only [hdirection, hsl, Option.all_some, decide_eq_true_eq] at h
          split at h
          · next htighter =>
              cases h
              change _ ≤ sl
              linarith
          · cases h

theorem getPosition_closePosition {positionId : String} {lots : Option ℚ} {result : OrderResult}
    (h : TradingApi.closePosition cfg session positionId lots = .ok (session', result)) (k : String) :
    TradingApi.getPosition session' k = TradingApi.getPosition session k := by
  obtain ⟨⟨simulator, answer⟩, hclose, hpure⟩ := bind_eq_ok.mp h
  cases hpure
  obtain ⟨-, rfl, -⟩ | ⟨position, tick, -, -, -, rfl⟩ := closePosition_eq_ok hclose
  · rfl
  · rfl

theorem getPosition_modifyPosition {positionId k : String} {stopLoss takeProfit : Setting (Option ℚ)}
    {result : ModificationResult} (hk : k ≠ positionId)
    (h : TradingApi.modifyPosition cfg session positionId stopLoss takeProfit = .ok (session', result)) :
    TradingApi.getPosition session' k = TradingApi.getPosition session k := by
  obtain ⟨⟨simulator, answer⟩, hmodify, hpure⟩ := bind_eq_ok.mp h
  cases hpure
  obtain rfl | ⟨position, -, ⟨-, mod, -, rfl⟩ | ⟨-, pm, hother, -, rfl⟩⟩ :=
    modifyPosition_requested hmodify
  · rfl
  · rfl
  · exact hother k hk

/-- Closes are not restricted, and stops may be raised. -/
structure Management (P : TradeSimulator → SimulatorOp → Prop) : Prop where
  closes : ∀ s positionId lots, P s (.closePosition positionId lots)
  trails : ∀ s positionId stopLoss takeProfit,
    RaisesStops s (.modifyPosition positionId stopLoss takeProfit) →
      P s (.modifyPosition positionId stopLoss takeProfit)

variable {P : TradeSimulator → SimulatorOp → Prop}

theorem maybePartialClose_calls (hP : Management P) {position : Position}
    (h : maybePartialClose cfg params session state position = .ok (session', state')) :
    Calls cfg P session.simulator session'.simulator ∧
      (∀ k, TradingApi.getPosition session' k = TradingApi.getPosition session k) ∧
      state'.restingEntries = state.restingEntries := by
  unfold maybePartialClose at h
  dsimp only at h
  split at h
  · cases h
    exact ⟨.refl, fun _ => rfl, rfl⟩
  · split at h
    · cases h
      exact ⟨.refl, fun _ => rfl, rfl⟩
    · split at h
      · cases h
        exact ⟨.refl, fun _ => rfl, rfl⟩
      · obtain ⟨⟨closed, result⟩, hclose, hpure⟩ := bind_eq_ok.mp h
        cases hpure
        exact ⟨.one (hP.closes _ _ _) (closePosition_step hclose),
          getPosition_closePosition hclose, rfl⟩

/-- The stop of the position is raised, and no other position is touched. -/
theorem maybeTrail_calls (hP : Management P) {position : Position}
    (hposition : TradingApi.getPosition session position.positionId = some position)
    (h : maybeTrail cfg params session state position = .ok session') :
    Calls cfg P session.simulator session'.simulator ∧
      ∀ k, k ≠ position.positionId →
        TradingApi.getPosition session' k = TradingApi.getPosition session k := by
  unfold maybeTrail at h
  split at h
  · cases h
    exact ⟨.refl, fun _ _ => rfl⟩
  · split at h
    · cases h
      exact ⟨.refl, fun _ _ => rfl⟩
    · next newSl htarget =>
        obtain ⟨⟨modified, result⟩, hmodify, hpure⟩ := bind_eq_ok.mp h
        cases hpure
        refine ⟨.one (hP.trails _ _ _ _ ?_) (modifyPosition_step hmodify),
          fun k hk => getPosition_modifyPosition hk hmodify⟩
        intro positionId stopLoss takeProfit heq held hheld
        cases heq
        cases hposition.symm.trans hheld
        exact trailTarget_tightens htarget

theorem manageOpenPosition_calls (hP : Management P) {position : Position}
    {before after : TradingSession × TrendChannelState}
    (hposition : TradingApi.getPosition before.1 position.positionId = some position)
    (h : manageOpenPosition cfg params before position = .ok after) :
    Calls cfg P before.1.simulator after.1.simulator ∧
      (∀ k, k ≠ position.positionId →
        TradingApi.getPosition after.1 k = TradingApi.getPosition before.1 k) ∧
      after.2.restingEntries = before.2.restingEntries := by
  have hseeded : (seedRisk before.2 position).restingEntries = before.2.restingEntries := by
    unfold seedRisk
    split
    · rfl
    · split
      · rfl
      · rfl
  unfold manageOpenPosition at h
  dsimp only at h
  split at h
  · cases h
    exact ⟨.refl, fun _ _ => rfl, hseeded⟩
  · obtain ⟨⟨closed, state₁⟩, hpartial, h⟩ := bind_eq_ok.mp h
    obtain ⟨trailed, htrail, hpure⟩ := bind_eq_ok.mp h
    cases hpure
    obtain ⟨hcalls, hsame, hentries⟩ := maybePartialClose_calls hP hpartial
    obtain ⟨hcalls', hother⟩ := maybeTrail_calls hP ((hsame _).trans hposition) htrail
    exact ⟨hcalls.trans hcalls', fun k hk => (hother k hk).trans (hsame k),
      hentries.trans hseeded⟩

/-- Every position is stored under its id. -/
def Keyed (session : TradingSession) : Prop :=
  ∀ k position, TradingApi.getPosition session k = some position → position.positionId = k

theorem keyed_of_sound (h : PositionsSound cfg.simulator.executor session.simulator.ledger) :
    Keyed session :=
  fun k position hposition => (h k position hposition).1

theorem nodup_openPositions (h : Keyed session) :
    ((TradingApi.getOpenPositions session).map Position.positionId).Nodup := by
  have hids : (TradingApi.getOpenPositions session).map Position.positionId =
      session.simulator.ledger.portfolio.openPositions.keys := by
    refine (List.map_map ..).trans (List.map_congr_left fun entry hentry => ?_)
    exact h entry.1 entry.2 ((Dict.get?_eq_some_iff _).mpr hentry)
  rw [hids]
  exact session.simulator.ledger.portfolio.openPositions.nodup

theorem mem_openPositions (h : Keyed session) {position : Position}
    (hmem : position ∈ TradingApi.getOpenPositions session) :
    TradingApi.getPosition session position.positionId = some position := by
  obtain ⟨k, hposition⟩ := Dict.get?_of_mem_values hmem
  rw [h k position hposition]
  exact hposition

/-- The loop over the open positions: each turn raises one stop, and leaves the positions of the
turns to come as they were. -/
theorem manageOpenPositions_calls (hP : Management P) {tick : TickData} (hkeyed : Keyed session)
    (h : manageOpenPositions cfg params session state tick = .ok (session', state')) :
    Calls cfg P session.simulator session'.simulator ∧
      state'.restingEntries = state.restingEntries := by
  have hend := foldlM_induct (P := fun rest (now : TradingSession × TrendChannelState) =>
    (Calls cfg P session.simulator now.1.simulator ∧
      now.2.restingEntries = state.restingEntries) ∧ (rest.map Position.positionId).Nodup ∧
      ∀ position ∈ rest, TradingApi.getPosition now.1 position.positionId = some position) ?_ ?_ h
  · exact hend.1
  · rintro position rest before after ⟨⟨hcalls, hentries⟩, hnodup, hrest⟩ hturn
    obtain ⟨hposition, hrest⟩ := List.forall_mem_cons.mp hrest
    rw [List.map_cons, List.nodup_cons] at hnodup
    obtain ⟨hturned, hother, hsame⟩ := manageOpenPosition_calls hP hposition hturn
    refine ⟨⟨hcalls.trans hturned, hsame.trans hentries⟩, hnodup.2, fun next hnext => ?_⟩
    refine (hother _ fun heq => hnodup.1 ?_).trans (hrest next hnext)
    rw [← heq]
    exact List.mem_map_of_mem hnext
  · refine ⟨⟨.refl, rfl⟩, ?_, fun position hmem => mem_openPositions hkeyed (List.mem_filter.mp hmem).1⟩
    exact (nodup_openPositions hkeyed).sublist (List.filter_sublist.map _)

end Stops

section Entries

/-- What upkeep of a resting entry asks of the executor. -/
def Upkeep : SimulatorOp → Prop
  | .cancelLimitOrder _ | .cancelStopOrder _ => True
  | .modifyLimitOrder _ _ _ _ | .modifyStopOrder _ _ _ _ _ => True
  | _ => False

variable {P : TradeSimulator → SimulatorOp → Prop} {tick : TickData}

theorem cancelResting_calls (hP : ∀ s op, Upkeep op → P s op) {orderId : String}
    {info : RestingEntry}
    (h : cancelResting cfg session state orderId info = .ok (session', state')) :
    Calls cfg P session.simulator session'.simulator := by
  unfold cancelResting at h
  split at h
  · cases h
    exact .refl
  · obtain ⟨⟨asked, cancelled⟩, hcancel, h⟩ := bind_eq_ok.mp h
    have hcalls : Calls cfg P session.simulator asked.simulator := by
      unfold cancelEntry at hcancel
      split at hcancel
      · exact .one (hP _ (.cancelStopOrder orderId) trivial) (cancelStopOrder_step hcancel)
      · exact .one (hP _ (.cancelLimitOrder orderId) trivial) (cancelLimitOrder_step hcancel)
    dsimp only at h
    split at h
    · cases h
      exact hcalls
    · cases h
      exact hcalls

theorem maybeReprice_calls (hP : ∀ s op, Upkeep op → P s op) {orderId : String}
    {info : RestingEntry} {price : ℚ}
    (h : maybeReprice cfg params session state orderId info price = .ok (session', state')) :
    Calls cfg P session.simulator session'.simulator := by
  unfold maybeReprice at h
  dsimp only at h
  split at h
  · cases h
    exact .refl
  · split at h
    · cases h
      exact .refl
    · split at h
      · cases h
        exact .refl
      · obtain ⟨⟨asked, result⟩, hmodify, hpure⟩ := bind_eq_ok.mp h
        cases hpure
        unfold modifyEntry at hmodify
        dsimp only at hmodify
        split at hmodify
        · exact .one (hP _ (.modifyStopOrder _ _ _ _ _) trivial) (modifyStopOrder_step hmodify)
        · exact .one (hP _ (.modifyLimitOrder _ _ _ _) trivial) (modifyLimitOrder_step hmodify)

theorem manageRestingEntry_calls (hP : ∀ s op, Upkeep op → P s op) {activeIds : List String}
    {orderId : String} {before after : TradingSession × TrendChannelState}
    (h : manageRestingEntry cfg params activeIds tick before orderId = .ok after) :
    Calls cfg P before.1.simulator after.1.simulator := by
  unfold manageRestingEntry at h
  split at h
  · cases h
  · split at h
    · cases h
      exact .refl
    · split at h
      · exact cancelResting_calls hP h
      · split at h
        · exact maybeReprice_calls hP h
        · cases h
          exact .refl

theorem manageRestingEntries_calls (hP : ∀ s op, Upkeep op → P s op)
    (h : manageRestingEntries cfg params session state tick = .ok (session', state')) :
    Calls cfg P session.simulator session'.simulator := by
  refine foldlM_induct (P := fun _ (now : TradingSession × TrendChannelState) =>
    Calls cfg P session.simulator now.1.simulator) ?_ .refl h
  intro orderId rest before after hcalls hturn
  exact hcalls.trans (manageRestingEntry_calls hP hturn)

theorem tryOpenEntry_calls (hP : Unrestricted P)
    (horder : ∀ s request, P s (.openOrder request)) {intent : EntryIntent}
    (h : tryOpenEntry cfg params session state intent tick = .ok (session', state')) :
    Calls cfg P session.simulator session'.simulator := by
  unfold tryOpenEntry at h
  split at h
  · cases h
    exact .refl
  · split at h
    · cases h
      exact .refl
    · split at h
      · cases h
        exact .refl
      · obtain ⟨⟨entered, result⟩, henter, h⟩ := bind_eq_ok.mp h
        have hcalls := calls_tryEnter hP (fun _ _ _ => horder _ _) henter
        dsimp only at h
        split at h
        · cases h
          exact hcalls
        · split at h
          · cases h
            exact hcalls
          · cases h
            exact hcalls

end Entries

section Loop

theorem upkeep_raises {s : TradeSimulator} {op : SimulatorOp} (h : Upkeep op) :
    RaisesStops s op := by
  refine raisesStops_of_ne fun positionId stopLoss takeProfit heq => ?_
  subst heq
  exact h

theorem management_raises : Management RaisesStops :=
  ⟨fun _ _ _ => raisesStops_of_ne (by simp), fun _ _ _ _ hraises => hraises⟩

theorem unrestricted_raises : Unrestricted RaisesStops :=
  ⟨fun _ _ => raisesStops_of_ne (by simp), fun _ _ => raisesStops_of_ne (by simp)⟩

/-- What the logic relies on of the simulator. -/
def Sound (cfg : ApiConfig) (s : TradeSimulator) : Prop :=
  Conserved [] s ∧ PositionsSound cfg.simulator.executor s.ledger

theorem sound_step {s s' : TradeSimulator} {op : SimulatorOp} (h : Sound cfg s)
    (hstep : step cfg.simulator s op = .ok s') : Sound cfg s' := by
  obtain ⟨hconserved, hsound⟩ := h
  have hstepped := step_stepped hstep
  exact ⟨stepped_conserved hconserved hstepped,
    (path_stepped hconserved hstepped).invariant (fun _ _ => move_positionsSound) hsound⟩

theorem sound_new : Sound cfg (Simulator.new cfg.simulator) :=
  ⟨conserved_new, fun _ _ h => by cases h⟩

theorem executeDecisionImpl_calls {intent : Option EntryIntent} {tick : TickData}
    (hsound : Sound cfg session.simulator)
    (h : executeDecisionImpl cfg params session state intent tick = .ok (session', state')) :
    Calls cfg RaisesStops session.simulator session'.simulator := by
  obtain ⟨⟨managed, state₁⟩, hpositions, h⟩ := bind_eq_ok.mp h
  obtain ⟨⟨upkept, state₂⟩, hentries, h⟩ := bind_eq_ok.mp h
  obtain ⟨hmanaged, -⟩ :=
    manageOpenPositions_calls management_raises (keyed_of_sound hsound.2) hpositions
  have hupkept : Calls cfg RaisesStops managed.simulator upkept.simulator :=
    manageRestingEntries_calls (fun _ _ => upkeep_raises) hentries
  refine (hmanaged.trans hupkept).trans ?_
  dsimp only at h
  split at h
  · cases h
    exact .refl
  · exact tryOpenEntry_calls unrestricted_raises (fun _ _ => raisesStops_of_ne (by simp)) h

theorem pass_calls {before after : TradingSession × TrendChannelState}
    {read : Option ChannelRead} {tick : TickData} (hsound : Sound cfg before.1.simulator)
    (h : pass cfg params before read tick = .ok after) :
    Calls cfg RaisesStops before.1.simulator after.1.simulator :=
  executeDecisionImpl_calls hsound h

theorem loop_raises {passes : List (LoopPass (Option ChannelRead))}
    {before after : TradingSession × TrendChannelState} (hsound : Sound cfg before.1.simulator)
    (hrun : run (loopStep cfg (pass cfg params)) before passes = .ok after) :
    Calls cfg RaisesStops before.1.simulator after.1.simulator :=
  loop_calls (fun _ _ => raisesStops_of_ne (by simp)) (fun _ _ _ => sound_step)
    (fun _ _ _ _ hnow hpass => pass_calls hnow hpass) hsound hrun

/-- Whatever the ticks, the channel and the latencies, the stop of a position never moves against
it, nor is it taken away, for as long as the position is open. -/
theorem stops_never_loosen (cfg : ApiConfig) (params : TrendChannelParams)
    {first second : List (LoopPass (Option ChannelRead))}
    {middle last : TradingSession × TrendChannelState}
    (hfirst : run (loopStep cfg (pass cfg params)) (newSession cfg, {}) first = .ok middle)
    (hsecond : run (loopStep cfg (pass cfg params)) middle second = .ok last)
    {k : String} {position position' : Position}
    (hposition : TradingApi.getPosition middle.1 k = some position)
    (hposition' : TradingApi.getPosition last.1 k = some position') :
    position'.direction = position.direction ∧
      Tightens position.direction position.stopLoss position'.stopLoss := by
  have hcalls : Calls cfg RaisesStops (Simulator.new cfg.simulator) middle.1.simulator :=
    loop_raises sound_new hfirst
  have hsound : Sound cfg middle.1.simulator :=
    hcalls.invariant (fun _ _ _ hnow _ hstep => sound_step hnow hstep) sound_new
  exact stop_tightens hcalls (loop_raises hsound hsecond) hposition hposition'

def tightTrail : TrendChannelParams where
  entryMode := .limitPullback
  entryBandPos := 15 / 100
  breakoutOffsetMult := 1 / 4
  slMult := 1
  tpMult := 2
  trailMult := 1 / 10
  trailMult_min := le_rfl
  partialRr := 10
  partialFraction := 1 / 2
  maxPositions := 2
  entry := ⟨1000, 1 / 10⟩

def nativeApi : ApiConfig where
  simulator := nativeForex
  guardIds := fun _ => "guard_0"

def lowerEdge : ChannelRead := ⟨.up, 11020 / 10000, 11000 / 10000, 1 / 10⟩

def entryFills : List (LoopPass (Option ChannelRead)) :=
  [{ tick := eurusdTick (11005 / 10000) (11007 / 10000) 1000, input := some lowerEdge },
    { tick := eurusdTick (10998 / 10000) (11000 / 10000) 1010, input := some lowerEdge }]

/-- A second long fills, which marks the first one, and its stop is trailed. -/
def secondFills : List (LoopPass (Option ChannelRead)) :=
  [{ tick := eurusdTick (10999 / 10000) (11000 / 10000) 1020, input := none },
    { tick := eurusdTick (11011 / 10000) (11013 / 10000) 1030, input := none }]

theorem secondFills_stops :
    ((run (loopStep nativeApi (pass nativeApi tightTrail)) (newSession nativeApi, {})
        entryFills) >>= fun middle =>
      (run (loopStep nativeApi (pass nativeApi tightTrail)) middle secondFills).map fun last =>
        ((TradingApi.getPosition middle.1 "pos_eurusd_1").map Position.stopLoss,
          (TradingApi.getPosition last.1 "pos_eurusd_1").map Position.stopLoss)) =
      .ok (some (some (10990 / 10000)), some (some (10998 / 10000))) := by
  decide +kernel

theorem stops_never_loosen_secondFills :
    ∃ middle last position position',
      run (loopStep nativeApi (pass nativeApi tightTrail)) (newSession nativeApi, {}) entryFills =
          .ok middle ∧
        run (loopStep nativeApi (pass nativeApi tightTrail)) middle secondFills = .ok last ∧
        TradingApi.getPosition middle.1 "pos_eurusd_1" = some position ∧
        TradingApi.getPosition last.1 "pos_eurusd_1" = some position' ∧
        position.stopLoss = some (10990 / 10000) ∧ position'.stopLoss = some (10998 / 10000) ∧
        Tightens position.direction position.stopLoss position'.stopLoss := by
  obtain ⟨middle, hfirst, hrest⟩ := bind_eq_ok.mp secondFills_stops
  obtain ⟨last, hsecond, hstops⟩ := exists_of_map_eq_ok hrest
  obtain ⟨hbefore, hafter⟩ := Prod.mk.inj hstops
  obtain ⟨position, hposition, hstop⟩ := Option.map_eq_some_iff.mp hbefore
  obtain ⟨position', hposition', hstop'⟩ := Option.map_eq_some_iff.mp hafter
  exact ⟨middle, last, position, position', hfirst, hsecond, hposition, hposition', hstop, hstop',
    (stops_never_loosen nativeApi tightTrail hfirst hsecond hposition hposition').2⟩

end Loop

section Blocked

/-! A tracked entry leaves the book when its position is seen or its cancellation is accepted; an
order that ended otherwise stays in it. -/

/-- The step asks for no order. -/
def NoOrder (_ : TradeSimulator) (op : SimulatorOp) : Prop := ∀ request, op ≠ .openOrder request

theorem management_noOrder : Management NoOrder where
  closes := fun _ _ _ _ heq => by cases heq
  trails := fun _ _ _ _ _ _ heq => by cases heq

theorem upkeep_noOrder {s : TradeSimulator} {op : SimulatorOp} (h : Upkeep op) : NoOrder s op := by
  intro request heq
  subst heq
  exact h

/-- The entry `k` is tracked, but its order neither waits, nor rests, nor has become a position. -/
structure Blocked (cfg : ApiConfig) (k : String) (now : TradingSession × TrendChannelState) :
    Prop where
  sound : Sound cfg now.1.simulator
  tracked : now.2.restingEntries.get? k ≠ none
  ended : ¬ Exposes now.1.simulator k

/-- Without a request for an order nothing is accepted, and what has ended stays so. -/
theorem quiet_of_calls {s s' : TradeSimulator} {k : String} (h : Calls cfg NoOrder s s')
    (hsound : Sound cfg s) (hended : ¬ Exposes s k) :
    Sound cfg s' ∧ ¬ Exposes s' k ∧ acceptedIds s'.ledger = acceptedIds s.ledger := by
  refine h.invariant (I := fun now => Sound cfg now ∧ ¬ Exposes now k ∧
    acceptedIds now.ledger = acceptedIds s.ledger) ?_ ⟨hsound, hended, rfl⟩
  rintro now op next ⟨hnow, hnot, haccepted⟩ hquiet hstep
  exact ⟨sound_step hnow hstep, fun hexposed => hnot (exposes_of_step hnow.1 hstep hquiet hexposed),
    (stepped_accepts hnow.1 (step_stepped hstep) hquiet).trans haccepted⟩

theorem findOrder_none {orders : List PendingOrder} {k : String} (h : k ∉ orderIds orders) :
    findOrder orders k = none := by
  rw [findOrder, List.find?_eq_none]
  intro order hmem
  rw [decide_eq_true_eq]
  rintro rfl
  exact h (List.mem_map_of_mem hmem)

theorem cancelEntry_ended {k : String} {info : RestingEntry} {cancelled : Bool}
    (hended : ¬ Exposes session.simulator k)
    (h : cancelEntry cfg session k info = .ok (session', cancelled)) : cancelled = false := by
  have hlimits := findOrder_none fun hmem => hended (.inr (.inr (.inl hmem)))
  have hstops := findOrder_none fun hmem => hended (.inr (.inr (.inr hmem)))
  unfold cancelEntry at h
  split at h
  · obtain ⟨⟨simulator, answer⟩, hcancel, hpure⟩ := bind_eq_ok.mp h
    cases hpure
    unfold Simulator.cancelStopOrder at hcancel
    split at hcancel
    · cases hcancel
      rfl
    · simp only [scheduleCancel, hstops] at hcancel
      cases hcancel
      rfl
  · obtain ⟨⟨simulator, answer⟩, hcancel, hpure⟩ := bind_eq_ok.mp h
    cases hpure
    simp only [Simulator.cancelLimitOrder, scheduleCancel, hlimits] at hcancel
    cases hcancel
    rfl

/-- An entry leaves the book of tracked entries with its accepted cancellation. -/
theorem cancelResting_entries {orderId : String} {info : RestingEntry}
    (h : cancelResting cfg session state orderId info = .ok (session', state')) :
    state' = state ∨ (∃ asked, cancelEntry cfg session orderId info = .ok (asked, true)) ∧
      state'.restingEntries = state.restingEntries.erase orderId := by
  unfold cancelResting at h
  split at h
  · cases h
    exact .inl rfl
  · obtain ⟨⟨asked, cancelled⟩, hcancel, h⟩ := bind_eq_ok.mp h
    cases cancelled with
    | true =>
        cases h
        exact .inr ⟨⟨_, hcancel⟩, rfl⟩
    | false =>
        cases h
        exact .inl rfl

theorem maybeReprice_entries {orderId : String} {info : RestingEntry} {price : ℚ}
    (h : maybeReprice cfg params session state orderId info price = .ok (session', state')) :
    state' = state ∨
      ∃ repriced, state'.restingEntries = state.restingEntries.set orderId repriced := by
  unfold maybeReprice at h
  dsimp only at h
  split at h
  · cases h
    exact .inl rfl
  · split at h
    · cases h
      exact .inl rfl
    · split at h
      · cases h
        exact .inl rfl
      · obtain ⟨⟨asked, result⟩, -, hpure⟩ := bind_eq_ok.mp h
        cases hpure
        exact .inr ⟨_, rfl⟩

/-- A turn leaves the other tracked entries alone. -/
theorem manageRestingEntry_other {activeIds : List String} {tick : TickData} {orderId k : String}
    {before after : TradingSession × TrendChannelState} (hk : k ≠ orderId)
    (h : manageRestingEntry cfg params activeIds tick before orderId = .ok after) :
    after.2.restingEntries.get? k = before.2.restingEntries.get? k := by
  unfold manageRestingEntry at h
  split at h
  · cases h
  · split at h
    · cases h
      exact Dict.get?_erase_ne _ hk
    · split at h
      · rcases cancelResting_entries h with hsame | ⟨-, herased⟩
        · rw [hsame]
        · rw [herased]
          exact Dict.get?_erase_ne _ hk
      · split at h
        · rcases maybeReprice_entries h with hsame | ⟨repriced, hset⟩
          · rw [hsame]
          · rw [hset]
            exact Dict.get?_set_ne _ _ hk
        · cases h
          rfl

/-- A turn for an entry whose order has ended keeps it. -/
theorem manageRestingEntry_ended {activeIds : List String} {tick : TickData} {k : String}
    {before after : TradingSession × TrendChannelState}
    (hended : ¬ Exposes before.1.simulator k) (hinactive : k ∉ activeIds)
    (h : manageRestingEntry cfg params activeIds tick before k = .ok after) :
    after.2.restingEntries.get? k = before.2.restingEntries.get? k := by
  unfold manageRestingEntry at h
  split at h
  · cases h
  · split at h
    · next position hposition =>
        refine absurd (.inl ?_) hended
        rw [show before.1.simulator.ledger.portfolio.getPosition k = some position from hposition]
        simp
    · split at h
      · rcases cancelResting_entries h with hsame | ⟨⟨asked, hcancel⟩, -⟩
        · rw [hsame]
        · cases cancelEntry_ended hended hcancel
      · cases h
        rfl

theorem manageRestingEntries_blocked {tick : TickData} {k : String}
    (hblocked : Blocked cfg k (session, state))
    (h : manageRestingEntries cfg params session state tick = .ok (session', state')) :
    Blocked cfg k (session', state') ∧
      acceptedIds session'.simulator.ledger = acceptedIds session.simulator.ledger := by
  have hinactive : k ∉ (getActiveOrders session).map PendingOrder.pendingOrderId := by
    intro hmem
    rw [getActiveOrders, List.map_append, List.mem_append] at hmem
    exact hblocked.ended (.inr (.inr hmem))
  refine foldlM_induct (P := fun _ (now : TradingSession × TrendChannelState) =>
    Blocked cfg k now ∧
      acceptedIds now.1.simulator.ledger = acceptedIds session.simulator.ledger) ?_
    ⟨hblocked, rfl⟩ h
  rintro orderId rest before after ⟨hbefore, haccepted⟩ hturn
  have hcalls : Calls cfg NoOrder before.1.simulator after.1.simulator :=
    manageRestingEntry_calls (fun _ _ => upkeep_noOrder) hturn
  obtain ⟨hsound, hended, hquiet⟩ := quiet_of_calls hcalls hbefore.sound hbefore.ended
  have hkept : after.2.restingEntries.get? k = before.2.restingEntries.get? k := by
    by_cases hk : k = orderId
    · subst hk
      exact manageRestingEntry_ended hbefore.ended hinactive hturn
    · exact manageRestingEntry_other hk hturn
  refine ⟨⟨hsound, ?_, hended⟩, hquiet.trans haccepted⟩
  rw [hkept]
  exact hbefore.tracked

theorem tracked_not_empty {entries : Dict String RestingEntry} {k : String}
    (h : entries.get? k ≠ none) : (!entries.isEmpty) = true := by
  rw [Bool.not_eq_true', Dict.isEmpty, List.isEmpty_eq_false_iff]
  intro hnil
  obtain ⟨entry, hentry⟩ := Option.ne_none_iff_exists'.mp h
  have hmem := (entries.get?_eq_some_iff).mp hentry
  rw [hnil] at hmem
  cases hmem

theorem executeDecisionImpl_blocked {intent : Option EntryIntent} {tick : TickData} {k : String}
    (hblocked : Blocked cfg k (session, state))
    (h : executeDecisionImpl cfg params session state intent tick = .ok (session', state')) :
    Blocked cfg k (session', state') ∧
      acceptedIds session'.simulator.ledger = acceptedIds session.simulator.ledger := by
  obtain ⟨⟨managed, state₁⟩, hpositions, h⟩ := bind_eq_ok.mp h
  obtain ⟨⟨upkept, state₂⟩, hentries, h⟩ := bind_eq_ok.mp h
  obtain ⟨hcalls, hsame⟩ :=
    manageOpenPositions_calls management_noOrder (keyed_of_sound hblocked.sound.2) hpositions
  obtain ⟨hsound, hended, hquiet⟩ := quiet_of_calls hcalls hblocked.sound hblocked.ended
  have hmanaged : Blocked cfg k (managed, state₁) := by
    refine ⟨hsound, ?_, hended⟩
    rw [hsame]
    exact hblocked.tracked
  obtain ⟨hupkept, hquiet'⟩ := manageRestingEntries_blocked hmanaged hentries
  dsimp only at h
  split at h
  · cases h
    exact ⟨hupkept, hquiet'.trans hquiet⟩
  · -- one entry at a time: with an entry tracked no other is placed
    unfold tryOpenEntry at h
    rw [if_pos (tracked_not_empty hupkept.tracked)] at h
    cases h
    exact ⟨hupkept, hquiet'.trans hquiet⟩

theorem computeTick_entries (tick : TickData) (read : Option ChannelRead) :
    (computeTick params state tick read).1.restingEntries = state.restingEntries := by
  unfold computeTick
  split
  · rfl
  · dsimp only
    split
    · rfl
    · split
      · rfl
      · split
        · rfl
        · rfl

theorem loopStep_blocked {k : String} {before after : TradingSession × TrendChannelState}
    {next : LoopPass (Option ChannelRead)} (hblocked : Blocked cfg k before)
    (h : loopStep cfg (pass cfg params) before next = .ok after) :
    Blocked cfg k after ∧
      acceptedIds after.1.simulator.ledger = acceptedIds before.1.simulator.ledger := by
  obtain ⟨session, htick, h⟩ := bind_eq_ok.mp h
  have hticked : Calls cfg NoOrder before.1.simulator session.simulator :=
    .one (fun _ heq => by cases heq) (onTick_step htick)
  obtain ⟨hsound, hended, hquiet⟩ := quiet_of_calls hticked hblocked.sound hblocked.ended
  split at h
  · cases h
    exact ⟨⟨hsound, hblocked.tracked, hended⟩, hquiet⟩
  · have hseen : Blocked cfg k ({ session with marketDataStatus := next.marketDataStatus },
        (computeTick params before.2 next.tick next.input).1) := by
      refine ⟨hsound, ?_, hended⟩
      rw [computeTick_entries]
      exact hblocked.tracked
    obtain ⟨hafter, hquiet'⟩ := executeDecisionImpl_blocked hseen h
    exact ⟨hafter, hquiet'.trans hquiet⟩

/-- Once a tracked entry's order has ended without its position being seen (rejected at its fill,
or filled and closed between two passes), the logic never places another order. -/
theorem ended_entry_blocks (cfg : ApiConfig) (params : TrendChannelParams)
    {first second : List (LoopPass (Option ChannelRead))}
    {middle last : TradingSession × TrendChannelState} {k : String}
    (hfirst : run (loopStep cfg (pass cfg params)) (newSession cfg, {}) first = .ok middle)
    (htracked : middle.2.restingEntries.get? k ≠ none)
    (hended : ¬ Exposes middle.1.simulator k)
    (hsecond : run (loopStep cfg (pass cfg params)) middle second = .ok last) :
    acceptedIds last.1.simulator.ledger = acceptedIds middle.1.simulator.ledger ∧
      last.2.restingEntries.get? k ≠ none := by
  have hsound : Sound cfg middle.1.simulator :=
    (loop_raises sound_new hfirst).invariant (fun _ _ _ hnow _ hstep => sound_step hnow hstep)
      sound_new
  have hend := run_invariant (P := fun now => Blocked cfg k now ∧
    acceptedIds now.1.simulator.ledger = acceptedIds middle.1.simulator.ledger) ?_
    ⟨⟨hsound, htracked, hended⟩, rfl⟩ hsecond
  · exact ⟨hend.2, hend.1.tracked⟩
  · rintro before next after ⟨hbefore, haccepted⟩ hstep
    obtain ⟨hafter, hquiet⟩ := loopStep_blocked hbefore hstep
    exact ⟨hafter, hquiet.trans haccepted⟩

def rejectingApi : ApiConfig where
  simulator := { nativeForex with stressFilter := some fun n => decide (n = 0) }
  guardIds := fun _ => "guard_0"

theorem entryRejected_ended :
    ((run (loopStep rejectingApi (pass rejectingApi tightTrail)) (newSession rejectingApi, {})
        entryFills) >>= fun middle =>
      (run (loopStep rejectingApi (pass rejectingApi tightTrail)) middle entryFills).map fun last =>
        (middle.2.restingEntries.get? "pos_eurusd_1" |>.isSome, exposedIds middle.1.simulator,
          acceptedIds last.1.simulator.ledger)) = .ok (true, [], ["pos_eurusd_1"]) := by
  decide +kernel

theorem ended_entry_blocks_entryRejected :
    ∃ middle last,
      run (loopStep rejectingApi (pass rejectingApi tightTrail)) (newSession rejectingApi, {})
          entryFills = .ok middle ∧
        run (loopStep rejectingApi (pass rejectingApi tightTrail)) middle entryFills = .ok last ∧
        acceptedIds last.1.simulator.ledger = acceptedIds middle.1.simulator.ledger ∧
        last.2.restingEntries.get? "pos_eurusd_1" ≠ none := by
  obtain ⟨middle, hfirst, hrest⟩ := bind_eq_ok.mp entryRejected_ended
  obtain ⟨last, hsecond, hfacts⟩ := exists_of_map_eq_ok hrest
  obtain ⟨htracked, hfacts⟩ := Prod.mk.inj hfacts
  obtain ⟨hexposed, -⟩ := Prod.mk.inj hfacts
  have hended : ¬ Exposes middle.1.simulator "pos_eurusd_1" := by
    rw [← mem_exposedIds, hexposed]
    exact List.not_mem_nil
  exact ⟨middle, last, hfirst, hsecond, ended_entry_blocks rejectingApi tightTrail hfirst
    (Option.isSome_iff_ne_none.mp htracked) hended hsecond⟩

end Blocked

end Finiex.TrendChannelRuns
