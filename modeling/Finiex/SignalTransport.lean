import Finiex.SignalServing
import Finiex.SignalRuns
import Finiex.Lib.Repeats
import Finiex.Lib.Rounding

/-!
# The live signal transport

A poll thread asks the producer for its latest envelope and leaves what is new in an inbox; the
loop thread drains the inbox into the signal provider. The two threads interleave in any order.
-/

namespace Finiex.SignalTransport

open Finiex.Types
open Finiex.Lib
open Finiex.Lib.Run
open Finiex.Lib.Repeats
open Finiex.Signals
open Finiex.SignalRuns
open Finiex.SignalWorkers
open Finiex.SignalServing

section Inbox

structure SignalInbox where
  pending : Dict String (List SignalSnapshot) := ∅
  totalReceived : ℕ := 0

namespace SignalInbox

def put (inbox : SignalInbox) (signalKind : String) (snapshots : List SignalSnapshot) :
    SignalInbox :=
  if snapshots = [] then inbox
  else {
    pending := inbox.pending.set signalKind (inbox.pending.getD signalKind [] ++ snapshots)
    totalReceived := inbox.totalReceived + snapshots.length }

def drain (inbox : SignalInbox) : SignalInbox × Dict String (List SignalSnapshot) :=
  ({ inbox with pending := ∅ }, inbox.pending)

end SignalInbox

end Inbox

section Source

inductive AwarenessLevel
  | info
  | notice
  | alert
  deriving DecidableEq

inductive FeedState
  | live
  | degraded
  | error
  deriving DecidableEq

structure SignalTransportEvent where
  message : String
  at_ : Instant
  level : AwarenessLevel := .info
  deriving DecidableEq

structure SentimentPollConfig where
  intervalS : ℚ := 60
  degradedBackoffS : ℚ := 300

def tapeLength : ℕ := 8

structure SignalPollSource where
  config : SentimentPollConfig
  signalKind : String
  lastIdentity : Option (Option ℤ × Option ℤ) := none
  polls : ℕ := 0
  enqueued : ℕ := 0
  degraded : ℕ := 0
  transportErrors : ℕ := 0
  state : FeedState := .live
  lastSeq : Option ℤ := none
  lastEpoch : Option ℤ := none
  lastEnvelopeAt : Option Instant := none
  tape : List SignalTransportEvent := []
  totalEvents : ℕ := 0
  /-- The wait before the next poll. -/
  waitS : ℚ

/-- What a fetch came back with: an exception of this name, the producer's report that its store
is unavailable, or its latest envelope. -/
inductive Response
  | failed (error : String)
  | storeUnavailable
  | served (envelope : SignalSnapshot)

def pollIdentity (snapshot : SignalSnapshot) : Option ℤ × Option ℤ :=
  (snapshot.streamEpoch, snapshot.seq)

def stamped (now : Instant) (envelope : SignalSnapshot) : SignalSnapshot :=
  { envelope with collectedMsc := ofEpochMs (epochMs now) }

namespace SignalPollSource

/-- `_record`: append to the bounded tape. -/
def record (source : SignalPollSource) (now : Instant) (message : String)
    (level : AwarenessLevel) : SignalPollSource :=
  let tape := source.tape ++ [{ message := message, at_ := now, level := level }]
  { source with
    tape := tape.drop (tape.length - tapeLength)
    totalEvents := source.totalEvents + 1 }

/-- `_poll_once` up to the hand-over, with what `_run` makes of a failure; the envelope to hand
over, when it is new. -/
def receive (source : SignalPollSource) (now : Instant) (response : Response) :
    SignalPollSource × Option SignalSnapshot :=
  let polled := { source with polls := source.polls + 1, waitS := source.config.intervalS }
  match response with
  | .failed error =>
      (({ polled with transportErrors := polled.transportErrors + 1, state := .error }).record now
        ("transport failed: " ++ error) .alert, none)
  | .storeUnavailable =>
      let degraded := { polled with
        degraded := polled.degraded + 1
        state := .degraded
        waitS := source.config.degradedBackoffS }
      (degraded.record now ("producer store unavailable — backing off " ++
        toString (Rounding.roundHalfEven source.config.degradedBackoffS) ++ "s") .notice, none)
  | .served envelope =>
      let live := { polled with state := .live }
      let snapshot := stamped now envelope
      if live.lastIdentity = some (pollIdentity snapshot) then (live, none)
      else ({ live with lastIdentity := some (pollIdentity snapshot) }, some snapshot)

/-- `_poll_once` behind the hand-over: the counters and the tape. -/
def account (source : SignalPollSource) (now : Instant) (snapshot : SignalSnapshot) :
    SignalPollSource :=
  let counted := { source with
    enqueued := source.enqueued + 1
    lastSeq := snapshot.seq
    lastEpoch := snapshot.streamEpoch
    lastEnvelopeAt := some snapshot.getResolutionKey }
  let trigger := if snapshot.triggerReason = "" then "unknown-trigger" else snapshot.triggerReason
  counted.record now ("seq " ++ (snapshot.seq.map toString).getD "—" ++ " · " ++ trigger ++
    " pass") .info

end SignalPollSource

end Source

section Session

/-- Where the poll thread stands: between polls, before the hand-over, or behind it. -/
inductive PollStage
  | waiting
  | holding (snapshot : SignalSnapshot)
  | deposited (snapshot : SignalSnapshot)
  deriving DecidableEq

structure TransportSession (Output : Type) where
  source : SignalPollSource
  stage : PollStage := .waiting
  inbox : SignalInbox := {}
  orchestrator : WorkerOrchestrator Output
  /-- The envelopes the producer has served so far, with their stamps. -/
  served : List SignalSnapshot := []

/-- The next move of a thread: the poll thread polls or goes on with its poll, the loop thread
drains the inbox on a tick or between ticks, or lets the workers process a tick. -/
inductive TransportOp
  | poll (now : Instant) (response : Response)
  | proceed (now : Instant)
  | drainOnTick
  | drainOffTick (now : Instant)
  | tick (now : Instant)

variable {Output : Type}

def servedBy (now : Instant) : Response → List SignalSnapshot
  | .served envelope => [stamped now envelope]
  | _ => []

def drainSignalInbox (session : TransportSession Output) (offTick : Option Instant) :
    Except SignalWorkerError (TransportSession Output) := do
  let (inbox, arrivals) := session.inbox.drain
  let drained := { session with inbox := inbox }
  if arrivals.isEmpty then return drained
  match offTick with
  | none =>
      return { drained with orchestrator := (session.orchestrator.mergeSignalArrivals arrivals).1 }
  | some now =>
      let orchestrator ← session.orchestrator.processSignalArrivals arrivals now
      return { drained with orchestrator := orchestrator }

/-- One move of one thread; a thread that cannot make the move stands still. -/
def step (session : TransportSession Output) :
    TransportOp → Except SignalWorkerError (TransportSession Output)
  | .poll now response =>
      match session.stage with
      | .waiting =>
          let received := session.source.receive now response
          .ok { session with
            source := received.1
            stage := match received.2 with
              | some snapshot => .holding snapshot
              | none => .waiting
            served := session.served ++ servedBy now response }
      | _ => .ok session
  | .proceed now =>
      match session.stage with
      | .waiting => .ok session
      | .holding snapshot =>
          .ok { session with
            stage := .deposited snapshot
            inbox := session.inbox.put session.source.signalKind [snapshot] }
      | .deposited snapshot =>
          .ok { session with stage := .waiting, source := session.source.account now snapshot }
  | .drainOnTick => drainSignalInbox session none
  | .drainOffTick now => drainSignalInbox session (some now)
  | .tick now => do
      let orchestrator ← session.orchestrator.processTick now
      return { session with orchestrator := orchestrator }

end Session

section Consumer

variable {Output : Type} {orchestrator next : WorkerOrchestrator Output} {kind : String}
  {place : ℕ} {provider : SignalDataProvider} {batch : List SignalSnapshot}

theorem providerOf_congr
    (h : next.slots.map SignalSlot.worker = orchestrator.slots.map SignalSlot.worker) :
    next.providerOf kind = orchestrator.providerOf kind := by
  have hworkers : ∀ slots : List (SignalSlot Output),
      ((slots.filter fun slot => slot.worker.consumedSignalKind = kind).findSome?
          fun slot => slot.worker.provider) =
        (((slots.map SignalSlot.worker).filter fun worker =>
          worker.consumedSignalKind = kind).findSome? SignalWorker.provider) := by
    intro slots
    rw [List.filter_map, List.findSome?_map]
    rfl
  unfold WorkerOrchestrator.providerOf
  rw [hworkers, hworkers, h]

theorem Passed.workers {slots : List (SignalSlot Output)} {now : Instant} {counting : Bool}
    (h : Passed orchestrator next slots now counting) :
    next.slots.map SignalSlot.worker = orchestrator.slots.map SignalSlot.worker := by
  have hobserved : (slots.map fun slot => slot.observe now counting).map SignalSlot.worker =
      slots.map SignalSlot.worker := by
    rw [List.map_map]
    apply List.map_congr_left
    intro slot _
    exact (observe_frame slot now counting).1
  rw [h.observed, hobserved]
  exact (Pointwise.map_eq_map (fun _ _ hslot => hslot.worker.symm) h.refreshed).symm

theorem mergeSignalArrivals_single {arrivals : Dict String (List SignalSnapshot)}
    (harrivals : arrivals.entries = [(kind, batch)])
    (hwired : orchestrator.providerOf kind = some place)
    (hprovider : orchestrator.providers[place]? = some provider) :
    (orchestrator.mergeSignalArrivals arrivals).1.providers[place]? =
      some (provider.extend batch).1 := by
  obtain ⟨hplace, -⟩ := List.getElem?_eq_some_iff.mp hprovider
  simp only [WorkerOrchestrator.mergeSignalArrivals, harrivals, List.foldl_cons, List.foldl_nil,
    WorkerOrchestrator.mergeKind, hwired, hprovider]
  exact List.getElem?_set_self hplace

theorem processSignalArrivals_providers {arrivals : Dict String (List SignalSnapshot)}
    {now : Instant} (h : orchestrator.processSignalArrivals arrivals now = .ok next) :
    next.providers = (orchestrator.mergeSignalArrivals arrivals).1.providers ∧
      next.providerOf kind = orchestrator.providerOf kind := by
  refine ⟨?_, ?_⟩
  · unfold WorkerOrchestrator.processSignalArrivals at h
    dsimp only at h
    split at h
    · cases h
      rfl
    · obtain ⟨slots, -, hpure⟩ := bind_eq_ok.mp h
      cases hpure
      rfl
  · rcases processSignalArrivals_cases h with hquiet | ⟨slots, hpassed⟩
    · apply providerOf_congr
      rw [hquiet.slots]
    · exact providerOf_congr (Passed.workers hpassed)

theorem deliver_concat (provider : SignalDataProvider) (batches : List (List SignalSnapshot))
    (batch : List SignalSnapshot) :
    (deliver provider (batches ++ [batch])).1 =
      ((deliver provider batches).1.extend batch).1 := by
  induction batches generalizing provider with
  | nil => rfl
  | cons first batches ih => exact ih _

end Consumer

section Relay

def kept (served : List SignalSnapshot) : List SignalSnapshot :=
  withoutRepeats pollIdentity served

def entriesOf (kind : String) : List SignalSnapshot → List (String × List SignalSnapshot)
  | [] => []
  | snapshot :: snapshots => [(kind, snapshot :: snapshots)]

def inHand : PollStage → List SignalSnapshot
  | .holding snapshot => [snapshot]
  | _ => []

def uncounted : PollStage → ℕ
  | .waiting => 0
  | _ => 1

variable {Output : Type} {kind : String} {place : ℕ} {series : SignalSeries}
  {session next : TransportSession Output}

/-- What the poller took is drained, waits in the inbox or is in its hand, in this order. -/
structure Relayed (kind : String) (place : ℕ) (series : SignalSeries)
    (session : TransportSession Output) : Prop where
  wired : session.orchestrator.providerOf kind = some place
  sameKind : session.source.signalKind = kind
  remembered : session.source.lastIdentity = (kept session.served).getLast?.map pollIdentity
  relayed : ∃ drained pending,
    session.orchestrator.providers[place]? =
      some (deliver (SignalDataProvider.ofSeries series) drained).1 ∧
    session.inbox.pending.entries = entriesOf kind pending ∧
    drained.flatten ++ (pending ++ inHand session.stage) = kept session.served
  received : session.inbox.totalReceived + (inHand session.stage).length =
    (kept session.served).length
  counted : session.source.enqueued + uncounted session.stage = (kept session.served).length
  polled : session.source.polls =
    session.served.length + session.source.degraded + session.source.transportErrors

theorem getD_of_entries {pending : Dict String (List SignalSnapshot)}
    {snapshots : List SignalSnapshot} (h : pending.entries = entriesOf kind snapshots) :
    pending.getD kind [] = snapshots := by
  unfold Dict.getD Dict.get?
  rw [h]
  cases snapshots with
  | nil => rfl
  | cons first rest => simp [entriesOf]

theorem put_entries {inbox : SignalInbox} {pending : List SignalSnapshot}
    (h : inbox.pending.entries = entriesOf kind pending) (snapshot : SignalSnapshot) :
    (inbox.put kind [snapshot]).pending.entries = entriesOf kind (pending ++ [snapshot]) := by
  have hput : (inbox.put kind [snapshot]).pending.entries =
      Dict.setEntries kind (pending ++ [snapshot]) (entriesOf kind pending) := by
    rw [← h, ← getD_of_entries h]
    rfl
  rw [hput]
  cases pending with
  | nil => rfl
  | cons first rest => simp [entriesOf, Dict.setEntries]

/-- The poller hands over what it takes, and remembers it. -/
theorem receive_kept {source : SignalPollSource} {before : List SignalSnapshot} (now : Instant)
    (response : Response)
    (hremembered : source.lastIdentity = (kept before).getLast?.map pollIdentity) :
    kept (before ++ servedBy now response) =
        kept before ++ (source.receive now response).2.toList ∧
      (source.receive now response).1.lastIdentity =
        (kept (before ++ servedBy now response)).getLast?.map pollIdentity := by
  cases response with
  | failed error =>
      refine ⟨?_, ?_⟩
      · exact (congrArg kept (List.append_nil before)).trans (List.append_nil _).symm
      · exact hremembered.trans (by rw [← congrArg kept (List.append_nil before)]; rfl)
  | storeUnavailable =>
      refine ⟨?_, ?_⟩
      · exact (congrArg kept (List.append_nil before)).trans (List.append_nil _).symm
      · exact hremembered.trans (by rw [← congrArg kept (List.append_nil before)]; rfl)
  | served envelope =>
      have hkept := withoutRepeats_concat (f := pollIdentity) before (stamped now envelope)
      rw [← kept, ← kept, ← hremembered] at hkept
      rw [servedBy, hkept]
      unfold SignalPollSource.receive
      by_cases hsame : source.lastIdentity = some (pollIdentity (stamped now envelope))
      · simpa [hsame] using hremembered
      · simp [hsame]

theorem receive_counts (source : SignalPollSource) (now : Instant) (response : Response) :
    (source.receive now response).1.signalKind = source.signalKind ∧
      (source.receive now response).1.enqueued = source.enqueued ∧
      (source.receive now response).1.polls = source.polls + 1 ∧
      (servedBy now response).length + (source.receive now response).1.degraded +
          (source.receive now response).1.transportErrors =
        source.degraded + source.transportErrors + 1 := by
  cases response with
  | failed error =>
      refine ⟨rfl, rfl, rfl, ?_⟩
      change 0 + source.degraded + (source.transportErrors + 1) = _
      omega
  | storeUnavailable =>
      refine ⟨rfl, rfl, rfl, ?_⟩
      change 0 + (source.degraded + 1) + source.transportErrors = _
      omega
  | served envelope =>
      unfold SignalPollSource.receive
      dsimp only
      split
      · exact ⟨rfl, rfl, rfl, by simp [servedBy]; omega⟩
      · exact ⟨rfl, rfl, rfl, by simp [servedBy]; omega⟩

theorem Relayed.poll {now : Instant} {response : Response} (h : Relayed kind place series session)
    (hnext : step session (.poll now response) = .ok next) : Relayed kind place series next := by
  cases hstage : session.stage with
  | waiting =>
      simp only [step, hstage] at hnext
      cases hnext
      obtain ⟨drained, pending, hprovider, hpending, hsplit⟩ := h.relayed
      obtain ⟨hkind, henqueued, hpolls, hbalance⟩ := receive_counts session.source now response
      obtain ⟨hkept, hremembered⟩ := receive_kept now response h.remembered
      have hcounted := h.counted
      have hreceived := h.received
      have hpolled := h.polled
      rw [hstage] at hsplit hcounted hreceived
      refine ⟨h.wired, hkind.trans h.sameKind, hremembered,
        ⟨drained, pending, hprovider, hpending, ?_⟩, ?_, ?_, ?_⟩
      · rw [hkept, ← hsplit]
        cases (session.source.receive now response).2 <;> simp [inHand]
      · rw [hkept, List.length_append, ← hreceived]
        cases (session.source.receive now response).2 <;> rfl
      · rw [hkept, List.length_append, ← hcounted, henqueued]
        cases (session.source.receive now response).2 <;> rfl
      · change (session.source.receive now response).1.polls =
          (session.served ++ servedBy now response).length +
            (session.source.receive now response).1.degraded +
            (session.source.receive now response).1.transportErrors
        rw [hpolls, List.length_append]
        omega
  | holding snapshot =>
      simp only [step, hstage] at hnext
      cases hnext
      exact h
  | deposited snapshot =>
      simp only [step, hstage] at hnext
      cases hnext
      exact h

theorem Relayed.proceed {now : Instant} (h : Relayed kind place series session)
    (hnext : step session (.proceed now) = .ok next) : Relayed kind place series next := by
  obtain ⟨drained, pending, hprovider, hpending, hsplit⟩ := h.relayed
  have hcounted := h.counted
  have hreceived := h.received
  cases hstage : session.stage with
  | waiting =>
      simp only [step, hstage] at hnext
      cases hnext
      exact h
  | holding snapshot =>
      simp only [step, hstage] at hnext
      cases hnext
      rw [hstage] at hsplit hcounted hreceived
      refine ⟨h.wired, h.sameKind, h.remembered,
        ⟨drained, pending ++ [snapshot], hprovider, ?_, ?_⟩, hreceived, hcounted, h.polled⟩
      · rw [h.sameKind]
        exact put_entries hpending snapshot
      · rw [← hsplit]
        simp [inHand]
  | deposited snapshot =>
      simp only [step, hstage] at hnext
      cases hnext
      rw [hstage] at hsplit hcounted hreceived
      exact ⟨h.wired, h.sameKind, h.remembered, ⟨drained, pending, hprovider, hpending, hsplit⟩,
        hreceived, hcounted, h.polled⟩

theorem Relayed.drain {offTick : Option Instant} (h : Relayed kind place series session)
    (hnext : drainSignalInbox session offTick = .ok next) :
    Relayed kind place series next := by
  obtain ⟨drained, pending, hprovider, hpending, hsplit⟩ := h.relayed
  unfold drainSignalInbox at hnext
  simp only [SignalInbox.drain, Dict.isEmpty, hpending] at hnext
  cases pending with
  | nil =>
      cases hnext
      exact ⟨h.wired, h.sameKind, h.remembered, ⟨drained, [], hprovider, rfl, hsplit⟩, h.received,
        h.counted, h.polled⟩
  | cons first rest =>
      have hmerged : ∀ orchestrator : WorkerOrchestrator Output,
          orchestrator.providerOf kind = session.orchestrator.providerOf kind →
          orchestrator.providers =
            (session.orchestrator.mergeSignalArrivals session.inbox.pending).1.providers →
          Relayed kind place series { session with
            inbox := { session.inbox with pending := ∅ }, orchestrator := orchestrator } := by
        intro orchestrator hwired hproviders
        refine ⟨hwired.trans h.wired, h.sameKind, h.remembered,
          ⟨drained ++ [first :: rest], [], ?_, rfl, ?_⟩, h.received, h.counted, h.polled⟩
        · rw [deliver_concat, hproviders]
          exact mergeSignalArrivals_single hpending h.wired hprovider
        · rw [← hsplit]
          simp
      simp only [entriesOf, List.isEmpty_cons, Bool.false_eq_true, if_false] at hnext
      cases offTick with
      | none =>
          cases hnext
          exact hmerged _ rfl rfl
      | some now =>
          obtain ⟨orchestrator, harrivals, hpure⟩ := bind_eq_ok.mp hnext
          cases hpure
          obtain ⟨hproviders, hwired⟩ := processSignalArrivals_providers harrivals
          exact hmerged orchestrator hwired hproviders

theorem Relayed.step {op : TransportOp} (h : Relayed kind place series session)
    (hnext : step session op = .ok next) : Relayed kind place series next := by
  cases op with
  | poll now response => exact h.poll hnext
  | proceed now => exact h.proceed hnext
  | drainOnTick =>
      have hdrain : drainSignalInbox session none = .ok next := hnext
      exact h.drain hdrain
  | drainOffTick now =>
      have hdrain : drainSignalInbox session (some now) = .ok next := hnext
      exact h.drain hdrain
  | tick now =>
      obtain ⟨orchestrator, htick, hpure⟩ := bind_eq_ok.mp hnext
      cases hpure
      obtain ⟨-, -, hproviders, -⟩ := processTick_eq_ok htick
      obtain ⟨slots, hpassed⟩ := Passed.of_processTick htick
      obtain ⟨drained, pending, hprovider, hpending, hsplit⟩ := h.relayed
      refine ⟨(providerOf_congr (Passed.workers hpassed)).trans h.wired, h.sameKind, h.remembered,
        ⟨drained, pending, ?_, hpending, hsplit⟩, h.received, h.counted, h.polled⟩
      rw [hproviders]
      exact hprovider

end Relay

section Sessions

variable {Output : Type} {kind : String} {place : ℕ} {series : SignalSeries}
  {config : SentimentPollConfig} {orchestrator : WorkerOrchestrator Output}
  {session : TransportSession Output} {ops : List TransportOp}

def start (config : SentimentPollConfig) (kind : String)
    (orchestrator : WorkerOrchestrator Output) : TransportSession Output where
  source := { config := config, signalKind := kind, waitS := config.intervalS }
  orchestrator := orchestrator

theorem relayed_run (hwired : orchestrator.providerOf kind = some place)
    (hprovider : orchestrator.providers[place]? = some (.ofSeries series))
    (hrun : run step (start config kind orchestrator) ops = .ok session) :
    Relayed kind place series session := by
  refine run_invariant (fun _ _ _ hrelayed hstep => hrelayed.step hstep) ?_ hrun
  exact ⟨hwired, rfl, rfl, ⟨[], [], hprovider, rfl, rfl⟩, rfl, rfl, rfl⟩

/-- The envelopes on their way from the producer to the provider. -/
def inTransit (kind : String) (session : TransportSession Output) : List SignalSnapshot :=
  session.inbox.pending.getD kind [] ++ inHand session.stage

/-- What was taken is held by the provider or in transit, and nothing else was added to the
series. -/
theorem Relayed.held (h : Relayed kind place series session) :
    ∃ drained, session.orchestrator.providers[place]? =
        some (deliver (SignalDataProvider.ofSeries series) drained).1 ∧
      drained.flatten ++ inTransit kind session = kept session.served := by
  obtain ⟨drained, pending, hprovider, hpending, hsplit⟩ := h.relayed
  refine ⟨drained, hprovider, ?_⟩
  rw [inTransit, getD_of_entries hpending, hsplit]

/-- The producer numbers its envelope. -/
def Numbered (snapshot : SignalSnapshot) : Prop :=
  snapshot.seq.isSome = true ∧ snapshot.streamEpoch.isSome = true

instance (snapshot : SignalSnapshot) : Decidable (Numbered snapshot) :=
  inferInstanceAs (Decidable (_ ∧ _))

/-- The later envelope is the earlier one again, or one behind it in the stream. -/
def InOrder (earlier later : SignalSnapshot) : Prop :=
  pollIdentity earlier = pollIdentity later ∨ earlier.getOrderKey < later.getOrderKey

instance (earlier later : SignalSnapshot) : Decidable (InOrder earlier later) :=
  inferInstanceAs (Decidable (_ ∨ _))

theorem Numbered.keys {snapshot : SignalSnapshot} (h : Numbered snapshot) :
    ∃ epoch seq, pollIdentity snapshot = (some epoch, some seq) ∧
      identity snapshot = (epoch, seq) ∧
      snapshot.getOrderKey = toLex (epoch, toLex (seq, 0)) := by
  obtain ⟨seq, hseq⟩ := Option.isSome_iff_exists.mp h.1
  obtain ⟨epoch, hepoch⟩ := Option.isSome_iff_exists.mp h.2
  refine ⟨epoch, seq, ?_, ?_, ?_⟩
  · rw [pollIdentity, hseq, hepoch]
  · rw [identity, hseq, hepoch]
  · rw [SignalSnapshot.getOrderKey, hseq, hepoch]

/-- The poller and the provider recognise a numbered envelope alike. -/
theorem identity_eq_of_pollIdentity {a b : SignalSnapshot} (ha : Numbered a) (hb : Numbered b)
    (h : pollIdentity a = pollIdentity b) : identity a = identity b := by
  obtain ⟨epoch, seq, hpoll, hid, -⟩ := ha.keys
  obtain ⟨epoch', seq', hpoll', hid', -⟩ := hb.keys
  rw [hpoll, hpoll'] at h
  rw [hid, hid']
  simpa using h

theorem identity_ne_of_lt {a b : SignalSnapshot} (ha : Numbered a) (hb : Numbered b)
    (h : a.getOrderKey < b.getOrderKey) : identity a ≠ identity b := by
  obtain ⟨epoch, seq, -, hid, hkey⟩ := ha.keys
  obtain ⟨epoch', seq', -, hid', hkey'⟩ := hb.keys
  rw [hid, hid']
  intro heq
  obtain ⟨rfl, rfl⟩ := Prod.mk.inj heq
  rw [hkey, hkey'] at h
  exact lt_irrefl _ h

theorem nodup_kept {served : List SignalSnapshot} (hnumbered : ∀ s ∈ served, Numbered s)
    (hordered : served.Pairwise InOrder) : ((kept served).map identity).Nodup := by
  have hsorted : (kept served).Pairwise fun a b => a.getOrderKey < b.getOrderKey :=
    pairwise_withoutRepeats hordered
  refine List.pairwise_map.mpr (hsorted.imp_of_mem ?_)
  intro a b ha hb hlt
  have hmem := (withoutRepeats_sublist (f := pollIdentity) served).subset
  exact identity_ne_of_lt (hnumbered a (hmem ha)) (hnumbered b (hmem hb)) hlt

theorem mem_kept_ids {served : List SignalSnapshot} (hnumbered : ∀ s ∈ served, Numbered s)
    (id : ℤ × ℤ) : id ∈ (kept served).map identity ↔ id ∈ served.map identity := by
  have hmem := (withoutRepeats_sublist (f := pollIdentity) served).subset
  refine ⟨fun hkept => List.map_subset _ hmem hkept, fun hserved => ?_⟩
  obtain ⟨snapshot, hsnapshot, rfl⟩ := List.mem_map.mp hserved
  have hpolled : pollIdentity snapshot ∈ (kept served).map pollIdentity :=
    mem_map_withoutRepeats.mpr (List.mem_map_of_mem hsnapshot)
  obtain ⟨taken, htaken, hsame⟩ := List.mem_map.mp hpolled
  rw [← identity_eq_of_pollIdentity (hnumbered taken (hmem htaken)) (hnumbered snapshot hsnapshot)
    hsame]
  exact List.mem_map_of_mem htaken

theorem freshOnce_of_nodup {seen : List (ℤ × ℤ)} {batches : List (List SignalSnapshot)}
    (h : (batches.flatten.map identity).Nodup) : FreshOnce seen batches := by
  induction batches generalizing seen with
  | nil => trivial
  | cons batch batches ih =>
      rw [List.flatten_cons, List.map_append, List.nodup_append] at h
      exact ⟨h.1.sublist (List.filter_sublist.map identity), ih h.2.1⟩

/-- However the poll thread and the loop thread interleave, envelopes that the producer numbers
and serves in their order, each as often as it likes, reach the provider once each: none is
lost, none is doubled, and the counters account for every poll. -/
theorem served_once (hwired : orchestrator.providerOf kind = some place)
    (hprovider : orchestrator.providers[place]? = some (.ofSeries series))
    (hinitial : (series.snapshots.map identity).Nodup)
    (hrun : run step (start config kind orchestrator) ops = .ok session)
    (hnumbered : ∀ snapshot ∈ session.served, Numbered snapshot)
    (hordered : session.served.Pairwise InOrder) :
    ∃ provider, session.orchestrator.providers[place]? = some provider ∧
      (provider.snapshots.map identity).Nodup ∧
      (∀ id, id ∈ provider.snapshots.map identity ∨
          id ∈ (inTransit kind session).map identity ↔
        id ∈ series.snapshots.map identity ∨ id ∈ session.served.map identity) ∧
      session.source.polls =
        session.served.length + session.source.degraded + session.source.transportErrors ∧
      session.source.enqueued + uncounted session.stage =
        (session.served.map identity).dedup.length := by
  have hrelayed := relayed_run hwired hprovider hrun
  obtain ⟨drained, hheld, hsplit⟩ := hrelayed.held
  have hkept := nodup_kept hnumbered hordered
  have hdrained : (drained.flatten.map identity).Nodup := by
    rw [← hsplit, List.map_append, List.nodup_append] at hkept
    exact hkept.1
  refine ⟨_, hheld, single_iff.mpr ⟨hinitial, freshOnce_of_nodup hdrained⟩, fun id => ?_,
    hrelayed.polled, ?_⟩
  · rw [held_ids, envelopes, ← mem_kept_ids hnumbered, ← hsplit]
    simp only [List.map_append, List.mem_append, or_assoc]
  · have hperm : ((kept session.served).map identity).Perm
        (session.served.map identity).dedup := by
      refine (List.perm_ext_iff_of_nodup hkept (List.nodup_dedup _)).mpr fun id => ?_
      rw [List.mem_dedup]
      exact mem_kept_ids hnumbered id
    rw [hrelayed.counted, ← hperm.length_eq, List.length_map]

def newsReader : WorkerOrchestrator Unit :=
  .ofWorkers [reader] [SignalDataProvider.ofSeries ⟨"news", []⟩]

/-- The first envelope is drained while the poll thread is still behind its hand-over. -/
def interleaved : List TransportOp :=
  [.poll 20 (.served (news 1 "BUY" 10 0)), .drainOnTick, .proceed 21, .drainOffTick 22, .tick 23,
    .proceed 24, .poll 80 (.served (news 1 "BUY" 10 0)), .poll 140 (.failed "URLError"),
    .poll 200 (.served (news 2 "SELL" 190 0)), .proceed 201, .proceed 202, .drainOnTick]

theorem interleaved_facts :
    (run step (start {} "news" newsReader) interleaved).map (fun session =>
      ((session.orchestrator.providers.map fun provider => provider.snapshots.map identity,
          decide (∀ snapshot ∈ session.served, Numbered snapshot)),
        decide (session.served.Pairwise InOrder), session.source.polls, session.source.enqueued)) =
      .ok (([[(1, 1), (1, 2)]], true), true, 4, 2) := by
  decide +kernel

theorem served_once_interleaved :
    ∃ session provider, run step (start {} "news" newsReader) interleaved = .ok session ∧
      session.orchestrator.providers[0]? = some provider ∧
      (provider.snapshots.map identity).Nodup ∧
      (∀ id, id ∈ provider.snapshots.map identity ∨
          id ∈ (inTransit "news" session).map identity ↔
        id ∈ ([] : List (ℤ × ℤ)) ∨ id ∈ session.served.map identity) ∧
      session.source.polls =
        session.served.length + session.source.degraded + session.source.transportErrors ∧
      session.source.enqueued + uncounted session.stage =
        (session.served.map identity).dedup.length := by
  obtain ⟨session, hrun, hfacts⟩ := exists_of_map_eq_ok interleaved_facts
  simp only [Prod.mk.injEq] at hfacts
  obtain ⟨⟨-, hnumbered⟩, hordered, -, -⟩ := hfacts
  have hprovider : newsReader.providers[0]? = some (.ofSeries ⟨"news", []⟩) := rfl
  obtain ⟨provider, hserved⟩ := served_once rfl hprovider List.nodup_nil hrun
    (of_decide_eq_true hnumbered) (of_decide_eq_true hordered)
  exact ⟨session, provider, hrun, hserved⟩

/-- A producer that does not number its envelopes gets exactly one through: the poller takes all of
them for the first one, and hands that over once. The provider would have told them apart by their
times. -/
theorem unnumbered_feed_stalls (hwired : orchestrator.providerOf kind = some place)
    (hprovider : orchestrator.providers[place]? = some (.ofSeries series))
    (hrun : run step (start config kind orchestrator) ops = .ok session)
    (hunnumbered : ∀ snapshot ∈ session.served,
      snapshot.seq = none ∧ snapshot.streamEpoch = none) :
    ∃ drained provider, session.orchestrator.providers[place]? = some provider ∧
      provider = (deliver (.ofSeries series) drained).1 ∧
      drained.flatten ++ inTransit kind session = session.served.take 1 ∧
      session.source.enqueued + uncounted session.stage = min 1 session.served.length ∧
      ∀ snapshot ∈ session.served,
        (-1, epochMs snapshot.getResolutionKey) ∉ provider.snapshots.map identity →
          (provider.extend [snapshot]).1.snapshots.Perm (provider.snapshots ++ [snapshot]) := by
  have hrelayed := relayed_run hwired hprovider hrun
  obtain ⟨drained, hheld, hsplit⟩ := hrelayed.held
  have hfirst : kept session.served = session.served.take 1 := by
    apply withoutRepeats_of_constant
    intro snapshot hmem
    obtain ⟨hseq, hepoch⟩ := hunnumbered snapshot hmem
    change (snapshot.streamEpoch, snapshot.seq) = (none, none)
    rw [hseq, hepoch]
  refine ⟨drained, _, hheld, rfl, hsplit.trans hfirst, ?_, fun snapshot hmem hnew => ?_⟩
  · rw [hrelayed.counted, hfirst, List.length_take]
  · have hindexed : Indexed (deliver (SignalDataProvider.ofSeries series) drained).1 :=
      (deliver_perm (indexed_reindex _ _)).1
    have hid : identity snapshot = (-1, epochMs snapshot.getResolutionKey) := by
      rw [identity, (hunnumbered snapshot hmem).1]
    have hfresh : freshOf (deliver (SignalDataProvider.ofSeries series) drained).1 [snapshot] =
        [snapshot] := by
      refine List.filter_eq_self.mpr fun arrived harrived => decide_eq_true ?_
      rw [List.mem_singleton.mp harrived, hid, hindexed.seen]
      exact hnew
    rw [(hindexed.extend_snapshots _).1, hfresh]
    exact List.perm_insertionSort _ _

def unnumberedNews (signal : String) (available : Instant) : SignalSnapshot :=
  { news 0 signal available 0 with seq := none, streamEpoch := none }

def unnumberedFeed : List TransportOp :=
  [.poll 20000 (.served (unnumberedNews "BUY" 10000)), .proceed 20001, .proceed 20002,
    .drainOnTick, .poll 80000 (.served (unnumberedNews "SELL" 70000)), .proceed 80001,
    .drainOnTick]

theorem unnumberedFeed_facts :
    (run step (start {} "news" newsReader) unnumberedFeed).map (fun session =>
      (session.served.map identity, decide (∀ snapshot ∈ session.served,
        snapshot.seq = none ∧ snapshot.streamEpoch = none))) =
      .ok ([(-1, 10), (-1, 70)], true) := by
  decide +kernel

theorem unnumbered_feed_stalls_turn :
    ∃ session drained provider, run step (start {} "news" newsReader) unnumberedFeed = .ok session ∧
      session.served.map identity = [(-1, 10), (-1, 70)] ∧
      session.orchestrator.providers[0]? = some provider ∧
      provider = (deliver (.ofSeries ⟨"news", []⟩) drained).1 ∧
      drained.flatten ++ inTransit "news" session = session.served.take 1 ∧
      session.source.enqueued + uncounted session.stage = min 1 session.served.length ∧
      ∀ snapshot ∈ session.served,
        (-1, epochMs snapshot.getResolutionKey) ∉ provider.snapshots.map identity →
          (provider.extend [snapshot]).1.snapshots.Perm (provider.snapshots ++ [snapshot]) := by
  obtain ⟨session, hrun, hfacts⟩ := exists_of_map_eq_ok unnumberedFeed_facts
  obtain ⟨hserved, hunnumbered⟩ := Prod.mk.inj hfacts
  have hinjected : newsReader.providers[0]? = some (.ofSeries ⟨"news", []⟩) := rfl
  obtain ⟨drained, provider, hstalls⟩ :=
    unnumbered_feed_stalls rfl hinjected hrun (of_decide_eq_true hunnumbered)
  exact ⟨session, drained, provider, hrun, hserved, hstalls⟩

end Sessions

end Finiex.SignalTransport
