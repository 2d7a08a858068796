import Pompom.Lib.Run
import Pompom.Firestore.View

/-!
# The connection that listens

`RemoteStore` (`remote/remote_store.cc`) keeps the targets of all listeners and one
stream to the server (`remote/stream.cc`, `remote/watch_stream.cc`) for as long as there
are any, and `OnlineStateTracker` guesses from what happens to the stream whether the
client is offline.  A read that finds the client neither online nor offline waits.

Events are the calls of the sync engine, the network being switched, and what comes back
later: credentials, messages and the end of the gRPC stream, and timers.  A call of
`HARD_ASSERT` that fails ends the process (`Fatal`).  The stream is open as soon as the
gRPC call is started, which does not wait for the server.

What the sync engine calls in answer to a message is an event of its own.  The write
stream, the delays of the backoff, the log, and what the messages say of documents are
left out.
-/

namespace Pompom.Firestore

/-- What ends the process: the condition of a `HARD_ASSERT`, or a part that is used while
there is none. -/
inductive Fatal where
  | timerAlreadyStarted
  | timerNotCanceled
  | failuresNotReset
  | timerStillSet
  | streamNotNeeded
  | alreadyStarted
  | noLongerStarting
  | backoffWithoutError
  | backoffInterrupted
  | notRestarted
  | inhibitedWhileStarted
  | readAfterStop
  | closedWithoutStart
  | writeWithoutOpen
  | targetNotWatched
  | stoppedWhileNeeded
  | noAggregator
  | noGrpcStream
  | erroredTarget
  | documentFilterCount
  | resetInactiveTarget
  | modifiedUnknown
  deriving DecidableEq, Repr

def hardAssert (condition : Prop) [Decidable condition] (fatal : Fatal) : Except Fatal Unit :=
  if condition then .ok () else .error fatal

/-! ## The tracker -/

structure OnlineStateTracker where
  state : OnlineState := .unknown
  watchStreamFailures : ℕ := 0
  /-- Whether the timer is scheduled. -/
  onlineStateTimer : Bool := false
  /-- The calls of `online_state_handler_`. -/
  broadcasts : List OnlineState := []
  deriving DecidableEq

namespace OnlineStateTracker

def kMaxWatchStreamFailures : ℕ := 1

def setAndBroadcast (tracker : OnlineStateTracker) (newState : OnlineState) :
    OnlineStateTracker :=
  if newState ≠ tracker.state then
    { tracker with state := newState, broadcasts := tracker.broadcasts ++ [newState] }
  else tracker

def clearOnlineStateTimer (tracker : OnlineStateTracker) : OnlineStateTracker :=
  { tracker with onlineStateTimer := false }

def handleWatchStreamStart (tracker : OnlineStateTracker) : Except Fatal OnlineStateTracker :=
  if tracker.watchStreamFailures ≠ 0 then .ok tracker
  else do
    let tracker := tracker.setAndBroadcast .unknown
    hardAssert (tracker.onlineStateTimer = false) .timerAlreadyStarted
    return { tracker with onlineStateTimer := true }

/-- The operation of the timer. -/
def onlineStateTimeout (tracker : OnlineStateTracker) : Except Fatal OnlineStateTracker := do
  let tracker := tracker.clearOnlineStateTimer
  hardAssert (tracker.state = .unknown) .timerNotCanceled
  return tracker.setAndBroadcast .offline

def handleWatchStreamFailure (tracker : OnlineStateTracker) : Except Fatal OnlineStateTracker :=
  if tracker.state = .online then do
    let tracker := tracker.setAndBroadcast .unknown
    hardAssert (tracker.watchStreamFailures = 0) .failuresNotReset
    hardAssert (tracker.onlineStateTimer = false) .timerStillSet
    return tracker
  else
    let tracker := { tracker with watchStreamFailures := tracker.watchStreamFailures + 1 }
    if tracker.watchStreamFailures ≥ kMaxWatchStreamFailures then
      return tracker.clearOnlineStateTimer.setAndBroadcast .offline
    else return tracker

def updateState (tracker : OnlineStateTracker) (newState : OnlineState) : OnlineStateTracker :=
  setAndBroadcast { tracker.clearOnlineStateTimer with watchStreamFailures := 0 } newState

end OnlineStateTracker

/-! ## The stream -/

/-- `Stream::State`. -/
inductive StreamState where
  | initial
  | starting
  | opened
  | healthy
  | error
  | backoff
  deriving DecidableEq, Repr

/-- What is said about a target on a gRPC stream. -/
inductive StreamEntry (τ : Type) where
  | watch (target : τ)
  | unwatch (target : τ)
  /-- The server removes a target because of an error. -/
  | rejected (target : τ)
  deriving DecidableEq

structure WatchStream (τ : Type) where
  state : StreamState := .initial
  closeCount : ℕ := 0
  /-- The close counts at the requests for credentials that have not been answered. -/
  credentialRequests : List ℕ := []
  /-- What has been said on the gRPC stream, if there is one. -/
  grpcStream : Option (List (StreamEntry τ)) := none
  backoffTimer : Bool := false
  idlenessTimer : Bool := false
  healthCheck : Bool := false
  deriving DecidableEq

namespace WatchStream

variable {τ : Type}

def IsOpen (stream : WatchStream τ) : Prop :=
  stream.state = .opened ∨ stream.state = .healthy

def IsStarted (stream : WatchStream τ) : Prop :=
  stream.state = .starting ∨ stream.state = .backoff ∨ stream.IsOpen

instance (stream : WatchStream τ) : Decidable stream.IsOpen :=
  inferInstanceAs (Decidable (_ ∨ _))

instance (stream : WatchStream τ) : Decidable stream.IsStarted :=
  inferInstanceAs (Decidable (_ ∨ _ ∨ _))

def requestCredentials (stream : WatchStream τ) : WatchStream τ :=
  { stream with credentialRequests := stream.credentialRequests ++ [stream.closeCount] }

def backoffAndTryRestarting (stream : WatchStream τ) : Except Fatal (WatchStream τ) := do
  hardAssert (stream.state = .error) .backoffWithoutError
  return { stream with state := .backoff, backoffTimer := true }

def start (stream : WatchStream τ) : Except Fatal (WatchStream τ) :=
  if stream.state = .error then stream.backoffAndTryRestarting
  else do
    hardAssert (stream.state = .initial) .alreadyStarted
    return requestCredentials { stream with state := .starting }

/-- The operation of the backoff. -/
def backoffElapsed (stream : WatchStream τ) : Except Fatal (WatchStream τ) := do
  hardAssert (stream.state = .backoff) .backoffInterrupted
  let stream ← start { stream with state := .initial, backoffTimer := false }
  hardAssert stream.IsStarted .notRestarted
  return stream

def inhibitBackoff (stream : WatchStream τ) : Except Fatal (WatchStream τ) := do
  hardAssert (¬ stream.IsStarted) .inhibitedWhileStarted
  return { stream with state := .initial }

def markIdle (stream : WatchStream τ) : WatchStream τ :=
  if stream.IsOpen ∧ stream.idlenessTimer = false then { stream with idlenessTimer := true }
  else stream

def cancelIdleCheck (stream : WatchStream τ) : WatchStream τ :=
  { stream with idlenessTimer := false }

/-- The operation of the health check. -/
def healthCheckElapsed (stream : WatchStream τ) : WatchStream τ :=
  let stream := { stream with healthCheck := false }
  if stream.IsOpen then { stream with state := .healthy } else stream

/-- `Write`, of a request to watch a target or to unwatch it. -/
def write (stream : WatchStream τ) (request : StreamEntry τ) : Except Fatal (WatchStream τ) := do
  hardAssert stream.IsOpen .writeWithoutOpen
  let stream := stream.cancelIdleCheck
  match stream.grpcStream with
  | none => .error .noGrpcStream
  | some said => return { stream with grpcStream := some (said ++ [request]) }

/-- The first six steps of `Close`, and the new state. -/
def closed (stream : WatchStream τ) (graceful : Bool) : WatchStream τ :=
  { stream.cancelIdleCheck with
    backoffTimer := false
    healthCheck := false
    closeCount := stream.closeCount + 1
    grpcStream := none
    state := if graceful then .initial else .error }

end WatchStream

/-! ## The store -/

structure RemoteStore (τ : Type) where
  isNetworkEnabled : Bool := false
  listenTargets : List τ := []
  /-- Whether there is a `watch_change_aggregator_`. -/
  aggregator : Bool := false
  stream : WatchStream τ := {}
  tracker : OnlineStateTracker := {}
  deriving DecidableEq

/-- A message from the server. -/
inductive WatchResponse (τ : Type) where
  | unparsable
  /-- Targets are removed because of an error. -/
  | targetError (targets : List τ)
  /-- Any other change, with the targets whose existence filters do not match. -/
  | change (mismatches : List τ)

inductive WatchEvent (τ : Type) where
  | enableNetwork
  | disableNetwork
  /-- The network becomes available, or the user changes. -/
  | restartNetwork
  | listen (target : τ)
  | stopListening (target : τ)
  /-- A request for credentials is answered. -/
  | credentials (request : ℕ) (authorized : Bool)
  | streamRead (response : WatchResponse τ)
  | streamFinish (statusOk : Bool)
  | backoffElapsed
  | idleTimeout
  | healthCheck
  | onlineStateTimeout

namespace RemoteStore

variable {τ : Type}

def ShouldStartWatchStream (store : RemoteStore τ) : Prop :=
  store.isNetworkEnabled = true ∧ ¬ store.stream.IsStarted ∧ store.listenTargets ≠ []

instance (store : RemoteStore τ) : Decidable store.ShouldStartWatchStream :=
  inferInstanceAs (Decidable (_ ∧ _ ∧ _))

def updateState (store : RemoteStore τ) (newState : OnlineState) : RemoteStore τ :=
  { store with tracker := store.tracker.updateState newState }

def startWatchStream (store : RemoteStore τ) : Except Fatal (RemoteStore τ) := do
  hardAssert store.ShouldStartWatchStream .streamNotNeeded
  let stream ← store.stream.start
  let tracker ← store.tracker.handleWatchStreamStart
  return { store with aggregator := true, stream := stream, tracker := tracker }

def onWatchStreamClose (store : RemoteStore τ) (statusOk : Bool) :
    Except Fatal (RemoteStore τ) := do
  hardAssert (statusOk = true → ¬ store.ShouldStartWatchStream) .stoppedWhileNeeded
  let store := { store with aggregator := false }
  if store.ShouldStartWatchStream then
    let tracker ← store.tracker.handleWatchStreamFailure
    startWatchStream { store with tracker := tracker }
  else return store.updateState .unknown

/-- `Stream::Close`, and `NotifyStreamClose` of the watch stream. -/
def close (store : RemoteStore τ) (statusOk : Bool) : Except Fatal (RemoteStore τ) :=
  if statusOk = true ∧ ¬ store.stream.IsStarted then .ok store
  else do
    hardAssert store.stream.IsStarted .closedWithoutStart
    onWatchStreamClose { store with stream := store.stream.closed statusOk } statusOk

/-- `watch_change_aggregator_->…`. -/
def useAggregator (store : RemoteStore τ) : Except Fatal Unit :=
  hardAssert (store.aggregator = true) .noAggregator

def sendWatchRequest (store : RemoteStore τ) (target : τ) : Except Fatal (RemoteStore τ) := do
  store.useAggregator
  let stream ← store.stream.write (.watch target)
  return { store with stream := stream }

def sendUnwatchRequest (store : RemoteStore τ) (target : τ) : Except Fatal (RemoteStore τ) := do
  store.useAggregator
  let stream ← store.stream.write (.unwatch target)
  return { store with stream := stream }

def onWatchStreamOpen (store : RemoteStore τ) : Except Fatal (RemoteStore τ) :=
  store.listenTargets.foldlM sendWatchRequest store

/-- `Stream::OnStreamStart`. -/
def onStreamStart (store : RemoteStore τ) : Except Fatal (RemoteStore τ) := do
  let store ← onWatchStreamOpen { store with stream := { store.stream with state := .opened } }
  return { store with stream := { store.stream with healthCheck := true } }

/-- `Stream::ResumeStartWithCredentials`.  The new gRPC stream is started at once. -/
def resumeStartWithCredentials (store : RemoteStore τ) (authorized : Bool) :
    Except Fatal (RemoteStore τ) := do
  hardAssert (store.stream.state = .starting) .noLongerStarting
  if authorized then
    onStreamStart { store with stream := { store.stream with grpcStream := some [] } }
  else store.close false

/-- The callback of `Stream::RequestCredentials`. -/
def credentials (store : RemoteStore τ) (request : ℕ) (authorized : Bool) :
    Except Fatal (RemoteStore τ) :=
  let answered := { store with
    stream := { store.stream with
      credentialRequests := store.stream.credentialRequests.erase request } }
  if store.stream.closeCount ≠ request then .ok answered
  else answered.resumeStartWithCredentials authorized

def disableNetworkInternal (store : RemoteStore τ) : Except Fatal (RemoteStore τ) := do
  let store ← store.close true
  return { store with aggregator := false }

def enableNetwork (store : RemoteStore τ) : Except Fatal (RemoteStore τ) :=
  let store := { store with isNetworkEnabled := true }
  if store.ShouldStartWatchStream then store.startWatchStream
  else .ok (store.updateState .unknown)

def disableNetwork (store : RemoteStore τ) : Except Fatal (RemoteStore τ) := do
  let store ← disableNetworkInternal { store with isNetworkEnabled := false }
  return store.updateState .offline

/-- `RestartNetwork`, which is called if the network can be used. -/
def restartNetwork (store : RemoteStore τ) : Except Fatal (RemoteStore τ) :=
  if store.isNetworkEnabled = true then do
    let store ← disableNetworkInternal { store with isNetworkEnabled := false }
    let stream ← store.stream.inhibitBackoff
    enableNetwork { store.updateState .unknown with stream := stream }
  else .ok store

variable [DecidableEq τ]

def listen (store : RemoteStore τ) (target : τ) : Except Fatal (RemoteStore τ) :=
  if target ∈ store.listenTargets then .ok store
  else
    let store := { store with listenTargets := store.listenTargets ++ [target] }
    if store.ShouldStartWatchStream then store.startWatchStream
    else if store.stream.IsOpen then store.sendWatchRequest target
    else .ok store

def stopListening (store : RemoteStore τ) (target : τ) : Except Fatal (RemoteStore τ) := do
  hardAssert (target ∈ store.listenTargets) .targetNotWatched
  let store := { store with listenTargets := store.listenTargets.erase target }
  let store ← if store.stream.IsOpen then store.sendUnwatchRequest target else .ok store
  if store.listenTargets.isEmpty then
    if store.stream.IsOpen then return { store with stream := store.stream.markIdle }
    else if store.isNetworkEnabled then return store.updateState .unknown
    else return store
  else return store

/-- The body of the loop in `ProcessTargetError`. -/
def rejectTarget (store : RemoteStore τ) (target : τ) : Except Fatal (RemoteStore τ) :=
  if target ∈ store.listenTargets then do
    store.useAggregator
    return { store with
      listenTargets := store.listenTargets.erase target
      stream := { store.stream with
        grpcStream := store.stream.grpcStream.map (· ++ [.rejected target]) } }
  else .ok store

/-- The body of the loop over `target_mismatches` in `RaiseWatchSnapshot`. -/
def watchAgain (store : RemoteStore τ) (target : τ) : Except Fatal (RemoteStore τ) :=
  if target ∈ store.listenTargets then do
    let store ← store.sendUnwatchRequest target
    store.sendWatchRequest target
  else .ok store

/-- `Stream::OnStreamRead`, and `OnWatchStreamChange`. -/
def onStreamRead (store : RemoteStore τ) (response : WatchResponse τ) :
    Except Fatal (RemoteStore τ) := do
  hardAssert store.stream.IsStarted .readAfterStop
  match response with
  | .unparsable => store.close false
  | .targetError targets => targets.foldlM rejectTarget (store.updateState .online)
  | .change mismatches =>
      store.useAggregator
      mismatches.foldlM watchAgain (store.updateState .online)

def step (store : RemoteStore τ) : WatchEvent τ → Except Fatal (RemoteStore τ)
  | .enableNetwork => store.enableNetwork
  | .disableNetwork => store.disableNetwork
  | .restartNetwork => store.restartNetwork
  | .listen target => store.listen target
  | .stopListening target => store.stopListening target
  | .credentials request authorized => store.credentials request authorized
  | .streamRead response => store.onStreamRead response
  | .streamFinish statusOk => store.close statusOk
  | .backoffElapsed => do
      let stream ← store.stream.backoffElapsed
      return { store with stream := stream }
  | .idleTimeout =>
      close { store with stream := { store.stream with idlenessTimer := false } } true
  | .healthCheck => .ok { store with stream := store.stream.healthCheckElapsed }
  | .onlineStateTimeout => do
      let tracker ← store.tracker.onlineStateTimeout
      return { store with tracker := tracker }

/-- What has been scheduled or requested can happen, and calls can always be made. -/
def Possible (store : RemoteStore τ) : WatchEvent τ → Prop
  | .credentials request _ => request ∈ store.stream.credentialRequests
  | .streamRead _ | .streamFinish _ => store.stream.grpcStream.isSome = true
  | .backoffElapsed => store.stream.backoffTimer = true
  | .idleTimeout => store.stream.idlenessTimer = true
  | .healthCheck => store.stream.healthCheck = true
  | .onlineStateTimeout => store.tracker.onlineStateTimer = true
  | .enableNetwork | .disableNetwork | .restartNetwork | .listen _ | .stopListening _ => True

end RemoteStore

end Pompom.Firestore
