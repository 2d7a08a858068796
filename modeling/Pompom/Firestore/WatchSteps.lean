import Mathlib.Data.List.Chain
import Pompom.Firestore.WatchStream

/-!
# What every event of the connection keeps

Three levels, each with its invariant: the tracker (`OnlineStateTracker.Sound`), the stream
(`WatchStream.Sound`) and the store with both (`RemoteStore.Sound`).  A stream that is
being replaced is `Steady`: everything holds except that a stream might be needed and
that the client might still pass for online.

`Keeps` is the outcome of one event.  There are two ways to end the process
(`RemoteStore.Fails`), and two ways to lose the timer that bounds how long nothing is
known of a connection (`RemoteStore.KeepsTimer`).
-/

namespace Pompom.Firestore

open Lib

/-! ## Results that are not fatal -/

@[simp] theorem ok_bind {α β : Type} (value : α) (next : α → Except Fatal β) :
    ((Except.ok value : Except Fatal α) >>= next) = next value := rfl

@[simp] theorem error_bind {α β : Type} (fatal : Fatal) (next : α → Except Fatal β) :
    ((Except.error fatal : Except Fatal α) >>= next) = .error fatal := rfl

@[simp] theorem hardAssert_of {condition : Prop} [Decidable condition] (hholds : condition)
    (fatal : Fatal) : hardAssert condition fatal = .ok () :=
  if_pos hholds

@[simp] theorem hardAssert_of_not {condition : Prop} [Decidable condition]
    (hfails : ¬ condition) (fatal : Fatal) : hardAssert condition fatal = .error fatal :=
  if_neg hfails

/-- A loop whose body never fails, with its invariant. -/
theorem foldlM_ok {σ α : Type} {P : σ → Prop} {body : σ → α → Except Fatal σ}
    (hbody : ∀ state item, P state → ∃ next, body state item = .ok next ∧ P next)
    {start : σ} (hstart : P start) (items : List α) :
    ∃ final, items.foldlM body start = .ok final ∧ P final := by
  induction items generalizing start with
  | nil => exact ⟨start, rfl, hstart⟩
  | cons item items ih =>
      obtain ⟨next, hnext, hholds⟩ := hbody start item hstart
      rw [List.foldlM_cons, hnext, ok_bind]
      exact ih hholds

namespace OnlineStateTracker

variable {tracker : OnlineStateTracker}

/-- One state is told after another.  Between being online and being offline, the client
is neither. -/
def Follows (state next : OnlineState) : Prop :=
  state ≠ next ∧ (state = .online → next ≠ .offline)

instance : DecidableRel Follows :=
  fun _ _ => inferInstanceAs (Decidable (_ ∧ _))

/-- Every change of the state has been told, and nothing else. -/
structure Told (tracker : OnlineStateTracker) : Prop where
  last : (.unknown :: tracker.broadcasts).getLast? = some tracker.state
  changes : (.unknown :: tracker.broadcasts).IsChain Follows

/-- The timer runs only while the state is unknown and nothing has failed, and a failure
makes the client offline. -/
structure Sound (tracker : OnlineStateTracker) : Prop where
  timer : tracker.onlineStateTimer = true →
    tracker.state = .unknown ∧ tracker.watchStreamFailures = 0
  failures : tracker.watchStreamFailures ≠ 0 → tracker.state = .offline
  told : tracker.Told

@[simp] theorem setAndBroadcast_state (newState : OnlineState) :
    (tracker.setAndBroadcast newState).state = newState := by
  unfold setAndBroadcast
  split
  · rfl
  · rename_i hsame
    exact (not_not.mp hsame).symm

@[simp] theorem setAndBroadcast_failures (newState : OnlineState) :
    (tracker.setAndBroadcast newState).watchStreamFailures = tracker.watchStreamFailures := by
  unfold setAndBroadcast
  split <;> rfl

@[simp] theorem setAndBroadcast_timer (newState : OnlineState) :
    (tracker.setAndBroadcast newState).onlineStateTimer = tracker.onlineStateTimer := by
  unfold setAndBroadcast
  split <;> rfl

theorem Told.setAndBroadcast (htold : tracker.Told) {newState : OnlineState}
    (hnever : tracker.state = .online → newState ≠ .offline) :
    (tracker.setAndBroadcast newState).Told := by
  unfold OnlineStateTracker.setAndBroadcast
  split
  · rename_i hchange
    refine ⟨?_, ?_⟩
    · rw [← List.cons_append, List.getLast?_concat]
    · rw [← List.cons_append, List.isChain_append]
      refine ⟨htold.changes, List.isChain_singleton _, ?_⟩
      intro last hlast next hnext
      rw [htold.last, Option.mem_some_iff] at hlast
      obtain rfl : newState = next := by simpa using hnext
      exact ⟨hlast ▸ hchange.symm, hlast ▸ hnever⟩
  · exact htold

@[simp] theorem updateState_state (newState : OnlineState) :
    (tracker.updateState newState).state = newState := by
  simp [updateState]

@[simp] theorem updateState_timer (newState : OnlineState) :
    (tracker.updateState newState).onlineStateTimer = false := by
  simp [updateState, clearOnlineStateTimer]

theorem Sound.updateState (hsound : tracker.Sound) {newState : OnlineState}
    (hnever : tracker.state = .online → newState ≠ .offline) :
    (tracker.updateState newState).Sound where
  timer htimer := by simp at htimer
  failures hfailures := by simp [OnlineStateTracker.updateState] at hfailures
  told := Told.setAndBroadcast (by exact ⟨hsound.told.last, hsound.told.changes⟩) hnever

theorem Sound.handleWatchStreamStart (hsound : tracker.Sound)
    (htimer : tracker.onlineStateTimer = false) :
    ∃ next, tracker.handleWatchStreamStart = .ok next ∧ next.Sound ∧ next.state ≠ .online ∧
      (next.state = .unknown → next.onlineStateTimer = true) := by
  unfold OnlineStateTracker.handleWatchStreamStart
  split
  · rename_i hfailures
    have hoffline := hsound.failures hfailures
    exact ⟨tracker, rfl, hsound, by simp [hoffline], fun hunknown => by simp [hoffline] at hunknown⟩
  · rename_i hfailures
    have htold : (tracker.setAndBroadcast .unknown).Told :=
      hsound.told.setAndBroadcast fun _ => by decide
    refine ⟨{ tracker.setAndBroadcast .unknown with onlineStateTimer := true }, ?_, ?_, by simp,
      fun _ => rfl⟩
    · simp [htimer]
    · refine ⟨fun _ => ?_, fun hne => ?_, ⟨htold.last, htold.changes⟩⟩
      · simpa using hfailures
      · exact absurd (by simpa using hne) hfailures

theorem Sound.handleWatchStreamFailure (hsound : tracker.Sound) :
    ∃ next, tracker.handleWatchStreamFailure = .ok next ∧ next.Sound ∧
      next.onlineStateTimer = false := by
  unfold OnlineStateTracker.handleWatchStreamFailure
  split
  · rename_i honline
    have htimer : tracker.onlineStateTimer = false := by
      by_contra hset
      simp [(hsound.timer (by simpa using hset)).1] at honline
    have hfailures : tracker.watchStreamFailures = 0 := by
      by_contra hne
      simp [hsound.failures hne] at honline
    refine ⟨tracker.setAndBroadcast .unknown, ?_, ?_, by simpa using htimer⟩
    · simp [htimer, hfailures]
    · refine ⟨fun hset => ?_, fun hne => ?_, hsound.told.setAndBroadcast fun _ => by decide⟩
      · simp [htimer] at hset
      · simp [hfailures] at hne
  · rename_i hstate
    -- one failure is enough
    simp only [kMaxWatchStreamFailures, ge_iff_le, Nat.le_add_left, if_true]
    refine ⟨_, rfl, ?_, by simp [clearOnlineStateTimer]⟩
    refine ⟨fun hset => ?_, fun _ => by simp,
      Told.setAndBroadcast ?_ fun honline => absurd honline hstate⟩
    · simp [clearOnlineStateTimer] at hset
    · exact ⟨hsound.told.last, hsound.told.changes⟩

theorem Sound.onlineStateTimeout (hsound : tracker.Sound)
    (htimer : tracker.onlineStateTimer = true) :
    ∃ next, tracker.onlineStateTimeout = .ok next ∧ next.Sound ∧ next.state = .offline ∧
      next.onlineStateTimer = false := by
  obtain ⟨hunknown, hfailures⟩ := hsound.timer htimer
  refine ⟨tracker.clearOnlineStateTimer.setAndBroadcast .offline, ?_, ?_, by simp,
    by simp [clearOnlineStateTimer]⟩
  · simp [OnlineStateTracker.onlineStateTimeout, clearOnlineStateTimer, hunknown]
  · refine ⟨fun hset => ?_, fun _ => by simp, Told.setAndBroadcast ?_ fun honline => ?_⟩
    · simp [clearOnlineStateTimer] at hset
    · exact ⟨hsound.told.last, hsound.told.changes⟩
    · exact absurd (hunknown.symm.trans honline) (by decide)

end OnlineStateTracker

/-! ## The stream -/

namespace WatchStream

variable {τ : Type} {stream next : WatchStream τ}

/-- There is a gRPC stream as long as the stream is open, and whatever is under way has
something that will take it further. -/
structure Sound (stream : WatchStream τ) : Prop where
  grpcStream : stream.grpcStream.isSome = true ↔ stream.IsOpen
  backoffTimer : stream.backoffTimer = true ↔ stream.state = .backoff
  credentials : stream.closeCount ∈ stream.credentialRequests ↔ stream.state = .starting
  bounded : ∀ request ∈ stream.credentialRequests, request ≤ stream.closeCount
  nodup : stream.credentialRequests.Nodup
  healthCheck : stream.healthCheck = true → stream.IsOpen

theorem IsOpen.isStarted (hopen : stream.IsOpen) : stream.IsStarted :=
  .inr (.inr hopen)

theorem not_isStarted_iff :
    ¬ stream.IsStarted ↔ stream.state = .initial ∨ stream.state = .error := by
  unfold IsStarted IsOpen
  cases stream.state <;> simp

theorem Sound.grpcStream_eq_none (hsound : stream.Sound) (hclosed : ¬ stream.IsOpen) :
    stream.grpcStream = none := by
  rw [← Option.not_isSome_iff_eq_none, hsound.grpcStream]
  exact hclosed

/-- A stopped stream can be started, after a delay if it has failed. -/
theorem Sound.start (hsound : stream.Sound) (hstopped : ¬ stream.IsStarted) :
    ∃ next, stream.start = .ok next ∧ next.Sound ∧ next.IsStarted ∧ ¬ next.IsOpen ∧
      next.idlenessTimer = stream.idlenessTimer ∧
      (stream.state = .initial → next.state = .starting) := by
  have hclosed : ¬ stream.IsOpen := fun hopen => hstopped hopen.isStarted
  have hnone := hsound.grpcStream_eq_none hclosed
  have hhealth : stream.healthCheck = false := by
    by_contra hset
    exact hclosed (hsound.healthCheck (by simpa using hset))
  have hwaits : stream.closeCount ∉ stream.credentialRequests := by
    rw [hsound.credentials]
    rcases not_isStarted_iff.mp hstopped with hstate | hstate <;> simp [hstate]
  unfold WatchStream.start
  by_cases herror : stream.state = .error
  · rw [if_pos herror, backoffAndTryRestarting, hardAssert_of herror]
    refine ⟨_, rfl, ?_, .inr (.inl rfl), by simp [IsOpen], rfl,
      fun hinitial => absurd (hinitial.symm.trans herror) (by decide)⟩
    exact ⟨by simp [hnone, IsOpen], by simp, by simpa using hwaits, hsound.bounded, hsound.nodup,
      by simp [hhealth]⟩
  · have hinitial := (not_isStarted_iff.mp hstopped).resolve_right herror
    have hbackoff : stream.backoffTimer = false := by
      by_contra hset
      simp [hsound.backoffTimer.mp (by simpa using hset)] at hinitial
    rw [if_neg herror, hardAssert_of hinitial]
    refine ⟨_, rfl, ?_, .inl rfl, by simp [requestCredentials, IsOpen], rfl, fun _ => rfl⟩
    refine ⟨by simp [requestCredentials, hnone, IsOpen], by simp [requestCredentials, hbackoff],
      by simp [requestCredentials], fun request hrequest => ?_, ?_,
      by simp [requestCredentials, hhealth]⟩
    · rcases List.mem_append.mp hrequest with hold | hnew
      · exact hsound.bounded request hold
      · exact (List.mem_singleton.mp hnew).le
    · exact List.nodup_append.mpr ⟨hsound.nodup, List.nodup_singleton _, by
        rintro request hold _ hnew rfl
        exact hwaits (List.mem_singleton.mp hnew ▸ hold)⟩

theorem closed_sound (hbounded : ∀ request ∈ stream.credentialRequests,
    request ≤ stream.closeCount) (hnodup : stream.credentialRequests.Nodup) (graceful : Bool) :
    (stream.closed graceful).Sound ∧ ¬ (stream.closed graceful).IsStarted := by
  have hstopped : ¬ (stream.closed graceful).IsStarted := by
    rw [not_isStarted_iff]
    cases graceful <;> simp [WatchStream.closed]
  have hclosed : ¬ (stream.closed graceful).IsOpen := fun hopen => hstopped hopen.isStarted
  refine ⟨⟨?_, ?_, ?_, fun request hrequest => ?_, hnodup, ?_⟩, hstopped⟩
  · exact iff_of_false (by simp [WatchStream.closed]) hclosed
  · cases graceful <;> simp [WatchStream.closed]
  · refine iff_of_false (fun hrequest => ?_) fun hstarting => hstopped (.inl hstarting)
    exact absurd (hbounded _ hrequest) (by simp [WatchStream.closed])
  · exact (hbounded request hrequest).trans (Nat.le_succ _)
  · simp [WatchStream.closed]

theorem Sound.inhibitBackoff (hsound : stream.Sound) (hstopped : ¬ stream.IsStarted) :
    Sound { stream with state := .initial } := by
  have hclosed : ¬ stream.IsOpen := fun hopen => hstopped hopen.isStarted
  have hstate := not_isStarted_iff.mp hstopped
  refine ⟨?_, ?_, ?_, hsound.bounded, hsound.nodup, fun hset => ?_⟩
  · simp [hsound.grpcStream_eq_none hclosed, IsOpen]
  · rcases hstate with hstate | hstate <;> simp [hsound.backoffTimer, hstate]
  · rcases hstate with hstate | hstate <;> simp [hsound.credentials, hstate]
  · exact absurd (hsound.healthCheck hset) hclosed

/-- The timer of the backoff starts the stream again. -/
theorem Sound.backoffElapsed (hsound : stream.Sound) (htimer : stream.backoffTimer = true) :
    ∃ next, stream.backoffElapsed = .ok next ∧ next.Sound ∧ next.state = .starting ∧
      next.idlenessTimer = stream.idlenessTimer := by
  have hbackoff := hsound.backoffTimer.mp htimer
  have hclosed : ¬ stream.IsOpen := by simp [IsOpen, hbackoff]
  have hreset : Sound { stream with state := .initial, backoffTimer := false } := by
    refine ⟨?_, by simp, ?_, hsound.bounded, hsound.nodup, fun hset => ?_⟩
    · simp [hsound.grpcStream_eq_none hclosed, IsOpen]
    · simp [hsound.credentials, hbackoff]
    · exact absurd (hsound.healthCheck hset) hclosed
  obtain ⟨next, hstart, hnext, hstarted, -, hidle, hstarting⟩ :=
    hreset.start (by simp [not_isStarted_iff])
  refine ⟨next, ?_, hnext, hstarting rfl, hidle⟩
  rw [WatchStream.backoffElapsed, hardAssert_of hbackoff]
  simp only [ok_bind, hstart, hardAssert_of hstarted]
  rfl

end WatchStream

/-! ## The store -/

section Watched

variable {τ : Type} [DecidableEq τ]

/-- The targets that are watched after what has been said. -/
def watchedBy (watched : List τ) : StreamEntry τ → List τ
  | .watch target => watched.insert target
  | .unwatch target | .rejected target => watched.filter (· ≠ target)

def watchedAfter (said : List (StreamEntry τ)) : List τ :=
  said.foldl watchedBy []

theorem watchedAfter_concat (said : List (StreamEntry τ)) (entry : StreamEntry τ) :
    watchedAfter (said ++ [entry]) = watchedBy (watchedAfter said) entry := by
  simp [watchedAfter]

end Watched

namespace RemoteStore

variable {τ : Type} [DecidableEq τ] {store : RemoteStore τ}

/-- What holds also while the stream is being replaced. -/
structure Steady (store : RemoteStore τ) : Prop where
  tracker : store.tracker.Sound
  stream : store.stream.Sound
  started : store.stream.IsStarted → store.isNetworkEnabled = true ∧ store.aggregator = true
  idle : store.stream.idlenessTimer = true → store.listenTargets = [] ∧ store.stream.IsOpen
  watched : ∀ said, store.stream.grpcStream = some said →
    ∀ target, target ∈ watchedAfter said ↔ target ∈ store.listenTargets
  nodup : store.listenTargets.Nodup

structure Sound (store : RemoteStore τ) : Prop extends store.Steady where
  needed : ¬ store.ShouldStartWatchStream
  online : store.tracker.state = .online → store.stream.IsOpen
  timed : store.tracker.onlineStateTimer = true → store.stream.IsStarted

/-- While a connection is attempted of which nothing is known, the timer is running. -/
def Patient (store : RemoteStore τ) : Prop :=
  store.stream.IsStarted → store.tracker.state = .unknown →
    store.tracker.onlineStateTimer = true

/-- The result of a step that does not fail and keeps the store sound; it is patient
exactly if `keeps`. -/
def Keeps (keeps : Prop) (before : RemoteStore τ) (result : Except Fatal (RemoteStore τ)) :
    Prop :=
  ∃ next, result = .ok next ∧ next.Sound ∧ (before.Patient → (next.Patient ↔ keeps))

theorem Sound.keeps {after : RemoteStore τ} {result : Except Fatal (RemoteStore τ)} {keeps : Prop}
    (hafter : after.Sound) (hresult : result = .ok after)
    (hpatient : store.Patient → after.Patient) (hkeeps : keeps) : Keeps keeps store result :=
  ⟨after, hresult, hafter, fun hbefore => iff_of_true (hpatient hbefore) hkeeps⟩

theorem Steady.updateState (hsteady : store.Steady) {newState : OnlineState}
    (hnever : store.tracker.state = .online → newState ≠ .offline) :
    (store.updateState newState).Steady where
  tracker := hsteady.tracker.updateState hnever
  stream := hsteady.stream
  started := hsteady.started
  idle := hsteady.idle
  watched := hsteady.watched
  nodup := hsteady.nodup

theorem Steady.updateState_unknown (hsteady : store.Steady)
    (hneeded : ¬ store.ShouldStartWatchStream) : (store.updateState .unknown).Sound where
  toSteady := hsteady.updateState fun _ => by decide
  needed := hneeded
  online honline := by simp [RemoteStore.updateState] at honline
  timed htimer := by simp [RemoteStore.updateState] at htimer

/-- A stream that is needed can be started. -/
theorem Steady.startWatchStream (hsteady : store.Steady) (hshould : store.ShouldStartWatchStream)
    (htimer : store.tracker.onlineStateTimer = false) :
    ∃ next, store.startWatchStream = .ok next ∧ next.Sound ∧ next.Patient := by
  obtain ⟨stream, hstart, hstream, hstarted, hclosed, hidle, -⟩ := hsteady.stream.start hshould.2.1
  obtain ⟨tracker, hhandle, htracker, hstate, hpatient⟩ :=
    hsteady.tracker.handleWatchStreamStart htimer
  refine ⟨{ store with aggregator := true, stream := stream, tracker := tracker }, ?_, ?_,
    fun _ => hpatient⟩
  · simp only [RemoteStore.startWatchStream, hardAssert_of hshould, ok_bind, hstart, hhandle]
    rfl
  · refine ⟨⟨htracker, hstream, fun _ => ⟨hshould.1, rfl⟩, fun hset => ?_, fun said hsaid => ?_,
      hsteady.nodup⟩, fun hagain => hagain.2.1 hstarted, fun honline => absurd honline hstate,
      fun _ => hstarted⟩
    · exact absurd (hsteady.idle (hidle ▸ hset)).1 hshould.2.2
    · rw [hstream.grpcStream_eq_none hclosed] at hsaid
      simp at hsaid

omit [DecidableEq τ] in
/-- A stream that is not needed is left as it is. -/
theorem onWatchStreamClose_unneeded (statusOk : Bool) (hshould : ¬ store.ShouldStartWatchStream) :
    store.onWatchStreamClose statusOk =
      .ok (({ store with aggregator := false } : RemoteStore τ).updateState .unknown) := by
  have hshould' : ¬ ({ store with aggregator := false } : RemoteStore τ).ShouldStartWatchStream :=
    hshould
  simp only [onWatchStreamClose, hardAssert_of fun _ => hshould, ok_bind, if_neg hshould']
  rfl

/-- A stream can be closed whatever state it is in. -/
theorem steady_closed (htracker : store.tracker.Sound)
    (hbounded : ∀ request ∈ store.stream.credentialRequests, request ≤ store.stream.closeCount)
    (hrequests : store.stream.credentialRequests.Nodup) (hnodup : store.listenTargets.Nodup)
    (statusOk : Bool) :
    Steady { store with stream := store.stream.closed statusOk } ∧
      ¬ (store.stream.closed statusOk).IsStarted := by
  obtain ⟨hstream, hstopped⟩ := WatchStream.closed_sound hbounded hrequests statusOk
  refine ⟨⟨htracker, hstream, fun hstarted => absurd hstarted hstopped, fun hset => ?_,
    fun said hsaid => ?_, hnodup⟩, hstopped⟩
  · simp [WatchStream.closed, WatchStream.cancelIdleCheck] at hset
  · simp [WatchStream.closed] at hsaid

theorem Steady.closed (hsteady : store.Steady) (statusOk : Bool) :
    Steady { store with stream := store.stream.closed statusOk } ∧
      ¬ (store.stream.closed statusOk).IsStarted :=
  steady_closed hsteady.tracker hsteady.stream.bounded hsteady.stream.nodup hsteady.nodup statusOk

/-- When nothing is needed, the store without a stream is sound. -/
theorem Steady.onWatchStreamClose_unneeded (hsteady : store.Steady)
    (hstopped : ¬ store.stream.IsStarted) (hshould : ¬ store.ShouldStartWatchStream)
    (statusOk : Bool) :
    ∃ next, store.onWatchStreamClose statusOk = .ok next ∧ next.Sound ∧
      ¬ next.stream.IsStarted ∧ next.isNetworkEnabled = store.isNetworkEnabled := by
  refine ⟨_, RemoteStore.onWatchStreamClose_unneeded statusOk hshould,
    Steady.updateState_unknown ?_ hshould, hstopped, rfl⟩
  exact ⟨hsteady.tracker, hsteady.stream, fun hstarted => absurd hstarted hstopped,
    hsteady.idle, hsteady.watched, hsteady.nodup⟩

/-- An error closes the stream, and it is started again if it is needed. -/
theorem Steady.close_error
    (hclosed : Steady { store with stream := store.stream.closed false })
    (hstopped : ¬ (store.stream.closed false).IsStarted) (hstarted : store.stream.IsStarted) :
    ∃ next, store.close false = .ok next ∧ next.Sound ∧ next.Patient := by
  have hclose : store.close false =
      onWatchStreamClose { store with stream := store.stream.closed false } false := by
    simp [close, hardAssert_of hstarted]
  rw [hclose]
  by_cases hshould :
      ShouldStartWatchStream { store with stream := store.stream.closed false }
  · obtain ⟨tracker, hfailure, htracker, htimer⟩ := hclosed.tracker.handleWatchStreamFailure
    have hretry : Steady { store with
        aggregator := false, stream := store.stream.closed false, tracker := tracker } :=
      ⟨htracker, hclosed.stream, fun hagain => absurd hagain hstopped, hclosed.idle,
        hclosed.watched, hclosed.nodup⟩
    obtain ⟨next, hstart, hnext, hpatient⟩ := hretry.startWatchStream hshould htimer
    refine ⟨next, ?_, hnext, hpatient⟩
    have hshould' : ShouldStartWatchStream { store with
        aggregator := false, stream := store.stream.closed false } := hshould
    simp only [onWatchStreamClose, if_pos hshould', ok_bind, hfailure, hstart,
      hardAssert_of (fun hfalse : false = true => absurd hfalse Bool.false_ne_true)]
  · obtain ⟨next, hnext, hsound, hnot, -⟩ :=
      hclosed.onWatchStreamClose_unneeded hstopped hshould false
    exact ⟨next, hnext, hsound, fun hagain => absurd hagain hnot⟩

/-- A graceful close of a stream that is not needed. -/
theorem Steady.close_ok
    (hclosed : Steady { store with stream := store.stream.closed true })
    (hstopped : ¬ (store.stream.closed true).IsStarted) (hstarted : store.stream.IsStarted)
    (hunneeded : store.isNetworkEnabled = false ∨ store.listenTargets = []) :
    ∃ next, store.close true = .ok next ∧ next.Sound ∧ ¬ next.stream.IsStarted ∧
      next.isNetworkEnabled = store.isNetworkEnabled := by
  have hclose : store.close true =
      onWatchStreamClose { store with stream := store.stream.closed true } true := by
    simp [close, hstarted]
  rw [hclose]
  refine hclosed.onWatchStreamClose_unneeded hstopped ?_ true
  rintro ⟨hnetwork, -, htargets⟩
  rcases hunneeded with hoff | hempty
  · exact absurd hnetwork (by simp [hoff])
  · exact htargets hempty

/-! ### The network -/

theorem Sound.timer_off (hsound : store.Sound) (hstopped : ¬ store.stream.IsStarted) :
    store.tracker.onlineStateTimer = false := by
  by_contra hset
  exact hstopped (hsound.timed (by simpa using hset))

theorem Sound.not_online (hsound : store.Sound) (hstopped : ¬ store.stream.IsStarted) :
    store.tracker.state ≠ .online :=
  fun honline => hstopped (hsound.online honline).isStarted

theorem Sound.disableNetworkInternal (hsound : store.Sound) :
    ∃ next, RemoteStore.disableNetworkInternal { store with isNetworkEnabled := false } =
        .ok next ∧ next.Sound ∧ next.isNetworkEnabled = false ∧ ¬ next.stream.IsStarted := by
  have hoff : ∀ {next : RemoteStore τ}, next.Sound → next.isNetworkEnabled = false →
      ¬ next.stream.IsStarted → Sound { next with aggregator := false } := by
    intro next hnext hnetwork hstopped
    exact ⟨⟨hnext.tracker, hnext.stream, fun hstarted => absurd hstarted hstopped, hnext.idle,
      hnext.watched, hnext.nodup⟩, hnext.needed, hnext.online, hnext.timed⟩
  by_cases hstarted : store.stream.IsStarted
  · obtain ⟨hclosed, hstopped⟩ := @steady_closed _ _ { store with isNetworkEnabled := false }
      hsound.tracker hsound.stream.bounded hsound.stream.nodup hsound.nodup true
    obtain ⟨next, hnext, hnextSound, hnot, hnetwork⟩ :=
      hclosed.close_ok hstopped hstarted (.inl rfl)
    refine ⟨{ next with aggregator := false }, ?_, hoff hnextSound hnetwork hnot, hnetwork, hnot⟩
    rw [RemoteStore.disableNetworkInternal, hnext]
    rfl
  · have hclose : close { store with isNetworkEnabled := false } true =
        .ok { store with isNetworkEnabled := false } := if_pos ⟨rfl, hstarted⟩
    have hdisabled : Sound { store with isNetworkEnabled := false } := by
      refine ⟨⟨hsound.tracker, hsound.stream, fun hagain => absurd hagain hstarted, hsound.idle,
        hsound.watched, hsound.nodup⟩, fun hshould => ?_, hsound.online, hsound.timed⟩
      exact absurd hshould.1 Bool.false_ne_true
    refine ⟨{ store with isNetworkEnabled := false, aggregator := false }, ?_,
      hoff hdisabled rfl hstarted, rfl, hstarted⟩
    rw [RemoteStore.disableNetworkInternal, hclose]
    rfl

theorem Steady.enableNetwork (hsteady : store.Steady) (hstopped : ¬ store.stream.IsStarted)
    (htimer : store.tracker.onlineStateTimer = false) :
    ∃ next, store.enableNetwork = .ok next ∧ next.Sound ∧ next.Patient := by
  have henabled : Steady { store with isNetworkEnabled := true } :=
    ⟨hsteady.tracker, hsteady.stream, fun hstarted => absurd hstarted hstopped, hsteady.idle,
      hsteady.watched, hsteady.nodup⟩
  unfold RemoteStore.enableNetwork
  by_cases hshould : ShouldStartWatchStream { store with isNetworkEnabled := true }
  · simp only [if_pos hshould]
    exact henabled.startWatchStream hshould htimer
  · simp only [if_neg hshould]
    exact ⟨_, rfl, henabled.updateState_unknown hshould,
      fun hstarted => absurd hstarted hstopped⟩

/-- While the stream is open, nothing more is needed. -/
theorem Steady.sound (hsteady : store.Steady) (hopen : store.stream.IsOpen) : store.Sound :=
  ⟨hsteady, fun hshould => hshould.2.1 hopen.isStarted, fun _ => hopen, fun _ => hopen.isStarted⟩

omit [DecidableEq τ] in
/-- The timer is not needed where nothing is attempted. -/
theorem patient_of_stopped (hstopped : ¬ store.stream.IsStarted) : store.Patient :=
  fun hstarted => absurd hstarted hstopped

omit [DecidableEq τ] in
theorem patient_updateState_unknown :
    (store.updateState .unknown).Patient ↔ ¬ store.stream.IsStarted := by
  refine ⟨fun hpatient hstarted => ?_, fun hstopped => patient_of_stopped hstopped⟩
  have htimer := hpatient hstarted (by simp [RemoteStore.updateState])
  simp [RemoteStore.updateState] at htimer

theorem Sound.keeps_enableNetwork (hsound : store.Sound) :
    Keeps (¬ store.stream.IsStarted) store store.enableNetwork := by
  by_cases hstarted : store.stream.IsStarted
  · have henabled : ({ store with isNetworkEnabled := true } : RemoteStore τ) = store := by
      rw [← (hsound.started hstarted).1]
    refine ⟨store.updateState .unknown, ?_, hsound.toSteady.updateState_unknown hsound.needed,
      fun _ => patient_updateState_unknown⟩
    simp only [RemoteStore.enableNetwork, henabled, if_neg hsound.needed]
  · obtain ⟨next, hnext, hnextSound, hpatient⟩ :=
      hsound.toSteady.enableNetwork hstarted (hsound.timer_off hstarted)
    exact hnextSound.keeps hnext (fun _ => hpatient) hstarted

theorem Sound.keeps_disableNetwork (hsound : store.Sound) :
    Keeps True store store.disableNetwork := by
  obtain ⟨next, hnext, hnextSound, hoff, hstopped⟩ := hsound.disableNetworkInternal
  have hnever := hnextSound.not_online hstopped
  refine ⟨next.updateState .offline, ?_, ⟨hnextSound.toSteady.updateState
    fun honline => absurd honline hnever, hnextSound.needed, fun honline => ?_, fun hset => ?_⟩,
    fun _ => iff_of_true (patient_of_stopped hstopped) trivial⟩
  · rw [RemoteStore.disableNetwork, hnext]
    rfl
  · simp [RemoteStore.updateState] at honline
  · simp [RemoteStore.updateState] at hset

theorem Sound.keeps_restartNetwork (hsound : store.Sound) :
    Keeps True store store.restartNetwork := by
  unfold RemoteStore.restartNetwork
  by_cases hnetwork : store.isNetworkEnabled = true
  · rw [if_pos hnetwork]
    obtain ⟨off, hoff, hoffSound, -, hstopped⟩ := hsound.disableNetworkInternal
    -- without a stream there is nothing that an error could have left behind
    have hinhibit : off.stream.inhibitBackoff = .ok { off.stream with state := .initial } := by
      rw [WatchStream.inhibitBackoff, hardAssert_of hstopped]
      rfl
    have hinitial : ¬ ({ off.stream with state := .initial } : WatchStream τ).IsStarted := by
      simp [WatchStream.not_isStarted_iff]
    have hrestarted : Steady { off.updateState .unknown with
        stream := { off.stream with state := .initial } } := by
      have hstream := hoffSound.stream.inhibitBackoff hstopped
      refine ⟨hoffSound.tracker.updateState fun _ => by decide, hstream,
        fun hstarted => absurd hstarted hinitial, fun hset => ?_, hoffSound.watched,
        hoffSound.nodup⟩
      exact absurd (hoffSound.idle hset).2 fun hopen => hstopped hopen.isStarted
    obtain ⟨next, hnext, hnextSound, hpatient⟩ := hrestarted.enableNetwork hinitial
      (by simp [RemoteStore.updateState])
    refine hnextSound.keeps ?_ (fun _ => hpatient) trivial
    rw [hoff, ok_bind, hinhibit, ok_bind, hnext]
  · rw [if_neg hnetwork]
    exact hsound.keeps rfl (fun hpatient => hpatient) trivial

/-! ### The targets -/

/-- The store after a request has been written. -/
def withSaid (store : RemoteStore τ) (said : List (StreamEntry τ)) : RemoteStore τ :=
  { store with stream := { store.stream with idlenessTimer := false, grpcStream := some said } }

omit [DecidableEq τ] in
theorem sendWatchRequest_ok (store : RemoteStore τ) {said : List (StreamEntry τ)}
    (haggregator : store.aggregator = true) (hopen : store.stream.IsOpen)
    (hsaid : store.stream.grpcStream = some said) (target : τ) :
    store.sendWatchRequest target = .ok (store.withSaid (said ++ [.watch target])) := by
  simp only [sendWatchRequest, useAggregator, hardAssert_of haggregator, WatchStream.write,
    hardAssert_of hopen, WatchStream.cancelIdleCheck, hsaid, ok_bind]
  rfl

omit [DecidableEq τ] in
theorem sendUnwatchRequest_ok (store : RemoteStore τ) {said : List (StreamEntry τ)}
    (haggregator : store.aggregator = true) (hopen : store.stream.IsOpen)
    (hsaid : store.stream.grpcStream = some said) (target : τ) :
    store.sendUnwatchRequest target = .ok (store.withSaid (said ++ [.unwatch target])) := by
  simp only [sendUnwatchRequest, useAggregator, hardAssert_of haggregator, WatchStream.write,
    hardAssert_of hopen, WatchStream.cancelIdleCheck, hsaid, ok_bind]
  rfl

theorem Steady.exists_said (hsteady : store.Steady) (hopen : store.stream.IsOpen) :
    ∃ said, store.stream.grpcStream = some said :=
  Option.isSome_iff_exists.mp (hsteady.stream.grpcStream.mpr hopen)

/-- The targets can change while there is no stream they could be told to. -/
theorem Steady.withTargets (hsteady : store.Steady) (hclosed : ¬ store.stream.IsOpen)
    {targets : List τ} (hnodup : targets.Nodup) :
    Steady { store with listenTargets := targets } where
  tracker := hsteady.tracker
  stream := hsteady.stream
  started := hsteady.started
  idle hset := absurd (hsteady.idle hset).2 hclosed
  watched said hsaid := by
    have hnone := hsteady.stream.grpcStream_eq_none hclosed
    simp [hnone] at hsaid
  nodup := hnodup

/-- The targets can change together with what is said of them. -/
theorem Steady.withSaid (hsteady : store.Steady) (hopen : store.stream.IsOpen)
    {said : List (StreamEntry τ)} {targets : List τ} (hnodup : targets.Nodup)
    (hwatched : ∀ target, target ∈ watchedAfter said ↔ target ∈ targets) :
    Steady (({ store with listenTargets := targets } : RemoteStore τ).withSaid said) where
  tracker := hsteady.tracker
  stream := ⟨iff_of_true rfl hopen, hsteady.stream.backoffTimer, hsteady.stream.credentials,
    hsteady.stream.bounded, hsteady.stream.nodup, hsteady.stream.healthCheck⟩
  started := hsteady.started
  idle hset := by simp [RemoteStore.withSaid] at hset
  watched other hother := by
    obtain rfl : said = other := by simpa [RemoteStore.withSaid] using hother
    exact hwatched
  nodup := hnodup

theorem Sound.keeps_listen (hsound : store.Sound) (target : τ) :
    Keeps True store (store.listen target) := by
  unfold RemoteStore.listen
  by_cases hmem : target ∈ store.listenTargets
  · rw [if_pos hmem]
    exact hsound.keeps rfl (fun hpatient => hpatient) trivial
  rw [if_neg hmem]
  have hnodup : (store.listenTargets ++ [target]).Nodup :=
    List.nodup_append.mpr ⟨hsound.nodup, List.nodup_singleton target, by
      rintro other hother _ hsame rfl
      exact hmem (List.mem_singleton.mp hsame ▸ hother)⟩
  by_cases hopen : store.stream.IsOpen
  · have hshould : ¬ ShouldStartWatchStream
        { store with listenTargets := store.listenTargets ++ [target] } :=
      fun hshould => hshould.2.1 hopen.isStarted
    obtain ⟨said, hsaid⟩ := hsound.exists_said hopen
    simp only [if_neg hshould, if_pos hopen]
    refine ⟨_, sendWatchRequest_ok
      { store with listenTargets := store.listenTargets ++ [target] }
      (hsound.started hopen.isStarted).2 hopen hsaid target,
      Steady.sound (hsound.withSaid hopen hnodup fun other => ?_) hopen,
      fun hpatient => iff_of_true hpatient trivial⟩
    rw [watchedAfter_concat, watchedBy, List.mem_insert_iff, hsound.watched said hsaid,
      List.mem_append, List.mem_singleton, or_comm]
  · have hadded := hsound.withTargets hopen hnodup
    by_cases hshould : ShouldStartWatchStream
        { store with listenTargets := store.listenTargets ++ [target] }
    · obtain ⟨next, hnext, hnextSound, hpatient⟩ :=
        hadded.startWatchStream hshould (hsound.timer_off hshould.2.1)
      simp only [if_pos hshould]
      exact hnextSound.keeps hnext (fun _ => hpatient) trivial
    · simp only [if_neg hshould, if_neg hopen]
      have hkept : Sound { store with listenTargets := store.listenTargets ++ [target] } :=
        ⟨hadded, hshould, hsound.online, hsound.timed⟩
      exact hkept.keeps rfl (fun hpatient => hpatient) trivial

theorem Steady.markIdle (hsteady : store.Steady) (hopen : store.stream.IsOpen)
    (hempty : store.listenTargets = []) :
    Steady { store with stream := store.stream.markIdle } := by
  unfold WatchStream.markIdle
  split
  · exact ⟨hsteady.tracker, ⟨hsteady.stream.grpcStream, hsteady.stream.backoffTimer,
      hsteady.stream.credentials, hsteady.stream.bounded, hsteady.stream.nodup,
      hsteady.stream.healthCheck⟩, hsteady.started, fun _ => ⟨hempty, hopen⟩, hsteady.watched,
      hsteady.nodup⟩
  · exact hsteady

omit [DecidableEq τ] in
@[simp] theorem isOpen_markIdle {stream : WatchStream τ} :
    stream.markIdle.IsOpen ↔ stream.IsOpen := by
  unfold WatchStream.markIdle
  split <;> rfl

/-- The targets without one of them. -/
theorem mem_watchedAfter_unwatch {said : List (StreamEntry τ)} {targets : List τ}
    (hwatched : ∀ target, target ∈ watchedAfter said ↔ target ∈ targets) (hnodup : targets.Nodup)
    (removed target : τ) :
    target ∈ watchedBy (watchedAfter said) (.unwatch removed) ↔ target ∈ targets.erase removed := by
  rw [watchedBy, List.mem_filter, hwatched, hnodup.mem_erase_iff, decide_eq_true_eq, and_comm]

/-- What the store does when the last target has gone. -/
theorem Sound.keeps_stopListening (hsound : store.Sound) {target : τ}
    (hmem : target ∈ store.listenTargets) :
    Keeps (store.stream.IsOpen ∨ ¬ store.stream.IsStarted ∨ store.listenTargets.erase target ≠ [])
      store (store.stopListening target) := by
  have hnodup := hsound.nodup.erase target
  simp only [RemoteStore.stopListening, hardAssert_of hmem, ok_bind]
  -- an open stream is told, and idles once it has no targets; one that is not open has
  -- nothing to be told
  by_cases hopen : store.stream.IsOpen
  · obtain ⟨said, hsaid⟩ := hsound.exists_said hopen
    have hsend := sendUnwatchRequest_ok
      { store with listenTargets := store.listenTargets.erase target }
      (hsound.started hopen.isStarted).2 hopen hsaid target
    have hsteady := hsound.withSaid hopen hnodup fun other => by
      rw [watchedAfter_concat]
      exact mem_watchedAfter_unwatch (hsound.watched said hsaid) hsound.nodup target other
    simp only [if_pos hopen, hsend, ok_bind]
    split
    · rename_i hempty
      have hopen' : (({ store with
        listenTargets := store.listenTargets.erase target } : RemoteStore τ).withSaid
          (said ++ [.unwatch target])).stream.IsOpen := hopen
      rw [if_pos hopen']
      have hidle := Steady.sound (hsteady.markIdle hopen' (List.isEmpty_iff.mp hempty))
        (isOpen_markIdle.mpr hopen')
      exact hidle.keeps rfl (fun hpatient _ => hpatient hopen.isStarted) (.inl hopen)
    · exact (hsteady.sound hopen).keeps rfl (fun hpatient => hpatient) (.inl hopen)
  · have hsteady := hsound.withTargets hopen hnodup
    have hneeded : ¬ ShouldStartWatchStream
        { store with listenTargets := store.listenTargets.erase target } := by
      rintro ⟨hnetwork, hstopped, -⟩
      exact hsound.needed ⟨hnetwork, hstopped, List.ne_nil_of_mem hmem⟩
    have hnext : Sound { store with listenTargets := store.listenTargets.erase target } :=
      ⟨hsteady, hneeded, hsound.online, hsound.timed⟩
    simp only [if_neg hopen, List.isEmpty_iff]
    by_cases hempty : store.listenTargets.erase target = []
    · rw [if_pos hempty]
      by_cases hnetwork : store.isNetworkEnabled = true
      · rw [if_pos hnetwork]
        refine ⟨_, rfl, hsteady.updateState_unknown hneeded, fun _ => ?_⟩
        rw [patient_updateState_unknown]
        simp [hopen, hempty]
      · rw [if_neg hnetwork]
        have hstopped : ¬ store.stream.IsStarted :=
          fun hstarted => hnetwork (hsound.started hstarted).1
        exact hnext.keeps rfl (fun _ => patient_of_stopped hstopped) (.inr (.inl hstopped))
    · rw [if_neg hempty]
      exact hnext.keeps rfl (fun hpatient => hpatient) (.inr (.inr hempty))

/-! ### What comes back from the server -/

/-- An open stream on which something has arrived. -/
structure Connected (store : RemoteStore τ) : Prop extends store.Steady where
  isOpen : store.stream.IsOpen
  online : store.tracker.state = .online

theorem Connected.rejectTarget (hconnected : store.Connected) (target : τ) :
    ∃ next, store.rejectTarget target = .ok next ∧ next.Connected := by
  unfold RemoteStore.rejectTarget
  by_cases hmem : target ∈ store.listenTargets
  · have hopen := hconnected.isOpen
    obtain ⟨said, hsaid⟩ := hconnected.exists_said hopen
    have hidle : store.stream.idlenessTimer = false := by
      by_contra hset
      exact List.ne_nil_of_mem hmem (hconnected.idle (by simpa using hset)).1
    refine ⟨({ store with listenTargets := store.listenTargets.erase target } :
      RemoteStore τ).withSaid (said ++ [.rejected target]), ?_, ⟨?_, hopen, hconnected.online⟩⟩
    · simp only [if_pos hmem, useAggregator,
        hardAssert_of (hconnected.started hopen.isStarted).2, ok_bind, hsaid,
        RemoteStore.withSaid, ← hidle]
      rfl
    · refine hconnected.withSaid hopen (hconnected.nodup.erase target) fun other => ?_
      rw [watchedAfter_concat]
      exact mem_watchedAfter_unwatch (hconnected.watched said hsaid) hconnected.nodup target other
  · rw [if_neg hmem]
    exact ⟨store, rfl, hconnected⟩

theorem Connected.watchAgain (hconnected : store.Connected) (target : τ) :
    ∃ next, store.watchAgain target = .ok next ∧ next.Connected := by
  unfold RemoteStore.watchAgain
  by_cases hmem : target ∈ store.listenTargets
  · have hopen := hconnected.isOpen
    have haggregator := (hconnected.started hopen.isStarted).2
    obtain ⟨said, hsaid⟩ := hconnected.exists_said hopen
    refine ⟨store.withSaid (said ++ [.unwatch target] ++ [.watch target]), ?_,
      ⟨?_, hopen, hconnected.online⟩⟩
    · have hagain := sendWatchRequest_ok (store.withSaid (said ++ [.unwatch target])) haggregator
        hopen rfl target
      rw [if_pos hmem, sendUnwatchRequest_ok store haggregator hopen hsaid, ok_bind, hagain]
      rfl
    · refine hconnected.withSaid hopen hconnected.nodup fun other => ?_
      rw [watchedAfter_concat, watchedAfter_concat, watchedBy, List.mem_insert_iff,
        mem_watchedAfter_unwatch (hconnected.watched said hsaid) hconnected.nodup,
        hconnected.nodup.mem_erase_iff]
      by_cases hsame : other = target
      · simp [hsame, hmem]
      · simp [hsame]
  · rw [if_neg hmem]
    exact ⟨store, rfl, hconnected⟩

theorem Connected.sound (hconnected : store.Connected) : store.Sound :=
  Steady.sound hconnected.toSteady hconnected.isOpen

omit [DecidableEq τ] in
theorem patient_of_state (hstate : store.tracker.state ≠ .unknown) : store.Patient :=
  fun _ hunknown => absurd hunknown hstate

theorem Sound.keeps_onStreamRead (hsound : store.Sound)
    (hgrpc : store.stream.grpcStream.isSome = true) (response : WatchResponse τ) :
    Keeps True store (store.onStreamRead response) := by
  have hopen := hsound.stream.grpcStream.mp hgrpc
  have hconnected : (store.updateState .online).Connected :=
    ⟨hsound.toSteady.updateState fun _ => by decide, hopen, by simp [RemoteStore.updateState]⟩
  have hkeeps : ∀ next : RemoteStore τ, next.Connected →
      next.Sound ∧ (store.Patient → (next.Patient ↔ True)) := fun next hnext =>
    ⟨hnext.sound, fun _ => iff_of_true (patient_of_state (by simp [hnext.online])) trivial⟩
  simp only [RemoteStore.onStreamRead, hardAssert_of hopen.isStarted, ok_bind]
  cases response with
  | unparsable =>
      obtain ⟨hclosed, hstopped⟩ := hsound.closed false
      obtain ⟨next, hnext, hnextSound, hpatient⟩ := hclosed.close_error hstopped hopen.isStarted
      exact hnextSound.keeps hnext (fun _ => hpatient) trivial
  | targetError targets =>
      obtain ⟨next, hnext, hholds⟩ :=
        foldlM_ok (fun state target hstate => Connected.rejectTarget hstate target) hconnected
          targets
      exact ⟨next, hnext, hkeeps next hholds⟩
  | change mismatches =>
      obtain ⟨next, hnext, hholds⟩ :=
        foldlM_ok (fun state target hstate => Connected.watchAgain hstate target) hconnected
          mismatches
      simp only [useAggregator, hardAssert_of (hsound.started hopen.isStarted).2, ok_bind]
      exact ⟨next, hnext, hkeeps next hholds⟩

omit [DecidableEq τ] in
/-- The loop of `OnWatchStreamOpen`. -/
theorem sendWatchRequests_ok (targets : List τ) :
    ∀ (store : RemoteStore τ) (said : List (StreamEntry τ)), store.aggregator = true →
      store.stream.IsOpen → store.stream.grpcStream = some said →
      store.stream.idlenessTimer = false →
      targets.foldlM sendWatchRequest store =
        .ok (store.withSaid (said ++ targets.map .watch)) := by
  induction targets with
  | nil =>
      intro store said _ _ hsaid hidle
      have hsame : store.withSaid (said ++ [].map .watch) = store := by
        simp only [withSaid, List.map_nil, List.append_nil, ← hsaid, ← hidle]
      rw [List.foldlM_nil, hsame]
      rfl
  | cons target targets ih =>
      intro store said haggregator hopen hsaid _
      have hrest := ih (store.withSaid (said ++ [.watch target])) (said ++ [.watch target])
        haggregator hopen rfl rfl
      rw [List.foldlM_cons, sendWatchRequest_ok store haggregator hopen hsaid, ok_bind, hrest,
        List.append_assoc]
      rfl

theorem mem_watchedAfter_map_watch (targets : List τ) (target : τ) :
    target ∈ watchedAfter (targets.map .watch) ↔ target ∈ targets := by
  induction targets using List.reverseRecOn with
  | nil => simp [watchedAfter]
  | append_singleton targets last ih =>
      rw [List.map_append, List.map_singleton, watchedAfter_concat, watchedBy,
        List.mem_insert_iff, ih, List.mem_append, List.mem_singleton, or_comm]

omit [DecidableEq τ] in
/-- The stream is opened, and all targets are watched on it. -/
theorem onStreamStart_ok (store : RemoteStore τ) (haggregator : store.aggregator = true)
    (hgrpc : store.stream.grpcStream = some []) (hidle : store.stream.idlenessTimer = false) :
    store.onStreamStart = .ok { store with
      stream := { store.stream with
        state := .opened
        healthCheck := true
        idlenessTimer := false
        grpcStream := some (store.listenTargets.map .watch) } } := by
  have hopened := sendWatchRequests_ok store.listenTargets
    { store with stream := { store.stream with state := .opened } } [] haggregator (.inl rfl)
    hgrpc hidle
  rw [onStreamStart, onWatchStreamOpen, hopened]
  rfl

/-- With credentials, the stream is opened. -/
theorem Sound.credentials_ok (hsound : store.Sound) (hstarting : store.stream.state = .starting) :
    ∃ next, store.credentials store.stream.closeCount true = .ok next ∧ next.Sound ∧
      next.stream.IsOpen ∧ next.tracker = store.tracker ∧
      next.listenTargets = store.listenTargets := by
  have hstarted : store.stream.IsStarted := .inl hstarting
  have hclosed : ¬ store.stream.IsOpen := by simp [WatchStream.IsOpen, hstarting]
  have hidle : store.stream.idlenessTimer = false := by
    by_contra hset
    exact hclosed (hsound.idle (by simpa using hset)).2
  have hbackoff : store.stream.backoffTimer = false := by
    by_contra hset
    simp [hsound.stream.backoffTimer.mp (by simpa using hset)] at hstarting
  simp only [RemoteStore.credentials, if_neg (not_not_intro rfl : ¬ store.stream.closeCount ≠ _),
    resumeStartWithCredentials, hardAssert_of hstarting, ok_bind, if_true]
  refine ⟨_, onStreamStart_ok _ (hsound.started hstarted).2 rfl hidle,
    Steady.sound ⟨hsound.tracker, ?_, fun _ => hsound.started hstarted, ?_, ?_, hsound.nodup⟩
      (.inl rfl), .inl rfl, rfl, rfl⟩
  · refine ⟨iff_of_true rfl (.inl rfl), by simp [hbackoff], ?_,
      fun request hrequest => hsound.stream.bounded request (List.mem_of_mem_erase hrequest),
      hsound.stream.nodup.erase _, fun _ => .inl rfl⟩
    simp [hsound.stream.nodup.mem_erase_iff]
  · intro hset
    simp at hset
  · intro said hsaid target
    obtain rfl : store.listenTargets.map .watch = said := by simpa using hsaid
    exact mem_watchedAfter_map_watch store.listenTargets target

/-- Credentials of an earlier attempt change nothing. -/
theorem Sound.keeps_credentials (hsound : store.Sound) {request : ℕ}
    (hrequest : request ∈ store.stream.credentialRequests) (authorized : Bool) :
    Keeps True store (store.credentials request authorized) := by
  have hnodup := hsound.stream.nodup.erase request
  have hbounded : ∀ other ∈ store.stream.credentialRequests.erase request,
      other ≤ store.stream.closeCount :=
    fun other hother => hsound.stream.bounded other (List.mem_of_mem_erase hother)
  by_cases hlate : store.stream.closeCount ≠ request
  · simp only [RemoteStore.credentials, if_pos hlate]
    refine ⟨_, rfl, ⟨⟨hsound.tracker, ⟨hsound.stream.grpcStream, hsound.stream.backoffTimer, ?_,
      hbounded, hnodup, hsound.stream.healthCheck⟩, hsound.started, hsound.idle, hsound.watched,
      hsound.nodup⟩, hsound.needed, hsound.online, hsound.timed⟩,
      fun hpatient => iff_of_true hpatient trivial⟩
    rw [← hsound.stream.credentials, hsound.stream.nodup.mem_erase_iff, and_iff_right hlate]
  · obtain rfl := not_not.mp hlate
    have hstarting := hsound.stream.credentials.mp hrequest
    have hstarted : store.stream.IsStarted := .inl hstarting
    cases authorized with
    | false =>
        obtain ⟨hsteady, hstopped⟩ := @steady_closed _ _ { store with
          stream := { store.stream with
            credentialRequests := store.stream.credentialRequests.erase
              store.stream.closeCount } } hsound.tracker hbounded hnodup hsound.nodup false
        obtain ⟨next, hnext, hnextSound, hpatient⟩ := hsteady.close_error hstopped hstarted
        refine hnextSound.keeps ?_ (fun _ => hpatient) trivial
        simp only [RemoteStore.credentials, if_neg hlate, resumeStartWithCredentials,
          hardAssert_of hstarting, ok_bind]
        exact hnext
    | true =>
        obtain ⟨next, hnext, hnextSound, -, htracker, -⟩ := hsound.credentials_ok hstarting
        refine hnextSound.keeps hnext (fun hpatient _ hunknown => ?_) trivial
        rw [htracker] at hunknown ⊢
        exact hpatient hstarted hunknown

/-- An end without an error is fatal while there are targets. -/
theorem Sound.keeps_close (hsound : store.Sound)
    (hgrpc : store.stream.grpcStream.isSome = true) {statusOk : Bool}
    (hneeded : ¬ (statusOk = true ∧ store.listenTargets ≠ [])) :
    Keeps True store (store.close statusOk) := by
  have hstarted := (hsound.stream.grpcStream.mp hgrpc).isStarted
  obtain ⟨hclosed, hstopped⟩ := hsound.closed statusOk
  cases statusOk with
  | false =>
      obtain ⟨next, hnext, hnextSound, hpatient⟩ := hclosed.close_error hstopped hstarted
      exact hnextSound.keeps hnext (fun _ => hpatient) trivial
  | true =>
      have hempty : store.listenTargets = [] := by simpa using hneeded
      obtain ⟨next, hnext, hnextSound, hnot, -⟩ :=
        hclosed.close_ok hstopped hstarted (.inr hempty)
      exact hnextSound.keeps hnext (fun _ => patient_of_stopped hnot) trivial

theorem Sound.close_needed (hsound : store.Sound)
    (hgrpc : store.stream.grpcStream.isSome = true) (htargets : store.listenTargets ≠ []) :
    store.close true = .error .stoppedWhileNeeded := by
  have hstarted := (hsound.stream.grpcStream.mp hgrpc).isStarted
  have hshould : ShouldStartWatchStream { store with stream := store.stream.closed true } :=
    ⟨(hsound.started hstarted).1, (hsound.closed true).2, htargets⟩
  have hclose : store.close true =
      onWatchStreamClose { store with stream := store.stream.closed true } true := by
    simp [close, hstarted]
  rw [hclose, onWatchStreamClose, hardAssert_of_not (fun hassert => hassert rfl hshould)]
  rfl

/-! ### Timers -/

/-- The stream asks for credentials again. -/
theorem Sound.backoffElapsed (hsound : store.Sound) (htimer : store.stream.backoffTimer = true) :
    ∃ next, store.step .backoffElapsed = .ok next ∧ next.Sound ∧
      next.stream.state = .starting ∧ next.tracker = store.tracker ∧
      next.listenTargets = store.listenTargets := by
  have hbackoff := hsound.stream.backoffTimer.mp htimer
  have hnotOpen : ¬ store.stream.IsOpen := by simp [WatchStream.IsOpen, hbackoff]
  obtain ⟨stream, hstream, hsoundStream, hstarting, hidle⟩ :=
    hsound.stream.backoffElapsed htimer
  have hclosed : ¬ stream.IsOpen := by simp [WatchStream.IsOpen, hstarting]
  refine ⟨{ store with stream := stream }, ?_, ⟨⟨hsound.tracker, hsoundStream,
    fun _ => hsound.started (.inr (.inl hbackoff)), fun hset => ?_, fun said hsaid => ?_,
    hsound.nodup⟩, fun hshould => hshould.2.1 (.inl hstarting),
    fun honline => absurd (hsound.online honline) hnotOpen, fun _ => .inl hstarting⟩,
    hstarting, rfl, rfl⟩
  · rw [step, hstream]
    rfl
  · exact absurd (hsound.idle (hidle ▸ hset)).2 hnotOpen
  · simp [hsoundStream.grpcStream_eq_none hclosed] at hsaid

theorem Sound.keeps_backoffElapsed (hsound : store.Sound)
    (htimer : store.stream.backoffTimer = true) :
    Keeps True store (store.step .backoffElapsed) := by
  have hstarted : store.stream.IsStarted := .inr (.inl (hsound.stream.backoffTimer.mp htimer))
  obtain ⟨next, hnext, hnextSound, -, htracker, -⟩ := hsound.backoffElapsed htimer
  refine hnextSound.keeps hnext (fun hpatient _ hunknown => ?_) trivial
  rw [htracker] at hunknown ⊢
  exact hpatient hstarted hunknown

/-- The stream is closed only if there was nothing to watch all the time. -/
theorem Sound.keeps_idleTimeout (hsound : store.Sound)
    (htimer : store.stream.idlenessTimer = true) :
    Keeps True store (store.step .idleTimeout) := by
  obtain ⟨hempty, hopen⟩ := hsound.idle htimer
  obtain ⟨hclosed, hstopped⟩ := @steady_closed _ _
    { store with stream := { store.stream with idlenessTimer := false } } hsound.tracker
    hsound.stream.bounded hsound.stream.nodup hsound.nodup true
  obtain ⟨next, hnext, hnextSound, hnot, -⟩ :=
    hclosed.close_ok hstopped hopen.isStarted (.inr hempty)
  exact hnextSound.keeps hnext (fun _ => patient_of_stopped hnot) trivial

theorem Sound.keeps_healthCheck (hsound : store.Sound)
    (htimer : store.stream.healthCheck = true) :
    Keeps True store (store.step .healthCheck) := by
  have hopen := hsound.stream.healthCheck htimer
  have hhealthy : store.stream.healthCheckElapsed =
      { store.stream with healthCheck := false, state := .healthy } :=
    if_pos hopen
  have hopen' : store.stream.healthCheckElapsed.IsOpen := by
    rw [hhealthy]
    exact .inr rfl
  refine ⟨_, rfl, Steady.sound ⟨hsound.tracker, ?_, fun _ => hsound.started hopen.isStarted,
    fun hset => ⟨(hsound.idle ?_).1, hopen'⟩, fun said hsaid => hsound.watched said ?_,
    hsound.nodup⟩ hopen',
    fun hpatient => iff_of_true (fun _ => hpatient hopen.isStarted) trivial⟩
  · refine ⟨iff_of_true ?_ hopen', ?_, ?_, ?_, ?_, fun _ => hopen'⟩
    · rw [hhealthy]
      exact hsound.stream.grpcStream.mpr hopen
    · rw [hhealthy]
      rcases hopen with hstate | hstate <;> simp [hsound.stream.backoffTimer, hstate]
    · rw [hhealthy]
      rcases hopen with hstate | hstate <;> simp [hsound.stream.credentials, hstate]
    · rw [hhealthy]
      exact hsound.stream.bounded
    · rw [hhealthy]
      exact hsound.stream.nodup
  · rwa [hhealthy] at hset
  · rwa [hhealthy] at hsaid

theorem Sound.keeps_onlineStateTimeout (hsound : store.Sound)
    (htimer : store.tracker.onlineStateTimer = true) :
    Keeps True store (store.step .onlineStateTimeout) := by
  obtain ⟨tracker, htracker, hsoundTracker, hoffline, hoff⟩ :=
    hsound.tracker.onlineStateTimeout htimer
  refine ⟨{ store with tracker := tracker }, ?_, ⟨⟨hsoundTracker, hsound.stream, hsound.started,
    hsound.idle, hsound.watched, hsound.nodup⟩, hsound.needed, fun honline => ?_,
    fun hset => ?_⟩, fun _ => iff_of_true (patient_of_state (by simp [hoffline])) trivial⟩
  · rw [step, htracker]
    rfl
  · simp [hoffline] at honline
  · simp [hoff] at hset

/-! ### One event -/

/-- A target is given up that is not listened to, or the server ends a stream without an
error although there are targets. -/
def Fails (store : RemoteStore τ) : WatchEvent τ → Prop
  | .stopListening target => target ∉ store.listenTargets
  | .streamFinish statusOk => statusOk = true ∧ store.listenTargets ≠ []
  | .enableNetwork | .disableNetwork | .restartNetwork | .listen _ | .credentials _ _
  | .streamRead _ | .backoffElapsed | .idleTimeout | .healthCheck | .onlineStateTimeout => False

/-- The network is not enabled while a stream is started, and the last target is not given
up while the stream is being opened. -/
def KeepsTimer (store : RemoteStore τ) : WatchEvent τ → Prop
  | .enableNetwork => ¬ store.stream.IsStarted
  | .stopListening target =>
      store.stream.IsOpen ∨ ¬ store.stream.IsStarted ∨ store.listenTargets.erase target ≠ []
  | .disableNetwork | .restartNetwork | .listen _ | .credentials _ _ | .streamRead _
  | .streamFinish _ | .backoffElapsed | .idleTimeout | .healthCheck | .onlineStateTimeout => True

theorem Sound.step_keeps (hsound : store.Sound) {event : WatchEvent τ}
    (hpossible : store.Possible event) (hfails : ¬ store.Fails event) :
    Keeps (store.KeepsTimer event) store (store.step event) := by
  cases event with
  | enableNetwork => exact hsound.keeps_enableNetwork
  | disableNetwork => exact hsound.keeps_disableNetwork
  | restartNetwork => exact hsound.keeps_restartNetwork
  | listen target => exact hsound.keeps_listen target
  | stopListening target => exact hsound.keeps_stopListening (not_not.mp hfails)
  | credentials request authorized => exact hsound.keeps_credentials hpossible authorized
  | streamRead response => exact hsound.keeps_onStreamRead hpossible response
  | streamFinish statusOk => exact hsound.keeps_close hpossible hfails
  | backoffElapsed => exact hsound.keeps_backoffElapsed hpossible
  | idleTimeout => exact hsound.keeps_idleTimeout hpossible
  | healthCheck => exact hsound.keeps_healthCheck hpossible
  | onlineStateTimeout => exact hsound.keeps_onlineStateTimeout hpossible

theorem Sound.step_fails (hsound : store.Sound) {event : WatchEvent τ}
    (hpossible : store.Possible event) (hfails : store.Fails event) :
    ∃ fatal, store.step event = .error fatal := by
  cases event with
  | stopListening target =>
      refine ⟨.targetNotWatched, ?_⟩
      simp only [step, stopListening, hardAssert_of_not (show ¬ target ∈ _ from hfails),
        error_bind]
  | streamFinish statusOk =>
      obtain ⟨rfl, htargets⟩ := hfails
      exact ⟨_, hsound.close_needed hpossible htargets⟩
  | enableNetwork | disableNetwork | restartNetwork | listen | credentials | streamRead
  | backoffElapsed | idleTimeout | healthCheck | onlineStateTimeout => exact hfails.elim

/-- At the start nothing is listened to. -/
theorem sound_start : ({} : RemoteStore τ).Sound where
  tracker := ⟨fun hset => by simp at hset, fun hne => by simp at hne,
    ⟨rfl, List.isChain_singleton _⟩⟩
  stream := ⟨by simp [WatchStream.IsOpen], by simp, by simp, by simp, List.nodup_nil, by simp⟩
  started hstarted := by simp [WatchStream.IsStarted, WatchStream.IsOpen] at hstarted
  idle hset := by simp at hset
  watched said hsaid := by simp at hsaid
  nodup := List.nodup_nil
  needed hshould := hshould.2.2 rfl
  online honline := by simp at honline
  timed hset := by simp at hset

end RemoteStore

end Pompom.Firestore
