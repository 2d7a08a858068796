import Pompom.Firestore.WatchSteps

/-!
# Runs of the connection

From the start, in any order of calls and of what comes back, an event ends the process
only in the two ways of `RemoteStore.Fails` (`watch_fails_iff`).  In every state that is
reached, the server watches the targets that are listened to (`server_watches`), a
connection that is needed can be made (`connection_reachable`), and the states that have
been told are those of the stream (`online_state_told`).  As long as the events keep the
timer, no one waits for a silent server without it (`waiting_is_timed_iff`).
-/

namespace Pompom.Firestore

open Lib

namespace RemoteStore

variable {τ : Type} [DecidableEq τ] {store : RemoteStore τ}

/-- The state after an event, if the process goes on. -/
def next (store : RemoteStore τ) (event : WatchEvent τ) : Option (RemoteStore τ) :=
  (store.step event).toOption

instance (store : RemoteStore τ) : DecidablePred store.Possible := fun event =>
  match event with
  | .credentials _ _ => inferInstanceAs (Decidable (_ ∈ _))
  | .streamRead _ | .streamFinish _ | .backoffElapsed | .idleTimeout | .healthCheck
  | .onlineStateTimeout => inferInstanceAs (Decidable (_ = _))
  | .enableNetwork | .disableNetwork | .restartNetwork | .listen _ | .stopListening _ =>
      inferInstanceAs (Decidable True)

instance (store : RemoteStore τ) : DecidablePred store.Fails := fun event =>
  match event with
  | .stopListening _ => inferInstanceAs (Decidable (_ ∉ _))
  | .streamFinish _ => inferInstanceAs (Decidable (_ ∧ _))
  | .enableNetwork | .disableNetwork | .restartNetwork | .listen _ | .credentials _ _
  | .streamRead _ | .backoffElapsed | .idleTimeout | .healthCheck | .onlineStateTimeout =>
      inferInstanceAs (Decidable False)

instance (store : RemoteStore τ) : DecidablePred store.KeepsTimer := fun event =>
  match event with
  | .enableNetwork => inferInstanceAs (Decidable (¬ _))
  | .stopListening _ => inferInstanceAs (Decidable (_ ∨ _ ∨ _))
  | .disableNetwork | .restartNetwork | .listen _ | .credentials _ _ | .streamRead _
  | .streamFinish _ | .backoffElapsed | .idleTimeout | .healthCheck | .onlineStateTimeout =>
      inferInstanceAs (Decidable True)

theorem next_eq_some {event : WatchEvent τ} {after : RemoteStore τ} :
    store.next event = some after ↔ store.step event = .ok after := by
  unfold next
  cases store.step event <;> simp [Except.toOption]

/-- What an event of a run keeps. -/
theorem Sound.next_keeps (hsound : store.Sound) {event : WatchEvent τ} {after : RemoteStore τ}
    (hpossible : store.Possible event) (hnext : store.next event = some after) :
    after.Sound ∧ (store.Patient → (after.Patient ↔ store.KeepsTimer event)) := by
  have hstep := next_eq_some.mp hnext
  have hfails : ¬ store.Fails event := by
    intro hfails
    obtain ⟨fatal, hfatal⟩ := hsound.step_fails hpossible hfails
    simp [hfatal] at hstep
  obtain ⟨result, hresult, hkeeps⟩ := hsound.step_keeps hpossible hfails
  obtain rfl : result = after := by simpa [hresult] using hstep
  exact hkeeps

theorem sound_of_reaches (hreach : Reaches next Possible {} store) : store.Sound :=
  hreach.invariant sound_start fun _ _ _ hsound hpossible hnext =>
    (hsound.next_keeps hpossible hnext).1

/-- An event that can happen ends the process exactly if a target is given up that is not
listened to, or the server ends a stream without an error although there are targets. -/
theorem watch_fails_iff (hreach : Reaches next Possible {} store) {event : WatchEvent τ}
    (hpossible : store.Possible event) :
    (∃ fatal, store.step event = .error fatal) ↔ store.Fails event := by
  have hsound := sound_of_reaches hreach
  refine ⟨fun ⟨fatal, hfatal⟩ => ?_, hsound.step_fails hpossible⟩
  by_contra hfails
  obtain ⟨after, hafter, -⟩ := hsound.step_keeps hpossible hfails
  simp [hfatal] at hafter

/-- A server that ends an open stream without an error ends the process of a client with a
listener. -/
theorem watch_fails_iff_streamFinish : ∃ store : RemoteStore ℕ,
    Reaches next Possible {} store ∧ ∃ fatal, store.step (.streamFinish true) = .error fatal := by
  have hrun : ∃ store : RemoteStore ℕ, Reaches next Possible {} store ∧
      store.Possible (.streamFinish true) ∧ store.Fails (.streamFinish true) :=
    exists_reaches_of_run [.enableNetwork, .listen 1, .credentials 0 true] (by decide)
  obtain ⟨store, hreach, hpossible, hfails⟩ := hrun
  exact ⟨store, hreach, (watch_fails_iff hreach hpossible).mpr hfails⟩

/-- On the stream to the server exactly the targets are watched that are listened to, in
whatever order they have been added, given up, rejected or asked for again; and a stream is
there only while the network is enabled. -/
theorem server_watches (hreach : Reaches next Possible {} store) {said : List (StreamEntry τ)}
    (hsaid : store.stream.grpcStream = some said) :
    (∀ target, target ∈ watchedAfter said ↔ target ∈ store.listenTargets) ∧
      store.isNetworkEnabled = true := by
  have hsound := sound_of_reaches hreach
  have hopen : store.stream.IsOpen :=
    hsound.stream.grpcStream.mp (Option.isSome_iff_exists.mpr ⟨said, hsaid⟩)
  exact ⟨hsound.watched said hsaid, (hsound.started hopen.isStarted).1⟩

theorem server_watches_again : ∃ store : RemoteStore ℕ,
    store.stream.grpcStream =
      some [.watch 1, .watch 2, .unwatch 2, .watch 2, .rejected 1, .watch 3] ∧
      ∀ target, target ∈ watchedAfter
        [.watch 1, .watch 2, .unwatch 2, .watch 2, .rejected 1, .watch 3] ↔
          target ∈ store.listenTargets := by
  have hrun : ∃ store : RemoteStore ℕ, Reaches next Possible {} store ∧
      store.stream.grpcStream =
        some [.watch 1, .watch 2, .unwatch 2, .watch 2, .rejected 1, .watch 3] :=
    exists_reaches_of_run [.listen 1, .enableNetwork, .listen 2, .credentials 0 true,
      .streamRead (.change [2]), .streamRead (.targetError [1, 5]), .listen 3] (by decide)
  obtain ⟨store, hreach, hsaid⟩ := hrun
  exact ⟨store, hsaid, (server_watches hreach hsaid).1⟩

/-- The delay of the backoff ends, or credentials are granted. -/
def Connects (store : RemoteStore τ) : WatchEvent τ → Prop
  | .backoffElapsed => store.Possible .backoffElapsed
  | .credentials request true => store.Possible (.credentials request true)
  | .credentials _ false | .enableNetwork | .disableNetwork | .restartNetwork | .listen _
  | .stopListening _ | .streamRead _ | .streamFinish _ | .idleTimeout | .healthCheck
  | .onlineStateTimeout => False

/-- A connection that is needed is open, or two events away at most, which are the end of
the delay and credentials that are granted. -/
theorem connection_reachable (hreach : Reaches next Possible {} store)
    (hnetwork : store.isNetworkEnabled = true) (htargets : store.listenTargets ≠ []) :
    ∃ n ≤ 2, ∃ after, ReachesIn next Connects store n after ∧ after.stream.IsOpen ∧
      after.listenTargets = store.listenTargets := by
  have hsound := sound_of_reaches hreach
  -- from the wait for credentials it is one event
  have hopens : ∀ {state : RemoteStore τ} {n : ℕ}, ReachesIn next Connects store n state →
      state.Sound → state.stream.state = .starting →
      state.listenTargets = store.listenTargets →
      ∃ after, ReachesIn next Connects store (n + 1) after ∧ after.stream.IsOpen ∧
        after.listenTargets = store.listenTargets := by
    intro state n hrun hstate hstarting hsame
    obtain ⟨after, hafter, -, hopen, -, hkept⟩ := hstate.credentials_ok hstarting
    have hconnects : state.Connects (.credentials state.stream.closeCount true) :=
      hstate.stream.credentials.mpr hstarting
    exact ⟨after, hrun.tail hconnects (next_eq_some.mpr hafter), hopen, hkept.trans hsame⟩
  have hstarted : store.stream.IsStarted := by
    by_contra hstopped
    exact hsound.needed ⟨hnetwork, hstopped, htargets⟩
  rcases hstarted with hstarting | hbackoff | hopen
  · exact ⟨1, by decide, hopens .refl hsound hstarting rfl⟩
  · have htimer : store.Connects .backoffElapsed := hsound.stream.backoffTimer.mpr hbackoff
    obtain ⟨state, hstate, hstateSound, hstarting, -, hsame⟩ := hsound.backoffElapsed htimer
    exact ⟨2, le_rfl, hopens (.tail .refl htimer (next_eq_some.mpr hstate)) hstateSound
      hstarting hsame⟩
  · exact ⟨0, by decide, store, .refl, hopen, rfl⟩

theorem connection_reachable_failed : ∃ store : RemoteStore ℕ,
    store.stream.state = .backoff ∧
      ∃ n ≤ 2, ∃ after, ReachesIn next Connects store n after ∧ after.stream.IsOpen ∧
        after.listenTargets = store.listenTargets := by
  have hrun : ∃ store : RemoteStore ℕ, Reaches next Possible {} store ∧
      store.stream.state = .backoff ∧ store.isNetworkEnabled = true ∧
      store.listenTargets ≠ [] :=
    exists_reaches_of_run [.enableNetwork, .listen 1, .credentials 0 false] (by decide)
  obtain ⟨store, hreach, hbackoff, hnetwork, htargets⟩ := hrun
  exact ⟨store, hbackoff, connection_reachable hreach hnetwork htargets⟩

/-- What the tracker has told is the history of its state, which starts as unknown and is
unknown again between being online and being offline.  The client passes for online only
while the stream is open, and the timer runs only while a connection of which nothing is
known is attempted. -/
theorem online_state_told (hreach : Reaches next Possible {} store) :
    (.unknown :: store.tracker.broadcasts).getLast? = some store.tracker.state ∧
      (.unknown :: store.tracker.broadcasts).IsChain OnlineStateTracker.Follows ∧
      (store.tracker.state = .online → store.stream.IsOpen) ∧
      (store.tracker.onlineStateTimer = true →
        store.tracker.state = .unknown ∧ store.stream.IsStarted) := by
  have hsound := sound_of_reaches hreach
  exact ⟨hsound.tracker.told.last, hsound.tracker.told.changes, hsound.online,
    fun htimer => ⟨(hsound.tracker.timer htimer).1, hsound.timed htimer⟩⟩

theorem online_state_told_lost : ∃ store : RemoteStore ℕ,
    store.tracker.broadcasts = [.online, .unknown, .offline] ∧
      [.unknown, .online, .unknown, .offline].IsChain OnlineStateTracker.Follows := by
  have hrun : ∃ store : RemoteStore ℕ, Reaches next Possible {} store ∧
      store.tracker.broadcasts = [.online, .unknown, .offline] :=
    exists_reaches_of_run [.enableNetwork, .listen 1, .credentials 0 true,
      .streamRead (.change []), .streamFinish false, .onlineStateTimeout] (by decide)
  obtain ⟨store, hreach, htold⟩ := hrun
  exact ⟨store, htold, htold ▸ (online_state_told hreach).2.1⟩

theorem patient_of_reaches
    (hreach : Reaches next (fun store event => store.Possible event ∧ store.KeepsTimer event) {}
      store) : store.Sound ∧ store.Patient := by
  refine hreach.invariant (P := fun store => store.Sound ∧ store.Patient)
    ⟨sound_start, patient_of_stopped ?_⟩ ?_
  · simp [WatchStream.not_isStarted_iff]
  · rintro state event after ⟨hsound, hpatient⟩ ⟨hpossible, hkeeps⟩ hnext
    obtain ⟨hafter, hiff⟩ := hsound.next_keeps hpossible hnext
    exact ⟨hafter, (hiff hpatient).mpr hkeeps⟩

/-- In a run whose events keep the timer, the timer is running whenever a connection is
attempted of which nothing is known, and the next event leaves this so exactly if it keeps
the timer too. -/
theorem waiting_is_timed_iff
    (hreach : Reaches next (fun store event => store.Possible event ∧ store.KeepsTimer event) {}
      store) :
    store.Patient ∧ ∀ event after, store.Possible event → store.next event = some after →
      (after.Patient ↔ store.KeepsTimer event) := by
  obtain ⟨hsound, hpatient⟩ := patient_of_reaches hreach
  exact ⟨hpatient, fun event after hpossible hnext =>
    (hsound.next_keeps hpossible hnext).2 hpatient⟩

/-- Enabling the network a second time takes the timer away. -/
theorem waiting_is_timed_iff_enabledTwice : ∃ store after : RemoteStore ℕ,
    store.Patient ∧ store.next .enableNetwork = some after ∧ ¬ after.Patient := by
  have hrun : ∃ store : RemoteStore ℕ,
      Reaches next (fun store event => store.Possible event ∧ store.KeepsTimer event) {} store ∧
        store.stream.IsStarted ∧ (store.next .enableNetwork).isSome = true :=
    exists_reaches_of_run [.enableNetwork, .listen 1] (by decide)
  obtain ⟨store, hreach, hstarted, hsome⟩ := hrun
  obtain ⟨after, hafter⟩ := Option.isSome_iff_exists.mp hsome
  obtain ⟨hpatient, hiff⟩ := waiting_is_timed_iff hreach
  refine ⟨store, after, hpatient, hafter, fun hagain => ?_⟩
  exact (hiff .enableNetwork after trivial hafter).mp hagain hstarted

end RemoteStore

end Pompom.Firestore
