import Pompom.Firestore.QueryListener

/-!
# Reading a query once

`getDocuments` listens to the query with all metadata and takes the first event
(`ListenOnce` in `api/query_core.cc`).  It waits for the server unless the client
is offline.  Over whole runs:

* a read is kept waiting only while the view is not in sync and the client is not
  offline (`getDocuments_pending`);
* while the client was never offline, the answer comes from the server: it is the
  view as it is, and the server has sent every document of it unless it has local
  changes (`getDocuments_answer`).
-/

namespace Pompom.Firestore

open Lib

variable {α ι κ : Type*} [LinearOrder ι] [LinearOrder κ] {K : Keying α ι κ}

/-- Where `getDocuments` may read, apart from reads of the cache alone, which do not
listen. -/
inductive Source where
  | default
  | server
  deriving DecidableEq, Repr

/-- What a read passes on of an event. -/
def ListenOnce.onEvent (source : Source) (snapshot : ViewSnapshot K) :
    Except String (ViewSnapshot K) :=
  if snapshot.fromCache && source = .server then
    .error ("Failed to get documents from server. (However, these documents may exist in the " ++
      "local cache. Run again without setting source to FirestoreSourceServer to retrieve the " ++
      "cached documents.)")
  else .ok snapshot

/-- The answer to a read, given the events of its listener. -/
def getDocuments (source : Source) (events : List (ViewSnapshot K)) :
    Option (Except String (ViewSnapshot K)) :=
  events.head?.map (ListenOnce.onEvent source)

/-- A snapshot that shows the view as it is. -/
structure ViewSnapshot.Mirrors (snapshot : ViewSnapshot K) (view : View K) : Prop where
  documents : snapshot.documents = view.documentSet
  fromCache : snapshot.fromCache = false ↔ view.syncState = .synced

/-- The documents of a view in sync are known to the server or have local changes. -/
structure View.Known (view : View K) : Prop where
  computed : view.syncState ≠ .none
  synced : view.syncState = .synced → ∀ document ∈ view.documentSet.records,
    K.id document.value ∈ view.syncedDocuments ∨ document.hasLocalMutations

/-! ## One listener -/

namespace QueryListener

variable {connected : Prop} {onlineState : OnlineState} {view : View K}
  {listener next : QueryListener K} {snapshot : ViewSnapshot K}

/-- What is true of a listener from its creation on; `connected` says that the client
was never offline. -/
structure Ready (connected : Prop) (onlineState : OnlineState) (listener : QueryListener K) :
    Prop where
  online : listener.onlineState = onlineState
  events : listener.events = [] ↔ listener.raisedInitialEvent = false
  first : connected → listener.options.waitForSyncWhenOnline = true →
    ∀ event ∈ listener.events.head?, event.fromCache = false

/-- A listener that has seen the last snapshot of the view. -/
structure Attends (connected : Prop) (onlineState : OnlineState) (view : View K)
    (listener : QueryListener K) : Prop extends listener.Ready connected onlineState where
  snapshot : ∃ snapshot, listener.snapshot = some snapshot ∧ snapshot.Mirrors view ∧
    (listener.events = [] → listener.shouldRaiseInitialEvent snapshot onlineState = false)
  last : listener.options.includeQueryMetadataChanges = true →
    listener.options.includeDocumentMetadataChanges = true →
      ∀ event ∈ listener.events.getLast?, event.Mirrors view

omit [LinearOrder ι] in
/-- While the client is not offline, a listener that waits has its first event from
the server. -/
theorem fromCache_of_shouldRaiseInitialEvent (honline : onlineState ≠ .offline)
    (hwait : listener.options.waitForSyncWhenOnline = true)
    (hraise : listener.shouldRaiseInitialEvent snapshot onlineState = true) :
    snapshot.fromCache = false := by
  by_contra hcache
  simp [shouldRaiseInitialEvent, hcache, hwait, honline] at hraise

omit [LinearOrder ι] in
theorem ready_init (options : ListenOptions) (onlineState : OnlineState) :
    ((QueryListener.init options : QueryListener K).onOnlineStateChanged onlineState).Ready
      connected onlineState :=
  ⟨rfl, by simp [init, onOnlineStateChanged], by simp [init, onOnlineStateChanged]⟩

omit [LinearOrder ι] in
theorem withoutMetadataChanges_mirrors (hmirrors : snapshot.Mirrors view) :
    (listener.withoutMetadataChanges snapshot).Mirrors view := by
  unfold withoutMetadataChanges
  split
  · exact hmirrors
  · exact ⟨hmirrors.documents, hmirrors.fromCache⟩

omit [LinearOrder ι] in
theorem ready_raiseInitialEvent (honline : connected → onlineState ≠ .offline)
    (hstate : listener.onlineState = onlineState) (hevents : listener.events = [])
    (hraise : listener.shouldRaiseInitialEvent snapshot onlineState = true) :
    (listener.raiseInitialEvent snapshot).Ready connected onlineState := by
  refine ⟨hstate, by simp [raiseInitialEvent], fun hconnected hwait event hevent => ?_⟩
  simp only [raiseInitialEvent, hevents, List.nil_append, List.head?_cons, Option.mem_def,
    Option.some.injEq] at hevent
  rw [← hevent]
  exact fromCache_of_shouldRaiseInitialEvent (honline hconnected) hwait hraise

omit [LinearOrder ι] in
theorem mirrors_raiseInitialEvent (hmirrors : snapshot.Mirrors view) :
    ∀ event ∈ (listener.raiseInitialEvent snapshot).events.getLast?, event.Mirrors view := by
  intro event hevent
  simp only [raiseInitialEvent, List.getLast?_concat, Option.mem_def, Option.some.injEq] at hevent
  rw [← hevent]
  exact ⟨hmirrors.documents, hmirrors.fromCache⟩

/-- With all metadata, no snapshot of the view is left out. -/
theorem shouldRaiseEvent_of_metadata
    (hloud : ¬(snapshot.documentChanges.isEmpty && !snapshot.syncStateChanged) = true)
    (hquery : listener.options.includeQueryMetadataChanges = true)
    (hdocument : listener.options.includeDocumentMetadataChanges = true) :
    listener.shouldRaiseEvent (listener.withoutMetadataChanges snapshot) = true := by
  simp only [withoutMetadataChanges, hdocument, if_true, shouldRaiseEvent, hquery]
  cases hempty : snapshot.documentChanges.isEmpty with
  | false => rfl
  | true =>
      have hsync : snapshot.syncStateChanged = true := by simpa [hempty] using hloud
      simp [hsync]

/-- After a snapshot of the view, whether or not the user hears of it. -/
theorem attends_onViewSnapshot (honline : connected → onlineState ≠ .offline)
    (hready : listener.Ready connected onlineState) (hmirrors : snapshot.Mirrors view)
    (hnext : listener.onViewSnapshot snapshot = some next) :
    next.Attends connected onlineState view := by
  unfold onViewSnapshot at hnext
  rw [Option.ite_none_left_eq_some, Option.some.injEq] at hnext
  obtain ⟨hloud, rfl⟩ := hnext
  set shown := listener.withoutMetadataChanges snapshot
  have hmirrors : shown.Mirrors view := withoutMetadataChanges_mirrors hmirrors
  -- after the first event only changes are told, before it whether a first one is due
  cases hraised : listener.raisedInitialEvent with
  | true =>
      have hevents : listener.events ≠ [] := by simp [hready.events, hraised]
      cases hraise : listener.shouldRaiseEvent shown with
      | true =>
          have hstep : listener.raiseEvent shown =
              { listener with events := listener.events ++ [shown] } := by
            simp [raiseEvent, hraised, hraise]
          rw [hstep]
          refine ⟨⟨hready.online, by simp [hraised], fun hconnected hwait event hevent => ?_⟩,
            ⟨shown, rfl, hmirrors, by simp⟩, fun _ _ event hevent => ?_⟩
          · rw [List.head?_append_of_ne_nil _ hevents] at hevent
            exact hready.first hconnected hwait event hevent
          · obtain rfl : shown = event := by simpa using hevent
            exact hmirrors
      | false =>
          have hstep : listener.raiseEvent shown = listener := by simp [raiseEvent, hraised, hraise]
          rw [hstep]
          refine ⟨⟨hready.online, hready.events, hready.first⟩,
            ⟨shown, rfl, hmirrors, fun hnil => absurd hnil hevents⟩, fun hquery hdocument => ?_⟩
          have hmust : listener.shouldRaiseEvent shown = true :=
            shouldRaiseEvent_of_metadata hloud hquery hdocument
          rw [hraise] at hmust
          cases hmust
  | false =>
      have hevents : listener.events = [] := by simp [hready.events, hraised]
      cases hraise : listener.shouldRaiseInitialEvent shown onlineState with
      | true =>
          have hfirst := ready_raiseInitialEvent honline hready.online hevents hraise
          have hstep : listener.raiseEvent shown = listener.raiseInitialEvent shown := by
            simp [raiseEvent, hraised, hready.online, hraise]
          rw [hstep]
          exact ⟨⟨hfirst.online, hfirst.events, hfirst.first⟩,
            ⟨shown, rfl, hmirrors, by simp [raiseInitialEvent]⟩,
            fun _ _ => mirrors_raiseInitialEvent hmirrors⟩
      | false =>
          have hstep : listener.raiseEvent shown = listener := by
            simp [raiseEvent, hraised, hready.online, hraise]
          rw [hstep]
          exact ⟨⟨hready.online, hready.events, hready.first⟩,
            ⟨shown, rfl, hmirrors, fun _ => hraise⟩, by simp [hevents]⟩

omit [LinearOrder ι] in
theorem attends_onOnlineStateChanged {nextState : OnlineState}
    (honline : connected → nextState ≠ .offline)
    (hattends : listener.Attends connected onlineState view) :
    (listener.onOnlineStateChanged nextState).Attends connected nextState view := by
  obtain ⟨snapshot, hsnapshot, hmirrors, -⟩ := hattends.snapshot
  by_cases hraise : listener.raisedInitialEvent = false ∧
      listener.shouldRaiseInitialEvent snapshot nextState = true
  · obtain ⟨hraised, hraise⟩ := hraise
    have hevents : listener.events = [] := hattends.events.mpr hraised
    have hstep : listener.onOnlineStateChanged nextState =
        { listener with onlineState := nextState }.raiseInitialEvent snapshot := by
      simp only [onOnlineStateChanged, hsnapshot, hraised, Bool.not_false, Bool.true_and]
      exact if_pos hraise
    rw [hstep]
    have hfirst : Ready connected nextState
        ({ listener with onlineState := nextState }.raiseInitialEvent snapshot) :=
      ready_raiseInitialEvent honline rfl hevents hraise
    exact ⟨hfirst, ⟨snapshot, hsnapshot, hmirrors, by simp [raiseInitialEvent]⟩,
      fun _ _ => mirrors_raiseInitialEvent hmirrors⟩
  · have hstep : listener.onOnlineStateChanged nextState =
        { listener with onlineState := nextState } := by
      simp only [onOnlineStateChanged, hsnapshot]
      refine if_neg fun hboth => hraise ?_
      rw [Bool.and_eq_true, Bool.not_eq_true'] at hboth
      exact hboth
    rw [hstep]
    refine ⟨⟨rfl, hattends.events, hattends.first⟩, ⟨snapshot, hsnapshot, hmirrors, ?_⟩,
      hattends.last⟩
    intro hnil
    exact Bool.eq_false_iff.mpr (not_and.mp hraise (hattends.events.mp hnil))

end QueryListener

/-! ## Whole runs -/

theorem View.Applied.known {view next : View K} {docChanges : ViewDocumentChanges K}
    {snapshot : Option (ViewSnapshot K)} (happlied : view.Applied docChanges next snapshot) :
    next.Known :=
  ⟨happlied.changed, happlied.synced⟩

theorem View.Applied.mirrors {view next : View K} {docChanges : ViewDocumentChanges K}
    {snapshot : ViewSnapshot K} (happlied : view.Applied docChanges next (some snapshot)) :
    snapshot.Mirrors next := by
  obtain ⟨hdocuments, -, -, -, hcache, -⟩ := happlied.raised snapshot rfl
  exact ⟨hdocuments.trans happlied.documents.symm, hcache⟩

/-- A view that raised no snapshot is still shown by the last one. -/
theorem ViewSnapshot.Mirrors.of_quiet {view next : View K} {docChanges : ViewDocumentChanges K}
    {snapshot : ViewSnapshot K} (hmirrors : snapshot.Mirrors view)
    (hcomputed : view.Computed view.documentSet docChanges)
    (happlied : view.Applied docChanges next none) : snapshot.Mirrors next := by
  refine ⟨?_, ?_⟩
  · rw [happlied.documentSet_eq hcomputed]
    exact hmirrors.documents
  · rw [← (happlied.quiet rfl).2]
    exact hmirrors.fromCache

namespace QueryState

variable {connected : Prop} {query : Query α} {state next : QueryState K} {view : View K}
  {info : QueryListenersInfo K}

/-- All listeners have seen the last snapshot of the view. -/
structure ServesAll (connected : Prop) (onlineState : OnlineState) (view : View K)
    (info : QueryListenersInfo K) : Prop where
  known : view.Known
  snapshot : ∀ snapshot ∈ info.viewSnapshot, snapshot.Mirrors view
  listeners : ∀ listener ∈ info.listeners, listener.Attends connected onlineState view

/-- While there is a view, its listeners have seen its last snapshot. -/
structure Attended (connected : Prop) (state : QueryState K) : Prop where
  online : connected → state.onlineState ≠ .offline
  serves : ∀ info view, state.info = some info → state.view = some view →
    ServesAll connected state.onlineState view info

theorem servesAll_onViewSnapshot {onlineState : OnlineState} {snapshot : ViewSnapshot K}
    {nextInfo : QueryListenersInfo K} (honline : connected → onlineState ≠ .offline)
    (hready : ∀ listener ∈ info.listeners, listener.Ready connected onlineState)
    (hknown : view.Known) (hmirrors : snapshot.Mirrors view)
    (hnext : info.onViewSnapshot snapshot = some nextInfo) :
    ServesAll connected onlineState view nextInfo := by
  obtain ⟨listeners, hlisteners, rfl⟩ := Option.map_eq_some_iff.mp hnext
  refine ⟨hknown, fun other hother => ?_, fun listener hlistener => ?_⟩
  · rwa [← Option.some.inj hother]
  · obtain ⟨before, hbefore, hstep⟩ := mem_of_mapM hlisteners hlistener
    exact QueryListener.attends_onViewSnapshot honline (hready before hbefore) hmirrors hstep

/-- A change of the view reaches all listeners. -/
theorem attended_onViewChange {nextView : View K} {docChanges : ViewDocumentChanges K}
    {change : ViewChange K} (honline : connected → state.onlineState ≠ .offline)
    (hinfo : state.info = some info) (hserves : ServesAll connected state.onlineState view info)
    (hcomputed : view.Computed view.documentSet docChanges)
    (happlied : view.Applied docChanges nextView change.snapshot)
    (hnext : state.onViewChange nextView change = some next) : next.Attended connected := by
  unfold onViewChange at hnext
  cases hsnapshot : change.snapshot with
  | none =>
      simp only [hsnapshot, Option.some.injEq] at hnext
      subst hnext
      rw [hsnapshot] at happlied
      refine ⟨honline, fun other otherView hother hotherView => ?_⟩
      obtain rfl := Option.some.inj (hinfo.symm.trans hother)
      obtain rfl := Option.some.inj hotherView
      refine ⟨happlied.known, fun snapshot hlast => ?_, fun listener hlistener => ?_⟩
      · exact (hserves.snapshot snapshot hlast).of_quiet hcomputed happlied
      · have hattends := hserves.listeners listener hlistener
        obtain ⟨last, hlast, hmirrors, hwaits⟩ := hattends.snapshot
        refine ⟨hattends.toReady, ⟨last, hlast, hmirrors.of_quiet hcomputed happlied, hwaits⟩, ?_⟩
        intro hquery hdocument event hevent
        exact (hattends.last hquery hdocument event hevent).of_quiet hcomputed happlied
  | some snapshot =>
      simp only [hsnapshot, hinfo] at hnext
      obtain ⟨nextInfo, hnextInfo, rfl⟩ := Option.map_eq_some_iff.mp hnext
      rw [hsnapshot] at happlied
      refine ⟨honline, fun other otherView hother hotherView => ?_⟩
      obtain rfl := Option.some.inj hother
      obtain rfl := Option.some.inj hotherView
      exact servesAll_onViewSnapshot honline
        (fun listener hlistener => (hserves.listeners listener hlistener).toReady)
        happlied.known happlied.mirrors hnextInfo

omit [LinearOrder ι] in
theorem attended_setOnlineState {onlineState : OnlineState}
    (honline : connected → onlineState ≠ .offline) (hattended : state.Attended connected) :
    (state.setOnlineState onlineState).Attended connected := by
  refine ⟨honline, fun info view hinfo hview => ?_⟩
  obtain ⟨before, hbefore, rfl⟩ := Option.map_eq_some_iff.mp hinfo
  have hserves := hattended.serves before view hbefore hview
  refine ⟨hserves.known, hserves.snapshot, fun listener hlistener => ?_⟩
  obtain ⟨earlier, hearlier, rfl⟩ := List.mem_map.mp hlistener
  exact QueryListener.attends_onOnlineStateChanged honline (hserves.listeners earlier hearlier)

omit [LinearOrder ι] in
theorem attended_removeQueryListener (hattended : state.Attended connected) {index : ℕ}
    (hstep : state.removeQueryListener index = some next) : next.Attended connected := by
  rcases removeQueryListener_cases hstep with rfl | rfl | ⟨info, hinfo, rfl⟩
  · exact hattended
  · exact ⟨hattended.online, by simp⟩
  · refine ⟨hattended.online, fun other view hother hview => ?_⟩
    have hserves := hattended.serves info view hinfo hview
    obtain rfl := Option.some.inj hother
    refine ⟨hserves.known, hserves.snapshot, fun listener hlistener => ?_⟩
    exact hserves.listeners listener (List.mem_of_mem_eraseIdx hlistener)

variable [DecidableEq α]

theorem attended_addQueryListener (hvalid : state.Valid query)
    (hattended : state.Attended connected) {options : ListenOptions} {result : QueryResult K}
    {synced : Option Bool}
    (hstep : state.addQueryListener query options result synced = some next) :
    next.Attended connected := by
  obtain ⟨listener, hlistener, hstep⟩ := Option.bind_eq_some_iff.mp hstep
  have hready : ((QueryListener.init options : QueryListener K).onOnlineStateChanged
      state.onlineState).Ready connected state.onlineState :=
    QueryListener.ready_init options state.onlineState
  rcases hvalid.cases with ⟨hinfo, hview⟩ | ⟨info, view, hinfo, hview, hserves⟩
  · -- the first listener: the view is new
    simp only [hinfo, Option.getD_none, Option.some.injEq] at hlistener
    simp only [hinfo, hview, listen, Option.isNone_none, if_true, Option.isSome_none,
      Bool.false_eq_true, if_false] at hstep
    obtain ⟨⟨nextView, snapshot⟩, hinit, hstep⟩ := Option.bind_eq_some_iff.mp hstep
    obtain ⟨nextInfo, hnextInfo, rfl⟩ := Option.map_eq_some_iff.mp hstep
    obtain ⟨docChanges, -, hinit⟩ := Option.bind_eq_some_iff.mp hinit
    obtain ⟨⟨applied, change⟩, happly, hinit⟩ := Option.bind_eq_some_iff.mp hinit
    obtain ⟨raised, hraised, hpair⟩ := Option.map_eq_some_iff.mp hinit
    obtain ⟨rfl, rfl⟩ := Prod.mk.inj hpair
    have happlied := (View.applied_of_applyChanges happly).1
    rw [hraised] at happlied
    refine ⟨hattended.online, fun other otherView hother hotherView => ?_⟩
    obtain rfl := Option.some.inj hother
    obtain rfl := Option.some.inj hotherView
    refine servesAll_onViewSnapshot hattended.online (fun member hmember => ?_) happlied.known
      happlied.mirrors hnextInfo
    rw [List.mem_singleton.mp hmember, ← hlistener]
    exact hready
  · -- a later listener starts from the last snapshot
    have hall := hattended.serves info view hinfo hview
    obtain ⟨snapshot, hlast, -⟩ := hserves.snapshot
    simp only [hinfo, Option.getD_some, hlast] at hlistener
    simp only [hinfo, Option.isNone_some, Bool.false_eq_true, if_false, Option.some.injEq,
      Option.getD_some] at hstep
    subst hstep
    refine ⟨hattended.online, fun other otherView hother hotherView => ?_⟩
    obtain rfl := Option.some.inj hother
    obtain rfl := Option.some.inj (hview.symm.trans hotherView)
    refine ⟨hall.known, hall.snapshot, fun member hmember => ?_⟩
    rcases List.mem_append.mp hmember with hmember | hmember
    · exact hall.listeners member hmember
    · rw [List.mem_singleton.mp hmember]
      exact QueryListener.attends_onViewSnapshot hattended.online hready
        (hall.snapshot snapshot hlast) hlistener

theorem attended_emitNewSnapshots (hvalid : state.Valid query)
    (hattended : state.Attended connected) {changes : DocumentMap K} {refill : QueryResult K}
    {targetChange : Option (TargetChange ι)}
    (hstep : state.emitNewSnapshots changes refill targetChange = some next) :
    next.Attended connected := by
  unfold emitNewSnapshots at hstep
  rcases hvalid.cases with ⟨-, hview⟩ | ⟨info, view, hinfo, hview, -⟩
  · simp only [hview, Option.some.injEq] at hstep
    rwa [← hstep]
  · simp only [hview] at hstep
    obtain ⟨docChanges, hcompute, hstep⟩ := Option.bind_eq_some_iff.mp hstep
    obtain ⟨⟨nextView, change⟩, happly, hstep⟩ := Option.bind_eq_some_iff.mp hstep
    exact attended_onViewChange hattended.online hinfo (hattended.serves info view hinfo hview)
      (computed_of_computeWithRefill hcompute) (View.applied_of_applyChanges happly).1 hstep

theorem attended_handleOnlineStateChange (hvalid : state.Valid query)
    (hattended : state.Attended connected) {onlineState : OnlineState}
    (honline : connected → onlineState ≠ .offline)
    (hstep : state.handleOnlineStateChange onlineState = some next) : next.Attended connected := by
  unfold handleOnlineStateChange at hstep
  rcases hvalid.cases with ⟨-, hview⟩ | ⟨info, view, hinfo, hview, -⟩
  · simp only [hview, Option.some.injEq] at hstep
    rw [← hstep]
    exact attended_setOnlineState honline hattended
  · simp only [hview] at hstep
    obtain ⟨⟨nextView, change⟩, happly, hstep⟩ := Option.bind_eq_some_iff.mp hstep
    simp only [Option.ite_none_right_eq_some] at hstep
    obtain ⟨mid, hmid, rfl⟩ := Option.map_eq_some_iff.mp hstep.2
    refine attended_setOnlineState honline ?_
    have hall := hattended.serves info view hinfo hview
    unfold View.applyOnlineStateChange at happly
    split at happly
    · -- the view is the same but for its mark, and has no changes
      have hsame : ServesAll connected state.onlineState { view with current := false } info :=
        ⟨⟨hall.known.computed, hall.known.synced⟩,
          fun snapshot hlast => ⟨(hall.snapshot snapshot hlast).documents,
            (hall.snapshot snapshot hlast).fromCache⟩,
          fun listener hlistener => ?_⟩
      · exact attended_onViewChange hattended.online hinfo hsame
          ⟨DocumentViewChangeSet.describes_empty _, fun _ => rfl⟩
          (View.applied_of_applyChanges happly).1 hmid
      · obtain ⟨hready, ⟨last, hlast, hmirrors, hwaits⟩, hlastEvent⟩ :=
          hall.listeners listener hlistener
        exact ⟨hready, ⟨last, hlast, ⟨hmirrors.documents, hmirrors.fromCache⟩, hwaits⟩,
          fun hquery hdocument event hevent =>
            ⟨(hlastEvent hquery hdocument event hevent).documents,
              (hlastEvent hquery hdocument event hevent).fromCache⟩⟩
    · obtain ⟨rfl, rfl⟩ := Prod.mk.inj (Option.some.inj happly)
      simp only [onViewChange, Option.some.injEq, ← hview] at hmid
      rwa [← hmid]

/-- The client is not told that it is offline. -/
def Connected (_ : QueryState K) (event : QueryEvent K) : Prop :=
  match event with
  | .handleOnlineStateChange onlineState => onlineState ≠ .offline
  | _ => True

instance (state : QueryState K) (event : QueryEvent K) : Decidable (state.Connected event) :=
  match event with
  | .handleOnlineStateChange onlineState => inferInstanceAs (Decidable (onlineState ≠ .offline))
  | .addQueryListener _ _ _ => .isTrue trivial
  | .removeQueryListener _ => .isTrue trivial
  | .emitNewSnapshots _ _ _ => .isTrue trivial
  | .onError => .isTrue trivial

theorem step_attended (hvalid : state.Valid query) (hattended : state.Attended connected)
    {event : QueryEvent K} (honline : connected → state.Connected event)
    (hstep : step query state event = some next) : next.Attended connected := by
  cases event with
  | addQueryListener options result synced =>
      exact attended_addQueryListener hvalid hattended hstep
  | removeQueryListener index =>
      exact attended_removeQueryListener hattended hstep
  | emitNewSnapshots changes refill targetChange =>
      exact attended_emitNewSnapshots hvalid hattended hstep
  | handleOnlineStateChange onlineState =>
      exact attended_handleOnlineStateChange hvalid hattended honline hstep
  | onError =>
      rw [← Option.some.inj hstep]
      exact ⟨hattended.online, by simp⟩

theorem reaches_attended {allowed : QueryState K → QueryEvent K → Prop}
    (hallowed : connected → ∀ state event, allowed state event → state.Connected event)
    (hreach : Reaches (step query) allowed init state) : state.Attended connected := by
  have hstart : (init : QueryState K).Valid query ∧ (init : QueryState K).Attended connected :=
    ⟨trivial, by simp [init], by simp [init]⟩
  have hboth : state.Valid query ∧ state.Attended connected := by
    refine hreach.invariant (P := fun state => state.Valid query ∧ state.Attended connected)
      hstart ?_
    rintro before event after ⟨hvalid, hattended⟩ hevent hstep
    exact ⟨step_valid hvalid hstep, step_attended hvalid hattended
      (fun hconnected => hallowed hconnected before event hevent) hstep⟩
  exact hboth.2

variable {listener : QueryListener K}

/-- A listener has its first event as soon as the view is in sync or the client is
offline, and as soon as there is a document unless it waits for the sync. -/
theorem waiting_of_reaches {allowed : QueryState K → QueryEvent K → Prop}
    (hreach : Reaches (step query) allowed init state) (hinfo : state.info = some info)
    (hview : state.view = some view) (hlistener : listener ∈ info.listeners)
    (hevents : listener.events = []) :
    view.syncState = .cached ∧ state.onlineState ≠ .offline ∧
      (listener.options.waitForSyncWhenOnline = true ∨ view.documentSet.records = []) := by
  have hattended : state.Attended False := reaches_attended False.elim hreach
  have hserves := hattended.serves info view hinfo hview
  obtain ⟨snapshot, -, hmirrors, hwaits⟩ := (hserves.listeners listener hlistener).snapshot
  have hquiet := hwaits hevents
  have hcache : snapshot.fromCache = true := by
    by_contra hserver
    simp [QueryListener.shouldRaiseInitialEvent, hserver] at hquiet
  have honline : state.onlineState ≠ .offline := fun hoffline => by
    simp [QueryListener.shouldRaiseInitialEvent, hcache, hoffline] at hquiet
  refine ⟨?_, honline, ?_⟩
  · have hsynced : view.syncState ≠ .synced := fun hsynced => by
      simp [hmirrors.fromCache.mpr hsynced] at hcache
    cases hstate : view.syncState with
    | none => exact absurd hstate hserves.known.computed
    | cached => rfl
    | synced => exact absurd hstate hsynced
  · cases hwait : listener.options.waitForSyncWhenOnline with
    | true => exact .inl rfl
    | false =>
        rw [← hmirrors.documents]
        simpa [QueryListener.shouldRaiseInitialEvent, hcache, hwait, honline] using hquiet

/-- In every run, a read is kept waiting only while the view is not in sync and the
client is not offline, and a listener only while the view is empty as well. -/
theorem getDocuments_pending {allowed : QueryState K → QueryEvent K → Prop}
    (hreach : Reaches (step query) allowed init state) (hinfo : state.info = some info)
    (hview : state.view = some view) (hlistener : listener ∈ info.listeners) {source : Source}
    (hpending : getDocuments source listener.events = none) :
    view.syncState = .cached ∧ state.onlineState ≠ .offline ∧
      (listener.options.waitForSyncWhenOnline = true ∨ view.documentSet.records = []) :=
  waiting_of_reaches hreach hinfo hview hlistener (by simpa [getDocuments] using hpending)

/-- In every run in which the client was never offline, the answer to a read is the
view, with the server's documents and the own changes. -/
theorem getDocuments_answer (hreach : Reaches (step query) Connected init state)
    (hinfo : state.info = some info) (hview : state.view = some view)
    (hlistener : listener ∈ info.listeners) (hoptions : listener.options = .forGet)
    {event : ViewSnapshot K} (hevents : listener.events = [event]) (source : Source) :
    getDocuments source listener.events = some (.ok event) ∧
      event.documents = view.documentSet ∧
      ∀ document ∈ event.documents.records,
        K.id document.value ∈ view.syncedDocuments ∨ document.hasLocalMutations := by
  have hattended : state.Attended True := reaches_attended (fun _ _ _ hevent => hevent) hreach
  have hserves := hattended.serves info view hinfo hview
  have hattends := hserves.listeners listener hlistener
  have hcache : event.fromCache = false :=
    hattends.first trivial (by rw [hoptions]; rfl) event (by simp [hevents])
  have hmirrors : event.Mirrors view :=
    hattends.last (by rw [hoptions]; rfl) (by rw [hoptions]; rfl) event (by simp [hevents])
  refine ⟨by simp [getDocuments, ListenOnce.onEvent, hevents, hcache], hmirrors.documents, ?_⟩
  rw [hmirrors.documents]
  exact hserves.known.synced (hmirrors.fromCache.mp hcache)

end QueryState

/-! ### A read of two numbers -/

/-- The local store has one number, and a second is known to the server only. -/
def readPending : QueryEvent numberKeying :=
  .addQueryListener .forGet ⟨⟨[.found ⟨1, .synced⟩], by decide⟩, {1}⟩ none

/-- The server sends the second number while a third is written. -/
def readAnswered : QueryEvent numberKeying :=
  .emitNewSnapshots ⟨[.found ⟨2, .synced⟩, .found ⟨3, .hasLocalMutations⟩], by decide⟩
    ⟨⟨[], List.nodup_nil⟩, ∅⟩ (some ⟨{2}, ∅, ∅, true⟩)

theorem getDocuments_pending_numbers : ∃ (info : QueryListenersInfo numberKeying)
    (view : View numberKeying) (listener : QueryListener numberKeying),
      listener ∈ info.listeners ∧ getDocuments .default listener.events = none ∧
      view.syncState = .cached := by
  have hrun : ∃ state, Reaches (QueryState.step numberQuery) (fun _ _ => True) QueryState.init
      state ∧ state.view.isSome = true ∧
        (state.info.any fun info => info.listeners.any (·.events.isEmpty)) = true :=
    exists_reaches_of_run [readPending] (by decide)
  obtain ⟨state, hreach, hview, hinfo⟩ := hrun
  obtain ⟨view, hview⟩ := Option.isSome_iff_exists.mp hview
  obtain ⟨info, hinfo, hlisteners⟩ := (Option.any_eq_true _ _).mp hinfo
  obtain ⟨listener, hlistener, hevents⟩ := List.any_eq_true.mp hlisteners
  have hpending : getDocuments .default listener.events = none := by
    simp [getDocuments, List.isEmpty_iff.mp hevents]
  exact ⟨info, view, listener, hlistener, hpending,
    (QueryState.getDocuments_pending hreach hinfo hview hlistener hpending).1⟩

theorem getDocuments_answer_numbers : ∃ (view : View numberKeying)
    (listener : QueryListener numberKeying) (event : ViewSnapshot numberKeying),
      getDocuments .server listener.events = some (.ok event) ∧
      event.documents = view.documentSet ∧ values view.documentSet = [1, 2, 3] := by
  have hrun : ∃ state, Reaches (QueryState.step numberQuery) QueryState.Connected QueryState.init
      state ∧ (state.view.any fun view => values view.documentSet = [1, 2, 3]) = true ∧
        (state.info.any fun info => info.listeners.any fun listener =>
          decide (listener.options = .forGet) && decide (listener.events.length = 1)) = true :=
    exists_reaches_of_run [readPending, readAnswered] (by decide)
  obtain ⟨state, hreach, hview, hinfo⟩ := hrun
  obtain ⟨view, hview, hvalues⟩ := (Option.any_eq_true _ _).mp hview
  obtain ⟨info, hinfo, hlisteners⟩ := (Option.any_eq_true _ _).mp hinfo
  obtain ⟨listener, hlistener, htest⟩ := List.any_eq_true.mp hlisteners
  obtain ⟨hoptions, hlength⟩ := Bool.and_eq_true_iff.mp htest
  obtain ⟨event, hevents⟩ := List.length_eq_one_iff.mp (of_decide_eq_true hlength)
  obtain ⟨hanswer, hdocuments, -⟩ := QueryState.getDocuments_answer hreach hinfo hview hlistener
    (of_decide_eq_true hoptions) hevents .server
  exact ⟨view, listener, event, hanswer, hdocuments, by simpa using hvalues⟩

end Pompom.Firestore
