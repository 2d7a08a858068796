import Pompom.Firestore.View
import Pompom.Lib.Run

/-!
# Query listeners

The listeners of one query share a view.  The sync engine feeds the view with
updates of the local store and with changes of the connection, the event manager
passes every snapshot of the view on to the listeners, and a listener decides
whether its user hears of it (`core/query_listener.cc`, `core/event_manager.cc`,
`core/sync_engine.cc`).  A listener that was added later starts from the last
snapshot, the first event of every listener has all documents as additions, and
metadata changes are left out unless the listener asks for them.

`QueryState` is the part of the client that is about one query, and `step` runs
any of these operations; `none` is a failed assertion.
-/

namespace Pompom.Firestore

open Lib

structure ListenOptions where
  includeQueryMetadataChanges : Bool
  includeDocumentMetadataChanges : Bool
  waitForSyncWhenOnline : Bool
  deriving DecidableEq, Repr

namespace ListenOptions

/-- What `addSnapshotListener` listens with. -/
def fromIncludeMetadataChanges (includeMetadataChanges : Bool) : ListenOptions :=
  ⟨includeMetadataChanges, includeMetadataChanges, false⟩

/-- What `getDocuments` listens with. -/
def forGet : ListenOptions :=
  ⟨true, true, true⟩

end ListenOptions

variable {α ι κ : Type*} [LinearOrder ι] [LinearOrder κ]

/-- A listener, with the snapshots that its user was called with. -/
structure QueryListener (K : Keying α ι κ) where
  options : ListenOptions
  raisedInitialEvent : Bool
  onlineState : OnlineState
  snapshot : Option (ViewSnapshot K)
  events : List (ViewSnapshot K)

variable {K : Keying α ι κ}

namespace QueryListener

def init (options : ListenOptions) : QueryListener K :=
  ⟨options, false, .unknown, none, []⟩

def shouldRaiseInitialEvent (listener : QueryListener K) (snapshot : ViewSnapshot K)
    (onlineState : OnlineState) : Bool :=
  if !snapshot.fromCache then true
  else if listener.options.waitForSyncWhenOnline && decide (onlineState ≠ .offline) then false
  else !snapshot.documents.records.isEmpty || decide (onlineState = .offline)

def shouldRaiseEvent (listener : QueryListener K) (snapshot : ViewSnapshot K) : Bool :=
  if !snapshot.documentChanges.isEmpty then true
  else
    let hasPendingWritesChanged := listener.snapshot.any fun previous =>
      previous.hasPendingWrites != snapshot.hasPendingWrites
    if snapshot.syncStateChanged || hasPendingWritesChanged then
      listener.options.includeQueryMetadataChanges
    else false

def raiseInitialEvent (listener : QueryListener K) (snapshot : ViewSnapshot K) :
    QueryListener K :=
  { listener with
    raisedInitialEvent := true
    events := listener.events ++ [.fromInitialDocuments snapshot.documents snapshot.mutatedKeys
      snapshot.fromCache snapshot.excludesMetadataChanges] }

/-- Leaves the metadata changes out where the listener does not want them. -/
def withoutMetadataChanges (listener : QueryListener K) (snapshot : ViewSnapshot K) :
    ViewSnapshot K :=
  if listener.options.includeDocumentMetadataChanges then snapshot
  else
    { snapshot with
      documentChanges := snapshot.documentChanges.filter fun change => change.type ≠ .metadata
      excludesMetadataChanges := true }

/-- Passes a snapshot on to the user, as the first event or as a later one. -/
def raiseEvent (listener : QueryListener K) (snapshot : ViewSnapshot K) : QueryListener K :=
  if listener.raisedInitialEvent then
    if listener.shouldRaiseEvent snapshot then
      { listener with events := listener.events ++ [snapshot] }
    else listener
  else if listener.shouldRaiseInitialEvent snapshot listener.onlineState then
    listener.raiseInitialEvent snapshot
  else listener

def onViewSnapshot (listener : QueryListener K) (snapshot : ViewSnapshot K) :
    Option (QueryListener K) :=
  if snapshot.documentChanges.isEmpty && !snapshot.syncStateChanged then none
  else
    let snapshot := listener.withoutMetadataChanges snapshot
    some { listener.raiseEvent snapshot with snapshot := some snapshot }

def onOnlineStateChanged (listener : QueryListener K) (onlineState : OnlineState) :
    QueryListener K :=
  let listener := { listener with onlineState }
  match listener.snapshot with
  | none => listener
  | some snapshot =>
      if !listener.raisedInitialEvent && listener.shouldRaiseInitialEvent snapshot onlineState then
        listener.raiseInitialEvent snapshot
      else listener

end QueryListener

structure QueryListenersInfo (K : Keying α ι κ) where
  viewSnapshot : Option (ViewSnapshot K)
  listeners : List (QueryListener K)

/-- `EventManager::OnViewSnapshots` for one query. -/
def QueryListenersInfo.onViewSnapshot (info : QueryListenersInfo K) (snapshot : ViewSnapshot K) :
    Option (QueryListenersInfo K) :=
  (info.listeners.mapM (QueryListener.onViewSnapshot · snapshot)).map fun listeners =>
    ⟨some snapshot, listeners⟩

/-- The entries of the event manager and of the sync engine for one query. -/
structure QueryState (K : Keying α ι κ) where
  onlineState : OnlineState
  info : Option (QueryListenersInfo K)
  view : Option (View K)

/-- What the local store answers to a query. -/
structure QueryResult (K : Keying α ι κ) where
  documents : DocumentMap K
  remoteKeys : Finset ι

inductive QueryEvent (K : Keying α ι κ) where
  /-- The result and the sync state are those of the target, where the listener is
  the first. -/
  | addQueryListener (options : ListenOptions) (result : QueryResult K) (synced : Option Bool)
  | removeQueryListener (index : ℕ)
  /-- An update of the local store; the second result answers a refill. -/
  | emitNewSnapshots (changes : DocumentMap K) (refill : QueryResult K)
      (targetChange : Option (TargetChange ι))
  | handleOnlineStateChange (onlineState : OnlineState)
  | onError

namespace QueryState

def init : QueryState K := ⟨.unknown, none, none⟩

variable [DecidableEq α] (query : Query α)

/-- A new view with its first snapshot, which must be there. -/
def initializeViewAndComputeSnapshot (result : QueryResult K) (synced : Option Bool) :
    Option (View K × ViewSnapshot K) :=
  let view : View K := .init query result.remoteKeys
  let targetChange := synced.map fun current => ⟨∅, ∅, ∅, current⟩
  (view.computeDocumentChanges result.documents none).bind fun docChanges =>
    (view.applyChanges docChanges targetChange).bind fun (view, change) =>
      change.snapshot.map fun snapshot => (view, snapshot)

/-- `SyncEngine::Listen`, from the event manager's call to its callback. -/
def listen (state : QueryState K) (info : QueryListenersInfo K) (result : QueryResult K)
    (synced : Option Bool) : Option (QueryState K) :=
  if state.view.isSome then none
  else
    (initializeViewAndComputeSnapshot query result synced).bind fun (view, snapshot) =>
      (info.onViewSnapshot snapshot).map fun info =>
        { state with info := some info, view := some view }

def addQueryListener (state : QueryState K) (options : ListenOptions) (result : QueryResult K)
    (synced : Option Bool) : Option (QueryState K) :=
  let info := state.info.getD ⟨none, []⟩
  let listener := (QueryListener.init options).onOnlineStateChanged state.onlineState
  let listener := match info.viewSnapshot with
    | some snapshot => listener.onViewSnapshot snapshot
    | none => some listener
  listener.bind fun listener =>
    let info := { info with listeners := info.listeners ++ [listener] }
    if state.info.isNone then state.listen query info result synced
    else some { state with info := some info }

/-- `SyncEngine::StopListening`, which asserts that it has a view of the query. -/
def stopListening (state : QueryState K) : Option (QueryState K) :=
  if state.view.isNone then none else some { state with view := none }

/-- Removing the last listener stops listening to the query. -/
def removeQueryListener (state : QueryState K) (index : ℕ) : Option (QueryState K) :=
  match state.info with
  | none => some state
  | some info =>
      let info := { info with listeners := info.listeners.eraseIdx index }
      if info.listeners.isEmpty then { state with info := none }.stopListening
      else some { state with info := some info }

/-- Passes the snapshot of a view change on. -/
def onViewChange (state : QueryState K) (view : View K) (change : ViewChange K) :
    Option (QueryState K) :=
  let state := { state with view := some view }
  match change.snapshot, state.info with
  | some snapshot, some info =>
      (info.onViewSnapshot snapshot).map fun info => { state with info := some info }
  | _, _ => some state

/-- The changes of an update, after a second pass over the local store where the
first needs a refill. -/
def computeWithRefill (view : View K) (changes : DocumentMap K) (refill : QueryResult K) :
    Option (ViewDocumentChanges K) :=
  (view.computeDocumentChanges changes none).bind fun docChanges =>
    if docChanges.needsRefill then
      view.computeDocumentChanges refill.documents (some docChanges)
    else some docChanges

/-- `SyncEngine::EmitNewSnapshotsAndNotifyLocalStore` for one query. -/
def emitNewSnapshots (state : QueryState K) (changes : DocumentMap K) (refill : QueryResult K)
    (targetChange : Option (TargetChange ι)) : Option (QueryState K) :=
  match state.view with
  | none => some state
  | some view =>
      (computeWithRefill view changes refill).bind fun docChanges =>
        (view.applyChanges docChanges targetChange).bind fun (view, change) =>
          state.onViewChange view change

/-- `EventManager::HandleOnlineStateChange` for one query. -/
def setOnlineState (state : QueryState K) (onlineState : OnlineState) : QueryState K :=
  { state with
    onlineState
    info := state.info.map fun info =>
      { info with
        listeners := info.listeners.map (QueryListener.onOnlineStateChanged · onlineState) } }

/-- The sync engine's part first; the online state must not affect limbo
documents. -/
def handleOnlineStateChange (state : QueryState K) (onlineState : OnlineState) :
    Option (QueryState K) :=
  match state.view with
  | none => some (state.setOnlineState onlineState)
  | some view =>
      (view.applyOnlineStateChange onlineState).bind fun (view, change) =>
        if change.limboChanges = [] then
          (state.onViewChange view change).map (QueryState.setOnlineState · onlineState)
        else none

def step (state : QueryState K) : QueryEvent K → Option (QueryState K)
  | .addQueryListener options result synced => state.addQueryListener query options result synced
  | .removeQueryListener index => state.removeQueryListener index
  | .emitNewSnapshots changes refill targetChange =>
      state.emitNewSnapshots changes refill targetChange
  | .handleOnlineStateChange onlineState => state.handleOnlineStateChange onlineState
  | .onError => some { state with info := none, view := none }

end QueryState

/-! ## What a listener is told -/

/-- The events of a listener, each of which reports the step from the documents of
the event before it. -/
inductive Told : List (ViewSnapshot K) → List α → Prop
  | nil : Told [] []
  | snoc {events : List (ViewSnapshot K)} (snapshot : ViewSnapshot K)
      (htold : Told events (values snapshot.oldDocuments))
      (hreports : Reports snapshot.oldDocuments snapshot.documents snapshot.documentChanges) :
      Told (events ++ [snapshot]) (values snapshot.documents)

/-- A snapshot that says something, and reports what it says. -/
structure ViewSnapshot.Valid (snapshot : ViewSnapshot K) : Prop where
  loud : snapshot.documentChanges ≠ [] ∨ snapshot.syncStateChanged
  reports : Reports snapshot.oldDocuments snapshot.documents snapshot.documentChanges

theorem View.Applied.valid {view next : View K} {docChanges : ViewDocumentChanges K}
    {snapshot : ViewSnapshot K} (happlied : view.Applied docChanges next (some snapshot))
    (hcomputed : view.Computed view.documentSet docChanges) : snapshot.Valid := by
  obtain ⟨hdocuments, hold, hchanges, -, -, hloud⟩ := happlied.raised snapshot rfl
  refine ⟨hloud, ?_⟩
  rw [hdocuments, hold, hchanges]
  exact hcomputed.describes.reports

namespace QueryListener

variable {listener : QueryListener K} {snapshot : ViewSnapshot K} {documents : DocumentSet K}

/-- The listener before it has had its first event, or after it was told of the
documents. -/
structure Heard (listener : QueryListener K) (documents : DocumentSet K) : Prop where
  waiting : listener.raisedInitialEvent = false → listener.events = []
  told : listener.raisedInitialEvent = true → Told listener.events (values documents)

/-- The listener knows the last snapshot of the view. -/
structure Follows (listener : QueryListener K) (documents : DocumentSet K) : Prop
    extends listener.Heard documents where
  snapshot : ∃ snapshot, listener.snapshot = some snapshot ∧ snapshot.documents = documents

variable (listener) in
omit [LinearOrder ι] in
theorem withoutMetadataChanges_documents :
    (listener.withoutMetadataChanges snapshot).documents = snapshot.documents := by
  unfold withoutMetadataChanges
  split <;> rfl

variable (listener) in
omit [LinearOrder ι] in
theorem withoutMetadataChanges_oldDocuments :
    (listener.withoutMetadataChanges snapshot).oldDocuments = snapshot.oldDocuments := by
  unfold withoutMetadataChanges
  split <;> rfl

variable (listener) in
theorem withoutMetadataChanges_reports
    (hreports : Reports snapshot.oldDocuments snapshot.documents snapshot.documentChanges) :
    Reports snapshot.oldDocuments snapshot.documents
      (listener.withoutMetadataChanges snapshot).documentChanges := by
  unfold withoutMetadataChanges
  split
  · exact hreports
  · exact hreports.filter

variable (snapshot) in
theorem heard_raiseInitialEvent (hwaiting : listener.events = []) :
    (listener.raiseInitialEvent snapshot).Heard snapshot.documents := by
  refine ⟨by simp [raiseInitialEvent], fun _ => ?_⟩
  simp only [raiseInitialEvent, hwaiting]
  exact .snoc (.fromInitialDocuments snapshot.documents snapshot.mutatedKeys snapshot.fromCache
    snapshot.excludesMetadataChanges) .nil (reports_fromInitialDocuments snapshot.documents)

theorem heard_raiseEvent
    (hreports : Reports snapshot.oldDocuments snapshot.documents snapshot.documentChanges)
    (hheard : listener.Heard snapshot.oldDocuments) :
    (listener.raiseEvent snapshot).Heard snapshot.documents := by
  unfold raiseEvent
  cases hraised : listener.raisedInitialEvent with
  | true =>
      rw [if_pos rfl]
      split
      · exact ⟨by simp, fun _ => .snoc snapshot (hheard.told hraised) hreports⟩
      · -- an event that is not raised has no changes, so the values are the same
        rename_i hquiet
        have hempty : snapshot.documentChanges = [] := by
          by_contra hne
          exact hquiet (by simp [shouldRaiseEvent, hne])
        rw [hempty] at hreports
        refine ⟨by simp [hraised], fun _ => ?_⟩
        rw [← hreports.values_eq]
        exact hheard.told hraised
  | false =>
      rw [if_neg (by simp)]
      split
      · exact heard_raiseInitialEvent snapshot (hheard.waiting hraised)
      · exact ⟨hheard.waiting, by simp [hraised]⟩

/-- A listener that heard of the old documents accepts the snapshot and follows
it. -/
theorem exists_onViewSnapshot (hvalid : snapshot.Valid)
    (hheard : listener.Heard snapshot.oldDocuments) :
    ∃ next, listener.onViewSnapshot snapshot = some next ∧ next.Follows snapshot.documents := by
  have hloud : (snapshot.documentChanges.isEmpty && !snapshot.syncStateChanged) = false := by
    simpa [imp_iff_not_or] using hvalid.loud
  have hreports := withoutMetadataChanges_reports listener hvalid.reports
  rw [← withoutMetadataChanges_oldDocuments listener] at hheard hreports
  rw [← withoutMetadataChanges_documents listener] at hreports
  have hnext := heard_raiseEvent hreports hheard
  refine ⟨{ listener.raiseEvent (listener.withoutMetadataChanges snapshot) with
    snapshot := some (listener.withoutMetadataChanges snapshot) }, ?_, ⟨?_, ?_⟩, ?_⟩
  · simp [onViewSnapshot, hloud]
  · exact hnext.waiting
  · rw [← withoutMetadataChanges_documents listener]
    exact hnext.told
  · exact ⟨_, rfl, withoutMetadataChanges_documents listener⟩

theorem follows_onOnlineStateChanged (hfollows : listener.Follows documents)
    (onlineState : OnlineState) :
    (listener.onOnlineStateChanged onlineState).Follows documents := by
  obtain ⟨snapshot, hsnapshot, rfl⟩ := hfollows.snapshot
  unfold onOnlineStateChanged
  simp only [hsnapshot]
  split
  · rename_i hraise
    have hwaiting : listener.raisedInitialEvent = false := by
      simp only [Bool.and_eq_true, Bool.not_eq_true'] at hraise
      exact hraise.1
    have hheard := heard_raiseInitialEvent snapshot (hfollows.waiting hwaiting)
    exact ⟨⟨hheard.waiting, hheard.told⟩, snapshot, rfl, rfl⟩
  · exact ⟨⟨hfollows.waiting, hfollows.told⟩, snapshot, rfl, rfl⟩

end QueryListener

/-! ## Whole runs -/

theorem exists_mapM {β γ : Type*} {f : β → Option γ} {P : γ → Prop} {list : List β}
    (hf : ∀ element ∈ list, ∃ image, f element = some image ∧ P image) :
    ∃ images, list.mapM f = some images ∧ ∀ image ∈ images, P image := by
  induction list with
  | nil => exact ⟨[], rfl, by simp⟩
  | cons element rest ih =>
      obtain ⟨image, himage, hP⟩ := hf element List.mem_cons_self
      obtain ⟨images, himages, hPs⟩ :=
        ih fun other hother => hf other (List.mem_cons_of_mem _ hother)
      refine ⟨image :: images, by simp [List.mapM_cons, himage, himages], ?_⟩
      simpa using ⟨hP, hPs⟩

/-- All listeners accept a snapshot of the documents that follow those they heard
of. -/
theorem QueryListenersInfo.exists_onViewSnapshot (info : QueryListenersInfo K)
    {snapshot : ViewSnapshot K} (hvalid : snapshot.Valid)
    (hheard : ∀ listener ∈ info.listeners, listener.Heard snapshot.oldDocuments) :
    ∃ next, info.onViewSnapshot snapshot = some next ∧ next.viewSnapshot = some snapshot ∧
      ∀ listener ∈ next.listeners, listener.Follows snapshot.documents := by
  obtain ⟨listeners, hlisteners, hfollows⟩ := exists_mapM fun listener hlistener =>
    QueryListener.exists_onViewSnapshot hvalid (hheard listener hlistener)
  exact ⟨⟨some snapshot, listeners⟩, by simp [onViewSnapshot, hlisteners], rfl, hfollows⟩

namespace QueryState

/-- The listeners of a query follow its view. -/
structure Serves (query : Query α) (view : View K) (info : QueryListenersInfo K) : Prop where
  query : view.query = query
  snapshot : ∃ snapshot, info.viewSnapshot = some snapshot ∧ snapshot.Valid ∧
    snapshot.documents = view.documentSet
  listeners : ∀ listener ∈ info.listeners, listener.Follows view.documentSet

/-- There is a view exactly while there are listeners, and they follow it. -/
def Valid (query : Query α) (state : QueryState K) : Prop :=
  match state.info, state.view with
  | none, none => True
  | some info, some view => Serves query view info
  | _, _ => False

variable {query : Query α} {state next : QueryState K} {view : View K}
  {info : QueryListenersInfo K}

theorem Valid.cases (hvalid : state.Valid query) :
    (state.info = none ∧ state.view = none) ∨
      ∃ info view, state.info = some info ∧ state.view = some view ∧ Serves query view info := by
  unfold Valid at hvalid
  split at hvalid
  · exact .inl ⟨‹_›, ‹_›⟩
  · exact .inr ⟨_, _, ‹_›, ‹_›, hvalid⟩
  · exact hvalid.elim

theorem valid_of_serves (hinfo : state.info = some info) (hview : state.view = some view)
    (hserves : Serves query view info) : state.Valid query := by
  simp only [Valid, hinfo, hview]
  exact hserves

/-- A change of the view is passed on to the listeners. -/
theorem exists_onViewChange {nextView : View K} {docChanges : ViewDocumentChanges K}
    {change : ViewChange K} (hinfo : state.info = some info) (hserves : Serves query view info)
    (hcomputed : view.Computed view.documentSet docChanges)
    (happlied : view.Applied docChanges nextView change.snapshot) :
    ∃ next, state.onViewChange nextView change = some next ∧ next.Valid query := by
  have hquery : nextView.query = query := happlied.query.trans hserves.query
  cases hsnapshot : change.snapshot with
  | none =>
      rw [hsnapshot] at happlied
      have hsame := happlied.documentSet_eq hcomputed
      refine ⟨{ state with view := some nextView }, by simp [onViewChange, hsnapshot], ?_⟩
      refine valid_of_serves hinfo rfl ⟨hquery, ?_, ?_⟩
      · rw [hsame]
        exact hserves.snapshot
      · rw [hsame]
        exact hserves.listeners
  | some snapshot =>
      rw [hsnapshot] at happlied
      obtain ⟨hdocuments, hold, -⟩ := happlied.raised snapshot rfl
      have hvalid := happlied.valid hcomputed
      obtain ⟨nextInfo, hnextInfo, hlast, hlisteners⟩ :=
        info.exists_onViewSnapshot hvalid fun listener hlistener => by
          rw [hold]
          exact (hserves.listeners listener hlistener).toHeard
      rw [hdocuments, ← happlied.documents] at hlisteners
      refine ⟨{ state with view := some nextView, info := some nextInfo }, ?_, ?_⟩
      · simp [onViewChange, hsnapshot, hinfo, hnextInfo]
      · exact valid_of_serves rfl rfl ⟨hquery,
          ⟨snapshot, hlast, hvalid, hdocuments.trans happlied.documents.symm⟩, hlisteners⟩

theorem heard_init (options : ListenOptions) (onlineState : OnlineState)
    (documents : DocumentSet K) :
    ((QueryListener.init options).onOnlineStateChanged onlineState).Heard documents :=
  ⟨fun _ => rfl, fun hraised => absurd hraised (by simp [QueryListener.init,
    QueryListener.onOnlineStateChanged])⟩

omit [LinearOrder ι] in
/-- A removal without effect, of the last listener, or of one of several. -/
theorem removeQueryListener_cases {index : ℕ}
    (hstep : state.removeQueryListener index = some next) :
    next = state ∨ next = { state with info := none, view := none } ∨
      ∃ info, state.info = some info ∧
        next = { state with
          info := some { info with listeners := info.listeners.eraseIdx index } } := by
  unfold removeQueryListener at hstep
  split at hstep
  · exact .inl (Option.some.inj hstep).symm
  · rename_i info hinfo
    simp only [stopListening] at hstep
    split at hstep
    · rw [Option.ite_none_left_eq_some] at hstep
      exact .inr (.inl (Option.some.inj hstep.2).symm)
    · exact .inr (.inr ⟨info, hinfo, (Option.some.inj hstep).symm⟩)

/-- There is a view to stop listening to. -/
theorem exists_removeQueryListener (hvalid : state.Valid query) (index : ℕ) :
    ∃ next, state.removeQueryListener index = some next := by
  unfold removeQueryListener
  rcases hvalid.cases with ⟨hinfo, -⟩ | ⟨info, view, hinfo, hview, -⟩
  · simp only [hinfo]
    exact ⟨state, rfl⟩
  · simp only [hinfo, stopListening, hview, Option.isNone_some, Bool.false_eq_true, if_false]
    split <;> exact ⟨_, rfl⟩

theorem removeQueryListener_valid (hvalid : state.Valid query) {index : ℕ}
    (hstep : state.removeQueryListener index = some next) : next.Valid query := by
  rcases removeQueryListener_cases hstep with rfl | rfl | ⟨info, hinfo, rfl⟩
  · exact hvalid
  · trivial
  · rcases hvalid.cases with ⟨hnone, -⟩ | ⟨other, view, hother, hview, hserves⟩
    · simp [hnone] at hinfo
    obtain rfl := Option.some.inj (hother.symm.trans hinfo)
    refine valid_of_serves rfl hview ⟨hserves.query, hserves.snapshot, fun listener hmember => ?_⟩
    exact hserves.listeners listener (List.mem_of_mem_eraseIdx hmember)

theorem setOnlineState_valid (hvalid : state.Valid query) (onlineState : OnlineState) :
    (state.setOnlineState onlineState).Valid query := by
  rcases hvalid.cases with ⟨hinfo, hview⟩ | ⟨info, view, hinfo, hview, hserves⟩
  · simp [Valid, setOnlineState, hinfo, hview]
  · have hnext : (state.setOnlineState onlineState).info = some { info with
        listeners := info.listeners.map (QueryListener.onOnlineStateChanged · onlineState) } := by
      simp [setOnlineState, hinfo]
    refine valid_of_serves hnext hview ⟨hserves.query, hserves.snapshot, ?_⟩
    intro listener hlistener
    obtain ⟨before, hbefore, rfl⟩ := List.mem_map.mp hlistener
    exact QueryListener.follows_onOnlineStateChanged (hserves.listeners before hbefore) onlineState

variable [DecidableEq α]

theorem valid_of_firstView {result : QueryResult K} {synced : Option Bool}
    {snapshot : ViewSnapshot K}
    (hinit : initializeViewAndComputeSnapshot query result synced = some (view, snapshot)) :
    view.query = query ∧ snapshot.Valid ∧ snapshot.documents = view.documentSet ∧
      snapshot.oldDocuments = .empty := by
  obtain ⟨docChanges, hcompute, hinit⟩ := Option.bind_eq_some_iff.mp hinit
  obtain ⟨⟨nextView, change⟩, happly, hinit⟩ := Option.bind_eq_some_iff.mp hinit
  obtain ⟨raised, hraised, hpair⟩ := Option.map_eq_some_iff.mp hinit
  obtain ⟨rfl, rfl⟩ := Prod.mk.inj hpair
  have hcomputed := View.computed_of_computeDocumentChanges (by simp) hcompute
  have happlied := (View.applied_of_applyChanges happly).1
  rw [hraised] at happlied
  obtain ⟨hdocuments, hold, -⟩ := happlied.raised raised rfl
  exact ⟨happlied.query, happlied.valid hcomputed, hdocuments.trans happlied.documents.symm, hold⟩

theorem addQueryListener_valid (hvalid : state.Valid query) {options : ListenOptions}
    {result : QueryResult K} {synced : Option Bool}
    (hstep : state.addQueryListener query options result synced = some next) :
    next.Valid query := by
  obtain ⟨listener, hlistener, hstep⟩ := Option.bind_eq_some_iff.mp hstep
  rcases hvalid.cases with ⟨hinfo, hview⟩ | ⟨info, view, hinfo, hview, hserves⟩
  · -- the first listener: the view is new, and so is its snapshot
    simp only [hinfo, Option.getD_none, Option.some.injEq] at hlistener
    simp only [hinfo, hview, listen, Option.isNone_none, if_true, Option.isSome_none,
      Bool.false_eq_true, if_false] at hstep
    obtain ⟨⟨nextView, snapshot⟩, hinit, hstep⟩ := Option.bind_eq_some_iff.mp hstep
    obtain ⟨nextInfo, hnextInfo, rfl⟩ := Option.map_eq_some_iff.mp hstep
    obtain ⟨hquery, hsnapshot, hdocuments, hold⟩ := valid_of_firstView hinit
    obtain ⟨other, hother, hlast, hlisteners⟩ :=
      QueryListenersInfo.exists_onViewSnapshot ⟨none, [listener]⟩ hsnapshot
        fun member hmember => by
          rw [List.mem_singleton.mp hmember, ← hlistener]
          exact heard_init options state.onlineState _
    obtain rfl := Option.some.inj (hother.symm.trans hnextInfo)
    rw [hdocuments] at hlisteners
    exact valid_of_serves rfl rfl ⟨hquery, ⟨snapshot, hlast, hsnapshot, hdocuments⟩, hlisteners⟩
  · -- a later listener starts from the last snapshot
    obtain ⟨snapshot, hlast, hsnapshot, hdocuments⟩ := hserves.snapshot
    simp only [hinfo, Option.getD_some, hlast] at hlistener
    obtain ⟨other, hother, hfollows⟩ := QueryListener.exists_onViewSnapshot hsnapshot
      (heard_init options state.onlineState snapshot.oldDocuments)
    obtain rfl := Option.some.inj (hother.symm.trans hlistener)
    simp only [hinfo, Option.isNone_some, Bool.false_eq_true, if_false, Option.some.injEq,
      Option.getD_some] at hstep
    subst hstep
    refine valid_of_serves rfl hview ⟨hserves.query, ⟨snapshot, hlast, hsnapshot, hdocuments⟩, ?_⟩
    intro member hmember
    rcases List.mem_append.mp hmember with hmember | hmember
    · exact hserves.listeners member hmember
    · rw [List.mem_singleton.mp hmember, ← hdocuments]
      exact hfollows

theorem computed_of_computeWithRefill {changes : DocumentMap K} {refill : QueryResult K}
    {docChanges : ViewDocumentChanges K}
    (hcompute : computeWithRefill view changes refill = some docChanges) :
    view.Computed view.documentSet docChanges := by
  obtain ⟨first, hfirst, hrefill⟩ := Option.bind_eq_some_iff.mp hcompute
  have hpass := View.computed_of_computeDocumentChanges (by simp) hfirst
  split at hrefill
  · refine View.computed_of_computeDocumentChanges ?_ hrefill
    rintro previous heq
    rwa [← Option.some.inj heq]
  · rwa [← Option.some.inj hrefill]

/-- Without a limit there is no second pass. -/
theorem settles_of_computeWithRefill (hlimit : view.query.limitType = .none)
    {changes : DocumentMap K} {refill : QueryResult K} {docChanges : ViewDocumentChanges K}
    (hcompute : computeWithRefill view changes refill = some docChanges) :
    (∀ key ∉ changes.entries.map (MaybeDocument.key K),
      docChanges.documentSet.get key = view.documentSet.get key) ∧
    ∀ entry ∈ changes.entries, View.Settles (view.documentSet.get (entry.key K))
      (view.query.Matches entry) (docChanges.documentSet.get (entry.key K)) := by
  obtain ⟨first, hfirst, hrefill⟩ := Option.bind_eq_some_iff.mp hcompute
  have hneeds : first.needsRefill = false :=
    (View.computed_of_computeDocumentChanges (by simp) hfirst).refill hlimit
  rw [hneeds, if_neg (by simp)] at hrefill
  obtain rfl := Option.some.inj hrefill
  exact View.computeDocumentChanges_settles hlimit hfirst

theorem emitNewSnapshots_valid (hvalid : state.Valid query) {changes : DocumentMap K}
    {refill : QueryResult K} {targetChange : Option (TargetChange ι)}
    (hstep : state.emitNewSnapshots changes refill targetChange = some next) :
    next.Valid query := by
  unfold emitNewSnapshots at hstep
  rcases hvalid.cases with ⟨hinfo, hview⟩ | ⟨info, view, hinfo, hview, hserves⟩
  · simp only [hview, Option.some.injEq] at hstep
    rwa [← hstep]
  · simp only [hview] at hstep
    obtain ⟨docChanges, hcompute, hstep⟩ := Option.bind_eq_some_iff.mp hstep
    obtain ⟨⟨nextView, change⟩, happly, hstep⟩ := Option.bind_eq_some_iff.mp hstep
    obtain ⟨other, hother, hnext⟩ := exists_onViewChange hinfo hserves
      (computed_of_computeWithRefill hcompute) (View.applied_of_applyChanges happly).1
    rwa [← Option.some.inj (hother.symm.trans hstep)]

/-- Losing the connection is passed on like any change of the view. -/
theorem exists_handleOnlineStateChange (hvalid : state.Valid query) (onlineState : OnlineState) :
    ∃ next, state.handleOnlineStateChange onlineState = some next ∧ next.Valid query := by
  unfold handleOnlineStateChange
  rcases hvalid.cases with ⟨hinfo, hview⟩ | ⟨info, view, hinfo, hview, hserves⟩
  · exact ⟨_, by simp only [hview], setOnlineState_valid hvalid onlineState⟩
  · simp only [hview]
    by_cases hoffline : view.current ∧ onlineState = .offline
    · obtain ⟨nextView, change, happly⟩ : ∃ nextView change,
          View.applyChanges { view with current := false }
            ⟨view.documentSet, .empty, view.mutatedKeys, false⟩ none = some (nextView, change) :=
        View.exists_applyChanges rfl (by simp)
      have hlimbo : change.limboChanges = [] := View.limboChanges_eq_nil rfl happly
      have hserves' : Serves query { view with current := false } info :=
        ⟨hserves.query, hserves.snapshot, hserves.listeners⟩
      obtain ⟨next, hnext, hvalid⟩ := exists_onViewChange hinfo hserves'
        ⟨DocumentViewChangeSet.describes_empty _, fun _ => rfl⟩
        (View.applied_of_applyChanges happly).1
      refine ⟨next.setOnlineState onlineState, ?_, setOnlineState_valid hvalid onlineState⟩
      simp [View.applyOnlineStateChange, hoffline, happly, hlimbo, hnext]
    · refine ⟨state.setOnlineState onlineState, ?_, setOnlineState_valid hvalid onlineState⟩
      simp [View.applyOnlineStateChange, hoffline, onViewChange, ← hview]

/-- Every operation keeps the listeners following their view. -/
theorem step_valid (hvalid : state.Valid query) {event : QueryEvent K}
    (hstep : step query state event = some next) : next.Valid query := by
  cases event with
  | addQueryListener options result synced => exact addQueryListener_valid hvalid hstep
  | removeQueryListener index => exact removeQueryListener_valid hvalid hstep
  | emitNewSnapshots changes refill targetChange => exact emitNewSnapshots_valid hvalid hstep
  | handleOnlineStateChange onlineState =>
      obtain ⟨other, hother, hnext⟩ := exists_handleOnlineStateChange hvalid onlineState
      rwa [← Option.some.inj (hother.symm.trans hstep)]
  | onError =>
      rw [← Option.some.inj hstep]
      trivial

theorem reaches_valid {allowed : QueryState K → QueryEvent K → Prop}
    (hreach : Reaches (step query) allowed init state) : state.Valid query :=
  hreach.invariant trivial fun _ _ _ hvalid _ => step_valid hvalid

/-! ## No assertion fails -/

/-- The server calls only such documents modified that it has added before. -/
def Proper (state : QueryState K) : QueryEvent K → Prop
  | .emitNewSnapshots _ _ (some targetChange) => ∀ view ∈ state.view,
      targetChange.modifiedDocuments ⊆ view.syncedDocuments ∪ targetChange.addedDocuments
  | _ => True

instance (state : QueryState K) (event : QueryEvent K) : Decidable (state.Proper event) :=
  match event with
  | .emitNewSnapshots _ _ (some _) => inferInstanceAs (Decidable (∀ view ∈ state.view, _))
  | .emitNewSnapshots _ _ none => .isTrue trivial
  | .addQueryListener _ _ _ => .isTrue trivial
  | .removeQueryListener _ => .isTrue trivial
  | .handleOnlineStateChange _ => .isTrue trivial
  | .onError => .isTrue trivial

/-- A view without a limit takes an update in one pass. -/
theorem exists_update (view : View K) (changes : DocumentMap K)
    (targetChange : Option (TargetChange ι)) (hlimit : view.query.limitType = .none)
    (htarget : ∀ change, targetChange = some change →
      change.modifiedDocuments ⊆ view.syncedDocuments ∪ change.addedDocuments) :
    ∃ docChanges nextView change, view.computeDocumentChanges changes none = some docChanges ∧
      docChanges.needsRefill = false ∧
      view.applyChanges docChanges targetChange = some (nextView, change) ∧
      view.Computed view.documentSet docChanges := by
  have hprevious : ∀ previous, none = some previous →
      view.Computed view.documentSet previous := by simp
  obtain ⟨docChanges, hcomputed, hcompute⟩ := view.exists_computeDocumentChanges changes hprevious
  have hrefill := hcomputed.refill hlimit
  obtain ⟨nextView, change, happly⟩ := View.exists_applyChanges hrefill htarget
  exact ⟨docChanges, nextView, change, by simpa using hcompute, hrefill, happly, hcomputed⟩

theorem exists_addQueryListener (hvalid : state.Valid query) (hlimit : query.limitType = .none)
    (options : ListenOptions) (result : QueryResult K) (synced : Option Bool) :
    ∃ next, state.addQueryListener query options result synced = some next := by
  unfold addQueryListener
  rcases hvalid.cases with ⟨hinfo, hview⟩ | ⟨info, view, hinfo, hview, hserves⟩
  · obtain ⟨docChanges, nextView, change, hcompute, -, happly, hcomputed⟩ :=
      exists_update (.init query result.remoteKeys) result.documents
        (synced.map fun current => ⟨∅, ∅, ∅, current⟩) hlimit (by
          rintro change hchange
          obtain ⟨current, -, rfl⟩ := Option.map_eq_some_iff.mp hchange
          exact Finset.empty_subset _)
    have happlied := (View.applied_of_applyChanges happly).1
    cases hsnapshot : change.snapshot with
    | none =>
        -- the sync state of a new view always changes
        rw [hsnapshot] at happlied
        exact absurd (happlied.quiet rfl).2.symm happlied.changed
    | some snapshot =>
        have hinit : initializeViewAndComputeSnapshot query result synced =
            some (nextView, snapshot) := by
          simp [initializeViewAndComputeSnapshot, hcompute, happly, hsnapshot]
        obtain ⟨-, hsnapshot, -⟩ := valid_of_firstView hinit
        obtain ⟨nextInfo, hnextInfo, -⟩ := QueryListenersInfo.exists_onViewSnapshot
          ⟨none, [(QueryListener.init options).onOnlineStateChanged state.onlineState]⟩ hsnapshot
          fun member hmember => by
            rw [List.mem_singleton.mp hmember]
            exact heard_init options state.onlineState _
        simp [hinfo, hview, listen, hinit, hnextInfo]
  · obtain ⟨snapshot, hlast, hsnapshot, -⟩ := hserves.snapshot
    obtain ⟨listener, hlistener, -⟩ := QueryListener.exists_onViewSnapshot hsnapshot
      (heard_init options state.onlineState snapshot.oldDocuments)
    simp [hinfo, hlast, hlistener]

theorem exists_emitNewSnapshots (hvalid : state.Valid query) (hlimit : query.limitType = .none)
    {changes : DocumentMap K} {refill : QueryResult K} {targetChange : Option (TargetChange ι)}
    (hproper : state.Proper (.emitNewSnapshots changes refill targetChange)) :
    ∃ next, state.emitNewSnapshots changes refill targetChange = some next := by
  unfold emitNewSnapshots
  rcases hvalid.cases with ⟨hinfo, hview⟩ | ⟨info, view, hinfo, hview, hserves⟩
  · exact ⟨state, by simp [hview]⟩
  · obtain ⟨docChanges, nextView, change, hcompute, hrefill, happly, hcomputed⟩ :=
      exists_update view changes targetChange (by rw [hserves.query]; exact hlimit) (by
        rintro change rfl
        exact hproper view hview)
    obtain ⟨next, hnext, -⟩ := exists_onViewChange hinfo hserves hcomputed
      (View.applied_of_applyChanges happly).1
    exact ⟨next, by simp [computeWithRefill, hview, hcompute, hrefill, happly, hnext]⟩

/-- No assertion of the view, its listeners or the sync engine fails in a run on a
query without a limit. -/
theorem exists_step (hlimit : query.limitType = .none)
    (hreach : Reaches (step query) Proper init state) (event : QueryEvent K)
    (hproper : state.Proper event) : ∃ next, step query state event = some next := by
  have hvalid := reaches_valid hreach
  cases event with
  | addQueryListener options result synced =>
      exact exists_addQueryListener hvalid hlimit options result synced
  | removeQueryListener index => exact exists_removeQueryListener hvalid index
  | emitNewSnapshots changes refill targetChange =>
      exact exists_emitNewSnapshots hvalid hlimit hproper
  | handleOnlineStateChange onlineState =>
      obtain ⟨next, hnext, -⟩ := exists_handleOnlineStateChange hvalid onlineState
      exact ⟨next, hnext⟩
  | onError => exact ⟨_, rfl⟩

end QueryState

/-! ### Numbers as documents -/

def numberKeying : Keying ℕ ℕ ℕ := ⟨id, id, fun _ _ heq => heq⟩

/-- All numbers, without a limit. -/
def numberQuery : Query ℕ := ⟨fun _ => true, .none, 0⟩

/-- A listener of two numbers, of which one is removed while a third is written. -/
def numberRun : List (QueryEvent numberKeying) :=
  [.addQueryListener (.fromIncludeMetadataChanges false)
      ⟨⟨[.found ⟨3, .synced⟩, .found ⟨1, .synced⟩], by decide⟩, {1, 3}⟩ none,
    .emitNewSnapshots ⟨[.missing 3, .found ⟨2, .hasLocalMutations⟩], by decide⟩
      ⟨⟨[], by decide⟩, ∅⟩ none]

theorem exists_step_numbers : ∃ state : QueryState numberKeying,
    Reaches (QueryState.step numberQuery) QueryState.Proper QueryState.init state ∧
      ∃ next, QueryState.step numberQuery state (.emitNewSnapshots
        ⟨[.found ⟨2, .hasCommittedMutations⟩], by decide⟩ ⟨⟨[], by decide⟩, ∅⟩
        (some ⟨∅, {1}, ∅, true⟩)) = some next := by
  have hrun : ∃ state, Reaches (QueryState.step numberQuery) QueryState.Proper QueryState.init
      state ∧ state.view.map View.syncedDocuments = some {1, 3} :=
    exists_reaches_of_run numberRun (by decide)
  obtain ⟨state, hreach, hview⟩ := hrun
  refine ⟨state, hreach, QueryState.exists_step rfl hreach _ fun view hview' => ?_⟩
  rw [hview'] at hview
  rw [Option.some.inj hview]
  decide

/-! ## The steps that listeners are told of -/

namespace QueryListener

variable {listener next : QueryListener K} {snapshot : ViewSnapshot K}

omit [LinearOrder ι] in
theorem mem_events_raiseInitialEvent {event : ViewSnapshot K}
    (hevent : event ∈ (listener.raiseInitialEvent snapshot).events) :
    event ∈ listener.events ∨ event.oldDocuments = .empty := by
  rcases List.mem_append.mp hevent with hevent | hevent
  · exact .inl hevent
  · rw [List.mem_singleton.mp hevent]
    exact .inr rfl

/-- A new event starts from nothing, or it is not the first and reports the step of
the snapshot. -/
theorem mem_events_onViewSnapshot (hnext : listener.onViewSnapshot snapshot = some next)
    {event : ViewSnapshot K} (hevent : event ∈ next.events) :
    event ∈ listener.events ∨ event.oldDocuments = .empty ∨
      listener.raisedInitialEvent = true ∧
        event.oldDocuments = snapshot.oldDocuments ∧ event.documents = snapshot.documents := by
  unfold onViewSnapshot at hnext
  rw [Option.ite_none_left_eq_some] at hnext
  rw [← Option.some.inj hnext.2] at hevent
  simp only [raiseEvent] at hevent
  split at hevent
  · rename_i hraised
    split at hevent
    · rcases List.mem_append.mp hevent with hevent | hevent
      · exact .inl hevent
      · rw [List.mem_singleton.mp hevent]
        exact .inr (.inr ⟨hraised, withoutMetadataChanges_oldDocuments listener,
          withoutMetadataChanges_documents listener⟩)
    · exact .inl hevent
  · split at hevent
    · exact (mem_events_raiseInitialEvent hevent).imp_right .inl
    · exact .inl hevent

omit [LinearOrder ι] in
theorem mem_events_onOnlineStateChanged {onlineState : OnlineState} {event : ViewSnapshot K}
    (hevent : event ∈ (listener.onOnlineStateChanged onlineState).events) :
    event ∈ listener.events ∨ event.oldDocuments = .empty := by
  simp only [onOnlineStateChanged] at hevent
  split at hevent
  · exact .inl hevent
  · split at hevent
    · exact mem_events_raiseInitialEvent hevent
    · exact .inl hevent

end QueryListener

/-- Every event of every listener reports a step with the property. -/
def QueryListenersInfo.EachEvent (R : DocumentSet K → DocumentSet K → Prop)
    (info : QueryListenersInfo K) : Prop :=
  ∀ listener ∈ info.listeners, ∀ event ∈ listener.events, R event.oldDocuments event.documents

theorem mem_of_mapM {β γ : Type*} {f : β → Option γ} {list : List β} {images : List γ}
    (himages : list.mapM f = some images) {image : γ} (himage : image ∈ images) :
    ∃ element ∈ list, f element = some image := by
  induction list generalizing images with
  | nil =>
      obtain rfl : [] = images := by simpa using himages
      simp at himage
  | cons element rest ih =>
      rw [List.mapM_cons] at himages
      obtain ⟨first, hfirst, himages⟩ := Option.bind_eq_some_iff.mp himages
      obtain ⟨others, hothers, himages⟩ := Option.bind_eq_some_iff.mp himages
      obtain rfl := Option.some.inj himages
      rcases List.mem_cons.mp himage with rfl | himage
      · exact ⟨element, List.mem_cons_self, hfirst⟩
      · obtain ⟨other, hother, heq⟩ := ih hothers himage
        exact ⟨other, List.mem_cons_of_mem _ hother, heq⟩

theorem QueryListenersInfo.eachEvent_onViewSnapshot {R : DocumentSet K → DocumentSet K → Prop}
    (hinitial : ∀ documents, R .empty documents) {info next : QueryListenersInfo K}
    {snapshot : ViewSnapshot K} (heach : info.EachEvent R)
    (hsnapshot : R snapshot.oldDocuments snapshot.documents)
    (hnext : info.onViewSnapshot snapshot = some next) : next.EachEvent R := by
  obtain ⟨listeners, hlisteners, rfl⟩ := Option.map_eq_some_iff.mp hnext
  intro listener hlistener event hevent
  obtain ⟨before, hbefore, honView⟩ := mem_of_mapM hlisteners hlistener
  rcases QueryListener.mem_events_onViewSnapshot honView hevent with
    hevent | hempty | ⟨-, hold, hdocuments⟩
  · exact heach before hbefore event hevent
  · rw [hempty]
    exact hinitial _
  · rw [hold, hdocuments]
    exact hsnapshot

namespace QueryState

variable {query : Query α} {state next : QueryState K} {R : DocumentSet K → DocumentSet K → Prop}

/-- Every event of every listener reports a step with the property. -/
def EachEvent (R : DocumentSet K → DocumentSet K → Prop) (state : QueryState K) : Prop :=
  ∀ info, state.info = some info → info.EachEvent R

theorem eachEvent_onViewChange (hinitial : ∀ documents, R .empty documents) {view : View K}
    {change : ViewChange K} (heach : state.EachEvent R)
    (hchange : ∀ snapshot, change.snapshot = some snapshot →
      R snapshot.oldDocuments snapshot.documents)
    (hnext : state.onViewChange view change = some next) : next.EachEvent R := by
  unfold onViewChange at hnext
  simp only at hnext
  split at hnext
  · rename_i snapshot info hsnapshot hinfo
    obtain ⟨nextInfo, hnextInfo, rfl⟩ := Option.map_eq_some_iff.mp hnext
    intro other hother
    rw [← Option.some.inj hother]
    exact QueryListenersInfo.eachEvent_onViewSnapshot hinitial (heach info hinfo)
      (hchange snapshot hsnapshot) hnextInfo
  · rw [← Option.some.inj hnext]
    exact heach

omit [LinearOrder ι] in
theorem eachEvent_setOnlineState (hinitial : ∀ documents, R .empty documents)
    (heach : state.EachEvent R) (onlineState : OnlineState) :
    (state.setOnlineState onlineState).EachEvent R := by
  intro info hinfo listener hlistener event hevent
  obtain ⟨before, hbefore, rfl⟩ := Option.map_eq_some_iff.mp hinfo
  obtain ⟨earlier, hearlier, rfl⟩ := List.mem_map.mp hlistener
  rcases QueryListener.mem_events_onOnlineStateChanged hevent with hevent | hempty
  · exact heach before hbefore earlier hearlier event hevent
  · rw [hempty]
    exact hinitial _

variable [DecidableEq α]

theorem eachEvent_addQueryListener (hvalid : state.Valid query)
    (hinitial : ∀ documents, R .empty documents) (heach : state.EachEvent R)
    {options : ListenOptions} {result : QueryResult K} {synced : Option Bool}
    (hstep : state.addQueryListener query options result synced = some next) :
    next.EachEvent R := by
  obtain ⟨listener, hlistener, hstep⟩ := Option.bind_eq_some_iff.mp hstep
  rcases hvalid.cases with ⟨hinfo, hview⟩ | ⟨info, view, hinfo, hview, hserves⟩
  · simp only [hinfo, Option.getD_none, Option.some.injEq] at hlistener
    simp only [hinfo, hview, listen, Option.isNone_none, if_true, Option.isSome_none,
      Bool.false_eq_true, if_false] at hstep
    obtain ⟨⟨nextView, snapshot⟩, hinit, hstep⟩ := Option.bind_eq_some_iff.mp hstep
    obtain ⟨nextInfo, hnextInfo, rfl⟩ := Option.map_eq_some_iff.mp hstep
    intro other hother
    rw [← Option.some.inj hother]
    refine QueryListenersInfo.eachEvent_onViewSnapshot hinitial ?_ ?_ hnextInfo
    · intro member hmember event hevent
      rw [List.mem_singleton.mp hmember, ← hlistener] at hevent
      simp [QueryListener.init, QueryListener.onOnlineStateChanged] at hevent
    · rw [(valid_of_firstView hinit).2.2.2]
      exact hinitial _
  · obtain ⟨snapshot, hlast, -⟩ := hserves.snapshot
    simp only [hinfo, Option.getD_some, hlast] at hlistener
    simp only [hinfo, Option.isNone_some, Bool.false_eq_true, if_false, Option.some.injEq,
      Option.getD_some] at hstep
    subst hstep
    intro other hother member hmember event hevent
    rw [← Option.some.inj hother] at hmember
    rcases List.mem_append.mp hmember with hmember | hmember
    · exact heach info hinfo member hmember event hevent
    · rw [List.mem_singleton.mp hmember] at hevent
      rcases QueryListener.mem_events_onViewSnapshot hlistener hevent with
        hevent | hempty | ⟨hraised, -⟩
      · simp [QueryListener.init, QueryListener.onOnlineStateChanged] at hevent
      · rw [hempty]
        exact hinitial _
      · simp [QueryListener.init, QueryListener.onOnlineStateChanged] at hraised

/-- A property of the steps of the view is one of the steps that listeners are told
of. -/
theorem eachEvent_step (hvalid : state.Valid query) (hinitial : ∀ documents, R .empty documents)
    (hrefl : ∀ documents, R documents documents) (heach : state.EachEvent R)
    {event : QueryEvent K}
    (hemit : ∀ changes refill targetChange, event = .emitNewSnapshots changes refill targetChange →
      ∀ view docChanges, state.view = some view → view.query = query →
        computeWithRefill view changes refill = some docChanges →
          R view.documentSet docChanges.documentSet)
    (hstep : step query state event = some next) : next.EachEvent R := by
  cases event with
  | addQueryListener options result synced =>
      exact eachEvent_addQueryListener hvalid hinitial heach hstep
  | removeQueryListener index =>
      rcases removeQueryListener_cases hstep with rfl | rfl | ⟨info, hinfo, rfl⟩
      · exact heach
      · exact fun other hother => by simp at hother
      · intro other hother listener hlistener
        rw [← Option.some.inj hother] at hlistener
        exact heach info hinfo listener (List.mem_of_mem_eraseIdx hlistener)
  | emitNewSnapshots changes refill targetChange =>
      rcases hvalid.cases with ⟨-, hview⟩ | ⟨info, view, -, hview, hserves⟩
      · simp only [step, emitNewSnapshots, hview, Option.some.injEq] at hstep
        rwa [← hstep]
      · simp only [step, emitNewSnapshots, hview] at hstep
        obtain ⟨docChanges, hcompute, hstep⟩ := Option.bind_eq_some_iff.mp hstep
        obtain ⟨⟨nextView, change⟩, happly, hstep⟩ := Option.bind_eq_some_iff.mp hstep
        refine eachEvent_onViewChange hinitial heach (fun snapshot hsnapshot => ?_) hstep
        obtain ⟨hdocuments, hold, -⟩ :=
          (View.applied_of_applyChanges happly).1.raised snapshot hsnapshot
        rw [hdocuments, hold]
        exact hemit changes refill targetChange rfl view docChanges hview hserves.query hcompute
  | handleOnlineStateChange onlineState =>
      -- going offline recomputes the view from no changes, so its documents stay
      simp only [step, handleOnlineStateChange] at hstep
      split at hstep
      · rw [← Option.some.inj hstep]
        exact eachEvent_setOnlineState hinitial heach onlineState
      · obtain ⟨⟨nextView, change⟩, happly, hstep⟩ := Option.bind_eq_some_iff.mp hstep
        simp only [Option.ite_none_right_eq_some] at hstep
        obtain ⟨mid, hmid, rfl⟩ := Option.map_eq_some_iff.mp hstep.2
        refine eachEvent_setOnlineState hinitial (eachEvent_onViewChange hinitial heach
          (fun snapshot hsnapshot => ?_) hmid) onlineState
        unfold View.applyOnlineStateChange at happly
        split at happly
        · obtain ⟨hdocuments, hold, -⟩ :=
            (View.applied_of_applyChanges happly).1.raised snapshot hsnapshot
          rw [hdocuments, hold]
          exact hrefl _
        · obtain ⟨-, rfl⟩ := Prod.mk.inj (Option.some.inj happly)
          simp at hsnapshot
  | onError =>
      rw [← Option.some.inj hstep]
      exact fun other hother => by simp at hother

end QueryState

end Pompom.Firestore
