import Pompom.Firestore.QueryListener

/-!
# The view and the local store

Every change of the local store is passed to the views as the documents that it
changed, and a new view starts from the store's answer to its query.  So the view
of a query without a limit is the query's result on the local store, with one
exception that the source makes on purpose: a document that was written here keeps
its written value in the view after the write was acknowledged with another one,
until the server has sent the document (`Awaited`).

`StoreState` runs the store next to the state of the query, and `view_shows_store`
is the comparison in every reachable state.
-/

namespace Pompom.Firestore

open Lib

variable {α ι κ : Type*} [LinearOrder ι] [LinearOrder κ] {K : Keying α ι κ}

/-- The documents of the local store, next to the state of one query. -/
structure StoreState (K : Keying α ι κ) where
  store : ι → Option (Document α)
  state : QueryState K

/-- The document that a lookup of the local store finds. -/
def MaybeDocument.document : MaybeDocument α ι → Option (Document α)
  | .found document => some document
  | .missing _ => none

namespace DocumentMap

def find (documents : DocumentMap K) (key : ι) : Option (MaybeDocument α ι) :=
  documents.entries.find? fun entry => entry.key K = key

/-- A store after the documents of an update were changed. -/
def overwrite (documents : DocumentMap K) (store : ι → Option (Document α)) (key : ι) :
    Option (Document α) :=
  match documents.find key with
  | some entry => entry.document
  | none => store key

end DocumentMap

/-- What the query selects of a document of the store. -/
def Query.select (query : Query α) (document : Option (Document α)) : Option (Document α) :=
  document.filter fun document => query.matchesFields document.value

namespace StoreState

variable [DecidableEq α] (query : Query α)

def init : StoreState K := ⟨fun _ => none, .init⟩

/-- The views are told of every change of the store. -/
def storeAfter (store : ι → Option (Document α)) : QueryEvent K → ι → Option (Document α)
  | .emitNewSnapshots changes _ _ => changes.overwrite store
  | _ => store

def step (state : StoreState K) (event : QueryEvent K) : Option (StoreState K) :=
  (state.state.step query event).map fun next => ⟨storeAfter state.store event, next⟩

/-- The store answers a query with its own documents. -/
def Answers (state : StoreState K) : QueryEvent K → Prop
  | .addQueryListener _ result _ => ∀ key,
      (result.documents.find key).bind query.Matches = query.select (state.store key)
  | _ => True

end StoreState

/-- A written document whose acknowledged value is held back until the server sends
it. -/
def Awaited (shown stored : Option (Document α)) : Prop :=
  ∃ shownDoc storedDoc, shown = some shownDoc ∧ stored = some storedDoc ∧
    shownDoc.hasLocalMutations ∧ storedDoc.hasCommittedMutations

/-- The document that a view shows for a document of the store. -/
def Shows (shown stored : Option (Document α)) : Prop :=
  shown.map Document.value = stored.map Document.value ∨ Awaited shown stored

/-! ## The documents of the view after a step -/

namespace QueryState

variable {query : Query α} {state next : QueryState K} {nextView : View K}

theorem view_onViewChange {view : View K} {change : ViewChange K}
    (hnext : state.onViewChange view change = some next) : next.view = some view := by
  simp only [onViewChange] at hnext
  split at hnext
  · obtain ⟨info, -, rfl⟩ := Option.map_eq_some_iff.mp hnext
    rfl
  · rw [← Option.some.inj hnext]

variable [DecidableEq α]

/-- Where the documents of a view come from: the store's answer, an update, or the
view before. -/
inductive FromStep (query : Query α) (state : QueryState K) : QueryEvent K → DocumentSet K → Prop
  | answer {options : ListenOptions} {result : QueryResult K} {synced : Option Bool}
      {docChanges : ViewDocumentChanges K}
      (hcompute : (View.init query result.remoteKeys).computeDocumentChanges result.documents none =
        some docChanges) :
      FromStep query state (.addQueryListener options result synced) docChanges.documentSet
  | update {changes : DocumentMap K} {refill : QueryResult K}
      {targetChange : Option (TargetChange ι)} {view : View K}
      {docChanges : ViewDocumentChanges K} (hview : state.view = some view)
      (hcompute : computeWithRefill view changes refill = some docChanges) :
      FromStep query state (.emitNewSnapshots changes refill targetChange) docChanges.documentSet
  | kept {event : QueryEvent K} {view : View K} (hview : state.view = some view)
      (hevent : ∀ changes refill targetChange,
        event ≠ .emitNewSnapshots changes refill targetChange) :
      FromStep query state event view.documentSet

theorem fromStep_of_listen {info : QueryListenersInfo K} {options : ListenOptions}
    {result : QueryResult K} {synced : Option Bool}
    (hnext : state.listen query info result synced = some next)
    (hview : next.view = some nextView) :
    FromStep query state (.addQueryListener options result synced) nextView.documentSet := by
  unfold listen at hnext
  rw [Option.ite_none_left_eq_some] at hnext
  obtain ⟨⟨view, snapshot⟩, hinit, hnext⟩ := Option.bind_eq_some_iff.mp hnext.2
  obtain ⟨nextInfo, -, rfl⟩ := Option.map_eq_some_iff.mp hnext
  obtain rfl := Option.some.inj hview
  obtain ⟨docChanges, hcompute, hinit⟩ := Option.bind_eq_some_iff.mp hinit
  obtain ⟨⟨applied, change⟩, happly, hinit⟩ := Option.bind_eq_some_iff.mp hinit
  obtain ⟨raised, -, hpair⟩ := Option.map_eq_some_iff.mp hinit
  obtain ⟨rfl, -⟩ := Prod.mk.inj hpair
  rw [(View.applied_of_applyChanges happly).1.documents]
  exact .answer hcompute

theorem fromStep_of_step {event : QueryEvent K} (hstep : step query state event = some next)
    (hview : next.view = some nextView) : FromStep query state event nextView.documentSet := by
  cases event with
  | addQueryListener options result synced =>
      obtain ⟨listener, -, hstep⟩ := Option.bind_eq_some_iff.mp hstep
      split at hstep
      · exact fromStep_of_listen hstep hview
      · rw [← Option.some.inj hstep] at hview
        exact .kept hview (by simp)
  | removeQueryListener index =>
      rcases removeQueryListener_cases hstep with rfl | rfl | ⟨info, -, rfl⟩
      · exact .kept hview (by simp)
      · simp at hview
      · exact .kept hview (by simp)
  | emitNewSnapshots changes refill targetChange =>
      simp only [step, emitNewSnapshots] at hstep
      split at hstep
      · rename_i hnone
        rw [← Option.some.inj hstep, hnone] at hview
        simp at hview
      · rename_i view hsome
        obtain ⟨docChanges, hcompute, hstep⟩ := Option.bind_eq_some_iff.mp hstep
        obtain ⟨⟨applied, change⟩, happly, hstep⟩ := Option.bind_eq_some_iff.mp hstep
        obtain rfl := Option.some.inj (hview.symm.trans (view_onViewChange hstep))
        rw [(View.applied_of_applyChanges happly).1.documents]
        exact .update hsome hcompute
  | handleOnlineStateChange onlineState =>
      simp only [step, handleOnlineStateChange] at hstep
      split at hstep
      · rw [← Option.some.inj hstep] at hview
        exact .kept hview (by simp)
      · rename_i view hsome
        obtain ⟨⟨applied, change⟩, happly, hstep⟩ := Option.bind_eq_some_iff.mp hstep
        simp only [Option.ite_none_right_eq_some] at hstep
        obtain ⟨mid, hmid, rfl⟩ := Option.map_eq_some_iff.mp hstep.2
        have hmidView : mid.view = some nextView := hview
        obtain rfl := Option.some.inj (hmidView.symm.trans (view_onViewChange hmid))
        -- whether the client is online is no matter to the documents of the view
        have hsame : nextView.documentSet = view.documentSet := by
          unfold View.applyOnlineStateChange at happly
          split at happly
          · exact (View.applied_of_applyChanges happly).1.documents
          · obtain ⟨rfl, -⟩ := Prod.mk.inj (Option.some.inj happly)
            rfl
        rw [hsame]
        exact .kept hsome (by simp)
  | onError =>
      rw [← Option.some.inj hstep] at hview
      simp at hview

end QueryState

/-! ## The view shows the store -/

namespace DocumentMap

variable {documents : DocumentMap K} {entry : MaybeDocument α ι} {key : ι}

omit [LinearOrder κ] in
theorem find_eq_none : documents.find key = none ↔
    key ∉ documents.entries.map (MaybeDocument.key K) := by
  simp [find, List.find?_eq_none]

omit [LinearOrder κ] in
theorem mem_of_find (hfind : documents.find key = some entry) :
    entry ∈ documents.entries ∧ entry.key K = key :=
  ⟨List.mem_of_find?_eq_some hfind, by simpa using List.find?_some hfind⟩

end DocumentMap

omit [LinearOrder ι] in
theorem Query.matches_eq_select (query : Query α) (entry : MaybeDocument α ι) :
    query.Matches entry = query.select entry.document := by
  cases entry with
  | found document => simp [Query.Matches, Query.select, MaybeDocument.document, Option.filter]
  | missing key => rfl

theorem View.Settles.shows {old new after : Option (Document α)}
    (hsettles : Settles old new after) : Shows after new := by
  rcases hsettles with rfl | ⟨rfl, hvalue | ⟨oldDoc, newDoc, hold, hnew, hwait⟩⟩
  · exact .inl rfl
  · exact .inl hvalue
  · simp only [shouldWaitForSyncedDocument, Bool.and_eq_true] at hwait
    exact .inr ⟨oldDoc, newDoc, hold, hnew, hwait.1.1, hwait.1.2⟩

namespace StoreState

variable [DecidableEq α] {query : Query α} {state next : StoreState K}

/-- The view shows the documents that the query selects of the store. -/
def Agrees (query : Query α) (state : StoreState K) : Prop :=
  ∀ view ∈ state.state.view, ∀ key,
    Shows (view.documentSet.get key) (query.select (state.store key))

theorem agrees_of_fromStep (hlimit : query.limitType = .none) (hvalid : state.state.Valid query)
    (hagrees : state.Agrees query) {event : QueryEvent K} (hanswers : state.Answers query event)
    {documents : DocumentSet K} (hfrom : QueryState.FromStep query state.state event documents)
    (key : ι) :
    Shows (documents.get key) (query.select (storeAfter state.store event key)) := by
  -- what an answer or an update does not mention is shown as before
  cases hfrom with
  | answer hcompute =>
      rename_i result synced docChanges
      obtain ⟨hkept, hsettles⟩ := View.computeDocumentChanges_settles hlimit hcompute
      change Shows _ (query.select (state.store key))
      rw [← hanswers key]
      cases hfind : result.documents.find key with
      | none =>
          rw [hkept key (DocumentMap.find_eq_none.mp hfind)]
          exact .inl rfl
      | some entry =>
          obtain ⟨hentry, rfl⟩ := DocumentMap.mem_of_find hfind
          exact (hsettles entry hentry).shows
  | update hview hcompute =>
      rename_i changes refill targetChange view docChanges
      have hquery : view.query = query := by
        rcases hvalid.cases with ⟨-, hnone⟩ | ⟨info, other, -, hother, hserves⟩
        · simp [hnone] at hview
        · rw [Option.some.inj (hview.symm.trans hother)]
          exact hserves.query
      obtain ⟨hkept, hsettles⟩ :=
        QueryState.settles_of_computeWithRefill (by rw [hquery]; exact hlimit) hcompute
      simp only [storeAfter, DocumentMap.overwrite]
      cases hfind : changes.find key with
      | none =>
          rw [hkept key (DocumentMap.find_eq_none.mp hfind)]
          exact hagrees view hview key
      | some entry =>
          obtain ⟨hentry, rfl⟩ := DocumentMap.mem_of_find hfind
          rw [← query.matches_eq_select, ← hquery]
          exact (hsettles entry hentry).shows
  | kept hview hevent =>
      cases event with
      | emitNewSnapshots changes refill targetChange => exact absurd rfl (hevent _ _ _)
      | addQueryListener | removeQueryListener | handleOnlineStateChange | onError =>
          exact hagrees _ hview key

theorem step_agrees (hlimit : query.limitType = .none) (hvalid : state.state.Valid query)
    (hagrees : state.Agrees query) {event : QueryEvent K} (hanswers : state.Answers query event)
    (hstep : state.step query event = some next) :
    next.state.Valid query ∧ next.Agrees query := by
  obtain ⟨nextState, hnext, rfl⟩ := Option.map_eq_some_iff.mp hstep
  refine ⟨QueryState.step_valid hvalid hnext, fun view hview key => ?_⟩
  exact agrees_of_fromStep hlimit hvalid hagrees hanswers
    (QueryState.fromStep_of_step hnext hview) key

/-- In every run, the view of a query without a limit shows, for every key, what the
query selects of the local store. -/
theorem view_shows_store (hlimit : query.limitType = .none)
    (hreach : Reaches (step query) (Answers query) init state) {view : View K}
    (hview : state.state.view = some view) (key : ι) :
    Shows (view.documentSet.get key) (query.select (state.store key)) := by
  have hstart : (init : StoreState K).state.Valid query ∧ (init : StoreState K).Agrees query :=
    ⟨trivial, fun view hview => by simp [init, QueryState.init] at hview⟩
  have hagrees : state.state.Valid query ∧ state.Agrees query :=
    hreach.invariant hstart fun _ _ _ hbefore hanswers hstep =>
      step_agrees hlimit hbefore.1 hbefore.2 hanswers hstep
  exact hagrees.2 view hview key

end StoreState

/-! ### A write that is acknowledged with another value -/

/-- Documents with a number as key, sorted by another number. -/
def pairKeying : Keying (ℕ × ℕ) ℕ (ℕ ×ₗ ℕ) where
  id document := document.1
  key document := toLex (document.2, document.1)
  id_of_key _ _ heq := (Prod.ext_iff.mp (toLex.injective heq)).2

def pairQuery : Query (ℕ × ℕ) := ⟨fun _ => true, .none, 0⟩

/-- A new listener on an empty store. -/
def pairListen : QueryEvent pairKeying :=
  .addQueryListener (.fromIncludeMetadataChanges false) ⟨⟨[], by decide⟩, ∅⟩ none

/-- A document is written, and the write is acknowledged with another value. -/
def pairWrite : List (QueryEvent pairKeying) :=
  [.emitNewSnapshots ⟨[.found ⟨(1, 5), .hasLocalMutations⟩], by decide⟩ ⟨⟨[], by decide⟩, ∅⟩ none,
    .emitNewSnapshots ⟨[.found ⟨(1, 7), .hasCommittedMutations⟩], by decide⟩
      ⟨⟨[], by decide⟩, ∅⟩ none]

/-- The events that are no new listeners. -/
def IsUpdate : QueryEvent pairKeying → Prop
  | .addQueryListener _ _ _ => False
  | _ => True

instance : DecidablePred IsUpdate
  | .addQueryListener _ _ _ => .isFalse id
  | .removeQueryListener _ => .isTrue trivial
  | .emitNewSnapshots _ _ _ => .isTrue trivial
  | .handleOnlineStateChange _ => .isTrue trivial
  | .onError => .isTrue trivial

/-- The view goes on showing the written value. -/
theorem view_shows_store_awaited : ∃ (state : StoreState pairKeying) (view : View pairKeying),
    state.state.view = some view ∧ values view.documentSet = [(1, 5)] ∧
      state.store 1 = some ⟨(1, 7), .hasCommittedMutations⟩ ∧
      Shows (view.documentSet.get 1) (pairQuery.select (state.store 1)) := by
  have hrun : (((StoreState.init : StoreState pairKeying).step pairQuery pairListen).bind
      fun start => runAllowed (StoreState.step pairQuery) (fun _ event => IsUpdate event) start
        pairWrite).any (fun state =>
      (state.state.view.any fun view => values view.documentSet = [(1, 5)]) &&
        decide (state.store 1 = some ⟨(1, 7), .hasCommittedMutations⟩)) = true := by
    decide
  obtain ⟨state, hstate, htest⟩ := (Option.any_eq_true _ _).mp hrun
  obtain ⟨start, hstart, hwrite⟩ := Option.bind_eq_some_iff.mp hstate
  have hfirst : Reaches (StoreState.step pairQuery) (StoreState.Answers pairQuery)
      StoreState.init start := .single ⟨pairListen, fun _ => rfl, hstart⟩
  have hrest : Reaches (StoreState.step pairQuery) (StoreState.Answers pairQuery) start state := by
    refine (reachesIn_of_runAllowed .refl hwrite).reaches.mono fun before event hupdate => ?_
    cases event with
    | addQueryListener => exact hupdate.elim
    | removeQueryListener | emitNewSnapshots | handleOnlineStateChange | onError => trivial
  obtain ⟨hview, hstore⟩ := Bool.and_eq_true_iff.mp htest
  obtain ⟨view, hview, hvalues⟩ := (Option.any_eq_true _ _).mp hview
  exact ⟨state, view, hview, by simpa using hvalues, by simpa using hstore,
    StoreState.view_shows_store rfl (hfirst.trans hrest) hview 1⟩

end Pompom.Firestore
