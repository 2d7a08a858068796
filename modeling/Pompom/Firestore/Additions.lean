import Pompom.Firestore.QuerySnapshot

/-!
# Users of additions

A user of a listener that looks at additions only, and appends what it finds,
holds every document of the result exactly once as long as no document is deleted
(`Told.additions_perm`).  Where the server rounds what was written, the documents
are altered, and the user's are the result up to what `trim` takes off.

If no document is altered at all, the list is the result in the order of the query
exactly when no document arrives after one that sorts behind it
(`Told.additions_eq_iff`): within one snapshot the additions come in order, so only
documents of different snapshots can be out of order.
-/

namespace Pompom.Firestore

open Lib

variable {α ι κ : Type*} [LinearOrder ι] [LinearOrder κ] {K : Keying α ι κ}

/-- No document is deleted, and none is altered but in what `trim` takes off. -/
def Keeps (trim : α → α) (old new : DocumentSet K) : Prop :=
  ∀ value ∈ values old, trim value ∈ (values new).map trim

/-- What is taken off is neither part of the ID nor of the property. -/
structure Trims (K : Keying α ι κ) (p : α → Prop) (trim : α → α) : Prop where
  id : ∀ value, K.id (trim value) = K.id value
  holds : ∀ value, p (trim value) ↔ p value

omit [LinearOrder ι] [LinearOrder κ] in
theorem trims_id (p : α → Prop) : Trims K p id :=
  ⟨fun _ => rfl, fun _ => Iff.rfl⟩

section Watching

variable (p : α → Prop) [DecidablePred p]

/-- The documents with a property that were added, in the order of the events. -/
def additions (events : List (ViewSnapshot K)) : List α :=
  (changesOf events).flatMap (Keying.addedBy p)

/-- The new documents of an event that have the property sort behind the old ones. -/
def AddsBehind (event : ViewSnapshot K) : Prop :=
  ∀ new ∈ values event.documents, new ∉ values event.oldDocuments → p new →
    ∀ old ∈ values event.oldDocuments, p old → K.key old < K.key new

variable {p} {trim : α → α} {events : List (ViewSnapshot K)} {snapshot : ViewSnapshot K}
  {documents : List α}

omit [LinearOrder ι] in
theorem additions_concat : additions p (events ++ [snapshot]) =
    additions p events ++ Keying.addedBy p (toChanges false snapshot.documentChanges) := by
  simp [additions, changesOf]

/-- The documents with the property after an event. -/
theorem Reports.perm_filter
    (htrims : Trims K p trim)
    (hreports : Reports snapshot.oldDocuments snapshot.documents snapshot.documentChanges)
    (hkeeps : Keeps trim snapshot.oldDocuments snapshot.documents) :
    (((values snapshot.documents).filter fun value => decide (p value)).map trim).Perm
      (((values snapshot.oldDocuments).filter (fun value => decide (p value)) ++
        Keying.addedBy p (toChanges false snapshot.documentChanges)).map trim) := by
  have hreplay := hreports.replay false
  rw [← hreplay]
  refine Keying.perm_filter_foldl_applyChange ?_ ?_ (values_ordered _) (hreports.valid false) ?_
  · intro first second hsame
    rw [← htrims.id first, hsame, htrims.id]
  · intro first second hsame
    rw [← htrims.holds first, hsame, htrims.holds]
  · rw [hreplay]
    exact hkeeps

/-- Every document of the result was added exactly once. -/
theorem Told.additions_perm (htrims : Trims K p trim) (htold : Told events documents)
    (hkeeps : ∀ event ∈ events, Keeps trim event.oldDocuments event.documents) :
    ((additions p events).map trim).Perm
      ((documents.filter fun value => decide (p value)).map trim) := by
  induction htold with
  | nil => exact .refl _
  | snoc snapshot htold hreports ih =>
      have hrest := ih fun event hevent => hkeeps event (List.mem_append_left _ hevent)
      have hlast := hkeeps snapshot (List.mem_append_right _ (List.mem_singleton_self _))
      have hstep := hreports.perm_filter htrims hlast
      rw [List.map_append] at hstep
      rw [additions_concat, List.map_append]
      exact (hrest.append_right _).trans hstep.symm

theorem mem_addedBy_toChanges
    (hreports : Reports snapshot.oldDocuments snapshot.documents snapshot.documentChanges)
    {value : α} (hvalue : value ∈ Keying.addedBy p (toChanges false snapshot.documentChanges)) :
    p value ∧ value ∉ values snapshot.oldDocuments := by
  obtain ⟨change, -, rfl, -, hp⟩ := Keying.mem_addedBy.mp hvalue
  refine ⟨hp, fun hmem => ?_⟩
  exact (hreports.valid false).notMem_of_addedBy hvalue (List.mem_map_of_mem hmem)

/-- A list that was the result before an event is the result after it if and only
if the event adds behind. -/
theorem additions_concat_eq_iff
    (hreports : Reports snapshot.oldDocuments snapshot.documents snapshot.documentChanges)
    (hkeeps : Keeps id snapshot.oldDocuments snapshot.documents)
    (hbefore : additions p events =
      (values snapshot.oldDocuments).filter fun value => decide (p value)) :
    additions p (events ++ [snapshot]) =
        (values snapshot.documents).filter (fun value => decide (p value)) ↔
      AddsBehind p snapshot := by
  have hperm := hreports.perm_filter (trims_id p) hkeeps
  rw [List.map_id, List.map_id] at hperm
  have hordered : K.Ordered ((values snapshot.documents).filter fun value => decide (p value)) :=
    ⟨(values_ordered _).sorted.filter _, (values_ordered _).ids.sublist (List.filter_sublist.map _)⟩
  rw [additions_concat, hbefore]
  -- one way the new documents are the last of an ordered list; the other way the list is in
  -- order and has the documents of the result
  constructor
  · intro heq new hnew hfresh hp old hold hp'
    rw [← heq] at hordered
    have hmem : new ∈ (values snapshot.documents).filter fun value => decide (p value) :=
      List.mem_filter.mpr ⟨hnew, decide_eq_true hp⟩
    have hold' : old ∈ (values snapshot.oldDocuments).filter fun value => decide (p value) :=
      List.mem_filter.mpr ⟨hold, decide_eq_true hp'⟩
    rw [← heq] at hmem
    rcases List.mem_append.mp hmem with hmem | hmem
    · exact absurd (List.mem_filter.mp hmem).1 hfresh
    · have hle := (List.pairwise_append.mp hordered.sorted).2.2 old hold' new hmem
      refine lt_of_le_of_ne hle fun hkey => hfresh ?_
      have hkept : old ∈ values snapshot.documents := by simpa using hkeeps old hold
      rwa [← (values_ordered snapshot.documents).eq_of_id hkept hnew (K.id_of_key _ _ hkey)]
  · intro hbehind
    refine Keying.Ordered.ext ⟨?_, ?_⟩ hordered fun value => hperm.symm.mem_iff
    · refine List.pairwise_append.mpr ⟨(values_ordered _).sorted.filter _, ?_, ?_⟩
      · rw [Keying.addedBy, List.pairwise_map]
        refine (hreports.ascending.sublist (List.monotone_filter_right _ ?_)).imp le_of_lt
        simp +contextual
      · intro old hold new hnew
        obtain ⟨hp, hfresh⟩ := mem_addedBy_toChanges hreports hnew
        obtain ⟨hold, hp'⟩ := List.mem_filter.mp hold
        have hmem := hperm.mem_iff.mpr (List.mem_append_right _ hnew)
        exact (hbehind new (List.mem_filter.mp hmem).1 hfresh hp old hold
          (of_decide_eq_true hp')).le
    · exact (hperm.map K.id).nodup_iff.mp hordered.ids

theorem Told.replay_eq (htold : Told events documents) :
    K.replay (changesOf events) = documents := by
  obtain ⟨lists, -, hchanges, hreplays⟩ := htold.replays
  rw [← hchanges]
  exact hreplays.byKey

/-- The list is the result in order, after every event, if and only if every event
adds behind. -/
theorem Told.additions_eq_iff (htold : Told events documents)
    (hkeeps : ∀ event ∈ events, Keeps id event.oldDocuments event.documents) :
    (∀ earlier rest, events = earlier ++ rest → additions p earlier =
        (K.replay (changesOf earlier)).filter fun value => decide (p value)) ↔
      ∀ event ∈ events, AddsBehind p event := by
  -- by induction on the events: an event is the last of the events up to it
  induction htold with
  | nil =>
      constructor
      · intro _ event hevent
        simp at hevent
      · intro _ earlier rest hsplit
        obtain rfl : earlier = [] := (List.nil_eq_append_iff.mp hsplit).1
        rfl
  | snoc snapshot htold hreports ih =>
      rename_i before
      have hrest := ih fun event hevent => hkeeps event (List.mem_append_left _ hevent)
      have hlast := hkeeps snapshot (List.mem_append_right _ (List.mem_singleton_self _))
      have hwhole := (Told.snoc snapshot htold hreports).replay_eq
      constructor
      · intro hshows event hevent
        have hprefixes : ∀ earlier rest, before = earlier ++ rest → additions p earlier =
            (K.replay (changesOf earlier)).filter fun value => decide (p value) := by
          intro earlier rest hsplit
          exact hshows earlier (rest ++ [snapshot]) (by rw [hsplit, List.append_assoc])
        rcases List.mem_append.mp hevent with hevent | hevent
        · exact hrest.mp hprefixes event hevent
        · rw [List.mem_singleton.mp hevent]
          have hbefore := hprefixes before [] (by simp)
          rw [htold.replay_eq] at hbefore
          refine (additions_concat_eq_iff hreports hlast hbefore).mp ?_
          rw [hshows _ [] (by simp), hwhole]
      · intro hbehind earlier rest hsplit
        have hprefixes := hrest.mpr fun event hevent =>
          hbehind event (List.mem_append_left _ hevent)
        rcases List.eq_nil_or_concat rest with rfl | ⟨init, last, rfl⟩
        · obtain rfl : before ++ [snapshot] = earlier := by simpa using hsplit
          have hbefore := hprefixes before [] (by simp)
          rw [htold.replay_eq] at hbefore
          rw [hwhole]
          exact (additions_concat_eq_iff hreports hlast hbefore).mpr
            (hbehind snapshot (List.mem_append_right _ (List.mem_singleton_self _)))
        · rw [List.concat_eq_append, ← List.append_assoc] at hsplit
          exact hprefixes earlier init (List.append_inj' hsplit rfl).1

end Watching

/-! ## Runs in which nothing is deleted -/

namespace QueryState

variable {query : Query α} {trim : α → α} {state : QueryState K}

/-- An update that leaves the values of the documents of the view as they are, up to
what `trim` takes off. -/
def Preserves (trim : α → α) (state : QueryState K) : QueryEvent K → Prop
  | .emitNewSnapshots changes _ _ => ∀ view ∈ state.view, ∀ entry ∈ changes.entries,
      ∀ old ∈ view.documentSet.get (entry.key K),
        (view.query.Matches entry).map (fun document => trim document.value) =
          some (trim old.value)
  | _ => True

instance [DecidableEq α] (trim : α → α) (state : QueryState K) (event : QueryEvent K) :
    Decidable (state.Preserves trim event) :=
  match event with
  | .emitNewSnapshots changes _ _ => inferInstanceAs (Decidable (∀ view ∈ state.view,
      ∀ entry ∈ changes.entries, ∀ old ∈ view.documentSet.get (entry.key K), _ = _))
  | .addQueryListener _ _ _ => .isTrue trivial
  | .removeQueryListener _ => .isTrue trivial
  | .handleOnlineStateChange _ => .isTrue trivial
  | .onError => .isTrue trivial

theorem keeps_of_settles {old new after : Option (Document α)} {value : α}
    (hsettles : View.Settles old new after) (hold : old.map Document.value = some value)
    (hnew : ∀ document ∈ old,
      new.map (fun later => trim later.value) = some (trim document.value)) :
    after.map (fun later => trim later.value) = some (trim value) := by
  obtain ⟨document, rfl, rfl⟩ := Option.map_eq_some_iff.mp hold
  rcases hsettles with rfl | ⟨rfl, -⟩
  · exact hnew document rfl
  · rfl

variable [DecidableEq α]

/-- In a run that deletes nothing, no listener is told of a loss. -/
theorem reaches_keeps (hlimit : query.limitType = .none)
    (hreach : Reaches (step query) (Preserves trim) init state) :
    state.Valid query ∧ state.EachEvent (Keeps trim) := by
  refine hreach.invariant (P := fun state => state.Valid query ∧ state.EachEvent (Keeps trim))
    ⟨trivial, fun info hinfo => by simp [init] at hinfo⟩ ?_
  rintro before event next ⟨hvalid, heach⟩ hpreserves hstep
  refine ⟨step_valid hvalid hstep, eachEvent_step hvalid (fun documents value hvalue => ?_)
    (fun documents value hvalue => List.mem_map_of_mem hvalue) heach ?_ hstep⟩
  · simp [values, KeyedSet.empty] at hvalue
  · rintro changes refill targetChange rfl view docChanges hview hquery hcompute value hvalue
    obtain ⟨hkept, hsettles⟩ := settles_of_computeWithRefill (by rw [hquery]; exact hlimit) hcompute
    by_cases hkey : K.id value ∈ changes.entries.map (MaybeDocument.key K)
    · obtain ⟨entry, hentry, hid⟩ := List.mem_map.mp hkey
      rw [mem_values, ← hid] at hvalue
      obtain ⟨later, hlater, hsame⟩ := Option.map_eq_some_iff.mp
        (keeps_of_settles (hsettles entry hentry) hvalue (hpreserves view hview entry hentry))
      have hmem : later ∈ docChanges.documentSet.records := (KeyedSet.get_eq_some_iff.mp hlater).1
      exact List.mem_map.mpr ⟨later.value, List.mem_map_of_mem hmem, hsame⟩
    · refine List.mem_map_of_mem ?_
      rw [mem_values] at hvalue ⊢
      rw [hkept _ hkey]
      exact hvalue

end QueryState

end Pompom.Firestore
