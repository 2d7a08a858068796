import Pompom.Firestore.QueryListener

/-!
# Document changes

The public API turns the changes of a snapshot into document changes with the
index of the document before and after (`api/query_snapshot.cc`); this is what
`documentChanges` of the app's listeners is.  The indices are tracked through the
changes, and the code asserts that every document is found where it must be and
that the first snapshot consists of additions in ascending order.

For a snapshot that reports a step between two document sets, no assertion fails,
and the changes can be applied one after the other to the old list, by key or by
index alone: both lead to the new list (`forEachChange_replays`).
-/

namespace Pompom.Firestore

open Lib

/-- A public document change; an index is absent where the source has `npos`. -/
structure DocumentChange (α : Type*) where
  type : ChangeType
  document : α
  oldIndex : Option ℕ
  newIndex : Option ℕ
  deriving DecidableEq

variable {α ι κ : Type*} [LinearOrder ι] [LinearOrder κ] {K : Keying α ι κ}

/-- `DocumentChangeTypeForChange`. -/
def changeTypeFor (change : DocumentViewChange α) : ChangeType :=
  match change.type with
  | .added => .added
  | .modified => .modified
  | .metadata => .modified
  | .removed => .removed

namespace ViewSnapshot

/-- The first snapshot: additions only, in the order of the comparator. -/
def forEachAddition (K : Keying α ι κ) :
    List (DocumentViewChange α) → ℕ → Option (Document α) → Except String (List (DocumentChange α))
  | [], _, _ => .ok []
  | change :: rest, index, lastDocument =>
      if change.type ≠ .added then .error "Invalid event type for first snapshot"
      else if lastDocument.any fun last => !decide (K.key last.value < K.key change.document.value)
      then .error "Got added events in wrong order"
      else
        (forEachAddition K rest (index + 1) (some change.document)).map fun changes =>
          ⟨.added, change.document.value, none, some index⟩ :: changes

/-- The document set in which indices are looked up, after a change. -/
def trackChange (indexTracker : DocumentSet K) (change : DocumentViewChange α) : DocumentSet K :=
  let key := K.id change.document.value
  let indexTracker := if change.type ≠ .added then indexTracker.erase key else indexTracker
  if change.type ≠ .removed then indexTracker.insert change.document else indexTracker

/-- A change with the indices before and after it. -/
def indexChange (indexTracker : DocumentSet K) (change : DocumentViewChange α) :
    DocumentChange α :=
  let key := K.id change.document.value
  { type := changeTypeFor change
    document := change.document.value
    oldIndex := if change.type ≠ .added then indexTracker.indexOf key else none
    newIndex :=
      if change.type ≠ .removed then (trackChange indexTracker change).indexOf key else none }

/-- Later snapshots: a copy of the old documents follows the changes. -/
def forEachTrackedChange (includeMetadataChanges : Bool) :
    List (DocumentViewChange α) → DocumentSet K → Except String (List (DocumentChange α))
  | [], _ => .ok []
  | change :: rest, indexTracker =>
      if !includeMetadataChanges && decide (change.type = .metadata) then
        forEachTrackedChange includeMetadataChanges rest indexTracker
      else if change.type ≠ .added ∧ (indexChange indexTracker change).oldIndex = none then
        .error "Index for document not found"
      else
        (forEachTrackedChange includeMetadataChanges rest (trackChange indexTracker change)).map
          fun changes => indexChange indexTracker change :: changes

def forEachChange (snapshot : ViewSnapshot K) (includeMetadataChanges : Bool) :
    Except String (List (DocumentChange α)) :=
  if includeMetadataChanges && snapshot.excludesMetadataChanges then
    .error ("To include metadata changes with your document changes, you must call " ++
      "addSnapshotListener(includeMetadataChanges:true).")
  else if snapshot.oldDocuments.records.isEmpty then
    forEachAddition K snapshot.documentChanges 0 none
  else forEachTrackedChange includeMetadataChanges snapshot.documentChanges snapshot.oldDocuments

end ViewSnapshot

namespace DocumentChange

/-- The change without its indices. -/
def toChange (change : DocumentChange α) : Change α :=
  ⟨change.type, change.document⟩

/-- Applies a change to a list by its indices alone. -/
def applyAt (change : DocumentChange α) (list : List α) : List α :=
  let list := match change.oldIndex with
    | some index => list.eraseIdx index
    | none => list
  match change.newIndex with
  | some index => list.insertIdx index change.document
  | none => list

end DocumentChange

/-- The changes that a user of `forEachChange` sees. -/
def visibleChanges (includeMetadataChanges : Bool) (changes : List (DocumentViewChange α)) :
    List (DocumentViewChange α) :=
  changes.filter fun change => includeMetadataChanges || decide (change.type ≠ .metadata)

/-- The changes of a snapshot as a user sees them, without indices. -/
def toChanges (includeMetadataChanges : Bool) (changes : List (DocumentViewChange α)) :
    List (Change α) :=
  (visibleChanges includeMetadataChanges changes).map fun change =>
    ⟨changeTypeFor change, change.document.value⟩

/-! ## Replaying the changes by key -/

variable {old new : DocumentSet K} {changes : List (DocumentViewChange α)}

omit [LinearOrder ι] in
theorem mem_ids_values {documents : DocumentSet K} {key : ι} :
    key ∈ (values documents).map K.id ↔
      key ∈ documents.records.map (K.comap Document.value).id := by
  rw [values, List.map_map]
  rfl

/-- What a change that is not about metadata alone says about the key. -/
theorem Reports.validChange (hreports : Reports old new changes) {change : DocumentViewChange α}
    (hchange : change ∈ changes) :
    K.ValidChange (values old) ⟨changeTypeFor change, change.document.value⟩ := by
  have hdescribed := hreports.described change hchange
  have hiff : K.id change.document.value ∈ (values old).map K.id ↔
      old.get (K.id change.document.value) ≠ none := by
    rw [mem_ids_values, ne_eq, KeyedSet.get_eq_none_iff, not_not]
  obtain ⟨document, type⟩ := change
  cases type with
  | added => exact fun hmem => hiff.mp hmem hdescribed.1
  | removed => exact hiff.mpr hdescribed.1
  | modified => exact hiff.mpr hdescribed.1
  | metadata => exact hiff.mpr (DocumentViewChangeSet.ne_none_of_map_eq_some hdescribed.1)

theorem Reports.visible (hreports : Reports old new changes) (includeMetadataChanges : Bool) :
    Reports old new (visibleChanges includeMetadataChanges changes) := by
  cases includeMetadataChanges with
  | true => simpa [visibleChanges] using hreports
  | false => simpa [visibleChanges] using hreports.filter

theorem Reports.valid (hreports : Reports old new changes) (includeMetadataChanges : Bool) :
    K.ValidChanges (values old) (toChanges includeMetadataChanges changes) := by
  have hvisible := hreports.visible includeMetadataChanges
  refine ⟨?_, ?_⟩
  · rw [toChanges, List.map_map]
    exact hvisible.keys
  · intro change hchange
    obtain ⟨view, hview, rfl⟩ := List.mem_map.mp hchange
    exact hvisible.validChange hview

/-- The changes turn the old values into the new ones. -/
theorem Reports.replay (hreports : Reports old new changes) (includeMetadataChanges : Bool) :
    (toChanges includeMetadataChanges changes).foldl K.applyChange (values old) = values new := by
  have hvisible := hreports.visible includeMetadataChanges
  refine Keying.foldl_applyChange_eq (values_ordered old) (values_ordered new)
    (hreports.valid includeMetadataChanges) ?_ ?_ ?_
  · intro change hchange htype
    obtain ⟨⟨document, type⟩, hview, rfl⟩ := List.mem_map.mp hchange
    have hdescribed := hvisible.described _ hview
    rw [mem_values]
    cases type with
    | removed => exact absurd rfl htype
    | added | modified | metadata => simp only [hdescribed.2, Option.map_some]
  · intro change hchange htype
    obtain ⟨⟨document, type⟩, hview, rfl⟩ := List.mem_map.mp hchange
    have hdescribed := hvisible.described _ hview
    rw [mem_ids_values, ← KeyedSet.get_eq_none_iff]
    cases type with
    | removed => exact hdescribed.2
    | added | modified | metadata => exact absurd htype (by simp [changeTypeFor])
  · intro value huntouched
    rw [mem_values, mem_values, hvisible.untouched (K.id value)]
    intro hmem
    obtain ⟨change, hchange, hid⟩ := List.mem_map.mp hmem
    exact huntouched ⟨changeTypeFor change, change.document.value⟩
      (List.mem_map.mpr ⟨change, hchange, rfl⟩) hid.symm

/-! ## Replaying the changes by index -/

theorem indexOf_eq_findIdx (documents : DocumentSet K) (key : ι) :
    documents.indexOf key = (values documents).findIdx? fun value => K.id value = key := by
  rw [values, List.findIdx?_map]
  rfl

theorem values_erase (documents : DocumentSet K) (key : ι) :
    values (documents.erase key) = K.erase (values documents) key := by
  rw [values, values, Keying.erase, List.filter_map]
  rfl

theorem values_insert {documents : DocumentSet K} {document : Document α}
    (hnew : documents.get (K.id document.value) = none) :
    values (documents.insert document) = K.insert (values documents) document.value := by
  have hid : K.id document.value ∉ (values documents).map K.id := by
    rwa [mem_ids_values, ← KeyedSet.get_eq_none_iff]
  refine (values_ordered _).ext ((values_ordered documents).insert hid) fun value => ?_
  rw [Keying.mem_insert, mem_values, mem_values, KeyedSet.get_insert]
  change (if K.id value = K.id document.value then some document
    else documents.get (K.id value)).map Document.value = some value ↔ _
  split
  · rename_i heq
    simp [heq, hnew, eq_comm]
  · rename_i hne
    have hvalue : value ≠ document.value := fun heq => hne (congrArg K.id heq)
    simp [hvalue]

namespace ViewSnapshot

variable {indexTracker : DocumentSet K} {change : DocumentViewChange α}

/-- A valid change is made in the tracked documents. -/
theorem values_trackChange
    (hvalid : K.ValidChange (values indexTracker) ⟨changeTypeFor change, change.document.value⟩) :
    values (trackChange indexTracker change) =
      K.applyChange (values indexTracker) ⟨changeTypeFor change, change.document.value⟩ := by
  have herased : (indexTracker.erase (K.id change.document.value)).get
      (K.id change.document.value) = none := by
    rw [KeyedSet.get_erase, if_pos rfl]
  obtain ⟨document, type⟩ := change
  cases type with
  | added =>
      refine values_insert (KeyedSet.get_eq_none_iff.mpr ?_)
      rw [← mem_ids_values]
      exact hvalid
  | removed => exact values_erase _ _
  | modified | metadata =>
      refine (values_insert herased).trans ?_
      rw [values_erase]
      rfl

theorem exists_indexOf_erase {documents : DocumentSet K} {key : ι}
    (hkey : key ∈ (values documents).map K.id) :
    ∃ index, documents.indexOf key = some index ∧
      K.erase (values documents) key = (values documents).eraseIdx index := by
  obtain ⟨value, hvalue, hid⟩ := List.mem_map.mp hkey
  have hfound : ((values documents).findIdx? fun value => K.id value = key).isSome := by
    rw [List.findIdx?_isSome]
    exact List.any_eq_true.mpr ⟨value, hvalue, by simpa using hid⟩
  obtain ⟨index, hindex⟩ := Option.isSome_iff_exists.mp hfound
  refine ⟨index, (indexOf_eq_findIdx documents key).trans hindex, ?_⟩
  exact Keying.erase_eq_eraseIdx (values_ordered documents).ids hindex

theorem exists_indexOf_insert {documents : DocumentSet K} {before : List α} {value : α}
    (hnew : K.id value ∉ before.map K.id) (hinsert : values documents = K.insert before value) :
    ∃ index, documents.indexOf (K.id value) = some index ∧
      K.insert before value = before.insertIdx index value := by
  have hfound : ((values documents).findIdx? fun other => K.id other = K.id value).isSome := by
    rw [List.findIdx?_isSome, hinsert]
    exact List.any_eq_true.mpr ⟨value, Keying.mem_insert.mpr (.inl rfl), by simp⟩
  obtain ⟨index, hindex⟩ := Option.isSome_iff_exists.mp hfound
  refine ⟨index, (indexOf_eq_findIdx documents _).trans hindex, ?_⟩
  rw [hinsert] at hindex
  exact Keying.insert_eq_insertIdx hnew hindex

/-- The indices say where a valid change takes place. -/
theorem applyAt_indexChange
    (hvalid : K.ValidChange (values indexTracker) ⟨changeTypeFor change, change.document.value⟩) :
    (change.type ≠ .added → (indexChange indexTracker change).oldIndex ≠ none) ∧
      (indexChange indexTracker change).applyAt (values indexTracker) =
        K.applyChange (values indexTracker) ⟨changeTypeFor change, change.document.value⟩ := by
  have htracked := values_trackChange hvalid
  obtain ⟨document, type⟩ := change
  cases type with
  | added =>
      obtain ⟨index, hindex, hinsert⟩ := exists_indexOf_insert hvalid htracked
      refine ⟨fun hne => absurd rfl hne, ?_⟩
      simp only [DocumentChange.applyAt, indexChange, hindex, ne_eq, not_true_eq_false, if_false,
        reduceCtorEq, not_false_eq_true, if_true]
      exact hinsert.symm
  | removed =>
      obtain ⟨index, hindex, herase⟩ := exists_indexOf_erase hvalid
      refine ⟨fun _ => by simp [indexChange, hindex], ?_⟩
      simp only [DocumentChange.applyAt, indexChange, hindex, ne_eq, not_true_eq_false, if_false,
        reduceCtorEq, not_false_eq_true, if_true]
      exact herase.symm
  | modified | metadata =>
      obtain ⟨oldIndex, holdIndex, herase⟩ := exists_indexOf_erase hvalid
      obtain ⟨newIndex, hnewIndex, hinsert⟩ :=
        exists_indexOf_insert (Keying.id_notMem_erase _ _) htracked
      refine ⟨fun _ => by simp [indexChange, holdIndex], ?_⟩
      simp only [DocumentChange.applyAt, indexChange, holdIndex, hnewIndex, ne_eq, reduceCtorEq,
        not_false_eq_true, if_true]
      rw [← herase]
      exact hinsert.symm

/-- The loop over the changes of a later snapshot. -/
theorem forEachTrackedChange_replays (includeMetadataChanges : Bool)
    {changes : List (DocumentViewChange α)} {indexTracker : DocumentSet K}
    (hvalid : K.ValidChanges (values indexTracker) (toChanges includeMetadataChanges changes)) :
    ∃ indexed, forEachTrackedChange includeMetadataChanges changes indexTracker = .ok indexed ∧
      indexed.map DocumentChange.toChange = toChanges includeMetadataChanges changes ∧
      indexed.foldl (fun list change => change.applyAt list) (values indexTracker) =
        (toChanges includeMetadataChanges changes).foldl K.applyChange (values indexTracker) := by
  induction changes generalizing indexTracker with
  | nil => exact ⟨[], rfl, rfl, rfl⟩
  | cons change rest ih =>
      by_cases hskip : (!includeMetadataChanges && decide (change.type = .metadata)) = true
      · have hrest : toChanges includeMetadataChanges (change :: rest) =
            toChanges includeMetadataChanges rest := by
          simp only [Bool.and_eq_true, Bool.not_eq_true', decide_eq_true_eq] at hskip
          simp [toChanges, visibleChanges, hskip]
        rw [hrest] at hvalid ⊢
        rw [forEachTrackedChange, if_pos hskip]
        exact ih hvalid
      · have hrest : toChanges includeMetadataChanges (change :: rest) =
            ⟨changeTypeFor change, change.document.value⟩ ::
              toChanges includeMetadataChanges rest := by
          have hkept : (includeMetadataChanges || decide (change.type ≠ .metadata)) = true := by
            simpa [imp_iff_not_or, or_comm] using hskip
          simp only [toChanges, visibleChanges, List.filter_cons, hkept, if_true, List.map_cons]
        rw [hrest] at hvalid ⊢
        have hfirst := hvalid.valid _ List.mem_cons_self
        obtain ⟨hfound, hat⟩ := applyAt_indexChange hfirst
        have htail := hvalid.tail
        rw [← values_trackChange hfirst] at htail
        obtain ⟨indexed, hindexed, hmap, hfold⟩ := ih htail
        refine ⟨indexChange indexTracker change :: indexed, ?_, ?_, ?_⟩
        · rw [forEachTrackedChange, if_neg hskip,
            if_neg fun hmissing => hfound hmissing.1 hmissing.2, hindexed]
          rfl
        · rw [List.map_cons, hmap]
          rfl
        · rw [List.foldl_cons, List.foldl_cons, hat, ← values_trackChange hfirst, hfold]

omit [LinearOrder ι] in
/-- The loop over the changes of a first snapshot. -/
theorem forEachAddition_replays {changes : List (DocumentViewChange α)} (before : List α)
    (lastDocument : Option (Document α)) (hadded : ∀ change ∈ changes, change.type = .added)
    (hsorted : changes.Pairwise fun first second =>
      K.key first.document.value < K.key second.document.value)
    (hlast : ∀ last, lastDocument = some last → ∀ change ∈ changes,
      K.key last.value < K.key change.document.value) :
    ∃ indexed, forEachAddition K changes before.length lastDocument = .ok indexed ∧
      indexed.map DocumentChange.toChange = toChanges false changes ∧
      indexed.foldl (fun list change => change.applyAt list) before =
        before ++ changes.map fun change => change.document.value := by
  induction changes generalizing before lastDocument with
  | nil => exact ⟨[], rfl, rfl, by simp⟩
  | cons change rest ih =>
      obtain ⟨hfirst, hrest⟩ := List.pairwise_cons.mp hsorted
      have htype := hadded change List.mem_cons_self
      have hordered : (lastDocument.any fun last =>
          !decide (K.key last.value < K.key change.document.value)) = false := by
        cases lastDocument with
        | none => rfl
        | some last => simpa using hlast last rfl change List.mem_cons_self
      obtain ⟨indexed, hindexed, hmap, hfold⟩ := ih
        (before ++ [change.document.value]) (some change.document)
        (fun other hother => hadded other (List.mem_cons_of_mem _ hother)) hrest
        (by rintro last heq other hother; rw [← Option.some.inj heq]; exact hfirst other hother)
      rw [List.length_append, List.length_singleton] at hindexed
      refine ⟨⟨.added, change.document.value, none, some before.length⟩ :: indexed, ?_, ?_, ?_⟩
      · rw [forEachAddition, if_neg (not_not.mpr htype), if_neg (by simp [hordered]), hindexed]
        rfl
      · rw [List.map_cons, hmap]
        simp [toChanges, visibleChanges, htype, changeTypeFor, DocumentChange.toChange]
      · have hat : DocumentChange.applyAt
            ⟨.added, change.document.value, none, some before.length⟩ before =
              before ++ [change.document.value] := by
          simp [DocumentChange.applyAt]
        rw [List.foldl_cons, hat, hfold]
        simp

end ViewSnapshot

/-- Additions are reported in ascending order. -/
theorem Reports.pairwise_lt (hreports : Reports old new changes) :
    changes.Pairwise fun first second => first.type = .added → second.type = .added →
      K.key first.document.value < K.key second.document.value := by
  have hkeys := List.pairwise_map.mp hreports.keys
  refine (hreports.sorted.and hkeys).imp ?_
  rintro first second ⟨hle, hne⟩ hfirst hsecond
  have hkey : K.key first.document.value ≤ K.key second.document.value := by
    rcases Prod.Lex.toLex_le_toLex.mp hle with hlt | ⟨-, hle⟩
    · simp [DocumentViewChange.typePosition, hfirst, hsecond] at hlt
    · exact hle
  exact lt_of_le_of_ne hkey fun heq => hne (K.id_of_key _ _ heq)

/-- The changes from an empty set are additions. -/
theorem Reports.type_eq_added (hreports : Reports old new changes) (hold : old.records = []) :
    ∀ change ∈ changes, change.type = .added := by
  have hnone : ∀ key, old.get key = none := by simp [KeyedSet.get, hold]
  intro change hchange
  have hdescribed := hreports.described change hchange
  rw [hnone] at hdescribed
  obtain ⟨document, type⟩ := change
  cases type with
  | added => rfl
  | removed | modified => exact absurd rfl hdescribed.1
  | metadata => exact absurd hdescribed.1 (by simp)

omit [LinearOrder ι] [LinearOrder κ] in
theorem toChanges_of_added (hadded : ∀ change ∈ changes, change.type = .added) :
    toChanges false changes = changes.map fun change => ⟨.added, change.document.value⟩ := by
  have hvisible : visibleChanges false changes = changes :=
    List.filter_eq_self.mpr fun change hchange => by simp [hadded change hchange]
  rw [toChanges, hvisible]
  refine List.map_congr_left fun change hchange => ?_
  simp [changeTypeFor, hadded change hchange]

/-- `documentChanges` of a snapshot that reports a step: no assertion fails, and by
their indices the changes turn the old list into the new one. -/
theorem forEachChange_replays {snapshot : ViewSnapshot K}
    (hreports : Reports snapshot.oldDocuments snapshot.documents snapshot.documentChanges) :
    ∃ indexed, snapshot.forEachChange false = .ok indexed ∧
      indexed.map DocumentChange.toChange = toChanges false snapshot.documentChanges ∧
      indexed.foldl (fun list change => change.applyAt list) (values snapshot.oldDocuments) =
        values snapshot.documents := by
  have hreplay := hreports.replay false
  simp only [ViewSnapshot.forEachChange, Bool.false_and, Bool.false_eq_true, if_false]
  split
  · rename_i hempty
    have hold : snapshot.oldDocuments.records = [] := by simpa using hempty
    have hvalues : values snapshot.oldDocuments = [] := by simp [values, hold]
    have hadded := hreports.type_eq_added hold
    have hsorted := hreports.pairwise_lt.imp_of_mem fun hfirst hsecond hlt =>
      hlt (hadded _ hfirst) (hadded _ hsecond)
    obtain ⟨indexed, hindexed, hmap, hfold⟩ :=
      ViewSnapshot.forEachAddition_replays [] none hadded hsorted (by simp)
    refine ⟨indexed, hindexed, hmap, ?_⟩
    rw [hvalues, hfold, List.nil_append]
    -- ascending additions are the new list as they stand
    have hordered : K.Ordered
        (snapshot.documentChanges.map fun change => change.document.value) := by
      refine ⟨List.pairwise_map.mpr (hsorted.imp le_of_lt), ?_⟩
      rw [List.map_map]
      exact hreports.keys
    refine hordered.ext (values_ordered _) fun value => ?_
    rw [← hreplay, Keying.mem_foldl_applyChange (hreports.valid false).ids, hvalues]
    simp [toChanges_of_added hadded]
  · obtain ⟨indexed, hindexed, hmap, hfold⟩ :=
      ViewSnapshot.forEachTrackedChange_replays false (hreports.valid false)
    exact ⟨indexed, hindexed, hmap, hfold.trans hreplay⟩

/-! ## What the user of a listener sees -/

/-- The changes of a sequence of snapshots as a user sees them, without indices. -/
def changesOf (events : List (ViewSnapshot K)) : List (List (Change α)) :=
  events.map fun snapshot => toChanges false snapshot.documentChanges

/-- The document changes of a sequence of snapshots lead to the documents, by index
and by key, and within a snapshot the additions ascend. -/
structure Replays (K : Keying α ι κ) (lists : List (List (DocumentChange α)))
    (documents : List α) : Prop where
  byIndex : lists.flatten.foldl (fun list change => change.applyAt list) [] = documents
  byKey : K.replay (lists.map (List.map DocumentChange.toChange)) = documents
  valid : K.ValidReplay (lists.map (List.map DocumentChange.toChange))
  ascending : ∀ changes ∈ lists, (changes.filter fun change => change.type = .added).Pairwise
    fun first second => K.key first.document < K.key second.document

theorem Reports.ascending (hreports : Reports old new changes) :
    ((toChanges false changes).filter fun change => change.type = .added).Pairwise
      fun first second => K.key first.document < K.key second.document := by
  have hsorted := (hreports.visible false).pairwise_lt
  have hadded : ∀ change : DocumentViewChange α, changeTypeFor change = .added →
      change.type = .added := by
    rintro ⟨document, type⟩ htype
    cases type <;> simp_all [changeTypeFor]
  rw [toChanges, List.filter_map, List.pairwise_map]
  refine (hsorted.filter _).imp_of_mem ?_
  intro first second hfirst hsecond hlt
  refine hlt (hadded first ?_) (hadded second ?_)
  · simpa using (List.mem_filter.mp hfirst).2
  · simpa using (List.mem_filter.mp hsecond).2

theorem Told.replays {events : List (ViewSnapshot K)} {documents : List α}
    (htold : Told events documents) :
    ∃ lists, events.mapM (fun snapshot => snapshot.forEachChange false) = .ok lists ∧
      lists.map (List.map DocumentChange.toChange) = changesOf events ∧
      Replays K lists documents := by
  induction htold with
  | nil =>
      refine ⟨[], rfl, rfl, rfl, rfl, ?_, by simp⟩
      intro earlier changes rest hsplit
      simp at hsplit
  | snoc snapshot htold hreports ih =>
      obtain ⟨lists, hlists, hchanges, hreplays⟩ := ih
      obtain ⟨indexed, hindexed, hmap, hfold⟩ := forEachChange_replays hreports
      refine ⟨lists ++ [indexed], ?_, ?_, ?_, ?_, ?_, ?_⟩
      · rw [List.mapM_append, hlists]
        simp [hindexed]
        rfl
      · rw [List.map_append, hchanges]
        simp [changesOf, hmap]
      · rw [List.flatten_append, List.foldl_append, hreplays.byIndex]
        simpa using hfold
      · rw [List.map_append, List.map_singleton, Keying.replay_concat, hreplays.byKey, hmap]
        exact hreports.replay false
      · rw [List.map_append, List.map_singleton]
        refine hreplays.valid.concat ?_
        rw [hreplays.byKey, hmap]
        exact hreports.valid false
      · intro changes hchanges
        rcases List.mem_append.mp hchanges with hchanges | hchanges
        · exact hreplays.ascending changes hchanges
        · rw [List.mem_singleton.mp hchanges]
          have hascending := hreports.ascending
          rw [← hmap, List.filter_map, List.pairwise_map] at hascending
          exact hascending

variable [DecidableEq α] {query : Query α} {allowed : QueryState K → QueryEvent K → Prop}
  {state : QueryState K} {info : QueryListenersInfo K} {view : View K}
  {listener : QueryListener K}

/-- In every run, the document changes that the user of a listener has seen lead to
the documents of the view, once the listener has had its first event. -/
theorem documentChanges_replay
    (hreach : Reaches (QueryState.step query) allowed QueryState.init state)
    (hinfo : state.info = some info) (hview : state.view = some view)
    (hlistener : listener ∈ info.listeners) :
    ∃ lists, listener.events.mapM (fun snapshot => snapshot.forEachChange false) = .ok lists ∧
      if listener.raisedInitialEvent then Replays K lists (values view.documentSet)
      else lists = [] := by
  have hvalid := QueryState.reaches_valid hreach
  simp only [QueryState.Valid, hinfo, hview] at hvalid
  have hfollows := hvalid.listeners listener hlistener
  cases hraised : listener.raisedInitialEvent with
  | true =>
      obtain ⟨lists, hlists, -, hreplays⟩ := (hfollows.told hraised).replays
      exact ⟨lists, hlists, hreplays⟩
  | false =>
      rw [hfollows.waiting hraised]
      exact ⟨[], rfl, rfl⟩

theorem documentChanges_replay_numbers : ∃ (state : QueryState numberKeying)
    (info : QueryListenersInfo numberKeying) (view : View numberKeying)
    (listener : QueryListener numberKeying), state.info = some info ∧ state.view = some view ∧
      listener ∈ info.listeners ∧ listener.raisedInitialEvent = true ∧
      values view.documentSet = [1, 2] ∧
      ∃ lists, listener.events.mapM (fun snapshot => snapshot.forEachChange false) = .ok lists ∧
        Replays numberKeying lists [1, 2] := by
  have hrun : ∃ state, Reaches (QueryState.step numberQuery) (fun _ _ => True) QueryState.init
      state ∧ (state.info.any fun info => info.listeners.any (·.raisedInitialEvent)) = true ∧
        (state.view.any fun view => values view.documentSet = [1, 2]) = true :=
    exists_reaches_of_run numberRun (by decide)
  obtain ⟨state, hreach, hinfo, hview⟩ := hrun
  obtain ⟨info, hinfo, hlisteners⟩ := (Option.any_eq_true _ _).mp hinfo
  obtain ⟨view, hview, hvalues⟩ := (Option.any_eq_true _ _).mp hview
  obtain ⟨listener, hlistener, hraised⟩ := List.any_eq_true.mp hlisteners
  have hvalues : values view.documentSet = [1, 2] := by simpa using hvalues
  obtain ⟨lists, hlists, hreplays⟩ := documentChanges_replay hreach hinfo hview hlistener
  rw [if_pos hraised, hvalues] at hreplays
  exact ⟨state, info, view, listener, hinfo, hview, hlistener, hraised, hvalues, lists, hlists,
    hreplays⟩

end Pompom.Firestore
