import Pompom.Lib.KeyedSet
import Mathlib.Data.Prod.Lex
import Mathlib.Data.Finset.Basic

/-!
# View snapshots

The vendored Firestore client reports a query to its listeners as snapshots: the
documents before and after, and a list of changes between them
(`core/view_snapshot.cc`).  The changes are collected in a
`DocumentViewChangeSet`, which keeps one change for each key and merges a second
change of a key into the first (`addChange`).

A change set *describes* the step between two document sets if every key has the
change that its document went through.  Changes compose: if a change set describes
the step from `old` to `mid`, and one more change the step from `mid` to `new`,
then `addChange` accepts the change, and the merged set describes the step from
`old` to `new` (`addChange_describes`).
-/

namespace Pompom.Firestore

open Lib

/-- `MutableDocument::DocumentState`. -/
inductive DocumentState where
  | hasLocalMutations
  | hasCommittedMutations
  | synced
  deriving DecidableEq, Repr

/-- A document that was found, with its key and fields in `value`. -/
structure Document (α : Type*) where
  value : α
  state : DocumentState
  deriving DecidableEq

inductive ViewChangeType where
  | added
  | removed
  | modified
  | metadata
  deriving DecidableEq, Repr

structure DocumentViewChange (α : Type*) where
  document : Document α
  type : ViewChangeType
  deriving DecidableEq

namespace Document

variable {α : Type*}

def hasLocalMutations (document : Document α) : Bool :=
  document.state = .hasLocalMutations

def hasCommittedMutations (document : Document α) : Bool :=
  document.state = .hasCommittedMutations

end Document

variable {α ι κ : Type*} [LinearOrder ι] [LinearOrder κ]

/-- The documents of a view, sorted by the comparator of its query. -/
abbrev DocumentSet (K : Keying α ι κ) := KeyedSet (K.comap Document.value)

/-- The changes of a change set, sorted by document key. -/
def changeKeying (K : Keying α ι κ) : Keying (DocumentViewChange α) ι ι where
  id change := K.id change.document.value
  key change := K.id change.document.value
  id_of_key _ _ heq := heq

abbrev DocumentViewChangeSet (K : Keying α ι κ) := KeyedSet (changeKeying K)

variable {K : Keying α ι κ}

namespace DocumentViewChangeSet

/-- Merges a change with the change of the same key, if there is one; `none` is
the `HARD_FAIL` on an unsupported combination. -/
def addChange (changes : DocumentViewChangeSet K) (change : DocumentViewChange α) :
    Option (DocumentViewChangeSet K) :=
  let key := K.id change.document.value
  match changes.get key with
  | none => some (changes.insert change)
  | some old =>
      if change.type ≠ .added ∧ old.type = .metadata then
        some (changes.insert change)
      else if change.type = .metadata ∧ old.type ≠ .removed then
        some (changes.insert ⟨change.document, old.type⟩)
      else if change.type = .modified ∧ old.type = .modified then
        some (changes.insert ⟨change.document, .modified⟩)
      else if change.type = .modified ∧ old.type = .added then
        some (changes.insert ⟨change.document, .added⟩)
      else if change.type = .removed ∧ old.type = .added then
        some (changes.erase key)
      else if change.type = .removed ∧ old.type = .modified then
        some (changes.insert ⟨old.document, .removed⟩)
      else if change.type = .added ∧ old.type = .removed then
        some (changes.insert ⟨change.document, .modified⟩)
      else none

end DocumentViewChangeSet

/-- A snapshot of a view; the query is the one of the view. -/
structure ViewSnapshot (K : Keying α ι κ) where
  documents : DocumentSet K
  oldDocuments : DocumentSet K
  documentChanges : List (DocumentViewChange α)
  mutatedKeys : Finset ι
  fromCache : Bool
  syncStateChanged : Bool
  excludesMetadataChanges : Bool

namespace ViewSnapshot

def hasPendingWrites (snapshot : ViewSnapshot K) : Bool :=
  decide (snapshot.mutatedKeys ≠ ∅)

/-- The snapshot in which every document is added. -/
def fromInitialDocuments (documents : DocumentSet K) (mutatedKeys : Finset ι)
    (fromCache excludesMetadataChanges : Bool) : ViewSnapshot K :=
  { documents
    oldDocuments := .empty
    documentChanges := documents.records.map fun document => ⟨document, .added⟩
    mutatedKeys
    fromCache
    syncStateChanged := true
    excludesMetadataChanges }

end ViewSnapshot

/-! ## What a change says -/

/-- The document with the key of a change, before and after. -/
def Describes (change : Option (DocumentViewChange α)) (old new : Option (Document α)) : Prop :=
  match change with
  | none => new = old
  | some ⟨document, .added⟩ => old = none ∧ new = some document
  | some ⟨_, .removed⟩ => old ≠ none ∧ new = none
  | some ⟨document, .modified⟩ => old ≠ none ∧ new = some document
  | some ⟨document, .metadata⟩ => old.map Document.value = some document.value ∧ new = some document

namespace DocumentViewChangeSet

/-- Every key has the change that its document went through. -/
def Describes (changes : DocumentViewChangeSet K) (old new : DocumentSet K) : Prop :=
  ∀ key, Firestore.Describes (changes.get key) (old.get key) (new.get key)

theorem describes_empty (documents : DocumentSet K) :
    Describes (K := K) .empty documents documents :=
  fun _ => rfl

variable {changes : DocumentViewChangeSet K} {old mid new : DocumentSet K}

/-- A change that replaces the change of its key. -/
theorem Describes.insert (hdescribes : changes.Describes old mid) {change : DocumentViewChange α}
    (hkept : ∀ key, key ≠ K.id change.document.value → new.get key = mid.get key)
    (hchange : Firestore.Describes (some change) (old.get (K.id change.document.value))
      (new.get (K.id change.document.value))) :
    Describes (changes.insert change) old new := by
  intro key
  rw [KeyedSet.get_insert]
  split
  · rename_i hkey
    subst hkey
    exact hchange
  · rename_i hkey
    rw [hkept key hkey]
    exact hdescribes key

theorem Describes.erase (hdescribes : changes.Describes old mid) {erased : ι}
    (hkept : ∀ key, key ≠ erased → new.get key = mid.get key)
    (hsame : new.get erased = old.get erased) : Describes (changes.erase erased) old new := by
  intro key
  rw [KeyedSet.get_erase]
  split
  · rename_i hkey
    rw [hkey]
    exact hsame
  · rename_i hkey
    rw [hkept key hkey]
    exact hdescribes key

omit [LinearOrder ι] [LinearOrder κ] in
theorem ne_none_of_map_eq_some {document : Option (Document α)} {value : α}
    (hvalue : document.map Document.value = some value) : document ≠ none := by
  rintro rfl
  simp at hvalue

variable (new) in
/-- A change set followed by a change of one document: the merge succeeds and
describes both steps at once. -/
theorem addChange_describes (hdescribes : changes.Describes old mid)
    {change : DocumentViewChange α}
    (hkept : ∀ key, key ≠ K.id change.document.value → new.get key = mid.get key)
    (hchange : Firestore.Describes (some change) (mid.get (K.id change.document.value))
      (new.get (K.id change.document.value))) :
    ∃ merged, changes.addChange change = some merged ∧ merged.Describes old new := by
  have hfirst := hdescribes (K.id change.document.value)
  cases hget : changes.get (K.id change.document.value) with
  | none =>
      rw [hget] at hfirst
      refine ⟨changes.insert change, by simp [addChange, hget], hdescribes.insert hkept ?_⟩
      rw [← show mid.get _ = _ from hfirst]
      exact hchange
  | some earlier =>
      rw [hget] at hfirst
      have hid : (changeKeying K).id earlier = K.id change.document.value := KeyedSet.id_of_get hget
      obtain ⟨document, type⟩ := change
      obtain ⟨before, earlierType⟩ := earlier
      -- a combination that fails needs the document both there and not there in between
      cases type with
      | added =>
          obtain ⟨hmid, hnew⟩ := hchange
          cases earlierType with
          | added | modified | metadata => exact absurd (hmid.symm.trans hfirst.2) (by simp)
          | removed =>
              refine ⟨changes.insert ⟨document, .modified⟩, by simp [addChange, hget], ?_⟩
              exact hdescribes.insert hkept ⟨hfirst.1, hnew⟩
      | removed =>
          obtain ⟨hmid, hnew⟩ := hchange
          cases earlierType with
          | added =>
              refine ⟨changes.erase (K.id document.value), by simp [addChange, hget], ?_⟩
              exact hdescribes.erase hkept (hnew.trans hfirst.1.symm)
          | removed => exact absurd hfirst.2 hmid
          | modified =>
              refine ⟨changes.insert ⟨before, .removed⟩, by simp [addChange, hget], ?_⟩
              refine hdescribes.insert (fun key hkey => hkept key ?_) ?_
              · exact fun heq => hkey (heq.trans hid.symm)
              · rw [show K.id before.value = K.id document.value from hid]
                exact ⟨hfirst.1, hnew⟩
          | metadata =>
              refine ⟨changes.insert ⟨document, .removed⟩, by simp [addChange, hget], ?_⟩
              exact hdescribes.insert hkept ⟨ne_none_of_map_eq_some hfirst.1, hnew⟩
      | modified =>
          obtain ⟨hmid, hnew⟩ := hchange
          cases earlierType with
          | added =>
              refine ⟨changes.insert ⟨document, .added⟩, by simp [addChange, hget], ?_⟩
              exact hdescribes.insert hkept ⟨hfirst.1, hnew⟩
          | removed => exact absurd hfirst.2 hmid
          | modified =>
              refine ⟨changes.insert ⟨document, .modified⟩, by simp [addChange, hget], ?_⟩
              exact hdescribes.insert hkept ⟨hfirst.1, hnew⟩
          | metadata =>
              refine ⟨changes.insert ⟨document, .modified⟩, by simp [addChange, hget], ?_⟩
              exact hdescribes.insert hkept ⟨ne_none_of_map_eq_some hfirst.1, hnew⟩
      | metadata =>
          obtain ⟨hmid, hnew⟩ := hchange
          cases earlierType with
          | added =>
              refine ⟨changes.insert ⟨document, .added⟩, by simp [addChange, hget], ?_⟩
              exact hdescribes.insert hkept ⟨hfirst.1, hnew⟩
          | removed => exact absurd hfirst.2 (ne_none_of_map_eq_some hmid)
          | modified =>
              refine ⟨changes.insert ⟨document, .modified⟩, by simp [addChange, hget], ?_⟩
              exact hdescribes.insert hkept ⟨hfirst.1, hnew⟩
          | metadata =>
              refine ⟨changes.insert ⟨document, .metadata⟩, by simp [addChange, hget], ?_⟩
              refine hdescribes.insert hkept ⟨?_, hnew⟩
              rw [hfirst.1, ← hmid, hfirst.2]
              rfl

end DocumentViewChangeSet

end Pompom.Firestore
