import Pompom.Lib.Loop
import Pompom.Firestore.PlainTargets
import Pompom.Firestore.WatchSteps

/-!
# What a target has been told to contain

The state of a target has the changes since the last snapshot.  Put on top of the documents
that are shown, they make up its `contents`, as long as they `Fits` these documents.

`Tracked` relates the aggregator to a plain target.  Every operation on a target does to
its plain target what the server says of it, and `Spares` the others, so that the loops of
the aggregator are loops of `foldlM_edits`.
-/

namespace Pompom.Firestore

namespace TargetState

variable {ι : Type} [LinearOrder ι] {state : TargetState ι} {keys : Finset ι}

@[simp] theorem mem_keysOf {type : TargetDocumentChange} {key : ι} :
    key ∈ state.keysOf type ↔ state.documentChanges.lookup key = some type := by
  rw [← Option.mem_def, AList.mem_lookup_iff]
  simp [keysOf]

/-- The documents of a target, given those of the last snapshot. -/
def contents (state : TargetState ι) (keys : Finset ι) : Finset ι :=
  keys \ state.keysOf .removed ∪ state.keysOf .added

/-- The changes are changes of these documents. -/
structure Fits (state : TargetState ι) (keys : Finset ι) : Prop where
  added : Disjoint (state.keysOf .added) keys
  modified : state.keysOf .modified ⊆ keys
  removed : state.keysOf .removed ⊆ keys
  pending : state.documentChanges ≠ ∅ → state.hasPendingChanges = true

theorem Fits.mem_iff (hfits : state.Fits keys) {key : ι} {type : TargetDocumentChange}
    (hchange : state.documentChanges.lookup key = some type) : key ∈ keys ↔ type ≠ .added := by
  cases type with
  | added => simpa using Finset.disjoint_left.mp hfits.added (mem_keysOf.mpr hchange)
  | modified => simpa using hfits.modified (mem_keysOf.mpr hchange)
  | removed => simpa using hfits.removed (mem_keysOf.mpr hchange)

theorem mem_contents {key : ι} :
    key ∈ state.contents keys ↔ key ∈ keys ∧ state.documentChanges.lookup key ≠ some .removed ∨
      state.documentChanges.lookup key = some .added := by
  simp [contents]

/-- The count that an existence filter is compared with. -/
theorem Fits.card_contents (hfits : state.Fits keys) :
    ((state.contents keys).card : ℤ) =
      keys.card + (state.keysOf .added).card - (state.keysOf .removed).card := by
  have hdisjoint : Disjoint (keys \ state.keysOf .removed) (state.keysOf .added) :=
    (hfits.added.mono_right Finset.sdiff_subset).symm
  rw [contents, Finset.card_union_of_disjoint hdisjoint, Finset.card_sdiff_of_subset hfits.removed]
  have hle := Finset.card_le_card hfits.removed
  omega

theorem contents_empty (hempty : state.documentChanges = ∅) : state.contents keys = keys := by
  ext key
  simp [mem_contents, hempty]

theorem fits_empty (hempty : state.documentChanges = ∅) : state.Fits keys where
  added := by
    rw [Finset.disjoint_left]
    intro key hkey
    simp [hempty] at hkey
  modified key hkey := by simp [hempty] at hkey
  removed key hkey := by simp [hempty] at hkey
  pending hne := absurd hempty hne

theorem Fits.congr {other : TargetState ι} (hfits : state.Fits keys)
    (hchanges : other.documentChanges = state.documentChanges)
    (hpending : state.hasPendingChanges = true → other.hasPendingChanges = true) :
    other.Fits keys := by
  have hkeys : ∀ type, other.keysOf type = state.keysOf type := fun type => by
    rw [keysOf, hchanges, keysOf]
  exact ⟨hkeys _ ▸ hfits.added, hkeys _ ▸ hfits.modified, hkeys _ ▸ hfits.removed,
    fun hne => hpending (hfits.pending (hchanges ▸ hne))⟩

theorem contents_congr {other : TargetState ι}
    (hchanges : other.documentChanges = state.documentChanges) :
    other.contents keys = state.contents keys := by
  simp only [contents, keysOf, hchanges]

omit [LinearOrder ι] in
@[simp] theorem documentChanges_updateResumeToken (resumeToken : List UInt8) :
    (state.updateResumeToken resumeToken).documentChanges = state.documentChanges := by
  unfold updateResumeToken
  split <;> rfl

omit [LinearOrder ι] in
@[simp] theorem outstandingResponses_updateResumeToken (resumeToken : List UInt8) :
    (state.updateResumeToken resumeToken).outstandingResponses = state.outstandingResponses := by
  unfold updateResumeToken
  split <;> rfl

omit [LinearOrder ι] in
theorem hasPendingChanges_updateResumeToken (hpending : state.hasPendingChanges = true)
    (resumeToken : List UInt8) :
    (state.updateResumeToken resumeToken).hasPendingChanges = true := by
  unfold updateResumeToken
  split
  · rfl
  · exact hpending

theorem fits_of_lookup (hadded : ∀ key, state.documentChanges.lookup key = some .added → key ∉ keys)
    (hother : ∀ key type, state.documentChanges.lookup key = some type → type ≠ .added →
      key ∈ keys) (hpending : state.hasPendingChanges = true) : state.Fits keys where
  added := Finset.disjoint_left.mpr fun key hkey => hadded key (mem_keysOf.mp hkey)
  modified key hkey := hother key .modified (mem_keysOf.mp hkey) (by decide)
  removed key hkey := hother key .removed (mem_keysOf.mp hkey) (by decide)
  pending _ := hpending

theorem Fits.addDocumentChange (hfits : state.Fits keys) {key : ι} {type : TargetDocumentChange}
    (htype : key ∈ keys ↔ type ≠ .added) : (state.addDocumentChange key type).Fits keys := by
  have hlookup : ∀ other found,
      (state.addDocumentChange key type).documentChanges.lookup other = some found →
        (other ∈ keys ↔ found ≠ .added) := by
    intro other found hfound
    by_cases hsame : other = key
    · subst hsame
      obtain rfl : type = found := by simpa [TargetState.addDocumentChange] using hfound
      exact htype
    · rw [TargetState.addDocumentChange, AList.lookup_insert_ne hsame] at hfound
      exact hfits.mem_iff hfound
  exact fits_of_lookup (fun other hother hmem => (hlookup other _ hother).mp hmem rfl)
    (fun other found hother hne => (hlookup other found hother).mpr hne) rfl

theorem Fits.removeDocumentChange (hfits : state.Fits keys) (key : ι) :
    (state.removeDocumentChange key).Fits keys := by
  have hlookup : ∀ other found,
      (state.removeDocumentChange key).documentChanges.lookup other = some found →
        (other ∈ keys ↔ found ≠ .added) := by
    intro other found hfound
    by_cases hsame : other = key
    · subst hsame
      simp [TargetState.removeDocumentChange] at hfound
    · rw [TargetState.removeDocumentChange, AList.lookup_erase_ne hsame] at hfound
      exact hfits.mem_iff hfound
  exact fits_of_lookup (fun other hother hmem => (hlookup other _ hother).mp hmem rfl)
    (fun other found hother hne => (hlookup other found hother).mpr hne) rfl

/-- A document that is added is in the target, whether it was there before or not. -/
theorem contents_addDocumentChange (key : ι) :
    (state.addDocumentChange key (if key ∈ keys then .modified else .added)).contents keys =
      insert key (state.contents keys) := by
  ext other
  rw [Finset.mem_insert, mem_contents, mem_contents, TargetState.addDocumentChange]
  by_cases hsame : other = key
  · subst hsame
    by_cases hmem : other ∈ keys <;> simp [hmem]
  · simp only [AList.lookup_insert_ne hsame, hsame, false_or]

/-- A document that is removed is not in the target, whether it was there before or not. -/
theorem contents_removeDocumentChange (key : ι) :
    (if key ∈ keys then state.addDocumentChange key .removed
      else state.removeDocumentChange key).contents keys = (state.contents keys).erase key := by
  ext other
  rw [Finset.mem_erase, mem_contents, mem_contents]
  by_cases hsame : other = key
  · subst hsame
    by_cases hmem : other ∈ keys <;>
      simp [hmem, TargetState.addDocumentChange, TargetState.removeDocumentChange]
  · by_cases hmem : key ∈ keys <;>
      simp [hmem, hsame, TargetState.addDocumentChange, TargetState.removeDocumentChange,
        AList.lookup_insert_ne hsame, AList.lookup_erase_ne hsame]

theorem Fits.removeOrAdd (hfits : state.Fits keys) (key : ι) :
    (if key ∈ keys then state.addDocumentChange key .removed
      else state.removeDocumentChange key).Fits keys := by
  split
  · rename_i hmem
    exact hfits.addDocumentChange (by simp [hmem])
  · exact hfits.removeDocumentChange key

/-- What is left of the other changes when a document is removed. -/
theorem lookup_of_removeOrAdd {key other : ι} {type : TargetDocumentChange}
    (hchange : (if key ∈ keys then state.addDocumentChange key .removed
      else state.removeDocumentChange key).documentChanges.lookup other = some type)
    (htype : type ≠ .removed) : state.documentChanges.lookup other = some type := by
  by_cases hsame : other = key
  · subst hsame
    split at hchange
    · exact absurd (by simpa [TargetState.addDocumentChange] using hchange.symm) htype
    · simp [TargetState.removeDocumentChange] at hchange
  · split at hchange
    · rwa [TargetState.addDocumentChange, AList.lookup_insert_ne hsame] at hchange
    · rwa [TargetState.removeDocumentChange, AList.lookup_erase_ne hsame] at hchange

end TargetState

namespace WatchChangeAggregator

open Lib TargetState

variable {τ ι δ : Type} [DecidableEq τ] {aggregator next : WatchChangeAggregator τ ι δ}

@[simp] theorem targetState_setTargetState (targetId : τ) (state : TargetState ι) :
    (aggregator.setTargetState targetId state).targetState targetId = state := by
  simp [setTargetState, targetState]

@[simp] theorem mem_setTargetState (targetId : τ) (state : TargetState ι) :
    targetId ∈ (aggregator.setTargetState targetId state).targetStates := by
  simp [setTargetState]

/-- Nothing has changed for the other targets, except that more documents have been
received. -/
structure Spares (aggregator next : WatchChangeAggregator τ ι δ) (targetId : τ) : Prop where
  states : ∀ other, other ≠ targetId →
    next.targetStates.lookup other = aggregator.targetStates.lookup other
  resets : ∀ other, other ≠ targetId →
    (other ∈ next.pendingTargetResets ↔ other ∈ aggregator.pendingTargetResets)
  updates : ∀ key, key ∈ aggregator.pendingDocumentUpdates → key ∈ next.pendingDocumentUpdates

theorem Spares.refl (aggregator : WatchChangeAggregator τ ι δ) (targetId : τ) :
    aggregator.Spares aggregator targetId :=
  ⟨fun _ _ => rfl, fun _ _ => .rfl, fun _ => id⟩

theorem Spares.trans {last : WatchChangeAggregator τ ι δ} {targetId : τ}
    (hfirst : aggregator.Spares next targetId) (hsecond : next.Spares last targetId) :
    aggregator.Spares last targetId where
  states other hne := (hsecond.states other hne).trans (hfirst.states other hne)
  resets other hne := (hsecond.resets other hne).trans (hfirst.resets other hne)
  updates key hmem := hsecond.updates key (hfirst.updates key hmem)

theorem spares_setTargetState (targetId : τ) (state : TargetState ι) :
    aggregator.Spares (aggregator.setTargetState targetId state) targetId :=
  ⟨fun _ hne => AList.lookup_insert_ne hne, fun _ _ => .rfl, fun _ => id⟩

theorem spares_removeTarget (targetId : τ) :
    aggregator.Spares (aggregator.removeTarget targetId) targetId :=
  ⟨fun _ hne => AList.lookup_erase_ne hne, fun _ _ => .rfl, fun _ => id⟩

/-! ## The aggregator and a plain target -/

variable [LinearOrder ι]

/-- The documents of an active target. -/
structure Holds (aggregator : WatchChangeAggregator τ ι δ) (targetId : τ) (shown told : Finset ι) :
    Prop where
  told : (aggregator.targetState targetId).contents shown = told
  fits : (aggregator.targetState targetId).Fits shown
  updates : ∀ key type, (aggregator.targetState targetId).documentChanges.lookup key = some type →
    type ≠ .removed → key ∈ aggregator.pendingDocumentUpdates

structure Tracked (metadata : TargetMetadata τ ι) (aggregator : WatchChangeAggregator τ ι δ)
    (targetId : τ) (target : PlainTarget ι) : Prop where
  data : metadata.targetData targetId = target.data
  shown : metadata.remoteKeys targetId = target.shown
  outstanding : (aggregator.targetState targetId).outstandingResponses = target.outstanding
  heard : target.heard = true → targetId ∈ aggregator.targetStates
  mismatched : targetId ∈ aggregator.pendingTargetResets ↔ target.mismatched = true
  holds : target.IsActive → aggregator.Holds targetId target.shown target.told

variable {metadata : TargetMetadata τ ι} {targetId : τ} {target : PlainTarget ι}

theorem Tracked.of_spares {other : τ} (htracked : Tracked metadata aggregator other target)
    (hspares : aggregator.Spares next targetId) (hne : other ≠ targetId) :
    Tracked metadata next other target := by
  have hstate : next.targetState other = aggregator.targetState other := by
    rw [targetState, hspares.states other hne, targetState]
  refine ⟨htracked.data, htracked.shown, by rw [hstate, htracked.outstanding], fun hheard => ?_,
    (hspares.resets other hne).trans htracked.mismatched, fun hactive => ?_⟩
  · have hmem := AList.lookup_isSome.mpr (htracked.heard hheard)
    rwa [← hspares.states other hne, AList.lookup_isSome] at hmem
  · obtain ⟨htold, hfits, hupdates⟩ := htracked.holds hactive
    refine ⟨by rw [hstate, htold], hstate ▸ hfits, fun key type hchange htype => ?_⟩
    exact hspares.updates key (hupdates key type (hstate ▸ hchange) htype)

theorem Tracked.of_metadata {other : TargetMetadata τ ι}
    (htracked : Tracked metadata aggregator targetId target)
    (hdata : other.targetData targetId = metadata.targetData targetId)
    (hshown : other.remoteKeys targetId = metadata.remoteKeys targetId) :
    Tracked other aggregator targetId target :=
  ⟨hdata.trans htracked.data, hshown.trans htracked.shown, htracked.outstanding, htracked.heard,
    htracked.mismatched, htracked.holds⟩

theorem editsPart_of_spares {edit : PlainTarget ι → PlainTarget ι}
    (hspares : aggregator.Spares next targetId)
    (hitself : ∀ target, Tracked metadata aggregator targetId target →
      Tracked metadata next targetId (edit target)) :
    EditsPart (Tracked metadata) edit targetId aggregator next :=
  ⟨hitself, fun _ hne _ htracked => htracked.of_spares hspares hne⟩

theorem Tracked.targetDataForActiveTarget (htracked : Tracked metadata aggregator targetId target) :
    aggregator.targetDataForActiveTarget metadata targetId =
      if target.IsActive then target.data else none := by
  have hpending : (aggregator.targetState targetId).IsPending ↔ target.outstanding ≠ 0 := by
    rw [TargetState.IsPending, htracked.outstanding]
  rw [WatchChangeAggregator.targetDataForActiveTarget, htracked.data]
  by_cases hzero : target.outstanding = 0 <;> cases hdata : target.data <;>
    simp [PlainTarget.IsActive, hpending, hzero, hdata]

theorem Tracked.isActive_iff (htracked : Tracked metadata aggregator targetId target) :
    aggregator.IsActiveTarget metadata targetId ↔ target.IsActive := by
  rw [IsActiveTarget, htracked.targetDataForActiveTarget]
  by_cases hactive : target.IsActive
  · simpa [hactive] using hactive.2
  · simp [hactive]

/-- Only the documents of the target have changed. -/
theorem Tracked.retold (htracked : Tracked metadata aggregator targetId target)
    {state : TargetState ι} {told : Finset ι}
    (hlookup : next.targetStates.lookup targetId = some state)
    (houtstanding : state.outstandingResponses =
      (aggregator.targetState targetId).outstandingResponses)
    (hresets : next.pendingTargetResets = aggregator.pendingTargetResets)
    (hholds : target.IsActive → state.contents target.shown = told ∧ state.Fits target.shown ∧
      ∀ key type, state.documentChanges.lookup key = some type → type ≠ .removed →
        key ∈ next.pendingDocumentUpdates) :
    Tracked metadata next targetId { target with told := told } := by
  have hstate : next.targetState targetId = state := by simp [targetState, hlookup]
  refine ⟨htracked.data, htracked.shown, ?_, fun _ => ?_, ?_, fun hactive => ?_⟩
  · rw [hstate, houtstanding, htracked.outstanding]
  · exact AList.lookup_isSome.mp (by simp [hlookup])
  · rw [hresets, htracked.mismatched]
  · obtain ⟨htold, hfits, hupdates⟩ := hholds hactive
    exact ⟨hstate ▸ htold, hstate ▸ hfits, hstate ▸ hupdates⟩

/-! ## Messages about documents -/

theorem spares_addDocumentToTarget (key : ι) (document : MutableDocument δ) :
    aggregator.Spares (aggregator.addDocumentToTarget metadata targetId key document)
      targetId := by
  unfold addDocumentToTarget
  split
  · refine (spares_setTargetState targetId _).trans ⟨fun _ _ => rfl, fun _ _ => .rfl, ?_⟩
    intro other hmem
    exact (AList.mem_insert _).mpr (.inr hmem)
  · exact .refl aggregator targetId

@[simp] theorem removeDocumentFromTarget_targetStates
    (hactive : aggregator.IsActiveTarget metadata targetId) (key : ι)
    (updated : Option (MutableDocument δ)) :
    (aggregator.removeDocumentFromTarget metadata targetId key updated).targetStates =
      aggregator.targetStates.insert targetId (if key ∈ metadata.remoteKeys targetId
        then (aggregator.targetState targetId).addDocumentChange key .removed
        else (aggregator.targetState targetId).removeDocumentChange key) := by
  rw [removeDocumentFromTarget, if_pos hactive]
  cases updated <;> rfl

@[simp] theorem removeDocumentFromTarget_pendingTargetResets (key : ι)
    (updated : Option (MutableDocument δ)) :
    (aggregator.removeDocumentFromTarget metadata targetId key updated).pendingTargetResets =
      aggregator.pendingTargetResets := by
  unfold removeDocumentFromTarget
  split
  · cases updated <;> rfl
  · rfl

theorem mem_removeDocumentFromTarget {other : ι}
    (hmem : other ∈ aggregator.pendingDocumentUpdates) (key : ι)
    (updated : Option (MutableDocument δ)) : other ∈
      (aggregator.removeDocumentFromTarget metadata targetId key
        updated).pendingDocumentUpdates := by
  unfold removeDocumentFromTarget
  split
  · cases updated with
    | none => exact hmem
    | some document => exact (AList.mem_insert _).mpr (.inr hmem)
  · exact hmem

theorem spares_removeDocumentFromTarget (key : ι) (updated : Option (MutableDocument δ)) :
    aggregator.Spares (aggregator.removeDocumentFromTarget metadata targetId key updated)
      targetId where
  states other hne := by
    by_cases hactive : aggregator.IsActiveTarget metadata targetId
    · rw [removeDocumentFromTarget_targetStates hactive, AList.lookup_insert_ne hne]
    · rw [removeDocumentFromTarget, if_neg hactive]
  resets other _ := by rw [removeDocumentFromTarget_pendingTargetResets]
  updates other hmem := mem_removeDocumentFromTarget hmem key updated

theorem edits_addDocumentToTarget (key : ι) (document : MutableDocument δ) :
    EditsPart (Tracked metadata) (.add key) targetId aggregator
      (aggregator.addDocumentToTarget metadata targetId key document) := by
  refine editsPart_of_spares (spares_addDocumentToTarget key document) fun target htracked => ?_
  -- whether the change counts as added or modified depends on what is shown
  unfold addDocumentToTarget PlainTarget.add PlainTarget.say
  by_cases hactive : target.IsActive
  · rw [if_pos (htracked.isActive_iff.mpr hactive), if_pos hactive]
    refine htracked.retold (AList.lookup_insert _) rfl rfl fun _ => ?_
    obtain ⟨htold, hfits, hupdates⟩ := htracked.holds hactive
    rw [htracked.shown]
    refine ⟨by rw [contents_addDocumentChange, htold], hfits.addDocumentChange ?_, ?_⟩
    · by_cases hmem : key ∈ target.shown <;> simp [hmem]
    · intro other type hchange htype
      refine (AList.mem_insert _).mpr ?_
      by_cases hsame : other = key
      · exact .inl hsame
      · rw [TargetState.addDocumentChange, AList.lookup_insert_ne hsame] at hchange
        exact .inr (hupdates other type hchange htype)
  · rwa [if_neg (mt htracked.isActive_iff.mp hactive), if_neg hactive]

theorem edits_removeDocumentFromTarget (key : ι) (updated : Option (MutableDocument δ)) :
    EditsPart (Tracked metadata) (.remove key) targetId aggregator
      (aggregator.removeDocumentFromTarget metadata targetId key updated) := by
  refine editsPart_of_spares (spares_removeDocumentFromTarget key updated)
    fun target htracked => ?_
  unfold PlainTarget.remove PlainTarget.say
  by_cases hactive : target.IsActive
  · rw [if_pos hactive]
    have hlookup := congrArg (AList.lookup targetId) (removeDocumentFromTarget_targetStates
      (htracked.isActive_iff.mpr hactive) key updated)
    rw [AList.lookup_insert] at hlookup
    refine htracked.retold hlookup (by split <;> rfl) (by simp) fun _ => ?_
    obtain ⟨htold, hfits, hupdates⟩ := htracked.holds hactive
    rw [htracked.shown, contents_removeDocumentChange, htold]
    refine ⟨rfl, hfits.removeOrAdd key, fun other type hchange htype => ?_⟩
    refine mem_removeDocumentFromTarget (hupdates other type ?_ htype) key updated
    exact lookup_of_removeOrAdd hchange htype
  · rwa [removeDocumentFromTarget, if_neg (mt htracked.isActive_iff.mp hactive), if_neg hactive]

theorem Tracked.handleDocumentChange (htracked : Tracked metadata aggregator targetId target)
    (change : DocumentWatchChange τ ι δ) :
    Tracked metadata (aggregator.handleDocumentChange metadata change) targetId
      ((PlainTarget.remove change.documentKey)^[change.removedTargetIds.count targetId]
        ((PlainTarget.update change.documentKey
          change.newDocument)^[change.updatedTargetIds.count targetId] target)) := by
  refine foldl_edits (fun aggregator targetId => edits_removeDocumentFromTarget _ _) _
    (foldl_edits (fun aggregator targetId => ?_) _ htracked)
  unfold updateTarget
  rcases change.newDocument with - | data | -
  · exact .refl targetId aggregator
  · exact edits_addDocumentToTarget _ _
  · exact edits_removeDocumentFromTarget _ _

/-! ## Messages about targets -/

theorem edits_setTargetState {state : TargetState ι}
    (hchanges : state.documentChanges = (aggregator.targetState targetId).documentChanges)
    (houtstanding : state.outstandingResponses =
      (aggregator.targetState targetId).outstandingResponses)
    (hpending : (aggregator.targetState targetId).hasPendingChanges = true →
      state.hasPendingChanges = true) :
    EditsPart (Tracked metadata) id targetId aggregator
      (aggregator.setTargetState targetId state) := by
  refine editsPart_of_spares (spares_setTargetState targetId state) fun target htracked => ?_
  refine htracked.retold (AList.lookup_insert _) houtstanding rfl fun hactive => ?_
  obtain ⟨htold, hfits, hupdates⟩ := htracked.holds hactive
  exact ⟨(contents_congr hchanges).trans htold, hfits.congr hchanges hpending,
    fun key type hchange => hupdates key type (hchanges ▸ hchange)⟩

theorem edits_ensureTargetState :
    EditsPart (Tracked metadata) id targetId aggregator (aggregator.ensureTargetState targetId) :=
  edits_setTargetState rfl rfl id

theorem Tracked.answer (htracked : Tracked metadata aggregator targetId target) (removed : Bool)
    (houtstanding : (next.targetState targetId).outstandingResponses = target.outstanding - 1)
    (hheard : (target.outstanding - 1 = 0 → removed = false) → targetId ∈ next.targetStates)
    (hresets : next.pendingTargetResets = aggregator.pendingTargetResets)
    (hempty : target.outstanding - 1 = 0 → (next.targetState targetId).documentChanges = ∅) :
    Tracked metadata next targetId (target.answer removed) := by
  have hmismatched : targetId ∈ next.pendingTargetResets ↔ target.mismatched = true := by
    rw [hresets, htracked.mismatched]
  simp only [PlainTarget.answer]
  split
  · rename_i hzero
    refine ⟨htracked.data, htracked.shown, houtstanding, fun hboth => ?_, hmismatched, fun _ => ?_⟩
    · rw [Bool.and_eq_true, Bool.not_eq_true'] at hboth
      exact hheard fun _ => hboth.2
    · refine ⟨contents_empty (hempty hzero), fits_empty (hempty hzero), fun key type hchange => ?_⟩
      simp [hempty hzero] at hchange
  · rename_i hzero
    exact ⟨htracked.data, htracked.shown, houtstanding, fun _ => hheard fun h => absurd h hzero,
      hmismatched, fun hactive => absurd hactive.1 hzero⟩

theorem edits_removeAll (keys : List ι) :
    EditsPart (Tracked metadata) (.say (· \ keys.toFinset)) targetId aggregator
      (keys.foldl (fun aggregator key =>
        aggregator.removeDocumentFromTarget metadata targetId key none) aggregator) := by
  induction keys generalizing aggregator with
  | nil =>
      refine (EditsPart.refl targetId aggregator).congr fun target _ => ?_
      simp [PlainTarget.say]
  | cons key keys ih =>
      refine ((edits_removeDocumentFromTarget key none).trans ih).congr fun target _ => ?_
      rw [Function.comp_apply, PlainTarget.remove, PlainTarget.say_say]
      congr 1
      ext told other
      simp [not_or, and_assoc, and_left_comm]

theorem exists_resetTarget (hmem : targetId ∈ aggregator.targetStates)
    (hactive : aggregator.IsActiveTarget metadata targetId) :
    ∃ next, aggregator.resetTarget metadata targetId = .ok next ∧
      EditsPart (Tracked metadata) .reset targetId aggregator next := by
  obtain ⟨state, hstate⟩ := Option.isSome_iff_exists.mp (AList.lookup_isSome.mpr hmem)
  have hsame : aggregator.targetState targetId = state := by simp [targetState, hstate]
  have hpending : ¬ state.IsPending := by
    intro hpending
    rw [IsActiveTarget, WatchChangeAggregator.targetDataForActiveTarget, hsame,
      if_pos hpending] at hactive
    simp at hactive
  have hassert : ((aggregator.targetStates.lookup targetId).any
      fun state => ¬ state.IsPending) = true := by
    simp [hstate, hpending]
  refine ⟨_, by rw [resetTarget, hardAssert_of hassert, ok_bind]; rfl, ?_⟩
  -- the new state has no changes, and then everything that is shown is removed
  have hnew : EditsPart (Tracked metadata) (fun target => if target.IsActive
      then { target with told := target.shown } else target) targetId aggregator
        (aggregator.setTargetState targetId {}) := by
    refine editsPart_of_spares (spares_setTargetState targetId _) fun target htracked => ?_
    have htarget := htracked.isActive_iff.mp hactive
    rw [if_pos htarget]
    refine htracked.retold (AList.lookup_insert _) ?_ rfl fun _ => ?_
    · rw [htracked.outstanding, htarget.1]
    · exact ⟨contents_empty rfl, fits_empty rfl, fun key type hchange => by simp at hchange⟩
  refine (hnew.trans (edits_removeAll _)).congr fun target htracked => ?_
  have htarget := htracked.isActive_iff.mp hactive
  have hshown : ({ target with told := target.shown } : PlainTarget ι).IsActive := htarget
  simp [htarget, hshown, PlainTarget.reset, PlainTarget.say, htracked.shown]

omit [LinearOrder ι] in
theorem isActiveTarget_ensureTargetState :
    (aggregator.ensureTargetState targetId).IsActiveTarget metadata targetId ↔
      aggregator.IsActiveTarget metadata targetId := by
  simp [IsActiveTarget, WatchChangeAggregator.targetDataForActiveTarget, ensureTargetState]

omit [LinearOrder ι] in
theorem answered_added (state : TargetState ι) :
    (if state.IsPending then state else state.clearPendingChanges).outstandingResponses =
        state.outstandingResponses ∧
      (state.outstandingResponses = 0 →
        (if state.IsPending then state else state.clearPendingChanges).documentChanges = ∅) := by
  by_cases hpending : state.IsPending
  · rw [if_pos hpending]
    exact ⟨rfl, fun hzero => absurd hzero hpending⟩
  · rw [if_neg hpending]
    exact ⟨rfl, fun _ => rfl⟩

theorem edits_recordTargetResponse_added (resumeToken : List UInt8) :
    EditsPart (Tracked metadata) (.answer false) targetId aggregator
      (aggregator.setTargetState targetId
        (TargetState.updateResumeToken
          (if (aggregator.targetState targetId).recordTargetResponse.IsPending
            then (aggregator.targetState targetId).recordTargetResponse
            else (aggregator.targetState targetId).recordTargetResponse.clearPendingChanges)
          resumeToken)) := by
  refine editsPart_of_spares (spares_setTargetState targetId _) fun target htracked => ?_
  obtain ⟨houtstanding, hempty⟩ :=
    answered_added (aggregator.targetState targetId).recordTargetResponse
  have hminus : (aggregator.targetState targetId).recordTargetResponse.outstandingResponses =
      target.outstanding - 1 := by
    rw [TargetState.recordTargetResponse, htracked.outstanding]
  refine htracked.answer false ?_ (fun _ => mem_setTargetState targetId _) rfl fun hzero => ?_
  · rw [targetState_setTargetState, outstandingResponses_updateResumeToken, houtstanding, hminus]
  · rw [targetState_setTargetState, documentChanges_updateResumeToken,
      hempty (hminus.trans hzero)]

theorem edits_recordTargetResponse_removed :
    EditsPart (Tracked metadata) (.answer true) targetId aggregator
      (if (aggregator.targetState targetId).recordTargetResponse.IsPending
        then aggregator.setTargetState targetId
          (aggregator.targetState targetId).recordTargetResponse
        else (aggregator.setTargetState targetId
          (aggregator.targetState targetId).recordTargetResponse).removeTarget targetId) := by
  have hminus : ∀ target, Tracked metadata aggregator targetId target →
      (aggregator.targetState targetId).recordTargetResponse.outstandingResponses =
        target.outstanding - 1 := by
    intro target htracked
    rw [TargetState.recordTargetResponse, htracked.outstanding]
  split
  · rename_i hpending
    refine editsPart_of_spares (spares_setTargetState targetId _) fun target htracked => ?_
    refine htracked.answer true ?_ (fun _ => mem_setTargetState targetId _) rfl fun hzero => ?_
    · rw [targetState_setTargetState, hminus target htracked]
    · exact absurd ((hminus target htracked).trans hzero) hpending
  · rename_i hpending
    have hzero := not_not.mp hpending
    refine editsPart_of_spares ((spares_setTargetState targetId _).trans
      (spares_removeTarget targetId)) fun target htracked => ?_
    have hnew : ((aggregator.setTargetState targetId
        (aggregator.targetState targetId).recordTargetResponse).removeTarget
          targetId).targetState targetId = {} := by
      simp [removeTarget, targetState]
    have hlast : target.outstanding - 1 = 0 := (hminus target htracked).symm.trans hzero
    refine htracked.answer true ?_ (fun hnot => ?_) rfl fun _ => by rw [hnew]
    · rw [hnew, hlast]
    · exact absurd (hnot hlast) (by decide)

theorem exists_changeTarget (metadata : TargetMetadata τ ι) (change : WatchTargetChange τ)
    (hcause : change.state = .removed → change.causeOk = true)
    (aggregator : WatchChangeAggregator τ ι δ) (targetId : τ) :
    ∃ next, aggregator.changeTarget metadata change targetId = .ok next ∧
      EditsPart (Tracked metadata) (.said change.state) targetId aggregator next := by
  have hensure : EditsPart (Tracked metadata) id targetId aggregator
      (aggregator.ensureTargetState targetId) := edits_ensureTargetState
  have hmem : targetId ∈ (aggregator.ensureTargetState targetId).targetStates :=
    mem_setTargetState targetId _
  cases hstate : change.state with
  | noChange =>
      simp only [changeTarget, hstate]
      split
      · exact ⟨_, rfl, hensure.trans (edits_setTargetState (by simp) (by simp)
          (hasPendingChanges_updateResumeToken · _))⟩
      · exact ⟨_, rfl, hensure⟩
  | current =>
      simp only [changeTarget, hstate]
      split
      · exact ⟨_, rfl, hensure.trans (edits_setTargetState (by simp; rfl) (by simp; rfl)
          fun _ => hasPendingChanges_updateResumeToken rfl _)⟩
      · exact ⟨_, rfl, hensure⟩
  | added =>
      simp only [changeTarget, hstate]
      exact ⟨_, rfl, hensure.trans (edits_recordTargetResponse_added _)⟩
  | removed =>
      simp only [changeTarget, hstate, hardAssert_of (hcause hstate), ok_bind]
      exact ⟨_, rfl, hensure.trans edits_recordTargetResponse_removed⟩
  | reset =>
      simp only [changeTarget, hstate]
      split
      · rename_i hactive
        obtain ⟨next, hnext, hedits⟩ := exists_resetTarget hmem hactive
        have htoken : EditsPart (Tracked metadata) id targetId next (next.setTargetState targetId
            ((next.targetState targetId).updateResumeToken change.resumeToken)) :=
          edits_setTargetState (by simp) (by simp) (hasPendingChanges_updateResumeToken · _)
        exact ⟨_, by rw [hnext, ok_bind]; rfl, (hensure.trans hedits).trans htoken⟩
      · rename_i hactive
        -- a target that nobody listens to has no documents to lose
        refine ⟨_, rfl, hensure.congr fun target htracked => ?_⟩
        rw [isActiveTarget_ensureTargetState, htracked.isActive_iff] at hactive
        simp [PlainTarget.said, PlainTarget.reset, PlainTarget.say, hactive]

/-- A message that names no targets is about the active ones that have a state. -/
theorem exists_handleTargetChange (metadata : TargetMetadata τ ι)
    (aggregator : WatchChangeAggregator τ ι δ) (change : WatchTargetChange τ)
    (hcause : change.state = .removed → change.causeOk = true)
    (hnamed : change.targetIds = [] → change.state ≠ .added ∧ change.state ≠ .removed) :
    ∃ next, aggregator.handleTargetChange metadata change = .ok next ∧
      ∀ targetId target, Tracked metadata aggregator targetId target →
        (target.IsActive → target.heard = true) → Tracked metadata next targetId
          (if change.targetIds ≠ [] then
            (PlainTarget.said change.state)^[change.targetIds.count targetId] target
          else target.said change.state) := by
  obtain ⟨next, hnext, hparts⟩ := foldlM_edits (exists_changeTarget metadata change hcause)
    (aggregator.getTargetIds metadata change) aggregator
  refine ⟨next, hnext, fun targetId target htracked hheard => ?_⟩
  have hpart := hparts targetId target htracked
  by_cases hempty : change.targetIds = []
  · rw [if_neg (not_not.mpr hempty)]
    rw [getTargetIds, if_neg (not_not.mpr hempty)] at hpart
    -- the active targets are named once each, and nothing can be said of the others
    by_cases hactive : target.IsActive
    · have hmem : targetId ∈ aggregator.targetStates.keys.filter fun targetId =>
          aggregator.IsActiveTarget metadata targetId :=
        List.mem_filter.mpr ⟨AList.mem_keys.mp (htracked.heard (hheard hactive)),
          decide_eq_true (htracked.isActive_iff.mpr hactive)⟩
      rwa [List.count_eq_one_of_mem (aggregator.targetStates.keys_nodup.filter _) hmem] at hpart
    · have hnotMem : targetId ∉ aggregator.targetStates.keys.filter fun targetId =>
          aggregator.IsActiveTarget metadata targetId := fun hmem =>
        hactive (htracked.isActive_iff.mp (of_decide_eq_true (List.mem_filter.mp hmem).2))
      rw [List.count_eq_zero_of_not_mem hnotMem] at hpart
      rwa [PlainTarget.said_of_not_isActive hactive (hnamed hempty)]
  · rw [if_pos hempty]
    rwa [getTargetIds, if_pos hempty] at hpart

/-! ## Existence filters -/

theorem Tracked.of_targetData (htracked : Tracked metadata aggregator targetId target)
    {data : TargetData ι}
    (hdata : aggregator.targetDataForActiveTarget metadata targetId = some data) :
    target.IsActive ∧ target.data = some data := by
  rw [htracked.targetDataForActiveTarget] at hdata
  simpa using hdata

theorem Holds.card_told {shown told : Finset ι} (hholds : aggregator.Holds targetId shown told)
    (hshown : metadata.remoteKeys targetId = shown) :
    aggregator.getCurrentDocumentCountForTarget metadata targetId = told.card := by
  rw [← hholds.told, hholds.fits.card_contents, getCurrentDocumentCountForTarget, hshown]
  rfl

theorem edits_filter_query {key : ι} {data : TargetData ι}
    (hdata : aggregator.targetDataForActiveTarget metadata targetId = some data)
    (hquery : data.documentQuery = some key) {count : ℤ} (hcount : count = 0 ∨ count = 1) :
    ∃ next, aggregator.handleExistenceFilter metadata targetId count = .ok next ∧
      EditsPart (Tracked metadata) (.filter count) targetId aggregator next := by
  unfold handleExistenceFilter
  rw [hdata]
  simp only [hquery]
  rcases hcount with rfl | rfl
  · refine ⟨_, rfl, (edits_removeDocumentFromTarget key _).congr fun target htracked => ?_⟩
    obtain ⟨hactive, htarget⟩ := htracked.of_targetData hdata
    simp [PlainTarget.filter, hactive, htarget, hquery]
  · refine ⟨_, by rw [if_neg one_ne_zero, hardAssert_of rfl, ok_bind]; rfl,
      (EditsPart.refl targetId aggregator).congr fun target htracked => ?_⟩
    obtain ⟨hactive, htarget⟩ := htracked.of_targetData hdata
    simp [PlainTarget.filter, hactive, htarget, hquery]

theorem edits_filter_collection {data : TargetData ι}
    (hdata : aggregator.targetDataForActiveTarget metadata targetId = some data)
    (hquery : data.documentQuery = none) (count : ℤ) :
    ∃ next, aggregator.handleExistenceFilter metadata targetId count = .ok next ∧
      EditsPart (Tracked metadata) (.filter count) targetId aggregator next := by
  have hensure : EditsPart (Tracked metadata) id targetId aggregator
      (aggregator.ensureTargetState targetId) := edits_ensureTargetState
  have hmem : targetId ∈ (aggregator.ensureTargetState targetId).targetStates :=
    mem_setTargetState targetId _
  have hactive : (aggregator.ensureTargetState targetId).IsActiveTarget metadata targetId := by
    rw [isActiveTarget_ensureTargetState, IsActiveTarget, hdata]
    rfl
  -- the count that is compared is that of the plain target
  have htold : ∀ target, Tracked metadata aggregator targetId target → target.IsActive →
      (aggregator.ensureTargetState targetId).getCurrentDocumentCountForTarget metadata targetId =
        target.told.card := by
    intro target htracked htarget
    have hensured := hensure.itself target htracked
    exact (hensured.holds htarget).card_told hensured.shown
  unfold handleExistenceFilter
  rw [hdata]
  simp only [hquery]
  split
  · rename_i hcount
    obtain ⟨next, hnext, hreset⟩ := exists_resetTarget hmem hactive
    have hmark : EditsPart (Tracked metadata) (fun target => { target with mismatched := true })
        targetId next { next with
          pendingTargetResets := insert targetId next.pendingTargetResets } := by
      refine editsPart_of_spares ⟨fun _ _ => rfl, fun other hne => by simp [hne], fun _ => id⟩
        fun target htracked => ⟨htracked.data, htracked.shown, htracked.outstanding,
          htracked.heard, by simp, fun htarget => ?_⟩
      obtain ⟨htold, hfits, hupdates⟩ := htracked.holds htarget
      exact ⟨htold, hfits, hupdates⟩
    refine ⟨_, by rw [hnext, ok_bind]; rfl, ((hensure.trans hreset).trans hmark).congr
      fun target htracked => ?_⟩
    obtain ⟨htarget, hsome⟩ := htracked.of_targetData hdata
    rw [htold target htracked htarget] at hcount
    simp [PlainTarget.filter, htarget, hsome, hquery, hcount]
  · rename_i hcount
    refine ⟨_, rfl, hensure.congr fun target htracked => ?_⟩
    obtain ⟨htarget, hsome⟩ := htracked.of_targetData hdata
    rw [htold target htracked htarget] at hcount
    simp [PlainTarget.filter, htarget, hsome, hquery, not_not.mp hcount]

/-- An existence filter is handled, unless it counts the documents of a query for one
document wrongly. -/
theorem Tracked.handleExistenceFilter (htracked : Tracked metadata aggregator targetId target)
    (count : ℤ) :
    if target.Miscounts count then
      aggregator.handleExistenceFilter metadata targetId count = .error .documentFilterCount
    else ∃ next, aggregator.handleExistenceFilter metadata targetId count = .ok next ∧
      EditsPart (Tracked metadata) (.filter count) targetId aggregator next := by
  have htargetData := htracked.targetDataForActiveTarget
  cases hdata : aggregator.targetDataForActiveTarget metadata targetId with
  | none =>
      have hinactive : ∀ other, Tracked metadata aggregator targetId other → ¬ other.IsActive := by
        intro other hother hactive
        rw [hother.targetDataForActiveTarget, if_pos hactive] at hdata
        simpa [hdata] using hactive.2
      rw [if_neg fun hmiscounts => hinactive target htracked hmiscounts.1]
      refine ⟨aggregator, by rw [WatchChangeAggregator.handleExistenceFilter, hdata],
        (EditsPart.refl targetId aggregator).congr fun other hother => ?_⟩
      simp [PlainTarget.filter, hinactive other hother]
  | some data =>
      obtain ⟨hactive, hsome⟩ := htracked.of_targetData hdata
      cases hquery : data.documentQuery with
      | none =>
          rw [if_neg (by simp [PlainTarget.Miscounts, hsome, hquery])]
          exact edits_filter_collection hdata hquery count
      | some key =>
          by_cases hcount : count = 0 ∨ count = 1
          · rw [if_neg fun hmiscounts => hmiscounts.2.2 hcount]
            exact edits_filter_query hdata hquery hcount
          · rw [if_pos ⟨hactive, by simp [hsome, hquery], hcount⟩,
              WatchChangeAggregator.handleExistenceFilter, hdata]
            rw [not_or] at hcount
            simp [hquery, hcount]

end WatchChangeAggregator

end Pompom.Firestore
