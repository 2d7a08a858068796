import Pompom.Firestore.DocumentUpdates

/-!
# What a remote event says

`createRemoteEvent` goes over the states of the targets.  An active target is `Settled`
afterwards: it has no changes left, and if it has a report, then that says exactly how what
has been told differs from what is shown.
-/

namespace Pompom.Firestore

open Lib

namespace TargetState

variable {ι : Type} [LinearOrder ι] {state : TargetState ι} {keys : Finset ι}

theorem Fits.keysOf_added (hfits : state.Fits keys) :
    state.keysOf .added = state.contents keys \ keys := by
  ext key
  rw [Finset.mem_sdiff, mem_contents, mem_keysOf]
  constructor
  · intro hadded
    exact ⟨.inr hadded, fun hmem => (hfits.mem_iff hadded).mp hmem rfl⟩
  · rintro ⟨⟨hmem, -⟩ | hadded, hnotMem⟩
    · exact absurd hmem hnotMem
    · exact hadded

theorem Fits.keysOf_removed (hfits : state.Fits keys) :
    state.keysOf .removed = keys \ state.contents keys := by
  ext key
  rw [Finset.mem_sdiff, mem_contents, mem_keysOf]
  constructor
  · intro hremoved
    exact ⟨(hfits.mem_iff hremoved).mpr (by decide), by simp [hremoved]⟩
  · rintro ⟨hmem, hnot⟩
    rw [not_or, not_and, not_not] at hnot
    exact hnot.1 hmem

theorem Fits.keysOf_modified (hfits : state.Fits keys) :
    state.keysOf .modified ⊆ state.contents keys ∩ keys := by
  intro key hkey
  rw [mem_keysOf] at hkey
  have hmem := (hfits.mem_iff hkey).mpr (by decide)
  exact Finset.mem_inter.mpr ⟨mem_contents.mpr (.inl ⟨hmem, by simp [hkey]⟩), hmem⟩

end TargetState

variable {τ ι δ : Type} [DecidableEq τ] [LinearOrder ι]

/-- A report of the difference between what has been told and what is shown, of documents
of which there is news. -/
structure PlainTarget.Reports (target : PlainTarget ι) (news : ι → Option (MutableDocument δ))
    (report : TargetReport ι) : Prop where
  active : target.IsActive
  added : report.addedDocuments = target.told \ target.shown
  removed : report.removedDocuments = target.shown \ target.told
  modified : report.modifiedDocuments ⊆ target.told ∩ target.shown
  news : ∀ key ∈ report.addedDocuments ∪ report.modifiedDocuments, (news key).isSome = true

namespace WatchChangeAggregator

variable {aggregator next : WatchChangeAggregator τ ι δ} {metadata : TargetMetadata τ ι}
  {targetId : τ} {target : PlainTarget ι} {news : ι → Option (MutableDocument δ)}
  {collected : WatchChangeAggregator τ ι δ × List (τ × TargetReport ι)}

/-- The delete of a document that was queried and not found changes nothing for the
target, which does not contain the document. -/
theorem edits_deleteQueried (key : ι) :
    EditsPart (Tracked metadata) id targetId aggregator
      (aggregator.deleteQueried metadata targetId key) := by
  unfold deleteQueried
  split
  · rename_i hmissing
    obtain ⟨-, hupdate, hkey⟩ := hmissing
    refine (edits_removeDocumentFromTarget key _).congr fun target htracked => ?_
    unfold PlainTarget.remove PlainTarget.say
    split
    · rename_i hactive
      obtain ⟨htold, -, hupdates⟩ := htracked.holds hactive
      rw [htracked.shown] at hkey
      have hnotMem : key ∉ target.told := by
        rw [← htold, TargetState.mem_contents, not_or]
        refine ⟨fun hmem => hkey hmem.1, fun hadded => ?_⟩
        exact AList.lookup_eq_none.mp hupdate (hupdates key _ hadded (by decide))
      simp [Finset.erase_eq_of_notMem hnotMem]
    · rfl
  · exact .refl targetId aggregator

/-- There is news of the documents that have been added to a target or modified. -/
def Covers (news : ι → Option (MutableDocument δ)) (aggregator : WatchChangeAggregator τ ι δ)
    (targetId : τ) : Prop :=
  ∀ key type, (aggregator.targetState targetId).documentChanges.lookup key = some type →
    type ≠ .removed → (news key).isSome = true

structure Unreported (metadata : TargetMetadata τ ι) (news : ι → Option (MutableDocument δ))
    (collected : WatchChangeAggregator τ ι δ × List (τ × TargetReport ι)) (targetId : τ)
    (target : PlainTarget ι) : Prop where
  tracked : Tracked metadata collected.1 targetId target
  silent : ∀ report, (targetId, report) ∉ collected.2
  covers : target.IsActive → Covers news collected.1 targetId

structure Settled (metadata : TargetMetadata τ ι) (news : ι → Option (MutableDocument δ))
    (collected : WatchChangeAggregator τ ι δ × List (τ × TargetReport ι)) (targetId : τ)
    (target : PlainTarget ι) : Prop where
  tracked : Tracked metadata collected.1 targetId (target.say fun _ => target.shown)
  changes : target.IsActive → (collected.1.targetState targetId).documentChanges = ∅
  reports : ∀ report, (targetId, report) ∈ collected.2 → target.Reports news report
  silent : (∀ report, (targetId, report) ∉ collected.2) → target.IsActive →
    target.told = target.shown

/-- A target that has no changes needs no report. -/
theorem Unreported.settled (hunreported : Unreported metadata news collected targetId target)
    (hchanges : target.IsActive → (collected.1.targetState targetId).documentChanges = ∅) :
    Settled metadata news collected targetId target := by
  obtain ⟨htracked, hnone, -⟩ := hunreported
  have hsame : target.IsActive → target.told = target.shown := fun hactive =>
    (htracked.holds hactive).told.symm.trans (TargetState.contents_empty (hchanges hactive))
  refine ⟨?_, hchanges, fun report hmem => absurd hmem (hnone report), fun _ => hsame⟩
  rwa [PlainTarget.say_shown hsame]

theorem Unreported.others {later : WatchChangeAggregator τ ι δ × List (τ × TargetReport ι)}
    {other : τ} (hunreported : Unreported metadata news collected other target)
    (hspares : collected.1.Spares later.1 targetId) (hne : other ≠ targetId)
    (hreports : ∀ report, (other, report) ∈ later.2 ↔ (other, report) ∈ collected.2) :
    Unreported metadata news later other target where
  tracked := hunreported.tracked.of_spares hspares hne
  silent report hmem := hunreported.silent report ((hreports report).mp hmem)
  covers hactive := by
    rw [Covers, targetState, hspares.states other hne]
    exact hunreported.covers hactive

theorem Settled.others {later : WatchChangeAggregator τ ι δ × List (τ × TargetReport ι)}
    {other : τ} (hsettled : Settled metadata news collected other target)
    (hspares : collected.1.Spares later.1 targetId) (hne : other ≠ targetId)
    (hreports : ∀ report, (other, report) ∈ later.2 ↔ (other, report) ∈ collected.2) :
    Settled metadata news later other target where
  tracked := hsettled.tracked.of_spares hspares hne
  changes hactive := by
    rw [targetState, hspares.states other hne]
    exact hsettled.changes hactive
  reports report hmem := hsettled.reports report ((hreports report).mp hmem)
  silent hnone := hsettled.silent fun report hmem => hnone report ((hreports report).mpr hmem)

theorem Holds.reports (hholds : aggregator.Holds targetId target.shown target.told)
    (hactive : target.IsActive) (hcovers : Covers news aggregator targetId) :
    target.Reports news (aggregator.targetState targetId).toTargetChange where
  active := hactive
  added := hholds.told ▸ hholds.fits.keysOf_added
  removed := hholds.told ▸ hholds.fits.keysOf_removed
  modified := hholds.told ▸ hholds.fits.keysOf_modified
  news key hkey := by
    rcases Finset.mem_union.mp hkey with hkey | hkey
    · exact hcovers key _ (TargetState.mem_keysOf.mp hkey) (by decide)
    · exact hcovers key _ (TargetState.mem_keysOf.mp hkey) (by decide)

theorem spares_deleteQueried (key : ι) :
    aggregator.Spares (aggregator.deleteQueried metadata targetId key) targetId := by
  unfold deleteQueried
  split
  · exact spares_removeDocumentFromTarget key _
  · exact .refl aggregator targetId

/-- What is deleted is neither added nor modified. -/
theorem Covers.deleteQueried (hcovers : Covers news aggregator targetId) (key : ι) :
    Covers news (aggregator.deleteQueried metadata targetId key) targetId := by
  unfold WatchChangeAggregator.deleteQueried
  split
  · by_cases hactive : aggregator.IsActiveTarget metadata targetId
    · intro other type hchange htype
      rw [targetState, removeDocumentFromTarget_targetStates hactive, AList.lookup_insert,
        Option.getD_some] at hchange
      exact hcovers other type (TargetState.lookup_of_removeOrAdd hchange htype) htype
    · rwa [removeDocumentFromTarget, if_neg hactive]
  · exact hcovers

/-- A target with changes is reported, and has none afterwards. -/
theorem Unreported.report (hunreported : Unreported metadata news collected targetId target)
    (hactive : target.IsActive) :
    Settled metadata news (collected.1.setTargetState targetId
        (collected.1.targetState targetId).clearPendingChanges,
      collected.2 ++ [(targetId, (collected.1.targetState targetId).toTargetChange)])
      targetId target := by
  obtain ⟨htracked, hnone, hcovers⟩ := hunreported
  have hlast : ∀ report, (targetId, report) ∈ collected.2 ++
      [(targetId, (collected.1.targetState targetId).toTargetChange)] ↔
        report = (collected.1.targetState targetId).toTargetChange := by
    intro report
    simp [hnone report]
  refine ⟨?_, fun _ => by rw [targetState_setTargetState]; rfl, fun report hmem => ?_,
    fun hnot => absurd ((hlast _).mpr rfl) (hnot _)⟩
  · rw [PlainTarget.say, if_pos hactive]
    exact htracked.retold (AList.lookup_insert _) rfl rfl fun _ =>
      ⟨TargetState.contents_empty rfl, TargetState.fits_empty rfl, fun key type hchange => by
        simp [TargetState.clearPendingChanges] at hchange⟩
  · rw [(hlast report).mp hmem]
    exact (htracked.holds hactive).reports hactive (hcovers hactive)

/-- A target is reported if it has any changes. -/
theorem Unreported.reportChanged {reports : List (τ × TargetReport ι)}
    (hunreported : Unreported metadata news (next, reports) targetId target)
    (hactive : target.IsActive) (hspares : aggregator.Spares next targetId) :
    let reported := if (next.targetState targetId).hasPendingChanges then
        (next.setTargetState targetId (next.targetState targetId).clearPendingChanges,
          reports ++ [(targetId, (next.targetState targetId).toTargetChange)])
      else (next, reports)
    Settled metadata news reported targetId target ∧ aggregator.Spares reported.1 targetId ∧
      ∀ other, other ≠ targetId → ∀ report,
        (other, report) ∈ reported.2 ↔ (other, report) ∈ reports := by
  dsimp only
  split
  · refine ⟨hunreported.report hactive, hspares.trans (spares_setTargetState targetId _),
      fun other hne report => ?_⟩
    simp [hne]
  · rename_i hpending
    -- changes are always pending, so there are none
    refine ⟨hunreported.settled fun _ => ?_, hspares, fun _ _ _ => .rfl⟩
    by_contra hchanges
    exact hpending ((hunreported.1.holds hactive).fits.pending hchanges)

/-- The body of the loop that collects the reports. -/
theorem Unreported.reportTarget
    (hunreported : Unreported metadata news collected targetId target) :
    Settled metadata news (reportTarget metadata collected targetId) targetId target ∧
      collected.1.Spares (reportTarget metadata collected targetId).1 targetId ∧
      ∀ other, other ≠ targetId → ∀ report,
        (other, report) ∈ (reportTarget metadata collected targetId).2 ↔
          (other, report) ∈ collected.2 := by
  unfold WatchChangeAggregator.reportTarget
  cases hdata : collected.1.targetDataForActiveTarget metadata targetId with
  | none =>
      have hinactive : ¬ target.IsActive := by
        intro hactive
        rw [hunreported.1.targetDataForActiveTarget, if_pos hactive] at hdata
        simpa [hdata] using hactive.2
      exact ⟨hunreported.settled fun hactive => absurd hactive hinactive,
        .refl collected.1 targetId, fun _ _ _ => .rfl⟩
  | some data =>
      obtain ⟨hactive, -⟩ := hunreported.1.of_targetData hdata
      -- a query for one document may delete it first
      rcases data with ⟨- | key, limboResolution⟩
      · exact hunreported.reportChanged hactive (.refl collected.1 targetId)
      · have hdeleted : Unreported metadata news
            (collected.1.deleteQueried metadata targetId key, collected.2) targetId target :=
          ⟨(edits_deleteQueried key).itself target hunreported.tracked, hunreported.silent,
            fun hlistened => (hunreported.covers hlistened).deleteQueried key⟩
        exact hdeleted.reportChanged hactive (spares_deleteQueried key)

/-- The loop that collects the reports. -/
theorem settled_collected {targets : τ → PlainTarget ι}
    (htracked : ∀ targetId, Tracked metadata aggregator targetId (targets targetId))
    (targetId : τ) :
    Settled metadata (fun key => aggregator.pendingDocumentUpdates.lookup key)
      (aggregator.targetStates.keys.foldl (reportTarget metadata) (aggregator, [])) targetId
        (targets targetId) := by
  let news := fun key => aggregator.pendingDocumentUpdates.lookup key
  let Before := fun (collected : WatchChangeAggregator τ ι δ × List (τ × TargetReport ι))
      targetId => Unreported metadata news collected targetId (targets targetId) ∧
    collected.1.targetStates.lookup targetId = aggregator.targetStates.lookup targetId
  let After := fun (collected : WatchChangeAggregator τ ι δ × List (τ × TargetReport ι))
    targetId => Settled metadata news collected targetId (targets targetId)
  have hbody : ∀ collected targetId, Before collected targetId →
      After (reportTarget metadata collected targetId) targetId ∧ ∀ other, other ≠ targetId →
        (Before collected other → Before (reportTarget metadata collected targetId) other) ∧
        (After collected other → After (reportTarget metadata collected targetId) other) := by
    rintro collected targetId ⟨hunreported, -⟩
    obtain ⟨hsettled, hspares, hreports⟩ := hunreported.reportTarget
    refine ⟨hsettled, fun other hne => ⟨fun ⟨hother, hlookup⟩ => ⟨?_, ?_⟩, fun hother => ?_⟩⟩
    · exact hother.others hspares hne (hreports other hne)
    · rw [hspares.states other hne, hlookup]
    · exact hother.others hspares hne (hreports other hne)
  have hstart : ∀ targetId, Before (aggregator, []) targetId := by
    refine fun targetId => ⟨⟨htracked targetId, fun report hmem => by simp at hmem, ?_⟩, rfl⟩
    intro hactive key type hchange htype
    exact AList.lookup_isSome.mpr (((htracked targetId).holds hactive).updates key type hchange
      htype)
  rcases foldl_once Before After aggregator.targetStates.keys_nodup hbody hstart targetId with
    ⟨-, hsettled⟩ | ⟨hnotMem, hunreported, hlookup⟩
  · exact hsettled
  · -- a target without a state has no changes
    refine hunreported.settled fun _ => ?_
    rw [targetState, hlookup, AList.lookup_eq_none.mpr (mt AList.mem_keys.mp hnotMem)]
    rfl

theorem reportTarget_reports (metadata : TargetMetadata τ ι)
    (collected : WatchChangeAggregator τ ι δ × List (τ × TargetReport ι)) (targetId : τ) :
    ∃ reported, reported.Sublist [targetId] ∧
      (reportTarget metadata collected targetId).2.map (·.1) =
        collected.2.map (·.1) ++ reported := by
  unfold reportTarget
  rcases collected.1.targetDataForActiveTarget metadata targetId with - | ⟨- | key, limbo⟩
  · exact ⟨[], List.nil_sublist _, by simp⟩
  all_goals
    dsimp only
    split
    · exact ⟨[targetId], .refl _, by simp⟩
    · exact ⟨[], List.nil_sublist _, by simp⟩

theorem collected_reports (metadata : TargetMetadata τ ι) (targetIds : List τ)
    (collected : WatchChangeAggregator τ ι δ × List (τ × TargetReport ι)) :
    ∃ reported, reported.Sublist targetIds ∧
      (targetIds.foldl (reportTarget metadata) collected).2.map (·.1) =
        collected.2.map (·.1) ++ reported := by
  induction targetIds generalizing collected with
  | nil => exact ⟨[], .refl _, by simp⟩
  | cons targetId targetIds ih =>
      obtain ⟨first, hfirst, hmap⟩ := reportTarget_reports metadata collected targetId
      obtain ⟨rest, hrest, hreports⟩ := ih (reportTarget metadata collected targetId)
      exact ⟨first ++ rest, hfirst.append hrest, by
        rw [List.foldl_cons, hreports, hmap, List.append_assoc]⟩

/-- No target is reported twice. -/
theorem nodup_targetChanges :
    ((aggregator.createRemoteEvent metadata).2.targetChanges.map (·.1)).Nodup := by
  obtain ⟨reported, hsublist, hmap⟩ := collected_reports metadata
    aggregator.targetStates.keys (aggregator, [])
  rw [List.map_nil, List.nil_append] at hmap
  rw [createRemoteEvent, hmap]
  exact hsublist.nodup aggregator.targetStates.keys_nodup

/-- What the remote event says of a target, and what is left of it. -/
structure Raised (metadata : TargetMetadata τ ι) (news : ι → Option (MutableDocument δ))
    (aggregator : WatchChangeAggregator τ ι δ)
    (event : RemoteEvent τ ι δ) (targetId : τ) (target : PlainTarget ι) : Prop where
  tracked : Tracked metadata aggregator targetId target.taken
  changes : target.IsActive → (aggregator.targetState targetId).documentChanges = ∅
  mismatched : targetId ∈ event.targetMismatches ↔ target.mismatched = true
  reports : ∀ report, (targetId, report) ∈ event.targetChanges → target.Reports news report
  silent : (∀ report, (targetId, report) ∉ event.targetChanges) → target.IsActive →
    target.told = target.shown

theorem raised_createRemoteEvent {targets : τ → PlainTarget ι}
    (htracked : ∀ targetId, Tracked metadata aggregator targetId (targets targetId))
    (targetId : τ) :
    Raised metadata (fun key => aggregator.pendingDocumentUpdates.lookup key)
      (aggregator.createRemoteEvent metadata).1
      (aggregator.createRemoteEvent metadata).2 targetId (targets targetId) := by
  obtain ⟨hlast, hchanges, hreports, hsilent⟩ := settled_collected htracked targetId
  refine ⟨⟨?_, ?_, ?_, ?_, ?_, fun hactive => ?_⟩, hchanges, ?_, hreports, hsilent⟩
  · exact hlast.data
  · exact hlast.shown
  · exact hlast.outstanding
  · exact hlast.heard
  · simp [createRemoteEvent, PlainTarget.taken]
  · have hempty := hchanges ((PlainTarget.say_isActive _).mp hactive)
    obtain ⟨htold, hfits, -⟩ := hlast.holds hactive
    exact ⟨htold, hfits, fun key type hchange => by
      rw [createRemoteEvent, targetState] at hchange
      rw [targetState] at hempty
      simp [hempty] at hchange⟩
  · have hmismatched := hlast.mismatched
    unfold PlainTarget.say at hmismatched
    split at hmismatched <;> exact hmismatched

end WatchChangeAggregator

end Pompom.Firestore
