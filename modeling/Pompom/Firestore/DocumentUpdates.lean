import Pompom.Firestore.TargetContents

/-!
# Which versions of documents are passed on

The aggregator collects the versions of documents that come with the messages.  A message
about a document is taken in if it names an active target, and it replaces what was said
of the document before (`Informs`).  Messages about targets say nothing of documents, not
even where a target is reset.  A remote event has every version that has been collected,
and besides only that a document does not exist which is queried for alone
(`lookup_createRemoteEvent`).
-/

namespace Pompom.Firestore

namespace WatchChangeAggregator

open Lib

variable {τ ι δ : Type} [DecidableEq τ] {aggregator next last : WatchChangeAggregator τ ι δ}
  {metadata : TargetMetadata τ ι} {targetId : τ}

theorem isActiveTarget_congr {other : τ} (hpending : (next.targetState other).outstandingResponses =
      (aggregator.targetState other).outstandingResponses) :
    next.IsActiveTarget metadata other ↔ aggregator.IsActiveTarget metadata other := by
  have hsame : (next.targetState other).IsPending ↔ (aggregator.targetState other).IsPending := by
    rw [TargetState.IsPending, TargetState.IsPending, hpending]
  simp only [IsActiveTarget, targetDataForActiveTarget, hsame]

theorem outstandingResponses_setTargetState {state : TargetState ι}
    (houtstanding : state.outstandingResponses =
      (aggregator.targetState targetId).outstandingResponses) (other : τ) :
    ((aggregator.setTargetState targetId state).targetState other).outstandingResponses =
      (aggregator.targetState other).outstandingResponses := by
  by_cases hsame : other = targetId
  · subst hsame
    rw [targetState_setTargetState, houtstanding]
  · rw [targetState, setTargetState, AList.lookup_insert_ne hsame, targetState]

/-! ## Messages about documents -/

variable [LinearOrder ι] {key : ι} {document : Option (MutableDocument δ)}

/-- A version of a document has been said of some targets. -/
structure Informs (metadata : TargetMetadata τ ι) (targetIds : List τ) (key : ι)
    (document : Option (MutableDocument δ)) (aggregator next : WatchChangeAggregator τ ι δ) :
    Prop where
  active : ∀ targetId,
    next.IsActiveTarget metadata targetId ↔ aggregator.IsActiveTarget metadata targetId
  updates : ∀ other, next.pendingDocumentUpdates.lookup other =
    if other = key ∧ document.isSome = true ∧
      (∃ targetId ∈ targetIds, aggregator.IsActiveTarget metadata targetId) then document
    else aggregator.pendingDocumentUpdates.lookup other

theorem Informs.refl_none (targetIds : List τ) (key : ι)
    (aggregator : WatchChangeAggregator τ ι δ) :
    Informs metadata targetIds key none aggregator aggregator :=
  ⟨fun _ => .rfl, by simp⟩

theorem Informs.trans {first second : List τ}
    (hfirst : Informs metadata first key document aggregator next)
    (hsecond : Informs metadata second key document next last) :
    Informs metadata (first ++ second) key document aggregator last where
  active targetId := (hsecond.active targetId).trans (hfirst.active targetId)
  updates other := by
    have hboth : (∃ targetId ∈ first ++ second, aggregator.IsActiveTarget metadata targetId) ↔
        (∃ targetId ∈ first, aggregator.IsActiveTarget metadata targetId) ∨
          ∃ targetId ∈ second, aggregator.IsActiveTarget metadata targetId := by
      simp only [List.mem_append, or_and_right, exists_or]
    rw [hsecond.updates, hfirst.updates]
    simp only [hfirst.active, hboth]
    by_cases hlater : ∃ targetId ∈ second, aggregator.IsActiveTarget metadata targetId
    · simp only [hlater, or_true, and_true]
      split_ifs <;> simp_all
    · simp only [hlater, or_false, and_false, if_false]

theorem informs_foldl {body : WatchChangeAggregator τ ι δ → τ → WatchChangeAggregator τ ι δ}
    (hbody : ∀ aggregator targetId,
      Informs metadata [targetId] key document aggregator (body aggregator targetId))
    (targetIds : List τ) (aggregator : WatchChangeAggregator τ ι δ) :
    Informs metadata targetIds key document aggregator (targetIds.foldl body aggregator) := by
  induction targetIds generalizing aggregator with
  | nil => exact ⟨fun _ => .rfl, by simp⟩
  | cons targetId targetIds ih => exact (hbody aggregator targetId).trans (ih _)

theorem targetState_mapDocument (aggregator : WatchChangeAggregator τ ι δ) (targetId : τ) (key : ι)
    (other : τ) :
    (aggregator.mapDocument targetId key).targetState other = aggregator.targetState other := rfl

theorem targetState_updateDocument (aggregator : WatchChangeAggregator τ ι δ) (key : ι)
    (document : MutableDocument δ) (other : τ) :
    (aggregator.updateDocument key document).targetState other = aggregator.targetState other := rfl

theorem informs_addDocumentToTarget (aggregator : WatchChangeAggregator τ ι δ) (targetId : τ)
    (key : ι) (document : MutableDocument δ) :
    Informs metadata [targetId] key (some document) aggregator
      (aggregator.addDocumentToTarget metadata targetId key document) := by
  unfold addDocumentToTarget
  by_cases hactive : aggregator.IsActiveTarget metadata targetId
  · rw [if_pos hactive]
    refine ⟨fun other => isActiveTarget_congr ?_, fun other => ?_⟩
    · rw [targetState_mapDocument, targetState_updateDocument]
      have hstate : ∀ type, ((aggregator.targetState targetId).addDocumentChange key
          type).outstandingResponses = (aggregator.targetState targetId).outstandingResponses :=
        fun _ => rfl
      exact outstandingResponses_setTargetState (hstate _) other
    · rcases eq_or_ne other key with rfl | hsame
      · simp [mapDocument, updateDocument, hactive]
      · simp [mapDocument, updateDocument, setTargetState, hsame]
  · rw [if_neg hactive]
    exact ⟨fun _ => .rfl, by simp [hactive]⟩

variable (metadata) in
theorem informs_removeDocumentFromTarget (aggregator : WatchChangeAggregator τ ι δ)
    (targetId : τ) (key : ι) (document : Option (MutableDocument δ)) :
    Informs metadata [targetId] key document aggregator
      (aggregator.removeDocumentFromTarget metadata targetId key document) := by
  unfold removeDocumentFromTarget
  by_cases hactive : aggregator.IsActiveTarget metadata targetId
  · rw [if_pos hactive]
    have hstate : (if key ∈ metadata.remoteKeys targetId
        then (aggregator.targetState targetId).addDocumentChange key .removed
        else (aggregator.targetState targetId).removeDocumentChange key).outstandingResponses =
          (aggregator.targetState targetId).outstandingResponses := by
      split <;> rfl
    cases document with
    | none =>
        refine ⟨fun other => isActiveTarget_congr ?_, by simp [mapDocument, setTargetState]⟩
        rw [targetState_mapDocument]
        exact outstandingResponses_setTargetState hstate other
    | some document =>
        refine ⟨fun other => isActiveTarget_congr ?_, fun other => ?_⟩
        · rw [targetState_updateDocument, targetState_mapDocument]
          exact outstandingResponses_setTargetState hstate other
        · rcases eq_or_ne other key with rfl | hsame
          · simp [updateDocument, hactive]
          · simp [mapDocument, updateDocument, setTargetState, hsame]
  · rw [if_neg hactive]
    exact ⟨fun _ => .rfl, by simp [hactive]⟩

variable (metadata) in
theorem informs_handleDocumentChange (aggregator : WatchChangeAggregator τ ι δ)
    (change : DocumentWatchChange τ ι δ) :
    Informs metadata (change.updatedTargetIds ++ change.removedTargetIds) change.documentKey
      change.newDocument aggregator (aggregator.handleDocumentChange metadata change) := by
  refine (informs_foldl (fun aggregator targetId => ?_) _ _).trans
    (informs_foldl (fun aggregator targetId =>
      informs_removeDocumentFromTarget metadata aggregator targetId _ _) _ _)
  unfold updateTarget
  rcases change.newDocument with - | data | -
  · exact .refl_none _ _ _
  · exact informs_addDocumentToTarget aggregator targetId _ _
  · exact informs_removeDocumentFromTarget metadata aggregator targetId _ _

/-! ## Messages about targets -/

theorem pendingDocumentUpdates_removeDocumentFromTarget (key : ι) :
    (aggregator.removeDocumentFromTarget metadata targetId key none).pendingDocumentUpdates =
      aggregator.pendingDocumentUpdates := by
  unfold removeDocumentFromTarget
  split <;> rfl

theorem pendingDocumentUpdates_resetTarget
    (hnext : aggregator.resetTarget metadata targetId = .ok next) :
    next.pendingDocumentUpdates = aggregator.pendingDocumentUpdates := by
  have hloop : ∀ (keys : List ι) (aggregator : WatchChangeAggregator τ ι δ),
      (keys.foldl (fun aggregator key =>
        aggregator.removeDocumentFromTarget metadata targetId key none)
          aggregator).pendingDocumentUpdates = aggregator.pendingDocumentUpdates := by
    intro keys
    induction keys with
    | nil => exact fun _ => rfl
    | cons key keys ih =>
        intro aggregator
        rw [List.foldl_cons, ih, pendingDocumentUpdates_removeDocumentFromTarget]
  unfold resetTarget at hnext
  by_cases hstate : ((aggregator.targetStates.lookup targetId).any fun state =>
      ¬ state.IsPending) = true
  · rw [hardAssert_of hstate, ok_bind] at hnext
    rw [← Except.ok.inj hnext, hloop]
    rfl
  · rw [hardAssert_of_not hstate, error_bind] at hnext
    cases hnext

theorem pendingDocumentUpdates_changeTarget {change : WatchTargetChange τ}
    (hnext : aggregator.changeTarget metadata change targetId = .ok next) :
    next.pendingDocumentUpdates = aggregator.pendingDocumentUpdates := by
  unfold changeTarget at hnext
  dsimp only at hnext
  cases hstate : change.state with
  | noChange | current =>
      simp only [hstate] at hnext
      split at hnext <;> rw [← Except.ok.inj hnext] <;> rfl
  | added =>
      simp only [hstate] at hnext
      rw [← Except.ok.inj hnext]
      rfl
  | removed =>
      simp only [hstate] at hnext
      by_cases hcause : change.causeOk = true
      · rw [hardAssert_of hcause, ok_bind] at hnext
        rw [← Except.ok.inj hnext]
        split <;> rfl
      · simp [hardAssert_of_not hcause] at hnext
  | reset =>
      simp only [hstate] at hnext
      split at hnext
      · cases hreset : (aggregator.ensureTargetState targetId).resetTarget metadata targetId with
        | error fatal => simp [hreset] at hnext
        | ok reset =>
            rw [hreset, ok_bind] at hnext
            have hsame := pendingDocumentUpdates_resetTarget hreset
            rw [← Except.ok.inj hnext]
            exact hsame
      · rw [← Except.ok.inj hnext]
        rfl

theorem pendingDocumentUpdates_handleTargetChange {change : WatchTargetChange τ}
    (hnext : aggregator.handleTargetChange metadata change = .ok next) :
    next.pendingDocumentUpdates = aggregator.pendingDocumentUpdates :=
  foldlM_keeps pendingDocumentUpdates
    (fun _ _ _ hstep => pendingDocumentUpdates_changeTarget hstep) hnext

/-- A query for one document finds none. -/
theorem Tracked.lookup_handleExistenceFilter {target : PlainTarget ι}
    (htracked : Tracked metadata aggregator targetId target) {count : ℤ}
    (hnext : aggregator.handleExistenceFilter metadata targetId count = .ok next) (other : ι) :
    next.pendingDocumentUpdates.lookup other =
      if target.IsActive ∧ count = 0 ∧ target.data.bind (·.documentQuery) = some other
      then some .noDocument else aggregator.pendingDocumentUpdates.lookup other := by
  unfold WatchChangeAggregator.handleExistenceFilter at hnext
  cases hdata : aggregator.targetDataForActiveTarget metadata targetId with
  | none =>
      have hinactive : ¬ target.IsActive := by
        intro hactive
        rw [htracked.targetDataForActiveTarget, if_pos hactive] at hdata
        simpa [hdata] using hactive.2
      simp only [hdata] at hnext
      rw [← Except.ok.inj hnext, if_neg fun hmissing => hinactive hmissing.1]
  | some data =>
      obtain ⟨hactive, hsome⟩ := htracked.of_targetData hdata
      have hlistened : aggregator.IsActiveTarget metadata targetId :=
        htracked.isActive_iff.mpr hactive
      simp only [hdata] at hnext
      cases hquery : data.documentQuery with
      | some key =>
          simp only [hquery] at hnext
          -- for one document the count is 0 or 1, and only 0 says something new
          by_cases hcount : count = 0
          · rw [if_pos hcount] at hnext
            rw [← Except.ok.inj hnext, (informs_removeDocumentFromTarget _ _ _ _ _).updates]
            refine if_congr ?_ rfl rfl
            simp [hlistened, hactive, hsome, hquery, hcount, eq_comm]
          · rw [if_neg hcount] at hnext
            by_cases hone : count = 1
            · rw [hardAssert_of hone, ok_bind] at hnext
              rw [← Except.ok.inj hnext, if_neg fun hmissing => hcount hmissing.2.1]
            · simp [hardAssert_of_not hone] at hnext
      | none =>
          simp only [hquery] at hnext
          rw [if_neg (by simp [hsome, hquery])]
          split at hnext
          · cases hreset :
                (aggregator.ensureTargetState targetId).resetTarget metadata targetId with
            | error fatal => simp [hreset] at hnext
            | ok reset =>
                rw [hreset, ok_bind] at hnext
                rw [← Except.ok.inj hnext]
                have hsame := pendingDocumentUpdates_resetTarget hreset
                exact congrArg (AList.lookup other) hsame
          · rw [← Except.ok.inj hnext]
            rfl

/-! ## Remote events -/

/-- What has been said of a document, or that it does not exist, which some active target
asks for and of which nothing has been said. -/
structure Deleted (metadata : TargetMetadata τ ι) (aggregator : WatchChangeAggregator τ ι δ)
    (key : ι) (document : Option (MutableDocument δ)) : Prop where
  unsaid : aggregator.pendingDocumentUpdates.lookup key = none
  missing : document = some .noDocument
  queried : ∃ targetId data, aggregator.IsActiveTarget metadata targetId ∧
    metadata.targetData targetId = some data ∧ data.documentQuery = some key

/-- The versions that are known after a loop, or a part of it. -/
structure PassesOn (metadata : TargetMetadata τ ι) (aggregator next : WatchChangeAggregator τ ι δ) :
    Prop where
  active : ∀ targetId,
    next.IsActiveTarget metadata targetId ↔ aggregator.IsActiveTarget metadata targetId
  updates : ∀ key,
    next.pendingDocumentUpdates.lookup key = aggregator.pendingDocumentUpdates.lookup key ∨
      Deleted metadata aggregator key (next.pendingDocumentUpdates.lookup key)

theorem PassesOn.refl (aggregator : WatchChangeAggregator τ ι δ) :
    PassesOn metadata aggregator aggregator :=
  ⟨fun _ => .rfl, fun _ => .inl rfl⟩

theorem PassesOn.trans (hfirst : PassesOn metadata aggregator next)
    (hsecond : PassesOn metadata next last) : PassesOn metadata aggregator last where
  active targetId := (hsecond.active targetId).trans (hfirst.active targetId)
  updates key := by
    rcases hsecond.updates key with hlater | ⟨hunsaid, hmissing, targetId, data, hactive, hdata⟩
    · rw [hlater]
      exact hfirst.updates key
    · rcases hfirst.updates key with hsame | hdeleted
      · exact .inr ⟨hsame ▸ hunsaid, hmissing, targetId, data,
          (hfirst.active targetId).mp hactive, hdata⟩
      · rw [hdeleted.missing] at hunsaid
        cases hunsaid

theorem passesOn_setTargetState {state : TargetState ι}
    (houtstanding : state.outstandingResponses =
      (aggregator.targetState targetId).outstandingResponses) :
    PassesOn metadata aggregator (aggregator.setTargetState targetId state) :=
  ⟨fun other => isActiveTarget_congr (outstandingResponses_setTargetState houtstanding other),
    fun _ => .inl rfl⟩

theorem passesOn_deleteQueried {data : TargetData ι} {key : ι}
    (hactive : aggregator.IsActiveTarget metadata targetId)
    (hdata : metadata.targetData targetId = some data) (hquery : data.documentQuery = some key) :
    PassesOn metadata aggregator (aggregator.deleteQueried metadata targetId key) := by
  unfold deleteQueried
  split
  · rename_i hmissing
    have hinforms := informs_removeDocumentFromTarget metadata aggregator targetId key
      (some .noDocument)
    refine ⟨hinforms.active, fun other => ?_⟩
    have hupdates := hinforms.updates other
    split at hupdates
    · rename_i hsaid
      obtain ⟨rfl, -, -⟩ := hsaid
      exact .inr ⟨hmissing.2.1, hupdates, targetId, data, hactive, hdata, hquery⟩
    · exact .inl hupdates
  · exact .refl aggregator

theorem passesOn_reportTarget
    (collected : WatchChangeAggregator τ ι δ × List (τ × TargetReport ι)) (targetId : τ) :
    PassesOn metadata collected.1 (reportTarget metadata collected targetId).1 := by
  unfold reportTarget
  cases hdata : collected.1.targetDataForActiveTarget metadata targetId with
  | none => exact .refl collected.1
  | some data =>
      have hactive : collected.1.IsActiveTarget metadata targetId := by
        rw [IsActiveTarget, hdata]
        rfl
      have hlistened : metadata.targetData targetId = some data := by
        unfold targetDataForActiveTarget at hdata
        split at hdata
        · cases hdata
        · exact hdata
      have hcleared : ∀ aggregator : WatchChangeAggregator τ ι δ, PassesOn metadata aggregator
          (if (aggregator.targetState targetId).hasPendingChanges = true then
            (aggregator.setTargetState targetId
                (aggregator.targetState targetId).clearPendingChanges,
              collected.2 ++ [(targetId, (aggregator.targetState targetId).toTargetChange)])
          else (aggregator, collected.2)).1 := by
        intro aggregator
        split
        · exact passesOn_setTargetState rfl
        · exact .refl aggregator
      rcases data with ⟨- | key, limboResolution⟩
      · exact hcleared collected.1
      · exact (passesOn_deleteQueried hactive hlistened rfl).trans (hcleared _)

variable (metadata) in
/-- A remote event has what has been said last of every document, and besides only that a
document does not exist which is queried for alone. -/
theorem lookup_createRemoteEvent (aggregator : WatchChangeAggregator τ ι δ) (key : ι) :
    (aggregator.createRemoteEvent metadata).2.documentUpdates.lookup key =
        aggregator.pendingDocumentUpdates.lookup key ∨
      Deleted metadata aggregator key
        ((aggregator.createRemoteEvent metadata).2.documentUpdates.lookup key) := by
  have hloop : ∀ (targetIds : List τ)
      (collected : WatchChangeAggregator τ ι δ × List (τ × TargetReport ι)),
      PassesOn metadata collected.1 (targetIds.foldl (reportTarget metadata) collected).1 := by
    intro targetIds
    induction targetIds with
    | nil => exact fun collected => .refl collected.1
    | cons targetId targetIds ih =>
        exact fun collected => (passesOn_reportTarget collected targetId).trans (ih _)
  exact (hloop aggregator.targetStates.keys (aggregator, [])).updates key

end WatchChangeAggregator

end Pompom.Firestore
