import Pompom.Lib.Run
import Pompom.Firestore.QueryListener
import Pompom.Firestore.TargetReports

/-!
# The client agrees with the plain targets

A simulation: `Mirrors` relates the client, with its aggregator, to the plain client.
Every event that does not end the process keeps it (`Mirrors.exists_mirrors`), and so it
holds in every run of a server that answers what is requested.

A snapshot is taken in three steps.  The aggregator is emptied into a remote event, targets
that did not match are requested again, and the reports are applied one by one; in between,
a target is `Quiet`.
-/

namespace Pompom.Firestore

open Lib WatchChangeAggregator

namespace WatchClient

variable {τ ι δ : Type} [DecidableEq τ] [LinearOrder ι] {client next : WatchClient τ ι δ}
  {targetId : τ} {target : PlainTarget ι}

/-- The client has of a target what the plain target has. -/
def Agrees (client : WatchClient τ ι δ) (targetId : τ) (target : PlainTarget ι) : Prop :=
  Tracked client.metadata client.aggregator targetId target

/-- Nothing is known of the target that is not shown. -/
structure Quiet (client : WatchClient τ ι δ) (targetId : τ) (target : PlainTarget ι) : Prop where
  agrees : client.Agrees targetId target
  changes : target.IsActive → (client.aggregator.targetState targetId).documentChanges = ∅
  nonneg : 0 ≤ target.outstanding

/-! ## Requests -/

theorem tracked_request {metadata : TargetMetadata τ ι} {aggregator : WatchChangeAggregator τ ι δ}
    (hdata : metadata.targetData targetId = target.data)
    (hshown : metadata.remoteKeys targetId = target.shown)
    (houtstanding : (aggregator.targetState targetId).outstandingResponses = target.outstanding)
    (hmismatched : targetId ∈ aggregator.pendingTargetResets ↔ target.mismatched = true)
    (hnonneg : 0 ≤ target.outstanding) :
    Tracked metadata (aggregator.recordPendingTargetRequest targetId) targetId target.request := by
  refine ⟨hdata, hshown, ?_, fun _ => mem_setTargetState targetId _, hmismatched,
    fun hactive => ?_⟩
  · simp only [recordPendingTargetRequest, targetState_setTargetState,
      TargetState.recordPendingTargetRequest, PlainTarget.request, houtstanding]
  · have hzero : target.outstanding + 1 = 0 := hactive.1
    omega

omit [LinearOrder ι] in
theorem spares_sendRequest (client : WatchClient τ ι δ) (targetId : τ) :
    client.aggregator.Spares (client.sendRequest targetId).aggregator targetId :=
  spares_setTargetState targetId _

theorem edits_sendRequest (client : WatchClient τ ι δ) (targetId : τ) :
    EditsPart Quiet PlainTarget.request targetId client (client.sendRequest targetId) := by
  have hspares := spares_sendRequest client targetId
  refine ⟨fun target hquiet => ?_, fun other hne target hquiet => ?_⟩
  · have hnonneg := hquiet.nonneg
    obtain ⟨hdata, hshown, houtstanding, -, hmismatched, -⟩ := hquiet.agrees
    refine ⟨tracked_request hdata hshown houtstanding hmismatched hnonneg, fun hactive => ?_, ?_⟩
    · have hzero : target.outstanding + 1 = 0 := hactive.1
      omega
    · simp only [PlainTarget.request]
      omega
  · refine ⟨hquiet.agrees.of_spares hspares hne, fun hactive => ?_, hquiet.nonneg⟩
    rw [targetState, hspares.states other hne]
    exact hquiet.changes hactive

theorem edits_watchAgain (client : WatchClient τ ι δ) (targetId : τ) :
    EditsPart Quiet (PlainTarget.request ∘ PlainTarget.request) targetId client
      (client.watchAgain targetId) :=
  (edits_sendRequest client targetId).trans (edits_sendRequest _ targetId)

theorem Agrees.mem_listenTargets (hagrees : client.Agrees targetId target) :
    targetId ∈ client.listenTargets ↔ target.data.isSome = true := by
  rw [← AList.lookup_isSome, ← hagrees.data]
  rfl

/-! ## Listening -/

theorem Agrees.listen (hagrees : client.Agrees targetId target)
    (hnonneg : 0 ≤ target.outstanding)
    (hclosed : client.isOpen = false → client.aggregator = {})
    (data : TargetData ι) (keys : Finset ι) :
    (client.listen targetId data keys).Agrees targetId
      (target.listen client.isOpen data keys) := by
  have houtstanding := hagrees.outstanding
  have hmismatched := hagrees.mismatched
  by_cases hmem : targetId ∈ client.listenTargets
  · rw [WatchClient.listen, if_pos hmem, PlainTarget.listen,
      if_pos (hagrees.mem_listenTargets.mp hmem)]
    exact hagrees
  · rw [WatchClient.listen, if_neg hmem, PlainTarget.listen,
      if_neg (mt hagrees.mem_listenTargets.mpr hmem)]
    cases hopen : client.isOpen with
    | true =>
        exact tracked_request (by simp [metadata, sendRequest])
          (by simp [metadata, sendRequest]) houtstanding hmismatched hnonneg
    | false =>
        -- without a stream nothing can have been said before
        have hempty : client.aggregator = {} := hclosed hopen
        refine ⟨by simp [metadata], by simp [metadata], houtstanding, hagrees.heard, hmismatched,
          fun _ => ?_⟩
        simp only [Bool.false_eq_true, if_false, hempty]
        exact ⟨TargetState.contents_empty rfl, TargetState.fits_empty rfl,
          fun key type hchange => by simp [targetState] at hchange⟩

theorem Agrees.listen_others {other : τ} (hagrees : client.Agrees other target)
    (hne : other ≠ targetId) (data : TargetData ι) (keys : Finset ι) :
    (client.listen targetId data keys).Agrees other target := by
  unfold WatchClient.listen
  split
  · exact hagrees
  · have hlistened : ∀ aggregator, client.aggregator.Spares aggregator targetId →
        Agrees { client with
          listenTargets := client.listenTargets.insert targetId data
          remoteKeys := Function.update client.remoteKeys targetId keys
          aggregator := aggregator } other target := fun aggregator hspares =>
      (hagrees.of_spares hspares hne).of_metadata (AList.lookup_insert_ne hne)
        (Function.update_of_ne hne _ _)
    dsimp only
    split
    · exact hlistened _ (spares_sendRequest client targetId)
    · exact hlistened _ (.refl client.aggregator targetId)

theorem Agrees.forget_others {other : τ} (hagrees : client.Agrees other target)
    (hne : other ≠ targetId) {aggregator : WatchChangeAggregator τ ι δ}
    (hspares : client.aggregator.Spares aggregator targetId) :
    Agrees { client.forget targetId with aggregator := aggregator } other target :=
  (hagrees.of_spares hspares hne).of_metadata (AList.lookup_erase_ne hne)
    (Function.update_of_ne hne _ _)

/-- The client once a target that it listened to has been given up. -/
def given (client : WatchClient τ ι δ) (targetId : τ) : WatchClient τ ι δ :=
  if client.isOpen then (client.forget targetId).sendRequest targetId
  else client.forget targetId

theorem Agrees.given (hagrees : client.Agrees targetId target) (hnonneg : 0 ≤ target.outstanding) :
    (client.given targetId).Agrees targetId (target.stopListening client.isOpen) := by
  have houtstanding := hagrees.outstanding
  have hmismatched := hagrees.mismatched
  unfold WatchClient.given PlainTarget.stopListening
  split
  · exact tracked_request (by simp [metadata, sendRequest, forget, PlainTarget.forget])
      (by simp [metadata, sendRequest, forget, PlainTarget.forget]) houtstanding hmismatched hnonneg
  · exact ⟨by simp [metadata, forget, PlainTarget.forget],
      by simp [metadata, forget, PlainTarget.forget], houtstanding, hagrees.heard, hmismatched,
      fun hactive => by simp [PlainTarget.IsActive, PlainTarget.forget] at hactive⟩

theorem Agrees.given_others {other : τ} (hagrees : client.Agrees other target)
    (hne : other ≠ targetId) : (client.given targetId).Agrees other target := by
  unfold WatchClient.given
  split
  · exact hagrees.forget_others hne (spares_sendRequest client targetId)
  · exact hagrees.forget_others hne (.refl client.aggregator targetId)

theorem edits_rejectTarget (client : WatchClient τ ι δ) (targetId : τ) :
    EditsPart Agrees PlainTarget.reject targetId client (client.rejectTarget targetId) := by
  by_cases hmem : targetId ∈ client.listenTargets
  · rw [rejectTarget, if_pos hmem]
    refine ⟨fun target hagrees => ?_, fun other hne target hagrees =>
      hagrees.forget_others hne (spares_removeTarget targetId)⟩
    rw [PlainTarget.reject, if_pos (hagrees.mem_listenTargets.mp hmem)]
    refine ⟨by simp [metadata, forget, PlainTarget.forget],
      by simp [metadata, forget, PlainTarget.forget], by simp [removeTarget, targetState],
      fun hheard => by simp at hheard, hagrees.mismatched,
      fun hactive => by simp [PlainTarget.IsActive, PlainTarget.forget] at hactive⟩
  · rw [rejectTarget, if_neg hmem]
    refine (EditsPart.refl targetId client).congr fun target hagrees => ?_
    rw [PlainTarget.reject, if_neg (mt hagrees.mem_listenTargets.mpr hmem)]
    rfl

/-! ## The stream -/

theorem Agrees.restart (hagrees : client.Agrees targetId target) (isOpen : Bool) :
    Quiet { client with isOpen := isOpen, aggregator := ({} : WatchChangeAggregator τ ι δ) }
      targetId target.restart where
  agrees := by
    refine ⟨hagrees.data, hagrees.shown, rfl, fun hheard => ?_, ?_, fun _ => ?_⟩
    · simp [PlainTarget.restart] at hheard
    · simp [PlainTarget.restart]
    · exact ⟨TargetState.contents_empty rfl, TargetState.fits_empty rfl,
        fun key type hchange => by simp [targetState] at hchange⟩
  changes _ := rfl
  nonneg := le_rfl

theorem Agrees.streamOpen (hagrees : client.Agrees targetId target) :
    client.streamOpen.Agrees targetId target.reopen := by
  have hrequested := foldl_edits edits_sendRequest client.listenTargets.keys (hagrees.restart true)
  unfold PlainTarget.reopen
  by_cases hmem : targetId ∈ client.listenTargets
  · rw [if_pos (hagrees.mem_listenTargets.mp hmem)]
    rw [List.count_eq_one_of_mem client.listenTargets.keys_nodup (AList.mem_keys.mp hmem)]
      at hrequested
    exact hrequested.agrees
  · rw [if_neg (mt hagrees.mem_listenTargets.mpr hmem)]
    rw [List.count_eq_zero_of_not_mem (mt AList.mem_keys.mpr hmem)] at hrequested
    exact hrequested.agrees

/-! ## Snapshots -/

/-- A report brings what is shown to what has been told. -/
theorem exists_applyTargetChange {watched : PlainTarget ι} (hquiet : client.Quiet targetId watched)
    (hshown : watched.shown = target.shown) {news : ι → Option (MutableDocument δ)}
    {report : TargetReport ι} (hreports : target.Reports news report) :
    ∃ next, client.applyTargetChange (targetId, report) = .ok next ∧
      next.Quiet targetId { watched with told := target.told, shown := target.told } ∧
      ∀ other, other ≠ targetId → ∀ found, client.Quiet other found → next.Quiet other found := by
  obtain ⟨-, hadded, hremoved, hmodified, -⟩ := hreports
  have hkeys : client.remoteKeys targetId = target.shown := hquiet.agrees.shown.trans hshown
  have hsubset : report.modifiedDocuments ⊆
      client.remoteKeys targetId ∪ report.addedDocuments := by
    rw [hkeys]
    exact hmodified.trans (Finset.inter_subset_right.trans Finset.subset_union_left)
  have htold : (client.remoteKeys targetId ∪ report.addedDocuments) \ report.removedDocuments =
      target.told := by
    rw [hkeys, hadded, hremoved]
    ext key
    simp only [Finset.mem_sdiff, Finset.mem_union]
    tauto
  refine ⟨{ client with remoteKeys := Function.update client.remoteKeys targetId target.told },
    ?_, ?_, fun other hne found hother => ?_⟩
  · rw [applyTargetChange, hardAssert_of hsubset, ok_bind, htold]
    rfl
  · refine ⟨⟨hquiet.agrees.data, by simp [metadata], hquiet.agrees.outstanding,
      hquiet.agrees.heard, hquiet.agrees.mismatched, fun hactive => ?_⟩, hquiet.changes,
      hquiet.nonneg⟩
    have hempty := hquiet.changes hactive
    exact ⟨TargetState.contents_empty hempty, TargetState.fits_empty hempty,
      fun key type hchange => by simp [hempty] at hchange⟩
  · exact ⟨hother.agrees.of_metadata rfl (Function.update_of_ne hne _ _), hother.changes,
      hother.nonneg⟩

/-- The requests that are sent for a snapshot, before the views are told. -/
theorem quiet_watchAgain {event : RemoteEvent τ ι δ} {aggregator : WatchChangeAggregator τ ι δ}
    {news : ι → Option (MutableDocument δ)} (hagrees : client.Agrees targetId target)
    (hnonneg : 0 ≤ target.outstanding)
    (hraised : Raised client.metadata news aggregator event targetId target) :
    Quiet ((client.listenTargets.keys.filter (· ∈ event.targetMismatches)).foldl
      WatchClient.watchAgain { client with aggregator := aggregator }) targetId
        target.rewatched := by
  have htaken : Quiet { client with aggregator := aggregator } targetId target.taken :=
    ⟨hraised.tracked, fun hactive => hraised.changes ((PlainTarget.say_isActive _).mp hactive),
      by simpa using hnonneg⟩
  have hwatched := foldl_edits edits_watchAgain
    (client.listenTargets.keys.filter (· ∈ event.targetMismatches)) htaken
  have hmem : targetId ∈ client.listenTargets.keys.filter (· ∈ event.targetMismatches) ↔
      target.data.isSome = true ∧ target.mismatched = true := by
    rw [List.mem_filter, decide_eq_true_eq, ← AList.mem_keys, hagrees.mem_listenTargets,
      hraised.mismatched]
  unfold PlainTarget.rewatched
  split
  · rename_i hwatch
    rw [List.count_eq_one_of_mem (client.listenTargets.keys_nodup.filter _) (hmem.mpr hwatch)]
      at hwatched
    exact hwatched
  · rename_i hwatch
    rw [List.count_eq_zero_of_not_mem (mt hmem.mp hwatch)] at hwatched
    exact hwatched

theorem exists_raiseWatchSnapshot {targets : τ → PlainTarget ι}
    (hagrees : ∀ targetId, client.Agrees targetId (targets targetId))
    (hnonneg : ∀ targetId, 0 ≤ (targets targetId).outstanding) :
    ∃ next, client.raiseWatchSnapshot = .ok next ∧
      ∀ targetId, next.Agrees targetId (targets targetId).raise := by
  have hraised := raised_createRemoteEvent hagrees
  have hbody : ∀ (state : WatchClient τ ι δ),
      ∀ item ∈ (client.aggregator.createRemoteEvent client.metadata).2.targetChanges,
        Quiet state item.1 (targets item.1).rewatched →
          ∃ next, state.applyTargetChange item = .ok next ∧
            Quiet next item.1 (targets item.1).raise ∧ ∀ other, other ≠ item.1 →
              (Quiet state other (targets other).rewatched →
                Quiet next other (targets other).rewatched) ∧
              (Quiet state other (targets other).raise →
                Quiet next other (targets other).raise) := by
    rintro state ⟨targetId, report⟩ hitem hquiet
    have hreports := (hraised targetId).reports report hitem
    obtain ⟨next, hnext, hshown, hothers⟩ :=
      exists_applyTargetChange hquiet (PlainTarget.rewatched_shown _) hreports
    rw [PlainTarget.rewatched_told hreports.active] at hshown
    exact ⟨next, hnext, hshown, fun other hne => ⟨hothers other hne _, hothers other hne _⟩⟩
  obtain ⟨final, hfinal, hreported, hothers⟩ := foldlM_once
    (fun state targetId => Quiet state targetId (targets targetId).rewatched)
    (fun state targetId => Quiet state targetId (targets targetId).raise)
    nodup_targetChanges hbody
    fun item _ => quiet_watchAgain (hagrees item.1) (hnonneg item.1) (hraised item.1)
  refine ⟨final, hfinal, fun targetId => ?_⟩
  -- a target with a report was taken to what has been told by the loop
  by_cases hreport : ∃ report, (targetId, report) ∈
      (client.aggregator.createRemoteEvent client.metadata).2.targetChanges
  · obtain ⟨report, hmem⟩ := hreport
    exact (hreported _ hmem).agrees
  · -- what is not reported is shown already
    have hnone : ∀ report, (targetId, report) ∉
        (client.aggregator.createRemoteEvent client.metadata).2.targetChanges :=
      fun report hmem => hreport ⟨report, hmem⟩
    have hquiet := (hothers targetId fun hmem => by
      obtain ⟨⟨found, report⟩, hitem, rfl⟩ := List.mem_map.mp hmem
      exact hnone report hitem).1
        (quiet_watchAgain (hagrees targetId) (hnonneg targetId) (hraised targetId))
    rw [PlainTarget.rewatched_eq ((hraised targetId).silent hnone)] at hquiet
    exact hquiet.agrees

/-! ## Events -/

omit [DecidableEq τ] [LinearOrder ι] in
theorem isOpen_foldl {α : Type} {body : WatchClient τ ι δ → α → WatchClient τ ι δ}
    (hbody : ∀ client item, (body client item).isOpen = client.isOpen) (items : List α)
    (client : WatchClient τ ι δ) : (items.foldl body client).isOpen = client.isOpen := by
  induction items generalizing client with
  | nil => rfl
  | cons item items ih => rw [List.foldl_cons, ih, hbody]

/-- The reports are about the views only. -/
theorem applyTargetChange_keeps {change : τ × TargetReport ι}
    (hnext : client.applyTargetChange change = .ok next) :
    (next.isOpen, next.aggregator) = (client.isOpen, client.aggregator) := by
  unfold applyTargetChange at hnext
  dsimp only at hnext
  by_cases hsubset : change.2.modifiedDocuments ⊆
      client.remoteKeys change.1 ∪ change.2.addedDocuments
  · rw [hardAssert_of hsubset, ok_bind] at hnext
    rw [← Except.ok.inj hnext]
  · simp [hardAssert_of_not hsubset] at hnext

omit [LinearOrder ι] in
theorem pendingDocumentUpdates_watchAgain (targetIds : List τ) (client : WatchClient τ ι δ) :
    (targetIds.foldl watchAgain client).aggregator.pendingDocumentUpdates =
      client.aggregator.pendingDocumentUpdates := by
  induction targetIds generalizing client with
  | nil => rfl
  | cons targetId targetIds ih =>
      rw [List.foldl_cons, ih]
      rfl

/-- A snapshot leaves the stream open, and no version of a document behind. -/
theorem raiseWatchSnapshot_keeps (hnext : client.raiseWatchSnapshot = .ok next) :
    next.isOpen = client.isOpen ∧ next.aggregator.pendingDocumentUpdates = ∅ := by
  have hkeeps := foldlM_keeps
    (fun client : WatchClient τ ι δ => (client.isOpen, client.aggregator))
    (fun _ _ _ hstep => applyTargetChange_keeps hstep) hnext
  obtain ⟨hisOpen, haggregator⟩ := Prod.mk.inj hkeeps
  constructor
  · rw [hisOpen, isOpen_foldl]
    intro client targetId
    rfl
  · rw [haggregator, pendingDocumentUpdates_watchAgain]
    rfl

/-- The client and the plain client after the same events. -/
structure Mirrors (client : WatchClient τ ι δ) (plain : PlainClient τ ι δ) : Prop where
  isOpen : client.isOpen = plain.isOpen
  agrees : ∀ targetId, client.Agrees targetId (plain.target targetId)
  closed : client.isOpen = false → client.aggregator = {}
  sound : plain.Sound
  news : ∀ key, client.aggregator.pendingDocumentUpdates.lookup key = plain.news key

variable {plain : PlainClient τ ι δ}

theorem Mirrors.keys_ne_nil_iff (hmirrors : Mirrors client plain) :
    client.listenTargets.keys ≠ [] ↔ ∃ targetId, (plain.target targetId).data.isSome = true := by
  constructor
  · intro hne
    obtain ⟨targetId, hmem⟩ := List.exists_mem_of_ne_nil _ hne
    exact ⟨targetId, (hmirrors.agrees targetId).mem_listenTargets.mp (AList.mem_keys.mpr hmem)⟩
  · rintro ⟨targetId, hsome⟩
    exact List.ne_nil_of_mem
      (AList.mem_keys.mp ((hmirrors.agrees targetId).mem_listenTargets.mpr hsome))

theorem Mirrors.exists_handleWatchChange (hmirrors : Mirrors client plain)
    (hopen : client.isOpen = true) {change : WatchChange τ ι δ} {snapshot : Bool}
    (hanswered : plain.Answered (.change change snapshot))
    (herror : ¬ IsTargetError change) (hfails : ¬ plain.Fails (.change change snapshot)) :
    ∃ aggregator, client.handleWatchChange change = .ok { client with aggregator := aggregator } ∧
      (∀ targetId, Agrees { client with aggregator := aggregator } targetId
        ((plain.handle change).target targetId)) ∧
      ∀ key, aggregator.pendingDocumentUpdates.lookup key = (plain.handle change).news key := by
  cases change with
  | document change =>
      refine ⟨_, rfl, fun targetId => ?_, fun key => ?_⟩
      · have htarget := (hmirrors.agrees targetId).handleDocumentChange change
        rw [PlainClient.handle]
        simp only [PlainClient.each, PlainClient.target_learn]
        exact htarget
      · have hinforms := informs_handleDocumentChange client.metadata client.aggregator change
        rw [hinforms.updates, hmirrors.news, PlainClient.handle]
        simp only [PlainClient.each, PlainClient.news_learn]
        simp only [(hmirrors.agrees _).isActive_iff]
  | target change =>
      -- the two assertions on a message about targets: a removal has no cause, and answers name
      -- their targets
      have hcause : change.state = .removed → change.causeOk = true := fun hremoved => by
        simpa [IsTargetError, hremoved] using herror
      have hnamed : change.targetIds = [] → change.state ≠ .added ∧ change.state ≠ .removed :=
        fun hempty => ⟨fun hadded => (hanswered (.inl hadded)).1 hempty,
          fun hremoved => (hanswered (.inr ⟨hremoved, hcause hremoved⟩)).1 hempty⟩
      obtain ⟨aggregator, hnext, htracked⟩ :=
        exists_handleTargetChange client.metadata client.aggregator change hcause hnamed
      refine ⟨aggregator, by rw [handleWatchChange, hnext, ok_bind]; rfl, fun targetId => ?_,
        fun key => ?_⟩
      swap
      · rw [pendingDocumentUpdates_handleTargetChange hnext, hmirrors.news, PlainClient.handle]
        split <;> rfl
      have htarget := htracked targetId _ (hmirrors.agrees targetId) fun hactive =>
        (hmirrors.sound targetId).heard (hmirrors.isOpen ▸ hopen) hactive.2
      unfold PlainClient.handle
      dsimp only
      split at htarget
      · rename_i hids
        rw [if_pos hids]
        exact htarget
      · rename_i hids
        rw [if_neg hids]
        exact htarget
  | existenceFilter targetId count =>
      have hfilter := (hmirrors.agrees targetId).handleExistenceFilter count
      -- the one assertion on a filter is about the count of a query for one document
      have hcounts : ¬ (plain.target targetId).Miscounts count := hfails
      rw [if_neg hcounts] at hfilter
      obtain ⟨aggregator, hnext, hedits⟩ := hfilter
      refine ⟨aggregator, by rw [handleWatchChange, hnext, ok_bind]; rfl, fun other => ?_,
        fun key => ?_⟩
      · rw [PlainClient.handle, PlainClient.target_each_singleton, PlainClient.target_learnCount]
        split
        · rename_i hsame
          subst hsame
          exact hedits.itself _ (hmirrors.agrees _)
        · rename_i hne
          exact hedits.others other hne _ (hmirrors.agrees other)
      · rw [(hmirrors.agrees targetId).lookup_handleExistenceFilter hnext, hmirrors.news]
        exact (plain.news_learnCount targetId count key).symm

omit [LinearOrder ι] in
theorem pendingDocumentUpdates_rejectTarget (targetIds : List τ) (client : WatchClient τ ι δ) :
    (targetIds.foldl rejectTarget client).aggregator.pendingDocumentUpdates =
      client.aggregator.pendingDocumentUpdates := by
  induction targetIds generalizing client with
  | nil => rfl
  | cons targetId targetIds ih =>
      rw [List.foldl_cons, ih]
      unfold rejectTarget
      split <;> rfl

theorem Mirrors.exists_onWatchStreamChange (hmirrors : Mirrors client plain)
    (hopen : client.isOpen = true) {change : WatchChange τ ι δ} {snapshot : Bool}
    (hanswered : plain.Answered (.change change snapshot))
    (hfails : ¬ plain.Fails (.change change snapshot)) :
    ∃ next, client.onWatchStreamChange change snapshot = .ok next ∧
      next.isOpen = client.isOpen ∧
      (∀ targetId, next.Agrees targetId
        ((plain.step (.change change snapshot)).target targetId)) ∧
      ∀ key, next.aggregator.pendingDocumentUpdates.lookup key =
        (plain.step (.change change snapshot)).news key := by
  unfold onWatchStreamChange PlainClient.step
  by_cases herror : IsTargetError change
  · simp only [if_pos herror]
    refine ⟨_, rfl, isOpen_foldl (fun client targetId => ?_) _ _, fun targetId =>
      foldl_edits edits_rejectTarget (targetIds change) (hmirrors.agrees targetId), fun key => ?_⟩
    · unfold rejectTarget
      split <;> rfl
    · rw [pendingDocumentUpdates_rejectTarget, hmirrors.news]
      rfl
  · obtain ⟨aggregator, hhandle, hagrees, hnews⟩ :=
      hmirrors.exists_handleWatchChange hopen hanswered herror hfails
    simp only [if_neg herror, hhandle, ok_bind]
    cases snapshot with
    | false => exact ⟨_, rfl, rfl, hagrees, hnews⟩
    | true =>
        have hsound := hmirrors.sound.handle hanswered herror
        obtain ⟨next, hnext, hraised⟩ := exists_raiseWatchSnapshot hagrees
          fun targetId => (hsound targetId).nonneg
        obtain ⟨hisOpen, hupdates⟩ := raiseWatchSnapshot_keeps hnext
        exact ⟨next, hnext, hisOpen, hraised, fun key => by rw [hupdates]; rfl⟩

omit [LinearOrder ι] in
theorem pendingDocumentUpdates_listen (client : WatchClient τ ι δ) (targetId : τ)
    (data : TargetData ι) (keys : Finset ι) :
    (client.listen targetId data keys).aggregator.pendingDocumentUpdates =
      client.aggregator.pendingDocumentUpdates := by
  unfold WatchClient.listen
  split
  · rfl
  · dsimp only
    split <;> rfl

omit [LinearOrder ι] in
theorem pendingDocumentUpdates_given (client : WatchClient τ ι δ) (targetId : τ) :
    (client.given targetId).aggregator.pendingDocumentUpdates =
      client.aggregator.pendingDocumentUpdates := by
  unfold WatchClient.given
  split <;> rfl

omit [LinearOrder ι] in
theorem pendingDocumentUpdates_streamOpen (client : WatchClient τ ι δ) :
    client.streamOpen.aggregator.pendingDocumentUpdates = ∅ := by
  have hloop : ∀ (targetIds : List τ) (client : WatchClient τ ι δ),
      (targetIds.foldl sendRequest client).aggregator.pendingDocumentUpdates =
        client.aggregator.pendingDocumentUpdates := by
    intro targetIds
    induction targetIds with
    | nil => exact fun _ => rfl
    | cons targetId targetIds ih => exact fun client => ih (client.sendRequest targetId)
  rw [WatchClient.streamOpen, hloop]

/-- An event that does not end the process keeps the client and the plain client alike. -/
theorem Mirrors.exists_mirrors (hmirrors : Mirrors client plain) {event : WatchClientEvent τ ι δ}
    (hpossible : client.Possible event) (hanswered : plain.Answered event)
    (hfails : ¬ plain.Fails event) :
    ∃ next, client.step event = .ok next ∧ Mirrors next (plain.step event) := by
  have hsound := hmirrors.sound.step hanswered
  -- an event about one target leaves the others alone; the stream and its messages are about all
  cases event with
  | listen targetId data keys =>
      have hisOpen : (client.listen targetId data keys).isOpen = client.isOpen := by
        unfold WatchClient.listen
        split
        · rfl
        · dsimp only
          split <;> rfl
      refine ⟨_, rfl, hisOpen.trans hmirrors.isOpen, fun other => ?_, fun hclosed => ?_, hsound,
        fun key => ?_⟩
      · rw [PlainClient.step, PlainClient.target_each_singleton]
        split
        · rename_i hsame
          subst hsame
          rw [← hmirrors.isOpen]
          exact (hmirrors.agrees other).listen (hmirrors.sound other).nonneg hmirrors.closed data
            keys
        · rename_i hne
          exact (hmirrors.agrees other).listen_others hne data keys
      · rw [hisOpen] at hclosed
        unfold WatchClient.listen
        split
        · exact hmirrors.closed hclosed
        · simpa [hclosed] using hmirrors.closed hclosed
      · rw [pendingDocumentUpdates_listen, hmirrors.news]
        rfl
  | stopListening targetId =>
      have hmem : targetId ∈ client.listenTargets :=
        (hmirrors.agrees targetId).mem_listenTargets.mpr (Option.isSome_iff_ne_none.mpr hfails)
      have hisOpen : (client.given targetId).isOpen = client.isOpen := by
        unfold given
        split <;> rfl
      refine ⟨client.given targetId, ?_, hisOpen.trans hmirrors.isOpen, fun other => ?_,
        fun hclosed => ?_, hsound, fun key => ?_⟩
      · rw [WatchClient.step, WatchClient.stopListening, hardAssert_of hmem, ok_bind]
        rfl
      · rw [PlainClient.step, PlainClient.target_each_singleton]
        split
        · rename_i hsame
          subst hsame
          rw [← hmirrors.isOpen]
          exact (hmirrors.agrees other).given (hmirrors.sound other).nonneg
        · rename_i hne
          exact (hmirrors.agrees other).given_others hne
      · rw [hisOpen] at hclosed
        simpa [given, hclosed, forget] using hmirrors.closed hclosed
      · rw [pendingDocumentUpdates_given, hmirrors.news]
        rfl
  | streamOpen =>
      have hisOpen : client.streamOpen.isOpen = true :=
        isOpen_foldl (fun (client : WatchClient τ ι δ) targetId =>
          (rfl : (client.sendRequest targetId).isOpen = client.isOpen)) _ _
      refine ⟨_, rfl, hisOpen, fun targetId => (hmirrors.agrees targetId).streamOpen,
        fun hclosed => by simp [hisOpen] at hclosed, hsound, fun key => ?_⟩
      rw [pendingDocumentUpdates_streamOpen]
      rfl
  | streamClose statusOk canUseNetwork =>
      have hneeded : statusOk = true → ¬ (canUseNetwork = true ∧ client.listenTargets.keys ≠ []) :=
        fun hok hneeded => hfails ⟨hok, hneeded.1, hmirrors.keys_ne_nil_iff.mp hneeded.2⟩
      refine ⟨{ client with isOpen := false, aggregator := {} }, ?_, rfl,
        fun targetId => ((hmirrors.agrees targetId).restart false).agrees, fun _ => rfl, hsound,
        fun _ => rfl⟩
      rw [WatchClient.step, streamClose, hardAssert_of hneeded, ok_bind]
      rfl
  | change change snapshot =>
      have hopen : client.isOpen = true := hpossible
      obtain ⟨next, hnext, hisOpen, hagrees, hnews⟩ :=
        hmirrors.exists_onWatchStreamChange hopen hanswered hfails
      refine ⟨next, hnext, ?_, hagrees, fun hclosed => ?_, hsound, hnews⟩
      · rw [hisOpen, hmirrors.isOpen, PlainClient.isOpen_step_change]
      · rw [hisOpen, hopen] at hclosed
        simp at hclosed

theorem Mirrors.step_fails (hmirrors : Mirrors client plain) {event : WatchClientEvent τ ι δ}
    (hfails : plain.Fails event) : ∃ fatal, client.step event = .error fatal := by
  cases event with
  | stopListening targetId =>
      have hnone : (plain.target targetId).data = none := hfails
      have hmem : targetId ∉ client.listenTargets := by
        rw [(hmirrors.agrees targetId).mem_listenTargets, hnone]
        simp
      exact ⟨.targetNotWatched, by
        rw [WatchClient.step, WatchClient.stopListening, hardAssert_of_not hmem, error_bind]⟩
  | change change snapshot =>
      cases change with
      | existenceFilter targetId count =>
          have hcounts : (plain.target targetId).Miscounts count := hfails
          have hfilter := (hmirrors.agrees targetId).handleExistenceFilter count
          rw [if_pos hcounts] at hfilter
          have herror : ¬ IsTargetError (.existenceFilter targetId count : WatchChange τ ι δ) := id
          refine ⟨.documentFilterCount, ?_⟩
          rw [WatchClient.step, onWatchStreamChange, if_neg herror, handleWatchChange, hfilter]
          rfl
      | document change => exact hfails.elim
      | target change => exact hfails.elim
  | listen targetId data keys => exact hfails.elim
  | streamOpen => exact hfails.elim
  | streamClose statusOk canUseNetwork =>
      obtain ⟨hok, hnetwork, htargets⟩ := hfails
      have hneeded :
          ¬ (statusOk = true → ¬ (canUseNetwork = true ∧ client.listenTargets.keys ≠ [])) :=
        fun hstopped => hstopped hok ⟨hnetwork, hmirrors.keys_ne_nil_iff.mpr htargets⟩
      exact ⟨.stoppedWhileNeeded, by
        rw [WatchClient.step, streamClose, hardAssert_of_not hneeded, error_bind]⟩

/-! ## Runs -/

/-- The client and the plain client take an event together. -/
def stepBoth (state : WatchClient τ ι δ × PlainClient τ ι δ) (event : WatchClientEvent τ ι δ) :
    Option (WatchClient τ ι δ × PlainClient τ ι δ) :=
  (state.1.step event).toOption.map fun next => (next, state.2.step event)

/-- An event that can happen, of a server that answers what is requested. -/
def Expected (state : WatchClient τ ι δ × PlainClient τ ι δ) (event : WatchClientEvent τ ι δ) :
    Prop :=
  state.1.Possible event ∧ state.2.Answered event

instance (state : WatchClient τ ι δ × PlainClient τ ι δ) : DecidablePred (Expected state) :=
  fun _ => inferInstanceAs (Decidable (_ ∧ _))

variable {state : WatchClient τ ι δ × PlainClient τ ι δ}

theorem mirrors_start : Mirrors ({} : WatchClient τ ι δ) {} where
  isOpen := rfl
  agrees targetId := ⟨rfl, rfl, rfl, fun hheard => by simp at hheard, by simp,
    fun hactive => by simp [PlainTarget.IsActive] at hactive⟩
  closed _ := rfl
  sound targetId := ⟨le_rfl, fun hopen => by simp at hopen⟩
  news _ := rfl

theorem mirrors_of_reaches (hreach : Reaches stepBoth Expected ({}, {}) state) :
    Mirrors state.1 state.2 := by
  refine hreach.invariant (P := fun state => Mirrors state.1 state.2) mirrors_start ?_
  rintro ⟨client, plain⟩ event next hmirrors ⟨hpossible, hanswered⟩ hstep
  obtain ⟨after, hafter, rfl⟩ := Option.map_eq_some_iff.mp hstep
  have hfails : ¬ plain.Fails event := by
    intro hfails
    obtain ⟨fatal, hfatal⟩ := hmirrors.step_fails hfails
    simp [hfatal, Except.toOption] at hafter
  obtain ⟨result, hresult, hnext⟩ := hmirrors.exists_mirrors hpossible hanswered hfails
  obtain rfl : result = after := by simpa [hresult, Except.toOption] using hafter
  exact hnext

/-- What the views of the client are shown is what they would be shown if the documents of
every target were simply kept, and the changes since the last snapshot add up to what the
server has told of an active target. -/
theorem shown_as_told (hreach : Reaches stepBoth Expected ({}, {}) state) (targetId : τ) :
    state.1.listenTargets.lookup targetId = (state.2.target targetId).data ∧
      state.1.remoteKeys targetId = (state.2.target targetId).shown ∧
      ((state.2.target targetId).IsActive →
        (state.1.aggregator.targetState targetId).contents (state.1.remoteKeys targetId) =
          (state.2.target targetId).told) := by
  have hagrees := (mirrors_of_reaches hreach).agrees targetId
  have hshown : state.1.remoteKeys targetId = (state.2.target targetId).shown := hagrees.shown
  refine ⟨hagrees.data, hshown, fun hactive => ?_⟩
  rw [hshown]
  exact (hagrees.holds hactive).told

/-- A target of which a document comes and one goes. -/
def toldRun : List (WatchClientEvent ℕ ℕ ℕ) :=
  [.streamOpen, .listen 1 {} {5, 6}, .change (.document ⟨[1], [], 9, some (.found 90)⟩) false,
    .change (.target ⟨.added, [1], [], true⟩) false,
    .change (.document ⟨[1], [], 7, some (.found 70)⟩) false,
    .change (.document ⟨[], [1], 5, none⟩) false]

theorem shown_as_told_current : ∃ state : WatchClient ℕ ℕ ℕ × PlainClient ℕ ℕ ℕ,
    state.1.remoteKeys 1 = {6, 7} := by
  have hrun : ∃ state : WatchClient ℕ ℕ ℕ × PlainClient ℕ ℕ ℕ,
      Reaches stepBoth Expected ({}, {}) state ∧ (state.2.target 1).shown = {6, 7} :=
    exists_reaches_of_run (toldRun ++ [.change (.target ⟨.current, [1], [], true⟩) true])
      (by decide)
  obtain ⟨state, hreach, hshown⟩ := hrun
  exact ⟨state, (shown_as_told hreach 1).2.1.trans hshown⟩

/-- An event ends the process exactly if a target is given up that is not listened to, the
stream ends without an error while it is needed, or the server counts more documents than
the one that is queried.  No other assertion fails. -/
theorem watch_client_fails_iff (hreach : Reaches stepBoth Expected ({}, {}) state)
    {event : WatchClientEvent τ ι δ} (hexpected : Expected state event) :
    (∃ fatal, state.1.step event = .error fatal) ↔ state.2.Fails event := by
  have hmirrors := mirrors_of_reaches hreach
  refine ⟨fun ⟨fatal, hfatal⟩ => ?_, hmirrors.step_fails⟩
  by_contra hfails
  obtain ⟨next, hnext, -⟩ := hmirrors.exists_mirrors hexpected.1 hexpected.2 hfails
  simp [hfatal] at hnext

/-- The query for one document, with two of them. -/
theorem watch_client_fails_iff_two : ∃ state : WatchClient ℕ ℕ ℕ × PlainClient ℕ ℕ ℕ,
    ∃ fatal, state.1.step (.change (.existenceFilter 1 2) false) = .error fatal := by
  have hrun : ∃ state : WatchClient ℕ ℕ ℕ × PlainClient ℕ ℕ ℕ,
      Reaches stepBoth Expected ({}, {}) state ∧
        state.1.isOpen = true ∧ (state.2.target 1).Miscounts 2 :=
    exists_reaches_of_run [.streamOpen, .listen 1 { documentQuery := some 5 } ∅,
      .change (.target ⟨.added, [1], [], true⟩) false] (by decide)
  obtain ⟨state, hreach, hopen, hcounts⟩ := hrun
  have hexpected : Expected state (.change (.existenceFilter 1 2) false) := ⟨hopen, trivial⟩
  exact ⟨state, (watch_client_fails_iff hreach hexpected).mpr hcounts⟩

/-- A remote event reports a target once, if at all; the report is the difference between
what the server has told of the target and what is shown, of documents of which there is
news, and a target without a report has no difference.  The event has the versions of the
documents that the server has told last, and besides only that a document does not exist
which is queried for alone. -/
theorem remote_event_reports (hreach : Reaches stepBoth Expected ({}, {}) state) :
    let event := (state.1.aggregator.createRemoteEvent state.1.metadata).2
    (event.targetChanges.map (·.1)).Nodup ∧
      (∀ targetId report, (targetId, report) ∈ event.targetChanges →
        (state.2.target targetId).Reports state.2.news report) ∧
      (∀ targetId, (∀ report, (targetId, report) ∉ event.targetChanges) →
        (state.2.target targetId).IsActive →
          (state.2.target targetId).told = (state.2.target targetId).shown) ∧
      (∀ key document, state.2.news key = some document →
        event.documentUpdates.lookup key = some document) ∧
      ∀ key document, event.documentUpdates.lookup key = some document →
        state.2.news key = some document ∨
          document = .noDocument ∧ ∃ targetId, (state.2.target targetId).IsActive ∧
            (state.2.target targetId).data.bind (·.documentQuery) = some key := by
  have hmirrors := mirrors_of_reaches hreach
  have hraised := raised_createRemoteEvent hmirrors.agrees
  have hnews : (fun key => state.1.aggregator.pendingDocumentUpdates.lookup key) = state.2.news :=
    funext hmirrors.news
  rw [hnews] at hraised
  have hupdates := lookup_createRemoteEvent state.1.metadata state.1.aggregator
  refine ⟨nodup_targetChanges, fun targetId report => (hraised targetId).reports report,
    fun targetId => (hraised targetId).silent, fun key document hkey => ?_,
    fun key document hkey => ?_⟩
  · rcases hupdates key with hsame | hdeleted
    · rw [hsame, hmirrors.news, hkey]
    · have hunsaid := hdeleted.unsaid
      rw [hmirrors.news, hkey] at hunsaid
      cases hunsaid
  · rcases hupdates key with hsame | ⟨-, hmissing, targetId, data, hactive, hdata, hquery⟩
    · rw [hsame, hmirrors.news] at hkey
      exact .inl hkey
    · have hagrees := hmirrors.agrees targetId
      rw [hmissing, Option.some.injEq] at hkey
      refine .inr ⟨hkey.symm, targetId, hagrees.isActive_iff.mp hactive, ?_⟩
      rw [← hagrees.data, hdata, Option.bind_some, hquery]

theorem remote_event_reports_told : ∃ state : WatchClient ℕ ℕ ℕ × PlainClient ℕ ℕ ℕ,
    ∃ report, (1, report) ∈
        (state.1.aggregator.createRemoteEvent state.1.metadata).2.targetChanges ∧
      report.addedDocuments = {7} ∧ report.removedDocuments = {5} ∧
      (state.1.aggregator.createRemoteEvent state.1.metadata).2.documentUpdates.lookup 7 =
        some (.found 70) := by
  have hrun : ∃ state : WatchClient ℕ ℕ ℕ × PlainClient ℕ ℕ ℕ,
      Reaches stepBoth Expected ({}, {}) state ∧ (state.2.target 1).IsActive ∧
        (state.2.target 1).told = {6, 7} ∧ (state.2.target 1).shown = {5, 6} ∧
        state.2.news 7 = some (.found 70) :=
    exists_reaches_of_run toldRun (by decide)
  obtain ⟨state, hreach, hactive, htold, hshown, hnews⟩ := hrun
  obtain ⟨-, hreports, hsilent, hupdates, -⟩ := remote_event_reports hreach
  by_contra hnone
  have hsame := hsilent 1 (fun report hmem => hnone ⟨state, report, hmem, by
    rw [(hreports 1 report hmem).added, htold, hshown]
    decide, by
    rw [(hreports 1 report hmem).removed, htold, hshown]
    decide, hupdates 7 _ hnews⟩) hactive
  rw [htold, hshown] at hsame
  exact absurd hsame (by decide)

/-! ## The view of a target -/

variable {α κ : Type} [LinearOrder κ] {K : Keying α ι κ}

/-- The keys of a target change as the documents of its view do. -/
theorem applyTargetChange_view {view : View K}
    (hsynced : view.syncedDocuments = client.remoteKeys targetId) (report : TargetReport ι) :
    (view.applyTargetChange (some report.toTargetChange)).map View.syncedDocuments =
      (client.applyTargetChange (targetId, report)).toOption.map (·.remoteKeys targetId) := by
  unfold View.applyTargetChange WatchClient.applyTargetChange
  dsimp only
  rw [hsynced]
  by_cases hsubset : report.modifiedDocuments ⊆
      client.remoteKeys targetId ∪ report.addedDocuments
  · rw [if_pos hsubset, hardAssert_of hsubset, ok_bind]
    simp [pure, Except.pure, Except.toOption]
  · rw [if_neg hsubset, hardAssert_of_not hsubset, error_bind]
    rfl

/-- A report in a remote event is what a query with the view of the target relies on. -/
theorem remote_event_proper (hreach : Reaches stepBoth Expected ({}, {}) state)
    {report : TargetReport ι} (hreport : (targetId, report) ∈
      (state.1.aggregator.createRemoteEvent state.1.metadata).2.targetChanges)
    {query : QueryState K}
    (hview : ∀ view ∈ query.view, view.syncedDocuments = state.1.remoteKeys targetId)
    (changes : DocumentMap K) (refill : QueryResult K) :
    query.Proper (.emitNewSnapshots changes refill (some report.toTargetChange)) := by
  intro view hmem
  have hagrees := (mirrors_of_reaches hreach).agrees
  have hreports := (raised_createRemoteEvent hagrees targetId).reports report hreport
  have hshown : state.1.remoteKeys targetId = (state.2.target targetId).shown :=
    (hagrees targetId).shown
  rw [hview view hmem, hshown]
  exact hreports.modified.trans (Finset.inter_subset_right.trans Finset.subset_union_left)

end WatchClient

end Pompom.Firestore
