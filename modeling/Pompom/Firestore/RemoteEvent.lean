import Mathlib.Data.Finset.Sort
import Mathlib.Data.List.AList
import Pompom.Firestore.WatchStream

/-!
# What the server says of the targets

`WatchChangeAggregator` (`remote/remote_event.cc`) collects the messages of a stream into
one `RemoteEvent` for each snapshot.  It does not keep the documents of a target, only
how they differ from those of the last snapshot, and it ignores what is said of a target
while a request for it has not been answered.

`WatchClient` is the aggregator with the parts of the remote store and of the sync engine
that it depends on: the targets that are listened to, and the keys that their views show
(`GetRemoteKeys`).  There is one query to a target.  Targets that resolve documents in
limbo, of which the sync engine keeps the keys in another way, are not listened to here.
Snapshot versions are left out.
-/

namespace Pompom.Firestore

/-! ## Messages -/

/-- A found document, or the news that there is none. -/
inductive MutableDocument (δ : Type) where
  | found (data : δ)
  | noDocument
  deriving DecidableEq

structure DocumentWatchChange (τ ι δ : Type) where
  updatedTargetIds : List τ
  removedTargetIds : List τ
  documentKey : ι
  newDocument : Option (MutableDocument δ)

inductive WatchTargetChangeState where
  | noChange
  | added
  | removed
  | current
  | reset
  deriving DecidableEq

structure WatchTargetChange (τ : Type) where
  state : WatchTargetChangeState
  targetIds : List τ
  resumeToken : List UInt8 := []
  causeOk : Bool := true

inductive WatchChange (τ ι δ : Type) where
  | document (change : DocumentWatchChange τ ι δ)
  | target (change : WatchTargetChange τ)
  | existenceFilter (targetId : τ) (count : ℤ)

/-! ## Targets -/

/-- What is read of `TargetData`: the key of a query for a single document, and whether
the target is there to resolve a document in limbo. -/
structure TargetData (ι : Type) where
  documentQuery : Option ι := none
  limboResolution : Bool := false
  deriving DecidableEq

/-- The types of changes that are recorded for a target. -/
inductive TargetDocumentChange where
  | added
  | modified
  | removed
  deriving DecidableEq

/-- `TargetChange`, with its resume token. -/
structure TargetReport (ι : Type) extends TargetChange ι where
  resumeToken : List UInt8

structure TargetState (ι : Type) where
  outstandingResponses : ℤ := 0
  documentChanges : AList fun _ : ι => TargetDocumentChange := ∅
  resumeToken : List UInt8 := []
  current : Bool := false
  hasPendingChanges : Bool := true

namespace TargetState

variable {ι : Type} [LinearOrder ι]

def IsPending (state : TargetState ι) : Prop :=
  state.outstandingResponses ≠ 0

instance (state : TargetState ι) : Decidable state.IsPending :=
  inferInstanceAs (Decidable (_ ≠ _))

def updateResumeToken (state : TargetState ι) (resumeToken : List UInt8) : TargetState ι :=
  if resumeToken ≠ [] then
    { state with hasPendingChanges := true, resumeToken := resumeToken }
  else state

/-- The keys with changes of one type. -/
def keysOf (state : TargetState ι) (type : TargetDocumentChange) : Finset ι :=
  ((state.documentChanges.entries.filter fun entry => entry.2 = type).map (·.1)).toFinset

def toTargetChange (state : TargetState ι) : TargetReport ι where
  addedDocuments := state.keysOf .added
  modifiedDocuments := state.keysOf .modified
  removedDocuments := state.keysOf .removed
  current := state.current
  resumeToken := state.resumeToken

def clearPendingChanges (state : TargetState ι) : TargetState ι :=
  { state with hasPendingChanges := false, documentChanges := ∅ }

def recordPendingTargetRequest (state : TargetState ι) : TargetState ι :=
  { state with outstandingResponses := state.outstandingResponses + 1 }

def recordTargetResponse (state : TargetState ι) : TargetState ι :=
  { state with outstandingResponses := state.outstandingResponses - 1 }

def markCurrent (state : TargetState ι) : TargetState ι :=
  { state with hasPendingChanges := true, current := true }

def addDocumentChange (state : TargetState ι) (documentKey : ι) (type : TargetDocumentChange) :
    TargetState ι :=
  { state with
    hasPendingChanges := true
    documentChanges := state.documentChanges.insert documentKey type }

def removeDocumentChange (state : TargetState ι) (documentKey : ι) : TargetState ι :=
  { state with
    hasPendingChanges := true
    documentChanges := state.documentChanges.erase documentKey }

end TargetState

/-- `TargetMetadataProvider`. -/
structure TargetMetadata (τ ι : Type) where
  targetData : τ → Option (TargetData ι)
  remoteKeys : τ → Finset ι

structure RemoteEvent (τ ι δ : Type) where
  targetChanges : List (τ × TargetReport ι)
  targetMismatches : Finset τ
  documentUpdates : AList fun _ : ι => MutableDocument δ
  limboDocumentChanges : Finset ι

/-! ## The aggregator -/

structure WatchChangeAggregator (τ ι δ : Type) where
  targetStates : AList fun _ : τ => TargetState ι := ∅
  pendingDocumentUpdates : AList fun _ : ι => MutableDocument δ := ∅
  pendingDocumentTargetMappings : AList fun _ : ι => Finset τ := ∅
  pendingTargetResets : Finset τ := ∅

namespace WatchChangeAggregator

variable {τ ι δ : Type} [DecidableEq τ] [LinearOrder ι]

/-- The state of a target, which is a new one if there is none yet. -/
def targetState (aggregator : WatchChangeAggregator τ ι δ) (targetId : τ) : TargetState ι :=
  (aggregator.targetStates.lookup targetId).getD {}

def setTargetState (aggregator : WatchChangeAggregator τ ι δ) (targetId : τ)
    (state : TargetState ι) : WatchChangeAggregator τ ι δ :=
  { aggregator with targetStates := aggregator.targetStates.insert targetId state }

def ensureTargetState (aggregator : WatchChangeAggregator τ ι δ) (targetId : τ) :
    WatchChangeAggregator τ ι δ :=
  aggregator.setTargetState targetId (aggregator.targetState targetId)

def targetDataForActiveTarget (metadata : TargetMetadata τ ι)
    (aggregator : WatchChangeAggregator τ ι δ) (targetId : τ) : Option (TargetData ι) :=
  if (aggregator.targetState targetId).IsPending then none else metadata.targetData targetId

def IsActiveTarget (metadata : TargetMetadata τ ι) (aggregator : WatchChangeAggregator τ ι δ)
    (targetId : τ) : Prop :=
  (aggregator.targetDataForActiveTarget metadata targetId).isSome = true

instance (metadata : TargetMetadata τ ι) (aggregator : WatchChangeAggregator τ ι δ)
    (targetId : τ) : Decidable (aggregator.IsActiveTarget metadata targetId) :=
  inferInstanceAs (Decidable (_ = _))

def recordPendingTargetRequest (aggregator : WatchChangeAggregator τ ι δ) (targetId : τ) :
    WatchChangeAggregator τ ι δ :=
  aggregator.setTargetState targetId
    (aggregator.targetState targetId).recordPendingTargetRequest

def removeTarget (aggregator : WatchChangeAggregator τ ι δ) (targetId : τ) :
    WatchChangeAggregator τ ι δ :=
  { aggregator with targetStates := aggregator.targetStates.erase targetId }

/-- A target is put among those of a document. -/
def mapDocument (aggregator : WatchChangeAggregator τ ι δ) (targetId : τ) (key : ι) :
    WatchChangeAggregator τ ι δ :=
  { aggregator with
    pendingDocumentTargetMappings := aggregator.pendingDocumentTargetMappings.insert key
      (insert targetId ((aggregator.pendingDocumentTargetMappings.lookup key).getD ∅)) }

def updateDocument (aggregator : WatchChangeAggregator τ ι δ) (key : ι)
    (document : MutableDocument δ) : WatchChangeAggregator τ ι δ :=
  { aggregator with
    pendingDocumentUpdates := aggregator.pendingDocumentUpdates.insert key document }

def addDocumentToTarget (metadata : TargetMetadata τ ι) (aggregator : WatchChangeAggregator τ ι δ)
    (targetId : τ) (key : ι) (document : MutableDocument δ) : WatchChangeAggregator τ ι δ :=
  if aggregator.IsActiveTarget metadata targetId then
    let changeType := if key ∈ metadata.remoteKeys targetId then .modified else .added
    ((aggregator.setTargetState targetId
      ((aggregator.targetState targetId).addDocumentChange key changeType)).updateDocument key
        document).mapDocument targetId key
  else aggregator

def removeDocumentFromTarget (metadata : TargetMetadata τ ι)
    (aggregator : WatchChangeAggregator τ ι δ) (targetId : τ) (key : ι)
    (updatedDocument : Option (MutableDocument δ)) : WatchChangeAggregator τ ι δ :=
  if aggregator.IsActiveTarget metadata targetId then
    let state := aggregator.targetState targetId
    let aggregator := (aggregator.setTargetState targetId
      (if key ∈ metadata.remoteKeys targetId then state.addDocumentChange key .removed
        else state.removeDocumentChange key)).mapDocument targetId key
    match updatedDocument with
    | some document => aggregator.updateDocument key document
    | none => aggregator
  else aggregator

/-- The body of the loop over `updated_target_ids`. -/
def updateTarget (metadata : TargetMetadata τ ι) (change : DocumentWatchChange τ ι δ)
    (aggregator : WatchChangeAggregator τ ι δ) (targetId : τ) : WatchChangeAggregator τ ι δ :=
  match change.newDocument with
  | some (.found data) =>
      aggregator.addDocumentToTarget metadata targetId change.documentKey (.found data)
  | some .noDocument =>
      aggregator.removeDocumentFromTarget metadata targetId change.documentKey
        change.newDocument
  | none => aggregator

def handleDocumentChange (metadata : TargetMetadata τ ι)
    (aggregator : WatchChangeAggregator τ ι δ) (change : DocumentWatchChange τ ι δ) :
    WatchChangeAggregator τ ι δ :=
  change.removedTargetIds.foldl
    (fun aggregator targetId =>
      aggregator.removeDocumentFromTarget metadata targetId change.documentKey change.newDocument)
    (change.updatedTargetIds.foldl (updateTarget metadata change) aggregator)

def resetTarget (metadata : TargetMetadata τ ι) (aggregator : WatchChangeAggregator τ ι δ)
    (targetId : τ) : Except Fatal (WatchChangeAggregator τ ι δ) := do
  hardAssert ((aggregator.targetStates.lookup targetId).any fun state => ¬ state.IsPending)
    .resetInactiveTarget
  return ((metadata.remoteKeys targetId).sort (· ≤ ·)).foldl
    (fun aggregator key => aggregator.removeDocumentFromTarget metadata targetId key none)
    (aggregator.setTargetState targetId {})

/-- The body of the loop in `HandleTargetChange`. -/
def changeTarget (metadata : TargetMetadata τ ι) (change : WatchTargetChange τ)
    (aggregator : WatchChangeAggregator τ ι δ) (targetId : τ) :
    Except Fatal (WatchChangeAggregator τ ι δ) :=
  let aggregator := aggregator.ensureTargetState targetId
  let state := aggregator.targetState targetId
  match change.state with
  | .noChange =>
      if aggregator.IsActiveTarget metadata targetId then
        .ok (aggregator.setTargetState targetId (state.updateResumeToken change.resumeToken))
      else .ok aggregator
  | .added =>
      let state := state.recordTargetResponse
      -- the last answer: whatever was known before starts anew
      let state := if state.IsPending then state else state.clearPendingChanges
      .ok (aggregator.setTargetState targetId (state.updateResumeToken change.resumeToken))
  | .removed =>
      let state := state.recordTargetResponse
      let aggregator := aggregator.setTargetState targetId state
      let aggregator := if state.IsPending then aggregator else aggregator.removeTarget targetId
      do
        hardAssert (change.causeOk = true) .erroredTarget
        return aggregator
  | .current =>
      if aggregator.IsActiveTarget metadata targetId then
        .ok (aggregator.setTargetState targetId
          (state.markCurrent.updateResumeToken change.resumeToken))
      else .ok aggregator
  | .reset =>
      if aggregator.IsActiveTarget metadata targetId then do
        let aggregator ← aggregator.resetTarget metadata targetId
        return aggregator.setTargetState targetId
          ((aggregator.targetState targetId).updateResumeToken change.resumeToken)
      else .ok aggregator

def getTargetIds (metadata : TargetMetadata τ ι) (aggregator : WatchChangeAggregator τ ι δ)
    (change : WatchTargetChange τ) : List τ :=
  if change.targetIds ≠ [] then change.targetIds
  else aggregator.targetStates.keys.filter fun targetId =>
    aggregator.IsActiveTarget metadata targetId

def handleTargetChange (metadata : TargetMetadata τ ι) (aggregator : WatchChangeAggregator τ ι δ)
    (change : WatchTargetChange τ) : Except Fatal (WatchChangeAggregator τ ι δ) :=
  (aggregator.getTargetIds metadata change).foldlM (changeTarget metadata change) aggregator

def getCurrentDocumentCountForTarget (metadata : TargetMetadata τ ι)
    (aggregator : WatchChangeAggregator τ ι δ) (targetId : τ) : ℤ :=
  let targetChange := (aggregator.targetState targetId).toTargetChange
  (metadata.remoteKeys targetId).card + targetChange.addedDocuments.card -
    targetChange.removedDocuments.card

def handleExistenceFilter (metadata : TargetMetadata τ ι)
    (aggregator : WatchChangeAggregator τ ι δ) (targetId : τ) (expectedCount : ℤ) :
    Except Fatal (WatchChangeAggregator τ ι δ) :=
  match aggregator.targetDataForActiveTarget metadata targetId with
  | none => .ok aggregator
  | some targetData =>
      match targetData.documentQuery with
      | some key =>
          -- the document does not exist, which other queries of it have to be told too
          if expectedCount = 0 then
            .ok (aggregator.removeDocumentFromTarget metadata targetId key (some .noDocument))
          else do
            hardAssert (expectedCount = 1) .documentFilterCount
            return aggregator
      | none =>
          let aggregator := aggregator.ensureTargetState targetId
          -- a mismatch: everything is removed, and the next snapshot requests it again
          if aggregator.getCurrentDocumentCountForTarget metadata targetId ≠ expectedCount then do
            let aggregator ← aggregator.resetTarget metadata targetId
            return { aggregator with
              pendingTargetResets := insert targetId aggregator.pendingTargetResets }
          else .ok aggregator

/-- A document that the query for it alone does not find is deleted. -/
def deleteQueried (metadata : TargetMetadata τ ι) (aggregator : WatchChangeAggregator τ ι δ)
    (targetId : τ) (key : ι) : WatchChangeAggregator τ ι δ :=
  if (aggregator.targetState targetId).current = true ∧
      aggregator.pendingDocumentUpdates.lookup key = none ∧
      key ∉ metadata.remoteKeys targetId then
    aggregator.removeDocumentFromTarget metadata targetId key (some .noDocument)
  else aggregator

/-- The body of the loop over `target_states_` in `CreateRemoteEvent`. -/
def reportTarget (metadata : TargetMetadata τ ι)
    (collected : WatchChangeAggregator τ ι δ × List (τ × TargetReport ι)) (targetId : τ) :
    WatchChangeAggregator τ ι δ × List (τ × TargetReport ι) :=
  match collected.1.targetDataForActiveTarget metadata targetId with
  | none => collected
  | some targetData =>
      let aggregator :=
        match targetData.documentQuery with
        | some key => collected.1.deleteQueried metadata targetId key
        | none => collected.1
      let state := aggregator.targetState targetId
      if state.hasPendingChanges then
        (aggregator.setTargetState targetId state.clearPendingChanges,
          collected.2 ++ [(targetId, state.toTargetChange)])
      else (aggregator, collected.2)

/-- The documents whose targets are there only to resolve documents in limbo. -/
def resolvedLimboDocuments (metadata : TargetMetadata τ ι)
    (aggregator : WatchChangeAggregator τ ι δ) : Finset ι :=
  ((aggregator.pendingDocumentTargetMappings.entries.filter fun entry =>
    ∀ targetId ∈ entry.2, (aggregator.targetDataForActiveTarget metadata targetId).all
      (·.limboResolution)).map (·.1)).toFinset

def createRemoteEvent (metadata : TargetMetadata τ ι) (aggregator : WatchChangeAggregator τ ι δ) :
    WatchChangeAggregator τ ι δ × RemoteEvent τ ι δ :=
  let collected := aggregator.targetStates.keys.foldl (reportTarget metadata) (aggregator, [])
  let aggregator := collected.1
  ({ targetStates := aggregator.targetStates },
    { targetChanges := collected.2
      targetMismatches := aggregator.pendingTargetResets
      documentUpdates := aggregator.pendingDocumentUpdates
      limboDocumentChanges := aggregator.resolvedLimboDocuments metadata })

end WatchChangeAggregator

/-! ## The client -/

structure WatchClient (τ ι δ : Type) where
  listenTargets : AList fun _ : τ => TargetData ι := ∅
  /-- `GetRemoteKeysForTarget`: the keys of the documents that the views have been told. -/
  remoteKeys : τ → Finset ι := fun _ => ∅
  isOpen : Bool := false
  aggregator : WatchChangeAggregator τ ι δ := {}

inductive WatchClientEvent (τ ι δ : Type) where
  /-- A query is listened to, of which the local store has some documents from before. -/
  | listen (targetId : τ) (targetData : TargetData ι) (keys : Finset ι)
  | stopListening (targetId : τ)
  | streamOpen
  /-- The stream ends, and whether the network can be used then. -/
  | streamClose (statusOk canUseNetwork : Bool)
  /-- A message, and whether it completes a snapshot. -/
  | change (change : WatchChange τ ι δ) (snapshot : Bool)

namespace WatchClient

variable {τ ι δ : Type} [DecidableEq τ] [LinearOrder ι]

def metadata (client : WatchClient τ ι δ) : TargetMetadata τ ι where
  targetData targetId := client.listenTargets.lookup targetId
  remoteKeys := client.remoteKeys

/-- `SendWatchRequest` or `SendUnwatchRequest`. -/
def sendRequest (client : WatchClient τ ι δ) (targetId : τ) : WatchClient τ ι δ :=
  { client with aggregator := client.aggregator.recordPendingTargetRequest targetId }

def listen (client : WatchClient τ ι δ) (targetId : τ) (targetData : TargetData ι)
    (keys : Finset ι) : WatchClient τ ι δ :=
  if targetId ∈ client.listenTargets then client
  else
    let client := { client with
      listenTargets := client.listenTargets.insert targetId targetData
      remoteKeys := Function.update client.remoteKeys targetId keys }
    if client.isOpen then client.sendRequest targetId else client

/-- A target is no longer listened to, and its views are gone. -/
def forget (client : WatchClient τ ι δ) (targetId : τ) : WatchClient τ ι δ :=
  { client with
    listenTargets := client.listenTargets.erase targetId
    remoteKeys := Function.update client.remoteKeys targetId ∅ }

def stopListening (client : WatchClient τ ι δ) (targetId : τ) :
    Except Fatal (WatchClient τ ι δ) := do
  hardAssert (targetId ∈ client.listenTargets) .targetNotWatched
  let client := client.forget targetId
  return if client.isOpen then client.sendRequest targetId else client

/-- `OnWatchStreamOpen`, with the aggregator that the new stream has. -/
def streamOpen (client : WatchClient τ ι δ) : WatchClient τ ι δ :=
  client.listenTargets.keys.foldl sendRequest { client with isOpen := true, aggregator := {} }

/-- `OnWatchStreamClose`.  The stream has stopped, so it is to be started again as soon as
the network can be used and there are targets. -/
def streamClose (client : WatchClient τ ι δ) (statusOk canUseNetwork : Bool) :
    Except Fatal (WatchClient τ ι δ) := do
  hardAssert (statusOk = true → ¬ (canUseNetwork = true ∧ client.listenTargets.keys ≠ []))
    .stoppedWhileNeeded
  return { client with isOpen := false, aggregator := {} }

/-- The body of the loop in `ProcessTargetError`, and what follows of it. -/
def rejectTarget (client : WatchClient τ ι δ) (targetId : τ) : WatchClient τ ι δ :=
  if targetId ∈ client.listenTargets then
    { client.forget targetId with aggregator := client.aggregator.removeTarget targetId }
  else client

/-- `View::ApplyTargetChange`, of the view of a target. -/
def applyTargetChange (client : WatchClient τ ι δ) (change : τ × TargetReport ι) :
    Except Fatal (WatchClient τ ι δ) := do
  let keys := client.remoteKeys change.1 ∪ change.2.addedDocuments
  hardAssert (change.2.modifiedDocuments ⊆ keys) .modifiedUnknown
  return { client with
    remoteKeys := Function.update client.remoteKeys change.1 (keys \ change.2.removedDocuments) }

/-- The body of the loop over `target_mismatches` in `RaiseWatchSnapshot`. -/
def watchAgain (client : WatchClient τ ι δ) (targetId : τ) : WatchClient τ ι δ :=
  (client.sendRequest targetId).sendRequest targetId

def raiseWatchSnapshot (client : WatchClient τ ι δ) : Except Fatal (WatchClient τ ι δ) :=
  let created := client.aggregator.createRemoteEvent client.metadata
  let mismatches := client.listenTargets.keys.filter (· ∈ created.2.targetMismatches)
  created.2.targetChanges.foldlM applyTargetChange
    (mismatches.foldl watchAgain { client with aggregator := created.1 })

def handleWatchChange (client : WatchClient τ ι δ) :
    WatchChange τ ι δ → Except Fatal (WatchClient τ ι δ)
  | .document change => .ok { client with
      aggregator := client.aggregator.handleDocumentChange client.metadata change }
  | .target change => do
      let aggregator ← client.aggregator.handleTargetChange client.metadata change
      return { client with aggregator := aggregator }
  | .existenceFilter targetId count => do
      let aggregator ← client.aggregator.handleExistenceFilter client.metadata targetId count
      return { client with aggregator := aggregator }

/-- A target is removed because of an error. -/
def IsTargetError : WatchChange τ ι δ → Prop
  | .target change => change.state = .removed ∧ change.causeOk = false
  | .document _ | .existenceFilter _ _ => False

/-- The targets of a message about targets. -/
def targetIds : WatchChange τ ι δ → List τ
  | .target change => change.targetIds
  | .document _ | .existenceFilter _ _ => []

instance : DecidablePred (IsTargetError (τ := τ) (ι := ι) (δ := δ))
  | .target _ => inferInstanceAs (Decidable (_ ∧ _))
  | .document _ | .existenceFilter _ _ => .isFalse id

def onWatchStreamChange (client : WatchClient τ ι δ) (change : WatchChange τ ι δ)
    (snapshot : Bool) : Except Fatal (WatchClient τ ι δ) :=
  if IsTargetError change then .ok ((targetIds change).foldl rejectTarget client)
  else do
    let client ← client.handleWatchChange change
    if snapshot then client.raiseWatchSnapshot else return client

def step (client : WatchClient τ ι δ) :
    WatchClientEvent τ ι δ → Except Fatal (WatchClient τ ι δ)
  | .listen targetId targetData keys => .ok (client.listen targetId targetData keys)
  | .stopListening targetId => client.stopListening targetId
  | .streamOpen => .ok client.streamOpen
  | .streamClose statusOk canUseNetwork => client.streamClose statusOk canUseNetwork
  | .change change snapshot => client.onWatchStreamChange change snapshot

/-- A stream is opened or closed, and messages come while it is open. -/
def Possible (client : WatchClient τ ι δ) : WatchClientEvent τ ι δ → Prop
  | .listen _ targetData _ => targetData.limboResolution = false
  | .stopListening _ => True
  | .streamOpen => client.isOpen = false
  | .streamClose _ _ | .change _ _ => client.isOpen = true

instance (client : WatchClient τ ι δ) : DecidablePred client.Possible
  | .listen _ _ _ | .streamOpen | .streamClose _ _ | .change _ _ =>
      inferInstanceAs (Decidable (_ = _))
  | .stopListening _ => .isTrue trivial

end WatchClient

end Pompom.Firestore
