import Pompom.Lib.OrderedChanges
import Mathlib.Data.Prod.Lex
import Mathlib.Data.String.Basic
import Mathlib.Data.List.Induction

/-!
# The chat list

`messageData.readMessages` of `Models/Message.swift` listens to the collection
`message`, ordered by ascending `timestamp`, and keeps the list of messages that
are from or to the own code.  Firestore breaks ties by document ID and reports
each snapshot as changes of the previous result (`Lib.Keying.applyChange`).

The listener looks at additions only and appends what it finds.  So its list is
the conversation, document by document, after every snapshot exactly when no
snapshot removes or alters a message of the conversation and none adds one before
a message that is already there (`showsConversation_iff`).
-/

namespace Pompom

open Lib

/-- A document of the collection `message`.  The fields are absent where the cast
of the listener would fail; the query selects documents with a timestamp only. -/
structure MessageDocument where
  documentID : String
  id : Option ℤ
  messageContent : Option String
  messageFrom : Option String
  messageTo : Option String
  timestamp : ℤ
  deriving DecidableEq, Repr

structure Message where
  id : ℤ
  messageContent : String
  messageFrom : String
  messageTo : String
  timestamp : ℤ
  deriving DecidableEq, Repr

/-- The order of the query. -/
def messageOrder : Keying MessageDocument String (ℤ ×ₗ String) where
  id document := document.documentID
  key document := toLex (document.timestamp, document.documentID)
  id_of_key first second heq := by
    have hpair := toLex.injective heq
    exact (Prod.ext_iff.mp hpair).2

namespace MessageData

/-- The message that the listener makes of a document. -/
def newMsg (document : MessageDocument) : Message :=
  { id := document.id.getD 0
    messageContent := document.messageContent.getD ""
    messageFrom := document.messageFrom.getD ""
    messageTo := document.messageTo.getD ""
    timestamp := document.timestamp }

/-- The documents of the conversation of a client. -/
def Mine (myCode : String) (document : MessageDocument) : Prop :=
  document.messageFrom.getD "" = myCode ∨ document.messageTo.getD "" = myCode

instance (myCode : String) : DecidablePred (Mine myCode) :=
  fun _ => inferInstanceAs (Decidable (_ ∨ _))

/-- The body of the loop over `documentChanges`. -/
def readChange (myCode : String) (messages : List Message) (change : Change MessageDocument) :
    List Message :=
  if change.type = .added then
    if Mine myCode change.document then messages ++ [newMsg change.document] else messages
  else messages

/-- The listener of `readMessages`. -/
def readMessages (myCode : String) (messages : List Message)
    (snap : Option (List (Change MessageDocument))) (err : Option String) : List Message :=
  match err with
  | some _ => messages
  | none =>
      match snap with
      | none => messages
      | some changes => changes.foldl (readChange myCode) messages

/-! ## Sequences of snapshots -/

/-- The query result after some snapshots. -/
def resultAfter (snapshots : List (List (Change MessageDocument))) : List MessageDocument :=
  snapshots.foldl (fun result changes => changes.foldl messageOrder.applyChange result) []

/-- `messageData.messages` after some snapshots. -/
def messagesAfter (myCode : String) (snapshots : List (List (Change MessageDocument))) :
    List Message :=
  snapshots.foldl (fun messages changes => readMessages myCode messages (some changes) none) []

/-- The documents that the messages were made of, in the order of the list. -/
def sourcesAfter (myCode : String) (snapshots : List (List (Change MessageDocument))) :
    List MessageDocument :=
  snapshots.flatMap (Keying.addedBy (Mine myCode))

/-- The query result restricted to the conversation of a client. -/
def conversation (myCode : String) (result : List MessageDocument) : List MessageDocument :=
  result.filter fun document => decide (Mine myCode document)

/-- The list holds each document of the conversation once, in the order of the
query. -/
def ShowsConversation (myCode : String) (snapshots : List (List (Change MessageDocument))) : Prop :=
  sourcesAfter myCode snapshots = conversation myCode (resultAfter snapshots) ∧
    messagesAfter myCode snapshots = (conversation myCode (resultAfter snapshots)).map newMsg

/-- Firestore reports every snapshot as changes of the result before it. -/
def Reported (snapshots : List (List (Change MessageDocument))) : Prop :=
  ∀ earlier changes rest, snapshots = earlier ++ changes :: rest →
    messageOrder.ValidChanges (resultAfter earlier) changes

/-- Every snapshot adds to the conversation at its end, and changes it in no other
way. -/
def GrowsAtEnd (myCode : String) (snapshots : List (List (Change MessageDocument))) : Prop :=
  ∀ earlier changes rest, snapshots = earlier ++ changes :: rest →
    messageOrder.AllAppend (Mine myCode) (resultAfter earlier) changes

theorem foldl_readChange (myCode : String) (changes : List (Change MessageDocument))
    (messages : List Message) :
    changes.foldl (readChange myCode) messages =
      messages ++ (Keying.addedBy (Mine myCode) changes).map newMsg := by
  induction changes generalizing messages with
  | nil => simp [Keying.addedBy]
  | cons change rest ih =>
      rw [List.foldl_cons, ih, Keying.addedBy_cons, List.map_append, ← List.append_assoc]
      congr 1
      by_cases hadded : change.type = .added <;> by_cases hmine : Mine myCode change.document <;>
        simp [readChange, Keying.addedBy, hadded, hmine]

/-- The listener makes its messages of the documents that snapshots add. -/
theorem messagesAfter_eq_map_sources (myCode : String)
    (snapshots : List (List (Change MessageDocument))) :
    messagesAfter myCode snapshots = (sourcesAfter myCode snapshots).map newMsg := by
  induction snapshots using List.reverseRecOn with
  | nil => rfl
  | append_singleton snapshots changes ih =>
      have hlast : messagesAfter myCode (snapshots ++ [changes]) =
          changes.foldl (readChange myCode) (messagesAfter myCode snapshots) := by
        simp [messagesAfter, readMessages]
      rw [hlast, foldl_readChange, ih, ← List.map_append]
      simp [sourcesAfter]

theorem showsConversation_iff_sources {myCode : String}
    {snapshots : List (List (Change MessageDocument))} :
    ShowsConversation myCode snapshots ↔
      sourcesAfter myCode snapshots = conversation myCode (resultAfter snapshots) := by
  refine ⟨fun hshows => hshows.1, fun hsources => ⟨hsources, ?_⟩⟩
  rw [messagesAfter_eq_map_sources, hsources]

theorem resultAfter_append_singleton (snapshots : List (List (Change MessageDocument)))
    (changes : List (Change MessageDocument)) :
    resultAfter (snapshots ++ [changes]) =
      changes.foldl messageOrder.applyChange (resultAfter snapshots) := by
  simp [resultAfter]

theorem sourcesAfter_append_singleton (myCode : String)
    (snapshots : List (List (Change MessageDocument))) (changes : List (Change MessageDocument)) :
    sourcesAfter myCode (snapshots ++ [changes]) =
      sourcesAfter myCode snapshots ++ Keying.addedBy (Mine myCode) changes := by
  simp [sourcesAfter]

/-! ## The conversation -/

theorem Reported.of_append {earlier rest : List (List (Change MessageDocument))}
    (hreported : Reported (earlier ++ rest)) : Reported earlier := by
  intro before changes after hsplit
  exact hreported before changes (after ++ rest) (by simp [hsplit])

theorem Reported.ordered {snapshots : List (List (Change MessageDocument))}
    (hreported : Reported snapshots) : messageOrder.Ordered (resultAfter snapshots) := by
  induction snapshots using List.reverseRecOn with
  | nil => exact ⟨.nil, .nil⟩
  | append_singleton snapshots changes ih =>
      rw [resultAfter_append_singleton]
      exact (ih hreported.of_append).foldl (hreported snapshots changes [] rfl)

/-- One more snapshot keeps the list equal to the conversation if and only if it
adds to the conversation at its end. -/
theorem showsConversation_append_singleton {myCode : String}
    {snapshots : List (List (Change MessageDocument))} {changes : List (Change MessageDocument)}
    (hreported : Reported (snapshots ++ [changes])) (hshows : ShowsConversation myCode snapshots) :
    ShowsConversation myCode (snapshots ++ [changes]) ↔
      messageOrder.AllAppend (Mine myCode) (resultAfter snapshots) changes := by
  rw [showsConversation_iff_sources] at hshows ⊢
  rw [← Keying.filter_applyChanges_iff hreported.of_append.ordered
    (hreported snapshots changes [] rfl), sourcesAfter_append_singleton, hshows,
    resultAfter_append_singleton]
  exact eq_comm

/-- The chat list is the conversation after every snapshot if and only if every
snapshot adds to the conversation at its end only. -/
theorem showsConversation_iff (myCode : String)
    (snapshots : List (List (Change MessageDocument))) (hreported : Reported snapshots) :
    (∀ earlier rest, snapshots = earlier ++ rest → ShowsConversation myCode earlier) ↔
      GrowsAtEnd myCode snapshots := by
  constructor
  · intro hshows earlier changes rest hsplit
    have hsplit' : snapshots = (earlier ++ [changes]) ++ rest := by simp [hsplit]
    have hreported' : Reported (earlier ++ [changes]) := by
      rw [hsplit'] at hreported
      exact hreported.of_append
    exact (showsConversation_append_singleton hreported' (hshows earlier _ hsplit)).mp
      (hshows _ rest hsplit')
  · intro hgrows earlier
    induction earlier using List.reverseRecOn with
    | nil => exact fun _ _ => ⟨rfl, rfl⟩
    | append_singleton earlier changes ih =>
        intro rest hsplit
        have hsplit' : snapshots = earlier ++ changes :: rest := by simp [hsplit]
        have hreported' : Reported (earlier ++ [changes]) := by
          rw [hsplit] at hreported
          exact hreported.of_append
        exact (showsConversation_append_singleton hreported' (ih _ hsplit')).mpr
          (hgrows earlier changes rest hsplit')

/-! ### Two messages -/

/-- A message between two users, stamped by its sender. -/
def messageAt (documentID : String) (timestamp : ℤ) : MessageDocument :=
  ⟨documentID, some timestamp, some "hi", some "AAAAAAAAAA", some "BBBBBBBBBB", timestamp⟩

/-- Two messages that arrive one after the other. -/
def arriving (first second : MessageDocument) : List (List (Change MessageDocument)) :=
  [[⟨.added, first⟩], [⟨.added, second⟩]]

theorem arriving_reported {first second : MessageDocument}
    (hne : first.documentID ≠ second.documentID) : Reported (arriving first second) := by
  intro earlier changes rest hsplit
  rcases earlier with _ | ⟨one, _ | ⟨two, more⟩⟩
  · obtain ⟨rfl, rfl⟩ := List.cons.inj hsplit
    exact ⟨by simp, by simp [Keying.ValidChange, resultAfter]⟩
  · obtain ⟨rfl, htail⟩ := List.cons.inj hsplit
    obtain ⟨rfl, rfl⟩ := List.cons.inj htail
    refine ⟨by simp, ?_⟩
    simpa [Keying.ValidChange, resultAfter, Keying.applyChange, Keying.insert, messageOrder]
      using hne.symm
  · obtain ⟨_, hsplit⟩ := List.cons.inj hsplit
    obtain ⟨_, hsplit⟩ := List.cons.inj hsplit
    simp at hsplit

/-- Two messages that arrive in the order of their timestamps are shown as the
conversation. -/
theorem arriving_in_order :
    Reported (arriving (messageAt "m1" 1) (messageAt "m2" 2)) ∧
      ShowsConversation "AAAAAAAAAA" (arriving (messageAt "m1" 1) (messageAt "m2" 2)) := by
  have hreported : Reported (arriving (messageAt "m1" 1) (messageAt "m2" 2)) :=
    arriving_reported (by decide)
  refine ⟨hreported, (showsConversation_iff _ _ hreported).mpr ?_ _ [] (by simp)⟩
  intro earlier changes rest hsplit
  rcases earlier with _ | ⟨one, _ | ⟨two, more⟩⟩
  · obtain ⟨rfl, rfl⟩ := List.cons.inj hsplit
    refine ⟨?_, trivial⟩
    simp [Keying.Appends, resultAfter]
  · obtain ⟨rfl, htail⟩ := List.cons.inj hsplit
    obtain ⟨rfl, rfl⟩ := List.cons.inj htail
    refine ⟨?_, trivial⟩
    intro _ record hrecord _
    obtain rfl : record = messageAt "m1" 1 := by
      simpa [resultAfter, Keying.applyChange, Keying.insert] using hrecord
    exact Prod.Lex.toLex_le_toLex.mpr (.inl (by decide))
  · obtain ⟨_, hsplit⟩ := List.cons.inj hsplit
    obtain ⟨_, hsplit⟩ := List.cons.inj hsplit
    simp at hsplit

/-- A message stamped earlier that arrives later is shown last. -/
theorem late_message_shown_last :
    Reported (arriving (messageAt "m2" 2) (messageAt "m1" 1)) ∧
      ¬ ShowsConversation "AAAAAAAAAA" (arriving (messageAt "m2" 2) (messageAt "m1" 1)) := by
  refine ⟨arriving_reported (by decide), fun hshows => absurd hshows.2 ?_⟩
  decide

end MessageData

end Pompom
