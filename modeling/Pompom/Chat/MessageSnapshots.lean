import Pompom.Chat.MessageList
import Pompom.Firestore.Additions
import Pompom.Firestore.GetDocuments

/-!
# The chat list on the Firestore client

`messageData.readMessages` listens to its query through the vendored client, so
the snapshots that it reads are the document changes of a query listener
(`Firestore.ViewSnapshot.forEachChange`).  Messages are created by their senders and
neither edited nor deleted by anyone.  The client tells a listener of a message when it
is written here, when the write is acknowledged and when the server sends it, and only
the timestamp may differ then: the server keeps less of it than the sender wrote
(`truncated`).  Over whole runs of the client:

* the list holds every message of the conversation in the view exactly once, up to what
  the server takes off the timestamps (`messages_perm_conversation`), so it neither
  repeats an own message when it comes back from the server nor loses one;
* if no timestamp is altered, it is the conversation in the order of the query exactly
  when no message arrives after one that sorts behind it
  (`showsConversation_iff_addsBehind`);
* two partners whose clients have the same messages list the same messages between
  them, again up to the timestamps (`partners_agree`).
-/

namespace Pompom

open Lib Firestore

/-- A message, or its document, with as much of the timestamp as the server keeps. -/
def MessageDocument.truncated (truncate : ℤ → ℤ) (document : MessageDocument) : MessageDocument :=
  { document with timestamp := truncate document.timestamp }

def Message.truncated (truncate : ℤ → ℤ) (message : Message) : Message :=
  { message with timestamp := truncate message.timestamp }

namespace MessageData

/-- The query of `readMessages`: all messages that have a timestamp. -/
def messageQuery : Query MessageDocument :=
  ⟨fun _ => true, .none, 0⟩

/-- The document changes of a listener, as `readMessages` reads them. -/
def snapshotsOf (lists : List (List (DocumentChange MessageDocument))) :
    List (List (Change MessageDocument)) :=
  lists.map (List.map DocumentChange.toChange)

theorem trims_truncated (truncate : ℤ → ℤ) (myCode : String) :
    Trims messageOrder (Mine myCode) (MessageDocument.truncated truncate) :=
  ⟨fun _ => rfl, fun _ => Iff.rfl⟩

theorem map_newMsg_truncated (truncate : ℤ → ℤ) (documents : List MessageDocument) :
    (documents.map newMsg).map (Message.truncated truncate) =
      (documents.map (MessageDocument.truncated truncate)).map newMsg := by
  rw [List.map_map, List.map_map]
  rfl

section Run

variable {truncate : ℤ → ℤ} {trim : MessageDocument → MessageDocument}
  {state : QueryState messageOrder} {info : QueryListenersInfo messageOrder}
  {view : View messageOrder} {listener : QueryListener messageOrder}

theorem heard_of_reaches
    (hreach : Reaches (QueryState.step messageQuery) (QueryState.Preserves trim) QueryState.init
      state)
    (hinfo : state.info = some info) (hview : state.view = some view)
    (hlistener : listener ∈ info.listeners) :
    listener.Heard view.documentSet ∧
      ∀ event ∈ listener.events, Keeps trim event.oldDocuments event.documents := by
  obtain ⟨hvalid, heach⟩ := QueryState.reaches_keeps rfl hreach
  simp only [QueryState.Valid, hinfo, hview] at hvalid
  exact ⟨(hvalid.listeners listener hlistener).toHeard, heach info hinfo listener hlistener⟩

/-- A listener that does not wait for the sync has been told of all documents: before its
first event there are none. -/
theorem told_of_reaches
    (hreach : Reaches (QueryState.step messageQuery) (QueryState.Preserves trim) QueryState.init
      state)
    (hinfo : state.info = some info) (hview : state.view = some view)
    (hlistener : listener ∈ info.listeners)
    (hoptions : listener.options.waitForSyncWhenOnline = false) :
    Told listener.events (values view.documentSet) ∧
      ∀ event ∈ listener.events, Keeps trim event.oldDocuments event.documents := by
  obtain ⟨hheard, hkeeps⟩ := heard_of_reaches hreach hinfo hview hlistener
  refine ⟨?_, hkeeps⟩
  cases hraised : listener.raisedInitialEvent with
  | true => exact hheard.told hraised
  | false =>
      have hevents := hheard.waiting hraised
      obtain ⟨-, -, hwaits | hempty⟩ :=
        QueryState.waiting_of_reaches hreach hinfo hview hlistener hevents
      · simp [hoptions] at hwaits
      · rw [hevents, values, hempty]
        exact .nil

theorem messages_perm_of_told {documents : List MessageDocument}
    {events : List (ViewSnapshot messageOrder)} (htold : Told events documents)
    (hkeeps : ∀ event ∈ events,
      Keeps (MessageDocument.truncated truncate) event.oldDocuments event.documents)
    {lists : List (List (DocumentChange MessageDocument))}
    (hlists : events.mapM (fun snapshot => snapshot.forEachChange false) = .ok lists)
    (myCode : String) :
    ((messagesAfter myCode (snapshotsOf lists)).map (Message.truncated truncate)).Perm
      (((conversation myCode documents).map newMsg).map (Message.truncated truncate)) := by
  obtain ⟨other, hother, hchanges, -⟩ := htold.replays
  obtain rfl := Except.ok.inj (hother.symm.trans hlists)
  rw [snapshotsOf, hchanges, messagesAfter_eq_map_sources, map_newMsg_truncated,
    map_newMsg_truncated]
  exact (htold.additions_perm (trims_truncated truncate myCode) hkeeps).map newMsg

/-- The chat list holds every message of the conversation in the view exactly once. -/
theorem messages_perm_conversation
    (hreach : Reaches (QueryState.step messageQuery)
      (QueryState.Preserves (MessageDocument.truncated truncate)) QueryState.init state)
    (hinfo : state.info = some info) (hview : state.view = some view)
    (hlistener : listener ∈ info.listeners)
    (hoptions : listener.options = .fromIncludeMetadataChanges false) (myCode : String) :
    ∃ lists, listener.events.mapM (fun snapshot => snapshot.forEachChange false) = .ok lists ∧
      ((messagesAfter myCode (snapshotsOf lists)).map (Message.truncated truncate)).Perm
        (((conversation myCode (values view.documentSet)).map newMsg).map
          (Message.truncated truncate)) := by
  obtain ⟨htold, hkeeps⟩ := told_of_reaches hreach hinfo hview hlistener (by rw [hoptions]; rfl)
  obtain ⟨lists, hlists, -⟩ := htold.replays
  exact ⟨lists, hlists, messages_perm_of_told htold hkeeps hlists myCode⟩

/-- The chat list is the conversation in order, after every snapshot, if and only if
every snapshot adds its messages behind those that were there. -/
theorem showsConversation_iff_addsBehind
    (hreach : Reaches (QueryState.step messageQuery) (QueryState.Preserves id) QueryState.init
      state)
    (hinfo : state.info = some info) (hview : state.view = some view)
    (hlistener : listener ∈ info.listeners) (hraised : listener.raisedInitialEvent = true)
    (myCode : String) :
    (∀ earlier rest, listener.events = earlier ++ rest →
        ShowsConversation myCode (changesOf earlier)) ↔
      ∀ event ∈ listener.events, AddsBehind (Mine myCode) event := by
  obtain ⟨hheard, hkeeps⟩ := heard_of_reaches hreach hinfo hview hlistener
  rw [← (hheard.told hraised).additions_eq_iff (p := Mine myCode) hkeeps]
  refine forall_congr' fun earlier => forall_congr' fun rest => imp_congr_right fun _ => ?_
  exact showsConversation_iff_sources

/-- A message between two users. -/
def Between (first second : String) (message : Message) : Prop :=
  message.messageFrom = first ∧ message.messageTo = second ∨
    message.messageFrom = second ∧ message.messageTo = first

instance (first second : String) : DecidablePred (Between first second) :=
  fun _ => inferInstanceAs (Decidable (_ ∨ _))

/-- The conversation of either user has all messages between the two. -/
theorem filter_between_conversation {first second myCode : String}
    (hmine : myCode = first ∨ myCode = second) (documents : List MessageDocument) :
    ((conversation myCode documents).map newMsg).filter
        (fun message => decide (Between first second message)) =
      (documents.map newMsg).filter fun message => decide (Between first second message) := by
  rw [conversation, List.filter_map, List.filter_map, List.filter_filter]
  congr 1
  refine List.filter_congr fun document _ => ?_
  by_cases hbetween : Between first second (newMsg document)
  · have hmine' : Mine myCode document := by
      rcases hmine with rfl | rfl
      · exact hbetween.imp And.left And.right
      · exact (hbetween.imp And.right And.left).symm
    simp [hbetween, hmine']
  · simp [hbetween]

/-- What the server takes off has no part in who the users of a message are. -/
theorem filter_between_truncated (truncate : ℤ → ℤ) (first second : String)
    (messages : List Message) :
    (messages.map (Message.truncated truncate)).filter
        (fun message => decide (Between first second message)) =
      (messages.filter fun message => decide (Between first second message)).map
        (Message.truncated truncate) := by
  rw [List.filter_map]
  rfl

/-- Two partners whose clients have the same messages list the same messages between
them, each as often as the other. -/
theorem partners_agree {partner : QueryState messageOrder}
    {partnerInfo : QueryListenersInfo messageOrder} {partnerView : View messageOrder}
    {partnerListener : QueryListener messageOrder}
    (hreach : Reaches (QueryState.step messageQuery)
      (QueryState.Preserves (MessageDocument.truncated truncate)) QueryState.init state)
    (hinfo : state.info = some info) (hview : state.view = some view)
    (hlistener : listener ∈ info.listeners)
    (hoptions : listener.options = .fromIncludeMetadataChanges false)
    (hpartner : Reaches (QueryState.step messageQuery)
      (QueryState.Preserves (MessageDocument.truncated truncate)) QueryState.init partner)
    (hpartnerInfo : partner.info = some partnerInfo)
    (hpartnerView : partner.view = some partnerView)
    (hpartnerListener : partnerListener ∈ partnerInfo.listeners)
    (hpartnerOptions : partnerListener.options = .fromIncludeMetadataChanges false)
    (hsame : ((values view.documentSet).map (MessageDocument.truncated truncate)).Perm
      ((values partnerView.documentSet).map (MessageDocument.truncated truncate)))
    (myCode partnerCode : String) :
    ∃ lists partnerLists,
      listener.events.mapM (fun snapshot => snapshot.forEachChange false) = .ok lists ∧
      partnerListener.events.mapM (fun snapshot => snapshot.forEachChange false) =
        .ok partnerLists ∧
      (((messagesAfter myCode (snapshotsOf lists)).filter
          fun message => decide (Between myCode partnerCode message)).map
            (Message.truncated truncate)).Perm
        (((messagesAfter partnerCode (snapshotsOf partnerLists)).filter
          fun message => decide (Between myCode partnerCode message)).map
            (Message.truncated truncate)) := by
  obtain ⟨htold, hkeeps⟩ := told_of_reaches hreach hinfo hview hlistener (by rw [hoptions]; rfl)
  obtain ⟨htold', hkeeps'⟩ := told_of_reaches hpartner hpartnerInfo hpartnerView hpartnerListener
    (by rw [hpartnerOptions]; rfl)
  obtain ⟨lists, hlists, -⟩ := htold.replays
  obtain ⟨partnerLists, hpartnerLists, -⟩ := htold'.replays
  refine ⟨lists, partnerLists, hlists, hpartnerLists, ?_⟩
  -- the messages between the two are the same on either side, whoever lists them
  have hown := (messages_perm_of_told htold hkeeps hlists myCode).filter
    fun message => decide (Between myCode partnerCode message)
  have hother := (messages_perm_of_told htold' hkeeps' hpartnerLists partnerCode).filter
    fun message => decide (Between myCode partnerCode message)
  rw [filter_between_truncated, filter_between_truncated,
    filter_between_conversation (.inl rfl)] at hown
  rw [filter_between_truncated, filter_between_truncated,
    filter_between_conversation (.inr rfl)] at hother
  refine hown.trans (.trans ?_ hother.symm)
  rw [← filter_between_truncated, ← filter_between_truncated, map_newMsg_truncated,
    map_newMsg_truncated]
  exact (hsame.map newMsg).filter _

end Run

/-! ### A message that comes back -/

/-- The client of the sender: the first message is there, the second is written,
acknowledged and sent by the server, with what the server keeps of its timestamp. -/
def sendingRun (timestamp : ℤ) : List (QueryEvent messageOrder) :=
  let written := { messageAt "m2" 2000 with timestamp := timestamp }
  [.addQueryListener (.fromIncludeMetadataChanges false)
      ⟨⟨[.found ⟨messageAt "m1" 1000, .synced⟩], by decide⟩, {"m1"}⟩ (some true),
    .emitNewSnapshots ⟨[.found ⟨written, .hasLocalMutations⟩], List.nodup_singleton _⟩
      ⟨⟨[], by decide⟩, ∅⟩ none,
    .emitNewSnapshots ⟨[.found ⟨written, .hasCommittedMutations⟩], List.nodup_singleton _⟩
      ⟨⟨[], by decide⟩, ∅⟩ none,
    .emitNewSnapshots ⟨[.found ⟨messageAt "m2" 2000, .synced⟩], by decide⟩
      ⟨⟨[], by decide⟩, ∅⟩ (some ⟨{"m2"}, ∅, ∅, true⟩)]

/-- From nanoseconds to microseconds. -/
def toMicroseconds (timestamp : ℤ) : ℤ :=
  timestamp / 1000 * 1000

/-- What a run of the sender leads to. -/
def Sending (trim : MessageDocument → MessageDocument) (state : QueryState messageOrder)
    (info : QueryListenersInfo messageOrder) (view : View messageOrder)
    (listener : QueryListener messageOrder) : Prop :=
  Reaches (QueryState.step messageQuery) (QueryState.Preserves trim) QueryState.init state ∧
    state.info = some info ∧ state.view = some view ∧ listener ∈ info.listeners ∧
    listener.options = .fromIncludeMetadataChanges false ∧ listener.raisedInitialEvent = true ∧
    values view.documentSet = [messageAt "m1" 1000, messageAt "m2" 2000]

theorem exists_sending {trim : MessageDocument → MessageDocument}
    (hrun : ∃ state : QueryState messageOrder,
      Reaches (QueryState.step messageQuery) (QueryState.Preserves trim) QueryState.init state ∧
        (state.info.any fun info => info.listeners.any fun listener =>
          listener.raisedInitialEvent &&
            decide (listener.options = .fromIncludeMetadataChanges false)) = true ∧
        (state.view.any fun view => values view.documentSet =
          [messageAt "m1" 1000, messageAt "m2" 2000]) = true) :
    ∃ state info view listener, Sending trim state info view listener := by
  obtain ⟨state, hreach, hinfo, hview⟩ := hrun
  obtain ⟨info, hinfo, hlisteners⟩ := (Option.any_eq_true _ _).mp hinfo
  obtain ⟨view, hview, hvalues⟩ := (Option.any_eq_true _ _).mp hview
  obtain ⟨listener, hlistener, htest⟩ := List.any_eq_true.mp hlisteners
  obtain ⟨hraised, hoptions⟩ := Bool.and_eq_true_iff.mp htest
  exact ⟨state, info, view, listener, hreach, hinfo, hview, hlistener,
    of_decide_eq_true hoptions, hraised, by simpa using hvalues⟩

/-- The client of the partner has both messages from the server. -/
def receivingRun : List (QueryEvent messageOrder) :=
  [.addQueryListener (.fromIncludeMetadataChanges false)
      ⟨⟨[.found ⟨messageAt "m1" 1000, .synced⟩], by decide⟩, {"m1"}⟩ (some true),
    .emitNewSnapshots ⟨[.found ⟨messageAt "m2" 2000, .synced⟩], by decide⟩
      ⟨⟨[], by decide⟩, ∅⟩ (some ⟨{"m2"}, ∅, ∅, true⟩)]

/-- The sender has written nanoseconds. -/
theorem exists_sending_truncated : ∃ state info view listener,
    Sending (MessageDocument.truncated toMicroseconds) state info view listener :=
  exists_sending (exists_reaches_of_run (sendingRun 2345) (by decide))

theorem exists_receiving : ∃ state info view listener,
    Sending (MessageDocument.truncated toMicroseconds) state info view listener :=
  exists_sending (exists_reaches_of_run receivingRun (by decide))

theorem exists_sending_unaltered : ∃ state info view listener,
    Sending id state info view listener :=
  exists_sending (exists_reaches_of_run (sendingRun 2000) (by decide))

/-- The sender lists its message once. -/
theorem messages_perm_conversation_sending :
    ∃ lists : List (List (DocumentChange MessageDocument)),
      ((messagesAfter "AAAAAAAAAA" (snapshotsOf lists)).map
        (Message.truncated toMicroseconds)).Perm
          [newMsg (messageAt "m1" 1000), newMsg (messageAt "m2" 2000)] := by
  obtain ⟨state, info, view, listener, hreach, hinfo, hview, hlistener, hoptions, -, hvalues⟩ :=
    exists_sending_truncated
  obtain ⟨lists, -, hperm⟩ :=
    messages_perm_conversation hreach hinfo hview hlistener hoptions "AAAAAAAAAA"
  rw [hvalues] at hperm
  exact ⟨lists, hperm⟩

theorem showsConversation_iff_addsBehind_sending :
    ∃ (listener : QueryListener messageOrder), listener.raisedInitialEvent = true ∧
      ((∀ earlier rest, listener.events = earlier ++ rest →
          ShowsConversation "AAAAAAAAAA" (changesOf earlier)) ↔
        ∀ event ∈ listener.events, AddsBehind (Mine "AAAAAAAAAA") event) := by
  obtain ⟨state, info, view, listener, hreach, hinfo, hview, hlistener, -, hraised, -⟩ :=
    exists_sending_unaltered
  exact ⟨listener, hraised,
    showsConversation_iff_addsBehind hreach hinfo hview hlistener hraised "AAAAAAAAAA"⟩

/-- The partner's client has the same messages, and has had them from the server. -/
theorem partners_agree_sending :
    ∃ lists partnerLists : List (List (DocumentChange MessageDocument)),
      (((messagesAfter "AAAAAAAAAA" (snapshotsOf lists)).filter
          fun message => decide (Between "AAAAAAAAAA" "BBBBBBBBBB" message)).map
            (Message.truncated toMicroseconds)).Perm
        (((messagesAfter "BBBBBBBBBB" (snapshotsOf partnerLists)).filter
          fun message => decide (Between "AAAAAAAAAA" "BBBBBBBBBB" message)).map
            (Message.truncated toMicroseconds)) := by
  obtain ⟨state, info, view, listener, hreach, hinfo, hview, hlistener, hoptions, -, hvalues⟩ :=
    exists_sending_truncated
  obtain ⟨partner, partnerInfo, partnerView, partnerListener, hpartner, hpartnerInfo,
    hpartnerView, hpartnerListener, hpartnerOptions, -, hpartnerValues⟩ := exists_receiving
  have hsame : values view.documentSet = values partnerView.documentSet :=
    hvalues.trans hpartnerValues.symm
  obtain ⟨lists, partnerLists, -, -, hperm⟩ := partners_agree hreach hinfo hview hlistener hoptions
    hpartner hpartnerInfo hpartnerView hpartnerListener hpartnerOptions (by rw [hsame])
    "AAAAAAAAAA" "BBBBBBBBBB"
  exact ⟨lists, partnerLists, hperm⟩

end MessageData

end Pompom
