import Pompom.Chat.CommentInput
import Mathlib.Logic.Function.Basic

/-!
# The identities of messages

Any number of clients send comments (`Chat.CommentInput`) and listen to the collection
`message` (`Chat.MessageList`).  Firestore gives every document an ID of its own, but
`Message` takes as its `id` the milliseconds that the sender read from its clock, a
rounded product that `Int` truncates, and `ForEach` and `scrollTo` of
`UI/Comment/MessageListView.swift` go by that `id`.

So the messages of a list have distinct identities, whatever is delivered, if and only if
no two messages of the conversation were sent in the same millisecond by the senders'
clocks, as it is computed (`ids_distinct_iff`).
-/

namespace Pompom

open Lib MessageData

variable {ι : Type*}

/-! ## The room -/

/-- A call of `sendMessage` with the comment that it read. -/
structure SentMessage where
  call : SendCall
  comment : String
  deriving DecidableEq, Repr

def SentMessage.document (message : SentMessage) : MessageDocument :=
  message.call.document message.comment

/-- The milliseconds that `sendMessage` takes for the ID of the message: the reading of the
clock times 1000, rounded to a `Double` and truncated. -/
def SentMessage.millisecond (message : SentMessage) : ℤ :=
  message.call.id.getD 0

/-- The message that an event of the comment field sends. -/
def CommentInput.sends (input : CommentInput) : CommentEvent → List SentMessage
  | .sendMessage call => [⟨call, input.comment⟩]
  | .edit _ | .tap | .clear => []

structure ChatClient where
  input : CommentInput := {}
  /-- The code that `readMessages` looks for, read when the list is made. -/
  myCode : String
  messages : List Message := []
  /-- The documents that the listener was told of. -/
  added : List MessageDocument := []
  deriving DecidableEq, Repr

structure ChatRoom (ι : Type*) where
  client : ι → ChatClient
  sends : List SentMessage := []

inductive ChatEvent (ι : Type*) where
  /-- Something happens to the comment field of a client. -/
  | comment (i : ι) (event : CommentEvent)
  /-- A client makes its list anew. -/
  | appear (i : ι) (myCode : String)
  /-- The listener of a client is called. -/
  | listen (i : ι) (snap : Option (List (Change MessageDocument))) (err : Option String)

/-- The changes that the listener goes through. -/
def documentChanges (snap : Option (List (Change MessageDocument))) (err : Option String) :
    List (Change MessageDocument) :=
  match err with
  | some _ => []
  | none => snap.getD []

def addedDocuments (changes : List (Change MessageDocument)) : List MessageDocument :=
  (changes.filter fun change => change.type = .added).map (·.document)

namespace ChatRoom

/-- The collection `message`. -/
def collection (room : ChatRoom ι) : List MessageDocument :=
  room.sends.map (·.document)

/-- The IDs that Firestore gives to documents are new. -/
def Fresh (room : ChatRoom ι) (messages : List SentMessage) : Prop :=
  ∀ message ∈ messages, message.call.documentID ∉ room.sends.map (·.call.documentID)

instance (room : ChatRoom ι) (messages : List SentMessage) : Decidable (room.Fresh messages) :=
  inferInstanceAs (Decidable (∀ message ∈ messages, _))

/-- A listener is told of documents of the collection, and of each of them once. -/
def Deliverable (room : ChatRoom ι) (i : ι) (documents : List MessageDocument) : Prop :=
  (∀ document ∈ documents, document ∈ room.collection) ∧
    (((room.client i).added ++ documents).map (·.documentID)).Nodup

instance (room : ChatRoom ι) (i : ι) (documents : List MessageDocument) :
    Decidable (room.Deliverable i documents) :=
  inferInstanceAs (Decidable (_ ∧ _))

def step [DecidableEq ι] (room : ChatRoom ι) : ChatEvent ι → Option (ChatRoom ι)
  | .comment i event =>
      let client := room.client i
      let messages := client.input.sends event
      if room.Fresh messages then
        (client.input.step event).map fun input =>
          { client := Function.update room.client i { client with input := input }
            sends := room.sends ++ messages }
      else none
  | .appear i myCode =>
      let client := room.client i
      some { room with
        client := Function.update room.client i
          { input := client.input, myCode := myCode } }
  | .listen i snap err =>
      let client := room.client i
      let documents := addedDocuments (documentChanges snap err)
      if room.Deliverable i documents then
        some { room with
          client := Function.update room.client i { client with
            messages := readMessages client.myCode client.messages snap err
            added := client.added ++ documents } }
      else none

/-- Nothing has been sent. -/
def start (myCode : ι → String) : ChatRoom ι :=
  { client := fun i => { myCode := myCode i } }

end ChatRoom

/-! ## What a list is made of -/

theorem addedBy_eq_filter (myCode : String) (changes : List (Change MessageDocument)) :
    Keying.addedBy (Mine myCode) changes =
      (addedDocuments changes).filter fun document => Mine myCode document := by
  rw [addedDocuments, List.filter_map, List.filter_filter]
  refine congrArg (List.map _) (List.filter_congr fun change _ => ?_)
  simp [Bool.and_comm]

theorem readMessages_eq (myCode : String) (messages : List Message)
    (snap : Option (List (Change MessageDocument))) (err : Option String) :
    readMessages myCode messages snap err = messages ++
      ((addedDocuments (documentChanges snap err)).filter fun document =>
        Mine myCode document).map newMsg := by
  cases err with
  | some error => simp [readMessages, documentChanges, addedDocuments]
  | none =>
      cases snap with
      | none => simp [readMessages, documentChanges, addedDocuments]
      | some changes =>
          rw [documentChanges, Option.getD_some, ← addedBy_eq_filter]
          exact foldl_readChange _ _ _

/-- The list is made of the documents of the conversation that were delivered, each of
them once. -/
structure ChatClient.Assembled (client : ChatClient) (collection : List MessageDocument) :
    Prop where
  added_mem : ∀ document ∈ client.added, document ∈ collection
  added_nodup : (client.added.map (·.documentID)).Nodup
  messages : client.messages =
    (client.added.filter fun document => Mine client.myCode document).map newMsg

theorem ChatClient.Assembled.mono {client : ChatClient} {collection larger : List MessageDocument}
    (hassembled : client.Assembled collection) (hsubset : collection ⊆ larger) :
    client.Assembled larger :=
  ⟨fun document hdocument => hsubset (hassembled.added_mem document hdocument),
    hassembled.added_nodup, hassembled.messages⟩

/-- The listener appends the messages of the documents that it is told of. -/
theorem ChatClient.Assembled.listen {client : ChatClient} {collection : List MessageDocument}
    (hassembled : client.Assembled collection) {snap : Option (List (Change MessageDocument))}
    {err : Option String}
    (hmem : ∀ document ∈ addedDocuments (documentChanges snap err), document ∈ collection)
    (hnodup : ((client.added ++ addedDocuments (documentChanges snap err)).map
      (·.documentID)).Nodup) :
    ChatClient.Assembled { client with
      messages := readMessages client.myCode client.messages snap err
      added := client.added ++ addedDocuments (documentChanges snap err) } collection := by
  refine ⟨?_, hnodup, ?_⟩
  · intro document hdocument
    rcases List.mem_append.mp hdocument with hold | hnew
    · exact hassembled.added_mem document hold
    · exact hmem document hnew
  · dsimp only
    rw [readMessages_eq, hassembled.messages, ← List.map_append, ← List.filter_append]

namespace ChatRoom

/-- The IDs of Firestore are distinct, and every list is made of what was delivered. -/
structure Assembled (room : ChatRoom ι) : Prop where
  sends : (room.sends.map (·.call.documentID)).Nodup
  client : ∀ i, (room.client i).Assembled room.collection

theorem start_assembled (myCode : ι → String) : (start myCode).Assembled :=
  ⟨List.nodup_nil, fun _ => ⟨by simp [start], List.nodup_nil, rfl⟩⟩

variable [DecidableEq ι]

/-- The transitions of `step`. -/
inductive Transition (room : ChatRoom ι) : ChatEvent ι → ChatRoom ι → Prop where
  | comment {i : ι} {event : CommentEvent} {input : CommentInput}
      (hfresh : room.Fresh ((room.client i).input.sends event))
      (hinput : (room.client i).input.step event = some input) :
      Transition room (.comment i event)
        { client := Function.update room.client i { room.client i with input := input }
          sends := room.sends ++ (room.client i).input.sends event }
  | appear (i : ι) (myCode : String) :
      Transition room (.appear i myCode)
        { room with
          client := Function.update room.client i
            { input := (room.client i).input, myCode := myCode } }
  | listen {i : ι} {snap : Option (List (Change MessageDocument))} {err : Option String}
      (hdeliverable : room.Deliverable i (addedDocuments (documentChanges snap err))) :
      Transition room (.listen i snap err)
        { room with
          client := Function.update room.client i { room.client i with
            messages := readMessages (room.client i).myCode (room.client i).messages snap err
            added := (room.client i).added ++ addedDocuments (documentChanges snap err) } }

theorem transition_of_step {room next : ChatRoom ι} {event : ChatEvent ι}
    (hstep : room.step event = some next) : Transition room event next := by
  cases event with
  | comment i event =>
      simp only [step] at hstep
      split at hstep
      · obtain ⟨input, hinput, rfl⟩ := Option.map_eq_some_iff.mp hstep
        exact .comment (by assumption) hinput
      · simp at hstep
  | appear i myCode =>
      obtain rfl := Option.some.inj hstep
      exact .appear i myCode
  | listen i snap err =>
      simp only [step] at hstep
      split at hstep
      · obtain rfl := Option.some.inj hstep
        exact .listen (by assumption)
      · simp at hstep

/-- What holds of the client that changes, and held of all clients before, holds of all
clients. -/
theorem forall_client_update {room : ChatRoom ι} {i : ι} {client : ChatClient}
    {P : ι → ChatClient → Prop} (hself : P i client) (hbefore : ∀ j, P j (room.client j)) :
    ∀ j, P j (Function.update room.client i client j) :=
  (Function.forall_update_iff room.client P).mpr ⟨hself, fun j _ => hbefore j⟩

theorem Assembled.comment {room : ChatRoom ι} (hassembled : room.Assembled) {i : ι}
    {event : CommentEvent} (hfresh : room.Fresh ((room.client i).input.sends event))
    (input : CommentInput) :
    Assembled
      { client := Function.update room.client i { room.client i with input := input }
        sends := room.sends ++ (room.client i).input.sends event } := by
  refine ⟨?_, ?_⟩
  · rw [List.map_append, List.nodup_append]
    refine ⟨hassembled.sends, ?_, ?_⟩
    · cases event <;> simp [CommentInput.sends]
    · intro id hid other hother heq
      obtain ⟨message, hmessage, rfl⟩ := List.mem_map.mp hother
      exact hfresh message hmessage (heq ▸ hid)
  · have hlarger : room.collection ⊆
        (room.sends ++ (room.client i).input.sends event).map (·.document) := by
      rw [List.map_append]
      exact List.subset_append_left _ _
    have hclient := fun j => (hassembled.client j).mono hlarger
    refine forall_client_update (P := fun _ client => client.Assembled _) ?_ hclient
    exact ⟨(hclient i).added_mem, (hclient i).added_nodup, (hclient i).messages⟩

theorem Assembled.step {room next : ChatRoom ι} {event : ChatEvent ι}
    (hassembled : room.Assembled) (hstep : room.step event = some next) : next.Assembled := by
  cases transition_of_step hstep with
  | comment hfresh hinput => exact hassembled.comment hfresh _
  | appear i myCode =>
      refine ⟨hassembled.sends, ?_⟩
      refine forall_client_update (P := fun _ client => client.Assembled room.collection) ?_
        hassembled.client
      exact ⟨by simp, List.nodup_nil, rfl⟩
  | @listen i snap err hdeliverable =>
      refine ⟨hassembled.sends, ?_⟩
      refine forall_client_update (P := fun _ client => client.Assembled room.collection) ?_
        hassembled.client
      exact (hassembled.client i).listen hdeliverable.1 hdeliverable.2

theorem assembled_of_reaches {room : ChatRoom ι} {myCode : ι → String}
    (hreach : Reaches step (fun _ _ => True) (start myCode) room) : room.Assembled :=
  hreach.invariant (start_assembled myCode) fun _ _ _ hassembled _ hstep => hassembled.step hstep

/-! ## Deliveries -/

/-- A step of Firestore, which calls a listener. -/
def Delivery (_ : ChatRoom ι) : ChatEvent ι → Prop
  | .listen _ _ _ => True
  | .comment _ _ | .appear _ _ => False

/-- Nothing is sent by a delivery, and no client changes its code. -/
theorem delivery_sends {room later : ChatRoom ι} (hreach : Reaches step Delivery room later) :
    later.sends = room.sends ∧ ∀ i, (later.client i).myCode = (room.client i).myCode := by
  refine hreach.invariant (P := fun later => later.sends = room.sends ∧
    ∀ i, (later.client i).myCode = (room.client i).myCode) ⟨rfl, fun _ => rfl⟩ ?_
  intro later event next hlater hdelivery hstep
  cases transition_of_step hstep with
  | comment hfresh hinput => exact hdelivery.elim
  | appear i myCode => exact hdelivery.elim
  | @listen i snap err hdeliverable =>
      exact ⟨hlater.1, forall_client_update
        (P := fun j client => client.myCode = (room.client j).myCode) (hlater.2 i) hlater.2⟩

omit [DecidableEq ι] in
theorem Assembled.collection_nodup {room : ChatRoom ι} (hassembled : room.Assembled) :
    (room.collection.map (·.documentID)).Nodup := by
  rw [collection, List.map_map]
  exact hassembled.sends

/-- The documents that a client has not been told of. -/
def undelivered (room : ChatRoom ι) (i : ι) : List MessageDocument :=
  room.collection.filter fun document => document ∉ (room.client i).added

omit [DecidableEq ι] in
theorem Assembled.undelivered_deliverable {room : ChatRoom ι} (hassembled : room.Assembled)
    (i : ι) : room.Deliverable i (room.undelivered i) := by
  refine ⟨fun document hdocument => List.mem_of_mem_filter hdocument, ?_⟩
  rw [List.map_append, List.nodup_append]
  refine ⟨(hassembled.client i).added_nodup,
    hassembled.collection_nodup.sublist (List.filter_sublist.map _), ?_⟩
  intro id hid other hother heq
  obtain ⟨first, hfirst, rfl⟩ := List.mem_map.mp hid
  obtain ⟨second, hsecond, rfl⟩ := List.mem_map.mp hother
  obtain ⟨hmem, hunknown⟩ := List.mem_filter.mp hsecond
  obtain rfl : first = second := List.inj_on_of_nodup_map hassembled.collection_nodup
    ((hassembled.client i).added_mem first hfirst) hmem heq
  exact of_decide_eq_true hunknown hfirst

/-- Firestore can deliver to a client all that it has not been told of. -/
theorem Assembled.exists_delivery {room : ChatRoom ι} (hassembled : room.Assembled) (i : ι) :
    ∃ later, Reaches ChatRoom.step Delivery room later ∧
      ∀ document ∈ room.collection, document ∈ (later.client i).added := by
  let changes : List (Change MessageDocument) :=
    (room.undelivered i).map fun document => ⟨.added, document⟩
  have hadded : addedDocuments (documentChanges (some changes) none) = room.undelivered i := by
    simp [changes, documentChanges, addedDocuments, List.filter_map, Function.comp_def]
  have hdeliverable :
      room.Deliverable i (addedDocuments (documentChanges (some changes) none)) := by
    rw [hadded]
    exact hassembled.undelivered_deliverable i
  refine ⟨_, .single ⟨.listen i (some changes) none, trivial, if_pos hdeliverable⟩, ?_⟩
  intro document hdocument
  simp only [Function.update_self, List.mem_append, hadded]
  by_cases hknown : document ∈ (room.client i).added
  · exact .inl hknown
  · exact .inr (List.mem_filter.mpr ⟨hdocument, decide_eq_true hknown⟩)

/-! ## Identities -/

/-- The messages that are from or to the code of a client. -/
def conversation (room : ChatRoom ι) (i : ι) : List SentMessage :=
  room.sends.filter fun message => Mine (room.client i).myCode message.document

/-- `ForEach` can tell the messages of a client's list apart. -/
def DistinctIds (room : ChatRoom ι) (i : ι) : Prop :=
  ((room.client i).messages.map (·.id)).Nodup

instance (room : ChatRoom ι) (i : ι) : Decidable (room.DistinctIds i) :=
  inferInstanceAs (Decidable (List.Nodup _))

omit [DecidableEq ι] in
theorem Assembled.distinctIds_iff {room : ChatRoom ι} (hassembled : room.Assembled) {i : ι} :
    room.DistinctIds i ↔
      (((room.client i).added.filter fun document => Mine (room.client i).myCode document).map
        fun document => document.id.getD 0).Nodup := by
  rw [DistinctIds, (hassembled.client i).messages, List.map_map]
  rfl

omit [DecidableEq ι] in
/-- A list keeps messages apart that were sent in different milliseconds. -/
theorem Assembled.distinctIds {room : ChatRoom ι} (hassembled : room.Assembled) {i : ι}
    (hdistinct : ((room.conversation i).map (·.millisecond)).Nodup) : room.DistinctIds i := by
  refine hassembled.distinctIds_iff.mpr (List.Nodup.map_on ?_ ?_)
  · intro first hfirst second hsecond hid
    obtain ⟨hfirst, hmine⟩ := List.mem_filter.mp hfirst
    obtain ⟨hsecond, hmine'⟩ := List.mem_filter.mp hsecond
    obtain ⟨message, hmessage, rfl⟩ :=
      List.mem_map.mp ((hassembled.client i).added_mem first hfirst)
    obtain ⟨other, hother, rfl⟩ :=
      List.mem_map.mp ((hassembled.client i).added_mem second hsecond)
    refine congrArg SentMessage.document ?_
    exact List.inj_on_of_nodup_map hdistinct (List.mem_filter.mpr ⟨hmessage, hmine⟩)
      (List.mem_filter.mpr ⟨hother, hmine'⟩) hid
  · exact (List.Nodup.of_map _ (hassembled.client i).added_nodup).filter _

omit [DecidableEq ι] in
/-- A list that holds the whole conversation and keeps its messages apart. -/
theorem Assembled.nodup_of_distinctIds {room : ChatRoom ι} (hassembled : room.Assembled) {i : ι}
    (hadded : ∀ document ∈ room.collection, document ∈ (room.client i).added)
    (hdistinct : room.DistinctIds i) : ((room.conversation i).map (·.millisecond)).Nodup := by
  refine List.Nodup.map_on ?_ ((List.Nodup.of_map _ hassembled.sends).filter _)
  intro message hmessage other hother hmillisecond
  obtain ⟨hmessage, hmine⟩ := List.mem_filter.mp hmessage
  obtain ⟨hother, hmine'⟩ := List.mem_filter.mp hother
  have hsame : message.document = other.document := by
    refine List.inj_on_of_nodup_map (hassembled.distinctIds_iff.mp hdistinct) ?_ ?_ hmillisecond
    · exact List.mem_filter.mpr ⟨hadded _ (List.mem_map_of_mem hmessage), hmine⟩
    · exact List.mem_filter.mpr ⟨hadded _ (List.mem_map_of_mem hother), hmine'⟩
  exact List.inj_on_of_nodup_map hassembled.sends hmessage hother
    (congrArg MessageDocument.documentID hsame)

/-- In every state of every run, the messages of a client have distinct identities after
any further deliveries if and only if no two messages of its conversation were sent in
the same millisecond. -/
theorem ids_distinct_iff {myCode : ι → String} {room : ChatRoom ι}
    (hreach : Reaches step (fun _ _ => True) (start myCode) room) (i : ι) :
    (∀ later, Reaches step Delivery room later → later.DistinctIds i) ↔
      ((room.conversation i).map (·.millisecond)).Nodup := by
  have hassembled := assembled_of_reaches hreach
  have hconversation : ∀ {later}, Reaches step Delivery room later →
      later.Assembled ∧ later.conversation i = room.conversation i := by
    intro later hlater
    obtain ⟨hsends, hcode⟩ := delivery_sends hlater
    refine ⟨hlater.invariant hassembled fun _ _ _ hold _ hstep => hold.step hstep, ?_⟩
    rw [conversation, conversation, hsends, hcode]
  constructor
  · intro hdistinct
    obtain ⟨later, hlater, hadded⟩ := hassembled.exists_delivery i
    obtain ⟨hassembled', hsame⟩ := hconversation hlater
    rw [← hsame]
    refine hassembled'.nodup_of_distinctIds ?_ (hdistinct later hlater)
    rw [collection, (delivery_sends hlater).1]
    exact hadded
  · intro hdistinct later hlater
    obtain ⟨hassembled', hsame⟩ := hconversation hlater
    exact hassembled'.distinctIds (hsame ▸ hdistinct)

/-! ### Two partners -/

/-- The codes of two partners. -/
def codes (i : Bool) : String :=
  if i then "bbbbbbbbbb" else "aaaaaaaaaa"

/-- A time in the first minute of 2022-06-13, in steps of the clock, 2^22 of which are a
second. -/
def clock (ticks : Fin (2 ^ 28)) : Double :=
  ⟨1655078400 * 2 ^ 22 + ticks, -22, by omega, by decide⟩

/-- A call of one of them. -/
def callAt (i : Bool) (documentID : String) (ticks : Fin (2 ^ 28)) (later : ℤ) : SendCall :=
  { documentID := documentID
    myCode := codes i
    partnerCode := codes (!i)
    now := clock ticks
    later := later }

/-- Each of them sends one comment, and the first of them is told of both. -/
def exchange (first second : SendCall) : List (ChatEvent Bool) :=
  [.comment false (.edit "hi"), .comment false .tap,
    .comment true (.edit "hello"), .comment true .tap,
    .comment false (.sendMessage first), .comment false .clear,
    .comment true (.sendMessage second), .comment true .clear,
    .listen false (some [⟨.added, first.document "hi"⟩, ⟨.added, second.document "hello"⟩]) none]

/-- Two messages of one millisecond have one identity. -/
theorem ids_not_distinct :
    ∃ room, Reaches step (fun _ _ => True) (start codes) room ∧ ¬ room.DistinctIds false :=
  exists_reaches_of_run
    (exchange (callAt false "m1" 420 1655078400000101) (callAt true "m2" 3775 1655078400000901))
    (by decide)

/-- Two messages of different milliseconds have two. -/
theorem ids_distinct :
    ∃ room, Reaches step (fun _ _ => True) (start codes) room ∧
      (room.client false).messages.length = 2 ∧
      ∀ later, Reaches step Delivery room later → later.DistinctIds false := by
  obtain ⟨room, hreach, hlength, hdistinct⟩ : ∃ room,
      Reaches step (fun _ _ => True) (start codes) room ∧
      (room.client false).messages.length = 2 ∧
      ((room.conversation false).map (·.millisecond)).Nodup :=
    exists_reaches_of_run
      (exchange (callAt false "m1" 420 1655078400000101) (callAt true "m2" 7969 1655078400001901))
      (by decide)
  exact ⟨room, hreach, hlength, (ids_distinct_iff hreach false).mpr hdistinct⟩

end ChatRoom

end Pompom
