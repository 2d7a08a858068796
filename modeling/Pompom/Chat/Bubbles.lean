import Pompom.Chat.MessageIdentity
import Pompom.Chat.MessageSnapshots

/-!
# Bubbles

`MessageListView` draws a row for each message: an own message as a bubble on the right
with the time before it, a received one as a bubble on the left with the time behind it.
Until `getCode` has answered the view has no code, and its rows are empty; then every
message of the list has its bubble (`rows_show_messages`).  This is so where `ForEach` can
tell the messages apart (`Chat.MessageIdentity`); else its rows are not determined.

The time is the hour and the minute as numbers, without leading zeros, and still can be
read in one way only (`getCurrentTime_inj`).  Of a message between them, two partners make
mirrored rows exactly if their codes differ and their clocks show the same time
(`messageRow_eq_mirror_iff`), and so with the rows of all these messages where both have
been told of everything, up to order (`screens_mirror`).
-/

namespace Pompom

open Lib MessageData

/-- What stands in a row. -/
inductive RowItem where
  | chatTime (text : String)
  /-- White on black for an own message, and else black on gray. -/
  | chatBubble (text : String) (isUserBubble : Bool)
  deriving DecidableEq

inductive RowAlignment where
  | leading
  | trailing
  deriving DecidableEq

structure BubbleRow where
  alignment : RowAlignment
  /-- From left to right. -/
  items : List RowItem
  deriving DecidableEq

/-- `MessageBubbleView`. -/
structure MessageBubbleView where
  chatMessage : String
  isUserBubble : Bool
  recievedBubble : Bool
  commentedTime : ℤ

namespace MessageBubbleView

/-- The hour and the minute are those of the calendar of the device. -/
def getCurrentTime (calendar : ℤ → ℕ × ℕ) (time : ℤ) : String :=
  let (hour, min) := calendar time
  hour.repr ++ ":" ++ min.repr

def body (calendar : ℤ → ℕ × ℕ) (view : MessageBubbleView) : BubbleRow :=
  let chatTime := RowItem.chatTime (getCurrentTime calendar view.commentedTime)
  let chatBubble := RowItem.chatBubble view.chatMessage view.isUserBubble
  { alignment := if view.isUserBubble then .trailing else .leading
    items :=
      if view.isUserBubble then [chatTime, chatBubble]
      else if view.recievedBubble then [chatBubble, chatTime]
      else [] }

theorem repr_inj {n m : ℕ} (hsame : n.repr.toList = m.repr.toList) : n = m := by
  rw [Nat.toList_repr, Nat.toList_repr] at hsame
  have hvalue := congrArg (fun chars => Nat.ofDigitChars 10 chars 0) hsame
  simpa using hvalue

/-- A time can be read in one way only. -/
theorem getCurrentTime_inj {calendar other : ℤ → ℕ × ℕ} {time otherTime : ℤ} :
    getCurrentTime calendar time = getCurrentTime other otherTime ↔
      calendar time = other otherTime := by
  have hcolon : ∀ n : ℕ, ':' ∉ n.repr.toList := by
    intro n hmem
    rw [Nat.toList_repr] at hmem
    exact absurd (Nat.isDigit_of_mem_toDigits (by decide) (by decide) hmem) (by decide)
  constructor
  · intro hsame
    have hchars := congrArg String.toList hsame
    simp only [getCurrentTime, String.toList_append, List.append_assoc] at hchars
    obtain ⟨hhour, -, hmin⟩ := (List.append_cons_inj_of_notMem (hcolon _) (hcolon _)).mp hchars
    exact Prod.ext (repr_inj hhour) (repr_inj hmin)
  · intro hsame
    rw [getCurrentTime, getCurrentTime, hsame]

end MessageBubbleView

/-- The row that `MessageListView` makes of a message. -/
def messageRow (calendar : ℤ → ℕ × ℕ) (myCode : Option String) (message : Message) : BubbleRow :=
  MessageBubbleView.body calendar
    { chatMessage := message.messageContent
      isUserBubble := some message.messageFrom = myCode
      recievedBubble := some message.messageTo = myCode
      commentedTime := message.timestamp }

namespace BubbleRow

def mirror (row : BubbleRow) : BubbleRow where
  alignment :=
    match row.alignment with
    | .leading => .trailing
    | .trailing => .leading
  items := row.items.reverse.map fun item =>
    match item with
    | .chatTime text => .chatTime text
    | .chatBubble text isUserBubble => .chatBubble text !isUserBubble

/-- The texts of the bubbles in a row. -/
def texts (row : BubbleRow) : List String :=
  row.items.filterMap fun item =>
    match item with
    | .chatTime _ => none
    | .chatBubble text _ => some text

end BubbleRow

theorem texts_messageRow (calendar : ℤ → ℕ × ℕ) (myCode : Option String) (message : Message) :
    (messageRow calendar myCode message).texts =
      if some message.messageFrom = myCode ∨ some message.messageTo = myCode then
        [message.messageContent]
      else [] := by
  by_cases hfrom : some message.messageFrom = myCode <;>
    by_cases hto : some message.messageTo = myCode <;>
    simp [messageRow, MessageBubbleView.body, BubbleRow.texts, hfrom, hto]

/-- Of a message between two users, each sees the mirror image of what the other one
sees, if the two are not the same and their calendars agree. -/
theorem messageRow_eq_mirror_iff {calendar other : ℤ → ℕ × ℕ} {first second : String}
    {message : Message} (hbetween : Between first second message) :
    messageRow calendar (some first) message =
        (messageRow other (some second) message).mirror ↔
      first ≠ second ∧ calendar message.timestamp = other message.timestamp := by
  by_cases hsame : first = second
  · -- a message to oneself is drawn as an own one
    subst hsame
    obtain ⟨hfrom, -⟩ : message.messageFrom = first ∧ message.messageTo = first :=
      hbetween.elim id id
    simp [messageRow, MessageBubbleView.body, BubbleRow.mirror, hfrom]
  · rw [← MessageBubbleView.getCurrentTime_inj]
    rcases hbetween with ⟨hfrom, hto⟩ | ⟨hfrom, hto⟩
    · simp [messageRow, MessageBubbleView.body, BubbleRow.mirror, hfrom, hto, hsame]
    · simp [messageRow, MessageBubbleView.body, BubbleRow.mirror, hfrom, hto, hsame,
        Ne.symm hsame]

namespace ChatRoom

variable {ι : Type*} [DecidableEq ι] {room : ChatRoom ι} {myCode : ι → String}

/-- The rows of `MessageListView.body` of a client, with the code that the view has.
Where two messages have the same identity, `ForEach` does not promise which it draws. -/
def messageList (room : ChatRoom ι) (calendar : ℤ → ℕ × ℕ) (shownCode : Option String) (i : ι) :
    Option (List BubbleRow) :=
  if room.DistinctIds i then some ((room.client i).messages.map (messageRow calendar shownCode))
  else none

/-- The texts of the bubbles, from the top row to the bottom one. -/
def messageTexts (room : ChatRoom ι) (calendar : ℤ → ℕ × ℕ) (shownCode : Option String) (i : ι) :
    Option (List String) :=
  (room.messageList calendar shownCode i).map (List.flatMap BubbleRow.texts)

/-- In every state of every run in which the messages have distinct identities, the view
shows nothing before it has the code, and then the text of every document of the
conversation that it was told of, once. -/
theorem rows_show_messages (hreach : Reaches step (fun _ _ => True) (start myCode) room) (i : ι)
    (hdistinct : room.DistinctIds i) (calendar : ℤ → ℕ × ℕ) :
    room.messageTexts calendar none i = some [] ∧
      room.messageTexts calendar (some (room.client i).myCode) i =
        some (((room.client i).added.filter fun document =>
          Mine (room.client i).myCode document).map fun document =>
            document.messageContent.getD "") := by
  have hmessages := ((assembled_of_reaches hreach).client i).messages
  simp only [messageTexts, messageList, if_pos hdistinct, Option.map_some]
  refine ⟨congrArg some ?_, congrArg some ?_⟩
  · rw [List.flatMap_eq_nil_iff]
    intro row hrow
    obtain ⟨message, -, rfl⟩ := List.mem_map.mp hrow
    simp [texts_messageRow]
  · rw [hmessages, List.map_map, List.flatMap_map, List.map_eq_flatMap]
    refine List.flatMap_congr fun document hdocument => ?_
    have hmine : Mine (room.client i).myCode document :=
      of_decide_eq_true (List.mem_filter.mp hdocument).2
    rw [Function.comp_apply, texts_messageRow, if_pos]
    · rfl
    · exact hmine.imp (congrArg some) (congrArg some)

/-- The messages in the list of a client that it and another one have exchanged. -/
def messagesBetween (room : ChatRoom ι) (i j : ι) : List Message :=
  (room.client i).messages.filter fun message =>
    decide (Between (room.client i).myCode (room.client j).myCode message)

omit [DecidableEq ι] in
theorem messagesBetween_comm (room : ChatRoom ι) (i j : ι) :
    room.messagesBetween j i = (room.client j).messages.filter fun message =>
      decide (Between (room.client i).myCode (room.client j).myCode message) :=
  List.filter_congr fun _ _ => decide_eq_decide.mpr or_comm

/-- Two clients that have been told of everything have exchanged the same messages. -/
theorem messagesBetween_perm (hreach : Reaches step (fun _ _ => True) (start myCode) room)
    {i j : ι} (hfirst : room.collection ⊆ (room.client i).added)
    (hsecond : room.collection ⊆ (room.client j).added) :
    (room.messagesBetween i j).Perm (room.messagesBetween j i) := by
  have hassembled := assembled_of_reaches hreach
  have hi := hassembled.client i
  have hj := hassembled.client j
  have hadded : (room.client i).added.Perm (room.client j).added := by
    refine (List.perm_ext_iff_of_nodup hi.added_nodup.of_map hj.added_nodup.of_map).mpr ?_
    exact fun document => ⟨fun hmem => hsecond (hi.added_mem document hmem),
      fun hmem => hfirst (hj.added_mem document hmem)⟩
  have hown := @filter_between_conversation (room.client i).myCode (room.client j).myCode _
    (.inl rfl) (room.client i).added
  have hother := @filter_between_conversation (room.client i).myCode (room.client j).myCode _
    (.inr rfl) (room.client j).added
  rw [MessageData.conversation, ← hi.messages] at hown
  rw [MessageData.conversation, ← hj.messages] at hother
  rw [messagesBetween_comm room i j, messagesBetween, hown, hother]
  exact (hadded.map newMsg).filter _

/-- When two partners have been told of everything, and their clocks show the same
times, the rows that one screen makes of their messages to each other are, up to order,
the mirror images of those that the other makes. -/
theorem screens_mirror (hreach : Reaches step (fun _ _ => True) (start myCode) room)
    {i j : ι} (hfirst : room.collection ⊆ (room.client i).added)
    (hsecond : room.collection ⊆ (room.client j).added)
    (hcodes : (room.client i).myCode ≠ (room.client j).myCode) (calendar other : ℤ → ℕ × ℕ)
    (htimes : ∀ message ∈ room.messagesBetween i j,
      calendar message.timestamp = other message.timestamp) :
    ((room.messagesBetween i j).map (messageRow calendar (some (room.client i).myCode))).Perm
      ((room.messagesBetween j i).map fun message =>
        (messageRow other (some (room.client j).myCode) message).mirror) := by
  have hrows : ∀ message ∈ room.messagesBetween i j,
      messageRow calendar (some (room.client i).myCode) message =
        (messageRow other (some (room.client j).myCode) message).mirror := by
    intro message hmessage
    have hbetween := of_decide_eq_true (List.mem_filter.mp hmessage).2
    exact (messageRow_eq_mirror_iff hbetween).mpr ⟨hcodes, htimes message hmessage⟩
  rw [List.map_congr_left hrows]
  exact (messagesBetween_perm hreach hfirst hsecond).map _

/-! ### Two messages -/

/-- Two calls, a minute apart. -/
def hiCall : SendCall :=
  callAt false "m1" 420 1655078400000101

def helloCall : SendCall :=
  callAt true "m2" 251658660 1655078460000101

/-- The second partner is told of the two messages as well. -/
def exchanged : List (ChatEvent Bool) :=
  exchange hiCall helloCall ++
    [.listen true (some [⟨.added, hiCall.document "hi"⟩, ⟨.added, helloCall.document "hello"⟩])
      none]

/-- The time in Greenwich. -/
def greenwich (time : ℤ) : ℕ × ℕ :=
  ((time / 3600000000 % 24).toNat, (time / 60000000 % 60).toNat)

theorem exchanged_run :
    ∃ room : ChatRoom Bool, Reaches step (fun _ _ => True) (start codes) room ∧
      (∀ i, room.collection ⊆ (room.client i).added) ∧
      (∀ i, (room.client i).myCode = codes i) ∧ room.DistinctIds false ∧
      ((room.client false).added.filter fun document => Mine (codes false) document).map
        (fun document => document.messageContent.getD "") = ["hi", "hello"] := by
  have hrun : ∃ room : ChatRoom Bool, Reaches step (fun _ _ => True) (start codes) room ∧
      (∀ i, ∀ document ∈ room.collection, document ∈ (room.client i).added) ∧
      (∀ i, (room.client i).myCode = codes i) ∧ room.DistinctIds false ∧
      ((room.client false).added.filter fun document => Mine (codes false) document).map
        (fun document => document.messageContent.getD "") = ["hi", "hello"] :=
    exists_reaches_of_run exchanged (by decide)
  obtain ⟨room, hreach, htold, hcodes, hdistinct, htexts⟩ := hrun
  exact ⟨room, hreach, fun i document hmem => htold i document hmem, hcodes, hdistinct, htexts⟩

theorem rows_show_messages_exchanged :
    ∃ room : ChatRoom Bool, Reaches step (fun _ _ => True) (start codes) room ∧
      room.messageTexts greenwich none false = some [] ∧
      room.messageTexts greenwich (some (codes false)) false = some ["hi", "hello"] := by
  obtain ⟨room, hreach, -, hcodes, hdistinct, htexts⟩ := exchanged_run
  have hrows := rows_show_messages hreach false hdistinct greenwich
  rw [hcodes, htexts] at hrows
  exact ⟨room, hreach, hrows⟩

theorem screens_mirror_exchanged :
    ∃ room : ChatRoom Bool, Reaches step (fun _ _ => True) (start codes) room ∧
      ((room.messagesBetween true false).map (messageRow greenwich (some (codes true)))).Perm
        ((room.messagesBetween false true).map fun message =>
          (messageRow greenwich (some (codes false)) message).mirror) := by
  obtain ⟨room, hreach, htold, hcodes, -, -⟩ := exchanged_run
  have hdiffer : (room.client true).myCode ≠ (room.client false).myCode := by
    rw [hcodes, hcodes]
    decide
  have hmirror := screens_mirror hreach (htold true) (htold false) hdiffer greenwich greenwich
    fun _ _ => rfl
  rw [hcodes, hcodes] at hmirror
  exact ⟨room, hreach, hmirror⟩

end ChatRoom

end Pompom
