import Pompom.Lib.Double
import Pompom.Lib.Run
import Pompom.Chat.MessageList

/-!
# The comment field

`UI/Comment/CommentInputView.swift`.  Every tap of the button starts a Task of its own.
The Task reads the field and issues `addDocument`, and then it clears the field; edits,
taps and the steps of other Tasks may come in between.

`CommentTrace` numbers the texts that are entered and records which of them were sent
and which of them a clear took out of the field.  Nothing empty is sent, no text is sent
twice and none is erased unsent (`SentOnce`), as long as a Task reads the field only when
there is something in it and no other Task is about to clear it, and nothing is typed
while a Task is about to clear it (`Orderly`).  After the first step that is not orderly
this can be lost (`comments_sent_once`).
-/

namespace Pompom

open Lib

/-! ## The view -/

/-- What a call of `sendMessage` takes from outside: the two codes, the ID of the new
document, the `timeIntervalSince1970` of its first `Date()`, and the second one as
Firestore stores it, in microseconds. -/
structure SendCall where
  documentID : String
  myCode : String
  partnerCode : String
  now : Double
  later : ℤ
  deriving DecidableEq, Repr

/-- `Int(Date().timeIntervalSince1970*1000)`, if it does not trap. -/
def SendCall.id (call : SendCall) : Option ℤ :=
  (call.now.mul ⟨1000, 0, by decide, by decide⟩).toInt

/-- The document that `sendMessage` adds. -/
def SendCall.document (call : SendCall) (comment : String) : MessageDocument :=
  { documentID := call.documentID
    id := call.id
    messageContent := some comment
    messageFrom := some call.myCode
    messageTo := some call.partnerCode
    timestamp := call.later }

/-- The view, and the Tasks that its button has started. -/
structure CommentInput where
  comment : String := ""
  /-- Tasks that have yet to read the field. -/
  sending : ℕ := 0
  /-- Tasks that have issued their message and have yet to clear the field. -/
  clearing : ℕ := 0
  issued : List MessageDocument := []
  deriving DecidableEq, Repr

inductive CommentEvent where
  /-- The text field sets the comment. -/
  | edit (text : String)
  | tap
  /-- A Task reads the comment and issues `addDocument`. -/
  | sendMessage (call : SendCall)
  /-- A Task clears the field. -/
  | clear
  deriving DecidableEq, Repr

/-- The effect of an event, if it can happen.  A call whose `Int` traps ends the process
and sends nothing. -/
def CommentInput.step (input : CommentInput) : CommentEvent → Option CommentInput
  | .edit text => some { input with comment := text }
  | .tap => some { input with sending := input.sending + 1 }
  | .sendMessage call =>
      if 0 < input.sending ∧ call.id.isSome then
        some { input with
          sending := input.sending - 1
          clearing := input.clearing + 1
          issued := input.issued ++ [call.document input.comment] }
      else none
  | .clear =>
      if 0 < input.clearing then
        some { input with comment := "", clearing := input.clearing - 1 }
      else none

/-! ## The texts -/

/-- The view with a record of the texts, numbered as they are entered. -/
structure CommentTrace where
  input : CommentInput := {}
  /-- How many texts have been entered. -/
  entered : ℕ := 0
  /-- The text in the field, unless it was cleared. -/
  current : Option ℕ := none
  sent : List ℕ := []
  /-- The texts that a clear took out of the field; an empty one does not count. -/
  erased : List ℕ := []
  deriving DecidableEq, Repr

namespace CommentTrace

/-- What an event adds to the record. -/
def record (trace : CommentTrace) (input : CommentInput) : CommentEvent → CommentTrace
  | .edit _ =>
      { trace with
        input := input
        entered := trace.entered + 1
        current := some trace.entered }
  | .tap => { trace with input := input }
  | .sendMessage _ => { trace with input := input, sent := trace.sent ++ trace.current.toList }
  | .clear =>
      { trace with
        input := input
        current := none
        erased :=
          if trace.input.comment = "" then trace.erased
          else trace.erased ++ trace.current.toList }

def step (trace : CommentTrace) (event : CommentEvent) : Option CommentTrace :=
  (trace.input.step event).map fun input => trace.record input event

/-- Every message has a content, no text is sent twice, and none is erased without
having been sent. -/
structure SentOnce (trace : CommentTrace) : Prop where
  content : ∀ document ∈ trace.input.issued, document.messageContent.getD "" ≠ ""
  nodup : trace.sent.Nodup
  erased : ∀ text ∈ trace.erased, text ∈ trace.sent

/-- A Task reads the field only if it is not empty and no Task is about to clear it, and
no text is entered while a Task is about to clear it. -/
def Orderly (trace : CommentTrace) : CommentEvent → Prop
  | .edit text => text = "" ∨ trace.input.clearing = 0
  | .sendMessage _ => trace.input.comment ≠ "" ∧ trace.input.clearing = 0
  | .tap => True
  | .clear => True

instance (trace : CommentTrace) : ∀ event, Decidable (trace.Orderly event)
  | .edit text => inferInstanceAs (Decidable (text = "" ∨ trace.input.clearing = 0))
  | .sendMessage _ =>
      inferInstanceAs (Decidable (trace.input.comment ≠ "" ∧ trace.input.clearing = 0))
  | .tap | .clear => .isTrue trivial

/-! ## Transitions -/

/-- The transitions of `step`. -/
inductive Transition (trace : CommentTrace) : CommentEvent → CommentTrace → Prop where
  | edit (text : String) :
      Transition trace (.edit text)
        { trace with
          input := { trace.input with comment := text }
          entered := trace.entered + 1
          current := some trace.entered }
  | tap :
      Transition trace .tap
        { trace with input := { trace.input with sending := trace.input.sending + 1 } }
  | sendMessage (call : SendCall) (hsending : 0 < trace.input.sending) :
      Transition trace (.sendMessage call)
        { trace with
          input := { trace.input with
            sending := trace.input.sending - 1
            clearing := trace.input.clearing + 1
            issued := trace.input.issued ++ [call.document trace.input.comment] }
          sent := trace.sent ++ trace.current.toList }
  | clear (hclearing : 0 < trace.input.clearing) :
      Transition trace .clear
        { trace with
          input := { trace.input with comment := "", clearing := trace.input.clearing - 1 }
          current := none
          erased :=
            if trace.input.comment = "" then trace.erased
            else trace.erased ++ trace.current.toList }

theorem transition_of_step {trace next : CommentTrace} {event : CommentEvent}
    (hstep : trace.step event = some next) : Transition trace event next := by
  obtain ⟨input, hinput, rfl⟩ := Option.map_eq_some_iff.mp hstep
  cases event with
  | edit text =>
      obtain rfl := Option.some.inj hinput
      exact .edit text
  | tap =>
      obtain rfl := Option.some.inj hinput
      exact .tap
  | sendMessage call =>
      simp only [CommentInput.step] at hinput
      split at hinput
      · rename_i hsending
        obtain rfl := Option.some.inj hinput
        exact .sendMessage call hsending.1
      · simp at hinput
  | clear =>
      simp only [CommentInput.step] at hinput
      split at hinput
      · obtain rfl := Option.some.inj hinput
        exact .clear (by assumption)
      · simp at hinput

/-! ## Orderly runs -/

/-- At most one Task is about to clear the field, and then the text in it, if any, has
been sent; otherwise it has not. -/
structure Tidy (trace : CommentTrace) : Prop extends SentOnce trace where
  cleared : trace.current = none → trace.input.comment = ""
  current_lt : ∀ text ∈ trace.current, text < trace.entered
  sent_lt : ∀ text ∈ trace.sent, text < trace.entered
  clearing_le : trace.input.clearing ≤ 1
  unsent : trace.input.clearing = 0 → ∀ text ∈ trace.current, text ∉ trace.sent
  sent_current : trace.input.clearing = 1 →
    trace.input.comment = "" ∨ ∃ text ∈ trace.current, text ∈ trace.sent

theorem tidy_start : Tidy {} := by
  refine ⟨⟨?_, List.nodup_nil, ?_⟩, fun _ => rfl, ?_, ?_, by decide, ?_, ?_⟩ <;> simp

theorem Tidy.edit {trace : CommentTrace} (htidy : trace.Tidy) {text : String}
    (horderly : trace.Orderly (.edit text)) :
    Tidy { trace with
      input := { trace.input with comment := text }
      entered := trace.entered + 1
      current := some trace.entered } where
  toSentOnce := ⟨htidy.content, htidy.nodup, htidy.erased⟩
  cleared hnone := by simp at hnone
  current_lt number hnumber := by
    obtain rfl := Option.mem_some_iff.mp hnumber
    exact Nat.lt_succ_self _
  sent_lt number hnumber := Nat.lt_succ_of_lt (htidy.sent_lt number hnumber)
  clearing_le := htidy.clearing_le
  unsent _ number hnumber hsent := by
    obtain rfl := Option.mem_some_iff.mp hnumber
    exact Nat.lt_irrefl _ (htidy.sent_lt _ hsent)
  sent_current hclearing := by
    have hempty : text = "" ∨ trace.input.clearing = 0 := horderly
    refine .inl (hempty.resolve_right ?_)
    rw [show trace.input.clearing = 1 from hclearing]
    decide

/-- The text that is read has not been sent before. -/
theorem Tidy.sendMessage {trace : CommentTrace} (htidy : trace.Tidy) {call : SendCall}
    (horderly : trace.Orderly (.sendMessage call)) :
    Tidy { trace with
      input := { trace.input with
        sending := trace.input.sending - 1
        clearing := trace.input.clearing + 1
        issued := trace.input.issued ++ [call.document trace.input.comment] }
      sent := trace.sent ++ trace.current.toList } := by
  obtain ⟨hcomment, hclearing⟩ := horderly
  obtain ⟨text, htext⟩ : ∃ text, trace.current = some text := by
    refine Option.ne_none_iff_exists'.mp ?_
    intro hnone
    exact hcomment (htidy.cleared hnone)
  have hunsent : text ∉ trace.sent := htidy.unsent hclearing text htext
  refine ⟨⟨?_, ?_, ?_⟩, htidy.cleared, htidy.current_lt, ?_, ?_, ?_, ?_⟩
  · intro document hdocument
    rcases List.mem_append.mp hdocument with hold | hnew
    · exact htidy.content document hold
    · obtain rfl := List.mem_singleton.mp hnew
      exact hcomment
  · simpa [htext, List.nodup_append] using ⟨htidy.nodup, fun other hother heq =>
      hunsent (heq ▸ hother)⟩
  · intro other hother
    exact List.mem_append_left _ (htidy.erased other hother)
  · intro other hother
    rcases List.mem_append.mp hother with hold | hnew
    · exact htidy.sent_lt other hold
    · exact htidy.current_lt other (by simpa using hnew)
  · simp [hclearing]
  · intro hzero
    simp at hzero
  · intro _
    exact .inr ⟨text, htext, by simp [htext]⟩

/-- The text that is erased has been sent. -/
theorem Tidy.clear {trace : CommentTrace} (htidy : trace.Tidy)
    (hclearing : 0 < trace.input.clearing) :
    Tidy { trace with
      input := { trace.input with comment := "", clearing := trace.input.clearing - 1 }
      current := none
      erased :=
        if trace.input.comment = "" then trace.erased
        else trace.erased ++ trace.current.toList } := by
  have hle := htidy.clearing_le
  have hone : trace.input.clearing = 1 := by omega
  refine ⟨⟨htidy.content, htidy.nodup, ?_⟩, fun _ => rfl, ?_, htidy.sent_lt, ?_, ?_, ?_⟩
  · intro text htext
    dsimp only at htext
    split at htext
    · exact htidy.erased text htext
    · rename_i hcomment
      obtain ⟨current, hcurrent, hsent⟩ := (htidy.sent_current hone).resolve_left hcomment
      rcases List.mem_append.mp htext with hold | hnew
      · exact htidy.erased text hold
      · rw [Option.mem_toList, hcurrent] at hnew
        exact Option.some.inj hnew ▸ hsent
  · simp
  · simp [hone]
  · simp
  · simp [hone]

theorem Tidy.step {trace next : CommentTrace} {event : CommentEvent} (htidy : trace.Tidy)
    (horderly : trace.Orderly event) (hstep : trace.step event = some next) : next.Tidy := by
  cases transition_of_step hstep with
  | edit text => exact htidy.edit horderly
  | tap =>
      exact ⟨⟨htidy.content, htidy.nodup, htidy.erased⟩, htidy.cleared, htidy.current_lt,
        htidy.sent_lt, htidy.clearing_le, htidy.unsent, htidy.sent_current⟩
  | sendMessage call => exact htidy.sendMessage horderly
  | clear hclearing => exact htidy.clear hclearing

/-! ## What an orderly run guarantees -/

/-- A Task that finds the field empty sends an empty message. -/
theorem not_sentOnce_of_empty {trace next : CommentTrace} {call : SendCall}
    (hcomment : trace.input.comment = "")
    (hstep : trace.step (.sendMessage call) = some next) : ¬ next.SentOnce := by
  intro hsentOnce
  cases transition_of_step hstep with
  | sendMessage =>
      refine hsentOnce.content _ (List.mem_append_right _ (List.mem_singleton_self _)) ?_
      exact hcomment

/-- A Task that finds a text another Task has sent sends it again. -/
theorem Tidy.not_sentOnce_of_sendMessage {trace next : CommentTrace} {call : SendCall}
    (htidy : trace.Tidy) (hcomment : trace.input.comment ≠ "")
    (hclearing : trace.input.clearing ≠ 0)
    (hstep : trace.step (.sendMessage call) = some next) : ¬ next.SentOnce := by
  intro hsentOnce
  have hle := htidy.clearing_le
  have hone : trace.input.clearing = 1 := by omega
  obtain ⟨text, hcurrent, hsent⟩ := (htidy.sent_current hone).resolve_left hcomment
  cases transition_of_step hstep with
  | sendMessage =>
      refine (List.nodup_append.mp hsentOnce.nodup).2.2 text hsent text ?_ rfl
      exact Option.mem_toList.mpr hcurrent

/-- A text that is entered while a Task is about to clear the field is erased if the Task
clears it next. -/
theorem Tidy.not_sentOnce_of_edit {trace next : CommentTrace} {text : String}
    (htidy : trace.Tidy) (htext : text ≠ "") (hclearing : trace.input.clearing ≠ 0)
    (hstep : trace.step (.edit text) = some next) :
    ∃ final, next.step .clear = some final ∧ ¬ final.SentOnce := by
  cases transition_of_step hstep with
  | edit =>
      have hpending : 0 < trace.input.clearing := Nat.pos_of_ne_zero hclearing
      refine ⟨_, congrArg (Option.map _) (if_pos hpending), ?_⟩
      intro hsentOnce
      refine Nat.lt_irrefl _ (htidy.sent_lt trace.entered (hsentOnce.erased _ ?_))
      simp [record, htext]

/-- In every orderly run nothing empty is sent, no text is sent twice and none is erased
unsent.  The first step that is not orderly can be followed by one of these. -/
theorem comments_sent_once {trace : CommentTrace} (hreach : Reaches step Orderly {} trace) :
    trace.SentOnce ∧ ∀ event next, trace.step event = some next → ¬ trace.Orderly event →
      ∃ final, Reaches step (fun _ _ => True) next final ∧ ¬ final.SentOnce := by
  have htidy : trace.Tidy :=
    hreach.invariant tidy_start fun _ _ _ htidy horderly hstep => htidy.step horderly hstep
  refine ⟨⟨htidy.content, htidy.nodup, htidy.erased⟩, ?_⟩
  intro event next hstep hunruly
  cases event with
  | edit text =>
      obtain ⟨htext, hclearing⟩ := not_or.mp hunruly
      obtain ⟨final, hclear, hlost⟩ := htidy.not_sentOnce_of_edit htext hclearing hstep
      exact ⟨final, .single ⟨.clear, trivial, hclear⟩, hlost⟩
  | tap => exact absurd trivial hunruly
  | clear => exact absurd trivial hunruly
  | sendMessage call =>
      refine ⟨next, .refl, ?_⟩
      by_cases hcomment : trace.input.comment = ""
      · exact not_sentOnce_of_empty hcomment hstep
      · have hclearing : trace.input.clearing ≠ 0 := fun hzero => hunruly ⟨hcomment, hzero⟩
        exact htidy.not_sentOnce_of_sendMessage hcomment hclearing hstep

/-! ### One comment -/

/-- A call on a paired phone. -/
def morning : SendCall :=
  { documentID := "m1"
    myCode := "aaaaaaaaaa"
    partnerCode := "bbbbbbbbbb"
    now := ⟨1655078400, 0, by decide, by decide⟩
    later := 1655078400000100 }

/-- The button of an empty field sends an empty message; two taps send a text twice; and
a text that is typed during a send is erased. -/
theorem comments_not_sent_once :
    (∃ trace, Reaches step (fun _ _ => True) {} trace ∧
      ∃ document ∈ trace.input.issued, document.messageContent.getD "" = "") ∧
    (∃ trace, Reaches step (fun _ _ => True) {} trace ∧ ¬ trace.sent.Nodup) ∧
    ∃ trace, Reaches step (fun _ _ => True) {} trace ∧
      ∃ text ∈ trace.erased, text ∉ trace.sent := by
  refine ⟨?_, ?_, ?_⟩
  · exact exists_reaches_of_run [.tap, .sendMessage morning] (by decide)
  · exact exists_reaches_of_run
      [.edit "hi", .tap, .tap, .sendMessage morning,
        .sendMessage { morning with documentID := "m2" }] (by decide)
  · exact exists_reaches_of_run
      [.edit "hi", .tap, .sendMessage morning, .edit "and", .clear] (by decide)

/-- One comment, sent and cleared. -/
theorem comment_sent_once :
    ∃ trace, Reaches step Orderly {} trace ∧
      (trace.sent = [0] ∧ trace.erased = [0] ∧ trace.input.comment = "") ∧ trace.SentOnce := by
  obtain ⟨trace, hreach, hsent⟩ : ∃ trace, Reaches step Orderly {} trace ∧
      (trace.sent = [0] ∧ trace.erased = [0] ∧ trace.input.comment = "") :=
    exists_reaches_of_run [.edit "hi", .tap, .sendMessage morning, .clear] (by decide)
  exact ⟨trace, hreach, hsent, (comments_sent_once hreach).1⟩

end CommentTrace

end Pompom
