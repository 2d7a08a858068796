import Pompom.Lib.Run
import Pompom.Pairing.Client

/-!
# Issued codes

`getCode` draws a code and uploads it without looking whether it is taken: the
call of `setNewCode`, which would look, is commented out.  A client issues at most
one code, and it is on its way in a `saveCode` block, then in the outbox, then on
the server (`Issued`).  The codes on the server are therefore distinct in every run
exactly when the installs draw distinct codes (`codes_unique_iff`).
-/

namespace Pompom

open Lib

/-- The code that a `saveCode` block is about to upload. -/
def Thread.codeToSave : Thread → Option String
  | .saveCode code => some code
  | _ => none

namespace Client

/-- The codes that this client has issued and that have not reached the server. -/
def unsaved (client : Client) : List String :=
  client.running.filterMap Thread.codeToSave ++ client.pendingDocuments.map (·.code)

/-- What a step does to the codes: nothing, or it issues the first code. -/
def Issues (newCode : String) (client next : Client) : Prop :=
  next.code = client.code ∧ next.unsaved.Perm client.unsaved ∨
    client.code = none ∧ next.code = some newCode ∧
      next.unsaved.Perm (newCode :: client.unsaved)

theorem Issues.keep {newCode : String} {client next last : Client}
    (hissues : Issues newCode client next) (hcode : last.code = next.code)
    (hunsaved : last.unsaved = next.unsaved) : Issues newCode client last := by
  unfold Issues
  rw [hcode, hunsaved]
  exact hissues

theorem issues_of_eq {newCode : String} {client next : Client} (hcode : next.code = client.code)
    (hunsaved : next.unsaved = client.unsaved) : Issues newCode client next :=
  .inl ⟨hcode, .of_eq hunsaved⟩

/-- Threads other than the `saveCode` blocks do not count. -/
theorem unsaved_spawn {client : Client} {thread : Thread}
    (hthread : thread.codeToSave = none) : (client.spawn thread).unsaved = client.unsaved := by
  simp [unsaved, running, pendingDocuments, hthread]

theorem unsaved_issue_updateData {client : Client} {documentID partnerCode : String}
    {resume : Option Thread} (hresume : ∀ thread ∈ resume, thread.codeToSave = none) :
    (client.issue (.updateData documentID partnerCode) resume).unsaved = client.unsaved := by
  cases resume with
  | none => simp [unsaved, running, pendingDocuments]
  | some thread =>
      have hthread : thread.codeToSave = none := hresume thread rfl
      simp [unsaved, running, pendingDocuments, hthread]

theorem getCode_issues (client : Client) (newCode : String) :
    Issues newCode client (client.getCode newCode) := by
  unfold getCode
  split
  · exact issues_of_eq rfl rfl
  · rename_i hcode
    refine .inr ⟨hcode, rfl, ?_⟩
    simp [unsaved, running, pendingDocuments, Thread.codeToSave, List.perm_middle]

/-- A thread that has nothing to save issues at most the first code. -/
theorem issues_advance {users : Users} {choice : Choice} {client next : Client} {thread : Thread}
    (hthread : thread.codeToSave = none) (hadvances : Advances users choice client thread next) :
    Issues choice.newCode client next := by
  have hself : Issues choice.newCode client client := issues_of_eq rfl rfl
  have hgetCode := getCode_issues client choice.newCode
  cases hadvances with
  | saveCode code => simp [Thread.codeToSave] at hthread
  | connectPartner | connectWithPartner | getOwnId | deleteOwn =>
      exact hgetCode.keep rfl (unsaved_spawn rfl)
  | getPartnerCodeFromServer => exact hgetCode.keep rfl rfl
  | callMySelf => exact hgetCode
  | isExistingCode | getPartnerId | setPartnerCode | didConnectedPartner | deletePartner
  | removePartnerCode => exact hself.keep rfl (unsaved_spawn rfl)
  | updateOwn | updatePartner =>
      refine hself.keep rfl ?_
      rw [unsaved_spawn rfl, unsaved_issue_updateData (by simp)]
  | @updatePartnerCodeBy side =>
      refine hself.keep rfl ?_
      cases side with
      | partner => exact unsaved_issue_updateData (by simp [Side.rest, Thread.codeToSave])
      | own => exact unsaved_issue_updateData (by simp [Side.rest])
  | invalidPartnerCode | didConnectedPartnerInSettings | requestPartnerClothes => exact hself
  | didDeletePartnerCode | emptyClothesCode => exact hself.keep rfl rfl
  | halt hbefore =>
      rcases hbefore with rfl | rfl
      · exact hself.keep rfl rfl
      · exact hgetCode.keep rfl rfl

theorem unsaved_erase_perm {client : Client} {thread : Thread} (hmem : thread ∈ client.threads) :
    client.unsaved.Perm (thread.codeToSave.toList ++
      (client.dequeue thread).unsaved) := by
  have hperm := (List.perm_cons_erase hmem).filterMap Thread.codeToSave
  have happend := hperm.append_right
    ((client.outbox.filterMap (·.resume)).filterMap Thread.codeToSave ++
      client.pendingDocuments.map (·.code))
  cases hsave : thread.codeToSave with
  | none =>
      simpa [unsaved, running, dequeue, pendingDocuments, List.filterMap_cons, hsave] using happend
  | some code =>
      simpa [unsaved, running, dequeue, pendingDocuments, List.filterMap_cons, hsave] using happend

/-- The code that an action draws, if it comes to that. -/
def drawnBy (newCode : String) : Action → Prop
  | .getCode choice => choice.newCode = newCode
  | .advance _ choice => choice.newCode = newCode
  | _ => True

/-- A code that an action draws is one that `generateCode` can return. -/
theorem exists_drawnBy (action : Action) :
    ∃ newCode, CodeManager.Generated newCode ∧ drawnBy newCode action := by
  cases action with
  | getCode choice => exact ⟨_, choice.generated, rfl⟩
  | advance thread choice => exact ⟨_, choice.generated, rfl⟩
  | _ => exact ⟨"0000000000", by decide, trivial⟩

/-- An action issues at most the first code. -/
theorem act_issues {users : Users} {client next : Client} {action : Action} {newCode : String}
    (hdrawn : drawnBy newCode action) (hact : client.act users action = some next) :
    Issues newCode client next := by
  cases transition_of_act hact with
  | onAppear => exact issues_of_eq rfl (unsaved_spawn rfl)
  | getCode choice =>
      obtain rfl : choice.newCode = newCode := hdrawn
      exact getCode_issues client _
  | enterCode origin partnerCode => exact issues_of_eq rfl (unsaved_spawn rfl)
  | disconnect =>
      refine issues_of_eq rfl ?_
      rw [unsaved_spawn rfl, unsaved_spawn rfl]
  | @advance thread choice hmem =>
      obtain rfl : choice.newCode = newCode := hdrawn
      have hperm := unsaved_erase_perm hmem
      cases hsave : thread.codeToSave with
      | none =>
          rw [hsave] at hperm
          rcases issues_advance hsave (advances users choice (client.dequeue thread) thread) with
            ⟨hcode, hkept⟩ | ⟨hnone, hcode, hissued⟩
          · exact .inl ⟨hcode, hkept.trans hperm.symm⟩
          · exact .inr ⟨hnone, hcode, hissued.trans (hperm.symm.cons _)⟩
      | some code =>
          obtain rfl : thread = .saveCode code := by
            cases thread <;> simp_all [Thread.codeToSave]
          -- The block hands its code over to the outbox.
          refine .inl ⟨rfl, .trans ?_ hperm.symm⟩
          simp [advance, unsaved, running, dequeue, pendingDocuments, Thread.codeToSave,
            ConnectionManager.newDocument, ← List.append_assoc, List.perm_append_singleton]
  | watch hdocument hdrop => exact issues_of_eq rfl rfl
  | deliver hlistener hundelivered =>
      unfold receive
      split
      · exact issues_of_eq rfl rfl
      · exact issues_of_eq rfl (unsaved_spawn rfl)

/-- Settling the addition of a document takes its code off the list. -/
theorem unsaved_perm_addDocument {client : Client} {document : UserDocument}
    {resume : Option Thread} {rest : List Pending}
    (houtbox : client.outbox = ⟨.addDocument document, resume⟩ :: rest) :
    client.unsaved.Perm
      (document.code :: (client.settled ⟨.addDocument document, resume⟩ rest).unsaved) := by
  unfold unsaved
  rw [running_settled houtbox]
  simp [pendingDocuments, houtbox, settled, List.perm_middle]

theorem unsaved_settled_updateData {client : Client} {documentID partnerCode : String}
    {resume : Option Thread} {rest : List Pending}
    (houtbox : client.outbox = ⟨.updateData documentID partnerCode, resume⟩ :: rest) :
    (client.settled ⟨.updateData documentID partnerCode, resume⟩ rest).unsaved =
      client.unsaved := by
  unfold unsaved
  rw [running_settled houtbox]
  simp [pendingDocuments, houtbox, settled]

/-- Settling a write adds no code. -/
theorem unsaved_settled_subperm {client : Client} {pending : Pending} {rest : List Pending}
    (houtbox : client.outbox = pending :: rest) :
    (client.settled pending rest).unsaved.Subperm client.unsaved := by
  obtain ⟨write, resume⟩ := pending
  cases write with
  | addDocument document =>
      have hperm := unsaved_perm_addDocument houtbox
      exact (List.sublist_cons_self _ _).subperm.trans hperm.symm.subperm
  | updateData documentID partnerCode =>
      exact (List.Perm.of_eq (unsaved_settled_updateData houtbox)).subperm

end Client

namespace System

variable {ι : Type*} [DecidableEq ι]

/-- No install has been started yet. -/
def fresh : System ι := ⟨[], fun _ => {}⟩

/-- Whenever install `i` draws a code, it draws `drawn i`. -/
def Draws (drawn : ι → String) (_ : System ι) : Event ι → Prop
  | .act i action => Client.drawnBy (drawn i) action
  | .settle _ _ => True

/-- How often the code of an install has been issued. -/
def issued (drawn : ι → String) (state : System ι) (i : ι) : ℕ :=
  (state.client i).unsaved.length + state.users.codes.count (drawn i)

/-- Every install issues its code at most once, and no other codes are about. -/
structure Issued (drawn : ι → String) (state : System ι) : Prop where
  before : ∀ i, (state.client i).code = none → state.issued drawn i = 0
  once : ∀ i, state.issued drawn i ≤ 1
  unsaved : ∀ i, ∀ code ∈ (state.client i).unsaved, code = drawn i
  saved : ∀ code ∈ state.users.codes, ∃ i, code = drawn i

omit [DecidableEq ι] in
theorem issued_fresh (drawn : ι → String) : Issued drawn fresh where
  before i _ := by simp [issued, fresh, Client.unsaved, Client.running, Client.pendingDocuments,
    Users.codes]
  once i := by simp [issued, fresh, Client.unsaved, Client.running, Client.pendingDocuments,
    Users.codes]
  unsaved i code hcode := by
    simp [fresh, Client.unsaved, Client.running, Client.pendingDocuments] at hcode
  saved code hcode := by simp [fresh, Users.codes] at hcode

theorem Issued.set {drawn : ι → String} {state : System ι} (hissued : Issued drawn state) {i : ι}
    {client : Client} (hissues : Client.Issues (drawn i) (state.client i) client) :
    Issued drawn (state.set i client) := by
  refine ⟨?_, ?_, ?_, hissued.saved⟩
  · refine forall_client_set (P := fun j client => client.code = none →
      client.unsaved.length + state.users.codes.count (drawn j) = 0) ?_ hissued.before
    intro hnone
    rcases hissues with ⟨hcode, hperm⟩ | ⟨_, hcode, _⟩
    · rw [hperm.length_eq]
      exact hissued.before i (hcode ▸ hnone)
    · simp [hcode] at hnone
  · refine forall_client_set (P := fun j client =>
      client.unsaved.length + state.users.codes.count (drawn j) ≤ 1) ?_ hissued.once
    rcases hissues with ⟨_, hperm⟩ | ⟨hnone, _, hperm⟩
    · rw [hperm.length_eq]
      exact hissued.once i
    · -- the client had no code, so nothing of its code was about
      have hbefore := hissued.before i hnone
      rw [issued] at hbefore
      rw [hperm.length_eq, List.length_cons]
      omega
  · refine forall_client_set (P := fun j client => ∀ code ∈ client.unsaved, code = drawn j)
      ?_ hissued.unsaved
    intro code hcode
    rcases hissues with ⟨_, hperm⟩ | ⟨_, _, hperm⟩
    · exact hissued.unsaved i code (hperm.mem_iff.mp hcode)
    · rcases List.mem_cons.mp (hperm.mem_iff.mp hcode) with rfl | hcode
      · rfl
      · exact hissued.unsaved i code hcode

omit [DecidableEq ι] in
/-- A step that issues no code keeps every code issued at most once. -/
theorem Issued.of_le {drawn : ι → String} {state next : System ι} (hissued : Issued drawn state)
    (hcode : ∀ j, (next.client j).code = (state.client j).code)
    (hle : ∀ j, next.issued drawn j ≤ state.issued drawn j)
    (hunsaved : ∀ j, (next.client j).unsaved ⊆ (state.client j).unsaved)
    (hsaved : ∀ code ∈ next.users.codes, ∃ i, code = drawn i) : Issued drawn next where
  before j hnone := Nat.le_zero.mp ((hle j).trans (hissued.before j (hcode j ▸ hnone)).le)
  once j := (hle j).trans (hissued.once j)
  unsaved j code hmem := hissued.unsaved j code (hunsaved j hmem)
  saved := hsaved

/-- What settling a write does to the client that issued it and to the others. -/
theorem client_settled {state committed : System ι}
    (hcommitted : ∀ j, ∃ cache,
      committed.client j = { state.client j with cache := cache })
    {i : ι} {pending : Pending} {rest : List Pending}
    (houtbox : (state.client i).outbox = pending :: rest) (j : ι) :
    ((committed.settled i pending rest).client j).code = (state.client j).code ∧
      ((committed.settled i pending rest).client j).unsaved.Subperm (state.client j).unsaved := by
  refine forall_client_settled (P := fun j client => client.code = (state.client j).code ∧
    client.unsaved.Subperm (state.client j).unsaved) hcommitted ?_ ?_ j
  · intro cache
    exact ⟨rfl, Client.unsaved_settled_subperm houtbox⟩
  · intro j cache
    exact ⟨rfl, List.Subperm.refl _⟩

/-- A document that arrives at the server moves from the one count to the other. -/
theorem issued_addDocument {drawn : ι → String} (hinjective : Function.Injective drawn)
    {state : System ι} (hissued : Issued drawn state) {i : ι} {document : UserDocument}
    {resume : Option Thread} {rest : List Pending}
    (houtbox : (state.client i).outbox = ⟨.addDocument document, resume⟩ :: rest) (j : ι) :
    ((state.commit i (.addDocument document)).settled i ⟨.addDocument document, resume⟩
      rest).issued drawn j = state.issued drawn j := by
  have hperm := Client.unsaved_perm_addDocument houtbox
  have hcode : document.code = drawn i :=
    hissued.unsaved i _ (hperm.mem_iff.mpr List.mem_cons_self)
  have hcount (code : String) :
      (state.users.insertDocument document).codes.count code =
        state.users.codes.count code + if document.code = code then 1 else 0 := by
    rw [(state.users.codes_insertDocument_perm document).count_eq, List.count_cons]
    simp
  obtain ⟨cache, hcache⟩ := state.commit_client i (.addDocument document) j
  have husers : (state.commit i (.addDocument document)).users =
      state.users.insertDocument document := rfl
  by_cases hj : j = i
  · subst hj
    have hunsaved : ({ state.client j with cache := cache }.settled
        ⟨.addDocument document, resume⟩ rest).unsaved =
          ((state.client j).settled ⟨.addDocument document, resume⟩ rest).unsaved := rfl
    rw [issued, issued, settled_users, husers, hcount, settled, set_client_self, hcache, hunsaved,
      hperm.length_eq, List.length_cons, hcode, if_pos rfl]
    omega
  · have hne : drawn i ≠ drawn j := fun heq => hj (hinjective heq.symm)
    have hunsaved : ({ state.client j with cache := cache } : Client).unsaved =
        (state.client j).unsaved := rfl
    rw [issued, issued, settled_users, husers, hcount, settled, set_client_of_ne _ hj, hcache,
      hunsaved, hcode, if_neg hne, Nat.add_zero]

/-- A step keeps the codes issued at most once. -/
theorem Issued.step {drawn : ι → String} (hinjective : Function.Injective drawn)
    {state next : System ι} {event : Event ι} (hissued : Issued drawn state)
    (hdraws : Draws drawn state event) (hstep : state.step event = some next) :
    Issued drawn next := by
  cases transition_of_step hstep with
  | act htrap hact => exact hissued.set (Client.act_issues hdraws hact)
  | @accept i pending rest houtbox =>
      have hclient := client_settled (state.commit_client i pending.write) houtbox
      obtain ⟨write, resume⟩ := pending
      cases write with
      | addDocument document =>
          refine hissued.of_le (fun j => (hclient j).1)
            (fun j => (issued_addDocument hinjective hissued houtbox j).le)
            (fun j => (hclient j).2.subset) (fun code hmem => ?_)
          rcases List.mem_cons.mp
              ((state.users.codes_insertDocument_perm document).mem_iff.mp hmem) with rfl | hmem
          · have hunsaved := Client.unsaved_perm_addDocument houtbox
            exact ⟨i, hissued.unsaved i _ (hunsaved.mem_iff.mpr List.mem_cons_self)⟩
          · exact hissued.saved code hmem
      | updateData documentID partnerCode =>
          have hcodes := state.codes_commit_updateData i documentID partnerCode
          refine hissued.of_le (fun j => (hclient j).1) (fun j => ?_)
            (fun j => (hclient j).2.subset) (fun code hmem => ?_)
          · rw [issued, issued, settled_users, hcodes]
            exact Nat.add_le_add_right (hclient j).2.length_le _
          · rw [settled_users, hcodes] at hmem
            exact hissued.saved code hmem
  | @reject i pending rest houtbox =>
      have hclient := client_settled (fun j => ⟨_, rfl⟩) houtbox
      exact hissued.of_le (fun j => (hclient j).1)
        (fun j => Nat.add_le_add_right (hclient j).2.length_le _)
        (fun j => (hclient j).2.subset) hissued.saved

omit [DecidableEq ι] in
theorem Issued.nodup {drawn : ι → String} {state : System ι} (hissued : Issued drawn state) :
    state.users.codes.Nodup := by
  refine List.nodup_iff_count_le_one.mpr ?_
  intro code
  by_cases hmem : code ∈ state.users.codes
  · obtain ⟨i, rfl⟩ := hissued.saved code hmem
    have honce := hissued.once i
    unfold issued at honce
    omega
  · rw [List.count_eq_zero_of_not_mem hmem]
    exact Nat.zero_le 1

/-! ## When codes are unique -/

/-- An install that has done nothing yet can bring its code to the server. -/
theorem reaches_insertDocument {drawn : ι → String}
    (hgenerated : ∀ i, CodeManager.Generated (drawn i)) (state : System ι) {i : ι}
    (hfresh : state.client i = {}) :
    ∃ document next, document.code = drawn i ∧ Reaches System.step (Draws drawn) state next ∧
      next.users = state.users.insertDocument document ∧
      ∀ j ≠ i, next.client j = state.client j := by
  let choice : Choice := ⟨true, drawn i, "document", hgenerated i, by decide⟩
  let document := ConnectionManager.newDocument "document" (drawn i)
  let first := state.set i ((state.client i).getCode (drawn i))
  let second := first.set i { code := some (drawn i), outbox := [⟨.addDocument document, none⟩] }
  have hfirst : state.step (.act i (.getCode choice)) = some first := by
    simp [System.step, Client.act, hfresh, choice, first]
  have hsecond : first.step (.act i (.advance (.saveCode (drawn i)) choice)) = some second := by
    simp [System.step, Client.act, first, second, hfresh, Client.getCode, Client.dequeue,
      Client.advance, choice,
      document]
  let third := (second.commit i (.addDocument document)).settled i
    ⟨.addDocument document, none⟩ []
  have hthird : second.step (.settle i true) = some third := by
    simp [System.step, System.settle, second, third]
  refine ⟨document, third, rfl, ?_, rfl, ?_⟩
  · refine .head ⟨.act i (.getCode choice), rfl, hfirst⟩ ?_
    refine .head ⟨.act i (.advance (.saveCode (drawn i)) choice), rfl, hsecond⟩ ?_
    exact .single ⟨.settle i true, trivial, hthird⟩
  · intro j hj
    simp [third, settled, set_client_of_ne _ hj, commit, announce, hj, second, first]

/-- A code on the server belongs to one document, in every run in which install `i`
draws `drawn i`, exactly when no two installs draw the same code. -/
theorem codes_unique_iff (drawn : ι → String)
    (hgenerated : ∀ i, CodeManager.Generated (drawn i)) :
    (∀ state, Reaches System.step (Draws drawn) fresh state →
      state.users.codes.Nodup ∧ ∀ code, (state.users.whereCode code).length ≤ 1) ↔
        Function.Injective drawn := by
  constructor
  · intro hunique i j heq
    by_contra hne
    obtain ⟨first, middle, hfirst, hreach, husers, hclient⟩ :=
      reaches_insertDocument hgenerated fresh (i := i) rfl
    obtain ⟨second, last, hsecond, hreach', husers', _⟩ :=
      reaches_insertDocument hgenerated middle (i := j) (hclient j (Ne.symm hne))
    have hnodup := (hunique last (hreach.trans hreach')).1
    rw [husers', (middle.users.codes_insertDocument_perm second).nodup_iff, List.nodup_cons,
      husers, ((fresh : System ι).users.codes_insertDocument_perm first).mem_iff] at hnodup
    exact hnodup.1 (by rw [hfirst, hsecond, heq]; exact List.mem_cons_self)
  · intro hinjective state hreach
    have hissued : Issued drawn state :=
      hreach.invariant (issued_fresh drawn) fun _ _ _ hissued hdraws hstep =>
        hissued.step hinjective hdraws hstep
    refine ⟨hissued.nodup, fun code => ?_⟩
    rw [Users.length_whereCode]
    exact List.nodup_iff_count_le_one.mp hissued.nodup code

/-! ### Two installs -/

omit [DecidableEq ι] in
instance (drawn : ι → String) (state : System ι) : ∀ event, Decidable (Draws drawn state event)
  | .act i (.getCode choice) | .act i (.advance _ choice) =>
      inferInstanceAs (Decidable (choice.newCode = drawn i))
  | .act _ .onAppear | .act _ (.enterCode _ _) | .act _ .disconnect | .act _ (.watch _ _)
  | .act _ (.deliver _) | .settle _ _ => .isTrue trivial

/-- An install draws a code and brings it to the server. -/
def issuing (i : Bool) (choice : Choice) : List (Event Bool) :=
  [.act i (.getCode choice), .act i (.advance (.saveCode choice.newCode) choice), .settle i true]

/-- Two installs that draw two codes. -/
theorem two_codes_unique :
    ∃ state : System Bool,
      Reaches System.step (Draws fun i => if i then "AAAAAAAAAA" else "BBBBBBBBBB") fresh state ∧
        state.users.codes = ["AAAAAAAAAA", "BBBBBBBBBB"] ∧ state.users.codes.Nodup ∧
        ∀ code, (state.users.whereCode code).length ≤ 1 := by
  obtain ⟨state, hreach, hcodes⟩ : ∃ state : System Bool,
      Reaches System.step (Draws fun i => if i then "AAAAAAAAAA" else "BBBBBBBBBB") fresh state ∧
        state.users.codes = ["AAAAAAAAAA", "BBBBBBBBBB"] :=
    exists_reaches_of_run
      (issuing true ⟨true, "AAAAAAAAAA", "first", by decide, by decide⟩ ++
        issuing false ⟨true, "BBBBBBBBBB", "second", by decide, by decide⟩) (by decide)
  have hinjective :
      Function.Injective fun i : Bool => if i then "AAAAAAAAAA" else "BBBBBBBBBB" := by
    unfold Function.Injective
    decide
  exact ⟨state, hreach, hcodes, (codes_unique_iff _ (by decide)).mpr hinjective state hreach⟩

/-- Two installs that draw the same code have two documents with that code. -/
theorem same_code_twice :
    ∃ state : System Bool, Reaches System.step (fun _ _ => True) fresh state ∧
      ¬ (state.users.codes.Nodup ∧ ∀ code, (state.users.whereCode code).length ≤ 1) := by
  obtain ⟨state, hreach, hcodes⟩ :
      ∃ state : System Bool, Reaches System.step (fun _ _ => True) fresh state ∧
        state.users.codes = ["AAAAAAAAAA", "AAAAAAAAAA"] :=
    exists_reaches_of_run
      (issuing true ⟨true, "AAAAAAAAAA", "first", by decide, by decide⟩ ++
        issuing false ⟨true, "AAAAAAAAAA", "second", by decide, by decide⟩) (by decide)
  refine ⟨state, hreach, fun hunique => ?_⟩
  rw [hcodes] at hunique
  exact absurd hunique.1 (by decide)

end System

end Pompom
