import Pompom.Pairing.ConnectCall

/-!
# Disconnecting

`deletePartnerCode` starts a Task that blanks the `partner_code` of both documents,
and goes on to remove the key `partner_code` from UserDefaults.  The Task looks the
partner up by that very key, so it matters whether it reads the key before it is
removed.

Here the steps of the Task and of the rest of `deletePartnerCode` interleave freely on
one client, with all queries and writes succeeding.  `TaskPhase` and `RestPhase` are
their program points.  As long as the key is removed only after the Task has read it,
nothing traps, every run ends after at most eight steps, and at its end both documents
are blank and nothing else has changed (`disconnect_releases`).  Once the key is removed
first, the Task looks up the empty code, and unless some document has that code the
process ends.
-/

namespace Pompom

open Lib

/-! ## Two paired users -/

/-- The codes of two users and the IDs of their documents. -/
structure Pair where
  ownCode : String
  partnerCode : String
  ownId : String
  partnerId : String
  deriving DecidableEq, Repr

/-- The collection with both documents blank. -/
def Pair.released (pair : Pair) (users : Users) : Users :=
  users.map fun document =>
    if document.code = pair.partnerCode then { document with partnerCode := " " }
    else if document.code = pair.ownCode then { document with partnerCode := " " }
    else document

/-- The program points of the Task of `deletePartnerCode`. -/
inductive TaskPhase where
  | reading
  | lookingUpPartner (code : String)
  | updatingPartner
  | readingOwn
  | lookingUpOwn
  | updatingOwn
  | finished
  deriving DecidableEq, Repr

/-- The program points of the rest of `deletePartnerCode`. -/
inductive RestPhase where
  | removing
  | completing
  | finished
  deriving DecidableEq, Repr

namespace TaskPhase

def threads (pair : Pair) : TaskPhase → List Thread
  | .reading => [.deletePartnerCode .partner]
  | .lookingUpPartner code => [.updatePartnerCodeBy .partner code]
  | .readingOwn => [.deletePartnerCode .own]
  | .lookingUpOwn => [.updatePartnerCodeBy .own pair.ownCode]
  | _ => []

def outbox (pair : Pair) : TaskPhase → List Pending
  | .updatingPartner => [⟨.updateData pair.partnerId " ", some (.deletePartnerCode .own)⟩]
  | .updatingOwn => [⟨.updateData pair.ownId " ", none⟩]
  | _ => []

def users (pair : Pair) (users : Users) : TaskPhase → Users
  | .reading | .lookingUpPartner _ | .updatingPartner => users
  | .readingOwn | .lookingUpOwn | .updatingOwn => users.setPartnerCode pair.partnerId " "
  | .finished => (users.setPartnerCode pair.partnerId " ").setPartnerCode pair.ownId " "

/-- How many steps the Task has yet to make. -/
def remaining : TaskPhase → ℕ
  | .reading => 6
  | .lookingUpPartner _ => 5
  | .updatingPartner => 4
  | .readingOwn => 3
  | .lookingUpOwn => 2
  | .updatingOwn => 1
  | .finished => 0

end TaskPhase

namespace RestPhase

def threads : RestPhase → List Thread
  | .removing => [.removePartnerCode]
  | .completing => [.didDeletePartnerCode]
  | .finished => []

/-- UserDefaults `partner_code`. -/
def partnerCode (pair : Pair) : RestPhase → Option String
  | .removing => some pair.partnerCode
  | _ => none

def remaining : RestPhase → ℕ
  | .removing => 2
  | .completing => 1
  | .finished => 0

end RestPhase

namespace System

variable {ι : Type*}

/-- Two users hold each other's code, on the server and in UserDefaults of the first,
on whose client nothing is running. -/
structure Paired (pair : Pair) (i : ι) (state : System ι) : Prop where
  users : state.users.WellFormed
  ne : pair.ownCode ≠ pair.partnerCode
  own : ⟨pair.ownId, pair.ownCode, pair.partnerCode⟩ ∈ state.users
  partner : ⟨pair.partnerId, pair.partnerCode, pair.ownCode⟩ ∈ state.users
  code : (state.client i).code = some pair.ownCode
  partnerCode : (state.client i).partnerCode = some pair.partnerCode
  threads : (state.client i).threads = []
  outbox : (state.client i).outbox = []
  trap : (state.client i).trap = none

/-- Where the Task and the rest of `deletePartnerCode` have got to. -/
structure InPhase (pair : Pair) (start : Users) (i : ι) (task : TaskPhase) (rest : RestPhase)
    (state : System ι) : Prop where
  users : state.users = task.users pair start
  threads : (state.client i).threads.Perm (task.threads pair ++ rest.threads)
  outbox : (state.client i).outbox = task.outbox pair
  code : (state.client i).code = some pair.ownCode
  partnerCode : (state.client i).partnerCode = rest.partnerCode pair
  trap : (state.client i).trap = none

/-- One step of the Task or of the rest. -/
inductive Moves (pair : Pair) (i : ι) :
    TaskPhase → RestPhase → Event ι → TaskPhase → RestPhase → Prop where
  | read (rest : RestPhase) (event : Event ι) :
      Moves pair i .reading rest event (.lookingUpPartner ((rest.partnerCode pair).getD "")) rest
  | lookUpPartner (rest : RestPhase) (event : Event ι) :
      Moves pair i (.lookingUpPartner pair.partnerCode) rest event .updatingPartner rest
  | updatePartner (rest : RestPhase) (event : Event ι) :
      Moves pair i .updatingPartner rest event .readingOwn rest
  | readOwn (rest : RestPhase) (event : Event ι) :
      Moves pair i .readingOwn rest event .lookingUpOwn rest
  | lookUpOwn (rest : RestPhase) (event : Event ι) :
      Moves pair i .lookingUpOwn rest event .updatingOwn rest
  | updateOwn (rest : RestPhase) (event : Event ι) :
      Moves pair i .updatingOwn rest event .finished rest
  | remove (task : TaskPhase) (choice : Choice) :
      Moves pair i task .removing (.act i (.advance .removePartnerCode choice)) task .completing
  | complete (task : TaskPhase) (event : Event ι) :
      Moves pair i task .completing event task .finished

/-- Both the Task and the rest of `deletePartnerCode` are over. -/
def Finished (i : ι) (state : System ι) : Prop :=
  (state.client i).threads = [] ∧ (state.client i).outbox = []

instance (i : ι) (state : System ι) : Decidable (state.Finished i) :=
  inferInstanceAs (Decidable (_ ∧ _))

/-- The Task is over, and of the rest of `deletePartnerCode` any part may be left. -/
def TaskFinished (i : ι) (state : System ι) : Prop :=
  (∀ thread ∈ (state.client i).threads,
    thread = .removePartnerCode ∨ thread = .didDeletePartnerCode) ∧
  (state.client i).outbox = []

/-- A step of the client itself whose query or write succeeds. -/
def OwnStep (i : ι) : Event ι → Prop
  | .act j (.advance _ choice) => j = i ∧ choice.succeeds = true
  | .settle j accepted => j = i ∧ accepted = true
  | _ => False

/-- The key is removed only after the Task has read it. -/
def ReadsFirst (i : ι) (state : System ι) : Event ι → Prop
  | .act _ (.advance .removePartnerCode _) =>
      .deletePartnerCode .partner ∉ (state.client i).threads
  | _ => True

instance [DecidableEq ι] (i : ι) : ∀ event, Decidable (OwnStep i event)
  | .act j (.advance _ choice) => inferInstanceAs (Decidable (j = i ∧ choice.succeeds = true))
  | .settle j accepted => inferInstanceAs (Decidable (j = i ∧ accepted = true))
  | .act _ .onAppear | .act _ (.getCode _) | .act _ (.enterCode _ _) | .act _ .disconnect
  | .act _ (.watch _ _) | .act _ (.deliver _) => .isFalse not_false

instance (i : ι) (state : System ι) : ∀ event, Decidable (state.ReadsFirst i event)
  | .act _ (.advance thread _) =>
      match thread with
      | .removePartnerCode =>
          inferInstanceAs (Decidable (.deletePartnerCode .partner ∉ (state.client i).threads))
      | .setPartnerCode _ _ | .didConnectedPartner _ | .saveCode _ | .connectPartner
      | .getPartnerCodeFromServer | .connectWithPartner _ _ | .isExistingCode _ _ | .getOwnId _ _
      | .getPartnerId _ _ _ _ | .updateOwn _ _ _ _ _ | .updatePartner _ _ _ _
      | .deletePartnerCode _ | .updatePartnerCodeBy _ _ | .didDeletePartnerCode
      | .requestPartnerClothes => .isTrue trivial
  | .act _ .onAppear | .act _ (.getCode _) | .act _ (.enterCode _ _) | .act _ .disconnect
  | .act _ (.watch _ _) | .act _ (.deliver _) | .settle _ _ => .isTrue trivial

/-! ## One step -/

section

variable {pair : Pair} {start : Users} {i : ι} {task : TaskPhase} {rest : RestPhase}
  {state : System ι}

theorem Paired.mem_index_own (hpaired : state.Paired pair i) :
    (pair.ownId, pair.ownCode) ∈ state.users.index :=
  Users.mem_index_of_mem hpaired.own

theorem Paired.mem_index_partner (hpaired : state.Paired pair i) :
    (pair.partnerId, pair.partnerCode) ∈ state.users.index :=
  Users.mem_index_of_mem hpaired.partner

theorem TaskPhase.index_users (pair : Pair) (users : Users) (task : TaskPhase) :
    (task.users pair users).index = users.index := by
  cases task <;> simp [TaskPhase.users]

theorem InPhase.index_users (hphase : InPhase pair start i task rest state) :
    state.users.index = start.index := by
  rw [hphase.users]
  exact TaskPhase.index_users pair start task

/-- No document is on its way to the server. -/
theorem InPhase.visible (hphase : InPhase pair start i task rest state) (users : Users)
    (thread : Thread) : ((state.client i).dequeue thread).visible users = users := by
  have houtbox : ((state.client i).dequeue thread).outbox = task.outbox pair := hphase.outbox
  have hpending : ((state.client i).dequeue thread).pendingDocuments = [] := by
    rw [Client.pendingDocuments, houtbox]
    cases task <;> rfl
  rw [Client.visible, hpending, List.foldl_nil]

/-- The lookup of a user's code finds the user's document. -/
theorem InPhase.getIdByCode (hphase : InPhase pair start i task rest state)
    (hwf : start.WellFormed) {documentID code : String} (hmem : (documentID, code) ∈ start.index)
    (thread : Thread) (next : String → Client) :
    ((state.client i).dequeue thread).getIdByCode state.users true code next = next documentID := by
  have hmem' : (documentID, code) ∈ state.users.index := hphase.index_users ▸ hmem
  have hcode : code ∈ (((state.client i).dequeue thread).visible state.users).codes := by
    rw [hphase.visible, Users.codes_eq_index]
    exact List.mem_map_of_mem hmem'
  obtain ⟨document, hdocument, rfl, hnext⟩ := Client.getIdByCode_eq hcode
  rw [hphase.visible] at hdocument
  have hwf' := hwf.congr hphase.index_users
  rw [hnext, (hwf'.documentID_eq_iff hmem' hdocument).mpr rfl]

theorem InPhase.threads_dequeue_task (hphase : InPhase pair start i task rest state)
    {thread : Thread} (hthread : task.threads pair = [thread]) :
    ((state.client i).dequeue thread).threads.Perm rest.threads := by
  have herase := hphase.threads.erase thread
  rw [hthread, List.singleton_append, List.erase_cons_head] at herase
  exact herase

theorem InPhase.threads_dequeue_rest (hphase : InPhase pair start i task rest state)
    {thread : Thread} (hthread : rest.threads = [thread]) :
    ((state.client i).dequeue thread).threads.Perm (task.threads pair) := by
  have herase := (hphase.threads.trans List.perm_append_comm).erase thread
  rw [hthread, List.singleton_append, List.erase_cons_head] at herase
  exact herase

variable [DecidableEq ι]

theorem InPhase.set (husers : state.users = task.users pair start) {client : Client}
    (hthreads : client.threads.Perm (task.threads pair ++ rest.threads))
    (houtbox : client.outbox = task.outbox pair) (hcode : client.code = some pair.ownCode)
    (hpartnerCode : client.partnerCode = rest.partnerCode pair) (htrap : client.trap = none) :
    InPhase pair start i task rest (state.set i client) := by
  refine ⟨husers, ?_, ?_, ?_, ?_, ?_⟩ <;> rw [set_client_self] <;> assumption

/-- A thread has made its step. -/
def advanced (state : System ι) (i : ι) (choice : Choice) (thread : Thread) : System ι :=
  state.set i (((state.client i).dequeue thread).advance state.users choice thread)

theorem InPhase.read (hphase : InPhase pair start i .reading rest state) (choice : Choice) :
    InPhase pair start i (.lookingUpPartner ((rest.partnerCode pair).getD "")) rest
      (state.advanced i choice (.deletePartnerCode .partner)) := by
  have hothers := hphase.threads_dequeue_task rfl
  have hvalue : ((state.client i).dequeue (.deletePartnerCode .partner)).getPartnerCode =
      (rest.partnerCode pair).getD "" :=
    congrArg (·.getD "") hphase.partnerCode
  rw [advanced, Client.advance, hvalue]
  apply InPhase.set
  · exact hphase.users
  · exact (hothers.append_right _).trans List.perm_append_comm
  · exact hphase.outbox
  · exact hphase.code
  · exact hphase.partnerCode
  · exact hphase.trap

/-- The document of a user is found, and its update is issued. -/
theorem InPhase.lookUp {side : Side} {documentID code : String} (updating : TaskPhase)
    (hphase : InPhase pair start i task rest state) (hwf : start.WellFormed)
    (hmem : (documentID, code) ∈ start.index)
    (hthread : task.threads pair = [.updatePartnerCodeBy side code])
    (houtbox : task.outbox pair = []) (husers : updating.users pair start = task.users pair start)
    (hthreads : updating.threads pair = [])
    (hupdating : updating.outbox pair = [⟨.updateData documentID " ", side.rest⟩])
    {choice : Choice} (hsucceeds : choice.succeeds = true) :
    InPhase pair start i updating rest
      (state.advanced i choice (.updatePartnerCodeBy side code)) := by
  rw [advanced, Client.advance, hsucceeds, hphase.getIdByCode hwf hmem,
    Client.document_of_ne (hwf.ne_empty hmem)]
  apply InPhase.set
  · exact hphase.users.trans husers.symm
  · rw [hthreads]
    exact hphase.threads_dequeue_task hthread
  · rw [hupdating]
    exact congrArg (· ++ _) (hphase.outbox.trans houtbox)
  · exact hphase.code
  · exact hphase.partnerCode
  · exact hphase.trap

theorem InPhase.readOwn (hphase : InPhase pair start i .readingOwn rest state)
    (choice : Choice) :
    InPhase pair start i .lookingUpOwn rest
      (state.advanced i choice (.deletePartnerCode .own)) := by
  have hothers := hphase.threads_dequeue_task rfl
  have hcode : ((state.client i).dequeue (.deletePartnerCode .own)).code = some pair.ownCode :=
    hphase.code
  rw [advanced, Client.advance]
  simp only [Client.getCode_of_some hcode, Client.ownCode_eq hcode]
  apply InPhase.set
  · exact hphase.users
  · exact (hothers.append_right _).trans List.perm_append_comm
  · exact hphase.outbox
  · exact hphase.code
  · exact hphase.partnerCode
  · exact hphase.trap

theorem InPhase.remove (hphase : InPhase pair start i task .removing state) (choice : Choice) :
    InPhase pair start i task .completing (state.advanced i choice .removePartnerCode) := by
  apply InPhase.set
  · exact hphase.users
  · exact (hphase.threads_dequeue_rest rfl).append_right _
  · exact hphase.outbox
  · exact hphase.code
  · rfl
  · exact hphase.trap

theorem InPhase.complete (hphase : InPhase pair start i task .completing state)
    (choice : Choice) :
    InPhase pair start i task .finished (state.advanced i choice .didDeletePartnerCode) := by
  apply InPhase.set
  · exact hphase.users
  · rw [RestPhase.threads, List.append_nil]
    exact hphase.threads_dequeue_rest rfl
  · exact hphase.outbox
  · exact hphase.code
  · exact hphase.partnerCode
  · exact hphase.trap

/-- An update is accepted, and the Task goes on. -/
theorem InPhase.settle {documentID : String} {resume : Option Thread} {updated : TaskPhase}
    (hphase : InPhase pair start i task rest state) (hwf : start.WellFormed)
    (hidle : task.threads pair = [])
    (husers : updated.users pair start = (task.users pair start).setPartnerCode documentID " ")
    (hthreads : updated.threads pair = resume.toList) (hupdated : updated.outbox pair = []) :
    InPhase pair start i updated rest
      ((state.commit i (.updateData documentID " ")).settled i
        ⟨.updateData documentID " ", resume⟩ []) := by
  obtain ⟨cache, hclient⟩ := state.commit_client i (.updateData documentID " ") i
  have hcommit := users_commit_updateData (hwf.congr hphase.index_users) i documentID " "
  apply InPhase.set
  · rw [hcommit, hphase.users, husers]
  · have hold := hphase.threads
    rw [hidle, List.nil_append] at hold
    rw [hthreads, hclient]
    exact (hold.append_right _).trans List.perm_append_comm
  · exact hupdated.symm
  · rw [hclient]
    exact hphase.code
  · rw [hclient]
    exact hphase.partnerCode
  · rw [hclient]
    exact hphase.trap

theorem advanced_of_step {thread : Thread} {choice : Choice} {next : System ι}
    (hstep : state.step (.act i (.advance thread choice)) = some next) :
    thread ∈ (state.client i).threads ∧ next = state.advanced i choice thread := by
  cases transition_of_step hstep with
  | act htrap hact =>
      obtain ⟨hmem, rfl⟩ := Client.advance_of_act hact
      exact ⟨hmem, rfl⟩

/-- A thread of the client makes its step: one of the Task, or one of the rest. -/
theorem InPhase.advance {paired : System ι} (hpaired : paired.Paired pair i)
    (hphase : InPhase pair paired.users i task rest state) {thread : Thread}
    (hmem : thread ∈ (state.client i).threads) {choice : Choice}
    (hsucceeds : choice.succeeds = true) :
    (∃ task' rest', Moves pair i task rest (.act i (.advance thread choice)) task' rest' ∧
        InPhase pair paired.users i task' rest' (state.advanced i choice thread)) ∨
      ∃ code, task = .lookingUpPartner code ∧ code ≠ pair.partnerCode ∧
        thread = .updatePartnerCodeBy .partner code := by
  -- a thread of the Task, whose first lookup may miss the partner, or one of the rest
  rcases List.mem_append.mp (hphase.threads.mem_iff.mp hmem) with htask | hrest
  · cases task with
    | reading =>
        obtain rfl := List.mem_singleton.mp htask
        exact .inl ⟨_, _, .read rest _, hphase.read choice⟩
    | lookingUpPartner code =>
        obtain rfl := List.mem_singleton.mp htask
        by_cases hcode : code = pair.partnerCode
        · subst hcode
          exact .inl ⟨_, _, .lookUpPartner rest _, hphase.lookUp .updatingPartner
            hpaired.users hpaired.mem_index_partner rfl rfl rfl rfl rfl hsucceeds⟩
        · exact .inr ⟨code, rfl, hcode, rfl⟩
    | updatingPartner => simp [TaskPhase.threads] at htask
    | readingOwn =>
        obtain rfl := List.mem_singleton.mp htask
        exact .inl ⟨_, _, .readOwn rest _, hphase.readOwn choice⟩
    | lookingUpOwn =>
        obtain rfl := List.mem_singleton.mp htask
        exact .inl ⟨_, _, .lookUpOwn rest _, hphase.lookUp .updatingOwn hpaired.users
          hpaired.mem_index_own rfl rfl rfl rfl rfl hsucceeds⟩
    | updatingOwn => simp [TaskPhase.threads] at htask
    | finished => simp [TaskPhase.threads] at htask
  · cases rest with
    | removing =>
        obtain rfl := List.mem_singleton.mp hrest
        exact .inl ⟨_, _, .remove task choice, hphase.remove choice⟩
    | completing =>
        obtain rfl := List.mem_singleton.mp hrest
        exact .inl ⟨_, _, .complete task _, hphase.complete choice⟩
    | finished => simp [RestPhase.threads] at hrest

/-- A step leads to the next phase, unless the Task looks up another code than the
partner's. -/
theorem InPhase.step {paired next : System ι} {event : Event ι} (hpaired : paired.Paired pair i)
    (hphase : InPhase pair paired.users i task rest state) (hown : OwnStep i event)
    (hstep : state.step event = some next) :
    (∃ task' rest', Moves pair i task rest event task' rest' ∧
        InPhase pair paired.users i task' rest' next) ∨
      ∃ code choice, task = .lookingUpPartner code ∧ code ≠ pair.partnerCode ∧
        choice.succeeds = true ∧
        next = state.advanced i choice (.updatePartnerCodeBy .partner code) := by
  cases event with
  | act j action =>
      cases action with
      | advance thread choice =>
          obtain ⟨rfl, hsucceeds⟩ := hown
          obtain ⟨hmem, rfl⟩ := advanced_of_step hstep
          refine (hphase.advance hpaired hmem hsucceeds).imp_right ?_
          intro hother
          obtain ⟨code, htask, hcode, rfl⟩ := hother
          exact ⟨code, choice, htask, hcode, hsucceeds, rfl⟩
      | _ => exact absurd hown not_false
  | settle j accepted =>
      obtain ⟨rfl, rfl⟩ := hown
      left
      cases transition_of_step hstep with
      | accept houtbox =>
          rw [hphase.outbox] at houtbox
          cases task with
          | updatingPartner =>
              obtain ⟨rfl, rfl⟩ := List.cons.inj houtbox
              exact ⟨_, _, .updatePartner rest _, hphase.settle hpaired.users rfl rfl rfl rfl⟩
          | updatingOwn =>
              obtain ⟨rfl, rfl⟩ := List.cons.inj houtbox
              exact ⟨_, _, .updateOwn rest _, hphase.settle hpaired.users rfl rfl rfl rfl⟩
          | _ => exact absurd houtbox (List.cons_ne_nil _ _).symm

/-! ## Runs -/

theorem Paired.disconnect {next : System ι} (hpaired : state.Paired pair i)
    (hstep : state.step (.act i .disconnect) = some next) :
    InPhase pair state.users i .reading .removing next := by
  cases transition_of_step hstep with
  | act htrap hact =>
      obtain rfl := Option.some.inj hact
      apply InPhase.set
      · rfl
      · simp [hpaired.threads, TaskPhase.threads, RestPhase.threads]
      · exact hpaired.outbox
      · exact hpaired.code
      · exact hpaired.partnerCode
      · exact hpaired.trap

omit [DecidableEq ι] in
theorem Moves.remaining {event : Event ι} {task' : TaskPhase} {rest' : RestPhase}
    (hmoves : Moves pair i task rest event task' rest') :
    task'.remaining + rest'.remaining + 1 = task.remaining + rest.remaining := by
  cases hmoves <;> simp only [TaskPhase.remaining, RestPhase.remaining] <;> omega

/-- The Task has the partner's code, or the key is still there to be read. -/
structure OnTime (pair : Pair) (task : TaskPhase) (rest : RestPhase) : Prop where
  reading : task = .reading → rest = .removing
  lookingUp : ∀ code, task = .lookingUpPartner code → code = pair.partnerCode

omit [DecidableEq ι] in
theorem OnTime.moves {event : Event ι} {task' : TaskPhase} {rest' : RestPhase}
    (htime : OnTime pair task rest) (hphase : InPhase pair start i task rest state)
    (hfirst : state.ReadsFirst i event) (hmoves : Moves pair i task rest event task' rest') :
    OnTime pair task' rest' := by
  cases hmoves with
  | read =>
      refine ⟨by simp, ?_⟩
      intro code hcode
      obtain rfl := TaskPhase.lookingUpPartner.inj hcode
      rw [htime.reading rfl]
      rfl
  | remove choice =>
      refine ⟨?_, htime.lookingUp⟩
      intro hreading
      subst hreading
      exact absurd (hphase.threads.mem_iff.mpr List.mem_cons_self) hfirst
  | complete =>
      refine ⟨?_, htime.lookingUp⟩
      intro hreading
      exact absurd (htime.reading hreading) (by simp)
  | _ => exact ⟨by simp, by simp⟩

/-- Along a run that reads first, the Task and the rest come nearer to their ends with
every step. -/
theorem inPhase_of_reachesIn {paired next final : System ι} {n : ℕ}
    (hpaired : paired.Paired pair i) (hnext : InPhase pair paired.users i .reading .removing next)
    (hrun : ReachesIn System.step (fun state event => OwnStep i event ∧ state.ReadsFirst i event)
      next n final) :
    ∃ task rest, InPhase pair paired.users i task rest final ∧ OnTime pair task rest ∧
      n + (task.remaining + rest.remaining) = 8 := by
  induction hrun with
  | refl => exact ⟨_, _, hnext, ⟨by simp, by simp⟩, rfl⟩
  | tail _ hallowed hstep ih =>
      obtain ⟨task, rest, hphase, htime, hlength⟩ := ih
      obtain ⟨hown, hfirst⟩ := hallowed
      rcases hphase.step hpaired hown hstep with ⟨task', rest', hmoves, hphase'⟩ | hother
      · refine ⟨task', rest', hphase', htime.moves hphase hfirst hmoves, ?_⟩
        have hremaining := hmoves.remaining
        omega
      · obtain ⟨code, _, htask, hcode, _⟩ := hother
        exact absurd (htime.lookingUp code htask) hcode

omit [DecidableEq ι] in
theorem InPhase.finished_iff (hphase : InPhase pair start i task rest state) :
    state.Finished i ↔ task = .finished ∧ rest = .finished := by
  rw [Finished, hphase.outbox, ← List.length_eq_zero_iff, hphase.threads.length_eq]
  cases task <;> cases rest <;> simp [TaskPhase.threads, TaskPhase.outbox, RestPhase.threads]

theorem exists_step_of_mem (htrap : (state.client i).trap = none) {thread : Thread}
    (hmem : thread ∈ (state.client i).threads) :
    ∃ next, state.step (.act i (.advance thread querying)) = some next := by
  simp [System.step, htrap, Client.act, hmem]

/-- Until both are over, some step is possible. -/
theorem InPhase.progress (hphase : InPhase pair start i task rest state)
    (hunfinished : ¬ state.Finished i) :
    ∃ event next, OwnStep i event ∧ state.ReadsFirst i event ∧ state.step event = some next := by
  have hadvance : ∀ thread ∈ task.threads pair ++ rest.threads, thread ≠ .removePartnerCode →
      ∃ event next, OwnStep i event ∧ state.ReadsFirst i event ∧ state.step event = some next := by
    intro thread hmem hother
    obtain ⟨next, hnext⟩ := exists_step_of_mem hphase.trap (hphase.threads.mem_iff.mpr hmem)
    refine ⟨.act i (.advance thread querying), next, ⟨rfl, rfl⟩, ?_, hnext⟩
    unfold ReadsFirst
    split
    · rename_i heq
      simp_all
    · trivial
  have hsettle : ∀ pending, (state.client i).outbox = [pending] →
      ∃ event next, OwnStep i event ∧ state.ReadsFirst i event ∧ state.step event = some next := by
    intro pending houtbox
    exact ⟨.settle i true, _, ⟨rfl, rfl⟩, trivial, by rw [System.step, System.settle, houtbox]⟩
  cases task with
  | reading => exact hadvance _ List.mem_cons_self (by simp)
  | lookingUpPartner => exact hadvance _ List.mem_cons_self (by simp)
  | updatingPartner => exact hsettle _ hphase.outbox
  | readingOwn => exact hadvance _ List.mem_cons_self (by simp)
  | lookingUpOwn => exact hadvance _ List.mem_cons_self (by simp)
  | updatingOwn => exact hsettle _ hphase.outbox
  | finished =>
      cases rest with
      | removing =>
          -- the Task is over, and so it has read the key
          obtain ⟨next, hnext⟩ := exists_step_of_mem hphase.trap
            (hphase.threads.mem_iff.mpr List.mem_cons_self)
          refine ⟨.act i (.advance .removePartnerCode querying), next, ⟨rfl, rfl⟩, ?_, hnext⟩
          rw [ReadsFirst, hphase.threads.mem_iff]
          simp [TaskPhase.threads, RestPhase.threads]
      | completing => exact hadvance _ List.mem_cons_self (by simp)
      | finished => exact absurd (hphase.finished_iff.mpr ⟨rfl, rfl⟩) hunfinished

omit [DecidableEq ι] in
theorem InPhase.taskFinished_iff (hphase : InPhase pair start i task rest state) :
    state.TaskFinished i ↔ task = .finished := by
  have hthreads : (∀ thread ∈ (state.client i).threads,
        thread = .removePartnerCode ∨ thread = .didDeletePartnerCode) ↔
      ∀ thread ∈ task.threads pair ++ rest.threads,
        thread = .removePartnerCode ∨ thread = .didDeletePartnerCode := by
    simp only [hphase.threads.mem_iff]
  rw [TaskFinished, hthreads, hphase.outbox]
  cases task <;> cases rest <;> simp [TaskPhase.threads, TaskPhase.outbox, RestPhase.threads]

omit [DecidableEq ι] in
/-- Once the Task is over, both documents are blank. -/
theorem InPhase.released {paired : System ι} (hpaired : paired.Paired pair i)
    (hphase : InPhase pair paired.users i .finished rest state) :
    state.users = pair.released paired.users := by
  rw [hphase.users]
  exact hpaired.users.setPartnerCode_both hpaired.mem_index_partner hpaired.mem_index_own
    hpaired.ne " " " "

omit [DecidableEq ι] in
/-- Once the removal has run, the key is gone. -/
theorem InPhase.partnerCode_eq_none (hphase : InPhase pair start i task rest state)
    (hremoved : .removePartnerCode ∉ (state.client i).threads) :
    (state.client i).partnerCode = none := by
  rw [hphase.partnerCode]
  cases rest with
  | removing =>
      rw [hphase.threads.mem_iff] at hremoved
      simp [RestPhase.threads] at hremoved
  | completing => rfl
  | finished => rfl

/-- A code without a document ends the process. -/
theorem InPhase.lookUp_traps {paired : System ι} {code : String}
    (hphase : InPhase pair paired.users i (.lookingUpPartner code) rest state)
    (hcode : code ∉ paired.users.codes) {choice : Choice} (hsucceeds : choice.succeeds = true) :
    ((state.advanced i choice (.updatePartnerCodeBy .partner code)).client i).trap ≠ none := by
  have hresult : state.users.whereCode code = [] := by
    by_contra hne
    have hmem := Users.whereCode_ne_nil.mp hne
    rw [Users.codes_eq_index, hphase.index_users, ← Users.codes_eq_index] at hmem
    exact hcode hmem
  rw [advanced, set_client_self, Client.advance, Client.getIdByCode, Client.query, hsucceeds,
    if_pos rfl, hphase.visible, hresult]
  simp [ConnectionManager.getIdByCode]

/-- A process that has ended stays so. -/
theorem trap_of_step {next : System ι} {event : Event ι} (htrap : (state.client i).trap ≠ none)
    (hown : OwnStep i event) (hstep : state.step event = some next) :
    (next.client i).trap ≠ none := by
  cases transition_of_step hstep with
  | @act j action client halive hact =>
      cases action with
      | advance thread choice =>
          obtain ⟨rfl, _⟩ := hown
          exact absurd halive htrap
      | _ => exact absurd hown not_false
  | @accept j pending rest houtbox =>
      obtain ⟨rfl, _⟩ := hown
      obtain ⟨cache, hclient⟩ := state.commit_client j pending.write j
      rw [System.settled, set_client_self, hclient]
      exact htrap
  | reject houtbox => exact absurd hown.2 (by simp)

/-- After the key was removed first: the process has ended, or the Task has yet to look
up the empty code. -/
def Late (pair : Pair) (start : Users) (i : ι) (state : System ι) : Prop :=
  (state.client i).trap ≠ none ∨ ∃ rest, rest ≠ .removing ∧
    (InPhase pair start i .reading rest state ∨
      InPhase pair start i (.lookingUpPartner "") rest state)

theorem Late.step {paired next : System ι} {event : Event ι} (hpaired : paired.Paired pair i)
    (hempty : "" ∉ paired.users.codes) (hlate : Late pair paired.users i state)
    (hown : OwnStep i event) (hstep : state.step event = some next) :
    Late pair paired.users i next := by
  rcases hlate with htrap | ⟨rest, hrest, hreading | hlooking⟩
  · exact .inl (trap_of_step htrap hown hstep)
  · rcases hreading.step hpaired hown hstep with ⟨task', rest', hmoves, hphase⟩ | hother
    · cases hmoves with
      | read =>
          cases rest with
          | removing => exact absurd rfl hrest
          | completing => exact .inr ⟨_, hrest, .inr hphase⟩
          | finished => exact .inr ⟨_, hrest, .inr hphase⟩
      | remove => exact absurd rfl hrest
      | complete => exact .inr ⟨_, by simp, .inl hphase⟩
    · obtain ⟨code, _, htask, _⟩ := hother
      exact absurd htask (by simp)
  · rcases hlooking.step hpaired hown hstep with ⟨task', rest', hmoves, hphase⟩ | hother
    · generalize htask : TaskPhase.lookingUpPartner "" = task at hmoves
      cases hmoves with
      | lookUpPartner =>
          -- the partner's code has a document
          have hpartner : pair.partnerCode ∈ paired.users.codes :=
            List.mem_map_of_mem hpaired.partner
          rw [← TaskPhase.lookingUpPartner.inj htask] at hpartner
          exact absurd hpartner hempty
      | remove => exact absurd rfl hrest
      | complete => exact .inr ⟨_, by simp, .inr (htask ▸ hphase)⟩
      | _ => exact absurd htask (by simp)
    · obtain ⟨code, choice, htask, _, hsucceeds, rfl⟩ := hother
      obtain rfl := TaskPhase.lookingUpPartner.inj htask
      exact .inl (hlooking.lookUp_traps hempty hsucceeds)

omit [DecidableEq ι] in
theorem Late.not_taskFinished (hlate : Late pair start i state)
    (htrap : (state.client i).trap = none) : ¬ state.TaskFinished i := by
  rcases hlate with hended | ⟨rest, _, hphase | hphase⟩
  · exact absurd htrap hended
  · rw [hphase.taskFinished_iff]
    simp
  · rw [hphase.taskFinished_iff]
    simp

/-- While the key is removed only after the Task has read it, disconnecting does not trap
and is over after at most eight steps; when the Task is over, both documents are blank and
nothing else has changed, and when the removal has run, UserDefaults has no `partner_code`.
If the key is removed first and no document has the empty code, the Task does not come to
its end. -/
theorem disconnect_releases {next : System ι} (hpaired : state.Paired pair i)
    (hdisconnect : state.step (.act i .disconnect) = some next) :
    (∀ n final,
      ReachesIn System.step (fun state event => OwnStep i event ∧ state.ReadsFirst i event)
        next n final →
      (final.client i).trap = none ∧ n ≤ 8 ∧
      (final.TaskFinished i → final.users = pair.released state.users) ∧
      (.removePartnerCode ∉ (final.client i).threads → (final.client i).partnerCode = none) ∧
      (¬ final.Finished i → ∃ event after,
        OwnStep i event ∧ final.ReadsFirst i event ∧ final.step event = some after)) ∧
    ("" ∉ state.users.codes → ∀ choice removed final,
      next.step (.act i (.advance .removePartnerCode choice)) = some removed →
      Reaches System.step (fun _ event => OwnStep i event) removed final →
      (final.client i).trap = none → ¬ final.TaskFinished i) := by
  have hnext := hpaired.disconnect hdisconnect
  constructor
  · intro n final hrun
    obtain ⟨task, rest, hphase, _, hlength⟩ := inPhase_of_reachesIn hpaired hnext hrun
    refine ⟨hphase.trap, by omega, ?_, hphase.partnerCode_eq_none, hphase.progress⟩
    intro hfinished
    obtain rfl := hphase.taskFinished_iff.mp hfinished
    exact hphase.released hpaired
  · intro hempty choice removed final hremove hreach
    obtain ⟨_, rfl⟩ := advanced_of_step hremove
    have hlate : Late pair state.users i final :=
      hreach.invariant (P := Late pair state.users i)
        (.inr ⟨_, by simp, .inl (hnext.remove choice)⟩)
        fun _ _ _ hlate hown hstep => hlate.step hpaired hempty hown hstep
    exact hlate.not_taskFinished

end

/-! ### Two partners -/

/-- Two users who hold each other's code. -/
def partners : System Bool where
  users := [⟨"a", "AAAAAAAAAA", "BBBBBBBBBB"⟩, ⟨"b", "BBBBBBBBBB", "AAAAAAAAAA"⟩]
  client i :=
    bif i then { code := some "BBBBBBBBBB", partnerCode := some "AAAAAAAAAA" }
    else { code := some "AAAAAAAAAA", partnerCode := some "BBBBBBBBBB" }

def partnersPair : Pair := ⟨"AAAAAAAAAA", "BBBBBBBBBB", "a", "b"⟩

theorem partners_paired : partners.Paired partnersPair false :=
  ⟨⟨by decide, by decide, by decide⟩, by decide, by decide, by decide, rfl, rfl, rfl, rfl, rfl⟩

/-- The first user has confirmed the disconnect dialog. -/
def partnersLeaving : System Bool :=
  partners.set false (((partners.client false).spawn (.deletePartnerCode .partner)).spawn
    .removePartnerCode)

theorem partners_step_disconnect :
    partners.step (.act false .disconnect) = some partnersLeaving :=
  rfl

/-- The Task reads the key, the key is removed, and the Task goes on. -/
def leaving : List (Event Bool) :=
  [.act false (.advance (.deletePartnerCode .partner) querying),
    .act false (.advance .removePartnerCode querying),
    .act false (.advance .didDeletePartnerCode querying),
    .act false (.advance (.updatePartnerCodeBy .partner "BBBBBBBBBB") querying),
    .settle false true, .act false (.advance (.deletePartnerCode .own) querying),
    .act false (.advance (.updatePartnerCodeBy .own "AAAAAAAAAA") querying), .settle false true]

/-- The key is removed before the Task reads it. -/
def leavingLate : List (Event Bool) :=
  [.act false (.advance .removePartnerCode querying),
    .act false (.advance (.deletePartnerCode .partner) querying),
    .act false (.advance (.updatePartnerCodeBy .partner "") querying)]

theorem partners_disconnect_releases :
    ∃ final, ReachesIn System.step
        (fun state event => OwnStep false event ∧ state.ReadsFirst false event)
        partnersLeaving 8 final ∧
      (final.client false).threads = [] ∧
      final.users = [⟨"a", "AAAAAAAAAA", " "⟩, ⟨"b", "BBBBBBBBBB", " "⟩] ∧
      (final.client false).partnerCode = none := by
  obtain ⟨final, hrun, hthreads, houtbox⟩ : ∃ final, ReachesIn System.step
      (fun state event => OwnStep false event ∧ state.ReadsFirst false event)
      partnersLeaving leaving.length final ∧ final.Finished false :=
    exists_reachesIn_of_run leaving (by decide)
  obtain ⟨_, _, hreleased, hremoved, _⟩ :=
    (disconnect_releases partners_paired partners_step_disconnect).1 _ _ hrun
  refine ⟨final, hrun, hthreads, hreleased ⟨?_, houtbox⟩, hremoved ?_⟩
  · simp [hthreads]
  · simp [hthreads]

/-- The key is removed first, and the lookup of the empty code ends the process. -/
theorem partners_disconnect_traps :
    ¬ ∀ (pair : Pair) (i : Bool) (state next final : System Bool), state.Paired pair i →
      state.step (.act i .disconnect) = some next →
      Reaches System.step (fun _ event => OwnStep i event) next final →
      (final.client i).trap = none ∧
      (final.Finished i →
        final.users = pair.released state.users ∧ (final.client i).partnerCode = none) := by
  intro hreleases
  obtain ⟨final, hreach, htrap⟩ : ∃ final,
      Reaches System.step (fun _ event => OwnStep false event) partnersLeaving final ∧
      (final.client false).trap = some .emptyResult :=
    exists_reaches_of_run leavingLate (by decide)
  have hnone := (hreleases partnersPair false partners partnersLeaving final partners_paired
    partners_step_disconnect hreach).1
  rw [htrap] at hnone
  exact absurd hnone (by simp)

end System

end Pompom
