import Pompom.Lib.Outstanding
import Pompom.Pairing.Established

/-!
# Outstanding writes of partner codes

The writes of `partner_code` that a client is still going to make, each as the code
of the user whose document it is and the value.  A step of a thread only moves them
along, from the thread into the outbox, apart from the two steps at which an
operation becomes bound to write: the existence check of `connectWithPartner`, and
the start of the Task of `deletePartnerCode` (`starts`).

With these the collection is a store with outstanding writes: whatever values an
observer accepts, the collection stays bound for them when a write is settled
(`settling_settle`).
-/

namespace Pompom

open Lib

/-- The writes that a thread of the client with this code is going to make. -/
def Thread.writes (own : String) : Thread → List (String × String)
  | .getOwnId _ partnerCode => [(own, partnerCode), (partnerCode, own)]
  | .getPartnerId _ partnerCode _ _ => [(own, partnerCode), (partnerCode, own)]
  | .updateOwn _ partnerCode _ _ _ => [(own, partnerCode), (partnerCode, own)]
  | .updatePartner _ partnerCode _ _ => [(partnerCode, own)]
  | .deletePartnerCode .own => [(own, " ")]
  | .updatePartnerCodeBy .partner partnerCode => [(partnerCode, " "), (own, " ")]
  | .updatePartnerCodeBy .own _ => [(own, " ")]
  | _ => []

/-- Whether a thread belongs to `connectWithPartner` or `deletePartnerCode`. -/
def Thread.isOperation : Thread → Bool
  | .saveCode _ | .connectPartner | .getPartnerCodeFromServer | .requestPartnerClothes => false
  | _ => true

theorem Thread.writes_eq_nil {thread : Thread} (hthread : thread.isOperation = false)
    (own : String) : thread.writes own = [] := by
  cases thread with
  | saveCode _ | connectPartner | getPartnerCodeFromServer | requestPartnerClothes => rfl
  | _ => simp [Thread.isOperation] at hthread

/-- The write of a partner code that is in flight. -/
def Pending.writes (index : List (String × String)) (pending : Pending) :
    List (String × String) :=
  match pending.write with
  | .addDocument _ => []
  | .updateData documentID partnerCode =>
      (index.filter fun entry => entry.1 = documentID).map fun entry => (entry.2, partnerCode)

namespace Client

def writes (users : Users) (client : Client) : List (String × String) :=
  client.running.flatMap (Thread.writes client.ownCode) ++
    client.outbox.flatMap (Pending.writes users.index)

/-- The writes to which a step of a thread binds its operation. -/
def starts (users : Users) (client : Client) : Thread → List (String × String)
  | .isExistingCode _ partnerCode =>
      if partnerCode ∈ users.codes then
        [(client.ownCode, partnerCode), (partnerCode, client.ownCode)]
      else []
  | .deletePartnerCode .partner =>
      [(client.getPartnerCode, " "), (client.ownCode, " ")]
  | _ => []

/-- The code that a thread with outstanding writes is about to look up. -/
def lookup (client : Client) : Thread → Option String
  | .getOwnId _ _ => some client.ownCode
  | .getPartnerId _ partnerCode _ _ => some partnerCode
  | .updatePartnerCodeBy _ code => some code
  | _ => none

variable {users : Users} {client : Client} {write : String × String}

theorem mem_writes :
    write ∈ client.writes users ↔
      (∃ thread ∈ client.running, write ∈ thread.writes client.ownCode) ∨
        ∃ pending ∈ client.outbox, write ∈ pending.writes users.index := by
  simp [writes]

/-- A client with no operation running and no write in flight is not going to
write. -/
theorem writes_eq_nil (houtbox : client.outbox = [])
    (hthreads : ∀ thread ∈ client.threads, thread.isOperation = false) :
    client.writes users = [] := by
  simp only [writes, running, houtbox, List.filterMap_nil, List.append_nil, List.flatMap_nil]
  exact List.flatMap_eq_nil_iff.mpr fun thread hthread =>
    Thread.writes_eq_nil (hthreads thread hthread) _

theorem mem_writes_spawn {thread : Thread} :
    write ∈ (client.spawn thread).writes users ↔
      write ∈ client.writes users ∨ write ∈ thread.writes client.ownCode := by
  rw [mem_writes, mem_writes, exists_running_spawn, or_right_comm]
  rfl

/-- The update of a document is the write to the user with that document. -/
theorem mem_pending_writes (hwf : users.WellFormed) {documentID code : String}
    (hmem : (documentID, code) ∈ users.index) {partnerCode : String} {resume : Option Thread} :
    write ∈ (⟨.updateData documentID partnerCode, resume⟩ : Pending).writes users.index ↔
      write = (code, partnerCode) := by
  simp only [Pending.writes, List.mem_map, List.mem_filter, decide_eq_true_eq]
  constructor
  · rintro ⟨entry, ⟨hentry, hdocumentID⟩, rfl⟩
    have hcode : entry.2 = code :=
      (hwf.filter_index hmem entry.2).mp ⟨entry, hentry, hdocumentID, rfl⟩
    rw [hcode]
  · rintro rfl
    exact ⟨_, ⟨hmem, rfl⟩, rfl⟩

theorem mem_writes_issue (hwf : users.WellFormed) {documentID code : String}
    (hmem : (documentID, code) ∈ users.index) {partnerCode : String} {resume : Option Thread} :
    write ∈ (client.issue (.updateData documentID partnerCode) resume).writes users ↔
      write ∈ client.writes users ∨ write = (code, partnerCode) ∨
        ∃ thread ∈ resume, write ∈ thread.writes client.ownCode := by
  rw [mem_writes, mem_writes]
  simp only [mem_running_issue]
  constructor
  · rintro (⟨thread, hthread | hthread, hwrite⟩ | ⟨pending, hpending, hwrite⟩)
    · exact .inr (.inr ⟨thread, hthread, hwrite⟩)
    · exact .inl (.inl ⟨thread, hthread, hwrite⟩)
    · rcases List.mem_append.mp hpending with hpending | hpending
      · exact .inl (.inr ⟨pending, hpending, hwrite⟩)
      · obtain rfl := List.mem_singleton.mp hpending
        exact .inr (.inl ((mem_pending_writes hwf hmem).mp hwrite))
  · rintro ((⟨thread, hthread, hwrite⟩ | ⟨pending, hpending, hwrite⟩) | hwrite |
      ⟨thread, hthread, hwrite⟩)
    · exact .inl ⟨thread, .inr hthread, hwrite⟩
    · exact .inr ⟨pending, List.mem_append_left _ hpending, hwrite⟩
    · exact .inr ⟨_, List.mem_append_right _ (List.mem_singleton.mpr rfl),
        (mem_pending_writes hwf hmem).mpr hwrite⟩
    · exact .inl ⟨thread, .inl hthread, hwrite⟩

theorem mem_writes_dequeue {thread : Thread} (hmem : thread ∈ client.threads) :
    write ∈ client.writes users ↔
      write ∈ (client.dequeue thread).writes users ∨ write ∈ thread.writes client.ownCode := by
  rw [mem_writes, mem_writes, exists_running_dequeue hmem, or_right_comm]
  rfl

theorem writes_spawn (client : Client) {thread : Thread}
    (hthread : thread.writes client.ownCode = []) :
    (client.spawn thread).writes users = client.writes users := by
  have hown : ({ client with threads := client.threads ++ [thread] } : Client).ownCode =
      client.ownCode := rfl
  simp [writes, running, hown, hthread]

/-- What a step of a thread may do to the outstanding writes: it moves those of the
thread along, and adds those that it starts. -/
def Moves (users : Users) (client next : Client) (thread : Thread) : Prop :=
  ∀ write, write ∈ next.writes users ↔ write ∈ client.writes users ∨
    write ∈ thread.writes client.ownCode ∨ write ∈ client.starts users thread

/-- A step that leaves threads and writes alone, of a thread without writes. -/
theorem moves_of_eq {next : Client} {thread : Thread}
    (hnext : next.writes users = client.writes users)
    (hthread : thread.writes client.ownCode = []) (hstarts : client.starts users thread = []) :
    Moves users client next thread := by
  intro write
  simp [hnext, hthread, hstarts]

/-- A thread hands its writes over to the next. -/
theorem moves_spawn {thread next : Thread}
    (hnext : ∀ write, write ∈ next.writes client.ownCode ↔
      write ∈ thread.writes client.ownCode ∨ write ∈ client.starts users thread) :
    Moves users client (client.spawn next) thread := by
  intro write
  rw [mem_writes_spawn, hnext]

theorem moves_connectWithPartner {choice : Choice} {origin : Origin} {partnerCode : String}
    (hcode : client.code = some client.ownCode) :
    Moves users client (client.advance users choice (.connectWithPartner origin partnerCode))
      (.connectWithPartner origin partnerCode) := by
  simp only [advance, getCode_of_some hcode]
  split
  · exact moves_of_eq rfl rfl rfl
  · exact moves_spawn (by simp [Thread.writes, starts])

/-- The existence check starts the writes of both documents. -/
theorem moves_isExistingCode {choice : Choice} {origin : Origin} {partnerCode : String}
    (hunsaved : client.unsaved = []) (hsucceeds : choice.succeeds = true) :
    Moves users client (client.advance users choice (.isExistingCode origin partnerCode))
      (.isExistingCode origin partnerCode) := by
  simp only [advance, hsucceeds, mem_codes_of_isExistingCode hunsaved]
  split
  · rename_i hexists
    exact moves_spawn (by simp [Thread.writes, starts, hexists])
  · rename_i hmissing
    exact moves_of_eq rfl rfl (by simp [starts, hmissing])

/-- A lookup that succeeds hands the writes of its thread over to the next. -/
theorem moves_getIdByCode (hunsaved : client.unsaved = []) {code : String}
    (hmem : code ∈ users.codes) {thread : Thread} {next : String → Client}
    (hnext : ∀ documentID, (documentID, code) ∈ users.index →
      Moves users client (next documentID) thread) :
    Moves users client (client.getIdByCode users true code next) thread := by
  obtain ⟨documentID, hdocumentID, heq⟩ := getIdByCode_of_mem hunsaved hmem
  rw [heq]
  exact hnext documentID hdocumentID

/-- One write moves into the outbox, the other stays with the thread. -/
theorem moves_updateOwn (hwf : users.WellFormed) {choice : Choice} {origin : Origin}
    {partnerCode ownId partnerId : String} (hownId : (ownId, client.ownCode) ∈ users.index) :
    Moves users client
      (client.advance users choice
        (.updateOwn origin partnerCode client.ownCode ownId partnerId))
      (.updateOwn origin partnerCode client.ownCode ownId partnerId) := by
  intro write
  rw [advance, document_of_ne (hwf.ne_empty hownId), mem_writes_spawn, mem_writes_issue hwf hownId]
  simp [Thread.writes, starts, ownCode, or_assoc]

theorem moves_updatePartner (hwf : users.WellFormed) {choice : Choice} {origin : Origin}
    {partnerCode partnerId : String} (hpartnerId : (partnerId, partnerCode) ∈ users.index) :
    Moves users client
      (client.advance users choice (.updatePartner origin partnerCode client.ownCode partnerId))
      (.updatePartner origin partnerCode client.ownCode partnerId) := by
  intro write
  rw [advance, document_of_ne (hwf.ne_empty hpartnerId), mem_writes_spawn,
    mem_writes_issue hwf hpartnerId]
  simp [Thread.writes, starts]

/-- The Task of `deletePartnerCode` starts with its first call. -/
theorem moves_deletePartnerCode {choice : Choice} {side : Side}
    (hcode : client.code = some client.ownCode) :
    Moves users client (client.advance users choice (.deletePartnerCode side))
      (.deletePartnerCode side) := by
  cases side with
  | partner => exact moves_spawn (by simp [Thread.writes, starts])
  | own =>
      simp only [advance, getCode_of_some hcode]
      exact moves_spawn (by simp [Thread.writes, starts])

/-- The Task that awaits the first write still has the second to make. -/
theorem moves_updatePartnerCodeBy (hwf : users.WellFormed) {choice : Choice} {side : Side}
    {code : String} (hunsaved : client.unsaved = [])
    (hresolved : side = .own → code = client.ownCode) (hsucceeds : choice.succeeds = true)
    (hmem : code ∈ users.codes) :
    Moves users client (client.advance users choice (.updatePartnerCodeBy side code))
      (.updatePartnerCodeBy side code) := by
  rw [advance, hsucceeds]
  refine moves_getIdByCode hunsaved hmem fun documentID hdocumentID write => ?_
  rw [document_of_ne (hwf.ne_empty hdocumentID), mem_writes_issue hwf hdocumentID]
  cases side with
  | partner => simp [Thread.writes, starts, Side.rest]
  | own => simp [Thread.writes, starts, Side.rest, hresolved rfl]

/-- A step of a thread moves its outstanding writes along, and adds those that it
starts. -/
theorem moves_advance (hwf : users.WellFormed) {choice : Choice} {thread : Thread}
    (hcode : client.code = some client.ownCode) (hunsaved : client.unsaved = [])
    (hthread : thread.Resolved users.index client.ownCode) (hsucceeds : choice.succeeds = true)
    (hfound : ∀ code, client.lookup thread = some code → code ∈ users.codes) :
    Moves users client (client.advance users choice thread) thread := by
  cases thread with
  | saveCode code =>
      refine moves_of_eq ?_ rfl rfl
      simp [advance, writes, ownCode, running, Pending.writes]
  | connectPartner =>
      rw [advance, getCode_of_some hcode]
      exact moves_spawn (by simp [Thread.writes, starts])
  | getPartnerCodeFromServer =>
      simp only [advance, getCode_of_some hcode]
      exact getIdByCode_rec (P := fun next => Moves users client next .getPartnerCodeFromServer)
        (fun _ _ => document_rec
          (P := fun next => Moves users client next .getPartnerCodeFromServer)
          (fun _ => moves_of_eq rfl rfl rfl) (fun _ => moves_of_eq rfl rfl rfl))
        (fun _ _ => moves_of_eq rfl rfl rfl)
  -- the threads of `connectWithPartner`, which hand their writes on from one to the next
  | connectWithPartner origin partnerCode => exact moves_connectWithPartner hcode
  | isExistingCode origin partnerCode => exact moves_isExistingCode hunsaved hsucceeds
  | getOwnId origin partnerCode =>
      simp only [advance, getCode_of_some hcode, hsucceeds]
      exact moves_getIdByCode hunsaved (hfound _ rfl) fun _ _ =>
        moves_spawn (by simp [Thread.writes, starts])
  | getPartnerId origin partnerCode ownCode ownId =>
      rw [advance, hsucceeds]
      exact moves_getIdByCode hunsaved (hfound _ rfl) fun _ _ =>
        moves_spawn (by simp [Thread.writes, starts])
  | updateOwn origin partnerCode ownCode ownId partnerId =>
      obtain ⟨rfl, hownId, -⟩ := hthread
      exact moves_updateOwn hwf hownId
  | updatePartner origin partnerCode ownCode partnerId =>
      obtain ⟨rfl, hpartnerId⟩ := hthread
      exact moves_updatePartner hwf hpartnerId
  | setPartnerCode origin partnerCode =>
      exact moves_of_eq (writes_spawn { client with partnerCode := some partnerCode } rfl) rfl rfl
  | didConnectedPartner origin =>
      cases origin with
      | main =>
          exact moves_of_eq (writes_spawn { client with isConnectedPartner := true } rfl) rfl rfl
      | settings => exact moves_of_eq rfl rfl rfl
  | deletePartnerCode side => exact moves_deletePartnerCode hcode
  | updatePartnerCodeBy side code =>
      refine moves_updatePartnerCodeBy hwf hunsaved ?_ hsucceeds (hfound _ rfl)
      rintro rfl
      exact hthread
  | removePartnerCode =>
      exact moves_of_eq (writes_spawn { client with partnerCode := none } rfl) rfl rfl
  | didDeletePartnerCode => exact moves_of_eq rfl rfl rfl
  | requestPartnerClothes =>
      rw [advance]
      split
      · exact moves_of_eq rfl rfl rfl
      · exact moves_of_eq rfl rfl rfl

theorem starts_dequeue (thread : Thread) :
    (client.dequeue thread).starts users thread = client.starts users thread := by
  cases thread with
  | deletePartnerCode side => cases side <;> rfl
  | _ => rfl

/-- The writes that an action starts. -/
def startsOf (users : Users) (client : Client) : Action → List (String × String)
  | .advance thread _ => client.starts users thread
  | _ => []

/-- An action moves outstanding writes along, and adds those that it starts. -/
theorem mem_writes_act (hwf : users.WellFormed) (hclient : client.Established users)
    {action : Action} {next : Client} (hsucceeds : Succeeds action)
    (hfound : ∀ thread choice, action = .advance thread choice →
      ∀ code, client.lookup thread = some code → code ∈ users.codes)
    (hact : client.act users action = some next) :
    write ∈ next.writes users ↔
      write ∈ client.writes users ∨ write ∈ client.startsOf users action := by
  -- only a step of a thread can start a write: a disconnect starts when its Task first runs
  cases transition_of_act hact with
  | onAppear =>
      rw [mem_writes_spawn]
      rfl
  | getCode choice =>
      rw [getCode_of_some hclient.code]
      simp [startsOf]
  | enterCode origin partnerCode =>
      rw [mem_writes_spawn]
      rfl
  | disconnect =>
      rw [mem_writes_spawn, mem_writes_spawn]
      simp [Thread.writes, startsOf]
  | @advance thread choice hmem =>
      rw [mem_writes_dequeue hmem]
      have hadvance := @moves_advance users (client.dequeue thread) hwf choice thread
        hclient.code (unsaved_erase hclient.unsaved hmem)
        (hclient.threads thread (List.mem_append_left _ hmem)) hsucceeds
        (fun code hcode => hfound thread choice rfl code (by cases thread <;> exact hcode))
      refine (hadvance write).trans (Iff.trans ?_ or_assoc.symm)
      rw [starts_dequeue]
      rfl
  | watch hdocument hdrop =>
      simp only [startsOf, List.not_mem_nil, or_false]
      rfl
  | deliver hlistener hundelivered =>
      unfold receive
      split
      · simp only [startsOf, List.not_mem_nil, or_false]
        rfl
      · rw [mem_writes_spawn]
        simp only [startsOf, Thread.writes]
        rfl

/-- A write that is settled is no longer outstanding. -/
theorem mem_writes_settled {pending : Pending} {rest : List Pending}
    (houtbox : client.outbox = pending :: rest) {users' : Users}
    (hindex : users'.index = users.index) (cache : List CachedDocument) :
    write ∈ client.writes users ↔
      write ∈ ({ client with cache := cache }.settled pending rest).writes users' ∨
        write ∈ pending.writes users.index := by
  have hrunning : ({ client with cache := cache }.settled pending rest).running =
      client.running := running_settled houtbox
  rw [mem_writes, mem_writes, hrunning, hindex, houtbox]
  simp only [List.mem_cons, exists_eq_or_imp]
  constructor
  · rintro (hthread | hwrite | hpending)
    · exact .inl (.inl hthread)
    · exact .inr hwrite
    · exact .inl (.inr hpending)
  · rintro ((hthread | hpending) | hwrite)
    · exact .inl hthread
    · exact .inr (.inr hpending)
    · exact .inr (.inl hwrite)

end Client

namespace Users

/-- The document of the user with this code holds this `partner_code`. -/
def Stores (users : Users) (code partnerCode : String) : Prop :=
  ∃ document ∈ users, document.code = code ∧ document.partnerCode = partnerCode

theorem setPartnerCode_of_partnerCodeOf {users : Users} (hwf : users.WellFormed)
    {documentID partnerCode : String}
    (hvalue : ∀ old, users.partnerCodeOf documentID = some old → old = partnerCode) :
    users.setPartnerCode documentID partnerCode = users := by
  have hdocument : ∀ document ∈ users,
      (if document.documentID = documentID then { document with partnerCode := partnerCode }
        else document) = document := by
    intro document hmem
    split
    · rename_i heq
      obtain ⟨found, hfound⟩ : ∃ found, users.find? (fun document =>
          document.documentID = documentID) = some found := by
        cases hfind : users.find? (fun document => document.documentID = documentID) with
        | none => simpa [heq] using List.find?_eq_none.mp hfind document hmem
        | some found => exact ⟨found, rfl⟩
      have hfoundID : found.documentID = documentID := by simpa using List.find?_some hfound
      obtain rfl : found = document :=
        hwf.eq_of_documentID (List.mem_of_find?_eq_some hfound) hmem (hfoundID.trans heq.symm)
      rw [← hvalue found.partnerCode (by simp [partnerCodeOf, hfound])]
    · rfl
  exact (List.map_congr_left hdocument).trans (List.map_id users)

end Users

namespace System

variable {ι : Type*}

/-- Some client is still going to write this value to the document of the user
with this code. -/
def Outstanding (state : System ι) (code partnerCode : String) : Prop :=
  ∃ i, (code, partnerCode) ∈ (state.client i).writes state.users

variable [DecidableEq ι]

/-- In a well-formed collection an update that says nothing new changes nothing. -/
theorem users_commit_updateData {state : System ι} (hwf : state.users.WellFormed) (i : ι)
    (documentID partnerCode : String) :
    (state.commit i (.updateData documentID partnerCode)).users =
      state.users.setPartnerCode documentID partnerCode := by
  refine commit_updateData_rec
    (P := fun next => next.users = state.users.setPartnerCode documentID partnerCode)
    (fun hnone => ?_) (fun hsame => ?_) (fun _ _ _ => rfl)
  · exact (Users.setPartnerCode_of_partnerCodeOf hwf (by simp [hnone])).symm
  · exact (Users.setPartnerCode_of_partnerCodeOf hwf (by simp [hsame])).symm

/-- What holds of some client after one of them has changed. -/
theorem exists_client_set {state : System ι} {i : ι} {client : Client} {P : Client → Prop}
    {Q : Prop} (hclient : P client ↔ P (state.client i) ∨ Q) :
    (∃ j, P ((state.set i client).client j)) ↔ (∃ j, P (state.client j)) ∨ Q := by
  constructor
  · rintro ⟨j, hj⟩
    by_cases hne : j = i
    · subst hne
      rw [set_client_self, hclient] at hj
      exact hj.imp_left fun h => ⟨j, h⟩
    · rw [set_client_of_ne state hne] at hj
      exact .inl ⟨j, hj⟩
  · rintro (⟨j, hj⟩ | hq)
    · by_cases hne : j = i
      · subst hne
        exact ⟨j, by rw [set_client_self, hclient]; exact .inl hj⟩
      · exact ⟨j, by rw [set_client_of_ne state hne]; exact hj⟩
    · exact ⟨i, by rw [set_client_self, hclient]; exact .inr hq⟩

/-- What an action does to the outstanding writes of the system. -/
theorem outstanding_set {state : System ι} {i : ι} {client : Client}
    {started : List (String × String)}
    (hwrites : ∀ write, write ∈ client.writes state.users ↔
      write ∈ (state.client i).writes state.users ∨ write ∈ started) (code partnerCode : String) :
    (state.set i client).Outstanding code partnerCode ↔
      state.Outstanding code partnerCode ∨ (code, partnerCode) ∈ started :=
  exists_client_set (P := fun client => (code, partnerCode) ∈ client.writes state.users)
    (hwrites (code, partnerCode))

/-- What settling a write does to the outstanding writes of the system. -/
theorem outstanding_settle {state : System ι} {i : ι} {documentID partnerCode : String}
    {resume : Option Thread} {rest : List Pending}
    (houtbox : (state.client i).outbox = ⟨.updateData documentID partnerCode, resume⟩ :: rest)
    (code value : String) :
    let pending : Pending := ⟨.updateData documentID partnerCode, resume⟩
    state.Outstanding code value ↔
      ((state.commit i (.updateData documentID partnerCode)).settled i pending rest).Outstanding
        code value ∨ (code, value) ∈ pending.writes state.users.index := by
  intro pending
  have hindex := state.index_commit_updateData i documentID partnerCode
  have hself : (code, value) ∈ (state.client i).writes state.users ↔
      (code, value) ∈ (((state.commit i (.updateData documentID partnerCode)).settled i pending
        rest).client i).writes (state.commit i (.updateData documentID partnerCode)).users ∨
        (code, value) ∈ pending.writes state.users.index := by
    obtain ⟨cache, hcache⟩ := state.commit_client i (.updateData documentID partnerCode) i
    rw [settled, set_client_self, hcache]
    exact Client.mem_writes_settled houtbox hindex cache
  have hother {j : ι} (hj : j ≠ i) : (code, value) ∈ (state.client j).writes state.users ↔
      (code, value) ∈ (((state.commit i (.updateData documentID partnerCode)).settled i pending
        rest).client j).writes (state.commit i (.updateData documentID partnerCode)).users := by
    obtain ⟨cache, hcache⟩ := state.commit_client i (.updateData documentID partnerCode) j
    rw [settled, set_client_of_ne _ hj, hcache, Client.mem_writes, Client.mem_writes, hindex]
    rfl
  constructor
  · rintro ⟨j, hwrite⟩
    by_cases hj : j = i
    · subst hj
      exact (hself.mp hwrite).imp_left fun hmem => ⟨j, hmem⟩
    · exact .inl ⟨j, (hother hj).mp hwrite⟩
  · rintro (⟨j, hwrite⟩ | hwrite)
    · by_cases hj : j = i
      · subst hj
        exact ⟨j, hself.mpr (.inl hwrite)⟩
      · exact ⟨j, (hother hj).mpr hwrite⟩
    · exact ⟨i, hself.mpr (.inr hwrite)⟩

/-- A write that is settled is an outstanding write that takes effect, unless there
is no document for it. -/
theorem settle_lands {state : System ι} (hestablished : state.Established) {i : ι}
    {documentID partnerCode : String} {resume : Option Thread} {rest : List Pending}
    (houtbox : (state.client i).outbox = ⟨.updateData documentID partnerCode, resume⟩ :: rest) :
    let next := (state.commit i (.updateData documentID partnerCode)).settled i
      ⟨.updateData documentID partnerCode, resume⟩ rest
    (∃ code, (∀ other value, next.users.Stores other value →
        other = code ∧ value = partnerCode ∨ other ≠ code ∧ state.users.Stores other value) ∧
      ∀ other value, state.Outstanding other value ↔
        next.Outstanding other value ∨ other = code ∧ value = partnerCode) ∨
    (∀ code value, next.users.Stores code value → state.users.Stores code value) ∧
      ∀ code value, next.Outstanding code value ↔ state.Outstanding code value := by
  intro next
  have hwf := hestablished.users
  have hwrites := outstanding_settle houtbox
  have husers : next.users = state.users.setPartnerCode documentID partnerCode :=
    users_commit_updateData hwf i documentID partnerCode
  -- an update of a document that does not exist fails and is the write of no user
  by_cases hindex : ∃ code, (documentID, code) ∈ state.users.index
  · obtain ⟨code, hmem⟩ := hindex
    refine .inl ⟨code, ?_, fun other value => (hwrites other value).trans ?_⟩
    · rintro other value ⟨document, hdocument, rfl, rfl⟩
      rw [husers] at hdocument
      obtain ⟨original, horiginal, rfl⟩ := List.mem_map.mp hdocument
      obtain ⟨target, htarget, rfl, rfl⟩ := Users.mem_index.mp hmem
      split
      · rename_i heq
        obtain rfl := hwf.eq_of_documentID horiginal htarget heq
        exact .inl ⟨rfl, rfl⟩
      · rename_i hne
        refine .inr ⟨fun heq => hne ?_, original, horiginal, rfl, rfl⟩
        rw [hwf.eq_of_code horiginal htarget heq]
    · rw [Client.mem_pending_writes hwf hmem, Prod.mk.injEq]
  · refine .inr ⟨?_, fun code value => ?_⟩
    · rintro code value ⟨document, hdocument, rfl, rfl⟩
      rw [husers] at hdocument
      obtain ⟨original, horiginal, rfl⟩ := List.mem_map.mp hdocument
      have hne : original.documentID ≠ documentID := by
        rintro rfl
        exact hindex ⟨_, Users.mem_index_of_mem horiginal⟩
      rw [if_neg hne]
      exact ⟨original, horiginal, rfl, rfl⟩
    · refine Iff.trans ?_ (hwrites code value).symm
      refine (or_iff_left fun hwrite => ?_).symm
      simp only [Pending.writes, List.mem_map, List.mem_filter, decide_eq_true_eq] at hwrite
      obtain ⟨entry, ⟨hentry, rfl⟩, -⟩ := hwrite
      exact hindex ⟨entry.2, hentry⟩

/-- Whatever values an observer accepts, and whatever else is planned, settling a
write leaves the collection bound for them. -/
theorem settling_settle {accept planned : String → String → Prop} {state : System ι}
    (hestablished : state.Established)
    (hsettling : Settling accept state.users.Stores fun code value =>
      planned code value ∨ state.Outstanding code value)
    {i : ι} {documentID partnerCode : String} {resume : Option Thread} {rest : List Pending}
    (houtbox : (state.client i).outbox = ⟨.updateData documentID partnerCode, resume⟩ :: rest) :
    let next := (state.commit i (.updateData documentID partnerCode)).settled i
      ⟨.updateData documentID partnerCode, resume⟩ rest
    Settling accept next.users.Stores fun code value =>
      planned code value ∨ next.Outstanding code value := by
  intro next
  rcases settle_lands hestablished houtbox with ⟨code, hstores, hwrites⟩ | ⟨hstores, hwrites⟩
  · refine hsettling.land code partnerCode (.inr ((hwrites _ _).mpr (.inr ⟨rfl, rfl⟩))) hstores
      (fun other value => .imp_right fun hwrite => (hwrites other value).mpr (.inl hwrite)) ?_
    rintro other value (hplanned | hwrite)
    · exact .inl (.inl hplanned)
    · exact ((hwrites other value).mp hwrite).imp_left .inr
  · exact hsettling.congr hstores fun other value => or_congr_right (hwrites other value)

end System

end Pompom
