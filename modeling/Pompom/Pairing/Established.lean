import Pompom.Pairing.CodeIssuing

/-!
# Established clients

Clients that have a code with a document on the server, as every client has once
its launch is over.  No document is added any more, so the IDs and codes of the
collection are fixed (`index`), and the IDs that threads carry stay right
(`Resolved`).
-/

namespace Pompom

namespace Users

/-- The IDs of the documents with their codes. -/
def index (users : Users) : List (String × String) :=
  users.map fun document => (document.documentID, document.code)

/-- Documents have distinct IDs and distinct codes. -/
structure WellFormed (users : Users) : Prop where
  documentIDs : (users.map (·.documentID)).Nodup
  codes : users.codes.Nodup
  documentID_ne_empty : ∀ document ∈ users, document.documentID ≠ ""

theorem codes_eq_index (users : Users) : users.codes = users.index.map Prod.snd := by
  simp [codes, index]

theorem documentIDs_eq_index (users : Users) :
    users.map (·.documentID) = users.index.map Prod.fst := by
  simp [index]

theorem mem_index_of_mem {users : Users} {document : UserDocument} (hmem : document ∈ users) :
    (document.documentID, document.code) ∈ users.index :=
  List.mem_map_of_mem hmem

theorem mem_index {users : Users} {documentID code : String} :
    (documentID, code) ∈ users.index ↔
      ∃ document ∈ users, document.documentID = documentID ∧ document.code = code := by
  simp [index]

/-- An update changes one value and nothing else. -/
@[simp] theorem index_setPartnerCode (users : Users) (documentID partnerCode : String) :
    (users.setPartnerCode documentID partnerCode).index = users.index := by
  simp only [index, setPartnerCode, List.map_map]
  refine List.map_congr_left ?_
  intro document _
  simp only [Function.comp_apply]
  split <;> rfl

theorem WellFormed.congr {users users' : Users} (hwf : users.WellFormed)
    (hindex : users'.index = users.index) : users'.WellFormed where
  documentIDs := by
    rw [documentIDs_eq_index, hindex, ← documentIDs_eq_index]
    exact hwf.documentIDs
  codes := by
    rw [codes_eq_index, hindex, ← codes_eq_index]
    exact hwf.codes
  documentID_ne_empty document hdocument := by
    have hmem := mem_index_of_mem hdocument
    rw [hindex] at hmem
    obtain ⟨original, horiginal, hdocumentID, -⟩ := mem_index.mp hmem
    rw [← hdocumentID]
    exact hwf.documentID_ne_empty original horiginal

theorem WellFormed.eq_of_documentID {users : Users} (hwf : users.WellFormed)
    {first second : UserDocument} (hfirst : first ∈ users) (hsecond : second ∈ users)
    (heq : first.documentID = second.documentID) : first = second :=
  List.inj_on_of_nodup_map hwf.documentIDs hfirst hsecond heq

theorem WellFormed.eq_of_code {users : Users} (hwf : users.WellFormed)
    {first second : UserDocument} (hfirst : first ∈ users) (hsecond : second ∈ users)
    (heq : first.code = second.code) : first = second :=
  List.inj_on_of_nodup_map hwf.codes hfirst hsecond heq

theorem WellFormed.ne_empty {users : Users} (hwf : users.WellFormed) {documentID code : String}
    (hmem : (documentID, code) ∈ users.index) : documentID ≠ "" := by
  obtain ⟨document, hdocument, rfl, -⟩ := mem_index.mp hmem
  exact hwf.documentID_ne_empty document hdocument

/-- In a well-formed collection an ID stands for one code. -/
theorem WellFormed.filter_index {users : Users} (hwf : users.WellFormed) {documentID code : String}
    (hmem : (documentID, code) ∈ users.index) (other : String) :
    (∃ entry ∈ users.index, entry.1 = documentID ∧ entry.2 = other) ↔ other = code := by
  obtain ⟨document, hdocument, rfl, rfl⟩ := mem_index.mp hmem
  constructor
  · rintro ⟨entry, hentry, hdocumentID, rfl⟩
    obtain ⟨second, hsecond, rfl⟩ := List.mem_map.mp hentry
    rw [hwf.eq_of_documentID hsecond hdocument hdocumentID]
  · rintro rfl
    exact ⟨_, hmem, rfl, rfl⟩

end Users

/-- What a thread carries from its earlier lookups, given the index of the
collection and the own code. -/
def Thread.Resolved (index : List (String × String)) (own : String) : Thread → Prop
  | .getOwnId _ partnerCode => partnerCode ∈ index.map Prod.snd
  | .getPartnerId _ partnerCode ownCode ownId =>
      ownCode = own ∧ partnerCode ∈ index.map Prod.snd ∧ (ownId, own) ∈ index
  | .updateOwn _ partnerCode ownCode ownId partnerId =>
      ownCode = own ∧ (ownId, own) ∈ index ∧ (partnerId, partnerCode) ∈ index
  | .updatePartner _ partnerCode ownCode partnerId =>
      ownCode = own ∧ (partnerId, partnerCode) ∈ index
  | .updatePartnerCodeBy .own code => code = own
  | _ => True

namespace Client

/-- The client has its code, and nothing about it is on its way to the server. -/
structure Established (users : Users) (client : Client) : Prop where
  code : client.code = some client.ownCode
  unsaved : client.unsaved = []
  threads : ∀ thread ∈ client.running, thread.Resolved users.index client.ownCode

/-- The query of an action succeeds. -/
def Succeeds : Action → Prop
  | .advance _ choice => choice.succeeds
  | _ => True

variable {users : Users} {client : Client}

theorem pendingDocuments_eq_nil (hunsaved : client.unsaved = []) :
    client.pendingDocuments = [] := by
  simpa using (List.append_eq_nil_iff.mp hunsaved).2

theorem visible_eq (hunsaved : client.unsaved = []) : client.visible users = users := by
  rw [visible, pendingDocuments_eq_nil hunsaved, List.foldl_nil]

theorem mem_index_of_getIdByCode (hunsaved : client.unsaved = []) {code documentID : String}
    (hresult : ConnectionManager.getIdByCode (client.query users true code) = .ok documentID) :
    (documentID, code) ∈ users.index := by
  rw [query, if_pos rfl, visible_eq hunsaved] at hresult
  cases hdocuments : users.whereCode code with
  | nil => simp [hdocuments, ConnectionManager.getIdByCode] at hresult
  | cons document rest =>
      obtain rfl : document.documentID = documentID := by
        simpa [hdocuments, ConnectionManager.getIdByCode] using hresult
      obtain ⟨hmem, rfl⟩ := Users.mem_whereCode.mp (hdocuments ▸ List.mem_cons_self)
      exact Users.mem_index_of_mem hmem

/-- The lookup of a code on the server succeeds. -/
theorem getIdByCode_of_mem (hunsaved : client.unsaved = []) {code : String}
    (hmem : code ∈ users.codes) : ∃ documentID, (documentID, code) ∈ users.index ∧
      ∀ next, client.getIdByCode users true code next = next documentID := by
  have hvisible : code ∈ (client.visible users).codes := by rwa [visible_eq hunsaved]
  obtain ⟨document, hdocument, rfl, hnext⟩ := getIdByCode_eq hvisible
  rw [visible_eq hunsaved] at hdocument
  exact ⟨document.documentID, Users.mem_index_of_mem hdocument, hnext⟩

theorem mem_codes_of_isExistingCode (hunsaved : client.unsaved = []) {code : String} :
    ConnectionManager.isExistingCode (client.query users true code) = true ↔
      code ∈ users.codes := by
  rw [query, if_pos rfl, visible_eq hunsaved, ← Users.whereCode_ne_nil]
  simp [ConnectionManager.isExistingCode]

/-- The IDs that a thread carries on are those that its lookups have found. -/
theorem continues_advance {choice : Choice} {thread : Thread} {next : Client}
    (hcode : client.code = some client.ownCode) (hunsaved : client.unsaved = [])
    (hthread : thread.Resolved users.index client.ownCode) (hsucceeds : choice.succeeds = true)
    (hadvances : Advances users choice client thread next) :
    Continues (Thread.Resolved users.index client.ownCode) client next := by
  have hself := continues_refl (Thread.Resolved users.index client.ownCode) client
  have hgetCode := getCode_of_some hcode choice.newCode
  have hresolves {code documentID : String} (hfound : ConnectionManager.getIdByCode
      (client.query users choice.succeeds code) = .ok documentID) :
      (documentID, code) ∈ users.index := by
    rw [hsucceeds] at hfound
    exact mem_index_of_getIdByCode hunsaved hfound
  cases hadvances with
  | saveCode code => exact hself.issue _ (by simp)
  | connectPartner | connectWithPartner =>
      rw [hgetCode]
      exact hself.spawn trivial
  | getPartnerCodeFromServer | callMySelf =>
      rw [hgetCode]
      exact hself
  | isExistingCode hexisting =>
      refine hself.spawn ?_
      rw [hsucceeds] at hexisting
      rw [Thread.Resolved, ← Users.codes_eq_index]
      exact (mem_codes_of_isExistingCode hunsaved).mp hexisting
  | getOwnId hfound =>
      rw [hgetCode] at hfound ⊢
      exact hself.spawn ⟨rfl, hthread, hresolves hfound⟩
  | getPartnerId hfound => exact hself.spawn ⟨hthread.1, hthread.2.2, hresolves hfound⟩
  | updateOwn => exact (hself.issue _ (by simp)).spawn ⟨hthread.1, hthread.2.2⟩
  | updatePartner => exact (hself.issue _ (by simp)).spawn trivial
  | setPartnerCode | didConnectedPartner | deletePartner | removePartnerCode =>
      exact hself.spawn trivial
  | deleteOwn =>
      rw [hgetCode]
      exact hself.spawn rfl
  | @updatePartnerCodeBy side =>
      refine hself.issue _ fun thread hresume => ?_
      cases side with
      | partner =>
          obtain rfl := Option.some.inj hresume
          trivial
      | own => exact absurd hresume (Option.not_mem_none _)
  | invalidPartnerCode | didConnectedPartnerInSettings | didDeletePartnerCode
  | requestPartnerClothes | emptyClothesCode => exact hself
  | halt hbefore =>
      rw [hgetCode, or_self] at hbefore
      exact hbefore ▸ hself

theorem unsaved_erase (hunsaved : client.unsaved = []) {thread : Thread}
    (hmem : thread ∈ client.threads) :
    (client.dequeue thread).unsaved = [] := by
  have hperm := unsaved_erase_perm hmem
  rw [hunsaved] at hperm
  exact (List.append_eq_nil_iff.mp hperm.symm.eq_nil).2

theorem continues_act {action : Action} {next : Client} (hclient : client.Established users)
    (hsucceeds : Succeeds action) (hact : client.act users action = some next) :
    Continues (Thread.Resolved users.index client.ownCode) client next := by
  have hself := continues_refl (Thread.Resolved users.index client.ownCode) client
  cases transition_of_act hact with
  | onAppear => exact hself.spawn trivial
  | getCode choice =>
      rw [getCode_of_some hclient.code]
      exact hself
  | enterCode origin partnerCode => exact hself.spawn trivial
  | disconnect =>
      have hspawned : Continues (Thread.Resolved users.index client.ownCode) client
          (client.spawn (.deletePartnerCode .partner)) := hself.spawn trivial
      exact hspawned.spawn trivial
  | @advance thread choice hmem =>
      have hthread := hclient.threads thread (List.mem_append_left _ hmem)
      have hcontinues := @continues_advance users (client.dequeue thread) choice thread
        _ hclient.code (unsaved_erase hclient.unsaved hmem) hthread hsucceeds
        (advances users choice _ thread)
      intro other hother
      exact (hcontinues other hother).imp_left fun h => client.running_dequeue_subset thread h
  | watch hdocument hdrop => exact hself
  | deliver hlistener hundelivered =>
      unfold receive
      split
      · exact hself
      · exact hself.spawn trivial

/-- An action keeps a client established, and its code. -/
theorem Established.act {action : Action} {next : Client} (hclient : client.Established users)
    (hsucceeds : Succeeds action) (hact : client.act users action = some next) :
    next.Established users ∧ next.ownCode = client.ownCode := by
  obtain ⟨newCode, -, hdrawn⟩ := exists_drawnBy action
  have hcontinues := continues_act hclient hsucceeds hact
  rcases act_issues hdrawn hact with ⟨hcode, hperm⟩ | ⟨hnone, -, -⟩
  · have hown : next.ownCode = client.ownCode := by rw [ownCode, ownCode, hcode]
    refine ⟨⟨?_, ?_, ?_⟩, hown⟩
    · rw [hcode, hown, hclient.code]
    · exact (hclient.unsaved ▸ hperm).eq_nil
    · intro thread hthread
      rw [hown]
      exact (hcontinues thread hthread).elim (hclient.threads thread) id
  · simp [hclient.code] at hnone

theorem Established.settled (hclient : client.Established users) {pending : Pending}
    {rest : List Pending} (houtbox : client.outbox = pending :: rest) :
    (client.settled pending rest).Established users where
  code := hclient.code
  unsaved := by
    have hsub := unsaved_settled_subperm houtbox
    rw [hclient.unsaved] at hsub
    exact List.subperm_nil.mp hsub
  threads thread hthread := by
    rw [running_settled houtbox] at hthread
    exact hclient.threads thread hthread

theorem Established.congr (hclient : client.Established users) {users' : Users}
    (hindex : users'.index = users.index) (cache : List CachedDocument) :
    { client with cache := cache }.Established users' :=
  ⟨hclient.code, hclient.unsaved, hindex ▸ hclient.threads⟩

/-- The outbox of an established client holds updates only. -/
theorem Established.write_eq (hclient : client.Established users) {pending : Pending}
    (hmem : pending ∈ client.outbox) :
    ∃ documentID partnerCode, pending.write = .updateData documentID partnerCode := by
  obtain ⟨write, resume⟩ := pending
  cases write with
  | addDocument document =>
      have hdocument := mem_pendingDocuments.mpr ⟨resume, hmem⟩
      rw [pendingDocuments_eq_nil hclient.unsaved] at hdocument
      simp at hdocument
  | updateData documentID partnerCode => exact ⟨documentID, partnerCode, rfl⟩

end Client

namespace System

variable {ι : Type*}

/-- The collection is well formed, and all clients are established. -/
structure Established (state : System ι) : Prop where
  users : state.users.WellFormed
  client : ∀ i, (state.client i).Established state.users

/-- All queries and all writes succeed. -/
def Succeeds : Event ι → Prop
  | .act _ action => Client.Succeeds action
  | .settle _ accepted => accepted = true

variable [DecidableEq ι]

theorem index_commit_updateData (state : System ι) (i : ι) (documentID partnerCode : String) :
    (state.commit i (.updateData documentID partnerCode)).users.index = state.users.index :=
  commit_updateData_rec (P := fun next => next.users.index = state.users.index) (fun _ => rfl)
    (fun _ => rfl) (fun _ _ _ => Users.index_setPartnerCode _ _ _)

theorem Established.set {state : System ι} (hestablished : state.Established) {i : ι}
    {client : Client} (hclient : client.Established state.users) :
    (state.set i client).Established :=
  ⟨hestablished.users, forall_client_set hclient hestablished.client⟩

theorem Established.commit {state : System ι} (hestablished : state.Established) (i : ι)
    (documentID partnerCode : String) :
    (state.commit i (.updateData documentID partnerCode)).Established := by
  have hindex := state.index_commit_updateData i documentID partnerCode
  refine ⟨hestablished.users.congr hindex, fun j => ?_⟩
  obtain ⟨cache, hcache⟩ := state.commit_client i (.updateData documentID partnerCode) j
  rw [hcache]
  exact (hestablished.client j).congr hindex cache

/-- What a step of established clients with succeeding queries and writes does: one
client acts, or the update of a document takes effect. -/
inductive Proceeds (state : System ι) : Event ι → System ι → Prop where
  | act {i : ι} {action : Action} {client : Client} (htrap : (state.client i).trap = none)
      (hact : (state.client i).act state.users action = some client) :
      Proceeds state (.act i action) (state.set i client)
  | settle {i : ι} {documentID partnerCode : String} {resume : Option Thread} {rest : List Pending}
      (houtbox : (state.client i).outbox = ⟨.updateData documentID partnerCode, resume⟩ :: rest) :
      Proceeds state (.settle i true) ((state.commit i
        (.updateData documentID partnerCode)).settled i
          ⟨.updateData documentID partnerCode, resume⟩ rest)

theorem Established.proceeds {state next : System ι} {event : Event ι}
    (hestablished : state.Established) (hsucceeds : Succeeds event)
    (hstep : state.step event = some next) : Proceeds state event next := by
  cases transition_of_step hstep with
  | act htrap hact => exact .act htrap hact
  | @accept i pending rest houtbox =>
      obtain ⟨write, resume⟩ := pending
      obtain ⟨documentID, partnerCode, hwrite⟩ :=
        (hestablished.client i).write_eq (houtbox ▸ List.mem_cons_self)
      obtain rfl : write = .updateData documentID partnerCode := hwrite
      exact .settle houtbox
  | reject houtbox => simp [Succeeds] at hsucceeds

/-- Established clients stay established. -/
theorem Established.step {state next : System ι} {event : Event ι}
    (hestablished : state.Established) (hsucceeds : Succeeds event)
    (hstep : state.step event = some next) : next.Established := by
  cases hestablished.proceeds hsucceeds hstep with
  | act htrap hact => exact hestablished.set ((hestablished.client _).act hsucceeds hact).1
  | @settle i documentID partnerCode resume rest houtbox =>
      have hcommit := hestablished.commit i documentID partnerCode
      obtain ⟨cache, hcache⟩ := state.commit_client i (.updateData documentID partnerCode) i
      refine hcommit.set ((hcommit.client i).settled ?_)
      rw [hcache]
      exact houtbox

/-- IDs and codes do not change. -/
theorem Established.index_eq {state next : System ι} {event : Event ι}
    (hestablished : state.Established) (hsucceeds : Succeeds event)
    (hstep : state.step event = some next) : next.users.index = state.users.index := by
  cases hestablished.proceeds hsucceeds hstep with
  | act htrap hact => rfl
  | settle houtbox => exact state.index_commit_updateData _ _ _

theorem Established.ownCode_eq {state next : System ι} {event : Event ι}
    (hestablished : state.Established) (hsucceeds : Succeeds event)
    (hstep : state.step event = some next) (j : ι) :
    (next.client j).ownCode = (state.client j).ownCode := by
  cases hestablished.proceeds hsucceeds hstep with
  | @act i action client htrap hact =>
      refine forall_client_set (P := fun j client => client.ownCode = (state.client j).ownCode)
        ?_ (fun _ => rfl) j
      exact ((hestablished.client i).act hsucceeds hact).2
  | settle houtbox =>
      exact forall_client_settled
        (P := fun j client => client.ownCode = (state.client j).ownCode)
        (state.commit_client _ _) (fun _ => rfl) (fun _ _ => rfl) j

end System

end Pompom
