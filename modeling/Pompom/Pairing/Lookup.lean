import Pompom.Lib.Run
import Pompom.Pairing.CodeIssuing

/-!
# Lookups of user documents

`getIdByCode` reads the first document of its result, and its callers pass the ID
on to `usersRef.document`.  The first fails when the code has no document yet, the
second when the query failed.  From a fresh install neither happens as long as

* the queries of `getIdByCode` succeed and no `addDocument` is rejected,
* the own code is looked up only after the `saveCode` block has run, and
* the Task of `deletePartnerCode` still finds a partner's code in UserDefaults

(`Covered`).  The invariant is `Sound`: every code that a thread is going to look
up is on the server or among the client's own writes.  A client's own code reaches
another document only after the client's own document, since its writes are settled
in order (`OutboxSound`), so a partner's code is always on the server.
-/

namespace Pompom

open Lib

/-- The value is blank or one of the codes. -/
def BlankOr (codes : List String) (partnerCode : String) : Prop :=
  Blank partnerCode ∨ partnerCode ∈ codes

theorem BlankOr.mono {codes codes' : List String} (hcodes : codes ⊆ codes') {partnerCode : String}
    (hvalue : BlankOr codes partnerCode) : BlankOr codes' partnerCode :=
  hvalue.imp_right fun hmem => hcodes hmem

/-- What a thread relies on: `codes` are on the server, `seen` is what queries of
its client see, and `code` is the client's own code. -/
def Thread.Sound (codes seen : List String) (code : Option String) : Thread → Prop
  | .saveCode saved => code = some saved
  | .getPartnerCodeFromServer => code ≠ none
  | .isExistingCode _ partnerCode => ∃ own, code = some own ∧ partnerCode ≠ own
  | .getOwnId _ partnerCode => code ≠ none ∧ partnerCode ∈ codes
  | .getPartnerId _ partnerCode ownCode ownId =>
      partnerCode ∈ codes ∧ ownCode ∈ seen ∧ ownId ≠ ""
  | .updateOwn _ partnerCode ownCode ownId partnerId =>
      partnerCode ∈ codes ∧ ownCode ∈ seen ∧ ownId ≠ "" ∧ partnerId ≠ ""
  | .updatePartner _ partnerCode ownCode partnerId =>
      partnerCode ∈ codes ∧ ownCode ∈ seen ∧ partnerId ≠ ""
  | .setPartnerCode _ partnerCode => partnerCode ∈ codes
  | .updatePartnerCodeBy .partner partnerCode => partnerCode ∈ seen
  | .updatePartnerCodeBy .own ownCode => code = some ownCode
  | _ => True

theorem Thread.Sound.mono {codes codes' seen seen' : List String} {code code' : Option String}
    (hcodes : codes ⊆ codes') (hseen : seen ⊆ seen')
    (hcode : ∀ own, code = some own → code' = some own) {thread : Thread}
    (hthread : thread.Sound codes seen code) : thread.Sound codes' seen' code' := by
  have hpresent : code ≠ none → code' ≠ none := by
    intro hne
    obtain ⟨own, hown⟩ := Option.ne_none_iff_exists'.mp hne
    simp [hcode own hown]
  cases thread with
  | saveCode saved => exact hcode _ hthread
  | getPartnerCodeFromServer => exact hpresent hthread
  | isExistingCode origin partnerCode =>
      obtain ⟨own, hown, hne⟩ := hthread
      exact ⟨own, hcode own hown, hne⟩
  | getOwnId origin partnerCode => exact ⟨hpresent hthread.1, hcodes hthread.2⟩
  | getPartnerId origin partnerCode ownCode ownId =>
      exact ⟨hcodes hthread.1, hseen hthread.2.1, hthread.2.2⟩
  | updateOwn origin partnerCode ownCode ownId partnerId =>
      exact ⟨hcodes hthread.1, hseen hthread.2.1, hthread.2.2⟩
  | updatePartner origin partnerCode ownCode partnerId =>
      exact ⟨hcodes hthread.1, hseen hthread.2.1, hthread.2.2⟩
  | setPartnerCode origin partnerCode => exact hcodes hthread
  | updatePartnerCodeBy side code =>
      cases side with
      | partner => exact hseen hthread
      | own => exact hcode _ hthread
  | _ => trivial

/-- Every update in the outbox writes a blank or a code that is known once the
writes before it are settled. -/
def OutboxSound : List String → List Pending → Prop
  | _, [] => True
  | codes, ⟨.addDocument document, _⟩ :: rest => OutboxSound (document.code :: codes) rest
  | codes, ⟨.updateData _ partnerCode, _⟩ :: rest =>
      BlankOr codes partnerCode ∧ OutboxSound codes rest

theorem OutboxSound.mono {codes codes' : List String} (hcodes : codes ⊆ codes')
    {outbox : List Pending} (houtbox : OutboxSound codes outbox) : OutboxSound codes' outbox := by
  induction outbox generalizing codes codes' with
  | nil => trivial
  | cons pending rest ih =>
      obtain ⟨write, resume⟩ := pending
      cases write with
      | addDocument document => exact ih (List.cons_subset_cons _ hcodes) houtbox
      | updateData documentID partnerCode =>
          exact ⟨houtbox.1.mono hcodes, ih hcodes houtbox.2⟩

/-- What an update in the outbox writes is known on the server, or with a document that
is in the outbox. -/
theorem OutboxSound.blankOr {codes seen : List String} {outbox : List Pending}
    (houtbox : OutboxSound codes outbox) (hcodes : codes ⊆ seen)
    (hdocuments : ∀ document resume, (⟨.addDocument document, resume⟩ : Pending) ∈ outbox →
      document.code ∈ seen) {documentID partnerCode : String} {resume : Option Thread}
    (hmem : (⟨.updateData documentID partnerCode, resume⟩ : Pending) ∈ outbox) :
    BlankOr seen partnerCode := by
  induction outbox generalizing codes with
  | nil => simp at hmem
  | cons pending rest ih =>
      have hrest : ∀ document resume, (⟨.addDocument document, resume⟩ : Pending) ∈ rest →
          document.code ∈ seen := fun document resume hdocument =>
        hdocuments document resume (List.mem_cons_of_mem _ hdocument)
      obtain ⟨write, awaiting⟩ := pending
      cases write with
      | addDocument document =>
          have hknown : document.code :: codes ⊆ seen :=
            List.cons_subset.mpr ⟨hdocuments document awaiting List.mem_cons_self, hcodes⟩
          exact ih houtbox hknown hrest (by simpa using hmem)
      | updateData otherID other =>
          rcases List.mem_cons.mp hmem with heq | hmem
          · simp only [Pending.mk.injEq, Write.updateData.injEq] at heq
            obtain ⟨⟨-, rfl⟩, -⟩ := heq
            exact houtbox.1.mono hcodes
          · exact ih houtbox.2 hcodes hrest hmem

theorem OutboxSound.append_updateData {codes : List String} {outbox : List Pending}
    (houtbox : OutboxSound codes outbox) {partnerCode : String}
    (hvalue : BlankOr codes partnerCode ∨ ∃ document resume,
      (⟨.addDocument document, resume⟩ : Pending) ∈ outbox ∧ document.code = partnerCode)
    (documentID : String) (resume : Option Thread) :
    OutboxSound codes (outbox ++ [⟨.updateData documentID partnerCode, resume⟩]) := by
  -- by induction on the writes before it, each of which may make one more code known
  induction outbox generalizing codes with
  | nil => simpa [OutboxSound] using hvalue
  | cons pending rest ih =>
      obtain ⟨write, awaiting⟩ := pending
      cases write with
      | addDocument first =>
          refine ih houtbox ?_
          rcases hvalue with hvalue | ⟨document, resume, hmem, rfl⟩
          · exact .inl (hvalue.mono (List.subset_cons_self _ _))
          · rcases List.mem_cons.mp hmem with heq | hmem
            · obtain ⟨rfl, -⟩ : document = first ∧ resume = awaiting := by simpa using heq
              exact .inl (.inr List.mem_cons_self)
            · exact .inr ⟨document, resume, hmem, rfl⟩
      | updateData otherID other =>
          refine ⟨houtbox.1, ih houtbox.2 (hvalue.imp_right ?_)⟩
          rintro ⟨document, resume, hmem, rfl⟩
          exact ⟨document, resume, by simpa using hmem, rfl⟩

theorem OutboxSound.append_addDocument {codes : List String} {outbox : List Pending}
    (houtbox : OutboxSound codes outbox) (document : UserDocument) (resume : Option Thread) :
    OutboxSound codes (outbox ++ [⟨.addDocument document, resume⟩]) := by
  induction outbox generalizing codes with
  | nil => trivial
  | cons pending rest ih =>
      obtain ⟨write, awaiting⟩ := pending
      cases write with
      | addDocument first => exact ih houtbox
      | updateData otherID other => exact ⟨houtbox.1, ih houtbox.2⟩

namespace Client

/-- What holds of one client, given the collection. -/
structure Sound (users : Users) (client : Client) : Prop where
  /-- The own code is on its way as long as it is not to be seen. -/
  own : ∀ code, client.code = some code →
    code ∈ (client.visible users).codes ∨ .saveCode code ∈ client.threads
  documents : ∀ document ∈ client.pendingDocuments,
    client.code = some document.code ∧ document.documentID ≠ "" ∧ Blank document.partnerCode
  threads : ∀ thread ∈ client.running,
    thread.Sound users.codes (client.visible users).codes client.code
  outbox : OutboxSound users.codes client.outbox
  partnerCode : ∀ partnerCode, client.partnerCode = some partnerCode →
    partnerCode = "" ∨ partnerCode ∈ (client.visible users).codes
  cache : ∀ documentID data, Caches client.cache documentID data → BlankOr users.codes data
  listeners : ∀ listener ∈ client.listeners, ∀ partnerCode ∈ listener.undelivered,
    BlankOr (client.visible users).codes partnerCode
  trap : client.trap = none ∨ client.trap = some .emptyClothesCode

variable {users : Users} {client : Client}

theorem Sound.spawn (hsound : client.Sound users) {thread : Thread}
    (hthread : thread.Sound users.codes (client.visible users).codes client.code) :
    (client.spawn thread).Sound users where
  own code hcode := (hsound.own code hcode).imp_right fun hmem => List.mem_append_left _ hmem
  documents := hsound.documents
  threads other hother := by
    rcases mem_running_spawn.mp hother with rfl | hother
    · exact hthread
    · exact hsound.threads other hother
  outbox := hsound.outbox
  partnerCode := hsound.partnerCode
  cache := hsound.cache
  listeners := hsound.listeners
  trap := hsound.trap

/-- A thread other than a `saveCode` block can be taken off the list. -/
theorem Sound.erase (hsound : client.Sound users) {thread : Thread}
    (hthread : thread.codeToSave = none) :
    (client.dequeue thread).Sound users where
  own code hcode := by
    refine (hsound.own code hcode).imp_right ?_
    intro hmem
    refine (List.mem_erase_of_ne ?_).mpr hmem
    rintro rfl
    simp [Thread.codeToSave] at hthread
  documents := hsound.documents
  threads other hother := hsound.threads other (client.running_dequeue_subset thread hother)
  outbox := hsound.outbox
  partnerCode := hsound.partnerCode
  cache := hsound.cache
  listeners := hsound.listeners
  trap := hsound.trap

theorem Sound.codes_visible {code : String} (hcode : code ∈ users.codes) :
    code ∈ (client.visible users).codes :=
  mem_codes_visible.mpr (.inl hcode)

theorem Sound.cached (hsound : client.Sound users) (documentID data : String)
    (hcaches : Caches client.cache documentID data) : BlankOr (client.visible users).codes data :=
  (hsound.cache documentID data hcaches).mono fun _ => Sound.codes_visible

/-- What a write in the outbox makes of a document is known. -/
theorem Sound.write (hsound : client.Sound users) {pending : Pending}
    (hpending : pending ∈ client.outbox) :
    BlankOr (client.visible users).codes pending.write.partnerCode := by
  obtain ⟨write, resume⟩ := pending
  cases write with
  | addDocument document =>
      have hdocument := mem_pendingDocuments.mpr ⟨resume, hpending⟩
      exact .inl (hsound.documents document hdocument).2.2
  | updateData documentID partnerCode =>
      refine hsound.outbox.blankOr (fun code => Sound.codes_visible) ?_ hpending
      intro document resume hdocument
      have hpends := mem_pendingDocuments.mpr ⟨resume, hdocument⟩
      exact mem_codes_visible.mpr (.inr ⟨document, hpends, rfl⟩)

/-- After a change of the store the listeners know of nothing that is not known, if the
cache and the outbox do not. -/
theorem blankOr_setStore {seen : List String} {cache : List CachedDocument}
    {outbox : List Pending}
    (hlisteners : ∀ listener ∈ client.listeners, ∀ data ∈ listener.undelivered, BlankOr seen data)
    (hcache : ∀ documentID data, Caches cache documentID data → BlankOr seen data)
    (houtbox : ∀ pending ∈ outbox, BlankOr seen pending.write.partnerCode) :
    ∀ listener ∈ (client.setStore cache outbox).listeners, ∀ data ∈ listener.undelivered,
      BlankOr seen data := by
  refine forall_undelivered_setStore (P := fun _ data => BlankOr seen data) hlisteners ?_
  intro listener _ data hdata
  rcases localCode_cases hdata with hcaches | ⟨pending, hpending, -, rfl⟩
  · exact hcache listener.documentID data hcaches
  · exact houtbox pending hpending

theorem Sound.issue_updateData (hsound : client.Sound users) {partnerCode : String}
    (hvalue : Blank partnerCode ∨ partnerCode ∈ (client.visible users).codes)
    (documentID : String) {resume : Option Thread}
    (hresume : ∀ thread ∈ resume,
      thread.Sound users.codes (client.visible users).codes client.code) :
    (client.issue (.updateData documentID partnerCode) resume).Sound users where
  own code hcode := by
    rw [visible_issue_updateData]
    exact hsound.own code hcode
  documents document hdocument := by
    rw [pendingDocuments_issue_updateData] at hdocument
    exact hsound.documents document hdocument
  threads thread hthread := by
    rw [visible_issue_updateData]
    rcases mem_running_issue.mp hthread with hthread | hthread
    · exact hresume thread hthread
    · exact hsound.threads thread hthread
  outbox := by
    refine hsound.outbox.append_updateData ?_ documentID resume
    rcases hvalue with hblank | hmem
    · exact .inl (.inl hblank)
    · rcases mem_codes_visible.mp hmem with hmem | ⟨document, hdocument, hcode⟩
      · exact .inl (.inr hmem)
      · obtain ⟨awaiting, hpending⟩ := mem_pendingDocuments.mp hdocument
        exact .inr ⟨document, awaiting, hpending, hcode⟩
  partnerCode := by
    rw [visible_issue_updateData]
    exact hsound.partnerCode
  cache := hsound.cache
  listeners := by
    rw [visible_issue_updateData]
    refine blankOr_setStore hsound.listeners hsound.cached fun pending hpending => ?_
    rcases List.mem_append.mp hpending with hpending | hpending
    · exact hsound.write hpending
    · obtain rfl := List.mem_singleton.mp hpending
      exact hvalue
  trap := hsound.trap

/-- The `saveCode` block hands the own code over to the outbox. -/
theorem Sound.saveCode (hsound : client.Sound users) {code : String}
    (hmem : .saveCode code ∈ client.threads) {documentID : String} (hdocumentID : documentID ≠ "") :
    ((client.dequeue (.saveCode code)).issue
      (.addDocument (ConnectionManager.newDocument documentID code)) none).Sound users := by
  have hcode : client.code = some code :=
    hsound.threads (.saveCode code) (List.mem_append_left _ hmem)
  -- the code goes from the block into the outbox, where it can be seen
  have hseen : (client.visible users).codes ⊆
      (((client.dequeue (.saveCode code)).issue
        (.addDocument (ConnectionManager.newDocument documentID code)) none).visible
          users).codes := by
    intro other hother
    rw [mem_codes_visible, pendingDocuments_issue_addDocument]
    refine (mem_codes_visible.mp hother).imp_right ?_
    rintro ⟨document, hdocument, rfl⟩
    exact ⟨document, List.mem_append_left _ hdocument, rfl⟩
  refine ⟨fun other hother => .inl ?_, ?_, ?_, hsound.outbox.append_addDocument _ _,
    fun value hvalue => (hsound.partnerCode value hvalue).imp_right fun hmem => hseen hmem,
    hsound.cache, ?_, hsound.trap⟩
  · obtain rfl : code = other := Option.some.inj (hcode.symm.trans hother)
    rw [mem_codes_visible, pendingDocuments_issue_addDocument]
    exact .inr ⟨_, List.mem_append_right _ (List.mem_singleton.mpr rfl), rfl⟩
  · intro document hdocument
    rw [pendingDocuments_issue_addDocument] at hdocument
    rcases List.mem_append.mp hdocument with hdocument | hdocument
    · exact hsound.documents document hdocument
    · obtain rfl := List.mem_singleton.mp hdocument
      exact ⟨hcode, hdocumentID, .inl rfl⟩
  · intro thread hthread
    refine (hsound.threads thread ?_).mono (List.Subset.refl _) hseen (fun _ hown => hown)
    exact client.running_dequeue_subset _
      ((mem_running_issue.mp hthread).resolve_left (Option.not_mem_none _))
  · refine blankOr_setStore (fun listener hlistener data hdata =>
      (hsound.listeners listener hlistener data hdata).mono hseen) (fun target data hcaches =>
        (hsound.cached target data hcaches).mono hseen) fun pending hpending => ?_
    rcases List.mem_append.mp hpending with hpending | hpending
    · exact (hsound.write hpending).mono hseen
    · obtain rfl := List.mem_singleton.mp hpending
      exact .inl (.inl rfl)

theorem Sound.getCode (hsound : client.Sound users) (newCode : String) :
    (client.getCode newCode).Sound users := by
  unfold Client.getCode
  split
  · exact hsound
  · rename_i hnone
    have hdocuments : client.pendingDocuments = [] := by
      refine List.eq_nil_iff_forall_not_mem.mpr ?_
      intro document hdocument
      simpa [hnone] using (hsound.documents document hdocument).1
    refine ⟨fun code hcode => .inr ?_, ?_, ?_, hsound.outbox, hsound.partnerCode, hsound.cache,
      hsound.listeners, hsound.trap⟩
    · obtain rfl := Option.some.inj hcode
      exact List.mem_append_right _ (List.mem_singleton.mpr rfl)
    · intro document hdocument
      exact absurd (hdocuments ▸ hdocument) List.not_mem_nil
    · intro thread hthread
      rcases mem_running_spawn.mp hthread with rfl | hthread
      · rfl
      · exact (hsound.threads thread hthread).mono (List.Subset.refl _) (List.Subset.refl _)
          (by simp [hnone])

theorem Sound.setPartnerCode (hsound : client.Sound users) {partnerCode : Option String}
    (hvalue : ∀ value, partnerCode = some value →
      value = "" ∨ value ∈ (client.visible users).codes)
    (isConnectedPartner : Bool) :
    { client with
      partnerCode := partnerCode
      isConnectedPartner := isConnectedPartner }.Sound users :=
  ⟨hsound.own, hsound.documents, hsound.threads, hsound.outbox, hvalue, hsound.cache,
    hsound.listeners, hsound.trap⟩

end Client

/-- The documents have IDs, and name partners that exist. -/
def UsersSound (users : Users) : Prop :=
  ∀ document ∈ users, document.documentID ≠ "" ∧ BlankOr users.codes document.partnerCode

/-- Whether a thread is about to call `getIdByCode`. -/
def Thread.looksUp : Thread → Bool
  | .getPartnerCodeFromServer | .getOwnId _ _ | .getPartnerId _ _ _ _
  | .updatePartnerCodeBy _ _ => true
  | _ => false

/-- Whether a thread is about to look up the own code. -/
def Thread.looksUpOwn : Thread → Bool
  | .getPartnerCodeFromServer | .getOwnId _ _ | .updatePartnerCodeBy .own _ => true
  | _ => false

/-- Whether a write adds a document. -/
def Write.addsDocument : Write → Bool
  | .addDocument _ => true
  | .updateData _ _ => false

namespace Client

variable {users : Users} {client : Client}

/-- The conditions on an action of a client. -/
def Covered (client : Client) : Action → Prop
  | .advance thread choice =>
      (thread.looksUp → choice.succeeds) ∧
        (thread.looksUpOwn → client.threads.filterMap Thread.codeToSave = []) ∧
        (thread = .deletePartnerCode .partner → client.getPartnerCode ≠ "")
  | _ => True

instance (client : Client) : ∀ action, Decidable (client.Covered action)
  | .advance thread choice => inferInstanceAs (Decidable ((thread.looksUp → choice.succeeds) ∧
      (thread.looksUpOwn → client.threads.filterMap Thread.codeToSave = []) ∧
      (thread = .deletePartnerCode .partner → client.getPartnerCode ≠ "")))
  | .onAppear | .getCode _ | .enterCode _ _ | .disconnect | .watch _ _ | .deliver _ =>
      .isTrue trivial

theorem Sound.documentID_ne_empty (hsound : client.Sound users) (husers : UsersSound users)
    {document : UserDocument} (hmem : document ∈ client.visible users) :
    document.documentID ≠ "" := by
  rcases mem_visible.mp hmem with hmem | hmem
  · exact (husers document hmem).1
  · exact (hsound.documents document hmem).2.1

/-- Once the `saveCode` block has run, the own code is seen. -/
theorem Sound.own_visible (hsound : client.Sound users) {code : String}
    (hcode : client.code = some code)
    (hsaved : client.threads.filterMap Thread.codeToSave = []) :
    code ∈ (client.visible users).codes := by
  refine (hsound.own code hcode).resolve_right ?_
  intro hmem
  have hsave : code ∈ client.threads.filterMap Thread.codeToSave :=
    List.mem_filterMap.mpr ⟨_, hmem, rfl⟩
  simp [hsaved] at hsave

/-- What else reaches the cache does no harm. -/
theorem Sound.setCache (hsound : client.Sound users) {cache : List CachedDocument}
    (hcache : ∀ documentID data, Caches cache documentID data → BlankOr users.codes data) :
    { client with cache := cache }.Sound users :=
  ⟨hsound.own, hsound.documents, hsound.threads, hsound.outbox, hsound.partnerCode, hcache,
    hsound.listeners, hsound.trap⟩

theorem Sound.addSnapshotListener (hsound : client.Sound users) (husers : UsersSound users)
    (documentID : String) : (client.addSnapshotListener users documentID).Sound users := by
  have hcache : { client with cache := caching users client.cache documentID }.Sound users := by
    refine hsound.setCache fun target data hcaches => ?_
    rcases caches_caching hcaches with hcaches | ⟨-, hvalue⟩
    · exact hsound.cache target data hcaches
    · obtain ⟨document, hfind, rfl⟩ := Option.map_eq_some_iff.mp hvalue
      exact (husers document (List.mem_of_find?_eq_some hfind)).2
  refine ⟨hcache.own, hcache.documents, hcache.threads, hcache.outbox, hcache.partnerCode,
    hcache.cache, fun listener hlistener partnerCode hpartnerCode => ?_, hcache.trap⟩
  rcases List.mem_append.mp hlistener with hlistener | hlistener
  · exact hsound.listeners listener hlistener partnerCode hpartnerCode
  · obtain rfl := List.mem_singleton.mp hlistener
    rcases localCode_cases (Option.mem_toList.mp hpartnerCode) with hcaches | ⟨_, hpending, -, rfl⟩
    · exact hcache.cached documentID partnerCode hcaches
    · exact hsound.write hpending

/-- A lookup that succeeds finds the ID of a code that is seen. -/
theorem Sound.getIdByCode (hsound : client.Sound users) (husers : UsersSound users)
    {code : String} (hcode : code ∈ (client.visible users).codes) {next : String → Client}
    (hnext : ∀ documentID ≠ "", (next documentID).Sound users) :
    (client.getIdByCode users true code next).Sound users := by
  obtain ⟨document, hdocument, -, hfound⟩ := getIdByCode_eq hcode
  rw [hfound]
  exact hnext _ (hsound.documentID_ne_empty husers hdocument)

theorem Sound.advance_getPartnerCodeFromServer (hsound : client.Sound users)
    (husers : UsersSound users) {choice : Choice} (hcode : client.code ≠ none)
    (hsucceeds : choice.succeeds = true)
    (hsaved : client.threads.filterMap Thread.codeToSave = []) :
    (client.advance users choice .getPartnerCodeFromServer).Sound users := by
  obtain ⟨own, hown⟩ := Option.ne_none_iff_exists'.mp hcode
  simp only [Client.advance, getCode_of_some hown, ownCode_eq hown, hsucceeds]
  -- the block has run, so the query sees the own document, in the outbox if need be
  refine hsound.getIdByCode husers (hsound.own_visible hown hsaved) fun documentID hne => ?_
  rw [document_of_ne hne]
  exact hsound.addSnapshotListener husers documentID

/-- A code that exists is on the server, unless it is the own one. -/
theorem Sound.advance_isExistingCode (hsound : client.Sound users) {choice : Choice}
    {origin : Origin} {partnerCode own : String} (hown : client.code = some own)
    (hne : partnerCode ≠ own) :
    (client.advance users choice (.isExistingCode origin partnerCode)).Sound users := by
  rw [Client.advance]
  split
  · rename_i hexisting
    refine hsound.spawn ⟨by simp [hown], ?_⟩
    have hvisible : partnerCode ∈ (client.visible users).codes := by
      refine Users.whereCode_ne_nil.mp ?_
      intro hnil
      cases hchoice : choice.succeeds <;>
        simp [query, hchoice, hnil, ConnectionManager.isExistingCode] at hexisting
    -- among the documents in the outbox there is only the own one
    refine (mem_codes_visible.mp hvisible).resolve_right ?_
    rintro ⟨document, hdocument, rfl⟩
    have heq := (hsound.documents document hdocument).1
    exact hne (Option.some.inj (heq.symm.trans hown))
  · exact hsound

theorem Sound.advance_getOwnId (hsound : client.Sound users) (husers : UsersSound users)
    {choice : Choice} {origin : Origin} {partnerCode : String} (hcode : client.code ≠ none)
    (hpartnerCode : partnerCode ∈ users.codes) (hsucceeds : choice.succeeds = true)
    (hsaved : client.threads.filterMap Thread.codeToSave = []) :
    (client.advance users choice (.getOwnId origin partnerCode)).Sound users := by
  obtain ⟨own, hown⟩ := Option.ne_none_iff_exists'.mp hcode
  have hvisible := hsound.own_visible hown hsaved
  simp only [Client.advance, getCode_of_some hown, ownCode_eq hown, hsucceeds]
  exact hsound.getIdByCode husers hvisible fun ownId hne =>
    hsound.spawn ⟨hpartnerCode, hvisible, hne⟩

theorem Sound.advance_updateOwn (hsound : client.Sound users) {choice : Choice} {origin : Origin}
    {partnerCode ownCode ownId partnerId : String} (hpartnerCode : partnerCode ∈ users.codes)
    (hownCode : ownCode ∈ (client.visible users).codes) (hownId : ownId ≠ "")
    (hpartnerId : partnerId ≠ "") :
    (client.advance users choice
      (.updateOwn origin partnerCode ownCode ownId partnerId)).Sound users := by
  have hissued : (client.issue (.updateData ownId partnerCode) none).Sound users :=
    hsound.issue_updateData (.inr (Sound.codes_visible hpartnerCode)) ownId (by simp)
  rw [Client.advance, document_of_ne hownId]
  refine hissued.spawn ?_
  rw [visible_issue_updateData]
  exact ⟨hpartnerCode, hownCode, hpartnerId⟩

/-- The partner's code is looked up in the Task of `deletePartnerCode` if it is there. -/
theorem Sound.advance_deletePartnerCode (hsound : client.Sound users) {choice : Choice}
    {side : Side} (hpartner : side = .partner → client.getPartnerCode ≠ "") :
    (client.advance users choice (.deletePartnerCode side)).Sound users := by
  cases side with
  | partner =>
      refine hsound.spawn ?_
      have hne := hpartner rfl
      cases hvalue : client.partnerCode with
      | none => simp [getPartnerCode, hvalue] at hne
      | some value =>
          simp only [getPartnerCode, hvalue, Option.getD_some] at hne ⊢
          exact (hsound.partnerCode value hvalue).resolve_left hne
  | own => exact (hsound.getCode choice.newCode).spawn (client.getCode_code choice.newCode)

theorem Sound.advance_updatePartnerCodeBy (hsound : client.Sound users)
    (husers : UsersSound users) {choice : Choice} {side : Side} {code : String}
    (hcode : code ∈ (client.visible users).codes) (hsucceeds : choice.succeeds = true) :
    (client.advance users choice (.updatePartnerCodeBy side code)).Sound users := by
  rw [Client.advance, hsucceeds]
  refine hsound.getIdByCode husers hcode fun documentID hne => ?_
  rw [document_of_ne hne]
  refine hsound.issue_updateData (.inl (.inr rfl)) documentID fun thread hresume => ?_
  cases side with
  | partner =>
      obtain rfl := Option.some.inj hresume
      trivial
  | own => simp [Side.rest] at hresume

/-- A covered step of a thread other than a `saveCode` block. -/
theorem Sound.advance (hsound : client.Sound users) (husers : UsersSound users) {choice : Choice}
    {thread : Thread} (hsave : thread.codeToSave = none)
    (hthread : thread.Sound users.codes (client.visible users).codes client.code)
    (hsucceeds : thread.looksUp → choice.succeeds)
    (hsaved : thread.looksUpOwn → client.threads.filterMap Thread.codeToSave = [])
    (hpartner : thread = .deletePartnerCode .partner → client.getPartnerCode ≠ "") :
    (client.advance users choice thread).Sound users := by
  have hcode := hsound.getCode choice.newCode
  have hown := client.getCode_code choice.newCode
  -- a lookup goes on: the query succeeds, and the code that it looks up can be seen
  cases thread with
  | saveCode code => simp [Thread.codeToSave] at hsave
  | connectPartner => exact hcode.spawn (by simp [Thread.Sound, hown])
  | getPartnerCodeFromServer =>
      exact hsound.advance_getPartnerCodeFromServer husers hthread (hsucceeds rfl) (hsaved rfl)
  | connectWithPartner origin partnerCode =>
      rw [Client.advance]
      split
      · exact hcode
      · rename_i hdiffers
        exact hcode.spawn ⟨_, hown, CodeManager.ne_of_not_sameCode hdiffers⟩
  | isExistingCode origin partnerCode =>
      obtain ⟨own, hown, hne⟩ := hthread
      exact hsound.advance_isExistingCode hown hne
  | getOwnId origin partnerCode =>
      exact hsound.advance_getOwnId husers hthread.1 hthread.2 (hsucceeds rfl) (hsaved rfl)
  | getPartnerId origin partnerCode ownCode ownId =>
      rw [Client.advance, hsucceeds rfl]
      exact hsound.getIdByCode husers (Sound.codes_visible hthread.1) fun partnerId hne =>
        hsound.spawn ⟨hthread.1, hthread.2.1, hthread.2.2, hne⟩
  | updateOwn origin partnerCode ownCode ownId partnerId =>
      obtain ⟨hpartnerCode, hownCode, hownId, hpartnerId⟩ := hthread
      exact hsound.advance_updateOwn hpartnerCode hownCode hownId hpartnerId
  | updatePartner origin partnerCode ownCode partnerId =>
      obtain ⟨hpartnerCode, hownCode, hpartnerId⟩ := hthread
      rw [Client.advance, document_of_ne hpartnerId]
      exact (hsound.issue_updateData (.inr hownCode) partnerId (by simp)).spawn hpartnerCode
  | setPartnerCode origin partnerCode =>
      refine (hsound.setPartnerCode (fun value hvalue => .inr ?_) client.isConnectedPartner).spawn
        trivial
      obtain rfl := Option.some.inj hvalue
      exact Sound.codes_visible hthread
  | didConnectedPartner origin =>
      cases origin with
      | main => exact (hsound.setPartnerCode hsound.partnerCode true).spawn trivial
      | settings => exact hsound
  | deletePartnerCode side =>
      refine hsound.advance_deletePartnerCode ?_
      rintro rfl
      exact hpartner rfl
  | updatePartnerCodeBy side code =>
      refine hsound.advance_updatePartnerCodeBy husers ?_ (hsucceeds rfl)
      cases side with
      | partner => exact hthread
      | own => exact hsound.own_visible hthread (hsaved rfl)
  | removePartnerCode =>
      exact (hsound.setPartnerCode (by simp) client.isConnectedPartner).spawn trivial
  | didDeletePartnerCode => exact hsound.setPartnerCode hsound.partnerCode false
  | requestPartnerClothes =>
      rw [Client.advance]
      split
      · exact ⟨hsound.own, hsound.documents, hsound.threads, hsound.outbox, hsound.partnerCode,
          hsound.cache, hsound.listeners, .inr rfl⟩
      · exact hsound

theorem BlankOr.partnerCodeFromServer {codes : List String} {data : String}
    (hdata : BlankOr codes data) :
    CodeManager.partnerCodeFromServer data = "" ∨
      CodeManager.partnerCodeFromServer data ∈ codes := by
  rcases hdata with hblank | hmem
  · exact .inl (CodeManager.partnerCodeFromServer_eq_empty.mpr hblank)
  · unfold CodeManager.partnerCodeFromServer
    split
    · exact .inr hmem
    · exact .inl rfl

theorem Sound.receive (hsound : client.Sound users) {data : String}
    (hdata : BlankOr (client.visible users).codes data) : (client.receive data).Sound users := by
  have hvalue : ∀ value, some (CodeManager.partnerCodeFromServer data) = some value →
      value = "" ∨ value ∈ (client.visible users).codes := by
    rintro value hvalue
    obtain rfl := Option.some.inj hvalue
    exact BlankOr.partnerCodeFromServer hdata
  unfold Client.receive
  split
  · exact hsound.setPartnerCode hvalue false
  · exact (hsound.setPartnerCode hvalue true).spawn trivial

theorem Sound.watch (hsound : client.Sound users) {index skipped : ℕ}
    {document : CachedDocument} {partnerCode : String} {incoming : List String}
    (hdocument : client.cache[index]? = some document)
    (hdrop : document.incoming.drop skipped = partnerCode :: incoming) :
    (client.setStore (client.cache.set index ⟨document.documentID, some partnerCode, incoming⟩)
      client.outbox).Sound users := by
  exact ⟨hsound.own, hsound.documents, hsound.threads, hsound.outbox, hsound.partnerCode,
    fun target data hcached => hsound.cache target data (caches_watch hdocument hdrop hcached),
    blankOr_setStore hsound.listeners (fun target data hcached =>
      hsound.cached target data (caches_watch hdocument hdrop hcached)) (fun _ => hsound.write),
    hsound.trap⟩

theorem Sound.deliver (hsound : client.Sound users) {index : ℕ} {listener : UserListener}
    {data : String} {rest : List String} (hlistener : client.listeners[index]? = some listener)
    (hundelivered : listener.undelivered = data :: rest) :
    Sound users ({ client with
      listeners := client.listeners.set index { listener with undelivered := rest } }.receive
        data) := by
  have hvalues := hsound.listeners listener (List.mem_of_getElem? hlistener)
  rw [hundelivered] at hvalues
  refine Sound.receive ?_ (hvalues data List.mem_cons_self)
  refine ⟨hsound.own, hsound.documents, hsound.threads, hsound.outbox, hsound.partnerCode,
    hsound.cache, fun other hother partnerCode hpartnerCode => ?_, hsound.trap⟩
  rcases List.mem_or_eq_of_mem_set hother with hother | rfl
  · exact hsound.listeners other hother partnerCode hpartnerCode
  · exact hvalues partnerCode (List.mem_cons_of_mem _ hpartnerCode)

/-- A covered action keeps a client sound. -/
theorem Sound.act (hsound : client.Sound users) (husers : UsersSound users) {action : Action}
    (hcovered : client.Covered action) {next : Client}
    (hact : client.act users action = some next) : next.Sound users := by
  cases transition_of_act hact with
  | onAppear => exact hsound.spawn trivial
  | getCode choice => exact hsound.getCode _
  | enterCode origin partnerCode => exact hsound.spawn trivial
  | disconnect =>
      have hspawned : (client.spawn (.deletePartnerCode .partner)).Sound users :=
        hsound.spawn trivial
      exact hspawned.spawn trivial
  | @advance thread choice hmem =>
      obtain ⟨hsucceeds, hsaved, hpartner⟩ := hcovered
      cases hsave : thread.codeToSave with
      | none =>
          refine (hsound.erase hsave).advance husers hsave
            (hsound.threads thread (List.mem_append_left _ hmem)) hsucceeds (fun hown => ?_)
            hpartner
          exact List.subset_nil.mp fun code hcode =>
            hsaved hown ▸ List.filterMap_subset _ List.erase_subset hcode
      | some code =>
          obtain rfl : thread = .saveCode code := by
            cases thread <;> simp_all [Thread.codeToSave]
          exact hsound.saveCode hmem choice.documentID_ne_empty
  | watch hdocument hdrop => exact hsound.watch hdocument hdrop
  | deliver hlistener hundelivered => exact hsound.deliver hlistener hundelivered

/-- More codes on the server do no harm. -/
theorem Sound.of_codes (hsound : client.Sound users) {users' : Users}
    (hcodes : users.codes ⊆ users'.codes) : client.Sound users' := by
  have hseen : (client.visible users).codes ⊆ (client.visible users').codes := by
    intro code hcode
    exact mem_codes_visible.mpr ((mem_codes_visible.mp hcode).imp_left fun hmem => hcodes hmem)
  refine ⟨fun code hcode => (hsound.own code hcode).imp_left fun hmem => hseen hmem,
    hsound.documents, ?_, hsound.outbox.mono hcodes, ?_, ?_, ?_, hsound.trap⟩
  · intro thread hthread
    exact (hsound.threads thread hthread).mono hcodes hseen fun _ hown => hown
  · intro partnerCode hvalue
    exact (hsound.partnerCode partnerCode hvalue).imp_right fun hmem => hseen hmem
  · intro documentID data hcaches
    exact (hsound.cache documentID data hcaches).mono hcodes
  · intro listener hlistener partnerCode hvalue
    exact (hsound.listeners listener hlistener partnerCode hvalue).mono hseen

theorem Sound.notify (hsound : client.Sound users) {partnerCode : String}
    (hvalue : BlankOr users.codes partnerCode) (documentID : String) :
    (client.notify documentID partnerCode).Sound users := by
  refine hsound.setCache fun target data hcaches => ?_
  rcases caches_notify hcaches with hcaches | ⟨-, rfl⟩
  · exact hsound.cache target data hcaches
  · exact hvalue

theorem Sound.acknowledge (hsound : client.Sound users) {partnerCode : String}
    (hvalue : BlankOr users.codes partnerCode) (documentID : String) :
    (client.acknowledge documentID partnerCode).Sound users := by
  refine hsound.setCache fun target data hcaches => ?_
  rcases caches_acknowledge hcaches with hcaches | ⟨-, rfl⟩
  · exact hsound.cache target data hcaches
  · exact hvalue

/-- A write can be taken off the outbox once the document it adds is there. -/
theorem Sound.settled (hsound : client.Sound users) {pending : Pending} {rest : List Pending}
    (houtbox : client.outbox = pending :: rest)
    (hadded : ∀ document, pending.write = .addDocument document → document.code ∈ users.codes) :
    (client.settled pending rest).Sound users := by
  have hdocuments : ∀ document ∈ client.pendingDocuments,
      document.code ∈ users.codes ∨ document ∈ (client.settled pending rest).pendingDocuments := by
    intro document hdocument
    obtain ⟨resume, hpending⟩ := mem_pendingDocuments.mp hdocument
    rw [houtbox] at hpending
    rcases List.mem_cons.mp hpending with rfl | hpending
    · exact .inl (hadded document rfl)
    · exact .inr (mem_pendingDocuments.mpr ⟨resume, hpending⟩)
  have hseen : (client.visible users).codes ⊆
      ((client.settled pending rest).visible users).codes := by
    intro code hcode
    rcases mem_codes_visible.mp hcode with hcode | ⟨document, hdocument, rfl⟩
    · exact mem_codes_visible.mpr (.inl hcode)
    · exact mem_codes_visible.mpr
        ((hdocuments document hdocument).imp_right fun hmem => ⟨document, hmem, rfl⟩)
  refine ⟨?_, ?_, ?_, ?_,
    fun value hvalue => (hsound.partnerCode value hvalue).imp_right fun hmem => hseen hmem,
    hsound.cache, ?_, hsound.trap⟩
  · intro code hcode
    exact (hsound.own code hcode).imp (fun hmem => hseen hmem)
      fun hmem => List.mem_append_left _ hmem
  · intro document hdocument
    obtain ⟨resume, hpending⟩ := mem_pendingDocuments.mp hdocument
    refine hsound.documents document (mem_pendingDocuments.mpr ⟨resume, ?_⟩)
    rw [houtbox]
    exact List.mem_cons_of_mem _ hpending
  · intro thread hthread
    rw [running_settled houtbox] at hthread
    exact (hsound.threads thread hthread).mono (List.Subset.refl _) hseen fun _ hown => hown
  · have hrest := hsound.outbox
    rw [houtbox] at hrest
    obtain ⟨write, resume⟩ := pending
    cases write with
    | addDocument document =>
        -- the code that the rest of the outbox relied on is now on the server
        have hsub : document.code :: users.codes ⊆ users.codes :=
          List.cons_subset.mpr ⟨hadded document rfl, List.Subset.refl _⟩
        exact OutboxSound.mono hsub hrest
    | updateData documentID partnerCode => exact hrest.2
  · exact blankOr_setStore (fun listener hlistener data hdata =>
      (hsound.listeners listener hlistener data hdata).mono hseen) (fun target data hcaches =>
        (hsound.cached target data hcaches).mono hseen) fun other hother =>
          (hsound.write (houtbox ▸ List.mem_cons_of_mem _ hother)).mono hseen

end Client

namespace System

variable {ι : Type*} [DecidableEq ι]

omit [DecidableEq ι] in
/-- The conditions on a step: `addDocument` is not rejected, and the actions of the
clients are covered. -/
def Covered (state : System ι) : Event ι → Prop
  | .act i action => (state.client i).Covered action
  | .settle i accepted =>
      accepted = false → ∀ pending ∈ (state.client i).outbox.head?, ¬ pending.write.addsDocument

instance (state : System ι) : ∀ event, Decidable (state.Covered event)
  | .act i action => inferInstanceAs (Decidable ((state.client i).Covered action))
  | .settle i accepted => inferInstanceAs (Decidable (accepted = false →
      ∀ pending ∈ (state.client i).outbox.head?, ¬ pending.write.addsDocument))

structure Sound (state : System ι) : Prop where
  users : UsersSound state.users
  client : ∀ i, (state.client i).Sound state.users

omit [DecidableEq ι] in
theorem sound_fresh : Sound (fresh : System ι) where
  users document hdocument := absurd hdocument List.not_mem_nil
  client i := by
    refine ⟨?_, ?_, ?_, trivial, ?_, ?_, ?_, .inl rfl⟩ <;>
      simp [fresh, Client.pendingDocuments, Client.running, Client.Caches]

/-- The value of a write that takes effect can be announced. -/
theorem Sound.announce {state : System ι} (hsound : state.Sound) (i : ι) {partnerCode : String}
    (hvalue : BlankOr state.users.codes partnerCode) (documentID : String) (changed : Bool) :
    (state.announce i documentID partnerCode changed).Sound := by
  refine ⟨hsound.users, fun j => ?_⟩
  unfold System.announce
  dsimp only
  split
  · exact (hsound.client j).acknowledge hvalue documentID
  · split
    · exact (hsound.client j).notify hvalue documentID
    · exact hsound.client j

/-- The oldest write of a client can take effect. -/
theorem Sound.commit {state : System ι} (hsound : state.Sound) {i : ι} {pending : Pending}
    {rest : List Pending} (houtbox : (state.client i).outbox = pending :: rest) :
    (state.commit i pending.write).Sound := by
  obtain ⟨write, resume⟩ := pending
  cases write with
  | addDocument document =>
      have hsub : state.users.codes ⊆ (state.users.insertDocument document).codes := by
        intro code hcode
        exact (state.users.codes_insertDocument_perm document).mem_iff.mpr
          (List.mem_cons_of_mem _ hcode)
      have hmem : document ∈ (state.client i).pendingDocuments :=
        Client.mem_pendingDocuments.mpr ⟨resume, houtbox ▸ List.mem_cons_self⟩
      obtain ⟨-, hdocumentID, hblank⟩ := (hsound.client i).documents document hmem
      have hinserted : Sound { state with users := state.users.insertDocument document } := by
        refine ⟨fun other hother => ?_, fun j => (hsound.client j).of_codes hsub⟩
        rcases Users.mem_insertDocument.mp hother with rfl | hother
        · exact ⟨hdocumentID, .inl hblank⟩
        · exact ⟨(hsound.users other hother).1, (hsound.users other hother).2.mono hsub⟩
      exact hinserted.announce i (.inl hblank) document.documentID false
  | updateData documentID partnerCode =>
      have hvalue : BlankOr state.users.codes partnerCode := by
        -- what a write in the outbox names is known once those before it have taken effect
        have hwrites := (hsound.client i).outbox
        rw [houtbox] at hwrites
        exact hwrites.1
      have hcodes := state.users.codes_setPartnerCode documentID partnerCode
      have hsub : state.users.codes ⊆ (state.users.setPartnerCode documentID partnerCode).codes :=
        fun code hcode => hcodes.symm ▸ hcode
      have hupdated : Sound
          { state with users := state.users.setPartnerCode documentID partnerCode } := by
        refine ⟨fun document hdocument => ?_, fun j => (hsound.client j).of_codes hsub⟩
        obtain ⟨original, horiginal, rfl⟩ := List.mem_map.mp hdocument
        rw [hcodes]
        split
        · exact ⟨(hsound.users original horiginal).1, hvalue⟩
        · exact hsound.users original horiginal
      exact commit_updateData_rec (fun _ => hsound)
        (fun _ => hsound.announce i hvalue documentID false)
        (fun _ _ _ => hupdated.announce i (hvalue.mono hsub) documentID true)

theorem Sound.set {state : System ι} (hsound : state.Sound) {i : ι} {client : Client}
    (hclient : client.Sound state.users) : (state.set i client).Sound :=
  ⟨hsound.users, forall_client_set hclient hsound.client⟩

theorem Sound.step {state next : System ι} {event : Event ι} (hsound : state.Sound)
    (hcovered : state.Covered event) (hstep : state.step event = some next) : next.Sound := by
  cases transition_of_step hstep with
  | act htrap hact => exact hsound.set ((hsound.client _).act hsound.users hcovered hact)
  | @accept i pending rest houtbox =>
      have hcommit := hsound.commit houtbox
      obtain ⟨cache, hcache⟩ := state.commit_client i pending.write i
      refine hcommit.set ((hcommit.client i).settled ?_ fun document hwrite => ?_)
      · rw [hcache]
        exact houtbox
      · rw [hwrite]
        exact (state.users.codes_insertDocument_perm document).mem_iff.mpr List.mem_cons_self
  | @reject i pending rest houtbox =>
      refine hsound.set ((hsound.client i).settled houtbox fun document hwrite => ?_)
      exact absurd (by rw [hwrite]; rfl) (hcovered rfl pending (by simp [houtbox]))

/-- In a covered run from a fresh install, no lookup of a user document traps: no
result is empty, and no empty ID is passed on. -/
theorem lookups_never_trap {state : System ι} (hreach : Reaches System.step Covered fresh state)
    (i : ι) :
    (state.client i).trap ≠ some .emptyResult ∧ (state.client i).trap ≠ some .emptyDocumentID := by
  have hsound : state.Sound :=
    hreach.invariant sound_fresh fun _ _ _ hsound hcovered hstep => hsound.step hcovered hstep
  rcases (hsound.client i).trap with htrap | htrap <;> simp [htrap]

/-! ### A launch -/

/-- An install that draws this code. -/
def drawing (newCode documentID : String) (hgenerated : CodeManager.Generated newCode)
    (hdocumentID : documentID ≠ "") : Choice :=
  ⟨true, newCode, documentID, hgenerated, hdocumentID⟩

/-- The main screen appears, and the `saveCode` block runs before the own document
is looked up. -/
def launch (i : Bool) (newCode : String) (choice : Choice) : List (Event Bool) :=
  [.act i .onAppear, .act i (.advance .connectPartner choice),
    .act i (.advance (.saveCode newCode) choice), .settle i true,
    .act i (.advance .getPartnerCodeFromServer choice)]

/-- Two installs are launched; one connects to the other and disconnects again. -/
def launchAndConnect : List (Event Bool) :=
  let first := drawing "AAAAAAAAAA" "a" (by decide) (by decide)
  let second := drawing "BBBBBBBBBB" "b" (by decide) (by decide)
  launch true "AAAAAAAAAA" first ++ launch false "BBBBBBBBBB" second ++
    connecting true first .main "BBBBBBBBBB" "AAAAAAAAAA" "b" "a" ++
    [.settle true true, .settle true true,
      .act true .disconnect,
      .act true (.advance (.deletePartnerCode .partner) first),
      .act true (.advance (.updatePartnerCodeBy .partner "BBBBBBBBBB") first),
      .settle true true,
      .act true (.advance (.deletePartnerCode .own) first),
      .act true (.advance (.updatePartnerCodeBy .own "AAAAAAAAAA") first)]

theorem launched_clients_never_trap :
    ∃ state : System Bool, Reaches System.step Covered fresh state ∧
      (state.client true).outbox = [⟨.updateData "a" " ", none⟩] ∧
      ∀ i, (state.client i).trap ≠ some .emptyResult ∧
        (state.client i).trap ≠ some .emptyDocumentID := by
  obtain ⟨state, hreach, houtbox⟩ :
      ∃ state : System Bool, Reaches System.step Covered fresh state ∧
        (state.client true).outbox = [⟨.updateData "a" " ", none⟩] :=
    exists_reaches_of_run launchAndConnect (by decide)
  exact ⟨state, hreach, houtbox, lookups_never_trap hreach⟩

/-- On the first launch the own document is looked up before the `saveCode` block
runs; every query succeeds. -/
theorem first_launch_traps :
    ∃ state : System Bool, Reaches System.step (fun _ _ => True) fresh state ∧
      (state.client true).trap = some .emptyResult :=
  exists_reaches_of_run
    (let choice := drawing "AAAAAAAAAA" "a" (by decide) (by decide)
    [.act true .onAppear, .act true (.advance .connectPartner choice),
      .act true (.advance .getPartnerCodeFromServer choice)]) (by decide)

end System

end Pompom
