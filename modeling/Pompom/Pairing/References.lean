import Pompom.Pairing.Lookup
import Pompom.Pairing.PartnerClothes

/-!
# What partner codes refer to

The `partner_code` of a user is the code of another user.  `connectWithPartner`
compares the entered code with the own one and looks for its document before it
writes, and the two documents that it writes to are found by the two codes.  So in
every run, with any number of launches, operations that interleave and queries that
fail:

* no user is its own partner, neither on the server nor in UserDefaults
  (`no_self_pairing`);
* every partner exists, as long as the creation of no document is rejected
  (`partner_codes_exist`).

Firestore draws the IDs of documents at random, and a run is taken to have no ID
twice: there is a function from the IDs to the codes of their documents
(`IDsOf`).
-/

namespace Pompom

open Lib

/-- The code that a lookup was made with, unless it has failed. -/
def Resolves (codeFor : String → String) (documentID code : String) : Prop :=
  documentID = "" ∨ codeFor documentID = code

/-- The value names no user that is the own one, and `kept` says that it has to
exist. -/
def NamesOther (kept : Prop) (codes : List String) (code partnerCode : String) : Prop :=
  Blank partnerCode ∨ partnerCode ≠ code ∧ (kept → partnerCode ∈ codes)

theorem NamesOther.mono {kept : Prop} {codes codes' : List String} (hcodes : codes ⊆ codes')
    {code partnerCode : String} (hvalue : NamesOther kept codes code partnerCode) :
    NamesOther kept codes' code partnerCode :=
  hvalue.imp_right fun hother => ⟨hother.1, fun hkept => hcodes (hother.2 hkept)⟩

section Threads

variable {codeFor : String → String} {kept : Prop}

/-- The entered code is not the own one. -/
def Differs (own : Option String) (partnerCode : String) : Prop :=
  ∃ code, own = some code ∧ partnerCode ≠ code

variable (codeFor kept) in
/-- What a thread carries: `codes` are on the server, `seen` is what queries of its
client see, and `own` is the client's own code. -/
def Thread.Refers (codes seen : List String) (own : Option String) : Thread → Prop
  | .saveCode saved => own = some saved
  | .isExistingCode _ partnerCode => Differs own partnerCode
  | .getOwnId _ partnerCode | .setPartnerCode _ partnerCode =>
      Differs own partnerCode ∧ partnerCode ∈ codes
  | .getPartnerId _ partnerCode ownCode ownId =>
      own = some ownCode ∧ partnerCode ≠ ownCode ∧ partnerCode ∈ codes ∧
        Resolves codeFor ownId ownCode ∧ (kept → ownId = "" ∨ ownCode ∈ seen)
  | .updateOwn _ partnerCode ownCode ownId partnerId =>
      own = some ownCode ∧ partnerCode ≠ ownCode ∧ partnerCode ∈ codes ∧
        Resolves codeFor ownId ownCode ∧ (kept → ownId = "" ∨ ownCode ∈ seen) ∧
        Resolves codeFor partnerId partnerCode
  | .updatePartner _ partnerCode ownCode partnerId =>
      own = some ownCode ∧ partnerCode ≠ ownCode ∧ partnerCode ∈ codes ∧
        (kept → ownCode ∈ seen) ∧ Resolves codeFor partnerId partnerCode
  | _ => True

theorem Thread.Refers.mono {codes codes' seen seen' : List String} {own own' : Option String}
    (hcodes : codes ⊆ codes') (hseen : kept → seen ⊆ seen')
    (hown : ∀ code, own = some code → own' = some code) {thread : Thread}
    (hthread : thread.Refers codeFor kept codes seen own) :
    thread.Refers codeFor kept codes' seen' own' := by
  have hdiffers : ∀ {partnerCode}, Differs own partnerCode → Differs own' partnerCode := by
    rintro partnerCode ⟨code, hcode, hne⟩
    exact ⟨code, hown code hcode, hne⟩
  cases thread with
  | saveCode saved => exact hown saved hthread
  | isExistingCode origin partnerCode => exact hdiffers hthread
  | getOwnId origin partnerCode => exact ⟨hdiffers hthread.1, hcodes hthread.2⟩
  | setPartnerCode origin partnerCode => exact ⟨hdiffers hthread.1, hcodes hthread.2⟩
  | getPartnerId origin partnerCode ownCode ownId =>
      obtain ⟨hcode, hne, hmem, hownId, hvisible⟩ := hthread
      exact ⟨hown _ hcode, hne, hcodes hmem, hownId,
        fun hkept => (hvisible hkept).imp_right fun hmem => hseen hkept hmem⟩
  | updateOwn origin partnerCode ownCode ownId partnerId =>
      obtain ⟨hcode, hne, hmem, hownId, hvisible, hpartnerId⟩ := hthread
      exact ⟨hown _ hcode, hne, hcodes hmem, hownId,
        fun hkept => (hvisible hkept).imp_right fun hmem => hseen hkept hmem, hpartnerId⟩
  | updatePartner origin partnerCode ownCode partnerId =>
      obtain ⟨hcode, hne, hmem, hvisible, hpartnerId⟩ := hthread
      exact ⟨hown _ hcode, hne, hcodes hmem, fun hkept => hseen hkept (hvisible hkept), hpartnerId⟩
  | connectPartner | getPartnerCodeFromServer | connectWithPartner | didConnectedPartner
  | deletePartnerCode | updatePartnerCodeBy | removePartnerCode | didDeletePartnerCode
  | requestPartnerClothes => trivial

variable (codeFor) in
/-- What a write in the outbox of a client does. -/
def Write.Refers (own : Option String) : Write → Prop
  | .addDocument document => own = some document.code ∧
      codeFor document.documentID = document.code ∧ Blank document.partnerCode
  | .updateData documentID partnerCode => Blank partnerCode ∨ partnerCode ≠ codeFor documentID

variable (codeFor kept) in
/-- The documents have the codes of their IDs, and name other users. -/
def UsersRefer (users : Users) : Prop :=
  ∀ document ∈ users, codeFor document.documentID = document.code ∧
    NamesOther kept users.codes document.code document.partnerCode

end Threads

namespace Client

/-- What holds of one client, given the collection. -/
structure Refers (codeFor : String → String) (kept : Prop) (users : Users) (client : Client) :
    Prop where
  threads : ∀ thread ∈ client.running,
    thread.Refers codeFor kept users.codes (client.visible users).codes client.code
  writes : ∀ pending ∈ client.outbox, pending.write.Refers codeFor client.code
  outbox : kept → OutboxSound users.codes client.outbox
  partnerCode : ∀ partnerCode, client.partnerCode = some partnerCode →
    partnerCode = "" ∨ Differs client.code partnerCode ∧ (kept → partnerCode ∈ users.codes)
  cache : ∀ documentID data, Caches client.cache documentID data →
    NamesOther kept users.codes (codeFor documentID) data
  listeners : ∀ listener ∈ client.listeners, client.code = some (codeFor listener.documentID) ∧
    ∀ data ∈ listener.undelivered,
      NamesOther kept users.codes (codeFor listener.documentID) data

variable {codeFor : String → String} {kept : Prop} {users : Users} {client : Client}

theorem Refers.spawn (hrefers : client.Refers codeFor kept users) {thread : Thread}
    (hthread : thread.Refers codeFor kept users.codes (client.visible users).codes client.code) :
    (client.spawn thread).Refers codeFor kept users where
  threads other hother := by
    rcases mem_running_spawn.mp hother with rfl | hother
    · exact hthread
    · exact hrefers.threads other hother
  writes := hrefers.writes
  outbox := hrefers.outbox
  partnerCode := hrefers.partnerCode
  cache := hrefers.cache
  listeners := hrefers.listeners

theorem Refers.dequeue (hrefers : client.Refers codeFor kept users) (thread : Thread) :
    (client.dequeue thread).Refers codeFor kept users where
  threads other hother := hrefers.threads other (client.running_dequeue_subset thread hother)
  writes := hrefers.writes
  outbox := hrefers.outbox
  partnerCode := hrefers.partnerCode
  cache := hrefers.cache
  listeners := hrefers.listeners

theorem Refers.halt (hrefers : client.Refers codeFor kept users) (trap : Trap) :
    (client.halt trap).Refers codeFor kept users :=
  ⟨hrefers.threads, hrefers.writes, hrefers.outbox, hrefers.partnerCode, hrefers.cache,
    hrefers.listeners⟩

theorem Refers.store (hrefers : client.Refers codeFor kept users) {partnerCode : Option String}
    (hvalue : ∀ value, partnerCode = some value →
      value = "" ∨ Differs client.code value ∧ (kept → value ∈ users.codes))
    (isConnectedPartner : Bool) :
    { client with
      partnerCode := partnerCode
      isConnectedPartner := isConnectedPartner }.Refers codeFor kept users :=
  ⟨hrefers.threads, hrefers.writes, hrefers.outbox, hvalue, hrefers.cache, hrefers.listeners⟩

theorem Refers.setCache (hrefers : client.Refers codeFor kept users) {cache : List CachedDocument}
    (hcache : ∀ documentID data, Caches cache documentID data →
      NamesOther kept users.codes (codeFor documentID) data) :
    { client with cache := cache }.Refers codeFor kept users :=
  ⟨hrefers.threads, hrefers.writes, hrefers.outbox, hrefers.partnerCode, hcache,
    hrefers.listeners⟩

theorem Refers.pendingDocuments (hrefers : client.Refers codeFor kept users)
    {document : UserDocument} (hdocument : document ∈ client.pendingDocuments) :
    client.code = some document.code ∧ codeFor document.documentID = document.code ∧
      Blank document.partnerCode := by
  obtain ⟨resume, hpending⟩ := mem_pendingDocuments.mp hdocument
  exact hrefers.writes _ hpending

/-- A code that the client sees is on the server, unless it is the own one. -/
theorem Refers.mem_codes (hrefers : client.Refers codeFor kept users) {own code : String}
    (hown : client.code = some own) (hne : code ≠ own)
    (hcode : code ∈ (client.visible users).codes) : code ∈ users.codes := by
  refine (mem_codes_visible.mp hcode).resolve_right ?_
  rintro ⟨document, hdocument, rfl⟩
  exact hne (Option.some.inj ((hrefers.pendingDocuments hdocument).1.symm.trans hown))

/-- What a write in the outbox makes of the own document names another user. -/
theorem Refers.write (hrefers : client.Refers codeFor kept users) {pending : Pending}
    (hpending : pending ∈ client.outbox)
    (hcode : client.code = some (codeFor pending.write.documentID)) :
    NamesOther kept users.codes (codeFor pending.write.documentID) pending.write.partnerCode := by
  have hwrite := hrefers.writes pending hpending
  obtain ⟨write, resume⟩ := pending
  cases write with
  | addDocument document => exact .inl hwrite.2.2
  | updateData documentID partnerCode =>
      by_cases hblank : Blank partnerCode
      · exact .inl hblank
      have hne := hwrite.resolve_left hblank
      refine .inr ⟨hne, fun hkept => hrefers.mem_codes hcode hne ?_⟩
      refine ((hrefers.outbox hkept).blankOr (fun code hmem => mem_codes_visible.mpr (.inl hmem))
        (fun document awaiting hdocument => ?_) hpending).resolve_left hblank
      exact mem_codes_visible.mpr
        (.inr ⟨document, mem_pendingDocuments.mpr ⟨awaiting, hdocument⟩, rfl⟩)

/-- What a client sees of its own document names another user. -/
theorem Refers.localCode (hrefers : client.Refers codeFor kept users) {documentID data : String}
    (hcode : client.code = some (codeFor documentID))
    (hdata : localCode client.cache client.outbox documentID = some data) :
    NamesOther kept users.codes (codeFor documentID) data := by
  rcases localCode_cases hdata with hcaches | ⟨pending, hpending, rfl, rfl⟩
  · exact hrefers.cache documentID data hcaches
  · exact hrefers.write hpending hcode

/-- A change of the store that does no harm is told to the listeners. -/
theorem Refers.setStore {cache : List CachedDocument} {outbox : List Pending}
    (hrefers : { client with cache := cache, outbox := outbox }.Refers codeFor kept users) :
    (client.setStore cache outbox).Refers codeFor kept users where
  threads := hrefers.threads
  writes := hrefers.writes
  outbox := hrefers.outbox
  partnerCode := hrefers.partnerCode
  cache := hrefers.cache
  listeners listener hlistener := by
    have hcode : client.code = some (codeFor listener.documentID) := by
      obtain ⟨original, horiginal, heq⟩ := exists_listener_setStore hlistener
      rw [← heq]
      exact (hrefers.listeners original horiginal).1
    have hundelivered : ∀ other ∈ (client.setStore cache outbox).listeners,
        ∀ data ∈ other.undelivered,
          NamesOther kept users.codes (codeFor other.documentID) data :=
      forall_undelivered_setStore
        (P := fun documentID data => NamesOther kept users.codes (codeFor documentID) data)
        (fun other hother => (hrefers.listeners other hother).2) fun other hother data hdata =>
          hrefers.localCode (hrefers.listeners other hother).1 hdata
    exact ⟨hcode, hundelivered listener hlistener⟩

theorem Refers.getCode (hrefers : client.Refers codeFor kept users) (newCode : String) :
    (client.getCode newCode).Refers codeFor kept users := by
  unfold Client.getCode
  split
  · exact hrefers
  · rename_i hnone
    refine Refers.spawn ?_ rfl
    refine ⟨fun thread hthread => ?_, fun pending hpending => ?_, hrefers.outbox,
      fun partnerCode hvalue => ?_, hrefers.cache, fun listener hlistener => ?_⟩
    · exact (hrefers.threads thread hthread).mono (List.Subset.refl _)
        (fun _ => List.Subset.refl _) (by simp [hnone])
    · -- without a code there are no documents in the outbox
      have hwrite := hrefers.writes pending hpending
      cases hkind : pending.write with
      | addDocument document => simp [hkind, Write.Refers, hnone] at hwrite
      | updateData documentID partnerCode => simpa [hkind, Write.Refers] using hwrite
    · refine (hrefers.partnerCode partnerCode hvalue).imp_right ?_
      rintro ⟨⟨code, hcode, -⟩, -⟩
      simp [hnone] at hcode
    · have hcode := (hrefers.listeners listener hlistener).1
      simp [hnone] at hcode

theorem Refers.issue_updateData (hrefers : client.Refers codeFor kept users)
    {documentID partnerCode : String}
    (hvalue : Blank partnerCode ∨ partnerCode ≠ codeFor documentID ∧
      (kept → partnerCode ∈ (client.visible users).codes)) {resume : Option Thread}
    (hresume : ∀ thread ∈ resume, thread.Refers codeFor kept users.codes
      (client.visible users).codes client.code) :
    (client.issue (.updateData documentID partnerCode) resume).Refers codeFor kept users := by
  refine Refers.setStore ⟨fun thread hthread => ?_, fun pending hpending => ?_, fun hkept => ?_,
    hrefers.partnerCode, hrefers.cache, hrefers.listeners⟩
  · have hseen : thread.Refers codeFor kept users.codes (client.visible users).codes
        client.code := by
      rcases mem_running_issue.mp hthread with hthread | hthread
      · exact hresume thread hthread
      · exact hrefers.threads thread hthread
    exact visible_issue_updateData users client documentID partnerCode resume ▸ hseen
  · rcases List.mem_append.mp hpending with hpending | hpending
    · exact hrefers.writes pending hpending
    · obtain rfl := List.mem_singleton.mp hpending
      exact hvalue.imp_right And.left
  · refine (hrefers.outbox hkept).append_updateData ?_ documentID resume
    rcases hvalue with hblank | ⟨-, hmem⟩
    · exact .inl (.inl hblank)
    · rcases mem_codes_visible.mp (hmem hkept) with hmem | ⟨document, hdocument, hcode⟩
      · exact .inl (.inr hmem)
      · obtain ⟨awaiting, hpending⟩ := mem_pendingDocuments.mp hdocument
        exact .inr ⟨document, awaiting, hpending, hcode⟩

/-- The `saveCode` block hands the own code over to the outbox. -/
theorem Refers.saveCode (hrefers : client.Refers codeFor kept users) {code documentID : String}
    (hcode : client.code = some code) (hdocumentID : codeFor documentID = code) :
    (client.issue (.addDocument (ConnectionManager.newDocument documentID code)) none).Refers
      codeFor kept users := by
  have hseen : (client.visible users).codes ⊆ ((client.issue (.addDocument
      (ConnectionManager.newDocument documentID code)) none).visible users).codes := by
    intro other hother
    rw [mem_codes_visible, pendingDocuments_issue_addDocument]
    refine (mem_codes_visible.mp hother).imp_right ?_
    rintro ⟨document, hdocument, rfl⟩
    exact ⟨document, List.mem_append_left _ hdocument, rfl⟩
  refine Refers.setStore ⟨fun thread hthread => ?_, fun pending hpending => ?_,
    fun hkept => (hrefers.outbox hkept).append_addDocument _ _, hrefers.partnerCode,
    hrefers.cache, hrefers.listeners⟩
  · refine (hrefers.threads thread ?_).mono (List.Subset.refl _) (fun _ => hseen)
      fun _ hown => hown
    exact (mem_running_issue.mp hthread).resolve_left (Option.not_mem_none _)
  · rcases List.mem_append.mp hpending with hpending | hpending
    · exact hrefers.writes pending hpending
    · obtain rfl := List.mem_singleton.mp hpending
      exact ⟨hcode, hdocumentID, .inl rfl⟩

/-! ### Lookups -/

/-- The documents that a client sees have the codes of their IDs. -/
theorem Refers.codeFor_visible (hrefers : client.Refers codeFor kept users)
    (husers : UsersRefer codeFor kept users) {document : UserDocument}
    (hdocument : document ∈ client.visible users) :
    codeFor document.documentID = document.code := by
  rcases mem_visible.mp hdocument with hmem | hmem
  · exact (husers document hmem).1
  · exact (hrefers.pendingDocuments hmem).2.1

/-- What `getIdByCode` returns, if it returns. -/
theorem Refers.resolves (hrefers : client.Refers codeFor kept users)
    (husers : UsersRefer codeFor kept users) {succeeds : Bool} {code documentID : String}
    (hfound : ConnectionManager.getIdByCode (client.query users succeeds code) = .ok documentID) :
    documentID = "" ∨ codeFor documentID = code ∧ code ∈ (client.visible users).codes := by
  cases succeeds with
  | false =>
      obtain rfl : "" = documentID := by
        simpa [query, ConnectionManager.getIdByCode] using hfound
      exact .inl rfl
  | true =>
      cases hresult : (client.visible users).whereCode code with
      | nil => simp [query, hresult, ConnectionManager.getIdByCode] at hfound
      | cons document rest =>
          obtain rfl : document.documentID = documentID := by
            simpa [query, hresult, ConnectionManager.getIdByCode] using hfound
          have hmem : document ∈ (client.visible users).whereCode code := by
            rw [hresult]
            exact List.mem_cons_self
          obtain ⟨hvisible, rfl⟩ := Users.mem_whereCode.mp hmem
          exact .inr ⟨hrefers.codeFor_visible husers hvisible, List.mem_map_of_mem hvisible⟩

/-- A code that exists and is not the own one is on the server. -/
theorem Refers.mem_codes_of_isExistingCode (hrefers : client.Refers codeFor kept users)
    {succeeds : Bool} {partnerCode : String} (hdiffers : Differs client.code partnerCode)
    (hexisting : ConnectionManager.isExistingCode (client.query users succeeds partnerCode) =
      true) : partnerCode ∈ users.codes := by
  obtain ⟨own, hown, hne⟩ := hdiffers
  exact hrefers.mem_codes hown hne (mem_codes_of_existing hexisting)

theorem Refers.addSnapshotListener (hrefers : client.Refers codeFor kept users)
    (husers : UsersRefer codeFor kept users) {documentID : String}
    (hcode : client.code = some (codeFor documentID)) :
    (client.addSnapshotListener users documentID).Refers codeFor kept users := by
  have hcache : { client with
      cache := caching users client.cache documentID }.Refers codeFor kept users := by
    refine hrefers.setCache fun target data hcaches => ?_
    rcases caches_caching hcaches with hcaches | ⟨rfl, hvalue⟩
    · exact hrefers.cache target data hcaches
    · obtain ⟨document, hfind, rfl⟩ := Option.map_eq_some_iff.mp hvalue
      obtain rfl : document.documentID = documentID := by simpa using List.find?_some hfind
      have hmem := husers document (List.mem_of_find?_eq_some hfind)
      rw [hmem.1]
      exact hmem.2
  refine ⟨hcache.threads, hcache.writes, hcache.outbox, hcache.partnerCode, hcache.cache,
    fun listener hlistener => ?_⟩
  rcases List.mem_append.mp hlistener with hlistener | hlistener
  · exact hrefers.listeners listener hlistener
  · obtain rfl := List.mem_singleton.mp hlistener
    exact ⟨hcode, fun data hdata => hcache.localCode hcode (Option.mem_toList.mp hdata)⟩

/-! ### Steps -/

/-- A step of a thread other than a `saveCode` block. -/
theorem Refers.advance (hrefers : client.Refers codeFor kept users)
    (husers : UsersRefer codeFor kept users) {choice : Choice} {thread : Thread} {next : Client}
    (hadvances : Advances users choice client thread next) (hsave : thread.codeToSave = none)
    (hthread : thread.Refers codeFor kept users.codes (client.visible users).codes client.code) :
    next.Refers codeFor kept users := by
  have hcode := hrefers.getCode choice.newCode
  have hown := client.getCode_code choice.newCode
  cases hadvances with
  | saveCode code => simp [Thread.codeToSave] at hsave
  | connectPartner => exact hcode.spawn trivial
  | getPartnerCodeFromServer hfound hne =>
      have hresolves := ((hcode.resolves husers hfound).resolve_left hne).1
      exact hcode.addSnapshotListener husers (by rw [hresolves]; exact hown)
  | callMySelf => exact hcode
  | connectWithPartner hother => exact hcode.spawn ⟨_, hown, CodeManager.ne_of_not_sameCode hother⟩
  | invalidPartnerCode | didConnectedPartnerInSettings | requestPartnerClothes => exact hrefers
  | isExistingCode hexisting =>
      exact hrefers.spawn ⟨hthread, hrefers.mem_codes_of_isExistingCode hthread hexisting⟩
  | getOwnId hfound =>
      -- there has been a code since the first guard, so `getCode` only returns it
      obtain ⟨⟨own, hownCode, hne⟩, hmem⟩ := hthread
      rw [getCode_of_some hownCode, ownCode_eq hownCode] at hfound ⊢
      have hresolves := hrefers.resolves husers hfound
      exact hrefers.spawn ⟨hownCode, hne, hmem, hresolves.imp_right And.left,
        fun _ => hresolves.imp_right And.right⟩
  | getPartnerId hfound =>
      obtain ⟨hownCode, hne, hmem, hownId, hseen⟩ := hthread
      exact hrefers.spawn ⟨hownCode, hne, hmem, hownId, hseen,
        (hrefers.resolves husers hfound).imp_right And.left⟩
  | updateOwn hnonempty =>
      obtain ⟨hownCode, hne, hmem, hownId, hseen, hpartnerId⟩ := hthread
      refine (hrefers.issue_updateData (.inr ⟨?_, fun _ => ?_⟩) (by simp)).spawn ?_
      · rw [hownId.resolve_left hnonempty]
        exact hne
      · exact mem_codes_visible.mpr (.inl hmem)
      · rw [visible_issue_updateData]
        exact ⟨hownCode, hne, hmem, fun hkept => (hseen hkept).resolve_left hnonempty, hpartnerId⟩
  | updatePartner hnonempty =>
      obtain ⟨hownCode, hne, hmem, hseen, hpartnerId⟩ := hthread
      refine (hrefers.issue_updateData (.inr ⟨?_, hseen⟩) (by simp)).spawn ⟨?_, hmem⟩
      · rw [hpartnerId.resolve_left hnonempty]
        exact hne.symm
      · exact ⟨_, hownCode, hne⟩
  | setPartnerCode origin partnerCode =>
      refine (hrefers.store (fun value hvalue => .inr ?_) client.isConnectedPartner).spawn trivial
      obtain rfl := Option.some.inj hvalue
      exact ⟨hthread.1, fun _ => hthread.2⟩
  | didConnectedPartner => exact (hrefers.store hrefers.partnerCode true).spawn trivial
  | deletePartner => exact hrefers.spawn trivial
  | deleteOwn => exact hcode.spawn trivial
  | @updatePartnerCodeBy side code documentID hfound hne =>
      refine hrefers.issue_updateData (.inl (.inr rfl)) fun thread hresume => ?_
      cases side with
      | partner =>
          obtain rfl := Option.some.inj hresume
          trivial
      | own => simp [Side.rest] at hresume
  | removePartnerCode => exact (hrefers.store (by simp) client.isConnectedPartner).spawn trivial
  | didDeletePartnerCode => exact hrefers.store hrefers.partnerCode false
  | emptyClothesCode => exact hrefers.halt _
  | halt hbefore =>
      rcases hbefore with rfl | rfl
      · exact hrefers.halt _
      · exact hcode.halt _

theorem Refers.receive (hrefers : client.Refers codeFor kept users) {code data : String}
    (hcode : client.code = some code) (hdata : NamesOther kept users.codes code data) :
    (client.receive data).Refers codeFor kept users := by
  have hvalue : ∀ value, some (CodeManager.partnerCodeFromServer data) = some value →
      value = "" ∨ Differs client.code value ∧ (kept → value ∈ users.codes) := by
    rintro value hvalue
    obtain rfl := Option.some.inj hvalue
    rcases hdata with hblank | ⟨hne, hmem⟩
    · exact .inl (CodeManager.partnerCodeFromServer_eq_empty.mpr hblank)
    · unfold CodeManager.partnerCodeFromServer
      split
      · exact .inr ⟨⟨code, hcode, hne⟩, hmem⟩
      · exact .inl rfl
  unfold Client.receive
  split
  · exact hrefers.store hvalue false
  · exact (hrefers.store hvalue true).spawn trivial

theorem Refers.watch (hrefers : client.Refers codeFor kept users) {index skipped : ℕ}
    {document : CachedDocument} {partnerCode : String} {incoming : List String}
    (hdocument : client.cache[index]? = some document)
    (hdrop : document.incoming.drop skipped = partnerCode :: incoming) :
    (client.setStore (client.cache.set index ⟨document.documentID, some partnerCode, incoming⟩)
      client.outbox).Refers codeFor kept users := by
  refine Refers.setStore (hrefers.setCache fun documentID data hcaches => ?_)
  exact hrefers.cache documentID data (caches_watch hdocument hdrop hcaches)

theorem Refers.deliver (hrefers : client.Refers codeFor kept users) {index : ℕ}
    {listener : UserListener} {data : String} {rest : List String}
    (hlistener : client.listeners[index]? = some listener)
    (hundelivered : listener.undelivered = data :: rest) :
    Refers codeFor kept users ({ client with
      listeners := client.listeners.set index { listener with undelivered := rest } }.receive
        data) := by
  obtain ⟨hcode, hvalues⟩ := hrefers.listeners listener (List.mem_of_getElem? hlistener)
  rw [hundelivered] at hvalues
  refine Refers.receive ?_ hcode (hvalues data List.mem_cons_self)
  refine ⟨hrefers.threads, hrefers.writes, hrefers.outbox, hrefers.partnerCode, hrefers.cache,
    fun other hother => ?_⟩
  rcases List.mem_or_eq_of_mem_set hother with hother | rfl
  · exact hrefers.listeners other hother
  · exact ⟨hcode, fun value hvalue => hvalues value (List.mem_cons_of_mem _ hvalue)⟩

/-- The ID of a new document has not been used for another code. -/
def NamesCode (codeFor : String → String) : Action → Prop
  | .advance thread choice => ∀ code ∈ thread.codeToSave, codeFor choice.documentID = code
  | _ => True

instance (codeFor : String → String) : ∀ action, Decidable (NamesCode codeFor action)
  | .advance thread choice => inferInstanceAs
      (Decidable (∀ code ∈ thread.codeToSave, codeFor choice.documentID = code))
  | .onAppear | .getCode _ | .enterCode _ _ | .disconnect | .watch _ _ | .deliver _ =>
      .isTrue trivial

theorem Refers.act (hrefers : client.Refers codeFor kept users)
    (husers : UsersRefer codeFor kept users) {action : Action} (hnames : NamesCode codeFor action)
    {next : Client} (hact : client.act users action = some next) :
    next.Refers codeFor kept users := by
  cases transition_of_act hact with
  | onAppear => exact hrefers.spawn trivial
  | getCode choice => exact hrefers.getCode _
  | enterCode origin partnerCode => exact hrefers.spawn trivial
  | disconnect =>
      have hspawned : (client.spawn (.deletePartnerCode .partner)).Refers codeFor kept users :=
        hrefers.spawn trivial
      exact hspawned.spawn trivial
  | @advance thread choice hmem =>
      have hthread := hrefers.threads thread (List.mem_append_left _ hmem)
      cases hsave : thread.codeToSave with
      | none =>
          exact (hrefers.dequeue thread).advance husers (advances users choice _ thread) hsave
            hthread
      | some code =>
          obtain rfl : thread = .saveCode code := by
            cases thread <;> simp_all [Thread.codeToSave]
          exact (hrefers.dequeue _).saveCode hthread (hnames code rfl)
  | watch hdocument hdrop => exact hrefers.watch hdocument hdrop
  | deliver hlistener hundelivered => exact hrefers.deliver hlistener hundelivered

/-- More codes on the server do no harm. -/
theorem Refers.of_codes (hrefers : client.Refers codeFor kept users) {users' : Users}
    (hcodes : users.codes ⊆ users'.codes) : client.Refers codeFor kept users' := by
  have hseen : (client.visible users).codes ⊆ (client.visible users').codes := by
    intro code hcode
    exact mem_codes_visible.mpr ((mem_codes_visible.mp hcode).imp_left fun hmem => hcodes hmem)
  refine ⟨fun thread hthread => ?_, hrefers.writes, fun hkept => (hrefers.outbox hkept).mono hcodes,
    fun partnerCode hvalue => ?_,
    fun documentID data hcaches => (hrefers.cache documentID data hcaches).mono hcodes,
    fun listener hlistener => ?_⟩
  · exact (hrefers.threads thread hthread).mono hcodes (fun _ => hseen) fun _ hown => hown
  · exact (hrefers.partnerCode partnerCode hvalue).imp_right fun hother =>
      ⟨hother.1, fun hkept => hcodes (hother.2 hkept)⟩
  · obtain ⟨hcode, hvalues⟩ := hrefers.listeners listener hlistener
    exact ⟨hcode, fun data hdata => (hvalues data hdata).mono hcodes⟩

theorem Refers.notify (hrefers : client.Refers codeFor kept users) {documentID partnerCode : String}
    (hvalue : NamesOther kept users.codes (codeFor documentID) partnerCode) :
    (client.notify documentID partnerCode).Refers codeFor kept users := by
  refine hrefers.setCache fun target data hcaches => ?_
  rcases caches_notify hcaches with hcaches | ⟨rfl, rfl⟩
  · exact hrefers.cache target data hcaches
  · exact hvalue

theorem Refers.acknowledge (hrefers : client.Refers codeFor kept users)
    {documentID partnerCode : String}
    (hvalue : NamesOther kept users.codes (codeFor documentID) partnerCode) :
    (client.acknowledge documentID partnerCode).Refers codeFor kept users := by
  refine hrefers.setCache fun target data hcaches => ?_
  rcases caches_acknowledge hcaches with hcaches | ⟨rfl, rfl⟩
  · exact hrefers.cache target data hcaches
  · exact hvalue

/-- A write can be taken off the outbox; `kept` says that a document it adds is then
on the server. -/
theorem Refers.settled (hrefers : client.Refers codeFor kept users) {pending : Pending}
    {rest : List Pending} (houtbox : client.outbox = pending :: rest)
    (hadded : kept → ∀ document, pending.write = .addDocument document →
      document.code ∈ users.codes) :
    (client.settled pending rest).Refers codeFor kept users := by
  have hseen : kept → (client.visible users).codes ⊆
      ((client.settled pending rest).visible users).codes := by
    intro hkept code hcode
    rcases mem_codes_visible.mp hcode with hcode | ⟨document, hdocument, rfl⟩
    · exact mem_codes_visible.mpr (.inl hcode)
    · obtain ⟨resume, hpending⟩ := mem_pendingDocuments.mp hdocument
      rw [houtbox] at hpending
      rcases List.mem_cons.mp hpending with rfl | hpending
      · exact mem_codes_visible.mpr (.inl (hadded hkept document rfl))
      · exact mem_codes_visible.mpr
          (.inr ⟨document, mem_pendingDocuments.mpr ⟨resume, hpending⟩, rfl⟩)
  -- the thread that has awaited the write goes on before the listeners are told
  have hresumed : ({ client with
      threads := client.threads ++ pending.resume.toList }.setStore client.cache rest) =
        client.settled pending rest := rfl
  rw [← hresumed]
  refine Refers.setStore ⟨fun thread hthread => ?_, fun other hother => ?_, fun hkept => ?_,
    hrefers.partnerCode, hrefers.cache, hrefers.listeners⟩
  · have hrunning : thread ∈ client.running := running_settled houtbox ▸ hthread
    exact (hrefers.threads thread hrunning).mono (List.Subset.refl _) hseen fun _ hown => hown
  · exact hrefers.writes other (houtbox ▸ List.mem_cons_of_mem _ hother)
  · have hrest := hrefers.outbox hkept
    rw [houtbox] at hrest
    obtain ⟨write, resume⟩ := pending
    cases write with
    | addDocument document =>
        exact hrest.mono (List.cons_subset.mpr ⟨hadded hkept document rfl, List.Subset.refl _⟩)
    | updateData documentID partnerCode => exact hrest.2

theorem OutboxSound.relaunch {codes : List String} {outbox : List Pending}
    (houtbox : OutboxSound codes outbox) :
    OutboxSound codes (outbox.map fun pending => { pending with resume := none }) := by
  induction outbox generalizing codes with
  | nil => trivial
  | cons pending rest ih =>
      obtain ⟨write, resume⟩ := pending
      cases write with
      | addDocument document => exact ih houtbox
      | updateData documentID partnerCode => exact ⟨houtbox.1, ih houtbox.2⟩

theorem Refers.relaunch (hrefers : client.Refers codeFor kept users) :
    client.relaunch.Refers codeFor kept users := by
  refine ⟨fun thread hthread => ?_, fun pending hpending => ?_,
    fun hkept => OutboxSound.relaunch (hrefers.outbox hkept), hrefers.partnerCode, by
      simp [Client.relaunch, Caches], by simp [Client.relaunch]⟩
  · simp [running, Client.relaunch, List.filterMap_map] at hthread
  · obtain ⟨original, horiginal, rfl⟩ := List.mem_map.mp hpending
    exact hrefers.writes original horiginal

end Client

/-! ## Whole runs -/

namespace System

variable {ι : Type*} {codeFor : String → String} {kept : Prop}

structure Refers (codeFor : String → String) (kept : Prop) (state : System ι) : Prop where
  users : UsersRefer codeFor kept state.users
  client : ∀ i, (state.client i).Refers codeFor kept state.users

theorem refers_fresh : (fresh : System ι).Refers codeFor kept where
  users document hdocument := absurd hdocument List.not_mem_nil
  client i := by
    refine ⟨?_, ?_, fun _ => trivial, ?_, ?_, ?_⟩ <;> simp [fresh, Client.running, Client.Caches]

variable [DecidableEq ι]

/-- The value of a write that takes effect can be announced. -/
theorem Refers.announce {state : System ι} (hrefers : state.Refers codeFor kept) (i : ι)
    {documentID partnerCode : String}
    (hvalue : NamesOther kept state.users.codes (codeFor documentID) partnerCode)
    (changed : Bool) : (state.announce i documentID partnerCode changed).Refers codeFor kept := by
  refine ⟨hrefers.users, fun j => ?_⟩
  unfold System.announce
  dsimp only
  split
  · exact (hrefers.client j).acknowledge hvalue
  · split
    · exact (hrefers.client j).notify hvalue
    · exact hrefers.client j

/-- The oldest write of a client can take effect. -/
theorem Refers.commit {state : System ι} (hrefers : state.Refers codeFor kept) {i : ι}
    {pending : Pending} {rest : List Pending}
    (houtbox : (state.client i).outbox = pending :: rest) :
    (state.commit i pending.write).Refers codeFor kept := by
  have hwrite := (hrefers.client i).writes pending (houtbox ▸ List.mem_cons_self)
  have hbacked := (hrefers.client i).outbox
  rw [houtbox] at hbacked
  obtain ⟨write, resume⟩ := pending
  cases write with
  | addDocument document =>
      have hsub : state.users.codes ⊆ (state.users.insertDocument document).codes :=
        fun code hcode => (state.users.codes_insertDocument_perm document).mem_iff.mpr
          (List.mem_cons_of_mem _ hcode)
      have hinserted : Refers codeFor kept
          { state with users := state.users.insertDocument document } := by
        refine ⟨fun other hother => ?_, fun j => (hrefers.client j).of_codes hsub⟩
        rcases Users.mem_insertDocument.mp hother with rfl | hother
        · exact ⟨hwrite.2.1, .inl hwrite.2.2⟩
        · exact ⟨(hrefers.users other hother).1, (hrefers.users other hother).2.mono hsub⟩
      exact hinserted.announce i (.inl hwrite.2.2) false
  | updateData documentID partnerCode =>
      -- the outbox is worked off in order, so the code that it names is on the server
      have hvalue : NamesOther kept state.users.codes (codeFor documentID) partnerCode := by
        rcases hwrite with hblank | hne
        · exact .inl hblank
        · by_cases hblank : Blank partnerCode
          · exact .inl hblank
          · exact .inr ⟨hne, fun hkept => (hbacked hkept).1.resolve_left hblank⟩
      have hcodes := state.users.codes_setPartnerCode documentID partnerCode
      have hsub : state.users.codes ⊆ (state.users.setPartnerCode documentID partnerCode).codes :=
        fun code hcode => hcodes.symm ▸ hcode
      have hupdated : Refers codeFor kept
          { state with users := state.users.setPartnerCode documentID partnerCode } := by
        refine ⟨fun document hdocument => ?_, fun j => (hrefers.client j).of_codes hsub⟩
        obtain ⟨original, horiginal, rfl⟩ := List.mem_map.mp hdocument
        rw [hcodes]
        split
        · rename_i heq
          refine ⟨(hrefers.users original horiginal).1, ?_⟩
          rw [← heq, (hrefers.users original horiginal).1] at hvalue
          exact hvalue
        · exact hrefers.users original horiginal
      exact commit_updateData_rec (fun _ => hrefers) (fun _ => hrefers.announce i hvalue false)
        (fun _ _ _ => hupdated.announce i (hvalue.mono hsub) true)

theorem Refers.set {state : System ι} (hrefers : state.Refers codeFor kept) {i : ι}
    {client : Client} (hclient : client.Refers codeFor kept state.users) :
    (state.set i client).Refers codeFor kept :=
  ⟨hrefers.users, forall_client_set hclient hrefers.client⟩

omit [DecidableEq ι] in
/-- No ID is used for two codes. -/
def IDsOf (codeFor : String → String) (_ : System ι) : Occurrence ι → Prop
  | .event (.act _ action) => Client.NamesCode codeFor action
  | .event (.settle _ _) | .relaunch _ => True

instance (codeFor : String → String) (state : System ι) :
    ∀ occurrence, Decidable (state.IDsOf codeFor occurrence)
  | .event (.act _ action) => inferInstanceAs (Decidable (Client.NamesCode codeFor action))
  | .event (.settle _ _) | .relaunch _ => .isTrue trivial

omit [DecidableEq ι] in
/-- The creation of a document is not rejected. -/
def Creates (state : System ι) : Occurrence ι → Prop
  | .event (.settle i accepted) =>
      accepted = false → ∀ pending ∈ (state.client i).outbox.head?, ¬ pending.write.addsDocument
  | .event (.act _ _) | .relaunch _ => True

instance (state : System ι) : ∀ occurrence, Decidable (state.Creates occurrence)
  | .event (.settle i accepted) => inferInstanceAs (Decidable (accepted = false →
      ∀ pending ∈ (state.client i).outbox.head?, ¬ pending.write.addsDocument))
  | .event (.act _ _) | .relaunch _ => .isTrue trivial

theorem Refers.occur {state next : System ι} {occurrence : Occurrence ι}
    (hrefers : state.Refers codeFor kept) (hnames : state.IDsOf codeFor occurrence)
    (hcreates : kept → state.Creates occurrence) (hoccur : state.occur occurrence = some next) :
    next.Refers codeFor kept := by
  cases occurrence with
  | relaunch i =>
      obtain rfl := Option.some.inj hoccur
      exact hrefers.set (hrefers.client i).relaunch
  | event event =>
      cases transition_of_step hoccur with
      | act htrap hact => exact hrefers.set ((hrefers.client _).act hrefers.users hnames hact)
      | @accept i pending rest houtbox =>
          have hcommit := hrefers.commit houtbox
          obtain ⟨cache, hcache⟩ := state.commit_client i pending.write i
          refine hcommit.set ((hcommit.client i).settled ?_ fun _ document hwrite => ?_)
          · rw [hcache]
            exact houtbox
          · rw [hwrite]
            exact (state.users.codes_insertDocument_perm document).mem_iff.mpr List.mem_cons_self
      | @reject i pending rest houtbox =>
          refine hrefers.set ((hrefers.client i).settled houtbox fun hkept document hwrite => ?_)
          exact absurd (by rw [hwrite]; rfl) (hcreates hkept rfl pending (by simp [houtbox]))

theorem reaches_refers {allowed : System ι → Occurrence ι → Prop} {state : System ι}
    (hallowed : ∀ state occurrence, allowed state occurrence →
      state.IDsOf codeFor occurrence ∧ (kept → state.Creates occurrence))
    (hreach : Reaches occur allowed fresh state) : state.Refers codeFor kept :=
  hreach.invariant refers_fresh fun before occurrence _ hrefers hevent hoccur =>
    hrefers.occur (hallowed before occurrence hevent).1 (hallowed before occurrence hevent).2 hoccur

/-- In every run, no user is its own partner, neither on the server nor on its own
client. -/
theorem no_self_pairing {state : System ι} (hreach : Reaches occur (IDsOf codeFor) fresh state) :
    (∀ document ∈ state.users,
      Blank document.partnerCode ∨ document.partnerCode ≠ document.code) ∧
    ∀ i partnerCode, (state.client i).partnerCode = some partnerCode →
      partnerCode = "" ∨ (state.client i).code ≠ some partnerCode := by
  have hrefers : state.Refers codeFor False :=
    reaches_refers (fun _ _ hnames => ⟨hnames, False.elim⟩) hreach
  refine ⟨fun document hdocument => ?_, fun i partnerCode hvalue => ?_⟩
  · exact (hrefers.users document hdocument).2.imp_right And.left
  · refine ((hrefers.client i).partnerCode partnerCode hvalue).imp_right ?_
    rintro ⟨⟨code, hcode, hne⟩, -⟩ hsame
    exact hne (Option.some.inj (hsame.symm.trans hcode))

/-- In every run in which the creation of no document is rejected, every partner
exists. -/
theorem partner_codes_exist {state : System ι}
    (hreach : Reaches occur (fun state occurrence => state.IDsOf codeFor occurrence ∧
      state.Creates occurrence) fresh state) :
    (∀ document ∈ state.users, BlankOr state.users.codes document.partnerCode) ∧
    ∀ i partnerCode, (state.client i).partnerCode = some partnerCode →
      partnerCode = "" ∨ partnerCode ∈ state.users.codes := by
  have hrefers : state.Refers codeFor True :=
    reaches_refers (fun _ _ hevent => ⟨hevent.1, fun _ => hevent.2⟩) hreach
  refine ⟨fun document hdocument => ?_, fun i partnerCode hvalue => ?_⟩
  · exact (hrefers.users document hdocument).2.imp_right fun hother => hother.2 trivial
  · exact ((hrefers.client i).partnerCode partnerCode hvalue).imp_right fun hother =>
      hother.2 trivial

/-! ### A pair, and a client that is launched again -/

def pairCodes (documentID : String) : String :=
  if documentID = "a" then "AAAAAAAAAA" else "BBBBBBBBBB"

theorem generated_first : CodeManager.Generated "AAAAAAAAAA" := by decide

theorem generated_second : CodeManager.Generated "BBBBBBBBBB" := by decide

theorem first_ne_empty : "a" ≠ "" := by decide

theorem second_ne_empty : "b" ≠ "" := by decide

/-- Two installs are launched, the first connects to the second, and the second is
launched again and hears of it. -/
def pairThenRelaunch : List (Occurrence Bool) :=
  let first := drawing "AAAAAAAAAA" "a" generated_first first_ne_empty
  let second := drawing "BBBBBBBBBB" "b" generated_second second_ne_empty
  let events : List (Event Bool) :=
    launch true "AAAAAAAAAA" first ++ launch false "BBBBBBBBBB" second ++
      connecting true first .main "BBBBBBBBBB" "AAAAAAAAAA" "b" "a" ++
      [.settle true true, .settle true true]
  events.map .event ++
  [.relaunch false, .event (.act false .onAppear),
    .event (.act false (.advance .connectPartner second)),
    .event (.act false (.advance .getPartnerCodeFromServer second)),
    .event (.act false (.deliver 0))]

theorem no_self_pairing_pair : ∃ state : System Bool,
    state.users.map UserDocument.partnerCode = ["BBBBBBBBBB", "AAAAAAAAAA"] ∧
      (∀ document ∈ state.users,
        Blank document.partnerCode ∨ document.partnerCode ≠ document.code) ∧
      (state.client false).partnerCode = some "AAAAAAAAAA" := by
  obtain ⟨state, hreach, hcodes, hstored⟩ : ∃ state : System Bool,
      Reaches occur (IDsOf pairCodes) fresh state ∧
        state.users.map UserDocument.partnerCode = ["BBBBBBBBBB", "AAAAAAAAAA"] ∧
        (state.client false).partnerCode = some "AAAAAAAAAA" :=
    exists_reaches_of_run pairThenRelaunch (by decide)
  exact ⟨state, hcodes, (no_self_pairing hreach).1, hstored⟩

theorem partner_codes_exist_pair : ∃ state : System Bool,
    (state.client false).partnerCode = some "AAAAAAAAAA" ∧ "AAAAAAAAAA" ∈ state.users.codes := by
  obtain ⟨state, hreach, hstored⟩ : ∃ state : System Bool,
      Reaches occur (fun state occurrence => state.IDsOf pairCodes occurrence ∧
        state.Creates occurrence) fresh state ∧
        (state.client false).partnerCode = some "AAAAAAAAAA" :=
    exists_reaches_of_run pairThenRelaunch (by decide)
  exact ⟨state, hstored, ((partner_codes_exist hreach).2 false _ hstored).resolve_left (by decide)⟩

end System

end Pompom
