import Mathlib.Data.List.Induction
import Mathlib.Logic.Function.Basic
import Pompom.Pairing.Users

/-!
# Clients of the users collection

The clients of `API/CodeManager.swift` over one `users` collection.  What runs on
a client (Tasks, dispatched blocks, the rest of a button action) is a list of
`Thread`s, each named after the call that it makes next, and the threads of all
clients interleave at these calls.  `getCode` is one step.

A write goes through the `outbox` of its client, which Firestore works off in
order, and it takes effect when it is settled; an awaited write resumes its thread
then.  A query sees the collection and the documents in the outbox of its own
client.

A client keeps the documents that it listens to in its `cache`.  The writes in its
outbox lie over the cache from the moment they are issued (`localCode`), and one
that is accepted is in the cache.  What the other clients write is on its way to
the cache, which may skip values that are no longer the last.  Whenever the value
of a document changes for its client, by a write of its own or by a value that
arrives, a snapshot is queued at each listener.

`requestClothes` in `connectPartner` and the alerts are left out: neither touches
what is modelled here.
-/

namespace Pompom

/-- The screen on which the partner's code is entered. -/
inductive Origin where
  | main
  | settings
  deriving DecidableEq, Repr

/-- The two calls of `updatePartnerCodeBy` that `deletePartnerCode` makes. -/
inductive Side where
  | partner
  | own
  deriving DecidableEq, Repr

/-- What a thread of a client does next. -/
inductive Thread where
  /-- The block that `getCode` dispatches. -/
  | saveCode (code : String)
  /-- The Task of `connectPartner`. -/
  | connectPartner
  | getPartnerCodeFromServer
  /-- The first guard of `connectWithPartner`. -/
  | connectWithPartner (origin : Origin) (partnerCode : String)
  | isExistingCode (origin : Origin) (partnerCode : String)
  | getOwnId (origin : Origin) (partnerCode : String)
  | getPartnerId (origin : Origin) (partnerCode ownCode ownId : String)
  | updateOwn (origin : Origin) (partnerCode ownCode ownId partnerId : String)
  | updatePartner (origin : Origin) (partnerCode ownCode partnerId : String)
  /-- The assignment to UserDefaults at the end of `connectWithPartner`. -/
  | setPartnerCode (origin : Origin) (partnerCode : String)
  | didConnectedPartner (origin : Origin)
  /-- The Task of `deletePartnerCode`, which evaluates the argument of its next
  `updatePartnerCodeBy`. -/
  | deletePartnerCode (side : Side)
  | updatePartnerCodeBy (side : Side) (code : String)
  /-- The rest of `deletePartnerCode` after the Task is created. -/
  | removePartnerCode
  /-- The completion of `deletePartnerCode`. -/
  | didDeletePartnerCode
  | requestPartnerClothes
  deriving DecidableEq, Repr

/-- What the Task of `deletePartnerCode` does after a call of `updatePartnerCodeBy`. -/
def Side.rest : Side → Option Thread
  | .partner => some (.deletePartnerCode .own)
  | .own => none

/-- A write to the users collection. -/
inductive Write where
  | addDocument (document : UserDocument)
  | updateData (documentID partnerCode : String)
  deriving DecidableEq, Repr

/-- A write in flight, and the thread that awaits it. -/
structure Pending where
  write : Write
  resume : Option Thread := none
  deriving DecidableEq, Repr

namespace Write

/-- The document that is written. -/
def documentID : Write → String
  | .addDocument document => document.documentID
  | .updateData documentID _ => documentID

/-- The `partner_code` that is written. -/
def partnerCode : Write → String
  | .addDocument document => document.partnerCode
  | .updateData _ partnerCode => partnerCode

/-- The value of a document once the write lies over it.  An update needs a document. -/
def overlay (documentID : String) (value : Option String) (write : Write) : Option String :=
  if write.documentID = documentID then
    match write with
    | .addDocument document => some document.partnerCode
    | .updateData _ partnerCode => value.map fun _ => partnerCode
  else value

end Write

/-- A document in the cache, with the later `partner_code`s that are on their way from
the server. -/
structure CachedDocument where
  documentID : String
  partnerCode : Option String
  incoming : List String
  deriving DecidableEq, Repr

/-- The listener of `getPartnerCodeFromServer`, with the `partner_code`s of the
snapshots that it has yet to handle. -/
structure UserListener where
  documentID : String
  undelivered : List String
  deriving DecidableEq, Repr

/-- A snapshot is queued if the value of the document has changed. -/
def UserListener.raise (listener : UserListener) (before after : Option String) : UserListener :=
  if after = before then listener
  else { listener with undelivered := listener.undelivered ++ after.toList }

structure Client where
  /-- UserDefaults `code`. -/
  code : Option String := none
  /-- UserDefaults `partner_code`. -/
  partnerCode : Option String := none
  isConnectedPartner : Bool := false
  threads : List Thread := []
  outbox : List Pending := []
  cache : List CachedDocument := []
  listeners : List UserListener := []
  trap : Option Trap := none
  deriving DecidableEq, Repr

/-- What a step of a thread takes from outside: whether its query succeeds, the
code that `generateCode` draws, and the ID of a document that it adds. -/
structure Choice where
  succeeds : Bool
  newCode : String
  documentID : String
  generated : CodeManager.Generated newCode
  documentID_ne_empty : documentID ≠ ""

/-- What happens on one client. -/
inductive Action where
  /-- The main screen appears and calls `connectPartner`. -/
  | onAppear
  /-- Another screen calls `getCode`. -/
  | getCode (choice : Choice)
  /-- The user confirms a partner's code. -/
  | enterCode (origin : Origin) (partnerCode : String)
  /-- The user confirms the disconnect dialog. -/
  | disconnect
  /-- A thread makes its next step. -/
  | advance (thread : Thread) (choice : Choice)
  /-- A value from the server reaches the cache; those before it are skipped. -/
  | watch (document skipped : ℕ)
  /-- A listener handles a snapshot. -/
  | deliver (listener : ℕ)

namespace Client

/-- The result of `getCode`, once it has been called. -/
def ownCode (client : Client) : String := client.code.getD ""

def getPartnerCode (client : Client) : String := client.partnerCode.getD ""

@[simp] def spawn (client : Client) (thread : Thread) : Client :=
  { client with threads := client.threads ++ [thread] }

def cachedCode (cache : List CachedDocument) (documentID : String) : Option String :=
  (cache.find? fun document => document.documentID = documentID).bind (·.partnerCode)

/-- The value of a document as its client sees it. -/
def localCode (cache : List CachedDocument) (outbox : List Pending) (documentID : String) :
    Option String :=
  outbox.foldl (fun value pending => pending.write.overlay documentID value)
    (cachedCode cache documentID)

/-- The cache or the outbox changes, and the listeners are told what that changes for
them. -/
@[simp] def setStore (client : Client) (cache : List CachedDocument) (outbox : List Pending) :
    Client :=
  { client with
    cache := cache
    outbox := outbox
    listeners := client.listeners.map fun listener =>
      listener.raise (localCode client.cache client.outbox listener.documentID)
        (localCode cache outbox listener.documentID) }

@[simp] def issue (client : Client) (write : Write) (resume : Option Thread) : Client :=
  client.setStore client.cache (client.outbox ++ [⟨write, resume⟩])

@[simp] def halt (client : Client) (trap : Trap) : Client :=
  { client with trap := some trap }

/-- The threads, with those that await a write. -/
def running (client : Client) : List Thread :=
  client.threads ++ client.outbox.filterMap (·.resume)

/-- The documents that are still on their way to the server. -/
def pendingDocuments (client : Client) : List UserDocument :=
  client.outbox.filterMap fun pending =>
    match pending.write with
    | .addDocument document => some document
    | .updateData _ _ => none

/-- The collection as a query of this client sees it. -/
def visible (users : Users) (client : Client) : Users :=
  client.pendingDocuments.foldl Users.insertDocument users

/-- The outcome of `whereField("code", isEqualTo: code).getDocuments()`. -/
def query (users : Users) (client : Client) (succeeds : Bool) (code : String) :
    Option (List UserDocument) :=
  if succeeds then some ((client.visible users).whereCode code) else none

/-- `getCode`, up to its result. -/
def getCode (client : Client) (newCode : String) : Client :=
  match client.code with
  | some _ => client
  | none => { client with code := some newCode }.spawn (.saveCode newCode)

/-- `getIdByCode`, and what its caller does with the ID. -/
def getIdByCode (users : Users) (client : Client) (succeeds : Bool) (code : String)
    (next : String → Client) : Client :=
  match ConnectionManager.getIdByCode (client.query users succeeds code) with
  | .ok documentID => next documentID
  | .error trap => client.halt trap

/-- `usersRef.document(documentID)`, and what its caller does with the reference. -/
def document (client : Client) (documentID : String) (next : Client) : Client :=
  if documentID = "" then client.halt .emptyDocumentID else next

/-- The cache once the client listens to a document. -/
def caching (users : Users) (cache : List CachedDocument) (documentID : String) :
    List CachedDocument :=
  if ∃ document ∈ cache, document.documentID = documentID then cache
  else cache ++ [⟨documentID, users.partnerCodeOf documentID, []⟩]

/-- `addSnapshotListener`, with the first snapshot. -/
def addSnapshotListener (users : Users) (client : Client) (documentID : String) : Client :=
  let cache := caching users client.cache documentID
  { client with
    cache := cache
    listeners := client.listeners ++
      [⟨documentID, (localCode cache client.outbox documentID).toList⟩] }

/-- A thread is taken off the list to make its next step. -/
def dequeue (client : Client) (thread : Thread) : Client :=
  { client with threads := client.threads.erase thread }

/-- The next step of a thread that has been taken off the list. -/
def advance (users : Users) (choice : Choice) (client : Client) : Thread → Client
  | .saveCode code =>
      client.issue (.addDocument (ConnectionManager.newDocument choice.documentID code)) none
  | .connectPartner => (client.getCode choice.newCode).spawn .getPartnerCodeFromServer
  | .getPartnerCodeFromServer =>
      let client := client.getCode choice.newCode
      client.getIdByCode users choice.succeeds client.ownCode fun documentID =>
        client.document documentID (client.addSnapshotListener users documentID)
  | .connectWithPartner origin partnerCode =>
      let client := client.getCode choice.newCode
      if CodeManager.SameCode partnerCode client.ownCode then client
      else client.spawn (.isExistingCode origin partnerCode)
  | .isExistingCode origin partnerCode =>
      if ConnectionManager.isExistingCode (client.query users choice.succeeds partnerCode) then
        client.spawn (.getOwnId origin partnerCode)
      else client
  | .getOwnId origin partnerCode =>
      let client := client.getCode choice.newCode
      client.getIdByCode users choice.succeeds client.ownCode fun ownId =>
        client.spawn (.getPartnerId origin partnerCode client.ownCode ownId)
  | .getPartnerId origin partnerCode ownCode ownId =>
      client.getIdByCode users choice.succeeds partnerCode fun partnerId =>
        client.spawn (.updateOwn origin partnerCode ownCode ownId partnerId)
  | .updateOwn origin partnerCode ownCode ownId partnerId =>
      client.document ownId ((client.issue (.updateData ownId partnerCode) none).spawn
        (.updatePartner origin partnerCode ownCode partnerId))
  | .updatePartner origin partnerCode ownCode partnerId =>
      client.document partnerId ((client.issue (.updateData partnerId ownCode) none).spawn
        (.setPartnerCode origin partnerCode))
  | .setPartnerCode origin partnerCode =>
      { client with partnerCode := some partnerCode }.spawn (.didConnectedPartner origin)
  | .didConnectedPartner .main =>
      { client with isConnectedPartner := true }.spawn .requestPartnerClothes
  | .didConnectedPartner .settings => client
  | .deletePartnerCode .partner =>
      client.spawn (.updatePartnerCodeBy .partner client.getPartnerCode)
  | .deletePartnerCode .own =>
      let client := client.getCode choice.newCode
      client.spawn (.updatePartnerCodeBy .own client.ownCode)
  | .updatePartnerCodeBy side code =>
      client.getIdByCode users choice.succeeds code fun documentID =>
        client.document documentID (client.issue (.updateData documentID " ") side.rest)
  | .removePartnerCode => { client with partnerCode := none }.spawn .didDeletePartnerCode
  | .didDeletePartnerCode => { client with isConnectedPartner := false }
  | .requestPartnerClothes =>
      if client.partnerCode = some "" then client.halt .emptyClothesCode else client

/-- The new value of a document is on its way to the cache. -/
def notify (client : Client) (documentID partnerCode : String) : Client :=
  { client with
    cache := client.cache.map fun document =>
      if document.documentID = documentID then
        { document with incoming := document.incoming ++ [partnerCode] }
      else document }

/-- A write of the client itself has been accepted.  It is later than all values that
are on their way. -/
def acknowledge (client : Client) (documentID partnerCode : String) : Client :=
  { client with
    cache := client.cache.map fun document =>
      if document.documentID = documentID then ⟨documentID, some partnerCode, []⟩ else document }

/-- The listener of `getPartnerCodeFromServer` with the completion that
`connectPartner` passes. -/
def receive (client : Client) (data : String) : Client :=
  if CodeManager.partnerCodeFromServer data = "" then
    { client with
      partnerCode := some (CodeManager.partnerCodeFromServer data)
      isConnectedPartner := false }
  else
    { client with
      partnerCode := some (CodeManager.partnerCodeFromServer data)
      isConnectedPartner := true }.spawn .requestPartnerClothes

/-- One of the values on their way to the cache arrives. -/
def watch (client : Client) (index skipped : ℕ) : Option Client :=
  match client.cache[index]? with
  | none => none
  | some document =>
      match document.incoming.drop skipped with
      | [] => none
      | partnerCode :: incoming =>
          some (client.setStore
            (client.cache.set index ⟨document.documentID, some partnerCode, incoming⟩)
            client.outbox)

/-- A listener handles the next of its snapshots. -/
def deliver (client : Client) (index : ℕ) : Option Client :=
  match client.listeners[index]? with
  | none => none
  | some listener =>
      match listener.undelivered with
      | [] => none
      | data :: rest =>
          some ({ client with
            listeners := client.listeners.set index { listener with undelivered := rest } }.receive
              data)

/-- The oldest write is taken off the outbox, and what awaits it goes on. -/
def settled (client : Client) (pending : Pending) (rest : List Pending) : Client :=
  { client.setStore client.cache rest with
    threads := client.threads ++ pending.resume.toList }

/-- The effect of an action of this client, if it can happen. -/
def act (users : Users) (client : Client) : Action → Option Client
  | .onAppear => some (client.spawn .connectPartner)
  | .getCode choice => some (client.getCode choice.newCode)
  | .enterCode origin partnerCode => some (client.spawn (.connectWithPartner origin partnerCode))
  | .disconnect => some ((client.spawn (.deletePartnerCode .partner)).spawn .removePartnerCode)
  | .advance thread choice =>
      if thread ∈ client.threads then
        some ((client.dequeue thread).advance users choice thread)
      else none
  | .watch document skipped => client.watch document skipped
  | .deliver listener => client.deliver listener

/-- The transitions of `act`. -/
inductive Transition (users : Users) (client : Client) : Action → Client → Prop where
  | onAppear : Transition users client .onAppear (client.spawn .connectPartner)
  | getCode (choice : Choice) :
      Transition users client (.getCode choice) (client.getCode choice.newCode)
  | enterCode (origin : Origin) (partnerCode : String) :
      Transition users client (.enterCode origin partnerCode)
        (client.spawn (.connectWithPartner origin partnerCode))
  | disconnect :
      Transition users client .disconnect
        ((client.spawn (.deletePartnerCode .partner)).spawn .removePartnerCode)
  | advance {thread : Thread} {choice : Choice} (hmem : thread ∈ client.threads) :
      Transition users client (.advance thread choice)
        ((client.dequeue thread).advance users choice thread)
  | watch {index skipped : ℕ} {document : CachedDocument} {partnerCode : String}
      {incoming : List String} (hdocument : client.cache[index]? = some document)
      (hdrop : document.incoming.drop skipped = partnerCode :: incoming) :
      Transition users client (.watch index skipped)
        (client.setStore
          (client.cache.set index ⟨document.documentID, some partnerCode, incoming⟩) client.outbox)
  | deliver {index : ℕ} {listener : UserListener} {data : String} {rest : List String}
      (hlistener : client.listeners[index]? = some listener)
      (hundelivered : listener.undelivered = data :: rest) :
      Transition users client (.deliver index)
        ({ client with
          listeners := client.listeners.set index { listener with undelivered := rest } }.receive
            data)

theorem transition_of_act {users : Users} {client next : Client} {action : Action}
    (hact : client.act users action = some next) : Transition users client action next := by
  cases action with
  | onAppear =>
      obtain rfl := Option.some.inj hact
      exact .onAppear
  | getCode choice =>
      obtain rfl := Option.some.inj hact
      exact .getCode choice
  | enterCode origin partnerCode =>
      obtain rfl := Option.some.inj hact
      exact .enterCode origin partnerCode
  | disconnect =>
      obtain rfl := Option.some.inj hact
      exact .disconnect
  | advance thread choice =>
      rw [act] at hact
      split at hact
      · obtain rfl := Option.some.inj hact
        exact .advance (by assumption)
      · simp at hact
  | watch index skipped =>
      rw [act, watch] at hact
      split at hact
      · simp at hact
      · split at hact
        · simp at hact
        · obtain rfl := Option.some.inj hact
          exact .watch (by assumption) (by assumption)
  | deliver index =>
      rw [act, deliver] at hact
      split at hact
      · simp at hact
      · split at hact
        · simp at hact
        · obtain rfl := Option.some.inj hact
          exact .deliver (by assumption) (by assumption)

/-! ### What the listeners are told -/

theorem overlay_cases {write : Write} {documentID data : String} {value : Option String}
    (hdata : write.overlay documentID value = some data) :
    value = some data ∨ write.documentID = documentID ∧ write.partnerCode = data := by
  unfold Write.overlay at hdata
  split at hdata
  · cases write with
    | addDocument document => exact .inr ⟨by assumption, Option.some.inj hdata⟩
    | updateData target partnerCode =>
        obtain ⟨-, -, rfl⟩ := Option.map_eq_some_iff.mp hdata
        exact .inr ⟨by assumption, rfl⟩
  · exact .inl hdata

theorem localCode_concat (cache : List CachedDocument) (outbox : List Pending)
    (pending : Pending) (documentID : String) :
    localCode cache (outbox ++ [pending]) documentID =
      pending.write.overlay documentID (localCode cache outbox documentID) := by
  rw [localCode, List.foldl_append]
  rfl

/-- The cache holds a value of a document, or one is on its way to it. -/
def Caches (cache : List CachedDocument) (documentID data : String) : Prop :=
  ∃ document ∈ cache, document.documentID = documentID ∧
    (document.partnerCode = some data ∨ data ∈ document.incoming)

theorem caches_of_cachedCode {cache : List CachedDocument} {documentID data : String}
    (hdata : cachedCode cache documentID = some data) : Caches cache documentID data := by
  obtain ⟨document, hfind, hvalue⟩ := Option.bind_eq_some_iff.mp hdata
  have hdocumentID : document.documentID = documentID := by simpa using List.find?_some hfind
  exact ⟨document, List.mem_of_find?_eq_some hfind, hdocumentID, .inl hvalue⟩

theorem caches_caching {users : Users} {cache : List CachedDocument}
    {documentID other data : String}
    (hcaches : Caches (caching users cache other) documentID data) :
    Caches cache documentID data ∨
      other = documentID ∧ users.partnerCodeOf documentID = some data := by
  unfold caching at hcaches
  split at hcaches
  · exact .inl hcaches
  · obtain ⟨document, hmem, rfl, hdata⟩ := hcaches
    rcases List.mem_append.mp hmem with hmem | hmem
    · exact .inl ⟨document, hmem, rfl, hdata⟩
    · obtain rfl := List.mem_singleton.mp hmem
      exact .inr ⟨rfl, hdata.resolve_right List.not_mem_nil⟩

theorem caches_notify {client : Client} {documentID partnerCode other data : String}
    (hcaches : Caches (client.notify documentID partnerCode).cache other data) :
    Caches client.cache other data ∨ documentID = other ∧ partnerCode = data := by
  obtain ⟨document, hmem, rfl, hdata⟩ := hcaches
  obtain ⟨original, horiginal, rfl⟩ := List.mem_map.mp hmem
  split at hdata
  · rename_i heq
    simp only [heq, if_true]
    rcases hdata with hdata | hdata
    · exact .inl ⟨original, horiginal, heq, .inl hdata⟩
    · rcases List.mem_append.mp hdata with hdata | hdata
      · exact .inl ⟨original, horiginal, heq, .inr hdata⟩
      · exact .inr ⟨trivial, (List.mem_singleton.mp hdata).symm⟩
  · rename_i hne
    simp only [hne, if_false]
    exact .inl ⟨original, horiginal, rfl, hdata⟩

theorem caches_acknowledge {client : Client} {documentID partnerCode other data : String}
    (hcaches : Caches (client.acknowledge documentID partnerCode).cache other data) :
    Caches client.cache other data ∨ documentID = other ∧ partnerCode = data := by
  obtain ⟨document, hmem, rfl, hdata⟩ := hcaches
  obtain ⟨original, horiginal, rfl⟩ := List.mem_map.mp hmem
  split at hdata
  · rename_i heq
    simp only [heq, if_true]
    exact .inr ⟨trivial, Option.some.inj (hdata.resolve_right List.not_mem_nil)⟩
  · rename_i hne
    simp only [hne, if_false]
    exact .inl ⟨original, horiginal, rfl, hdata⟩

/-- A value that arrives was on its way. -/
theorem caches_watch {cache : List CachedDocument} {index skipped : ℕ}
    {document : CachedDocument} {partnerCode : String} {incoming : List String}
    (hdocument : cache[index]? = some document)
    (hdrop : document.incoming.drop skipped = partnerCode :: incoming) {documentID data : String}
    (hcaches : Caches (cache.set index ⟨document.documentID, some partnerCode, incoming⟩)
      documentID data) : Caches cache documentID data := by
  have hsub : partnerCode :: incoming ⊆ document.incoming := hdrop ▸ List.drop_subset _ _
  obtain ⟨other, hmem, rfl, hdata⟩ := hcaches
  rcases List.mem_or_eq_of_mem_set hmem with hmem | rfl
  · exact ⟨other, hmem, rfl, hdata⟩
  · refine ⟨document, List.mem_of_getElem? hdocument, rfl, .inr (hsub ?_)⟩
    rcases hdata with hdata | hdata
    · rw [Option.some.inj hdata]
      exact List.mem_cons_self
    · exact List.mem_cons_of_mem _ hdata

/-- What a client sees of a document is in its cache, or a write of its own. -/
theorem localCode_cases {cache : List CachedDocument} {outbox : List Pending}
    {documentID data : String} (hdata : localCode cache outbox documentID = some data) :
    Caches cache documentID data ∨
      ∃ pending ∈ outbox, pending.write.documentID = documentID ∧
        pending.write.partnerCode = data := by
  induction outbox using List.reverseRecOn with
  | nil => exact .inl (caches_of_cachedCode hdata)
  | append_singleton outbox last ih =>
      rw [localCode_concat] at hdata
      rcases overlay_cases hdata with hdata | hwrite
      · refine (ih hdata).imp_right ?_
        rintro ⟨pending, hpending, hwrite⟩
        exact ⟨pending, List.mem_append_left _ hpending, hwrite⟩
      · exact .inr ⟨last, List.mem_append_right _ (List.mem_singleton.mpr rfl), hwrite⟩

@[simp] theorem documentID_raise (listener : UserListener) (before after : Option String) :
    (listener.raise before after).documentID = listener.documentID := by
  unfold UserListener.raise
  split <;> rfl

theorem mem_undelivered_raise {listener : UserListener} {before after : Option String}
    {data : String} (hdata : data ∈ (listener.raise before after).undelivered) :
    data ∈ listener.undelivered ∨ after = some data := by
  unfold UserListener.raise at hdata
  split at hdata
  · exact .inl hdata
  · exact (List.mem_append.mp hdata).imp_right Option.mem_toList.mp

theorem exists_listener_setStore {client : Client} {cache : List CachedDocument}
    {outbox : List Pending} {listener : UserListener}
    (hlistener : listener ∈ (client.setStore cache outbox).listeners) :
    ∃ original ∈ client.listeners, original.documentID = listener.documentID := by
  obtain ⟨original, horiginal, rfl⟩ := List.mem_map.mp hlistener
  exact ⟨original, horiginal, (documentID_raise _ _ _).symm⟩

/-- What holds of all undelivered snapshots, and of what the client sees after a change
of its store, holds of all undelivered snapshots then. -/
theorem forall_undelivered_setStore {client : Client} {cache : List CachedDocument}
    {outbox : List Pending} {P : String → String → Prop}
    (hlisteners : ∀ listener ∈ client.listeners, ∀ data ∈ listener.undelivered,
      P listener.documentID data)
    (hlocal : ∀ listener ∈ client.listeners, ∀ data,
      localCode cache outbox listener.documentID = some data → P listener.documentID data) :
    ∀ listener ∈ (client.setStore cache outbox).listeners, ∀ data ∈ listener.undelivered,
      P listener.documentID data := by
  intro listener hlistener data hdata
  obtain ⟨original, horiginal, rfl⟩ := List.mem_map.mp hlistener
  rw [documentID_raise]
  rcases mem_undelivered_raise hdata with hdata | hdata
  · exact hlisteners original horiginal data hdata
  · exact hlocal original horiginal data hdata

theorem advance_of_act {users : Users} {client next : Client} {thread : Thread}
    {choice : Choice} (hact : client.act users (.advance thread choice) = some next) :
    thread ∈ client.threads ∧ next = (client.dequeue thread).advance users choice thread := by
  cases transition_of_act hact with
  | advance hmem => exact ⟨hmem, rfl⟩

theorem ownCode_eq {client : Client} {code : String} (hcode : client.code = some code) :
    client.ownCode = code := by
  simp [ownCode, hcode]

/-- Once there is a code, `getCode` only returns it. -/
theorem getCode_of_some {client : Client} {code : String} (hcode : client.code = some code)
    (newCode : String) : client.getCode newCode = client := by
  simp [getCode, hcode]

/-- After `getCode` there is a code, and it is what `getCode` returned. -/
theorem getCode_code (client : Client) (newCode : String) :
    (client.getCode newCode).code = some (client.getCode newCode).ownCode := by
  unfold getCode
  split
  · rename_i hcode
    rw [ownCode_eq hcode, hcode]
  · rfl

@[simp] theorem pendingDocuments_issue_addDocument (client : Client) (document : UserDocument)
    (resume : Option Thread) :
    (client.issue (.addDocument document) resume).pendingDocuments =
      client.pendingDocuments ++ [document] := by
  simp [pendingDocuments]

@[simp] theorem pendingDocuments_issue_updateData (client : Client)
    (documentID partnerCode : String) (resume : Option Thread) :
    (client.issue (.updateData documentID partnerCode) resume).pendingDocuments =
      client.pendingDocuments := by
  simp [pendingDocuments]

theorem visible_issue_updateData (users : Users) (client : Client)
    (documentID partnerCode : String) (resume : Option Thread) :
    (client.issue (.updateData documentID partnerCode) resume).visible users =
      client.visible users := by
  rw [visible, visible, pendingDocuments_issue_updateData]

theorem mem_pendingDocuments {client : Client} {document : UserDocument} :
    document ∈ client.pendingDocuments ↔
      ∃ resume, (⟨.addDocument document, resume⟩ : Pending) ∈ client.outbox := by
  unfold pendingDocuments
  rw [List.mem_filterMap]
  constructor
  · rintro ⟨⟨write, resume⟩, hmem, hwrite⟩
    cases write with
    | addDocument other =>
        obtain rfl := Option.some.inj hwrite
        exact ⟨resume, hmem⟩
    | updateData documentID partnerCode => simp at hwrite
  · rintro ⟨resume, hmem⟩
    exact ⟨_, hmem, rfl⟩

theorem mem_visible {users : Users} {client : Client} {document : UserDocument} :
    document ∈ client.visible users ↔ document ∈ users ∨ document ∈ client.pendingDocuments := by
  unfold visible
  generalize client.pendingDocuments = documents
  induction documents generalizing users with
  | nil => simp
  | cons first rest ih =>
      rw [List.foldl_cons, ih, Users.mem_insertDocument, List.mem_cons]
      exact or_assoc.trans or_left_comm

theorem mem_codes_visible {users : Users} {client : Client} {code : String} :
    code ∈ (client.visible users).codes ↔
      code ∈ users.codes ∨ ∃ document ∈ client.pendingDocuments, document.code = code := by
  simp only [Users.codes, List.mem_map, mem_visible, or_and_right, exists_or]

/-- A code that `isExistingCode` finds is on the server or on its way there. -/
theorem mem_codes_of_existing {users : Users} {client : Client} {succeeds : Bool} {code : String}
    (hexisting : ConnectionManager.isExistingCode (client.query users succeeds code) = true) :
    code ∈ (client.visible users).codes := by
  refine Users.whereCode_ne_nil.mp ?_
  intro hnil
  unfold query at hexisting
  split at hexisting
  · simp [ConnectionManager.isExistingCode, hnil] at hexisting
  · simp [ConnectionManager.isExistingCode] at hexisting

/-- A query that succeeds finds the ID of a code that is there. -/
theorem getIdByCode_eq {users : Users} {client : Client} {code : String}
    (hcode : code ∈ (client.visible users).codes) :
    ∃ document ∈ client.visible users, document.code = code ∧
      ∀ next, client.getIdByCode users true code next = next document.documentID := by
  obtain ⟨document, rest, hresult⟩ := List.exists_cons_of_ne_nil (Users.whereCode_ne_nil.mpr hcode)
  have hmem : document ∈ (client.visible users).whereCode code := by
    rw [hresult]
    exact List.mem_cons_self
  obtain ⟨hvisible, heq⟩ := Users.mem_whereCode.mp hmem
  refine ⟨document, hvisible, heq, fun next => ?_⟩
  simp [getIdByCode, query, hresult, ConnectionManager.getIdByCode]

theorem document_of_ne {client next : Client} {documentID : String} (hne : documentID ≠ "") :
    client.document documentID next = next :=
  if_neg hne

@[simp] theorem mem_running_spawn {client : Client} {spawned thread : Thread} :
    thread ∈ (client.spawn spawned).running ↔ thread = spawned ∨ thread ∈ client.running := by
  simp only [running, spawn, List.mem_append, List.mem_singleton]
  exact or_right_comm.trans or_comm

@[simp] theorem mem_running_issue {client : Client} {write : Write} {resume : Option Thread}
    {thread : Thread} :
    thread ∈ (client.issue write resume).running ↔ thread ∈ resume ∨ thread ∈ client.running := by
  cases resume with
  | none => simp [running]
  | some resumed =>
      simp only [running, issue, setStore, List.filterMap_append, List.mem_append,
        List.filterMap_cons, List.filterMap_nil, List.mem_singleton, Option.mem_some_iff]
      exact or_assoc.symm.trans (or_comm.trans (or_congr_left eq_comm))

/-- The threads that run after a step were running before, or the step has started
them. -/
def Continues (Started : Thread → Prop) (client next : Client) : Prop :=
  ∀ thread ∈ next.running, thread ∈ client.running ∨ Started thread

theorem continues_refl (Started : Thread → Prop) (client : Client) :
    Continues Started client client :=
  fun _ hthread => .inl hthread

theorem Continues.spawn {Started : Thread → Prop} {client next : Client}
    (hcontinues : Continues Started client next) {thread : Thread} (hthread : Started thread) :
    Continues Started client (next.spawn thread) := by
  intro other hother
  rcases mem_running_spawn.mp hother with rfl | hother
  · exact .inr hthread
  · exact hcontinues other hother

theorem Continues.issue {Started : Thread → Prop} {client next : Client}
    (hcontinues : Continues Started client next) (write : Write) {resume : Option Thread}
    (hresume : ∀ thread ∈ resume, Started thread) :
    Continues Started client (next.issue write resume) := by
  intro other hother
  rcases mem_running_issue.mp hother with hother | hother
  · exact .inr (hresume other hother)
  · exact hcontinues other hother

/-- Some thread runs after one has been spawned. -/
theorem exists_running_spawn {client : Client} {spawned : Thread} {P : Thread → Prop} :
    (∃ thread ∈ (client.spawn spawned).running, P thread) ↔
      (∃ thread ∈ client.running, P thread) ∨ P spawned := by
  simp only [mem_running_spawn, exists_eq_or_imp]
  exact or_comm

@[simp] theorem ownCode_dequeue (client : Client) (thread : Thread) :
    (client.dequeue thread).ownCode = client.ownCode := rfl

theorem running_dequeue_subset (client : Client) (thread : Thread) :
    (client.dequeue thread).running ⊆ client.running :=
  List.append_subset.mpr ⟨fun _ hmem => List.mem_append_left _ (List.mem_of_mem_erase hmem),
    fun _ hmem => List.mem_append_right _ hmem⟩

theorem mem_running_dequeue {client : Client} {thread other : Thread}
    (hmem : thread ∈ client.threads) :
    other ∈ client.running ↔
      other = thread ∨ other ∈ (client.dequeue thread).running := by
  simp only [running, dequeue, List.mem_append, (List.perm_cons_erase hmem).mem_iff (a := other),
    List.mem_cons, or_assoc]

/-- Some thread runs: the one that is taken off the list, or another. -/
theorem exists_running_dequeue {client : Client} {taken : Thread} (hmem : taken ∈ client.threads)
    {P : Thread → Prop} :
    (∃ thread ∈ client.running, P thread) ↔
      (∃ thread ∈ (client.dequeue taken).running, P thread) ∨ P taken := by
  simp only [mem_running_dequeue hmem, exists_eq_or_imp]
  exact or_comm

theorem running_settled {client : Client} {pending : Pending} {rest : List Pending}
    (houtbox : client.outbox = pending :: rest) :
    (client.settled pending rest).running = client.running := by
  cases hresume : pending.resume <;> simp [running, settled, houtbox, hresume]

/-- A property of the outcome of `getIdByCode` is shown for each way it can end. -/
theorem getIdByCode_rec {users : Users} {client : Client} {succeeds : Bool} {code : String}
    {next : String → Client} {P : Client → Prop}
    (hnext : ∀ documentID,
      ConnectionManager.getIdByCode (client.query users succeeds code) = .ok documentID →
        P (next documentID))
    (hhalt : ∀ trap,
      ConnectionManager.getIdByCode (client.query users succeeds code) = .error trap →
        P (client.halt trap)) :
    P (client.getIdByCode users succeeds code next) := by
  unfold getIdByCode
  split
  · exact hnext _ (by assumption)
  · exact hhalt _ (by assumption)

theorem document_rec {client next : Client} {documentID : String} {P : Client → Prop}
    (hhalt : documentID = "" → P (client.halt .emptyDocumentID))
    (hnext : documentID ≠ "" → P next) : P (client.document documentID next) := by
  unfold document
  split
  · exact hhalt (by assumption)
  · exact hnext (by assumption)

/-! ### Steps of a thread -/

/-- How a step of a thread can end.  A process ends where a lookup fails on a missing
document, or at a document without an ID. -/
inductive Advances (users : Users) (choice : Choice) (client : Client) :
    Thread → Client → Prop where
  | saveCode (code : String) :
      Advances users choice client (.saveCode code)
        (client.issue (.addDocument (ConnectionManager.newDocument choice.documentID code)) none)
  | connectPartner :
      Advances users choice client .connectPartner
        ((client.getCode choice.newCode).spawn .getPartnerCodeFromServer)
  | getPartnerCodeFromServer {documentID : String}
      (hfound : ConnectionManager.getIdByCode ((client.getCode choice.newCode).query users
        choice.succeeds (client.getCode choice.newCode).ownCode) = .ok documentID)
      (hne : documentID ≠ "") :
      Advances users choice client .getPartnerCodeFromServer
        ((client.getCode choice.newCode).addSnapshotListener users documentID)
  | callMySelf {origin : Origin} {partnerCode : String}
      (hsame : CodeManager.SameCode partnerCode (client.getCode choice.newCode).ownCode) :
      Advances users choice client (.connectWithPartner origin partnerCode)
        (client.getCode choice.newCode)
  | connectWithPartner {origin : Origin} {partnerCode : String}
      (hother : ¬ CodeManager.SameCode partnerCode (client.getCode choice.newCode).ownCode) :
      Advances users choice client (.connectWithPartner origin partnerCode)
        ((client.getCode choice.newCode).spawn (.isExistingCode origin partnerCode))
  | invalidPartnerCode {origin : Origin} {partnerCode : String}
      (hmissing : ¬ ConnectionManager.isExistingCode
        (client.query users choice.succeeds partnerCode) = true) :
      Advances users choice client (.isExistingCode origin partnerCode) client
  | isExistingCode {origin : Origin} {partnerCode : String}
      (hexisting : ConnectionManager.isExistingCode
        (client.query users choice.succeeds partnerCode) = true) :
      Advances users choice client (.isExistingCode origin partnerCode)
        (client.spawn (.getOwnId origin partnerCode))
  | getOwnId {origin : Origin} {partnerCode ownId : String}
      (hfound : ConnectionManager.getIdByCode ((client.getCode choice.newCode).query users
        choice.succeeds (client.getCode choice.newCode).ownCode) = .ok ownId) :
      Advances users choice client (.getOwnId origin partnerCode)
        ((client.getCode choice.newCode).spawn
          (.getPartnerId origin partnerCode (client.getCode choice.newCode).ownCode ownId))
  | getPartnerId {origin : Origin} {partnerCode ownCode ownId partnerId : String}
      (hfound : ConnectionManager.getIdByCode (client.query users choice.succeeds partnerCode) =
        .ok partnerId) :
      Advances users choice client (.getPartnerId origin partnerCode ownCode ownId)
        (client.spawn (.updateOwn origin partnerCode ownCode ownId partnerId))
  | updateOwn {origin : Origin} {partnerCode ownCode ownId partnerId : String}
      (hne : ownId ≠ "") :
      Advances users choice client (.updateOwn origin partnerCode ownCode ownId partnerId)
        ((client.issue (.updateData ownId partnerCode) none).spawn
          (.updatePartner origin partnerCode ownCode partnerId))
  | updatePartner {origin : Origin} {partnerCode ownCode partnerId : String}
      (hne : partnerId ≠ "") :
      Advances users choice client (.updatePartner origin partnerCode ownCode partnerId)
        ((client.issue (.updateData partnerId ownCode) none).spawn
          (.setPartnerCode origin partnerCode))
  | setPartnerCode (origin : Origin) (partnerCode : String) :
      Advances users choice client (.setPartnerCode origin partnerCode)
        ({ client with partnerCode := some partnerCode }.spawn (.didConnectedPartner origin))
  | didConnectedPartner :
      Advances users choice client (.didConnectedPartner .main)
        ({ client with isConnectedPartner := true }.spawn .requestPartnerClothes)
  | didConnectedPartnerInSettings :
      Advances users choice client (.didConnectedPartner .settings) client
  | deletePartner :
      Advances users choice client (.deletePartnerCode .partner)
        (client.spawn (.updatePartnerCodeBy .partner client.getPartnerCode))
  | deleteOwn :
      Advances users choice client (.deletePartnerCode .own)
        ((client.getCode choice.newCode).spawn
          (.updatePartnerCodeBy .own (client.getCode choice.newCode).ownCode))
  | updatePartnerCodeBy {side : Side} {code documentID : String}
      (hfound : ConnectionManager.getIdByCode (client.query users choice.succeeds code) =
        .ok documentID)
      (hne : documentID ≠ "") :
      Advances users choice client (.updatePartnerCodeBy side code)
        (client.issue (.updateData documentID " ") side.rest)
  | removePartnerCode :
      Advances users choice client .removePartnerCode
        ({ client with partnerCode := none }.spawn .didDeletePartnerCode)
  | didDeletePartnerCode :
      Advances users choice client .didDeletePartnerCode { client with isConnectedPartner := false }
  | requestPartnerClothes (hcode : client.partnerCode ≠ some "") :
      Advances users choice client .requestPartnerClothes client
  | emptyClothesCode (hempty : client.partnerCode = some "") :
      Advances users choice client .requestPartnerClothes (client.halt .emptyClothesCode)
  | halt {thread : Thread} {before : Client} {trap : Trap}
      (hbefore : before = client ∨ before = client.getCode choice.newCode)
      (htrap : trap ≠ .emptyClothesCode) :
      Advances users choice client thread (before.halt trap)

/-- A lookup and the reference to the document that it finds either end the process or
go on. -/
theorem advances_document {users : Users} {choice : Choice} {client before next : Client}
    {thread : Thread} {documentID : String}
    (hbefore : before = client ∨ before = client.getCode choice.newCode)
    (hnext : documentID ≠ "" → Advances users choice client thread next) :
    Advances users choice client thread (before.document documentID next) :=
  document_rec (fun _ => .halt hbefore (by decide)) hnext

theorem advances_getIdByCode {users : Users} {choice : Choice} {client before : Client}
    {thread : Thread} {code : String} {next : String → Client}
    (hbefore : before = client ∨ before = client.getCode choice.newCode)
    (hnext : ∀ documentID,
      ConnectionManager.getIdByCode (before.query users choice.succeeds code) = .ok documentID →
        Advances users choice client thread (next documentID)) :
    Advances users choice client thread (before.getIdByCode users choice.succeeds code next) :=
  getIdByCode_rec hnext fun _ herror =>
    .halt hbefore (ConnectionManager.ne_emptyClothesCode herror)

theorem advances (users : Users) (choice : Choice) (client : Client) (thread : Thread) :
    Advances users choice client thread (client.advance users choice thread) := by
  cases thread with
  | saveCode code => exact .saveCode code
  | connectPartner => exact .connectPartner
  | getPartnerCodeFromServer =>
      refine advances_getIdByCode (.inr rfl) fun documentID hfound => ?_
      exact advances_document (.inr rfl) fun hne => .getPartnerCodeFromServer hfound hne
  | connectWithPartner origin partnerCode =>
      rw [advance]
      split
      · exact .callMySelf (by assumption)
      · exact .connectWithPartner (by assumption)
  | isExistingCode origin partnerCode =>
      rw [advance]
      split
      · exact .isExistingCode (by assumption)
      · exact .invalidPartnerCode (by assumption)
  | getOwnId origin partnerCode =>
      exact advances_getIdByCode (.inr rfl) fun ownId hfound => .getOwnId hfound
  | getPartnerId origin partnerCode ownCode ownId =>
      exact advances_getIdByCode (.inl rfl) fun partnerId hfound => .getPartnerId hfound
  | updateOwn origin partnerCode ownCode ownId partnerId =>
      exact advances_document (.inl rfl) .updateOwn
  | updatePartner origin partnerCode ownCode partnerId =>
      exact advances_document (.inl rfl) .updatePartner
  | setPartnerCode origin partnerCode => exact .setPartnerCode origin partnerCode
  | didConnectedPartner origin =>
      cases origin with
      | main => exact .didConnectedPartner
      | settings => exact .didConnectedPartnerInSettings
  | deletePartnerCode side =>
      cases side with
      | partner => exact .deletePartner
      | own => exact .deleteOwn
  | updatePartnerCodeBy side code =>
      refine advances_getIdByCode (.inl rfl) fun documentID hfound => ?_
      exact advances_document (.inl rfl) fun hne => .updatePartnerCodeBy hfound hne
  | removePartnerCode => exact .removePartnerCode
  | didDeletePartnerCode => exact .didDeletePartnerCode
  | requestPartnerClothes =>
      rw [advance]
      split
      · exact .emptyClothesCode (by assumption)
      · exact .requestPartnerClothes (by assumption)

end Client

/-! ## The system -/

/-- The collection and its clients. -/
structure System (ι : Type*) where
  users : Users
  client : ι → Client

inductive Event (ι : Type*) where
  /-- A client acts. -/
  | act (i : ι) (action : Action)
  /-- The oldest write of a client is accepted or rejected. -/
  | settle (i : ι) (accepted : Bool)

namespace System

variable {ι : Type*} [DecidableEq ι]

def set (state : System ι) (i : ι) (client : Client) : System ι :=
  { state with client := Function.update state.client i client }

/-- The other clients are told of a change, and the one that has made it of its
success. -/
def announce (state : System ι) (i : ι) (documentID partnerCode : String) (changed : Bool) :
    System ι :=
  { state with
    client := fun j =>
      if j = i then (state.client j).acknowledge documentID partnerCode
      else if changed then (state.client j).notify documentID partnerCode
      else state.client j }

/-- A write of a client takes effect.  Nobody else listens to a new document or hears of
an update that changes nothing, and an update of a document that does not exist fails. -/
def commit (state : System ι) (i : ι) : Write → System ι
  | .addDocument document =>
      { state with users := state.users.insertDocument document }.announce i document.documentID
        document.partnerCode false
  | .updateData documentID partnerCode =>
      match state.users.partnerCodeOf documentID with
      | none => state
      | some old =>
          if old = partnerCode then state.announce i documentID partnerCode false
          else
            { state with users := state.users.setPartnerCode documentID partnerCode }.announce i
              documentID partnerCode true

def settled (state : System ι) (i : ι) (pending : Pending) (rest : List Pending) : System ι :=
  state.set i ((state.client i).settled pending rest)

def settle (state : System ι) (i : ι) (accepted : Bool) : Option (System ι) :=
  match (state.client i).outbox with
  | [] => none
  | pending :: rest =>
      some ((if accepted then state.commit i pending.write else state).settled i pending rest)

/-- The effect of an event, if it can happen.  A process that has ended takes no
more steps, but what it has written is still settled. -/
def step (state : System ι) : Event ι → Option (System ι)
  | .act i action =>
      if (state.client i).trap = none then
        ((state.client i).act state.users action).map (state.set i)
      else none
  | .settle i accepted => state.settle i accepted

/-- The transitions of `step`. -/
inductive Transition (state : System ι) : Event ι → System ι → Prop where
  | act {i : ι} {action : Action} {client : Client} (htrap : (state.client i).trap = none)
      (hact : (state.client i).act state.users action = some client) :
      Transition state (.act i action) (state.set i client)
  | accept {i : ι} {pending : Pending} {rest : List Pending}
      (houtbox : (state.client i).outbox = pending :: rest) :
      Transition state (.settle i true) ((state.commit i pending.write).settled i pending rest)
  | reject {i : ι} {pending : Pending} {rest : List Pending}
      (houtbox : (state.client i).outbox = pending :: rest) :
      Transition state (.settle i false) (state.settled i pending rest)

theorem transition_of_step {state next : System ι} {event : Event ι}
    (hstep : state.step event = some next) : Transition state event next := by
  cases event with
  | act i action =>
      rw [step] at hstep
      split at hstep
      · obtain ⟨client, hact, rfl⟩ := Option.map_eq_some_iff.mp hstep
        exact .act (by assumption) hact
      · simp at hstep
  | settle i accepted =>
      rw [step, settle] at hstep
      split at hstep
      · simp at hstep
      · rename_i pending rest houtbox
        obtain rfl := Option.some.inj hstep
        cases accepted with
        | true => exact .accept houtbox
        | false => exact .reject houtbox

@[simp] theorem set_users (state : System ι) (i : ι) (client : Client) :
    (state.set i client).users = state.users := rfl

@[simp] theorem set_client_self (state : System ι) (i : ι) (client : Client) :
    (state.set i client).client i = client := by
  simp [set]

theorem set_client_of_ne (state : System ι) {i j : ι} (hne : j ≠ i) (client : Client) :
    (state.set i client).client j = state.client j := by
  simp [set, Function.update_of_ne hne]

/-- What holds of the client that changes, and held of all clients before, holds of
all clients. -/
theorem forall_client_set {state : System ι} {i : ι} {client : Client} {P : ι → Client → Prop}
    (hself : P i client) (hbefore : ∀ j, P j (state.client j)) (j : ι) :
    P j ((state.set i client).client j) := by
  by_cases hj : j = i
  · subst hj
    rw [set_client_self]
    exact hself
  · rw [set_client_of_ne state hj]
    exact hbefore j

/-- The same when a write is settled after it has taken effect. -/
theorem forall_client_settled {state committed : System ι}
    (hcommitted : ∀ j, ∃ cache, committed.client j = { state.client j with cache := cache })
    {i : ι} {pending : Pending} {rest : List Pending} {P : ι → Client → Prop}
    (hself : ∀ cache, P i ({ state.client i with cache := cache }.settled pending rest))
    (hothers : ∀ j cache, P j { state.client j with cache := cache }) (j : ι) :
    P j ((committed.settled i pending rest).client j) := by
  refine forall_client_set ?_ ?_ j
  · obtain ⟨cache, hcache⟩ := hcommitted i
    rw [hcache]
    exact hself cache
  · intro j
    obtain ⟨cache, hcache⟩ := hcommitted j
    rw [hcache]
    exact hothers j cache

@[simp] theorem settled_users (state : System ι) (i : ι) (pending : Pending)
    (rest : List Pending) : (state.settled i pending rest).users = state.users := rfl

@[simp] theorem announce_users (state : System ι) (i : ι) (documentID partnerCode : String)
    (changed : Bool) : (state.announce i documentID partnerCode changed).users = state.users := rfl

theorem announce_client (state : System ι) (i : ι) (documentID partnerCode : String)
    (changed : Bool) (j : ι) :
    ∃ cache, (state.announce i documentID partnerCode changed).client j =
      { state.client j with cache := cache } := by
  unfold announce
  dsimp only
  split
  · exact ⟨_, rfl⟩
  · split
    · exact ⟨_, rfl⟩
    · exact ⟨_, rfl⟩

/-- A property of the outcome of an update is shown for each way it can take effect. -/
theorem commit_updateData_rec {state : System ι} {i : ι} {documentID partnerCode : String}
    {P : System ι → Prop}
    (hmissing : state.users.partnerCodeOf documentID = none → P state)
    (hsame : state.users.partnerCodeOf documentID = some partnerCode →
      P (state.announce i documentID partnerCode false))
    (hchanged : ∀ old, state.users.partnerCodeOf documentID = some old → old ≠ partnerCode →
      P ({ state with users := state.users.setPartnerCode documentID partnerCode }.announce i
        documentID partnerCode true)) :
    P (state.commit i (.updateData documentID partnerCode)) := by
  unfold commit
  dsimp only
  split
  · exact hmissing (by assumption)
  · rename_i old hold
    split
    · rename_i heq
      exact hsame (heq ▸ hold)
    · exact hchanged old hold (by assumption)

/-- A write that takes effect reaches the caches, and leaves the rest of every client
as it is. -/
theorem commit_client (state : System ι) (i : ι) (write : Write) (j : ι) :
    ∃ cache, (state.commit i write).client j = { state.client j with cache := cache } := by
  cases write with
  | addDocument document => exact announce_client _ _ _ _ _ _
  | updateData documentID partnerCode =>
      exact commit_updateData_rec
        (P := fun next => ∃ cache, next.client j = { state.client j with cache := cache })
        (fun _ => ⟨_, rfl⟩) (fun _ => announce_client _ _ _ _ _ _)
        (fun _ _ _ => announce_client _ _ _ _ _ _)

theorem codes_commit_updateData (state : System ι) (i : ι) (documentID partnerCode : String) :
    (state.commit i (.updateData documentID partnerCode)).users.codes = state.users.codes :=
  commit_updateData_rec (P := fun next => next.users.codes = state.users.codes) (fun _ => rfl)
    (fun _ => rfl) (fun _ _ _ => Users.codes_setPartnerCode _ _ _)

/-- A choice with which the query of a step succeeds. -/
def querying : Choice := ⟨true, "0000000000", "document", by decide, by decide⟩

omit [DecidableEq ι] in
/-- The steps of `connectWithPartner` from the confirmed code to UserDefaults. -/
def connecting (i : ι) (choice : Choice) (origin : Origin)
    (partnerCode ownCode partnerId ownId : String) : List (Event ι) :=
  .act i (.enterCode origin partnerCode) :: [Thread.connectWithPartner origin partnerCode,
    .isExistingCode origin partnerCode, .getOwnId origin partnerCode,
    .getPartnerId origin partnerCode ownCode ownId,
    .updateOwn origin partnerCode ownCode ownId partnerId,
    .updatePartner origin partnerCode ownCode partnerId, .setPartnerCode origin partnerCode].map
      fun thread => .act i (.advance thread choice)

end System

end Pompom
