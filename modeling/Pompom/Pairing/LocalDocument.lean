import Pompom.Pairing.OutstandingWrites

/-!
# A document as a client sees it

The cache of a client and its outbox, about one document.  The values that other clients
write come into the cache in order, and a value may be skipped if a later one is on its
way; an accepted write of the client itself is in the cache at once.  So the cache holds
the value of the server once nothing is on its way (`Follows.cachedCode_eq`).

Over the cache lie the writes of the client itself.  When one of them is accepted it moves
from the outbox to the cache, and the client sees the same as before
(`Follows.cachedCode_acknowledge`).
-/

namespace Pompom

/-- The `partner_code` of the user with this code. -/
def Users.partnerCodeFor (users : Users) (code : String) : String :=
  ((users.whereCode code).head?.map (·.partnerCode)).getD ""

theorem Users.WellFormed.partnerCodeFor_eq {users : Users} (hwf : users.WellFormed)
    {document : UserDocument} (hmem : document ∈ users) :
    users.partnerCodeFor document.code = document.partnerCode := by
  have hne : users.whereCode document.code ≠ [] :=
    whereCode_ne_nil.mpr (List.mem_map_of_mem hmem)
  obtain ⟨first, rest, hresult⟩ := List.exists_cons_of_ne_nil hne
  have hfirst : first ∈ users.whereCode document.code := hresult ▸ List.mem_cons_self
  obtain ⟨hfirst, hcode⟩ := mem_whereCode.mp hfirst
  rw [partnerCodeFor, hresult, hwf.eq_of_code hfirst hmem hcode]
  rfl

theorem Users.WellFormed.partnerCodeOf_eq {users : Users} (hwf : users.WellFormed)
    {document : UserDocument} (hmem : document ∈ users) :
    users.partnerCodeOf document.documentID = some document.partnerCode := by
  cases hfind : users.find? fun other => other.documentID = document.documentID with
  | none => simpa using List.find?_eq_none.mp hfind document hmem
  | some found =>
      have hdocumentID : found.documentID = document.documentID := by
        simpa using List.find?_some hfind
      rw [partnerCodeOf, hfind, hwf.eq_of_documentID (List.mem_of_find?_eq_some hfind) hmem
        hdocumentID]
      rfl

/-- The value of a document is the value for its code. -/
theorem Users.WellFormed.partnerCodeOf_eq_for {users : Users} (hwf : users.WellFormed)
    {documentID code : String} (hmem : (documentID, code) ∈ users.index) :
    users.partnerCodeOf documentID = some (users.partnerCodeFor code) := by
  obtain ⟨document, hdocument, rfl, rfl⟩ := mem_index.mp hmem
  rw [hwf.partnerCodeOf_eq hdocument, hwf.partnerCodeFor_eq hdocument]

/-- An update of the document of a user is what the user's value becomes. -/
theorem Users.WellFormed.partnerCodeFor_setPartnerCode {users : Users} (hwf : users.WellFormed)
    {documentID code : String} (hmem : (documentID, code) ∈ users.index) (partnerCode : String) :
    (users.setPartnerCode documentID partnerCode).partnerCodeFor code = partnerCode := by
  obtain ⟨document, hdocument, rfl, rfl⟩ := mem_index.mp hmem
  have hupdated : { document with partnerCode := partnerCode } ∈
      users.setPartnerCode document.documentID partnerCode :=
    List.mem_map.mpr ⟨document, hdocument, if_pos rfl⟩
  exact (hwf.congr (index_setPartnerCode users _ _)).partnerCodeFor_eq hupdated

/-- An update of another document leaves the user's value. -/
theorem Users.partnerCodeFor_setPartnerCode_of_notMem {users : Users} {documentID code : String}
    (hmem : (documentID, code) ∉ users.index) (partnerCode : String) :
    (users.setPartnerCode documentID partnerCode).partnerCodeFor code =
      users.partnerCodeFor code := by
  suffices hwhere : (users.setPartnerCode documentID partnerCode).whereCode code =
      users.whereCode code by
    rw [partnerCodeFor, partnerCodeFor, hwhere]
  rw [whereCode, setPartnerCode, List.filter_map]
  have hcode : ((fun document : UserDocument => decide (document.code = code)) ∘ fun document =>
      if document.documentID = documentID then { document with partnerCode := partnerCode }
      else document) = fun document => decide (document.code = code) := by
    funext document
    simp only [Function.comp_apply]
    split <;> rfl
  rw [hcode]
  refine (List.map_congr_left fun document hselected => if_neg ?_).trans (List.map_id _)
  obtain ⟨hdocument, rfl⟩ := mem_whereCode.mp hselected
  rintro rfl
  exact hmem (mem_index_of_mem hdocument)

/-- The ID of the document of the user with this code. -/
def Users.documentIDFor (users : Users) (code : String) : String :=
  ((users.whereCode code).head?.map (·.documentID)).getD ""

theorem Users.WellFormed.documentID_eq {users : Users} (hwf : users.WellFormed)
    {documentID other code : String} (hmem : (documentID, code) ∈ users.index)
    (hother : (other, code) ∈ users.index) : other = documentID := by
  obtain ⟨document, hdocument, rfl, rfl⟩ := mem_index.mp hmem
  obtain ⟨second, hsecond, rfl, hcode⟩ := mem_index.mp hother
  rw [hwf.eq_of_code hsecond hdocument hcode]

theorem Users.WellFormed.documentIDFor_eq {users : Users} (hwf : users.WellFormed)
    {documentID code : String} (hmem : (documentID, code) ∈ users.index) :
    users.documentIDFor code = documentID := by
  obtain ⟨document, hdocument, rfl, rfl⟩ := mem_index.mp hmem
  have hne : users.whereCode document.code ≠ [] :=
    whereCode_ne_nil.mpr (List.mem_map_of_mem hdocument)
  obtain ⟨first, rest, hresult⟩ := List.exists_cons_of_ne_nil hne
  have hfirst : first ∈ users.whereCode document.code := hresult ▸ List.mem_cons_self
  obtain ⟨hfirst, hcode⟩ := mem_whereCode.mp hfirst
  rw [documentIDFor, hresult, hwf.eq_of_code hfirst hdocument hcode]
  rfl

namespace Client

variable {users : Users} {client : Client} {cache : List CachedDocument}
  {outbox : List Pending} {documentID value : String}

/-! ### The document in the cache -/

/-- The cache has the document, and its values come up to the last one. -/
structure Follows (cache : List CachedDocument) (documentID value : String) : Prop where
  cached : ∃ document ∈ cache, document.documentID = documentID
  last : ∀ document ∈ cache, document.documentID = documentID →
    ∃ current, document.partnerCode = some current ∧
      (current :: document.incoming).getLast? = some value

theorem Follows.cachedCode (hfollows : Follows cache documentID value) :
    ∃ document ∈ cache, document.documentID = documentID ∧ ∃ current,
      Client.cachedCode cache documentID = some current ∧
        (current :: document.incoming).getLast? = some value := by
  cases hfind : cache.find? fun document => document.documentID = documentID with
  | none =>
      obtain ⟨document, hmem, hdocumentID⟩ := hfollows.cached
      simpa [hdocumentID] using List.find?_eq_none.mp hfind document hmem
  | some document =>
      have hmem := List.mem_of_find?_eq_some hfind
      have hdocumentID : document.documentID = documentID := by simpa using List.find?_some hfind
      obtain ⟨current, hcurrent, hlast⟩ := hfollows.last document hmem hdocumentID
      exact ⟨document, hmem, hdocumentID, current, by rw [Client.cachedCode, hfind]; exact hcurrent,
        hlast⟩

/-- Once no value is on its way, the cache has the last one. -/
theorem Follows.cachedCode_eq (hfollows : Follows cache documentID value)
    (hincoming : ∀ document ∈ cache, document.incoming = []) :
    Client.cachedCode cache documentID = some value := by
  obtain ⟨document, hmem, -, current, hcurrent, hlast⟩ := hfollows.cachedCode
  rw [hincoming document hmem] at hlast
  exact hcurrent.trans hlast

theorem Follows.map (hfollows : Follows cache documentID value)
    {f : CachedDocument → CachedDocument} (hf : ∀ document, (f document).documentID =
      document.documentID) {after : String}
    (hlast : ∀ document, document.documentID = documentID →
      (∃ current, document.partnerCode = some current ∧
        (current :: document.incoming).getLast? = some value) →
      ∃ current, (f document).partnerCode = some current ∧
        (current :: (f document).incoming).getLast? = some after) :
    Follows (cache.map f) documentID after := by
  constructor
  · obtain ⟨document, hmem, hdocumentID⟩ := hfollows.cached
    exact ⟨f document, List.mem_map_of_mem hmem, (hf document).trans hdocumentID⟩
  · intro document hmem hdocumentID
    obtain ⟨original, horiginal, rfl⟩ := List.mem_map.mp hmem
    rw [hf] at hdocumentID
    exact hlast original hdocumentID (hfollows.last original horiginal hdocumentID)

theorem documentID_notify (documentID partnerCode : String) (document : CachedDocument) :
    (if document.documentID = documentID then
      { document with incoming := document.incoming ++ [partnerCode] }
    else document).documentID = document.documentID := by
  split <;> rfl

theorem documentID_acknowledge (documentID partnerCode : String) (document : CachedDocument) :
    (if document.documentID = documentID then (⟨documentID, some partnerCode, []⟩ : CachedDocument)
    else document).documentID = document.documentID := by
  split
  · exact Eq.symm (by assumption)
  · rfl

/-- The value that another client has written is the last. -/
theorem Follows.notify (hfollows : Follows client.cache documentID value) (partnerCode : String) :
    Follows (client.notify documentID partnerCode).cache documentID partnerCode := by
  refine hfollows.map (documentID_notify _ _) fun document hdocumentID ⟨current, hcurrent, _⟩ => ?_
  rw [if_pos hdocumentID]
  exact ⟨current, hcurrent, by rw [← List.cons_append, List.getLast?_concat]⟩

theorem Follows.notify_of_ne (hfollows : Follows client.cache documentID value) {other : String}
    (hne : other ≠ documentID) (partnerCode : String) :
    Follows (client.notify other partnerCode).cache documentID value := by
  refine hfollows.map (documentID_notify _ _) fun document hdocumentID hlast => ?_
  rwa [if_neg fun heq => hne (heq.symm.trans hdocumentID)]

/-- The value that the client has written itself is the last. -/
theorem Follows.acknowledge (hfollows : Follows client.cache documentID value)
    (partnerCode : String) :
    Follows (client.acknowledge documentID partnerCode).cache documentID partnerCode := by
  refine hfollows.map (documentID_acknowledge _ _) fun document hdocumentID _ => ?_
  rw [if_pos hdocumentID]
  exact ⟨partnerCode, rfl, rfl⟩

theorem Follows.acknowledge_of_ne (hfollows : Follows client.cache documentID value)
    {other : String} (hne : other ≠ documentID) (partnerCode : String) :
    Follows (client.acknowledge other partnerCode).cache documentID value := by
  refine hfollows.map (documentID_acknowledge _ _) fun document hdocumentID hlast => ?_
  rwa [if_neg fun heq => hne (heq.symm.trans hdocumentID)]

/-- A value that arrives leaves the last one. -/
theorem Follows.watch (hfollows : Follows cache documentID value) {index skipped : ℕ}
    {document : CachedDocument} {partnerCode : String} {incoming : List String}
    (hdocument : cache[index]? = some document)
    (hdrop : document.incoming.drop skipped = partnerCode :: incoming) :
    Follows (cache.set index ⟨document.documentID, some partnerCode, incoming⟩) documentID
      value := by
  obtain ⟨hindex, hget⟩ := List.getElem?_eq_some_iff.mp hdocument
  constructor
  · obtain ⟨other, hother, hdocumentID⟩ := hfollows.cached
    obtain ⟨position, hposition, rfl⟩ := List.mem_iff_getElem.mp hother
    by_cases heq : index = position
    · subst heq
      exact ⟨_, List.mem_set hindex _, (congrArg _ hget.symm).trans hdocumentID⟩
    · exact ⟨_, List.mem_iff_getElem.mpr ⟨position, by simpa using hposition,
        List.getElem_set_ne heq _⟩, hdocumentID⟩
  · intro other hother hdocumentID
    rcases List.mem_or_eq_of_mem_set hother with hother | rfl
    · exact hfollows.last other hother hdocumentID
    · refine ⟨partnerCode, rfl, ?_⟩
      obtain ⟨current, -, hlast⟩ :=
        hfollows.last document (List.mem_of_getElem? hdocument) hdocumentID
      have hlength : ¬ document.incoming.length ≤ skipped := by
        intro hle
        rw [List.drop_eq_nil_of_le hle] at hdrop
        simp at hdrop
      have hne : document.incoming ≠ [] := by
        rintro hnil
        simp [hnil] at hlength
      -- Skipping values leaves the last one.
      rw [← hdrop, List.getLast?_drop, if_neg hlength, ← hlast, List.getLast?_cons_of_ne_nil hne]

/-! ### The document as the client sees it -/

theorem cachedCode_map {f : CachedDocument → CachedDocument}
    (hf : ∀ document, (f document).documentID = document.documentID)
    (hvalue : ∀ document, document.documentID = documentID →
      (f document).partnerCode = document.partnerCode) :
    cachedCode (cache.map f) documentID = cachedCode cache documentID := by
  have hfind : ((fun document : CachedDocument => decide (document.documentID = documentID)) ∘ f) =
      fun document => decide (document.documentID = documentID) := by
    funext document
    simp [hf]
  rw [cachedCode, cachedCode, List.find?_map, hfind]
  cases hfound : cache.find? fun document => document.documentID = documentID with
  | none => rfl
  | some document => exact hvalue document (by simpa using List.find?_some hfound)

theorem cachedCode_notify (client : Client) (target partnerCode documentID : String) :
    cachedCode (client.notify target partnerCode).cache documentID =
      cachedCode client.cache documentID := by
  refine cachedCode_map (documentID_notify _ _) fun document _ => ?_
  split <;> rfl

theorem cachedCode_acknowledge_of_ne (client : Client) {target : String}
    (hne : target ≠ documentID) (partnerCode : String) :
    cachedCode (client.acknowledge target partnerCode).cache documentID =
      cachedCode client.cache documentID := by
  refine cachedCode_map (documentID_acknowledge _ _) fun document hdocumentID => ?_
  rw [if_neg fun heq => hne (heq.symm.trans hdocumentID)]

theorem localCode_congr {first second : List CachedDocument}
    (hcached : cachedCode first documentID = cachedCode second documentID)
    (outbox : List Pending) :
    localCode first outbox documentID = localCode second outbox documentID := by
  rw [localCode, localCode, hcached]

theorem overlay_of_ne (value : Option String) {write : Write}
    (hne : write.documentID ≠ documentID) : write.overlay documentID value = value :=
  if_neg hne

theorem localCode_of_forall_ne (cache : List CachedDocument)
    (houtbox : ∀ pending ∈ outbox, pending.write.documentID ≠ documentID) :
    localCode cache outbox documentID = cachedCode cache documentID := by
  induction outbox using List.reverseRecOn with
  | nil => rfl
  | append_singleton outbox last ih =>
      rw [localCode_concat, overlay_of_ne _ (houtbox last (by simp)),
        ih fun pending hpending => houtbox pending (List.mem_append_left _ hpending)]

theorem overlay_some (write : Write) (documentID value : String) :
    write.overlay documentID (some value) =
      some (if write.documentID = documentID then write.partnerCode else value) := by
  unfold Write.overlay
  split
  · cases write <;> rfl
  · rfl

theorem Follows.localCode (hfollows : Follows cache documentID value) (outbox : List Pending) :
    ∃ seen, Client.localCode cache outbox documentID = some seen := by
  induction outbox using List.reverseRecOn with
  | nil =>
      obtain ⟨_, -, -, current, hcurrent, -⟩ := hfollows.cachedCode
      exact ⟨current, hcurrent⟩
  | append_singleton outbox last ih =>
      obtain ⟨seen, hseen⟩ := ih
      rw [localCode_concat, hseen, overlay_some]
      exact ⟨_, rfl⟩

/-- A write that takes effect is in the cache instead of over it. -/
theorem Follows.cachedCode_acknowledge (hfollows : Follows client.cache documentID value)
    (target partnerCode : String) :
    Client.cachedCode (client.acknowledge target partnerCode).cache documentID =
      (Write.updateData target partnerCode).overlay documentID
        (Client.cachedCode client.cache documentID) := by
  by_cases htarget : target = documentID
  · subst htarget
    obtain ⟨_, -, -, current, hcurrent, -⟩ := hfollows.cachedCode
    obtain ⟨document, hmem, hdocumentID, last, hlast, heq⟩ :=
      (hfollows.acknowledge partnerCode).cachedCode
    obtain ⟨original, -, rfl⟩ := List.mem_map.mp hmem
    rw [documentID_acknowledge] at hdocumentID
    rw [if_pos hdocumentID] at heq
    rw [hlast, hcurrent, overlay_some]
    simpa [Write.documentID, Write.partnerCode] using heq
  · have hother : (Write.updateData target partnerCode).documentID ≠ documentID := htarget
    rw [cachedCode_acknowledge_of_ne client htarget, overlay_of_ne _ hother]

end Client

end Pompom
