import Pompom.Lib.Run
import Pompom.Pairing.LocalView

/-!
# One call of `connectWithPartner`

`CodeManager.connectWithPartner` as a whole, for a client whose code is stored: what it
throws, the updates it has issued by then, and what it leaves in UserDefaults.  The
updates are not awaited, so the server accepts or rejects them after the call is over.

When everything succeeds the call decides by the code alone
(`connectWithPartner_decides`).  In general it is all or nothing only if both updates
are accepted or say nothing new (`connectWithPartner_all_or_nothing_iff`): the call has
thrown `success` before it can know, and a partner's ID that could not be looked up ends
the process after the update of the own document was issued.

`reaches_connectWithPartner` ties the call to the threads of `Client`: with no other step
in between, they end as it says.
-/

namespace Pompom

open Lib

/-! ## The call -/

/-- What `connectWithPartner` throws. -/
inductive ConnectionManagerResultType where
  | success
  | callMySelf
  | invalidPartnerCode
  deriving DecidableEq, Repr

/-- Which of the three queries of a call succeed. -/
structure Answers where
  isExistingCode : Bool
  ownId : Bool
  partnerId : Bool
  deriving DecidableEq, Repr

/-- All three queries succeed. -/
def Answers.succeeding : Answers := ⟨true, true, true⟩

/-- The end of a call: what it throws or how it traps, the updates it has issued, and
UserDefaults `partner_code`. -/
structure ConnectEnd where
  result : Except Trap ConnectionManagerResultType
  writes : List Write
  partnerCode : Option String

/-- The effect of an accepted write on the collection. -/
def Users.write (users : Users) : Write → Users
  | .addDocument document => users.insertDocument document
  | .updateData documentID partnerCode => users.setPartnerCode documentID partnerCode

/-- In a well-formed collection the ID of a user's document says as much as the code. -/
theorem Users.WellFormed.documentID_eq_iff {users : Users} (hwf : users.WellFormed)
    {documentID code : String} (hmem : (documentID, code) ∈ users.index) {document : UserDocument}
    (hdocument : document ∈ users) : document.documentID = documentID ↔ document.code = code := by
  obtain ⟨original, horiginal, rfl, rfl⟩ := mem_index.mp hmem
  constructor
  · intro heq
    rw [hwf.eq_of_documentID hdocument horiginal heq]
  · intro heq
    rw [hwf.eq_of_code hdocument horiginal heq]

theorem Users.WellFormed.notMem_index {users : Users} (hwf : users.WellFormed)
    {documentID code other : String} (hmem : (documentID, code) ∈ users.index)
    (hne : other ≠ code) : (documentID, other) ∉ users.index := by
  intro hother
  exact hne ((hwf.filter_index hmem other).mp ⟨_, hother, rfl, rfl⟩)

/-- Updates of the documents of two users change these documents and no others. -/
theorem Users.WellFormed.setPartnerCode_both {users : Users} (hwf : users.WellFormed)
    {ownId partnerId ownCode partnerCode : String} (hownId : (ownId, ownCode) ∈ users.index)
    (hpartnerId : (partnerId, partnerCode) ∈ users.index) (hne : partnerCode ≠ ownCode)
    (first second : String) :
    (users.setPartnerCode ownId first).setPartnerCode partnerId second =
      users.map fun document =>
        if document.code = ownCode then { document with partnerCode := first }
        else if document.code = partnerCode then { document with partnerCode := second }
        else document := by
  rw [setPartnerCode, setPartnerCode, List.map_map]
  refine List.map_congr_left ?_
  intro document hdocument
  have hown := hwf.documentID_eq_iff hownId hdocument
  have hpartner := hwf.documentID_eq_iff hpartnerId hdocument
  by_cases hcode : document.code = ownCode
  · have hids : ownId ≠ partnerId := by
      intro heq
      exact hne ((hpartner.mp ((hown.mpr hcode).trans heq)).symm.trans hcode)
    simp [hown.mpr hcode, hcode, hids]
  · simp [hown, hpartner, hcode]

/-- An update changes nothing if and only if it says nothing new. -/
theorem Users.WellFormed.setPartnerCode_eq_self_iff {users : Users} (hwf : users.WellFormed)
    {documentID code : String} (hmem : (documentID, code) ∈ users.index) (partnerCode : String) :
    users.setPartnerCode documentID partnerCode = users ↔
      users.partnerCodeFor code = partnerCode := by
  constructor
  · intro hsame
    rw [← hwf.partnerCodeFor_setPartnerCode hmem partnerCode, hsame]
  · intro hvalue
    refine (List.map_congr_left ?_).trans (List.map_id users)
    intro document hdocument
    split
    · rename_i heq
      have hcode : document.code = code := (hwf.documentID_eq_iff hmem hdocument).mp heq
      rw [← hvalue, ← hcode, hwf.partnerCodeFor_eq hdocument]
      rfl
    · rfl

/-- The collection after an update that was accepted or rejected. -/
def Users.updated (users : Users) (documentID partnerCode : String) (accepted : Bool) : Users :=
  if accepted then users.write (.updateData documentID partnerCode) else users

theorem Users.index_updated (users : Users) (documentID partnerCode : String) (accepted : Bool) :
    (users.updated documentID partnerCode accepted).index = users.index := by
  cases accepted with
  | false => rfl
  | true => exact index_setPartnerCode users documentID partnerCode

/-- The value of a user after an update of the user's document. -/
theorem Users.WellFormed.partnerCodeFor_updated_self {users : Users} (hwf : users.WellFormed)
    {documentID code : String} (hmem : (documentID, code) ∈ users.index) (partnerCode : String)
    (accepted : Bool) :
    (users.updated documentID partnerCode accepted).partnerCodeFor code = partnerCode ↔
      accepted = true ∨ users.partnerCodeFor code = partnerCode := by
  cases accepted with
  | false => simp [updated]
  | true => exact iff_of_true (hwf.partnerCodeFor_setPartnerCode hmem partnerCode) (.inl rfl)

theorem Users.WellFormed.partnerCodeFor_updated_other {users : Users} (hwf : users.WellFormed)
    {documentID code other : String} (hmem : (documentID, code) ∈ users.index)
    (hne : other ≠ code) (partnerCode : String) (accepted : Bool) :
    (users.updated documentID partnerCode accepted).partnerCodeFor other =
      users.partnerCodeFor other := by
  cases accepted with
  | false => rfl
  | true => exact partnerCodeFor_setPartnerCode_of_notMem (hwf.notMem_index hmem hne) _

/-- The collection once the server has accepted or rejected the updates. -/
def ConnectEnd.settled (done : ConnectEnd) (users : Users) (accepted : List Bool) : Users :=
  (done.writes.zip accepted).foldl
    (fun users entry => if entry.2 then users.write entry.1 else users) users

namespace Client

/-- `CodeManager.connectWithPartner` on a client whose code is stored. -/
def connectWithPartner (users : Users) (client : Client) (answers : Answers)
    (partnerCode : String) : ConnectEnd :=
  if CodeManager.SameCode partnerCode client.ownCode then
    ⟨.ok .callMySelf, [], client.partnerCode⟩
  else if ConnectionManager.isExistingCode
      (client.query users answers.isExistingCode partnerCode) = false then
    ⟨.ok .invalidPartnerCode, [], client.partnerCode⟩
  else
    match ConnectionManager.getIdByCode (client.query users answers.ownId client.ownCode) with
    | .error trap => ⟨.error trap, [], client.partnerCode⟩
    | .ok ownId =>
        match ConnectionManager.getIdByCode (client.query users answers.partnerId partnerCode) with
        | .error trap => ⟨.error trap, [], client.partnerCode⟩
        | .ok partnerId =>
            -- `document(_:)` refuses an empty ID, each time after what was issued before
            if ownId = "" then ⟨.error .emptyDocumentID, [], client.partnerCode⟩
            else if partnerId = "" then
              ⟨.error .emptyDocumentID, [.updateData ownId partnerCode], client.partnerCode⟩
            else
              ⟨.ok .success, [.updateData ownId partnerCode, .updateData partnerId client.ownCode],
                some partnerCode⟩

variable {users : Users} {client : Client}

theorem exists_id_of_mem (hunsaved : client.unsaved = []) {code : String}
    (hmem : code ∈ users.codes) : ∃ documentID, (documentID, code) ∈ users.index ∧
      ConnectionManager.getIdByCode (client.query users true code) = .ok documentID := by
  obtain ⟨document, rest, hresult⟩ := List.exists_cons_of_ne_nil (Users.whereCode_ne_nil.mpr hmem)
  have hfirst : document ∈ users.whereCode code := hresult ▸ List.mem_cons_self
  obtain ⟨hdocument, rfl⟩ := Users.mem_whereCode.mp hfirst
  refine ⟨document.documentID, Users.mem_index_of_mem hdocument, ?_⟩
  rw [query, if_pos rfl, visible_eq hunsaved, hresult]
  rfl

/-- A query that fails reads as no ID and no document. -/
theorem getIdByCode_failed (code : String) :
    ConnectionManager.getIdByCode (client.query users false code) = .ok "" :=
  rfl

theorem isExistingCode_failed (code : String) :
    ConnectionManager.isExistingCode (client.query users false code) = false :=
  rfl

/-- A call issues at most two updates. -/
theorem connectWithPartner_writes (users : Users) (client : Client) (answers : Answers)
    (partnerCode : String) :
    (client.connectWithPartner users answers partnerCode).writes.length ≤ 2 ∧
      ∀ write ∈ (client.connectWithPartner users answers partnerCode).writes,
        ∃ documentID value, write = .updateData documentID value := by
  unfold connectWithPartner
  split_ifs
  · simp
  · simp
  · split
    · simp
    · split
      · simp
      · split_ifs <;> simp

/-! ## What the call decides -/

theorem connectWithPartner_own {partnerCode : String}
    (hsame : CodeManager.SameCode partnerCode client.ownCode) (answers : Answers) :
    client.connectWithPartner users answers partnerCode =
      ⟨.ok .callMySelf, [], client.partnerCode⟩ :=
  if_pos hsame

theorem connectWithPartner_unknown (hunsaved : client.unsaved = []) {partnerCode : String}
    (hother : ¬ CodeManager.SameCode partnerCode client.ownCode)
    (hunknown : partnerCode ∉ users.codes)
    (answers : Answers) :
    client.connectWithPartner users answers partnerCode =
      ⟨.ok .invalidPartnerCode, [], client.partnerCode⟩ := by
  have hnone : ConnectionManager.isExistingCode
      (client.query users answers.isExistingCode partnerCode) = false := by
    cases hanswer : answers.isExistingCode with
    | false => exact isExistingCode_failed partnerCode
    | true =>
        rw [Bool.eq_false_iff]
        exact fun hexists => hunknown ((mem_codes_of_isExistingCode hunsaved).mp hexists)
  rw [connectWithPartner, if_neg hother, if_pos hnone]

/-- Between two users of the collection the call goes on as its lookups allow. -/
theorem connectWithPartner_known (hwf : users.WellFormed) (hunsaved : client.unsaved = [])
    (hown : client.ownCode ∈ users.codes) {partnerCode : String}
    (hother : ¬ CodeManager.SameCode partnerCode client.ownCode)
    (hknown : partnerCode ∈ users.codes) :
    ∃ ownId partnerId, (ownId, client.ownCode) ∈ users.index ∧
      (partnerId, partnerCode) ∈ users.index ∧
      ∀ answers : Answers, client.connectWithPartner users answers partnerCode =
        if answers.isExistingCode = false then ⟨.ok .invalidPartnerCode, [], client.partnerCode⟩
        else if answers.ownId = false then ⟨.error .emptyDocumentID, [], client.partnerCode⟩
        else if answers.partnerId = false then
          ⟨.error .emptyDocumentID, [.updateData ownId partnerCode], client.partnerCode⟩
        else
          ⟨.ok .success, [.updateData ownId partnerCode, .updateData partnerId client.ownCode],
            some partnerCode⟩ := by
  obtain ⟨ownId, hownId, hownQuery⟩ := exists_id_of_mem hunsaved hown
  obtain ⟨partnerId, hpartnerId, hpartnerQuery⟩ := exists_id_of_mem hunsaved hknown
  have hexists := (mem_codes_of_isExistingCode hunsaved).mpr hknown
  refine ⟨ownId, partnerId, hownId, hpartnerId, ?_⟩
  rintro ⟨existing, own, partner⟩
  rw [connectWithPartner, if_neg hother]
  cases existing <;> cases own <;> cases partner <;>
    simp [isExistingCode_failed, getIdByCode_failed, hexists, hownQuery, hpartnerQuery,
      hwf.ne_empty hownId, hwf.ne_empty hpartnerId]

/-- With all queries and writes succeeding, the call throws `callMySelf` for a code that
Swift takes for the own one, `invalidPartnerCode` for another one without a document, and
`success` otherwise.  Only then it changes anything: the two documents in their
`partner_code`, and UserDefaults. -/
theorem connectWithPartner_decides (hwf : users.WellFormed) (hunsaved : client.unsaved = [])
    (hown : client.ownCode ∈ users.codes) (partnerCode : String) :
    let done := client.connectWithPartner users .succeeding partnerCode
    let after := done.settled users [true, true]
    (done.result = .ok .callMySelf ↔ CodeManager.SameCode partnerCode client.ownCode) ∧
    (done.result = .ok .invalidPartnerCode ↔
      ¬ CodeManager.SameCode partnerCode client.ownCode ∧ partnerCode ∉ users.codes) ∧
    (done.result = .ok .success ↔
      ¬ CodeManager.SameCode partnerCode client.ownCode ∧ partnerCode ∈ users.codes) ∧
    (∀ trap, done.result ≠ .error trap) ∧
    (done.result ≠ .ok .success → after = users ∧ done.partnerCode = client.partnerCode) ∧
    (done.result = .ok .success →
      (after = users.map fun document =>
        if document.code = client.ownCode then { document with partnerCode := partnerCode }
        else if document.code = partnerCode then { document with partnerCode := client.ownCode }
        else document) ∧
      done.partnerCode = some partnerCode) := by
  by_cases hsame : CodeManager.SameCode partnerCode client.ownCode
  · rw [connectWithPartner_own hsame]
    simp [ConnectEnd.settled, hsame]
  by_cases hknown : partnerCode ∈ users.codes
  · obtain ⟨ownId, partnerId, hownId, hpartnerId, hcall⟩ :=
      connectWithPartner_known hwf hunsaved hown hsame hknown
    have hmap := hwf.setPartnerCode_both hownId hpartnerId
      (CodeManager.ne_of_not_sameCode hsame) partnerCode client.ownCode
    rw [hcall]
    simp [Answers.succeeding, ConnectEnd.settled, Users.write, hsame, hknown, hmap]
  · rw [connectWithPartner_unknown hunsaved hsame hknown]
    simp [hsame, hknown, ConnectEnd.settled]

/-- A user connects to another one. -/
theorem connectWithPartner_decides_duo :
    ((System.duo.client false).connectWithPartner System.duo.users .succeeding
      "BBBBBBBBBB").result = .ok .success := by
  have hdecides := @connectWithPartner_decides System.duo.users (System.duo.client false)
    System.duo_listening.established.users rfl (by decide) "BBBBBBBBBB"
  exact hdecides.2.2.1.mpr (by decide)

/-- A user whose code starts with K. -/
def kelvin : Client := { code := some "KAAAAAAAAA" }

/-- Swift takes the Kelvin sign for a K, and the query does not: the call refuses a string
that is not the own code, and does not find the document of a string that Swift takes for
its code. -/
theorem connectWithPartner_kelvin :
    (¬ ∀ (users : Users) (client : Client) (partnerCode : String), users.WellFormed →
      client.unsaved = [] → client.ownCode ∈ users.codes →
      ((client.connectWithPartner users .succeeding partnerCode).result = .ok .callMySelf ↔
        partnerCode = client.ownCode)) ∧
    ¬ ∀ (users : Users) (client : Client) (partnerCode : String), users.WellFormed →
      client.unsaved = [] → client.ownCode ∈ users.codes →
      ((client.connectWithPartner users .succeeding partnerCode).result =
          .ok .invalidPartnerCode ↔
        ¬ CodeManager.SameCode partnerCode client.ownCode ∧
          ∀ code ∈ users.codes, ¬ CodeManager.SameCode partnerCode code) := by
  have hwf : Users.WellFormed [⟨"a", "KAAAAAAAAA", ""⟩, ⟨"b", "KBBBBBBBBB", ""⟩] :=
    ⟨by decide, by decide, by decide⟩
  refine ⟨fun hall => ?_, fun hall => ?_⟩
  · have howned := hall _ kelvin "\u212aAAAAAAAAA" hwf rfl (by decide)
    exact absurd (howned.mp rfl) (by decide)
  · have hrefused := hall _ kelvin "\u212aBBBBBBBBB" hwf rfl (by decide)
    exact (hrefused.mp rfl).2 "KBBBBBBBBB" (by decide) (by decide)

/-! ## All or nothing -/

/-- What the end of a call should say of the collection after its updates: `success`
means that the two documents name each other, anything else that nothing has changed. -/
def AllOrNothing (users : Users) (client : Client) (partnerCode : String) (done : ConnectEnd)
    (after : Users) : Prop :=
  (done.result = .ok .success →
    after.partnerCodeFor client.ownCode = partnerCode ∧
      after.partnerCodeFor partnerCode = client.ownCode) ∧
  (done.result ≠ .ok .success → after = users ∧ done.partnerCode = client.partnerCode)

/-- The call has thrown `success`, and then its two updates are settled. -/
theorem allOrNothing_success_iff (hwf : users.WellFormed) {ownId partnerId partnerCode : String}
    (hownId : (ownId, client.ownCode) ∈ users.index)
    (hpartnerId : (partnerId, partnerCode) ∈ users.index) (hother : partnerCode ≠ client.ownCode)
    (first second : Bool) :
    let done : ConnectEnd :=
      ⟨.ok .success, [.updateData ownId partnerCode, .updateData partnerId client.ownCode],
        some partnerCode⟩
    AllOrNothing users client partnerCode done (done.settled users [first, second]) ↔
      (first = true ∨ users.partnerCodeFor client.ownCode = partnerCode) ∧
      (second = true ∨ users.partnerCodeFor partnerCode = client.ownCode) := by
  intro done
  have hindex := users.index_updated ownId partnerCode first
  have hsettled : done.settled users [first, second] =
      (users.updated ownId partnerCode first).updated partnerId client.ownCode second := rfl
  have hown : (done.settled users [first, second]).partnerCodeFor client.ownCode = partnerCode ↔
      first = true ∨ users.partnerCodeFor client.ownCode = partnerCode := by
    rw [hsettled,
      (hwf.congr hindex).partnerCodeFor_updated_other (hindex ▸ hpartnerId) hother.symm]
    exact hwf.partnerCodeFor_updated_self hownId partnerCode first
  have hpartner : (done.settled users [first, second]).partnerCodeFor partnerCode =
        client.ownCode ↔
      second = true ∨ users.partnerCodeFor partnerCode = client.ownCode := by
    rw [hsettled, (hwf.congr hindex).partnerCodeFor_updated_self (hindex ▸ hpartnerId),
      hwf.partnerCodeFor_updated_other hownId hother]
  rw [AllOrNothing, hown, hpartner]
  simp [done]

/-- The process has ended after the update of the own document was issued. -/
theorem allOrNothing_trapped_iff (hwf : users.WellFormed) {ownId partnerCode : String}
    (hownId : (ownId, client.ownCode) ∈ users.index) (trap : Trap) (first second : Bool) :
    let done : ConnectEnd :=
      ⟨.error trap, [.updateData ownId partnerCode], client.partnerCode⟩
    AllOrNothing users client partnerCode done (done.settled users [first, second]) ↔
      first = false ∨ users.partnerCodeFor client.ownCode = partnerCode := by
  intro done
  have hsettled : done.settled users [first, second] = users.updated ownId partnerCode first := rfl
  rw [AllOrNothing, hsettled]
  cases first with
  | false => simp [done, Users.updated]
  | true =>
      have hself := hwf.setPartnerCode_eq_self_iff hownId partnerCode
      simpa [done, Users.updated, Users.write] using hself

/-- The call is all or nothing if and only if it is over before its first update, or each
update it issues is accepted or says nothing new; and if the partner's ID could not be
looked up, the update of the own document must be rejected or say nothing new. -/
theorem connectWithPartner_all_or_nothing_iff (hwf : users.WellFormed)
    (hunsaved : client.unsaved = []) (hown : client.ownCode ∈ users.codes) {partnerCode : String}
    (hpartner : partnerCode ∈ users.codes) (answers : Answers) (first second : Bool) :
    AllOrNothing users client partnerCode (client.connectWithPartner users answers partnerCode)
        ((client.connectWithPartner users answers partnerCode).settled users [first, second]) ↔
      CodeManager.SameCode partnerCode client.ownCode ∨ answers.isExistingCode = false ∨
      answers.ownId = false ∨
      (answers.partnerId = false ∧
        (first = false ∨ users.partnerCodeFor client.ownCode = partnerCode)) ∨
      (answers.partnerId = true ∧
        (first = true ∨ users.partnerCodeFor client.ownCode = partnerCode) ∧
        (second = true ∨ users.partnerCodeFor partnerCode = client.ownCode)) := by
  by_cases hsame : CodeManager.SameCode partnerCode client.ownCode
  · rw [connectWithPartner_own hsame]
    simp [AllOrNothing, ConnectEnd.settled, hsame]
  obtain ⟨ownId, partnerId, hownId, hpartnerId, hcall⟩ :=
    connectWithPartner_known hwf hunsaved hown hsame hpartner
  obtain ⟨existing, ownAnswer, partnerAnswer⟩ := answers
  rw [hcall]
  cases existing with
  | false => simp [AllOrNothing, ConnectEnd.settled]
  | true =>
      cases ownAnswer with
      | false => simp [AllOrNothing, ConnectEnd.settled]
      | true =>
          cases partnerAnswer with
          | false =>
              simpa [hsame] using
                allOrNothing_trapped_iff hwf hownId .emptyDocumentID first second
          | true =>
              simpa [hsame] using allOrNothing_success_iff hwf hownId hpartnerId
                (CodeManager.ne_of_not_sameCode hsame) first second

/-- The update of the partner's document is rejected after the call has thrown
`success`. -/
theorem success_with_one_update :
    ¬ ∀ (users : Users) (client : Client) (partnerCode : String), users.WellFormed →
      client.unsaved = [] → client.ownCode ∈ users.codes → partnerCode ∈ users.codes →
      ∀ first second : Bool,
        AllOrNothing users client partnerCode
          (client.connectWithPartner users .succeeding partnerCode)
          ((client.connectWithPartner users .succeeding partnerCode).settled users
            [first, second]) := by
  intro hall
  have hduo := hall System.duo.users (System.duo.client false) "BBBBBBBBBB"
    System.duo_listening.established.users rfl (by decide) (by decide) true false
  exact absurd (hduo.1 rfl).2 (by decide)

/-- Both updates are accepted. -/
theorem all_or_nothing_duo :
    AllOrNothing System.duo.users (System.duo.client false) "BBBBBBBBBB"
      ((System.duo.client false).connectWithPartner System.duo.users .succeeding "BBBBBBBBBB")
      (((System.duo.client false).connectWithPartner System.duo.users .succeeding
        "BBBBBBBBBB").settled System.duo.users [true, true]) :=
  (connectWithPartner_all_or_nothing_iff System.duo_listening.established.users rfl (by decide)
    (by decide) .succeeding true true).mpr
    (.inr (.inr (.inr (.inr ⟨rfl, .inl rfl, .inl rfl⟩))))

/-! ## The call and the threads -/

/-- The threads of a client make at most the given number of steps, one after the other,
while its writes stay in flight. -/
def drive (users : Users) (choose : Thread → Choice) : ℕ → Client → Client
  | 0, client => client
  | n + 1, client =>
      match client.threads with
      | [] => client
      | thread :: _ =>
          if client.trap = none then
            drive users choose n ((client.dequeue thread).advance users (choose thread) thread)
          else client

theorem drive_idle (hthreads : client.threads = []) (choose : Thread → Choice) (n : ℕ) :
    client.drive users choose n = client := by
  cases n with
  | zero => rfl
  | succ n => simp [drive, hthreads]

/-- The only thread makes its step. -/
theorem drive_spawn (hthreads : client.threads = []) (htrap : client.trap = none)
    (choose : Thread → Choice) (n : ℕ) (thread : Thread) :
    (client.spawn thread).drive users choose (n + 1) =
      (client.advance users (choose thread) thread).drive users choose n := by
  have hdequeue : (client.spawn thread).dequeue thread = client := by
    simp [dequeue, hthreads]
    rw [← hthreads]
  have hspawned : (client.spawn thread).threads = [thread] := by
    simp [hthreads]
  have halive : (client.spawn thread).trap = none := htrap
  simp only [drive, hspawned, if_pos halive, hdequeue]

end Client

/-- The client at the end of a call: its updates are in flight, and the catch clause for
`success` is what runs next. -/
def ConnectEnd.client (done : ConnectEnd) (client : Client) (origin : Origin) : Client :=
  { done.writes.foldl (fun client write => client.issue write none) client with
    threads :=
      match done.result with
      | .ok .success => [.didConnectedPartner origin]
      | _ => []
    partnerCode := done.partnerCode
    trap :=
      match done.result with
      | .error trap => some trap
      | .ok _ => none }

namespace Client

variable {users : Users} {client : Client}

theorem outbox_issue_all (client : Client) (writes : List Write) :
    (writes.foldl (fun client write => client.issue write none) client).outbox =
      client.outbox ++ writes.map fun write => ⟨write, none⟩ := by
  induction writes generalizing client with
  | nil => simp
  | cons write rest ih =>
      rw [List.foldl_cons, ih]
      simp

theorem connectEnd_client_refused (hthreads : client.threads = []) (htrap : client.trap = none)
    {result : ConnectionManagerResultType} (hresult : result ≠ .success) (origin : Origin) :
    ConnectEnd.client ⟨.ok result, [], client.partnerCode⟩ client origin = client := by
  cases client
  cases result <;> simp_all [ConnectEnd.client]

theorem connectEnd_client_trapped (hthreads : client.threads = []) (trap : Trap)
    (origin : Origin) :
    ConnectEnd.client ⟨.error trap, [], client.partnerCode⟩ client origin = client.halt trap := by
  simp [ConnectEnd.client, hthreads]

/-- With no other step in between, the threads end as the call says. -/
theorem drive_connectWithPartner {ownCode : String} (hcode : client.code = some ownCode)
    (hthreads : client.threads = []) (htrap : client.trap = none) (origin : Origin)
    (partnerCode : String) {answers : Answers} {choose : Thread → Choice}
    (hexisting : (choose (.isExistingCode origin partnerCode)).succeeds = answers.isExistingCode)
    (hownId : (choose (.getOwnId origin partnerCode)).succeeds = answers.ownId)
    (hpartnerId : ∀ ownId,
      (choose (.getPartnerId origin partnerCode client.ownCode ownId)).succeeds =
        answers.partnerId) :
    (client.spawn (.connectWithPartner origin partnerCode)).drive users choose 7 =
      (client.connectWithPartner users answers partnerCode).client client origin := by
  -- guard by guard: where the call ends, no thread is left to be driven
  rw [drive_spawn hthreads htrap]
  simp only [advance, getCode_of_some hcode, connectWithPartner]
  by_cases hsame : CodeManager.SameCode partnerCode client.ownCode
  · rw [if_pos hsame, if_pos hsame, drive_idle hthreads,
      connectEnd_client_refused hthreads htrap (by decide)]
  rw [if_neg hsame, if_neg hsame, drive_spawn hthreads htrap]
  simp only [advance, hexisting]
  cases hexists : ConnectionManager.isExistingCode
      (client.query users answers.isExistingCode partnerCode) with
  | false =>
      simp only [Bool.false_eq_true, if_false, if_true]
      rw [drive_idle hthreads, connectEnd_client_refused hthreads htrap (by decide)]
  | true =>
      simp only [if_true, Bool.true_eq_false, if_false]
      rw [drive_spawn hthreads htrap]
      simp only [advance, getCode_of_some hcode, hownId, getIdByCode]
      cases ConnectionManager.getIdByCode (client.query users answers.ownId client.ownCode) with
      | error trap =>
          dsimp only
          rw [drive_idle (by exact hthreads), connectEnd_client_trapped hthreads]
      | ok ownId =>
          dsimp only
          rw [drive_spawn hthreads htrap]
          simp only [advance, hpartnerId, getIdByCode]
          cases ConnectionManager.getIdByCode
              (client.query users answers.partnerId partnerCode) with
          | error trap =>
              dsimp only
              rw [drive_idle (by exact hthreads), connectEnd_client_trapped hthreads]
          | ok partnerId =>
              dsimp only
              rw [drive_spawn hthreads htrap]
              simp only [advance, document]
              by_cases hownEmpty : ownId = ""
              · rw [if_pos hownEmpty, if_pos hownEmpty, drive_idle (by exact hthreads),
                  connectEnd_client_trapped hthreads]
              rw [if_neg hownEmpty, if_neg hownEmpty,
                drive_spawn (by exact hthreads) (by exact htrap)]
              simp only [advance, document]
              by_cases hpartnerEmpty : partnerId = ""
              · rw [if_pos hpartnerEmpty, if_pos hpartnerEmpty, drive_idle (by exact hthreads)]
                simp [ConnectEnd.client, hthreads]
              rw [if_neg hpartnerEmpty, if_neg hpartnerEmpty,
                drive_spawn (by exact hthreads) (by exact htrap)]
              simp [advance, ConnectEnd.client, hthreads, htrap, drive]

end Client

namespace System

variable {ι : Type*}

variable [DecidableEq ι]

theorem set_client (state : System ι) (i : ι) : state.set i (state.client i) = state := by
  simp [set]

theorem set_set (state : System ι) (i : ι) (first second : Client) :
    (state.set i first).set i second = state.set i second := by
  simp [set]

/-- What the threads of a client do on their own is a run of the system. -/
theorem reaches_drive (state : System ι) (i : ι) (choose : Thread → Choice) (n : ℕ) :
    Reaches step (fun _ _ => True) state
      (state.set i ((state.client i).drive state.users choose n)) := by
  induction n generalizing state with
  | zero =>
      rw [Client.drive, set_client]
      exact .refl
  | succ n ih =>
      cases hthreads : (state.client i).threads with
      | nil =>
          rw [Client.drive_idle hthreads, set_client]
          exact .refl
      | cons thread rest =>
          by_cases htrap : (state.client i).trap = none
          · set next := ((state.client i).dequeue thread).advance state.users (choose thread) thread
              with hnext
            have hstep : state.step (.act i (.advance thread (choose thread))) =
                some (state.set i next) := by
              simp [step, htrap, Client.act, hthreads, hnext]
            have hrest := ih (state.set i next)
            rw [set_client_self, set_set, set_users] at hrest
            simp only [Client.drive, hthreads, if_pos htrap, ← hnext]
            exact .head ⟨_, trivial, hstep⟩ hrest
          · simp only [Client.drive, hthreads, if_neg htrap, set_client]
            exact .refl

/-- The oldest update in flight is accepted or rejected. -/
theorem exists_settle {state : System ι} (hwf : state.users.WellFormed) {i : ι}
    {documentID partnerCode : String} {rest : List Pending}
    (houtbox : (state.client i).outbox = ⟨.updateData documentID partnerCode, none⟩ :: rest)
    (accepted : Bool) :
    ∃ next, state.step (.settle i accepted) = some next ∧
      next.users =
        (if accepted then state.users.write (.updateData documentID partnerCode)
          else state.users) ∧
      ∃ cache listeners, next.client i =
        { state.client i with outbox := rest, cache := cache, listeners := listeners } := by
  cases accepted with
  | false =>
      refine ⟨state.settled i ⟨.updateData documentID partnerCode, none⟩ rest,
        by simp [step, settle, houtbox], rfl, (state.client i).cache,
        ((state.client i).settled ⟨.updateData documentID partnerCode, none⟩ rest).listeners, ?_⟩
      simp [settled, Client.settled]
  | true =>
      obtain ⟨cache, hclient⟩ := state.commit_client i (.updateData documentID partnerCode) i
      refine ⟨(state.commit i (.updateData documentID partnerCode)).settled i
        ⟨.updateData documentID partnerCode, none⟩ rest, by simp [step, settle, houtbox],
        users_commit_updateData hwf i documentID partnerCode, cache,
        ({ state.client i with cache := cache }.settled
          ⟨.updateData documentID partnerCode, none⟩ rest).listeners, ?_⟩
      simp [settled, Client.settled, hclient]

/-- The updates in flight are accepted and rejected in turn. -/
theorem reaches_settled {state : System ι} (hwf : state.users.WellFormed) {i : ι}
    {writes : List Write} {accepted : List Bool} (hlength : writes.length ≤ accepted.length)
    (hupdates : ∀ write ∈ writes, ∃ documentID partnerCode,
      write = .updateData documentID partnerCode)
    (houtbox : (state.client i).outbox = writes.map fun write => ⟨write, none⟩) :
    ∃ final, Reaches step (fun _ _ => True) state final ∧
      final.users = (writes.zip accepted).foldl
        (fun users entry => if entry.2 then users.write entry.1 else users) state.users ∧
      ∃ cache listeners, final.client i =
        { state.client i with outbox := [], cache := cache, listeners := listeners } := by
  induction writes generalizing state accepted with
  | nil =>
      refine ⟨state, .refl, rfl, (state.client i).cache, (state.client i).listeners, ?_⟩
      rw [← show (state.client i).outbox = [] from houtbox]
  | cons write rest ih =>
      cases accepted with
      | nil => simp at hlength
      | cons answer answers =>
          obtain ⟨documentID, partnerCode, rfl⟩ := hupdates write List.mem_cons_self
          obtain ⟨next, hstep, husers, _, _, hclient⟩ := exists_settle hwf houtbox answer
          have hindex : next.users.index = state.users.index := by
            rw [husers]
            cases answer with
            | false => rfl
            | true => exact Users.index_setPartnerCode state.users documentID partnerCode
          obtain ⟨final, hreach, hfinal, cache, listeners, hlast⟩ := ih (hwf.congr hindex)
            (Nat.le_of_succ_le_succ hlength)
            (fun write hmem => hupdates write (List.mem_cons_of_mem _ hmem)) (by rw [hclient])
          refine ⟨final, .head ⟨_, trivial, hstep⟩ hreach, ?_, cache, listeners, ?_⟩
          · rw [hfinal, husers]
            rfl
          · rw [hlast, hclient]

/-- From a client with nothing running, entering a partner's code can run as one call,
whatever its queries answer and however its updates are settled. -/
theorem reaches_connectWithPartner {state : System ι} (hwf : state.users.WellFormed) {i : ι}
    {ownCode : String} (hcode : (state.client i).code = some ownCode)
    (hthreads : (state.client i).threads = []) (houtbox : (state.client i).outbox = [])
    (htrap : (state.client i).trap = none) (origin : Origin) (partnerCode : String)
    (answers : Answers) (first second : Bool) :
    let done := (state.client i).connectWithPartner state.users answers partnerCode
    ∃ final, Reaches step (fun _ _ => True) state final ∧
      final.users = done.settled state.users [first, second] ∧
      ∃ cache listeners, final.client i =
        { done.client (state.client i) origin with
          outbox := []
          cache := cache
          listeners := listeners } := by
  intro done
  -- the queries of the three lookups are answered as given
  let choose : Thread → Choice := fun thread =>
    { querying with
      succeeds :=
        match thread with
        | .isExistingCode _ _ => answers.isExistingCode
        | .getOwnId _ _ => answers.ownId
        | _ => answers.partnerId }
  set entered := state.set i ((state.client i).spawn (.connectWithPartner origin partnerCode))
    with hentered
  have henter : state.step (.act i (.enterCode origin partnerCode)) = some entered := by
    simp [step, htrap, Client.act, hentered]
  have hdrive := reaches_drive entered i choose 7
  rw [hentered, set_client_self, set_set, set_users,
    @Client.drive_connectWithPartner _ _ _ hcode hthreads htrap origin partnerCode answers choose
      rfl rfl fun _ => rfl] at hdrive
  set ended := state.set i (done.client (state.client i) origin) with hended
  have hwrites : (ended.client i).outbox = done.writes.map fun write => ⟨write, none⟩ := by
    have hissued := Client.outbox_issue_all (state.client i) done.writes
    rw [houtbox, List.nil_append] at hissued
    rw [hended, set_client_self]
    exact hissued
  obtain ⟨hlength, hupdates⟩ := (state.client i).connectWithPartner_writes state.users answers
    partnerCode
  have hsettle := @reaches_settled ι _ ended hwf i done.writes [first, second] hlength hupdates
    hwrites
  obtain ⟨final, hreach, husers, cache, listeners, hclient⟩ := hsettle
  refine ⟨final, .head ⟨_, trivial, henter⟩ (hdrive.trans hreach), husers, cache, listeners, ?_⟩
  rw [hclient, hended, set_client_self]

end System

end Pompom
