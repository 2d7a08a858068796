import Pompom.Pairing.References

/-!
# Who ends a connection

A document loses its partner when a write of a blank `partner_code` takes effect.  Such
writes come from `deletePartnerCode` only, which the dialog of the settings calls:
`connectWithPartner` writes codes that it has found in the collection, and no code is
blank.  So where a connection has ended, the write that ended it was issued by
`updatePartnerCodeBy` on an install whose user had confirmed the dialog, however many
launches and interleaved operations lie between (`unpaired_only_after_disconnect`).

The button that opens the dialog is commented out in `SettingsView`, so at present no
run has such a step, and a user who has been connected stays connected, if not to the
same partner.
-/

namespace Pompom

open Lib

theorem CodeManager.Generated.not_blank {code : String}
    (hgenerated : CodeManager.Generated code) : ¬ Blank code := by
  rintro (rfl | rfl)
  · exact absurd hgenerated.1 (by decide)
  · exact absurd hgenerated.1 (by decide)

/-- The threads that write a code carry one, and `kept` says that there are none that
delete. -/
def Thread.Attached (kept : Prop) : Thread → Prop
  | .saveCode code => ¬ Blank code
  | .getOwnId _ partnerCode => ¬ Blank partnerCode
  | .getPartnerId _ partnerCode ownCode _ | .updateOwn _ partnerCode ownCode _ _ =>
      ¬ Blank partnerCode ∧ ¬ Blank ownCode
  | .updatePartner _ _ ownCode _ => ¬ Blank ownCode
  | .deletePartnerCode _ | .updatePartnerCodeBy _ _ => ¬ kept
  | _ => True

/-- The code of a new document is not blank. -/
def Write.Attached : Write → Prop
  | .addDocument document => ¬ Blank document.code
  | .updateData _ _ => True

namespace Client

/-- A client that deletes no partner, as long as `kept` holds, and none of whose codes is
blank. -/
structure Attached (kept : Prop) (client : Client) : Prop where
  code : ∀ code, client.code = some code → ¬ Blank code
  threads : ∀ thread ∈ client.running, thread.Attached kept
  writes : ∀ pending ∈ client.outbox, pending.write.Attached

variable {kept : Prop} {users : Users} {client : Client}

theorem Attached.spawn (hattached : client.Attached kept) {thread : Thread}
    (hthread : thread.Attached kept) : (client.spawn thread).Attached kept := by
  refine ⟨hattached.code, fun other hother => ?_, hattached.writes⟩
  rcases mem_running_spawn.mp hother with rfl | hother
  · exact hthread
  · exact hattached.threads other hother

theorem Attached.issue (hattached : client.Attached kept) (write : Write)
    (hwrite : write.Attached) {resume : Option Thread}
    (hresume : ∀ thread ∈ resume, thread.Attached kept) :
    (client.issue write resume).Attached kept := by
  refine ⟨hattached.code, fun thread hthread => ?_, fun pending hpending => ?_⟩
  · rcases mem_running_issue.mp hthread with hthread | hthread
    · exact hresume thread hthread
    · exact hattached.threads thread hthread
  · rcases List.mem_append.mp hpending with hpending | hpending
    · exact hattached.writes pending hpending
    · obtain rfl := List.mem_singleton.mp hpending
      exact hwrite

theorem Attached.dequeue (hattached : client.Attached kept) (thread : Thread) :
    (client.dequeue thread).Attached kept :=
  ⟨hattached.code, fun other hother => hattached.threads other
    (client.running_dequeue_subset thread hother), hattached.writes⟩

/-- What else a client stores does not matter. -/
theorem Attached.store (hattached : client.Attached kept) (partnerCode : Option String)
    (isConnectedPartner : Bool) (cache : List CachedDocument) (listeners : List UserListener)
    (trap : Option Trap) :
    Attached kept { client with
      partnerCode := partnerCode
      isConnectedPartner := isConnectedPartner
      cache := cache
      listeners := listeners
      trap := trap } :=
  ⟨hattached.code, hattached.threads, hattached.writes⟩

theorem Attached.halt (hattached : client.Attached kept) (trap : Trap) :
    (client.halt trap).Attached kept :=
  hattached.store _ _ _ _ _

theorem Attached.getCode (hattached : client.Attached kept) {newCode : String}
    (hnew : ¬ Blank newCode) : (client.getCode newCode).Attached kept := by
  unfold Client.getCode
  split
  · exact hattached
  · refine Attached.spawn ?_ hnew
    refine ⟨fun code hcode => ?_, hattached.threads, hattached.writes⟩
    obtain rfl := Option.some.inj hcode
    exact hnew

/-- No code that a query can find is blank. -/
theorem Attached.visible (hattached : client.Attached kept)
    (husers : ∀ code ∈ users.codes, ¬ Blank code) :
    ∀ code ∈ (client.visible users).codes, ¬ Blank code := by
  intro code hcode
  rcases mem_codes_visible.mp hcode with hcode | ⟨document, hdocument, rfl⟩
  · exact husers code hcode
  · obtain ⟨resume, hpending⟩ := mem_pendingDocuments.mp hdocument
    exact hattached.writes _ hpending

theorem Attached.advance (hattached : client.Attached kept)
    (husers : ∀ code ∈ users.codes, ¬ Blank code) {choice : Choice} {thread : Thread}
    (hthread : thread.Attached kept) {next : Client}
    (hadvances : Advances users choice client thread next) : next.Attached kept := by
  have hgetCode := hattached.getCode choice.generated.not_blank
  have hown := hgetCode.code _ (client.getCode_code choice.newCode)
  have hupdate (documentID partnerCode : String) {resume : Option Thread}
      (hresume : ∀ thread ∈ resume, thread.Attached kept) :
      (client.issue (.updateData documentID partnerCode) resume).Attached kept :=
    hattached.issue (.updateData documentID partnerCode) trivial hresume
  cases hadvances with
  | saveCode code => exact hattached.issue (.addDocument ⟨_, code, _⟩) hthread (by simp)
  | connectPartner | connectWithPartner => exact hgetCode.spawn trivial
  | getPartnerCodeFromServer => exact hgetCode.store _ _ _ _ _
  | callMySelf => exact hgetCode
  | isExistingCode hexisting =>
      exact hattached.spawn (hattached.visible husers _ (mem_codes_of_existing hexisting))
  | getOwnId => exact hgetCode.spawn ⟨hthread, hown⟩
  | getPartnerId | deletePartner => exact hattached.spawn hthread
  | updateOwn => exact (hupdate _ _ (by simp)).spawn hthread.2
  | updatePartner => exact (hupdate _ _ (by simp)).spawn trivial
  | setPartnerCode | removePartnerCode => exact (hattached.store _ _ _ _ _).spawn trivial
  | didConnectedPartner => exact (hattached.store _ true _ _ _).spawn trivial
  | deleteOwn => exact hgetCode.spawn hthread
  | @updatePartnerCodeBy side =>
      -- only the Task of `deletePartnerCode` awaits a write
      refine hupdate _ _ fun thread hresume => ?_
      cases side with
      | partner =>
          obtain rfl := Option.some.inj hresume
          exact hthread
      | own => simp [Side.rest] at hresume
  | didDeletePartnerCode => exact hattached.store _ false _ _ _
  | invalidPartnerCode | didConnectedPartnerInSettings | requestPartnerClothes => exact hattached
  | emptyClothesCode => exact hattached.halt _
  | halt hbefore =>
      rcases hbefore with rfl | rfl
      · exact hattached.halt _
      · exact hgetCode.halt _

theorem Attached.receive (hattached : client.Attached kept) (data : String) :
    (client.receive data).Attached kept := by
  unfold Client.receive
  split
  · exact hattached.store _ _ _ _ _
  · exact (hattached.store _ true _ _ _).spawn trivial

theorem Attached.act (hattached : client.Attached kept)
    (husers : ∀ code ∈ users.codes, ¬ Blank code) {action : Action}
    (hdisconnect : action = .disconnect → ¬ kept) {next : Client}
    (hact : client.act users action = some next) : next.Attached kept := by
  cases transition_of_act hact with
  | onAppear => exact hattached.spawn trivial
  | getCode choice => exact hattached.getCode choice.generated.not_blank
  | enterCode origin partnerCode => exact hattached.spawn trivial
  | disconnect =>
      have hspawned : (client.spawn (.deletePartnerCode .partner)).Attached kept :=
        hattached.spawn (hdisconnect rfl)
      exact hspawned.spawn trivial
  | @advance thread choice hmem =>
      exact (hattached.dequeue thread).advance husers
        (hattached.threads thread (List.mem_append_left _ hmem)) (advances users choice _ thread)
  | watch hdocument hdrop => exact ⟨hattached.code, hattached.threads, hattached.writes⟩
  | deliver hlistener hundelivered =>
      exact (hattached.store client.partnerCode client.isConnectedPartner client.cache _
        client.trap).receive _

theorem Attached.settled (hattached : client.Attached kept) {pending : Pending}
    {rest : List Pending} (houtbox : client.outbox = pending :: rest) :
    (client.settled pending rest).Attached kept := by
  refine ⟨hattached.code, fun thread hthread => ?_, fun other hother => ?_⟩
  · rw [running_settled houtbox] at hthread
    exact hattached.threads thread hthread
  · exact hattached.writes other (houtbox ▸ List.mem_cons_of_mem _ hother)

theorem Attached.relaunch (hattached : client.Attached kept) : client.relaunch.Attached kept := by
  refine ⟨hattached.code, fun thread hthread => ?_, fun pending hpending => ?_⟩
  · simp [running, Client.relaunch, List.filterMap_map] at hthread
  · obtain ⟨original, horiginal, rfl⟩ := List.mem_map.mp hpending
    exact hattached.writes original horiginal

/-! ### Where a blank comes from -/

/-- A step leaves the outbox, or appends one write to it, which is not a blank or the one of
`updatePartnerCodeBy`. -/
def Appends (blanking : Pending → Prop) (client next : Client) : Prop :=
  next.outbox = client.outbox ∨ ∃ pending, next.outbox = client.outbox ++ [pending] ∧
    ∀ documentID partnerCode, pending.write = .updateData documentID partnerCode →
      Blank partnerCode → blanking pending

theorem outbox_getCode (client : Client) (newCode : String) :
    (client.getCode newCode).outbox = client.outbox := by
  unfold Client.getCode
  split <;> rfl

/-- Of the threads that carry codes, only `updatePartnerCodeBy` writes a blank. -/
theorem appends_advance {choice : Choice} {thread : Thread} (hthread : thread.Attached kept)
    {next : Client} (hadvances : Advances users choice client thread next) :
    Appends (fun pending => ∃ side code documentID, thread = .updatePartnerCodeBy side code ∧
        pending = ⟨.updateData documentID " ", side.rest⟩) client next := by
  have hgetCode := client.outbox_getCode choice.newCode
  cases hadvances with
  | saveCode code => exact .inr ⟨_, rfl, by simp⟩
  | updateOwn =>
      refine .inr ⟨_, rfl, fun documentID written hwrite hblank => ?_⟩
      obtain ⟨rfl, rfl⟩ := Write.updateData.inj hwrite
      exact absurd hblank hthread.1
  | updatePartner =>
      refine .inr ⟨_, rfl, fun documentID written hwrite hblank => ?_⟩
      obtain ⟨rfl, rfl⟩ := Write.updateData.inj hwrite
      exact absurd hblank hthread
  | @updatePartnerCodeBy side code documentID =>
      exact .inr ⟨_, rfl, fun _ _ _ _ => ⟨side, code, documentID, rfl, rfl⟩⟩
  | connectPartner | getPartnerCodeFromServer | callMySelf | connectWithPartner | getOwnId
  | deleteOwn => exact .inl hgetCode
  | halt hbefore =>
      rcases hbefore with rfl | rfl
      · exact .inl rfl
      · exact .inl hgetCode
  | invalidPartnerCode | isExistingCode | getPartnerId | setPartnerCode | didConnectedPartner
  | didConnectedPartnerInSettings | deletePartner | removePartnerCode | didDeletePartnerCode
  | requestPartnerClothes | emptyClothesCode => exact .inl rfl

theorem Attached.appends_act (hattached : client.Attached kept) {action : Action} {next : Client}
    (hact : client.act users action = some next) :
    Appends (fun pending => ∃ side code choice documentID,
        action = .advance (.updatePartnerCodeBy side code) choice ∧
        pending = ⟨.updateData documentID " ", side.rest⟩) client next := by
  cases transition_of_act hact with
  | onAppear | enterCode | disconnect | watch => exact .inl rfl
  | getCode choice => exact .inl (client.outbox_getCode choice.newCode)
  | @advance thread choice hmem =>
      have hthread := hattached.threads thread (List.mem_append_left _ hmem)
      refine (appends_advance hthread
        (advances users choice (client.dequeue thread) thread)).imp_right ?_
      rintro ⟨pending, houtbox, hblanking⟩
      refine ⟨pending, houtbox, fun target partnerCode hwrite hblank => ?_⟩
      obtain ⟨side, code, documentID, rfl, heq⟩ := hblanking target partnerCode hwrite hblank
      exact ⟨side, code, choice, documentID, rfl, heq⟩
  | deliver hlistener hundelivered =>
      left
      unfold Client.receive
      split
      · rfl
      · rfl

end Client

/-! ## Whole runs -/

/-- A document with a partner. -/
def Users.Paired (users : Users) (documentID code : String) : Prop :=
  ∃ document ∈ users, document.documentID = documentID ∧ document.code = code ∧
    ¬ Blank document.partnerCode

instance (users : Users) (documentID code : String) : Decidable (users.Paired documentID code) :=
  inferInstanceAs (Decidable (∃ document ∈ users, _ ∧ _ ∧ _))

namespace System

variable {ι : Type*} {kept : ι → Prop}

structure Attached (kept : ι → Prop) (state : System ι) : Prop where
  users : ∀ code ∈ state.users.codes, ¬ Blank code
  client : ∀ i, (state.client i).Attached (kept i)

theorem attached_fresh : (fresh : System ι).Attached kept where
  users code hcode := absurd hcode (by simp [fresh, Users.codes])
  client i := by
    refine ⟨?_, ?_, ?_⟩ <;> simp [fresh, Client.running]

variable [DecidableEq ι]

theorem Attached.commit {state : System ι} (hattached : state.Attached kept) {i : ι}
    {pending : Pending} {rest : List Pending}
    (houtbox : (state.client i).outbox = pending :: rest) :
    (state.commit i pending.write).Attached kept := by
  have hwrite := (hattached.client i).writes pending (houtbox ▸ List.mem_cons_self)
  refine ⟨?_, fun j => ?_⟩
  · obtain ⟨write, resume⟩ := pending
    cases write with
    | addDocument document =>
        intro code hcode
        rcases List.mem_cons.mp ((state.users.codes_insertDocument_perm document).mem_iff.mp
          hcode) with rfl | hcode
        · exact hwrite
        · exact hattached.users code hcode
    | updateData documentID partnerCode =>
        rw [codes_commit_updateData]
        exact hattached.users
  · obtain ⟨cache, hcache⟩ := state.commit_client i pending.write j
    rw [hcache]
    exact (hattached.client j).store _ _ _ _ _

/-- A document keeps its partner when a write takes effect, unless the write is one of a
blank to it. -/
theorem paired_commit {state : System ι} {documentID code : String}
    (hpaired : state.users.Paired documentID code) (i : ι) {write : Write}
    (hwrite : ∀ partnerCode, write = .updateData documentID partnerCode → ¬ Blank partnerCode) :
    (state.commit i write).users.Paired documentID code := by
  obtain ⟨document, hmem, hID, hcode, hpartner⟩ := hpaired
  cases write with
  | addDocument other =>
      exact ⟨document, Users.mem_insertDocument.mpr (.inr hmem), hID, hcode, hpartner⟩
  | updateData target partnerCode =>
      refine commit_updateData_rec (P := fun next => next.users.Paired documentID code)
        (fun _ => ⟨document, hmem, hID, hcode, hpartner⟩)
        (fun _ => ⟨document, hmem, hID, hcode, hpartner⟩)
        (fun _ _ _ => ⟨_, List.mem_map_of_mem hmem, ?_⟩)
      split
      · rename_i htarget
        exact ⟨hID, hcode, hwrite partnerCode (by rw [← hID, htarget])⟩
      · exact ⟨hID, hcode, hpartner⟩

theorem Attached.set {state : System ι} (hattached : state.Attached kept) {i : ι}
    {client : Client} (hclient : client.Attached (kept i)) : (state.set i client).Attached kept :=
  ⟨hattached.users, forall_client_set (P := fun i client => client.Attached (kept i)) hclient
    hattached.client⟩

theorem Attached.occur {state next : System ι} {occurrence : Occurrence ι}
    (hattached : state.Attached kept)
    (hdisconnect : ∀ i, occurrence = .event (.act i .disconnect) → ¬ kept i)
    (hoccur : state.occur occurrence = some next) : next.Attached kept := by
  cases occurrence with
  | relaunch i =>
      obtain rfl := Option.some.inj hoccur
      exact hattached.set (hattached.client i).relaunch
  | event event =>
      cases transition_of_step hoccur with
      | act htrap hact =>
          refine hattached.set ((hattached.client _).act hattached.users ?_ hact)
          rintro rfl
          exact hdisconnect _ rfl
      | @accept i pending rest houtbox =>
          have hcommit := hattached.commit houtbox
          obtain ⟨cache, hcache⟩ := state.commit_client i pending.write i
          refine hcommit.set ((hcommit.client i).settled ?_)
          rw [hcache]
          exact houtbox
      | reject houtbox => exact hattached.set ((hattached.client _).settled houtbox)

/-- A document keeps its partner in a step that does not write a blank to it. -/
theorem paired_occur {state next : System ι} {occurrence : Occurrence ι} {documentID code : String}
    (hpaired : state.users.Paired documentID code)
    (hoccur : state.occur occurrence = some next) :
    next.users.Paired documentID code ∨
      ∃ i partnerCode resume, occurrence = .event (.settle i true) ∧ Blank partnerCode ∧
        (state.client i).outbox.head? = some ⟨.updateData documentID partnerCode, resume⟩ := by
  cases occurrence with
  | relaunch i =>
      obtain rfl := Option.some.inj hoccur
      exact .inl hpaired
  | event event =>
      cases transition_of_step hoccur with
      | act htrap hact => exact .inl hpaired
      | @accept i pending rest houtbox =>
          by_cases hblank : ∃ partnerCode, pending.write = .updateData documentID partnerCode ∧
              Blank partnerCode
          · obtain ⟨partnerCode, hwrite, hblank⟩ := hblank
            refine .inr ⟨i, partnerCode, pending.resume, rfl, hblank, ?_⟩
            rw [houtbox, ← hwrite]
            rfl
          · refine .inl (paired_commit hpaired i fun partnerCode hwrite hwritten => ?_)
            exact hblank ⟨partnerCode, hwrite, hwritten⟩
      | reject houtbox => exact .inl hpaired

/-- The clients whose users have not confirmed the dialog delete no partners. -/
theorem runEvents_attached {events : List (Occurrence ι)} {state : System ι}
    (hrun : runEvents occur fresh events = some state) :
    state.Attached fun i => .event (.act i .disconnect) ∉ events := by
  refine runEvents_invariant attached_fresh ?_ hrun
  rintro _ hmem before next hbefore hoccur
  exact hbefore.occur (fun i heq => not_not_intro (heq ▸ hmem)) hoccur

/-- A write of install `i` is settled. -/
def Settles (i : ι) : Occurrence ι → Bool
  | .event (.settle j _) => j = i
  | .event (.act _ _) | .relaunch _ => false

/-- After the events, the write that has `ahead` others before it in the outbox of install
`i` is the update of the document to a blank that `updatePartnerCodeBy` has issued for
`deletePartnerCode`, and the user had confirmed the dialog by then: of the writes that
were before it when it was issued, all but `ahead` have been settled. -/
def DeletedBy (i : ι) (documentID : String) (ahead : ℕ) (events : List (Occurrence ι)) : Prop :=
  ∃ asked queued side code choice before next,
    events = asked ++ .event (.act i (.advance (.updatePartnerCodeBy side code) choice)) ::
      queued ∧
    .event (.act i .disconnect) ∈ asked ∧
    runEvents occur fresh asked = some before ∧
    before.occur (.event (.act i (.advance (.updatePartnerCodeBy side code) choice))) =
      some next ∧
    (next.client i).outbox =
      (before.client i).outbox ++ [⟨.updateData documentID " ", side.rest⟩] ∧
    queued.countP (Settles i) + ahead = (before.client i).outbox.length

theorem DeletedBy.extend {i : ι} {documentID : String} {ahead before : ℕ}
    {events : List (Occurrence ι)} (hdeleted : DeletedBy i documentID before events)
    (occurrence : Occurrence ι)
    (hahead : (if Settles i occurrence then 1 else 0) + ahead = before) :
    DeletedBy i documentID ahead (events ++ [occurrence]) := by
  obtain ⟨asked, queued, side, code, choice, first, next, rfl, hasked, hfirst, hnext, houtbox,
    hcount⟩ := hdeleted
  refine ⟨asked, queued ++ [occurrence], side, code, choice, first, next, by simp, hasked, hfirst,
    hnext, houtbox, ?_⟩
  rw [List.countP_append, List.countP_singleton]
  omega

/-- The step of `updatePartnerCodeBy` issues the write behind those in flight. -/
theorem deletedBy_issue {asked : List (Occurrence ι)} {before next : System ι}
    (hbefore : runEvents occur fresh asked = some before) {i : ι} {side : Side}
    {code documentID : String} {choice : Choice}
    (hnext : before.occur (.event (.act i (.advance (.updatePartnerCodeBy side code) choice))) =
      some next)
    (houtbox : (next.client i).outbox =
      (before.client i).outbox ++ [⟨.updateData documentID " ", side.rest⟩]) :
    DeletedBy i documentID (before.client i).outbox.length
      (asked ++ [.event (.act i (.advance (.updatePartnerCodeBy side code) choice))]) := by
  refine ⟨asked, [], side, code, choice, before, next, rfl, ?_, hbefore, hnext, houtbox, by simp⟩
  have hstep : before.step (.act i (.advance (.updatePartnerCodeBy side code) choice)) =
      some next := hnext
  cases transition_of_step hstep with
  | act htrap hact =>
      have hthread := ((runEvents_attached hbefore).client i).threads _
        (List.mem_append_left _ (Client.advance_of_act hact).1)
      exact not_not.mp hthread

theorem outbox_settle {state next : System ι} {j : ι} {accepted : Bool}
    (hstep : state.step (.settle j accepted) = some next) (i : ι) :
    (next.client i).outbox =
      if j = i then (state.client i).outbox.tail else (state.client i).outbox := by
  have hsettled {committed : System ι} {pending : Pending} {rest : List Pending}
      (houtbox : (state.client j).outbox = pending :: rest)
      (hcommitted : (committed.client i).outbox = (state.client i).outbox) :
      ((committed.settled j pending rest).client i).outbox =
        if j = i then (state.client i).outbox.tail else (state.client i).outbox := by
    by_cases hij : j = i
    · subst hij
      rw [if_pos rfl, houtbox, settled, set_client_self]
      rfl
    · rw [if_neg hij, settled, set_client_of_ne _ (Ne.symm hij), hcommitted]
  cases transition_of_step hstep with
  | @accept _ pending rest houtbox =>
      obtain ⟨cache, hcache⟩ := state.commit_client j pending.write i
      exact hsettled houtbox (by rw [hcache])
  | reject houtbox => exact hsettled houtbox rfl

/-- A blank that is in flight after a relaunch was so before. -/
theorem blank_of_relaunch {state : System ι} {i j : ι} {ahead : ℕ} {write : Write}
    {resume : Option Thread}
    (hpending : ((state.set j (state.client j).relaunch).client i).outbox[ahead]? =
      some ⟨write, resume⟩) :
    ∃ resume', (state.client i).outbox[ahead]? = some ⟨write, resume'⟩ := by
  by_cases hij : i = j
  · subst hij
    rw [set_client_self, Client.relaunch, List.getElem?_map] at hpending
    obtain ⟨⟨write', resume'⟩, hget, heq⟩ := Option.map_eq_some_iff.mp hpending
    obtain ⟨rfl, -⟩ := Pending.mk.inj heq
    exact ⟨resume', hget⟩
  · rw [set_client_of_ne _ hij] at hpending
    exact ⟨resume, hpending⟩

/-- A blank that is in flight after an action was so before, or the action is a step of
`updatePartnerCodeBy` that has issued it behind all others. -/
theorem blank_of_act {kept : ι → Prop} {state next : System ι} (hattached : state.Attached kept)
    {i j : ι} {action : Action} (hstep : state.step (.act j action) = some next) {ahead : ℕ}
    {documentID partnerCode : String} {resume : Option Thread}
    (hpending : (next.client i).outbox[ahead]? = some ⟨.updateData documentID partnerCode, resume⟩)
    (hblank : Blank partnerCode) :
    (state.client i).outbox[ahead]? = some ⟨.updateData documentID partnerCode, resume⟩ ∨
      ahead = (state.client i).outbox.length ∧ j = i ∧ ∃ side code choice,
        action = .advance (.updatePartnerCodeBy side code) choice ∧
        (next.client i).outbox =
          (state.client i).outbox ++ [⟨.updateData documentID " ", side.rest⟩] := by
  cases transition_of_step hstep with
  | act htrap hact =>
      by_cases hij : i = j
      · subst hij
        rw [set_client_self] at hpending ⊢
        rcases (hattached.client i).appends_act hact with houtbox | ⟨pending, houtbox, hblanking⟩
        · exact .inl (houtbox ▸ hpending)
        · rw [houtbox, List.getElem?_append] at hpending
          split at hpending
          · exact .inl hpending
          · rename_i hlength
            rw [List.getElem?_singleton] at hpending
            split at hpending
            · obtain rfl := Option.some.inj hpending
              obtain ⟨side, code, choice, target, haction, heq⟩ :=
                hblanking documentID partnerCode rfl hblank
              obtain ⟨hwrite, rfl⟩ := Pending.mk.inj heq
              obtain ⟨rfl, rfl⟩ := Write.updateData.inj hwrite
              exact .inr ⟨by omega, rfl, side, code, choice, haction, houtbox⟩
            · simp at hpending
      · rw [set_client_of_ne _ hij] at hpending
        exact .inl hpending

/-- Every blank in flight comes from `updatePartnerCodeBy`. -/
theorem runEvents_deletedBy {events : List (Occurrence ι)} {state : System ι}
    (hrun : runEvents occur fresh events = some state) (i : ι) {ahead : ℕ}
    {documentID partnerCode : String} {resume : Option Thread}
    (hpending : (state.client i).outbox[ahead]? = some ⟨.updateData documentID partnerCode, resume⟩)
    (hblank : Blank partnerCode) : DeletedBy i documentID ahead events := by
  induction events using List.reverseRecOn generalizing state ahead resume with
  | nil =>
      obtain rfl : fresh = state := by simpa [runEvents] using hrun
      simp [fresh] at hpending
  | append_singleton events occurrence ih =>
      rw [runEvents_concat] at hrun
      obtain ⟨before, hbefore, hlast⟩ := Option.bind_eq_some_iff.mp hrun
      cases occurrence with
      | relaunch j =>
          obtain rfl := Option.some.inj hlast
          obtain ⟨resume', hearlier⟩ := blank_of_relaunch hpending
          exact (ih hbefore hearlier).extend _ (by simp [Settles])
      | event event =>
          have hstep : before.step event = some state := hlast
          cases event with
          | settle j accepted =>
              rw [outbox_settle hstep i] at hpending
              by_cases hij : j = i
              · rw [if_pos hij, List.getElem?_tail] at hpending
                exact (ih hbefore hpending).extend _ (by simp [Settles, hij, Nat.add_comm])
              · rw [if_neg hij] at hpending
                exact (ih hbefore hpending).extend _ (by simp [Settles, hij])
          | act j action =>
              rcases blank_of_act (runEvents_attached hbefore) hstep hpending hblank with
                hearlier | ⟨rfl, rfl, side, code, choice, rfl, houtbox⟩
              · exact (ih hbefore hearlier).extend _ (by simp [Settles])
              · exact deletedBy_issue hbefore hstep houtbox

/-- In every run, a document that has a partner and later has none has lost it to a blank
that `updatePartnerCodeBy` has written for `deletePartnerCode`, on an install on which the
disconnect dialog had been confirmed. -/
theorem unpaired_only_after_disconnect {earlier rest : List (Occurrence ι)}
    {state later : System ι} (hearlier : runEvents occur fresh earlier = some state)
    (hlater : runEvents occur state rest = some later) {documentID code : String}
    (hpaired : state.users.Paired documentID code) :
    later.users.Paired documentID code ∨
      ∃ i before after, rest = before ++ .event (.settle i true) :: after ∧
        DeletedBy i documentID 0 (earlier ++ before) := by
  induction rest using List.reverseRecOn generalizing later with
  | nil =>
      obtain rfl : state = later := by simpa [runEvents] using hlater
      exact .inl hpaired
  | append_singleton rest occurrence ih =>
      rw [runEvents_concat] at hlater
      obtain ⟨between, hbetween, hlast⟩ := Option.bind_eq_some_iff.mp hlater
      rcases ih hbetween with hkeeps | ⟨i, before, after, rfl, hdeleted⟩
      · have hrun : runEvents occur fresh (earlier ++ rest) = some between := by
          rw [runEvents_append, hearlier]
          exact hbetween
        rcases paired_occur hkeeps hlast with hnext | ⟨i, partnerCode, resume, rfl, hblank, hhead⟩
        · exact .inl hnext
        · rw [List.head?_eq_getElem?] at hhead
          exact .inr ⟨i, rest, [], rfl, runEvents_deletedBy hrun i hhead hblank⟩
      · exact .inr ⟨i, before, after ++ [occurrence], by simp, hdeleted⟩

/-! ### A pair that is parted -/

/-- The first of the two installs disconnects, and the document of the second is
updated. -/
def disconnecting : List (Occurrence Bool) :=
  [.event (.act true .disconnect),
    .event (.act true (.advance (.deletePartnerCode .partner) querying)),
    .event (.act true (.advance (.updatePartnerCodeBy .partner "BBBBBBBBBB") querying)),
    .event (.settle true true)]

theorem unpaired_only_after_disconnect_pair : ∃ state later : System Bool,
    runEvents occur fresh pairThenRelaunch = some state ∧
      runEvents occur state disconnecting = some later ∧
      state.users.Paired "b" "BBBBBBBBBB" ∧
      ∃ i before after, disconnecting = before ++ .event (.settle i true) :: after ∧
        DeletedBy i "b" 0 (pairThenRelaunch ++ before) := by
  have hrun : (runEvents occur fresh pairThenRelaunch).any (fun state =>
      decide (state.users.Paired "b" "BBBBBBBBBB") &&
        (runEvents occur state disconnecting).any fun later =>
          decide (¬ later.users.Paired "b" "BBBBBBBBBB")) = true := by decide
  obtain ⟨state, hstate, htest⟩ := (Option.any_eq_true _ _).mp hrun
  obtain ⟨hpaired, hrest⟩ := Bool.and_eq_true_iff.mp htest
  obtain ⟨later, hlater, hparted⟩ := (Option.any_eq_true _ _).mp hrest
  refine ⟨state, later, hstate, hlater, of_decide_eq_true hpaired, ?_⟩
  exact (unpaired_only_after_disconnect hstate hlater (of_decide_eq_true hpaired)).resolve_left
    (of_decide_eq_true hparted)

end System

end Pompom
