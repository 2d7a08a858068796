import Pompom.Pairing.Lookup

/-!
# Requests for the partner's clothes

`requestPartnerClothes` reads the partner's code from UserDefaults and refers to a clothes
document by it; Firestore raises an exception if the code is empty.  Both Tasks that call
it are started when a code has just been stored: by the listener of
`getPartnerCodeFromServer`, and by `didConnectedPartner` of the main screen.  But the
Task reads UserDefaults again when it runs, and where `deletePartnerCode` removes the
entry, the listener stores an empty code for a blank one.

No empty code is requested as long as no snapshot with a blank `partner_code` is handled
between the start of such a Task and its run (`Calm`), and after the first snapshot that
is, one can be (`no_clothes_of_empty_code`).  The installs may be relaunched at any time.

A code that a user enters is stored only if `isExistingCode` has found it, so the
invariant is that every code that is about was drawn by `generateCode` (`Proper`) and that
UserDefaults holds no empty code while a request is pending (`Guarded`).
-/

namespace Pompom

open Lib

/-! ## Codes that are not empty -/

theorem CodeManager.Generated.ne_empty {code : String} (hgenerated : CodeManager.Generated code) :
    code ≠ "" := by
  rintro rfl
  exact absurd hgenerated.1 (by decide)

/-- What holds of a thread, given the partner's code in UserDefaults: a code that it
carries after `isExistingCode` is not empty, and neither is the one that it will request
clothes for. -/
def Thread.Guarded (stored : Option String) : Thread → Prop
  | .getOwnId _ partnerCode => partnerCode ≠ ""
  | .getPartnerId _ partnerCode _ _ => partnerCode ≠ ""
  | .updateOwn _ partnerCode _ _ _ => partnerCode ≠ ""
  | .updatePartner _ partnerCode _ _ => partnerCode ≠ ""
  | .setPartnerCode _ partnerCode => partnerCode ≠ ""
  | .didConnectedPartner .main => stored ≠ some ""
  | .requestPartnerClothes => stored ≠ some ""
  | _ => True

theorem Thread.Guarded.of_ne {stored updated : Option String} {thread : Thread}
    (hthread : thread.Guarded stored) (hupdated : updated ≠ some "") :
    thread.Guarded updated := by
  cases thread with
  | didConnectedPartner origin =>
      cases origin with
      | main => exact hupdated
      | settings => trivial
  | requestPartnerClothes => exact hupdated
  | _ => exact hthread

/-- Only the threads that lead to a request depend on UserDefaults. -/
theorem Thread.Guarded.of_other {stored updated : Option String} {thread : Thread}
    (hthread : thread.Guarded stored) (hrequest : thread ≠ .requestPartnerClothes)
    (hconnected : thread ≠ .didConnectedPartner .main) : thread.Guarded updated := by
  cases thread with
  | didConnectedPartner origin =>
      cases origin with
      | main => exact absurd rfl hconnected
      | settings => trivial
  | requestPartnerClothes => exact absurd rfl hrequest
  | _ => exact hthread

namespace Client

/-- A request for the partner's clothes has been started, or will be by the handler of a
connection that was made. -/
def Requesting (client : Client) : Prop :=
  .requestPartnerClothes ∈ client.threads ∨ .didConnectedPartner .main ∈ client.threads

instance (client : Client) : Decidable client.Requesting :=
  inferInstanceAs (Decidable (_ ∨ _))

/-- The `partner_code` of the snapshot that a listener is about to handle. -/
def delivered (client : Client) (index : ℕ) : Option String :=
  client.listeners[index]?.bind fun listener => listener.undelivered.head?

/-- The process is started again.  UserDefaults and the writes in flight survive. -/
def relaunch (client : Client) : Client :=
  { code := client.code
    partnerCode := client.partnerCode
    outbox := client.outbox.map fun pending => { pending with resume := none } }

structure Guarded (client : Client) : Prop where
  threads : ∀ thread ∈ client.threads, thread.Guarded client.partnerCode
  resumes : ∀ pending ∈ client.outbox, ∀ thread ∈ pending.resume,
    thread = .deletePartnerCode .own
  trap : client.trap ≠ some .emptyClothesCode

variable {users : Users} {client : Client}

theorem Guarded.spawn (hguarded : client.Guarded) {thread : Thread}
    (hthread : thread.Guarded client.partnerCode) : (client.spawn thread).Guarded := by
  refine ⟨?_, hguarded.resumes, hguarded.trap⟩
  intro other hother
  rcases List.mem_append.mp hother with hold | hnew
  · exact hguarded.threads other hold
  · obtain rfl := List.mem_singleton.mp hnew
    exact hthread

theorem Guarded.issue (hguarded : client.Guarded) (write : Write) {resume : Option Thread}
    (hresume : ∀ thread ∈ resume, thread = .deletePartnerCode .own) :
    (client.issue write resume).Guarded := by
  refine ⟨hguarded.threads, ?_, hguarded.trap⟩
  intro pending hpending
  rcases List.mem_append.mp hpending with hold | hnew
  · exact hguarded.resumes pending hold
  · obtain rfl := List.mem_singleton.mp hnew
    exact hresume

theorem Guarded.halt (hguarded : client.Guarded) {trap : Trap} (htrap : trap ≠ .emptyClothesCode) :
    (client.halt trap).Guarded :=
  ⟨hguarded.threads, hguarded.resumes, by simpa using htrap⟩

theorem Guarded.dequeue (hguarded : client.Guarded) (thread : Thread) :
    (client.dequeue thread).Guarded :=
  ⟨fun other hother => hguarded.threads other (List.mem_of_mem_erase hother), hguarded.resumes,
    hguarded.trap⟩

/-- A code that is not empty can be stored, and the entry can be removed. -/
theorem Guarded.store (hguarded : client.Guarded) {stored : Option String}
    (hstored : stored ≠ some "") (isConnectedPartner : Bool) (listeners : List UserListener) :
    Guarded { client with
      partnerCode := stored
      isConnectedPartner := isConnectedPartner
      listeners := listeners } :=
  ⟨fun thread hthread => (hguarded.threads thread hthread).of_ne hstored, hguarded.resumes,
    hguarded.trap⟩

theorem Guarded.getCode (hguarded : client.Guarded) (newCode : String) :
    (client.getCode newCode).Guarded := by
  unfold Client.getCode
  split
  · exact hguarded
  · refine Guarded.spawn ?_ trivial
    exact ⟨hguarded.threads, hguarded.resumes, hguarded.trap⟩

theorem Guarded.settled (hguarded : client.Guarded) {pending : Pending} {rest : List Pending}
    (houtbox : client.outbox = pending :: rest) : (client.settled pending rest).Guarded := by
  refine ⟨?_, ?_, hguarded.trap⟩
  · intro thread hthread
    rcases List.mem_append.mp hthread with hold | hnew
    · exact hguarded.threads thread hold
    · have hpending : pending ∈ client.outbox := houtbox ▸ List.mem_cons_self
      rw [hguarded.resumes pending hpending thread (Option.mem_toList.mp hnew)]
      trivial
  · intro other hother
    exact hguarded.resumes other (houtbox ▸ List.mem_cons_of_mem _ hother)

/-! ## Steps of a client -/

/-- A thread that has been taken off the list makes its next step. -/
theorem Guarded.advance (hguarded : client.Guarded)
    (hcodes : ∀ code ∈ (client.visible users).codes, code ≠ "") {choice : Choice}
    {thread : Thread} (hthread : thread.Guarded client.partnerCode) {next : Client}
    (hadvances : Advances users choice client thread next) : next.Guarded := by
  have hgetCode := hguarded.getCode choice.newCode
  cases hadvances with
  | saveCode code => exact hguarded.issue _ (by simp)
  | connectPartner | connectWithPartner | deleteOwn => exact hgetCode.spawn trivial
  | getPartnerCodeFromServer => exact ⟨hgetCode.threads, hgetCode.resumes, hgetCode.trap⟩
  | callMySelf => exact hgetCode
  | @isExistingCode origin partnerCode hexisting =>
      exact hguarded.spawn (hcodes partnerCode (mem_codes_of_existing hexisting))
  | getOwnId => exact hgetCode.spawn hthread
  | getPartnerId => exact hguarded.spawn hthread
  | updateOwn | updatePartner => exact (hguarded.issue _ (by simp)).spawn hthread
  | setPartnerCode origin partnerCode =>
      -- the code that is stored has been found by `isExistingCode`
      have hstored : some partnerCode ≠ some "" := fun heq => hthread (Option.some.inj heq)
      refine (hguarded.store hstored client.isConnectedPartner client.listeners).spawn ?_
      cases origin with
      | main => exact hstored
      | settings => trivial
  | didConnectedPartner => exact (hguarded.store hthread true client.listeners).spawn hthread
  | deletePartner => exact hguarded.spawn trivial
  | @updatePartnerCodeBy side =>
      cases side with
      | partner => exact hguarded.issue _ (by simp [Side.rest])
      | own => exact hguarded.issue _ (by simp [Side.rest])
  | removePartnerCode =>
      exact (hguarded.store (by simp) client.isConnectedPartner client.listeners).spawn trivial
  | didDeletePartnerCode => exact ⟨hguarded.threads, hguarded.resumes, hguarded.trap⟩
  | invalidPartnerCode | didConnectedPartnerInSettings | requestPartnerClothes => exact hguarded
  | emptyClothesCode hempty => exact absurd hempty hthread
  | halt hbefore htrap =>
      rcases hbefore with rfl | rfl
      · exact hguarded.halt htrap
      · exact hgetCode.halt htrap

theorem delivered_eq {index : ℕ} {listener : UserListener} {data : String}
    {rest : List String} (hlistener : client.listeners[index]? = some listener)
    (hundelivered : listener.undelivered = data :: rest) :
    client.delivered index = some data := by
  rw [delivered, hlistener, Option.bind_some, hundelivered]
  rfl

/-- A blank snapshot empties the code, and does nothing else that matters here. -/
theorem receive_blank {data : String} (hblank : Blank data) :
    client.receive data = { client with partnerCode := some "", isConnectedPartner := false } := by
  have hempty := CodeManager.partnerCodeFromServer_eq_empty.mpr hblank
  rw [receive, if_pos hempty, hempty]

theorem Guarded.receive (hguarded : client.Guarded) {data : String}
    (hcalm : Blank data → ¬ client.Requesting) : (client.receive data).Guarded := by
  by_cases hblank : Blank data
  · rw [receive_blank hblank]
    refine ⟨?_, hguarded.resumes, hguarded.trap⟩
    intro thread hthread
    refine (hguarded.threads thread hthread).of_other ?_ ?_
    · rintro rfl
      exact hcalm hblank (.inl hthread)
    · rintro rfl
      exact hcalm hblank (.inr hthread)
  · have hstored : some (CodeManager.partnerCodeFromServer data) ≠ some "" := fun heq =>
      hblank (CodeManager.partnerCodeFromServer_eq_empty.mp (Option.some.inj heq))
    rw [Client.receive, if_neg fun heq => hstored (congrArg some heq)]
    exact (hguarded.store hstored true client.listeners).spawn hstored

/-- A client handles no blank snapshot while a request is pending. -/
def Calm (client : Client) : Action → Prop
  | .deliver index => ∀ data ∈ client.delivered index, Blank data → ¬ client.Requesting
  | .onAppear | .getCode _ | .enterCode _ _ | .disconnect | .advance _ _ | .watch _ _ => True

instance (client : Client) : ∀ action, Decidable (client.Calm action)
  | .deliver index => inferInstanceAs (Decidable
      (∀ data ∈ client.delivered index, Blank data → ¬ client.Requesting))
  | .onAppear | .getCode _ | .enterCode _ _ | .disconnect | .advance _ _ | .watch _ _ =>
      .isTrue trivial

theorem Guarded.act (hguarded : client.Guarded)
    (hcodes : ∀ code ∈ (client.visible users).codes, code ≠ "") {action : Action} {next : Client}
    (hcalm : client.Calm action) (hact : client.act users action = some next) : next.Guarded := by
  cases transition_of_act hact with
  | onAppear => exact hguarded.spawn trivial
  | getCode choice => exact hguarded.getCode _
  | enterCode origin partnerCode => exact hguarded.spawn trivial
  | disconnect =>
      have htask : (client.spawn (.deletePartnerCode .partner)).Guarded := hguarded.spawn trivial
      exact htask.spawn trivial
  | @advance thread choice hmem =>
      exact (hguarded.dequeue thread).advance hcodes (hguarded.threads thread hmem)
        (advances users choice _ thread)
  | watch hdocument hdrop => exact ⟨hguarded.threads, hguarded.resumes, hguarded.trap⟩
  | deliver hlistener hundelivered =>
      refine Guarded.receive ?_ (hcalm _ (delivered_eq hlistener hundelivered))
      exact ⟨hguarded.threads, hguarded.resumes, hguarded.trap⟩

/-- An action that is not calm empties the code, and the request is still pending. -/
theorem empty_of_not_calm {action : Action} {next : Client} (hrough : ¬ client.Calm action)
    (hact : client.act users action = some next) :
    next.trap = client.trap ∧ next.partnerCode = some "" ∧ next.Requesting := by
  cases transition_of_act hact with
  | @deliver index listener data rest hlistener hundelivered =>
      obtain ⟨hblank, hrequesting⟩ : Blank data ∧ client.Requesting := by
        simpa [Calm, delivered_eq hlistener hundelivered] using hrough
      rw [receive_blank hblank]
      exact ⟨rfl, rfl, hrequesting⟩
  | _ => exact absurd trivial hrough

theorem unsaved_relaunch_subset (client : Client) : client.relaunch.unsaved ⊆ client.unsaved := by
  have hrunning : client.relaunch.running = [] := by
    simp [relaunch, running, List.filterMap_map]
  have hdocuments : client.relaunch.pendingDocuments = client.pendingDocuments := by
    simp only [relaunch, pendingDocuments, List.filterMap_map]
    rfl
  rw [unsaved, hrunning, hdocuments, List.filterMap_nil, List.nil_append]
  exact List.subset_append_right _ _

theorem guarded_relaunch (client : Client) : client.relaunch.Guarded := by
  refine ⟨by simp [relaunch], ?_, by simp [relaunch]⟩
  intro pending hpending thread hthread
  obtain ⟨original, _, rfl⟩ := List.mem_map.mp hpending
  simp at hthread

end Client

/-! ## Runs with relaunches -/

/-- What happens to the installs. -/
inductive Occurrence (ι : Type*) where
  | event (event : Event ι)
  /-- The process of an install has ended and is started again. -/
  | relaunch (i : ι)

namespace System

variable {ι : Type*}

/-- No empty code is on the server, or on its way there. -/
structure Proper (state : System ι) : Prop where
  saved : ∀ code ∈ state.users.codes, code ≠ ""
  unsaved : ∀ j, ∀ code ∈ (state.client j).unsaved, code ≠ ""

theorem proper_fresh : (fresh : System ι).Proper := by
  refine ⟨?_, ?_⟩ <;>
    simp [fresh, Users.codes, Client.unsaved, Client.running, Client.pendingDocuments]

theorem Proper.visible {state : System ι} (hproper : state.Proper) (i : ι) :
    ∀ code ∈ ((state.client i).visible state.users).codes, code ≠ "" := by
  intro code hcode
  rcases Client.mem_codes_visible.mp hcode with hsaved | ⟨document, hdocument, rfl⟩
  · exact hproper.saved code hsaved
  · exact hproper.unsaved i _ (List.mem_append_right _ (List.mem_map_of_mem hdocument))

variable [DecidableEq ι]

theorem Proper.commit {state : System ι} (hproper : state.Proper) {i : ι} {pending : Pending}
    {rest : List Pending} (houtbox : (state.client i).outbox = pending :: rest) :
    ∀ code ∈ (state.commit i pending.write).users.codes, code ≠ "" := by
  obtain ⟨write, resume⟩ := pending
  cases write with
  | addDocument document =>
      intro code hcode
      rcases List.mem_cons.mp ((state.users.codes_insertDocument_perm document).mem_iff.mp hcode)
        with rfl | hsaved
      · have hpending : document ∈ (state.client i).pendingDocuments :=
          Client.mem_pendingDocuments.mpr ⟨resume, houtbox ▸ List.mem_cons_self⟩
        exact hproper.unsaved i _ (List.mem_append_right _ (List.mem_map_of_mem hpending))
      · exact hproper.saved code hsaved
  | updateData documentID partnerCode =>
      rw [codes_commit_updateData]
      exact hproper.saved

/-- The effect of an occurrence, if it can happen. -/
def occur (state : System ι) : Occurrence ι → Option (System ι)
  | .event event => state.step event
  | .relaunch i => some (state.set i (state.client i).relaunch)

theorem Proper.step {state next : System ι} {event : Event ι} (hproper : state.Proper)
    (hstep : state.step event = some next) : next.Proper := by
  cases transition_of_step hstep with
  | @act i action client htrap hact =>
      obtain ⟨newCode, hgenerated, hdrawn⟩ := Client.exists_drawnBy action
      refine ⟨hproper.saved, ?_⟩
      refine forall_client_set (P := fun _ client => ∀ code ∈ client.unsaved, code ≠ "") ?_
        hproper.unsaved
      intro code hcode
      rcases Client.act_issues hdrawn hact with ⟨_, hperm⟩ | ⟨_, _, hperm⟩
      · exact hproper.unsaved i code (hperm.mem_iff.mp hcode)
      · rcases List.mem_cons.mp (hperm.mem_iff.mp hcode) with rfl | hold
        · exact hgenerated.ne_empty
        · exact hproper.unsaved i code hold
  | @accept i pending rest houtbox =>
      refine ⟨hproper.commit houtbox, ?_⟩
      intro j code hcode
      have hsubperm := (client_settled (state.commit_client i pending.write) houtbox j).2
      exact hproper.unsaved j code (hsubperm.subset hcode)
  | @reject i pending rest houtbox =>
      refine ⟨hproper.saved, ?_⟩
      intro j code hcode
      have hsubperm := (client_settled (fun j => ⟨_, rfl⟩) houtbox j).2
      exact hproper.unsaved j code (hsubperm.subset hcode)

theorem Proper.occur {state next : System ι} {occurrence : Occurrence ι} (hproper : state.Proper)
    (hoccur : state.occur occurrence = some next) : next.Proper := by
  cases occurrence with
  | event event => exact hproper.step hoccur
  | relaunch i =>
      obtain rfl := Option.some.inj hoccur
      refine ⟨hproper.saved, ?_⟩
      refine forall_client_set (P := fun _ client => ∀ code ∈ client.unsaved, code ≠ "") ?_
        hproper.unsaved
      intro code hcode
      exact hproper.unsaved i code (Client.unsaved_relaunch_subset _ hcode)

/-! ## Requests -/

/-- Client `i` handles no blank snapshot while a request is pending. -/
def Calm (i : ι) (state : System ι) : Occurrence ι → Prop
  | .event (.act j action) => j = i → (state.client i).Calm action
  | .event (.settle _ _) | .relaunch _ => True

instance (i : ι) (state : System ι) : ∀ occurrence, Decidable (state.Calm i occurrence)
  | .event (.act j action) => inferInstanceAs (Decidable (j = i → (state.client i).Calm action))
  | .event (.settle _ _) | .relaunch _ => .isTrue trivial

theorem guarded_settled {i : ι} {state committed : System ι} (hguarded : (state.client i).Guarded)
    (hcommitted : ∀ j, ∃ cache,
      committed.client j = { state.client j with cache := cache })
    {j : ι} {pending : Pending} {rest : List Pending}
    (houtbox : (state.client j).outbox = pending :: rest) :
    ((committed.settled j pending rest).client i).Guarded := by
  refine forall_client_settled (P := fun j client => j = i → client.Guarded) hcommitted ?_ ?_ i rfl
  · rintro cache rfl
    refine Client.Guarded.settled ?_ houtbox
    exact ⟨hguarded.threads, hguarded.resumes, hguarded.trap⟩
  · rintro _ cache rfl
    exact ⟨hguarded.threads, hguarded.resumes, hguarded.trap⟩

/-- Client `i` stays guarded whichever client acts. -/
theorem guarded_occur {i : ι} {state next : System ι} {occurrence : Occurrence ι}
    (hproper : state.Proper) (hguarded : (state.client i).Guarded)
    (hcalm : state.Calm i occurrence) (hoccur : state.occur occurrence = some next) :
    (next.client i).Guarded := by
  have hbefore : ∀ j, j = i → (state.client j).Guarded := by
    rintro j rfl
    exact hguarded
  cases occurrence with
  | relaunch j =>
      obtain rfl := Option.some.inj hoccur
      refine forall_client_set (P := fun j client => j = i → client.Guarded) ?_ hbefore i rfl
      exact fun _ => Client.guarded_relaunch _
  | event event =>
      cases transition_of_step hoccur with
      | @act j action client htrap hact =>
          refine forall_client_set (P := fun j client => j = i → client.Guarded) ?_ hbefore i rfl
          rintro rfl
          exact hguarded.act (hproper.visible j) (hcalm rfl) hact
      | accept houtbox => exact guarded_settled hguarded (state.commit_client _ _) houtbox
      | reject houtbox => exact guarded_settled hguarded (fun j => ⟨_, rfl⟩) houtbox

/-- A request for an empty code ends the process. -/
theorem request_empty {i : ι} {state : System ι} (htrap : (state.client i).trap = none)
    (hempty : (state.client i).partnerCode = some "")
    (hmem : .requestPartnerClothes ∈ (state.client i).threads) :
    ∃ final, Reaches occur (fun _ _ => True) state final ∧
      (final.client i).trap = some .emptyClothesCode := by
  have hempty' : ((state.client i).dequeue .requestPartnerClothes).partnerCode = some "" := hempty
  have hstep : state.occur (.event (.act i (.advance .requestPartnerClothes querying))) =
      some (state.set i (((state.client i).dequeue .requestPartnerClothes).halt
        .emptyClothesCode)) := by
    simp only [occur, System.step, Client.act, if_pos htrap, if_pos hmem, Client.advance,
      if_pos hempty', Option.map_some]
  refine ⟨_, .single ⟨_, trivial, hstep⟩, ?_⟩
  rw [set_client_self]
  rfl

/-- A request that is pending when the code is emptied. -/
theorem requesting_empty {i : ι} {state : System ι} (htrap : (state.client i).trap = none)
    (hempty : (state.client i).partnerCode = some "") (hrequesting : (state.client i).Requesting) :
    ∃ final, Reaches occur (fun _ _ => True) state final ∧
      (final.client i).trap = some .emptyClothesCode := by
  rcases hrequesting with hrequest | hconnected
  · exact request_empty htrap hempty hrequest
  · -- the handler of the connection starts the request
    let connected : Client :=
      { (state.client i).dequeue (.didConnectedPartner .main) with isConnectedPartner := true }
    let next := state.set i (connected.spawn .requestPartnerClothes)
    have hstep : state.occur (.event (.act i (.advance (.didConnectedPartner .main) querying))) =
        some next := by
      simp only [occur, System.step, Client.act, if_pos htrap, if_pos hconnected, Client.advance,
        Option.map_some, next, connected]
    have hclient : next.client i = connected.spawn .requestPartnerClothes :=
      set_client_self _ _ _
    have htrap' : (next.client i).trap = none := hclient ▸ htrap
    have hempty' : (next.client i).partnerCode = some "" := hclient ▸ hempty
    have hrequest : .requestPartnerClothes ∈ (next.client i).threads := by
      rw [hclient]
      exact List.mem_append_right _ (List.mem_singleton_self _)
    obtain ⟨final, hreach, hfinal⟩ := request_empty htrap' hempty' hrequest
    exact ⟨final, .head ⟨_, trivial, hstep⟩ hreach, hfinal⟩

/-- In every calm run, clothes are never requested for an empty code.  After the first
occurrence that is not calm they can be. -/
theorem no_clothes_of_empty_code {i : ι} {state : System ι}
    (hreach : Reaches occur (Calm i) fresh state) :
    (state.client i).trap ≠ some .emptyClothesCode ∧
      ∀ occurrence next, state.occur occurrence = some next → ¬ state.Calm i occurrence →
        ∃ final, Reaches occur (fun _ _ => True) next final ∧
          (final.client i).trap = some .emptyClothesCode := by
  have hguarded : state.Proper ∧ (state.client i).Guarded := by
    refine hreach.invariant (P := fun state => state.Proper ∧ (state.client i).Guarded)
      ⟨proper_fresh, Client.guarded_relaunch {}⟩ ?_
    intro state occurrence next hstate hcalm hoccur
    exact ⟨hstate.1.occur hoccur, guarded_occur hstate.1 hstate.2 hcalm hoccur⟩
  refine ⟨hguarded.2.trap, ?_⟩
  intro occurrence next hoccur hrough
  cases occurrence with
  | relaunch j => exact absurd trivial hrough
  | event event =>
      cases transition_of_step hoccur with
      | accept houtbox => exact absurd trivial hrough
      | reject houtbox => exact absurd trivial hrough
      | @act j action client htrap hact =>
          obtain ⟨rfl, hrough⟩ := Classical.not_imp.mp hrough
          obtain ⟨htrap', hempty, hrequesting⟩ := Client.empty_of_not_calm hrough hact
          refine requesting_empty ?_ ?_ ?_
          · rw [set_client_self]
            exact htrap'.trans htrap
          · rw [set_client_self]
            exact hempty
          · rw [set_client_self]
            exact hrequesting

/-! ### A partner that disconnects -/

/-- The partner of the second of two installs connects and disconnects.  Both reach the
second, which handles the snapshots up to that of the connection. -/
def toldOfConnection : List (Occurrence Bool) :=
  launchAndConnect.map .event ++ [.event (.act false (.watch 0 0)),
    .event (.act false (.watch 0 0)), .event (.act false (.deliver 0)),
    .event (.act false (.deliver 0))]

def toldOfDisconnect : Occurrence Bool :=
  .event (.act false (.deliver 0))

def requested : Occurrence Bool :=
  .event (.act false (.advance .requestPartnerClothes querying))

/-- The request that the first snapshot started runs after the second one. -/
theorem clothes_of_empty_code :
    ∃ state : System Bool, Reaches occur (fun _ _ => True) fresh state ∧
      (state.client false).trap = some .emptyClothesCode :=
  exists_reaches_of_run (toldOfConnection ++ [toldOfDisconnect, requested]) (by decide)

/-- It runs before the second one. -/
theorem clothes_before_disconnect :
    ∃ state : System Bool, Reaches occur (Calm false) fresh state ∧
      (state.client false).partnerCode = some "" ∧
      (state.client false).trap ≠ some .emptyClothesCode := by
  obtain ⟨state, hreach, hempty⟩ : ∃ state : System Bool, Reaches occur (Calm false) fresh state ∧
      (state.client false).partnerCode = some "" :=
    exists_reaches_of_run (toldOfConnection ++ [requested, toldOfDisconnect]) (by decide)
  exact ⟨state, hreach, hempty, (no_clothes_of_empty_code hreach).1⟩

end System

end Pompom
