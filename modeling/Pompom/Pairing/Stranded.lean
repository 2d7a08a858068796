import Pompom.Pairing.CodeIssuing
import Pompom.Pairing.References

/-!
# Installs that lost their code

`getCode` stores the new code in UserDefaults at once, while a block on another
queue creates the user document.  Nothing looks afterwards whether that happened:
with a code in UserDefaults, `getCode` only returns it.  If the process ends before
the block has run, or if the server rejects the document, the install keeps a code
that has no document and never will.

`stranded_iff_lost` says that these are the only ways: over all runs, with any
number of launches, an install is stranded exactly if its code was lost at one of
the steps (`Loses`).  Nobody can connect to such an install, and whenever it looks
up its own document, which it does each time the main screen appears, the process
ends (`stranded_lookups`).
-/

namespace Pompom

open Lib

namespace Client

/-- The codes in `saveCode` blocks that have not run. -/
def toSave (client : Client) : List String :=
  client.running.filterMap Thread.codeToSave

theorem unsaved_relaunch (client : Client) :
    client.relaunch.unsaved = client.pendingDocuments.map (·.code) := by
  simp [unsaved, running, relaunch, pendingDocuments, List.filterMap_map]

/-- Where the thread updates the own document, it has the own code. -/
def UpdatesBy (code : Option String) : Thread → Prop
  | .updatePartnerCodeBy .own ownCode => code = some ownCode
  | _ => True

/-- `deletePartnerCode` asks `getCode` for the own code. -/
theorem updatesBy_advance {users : Users} {choice : Choice} {client next : Client}
    {thread : Thread} (hadvances : Advances users choice client thread next) :
    Continues (UpdatesBy next.code) client next := by
  have hself (code : Option String) := continues_refl (UpdatesBy code) client
  have hgetCode (code : Option String) :
      Continues (UpdatesBy code) client (client.getCode choice.newCode) := by
    unfold getCode
    split
    · exact hself code
    · exact (hself code).spawn trivial
  cases hadvances with
  | saveCode code => exact (hself _).issue _ (by simp)
  | connectPartner | connectWithPartner | getOwnId => exact (hgetCode _).spawn trivial
  | getPartnerCodeFromServer | callMySelf => exact hgetCode _
  | isExistingCode | getPartnerId | setPartnerCode | didConnectedPartner | deletePartner
  | removePartnerCode => exact (hself _).spawn trivial
  | updateOwn | updatePartner => exact ((hself _).issue _ (by simp)).spawn trivial
  | deleteOwn => exact (hgetCode _).spawn (client.getCode_code _)
  | @updatePartnerCodeBy side =>
      refine (hself _).issue _ fun rest hrest => ?_
      cases side with
      | partner =>
          obtain rfl := Option.some.inj hrest
          trivial
      | own => exact absurd hrest (Option.not_mem_none _)
  | invalidPartnerCode | didConnectedPartnerInSettings | didDeletePartnerCode
  | requestPartnerClothes | emptyClothesCode => exact hself _
  | halt hbefore =>
      rcases hbefore with rfl | rfl
      · exact hself _
      · exact hgetCode _

theorem act_updatesBy {users : Users} {client next : Client} {action : Action}
    (hact : client.act users action = some next) :
    Continues (UpdatesBy next.code) client next := by
  have hself := continues_refl (UpdatesBy next.code) client
  cases transition_of_act hact with
  | onAppear => exact hself.spawn trivial
  | getCode choice =>
      unfold getCode
      split
      · exact continues_refl _ _
      · exact (continues_refl _ client).spawn trivial
  | enterCode origin partnerCode => exact hself.spawn trivial
  | disconnect =>
      have hspawned : Continues (UpdatesBy client.code) client
          (client.spawn (.deletePartnerCode .partner)) := hself.spawn trivial
      exact hspawned.spawn trivial
  | @advance thread choice hmem =>
      intro other hother
      exact (updatesBy_advance (advances users choice _ thread) other hother).imp_left
        fun hrunning => client.running_dequeue_subset thread hrunning
  | watch hdocument hdrop => exact hself
  | deliver hlistener hundelivered =>
      unfold receive
      split
      · exact continues_refl _ client
      · exact (continues_refl _ client).spawn trivial

/-- A client that looks up its own document for `deletePartnerCode` has its code. -/
def OwnsUpdates (client : Client) : Prop :=
  ∀ thread ∈ client.running, UpdatesBy client.code thread

theorem OwnsUpdates.act {users : Users} {client next : Client} {action : Action}
    (howns : client.OwnsUpdates) (hact : client.act users action = some next) :
    next.OwnsUpdates := by
  obtain ⟨newCode, -, hdrawn⟩ := exists_drawnBy action
  intro thread hthread
  refine (act_updatesBy hact thread hthread).elim (fun hbefore => ?_) id
  have hupdates := howns thread hbefore
  rcases act_issues hdrawn hact with ⟨hcode, -⟩ | ⟨hnone, -, -⟩
  · rwa [hcode]
  · unfold UpdatesBy at hupdates ⊢
    split
    · simp [hnone] at hupdates
    · trivial

theorem OwnsUpdates.settled {client : Client} (howns : client.OwnsUpdates) {pending : Pending}
    {rest : List Pending} (houtbox : client.outbox = pending :: rest) :
    (client.settled pending rest).OwnsUpdates := by
  intro thread hthread
  rw [running_settled houtbox] at hthread
  exact howns thread hthread

theorem ownsUpdates_relaunch (client : Client) : client.relaunch.OwnsUpdates := by
  simp [OwnsUpdates, running, relaunch, List.filterMap_map]

end Client

namespace System

variable {ι : Type*} {drawn : ι → String}

/-- The install has a code that is neither on the server nor on its way there. -/
def Stranded (state : System ι) (i : ι) : Prop :=
  ∃ code, (state.client i).code = some code ∧ code ∉ state.users.codes ∧
    (state.client i).unsaved = []

/-- The steps at which the code of an install is lost: it is launched again before
its `saveCode` block has run, or the creation of its document is rejected. -/
def Loses (i : ι) (state : System ι) : Occurrence ι → Prop
  | .relaunch j => j = i ∧ (state.client i).toSave ≠ []
  | .event (.settle j accepted) => j = i ∧ accepted = false ∧
      ∃ pending ∈ (state.client i).outbox.head?, pending.write.addsDocument
  | .event (.act _ _) => False

/-- Whenever install `i` draws a code, it draws `drawn i`. -/
def DrawsIn (drawn : ι → String) : Occurrence ι → Prop
  | .event (.act i action) => Client.drawnBy (drawn i) action
  | .event (.settle _ _) | .relaunch _ => True

/-- The codes that have been issued, and those in UserDefaults. -/
structure Drawn (drawn : ι → String) (state : System ι) : Prop extends Issued drawn state where
  own : ∀ i code, (state.client i).code = some code → code = drawn i

theorem drawn_fresh : Drawn drawn (fresh : System ι) :=
  ⟨issued_fresh drawn, by simp [fresh]⟩

theorem Drawn.stranded_iff {state : System ι} (hdrawn : Drawn drawn state) (i : ι) :
    state.Stranded i ↔ (state.client i).code ≠ none ∧ state.issued drawn i = 0 := by
  constructor
  · rintro ⟨code, hcode, hnot, hunsaved⟩
    obtain rfl := hdrawn.own i code hcode
    exact ⟨by simp [hcode], by simp [issued, hunsaved, List.count_eq_zero_of_not_mem hnot]⟩
  · rintro ⟨hcode, hissued⟩
    obtain ⟨code, hcode⟩ := Option.ne_none_iff_exists'.mp hcode
    obtain rfl := hdrawn.own i code hcode
    obtain ⟨hunsaved, hcount⟩ := Nat.add_eq_zero_iff.mp hissued
    exact ⟨_, hcode, List.count_eq_zero.mp hcount, List.length_eq_zero_iff.mp hunsaved⟩

/-- Whether an install is stranded only depends on its code and the copies of it. -/
theorem stranded_congr {state next : System ι} (hdrawn : Drawn drawn state)
    (hnext : Drawn drawn next) {i : ι} (hcode : (next.client i).code = (state.client i).code)
    (hissued : next.issued drawn i = state.issued drawn i) :
    next.Stranded i ↔ state.Stranded i := by
  rw [hdrawn.stranded_iff, hnext.stranded_iff, hcode, hissued]

variable [DecidableEq ι]

theorem relaunch_client (state : System ι) (i j : ι) :
    ((state.set i (state.client i).relaunch).client j).code = (state.client j).code ∧
      ((state.set i (state.client i).relaunch).client j).unsaved.Subperm
        (state.client j).unsaved := by
  have hself : (state.client i).relaunch.unsaved.Subperm (state.client i).unsaved := by
    rw [Client.unsaved_relaunch]
    exact (List.sublist_append_right _ _).subperm
  by_cases hj : j = i
  · subst hj
    rw [set_client_self]
    exact ⟨rfl, hself⟩
  · rw [set_client_of_ne state hj]
    exact ⟨rfl, List.Subperm.refl _⟩

theorem Drawn.occur (hinjective : Function.Injective drawn) {state next : System ι}
    {occurrence : Occurrence ι} (hdrawn : Drawn drawn state) (hdraws : DrawsIn drawn occurrence)
    (hoccur : state.occur occurrence = some next) : Drawn drawn next := by
  cases occurrence with
  | relaunch i =>
      obtain rfl := Option.some.inj hoccur
      have hclient := state.relaunch_client i
      refine ⟨hdrawn.toIssued.of_le (fun j => (hclient j).1)
        (fun j => Nat.add_le_add_right (hclient j).2.length_le _) (fun j => (hclient j).2.subset)
        hdrawn.saved, fun j code hcode => ?_⟩
      rw [(hclient j).1] at hcode
      exact hdrawn.own j code hcode
  | event event =>
      have hstep : state.step event = some next := hoccur
      cases event with
      | act i action =>
          have hdraw : Draws drawn state (.act i action) := hdraws
          refine ⟨hdrawn.toIssued.step hinjective hdraw hstep, ?_⟩
          cases transition_of_step hstep with
          | act htrap hact =>
              refine forall_client_set (P := fun j client => ∀ code, client.code = some code →
                code = drawn j) (fun code hcode => ?_) hdrawn.own
              rcases Client.act_issues hdraw hact with ⟨hsame, -⟩ | ⟨-, hnew, -⟩
              · exact hdrawn.own i code (hsame.symm.trans hcode)
              · exact (Option.some.inj (hnew.symm.trans hcode)).symm
      | settle i accepted =>
          have hdraw : Draws drawn state (.settle i accepted) := trivial
          refine ⟨hdrawn.toIssued.step hinjective hdraw hstep, fun j code hcode => ?_⟩
          have hsame : (next.client j).code = (state.client j).code := by
            cases transition_of_step hstep with
            | accept houtbox => exact (client_settled (state.commit_client _ _) houtbox j).1
            | reject houtbox => exact (client_settled (fun j => ⟨_, rfl⟩) houtbox j).1
          exact hdrawn.own j code (hsame.symm.trans hcode)

/-! ## How a code is lost -/

/-- Settling an update leaves the codes as they are. -/
theorem client_settled_updateData {state committed : System ι}
    (hcommitted : ∀ j, ∃ cache,
      committed.client j = { state.client j with cache := cache })
    {i : ι} {documentID partnerCode : String} {resume : Option Thread} {rest : List Pending}
    (houtbox : (state.client i).outbox = ⟨.updateData documentID partnerCode, resume⟩ :: rest)
    (j : ι) :
    ((committed.settled i ⟨.updateData documentID partnerCode, resume⟩ rest).client j).unsaved =
      (state.client j).unsaved := by
  refine forall_client_settled (P := fun j client => client.unsaved = (state.client j).unsaved)
    hcommitted ?_ ?_ j
  · intro cache
    exact Client.unsaved_settled_updateData houtbox
  · intro j cache
    rfl

omit [DecidableEq ι] in
/-- There is one copy of a code at most, so an install that loses one is stranded. -/
theorem stranded_of_lost {state next : System ι} (hdrawn : Drawn drawn state)
    (hnext : Drawn drawn next) {i : ι} (hcode : (next.client i).code = (state.client i).code)
    (hissued : next.issued drawn i < state.issued drawn i) : next.Stranded i := by
  have honce := hdrawn.once i
  rw [hnext.stranded_iff, hcode]
  refine ⟨fun hnone => ?_, by omega⟩
  have hbefore := hdrawn.before i hnone
  omega

theorem stranded_act {state : System ι} {i j : ι} {client : Client} (hdrawn : Drawn drawn state)
    (hnext : Drawn drawn (state.set j client))
    (hissues : Client.Issues (drawn j) (state.client j) client) :
    (state.set j client).Stranded i ↔ state.Stranded i := by
  by_cases hj : i = j
  · subst hj
    rcases hissues with ⟨hcode, hperm⟩ | ⟨hnone, hcode, hperm⟩
    · refine stranded_congr hdrawn hnext (by rw [set_client_self, hcode]) ?_
      simp [issued, hperm.length_eq]
    · -- the first code: on its way afterwards, and none before
      have hunsaved : client.unsaved ≠ [] := by
        intro hnil
        simpa [hnil] using hperm.length_eq
      simp [Stranded, hnone, hunsaved]
  · refine stranded_congr hdrawn hnext (by rw [set_client_of_ne state hj]) ?_
    simp [issued, set_client_of_ne state hj]

theorem stranded_relaunch {state : System ι} {i j : ι} (hdrawn : Drawn drawn state)
    (hnext : Drawn drawn (state.set j (state.client j).relaunch)) :
    (state.set j (state.client j).relaunch).Stranded i ↔
      state.Stranded i ∨ Loses i state (.relaunch j) := by
  by_cases hj : i = j
  · subst hj
    have hcode : ((state.set i (state.client i).relaunch).client i).code =
        (state.client i).code := (state.relaunch_client i i).1
    have hlength : (state.client i).unsaved.length = (state.client i).toSave.length +
        (state.client i).relaunch.unsaved.length := by
      rw [Client.unsaved_relaunch]
      simp [Client.unsaved, Client.toSave]
    have hcount : state.issued drawn i = (state.client i).toSave.length +
        (state.set i (state.client i).relaunch).issued drawn i := by
      simp only [issued, set_client_self, set_users, hlength]
      omega
    cases hsave : (state.client i).toSave with
    | nil =>
        rw [hsave] at hcount
        have hsame := stranded_congr hdrawn hnext hcode (by simpa using hcount.symm)
        simp [hsame, Loses, hsave]
    | cons code rest =>
        have hlost : (state.set i (state.client i).relaunch).Stranded i := by
          refine stranded_of_lost hdrawn hnext hcode ?_
          rw [hcount, hsave, List.length_cons]
          omega
        simp [hlost, Loses, hsave]
  · have hsame : (state.set j (state.client j).relaunch).Stranded i ↔ state.Stranded i := by
      refine stranded_congr hdrawn hnext (by rw [set_client_of_ne state hj]) ?_
      simp [issued, set_client_of_ne state hj]
    rw [hsame]
    exact (or_iff_left fun hloses => hj hloses.1.symm).symm

theorem stranded_accept (hinjective : Function.Injective drawn) {state : System ι} {i j : ι}
    {pending : Pending} {rest : List Pending}
    (houtbox : (state.client j).outbox = pending :: rest) (hdrawn : Drawn drawn state)
    (hnext : Drawn drawn ((state.commit j pending.write).settled j pending rest)) :
    ((state.commit j pending.write).settled j pending rest).Stranded i ↔ state.Stranded i := by
  have hcode := (client_settled (state.commit_client j pending.write) houtbox i).1
  obtain ⟨write, resume⟩ := pending
  refine stranded_congr hdrawn hnext hcode ?_
  cases write with
  | addDocument document => exact issued_addDocument hinjective hdrawn.toIssued houtbox i
  | updateData documentID partnerCode =>
      simp only [issued, settled_users, codes_commit_updateData,
        client_settled_updateData (state.commit_client _ _) houtbox i]

theorem stranded_reject {state : System ι} {i j : ι} {pending : Pending} {rest : List Pending}
    (houtbox : (state.client j).outbox = pending :: rest) (hdrawn : Drawn drawn state)
    (hnext : Drawn drawn (state.settled j pending rest)) :
    (state.settled j pending rest).Stranded i ↔
      state.Stranded i ∨ Loses i state (.event (.settle j false)) := by
  have hcode := (client_settled (fun j => ⟨_, rfl⟩) houtbox i).1
  obtain ⟨write, resume⟩ := pending
  cases write with
  | addDocument document =>
      by_cases hj : i = j
      · subst hj
        have hlost : (state.settled i ⟨.addDocument document, resume⟩ rest).Stranded i := by
          refine stranded_of_lost hdrawn hnext hcode ?_
          have hlength := (Client.unsaved_perm_addDocument houtbox).length_eq
          simp only [issued, settled, set_client_self, set_users, hlength, List.length_cons]
          omega
        simp [hlost, Loses, houtbox, Write.addsDocument]
      · have hsame : (state.settled j ⟨.addDocument document, resume⟩ rest).Stranded i ↔
            state.Stranded i := by
          refine stranded_congr hdrawn hnext hcode ?_
          simp [issued, settled, set_client_of_ne state hj]
        rw [hsame]
        exact (or_iff_left fun hloses => hj hloses.1.symm).symm
  | updateData documentID partnerCode =>
      have hsame : (state.settled j ⟨.updateData documentID partnerCode, resume⟩ rest).Stranded i ↔
          state.Stranded i := by
        refine stranded_congr hdrawn hnext hcode ?_
        simp only [issued, settled_users,
          client_settled_updateData (fun j => ⟨_, rfl⟩) houtbox i]
      rw [hsame]
      refine (or_iff_left ?_).symm
      rintro ⟨rfl, -, pending, hpending, hadds⟩
      simp only [houtbox, List.head?_cons, Option.mem_some_iff] at hpending
      subst hpending
      simp [Write.addsDocument] at hadds

/-- A step strands an install exactly if it loses its code, and no step helps a
stranded install. -/
theorem stranded_occur (hinjective : Function.Injective drawn) {state next : System ι}
    {occurrence : Occurrence ι} (hdrawn : Drawn drawn state) (hdraws : DrawsIn drawn occurrence)
    (hoccur : state.occur occurrence = some next) (i : ι) :
    Drawn drawn next ∧ (next.Stranded i ↔ state.Stranded i ∨ Loses i state occurrence) := by
  have hnext := hdrawn.occur hinjective hdraws hoccur
  refine ⟨hnext, ?_⟩
  cases occurrence with
  | relaunch j =>
      obtain rfl := Option.some.inj hoccur
      exact stranded_relaunch hdrawn hnext
  | event event =>
      have hstep : state.step event = some next := hoccur
      cases transition_of_step hstep with
      | act htrap hact =>
          rw [stranded_act hdrawn hnext (Client.act_issues hdraws hact)]
          exact (or_iff_left id).symm
      | accept houtbox =>
          rw [stranded_accept hinjective houtbox hdrawn hnext]
          exact (or_iff_left fun hloses => by simpa using hloses.2.1).symm
      | reject houtbox => exact stranded_reject houtbox hdrawn hnext

theorem runEvents_stranded_iff (hinjective : Function.Injective drawn)
    {occurrences : List (Occurrence ι)}
    (hdraws : ∀ occurrence ∈ occurrences, DrawsIn drawn occurrence) {state : System ι}
    (hrun : runEvents occur fresh occurrences = some state) (i : ι) :
    Drawn drawn state ∧
      (state.Stranded i ↔ ∃ earlier lost rest before, occurrences = earlier ++ lost :: rest ∧
        runEvents occur fresh earlier = some before ∧ Loses i before lost) :=
  runEvents_marked_iff drawn_fresh (by simp [Stranded, fresh])
    (fun _ _ _ hdrawn hdraws hoccur => stranded_occur hinjective hdrawn hdraws hoccur i)
    hdraws hrun

/-- In every run of installs that draw different codes, an install is stranded exactly
if one of the steps lost its code. -/
theorem stranded_iff_lost (hinjective : Function.Injective drawn)
    {occurrences : List (Occurrence ι)}
    (hdraws : ∀ occurrence ∈ occurrences, DrawsIn drawn occurrence) {state : System ι}
    (hrun : runEvents occur fresh occurrences = some state) (i : ι) :
    state.Stranded i ↔ ∃ earlier lost rest before, occurrences = earlier ++ lost :: rest ∧
      runEvents occur fresh earlier = some before ∧ Loses i before lost :=
  (runEvents_stranded_iff hinjective hdraws hrun i).2

/-! ## What a stranded install can do -/

omit [DecidableEq ι] in
/-- No client sees a document with the code of a stranded install. -/
theorem Drawn.notMem_visible (hinjective : Function.Injective drawn) {state : System ι}
    (hdrawn : Drawn drawn state) {i : ι} {code : String} (hstranded : state.Stranded i)
    (hcode : (state.client i).code = some code) (j : ι) :
    code ∉ ((state.client j).visible state.users).codes := by
  obtain ⟨other, hother, hnot, hunsaved⟩ := hstranded
  obtain rfl := Option.some.inj (hcode.symm.trans hother)
  intro hvisible
  rcases Client.mem_codes_visible.mp hvisible with hmem | ⟨document, hdocument, hsame⟩
  · exact hnot hmem
  · have hmem : code ∈ (state.client j).unsaved :=
      List.mem_append_right _ (List.mem_map.mpr ⟨document, hdocument, hsame⟩)
    have hij : i = j :=
      hinjective ((hdrawn.own i code hcode).symm.trans (hdrawn.unsaved j code hmem))
    subst hij
    simp [hunsaved] at hmem

omit [DecidableEq ι] in
theorem whereCode_eq_nil {users : Users} {client : Client} {code : String}
    (hnot : code ∉ (client.visible users).codes) : (client.visible users).whereCode code = [] := by
  by_contra hne
  exact hnot (Users.whereCode_ne_nil.mp hne)

theorem ownsUpdates_occur {state next : System ι} {occurrence : Occurrence ι}
    (howns : ∀ i, (state.client i).OwnsUpdates) (hoccur : state.occur occurrence = some next) :
    ∀ i, (next.client i).OwnsUpdates := by
  have hset {state : System ι} (howns : ∀ i, (state.client i).OwnsUpdates) (i : ι)
      {client : Client} (hclient : client.OwnsUpdates) :
      ∀ j, ((state.set i client).client j).OwnsUpdates :=
    forall_client_set (P := fun _ client => client.OwnsUpdates) hclient howns
  cases occurrence with
  | relaunch i =>
      obtain rfl := Option.some.inj hoccur
      exact hset howns i (Client.ownsUpdates_relaunch _)
  | event event =>
      cases transition_of_step hoccur with
      | act htrap hact => exact hset howns _ ((howns _).act hact)
      | @accept i pending rest houtbox =>
          refine forall_client_settled (P := fun _ client => client.OwnsUpdates)
            (state.commit_client i pending.write) (fun cache => ?_) fun j cache => howns j
          exact Client.OwnsUpdates.settled (howns i) houtbox
      | @reject i pending rest houtbox => exact hset howns i ((howns i).settled houtbox)

theorem runEvents_ownsUpdates {occurrences : List (Occurrence ι)} {state : System ι}
    (hrun : runEvents occur fresh occurrences = some state) (i : ι) :
    (state.client i).OwnsUpdates :=
  runEvents_invariant (I := fun state => ∀ i, (state.client i).OwnsUpdates)
    (by simp [fresh, Client.OwnsUpdates, Client.running])
    (fun _ _ _ _ howns hoccur => ownsUpdates_occur howns hoccur) hrun i

/-- Whether a thread is about to look up the own document of its client: for the listener,
to connect, or to disconnect. -/
def LooksUpSelf : Thread → Prop
  | .getPartnerCodeFromServer | .getOwnId _ _ | .updatePartnerCodeBy .own _ => True
  | _ => False

/-- Once the code of an install was lost, nobody finds its code any more, and every
lookup of its own document that succeeds ends the process, whether for the listener, to
connect or to disconnect. -/
theorem stranded_lookups (hinjective : Function.Injective drawn)
    {occurrences : List (Occurrence ι)}
    (hdraws : ∀ occurrence ∈ occurrences, DrawsIn drawn occurrence) {state : System ι}
    (hrun : runEvents occur fresh occurrences = some state) {i : ι}
    (hlost : ∃ earlier lost rest before, occurrences = earlier ++ lost :: rest ∧
      runEvents occur fresh earlier = some before ∧ Loses i before lost) :
    (∀ j succeeds, ConnectionManager.isExistingCode
      ((state.client j).query state.users succeeds (state.client i).ownCode) = false) ∧
    ∀ thread ∈ (state.client i).threads, LooksUpSelf thread → (state.client i).trap = none →
      ∀ choice : Choice, choice.succeeds = true →
        ∃ next, state.occur (.event (.act i (.advance thread choice))) = some next ∧
          (next.client i).trap = some .emptyResult := by
  obtain ⟨hdrawn, hiff⟩ := runEvents_stranded_iff hinjective hdraws hrun i
  have hstranded := hiff.mpr hlost
  obtain ⟨code, hcode, -⟩ := id hstranded
  have hnot := hdrawn.notMem_visible hinjective hstranded hcode
  rw [Client.ownCode_eq hcode]
  refine ⟨fun j succeeds => ?_, fun thread hthread hself htrap choice hsucceeds => ?_⟩
  · cases succeeds with
    | false => rfl
    | true => simp [Client.query, whereCode_eq_nil (hnot j), ConnectionManager.isExistingCode]
  · have hnone : (((state.client i).dequeue thread).visible state.users).whereCode code = [] :=
      whereCode_eq_nil (hnot i)
    -- the query that succeeds has an empty result, which `getIdByCode` subscripts
    have hdequeue : ((state.client i).dequeue thread).code = some code := hcode
    refine ⟨state.set i (((state.client i).dequeue thread).advance state.users choice thread),
      ?_, ?_⟩
    · simp [occur, step, htrap, Client.act, hthread]
    · have hupdates := runEvents_ownsUpdates hrun i thread (List.mem_append_left _ hthread)
      rw [set_client_self]
      cases thread with
      | getPartnerCodeFromServer | getOwnId =>
          simp [Client.advance, Client.getCode_of_some hdequeue, Client.ownCode_eq hdequeue,
            Client.getIdByCode, Client.query, hsucceeds, hnone, ConnectionManager.getIdByCode]
      | updatePartnerCodeBy side own =>
          cases side with
          | partner => exact hself.elim
          | own =>
              obtain rfl := Option.some.inj (hcode.symm.trans hupdates)
              simp [Client.advance, Client.getIdByCode, Client.query, hsucceeds, hnone,
                ConnectionManager.getIdByCode]
      | _ => exact hself.elim

/-! ### A first launch that is not the last -/

/-- The only install draws this code. -/
def onlyCode (_ : Unit) : String := "AAAAAAAAAA"

/-- The own document is looked up before the `saveCode` block has run, which ends the
process, and the app is launched again. -/
def launchedTwice : List (Occurrence Unit) :=
  let choice := drawing "AAAAAAAAAA" "a" generated_first first_ne_empty
  [.event (.act () .onAppear), .event (.act () (.advance .connectPartner choice)),
    .event (.act () (.advance .getPartnerCodeFromServer choice)), .relaunch (),
    .event (.act () .onAppear), .event (.act () (.advance .connectPartner choice))]

instance (drawn : ι → String) : DecidablePred (DrawsIn drawn)
  | .event (.act i (.getCode choice)) | .event (.act i (.advance _ choice)) =>
      inferInstanceAs (Decidable (choice.newCode = drawn i))
  | .event (.act _ .onAppear) | .event (.act _ (.enterCode _ _)) | .event (.act _ .disconnect)
  | .event (.act _ (.watch _ _)) | .event (.act _ (.deliver _)) | .event (.settle _ _)
  | .relaunch _ => .isTrue trivial

theorem onlyCode_injective : Function.Injective onlyCode :=
  Function.injective_of_subsingleton _

/-- The second launch loses the code. -/
theorem launchedTwice_loses : ∃ earlier lost rest before,
    launchedTwice = earlier ++ lost :: rest ∧ runEvents occur fresh earlier = some before ∧
      Loses () before lost := by
  have hrun : (runEvents occur fresh (launchedTwice.take 3)).any (fun before =>
      decide ((before.client ()).toSave ≠ [])) = true := by decide
  obtain ⟨before, hbefore, hsave⟩ := (Option.any_eq_true _ _).mp hrun
  exact ⟨launchedTwice.take 3, .relaunch (), launchedTwice.drop 4, before, rfl, hbefore,
    rfl, of_decide_eq_true hsave⟩

theorem stranded_iff_lost_launchedTwice : ∃ state : System Unit,
    runEvents occur fresh launchedTwice = some state ∧ state.Stranded () := by
  have hrun : (runEvents occur fresh launchedTwice).isSome = true := by decide
  obtain ⟨state, hstate⟩ := Option.isSome_iff_exists.mp hrun
  exact ⟨state, hstate,
    (stranded_iff_lost onlyCode_injective (by decide) hstate ()).mpr launchedTwice_loses⟩

/-- The second launch ends like the first. -/
theorem stranded_lookups_launchedTwice : ∃ state next : System Unit,
    runEvents occur fresh launchedTwice = some state ∧
      (∃ choice, state.occur (.event (.act () (.advance .getPartnerCodeFromServer choice))) =
        some next) ∧ (next.client ()).trap = some .emptyResult := by
  have hrun : (runEvents occur fresh launchedTwice).any (fun state =>
      decide (.getPartnerCodeFromServer ∈ (state.client ()).threads) &&
        decide ((state.client ()).trap = none)) = true := by decide
  obtain ⟨state, hstate, htest⟩ := (Option.any_eq_true _ _).mp hrun
  obtain ⟨hthread, htrap⟩ := Bool.and_eq_true_iff.mp htest
  obtain ⟨next, hnext, htrapped⟩ :=
    (stranded_lookups onlyCode_injective (by decide) hstate launchedTwice_loses).2 _
      (of_decide_eq_true hthread) trivial (of_decide_eq_true htrap) querying rfl
  exact ⟨state, next, hstate, ⟨querying, hnext⟩, htrapped⟩

end System

end Pompom
