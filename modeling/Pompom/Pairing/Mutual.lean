import Mathlib.Data.Fintype.Basic
import Pompom.Lib.Matching
import Pompom.Lib.Run
import Pompom.Pairing.OutstandingWrites

/-!
# Pairings are mutual and exclusive

What the `partner_code`s of the collection are for: a matching of the users.
`connectWithPartner` and `deletePartnerCode` write to two documents one after the
other, and neither looks at what the documents hold.  They realise the matching
under two conditions on the step at which an operation starts to write
(`Undisturbed`):

* a connection starts only between two users that are not paired, and are not
  about to be paired or unpaired, except with each other;
* a disconnection starts only from the pair itself, and not while one of the two is
  about to be paired.

The documents together with the outstanding writes then follow a matching
(`Follows`), which the start of a connection links and the start of a
disconnection unlinks, and in a state in which nothing runs the documents are that
matching (`pairing_mutual_exclusive`).
-/

namespace Pompom

open Lib

/-- The partner that a `partner_code` stands for. -/
def asPartner (partnerCode : String) : Option String :=
  if Blank partnerCode then none else some partnerCode

theorem asPartner_of_blank {partnerCode : String} (hblank : Blank partnerCode) :
    asPartner partnerCode = none :=
  if_pos hblank

theorem asPartner_of_not_blank {partnerCode : String} (hblank : ¬ Blank partnerCode) :
    asPartner partnerCode = some partnerCode :=
  if_neg hblank

theorem asPartner_eq_some {partnerCode code : String} (heq : asPartner partnerCode = some code) :
    ¬ Blank partnerCode ∧ partnerCode = code := by
  unfold asPartner at heq
  split at heq
  · simp at heq
  · exact ⟨by assumption, Option.some.inj heq⟩

namespace System

variable {ι : Type*}

/-- The document of the first user names nobody but the second. -/
def NamesOnly (state : System ι) (first second : String) : Prop :=
  ∀ document ∈ state.users, document.code = first →
    Blank document.partnerCode ∨ document.partnerCode = second

/-- All outstanding writes to the user's document have this property. -/
def WritesOnly (state : System ι) (code : String) (P : String → Prop) : Prop :=
  ∀ i, ∀ write ∈ (state.client i).writes state.users, write.1 = code → P write.2

/-- Neither user is engaged, except with the other. -/
def MayConnect (state : System ι) (first second : String) : Prop :=
  (state.NamesOnly first second ∧ state.NamesOnly second first) ∧
    state.WritesOnly first (· = second) ∧ state.WritesOnly second (· = first)

/-- The two users are paired at most with each other, and neither is about to be
paired. -/
def MayDisconnect (state : System ι) (first second : String) : Prop :=
  (state.NamesOnly first second ∧ state.NamesOnly second first) ∧
    state.WritesOnly first Blank ∧ state.WritesOnly second Blank

/-- The condition on the steps at which an operation starts to write. -/
def Undisturbed (state : System ι) : Event ι → Prop
  | .act i (.advance (.isExistingCode _ partnerCode) _) =>
      partnerCode ∈ state.users.codes → state.MayConnect (state.client i).ownCode partnerCode
  | .act i (.advance (.deletePartnerCode .partner) _) =>
      (state.client i).getPartnerCode ∈ state.users.codes ∧
        state.MayDisconnect (state.client i).ownCode (state.client i).getPartnerCode
  | _ => True

/-- The steps under consideration: all queries and writes succeed, and no process
ends in `requestPartnerClothes`, which is not one of the operations. -/
def Operates : Event ι → Prop
  | .act _ (.advance thread choice) => choice.succeeds ∧ thread ≠ .requestPartnerClothes
  | .act _ _ => True
  | .settle _ accepted => accepted = true

/-- No operation is running and no write is in flight. -/
def Quiet (state : System ι) : Prop :=
  ∀ i, (state.client i).outbox = [] ∧
    ∀ thread ∈ (state.client i).threads, thread.isOperation = false

/-- A collection without pairs, and clients of some of its users with nothing
running. -/
structure Unpaired (state : System ι) : Prop where
  users : state.users.WellFormed
  codes : ∀ code ∈ state.users.codes, ¬ Blank code
  partnerCodes : ∀ document ∈ state.users, Blank document.partnerCode
  client : ∀ i, ∃ code ∈ state.users.codes, (state.client i).code = some code
  threads : ∀ i, (state.client i).threads = []
  outbox : ∀ i, (state.client i).outbox = []

/-- Whom a document names names it in turn. -/
def Mutual (users : Users) : Prop :=
  ∀ first ∈ users, ∀ second ∈ users,
    first.partnerCode = second.code → second.partnerCode = first.code

/-- No user is the partner of two others. -/
def Exclusive (users : Users) : Prop :=
  ∀ first ∈ users, ∀ second ∈ users, ∀ partner ∈ users,
    first.partnerCode = partner.code → second.partnerCode = partner.code → first = second

/-! ## Following a matching -/

/-- The documents and the outstanding writes are bound for a matching. -/
structure Follows (matching : Matching String) (state : System ι) : Prop where
  established : state.Established
  codes : ∀ code ∈ state.users.codes, ¬ Blank code
  own : ∀ i, (state.client i).ownCode ∈ state.users.codes
  known : ∀ code partnerCode, state.Outstanding code partnerCode → code ∈ state.users.codes
  settling : Settling (fun code partnerCode => asPartner partnerCode = matching.partner code)
    state.users.Stores state.Outstanding

theorem Unpaired.follows {state : System ι} (hunpaired : state.Unpaired) :
    state.Follows .empty := by
  have hown (i : ι) : ∃ code ∈ state.users.codes,
      (state.client i).code = some code ∧ (state.client i).ownCode = code := by
    obtain ⟨code, hmem, hcode⟩ := hunpaired.client i
    exact ⟨code, hmem, hcode, Client.ownCode_eq hcode⟩
  have hquiet : ∀ code partnerCode, ¬ state.Outstanding code partnerCode := by
    rintro code partnerCode ⟨i, hwrite⟩
    rw [Client.writes_eq_nil (hunpaired.outbox i) (by simp [hunpaired.threads i])] at hwrite
    simp at hwrite
  refine ⟨⟨hunpaired.users, ?_⟩, hunpaired.codes, ?_, ?_, ?_, ?_⟩
  · intro i
    obtain ⟨code, -, hcode, heq⟩ := hown i
    refine ⟨by rw [heq, hcode], ?_, ?_⟩ <;>
      simp [Client.unsaved, Client.running, Client.pendingDocuments, hunpaired.threads i,
        hunpaired.outbox i]
  · intro i
    obtain ⟨code, hmem, -, heq⟩ := hown i
    rw [heq]
    exact hmem
  · intro code partnerCode hwrite
    exact absurd hwrite (hquiet code partnerCode)
  · intro code partnerCode hwrite
    exact absurd hwrite (hquiet code partnerCode)
  · rintro code partnerCode ⟨document, hdocument, -, rfl⟩ -
    exact asPartner_of_blank (hunpaired.partnerCodes document hdocument)

/-- A user whose document names only one other user, and to whose document only
blanks or that user are going to be written, is free for that user. -/
theorem Follows.free {matching : Matching String} {state : System ι}
    (hfollows : state.Follows matching) {first second : String}
    (hfirst : first ∈ state.users.codes) (hnames : state.NamesOnly first second)
    (hwrites : state.WritesOnly first fun value => Blank value ∨ value = second) :
    matching.Free first second := by
  intro other hother
  -- the matching is read off an outstanding write, or else off the document itself
  by_cases hwrite : ∃ value, state.Outstanding first value
  · obtain ⟨value, i, hmem⟩ := hwrite
    have hvalue := hfollows.settling.writes first value ⟨i, hmem⟩
    obtain ⟨hblank, rfl⟩ := asPartner_eq_some (hvalue.trans hother)
    exact (hwrites i _ hmem rfl).resolve_left hblank
  · obtain ⟨document, hdocument, hcode⟩ := List.mem_map.mp hfirst
    have hvalue := hfollows.settling.records first document.partnerCode
      ⟨document, hdocument, hcode, rfl⟩ (not_exists.mp hwrite)
    obtain ⟨hblank, heq⟩ := asPartner_eq_some (hvalue.trans hother)
    exact heq ▸ (hnames document hdocument hcode).resolve_left hblank

/-- Writes to the documents of two users change the matching at these two only. -/
theorem Follows.plan {matching matching' : Matching String} {state : System ι}
    (hfollows : state.Follows matching) {first second value value' : String}
    (hagree : ∀ code, code ≠ first → code ≠ second →
      matching'.partner code = matching.partner code)
    (hfirst : asPartner value = matching'.partner first)
    (hsecond : asPartner value' = matching'.partner second)
    (hwrites : state.WritesOnly first fun other => asPartner other = matching'.partner first)
    (hwrites' : state.WritesOnly second fun other => asPartner other = matching'.partner second) :
    Settling (fun code partnerCode => asPartner partnerCode = matching'.partner code)
      state.users.Stores (fun code partnerCode => state.Outstanding code partnerCode ∨
        (code, partnerCode) ∈ [(first, value), (second, value')]) := by
  refine hfollows.settling.plan ?_ ?_
  · intro code partnerCode hnone haccept
    rw [hagree code]
    · exact haccept
    · rintro rfl
      exact hnone value (by simp)
    · rintro rfl
      exact hnone value' (by simp)
  · intro code partnerCode other hnew hwrite
    have hcode : code = first ∨ code = second := by
      simp only [List.mem_cons, Prod.mk.injEq, List.not_mem_nil, or_false] at hnew
      exact hnew.imp And.left And.left
    rcases hwrite with ⟨i, hwrite⟩ | hwrite
    · rcases hcode with rfl | rfl
      · exact hwrites i _ hwrite rfl
      · exact hwrites' i _ hwrite rfl
    · simp only [List.mem_cons, Prod.mk.injEq, List.not_mem_nil, or_false] at hwrite
      rcases hwrite with ⟨rfl, rfl⟩ | ⟨rfl, rfl⟩
      · exact hfirst
      · exact hsecond

/-- The writes of a connection link its users in the matching. -/
theorem Follows.link {matching : Matching String} {state : System ι}
    (hfollows : state.Follows matching) {first second : String}
    (hfirst : first ∈ state.users.codes) (hsecond : second ∈ state.users.codes)
    (hmay : state.MayConnect first second) :
    ∃ matching' : Matching String,
      Settling (fun code partnerCode => asPartner partnerCode = matching'.partner code)
        state.users.Stores (fun code partnerCode => state.Outstanding code partnerCode ∨
          (code, partnerCode) ∈ [(first, second), (second, first)]) := by
  obtain ⟨⟨hnames, hnames'⟩, hwrites, hwrites'⟩ := hmay
  have hfree := hfollows.free hfirst hnames fun i write hmem heq => .inr (hwrites i write hmem heq)
  have hfree' := hfollows.free hsecond hnames' fun i write hmem heq =>
    .inr (hwrites' i write hmem heq)
  have hpartner := asPartner_of_not_blank (hfollows.codes first hfirst)
  have hpartner' := asPartner_of_not_blank (hfollows.codes second hsecond)
  refine ⟨matching.link first second hfree hfree', hfollows.plan ?_ ?_ ?_ ?_ ?_⟩
  · exact fun code hne hne' => matching.link_partner_of_ne hfree hfree' hne hne'
  · rw [hpartner', Matching.link_partner_left]
  · rw [hpartner, Matching.link_partner_right]
  · intro i write hmem heq
    rw [hwrites i write hmem heq, hpartner', Matching.link_partner_left]
  · intro i write hmem heq
    rw [hwrites' i write hmem heq, hpartner, Matching.link_partner_right]

/-- The writes of a disconnection take its users apart in the matching. -/
theorem Follows.unlink {matching : Matching String} {state : System ι}
    (hfollows : state.Follows matching) {first second : String}
    (hfirst : first ∈ state.users.codes) (hsecond : second ∈ state.users.codes)
    (hmay : state.MayDisconnect first second) :
    ∃ matching' : Matching String,
      Settling (fun code partnerCode => asPartner partnerCode = matching'.partner code)
        state.users.Stores (fun code partnerCode => state.Outstanding code partnerCode ∨
          (code, partnerCode) ∈ [(second, " "), (first, " ")]) := by
  obtain ⟨⟨hnames, hnames'⟩, hwrites, hwrites'⟩ := hmay
  have hfree := hfollows.free hfirst hnames fun i write hmem heq => .inl (hwrites i write hmem heq)
  have hfree' := hfollows.free hsecond hnames' fun i write hmem heq =>
    .inl (hwrites' i write hmem heq)
  have hblank : asPartner " " = none := asPartner_of_blank (.inr rfl)
  refine ⟨matching.unlink first second hfree hfree', hfollows.plan ?_ ?_ ?_ ?_ ?_⟩
  · exact fun code hne hne' => matching.unlink_partner_of_ne hfree hfree' hne' hne
  · rw [hblank, Matching.unlink_partner_right]
  · rw [hblank, Matching.unlink_partner_left]
  · intro i write hmem heq
    rw [asPartner_of_blank (hwrites' i write hmem heq), Matching.unlink_partner_right]
  · intro i write hmem heq
    rw [asPartner_of_blank (hwrites i write hmem heq), Matching.unlink_partner_left]

variable [DecidableEq ι]

/-- An action that keeps a client established and starts certain writes follows
whatever matching these writes lead to. -/
theorem Follows.set {matching matching' : Matching String} {state : System ι}
    (hfollows : state.Follows matching) {i : ι} {client : Client}
    {started : List (String × String)} (hclient : client.Established state.users)
    (hown : client.ownCode = (state.client i).ownCode)
    (hwrites : ∀ write, write ∈ client.writes state.users ↔
      write ∈ (state.client i).writes state.users ∨ write ∈ started)
    (hknown : ∀ write ∈ started, write.1 ∈ state.users.codes)
    (hsettling : Settling (fun code partnerCode => asPartner partnerCode = matching'.partner code)
      state.users.Stores fun code partnerCode => state.Outstanding code partnerCode ∨
        (code, partnerCode) ∈ started) :
    (state.set i client).Follows matching' := by
  have houtstanding := outstanding_set hwrites
  refine ⟨hfollows.established.set hclient, hfollows.codes, ?_, ?_, ?_⟩
  · refine forall_client_set (P := fun _ client => client.ownCode ∈ state.users.codes)
      ?_ hfollows.own
    rw [hown]
    exact hfollows.own i
  · intro code partnerCode hwrite
    rcases (houtstanding code partnerCode).mp hwrite with hwrite | hwrite
    · exact hfollows.known code partnerCode hwrite
    · exact hknown _ hwrite
  · exact hsettling.congr (fun _ _ hstores => hstores) houtstanding

omit [DecidableEq ι] in
/-- Every lookup of an operation finds its document. -/
theorem Follows.found {matching : Matching String} {state : System ι}
    (hfollows : state.Follows matching) {i : ι} {thread : Thread}
    (hmem : thread ∈ (state.client i).threads) {code : String}
    (hlookup : (state.client i).lookup thread = some code) : code ∈ state.users.codes := by
  have hrunning : thread ∈ (state.client i).running := List.mem_append_left _ hmem
  have hthread := (hfollows.established.client i).threads thread hrunning
  cases thread with
  | getOwnId origin partnerCode =>
      obtain rfl := Option.some.inj hlookup
      exact hfollows.own i
  | getPartnerId origin partnerCode ownCode ownId =>
      obtain rfl := Option.some.inj hlookup
      rw [Users.codes_eq_index]
      exact hthread.2.1
  | updatePartnerCodeBy side partnerCode =>
      obtain rfl := Option.some.inj hlookup
      cases side with
      | partner =>
          -- the partner was a user when the Task read the code, and users do not vanish
          refine hfollows.known partnerCode " " ⟨i, Client.mem_writes.mpr (.inl ⟨_, hrunning, ?_⟩)⟩
          exact List.mem_cons_self
      | own =>
          obtain rfl : partnerCode = (state.client i).ownCode := hthread
          exact hfollows.own i
  | _ => simp [Client.lookup] at hlookup

omit [DecidableEq ι] in
/-- The writes that an undisturbed step starts lead to a matching. -/
theorem Follows.starts {matching : Matching String} {state : System ι}
    (hfollows : state.Follows matching) {i : ι} {action : Action}
    (hundisturbed : state.Undisturbed (.act i action)) :
    ∃ matching' : Matching String,
      (∀ write ∈ (state.client i).startsOf state.users action, write.1 ∈ state.users.codes) ∧
        Settling (fun code partnerCode => asPartner partnerCode = matching'.partner code)
          state.users.Stores fun code partnerCode => state.Outstanding code partnerCode ∨
            (code, partnerCode) ∈ (state.client i).startsOf state.users action := by
  have hnothing (hnil : (state.client i).startsOf state.users action = []) :
      ∃ matching' : Matching String,
        (∀ write ∈ (state.client i).startsOf state.users action, write.1 ∈ state.users.codes) ∧
          Settling (fun code partnerCode => asPartner partnerCode = matching'.partner code)
            state.users.Stores fun code partnerCode => state.Outstanding code partnerCode ∨
              (code, partnerCode) ∈ (state.client i).startsOf state.users action := by
    refine ⟨matching, by simp [hnil], hfollows.settling.congr (fun _ _ hstores => hstores) ?_⟩
    simp [hnil]
  cases action with
  | advance thread choice =>
      cases thread with
      | isExistingCode origin partnerCode =>
          by_cases hcode : partnerCode ∈ state.users.codes
          · obtain ⟨matching', hsettling⟩ :=
              hfollows.link (hfollows.own i) hcode (hundisturbed hcode)
            simp only [Client.startsOf, Client.starts, if_pos hcode]
            exact ⟨matching', by simp [hcode, hfollows.own i], hsettling⟩
          · exact hnothing (by simp [Client.startsOf, Client.starts, hcode])
      | deletePartnerCode side =>
          cases side with
          | partner =>
              obtain ⟨hcode, hmay⟩ := hundisturbed
              obtain ⟨matching', hsettling⟩ := hfollows.unlink (hfollows.own i) hcode hmay
              exact ⟨matching', by simp [Client.startsOf, Client.starts, hcode, hfollows.own i],
                hsettling⟩
          | own => exact hnothing rfl
      | _ => exact hnothing rfl
  | _ => exact hnothing rfl

omit [DecidableEq ι] in
theorem Operates.succeeds {event : Event ι} (hoperates : Operates event) : Succeeds event := by
  cases event with
  | act i action =>
      cases action with
      | advance thread choice => exact hoperates.1
      | _ => trivial
  | settle i accepted => exact hoperates

/-- A step follows the matching, or one with a pair more or less. -/
theorem Follows.step {matching : Matching String} {state next : System ι} {event : Event ι}
    (hfollows : state.Follows matching) (hoperates : Operates event)
    (hundisturbed : state.Undisturbed event) (hstep : state.step event = some next) :
    ∃ matching', next.Follows matching' := by
  have hestablished := hfollows.established
  have hsucceeds := hoperates.succeeds
  cases hestablished.proceeds hsucceeds hstep with
  | @act i action client htrap hact =>
      obtain ⟨hclient, hown⟩ := (hestablished.client i).act hsucceeds hact
      obtain ⟨matching', hknown, hsettling⟩ := hfollows.starts hundisturbed
      refine ⟨matching', hfollows.set hclient hown ?_ hknown hsettling⟩
      intro write
      refine Client.mem_writes_act hestablished.users (hestablished.client i) hsucceeds ?_ hact
      rintro thread choice rfl code hlookup
      exact hfollows.found (Client.advance_of_act hact).1 hlookup
  | @settle i documentID partnerCode resume rest houtbox =>
      -- a write that takes effect was planned, so the matching stays the same
      have hcodes := state.codes_commit_updateData i documentID partnerCode
      refine ⟨matching, hestablished.step hsucceeds hstep, ?_, ?_, ?_, ?_⟩
      · rw [settled_users, hcodes]
        exact hfollows.codes
      · intro j
        rw [settled_users, hcodes, hestablished.ownCode_eq hsucceeds hstep]
        exact hfollows.own j
      · intro code value hwrite
        rw [settled_users, hcodes]
        exact hfollows.known code value ((outstanding_settle houtbox code value).mpr (.inl hwrite))
      · have hsettling : Settling _ state.users.Stores fun code value =>
            False ∨ state.Outstanding code value :=
          hfollows.settling.congr (fun _ _ hstores => hstores) (by simp)
        exact (settling_settle hestablished hsettling houtbox).congr (fun _ _ hstores => hstores)
          (by simp)

omit [DecidableEq ι] in
/-- Where nothing is outstanding, the documents are the matching. -/
theorem Follows.mutual_exclusive {matching : Matching String} {state : System ι}
    (hfollows : state.Follows matching) (hquiet : state.Quiet) :
    Mutual state.users ∧ Exclusive state.users := by
  have hnone : ∀ code partnerCode, ¬ state.Outstanding code partnerCode := by
    rintro code partnerCode ⟨i, hwrite⟩
    rw [Client.writes_eq_nil (hquiet i).1 (hquiet i).2] at hwrite
    simp at hwrite
  have hpartner {document other : UserDocument} (hdocument : document ∈ state.users)
      (hother : other ∈ state.users) (heq : document.partnerCode = other.code) :
      matching.partner document.code = some other.code := by
    have hcode : other.code ∈ state.users.codes := List.mem_map_of_mem hother
    rw [← hfollows.settling.accepted hnone ⟨document, hdocument, rfl, rfl⟩, heq]
    exact asPartner_of_not_blank (hfollows.codes _ hcode)
  constructor
  · intro first hfirst second hsecond heq
    have hsymm := matching.symm (hpartner hfirst hsecond heq)
    rw [← hfollows.settling.accepted hnone ⟨second, hsecond, rfl, rfl⟩] at hsymm
    exact (asPartner_eq_some hsymm).2
  · intro first hfirst second hsecond partner hmem heq heq'
    exact hfollows.established.users.eq_of_code hfirst hsecond
      (matching.partner_injective (hpartner hfirst hmem heq) (hpartner hsecond hmem heq'))

/-- In every run of undisturbed operations from a collection without pairs, in every
state in which no operation is running and no write is in flight, the pairing is
mutual and exclusive. -/
theorem pairing_mutual_exclusive {start state : System ι} (hstart : start.Unpaired)
    (hreach : Reaches System.step (fun state event => Operates event ∧ state.Undisturbed event)
      start state) (hquiet : state.Quiet) : Mutual state.users ∧ Exclusive state.users := by
  obtain ⟨matching, hfollows⟩ : ∃ matching, state.Follows matching :=
    hreach.invariant (P := fun state => ∃ matching, state.Follows matching)
      ⟨.empty, hstart.follows⟩ fun _ _ _ ⟨_, hfollows⟩ hallowed hstep =>
        hfollows.step hallowed.1 hallowed.2 hstep
  exact hfollows.mutual_exclusive hquiet

/-! ### Three users -/

instance : ∀ event : Event ι, Decidable (Operates event)
  | .act _ (.advance thread choice) =>
      inferInstanceAs (Decidable (choice.succeeds ∧ thread ≠ .requestPartnerClothes))
  | .act _ .onAppear | .act _ (.getCode _) | .act _ (.enterCode _ _) | .act _ .disconnect
  | .act _ (.watch _ _) | .act _ (.deliver _) => .isTrue trivial
  | .settle _ accepted => inferInstanceAs (Decidable (accepted = true))

section

variable [Fintype ι]

instance (state : System ι) (code : String) (P : String → Prop) [DecidablePred P] :
    Decidable (state.WritesOnly code P) :=
  inferInstanceAs (Decidable (∀ i, ∀ write ∈ (state.client i).writes state.users,
    write.1 = code → P write.2))

instance (state : System ι) (first second : String) : Decidable (state.NamesOnly first second) :=
  inferInstanceAs (Decidable (∀ document ∈ state.users, document.code = first →
    Blank document.partnerCode ∨ document.partnerCode = second))

instance (state : System ι) (first second : String) : Decidable (state.MayConnect first second) :=
  inferInstanceAs (Decidable ((_ ∧ _) ∧ _ ∧ _))

instance (state : System ι) (first second : String) :
    Decidable (state.MayDisconnect first second) :=
  inferInstanceAs (Decidable ((_ ∧ _) ∧ _ ∧ _))

instance (state : System ι) : ∀ event, Decidable (state.Undisturbed event)
  | .act i (.advance thread _) =>
      match thread with
      | .isExistingCode _ partnerCode => inferInstanceAs (Decidable
          (partnerCode ∈ state.users.codes →
            state.MayConnect (state.client i).ownCode partnerCode))
      | .deletePartnerCode .partner => inferInstanceAs (Decidable
          ((state.client i).getPartnerCode ∈ state.users.codes ∧
            state.MayDisconnect (state.client i).ownCode (state.client i).getPartnerCode))
      | .deletePartnerCode .own | .saveCode _ | .connectPartner | .getPartnerCodeFromServer
      | .connectWithPartner _ _ | .getOwnId _ _ | .getPartnerId _ _ _ _ | .updateOwn _ _ _ _ _
      | .updatePartner _ _ _ _ | .setPartnerCode _ _ | .didConnectedPartner _
      | .updatePartnerCodeBy _ _ | .removePartnerCode | .didDeletePartnerCode
      | .requestPartnerClothes => .isTrue trivial
  | .act _ .onAppear | .act _ (.getCode _) | .act _ (.enterCode _ _) | .act _ .disconnect
  | .act _ (.watch _ _) | .act _ (.deliver _) | .settle _ _ => .isTrue trivial

instance (state : System ι) : Decidable state.Quiet :=
  inferInstanceAs (Decidable (∀ i, (state.client i).outbox = [] ∧
    ∀ thread ∈ (state.client i).threads, thread.isOperation = false))

end

/-- Three users without partners. -/
def trio : System (Fin 3) where
  users := [⟨"a", "AAAAAAAAAA", ""⟩, ⟨"b", "BBBBBBBBBB", ""⟩, ⟨"c", "CCCCCCCCCC", " "⟩]
  client i :=
    { code := some (if i = 0 then "AAAAAAAAAA" else if i = 1 then "BBBBBBBBBB" else "CCCCCCCCCC") }

theorem trio_unpaired : trio.Unpaired := by
  refine ⟨⟨by decide, by decide, by decide⟩, by decide, by decide, fun i => ?_, fun _ => rfl,
    fun _ => rfl⟩
  exact ⟨_, by revert i; decide, rfl⟩

/-- One user connects to another, and all writes are settled. -/
def pairing (i : Fin 3) (partnerCode ownCode partnerId ownId : String) : List (Event (Fin 3)) :=
  connecting i querying .settings partnerCode ownCode partnerId ownId ++
    [.act i (.advance (.didConnectedPartner .settings) querying), .settle i true, .settle i true]

/-- The first user connects to the second, disconnects, and connects to the third. -/
theorem first_pairs_with_third :
    ∃ state, Reaches System.step (fun state event => Operates event ∧ state.Undisturbed event)
      trio state ∧ state.Quiet ∧
      state.users.map (·.partnerCode) = ["CCCCCCCCCC", " ", "AAAAAAAAAA"] ∧
      Mutual state.users ∧ Exclusive state.users := by
  obtain ⟨state, hreach, hquiet, hcodes⟩ : ∃ state, Reaches System.step
      (fun state event => Operates event ∧ state.Undisturbed event) trio state ∧ state.Quiet ∧
      state.users.map (·.partnerCode) = ["CCCCCCCCCC", " ", "AAAAAAAAAA"] :=
    exists_reaches_of_run (pairing 0 "BBBBBBBBBB" "AAAAAAAAAA" "b" "a" ++
      [.act 0 .disconnect, .act 0 (.advance (.deletePartnerCode .partner) querying),
        .act 0 (.advance .removePartnerCode querying),
        .act 0 (.advance .didDeletePartnerCode querying),
        .act 0 (.advance (.updatePartnerCodeBy .partner "BBBBBBBBBB") querying), .settle 0 true,
        .act 0 (.advance (.deletePartnerCode .own) querying),
        .act 0 (.advance (.updatePartnerCodeBy .own "AAAAAAAAAA") querying), .settle 0 true] ++
      pairing 0 "CCCCCCCCCC" "AAAAAAAAAA" "c" "a") (by decide)
  exact ⟨state, hreach, hquiet, hcodes, pairing_mutual_exclusive trio_unpaired hreach hquiet⟩

/-- The third user connects to the second, who is the partner of the first. -/
theorem third_connects_to_paired_user :
    ∃ state, trio.Unpaired ∧ Reaches System.step (fun _ event => Operates event) trio state ∧
      state.Quiet ∧ ¬ Mutual state.users ∧ ¬ Exclusive state.users := by
  obtain ⟨state, hreach, hquiet, husers⟩ : ∃ state,
      Reaches System.step (fun _ event => Operates event) trio state ∧ state.Quiet ∧
      state.users = [⟨"a", "AAAAAAAAAA", "BBBBBBBBBB"⟩, ⟨"b", "BBBBBBBBBB", "CCCCCCCCCC"⟩,
        ⟨"c", "CCCCCCCCCC", "BBBBBBBBBB"⟩] :=
    exists_reaches_of_run (pairing 0 "BBBBBBBBBB" "AAAAAAAAAA" "b" "a" ++
      pairing 2 "BBBBBBBBBB" "CCCCCCCCCC" "b" "c") (by decide)
  refine ⟨state, trio_unpaired, hreach, hquiet, ?_, ?_⟩
  · rw [husers]
    unfold Mutual
    decide
  · rw [husers]
    unfold Exclusive
    decide

end System

end Pompom
