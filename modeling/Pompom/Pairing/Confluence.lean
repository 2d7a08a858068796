import Mathlib.Algebra.BigOperators.Group.Finset.Basic
import Mathlib.Algebra.Order.BigOperators.Group.Finset
import Mathlib.Algebra.Ring.Nat
import Mathlib.Data.Fintype.Basic
import Pompom.Lib.Run
import Pompom.Pairing.OutstandingWrites

/-!
# Compatible requests are confluent

Any number of `connectWithPartner` calls, in which every user occurs with one other
user only.  Both members of a pair write the same two values, the lookups depend on
nothing that is written, and so every order of the steps ends in the same
collection: the requested pairs hold each other's code, and all else is as it was.

`Connecting` lists what a step of such a call does.  Every step lowers the weight of
the system, so the runs end, and a state in which no step is possible has nothing
running and nothing in flight.
-/

namespace Pompom

open Lib

/-- The writes that a call is going to make once it has passed its checks. -/
def Thread.requests (own : String) : Thread → List (String × String)
  | .connectWithPartner _ partnerCode => [(own, partnerCode), (partnerCode, own)]
  | .isExistingCode _ partnerCode => [(own, partnerCode), (partnerCode, own)]
  | _ => []

/-- The partner's code that a call of `connectWithPartner` has yet to store. -/
def Thread.storing : Thread → Option String
  | .connectWithPartner _ partnerCode | .isExistingCode _ partnerCode | .getOwnId _ partnerCode
  | .getPartnerId _ partnerCode _ _ | .updateOwn _ partnerCode _ _ _
  | .updatePartner _ partnerCode _ _ | .setPartnerCode _ partnerCode => some partnerCode
  | _ => none

/-- How many steps a call of `connectWithPartner` has before it, with the settling
of its writes. -/
def Thread.weight : Thread → ℕ
  | .connectWithPartner _ _ => 10
  | .isExistingCode _ _ => 9
  | .getOwnId _ _ => 8
  | .getPartnerId _ _ _ _ => 7
  | .updateOwn _ _ _ _ _ => 6
  | .updatePartner _ _ _ _ => 4
  | .setPartnerCode _ _ => 2
  | .didConnectedPartner _ => 1
  | _ => 0

namespace Client

/-- What the next step of a `connectWithPartner` call does, as long as its checks
and lookups succeed. -/
inductive Connecting (users : Users) (client : Client) : Thread → Client → Prop where
  | connectWithPartner (origin : Origin) (partnerCode : String) :
      Connecting users client (.connectWithPartner origin partnerCode)
        (client.spawn (.isExistingCode origin partnerCode))
  | isExistingCode (origin : Origin) (partnerCode : String) :
      Connecting users client (.isExistingCode origin partnerCode)
        (client.spawn (.getOwnId origin partnerCode))
  | getOwnId (origin : Origin) (partnerCode ownId : String) :
      Connecting users client (.getOwnId origin partnerCode)
        (client.spawn (.getPartnerId origin partnerCode client.ownCode ownId))
  | getPartnerId (origin : Origin) (partnerCode ownCode ownId partnerId : String) :
      Connecting users client (.getPartnerId origin partnerCode ownCode ownId)
        (client.spawn (.updateOwn origin partnerCode ownCode ownId partnerId))
  | updateOwn (origin : Origin) (partnerCode ownCode ownId partnerId : String) :
      Connecting users client (.updateOwn origin partnerCode ownCode ownId partnerId)
        ((client.issue (.updateData ownId partnerCode) none).spawn
          (.updatePartner origin partnerCode ownCode partnerId))
  | updatePartner (origin : Origin) (partnerCode ownCode partnerId : String) :
      Connecting users client (.updatePartner origin partnerCode ownCode partnerId)
        ((client.issue (.updateData partnerId ownCode) none).spawn
          (.setPartnerCode origin partnerCode))
  | setPartnerCode (origin : Origin) (partnerCode : String) :
      Connecting users client (.setPartnerCode origin partnerCode)
        ({ client with partnerCode := some partnerCode }.spawn (.didConnectedPartner origin))
  | didConnectedPartnerMain :
      Connecting users client (.didConnectedPartner .main)
        ({ client with isConnectedPartner := true }.spawn .requestPartnerClothes)
  | didConnectedPartnerSettings : Connecting users client (.didConnectedPartner .settings) client

variable {users : Users} {client : Client}

/-- A step of a call between existing users. -/
theorem connecting_advance (hwf : users.WellFormed) {choice : Choice} {thread : Thread}
    (hcode : client.code = some client.ownCode) (hunsaved : client.unsaved = [])
    (hthread : thread.Resolved users.index client.ownCode) (hsucceeds : choice.succeeds = true)
    (hown : client.ownCode ∈ users.codes)
    (hstoring : ∀ partnerCode, thread.storing = some partnerCode →
      partnerCode ∈ users.codes ∧ ¬ CodeManager.SameCode partnerCode client.ownCode)
    (hcall : thread.weight ≠ 0) :
    Connecting users client thread (client.advance users choice thread) := by
  cases thread with
  | connectWithPartner origin partnerCode =>
      simp only [advance, getCode_of_some hcode, if_neg (hstoring _ rfl).2]
      exact .connectWithPartner origin partnerCode
  | isExistingCode origin partnerCode =>
      have hexisting := (mem_codes_of_isExistingCode hunsaved).mpr (hstoring _ rfl).1
      rw [advance, hsucceeds, if_pos hexisting]
      exact .isExistingCode origin partnerCode
  | getOwnId origin partnerCode =>
      obtain ⟨ownId, -, hnext⟩ := getIdByCode_of_mem hunsaved hown
      simp only [advance, getCode_of_some hcode, hsucceeds, hnext]
      exact .getOwnId origin partnerCode ownId
  | getPartnerId origin partnerCode ownCode ownId =>
      obtain ⟨partnerId, -, hnext⟩ := getIdByCode_of_mem hunsaved (hstoring _ rfl).1
      simp only [advance, hsucceeds, hnext]
      exact .getPartnerId origin partnerCode ownCode ownId partnerId
  | updateOwn origin partnerCode ownCode ownId partnerId =>
      rw [advance, document_of_ne (hwf.ne_empty hthread.2.1)]
      exact .updateOwn origin partnerCode ownCode ownId partnerId
  | updatePartner origin partnerCode ownCode partnerId =>
      rw [advance, document_of_ne (hwf.ne_empty hthread.2)]
      exact .updatePartner origin partnerCode ownCode partnerId
  | setPartnerCode origin partnerCode => exact .setPartnerCode origin partnerCode
  | didConnectedPartner origin =>
      cases origin with
      | main => exact .didConnectedPartnerMain
      | settings => exact .didConnectedPartnerSettings
  | _ => exact absurd rfl hcall

/-- The writes that the calls of this client are going to make once they have
passed their checks. -/
def requests (client : Client) : List (String × String) :=
  client.running.flatMap (Thread.requests client.ownCode)

theorem mem_requests {write : String × String} :
    write ∈ client.requests ↔ ∃ thread ∈ client.running, write ∈ thread.requests client.ownCode :=
  List.mem_flatMap

theorem mem_requests_spawn {thread : Thread} {write : String × String} :
    write ∈ (client.spawn thread).requests ↔
      write ∈ client.requests ∨ write ∈ thread.requests client.ownCode := by
  rw [mem_requests, mem_requests, exists_running_spawn]
  rfl

theorem mem_requests_issue {documentID partnerCode : String} {write : String × String} :
    write ∈ (client.issue (.updateData documentID partnerCode) none).requests ↔
      write ∈ client.requests := by
  simp only [requests, List.mem_flatMap, mem_running_issue, Option.not_mem_none, false_or]
  rfl

theorem mem_requests_dequeue {thread : Thread} (hmem : thread ∈ client.threads)
    {write : String × String} :
    write ∈ client.requests ↔
      write ∈ (client.dequeue thread).requests ∨ write ∈ thread.requests client.ownCode := by
  rw [mem_requests, mem_requests, exists_running_dequeue hmem]
  rfl

/-- A step turns requests into outstanding writes, and loses none. -/
theorem Connecting.mem_requests {thread : Thread} {next : Client}
    (hconnecting : Connecting users client thread next)
    (hstoring : ∀ partnerCode, thread.storing = some partnerCode → partnerCode ∈ users.codes)
    (write : String × String) :
    write ∈ next.requests ∨ write ∈ client.starts users thread ↔
      write ∈ client.requests ∨ write ∈ thread.requests client.ownCode := by
  cases hconnecting with
  | connectWithPartner origin partnerCode =>
      rw [mem_requests_spawn]
      simp [starts, Thread.requests]
  | isExistingCode origin partnerCode =>
      rw [mem_requests_spawn]
      simp [starts, Thread.requests, hstoring partnerCode rfl]
  | getOwnId origin partnerCode ownId =>
      rw [mem_requests_spawn]
      simp [starts, Thread.requests]
  | getPartnerId origin partnerCode ownCode ownId partnerId =>
      rw [mem_requests_spawn]
      simp [starts, Thread.requests]
  | updateOwn origin partnerCode ownCode ownId partnerId =>
      rw [mem_requests_spawn, mem_requests_issue]
      simp [starts, Thread.requests]
  | updatePartner origin partnerCode ownCode partnerId =>
      rw [mem_requests_spawn, mem_requests_issue]
      simp [starts, Thread.requests]
  | setPartnerCode origin partnerCode =>
      rw [mem_requests_spawn]
      simp only [starts, Thread.requests, List.not_mem_nil, or_false]
      rfl
  | didConnectedPartnerMain =>
      rw [mem_requests_spawn]
      simp only [starts, Thread.requests, List.not_mem_nil, or_false]
      rfl
  | didConnectedPartnerSettings => simp [starts, Thread.requests]

/-- The steps that a client has before it. -/
def weight (client : Client) : ℕ :=
  (client.running.map Thread.weight).sum + client.outbox.length

theorem weight_spawn (thread : Thread) :
    (client.spawn thread).weight = client.weight + thread.weight := by
  simp only [weight, running, Client.spawn, List.map_append, List.sum_append, List.map_cons,
    List.map_nil, List.sum_cons, List.sum_nil]
  omega

theorem weight_issue (write : Write) : (client.issue write none).weight = client.weight + 1 := by
  simp only [weight, running, issue, setStore, List.filterMap_append, List.filterMap_cons,
    List.filterMap_nil, List.append_nil, List.length_append, List.length_singleton]
  omega

theorem weight_settled {pending : Pending} {rest : List Pending}
    (houtbox : client.outbox = pending :: rest) :
    (client.settled pending rest).weight + 1 = client.weight := by
  rw [weight, weight, running_settled houtbox, houtbox, List.length_cons]
  rfl

theorem weight_erase {thread : Thread} (hmem : thread ∈ client.threads) :
    (client.dequeue thread).weight + thread.weight =
      client.weight := by
  have hsum := List.sum_map_erase Thread.weight hmem
  simp only [weight, running, dequeue, List.map_append, List.sum_append]
  omega

theorem Connecting.weight_lt {thread : Thread} {next : Client}
    (hconnecting : Connecting users client thread next) :
    next.weight + 1 ≤ client.weight + thread.weight := by
  cases hconnecting with
  | updateOwn | updatePartner =>
      rw [weight_spawn, weight_issue]
      simp only [Thread.weight]
      omega
  | setPartnerCode | didConnectedPartnerMain =>
      rw [weight_spawn]
      exact Nat.le_refl _
  | didConnectedPartnerSettings => exact Nat.le_refl _
  | _ =>
      rw [weight_spawn]
      simp only [Thread.weight]
      omega

/-- The threads of a call and what they leave behind. -/
def IsCall (partner : String → Prop) (thread : Thread) : Prop :=
  (thread.weight ≠ 0 ∨ thread = .requestPartnerClothes) ∧
    ∀ partnerCode, thread.storing = some partnerCode → partner partnerCode

theorem Connecting.isCall {thread : Thread} {next : Client} {partner : String → Prop}
    (hconnecting : Connecting users client thread next) (hthread : IsCall partner thread) :
    ∀ other ∈ next.running, other ∈ client.running ∨ IsCall partner other := by
  have hstoring := hthread.2
  intro other hother
  cases hconnecting with
  | updateOwn | updatePartner =>
      rw [mem_running_spawn, mem_running_issue] at hother
      rcases hother with rfl | hnone | hother
      · exact .inr ⟨.inl (by simp [Thread.weight]), hstoring⟩
      · exact absurd hnone (Option.not_mem_none _)
      · exact .inl hother
  | didConnectedPartnerMain =>
      rcases mem_running_spawn.mp hother with rfl | hother
      · exact .inr ⟨.inr rfl, by simp [Thread.storing]⟩
      · exact .inl hother
  | didConnectedPartnerSettings => exact .inl hother
  | setPartnerCode =>
      rcases mem_running_spawn.mp hother with rfl | hother
      · exact .inr ⟨.inl (by simp [Thread.weight]), by simp [Thread.storing]⟩
      · exact .inl hother
  | _ =>
      rcases mem_running_spawn.mp hother with rfl | hother
      · exact .inr ⟨.inl (by simp [Thread.weight]), hstoring⟩
      · exact .inl hother

/-- The partner's code is stored, or a thread is still to store it. -/
theorem Connecting.storing {thread : Thread} {next : Client}
    (hconnecting : Connecting users client thread next) :
    (next.partnerCode = client.partnerCode ∨
        ∃ partnerCode, thread.storing = some partnerCode ∧ next.partnerCode = some partnerCode) ∧
      (∀ other ∈ client.threads, other ∈ next.threads) ∧
      ∀ partnerCode, thread.storing = some partnerCode →
        next.partnerCode = some partnerCode ∨
          ∃ other ∈ next.threads, other.storing = some partnerCode := by
  cases hconnecting with
  | setPartnerCode =>
      refine ⟨.inr ⟨_, rfl, rfl⟩, fun other hother => List.mem_append_left _ hother, ?_⟩
      exact fun partnerCode hpartnerCode => .inl hpartnerCode
  | didConnectedPartnerMain =>
      exact ⟨.inl rfl, fun other hother => List.mem_append_left _ hother, by simp [Thread.storing]⟩
  | didConnectedPartnerSettings =>
      exact ⟨.inl rfl, fun _ hother => hother, by simp [Thread.storing]⟩
  | _ =>
      refine ⟨.inl rfl, fun other hother => List.mem_append_left _ hother, ?_⟩
      exact fun partnerCode hpartnerCode =>
        .inr ⟨_, List.mem_append_right _ (List.mem_singleton.mpr rfl), hpartnerCode⟩

/-- A step of a call turns what the client is going to write from one form into
another. -/
theorem Connecting.mem_plans {thread : Thread} {next : Client} (hmem : thread ∈ client.threads)
    (hconnecting : Connecting users (client.dequeue thread) thread next)
    (hstoring : ∀ partnerCode, thread.storing = some partnerCode → partnerCode ∈ users.codes)
    (hwrites : ∀ write, write ∈ next.writes users ↔
      write ∈ client.writes users ∨ write ∈ client.starts users thread)
    (write : String × String) :
    (write ∈ next.requests ∨ write ∈ next.writes users) ↔
      (write ∈ client.requests ∨ write ∈ client.writes users) := by
  have hrequests := hconnecting.mem_requests hstoring write
  rw [starts_dequeue, ownCode_dequeue] at hrequests
  calc (write ∈ next.requests ∨ write ∈ next.writes users)
      ↔ write ∈ next.requests ∨
          write ∈ client.writes users ∨ write ∈ client.starts users thread := by
        rw [hwrites]
    _ ↔ (write ∈ next.requests ∨ write ∈ client.starts users thread) ∨
          write ∈ client.writes users := by
        rw [or_comm (a := write ∈ client.writes users), or_assoc]
    _ ↔ write ∈ client.requests ∨ write ∈ client.writes users := by
        rw [hrequests, mem_requests_dequeue hmem]

/-- What is stored stays stored, and what is still to be stored is stored or still to
be stored, if this call stores nothing else. -/
theorem Connecting.stored {thread : Thread} {next : Client}
    (hconnecting : Connecting users (client.dequeue thread) thread next) {partnerCode : String}
    (hsame : ∀ stored, thread.storing = some stored → stored = partnerCode)
    (hstored : client.partnerCode = some partnerCode ∨
      ∃ other ∈ client.threads, other.storing = some partnerCode) :
    next.partnerCode = some partnerCode ∨
      ∃ other ∈ next.threads, other.storing = some partnerCode := by
  obtain ⟨hpartnerCode, hthreads, hstores⟩ := hconnecting.storing
  rcases hstored with hstored | ⟨other, hother, hstoring⟩
  · rcases hpartnerCode with hkept | ⟨replaced, hstoring, hreplaced⟩
    · exact .inl (hkept.trans hstored)
    · rw [hreplaced, hsame replaced hstoring]
      exact .inl rfl
  · by_cases heq : other = thread
    · exact hstores partnerCode (heq ▸ hstoring)
    · exact .inr ⟨other, hthreads other ((List.mem_erase_of_ne heq).mpr hother), hstoring⟩

theorem Connecting.trap_eq {thread : Thread} {next : Client}
    (hconnecting : Connecting users client thread next) : next.trap = client.trap := by
  cases hconnecting <;> rfl

end Client

namespace Users

/-- Collections with the same index and the same values are the same. -/
theorem eq_of_index {users users' : Users} (hindex : users.index = users'.index)
    (hvalue : ∀ document ∈ users, ∀ document' ∈ users', document.code = document'.code →
      document.partnerCode = document'.partnerCode) : users = users' := by
  induction users generalizing users' with
  | nil =>
      cases users' with
      | nil => rfl
      | cons document' rest' => simp [index] at hindex
  | cons document rest ih =>
      cases users' with
      | nil => simp [index] at hindex
      | cons document' rest' =>
          simp only [index, List.map_cons, List.cons.injEq, Prod.mk.injEq] at hindex
          obtain ⟨⟨hdocumentID, hcode⟩, hrest⟩ := hindex
          have hpartnerCode := hvalue document List.mem_cons_self document' List.mem_cons_self hcode
          have hfirst : document = document' := by
            cases document
            cases document'
            simp_all
          rw [hfirst, ih hrest fun other hother other' hother' =>
            hvalue other (List.mem_cons_of_mem _ hother) other' (List.mem_cons_of_mem _ hother')]

end Users

namespace System

variable {ι : Type*}

/-- The client calls `connectWithPartner` with this code. -/
def Requests (start : System ι) (i : ι) (partnerCode : String) : Prop :=
  ∃ origin, .connectWithPartner origin partnerCode ∈ (start.client i).threads

/-- One of the two users requests the other. -/
def Requested (start : System ι) (first second : String) : Prop :=
  ∃ i, (start.client i).ownCode = first ∧ start.Requests i second ∨
    (start.client i).ownCode = second ∧ start.Requests i first

/-- Calls of `connectWithPartner` between existing users that are about to start, in
which every user occurs with one other user only. -/
structure Requesting (start : System ι) : Prop where
  users : start.users.WellFormed
  client : ∀ i, ∃ code ∈ start.users.codes, (start.client i).code = some code
  threads : ∀ i, ∀ thread ∈ (start.client i).threads, ∃ origin, ∃ partnerCode ∈ start.users.codes,
    ¬ CodeManager.SameCode partnerCode (start.client i).ownCode ∧
      thread = .connectWithPartner origin partnerCode
  outbox : ∀ i, (start.client i).outbox = []
  trap : ∀ i, (start.client i).trap = none
  compatible : ∀ first second third, start.Requested first second → start.Requested first third →
    second = third

/-- The steps of the calls: all queries and writes succeed. -/
def Connects : Event ι → Prop
  | .act _ (.advance thread choice) => thread.isOperation ∧ choice.succeeds
  | .act _ _ => False
  | .settle _ accepted => accepted = true

/-- The collection that the requests lead to: those who requested each other hold
each other's code, and all else is unchanged. -/
structure Joined (start : System ι) (users : Users) : Prop where
  index : users.index = start.users.index
  pairs : ∀ first second, start.Requested first second →
    users.Stores first second ∧ users.Stores second first
  others : ∀ document ∈ start.users, (∀ other, ¬ start.Requested document.code other) →
    document ∈ users

theorem Requested.symm {start : System ι} {first second : String}
    (hrequested : start.Requested first second) : start.Requested second first := by
  obtain ⟨i, hown | hown⟩ := hrequested
  · exact ⟨i, .inr hown⟩
  · exact ⟨i, .inl hown⟩

/-- What the collection may hold in the end. -/
def Accepts (start : System ι) (code partnerCode : String) : Prop :=
  start.Requested code partnerCode ∨
    (∀ other, ¬ start.Requested code other) ∧ start.users.Stores code partnerCode

/-- The invariant of the runs. -/
structure Joining (start state : System ι) : Prop where
  established : state.Established
  index : state.users.index = start.users.index
  ownCode : ∀ i, (state.client i).ownCode = (start.client i).ownCode
  trap : ∀ i, (state.client i).trap = none
  calls : ∀ i, ∀ thread ∈ (state.client i).running, Client.IsCall (start.Requests i) thread
  stored : ∀ i partnerCode, start.Requests i partnerCode →
    (state.client i).partnerCode = some partnerCode ∨
      ∃ thread ∈ (state.client i).threads, thread.storing = some partnerCode
  settling : Settling start.Accepts state.users.Stores fun code partnerCode =>
    (∃ i, (code, partnerCode) ∈ (state.client i).requests) ∨ state.Outstanding code partnerCode

theorem Requesting.partner {start : System ι} (hstart : start.Requesting) {i : ι}
    {partnerCode : String} (hrequests : start.Requests i partnerCode) :
    partnerCode ∈ start.users.codes ∧
      ¬ CodeManager.SameCode partnerCode (start.client i).ownCode := by
  obtain ⟨origin, hmem⟩ := hrequests
  obtain ⟨origin', partnerCode', hcode, hne, heq⟩ := hstart.threads i _ hmem
  obtain ⟨rfl, rfl⟩ : origin = origin' ∧ partnerCode = partnerCode' := by simpa using heq
  exact ⟨hcode, hne⟩

theorem Requesting.own {start : System ι} (hstart : start.Requesting) (i : ι) :
    (start.client i).code = some (start.client i).ownCode ∧
      (start.client i).ownCode ∈ start.users.codes := by
  obtain ⟨code, hmem, hcode⟩ := hstart.client i
  rw [Client.ownCode_eq hcode]
  exact ⟨hcode, hmem⟩

theorem Requesting.running {start : System ι} (hstart : start.Requesting) (i : ι) :
    (start.client i).running = (start.client i).threads := by
  simp [Client.running, hstart.outbox i]

theorem Requesting.joining {start : System ι} (hstart : start.Requesting) :
    start.Joining start := by
  have hcall (i : ι) (thread : Thread) (hmem : thread ∈ (start.client i).threads) :
      ∃ origin partnerCode, thread = .connectWithPartner origin partnerCode ∧
        start.Requests i partnerCode := by
    obtain ⟨origin, partnerCode, -, -, rfl⟩ := hstart.threads i thread hmem
    exact ⟨origin, partnerCode, rfl, origin, hmem⟩
  refine ⟨⟨hstart.users, ?_⟩, rfl, fun _ => rfl, hstart.trap, ?_, ?_, ?_, ?_⟩
  · intro i
    refine ⟨(hstart.own i).1, ?_, ?_⟩
    · have hsave : (start.client i).threads.filterMap Thread.codeToSave = [] := by
        refine List.filterMap_eq_nil_iff.mpr ?_
        intro thread hmem
        obtain ⟨origin, partnerCode, rfl, -⟩ := hcall i thread hmem
        rfl
      simp [Client.unsaved, hstart.running i, hsave, Client.pendingDocuments, hstart.outbox i]
    · intro thread hthread
      rw [hstart.running i] at hthread
      obtain ⟨origin, partnerCode, rfl, -⟩ := hcall i thread hthread
      trivial
  · intro i thread hthread
    rw [hstart.running i] at hthread
    obtain ⟨origin, partnerCode, rfl, hrequests⟩ := hcall i thread hthread
    refine ⟨.inl (by simp [Thread.weight]), ?_⟩
    intro other hother
    obtain rfl := Option.some.inj hother
    exact hrequests
  · rintro i partnerCode ⟨origin, hmem⟩
    exact .inr ⟨_, hmem, rfl⟩
  · intro code partnerCode hwrite
    refine .inl ?_
    rcases hwrite with ⟨i, hwrite⟩ | ⟨i, hwrite⟩
    · obtain ⟨thread, hthread, hwrite⟩ := List.mem_flatMap.mp hwrite
      rw [hstart.running i] at hthread
      obtain ⟨origin, partner, rfl, hrequests⟩ := hcall i thread hthread
      simp only [Thread.requests, List.mem_cons, Prod.mk.injEq, List.not_mem_nil,
        or_false] at hwrite
      rcases hwrite with ⟨rfl, rfl⟩ | ⟨rfl, rfl⟩
      · exact ⟨i, .inl ⟨rfl, hrequests⟩⟩
      · exact ⟨i, .inr ⟨rfl, hrequests⟩⟩
    · rcases Client.mem_writes.mp hwrite with ⟨thread, hthread, hwrite⟩ | ⟨pending, hpending, -⟩
      · rw [hstart.running i] at hthread
        obtain ⟨origin, partner, rfl, -⟩ := hcall i thread hthread
        simp [Thread.writes] at hwrite
      · simp [hstart.outbox i] at hpending
  · intro code partnerCode hstores hnone
    refine .inr ⟨?_, hstores⟩
    intro other hrequested
    -- A requested pair is among the requests of the client that makes the call.
    obtain ⟨i, ⟨rfl, origin, hmem⟩ | ⟨rfl, origin, hmem⟩⟩ := hrequested
    · have hrunning := hstart.running i ▸ hmem
      exact hnone other (.inl ⟨i, List.mem_flatMap.mpr ⟨_, hrunning, by simp [Thread.requests]⟩⟩)
    · have hrunning := hstart.running i ▸ hmem
      exact hnone (start.client i).ownCode
        (.inl ⟨i, List.mem_flatMap.mpr ⟨_, hrunning, by simp [Thread.requests]⟩⟩)

/-- The steps that the clients have before them. -/
def weight [Fintype ι] (state : System ι) : ℕ := ∑ i, (state.client i).weight

variable [DecidableEq ι]

theorem weight_set [Fintype ι] {state : System ι} {i : ι} {client : Client}
    (hlt : client.weight + 1 ≤ (state.client i).weight) :
    (state.set i client).weight + 1 ≤ state.weight := by
  unfold weight
  refine Nat.succ_le_of_lt (Finset.sum_lt_sum (fun j _ => ?_) ⟨i, Finset.mem_univ i, ?_⟩)
  · by_cases hj : j = i
    · subst hj
      rw [set_client_self]
      exact Nat.le_of_succ_le hlt
    · rw [set_client_of_ne state hj]
  · rw [set_client_self]
    exact hlt

omit [DecidableEq ι] in
theorem Joining.codes_eq {start state : System ι} (hjoining : start.Joining state) :
    state.users.codes = start.users.codes := by
  rw [Users.codes_eq_index, hjoining.index, ← Users.codes_eq_index]

omit [DecidableEq ι] in
/-- What a step of a call does. -/
theorem Joining.connecting {start state : System ι} (hstart : start.Requesting)
    (hjoining : start.Joining state) {i : ι} {thread : Thread} {choice : Choice}
    (hmem : thread ∈ (state.client i).threads) (hoperation : thread.isOperation = true)
    (hsucceeds : choice.succeeds = true) :
    Client.Connecting state.users ((state.client i).dequeue thread) thread
      (((state.client i).dequeue thread).advance state.users choice thread) := by
  have hclient := hjoining.established.client i
  have hrunning : thread ∈ (state.client i).running := List.mem_append_left _ hmem
  have hcall := hjoining.calls i thread hrunning
  have hown : ((state.client i).dequeue thread).ownCode = (start.client i).ownCode :=
    hjoining.ownCode i
  refine Client.connecting_advance hjoining.established.users hclient.code
    (Client.unsaved_erase hclient.unsaved hmem) (hclient.threads thread hrunning) hsucceeds ?_
    (fun partnerCode hstoring => ?_) (hcall.1.resolve_right ?_)
  · rw [hown, hjoining.codes_eq]
    exact (hstart.own i).2
  · rw [hown, hjoining.codes_eq]
    exact hstart.partner (hcall.2 partnerCode hstoring)
  · rintro rfl
    simp [Thread.isOperation] at hoperation

omit [DecidableEq ι] in
/-- Every lookup of a call finds its document. -/
theorem Joining.found {start state : System ι} (hstart : start.Requesting)
    (hjoining : start.Joining state) {i : ι} {thread : Thread}
    (hmem : thread ∈ (state.client i).threads) {code : String}
    (hlookup : (state.client i).lookup thread = some code) : code ∈ state.users.codes := by
  have hcall := hjoining.calls i thread (List.mem_append_left _ hmem)
  rw [hjoining.codes_eq]
  cases thread with
  | getOwnId origin partnerCode =>
      obtain rfl := Option.some.inj hlookup
      rw [hjoining.ownCode]
      exact (hstart.own i).2
  | getPartnerId origin partnerCode ownCode ownId =>
      obtain rfl := Option.some.inj hlookup
      exact (hstart.partner (hcall.2 partnerCode rfl)).1
  | updatePartnerCodeBy side partnerCode => simp [Client.IsCall, Thread.weight] at hcall
  | _ => simp [Client.lookup] at hlookup

/-- A step of a call keeps the invariant, and lowers the weight. -/
theorem Joining.act {start state : System ι} (hstart : start.Requesting)
    (hjoining : start.Joining state) {i : ι} {thread : Thread} {choice : Choice} {next : Client}
    (hoperation : thread.isOperation = true) (hsucceeds : choice.succeeds = true)
    (hact : (state.client i).act state.users (.advance thread choice) = some next) :
    start.Joining (state.set i next) ∧ next.weight + 1 ≤ (state.client i).weight := by
  have hestablished := hjoining.established
  obtain ⟨hmem, hnext⟩ := Client.advance_of_act hact
  have hcall := hjoining.calls i thread (List.mem_append_left _ hmem)
  have hpartner (partnerCode : String) (hstoring : thread.storing = some partnerCode) :
      partnerCode ∈ state.users.codes := by
    rw [hjoining.codes_eq]
    exact (hstart.partner (hcall.2 partnerCode hstoring)).1
  obtain ⟨hclient, hown⟩ := (hestablished.client i).act
    (show Client.Succeeds (.advance thread choice) from hsucceeds) hact
  have hwrites (write : String × String) : write ∈ next.writes state.users ↔
      write ∈ (state.client i).writes state.users ∨
        write ∈ (state.client i).starts state.users thread := by
    refine Client.mem_writes_act hestablished.users (hestablished.client i)
      (show Client.Succeeds (.advance thread choice) from hsucceeds) ?_ hact
    rintro other otherChoice heq code hlookup
    obtain ⟨rfl, -⟩ : thread = other ∧ choice = otherChoice := by simpa using heq
    exact hjoining.found hstart hmem hlookup
  have hconnecting := hjoining.connecting hstart hmem hoperation hsucceeds
  rw [← hnext] at hconnecting
  refine ⟨⟨hestablished.set hclient, hjoining.index, ?_, ?_, ?_, ?_, ?_⟩, ?_⟩
  · exact forall_client_set (P := fun j client => client.ownCode = (start.client j).ownCode)
      (hown.trans (hjoining.ownCode i)) hjoining.ownCode
  · exact forall_client_set (P := fun _ client => client.trap = none)
      (hconnecting.trap_eq.trans (hjoining.trap i)) hjoining.trap
  · refine forall_client_set (P := fun j client =>
      ∀ other ∈ client.running, Client.IsCall (start.Requests j) other) ?_ hjoining.calls
    intro other hother
    rcases hconnecting.isCall hcall other hother with hold | hnew
    · exact hjoining.calls i other ((state.client i).running_dequeue_subset thread hold)
    · exact hnew
  · refine forall_client_set (P := fun j client => ∀ partnerCode, start.Requests j partnerCode →
      client.partnerCode = some partnerCode ∨
        ∃ thread ∈ client.threads, thread.storing = some partnerCode) ?_ hjoining.stored
    intro partnerCode hrequests
    refine hconnecting.stored ?_ (hjoining.stored i partnerCode hrequests)
    -- all calls of one client are for the same partner
    intro stored hstoring
    exact hstart.compatible _ stored partnerCode
      ⟨i, .inl ⟨rfl, hcall.2 stored hstoring⟩⟩ ⟨i, .inl ⟨rfl, hrequests⟩⟩
  · refine hjoining.settling.congr (fun _ _ hstored => hstored) ?_
    intro code partnerCode
    have hplans := hconnecting.mem_plans hmem hpartner hwrites (code, partnerCode)
    rw [← or_false ((code, partnerCode) ∈ (state.client i).requests ∨ _)] at hplans
    have hclients := exists_client_set (P := fun client => (code, partnerCode) ∈ client.requests ∨
      (code, partnerCode) ∈ client.writes state.users) hplans
    rw [or_false, exists_or, exists_or] at hclients
    exact hclients
  · have hweight := hconnecting.weight_lt
    rw [Client.weight_erase hmem] at hweight
    exact hweight

/-- What settling a write does to the clients. -/
theorem settle_client {state : System ι} {i : ι} {write : Write} {resume : Option Thread}
    {rest : List Pending} (houtbox : (state.client i).outbox = ⟨write, resume⟩ :: rest) (j : ι) :
    (((state.commit i write).settled i ⟨write, resume⟩ rest).client j).running =
        (state.client j).running ∧
      (((state.commit i write).settled i ⟨write, resume⟩ rest).client j).ownCode =
        (state.client j).ownCode ∧
      (((state.commit i write).settled i ⟨write, resume⟩ rest).client j).trap =
        (state.client j).trap ∧
      (((state.commit i write).settled i ⟨write, resume⟩ rest).client j).partnerCode =
        (state.client j).partnerCode ∧
      ∀ thread ∈ (state.client j).threads,
        thread ∈ (((state.commit i write).settled i ⟨write, resume⟩ rest).client j).threads := by
  refine forall_client_settled (P := fun j client =>
    client.running = (state.client j).running ∧ client.ownCode = (state.client j).ownCode ∧
      client.trap = (state.client j).trap ∧ client.partnerCode = (state.client j).partnerCode ∧
      ∀ thread ∈ (state.client j).threads, thread ∈ client.threads)
    (state.commit_client i write) ?_ ?_ j
  · intro cache
    refine ⟨Client.running_settled houtbox, rfl, rfl, rfl, ?_⟩
    intro thread hthread
    exact List.mem_append_left _ hthread
  · intro j cache
    exact ⟨rfl, rfl, rfl, rfl, fun _ hthread => hthread⟩

theorem weight_settle [Fintype ι] {state : System ι} {i : ι} {write : Write}
    {resume : Option Thread} {rest : List Pending}
    (houtbox : (state.client i).outbox = ⟨write, resume⟩ :: rest) :
    ((state.commit i write).settled i ⟨write, resume⟩ rest).weight + 1 ≤ state.weight := by
  have hclient (j : ι) : ((state.commit i write).client j).weight = (state.client j).weight := by
    obtain ⟨cache, hcache⟩ := state.commit_client i write j
    rw [hcache]
    rfl
  have hcommit : (state.commit i write).weight = state.weight :=
    Finset.sum_congr rfl fun j _ => hclient j
  rw [← hcommit]
  refine weight_set (Nat.le_of_eq (Client.weight_settled ?_))
  obtain ⟨cache, hcache⟩ := state.commit_client i write i
  rw [hcache]
  exact houtbox

omit [DecidableEq ι] in
theorem Connects.succeeds {event : Event ι} (hconnects : Connects event) : Succeeds event := by
  cases event with
  | act i action =>
      cases action with
      | advance thread choice => exact hconnects.2
      | _ => exact False.elim hconnects
  | settle i accepted => exact hconnects

/-- A step keeps the invariant, and lowers the weight. -/
theorem Joining.step [Fintype ι] {start state next : System ι} {event : Event ι}
    (hstart : start.Requesting) (hjoining : start.Joining state) (hconnects : Connects event)
    (hstep : state.step event = some next) :
    start.Joining next ∧ next.weight + 1 ≤ state.weight := by
  have hestablished := hjoining.established
  have hsucceeds := hconnects.succeeds
  cases hestablished.proceeds hsucceeds hstep with
  | @act i action client htrap hact =>
      cases action with
      | advance thread choice =>
          obtain ⟨hnext, hweight⟩ := hjoining.act hstart hconnects.1 hconnects.2 hact
          exact ⟨hnext, weight_set hweight⟩
      | _ => exact False.elim hconnects
  | @settle i documentID partnerCode resume rest houtbox =>
      have hclient := settle_client houtbox
      refine ⟨⟨hestablished.step hsucceeds hstep, ?_, ?_, ?_, ?_, ?_, ?_⟩, weight_settle houtbox⟩
      · rw [hestablished.index_eq hsucceeds hstep, hjoining.index]
      · intro j
        rw [(hclient j).2.1, hjoining.ownCode]
      · intro j
        rw [(hclient j).2.2.1, hjoining.trap]
      · intro j thread hthread
        rw [(hclient j).1] at hthread
        exact hjoining.calls j thread hthread
      · intro j partnerCode hrequests
        rw [(hclient j).2.2.2.1]
        refine (hjoining.stored j partnerCode hrequests).imp_right ?_
        rintro ⟨thread, hthread, hstoring⟩
        exact ⟨thread, (hclient j).2.2.2.2 thread hthread, hstoring⟩
      · refine (settling_settle hestablished hjoining.settling houtbox).congr
          (fun _ _ hstored => hstored) fun code value => or_congr_left ?_
        refine exists_congr ?_
        intro j
        rw [Client.requests, Client.requests, (hclient j).1, (hclient j).2.1]

/-! ## The end of the runs -/

/-- Where no step is possible, nothing runs and nothing is in flight. -/
theorem Joining.quiet {start state : System ι} (hjoining : start.Joining state)
    (hend : ∀ event next, Connects event → state.step event ≠ some next) (i : ι) :
    (state.client i).outbox = [] ∧
      ∀ thread ∈ (state.client i).threads, thread.isOperation = false := by
  constructor
  · cases houtbox : (state.client i).outbox with
    | nil => rfl
    | cons pending rest =>
        refine absurd ?_ (hend (.settle i true)
          ((state.commit i pending.write).settled i pending rest) rfl)
        simp [System.step, System.settle, houtbox]
  · intro thread hthread
    by_contra hoperation
    obtain ⟨next, hnext⟩ : ∃ next, state.step (.act i (.advance thread querying)) = some next := by
      simp [System.step, hjoining.trap i, Client.act, hthread]
    exact hend (.act i (.advance thread querying)) next ⟨by simpa using hoperation, rfl⟩ hnext

omit [DecidableEq ι] in
theorem Requesting.mem_codes {start : System ι} (hstart : start.Requesting) {first second : String}
    (hrequested : start.Requested first second) : first ∈ start.users.codes := by
  obtain ⟨i, ⟨rfl, -⟩ | ⟨-, hrequests⟩⟩ := hrequested
  · exact (hstart.own i).2
  · exact (hstart.partner hrequests).1

/-- Where no step is possible, the collection is the one that the requests lead
to. -/
theorem Joining.joined {start state : System ι} (hstart : start.Requesting)
    (hjoining : start.Joining state)
    (hend : ∀ event next, Connects event → state.step event ≠ some next) :
    start.Joined state.users := by
  -- nothing is outstanding any more, so what was requested has been stored
  have hnone : ∀ code partnerCode, ¬ ((∃ i, (code, partnerCode) ∈ (state.client i).requests) ∨
      state.Outstanding code partnerCode) := by
    rintro code partnerCode (⟨i, hwrite⟩ | ⟨i, hwrite⟩)
    · obtain ⟨houtbox, hthreads⟩ := hjoining.quiet hend i
      obtain ⟨thread, hthread, hwrite⟩ := List.mem_flatMap.mp hwrite
      have hoperation : thread.isOperation = false := by
        refine hthreads thread ?_
        simpa [Client.running, houtbox] using hthread
      cases thread <;> simp [Thread.requests, Thread.isOperation] at hwrite hoperation
    · rw [Client.writes_eq_nil (hjoining.quiet hend i).1 (hjoining.quiet hend i).2] at hwrite
      simp at hwrite
  have haccepted (document : UserDocument) (hmem : document ∈ state.users) :
      start.Accepts document.code document.partnerCode :=
    hjoining.settling.accepted hnone ⟨document, hmem, rfl, rfl⟩
  have hstores {first second : String} (hrequested : start.Requested first second) :
      state.users.Stores first second := by
    have hfirst := hstart.mem_codes hrequested
    rw [← hjoining.codes_eq] at hfirst
    obtain ⟨document, hmem, rfl⟩ := List.mem_map.mp hfirst
    rcases haccepted document hmem with hvalue | ⟨hunrequested, -⟩
    · exact ⟨document, hmem, rfl, hstart.compatible _ _ _ hvalue hrequested⟩
    · exact absurd hrequested (hunrequested second)
  refine ⟨hjoining.index, fun first second hrequested =>
    ⟨hstores hrequested, hstores hrequested.symm⟩, fun document hmem hunrequested => ?_⟩
  have hindex := Users.mem_index_of_mem hmem
  rw [← hjoining.index] at hindex
  obtain ⟨other, hother, hdocumentID, hcode⟩ := Users.mem_index.mp hindex
  rcases haccepted other hother with hvalue | ⟨-, original, horiginal, heq, hvalue⟩
  · exact absurd hvalue (hcode ▸ hunrequested other.partnerCode)
  · obtain rfl := hstart.users.eq_of_code horiginal hmem (heq.trans hcode)
    have heq : other = original := by
      cases other
      cases original
      simp_all
    exact heq ▸ hother

omit [DecidableEq ι] in
/-- The requests lead to one collection. -/
theorem Joined.unique {start : System ι} (hstart : start.Requesting) {users users' : Users}
    (hjoined : start.Joined users) (hjoined' : start.Joined users') : users = users' := by
  have hindex : users.index = users'.index := hjoined.index.trans hjoined'.index.symm
  have hwf := hstart.users.congr hjoined.index
  have hwf' := hstart.users.congr hjoined'.index
  refine Users.eq_of_index hindex ?_
  intro document hmem document' hmem' hcode
  by_cases hrequested : ∃ other, start.Requested document.code other
  · obtain ⟨other, hrequested⟩ := hrequested
    obtain ⟨first, hfirst, hfirstCode, rfl⟩ := (hjoined.pairs _ _ hrequested).1
    obtain ⟨second, hsecond, hsecondCode, hvalue⟩ := (hjoined'.pairs _ _ hrequested).1
    rw [hwf.eq_of_code hmem hfirst hfirstCode.symm, ← hvalue,
      hwf'.eq_of_code hmem' hsecond (hcode.symm.trans hsecondCode.symm)]
  · have horiginal := Users.mem_index_of_mem hmem
    rw [hjoined.index] at horiginal
    obtain ⟨original, horiginal, -, heq⟩ := Users.mem_index.mp horiginal
    have hunrequested : ∀ other, ¬ start.Requested original.code other := by
      rw [heq]
      exact not_exists.mp hrequested
    rw [hwf.eq_of_code hmem (hjoined.others original horiginal hunrequested) heq.symm,
      hwf'.eq_of_code hmem' (hjoined'.others original horiginal hunrequested)
        (hcode.symm.trans heq.symm)]

/-- A run of the calls leads to this state, and no step is possible there. -/
def EndsIn (start state : System ι) : Prop :=
  Reaches System.step (fun _ event => Connects event) start state ∧
    ∀ event next, Connects event → state.step event ≠ some next

/-- Every run of compatible requests ends.  Where it ends, the two documents of each
requested pair hold each other's code, all else in the collection is unchanged, and
each requester has stored its counterpart's code; and all runs end in the same
collection. -/
theorem requests_confluent [Fintype ι] {start : System ι} (hstart : start.Requesting) :
    (∃ bound, ∀ n state,
      ReachesIn System.step (fun _ event => Connects event) start n state → n ≤ bound) ∧
    (∀ state, start.EndsIn state → start.Joined state.users ∧
      ∀ i partnerCode, start.Requests i partnerCode →
        (state.client i).partnerCode = some partnerCode) ∧
    ∀ state state', start.EndsIn state → start.EndsIn state' → state.users = state'.users := by
  have hinvariant (state : System ι) (hend : start.EndsIn state) : start.Joining state :=
    hend.1.invariant hstart.joining fun _ _ _ hjoining hconnects hstep =>
      (hjoining.step hstart hconnects hstep).1
  have hjoined (state : System ι) (hend : start.EndsIn state) : start.Joined state.users :=
    (hinvariant state hend).joined hstart hend.2
  refine ⟨⟨start.weight, ?_⟩, ?_, ?_⟩
  · intro n state hrun
    have hlength := hrun.length_add_le (P := start.Joining) hstart.joining
      fun _ _ _ hjoining hconnects hstep => hjoining.step hstart hconnects hstep
    omega
  · intro state hend
    refine ⟨hjoined state hend, ?_⟩
    intro i partnerCode hrequests
    have hjoining := hinvariant state hend
    -- a thread that is still to store the code would still be running
    refine (hjoining.stored i partnerCode hrequests).resolve_right ?_
    rintro ⟨thread, hthread, hstoring⟩
    have hoperation := (hjoining.quiet hend.2 i).2 thread hthread
    cases thread <;> simp [Thread.storing, Thread.isOperation] at hstoring hoperation
  · intro state state' hend hend'
    exact (hjoined state hend).unique hstart (hjoined state' hend')

/-- Two users who enter each other's code, the first of them twice, beside a third
who does nothing. -/
def couple : System Bool where
  users := [⟨"a", "AAAAAAAAAA", ""⟩, ⟨"b", "BBBBBBBBBB", " "⟩, ⟨"c", "CCCCCCCCCC", "DDDDDDDDDD"⟩]
  client i :=
    if i then
      { code := some "AAAAAAAAAA"
        threads :=
          [.connectWithPartner .main "BBBBBBBBBB", .connectWithPartner .settings "BBBBBBBBBB"] }
    else
      { code := some "BBBBBBBBBB", threads := [.connectWithPartner .main "AAAAAAAAAA"] }

theorem couple_requesting : couple.Requesting := by
  have hrequests (i : Bool) (partnerCode : String) (hrequests : couple.Requests i partnerCode) :
      partnerCode = if i then "BBBBBBBBBB" else "AAAAAAAAAA" := by
    obtain ⟨origin, hmem⟩ := hrequests
    cases i with
    | false =>
        have horigin : origin = .main ∧ partnerCode = "AAAAAAAAAA" := by simpa [couple] using hmem
        exact horigin.2
    | true =>
        have horigin : origin = .main ∧ partnerCode = "BBBBBBBBBB" ∨
            origin = .settings ∧ partnerCode = "BBBBBBBBBB" := by
          simpa [couple] using hmem
        exact horigin.elim And.right And.right
  have hown (i : Bool) : (couple.client i).ownCode = if i then "AAAAAAAAAA" else "BBBBBBBBBB" := by
    cases i <;> rfl
  have hpair {first second : String} (hrequested : couple.Requested first second) :
      second = if first = "AAAAAAAAAA" then "BBBBBBBBBB" else "AAAAAAAAAA" := by
    obtain ⟨i, ⟨rfl, hsecond⟩ | ⟨rfl, hfirst⟩⟩ := hrequested
    · rw [hrequests i second hsecond, hown]
      cases i <;> rfl
    · rw [hrequests i first hfirst, hown]
      cases i <;> rfl
  refine ⟨⟨by decide, by decide, by decide⟩, ?_, ?_, ?_, ?_, ?_⟩
  · intro i
    cases i
    · exact ⟨"BBBBBBBBBB", by decide, rfl⟩
    · exact ⟨"AAAAAAAAAA", by decide, rfl⟩
  · intro i thread hthread
    cases i
    · exact ⟨.main, "AAAAAAAAAA", by decide, by decide, by simpa [couple] using hthread⟩
    · rcases List.mem_cons.mp hthread with rfl | hthread
      · exact ⟨.main, "BBBBBBBBBB", by decide, by decide, rfl⟩
      · exact ⟨.settings, "BBBBBBBBBB", by decide, by decide, List.mem_singleton.mp hthread⟩
  · intro i
    cases i <;> rfl
  · intro i
    cases i <;> rfl
  · intro first second third hsecond hthird
    rw [hpair hsecond, hpair hthird]

theorem couple_confluent :
    (∃ bound, ∀ n state,
      ReachesIn System.step (fun _ event => Connects event) couple n state → n ≤ bound) ∧
    (∀ state, couple.EndsIn state → couple.Joined state.users ∧
      ∀ i partnerCode, couple.Requests i partnerCode →
        (state.client i).partnerCode = some partnerCode) ∧
    ∀ state state', couple.EndsIn state → couple.EndsIn state' → state.users = state'.users :=
  requests_confluent couple_requesting

end System

end Pompom
