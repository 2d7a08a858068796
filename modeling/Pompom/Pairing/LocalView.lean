import Pompom.Lib.Run
import Pompom.Pairing.LocalDocument

/-!
# A client's view of its own pairing

UserDefaults `partner_code` and `isConnectedPartner` are written from three places:
the listener on the own document, the end of `connectWithPartner`, and the part of
`deletePartnerCode` that does not wait for its Task.  The last two write what the
own document is going to hold, and a write of theirs that comes late replaces what
the listener has delivered since.

The view agrees with the server once nothing is under way, provided that no such
write is late (`Timely`): when it happens, a snapshot of the own document is yet to
be handled, or a thread of the client is still going to change the document, or the
client already sees the same value in it.  In each state of such a run a snapshot is
yet to come (`Awaits`) or the view is that of the document as the client sees it
(`Views`).  Values that are on their way from the server do not help: the last of them
may be the one that the client has already, and then no snapshot follows.
-/

namespace Pompom

open Lib

/-- The value that a thread is still going to write to the own document. -/
def Thread.ownValue : Thread → Option String
  | .getOwnId _ partnerCode | .getPartnerId _ partnerCode _ _
  | .updateOwn _ partnerCode _ _ _ => some partnerCode
  | .deletePartnerCode _ | .updatePartnerCodeBy _ _ => some " "
  | _ => none

/-- Whether a step of a thread sets UserDefaults `partner_code` or
`isConnectedPartner`. -/
def Thread.setsView : Thread → Bool
  | .setPartnerCode _ _ | .didConnectedPartner .main | .removePartnerCode
  | .didDeletePartnerCode => true
  | _ => false

namespace Client

variable {users : Users} {client : Client} {cache : List CachedDocument}
  {outbox : List Pending} {documentID value : String}

/-! ### What is yet to come -/

/-- The values that the threads of this client are still going to write to its own
document. -/
def ownWrites (client : Client) : List String :=
  client.running.filterMap Thread.ownValue

theorem mem_ownWrites :
    value ∈ client.ownWrites ↔ ∃ thread ∈ client.running, thread.ownValue = some value :=
  List.mem_filterMap

theorem mem_ownWrites_spawn {thread : Thread} :
    value ∈ (client.spawn thread).ownWrites ↔
      value ∈ client.ownWrites ∨ thread.ownValue = some value := by
  rw [mem_ownWrites, mem_ownWrites, exists_running_spawn]

theorem mem_ownWrites_issue {write : Write} {resume : Option Thread} :
    value ∈ (client.issue write resume).ownWrites ↔
      value ∈ client.ownWrites ∨ ∃ thread ∈ resume, thread.ownValue = some value := by
  simp only [mem_ownWrites, mem_running_issue, or_and_right, exists_or]
  exact or_comm

theorem mem_ownWrites_dequeue {thread : Thread} (hmem : thread ∈ client.threads) :
    value ∈ client.ownWrites ↔
      value ∈ (client.dequeue thread).ownWrites ∨ thread.ownValue = some value := by
  rw [mem_ownWrites, mem_ownWrites, exists_running_dequeue hmem]

/-- A snapshot of the own document is yet to be handled, or a thread is still going to
change the document. -/
def Awaits (documentID : String) (client : Client) : Prop :=
  (∃ listener ∈ client.listeners, listener.undelivered ≠ []) ∨
    ∃ value ∈ client.ownWrites, localCode client.cache client.outbox documentID ≠ some value

instance (documentID : String) (client : Client) : Decidable (client.Awaits documentID) :=
  inferInstanceAs (Decidable (_ ∨ _))

/-- UserDefaults holds the partner's code of a document with this value, and
`isConnectedPartner` says whether there is one. -/
def Shows (client : Client) (value : String) : Prop :=
  client.getPartnerCode = CodeManager.partnerCodeFromServer value ∧
    (client.isConnectedPartner = true ↔ CodeManager.partnerCodeFromServer value ≠ "")

instance (client : Client) (value : String) : Decidable (client.Shows value) :=
  inferInstanceAs (Decidable (_ ∧ _))

/-- The listeners are on the own document, and the last of their snapshots is the
document as the client sees it. -/
structure Tracks (documentID value : String) (client : Client) : Prop where
  active : client.listeners ≠ []
  document : ∀ listener ∈ client.listeners, listener.documentID = documentID
  undelivered : ∀ listener ∈ client.listeners, listener.undelivered ≠ [] →
    listener.undelivered.getLast? = localCode client.cache client.outbox documentID
  follows : Follows client.cache documentID value

/-- A change of the store leaves what the client sees of the document, or tells the
listeners. -/
theorem Tracks.setStore_cases (htracks : client.Tracks documentID value) {seen : String}
    (hseen : localCode cache outbox documentID = some seen) :
    localCode cache outbox documentID = localCode client.cache client.outbox documentID ∧
        (client.setStore cache outbox).listeners = client.listeners ∨
      ∀ listener ∈ (client.setStore cache outbox).listeners,
        listener.undelivered.getLast? = some seen := by
  by_cases hsame : localCode cache outbox documentID =
      localCode client.cache client.outbox documentID
  · refine .inl ⟨hsame, (List.map_congr_left fun listener hlistener => ?_).trans (List.map_id _)⟩
    rw [htracks.document listener hlistener]
    exact if_pos hsame
  · refine .inr fun listener hlistener => ?_
    obtain ⟨original, horiginal, rfl⟩ := List.mem_map.mp hlistener
    rw [htracks.document original horiginal, UserListener.raise, if_neg hsame, hseen]
    exact List.getLast?_concat

theorem Tracks.setStore (htracks : client.Tracks documentID value) {after : String}
    (hfollows : Follows cache documentID after) (outbox : List Pending) :
    (client.setStore cache outbox).Tracks documentID after := by
  obtain ⟨seen, hseen⟩ := hfollows.localCode outbox
  refine ⟨fun hnil => htracks.active (List.map_eq_nil_iff.mp hnil), ?_, ?_, hfollows⟩
  · intro listener hlistener
    obtain ⟨original, horiginal, heq⟩ := exists_listener_setStore hlistener
    exact heq.symm.trans (htracks.document original horiginal)
  · intro listener hlistener hne
    rcases htracks.setStore_cases hseen with ⟨hsame, hlisteners⟩ | htold
    · rw [hlisteners] at hlistener
      exact (htracks.undelivered listener hlistener hne).trans hsame.symm
    · exact (htold listener hlistener).trans hseen.symm

/-! ### Steps that leave the view -/

/-- A step that leaves the view alone.  It loses no value that is to be written, unless it
writes it or ends the process, and it tells the listeners if it changes the document;
`taken` is the value that the thread making the step was going to write. -/
structure Keeps (documentID value : String) (taken : Option String) (client next : Client) :
    Prop where
  partnerCode : next.partnerCode = client.partnerCode
  isConnectedPartner : next.isConnectedPartner = client.isConnectedPartner
  tracks : next.Tracks documentID value
  ownWrites : next.trap = none → ∀ own, own ∈ client.ownWrites ∨ taken = some own →
    own ∈ next.ownWrites ∨ localCode next.cache next.outbox documentID = some own
  told : localCode next.cache next.outbox documentID =
        localCode client.cache client.outbox documentID ∧ client.listeners ⊆ next.listeners ∨
      ∃ listener ∈ next.listeners, listener.undelivered ≠ []

theorem keeps_self (htracks : client.Tracks documentID value) :
    Keeps documentID value none client client :=
  ⟨rfl, rfl, htracks, fun _ _ hown => .inl (hown.resolve_right (by simp)),
    .inl ⟨rfl, List.Subset.refl _⟩⟩

theorem keeps_halt (htracks : client.Tracks documentID value) (taken : Option String)
    (trap : Trap) : Keeps documentID value taken client (client.halt trap) :=
  ⟨rfl, rfl, ⟨htracks.active, htracks.document, htracks.undelivered, htracks.follows⟩, by simp,
    .inl ⟨rfl, List.Subset.refl _⟩⟩

theorem keeps_spawn (htracks : client.Tracks documentID value) {taken : Option String}
    {thread : Thread} (hthread : ∀ own, taken = some own → thread.ownValue = some own) :
    Keeps documentID value taken client (client.spawn thread) := by
  refine ⟨rfl, rfl, ⟨htracks.active, htracks.document, htracks.undelivered, htracks.follows⟩, ?_,
    .inl ⟨rfl, List.Subset.refl _⟩⟩
  intro _ own hown
  exact .inl (mem_ownWrites_spawn.mpr (hown.imp_right (hthread own)))

/-- A thread that only starts is no matter. -/
theorem Keeps.spawn {taken : Option String} {next : Client}
    (hkeeps : Keeps documentID value taken client next) (thread : Thread) :
    Keeps documentID value taken client (next.spawn thread) := by
  obtain ⟨hpartnerCode, hconnected, htracks, hownWrites, htold⟩ := hkeeps
  refine ⟨hpartnerCode, hconnected,
    ⟨htracks.active, htracks.document, htracks.undelivered, htracks.follows⟩, ?_, htold⟩
  intro htrap own hown
  exact (hownWrites htrap own hown).imp_left fun hmem => mem_ownWrites_spawn.mpr (.inl hmem)

/-- A write that is issued tells the listeners at once. -/
theorem keeps_issue (htracks : client.Tracks documentID value) {taken : Option String}
    {write : Write} {resume : Option Thread}
    (htaken : ∀ own, taken = some own →
      (∃ thread ∈ resume, thread.ownValue = some own) ∨
        write.documentID = documentID ∧ write.partnerCode = own) :
    Keeps documentID value taken client (client.issue write resume) := by
  obtain ⟨before, hbefore⟩ := htracks.follows.localCode client.outbox
  have hafter : localCode client.cache (client.outbox ++ [⟨write, resume⟩]) documentID =
      some (if write.documentID = documentID then write.partnerCode else before) := by
    rw [localCode_concat, hbefore, overlay_some]
  refine ⟨rfl, rfl, htracks.setStore htracks.follows _, fun _ own hown => ?_, ?_⟩
  · rcases hown with hown | hown
    · exact .inl (mem_ownWrites_issue.mpr (.inl hown))
    · rcases htaken own hown with hresume | ⟨hdocumentID, rfl⟩
      · exact .inl (mem_ownWrites_issue.mpr (.inr hresume))
      · exact .inr (hafter.trans (by rw [if_pos hdocumentID]))
  · rcases htracks.setStore_cases hafter with ⟨hsame, hlisteners⟩ | htold
    · exact .inl ⟨hsame, hlisteners ▸ List.Subset.refl _⟩
    · obtain ⟨listener, hlistener⟩ :=
        List.exists_mem_of_ne_nil _ (htracks.setStore htracks.follows _).active
      refine .inr ⟨listener, hlistener, fun hnil => ?_⟩
      simpa [hnil] using htold listener hlistener

theorem keeps_addSnapshotListener (htracks : client.Tracks documentID value) (users : Users) :
    Keeps documentID value none client (client.addSnapshotListener users documentID) := by
  obtain ⟨seen, hseen⟩ := htracks.follows.localCode client.outbox
  have hcaching : caching users client.cache documentID = client.cache :=
    if_pos htracks.follows.cached
  have hlisteners : client.addSnapshotListener users documentID =
      { client with listeners := client.listeners ++ [⟨documentID, [seen]⟩] } := by
    simp [addSnapshotListener, hcaching, hseen]
  rw [hlisteners]
  refine ⟨rfl, rfl, ⟨by simp, ?_, ?_, htracks.follows⟩,
    fun _ own hown => .inl (hown.resolve_right (by simp)),
    .inl ⟨rfl, List.subset_append_left _ _⟩⟩
  · intro listener hlistener
    rcases List.mem_append.mp hlistener with hlistener | hlistener
    · exact htracks.document listener hlistener
    · obtain rfl := List.mem_singleton.mp hlistener
      rfl
  · intro listener hlistener hne
    rcases List.mem_append.mp hlistener with hlistener | hlistener
    · exact htracks.undelivered listener hlistener hne
    · obtain rfl := List.mem_singleton.mp hlistener
      exact hseen.symm

/-- The step of a thread that does not set the view keeps it. -/
theorem keeps_advance (hwf : users.WellFormed) (htracks : client.Tracks documentID value)
    (hmem : (documentID, client.ownCode) ∈ users.index) {choice : Choice} {thread : Thread}
    (hcode : client.code = some client.ownCode) (hunsaved : client.unsaved = [])
    (hthread : thread.Resolved users.index client.ownCode) (hsucceeds : choice.succeeds = true)
    (hview : thread.setsView = false) {next : Client}
    (hadvances : Advances users choice client thread next) :
    Keeps documentID value thread.ownValue client next := by
  have hself := keeps_self htracks
  have hgetCode := getCode_of_some hcode choice.newCode
  -- a lookup that succeeds with the own code finds the own document
  have hfinds {target : String} (hfound : ConnectionManager.getIdByCode
      (client.query users choice.succeeds client.ownCode) = .ok target) : target = documentID := by
    rw [hsucceeds] at hfound
    exact hwf.documentID_eq hmem (mem_index_of_getIdByCode hunsaved hfound)
  cases hadvances with
  | saveCode code => exact keeps_issue htracks (by simp [Thread.ownValue])
  | getPartnerCodeFromServer hfound =>
      rw [hgetCode] at hfound ⊢
      obtain rfl := hfinds hfound
      exact keeps_addSnapshotListener htracks users
  | connectPartner | connectWithPartner =>
      rw [hgetCode]
      exact hself.spawn _
  | callMySelf =>
      rw [hgetCode]
      exact hself
  | isExistingCode => exact hself.spawn _
  | getOwnId | deleteOwn =>
      rw [hgetCode]
      exact keeps_spawn htracks fun _ hown => hown
  | getPartnerId | deletePartner => exact keeps_spawn htracks fun _ hown => hown
  | updateOwn =>
      refine Keeps.spawn (keeps_issue htracks fun own hown => ?_) _
      exact .inr ⟨hwf.documentID_eq hmem hthread.2.1, Option.some.inj hown⟩
  | updatePartner => exact (keeps_issue htracks (by simp [Thread.ownValue])).spawn _
  | @updatePartnerCodeBy side code target hfound =>
      refine keeps_issue htracks fun own hown => ?_
      cases side with
      | partner => exact .inl ⟨.deletePartnerCode .own, rfl, hown⟩
      | own =>
          obtain rfl : code = client.ownCode := hthread
          exact .inr ⟨hfinds hfound, Option.some.inj hown⟩
  | invalidPartnerCode | didConnectedPartnerInSettings | requestPartnerClothes => exact hself
  | emptyClothesCode => exact keeps_halt htracks _ _
  | halt hbefore =>
      rw [hgetCode, or_self] at hbefore
      subst hbefore
      exact keeps_halt htracks _ _
  | setPartnerCode | didConnectedPartner | removePartnerCode | didDeletePartnerCode =>
      simp [Thread.setsView] at hview

/-! ### The view -/

/-- The invariant of the runs, for one client: a snapshot is yet to come, or the view is
that of the document as the client sees it. -/
structure Views (documentID value : String) (client : Client) : Prop
    extends Tracks documentID value client where
  view : client.trap = none → client.Awaits documentID ∨
    ∃ seen, localCode client.cache client.outbox documentID = some seen ∧ client.Shows seen

variable {next : Client}

theorem Views.keep (hviews : client.Views documentID value) (htrap : client.trap = none)
    (hkeeps : Keeps documentID value none client next) : next.Views documentID value := by
  refine ⟨hkeeps.tracks, fun hnext => ?_⟩
  rcases hkeeps.told with ⟨hsame, hlisteners⟩ | htold
  · rcases hviews.view htrap with (⟨listener, hlistener, hne⟩ | ⟨own, hown, hne⟩) | hshows
    · exact .inl (.inl ⟨listener, hlisteners hlistener, hne⟩)
    · rw [← hsame] at hne
      exact .inl (.inr ⟨own, (hkeeps.ownWrites hnext own (.inl hown)).resolve_right hne, hne⟩)
    · refine .inr ?_
      simp only [Shows, getPartnerCode] at hshows ⊢
      rw [hsame, hkeeps.partnerCode, hkeeps.isConnectedPartner]
      exact hshows
  · exact .inl (.inl htold)

/-- A step that sets the view, and loses no value that is to be written. -/
theorem Views.setView (hviews : client.Views documentID value)
    (hcache : next.cache = client.cache) (houtbox : next.outbox = client.outbox)
    (hlisteners : next.listeners = client.listeners)
    (hownWrites : ∀ own ∈ client.ownWrites, own ∈ next.ownWrites)
    (hview : client.Awaits documentID ∨
      ∃ seen, localCode client.cache client.outbox documentID = some seen ∧ next.Shows seen) :
    next.Views documentID value := by
  constructor
  · constructor
    · exact hlisteners ▸ hviews.active
    · exact hlisteners ▸ hviews.document
    · rw [hcache, houtbox, hlisteners]
      exact hviews.undelivered
    · exact hcache ▸ hviews.follows
  · intro _
    rw [Awaits, hcache, houtbox, hlisteners]
    refine hview.imp_left (Or.imp_right ?_)
    rintro ⟨own, hown, hne⟩
    exact ⟨own, hownWrites own hown, hne⟩

/-- The cache changes, and the client sees the same of its document. -/
theorem Views.refresh (hviews : client.Views documentID value) {after : String}
    {cache : List CachedDocument} {outbox : List Pending}
    (hfollows : Follows cache documentID after)
    (hlocal : localCode cache outbox documentID =
      localCode client.cache client.outbox documentID)
    (hpartnerCode : next.partnerCode = client.partnerCode)
    (hconnected : next.isConnectedPartner = client.isConnectedPartner)
    (hrunning : next.running = client.running) (htrap : next.trap = client.trap)
    (hcache : next.cache = cache) (houtbox : next.outbox = outbox)
    (hlisteners : next.listeners = client.listeners) : next.Views documentID after := by
  have hsame : localCode next.cache next.outbox documentID =
      localCode client.cache client.outbox documentID := by rw [hcache, houtbox, hlocal]
  constructor
  · constructor
    · exact hlisteners ▸ hviews.active
    · exact hlisteners ▸ hviews.document
    · rw [hsame, hlisteners]
      exact hviews.undelivered
    · exact hcache ▸ hfollows
  · intro hnext
    have hview := hviews.view (htrap ▸ hnext)
    simp only [Awaits, ownWrites, Shows, getPartnerCode] at hview ⊢
    rw [hsame, hlisteners, hrunning, hpartnerCode, hconnected]
    exact hview

theorem receive_view (data : String) :
    (client.receive data).Shows data ∧
      (client.receive data).listeners = client.listeners ∧
      (client.receive data).cache = client.cache ∧
      (client.receive data).outbox = client.outbox := by
  unfold receive
  split
  · rename_i hempty
    exact ⟨⟨rfl, by simp [hempty]⟩, rfl, rfl, rfl⟩
  · rename_i hne
    exact ⟨⟨rfl, by simp [hne]⟩, rfl, rfl, rfl⟩

/-- A snapshot is handled: if it is the last of its listener, the view is that of the
document. -/
theorem Views.deliver (hviews : client.Views documentID value) {index : ℕ}
    (hact : client.act users (.deliver index) = some next) : next.Views documentID value := by
  cases transition_of_act hact with
  | @deliver _ listener data rest hlistener hundelivered =>
      obtain ⟨hshows, hlisteners, hcache, houtbox⟩ := @receive_view
        { client with listeners := client.listeners.set index ⟨listener.documentID, rest⟩ } data
      have hmem := List.mem_of_getElem? hlistener
      have hrest : ⟨listener.documentID, rest⟩ ∈
          client.listeners.set index ⟨listener.documentID, rest⟩ :=
        List.mem_set (List.getElem?_eq_some_iff.mp hlistener).1 _
      have hlast := hviews.undelivered listener hmem (by simp [hundelivered])
      rw [hundelivered] at hlast
      constructor
      · constructor
        · rw [hlisteners]
          exact List.ne_nil_of_mem hrest
        · rw [hlisteners]
          intro other hother
          rcases List.mem_or_eq_of_mem_set hother with hother | rfl
          · exact hviews.document other hother
          · exact hviews.document listener hmem
        · rw [hlisteners, hcache, houtbox]
          intro other hother hne
          rcases List.mem_or_eq_of_mem_set hother with hother | rfl
          · exact hviews.undelivered other hother hne
          · exact (List.getLast?_cons_of_ne_nil hne).symm.trans hlast
        · rw [hcache]
          exact hviews.follows
      · intro _
        rw [Awaits, hlisteners, hcache, houtbox]
        cases rest with
        | nil => exact .inr ⟨data, hlast.symm, hshows⟩
        | cons later rest => exact .inl (.inl ⟨_, hrest, List.cons_ne_nil later rest⟩)

/-- A value from the server arrives. -/
theorem Views.watch (hviews : client.Views documentID value) {index skipped : ℕ}
    (htrap : client.trap = none)
    (hact : client.act users (.watch index skipped) = some next) :
    next.Views documentID value := by
  cases transition_of_act hact with
  | @watch _ _ document partnerCode incoming hdocument hdrop =>
      have hfollows := hviews.follows.watch hdocument hdrop
      have htracks := hviews.toTracks.setStore hfollows client.outbox
      obtain ⟨seen, hseen⟩ := hfollows.localCode client.outbox
      refine hviews.keep htrap ⟨rfl, rfl, htracks, ?_, ?_⟩
      · exact fun _ own hown => .inl (hown.resolve_right (by simp))
      · rcases hviews.toTracks.setStore_cases hseen with ⟨hsame, hlisteners⟩ | htold
        · exact .inl ⟨hsame, hlisteners ▸ List.Subset.refl _⟩
        · obtain ⟨listener, hlistener⟩ := List.exists_mem_of_ne_nil _ htracks.active
          refine .inr ⟨listener, hlistener, fun hnil => ?_⟩
          simpa [hnil] using htold listener hlistener

/-- A write of the client itself is settled, and the cache has it instead. -/
theorem Views.settled (hviews : client.Views documentID value) {pending : Pending}
    {rest : List Pending} (houtbox : client.outbox = pending :: rest) {after : String}
    (hfollows : Follows cache documentID after)
    (hcached : cachedCode cache documentID =
      pending.write.overlay documentID (cachedCode client.cache documentID)) :
    ({ client with cache := cache }.settled pending rest).Views documentID after := by
  have hlocal : localCode cache rest documentID =
      localCode client.cache client.outbox documentID := by
    rw [localCode, hcached, houtbox]
    rfl
  have htwice : localCode cache (pending :: rest) documentID = localCode cache rest documentID := by
    obtain ⟨_, -, -, current, hcurrent, -⟩ := hviews.follows.cachedCode
    rw [localCode, localCode, List.foldl_cons, hcached, hcurrent, overlay_some, overlay_some]
    split <;> rfl
  refine hviews.refresh hfollows hlocal rfl rfl (running_settled houtbox) rfl rfl rfl ?_
  -- The listeners were told when the write was issued.
  refine (List.map_congr_left fun listener hlistener => if_pos ?_).trans (List.map_id _)
  rw [hviews.document listener hlistener, ← htwice, ← houtbox]

end Client

namespace System

variable {ι : Type*}

/-- The `partner_code` of the client's own document. -/
def serverCode (state : System ι) (i : ι) : String :=
  state.users.partnerCodeFor (state.client i).ownCode

/-- The ID of the client's own document. -/
def ownDocument (state : System ι) (i : ι) : String :=
  state.users.documentIDFor (state.client i).ownCode

/-- The `partner_code` of the client's own document as the client sees it. -/
def seenCode (state : System ι) (i : ι) : String :=
  (Client.localCode (state.client i).cache (state.client i).outbox (state.ownDocument i)).getD ""

/-- UserDefaults holds the partner's code of the own document, and
`isConnectedPartner` says whether there is one. -/
def Agrees (state : System ι) (i : ι) : Prop :=
  (state.client i).Shows (state.serverCode i)

/-- A snapshot of the own document is yet to be handled, or a thread of the client is
still going to change the document. -/
def Awaits (state : System ι) (i : ι) : Prop :=
  (state.client i).Awaits (state.ownDocument i)

/-- A step of the client that sets its view is not late. -/
def Timely (i : ι) (state : System ι) : Event ι → Prop
  | .act j (.advance (.setPartnerCode _ partnerCode) _) =>
      j = i → state.Awaits i ∨
        partnerCode = CodeManager.partnerCodeFromServer (state.seenCode i)
  | .act j (.advance (.didConnectedPartner .main) _) =>
      j = i → state.Awaits i ∨ CodeManager.partnerCodeFromServer (state.seenCode i) ≠ ""
  | .act j (.advance .removePartnerCode _) =>
      j = i → state.Awaits i ∨ CodeManager.partnerCodeFromServer (state.seenCode i) = ""
  | .act j (.advance .didDeletePartnerCode _) =>
      j = i → state.Awaits i ∨ CodeManager.partnerCodeFromServer (state.seenCode i) = ""
  | _ => True

/-- The listener on the own document has just been installed. -/
structure Listening (i : ι) (state : System ι) : Prop where
  established : state.Established
  document : (state.ownDocument i, (state.client i).ownCode) ∈ state.users.index
  cache : (state.client i).cache = [⟨state.ownDocument i, some (state.serverCode i), []⟩]
  listeners : (state.client i).listeners = [⟨state.ownDocument i, [state.seenCode i]⟩]

/-- Nothing runs on the client, none of its writes to its own document is in flight, and
no snapshot of the document is undelivered, neither at a listener nor on its way. -/
structure Idle (i : ι) (state : System ι) : Prop where
  running : (state.client i).running = []
  ownWrites : ∀ pending ∈ (state.client i).outbox,
    pending.write.documentID ≠ state.ownDocument i
  incoming : ∀ document ∈ (state.client i).cache, document.incoming = []
  listeners : ∀ listener ∈ (state.client i).listeners, listener.undelivered = []
  trap : (state.client i).trap = none

/-- The invariant of the runs. -/
structure Viewing (i : ι) (state : System ι) : Prop where
  established : state.Established
  document : (state.ownDocument i, (state.client i).ownCode) ∈ state.users.index
  client : (state.client i).Views (state.ownDocument i) (state.serverCode i)

theorem Listening.viewing {i : ι} {state : System ι} (hlistening : state.Listening i) :
    state.Viewing i := by
  have hfollows : Client.Follows (state.client i).cache (state.ownDocument i)
      (state.serverCode i) := by
    rw [hlistening.cache]
    exact ⟨⟨_, List.mem_singleton.mpr rfl, rfl⟩, by simp⟩
  obtain ⟨seen, hseen⟩ := hfollows.localCode (state.client i).outbox
  have hlisteners : (state.client i).listeners = [⟨state.ownDocument i, [seen]⟩] := by
    rw [hlistening.listeners, seenCode, hseen]
    rfl
  refine ⟨hlistening.established, hlistening.document, ⟨?_, ?_, ?_, hfollows⟩, fun _ => ?_⟩
  · simp [hlisteners]
  · simp [hlisteners]
  · simp [hlisteners, hseen]
  · exact .inl (.inl ⟨_, hlisteners ▸ List.mem_singleton.mpr rfl, List.cons_ne_nil _ _⟩)

/-- Where the client is idle nothing is awaited, and the client sees what the document
holds. -/
theorem Viewing.agrees {i : ι} {state : System ι} (hviewing : state.Viewing i)
    (hidle : state.Idle i) : state.Agrees i := by
  have hseen : Client.localCode (state.client i).cache (state.client i).outbox
      (state.ownDocument i) = some (state.serverCode i) := by
    rw [Client.localCode_of_forall_ne _ hidle.ownWrites]
    exact hviewing.client.follows.cachedCode_eq hidle.incoming
  rcases hviewing.client.view hidle.trap with (⟨listener, hlistener, hne⟩ | ⟨own, hown, -⟩) |
    ⟨seen, hlocal, hshows⟩
  · exact absurd (hidle.listeners listener hlistener) hne
  · simp [Client.ownWrites, hidle.running] at hown
  · obtain rfl := Option.some.inj (hlocal.symm.trans hseen)
    exact hshows

variable [DecidableEq ι]

/-- An action of the client that keeps its own view keeps the view. -/
theorem Viewing.set {i : ι} {state : System ι} (hviewing : state.Viewing i) {next : Client}
    (hclient : next.Established state.users) (hown : next.ownCode = (state.client i).ownCode)
    (hviews : next.Views (state.ownDocument i) (state.serverCode i)) :
    (state.set i next).Viewing i := by
  have hdocument : (state.set i next).ownDocument i = state.ownDocument i := by
    rw [ownDocument, ownDocument, set_client_self, set_users, hown]
  have hserver : (state.set i next).serverCode i = state.serverCode i := by
    rw [serverCode, serverCode, set_client_self, set_users, hown]
  refine ⟨hviewing.established.set hclient, ?_, ?_⟩
  · rw [hdocument, set_client_self, hown]
    exact hviewing.document
  · rw [hdocument, hserver, set_client_self]
    exact hviews

omit [DecidableEq ι] in
/-- A thread sets the view.  None of those that do carries a value to be written. -/
theorem Viewing.setView {i : ι} {state : System ι} (hviewing : state.Viewing i)
    (htrap : (state.client i).trap = none) {thread : Thread}
    (hmem : thread ∈ (state.client i).threads) (hvalue : thread.ownValue = none) {next : Client}
    (hcache : next.cache = (state.client i).cache) (houtbox : next.outbox = (state.client i).outbox)
    (hlisteners : next.listeners = (state.client i).listeners)
    (hrunning : ((state.client i).dequeue thread).running ⊆ next.running)
    (hview : state.Awaits i ∨
      ((state.client i).Shows (state.seenCode i) → next.Shows (state.seenCode i))) :
    next.Views (state.ownDocument i) (state.serverCode i) := by
  refine hviewing.client.setView hcache houtbox hlisteners (fun own hown => ?_) ?_
  · have hdequeued := ((Client.mem_ownWrites_dequeue hmem).mp hown).resolve_right (by simp [hvalue])
    obtain ⟨other, hother, hvalue⟩ := Client.mem_ownWrites.mp hdequeued
    exact Client.mem_ownWrites.mpr ⟨other, hrunning hother, hvalue⟩
  · rcases hview with hawaits | hview
    · exact .inl hawaits
    · refine (hviewing.client.view htrap).imp_right fun ⟨seen, hseen, hshows⟩ => ⟨seen, hseen, ?_⟩
      have hseenCode : state.seenCode i = seen := by
        rw [seenCode, hseen]
        rfl
      rw [hseenCode] at hview
      exact hview hshows

omit [DecidableEq ι] in
/-- A timely step of a thread of the client. -/
theorem Viewing.advance {i : ι} {state : System ι} (hviewing : state.Viewing i) {thread : Thread}
    {choice : Choice} {next : Client} (htrap : (state.client i).trap = none)
    (hsucceeds : choice.succeeds = true)
    (htimely : state.Timely i (.act i (.advance thread choice)))
    (hact : (state.client i).act state.users (.advance thread choice) = some next) :
    next.Views (state.ownDocument i) (state.serverCode i) := by
  obtain ⟨hmem, rfl⟩ := Client.advance_of_act hact
  have hestablished := hviewing.established.client i
  have hviews := hviewing.client
  have hspawn (spawned : Thread) : ((state.client i).dequeue thread).running ⊆
      (((state.client i).dequeue thread).spawn spawned).running :=
    fun _ hother => Client.mem_running_spawn.mpr (.inr hother)
  by_cases hsets : thread.setsView = false
  · have htracks : ((state.client i).dequeue thread).Tracks (state.ownDocument i)
        (state.serverCode i) :=
      ⟨hviews.active, hviews.document, hviews.undelivered, hviews.follows⟩
    have hkeeps := Client.keeps_advance hviewing.established.users htracks hviewing.document
      hestablished.code (Client.unsaved_erase hestablished.unsaved hmem)
      (hestablished.threads thread (List.mem_append_left _ hmem)) hsucceeds hsets
      (Client.advances state.users choice _ thread)
    refine hviews.keep htrap ⟨hkeeps.partnerCode, hkeeps.isConnectedPartner, hkeeps.tracks,
      fun hnext own hown => hkeeps.ownWrites hnext own ?_, hkeeps.told⟩
    exact (Client.mem_ownWrites_dequeue hmem).mp (hown.resolve_right (by simp))
  · cases thread with
    | setPartnerCode origin partnerCode =>
        refine hviewing.setView htrap hmem rfl rfl rfl rfl (hspawn _) ?_
        exact (htimely rfl).imp_right fun hvalue hshows => ⟨hvalue, hshows.2⟩
    | didConnectedPartner origin =>
        cases origin with
        | main =>
            refine hviewing.setView htrap hmem rfl rfl rfl rfl (hspawn _) ?_
            exact (htimely rfl).imp_right fun hvalue hshows =>
              ⟨hshows.1, by simp [Client.advance, hvalue]⟩
        | settings => simp [Thread.setsView] at hsets
    | removePartnerCode =>
        refine hviewing.setView htrap hmem rfl rfl rfl rfl (hspawn _) ?_
        exact (htimely rfl).imp_right fun hvalue hshows => ⟨hvalue.symm, hshows.2⟩
    | didDeletePartnerCode =>
        refine hviewing.setView htrap hmem rfl rfl rfl rfl (List.Subset.refl _) ?_
        exact (htimely rfl).imp_right fun hvalue hshows =>
          ⟨hshows.1, by simp [Client.advance, hvalue]⟩
    | _ => simp [Thread.setsView] at hsets

theorem Viewing.act {i : ι} {state : System ι} (hviewing : state.Viewing i) {action : Action}
    {next : Client} (htrap : (state.client i).trap = none) (hsucceeds : Client.Succeeds action)
    (htimely : state.Timely i (.act i action))
    (hact : (state.client i).act state.users action = some next) :
    (state.set i next).Viewing i := by
  obtain ⟨hclient, hown⟩ := (hviewing.established.client i).act hsucceeds hact
  refine hviewing.set hclient hown ?_
  have hviews := hviewing.client
  have hkeep {client : Client} (hkeeps : Client.Keeps (state.ownDocument i) (state.serverCode i)
      none (state.client i) client) : client.Views (state.ownDocument i) (state.serverCode i) :=
    hviews.keep htrap hkeeps
  cases action with
  | onAppear =>
      obtain rfl := Option.some.inj hact
      exact hkeep ((Client.keeps_self hviews.toTracks).spawn _)
  | getCode choice =>
      obtain rfl := Option.some.inj hact
      rw [Client.getCode_of_some (hviewing.established.client i).code]
      exact hkeep (Client.keeps_self hviews.toTracks)
  | enterCode origin partnerCode =>
      obtain rfl := Option.some.inj hact
      exact hkeep ((Client.keeps_self hviews.toTracks).spawn _)
  | disconnect =>
      obtain rfl := Option.some.inj hact
      exact hkeep (((Client.keeps_self hviews.toTracks).spawn _).spawn _)
  | advance thread choice => exact hviewing.advance htrap hsucceeds htimely hact
  | watch document skipped => exact hviews.watch htrap hact
  | deliver listener => exact hviews.deliver hact

/-- What the clients are told of an update, about one document: the one that has made it
has it in its cache, and to the others it is on its way. -/
theorem follows_announce (state : System ι) (i j : ι) {documentID value : String}
    (hfollows : Client.Follows (state.client i).cache documentID value)
    {target partnerCode : String} (changed : Bool)
    (hchanged : target = documentID → changed = false → value = partnerCode) :
    Client.Follows ((state.announce j target partnerCode changed).client i).cache documentID
        (if target = documentID then partnerCode else value) ∧
      Client.cachedCode ((state.announce j target partnerCode changed).client i).cache documentID =
        if i = j then (Write.updateData target partnerCode).overlay documentID
          (Client.cachedCode (state.client i).cache documentID)
        else Client.cachedCode (state.client i).cache documentID := by
  unfold announce
  dsimp only
  -- the client that has written is told of its success, the others of the change
  by_cases hij : i = j
  · rw [if_pos hij, if_pos hij]
    refine ⟨?_, hfollows.cachedCode_acknowledge target partnerCode⟩
    by_cases htarget : target = documentID
    · subst htarget
      rw [if_pos rfl]
      exact hfollows.acknowledge partnerCode
    · rw [if_neg htarget]
      exact hfollows.acknowledge_of_ne htarget partnerCode
  · rw [if_neg hij, if_neg hij]
    cases changed with
    | false =>
        refine ⟨?_, rfl⟩
        by_cases htarget : target = documentID
        · rw [if_pos htarget, ← hchanged htarget rfl]
          exact hfollows
        · rw [if_neg htarget]
          exact hfollows
    | true =>
        refine ⟨?_, Client.cachedCode_notify _ _ _ _⟩
        by_cases htarget : target = documentID
        · subst htarget
          rw [if_pos rfl, if_pos rfl]
          exact hfollows.notify partnerCode
        · rw [if_neg htarget]
          exact hfollows.notify_of_ne htarget partnerCode

/-- What an update does to the own document of a client and to its cache. -/
theorem Viewing.commit {i : ι} {state : System ι} (hviewing : state.Viewing i) (j : ι)
    (target partnerCode : String) :
    let committed := state.commit j (.updateData target partnerCode)
    Client.Follows (committed.client i).cache (state.ownDocument i)
        (committed.users.partnerCodeFor (state.client i).ownCode) ∧
      Client.cachedCode (committed.client i).cache (state.ownDocument i) =
        if i = j then (Write.updateData target partnerCode).overlay (state.ownDocument i)
          (Client.cachedCode (state.client i).cache (state.ownDocument i))
        else Client.cachedCode (state.client i).cache (state.ownDocument i) := by
  have hwf := hviewing.established.users
  have hfollows := hviewing.client.follows
  have hserver := hwf.partnerCodeOf_eq_for hviewing.document
  unfold System.commit
  dsimp only
  split
  · -- An update of a document that does not exist is of another one.
    rename_i hnone
    have hother : (Write.updateData target partnerCode).documentID ≠ state.ownDocument i := by
      rintro rfl
      simp [hserver] at hnone
    refine ⟨hfollows, ?_⟩
    rw [Client.overlay_of_ne _ hother, ite_self]
  · rename_i old hold
    have hvalue (htarget : target = state.ownDocument i) : state.serverCode i = old := by
      rw [htarget, hserver] at hold
      exact Option.some.inj hold
    split
    · rename_i heq
      obtain ⟨hafter, hcached⟩ := state.follows_announce i j hfollows false
        fun htarget _ => (hvalue htarget).trans heq
      refine ⟨?_, hcached⟩
      rw [announce_users]
      split at hafter
      · rename_i htarget
        rw [← serverCode, hvalue htarget, heq]
        exact hafter
      · exact hafter
    · obtain ⟨hafter, hcached⟩ := state.follows_announce i j hfollows true fun _ hfalse => by
        simp at hfalse
      refine ⟨?_, hcached⟩
      rw [announce_users]
      split at hafter
      · rename_i htarget
        rw [htarget, hwf.partnerCodeFor_setPartnerCode hviewing.document]
        exact htarget ▸ hafter
      · rename_i htarget
        have hnot : (target, (state.client i).ownCode) ∉ state.users.index :=
          fun hmem => htarget (hwf.documentID_eq hviewing.document hmem)
        rw [Users.partnerCodeFor_setPartnerCode_of_notMem hnot]
        exact hafter

/-- A write of some client is settled. -/
theorem Viewing.settle {i j : ι} {state : System ι} (hviewing : state.Viewing i)
    {target partnerCode : String} {resume : Option Thread} {rest : List Pending}
    (houtbox : (state.client j).outbox = ⟨.updateData target partnerCode, resume⟩ :: rest)
    (hestablished : ((state.commit j (.updateData target partnerCode)).settled j
      ⟨.updateData target partnerCode, resume⟩ rest).Established) :
    ((state.commit j (.updateData target partnerCode)).settled j
      ⟨.updateData target partnerCode, resume⟩ rest).Viewing i := by
  obtain ⟨hfollows, hcached⟩ := hviewing.commit j target partnerCode
  obtain ⟨cache, hcache⟩ := state.commit_client j (.updateData target partnerCode) i
  have hindex := state.index_commit_updateData j target partnerCode
  have hown : (((state.commit j (.updateData target partnerCode)).settled j
      ⟨.updateData target partnerCode, resume⟩ rest).client i).ownCode =
      (state.client i).ownCode :=
    forall_client_settled (P := fun i client => client.ownCode = (state.client i).ownCode)
      (state.commit_client _ _) (fun _ => rfl) (fun _ _ => rfl) i
  have hdocument : ((state.commit j (.updateData target partnerCode)).settled j
      ⟨.updateData target partnerCode, resume⟩ rest).ownDocument i = state.ownDocument i := by
    rw [ownDocument, hown]
    exact hestablished.users.documentIDFor_eq (hindex.symm ▸ hviewing.document)
  refine ⟨hestablished, ?_, ?_⟩
  · rw [hdocument, hown, settled_users, hindex]
    exact hviewing.document
  · rw [hdocument, serverCode, hown, settled_users]
    by_cases hij : i = j
    · subst hij
      rw [if_pos rfl] at hcached
      rw [settled, set_client_self, hcache]
      rw [hcache] at hfollows hcached
      exact hviewing.client.settled houtbox hfollows hcached
    · rw [if_neg hij] at hcached
      rw [settled, set_client_of_ne _ hij, hcache]
      rw [hcache] at hfollows hcached
      exact hviewing.client.refresh hfollows (Client.localCode_congr hcached _)
        rfl rfl rfl rfl rfl rfl rfl

theorem Viewing.step {i : ι} {state next : System ι} {event : Event ι}
    (hviewing : state.Viewing i) (hsucceeds : Succeeds event) (htimely : state.Timely i event)
    (hstep : state.step event = some next) : next.Viewing i := by
  have hestablished := hviewing.established.step hsucceeds hstep
  cases hviewing.established.proceeds hsucceeds hstep with
  | @act j action client htrap hact =>
      by_cases hij : i = j
      · subst hij
        exact hviewing.act htrap hsucceeds htimely hact
      · have hclient := state.set_client_of_ne hij client
        refine ⟨hestablished, ?_, ?_⟩
        · rw [ownDocument, hclient]
          exact hviewing.document
        · rw [ownDocument, serverCode, hclient]
          exact hviewing.client
  | settle houtbox => exact hviewing.settle houtbox hestablished

/-- In every run in which no step that sets the view of the client is late, in every
state in which nothing runs on the client and no snapshot is undelivered, the view
agrees with the server. -/
theorem view_agrees {i : ι} {start state : System ι} (hstart : start.Listening i)
    (hreach : Reaches System.step (fun state event => Succeeds event ∧ state.Timely i event)
      start state) (hidle : state.Idle i) : state.Agrees i := by
  have hviewing : state.Viewing i :=
    hreach.invariant hstart.viewing fun _ _ _ hviewing hallowed hstep =>
      hviewing.step hallowed.1 hallowed.2 hstep
  exact hviewing.agrees hidle

/-! ### A couple -/

omit [DecidableEq ι] in
instance : ∀ event : Event ι, Decidable (Succeeds event)
  | .act _ (.advance _ choice) => inferInstanceAs (Decidable (choice.succeeds = true))
  | .act _ .onAppear | .act _ (.getCode _) | .act _ (.enterCode _ _) | .act _ .disconnect
  | .act _ (.watch _ _) | .act _ (.deliver _) => .isTrue trivial
  | .settle _ accepted => inferInstanceAs (Decidable (accepted = true))

instance (state : System ι) (i : ι) : Decidable (state.Awaits i) :=
  inferInstanceAs (Decidable ((state.client i).Awaits _))

instance (state : System ι) (i : ι) : Decidable (state.Agrees i) :=
  inferInstanceAs (Decidable ((state.client i).Shows _))

instance (state : System ι) (i : ι) : Decidable (state.Idle i) :=
  decidable_of_iff ((state.client i).running = [] ∧
      (∀ pending ∈ (state.client i).outbox, pending.write.documentID ≠ state.ownDocument i) ∧
      (∀ document ∈ (state.client i).cache, document.incoming = []) ∧
      (∀ listener ∈ (state.client i).listeners, listener.undelivered = []) ∧
      (state.client i).trap = none)
    ⟨fun ⟨hrunning, hwrites, hincoming, hlisteners, htrap⟩ =>
      ⟨hrunning, hwrites, hincoming, hlisteners, htrap⟩,
      fun hidle => ⟨hidle.running, hidle.ownWrites, hidle.incoming, hidle.listeners, hidle.trap⟩⟩

instance (i : ι) (state : System ι) : ∀ event, Decidable (state.Timely i event)
  | .act j (.advance thread _) =>
      match thread with
      | .setPartnerCode _ partnerCode => inferInstanceAs (Decidable (j = i → state.Awaits i ∨
          partnerCode = CodeManager.partnerCodeFromServer (state.seenCode i)))
      | .didConnectedPartner .main => inferInstanceAs (Decidable (j = i → state.Awaits i ∨
          CodeManager.partnerCodeFromServer (state.seenCode i) ≠ ""))
      | .removePartnerCode | .didDeletePartnerCode =>
          inferInstanceAs (Decidable (j = i → state.Awaits i ∨
            CodeManager.partnerCodeFromServer (state.seenCode i) = ""))
      | .didConnectedPartner .settings | .saveCode _ | .connectPartner | .getPartnerCodeFromServer
      | .connectWithPartner _ _ | .isExistingCode _ _ | .getOwnId _ _ | .getPartnerId _ _ _ _
      | .updateOwn _ _ _ _ _ | .updatePartner _ _ _ _ | .deletePartnerCode _
      | .updatePartnerCodeBy _ _ | .requestPartnerClothes => .isTrue trivial
  | .act _ .onAppear | .act _ (.getCode _) | .act _ (.enterCode _ _) | .act _ .disconnect
  | .act _ (.watch _ _) | .act _ (.deliver _) | .settle _ _ => .isTrue trivial

/-- Two users without partners, whose listeners have just been installed. -/
def duo : System Bool where
  users := [⟨"a", "AAAAAAAAAA", ""⟩, ⟨"b", "BBBBBBBBBB", ""⟩]
  client i :=
    bif i then
      { code := some "BBBBBBBBBB", cache := [⟨"b", some "", []⟩], listeners := [⟨"b", [""]⟩] }
    else { code := some "AAAAAAAAAA", cache := [⟨"a", some "", []⟩], listeners := [⟨"a", [""]⟩] }

theorem duo_listening : duo.Listening false := by
  refine ⟨⟨⟨by decide, by decide, by decide⟩, fun i => ?_⟩, by decide, by decide, by decide⟩
  cases i <;> exact ⟨rfl, rfl, fun _ hthread => absurd hthread List.not_mem_nil⟩

/-- The first user connects to the second on the main screen, up to the writes, which
are settled and delivered to both. -/
def connected : List (Event Bool) :=
  .act false (.deliver 0) ::
    (connecting false querying .main "BBBBBBBBBB" "AAAAAAAAAA" "b" "a").dropLast ++
    [.settle false true, .settle false true, .act false (.deliver 0), .act true (.watch 0 0),
      .act true (.deliver 0), .act true (.deliver 0),
      .act false (.advance .requestPartnerClothes querying)]

/-- The rest of `connectWithPartner` on the first user. -/
def connectedTail : List (Event Bool) :=
  [.act false (.advance (.setPartnerCode .main "BBBBBBBBBB") querying),
    .act false (.advance (.didConnectedPartner .main) querying),
    .act false (.advance .requestPartnerClothes querying)]

/-- The second user disconnects, and the first receives the update of its document. -/
def disconnected : List (Event Bool) :=
  [.act true .disconnect, .act true (.advance (.deletePartnerCode .partner) querying),
    .act true (.advance .removePartnerCode querying),
    .act true (.advance .didDeletePartnerCode querying),
    .act true (.advance (.updatePartnerCodeBy .partner "AAAAAAAAAA") querying),
    .settle true true, .act false (.watch 0 0), .act false (.deliver 0)]

/-- The connection is completed before the partner leaves. -/
theorem duo_view_agrees :
    ∃ state, Reaches System.step (fun state event => Succeeds event ∧ state.Timely false event)
      duo state ∧ state.Idle false ∧ state.serverCode false = " " ∧ state.Agrees false := by
  obtain ⟨state, hreach, hidle, hserver⟩ : ∃ state, Reaches System.step
      (fun state event => Succeeds event ∧ state.Timely false event) duo state ∧
      state.Idle false ∧ state.serverCode false = " " :=
    exists_reaches_of_run (connected ++ connectedTail ++ disconnected) (by decide)
  exact ⟨state, hreach, hidle, hserver, view_agrees duo_listening hreach hidle⟩

/-- The partner leaves before the end of `connectWithPartner`, which then stores a
partner that is gone. -/
theorem duo_view_disagrees :
    ∃ state, duo.Listening false ∧ Reaches System.step (fun _ event => Succeeds event) duo state ∧
      state.Idle false ∧ ¬ state.Agrees false := by
  obtain ⟨state, hreach, hidle, hview⟩ : ∃ state,
      Reaches System.step (fun _ event => Succeeds event) duo state ∧
      state.Idle false ∧ ¬ state.Agrees false :=
    exists_reaches_of_run (connected ++ disconnected ++ connectedTail) (by decide)
  exact ⟨state, duo_listening, hreach, hidle, hview⟩

end System

end Pompom
