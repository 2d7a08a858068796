import Pompom.Clothes.OwnRounds
import Pompom.Pairing.Users

/-!
# The partner's figure

One client's view of its partner: the listener on the own user document that
`connectPartner` installs, the Tasks with which it calls `requestPartnerClothes`,
and the clothes listeners those register.  The registration of a clothes listener
is discarded, so a listener stays on the document of the partner it was registered
for and goes on assigning `partnerClothViewModel.selectedItems`.

A callback therefore decodes the document of a partner that the own user document
named at some time (`Recorded`), while UserDefaults holds the one it named last.
For a given sequence of deliveries of the own document, all callbacks of all runs
decode the current partner's clothes exactly when the document names one partner
only and keeps it (`figure_wears_partner_iff`).
-/

namespace Pompom

open Lib ClothesManager CodeManager

/-- What one client knows of its partner, and the clothes documents of all users. -/
structure FigureState where
  /-- UserDefaults `partner_code`. -/
  partnerCode : Option String := none
  isConnectedPartner : Bool := false
  /-- Tasks that have yet to call `requestPartnerClothes`. -/
  requests : ℕ := 0
  /-- The outfits stored under a code, oldest first. -/
  uploads : String → List Outfit := fun _ => []
  /-- The clothes listeners, with the code of the document they listen to. -/
  listeners : List (String × ClothesListener) := []
  /-- `partnerClothViewModel.selectedItems`. -/
  selectedItems : Outfit := .empty
  trap : Option Trap := none

inductive FigureEvent where
  /-- The own user document is delivered with this `partner_code`. -/
  | userDocument (data : String)
  /-- A Task runs `requestPartnerClothes`. -/
  | requestPartnerClothes
  /-- Some user uploads an outfit. -/
  | upload (userCode : String) (clothes : Outfit)
  /-- A clothes listener handles a version of its document. -/
  | deliver (listener version : ℕ)

namespace FigureState

/-- The data of a version of a clothes document, if there is such a version. -/
def version (state : FigureState) (userCode : String) : ℕ → Option (Option Document)
  | 0 => some none
  | n + 1 => (state.uploads userCode)[n]?.map fun outfit => some (parseClothes outfit)

/-- The listener of `getPartnerCodeFromServer` with the completion that
`connectPartner` passes. -/
def userDocument (state : FigureState) (data : String) : FigureState :=
  if partnerCodeFromServer data = "" then
    { state with
      partnerCode := some (partnerCodeFromServer data)
      isConnectedPartner := false }
  else
    { state with
      partnerCode := some (partnerCodeFromServer data)
      isConnectedPartner := true
      requests := state.requests + 1 }

/-- `requestPartnerClothes`; Firestore refuses the document of an empty code. -/
def requestPartnerClothes (state : FigureState) : FigureState :=
  match state.partnerCode with
  | none => state
  | some code =>
      if code = "" then { state with trap := some .emptyClothesCode }
      else
        { state with
          listeners := state.listeners ++ [(code, ⟨(state.uploads code).length, .empty⟩)] }

/-- A listener handles a version and the callback assigns `selectedItems`. -/
def deliver (state : FigureState) (index version : ℕ) (userCode : String)
    (listener : ClothesListener) (data : Option Document) : Option FigureState :=
  match loadClothesListener listener.returnValue (.document data) with
  | .ok (returnValue, passed) =>
      some { state with
        listeners := state.listeners.set index (userCode, ⟨version + 1, returnValue⟩)
        selectedItems := passed.getD state.selectedItems }
  | .error _ => none

def step (state : FigureState) (event : FigureEvent) : Option FigureState :=
  if state.trap ≠ none then none
  else
    match event with
    | .userDocument data => some (state.userDocument data)
    | .requestPartnerClothes =>
        match state.requests with
        | 0 => none
        | requests + 1 => some (requestPartnerClothes { state with requests := requests })
    | .upload userCode clothes =>
        some { state with
          uploads := Function.update state.uploads userCode (state.uploads userCode ++ [clothes]) }
    | .deliver index version =>
        match state.listeners[index]? with
        | none => none
        | some (userCode, listener) =>
            match state.version userCode version with
            | some data =>
                if listener.next ≤ version then state.deliver index version userCode listener data
                else none
            | none => none

/-- The transitions of `step`, as far as codes are concerned. -/
inductive Transition (state : FigureState) : FigureEvent → FigureState → Prop where
  | userDocument (data : String) : Transition state (.userDocument data) (state.userDocument data)
  | requestPartnerClothes {requests : ℕ} :
      Transition state .requestPartnerClothes
        (requestPartnerClothes { state with requests := requests })
  | upload (userCode : String) (clothes : Outfit) (uploads : String → List Outfit) :
      Transition state (.upload userCode clothes) { state with uploads := uploads }
  | deliver {index version : ℕ} {userCode : String} {listener : ClothesListener}
      (handled : ClothesListener) (selectedItems : Outfit) :
      state.listeners[index]? = some (userCode, listener) →
      Transition state (.deliver index version)
        { state with
          listeners := state.listeners.set index (userCode, handled)
          selectedItems := selectedItems }

theorem transition_of_step {state next : FigureState} {event : FigureEvent}
    (hstep : state.step event = some next) : Transition state event next := by
  unfold step at hstep
  split at hstep
  · simp at hstep
  · cases event with
    | userDocument data =>
        obtain rfl := Option.some.inj hstep
        exact .userDocument data
    | requestPartnerClothes =>
        dsimp only at hstep
        split at hstep
        · simp at hstep
        · obtain rfl := Option.some.inj hstep
          exact .requestPartnerClothes
    | upload userCode clothes =>
        obtain rfl := Option.some.inj hstep
        exact .upload userCode clothes _
    | deliver index version =>
        dsimp only at hstep
        split at hstep
        · simp at hstep
        · rename_i userCode listener hlistener
          split at hstep
          · split at hstep
            · unfold deliver at hstep
              split at hstep
              · obtain rfl := Option.some.inj hstep
                exact .deliver _ _ hlistener
              · simp at hstep
            · simp at hstep
          · simp at hstep

/-- The state after some events from a fresh launch, if they can happen. -/
def run (events : List FigureEvent) : Option FigureState :=
  events.foldlM step {}

theorem run_append_singleton (events : List FigureEvent) (event : FigureEvent) :
    run (events ++ [event]) = (run events).bind fun state => state.step event := by
  simp [run, List.foldlM_append]

/-! ## What the listeners listen to -/

/-- The values of `partner_code` that a run delivers. -/
def userValues (events : List FigureEvent) : List String :=
  events.filterMap fun event =>
    match event with
    | .userDocument data => some data
    | _ => none

theorem userValues_append (first second : List FigureEvent) :
    userValues (first ++ second) = userValues first ++ userValues second :=
  List.filterMap_append

/-- After a run, UserDefaults holds the value delivered last, and every clothes
listener is on the document of a partner that was delivered. -/
structure Recorded (events : List FigureEvent) (state : FigureState) : Prop where
  partnerCode : state.partnerCode = (userValues events).getLast?.map partnerCodeFromServer
  listeners : ∀ entry ∈ state.listeners, entry.1 ≠ "" ∧
    ∃ data ∈ userValues events, partnerCodeFromServer data = entry.1

@[simp] theorem userDocument_partnerCode (state : FigureState) (data : String) :
    (state.userDocument data).partnerCode = some (partnerCodeFromServer data) := by
  unfold userDocument
  split <;> rfl

@[simp] theorem userDocument_listeners (state : FigureState) (data : String) :
    (state.userDocument data).listeners = state.listeners := by
  unfold userDocument
  split <;> rfl

theorem Recorded.userDocument {events : List FigureEvent} {state : FigureState}
    (hrecorded : Recorded events state) (data : String) :
    Recorded (events ++ [.userDocument data]) (state.userDocument data) := by
  have hvalues : userValues (events ++ [.userDocument data]) = userValues events ++ [data] :=
    userValues_append _ _
  refine ⟨by simp [hvalues], ?_⟩
  intro entry hentry
  rw [userDocument_listeners] at hentry
  obtain ⟨hne, value, hvalue, hcode⟩ := hrecorded.listeners entry hentry
  exact ⟨hne, value, by simp [hvalues, hvalue], hcode⟩

theorem Recorded.requestPartnerClothes {events : List FigureEvent} {state : FigureState}
    (hrecorded : Recorded events state) :
    Recorded (events ++ [.requestPartnerClothes]) state.requestPartnerClothes := by
  have hvalues : userValues (events ++ [.requestPartnerClothes]) = userValues events := by
    simp [userValues]
  have hcodes := hrecorded.partnerCode
  have hlisteners := hrecorded.listeners
  rw [← hvalues] at hcodes hlisteners
  rw [FigureState.requestPartnerClothes]
  split
  · exact ⟨hcodes, hlisteners⟩
  · rename_i code hcode
    split
    · exact ⟨hcodes, hlisteners⟩
    · rename_i hne
      refine ⟨hcodes, ?_⟩
      intro entry hentry
      rw [hvalues]
      rcases List.mem_append.mp hentry with hentry | hentry
      · exact hrecorded.listeners entry hentry
      · -- the new listener takes its code from UserDefaults
        rw [List.mem_singleton.mp hentry]
        have hlast := hrecorded.partnerCode
        rw [hcode] at hlast
        obtain ⟨data, hdata, hvalue⟩ := Option.map_eq_some_iff.mp hlast.symm
        exact ⟨hne, data, List.mem_of_getLast? hdata, hvalue⟩

theorem Recorded.of_same {events : List FigureEvent} {state next : FigureState}
    {event : FigureEvent} (hrecorded : Recorded events state)
    (hvalues : userValues [event] = []) (hcode : next.partnerCode = state.partnerCode)
    (hlisteners : ∀ entry ∈ next.listeners, ∃ old ∈ state.listeners, entry.1 = old.1) :
    Recorded (events ++ [event]) next := by
  have hall : userValues (events ++ [event]) = userValues events := by
    rw [userValues_append, hvalues, List.append_nil]
  refine ⟨by rw [hall, hcode]; exact hrecorded.partnerCode, ?_⟩
  intro entry hentry
  obtain ⟨old, hold, hsame⟩ := hlisteners entry hentry
  rw [hall, hsame]
  exact hrecorded.listeners old hold

theorem Recorded.step {events : List FigureEvent} {state next : FigureState}
    {event : FigureEvent} (hrecorded : Recorded events state)
    (hstep : Transition state event next) : Recorded (events ++ [event]) next := by
  cases hstep with
  | userDocument data => exact hrecorded.userDocument data
  | requestPartnerClothes =>
      exact Recorded.requestPartnerClothes ⟨hrecorded.partnerCode, hrecorded.listeners⟩
  | upload => exact hrecorded.of_same rfl rfl fun entry hentry => ⟨entry, hentry, rfl⟩
  | deliver handled selectedItems hlistener =>
      refine hrecorded.of_same rfl rfl ?_
      intro entry hentry
      rcases List.mem_or_eq_of_mem_set hentry with hentry | rfl
      · exact ⟨entry, hentry, rfl⟩
      · exact ⟨_, List.mem_of_getElem? hlistener, rfl⟩

theorem recorded_of_run {events : List FigureEvent} {state : FigureState}
    (hrun : run events = some state) : Recorded events state := by
  induction events using List.reverseRecOn generalizing state with
  | nil =>
      obtain rfl := Option.some.inj hrun
      exact ⟨rfl, by simp⟩
  | append_singleton events event ih =>
      rw [run_append_singleton] at hrun
      obtain ⟨before, hbefore, hstep⟩ := Option.bind_eq_some_iff.mp hrun
      exact (ih hbefore).step (transition_of_step hstep)

/-! ## Which runs are right -/

/-- After its first partner, the own document names that partner only. -/
def OnePartner (values : List String) : Prop :=
  ∀ earlier partner rest, values = earlier ++ partner :: rest →
    partnerCodeFromServer partner ≠ "" →
      ∀ later ∈ rest, partnerCodeFromServer later = partnerCodeFromServer partner

/-- In every run that delivers the given values of the own document, in order and
possibly not all of them yet, each callback decodes the document of the partner
that UserDefaults holds when it has assigned the clothes. -/
def WearsPartner (values : List String) : Prop :=
  ∀ events state index version next, (∃ rest, values = userValues events ++ rest) →
    run events = some state → state.step (.deliver index version) = some next →
      ∀ userCode listener, state.listeners[index]? = some (userCode, listener) →
        next.partnerCode = some userCode

theorem OnePartner.getLast {values rest : List String} (hone : OnePartner (values ++ rest))
    {data last : String} (hdata : data ∈ values) (hne : partnerCodeFromServer data ≠ "")
    (hlast : values.getLast? = some last) :
    partnerCodeFromServer last = partnerCodeFromServer data := by
  obtain ⟨earlier, later, rfl⟩ := List.append_of_mem hdata
  rcases List.eq_nil_or_concat' later with rfl | ⟨between, final, rfl⟩
  · obtain rfl : data = last := by simpa using hlast
    rfl
  · have hend : earlier ++ data :: (between ++ [final]) =
        (earlier ++ data :: between) ++ [final] := by
      simp
    rw [hend, List.getLast?_concat] at hlast
    obtain rfl := Option.some.inj hlast
    exact hone earlier data (between ++ [final] ++ rest) (by simp) hne final (by simp)

/-- Deliveries of the own document only: they leave the listeners alone. -/
theorem foldlM_userDocuments (values : List String) {state : FigureState}
    (htrap : state.trap = none) :
    ∃ next, (values.map FigureEvent.userDocument).foldlM step state = some next ∧
      next.trap = none ∧ next.listeners = state.listeners ∧ next.uploads = state.uploads ∧
      state.requests ≤ next.requests := by
  induction values generalizing state with
  | nil => exact ⟨state, rfl, htrap, rfl, rfl, le_rfl⟩
  | cons data rest ih =>
      have hkept : (state.userDocument data).trap = none ∧
          (state.userDocument data).listeners = state.listeners ∧
          (state.userDocument data).uploads = state.uploads ∧
          state.requests ≤ (state.userDocument data).requests := by
        unfold userDocument
        split
        · exact ⟨htrap, rfl, rfl, le_rfl⟩
        · exact ⟨htrap, rfl, rfl, Nat.le_succ _⟩
      obtain ⟨next, hnext, htrap', hlisteners, huploads, hrequests⟩ := ih hkept.1
      refine ⟨next, ?_, htrap', hlisteners.trans hkept.2.1, huploads.trans hkept.2.2.1,
        hkept.2.2.2.trans hrequests⟩
      have hstep : state.step (.userDocument data) = some (state.userDocument data) := by
        simp [step, htrap]
      rw [List.map_cons, List.foldlM_cons, hstep]
      exact hnext

/-- The schedule that exposes a second partner: the listener for the first is
registered, the document changes, and the listener is called. -/
def exposingRun (earlier : List String) (partner : String) (between : List String)
    (later : String) : List FigureEvent :=
  (earlier ++ [partner]).map .userDocument ++ [.requestPartnerClothes] ++
    (between ++ [later]).map .userDocument

theorem exposingRun_listens (earlier : List String) {partner : String}
    (hpartner : partnerCodeFromServer partner ≠ "") (between : List String) (later : String) :
    ∃ state, run (exposingRun earlier partner between later) = some state ∧
      state.trap = none ∧ state.listeners = [(partnerCodeFromServer partner, ⟨0, .empty⟩)] := by
  obtain ⟨first, hfirst, htrap, hlisteners, huploads, _⟩ :=
    @foldlM_userDocuments earlier {} rfl
  -- the partner is delivered and one Task runs
  set registered : FigureState :=
    { first with
      partnerCode := some (partnerCodeFromServer partner)
      isConnectedPartner := true
      listeners := [(partnerCodeFromServer partner, ⟨0, .empty⟩)] } with hregistered
  have htask : ([.userDocument partner, .requestPartnerClothes] : List FigureEvent).foldlM
      step first = some registered := by
    simp [step, htrap, userDocument, hpartner, requestPartnerClothes, hregistered, hlisteners,
      huploads]
  obtain ⟨last, hlast, htrap', hlisteners', _⟩ :=
    @foldlM_userDocuments (between ++ [later]) registered htrap
  refine ⟨last, ?_, htrap', hlisteners'⟩
  have hsplit : exposingRun earlier partner between later =
      earlier.map .userDocument ++ ([.userDocument partner, .requestPartnerClothes] ++
        (between ++ [later]).map .userDocument) := by
    simp [exposingRun]
  rw [hsplit, run, List.foldlM_append, hfirst]
  change List.foldlM step first _ = _
  rw [List.foldlM_append, htask]
  exact hlast

/-- The partner's figure wears the current partner's clothes after every callback
of every run that delivers the given values if and only if the values name one
partner and keep it. -/
theorem figure_wears_partner_iff (values : List String) :
    WearsPartner values ↔ OnePartner values := by
  constructor
  · intro hwears earlier partner rest hvalues hpartner later hlater
    obtain ⟨between, after, rfl⟩ := List.append_of_mem hlater
    obtain ⟨state, hrun, htrap, hlisteners⟩ := exposingRun_listens earlier hpartner between later
    have hdelivered : userValues (exposingRun earlier partner between later) =
        earlier ++ partner :: between ++ [later] := by
      simp [exposingRun, userValues, List.filterMap_append, List.filterMap_map]
    have hstep : state.step (.deliver 0 0) = some { state with
        listeners := [(partnerCodeFromServer partner, ⟨1, .empty⟩)]
        selectedItems := .empty } := by
      simp [step, htrap, hlisteners, version, deliver]
    have hcode := hwears _ state 0 0 _ ⟨after, by simp [hvalues, hdelivered]⟩ hrun hstep
      (partnerCodeFromServer partner) ⟨0, .empty⟩ (by simp [hlisteners])
    have hlast := (recorded_of_run hrun).partnerCode
    rw [hdelivered, List.getLast?_concat] at hlast
    exact Option.some.inj (hlast.symm.trans hcode)
  · rintro hone events state index version next ⟨rest, rfl⟩ hrun hstep userCode listener hlistener
    obtain ⟨hcode, hlisteners⟩ := recorded_of_run hrun
    obtain ⟨hne, data, hdata, rfl⟩ := hlisteners _ (List.mem_of_getElem? hlistener)
    have hkept : next.partnerCode = state.partnerCode := by
      cases transition_of_step hstep with
      | deliver => rfl
    rw [hkept, hcode]
    cases hlast : (userValues events).getLast? with
    | none =>
        rw [List.getLast?_eq_none_iff.mp hlast] at hdata
        simp at hdata
    | some last => simp [hone.getLast hdata hne hlast]

/-- A client is paired with one user and then with another; the first uploads
nothing new, its listener is merely called late, and the figure is dressed from
the first user's document. -/
theorem former_partner_dresses_figure : ¬ WearsPartner ["AAAAAAAAAA", "BBBBBBBBBB"] := by
  intro hwears
  have hcode := hwears
    [.upload "AAAAAAAAAA" .empty, .userDocument "AAAAAAAAAA", .requestPartnerClothes,
      .userDocument "BBBBBBBBBB"] _ 0 1 _ ⟨[], rfl⟩ rfl rfl "AAAAAAAAAA" ⟨1, .empty⟩ rfl
  exact absurd hcode (by decide)

end FigureState

end Pompom
