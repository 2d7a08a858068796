import Pompom.Lib.Run

/-!
# The alert at the top of the screen

`showAlert` and `alertMessage` of `MainViewModel` are shared by the main screen and the
settings.  `showAlertwith` of either screen toggles the flag, and the completion of
`deletePartnerCode` sets it.  `TopAlert` of `Util/Reusable/CustomAlert.swift` shows a
banner while the flag is set, and each banner that appears schedules a timer that
resets the flag; no timer is ever cancelled.

SwiftUI brings the banner in line with the flag some time after the flag has changed
(`updateView`).  Timers are numbered in the order in which they are scheduled, and fire
in any order.  A call of `showAlertwith` raises its alert, out of the reach of all
earlier timers, exactly when no alert is up and no timer is pending
(`alert_is_seen_iff`).
-/

namespace Pompom

open Lib

/-- The part of the main screen that alerts are about. -/
structure AlertState where
  showAlert : Bool := false
  alertMessage : String := "유효하지 않은 동작입니다."
  /-- Whether the banner has appeared. -/
  banner : Bool := false
  /-- The timers that have yet to fire. -/
  timers : List ℕ := []
  /-- How many timers have been scheduled. -/
  scheduled : ℕ := 0
  deriving DecidableEq, Repr

inductive AlertEvent where
  /-- `showAlertwith` on the main screen or in the settings. -/
  | showAlertwith (message : String)
  /-- The completion of `deletePartnerCode` in the settings. -/
  | didDeletePartnerCode (message : String)
  /-- The banner appears or disappears. -/
  | updateView
  | fire (timer : ℕ)
  deriving DecidableEq, Repr

namespace AlertState

def showAlertwith (state : AlertState) (message : String) : AlertState :=
  { state with alertMessage := message, showAlert := !state.showAlert }

def didDeletePartnerCode (state : AlertState) (message : String) : AlertState :=
  { state with alertMessage := message, showAlert := true }

/-- The body of `TopAlert`, with `onAppear` of a banner that is new. -/
def updateView (state : AlertState) : AlertState :=
  if state.showAlert = true ∧ state.banner = false then
    { state with
      banner := true
      timers := state.timers ++ [state.scheduled]
      scheduled := state.scheduled + 1 }
  else { state with banner := state.showAlert }

/-- The block that `onAppear` has scheduled. -/
def fire (state : AlertState) (timer : ℕ) : AlertState :=
  { state with showAlert := false, timers := state.timers.erase timer }

def step (state : AlertState) : AlertEvent → Option AlertState
  | .showAlertwith message => some (state.showAlertwith message)
  | .didDeletePartnerCode message => some (state.didDeletePartnerCode message)
  | .updateView => some state.updateView
  | .fire timer => if timer ∈ state.timers then some (state.fire timer) else none

/-! ## Timers -/

theorem mem_timers_of_fire {state next : AlertState} {timer : ℕ}
    (hstep : state.step (.fire timer) = some next) :
    timer ∈ state.timers ∧ next = state.fire timer := by
  rw [step] at hstep
  split at hstep
  · exact ⟨by assumption, (Option.some.inj hstep).symm⟩
  · simp at hstep

/-- What a step does to the timers: at most it schedules the next one. -/
theorem mem_timers_of_step {state next : AlertState} {event : AlertEvent}
    (hstep : state.step event = some next) :
    state.scheduled ≤ next.scheduled ∧
      ∀ timer ∈ next.timers, timer ∈ state.timers ∨
        (timer = state.scheduled ∧ state.scheduled < next.scheduled) := by
  cases event with
  | showAlertwith message =>
      obtain rfl := Option.some.inj hstep
      exact ⟨Nat.le_refl _, fun timer htimer => .inl htimer⟩
  | didDeletePartnerCode message =>
      obtain rfl := Option.some.inj hstep
      exact ⟨Nat.le_refl _, fun timer htimer => .inl htimer⟩
  | updateView =>
      obtain rfl := Option.some.inj hstep
      unfold updateView
      split
      · refine ⟨Nat.le_succ _, ?_⟩
        intro timer htimer
        rcases List.mem_append.mp htimer with hold | hnew
        · exact .inl hold
        · exact .inr ⟨List.mem_singleton.mp hnew, Nat.lt_succ_self _⟩
      · exact ⟨Nat.le_refl _, fun timer htimer => .inl htimer⟩
  | fire timer =>
      obtain ⟨_, rfl⟩ := mem_timers_of_fire hstep
      exact ⟨Nat.le_refl _, fun other hother => .inl (List.mem_of_mem_erase hother)⟩

/-- A pending timer carries a number that has been given out. -/
theorem lt_scheduled_of_reaches {state : AlertState}
    (hreach : Reaches step (fun _ _ => True) {} state) :
    ∀ timer ∈ state.timers, timer < state.scheduled := by
  refine hreach.invariant (P := fun state => ∀ timer ∈ state.timers, timer < state.scheduled)
    (by simp) ?_
  intro state event next hnumbered _ hstep timer htimer
  obtain ⟨hle, htimers⟩ := mem_timers_of_step hstep
  rcases htimers timer htimer with hold | ⟨rfl, hlt⟩
  · have hold := hnumbered timer hold
    omega
  · exact hlt

/-- Without pending timers, all timers to come are new. -/
theorem scheduled_le_of_reaches {state later : AlertState} (htimers : state.timers = [])
    (hreach : Reaches step (fun _ _ => True) state later) :
    ∀ timer ∈ later.timers, state.scheduled ≤ timer := by
  have hinvariant : state.scheduled ≤ later.scheduled ∧
      ∀ timer ∈ later.timers, state.scheduled ≤ timer := by
    refine hreach.invariant (P := fun later => state.scheduled ≤ later.scheduled ∧
      ∀ timer ∈ later.timers, state.scheduled ≤ timer) ⟨Nat.le_refl _, by simp [htimers]⟩ ?_
    intro later event next hlater _ hstep
    obtain ⟨hle, hnew⟩ := mem_timers_of_step hstep
    refine ⟨Nat.le_trans hlater.1 hle, ?_⟩
    intro timer htimer
    rcases hnew timer htimer with hold | ⟨rfl, _⟩
    · exact hlater.2 timer hold
    · exact hlater.1
  exact hinvariant.2

/-! ## Alerts -/

/-- What a call of `showAlertwith` should achieve: its alert is up, and whatever happens
next, no timer from before the call takes an alert down. -/
def Seen (state : AlertState) (message : String) : Prop :=
  (state.showAlertwith message).showAlert = true ∧
    (state.showAlertwith message).alertMessage = message ∧
    ∀ later next timer, Reaches step (fun _ _ => True) (state.showAlertwith message) later →
      timer < state.scheduled → later.showAlert = true →
      later.step (.fire timer) = some next → next.showAlert = true

/-- In every state of every run, an alert is seen if and only if no alert is up and no
timer is pending. -/
theorem alert_is_seen_iff {state : AlertState}
    (hreach : Reaches step (fun _ _ => True) {} state) (message : String) :
    Seen state message ↔ state.showAlert = false ∧ state.timers = [] := by
  constructor
  · intro hseen
    obtain ⟨hshow, _, htimers⟩ := hseen
    refine ⟨by simpa [showAlertwith] using hshow, ?_⟩
    -- a pending timer could fire at once
    refine List.eq_nil_iff_forall_not_mem.mpr ?_
    intro timer htimer
    have hfire : (state.showAlertwith message).step (.fire timer) =
        some ((state.showAlertwith message).fire timer) :=
      if_pos htimer
    have hkept := htimers _ _ timer .refl (lt_scheduled_of_reaches hreach timer htimer) hshow hfire
    exact absurd hkept (by simp [fire])
  · intro hfree
    obtain ⟨hshow, htimers⟩ := hfree
    refine ⟨by simp [showAlertwith, hshow], rfl, ?_⟩
    intro later next timer hlater hearlier _ hfire
    -- every timer that is pending later was scheduled after the call
    have hnew : state.scheduled ≤ timer :=
      scheduled_le_of_reaches (by exact htimers) hlater timer (mem_timers_of_fire hfire).1
    omega

/-! ### Two codes in a row -/

/-- A wrong code is entered, and the banner appears. -/
def alerted : List AlertEvent :=
  [.showAlertwith "유효하지 않은 코드입니다.", .updateView]

/-- The next alert takes the first one down. -/
theorem second_alert_is_lost :
    ¬ ∀ state, Reaches step (fun _ _ => True) {} state → ∀ message, Seen state message := by
  intro hseen
  obtain ⟨state, hreach, hshow⟩ : ∃ state, Reaches step (fun _ _ => True) {} state ∧
      state.showAlert = true :=
    exists_reaches_of_run alerted (by decide)
  have hlost := (hseen state hreach "자신의 코드는 입력할 수 없습니다.").1
  simp [showAlertwith, hshow] at hlost

/-- Once the timer has fired the next alert is seen. -/
theorem second_alert_is_seen :
    ∃ state, Reaches step (fun _ _ => True) {} state ∧ state.scheduled = 1 ∧
      Seen state "자신의 코드는 입력할 수 없습니다." := by
  obtain ⟨state, hreach, hscheduled, hfree⟩ : ∃ state,
      Reaches step (fun _ _ => True) {} state ∧
      state.scheduled = 1 ∧ state.showAlert = false ∧ state.timers = [] :=
    exists_reaches_of_run (alerted ++ [.fire 0]) (by decide)
  exact ⟨state, hreach, hscheduled, (alert_is_seen_iff hreach _).mpr hfree⟩

end AlertState

end Pompom
