import Mathlib.Data.List.Induction
import Mathlib.Data.Nat.Notation
import Mathlib.Logic.Relation

/-!
# Runs of a partial step function

A system is given by a step function `step : σ → ε → Option σ`: the state after
an event, or `none` where the event is not enabled.  `Reaches step allowed` is
reachability along events that an environment predicate `allowed` admits in the
state in which they happen; an assumption on every step of a run (all queries
succeed, no two operations overlap) is such a predicate.

`runAllowed` executes one given list of events and checks the predicate on the
way, so that a concrete run can be evaluated and then used as a `Reaches` fact.
-/

namespace Pompom.Lib

variable {σ ε : Type*} {step : σ → ε → Option σ} {allowed : σ → ε → Prop}

/-- Some run of `step` leads from the first state to the second, and each of its
events is `allowed` in the state in which it happens. -/
def Reaches (step : σ → ε → Option σ) (allowed : σ → ε → Prop) : σ → σ → Prop :=
  Relation.ReflTransGen fun state next =>
    ∃ event, allowed state event ∧ step state event = some next

/-- A predicate that every allowed step preserves holds along the whole run. -/
theorem Reaches.invariant {P : σ → Prop} {start state : σ}
    (hreach : Reaches step allowed start state) (hstart : P start)
    (hstep : ∀ state event next, P state → allowed state event →
      step state event = some next → P next) : P state := by
  induction hreach with
  | refl => exact hstart
  | tail _ hlast ih =>
      obtain ⟨event, hallowed, hnext⟩ := hlast
      exact hstep _ event _ ih hallowed hnext

/-- A run whose events meet a stronger condition meets a weaker one. -/
theorem Reaches.mono {weaker : σ → ε → Prop} {start state : σ}
    (hreach : Reaches step allowed start state)
    (hweaker : ∀ state event, allowed state event → weaker state event) :
    Reaches step weaker start state := by
  induction hreach with
  | refl => exact .refl
  | tail _ hlast ih =>
      obtain ⟨event, hallowed, hnext⟩ := hlast
      exact ih.tail ⟨event, hweaker _ event hallowed, hnext⟩

/-- Runs of a given length. -/
inductive ReachesIn (step : σ → ε → Option σ) (allowed : σ → ε → Prop) (start : σ) : ℕ → σ → Prop
  | refl : ReachesIn step allowed start 0 start
  | tail {n : ℕ} {state next : σ} {event : ε} (hrun : ReachesIn step allowed start n state)
      (hallowed : allowed state event) (hstep : step state event = some next) :
      ReachesIn step allowed start (n + 1) next

theorem ReachesIn.reaches {start state : σ} {n : ℕ}
    (hrun : ReachesIn step allowed start n state) : Reaches step allowed start state := by
  induction hrun with
  | refl => exact .refl
  | tail _ hallowed hstep ih => exact ih.tail ⟨_, hallowed, hstep⟩

/-- A weight that every step lowers bounds the length of the runs. -/
theorem ReachesIn.length_add_le {P : σ → Prop} {weight : σ → ℕ} {start state : σ} {n : ℕ}
    (hrun : ReachesIn step allowed start n state) (hstart : P start)
    (hinvariant : ∀ state event next, P state → allowed state event →
      step state event = some next → P next ∧ weight next + 1 ≤ weight state) :
    P state ∧ n + weight state ≤ weight start := by
  induction hrun with
  | refl => exact ⟨hstart, by omega⟩
  | tail _ hallowed hstep ih =>
      obtain ⟨hstate, hlength⟩ := ih
      obtain ⟨hnext, hweight⟩ := hinvariant _ _ _ hstate hallowed hstep
      exact ⟨hnext, by omega⟩

/-- Executes a list of events, and fails at one that is not allowed or not
enabled. -/
def runAllowed (step : σ → ε → Option σ) (allowed : σ → ε → Prop)
    [∀ state event, Decidable (allowed state event)] : σ → List ε → Option σ
  | state, [] => some state
  | state, event :: rest =>
      if allowed state event then
        (step state event).bind fun next => runAllowed step allowed next rest
      else none

/-- An executed run is a run, as long as its list of events. -/
theorem reachesIn_of_runAllowed [∀ state event, Decidable (allowed state event)]
    {start state final : σ} {n : ℕ} {events : List ε}
    (hstart : ReachesIn step allowed start n state)
    (hrun : runAllowed step allowed state events = some final) :
    ReachesIn step allowed start (n + events.length) final := by
  induction events generalizing n state with
  | nil =>
      obtain rfl : state = final := by simpa [runAllowed] using hrun
      exact hstart
  | cons event rest ih =>
      rw [runAllowed] at hrun
      split at hrun
      · rename_i hallowed
        obtain ⟨next, hnext, hrest⟩ := Option.bind_eq_some_iff.mp hrun
        rw [List.length_cons, Nat.add_left_comm, Nat.add_comm]
        exact ih (hstart.tail hallowed hnext) hrest
      · simp at hrun

/-- A run whose last state passes a test reaches a state with the property. -/
theorem exists_reachesIn_of_run [∀ state event, Decidable (allowed state event)] {start : σ}
    {P : σ → Prop} [DecidablePred P] (events : List ε)
    (hrun : (runAllowed step allowed start events).any (fun state => decide (P state)) = true) :
    ∃ state, ReachesIn step allowed start events.length state ∧ P state := by
  obtain ⟨state, hstate, htest⟩ := (Option.any_eq_true _ _).mp hrun
  have hlength := reachesIn_of_runAllowed .refl hstate
  rw [Nat.zero_add] at hlength
  exact ⟨state, hlength, of_decide_eq_true htest⟩

theorem exists_reaches_of_run [∀ state event, Decidable (allowed state event)] {start : σ}
    {P : σ → Prop} [DecidablePred P] (events : List ε)
    (hrun : (runAllowed step allowed start events).any (fun state => decide (P state)) = true) :
    ∃ state, Reaches step allowed start state ∧ P state := by
  obtain ⟨state, hlength, hstate⟩ := exists_reachesIn_of_run events hrun
  exact ⟨state, hlength.reaches, hstate⟩

/-- The state after a list of events, if all of them can happen. -/
def runEvents (step : σ → ε → Option σ) (start : σ) (events : List ε) : Option σ :=
  events.foldlM step start

theorem runEvents_concat {start : σ} {events : List ε} {event : ε} :
    runEvents step start (events ++ [event]) =
      (runEvents step start events).bind fun state => step state event := by
  simp [runEvents, List.foldlM_append]

theorem runEvents_append {start : σ} {earlier rest : List ε} :
    runEvents step start (earlier ++ rest) =
      (runEvents step start earlier).bind fun state => runEvents step state rest := by
  simp [runEvents, List.foldlM_append]

/-- What every event of a run preserves holds at its end. -/
theorem runEvents_invariant {I : σ → Prop} {start : σ} (hstart : I start) {events : List ε}
    (hstep : ∀ event ∈ events, ∀ state next, I state → step state event = some next → I next)
    {final : σ} (hrun : runEvents step start events = some final) : I final := by
  induction events generalizing start with
  | nil =>
      obtain rfl : start = final := by simpa [runEvents] using hrun
      exact hstart
  | cons event events ih =>
      obtain ⟨state, hstate, hrest⟩ := Option.bind_eq_some_iff.mp hrun
      exact ih (hstep event List.mem_cons_self start state hstart hstate)
        (fun other hother => hstep other (List.mem_cons_of_mem _ hother)) hrest

/-- Where a property starts to hold at the steps with a mark, and holds from then on,
it holds after a run exactly if one of its steps had the mark. -/
theorem runEvents_marked_iff {I P : σ → Prop} {A : ε → Prop} {marked : σ → ε → Prop} {start : σ}
    (hstart : I start) (hfirst : ¬ P start)
    (hstep : ∀ state event next, I state → A event → step state event = some next →
      I next ∧ (P next ↔ P state ∨ marked state event))
    {events : List ε} (hevents : ∀ event ∈ events, A event) {final : σ}
    (hrun : runEvents step start events = some final) :
    I final ∧ (P final ↔ ∃ earlier event rest before, events = earlier ++ event :: rest ∧
      runEvents step start earlier = some before ∧ marked before event) := by
  induction events using List.reverseRecOn generalizing final with
  | nil =>
      obtain rfl : start = final := by simpa [runEvents] using hrun
      exact ⟨hstart, by simpa using hfirst⟩
  | append_singleton events event ih =>
      rw [runEvents_concat] at hrun
      obtain ⟨state, hstate, hlast⟩ := Option.bind_eq_some_iff.mp hrun
      obtain ⟨hinvariant, hiff⟩ :=
        ih (fun other hother => hevents other (List.mem_append_left _ hother)) hstate
      obtain ⟨hnext, hmarked⟩ :=
        hstep state event final hinvariant (hevents event (by simp)) hlast
      refine ⟨hnext, ?_⟩
      rw [hmarked, hiff]
      constructor
      · rintro (⟨earlier, other, rest, before, rfl, hbefore, hmark⟩ | hmark)
        · exact ⟨earlier, other, rest ++ [event], before, by simp, hbefore, hmark⟩
        · exact ⟨events, event, [], state, rfl, hstate, hmark⟩
      · rintro ⟨earlier, other, rest, before, heq, hbefore, hmark⟩
        -- the marked event is the last one, or one of those before it
        cases rest using List.reverseRecOn with
        | nil =>
            obtain ⟨rfl, hsame⟩ := List.append_inj' heq rfl
            obtain rfl : event = other := by simpa using hsame
            obtain rfl := Option.some.inj (hbefore.symm.trans hstate)
            exact .inr hmark
        | append_singleton rest last =>
            rw [← List.cons_append, ← List.append_assoc] at heq
            obtain ⟨rfl, -⟩ := List.append_inj' heq rfl
            exact .inl ⟨earlier, other, rest, before, rfl, hbefore, hmark⟩

end Pompom.Lib
