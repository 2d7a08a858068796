import Mathlib.Data.List.Nodup
import Pompom.Lib.Run
import Pompom.Pairing.Client

/-!
# Overlapping calls of `getCode`

`getCode` reads UserDefaults, and where there is no code it draws one, dispatches
the block that creates the user document, and stores the code.  The views call it on
the main thread, and the async functions of `CodeManager`, which belong to no actor,
call it as well; `getCode` itself locks nothing.

Elsewhere `getCode` is one step (`Client.getCode`).  Here its steps are apart, and any
number of calls interleave.  The calls are equivalent to calls one after the other
exactly if no call finds UserDefaults empty while another is still issuing a code
(`getCode_atomic_iff`): otherwise two documents are created, and a code that was given
out is replaced.
-/

namespace Pompom

open Lib

namespace GetCode

/-- Where a call of `getCode` stands. -/
inductive Phase where
  | ready
  /-- There was no code. -/
  | generating
  | dispatching (newCode : String)
  | storing (newCode : String)
  | returned (code : String)
  deriving DecidableEq, Repr

/-- The calls of one process. -/
structure State (ι : Type*) where
  /-- UserDefaults `code`. -/
  stored : Option String
  /-- The codes of the `saveCode` blocks that have been dispatched. -/
  dispatched : List String := []
  phase : ι → Phase := fun _ => .ready
  /-- The calls that have read UserDefaults, with what they found.  No step looks at
  it. -/
  reads : List (ι × Option String) := []

variable {ι : Type*}

/-- A call has found no code and has not stored its own yet. -/
def Phase.Issuing : Phase → Prop
  | .generating | .dispatching _ | .storing _ => True
  | .ready | .returned _ => False

instance : DecidablePred Phase.Issuing
  | .generating | .dispatching _ | .storing _ => .isTrue trivial
  | .ready | .returned _ => .isFalse id

/-- Whether a call has dispatched its `saveCode` block, if it ever does. -/
def Phase.hasDispatched : Phase → Bool
  | .storing _ | .returned _ => true
  | .ready | .generating | .dispatching _ => false

namespace State

/-- No call has been made in this process. -/
def start (stored : Option String) : State ι :=
  { stored }

/-- The calls that found no code. -/
def issuers (state : State ι) : List ι :=
  (state.reads.filter fun read => read.2.isNone).map Prod.fst

variable [DecidableEq ι]

def setPhase (state : State ι) (i : ι) (phase : Phase) : State ι :=
  { state with phase := Function.update state.phase i phase }

/-- A call makes its next step; `drawn i` is what `generateCode` returns to it. -/
def step (drawn : ι → String) (state : State ι) (i : ι) : Option (State ι) :=
  match state.phase i with
  | .ready =>
      let read : State ι := { state with reads := state.reads ++ [(i, state.stored)] }
      match state.stored with
      | some defaultCode => some (read.setPhase i (.returned defaultCode))
      | none => some (read.setPhase i .generating)
  | .generating => some (state.setPhase i (.dispatching (drawn i)))
  | .dispatching newCode =>
      some ({ state with dispatched := state.dispatched ++ [newCode] }.setPhase i
        (.storing newCode))
  | .storing newCode =>
      some ({ state with stored := some newCode }.setPhase i (.returned newCode))
  | .returned _ => none

/-- A call reads that there is no code while another call is about to store one. -/
def Overlaps (state : State ι) (i : ι) : Prop :=
  state.phase i = .ready ∧ state.stored = none ∧ ∃ j, (state.phase j).Issuing

/-- Every call that has been made has returned. -/
def AtRest (state : State ι) : Prop :=
  ∀ i, ¬ (state.phase i).Issuing

/-- The calls one after the other, in the given order. -/
def inOrder (drawn : ι → String) (initial : Option String) (order : List ι) : Client :=
  order.foldl (fun client i => client.getCode (drawn i)) { code := initial }

/-- The calls had the same effect as calls one after the other. -/
structure MatchesAtomic (drawn : ι → String) (initial : Option String) (state : State ι)
    (order : List ι) : Prop where
  nodup : order.Nodup
  calls : ∀ i, i ∈ order ↔ ∃ code, state.phase i = .returned code
  stored : state.stored = (inOrder drawn initial order).code
  dispatched : state.dispatched.map Thread.saveCode = (inOrder drawn initial order).threads
  returned : ∀ i code, state.phase i = .returned code →
    code = (inOrder drawn initial order).ownCode

/-! ## One step -/

/-- What the calls have done, given what was stored before them. -/
structure Recorded (drawn : ι → String) (initial : Option String) (state : State ι) : Prop where
  nodup : (state.reads.map Prod.fst).Nodup
  started : ∀ i, i ∈ state.reads.map Prod.fst ↔ state.phase i ≠ .ready
  found : ∀ i code, (i, some code) ∈ state.reads →
    state.phase i = .returned code ∧ (initial = some code ∨ ∃ j ∈ state.issuers, code = drawn j)
  first : initial = none → ∀ read ∈ state.reads.head?, read.2 = none
  issued : ∀ i ∈ state.issuers, initial = none ∧ (state.phase i = .generating ∨
    state.phase i = .dispatching (drawn i) ∨ state.phase i = .storing (drawn i) ∨
    state.phase i = .returned (drawn i))
  dispatched : state.dispatched.Perm
    ((state.issuers.filter fun i => (state.phase i).hasDispatched).map drawn)
  absent : state.stored = none → initial = none ∧
    ∀ i ∈ state.issuers, (state.phase i).Issuing
  present : ∀ code, state.stored = some code → initial = some code ∨
    ∃ i ∈ state.issuers, code = drawn i ∧ state.phase i = .returned (drawn i)

variable {drawn : ι → String} {initial : Option String} {state next : State ι}

omit [DecidableEq ι] in
theorem mem_issuers {i : ι} : i ∈ state.issuers ↔ (i, none) ∈ state.reads := by
  simp [issuers]

variable (drawn) in
omit [DecidableEq ι] in
theorem recorded_start : Recorded drawn initial (start initial : State ι) := by
  refine ⟨by simp [start], by simp [start], by simp [start], by simp [start],
    by simp [start, issuers], by simp [start, issuers], ?_, ?_⟩
  · rintro (rfl : initial = none)
    exact ⟨rfl, by simp [start, issuers]⟩
  · rintro code (rfl : initial = some code)
    exact .inl rfl

omit [DecidableEq ι] in
/-- A call that has read and not returned has found no code. -/
theorem Recorded.mem_issuers_of_issuing (hrecorded : Recorded drawn initial state) {i : ι}
    (hissuing : (state.phase i).Issuing) : i ∈ state.issuers := by
  have hread : i ∈ state.reads.map Prod.fst := by
    rw [hrecorded.started]
    intro hready
    simp [hready, Phase.Issuing] at hissuing
  obtain ⟨⟨_, found⟩, hmem, rfl⟩ := List.mem_map.mp hread
  cases found with
  | none => exact mem_issuers.mpr hmem
  | some code => simp [(hrecorded.found _ code hmem).1, Phase.Issuing] at hissuing

omit [DecidableEq ι] in
theorem Recorded.ready_notMem (hrecorded : Recorded drawn initial state) {i : ι}
    (hready : state.phase i = .ready) : i ∉ state.reads.map Prod.fst := by
  rw [hrecorded.started]
  exact fun hne => hne hready

omit [DecidableEq ι] in
theorem Recorded.issuer_ne (hrecorded : Recorded drawn initial state) {i j : ι}
    (hready : state.phase i = .ready) (hissuer : j ∈ state.issuers) : j ≠ i := by
  rintro rfl
  exact hrecorded.ready_notMem hready (List.mem_map_of_mem (mem_issuers.mp hissuer))

/-- The phases of the calls that found no code, after another call has moved. -/
theorem filter_hasDispatched_update {issuers : List ι} {phases : ι → Phase} {i : ι} {phase : Phase}
    (hother : ∀ j ∈ issuers, j ≠ i) :
    (issuers.filter fun j => (Function.update phases i phase j).hasDispatched) =
      issuers.filter fun j => (phases j).hasDispatched :=
  List.filter_congr fun j hj => by rw [Function.update_of_ne (hother j hj)]

/-- The record of a call that reads UserDefaults, in either case. -/
theorem Recorded.nodup_read (hrecorded : Recorded drawn initial state) {i : ι} {phase : Phase}
    (hready : state.phase i = .ready) (hphase : phase ≠ .ready) (found : Option String) :
    ((state.reads ++ [(i, found)]).map Prod.fst).Nodup ∧
      ∀ j, j ∈ (state.reads ++ [(i, found)]).map Prod.fst ↔
        Function.update state.phase i phase j ≠ .ready := by
  have hfresh := hrecorded.ready_notMem hready
  rw [List.map_append]
  refine ⟨hrecorded.nodup.append (List.nodup_singleton _) (by simpa using hfresh), fun j => ?_⟩
  rw [List.mem_append, hrecorded.started]
  by_cases hj : j = i
  · subst hj
    simp [hphase]
  · simp [hj]

omit [DecidableEq ι] in
/-- The first call that reads finds no code, also after one more has read. -/
theorem first_read {reads : List (ι × Option String)} {read : ι × Option String}
    (hfirst : ∀ first ∈ reads.head?, first.2 = none) (hread : reads = [] → read.2 = none) :
    ∀ first ∈ (reads ++ [read]).head?, first.2 = none := by
  cases reads with
  | nil =>
      intro first hmem
      obtain rfl : read = first := by simpa using hmem
      exact hread rfl
  | cons other rest => simpa using hfirst

/-- A call finds a code and returns it. -/
theorem Recorded.readCode (hrecorded : Recorded drawn initial state) {i : ι} {code : String}
    (hready : state.phase i = .ready) (hstored : state.stored = some code) :
    Recorded drawn initial ({ state with reads := state.reads ++ [(i, some code)] }.setPhase i
      (.returned code)) := by
  obtain ⟨hnodup, hstarted⟩ := hrecorded.nodup_read hready
    (show Phase.returned code ≠ .ready by simp) (some code)
  -- the calls that found no code are the same as before, and so are their phases
  have hne : ∀ j ∈ state.issuers, j ≠ i := fun j => hrecorded.issuer_ne hready
  have hsame : ∀ j ∈ state.issuers,
      Function.update state.phase i (.returned code) j = state.phase j :=
    fun j hj => Function.update_of_ne (hne j hj) _ _
  have hissuers : ({ state with reads := state.reads ++ [(i, some code)] }.setPhase i
      (.returned code)).issuers = state.issuers := by
    simp [issuers, setPhase]
  refine
    { nodup := hnodup, started := hstarted, found := ?found, first := ?first, issued := ?issued,
      dispatched := ?dispatched, absent := ?absent, present := ?present }
  case found =>
    intro j other hmem
    rw [hissuers]
    rcases List.mem_append.mp hmem with hmem | hmem
    · have hread : (j, some other) ∈ state.reads := hmem
      have hj : j ≠ i := by
        rintro rfl
        exact hrecorded.ready_notMem hready (List.mem_map_of_mem hread)
      simp only [setPhase, Function.update_of_ne hj]
      exact hrecorded.found j other hmem
    · obtain ⟨rfl, hother⟩ := Prod.mk.inj (List.mem_singleton.mp hmem)
      obtain rfl := Option.some.inj hother
      refine ⟨by simp [setPhase], (hrecorded.present other hstored).imp_right ?_⟩
      rintro ⟨k, hk, hcode, -⟩
      exact ⟨k, hk, hcode⟩
  case first =>
    -- what this call has found was stored by an earlier one
    refine fun hnone => first_read (hrecorded.first hnone) fun hnil => ?_
    rcases hrecorded.present code hstored with hsome | ⟨k, hk, -⟩
    · simp [hnone] at hsome
    · simp [issuers, hnil] at hk
  case issued =>
    rw [hissuers]
    intro j hj
    simp only [setPhase, hsame j hj]
    exact hrecorded.issued j hj
  case dispatched =>
    rw [hissuers]
    simp only [setPhase, filter_hasDispatched_update hne]
    exact hrecorded.dispatched
  case absent =>
    intro hnone
    simp [setPhase, hstored] at hnone
  case present =>
    rw [hissuers]
    intro other hother
    refine (hrecorded.present other hother).imp_right ?_
    rintro ⟨k, hk, hcode, hphase⟩
    exact ⟨k, hk, hcode, by simpa only [setPhase, hsame k hk] using hphase⟩

/-- A call finds no code. -/
theorem Recorded.readNothing (hrecorded : Recorded drawn initial state) {i : ι}
    (hready : state.phase i = .ready) (hstored : state.stored = none) :
    Recorded drawn initial ({ state with reads := state.reads ++ [(i, none)] }.setPhase i
      .generating) := by
  obtain ⟨hnodup, hstarted⟩ := hrecorded.nodup_read hready
    (show Phase.generating ≠ .ready by simp) none
  -- as long as no code is stored, no call that found none has stored its own
  obtain ⟨hinitial, hissuing⟩ := hrecorded.absent hstored
  have hne : ∀ j ∈ state.issuers, j ≠ i := fun j => hrecorded.issuer_ne hready
  have hsame : ∀ j ∈ state.issuers, Function.update state.phase i .generating j = state.phase j :=
    fun j hj => Function.update_of_ne (hne j hj) _ _
  have hissuers : ({ state with reads := state.reads ++ [(i, none)] }.setPhase i
      .generating).issuers = state.issuers ++ [i] := by
    simp [issuers, setPhase]
  refine
    { nodup := hnodup, started := hstarted, found := ?found, first := ?first, issued := ?issued,
      dispatched := ?dispatched, absent := ?absent, present := ?present }
  case found =>
    intro j other hmem
    rw [hissuers]
    rcases List.mem_append.mp hmem with hmem | hmem
    · have hread : (j, some other) ∈ state.reads := hmem
      have hj : j ≠ i := by
        rintro rfl
        exact hrecorded.ready_notMem hready (List.mem_map_of_mem hread)
      simp only [setPhase, Function.update_of_ne hj]
      refine ⟨(hrecorded.found j other hmem).1, (hrecorded.found j other hmem).2.imp_right ?_⟩
      rintro ⟨k, hk, hcode⟩
      exact ⟨k, List.mem_append_left _ hk, hcode⟩
    · simp at hmem
  case first => exact fun hnone => first_read (hrecorded.first hnone) fun _ => rfl
  case issued =>
    rw [hissuers]
    intro j hj
    rcases List.mem_append.mp hj with hj | hj
    · simp only [setPhase, hsame j hj]
      exact hrecorded.issued j hj
    · rw [List.mem_singleton.mp hj]
      exact ⟨hinitial, .inl (by simp [setPhase])⟩
  case dispatched =>
    rw [hissuers, List.filter_append]
    simp only [setPhase, filter_hasDispatched_update hne]
    simpa [Phase.hasDispatched] using hrecorded.dispatched
  case absent =>
    rw [hissuers]
    refine fun _ => ⟨hinitial, fun j hj => ?_⟩
    rcases List.mem_append.mp hj with hj | hj
    · simp only [setPhase, hsame j hj]
      exact hissuing j hj
    · rw [List.mem_singleton.mp hj]
      simp [setPhase, Phase.Issuing]
  case present =>
    intro other hother
    simp [setPhase, hstored] at hother

/-- A call that found no code makes a step. -/
theorem Recorded.issue (hrecorded : Recorded drawn initial state) {i : ι} {phase : Phase}
    {stored : Option String} {dispatched : List String} (hissuing : (state.phase i).Issuing)
    (hphase : phase = .dispatching (drawn i) ∨ phase = .storing (drawn i) ∨
      phase = .returned (drawn i))
    (hdispatched : dispatched.Perm ((state.issuers.filter fun j =>
      (Function.update state.phase i phase j).hasDispatched).map drawn))
    (hstored : stored = state.stored ∧ phase.Issuing ∨
      stored = some (drawn i) ∧ phase = .returned (drawn i)) :
    Recorded drawn initial
      { stored, dispatched, phase := Function.update state.phase i phase,
        reads := state.reads } := by
  have hi := hrecorded.mem_issuers_of_issuing hissuing
  have hnotReturned : ∀ code, state.phase i ≠ .returned code := by
    intro code hcode
    simp [hcode, Phase.Issuing] at hissuing
  refine
    { nodup := hrecorded.nodup, started := ?started, found := ?found, first := hrecorded.first,
      issued := ?issued, dispatched := hdispatched, absent := ?absent, present := ?present }
  case started =>
    intro j
    rw [hrecorded.started]
    by_cases hj : j = i
    · subst hj
      have hready : state.phase j ≠ .ready := by
        intro hready
        simp [hready, Phase.Issuing] at hissuing
      rcases hphase with rfl | rfl | rfl <;> simp [hready]
    · simp [hj]
  case found =>
    -- a call that found a code has returned
    intro j code hmem
    obtain ⟨hreturned, hfrom⟩ := hrecorded.found j code hmem
    have hj : j ≠ i := by
      rintro rfl
      exact hnotReturned code hreturned
    simp only [Function.update_of_ne hj]
    exact ⟨hreturned, hfrom⟩
  case issued =>
    intro j hj
    obtain ⟨hinitial, hbefore⟩ := hrecorded.issued j hj
    refine ⟨hinitial, ?_⟩
    by_cases hij : j = i
    · subst hij
      simp only [Function.update_self]
      exact .inr hphase
    · simpa only [Function.update_of_ne hij] using hbefore
  case absent =>
    intro hnone
    rcases hstored with ⟨rfl, hissues⟩ | ⟨rfl, -⟩
    · obtain ⟨hinitial, hothers⟩ := hrecorded.absent hnone
      refine ⟨hinitial, fun j hj => ?_⟩
      by_cases hij : j = i
      · subst hij
        simpa only [Function.update_self] using hissues
      · simpa only [Function.update_of_ne hij] using hothers j hj
    · simp at hnone
  case present =>
    -- a code that this call stores covers the one that was stored before
    intro code hcode
    rcases hstored with ⟨rfl, -⟩ | ⟨rfl, rfl⟩
    · refine (hrecorded.present code hcode).imp_right ?_
      rintro ⟨k, hk, hcode, hreturned⟩
      have hki : k ≠ i := by
        rintro rfl
        exact hnotReturned _ hreturned
      exact ⟨k, hk, hcode, by simpa only [Function.update_of_ne hki] using hreturned⟩
    · exact .inr ⟨i, hi, (Option.some.inj hcode).symm, by simp⟩

/-- The calls that have dispatched, after one more has. -/
theorem filter_hasDispatched_perm {issuers : List ι} (hnodup : issuers.Nodup)
    (phases : ι → Phase) {i : ι} (hi : i ∈ issuers) (phase : Phase)
    (hbefore : (phases i).hasDispatched = false) (hafter : phase.hasDispatched = true) :
    (issuers.filter fun j => (Function.update phases i phase j).hasDispatched).Perm
      (i :: issuers.filter fun j => (phases j).hasDispatched) := by
  have hperm := List.perm_cons_erase hi
  have hothers : ∀ j ∈ issuers.erase i, j ≠ i := fun j hj heq =>
    hnodup.not_mem_erase (heq ▸ hj)
  have hnew := hperm.filter fun j => (Function.update phases i phase j).hasDispatched
  have hold := hperm.filter fun j => (phases j).hasDispatched
  rw [List.filter_cons_of_pos (by simpa using hafter),
    filter_hasDispatched_update hothers] at hnew
  rw [List.filter_cons_of_neg (by simp [hbefore])] at hold
  exact hnew.trans (hold.symm.cons i)

/-- The same, when the call had dispatched before or still has not. -/
theorem filter_hasDispatched_same {issuers : List ι} {phases : ι → Phase} {i : ι} {phase : Phase}
    (hsame : phase.hasDispatched = (phases i).hasDispatched) :
    (issuers.filter fun j => (Function.update phases i phase j).hasDispatched) =
      issuers.filter fun j => (phases j).hasDispatched := by
  refine List.filter_congr fun j _ => ?_
  by_cases hj : j = i
  · subst hj
    simpa using hsame
  · rw [Function.update_of_ne hj]

omit [DecidableEq ι] in
theorem Recorded.nodup_issuers (hrecorded : Recorded drawn initial state) : state.issuers.Nodup :=
  hrecorded.nodup.sublist (List.filter_sublist.map _)

theorem Recorded.step (hrecorded : Recorded drawn initial state) {i : ι}
    (hstep : state.step drawn i = some next) : Recorded drawn initial next := by
  unfold State.step at hstep
  cases hphase : state.phase i with
  | ready =>
      simp only [hphase] at hstep
      cases hstored : state.stored with
      | none =>
          rw [hstored] at hstep
          obtain rfl := Option.some.inj hstep
          have hread := hrecorded.readNothing hphase hstored
          rwa [hstored] at hread
      | some code =>
          rw [hstored] at hstep
          obtain rfl := Option.some.inj hstep
          have hread := hrecorded.readCode hphase hstored
          rwa [hstored] at hread
  | generating =>
      simp only [hphase] at hstep
      obtain rfl := Option.some.inj hstep
      refine hrecorded.issue (by simp [hphase, Phase.Issuing]) (.inl rfl) ?_
        (.inl ⟨rfl, trivial⟩)
      rw [filter_hasDispatched_same (by simp [hphase, Phase.hasDispatched])]
      exact hrecorded.dispatched
  | dispatching newCode =>
      have hi : i ∈ state.issuers :=
        hrecorded.mem_issuers_of_issuing (by simp [hphase, Phase.Issuing])
      obtain rfl : newCode = drawn i := by simpa [hphase] using (hrecorded.issued i hi).2
      simp only [hphase] at hstep
      obtain rfl := Option.some.inj hstep
      refine hrecorded.issue (by simp [hphase, Phase.Issuing]) (.inr (.inl rfl)) ?_
        (.inl ⟨rfl, trivial⟩)
      -- the order of the blocks is that of the dispatches, not that of the reads
      have hperm := filter_hasDispatched_perm hrecorded.nodup_issuers state.phase hi
        (.storing (drawn i)) (by simp [hphase, Phase.hasDispatched]) rfl
      refine .trans ?_ (hperm.map drawn).symm
      exact (List.perm_append_singleton _ _).trans (hrecorded.dispatched.cons _)
  | storing newCode =>
      have hi : i ∈ state.issuers :=
        hrecorded.mem_issuers_of_issuing (by simp [hphase, Phase.Issuing])
      obtain rfl : newCode = drawn i := by simpa [hphase] using (hrecorded.issued i hi).2
      simp only [hphase] at hstep
      obtain rfl := Option.some.inj hstep
      refine hrecorded.issue (by simp [hphase, Phase.Issuing]) (.inr (.inr rfl)) ?_
        (.inr ⟨rfl, rfl⟩)
      rw [filter_hasDispatched_same (by simp [hphase, Phase.hasDispatched])]
      exact hrecorded.dispatched
  | returned code => simp [hphase] at hstep

/-! ## Overlaps -/

/-- A second call finds no code exactly at a step that overlaps. -/
theorem Recorded.two_issuers_iff (hrecorded : Recorded drawn initial state) {i : ι}
    (hstep : state.step drawn i = some next) :
    2 ≤ next.issuers.length ↔ 2 ≤ state.issuers.length ∨ state.Overlaps i := by
  unfold State.step at hstep
  cases hphase : state.phase i with
  | ready =>
      simp only [hphase] at hstep
      cases hstored : state.stored with
      | none =>
          rw [hstored] at hstep
          obtain rfl := Option.some.inj hstep
          -- one more call has found no code, so there are two if there was one
          have hlength : ({ state with
              stored := none
              reads := state.reads ++ [(i, none)] }.setPhase i .generating).issuers.length =
                state.issuers.length + 1 := by
            simp [issuers, setPhase]
          have hoverlaps : state.Overlaps i ↔ 1 ≤ state.issuers.length := by
            simp only [Overlaps, hphase, hstored, true_and]
            constructor
            · rintro ⟨j, hissuing⟩
              exact List.length_pos_of_mem (hrecorded.mem_issuers_of_issuing hissuing)
            · intro hpos
              obtain ⟨j, hj⟩ := List.exists_mem_of_length_pos hpos
              exact ⟨j, (hrecorded.absent hstored).2 j hj⟩
          rw [hlength, hoverlaps]
          omega
      | some code =>
          rw [hstored] at hstep
          obtain rfl := Option.some.inj hstep
          simp [Overlaps, hstored, issuers, setPhase]
  | generating | dispatching newCode | storing newCode =>
      simp only [hphase] at hstep
      obtain rfl := Option.some.inj hstep
      simp [Overlaps, hphase, issuers, setPhase]
  | returned code => simp [hphase] at hstep

omit [DecidableEq ι] in
/-- With a code, further calls change nothing. -/
theorem foldl_getCode_of_some {client : Client} {code : String} (hcode : client.code = some code)
    (order : List ι) : order.foldl (fun client i => client.getCode (drawn i)) client = client := by
  induction order with
  | nil => rfl
  | cons i rest ih => rw [List.foldl_cons, Client.getCode_of_some hcode, ih]

variable (drawn initial) in
omit [DecidableEq ι] in
/-- One after the other, the calls dispatch one block at most. -/
theorem length_threads_inOrder (order : List ι) :
    (inOrder drawn initial order).threads.length ≤ 1 := by
  cases initial with
  | some code =>
      rw [inOrder, foldl_getCode_of_some rfl]
      exact Nat.zero_le _
  | none =>
      cases order with
      | nil => exact Nat.zero_le _
      | cons i rest =>
          have hcode : (({} : Client).getCode (drawn i)).code = some (drawn i) := rfl
          rw [inOrder, List.foldl_cons, foldl_getCode_of_some hcode]
          exact le_refl 1

omit [DecidableEq ι] in
theorem AtRest.returned_iff (hrest : state.AtRest) (i : ι) :
    (∃ code, state.phase i = .returned code) ↔ state.phase i ≠ .ready := by
  have hphase := hrest i
  cases hi : state.phase i <;> simp_all [Phase.Issuing]

omit [DecidableEq ι] in
/-- At rest, every call that found no code has dispatched its block. -/
theorem Recorded.dispatched_atRest (hrecorded : Recorded drawn initial state)
    (hrest : state.AtRest) : state.dispatched.Perm (state.issuers.map drawn) := by
  have hall : (state.issuers.filter fun i => (state.phase i).hasDispatched) = state.issuers := by
    refine List.filter_eq_self.mpr fun i hi => ?_
    have hready : state.phase i ≠ .ready :=
      (hrecorded.started i).mp (List.mem_map_of_mem (mem_issuers.mp hi))
    obtain ⟨code, hcode⟩ := (hrest.returned_iff i).mpr hready
    simp [hcode, Phase.hasDispatched]
  have hdispatched := hrecorded.dispatched
  rwa [hall] at hdispatched

omit [DecidableEq ι] in
/-- Where a code was stored before, every call returns it. -/
theorem Recorded.matches_of_some {code : String} (hrecorded : Recorded drawn (some code) state)
    (hrest : state.AtRest) : state.MatchesAtomic drawn (some code) (state.reads.map Prod.fst) := by
  have hissuers : state.issuers = [] := List.eq_nil_iff_forall_not_mem.mpr fun i hi => by
    simpa using (hrecorded.issued i hi).1
  have horder : inOrder drawn (some code) (state.reads.map Prod.fst) = { code := some code } :=
    foldl_getCode_of_some rfl _
  refine ⟨hrecorded.nodup, fun i => ?_, ?_, ?_, fun i other hreturned => ?_⟩
  · rw [hrecorded.started, hrest.returned_iff]
  · rw [horder]
    cases hstored : state.stored with
    | none => simpa using (hrecorded.absent hstored).1
    | some other => simpa [hissuers, eq_comm] using hrecorded.present other hstored
  · have hdispatched := hrecorded.dispatched_atRest hrest
    rw [hissuers] at hdispatched
    rw [horder, hdispatched.eq_nil]
    rfl
  · rw [horder]
    have hread : i ∈ state.reads.map Prod.fst := by
      simp [hrecorded.started, hreturned]
    obtain ⟨⟨_, found⟩, hmem, rfl⟩ := List.mem_map.mp hread
    cases found with
    | none => simpa [hissuers] using mem_issuers.mpr hmem
    | some found =>
        obtain ⟨hphase, hfrom⟩ := hrecorded.found _ found hmem
        obtain rfl : other = found := by simpa [hreturned] using hphase
        simpa [hissuers, Client.ownCode, eq_comm] using hfrom

omit [DecidableEq ι] in
/-- Where no code was stored and one call found none, every call returns its code. -/
theorem Recorded.matches_of_none (hrecorded : Recorded drawn none state) (hrest : state.AtRest)
    (hone : state.issuers.length ≤ 1) :
    state.MatchesAtomic drawn none (state.reads.map Prod.fst) := by
  have hcalls : ∀ i, i ∈ state.reads.map Prod.fst ↔ ∃ code, state.phase i = .returned code := by
    intro i
    rw [hrecorded.started, hrest.returned_iff]
  have hdispatched := hrecorded.dispatched_atRest hrest
  -- the call that found none comes first, and the others have found its code
  cases hreads : state.reads with
  | nil =>
      have hissuers : state.issuers = [] := by simp [issuers, hreads]
      rw [hissuers] at hdispatched
      rw [hreads] at hcalls
      refine ⟨List.nodup_nil, hcalls, ?_, by simp [hdispatched.eq_nil, inOrder], ?_⟩
      · cases hstored : state.stored with
        | none => rfl
        | some code => simpa [hissuers] using hrecorded.present code hstored
      · intro i code hreturned
        simpa using (hcalls i).mpr ⟨code, hreturned⟩
  | cons read rest =>
      obtain ⟨finder, found⟩ := read
      obtain rfl : found = none := hrecorded.first rfl (finder, found) (by simp [hreads])
      have hissuers : state.issuers = [finder] := by
        have hcons : state.issuers = finder ::
            (rest.filter fun read => read.2.isNone).map Prod.fst := by simp [issuers, hreads]
        rw [hcons, List.length_cons] at hone
        rw [hcons, List.length_eq_zero_iff.mp (Nat.le_zero.mp (Nat.le_of_succ_le_succ hone))]
      have hphase : state.phase finder = .returned (drawn finder) := by
        obtain ⟨code, hcode⟩ := (hcalls finder).mp (by simp [hreads])
        have hissued := (hrecorded.issued finder (by simp [hissuers])).2
        simpa [hcode] using hissued
      have hcode : (({} : Client).getCode (drawn finder)).code = some (drawn finder) := rfl
      have horder : inOrder drawn none (((finder, none) :: rest).map Prod.fst) =
          ({} : Client).getCode (drawn finder) := foldl_getCode_of_some hcode _
      rw [hissuers] at hdispatched
      rw [← hreads]
      refine ⟨hrecorded.nodup, hcalls, ?_, ?_, fun i code hreturned => ?_⟩
      · rw [hreads, horder, hcode]
        cases hstored : state.stored with
        | none =>
            have hissuing := (hrecorded.absent hstored).2 finder (by simp [hissuers])
            simp [hphase, Phase.Issuing] at hissuing
        | some code =>
            have hpresent := hrecorded.present code hstored
            simp only [hissuers, List.mem_singleton, exists_eq_left] at hpresent
            rw [(hpresent.resolve_left (by simp)).1]
      · rw [hreads, horder, List.perm_singleton.mp hdispatched]
        rfl
      · rw [hreads, horder, Client.ownCode_eq hcode]
        have hread : i ∈ state.reads.map Prod.fst := (hcalls i).mpr ⟨code, hreturned⟩
        obtain ⟨⟨_, found⟩, hmem, rfl⟩ := List.mem_map.mp hread
        cases found with
        | none =>
            obtain rfl := List.mem_singleton.mp (hissuers ▸ mem_issuers.mpr hmem)
            simpa [hreturned] using hphase
        | some found =>
            obtain ⟨hfound, hfrom⟩ := hrecorded.found _ found hmem
            obtain rfl : code = found := by simpa [hreturned] using hfound
            simpa [hissuers] using hfrom

/-- In every run that ends with all calls returned, the calls are equivalent to calls
one after the other, in some order, if and only if no two of them overlap. -/
theorem getCode_atomic_iff {calls : List ι}
    (hrun : runEvents (step drawn) (start initial) calls = some state) (hrest : state.AtRest) :
    (∃ order, state.MatchesAtomic drawn initial order) ↔
      ¬ ∃ earlier i rest before, calls = earlier ++ i :: rest ∧
        runEvents (step drawn) (start initial) earlier = some before ∧ before.Overlaps i := by
  obtain ⟨hrecorded, htwo⟩ := runEvents_marked_iff (A := fun _ => True)
    (P := fun state : State ι => 2 ≤ state.issuers.length) (recorded_start drawn)
    (by simp [start, issuers])
    (fun _ _ _ hrecorded _ hstep => ⟨hrecorded.step hstep, hrecorded.two_issuers_iff hstep⟩)
    (fun _ _ => trivial) hrun
  rw [← htwo, not_le]
  constructor
  · rintro ⟨order, hmatches⟩
    have hlength := (hrecorded.dispatched_atRest hrest).length_eq
    have hthreads := congrArg List.length hmatches.dispatched
    have hone := length_threads_inOrder drawn initial order
    rw [List.length_map] at hlength hthreads
    omega
  · intro hone
    refine ⟨state.reads.map Prod.fst, ?_⟩
    cases initial with
    | some code => exact hrecorded.matches_of_some hrest
    | none => exact hrecorded.matches_of_none hrest (by omega)

/-! ### The first launch -/

/-- The calls of the onboarding screen and of `connectPartner`. -/
def firstLaunch (i : Bool) : String :=
  if i then "AAAAAAAAAA" else "BBBBBBBBBB"

instance (state : State Bool) : Decidable state.AtRest :=
  inferInstanceAs (Decidable (∀ i, ¬ (state.phase i).Issuing))

/-- The screen's call reads UserDefaults before the other call has stored its code:
two documents are created, and the code that the other call returned is replaced. -/
theorem getCode_atomic_iff_firstLaunch : ∃ state : State Bool,
    state.dispatched = ["AAAAAAAAAA", "BBBBBBBBBB"] ∧ state.phase true = .returned "AAAAAAAAAA" ∧
      state.stored = some "BBBBBBBBBB" ∧
      ¬ ∃ order, state.MatchesAtomic firstLaunch none order := by
  have hrun : (runEvents (step firstLaunch) (start none)
      [true, false, true, true, true, false, false, false]).any (fun state =>
        decide (state.dispatched = ["AAAAAAAAAA", "BBBBBBBBBB"] ∧
          state.phase true = .returned "AAAAAAAAAA" ∧ state.stored = some "BBBBBBBBBB" ∧
          state.AtRest)) = true := by decide
  have hoverlap : (runEvents (step firstLaunch) (start none) [true]).any (fun before =>
      decide (before.phase false = .ready ∧ before.stored = none ∧
        (before.phase true).Issuing)) = true := by decide
  obtain ⟨state, hstate, htest⟩ := (Option.any_eq_true _ _).mp hrun
  obtain ⟨hdispatched, hreturned, hstored, hrest⟩ := of_decide_eq_true htest
  obtain ⟨before, hbefore, hphases⟩ := (Option.any_eq_true _ _).mp hoverlap
  obtain ⟨hready, hnone, hissuing⟩ := of_decide_eq_true hphases
  refine ⟨state, hdispatched, hreturned, hstored, fun hmatches => ?_⟩
  exact (getCode_atomic_iff hstate hrest).mp hmatches
    ⟨[true], false, _, before, rfl, hbefore, hready, hnone, true, hissuing⟩

end State

end GetCode

end Pompom
