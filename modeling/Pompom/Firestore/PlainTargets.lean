import Mathlib.Logic.Function.Iterate
import Pompom.Firestore.RemoteEvent

/-!
# Targets without bookkeeping

What the aggregator is for.  A `PlainTarget` has the documents that the server has `told`
and those that its views have been `shown`, where the aggregator has only differences from
one snapshot to the next.  The server is believed while the target is active; when the
last request is answered it starts from what is shown, and a snapshot shows what has been
told.  How the messages are to be read for one target is said here once more, plainly,
with no reference to the aggregator.  The `news` are the versions of documents that the
server has sent since the last snapshot.

`PlainClient.Answered` is what the server is relied on for: it adds and removes targets
only in answer to requests, and what it says last of a target that is listened to is not
that it has been removed.
-/

namespace Pompom.Firestore

structure PlainTarget (ι : Type) where
  data : Option (TargetData ι) := none
  /-- The requests that the server has not answered. -/
  outstanding : ℤ := 0
  /-- Whether it has been requested on this stream, and not been removed since. -/
  heard : Bool := false
  told : Finset ι := ∅
  shown : Finset ι := ∅
  mismatched : Bool := false

namespace PlainTarget

variable {ι : Type}

def IsActive (target : PlainTarget ι) : Prop :=
  target.outstanding = 0 ∧ target.data.isSome = true

instance (target : PlainTarget ι) : Decidable target.IsActive :=
  inferInstanceAs (Decidable (_ ∧ _))

/-- The server says something of the documents of a target. -/
def say (edit : Finset ι → Finset ι) (target : PlainTarget ι) : PlainTarget ι :=
  if target.IsActive then { target with told := edit target.told } else target

def reset (target : PlainTarget ι) : PlainTarget ι :=
  target.say fun _ => ∅

def request (target : PlainTarget ι) : PlainTarget ι :=
  { target with outstanding := target.outstanding + 1, heard := true }

/-- A request is answered, by the target being added or removed. -/
def answer (removed : Bool) (target : PlainTarget ι) : PlainTarget ι :=
  let target := { target with outstanding := target.outstanding - 1 }
  if target.outstanding = 0 then
    { target with told := target.shown, heard := target.heard && !removed }
  else target

def forget (target : PlainTarget ι) : PlainTarget ι :=
  { target with data := none, told := ∅, shown := ∅ }

def reject (target : PlainTarget ι) : PlainTarget ι :=
  if target.data.isSome then { target.forget with outstanding := 0, heard := false }
  else target

/-- The stream ends, and with it all that has been said on it. -/
def restart (target : PlainTarget ι) : PlainTarget ι :=
  { target with outstanding := 0, heard := false, told := target.shown, mismatched := false }

def reopen (target : PlainTarget ι) : PlainTarget ι :=
  if target.data.isSome then target.restart.request else target.restart

def listen (isOpen : Bool) (data : TargetData ι) (keys : Finset ι) (target : PlainTarget ι) :
    PlainTarget ι :=
  if target.data.isSome then target
  else
    let target := { target with data := some data, told := keys, shown := keys }
    if isOpen then target.request else target

def stopListening (isOpen : Bool) (target : PlainTarget ι) : PlainTarget ι :=
  if isOpen then target.forget.request else target.forget

/-- What has been told is shown. -/
def report (target : PlainTarget ι) : PlainTarget ι :=
  if target.IsActive then { target with shown := target.told } else target

/-- A target whose number of documents was wrong is given up and requested again. -/
def watchAgain (target : PlainTarget ι) : PlainTarget ι :=
  { (if target.data.isSome ∧ target.mismatched = true then target.request.request
      else target) with mismatched := false }

def raise (target : PlainTarget ι) : PlainTarget ι :=
  target.report.watchAgain

def said : WatchTargetChangeState → PlainTarget ι → PlainTarget ι
  | .noChange | .current => id
  | .added => answer false
  | .removed => answer true
  | .reset => reset

variable [DecidableEq ι]

def add (key : ι) (target : PlainTarget ι) : PlainTarget ι :=
  target.say (insert key)

def remove (key : ι) (target : PlainTarget ι) : PlainTarget ι :=
  target.say (·.erase key)

/-- The server says how many documents there are. -/
def filter (count : ℤ) (target : PlainTarget ι) : PlainTarget ι :=
  if target.IsActive then
    match target.data.bind (·.documentQuery) with
    | some key => if count = 0 then target.remove key else target
    | none => if (target.told.card : ℤ) ≠ count then { target.reset with mismatched := true }
        else target
  else target

/-- A query for one document finds it or not. -/
def Miscounts (count : ℤ) (target : PlainTarget ι) : Prop :=
  target.IsActive ∧ (target.data.bind (·.documentQuery)).isSome = true ∧
    ¬ (count = 0 ∨ count = 1)

instance (count : ℤ) (target : PlainTarget ι) : Decidable (target.Miscounts count) :=
  inferInstanceAs (Decidable (_ ∧ _))

/-- A document is in a target now, or it does not exist. -/
def update {δ : Type} (key : ι) : Option (MutableDocument δ) → PlainTarget ι → PlainTarget ι
  | some (.found _) => add key
  | some .noDocument => remove key
  | none => id

end PlainTarget

structure PlainClient (τ ι δ : Type) where
  isOpen : Bool := false
  target : τ → PlainTarget ι := fun _ => {}
  /-- What has been said last of a document since the last snapshot. -/
  news : ι → Option (MutableDocument δ) := fun _ => none

namespace PlainClient

variable {τ ι δ : Type}

section News

variable [DecidableEq ι]

/-- A version of a document is news if a target that is named is active. -/
def learn (client : PlainClient τ ι δ) (targetIds : List τ) (key : ι) :
    Option (MutableDocument δ) → PlainClient τ ι δ
  | some document =>
      if ∃ targetId ∈ targetIds, (client.target targetId).IsActive then
        { client with news := Function.update client.news key (some document) }
      else client
  | none => client

/-- The server counts no document for a query of one. -/
def learnCount (client : PlainClient τ ι δ) (targetId : τ) (count : ℤ) : PlainClient τ ι δ :=
  match (client.target targetId).data.bind (·.documentQuery) with
  | some key => if count = 0 then client.learn [targetId] key (some .noDocument) else client
  | none => client

@[simp] theorem target_learn (client : PlainClient τ ι δ) (targetIds : List τ) (key : ι)
    (document : Option (MutableDocument δ)) :
    (client.learn targetIds key document).target = client.target := by
  cases document with
  | none => rfl
  | some document =>
      unfold learn
      dsimp only
      split <;> rfl

@[simp] theorem isOpen_learn (client : PlainClient τ ι δ) (targetIds : List τ) (key : ι)
    (document : Option (MutableDocument δ)) :
    (client.learn targetIds key document).isOpen = client.isOpen := by
  cases document with
  | none => rfl
  | some document =>
      unfold learn
      dsimp only
      split <;> rfl

theorem news_learn (client : PlainClient τ ι δ) (targetIds : List τ) (key : ι)
    (document : Option (MutableDocument δ)) (other : ι) :
    (client.learn targetIds key document).news other =
      if other = key ∧ document.isSome = true ∧
        (∃ targetId ∈ targetIds, (client.target targetId).IsActive) then document
      else client.news other := by
  cases document with
  | none => simp [learn]
  | some document =>
      by_cases hactive : ∃ targetId ∈ targetIds, (client.target targetId).IsActive
      · by_cases hsame : other = key <;> simp [learn, hactive, hsame]
      · simp [learn, hactive]

@[simp] theorem target_learnCount (client : PlainClient τ ι δ) (targetId : τ) (count : ℤ) :
    (client.learnCount targetId count).target = client.target := by
  unfold learnCount
  split
  · split <;> simp
  · rfl

@[simp] theorem isOpen_learnCount (client : PlainClient τ ι δ) (targetId : τ) (count : ℤ) :
    (client.learnCount targetId count).isOpen = client.isOpen := by
  unfold learnCount
  split
  · split <;> simp
  · rfl

theorem news_learnCount (client : PlainClient τ ι δ) (targetId : τ) (count : ℤ) (other : ι) :
    (client.learnCount targetId count).news other =
      if (client.target targetId).IsActive ∧ count = 0 ∧
        (client.target targetId).data.bind (·.documentQuery) = some other
      then some .noDocument else client.news other := by
  unfold learnCount
  split
  · rename_i key hquery
    by_cases hcount : count = 0
    · rw [if_pos hcount, news_learn]
      refine if_congr ?_ rfl rfl
      simp only [hquery, hcount, Option.isSome_some, List.mem_singleton, exists_eq_left,
        Option.some.injEq, true_and, eq_comm (a := key)]
      exact and_comm
    · simp [hcount]
  · rename_i hquery
    simp [hquery]

end News

variable [DecidableEq τ]

/-- Every target is edited as often as it is named. -/
def each (client : PlainClient τ ι δ) (targetIds : List τ) (edit : PlainTarget ι → PlainTarget ι) :
    PlainClient τ ι δ :=
  { client with target := fun targetId =>
      edit^[targetIds.count targetId] (client.target targetId) }

def all (client : PlainClient τ ι δ) (edit : PlainTarget ι → PlainTarget ι) : PlainClient τ ι δ :=
  { client with target := fun targetId => edit (client.target targetId) }

theorem target_each_singleton (client : PlainClient τ ι δ) (targetId other : τ)
    (edit : PlainTarget ι → PlainTarget ι) : (client.each [targetId] edit).target other =
      if other = targetId then edit (client.target targetId) else client.target other := by
  by_cases hsame : other = targetId
  · subst hsame
    simp [each]
  · simp [each, hsame, List.count_singleton, Ne.symm hsame]

variable [DecidableEq ι]

/-- A message about no target in particular is about all. -/
def handle (client : PlainClient τ ι δ) : WatchChange τ ι δ → PlainClient τ ι δ
  | .document change =>
      let client := client.learn (change.updatedTargetIds ++ change.removedTargetIds)
        change.documentKey change.newDocument
      (client.each change.updatedTargetIds (.update change.documentKey change.newDocument)).each
        change.removedTargetIds (.remove change.documentKey)
  | .target change =>
      if change.targetIds ≠ [] then client.each change.targetIds (.said change.state)
      else client.all (.said change.state)
  | .existenceFilter targetId count =>
      (client.learnCount targetId count).each [targetId] (.filter count)

/-- A snapshot shows what has been told, and passes the news on. -/
def raise (client : PlainClient τ ι δ) : PlainClient τ ι δ :=
  { client.all .raise with news := fun _ => none }

def step (client : PlainClient τ ι δ) : WatchClientEvent τ ι δ → PlainClient τ ι δ
  | .listen targetId data keys => client.each [targetId] (.listen client.isOpen data keys)
  | .stopListening targetId => client.each [targetId] (.stopListening client.isOpen)
  | .streamOpen => { client.all .reopen with isOpen := true, news := fun _ => none }
  | .streamClose _ _ => { client.all .restart with isOpen := false, news := fun _ => none }
  | .change change snapshot =>
      if WatchClient.IsTargetError change then
        client.each (WatchClient.targetIds change) .reject
      else if snapshot then (client.handle change).raise
      else client.handle change

/-- The server adds and removes targets in answer to requests, and what was last requested
is not removed. -/
def Answers (client : PlainClient τ ι δ) (change : WatchTargetChange τ) : Prop :=
  change.targetIds ≠ [] ∧ ∀ targetId ∈ change.targetIds,
    change.targetIds.count targetId ≤ (client.target targetId).outstanding ∧
      (change.state = .removed → (client.target targetId).data.isSome = true →
        change.targetIds.count targetId ≠ (client.target targetId).outstanding)

instance (client : PlainClient τ ι δ) : DecidablePred client.Answers :=
  fun _ => inferInstanceAs (Decidable (_ ∧ _))

def Answered (client : PlainClient τ ι δ) : WatchClientEvent τ ι δ → Prop
  | .change (.target change) _ =>
      change.state = .added ∨ change.state = .removed ∧ change.causeOk = true →
        client.Answers change
  | .change (.document _) _ | .change (.existenceFilter _ _) _ | .listen _ _ _
  | .stopListening _ | .streamOpen | .streamClose _ _ => True

instance (client : PlainClient τ ι δ) :
    DecidablePred (client.Answered : WatchClientEvent τ ι δ → Prop)
  | .change (.target _) _ => inferInstanceAs (Decidable (_ → _))
  | .change (.document _) _ | .change (.existenceFilter _ _) _ | .listen _ _ _
  | .stopListening _ | .streamOpen | .streamClose _ _ => .isTrue trivial

/-- What ends the process: a target is given up that is not listened to, the stream ends
without an error while it is needed, or the server counts more documents than the one that
is queried. -/
def Fails (client : PlainClient τ ι δ) : WatchClientEvent τ ι δ → Prop
  | .stopListening targetId => (client.target targetId).data = none
  | .streamClose statusOk canUseNetwork =>
      statusOk = true ∧ canUseNetwork = true ∧
        ∃ targetId, (client.target targetId).data.isSome = true
  | .change (.existenceFilter targetId count) _ => (client.target targetId).Miscounts count
  | .change (.document _) _ | .change (.target _) _ | .listen _ _ _ | .streamOpen => False

@[simp] theorem isOpen_handle (client : PlainClient τ ι δ) (change : WatchChange τ ι δ) :
    (client.handle change).isOpen = client.isOpen := by
  cases change with
  | document change => exact isOpen_learn client _ _ _
  | existenceFilter targetId count => exact isOpen_learnCount client _ _
  | target change =>
      unfold handle
      dsimp only
      split <;> rfl

theorem isOpen_step_change (client : PlainClient τ ι δ) (change : WatchChange τ ι δ)
    (snapshot : Bool) : (client.step (.change change snapshot)).isOpen = client.isOpen := by
  unfold step
  dsimp only
  split
  · rfl
  · split
    · exact isOpen_handle client change
    · exact isOpen_handle client change

end PlainClient

namespace PlainTarget

variable {ι : Type} {target : PlainTarget ι} {isOpen : Bool}

/-! ## What is said and what is shown -/

theorem say_say (first edit : Finset ι → Finset ι) (target : PlainTarget ι) :
    (target.say first).say edit = target.say (edit ∘ first) := by
  unfold say
  by_cases hactive : target.IsActive
  · have hstill : ({ target with told := first target.told } : PlainTarget ι).IsActive := hactive
    simp [hactive, hstill]
  · simp [hactive]

@[simp] theorem say_isActive (edit : Finset ι → Finset ι) :
    (target.say edit).IsActive ↔ target.IsActive := by
  unfold say
  split <;> rfl

theorem say_shown (hsame : target.IsActive → target.told = target.shown) :
    (target.say fun _ => target.shown) = target := by
  unfold say
  split
  · rename_i hactive
    exact congrArg (fun told => { target with told := told }) (hsame hactive).symm
  · rfl

theorem said_of_not_isActive (hinactive : ¬ target.IsActive)
    {state : WatchTargetChangeState} (hstate : state ≠ .added ∧ state ≠ .removed) :
    target.said state = target := by
  cases state with
  | noChange | current => rfl
  | added => exact absurd rfl hstate.1
  | removed => exact absurd rfl hstate.2
  | reset => rw [said, reset, say, if_neg hinactive]

/-- What is left in the aggregator when a snapshot is taken: nothing but what is shown. -/
def taken (target : PlainTarget ι) : PlainTarget ι :=
  { target.say fun _ => target.shown with mismatched := false }

@[simp] theorem taken_outstanding (target : PlainTarget ι) :
    target.taken.outstanding = target.outstanding := by
  unfold taken say
  split <;> rfl

/-- A target after a snapshot, as long as its views have not been told. -/
def rewatched (target : PlainTarget ι) : PlainTarget ι :=
  if target.data.isSome ∧ target.mismatched = true then target.taken.request.request
  else target.taken

@[simp] theorem rewatched_shown (target : PlainTarget ι) :
    target.rewatched.shown = target.shown := by
  unfold rewatched taken say
  split <;> split <;> rfl

theorem rewatched_told (hactive : target.IsActive) :
    { target.rewatched with told := target.told, shown := target.told } = target.raise := by
  unfold rewatched raise report watchAgain taken say
  rw [if_pos hactive, if_pos hactive]
  split <;> rfl

theorem rewatched_eq
    (hsame : target.IsActive → target.told = target.shown) : target.rewatched = target.raise := by
  have hreport : target.report = target := by
    unfold report
    split
    · rename_i hactive
      exact congrArg (fun shown => { target with shown := shown }) (hsame hactive)
    · rfl
  rw [rewatched, raise, hreport, taken, say_shown hsame, watchAgain]
  split <;> rfl

/-! ## What is relied on keeps the requests and the answers in step -/

/-- There are no more answers than requests, and a target that is listened to on an open
stream has been requested there. -/
structure Sound (isOpen : Bool) (target : PlainTarget ι) : Prop where
  nonneg : 0 ≤ target.outstanding
  heard : isOpen = true → target.data.isSome = true → target.heard = true

theorem Sound.say (hsound : target.Sound isOpen) (edit : Finset ι → Finset ι) :
    (target.say edit).Sound isOpen := by
  unfold PlainTarget.say
  split
  · exact ⟨hsound.nonneg, hsound.heard⟩
  · exact hsound

theorem Sound.request (hsound : target.Sound isOpen) : target.request.Sound isOpen where
  nonneg := by
    have hnonneg := hsound.nonneg
    simp only [PlainTarget.request]
    omega
  heard _ _ := rfl

theorem Sound.forget (hsound : target.Sound isOpen) : target.forget.Sound isOpen :=
  ⟨hsound.nonneg, fun _ hsome => by simp [PlainTarget.forget] at hsome⟩

theorem Sound.reject (hsound : target.Sound isOpen) : target.reject.Sound isOpen := by
  unfold PlainTarget.reject
  split
  · exact ⟨le_rfl, fun _ hsome => by simp [PlainTarget.forget] at hsome⟩
  · exact hsound

theorem sound_restart : target.restart.Sound false :=
  ⟨le_rfl, fun hopen => by simp at hopen⟩

theorem sound_reopen : target.reopen.Sound true := by
  unfold PlainTarget.reopen
  split
  · exact ⟨by simp [PlainTarget.request, PlainTarget.restart], fun _ _ => rfl⟩
  · rename_i hnone
    exact ⟨le_rfl, fun _ hsome => absurd hsome hnone⟩

theorem Sound.listen (hsound : target.Sound isOpen) (data : TargetData ι) (keys : Finset ι) :
    (target.listen isOpen data keys).Sound isOpen := by
  unfold PlainTarget.listen
  split
  · exact hsound
  · have hnonneg := hsound.nonneg
    cases isOpen with
    | true => exact ⟨by simp only [PlainTarget.request, if_true]; omega, fun _ _ => rfl⟩
    | false => exact ⟨hnonneg, fun hopen => by simp at hopen⟩

theorem Sound.stopListening (hsound : target.Sound isOpen) :
    (target.stopListening isOpen).Sound isOpen := by
  unfold PlainTarget.stopListening
  split
  · exact hsound.forget.request
  · exact hsound.forget

theorem Sound.raise (hsound : target.Sound isOpen) : target.raise.Sound isOpen := by
  have hreport : target.report.Sound isOpen := by
    unfold PlainTarget.report
    split
    · exact ⟨hsound.nonneg, hsound.heard⟩
    · exact hsound
  unfold PlainTarget.raise PlainTarget.watchAgain
  split
  · exact ⟨hreport.request.request.nonneg, hreport.request.request.heard⟩
  · exact ⟨hreport.nonneg, hreport.heard⟩

theorem Sound.filter [DecidableEq ι] (hsound : target.Sound isOpen) (count : ℤ) :
    (target.filter count).Sound isOpen := by
  unfold PlainTarget.filter
  split
  · split
    · split
      · exact hsound.say _
      · exact hsound
    · split
      · exact ⟨(hsound.say _).nonneg, (hsound.say _).heard⟩
      · exact hsound
  · exact hsound

theorem Sound.update [DecidableEq ι] {δ : Type} (hsound : target.Sound isOpen) (key : ι)
    (document : Option (MutableDocument δ)) : (target.update key document).Sound isOpen := by
  rcases document with - | data | -
  · exact hsound
  · exact hsound.say (insert key)
  · exact hsound.say (·.erase key)

/-- After some answers. -/
theorem answer_iterate (removed : Bool) (target : PlainTarget ι) (count : ℕ) :
    ((PlainTarget.answer removed)^[count] target).outstanding = target.outstanding - count ∧
      ((PlainTarget.answer removed)^[count] target).data = target.data ∧
      (target.heard = true → (removed = true → count < target.outstanding) →
        ((PlainTarget.answer removed)^[count] target).heard = true) := by
  induction count with
  | zero => exact ⟨by simp, rfl, fun hheard _ => hheard⟩
  | succ count ih =>
      obtain ⟨houtstanding, hdata, hheard⟩ := ih
      rw [Function.iterate_succ_apply']
      set answered := (PlainTarget.answer removed)^[count] target
      have hnext : answered.outstanding - 1 = target.outstanding - (count + 1 : ℕ) := by omega
      simp only [PlainTarget.answer]
      split
      · rename_i hzero
        refine ⟨hnext, hdata, fun hfirst hless => ?_⟩
        cases removed with
        | false => simpa using hheard hfirst (by simp)
        | true =>
            have hlast := hless rfl
            omega
      · refine ⟨hnext, hdata, fun hfirst hless => hheard hfirst fun hremoved => ?_⟩
        have hlast := hless hremoved
        omega

theorem Sound.answer (hsound : target.Sound isOpen) {removed : Bool} {count : ℕ}
    (hcount : count ≤ target.outstanding)
    (hlast : removed = true → target.data.isSome = true → count ≠ target.outstanding) :
    ((PlainTarget.answer removed)^[count] target).Sound isOpen := by
  obtain ⟨houtstanding, hdata, hheard⟩ := answer_iterate removed target count
  refine ⟨by omega, fun hopen hsome => ?_⟩
  rw [hdata] at hsome
  refine hheard (hsound.heard hopen hsome) fun hremoved => ?_
  exact lt_of_le_of_ne hcount (hlast hremoved hsome)

end PlainTarget

namespace PlainClient

variable {τ ι δ : Type} {client : PlainClient τ ι δ}

def Sound (client : PlainClient τ ι δ) : Prop :=
  ∀ targetId, (client.target targetId).Sound client.isOpen

theorem Sound.all (hsound : client.Sound) {edit : PlainTarget ι → PlainTarget ι}
    (hedit : ∀ target, target.Sound client.isOpen → (edit target).Sound client.isOpen) :
    (client.all edit).Sound := fun targetId => hedit _ (hsound targetId)

variable [DecidableEq τ]

theorem Sound.each (hsound : client.Sound) {targetIds : List τ}
    {edit : PlainTarget ι → PlainTarget ι}
    (hedit : ∀ target, target.Sound client.isOpen → (edit target).Sound client.isOpen) :
    (client.each targetIds edit).Sound := fun targetId =>
  Function.Iterate.rec (PlainTarget.Sound client.isOpen) (hsound targetId) hedit _

variable [DecidableEq ι]

omit [DecidableEq τ] in
theorem Sound.learn (hsound : client.Sound) (targetIds : List τ) (key : ι)
    (document : Option (MutableDocument δ)) : (client.learn targetIds key document).Sound := by
  intro targetId
  rw [target_learn, isOpen_learn]
  exact hsound targetId

omit [DecidableEq τ] in
theorem Sound.learnCount (hsound : client.Sound) (targetId : τ) (count : ℤ) :
    (client.learnCount targetId count).Sound := by
  intro other
  rw [target_learnCount, isOpen_learnCount]
  exact hsound other

theorem Sound.handle (hsound : client.Sound) {change : WatchChange τ ι δ} {snapshot : Bool}
    (hanswered : client.Answered (.change change snapshot))
    (herror : ¬ WatchClient.IsTargetError change) : (client.handle change).Sound := by
  cases change with
  | document change =>
      exact ((hsound.learn _ _ _).each fun target htarget => htarget.update _ _).each
        fun target htarget => htarget.say _
  | existenceFilter targetId count =>
      exact (hsound.learnCount _ _).each fun target htarget => htarget.filter count
  | target change =>
      have hcause : change.state = .removed → change.causeOk = true := fun hremoved => by
        simpa [WatchClient.IsTargetError, hremoved] using herror
      unfold PlainClient.handle
      dsimp only
      -- only the answers, of additions and removals, count down what is outstanding
      cases hstate : change.state with
      | noChange | current =>
          split
          · exact hsound.each fun target htarget => htarget
          · exact hsound.all fun target htarget => htarget
      | reset =>
          split
          · exact hsound.each fun target htarget => htarget.say fun _ => ∅
          · exact hsound.all fun target htarget => htarget.say fun _ => ∅
      | added =>
          obtain ⟨hnamed, hanswers⟩ := hanswered (.inl hstate)
          rw [if_pos hnamed]
          intro targetId
          by_cases hmem : targetId ∈ change.targetIds
          · exact (hsound targetId).answer (hanswers targetId hmem).1 (by simp)
          · simpa [PlainClient.each, List.count_eq_zero_of_not_mem hmem] using hsound targetId
      | removed =>
          obtain ⟨hnamed, hanswers⟩ := hanswered (.inr ⟨hstate, hcause hstate⟩)
          rw [if_pos hnamed]
          intro targetId
          by_cases hmem : targetId ∈ change.targetIds
          · exact (hsound targetId).answer (hanswers targetId hmem).1
              fun _ => (hanswers targetId hmem).2 hstate
          · simpa [PlainClient.each, List.count_eq_zero_of_not_mem hmem] using hsound targetId

theorem Sound.step (hsound : client.Sound) {event : WatchClientEvent τ ι δ}
    (hanswered : client.Answered event) : (client.step event).Sound := by
  cases event with
  | listen targetId data keys => exact hsound.each fun target htarget => htarget.listen data keys
  | stopListening targetId => exact hsound.each fun target htarget => htarget.stopListening
  | streamOpen => exact fun targetId => PlainTarget.sound_reopen
  | streamClose statusOk canUseNetwork => exact fun targetId => PlainTarget.sound_restart
  | change change snapshot =>
      simp only [PlainClient.step]
      split
      · exact hsound.each fun target htarget => htarget.reject
      · rename_i herror
        have hhandle := hsound.handle hanswered herror
        split
        · exact hhandle.all fun target htarget => htarget.raise
        · exact hhandle

end PlainClient

end Pompom.Firestore
