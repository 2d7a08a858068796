import Pompom.Lib.Run
import Pompom.Clothes.OutfitSharing

/-!
# Rounds of editing one's own outfit

The owner's side of the main screen: the picker, the finish and cancel buttons of
`UI/Main/MainView+Extensions.swift`, and the listeners that `requestClothes`
registers on the owner's own clothes document.  Every round ends with a Task that
registers a further listener, and no listener is ever removed, so one upload is
delivered to all of them, in any order, each writing `selectedItems`.

Version `0` of the document is its absence and version `n + 1` is the `n`-th
upload.  A listener sees versions in commit order, possibly skipping some; it
starts with the version that is current when it is registered.

When every upload keeps the categories that earlier uploads showed (`Covers`),
the dictionaries that the closures accumulate show the version they were last
given, and the owner is left with the last upload once every callback has run
(`rounds_leave_last_upload`).  An upload that drops a category lets an older
listener bring the item back.
-/

namespace Pompom

open Lib ClothesManager

inductive SheetMode where
  | none
  | mid
  | high
  deriving DecidableEq, Repr

/-- A listener on a clothes document: the first version it has not seen, and the
dictionary its closure captured. -/
structure ClothesListener where
  next : ℕ
  returnValue : Outfit

/-- The owner's main screen. -/
structure OwnerState where
  picker : PickerCombineViewModel
  sheetMode : SheetMode := .none
  /-- The outfits passed to `saveClothes`, oldest first. -/
  uploads : List Outfit := []
  /-- Tasks that have yet to call `requestClothes`. -/
  requests : ℕ := 0
  listeners : List ClothesListener := []
  /-- History: the items chosen since the last upload. -/
  picked : List (ClothCategory × String) := []

inductive OwnerEvent where
  /-- A tap on the own figure. -/
  | showPicker
  | edit (order : DeliveryOrder) (change : PickerCombineViewModel.Edit)
  | finishOutfit
  | cancelOutfit
  /-- `connectPartner`, which requests the own clothes as well. -/
  | appear
  /-- A Task runs `requestClothes`. -/
  | requestClothes
  /-- A listener handles a version of the document. -/
  | deliver (listener version : ℕ)

namespace OwnerState

def start (order : DeliveryOrder) : OwnerState :=
  { picker := .init order }

/-- What an edit adds to the history of chosen items. -/
def pickedBy (vm : PickerCombineViewModel) : PickerCombineViewModel.Edit →
    List (ClothCategory × String)
  | .selectItem (some name) => [(vm.currentCategory, name)]
  | _ => []

/-- The data of a version of the document, if there is such a version. -/
def version (state : OwnerState) : ℕ → Option (Option Document)
  | 0 => some none
  | n + 1 => state.uploads[n]?.map fun outfit => some (parseClothes outfit)

/-- `uploadItem`. -/
def uploadItem (state : OwnerState) : OwnerState :=
  { state with uploads := state.uploads ++ [state.picker.selectedItems], picked := [] }

/-- A listener handles a version and the callback assigns `selectedItems`. -/
def deliver (state : OwnerState) (index version : ℕ) (listener : ClothesListener)
    (data : Option Document) : Option OwnerState :=
  match loadClothesListener listener.returnValue (.document data) with
  | .ok (returnValue, passed) =>
      some { state with
        listeners := state.listeners.set index ⟨version + 1, returnValue⟩
        picker := state.picker.load (passed.getD state.picker.selectedItems) }
  | .error _ => none

/-- The picker and its buttons are on the screen while the sheet is up. -/
def step (state : OwnerState) : OwnerEvent → Option OwnerState
  | .showPicker => some { state with sheetMode := .mid }
  | .edit order change =>
      if state.sheetMode = .none then none
      else
        some { state with
          picker := state.picker.edit order change
          picked := state.picked ++ pickedBy state.picker change }
  | .finishOutfit =>
      if state.sheetMode = .none then none
      else some { state.uploadItem with sheetMode := .none, requests := state.requests + 1 }
  | .cancelOutfit =>
      if state.sheetMode = .none then none
      else some { state with sheetMode := .none, requests := state.requests + 1 }
  | .appear => some { state with requests := state.requests + 1 }
  | .requestClothes =>
      match state.requests with
      | 0 => none
      | requests + 1 =>
          some { state with
            requests := requests
            listeners := state.listeners ++ [⟨state.uploads.length, .empty⟩] }
  | .deliver index version =>
      match state.listeners[index]?, state.version version with
      | some listener, some data =>
          if listener.next ≤ version then state.deliver index version listener data else none
      | _, _ => none

/-! ## What the rounds should leave -/

/-- The outfit last passed to `saveClothes`, or no clothes. -/
def lastUpload (state : OwnerState) : Outfit :=
  state.uploads.getLast?.getD .empty

/-- The round is over, its request has run and every listener has seen the latest
version. -/
def Settled (state : OwnerState) : Prop :=
  state.sheetMode = .none ∧ state.requests = 0 ∧
    ∀ listener ∈ state.listeners, listener.next = state.uploads.length + 1

instance (state : OwnerState) : Decidable state.Settled :=
  inferInstanceAs (Decidable (_ ∧ _ ∧ _))

/-- Every visible item is one of the last upload or was chosen since. -/
def NothingReappears (state : OwnerState) : Prop :=
  ∀ category cloth, state.picker.selectedItems category = some cloth → cloth.Visible →
    (∃ entry, state.lastUpload category = some entry ∧ entry.id = cloth.id) ∨
      (category, cloth.id) ∈ state.picked

/-- The later outfit stores an entry in every category in which the earlier one
shows an item. -/
def Covers (earlier later : Outfit) : Prop :=
  ∀ category, stored later category = none → earlier.visible category = none

instance (earlier later : Outfit) : Decidable (Covers earlier later) :=
  inferInstanceAs (Decidable (∀ _, _))

/-- An upload keeps the categories in which an earlier upload shows an item. -/
def KeepsCategories (state : OwnerState) : OwnerEvent → Prop
  | .finishOutfit => ∀ earlier ∈ state.uploads, Covers earlier state.picker.selectedItems
  | _ => True

instance (state : OwnerState) : (event : OwnerEvent) → Decidable (state.KeepsCategories event)
  | .finishOutfit => inferInstanceAs (Decidable (∀ _ ∈ _, _))
  | .showPicker | .edit .. | .cancelOutfit | .appear | .requestClothes | .deliver .. =>
      .isTrue trivial

/-- No callback runs for a version that a later upload has replaced. -/
def DeliversLatest (state : OwnerState) : OwnerEvent → Prop
  | .deliver _ version => version = state.uploads.length
  | _ => True

instance (state : OwnerState) : (event : OwnerEvent) → Decidable (state.DeliversLatest event)
  | .deliver _ version => inferInstanceAs (Decidable (version = _))
  | .showPicker | .edit .. | .finishOutfit | .cancelOutfit | .appear | .requestClothes =>
      .isTrue trivial

/-! ## What a callback assigns -/

/-- The dictionary a listener holds after it handled a version. -/
inductive Received (state : OwnerState) (before : Outfit) : ℕ → Outfit → Prop where
  | missing : Received state before 0 before
  | upload {n : ℕ} {outfit : Outfit} : state.uploads[n]? = some outfit →
      Received state before (n + 1) (overlay before (stored outfit))

/-- The transitions of `step`, one constructor for each event. -/
inductive Transition (state : OwnerState) : OwnerEvent → OwnerState → Prop where
  | showPicker : Transition state .showPicker { state with sheetMode := .mid }
  | edit (order : DeliveryOrder) (change : PickerCombineViewModel.Edit) :
      state.sheetMode ≠ .none →
      Transition state (.edit order change)
        { state with
          picker := state.picker.edit order change
          picked := state.picked ++ pickedBy state.picker change }
  | finishOutfit : state.sheetMode ≠ .none →
      Transition state .finishOutfit
        { state.uploadItem with sheetMode := .none, requests := state.requests + 1 }
  | cancelOutfit : state.sheetMode ≠ .none →
      Transition state .cancelOutfit
        { state with sheetMode := .none, requests := state.requests + 1 }
  | appear : Transition state .appear { state with requests := state.requests + 1 }
  | requestClothes {requests : ℕ} : state.requests = requests + 1 →
      Transition state .requestClothes
        { state with
          requests := requests
          listeners := state.listeners ++ [⟨state.uploads.length, .empty⟩] }
  | deliver {index version : ℕ} {listener : ClothesListener} {received : Outfit} :
      state.listeners[index]? = some listener → listener.next ≤ version →
      Received state listener.returnValue version received →
      Transition state (.deliver index version)
        { state with
          listeners := state.listeners.set index ⟨version + 1, received⟩
          picker := state.picker.load received }

theorem transition_of_deliver {state next : OwnerState} {index version : ℕ}
    (hstep : state.step (.deliver index version) = some next) :
    Transition state (.deliver index version) next := by
  simp only [step] at hstep
  split at hstep
  · rename_i listener data hlistener hversion
    split at hstep
    · rename_i hnext
      cases version with
      | zero =>
          obtain rfl : none = data := by simpa [OwnerState.version] using hversion
          obtain rfl : _ = next := by simpa [deliver] using hstep
          exact .deliver hlistener hnext .missing
      | succ n =>
          obtain ⟨outfit, houtfit, rfl⟩ : ∃ outfit, state.uploads[n]? = some outfit ∧
              some (parseClothes outfit) = data := by
            simpa [OwnerState.version] using hversion
          obtain rfl : _ = next := by
            simpa [deliver, loadClothesListener_parseClothes] using hstep
          exact .deliver hlistener hnext (.upload houtfit)
    · simp at hstep
  · simp at hstep

theorem transition_of_step {state next : OwnerState} {event : OwnerEvent}
    (hstep : state.step event = some next) : Transition state event next := by
  cases event with
  | showPicker =>
      obtain rfl := Option.some.inj hstep
      exact .showPicker
  | edit order change =>
      obtain ⟨hsheet, rfl⟩ : state.sheetMode ≠ .none ∧ _ = next := by simpa [step] using hstep
      exact .edit order change hsheet
  | finishOutfit =>
      obtain ⟨hsheet, rfl⟩ : state.sheetMode ≠ .none ∧ _ = next := by simpa [step] using hstep
      exact .finishOutfit hsheet
  | cancelOutfit =>
      obtain ⟨hsheet, rfl⟩ : state.sheetMode ≠ .none ∧ _ = next := by simpa [step] using hstep
      exact .cancelOutfit hsheet
  | appear =>
      obtain rfl := Option.some.inj hstep
      exact .appear
  | requestClothes =>
      simp only [step] at hstep
      split at hstep
      · simp at hstep
      · rename_i requests hrequests
        obtain rfl := Option.some.inj hstep
        exact .requestClothes hrequests
  | deliver index version => exact transition_of_deliver hstep

/-! ## The invariant of a run -/

/-- What holds along a run in which uploads keep the categories shown before: the
dictionary of a listener is the overlay of some of the versions it is past. -/
structure Consistent (state : OwnerState) : Prop where
  keyed : state.picker.selectedItems.Keyed
  uploads_keyed : ∀ outfit ∈ state.uploads, outfit.Keyed
  covers : state.uploads.Pairwise Covers
  listeners : ∀ listener ∈ state.listeners, listener.next ≤ state.uploads.length + 1 ∧
    ∃ seen : List Outfit, seen.Sublist (state.uploads.take (listener.next - 1)) ∧
      listener.returnValue = (seen.map stored).foldl overlay Outfit.empty

theorem leavesNothingBehind_of_covers {seen : List Outfit} {last : Outfit}
    (hkeyed : ∀ outfit ∈ seen, outfit.Keyed) (hcovers : ∀ outfit ∈ seen, Covers outfit last) :
    LeavesNothingBehind seen last := by
  intro category hnone cloth hlatest hvisible
  obtain ⟨patch, hpatch, hcloth⟩ := exists_of_latest hlatest
  obtain ⟨outfit, houtfit, rfl⟩ := List.mem_map.mp hpatch
  have hblank := hcovers outfit houtfit category hnone
  rw [Outfit.visible_eq_none_iff] at hblank
  exact hblank cloth (eq_of_stored (hkeyed outfit houtfit) hcloth) hvisible

/-- The dictionary after a version: again the overlay of some versions, and it
shows the version just handled. -/
theorem Consistent.received {state : OwnerState} (hinv : state.Consistent)
    {listener : ClothesListener} (hlistener : listener ∈ state.listeners) {version : ℕ}
    (hnext : listener.next ≤ version) {received : Outfit}
    (hreceived : Received state listener.returnValue version received) :
    version ≤ state.uploads.length ∧ received.Keyed ∧
      received.visible = ((state.uploads.take version).getLast?.getD .empty).visible ∧
      ∃ seen : List Outfit, seen.Sublist (state.uploads.take version) ∧
        received = (seen.map stored).foldl overlay Outfit.empty := by
  obtain ⟨_, seen, hseen, hreturn⟩ := hinv.listeners listener hlistener
  cases hreceived with
  | missing =>
      -- a listener that is given the missing document has seen nothing before
      obtain rfl : seen = [] := by simpa [Nat.le_zero.mp hnext] using hseen
      rw [hreturn]
      exact ⟨Nat.zero_le _, Outfit.keyed_empty, rfl, [], by simp, rfl⟩
  | @upload n outfit houtfit =>
      have hlength : n < state.uploads.length := (List.getElem?_eq_some_iff.mp houtfit).1
      have htake : state.uploads.take (n + 1) = state.uploads.take n ++ [outfit] := by
        rw [List.take_add_one, houtfit]
        rfl
      have hseen' : seen.Sublist (state.uploads.take n) :=
        hseen.trans (List.take_sublist_take_left (by omega))
      have hfold : overlay listener.returnValue (stored outfit) =
          ((seen ++ [outfit]).map stored).foldl overlay Outfit.empty := by
        simp [hreturn]
      have hmem : ∀ earlier ∈ seen, earlier ∈ state.uploads :=
        fun earlier hearlier => List.mem_of_mem_take (hseen'.subset hearlier)
      have hkeyed : outfit.Keyed := hinv.uploads_keyed outfit (List.mem_of_getElem? houtfit)
      -- the versions seen before come before this upload, so it covers them
      have hcovers : ∀ earlier ∈ seen, Covers earlier outfit := by
        intro earlier hearlier
        have hpair : (state.uploads.take (n + 1)).Pairwise Covers :=
          hinv.covers.sublist (List.take_sublist _ _)
        rw [htake, List.pairwise_append] at hpair
        exact hpair.2.2 earlier (hseen'.subset hearlier) outfit (by simp)
      refine ⟨hlength, ?_, ?_, seen ++ [outfit], ?_, hfold⟩
      · rw [hfold]
        exact foldl_overlay_keyed _
      · rw [hfold, htake, List.getLast?_append]
        exact (visible_foldl_overlay_iff hkeyed).mpr (leavesNothingBehind_of_covers
          (fun earlier hearlier => hinv.uploads_keyed earlier (hmem earlier hearlier)) hcovers)
      · rw [htake]
        exact hseen'.append (.refl _)

theorem Consistent.uploadItem {state : OwnerState} (hinv : state.Consistent)
    (hkeeps : ∀ earlier ∈ state.uploads, Covers earlier state.picker.selectedItems) :
    state.uploadItem.Consistent := by
  refine ⟨hinv.keyed, ?_, ?_, ?_⟩
  · intro outfit houtfit
    rcases List.mem_append.mp houtfit with houtfit | houtfit
    · exact hinv.uploads_keyed outfit houtfit
    · rw [List.mem_singleton.mp houtfit]
      exact hinv.keyed
  · refine List.pairwise_append.mpr ⟨hinv.covers, List.pairwise_singleton _ _, ?_⟩
    intro earlier hearlier later hlater
    rw [List.mem_singleton.mp hlater]
    exact hkeeps earlier hearlier
  · intro listener hlistener
    obtain ⟨hnext, seen, hseen, hreturn⟩ := hinv.listeners listener hlistener
    refine ⟨by simp [OwnerState.uploadItem]; omega, seen, ?_, hreturn⟩
    -- the versions a listener is past are not affected by one more upload
    rwa [OwnerState.uploadItem, List.take_append_of_le_length (by omega)]

theorem Consistent.step {state next : OwnerState} {event : OwnerEvent} (hinv : state.Consistent)
    (hkeeps : state.KeepsCategories event) (hstep : Transition state event next) :
    next.Consistent := by
  cases hstep with
  | showPicker => exact ⟨hinv.keyed, hinv.uploads_keyed, hinv.covers, hinv.listeners⟩
  | edit order change =>
      exact ⟨PickerCombineViewModel.edit_keyed hinv.keyed order change, hinv.uploads_keyed,
        hinv.covers, hinv.listeners⟩
  | finishOutfit =>
      have hnew := hinv.uploadItem hkeeps
      exact ⟨hnew.keyed, hnew.uploads_keyed, hnew.covers, hnew.listeners⟩
  | cancelOutfit => exact ⟨hinv.keyed, hinv.uploads_keyed, hinv.covers, hinv.listeners⟩
  | appear => exact ⟨hinv.keyed, hinv.uploads_keyed, hinv.covers, hinv.listeners⟩
  | requestClothes =>
      refine ⟨hinv.keyed, hinv.uploads_keyed, hinv.covers, ?_⟩
      intro listener hlistener
      rcases List.mem_append.mp hlistener with hlistener | hlistener
      · exact hinv.listeners listener hlistener
      · rw [List.mem_singleton.mp hlistener]
        exact ⟨Nat.le_succ _, [], by simp, rfl⟩
  | deliver hlistener hnext hreceived =>
      obtain ⟨hversion, hkeyed, _, seen, hseen, hfold⟩ :=
        hinv.received (List.mem_of_getElem? hlistener) hnext hreceived
      refine ⟨hkeyed, hinv.uploads_keyed, hinv.covers, ?_⟩
      intro other hother
      rcases List.mem_or_eq_of_mem_set hother with hother | rfl
      · exact hinv.listeners other hother
      · exact ⟨by simpa using hversion, seen, hseen, hfold⟩

/-! ## After the last callback -/

/-- A callback for the latest version leaves the owner with the last upload. -/
theorem Consistent.deliver_latest {state : OwnerState} (hinv : state.Consistent)
    {index version : ℕ} {listener : ClothesListener} {received : Outfit}
    (hlistener : state.listeners[index]? = some listener) (hnext : listener.next ≤ version)
    (hreceived : Received state listener.returnValue version received)
    (hlatest : version = state.uploads.length) : received.visible = state.lastUpload.visible := by
  obtain ⟨_, _, hvisible, _⟩ := hinv.received (List.mem_of_getElem? hlistener) hnext hreceived
  rw [hlatest, List.take_length] at hvisible
  exact hvisible

/-- Only a callback leads to a settled state. -/
theorem settled_step {state next : OwnerState} {event : OwnerEvent} (hinv : state.Consistent)
    (hstep : Transition state event next) (hsettled : next.Settled) :
    next.picker.selectedItems.visible = next.lastUpload.visible := by
  obtain ⟨hsheet, hrequests, hseen⟩ := hsettled
  cases hstep with
  | showPicker => cases hsheet
  | edit order change hopen => exact absurd hsheet hopen
  | finishOutfit => exact absurd hrequests (Nat.succ_ne_zero _)
  | cancelOutfit => exact absurd hrequests (Nat.succ_ne_zero _)
  | appear => exact absurd hrequests (Nat.succ_ne_zero _)
  | requestClothes =>
      -- the new listener has yet to see the current version
      have hnew := hseen ⟨state.uploads.length, .empty⟩ (by simp)
      simp at hnew
  | @deliver index version listener received hlistener hnext hreceived =>
      refine hinv.deliver_latest hlistener hnext hreceived ?_
      have hindex : index < state.listeners.length := (List.getElem?_eq_some_iff.mp hlistener).1
      have hnew := hseen ⟨version + 1, received⟩ (List.mem_set hindex _)
      simpa using hnew

/-! ## Items that were taken off -/

theorem NothingReappears.edit {state : OwnerState} (hnothing : state.NothingReappears)
    (order : DeliveryOrder) (change : PickerCombineViewModel.Edit) :
    NothingReappears { state with
      picker := state.picker.edit order change
      picked := state.picked ++ pickedBy state.picker change } := by
  intro category cloth hcloth hvisible
  rcases PickerCombineViewModel.edit_origin hcloth hvisible with ⟨entry, hentry, hid⟩ | ⟨rfl, rfl⟩
  · have hentry' : entry.Visible := by
      rw [Cloth.Visible, hid]
      exact hvisible
    rcases hnothing category entry hentry hentry' with ⟨old, hold, holdId⟩ | hpicked
    · exact .inl ⟨old, hold, holdId.trans hid⟩
    · refine .inr (List.mem_append_left _ ?_)
      rwa [← hid]
  · exact .inr (List.mem_append_right _ (by simp [pickedBy]))

theorem NothingReappears.step {state next : OwnerState} {event : OwnerEvent}
    (hnothing : state.NothingReappears) (hinv : state.Consistent)
    (hlatest : state.DeliversLatest event) (hstep : Transition state event next) :
    next.NothingReappears := by
  cases hstep with
  | showPicker => exact hnothing
  | edit order change => exact hnothing.edit order change
  | finishOutfit =>
      intro category cloth hcloth _
      exact .inl ⟨cloth, by simpa [lastUpload, uploadItem] using hcloth, rfl⟩
  | cancelOutfit => exact hnothing
  | appear => exact hnothing
  | requestClothes => exact hnothing
  | deliver hlistener hnext hreceived =>
      have hvisible := hinv.deliver_latest hlistener hnext hreceived hlatest
      intro category cloth hcloth hcloth'
      have hshown : state.lastUpload.visible category = some cloth := by
        rw [← hvisible]
        exact Option.filter_eq_some_iff.mpr ⟨hcloth, decide_eq_true hcloth'⟩
      exact .inl ⟨cloth, (Option.filter_eq_some_iff.mp hshown).1, rfl⟩

/-! ## Whole runs -/

theorem start_consistent (order : DeliveryOrder) : (start order).Consistent :=
  ⟨PickerCombineViewModel.init_keyed order, by simp [start], by simp [start], by simp [start]⟩

theorem reaches_consistent {order : DeliveryOrder} {state : OwnerState}
    (hreach : Reaches step KeepsCategories (start order) state) : state.Consistent :=
  hreach.invariant (start_consistent order) fun _ _ _ hinv hkeeps hstep =>
    hinv.step hkeeps (transition_of_step hstep)

theorem reaches_settled {order : DeliveryOrder} {state : OwnerState}
    (hreach : Reaches step KeepsCategories (start order) state) (hsettled : state.Settled) :
    state.picker.selectedItems.visible = state.lastUpload.visible := by
  rcases Relation.ReflTransGen.cases_tail hreach with rfl | ⟨before, hbefore, event, _, hstep⟩
  · rw [start, PickerCombineViewModel.init_selectedItems]
    rfl
  · exact settled_step (reaches_consistent hbefore) (transition_of_step hstep) hsettled

theorem reaches_nothingReappears {order : DeliveryOrder} {state : OwnerState}
    (hreach : Reaches step (fun state event => state.KeepsCategories event ∧
      state.DeliversLatest event) (start order) state) :
    state.Consistent ∧ state.NothingReappears := by
  refine hreach.invariant (P := fun state => state.Consistent ∧ state.NothingReappears)
    ⟨start_consistent order, ?_⟩ fun _ _ _ hinv hallowed hstep =>
    ⟨hinv.1.step hallowed.1 (transition_of_step hstep),
      hinv.2.step hinv.1 hallowed.2 (transition_of_step hstep)⟩
  intro category cloth hcloth
  rw [start, PickerCombineViewModel.init_selectedItems] at hcloth
  simp at hcloth

/-- In every run whose uploads keep the categories that earlier uploads showed,
the owner is left with the last upload whenever all callbacks have run; if moreover
no callback runs for a version that was replaced, then at no time does an item
appear, in the picker or in the outfit that is uploaded next, that is neither in
the last upload nor chosen since. -/
theorem rounds_leave_last_upload (order : DeliveryOrder) :
    (∀ state, Reaches step KeepsCategories (start order) state → state.Settled →
        state.picker.selectedItems.visible = state.lastUpload.visible) ∧
      ∀ state, Reaches step (fun state event => state.KeepsCategories event ∧
        state.DeliversLatest event) (start order) state → state.NothingReappears :=
  ⟨fun _ hreach hsettled => reaches_settled hreach hsettled,
    fun _ hreach => (reaches_nothingReappears hreach).2⟩

/-- Two rounds: a cap is put on and uploaded, then reset and uploaded, and both
listeners see the second upload. -/
def resetRounds : List OwnerEvent :=
  [.showPicker, .edit .subscription (.selectItem (some "cap")), .finishOutfit, .requestClothes,
    .deliver 0 1, .showPicker, .edit .subscription .clearSelectedItem, .finishOutfit,
    .requestClothes, .deliver 1 2, .deliver 0 2]

/-- Two rounds in which the cap is taken off by tapping it again. -/
def tapRounds : List OwnerEvent :=
  [.showPicker, .edit .subscription (.selectItem (some "cap")), .finishOutfit, .requestClothes,
    .deliver 0 1, .showPicker, .edit .subscription (.selectItem (some "cap")), .finishOutfit,
    .requestClothes, .deliver 1 2, .deliver 0 2]

/-- After the reset rounds the owner is left with the last upload. -/
theorem resetRounds_leave_last_upload :
    ∃ state, Reaches step (fun state event => state.KeepsCategories event ∧
        state.DeliversLatest event) (start .subscription) state ∧
      (state.uploads.length = 2 ∧ state.Settled) ∧
      state.picker.selectedItems.visible = state.lastUpload.visible ∧ state.NothingReappears := by
  obtain ⟨state, hreach, hsettled⟩ : ∃ state, Reaches step (fun state event =>
      state.KeepsCategories event ∧ state.DeliversLatest event) (start .subscription) state ∧
      state.uploads.length = 2 ∧ state.Settled :=
    exists_reaches_of_run resetRounds (by decide)
  have hkeeps : Reaches step KeepsCategories (start .subscription) state :=
    hreach.mono fun _ _ hallowed => hallowed.1
  obtain ⟨hlast, hnothing⟩ := rounds_leave_last_upload .subscription
  exact ⟨state, hreach, hsettled, hlast state hkeeps hsettled.2, hnothing state hreach⟩

/-- The cap was taken off and the bare outfit uploaded; once all callbacks have
run, the owner wears the cap again. -/
theorem cap_comes_back :
    ∃ state, Reaches step (fun _ _ => True) (start .subscription) state ∧ state.Settled ∧
      state.lastUpload.visible .hat = none ∧
      state.picker.selectedItems.visible .hat = some ⟨"cap", "FFFFFF", .hat⟩ :=
  exists_reaches_of_run tapRounds (by decide)

end OwnerState

end Pompom
