import Pompom.Clothes.OutfitSharing

/-!
# Failed loads

Firestore reports a failed listener with an error and without a snapshot.  The
closure of `loadClothes` asks for the data of the snapshot before it looks at the
error, so a failure takes the path of a missing document: the completion is called
with the captured dictionary and `selectedItems` becomes what the snapshots so far
have written.  The branch that only prints the error is not reached.

Between the events the user edits `selectedItems`, and other listeners assign it;
both appear here as arbitrary assignments.  A failure leaves the outfit on the
screen as it is exactly when the outfit is what the snapshots have written
(`failed_load_keeps_outfit_iff`).
-/

namespace Pompom

open Lib ClothesManager

/-- The event of a listener that failed. -/
def ClothesManager.ListenerEvent.failed (error : String) : ListenerEvent :=
  ⟨none, some error⟩

/-- What happens to a view model with a listener. -/
inductive ViewStep where
  /-- A snapshot of the document, which may not exist. -/
  | snapshot (data : Option Document)
  | failure (error : String)
  /-- An edit of `selectedItems` from elsewhere. -/
  | assign (selectedItems : Outfit)

namespace ListenedOutfit

def viewStep (view : ListenedOutfit) : ViewStep → Except LoadTrap ListenedOutfit
  | .snapshot data => view.handle (.document data)
  | .failure error => view.handle (.failed error)
  | .assign selectedItems => .ok { view with selectedItems := selectedItems }

def afterViewSteps (view : ListenedOutfit) (steps : List ViewStep) :
    Except LoadTrap ListenedOutfit :=
  steps.foldlM viewStep view

/-- What one step adds to the entries that the snapshots have written. -/
def written (returnValue : Outfit) : ViewStep → Except LoadTrap Outfit
  | .snapshot (some data) => ClothCategory.allCases.foldlM (loadCategory data) returnValue
  | _ => .ok returnValue

/-- A failure passes the captured dictionary on. -/
theorem handle_failed (view : ListenedOutfit) (error : String) :
    view.handle (.failed error) = .ok ⟨view.returnValue, view.returnValue⟩ :=
  rfl

/-- The captured dictionary moves by what the step writes. -/
theorem written_of_viewStep {view next : ListenedOutfit} {step : ViewStep}
    (hstep : view.viewStep step = .ok next) :
    written view.returnValue step = .ok next.returnValue := by
  cases step with
  | snapshot data =>
      cases data with
      | none =>
          obtain rfl := Except.ok.inj hstep
          rfl
      | some data =>
          simp only [viewStep, handle, loadClothesListener, ListenerEvent.document,
            Option.join_some] at hstep
          rw [written]
          cases hloop : ClothCategory.allCases.foldlM (loadCategory data) view.returnValue with
          | error trap =>
              rw [hloop] at hstep
              exact absurd hstep (by intro h; cases h)
          | ok loaded =>
              rw [hloop] at hstep
              obtain rfl := Except.ok.inj hstep
              rfl
  | failure error =>
      obtain rfl := Except.ok.inj hstep
      rfl
  | assign selectedItems =>
      obtain rfl := Except.ok.inj hstep
      rfl

/-- After any steps the captured dictionary is what the snapshots among them have
written. -/
theorem written_of_afterViewSteps {view final : ListenedOutfit} {steps : List ViewStep}
    (hrun : view.afterViewSteps steps = .ok final) :
    steps.foldlM written view.returnValue = .ok final.returnValue := by
  induction steps generalizing view with
  | nil =>
      obtain rfl := Except.ok.inj hrun
      rfl
  | cons step rest ih =>
      rw [afterViewSteps, List.foldlM_cons] at hrun
      cases hstep : view.viewStep step with
      | error trap =>
          rw [hstep] at hrun
          exact absurd hrun (by intro h; cases h)
      | ok next =>
          rw [hstep] at hrun
          rw [List.foldlM_cons, written_of_viewStep hstep]
          exact ih hrun

/-- A failure leaves the outfit on the screen as it is if and only if the outfit is
what the snapshots so far have written. -/
theorem failed_load_keeps_outfit_iff (before : Outfit) (steps : List ViewStep)
    {view : ListenedOutfit} (hrun : (registered before).afterViewSteps steps = .ok view)
    (error : String) :
    (∃ next, view.viewStep (.failure error) = .ok next ∧
        next.selectedItems = view.selectedItems) ↔
      steps.foldlM written .empty = .ok view.selectedItems := by
  have hwritten : steps.foldlM written .empty = .ok view.returnValue :=
    written_of_afterViewSteps hrun
  rw [hwritten, viewStep, handle_failed]
  constructor
  · intro hkept
    obtain ⟨next, hnext, hsame⟩ := hkept
    obtain rfl := Except.ok.inj hnext
    exact congrArg Except.ok hsame
  · intro hsame
    exact ⟨_, rfl, Except.ok.inj hsame⟩

/-! ### A cap is put on, then the listener fails -/

/-- The user has no stored outfit and puts on a cap. -/
def capPutOn : List ViewStep :=
  [.snapshot none, .assign wearingCap.selectedItems]

theorem afterViewSteps_capPutOn :
    (registered .empty).afterViewSteps capPutOn = .ok ⟨.empty, wearingCap.selectedItems⟩ :=
  rfl

/-- The failure takes the cap off. -/
theorem failure_takes_cap_off :
    ¬ ∀ (before : Outfit) (steps : List ViewStep) (view : ListenedOutfit),
      (registered before).afterViewSteps steps = .ok view → ∀ error : String,
        ∃ next, view.viewStep (.failure error) = .ok next ∧
          next.selectedItems = view.selectedItems := by
  intro hkeeps
  obtain ⟨next, hnext, hsame⟩ := hkeeps .empty capPutOn _ afterViewSteps_capPutOn "unavailable"
  obtain rfl := Except.ok.inj hnext
  exact absurd (congrFun hsame .hat) (by decide)

/-- The cap is uploaded, and the listener is told of it. -/
def capUploaded : List ViewStep :=
  capPutOn ++ [.snapshot (some (parseClothes wearingCap.selectedItems))]

theorem afterViewSteps_capUploaded :
    (registered .empty).afterViewSteps capUploaded =
      .ok ⟨overlay Outfit.empty (stored wearingCap.selectedItems),
        overlay Outfit.empty (stored wearingCap.selectedItems)⟩ := by
  have hsnapshot : viewStep ⟨.empty, wearingCap.selectedItems⟩
      (.snapshot (some (parseClothes wearingCap.selectedItems))) =
        .ok ⟨overlay Outfit.empty (stored wearingCap.selectedItems),
          overlay Outfit.empty (stored wearingCap.selectedItems)⟩ := by
    rw [viewStep, handle, loadClothesListener_parseClothes]
    rfl
  rw [afterViewSteps, capUploaded, List.foldlM_append, ← afterViewSteps, afterViewSteps_capPutOn]
  exact hsnapshot

/-- Once the cap is stored it stays on when the listener fails. -/
theorem failure_keeps_stored_cap :
    ∃ view next, (registered .empty).afterViewSteps capUploaded = .ok view ∧
      view.viewStep (.failure "unavailable") = .ok next ∧
      next.selectedItems = view.selectedItems ∧
      next.selectedItems.visible .hat = some ⟨"cap", "FFFFFF", .hat⟩ := by
  have hwritten : capUploaded.foldlM written .empty =
      .ok (overlay Outfit.empty (stored wearingCap.selectedItems)) :=
    written_of_afterViewSteps afterViewSteps_capUploaded
  obtain ⟨next, hnext, hsame⟩ := (failed_load_keeps_outfit_iff .empty capUploaded
    afterViewSteps_capUploaded "unavailable").mpr hwritten
  refine ⟨_, next, afterViewSteps_capUploaded, hnext, hsame, ?_⟩
  rw [hsame]
  decide

end ListenedOutfit

end Pompom
