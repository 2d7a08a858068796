import Pompom.Clothes.ClothesManager
import Pompom.Clothes.PickerViewModel

/-!
# Sharing an outfit with the partner

The owner uploads outfits with `uploadItem`, which stores the encoding of
`selectedItems`; the partner registers a listener through
`requestPartnerClothes`, whose callback assigns the partner's `selectedItems`.
Firestore hands the listener some of the documents, in commit order and ending
with the latest.

Since the closure keeps its dictionary across snapshots, the partner sees, in
each category, the latest delivered document that stores an entry there
(`deliverAll_eq`).  The picker takes an item off by removing its key, and a
document without the key does not erase the entry the closure kept.  So the
partner ends with what the owner wears exactly when every category that the last
outfit leaves empty was empty or blank before (`LeavesNothingBehind`).  Items
taken off with `clearSelectedItem` meet this: it stores the id `" "`.
-/

namespace Pompom

open Lib ClothesManager

/-! ## A view model with a listener -/

/-- A `ClothesViewModel` together with the dictionary that the closure of its
listener captured. -/
structure ListenedOutfit where
  returnValue : Outfit
  selectedItems : Outfit

namespace ListenedOutfit

/-- `loadClothes` has just registered the listener. -/
def registered (selectedItems : Outfit) : ListenedOutfit :=
  ⟨.empty, selectedItems⟩

/-- The listener handles one event. -/
def handle (view : ListenedOutfit) (event : ListenerEvent) : Except LoadTrap ListenedOutfit := do
  let (returnValue, passed) ← loadClothesListener view.returnValue event
  return ⟨returnValue, passed.getD view.selectedItems⟩

/-- The listener handles the documents of the given outfits in turn. -/
def deliverAll (view : ListenedOutfit) (outfits : List Outfit) : Except LoadTrap ListenedOutfit :=
  outfits.foldlM (fun view outfit => view.handle (.document (some (parseClothes outfit)))) view

theorem handle_parseClothes (view : ListenedOutfit) (outfit : Outfit) :
    view.handle (.document (some (parseClothes outfit))) =
      .ok ⟨overlay view.returnValue (stored outfit), overlay view.returnValue (stored outfit)⟩ := by
  simp only [handle, loadClothesListener_parseClothes]
  rfl

/-- The captured dictionary after some documents is the overlay of what they
store, and it is what the last callback assigned. -/
theorem deliverAll_eq (view : ListenedOutfit) (outfits : List Outfit) (last : Outfit) :
    view.deliverAll (outfits ++ [last]) =
      .ok ⟨((outfits ++ [last]).map stored).foldl overlay view.returnValue,
        ((outfits ++ [last]).map stored).foldl overlay view.returnValue⟩ := by
  induction outfits generalizing view with
  | nil =>
      simp only [deliverAll, List.nil_append, List.foldlM_cons, List.foldlM_nil,
        handle_parseClothes]
      rfl
  | cons outfit rest ih =>
      have hfirst : view.deliverAll (outfit :: rest ++ [last]) =
          deliverAll ⟨overlay view.returnValue (stored outfit),
            overlay view.returnValue (stored outfit)⟩ (rest ++ [last]) := by
        simp only [deliverAll, List.cons_append, List.foldlM_cons, handle_parseClothes]
        rfl
      rw [hfirst, ih]
      rfl

end ListenedOutfit

/-! ## What remains of earlier outfits -/

/-- Outfits that the picker produces. -/
def Produced (outfit : Outfit) : Prop :=
  ∃ vm : PickerCombineViewModel, PickerCombineViewModel.Edited vm ∧ vm.selectedItems = outfit

theorem Produced.keyed {outfit : Outfit} (hproduced : Produced outfit) : outfit.Keyed := by
  obtain ⟨vm, hedited, rfl⟩ := hproduced
  exact hedited.keyed

/-- In every category that the last outfit leaves empty, the latest of the
earlier outfits with an entry there has a blank one. -/
def LeavesNothingBehind (seen : List Outfit) (last : Outfit) : Prop :=
  ∀ category, stored last category = none →
    ∀ cloth ∈ latest (seen.map stored) category, ¬ cloth.Visible

instance (seen : List Outfit) (last : Outfit) : Decidable (LeavesNothingBehind seen last) :=
  inferInstanceAs (Decidable (∀ _, _))

/-- The overlay of a list of stored outfits shows the last one exactly when
nothing is left behind. -/
theorem visible_foldl_overlay_iff {seen : List Outfit} {last : Outfit} (hkeyed : last.Keyed) :
    Outfit.visible (((seen ++ [last]).map stored).foldl overlay .empty) = last.visible ↔
      LeavesNothingBehind seen last := by
  have hshown : ∀ category, (((seen ++ [last]).map stored).foldl overlay Outfit.empty) category =
      (stored last category).or (latest (seen.map stored) category) := by
    intro category
    rw [foldl_overlay_apply, List.map_append, List.map_singleton, latest_append_singleton]
    simp
  -- the categories are independent of each other
  rw [funext_iff, LeavesNothingBehind]
  refine forall_congr' ?_
  intro category
  cases hstored : stored last category with
  | some cloth =>
      have hsame : (((seen ++ [last]).map stored).foldl overlay Outfit.empty) category =
          last category := by
        rw [hshown, hstored, eq_of_stored hkeyed hstored]
        rfl
      exact iff_of_true (Outfit.visible_congr hsame) (by simp)
  | none =>
      rw [visible_of_not_stored hkeyed hstored, Outfit.visible_eq_none_iff, hshown, hstored]
      simp

/-- The partner ends with exactly the visible entries of the owner's last outfit
if and only if the delivered outfits leave nothing behind. -/
theorem partner_wears_last_outfit_iff {uploads seen : List Outfit} {last : Outfit}
    (hproduced : ∀ outfit ∈ uploads ++ [last], Produced outfit)
    (_hseen : seen.Sublist uploads) (before : Outfit) :
    (∃ view, (ListenedOutfit.registered before).deliverAll (seen ++ [last]) = .ok view ∧
        view.selectedItems.visible = last.visible) ↔
      LeavesNothingBehind seen last := by
  have hkeyed : last.Keyed := (hproduced last (by simp)).keyed
  rw [ListenedOutfit.deliverAll_eq, ← visible_foldl_overlay_iff hkeyed]
  constructor
  · rintro ⟨view, hview, hvisible⟩
    obtain rfl := Except.ok.inj hview
    exact hvisible
  · intro hvisible
    exact ⟨_, rfl, hvisible⟩

/-! ### A cap is uploaded, then taken off -/

/-- The owner wears a cap. -/
def wearingCap : PickerCombineViewModel :=
  (PickerCombineViewModel.init .subscription).edit .subscription (.selectItem (some "cap"))

/-- The owner taps the cap again. -/
def capTappedAgain : PickerCombineViewModel :=
  wearingCap.edit .subscription (.selectItem (some "cap"))

/-- The owner resets the outfit. -/
def capCleared : PickerCombineViewModel :=
  wearingCap.edit .subscription .clearSelectedItem

/-- The picker produces the cap, and what one more edit makes of it. -/
theorem produced_wearingCap_edit (change : PickerCombineViewModel.Edit) :
    ∀ outfit ∈ [wearingCap.selectedItems] ++
      [(wearingCap.edit .subscription change).selectedItems], Produced outfit := by
  have hedited : PickerCombineViewModel.Edited wearingCap := .edit _ _ (.init _)
  intro outfit houtfit
  rcases List.mem_cons.mp houtfit with rfl | houtfit
  · exact ⟨_, hedited, rfl⟩
  · obtain rfl := List.mem_singleton.mp houtfit
    exact ⟨_, .edit _ _ hedited, rfl⟩

/-- After a reset the partner's figure is bare, as the owner's is. -/
theorem partner_sees_reset :
    ∃ view, (ListenedOutfit.registered .empty).deliverAll
        ([wearingCap.selectedItems] ++ [capCleared.selectedItems]) = .ok view ∧
      view.selectedItems.visible = capCleared.selectedItems.visible := by
  have hproduced := produced_wearingCap_edit .clearSelectedItem
  exact (partner_wears_last_outfit_iff hproduced (.refl [wearingCap.selectedItems]) _).mpr
    (by decide)

/-- After the cap is tapped again the owner wears nothing and the partner still
sees the cap. -/
theorem partner_keeps_cap :
    (∀ outfit ∈ [wearingCap.selectedItems] ++ [capTappedAgain.selectedItems], Produced outfit) ∧
      ∃ view, (ListenedOutfit.registered .empty).deliverAll
          ([wearingCap.selectedItems] ++ [capTappedAgain.selectedItems]) = .ok view ∧
        capTappedAgain.selectedItems.visible .hat = none ∧
        view.selectedItems.visible .hat = some ⟨"cap", "FFFFFF", .hat⟩ := by
  refine ⟨produced_wearingCap_edit (.selectItem (some "cap")), ?_⟩
  exact ⟨_, ListenedOutfit.deliverAll_eq _ _ _, by decide, by decide⟩

end Pompom
