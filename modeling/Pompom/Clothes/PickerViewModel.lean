import Pompom.Clothes.Cloth
import Mathlib.Data.List.Perm.Basic

/-!
# The clothes picker

`PickerCombineViewModel` of `UI/Cloth/ClothPicker/ClothPickerViewModel.swift`,
with the operations it inherits from `ClothesViewModel`.

The picker is wired up from two shared publishers.  The category publisher has
five subscribers and the colour publisher two; each of them sits behind its own
`removeDuplicates`, which compares with the last value that this subscriber
received.  `share()` hands the current value of the subject to the first
subscriber only.  Combine does not specify in which order a shared publisher
delivers to its subscribers, so every operation takes a `DeliveryOrder`;
`DeliveryOrder.subscription` is the order of subscription.

The grid offset is layout and is left out.
-/

namespace Pompom

/-! ## Subscribers -/

/-- The subscribers of the shared category publisher, named by what they set. -/
inductive CategorySubscriber where
  | currentCategory
  | currentPresets
  | currentItems
  | isColorEnable
  | setColorSubject
  deriving DecidableEq, Repr

/-- The subscribers of the shared colour publisher. -/
inductive ColorSubscriber where
  | currentHex
  | selectedItems
  deriving DecidableEq, Repr

def CategorySubscriber.allInOrder : List CategorySubscriber :=
  [.currentCategory, .currentPresets, .currentItems, .isColorEnable, .setColorSubject]

def ColorSubscriber.allInOrder : List ColorSubscriber :=
  [.currentHex, .selectedItems]

/-- An order in which the two shared publishers deliver one value to all of their
subscribers. -/
structure DeliveryOrder where
  category : List CategorySubscriber
  color : List ColorSubscriber
  category_perm : category.Perm CategorySubscriber.allInOrder
  color_perm : color.Perm ColorSubscriber.allInOrder

def DeliveryOrder.subscription : DeliveryOrder :=
  ⟨CategorySubscriber.allInOrder, ColorSubscriber.allInOrder, .refl _, .refl _⟩

/-! ## The tables -/

def presetDic : ClothCategory → Option (List String)
  | .hat => some ["FFFFFF", "000000", "325593", "2E614E", "AD5139", "DF002B", "6F6F71", "D0DBE2",
      "DAC7C5"]
  | .top => some ["FFFFFF", "000000", "BAD2F5", "C5C5C7", "23293F", "00914E", "FF5100", "3F2D24",
      "32323B", "FAF6EA", "E3EDE8", "F7EDF8"]
  | .bottom => some ["FFFFFF", "C5C5C7", "ACC8E0", "7489A3", "1D2433", "FAF3E6", "CBAF86", "6D7A3B"]
  | .shoes => some ["FFFFFF", "000000", "8D8983", "AC9F80"]
  | .accessories => some ["FFFFFF", "000000", "325593", "2E614E", "AD5139", "DF002B"]

def itemDic : ClothCategory → Option (List String)
  | .hat => some ["cap", "suncap"]
  | .top => some ["short", "long", "crop", "shirts", "shirtslong", "sleeveless", "pkshirts",
      "onepiece", "pkonepiece", "sleevelessonepiece", "linesleeveless", "offshoulder"]
  | .bottom => some ["shorts", "skinny", "tennisskirt", "skirtshort", "skirta", "long", "skirtlong"]
  | .shoes => some ["sandals", "flat", "slipper", "sneakers", "boots", "women"]
  | .accessories => some ["glasses", "sunglasses"]

/-! ## The view model -/

/-- The published properties, the values of the two `CurrentValueSubject`s and
the memory of the duplicate filters. -/
structure PickerCombineViewModel where
  selectedItems : Outfit := .empty
  currentCategory : ClothCategory := .hat
  currentHex : String := "FFFFFF"
  isColorEnable : Bool := true
  currentPresets : List String := []
  currentItems : List String := []
  setCategorySubject : ClothCategory := .hat
  setColorSubject : Option String := some "FFFFFF"
  lastCategory : CategorySubscriber → Option ClothCategory := fun _ => none
  lastColor : ColorSubscriber → Option String := fun _ => none

namespace PickerCombineViewModel

/-- `selectedItems[currentCategory]?.hex = hex`. -/
def recolor (vm : PickerCombineViewModel) (hex : String) : PickerCombineViewModel :=
  { vm with
    selectedItems := Function.update vm.selectedItems vm.currentCategory
      ((vm.selectedItems vm.currentCategory).map fun cloth => { cloth with hex := hex }) }

/-- The assignment of `currentHex` with its `didSet` observer. -/
def assignCurrentHex (vm : PickerCombineViewModel) (hex : String) : PickerCombineViewModel :=
  recolor { vm with currentHex := hex } hex

/-- What a colour subscriber does with a value that passed its filter. -/
def reactToColor (vm : PickerCombineViewModel) (hex : String) :
    ColorSubscriber → PickerCombineViewModel
  | .currentHex => vm.assignCurrentHex hex
  | .selectedItems => vm.recolor hex

/-- A colour reaches one subscriber: `replaceNil`, then `removeDuplicates`. -/
def receiveColor (hex : Option String) (vm : PickerCombineViewModel)
    (subscriber : ColorSubscriber) : PickerCombineViewModel :=
  let value := hex.getD "FFFFFF"
  if vm.lastColor subscriber = some value then vm
  else
    reactToColor
      { vm with lastColor := Function.update vm.lastColor subscriber (some value) } value subscriber

/-- `setColorSubject.send(hex)`. -/
def sendColor (order : DeliveryOrder) (vm : PickerCombineViewModel) (hex : Option String) :
    PickerCombineViewModel :=
  order.color.foldl (receiveColor hex) { vm with setColorSubject := hex }

/-- What a category subscriber does with a value that passed its filter. -/
def reactToCategory (order : DeliveryOrder) (vm : PickerCombineViewModel)
    (category : ClothCategory) : CategorySubscriber → PickerCombineViewModel
  | .currentCategory => { vm with currentCategory := category }
  | .currentPresets =>
      match presetDic category with
      | some presets => { vm with currentPresets := presets }
      | none => vm
  | .currentItems =>
      match itemDic category with
      | some items => { vm with currentItems := items }
      | none => vm
  | .isColorEnable => { vm with isColorEnable := category ≠ .accessories }
  | .setColorSubject =>
      match vm.selectedItems category with
      | some cloth => vm.sendColor order (some cloth.hex)
      | none => vm

/-- A category reaches one subscriber. -/
def receiveCategory (order : DeliveryOrder) (category : ClothCategory)
    (vm : PickerCombineViewModel) (subscriber : CategorySubscriber) : PickerCombineViewModel :=
  if vm.lastCategory subscriber = some category then vm
  else
    reactToCategory order
      { vm with lastCategory := Function.update vm.lastCategory subscriber (some category) }
      category subscriber

/-- `setCategorySubject.send(category)`. -/
def sendCategory (order : DeliveryOrder) (vm : PickerCombineViewModel)
    (category : ClothCategory) : PickerCombineViewModel :=
  order.category.foldl (receiveCategory order category) { vm with setCategorySubject := category }

/-- The subscriber of `selectItemSubject`. -/
def receiveItem (vm : PickerCombineViewModel) (cloth : Option Cloth) : PickerCombineViewModel :=
  { vm with selectedItems := Function.update vm.selectedItems vm.currentCategory cloth }

/-- The initialiser.  Each shared publisher connects at its first subscription,
so only its first subscriber receives the value the subject holds. -/
def init (order : DeliveryOrder) : PickerCombineViewModel :=
  let declared : PickerCombineViewModel := {}
  let categories := receiveCategory order declared.setCategorySubject declared .currentCategory
  let colors := receiveColor categories.setColorSubject categories .currentHex
  let started := colors.sendCategory order .hat
  started.receiveItem (started.selectedItems started.currentCategory)

def setCategory (order : DeliveryOrder) (vm : PickerCombineViewModel)
    (category : ClothCategory) : PickerCombineViewModel :=
  vm.sendCategory order category

def setColor (order : DeliveryOrder) (vm : PickerCombineViewModel) (hex : Option String) :
    PickerCombineViewModel :=
  vm.sendColor order hex

def selectItem (vm : PickerCombineViewModel) (name : Option String) : PickerCombineViewModel :=
  match name with
  | none => vm
  | some name =>
      if (vm.selectedItems vm.currentCategory).map (·.id) = some name then vm.receiveItem none
      else vm.receiveItem (some ⟨name, vm.currentHex, vm.currentCategory⟩)

/-- `ClothesViewModel.clearSelectedItem`. -/
def clearSelectedItem (vm : PickerCombineViewModel) : PickerCombineViewModel :=
  { vm with
    selectedItems := fun key => (vm.selectedItems key).map fun _ => ⟨" ", " ", key⟩ }

/-- The callback of `requestClothes`. -/
def load (vm : PickerCombineViewModel) (clothes : Outfit) : PickerCombineViewModel :=
  { vm with selectedItems := clothes }

/-! ## Edits -/

/-- What the user can do in the picker. -/
inductive Edit where
  | setCategory (category : ClothCategory)
  | setColor (hex : Option String)
  | selectItem (name : Option String)
  | clearSelectedItem
  deriving DecidableEq, Repr

def edit (order : DeliveryOrder) (vm : PickerCombineViewModel) : Edit → PickerCombineViewModel
  | .setCategory category => vm.setCategory order category
  | .setColor hex => vm.setColor order hex
  | .selectItem name => vm.selectItem name
  | .clearSelectedItem => vm.clearSelectedItem

/-- Outfits that some sequence of edits produces, each edit under some delivery
order. -/
inductive Edited : PickerCombineViewModel → Prop where
  | init (order : DeliveryOrder) : Edited (init order)
  | edit {vm : PickerCombineViewModel} (order : DeliveryOrder) (change : Edit) :
      Edited vm → Edited (vm.edit order change)

/-! ## Rules for the publishers

A property that survives what each subscriber does with a value survives the
delivery of the value, in every order. -/

theorem sendColor_rec {P : PickerCombineViewModel → Prop} {order : DeliveryOrder}
    {vm : PickerCombineViewModel} {hex : Option String}
    (hsubject : P { vm with setColorSubject := hex })
    (hlast : ∀ vm lastColor, P vm → P { vm with lastColor := lastColor })
    (hreact : ∀ vm subscriber, P vm → P (reactToColor vm (hex.getD "FFFFFF") subscriber)) :
    P (vm.sendColor order hex) := by
  refine List.foldlRecOn order.color (receiveColor hex) hsubject ?_
  intro state hstate subscriber _
  rw [receiveColor]
  split
  · exact hstate
  · exact hreact _ subscriber (hlast state _ hstate)

theorem sendCategory_rec {P : PickerCombineViewModel → Prop} {order : DeliveryOrder}
    {vm : PickerCombineViewModel} {category : ClothCategory}
    (hsubject : P { vm with setCategorySubject := category })
    (hlast : ∀ vm lastCategory, P vm → P { vm with lastCategory := lastCategory })
    (hreact : ∀ vm subscriber, P vm → P (reactToCategory order vm category subscriber)) :
    P (vm.sendCategory order category) := by
  refine List.foldlRecOn order.category (receiveCategory order category) hsubject ?_
  intro state hstate subscriber _
  rw [receiveCategory]
  split
  · exact hstate
  · exact hreact _ subscriber (hlast state _ hstate)

/-! ## Entries carry their category -/

theorem recolor_keyed {vm : PickerCombineViewModel} (hkeyed : vm.selectedItems.Keyed)
    (hex : String) : (vm.recolor hex).selectedItems.Keyed := by
  refine hkeyed.update ?_
  intro cloth hcloth
  obtain ⟨entry, hentry, rfl⟩ := Option.map_eq_some_iff.mp hcloth
  exact hkeyed _ entry hentry

theorem reactToColor_keyed {vm : PickerCombineViewModel} (hkeyed : vm.selectedItems.Keyed)
    (hex : String) (subscriber : ColorSubscriber) :
    (reactToColor vm hex subscriber).selectedItems.Keyed := by
  cases subscriber with
  | currentHex => exact @recolor_keyed { vm with currentHex := hex } hkeyed hex
  | selectedItems => exact recolor_keyed hkeyed hex

theorem sendColor_keyed {vm : PickerCombineViewModel} (hkeyed : vm.selectedItems.Keyed)
    (order : DeliveryOrder) (hex : Option String) :
    (vm.sendColor order hex).selectedItems.Keyed :=
  sendColor_rec (P := fun vm => vm.selectedItems.Keyed) hkeyed (fun _ _ h => h)
    fun _ subscriber h => reactToColor_keyed h _ subscriber

theorem reactToCategory_keyed {vm : PickerCombineViewModel} (hkeyed : vm.selectedItems.Keyed)
    (order : DeliveryOrder) (category : ClothCategory) (subscriber : CategorySubscriber) :
    (reactToCategory order vm category subscriber).selectedItems.Keyed := by
  cases subscriber with
  | currentCategory => exact hkeyed
  | currentPresets => simp only [reactToCategory]; split <;> exact hkeyed
  | currentItems => simp only [reactToCategory]; split <;> exact hkeyed
  | isColorEnable => exact hkeyed
  | setColorSubject =>
      simp only [reactToCategory]
      split
      · exact sendColor_keyed hkeyed order _
      · exact hkeyed

theorem sendCategory_keyed {vm : PickerCombineViewModel} (hkeyed : vm.selectedItems.Keyed)
    (order : DeliveryOrder) (category : ClothCategory) :
    (vm.sendCategory order category).selectedItems.Keyed :=
  sendCategory_rec (P := fun vm => vm.selectedItems.Keyed) hkeyed (fun _ _ h => h)
    fun _ subscriber h => reactToCategory_keyed h order category subscriber

theorem selectItem_keyed {vm : PickerCombineViewModel} (hkeyed : vm.selectedItems.Keyed)
    (name : Option String) : (vm.selectItem name).selectedItems.Keyed := by
  cases name with
  | none => exact hkeyed
  | some name =>
      simp only [selectItem]
      split
      · exact hkeyed.update fun cloth hcloth => by simp at hcloth
      · refine hkeyed.update ?_
        intro cloth hcloth
        obtain rfl := Option.some.inj hcloth
        rfl

theorem clearSelectedItem_keyed (vm : PickerCombineViewModel) :
    vm.clearSelectedItem.selectedItems.Keyed := by
  intro key cloth hcloth
  obtain ⟨_, _, rfl⟩ := Option.map_eq_some_iff.mp hcloth
  rfl

theorem edit_keyed {vm : PickerCombineViewModel} (hkeyed : vm.selectedItems.Keyed)
    (order : DeliveryOrder) (change : Edit) : (vm.edit order change).selectedItems.Keyed := by
  cases change with
  | setCategory category => exact sendCategory_keyed hkeyed order category
  | setColor hex => exact sendColor_keyed hkeyed order hex
  | selectItem name => exact selectItem_keyed hkeyed name
  | clearSelectedItem => exact clearSelectedItem_keyed vm

/-- A fresh picker wears nothing, in whatever order the initial values arrive. -/
theorem init_selectedItems (order : DeliveryOrder) : (init order).selectedItems = .empty := by
  have hrecolor : ∀ (vm : PickerCombineViewModel) hex, vm.selectedItems = .empty →
      (vm.recolor hex).selectedItems = .empty := by
    intro vm hex hempty
    simp only [recolor, hempty]
    exact Function.update_eq_self_iff.mpr rfl
  have hstarted : ∀ vm : PickerCombineViewModel, vm.selectedItems = .empty →
      (vm.sendCategory order .hat).selectedItems = .empty := by
    intro vm hempty
    refine sendCategory_rec (P := fun vm => vm.selectedItems = .empty) hempty (fun _ _ h => h) ?_
    intro vm subscriber hempty
    -- there is no item whose colour could be sent
    cases subscriber <;> simp only [reactToCategory] <;> (try split) <;> simp_all
  simp only [init, receiveItem, Function.update_eq_self]
  exact hstarted _ (hrecolor _ _ rfl)

theorem init_keyed (order : DeliveryOrder) : (init order).selectedItems.Keyed := by
  rw [init_selectedItems]
  exact Outfit.keyed_empty

/-- In every outfit that the picker produces, each entry carries its category. -/
theorem Edited.keyed {vm : PickerCombineViewModel} (hedited : Edited vm) :
    vm.selectedItems.Keyed := by
  induction hedited with
  | init order => exact init_keyed order
  | edit order change _ ih => exact edit_keyed ih order change

/-! ## Colours and categories leave the items alone -/

/-- The ids in the second state are those of the first. -/
def SameItems (vm next : PickerCombineViewModel) : Prop :=
  ∀ category, (next.selectedItems category).map Cloth.id = (vm.selectedItems category).map Cloth.id

theorem recolor_sameItems {vm next : PickerCombineViewModel} (hsame : SameItems vm next)
    (hex : String) : SameItems vm (next.recolor hex) := by
  intro category
  rw [← hsame category]
  by_cases hcurrent : category = next.currentCategory
  · subst hcurrent
    simp [recolor, Function.comp_def]
  · simp [recolor, hcurrent]

theorem reactToColor_sameItems {vm next : PickerCombineViewModel} (hsame : SameItems vm next)
    (hex : String) (subscriber : ColorSubscriber) :
    SameItems vm (reactToColor next hex subscriber) := by
  cases subscriber with
  | currentHex => exact @recolor_sameItems vm { next with currentHex := hex } hsame hex
  | selectedItems => exact recolor_sameItems hsame hex

theorem sendColor_sameItems {vm next : PickerCombineViewModel} (hsame : SameItems vm next)
    (order : DeliveryOrder) (hex : Option String) : SameItems vm (next.sendColor order hex) :=
  sendColor_rec (P := SameItems vm) hsame (fun _ _ h => h)
    fun _ subscriber h => reactToColor_sameItems h _ subscriber

theorem reactToCategory_sameItems {vm next : PickerCombineViewModel} (hsame : SameItems vm next)
    (order : DeliveryOrder) (category : ClothCategory) (subscriber : CategorySubscriber) :
    SameItems vm (reactToCategory order next category subscriber) := by
  cases subscriber with
  | currentCategory => exact hsame
  | currentPresets => simp only [reactToCategory]; split <;> exact hsame
  | currentItems => simp only [reactToCategory]; split <;> exact hsame
  | isColorEnable => exact hsame
  | setColorSubject =>
      simp only [reactToCategory]
      split
      · exact sendColor_sameItems hsame order _
      · exact hsame

theorem sendCategory_sameItems (vm : PickerCombineViewModel) (order : DeliveryOrder)
    (category : ClothCategory) : SameItems vm (vm.sendCategory order category) :=
  sendCategory_rec (P := SameItems vm) (fun _ => rfl) (fun _ _ h => h)
    fun _ subscriber h => reactToCategory_sameItems h order category subscriber

theorem SameItems.exists_id {vm next : PickerCombineViewModel} (hsame : SameItems vm next)
    {category : ClothCategory} {cloth : Cloth} (hcloth : next.selectedItems category = some cloth) :
    ∃ entry, vm.selectedItems category = some entry ∧ entry.id = cloth.id := by
  have hids := hsame category
  rw [hcloth, Option.map_some] at hids
  exact Option.map_eq_some_iff.mp hids.symm

/-- A visible item after an edit was there before, or the edit selected it. -/
theorem edit_origin {vm : PickerCombineViewModel} {order : DeliveryOrder} {change : Edit}
    {category : ClothCategory} {cloth : Cloth}
    (hcloth : (vm.edit order change).selectedItems category = some cloth)
    (hvisible : cloth.Visible) :
    (∃ entry, vm.selectedItems category = some entry ∧ entry.id = cloth.id) ∨
      (change = .selectItem (some cloth.id) ∧ category = vm.currentCategory) := by
  cases change with
  | setCategory category => exact .inl ((sendCategory_sameItems vm order category).exists_id hcloth)
  | setColor hex => exact .inl ((sendColor_sameItems (fun _ => rfl) order hex).exists_id hcloth)
  | clearSelectedItem =>
      obtain ⟨_, _, rfl⟩ := Option.map_eq_some_iff.mp hcloth
      exact absurd rfl hvisible.2
  | selectItem name =>
      cases name with
      | none => exact .inl ⟨cloth, hcloth, rfl⟩
      | some name =>
          by_cases hcurrent : category = vm.currentCategory
          · subst hcurrent
            simp only [edit, selectItem] at hcloth
            split at hcloth
            · simp [receiveItem] at hcloth
            · obtain rfl : _ = cloth := by simpa [receiveItem] using hcloth
              exact .inr ⟨rfl, rfl⟩
          · refine .inl ⟨cloth, ?_, rfl⟩
            simp only [edit, selectItem] at hcloth
            split at hcloth <;> simpa [receiveItem, hcurrent] using hcloth

end PickerCombineViewModel

end Pompom
