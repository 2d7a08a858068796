import Pompom.Clothes.PickerWiring

/-!
# The two pickers

`UI/Cloth/ClothPicker/ClothPickerViewModel.swift` holds two pickers: the original
`PickerViewModel`, which changes its dictionary in place and marks an item that was
taken off with the id `" "`, and `PickerCombineViewModel`, which removes the key and
applies colours through its publishers.

Both implement the same abstract picker: a category and the items being worn, with
four operations.  `PickerCombineViewModel.worn_*` and `PickerViewModel.worn_*` say
that each operation of the two models commutes with the abstraction; for the publishers
this needs that the current colour is the colour of the item being worn, since a
colour that the filters drop is then already there.  Hence the two pickers agree
after every sequence of operations (`pickers_agree`).

`addPreset` is not called and is left out, so the tables are constants.
-/

namespace Pompom

/-! ## The abstract picker -/

/-- The entries that are worn: those whose id is not the mark `" "`. -/
def Outfit.worn (outfit : Outfit) : Outfit :=
  fun category => (outfit category).filter fun cloth => cloth.id ≠ " "

/-- What both pickers are for: a current category and the items being worn. -/
structure WornOutfit where
  category : ClothCategory
  items : Outfit

namespace WornOutfit

def choose (state : WornOutfit) (category : ClothCategory) : WornOutfit :=
  { state with category := category }

/-- The item of the current category gets a colour. -/
def paint (state : WornOutfit) (hex : String) : WornOutfit :=
  { state with
    items := Function.update state.items state.category
      ((state.items state.category).map fun cloth => { cloth with hex := hex }) }

/-- An item is taken off if it is worn and put on otherwise. -/
def tap (state : WornOutfit) (name hex : String) : WornOutfit :=
  { state with
    items := Function.update state.items state.category
      (if (state.items state.category).map (·.id) = some name then none
        else some ⟨name, hex, state.category⟩) }

def clear (state : WornOutfit) : WornOutfit :=
  { state with items := .empty }

end WornOutfit

theorem Outfit.worn_update (outfit : Outfit) (category : ClothCategory) (entry : Option Cloth) :
    Outfit.worn (Function.update outfit category entry) =
      Function.update outfit.worn category (entry.filter fun cloth => cloth.id ≠ " ") := by
  funext other
  by_cases hother : other = category
  · subst hother
    simp [worn]
  · simp [worn, hother]

/-- Clearing marks every entry. -/
theorem Outfit.worn_marked (outfit : Outfit) :
    Outfit.worn (fun key => (outfit key).map fun _ => ⟨" ", " ", key⟩) = .empty := by
  funext category
  cases hentry : outfit category with
  | none => simp [worn, hentry]
  | some cloth => simp [worn, hentry]

theorem Outfit.worn_map_id_iff (outfit : Outfit) (category : ClothCategory) {name : String}
    (hname : name ≠ " ") :
    (outfit.worn category).map (·.id) = some name ↔ (outfit category).map (·.id) = some name := by
  cases hentry : outfit category with
  | none => simp [worn, hentry]
  | some cloth =>
      by_cases hmark : cloth.id = " "
      · simp [worn, hentry, hmark, hname.symm]
      · simp [worn, hentry, hmark]

/-- Painting all entries or only those being worn comes to the same. -/
theorem Outfit.filter_map_hex (entry : Option Cloth) (hex : String) :
    (entry.map fun cloth => ({ cloth with hex := hex } : Cloth)).filter
        (fun cloth => cloth.id ≠ " ") =
      (entry.filter fun cloth => cloth.id ≠ " ").map fun cloth => { cloth with hex := hex } := by
  cases entry with
  | none => rfl
  | some cloth => by_cases hmark : cloth.id = " " <;> simp [Option.filter, hmark]

/-! ## The original picker -/

structure PickerViewModel where
  selectedItems : Outfit := .empty
  currentType : ClothCategory := .hat
  currentPresets : List String := []
  currentItems : List String := []

namespace PickerViewModel

/-- The same table as `presetDic`. -/
def presets : ClothCategory → Option (List String) := presetDic

def items : ClothCategory → Option (List String)
  | .hat => some ["cap", "suncap"]
  | .top => some ["short", "long", "crop", "shirts", "shirtslong", "sleeveless", "pkshirts",
      "onepiece", "pkonepiece", "lineonepiece", "linesleeveless", "offshoulder"]
  | .bottom => some ["shorts", "skinny", "tennisskirt", "skirtshort", "skirta", "long", "skirtlong"]
  | .shoes => some ["sandals", "flat", "slipper", "sneakers", "boots", "women"]
  | .accessories => some ["glasses", "sunglasses"]

def changeCategory (vm : PickerViewModel) (category : ClothCategory) : PickerViewModel :=
  { vm with
    currentType := category
    currentPresets := (presets category).getD []
    currentItems := (items category).getD [] }

def init : PickerViewModel :=
  changeCategory {} .hat

def changeSelectedColor (vm : PickerViewModel) (hex : String) : PickerViewModel :=
  match vm.selectedItems vm.currentType with
  | some cloth =>
      { vm with
        selectedItems :=
          Function.update vm.selectedItems vm.currentType (some { cloth with hex := hex }) }
  | none => vm

def selectItem (vm : PickerViewModel) (name hex : String) : PickerViewModel :=
  match vm.selectedItems vm.currentType with
  | some cloth =>
      if cloth.id = name then
        { vm with
          selectedItems :=
            Function.update vm.selectedItems vm.currentType (some ⟨" ", hex, vm.currentType⟩) }
      else
        -- an entry that exists is changed rather than replaced
        { vm with
          selectedItems :=
            Function.update vm.selectedItems vm.currentType
              (some { cloth with hex := hex, id := name }) }
  | none =>
      { vm with
        selectedItems :=
          Function.update vm.selectedItems vm.currentType (some ⟨name, hex, vm.currentType⟩) }

/-- `ClothesViewModel.clearSelectedItem`. -/
def clearSelectedItem (vm : PickerViewModel) : PickerViewModel :=
  { vm with selectedItems := fun key => (vm.selectedItems key).map fun _ => ⟨" ", " ", key⟩ }

/-- The abstract picker that this one implements. -/
def wornOutfit (vm : PickerViewModel) : WornOutfit :=
  ⟨vm.currentType, vm.selectedItems.worn⟩

theorem worn_changeCategory (vm : PickerViewModel) (category : ClothCategory) :
    (vm.changeCategory category).wornOutfit = vm.wornOutfit.choose category :=
  rfl

theorem worn_changeSelectedColor (vm : PickerViewModel) (hex : String) :
    (vm.changeSelectedColor hex).wornOutfit = vm.wornOutfit.paint hex := by
  have heq : vm.changeSelectedColor hex = { vm with
      selectedItems := Function.update vm.selectedItems vm.currentType
        ((vm.selectedItems vm.currentType).map fun cloth => { cloth with hex := hex }) } := by
    unfold changeSelectedColor
    cases hcloth : vm.selectedItems vm.currentType with
    | none => rw [Option.map_none, Function.update_eq_self_iff.mpr hcloth.symm]
    | some cloth => rfl
  simp only [heq, wornOutfit, WornOutfit.paint, Outfit.worn_update, Outfit.filter_map_hex]
  rfl

theorem worn_selectItem {vm : PickerViewModel} (hkeyed : vm.selectedItems.Keyed) {name : String}
    (hname : name ≠ " ") (hex : String) :
    (vm.selectItem name hex).wornOutfit = vm.wornOutfit.tap name hex := by
  have htap := Outfit.worn_map_id_iff vm.selectedItems vm.currentType hname
  simp only [WornOutfit.tap, wornOutfit, htap, selectItem]
  cases hcloth : vm.selectedItems vm.currentType with
  | none => simp [Outfit.worn_update, Option.filter, hname]
  | some cloth =>
      have hcategory : cloth.category = vm.currentType := hkeyed _ cloth hcloth
      by_cases hid : cloth.id = name
      · simp [hid, Outfit.worn_update, Option.filter]
      · simp [hid, hname, hcategory, Outfit.worn_update, Option.filter]

theorem worn_clearSelectedItem (vm : PickerViewModel) :
    vm.clearSelectedItem.wornOutfit = vm.wornOutfit.clear := by
  simp only [clearSelectedItem, wornOutfit, Outfit.worn_marked]
  rfl

theorem changeSelectedColor_keyed {vm : PickerViewModel} (hkeyed : vm.selectedItems.Keyed)
    (hex : String) : (vm.changeSelectedColor hex).selectedItems.Keyed := by
  unfold changeSelectedColor
  split
  · rename_i cloth hcloth
    refine hkeyed.update ?_
    intro painted hpainted
    obtain rfl := Option.some.inj hpainted
    exact hkeyed _ cloth hcloth
  · exact hkeyed

theorem selectItem_keyed {vm : PickerViewModel} (hkeyed : vm.selectedItems.Keyed)
    (name hex : String) : (vm.selectItem name hex).selectedItems.Keyed := by
  unfold selectItem
  split
  · rename_i cloth hcloth
    split <;> refine hkeyed.update ?_ <;> intro chosen hchosen <;>
      obtain rfl := Option.some.inj hchosen
    · rfl
    · exact hkeyed _ cloth hcloth
  · refine hkeyed.update ?_
    intro chosen hchosen
    obtain rfl := Option.some.inj hchosen
    rfl

theorem clearSelectedItem_keyed (vm : PickerViewModel) :
    vm.clearSelectedItem.selectedItems.Keyed := by
  intro key cloth hcloth
  obtain ⟨_, _, rfl⟩ := Option.map_eq_some_iff.mp hcloth
  rfl

end PickerViewModel

/-! ## The Combine picker -/

namespace PickerCombineViewModel

/-- The abstract picker that this one implements. -/
def wornOutfit (vm : PickerCombineViewModel) : WornOutfit :=
  ⟨vm.currentCategory, vm.selectedItems.worn⟩

/-- The item being worn has the current colour, by the test of the mark `" "`. -/
def ShowsColor (vm : PickerCombineViewModel) : Prop :=
  ∀ cloth, vm.selectedItems vm.currentCategory = some cloth → cloth.id ≠ " " →
    vm.currentHex = cloth.hex

theorem worn_setCategory {vm : PickerCombineViewModel} (hwired : vm.Wired)
    (category : ClothCategory) :
    (vm.setCategory .subscription category).wornOutfit = vm.wornOutfit.choose category := by
  have hfirst : DeliveryOrder.subscription.CategoryFirst := by decide
  simp only [wornOutfit, setCategory_currentCategory hwired,
    setCategory_selectedItems_of_first hwired hfirst]
  rfl

theorem worn_setColor {vm : PickerCombineViewModel} (hwired : vm.Wired) (hshows : vm.ShowsColor)
    (order : DeliveryOrder) (hex : String) :
    (vm.setColor order (some hex)).wornOutfit = vm.wornOutfit.paint hex := by
  rw [setColor, sendColor_eq hwired.hex, Option.getD_some]
  split
  · -- a colour that is dropped is the current one, and so that of the item
    rename_i hdrop
    have hpainted : (vm.selectedItems.worn vm.currentCategory).map
        (fun cloth => { cloth with hex := hex }) = vm.selectedItems.worn vm.currentCategory := by
      cases hworn : vm.selectedItems.worn vm.currentCategory with
      | none => rfl
      | some cloth =>
          obtain ⟨hcloth, hmark⟩ := Option.filter_eq_some_iff.mp hworn
          have hcurrent : vm.currentHex = cloth.hex := hshows cloth hcloth (by simpa using hmark)
          have hhex : hex = cloth.hex := hdrop.1.symm.trans hcurrent
          simp [hhex]
    simp only [WornOutfit.paint, wornOutfit, hpainted, Function.update_eq_self]
    rfl
  · simp only [recolor, wornOutfit, WornOutfit.paint, Outfit.worn_update, Outfit.filter_map_hex]
    rfl

theorem worn_selectItem (vm : PickerCombineViewModel) {name : String} (hname : name ≠ " ") :
    (vm.selectItem (some name)).wornOutfit = vm.wornOutfit.tap name vm.currentHex := by
  have htap := Outfit.worn_map_id_iff vm.selectedItems vm.currentCategory hname
  simp only [WornOutfit.tap, wornOutfit, htap, selectItem]
  split <;> simp [receiveItem, Outfit.worn_update, Option.filter, hname]

theorem worn_clearSelectedItem (vm : PickerCombineViewModel) :
    vm.clearSelectedItem.wornOutfit = vm.wornOutfit.clear := by
  simp only [clearSelectedItem, wornOutfit, Outfit.worn_marked]
  rfl

theorem setCategory_showsColor {vm : PickerCombineViewModel} (hwired : vm.Wired)
    (hshows : vm.ShowsColor) (category : ClothCategory) :
    (vm.setCategory .subscription category).ShowsColor := by
  intro cloth hcloth hmark
  rw [setCategory_currentCategory hwired,
    setCategory_selectedItems_of_first hwired (by decide)] at hcloth
  by_cases hsame : category = vm.currentCategory
  · rw [hsame, setCategory_current hwired]
    exact hshows cloth (hsame ▸ hcloth) hmark
  · exact setCategory_currentHex hwired .subscription hsame hcloth

theorem setColor_showsColor {vm : PickerCombineViewModel} (hwired : vm.Wired)
    (hshows : vm.ShowsColor) (order : DeliveryOrder) (hex : String) :
    (vm.setColor order (some hex)).ShowsColor := by
  rw [setColor, sendColor_eq hwired.hex, Option.getD_some]
  split
  · rename_i hdrop
    intro cloth hcloth hmark
    exact hdrop.1.symm.trans (hshows cloth hcloth hmark)
  · intro cloth hcloth _
    exact (recolor_current (vm.showing (some hex)) hex hcloth).symm

theorem selectItem_showsColor (vm : PickerCombineViewModel) (name : String) :
    (vm.selectItem (some name)).ShowsColor := by
  simp only [selectItem]
  split
  · intro cloth hcloth _
    simp [receiveItem] at hcloth
  · intro cloth hcloth _
    simp only [receiveItem, Function.update_self, Option.some.injEq] at hcloth
    subst hcloth
    rfl

theorem clearSelectedItem_showsColor (vm : PickerCombineViewModel) :
    vm.clearSelectedItem.ShowsColor := by
  intro cloth hcloth hmark
  obtain ⟨_, _, rfl⟩ := Option.map_eq_some_iff.mp hcloth
  exact absurd rfl hmark

end PickerCombineViewModel

/-! ## The two pickers side by side -/

/-- What the user does, in either picker. -/
inductive PickerOperation where
  | setCategory (category : ClothCategory)
  | setColor (hex : String)
  | selectItem (name : String)
  | clearSelectedItem
  deriving DecidableEq, Repr

/-- The two pickers, used by the same user. -/
structure PickerPair where
  combine : PickerCombineViewModel
  original : PickerViewModel

namespace PickerPair

def init : PickerPair := ⟨.init .subscription, .init⟩

/-- The original picker is given the colour that the other one shows. -/
def perform (pair : PickerPair) : PickerOperation → PickerPair
  | .setCategory category =>
      ⟨pair.combine.setCategory .subscription category, pair.original.changeCategory category⟩
  | .setColor hex =>
      ⟨pair.combine.setColor .subscription (some hex), pair.original.changeSelectedColor hex⟩
  | .selectItem name =>
      ⟨pair.combine.selectItem (some name), pair.original.selectItem name pair.combine.currentHex⟩
  | .clearSelectedItem => ⟨pair.combine.clearSelectedItem, pair.original.clearSelectedItem⟩

def afterOperations (operations : List PickerOperation) : PickerPair :=
  operations.foldl perform init

/-- Both pickers implement one abstract state, and each is in the condition that its
operations rely on. -/
structure Simulates (pair : PickerPair) : Prop where
  worn : pair.combine.wornOutfit = pair.original.wornOutfit
  wired : pair.combine.Wired
  shows : pair.combine.ShowsColor
  keyed : pair.original.selectedItems.Keyed

theorem init_simulates : init.Simulates := by
  refine ⟨?_, PickerCombineViewModel.init_wired _, ?_, Outfit.keyed_empty⟩
  · simp only [init, PickerCombineViewModel.wornOutfit, PickerCombineViewModel.init_selectedItems]
    rfl
  · intro cloth hcloth
    simp only [init, PickerCombineViewModel.init_selectedItems] at hcloth
    simp at hcloth

/-- Every operation keeps the two pickers on one abstract state. -/
theorem perform_simulates {pair : PickerPair} (hsim : pair.Simulates)
    {operation : PickerOperation} (hname : ∀ name, operation = .selectItem name → name ≠ " ") :
    (pair.perform operation).Simulates := by
  obtain ⟨hworn, hwired, hshows, hkeyed⟩ := hsim
  cases operation with
  | setCategory category =>
      refine ⟨?_, PickerCombineViewModel.setCategory_wired hwired _ category,
        PickerCombineViewModel.setCategory_showsColor hwired hshows category, hkeyed⟩
      rw [perform, PickerCombineViewModel.worn_setCategory hwired,
        PickerViewModel.worn_changeCategory, hworn]
  | setColor hex =>
      refine ⟨?_, PickerCombineViewModel.setColor_wired hwired _ _,
        PickerCombineViewModel.setColor_showsColor hwired hshows _ hex,
        PickerViewModel.changeSelectedColor_keyed hkeyed hex⟩
      rw [perform, PickerCombineViewModel.worn_setColor hwired hshows,
        PickerViewModel.worn_changeSelectedColor, hworn]
  | selectItem name =>
      refine ⟨?_, PickerCombineViewModel.edit_wired hwired .subscription (.selectItem (some name)),
        PickerCombineViewModel.selectItem_showsColor _ name,
        PickerViewModel.selectItem_keyed hkeyed name _⟩
      rw [perform, PickerCombineViewModel.worn_selectItem _ (hname name rfl),
        PickerViewModel.worn_selectItem hkeyed (hname name rfl), hworn]
  | clearSelectedItem =>
      refine ⟨?_, PickerCombineViewModel.edit_wired hwired .subscription .clearSelectedItem,
        PickerCombineViewModel.clearSelectedItem_showsColor _,
        PickerViewModel.clearSelectedItem_keyed _⟩
      rw [perform, PickerCombineViewModel.worn_clearSelectedItem,
        PickerViewModel.worn_clearSelectedItem, hworn]

theorem afterOperations_simulates {operations : List PickerOperation}
    (hnames : ∀ name, .selectItem name ∈ operations → name ≠ " ") :
    (afterOperations operations).Simulates := by
  refine List.foldlRecOn operations perform init_simulates ?_
  intro pair hsim operation hmem
  refine perform_simulates hsim ?_
  intro name hoperation
  exact hnames name (hoperation ▸ hmem)

/-- After every prefix of a sequence of operations the two pickers show the same
category and wear the same items. -/
theorem pickers_agree {operations earlier : List PickerOperation}
    (hnames : ∀ name, .selectItem name ∈ operations → name ≠ "" ∧ name ≠ " ")
    (hearlier : earlier <+: operations) :
    (afterOperations earlier).combine.currentCategory =
        (afterOperations earlier).original.currentType ∧
      (afterOperations earlier).combine.selectedItems.worn =
        (afterOperations earlier).original.selectedItems.worn := by
  have hsim : (afterOperations earlier).Simulates :=
    afterOperations_simulates fun name hmem => (hnames name (hearlier.subset hmem)).2
  exact ⟨congrArg WornOutfit.category hsim.worn, congrArg WornOutfit.items hsim.worn⟩

/-- A shirt is put on, painted and taken off, and then a cap is put on. -/
def shirtThenCap : List PickerOperation :=
  [.setCategory .top, .selectItem "short", .setColor "000000", .selectItem "short",
    .setCategory .hat, .selectItem "cap"]

theorem pickers_agree_on_cap :
    (afterOperations shirtThenCap).combine.currentCategory =
        (afterOperations shirtThenCap).original.currentType ∧
      (afterOperations shirtThenCap).combine.selectedItems.worn =
        (afterOperations shirtThenCap).original.selectedItems.worn := by
  have hnames : ∀ name, .selectItem name ∈ shirtThenCap → name ≠ "" ∧ name ≠ " " := by
    intro name hname
    simp only [shirtThenCap, List.mem_cons, PickerOperation.selectItem.injEq, reduceCtorEq,
      List.not_mem_nil, false_or, or_false] at hname
    rcases hname with rfl | rfl | rfl <;> decide
  exact pickers_agree hnames (List.prefix_refl shirtThenCap)

end PickerPair

end Pompom
