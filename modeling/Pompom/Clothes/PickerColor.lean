import Pompom.Clothes.PickerViewModel
import Mathlib.Data.List.Induction

/-!
# The colour the picker shows

`currentHex` and the colour of the item being worn are two separate fields.  They
are kept in step by the publishers only: a colour that is sent recolours the
item, and choosing a category sends the colour of its item.  The invariant
`InStep` records what the duplicate filters remember, and `edit_showsWornColor`
that every edit keeps the two fields equal.

A load assigns `selectedItems` and sends nothing.  It keeps the fields equal
exactly when the loaded item of the current category already has the current
colour, and this is the only way in which a run can part them
(`showsWornColor_iff_loads_agree`).

Values are delivered in subscription order throughout.
-/

namespace Pompom.PickerCombineViewModel

/-! ## Sending a colour -/

theorem recolor_current (vm : PickerCombineViewModel) (hex : String) {cloth : Cloth}
    (hcloth : (vm.recolor hex).selectedItems vm.currentCategory = some cloth) :
    cloth.hex = hex := by
  simp only [recolor, Function.update_self, Option.map_eq_some_iff] at hcloth
  obtain ⟨_, _, rfl⟩ := hcloth
  rfl

/-- What the picker shows: the colour of the item being worn, if it is a visible
one. -/
def ShowsWornColor (vm : PickerCombineViewModel) : Prop :=
  ∀ cloth, vm.selectedItems vm.currentCategory = some cloth → cloth.Visible →
    vm.currentHex = cloth.hex

/-- The first colour filter remembers the current colour. -/
def RemembersHex (vm : PickerCombineViewModel) : Prop :=
  vm.lastColor .currentHex = some vm.currentHex

/-- The first colour subscriber either drops a value, and then it is the current
colour, or assigns it. -/
theorem receiveColor_currentHex {vm : PickerCombineViewModel} (hlast : vm.RemembersHex)
    (hex : Option String) :
    (receiveColor hex vm .currentHex = vm ∧ vm.currentHex = hex.getD "FFFFFF") ∨
      ∃ lastColor, lastColor .currentHex = some (hex.getD "FFFFFF") ∧
        receiveColor hex vm .currentHex =
          assignCurrentHex { vm with lastColor := lastColor } (hex.getD "FFFFFF") := by
  by_cases hdrop : vm.lastColor .currentHex = some (hex.getD "FFFFFF")
  · left
    refine ⟨by simp [receiveColor, hdrop], ?_⟩
    exact Option.some.inj (hlast.symm.trans hdrop)
  · right
    refine ⟨Function.update vm.lastColor .currentHex (some (hex.getD "FFFFFF")), by simp, ?_⟩
    simp [receiveColor, hdrop, reactToColor]

theorem receiveColor_selectedItems (vm : PickerCombineViewModel) (hex : Option String) :
    receiveColor hex vm .selectedItems = vm ∨
      ∃ lastColor, lastColor .currentHex = vm.lastColor .currentHex ∧
        receiveColor hex vm .selectedItems =
          recolor { vm with lastColor := lastColor } (hex.getD "FFFFFF") := by
  by_cases hdrop : vm.lastColor .selectedItems = some (hex.getD "FFFFFF")
  · exact .inl (by simp [receiveColor, hdrop])
  · right
    refine ⟨Function.update vm.lastColor .selectedItems (some (hex.getD "FFFFFF")), by simp, ?_⟩
    simp [receiveColor, hdrop, reactToColor]

/-- After a colour was sent it is the current one, the category filters are
untouched, and a visible item of the current category has either the colour or
the one it had. -/
theorem sendColor_spec {vm : PickerCombineViewModel} (hlast : vm.RemembersHex)
    (hex : Option String) :
    (vm.sendColor .subscription hex).currentHex = hex.getD "FFFFFF" ∧
      (vm.sendColor .subscription hex).RemembersHex ∧
      (vm.sendColor .subscription hex).currentCategory = vm.currentCategory ∧
      (vm.sendColor .subscription hex).lastCategory = vm.lastCategory ∧
      ∀ cloth, (vm.sendColor .subscription hex).selectedItems vm.currentCategory = some cloth →
        cloth.hex = hex.getD "FFFFFF" ∨
          (vm.selectedItems vm.currentCategory = some cloth ∧
            vm.currentHex = hex.getD "FFFFFF") := by
  have hsend : vm.sendColor .subscription hex =
      receiveColor hex (receiveColor hex { vm with setColorSubject := hex } .currentHex)
        .selectedItems := rfl
  rw [hsend]
  have hlast' : RemembersHex { vm with setColorSubject := hex } := hlast
  rcases receiveColor_currentHex hlast' hex with
    ⟨hfirst, hcurrent⟩ | ⟨lastColor, hcolor, hfirst⟩ <;> rw [hfirst]
  · -- the first filter drops the value; the second subscriber may still recolour the item
    rcases receiveColor_selectedItems { vm with setColorSubject := hex } hex with
      hsecond | ⟨lastColor, hcolor, hsecond⟩ <;> rw [hsecond]
    · exact ⟨hcurrent, hlast, rfl, rfl, fun cloth hcloth => .inr ⟨hcloth, hcurrent⟩⟩
    · exact ⟨hcurrent, hcolor.trans hlast, rfl, rfl,
        fun cloth hcloth => .inl (recolor_current _ _ hcloth)⟩
  · -- the first subscriber has recoloured the item already
    rcases receiveColor_selectedItems (assignCurrentHex _ _) hex with
      hsecond | ⟨lastColor', hcolor', hsecond⟩ <;> rw [hsecond]
    · exact ⟨rfl, hcolor, rfl, rfl,
        fun cloth hcloth => .inl (recolor_current _ (hex.getD "FFFFFF") hcloth)⟩
    · exact ⟨rfl, hcolor'.trans hcolor, rfl, rfl,
        fun cloth hcloth => .inl (recolor_current _ _ hcloth)⟩

/-! ## Sending a category -/

/-- The filters that matter for the colour agree with the fields they guard. -/
structure InStep (vm : PickerCombineViewModel) : Prop where
  category : vm.lastCategory .currentCategory = some vm.currentCategory
  color : vm.lastCategory .setColorSubject = some vm.currentCategory
  hex : vm.RemembersHex

/-- The second state differs from the first at most in what the grids of the
picker show and in the filters before them. -/
structure GridsOnly (vm next : PickerCombineViewModel) : Prop where
  selectedItems : next.selectedItems = vm.selectedItems
  currentCategory : next.currentCategory = vm.currentCategory
  currentHex : next.currentHex = vm.currentHex
  lastColor : next.lastColor = vm.lastColor
  category : next.lastCategory .currentCategory = vm.lastCategory .currentCategory
  color : next.lastCategory .setColorSubject = vm.lastCategory .setColorSubject

theorem GridsOnly.trans {first second third : PickerCombineViewModel}
    (h₁ : GridsOnly first second) (h₂ : GridsOnly second third) : GridsOnly first third :=
  ⟨h₂.selectedItems.trans h₁.selectedItems, h₂.currentCategory.trans h₁.currentCategory,
    h₂.currentHex.trans h₁.currentHex, h₂.lastColor.trans h₁.lastColor,
    h₂.category.trans h₁.category, h₂.color.trans h₁.color⟩

theorem receiveCategory_gridsOnly {subscriber : CategorySubscriber}
    (hcategory : subscriber ≠ .currentCategory) (hcolor : subscriber ≠ .setColorSubject)
    (order : DeliveryOrder) (category : ClothCategory) (vm : PickerCombineViewModel) :
    GridsOnly vm (receiveCategory order category vm subscriber) := by
  unfold receiveCategory
  split
  · exact ⟨rfl, rfl, rfl, rfl, rfl, rfl⟩
  · cases subscriber with
    | currentCategory => exact absurd rfl hcategory
    | currentPresets =>
        simp only [reactToCategory]
        split <;> exact ⟨rfl, rfl, rfl, rfl, by simp, by simp⟩
    | currentItems =>
        simp only [reactToCategory]
        split <;> exact ⟨rfl, rfl, rfl, rfl, by simp, by simp⟩
    | isColorEnable =>
        exact ⟨rfl, rfl, rfl, rfl, by simp [reactToCategory], by simp [reactToCategory]⟩
    | setColorSubject => exact absurd rfl hcolor

/-- In subscription order the current category is assigned first and the colour
of its item is sent last. -/
theorem setCategory_eq (vm : PickerCombineViewModel) (category : ClothCategory) :
    ∃ middle,
      GridsOnly (receiveCategory .subscription category { vm with setCategorySubject := category }
        .currentCategory) middle ∧
      vm.setCategory .subscription category =
        receiveCategory .subscription category middle .setColorSubject := by
  refine ⟨_, ?_, rfl⟩
  exact (receiveCategory_gridsOnly (by decide) (by decide) _ _ _).trans
    ((receiveCategory_gridsOnly (by decide) (by decide) _ _ _).trans
      (receiveCategory_gridsOnly (by decide) (by decide) _ _ _))

theorem setCategory_same {vm : PickerCombineViewModel} (hstep : vm.InStep)
    (hworn : vm.ShowsWornColor) :
    (vm.setCategory .subscription vm.currentCategory).InStep ∧
      (vm.setCategory .subscription vm.currentCategory).ShowsWornColor := by
  obtain ⟨middle, hgrids, heq⟩ := setCategory_eq vm vm.currentCategory
  have hfirst : receiveCategory .subscription vm.currentCategory
      { vm with setCategorySubject := vm.currentCategory } .currentCategory =
        { vm with setCategorySubject := vm.currentCategory } := by
    simp [receiveCategory, hstep.category]
  -- all filters drop the category, the one before the colour included
  rw [hfirst] at hgrids
  have hcategory : middle.currentCategory = vm.currentCategory := hgrids.currentCategory
  have hdrop : middle.lastCategory .setColorSubject = some vm.currentCategory :=
    hgrids.color.trans hstep.color
  rw [heq, receiveCategory, if_pos hdrop]
  refine ⟨⟨?_, ?_, ?_⟩, ?_⟩
  · rw [hcategory]
    exact hgrids.category.trans hstep.category
  · rw [hcategory]
    exact hdrop
  · rw [RemembersHex, hgrids.lastColor, hgrids.currentHex]
    exact hstep.hex
  · intro cloth hcloth hvisible
    rw [hcategory, hgrids.selectedItems] at hcloth
    rw [hgrids.currentHex]
    exact hworn cloth hcloth hvisible

/-- The subscriber that sends the colour is served last: the category has been assigned,
and the item of the category ends with the colour that is sent. -/
theorem receiveCategory_inStep {vm : PickerCombineViewModel} {category : ClothCategory}
    (hcategory : vm.currentCategory = category)
    (hfilter : vm.lastCategory .currentCategory = some category)
    (hpass : vm.lastCategory .setColorSubject ≠ some category) (hlast : vm.RemembersHex) :
    (receiveCategory .subscription category vm .setColorSubject).InStep ∧
      (receiveCategory .subscription category vm .setColorSubject).ShowsWornColor := by
  set passed : PickerCombineViewModel :=
    { vm with
      lastCategory := Function.update vm.lastCategory .setColorSubject (some category) }
    with hpassed
  have hcurrent : passed.currentCategory = category := hcategory
  have hlast' : passed.RemembersHex := hlast
  rw [receiveCategory, if_neg hpass, ← hpassed]
  simp only [reactToCategory]
  split
  · -- the category has an item: its colour is sent
    rename_i cloth hcloth
    obtain ⟨hhex, hremembers, hkept, hfilters, hitem⟩ := sendColor_spec hlast' (some cloth.hex)
    rw [hcurrent] at hkept hitem
    refine ⟨⟨?_, ?_, hremembers⟩, ?_⟩
    · rw [hfilters, hkept, hpassed]
      simpa using hfilter
    · rw [hfilters, hkept, hpassed]
      simp
    · intro worn hworn _
      rw [hkept] at hworn
      rw [hhex]
      rcases hitem worn hworn with hhex' | ⟨hsame, _⟩
      · exact hhex'.symm
      · obtain rfl : cloth = worn := Option.some.inj (hcloth.symm.trans hsame)
        rfl
  · -- nothing is worn in the category
    rename_i hnone
    refine ⟨⟨?_, ?_, hlast'⟩, ?_⟩
    · simpa [hpassed, hcategory] using hfilter
    · simp [hpassed, hcategory]
    · intro worn hworn _
      rw [hcurrent, hnone] at hworn
      simp at hworn

theorem setCategory_other {vm : PickerCombineViewModel} (hstep : vm.InStep)
    {category : ClothCategory} (hother : category ≠ vm.currentCategory) :
    (vm.setCategory .subscription category).InStep ∧
      (vm.setCategory .subscription category).ShowsWornColor := by
  obtain ⟨middle, hgrids, heq⟩ := setCategory_eq vm category
  have hfirst : receiveCategory .subscription category
      { vm with setCategorySubject := category } .currentCategory =
        { vm with
          setCategorySubject := category
          lastCategory := Function.update vm.lastCategory .currentCategory (some category)
          currentCategory := category } := by
    have hpass : vm.lastCategory .currentCategory ≠ some category := by
      rw [hstep.category]
      simpa using hother.symm
    simp [receiveCategory, hpass, reactToCategory]
  rw [hfirst] at hgrids
  have hcategory : middle.currentCategory = category := hgrids.currentCategory
  have hfilter : middle.lastCategory .currentCategory = some category := by
    simpa using hgrids.category
  have hpass : middle.lastCategory .setColorSubject ≠ some category := by
    have hkept : middle.lastCategory .setColorSubject = vm.lastCategory .setColorSubject := by
      simpa using hgrids.color
    rw [hkept, hstep.color]
    simpa using hother.symm
  have hlast : middle.RemembersHex := by
    rw [RemembersHex, hgrids.lastColor, hgrids.currentHex]
    exact hstep.hex
  rw [heq]
  exact receiveCategory_inStep hcategory hfilter hpass hlast

/-! ## Edits -/

theorem setColor_showsWornColor {vm : PickerCombineViewModel} (hstep : vm.InStep)
    (hworn : vm.ShowsWornColor) (hex : Option String) :
    (vm.setColor .subscription hex).InStep ∧
      (vm.setColor .subscription hex).ShowsWornColor := by
  obtain ⟨hhex, hlast, hcategory, hfilters, hitem⟩ := sendColor_spec hstep.hex hex
  refine ⟨⟨?_, ?_, hlast⟩, ?_⟩
  · rw [setColor, hfilters, hcategory]
    exact hstep.category
  · rw [setColor, hfilters, hcategory]
    exact hstep.color
  · intro cloth hcloth hvisible
    rw [setColor, hcategory] at hcloth
    rw [setColor, hhex]
    rcases hitem cloth hcloth with hhex' | ⟨hsame, hcurrent⟩
    · exact hhex'.symm
    · rw [← hcurrent]
      exact hworn cloth hsame hvisible

theorem receiveItem_inStep {vm : PickerCombineViewModel} (hstep : vm.InStep)
    (cloth : Option Cloth) : (vm.receiveItem cloth).InStep :=
  ⟨hstep.category, hstep.color, hstep.hex⟩

theorem selectItem_showsWornColor {vm : PickerCombineViewModel} (hstep : vm.InStep)
    (hworn : vm.ShowsWornColor) (name : Option String) :
    (vm.selectItem name).InStep ∧ (vm.selectItem name).ShowsWornColor := by
  cases name with
  | none => exact ⟨hstep, hworn⟩
  | some name =>
      simp only [selectItem]
      split
      · refine ⟨receiveItem_inStep hstep _, fun cloth hcloth _ => ?_⟩
        simp [receiveItem] at hcloth
      · refine ⟨receiveItem_inStep hstep _, fun cloth hcloth _ => ?_⟩
        simp only [receiveItem, Function.update_self, Option.some.injEq] at hcloth
        subst hcloth
        rfl

theorem clearSelectedItem_showsWornColor {vm : PickerCombineViewModel} (hstep : vm.InStep) :
    vm.clearSelectedItem.InStep ∧ vm.clearSelectedItem.ShowsWornColor := by
  refine ⟨⟨hstep.category, hstep.color, hstep.hex⟩, fun cloth hcloth hvisible => ?_⟩
  obtain ⟨_, _, rfl⟩ := Option.map_eq_some_iff.mp hcloth
  exact absurd rfl hvisible.2

/-- Every edit keeps the shown colour equal to the colour being worn. -/
theorem edit_showsWornColor {vm : PickerCombineViewModel} (hstep : vm.InStep)
    (hworn : vm.ShowsWornColor) (change : Edit) :
    (vm.edit .subscription change).InStep ∧
      (vm.edit .subscription change).ShowsWornColor := by
  cases change with
  | setCategory category =>
      by_cases hsame : category = vm.currentCategory
      · subst hsame
        exact setCategory_same hstep hworn
      · exact setCategory_other hstep hsame
  | setColor hex => exact setColor_showsWornColor hstep hworn hex
  | selectItem name => exact selectItem_showsWornColor hstep hworn name
  | clearSelectedItem => exact clearSelectedItem_showsWornColor hstep

/-! ## Runs with loads -/

/-- What can happen to the picker: an edit by the user, or the callback of
`requestClothes`. -/
inductive PickerStep where
  | edit (change : Edit)
  | load (clothes : Outfit)

def applyStep (vm : PickerCombineViewModel) : PickerStep → PickerCombineViewModel
  | .edit change => vm.edit .subscription change
  | .load clothes => vm.load clothes

/-- The picker after the given steps, from its initialiser. -/
def afterSteps (steps : List PickerStep) : PickerCombineViewModel :=
  steps.foldl applyStep (init .subscription)

/-- The item that a load puts into the current category has the current colour,
if it is visible. -/
def LoadAgrees (vm : PickerCombineViewModel) (clothes : Outfit) : Prop :=
  ∀ cloth ∈ clothes vm.currentCategory, cloth.Visible → vm.currentHex = cloth.hex

instance (vm : PickerCombineViewModel) (clothes : Outfit) : Decidable (LoadAgrees vm clothes) :=
  inferInstanceAs (Decidable (∀ _ ∈ _, _))

theorem afterSteps_append_singleton (steps : List PickerStep) (last : PickerStep) :
    afterSteps (steps ++ [last]) = (afterSteps steps).applyStep last := by
  simp [afterSteps]

theorem load_showsWornColor_iff (vm : PickerCombineViewModel) (clothes : Outfit) :
    (vm.load clothes).ShowsWornColor ↔ vm.LoadAgrees clothes :=
  Iff.rfl

theorem init_inStep : (init .subscription).InStep ∧ (init .subscription).ShowsWornColor := by
  refine ⟨⟨rfl, rfl, rfl⟩, fun cloth hcloth _ => ?_⟩
  have hnone : (init .subscription).selectedItems (init .subscription).currentCategory = none := by
    decide
  exact absurd (hnone.symm.trans hcloth) (by simp)

theorem afterSteps_showsWornColor (steps : List PickerStep)
    (hloads : ∀ earlier clothes rest, steps = earlier ++ .load clothes :: rest →
      (afterSteps earlier).LoadAgrees clothes) :
    (afterSteps steps).InStep ∧ (afterSteps steps).ShowsWornColor := by
  induction steps using List.reverseRecOn with
  | nil => exact init_inStep
  | append_singleton steps last ih =>
      obtain ⟨hstep, hworn⟩ := ih fun earlier clothes rest hsplit =>
        hloads earlier clothes (rest ++ [last]) (by simp [hsplit])
      rw [afterSteps_append_singleton]
      cases last with
      | edit change => exact edit_showsWornColor hstep hworn change
      | load clothes =>
          exact ⟨⟨hstep.category, hstep.color, hstep.hex⟩,
            (load_showsWornColor_iff _ clothes).mpr (hloads steps clothes [] rfl)⟩

/-- The picker shows the colour of the item being worn in every state of a run if
and only if every load of the run agrees with the current colour. -/
theorem showsWornColor_iff_loads_agree (steps : List PickerStep) :
    (∀ earlier rest, steps = earlier ++ rest → (afterSteps earlier).ShowsWornColor) ↔
      ∀ earlier clothes rest, steps = earlier ++ .load clothes :: rest →
        (afterSteps earlier).LoadAgrees clothes := by
  constructor
  · intro hshows earlier clothes rest hsplit
    have hafter := hshows (earlier ++ [.load clothes]) rest (by simp [hsplit])
    rw [afterSteps_append_singleton] at hafter
    exact (load_showsWornColor_iff _ clothes).mp hafter
  · intro hloads earlier rest hsplit
    refine (afterSteps_showsWornColor earlier fun before clothes after hbefore => ?_).2
    exact hloads before clothes (after ++ rest) (by simp [hsplit, hbefore])

/-- A stored black cap is loaded into the fresh picker, which goes on showing
white. -/
theorem loaded_cap_shown_white :
    ¬ (afterSteps [.load
      (Function.update Outfit.empty .hat (some ⟨"cap", "000000", .hat⟩))]).ShowsWornColor := by
  intro hshows
  have hhex := hshows ⟨"cap", "000000", .hat⟩ (by decide) (by decide)
  exact absurd hhex (by decide)

end Pompom.PickerCombineViewModel
