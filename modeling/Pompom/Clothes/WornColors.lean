import Pompom.Clothes.Wardrobe

/-!
# The colours being worn

A colour is six digits from `0-9A-F`.  The presets are colours, and so is the white
that the picker starts with, but `clearSelectedItem` marks an entry with the colour
`" "` as well as with the id.  The mark is not drawn, and still it can get onto an item
that is: choosing the category of a marked entry makes `" "` the current colour, and the
next item that is put on takes the current colour.  If the colour is sent before the
category is assigned, it even lands on the item of the category being left.

`KeepsColors` says of an edit that it does neither.  Runs whose edits all meet it wear
real colours only, and the first edit that does not meet it breaks this
(`worn_colors_are_real`).
-/

namespace Pompom

open Lib

/-! ## Colours -/

def hexDigits : List Char := "0123456789ABCDEF".toList

/-- Exactly six characters from `0-9A-F`. -/
def RealColor (hex : String) : Prop :=
  hex.length = 6 ∧ hex.toList.all (fun digit => decide (digit ∈ hexDigits)) = true

instance (hex : String) : Decidable (RealColor hex) :=
  inferInstanceAs (Decidable (_ ∧ _))

/-- An item that is drawn has a real colour. -/
def Cloth.Tinted (cloth : Cloth) : Prop :=
  cloth.Visible → RealColor cloth.hex

theorem realColor_white : RealColor "FFFFFF" := by
  decide

theorem realColor_preset {category : ClothCategory} {hex : String}
    (hhex : hex ∈ (presetDic category).getD []) : RealColor hex := by
  have hall : ∀ preset ∈ (presetDic category).getD [], RealColor preset := by
    cases category <;> decide
  exact hall hex hhex

namespace PickerCombineViewModel

variable {vm : PickerCombineViewModel}

/-! ## Edits -/

theorem recolor_tinted_iff (heach : vm.selectedItems.Each Cloth.Tinted) (hex : String) :
    (vm.recolor hex).selectedItems.Each Cloth.Tinted ↔
      RealColor hex ∨ ∀ worn ∈ vm.selectedItems vm.currentCategory, ¬ worn.Visible := by
  constructor
  · intro hrecolored
    by_cases hreal : RealColor hex
    · exact .inl hreal
    · right
      intro worn hworn hvisible
      have hpainted : (vm.recolor hex).selectedItems vm.currentCategory =
          some { worn with hex := hex } := by
        simp only [recolor, Function.update_self, Option.mem_def.mp hworn, Option.map_some]
      exact hreal ((hrecolored _ _ hpainted).2 hvisible)
  · intro hkept
    refine heach.update ?_
    intro cloth hcloth
    obtain ⟨worn, hworn, rfl⟩ := Option.map_eq_some_iff.mp hcloth
    refine ⟨(heach _ worn hworn).1, ?_⟩
    intro hvisible
    exact hkept.resolve_right fun hblank => hblank worn hworn hvisible

theorem sendColor_tinted_iff (hlast : vm.RemembersHex)
    (heach : vm.selectedItems.Each Cloth.Tinted) (order : DeliveryOrder) (hex : Option String) :
    (vm.sendColor order hex).selectedItems.Each Cloth.Tinted ↔
      vm.Drops (hex.getD "FFFFFF") ∨ RealColor (hex.getD "FFFFFF") ∨
        ∀ worn ∈ vm.selectedItems vm.currentCategory, ¬ worn.Visible := by
  rw [sendColor_eq hlast]
  by_cases hdrop : vm.Drops (hex.getD "FFFFFF")
  · rw [if_pos hdrop]
    exact iff_of_true heach (.inl hdrop)
  · rw [if_neg hdrop, or_iff_right hdrop]
    exact @recolor_tinted_iff (vm.showing hex) heach _

/-- On the way to a category the colour of its item does no harm if the order assigns
the category first. -/
theorem painted_tinted_iff (hlast : vm.RemembersHex)
    (heach : vm.selectedItems.Each Cloth.Tinted) (order : DeliveryOrder)
    (category : ClothCategory) :
    (vm.painted order category).selectedItems.Each Cloth.Tinted ↔
      order.CategoryFirst ∨ ∀ cloth ∈ vm.selectedItems category,
        vm.Drops cloth.hex ∨ RealColor cloth.hex ∨
          ∀ worn ∈ vm.selectedItems vm.currentCategory, ¬ worn.Visible := by
  by_cases hfirst : order.CategoryFirst
  · have hsame := (painted_selectedItems_eq_iff hlast order category).mpr (.inl hfirst)
    rw [hsame]
    exact iff_of_true heach (.inl hfirst)
  · rw [or_iff_right hfirst]
    unfold painted
    cases vm.selectedItems category with
    | none => simpa using heach
    | some cloth =>
        simp only [hfirst, if_false, Option.mem_some_iff, forall_eq']
        exact sendColor_tinted_iff hlast heach order (some cloth.hex)

/-- The edit puts no item on while the current colour is not real, and sends no such
colour onto an item of the category being left. -/
def KeepsColors (vm : PickerCombineViewModel) (order : DeliveryOrder) : Edit → Prop
  | .setCategory category =>
      category = vm.currentCategory ∨ order.CategoryFirst ∨
        ∀ cloth ∈ vm.selectedItems category,
          vm.Drops cloth.hex ∨ RealColor cloth.hex ∨
            ∀ worn ∈ vm.selectedItems vm.currentCategory, ¬ worn.Visible
  | .selectItem (some name) =>
      RealColor vm.currentHex ∨ (vm.selectedItems vm.currentCategory).map (·.id) = some name
  | _ => True

instance (vm : PickerCombineViewModel) (order : DeliveryOrder) (change : Edit) :
    Decidable (vm.KeepsColors order change) :=
  match change with
  | .setCategory _ => inferInstanceAs (Decidable (_ ∨ _ ∨ ∀ _ ∈ _, _ ∨ _ ∨ ∀ _ ∈ _, _))
  | .selectItem (some _) => inferInstanceAs (Decidable (_ ∨ _))
  | .selectItem none => .isTrue trivial
  | .setColor _ => .isTrue trivial
  | .clearSelectedItem => .isTrue trivial

/-- Colours are chosen from the presets and items from the grid. -/
def OnOffer (vm : PickerCombineViewModel) : Edit → Prop
  | .setColor (some hex) => hex ∈ vm.currentPresets
  | .selectItem (some name) => name ∈ vm.currentItems
  | _ => True

instance (vm : PickerCombineViewModel) (change : Edit) : Decidable (vm.OnOffer change) :=
  match change with
  | .setColor (some hex) => inferInstanceAs (Decidable (hex ∈ vm.currentPresets))
  | .selectItem (some name) => inferInstanceAs (Decidable (name ∈ vm.currentItems))
  | .setColor none => .isTrue trivial
  | .selectItem none => .isTrue trivial
  | .setCategory _ => .isTrue trivial
  | .clearSelectedItem => .isTrue trivial

theorem setCategory_tinted_iff (hwired : vm.Wired) (heach : vm.selectedItems.Each Cloth.Tinted)
    (order : DeliveryOrder) (category : ClothCategory) :
    (vm.setCategory order category).selectedItems.Each Cloth.Tinted ↔
      vm.KeepsColors order (.setCategory category) := by
  by_cases hsame : category = vm.currentCategory
  · rw [hsame, setCategory_current hwired]
    exact iff_of_true heach (.inl rfl)
  · rw [setCategory_eq_painted hwired order hsame, served_selectedItems, KeepsColors,
      or_iff_right hsame]
    exact @painted_tinted_iff { vm with setCategorySubject := category } hwired.hex heach order
      category

theorem selectItem_tinted_iff (hwired : vm.Wired) (heach : vm.selectedItems.Each Cloth.Tinted)
    (order : DeliveryOrder) {name : String} (hname : name ∈ vm.currentItems) :
    (vm.selectItem (some name)).selectedItems.Each Cloth.Tinted ↔
      vm.KeepsColors order (.selectItem (some name)) := by
  have hvisible : name ≠ "" ∧ name ≠ " " := mem_itemDic_visible (hwired.items ▸ hname)
  simp only [selectItem, KeepsColors]
  split
  · -- the item is taken off
    rename_i hworn
    refine iff_of_true (heach.update fun cloth hcloth => by simp at hcloth) (.inr hworn)
  · rename_i hother
    rw [or_iff_left hother]
    constructor
    · intro hput
      exact (hput vm.currentCategory ⟨name, vm.currentHex, vm.currentCategory⟩
        (by simp [receiveItem])).2 hvisible
    · intro hreal
      refine heach.update ?_
      intro cloth hcloth
      obtain rfl := Option.some.inj hcloth
      exact ⟨rfl, fun _ => hreal⟩

/-- An edit keeps the colours real exactly when it meets `KeepsColors`. -/
theorem edit_tinted_iff (hwired : vm.Wired) (heach : vm.selectedItems.Each Cloth.Tinted)
    (order : DeliveryOrder) {change : Edit} (hoffer : vm.OnOffer change) :
    (vm.edit order change).selectedItems.Each Cloth.Tinted ↔ vm.KeepsColors order change := by
  cases change with
  | setCategory category => exact setCategory_tinted_iff hwired heach order category
  | setColor hex =>
      have hreal : RealColor (hex.getD "FFFFFF") := by
        cases hex with
        | none => exact realColor_white
        | some hex =>
            have hpreset : hex ∈ vm.currentPresets := hoffer
            rw [hwired.presets] at hpreset
            exact realColor_preset hpreset
      exact iff_of_true
        ((sendColor_tinted_iff hwired.hex heach order hex).mpr (.inr (.inl hreal))) trivial
  | selectItem name =>
      cases name with
      | none => exact iff_of_true heach trivial
      | some name => exact selectItem_tinted_iff hwired heach order hoffer
  | clearSelectedItem =>
      refine iff_of_true ?_ trivial
      intro category cloth hcloth
      obtain ⟨_, _, rfl⟩ := Option.map_eq_some_iff.mp hcloth
      exact ⟨rfl, fun hvisible => absurd rfl hvisible.2⟩

end PickerCombineViewModel

namespace Wardrobe

variable {ι : Type*} [DecidableEq ι] {codes : ι → Option String}

/-! ## Runs -/

/-- Every item that is drawn, on any screen, has a real colour. -/
def WearsRealColors (state : Wardrobe ι) : Prop :=
  ∀ index, ∀ outfit ∈ [(state.clients index).picker.selectedItems, (state.clients index).partner],
    ∀ category cloth, outfit category = some cloth → cloth.id ≠ "" → cloth.id ≠ " " →
      RealColor cloth.hex

/-- The users choose colours from the presets and items from the grid. -/
def Chosen (state : Wardrobe ι) : WardrobeEvent ι → Prop
  | .edit index _ change => (state.clients index).picker.OnOffer change
  | _ => True

instance (state : Wardrobe ι) (event : WardrobeEvent ι) : Decidable (state.Chosen event) :=
  match event with
  | .edit index _ change =>
      inferInstanceAs (Decidable ((state.clients index).picker.OnOffer change))
  | .uploadItem _ => .isTrue trivial
  | .requestClothes _ => .isTrue trivial
  | .requestPartnerClothes _ _ => .isTrue trivial
  | .snapshot _ _ _ => .isTrue trivial
  | .failure _ _ _ => .isTrue trivial

def KeepsColors (state : Wardrobe ι) : WardrobeEvent ι → Prop
  | .edit index order change => (state.clients index).picker.KeepsColors order change
  | _ => True

instance (state : Wardrobe ι) (event : WardrobeEvent ι) : Decidable (state.KeepsColors event) :=
  match event with
  | .edit index order change =>
      inferInstanceAs (Decidable ((state.clients index).picker.KeepsColors order change))
  | .uploadItem _ => .isTrue trivial
  | .requestClothes _ => .isTrue trivial
  | .requestPartnerClothes _ _ => .isTrue trivial
  | .snapshot _ _ _ => .isTrue trivial
  | .failure _ _ _ => .isTrue trivial

omit [DecidableEq ι] in
theorem Each.wearsRealColors {state : Wardrobe ι} (heach : state.Each Cloth.Tinted) :
    state.WearsRealColors := by
  intro index outfit houtfit category cloth hcloth hempty hmark
  have hclient := heach.clients index
  simp only [List.mem_cons, List.not_mem_nil, or_false] at houtfit
  rcases houtfit with rfl | rfl
  · exact (hclient.picker category cloth hcloth).2 ⟨hempty, hmark⟩
  · exact (hclient.partner category cloth hcloth).2 ⟨hempty, hmark⟩

/-- A step that meets the condition keeps the colours real, also those in store. -/
theorem step_tinted {state next : Wardrobe ι} {event : WardrobeEvent ι} (hwired : state.Wired)
    (heach : state.Each Cloth.Tinted) (hchosen : state.Chosen event)
    (hkeeps : state.KeepsColors event) (hstep : state.step codes event = some next) :
    next.Each Cloth.Tinted := by
  refine step_each heach ?_ hstep
  intro index order change hevent
  subst hevent
  exact (PickerCombineViewModel.edit_tinted_iff (hwired index) (heach.clients index).picker order
    hchosen).mpr hkeeps

/-- A step that does not meet the condition puts another colour on an item. -/
theorem keepsColors_of_wearsRealColors {state next : Wardrobe ι} {event : WardrobeEvent ι}
    (hwired : state.Wired) (heach : state.Each Cloth.Tinted) (hchosen : state.Chosen event)
    (hstep : state.step codes event = some next) (hreal : next.WearsRealColors) :
    state.KeepsColors event := by
  cases event with
  | edit index order change =>
      have hclient := heach.clients index
      have hkeyed := PickerCombineViewModel.edit_keyed hclient.picker.keyed order change
      have hpicker : (next.clients index).picker.selectedItems =
          ((state.clients index).picker.edit order change).selectedItems := by
        obtain rfl := Option.some.inj hstep
        simp [setClient]
      refine (PickerCombineViewModel.edit_tinted_iff (hwired index) hclient.picker order
        hchosen).mp ?_
      intro category cloth hcloth
      refine ⟨hkeyed category cloth hcloth, ?_⟩
      intro hvisible
      exact hreal index _ List.mem_cons_self category cloth (hpicker ▸ hcloth) hvisible.1 hvisible.2
  | uploadItem => trivial
  | requestClothes => trivial
  | requestPartnerClothes => trivial
  | snapshot => trivial
  | failure => trivial

theorem reaches_tinted {orders : ι → DeliveryOrder} {state : Wardrobe ι}
    (hreach : Reaches (step codes) (fun state event => state.Chosen event ∧ state.KeepsColors event)
      (start orders) state) : state.Wired ∧ state.Each Cloth.Tinted := by
  refine hreach.invariant (P := fun state => state.Wired ∧ state.Each Cloth.Tinted)
    ⟨start_wired orders, start_each orders⟩ ?_
  intro state event next hstate hallowed hstep
  obtain ⟨hwired, heach⟩ := hstate
  exact ⟨step_wired hwired hstep, step_tinted hwired heach hallowed.1 hallowed.2 hstep⟩

/-- As long as every step of a run meets the condition, all items being worn have real
colours, and the first step that does not meet it ends this. -/
theorem worn_colors_are_real {orders : ι → DeliveryOrder} {state : Wardrobe ι}
    (hreach : Reaches (step codes) (fun state event => state.Chosen event ∧ state.KeepsColors event)
      (start orders) state) :
    state.WearsRealColors ∧
      ∀ event next, state.Chosen event → state.step codes event = some next →
        (next.WearsRealColors ↔ state.KeepsColors event) := by
  obtain ⟨hwired, heach⟩ := reaches_tinted hreach
  refine ⟨heach.wearsRealColors, ?_⟩
  intro event next hchosen hstep
  constructor
  · intro hreal
    exact keepsColors_of_wearsRealColors hwired heach hchosen hstep hreal
  · intro hkeeps
    exact (step_tinted hwired heach hchosen hkeeps hstep).wearsRealColors

/-! ### The mark of a reset on a new cap -/

/-- A cap is put on and reset; the user looks at the tops and comes back for the cap. -/
def capMarked : List (WardrobeEvent Unit) :=
  [.edit () .subscription (.selectItem (some "cap")),
    .edit () .subscription .clearSelectedItem,
    .edit () .subscription (.setCategory .top),
    .edit () .subscription (.setCategory .hat),
    .edit () .subscription (.selectItem (some "cap"))]

/-- The cap has the colour of the mark. -/
theorem cap_wears_mark :
    ∃ state : Wardrobe Unit,
      Reaches (step fun _ => some "ABC") Chosen (start fun _ => .subscription) state ∧
        ¬ state.WearsRealColors := by
  have hrun : ∃ state : Wardrobe Unit,
      Reaches (step fun _ => some "ABC") Chosen (start fun _ => .subscription) state ∧
        (state.clients ()).picker.selectedItems .hat = some ⟨"cap", " ", .hat⟩ :=
    exists_reaches_of_run capMarked (by decide +kernel)
  obtain ⟨state, hreach, hcap⟩ := hrun
  refine ⟨state, hreach, ?_⟩
  intro hreal
  have hcolor := hreal () _ List.mem_cons_self .hat _ hcap (by decide) (by decide)
  exact absurd hcolor (by decide)

/-- A cap is put on, uploaded and reset, put on again, and loaded. -/
def capStored : List (WardrobeEvent Unit) :=
  [.edit () .subscription (.selectItem (some "cap")), .uploadItem (),
    .edit () .subscription .clearSelectedItem,
    .edit () .subscription (.setColor (some "DF002B")),
    .edit () .subscription (.selectItem (some "cap")),
    .requestClothes (), .snapshot () 0 1]

theorem worn_colors_are_real_capStored :
    ∃ state : Wardrobe Unit,
      (state.clients ()).picker.selectedItems .hat = some ⟨"cap", "FFFFFF", .hat⟩ ∧
        state.WearsRealColors := by
  have hrun : ∃ state : Wardrobe Unit,
      Reaches (step fun _ => some "ABC")
          (fun state event => state.Chosen event ∧ state.KeepsColors event)
          (start fun _ => .subscription) state ∧
        (state.clients ()).picker.selectedItems .hat = some ⟨"cap", "FFFFFF", .hat⟩ :=
    exists_reaches_of_run capStored (by decide)
  obtain ⟨state, hreach, hcap⟩ := hrun
  exact ⟨state, hcap, (worn_colors_are_real hreach).1⟩

end Wardrobe

end Pompom
