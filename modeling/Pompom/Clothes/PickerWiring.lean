import Pompom.Clothes.PickerColor

/-!
# The wiring of the picker, in every delivery order

Combine does not say in which order a shared publisher serves its subscribers.
Here both publishers are solved for an arbitrary order.

A colour that is sent becomes the current one; it recolours the item of the
current category unless both colour filters drop it (`sendColor_eq`).  A category
that is sent reaches the four subscribers of the grids independently of each other
(`foldl_receiveCategory`).  The fifth subscriber sends the colour of the item of
the new category, and that colour lands in whichever category is current when the
subscriber is served (`setCategory_eq_painted`).

Three consequences are stated for every reachable picker.  What the picker shows is
that of the current category and the last colour sent
(`derived_state_follows_category`).  Browsing leaves the outfit alone exactly when the
colour does not land on an item of another colour (`setCategory_keeps_outfit_iff`), and
a chosen colour takes effect exactly when it is not dropped in front of an item of
another colour (`setColor_takes_effect_iff`).
-/

namespace Pompom

open PickerCombineViewModel

/-! ## Delivery orders -/

namespace DeliveryOrder

/-- The current category is assigned before the colour of its item is sent. -/
def CategoryFirst (order : DeliveryOrder) : Prop :=
  order.category.idxOf .currentCategory < order.category.idxOf .setColorSubject

instance (order : DeliveryOrder) : Decidable order.CategoryFirst :=
  inferInstanceAs (Decidable (_ < _))

/-- The subscribers that a category reaches before and after the one that sends the
colour of its item. -/
structure Split (order : DeliveryOrder) (early late : List CategorySubscriber) : Prop where
  category_eq : order.category = early ++ .setColorSubject :: late
  notMem_early : .setColorSubject ∉ early
  notMem_late : .setColorSubject ∉ late
  disjoint : ∀ subscriber ∈ late, subscriber ∉ early
  cover : ∀ subscriber, subscriber ∈ early ∨ subscriber = .setColorSubject ∨ subscriber ∈ late

theorem exists_split (order : DeliveryOrder) : ∃ early late, order.Split early late := by
  have hmem : ∀ subscriber, subscriber ∈ order.category := by
    intro subscriber
    rw [order.category_perm.mem_iff]
    cases subscriber <;> decide
  have hnodup : order.category.Nodup := by
    rw [order.category_perm.nodup_iff]
    decide
  obtain ⟨early, late, hsplit⟩ := List.append_of_mem (hmem .setColorSubject)
  rw [hsplit, List.nodup_append, List.nodup_cons] at hnodup
  obtain ⟨_, ⟨hlate, _⟩, hdisjoint⟩ := hnodup
  refine ⟨early, late, hsplit, ?_, hlate, ?_, ?_⟩
  · intro hearly
    exact hdisjoint _ hearly _ List.mem_cons_self rfl
  · intro subscriber hmem hearly
    exact hdisjoint _ hearly _ (List.mem_cons_of_mem _ hmem) rfl
  · intro subscriber
    have hcover := hmem subscriber
    rw [hsplit] at hcover
    simpa using hcover

theorem Split.categoryFirst_iff {order : DeliveryOrder} {early late : List CategorySubscriber}
    (hsplit : order.Split early late) : order.CategoryFirst ↔ .currentCategory ∈ early := by
  have hcolor : order.category.idxOf .setColorSubject = early.length := by
    rw [hsplit.category_eq, List.idxOf_append_of_notMem hsplit.notMem_early, List.idxOf_cons_self]
    rfl
  rw [CategoryFirst, hcolor, hsplit.category_eq]
  by_cases hearly : CategorySubscriber.currentCategory ∈ early
  · rw [List.idxOf_append_of_mem hearly]
    exact iff_of_true (List.idxOf_lt_length_of_mem hearly) hearly
  · rw [List.idxOf_append_of_notMem hearly]
    exact iff_of_false (by omega) hearly

theorem color_cases (order : DeliveryOrder) :
    order.color = [.currentHex, .selectedItems] ∨ order.color = [.selectedItems, .currentHex] := by
  obtain ⟨first, second, hpair⟩ := List.length_eq_two.mp order.color_perm.length_eq
  have hnodup : order.color.Nodup := by
    rw [order.color_perm.nodup_iff]
    decide
  rw [hpair] at hnodup ⊢
  cases first <;> cases second <;> simp at hnodup ⊢

end DeliveryOrder

namespace PickerCombineViewModel

/-! ## The colour publisher -/

/-- Neither colour subscriber lets the value through. -/
def Drops (vm : PickerCombineViewModel) (hex : String) : Prop :=
  vm.currentHex = hex ∧ vm.lastColor .selectedItems = some hex

instance (vm : PickerCombineViewModel) (hex : String) : Decidable (vm.Drops hex) :=
  inferInstanceAs (Decidable (_ ∧ _))

/-- The state in which both colour filters have let the value through. -/
def showing (vm : PickerCombineViewModel) (hex : Option String) : PickerCombineViewModel :=
  { vm with
    setColorSubject := hex
    currentHex := hex.getD "FFFFFF"
    lastColor := fun _ => some (hex.getD "FFFFFF") }

theorem lastColor_eq {lastColor : ColorSubscriber → Option String} {hex : String}
    (hcurrent : lastColor .currentHex = some hex) (hitems : lastColor .selectedItems = some hex) :
    lastColor = fun _ => some hex := by
  funext subscriber
  cases subscriber with
  | currentHex => exact hcurrent
  | selectedItems => exact hitems

/-- In both orders a colour that is sent becomes the current one, and recolours the
item of the current category unless it is dropped. -/
theorem sendColor_eq {vm : PickerCombineViewModel} (hlast : vm.RemembersHex)
    (order : DeliveryOrder) (hex : Option String) :
    vm.sendColor order hex =
      if vm.Drops (hex.getD "FFFFFF") then vm.showing hex
      else (vm.showing hex).recolor (hex.getD "FFFFFF") := by
  rw [RemembersHex] at hlast
  by_cases hcurrent : vm.currentHex = hex.getD "FFFFFF" <;>
    by_cases hitems : vm.lastColor .selectedItems = some (hex.getD "FFFFFF")
  · -- both filters drop the value
    have hmemory : vm.lastColor = fun _ => some (hex.getD "FFFFFF") :=
      lastColor_eq (hlast.trans (congrArg some hcurrent)) hitems
    rcases order.color_cases with hcolor | hcolor <;>
      simp [sendColor, hcolor, receiveColor, Drops, hcurrent, showing, hmemory]
  · have hmemory : Function.update vm.lastColor .selectedItems (some (hex.getD "FFFFFF")) =
        fun _ => some (hex.getD "FFFFFF") :=
      lastColor_eq (by simp [hlast, hcurrent]) (by simp)
    rcases order.color_cases with hcolor | hcolor <;>
      simp [sendColor, hcolor, receiveColor, reactToColor, recolor, Drops, hlast, hcurrent, hitems,
        showing, hmemory]
  · have hmemory : Function.update vm.lastColor .currentHex (some (hex.getD "FFFFFF")) =
        fun _ => some (hex.getD "FFFFFF") :=
      lastColor_eq (by simp) (by simp [hitems])
    rcases order.color_cases with hcolor | hcolor <;>
      simp [sendColor, hcolor, receiveColor, reactToColor, assignCurrentHex, recolor, Drops, hlast,
        hcurrent, hitems, showing, hmemory]
  · -- both subscribers recolour the item
    rcases order.color_cases with hcolor | hcolor <;>
      simp [sendColor, hcolor, receiveColor, reactToColor, assignCurrentHex, recolor, Drops, hlast,
        hcurrent, hitems, showing, Function.comp_def] <;>
      exact lastColor_eq (by simp) (by simp)

/-! ## The category publisher -/

/-- The state once a category has passed the filters of the given subscribers; what
the fifth of them sends is left out. -/
def served (vm : PickerCombineViewModel) (category : ClothCategory)
    (subscribers : List CategorySubscriber) : PickerCombineViewModel :=
  { vm with
    lastCategory := fun subscriber =>
      if subscriber ∈ subscribers then some category else vm.lastCategory subscriber
    currentCategory := if .currentCategory ∈ subscribers then category else vm.currentCategory
    currentPresets :=
      if .currentPresets ∈ subscribers then (presetDic category).getD []
      else vm.currentPresets
    currentItems :=
      if .currentItems ∈ subscribers then (itemDic category).getD []
      else vm.currentItems
    isColorEnable :=
      if .isColorEnable ∈ subscribers then category ≠ .accessories else vm.isColorEnable }

@[simp] theorem served_nil (vm : PickerCombineViewModel) (category : ClothCategory) :
    vm.served category [] = vm := by
  simp [served]

@[simp] theorem served_selectedItems (vm : PickerCombineViewModel) (category : ClothCategory)
    (subscribers : List CategorySubscriber) :
    (vm.served category subscribers).selectedItems = vm.selectedItems :=
  rfl

theorem served_served (vm : PickerCombineViewModel) (category : ClothCategory)
    (first second : List CategorySubscriber) :
    (vm.served category first).served category second = vm.served category (first ++ second) := by
  simp only [served, List.mem_append]
  congr 1 <;> grind

theorem exists_presets (category : ClothCategory) :
    ∃ presets, presetDic category = some presets := by
  cases category <;> exact ⟨_, rfl⟩

theorem exists_items (category : ClothCategory) : ∃ items, itemDic category = some items := by
  cases category <;> exact ⟨_, rfl⟩

theorem lastCategory_update (vm : PickerCombineViewModel) (subscriber : CategorySubscriber)
    (category : ClothCategory) :
    Function.update vm.lastCategory subscriber (some category) =
      fun other => if other = subscriber then some category else vm.lastCategory other := by
  funext other
  rw [Function.update_apply]

/-- A subscriber that sends no colour is served: one of the four of the grids, or the
fifth when there is no item. -/
theorem receiveCategory_eq_served {vm : PickerCombineViewModel} {category : ClothCategory}
    {subscriber : CategorySubscriber}
    (hgrid : subscriber = .setColorSubject → vm.selectedItems category = none)
    (hsync : vm.lastCategory subscriber = some category → vm.served category [subscriber] = vm)
    (order : DeliveryOrder) :
    receiveCategory order category vm subscriber = vm.served category [subscriber] := by
  by_cases hdrop : vm.lastCategory subscriber = some category
  · rw [receiveCategory, if_pos hdrop, hsync hdrop]
  · rw [receiveCategory, if_neg hdrop]
    cases subscriber with
    | currentCategory => simp [reactToCategory, served, lastCategory_update]
    | currentPresets =>
        obtain ⟨presets, hpresets⟩ := exists_presets category
        simp [reactToCategory, served, hpresets, lastCategory_update]
    | currentItems =>
        obtain ⟨items, hitems⟩ := exists_items category
        simp [reactToCategory, served, hitems, lastCategory_update]
    | isColorEnable => simp [reactToCategory, served, lastCategory_update]
    | setColorSubject => simp [reactToCategory, served, hgrid rfl, lastCategory_update]

theorem served_congr (vm : PickerCombineViewModel) (category : ClothCategory)
    {first second : List CategorySubscriber}
    (hsame : ∀ subscriber, subscriber ∈ first ↔ subscriber ∈ second) :
    vm.served category first = vm.served category second := by
  simp only [served, hsame]

/-- Subscribers that send no colour are served in turn. -/
theorem foldl_receiveCategory {vm : PickerCombineViewModel} {category : ClothCategory}
    {subscribers : List CategorySubscriber}
    (hgrid : .setColorSubject ∈ subscribers → vm.selectedItems category = none)
    (hsync : ∀ subscriber ∈ subscribers, vm.lastCategory subscriber = some category →
      vm.served category [subscriber] = vm) (order : DeliveryOrder) :
    subscribers.foldl (receiveCategory order category) vm = vm.served category subscribers := by
  induction subscribers using List.reverseRecOn with
  | nil => simp
  | append_singleton before last ih =>
      have hbefore := ih (fun hmem => hgrid (by simp [hmem]))
        fun subscriber hmem => hsync subscriber (by simp [hmem])
      rw [List.foldl_append, hbefore, List.foldl_cons, List.foldl_nil, ← served_served]
      refine receiveCategory_eq_served (fun hlast => ?_) ?_ order
      · exact hgrid (by simp [hlast])
      intro hdrop
      rw [served_served]
      by_cases hmem : last ∈ before
      · exact served_congr vm category (by simp; grind)
      · -- the filter held the category from the start
        have hold : vm.lastCategory last = some category := by simpa [served, hmem] using hdrop
        rw [served_congr vm category (fun _ => List.mem_append.trans or_comm |>.trans
          List.mem_append.symm), ← served_served, hsync last (by simp) hold]

/-! ## Wired pickers -/

/-- The filters and the grids agree with the current category, and the first colour
filter with the current colour. -/
structure Wired (vm : PickerCombineViewModel) : Prop where
  lastCategory : ∀ subscriber, vm.lastCategory subscriber = some vm.currentCategory
  presets : vm.currentPresets = (presetDic vm.currentCategory).getD []
  items : vm.currentItems = (itemDic vm.currentCategory).getD []
  enable : vm.isColorEnable = decide (vm.currentCategory ≠ .accessories)
  hex : vm.RemembersHex

/-- Choosing the current category again does nothing. -/
theorem setCategory_current {vm : PickerCombineViewModel} (hwired : vm.Wired)
    (order : DeliveryOrder) :
    vm.setCategory order vm.currentCategory =
      { vm with setCategorySubject := vm.currentCategory } := by
  refine List.foldlRecOn order.category (receiveCategory order vm.currentCategory) rfl
    (motive := fun state => state = { vm with setCategorySubject := vm.currentCategory }) ?_
  intro state hstate subscriber _
  rw [hstate, receiveCategory, if_pos (hwired.lastCategory subscriber)]

/-- The colour of the item of a category has been sent on the way to the category:
it lands in the new category or in the one being left. -/
def painted (vm : PickerCombineViewModel) (order : DeliveryOrder) (category : ClothCategory) :
    PickerCombineViewModel :=
  match vm.selectedItems category with
  | none => vm
  | some cloth =>
      sendColor order
        { vm with currentCategory := if order.CategoryFirst then category else vm.currentCategory }
        (some cloth.hex)

theorem sendColor_served {vm : PickerCombineViewModel} (hlast : vm.RemembersHex)
    (order : DeliveryOrder) (hex : Option String) (category : ClothCategory)
    (subscribers : List CategorySubscriber) :
    (vm.served category subscribers).sendColor order hex =
      (sendColor order
        { vm with
          currentCategory :=
            if .currentCategory ∈ subscribers then category else vm.currentCategory }
        hex).served category subscribers := by
  rw [sendColor_eq (by exact hlast), sendColor_eq (by exact hlast)]
  have hcategory : ∀ current : ClothCategory,
      (if .currentCategory ∈ subscribers then category
        else if .currentCategory ∈ subscribers then category else current) =
      if .currentCategory ∈ subscribers then category else current := by
    intro current
    split <;> rfl
  by_cases hdrop : vm.Drops (hex.getD "FFFFFF")
  · rw [if_pos (by exact hdrop), if_pos (by exact hdrop)]
    simp only [served, showing, hcategory]
  · rw [if_neg (by exact hdrop), if_neg (by exact hdrop)]
    simp only [served, showing, recolor, hcategory]

/-- The fifth subscriber lets a category through. -/
theorem receiveCategory_setColorSubject {vm : PickerCombineViewModel} {category : ClothCategory}
    (hpass : vm.lastCategory .setColorSubject ≠ some category) (order : DeliveryOrder) :
    receiveCategory order category vm .setColorSubject =
      match vm.selectedItems category with
      | none => vm.served category [.setColorSubject]
      | some cloth =>
          (vm.served category [.setColorSubject]).sendColor order (some cloth.hex) := by
  have hmark : { vm with
      lastCategory := Function.update vm.lastCategory .setColorSubject (some category) } =
        vm.served category [.setColorSubject] := by
    simp [served, lastCategory_update]
  rw [receiveCategory, if_neg hpass, hmark]
  simp only [reactToCategory, served_selectedItems]
  cases vm.selectedItems category <;> rfl

theorem sendColor_lastCategory (vm : PickerCombineViewModel) (order : DeliveryOrder)
    (hex : Option String) : (vm.sendColor order hex).lastCategory = vm.lastCategory := by
  refine sendColor_rec (P := fun next => next.lastCategory = vm.lastCategory) rfl
    (fun _ _ hsame => hsame) ?_
  intro next subscriber hsame
  cases subscriber <;> exact hsame

theorem painted_lastCategory (vm : PickerCombineViewModel) (order : DeliveryOrder)
    (category : ClothCategory) : (vm.painted order category).lastCategory = vm.lastCategory := by
  unfold painted
  split
  · rfl
  · exact sendColor_lastCategory _ order _

/-- Whatever the order, choosing another category ends with all grids on it; the
order shows in where the colour of its item lands. -/
theorem setCategory_eq_painted {vm : PickerCombineViewModel} (hwired : vm.Wired)
    (order : DeliveryOrder) {category : ClothCategory} (hother : category ≠ vm.currentCategory) :
    vm.setCategory order category =
      (painted { vm with setCategorySubject := category } order category).served category
        CategorySubscriber.allInOrder := by
  obtain ⟨early, late, hsplit⟩ := order.exists_split
  set opened : PickerCombineViewModel := { vm with setCategorySubject := category } with hopened
  have hfresh : ∀ subscriber, opened.lastCategory subscriber ≠ some category := by
    intro subscriber
    rw [hopened, hwired.lastCategory]
    simpa using hother.symm
  have hearly : early.foldl (receiveCategory order category) opened =
      opened.served category early :=
    foldl_receiveCategory (fun hmem => absurd hmem hsplit.notMem_early)
      (fun _ _ hold => absurd hold (hfresh _)) order
  have hcolor : receiveCategory order category (opened.served category early) .setColorSubject =
      (opened.painted order category).served category (early ++ [.setColorSubject]) := by
    have hpass : (opened.served category early).lastCategory .setColorSubject ≠ some category := by
      simpa [served, hsplit.notMem_early] using hfresh .setColorSubject
    rw [receiveCategory_setColorSubject hpass, served_served, painted,
      served_selectedItems]
    cases opened.selectedItems category with
    | none => rfl
    | some cloth =>
        have hlast : opened.RemembersHex := hwired.hex
        simp only [sendColor_served hlast, hsplit.categoryFirst_iff]
        simp
  have hlate : late.foldl (receiveCategory order category)
      ((opened.painted order category).served category (early ++ [.setColorSubject])) =
        (opened.painted order category).served category (early ++ [.setColorSubject] ++ late) := by
    rw [foldl_receiveCategory (fun hmem => absurd hmem hsplit.notMem_late) ?_ order, served_served]
    intro subscriber hmem hold
    -- none of the remaining subscribers has seen the category
    have hnot : subscriber ∉ early ++ [.setColorSubject] := by
      have hcolor : subscriber ≠ .setColorSubject := fun heq => hsplit.notMem_late (heq ▸ hmem)
      simp [hsplit.disjoint subscriber hmem, hcolor]
    simp only [served, if_neg hnot, painted_lastCategory] at hold
    exact absurd hold (hfresh subscriber)
  rw [setCategory, sendCategory, hsplit.category_eq, List.foldl_append, List.foldl_cons, ← hopened,
    hearly, hcolor, hlate]
  refine served_congr _ _ ?_
  intro subscriber
  refine iff_of_true ?_ (by cases subscriber <;> decide)
  simpa using hsplit.cover subscriber

theorem sendColor_currentHex {vm : PickerCombineViewModel} (hlast : vm.RemembersHex)
    (order : DeliveryOrder) (hex : Option String) :
    (vm.sendColor order hex).currentHex = hex.getD "FFFFFF" := by
  rw [sendColor_eq hlast]
  split <;> rfl

theorem sendColor_remembersHex {vm : PickerCombineViewModel} (hlast : vm.RemembersHex)
    (order : DeliveryOrder) (hex : Option String) : (vm.sendColor order hex).RemembersHex := by
  rw [sendColor_eq hlast]
  split <;> rfl

theorem painted_remembersHex {vm : PickerCombineViewModel} (hlast : vm.RemembersHex)
    (order : DeliveryOrder) (category : ClothCategory) :
    (vm.painted order category).RemembersHex := by
  unfold painted
  split
  · exact hlast
  · exact sendColor_remembersHex (by exact hlast) order _

theorem served_all_wired {vm : PickerCombineViewModel} (hlast : vm.RemembersHex)
    (category : ClothCategory) :
    (vm.served category CategorySubscriber.allInOrder).Wired := by
  refine ⟨?_, ?_, ?_, ?_, hlast⟩
  · intro subscriber
    cases subscriber <;> rfl
  · rfl
  · rfl
  · rfl

/-- The picker once both publishers are connected: the first subscriber of each has
received the value of its subject. -/
def connected : PickerCombineViewModel :=
  { lastCategory := Function.update (fun _ => none) .currentCategory (some .hat)
    lastColor := Function.update (fun _ => none) .currentHex (some "FFFFFF") }

/-- The initialiser ends in one and the same state, whatever the order. -/
theorem init_eq (order : DeliveryOrder) :
    init order = connected.served .hat CategorySubscriber.allInOrder := by
  have hconnected : receiveColor (some "FFFFFF")
      (receiveCategory order .hat ({} : PickerCombineViewModel) .currentCategory) .currentHex =
        connected := by
    simp [receiveCategory, reactToCategory, receiveColor, reactToColor, assignCurrentHex, recolor,
      connected]
  have hsync : ∀ subscriber ∈ order.category, connected.lastCategory subscriber = some .hat →
      connected.served .hat [subscriber] = connected := by
    intro subscriber _ hold
    cases subscriber <;> simp [connected] at hold
    simp only [served, connected, List.mem_singleton]
    congr 1
    funext subscriber
    cases subscriber <;> rfl
  have hstarted : connected.sendCategory order .hat =
      connected.served .hat CategorySubscriber.allInOrder := by
    rw [sendCategory, show { connected with setCategorySubject := .hat } = connected from rfl,
      foldl_receiveCategory (fun _ => rfl) hsync order]
    exact served_congr _ _ fun _ => order.category_perm.mem_iff
  have hinit : init order = (connected.sendCategory order .hat).receiveItem
      ((connected.sendCategory order .hat).selectedItems
        (connected.sendCategory order .hat).currentCategory) := by
    rw [← hconnected]
    rfl
  rw [hinit, hstarted, receiveItem, Function.update_eq_self]

theorem init_wired (order : DeliveryOrder) : (init order).Wired := by
  rw [init_eq]
  exact @served_all_wired connected rfl .hat

theorem setCategory_wired {vm : PickerCombineViewModel} (hwired : vm.Wired)
    (order : DeliveryOrder) (category : ClothCategory) : (vm.setCategory order category).Wired := by
  by_cases hsame : category = vm.currentCategory
  · rw [hsame, setCategory_current hwired]
    exact ⟨hwired.lastCategory, hwired.presets, hwired.items, hwired.enable, hwired.hex⟩
  · rw [setCategory_eq_painted hwired order hsame]
    exact served_all_wired (painted_remembersHex (by exact hwired.hex) order category) category

theorem setColor_wired {vm : PickerCombineViewModel} (hwired : vm.Wired) (order : DeliveryOrder)
    (hex : Option String) : (vm.setColor order hex).Wired := by
  rw [setColor, sendColor_eq hwired.hex]
  split <;> exact ⟨hwired.lastCategory, hwired.presets, hwired.items, hwired.enable, rfl⟩

theorem load_wired {vm : PickerCombineViewModel} (hwired : vm.Wired) (clothes : Outfit) :
    (vm.load clothes).Wired :=
  ⟨hwired.lastCategory, hwired.presets, hwired.items, hwired.enable, hwired.hex⟩

/-- Selecting and clearing write `selectedItems` only. -/
theorem edit_wired {vm : PickerCombineViewModel} (hwired : vm.Wired) (order : DeliveryOrder)
    (change : Edit) : (vm.edit order change).Wired := by
  cases change with
  | setCategory category => exact setCategory_wired hwired order category
  | setColor hex => exact setColor_wired hwired order hex
  | selectItem name =>
      simp only [edit, selectItem]
      split
      · exact hwired
      · split <;> exact load_wired hwired _
  | clearSelectedItem => exact load_wired hwired _

/-- The pickers that edits and loads lead to, each edit under some delivery order. -/
inductive Reached : PickerCombineViewModel → Prop where
  | init (order : DeliveryOrder) : Reached (init order)
  | edit {vm : PickerCombineViewModel} (order : DeliveryOrder) (change : Edit) :
      Reached vm → Reached (vm.edit order change)
  | load {vm : PickerCombineViewModel} (clothes : Outfit) : Reached vm → Reached (vm.load clothes)

theorem Reached.wired {vm : PickerCombineViewModel} (hreached : Reached vm) : vm.Wired := by
  induction hreached with
  | init order => exact init_wired order
  | edit order change _ ih => exact edit_wired ih order change
  | load clothes _ ih => exact load_wired ih clothes

/-! ## The derived state -/

/-- The current colour is the last one that was sent. -/
def ShowsSent (vm : PickerCombineViewModel) : Prop :=
  vm.currentHex = vm.setColorSubject.getD "FFFFFF"

theorem sendColor_showsSent {vm : PickerCombineViewModel} (hlast : vm.RemembersHex)
    (order : DeliveryOrder) (hex : Option String) : (vm.sendColor order hex).ShowsSent := by
  rw [sendColor_eq hlast]
  split <;> rfl

theorem painted_showsSent {vm : PickerCombineViewModel} (hlast : vm.RemembersHex)
    (hsent : vm.ShowsSent) (order : DeliveryOrder) (category : ClothCategory) :
    (vm.painted order category).ShowsSent := by
  unfold painted
  split
  · exact hsent
  · exact sendColor_showsSent (by exact hlast) order _

theorem setCategory_showsSent {vm : PickerCombineViewModel} (hwired : vm.Wired)
    (hsent : vm.ShowsSent) (order : DeliveryOrder) (category : ClothCategory) :
    (vm.setCategory order category).ShowsSent := by
  by_cases hsame : category = vm.currentCategory
  · rw [hsame, setCategory_current hwired]
    exact hsent
  · rw [setCategory_eq_painted hwired order hsame]
    exact @painted_showsSent { vm with setCategorySubject := category } hwired.hex hsent order
      category

theorem edit_showsSent {vm : PickerCombineViewModel} (hwired : vm.Wired) (hsent : vm.ShowsSent)
    (order : DeliveryOrder) (change : Edit) : (vm.edit order change).ShowsSent := by
  cases change with
  | setCategory category => exact setCategory_showsSent hwired hsent order category
  | setColor hex => exact sendColor_showsSent hwired.hex order hex
  | selectItem name =>
      simp only [edit, selectItem]
      split
      · exact hsent
      · split <;> exact hsent
  | clearSelectedItem => exact hsent

theorem Reached.showsSent {vm : PickerCombineViewModel} (hreached : Reached vm) :
    vm.ShowsSent := by
  induction hreached with
  | init order =>
      rw [init_eq]
      rfl
  | edit order change hreached ih => exact edit_showsSent hreached.wired ih order change
  | load clothes _ ih => exact ih

/-- In every picker that edits and loads lead to, under any delivery orders, the grids
and the colour switch are those of the current category, and the current colour is the
last one sent. -/
theorem derived_state_follows_category {vm : PickerCombineViewModel} (hreached : Reached vm) :
    itemDic vm.currentCategory = some vm.currentItems ∧
      presetDic vm.currentCategory = some vm.currentPresets ∧
      (vm.isColorEnable = true ↔ vm.currentCategory ≠ .accessories) ∧
      vm.currentHex = vm.setColorSubject.getD "FFFFFF" := by
  have hwired := hreached.wired
  obtain ⟨items, hitems⟩ := exists_items vm.currentCategory
  obtain ⟨presets, hpresets⟩ := exists_presets vm.currentCategory
  refine ⟨?_, ?_, ?_, hreached.showsSent⟩
  · rw [hwired.items, hitems, Option.getD_some]
  · rw [hwired.presets, hpresets, Option.getD_some]
  · rw [hwired.enable, decide_eq_true_iff]

/-! ## Browsing -/

theorem recolor_selectedItems_eq_iff (vm : PickerCombineViewModel) (hex : String) :
    (vm.recolor hex).selectedItems = vm.selectedItems ↔
      ∀ worn ∈ vm.selectedItems vm.currentCategory, worn.hex = hex := by
  simp only [recolor, Function.update_eq_self_iff]
  cases hworn : vm.selectedItems vm.currentCategory with
  | none => simp
  | some worn =>
      constructor
      · intro hsame other hother
        obtain rfl := Option.mem_some_iff.mp hother
        exact (congrArg Cloth.hex (Option.some.inj hsame)).symm
      · intro hhex
        simp [← hhex worn rfl]

/-- Sending a colour leaves the outfit as it is if the item being worn has the
colour, or if the colour is dropped. -/
theorem sendColor_selectedItems_eq_iff {vm : PickerCombineViewModel} (hlast : vm.RemembersHex)
    (order : DeliveryOrder) (hex : String) :
    (vm.sendColor order (some hex)).selectedItems = vm.selectedItems ↔
      ∀ worn ∈ vm.selectedItems vm.currentCategory, worn.hex = hex ∨ vm.Drops hex := by
  rw [sendColor_eq hlast, Option.getD_some]
  by_cases hdrop : vm.Drops hex
  · rw [if_pos hdrop]
    exact iff_of_true rfl fun _ _ => .inr hdrop
  · rw [if_neg hdrop]
    refine (recolor_selectedItems_eq_iff (vm.showing (some hex)) hex).trans ?_
    simp only [hdrop, or_false]
    rfl

theorem painted_selectedItems_eq_iff {vm : PickerCombineViewModel} (hlast : vm.RemembersHex)
    (order : DeliveryOrder) (category : ClothCategory) :
    (vm.painted order category).selectedItems = vm.selectedItems ↔
      order.CategoryFirst ∨
        ∀ cloth ∈ vm.selectedItems category, ∀ worn ∈ vm.selectedItems vm.currentCategory,
          worn.hex = cloth.hex ∨ vm.Drops cloth.hex := by
  unfold painted
  cases hcloth : vm.selectedItems category with
  | none => simp
  | some cloth =>
      simp only [Option.mem_some_iff, forall_eq']
      by_cases hfirst : order.CategoryFirst
      · -- the colour lands on the item that has it
        simp only [hfirst, true_or, iff_true, if_true]
        refine (sendColor_selectedItems_eq_iff (by exact hlast) order cloth.hex).mpr ?_
        intro worn hworn
        exact .inl (congrArg Cloth.hex (Option.some.inj (hcloth.symm.trans hworn)).symm)
      · simp only [hfirst, false_or, if_false]
        exact sendColor_selectedItems_eq_iff hlast order cloth.hex

theorem setCategory_currentCategory {vm : PickerCombineViewModel} (hwired : vm.Wired)
    (order : DeliveryOrder) (category : ClothCategory) :
    (vm.setCategory order category).currentCategory = category := by
  by_cases hsame : category = vm.currentCategory
  · rw [hsame, setCategory_current hwired]
  · rw [setCategory_eq_painted hwired order hsame]
    rfl

theorem setCategory_selectedItems_of_first {vm : PickerCombineViewModel} (hwired : vm.Wired)
    {order : DeliveryOrder} (hfirst : order.CategoryFirst) (category : ClothCategory) :
    (vm.setCategory order category).selectedItems = vm.selectedItems := by
  by_cases hsame : category = vm.currentCategory
  · rw [hsame, setCategory_current hwired]
  · rw [setCategory_eq_painted hwired order hsame, served_selectedItems]
    exact (painted_selectedItems_eq_iff (by exact hwired.hex) order category).mpr (.inl hfirst)

/-- Browsing to a category with an item ends with the colour of the item. -/
theorem setCategory_currentHex {vm : PickerCombineViewModel} (hwired : vm.Wired)
    (order : DeliveryOrder) {category : ClothCategory} (hother : category ≠ vm.currentCategory)
    {cloth : Cloth} (hcloth : vm.selectedItems category = some cloth) :
    (vm.setCategory order category).currentHex = cloth.hex := by
  rw [setCategory_eq_painted hwired order hother]
  simp only [served, painted, hcloth]
  exact sendColor_currentHex (by exact hwired.hex) order _

/-- Browsing to a category leaves the outfit as it is if and only if it is the
current category, or the order assigns the category first, or the colour of its item
finds no item of another colour in the category being left, or is dropped there. -/
theorem setCategory_keeps_outfit_iff {vm : PickerCombineViewModel} (hreached : Reached vm)
    (order : DeliveryOrder) (category : ClothCategory) :
    ((vm.setCategory order category).selectedItems = vm.selectedItems ∧
        (vm.setCategory order category).currentCategory = category) ↔
      category = vm.currentCategory ∨ order.CategoryFirst ∨
        ∀ cloth ∈ vm.selectedItems category, ∀ worn ∈ vm.selectedItems vm.currentCategory,
          worn.hex = cloth.hex ∨ vm.Drops cloth.hex := by
  have hwired := hreached.wired
  rw [and_iff_left (setCategory_currentCategory hwired order category)]
  by_cases hsame : category = vm.currentCategory
  · rw [hsame, setCategory_current hwired]
    exact iff_of_true rfl (.inl rfl)
  · rw [setCategory_eq_painted hwired order hsame, served_selectedItems,
      or_iff_right hsame]
    exact painted_selectedItems_eq_iff (by exact hwired.hex) order category

/-! ### A white cap and a black shirt -/

/-- The category publisher serves the subscriber that sends the colour first. -/
def colorSentFirst : DeliveryOrder where
  category := [.setColorSubject, .currentCategory, .currentPresets, .currentItems, .isColorEnable]
  color := ColorSubscriber.allInOrder
  category_perm := by decide
  color_perm := .refl _

/-- A white cap is put on, and then a black shirt. -/
def capAndShirt : PickerCombineViewModel :=
  [Edit.selectItem (some "cap"), .setCategory .top, .setColor (some "000000"),
    .selectItem (some "short")].foldl (edit .subscription) (init .subscription)

theorem reached_foldl_edit {vm : PickerCombineViewModel} (hreached : Reached vm)
    (order : DeliveryOrder) (changes : List Edit) : Reached (changes.foldl (edit order) vm) := by
  refine List.foldlRecOn changes (edit order) hreached ?_
  intro state hstate change _
  exact hstate.edit order change

theorem capAndShirt_reached : Reached capAndShirt :=
  reached_foldl_edit (.init .subscription) .subscription _

theorem capAndShirt_derived_state :
    itemDic .top = some capAndShirt.currentItems ∧ capAndShirt.currentHex = "000000" := by
  obtain ⟨hitems, _, _, hhex⟩ := derived_state_follows_category capAndShirt_reached
  have hcategory : capAndShirt.currentCategory = .top := by decide
  have hsent : capAndShirt.setColorSubject = some "000000" := by decide
  rw [hcategory] at hitems
  rw [hsent] at hhex
  exact ⟨hitems, hhex⟩

/-- Browsing back to the cap paints the shirt white if the colour is sent first. -/
theorem browsing_paints_shirt :
    ¬ ∀ vm, Reached vm → ∀ (order : DeliveryOrder) (category : ClothCategory),
      (vm.setCategory order category).selectedItems = vm.selectedItems ∧
        (vm.setCategory order category).currentCategory = category := by
  intro hkeeps
  have hsame := (hkeeps capAndShirt capAndShirt_reached colorSentFirst .hat).1
  exact absurd (congrFun hsame .top) (by decide)

/-- In subscription order it leaves the outfit as it is. -/
theorem browsing_keeps_shirt :
    (capAndShirt.setCategory .subscription .hat).selectedItems = capAndShirt.selectedItems ∧
      (capAndShirt.setCategory .subscription .hat).currentCategory = .hat :=
  (setCategory_keeps_outfit_iff capAndShirt_reached .subscription .hat).mpr
    (.inr (.inl (by decide)))

/-! ## Choosing a colour -/

/-- What choosing a colour should do: the item of the current category gets the
colour, and nothing else of the outfit changes. -/
def TakesEffect (vm next : PickerCombineViewModel) (hex : String) : Prop :=
  next.currentCategory = vm.currentCategory ∧ next.currentHex = hex ∧
    (∀ cloth, vm.selectedItems vm.currentCategory = some cloth →
      next.selectedItems vm.currentCategory = some { cloth with hex := hex }) ∧
    ∀ category, (category ≠ vm.currentCategory ∨ vm.selectedItems category = none) →
      next.selectedItems category = vm.selectedItems category

/-- A chosen colour takes effect if and only if it is not dropped in front of an item
of another colour. -/
theorem setColor_takes_effect_iff {vm : PickerCombineViewModel} (hreached : Reached vm)
    (order : DeliveryOrder) (hex : String) :
    TakesEffect vm (vm.setColor order (some hex)) hex ↔
      ∀ worn ∈ vm.selectedItems vm.currentCategory, worn.hex = hex ∨ ¬ vm.Drops hex := by
  rw [setColor, sendColor_eq hreached.wired.hex, Option.getD_some]
  by_cases hdrop : vm.Drops hex
  · rw [if_pos hdrop]
    constructor
    · rintro ⟨_, _, hitem, _⟩ worn hworn
      have hsame := (hitem worn hworn).symm.trans hworn
      exact .inl (congrArg Cloth.hex (Option.some.inj hsame)).symm
    · intro hworn
      refine ⟨rfl, rfl, ?_, fun _ _ => rfl⟩
      intro cloth hcloth
      have hhex : cloth.hex = hex := (hworn cloth hcloth).resolve_right (not_not_intro hdrop)
      subst hhex
      exact hcloth
  · rw [if_neg hdrop]
    refine iff_of_true ⟨rfl, rfl, ?_, ?_⟩ fun _ _ => .inr hdrop
    · intro cloth hcloth
      simp [recolor, showing, hcloth]
    · intro category hcategory
      by_cases hcurrent : category = vm.currentCategory
      · subst hcurrent
        have hnone := hcategory.resolve_left (not_not_intro rfl)
        simp [recolor, showing, hnone]
      · simp [recolor, showing, hcurrent]

/-! ### A black cap is loaded again -/

/-- The outfit with a black cap. -/
def blackCap : Outfit :=
  Function.update Outfit.empty .hat (some ⟨"cap", "000000", .hat⟩)

/-- The stored cap is loaded, painted white, and loaded once more. -/
def capLoadedAgain : PickerCombineViewModel :=
  (((init .subscription).load blackCap).edit .subscription
    (.setColor (some "FFFFFF"))).load blackCap

theorem capLoadedAgain_reached : Reached capLoadedAgain :=
  .load _ (.edit _ _ (.load _ (.init _)))

/-- Both filters hold white from the first time, and the cap stays black. -/
theorem white_is_dropped :
    ¬ ∀ vm, Reached vm → ∀ (order : DeliveryOrder) (hex : String),
      TakesEffect vm (vm.setColor order (some hex)) hex := by
  intro htakes
  have hitem := (htakes capLoadedAgain capLoadedAgain_reached .subscription "FFFFFF").2.2.1
    ⟨"cap", "000000", .hat⟩ (by decide)
  exact absurd hitem (by decide)

/-- Any other colour reaches the cap. -/
theorem red_takes_effect :
    TakesEffect capLoadedAgain (capLoadedAgain.setColor .subscription (some "DF002B")) "DF002B" :=
  (setColor_takes_effect_iff capLoadedAgain_reached .subscription "DF002B").mpr
    fun _ _ => .inr (by decide)

end PickerCombineViewModel

end Pompom
