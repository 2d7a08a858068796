import Pompom.Lib.Marked
import Pompom.Clothes.HexColor

/-!
# The figure and the grid

What the main screen draws: `ClothesView` stacks the clothes of an outfit, each as a
base image and a stroke image, and the accessories on top as a single image.  The
picker's grid shows the items of the current category in the same way, from the second
half of the asset catalogue, and frames the one that is worn.

Nothing checks that an image that a view names is in the catalogue; a missing one is not
drawn.  In every run the images that figures name exist, while those of the grid exist
unless its category is that of the accessories, which have no base images
(`images_exist`).  Two figures are drawn alike exactly when they show the same items in
colours that are equal as numbers, and in the same strokes (`drawn_alike_iff`).  A cell of
the grid is framed exactly if its item is worn (`grid_frames_worn`).
-/

namespace Pompom

open Lib

/-! ## Layers -/

/-- An image and its tint.  Without one the image is drawn in its own colours. -/
structure Layer where
  image : String
  foregroundColor : Option Color
  deriving DecidableEq

/-- `ClothView.body`, from the bottom. -/
def ClothViewModel.body (vm : ClothViewModel) : List Layer :=
  if vm.mainImageString ≠ "" then
    [⟨vm.mainImageString, some (.init vm.hex)⟩, ⟨vm.strokeIamgeString, some (.init vm.strokeHex)⟩]
  else []

/-- `ClothesViewModel.fetchImageString(with:)`. -/
def fetchImageString (selectedItems : Outfit) (category : ClothCategory) : String :=
  match (selectedItems category).map (·.id) with
  | some name => category.rawValue ++ "-" ++ name
  | none => ""

/-- `AccesoriesView`. -/
def accesoriesView (selectedItems : Outfit) : List Layer :=
  if isValidItem selectedItems .accessories then
    [⟨fetchImageString selectedItems .accessories, none⟩]
  else []

def zIndexIteration : List ClothCategory := [.hat, .shoes, .bottom, .top]

/-- `ClothesView`. -/
def clothesView (selectedItems : Outfit) : List Layer :=
  zIndexIteration.flatMap (fun category =>
    (ClothViewModel.init (selectedItems category) category).body) ++ accesoriesView selectedItems

/-- An item in the picker's grid. -/
structure GridItem where
  name : String
  /-- The image below, and its tint. -/
  image : String
  foregroundColor : Color
  /-- The image above, which is gray or else black. -/
  strokeImage : String
  isGray : Bool
  isFramed : Bool

namespace PickerCombineViewModel

/-- `fetchImageString(withName:)`, next to the one that is inherited. -/
def fetchImageString (vm : PickerCombineViewModel) (name : String) : String :=
  "c-" ++ vm.currentCategory.rawValue ++ "-" ++ name

/-- `currentItem`. -/
def currentItem (vm : PickerCombineViewModel) : Option Cloth :=
  vm.selectedItems vm.currentCategory

/-- `ClothPickerView.clothesGrid`. -/
def clothesGrid (vm : PickerCombineViewModel) : List GridItem :=
  vm.currentItems.map fun item =>
    { name := item
      image := vm.fetchImageString item ++ "B"
      foregroundColor := .init vm.currentHex
      strokeImage := vm.fetchImageString item
      isGray := vm.currentHex = "000000"
      isFramed := some item = vm.currentItem.map (·.id) }

end PickerCombineViewModel

/-- The image sets of `Assets.xcassets/Clothes`. -/
def clothesImages : List String :=
  ["accessories-glasses", "accessories-sunglasses", "bottom-long", "bottom-longB",
    "bottom-shorts", "bottom-shortsB", "bottom-skinny", "bottom-skinnyB", "bottom-skirta",
    "bottom-skirtaB", "bottom-skirtlong", "bottom-skirtlongB", "bottom-skirtshort",
    "bottom-skirtshortB", "bottom-tennisskirt", "bottom-tennisskirtB", "bottom-wide",
    "bottom-wideB", "hat-cap", "hat-capB", "hat-suncap", "hat-suncapB", "shoes-boots",
    "shoes-bootsB", "shoes-flat", "shoes-flatB", "shoes-sandals", "shoes-sandalsB",
    "shoes-slipper", "shoes-slipperB", "shoes-sneakers", "shoes-sneakersB", "shoes-socks",
    "shoes-socksB", "shoes-women", "shoes-womenB", "top-crop", "top-cropB",
    "top-linesleeveless", "top-linesleevelessB", "top-long", "top-longB", "top-offshoulder",
    "top-offshoulderB", "top-onepiece", "top-onepieceB", "top-pkonepiece", "top-pkonepieceB",
    "top-pkshirts", "top-pkshirtsB", "top-shirts", "top-shirtsB", "top-shirtslong",
    "top-shirtslongB", "top-short", "top-shortB", "top-sleeveless", "top-sleevelessB",
    "top-sleevelessonepiece", "top-sleevelessonepieceB"]

/-- The image sets of `Assets.xcassets/Clothes-c`. -/
def gridImages : List String :=
  ["c-accessories-glasses", "c-accessories-layered", "c-accessories-layeredB",
    "c-accessories-socks", "c-accessories-socksB", "c-accessories-sunglasses", "c-bottom-long",
    "c-bottom-longB", "c-bottom-shorts", "c-bottom-shortsB", "c-bottom-skinny",
    "c-bottom-skinnyB", "c-bottom-skirta", "c-bottom-skirtaB", "c-bottom-skirtlong",
    "c-bottom-skirtlongB", "c-bottom-skirtshort", "c-bottom-skirtshortB", "c-bottom-skirtwide",
    "c-bottom-skirtwideB", "c-bottom-tennisskirt", "c-bottom-tennisskirtB", "c-bottom-wide",
    "c-bottom-wideB", "c-hat-cap", "c-hat-capB", "c-hat-suncap", "c-hat-suncapB",
    "c-shoes-boots", "c-shoes-bootsB", "c-shoes-flat", "c-shoes-flatB", "c-shoes-sandals",
    "c-shoes-sandalsB", "c-shoes-slipper", "c-shoes-slipperB", "c-shoes-sneakers",
    "c-shoes-sneakersB", "c-shoes-women", "c-shoes-womenB", "c-top-crop", "c-top-cropB",
    "c-top-linesleeveless", "c-top-linesleevelessB", "c-top-long", "c-top-longB",
    "c-top-offshoulder", "c-top-offshoulderB", "c-top-onepiece", "c-top-onepieceB",
    "c-top-pkonepiece", "c-top-pkonepieceB", "c-top-pkshirts", "c-top-pkshirtsB",
    "c-top-shirts", "c-top-shirtsB", "c-top-shirtslong", "c-top-shirtslongB", "c-top-short",
    "c-top-shortB", "c-top-sleeveless", "c-top-sleevelessB", "c-top-sleevelessonepiece",
    "c-top-sleevelessonepieceB"]

/-- The images of clothes that the app can show. -/
def assets : List String := clothesImages ++ gridImages

/-! ## What a figure shows -/

/-- The layers of a category, of which the accessories are the topmost. -/
def segment (selectedItems : Outfit) (category : ClothCategory) : List Layer :=
  if category = .accessories then accesoriesView selectedItems
  else (ClothViewModel.init (selectedItems category) category).body

/-- The layers of an item that is drawn. -/
def Cloth.layers (cloth : Cloth) (category : ClothCategory) : List Layer :=
  if category = .accessories then [⟨category.rawValue ++ "-" ++ cloth.id, none⟩]
  else
    [⟨category.rawValue ++ "-" ++ cloth.id ++ "B", some (.init cloth.hex)⟩,
      ⟨category.rawValue ++ "-" ++ cloth.id,
        some (.init (if cloth.hex = "000000" then "DADADA" else "121212"))⟩]

def drawOrder : List ClothCategory := zIndexIteration ++ [.accessories]

theorem mem_drawOrder (category : ClothCategory) : category ∈ drawOrder := by
  cases category <;> decide

theorem clothesView_eq (selectedItems : Outfit) :
    clothesView selectedItems = drawOrder.flatMap (segment selectedItems) := by
  simp [clothesView, drawOrder, zIndexIteration, segment]

/-- A view model draws its item if the item is visible. -/
theorem body_eq (entry : Option Cloth) {category : ClothCategory}
    (hcategory : category ≠ .accessories) :
    (ClothViewModel.init entry category).body =
      ((entry.filter fun cloth => decide cloth.Visible).map (·.layers category)).getD [] := by
  cases entry with
  | none => simp [ClothViewModel.init, ClothViewModel.body]
  | some cloth =>
      by_cases hvisible : cloth.id ≠ "" ∧ cloth.id ≠ " "
      · simp [ClothViewModel.init, ClothViewModel.receive, ClothViewModel.body, hvisible,
          Cloth.Visible, Cloth.layers, hcategory, Option.filter_some]
      · simp [ClothViewModel.init, ClothViewModel.receive, ClothViewModel.body, hvisible,
          Cloth.Visible, Option.filter_some]

/-- On listed entries both renderers draw the visible items, and nothing else. -/
theorem segment_eq {outfit : Outfit} (heach : outfit.Each Cloth.Listed)
    (category : ClothCategory) :
    segment outfit category = ((outfit.visible category).map (·.layers category)).getD [] := by
  by_cases hcategory : category = .accessories
  · subst hcategory
    have hvalid := isValidItem_iff_mainImageString heach .accessories
    rw [ClothViewModel.mainImageString_ne_empty_iff] at hvalid
    rw [segment, if_pos rfl, accesoriesView]
    simp only [hvalid, Outfit.visible, fetchImageString]
    cases outfit .accessories with
    | none => simp
    | some cloth =>
        by_cases hvisible : cloth.Visible
        · simp [hvisible, Cloth.layers, Option.filter_some]
        · simp [hvisible, Option.filter_some]
  · rw [segment, if_neg hcategory]
    exact body_eq (outfit category) hcategory

/-! ## The images exist -/

theorem Cloth.image_mem_assets {cloth : Cloth} {category : ClothCategory}
    (hname : cloth.id ∈ (itemDic category).getD []) {layer : Layer}
    (hlayer : layer ∈ cloth.layers category) : layer.image ∈ assets := by
  have hall : ∀ name ∈ (itemDic category).getD [],
      category.rawValue ++ "-" ++ name ∈ assets ∧
        (category ≠ .accessories → category.rawValue ++ "-" ++ name ++ "B" ∈ assets) := by
    cases category <;> decide +kernel
  obtain ⟨hstroke, hbase⟩ := hall cloth.id hname
  rw [Cloth.layers] at hlayer
  split at hlayer
  · obtain rfl := List.mem_singleton.mp hlayer
    exact hstroke
  · rename_i hcategory
    simp only [List.mem_cons, List.not_mem_nil, or_false] at hlayer
    rcases hlayer with rfl | rfl
    · exact hbase hcategory
    · exact hstroke

/-- Every layer of a figure belongs to a visible item. -/
theorem exists_cloth_of_mem_clothesView {outfit : Outfit} (heach : outfit.Each Cloth.Listed)
    {layer : Layer} (hlayer : layer ∈ clothesView outfit) :
    ∃ category cloth, outfit.visible category = some cloth ∧ layer ∈ cloth.layers category := by
  rw [clothesView_eq] at hlayer
  obtain ⟨category, _, hsegment⟩ := List.mem_flatMap.mp hlayer
  rw [segment_eq heach] at hsegment
  cases hvisible : outfit.visible category with
  | none => simp [hvisible] at hsegment
  | some cloth =>
      refine ⟨category, cloth, hvisible, ?_⟩
      simpa [hvisible] using hsegment

theorem Outfit.Each.name_mem_itemDic {outfit : Outfit} (heach : outfit.Each Cloth.Listed)
    {category : ClothCategory} {cloth : Cloth} (hvisible : outfit.visible category = some cloth) :
    cloth.id ∈ (itemDic category).getD [] := by
  obtain ⟨hentry, hdrawn⟩ := Option.filter_eq_some_iff.mp hvisible
  obtain ⟨rfl, hlisted⟩ := heach category cloth hentry
  exact hlisted.resolve_left (of_decide_eq_true hdrawn).2

theorem clothesView_images {outfit : Outfit} (heach : outfit.Each Cloth.Listed) {layer : Layer}
    (hlayer : layer ∈ clothesView outfit) : layer.image ∈ assets := by
  obtain ⟨category, cloth, hvisible, hmem⟩ := exists_cloth_of_mem_clothesView heach hlayer
  exact Cloth.image_mem_assets (heach.name_mem_itemDic hvisible) hmem

/-! ## What two figures have in common -/

/-- The first letter of an image's name. -/
def Layer.initial (layer : Layer) : Option Char :=
  layer.image.toList.head?

def ClothCategory.initial (category : ClothCategory) : Option Char :=
  category.rawValue.toList.head?

/-- The initials of the categories differ. -/
theorem nodup_initials : (drawOrder.map ClothCategory.initial).Nodup := by
  decide

theorem initial_append (category : ClothCategory) (rest : String) :
    (category.rawValue ++ rest).toList.head? = category.initial := by
  cases category <;> simp [ClothCategory.initial, ClothCategory.rawValue]

theorem segment_bearsMarks {outfit : Outfit} (heach : outfit.Each Cloth.Listed) :
    BearsMarks Layer.initial ClothCategory.initial (segment outfit) := by
  intro category layer hlayer
  rw [segment_eq heach] at hlayer
  cases hvisible : outfit.visible category with
  | none => simp [hvisible] at hlayer
  | some cloth =>
      simp only [hvisible, Option.map_some, Option.getD_some, Cloth.layers] at hlayer
      split at hlayer
      · obtain rfl := List.mem_singleton.mp hlayer
        rw [Layer.initial, String.append_assoc, initial_append]
      · simp only [List.mem_cons, List.not_mem_nil, or_false] at hlayer
        rcases hlayer with rfl | rfl
        · rw [Layer.initial, String.append_assoc, String.append_assoc, initial_append]
        · rw [Layer.initial, String.append_assoc, initial_append]

/-- Two strings stand for one colour if they are printed alike. -/
theorem color_init_eq_iff {first second : String} :
    Color.init first = Color.init second ↔ normalHex first = normalHex second := by
  constructor
  · intro hsame
    rw [normalHex, hsame, normalHex]
  · intro hsame
    rw [normalHex_eq, normalHex_eq, String.ofList_inj] at hsame
    have hvalue := congrArg hexValue hsame
    rw [hexValue_toHex, hexValue_toHex] at hvalue
    obtain ⟨hr, hg, hb⟩ := toNat_channels (Scanner.scanHexInt64 first)
    obtain ⟨hr', hg', hb'⟩ := toNat_channels (Scanner.scanHexInt64 second)
    rw [Color.init, Color.init]
    simp only [hr, hg, hb, hr', hg', hb']
    have hred : (Scanner.scanHexInt64 first).toNat / 16 ^ 4 % 16 ^ 2 =
        (Scanner.scanHexInt64 second).toNat / 16 ^ 4 % 16 ^ 2 := by omega
    have hgreen : (Scanner.scanHexInt64 first).toNat / 16 ^ 2 % 16 ^ 2 =
        (Scanner.scanHexInt64 second).toNat / 16 ^ 2 % 16 ^ 2 := by omega
    have hblue : (Scanner.scanHexInt64 first).toNat % 16 ^ 2 =
        (Scanner.scanHexInt64 second).toNat % 16 ^ 2 := by omega
    rw [hred, hgreen, hblue]

/-- Two items of a category that are drawn alike: the accessories have no tint, and the
stroke depends on whether the colour is written as black. -/
def Cloth.DrawnLike (category : ClothCategory) (cloth other : Cloth) : Prop :=
  cloth.id = other.id ∧
    (category ≠ .accessories →
      normalHex cloth.hex = normalHex other.hex ∧ (cloth.hex = "000000" ↔ other.hex = "000000"))

/-- The two stroke colours differ. -/
theorem strokeColor_eq_iff {first second : String} :
    Color.init (if first = "000000" then "DADADA" else "121212") =
        Color.init (if second = "000000" then "DADADA" else "121212") ↔
      (first = "000000" ↔ second = "000000") := by
  have hstrokes : Color.init "DADADA" ≠ Color.init "121212" := by
    rw [Ne, color_init_eq_iff]
    decide +kernel
  by_cases hfirst : first = "000000" <;> by_cases hsecond : second = "000000"
  · simp [hfirst, hsecond]
  · simp [hfirst, hsecond, hstrokes]
  · simp [hfirst, hsecond, hstrokes.symm]
  · simp [hfirst, hsecond]

theorem Cloth.layers_eq_iff {cloth other : Cloth} {category : ClothCategory} :
    cloth.layers category = other.layers category ↔ Cloth.DrawnLike category cloth other := by
  rw [Cloth.layers, Cloth.layers, Cloth.DrawnLike]
  by_cases hcategory : category = .accessories
  · simp [hcategory]
  · simp only [hcategory, if_false, List.cons.injEq, Layer.mk.injEq, Option.some.injEq,
      String.append_right_inj, String.append_left_inj, strokeColor_eq_iff, and_true, ne_eq,
      not_false_eq_true, forall_const]
    rw [color_init_eq_iff]
    constructor
    · rintro ⟨⟨hid, hhex⟩, _, hstroke⟩
      exact ⟨hid, hhex, hstroke⟩
    · rintro ⟨hid, hhex, hstroke⟩
      exact ⟨⟨hid, hhex⟩, hid, hstroke⟩

theorem Cloth.layers_ne_nil (cloth : Cloth) (category : ClothCategory) :
    cloth.layers category ≠ [] := by
  rw [Cloth.layers]
  split <;> simp

theorem layers_eq_iff_rel {shown other : Option Cloth} {category : ClothCategory} :
    (shown.map (·.layers category)).getD [] = (other.map (·.layers category)).getD [] ↔
      Option.Rel (Cloth.DrawnLike category) shown other := by
  cases shown with
  | none =>
      cases other with
      | none => exact iff_of_true rfl .none
      | some other =>
          refine iff_of_false ?_ (by rintro ⟨⟩)
          exact fun hsame => other.layers_ne_nil category hsame.symm
  | some cloth =>
      cases other with
      | none =>
          refine iff_of_false ?_ (by rintro ⟨⟩)
          exact fun hsame => cloth.layers_ne_nil category hsame
      | some other =>
          constructor
          · intro hsame
            exact .some (Cloth.layers_eq_iff.mp hsame)
          · rintro ⟨halike⟩
            exact Cloth.layers_eq_iff.mpr halike

/-- Figures are drawn alike if they show the same categories, and in each of them items
that are drawn alike. -/
theorem clothesView_eq_iff {first second : Outfit} (hfirst : first.Each Cloth.Listed)
    (hsecond : second.Each Cloth.Listed) :
    clothesView first = clothesView second ↔
      ∀ category, Option.Rel (Cloth.DrawnLike category) (first.visible category)
        (second.visible category) := by
  rw [clothesView_eq, clothesView_eq,
    flatMap_eq_iff_of_mark (segment_bearsMarks hfirst) (segment_bearsMarks hsecond)
      nodup_initials]
  simp only [segment_eq hfirst, segment_eq hsecond, layers_eq_iff_rel, mem_drawOrder,
    forall_const]

namespace PickerCombineViewModel

variable {vm : PickerCombineViewModel}

/-! ## The grid -/

theorem nodup_itemDic (category : ClothCategory) : ((itemDic category).getD []).Nodup := by
  cases category <;> decide

/-- The accessories lack their base images. -/
theorem clothesGrid_images_iff (hwired : vm.Wired) :
    (∀ item ∈ vm.clothesGrid, item.image ∈ assets ∧ item.strokeImage ∈ assets) ↔
      vm.currentCategory ≠ .accessories := by
  have hall : ∀ category : ClothCategory, (∀ name ∈ (itemDic category).getD [],
      "c-" ++ category.rawValue ++ "-" ++ name ++ "B" ∈ assets ∧
        "c-" ++ category.rawValue ++ "-" ++ name ∈ assets) ↔ category ≠ .accessories := by
    intro category
    cases category <;> decide +kernel
  rw [← hall, clothesGrid, hwired.items, List.forall_mem_map]
  rfl

/-- The frame is around the item of the current category that is on the figure, if there
is one. -/
theorem framed_eq (hwired : vm.Wired) (heach : vm.selectedItems.Each Cloth.Listed) :
    (vm.clothesGrid.filter (·.isFramed)).map (·.name) =
      ((vm.selectedItems.visible vm.currentCategory).map (·.id)).toList := by
  have hnames : (vm.clothesGrid.filter (·.isFramed)).map (·.name) =
      ((itemDic vm.currentCategory).getD []).filter fun item =>
        some item = vm.currentItem.map (·.id) := by
    simp [clothesGrid, hwired.items, List.filter_map, Function.comp_def]
  rw [hnames]
  cases hvisible : vm.selectedItems.visible vm.currentCategory with
  | some cloth =>
      have hentry : vm.currentItem = some cloth := (Option.filter_eq_some_iff.mp hvisible).1
      have hname := heach.name_mem_itemDic hvisible
      simp only [hentry, Option.map_some, Option.some.injEq, Option.toList_some]
      rw [List.filter_eq, List.count_eq_one_of_mem (nodup_itemDic vm.currentCategory) hname,
        List.replicate_one]
  | none =>
      rw [Option.map_none, Option.toList_none, List.filter_eq_nil_iff]
      intro item hitem hframed
      obtain ⟨cloth, hentry, hid⟩ := Option.map_eq_some_iff.mp (of_decide_eq_true hframed).symm
      refine Outfit.visible_eq_none_iff.mp hvisible cloth hentry ?_
      rw [Cloth.Visible, hid]
      exact mem_itemDic_visible hitem

end PickerCombineViewModel

/-- The outfit behind a figure. -/
def ClothesClient.figure (client : ClothesClient) : FigureSide → Outfit
  | .own => client.picker.selectedItems
  | .partner => client.partner

theorem ClothesClient.Each.figure {Q : Cloth → Prop} {client : ClothesClient}
    (heach : client.Each Q) (side : FigureSide) : (client.figure side).Each Q := by
  cases side with
  | own => exact heach.picker
  | partner => exact heach.partner

namespace Wardrobe

variable {ι : Type*} [DecidableEq ι] {codes : ι → Option String} {orders : ι → DeliveryOrder}
  {state : Wardrobe ι}

/-! ## Runs -/

/-- In every state of every run, the images that the figures name exist, and those of the
grid exist unless the picker is at the accessories. -/
theorem images_exist (hreach : Reaches (step codes) Offered (start orders) state) (index : ι) :
    (∀ side, ∀ layer ∈ clothesView ((state.clients index).figure side), layer.image ∈ assets) ∧
      ((∀ item ∈ (state.clients index).picker.clothesGrid,
          item.image ∈ assets ∧ item.strokeImage ∈ assets) ↔
        (state.clients index).picker.currentCategory ≠ .accessories) := by
  obtain ⟨hwired, heach⟩ := reaches_listed hreach
  refine ⟨?_, PickerCombineViewModel.clothesGrid_images_iff (hwired index)⟩
  intro side layer hlayer
  exact clothesView_images ((heach.clients index).figure side) hlayer

/-- Two figures anywhere are drawn alike if and only if they show the same items, in
colours with the same number and in the same strokes. -/
theorem drawn_alike_iff (hreach : Reaches (step codes) Offered (start orders) state)
    (first second : ι) (side other : FigureSide) :
    clothesView ((state.clients first).figure side) =
        clothesView ((state.clients second).figure other) ↔
      ∀ category, Option.Rel (Cloth.DrawnLike category)
        (((state.clients first).figure side).visible category)
        (((state.clients second).figure other).visible category) := by
  have heach := (reaches_listed hreach).2
  exact clothesView_eq_iff ((heach.clients first).figure side)
    ((heach.clients second).figure other)

/-- The grid frames the item of the current category that the figure shows. -/
theorem grid_frames_worn (hreach : Reaches (step codes) Offered (start orders) state)
    (index : ι) :
    (((state.clients index).picker.clothesGrid.filter (·.isFramed)).map (·.name)) =
      (((state.clients index).figure .own).visible
        (state.clients index).picker.currentCategory).toList.map (·.id) := by
  obtain ⟨hwired, heach⟩ := reaches_listed hreach
  rw [PickerCombineViewModel.framed_eq (hwired index) (heach.clients index).picker,
    Option.toList_map]
  rfl

/-! ### Two caps -/

/-- A client receives the other one's cap and puts on a cap as well. -/
def capsMatched : List (WardrobeEvent Bool) :=
  capShared ++ [.edit false .subscription (.selectItem (some "cap"))]

theorem capsMatched_run :
    ∃ state : Wardrobe Bool,
      Reaches (step fun client => some (if client then "ABC" else "DEF")) Offered
        (start fun _ => .subscription) state ∧
      (∀ side, ((state.clients false).figure side).visible =
        Function.update Outfit.empty .hat (some ⟨"cap", "FFFFFF", .hat⟩)) ∧
      (state.clients false).picker.currentCategory = .hat := by
  have hrun : ∃ state : Wardrobe Bool,
      Reaches (step fun client => some (if client then "ABC" else "DEF")) Offered
        (start fun _ => .subscription) state ∧
      (∀ side ∈ [FigureSide.own, .partner], ∀ category,
        ((state.clients false).figure side).visible category =
          Function.update Outfit.empty .hat (some ⟨"cap", "FFFFFF", .hat⟩) category) ∧
      (state.clients false).picker.currentCategory = .hat :=
    exists_reaches_of_run capsMatched (by decide)
  obtain ⟨state, hreach, hcaps, hcategory⟩ := hrun
  refine ⟨state, hreach, fun side => funext (hcaps side ?_), hcategory⟩
  cases side <;> decide

theorem images_exist_capsMatched :
    ∃ state : Wardrobe Bool,
      Reaches (step fun client => some (if client then "ABC" else "DEF")) Offered
        (start fun _ => .subscription) state ∧
      ∀ item ∈ (state.clients false).picker.clothesGrid,
        item.image ∈ assets ∧ item.strokeImage ∈ assets := by
  obtain ⟨state, hreach, _, hcategory⟩ := capsMatched_run
  refine ⟨state, hreach, (images_exist hreach false).2.mpr ?_⟩
  rw [hcategory]
  decide

theorem drawn_alike_capsMatched :
    ∃ state : Wardrobe Bool,
      Reaches (step fun client => some (if client then "ABC" else "DEF")) Offered
        (start fun _ => .subscription) state ∧
      clothesView ((state.clients false).figure .own) =
        clothesView ((state.clients false).figure .partner) := by
  obtain ⟨state, hreach, hcaps, _⟩ := capsMatched_run
  refine ⟨state, hreach, (drawn_alike_iff hreach false false .own .partner).mpr ?_⟩
  intro category
  rw [hcaps, hcaps]
  cases category with
  | hat => exact .some ⟨rfl, fun _ => ⟨rfl, .rfl⟩⟩
  | top => exact .none
  | bottom => exact .none
  | shoes => exact .none
  | accessories => exact .none

theorem grid_frames_worn_capsMatched :
    ∃ state : Wardrobe Bool,
      Reaches (step fun client => some (if client then "ABC" else "DEF")) Offered
        (start fun _ => .subscription) state ∧
      ((state.clients false).picker.clothesGrid.filter (·.isFramed)).map (·.name) = ["cap"] := by
  obtain ⟨state, hreach, hcaps, hcategory⟩ := capsMatched_run
  refine ⟨state, hreach, ?_⟩
  rw [grid_frames_worn hreach false, hcaps, hcategory]
  rfl

end Wardrobe

end Pompom
