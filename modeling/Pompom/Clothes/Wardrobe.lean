import Pompom.Lib.Run
import Pompom.Clothes.FailedLoad
import Pompom.Clothes.PickerWiring

/-!
# All clients and the clothes they share

Any number of clients edit their outfits, upload them with `uploadItem`, and
listen to clothes documents, their own (`requestClothes`) and those of other users
(`requestPartnerClothes`).  A listener writes the view model it was registered for:
the picker, or the `ClothesViewModel` of the partner's figure.  It may be given the
versions of its document in any order, several times or not at all, and it may fail.
The collection is written by `saveClothes` only, so every document is the encoding of
an outfit that some picker held.

`Wardrobe.Each Q` says that `Q` holds of every entry anywhere in the system: in the
view models, in the uploads and in the dictionaries that the closures captured.
Uploads and deliveries keep it whatever `Q` is (`step_each`), so an invariant of the
entries has to be checked for the edits only.

The first such invariant is that every entry is blank or an item of its category.
It makes the two tests for blank items agree: `ClothesViewModel.isValidItem`, by which
the accessories are drawn, and the one in `ClothViewModel.init`, by which everything
else is (`entries_stay_well_formed`).
-/

namespace Pompom

open Lib ClothesManager

/-! ## The system -/

/-- The two view models of the main screen. -/
inductive FigureSide where
  | own
  | partner
  deriving DecidableEq, Repr

/-- A listener: the view model that its completion assigns, the code of its document
and the dictionary its closure captured. -/
structure SideListener where
  side : FigureSide
  userCode : String
  returnValue : Outfit

structure ClothesClient where
  /-- `myClothViewModel`. -/
  picker : PickerCombineViewModel
  /-- `partnerClothViewModel.selectedItems`. -/
  partner : Outfit := .empty
  listeners : List SideListener := []

namespace ClothesClient

/-- The completion of a listener. -/
def assign (client : ClothesClient) (clothes : Outfit) : FigureSide → ClothesClient
  | .own => { client with picker := client.picker.load clothes }
  | .partner => { client with partner := clothes }

/-- `loadClothes` registers a listener. -/
def loadClothes (client : ClothesClient) (side : FigureSide) (userCode : String) :
    ClothesClient :=
  { client with listeners := client.listeners ++ [⟨side, userCode, .empty⟩] }

/-- A listener handles an event. -/
def handle (client : ClothesClient) (index : ℕ) (listener : SideListener)
    (event : ListenerEvent) : Option ClothesClient :=
  match loadClothesListener listener.returnValue event with
  | .error _ => none
  | .ok (returnValue, passed) =>
      let listened : ClothesClient :=
        { client with
          listeners := client.listeners.set index { listener with returnValue := returnValue } }
      match passed with
      | some clothes => some (listened.assign clothes listener.side)
      | none => some listened

end ClothesClient

/-- The clients, and the outfits stored under a code, oldest first. -/
structure Wardrobe (ι : Type*) where
  clients : ι → ClothesClient
  uploads : String → List Outfit

inductive WardrobeEvent (ι : Type*) where
  | edit (client : ι) (order : DeliveryOrder) (change : PickerCombineViewModel.Edit)
  | uploadItem (client : ι)
  | requestClothes (client : ι)
  /-- UserDefaults may hold any `partner_code`. -/
  | requestPartnerClothes (client : ι) (partnerCode : String)
  /-- A listener is given a version of its document. -/
  | snapshot (client : ι) (listener version : ℕ)
  | failure (client : ι) (listener : ℕ) (error : String)

namespace Wardrobe

variable {ι : Type*}

/-- Fresh clients, and no clothes document. -/
def start (orders : ι → DeliveryOrder) : Wardrobe ι :=
  ⟨fun client => { picker := .init (orders client) }, fun _ => []⟩

/-- The data of a version of a clothes document, if there is such a version. -/
def version (state : Wardrobe ι) (userCode : String) : ℕ → Option (Option Document)
  | 0 => some none
  | n + 1 => (state.uploads userCode)[n]?.map fun outfit => some (parseClothes outfit)

variable [DecidableEq ι]

def setClient (state : Wardrobe ι) (index : ι) (client : ClothesClient) : Wardrobe ι :=
  { state with clients := Function.update state.clients index client }

/-- The codes are those that the clients hold in UserDefaults. -/
def step (codes : ι → Option String) (state : Wardrobe ι) :
    WardrobeEvent ι → Option (Wardrobe ι)
  | .edit index order change =>
      some (state.setClient index
        { state.clients index with picker := (state.clients index).picker.edit order change })
  | .uploadItem index =>
      match codes index with
      | some code =>
          some { state with
            uploads := Function.update state.uploads code
              (state.uploads code ++ [(state.clients index).picker.selectedItems]) }
      | none => some state
  | .requestClothes index =>
      match codes index with
      | some code => some (state.setClient index ((state.clients index).loadClothes .own code))
      | none => some state
  | .requestPartnerClothes index partnerCode =>
      some (state.setClient index ((state.clients index).loadClothes .partner partnerCode))
  | .snapshot index listener version =>
      match (state.clients index).listeners[listener]? with
      | none => none
      | some registered =>
          match state.version registered.userCode version with
          | none => none
          | some data =>
              ((state.clients index).handle listener registered (.document data)).map
                (state.setClient index)
  | .failure index listener error =>
      match (state.clients index).listeners[listener]? with
      | none => none
      | some registered =>
          ((state.clients index).handle listener registered (.failed error)).map
            (state.setClient index)

/-- The transitions of `step`: an edit, an upload, the registration of a listener, an
event of a listener, or nothing for want of a code. -/
inductive Transition (state : Wardrobe ι) : WardrobeEvent ι → Wardrobe ι → Prop where
  | edit (index : ι) (order : DeliveryOrder) (change : PickerCombineViewModel.Edit) :
      Transition state (.edit index order change) (state.setClient index
        { state.clients index with picker := (state.clients index).picker.edit order change })
  | upload (index : ι) (code : String) :
      Transition state (.uploadItem index) { state with
        uploads := Function.update state.uploads code
          (state.uploads code ++ [(state.clients index).picker.selectedItems]) }
  | idle (event : WardrobeEvent ι) : Transition state event state
  | register (event : WardrobeEvent ι) (index : ι) (side : FigureSide) (userCode : String) :
      Transition state event
        (state.setClient index ((state.clients index).loadClothes side userCode))
  | handle (event : WardrobeEvent ι) {index : ι} {number : ℕ} {listener : SideListener}
      {delivered : ListenerEvent} {client : ClothesClient} :
      (state.clients index).listeners[number]? = some listener →
      (delivered.snapShot.join = none ∨
        ∃ outfit ∈ state.uploads listener.userCode,
          delivered = .document (some (parseClothes outfit))) →
      (state.clients index).handle number listener delivered = some client →
      Transition state event (state.setClient index client)

omit [DecidableEq ι] in
theorem version_eq {state : Wardrobe ι} {userCode : String} {number : ℕ} {data : Option Document}
    (hdata : state.version userCode number = some data) :
    data = none ∨ ∃ outfit ∈ state.uploads userCode, data = some (parseClothes outfit) := by
  cases number with
  | zero => exact .inl (Option.some.inj hdata).symm
  | succ n =>
      obtain ⟨outfit, houtfit, hencoded⟩ := Option.map_eq_some_iff.mp hdata
      exact .inr ⟨outfit, List.mem_of_getElem? houtfit, hencoded.symm⟩

theorem transition_of_step {codes : ι → Option String} {state next : Wardrobe ι}
    {event : WardrobeEvent ι} (hstep : state.step codes event = some next) :
    Transition state event next := by
  cases event with
  | edit index order change =>
      obtain rfl := Option.some.inj hstep
      exact .edit index order change
  | uploadItem index =>
      -- without a code of its own a client does nothing
      simp only [step] at hstep
      split at hstep <;> obtain rfl := Option.some.inj hstep
      · exact .upload index _
      · exact .idle _
  | requestClothes index =>
      simp only [step] at hstep
      split at hstep <;> obtain rfl := Option.some.inj hstep
      · exact .register _ index _ _
      · exact .idle _
  | requestPartnerClothes index partnerCode =>
      obtain rfl := Option.some.inj hstep
      exact .register _ index _ _
  | snapshot index listener number =>
      simp only [step] at hstep
      split at hstep
      · simp at hstep
      · rename_i registered hregistered
        split at hstep
        · simp at hstep
        · rename_i data hdata
          obtain ⟨client, hclient, rfl⟩ := Option.map_eq_some_iff.mp hstep
          refine .handle _ hregistered ?_ hclient
          rcases version_eq hdata with rfl | ⟨outfit, houtfit, rfl⟩
          · exact .inl rfl
          · exact .inr ⟨outfit, houtfit, rfl⟩
  | failure index listener error =>
      simp only [step] at hstep
      split at hstep
      · simp at hstep
      · rename_i registered hregistered
        obtain ⟨client, hclient, rfl⟩ := Option.map_eq_some_iff.mp hstep
        exact .handle _ hregistered (.inl rfl) hclient

end Wardrobe

/-! ## Invariants of the entries -/

/-- Every entry carries its category and satisfies `Q`. -/
def Outfit.Each (Q : Cloth → Prop) (outfit : Outfit) : Prop :=
  ∀ category cloth, outfit category = some cloth → cloth.category = category ∧ Q cloth

section

variable {Q : Cloth → Prop}

theorem Outfit.each_empty : Outfit.Each Q .empty := by
  intro category cloth hcloth
  simp at hcloth

theorem Outfit.Each.keyed {outfit : Outfit} (heach : outfit.Each Q) : outfit.Keyed :=
  fun category cloth hcloth => (heach category cloth hcloth).1

theorem Outfit.Each.update {outfit : Outfit} (heach : outfit.Each Q) {category : ClothCategory}
    {entry : Option Cloth}
    (hentry : ∀ cloth, entry = some cloth → cloth.category = category ∧ Q cloth) :
    Outfit.Each Q (Function.update outfit category entry) := by
  intro other cloth hcloth
  by_cases hother : other = category
  · subst hother
    exact hentry cloth (by simpa using hcloth)
  · exact heach other cloth (by simpa [hother] using hcloth)

/-- Laying a stored outfit over another one mixes their entries. -/
theorem Outfit.Each.overlay_stored {returnValue outfit : Outfit} (hreturn : returnValue.Each Q)
    (heach : outfit.Each Q) : Outfit.Each Q (overlay returnValue (stored outfit)) := by
  intro category cloth hcloth
  cases hstored : stored outfit category with
  | none => exact hreturn category cloth (by simpa [overlay, hstored] using hcloth)
  | some entry =>
      obtain rfl : entry = cloth := by simpa [overlay, hstored] using hcloth
      exact heach category entry (eq_of_stored heach.keyed hstored)

/-- What a listener can be given: nothing, or the encoding of an outfit with `Q`. -/
def ListenerEvent.Carries (Q : Cloth → Prop) (event : ListenerEvent) : Prop :=
  event.snapShot.join = none ∨
    ∃ outfit : Outfit, outfit.Each Q ∧ event = .document (some (parseClothes outfit))

/-- The listener never traps, and passes on a dictionary with `Q`. -/
theorem exists_loaded_each {returnValue : Outfit} {event : ListenerEvent}
    (hreturn : returnValue.Each Q) (hevent : ListenerEvent.Carries Q event) :
    ∃ loaded : Outfit, loadClothesListener returnValue event = .ok (loaded, some loaded) ∧
      loaded.Each Q := by
  rcases hevent with hnone | ⟨outfit, heach, rfl⟩
  · exact ⟨returnValue, by rw [loadClothesListener, hnone], hreturn⟩
  · exact ⟨_, loadClothesListener_parseClothes returnValue outfit, hreturn.overlay_stored heach⟩

/-- `Q` holds of all entries that a client knows. -/
structure ClothesClient.Each (Q : Cloth → Prop) (client : ClothesClient) : Prop where
  picker : client.picker.selectedItems.Each Q
  partner : client.partner.Each Q
  listeners : ∀ listener ∈ client.listeners, listener.returnValue.Each Q

namespace ClothesClient

theorem loadClothes_each {client : ClothesClient} (heach : client.Each Q) (side : FigureSide)
    (userCode : String) : (client.loadClothes side userCode).Each Q := by
  refine ⟨heach.picker, heach.partner, ?_⟩
  intro listener hlistener
  rcases List.mem_append.mp hlistener with hold | hnew
  · exact heach.listeners listener hold
  · obtain rfl := List.mem_singleton.mp hnew
    exact Outfit.each_empty

theorem assign_each {client : ClothesClient} (heach : client.Each Q) {clothes : Outfit}
    (hclothes : clothes.Each Q) (side : FigureSide) : (client.assign clothes side).Each Q := by
  cases side with
  | own => exact ⟨hclothes, heach.partner, heach.listeners⟩
  | partner => exact ⟨heach.picker, hclothes, heach.listeners⟩

/-- A delivery replaces the captured dictionary and one of the two outfits. -/
theorem handle_each {client next : ClothesClient} (heach : client.Each Q) {index : ℕ}
    {listener : SideListener} (hlistener : client.listeners[index]? = some listener)
    {event : ListenerEvent} (hevent : ListenerEvent.Carries Q event)
    (hnext : client.handle index listener event = some next) : next.Each Q := by
  have hreturn := heach.listeners listener (List.mem_of_getElem? hlistener)
  obtain ⟨loaded, hload, hloaded⟩ := exists_loaded_each hreturn hevent
  have hlisteners : ∀ other ∈ client.listeners.set index { listener with returnValue := loaded },
      other.returnValue.Each Q := by
    intro other hother
    rcases List.mem_or_eq_of_mem_set hother with hold | rfl
    · exact heach.listeners other hold
    · exact hloaded
  simp only [handle, hload, Option.some.injEq] at hnext
  subst hnext
  exact assign_each (by exact ⟨heach.picker, heach.partner, hlisteners⟩) hloaded listener.side

/-- A delivery leaves the wiring of the picker alone. -/
theorem handle_wired {client next : ClothesClient} (hwired : client.picker.Wired) {index : ℕ}
    {listener : SideListener} {event : ListenerEvent}
    (hnext : client.handle index listener event = some next) : next.picker.Wired := by
  unfold handle at hnext
  split at hnext
  · simp at hnext
  · split at hnext <;> obtain rfl := Option.some.inj hnext
    · cases listener.side with
      | own => exact PickerCombineViewModel.load_wired hwired _
      | partner => exact hwired
    · exact hwired

end ClothesClient

namespace Wardrobe

variable {ι : Type*}

/-- `Q` holds of all entries in the system. -/
structure Each (Q : Cloth → Prop) (state : Wardrobe ι) : Prop where
  clients : ∀ index, (state.clients index).Each Q
  uploads : ∀ userCode, ∀ outfit ∈ state.uploads userCode, outfit.Each Q

def Wired (state : Wardrobe ι) : Prop :=
  ∀ index, (state.clients index).picker.Wired

theorem start_each (orders : ι → DeliveryOrder) : (start orders).Each Q := by
  refine ⟨?_, ?_⟩
  · intro index
    refine ⟨?_, Outfit.each_empty, ?_⟩
    · rw [start, PickerCombineViewModel.init_selectedItems]
      exact Outfit.each_empty
    · intro listener hlistener
      simp [start] at hlistener
  · intro userCode outfit houtfit
    simp [start] at houtfit

theorem start_wired (orders : ι → DeliveryOrder) : (start orders).Wired :=
  fun index => PickerCombineViewModel.init_wired (orders index)

variable [DecidableEq ι] {codes : ι → Option String}

theorem setClient_each {state : Wardrobe ι} (heach : state.Each Q) {index : ι}
    {client : ClothesClient} (hclient : client.Each Q) : (state.setClient index client).Each Q := by
  refine ⟨?_, heach.uploads⟩
  intro other
  by_cases hother : other = index
  · subst hother
    simpa [setClient] using hclient
  · simpa [setClient, hother] using heach.clients other

theorem setClient_wired {state : Wardrobe ι} (hwired : state.Wired) {index : ι}
    {client : ClothesClient} (hclient : client.picker.Wired) :
    (state.setClient index client).Wired := by
  intro other
  by_cases hother : other = index
  · subst hother
    simpa [setClient] using hclient
  · simpa [setClient, hother] using hwired other

/-- Only an edit can break an invariant of the entries. -/
theorem step_each {state next : Wardrobe ι} {event : WardrobeEvent ι} (heach : state.Each Q)
    (hedit : ∀ index order change, event = .edit index order change →
      ((state.clients index).picker.edit order change).selectedItems.Each Q)
    (hstep : state.step codes event = some next) : next.Each Q := by
  cases transition_of_step hstep with
  | edit index order change =>
      have hclient := heach.clients index
      exact setClient_each heach
        ⟨hedit index order change rfl, hclient.partner, hclient.listeners⟩
  | upload index code =>
      refine ⟨heach.clients, ?_⟩
      intro userCode outfit houtfit
      simp only [Function.update_apply] at houtfit
      split at houtfit
      · rcases List.mem_append.mp houtfit with hold | hnew
        · exact heach.uploads code outfit hold
        · obtain rfl := List.mem_singleton.mp hnew
          exact (heach.clients index).picker
      · exact heach.uploads userCode outfit houtfit
  | idle => exact heach
  | register event index side userCode =>
      exact setClient_each heach
        (ClothesClient.loadClothes_each (heach.clients index) side userCode)
  | @handle _ index _ _ _ _ hlistener hdelivered hclient =>
      refine setClient_each heach
        (ClothesClient.handle_each (heach.clients index) hlistener ?_ hclient)
      refine hdelivered.imp_right ?_
      intro hencoded
      obtain ⟨outfit, houtfit, heq⟩ := hencoded
      exact ⟨outfit, heach.uploads _ outfit houtfit, heq⟩

theorem step_wired {state next : Wardrobe ι} {event : WardrobeEvent ι} (hwired : state.Wired)
    (hstep : state.step codes event = some next) : next.Wired := by
  cases transition_of_step hstep with
  | edit index order change =>
      exact setClient_wired hwired
        (PickerCombineViewModel.edit_wired (hwired index) order change)
  | upload => exact hwired
  | idle => exact hwired
  | register event index => exact setClient_wired hwired (hwired index)
  | @handle _ index _ _ _ _ _ _ hclient =>
      exact setClient_wired hwired (ClothesClient.handle_wired (hwired index) hclient)

end Wardrobe

end

/-! ## Items of the catalogue -/

/-- An entry that is blank or an item of its category. -/
def Cloth.Listed (cloth : Cloth) : Prop :=
  cloth.id = " " ∨ cloth.id ∈ (itemDic cloth.category).getD []

theorem mem_itemDic_visible {category : ClothCategory} {name : String}
    (hname : name ∈ (itemDic category).getD []) : name ≠ "" ∧ name ≠ " " := by
  have hall : ∀ listed ∈ (itemDic category).getD [], listed ≠ "" ∧ listed ≠ " " := by
    cases category <;> decide
  exact hall name hname

namespace PickerCombineViewModel

theorem SameItems.listed {vm next : PickerCombineViewModel} (hsame : SameItems vm next)
    (hkeyed : next.selectedItems.Keyed) (heach : vm.selectedItems.Each Cloth.Listed) :
    next.selectedItems.Each Cloth.Listed := by
  intro category cloth hcloth
  obtain ⟨entry, hentry, hid⟩ := hsame.exists_id hcloth
  obtain ⟨hcategory, hlisted⟩ := heach category entry hentry
  have hnext : cloth.category = category := hkeyed category cloth hcloth
  refine ⟨hnext, ?_⟩
  rw [Cloth.Listed, ← hid, hnext, ← hcategory]
  exact hlisted

/-- Edits that select from the items on offer keep the entries listed. -/
theorem edit_listed {vm : PickerCombineViewModel} (hwired : vm.Wired)
    (heach : vm.selectedItems.Each Cloth.Listed) (order : DeliveryOrder) {change : Edit}
    (hoffered : ∀ name, change = .selectItem (some name) → name ∈ vm.currentItems) :
    (vm.edit order change).selectedItems.Each Cloth.Listed := by
  have hkeyed := edit_keyed heach.keyed order change
  cases change with
  | setCategory category => exact (sendCategory_sameItems vm order category).listed hkeyed heach
  | setColor hex =>
      have hsame : SameItems vm (vm.setColor order hex) :=
        sendColor_sameItems (fun _ => rfl) order hex
      exact hsame.listed hkeyed heach
  | selectItem name =>
      cases name with
      | none => exact heach
      | some name =>
          simp only [edit, selectItem]
          split
          · exact heach.update fun cloth hcloth => by simp at hcloth
          · refine heach.update ?_
            intro cloth hcloth
            obtain rfl := Option.some.inj hcloth
            refine ⟨rfl, .inr ?_⟩
            rw [← hwired.items]
            exact hoffered name rfl
  | clearSelectedItem =>
      intro category cloth hcloth
      obtain ⟨_, _, rfl⟩ := Option.map_eq_some_iff.mp hcloth
      exact ⟨rfl, .inl rfl⟩

end PickerCombineViewModel

/-! ## The two renderers -/

/-- `ClothesViewModel.isValidItem`, by which the accessories are drawn. -/
def isValidItem (selectedItems : Outfit) (category : ClothCategory) : Bool :=
  match selectedItems category with
  | none => false
  | some selectedItem => selectedItem.id ≠ " "

/-- The view model of one item, by which the other categories are drawn. -/
structure ClothViewModel where
  hex : String := "FFFFFF"
  mainImageString : String := ""
  strokeIamgeString : String := ""
  strokeHex : String := "000000"
  category : ClothCategory

namespace ClothViewModel

/-- The three subscribers of a new view model receive the item. -/
def receive (vm : ClothViewModel) (cloth : Cloth) : ClothViewModel :=
  let colored : ClothViewModel :=
    { vm with
      hex := cloth.hex
      strokeHex := if cloth.hex = "000000" then "DADADA" else "121212" }
  if cloth.id ≠ "" ∧ cloth.id ≠ " " then
    { colored with
      mainImageString := vm.category.rawValue ++ "-" ++ cloth.id ++ "B"
      strokeIamgeString := vm.category.rawValue ++ "-" ++ cloth.id }
  else colored

def init (cloth : Option Cloth) (category : ClothCategory) : ClothViewModel :=
  let vm : ClothViewModel := { category := category }
  match cloth with
  | none => vm
  | some cloth => vm.receive cloth

theorem mainImageString_ne_empty_iff (cloth : Option Cloth) (category : ClothCategory) :
    (init cloth category).mainImageString ≠ "" ↔ ∃ item ∈ cloth, item.Visible := by
  cases cloth with
  | none => simp [init]
  | some item =>
      by_cases hvisible : item.id ≠ "" ∧ item.id ≠ " "
      · simp [init, receive, hvisible, Cloth.Visible]
      · simp [init, receive, hvisible, Cloth.Visible]

end ClothViewModel

/-- On listed entries the two renderers draw the same items. -/
theorem isValidItem_iff_mainImageString {outfit : Outfit} (heach : outfit.Each Cloth.Listed)
    (category : ClothCategory) :
    isValidItem outfit category = true ↔
      (ClothViewModel.init (outfit category) category).mainImageString ≠ "" := by
  rw [ClothViewModel.mainImageString_ne_empty_iff]
  cases hentry : outfit category with
  | none => simp [isValidItem, hentry]
  | some cloth =>
      simp only [isValidItem, hentry, decide_eq_true_eq, Option.mem_some_iff, exists_eq_left',
        Cloth.Visible]
      constructor
      · intro hmark
        -- an entry that is not marked is an item, and no item is nameless
        exact mem_itemDic_visible ((heach category cloth hentry).2.resolve_left hmark)
      · intro hvisible
        exact hvisible.2

namespace Wardrobe

variable {ι : Type*} [DecidableEq ι] {codes : ι → Option String}

/-- Users select from the items on offer. -/
def Offered (state : Wardrobe ι) : WardrobeEvent ι → Prop
  | .edit index _ (.selectItem (some name)) => name ∈ (state.clients index).picker.currentItems
  | _ => True

instance (state : Wardrobe ι) (event : WardrobeEvent ι) : Decidable (state.Offered event) :=
  match event with
  | .edit index _ (.selectItem (some name)) =>
      inferInstanceAs (Decidable (name ∈ (state.clients index).picker.currentItems))
  | .edit _ _ (.selectItem none) => .isTrue trivial
  | .edit _ _ (.setCategory _) => .isTrue trivial
  | .edit _ _ (.setColor _) => .isTrue trivial
  | .edit _ _ .clearSelectedItem => .isTrue trivial
  | .uploadItem _ => .isTrue trivial
  | .requestClothes _ => .isTrue trivial
  | .requestPartnerClothes _ _ => .isTrue trivial
  | .snapshot _ _ _ => .isTrue trivial
  | .failure _ _ _ => .isTrue trivial

theorem reaches_listed {orders : ι → DeliveryOrder} {state : Wardrobe ι}
    (hreach : Reaches (step codes) Offered (start orders) state) :
    state.Wired ∧ state.Each Cloth.Listed := by
  refine hreach.invariant (P := fun state => state.Wired ∧ state.Each Cloth.Listed)
    ⟨start_wired orders, start_each orders⟩ ?_
  intro state event next hstate hoffered hstep
  obtain ⟨hwired, heach⟩ := hstate
  refine ⟨step_wired hwired hstep, step_each heach ?_ hstep⟩
  intro index order change hevent
  refine PickerCombineViewModel.edit_listed (hwired index) (heach.clients index).picker order ?_
  intro name hchange
  subst hevent hchange
  exact hoffered

/-- In every state of every run, each entry of each outfit on a screen carries its
category and is blank or an item of the category, and so the two tests for blank items
agree. -/
theorem entries_stay_well_formed {orders : ι → DeliveryOrder} {state : Wardrobe ι}
    (hreach : Reaches (step codes) Offered (start orders) state) (index : ι) :
    ∀ outfit ∈ [(state.clients index).picker.selectedItems, (state.clients index).partner],
      (∀ category cloth, outfit category = some cloth →
        cloth.category = category ∧ (cloth.id = " " ∨ cloth.id ∈ (itemDic category).getD [])) ∧
      ∀ category, isValidItem outfit category = true ↔
        (ClothViewModel.init (outfit category) category).mainImageString ≠ "" := by
  have hclient := (reaches_listed hreach).2.clients index
  intro outfit houtfit
  have heach : outfit.Each Cloth.Listed := by
    simp only [List.mem_cons, List.not_mem_nil, or_false] at houtfit
    rcases houtfit with rfl | rfl
    · exact hclient.picker
    · exact hclient.partner
  refine ⟨?_, isValidItem_iff_mainImageString heach⟩
  intro category cloth hcloth
  obtain ⟨hcategory, hlisted⟩ := heach category cloth hcloth
  subst hcategory
  exact ⟨rfl, hlisted⟩

/-- One of two clients uploads a cap and resets, and the other one is given the first
of the two versions. -/
def capShared : List (WardrobeEvent Bool) :=
  [.edit true .subscription (.selectItem (some "cap")), .uploadItem true,
    .edit true .subscription .clearSelectedItem, .uploadItem true,
    .requestPartnerClothes false "ABC", .snapshot false 0 1]

theorem entries_stay_well_formed_capShared :
    ∃ state : Wardrobe Bool,
      Reaches (step fun client => some (if client then "ABC" else "DEF")) Offered
        (start fun _ => .subscription) state ∧
      (state.clients false).partner .hat = some ⟨"cap", "FFFFFF", .hat⟩ ∧
      ∀ category, isValidItem (state.clients false).partner category = true ↔
        (ClothViewModel.init ((state.clients false).partner category)
          category).mainImageString ≠ "" := by
  have hrun : ∃ state : Wardrobe Bool,
      Reaches (step fun client => some (if client then "ABC" else "DEF")) Offered
        (start fun _ => .subscription) state ∧
        (state.clients false).partner .hat = some ⟨"cap", "FFFFFF", .hat⟩ :=
    exists_reaches_of_run capShared (by decide)
  obtain ⟨state, hreach, hcap⟩ := hrun
  exact ⟨state, hreach, hcap, (entries_stay_well_formed hreach false _ (by simp)).2⟩

end Wardrobe

end Pompom
