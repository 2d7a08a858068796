import Pompom.Lib.Overlay
import Pompom.Clothes.Cloth

/-!
# Storing and loading outfits

`API/ClothesManager.swift`.  `parseClothes` encodes an outfit as a document with
one pair `[id, hex]` for every category, `["", ""]` where the outfit has no
entry.  `loadClothes` registers a listener whose closure captures the variable
`returnValue`: it is declared once, outside the closure, and every snapshot
writes the categories it holds into it.  Hence `loadClothesListener` takes the
captured dictionary and returns its new value beside the argument of the
completion.

On an encoded outfit the listener never traps and lays the stored entries over
the captured dictionary (`loadClothesListener_parseClothes`); a category that
the outfit lacks keeps what an earlier snapshot wrote.
-/

namespace Pompom

open Lib

/-- The values a field of a document can hold, as far as the cast to `[String]`
can tell them apart. -/
inductive FieldValue where
  | strings (value : List String)
  | other
  deriving DecidableEq, Repr

/-- The data `[String: Any]` of a document. -/
abbrev Document := String → Option FieldValue

namespace ClothesManager

/-- The pair that `parseClothes` stores for one category. -/
def encodeEntry (entry : Option Cloth) : List String :=
  match entry with
  | some cloth => [cloth.id, cloth.hex]
  | none => ["", ""]

/-- The encoding of an outfit as the data of a document. -/
def parseClothes (clothes : Outfit) : Document :=
  ClothCategory.allCases.foldl
    (fun returnValue clothCategory =>
      Function.update returnValue clothCategory.rawValue
        (some (.strings (encodeEntry (clothes clothCategory)))))
    fun _ => none

/-- The ways in which the listener of `loadClothes` can trap: the forced cast
`as! [String]?` and the subscripts `cloth[0]` and `cloth[1]`. -/
inductive LoadTrap where
  | castFailed
  | indexOutOfRange
  deriving DecidableEq, Repr

/-- One round of the loop of the listener. -/
def loadCategory (data : Document) (returnValue : Outfit) (clothCategory : ClothCategory) :
    Except LoadTrap Outfit :=
  match data clothCategory.rawValue with
  | none => .ok returnValue
  | some .other => .error .castFailed
  | some (.strings (id :: hex :: _)) =>
      if id.isEmpty && hex.isEmpty then .ok returnValue
      else .ok (Function.update returnValue clothCategory (some ⟨id, hex, clothCategory⟩))
  | some (.strings _) => .error .indexOutOfRange

/-- An event of a document listener.  The snapshot is absent when the listener
failed, its data is absent when the document does not exist. -/
structure ListenerEvent where
  snapShot : Option (Option Document)
  error : Option String

/-- The event for a document with the given data. -/
def ListenerEvent.document (data : Option Document) : ListenerEvent :=
  ⟨some data, none⟩

/-- The closure that `loadClothes` registers: the new value of the captured
dictionary and what the completion is called with, if it is called. -/
def loadClothesListener (returnValue : Outfit) (event : ListenerEvent) :
    Except LoadTrap (Outfit × Option Outfit) :=
  match event.snapShot.join with
  | none => .ok (returnValue, some returnValue)
  | some data =>
      match event.error with
      | none => do
          let loaded ← ClothCategory.allCases.foldlM (loadCategory data) returnValue
          return (loaded, some loaded)
      | some _ => .ok (returnValue, none)

/-! ## What a stored outfit says -/

/-- The entry of one category that a loaded document yields: none for a pair of
empty strings. -/
def storedEntry (entry : Option Cloth) (category : ClothCategory) : Option Cloth :=
  match entry with
  | some cloth =>
      if cloth.id.isEmpty && cloth.hex.isEmpty then none else some ⟨cloth.id, cloth.hex, category⟩
  | none => none

/-- The entries that loading the encoding of an outfit writes. -/
def stored (clothes : Outfit) : Outfit :=
  fun category => storedEntry (clothes category) category

theorem parseClothes_rawValue (clothes : Outfit) (category : ClothCategory) :
    parseClothes clothes category.rawValue =
      some (.strings (encodeEntry (clothes category))) := by
  cases category <;> simp [parseClothes, ClothCategory.allCases, ClothCategory.rawValue]

theorem loadCategory_parseClothes (clothes returnValue : Outfit) (category : ClothCategory) :
    loadCategory (parseClothes clothes) returnValue category =
      .ok (match stored clothes category with
        | some cloth => Function.update returnValue category (some cloth)
        | none => returnValue) := by
  unfold loadCategory
  rw [parseClothes_rawValue]
  cases hentry : clothes category with
  | none => simp [encodeEntry, stored, storedEntry, hentry]
  | some cloth =>
      by_cases hempty : (cloth.id.isEmpty && cloth.hex.isEmpty) = true
      · simp [encodeEntry, stored, storedEntry, hentry, hempty]
      · simp [encodeEntry, stored, storedEntry, hentry, hempty]

/-- The loop over a list of categories overwrites those of them that are
stored. -/
theorem foldlM_loadCategory (clothes : Outfit) (categories : List ClothCategory)
    (returnValue : Outfit) :
    categories.foldlM (loadCategory (parseClothes clothes)) returnValue =
      .ok fun category =>
        if category ∈ categories then overlay returnValue (stored clothes) category
        else returnValue category := by
  induction categories generalizing returnValue with
  | nil => simp; rfl
  | cons head rest ih =>
      rw [List.foldlM_cons, loadCategory_parseClothes]
      change List.foldlM _ _ rest = _
      rw [ih]
      congr 1
      funext category
      cases hstored : stored clothes head with
      | none =>
          by_cases hhead : category = head
          · subst hhead
            simp [overlay, hstored]
          · simp [hhead]
      | some cloth =>
          by_cases hhead : category = head
          · subst hhead
            simp [overlay, hstored]
          · simp [hhead, overlay]

/-- On an encoded outfit the listener does not trap, lays the stored entries over
the captured dictionary and passes it on. -/
theorem loadClothesListener_parseClothes (returnValue clothes : Outfit) :
    loadClothesListener returnValue (.document (some (parseClothes clothes))) =
      .ok (overlay returnValue (stored clothes), some (overlay returnValue (stored clothes))) := by
  have hloop : ClothCategory.allCases.foldlM (loadCategory (parseClothes clothes)) returnValue =
      .ok (overlay returnValue (stored clothes)) := by
    rw [foldlM_loadCategory]
    congr 1
    funext category
    rw [if_pos (ClothCategory.mem_allCases category)]
  simp only [loadClothesListener, ListenerEvent.document, Option.join_some, hloop]
  rfl

/-- Without a document the listener passes the captured dictionary on. -/
@[simp] theorem loadClothesListener_missing (returnValue : Outfit) :
    loadClothesListener returnValue (.document none) = .ok (returnValue, some returnValue) :=
  rfl

/-! ## Stored and visible entries -/

/-- Whatever was uploaded, a loaded entry carries its category. -/
theorem stored_keyed (clothes : Outfit) : (stored clothes).Keyed := by
  intro category cloth hcloth
  cases hentry : clothes category with
  | none => simp [stored, storedEntry, hentry] at hcloth
  | some entry =>
      simp only [stored, storedEntry, hentry] at hcloth
      split at hcloth
      · simp at hcloth
      · obtain rfl := Option.some.inj hcloth
        rfl

theorem foldl_overlay_keyed (outfits : List Outfit) :
    Outfit.Keyed ((outfits.map stored).foldl overlay .empty) := by
  intro category cloth hcloth
  rw [foldl_overlay_apply, Outfit.empty_apply, Option.or_none] at hcloth
  obtain ⟨patch, hpatch, hvalue⟩ := exists_of_latest hcloth
  obtain ⟨outfit, _, rfl⟩ := List.mem_map.mp hpatch
  exact stored_keyed outfit category cloth hvalue

theorem stored_of_visible {clothes : Outfit} (hkeyed : clothes.Keyed) {category : ClothCategory}
    {cloth : Cloth} (hcloth : clothes category = some cloth) (hvisible : cloth.Visible) :
    stored clothes category = some cloth := by
  have hid : cloth.id.isEmpty = false := by simpa using hvisible.1
  have hcategory : cloth.category = category := hkeyed category cloth hcloth
  subst hcategory
  simp [stored, storedEntry, hcloth, hid]

theorem eq_of_stored {clothes : Outfit} (hkeyed : clothes.Keyed) {category : ClothCategory}
    {cloth : Cloth} (hstored : stored clothes category = some cloth) :
    clothes category = some cloth := by
  cases hentry : clothes category with
  | none => simp [stored, storedEntry, hentry] at hstored
  | some entry =>
      have hcategory : entry.category = category := hkeyed category entry hentry
      subst hcategory
      simp only [stored, storedEntry, hentry] at hstored
      split at hstored
      · simp at hstored
      · exact hstored

/-- An entry that is not stored is not drawn either. -/
theorem visible_of_not_stored {clothes : Outfit} (hkeyed : clothes.Keyed)
    {category : ClothCategory} (hstored : stored clothes category = none) :
    clothes.visible category = none := by
  rw [Outfit.visible_eq_none_iff]
  intro cloth hcloth hvisible
  rw [stored_of_visible hkeyed hcloth hvisible] at hstored
  simp at hstored

/-! ## The round trip of the encoding -/

/-- An outfit without the entries whose id and hex are both empty. -/
def withoutEmpty (clothes : Outfit) : Outfit :=
  fun category => (clothes category).filter fun cloth => ¬ (cloth.id = "" ∧ cloth.hex = "")

theorem stored_eq_withoutEmpty {clothes : Outfit} (hkeyed : clothes.Keyed) :
    stored clothes = withoutEmpty clothes := by
  funext category
  cases hentry : clothes category with
  | none => simp [stored, storedEntry, withoutEmpty, hentry]
  | some cloth =>
      obtain rfl : cloth.category = category := hkeyed category cloth hentry
      by_cases hempty : cloth.id = "" ∧ cloth.hex = ""
      · simp [stored, storedEntry, withoutEmpty, hentry, hempty, Option.filter]
      · have hkept : (cloth.id.isEmpty && cloth.hex.isEmpty) = false := by
          simpa using hempty
        have hfilter : (!decide (cloth.id = "") || !decide (cloth.hex = "")) = true := by
          simpa [-not_and, Decidable.not_and_iff_not_or_not] using hempty
        simp [stored, storedEntry, withoutEmpty, hentry, hkept, hfilter, Option.filter]

/-- An entry that loading leaves out is encoded like an absent one. -/
theorem encodeEntry_stored (clothes : Outfit) (category : ClothCategory) :
    encodeEntry (stored clothes category) = encodeEntry (clothes category) := by
  cases hentry : clothes category with
  | none => simp [stored, storedEntry, hentry]
  | some cloth =>
      by_cases hempty : cloth.id = "" ∧ cloth.hex = ""
      · simp [stored, storedEntry, hentry, hempty, encodeEntry]
      · have hkept : (cloth.id.isEmpty && cloth.hex.isEmpty) = false := by
          simpa using hempty
        simp [stored, storedEntry, hentry, hkept, encodeEntry]

theorem parseClothes_stored (clothes : Outfit) :
    parseClothes (stored clothes) = parseClothes clothes := by
  simp only [parseClothes, encodeEntry_stored]

/-- A fresh listener yields what the document stores. -/
theorem loadClothesListener_fresh (clothes : Outfit) :
    loadClothesListener .empty (.document (some (parseClothes clothes))) =
      .ok (stored clothes, some (stored clothes)) := by
  have hoverlay : overlay Outfit.empty (stored clothes) = stored clothes := by
    funext category
    simp [overlay]
  rw [loadClothesListener_parseClothes, hoverlay]

/-- A fresh listener decodes the encoding of an outfit to the outfit without its
empty entries, and the encoding of what it decodes is the document. -/
theorem parseClothes_round_trip :
    (∀ clothes : Outfit, clothes.Keyed →
      loadClothesListener .empty (.document (some (parseClothes clothes))) =
        .ok (withoutEmpty clothes, some (withoutEmpty clothes))) ∧
    ∀ data ∈ Set.range parseClothes, ∃ loaded : Outfit,
      loadClothesListener .empty (.document (some data)) = .ok (loaded, some loaded) ∧
        parseClothes loaded = data := by
  constructor
  · intro clothes hkeyed
    rw [loadClothesListener_fresh, stored_eq_withoutEmpty hkeyed]
  · intro data hdata
    obtain ⟨clothes, rfl⟩ := hdata
    exact ⟨stored clothes, loadClothesListener_fresh clothes, parseClothes_stored clothes⟩

/-- A cap whose colour is empty survives, an entry with two empty strings does not. -/
theorem parseClothes_round_trip_cap :
    loadClothesListener .empty (.document (some (parseClothes
        (Function.update (Function.update Outfit.empty .hat (some ⟨"cap", "", .hat⟩)) .top
          (some ⟨"", "", .top⟩))))) =
      .ok (Function.update Outfit.empty .hat (some ⟨"cap", "", .hat⟩),
        some (Function.update Outfit.empty .hat (some ⟨"cap", "", .hat⟩))) := by
  have hkeyed : Outfit.Keyed (Function.update (Function.update Outfit.empty .hat
      (some ⟨"cap", "", .hat⟩)) .top (some ⟨"", "", .top⟩)) := by
    refine (Outfit.keyed_empty.update ?_).update ?_ <;>
    · intro cloth hcloth
      obtain rfl := Option.some.inj hcloth
      rfl
  have hkept : withoutEmpty (Function.update (Function.update Outfit.empty .hat
      (some ⟨"cap", "", .hat⟩)) .top (some ⟨"", "", .top⟩)) =
        Function.update Outfit.empty .hat (some ⟨"cap", "", .hat⟩) := by
    funext category
    cases category <;> decide
  rw [parseClothes_round_trip.1 _ hkeyed, hkept]

end ClothesManager

end Pompom
