import Mathlib.Data.Fintype.Basic

/-!
# Clothes and outfits

The data model of `Models/Cloth.swift`.  An outfit is the dictionary
`[ClothCategory: Cloth]` that every clothes view model keeps in `selectedItems`.
The subtitles of the categories are only shown and are left out.

Three encodings of "no item" meet in the program: an absent key, a pair of empty
strings in a stored document, and the id `" "` that `clearSelectedItem` writes.
`Cloth.Visible` is the test of `ClothViewModel.init`, by which an item is drawn.
-/

namespace Pompom

inductive ClothCategory where
  | hat
  | top
  | bottom
  | shoes
  | accessories
  deriving DecidableEq, Repr

namespace ClothCategory

def allCases : List ClothCategory := [.hat, .top, .bottom, .shoes, .accessories]

theorem mem_allCases (category : ClothCategory) : category ∈ allCases := by
  cases category <;> decide

instance : Fintype ClothCategory := ⟨⟨allCases, by decide⟩, mem_allCases⟩

def rawValue : ClothCategory → String
  | .hat => "hat"
  | .top => "top"
  | .bottom => "bottom"
  | .shoes => "shoes"
  | .accessories => "accessories"

end ClothCategory

structure Cloth where
  id : String
  hex : String
  category : ClothCategory
  deriving DecidableEq, Repr

/-- An item that is drawn: its id is neither of the two blanks. -/
def Cloth.Visible (cloth : Cloth) : Prop :=
  cloth.id ≠ "" ∧ cloth.id ≠ " "

instance (cloth : Cloth) : Decidable cloth.Visible :=
  inferInstanceAs (Decidable (_ ∧ _))

/-- The dictionary `[ClothCategory: Cloth]`. -/
abbrev Outfit := ClothCategory → Option Cloth

namespace Outfit

/-- The dictionary literal `[:]`. -/
def empty : Outfit := fun _ => none

/-- The entries of an outfit that are drawn. -/
def visible (outfit : Outfit) : Outfit :=
  fun category => (outfit category).filter fun cloth => decide cloth.Visible

/-- Every entry carries the category it is stored under. -/
def Keyed (outfit : Outfit) : Prop :=
  ∀ category cloth, outfit category = some cloth → cloth.category = category

@[simp] theorem empty_apply (category : ClothCategory) : empty category = none := rfl

theorem visible_eq_none_iff {outfit : Outfit} {category : ClothCategory} :
    outfit.visible category = none ↔
      ∀ cloth, outfit category = some cloth → ¬ cloth.Visible := by
  simp [visible, Option.filter_eq_none_iff]

theorem visible_congr {first second : Outfit} {category : ClothCategory}
    (heq : first category = second category) :
    first.visible category = second.visible category := by
  simp [visible, heq]

theorem keyed_empty : Keyed empty := by
  intro category cloth hcloth
  simp at hcloth

theorem Keyed.update {outfit : Outfit} (hkeyed : outfit.Keyed) {category : ClothCategory}
    {entry : Option Cloth} (hentry : ∀ cloth, entry = some cloth → cloth.category = category) :
    Keyed (Function.update outfit category entry) := by
  intro other cloth hcloth
  by_cases hother : other = category
  · subst hother
    exact hentry cloth (by simpa using hcloth)
  · exact hkeyed other cloth (by simpa [hother] using hcloth)

end Outfit

end Pompom
