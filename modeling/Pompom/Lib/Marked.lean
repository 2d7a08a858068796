import Mathlib.Data.List.Nodup

/-!
# Concatenations of marked segments

A list that is put together from one segment per key, where every element bears the
mark of its key.  The segment of a key is found again by its mark
(`filter_flatMap_mark`), so two such lists are equal only if they agree segment by
segment (`flatMap_eq_iff_of_mark`).
-/

namespace Pompom.Lib

section

variable {κ α τ : Type*} [DecidableEq τ] {keys : List κ} {mark : α → τ} {name : κ → τ}

/-- The elements of the segments bear the marks of their keys. -/
def BearsMarks (mark : α → τ) (name : κ → τ) (segment : κ → List α) : Prop :=
  ∀ key, ∀ element ∈ segment key, mark element = name key

theorem filter_flatMap_mark {segment : κ → List α} (hmarks : BearsMarks mark name segment)
    (hnodup : (keys.map name).Nodup) {key : κ} (hkey : key ∈ keys) :
    (keys.flatMap segment).filter (fun element => mark element = name key) = segment key := by
  induction keys with
  | nil => simp at hkey
  | cons head tail ih =>
      simp only [List.map_cons, List.nodup_cons, List.mem_map, not_exists, not_and] at hnodup
      rw [List.flatMap_cons, List.filter_append]
      rcases List.mem_cons.mp hkey with rfl | htail
      · have hall : (segment key).filter (fun element => mark element = name key) =
            segment key := by
          rw [List.filter_eq_self]
          intro element hmem
          exact decide_eq_true (hmarks key element hmem)
        have hnone : (tail.flatMap segment).filter (fun element => mark element = name key) =
            [] := by
          rw [List.filter_eq_nil_iff]
          intro element hmem
          obtain ⟨other, hother, helement⟩ := List.mem_flatMap.mp hmem
          rw [decide_eq_true_eq, hmarks other element helement]
          exact hnodup.1 other hother
        rw [hall, hnone, List.append_nil]
      · have hnone : (segment head).filter (fun element => mark element = name key) = [] := by
          rw [List.filter_eq_nil_iff]
          intro element hmem
          rw [decide_eq_true_eq, hmarks head element hmem]
          exact fun hsame => hnodup.1 key htail hsame.symm
        rw [hnone, List.nil_append]
        exact ih hnodup.2 htail

/-- Segments are compared one by one. -/
theorem flatMap_eq_iff_of_mark {first second : κ → List α} (hfirst : BearsMarks mark name first)
    (hsecond : BearsMarks mark name second) (hnodup : (keys.map name).Nodup) :
    keys.flatMap first = keys.flatMap second ↔ ∀ key ∈ keys, first key = second key := by
  constructor
  · intro hsame key hkey
    rw [← filter_flatMap_mark hfirst hnodup hkey, hsame,
      filter_flatMap_mark hsecond hnodup hkey]
  · intro hsegments
    exact List.flatMap_congr hsegments

end

end Pompom.Lib
