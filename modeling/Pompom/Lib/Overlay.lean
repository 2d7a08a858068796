import Mathlib.Data.List.Induction

/-!
# Overlaying partial maps

A partial map that is kept up to date by patches: each patch overwrites the keys
it holds and leaves the others as they were.  After a list of patches a key
holds the value of the latest patch that mentions it (`foldl_overlay_apply`), so
a patch that stops mentioning a key does not remove the key.
-/

namespace Pompom.Lib

variable {κ ν : Type*}

/-- `base` with the keys of `patch` overwritten. -/
def overlay (base patch : κ → Option ν) : κ → Option ν :=
  fun key => (patch key).or (base key)

@[simp] theorem overlay_of_some {base patch : κ → Option ν} {key : κ} {value : ν}
    (hpatch : patch key = some value) : overlay base patch key = some value := by
  simp [overlay, hpatch]

@[simp] theorem overlay_of_none {base patch : κ → Option ν} {key : κ}
    (hpatch : patch key = none) : overlay base patch key = base key := by
  simp [overlay, hpatch]

/-- The value of the latest patch that mentions the key. -/
def latest (patches : List (κ → Option ν)) (key : κ) : Option ν :=
  (patches.filterMap fun patch => patch key).getLast?

theorem latest_append_singleton (patches : List (κ → Option ν)) (patch : κ → Option ν)
    (key : κ) : latest (patches ++ [patch]) key = (patch key).or (latest patches key) := by
  unfold latest
  rw [List.filterMap_append]
  cases hpatch : patch key with
  | none => simp [hpatch]
  | some value => simp [hpatch]

theorem exists_of_latest {patches : List (κ → Option ν)} {key : κ} {value : ν}
    (hlatest : latest patches key = some value) :
    ∃ patch ∈ patches, patch key = some value := by
  have hmem := List.mem_of_getLast? hlatest
  simpa [List.mem_filterMap] using hmem

/-- After a list of patches a key holds the value of the latest patch that
mentions it, or its old value. -/
theorem foldl_overlay_apply (base : κ → Option ν) (patches : List (κ → Option ν)) (key : κ) :
    patches.foldl overlay base key = (latest patches key).or (base key) := by
  induction patches using List.reverseRecOn with
  | nil => simp [latest]
  | append_singleton patches patch ih =>
      rw [List.foldl_append, latest_append_singleton, List.foldl_cons, List.foldl_nil]
      cases hpatch : patch key with
      | none => rw [overlay_of_none hpatch, ih]; rfl
      | some value => rw [overlay_of_some hpatch]; rfl

end Pompom.Lib
