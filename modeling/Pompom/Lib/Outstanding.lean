import Mathlib.Logic.Basic

/-!
# Outstanding writes

A keyed store to which any number of parties write.  `stored k v` says that the
record of key `k` holds `v`, and `outstanding k v` that somebody is still going to
write `v` to it.  Where every outstanding write is one that an observer accepts,
and a record that nobody is going to write holds an accepted value, the store is
bound for accepted values whatever the order of the writes: `Settling` is kept by
every step, and once nothing is outstanding it speaks about the store alone.
-/

namespace Pompom.Lib

variable {κ ν : Type*} {accept stored outstanding stored' outstanding' : κ → ν → Prop}

/-- The store is bound for accepted values. -/
structure Settling (accept stored outstanding : κ → ν → Prop) : Prop where
  writes : ∀ key value, outstanding key value → accept key value
  records : ∀ key value, stored key value → (∀ other, ¬ outstanding key other) → accept key value

/-- A step that neither writes nor plans a write. -/
theorem Settling.congr (hsettling : Settling accept stored outstanding)
    (hstored : ∀ key value, stored' key value → stored key value)
    (houtstanding : ∀ key value, outstanding' key value ↔ outstanding key value) :
    Settling accept stored' outstanding' where
  writes key value h := hsettling.writes key value ((houtstanding key value).mp h)
  records key value h hnone :=
    hsettling.records key value (hstored key value h) fun other hother =>
      hnone other ((houtstanding key other).mpr hother)

/-- An outstanding write takes effect. -/
theorem Settling.land (hsettling : Settling accept stored outstanding) (key : κ) (value : ν)
    (hwrite : outstanding key value)
    (hstored : ∀ other v, stored' other v → other = key ∧ v = value ∨ other ≠ key ∧ stored other v)
    (hless : ∀ other v, outstanding' other v → outstanding other v)
    (hmore : ∀ other v, outstanding other v → outstanding' other v ∨ other = key ∧ v = value) :
    Settling accept stored' outstanding' where
  writes other v h := hsettling.writes other v (hless other v h)
  records other v h hnone := by
    rcases hstored other v h with ⟨rfl, rfl⟩ | ⟨hne, hold⟩
    · exact hsettling.writes _ _ hwrite
    · refine hsettling.records other v hold ?_
      intro v' hv'
      rcases hmore other v' hv' with hv' | ⟨heq, -⟩
      · exact hnone v' hv'
      · exact hne heq

/-- New writes are planned, and the observer changes its mind about their keys
only. -/
theorem Settling.plan {accept' new : κ → ν → Prop}
    (hsettling : Settling accept stored outstanding)
    (hkept : ∀ key value, (∀ other, ¬ new key other) → accept key value → accept' key value)
    (hnew : ∀ key value other, new key other → outstanding key value ∨ new key value →
      accept' key value) :
    Settling accept' stored fun key value => outstanding key value ∨ new key value where
  writes key value hwrite := by
    by_cases hkey : ∃ other, new key other
    · obtain ⟨other, hother⟩ := hkey
      exact hnew key value other hother hwrite
    · have hold := hwrite.resolve_right fun hvalue => hkey ⟨value, hvalue⟩
      exact hkept key value (not_exists.mp hkey) (hsettling.writes key value hold)
  records key value hvalue hnone := by
    refine hkept key value (fun other hother => hnone other (.inr hother)) ?_
    exact hsettling.records key value hvalue fun other hother => hnone other (.inl hother)

/-- Once nothing is outstanding, the store holds accepted values. -/
theorem Settling.accepted (hsettling : Settling accept stored outstanding)
    (hquiet : ∀ key value, ¬ outstanding key value) {key : κ} {value : ν}
    (hvalue : stored key value) : accept key value :=
  hsettling.records key value hvalue (hquiet key)

end Pompom.Lib
