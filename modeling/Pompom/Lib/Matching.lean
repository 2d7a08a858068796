import Mathlib.Data.Option.Basic
import Mathlib.Tactic.SplitIfs

/-!
# Matchings

A symmetric partial function: who is paired with whom.  Two elements can be linked
when neither is paired with a third, and a pair can be taken apart.
-/

namespace Pompom.Lib

/-- Who is paired with whom. -/
structure Matching (α : Type*) where
  partner : α → Option α
  symm : ∀ {a b}, partner a = some b → partner b = some a

namespace Matching

variable {α : Type*}

/-- Nobody is paired. -/
def empty : Matching α := ⟨fun _ => none, by simp⟩

/-- The element is paired with no one but the other. -/
def Free (matching : Matching α) (a b : α) : Prop :=
  ∀ c, matching.partner a = some c → c = b

/-- An element has one partner at most. -/
theorem partner_injective (matching : Matching α) {a b c : α}
    (ha : matching.partner a = some c) (hb : matching.partner b = some c) : a = b :=
  Option.some.inj ((matching.symm ha).symm.trans (matching.symm hb))

variable [DecidableEq α]

/-- Pairs two elements that are free for each other. -/
def link (matching : Matching α) (a b : α) (ha : matching.Free a b) (hb : matching.Free b a) :
    Matching α where
  partner c := if c = a then some b else if c = b then some a else matching.partner c
  symm {c d} hpartner := by
    split_ifs at hpartner with hca hcb
    · obtain rfl := Option.some.inj hpartner
      subst hca
      by_cases h : b = c <;> simp [h]
    · obtain rfl := Option.some.inj hpartner
      simp [hcb]
    · have hsymm := matching.symm hpartner
      have hda : d ≠ a := by
        rintro rfl
        exact hcb (ha c hsymm)
      have hdb : d ≠ b := by
        rintro rfl
        exact hca (hb c hsymm)
      simp [hda, hdb, hsymm]

@[simp] theorem link_partner_left (matching : Matching α) {a b : α} (ha : matching.Free a b)
    (hb : matching.Free b a) : (matching.link a b ha hb).partner a = some b := by
  simp [link]

@[simp] theorem link_partner_right (matching : Matching α) {a b : α} (ha : matching.Free a b)
    (hb : matching.Free b a) : (matching.link a b ha hb).partner b = some a := by
  by_cases h : b = a <;> simp [link, h]

theorem link_partner_of_ne (matching : Matching α) {a b c : α} (ha : matching.Free a b)
    (hb : matching.Free b a) (hca : c ≠ a) (hcb : c ≠ b) :
    (matching.link a b ha hb).partner c = matching.partner c := by
  simp [link, hca, hcb]

/-- Leaves two elements that are free for each other without a partner. -/
def unlink (matching : Matching α) (a b : α) (ha : matching.Free a b) (hb : matching.Free b a) :
    Matching α where
  partner c := if c = a ∨ c = b then none else matching.partner c
  symm {c d} hpartner := by
    split_ifs at hpartner with hc
    have hsymm := matching.symm hpartner
    have hd : ¬ (d = a ∨ d = b) := by
      rintro (rfl | rfl)
      · exact hc (.inr (ha c hsymm))
      · exact hc (.inl (hb c hsymm))
    simp [hd, hsymm]

@[simp] theorem unlink_partner_left (matching : Matching α) {a b : α} (ha : matching.Free a b)
    (hb : matching.Free b a) : (matching.unlink a b ha hb).partner a = none := by
  simp [unlink]

@[simp] theorem unlink_partner_right (matching : Matching α) {a b : α} (ha : matching.Free a b)
    (hb : matching.Free b a) : (matching.unlink a b ha hb).partner b = none := by
  simp [unlink]

theorem unlink_partner_of_ne (matching : Matching α) {a b c : α} (ha : matching.Free a b)
    (hb : matching.Free b a) (hca : c ≠ a) (hcb : c ≠ b) :
    (matching.unlink a b ha hb).partner c = matching.partner c := by
  simp [unlink, hca, hcb]

end Matching

end Pompom.Lib
