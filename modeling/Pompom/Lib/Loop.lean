import Mathlib.Data.List.Nodup
import Mathlib.Logic.Function.Iterate

/-!
# Loops over items that each have a part of the state

The body of the loop edits the part of the state that belongs to its item, and leaves the
parts of the other items as they are.  `Own state item part` says what the part of an item
is in a state; it may be any relation, in particular one between a state and the value
that an abstract model has for the item.

A loop whose body may fail is `List.foldlM` in `Except`.
-/

namespace Pompom.Lib

variable {σ α β ρ ε : Type*} {Own : σ → α → ρ → Prop} {edit : ρ → ρ} {item : α}
  {state next : σ}

/-- The part of one item has been edited, and no other part. -/
structure EditsPart (Own : σ → α → ρ → Prop) (edit : ρ → ρ) (item : α) (state next : σ) :
    Prop where
  itself : ∀ part, Own state item part → Own next item (edit part)
  others : ∀ other, other ≠ item → ∀ part, Own state other part → Own next other part

theorem EditsPart.refl (item : α) (state : σ) : EditsPart Own id item state state :=
  ⟨fun _ => id, fun _ _ _ => id⟩

theorem EditsPart.trans {second : ρ → ρ} {last : σ} (hfirst : EditsPart Own edit item state next)
    (hsecond : EditsPart Own second item next last) :
    EditsPart Own (second ∘ edit) item state last where
  itself part hown := hsecond.itself _ (hfirst.itself part hown)
  others other hne part hown := hsecond.others other hne part (hfirst.others other hne part hown)

/-- Only what the edit does to the part at hand matters. -/
theorem EditsPart.congr {other : ρ → ρ} (hedits : EditsPart Own edit item state next)
    (hsame : ∀ part, Own state item part → edit part = other part) :
    EditsPart Own other item state next :=
  ⟨fun part hown => hsame part hown ▸ hedits.itself part hown, hedits.others⟩

/-- A loop edits the part of an item as often as the item occurs. -/
theorem foldlM_edits [DecidableEq α] {body : σ → α → Except ε σ}
    (hbody : ∀ state item, ∃ next, body state item = .ok next ∧
      EditsPart Own edit item state next) (items : List α) (start : σ) :
    ∃ final, items.foldlM body start = .ok final ∧ ∀ item part, Own start item part →
      Own final item (edit^[items.count item] part) := by
  induction items generalizing start with
  | nil => exact ⟨start, rfl, fun _ _ => id⟩
  | cons first items ih =>
      obtain ⟨next, hnext, hedits⟩ := hbody start first
      obtain ⟨final, hfinal, hparts⟩ := ih next
      refine ⟨final, by rw [List.foldlM_cons, hnext]; exact hfinal, fun item part hown => ?_⟩
      by_cases hsame : item = first
      · subst hsame
        rw [List.count_cons_self, Function.iterate_succ_apply]
        exact hparts item _ (hedits.itself part hown)
      · rw [List.count_cons_of_ne (Ne.symm hsame)]
        exact hparts item part (hedits.others item hsame part hown)

theorem foldl_edits [DecidableEq α] {body : σ → α → σ}
    (hbody : ∀ state item, EditsPart Own edit item state (body state item)) (items : List α)
    {start : σ} {part : ρ} (hown : Own start item part) :
    Own (items.foldl body start) item (edit^[items.count item] part) := by
  have hpure : ∀ state item, ∃ next, (pure (body state item) : Except Unit σ) = .ok next ∧
      EditsPart Own edit item state next := fun state item => ⟨_, rfl, hbody state item⟩
  obtain ⟨final, hfinal, hparts⟩ := foldlM_edits hpure items start
  rw [List.foldlM_pure] at hfinal
  rw [Except.ok.inj hfinal]
  exact hparts item part hown

/-- What every step of a loop leaves as it is, the loop leaves as it is. -/
theorem foldlM_keeps {body : σ → β → Except ε σ} (part : σ → ρ)
    (hbody : ∀ state item next, body state item = .ok next → part next = part state)
    {items : List β} {start final : σ} (hfinal : items.foldlM body start = .ok final) :
    part final = part start := by
  induction items generalizing start with
  | nil => rw [Except.ok.inj hfinal]
  | cons first items ih =>
      rw [List.foldlM_cons] at hfinal
      cases hfirst : body start first with
      | error failure =>
          rw [hfirst] at hfinal
          cases hfinal
      | ok next =>
          rw [hfirst] at hfinal
          exact (ih hfinal).trans (hbody start first next hfirst)

/-- A loop over items with different keys takes every key from one property to another. -/
theorem foldlM_once (Before After : σ → α → Prop) {key : β → α} {body : σ → β → Except ε σ}
    {items : List β} (hnodup : (items.map key).Nodup)
    (hbody : ∀ state, ∀ item ∈ items, Before state (key item) → ∃ next,
      body state item = .ok next ∧ After next (key item) ∧ ∀ other, other ≠ key item →
        (Before state other → Before next other) ∧ (After state other → After next other))
    {start : σ} (hstart : ∀ item ∈ items, Before start (key item)) :
    ∃ final, items.foldlM body start = .ok final ∧
      (∀ item ∈ items, After final (key item)) ∧
      ∀ other, other ∉ items.map key →
        (Before start other → Before final other) ∧ (After start other → After final other) := by
  induction items generalizing start with
  | nil => exact ⟨start, rfl, by simp, fun _ _ => ⟨id, id⟩⟩
  | cons first items ih =>
      rw [List.map_cons, List.nodup_cons] at hnodup
      obtain ⟨next, hnext, hafter, hothers⟩ :=
        hbody start first List.mem_cons_self (hstart first List.mem_cons_self)
      have hne : ∀ item ∈ items, key item ≠ key first := fun item hitem heq =>
        hnodup.1 (heq ▸ List.mem_map_of_mem hitem)
      obtain ⟨final, hfinal, hitems, hrest⟩ := ih hnodup.2
        (fun state item hitem => hbody state item (List.mem_cons_of_mem _ hitem))
        (fun item hitem => (hothers _ (hne item hitem)).1
          (hstart item (List.mem_cons_of_mem _ hitem)))
      refine ⟨final, by rw [List.foldlM_cons, hnext]; exact hfinal, ?_, fun other hother => ?_⟩
      · rintro item hitem
        rcases List.mem_cons.mp hitem with rfl | hitem
        · exact (hrest _ hnodup.1).2 hafter
        · exact hitems item hitem
      · rw [List.map_cons, List.mem_cons, not_or] at hother
        obtain ⟨hkeeps, hkeepsAfter⟩ := hothers other hother.1
        obtain ⟨hlast, hlastAfter⟩ := hrest other hother.2
        exact ⟨fun hbefore => hlast (hkeeps hbefore), fun hdone => hlastAfter (hkeepsAfter hdone)⟩

theorem foldl_once (Before After : σ → α → Prop) {body : σ → α → σ} {items : List α}
    (hnodup : items.Nodup)
    (hbody : ∀ state item, Before state item → After (body state item) item ∧
      ∀ other, other ≠ item → (Before state other → Before (body state item) other) ∧
        (After state other → After (body state item) other))
    {start : σ} (hstart : ∀ item, Before start item) (item : α) :
    item ∈ items ∧ After (items.foldl body start) item ∨
      item ∉ items ∧ Before (items.foldl body start) item := by
  have hpure : ∀ state, ∀ item ∈ items, Before state (id item) → ∃ next,
      (pure (body state item) : Except Unit σ) = .ok next ∧ After next (id item) ∧
        ∀ other, other ≠ id item → (Before state other → Before next other) ∧
          (After state other → After next other) :=
    fun state item _ hbefore => ⟨_, rfl, hbody state item hbefore⟩
  obtain ⟨final, hfinal, hitems, hothers⟩ := foldlM_once Before After (by rwa [List.map_id]) hpure
    fun item _ => hstart item
  rw [List.foldlM_pure] at hfinal
  rw [Except.ok.inj hfinal]
  by_cases hmem : item ∈ items
  · exact .inl ⟨hmem, hitems item hmem⟩
  · exact .inr ⟨hmem, (hothers item (by rwa [List.map_id])).1 (hstart item)⟩

end Pompom.Lib
