import Mathlib.Data.List.Forall2

namespace RestRoutes

variable {α β : Type _} {R : α → β → Prop}

/-- All items have a property, or there is a first one that has not. -/
theorem forall_or_first (p : α → Prop) (as : List α) : (∀ a ∈ as, p a) ∨
    ∃ before a after, as = before ++ a :: after ∧ (∀ b ∈ before, p b) ∧ ¬ p a := by
  induction as with
  | nil => exact .inl (List.forall_mem_nil p)
  | cons a as ih =>
    by_cases ha : p a
    · obtain hall | ⟨before, b, after, rfl, hbefore, hb⟩ := ih
      · exact .inl (List.forall_mem_cons.mpr ⟨ha, hall⟩)
      · exact .inr ⟨a :: before, b, after, rfl, List.forall_mem_cons.mpr ⟨ha, hbefore⟩, hb⟩
    · exact .inr ⟨[], a, as, rfl, List.forall_mem_nil p, ha⟩

theorem exists_related {as : List α} {bs : List β} (h : List.Forall₂ R as bs) {a : α} (ha : a ∈ as) :
    ∃ b ∈ bs, R a b := by
  induction h with
  | nil => cases ha
  | cons hab _ ih =>
    rcases List.mem_cons.mp ha with rfl | ha
    · exact ⟨_, List.mem_cons_self, hab⟩
    · obtain ⟨b, hb, hab⟩ := ih ha
      exact ⟨b, List.mem_cons_of_mem _ hb, hab⟩

theorem related_trans {γ : Type _} {S : β → γ → Prop} {T : α → γ → Prop}
    (hT : ∀ a b c, R a b → S b c → T a c) {as : List α} {bs : List β} {cs : List γ}
    (h : List.Forall₂ R as bs) (h' : List.Forall₂ S bs cs) : List.Forall₂ T as cs := by
  induction h generalizing cs with
  | nil =>
    cases h'
    exact .nil
  | cons hab _ ih =>
    cases h' with
    | cons hbc h' => exact .cons (hT _ _ _ hab hbc) (ih h')

/-- A place in one of two related lists is one in the other. -/
theorem split_related {before after : List α} {a : α} {bs : List β}
    (h : List.Forall₂ R (before ++ a :: after) bs) : ∃ before' b after', bs = before' ++ b :: after' ∧
      List.Forall₂ R before before' ∧ R a b ∧ List.Forall₂ R after after' := by
  induction before generalizing bs with
  | nil =>
    cases h with
    | cons hab hafter => exact ⟨[], _, _, rfl, .nil, hab, hafter⟩
  | cons c before ih =>
    cases h with
    | cons hc h =>
      obtain ⟨before', b, after', rfl, hbefore, hab, hafter⟩ := ih h
      exact ⟨_ :: before', b, after', rfl, .cons hc hbefore, hab, hafter⟩

/-- A search that does not tell related items apart finds related items. -/
theorem find?_related {f : α → Bool} {g : β → Bool} {as : List α} {bs : List β}
    (h : List.Forall₂ (fun a b => f a = g b ∧ R a b) as bs) :
    Option.Rel R (as.find? f) (bs.find? g) := by
  induction h with
  | nil => exact .none
  | @cons a b as bs hab _ ih =>
    obtain ⟨hsame, hab⟩ := hab
    cases ha : f a with
    | true =>
      rw [List.find?_cons_of_pos ha, List.find?_cons_of_pos (hsame.symm.trans ha)]
      exact .some hab
    | false =>
      rw [List.find?_cons_of_neg (by simpa using ha), List.find?_cons_of_neg (by simp [← hsame, ha])]
      exact ih

theorem or_related {a a' : Option α} {b b' : Option β}
    (h : Option.Rel R a b) (h' : Option.Rel R a' b') : Option.Rel R (a.or a') (b.or b') := by
  cases h with
  | some hab => exact .some hab
  | none => exact h'

theorem related_eq_none_iff {a : Option α} {b : Option β} (h : Option.Rel R a b) : a = none ↔ b = none := by
  cases h <;> simp

theorem related_imp {S : α → β → Prop} {a : Option α} {b : Option β} (h : Option.Rel R a b)
    (himp : ∀ x, a = some x → ∀ y, R x y → S x y) : Option.Rel S a b := by
  cases h with
  | some hab => exact .some (himp _ rfl _ hab)
  | none => exact .none

theorem related_bind_eq {γ : Type _} {f : α → Option γ} {g : β → Option γ} {a : Option α} {b : Option β}
    (h : Option.Rel R a b) (hfg : ∀ x y, R x y → f x = g y) : a.bind f = b.bind g := by
  cases h with
  | some hab => exact hfg _ _ hab
  | none => rfl

theorem exists_related_some {a : Option α} {b : β} (h : Option.Rel R a (some b)) : ∃ x, a = some x ∧ R x b := by
  cases h with
  | some hab => exact ⟨_, rfl, hab⟩

end RestRoutes
