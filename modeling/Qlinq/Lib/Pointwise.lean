import Mathlib.Data.List.Forall2

/-! Lists related element by element. -/

namespace Pointwise

open List (Forall₂)

variable {α β γ : Type} {R : α → β → Prop} {S : β → γ → Prop} {T : α → γ → Prop}

theorem comp (hcomp : ∀ a b c, R a b → S b c → T a c) {first : List α} {second : List β}
    {third : List γ} (hfirst : Forall₂ R first second) (hsecond : Forall₂ S second third) :
    Forall₂ T first third := by
  induction hfirst generalizing third with
  | nil =>
      cases hsecond
      exact .nil
  | cons hhead _ ih =>
      cases hsecond with
      | cons hnext hrest => exact .cons (hcomp _ _ _ hhead hnext) (ih hrest)

theorem both {R S : α → β → Prop} {first : List α} {second : List β}
    (hleft : Forall₂ R first second) (hright : Forall₂ S first second) :
    Forall₂ (fun a b => R a b ∧ S a b) first second := by
  induction hleft with
  | nil => exact .nil
  | cons hhead _ ih =>
      cases hright with
      | cons hother hrest => exact .cons ⟨hhead, hother⟩ (ih hrest)

theorem exists_left {first : List α} {second : List β} (hrelated : Forall₂ R first second)
    (hb : b ∈ second) : ∃ a ∈ first, R a b := by
  induction hrelated with
  | nil => simp at hb
  | @cons a _ _ _ hhead _ ih =>
      rcases List.mem_cons.mp hb with rfl | hrest
      · exact ⟨a, List.mem_cons_self, hhead⟩
      · obtain ⟨found, hfound, hrelated⟩ := ih hrest
        exact ⟨found, List.mem_cons_of_mem _ hfound, hrelated⟩

theorem exists_right {first : List α} {second : List β} (hrelated : Forall₂ R first second)
    (ha : a ∈ first) : ∃ b ∈ second, R a b := by
  obtain ⟨b, hb, hba⟩ := exists_left hrelated.flip ha
  exact ⟨b, hb, hba⟩

theorem of_map (hmap : ∀ a ∈ items, R a (f a)) :
    Forall₂ R items (items.map f) := by
  induction items with
  | nil => exact .nil
  | cons a rest ih =>
      exact .cons (hmap a List.mem_cons_self)
        (ih fun item hitem => hmap item (List.mem_cons_of_mem _ hitem))

end Pointwise
