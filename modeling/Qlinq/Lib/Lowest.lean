import Mathlib.Data.List.Basic

/-! The lowest of a starting value and the limits of some items. -/

section Lowest

variable {α : Type}

def lowest (counts : α → Bool) (limit : α → Nat) (items : List α) (start : Nat) : Nat :=
  items.foldl (fun low item =>
    if counts item ∧ limit item < low then limit item else low) start

theorem le_lowest_iff {counts : α → Bool} {limit : α → Nat} {items : List α} :
    bound ≤ lowest counts limit items start ↔
      bound ≤ start ∧ ∀ item ∈ items, counts item = true → bound ≤ limit item := by
  induction items generalizing start with
  | nil => simp [lowest]
  | cons item rest ih =>
      have hstep : lowest counts limit (item :: rest) start = lowest counts limit rest
          (if counts item = true ∧ limit item < start then limit item else start) := rfl
      rw [hstep, ih, List.forall_mem_cons]
      by_cases hnext : counts item = true ∧ limit item < start
      · rw [if_pos hnext]
        constructor
        · rintro ⟨hitem, hrest⟩
          exact ⟨by omega, fun _ => hitem, hrest⟩
        · rintro ⟨_, hitem, hrest⟩
          exact ⟨hitem hnext.1, hrest⟩
      · rw [if_neg hnext]
        constructor
        · rintro ⟨hstart, hrest⟩
          refine ⟨hstart, fun hcounts => ?_, hrest⟩
          have hnot : ¬ limit item < start := fun hlower => hnext ⟨hcounts, hlower⟩
          omega
        · rintro ⟨hstart, _, hrest⟩
          exact ⟨hstart, hrest⟩

theorem lowest_le_start (counts : α → Bool) (limit : α → Nat) (items : List α)
    (start : Nat) : lowest counts limit items start ≤ start :=
  (le_lowest_iff.mp (Nat.le_refl _)).1

theorem lowest_le_of_mem {counts : α → Bool} (limit : α → Nat) (start : Nat)
    (hitem : item ∈ items) (hcounts : counts item = true) :
    lowest counts limit items start ≤ limit item :=
  (le_lowest_iff.mp (Nat.le_refl _)).2 item hitem hcounts

end Lowest
