import Mathlib.Data.List.Induction
import Qlinq.Lib.Replay

/-! A place for one item, and what its log says. -/

namespace OneSlot

open Replay

variable {α : Type} [DecidableEq α]

/-- An item is put into the empty place or is turned away from it; it may be taken out, or
given up; and some things do not touch the place. -/
inductive Mark (α : Type) where
  | put (item : α)
  | miss
  | keep
  | clear
  | take (item : α)
  deriving DecidableEq, Repr

def step (slot : Option α) : Mark α → Option (Option α)
  | .put item => if slot = none then some (some item) else none
  | .miss => if slot = none then some none else none
  | .keep => some slot
  | .clear => some none
  | .take item => if slot = some item then some none else none

variable {log before after : List (Mark α)} {item : α}

/-- What is in the place was put there last. -/
theorem put_of_held (hlog : replay step none log = some (some item)) :
    ∃ earlier later, log = earlier ++ .put item :: later ∧ ∀ mark ∈ later, mark = .keep := by
  induction log using List.reverseRecOn with
  | nil => cases hlog
  | append_singleton log mark ih =>
      rw [replay_snoc] at hlog
      obtain ⟨slot, hbefore, hmark⟩ := Option.bind_eq_some_iff.mp hlog
      cases mark with
      | put other =>
          simp only [step] at hmark
          split at hmark
          · cases hmark
            exact ⟨log, [], rfl, by simp⟩
          · cases hmark
      | miss =>
          simp only [step] at hmark
          split at hmark <;> cases hmark
      | keep =>
          cases hmark
          obtain ⟨earlier, later, rfl, hkept⟩ := ih hbefore
          refine ⟨earlier, later ++ [.keep], by simp, ?_⟩
          intro mark hmem
          cases List.mem_append.mp hmem with
          | inl hlater => exact hkept mark hlater
          | inr hlast => exact List.mem_singleton.mp hlast
      | clear => cases hmark
      | take other =>
          simp only [step] at hmark
          split at hmark <;> cases hmark

/-- What is taken was put there, and nothing touched the place in between. -/
theorem take_after_put (hlog : replay step none (before ++ .take item :: after) = some slot) :
    ∃ earlier later, before = earlier ++ .put item :: later ∧ ∀ mark ∈ later, mark = .keep := by
  rw [replay_append] at hlog
  obtain ⟨held, hbefore, hafter⟩ := Option.bind_eq_some_iff.mp hlog
  have htaken : held = some item := by
    rw [replay, List.foldlM_cons] at hafter
    obtain ⟨next, htake, -⟩ := Option.bind_eq_some_iff.mp hafter
    simp only [step] at htake
    split at htake
    · assumption
    · cases htake
  rw [htaken] at hbefore
  exact put_of_held hbefore

/-- Held items stay as they are until they are taken or given up. -/
theorem held_settles (hlog : replay step (some item) after = some slot) :
    (slot = some item ∧ ∀ mark ∈ after, mark = .keep) ∨
      ∃ kept rest, (∀ mark ∈ kept, mark = .keep) ∧
        (after = kept ++ .take item :: rest ∨ after = kept ++ .clear :: rest) := by
  induction after with
  | nil =>
      cases hlog
      exact .inl ⟨rfl, by simp⟩
  | cons mark after ih =>
      rw [replay, List.foldlM_cons] at hlog
      obtain ⟨next, hmark, hafter⟩ := Option.bind_eq_some_iff.mp hlog
      cases mark with
      | put other => cases hmark
      | miss => cases hmark
      | keep =>
          cases hmark
          cases ih hafter with
          | inl hheld => exact .inl ⟨hheld.1, List.forall_mem_cons.mpr ⟨rfl, hheld.2⟩⟩
          | inr hgone =>
              obtain ⟨kept, rest, hkept, hsplit⟩ := hgone
              refine .inr ⟨.keep :: kept, rest, List.forall_mem_cons.mpr ⟨rfl, hkept⟩, ?_⟩
              cases hsplit with
              | inl htake => exact .inl (congrArg (Mark.keep :: ·) htake)
              | inr hclear => exact .inr (congrArg (Mark.keep :: ·) hclear)
      | clear => exact .inr ⟨[], after, by simp, .inr rfl⟩
      | take other =>
          simp only [step] at hmark
          split at hmark
          · next hheld =>
              cases hheld
              exact .inr ⟨[], after, by simp, .inl rfl⟩
          · cases hmark

/-- What is put is taken, unless it is given up before that or is still there. -/
theorem put_settles (hlog : replay step none (before ++ .put item :: after) = some slot) :
    (slot = some item ∧ ∀ mark ∈ after, mark = .keep) ∨
      ∃ kept rest, (∀ mark ∈ kept, mark = .keep) ∧
        (after = kept ++ .take item :: rest ∨ after = kept ++ .clear :: rest) := by
  rw [replay_append] at hlog
  obtain ⟨held, hbefore, hafter⟩ := Option.bind_eq_some_iff.mp hlog
  rw [replay, List.foldlM_cons] at hafter
  obtain ⟨next, hput, hrest⟩ := Option.bind_eq_some_iff.mp hafter
  simp only [step] at hput
  split at hput
  · cases hput
    exact held_settles hrest
  · cases hput

end OneSlot
