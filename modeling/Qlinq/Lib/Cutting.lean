import Mathlib.Data.List.TakeDrop

/-! Cutting a list into pieces of one size, the last piece as long as what is left. -/

namespace Cutting

variable {α : Type} {size : Nat}

def cutWithin (size : Nat) : Nat → List α → List (List α)
  | 0, _ => []
  | _ + 1, [] => []
  | within + 1, src => src.take size :: cutWithin size within (src.drop size)

def cut (size : Nat) (src : List α) : List (List α) := cutWithin size src.length src

/-- Pieces that a cut at `size` gives back: each is full, but for a last one that
may be shorter and is not empty. -/
inductive Regular (size : Nat) : List (List α) → Prop
  | nil : Regular size []
  | last {piece : List α} (hne : piece ≠ []) (hle : piece.length ≤ size) : Regular size [piece]
  | cons {piece : List α} {rest : List (List α)} (hfull : piece.length = size)
      (hrest : Regular size rest) : Regular size (piece :: rest)

namespace Regular

theorem length_le {pieces : List (List α)} (hregular : Regular size pieces)
    (hmem : piece ∈ pieces) : piece.length ≤ size := by
  induction hregular with
  | nil => cases hmem
  | last _ hle =>
      rw [List.mem_singleton] at hmem
      exact hmem ▸ hle
  | cons hfull _ ih =>
      rcases List.mem_cons.mp hmem with rfl | hrest
      · exact Nat.le_of_eq hfull
      · exact ih hrest

theorem cutWithin_flatten {pieces : List (List α)} (hsize : 0 < size)
    (hregular : Regular size pieces) :
    ∀ within, pieces.flatten.length ≤ within → cutWithin size within pieces.flatten = pieces := by
  induction hregular with
  | nil =>
      intro within _
      cases within <;> rfl
  | last hne hle =>
      rintro (_ | within) hwithin
      · rw [List.flatten_singleton] at hwithin
        exact absurd (List.length_eq_zero_iff.mp (Nat.le_zero.mp hwithin)) hne
      · rw [List.flatten_singleton, cutWithin, List.take_of_length_le hle,
          List.drop_of_length_le hle]
        · cases within <;> rfl
        · exact fun h => hne h
  | @cons piece rest hfull _ ih =>
      intro within hwithin
      have hlength : size + rest.flatten.length ≤ within := by
        simpa [hfull] using hwithin
      obtain _ | within := within
      · omega
      · have hne : (piece :: rest).flatten ≠ [] := by
          intro h
          have := congrArg List.length h
          simp [hfull] at this
          omega
        rw [cutWithin]
        · rw [List.flatten_cons, List.take_left' hfull, List.drop_left' hfull,
            ih within (by omega)]
        · exact fun h => hne h

/-- Cutting the pieces' concatenation gives back the pieces. -/
theorem cut_flatten {pieces : List (List α)} (hsize : 0 < size) (hregular : Regular size pieces) :
    cut size pieces.flatten = pieces :=
  hregular.cutWithin_flatten hsize _ (Nat.le_refl _)

end Regular

end Cutting
