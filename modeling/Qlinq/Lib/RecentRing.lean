import Mathlib.Logic.Function.Basic

/-! An array that is written round and round: each write goes to the cursor, which then moves
on. What was written last stands right before the cursor, and so on backwards. -/

namespace RecentRing

variable {α : Type} {size cursor age : Nat}

def next (size cursor : Nat) : Nat := (cursor + 1) % size

/-- Where the entry stands that was followed by `age` others. -/
def position (size cursor age : Nat) : Nat := (cursor + size - 1 - age) % size

/-- The entries are these values, the newest first; those not written yet are `blank`. -/
def Holds (size cursor : Nat) (entry : Nat → α) (blank : α) (recent : List α) : Prop :=
  ∀ age < size, entry (position size cursor age) = recent[age]?.getD blank

theorem next_lt (hcursor : cursor < size) : next size cursor < size :=
  Nat.mod_lt _ (Nat.zero_lt_of_lt hcursor)

theorem next_eq (hcursor : cursor < size) :
    next size cursor = if cursor + 1 = size then 0 else cursor + 1 := by
  unfold next
  split
  · next hlast => rw [hlast, Nat.mod_self]
  · next hinside => exact Nat.mod_eq_of_lt (by omega)

theorem position_eq (hcursor : cursor < size) (hage : age < size) :
    position size cursor age =
      if age < cursor then cursor - 1 - age else cursor + size - 1 - age := by
  unfold position
  split
  · next hbehind =>
    have hwrapped : cursor + size - 1 - age = cursor - 1 - age + size := by omega
    rw [hwrapped, Nat.add_mod_right, Nat.mod_eq_of_lt (by omega)]
  · next hahead => exact Nat.mod_eq_of_lt (by omega)

theorem position_lt (hcursor : cursor < size) (age : Nat) : position size cursor age < size :=
  Nat.mod_lt _ (Nat.zero_lt_of_lt hcursor)

theorem position_next_zero (hcursor : cursor < size) :
    position size (next size cursor) 0 = cursor := by
  rw [position_eq (next_lt hcursor) (Nat.zero_lt_of_lt hcursor), next_eq hcursor]
  split <;> split <;> omega

theorem position_next_succ (hcursor : cursor < size) (hage : age + 1 < size) :
    position size (next size cursor) (age + 1) = position size cursor age := by
  rw [position_eq (next_lt hcursor) hage, position_eq hcursor (by omega), next_eq hcursor]
  split <;> split <;> split <;> omega

theorem position_ne_cursor (hcursor : cursor < size) (hage : age + 1 < size) :
    position size cursor age ≠ cursor := by
  rw [position_eq hcursor (by omega)]
  split <;> omega

theorem exists_position (hcursor : cursor < size) (hindex : index < size) :
    ∃ age < size, position size cursor age = index := by
  cases Nat.lt_or_ge index cursor with
  | inl hbehind =>
      refine ⟨cursor - 1 - index, by omega, ?_⟩
      rw [position_eq hcursor (by omega), if_pos (by omega)]
      omega
  | inr hahead =>
      refine ⟨cursor + size - 1 - index, by omega, ?_⟩
      rw [position_eq hcursor (by omega), if_neg (by omega)]
      omega

theorem holds_nil (entry : Nat → α) (hblank : ∀ index < size, entry index = blank)
    (hcursor : cursor < size) : Holds size cursor entry blank [] :=
  fun age _ => hblank _ (position_lt hcursor age)

theorem Holds.push {entry entry' : Nat → α} (hholds : Holds size cursor entry blank recent)
    (hcursor : cursor < size) (hwritten : entry' cursor = newest)
    (hkept : ∀ index ≠ cursor, entry' index = entry index) :
    Holds size (next size cursor) entry' blank (newest :: recent) := by
  intro age hage
  cases age with
  | zero =>
      rw [position_next_zero hcursor, hwritten]
      rfl
  | succ age =>
      rw [position_next_succ hcursor hage, hkept _ (position_ne_cursor hcursor hage),
        hholds age (by omega), List.getElem?_cons_succ]

end RecentRing
