import Mathlib.Data.Nat.ModEq
import Mathlib.Logic.Function.Basic
import Qlinq.Lib.Totals

namespace Qlinq

/-! Numbered items that arrive in any order and leave in the order of their numbers.  An
item waits in the slot of its number's remainder, which is its own as long as the numbers in
flight are closer to each other than there are slots. -/

structure SequenceWindow (α : Type) where
  slots : List (Option (Nat × α))
  next : Nat := 0
  deriving DecidableEq, Repr

namespace SequenceWindow

variable {α : Type}

def empty (size : Nat) : SequenceWindow α := ⟨List.replicate size none, 0⟩

def size (window : SequenceWindow α) : Nat := window.slots.length

def slotOf (window : SequenceWindow α) (number : Nat) : Nat := number % window.size

/-- What waits in the slot of the number. -/
def entry (window : SequenceWindow α) (number : Nat) : Option (Nat × α) :=
  (window.slots[window.slotOf number]?).join

def put (window : SequenceWindow α) (number : Nat) (item : α) : SequenceWindow α :=
  { window with slots := window.slots.set (window.slotOf number) (some (number, item)) }

/-- The item that leaves next, once it is there. -/
def front (window : SequenceWindow α) : Option α :=
  match window.entry window.next with
  | none => none
  | some (number, item) => if number = window.next then some item else none

/-- The numbers start again at `modulus`. -/
def leave (modulus : Nat) (window : SequenceWindow α) : SequenceWindow α where
  slots := window.slots.set (window.slotOf window.next) none
  next := (window.next + 1) % modulus

/-- The number is one that may wait. -/
def Near (window : SequenceWindow α) (number : Nat) : Prop :=
  window.next ≤ number ∧ number < window.next + window.size

/-- The items that wait are `held`, each in its slot. -/
structure Holds (window : SequenceWindow α) (held : Nat → Option α) : Prop where
  slot_iff : ∀ index number item, window.slots[index]? = some (some (number, item)) ↔
    index = window.slotOf number ∧ held number = some item
  near : ∀ number item, held number = some item → window.Near number

def total (weight : α → Nat) (window : SequenceWindow α) : Nat :=
  Totals.total (fun slot => slot.elim 0 fun entry => weight entry.2) window.slots

variable {window : SequenceWindow α} {held : Nat → Option α}

@[simp] theorem size_put (window : SequenceWindow α) (number : Nat) (item : α) :
    (window.put number item).size = window.size :=
  List.length_set

@[simp] theorem size_leave (modulus : Nat) (window : SequenceWindow α) :
    (window.leave modulus).size = window.size :=
  List.length_set

@[simp] theorem next_put (window : SequenceWindow α) (number : Nat) (item : α) :
    (window.put number item).next = window.next :=
  rfl

@[simp] theorem slotOf_put (window : SequenceWindow α) (number : Nat) (item : α) (other : Nat) :
    (window.put number item).slotOf other = window.slotOf other := by
  rw [slotOf, size_put, slotOf]

@[simp] theorem slotOf_leave (modulus : Nat) (window : SequenceWindow α) (other : Nat) :
    (window.leave modulus).slotOf other = window.slotOf other := by
  rw [slotOf, size_leave, slotOf]

theorem holds_empty (size : Nat) : (empty size : SequenceWindow α).Holds fun _ => none where
  slot_iff := by
    intro index number item
    refine iff_of_false (fun hslot => ?_) (by simp)
    have hmem := List.mem_of_getElem? hslot
    exact Option.some_ne_none _ (List.eq_of_mem_replicate hmem)
  near := by simp

theorem slotOf_lt (hnear : window.Near number) : window.slotOf number < window.size := by
  obtain ⟨hlow, hhigh⟩ := hnear
  exact Nat.mod_lt _ (by omega)

/-- No two numbers that may wait share a slot. -/
theorem slotOf_inj (hfirst : window.Near first) (hsecond : window.Near second)
    (hslot : window.slotOf first = window.slotOf second) : first = second := by
  obtain ⟨hlow, hhigh⟩ := hfirst
  obtain ⟨hlow', hhigh'⟩ := hsecond
  rcases Nat.le_total first second with hle | hle
  · have hmod : first ≡ second [MOD window.size] := hslot
    have hzero := Nat.eq_zero_of_dvd_of_lt ((Nat.modEq_iff_dvd' hle).mp hmod) (by omega)
    omega
  · have hmod : second ≡ first [MOD window.size] := hslot.symm
    have hzero := Nat.eq_zero_of_dvd_of_lt ((Nat.modEq_iff_dvd' hle).mp hmod) (by omega)
    omega

namespace Holds

/-- The slot of a number that may wait holds that number or nothing. -/
theorem entry_eq (hholds : window.Holds held) (hnear : window.Near number) :
    window.entry number = (held number).map (number, ·) := by
  have hlt : window.slotOf number < window.slots.length := slotOf_lt hnear
  have hslot : window.slots[window.slotOf number]? = some (window.entry number) := by
    rw [entry, List.getElem?_eq_getElem hlt]
    rfl
  cases hentry : window.entry number with
  | none =>
      rw [hentry] at hslot
      cases hheld : held number with
      | none => rfl
      | some item =>
          have hthere := (hholds.slot_iff _ number item).mpr ⟨rfl, hheld⟩
          rw [hslot] at hthere
          exact absurd hthere (by simp)
  | some found =>
      obtain ⟨other, item⟩ := found
      rw [hentry] at hslot
      obtain ⟨hsame, hheld⟩ := (hholds.slot_iff _ other item).mp hslot
      obtain rfl := slotOf_inj hnear (hholds.near other item hheld) hsame
      rw [hheld]
      rfl

theorem slot_free (hholds : window.Holds held) (hnear : window.Near number)
    (hfree : held number = none) : window.slots[window.slotOf number]? = some none := by
  have hlt : window.slotOf number < window.slots.length := slotOf_lt hnear
  have hentry := hholds.entry_eq hnear
  rw [hfree, entry, List.getElem?_eq_getElem hlt] at hentry
  rw [List.getElem?_eq_getElem hlt]
  exact congrArg some hentry

theorem front_eq (hholds : window.Holds held) : window.front = held window.next := by
  by_cases hsize : window.size = 0
  · have hnone : held window.next = none := by
      cases hheld : held window.next with
      | none => rfl
      | some item =>
          have hnear := hholds.near _ _ hheld
          rw [Near, hsize] at hnear
          omega
    have hempty : window.slots = [] := List.length_eq_zero_iff.mp hsize
    simp [front, entry, hempty, hnone]
  · have hnear : window.Near window.next := ⟨le_refl _, by omega⟩
    rw [front, hholds.entry_eq hnear]
    cases held window.next <;> simp

theorem put (hholds : window.Holds held) (hnear : window.Near number)
    (hfree : held number = none) (item : α) :
    (window.put number item).Holds (Function.update held number (some item)) where
  slot_iff := by
    intro index other found
    rw [slotOf_put]
    simp only [SequenceWindow.put]
    by_cases hindex : index = window.slotOf number
    · subst hindex
      rw [List.getElem?_set_self (slotOf_lt hnear)]
      constructor
      · intro hsame
        obtain ⟨rfl, rfl⟩ : number = other ∧ item = found := by simpa using hsame
        exact ⟨rfl, Function.update_self ..⟩
      · rintro ⟨hslot, hheld⟩
        by_cases hsame : other = number
        · subst hsame
          rw [Function.update_self] at hheld
          rw [Option.some.inj hheld]
        · rw [Function.update_of_ne hsame] at hheld
          exact absurd (slotOf_inj (hholds.near _ _ hheld) hnear hslot.symm) hsame
    · rw [List.getElem?_set_ne (Ne.symm hindex), hholds.slot_iff]
      refine and_congr_right fun hslot => ?_
      have hne : other ≠ number := by
        rintro rfl
        exact hindex hslot
      rw [Function.update_of_ne hne]
  near := by
    intro other found hheld
    by_cases hsame : other = number
    · subst hsame
      simpa [Near] using hnear
    · rw [Function.update_of_ne hsame] at hheld
      simpa [Near] using hholds.near other found hheld

theorem leave (hholds : window.Holds held) (hmodulus : window.next + 1 < modulus) :
    (window.leave modulus).Holds (Function.update held window.next none) where
  slot_iff := by
    intro index number item
    rw [slotOf_leave]
    simp only [SequenceWindow.leave]
    by_cases hindex : index = window.slotOf window.next
    · subst hindex
      refine iff_of_false (fun hslot => ?_) ?_
      · rw [List.getElem?_set, if_pos rfl] at hslot
        split at hslot <;> simp at hslot
      · rintro ⟨hslot, hheld⟩
        have hne : number ≠ window.next := by
          rintro rfl
          simp at hheld
        rw [Function.update_of_ne hne] at hheld
        have hnear := hholds.near _ _ hheld
        refine hne (slotOf_inj hnear ⟨le_refl _, ?_⟩ hslot.symm)
        obtain ⟨_, hhigh⟩ := hnear
        omega
    · rw [List.getElem?_set_ne (Ne.symm hindex), hholds.slot_iff]
      refine and_congr_right fun hslot => ?_
      have hne : number ≠ window.next := by
        rintro rfl
        exact hindex hslot
      rw [Function.update_of_ne hne]
  near := by
    intro number item hheld
    have hne : number ≠ window.next := by
      rintro rfl
      simp at hheld
    rw [Function.update_of_ne hne] at hheld
    obtain ⟨hlow, hhigh⟩ := hholds.near _ _ hheld
    have hstep : (window.next + 1) % modulus = window.next + 1 := Nat.mod_eq_of_lt hmodulus
    change (window.next + 1) % modulus ≤ number ∧
      number < (window.next + 1) % modulus + (window.leave modulus).size
    rw [hstep, size_leave]
    omega

end Holds

theorem total_put (weight : α → Nat) (hfree : window.slots[window.slotOf number]? = some none)
    (item : α) : (window.put number item).total weight = window.total weight + weight item := by
  simpa [total, SequenceWindow.put] using Totals.total_set
    (fun slot : Option (Nat × α) => slot.elim 0 fun entry => weight entry.2) hfree
    (some (number, item))

theorem total_leave (weight : α → Nat) (modulus : Nat) (hfront : window.front = some item) :
    (window.leave modulus).total weight + weight item = window.total weight := by
  have hslot : window.slots[window.slotOf window.next]? = some (some (window.next, item)) := by
    rw [front] at hfront
    split at hfront
    · cases hfront
    · next number found hentry =>
        rw [Option.ite_none_right_eq_some] at hfront
        obtain ⟨rfl, hitem⟩ := hfront
        cases hitem
        exact Option.join_eq_some_iff.mp hentry
  simpa [total, SequenceWindow.leave] using Totals.total_set
    (fun slot : Option (Nat × α) => slot.elim 0 fun entry => weight entry.2) hslot none

theorem total_empty (weight : α → Nat) (size : Nat) :
    (empty size : SequenceWindow α).total weight = 0 := by
  simp [total, empty, Totals.total]

end SequenceWindow

end Qlinq
