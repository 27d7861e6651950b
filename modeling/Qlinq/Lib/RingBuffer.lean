import Mathlib.Data.Int.ModEq
import Mathlib.Data.List.Rotate
import Qlinq.Lib.SlotTable

/-! A first-in first-out queue in a ring of slots. -/

structure RingBuffer (α : Type) where
  slots : List (Option α)
  head : Nat
  count : Nat
  deriving DecidableEq, Repr

namespace RingBuffer

variable {α : Type}

def empty (size : Nat) : RingBuffer α := ⟨List.replicate size none, 0, 0⟩

def capacity (ring : RingBuffer α) : Nat := ring.slots.length

/-- The slot `offset` places behind the head. -/
def slotAt (ring : RingBuffer α) (offset : Nat) : Nat := (ring.head + offset) % ring.capacity

def peek (ring : RingBuffer α) (offset : Nat) : Option α :=
  (ring.slots[ring.slotAt offset]?).join

def pushBack (ring : RingBuffer α) (item : α) : RingBuffer α where
  slots := ring.slots.set (ring.slotAt ring.count) (some item)
  head := ring.head
  count := ring.count + 1

def popFront (ring : RingBuffer α) : RingBuffer α where
  slots := ring.slots.set ring.head none
  head := ring.slotAt 1
  count := ring.count - 1

def popBack (ring : RingBuffer α) : RingBuffer α where
  slots := ring.slots.set (ring.slotAt (ring.count - 1)) none
  head := ring.head
  count := ring.count - 1

/-- The ring holds the items in order from its head, and nothing else. -/
structure Holds (ring : RingBuffer α) (items : List α) : Prop where
  head_lt : ring.head < ring.capacity
  count_eq : ring.count = items.length
  fits : items.length ≤ ring.capacity
  slot_eq : ∀ offset < ring.capacity, ring.slots[ring.slotAt offset]? = some items[offset]?

theorem slotAt_lt (ring : RingBuffer α) (hhead : ring.head < ring.capacity) (offset : Nat) :
    ring.slotAt offset < ring.capacity :=
  Nat.mod_lt _ (Nat.zero_lt_of_lt hhead)

@[simp] theorem slotAt_zero {ring : RingBuffer α} (hhead : ring.head < ring.capacity) :
    ring.slotAt 0 = ring.head :=
  Nat.mod_eq_of_lt hhead

theorem slotAt_inj {ring : RingBuffer α} (hfirst : first < ring.capacity)
    (hsecond : second < ring.capacity) :
    ring.slotAt first = ring.slotAt second ↔ first = second := by
  constructor
  · intro h
    have hmod : first % ring.capacity = second % ring.capacity :=
      Nat.ModEq.add_left_cancel' ring.head h
    rwa [Nat.mod_eq_of_lt hfirst, Nat.mod_eq_of_lt hsecond] at hmod
  · rintro rfl
    rfl

@[simp] theorem capacity_pushBack (ring : RingBuffer α) (item : α) :
    (ring.pushBack item).capacity = ring.capacity :=
  List.length_set

@[simp] theorem capacity_popFront (ring : RingBuffer α) :
    ring.popFront.capacity = ring.capacity :=
  List.length_set

@[simp] theorem capacity_popBack (ring : RingBuffer α) : ring.popBack.capacity = ring.capacity :=
  List.length_set

theorem slotAt_pushBack (ring : RingBuffer α) (item : α) (offset : Nat) :
    (ring.pushBack item).slotAt offset = ring.slotAt offset := by
  rw [slotAt, capacity_pushBack]
  rfl

theorem slotAt_popBack (ring : RingBuffer α) (offset : Nat) :
    ring.popBack.slotAt offset = ring.slotAt offset := by
  rw [slotAt, capacity_popBack]
  rfl

theorem slotAt_popFront (ring : RingBuffer α) (offset : Nat) :
    ring.popFront.slotAt offset = ring.slotAt (offset + 1) := by
  rw [slotAt, capacity_popFront]
  change (ring.slotAt 1 + offset) % ring.capacity = _
  rw [slotAt, slotAt, Nat.mod_add_mod, Nat.add_assoc, Nat.add_comm 1 offset]

namespace Holds

variable {ring : RingBuffer α} {items : List α}

theorem empty (hsize : 0 < size) : (empty size : RingBuffer α).Holds [] where
  head_lt := by simpa [RingBuffer.capacity, RingBuffer.empty] using hsize
  count_eq := rfl
  fits := Nat.zero_le _
  slot_eq := by
    intro offset hoffset
    have hslot := slotAt_lt (RingBuffer.empty size : RingBuffer α)
      (by simpa [RingBuffer.capacity, RingBuffer.empty] using hsize) offset
    rw [RingBuffer.capacity, RingBuffer.empty, List.length_replicate] at hslot
    simp [RingBuffer.empty, hslot]

theorem peek_eq (hholds : ring.Holds items) (hoffset : offset < ring.count) :
    ring.peek offset = items[offset]? := by
  have := hholds.count_eq
  have := hholds.fits
  rw [peek, hholds.slot_eq offset (by omega)]
  rfl

theorem pushBack (hholds : ring.Holds items) (hroom : items.length < ring.capacity) (item : α) :
    (ring.pushBack item).Holds (items ++ [item]) where
  head_lt := by
    rw [capacity_pushBack]
    exact hholds.head_lt
  count_eq := by
    rw [List.length_append, ← hholds.count_eq]
    rfl
  fits := by
    rw [List.length_append, capacity_pushBack]
    exact hroom
  slot_eq := by
    intro offset hoffset
    rw [capacity_pushBack] at hoffset
    rw [slotAt_pushBack, RingBuffer.pushBack, hholds.count_eq]
    by_cases hlast : offset = items.length
    · subst hlast
      rw [List.getElem?_set_self (slotAt_lt ring hholds.head_lt _), List.getElem?_concat_length]
    · have hapart : ring.slotAt items.length ≠ ring.slotAt offset :=
        fun h => hlast ((slotAt_inj hroom hoffset).mp h).symm
      rw [List.getElem?_set_ne hapart, hholds.slot_eq offset hoffset]
      rcases Nat.lt_or_gt_of_ne hlast with hlt | hgt
      · rw [List.getElem?_append_left hlt]
      · rw [List.getElem?_eq_none (Nat.le_of_lt hgt),
          List.getElem?_eq_none (by rw [List.length_append, List.length_singleton]; omega)]

theorem popFront (hholds : ring.Holds (item :: items)) : ring.popFront.Holds items where
  head_lt := by
    rw [capacity_popFront]
    exact slotAt_lt ring hholds.head_lt 1
  count_eq := by
    rw [RingBuffer.popFront, hholds.count_eq]
    rfl
  fits := by
    rw [capacity_popFront]
    exact Nat.le_of_succ_le hholds.fits
  slot_eq := by
    intro offset hoffset
    rw [capacity_popFront] at hoffset
    rw [slotAt_popFront]
    change (ring.slots.set ring.head none)[_]? = _
    rcases Nat.lt_or_eq_of_le (Nat.succ_le_of_lt hoffset) with hinside | hwraps
    · have hapart : ring.head ≠ ring.slotAt (offset + 1) := by
        rw [← slotAt_zero hholds.head_lt]
        intro h
        have := (slotAt_inj (Nat.zero_lt_of_lt hoffset) hinside).mp h
        omega
      rw [List.getElem?_set_ne hapart, hholds.slot_eq _ hinside, List.getElem?_cons_succ]
    · -- The freed head is the last slot behind the new one.
      have hhead : ring.slotAt (offset + 1) = ring.head := by
        rw [slotAt, show offset + 1 = ring.capacity from hwraps, Nat.add_mod_right,
          Nat.mod_eq_of_lt hholds.head_lt]
      have hfits := hholds.fits
      rw [List.length_cons] at hfits
      rw [hhead, List.getElem?_set_self hholds.head_lt, List.getElem?_eq_none (by omega)]

theorem popBack (hholds : ring.Holds (items ++ [item])) : ring.popBack.Holds items where
  head_lt := by
    rw [capacity_popBack]
    exact hholds.head_lt
  count_eq := by
    rw [RingBuffer.popBack, hholds.count_eq, List.length_append]
    rfl
  fits := by
    have := hholds.fits
    rw [List.length_append, List.length_singleton] at this
    rw [capacity_popBack]
    omega
  slot_eq := by
    intro offset hoffset
    have hfits := hholds.fits
    rw [List.length_append, List.length_singleton] at hfits
    rw [capacity_popBack] at hoffset
    rw [slotAt_popBack, RingBuffer.popBack, hholds.count_eq, List.length_append,
      List.length_singleton, Nat.add_sub_cancel]
    by_cases hlast : offset = items.length
    · subst hlast
      rw [List.getElem?_set_self (slotAt_lt ring hholds.head_lt _),
        List.getElem?_eq_none (Nat.le_refl _)]
    · have hapart : ring.slotAt items.length ≠ ring.slotAt offset :=
        fun h => hlast ((slotAt_inj (by omega) hoffset).mp h).symm
      rw [List.getElem?_set_ne hapart, hholds.slot_eq offset hoffset]
      rcases Nat.lt_or_gt_of_ne hlast with hlt | hgt
      · rw [List.getElem?_append_left hlt]
      · rw [List.getElem?_eq_none (Nat.le_of_lt hgt),
          List.getElem?_eq_none (by rw [List.length_append, List.length_singleton]; omega)]

/-- Read from its head on, the ring is its items and then empty slots. -/
theorem rotate_slots (hholds : ring.Holds items) :
    ring.slots.rotate ring.head =
      items.map some ++ List.replicate (ring.capacity - items.length) none := by
  have hfits := hholds.fits
  refine List.ext_getElem? fun offset => ?_
  rcases Nat.lt_or_ge offset ring.capacity with hinside | houtside
  · rw [List.getElem?_rotate hinside, Nat.add_comm offset]
    refine (hholds.slot_eq offset hinside).trans ?_
    rcases Nat.lt_or_ge offset items.length with hitem | hpast
    · rw [List.getElem?_append_left (by simpa using hitem), List.getElem?_map,
        List.getElem?_eq_getElem hitem]
      rfl
    · rw [List.getElem?_append_right (by simpa using hpast), List.getElem?_eq_none hpast,
        List.getElem?_replicate, List.length_map, if_pos (by omega)]
  · rw [List.getElem?_eq_none (by rw [List.length_rotate]; exact houtside),
      List.getElem?_eq_none]
    rw [List.length_append, List.length_map, List.length_replicate]
    omega

/-- What lies in the slots, in whichever order, is the items. -/
theorem occupied_perm (hholds : ring.Holds items) :
    (SlotTable.occupied ring.slots).Perm items := by
  have hperm := ((List.rotate_perm ring.slots ring.head).filterMap id).symm
  rw [hholds.rotate_slots, List.filterMap_append] at hperm
  simpa [SlotTable.occupied] using hperm

end Holds

end RingBuffer
