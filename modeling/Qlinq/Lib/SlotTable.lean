import Mathlib.Data.List.Nodup

/-! Tables of slots, an empty slot holding `none`. -/

namespace SlotTable

variable {α : Type}

def occupied (slots : List (Option α)) : List α := slots.filterMap id

@[simp] theorem occupied_nil : occupied ([] : List (Option α)) = [] :=
  rfl

@[simp] theorem occupied_cons_none (rest : List (Option α)) :
    occupied (none :: rest) = occupied rest :=
  rfl

@[simp] theorem occupied_cons_some (entry : α) (rest : List (Option α)) :
    occupied (some entry :: rest) = entry :: occupied rest :=
  rfl

theorem mem_occupied {slots : List (Option α)} : entry ∈ occupied slots ↔ some entry ∈ slots := by
  simp [occupied]

@[simp] theorem occupied_replicate_none (length : Nat) :
    occupied (List.replicate length (none : Option α)) = [] := by
  induction length with
  | zero => rfl
  | succ length ih => rw [List.replicate_succ, occupied_cons_none, ih]

theorem length_occupied_le (slots : List (Option α)) :
    (occupied slots).length ≤ slots.length :=
  List.length_filterMap_le id slots

/-- A table has an empty slot where it holds fewer entries than slots. -/
theorem none_mem_iff {slots : List (Option α)} :
    none ∈ slots ↔ (occupied slots).length < slots.length := by
  induction slots with
  | nil => simp
  | cons slot rest ih =>
      cases slot with
      | none =>
          exact iff_of_true List.mem_cons_self (Nat.lt_succ_of_le (length_occupied_le rest))
      | some entry => simp [ih]

theorem occupied_map_filter (keep : α → Bool) (slots : List (Option α)) :
    occupied (slots.map fun slot => slot.filter keep) = (occupied slots).filter keep := by
  induction slots with
  | nil => rfl
  | cons slot rest ih =>
      cases slot with
      | none => simpa using ih
      | some entry =>
          by_cases hkeep : keep entry = true
          · simp [Option.filter_some, hkeep, ih]
          · simp [Option.filter_some, hkeep, ih]

theorem occupied_map_map (update : α → α) (slots : List (Option α)) :
    occupied (slots.map fun slot => slot.map update) = (occupied slots).map update := by
  induction slots with
  | nil => rfl
  | cons slot rest ih =>
      cases slot with
      | none => simpa using ih
      | some entry => simp [ih]

theorem perm_set_some {slots : List (Option α)} (hfree : slots[index]? = some none)
    (entry : α) : (occupied (slots.set index (some entry))).Perm (entry :: occupied slots) := by
  induction slots generalizing index with
  | nil => simp at hfree
  | cons slot rest ih =>
      cases index with
      | zero =>
          obtain rfl : slot = none := by simpa using hfree
          exact List.Perm.refl _
      | succ index =>
          have htail := ih (by simpa using hfree)
          cases slot with
          | none => exact htail
          | some head => exact (htail.cons head).trans (List.Perm.swap entry head _)

/-- A ring walk of a table's length from any slot comes to every slot. -/
theorem exists_offset {index length : Nat} (start : Nat) (hlt : index < length) :
    ∃ offset < length, (start + offset) % length = index := by
  have hdiv := Nat.div_add_mod start length
  have hstart : start % length < length := Nat.mod_lt _ (Nat.zero_lt_of_lt hlt)
  by_cases hbehind : start % length ≤ index
  · refine ⟨index - start % length, by omega, ?_⟩
    have hsplit : start + (index - start % length) = index + length * (start / length) := by
      omega
    rw [hsplit, Nat.add_mul_mod_self_left, Nat.mod_eq_of_lt hlt]
  · refine ⟨index + length - start % length, by omega, ?_⟩
    have hsplit : start + (index + length - start % length) =
        index + length + length * (start / length) := by
      omega
    rw [hsplit, Nat.add_mul_mod_self_left, Nat.add_mod_right, Nat.mod_eq_of_lt hlt]

theorem map_filter_of_not_mem [DecidableEq α] {slots : List (Option α)}
    (habsent : entry ∉ occupied slots) :
    (slots.map fun slot => slot.filter fun other => !(other == entry)) = slots := by
  induction slots with
  | nil => rfl
  | cons slot rest ih =>
      cases slot with
      | none => simpa using ih habsent
      | some head =>
          rw [occupied_cons_some, List.mem_cons, not_or] at habsent
          simp [Option.filter_some, Ne.symm habsent.1, ih habsent.2]

/-- Where no entry is held twice, emptying a slot is dropping its entry. -/
theorem set_none_eq_map [DecidableEq α] {slots : List (Option α)}
    (hnodup : (occupied slots).Nodup) (hslot : slots[index]? = some (some entry)) :
    slots.set index none = slots.map fun slot => slot.filter fun other => !(other == entry) := by
  induction slots generalizing index with
  | nil => simp at hslot
  | cons slot rest ih =>
      cases index with
      | zero =>
          obtain rfl : slot = some entry := by simpa using hslot
          rw [occupied_cons_some, List.nodup_cons] at hnodup
          simp [Option.filter_some, map_filter_of_not_mem hnodup.1]
      | succ index =>
          have hrest : rest[index]? = some (some entry) := by simpa using hslot
          cases slot with
          | none => simpa using ih hnodup hrest
          | some head =>
              rw [occupied_cons_some, List.nodup_cons] at hnodup
              have hne : head ≠ entry := by
                rintro rfl
                exact hnodup.1 (mem_occupied.mpr (List.mem_of_getElem? hrest))
              simp [Option.filter_some, hne, ih hnodup.2 hrest]

end SlotTable
