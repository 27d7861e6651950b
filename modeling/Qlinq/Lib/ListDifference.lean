import Mathlib.Data.List.Nodup

/-! The difference of two lists without repetitions: what is gained, what is lost, and that
the one list with this done to it is the other, up to order. -/

namespace ListDifference

variable {α β : Type} [DecidableEq α] {a b : List α}

/-- What `a` has and `b` has not. -/
def beyond (a b : List α) : List α := a.filter fun x => x ∉ b

/-- Takes out what is lost and puts in what is gained. -/
def patch (a lost gained : List α) : List α := beyond a lost ++ gained

@[simp] theorem mem_beyond : x ∈ beyond a b ↔ x ∈ a ∧ x ∉ b := by
  simp [beyond]

theorem beyond_eq_nil_iff : beyond a b = [] ↔ a ⊆ b := by
  simp [beyond, List.filter_eq_nil_iff, List.subset_def]

theorem beyond_subset (a b : List α) : beyond a b ⊆ a :=
  fun _ hx => (mem_beyond.mp hx).1

theorem length_beyond_le (a b : List α) : (beyond a b).length ≤ a.length :=
  List.length_filter_le _ _

theorem beyond_self (a : List α) : beyond a a = [] :=
  beyond_eq_nil_iff.mpr (List.Subset.refl a)

/-- Only what both lists have is left before the gain. -/
theorem beyond_beyond : beyond a (beyond a b) = a.filter fun x => x ∈ b := by
  apply List.filter_congr
  intro x hx
  simp [hx]

theorem patch_perm (ha : a.Nodup) (hb : b.Nodup) :
    (patch a (beyond a b) (beyond b a)).Perm b := by
  have hcommon : (beyond a (beyond a b)).Nodup := List.Nodup.filter _ ha
  have hgained : (beyond b a).Nodup := List.Nodup.filter _ hb
  have happart : (beyond a (beyond a b)).Disjoint (beyond b a) := by
    intro x hkept hnew
    exact (mem_beyond.mp hnew).2 (mem_beyond.mp hkept).1
  have hpatched : (patch a (beyond a b) (beyond b a)).Nodup :=
    List.nodup_append'.mpr ⟨hcommon, hgained, happart⟩
  apply (List.perm_ext_iff_of_nodup hpatched hb).mpr
  intro x
  rw [patch, List.mem_append, beyond_beyond, mem_beyond, List.mem_filter, decide_eq_true_eq]
  constructor
  · intro hpatched
    cases hpatched with
    | inl hkept => exact hkept.2
    | inr hnew => exact hnew.1
  · intro hmem
    cases Decidable.em (x ∈ a) with
    | inl hold => exact .inl ⟨hold, hmem⟩
    | inr hnew => exact .inr ⟨hmem, hnew⟩

/-- Nothing is gained and nothing lost exactly between two orders of one list. -/
theorem perm_iff (ha : a.Nodup) (hb : b.Nodup) :
    a.Perm b ↔ beyond a b = [] ∧ beyond b a = [] := by
  rw [beyond_eq_nil_iff, beyond_eq_nil_iff, List.perm_ext_iff_of_nodup ha hb]
  constructor
  · intro hsame
    exact ⟨fun x hx => (hsame x).mp hx, fun x hx => (hsame x).mpr hx⟩
  · rintro ⟨hab, hba⟩ x
    exact ⟨fun hx => hab hx, fun hx => hba hx⟩

theorem map_filter_beyond (f : β → α) (rows : List β) (b : List α) :
    (rows.filter fun row => f row ∉ b).map f = beyond (rows.map f) b := by
  rw [beyond, List.filter_map]
  rfl

end ListDifference
