import Mathlib.Data.List.Forall2
import Mathlib.Data.List.Nodup

/-! Lists whose elements are identified by a key. -/

namespace Keyed

section Unique

variable {α κ : Type} (key : α → κ)

def keys (items : List α) : List κ := items.map key

def UniqueKeys (items : List α) : Prop := (keys key items).Nodup

variable {key}

theorem eq_of_key_eq {items : List α} (hunique : UniqueKeys key items)
    (hleft : left ∈ items) (hright : right ∈ items)
    (hkey : key left = key right) : left = right :=
  List.inj_on_of_nodup_map hunique hleft hright hkey

theorem unique_append_singleton (hunique : UniqueKeys key items)
    (hfresh : key item ∉ keys key items) : UniqueKeys key (items ++ [item]) := by
  rw [UniqueKeys, keys, List.map_append, List.nodup_append]
  refine ⟨hunique, by simp, ?_⟩
  intro left hleft right hright heq
  simp only [List.map_cons, List.map_nil, List.mem_singleton] at hright
  exact hfresh (hright ▸ heq ▸ hleft)

end Unique

section Lookup

variable {α κ : Type} [DecidableEq κ] (key : α → κ)

def lookup (k : κ) (items : List α) : Option α :=
  items.find? (fun item => key item = k)

def adjust (k : κ) (update : α → α) (items : List α) : List α :=
  items.map fun item => if key item = k then update item else item

def erase (k : κ) (items : List α) : List α :=
  items.filter (fun item => key item ≠ k)

variable {key}

theorem mem_of_lookup (hlookup : lookup key k items = some item) :
    item ∈ items ∧ key item = k :=
  ⟨List.mem_of_find?_eq_some hlookup, by simpa using List.find?_some hlookup⟩

theorem lookup_eq_none_iff : lookup key k items = none ↔ k ∉ keys key items := by
  simp [lookup, keys]

theorem lookup_eq_some_iff (hunique : UniqueKeys key items) :
    lookup key k items = some item ↔ item ∈ items ∧ key item = k := by
  refine ⟨mem_of_lookup, ?_⟩
  rintro ⟨hmem, rfl⟩
  cases hlookup : lookup key (key item) items with
  | none =>
      have : key item ∉ keys key items := lookup_eq_none_iff.mp hlookup
      exact absurd (List.mem_map_of_mem hmem) this
  | some other =>
      obtain ⟨hother, hkey⟩ := mem_of_lookup hlookup
      rw [eq_of_key_eq hunique hother hmem hkey]

theorem keys_adjust (hkey : ∀ item ∈ items, key item = k → key (update item) = k) :
    keys key (adjust key k update items) = keys key items := by
  rw [keys, adjust, List.map_map]
  refine List.map_congr_left fun item hitem => ?_
  by_cases hsame : key item = k
  · simp [hsame, hkey item hitem hsame]
  · simp [hsame]

theorem mem_adjust :
    item ∈ adjust key k update items ↔
      (item ∈ items ∧ key item ≠ k) ∨
        ∃ old ∈ items, key old = k ∧ item = update old := by
  simp only [adjust, List.mem_map]
  constructor
  · rintro ⟨old, hold, rfl⟩
    by_cases hsame : key old = k
    · exact Or.inr ⟨old, hold, hsame, by simp [hsame]⟩
    · exact Or.inl (by simp [hsame, hold])
  · rintro (⟨hitem, hne⟩ | ⟨old, hold, hsame, rfl⟩)
    · exact ⟨item, hitem, by simp [hne]⟩
    · exact ⟨old, hold, by simp [hsame]⟩

theorem lookup_adjust (hkey : ∀ item, key item = k → key (update item) = k) (other : κ)
    (items : List α) :
    lookup key other (adjust key k update items) =
      if other = k then (lookup key k items).map update else lookup key other items := by
  induction items with
  | nil => simp [lookup, adjust]
  | cons item rest ih =>
      simp only [lookup, adjust, List.map_cons, List.find?_cons] at ih ⊢
      by_cases hsame : key item = k
      · by_cases hother : other = k
        · simp [hsame, hother, hkey item hsame]
        · have hne : ¬ k = other := fun h => hother h.symm
          simp only [hsame, if_true, hkey item hsame, hne, hother, decide_false, if_false]
            at ih ⊢
          exact ih
      · by_cases hother : other = k
        · subst hother
          simp only [hsame, if_false, if_true, decide_false] at ih ⊢
          exact ih
        · simp only [hsame, hother, if_false] at ih ⊢
          split
          · rfl
          · exact ih

/-- Under a key that one element has, a list made of some elements has what this one is made
into. -/
theorem lookup_filterMap {β : Type} {key' : β → κ} {make : α → Option β}
    (hkey : ∀ item made, make item = some made → key' made = key item)
    (hunique : UniqueKeys key items) (hmem : item ∈ items) :
    lookup key' (key item) (items.filterMap make) = make item := by
  have honly : ∀ made ∈ items.filterMap make, key' made = key item → make item = some made := by
    intro made hmade hsame
    obtain ⟨other, hother, hmake⟩ := List.mem_filterMap.mp hmade
    have hitem : other = item :=
      eq_of_key_eq hunique hother hmem ((hkey other made hmake).symm.trans hsame)
    exact hitem ▸ hmake
  cases hlookup : lookup key' (key item) (items.filterMap make) with
  | some made =>
      obtain ⟨hmade, hsame⟩ := mem_of_lookup hlookup
      exact (honly made hmade hsame).symm
  | none =>
      cases hmake : make item with
      | none => rfl
      | some made =>
          have habsent := lookup_eq_none_iff.mp hlookup
          have hmade := List.mem_filterMap.mpr ⟨item, hmem, hmake⟩
          have hpresent := List.mem_map_of_mem hmade (f := key')
          rw [hkey item made hmake] at hpresent
          exact absurd hpresent habsent

theorem lookup_append (k : κ) (first second : List α) :
    lookup key k (first ++ second) = (lookup key k first).or (lookup key k second) :=
  List.find?_append

/-- Elements related in place are found under the same keys. -/
theorem exists_lookup {R : α → α → Prop} (hkey : ∀ a b, R a b → key b = key a)
    (hrelated : List.Forall₂ R items items') (hlookup : lookup key k items = some a) :
    ∃ b, lookup key k items' = some b ∧ R a b := by
  induction hrelated with
  | nil => simp [lookup] at hlookup
  | @cons item item' _ _ hhead _ ih =>
      simp only [lookup, List.find?_cons, hkey item item' hhead] at hlookup ih ⊢
      by_cases hsame : key item = k
      · simp only [hsame, decide_true] at hlookup ⊢
        obtain rfl := Option.some.inj hlookup
        exact ⟨item', rfl, hhead⟩
      · simp only [hsame, decide_false] at hlookup ⊢
        exact ih hlookup

theorem mem_erase : item ∈ erase key k items ↔ item ∈ items ∧ key item ≠ k := by
  simp [erase]

theorem lookup_erase (other : κ) (items : List α) :
    lookup key other (erase key k items) =
      if other = k then none else lookup key other items := by
  unfold lookup erase
  rw [List.find?_filter]
  split
  · next hsame =>
      subst hsame
      rw [List.find?_eq_none]
      simp
  · next hother =>
      congr 1
      funext item
      by_cases hkey : key item = other
      · simp [hkey, hother]
      · simp [hkey]

theorem unique_erase (hunique : UniqueKeys key items) :
    UniqueKeys key (erase key k items) := by
  have hsublist : List.Sublist (keys key (erase key k items)) (keys key items) :=
    List.filter_sublist.map key
  exact hsublist.nodup hunique

end Lookup

end Keyed
