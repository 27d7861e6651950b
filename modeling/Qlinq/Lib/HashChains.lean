import Mathlib.Data.List.Perm.Subperm
import Mathlib.Logic.Function.Basic

/-! Hash buckets that chain the slots of a table.  A reference is a slot number plus one,
so that zero ends a chain. -/

structure HashChains where
  head : Nat → Nat
  next : Nat → Nat

namespace HashChains

def empty : HashChains where
  head _ := 0
  next _ := 0

/-- What refers to the rest of a chain: its bucket, or the slot before. -/
inductive Link where
  | head (bucket : Nat)
  | next (slot : Nat)
  deriving DecidableEq, Repr

def ref (chains : HashChains) : Link → Nat
  | .head bucket => chains.head bucket
  | .next slot => chains.next slot

def redirect (chains : HashChains) (value : Nat) : Link → HashChains
  | .head bucket => { chains with head := Function.update chains.head bucket value }
  | .next slot => { chains with next := Function.update chains.next slot value }

def setNext (chains : HashChains) (slot value : Nat) : HashChains :=
  chains.redirect value (.next slot)

/-- Walk to the link that refers to the slot, or to the end of the chain. -/
def seek (chains : HashChains) (slot : Nat) : Nat → Link → Link
  | 0, link => link
  | fuel + 1, link =>
      if chains.ref link = slot + 1 ∨ chains.ref link = 0 then
        link
      else
        chains.seek slot fuel (.next (chains.ref link - 1))

/-- The first slot from a reference on that is wanted. -/
def search (chains : HashChains) (wanted : Nat → Bool) : Nat → Nat → Option Nat
  | 0, _ => none
  | fuel + 1, start =>
      if start = 0 then
        none
      else if wanted (start - 1) then
        some (start - 1)
      else
        chains.search wanted fuel (chains.next (start - 1))

def push (chains : HashChains) (bucket slot : Nat) : HashChains where
  head := Function.update chains.head bucket (slot + 1)
  next := Function.update chains.next slot (chains.head bucket)

/-- Take the slot out of the chain, if it is there. -/
def unlink (chains : HashChains) (fuel bucket slot : Nat) : HashChains × Bool :=
  let link := chains.seek slot fuel (.head bucket)
  if chains.ref link = slot + 1 then
    (chains.redirect (chains.next slot) link, true)
  else
    (chains, false)

/-- The slots are chained from the reference on, in this order, and the chain ends. -/
def Chain (next : Nat → Nat) : Nat → List Nat → Prop
  | start, [] => start = 0
  | start, slot :: rest => start = slot + 1 ∧ Chain next (next slot) rest

variable {start slot last fuel : Nat} {slots others before init after : List Nat}

theorem Chain.congr {next next' : Nat → Nat} (hchain : Chain next start slots)
    (hsame : ∀ slot ∈ slots, next' slot = next slot) : Chain next' start slots := by
  induction slots generalizing start with
  | nil => exact hchain
  | cons slot rest ih =>
      obtain ⟨hslot, hrest⟩ := List.forall_mem_cons.mp hsame
      refine ⟨hchain.1, ?_⟩
      rw [hslot]
      exact ih hchain.2 hrest

theorem Chain.unique {next : Nat → Nat} (hchain : Chain next start slots)
    (hother : Chain next start others) :
    slots = others := by
  induction slots generalizing start others with
  | nil =>
      cases others with
      | nil => rfl
      | cons other others => exact absurd (hchain.symm.trans hother.1) (by omega)
  | cons slot rest ih =>
      cases others with
      | nil => exact absurd (hchain.1.symm.trans hother) (by omega)
      | cons other others =>
          obtain rfl : slot = other := by
            have := hchain.1.symm.trans hother.1
            omega
          rw [ih hchain.2 hother.2]

/-- The search ends, and finds what a search of the chained slots finds. -/
theorem search_eq {chains : HashChains} (hchain : Chain chains.next start slots)
    (wanted : Nat → Bool) (hfuel : slots.length < fuel) :
    chains.search wanted fuel start = slots.find? wanted := by
  induction slots generalizing start fuel with
  | nil =>
      obtain ⟨fuel, rfl⟩ := Nat.exists_eq_add_of_lt hfuel
      have hend : start = 0 := hchain
      rw [search, if_pos hend, List.find?_nil]
  | cons slot rest ih =>
      cases fuel with
      | zero => cases hfuel
      | succ fuel =>
          obtain ⟨rfl, hrest⟩ := hchain
          rw [search, if_neg (Nat.succ_ne_zero slot), Nat.add_sub_cancel]
          cases hwanted : wanted slot with
          | true => rw [if_pos rfl, List.find?_cons_of_pos hwanted]
          | false =>
              rw [if_neg Bool.false_ne_true, List.find?_cons_of_neg (by simp [hwanted])]
              exact ih hrest (Nat.lt_of_succ_lt_succ hfuel)

/-- A walk for a chained slot ends at the link that refers to it. -/
theorem seek_chained {chains : HashChains}
    (hchain : Chain chains.next (chains.ref link) (before ++ slot :: after))
    (habsent : slot ∉ before) (hfuel : before.length < fuel) :
    chains.ref (chains.seek slot fuel link) = slot + 1 ∧
      ((before = [] ∧ chains.seek slot fuel link = link) ∨
        ∃ init last, before = init ++ [last] ∧ chains.seek slot fuel link = .next last) := by
  induction before generalizing link fuel with
  | nil =>
      obtain ⟨fuel, rfl⟩ := Nat.exists_eq_add_of_lt hfuel
      have hseek : chains.seek slot (0 + fuel + 1) link = link := by
        rw [seek, if_pos (.inl hchain.1)]
      refine ⟨?_, .inl ⟨rfl, hseek⟩⟩
      rw [List.length_nil, hseek]
      exact hchain.1
  | cons first before ih =>
      cases fuel with
      | zero => cases hfuel
      | succ fuel =>
          rw [List.mem_cons, not_or] at habsent
          obtain ⟨hfirst, hrest⟩ := hchain
          have hstep : chains.seek slot (fuel + 1) link = chains.seek slot fuel (.next first) := by
            rw [seek, if_neg (by omega), hfirst, Nat.add_sub_cancel]
          rw [hstep]
          have hbehind : Chain chains.next (chains.ref (.next first))
            (before ++ slot :: after) := hrest
          obtain ⟨href, hwhere⟩ := ih hbehind habsent.2 (Nat.lt_of_succ_lt_succ hfuel)
          refine ⟨href, .inr ?_⟩
          rcases hwhere with ⟨rfl, hfound⟩ | ⟨init, last, rfl, hfound⟩
          · exact ⟨[], first, rfl, hfound⟩
          · exact ⟨first :: init, last, rfl, hfound⟩

/-- Where a slot's link skips the one behind it, the chain goes on without that one. -/
theorem Chain.skip {next : Nat → Nat}
    (hchain : Chain next start (init ++ last :: slot :: after))
    (hnodup : (init ++ last :: slot :: after).Nodup) :
    Chain (Function.update next last (next slot)) start (init ++ last :: after) := by
  induction init generalizing start with
  | nil =>
      obtain ⟨hlast, -, hafter⟩ := hchain
      refine ⟨hlast, ?_⟩
      rw [Function.update_self]
      refine hafter.congr fun other hother => Function.update_of_ne ?_ _ _
      rintro rfl
      exact (List.nodup_cons.mp hnodup).1 (List.mem_cons_of_mem _ hother)
  | cons first init ih =>
      obtain ⟨hfirst, hrest⟩ := hchain
      obtain ⟨habsent, hnodup⟩ := List.nodup_cons.mp hnodup
      refine ⟨hfirst, ?_⟩
      have hapart : first ≠ last := by
        rintro rfl
        exact habsent (by simp)
      rw [Function.update_of_ne hapart]
      exact ih hrest hnodup

/-- Every slot below the capacity is in the chain of its bucket, and nowhere else. -/
structure Holds (chains : HashChains) (capacity : Nat) (bucketOf : Nat → Option Nat) :
    Prop where
  within : ∀ slot bucket, bucketOf slot = some bucket → slot < capacity
  chained : ∀ bucket, ∃ slots, Chain chains.next (chains.head bucket) slots ∧ slots.Nodup ∧
    ∀ slot, slot ∈ slots ↔ bucketOf slot = some bucket

namespace Holds

variable {chains : HashChains} {capacity bucket itsBucket : Nat} {bucketOf : Nat → Option Nat}

theorem empty (capacity : Nat) : HashChains.empty.Holds capacity fun _ => none where
  within _ _ h := nomatch h
  chained _ := ⟨[], rfl, List.nodup_nil, by simp⟩

theorem length_le (hholds : chains.Holds capacity bucketOf) (hnodup : slots.Nodup)
    (hmem : ∀ slot, slot ∈ slots ↔ bucketOf slot = some bucket) : slots.length ≤ capacity := by
  have hsub : slots ⊆ List.range capacity := fun slot hslot =>
    List.mem_range.mpr (hholds.within slot bucket ((hmem slot).mp hslot))
  simpa using (hnodup.subperm hsub).length_le

/-- A search of a bucket ends, with a slot of the bucket that is wanted, or with none. -/
theorem search_eq_some (hholds : chains.Holds capacity bucketOf) (wanted : Nat → Bool)
    (hfuel : capacity < fuel)
    (hfound : chains.search wanted fuel (chains.head bucket) = some slot) :
    bucketOf slot = some bucket ∧ wanted slot = true := by
  obtain ⟨slots, hchain, hnodup, hmem⟩ := hholds.chained bucket
  rw [search_eq hchain wanted (Nat.lt_of_le_of_lt (hholds.length_le hnodup hmem) hfuel)] at hfound
  exact ⟨(hmem slot).mp (List.mem_of_find?_eq_some hfound), List.find?_some hfound⟩

theorem search_eq_none (hholds : chains.Holds capacity bucketOf) (wanted : Nat → Bool)
    (hfuel : capacity < fuel)
    (hfound : chains.search wanted fuel (chains.head bucket) = none) :
    ∀ slot, bucketOf slot = some bucket → wanted slot = false := by
  obtain ⟨slots, hchain, hnodup, hmem⟩ := hholds.chained bucket
  rw [search_eq hchain wanted (Nat.lt_of_le_of_lt (hholds.length_le hnodup hmem) hfuel)] at hfound
  intro slot hslot
  simpa using List.find?_eq_none.mp hfound slot ((hmem slot).mpr hslot)

theorem push (hholds : chains.Holds capacity bucketOf) (hslot : slot < capacity)
    (hfree : bucketOf slot = none) (bucket : Nat) :
    (chains.push bucket slot).Holds capacity (Function.update bucketOf slot (some bucket)) where
  within other itsBucket hother := by
    by_cases hsame : other = slot
    · exact hsame ▸ hslot
    · rw [Function.update_of_ne hsame] at hother
      exact hholds.within other itsBucket hother
  chained itsBucket := by
    obtain ⟨slots, hchain, hnodup, hmem⟩ := hholds.chained itsBucket
    have habsent : slot ∉ slots := fun h => by
      rw [hmem, hfree] at h
      cases h
    have hkept : Chain (chains.push bucket slot).next (chains.head itsBucket) slots :=
      hchain.congr fun other hother => Function.update_of_ne
        (fun h : other = slot => habsent (h ▸ hother)) _ _
    by_cases hbucket : itsBucket = bucket
    · subst hbucket
      refine ⟨slot :: slots, ⟨Function.update_self .., ?_⟩, List.nodup_cons.mpr ⟨habsent, hnodup⟩,
        fun other => ?_⟩
      · rw [show (chains.push itsBucket slot).next slot = chains.head itsBucket from
          Function.update_self ..]
        exact hkept
      · by_cases hsame : other = slot
        · subst hsame
          simp
        · rw [Function.update_of_ne hsame, List.mem_cons, ← hmem]
          simp [hsame]
    · refine ⟨slots, ?_, hnodup, fun other => ?_⟩
      · rw [show (chains.push bucket slot).head itsBucket = chains.head itsBucket from
          Function.update_of_ne hbucket _ _]
        exact hkept
      · rw [hmem]
        by_cases hsame : other = slot
        · subst hsame
          rw [hfree, Function.update_self]
          simp [Ne.symm hbucket]
        · rw [Function.update_of_ne hsame]

/-- The link of a slot in no chain is free. -/
theorem setNext (hholds : chains.Holds capacity bucketOf) (hfree : bucketOf slot = none)
    (value : Nat) : (chains.setNext slot value).Holds capacity bucketOf where
  within := hholds.within
  chained bucket := by
    obtain ⟨slots, hchain, hnodup, hmem⟩ := hholds.chained bucket
    refine ⟨slots, hchain.congr fun other hother => Function.update_of_ne ?_ _ _, hnodup, hmem⟩
    rintro rfl
    rw [hmem, hfree] at hother
    cases hother

/-- The slots of the other buckets are not the one taken out. -/
theorem mem_elsewhere (hslot : bucketOf slot = some bucket) (hbucket : itsBucket ≠ bucket)
    (hmem : ∀ other, other ∈ slots ↔ bucketOf other = some itsBucket) (other : Nat) :
    other ∈ slots ↔ Function.update bucketOf slot none other = some itsBucket := by
  rw [hmem]
  by_cases hsame : other = slot
  · subst hsame
    rw [hslot, Function.update_self]
    simp [Ne.symm hbucket]
  · rw [Function.update_of_ne hsame]

theorem mem_without (hnodup : (before ++ slot :: after).Nodup)
    (hmem : ∀ other, other ∈ before ++ slot :: after ↔ bucketOf other = some bucket)
    (other : Nat) :
    other ∈ before ++ after ↔ Function.update bucketOf slot none other = some bucket := by
  have hout : slot ∉ before ++ after :=
    (List.nodup_cons.mp (List.perm_middle.nodup_iff.mp hnodup)).1
  by_cases hsame : other = slot
  · subst hsame
    rw [Function.update_self]
    exact iff_of_false hout nofun
  · rw [Function.update_of_ne hsame, ← hmem]
    simp [hsame]

/-- A slot in its chain is taken out of it. -/
theorem unlink (hholds : chains.Holds capacity bucketOf)
    (hslot : bucketOf slot = some bucket) (hfuel : capacity ≤ fuel) :
    (chains.unlink fuel bucket slot).2 = true ∧
      (chains.unlink fuel bucket slot).1.Holds capacity (Function.update bucketOf slot none) := by
  obtain ⟨slots, hchain, hnodup, hmem⟩ := hholds.chained bucket
  have hlength := hholds.length_le hnodup hmem
  obtain ⟨before, after, rfl, habsent⟩ :=
    List.eq_append_cons_of_mem ((hmem slot).mpr hslot)
  rw [List.length_append, List.length_cons] at hlength
  have hhead : Chain chains.next (chains.ref (.head bucket)) (before ++ slot :: after) := hchain
  obtain ⟨href, hwhere⟩ := seek_chained hhead habsent (by omega : before.length < fuel)
  have hwithin : ∀ other itsBucket, Function.update bucketOf slot none other = some itsBucket →
      other < capacity := by
    intro other itsBucket hother
    by_cases hsame : other = slot
    · rw [hsame, Function.update_self] at hother
      cases hother
    · rw [Function.update_of_ne hsame] at hother
      exact hholds.within other itsBucket hother
  have hkept := mem_without hnodup hmem
  rw [HashChains.unlink]
  simp only [href, if_true, true_and]
  refine ⟨hwithin, fun itsBucket => ?_⟩
  rcases hwhere with ⟨rfl, hfound⟩ | ⟨init, last, rfl, hfound⟩
  · -- The bucket itself refers to the slot.
    rw [hfound]
    by_cases hbucket : itsBucket = bucket
    · subst hbucket
      refine ⟨after, ?_, (List.nodup_cons.mp hnodup).2, hkept⟩
      rw [show (chains.redirect (chains.next slot) (.head itsBucket)).head itsBucket =
        chains.next slot from Function.update_self ..]
      exact hchain.2
    · obtain ⟨others, hothers, hapart, hmembers⟩ := hholds.chained itsBucket
      refine ⟨others, ?_, hapart, mem_elsewhere hslot hbucket hmembers⟩
      rw [show (chains.redirect (chains.next slot) (.head bucket)).head itsBucket =
        chains.head itsBucket from Function.update_of_ne hbucket _ _]
      exact hothers
  · -- The slot before it does.
    rw [hfound]
    by_cases hbucket : itsBucket = bucket
    · subst hbucket
      rw [List.append_assoc, List.singleton_append] at hchain hnodup
      refine ⟨init ++ last :: after, hchain.skip hnodup, ?_, fun other => ?_⟩
      · exact hnodup.sublist (List.Sublist.append_left
          (List.Sublist.cons_cons last (List.sublist_cons_self slot after)) init)
      · rw [← hkept, List.append_assoc, List.singleton_append]
    · obtain ⟨others, hothers, hapart, hmembers⟩ := hholds.chained itsBucket
      refine ⟨others, hothers.congr fun other hother => Function.update_of_ne ?_ _ _, hapart,
        mem_elsewhere hslot hbucket hmembers⟩
      rintro rfl
      have hlast := (hmem other).mp (by simp)
      rw [(hmembers other).mp hother, Option.some.injEq] at hlast
      exact hbucket hlast

end Holds

end HashChains
