import Qlinq.AssemblerPool

namespace Qlinq

theorem AssemblerSlot.isObject_iff {slot : AssemblerSlot} {a : TrackAlias}
    {groupId objectId : Nat} :
    slot.isObject a groupId objectId = true ↔
      slot.trackAlias = a ∧ slot.groupId = groupId ∧ slot.objectId = objectId := by
  simp [isObject, and_assoc]

namespace AssemblerPool

open AssemblerSlot (isObject_iff)

/-! What the index of a pool says about its slots. -/

theorem slot_setSlot {pool : AssemblerPool} {index : Nat} (hindex : index < pool.slots.length)
    (slot : AssemblerSlot) (other : Nat) :
    (pool.setSlot index slot).slot other = if other = index then slot else pool.slot other := by
  rw [AssemblerPool.slot, AssemblerPool.slot, setSlot, List.getD_eq_getElem?_getD,
    List.getD_eq_getElem?_getD, List.getElem?_set]
  by_cases hother : other = index
  · subst hother
    rw [if_pos rfl, if_pos hindex, if_pos rfl]
    rfl
  · rw [if_neg (Ne.symm hother), if_neg hother]

theorem slot_setSlot_self {pool : AssemblerPool} {index : Nat}
    (hindex : index < pool.slots.length) (slot : AssemblerSlot) :
    (pool.setSlot index slot).slot index = slot := by
  rw [slot_setSlot hindex, if_pos rfl]

theorem slot_setSlot_of_ne {pool : AssemblerPool} {index : Nat}
    (hindex : index < pool.slots.length) (slot : AssemblerSlot) (hother : other ≠ index) :
    (pool.setSlot index slot).slot other = pool.slot other := by
  rw [slot_setSlot hindex, if_neg hother]

theorem getElem?_slot {pool : AssemblerPool} {index : Nat} (hindex : index < pool.slots.length) :
    pool.slots[index]? = some (pool.slot index) := by
  rw [AssemblerPool.slot, List.getD_eq_getElem?_getD, List.getElem?_eq_getElem hindex]
  rfl

/-- The bucket a slot is chained in. -/
def bucketOf (pool : AssemblerPool) (index : Nat) : Option Nat :=
  if (pool.slot index).owned then some (pool.bucketAt index) else none

def ownedCount (pool : AssemblerPool) : Nat :=
  Totals.total (fun slot => slot.owned.toNat) pool.slots

theorem ownedCount_setSlot {pool : AssemblerPool} {index : Nat}
    (hindex : index < pool.slots.length) (new : AssemblerSlot) :
    (pool.setSlot index new).ownedCount + (pool.slot index).owned.toNat =
      pool.ownedCount + new.owned.toNat :=
  Totals.total_set (fun slot => slot.owned.toNat) (getElem?_slot hindex) new

/-- Chains, count and bitmap describe the slots that are owned, and no two of these are for
one object. -/
structure Indexed (pool : AssemblerPool) : Prop where
  length : pool.slots.length = hardMaxAssemblers
  chains : pool.chains.Holds hardMaxAssemblers pool.bucketOf
  count : pool.count = pool.ownedCount
  active : ∀ index, pool.active.test index = (pool.slot index).owned
  unique : ∀ index other, (pool.slot index).owned = true → (pool.slot other).owned = true →
    (pool.slot other).isObject (pool.slot index).trackAlias (pool.slot index).groupId
      (pool.slot index).objectId = true → other = index

theorem slot_init (index : Nat) : ({} : AssemblerPool).slot index = {} := by
  change (List.replicate hardMaxAssemblers ({} : AssemblerSlot)).getD index {} = {}
  rw [List.getD_eq_getElem?_getD, List.getElem?_replicate]
  split <;> rfl

theorem indexed_init : ({} : AssemblerPool).Indexed where
  length := List.length_replicate
  chains := by
    have hnone : ({} : AssemblerPool).bucketOf = fun _ => none := by
      funext index
      rw [bucketOf, slot_init]
      rfl
    rw [hnone]
    exact .empty _
  count := by
    change 0 = Totals.total _ (List.replicate hardMaxAssemblers ({} : AssemblerSlot))
    simp [Totals.total]
  active index := by
    rw [slot_init]
    exact WordMask.test_zero index
  unique index other howned := by
    rw [slot_init] at howned
    cases howned

namespace Indexed

variable {pool : AssemblerPool}

theorem lt_length (hindexed : pool.Indexed) (hindex : index < hardMaxAssemblers) :
    index < pool.slots.length :=
  hindexed.length ▸ hindex

theorem lt_of_owned (hindexed : pool.Indexed) (howned : (pool.slot index).owned = true) :
    index < hardMaxAssemblers :=
  hindexed.chains.within index (pool.bucketAt index) (if_pos howned)

/-- A slot may change in everything the index does not depend on. -/
theorem setSlot (hindexed : pool.Indexed) (hindex : index < hardMaxAssemblers)
    (howned : new.owned = (pool.slot index).owned)
    (hsame : new.owned = true → new.isObject (pool.slot index).trackAlias
      (pool.slot index).groupId (pool.slot index).objectId = true) :
    (pool.setSlot index new).Indexed := by
  have hlt := hindexed.lt_length hindex
  have hslots : ∀ other, ((pool.setSlot index new).slot other).owned =
      (pool.slot other).owned := by
    intro other
    rw [slot_setSlot hlt]
    split
    · next hother =>
        rw [hother]
        exact howned
    · rfl
  have hidentity : ∀ other, (pool.slot other).owned = true →
      ((pool.setSlot index new).slot other).trackAlias = (pool.slot other).trackAlias ∧
        ((pool.setSlot index new).slot other).groupId = (pool.slot other).groupId ∧
        ((pool.setSlot index new).slot other).objectId = (pool.slot other).objectId := by
    intro other hother
    rw [slot_setSlot hlt]
    split
    · next hsameSlot =>
        subst hsameSlot
        exact isObject_iff.mp (hsame (howned.trans hother))
    · exact ⟨rfl, rfl, rfl⟩
  have hbuckets : (pool.setSlot index new).bucketOf = pool.bucketOf := by
    funext other
    rw [bucketOf, bucketOf, hslots]
    split
    · next hother =>
        obtain ⟨halias, hgroup, hobject⟩ := hidentity other hother
        rw [bucketAt, bucketAt, halias, hgroup, hobject]
    · rfl
  refine ⟨?_, ?_, ?_, ?_, ?_⟩
  · rw [AssemblerPool.setSlot, List.length_set]
    exact hindexed.length
  · rw [hbuckets]
    exact hindexed.chains
  · have htotal := ownedCount_setSlot hlt new
    rw [howned] at htotal
    exact hindexed.count.trans (Nat.add_right_cancel htotal).symm
  · intro other
    rw [hslots]
    exact hindexed.active other
  · intro first second hfirst hsecond hobject
    rw [hslots] at hfirst hsecond
    obtain ⟨halias, hgroup, hid⟩ := hidentity first hfirst
    obtain ⟨halias', hgroup', hid'⟩ := hidentity second hsecond
    refine hindexed.unique first second hfirst hsecond ?_
    rw [isObject_iff] at hobject ⊢
    rw [halias, hgroup, hid, halias', hgroup', hid'] at hobject
    exact hobject

theorem bucketOf_disowned (hindex : index < pool.slots.length) :
    (pool.setSlot index { pool.slot index with owned := false }).bucketOf =
      Function.update pool.bucketOf index none := by
  funext other
  by_cases hother : other = index
  · subst hother
    rw [Function.update_self, bucketOf, slot_setSlot_self hindex]
    rfl
  · rw [Function.update_of_ne hother, bucketOf, bucketOf, bucketAt, bucketAt,
      slot_setSlot_of_ne hindex _ hother]

theorem bucketOf_owned (hindex : index < pool.slots.length) :
    (pool.setSlot index { pool.slot index with owned := true }).bucketOf =
      Function.update pool.bucketOf index (some (pool.bucketAt index)) := by
  funext other
  by_cases hother : other = index
  · subst hother
    rw [Function.update_self, bucketOf, bucketAt, slot_setSlot_self hindex]
    rfl
  · rw [Function.update_of_ne hother, bucketOf, bucketOf, bucketAt, bucketAt,
      slot_setSlot_of_ne hindex _ hother]

/-- An owned slot is taken out of its chain. -/
theorem unindexAssembler_eq (hindexed : pool.Indexed)
    (howned : (pool.slot index).owned = true) :
    ∃ chains, chains.Holds hardMaxAssemblers (Function.update pool.bucketOf index none) ∧
      pool.unindexAssembler index =
        { pool.setSlot index { pool.slot index with owned := false } with
          chains := chains
          count := pool.count - 1
          active := pool.active.clear index } := by
  obtain ⟨hfound, hholds⟩ := hindexed.chains.unlink (if_pos howned)
    (Nat.le_succ hardMaxAssemblers)
  refine ⟨_, hholds.setNext (Function.update_self ..) 0, ?_⟩
  rw [unindexAssembler, howned]
  generalize pool.chains.unlink (hardMaxAssemblers + 1) (pool.bucketAt index) index = unlinked
    at hfound hholds ⊢
  obtain ⟨chains, found⟩ := unlinked
  obtain rfl : found = true := hfound
  rfl

theorem slot_unindexAssembler (hindexed : pool.Indexed) (hindex : index < hardMaxAssemblers)
    (other : Nat) :
    (pool.unindexAssembler index).slot other =
      if other = index then { pool.slot index with owned := false } else pool.slot other := by
  cases howned : (pool.slot index).owned with
  | false =>
      have hsame : pool.unindexAssembler index = pool := by
        rw [unindexAssembler, howned]
        rfl
      rw [hsame]
      split
      · next hother =>
          rw [hother, ← howned]
      · rfl
  | true =>
      obtain ⟨chains, -, heq⟩ := hindexed.unindexAssembler_eq howned
      rw [heq]
      exact slot_setSlot (hindexed.lt_length hindex) _ other

theorem unindexAssembler (hindexed : pool.Indexed) (hindex : index < hardMaxAssemblers) :
    (pool.unindexAssembler index).Indexed := by
  have hlt := hindexed.lt_length hindex
  cases howned : (pool.slot index).owned with
  | false =>
      rw [AssemblerPool.unindexAssembler, howned]
      exact hindexed
  | true =>
      have hslot := hindexed.slot_unindexAssembler hindex
      obtain ⟨chains, hholds, heq⟩ := hindexed.unindexAssembler_eq howned
      rw [heq] at hslot ⊢
      have howns : ∀ other, _ → other ≠ index ∧ (pool.slot other).owned = true :=
        fun other (hother : (AssemblerPool.slot _ other).owned = true) => by
          rw [hslot] at hother
          split at hother
          · cases hother
          · next hne => exact ⟨hne, hother⟩
      refine ⟨?_, ?_, ?_, ?_, ?_⟩
      · exact List.length_set.trans hindexed.length
      · exact bucketOf_disowned hlt ▸ hholds
      · have htotal := ownedCount_setSlot hlt { pool.slot index with owned := false }
        rw [howned, ← hindexed.count] at htotal
        exact (Nat.eq_sub_of_add_eq htotal).symm
      · intro other
        change (pool.active.clear index).test other = _
        rw [WordMask.test_clear, hslot, hindexed.active]
        split
        · next hother => simp [hother]
        · next hother => simp [hother]
      · intro first second hfirst hsecond hobject
        obtain ⟨hapart, hold⟩ := howns first hfirst
        obtain ⟨hapart', hold'⟩ := howns second hsecond
        rw [hslot, hslot, if_neg hapart, if_neg hapart'] at hobject
        exact hindexed.unique first second hold hold' hobject

theorem indexAssembler (hindexed : pool.Indexed) (hindex : index < hardMaxAssemblers)
    (hfree : (pool.slot index).owned = false)
    (hfresh : ∀ other, (pool.slot other).owned = true →
      (pool.slot other).isObject (pool.slot index).trackAlias (pool.slot index).groupId
        (pool.slot index).objectId = false) :
    (pool.indexAssembler index).Indexed := by
  have hlt := hindexed.lt_length hindex
  have hslot : ∀ other, (pool.indexAssembler index).slot other =
      if other = index then { pool.slot index with owned := true } else pool.slot other :=
    slot_setSlot hlt _
  refine ⟨?_, ?_, ?_, ?_, ?_⟩
  · exact List.length_set.trans hindexed.length
  · have hpushed := hindexed.chains.push hindex (if_neg (Bool.eq_false_iff.mp hfree))
      (pool.bucketAt index)
    exact bucketOf_owned hlt ▸ hpushed
  · have htotal := ownedCount_setSlot hlt { pool.slot index with owned := true }
    rw [hfree, ← hindexed.count] at htotal
    exact htotal.symm
  · intro other
    change (pool.active.set index).test other = _
    rw [WordMask.test_set _ (by exact hindex), hslot, hindexed.active]
    split
    · next hother => simp [hother]
    · next hother => simp [hother]
  · intro first second hfirst hsecond hobject
    rw [hslot] at hfirst hsecond
    rw [hslot, hslot] at hobject
    by_cases hone : first = index
    · by_cases htwo : second = index
      · rw [hone, htwo]
      · rw [if_neg htwo] at hsecond hobject
        rw [if_pos hone] at hobject
        exact Bool.false_ne_true ((hfresh second hsecond).symm.trans hobject) |>.elim
    · rw [if_neg hone] at hfirst hobject
      by_cases htwo : second = index
      · rw [if_pos htwo] at hobject
        have hother := hfresh first hfirst
        obtain ⟨halias, hgroup, hid⟩ := isObject_iff.mp hobject
        rw [isObject_iff.mpr ⟨halias.symm, hgroup.symm, hid.symm⟩] at hother
        cases hother
      · rw [if_neg htwo] at hsecond hobject
        exact hindexed.unique first second hfirst hsecond hobject

end Indexed

/-! ### Lookups -/

/-- A slot is owned while it holds an object. -/
def Settled (pool : AssemblerPool) : Prop :=
  ∀ index, (pool.slot index).owned = (pool.slot index).live

/-- The search of all slots that a lookup stands for. -/
def searchSlots (pool : AssemblerPool) (a : TrackAlias) (groupId objectId : Nat) : Option Nat :=
  (List.range hardMaxAssemblers).find? fun index =>
    (pool.slot index).live && (pool.slot index).isObject a groupId objectId

def liveSlots (pool : AssemblerPool) : List Nat :=
  (List.range hardMaxAssemblers).filter fun index => (pool.slot index).live

/-- The slots that the loops over the assemblers of a connection come by. -/
def enumerate (pool : AssemblerPool) : Nat → Nat → List Nat
  | 0, _ => []
  | fuel + 1, first =>
      if pool.nextAssembler first < hardMaxAssemblers then
        pool.nextAssembler first :: pool.enumerate fuel (pool.nextAssembler first + 1)
      else
        []

namespace Indexed

variable {pool : AssemblerPool}

theorem findAssembler_eq_some_iff (hindexed : pool.Indexed) {a : TrackAlias}
    {groupId objectId index : Nat} :
    pool.findAssembler a groupId objectId = some index ↔
      (pool.slot index).owned = true ∧ (pool.slot index).isObject a groupId objectId = true := by
  have hbucket : ∀ other, (pool.slot other).owned = true →
      (pool.slot other).isObject a groupId objectId = true →
      pool.bucketOf other = some (receiveBucket a groupId objectId) := by
    intro other howned hobject
    obtain ⟨rfl, rfl, rfl⟩ := isObject_iff.mp hobject
    exact if_pos howned
  constructor
  · intro hfound
    obtain ⟨hchained, hobject⟩ :=
      hindexed.chains.search_eq_some _ (Nat.lt_succ_self hardMaxAssemblers) hfound
    refine ⟨?_, hobject⟩
    rw [bucketOf] at hchained
    split at hchained
    · next howned => exact howned
    · cases hchained
  · rintro ⟨howned, hobject⟩
    cases hfound : pool.findAssembler a groupId objectId with
    | none =>
        have hnone := hindexed.chains.search_eq_none _ (Nat.lt_succ_self hardMaxAssemblers)
          hfound index (hbucket index howned hobject)
        exact absurd (hobject.symm.trans hnone) (by decide)
    | some other =>
        obtain ⟨hchained, hother⟩ :=
          hindexed.chains.search_eq_some _ (Nat.lt_succ_self hardMaxAssemblers) hfound
        have howned' : (pool.slot other).owned = true := by
          rw [bucketOf] at hchained
          split at hchained
          · next h => exact h
          · cases hchained
        obtain ⟨halias, hgroup, hid⟩ := isObject_iff.mp hobject
        rw [← halias, ← hgroup, ← hid] at hother
        rw [hindexed.unique index other howned howned' hother]

theorem findAssembler_eq_none_iff (hindexed : pool.Indexed) {a : TrackAlias}
    {groupId objectId : Nat} :
    pool.findAssembler a groupId objectId = none ↔
      ∀ index, (pool.slot index).owned = true →
        (pool.slot index).isObject a groupId objectId = false := by
  constructor
  · intro hnone index howned
    by_contra hobject
    have hfound := hindexed.findAssembler_eq_some_iff.mpr
      ⟨howned, Bool.not_eq_false _ |>.mp hobject⟩
    rw [hnone] at hfound
    cases hfound
  · intro habsent
    cases hfound : pool.findAssembler a groupId objectId with
    | none => rfl
    | some index =>
        obtain ⟨howned, hobject⟩ := hindexed.findAssembler_eq_some_iff.mp hfound
        exact absurd (hobject.symm.trans (habsent index howned)) (by decide)

/-- A lookup finds what a search of all live slots finds. -/
theorem findAssembler_eq (hindexed : pool.Indexed) (hsettled : pool.Settled) (a : TrackAlias)
    (groupId objectId : Nat) :
    pool.findAssembler a groupId objectId = pool.searchSlots a groupId objectId := by
  cases hfound : pool.searchSlots a groupId objectId with
  | none =>
      rw [hindexed.findAssembler_eq_none_iff]
      intro index howned
      have hmissed := List.find?_eq_none.mp hfound index
        (List.mem_range.mpr (hindexed.lt_of_owned howned))
      rw [← hsettled index, howned, Bool.true_and] at hmissed
      exact Bool.eq_false_iff.mpr hmissed
  | some index =>
      rw [hindexed.findAssembler_eq_some_iff]
      have hmatches := List.find?_some hfound
      rw [Bool.and_eq_true, ← hsettled index] at hmatches
      exact hmatches

theorem owned_of_count_eq_zero (hindexed : pool.Indexed) (hcount : pool.count = 0)
    (index : Nat) : (pool.slot index).owned = false := by
  by_contra howned
  have howned := Bool.not_eq_false _ |>.mp howned
  have hmem := List.mem_of_getElem?
    (getElem?_slot (hindexed.lt_length (hindexed.lt_of_owned howned)))
  have hle : (pool.slot index).owned.toNat ≤ pool.ownedCount :=
    Totals.le_total (fun slot => slot.owned.toNat) hmem
  rw [howned, ← hindexed.count, hcount] at hle
  cases hle

/-- The next assembler is the first owned slot from `first` on. -/
theorem nextAssembler_spec (hindexed : pool.Indexed) (first : Nat) :
    pool.nextAssembler first ≤ hardMaxAssemblers ∧
      (pool.nextAssembler first < hardMaxAssemblers →
        first ≤ pool.nextAssembler first ∧
          (pool.slot (pool.nextAssembler first)).owned = true) ∧
      ∀ index, first ≤ index → index < pool.nextAssembler first →
        (pool.slot index).owned = false := by
  unfold nextAssembler
  split
  · next hnone =>
    refine ⟨Nat.le_refl _, fun h => absurd h (Nat.lt_irrefl _), fun index hfirst hindex => ?_⟩
    rcases hnone with hcount | houtside
    · exact hindexed.owned_of_count_eq_zero hcount index
    · exact absurd (Nat.lt_of_le_of_lt hfirst hindex) (Nat.not_lt.mpr houtside)
  · have hfirst := WordMask.firstSet_nextSet pool.active first
    refine ⟨hfirst.le, fun h => ?_, fun index hle hindex => ?_⟩
    · rw [← hindexed.active]
      exact hfirst.set h
    · rw [← hindexed.active]
      exact hfirst.clear index hle hindex

theorem enumerate_eq (hindexed : pool.Indexed) {fuel first : Nat}
    (hfuel : hardMaxAssemblers < first + fuel) :
    pool.enumerate fuel first =
      (List.range' first (hardMaxAssemblers - first)).filter fun index =>
        (pool.slot index).owned := by
  induction fuel generalizing first with
  | zero =>
      rw [show hardMaxAssemblers - first = 0 by omega]
      rfl
  | succ fuel ih =>
      obtain ⟨hle, hset, hclear⟩ := hindexed.nextAssembler_spec first
      unfold enumerate
      generalize pool.nextAssembler first = found at hle hset hclear ⊢
      have hskipped : ∀ length, (∀ index, first ≤ index → index < first + length →
            (pool.slot index).owned = false) →
          (List.range' first length).filter (fun index => (pool.slot index).owned) = [] := by
        intro length hblank
        apply List.filter_eq_nil_iff.mpr
        intro index hindex
        rw [List.mem_range'_1] at hindex
        rw [hblank index hindex.1 hindex.2]
        exact Bool.false_ne_true
      split
      · next hfound =>
        obtain ⟨hfirst, howned⟩ := hset hfound
        have hsplit : List.range' first (hardMaxAssemblers - first) =
            List.range' first (found - first) ++
              found :: List.range' (found + 1) (hardMaxAssemblers - (found + 1)) := by
          rw [← List.range'_succ, show hardMaxAssemblers - (found + 1) + 1 =
            hardMaxAssemblers - found by omega]
          have hjoin := @List.range'_append_1 first (found - first) (hardMaxAssemblers - found)
          rw [show first + (found - first) = found by omega,
            show found - first + (hardMaxAssemblers - found) = hardMaxAssemblers - first by omega]
            at hjoin
          exact hjoin.symm
        rw [hsplit, List.filter_append, hskipped _ fun index hge hlt => hclear index hge (by omega),
          List.nil_append, List.filter_cons, if_pos howned, ih (by omega)]
      · next hnone =>
        rw [hskipped _ fun index hge hlt => hclear index hge (by omega)]

/-- The loops over the assemblers come by every live slot, in ascending order, and end. -/
theorem enumerate_liveSlots (hindexed : pool.Indexed) (hsettled : pool.Settled)
    (hfuel : hardMaxAssemblers < fuel) : pool.enumerate fuel 0 = pool.liveSlots := by
  rw [hindexed.enumerate_eq (by omega), liveSlots, List.range_eq_range', Nat.sub_zero]
  apply List.filter_congr
  intro index _
  exact hsettled index

/-- The count is that of the live slots. -/
theorem count_liveSlots (hindexed : pool.Indexed) (hsettled : pool.Settled) :
    pool.count = pool.liveSlots.length := by
  have hslots : pool.slots = (List.range hardMaxAssemblers).map pool.slot := by
    apply List.ext_getElem?
    intro index
    rw [List.getElem?_map, ← hindexed.length]
    rcases Nat.lt_or_ge index pool.slots.length with hindex | hindex
    · rw [getElem?_slot hindex, List.getElem?_range hindex]
      rfl
    · rw [List.getElem?_eq_none hindex, List.getElem?_eq_none (by simpa using hindex)]
      rfl
  have hlive : (fun index => (pool.slot index).owned) = fun index => (pool.slot index).live := by
    funext index
    exact hsettled index
  rw [hindexed.count, ownedCount, Totals.total_toNat, hslots, List.countP_map, liveSlots,
    ← List.countP_eq_length_filter, ← hlive]
  rfl

end Indexed

end AssemblerPool

end Qlinq
