import Qlinq.Lib.Machine
import Qlinq.Publish
import Qlinq.Subscriptions

namespace Qlinq

open Keyed

/-! The array a subscription table is kept in: slots that are active or not, and beside
them a state for each alias.  `SubscriptionTable` is what it stands for. -/

def defaultMaxSubscriptions : Nat := 32

structure SubscriptionSlot where
  trackId : TrackId
  trackAlias : TrackAlias
  active : Bool
  stream : Option Nat := none
  ingressStream : Option Nat := none
  deriving DecidableEq, Repr

def SubscriptionSlot.zeroed : SubscriptionSlot where
  trackId := { type := .video, flags := 0, name := [] }
  trackAlias := 0
  active := false

def SubscriptionSlot.trackMatches (slot : SubscriptionSlot) (track : TrackId) : Bool :=
  slot.active && decide (slot.trackId.key = track.key)

/-- `capacity` is the number of slots; a table that was never initialized has none. -/
structure SubscriptionSlots where
  slots : List SubscriptionSlot := []
  nextGeneration : Nat := 0
  states : TrackAlias → Option SubscriptionState := fun _ => none

namespace SubscriptionSlots

/-- `transport_subscriptions_init`, where its `calloc` succeeds. -/
def init (capacity : Nat) : Option SubscriptionSlots :=
  if capacity = 0 ∨ hardMaxSubscriptions < capacity then
    none
  else
    some { slots := List.replicate capacity .zeroed }

def ensureInitialized (t : SubscriptionSlots) : SubscriptionSlots :=
  if t.slots = [] then (init defaultMaxSubscriptions).getD t else t

def active (t : SubscriptionSlots) : List SubscriptionSlot := t.slots.filter (·.active)

/-- The first slot that passes the test, with its index. -/
def findSlot (t : SubscriptionSlots) (p : SubscriptionSlot → Bool) :
    Option (Nat × SubscriptionSlot) :=
  (t.slots.findIdx? p).bind fun i => t.slots[i]?.map fun slot => (i, slot)

/-- Move the state of one alias to another and start it over. -/
def moveState (t : SubscriptionSlots) (old new : TrackAlias) : SubscriptionSlots :=
  { t with
    nextGeneration := t.nextGeneration + 1
    states := fun a =>
      if a = new then
        (t.states old).map fun _ => { generation := t.nextGeneration + 1 }
      else if a = old then
        none
      else
        t.states a }

/-- `transport_subscriptions_add`; `allocated` tells whether its `calloc` succeeds. -/
def add (t : SubscriptionSlots) (track : TrackId) (trackAlias : TrackAlias) (allocated : Bool) :
    Bool × SubscriptionSlots :=
  let t := t.ensureInitialized
  if maxTrackName ≤ track.name.length then
    (false, t)
  else if t.slots.any fun slot =>
      slot.active && decide (slot.trackAlias = trackAlias) && !slot.trackMatches track then
    (false, t)
  else
    match t.findSlot (·.trackMatches track) with
    | some (i, entry) =>
        if entry.trackId.flags ≠ track.flags then
          (false, t)
        else
          let moved :=
            if entry.trackAlias ≠ trackAlias then t.moveState entry.trackAlias trackAlias else t
          (true, { moved with
            slots := t.slots.set i
              { entry with
                trackAlias
                trackId := { entry.trackId with flags := track.flags } } })
    | none =>
        match t.findSlot (!·.active) with
        | some (i, _) =>
            if allocated then
              (true,
                { slots := t.slots.set i { trackId := track, trackAlias, active := true }
                  nextGeneration := t.nextGeneration + 1
                  states := fun a =>
                    if a = trackAlias then
                      some { generation := t.nextGeneration + 1 }
                    else
                      t.states a })
            else
              (false, t)
        | none => (false, t)

def remove (t : SubscriptionSlots) (track : TrackId) : SubscriptionSlots :=
  match t.findSlot (·.trackMatches track) with
  | some (i, entry) =>
      { t with
        slots := t.slots.set i { entry with active := false, stream := none, ingressStream := none }
        states := fun a => if a = entry.trackAlias then none else t.states a }
  | none => t

def nextAlias (t : SubscriptionSlots) (firstDynamicAlias : Int) : Option TrackAlias :=
  if firstDynamicAlias < 0 ∨ 255 < firstDynamicAlias then
    none
  else
    (((List.range 256).drop firstDynamicAlias.toNat).map UInt8.ofNat).find? fun a =>
      !t.slots.any fun slot => slot.active && decide (slot.trackAlias = a)

/-- What the rest of the code does to the state of an alias; the generation stays. -/
def modifyState (t : SubscriptionSlots) (a : TrackAlias)
    (update : SubscriptionState → SubscriptionState) : SubscriptionSlots :=
  { t with
    states := fun other =>
      if other = a then
        (t.states other).map fun state => { update state with generation := state.generation }
      else
        t.states other }

/-! ### What a table keeps -/

/-- The slot at the index is active. -/
def Occupied (t : SubscriptionSlots) (i : Nat) (slot : SubscriptionSlot) : Prop :=
  t.slots[i]? = some slot ∧ slot.active = true

/-- Active slots differ in alias and in track, and just their aliases own a state. -/
structure WellFormed (t : SubscriptionSlots) : Prop where
  slots_ne : t.slots ≠ []
  alias_inj : ∀ {i j x y}, t.Occupied i x → t.Occupied j y → x.trackAlias = y.trackAlias → i = j
  track_inj : ∀ {i j x y}, t.Occupied i x → t.Occupied j y →
    x.trackId.key = y.trackId.key → i = j
  states_iff : ∀ a, (t.states a).isSome ↔ ∃ i x, t.Occupied i x ∧ x.trackAlias = a
  generation_le : ∀ a state, t.states a = some state → state.generation ≤ t.nextGeneration

theorem WellFormed.ensureInitialized {t : SubscriptionSlots} (hwell : t.WellFormed) :
    t.ensureInitialized = t :=
  if_neg hwell.slots_ne

theorem Occupied.eq {t : SubscriptionSlots} (hx : t.Occupied i x) (hy : t.Occupied i y) : x = y :=
  Option.some.inj (hx.1.symm.trans hy.1)

theorem mem_active_iff {t : SubscriptionSlots} : slot ∈ t.active ↔ ∃ i, t.Occupied i slot := by
  rw [active, List.mem_filter, List.mem_iff_getElem?, ← exists_and_right]
  rfl

theorem findSlot_eq_some {t : SubscriptionSlots} (hfind : t.findSlot p = some (i, slot)) :
    t.slots[i]? = some slot ∧ p slot = true := by
  unfold findSlot at hfind
  obtain ⟨j, hindex, hmap⟩ := Option.bind_eq_some_iff.mp hfind
  obtain ⟨slot', hslot, heq⟩ := Option.map_eq_some_iff.mp hmap
  cases heq
  obtain ⟨hlt, hp, -⟩ := List.findIdx?_eq_some_iff_getElem.mp hindex
  rw [List.getElem?_eq_getElem hlt] at hslot
  cases hslot
  exact ⟨List.getElem?_eq_getElem hlt, hp⟩

theorem findSlot_eq_none {t : SubscriptionSlots} {i : Nat} (hfind : t.findSlot p = none)
    (hslot : t.slots[i]? = some slot) : p slot = false := by
  unfold findSlot at hfind
  cases hindex : t.slots.findIdx? p with
  | none => exact List.findIdx?_eq_none_iff.mp hindex slot (List.mem_of_getElem? hslot)
  | some j =>
      obtain ⟨hlt, -, -⟩ := List.findIdx?_eq_some_iff_getElem.mp hindex
      rw [hindex, Option.bind_some, List.getElem?_eq_getElem hlt] at hfind
      cases hfind

theorem trackMatches_iff {slot : SubscriptionSlot} :
    slot.trackMatches track = true ↔ slot.active = true ∧ slot.trackId.key = track.key := by
  simp [SubscriptionSlot.trackMatches]

theorem occupied_of_findSlot {t : SubscriptionSlots}
    (hfind : t.findSlot (·.trackMatches track) = some (i, slot)) :
    t.Occupied i slot ∧ slot.trackId.key = track.key := by
  obtain ⟨hslot, hmatch⟩ := findSlot_eq_some hfind
  obtain ⟨hactive, hkey⟩ := trackMatches_iff.mp hmatch
  exact ⟨⟨hslot, hactive⟩, hkey⟩

theorem not_matching_of_findSlot {t : SubscriptionSlots}
    (hfind : t.findSlot (·.trackMatches track) = none) (hslot : t.Occupied i slot) :
    slot.trackId.key ≠ track.key := by
  intro hkey
  have hnone := findSlot_eq_none hfind hslot.1
  rw [trackMatches_iff.mpr ⟨hslot.2, hkey⟩] at hnone
  cases hnone

/-! ### What adding does -/

def moved (t : SubscriptionSlots) (i : Nat) (entry : SubscriptionSlot) (a : TrackAlias) :
    SubscriptionSlots :=
  { t.moveState entry.trackAlias a with slots := t.slots.set i { entry with trackAlias := a } }

def created (t : SubscriptionSlots) (i : Nat) (track : TrackId) (a : TrackAlias) :
    SubscriptionSlots where
  slots := t.slots.set i { trackId := track, trackAlias := a, active := true }
  nextGeneration := t.nextGeneration + 1
  states := fun other =>
    if other = a then some { generation := t.nextGeneration + 1 } else t.states other

/-- Why an addition fails. -/
def Refuses (t : SubscriptionSlots) (track : TrackId) (a : TrackAlias) (allocated : Bool) : Prop :=
  maxTrackName ≤ track.name.length ∨
  (∃ i slot, t.Occupied i slot ∧ slot.trackAlias = a ∧ slot.trackId.key ≠ track.key) ∨
  (∃ i slot, t.Occupied i slot ∧ slot.trackId.key = track.key ∧
    slot.trackId.flags ≠ track.flags) ∨
  (∀ i slot, t.Occupied i slot → slot.trackId.key ≠ track.key) ∧
    ((∀ slot ∈ t.slots, slot.active = true) ∨ allocated = false)

/-- An addition fails and changes nothing, finds the track at its alias, moves the track
to an alias that no slot uses, or gives both to a free slot. -/
theorem add_cases {t : SubscriptionSlots} (hwell : t.WellFormed) (track : TrackId)
    (a : TrackAlias) (allocated : Bool) :
    (t.add track a allocated = (false, t) ∧ t.Refuses track a allocated) ∨
    (t.add track a allocated = (true, t) ∧
      ∃ i entry, t.Occupied i entry ∧ entry.trackId = track ∧ entry.trackAlias = a) ∨
    (∃ i entry, t.add track a allocated = (true, t.moved i entry a) ∧ t.Occupied i entry ∧
      entry.trackId = track ∧ entry.trackAlias ≠ a ∧
      ∀ j other, t.Occupied j other → other.trackAlias ≠ a) ∨
    ∃ i old, t.add track a allocated = (true, t.created i track a) ∧ t.slots[i]? = some old ∧
      old.active = false ∧
      ∀ j other, t.Occupied j other → other.trackAlias ≠ a ∧ other.trackId.key ≠ track.key := by
  unfold add
  rw [hwell.ensureInitialized]
  dsimp only
  split
  · next hlong => exact .inl ⟨rfl, .inl hlong⟩
  split
  · next _ hheld =>
    obtain ⟨slot, hmem, hheld⟩ := List.any_eq_true.mp hheld
    obtain ⟨i, hslot⟩ := List.mem_iff_getElem?.mp hmem
    simp only [SubscriptionSlot.trackMatches, Bool.and_eq_true, Bool.not_eq_true',
      Bool.and_eq_false_iff, decide_eq_true_eq, decide_eq_false_iff_not] at hheld
    obtain ⟨⟨hactive, halias⟩, hmatch⟩ := hheld
    refine .inl ⟨rfl, .inr (.inl ⟨i, slot, ⟨hslot, hactive⟩, halias, ?_⟩)⟩
    exact hmatch.resolve_left (by simp [hactive])
  next _ hfree =>
  have hholder : ∀ {j other}, t.Occupied j other → other.trackAlias = a →
      other.trackId.key = track.key := by
    intro j other hother halias
    by_contra hkey
    refine hfree (List.any_eq_true.mpr ⟨other, List.mem_of_getElem? hother.1, ?_⟩)
    simp [hother.2, halias, SubscriptionSlot.trackMatches, hkey]
  split
  · next i entry hfind =>
    obtain ⟨hentry, hkey⟩ := occupied_of_findSlot hfind
    split
    · next hflags => exact .inl ⟨rfl, .inr (.inr (.inl ⟨i, entry, hentry, hkey, hflags⟩))⟩
    next hflags =>
    have hflags := Decidable.not_not.mp hflags
    have htrack : entry.trackId = track := TrackId.eq_of_key_of_flags hkey hflags
    have hset : { entry with trackAlias := a, trackId := { entry.trackId with flags := track.flags } } =
        { entry with trackAlias := a } := by rw [← hflags]
    split
    · next hmove =>
      refine .inr (.inr (.inl ⟨i, entry, ?_, hentry, htrack, hmove, ?_⟩))
      · rw [moved, hset]
      · intro j other hother halias
        have hsame := hwell.track_inj hentry hother (hkey.trans (hholder hother halias).symm)
        subst hsame
        exact hmove (hentry.eq hother ▸ halias)
    · next hstay =>
      have hstay := Decidable.not_not.mp hstay
      refine .inr (.inl ⟨?_, i, entry, hentry, htrack, hstay⟩)
      have hsame : t.slots.set i { entry with trackAlias := a } = t.slots := by
        obtain ⟨hlt, hget⟩ := List.getElem?_eq_some_iff.mp hentry.1
        rw [← hstay, ← hget, List.set_getElem_self hlt]
      rw [hset, hsame]
  · next hnone =>
    split
    · next i old hempty =>
      obtain ⟨hold, hinactive⟩ := findSlot_eq_some hempty
      split
      · refine .inr (.inr (.inr ⟨i, old, rfl, hold, by simpa using hinactive, ?_⟩))
        intro j other hother
        have hkey := not_matching_of_findSlot hnone hother
        exact ⟨fun halias => hkey (hholder hother halias), hkey⟩
      · next hfailed =>
        exact .inl ⟨rfl, .inr (.inr (.inr ⟨fun j other => not_matching_of_findSlot hnone,
          .inr (by simpa using hfailed)⟩))⟩
    · next hfull =>
      refine .inl ⟨rfl, .inr (.inr (.inr ⟨fun j other => not_matching_of_findSlot hnone, .inl ?_⟩))⟩
      intro slot hmem
      obtain ⟨i, hslot⟩ := List.mem_iff_getElem?.mp hmem
      simpa using findSlot_eq_none hfull hslot

theorem occupied_set {t t' : SubscriptionSlots} {old new : SubscriptionSlot}
    (hslots : t'.slots = t.slots.set i new) (hold : t.slots[i]? = some old) :
    t'.Occupied j slot ↔
      (j = i ∧ slot = new ∧ new.active = true) ∨ (j ≠ i ∧ t.Occupied j slot) := by
  obtain ⟨hlt, -⟩ := List.getElem?_eq_some_iff.mp hold
  unfold Occupied
  rw [hslots]
  by_cases hj : j = i
  · subst hj
    rw [List.getElem?_set_self hlt]
    constructor
    · rintro ⟨hnew, hactive⟩
      cases hnew
      exact .inl ⟨rfl, rfl, hactive⟩
    · rintro (⟨-, rfl, hactive⟩ | ⟨hne, -⟩)
      · exact ⟨rfl, hactive⟩
      · exact absurd rfl hne
  · rw [List.getElem?_set_ne (fun h => hj h.symm)]
    constructor
    · exact fun h => .inr ⟨hj, h⟩
    · rintro (⟨h, -⟩ | ⟨-, h⟩)
      · exact absurd h hj
      · exact h

/-- A slot may be given an alias and a track that no other slot has. -/
theorem WellFormed.place {t t' : SubscriptionSlots} {old new : SubscriptionSlot}
    (hwell : t.WellFormed) (hslots : t'.slots = t.slots.set i new)
    (hold : t.slots[i]? = some old) (hactive : new.active = true)
    (halias : ∀ j other, t.Occupied j other → other.trackAlias ≠ new.trackAlias)
    (htrack : ∀ j other, t.Occupied j other → j ≠ i → other.trackId.key ≠ new.trackId.key)
    (hstates : ∀ a, (t'.states a).isSome ↔
      a = new.trackAlias ∨ ∃ j other, j ≠ i ∧ t.Occupied j other ∧ other.trackAlias = a)
    (hgeneration : ∀ a state, t'.states a = some state → state.generation ≤ t'.nextGeneration) :
    t'.WellFormed where
  slots_ne := by
    rw [hslots]
    intro h
    have := congrArg List.length h
    rw [List.length_set] at this
    exact hwell.slots_ne (List.length_eq_zero_iff.mp this)
  alias_inj := by
    intro j k x y hx hy hsame
    rcases (occupied_set hslots hold).mp hx with ⟨rfl, rfl, -⟩ | ⟨-, hx⟩
    · rcases (occupied_set hslots hold).mp hy with ⟨rfl, -⟩ | ⟨-, hy⟩
      · rfl
      · exact absurd hsame.symm (halias k y hy)
    · rcases (occupied_set hslots hold).mp hy with ⟨rfl, rfl, -⟩ | ⟨-, hy⟩
      · exact absurd hsame (halias j x hx)
      · exact hwell.alias_inj hx hy hsame
  track_inj := by
    intro j k x y hx hy hsame
    rcases (occupied_set hslots hold).mp hx with ⟨rfl, rfl, -⟩ | ⟨hj, hx⟩
    · rcases (occupied_set hslots hold).mp hy with ⟨rfl, -⟩ | ⟨hk, hy⟩
      · rfl
      · exact absurd hsame.symm (htrack k y hy hk)
    · rcases (occupied_set hslots hold).mp hy with ⟨rfl, rfl, -⟩ | ⟨-, hy⟩
      · exact absurd hsame (htrack j x hx hj)
      · exact hwell.track_inj hx hy hsame
  states_iff := by
    intro a
    rw [hstates]
    constructor
    · rintro (rfl | ⟨j, other, hj, hother, rfl⟩)
      · exact ⟨i, new, (occupied_set hslots hold).mpr (.inl ⟨rfl, rfl, hactive⟩), rfl⟩
      · exact ⟨j, other, (occupied_set hslots hold).mpr (.inr ⟨hj, hother⟩), rfl⟩
    · rintro ⟨j, other, hother, rfl⟩
      rcases (occupied_set hslots hold).mp hother with ⟨-, rfl, -⟩ | ⟨hj, hother⟩
      · exact .inl rfl
      · exact .inr ⟨j, other, hj, hother, rfl⟩
  generation_le := hgeneration

theorem WellFormed.moved {t : SubscriptionSlots} (hwell : t.WellFormed)
    (hentry : t.Occupied i entry) (halias : ∀ j other, t.Occupied j other → other.trackAlias ≠ a) :
    (t.moved i entry a).WellFormed := by
  have hstate : (t.states entry.trackAlias).isSome := (hwell.states_iff _).mpr ⟨i, entry, hentry, rfl⟩
  refine hwell.place rfl hentry.1 hentry.2 halias ?_ ?_ ?_
  · intro j other hother hj hkey
    exact hj (hwell.track_inj hother hentry hkey)
  · intro b
    simp only [SubscriptionSlots.moved, moveState]
    split
    · next hb => exact iff_of_true (by simpa using hstate) (.inl hb)
    · next hb =>
      split
      · next hold =>
        refine iff_of_false (by simp) ?_
        rintro (hnew | ⟨j, other, hj, hother, hsame⟩)
        · exact hb hnew
        · exact hj (hwell.alias_inj hother hentry (hsame.trans hold))
      · next hold =>
        rw [hwell.states_iff]
        constructor
        · rintro ⟨j, other, hother, rfl⟩
          refine .inr ⟨j, other, ?_, hother, rfl⟩
          rintro rfl
          exact hold (congrArg _ (hother.eq hentry))
        · rintro (hnew | ⟨j, other, -, hother, hsame⟩)
          · exact absurd hnew hb
          · exact ⟨j, other, hother, hsame⟩
  · intro b state hb
    simp only [SubscriptionSlots.moved, moveState] at hb ⊢
    split at hb
    · obtain ⟨-, -, rfl⟩ := Option.map_eq_some_iff.mp hb
      exact Nat.le_refl _
    · split at hb
      · cases hb
      · exact Nat.le_succ_of_le (hwell.generation_le b state hb)

theorem WellFormed.created {t : SubscriptionSlots} (hwell : t.WellFormed)
    (hold : t.slots[i]? = some old) (hinactive : old.active = false)
    (hfresh : ∀ j other, t.Occupied j other →
      other.trackAlias ≠ a ∧ other.trackId.key ≠ track.key) :
    (t.created i track a).WellFormed := by
  refine hwell.place rfl hold rfl (fun j other hother => (hfresh j other hother).1)
    (fun j other hother _ => (hfresh j other hother).2) ?_ ?_
  · intro b
    simp only [SubscriptionSlots.created]
    split
    · next hb => exact iff_of_true rfl (.inl hb)
    · next hb =>
      rw [hwell.states_iff]
      constructor
      · rintro ⟨j, other, hother, rfl⟩
        refine .inr ⟨j, other, ?_, hother, rfl⟩
        rintro rfl
        cases hother.1.symm.trans hold
        exact Bool.false_ne_true (hinactive.symm.trans hother.2)
      · rintro (hnew | ⟨j, other, -, hother, hsame⟩)
        · exact absurd hnew hb
        · exact ⟨j, other, hother, hsame⟩
  · intro b state hb
    simp only [SubscriptionSlots.created] at hb ⊢
    split at hb
    · cases hb
      exact Nat.le_refl _
    · exact Nat.le_succ_of_le (hwell.generation_le b state hb)

theorem WellFormed.remove {t : SubscriptionSlots} (hwell : t.WellFormed) (track : TrackId) :
    (t.remove track).WellFormed := by
  unfold SubscriptionSlots.remove
  split
  · next i entry hfind =>
    obtain ⟨hentry, -⟩ := occupied_of_findSlot hfind
    have hkept : ∀ {j slot}, SubscriptionSlots.Occupied
        { t with
          slots := t.slots.set i
            { entry with active := false, stream := none, ingressStream := none }
          states := fun a => if a = entry.trackAlias then none else t.states a } j slot ↔
          j ≠ i ∧ t.Occupied j slot := by
      intro j slot
      rw [occupied_set rfl hentry.1]
      simp
    refine ⟨?_, ?_, ?_, ?_, ?_⟩
    · intro h
      have := congrArg List.length h
      rw [List.length_set] at this
      exact hwell.slots_ne (List.length_eq_zero_iff.mp this)
    · exact fun hx hy hsame => hwell.alias_inj (hkept.mp hx).2 (hkept.mp hy).2 hsame
    · exact fun hx hy hsame => hwell.track_inj (hkept.mp hx).2 (hkept.mp hy).2 hsame
    · intro a
      simp only [hkept]
      split
      · next ha =>
        refine iff_of_false (by simp) ?_
        rintro ⟨j, other, ⟨hj, hother⟩, hsame⟩
        exact hj (hwell.alias_inj hother hentry (hsame.trans ha))
      · next ha =>
        rw [hwell.states_iff]
        constructor
        · rintro ⟨j, other, hother, rfl⟩
          refine ⟨j, other, ⟨?_, hother⟩, rfl⟩
          rintro rfl
          exact ha (congrArg _ (hother.eq hentry))
        · rintro ⟨j, other, ⟨-, hother⟩, hsame⟩
          exact ⟨j, other, hother, hsame⟩
    · intro a state ha
      dsimp only at ha
      split at ha
      · cases ha
      · exact hwell.generation_le a state ha
  · exact hwell

theorem WellFormed.modifyState {t : SubscriptionSlots} (hwell : t.WellFormed) (a : TrackAlias)
    (update : SubscriptionState → SubscriptionState) : (t.modifyState a update).WellFormed where
  slots_ne := hwell.slots_ne
  alias_inj := hwell.alias_inj
  track_inj := hwell.track_inj
  states_iff := by
    intro b
    refine Iff.trans ?_ (hwell.states_iff b)
    simp only [SubscriptionSlots.modifyState]
    split
    · rw [Option.isSome_map]
    · rfl
  generation_le := by
    intro b state hb
    simp only [SubscriptionSlots.modifyState] at hb
    split at hb
    · obtain ⟨old, hold, rfl⟩ := Option.map_eq_some_iff.mp hb
      exact hwell.generation_le b old hold
    · exact hwell.generation_le b state hb

theorem WellFormed.add {t : SubscriptionSlots} (hwell : t.WellFormed) (track : TrackId)
    (a : TrackAlias) (allocated : Bool) : (t.add track a allocated).2.WellFormed := by
  rcases add_cases hwell track a allocated with ⟨hadd, -⟩ | ⟨hadd, -⟩ |
      ⟨i, entry, hadd, hentry, -, -, halias⟩ | ⟨i, old, hadd, hold, hinactive, hfresh⟩
  · rwa [hadd]
  · rwa [hadd]
  · rw [hadd]
    exact hwell.moved hentry halias
  · rw [hadd]
    exact hwell.created hold hinactive hfresh

theorem wellFormed_init {capacity : Nat} (hinit : init capacity = some t) : t.WellFormed := by
  unfold init at hinit
  split at hinit
  · cases hinit
  next hcapacity =>
  cases hinit
  have hnone : ∀ {i slot}, ¬SubscriptionSlots.Occupied
      { slots := List.replicate capacity .zeroed } i slot := by
    intro i slot hslot
    rw [List.eq_of_mem_replicate (List.mem_of_getElem? hslot.1)] at hslot
    exact Bool.false_ne_true hslot.2
  refine ⟨?_, fun hx => absurd hx hnone, fun hx => absurd hx hnone, ?_, ?_⟩
  · intro h
    have := congrArg List.length h
    rw [List.length_replicate] at this
    exact hcapacity (.inl this)
  · intro a
    refine iff_of_false (by simp) ?_
    rintro ⟨i, slot, hslot, -⟩
    exact hnone hslot
  · intro a state ha
    cases ha

theorem nodup_active {t : SubscriptionSlots} {key : SubscriptionSlot → κ}
    (hinj : ∀ {i j x y}, t.Occupied i x → t.Occupied j y → key x = key y → i = j) :
    (t.active.map key).Nodup := by
  rw [List.Nodup, List.pairwise_map, active, List.pairwise_filter, List.pairwise_iff_getElem]
  intro i j hi hj hlt hx hy hsame
  have := hinj ⟨List.getElem?_eq_getElem hi, hx⟩ ⟨List.getElem?_eq_getElem hj, hy⟩ hsame
  omega

/-! ### The table it stands for -/

def toTable (t : SubscriptionSlots) (hwell : t.WellFormed) : SubscriptionTable where
  entries := t.active.map fun slot =>
    { trackId := slot.trackId, trackAlias := slot.trackAlias, stream := slot.stream }
  capacity := t.slots.length
  nextGeneration := t.nextGeneration
  states := t.states
  aliases_unique := by
    rw [UniqueKeys, keys, List.map_map]
    exact nodup_active hwell.alias_inj
  tracks_unique := by
    rw [UniqueKeys, keys, List.map_map]
    exact nodup_active hwell.track_inj
  states_isSome := by
    intro a
    rw [hwell.states_iff, keys, List.map_map]
    simp only [List.mem_map, mem_active_iff, Function.comp_apply]
    constructor
    · rintro ⟨i, slot, hslot, halias⟩
      exact ⟨slot, ⟨i, hslot⟩, halias⟩
    · rintro ⟨slot, ⟨i, hslot⟩, halias⟩
      exact ⟨i, slot, hslot, halias⟩
  generation_le := hwell.generation_le

theorem findByAlias_toTable {t : SubscriptionSlots} {hwell : t.WellFormed} :
    (t.toTable hwell).findByAlias a = some track ↔
      ∃ i slot, t.Occupied i slot ∧ slot.trackAlias = a ∧ slot.trackId = track := by
  rw [SubscriptionTable.findByAlias_eq_some_iff]
  simp only [toTable, List.mem_map, mem_active_iff]
  constructor
  · rintro ⟨_, ⟨slot, ⟨i, hslot⟩, rfl⟩, halias, htrack⟩
    exact ⟨i, slot, hslot, halias, htrack⟩
  · rintro ⟨i, slot, hslot, halias, htrack⟩
    exact ⟨_, ⟨slot, ⟨i, hslot⟩, rfl⟩, halias, htrack⟩

theorem mem_toTable {t : SubscriptionSlots} {hwell : t.WellFormed} :
    entry ∈ (t.toTable hwell).entries ↔ ∃ i slot, t.Occupied i slot ∧
      entry = { trackId := slot.trackId, trackAlias := slot.trackAlias, stream := slot.stream } := by
  simp only [toTable, List.mem_map, mem_active_iff]
  constructor
  · rintro ⟨slot, ⟨i, hslot⟩, rfl⟩
    exact ⟨i, slot, hslot, rfl⟩
  · rintro ⟨i, slot, hslot, rfl⟩
    exact ⟨slot, ⟨i, hslot⟩, rfl⟩

/-- Where the slots refuse a track, so does the table. -/
theorem toTable_add_refused {t : SubscriptionSlots} (hwell : t.WellFormed)
    (hrefuses : t.Refuses track a true) : (t.toTable hwell).add track a = none := by
  unfold SubscriptionTable.add
  split
  · rfl
  next hshort =>
  split
  · next holder hholder =>
    obtain ⟨hmem, halias⟩ := mem_of_lookup hholder
    obtain ⟨i, slot, hslot, rfl⟩ := mem_toTable.mp hmem
    split
    · rfl
    split
    · rfl
    next hkey hflags =>
    have hkey := Decidable.not_not.mp hkey
    have hflags := Decidable.not_not.mp hflags
    rcases hrefuses with hlong | ⟨j, other, hother, hsame, hne⟩ | ⟨j, other, hother, hsame, hne⟩ |
        ⟨hnone, -⟩
    · exact absurd hlong hshort
    · cases hwell.alias_inj hother hslot (hsame.trans halias.symm)
      exact absurd (hother.eq hslot ▸ hkey) hne
    · cases hwell.track_inj hother hslot (hsame.trans hkey.symm)
      exact absurd (hother.eq hslot ▸ hflags) hne
    · exact absurd hkey (hnone i slot hslot)
  · next hfree =>
    split
    · next entry htrack =>
      obtain ⟨hmem, hkey⟩ := mem_of_lookup htrack
      obtain ⟨i, slot, hslot, rfl⟩ := mem_toTable.mp hmem
      split
      · rfl
      next hflags =>
      have hflags := Decidable.not_not.mp hflags
      rcases hrefuses with hlong | ⟨j, other, hother, hsame, -⟩ |
          ⟨j, other, hother, hsame, hne⟩ | ⟨hnone, -⟩
      · exact absurd hlong hshort
      · exact absurd (List.mem_map.mpr ⟨_, mem_toTable.mpr ⟨j, other, hother, rfl⟩, hsame⟩)
          (lookup_eq_none_iff.mp hfree)
      · cases hwell.track_inj hother hslot (hsame.trans hkey.symm)
        exact absurd (hother.eq hslot ▸ hflags) hne
      · exact absurd hkey (hnone i slot hslot)
    · next htrack =>
      split
      · next hroom =>
        rcases hrefuses with hlong | ⟨j, other, hother, hsame, -⟩ | ⟨j, other, hother, hsame, -⟩ |
            ⟨-, hfull | hfailed⟩
        · exact absurd hlong hshort
        · exact absurd (List.mem_map.mpr ⟨_, mem_toTable.mpr ⟨j, other, hother, rfl⟩, hsame⟩)
            (lookup_eq_none_iff.mp hfree)
        · exact absurd (List.mem_map.mpr ⟨_, mem_toTable.mpr ⟨j, other, hother, rfl⟩, hsame⟩)
            (lookup_eq_none_iff.mp htrack)
        · have hall : t.active = t.slots := List.filter_eq_self.mpr hfull
          simp only [toTable, List.length_map, hall] at hroom
          exact absurd hroom (Nat.lt_irrefl _)
        · cases hfailed
      · rfl

theorem short_of_added {t t' : SubscriptionSlots} (hadded : t.add track a allocated = (true, t')) :
    track.name.length < maxTrackName := by
  by_contra hlong
  unfold add at hadded
  rw [if_pos (Nat.not_lt.mp hlong)] at hadded
  cases hadded

theorem occupied_moved {t : SubscriptionSlots} (hslot : t.Occupied i slot) :
    (t.moved i slot a).Occupied j other ↔
      (j = i ∧ other = { slot with trackAlias := a }) ∨ (j ≠ i ∧ t.Occupied j other) := by
  refine (occupied_set rfl hslot.1).trans (or_congr_left (and_congr_right fun _ => ?_))
  exact and_iff_left hslot.2

theorem occupied_created {t : SubscriptionSlots} (hold : t.slots[i]? = some old) :
    (t.created i track a).Occupied j other ↔
      (j = i ∧ other = { trackId := track, trackAlias := a, active := true }) ∨
        (j ≠ i ∧ t.Occupied j other) := by
  refine (occupied_set rfl hold).trans (or_congr_left (and_congr_right fun _ => ?_))
  exact and_iff_left rfl

theorem sameBindings_moved {t : SubscriptionSlots} (hwell : t.WellFormed)
    (hwell' : (t.moved i slot a).WellFormed) (hslot : t.Occupied i slot)
    (hentry : entry ∈ (t.toTable hwell).entries)
    (halias : a ∉ keys Subscription.trackAlias (t.toTable hwell).entries)
    (hsame : entry.trackAlias = slot.trackAlias) (htrack : entry.trackId = slot.trackId) :
    SubscriptionTable.SameBindings ((t.toTable hwell).remap entry hentry a halias)
      ((t.moved i slot a).toTable hwell') := by
  have hstate : (t.states slot.trackAlias).isSome := (hwell.states_iff _).mpr ⟨i, slot, hslot, rfl⟩
  obtain ⟨state, hstate⟩ := Option.isSome_iff_exists.mp hstate
  refine ⟨fun b => ?_, ?_, rfl, ?_⟩
  · apply Option.ext
    intro track
    rw [findByAlias_toTable, SubscriptionTable.remap, SubscriptionTable.findByAlias_insertEntry,
      SubscriptionTable.findByAlias_removeAlias]
    simp only [occupied_moved hslot]
    by_cases hb : b = a
    · subst hb
      rw [if_pos rfl, Option.some.injEq]
      constructor
      · rintro ⟨j, other, ⟨-, rfl⟩ | ⟨-, hother⟩, hother', rfl⟩
        · exact htrack
        · exact absurd (List.mem_map.mpr ⟨_, mem_toTable.mpr ⟨j, other, hother, rfl⟩, hother'⟩) halias
      · rintro rfl
        exact ⟨i, _, .inl ⟨rfl, rfl⟩, rfl, htrack.symm⟩
    · rw [if_neg hb, hsame]
      by_cases hold : b = slot.trackAlias
      · subst hold
        rw [if_pos rfl]
        refine iff_of_false ?_ (by simp)
        rintro ⟨j, other, ⟨-, rfl⟩ | ⟨hj, hother⟩, hother', -⟩
        · exact hb hother'.symm
        · exact hj (hwell.alias_inj hother hslot hother')
      · rw [if_neg hold, findByAlias_toTable]
        constructor
        · rintro ⟨j, other, ⟨-, rfl⟩ | ⟨-, hother⟩, hother', htrack'⟩
          · exact absurd hother'.symm hb
          · exact ⟨j, other, hother, hother', htrack'⟩
        · rintro ⟨j, other, hother, hother', htrack'⟩
          refine ⟨j, other, .inr ⟨?_, hother⟩, hother', htrack'⟩
          rintro rfl
          exact hold (hother'.symm.trans (congrArg _ (hother.eq hslot)))
  · funext b
    simp [toTable, SubscriptionTable.remap, SubscriptionTable.insertEntry,
      SubscriptionTable.removeAlias, SubscriptionSlots.moved, moveState, hstate, hsame]
  · exact List.length_set

theorem sameBindings_created {t : SubscriptionSlots} {entry : Subscription}
    (hwell : t.WellFormed)
    (hwell' : (t.created i entry.trackId entry.trackAlias).WellFormed)
    (hold : t.slots[i]? = some old) (hinactive : old.active = false)
    (halias : entry.trackAlias ∉ keys Subscription.trackAlias (t.toTable hwell).entries)
    (htrack : entry.key ∉ keys Subscription.key (t.toTable hwell).entries) :
    SubscriptionTable.SameBindings ((t.toTable hwell).insertEntry entry halias htrack)
      ((t.created i entry.trackId entry.trackAlias).toTable hwell') := by
  refine ⟨fun b => ?_, rfl, rfl, List.length_set⟩
  apply Option.ext
  intro track'
  rw [findByAlias_toTable, SubscriptionTable.findByAlias_insertEntry]
  simp only [occupied_created hold]
  by_cases hb : b = entry.trackAlias
  · subst hb
    rw [if_pos rfl, Option.some.injEq]
    constructor
    · rintro ⟨j, other, ⟨-, rfl⟩ | ⟨-, hother⟩, hother', rfl⟩
      · rfl
      · exact absurd (List.mem_map.mpr ⟨_, mem_toTable.mpr ⟨j, other, hother, rfl⟩, hother'⟩) halias
    · rintro rfl
      exact ⟨i, _, .inl ⟨rfl, rfl⟩, rfl, rfl⟩
  · rw [if_neg hb, findByAlias_toTable]
    constructor
    · rintro ⟨j, other, ⟨-, rfl⟩ | ⟨-, hother⟩, hother', htrack'⟩
      · exact absurd hother'.symm hb
      · exact ⟨j, other, hother, hother', htrack'⟩
    · rintro ⟨j, other, hother, hother', htrack'⟩
      refine ⟨j, other, .inr ⟨?_, hother⟩, hother', htrack'⟩
      rintro rfl
      cases hother.1.symm.trans hold
      exact Bool.false_ne_true (hinactive.symm.trans hother.2)

/-- An addition to the slots is one to the table: the same alias is bound to the same
track, with the same states. -/
theorem toTable_add {t t' : SubscriptionSlots} (hwell : t.WellFormed) (hwell' : t'.WellFormed)
    (hadded : t.add track a true = (true, t')) :
    ∃ table', (t.toTable hwell).add track a = some table' ∧
      SubscriptionTable.SameBindings table' (t'.toTable hwell') := by
  have hshort := short_of_added hadded
  unfold SubscriptionTable.add
  rw [if_neg (Nat.not_le.mpr hshort)]
  rcases add_cases hwell track a true with ⟨hadd, -⟩ | ⟨hadd, i, entry, hentry, rfl, rfl⟩ |
      ⟨i, entry, hadd, hentry, rfl, hmove, halias⟩ | ⟨i, old, hadd, hold, hinactive, hfresh⟩
  · cases hadd.symm.trans hadded
  · cases hadd.symm.trans hadded
    split
    · next holder hholder =>
      obtain ⟨hmem, hsame⟩ := mem_of_lookup hholder
      obtain ⟨j, slot, hslot, rfl⟩ := mem_toTable.mp hmem
      cases hwell.alias_inj hslot hentry hsame
      cases hslot.eq hentry
      rw [if_neg (fun h => h rfl), if_neg (fun h => h rfl)]
      exact ⟨_, rfl, .refl _⟩
    · next hfree =>
      exact absurd (List.mem_map.mpr ⟨_, mem_toTable.mpr ⟨i, entry, hentry, rfl⟩, rfl⟩)
        (lookup_eq_none_iff.mp hfree)
  · cases hadd.symm.trans hadded
    split
    · next holder hholder =>
      obtain ⟨hmem, hsame⟩ := mem_of_lookup hholder
      obtain ⟨j, slot, hslot, rfl⟩ := mem_toTable.mp hmem
      exact absurd hsame (halias j slot hslot)
    · next hfree =>
      split
      · next entry' htrack =>
        obtain ⟨hmem, hkey⟩ := mem_of_lookup htrack
        obtain ⟨j, slot, hslot, rfl⟩ := mem_toTable.mp hmem
        cases hwell.track_inj hslot hentry hkey
        cases hslot.eq hentry
        rw [if_neg (fun h => h rfl)]
        exact ⟨_, rfl, sameBindings_moved hwell hwell' hentry _ _ rfl rfl⟩
      · next htrack =>
        exact absurd (List.mem_map.mpr ⟨_, mem_toTable.mpr ⟨i, entry, hentry, rfl⟩, rfl⟩)
          (lookup_eq_none_iff.mp htrack)
  · cases hadd.symm.trans hadded
    split
    · next holder hholder =>
      obtain ⟨hmem, hsame⟩ := mem_of_lookup hholder
      obtain ⟨j, slot, hslot, rfl⟩ := mem_toTable.mp hmem
      exact absurd hsame (hfresh j slot hslot).1
    · next hfree =>
      split
      · next entry htrack =>
        obtain ⟨hmem, hkey⟩ := mem_of_lookup htrack
        obtain ⟨j, slot, hslot, rfl⟩ := mem_toTable.mp hmem
        exact absurd hkey (hfresh j slot hslot).2
      · next htrack =>
        have hroom : (t.toTable hwell).entries.length < (t.toTable hwell).capacity := by
          rw [toTable, List.length_map]
          refine Nat.lt_of_le_of_ne (List.length_filter_le _ _) fun hall => ?_
          have hactive := List.length_filter_eq_length_iff.mp hall old (List.mem_of_getElem? hold)
          exact Bool.false_ne_true (hinactive.symm.trans hactive)
        rw [if_pos hroom]
        exact ⟨_, rfl, sameBindings_created hwell hwell' hold hinactive _ _⟩

/-! ### Runs -/

inductive TableCall
  | add (track : TrackId) (trackAlias : TrackAlias) (allocated : Bool)
  | remove (track : TrackId)
  | nextAlias (firstDynamicAlias : Int)
  | modifyState (trackAlias : TrackAlias) (update : SubscriptionState → SubscriptionState)

def step (t : SubscriptionSlots) : TableCall → SubscriptionSlots
  | .add track a allocated => (t.add track a allocated).2
  | .remove track => t.remove track
  | .nextAlias _ => t
  | .modifyState a update => t.modifyState a update

theorem WellFormed.step {t : SubscriptionSlots} (hwell : t.WellFormed) (call : TableCall) :
    (t.step call).WellFormed := by
  cases call with
  | add track a allocated => exact hwell.add track a allocated
  | remove track => exact hwell.remove track
  | nextAlias _ => exact hwell
  | modifyState a update => exact hwell.modifyState a update

theorem WellFormed.run {t : SubscriptionSlots} (hwell : t.WellFormed) (calls : List TableCall) :
    (Machine.run SubscriptionSlots.step t calls).WellFormed := by
  have hstep : ∀ (t : SubscriptionSlots) (call : TableCall), t.WellFormed → True →
      (t.step call).WellFormed := fun _ call h _ => h.step call
  exact Machine.invariant_run hstep hwell (Machine.along_true _ calls)

theorem nextGeneration_le_step {t : SubscriptionSlots} (hwell : t.WellFormed) (call : TableCall) :
    t.nextGeneration ≤ (t.step call).nextGeneration ∧
      (t.step call).nextGeneration ≤ t.nextGeneration + 1 := by
  cases call with
  | add track a allocated =>
      rw [SubscriptionSlots.step]
      rcases add_cases hwell track a allocated with ⟨hadd, -⟩ | ⟨hadd, -⟩ |
          ⟨i, entry, hadd, -⟩ | ⟨i, old, hadd, -⟩
      · simp [hadd]
      · simp [hadd]
      · simp [hadd, SubscriptionSlots.moved, moveState]
      · simp [hadd, SubscriptionSlots.created]
  | remove track =>
      rw [SubscriptionSlots.step, SubscriptionSlots.remove]
      split
      · exact ⟨Nat.le_refl _, Nat.le_succ _⟩
      · exact ⟨Nat.le_refl _, Nat.le_succ _⟩
  | nextAlias _ => exact ⟨Nat.le_refl _, Nat.le_succ _⟩
  | modifyState a update => exact ⟨Nat.le_refl _, Nat.le_succ _⟩

theorem nextGeneration_le_run {t : SubscriptionSlots} (hwell : t.WellFormed)
    (calls : List TableCall) :
    t.nextGeneration ≤ (Machine.run SubscriptionSlots.step t calls).nextGeneration ∧
      (Machine.run SubscriptionSlots.step t calls).nextGeneration ≤
        t.nextGeneration + calls.length := by
  induction calls generalizing t with
  | nil => exact ⟨Nat.le_refl _, Nat.le_refl _⟩
  | cons call rest ih =>
      have hone := nextGeneration_le_step hwell call
      have hrest := ih (hwell.step call)
      rw [Machine.run_cons, List.length_cons]
      omega

theorem nextAlias_unused {t : SubscriptionSlots} (hnext : t.nextAlias first = some a) :
    ∀ slot ∈ t.active, slot.trackAlias ≠ a := by
  unfold nextAlias at hnext
  split at hnext
  · cases hnext
  · intro slot hslot halias
    obtain ⟨hmem, hactive⟩ := List.mem_filter.mp hslot
    have hused := List.find?_some hnext
    rw [Bool.not_eq_true', List.any_eq_false] at hused
    exact hused slot hmem (by simp [hactive, halias])

/-- A state that an addition starts is newer than every state that was there before. -/
theorem generation_lt {start t' : SubscriptionSlots} (hwell : start.WellFormed)
    (hnew : t'.nextGeneration =
      (Machine.run SubscriptionSlots.step start calls).nextGeneration + 1)
    (hearlier : earlier <+: calls)
    (hstate : (Machine.run SubscriptionSlots.step start earlier).states b = some state) :
    state.generation < t'.nextGeneration := by
  obtain ⟨later, rfl⟩ := hearlier
  have hthen := (hwell.run earlier).generation_le b state hstate
  have hsince := (nextGeneration_le_run (hwell.run earlier) later).1
  rw [Machine.run_append] at hnew
  omega

/-- What a table is after any calls from its initialization on, and what an addition or
the choice of an alias does to it then. -/
theorem table_representation {start : SubscriptionSlots} {capacity : Nat}
    (hinit : init capacity = some start) (calls : List TableCall) :
    let t := Machine.run SubscriptionSlots.step start calls
    (t.active.map (·.trackAlias)).Nodup ∧ (t.active.map (·.trackId.key)).Nodup ∧
    (∀ a, (t.states a).isSome ↔ ∃ slot ∈ t.active, slot.trackAlias = a) ∧
    (∀ track a allocated t', t.add track a allocated = (true, t') →
      (∃ slot ∈ t'.active, slot.trackId = track ∧ slot.trackAlias = a) ∧
      (t' = t ∨ t'.states a = some { generation := t'.nextGeneration } ∧
        ∀ earlier, earlier <+: calls → ∀ b state,
          (Machine.run SubscriptionSlots.step start earlier).states b = some state →
            state.generation < t'.nextGeneration)) ∧
    (∀ track a allocated t', t.add track a allocated = (false, t') → t' = t) ∧
    (∀ first a, t.nextAlias first = some a → ∀ slot ∈ t.active, slot.trackAlias ≠ a) ∧
    t.nextGeneration ≤ calls.length := by
  have hstart := wellFormed_init hinit
  have hwell := hstart.run calls
  refine ⟨nodup_active hwell.alias_inj, nodup_active hwell.track_inj, ?_, ?_, ?_, ?_, ?_⟩
  · intro a
    rw [hwell.states_iff]
    constructor
    · rintro ⟨i, slot, hslot, halias⟩
      exact ⟨slot, mem_active_iff.mpr ⟨i, hslot⟩, halias⟩
    · rintro ⟨slot, hmem, halias⟩
      obtain ⟨i, hslot⟩ := mem_active_iff.mp hmem
      exact ⟨i, slot, hslot, halias⟩
  · intro track a allocated t' hadded
    rcases add_cases hwell track a allocated with ⟨hadd, -⟩ |
        ⟨hadd, i, entry, hentry, htrack, halias⟩ | ⟨i, entry, hadd, hentry, htrack, hmove, -⟩ | ⟨i, old, hadd, hold, -⟩
    · cases hadd.symm.trans hadded
    · cases hadd.symm.trans hadded
      exact ⟨⟨entry, mem_active_iff.mpr ⟨i, hentry⟩, htrack, halias⟩, .inl rfl⟩
    · cases hadd.symm.trans hadded
      have hstate := (hwell.states_iff _).mpr ⟨i, entry, hentry, rfl⟩
      refine ⟨⟨{ entry with trackAlias := a }, mem_active_iff.mpr ⟨i, ?_⟩, htrack, rfl⟩, .inr
        ⟨?_, fun earlier hearlier b state => generation_lt hstart rfl hearlier⟩⟩
      · exact (occupied_moved hentry).mpr (.inl ⟨rfl, rfl⟩)
      · obtain ⟨state, hstate⟩ := Option.isSome_iff_exists.mp hstate
        simp [SubscriptionSlots.moved, moveState, hstate]
    · cases hadd.symm.trans hadded
      refine ⟨⟨_, mem_active_iff.mpr ⟨i, (occupied_created hold).mpr (.inl ⟨rfl, rfl⟩)⟩,
        rfl, rfl⟩, .inr ⟨?_, fun earlier hearlier b state => generation_lt hstart rfl hearlier⟩⟩
      simp [SubscriptionSlots.created]
  · intro track a allocated t' hfailed
    rcases add_cases hwell track a allocated with ⟨hadd, -⟩ | ⟨hadd, -⟩ | ⟨i, entry, hadd, -⟩ |
        ⟨i, old, hadd, -⟩
    · exact (Prod.mk.inj (hfailed.symm.trans hadd)).2
    · cases hadd.symm.trans hfailed
    · cases hadd.symm.trans hfailed
    · cases hadd.symm.trans hfailed
  · exact fun first a hnext => nextAlias_unused hnext
  · have hzero : start.nextGeneration = 0 := by
      unfold init at hinit
      split at hinit
      · cases hinit
      · cases hinit
        rfl
    have := (nextGeneration_le_run hstart calls).2
    rwa [hzero, Nat.zero_add] at this

/-- A table of two slots, after a track was added at alias 8 and moved to alias 9. -/
theorem table_representation_moved :
    let track : TrackId := { type := .data, flags := 4, name := [111] }
    let t := Machine.run SubscriptionSlots.step { slots := List.replicate 2 .zeroed }
      [.add track 8 true, .add track 9 true]
    (t.active.map (·.trackAlias)).Nodup ∧ t.nextAlias 8 = some 8 ∧
      (t.states 8).isNone ∧ (t.states 9).isSome := by
  have hinit : init 2 = some { slots := List.replicate 2 .zeroed } := rfl
  exact ⟨(table_representation hinit _).1, by decide, by decide, by decide⟩

end SubscriptionSlots

end Qlinq
