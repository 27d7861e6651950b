import Qlinq.Lib.Keyed
import Qlinq.RecoveryState

namespace Qlinq

open Keyed

/-! Subscription tables.  `entries` lists the active slots. -/

structure Subscription where
  trackId : TrackId
  trackAlias : TrackAlias
  /-- Egress stream of a reliable track. -/
  stream : Option Nat := none
  deriving DecidableEq, Repr

def Subscription.key (entry : Subscription) : TrackType × Bytes :=
  entry.trackId.key

/-- The table carries what every operation on it preserves: aliases and tracks
of active entries are unique, exactly their aliases own a state, and no state
is newer than the generation counter. -/
structure SubscriptionTable where
  entries : List Subscription
  capacity : Nat
  nextGeneration : Nat
  states : TrackAlias → Option SubscriptionState
  aliases_unique : UniqueKeys Subscription.trackAlias entries
  tracks_unique : UniqueKeys Subscription.key entries
  states_isSome : ∀ a, (states a).isSome ↔ a ∈ keys Subscription.trackAlias entries
  generation_le : ∀ a state, states a = some state →
    state.generation ≤ nextGeneration

namespace SubscriptionTable

def init (capacity : Nat) : SubscriptionTable where
  entries := []
  capacity := capacity
  nextGeneration := 0
  states := fun _ => none
  aliases_unique := List.nodup_nil
  tracks_unique := List.nodup_nil
  states_isSome := by simp [keys]
  generation_le := by simp

def getState (table : SubscriptionTable) (a : TrackAlias) :
    Option SubscriptionState :=
  table.states a

def find (table : SubscriptionTable) (track : TrackId) : Option Subscription :=
  lookup Subscription.key track.key table.entries

def contains (table : SubscriptionTable) (track : TrackId) : Bool :=
  (table.find track).isSome

def findAlias (table : SubscriptionTable) (track : TrackId) : Option TrackAlias :=
  (table.find track).map (·.trackAlias)

def findByAlias (table : SubscriptionTable) (a : TrackAlias) : Option TrackId :=
  (lookup Subscription.trackAlias a table.entries).map (·.trackId)

def count (table : SubscriptionTable) : Nat := table.entries.length

def nextAlias (table : SubscriptionTable) (firstDynamicAlias : Nat) :
    Option TrackAlias :=
  (((List.range 256).drop firstDynamicAlias).map UInt8.ofNat).find? fun a =>
    (lookup Subscription.trackAlias a table.entries).isNone

theorem find_eq_some_iff {table : SubscriptionTable} :
    table.find track = some entry ↔
      entry ∈ table.entries ∧ entry.trackId.key = track.key :=
  lookup_eq_some_iff table.tracks_unique

theorem findAlias_eq_some_iff {table : SubscriptionTable} :
    table.findAlias track = some a ↔
      ∃ entry ∈ table.entries, entry.trackId.key = track.key ∧
        entry.trackAlias = a := by
  simp only [findAlias, Option.map_eq_some_iff, find_eq_some_iff, and_assoc]

theorem findByAlias_eq_some_iff {table : SubscriptionTable} :
    table.findByAlias a = some track ↔
      ∃ entry ∈ table.entries, entry.trackAlias = a ∧ entry.trackId = track := by
  simp only [findByAlias, Option.map_eq_some_iff,
    lookup_eq_some_iff table.aliases_unique, and_assoc]

theorem getState_isSome_iff {table : SubscriptionTable} :
    (table.getState a).isSome ↔ ∃ track, table.findByAlias a = some track := by
  rw [getState, table.states_isSome]
  simp only [findByAlias_eq_some_iff, keys, List.mem_map]
  constructor
  · rintro ⟨entry, hmem, halias⟩
    exact ⟨entry.trackId, entry, hmem, halias, rfl⟩
  · rintro ⟨_, entry, hmem, halias, _⟩
    exact ⟨entry, hmem, halias⟩

/-- Replace the state of an active alias, keeping its generation. -/
def modifyState (table : SubscriptionTable) (a : TrackAlias)
    (update : SubscriptionState → SubscriptionState) : SubscriptionTable :=
  { table with
    states := fun other =>
      if other = a then
        (table.states other).map fun state =>
          { update state with generation := state.generation }
      else
        table.states other
    states_isSome := by
      intro other
      rw [← table.states_isSome other]
      split <;> simp
    generation_le := by
      intro other state hstate
      split at hstate
      · obtain ⟨old, hold, rfl⟩ := Option.map_eq_some_iff.mp hstate
        exact table.generation_le other old hold
      · exact table.generation_le other state hstate }

private theorem keys_setStream (entries : List Subscription) (f : Subscription → κ)
    (hf : ∀ entry stream, f { entry with stream := stream } = f entry) :
    keys f (adjust Subscription.trackAlias a (fun entry =>
      { entry with stream := stream }) entries) = keys f entries := by
  rw [keys, adjust, List.map_map]
  refine List.map_congr_left fun entry _ => ?_
  simp only [Function.comp_apply]
  split <;> simp [hf]

/-- Replace the egress stream of an active alias. -/
def setStream (table : SubscriptionTable) (a : TrackAlias)
    (stream : Option Nat) : SubscriptionTable :=
  { table with
    entries := adjust Subscription.trackAlias a (fun entry =>
      { entry with stream := stream }) table.entries
    aliases_unique := by
      rw [UniqueKeys, keys_setStream _ _ fun _ _ => rfl]
      exact table.aliases_unique
    tracks_unique := by
      rw [UniqueKeys, keys_setStream _ _ fun _ _ => rfl]
      exact table.tracks_unique
    states_isSome := by
      rw [keys_setStream _ _ fun _ _ => rfl]
      exact table.states_isSome }

/-- Occupy a free slot with an entry whose alias and track are new, and start
its state. -/
def insertEntry (table : SubscriptionTable) (entry : Subscription)
    (halias : entry.trackAlias ∉ keys Subscription.trackAlias table.entries)
    (htrack : entry.key ∉ keys Subscription.key table.entries) :
    SubscriptionTable where
  entries := table.entries ++ [entry]
  capacity := table.capacity
  nextGeneration := table.nextGeneration + 1
  states := fun other =>
    if other = entry.trackAlias then
      some { generation := table.nextGeneration + 1 }
    else
      table.states other
  aliases_unique := unique_append_singleton table.aliases_unique halias
  tracks_unique := unique_append_singleton table.tracks_unique htrack
  states_isSome := by
    intro other
    by_cases hother : other = entry.trackAlias
    · simp [hother, keys]
    · simp [hother, table.states_isSome other, keys]
  generation_le := by
    intro other state hstate
    split at hstate
    · injection hstate with hstate
      rw [← hstate]
    · have := table.generation_le other state hstate
      omega

/-- Free the slot of an alias together with its state. -/
def removeAlias (table : SubscriptionTable) (a : TrackAlias) :
    SubscriptionTable :=
  { table with
    entries := erase Subscription.trackAlias a table.entries
    states := fun other => if other = a then none else table.states other
    aliases_unique := unique_erase table.aliases_unique
    tracks_unique := (List.filter_sublist.map Subscription.key).nodup
      table.tracks_unique
    states_isSome := by
      intro other
      by_cases hother : other = a
      · simp [hother, keys, erase]
      · have hmem := table.states_isSome other
        simp only [hother, if_false, hmem, keys, List.mem_map, mem_erase]
        constructor
        · rintro ⟨item, hitem, rfl⟩
          exact ⟨item, ⟨hitem, hother⟩, rfl⟩
        · rintro ⟨item, ⟨hitem, _⟩, rfl⟩
          exact ⟨item, hitem, rfl⟩
    generation_le := by
      intro other state hstate
      split at hstate
      · simp at hstate
      · exact table.generation_le other state hstate }

/-- Move an active entry to an alias no entry uses; its state starts over. -/
def remap (table : SubscriptionTable) (entry : Subscription)
    (hentry : entry ∈ table.entries) (a : TrackAlias)
    (halias : a ∉ keys Subscription.trackAlias table.entries) :
    SubscriptionTable :=
  (table.removeAlias entry.trackAlias).insertEntry { entry with trackAlias := a }
    (by
      intro hmem
      obtain ⟨item, hitem, heq⟩ := List.mem_map.mp hmem
      exact halias (List.mem_map.mpr ⟨item, (mem_erase.mp hitem).1, heq⟩))
    (by
      intro hmem
      obtain ⟨item, hitem, hkey⟩ := List.mem_map.mp hmem
      obtain ⟨hold, hne⟩ := mem_erase.mp hitem
      have hsame : item = entry := eq_of_key_eq table.tracks_unique hold hentry hkey
      exact hne (congrArg Subscription.trackAlias hsame))

/-- `transport_subscriptions_add`.  An active track keeps its flags; a track
that has no entry takes a free slot.  Allocation is assumed to succeed. -/
def add (table : SubscriptionTable) (track : TrackId) (a : TrackAlias) :
    Option SubscriptionTable :=
  if maxTrackName ≤ track.name.length then
    none
  else
    match halias : lookup Subscription.trackAlias a table.entries with
    | some holder =>
        if holder.trackId.key ≠ track.key then
          none
        else if holder.trackId.flags ≠ track.flags then
          none
        else
          some table
    | none =>
        match htrack : lookup Subscription.key track.key table.entries with
        | some entry =>
            if entry.trackId.flags ≠ track.flags then
              none
            else
              some (table.remap entry (mem_of_lookup htrack).1 a
                (lookup_eq_none_iff.mp halias))
        | none =>
            if table.entries.length < table.capacity then
              some (table.insertEntry { trackId := track, trackAlias := a }
                (lookup_eq_none_iff.mp halias) (lookup_eq_none_iff.mp htrack))
            else
              none

def remove (table : SubscriptionTable) (track : TrackId) : SubscriptionTable :=
  match table.find track with
  | none => table
  | some entry => table.removeAlias entry.trackAlias

/-! ### Bindings

Everything the protocol asks of a table is decided by the tracks its aliases
name, their states and the generation counter. -/

theorem findAlias_eq_some_iff_bound {table : SubscriptionTable} :
    table.findAlias track = some a ↔
      ∃ bound, table.findByAlias a = some bound ∧ bound.key = track.key := by
  simp only [findAlias_eq_some_iff, findByAlias_eq_some_iff]
  constructor
  · rintro ⟨entry, hmem, hkey, halias⟩
    exact ⟨entry.trackId, ⟨entry, hmem, halias, rfl⟩, hkey⟩
  · rintro ⟨_, ⟨entry, hmem, halias, rfl⟩, hkey⟩
    exact ⟨entry, hmem, hkey, halias⟩

theorem findAlias_of_bound {table : SubscriptionTable}
    (hbound : table.findByAlias a = some track) : table.findAlias track = some a :=
  findAlias_eq_some_iff_bound.mpr ⟨track, hbound, rfl⟩

theorem bound_of_find {table : SubscriptionTable}
    (hfind : table.find track = some entry) :
    table.findByAlias entry.trackAlias = some entry.trackId ∧
      entry.trackId.key = track.key := by
  obtain ⟨hmem, hkey⟩ := find_eq_some_iff.mp hfind
  exact ⟨findByAlias_eq_some_iff.mpr ⟨entry, hmem, rfl, rfl⟩, hkey⟩

theorem contains_iff_findAlias {table : SubscriptionTable} :
    table.contains track = true ↔ ∃ a, table.findAlias track = some a := by
  simp [contains, findAlias, Option.isSome_iff_exists]

theorem find_of_findAlias {table : SubscriptionTable}
    (halias : table.findAlias track = some a) :
    ∃ entry, table.find track = some entry ∧ entry.trackAlias = a :=
  Option.map_eq_some_iff.mp halias

theorem bound_unique {table : SubscriptionTable}
    (hleft : table.findByAlias a = some left) (hright : table.findByAlias b = some right)
    (hkey : left.key = right.key) : a = b := by
  have hfirst := findAlias_eq_some_iff_bound.mpr ⟨left, hleft, hkey⟩
  have hsecond := findAlias_of_bound hright
  rw [hfirst] at hsecond
  exact Option.some.inj hsecond

/-- The tables bind the same aliases to the same tracks and states. -/
structure SameBindings (left right : SubscriptionTable) : Prop where
  findByAlias : ∀ a, right.findByAlias a = left.findByAlias a
  states : right.states = left.states
  nextGeneration : right.nextGeneration = left.nextGeneration
  capacity : right.capacity = left.capacity

theorem SameBindings.refl (table : SubscriptionTable) : SameBindings table table :=
  ⟨fun _ => rfl, rfl, rfl, rfl⟩

theorem SameBindings.trans (hfirst : SameBindings first second)
    (hsecond : SameBindings second third) : SameBindings first third :=
  ⟨fun a => (hsecond.findByAlias a).trans (hfirst.findByAlias a),
    hsecond.states.trans hfirst.states,
    hsecond.nextGeneration.trans hfirst.nextGeneration,
    hsecond.capacity.trans hfirst.capacity⟩

theorem SameBindings.findAlias (hsame : SameBindings left right) (track : TrackId) :
    right.findAlias track = left.findAlias track := by
  apply Option.ext
  intro a
  simp only [findAlias_eq_some_iff_bound, hsame.findByAlias]

theorem SameBindings.contains (hsame : SameBindings left right) (track : TrackId) :
    right.contains track = left.contains track := by
  rw [Bool.eq_iff_iff, contains_iff_findAlias, contains_iff_findAlias]
  simp only [hsame.findAlias]

theorem SameBindings.getState (hsame : SameBindings left right) (a : TrackAlias) :
    right.getState a = left.getState a :=
  congrFun hsame.states a

theorem sameBindings_setStream (table : SubscriptionTable) (a : TrackAlias)
    (stream : Option Nat) : SameBindings table (table.setStream a stream) := by
  refine ⟨fun other => ?_, rfl, rfl, rfl⟩
  apply Option.ext
  intro track
  simp only [findByAlias_eq_some_iff, setStream, mem_adjust]
  constructor
  · rintro ⟨entry, ⟨hmem, _⟩ | ⟨old, hmem, _, rfl⟩, halias, htrack⟩
    · exact ⟨entry, hmem, halias, htrack⟩
    · exact ⟨old, hmem, halias, htrack⟩
  · rintro ⟨entry, hmem, halias, htrack⟩
    by_cases hsame : entry.trackAlias = a
    · exact ⟨{ entry with stream := stream }, Or.inr ⟨entry, hmem, hsame, rfl⟩,
        halias, htrack⟩
    · exact ⟨entry, Or.inl ⟨hmem, hsame⟩, halias, htrack⟩

@[simp] theorem findByAlias_modifyState (table : SubscriptionTable) (a b : TrackAlias)
    (update : SubscriptionState → SubscriptionState) :
    (table.modifyState a update).findByAlias b = table.findByAlias b :=
  rfl

@[simp] theorem findAlias_modifyState (table : SubscriptionTable) (a : TrackAlias)
    (update : SubscriptionState → SubscriptionState) (track : TrackId) :
    (table.modifyState a update).findAlias track = table.findAlias track :=
  rfl

@[simp] theorem nextGeneration_modifyState (table : SubscriptionTable) (a : TrackAlias)
    (update : SubscriptionState → SubscriptionState) :
    (table.modifyState a update).nextGeneration = table.nextGeneration :=
  rfl

theorem getState_modifyState (table : SubscriptionTable) (a b : TrackAlias)
    (update : SubscriptionState → SubscriptionState) :
    (table.modifyState a update).getState b =
      if b = a then
        (table.getState b).map fun state =>
          { update state with generation := state.generation }
      else
        table.getState b :=
  rfl

theorem findByAlias_insertEntry {table : SubscriptionTable} {entry : Subscription}
    (halias : entry.trackAlias ∉ keys Subscription.trackAlias table.entries)
    (htrack : entry.key ∉ keys Subscription.key table.entries) (b : TrackAlias) :
    (table.insertEntry entry halias htrack).findByAlias b =
      if b = entry.trackAlias then some entry.trackId else table.findByAlias b := by
  apply Option.ext
  intro track
  rw [findByAlias_eq_some_iff]
  by_cases hb : b = entry.trackAlias
  · subst hb
    simp only [if_true, Option.some.injEq, insertEntry, List.mem_append,
      List.mem_singleton]
    constructor
    · rintro ⟨other, hmem | rfl, hother, rfl⟩
      · exact absurd (List.mem_map.mpr ⟨other, hmem, hother⟩) halias
      · rfl
    · rintro rfl
      exact ⟨entry, Or.inr rfl, rfl, rfl⟩
  · simp only [hb, if_false, findByAlias_eq_some_iff, insertEntry, List.mem_append,
      List.mem_singleton]
    constructor
    · rintro ⟨other, hmem | rfl, hother, htrackId⟩
      · exact ⟨other, hmem, hother, htrackId⟩
      · exact absurd hother.symm hb
    · rintro ⟨other, hmem, hother, htrackId⟩
      exact ⟨other, Or.inl hmem, hother, htrackId⟩

theorem findByAlias_removeAlias (table : SubscriptionTable) (a b : TrackAlias) :
    (table.removeAlias a).findByAlias b =
      if b = a then none else table.findByAlias b := by
  apply Option.ext
  intro track
  rw [findByAlias_eq_some_iff]
  by_cases hb : b = a
  · simp only [hb, if_true, removeAlias, mem_erase]
    constructor
    · rintro ⟨entry, ⟨_, hne⟩, halias, _⟩
      exact absurd halias hne
    · simp
  · simp only [hb, if_false, findByAlias_eq_some_iff, removeAlias, mem_erase]
    constructor
    · rintro ⟨entry, ⟨hmem, _⟩, halias, htrack⟩
      exact ⟨entry, hmem, halias, htrack⟩
    · rintro ⟨entry, hmem, halias, htrack⟩
      exact ⟨entry, ⟨hmem, fun h => hb (halias.symm.trans h)⟩, halias, htrack⟩

theorem getState_removeAlias (table : SubscriptionTable) (a b : TrackAlias) :
    (table.removeAlias a).getState b = if b = a then none else table.getState b :=
  rfl

theorem remove_of_bound {table : SubscriptionTable}
    (hbound : table.findByAlias a = some track) :
    table.remove track = table.removeAlias a := by
  obtain ⟨entry, hfind, rfl⟩ := find_of_findAlias (findAlias_of_bound hbound)
  simp [remove, hfind]

/-- What a subscription can do to a table: nothing, when alias and track are
bound already; else it binds a fresh alias or moves the track to one. -/
theorem add_cases {table table' : SubscriptionTable}
    (hadd : table.add track a = some table') :
    (table.findByAlias a = some track ∧ table' = table) ∨
      (table.findByAlias a = none ∧ table'.findByAlias a = some track ∧
        table'.nextGeneration = table.nextGeneration + 1 ∧
        table'.getState a = some { generation := table.nextGeneration + 1 } ∧
        ∀ b ≠ a,
          (table'.findByAlias b = table.findByAlias b ∧
            table'.getState b = table.getState b) ∨
          ((∃ old, table.findByAlias b = some old ∧ old.key = track.key) ∧
            table'.findByAlias b = none)) := by
  unfold add at hadd
  split at hadd
  · simp at hadd
  split at hadd
  · next holder hholder =>
      left
      obtain ⟨hmem, halias⟩ := mem_of_lookup hholder
      split at hadd
      · simp at hadd
      next hkey =>
      split at hadd
      · simp at hadd
      next hflags =>
      refine ⟨findByAlias_eq_some_iff.mpr ⟨holder, hmem, halias, ?_⟩,
        (Option.some.inj hadd).symm⟩
      exact TrackId.eq_of_key_of_flags (by simpa using hkey) (by simpa using hflags)
  · next hfree =>
      right
      have hnone : table.findByAlias a = none := by simp [findByAlias, hfree]
      refine ⟨hnone, ?_⟩
      split at hadd
      · next entry htrack =>
          obtain ⟨hmem, hkey⟩ := mem_of_lookup htrack
          split at hadd
          · simp at hadd
          next hflags =>
          have htrackId : entry.trackId = track :=
            TrackId.eq_of_key_of_flags hkey (by simpa using hflags)
          obtain rfl := (Option.some.inj hadd)
          refine ⟨?_, rfl, ?_, ?_⟩
          · rw [remap, findByAlias_insertEntry]
            simp [htrackId]
          · simp [remap, insertEntry, getState, removeAlias]
          · intro b hb
            by_cases hold : b = entry.trackAlias
            · right
              refine ⟨⟨entry.trackId, ?_, by rw [htrackId]⟩, ?_⟩
              · exact findByAlias_eq_some_iff.mpr ⟨entry, hmem, hold.symm, rfl⟩
              · have hentry : entry.trackAlias ≠ a := fun h => hb (hold.trans h)
                rw [remap, findByAlias_insertEntry, findByAlias_removeAlias]
                simp [hold, hentry]
            · left
              constructor
              · rw [remap, findByAlias_insertEntry, findByAlias_removeAlias]
                simp [hb, hold]
              · simp [remap, insertEntry, getState, removeAlias, hb, hold]
      · split at hadd
        · obtain rfl := (Option.some.inj hadd)
          refine ⟨?_, rfl, ?_, ?_⟩
          · rw [findByAlias_insertEntry]
            simp
          · simp [insertEntry, getState]
          · intro b hb
            left
            constructor
            · rw [findByAlias_insertEntry]
              simp [hb]
            · simp [insertEntry, getState, hb]
        · simp at hadd

end SubscriptionTable

end Qlinq
