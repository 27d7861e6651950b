import Qlinq.Lib.RecentRing
import Qlinq.AssemblerPool

namespace Qlinq

open Conn (completedObjectsLimit)

/-! The ring of completed objects and the lookup of duplicates in it. -/

def CompletedObject.isObject (completed : CompletedObject) (a : TrackAlias)
    (generation groupId objectId : Nat) : Bool :=
  completed.trackAlias == a && completed.generation == generation &&
    completed.groupId == groupId && completed.objectId == objectId

def CompletedObject.bucket (completed : CompletedObject) : Nat :=
  receiveBucket completed.trackAlias completed.groupId completed.objectId

/-- The ring of completed objects.  An inactive entry is `none`; `chains` holds the buckets
and every entry's `hash_next`. -/
structure CompletedRing where
  objects : List (Option CompletedObject) := List.replicate completedObjectsLimit none
  chains : HashChains := .empty
  cursor : Nat := 0

namespace CompletedRing

def entry (ring : CompletedRing) (index : Nat) : Option CompletedObject :=
  ring.objects.getD index none

/-- The duplicate lookup of `on_receive_datagram_frame`. -/
def isDuplicate (ring : CompletedRing) (a : TrackAlias) (generation groupId objectId : Nat) :
    Bool :=
  (ring.chains.search
    (fun index => (ring.entry index).any (·.isObject a generation groupId objectId))
    (completedObjectsLimit + 1) (ring.chains.head (receiveBucket a groupId objectId))).isSome

/-- Note a completed object in place of the oldest. -/
def push (ring : CompletedRing) (completed : CompletedObject) : CompletedRing :=
  let index := ring.cursor
  let chains :=
    match ring.entry index with
    | none => ring.chains
    | some oldest => (ring.chains.unlink (completedObjectsLimit + 1) oldest.bucket index).1
  { objects := ring.objects.set index (some completed)
    chains := chains.push completed.bucket index
    cursor := (index + 1) % completedObjectsLimit }

def bucketOf (ring : CompletedRing) (index : Nat) : Option Nat :=
  (ring.entry index).map CompletedObject.bucket

/-- Every entry is in the chain of its bucket, and no chain holds anything else. -/
structure Chained (ring : CompletedRing) : Prop where
  length : ring.objects.length = completedObjectsLimit
  cursor : ring.cursor < completedObjectsLimit
  chains : ring.chains.Holds completedObjectsLimit ring.bucketOf

theorem entry_eq_some_iff {ring : CompletedRing} :
    ring.entry index = some completed ↔ ring.objects[index]? = some (some completed) := by
  rw [entry, List.getD_eq_getElem?_getD]
  cases ring.objects[index]? with
  | none => exact iff_of_false nofun nofun
  | some slot => exact Option.some_inj.symm

theorem mem_objects_iff {ring : CompletedRing} :
    some completed ∈ ring.objects ↔ ∃ index, ring.entry index = some completed := by
  rw [List.mem_iff_getElem?]
  simp only [entry_eq_some_iff]

theorem entry_init (index : Nat) : ({} : CompletedRing).entry index = none := by
  change (List.replicate completedObjectsLimit (none : Option CompletedObject)).getD index none = _
  rw [List.getD_eq_getElem?_getD, List.getElem?_replicate]
  split <;> rfl

theorem chained_init : ({} : CompletedRing).Chained where
  length := List.length_replicate
  cursor := by decide
  chains := by
    have hnone : ({} : CompletedRing).bucketOf = fun _ => none := by
      funext index
      rw [bucketOf, entry_init]
      rfl
    rw [hnone]
    exact .empty _

namespace Chained

variable {ring : CompletedRing}

theorem entry_push (hchained : ring.Chained) (completed : CompletedObject) (index : Nat) :
    (ring.push completed).entry index =
      if index = ring.cursor then some completed else ring.entry index := by
  have hcursor : ring.cursor < ring.objects.length := hchained.length ▸ hchained.cursor
  rw [entry, entry, push, List.getD_eq_getElem?_getD, List.getD_eq_getElem?_getD,
    List.getElem?_set]
  by_cases hindex : index = ring.cursor
  · subst hindex
    rw [if_pos rfl, if_pos hcursor, if_pos rfl]
    rfl
  · rw [if_neg (Ne.symm hindex), if_neg hindex]

theorem push (hchained : ring.Chained) (completed : CompletedObject) :
    (ring.push completed).Chained where
  length := List.length_set.trans hchained.length
  cursor := Nat.mod_lt _ (by decide)
  chains := by
    -- Out of the chain of the oldest entry first, into that of the new one then.
    have hfree : ∀ chains : HashChains,
        chains.Holds completedObjectsLimit (Function.update ring.bucketOf ring.cursor none) →
        (chains.push completed.bucket ring.cursor).Holds completedObjectsLimit
          (ring.push completed).bucketOf := by
      intro chains hholds
      have hpushed := hholds.push hchained.cursor (Function.update_self ..) completed.bucket
      rw [Function.update_idem] at hpushed
      have hbuckets : (ring.push completed).bucketOf =
          Function.update ring.bucketOf ring.cursor (some completed.bucket) := by
        funext index
        rw [bucketOf, hchained.entry_push]
        by_cases hindex : index = ring.cursor
        · subst hindex
          rw [if_pos rfl, Function.update_self]
          rfl
        · rw [if_neg hindex, Function.update_of_ne hindex]
          rfl
      exact hbuckets ▸ hpushed
    cases hentry : ring.entry ring.cursor with
    | none =>
        have hsame : Function.update ring.bucketOf ring.cursor none = ring.bucketOf := by
          apply Function.update_eq_self_iff.mpr
          rw [bucketOf, hentry]
          rfl
        have hnew := hfree ring.chains (hsame.symm ▸ hchained.chains)
        simpa only [CompletedRing.push, hentry] using hnew
    | some oldest =>
        have hbucket : ring.bucketOf ring.cursor = some oldest.bucket := by
          rw [bucketOf, hentry]
          rfl
        have hunlinked := (hchained.chains.unlink hbucket
          (Nat.le_succ completedObjectsLimit)).2
        have hnew := hfree _ hunlinked
        simpa only [CompletedRing.push, hentry] using hnew

/-- The lookup finds what a search of the whole ring finds. -/
theorem isDuplicate_eq (hchained : ring.Chained) (a : TrackAlias)
    (generation groupId objectId : Nat) :
    ring.isDuplicate a generation groupId objectId =
      ring.objects.any fun entry => entry.any (·.isObject a generation groupId objectId) := by
  rw [Bool.eq_iff_iff, List.any_eq_true, isDuplicate]
  constructor
  · intro hfound
    obtain ⟨index, hfound⟩ := Option.isSome_iff_exists.mp hfound
    obtain ⟨-, hmatches⟩ := hchained.chains.search_eq_some _
      (Nat.lt_succ_self completedObjectsLimit) hfound
    obtain ⟨completed, hentry, hobject⟩ := (Option.any_eq_true _ _).mp hmatches
    exact ⟨some completed, mem_objects_iff.mpr ⟨index, hentry⟩, hobject⟩
  · rintro ⟨slot, hmem, hmatches⟩
    obtain ⟨completed, rfl, hobject⟩ := (Option.any_eq_true _ _).mp hmatches
    obtain ⟨index, hentry⟩ := mem_objects_iff.mp hmem
    have hidentity := hobject
    simp only [CompletedObject.isObject, Bool.and_eq_true, beq_iff_eq] at hidentity
    obtain ⟨⟨⟨halias, -⟩, hgroup⟩, hid⟩ := hidentity
    have hbucket : ring.bucketOf index = some (receiveBucket a groupId objectId) := by
      rw [bucketOf, hentry, ← halias, ← hgroup, ← hid]
      rfl
    cases hfound : ring.chains.search
        (fun index => (ring.entry index).any (·.isObject a generation groupId objectId))
        (completedObjectsLimit + 1) (ring.chains.head (receiveBucket a groupId objectId)) with
    | some found => rfl
    | none =>
        have hmissed := hchained.chains.search_eq_none _
          (Nat.lt_succ_self completedObjectsLimit) hfound index hbucket
        rw [hentry, Option.any_some, hobject] at hmissed
        cases hmissed

end Chained

/-- The ring holds these objects, the newest first, and nothing else. -/
structure Recent (ring : CompletedRing) (completed : List CompletedObject) : Prop where
  entry_eq : ∀ age < completedObjectsLimit,
    ring.entry ((ring.cursor + completedObjectsLimit - 1 - age) % completedObjectsLimit) =
      completed[age]?
  length_le : completed.length ≤ completedObjectsLimit

variable {ring : CompletedRing} {completed : List CompletedObject}

theorem Recent.holds (hrecent : ring.Recent completed) :
    RecentRing.Holds completedObjectsLimit ring.cursor ring.entry none (completed.map some) := by
  intro age hage
  rw [List.getElem?_map, RecentRing.position, hrecent.entry_eq age hage]
  cases completed[age]? <;> rfl

theorem Recent.push (hrecent : ring.Recent completed) (hchained : ring.Chained)
    (newest : CompletedObject) :
    (ring.push newest).Recent ((newest :: completed).take completedObjectsLimit) where
  entry_eq age hage := by
    have hwritten : (ring.push newest).entry ring.cursor = some newest := by
      rw [hchained.entry_push, if_pos rfl]
    have hkept : ∀ index ≠ ring.cursor, (ring.push newest).entry index = ring.entry index := by
      intro index hindex
      rw [hchained.entry_push, if_neg hindex]
    have hentry := hrecent.holds.push hchained.cursor hwritten hkept age hage
    rw [← List.map_cons, List.getElem?_map] at hentry
    rw [List.getElem?_take_of_lt hage]
    refine hentry.trans ?_
    cases (newest :: completed)[age]? <;> rfl
  length_le := List.length_take_le _ _

/-- The lookup is one in the list of recent objects. -/
theorem Recent.isDuplicate_eq (hrecent : ring.Recent completed) (hchained : ring.Chained)
    (a : TrackAlias) (generation groupId objectId : Nat) :
    ring.isDuplicate a generation groupId objectId =
      completed.any (·.isObject a generation groupId objectId) := by
  rw [hchained.isDuplicate_eq, Bool.eq_iff_iff, List.any_eq_true, List.any_eq_true]
  have hcursor := hchained.cursor
  constructor
  · rintro ⟨slot, hmem, hmatches⟩
    obtain ⟨object, rfl, hobject⟩ := (Option.any_eq_true _ _).mp hmatches
    obtain ⟨index, hentry⟩ := mem_objects_iff.mp hmem
    have hindex : index < completedObjectsLimit := by
      rw [← hchained.length]
      exact (List.getElem?_eq_some_iff.mp (entry_eq_some_iff.mp hentry)).1
    obtain ⟨age, hage, hwrap⟩ := RecentRing.exists_position hcursor hindex
    rw [RecentRing.position] at hwrap
    have hthere := hrecent.entry_eq age hage
    rw [hwrap, hentry] at hthere
    exact ⟨object, List.mem_of_getElem? hthere.symm, hobject⟩
  · rintro ⟨object, hmem, hobject⟩
    obtain ⟨age, hage⟩ := List.mem_iff_getElem?.mp hmem
    have hlt : age < completedObjectsLimit :=
      Nat.lt_of_lt_of_le (List.getElem?_eq_some_iff.mp hage).1 hrecent.length_le
    have hthere := hrecent.entry_eq age hlt
    rw [hage] at hthere
    exact ⟨some object, mem_objects_iff.mpr ⟨_, hthere⟩, hobject⟩

end CompletedRing

end Qlinq
