import Qlinq.Service
import Qlinq.Tells

namespace Qlinq

/-! Which streams an endpoint has: the table of its streams agrees with the subscriptions that
its peers are told of, and no name is open twice. -/

/-- A stream without its counts. -/
structure StreamKey where
  id : Nat
  profile : SubscribedStream
  direction : StreamDirection
  state : StreamState
  active : Bool
  deriving DecidableEq, Repr

namespace StreamKey

def close (key : StreamKey) : StreamKey :=
  { key with state := .closed, active := false }

def isSubscribed (key : StreamKey) : Bool :=
  key.active && key.direction == .subscribe

/-- The subscriptions of a table. -/
def subscribed (keys : List StreamKey) : List SubscribedStream :=
  (keys.filter (·.isSubscribed)).map (·.profile)

/-- Two streams of which only one may be open. -/
def Rivals (first second : StreamKey) : Prop :=
  first.direction = second.direction ∧ first.profile.type = second.profile.type ∧
    first.profile.name = second.profile.name

/-- The streams are numbered, open as long as they are active, and no two that are have the
same direction, type and name. -/
structure Table (keys : List StreamKey) : Prop where
  ids : keys.map (·.id) = (List.range keys.length).reverse
  opened_iff : ∀ key ∈ keys, key.state = .opened ↔ key.active = true
  distinct : keys.Pairwise fun first second =>
    first.active = true → second.active = true → ¬ Rivals first second

variable {keys : List StreamKey} {profile : SubscribedStream} {direction : StreamDirection}

theorem table_nil : Table [] :=
  ⟨rfl, fun _ hmem => absurd hmem List.not_mem_nil, List.Pairwise.nil⟩

theorem Table.nodup (htable : Table keys) : (keys.map (·.id)).Nodup := by
  rw [htable.ids]
  exact List.nodup_reverse.mpr List.nodup_range

theorem Table.add (htable : Table keys)
    (hfree : ∀ key ∈ keys, key.active = true →
      ¬ (key.direction = direction ∧ key.profile.type = profile.type ∧
        key.profile.name = profile.name)) :
    Table ({ id := keys.length, profile := profile, direction := direction, state := .opened,
             active := true } :: keys) where
  ids := by
    rw [List.map_cons, htable.ids, List.length_cons, List.range_succ, List.reverse_append]
    rfl
  opened_iff := by
    intro key hkey
    cases hkey with
    | head => simp
    | tail _ hkey => exact htable.opened_iff key hkey
  distinct := by
    refine List.pairwise_cons.mpr ⟨fun key hkey _ hactive hrivals => ?_, htable.distinct⟩
    obtain ⟨hdirection, htype, hname⟩ := hrivals
    exact hfree key hkey hactive ⟨hdirection.symm, htype.symm, hname.symm⟩

/-- Closing streams leaves a table. -/
theorem Table.close (htable : Table keys) (closes : StreamKey → Bool) :
    Table (keys.map fun key => if closes key then key.close else key) where
  ids := by
    have hid : (fun key : StreamKey => key.id) ∘
        (fun key => if closes key then key.close else key) = (·.id) := by
      funext key
      simp only [Function.comp]
      split
      · rfl
      · rfl
    rw [List.map_map, hid, htable.ids, List.length_map]
  opened_iff := by
    intro key hkey
    obtain ⟨before, hbefore, rfl⟩ := List.mem_map.mp hkey
    split
    · simp [StreamKey.close]
    · exact htable.opened_iff before hbefore
  distinct := by
    refine List.pairwise_map.mpr (htable.distinct.imp ?_)
    intro first second hdistinct
    split
    · intro hactive
      cases hactive
    · split
      · intro _ hactive
        cases hactive
      · exact hdistinct

/-- Closing one subscription takes its profile, and closing any other stream none. -/
theorem Table.subscribed_close (htable : Table keys) (hkey : key ∈ keys)
    (hactive : key.active = true) :
    subscribed (keys.map fun other => if other.id = key.id then other.close else other) =
      if key.isSubscribed then (subscribed keys).erase key.profile else subscribed keys := by
  have hnodup := htable.nodup
  have hdistinct := htable.distinct
  clear htable
  induction keys with
  | nil => cases hkey
  | cons first rest ih =>
      rw [List.map_cons, List.nodup_cons] at hnodup
      obtain ⟨hfresh, hnodup⟩ := hnodup
      obtain ⟨hfirst, hdistinct⟩ := List.pairwise_cons.mp hdistinct
      cases hkey with
      | head =>
          have hrest : (rest.map fun other => if other.id = key.id then other.close else other) =
              rest := by
            refine (List.map_congr_left fun other hother => ?_).trans (List.map_id rest)
            exact if_neg fun heq => hfresh (List.mem_map.mpr ⟨other, hother, heq⟩)
          simp only [subscribed, List.map_cons, hrest, ↓reduceIte]
          rw [List.filter_cons_of_neg (by simp [StreamKey.close, isSubscribed])]
          cases hsubscribed : key.isSubscribed with
          | false => simp [hsubscribed]
          | true => simp [hsubscribed]
      | tail _ hmem =>
          have hother : first.id ≠ key.id := fun heq =>
            hfresh (List.mem_map.mpr ⟨key, hmem, heq.symm⟩)
          have hrest := ih hmem hnodup hdistinct
          unfold subscribed at hrest ⊢
          rw [List.map_cons, if_neg hother, List.filter_cons, List.filter_cons]
          split
          · next hsubscribed =>
              rw [List.map_cons, hrest, List.map_cons]
              split
              · next hkeyed =>
                  have hprofile : first.profile ≠ key.profile := by
                    intro heq
                    simp only [isSubscribed, Bool.and_eq_true, beq_iff_eq] at hsubscribed hkeyed
                    exact hfirst key hmem hsubscribed.1 hactive
                      ⟨hsubscribed.2.trans hkeyed.2.symm, congrArg (·.type) heq,
                        congrArg (·.name) heq⟩
                  rw [List.erase_cons_tail (by simpa using hprofile)]
              · rfl
          · exact hrest

end StreamKey

namespace QlinqStream

def key (stream : QlinqStream) : StreamKey where
  id := stream.id
  profile := stream.profile
  direction := stream.direction
  state := stream.state
  active := stream.active

theorem key_send (stream : QlinqStream) (result : SendResult) :
    (stream.send result).key = stream.key := by
  unfold send
  extract_lets counted
  have hcounted : counted.key = stream.key := by
    unfold counted
    split
    · rfl
    · rfl
  split
  · exact hcounted
  · exact hcounted

theorem key_refresh (stream : QlinqStream) (index : Nat) (callocs : Callocs) (writable : Bool)
    (events : EventList) :
    (stream.refresh index callocs writable events).1.key = stream.key := by
  unfold refresh
  extract_lets becameWritable seen
  split
  · rfl
  split
  split
  · rfl
  · rfl

end QlinqStream

theorem keys_refreshStreams (index : Nat) (callocs : Callocs) (ready : Nat → Bool)
    (streams : List QlinqStream) (events : EventList) :
    (refreshStreams index callocs ready streams events).1.map (·.key) = streams.map (·.key) := by
  induction streams generalizing events with
  | nil => rfl
  | cons stream rest ih =>
      simp only [refreshStreams, List.map_cons, ih]
      split
      · rw [QlinqStream.key_refresh]
      · rfl

namespace ServedEndpoint

def keys (e : ServedEndpoint) : List StreamKey := e.streams.map (·.key)

theorem keys_changeStream (e : ServedEndpoint) (id : Nat) {change : QlinqStream → QlinqStream}
    (hkey : ∀ stream, (change stream).key = stream.key) :
    (e.changeStream id change).keys = e.keys := by
  simp only [keys, changeStream, List.map_map]
  apply List.map_congr_left
  intro stream _
  simp only [Function.comp]
  split
  · exact hkey stream
  · rfl

theorem keys_closeStream (e : ServedEndpoint) (id : Nat) :
    (e.changeStream id (·.close)).keys =
      e.keys.map fun key => if key.id = id then key.close else key := by
  simp only [keys, changeStream, List.map_map]
  apply List.map_congr_left
  intro stream _
  change (if stream.id = id then stream.close else stream).key =
    if stream.id = id then stream.key.close else stream.key
  split
  · rfl
  · rfl

theorem keys_closeStreams (e : ServedEndpoint) :
    e.closeStreams.keys = e.keys.map fun key => if true then key.close else key := by
  simp only [keys, closeStreams, List.map_map]
  exact List.map_congr_left fun _ _ => rfl

theorem keys_addStream (e : ServedEndpoint) (profile : SubscribedStream)
    (direction : StreamDirection) :
    (e.addStream profile direction).keys =
      { id := e.keys.length, profile := profile, direction := direction, state := .opened,
        active := true } :: e.keys := by
  simp [keys, addStream, QlinqStream.key]

/-- A name that is not held is free. -/
theorem free_of_not_holds {e : ServedEndpoint} (hholds : e.holds profile direction = false) :
    ∀ key ∈ e.keys, key.active = true →
      ¬ (key.direction = direction ∧ key.profile.type = profile.type ∧
        key.profile.name = profile.name) := by
  rintro key hkey hactive ⟨hdirection, htype, hname⟩
  obtain ⟨stream, hstream, rfl⟩ := List.mem_map.mp hkey
  rw [holds, List.any_eq_false] at hholds
  apply hholds stream hstream
  simp only [Bool.and_eq_true, beq_iff_eq]
  exact ⟨⟨⟨hactive, hdirection⟩, htype⟩, hname⟩

theorem findStream_mem {e : ServedEndpoint} (hfind : e.findStream track direction = some stream) :
    stream ∈ e.streams ∧ stream.active = true ∧ stream.direction = direction ∧
      stream.profile.isFor track = true := by
  have hholds := List.find?_some hfind
  simp only [Bool.and_eq_true, beq_iff_eq] at hholds
  exact ⟨List.mem_of_find?_eq_some hfind, hholds.1.1, hholds.1.2, hholds.2⟩

theorem isSome_findStream (e : ServedEndpoint) (track : TrackId) :
    (e.findStream track .subscribe).isSome = (StreamKey.subscribed e.keys).any (·.isFor track) := by
  rw [Bool.eq_iff_iff, findStream, List.find?_isSome, List.any_eq_true]
  constructor
  · rintro ⟨stream, hstream, hfound⟩
    simp only [Bool.and_eq_true] at hfound
    refine ⟨stream.profile, List.mem_map.mpr ⟨stream.key, ?_, rfl⟩, hfound.2⟩
    exact List.mem_filter.mpr ⟨List.mem_map_of_mem hstream,
      by simpa [StreamKey.isSubscribed, QlinqStream.key] using hfound.1⟩
  · rintro ⟨profile, hprofile, hfor⟩
    obtain ⟨key, hkey, rfl⟩ := List.mem_map.mp hprofile
    obtain ⟨hkey, hsubscribed⟩ := List.mem_filter.mp hkey
    obtain ⟨stream, hstream, rfl⟩ := List.mem_map.mp hkey
    refine ⟨stream, hstream, ?_⟩
    rw [Bool.and_eq_true]
    exact ⟨hsubscribed, hfor⟩

end ServedEndpoint

end Qlinq
