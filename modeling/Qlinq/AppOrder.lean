import Qlinq.AppReceive

namespace Qlinq

/-! The file bridge writes the objects of a track in the order of their ids, each once,
whatever the order they arrive in. -/

namespace SequenceWindow

variable {α : Type} {window : SequenceWindow α}

/-- How many items wait. -/
def count (window : SequenceWindow α) : Nat := window.total fun _ => 1

theorem count_le_size (window : SequenceWindow α) : window.count ≤ window.size := by
  have hle : Totals.total (fun slot : Option (Nat × α) => slot.elim 0 fun _ => 1) window.slots ≤
      Totals.total (fun _ => 1) window.slots := by
    apply Totals.total_le_total
    intro slot _
    cases slot <;> simp
  simpa [Totals.total, count, total, size] using hle

end SequenceWindow

namespace App

variable {track : TrackId} {items : Nat → Option Bytes}

/-- The bytes of an object's records. -/
def recordBytes (data : Bytes) : Bytes := (daemonRecords data).flatten

/-- The step gave these bytes to the file, if there is one, and left the window alone. -/
structure Wrote (app : App) (data : Bytes) (after : App) : Prop where
  output : after.output = app.output.map (· ++ data)
  reorder : after.reorder = app.reorder
  reorderBytes : after.reorderBytes = app.reorderBytes

/-- The step left the window alone. -/
structure Aside (app after : App) : Prop where
  track : after.track = app.track
  reorder : after.reorder = app.reorder
  reorderBytes : after.reorderBytes = app.reorderBytes
  reorderInitialized : after.reorderInitialized = app.reorderInitialized
  reorderGroupId : after.reorderGroupId = app.reorderGroupId
  failed : after.failed = app.failed

@[refl] theorem Aside.refl (app : App) : Aside app app := ⟨rfl, rfl, rfl, rfl, rfl, rfl⟩

theorem Aside.trans {app middle after : App} (hfirst : Aside app middle)
    (hsecond : Aside middle after) : Aside app after where
  track := hsecond.track.trans hfirst.track
  reorder := hsecond.reorder.trans hfirst.reorder
  reorderBytes := hsecond.reorderBytes.trans hfirst.reorderBytes
  reorderInitialized := hsecond.reorderInitialized.trans hfirst.reorderInitialized
  reorderGroupId := hsecond.reorderGroupId.trans hfirst.reorderGroupId
  failed := hsecond.failed.trans hfirst.failed

/-! ### Writing one object -/

theorem aside_fwrite (app : App) (env : AppEnv) (data : Bytes) :
    Aside app (app.fwrite env data).1 := by
  unfold fwrite
  split
  · rfl
  · exact ⟨rfl, rfl, rfl, rfl, rfl, rfl⟩

theorem output_fwrite {app after : App} {env : AppEnv} {data : Bytes}
    (hfwrite : app.fwrite env data = (after, true)) :
    after.output = app.output.map (· ++ data) := by
  unfold fwrite at hfwrite
  split at hfwrite
  · next hnone =>
      cases hfwrite
      simp [hnone]
  · next file hsome =>
      obtain ⟨rfl, hwhole⟩ := Prod.mk.inj hfwrite
      have htaken : data.take (env.fwrite app.fwrites) = data := by
        rw [beq_iff_eq, List.length_take] at hwhole
        exact List.take_of_length_le (by omega)
      simp [hsome, htaken]

theorem aside_countRecord (app : App) (size : Nat) : Aside app (app.countRecord size) :=
  ⟨rfl, rfl, rfl, rfl, rfl, rfl⟩

theorem aside_writeRecords (env : AppEnv) (app : App) (data : Bytes) :
    Aside app (app.writeRecords env data).1 := by
  fun_induction writeRecords env app data with
  | case1 app => rfl
  | case2 app byte => rfl
  | case3 app high low rest hmalformed => rfl
  | case4 app high low rest size hsize after hfwrite =>
      have haside := aside_fwrite app env (rest.take size)
      rwa [hfwrite] at haside
  | case5 app high low rest size hsize after hfwrite ih =>
      have haside := aside_fwrite app env (rest.take size)
      rw [hfwrite] at haside
      exact (haside.trans (aside_countRecord after size)).trans ih

theorem output_writeRecords {env : AppEnv} {app : App} {data : Bytes} {after : App}
    (hwritten : app.writeRecords env data = (after, true)) :
    after.output = app.output.map (· ++ recordBytes data) := by
  fun_induction writeRecords env app data generalizing after with
  | case1 app =>
      cases hwritten
      cases app.output <;> simp [recordBytes, daemonRecords]
  | case2 app byte => cases hwritten
  | case3 app high low rest size => cases hwritten
  | case4 app high low rest size failed => cases hwritten
  | case5 app high low rest size hsize written =>
      rename_i hfwrite ih
      have hrecord : recordBytes (high :: low :: rest) =
          rest.take size ++ recordBytes (rest.drop size) := by
        rw [recordBytes, daemonRecords, if_neg (fun hshort => hsize (.inr hshort))]
        rfl
      rw [ih hwritten, hrecord]
      change (written.output).map _ = _
      rw [output_fwrite hfwrite, Option.map_map]
      congr 1
      funext file
      simp

theorem aside_writeData (app : App) (env : AppEnv) (track : TrackId) (data : Bytes) :
    Aside app (app.writeData env track data).1 := by
  unfold writeData
  split
  · exact aside_writeRecords env app data
  · split
    · exact aside_countRecord app _
    · have haside := aside_fwrite app env data
      split
      · next after hfwrite => rwa [hfwrite] at haside
      · next after hfwrite =>
          rw [hfwrite] at haside
          exact haside.trans (aside_countRecord after _)

theorem aside_writePayload (app : App) (env : AppEnv) (track : TrackId) (data : Bytes) :
    Aside app (app.writePayload env track data).1 := by
  have haside := aside_writeData app env track data
  unfold writePayload
  split
  · next after hwritten => rwa [hwritten] at haside
  · next after hwritten =>
      rw [hwritten] at haside
      refine haside.trans ?_
      dsimp only
      split
      · exact ⟨rfl, rfl, rfl, rfl, rfl, rfl⟩
      · rfl

theorem output_writePayload {app after : App} {env : AppEnv} (hgrouped : grouped track = true)
    (hwritten : app.writePayload env track data = (after, true)) :
    after.output = app.output.map (· ++ recordBytes data) := by
  unfold writePayload at hwritten
  split at hwritten
  · cases hwritten
  · next middle hdata =>
      rw [writeData, if_pos hgrouped] at hdata
      rw [← output_writeRecords hdata]
      obtain ⟨rfl, _⟩ := Prod.mk.inj hwritten
      split <;> rfl

/-! ### The window -/

/-- `items` are the objects that were taken, by id: those below the next one were written and
the others wait. -/
structure Sequenced (app : App) (items : Nat → Option Bytes) : Prop where
  size : app.reorder.size = appReorderObjects
  holds : app.reorder.Holds fun id => if app.reorder.next ≤ id then items id else none
  written : ∀ id < app.reorder.next, (items id).isSome
  bytes : app.reorderBytes = app.reorder.total List.length
  budget : app.reorderBytes ≤ appReorderMaxBytes

theorem Sequenced.aside {app after : App} (hsequenced : Sequenced app items)
    (haside : Aside app after) : Sequenced after items where
  size := by
    rw [haside.reorder]
    exact hsequenced.size
  holds := by
    rw [haside.reorder]
    exact hsequenced.holds
  written := by
    rw [haside.reorder]
    exact hsequenced.written
  bytes := by
    rw [haside.reorder, haside.reorderBytes]
    exact hsequenced.bytes
  budget := by
    rw [haside.reorderBytes]
    exact hsequenced.budget

theorem sequenced_release {app : App} (hsequenced : Sequenced app items)
    (hfront : app.reorder.front = some data) (hroom : app.reorder.next + 1 < objectIds) :
    Sequenced (app.release data.length) items ∧
      (app.release data.length).reorder.next = app.reorder.next + 1 ∧
      (app.release data.length).reorder.count + 1 = app.reorder.count ∧
      items app.reorder.next = some data := by
  have hitem : items app.reorder.next = some data := by
    rw [hsequenced.holds.front_eq, if_pos (le_refl _)] at hfront
    exact hfront
  have hnext : (app.release data.length).reorder.next = app.reorder.next + 1 :=
    Nat.mod_eq_of_lt hroom
  have htotal := SequenceWindow.total_leave List.length objectIds hfront
  have hheld : (fun id => if (app.release data.length).reorder.next ≤ id then items id else none) =
      Function.update (fun id => if app.reorder.next ≤ id then items id else none)
        app.reorder.next none := by
    funext id
    rw [hnext]
    by_cases hid : id = app.reorder.next
    · subst hid
      simp
    · rw [Function.update_of_ne hid]
      by_cases hle : app.reorder.next ≤ id
      · rw [if_pos hle, if_pos (by omega)]
      · rw [if_neg hle, if_neg (by omega)]
  refine ⟨⟨?_, ?_, ?_, ?_, ?_⟩, hnext, ?_, hitem⟩
  · rw [← hsequenced.size]
    exact SequenceWindow.size_leave _ _
  · rw [hheld]
    exact hsequenced.holds.leave hroom
  · intro id hid
    rw [hnext] at hid
    by_cases hlast : id = app.reorder.next
    · rw [hlast, hitem]
      rfl
    · exact hsequenced.written id (by omega)
  · have hbytes := hsequenced.bytes
    simp only [release]
    omega
  · have hbudget := hsequenced.budget
    simp only [release]
    omega
  · exact SequenceWindow.total_leave (fun _ => 1) objectIds hfront

/-- The records of the objects below `next`. -/
def recordsBelow (items : Nat → Option Bytes) (next : Nat) : Bytes :=
  (List.range next).flatMap fun id => (items id).elim [] recordBytes

theorem recordsBelow_succ {items : Nat → Option Bytes} (hitem : items next = some data) :
    recordsBelow items (next + 1) = recordsBelow items next ++ recordBytes data := by
  simp [recordsBelow, List.range_succ, hitem]

/-- The file was given the records of the objects that were written. -/
def InOrder (file : Bytes) (items : Nat → Option Bytes) (app : App) : Prop :=
  app.output = some (file ++ recordsBelow items app.reorder.next)

/-- The loop writes what it takes from the window, until the next object is missing. -/
theorem drain_spec {env : AppEnv} (file : Bytes) (hgrouped : grouped track = true)
    {turns : Nat} {app : App} (hsequenced : Sequenced app items)
    (hturns : app.reorder.count ≤ turns)
    (hroom : app.reorder.next + app.reorder.count < objectIds) :
    let drained := app.drain env track turns
    Sequenced drained.1 items ∧
      drained.1.reorder.next + drained.1.reorder.count = app.reorder.next + app.reorder.count ∧
      drained.1.track = app.track ∧ drained.1.failed = app.failed ∧
      drained.1.reorderInitialized = app.reorderInitialized ∧
      drained.1.reorderGroupId = app.reorderGroupId ∧
      (drained.2 = true → drained.1.reorder.front = none ∧
        (InOrder file items app → InOrder file items drained.1)) := by
  induction turns generalizing app with
  | zero =>
      have hnone : app.reorder.front = none := by
        cases hfront : app.reorder.front with
        | none => rfl
        | some data =>
            have hcount := SequenceWindow.total_leave (fun _ => 1) objectIds hfront
            unfold SequenceWindow.count at hturns
            omega
      exact ⟨hsequenced, rfl, rfl, rfl, rfl, rfl, fun _ => ⟨hnone, id⟩⟩
  | succ turns ih =>
      rw [drain]
      split
      · next hnone => exact ⟨hsequenced, rfl, rfl, rfl, rfl, rfl, fun _ => ⟨hnone, id⟩⟩
      · next data hfront =>
          have haside := aside_writePayload app env track data
          split
          · next after hwritten =>
              rw [hwritten] at haside
              refine ⟨hsequenced.aside haside, ?_, haside.track, haside.failed,
                haside.reorderInitialized, haside.reorderGroupId, ?_⟩
              · rw [haside.reorder]
              · intro hok
                cases hok
          · next after hwritten =>
              rw [hwritten] at haside
              dsimp only at haside ⊢
              have hafter := hsequenced.aside haside
              have hfront' : after.reorder.front = some data := by
                rw [haside.reorder]
                exact hfront
              have hcount : 1 ≤ app.reorder.count := by
                have htotal := SequenceWindow.total_leave (fun _ => 1) objectIds hfront
                unfold SequenceWindow.count
                omega
              obtain ⟨hreleased, hnext, hless, hitem⟩ := sequenced_release hafter hfront'
                (by rw [haside.reorder]; omega)
              rw [haside.reorder] at hnext hless hitem
              obtain ⟨hseq, hsum, htrack, hfailed, hinit, hgroup, hok⟩ :=
                ih hreleased (by omega) (by omega)
              refine ⟨hseq, by omega, htrack.trans haside.track, hfailed.trans haside.failed,
                hinit.trans haside.reorderInitialized, hgroup.trans haside.reorderGroupId, ?_⟩
              intro htrue
              obtain ⟨hempty, horder⟩ := hok htrue
              refine ⟨hempty, fun hinorder => horder ?_⟩
              have houtput := output_writePayload hgrouped hwritten
              unfold InOrder at hinorder ⊢
              rw [hnext, recordsBelow_succ hitem]
              change after.output = _
              rw [houtput, hinorder]
              simp

/-! ### One object -/

/-- `items'` are the items with the object, unless they had its id before. -/
def Gains (object : MoqObject) (items items' : Nat → Option Bytes) : Prop :=
  ((items object.objectId).isSome ∧ items' = items) ∨
    (items object.objectId = none ∧
      items' = Function.update items object.objectId (some object.data))

theorem recordsBelow_update {next objectId : Nat} (hle : next ≤ objectId)
    (items : Nat → Option Bytes) (data : Option Bytes) :
    recordsBelow (Function.update items objectId data) next = recordsBelow items next := by
  unfold recordsBelow
  refine List.flatMap_congr fun other hother => ?_
  have hlt : other < next := List.mem_range.mp hother
  rw [Function.update_of_ne (by omega)]

theorem sequenced_storeObject {app : App} {object : MoqObject} (hsequenced : Sequenced app items)
    (hnear : app.reorder.Near object.objectId) (hfree : items object.objectId = none)
    (hbytes : object.size ≤ appReorderMaxBytes - app.reorderBytes) :
    Sequenced (app.storeObject object)
        (Function.update items object.objectId (some object.data)) ∧
      (app.storeObject object).reorder.count = app.reorder.count + 1 := by
  have hnext : app.reorder.next ≤ object.objectId := hnear.1
  have hslot := hsequenced.holds.slot_free hnear (by rw [if_pos hnext, hfree])
  have hheld : (fun id => if app.reorder.next ≤ id then
        Function.update items object.objectId (some object.data) id else none) =
      Function.update (fun id => if app.reorder.next ≤ id then items id else none)
        object.objectId (some object.data) := by
    funext id
    by_cases hid : id = object.objectId
    · subst hid
      simp [hnext]
    · simp [Function.update_of_ne hid]
  refine ⟨⟨?_, ?_, ?_, ?_, ?_⟩, SequenceWindow.total_put (fun _ => 1) hslot object.data⟩
  · rw [← hsequenced.size]
    exact SequenceWindow.size_put _ _ _
  · change (app.reorder.put object.objectId object.data).Holds
      fun id => if app.reorder.next ≤ id then _ else none
    rw [hheld]
    exact hsequenced.holds.put hnear (by rw [if_pos hnext, hfree]) object.data
  · intro id hid
    have hlt : id < app.reorder.next := hid
    rw [Function.update_of_ne (by omega)]
    exact hsequenced.written id hlt
  · have htotal := SequenceWindow.total_put List.length hslot object.data
    have hold := hsequenced.bytes
    simp only [storeObject, MoqObject.size]
    omega
  · have hbudget := hsequenced.budget
    simp only [storeObject]
    omega

/-- The window and the group after an object was offered. -/
structure Offered (object : MoqObject) (app : App) (items : Nat → Option Bytes)
    (done : App × Bool) (items' : Nat → Option Bytes) : Prop where
  sequenced : Sequenced done.1 items'
  counted : done.1.reorder.next + done.1.reorder.count ≤
    app.reorder.next + app.reorder.count + 1
  track : done.1.track = app.track
  failed : done.1.failed = app.failed
  initialized : done.1.reorderInitialized = true
  group : app.reorderInitialized = true → done.1.reorderGroupId = app.reorderGroupId
  accepted : done.2 = true → object.groupId = done.1.reorderGroupId ∧
    Gains object items items' ∧
    (app.reorder.front = none → done.1.reorder.front = none) ∧
    ∀ file, InOrder file items app → InOrder file items' done.1

theorem startGroup_eq {app : App}
    (hfresh : app.reorderInitialized = false → app.reorder.next = 0) (groupId : Nat) :
    (app.startGroup groupId).reorder = app.reorder ∧
      (app.startGroup groupId).reorderBytes = app.reorderBytes ∧
      (app.startGroup groupId).output = app.output ∧
      (app.startGroup groupId).track = app.track ∧
      (app.startGroup groupId).failed = app.failed ∧
      (app.startGroup groupId).reorderInitialized = true ∧
      (app.reorderInitialized = true →
        (app.startGroup groupId).reorderGroupId = app.reorderGroupId) := by
  unfold startGroup
  split
  · next hinit => exact ⟨rfl, rfl, rfl, rfl, rfl, hinit, fun _ => rfl⟩
  · next hinit =>
      have hnext := hfresh (by simpa using hinit)
      refine ⟨?_, rfl, rfl, rfl, rfl, rfl, fun h => absurd h hinit⟩
      simp [← hnext]

theorem offered_writeOrdered {app : App} {object : MoqObject}
    (hsequenced : Sequenced app items)
    (hfresh : app.reorderInitialized = false → app.reorder.next = 0)
    (hroom : app.reorder.next + app.reorder.count + 1 < objectIds)
    (hgrouped : grouped object.trackId = true) (env : AppEnv) :
    ∃ items', Offered object app items (app.writeOrdered env object) items' := by
  obtain ⟨hreorder, hbytes, houtput, htrack, hfailed, hinit, hgroup⟩ :=
    startGroup_eq hfresh object.groupId
  unfold writeOrdered
  dsimp only
  generalize app.startGroup object.groupId = started at *
  have hstarted : Sequenced started items := by
    constructor
    · rw [hreorder]
      exact hsequenced.size
    · rw [hreorder]
      exact hsequenced.holds
    · rw [hreorder]
      exact hsequenced.written
    · rw [hreorder, hbytes]
      exact hsequenced.bytes
    · rw [hbytes]
      exact hsequenced.budget
  -- An object that is not stored leaves everything but the group as it was.
  have hkept : ∀ ok : Bool, (ok = true → object.groupId = started.reorderGroupId ∧
      (items object.objectId).isSome) → Offered object app items (started, ok) items := by
    intro ok hok
    refine ⟨hstarted, ?_, htrack, hfailed, hinit, hgroup, fun htrue => ?_⟩
    · rw [hreorder]
      omega
    · obtain ⟨hsame, hold⟩ := hok htrue
      refine ⟨hsame, .inl ⟨hold, rfl⟩, ?_, fun file horder => ?_⟩
      · rw [hreorder]
        exact id
      · unfold InOrder at horder ⊢
        rw [houtput, hreorder]
        exact horder
  split
  · next hpassed =>
      refine ⟨items, hkept _ fun hsame => ?_⟩
      rw [beq_iff_eq] at hsame
      rcases hpassed with hother | hlow
      · exact absurd hsame hother
      · exact ⟨hsame, hstarted.written _ hlow⟩
  · next hcurrent =>
      rw [not_or, not_not, Nat.not_lt] at hcurrent
      obtain ⟨hsame, hnext⟩ := hcurrent
      split
      · exact ⟨items, hkept false (by simp)⟩
      · next hfits =>
          rw [not_or, Nat.not_le, Nat.not_lt] at hfits
          obtain ⟨hdistance, hsize⟩ := hfits
          have hnear : started.reorder.Near object.objectId := by
            refine ⟨hnext, ?_⟩
            rw [hstarted.size]
            omega
          have hentry := hstarted.holds.entry_eq hnear
          rw [if_pos hnext] at hentry
          rw [hentry]
          cases hitem : items object.objectId with
          | some data =>
              exact ⟨items, hkept _ fun _ => ⟨hsame, by rw [hitem]; rfl⟩⟩
          | none =>
              dsimp only [Option.map_none]
              split
              · obtain ⟨hstored, hcount⟩ :=
                  sequenced_storeObject hstarted hnear hitem hsize
                have hfull := SequenceWindow.count_le_size (started.storeObject object).reorder
                rw [hstored.size] at hfull
                have hsum : (started.storeObject object).reorder.next +
                    (started.storeObject object).reorder.count =
                    app.reorder.next + app.reorder.count + 1 := by
                  rw [hcount, hreorder]
                  change started.reorder.next + _ = _
                  rw [hreorder]
                  omega
                obtain ⟨hdrained, hleft, htrack', hfailed', hinit', hgroup', hok⟩ :=
                  drain_spec [] hgrouped hstored hfull (by omega)
                refine ⟨_, hdrained, by omega, htrack'.trans htrack, hfailed'.trans hfailed,
                  hinit'.trans hinit, fun h => hgroup'.trans (hgroup h), fun htrue => ?_⟩
                obtain ⟨hempty, -⟩ := hok htrue
                refine ⟨hsame.trans hgroup'.symm, .inr ⟨hitem, rfl⟩, fun _ => hempty,
                  fun file horder => ?_⟩
                obtain ⟨-, -, -, -, -, -, hok⟩ :=
                  drain_spec file hgrouped hstored hfull (by omega)
                refine (hok htrue).2 ?_
                unfold InOrder at horder ⊢
                change started.output = some (file ++ recordsBelow _ started.reorder.next)
                rw [recordsBelow_update hnext, houtput, hreorder]
                exact horder
              · exact ⟨items, hkept false (by simp)⟩

/-! ### Runs -/

/-- The object that arrived first under each id. -/
def arrived (objects : List MoqObject) (id : Nat) : Option Bytes :=
  (objects.find? fun object => object.objectId == id).map (·.data)

theorem arrived_of_gains {objects : List MoqObject} {object : MoqObject}
    (hgains : Gains object (arrived objects) items') :
    items' = arrived (objects ++ [object]) := by
  funext id
  unfold arrived
  rw [List.find?_append]
  rcases hgains with ⟨hold, rfl⟩ | ⟨hnone, rfl⟩
  · unfold arrived at hold ⊢
    cases hfound : objects.find? fun object => object.objectId == id with
    | some found => rfl
    | none =>
        have hne : object.objectId ≠ id := by
          rintro rfl
          simp [hfound] at hold
        simp [hne]
  · unfold arrived at hnone
    rw [Option.map_eq_none_iff] at hnone
    by_cases hid : id = object.objectId
    · subst hid
      simp [hnone]
    · rw [Function.update_of_ne hid]
      have hne : object.objectId ≠ id := Ne.symm hid
      unfold arrived
      cases objects.find? fun object => object.objectId == id <;> simp [hne]

/-- The objects of the track so far. -/
structure Progress (file : Bytes) (objects : List MoqObject) (app : App)
    (items : Nat → Option Bytes) : Prop where
  sequenced : Sequenced app items
  fresh : app.reorderInitialized = false → app.reorder.next = 0 ∧ objects = []
  counted : app.reorder.next + app.reorder.count ≤ objects.length
  sound : app.failed = false → items = arrived objects ∧ app.reorder.front = none ∧
    InOrder file items app ∧ ∀ object ∈ objects, object.groupId = app.reorderGroupId

theorem progress_onObject {file : Bytes} {objects : List MoqObject} {app : App}
    (hprogress : Progress file objects app items) (hroom : objects.length + 1 < objectIds)
    {event : AppEnv × MoqObject} (htrack : event.2.trackId.key = app.track.key)
    (hgrouped : grouped event.2.trackId = true) :
    ∃ items', Progress file (objects ++ [event.2]) (app.onObject event) items' ∧
      (app.onObject event).track = app.track := by
  obtain ⟨env, object⟩ := event
  have hcounted := hprogress.counted
  obtain ⟨items', hoffered⟩ := offered_writeOrdered hprogress.sequenced
    (fun h => (hprogress.fresh h).1) (by omega) hgrouped env
  have hsum := hoffered.counted
  unfold onObject
  rw [if_pos htrack]
  dsimp only
  rw [writeObject, if_pos hgrouped]
  split
  · next after hwritten =>
      rw [hwritten] at hoffered hsum
      refine ⟨items', ⟨hoffered.sequenced, ?_, ?_, fun hfailed => ?_⟩, hoffered.track⟩
      · intro hnot
        exact absurd (hoffered.initialized.symm.trans hnot) (by decide)
      · rw [List.length_append, List.length_singleton]
        dsimp only at hsum
        omega
      · obtain ⟨rfl, hfront, horder, hgroups⟩ :=
          hprogress.sound (hoffered.failed.symm.trans hfailed)
        obtain ⟨hgroup, hgains, hsettled, hwrites⟩ := hoffered.accepted rfl
        refine ⟨arrived_of_gains hgains, hsettled hfront, hwrites file horder, ?_⟩
        rw [List.forall_mem_append, List.forall_mem_singleton]
        refine ⟨fun other hother => ?_, hgroup⟩
        cases hinit : app.reorderInitialized with
        | true => exact (hgroups other hother).trans (hoffered.group hinit).symm
        | false => simp [(hprogress.fresh hinit).2] at hother
  · next after hwritten =>
      rw [hwritten] at hoffered hsum
      refine ⟨items', ⟨?_, ?_, ?_, fun hfailed => by cases hfailed⟩, hoffered.track⟩
      · exact ⟨hoffered.sequenced.size, hoffered.sequenced.holds, hoffered.sequenced.written,
          hoffered.sequenced.bytes, hoffered.sequenced.budget⟩
      · intro hnot
        exact absurd (hoffered.initialized.symm.trans hnot) (by decide)
      · rw [List.length_append, List.length_singleton]
        dsimp only at hsum ⊢
        omega

/-- The objects of the application's track. -/
def trackObjects (track : TrackId) (events : List (AppEnv × MoqObject)) : List MoqObject :=
  (events.map Prod.snd).filter fun object => object.trackId.key = track.key

theorem progress_receive {file : Bytes} {objects : List MoqObject} {app : App}
    {events : List (AppEnv × MoqObject)}
    (hprogress : Progress file objects app items)
    (hroom : objects.length + events.length < objectIds)
    (hgrouped : ∀ object ∈ trackObjects app.track events, grouped object.trackId = true) :
    ∃ items', Progress file (objects ++ trackObjects app.track events) (app.receive events)
      items' := by
  induction events generalizing app objects items with
  | nil => exact ⟨items, by simpa [trackObjects, receive] using hprogress⟩
  | cons event rest ih =>
      rw [receive, Machine.run_cons, ← receive]
      rw [List.length_cons] at hroom
      by_cases htrack : event.2.trackId.key = app.track.key
      · have hcons : trackObjects app.track (event :: rest) =
            event.2 :: trackObjects app.track rest := by
          simp [trackObjects, htrack]
        rw [hcons] at hgrouped ⊢
        obtain ⟨items', hstep, hsame⟩ := progress_onObject hprogress (by omega) htrack
          (hgrouped _ List.mem_cons_self)
        rw [← hsame, List.append_cons]
        refine ih hstep ?_ fun object hobject => hgrouped object (List.mem_cons_of_mem _ ?_)
        · rw [List.length_append, List.length_singleton]
          omega
        · rwa [hsame] at hobject
      · have hcons : trackObjects app.track (event :: rest) = trackObjects app.track rest := by
          simp [trackObjects, htrack]
        rw [hcons] at hgrouped ⊢
        rw [onObject, if_neg htrack]
        exact ih hprogress (by omega) hgrouped

theorem progress_start (track : TrackId) (file : Bytes) (receiveLimit : Nat) :
    Progress file [] { track := track, output := some file, receiveLimit := receiveLimit }
      fun _ => none where
  sequenced := by
    constructor
    · exact List.length_replicate
    · simpa using SequenceWindow.holds_empty appReorderObjects
    · intro id hid
      cases hid
    · exact (SequenceWindow.total_empty _ _).symm
    · exact Nat.zero_le _
  fresh := fun _ => ⟨rfl, rfl⟩
  counted := by
    change 0 + (SequenceWindow.empty appReorderObjects : SequenceWindow Bytes).total _ ≤ 0
    rw [SequenceWindow.total_empty]
  sound := fun _ => by
    refine ⟨rfl, rfl, ?_, by simp⟩
    simp [InOrder, recordsBelow, SequenceWindow.empty]

/-- The file of a run without a failure holds the records of the objects before the first
that is missing, in the order of their ids, each once; the objects behind it wait. -/
theorem receive_in_order (track : TrackId) (file : Bytes) (receiveLimit : Nat)
    (events : List (AppEnv × MoqObject)) (hevents : events.length < objectIds)
    (hgrouped : ∀ object ∈ trackObjects track events, grouped object.trackId = true) :
    let app := receive { track := track, output := some file, receiveLimit := receiveLimit } events
    let objects := trackObjects track events
    app.reorderBytes = app.reorder.total List.length ∧
      app.reorderBytes ≤ appReorderMaxBytes ∧
      (app.failed = false →
        (∀ object ∈ objects, object.groupId = app.reorderGroupId) ∧
        (∀ id < app.reorder.next, (arrived objects id).isSome) ∧
        arrived objects app.reorder.next = none ∧
        app.output = some (file ++ recordsBelow (arrived objects) app.reorder.next)) := by
  intro app objects
  obtain ⟨items, hprogress⟩ := progress_receive (progress_start track file receiveLimit)
    (by simpa using hevents) hgrouped
  rw [List.nil_append] at hprogress
  refine ⟨hprogress.sequenced.bytes, hprogress.sequenced.budget, fun hfailed => ?_⟩
  obtain ⟨rfl, hfront, horder, hgroups⟩ := hprogress.sound hfailed
  refine ⟨hgroups, hprogress.sequenced.written, ?_, horder⟩
  rw [hprogress.sequenced.holds.front_eq, if_pos (le_refl _)] at hfront
  exact hfront

def shuffledTrack : TrackId where
  type := .data
  flags := flagFecRateless
  name := [97]

/-- Objects 1, 0, 1 again and 3, of one record each. -/
def shuffledEvents : List (AppEnv × MoqObject) :=
  [1, 0, 1, 3].map fun id =>
    (⟨fun _ => 4096, true, 0⟩,
      { trackId := shuffledTrack, groupId := 7, objectId := id, data := [0, 1, UInt8.ofNat id] })

theorem shuffled_in_order :
    let app := receive { track := shuffledTrack, output := some [], receiveLimit := 2 }
      shuffledEvents
    app.failed = false ∧ app.reorder.next = 2 ∧
      app.output = some (recordsBelow (arrived (trackObjects shuffledTrack shuffledEvents)) 2) := by
  obtain ⟨-, -, horder⟩ := receive_in_order shuffledTrack [] 2 shuffledEvents
    (by decide +kernel) (by decide +kernel)
  have hfailed : (receive { track := shuffledTrack, output := some [], receiveLimit := 2 }
    shuffledEvents).failed = false := by decide +kernel
  have hnext : (receive { track := shuffledTrack, output := some [], receiveLimit := 2 }
    shuffledEvents).reorder.next = 2 := by decide +kernel
  obtain ⟨-, -, -, houtput⟩ := horder hfailed
  refine ⟨hfailed, hnext, ?_⟩
  rw [houtput, hnext]
  rfl

end App

end Qlinq
