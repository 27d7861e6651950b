import Qlinq.Lib.Machine
import Qlinq.Lib.SequenceWindow
import Qlinq.Received

namespace Qlinq

/-! The receiving side of the file bridge: the objects of a track with erasure coding are put
in order before their records are written out. -/

def appReorderObjects : Nat := 256

def appReorderMaxBytes : Nat := 64 * 1024 * 1024

/-- Object ids are 64 bits wide. -/
def objectIds : Nat := 2 ^ 64

/-- What the surroundings answer while one object is written: how many bytes the `n`-th call of
`fwrite` takes, whether `malloc` succeeds, and the time. -/
structure AppEnv where
  fwrite : Nat → Nat
  malloc : Bool
  now : Nat

/-- `output` is what the file has been given, when there is one. -/
structure App where
  track : TrackId
  output : Option Bytes := none
  fwrites : Nat := 0
  receivedRecords : Nat := 0
  receivedBytes : Nat := 0
  receiveLimit : Nat := 0
  receivedAt : Nat := 0
  failed : Bool := false
  reorderInitialized : Bool := false
  reorderGroupId : Nat := 0
  reorderBytes : Nat := 0
  reorder : SequenceWindow Bytes := .empty appReorderObjects
  deriving DecidableEq, Repr

namespace App

def fwrite (app : App) (env : AppEnv) (data : Bytes) : App × Bool :=
  match app.output with
  | none => (app, true)
  | some file =>
      let taken := data.take (env.fwrite app.fwrites)
      ({ app with output := some (file ++ taken), fwrites := app.fwrites + 1 },
        taken.length == data.length)

def countRecord (app : App) (size : Nat) : App :=
  { app with
    receivedRecords := app.receivedRecords + 1
    receivedBytes := app.receivedBytes + size }

/-- The loop of `write_payload` over the records of a group object. -/
def writeRecords (env : AppEnv) (app : App) : Bytes → App × Bool
  | [] => (app, true)
  | [_] => (app, false)
  | high :: low :: rest =>
      let size := u16At high low
      if size = 0 ∨ rest.length < size then
        (app, false)
      else
        match app.fwrite env (rest.take size) with
        | (app, false) => (app, false)
        | (app, true) => writeRecords env (app.countRecord size) (rest.drop size)
  termination_by data => data.length
  decreasing_by
    simp only [List.length_cons, List.length_drop]
    omega

/-- The objects of such a track are groups of records. -/
def grouped (track : TrackId) : Bool :=
  track.type == .data && (trackProfile track).usesFec

def writeData (app : App) (env : AppEnv) (track : TrackId) (data : Bytes) : App × Bool :=
  if grouped track then
    app.writeRecords env data
  else if data = [] then
    (app.countRecord data.length, true)
  else
    match app.fwrite env data with
    | (app, false) => (app, false)
    | (app, true) => (app.countRecord data.length, true)

def writePayload (app : App) (env : AppEnv) (track : TrackId) (data : Bytes) : App × Bool :=
  match app.writeData env track data with
  | (app, false) => (app, false)
  | (app, true) =>
      (if app.receiveLimit ≠ 0 ∧ app.receiveLimit ≤ app.receivedRecords ∧ app.receivedAt = 0 then
        { app with receivedAt := env.now }
      else
        app, true)

def release (app : App) (size : Nat) : App :=
  { app with
    reorderBytes := app.reorderBytes - size
    reorder := app.reorder.leave objectIds }

/-- The loop at the end of `write_object`; each turn but the last empties a slot. -/
def drain (env : AppEnv) (track : TrackId) : Nat → App → App × Bool
  | 0, app => (app, true)
  | turns + 1, app =>
      match app.reorder.front with
      | none => (app, true)
      | some data =>
          match app.writePayload env track data with
          | (app, false) => (app, false)
          | (app, true) => drain env track turns (app.release data.length)

def startGroup (app : App) (groupId : Nat) : App :=
  if app.reorderInitialized then
    app
  else
    { app with
      reorderInitialized := true
      reorderGroupId := groupId
      reorder := { app.reorder with next := 0 } }

def storeObject (app : App) (object : MoqObject) : App :=
  { app with
    reorderBytes := app.reorderBytes + object.size
    reorder := app.reorder.put object.objectId object.data }

def writeOrdered (app : App) (env : AppEnv) (object : MoqObject) : App × Bool :=
  let app := app.startGroup object.groupId
  if object.groupId ≠ app.reorderGroupId ∨ object.objectId < app.reorder.next then
    (app, object.groupId == app.reorderGroupId)
  else if appReorderObjects ≤ object.objectId - app.reorder.next ∨
      appReorderMaxBytes - app.reorderBytes < object.size then
    (app, false)
  else
    match app.reorder.entry object.objectId with
    | some (objectId, _) => (app, objectId == object.objectId)
    | none =>
        if env.malloc then
          (app.storeObject object).drain env object.trackId appReorderObjects
        else
          (app, false)

def writeObject (app : App) (env : AppEnv) (object : MoqObject) : App × Bool :=
  if grouped object.trackId then
    app.writeOrdered env object
  else
    app.writePayload env object.trackId object.data

/-- The object events of `on_event`. -/
def onObject (app : App) (event : AppEnv × MoqObject) : App :=
  if event.2.trackId.key = app.track.key then
    match app.writeObject event.1 event.2 with
    | (app, true) => app
    | (app, false) => { app with failed := true }
  else
    app

def receive (app : App) (events : List (AppEnv × MoqObject)) : App :=
  Machine.run onObject app events

end App

end Qlinq
