import Qlinq.Tracks

namespace Qlinq

/-! Messages exchanged by two endpoints, as the fields their encodings carry. -/

def capReliable : UInt32 := 0x00000001

def capDatagram : UInt32 := 0x00000002

def capRecoveryCheckpoints : UInt32 := 0x00000080

def capRatelessRepair : UInt32 := 0x00000100

structure TrackCheckpoint where
  trackAlias : TrackAlias
  baseline : Bool
  groupId : Nat
  firstObjectId : Nat
  finalObjectId : Nat
  deriving DecidableEq, Repr

structure TrackCheckpointAck where
  trackAlias : TrackAlias
  groupId : Nat
  finalObjectId : Nat
  deriving DecidableEq, Repr

structure TrackEnd where
  trackAlias : TrackAlias
  groupId : Nat
  finalObjectId : Nat
  deriving DecidableEq, Repr

structure Nack where
  trackAlias : TrackAlias
  wholeObject : Bool
  rateless : Bool
  groupId : Nat
  objectId : Nat
  missingCount : Nat
  indices : List Nat
  deriving DecidableEq, Repr

/-- Frames of the bidirectional control stream that follow authentication. -/
inductive ControlFrame where
  | subscribe (trackAlias : TrackAlias) (track : TrackId)
  | unsubscribe (trackAlias : TrackAlias) (track : TrackId)
  | keyframeRequest (trackAlias : TrackAlias) (track : TrackId)
  | unicast (payload : Bytes)
  | nack (request : Nack)
  | trackCheckpoint (checkpoint : TrackCheckpoint)
  | trackCheckpointAck (ack : TrackCheckpointAck)
  | trackEnd (finish : TrackEnd)
  deriving DecidableEq, Repr

/-- SUBSCRIBE and UNSUBSCRIBE. -/
def ControlFrame.subscribes : ControlFrame → Bool
  | .subscribe _ _ => true
  | .unsubscribe _ _ => true
  | _ => false

/-- A TRACK_OBJECT frame of a track stream. -/
structure TrackObject where
  trackAlias : TrackAlias
  isKeyframe : Bool
  priority : UInt8
  groupId : Nat
  objectId : Nat
  payload : Bytes
  deriving DecidableEq, Repr

/-- The envelope of one FEC symbol. -/
structure FecHeader where
  trackAlias : TrackAlias
  isKeyframe : Bool
  priority : UInt8
  pathId : Nat
  groupId : Nat
  objectId : Nat
  symbolIndex : Nat
  totalSymbols : Nat
  dataSymbols : Nat
  symbolSize : Nat
  originalSize : Nat
  deriving DecidableEq, Repr

/-- The part of an envelope an assembler is keyed to for the object's life. -/
structure Geometry where
  symbolSize : Nat
  dataSymbols : Nat
  originalSize : Nat
  deriving DecidableEq, Repr

def FecHeader.geometry (header : FecHeader) : Geometry where
  symbolSize := header.symbolSize
  dataSymbols := header.dataSymbols
  originalSize := header.originalSize

structure Datagram where
  header : FecHeader
  symbol : Bytes
  deriving DecidableEq, Repr

/-- A message as its sender left it.  `track` and `generation` are the
subscription it was sent for; they are not part of the encoding. -/
structure Sent (α : Type) where
  track : TrackId
  generation : Nat
  message : α
  deriving DecidableEq, Repr

end Qlinq
