import Qlinq.FrameStream
import Qlinq.Protocol

namespace Qlinq

/-! Frames of the control stream as bytes: their types and the payloads of variable
length. -/

def wireSubscribe : UInt8 := 1

def wireUnsubscribe : UInt8 := 2

def wireUnicast : UInt8 := 3

def wireAuthRequest : UInt8 := 4

def wireAuthResponse : UInt8 := 5

def wireKeyframeRequest : UInt8 := 6

def wireNack : UInt8 := 8

def wireHello : UInt8 := 9

def wireTrackEnd : UInt8 := 11

def wireTrackCheckpoint : UInt8 := 12

def wireTrackCheckpointAck : UInt8 := 13

def wireMaxTrackName : Nat := 63

def wireMaxNackSymbols : Nat := 1024

def wireNackWholeObject : UInt8 := 0x01

def wireNackRateless : UInt8 := 0x02

structure WireTrack where
  trackAlias : UInt8
  trackType : UInt8
  flags : UInt8
  name : Bytes
  deriving DecidableEq, Repr

namespace WireTrack

def decode (src : Bytes) : Except WireError WireTrack :=
  if src.length < 4 then
    .error .invalid
  else
    let nameLen := (readU8 src 3).toNat
    if wireMaxTrackName < nameLen ∨ src.length ≠ 4 + nameLen then
      .error .invalid
    else
      .ok { trackAlias := readU8 src 0
            trackType := readU8 src 1
            flags := readU8 src 2
            name := src.drop 4 }

/-- The track that a valid type and valid flags name; its name is copied as a C string. -/
def trackId? (track : WireTrack) : Option TrackId :=
  if track.flags &&& ~~~(flagReliable ||| flagFecEnabled ||| flagFecRateless) = 0 then
    (TrackType.ofCode? track.trackType).map fun type =>
      { type, flags := track.flags, name := track.name.takeWhile (· ≠ 0) }
  else
    none

end WireTrack

/-- `qlinq_wire_decode_nack`, with the indices that `qlinq_wire_nack_index` reads. -/
def decodeNack (src : Bytes) : Except WireError Nack :=
  let flags := readU8 src 1
  if src.length < 20 ∨ flags &&& ~~~(wireNackWholeObject ||| wireNackRateless) ≠ 0 then
    .error .invalid
  else
    let count := (readU16 src 18).toNat
    let wholeObject := flags &&& wireNackWholeObject != 0
    let rateless := flags &&& wireNackRateless != 0
    if wireMaxNackSymbols < count then
      .error .tooLarge
    else if (if rateless then !wholeObject && count == 0
        else if wholeObject then count != 0 else count == 0) then
      .error .invalid
    else if src.length ≠ 20 + (if rateless then 0 else count * 2) then
      .error .invalid
    else
      .ok { trackAlias := readU8 src 0
            wholeObject
            rateless
            groupId := (readU64 src 2).toNat
            objectId := (readU64 src 10).toNat
            missingCount := count
            indices :=
              if rateless then []
              else (List.range count).map fun index => (readU16 src (20 + index * 2)).toNat }

/-! The messages of decoded payloads. -/

def WireTrackCheckpoint.message (checkpoint : WireTrackCheckpoint) : TrackCheckpoint where
  trackAlias := checkpoint.trackAlias
  baseline := checkpoint.flags &&& wireCheckpointBaseline != 0
  groupId := checkpoint.groupId.toNat
  firstObjectId := checkpoint.firstObjectId.toNat
  finalObjectId := checkpoint.finalObjectId.toNat

def WireTrackCheckpointAck.message (ack : WireTrackCheckpointAck) : TrackCheckpointAck where
  trackAlias := ack.trackAlias
  groupId := ack.groupId.toNat
  finalObjectId := ack.finalObjectId.toNat

def WireTrackEnd.message (finish : WireTrackEnd) : TrackEnd where
  trackAlias := finish.trackAlias
  groupId := finish.groupId.toNat
  finalObjectId := finish.finalObjectId.toNat

def WireFecHeader.message (header : WireFecHeader) : FecHeader where
  trackAlias := header.trackAlias
  isKeyframe := header.isKeyframe
  priority := header.priority
  pathId := header.pathId.toNat
  groupId := header.groupId.toNat
  objectId := header.objectId.toNat
  symbolIndex := header.symbolIndex.toNat
  totalSymbols := header.totalSymbols.toNat
  dataSymbols := header.dataSymbols.toNat
  symbolSize := header.symbolSize.toNat
  originalSize := header.originalSize.toNat

def decodeDatagramType (src : Bytes) : Except WireError UInt8 :=
  if src.length < 4 then
    .error .needMore
  else if readU8 src 0 ≠ wireMagic0 ∨ readU8 src 1 ≠ wireMagic1 then
    .error .invalid
  else if readU8 src 2 ≠ wireVersion then
    .error .unsupportedVersion
  else if readU8 src 3 ≠ wireDatagramFec ∧ readU8 src 3 ≠ wireDatagramTelemetry then
    .error .invalid
  else
    .ok (readU8 src 3)

end Qlinq
