import Qlinq.Lib.BigEndian
import Qlinq.Config

namespace Qlinq

/-! The encodings of stream frames and of the track objects they carry. -/

def wireMagic0 : UInt8 := 0x51

def wireMagic1 : UInt8 := 0x4c

def wireVersion : UInt8 := 1

def wireTrackObject : UInt8 := 7

def wireFrameHeaderSize : Nat := 8

def trackObjectHeaderSize : Nat := 20

def wireMaxStreamPayload : Nat := maxReliableObjectSize + 20

def uint32Max : Nat := 2 ^ 32 - 1

/-- The results of a codec other than success. -/
inductive WireError where
  | needMore
  | invalid
  | unsupportedVersion
  | tooLarge
  deriving DecidableEq, Repr

structure WireFrame where
  type : UInt8
  payload : Bytes
  consumed : Nat
  deriving DecidableEq, Repr

def wireFrameTypeIsKnown (type : UInt8) : Bool :=
  (1 ≤ type && type ≤ 9) || (11 ≤ type && type ≤ 13)

def frameHeader (type : UInt8) (payloadLen : Nat) : Bytes :=
  wireMagic0 :: wireMagic1 :: wireVersion :: type :: BigEndian.toBytes 4 payloadLen

def encodeFrame (type : UInt8) (payload : Bytes) (maxPayload : Nat) :
    Except WireError Bytes :=
  if !wireFrameTypeIsKnown type then
    .error .invalid
  else if maxPayload < payload.length ∨ uint32Max < payload.length then
    .error .tooLarge
  else
    .ok (frameHeader type payload.length ++ payload)

def decodeFrame (src : Bytes) (maxPayload : Nat) : Except WireError WireFrame :=
  match src with
  | magic0 :: magic1 :: version :: type :: l0 :: l1 :: l2 :: l3 :: rest =>
      if magic0 ≠ wireMagic0 ∨ magic1 ≠ wireMagic1 then
        .error .invalid
      else if version ≠ wireVersion then
        .error .unsupportedVersion
      else if !wireFrameTypeIsKnown type then
        .error .invalid
      else
        let payloadLen := BigEndian.ofBytes [l0, l1, l2, l3]
        if maxPayload < payloadLen ∨ sizeMax - wireFrameHeaderSize < payloadLen then
          .error .tooLarge
        else if rest.length < payloadLen then
          .error .needMore
        else
          .ok { type, payload := rest.take payloadLen,
                consumed := wireFrameHeaderSize + payloadLen }
  | _ => .error .needMore

def encodeTrackObject (object : TrackObject) : Bytes :=
  object.trackAlias :: (if object.isKeyframe then 1 else 0) :: object.priority :: 0 ::
    (BigEndian.toBytes 8 object.groupId ++ (BigEndian.toBytes 8 object.objectId ++
      object.payload))

def decodeTrackObject (src : Bytes) : Except WireError TrackObject :=
  match src with
  | a :: keyframe :: priority :: reserved :: rest =>
      if rest.length < 16 then
        .error .invalid
      else if 1 < keyframe ∨ reserved ≠ 0 then
        .error .invalid
      else
        .ok { trackAlias := a, isKeyframe := keyframe != 0, priority,
              groupId := BigEndian.ofBytes (rest.take 8),
              objectId := BigEndian.ofBytes ((rest.drop 8).take 8),
              payload := rest.drop 16 }
  | _ => .error .invalid

/-- An object that fits the fields of a frame. -/
structure TrackObject.Encodable (object : TrackObject) : Prop where
  groupId_lt : object.groupId < 2 ^ 64
  objectId_lt : object.objectId < 2 ^ 64
  payload_le : object.payload.length ≤ maxReliableObjectSize

/-- The TRACK_OBJECT frame of an object. -/
def TrackObject.frame (object : TrackObject) : Bytes :=
  frameHeader wireTrackObject (encodeTrackObject object).length ++ encodeTrackObject object

/-- The bytes of a track stream. -/
def trackStreamBytes (objects : List TrackObject) : Bytes := objects.flatMap TrackObject.frame

@[simp] theorem trackStreamBytes_nil : trackStreamBytes [] = [] :=
  rfl

@[simp] theorem trackStreamBytes_cons (object : TrackObject) (objects : List TrackObject) :
    trackStreamBytes (object :: objects) = object.frame ++ trackStreamBytes objects :=
  rfl

theorem length_frameHeader (type : UInt8) (payloadLen : Nat) :
    (frameHeader type payloadLen).length = wireFrameHeaderSize := by
  simp [frameHeader, wireFrameHeaderSize]

theorem length_encodeTrackObject (object : TrackObject) :
    (encodeTrackObject object).length = trackObjectHeaderSize + object.payload.length := by
  simp only [encodeTrackObject, List.length_cons, List.length_append,
    BigEndian.length_toBytes, trackObjectHeaderSize]
  omega

theorem decodeTrackObject_encode (hobject : object.Encodable) :
    decodeTrackObject (encodeTrackObject object) = .ok object := by
  have hgroupId := @BigEndian.ofBytes_toBytes_of_lt _ 8 hobject.groupId_lt
  have hobjectId := @BigEndian.ofBytes_toBytes_of_lt _ 8 hobject.objectId_lt
  have hgroup := BigEndian.length_toBytes 8 object.groupId
  have hid := BigEndian.length_toBytes 8 object.objectId
  simp only [encodeTrackObject, decodeTrackObject]
  generalize BigEndian.toBytes 8 object.groupId = group at hgroupId hgroup ⊢
  generalize BigEndian.toBytes 8 object.objectId = id at hobjectId hid ⊢
  have hlength : ¬ (group ++ (id ++ object.payload)).length < 16 := by
    simp only [List.length_append]
    omega
  have htake : (group ++ (id ++ object.payload)).take 8 = group := List.take_left' hgroup
  have hdrop : (group ++ (id ++ object.payload)).drop 8 = id ++ object.payload :=
    List.drop_left' hgroup
  have hpayload : (group ++ (id ++ object.payload)).drop 16 = object.payload := by
    rw [← List.append_assoc]
    exact List.drop_left' (by rw [List.length_append, hgroup, hid])
  rw [if_neg hlength, htake, hdrop, hpayload, List.take_left' hid, hgroupId, hobjectId]
  cases object with
  | mk a isKeyframe priority groupId objectId payload => cases isKeyframe <;> rfl

theorem decodeFrame_short (hshort : src.length < wireFrameHeaderSize) (maxPayload : Nat) :
    decodeFrame src maxPayload = .error .needMore := by
  simp only [wireFrameHeaderSize] at hshort
  unfold decodeFrame
  split
  · simp only [List.length_cons] at hshort
    omega
  · rfl

/-- Past the header, the length field decides. -/
theorem decodeFrame_header (hknown : wireFrameTypeIsKnown type = true)
    (hmax : payloadLen ≤ maxPayload) (hlen : payloadLen ≤ uint32Max) (body : Bytes) :
    decodeFrame (frameHeader type payloadLen ++ body) maxPayload =
      if body.length < payloadLen then .error .needMore
      else .ok { type, payload := body.take payloadLen,
                 consumed := wireFrameHeaderSize + payloadLen } := by
  have hlt : payloadLen < 256 ^ 4 := by
    simp only [uint32Max] at hlen
    omega
  have hdecode : BigEndian.ofBytes (BigEndian.toBytes 4 payloadLen) = payloadLen :=
    BigEndian.ofBytes_toBytes_of_lt hlt
  have hsize : ¬ (maxPayload < payloadLen ∨ sizeMax - wireFrameHeaderSize < payloadLen) := by
    simp only [sizeMax, wireFrameHeaderSize]
    omega
  simp only [BigEndian.toBytes] at hdecode
  simp only [frameHeader, BigEndian.toBytes, List.cons_append, List.nil_append, decodeFrame,
    ne_eq, not_true_eq_false, or_self, if_false, hknown, Bool.not_true, Bool.false_eq_true,
    hdecode, hsize]

theorem split_append {buffer future left right : Bytes}
    (happend : buffer ++ future = left ++ right) (hlength : left.length ≤ buffer.length) :
    ∃ body, buffer = left ++ body ∧ body ++ future = right := by
  cases List.append_eq_append_iff.mp happend with
  | inl hlong =>
      obtain ⟨more, hmore, hfuture⟩ := hlong
      have hnil : more = [] := by
        have hlengths := congrArg List.length hmore
        rw [List.length_append] at hlengths
        exact List.length_eq_zero_iff.mp (by omega)
      subst hnil
      exact ⟨[], by simpa using hmore.symm, by simpa using hfuture⟩
  | inr hshorter =>
      obtain ⟨body, hbuffer, hright⟩ := hshorter
      exact ⟨body, hbuffer, hright.symm⟩

/-- The start of a stream of frames is too short for the first or begins with it. -/
theorem decodeFrame_stream (hobject : object.Encodable)
    (hstream : buffer ++ future = object.frame ++ rest) :
    decodeFrame buffer wireMaxStreamPayload = .error .needMore ∨
      ∃ behind, buffer = object.frame ++ behind ∧ behind ++ future = rest ∧
        decodeFrame buffer wireMaxStreamPayload =
          .ok { type := wireTrackObject, payload := encodeTrackObject object,
                consumed := object.frame.length } := by
  have hlength := length_encodeTrackObject object
  have hpayload := hobject.payload_le
  have hmax : (encodeTrackObject object).length ≤ wireMaxStreamPayload := by
    simp only [hlength, wireMaxStreamPayload, trackObjectHeaderSize]
    omega
  have hlen : (encodeTrackObject object).length ≤ uint32Max := by
    simp only [maxReliableObjectSize] at hpayload
    simp only [hlength, uint32Max, trackObjectHeaderSize]
    omega
  have hheader := length_frameHeader wireTrackObject (encodeTrackObject object).length
  by_cases hshort : buffer.length < wireFrameHeaderSize
  · exact Or.inl (decodeFrame_short hshort _)
  simp only [TrackObject.frame, List.append_assoc] at hstream ⊢
  obtain ⟨body, rfl, hbody⟩ := split_append hstream (by omega)
  rw [decodeFrame_header (by decide) hmax hlen]
  by_cases hbodyShort : body.length < (encodeTrackObject object).length
  · exact Or.inl (if_pos hbodyShort)
  right
  obtain ⟨behind, rfl, hrest⟩ := split_append hbody (by omega)
  refine ⟨behind, rfl, hrest, ?_⟩
  rw [if_neg hbodyShort, List.take_left, List.length_append, hheader]

end Qlinq
