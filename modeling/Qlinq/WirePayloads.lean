import Qlinq.Lib.Layout
import Qlinq.WireFrames

namespace Qlinq

/-! The payloads of fixed layout, byte by byte. -/

def wireDatagramFec : UInt8 := 1

def wireDatagramTelemetry : UInt8 := 2

def wireTelemetrySize : Nat := 24

def wireHelloSize : Nat := 20

def wireTrackEndSize : Nat := 17

def wireTrackCheckpointSize : Nat := 28

def wireTrackCheckpointAckSize : Nat := 17

def wireRoleClient : UInt8 := 0

def wireRoleServer : UInt8 := 1

def wireCapKnown : UInt32 :=
  0x00000001 ||| 0x00000002 ||| 0x00000004 ||| 0x00000008 ||| 0x00000010 ||| 0x00000020 |||
    0x00000080 ||| 0x00000100

def wireCheckpointBaseline : UInt8 := 0x01

/-! ### Integers of the wire -/

def writeU16 (value : UInt16) : Bytes := BigEndian.toBytes 2 value.toNat

def writeU32 (value : UInt32) : Bytes := BigEndian.toBytes 4 value.toNat

def writeU64 (value : UInt64) : Bytes := BigEndian.toBytes 8 value.toNat

def readU8 (src : Bytes) (offset : Nat) : UInt8 := src.getD offset 0

def readU16 (src : Bytes) (offset : Nat) : UInt16 :=
  UInt16.ofNat (BigEndian.ofBytes (Layout.slice src offset 2))

def readU32 (src : Bytes) (offset : Nat) : UInt32 :=
  UInt32.ofNat (BigEndian.ofBytes (Layout.slice src offset 4))

def readU64 (src : Bytes) (offset : Nat) : UInt64 :=
  UInt64.ofNat (BigEndian.ofBytes (Layout.slice src offset 8))

@[simp] theorem length_writeU16 (value : UInt16) : (writeU16 value).length = 2 :=
  BigEndian.length_toBytes 2 _

@[simp] theorem length_writeU32 (value : UInt32) : (writeU32 value).length = 4 :=
  BigEndian.length_toBytes 4 _

@[simp] theorem length_writeU64 (value : UInt64) : (writeU64 value).length = 8 :=
  BigEndian.length_toBytes 8 _

theorem slice_one (src : Bytes) (hinside : offset + 1 ≤ src.length) (byte : UInt8) :
    Layout.slice src offset 1 = [byte] ↔ readU8 src offset = byte := by
  have hdrop : src.drop offset = src[offset] :: src.drop (offset + 1) :=
    List.drop_eq_getElem_cons (by omega)
  have hread : readU8 src offset = src[offset] := by
    simp [readU8, List.getElem?_eq_getElem (show offset < src.length by omega)]
  rw [Layout.slice, hdrop, hread, List.take_succ_cons, List.take_zero, List.cons.injEq]
  exact and_iff_left rfl

/-- A number is read where its bytes are. -/
theorem slice_toBytes_iff {src : Bytes} (hinside : offset + width ≤ src.length)
    (hvalue : value < 256 ^ width) :
    Layout.slice src offset width = BigEndian.toBytes width value ↔
      BigEndian.ofBytes (Layout.slice src offset width) = value := by
  have hlength := Layout.length_slice hinside
  constructor
  · intro hslice
    rw [hslice]
    exact BigEndian.ofBytes_toBytes_of_lt hvalue
  · rintro rfl
    have hback := BigEndian.toBytes_ofBytes (Layout.slice src offset width)
    rw [hlength] at hback
    exact hback.symm

theorem ofBytes_slice_lt {src : Bytes} (hinside : offset + width ≤ src.length) :
    BigEndian.ofBytes (Layout.slice src offset width) < 256 ^ width := by
  have hlt := BigEndian.ofBytes_lt (Layout.slice src offset width)
  rwa [Layout.length_slice hinside] at hlt

theorem slice_writeU16 {src : Bytes} (hinside : offset + 2 ≤ src.length) (value : UInt16) :
    Layout.slice src offset 2 = writeU16 value ↔ readU16 src offset = value := by
  have hlt := ofBytes_slice_lt hinside
  rw [writeU16, slice_toBytes_iff hinside value.toNat_lt, readU16, ← UInt16.toNat_inj,
    UInt16.toNat_ofNat', Nat.mod_eq_of_lt (by simpa using hlt)]

theorem slice_writeU32 {src : Bytes} (hinside : offset + 4 ≤ src.length) (value : UInt32) :
    Layout.slice src offset 4 = writeU32 value ↔ readU32 src offset = value := by
  have hlt := ofBytes_slice_lt hinside
  rw [writeU32, slice_toBytes_iff hinside value.toNat_lt, readU32, ← UInt32.toNat_inj,
    UInt32.toNat_ofNat', Nat.mod_eq_of_lt (by simpa using hlt)]

theorem slice_writeU64 {src : Bytes} (hinside : offset + 8 ≤ src.length) (value : UInt64) :
    Layout.slice src offset 8 = writeU64 value ↔ readU64 src offset = value := by
  have hlt := ofBytes_slice_lt hinside
  rw [writeU64, slice_toBytes_iff hinside value.toNat_lt, readU64, ← UInt64.toNat_inj,
    UInt64.toNat_ofNat', Nat.mod_eq_of_lt (by simpa using hlt)]

/-- `check_envelope`. -/
def checkEnvelope (src : Bytes) (kind : UInt8) : Except WireError Unit :=
  if src.length < 4 then
    .error .needMore
  else if readU8 src 0 ≠ wireMagic0 ∨ readU8 src 1 ≠ wireMagic1 ∨ readU8 src 3 ≠ kind then
    .error .invalid
  else if readU8 src 2 ≠ wireVersion then
    .error .unsupportedVersion
  else
    .ok ()

theorem map_eq_ok {f : α → β} {result : Except ε α} :
    Except.map f result = .ok value ↔ ∃ x, result = .ok x ∧ f x = value := by
  cases result <;> simp [Except.map]

theorem checkEnvelope_iff (src : Bytes) (kind : UInt8) :
    checkEnvelope src kind = .ok () ↔
      4 ≤ src.length ∧ readU8 src 0 = wireMagic0 ∧ readU8 src 1 = wireMagic1 ∧
        readU8 src 2 = wireVersion ∧ readU8 src 3 = kind := by
  simp only [checkEnvelope, ConfiguredLimits.ite_error_eq_ok, not_lt, not_or, ne_eq, not_not,
    and_true]
  tauto

/-! ### Track objects -/

/-- The header of a reliable object. -/
structure WireTrackObject where
  trackAlias : UInt8
  isKeyframe : Bool
  priority : UInt8
  groupId : UInt64
  objectId : UInt64
  deriving DecidableEq, Repr

def keyframeByte (isKeyframe : Bool) : UInt8 := if isKeyframe then 1 else 0

theorem keyframeByte_iff (byte : UInt8) (isKeyframe : Bool) :
    byte = keyframeByte isKeyframe ↔ ¬ 1 < byte ∧ (byte != 0) = isKeyframe := by
  have hone : byte = 1 ↔ byte.toNat = 1 := UInt8.toNat_inj.symm
  have hzero : byte = 0 ↔ byte.toNat = 0 := UInt8.toNat_inj.symm
  have hlt : 1 < byte ↔ 1 < byte.toNat := UInt8.lt_iff_toNat_lt
  cases isKeyframe with
  | false =>
      simp only [keyframeByte, Bool.false_eq_true, if_false, bne_eq_false_iff_eq, hzero, hlt]
      omega
  | true =>
      simp only [keyframeByte, if_true, bne_iff_ne, ne_eq, hzero, hone, hlt]
      omega

namespace WireTrackObject

def stores (object : WireTrackObject) : List Layout.Store :=
  [(0, [object.trackAlias]), (1, [keyframeByte object.isKeyframe]), (2, [object.priority]),
    (3, [0]), (4, writeU64 object.groupId), (12, writeU64 object.objectId)]

def encode (dst : Bytes) (object : WireTrackObject) : Except WireError Bytes :=
  if dst.length < trackObjectHeaderSize then
    .error .tooLarge
  else
    .ok (Layout.storeAll dst object.stores)

/-- The header and the payload behind it. -/
def decode (src : Bytes) : Except WireError (WireTrackObject × Bytes) :=
  if src.length < trackObjectHeaderSize then
    .error .invalid
  else if 1 < readU8 src 1 ∨ readU8 src 3 ≠ 0 then
    .error .invalid
  else
    .ok ({ trackAlias := readU8 src 0
           isKeyframe := readU8 src 1 != 0
           priority := readU8 src 2
           groupId := readU64 src 4
           objectId := readU64 src 12 }, src.drop trackObjectHeaderSize)

def decodeHeader (src : Bytes) : Except WireError WireTrackObject := (decode src).map (·.1)

theorem holds_iff {src : Bytes} (hlength : trackObjectHeaderSize ≤ src.length)
    (object : WireTrackObject) :
    Layout.Holds src object.stores ↔
      readU8 src 0 = object.trackAlias ∧ readU8 src 1 = keyframeByte object.isKeyframe ∧
        readU8 src 2 = object.priority ∧ readU8 src 3 = 0 ∧
        readU64 src 4 = object.groupId ∧ readU64 src 12 = object.objectId := by
  simp only [trackObjectHeaderSize] at hlength
  simp only [Layout.Holds, stores, List.forall_mem_cons, List.length_singleton,
    length_writeU64]
  rw [slice_one src (by omega), slice_one src (by omega), slice_one src (by omega),
    slice_one src (by omega), slice_writeU64 (by omega), slice_writeU64 (by omega)]
  simp

theorem lawful :
    Layout.Lawful trackObjectHeaderSize (trackObjectHeaderSize ≤ ·) (fun _ => True) stores
      encode decodeHeader where
  contiguous object := by simp [Layout.Contiguous, stores]
  length_bytes object := by simp [Layout.bytes, stores, trackObjectHeaderSize]
  admits_le := id
  encode_iff := by
    intro dst object out
    simp only [encode, ConfiguredLimits.ite_error_eq_ok, not_lt, Except.ok.injEq, true_and,
      @eq_comm _ out]
  decode_iff := by
    intro src object
    have hdecode : decodeHeader src = .ok object ↔
        trackObjectHeaderSize ≤ src.length ∧ ¬ (1 < readU8 src 1 ∨ readU8 src 3 ≠ 0) ∧
          ⟨readU8 src 0, readU8 src 1 != 0, readU8 src 2, readU64 src 4, readU64 src 12⟩ =
            object := by
      simp only [decodeHeader, map_eq_ok, decode, ConfiguredLimits.ite_error_eq_ok, not_lt,
        Except.ok.injEq, and_assoc, exists_and_left, exists_eq_left']
    rw [hdecode]
    apply and_congr_right
    intro hlength
    rw [holds_iff hlength, keyframeByte_iff]
    cases object
    simp only [mk.injEq]
    tauto

theorem decode_payload (hdecode : decode src = .ok (object, payload)) :
    payload = src.drop trackObjectHeaderSize := by
  simp only [decode, ConfiguredLimits.ite_error_eq_ok, Except.ok.injEq, Prod.mk.injEq]
    at hdecode
  exact hdecode.2.2.2.symm

/-- The message of a header and its payload. -/
def object (header : WireTrackObject) (payload : Bytes) : TrackObject where
  trackAlias := header.trackAlias
  isKeyframe := header.isKeyframe
  priority := header.priority
  groupId := header.groupId.toNat
  objectId := header.objectId.toNat
  payload := payload

/-- Track streams are parsed with this codec. -/
theorem decodeTrackObject_eq (src : Bytes) :
    decodeTrackObject src = (decode src).map fun decoded => decoded.1.object decoded.2 := by
  unfold decodeTrackObject
  split
  · next a keyframe priority reserved rest =>
      have hshort : (a :: keyframe :: priority :: reserved :: rest).length <
          trackObjectHeaderSize ↔ rest.length < 16 := by
        simp only [List.length_cons, trackObjectHeaderSize]
        omega
      simp only [decode, hshort]
      split
      · rfl
      · next hlength =>
          have hgroup := ofBytes_slice_lt (show 0 + 8 ≤ rest.length by omega)
          have hid := ofBytes_slice_lt (show 8 + 8 ≤ rest.length by omega)
          simp only [Layout.slice, List.drop_zero, Nat.reducePow] at hgroup hid
          simp only [readU8, readU64, Layout.slice, List.getD_cons_zero, List.getD_cons_succ,
            List.drop_succ_cons, List.drop_zero]
          split
          · rfl
          · simp only [Except.map, object, trackObjectHeaderSize, List.drop_succ_cons,
              UInt64.toNat_ofNat', Nat.reducePow, Nat.mod_eq_of_lt hgroup,
              Nat.mod_eq_of_lt hid]
  · next hother =>
      have hlength : src.length < trackObjectHeaderSize := by
        simp only [trackObjectHeaderSize]
        obtain - | ⟨a, - | ⟨b, - | ⟨c, - | ⟨d, rest⟩⟩⟩⟩ := src
        · simp
        · simp
        · simp
        · simp
        · exact absurd rfl (hother a b c d rest)
      simp only [decode, hlength, if_true]
      rfl

end WireTrackObject

/-! ### FEC datagrams -/

structure WireFecHeader where
  trackAlias : UInt8
  isKeyframe : Bool
  priority : UInt8
  pathId : UInt8
  groupId : UInt64
  objectId : UInt64
  symbolIndex : UInt16
  totalSymbols : UInt16
  dataSymbols : UInt16
  symbolSize : UInt16
  originalSize : UInt32
  sendTimeNs : UInt64
  deriving DecidableEq, Repr

namespace WireFecHeader

def stores (header : WireFecHeader) : List Layout.Store :=
  [(0, [wireMagic0]), (1, [wireMagic1]), (2, [wireVersion]), (3, [wireDatagramFec]),
    (4, [header.trackAlias]), (5, [keyframeByte header.isKeyframe]), (6, [header.priority]),
    (7, [header.pathId]), (8, writeU64 header.groupId), (16, writeU64 header.objectId),
    (24, writeU16 header.symbolIndex), (26, writeU16 header.totalSymbols),
    (28, writeU16 header.dataSymbols), (30, writeU16 header.symbolSize),
    (32, writeU32 header.originalSize), (36, writeU64 header.sendTimeNs)]

def encode (dst : Bytes) (header : WireFecHeader) : Except WireError Bytes :=
  if dst.length < wireFecHeaderSize then
    .error .tooLarge
  else
    .ok (Layout.storeAll dst header.stores)

def decode (src : Bytes) : Except WireError WireFecHeader :=
  match checkEnvelope src wireDatagramFec with
  | .error result => .error result
  | .ok () =>
      if src.length < wireFecHeaderSize then
        .error .needMore
      else if 1 < readU8 src 5 then
        .error .invalid
      else
        .ok { trackAlias := readU8 src 4
              isKeyframe := readU8 src 5 != 0
              priority := readU8 src 6
              pathId := readU8 src 7
              groupId := readU64 src 8
              objectId := readU64 src 16
              symbolIndex := readU16 src 24
              totalSymbols := readU16 src 26
              dataSymbols := readU16 src 28
              symbolSize := readU16 src 30
              originalSize := readU32 src 32
              sendTimeNs := readU64 src 36 }

theorem holds_iff {src : Bytes} (hlength : wireFecHeaderSize ≤ src.length)
    (header : WireFecHeader) :
    Layout.Holds src header.stores ↔
      readU8 src 0 = wireMagic0 ∧ readU8 src 1 = wireMagic1 ∧ readU8 src 2 = wireVersion ∧
        readU8 src 3 = wireDatagramFec ∧ readU8 src 4 = header.trackAlias ∧
        readU8 src 5 = keyframeByte header.isKeyframe ∧ readU8 src 6 = header.priority ∧
        readU8 src 7 = header.pathId ∧ readU64 src 8 = header.groupId ∧
        readU64 src 16 = header.objectId ∧ readU16 src 24 = header.symbolIndex ∧
        readU16 src 26 = header.totalSymbols ∧ readU16 src 28 = header.dataSymbols ∧
        readU16 src 30 = header.symbolSize ∧ readU32 src 32 = header.originalSize ∧
        readU64 src 36 = header.sendTimeNs := by
  simp only [wireFecHeaderSize] at hlength
  simp only [Layout.Holds, stores, List.forall_mem_cons, List.length_singleton,
    length_writeU64, length_writeU32, length_writeU16]
  rw [slice_one src (by omega), slice_one src (by omega), slice_one src (by omega),
    slice_one src (by omega), slice_one src (by omega), slice_one src (by omega),
    slice_one src (by omega), slice_one src (by omega), slice_writeU64 (by omega),
    slice_writeU64 (by omega), slice_writeU16 (by omega), slice_writeU16 (by omega),
    slice_writeU16 (by omega), slice_writeU16 (by omega), slice_writeU32 (by omega),
    slice_writeU64 (by omega)]
  simp

theorem decode_iff {src : Bytes} {header : WireFecHeader} :
    decode src = .ok header ↔
      checkEnvelope src wireDatagramFec = .ok () ∧ wireFecHeaderSize ≤ src.length ∧
        ¬ 1 < readU8 src 5 ∧
        ⟨readU8 src 4, readU8 src 5 != 0, readU8 src 6, readU8 src 7, readU64 src 8,
          readU64 src 16, readU16 src 24, readU16 src 26, readU16 src 28, readU16 src 30,
          readU32 src 32, readU64 src 36⟩ = header := by
  unfold decode
  cases checkEnvelope src wireDatagramFec with
  | error result => simp
  | ok _ =>
      simp only [ConfiguredLimits.ite_error_eq_ok, not_lt, Except.ok.injEq, true_and]

theorem lawful :
    Layout.Lawful wireFecHeaderSize (wireFecHeaderSize ≤ ·) (fun _ => True) stores
      encode decode where
  contiguous header := by simp [Layout.Contiguous, stores]
  length_bytes header := by simp [Layout.bytes, stores, wireFecHeaderSize]
  admits_le := id
  encode_iff := by
    intro dst header out
    simp only [encode, ConfiguredLimits.ite_error_eq_ok, not_lt, Except.ok.injEq, true_and,
      @eq_comm _ out]
  decode_iff := by
    intro src header
    rw [decode_iff, checkEnvelope_iff]
    by_cases hlength : wireFecHeaderSize ≤ src.length
    · have hfour : 4 ≤ src.length := le_trans (by decide) hlength
      rw [holds_iff hlength, keyframeByte_iff]
      cases header
      simp only [mk.injEq]
      constructor
      · rintro ⟨⟨_, hmagic0, hmagic1, hversion, hkind⟩, _, hflag, ha, hkeyframe, hrest⟩
        exact ⟨hlength, trivial, hmagic0, hmagic1, hversion, hkind, ha, ⟨hflag, hkeyframe⟩,
          hrest⟩
      · rintro ⟨_, _, hmagic0, hmagic1, hversion, hkind, ha, ⟨hflag, hkeyframe⟩, hrest⟩
        exact ⟨⟨hfour, hmagic0, hmagic1, hversion, hkind⟩, hlength, hflag, ha, hkeyframe,
          hrest⟩
    · simp only [hlength, false_and, and_false]

end WireFecHeader

/-! ### Telemetry -/

structure WireTelemetry where
  pathId : UInt8
  sendTimeNs : UInt64
  recvTimeNs : UInt64
  deriving DecidableEq, Repr

namespace WireTelemetry

def stores (telemetry : WireTelemetry) : List Layout.Store :=
  [(0, [wireMagic0]), (1, [wireMagic1]), (2, [wireVersion]), (3, [wireDatagramTelemetry]),
    (4, [telemetry.pathId]), (5, [0]), (6, [0]), (7, [0]),
    (8, writeU64 telemetry.sendTimeNs), (16, writeU64 telemetry.recvTimeNs)]

def encode (dst : Bytes) (telemetry : WireTelemetry) : Except WireError Bytes :=
  if dst.length < wireTelemetrySize then
    .error .tooLarge
  else
    .ok (Layout.storeAll dst telemetry.stores)

def decode (src : Bytes) : Except WireError WireTelemetry :=
  match checkEnvelope src wireDatagramTelemetry with
  | .error result => .error result
  | .ok () =>
      if src.length ≠ wireTelemetrySize then
        .error .invalid
      else if readU8 src 5 ≠ 0 ∨ readU8 src 6 ≠ 0 ∨ readU8 src 7 ≠ 0 then
        .error .invalid
      else
        .ok { pathId := readU8 src 4
              sendTimeNs := readU64 src 8
              recvTimeNs := readU64 src 16 }

theorem holds_iff {src : Bytes} (hlength : src.length = wireTelemetrySize)
    (telemetry : WireTelemetry) :
    Layout.Holds src telemetry.stores ↔
      readU8 src 0 = wireMagic0 ∧ readU8 src 1 = wireMagic1 ∧ readU8 src 2 = wireVersion ∧
        readU8 src 3 = wireDatagramTelemetry ∧ readU8 src 4 = telemetry.pathId ∧
        readU8 src 5 = 0 ∧ readU8 src 6 = 0 ∧ readU8 src 7 = 0 ∧
        readU64 src 8 = telemetry.sendTimeNs ∧ readU64 src 16 = telemetry.recvTimeNs := by
  simp only [wireTelemetrySize] at hlength
  simp only [Layout.Holds, stores, List.forall_mem_cons, List.length_singleton,
    length_writeU64]
  rw [slice_one src (by omega), slice_one src (by omega), slice_one src (by omega),
    slice_one src (by omega), slice_one src (by omega), slice_one src (by omega),
    slice_one src (by omega), slice_one src (by omega), slice_writeU64 (by omega),
    slice_writeU64 (by omega)]
  simp

theorem decode_iff {src : Bytes} {telemetry : WireTelemetry} :
    decode src = .ok telemetry ↔
      checkEnvelope src wireDatagramTelemetry = .ok () ∧ src.length = wireTelemetrySize ∧
        ¬ (readU8 src 5 ≠ 0 ∨ readU8 src 6 ≠ 0 ∨ readU8 src 7 ≠ 0) ∧
        ⟨readU8 src 4, readU64 src 8, readU64 src 16⟩ = telemetry := by
  unfold decode
  cases checkEnvelope src wireDatagramTelemetry with
  | error result => simp
  | ok _ =>
      simp only [ConfiguredLimits.ite_error_eq_ok, ne_eq, not_not, Except.ok.injEq, true_and]

theorem lawful :
    Layout.Lawful wireTelemetrySize (· = wireTelemetrySize) (fun _ => True) stores
      encode decode where
  contiguous telemetry := by simp [Layout.Contiguous, stores]
  length_bytes telemetry := by simp [Layout.bytes, stores, wireTelemetrySize]
  admits_le := Eq.ge
  encode_iff := by
    intro dst telemetry out
    simp only [encode, ConfiguredLimits.ite_error_eq_ok, not_lt, Except.ok.injEq, true_and,
      @eq_comm _ out]
  decode_iff := by
    intro src telemetry
    rw [decode_iff, checkEnvelope_iff]
    by_cases hlength : src.length = wireTelemetrySize
    · have hfour : 4 ≤ src.length := by rw [hlength]; decide
      rw [holds_iff hlength]
      cases telemetry
      simp only [mk.injEq, not_or, ne_eq, not_not]
      constructor
      · rintro ⟨⟨_, hmagic0, hmagic1, hversion, hkind⟩, _, ⟨hfive, hsix, hseven⟩, hpath,
          htimes⟩
        exact ⟨hlength, trivial, hmagic0, hmagic1, hversion, hkind, hpath, hfive, hsix,
          hseven, htimes⟩
      · rintro ⟨_, _, hmagic0, hmagic1, hversion, hkind, hpath, hfive, hsix, hseven,
          htimes⟩
        exact ⟨⟨hfour, hmagic0, hmagic1, hversion, hkind⟩, hlength, ⟨hfive, hsix, hseven⟩,
          hpath, htimes⟩
    · simp only [hlength, false_and, and_false]

end WireTelemetry

/-! ### HELLO -/

structure WireHello where
  role : UInt8
  maxPaths : UInt16
  capabilities : UInt32
  maxReliableObjectSize : UInt32
  maxFecObjectSize : UInt32
  maxSubscriptions : UInt16
  maxDatagramSize : UInt16
  deriving DecidableEq, Repr

namespace WireHello

def stores (hello : WireHello) : List Layout.Store :=
  [(0, [hello.role]), (1, [0]), (2, writeU16 hello.maxPaths),
    (4, writeU32 hello.capabilities), (8, writeU32 hello.maxReliableObjectSize),
    (12, writeU32 hello.maxFecObjectSize), (16, writeU16 hello.maxSubscriptions),
    (18, writeU16 hello.maxDatagramSize)]

/-- What both directions refuse. -/
def Refused (hello : WireHello) : Prop :=
  wireRoleServer < hello.role ∨ hello.maxPaths = 0 ∨ hello.maxSubscriptions = 0 ∨
    hello.maxDatagramSize = 0 ∨ hello.maxReliableObjectSize = 0 ∨
    hello.maxFecObjectSize = 0 ∨ hello.capabilities &&& ~~~wireCapKnown ≠ 0

instance (hello : WireHello) : Decidable hello.Refused := by
  unfold Refused
  infer_instance

def encode (dst : Bytes) (hello : WireHello) : Except WireError Bytes :=
  if dst.length < wireHelloSize ∨ hello.Refused then
    .error .invalid
  else
    .ok (Layout.storeAll dst hello.stores)

def decode (src : Bytes) : Except WireError WireHello :=
  if src.length ≠ wireHelloSize ∨ readU8 src 1 ≠ 0 then
    .error .invalid
  else
    let hello : WireHello :=
      { role := readU8 src 0
        maxPaths := readU16 src 2
        capabilities := readU32 src 4
        maxReliableObjectSize := readU32 src 8
        maxFecObjectSize := readU32 src 12
        maxSubscriptions := readU16 src 16
        maxDatagramSize := readU16 src 18 }
    if hello.Refused then .error .invalid else .ok hello

theorem holds_iff {src : Bytes} (hlength : src.length = wireHelloSize) (hello : WireHello) :
    Layout.Holds src hello.stores ↔
      readU8 src 0 = hello.role ∧ readU8 src 1 = 0 ∧ readU16 src 2 = hello.maxPaths ∧
        readU32 src 4 = hello.capabilities ∧ readU32 src 8 = hello.maxReliableObjectSize ∧
        readU32 src 12 = hello.maxFecObjectSize ∧ readU16 src 16 = hello.maxSubscriptions ∧
        readU16 src 18 = hello.maxDatagramSize := by
  simp only [wireHelloSize] at hlength
  simp only [Layout.Holds, stores, List.forall_mem_cons, List.length_singleton,
    length_writeU32, length_writeU16]
  rw [slice_one src (by omega), slice_one src (by omega), slice_writeU16 (by omega),
    slice_writeU32 (by omega), slice_writeU32 (by omega), slice_writeU32 (by omega),
    slice_writeU16 (by omega), slice_writeU16 (by omega)]
  simp

theorem decode_iff {src : Bytes} {hello : WireHello} :
    decode src = .ok hello ↔
      src.length = wireHelloSize ∧ readU8 src 1 = 0 ∧ ¬ hello.Refused ∧
        ⟨readU8 src 0, readU16 src 2, readU32 src 4, readU32 src 8, readU32 src 12,
          readU16 src 16, readU16 src 18⟩ = hello := by
  simp only [decode, ConfiguredLimits.ite_error_eq_ok, not_or, ne_eq, not_not,
    Except.ok.injEq]
  constructor
  · rintro ⟨⟨hlength, hreserved⟩, haccepted, rfl⟩
    exact ⟨hlength, hreserved, haccepted, rfl⟩
  · rintro ⟨hlength, hreserved, haccepted, rfl⟩
    exact ⟨⟨hlength, hreserved⟩, haccepted, rfl⟩

theorem lawful :
    Layout.Lawful wireHelloSize (· = wireHelloSize) (¬ ·.Refused) stores encode decode where
  contiguous hello := by simp [Layout.Contiguous, stores]
  length_bytes hello := by simp [Layout.bytes, stores, wireHelloSize]
  admits_le := Eq.ge
  encode_iff := by
    intro dst hello out
    simp only [encode, ConfiguredLimits.ite_error_eq_ok, not_or, not_lt, Except.ok.injEq,
      and_assoc, @eq_comm _ out]
  decode_iff := by
    intro src hello
    rw [decode_iff]
    apply and_congr_right
    intro hlength
    rw [holds_iff hlength]
    cases hello
    simp only [mk.injEq]
    constructor
    · rintro ⟨hreserved, haccepted, hrole, hrest⟩
      exact ⟨haccepted, hrole, hreserved, hrest⟩
    · rintro ⟨haccepted, hrole, hreserved, hrest⟩
      exact ⟨hreserved, haccepted, hrole, hrest⟩

end WireHello

/-! ### Track completion and recovery checkpoints -/

structure WireTrackEnd where
  trackAlias : UInt8
  groupId : UInt64
  finalObjectId : UInt64
  deriving DecidableEq, Repr

namespace WireTrackEnd

def stores (finish : WireTrackEnd) : List Layout.Store :=
  [(0, [finish.trackAlias]), (1, writeU64 finish.groupId), (9, writeU64 finish.finalObjectId)]

def encode (dst : Bytes) (finish : WireTrackEnd) : Except WireError Bytes :=
  if dst.length < wireTrackEndSize then
    .error .tooLarge
  else
    .ok (Layout.storeAll dst finish.stores)

def decode (src : Bytes) : Except WireError WireTrackEnd :=
  if src.length ≠ wireTrackEndSize then
    .error .invalid
  else
    .ok { trackAlias := readU8 src 0
          groupId := readU64 src 1
          finalObjectId := readU64 src 9 }

theorem holds_iff {src : Bytes} (hlength : src.length = wireTrackEndSize)
    (finish : WireTrackEnd) :
    Layout.Holds src finish.stores ↔
      readU8 src 0 = finish.trackAlias ∧ readU64 src 1 = finish.groupId ∧
        readU64 src 9 = finish.finalObjectId := by
  simp only [wireTrackEndSize] at hlength
  simp only [Layout.Holds, stores, List.forall_mem_cons, List.length_singleton,
    length_writeU64]
  rw [slice_one src (by omega), slice_writeU64 (by omega), slice_writeU64 (by omega)]
  simp

theorem lawful :
    Layout.Lawful wireTrackEndSize (· = wireTrackEndSize) (fun _ => True) stores
      encode decode where
  contiguous finish := by simp [Layout.Contiguous, stores]
  length_bytes finish := by simp [Layout.bytes, stores, wireTrackEndSize]
  admits_le := Eq.ge
  encode_iff := by
    intro dst finish out
    simp only [encode, ConfiguredLimits.ite_error_eq_ok, not_lt, Except.ok.injEq, true_and,
      @eq_comm _ out]
  decode_iff := by
    intro src finish
    simp only [decode, ConfiguredLimits.ite_error_eq_ok, ne_eq, not_not, Except.ok.injEq,
      true_and]
    apply and_congr_right
    intro hlength
    rw [holds_iff hlength]
    cases finish
    simp only [mk.injEq]

end WireTrackEnd

structure WireTrackCheckpoint where
  trackAlias : UInt8
  flags : UInt8
  groupId : UInt64
  firstObjectId : UInt64
  finalObjectId : UInt64
  deriving DecidableEq, Repr

namespace WireTrackCheckpoint

def stores (checkpoint : WireTrackCheckpoint) : List Layout.Store :=
  [(0, [checkpoint.trackAlias]), (1, [checkpoint.flags]), (2, [0]), (3, [0]),
    (4, writeU64 checkpoint.groupId), (12, writeU64 checkpoint.firstObjectId),
    (20, writeU64 checkpoint.finalObjectId)]

/-- Known flags and an interval that is not empty. -/
def Accepted (checkpoint : WireTrackCheckpoint) : Prop :=
  checkpoint.flags &&& ~~~wireCheckpointBaseline = 0 ∧
    checkpoint.firstObjectId ≤ checkpoint.finalObjectId

instance (checkpoint : WireTrackCheckpoint) : Decidable checkpoint.Accepted := by
  unfold Accepted
  infer_instance

def encode (dst : Bytes) (checkpoint : WireTrackCheckpoint) : Except WireError Bytes :=
  if ¬ checkpoint.Accepted then
    .error .invalid
  else if dst.length < wireTrackCheckpointSize then
    .error .tooLarge
  else
    .ok (Layout.storeAll dst checkpoint.stores)

def decode (src : Bytes) : Except WireError WireTrackCheckpoint :=
  if src.length ≠ wireTrackCheckpointSize then
    .error .invalid
  else
    let checkpoint : WireTrackCheckpoint :=
      { trackAlias := readU8 src 0
        flags := readU8 src 1
        groupId := readU64 src 4
        firstObjectId := readU64 src 12
        finalObjectId := readU64 src 20 }
    if readU8 src 2 = 0 ∧ readU8 src 3 = 0 ∧ checkpoint.Accepted then
      .ok checkpoint
    else
      .error .invalid

theorem holds_iff {src : Bytes} (hlength : src.length = wireTrackCheckpointSize)
    (checkpoint : WireTrackCheckpoint) :
    Layout.Holds src checkpoint.stores ↔
      readU8 src 0 = checkpoint.trackAlias ∧ readU8 src 1 = checkpoint.flags ∧
        readU8 src 2 = 0 ∧ readU8 src 3 = 0 ∧ readU64 src 4 = checkpoint.groupId ∧
        readU64 src 12 = checkpoint.firstObjectId ∧
        readU64 src 20 = checkpoint.finalObjectId := by
  simp only [wireTrackCheckpointSize] at hlength
  simp only [Layout.Holds, stores, List.forall_mem_cons, List.length_singleton,
    length_writeU64]
  rw [slice_one src (by omega), slice_one src (by omega), slice_one src (by omega),
    slice_one src (by omega), slice_writeU64 (by omega), slice_writeU64 (by omega),
    slice_writeU64 (by omega)]
  simp

theorem decode_iff {src : Bytes} {checkpoint : WireTrackCheckpoint} :
    decode src = .ok checkpoint ↔
      src.length = wireTrackCheckpointSize ∧ readU8 src 2 = 0 ∧ readU8 src 3 = 0 ∧
        checkpoint.Accepted ∧
        ⟨readU8 src 0, readU8 src 1, readU64 src 4, readU64 src 12, readU64 src 20⟩ =
          checkpoint := by
  simp only [decode, ConfiguredLimits.ite_error_eq_ok, ne_eq, not_not]
  apply and_congr_right
  intro hlength
  split
  · next haccepted =>
      obtain ⟨hfirst, hsecond, haccepted⟩ := haccepted
      simp only [Except.ok.injEq]
      constructor
      · rintro rfl
        exact ⟨hfirst, hsecond, haccepted, rfl⟩
      · rintro ⟨_, _, _, rfl⟩
        rfl
  · next hrefused =>
      simp only [reduceCtorEq, false_iff]
      rintro ⟨hfirst, hsecond, haccepted, rfl⟩
      exact hrefused ⟨hfirst, hsecond, haccepted⟩

theorem lawful :
    Layout.Lawful wireTrackCheckpointSize (· = wireTrackCheckpointSize) Accepted stores
      encode decode where
  contiguous checkpoint := by simp [Layout.Contiguous, stores]
  length_bytes checkpoint := by simp [Layout.bytes, stores, wireTrackCheckpointSize]
  admits_le := Eq.ge
  encode_iff := by
    intro dst checkpoint out
    simp only [encode, ConfiguredLimits.ite_error_eq_ok, not_not, not_lt, Except.ok.injEq,
      @eq_comm _ out]
    exact and_left_comm
  decode_iff := by
    intro src checkpoint
    rw [decode_iff]
    apply and_congr_right
    intro hlength
    rw [holds_iff hlength]
    cases checkpoint
    simp only [mk.injEq]
    tauto

end WireTrackCheckpoint

structure WireTrackCheckpointAck where
  trackAlias : UInt8
  groupId : UInt64
  finalObjectId : UInt64
  deriving DecidableEq, Repr

namespace WireTrackCheckpointAck

def stores (ack : WireTrackCheckpointAck) : List Layout.Store :=
  [(0, [ack.trackAlias]), (1, writeU64 ack.groupId), (9, writeU64 ack.finalObjectId)]

def encode (dst : Bytes) (ack : WireTrackCheckpointAck) : Except WireError Bytes :=
  if dst.length < wireTrackCheckpointAckSize then
    .error .tooLarge
  else
    .ok (Layout.storeAll dst ack.stores)

def decode (src : Bytes) : Except WireError WireTrackCheckpointAck :=
  if src.length ≠ wireTrackCheckpointAckSize then
    .error .invalid
  else
    .ok { trackAlias := readU8 src 0
          groupId := readU64 src 1
          finalObjectId := readU64 src 9 }

theorem holds_iff {src : Bytes} (hlength : src.length = wireTrackCheckpointAckSize)
    (ack : WireTrackCheckpointAck) :
    Layout.Holds src ack.stores ↔
      readU8 src 0 = ack.trackAlias ∧ readU64 src 1 = ack.groupId ∧
        readU64 src 9 = ack.finalObjectId := by
  simp only [wireTrackCheckpointAckSize] at hlength
  simp only [Layout.Holds, stores, List.forall_mem_cons, List.length_singleton,
    length_writeU64]
  rw [slice_one src (by omega), slice_writeU64 (by omega), slice_writeU64 (by omega)]
  simp

theorem lawful :
    Layout.Lawful wireTrackCheckpointAckSize (· = wireTrackCheckpointAckSize)
      (fun _ => True) stores encode decode where
  contiguous ack := by simp [Layout.Contiguous, stores]
  length_bytes ack := by simp [Layout.bytes, stores, wireTrackCheckpointAckSize]
  admits_le := Eq.ge
  encode_iff := by
    intro dst ack out
    simp only [encode, ConfiguredLimits.ite_error_eq_ok, not_lt, Except.ok.injEq, true_and,
      @eq_comm _ out]
  decode_iff := by
    intro src ack
    simp only [decode, ConfiguredLimits.ite_error_eq_ok, ne_eq, not_not, Except.ok.injEq,
      true_and]
    apply and_congr_right
    intro hlength
    rw [holds_iff hlength]
    cases ack
    simp only [mk.injEq]

end WireTrackCheckpointAck

/-- Every payload of fixed layout is encoded and decoded without loss, in one way only. -/
theorem payloads_bijective :
    Layout.Bijective trackObjectHeaderSize (trackObjectHeaderSize ≤ ·)
        WireTrackObject.encode WireTrackObject.decodeHeader ∧
      (∀ src object payload, WireTrackObject.decode src = .ok (object, payload) →
        payload = src.drop trackObjectHeaderSize) ∧
      Layout.Bijective wireFecHeaderSize (wireFecHeaderSize ≤ ·)
        WireFecHeader.encode WireFecHeader.decode ∧
      Layout.Bijective wireTelemetrySize (· = wireTelemetrySize)
        WireTelemetry.encode WireTelemetry.decode ∧
      Layout.Bijective wireHelloSize (· = wireHelloSize) WireHello.encode WireHello.decode ∧
      Layout.Bijective wireTrackEndSize (· = wireTrackEndSize)
        WireTrackEnd.encode WireTrackEnd.decode ∧
      Layout.Bijective wireTrackCheckpointSize (· = wireTrackCheckpointSize)
        WireTrackCheckpoint.encode WireTrackCheckpoint.decode ∧
      Layout.Bijective wireTrackCheckpointAckSize (· = wireTrackCheckpointAckSize)
        WireTrackCheckpointAck.encode WireTrackCheckpointAck.decode :=
  ⟨WireTrackObject.lawful.bijective, fun _ _ _ => WireTrackObject.decode_payload,
    WireFecHeader.lawful.bijective, WireTelemetry.lawful.bijective,
    WireHello.lawful.bijective, WireTrackEnd.lawful.bijective,
    WireTrackCheckpoint.lawful.bijective, WireTrackCheckpointAck.lawful.bijective⟩

end Qlinq
