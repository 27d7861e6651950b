import Mathlib.Data.List.TakeWhile
import Qlinq.ControlWire

namespace Qlinq

/-! Track and NACK descriptors: what their encoders produce and their decoders
accept. -/

/-! ### Track descriptors -/

namespace WireTrack

/-- The C string in the name field, which has one byte more than the longest name. -/
def cName (track : WireTrack) : Bytes :=
  (track.name.take (wireMaxTrackName + 1)).takeWhile (· ≠ 0)

/-- `qlinq_wire_encode_track`. -/
def encode (track : WireTrack) (capacity : Nat) : Except WireError Bytes :=
  let nameLen := track.cName.length
  if wireMaxTrackName < nameLen ∨ capacity < 4 + nameLen then
    .error .tooLarge
  else
    .ok ([track.trackAlias, track.trackType, track.flags, UInt8.ofNat nameLen] ++
      track.name.take nameLen)

/-- The bytes of a descriptor. -/
def bytes (trackAlias trackType flags : UInt8) (name : Bytes) : Bytes :=
  [trackAlias, trackType, flags, UInt8.ofNat name.length] ++ name

/-- What a descriptor says to a program that reads its name as a C string. -/
def denotes (track : WireTrack) : UInt8 × Bytes × UInt8 × UInt8 :=
  (track.trackType, track.cName, track.flags, track.trackAlias)

theorem toNat_length {name : Bytes} (hname : name.length ≤ wireMaxTrackName) :
    (UInt8.ofNat name.length).toNat = name.length := by
  rw [UInt8.toNat_ofNat', Nat.mod_eq_of_lt]
  simp only [wireMaxTrackName] at hname
  omega

theorem decode_iff {src : Bytes} {track : WireTrack} :
    decode src = .ok track ↔
      track.name.length ≤ wireMaxTrackName ∧
        src = bytes track.trackAlias track.trackType track.flags track.name := by
  constructor
  · intro hdecode
    simp only [decode, ConfiguredLimits.ite_error_eq_ok, Except.ok.injEq, not_or, not_lt,
      not_not] at hdecode
    obtain ⟨hfour, ⟨hname, hlength⟩, rfl⟩ := hdecode
    match src, hfour with
    | a :: type :: flags :: size :: name, _ =>
        have hsize : (readU8 (a :: type :: flags :: size :: name) 3).toNat = size.toNat := rfl
        rw [hsize] at hname hlength
        have hexact : name.length = size.toNat := by
          simp only [List.length_cons] at hlength
          omega
        refine ⟨?_, ?_⟩
        · change name.length ≤ wireMaxTrackName
          omega
        · change a :: type :: flags :: size :: name = bytes a type flags name
          simp [bytes, hexact]
  · rintro ⟨hname, hsrc⟩
    have hsize : (readU8 src 3).toNat = track.name.length := by
      rw [hsrc]
      exact toNat_length hname
    have hlength : src.length = 4 + track.name.length := by
      rw [hsrc, bytes, List.length_append]
      rfl
    have hdrop : src.drop 4 = track.name := by
      rw [hsrc]
      rfl
    rw [decode, if_neg (by omega)]
    simp only [hsize, hlength, hdrop]
    rw [if_neg (by simpa using hname)]
    cases track
    simp only at hsrc
    subst hsrc
    rfl

theorem cName_of_short {track : WireTrack} (hname : track.name.length ≤ wireMaxTrackName) :
    track.cName = track.name.takeWhile (· ≠ 0) := by
  rw [cName, List.take_of_length_le (by omega)]

/-- A C string ends at the first zero byte. -/
theorem takeWhile_eq_self_iff {name : Bytes} :
    name.takeWhile (· ≠ 0) = name ↔ 0 ∉ name := by
  rw [List.takeWhile_eq_self_iff]
  constructor
  · intro hall hzero
    simpa using hall 0 hzero
  · intro habsent byte hbyte
    have hne : byte ≠ 0 := by
      rintro rfl
      exact habsent hbyte
    simpa using hne

theorem zero_not_mem_cName (track : WireTrack) : 0 ∉ track.cName := by
  intro hzero
  have := List.mem_takeWhile_imp hzero
  simp at this

theorem encode_iff {track : WireTrack} {capacity : Nat} {src : Bytes} :
    track.encode capacity = .ok src ↔
      track.cName.length ≤ wireMaxTrackName ∧ 4 + track.cName.length ≤ capacity ∧
        src = bytes track.trackAlias track.trackType track.flags track.cName := by
  have hprefix : track.name.take track.cName.length = track.cName := by
    have hpre : track.cName <+: track.name :=
      (List.takeWhile_prefix _).trans (List.take_prefix _ _)
    exact (List.prefix_iff_eq_take.mp hpre).symm
  simp only [encode, ConfiguredLimits.ite_error_eq_ok, Except.ok.injEq, not_or, not_lt, hprefix,
    and_assoc, bytes, @eq_comm _ src]

/-- A descriptor whose name holds a zero byte. -/
def HidesName (src : Bytes) : Prop :=
  4 ≤ src.length ∧ (readU8 src 3).toNat ≤ wireMaxTrackName ∧
    src.length = 4 + (readU8 src 3).toNat ∧ 0 ∈ src.drop 4

instance (src : Bytes) : Decidable (HidesName src) := by
  unfold HidesName
  infer_instance

theorem hidesName_iff {src : Bytes} :
    HidesName src ↔ ∃ track, decode src = .ok track ∧ 0 ∈ track.name := by
  constructor
  · rintro ⟨hfour, hname, hlength, hzero⟩
    refine ⟨⟨readU8 src 0, readU8 src 1, readU8 src 2, src.drop 4⟩, ?_, hzero⟩
    simp only [decode, ConfiguredLimits.ite_error_eq_ok, not_or, not_lt, not_not]
    exact ⟨hfour, ⟨hname, hlength⟩, trivial⟩
  · rintro ⟨track, hdecode, hzero⟩
    simp only [decode, ConfiguredLimits.ite_error_eq_ok, Except.ok.injEq, not_or, not_lt,
      not_not] at hdecode
    obtain ⟨hfour, ⟨hname, hlength⟩, rfl⟩ := hdecode
    exact ⟨hfour, hname, hlength, hzero⟩

/-- A string is accepted exactly if some descriptor encodes to it, and then its
fields encode to it again and its whole name is seen. -/
structure Canonical (src : Bytes) : Prop where
  producible : (∃ track, decode src = .ok track) ↔
    ∃ (track : WireTrack) (capacity : Nat), track.encode capacity = .ok src
  reencodes : ∀ track, decode src = .ok track → ∀ capacity, src.length ≤ capacity →
    track.encode capacity = .ok src
  cName : ∀ track, decode src = .ok track → track.cName = src.drop 4
  trackId : ∀ track id, decode src = .ok track → track.trackId? = some id →
    id.name = src.drop 4

theorem decode_encoded {track : WireTrack} (hencode : track.encode capacity = .ok src) :
    ∃ decoded, decode src = .ok decoded ∧ decoded.denotes = track.denotes ∧
      0 ∉ decoded.name := by
  obtain ⟨hname, -, rfl⟩ := encode_iff.mp hencode
  have hwhole := takeWhile_eq_self_iff.mpr (zero_not_mem_cName track)
  let decoded : WireTrack := ⟨track.trackAlias, track.trackType, track.flags, track.cName⟩
  have hseen : decoded.cName = track.cName := (cName_of_short hname).trans hwhole
  refine ⟨decoded, decode_iff.mpr ⟨hname, rfl⟩, ?_, zero_not_mem_cName track⟩
  rw [denotes, hseen]
  rfl

theorem name_trackId? {track : WireTrack} {id : TrackId} (hid : track.trackId? = some id) :
    id.name = track.name.takeWhile (· ≠ 0) := by
  unfold trackId? at hid
  split at hid
  · obtain ⟨type, -, rfl⟩ := Option.map_eq_some_iff.mp hid
    rfl
  · simp at hid

theorem canonical_iff (src : Bytes) : Canonical src ↔ ¬ HidesName src := by
  constructor
  · intro hcanonical hhides
    obtain ⟨track, hdecode, hzero⟩ := hidesName_iff.mp hhides
    have hseen := hcanonical.cName track hdecode
    have hdrop : src.drop 4 = track.name := by
      rw [(decode_iff.mp hdecode).2]
      rfl
    rw [← hdrop, ← hseen] at hzero
    exact zero_not_mem_cName track hzero
  · intro hshown
    have hwhole : ∀ track, decode src = .ok track →
        src.drop 4 = track.name ∧ track.name.takeWhile (· ≠ 0) = track.name ∧
          track.cName = track.name := by
      intro track hdecode
      obtain ⟨hname, hsrc⟩ := decode_iff.mp hdecode
      have hfree : 0 ∉ track.name := fun hzero => hshown (hidesName_iff.mpr ⟨track, hdecode, hzero⟩)
      have hself := takeWhile_eq_self_iff.mpr hfree
      refine ⟨?_, hself, (cName_of_short hname).trans hself⟩
      rw [hsrc]
      rfl
    have hreencodes : ∀ track, decode src = .ok track → ∀ capacity, src.length ≤ capacity →
        track.encode capacity = .ok src := by
      intro track hdecode capacity hroom
      obtain ⟨hname, hsrc⟩ := decode_iff.mp hdecode
      obtain ⟨-, -, hseen⟩ := hwhole track hdecode
      rw [encode_iff, hseen]
      refine ⟨hname, ?_, hsrc⟩
      rw [hsrc, bytes, List.length_append] at hroom
      exact hroom
    refine ⟨⟨?_, ?_⟩, hreencodes, ?_, ?_⟩
    · rintro ⟨track, hdecode⟩
      exact ⟨track, src.length, hreencodes track hdecode _ (Nat.le_refl _)⟩
    · rintro ⟨track, capacity, hencode⟩
      obtain ⟨decoded, hdecode, -⟩ := decode_encoded hencode
      exact ⟨decoded, hdecode⟩
    · intro track hdecode
      obtain ⟨hdrop, -, hseen⟩ := hwhole track hdecode
      rw [hseen, hdrop]
    · intro track id hdecode hid
      obtain ⟨hdrop, hself, -⟩ := hwhole track hdecode
      rw [name_trackId? hid, hself, hdrop]

/-- Descriptors without a zero byte in their names are canonical, and no others;
they say different things where they differ. -/
theorem descriptors_canonical (src : Bytes) :
    (Canonical src ↔ ¬ HidesName src) ∧
    ∀ other track track', ¬ HidesName src → ¬ HidesName other →
      decode src = .ok track → decode other = .ok track' → track.denotes = track'.denotes →
        src = other := by
  refine ⟨canonical_iff src, ?_⟩
  intro other track track' hsrc hother hdecode hdecode' hsame
  have hencode := ((canonical_iff src).mpr hsrc).reencodes track hdecode src.length
    (Nat.le_refl _)
  have hencode' := ((canonical_iff other).mpr hother).reencodes track' hdecode' other.length
    (Nat.le_refl _)
  simp only [denotes, Prod.mk.injEq] at hsame
  obtain ⟨htype, hname, hflags, halias⟩ := hsame
  rw [(encode_iff.mp hencode).2.2, (encode_iff.mp hencode').2.2, htype, hname, hflags, halias]

/-- The names "a" and "a", zero, "b": both are accepted and both are read as "a". -/
theorem zero_byte_hides_name :
    decode (bytes 8 4 4 [97]) = .ok ⟨8, 4, 4, [97]⟩ ∧
      decode (bytes 8 4 4 [97, 0, 98]) = .ok ⟨8, 4, 4, [97, 0, 98]⟩ ∧
      bytes 8 4 4 [97] ≠ bytes 8 4 4 [97, 0, 98] ∧
      denotes ⟨8, 4, 4, [97]⟩ = denotes ⟨8, 4, 4, [97, 0, 98]⟩ ∧
      trackId? ⟨8, 4, 4, [97, 0, 98]⟩ = some ⟨.data, flagFecRateless, [97]⟩ ∧
      ¬ Canonical (bytes 8 4 4 [97, 0, 98]) := by
  have hhides : HidesName (bytes 8 4 4 [97, 0, 98]) := by decide
  refine ⟨by decide, by decide, by decide, by decide, by decide, ?_⟩
  rw [canonical_iff]
  exact not_not_intro hhides

end WireTrack

/-! ### NACK descriptors -/

/-- `qlinq_wire_encode_nack`.  `missing` is the array of listed indices, `none` a
null pointer. -/
def encodeNack (capacity : Nat) (trackAlias flags : UInt8) (groupId objectId : UInt64)
    (missing : Option (Nat → UInt16)) (missingCount : UInt16) : Except WireError Bytes :=
  let wholeObject := flags &&& wireNackWholeObject != 0
  let rateless := flags &&& wireNackRateless != 0
  if flags &&& ~~~(wireNackWholeObject ||| wireNackRateless) ≠ 0 ∨
      (if rateless then !wholeObject && missingCount == 0 || missing.isSome
        else if wholeObject then missingCount != 0
        else missingCount == 0 || missing.isNone) then
    .error .invalid
  else if wireMaxNackSymbols < missingCount.toNat then
    .error .tooLarge
  else if capacity < 20 + (if rateless then 0 else missingCount.toNat * 2) then
    .error .tooLarge
  else
    let listed := if rateless then 0 else missingCount.toNat
    .ok ([trackAlias, flags] ++ writeU64 groupId ++ writeU64 objectId ++
      writeU16 missingCount ++
      (List.range listed).flatMap fun index => writeU16 ((missing.getD fun _ => 0) index))

namespace Nack

def flags (nack : Nack) : UInt8 :=
  (if nack.wholeObject then wireNackWholeObject else 0) |||
    (if nack.rateless then wireNackRateless else 0)

/-- The array a decoded NACK's indices are read into. -/
def missing (nack : Nack) : Option (Nat → UInt16) :=
  if nack.rateless then none else some fun index => UInt16.ofNat (nack.indices.getD index 0)

/-- Encode the fields of a decoded NACK. -/
def reencode (nack : Nack) (capacity : Nat) : Except WireError Bytes :=
  encodeNack capacity nack.trackAlias nack.flags (UInt64.ofNat nack.groupId)
    (UInt64.ofNat nack.objectId) nack.missing (UInt16.ofNat nack.missingCount)

/-- The four forms of a NACK: its flags, its count and the length of its list. -/
inductive Form : (flags : UInt8) → (count listed : Nat) → Prop
  | indexed (hcount : 1 ≤ count ∧ count ≤ wireMaxNackSymbols) : Form 0 count count
  | wholeObject : Form wireNackWholeObject 0 0
  | rateless (hcount : 1 ≤ count ∧ count ≤ wireMaxNackSymbols) : Form wireNackRateless count 0
  | ratelessWholeObject : Form (wireNackWholeObject ||| wireNackRateless) 0 0

def bytes (trackAlias flags : UInt8) (groupId objectId : UInt64) (count : UInt16)
    (indices : List UInt16) : Bytes :=
  [trackAlias, flags] ++ writeU64 groupId ++ writeU64 objectId ++ writeU16 count ++
    indices.flatMap writeU16

/-- The documented grammar. -/
def Documented (src : Bytes) : Prop :=
  ∃ (trackAlias flags : UInt8) (groupId objectId : UInt64) (count : UInt16)
    (indices : List UInt16), Form flags count.toNat indices.length ∧
      src = bytes trackAlias flags groupId objectId count indices

/-- A whole object is requested from a rateless track together with a count. -/
def CountsWholeObject (src : Bytes) : Prop :=
  src.length = 20 ∧ readU8 src 1 = wireNackWholeObject ||| wireNackRateless ∧
    1 ≤ (readU16 src 18).toNat ∧ (readU16 src 18).toNat ≤ wireMaxNackSymbols

instance (src : Bytes) : Decidable (CountsWholeObject src) := by
  unfold CountsWholeObject
  infer_instance

/-- The forms the code accepts. -/
inductive Accepted : (flags : UInt8) → (count listed : Nat) → Prop
  | documented {shape : UInt8} {listed : Nat} (hform : Form shape count listed) :
      Accepted shape count listed
  | counted (hcount : 1 ≤ count ∧ count ≤ wireMaxNackSymbols) :
      Accepted (wireNackWholeObject ||| wireNackRateless) count 0

/-- Only two flags are known. -/
theorem flags_cases (flags : UInt8)
    (hknown : flags &&& ~~~(wireNackWholeObject ||| wireNackRateless) = 0) :
    flags = 0 ∨ flags = wireNackWholeObject ∨ flags = wireNackRateless ∨
      flags = wireNackWholeObject ||| wireNackRateless := by
  have hall : ∀ value < 256,
      UInt8.ofNat value &&& ~~~(wireNackWholeObject ||| wireNackRateless) = 0 →
        UInt8.ofNat value = 0 ∨ UInt8.ofNat value = wireNackWholeObject ∨
          UInt8.ofNat value = wireNackRateless ∨
            UInt8.ofNat value = wireNackWholeObject ||| wireNackRateless := by
    decide +kernel
  have hflags := hall flags.toNat flags.toNat_lt
  rw [UInt8.ofNat_toNat] at hflags
  exact hflags hknown

/-- The fields of a message in one of the accepted forms. -/
def fields (trackAlias flags : UInt8) (groupId objectId : UInt64) (count : UInt16)
    (indices : List UInt16) : Nack where
  trackAlias := trackAlias
  wholeObject := flags &&& wireNackWholeObject != 0
  rateless := flags &&& wireNackRateless != 0
  groupId := groupId.toNat
  objectId := objectId.toNat
  missingCount := count.toNat
  indices := indices.map UInt16.toNat

theorem length_bytes (trackAlias flags : UInt8) (groupId objectId : UInt64) (count : UInt16)
    (indices : List UInt16) :
    (bytes trackAlias flags groupId objectId count indices).length =
      20 + 2 * indices.length := by
  simp [bytes]
  omega

theorem bytes_stores (trackAlias flags : UInt8) (groupId objectId : UInt64) (count : UInt16)
    (indices : List UInt16) :
    bytes trackAlias flags groupId objectId count indices =
      Layout.bytes [(0, [trackAlias]), (1, [flags]), (2, writeU64 groupId),
        (10, writeU64 objectId), (18, writeU16 count)] ++ indices.flatMap writeU16 := by
  simp [bytes, Layout.bytes]

/-- The fields before the list are read where they were written. -/
theorem read_bytes (trackAlias flags : UInt8) (groupId objectId : UInt64) (count : UInt16)
    (indices : List UInt16) :
    let src := bytes trackAlias flags groupId objectId count indices
    readU8 src 0 = trackAlias ∧ readU8 src 1 = flags ∧ readU64 src 2 = groupId ∧
      readU64 src 10 = objectId ∧ readU16 src 18 = count := by
  intro src
  have hlength : 20 ≤ src.length := by
    rw [length_bytes]
    omega
  have hholds : Layout.Holds src [(0, [trackAlias]), (1, [flags]), (2, writeU64 groupId),
      (10, writeU64 objectId), (18, writeU16 count)] := by
    rw [Layout.holds_iff (by simp [Layout.Contiguous])]
    simp only [src, bytes_stores]
    exact List.take_left
  simp only [Layout.Holds, List.forall_mem_cons, List.length_singleton, length_writeU64,
    length_writeU16] at hholds
  rw [slice_one src (by omega), slice_one src (by omega), slice_writeU64 (by omega),
    slice_writeU64 (by omega), slice_writeU16 (by omega)] at hholds
  obtain ⟨h0, h1, h2, h3, h4, -⟩ := hholds
  exact ⟨h0, h1, h2, h3, h4⟩

theorem exists_list {src : Bytes} (hlength : src.length = 2 * listed) :
    ∃ indices : List UInt16, indices.length = listed ∧ src = indices.flatMap writeU16 := by
  induction listed generalizing src with
  | zero => exact ⟨[], rfl, List.eq_nil_of_length_eq_zero hlength⟩
  | succ listed ih =>
      have hinside : 0 + 2 ≤ src.length := by omega
      have hshorter : (src.drop 2).length = 2 * listed := by
        rw [List.length_drop]
        omega
      obtain ⟨rest, hrest, heq⟩ := ih hshorter
      refine ⟨readU16 src 0 :: rest, by rw [List.length_cons, hrest], ?_⟩
      rw [List.flatMap_cons, ← (slice_writeU16 hinside _).mpr rfl, ← heq, Layout.slice_zero,
        List.take_append_drop]

/-- Every string of that length is such a message. -/
theorem exists_bytes {src : Bytes} (hlength : src.length = 20 + 2 * listed) :
    ∃ indices : List UInt16, indices.length = listed ∧
      src = bytes (readU8 src 0) (readU8 src 1) (readU64 src 2) (readU64 src 10)
        (readU16 src 18) indices := by
  have hrest : (src.drop 20).length = 2 * listed := by
    rw [List.length_drop]
    omega
  obtain ⟨indices, hindices, hlist⟩ := exists_list hrest
  refine ⟨indices, hindices, ?_⟩
  have hholds : Layout.Holds src [(0, [readU8 src 0]), (1, [readU8 src 1]),
      (2, writeU64 (readU64 src 2)), (10, writeU64 (readU64 src 10)),
      (18, writeU16 (readU16 src 18))] := by
    simp only [Layout.Holds, List.forall_mem_cons, List.length_singleton, length_writeU64,
      length_writeU16]
    rw [slice_one src (by omega), slice_one src (by omega), slice_writeU64 (by omega),
      slice_writeU64 (by omega), slice_writeU16 (by omega)]
    simp
  rw [Layout.holds_iff (by simp [Layout.Contiguous])] at hholds
  rw [bytes_stores, ← hholds, ← hlist]
  have htwenty : (Layout.bytes [(0, [readU8 src 0]), (1, [readU8 src 1]),
      (2, writeU64 (readU64 src 2)), (10, writeU64 (readU64 src 10)),
      (18, writeU16 (readU16 src 18))]).length = 20 := by
    simp [Layout.bytes]
  rw [htwenty, List.take_append_drop]

/-- The indices are read one by one behind the fields. -/
theorem read_list (front : Bytes) (indices : List UInt16) :
    ((List.range indices.length).map fun index =>
      readU16 (front ++ indices.flatMap writeU16) (front.length + index * 2)) = indices := by
  induction indices generalizing front with
  | nil => rfl
  | cons first rest ih =>
      have hsplit : front ++ (first :: rest).flatMap writeU16 =
          (front ++ writeU16 first) ++ rest.flatMap writeU16 := by
        rw [List.flatMap_cons, List.append_assoc]
      have hfirst : readU16 (front ++ (first :: rest).flatMap writeU16) front.length = first := by
        have hinside : front.length + 2 ≤ (front ++ (first :: rest).flatMap writeU16).length := by
          rw [List.length_append, List.flatMap_cons, List.length_append, length_writeU16]
          omega
        rw [← slice_writeU16 hinside, Layout.slice, List.drop_left, List.flatMap_cons]
        exact List.take_left' (length_writeU16 first)
      rw [List.length_cons, List.range_succ_eq_map, List.map_cons, List.map_map, Nat.zero_mul,
        Nat.add_zero, hfirst]
      congr 1
      have hrest := ih (front ++ writeU16 first)
      rw [List.length_append, length_writeU16] at hrest
      rw [hsplit]
      refine Eq.trans (List.map_congr_left ?_) hrest
      intro index _
      have hoffset : front.length + (index + 1) * 2 = front.length + 2 + index * 2 := by omega
      rw [Function.comp_apply, Nat.succ_eq_add_one, hoffset]

/-! ### What the decoder accepts -/

/-- The checks of the decoder on the flags, the count and the length. -/
def Admits (flags : UInt8) (count listed : Nat) : Prop :=
  flags &&& ~~~(wireNackWholeObject ||| wireNackRateless) = 0 ∧ count ≤ wireMaxNackSymbols ∧
    ¬ (if flags &&& wireNackRateless != 0 then
        !(flags &&& wireNackWholeObject != 0) && count == 0
      else if flags &&& wireNackWholeObject != 0 then count != 0 else count == 0) = true ∧
    listed * 2 = if flags &&& wireNackRateless != 0 then 0 else count * 2

/-- The checks for flags that are known. -/
theorem admits_iff_flags {shape : UInt8} {wholeObject rateless : Bool}
    (hknown : shape &&& ~~~(wireNackWholeObject ||| wireNackRateless) = 0)
    (hwhole : (shape &&& wireNackWholeObject != 0) = wholeObject)
    (hrateless : (shape &&& wireNackRateless != 0) = rateless) :
    Admits shape count listed ↔ count ≤ wireMaxNackSymbols ∧
      (if rateless then wholeObject = true ∨ count ≠ 0 else (wholeObject = true ↔ count = 0)) ∧
        listed = if rateless then 0 else count := by
  rw [Admits, hwhole, hrateless]
  cases rateless with
  | true =>
      cases wholeObject with
      | true => simp [hknown]
      | false => simp [hknown]
  | false =>
      cases wholeObject with
      | true => simp [hknown]
      | false => simp [hknown]

theorem admits_iff {shape : UInt8} {listed : Nat} :
    Admits shape count listed ↔ Accepted shape count listed := by
  have hindexed := @admits_iff_flags count listed 0 false false (by decide) (by decide)
    (by decide)
  have hwhole := @admits_iff_flags count listed wireNackWholeObject true false (by decide)
    (by decide) (by decide)
  have hrateless := @admits_iff_flags count listed wireNackRateless false true (by decide)
    (by decide) (by decide)
  have hboth := @admits_iff_flags count listed (wireNackWholeObject ||| wireNackRateless) true
    true (by decide) (by decide) (by decide)
  constructor
  · intro hadmits
    rcases flags_cases shape hadmits.1 with rfl | rfl | rfl | rfl
    · obtain ⟨hcount, hform, hlisted⟩ := hindexed.mp hadmits
      simp only [Bool.false_eq_true, if_false, false_iff] at hform hlisted
      subst hlisted
      exact .documented (.indexed ⟨Nat.pos_of_ne_zero hform, hcount⟩)
    · obtain ⟨hcount, hform, hlisted⟩ := hwhole.mp hadmits
      simp only [Bool.false_eq_true, if_false, true_iff] at hform hlisted
      subst hlisted
      subst hform
      exact .documented .wholeObject
    · obtain ⟨hcount, hform, hlisted⟩ := hrateless.mp hadmits
      simp only [Bool.false_eq_true, if_true, false_or] at hform hlisted
      subst hlisted
      exact .documented (.rateless ⟨Nat.pos_of_ne_zero hform, hcount⟩)
    · obtain ⟨hcount, -, hlisted⟩ := hboth.mp hadmits
      simp only [if_true] at hlisted
      subst hlisted
      by_cases hzero : count = 0
      · subst hzero
        exact .documented .ratelessWholeObject
      · exact .counted ⟨Nat.pos_of_ne_zero hzero, hcount⟩
  · intro haccepted
    cases haccepted with
    | documented hform =>
        cases hform with
        | indexed hcount =>
            exact hindexed.mpr ⟨hcount.2, by simpa using Nat.ne_of_gt hcount.1, by simp⟩
        | wholeObject => exact hwhole.mpr ⟨Nat.zero_le _, by simp, by simp⟩
        | rateless hcount =>
            exact hrateless.mpr ⟨hcount.2, by simpa using Nat.ne_of_gt hcount.1, by simp⟩
        | ratelessWholeObject => exact hboth.mpr ⟨Nat.zero_le _, by simp, by simp⟩
    | counted hcount => exact hboth.mpr ⟨hcount.2, by simp, by simp⟩

theorem length_of_decode (hdecode : decodeNack src = .ok nack) :
    ∃ listed, src.length = 20 + 2 * listed := by
  simp only [decodeNack, ConfiguredLimits.ite_error_eq_ok, not_not] at hdecode
  obtain ⟨-, -, -, hlength, -⟩ := hdecode
  rw [hlength]
  split
  · exact ⟨0, rfl⟩
  · exact ⟨(readU16 src 18).toNat, by omega⟩

theorem decodeNack_bytes {nack : Nack} (a shape : UInt8) (groupId objectId : UInt64)
    (count : UInt16) (list : List UInt16) :
    decodeNack (bytes a shape groupId objectId count list) = .ok nack ↔
      Accepted shape count.toNat list.length ∧
        fields a shape groupId objectId count list = nack := by
  obtain ⟨halias, hflags, hgroup, hobject, hcount⟩ :=
    read_bytes a shape groupId objectId count list
  have hlength := length_bytes a shape groupId objectId count list
  have hlist : ((List.range list.length).map fun index =>
      readU16 (bytes a shape groupId objectId count list) (20 + index * 2)) = list := by
    have hread := read_list ([a, shape] ++ writeU64 groupId ++ writeU64 objectId ++
      writeU16 count) list
    simpa [bytes] using hread
  rw [← admits_iff]
  generalize bytes a shape groupId objectId count list = src at *
  have hindices : (list.length * 2 =
      if shape &&& wireNackRateless != 0 then 0 else count.toNat * 2) →
        (if shape &&& wireNackRateless != 0 then [] else
          (List.range count.toNat).map fun index => (readU16 src (20 + index * 2)).toNat) =
            list.map UInt16.toNat := by
    intro hexact
    split at hexact
    · next hrateless =>
        obtain rfl := List.eq_nil_of_length_eq_zero (show list.length = 0 by omega)
        rw [if_pos hrateless]
        rfl
    · next hindexed =>
        have hcount : count.toNat = list.length := by omega
        have hmap := congrArg (List.map UInt16.toNat) hlist
        rw [List.map_map] at hmap
        rw [if_neg hindexed, hcount]
        exact hmap
  simp only [decodeNack, ConfiguredLimits.ite_error_eq_ok, Except.ok.injEq, halias, hflags,
    hgroup, hobject, hcount, hlength, not_or, not_lt, not_not, ne_eq]
  constructor
  · rintro ⟨⟨-, hknown⟩, hbound, hform, hlisted, rfl⟩
    have hexact : list.length * 2 = if shape &&& wireNackRateless != 0 then 0
        else count.toNat * 2 := by omega
    rw [hindices hexact]
    exact ⟨⟨hknown, hbound, hform, hexact⟩, rfl⟩
  · rintro ⟨⟨hknown, hbound, hform, hexact⟩, rfl⟩
    rw [hindices hexact]
    exact ⟨⟨by omega, hknown⟩, hbound, hform, by omega, rfl⟩

theorem decodeNack_iff {nack : Nack} :
    decodeNack src = .ok nack ↔
      ∃ (a shape : UInt8) (groupId objectId : UInt64) (count : UInt16) (list : List UInt16),
        Accepted shape count.toNat list.length ∧
          src = bytes a shape groupId objectId count list ∧
            nack = fields a shape groupId objectId count list := by
  constructor
  · intro hdecode
    obtain ⟨listed, hlength⟩ := length_of_decode hdecode
    obtain ⟨list, -, hsrc⟩ := exists_bytes hlength
    rw [hsrc, decodeNack_bytes] at hdecode
    exact ⟨_, _, _, _, _, list, hdecode.1, hsrc, hdecode.2.symm⟩
  · rintro ⟨a, shape, groupId, objectId, count, list, haccepted, rfl, rfl⟩
    exact (decodeNack_bytes a shape groupId objectId count list).mpr ⟨haccepted, rfl⟩

/-! ### What the encoder produces -/

/-- The indices the encoder writes. -/
def listOf (shape : UInt8) (missing : Option (Nat → UInt16)) (count : UInt16) : List UInt16 :=
  (List.range (if shape &&& wireNackRateless != 0 then 0 else count.toNat)).map
    (missing.getD fun _ => 0)

/-- A list is given where one is written, and none to a rateless request. -/
def Listed (shape : UInt8) (missing : Option (Nat → UInt16)) : Prop :=
  if shape &&& wireNackRateless != 0 then missing.isSome = false
  else (shape &&& wireNackWholeObject != 0) = true ∨ missing.isSome = true

/-- The encoder's check of a shape is the decoder's and that of the list. -/
theorem shape_checks : ∀ wholeObject rateless zero given : Bool,
    (¬ (if rateless then !wholeObject && zero || given
        else if wholeObject then !zero else zero || !given) = true) ↔
      (¬ (if rateless then !wholeObject && zero
          else if wholeObject then !zero else zero) = true) ∧
        if rateless then given = false else wholeObject = true ∨ given = true := by
  decide

theorem encodeNack_iff {groupId objectId : UInt64} {missing : Option (Nat → UInt16)} :
    encodeNack capacity a shape groupId objectId missing count = .ok out ↔
      Accepted shape count.toNat (listOf shape missing count).length ∧ Listed shape missing ∧
        out.length ≤ capacity ∧
          out = bytes a shape groupId objectId count (listOf shape missing count) := by
  have hlisted : (listOf shape missing count).length =
      if shape &&& wireNackRateless != 0 then 0 else count.toNat := by
    simp [listOf]
  have hlength := length_bytes a shape groupId objectId count (listOf shape missing count)
  have hout : [a, shape] ++ writeU64 groupId ++ writeU64 objectId ++ writeU16 count ++
      ((List.range (if shape &&& wireNackRateless != 0 then 0 else count.toNat)).flatMap
        fun index => writeU16 ((missing.getD fun _ => 0) index)) =
          bytes a shape groupId objectId count (listOf shape missing count) := by
    rw [bytes, listOf, List.flatMap_map]
  have hzero : (count == 0) = (count.toNat == 0) := by
    rw [Bool.eq_iff_iff, beq_iff_eq, beq_iff_eq, ← UInt16.toNat_inj]
    rfl
  have hnonzero : (count != 0) = !(count.toNat == 0) := by rw [bne, hzero]
  have hcount : (count.toNat != 0) = !(count.toNat == 0) := rfl
  have hchecks := shape_checks (shape &&& wireNackWholeObject != 0)
    (shape &&& wireNackRateless != 0) (count.toNat == 0) missing.isSome
  rw [Option.not_isSome] at hchecks
  simp only [encodeNack, ConfiguredLimits.ite_error_eq_ok, Except.ok.injEq, not_or, not_lt,
    not_not, ne_eq, hout, hzero, hnonzero, hchecks]
  rw [← admits_iff, Admits, Listed, hlisted, hcount]
  constructor
  · rintro ⟨⟨hknown, hform, hgiven⟩, hbound, hroom, rfl⟩
    refine ⟨⟨hknown, hbound, hform, ?_⟩, hgiven, ?_, rfl⟩
    · split <;> rfl
    · rw [hlength, hlisted]
      split at hroom
      · next hrateless =>
          rw [if_pos hrateless]
          exact hroom
      · next hindexed =>
          rw [if_neg hindexed]
          omega
  · rintro ⟨⟨hknown, hbound, hform, -⟩, hgiven, hroom, rfl⟩
    rw [hlength, hlisted] at hroom
    refine ⟨⟨hknown, hform, hgiven⟩, hbound, ?_, rfl⟩
    split at hroom
    · next hrateless =>
        rw [if_pos hrateless]
        exact hroom
    · next hindexed =>
        rw [if_neg hindexed]
        omega

/-! ### Both together -/

theorem length_accepted {shape : UInt8} {listed : Nat} (haccepted : Accepted shape count listed) :
    listed = if shape &&& wireNackRateless != 0 then 0 else count := by
  obtain ⟨-, -, -, hexact⟩ := admits_iff.mpr haccepted
  split
  · next hrateless =>
      rw [if_pos hrateless] at hexact
      omega
  · next hindexed =>
      rw [if_neg hindexed] at hexact
      omega

section Fields

variable {a shape : UInt8} {groupId objectId : UInt64} {count : UInt16} {list : List UInt16}

theorem flags_fields (haccepted : Accepted shape count.toNat list.length) :
    (fields a shape groupId objectId count list).flags = shape := by
  have hknown := (admits_iff.mpr haccepted).1
  change (if shape &&& wireNackWholeObject != 0 then wireNackWholeObject else 0) |||
    (if shape &&& wireNackRateless != 0 then wireNackRateless else 0) = shape
  rcases flags_cases shape hknown with rfl | rfl | rfl | rfl <;> decide

theorem missing_fields : (fields a shape groupId objectId count list).missing =
    if shape &&& wireNackRateless != 0 then none
    else some fun index => UInt16.ofNat ((list.map UInt16.toNat).getD index 0) :=
  rfl

theorem listOf_fields (haccepted : Accepted shape count.toNat list.length) :
    listOf shape (fields a shape groupId objectId count list).missing count = list := by
  have hlength := length_accepted haccepted
  rw [listOf, ← hlength, missing_fields]
  split
  · next hrateless =>
      rw [if_pos hrateless] at hlength
      obtain rfl := List.eq_nil_of_length_eq_zero hlength
      rfl
  · apply List.ext_getElem
    · simp
    · intro index hleft hright
      simp [List.getD_eq_getElem?_getD, List.getElem?_eq_getElem hright]

theorem listed_fields : Listed shape (fields a shape groupId objectId count list).missing := by
  rw [Listed, missing_fields]
  split
  · rfl
  · exact .inr rfl

end Fields

/-- Whatever the decoder accepts its fields encode to. -/
theorem reencode_of_decode {nack : Nack} (hdecode : decodeNack src = .ok nack)
    (hroom : src.length ≤ capacity) : nack.reencode capacity = .ok src := by
  obtain ⟨a, shape, groupId, objectId, count, list, haccepted, rfl, rfl⟩ :=
    decodeNack_iff.mp hdecode
  have hgroup : UInt64.ofNat (fields a shape groupId objectId count list).groupId = groupId :=
    UInt64.ofNat_toNat
  have hobject : UInt64.ofNat (fields a shape groupId objectId count list).objectId = objectId :=
    UInt64.ofNat_toNat
  have hcount : UInt16.ofNat (fields a shape groupId objectId count list).missingCount = count :=
    UInt16.ofNat_toNat
  rw [reencode, flags_fields haccepted, hgroup, hobject, hcount, encodeNack_iff,
    listOf_fields haccepted]
  exact ⟨haccepted, listed_fields, hroom, rfl⟩

/-- Whatever the encoder produces decodes to its arguments. -/
theorem decode_of_encode {groupId objectId : UInt64} {missing : Option (Nat → UInt16)}
    (hencode : encodeNack capacity a shape groupId objectId missing count = .ok out) :
    decodeNack out =
      .ok (fields a shape groupId objectId count (listOf shape missing count)) := by
  obtain ⟨haccepted, -, -, hout⟩ := encodeNack_iff.mp hencode
  exact decodeNack_iff.mpr ⟨_, _, _, _, _, _, haccepted, hout, rfl⟩

theorem countsWholeObject_iff :
    CountsWholeObject src ↔ ∃ (a : UInt8) (groupId objectId : UInt64) (count : UInt16),
      1 ≤ count.toNat ∧ count.toNat ≤ wireMaxNackSymbols ∧
        src = bytes a (wireNackWholeObject ||| wireNackRateless) groupId objectId count [] := by
  constructor
  · rintro ⟨hlength, hflags, hpos, hbound⟩
    have hnone : src.length = 20 + 2 * 0 := hlength
    obtain ⟨list, hlist, hsrc⟩ := exists_bytes hnone
    obtain rfl := List.eq_nil_of_length_eq_zero hlist
    rw [hflags] at hsrc
    exact ⟨_, _, _, _, hpos, hbound, hsrc⟩
  · rintro ⟨a, groupId, objectId, count, hpos, hbound, rfl⟩
    obtain ⟨-, hflags, -, -, hcount⟩ := read_bytes a (wireNackWholeObject ||| wireNackRateless)
      groupId objectId count []
    refine ⟨length_bytes _ _ _ _ _ _, hflags, ?_, ?_⟩
    · rw [hcount]
      exact hpos
    · rw [hcount]
      exact hbound

/-- The decoder accepts the documented strings and those that count a whole object. -/
theorem decodes_iff (src : Bytes) :
    (∃ nack, decodeNack src = .ok nack) ↔ Documented src ∨ CountsWholeObject src := by
  rw [countsWholeObject_iff]
  constructor
  · rintro ⟨nack, hdecode⟩
    obtain ⟨a, shape, groupId, objectId, count, list, haccepted, hsrc, -⟩ :=
      decodeNack_iff.mp hdecode
    generalize hnumber : count.toNat = number at haccepted
    generalize hlisted : list.length = listed at haccepted
    cases haccepted with
    | documented hform =>
        refine .inl ⟨a, shape, groupId, objectId, count, list, ?_, hsrc⟩
        rw [hnumber, hlisted]
        exact hform
    | counted hcount =>
        obtain rfl := List.eq_nil_of_length_eq_zero hlisted
        exact .inr ⟨a, groupId, objectId, count, hnumber ▸ hcount.1, hnumber ▸ hcount.2, hsrc⟩
  · rintro (⟨a, shape, groupId, objectId, count, list, hform, rfl⟩ |
      ⟨a, groupId, objectId, count, hpos, hbound, rfl⟩)
    · exact ⟨_, (decodeNack_bytes _ _ _ _ _ _).mpr ⟨.documented hform, rfl⟩⟩
    · exact ⟨_, (decodeNack_bytes _ _ _ _ _ _).mpr ⟨.counted ⟨hpos, hbound⟩, rfl⟩⟩

theorem not_documented_of_counts (hcounts : CountsWholeObject src) : ¬ Documented src := by
  rintro ⟨a, shape, groupId, objectId, count, list, hform, rfl⟩
  obtain ⟨-, hflags, -, -, hcount⟩ := read_bytes a shape groupId objectId count list
  obtain ⟨-, hcounted, hpos, -⟩ := hcounts
  rw [hflags] at hcounted
  rw [hcount] at hpos
  subst hcounted
  generalize count.toNat = number at hform hpos
  generalize list.length = listed at hform
  generalize hshape : wireNackWholeObject ||| wireNackRateless = shape at hform
  cases hform with
  | indexed _ => exact absurd hshape (by decide)
  | wholeObject => omega
  | rateless _ => exact absurd hshape (by decide)
  | ratelessWholeObject => omega

/-- Acceptance follows the documented grammar but for the counted whole-object
requests, and both codecs invert each other. -/
theorem nack_grammar (src : Bytes) :
    ((((∃ nack, decodeNack src = .ok nack) ↔ Documented src) ∧
        ∀ nack, decodeNack src = .ok nack → ∀ capacity, src.length ≤ capacity →
          nack.reencode capacity = .ok src) ↔ ¬ CountsWholeObject src) ∧
      ∀ capacity a shape groupId objectId missing count out,
        encodeNack capacity a shape groupId objectId missing count = .ok out →
          decodeNack out =
            .ok (fields a shape groupId objectId count (listOf shape missing count)) := by
  refine ⟨?_, fun _ _ _ _ _ _ _ _ hencode => decode_of_encode hencode⟩
  constructor
  · rintro ⟨haccepts, -⟩ hcounts
    exact not_documented_of_counts hcounts
      (haccepts.mp ((decodes_iff src).mpr (.inr hcounts)))
  · intro hplain
    refine ⟨?_, fun nack hdecode capacity hroom => reencode_of_decode hdecode hroom⟩
    rw [decodes_iff, or_iff_left hplain]

/-- A whole object of a rateless track is requested with a count of seven. -/
theorem counted_request_accepted :
    decodeNack (bytes 8 (wireNackWholeObject ||| wireNackRateless) 1 2 7 []) =
        .ok ⟨8, true, true, 1, 2, 7, []⟩ ∧
      ¬ Documented (bytes 8 (wireNackWholeObject ||| wireNackRateless) 1 2 7 []) := by
  exact ⟨by decide +kernel, not_documented_of_counts (by decide +kernel)⟩

end Nack

end Qlinq
