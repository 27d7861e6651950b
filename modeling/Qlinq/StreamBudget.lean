import Qlinq.WireFrames

namespace Qlinq

/-! The budgets of retained stream frames: bytes, send vectors and frames, shared by the
streams of an endpoint with a reserve for essential control frames. -/

/-- `sizeof(retained_frame_t)`. -/
def retainedFrameSize : Nat := 8

/-- `sizeof(quicly_sendbuf_vec_t)`. -/
def sendbufVecSize : Nat := 24

def streamMinFrameAccountingBytes : Nat := 64

def streamEndpointMaxVectors : Nat := 8192

def streamControlFrameReserve : Nat := 16

def streamEndpointControlVectorReserve : Nat := 256

/-- The send buffer of a stream: `frames` holds the lengths of the retained frames,
`offset` the acknowledged bytes of the first. -/
structure EgressStream where
  isControl : Bool
  isOpen : Bool := true
  frames : List Nat := []
  offset : Nat := 0
  capacity : Nat := 0
  retainedFrameBytes : Nat := 0
  deriving DecidableEq, Repr

/-- The streams of an endpoint with the byte and vector counters of its statistics. -/
structure Egress where
  streams : List EgressStream := []
  egressBytes : Nat := 0
  vectorCapacity : Nat := 0
  deriving DecidableEq, Repr

namespace EgressStream

def vectorGrowth (s : EgressStream) : Nat :=
  if s.frames.length < s.capacity then 0 else if s.capacity = 0 then 4 else s.capacity

def streamBytes (s : EgressStream) : Nat :=
  s.retainedFrameBytes + s.capacity * sendbufVecSize

/-- What one more frame costs the stream. -/
def frameCost (s : EgressStream) (frameLen : Nat) : Nat :=
  retainedFrameSize + frameLen + s.vectorGrowth * sendbufVecSize

end EgressStream

namespace EgressStream

/-! The limits of one frame, less the reserves when these are preserved. -/

def byteLimit (limits : ConfiguredLimits) (s : EgressStream) (preserves : Bool) : Nat :=
  limits.maxStreamEgressBytes -
    if preserves && s.isControl then streamControlByteReserve else 0

def frameLimit (limits : ConfiguredLimits) (s : EgressStream) (preserves : Bool) : Nat :=
  min (limits.maxStreamEgressBytes / streamMinFrameAccountingBytes) streamEndpointMaxVectors -
    if preserves && s.isControl then streamControlFrameReserve else 0

end EgressStream

namespace Egress

def byteLimit (limits : ConfiguredLimits) (preserves : Bool) : Nat :=
  limits.maxTotalStreamEgressBytes -
    if preserves then streamEndpointControlByteReserve else 0

def vectorLimit (preserves : Bool) : Nat :=
  streamEndpointMaxVectors - if preserves then streamEndpointControlVectorReserve else 0

/-- `stream_can_accept_reserved`: the reserved bytes and vectors with the frame's
added. -/
def canAcceptReserved (limits : ConfiguredLimits) (e : Egress) (s : EgressStream)
    (frameLen : Nat) (preserves : Bool) (reservedBytes reservedVectors : Nat) :
    Option (Nat × Nat) :=
  let streamLimit := s.byteLimit limits preserves
  let endpointLimit := byteLimit limits preserves
  let growth := s.vectorGrowth
  let bytes := s.frameCost frameLen
  if !s.isOpen ∨ wireMaxStreamPayload + wireFrameHeaderSize < frameLen ∨
      s.frameLimit limits preserves ≤ s.frames.length ∨ streamLimit < s.streamBytes ∨
      streamLimit - s.streamBytes < bytes ∨ endpointLimit < e.egressBytes ∨
      endpointLimit - e.egressBytes < reservedBytes ∨
      endpointLimit - e.egressBytes - reservedBytes < bytes ∨
      vectorLimit preserves < e.vectorCapacity ∨
      vectorLimit preserves - e.vectorCapacity < reservedVectors ∨
      vectorLimit preserves - e.vectorCapacity - reservedVectors < growth then
    none
  else
    some (reservedBytes + bytes, reservedVectors + growth)

/-- `transport_stream_can_accept`. -/
def canAccept (limits : ConfiguredLimits) (e : Egress) (s : EgressStream)
    (frameLen : Nat) (preserves : Bool) : Bool :=
  (e.canAcceptReserved limits s frameLen preserves 0 0).isSome

inductive FrameKind where
  | application
  | nack
  | essential
  deriving DecidableEq, Repr

/-- `exhausted` closes the connection: "reliable control queue exhausted". -/
inductive WriteOutcome where
  | written
  | refused
  | exhausted
  deriving DecidableEq, Repr

/-- The frame is appended to the send buffer of stream `index`, which doubles its
vectors when they are full. -/
def retain (e : Egress) (index : Nat) (s : EgressStream) (frameLen : Nat) : Egress where
  streams := e.streams.set index
    { s with
      frames := s.frames ++ [frameLen]
      capacity := s.capacity + s.vectorGrowth
      retainedFrameBytes := s.retainedFrameBytes + (retainedFrameSize + frameLen) }
  egressBytes := e.egressBytes + s.frameCost frameLen
  vectorCapacity := e.vectorCapacity + s.vectorGrowth

/-- `transport_stream_write_parts`; a NACK is held against the application's limits
first.  Allocation is assumed to succeed. -/
def writeFrame (limits : ConfiguredLimits) (e : Egress) (index : Nat) (kind : FrameKind)
    (frameLen : Nat) : Egress × WriteOutcome :=
  match e.streams[index]? with
  | none => (e, .refused)
  | some s =>
      if kind ≠ .essential ∧ !e.canAccept limits s frameLen true then
        (e, .refused)
      else if kind ≠ .application ∧ !e.canAccept limits s frameLen false then
        (e, .exhausted)
      else
        (e.retain index s frameLen, .written)

/-- The frames an ACK of `delta` bytes leaves, and the acknowledged bytes of the
first. -/
def shiftFrames : (delta offset : Nat) → List Nat → List Nat × Nat
  | _, _, [] => ([], 0)
  | delta, offset, len :: rest =>
      if delta = 0 ∨ delta < len - offset then
        (len :: rest, offset + delta)
      else
        shiftFrames (delta - (len - offset)) 0 rest

def frameBytes (frames : List Nat) : Nat := (frames.map (retainedFrameSize + ·)).sum

/-- Capacity of a vector array with `size` entries left: none when it became empty,
compacted when three quarters are unused, if the smaller array can be had. -/
def shiftedCapacity (capacity before size : Nat) (compacts : Bool) : Nat :=
  let capacity := if size = 0 ∧ before ≠ 0 then 0 else capacity
  if 4 < capacity ∧ size ≤ capacity / 4 ∧ compacts then growCapacity size 64 4 else capacity

/-- `transport_stream_egress_shift`. -/
def egressShift (e : Egress) (index delta : Nat) (compacts : Bool) : Egress :=
  match e.streams[index]? with
  | none => e
  | some s =>
      let shifted := shiftFrames delta s.offset s.frames
      let released := frameBytes s.frames - frameBytes shifted.1
      let capacity := shiftedCapacity s.capacity s.frames.length shifted.1.length compacts
      { streams := e.streams.set index
          { s with
            frames := shifted.1
            offset := shifted.2
            capacity := capacity
            retainedFrameBytes := s.retainedFrameBytes - released }
        egressBytes :=
          e.egressBytes - released - (s.capacity - capacity) * sendbufVecSize
        vectorCapacity := e.vectorCapacity - (s.capacity - capacity) }

/-- `transport_stream_destroy`. -/
def destroyStream (e : Egress) (index : Nat) : Egress :=
  match e.streams[index]? with
  | none => e
  | some s =>
      { streams := e.streams.set index { isControl := s.isControl, isOpen := false }
        egressBytes := e.egressBytes - s.capacity * sendbufVecSize - frameBytes s.frames
        vectorCapacity := e.vectorCapacity - s.capacity }

/-- The send state of the stream, or its connection, closes. -/
def shutStream (e : Egress) (index : Nat) : Egress :=
  match e.streams[index]? with
  | none => e
  | some s => { e with streams := e.streams.set index { s with isOpen := false } }

inductive EgressOp where
  | openStream (isControl : Bool)
  | application (stream frameLen : Nat)
  | nack (stream frameLen : Nat)
  | acked (stream delta : Nat) (compacts : Bool)
  | shut (stream : Nat)
  | destroy (stream : Nat)
  deriving DecidableEq, Repr

def apply (limits : ConfiguredLimits) (e : Egress) : EgressOp → Egress
  | .openStream isControl => { e with streams := e.streams ++ [{ isControl := isControl }] }
  | .application stream frameLen => (e.writeFrame limits stream .application frameLen).1
  | .nack stream frameLen => (e.writeFrame limits stream .nack frameLen).1
  | .acked stream delta compacts => e.egressShift stream delta compacts
  | .shut stream => e.shutStream stream
  | .destroy stream => e.destroyStream stream

def run (limits : ConfiguredLimits) (ops : List EgressOp) : Egress :=
  Machine.run (apply limits) {} ops

end Egress

/-- The frames that the reserve is for. -/
inductive EssentialFrame where
  | checkpoint
  | checkpointAck
  | subscribe (track : TrackId) (valid : trackIdValid track = true)
  | unsubscribe (track : TrackId) (valid : trackIdValid track = true)
  deriving DecidableEq, Repr

/-- Length of the encoded frame. -/
def EssentialFrame.frameLen : EssentialFrame → Nat
  | .checkpoint => wireFrameHeaderSize + 28
  | .checkpointAck => wireFrameHeaderSize + 17
  | .subscribe track _ => wireFrameHeaderSize + 4 + track.name.length
  | .unsubscribe track _ => wireFrameHeaderSize + 4 + track.name.length

theorem EssentialFrame.frameLen_le (frame : EssentialFrame) : frame.frameLen ≤ 75 := by
  have hname : ∀ track : TrackId, trackIdValid track = true → track.name.length < 64 := by
    intro track hvalid
    simp only [trackIdValid, Bool.and_eq_true, decide_eq_true_eq] at hvalid
    exact hvalid.1.1
  cases frame with
  | checkpoint => decide
  | checkpointAck => decide
  | subscribe track valid =>
      have := hname track valid
      simp only [frameLen, wireFrameHeaderSize]
      omega
  | unsubscribe track valid =>
      have := hname track valid
      simp only [frameLen, wireFrameHeaderSize]
      omega

namespace Egress

open Transport (defaultConfiguration defaultResolved resolved_default)

variable {limits : ConfiguredLimits} {e : Egress} {s : EgressStream}

theorem canAccept_iff (frameLen : Nat) (preserves : Bool) :
    e.canAccept limits s frameLen preserves = true ↔
      s.isOpen = true ∧ frameLen ≤ wireMaxStreamPayload + wireFrameHeaderSize ∧
        s.frames.length < s.frameLimit limits preserves ∧
        s.streamBytes + s.frameCost frameLen ≤ s.byteLimit limits preserves ∧
        e.egressBytes + s.frameCost frameLen ≤ byteLimit limits preserves ∧
        e.vectorCapacity + s.vectorGrowth ≤ vectorLimit preserves := by
  simp only [canAccept, canAcceptReserved]
  cases hopen : s.isOpen with
  | false => simp
  | true =>
      split
      · next hfull =>
          simp only [Option.isSome_none, Bool.false_eq_true, true_and, false_iff]
          simp only [Bool.not_true, Bool.false_eq_true, false_or] at hfull
          omega
      · next hroom =>
          simp only [Option.isSome_some, true_and, true_iff]
          simp only [Bool.not_true, Bool.false_eq_true, false_or] at hroom
          omega

/-- What application frames and NACKs leave to the essential control frames. -/
structure KeepsReserve (limits : ConfiguredLimits) (e : Egress) : Prop where
  bytes : e.egressBytes ≤ byteLimit limits true
  vectors : e.vectorCapacity ≤ vectorLimit true
  stream : ∀ s ∈ e.streams, s.isControl = true →
    s.streamBytes ≤ s.byteLimit limits true ∧ s.frames.length ≤ s.frameLimit limits true

theorem keepsReserve_init (limits : ConfiguredLimits) : KeepsReserve limits {} where
  bytes := Nat.zero_le _
  vectors := Nat.zero_le _
  stream := by simp

theorem writeFrame_application {index : Nat} (hstream : e.streams[index]? = some s)
    (haccept : e.canAccept limits s frameLen true = true) :
    e.writeFrame limits index .application frameLen = (e.retain index s frameLen, .written) := by
  simp [writeFrame, hstream, haccept]

theorem keepsReserve_retain (hkeeps : KeepsReserve limits e) (index frameLen : Nat)
    (haccept : e.canAccept limits s frameLen true = true) :
    KeepsReserve limits (e.retain index s frameLen) := by
  obtain ⟨_, _, hframes, hstream, hbytes, hvectors⟩ := (canAccept_iff _ _).mp haccept
  refine ⟨hbytes, hvectors, fun other hother hcontrol => ?_⟩
  cases List.mem_or_eq_of_mem_set hother with
  | inl hold => exact hkeeps.stream other hold hcontrol
  | inr hnew =>
      subst hnew
      constructor
      · show s.retainedFrameBytes + (retainedFrameSize + frameLen) +
          (s.capacity + s.vectorGrowth) * sendbufVecSize ≤ s.byteLimit limits true
        simp only [EgressStream.streamBytes, EgressStream.frameCost] at hstream
        rw [Nat.add_mul]
        omega
      · show (s.frames ++ [frameLen]).length ≤ s.frameLimit limits true
        rw [List.length_append, List.length_singleton]
        exact hframes

theorem keepsReserve_writeFrame (hkeeps : KeepsReserve limits e) (index frameLen : Nat)
    (hkind : kind ≠ .essential) :
    KeepsReserve limits (e.writeFrame limits index kind frameLen).1 := by
  unfold writeFrame
  split
  · exact hkeeps
  split
  · exact hkeeps
  next hpreserves =>
  split
  · exact hkeeps
  · refine keepsReserve_retain hkeeps index frameLen ?_
    simpa [hkind] using hpreserves

theorem length_shiftFrames (delta offset : Nat) (frames : List Nat) :
    (shiftFrames delta offset frames).1.length ≤ frames.length := by
  induction frames generalizing delta offset with
  | nil => exact le_refl _
  | cons len rest ih =>
      unfold shiftFrames
      split
      · exact le_refl _
      · exact (ih _ _).trans (Nat.le_succ _)

/-- Doubling stops below twice what is needed. -/
theorem growCapacity_le (needed fuel capacity : Nat) :
    growCapacity needed fuel capacity ≤ max capacity (2 * needed) := by
  induction fuel generalizing capacity with
  | zero => exact le_max_left _ _
  | succ bits ih =>
      unfold growCapacity
      split
      · have := ih (capacity * 2)
        omega
      · exact le_max_left _ _

theorem shiftedCapacity_le (capacity before size : Nat) (compacts : Bool) :
    shiftedCapacity capacity before size compacts ≤ capacity := by
  unfold shiftedCapacity
  extract_lets left
  have hleft : left ≤ capacity := by
    simp only [left]
    split <;> omega
  split
  · next hcompact =>
      have := growCapacity_le size 64 4
      omega
  · exact hleft

theorem keepsReserve_egressShift (hkeeps : KeepsReserve limits e) (index delta : Nat)
    (compacts : Bool) : KeepsReserve limits (e.egressShift index delta compacts) := by
  unfold egressShift
  split
  · exact hkeeps
  next s hs =>
  extract_lets shifted released capacity
  have hcapacity : capacity ≤ s.capacity := shiftedCapacity_le _ _ _ _
  have hlength : shifted.1.length ≤ s.frames.length := length_shiftFrames _ _ _
  refine ⟨?_, ?_, fun other hother hcontrol => ?_⟩
  · have := hkeeps.bytes
    show e.egressBytes - released - (s.capacity - capacity) * sendbufVecSize ≤ _
    omega
  · have := hkeeps.vectors
    show e.vectorCapacity - (s.capacity - capacity) ≤ _
    omega
  cases List.mem_or_eq_of_mem_set hother with
  | inl hold => exact hkeeps.stream other hold hcontrol
  | inr hnew =>
      subst hnew
      obtain ⟨hbytes, hframes⟩ := hkeeps.stream s (List.mem_of_getElem? hs) hcontrol
      refine ⟨?_, hlength.trans hframes⟩
      have hvectors : capacity * sendbufVecSize ≤ s.capacity * sendbufVecSize :=
        Nat.mul_le_mul_right _ hcapacity
      simp only [EgressStream.streamBytes] at hbytes
      show s.retainedFrameBytes - released + capacity * sendbufVecSize ≤
        s.byteLimit limits true
      omega

theorem keepsReserve_apply (hkeeps : KeepsReserve limits e) (op : EgressOp) :
    KeepsReserve limits (e.apply limits op) := by
  cases op with
  | openStream isControl =>
      refine ⟨hkeeps.bytes, hkeeps.vectors, fun s hs hcontrol => ?_⟩
      cases List.mem_append.mp hs with
      | inl hold => exact hkeeps.stream s hold hcontrol
      | inr hnew =>
          obtain rfl := List.mem_singleton.mp hnew
          exact ⟨Nat.zero_le _, Nat.zero_le _⟩
  | application stream frameLen => exact keepsReserve_writeFrame hkeeps stream frameLen (by simp)
  | nack stream frameLen => exact keepsReserve_writeFrame hkeeps stream frameLen (by simp)
  | acked stream delta compacts => exact keepsReserve_egressShift hkeeps stream delta compacts
  | shut stream =>
      simp only [apply, shutStream]
      split
      · exact hkeeps
      next s hs =>
      refine ⟨hkeeps.bytes, hkeeps.vectors, fun other hother hcontrol => ?_⟩
      cases List.mem_or_eq_of_mem_set hother with
      | inl hold => exact hkeeps.stream other hold hcontrol
      | inr hnew =>
          subst hnew
          exact hkeeps.stream s (List.mem_of_getElem? hs) hcontrol
  | destroy stream =>
      simp only [apply, destroyStream]
      split
      · exact hkeeps
      next s hs =>
      refine ⟨?_, ?_, fun other hother hcontrol => ?_⟩
      · have := hkeeps.bytes
        show e.egressBytes - s.capacity * sendbufVecSize - frameBytes s.frames ≤ _
        omega
      · have := hkeeps.vectors
        show e.vectorCapacity - s.capacity ≤ _
        omega
      cases List.mem_or_eq_of_mem_set hother with
      | inl hold => exact hkeeps.stream other hold hcontrol
      | inr hnew =>
          subst hnew
          exact ⟨Nat.zero_le _, Nat.zero_le _⟩

theorem keepsReserve_run (limits : ConfiguredLimits) (ops : List EgressOp) :
    KeepsReserve limits (run limits ops) :=
  Machine.invariant_run (fun _ op hkeeps _ => keepsReserve_apply hkeeps op)
    (keepsReserve_init limits) (Machine.along_true _ _)

/-- The doubling of a full vector array fits in what the endpoint has left of its
vectors, and with the frame in what the stream has left of its bytes. -/
def DoublingFits (limits : ConfiguredLimits) (e : Egress) (s : EgressStream)
    (frame : EssentialFrame) : Prop :=
  s.frames.length < s.capacity ∨
    s.vectorGrowth ≤ streamEndpointMaxVectors - e.vectorCapacity ∧
      s.frameCost frame.frameLen ≤ limits.maxStreamEgressBytes - s.streamBytes

theorem canAccept_essential_iff (hlimits : limits.Resolved) (hkeeps : KeepsReserve limits e)
    (hstream : s ∈ e.streams) (hcontrol : s.isControl = true) (hopen : s.isOpen = true)
    (frame : EssentialFrame) :
    e.canAccept limits s frame.frameLen false = true ↔ DoublingFits limits e s frame := by
  have hlen := frame.frameLen_le
  obtain ⟨hbytes, hframes⟩ := hkeeps.stream s hstream hcontrol
  have hendpoint := hkeeps.bytes
  have hvectors := hkeeps.vectors
  have hbudget := hlimits.stream_ge
  have htotal := hlimits.total_ge
  rw [canAccept_iff]
  simp only [EgressStream.byteLimit, EgressStream.frameLimit, byteLimit, vectorLimit,
    hcontrol, Bool.true_and, Bool.false_and, if_true, Bool.false_eq_true, if_false,
    Nat.sub_zero, streamEndpointMaxVectors, streamEndpointControlVectorReserve,
    streamControlFrameReserve, streamControlByteReserve, streamEndpointControlByteReserve,
    streamMinFrameAccountingBytes] at hbytes hframes hendpoint hvectors hbudget htotal ⊢
  simp only [DoublingFits, EgressStream.frameCost, retainedFrameSize, sendbufVecSize,
    streamEndpointMaxVectors, wireMaxStreamPayload, wireFrameHeaderSize,
    Qlinq.maxReliableObjectSize, hopen, true_and]
  constructor
  · intro haccepted
    omega
  · intro hfits
    by_cases hfull : s.frames.length < s.capacity
    · have hgrowth : s.vectorGrowth = 0 := if_pos hfull
      omega
    · obtain ⟨hgrowth, hcost⟩ := hfits.resolve_left hfull
      omega

theorem writeFrame_essential {index : Nat} (hstream : e.streams[index]? = some s)
    (frameLen : Nat) :
    (e.writeFrame limits index .essential frameLen).2 =
      if e.canAccept limits s frameLen false then .written else .exhausted := by
  simp only [writeFrame, hstream]
  cases e.canAccept limits s frameLen false <;> simp

/-- Behind application frames and NACKs an essential frame is written exactly when
doubling the vector array fits; else it closes the connection. -/
theorem essential_written_iff {limits : ConfiguredLimits} (hlimits : limits.Resolved)
    (ops : List EgressOp) {index : Nat} {s : EgressStream}
    (hstream : (run limits ops).streams[index]? = some s) (hcontrol : s.isControl = true)
    (hopen : s.isOpen = true) (frame : EssentialFrame) :
    (((run limits ops).writeFrame limits index .essential frame.frameLen).2 = .written ↔
        DoublingFits limits (run limits ops) s frame) ∧
      (((run limits ops).writeFrame limits index .essential frame.frameLen).2 = .exhausted ↔
        ¬ DoublingFits limits (run limits ops) s frame) := by
  rw [writeFrame_essential hstream, ← canAccept_essential_iff hlimits
    (keepsReserve_run limits ops) (List.mem_of_getElem? hstream) hcontrol hopen frame]
  cases (run limits ops).canAccept limits s frame.frameLen false <;> simp

theorem essential_written_fresh :
    (((run defaultResolved [.openStream true]).writeFrame defaultResolved 0 .essential
          EssentialFrame.checkpoint.frameLen).2 = .written ↔
        DoublingFits defaultResolved (run defaultResolved [.openStream true])
          { isControl := true } .checkpoint) ∧
      (((run defaultResolved [.openStream true]).writeFrame defaultResolved 0 .essential
          EssentialFrame.checkpoint.frameLen).2 = .exhausted ↔
        ¬ DoublingFits defaultResolved (run defaultResolved [.openStream true])
          { isControl := true } .checkpoint) :=
  essential_written_iff resolved_default [.openStream true] rfl rfl rfl .checkpoint

/-! ### A full control stream

The vector array of a stream that only ever grew. -/

def arrayCapacity : Nat → Nat
  | 0 => 0
  | size + 1 =>
      arrayCapacity size +
        if size < arrayCapacity size then 0
        else if arrayCapacity size = 0 then 4 else arrayCapacity size

theorem le_arrayCapacity (size : Nat) : size ≤ arrayCapacity size := by
  induction size with
  | zero => exact le_refl _
  | succ size ih =>
      unfold arrayCapacity
      split
      · omega
      · split <;> omega

theorem arrayCapacity_pow (size : Nat) : ∃ doublings, arrayCapacity (size + 1) = 4 * 2 ^ doublings := by
  induction size with
  | zero => exact ⟨0, rfl⟩
  | succ size ih =>
      obtain ⟨doublings, hcapacity⟩ := ih
      have hpos : 0 < 2 ^ doublings := Nat.two_pow_pos _
      unfold arrayCapacity
      rw [hcapacity]
      split
      · exact ⟨doublings, rfl⟩
      · refine ⟨doublings + 1, ?_⟩
        rw [if_neg (by omega), Nat.pow_succ]
        omega

/-- The array does not outgrow a power of two before it is full. -/
theorem arrayCapacity_le (bound : Nat) (hsize : size ≤ 4 * 2 ^ bound) :
    arrayCapacity size ≤ 4 * 2 ^ bound := by
  induction size with
  | zero => exact Nat.zero_le _
  | succ size ih =>
      have hle := ih (by omega)
      cases size with
      | zero =>
          have hpos := Nat.two_pow_pos bound
          show 4 ≤ 4 * 2 ^ bound
          omega
      | succ size =>
          obtain ⟨doublings, hcapacity⟩ := arrayCapacity_pow size
          unfold arrayCapacity
          rw [hcapacity] at hle ⊢
          split
          · exact hle
          next hfull =>
          have hpos : 0 < 2 ^ doublings := Nat.two_pow_pos _
          rw [if_neg (by omega)]
          have hlt : doublings < bound := by
            refine (Nat.pow_lt_pow_iff_right (a := 2) (by omega)).mp ?_
            omega
          have hdouble : 2 ^ (doublings + 1) ≤ 2 ^ bound :=
            Nat.pow_le_pow_right (by omega) hlt
          rw [Nat.pow_succ] at hdouble
          omega

/-- A control stream that retains `size` unicasts of 456 bytes. -/
def filledStream (size : Nat) : EgressStream where
  isControl := true
  frames := List.replicate size 464
  capacity := arrayCapacity size
  retainedFrameBytes := size * 472

def filled (size : Nat) : Egress where
  streams := [filledStream size]
  egressBytes := size * 472 + arrayCapacity size * sendbufVecSize
  vectorCapacity := arrayCapacity size

theorem vectorGrowth_filled (size : Nat) :
    (filledStream size).vectorGrowth = arrayCapacity (size + 1) - arrayCapacity size := by
  by_cases hfull : size < arrayCapacity size
  · simp [EgressStream.vectorGrowth, filledStream, arrayCapacity, hfull]
  · simp only [EgressStream.vectorGrowth, filledStream, List.length_replicate, hfull,
      if_false, arrayCapacity, Nat.add_sub_cancel_left]
    rfl

theorem canAccept_filled (hsize : size < 4096) :
    (filled size).canAccept defaultResolved (filledStream size) 464 true = true := by
  have hnow : arrayCapacity size ≤ 4 * 2 ^ 10 := arrayCapacity_le 10 (by omega)
  have hnext : arrayCapacity (size + 1) ≤ 4 * 2 ^ 10 := arrayCapacity_le 10 (by omega)
  have hlimit : defaultResolved.maxStreamEgressBytes = 2097152 := by decide +kernel
  have hframes : (filledStream size).frameLimit defaultResolved true = 8176 := by
    simp [EgressStream.frameLimit, filledStream, hlimit, streamMinFrameAccountingBytes,
      streamEndpointMaxVectors, streamControlFrameReserve]
  have hstream : (filledStream size).byteLimit defaultResolved true = 2031616 := by
    simp [EgressStream.byteLimit, filledStream, hlimit, streamControlByteReserve]
  have hendpoint : byteLimit defaultResolved true = 14680064 := by decide +kernel
  have hvectors : vectorLimit true = 7936 := rfl
  rw [canAccept_iff, hframes, hstream, hendpoint, hvectors]
  simp only [EgressStream.streamBytes, EgressStream.frameCost, vectorGrowth_filled]
  simp only [filledStream, filled, List.length_replicate, retainedFrameSize, sendbufVecSize]
  refine ⟨trivial, by decide, by omega, by omega, by omega, by omega⟩

theorem apply_filled (hsize : size < 4096) :
    (filled size).apply defaultResolved (.application 0 464) = filled (size + 1) := by
  have hgrows : arrayCapacity size ≤ arrayCapacity (size + 1) := Nat.le_add_right _ _
  simp only [apply]
  rw [writeFrame_application (s := filledStream size) rfl (canAccept_filled hsize)]
  simp only [retain, EgressStream.frameCost, vectorGrowth_filled]
  simp only [filled, filledStream, List.set_cons_zero, ← List.replicate_succ', retainedFrameSize,
    sendbufVecSize, Nat.add_sub_cancel' hgrows, Egress.mk.injEq, and_true]
  refine ⟨?_, by omega⟩
  rw [Nat.succ_mul]

def fillRun : List EgressOp :=
  .openStream true :: List.replicate 4096 (.application 0 464)

theorem run_fill (hsize : size ≤ 4096) :
    run defaultResolved (.openStream true :: List.replicate size
      (.application 0 464)) = filled size := by
  induction size with
  | zero => rfl
  | succ size ih =>
      unfold run at ih ⊢
      rw [List.replicate_succ', ← List.cons_append, Machine.run_append, ih (by omega)]
      exact apply_filled (by omega)

/-- 4096 unicasts fill the control stream's vectors; its next checkpoint closes the
connection. -/
theorem full_control_stream_closes :
    defaultConfiguration.resolve = .ok defaultResolved ∧
      ∃ s, (run defaultResolved fillRun).streams[0]? = some s ∧ s.isControl = true ∧
        s.isOpen = true ∧
        ((run defaultResolved fillRun).writeFrame defaultResolved 0 .essential
          EssentialFrame.checkpoint.frameLen).2 = .exhausted := by
  have hfilled : run defaultResolved fillRun = filled 4096 := run_fill (le_refl _)
  have hcapacity : arrayCapacity 4096 = 4096 :=
    le_antisymm (arrayCapacity_le 10 (by decide)) (le_arrayCapacity 4096)
  refine ⟨by decide +kernel, filledStream 4096, by rw [hfilled]; rfl, rfl, rfl, ?_⟩
  have hunfit : ¬ DoublingFits defaultResolved (filled 4096) (filledStream 4096)
      .checkpoint := by
    have hlimit : defaultResolved.maxStreamEgressBytes = 2097152 := by decide +kernel
    have hgrowth : (filledStream 4096).vectorGrowth = 4096 := by
      simp only [EgressStream.vectorGrowth, filledStream, List.length_replicate, hcapacity,
        lt_irrefl, if_false]
      rfl
    simp only [DoublingFits, EgressStream.frameCost, EgressStream.streamBytes, hgrowth, hlimit]
    simp only [filledStream, List.length_replicate, hcapacity, retainedFrameSize,
      sendbufVecSize, EssentialFrame.frameLen, wireFrameHeaderSize]
    omega
  have hrefused : ¬ (filled 4096).canAccept defaultResolved (filledStream 4096)
      EssentialFrame.checkpoint.frameLen false = true := by
    rw [canAccept_essential_iff resolved_default (hfilled ▸ keepsReserve_run _ fillRun)
      (List.mem_singleton_self _) rfl rfl]
    exact hunfit
  rw [hfilled, writeFrame_essential (s := filledStream 4096) rfl]
  exact if_neg hrefused

end Egress

end Qlinq
