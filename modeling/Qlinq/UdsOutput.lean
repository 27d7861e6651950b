import Qlinq.DataUds
import Qlinq.Lib.FlatQueue

namespace Qlinq

/-! What the daemon sends to one local client: frames wait in a buffer that grows with them
until the socket takes their bytes. -/

def udsMaxQueuedBytes : Nat := 4 * 1024 * 1024

/-- What one write to the socket does; `wrote more` takes `more + 1` bytes, or all there
are. -/
inductive SocketWrite
  | wrote (more : Nat)
  | interrupted
  | blocked
  | failed
  deriving DecidableEq, Repr

structure UdsFrame where
  payload : Bytes
  priority : UInt8
  deriving DecidableEq, Repr

/-- A 32-bit number in the order of the host. -/
def hostU32Bytes (value : Nat) : Bytes := (BigEndian.toBytes 4 value).reverse

def UdsFrame.encode (frame : UdsFrame) : Bytes :=
  hostU32Bytes frame.payload.length ++ [frame.priority] ++ frame.payload

/-- The output side of a client, and what its socket has taken. -/
structure UdsOutput where
  output : Bytes := []
  capacity : Nat := 0
  offset : Nat := 0
  len : Nat := 0
  written : Bytes := []
  deriving DecidableEq, Repr

namespace UdsOutput

def pending (s : UdsOutput) : Bytes := (s.output.take s.len).drop s.offset

/-- The socket takes the next bytes. -/
def take (s : UdsOutput) (count : Nat) : UdsOutput :=
  { s with offset := s.offset + count, written := s.written ++ s.pending.take count }

/-- `flush_client_output`; a socket without an outcome left blocks. -/
def flush : (writes : List SocketWrite) → UdsOutput → UdsOutput × Bool
  | writes, s =>
      if s.len ≤ s.offset then
        ({ s with offset := 0, len := 0 }, true)
      else
        match writes with
        | [] => (s, true)
        | .wrote more :: rest => flush rest (s.take (min (more + 1) (s.len - s.offset)))
        | .interrupted :: rest => flush rest s
        | .blocked :: _ => (s, true)
        | .failed :: _ => (s, false)

/-- The capacity is doubled until it is enough, and is never more than the limit. -/
def grow (needed : Nat) : (rounds : Nat) → (capacity : Nat) → Nat
  | 0, capacity => capacity
  | rounds + 1, capacity =>
      if needed ≤ capacity then
        capacity
      else if udsMaxQueuedBytes / 2 < capacity then
        udsMaxQueuedBytes
      else
        grow needed rounds (capacity * 2)

/-- Move what is pending to the front of the buffer. -/
def compact (s : UdsOutput) : UdsOutput :=
  { s with
    output :=
      if 0 < s.offset ∧ 0 < s.len - s.offset then
        FlatQueue.writeAt s.output 0 s.pending
      else
        s.output
    offset := 0
    len := s.len - s.offset }

/-- Room for `needed` bytes; what new memory holds is up to `fresh`. -/
def reserve (s : UdsOutput) (needed : Nat) (allocates : Bool) (fresh : Nat → UInt8) :
    Option UdsOutput :=
  if s.capacity < needed then
    let capacity := grow needed needed (if s.capacity = 0 then 4096 else s.capacity)
    if allocates then
      some
        { s with
          output := s.output ++ (List.range (capacity - s.capacity)).map fresh
          capacity := capacity }
    else
      none
  else
    some s

/-- Copy the length, the priority and the payload behind what is pending. -/
def append (s : UdsOutput) (frame : UdsFrame) : UdsOutput :=
  let sized := FlatQueue.writeAt s.output s.len (hostU32Bytes frame.payload.length)
  let headed := FlatQueue.writeAt sized (s.len + 4) [frame.priority]
  { s with
    output := FlatQueue.writeAt headed (s.len + udsFrameHeaderSize) frame.payload
    len := s.len + (udsFrameHeaderSize + frame.payload.length) }

/-- `queue_client_frame`. -/
def queueFrame (s : UdsOutput) (frame : UdsFrame) (allocates : Bool) (fresh : Nat → UInt8)
    (writes : List SocketWrite) : UdsOutput × Bool :=
  let size := frame.payload.length
  if 2 ^ 32 ≤ size then
    (s, false)
  else
    let pending := s.len - s.offset
    let frameSize := udsFrameHeaderSize + size
    if udsMaxQueuedBytes < frameSize ∨ udsMaxQueuedBytes - frameSize < pending then
      (s, false)
    else
      match s.compact.reserve (pending + frameSize) allocates fresh with
      | none => (s.compact, false)
      | some roomy => (roomy.append frame).flush writes

end UdsOutput

/-- A client's connection: its output, and the frames that were accepted for it. -/
structure UdsSink where
  out : UdsOutput := {}
  accepted : List UdsFrame := []
  closed : Bool := false
  deriving DecidableEq, Repr

namespace UdsSink

/-- `data_uds_send` hands the client a frame; the event loop finds the socket writable; or
the client is closed for another reason. -/
inductive Op
  | send (frame : UdsFrame) (allocates : Bool) (fresh : Nat → UInt8)
      (writes : List SocketWrite)
  | writable (writes : List SocketWrite)
  | close

def apply (sink : UdsSink) (op : Op) : UdsSink :=
  if sink.closed then
    sink
  else
    match op with
    | .send frame allocates fresh writes =>
        let (out, accepted) := sink.out.queueFrame frame allocates fresh writes
        if accepted then
          { sink with out := out, accepted := sink.accepted ++ [frame] }
        else
          { sink with out := out, closed := true }
    | .writable writes =>
        let (out, kept) := sink.out.flush writes
        { sink with out := out, closed := !kept }
    | .close => { sink with closed := true }

def run (ops : List Op) : UdsSink := Machine.run apply {} ops

end UdsSink

namespace UdsOutput

/-! ### The buffer as a queue -/

def queue (s : UdsOutput) : FlatQueue UInt8 where
  cells := s.output
  first := s.offset
  last := s.len

/-- What the socket took and what is pending are the stream; the buffer covers it. -/
structure Streams (s : UdsOutput) (stream : Bytes) : Prop where
  stream_eq : s.written ++ s.pending = stream
  inside : s.queue.Inside
  capacity_eq : s.output.length = s.capacity
  pending_le : s.len - s.offset ≤ udsMaxQueuedBytes

variable {s : UdsOutput}

/-! ### Flushing -/

theorem streams_take (hstreams : s.Streams stream) (hcount : count ≤ s.len - s.offset) :
    (s.take count).Streams stream where
  stream_eq := by
    have hrest : (s.take count).pending = s.pending.drop count :=
      FlatQueue.content_advance s.queue count
    change s.written ++ s.pending.take count ++ (s.take count).pending = stream
    rw [hrest, List.append_assoc, List.take_append_drop]
    exact hstreams.stream_eq
  inside := FlatQueue.inside_advance hstreams.inside hcount
  capacity_eq := hstreams.capacity_eq
  pending_le := by
    have hpending := hstreams.pending_le
    simp only [take]
    omega

/-- A buffer that was read to its end starts anew. -/
theorem streams_rewind (hstreams : s.Streams stream) (hdone : s.len ≤ s.offset) :
    Streams { s with offset := 0, len := 0 } stream where
  stream_eq := by
    have hnothing : s.pending = [] := @FlatQueue.content_of_empty _ s.queue hdone
    have hstream := hstreams.stream_eq
    rw [hnothing] at hstream
    exact hstream
  inside := ⟨Nat.le_refl 0, Nat.zero_le _⟩
  capacity_eq := hstreams.capacity_eq
  pending_le := Nat.zero_le _

theorem streams_flush (hstreams : s.Streams stream) (writes : List SocketWrite) :
    (s.flush writes).1.Streams stream := by
  induction writes generalizing s with
  | nil =>
      unfold flush
      split
      · next hdone => exact streams_rewind hstreams hdone
      · exact hstreams
  | cons write rest ih =>
      unfold flush
      split
      · next hdone => exact streams_rewind hstreams hdone
      · cases write with
        | wrote more => exact ih (streams_take hstreams (Nat.min_le_right _ _))
        | interrupted => exact ih hstreams
        | blocked => exact hstreams
        | failed => exact hstreams

/-! ### Queueing -/

/-- Moving the bytes down is skipped only where it would change nothing. -/
theorem queue_compact (hinside : s.queue.Inside) : s.compact.queue = s.queue.compact := by
  have hlength : s.queue.content.length = s.len - s.offset := FlatQueue.length_content hinside
  have hcells : s.compact.output = s.queue.compact.cells := by
    simp only [compact]
    split
    · rfl
    · next hsettled =>
        refine (FlatQueue.compact_of_settled hinside ?_).symm
        simp only [queue]
        omega
  simp only [queue, FlatQueue.compact] at hcells hlength ⊢
  rw [hcells, hlength]
  rfl

theorem streams_compact (hstreams : s.Streams stream) : s.compact.Streams stream where
  stream_eq := by
    have hpending : s.compact.pending = s.pending := by
      change s.compact.queue.content = s.queue.content
      rw [queue_compact hstreams.inside, FlatQueue.content_compact]
    change s.written ++ s.compact.pending = stream
    rw [hpending]
    exact hstreams.stream_eq
  inside := by
    rw [queue_compact hstreams.inside]
    exact FlatQueue.inside_compact _
  capacity_eq := by
    have hcells : s.compact.output.length = s.output.length := by
      change s.compact.queue.cells.length = s.queue.cells.length
      rw [queue_compact hstreams.inside, FlatQueue.length_compact]
    exact hcells.trans hstreams.capacity_eq
  pending_le := hstreams.pending_le

/-- Enough rounds of doubling reach what is needed, within the limit. -/
theorem le_grow {needed rounds capacity : Nat} (hneeded : needed ≤ udsMaxQueuedBytes) (hcapacity : 0 < capacity)
    (hrounds : needed ≤ capacity + rounds) :
    needed ≤ grow needed rounds capacity ∧ capacity ≤ grow needed rounds capacity := by
  induction rounds generalizing capacity with
  | zero => exact ⟨hrounds, Nat.le_refl _⟩
  | succ rounds ih =>
      unfold grow
      split
      · next henough => exact ⟨henough, Nat.le_refl _⟩
      split
      · next hlimit => exact ⟨hneeded, by omega⟩
      · obtain ⟨henough, hgrown⟩ := @ih (capacity * 2) (by omega) (by omega)
        exact ⟨henough, by omega⟩

theorem streams_reserve (hstreams : s.Streams stream) (hneeded : needed ≤ udsMaxQueuedBytes)
    (hreserve : s.reserve needed allocates fresh = some roomy) :
    roomy.Streams stream ∧ needed ≤ roomy.capacity ∧ roomy.offset = s.offset ∧
      roomy.len = s.len := by
  simp only [reserve] at hreserve
  split at hreserve
  · split at hreserve
    · obtain rfl := Option.some.inj hreserve
      have hfirst : 0 < if s.capacity = 0 then 4096 else s.capacity := by
        split <;> omega
      obtain ⟨henough, hgrown⟩ := le_grow hneeded hfirst (Nat.le_add_left needed _)
      have hlarger : s.capacity ≤ grow needed needed
          (if s.capacity = 0 then 4096 else s.capacity) := by
        refine Nat.le_trans ?_ hgrown
        split <;> omega
      have hpending := FlatQueue.content_enlarge hstreams.inside
      have hinside := FlatQueue.inside_enlarge hstreams.inside
      refine ⟨⟨?_, hinside _, ?_, hstreams.pending_le⟩, henough, rfl, rfl⟩
      · refine Eq.trans ?_ hstreams.stream_eq
        exact congrArg (s.written ++ ·) (hpending _)
      · simp only [List.length_append, List.length_map, List.length_range, hstreams.capacity_eq]
        omega
    · cases hreserve
  · next henough =>
      obtain rfl := Option.some.inj hreserve
      exact ⟨hstreams, Nat.not_lt.mp henough, rfl, rfl⟩

theorem length_hostU32Bytes (value : Nat) : (hostU32Bytes value).length = 4 := by
  simp [hostU32Bytes]

theorem length_encode (frame : UdsFrame) :
    frame.encode.length = udsFrameHeaderSize + frame.payload.length := by
  simp only [UdsFrame.encode, List.length_append, length_hostU32Bytes, List.length_singleton]
  rfl

/-- The three copies put the encoded frame behind what is pending. -/
theorem queue_append (hinside : s.queue.Inside) (frame : UdsFrame) :
    (s.append frame).queue = s.queue.put frame.encode := by
  have hlast : s.len ≤ s.output.length := hinside.last_le
  have hheaded := FlatQueue.writeAt_writeAt hlast (hostU32Bytes frame.payload.length)
    [frame.priority]
  have hwhole := FlatQueue.writeAt_writeAt hlast
    (hostU32Bytes frame.payload.length ++ [frame.priority]) frame.payload
  rw [length_hostU32Bytes] at hheaded
  rw [List.length_append, length_hostU32Bytes] at hwhole
  simp only [append, queue, FlatQueue.put, length_encode, FlatQueue.mk.injEq, and_true]
  rw [hheaded]
  exact hwhole

theorem streams_append (hstreams : s.Streams stream) (frame : UdsFrame)
    (hcapacity : s.len + (udsFrameHeaderSize + frame.payload.length) ≤ s.capacity)
    (hlimit : s.len + (udsFrameHeaderSize + frame.payload.length) - s.offset ≤
      udsMaxQueuedBytes) : (s.append frame).Streams (stream ++ frame.encode) := by
  have hroom : s.queue.last + frame.encode.length ≤ s.queue.cells.length := by
    rw [length_encode]
    exact hstreams.capacity_eq ▸ hcapacity
  exact
    { stream_eq := by
        have hpending : (s.append frame).pending = s.pending ++ frame.encode := by
          change (s.append frame).queue.content = s.queue.content ++ frame.encode
          rw [queue_append hstreams.inside, FlatQueue.content_put hstreams.inside]
        change s.written ++ (s.append frame).pending = stream ++ frame.encode
        rw [hpending, ← List.append_assoc, hstreams.stream_eq]
      inside := by
        rw [queue_append hstreams.inside]
        exact FlatQueue.inside_put hstreams.inside hroom
      capacity_eq := by
        have hcells : (s.append frame).output.length = s.output.length := by
          change (s.append frame).queue.cells.length = _
          rw [queue_append hstreams.inside]
          exact FlatQueue.length_writeAt hroom
        exact hcells.trans hstreams.capacity_eq
      pending_le := hlimit }

/-- A frame is accepted behind the stream, or nothing of it is kept. -/
theorem streams_queueFrame (hstreams : s.Streams stream) (frame : UdsFrame) (allocates : Bool)
    (fresh : Nat → UInt8) (writes : List SocketWrite)
    (haccepted : (s.queueFrame frame allocates fresh writes).2 = true) :
    (s.queueFrame frame allocates fresh writes).1.Streams (stream ++ frame.encode) := by
  simp only [queueFrame] at haccepted ⊢
  split
  · next hsize =>
      rw [if_pos hsize] at haccepted
      cases haccepted
  next hsize =>
  simp only [if_neg hsize] at haccepted
  split
  · next hfull =>
      rw [if_pos hfull] at haccepted
      cases haccepted
  next hroom =>
  simp only [if_neg hroom] at haccepted
  generalize hreserve : s.compact.reserve (s.len - s.offset +
    (udsFrameHeaderSize + frame.payload.length)) allocates fresh = reserved at haccepted ⊢
  cases reserved with
  | none => simp at haccepted
  | some roomy =>
      obtain ⟨hroomy, hcapacity, hoffset, hlen⟩ :=
        streams_reserve (streams_compact hstreams) (by omega) hreserve
      have hfront : roomy.len = s.len - s.offset := hlen
      exact streams_flush (streams_append hroomy frame (by omega) (by omega)) writes

end UdsOutput

namespace UdsSink

def stream (sink : UdsSink) : Bytes := sink.accepted.flatMap UdsFrame.encode

/-- Until the client is closed its output streams the accepted frames. -/
def Streaming (sink : UdsSink) : Prop := sink.closed = false → sink.out.Streams sink.stream

theorem streaming_initial : Streaming {} := fun _ =>
  { stream_eq := rfl
    inside := ⟨Nat.le_refl 0, Nat.le_refl 0⟩
    capacity_eq := rfl
    pending_le := Nat.zero_le _ }

theorem streaming_apply {sink : UdsSink} (hstreaming : sink.Streaming) (op : Op) :
    (sink.apply op).Streaming := by
  intro hopen
  cases hclosed : sink.closed with
  | true => simp [apply, hclosed] at hopen
  | false =>
      have hstreams := hstreaming hclosed
      simp only [apply, hclosed, Bool.false_eq_true, if_false] at hopen ⊢
      cases op with
      | send frame allocates fresh writes =>
          have hqueued := UdsOutput.streams_queueFrame hstreams frame allocates fresh writes
          cases haccepted : (sink.out.queueFrame frame allocates fresh writes).2 with
          | true =>
              have hlonger := hqueued haccepted
              simp only [haccepted, if_true, stream, List.flatMap_append, List.flatMap_singleton]
              exact hlonger
          | false => simp [haccepted] at hopen
      | writable writes => exact UdsOutput.streams_flush hstreams writes
      | close => cases hopen

/-- Whatever is sent and whatever the socket does, an open client's bytes written and
pending are the encodings of the frames accepted so far, in order. -/
theorem streaming_run (ops : List Op) : (run ops).Streaming :=
  Machine.invariant_run (fun _ op hstreaming _ => streaming_apply hstreaming op)
    streaming_initial (Machine.along_true _ ops)

end UdsSink

end Qlinq
