import Qlinq.Lib.Cut
import Qlinq.TunOutbound

namespace Qlinq

/-! What a helper makes of the daemon's bytes, wherever the connection ends. -/

/-! ### What a client's socket takes -/

namespace UdsOutput

variable {s : UdsOutput}

/-- A flush fails with bytes left. -/
theorem pending_of_flush_failed (hstreams : s.Streams stream) {writes : List SocketWrite}
    (hfailed : (s.flush writes).2 = false) : (s.flush writes).1.pending ≠ [] := by
  induction writes generalizing s with
  | nil =>
      unfold flush at hfailed
      split at hfailed <;> cases hfailed
  | cons write rest ih =>
      unfold flush at hfailed ⊢
      split
      · next hdone =>
          rw [if_pos hdone] at hfailed
          cases hfailed
      next hmore =>
      rw [if_neg hmore] at hfailed
      cases write with
      | wrote more => exact ih (streams_take hstreams (Nat.min_le_right _ _)) hfailed
      | interrupted => exact ih hstreams hfailed
      | blocked => cases hfailed
      | failed =>
          have hlength : s.pending.length = s.len - s.offset :=
            FlatQueue.length_content hstreams.inside
          apply List.ne_nil_of_length_pos
          simp only
          omega

/-- Of a frame that is refused not all bytes were written. -/
theorem streams_refused (hstreams : s.Streams stream) (frame : UdsFrame) (allocates : Bool)
    (fresh : Nat → UInt8) (writes : List SocketWrite)
    (hrefused : (s.queueFrame frame allocates fresh writes).2 = false) :
    (s.queueFrame frame allocates fresh writes).1.Streams stream ∨
      (frame.payload.length < 2 ^ 32 ∧
        (s.queueFrame frame allocates fresh writes).1.Streams (stream ++ frame.encode) ∧
        (s.queueFrame frame allocates fresh writes).1.pending ≠ []) := by
  simp only [queueFrame] at hrefused ⊢
  split
  · exact .inl hstreams
  next hsize =>
  simp only [if_neg hsize] at hrefused
  split
  · exact .inl hstreams
  next hroom =>
  simp only [if_neg hroom] at hrefused
  generalize hreserve : s.compact.reserve (s.len - s.offset +
    (udsFrameHeaderSize + frame.payload.length)) allocates fresh = reserved at hrefused ⊢
  cases reserved with
  | none => exact .inl (streams_compact hstreams)
  | some roomy =>
      obtain ⟨hroomy, hcapacity, hoffset, hlen⟩ :=
        streams_reserve (streams_compact hstreams) (by omega) hreserve
      have hfront : roomy.len = s.len - s.offset := hlen
      have happended := streams_append hroomy frame (by omega) (by omega)
      exact .inr ⟨by omega, streams_flush happended writes,
        pending_of_flush_failed happended hrefused⟩

theorem length_lt_of_accepted {frame : UdsFrame}
    (haccepted : (s.queueFrame frame allocates fresh writes).2 = true) :
    frame.payload.length < 2 ^ 32 := by
  simp only [queueFrame] at haccepted
  split at haccepted
  · cases haccepted
  · next hsize => exact Nat.not_le.mp hsize

end UdsOutput

namespace UdsSink

/-- What the socket has taken ends before the frame behind those accepted does. -/
structure Streamed (sink : UdsSink) : Prop where
  short : ∀ frame ∈ sink.accepted, frame.payload.length < 2 ^ 32
  cut : ∃ next : UdsFrame, next.payload.length < 2 ^ 32 ∧
    sink.out.written <+: (sink.accepted ++ [next]).flatMap UdsFrame.encode ∧
    sink.out.written.length < ((sink.accepted ++ [next]).flatMap UdsFrame.encode).length

theorem cut_of_streams {out : UdsOutput} {bytes : Bytes} (hstreams : out.Streams bytes)
    (next : UdsFrame) :
    out.written <+: bytes ++ next.encode ∧
      out.written.length < (bytes ++ next.encode).length := by
  have hfront : out.written <+: bytes := hstreams.stream_eq ▸ List.prefix_append _ _
  refine ⟨hfront.trans (List.prefix_append _ _), ?_⟩
  have hle := hfront.length_le
  rw [List.length_append, UdsOutput.length_encode]
  unfold udsFrameHeaderSize
  omega

theorem streamed_of_streams {sink : UdsSink} (hstreams : sink.out.Streams sink.stream)
    (hshort : ∀ frame ∈ sink.accepted, frame.payload.length < 2 ^ 32) : sink.Streamed where
  short := hshort
  cut := by
    refine ⟨⟨[], 0⟩, Nat.two_pow_pos 32, ?_⟩
    rw [List.flatMap_append, List.flatMap_singleton]
    exact cut_of_streams hstreams ⟨[], 0⟩

theorem streamed_apply {sink : UdsSink} (hstreaming : sink.Streaming) (hstreamed : sink.Streamed)
    (op : Op) : (sink.apply op).Streamed := by
  cases hclosed : sink.closed with
  | true =>
      simp only [apply, hclosed, if_true]
      exact hstreamed
  | false =>
      have hstreams := hstreaming hclosed
      simp only [apply, hclosed, Bool.false_eq_true, if_false]
      cases op with
      | send frame allocates fresh writes =>
          cases haccepted : (sink.out.queueFrame frame allocates fresh writes).2 with
          | true =>
              simp only [haccepted, if_true]
              refine streamed_of_streams ?_ ?_
              · simp only [stream, List.flatMap_append, List.flatMap_singleton]
                exact UdsOutput.streams_queueFrame hstreams frame allocates fresh writes haccepted
              · intro found hfound
                cases List.mem_append.mp hfound with
                | inl hbefore => exact hstreamed.short found hbefore
                | inr hlast =>
                    obtain rfl := List.mem_singleton.mp hlast
                    exact UdsOutput.length_lt_of_accepted haccepted
          | false =>
              simp only [haccepted, Bool.false_eq_true, if_false]
              cases UdsOutput.streams_refused hstreams frame allocates fresh writes haccepted with
              | inl hsame => exact streamed_of_streams hsame hstreamed.short
              | inr hpart =>
                  obtain ⟨hshort, hlonger, hpending⟩ := hpart
                  have hsplit := hlonger.stream_eq
                  refine ⟨hstreamed.short, frame, hshort, ?_⟩
                  rw [List.flatMap_append, List.flatMap_singleton]
                  change _ <+: sink.stream ++ _ ∧ _ < (sink.stream ++ _).length
                  rw [← hsplit]
                  have hpos := List.length_pos_iff.mpr hpending
                  refine ⟨List.prefix_append _ _, ?_⟩
                  rw [List.length_append]
                  exact Nat.lt_add_of_pos_right hpos
      | writable writes =>
          exact streamed_of_streams (UdsOutput.streams_flush hstreams writes) hstreamed.short
      | close => exact ⟨hstreamed.short, hstreamed.cut⟩

/-- Closed or not, a client's socket has taken frames that were accepted and a part of one
more. -/
theorem streamed_run (ops : List Op) : (run ops).Streamed := by
  have hboth : (run ops).Streaming ∧ (run ops).Streamed := by
    refine @Machine.invariant_run _ _ apply {} ops (fun _ _ => True)
      (fun sink => sink.Streaming ∧ sink.Streamed) ?_ ?_ (Machine.along_true _ ops)
    · intro sink op hboth _
      exact ⟨streaming_apply hboth.1 op, streamed_apply hboth.1 hboth.2 op⟩
    · exact ⟨streaming_initial, streamed_of_streams (streaming_initial rfl) (by simp)⟩
  exact hboth.2

end UdsSink

/-! ### Exact reads -/

theorem readExact_complete {reads : List ReadOutcome} {size : Nat} {unread : Bytes}
    (hcomplete : (readExact reads size unread).complete = true) :
    (readExact reads size unread).bytes = unread.take size ∧
      (readExact reads size unread).bytes.length = size := by
  induction reads generalizing size unread with
  | nil =>
      cases size with
      | zero => exact ⟨rfl, rfl⟩
      | succ size => cases hcomplete
  | cons outcome reads ih =>
      cases size with
      | zero => exact ⟨rfl, rfl⟩
      | succ size =>
          cases outcome with
          | interrupted => exact ih hcomplete
          | wouldBlock => cases hcomplete
          | failed => cases hcomplete
          | upTo n =>
              unfold readExact at hcomplete ⊢
              simp only at hcomplete ⊢
              generalize hchunk : unread.take (min (n + 1) (size + 1)) = chunk at hcomplete ⊢
              have hfront : chunk <+: unread := hchunk ▸ List.take_prefix _ _
              have hle : chunk.length ≤ size + 1 := by
                rw [← hchunk, List.length_take]
                omega
              obtain ⟨later, rfl⟩ := hfront
              split at hcomplete
              · cases hcomplete
              next hsome =>
              obtain ⟨hbytes, hlength⟩ := ih hcomplete
              rw [if_neg hsome]
              rw [List.drop_left] at hbytes hlength ⊢
              constructor
              · rw [List.take_append, List.take_of_length_le hle]
                exact congrArg (chunk ++ ·) hbytes
              · change (chunk ++ _).length = _
                rw [List.length_append, hlength]
                omega

theorem hostU32Bytes_hostU32 {bytes : Bytes} (hlength : bytes.length = 4) :
    hostU32Bytes (hostU32 bytes) = bytes := by
  have hround := BigEndian.toBytes_ofBytes bytes.reverse
  rw [List.length_reverse, hlength] at hround
  unfold hostU32Bytes hostU32
  rw [hround, List.reverse_reverse]

namespace HelperLink

variable {l : HelperLink}

/-- What was delivered and what is unread is what came in. -/
structure Received (l : HelperLink) : Prop where
  incoming : l.delivered.flatMap UdsFrame.encode ++ l.unread = l.incoming
  fits : ∀ frame ∈ l.delivered, frame.payload.length ≤ tunPacketSize

theorem received_readFrame (hreceived : l.Received) (reads : List ReadOutcome) :
    (l.readFrame reads).1.Received := by
  unfold readFrame
  simp only
  split
  · exact hreceived
  next hsize =>
  split
  · exact hreceived
  next hpriority =>
  split
  · exact hreceived
  next hfits =>
  split
  · exact hreceived
  next hpacket =>
  rw [Bool.not_eq_true, Bool.not_eq_false'] at hsize hpriority hpacket
  obtain ⟨hsizeBytes, hsizeLength⟩ := readExact_complete hsize
  obtain ⟨hpriorityBytes, hpriorityLength⟩ := readExact_complete hpriority
  obtain ⟨hpacketBytes, hpacketLength⟩ := readExact_complete hpacket
  generalize readExact reads 4 l.unread = size at *
  generalize readExact size.rest 1 (l.unread.drop 4) = priority at *
  generalize readExact priority.rest (hostU32 size.bytes) (l.unread.drop 5) = packet at *
  obtain ⟨byte, hbyte⟩ := List.length_eq_one_iff.mp hpriorityLength
  constructor
  · have hpriorityByte : priority.bytes.getD 0 1 = byte := by
      rw [hbyte]
      rfl
    have hunread : l.unread = UdsFrame.encode ⟨packet.bytes, byte⟩ ++
        l.unread.drop (5 + hostU32 size.bytes) := by
      rw [UdsFrame.encode, hpacketLength, hostU32Bytes_hostU32 hsizeLength, hsizeBytes, ← hbyte,
        hpriorityBytes, hpacketBytes, hsizeBytes]
      simp only [List.append_assoc]
      rw [← List.drop_drop, List.take_append_drop]
      have hdrop : l.unread.drop 5 = (l.unread.drop 4).drop 1 := by
        rw [List.drop_drop]
      rw [hdrop, List.take_append_drop, List.take_append_drop]
    simp only [List.flatMap_append, List.flatMap_singleton, hpriorityByte, List.append_assoc]
    rw [← hunread]
    exact hreceived.incoming
  · intro frame hframe
    cases List.mem_append.mp hframe with
    | inl hbefore => exact hreceived.fits frame hbefore
    | inr hlast =>
        obtain rfl := List.mem_singleton.mp hlast
        change packet.bytes.length ≤ _
        rw [hpacketLength]
        exact Nat.not_lt.mp hfits

theorem linkInvariant_received (c : HelperConfig) :
    TunHelper.LinkInvariant c Received Received where
  register := by
    intro incoming writes
    unfold TunHelper.Settles
    split <;> exact ⟨rfl, by simp [register]⟩
  writePacket := by
    intro l packet writes hreceived hsome hfits
    unfold TunHelper.Settles
    split <;> exact ⟨hreceived.incoming, hreceived.fits⟩
  readFrame := by
    intro l reads hreceived
    unfold TunHelper.Settles
    split <;> exact received_readFrame hreceived reads
  hangup := id

end HelperLink

/-! ### What is delivered -/

/-- No frame's encoding begins another's. -/
theorem UdsFrame.eq_of_encode_prefix {frame other : UdsFrame}
    (hframe : frame.payload.length < 2 ^ 32) (hother : other.payload.length < 2 ^ 32)
    (hbegins : frame.encode <+: other.encode) : frame = other := by
  obtain ⟨more, hmore⟩ := hbegins
  simp only [UdsFrame.encode, List.append_assoc] at hmore
  obtain ⟨hsize, hbody⟩ := List.append_inj hmore
    (by rw [UdsOutput.length_hostU32Bytes, UdsOutput.length_hostU32Bytes])
  have hlength : frame.payload.length = other.payload.length := by
    rw [← hostU32_hostU32Bytes hframe, hsize, hostU32_hostU32Bytes hother]
  obtain ⟨hpriority, hpayload⟩ := List.append_inj hbody rfl
  have hsame := (List.append_inj (hpayload.trans (List.append_nil _).symm) hlength).1
  cases frame
  cases other
  simp only [List.cons.injEq, and_true] at hpriority
  simp only at hsame
  rw [hpriority, hsame]

namespace TunHelper

/-- From the bytes that a client's socket took, wherever they end, the helper delivers frames
that were accepted for the client, from the first on, of which none is larger than its buffer;
what it has not delivered it has not read, or has dropped with the connection. -/
theorem inbound_faithful (c : HelperConfig) (ops : List Op) {l : HelperLink}
    (hl : l ∈ (run c ops).links) (sends : List UdsSink.Op)
    (hincoming : l.incoming <+: (UdsSink.run sends).out.written) :
    l.delivered <+: (UdsSink.run sends).accepted ∧
      (∀ frame ∈ l.delivered, frame.payload.length ≤ tunPacketSize) ∧
      l.delivered.flatMap UdsFrame.encode ++ l.unread = l.incoming := by
  have hinv := HelperLink.linkInvariant_received c
  have hreceived : l.Received := (keeps_run hinv ops).links hinv hl
  obtain ⟨hshort, next, hnext, hwritten, hcut⟩ := UdsSink.streamed_run sends
  refine ⟨?_, hreceived.fits, hreceived.incoming⟩
  have hthere : l.delivered.flatMap UdsFrame.encode <+: l.incoming :=
    hreceived.incoming ▸ List.prefix_append _ _
  have hstream := (hthere.trans hincoming).trans hwritten
  have hfront : l.delivered <+: (UdsSink.run sends).accepted ++ [next] := by
    refine Incremental.prefix_of_flatMap_prefix ?_ ?_ hstream
    · intro frame hnil
      have hlength := UdsOutput.length_encode frame
      rw [hnil] at hlength
      unfold udsFrameHeaderSize at hlength
      rw [List.length_nil] at hlength
      omega
    · intro frame hframe other hother hcompare
      have hle := hreceived.fits frame hframe
      unfold tunPacketSize at hle
      have hbound : other.payload.length < 2 ^ 32 := by
        cases List.mem_append.mp hother with
        | inl haccepted => exact hshort other haccepted
        | inr hlast =>
            obtain rfl := List.mem_singleton.mp hlast
            exact hnext
      cases hcompare with
      | inl hbegins => exact UdsFrame.eq_of_encode_prefix (by omega) hbound hbegins
      | inr hbegins => exact (UdsFrame.eq_of_encode_prefix hbound (by omega) hbegins).symm
  cases List.prefix_concat_iff.mp hfront with
  | inr hbefore => exact hbefore
  | inl hall =>
      have hle := (hthere.trans hincoming).length_le
      rw [hall] at hle
      omega

/-! One frame crosses the socket. -/

def lowTunnel : HelperConfig where
  useReliable := false
  priority := 0
  trackName := [0x74]
  name_le := by decide
  name_text := by decide

def oneFrame : UdsFrame := ⟨[0x45, 7], 2⟩

def oneDelivery : List Op :=
  [.connect oneFrame.encode [.wrote 10, .wrote 10], .readable (List.replicate 3 (.upTo 10))]

def oneSend : List UdsSink.Op := [.send oneFrame true (fun _ => 0) [.wrote 100]]

def usedLink : HelperLink where
  sent := lowTunnel.registration
  incoming := oneFrame.encode
  unread := []
  delivered := [oneFrame]

theorem one_frame_inbound :
    usedLink.delivered <+: (UdsSink.run oneSend).accepted ∧
      (∀ frame ∈ usedLink.delivered, frame.payload.length ≤ tunPacketSize) ∧
      usedLink.delivered.flatMap UdsFrame.encode ++ usedLink.unread = usedLink.incoming :=
  inbound_faithful lowTunnel oneDelivery (by decide +kernel) oneSend (by decide +kernel)

end TunHelper

end Qlinq
