import Qlinq.Lib.Incremental
import Qlinq.WirePayloads

namespace Qlinq

/-! The stream of frames that control and track streams carry. -/

def encodeFrameHeader (dst : Bytes) (type : UInt8) (payloadLen maxPayload : Nat) :
    Except WireError Bytes :=
  if !wireFrameTypeIsKnown type then
    .error .invalid
  else if maxPayload < payloadLen ∨ uint32Max < payloadLen then
    .error .tooLarge
  else if dst.length < wireFrameHeaderSize then
    .error .tooLarge
  else
    .ok (Layout.storeAll dst
      [(0, [wireMagic0]), (1, [wireMagic1]), (2, [wireVersion]), (3, [type]),
        (4, writeU32 (UInt32.ofNat payloadLen))])

/-- `qlinq_wire_encode_frame`: the buffer and how much of it is the frame. -/
def encodeFrameInto (dst : Bytes) (type : UInt8) (payload : Bytes) (maxPayload : Nat) :
    Except WireError (Bytes × Nat) :=
  if sizeMax - wireFrameHeaderSize < payload.length ∨
      dst.length < wireFrameHeaderSize + payload.length then
    .error .tooLarge
  else
    match encodeFrameHeader dst type payload.length maxPayload with
    | .error result => .error result
    | .ok dst =>
        .ok (Layout.store dst wireFrameHeaderSize payload,
          wireFrameHeaderSize + payload.length)

/-- The decoder of the receive loops. -/
def frameVerdict (maxPayload : Nat) (src : Bytes) :
    Incremental.Verdict WireFrame WireError :=
  match decodeFrame src maxPayload with
  | .error .needMore => .needMore
  | .error result => .failed result
  | .ok frame => .decoded frame frame.consumed

/-- The receive loop with its frames recorded. -/
def decodeFrames (maxPayload : Nat) (src : Bytes) :
    Incremental.Collected WireFrame WireError × Bytes :=
  Incremental.drain (frameVerdict maxPayload) Incremental.collect {} src

/-- The receive loop run behind every chunk. -/
def decodeChunks (maxPayload : Nat) (chunks : List Bytes) :
    Incremental.Collected WireFrame WireError × Bytes :=
  chunks.foldl (Incremental.feed (frameVerdict maxPayload) Incremental.collect) ({}, [])

/-! ### Encoding -/

theorem encodeFrameHeader_iff {dst : Bytes} :
    encodeFrameHeader dst type payloadLen maxPayload = .ok out ↔
      wireFrameTypeIsKnown type = true ∧ payloadLen ≤ maxPayload ∧
        payloadLen ≤ uint32Max ∧ wireFrameHeaderSize ≤ dst.length ∧
        out = frameHeader type payloadLen ++ dst.drop wireFrameHeaderSize := by
  have hstores : payloadLen ≤ uint32Max → Layout.storeAll dst
      [(0, [wireMagic0]), (1, [wireMagic1]), (2, [wireVersion]), (3, [type]),
        (4, writeU32 (UInt32.ofNat payloadLen))] =
      frameHeader type payloadLen ++ dst.drop wireFrameHeaderSize := by
    intro hle
    have hlen : (UInt32.ofNat payloadLen).toNat = payloadLen := by
      simp only [uint32Max] at hle
      rw [UInt32.toNat_ofNat', Nat.mod_eq_of_lt (by omega)]
    rw [Layout.storeAll_eq (by simp [Layout.Contiguous])]
    simp [Layout.bytes, frameHeader, writeU32, hlen, wireFrameHeaderSize]
  simp only [encodeFrameHeader, ConfiguredLimits.ite_error_eq_ok, Bool.not_eq_true',
    Bool.not_eq_false, not_or, not_lt, Except.ok.injEq, and_assoc]
  constructor
  · rintro ⟨hknown, hmax, hlen, hroom, rfl⟩
    exact ⟨hknown, hmax, hlen, hroom, hstores hlen⟩
  · rintro ⟨hknown, hmax, hlen, hroom, rfl⟩
    exact ⟨hknown, hmax, hlen, hroom, hstores hlen⟩

/-- A payload that a frame of the type can carry. -/
structure Framed (maxPayload : Nat) (type : UInt8) (payload : Bytes) : Prop where
  known : wireFrameTypeIsKnown type = true
  max : payload.length ≤ maxPayload
  len : payload.length ≤ uint32Max

def frameBytes (type : UInt8) (payload : Bytes) : Bytes :=
  frameHeader type payload.length ++ payload

theorem length_frameBytes (type : UInt8) (payload : Bytes) :
    (frameBytes type payload).length = wireFrameHeaderSize + payload.length := by
  rw [frameBytes, List.length_append, length_frameHeader]

theorem encodeFrameInto_iff {dst : Bytes} :
    encodeFrameInto dst type payload maxPayload = .ok (out, written) ↔
      Framed maxPayload type payload ∧ written = (frameBytes type payload).length ∧
        written ≤ dst.length ∧ out = frameBytes type payload ++ dst.drop written := by
  have hheader := length_frameHeader type payload.length
  have hstore : Layout.store (frameHeader type payload.length ++
        dst.drop wireFrameHeaderSize) wireFrameHeaderSize payload =
      frameBytes type payload ++ dst.drop (wireFrameHeaderSize + payload.length) := by
    rw [Layout.store_cursor hheader]
    rfl
  rw [length_frameBytes]
  unfold encodeFrameInto
  cases hencode : encodeFrameHeader dst type payload.length maxPayload with
  | error result =>
      simp only [ConfiguredLimits.ite_error_eq_ok, reduceCtorEq, and_false, false_iff]
      rintro ⟨hframed, rfl, hroom, rfl⟩
      have hok := encodeFrameHeader_iff.mpr ⟨hframed.known, hframed.max, hframed.len,
        (show wireFrameHeaderSize ≤ dst.length by omega), rfl⟩
      rw [hencode] at hok
      cases hok
  | ok buffer =>
      obtain ⟨hknown, hmax, hlen, hroom, rfl⟩ := encodeFrameHeader_iff.mp hencode
      simp only [ConfiguredLimits.ite_error_eq_ok, not_or, not_lt, Except.ok.injEq,
        Prod.mk.injEq, hstore]
      constructor
      · rintro ⟨⟨_, hfits⟩, rfl, rfl⟩
        exact ⟨⟨hknown, hmax, hlen⟩, rfl, hfits, rfl⟩
      · rintro ⟨_, rfl, hfits, rfl⟩
        refine ⟨⟨?_, hfits⟩, rfl, rfl⟩
        simp only [uint32Max] at hlen
        simp only [sizeMax, wireFrameHeaderSize]
        omega

/-! ### Decoding -/

theorem decodeFrame_frameBytes (hframed : Framed maxPayload type payload) (rest : Bytes) :
    decodeFrame (frameBytes type payload ++ rest) maxPayload =
      .ok { type, payload, consumed := (frameBytes type payload).length } := by
  have hshort : ¬ (payload ++ rest).length < payload.length := by
    rw [List.length_append]
    omega
  rw [length_frameBytes, frameBytes, List.append_assoc,
    decodeFrame_header hframed.known hframed.max hframed.len, if_neg hshort,
    List.take_left]

/-- What is accepted is the encoding of the frame, and what is behind it. -/
theorem decodeFrame_ok (hdecode : decodeFrame src maxPayload = .ok frame) :
    Framed maxPayload frame.type frame.payload ∧
      frame.consumed = (frameBytes frame.type frame.payload).length ∧
      ∃ rest, src = frameBytes frame.type frame.payload ++ rest := by
  rw [length_frameBytes]
  unfold decodeFrame at hdecode
  split at hdecode
  · next magic0 magic1 version type l0 l1 l2 l3 rest =>
      simp only [ConfiguredLimits.ite_error_eq_ok, not_or, ne_eq, not_not, not_lt,
        Bool.not_eq_true', Bool.not_eq_false, Except.ok.injEq] at hdecode
      obtain ⟨⟨rfl, rfl⟩, rfl, hknown, ⟨hmax, _⟩, hbody, rfl⟩ := hdecode
      have hlt := BigEndian.ofBytes_lt [l0, l1, l2, l3]
      have hback := BigEndian.toBytes_ofBytes [l0, l1, l2, l3]
      have htake : (rest.take (BigEndian.ofBytes [l0, l1, l2, l3])).length =
          BigEndian.ofBytes [l0, l1, l2, l3] := by
        rw [List.length_take]
        omega
      simp only [List.length_cons, List.length_nil, Nat.zero_add, Nat.reduceAdd,
        Nat.reducePow] at hlt hback
      refine ⟨⟨hknown, by rw [htake]; exact hmax, ?_⟩, by rw [htake], rest.drop
        (BigEndian.ofBytes [l0, l1, l2, l3]), ?_⟩
      · rw [htake, uint32Max]
        omega
      · rw [frameBytes, htake, frameHeader, hback]
        simp [List.take_append_drop]
  · cases hdecode

theorem decodeFrame_error_append (hdecode : decodeFrame src maxPayload = .error result)
    (hresult : result ≠ .needMore) (more : Bytes) :
    decodeFrame (src ++ more) maxPayload = .error result := by
  match src with
  | magic0 :: magic1 :: version :: type :: l0 :: l1 :: l2 :: l3 :: rest =>
      simp only [decodeFrame, List.cons_append] at hdecode ⊢
      split at hdecode
      · next hmagic => rw [if_pos hmagic, hdecode]
      · next hmagic =>
          rw [if_neg hmagic]
          split at hdecode
          · next hversion => rw [if_pos hversion, hdecode]
          · next hversion =>
              rw [if_neg hversion]
              split at hdecode
              · next hknown => rw [if_pos hknown, hdecode]
              · next hknown =>
                  rw [if_neg hknown]
                  split at hdecode
                  · next hlarge => rw [if_pos hlarge, hdecode]
                  · split at hdecode
                    · cases hdecode
                      exact absurd rfl hresult
                    · cases hdecode
  | [] | [_] | [_, _] | [_, _, _] | [_, _, _, _] | [_, _, _, _, _] | [_, _, _, _, _, _]
  | [_, _, _, _, _, _, _] =>
      cases hdecode
      exact absurd rfl hresult

theorem frameVerdict_decoded :
    frameVerdict maxPayload src = .decoded frame consumed ↔
      decodeFrame src maxPayload = .ok frame ∧ frame.consumed = consumed := by
  unfold frameVerdict
  split <;> simp_all

theorem frameVerdict_failed :
    frameVerdict maxPayload src = .failed result ↔
      decodeFrame src maxPayload = .error result ∧ result ≠ .needMore := by
  unfold frameVerdict
  split
  · next hdecode =>
      simp only [hdecode, reduceCtorEq, Except.error.injEq, ne_eq, false_iff, not_and,
        not_not]
      exact Eq.symm
  · next other hmore hdecode =>
      simp only [hdecode, Incremental.Verdict.failed.injEq, Except.error.injEq]
      constructor
      · rintro rfl
        exact ⟨rfl, hmore⟩
      · exact And.left
  · next hdecode => simp [hdecode]

theorem lawful_frameVerdict (maxPayload : Nat) :
    Incremental.Lawful (frameVerdict maxPayload) where
  nil := rfl
  consumed := by
    intro src frame consumed hverdict
    obtain ⟨hdecode, rfl⟩ := frameVerdict_decoded.mp hverdict
    obtain ⟨_, hconsumed, rest, hsrc⟩ := decodeFrame_ok hdecode
    rw [hconsumed]
    constructor
    · rw [length_frameBytes]
      exact Nat.lt_of_lt_of_le (by decide) (Nat.le_add_right _ _)
    · rw [hsrc, List.length_append]
      exact Nat.le_add_right _ _
  decoded_append := by
    intro src frame consumed hverdict more
    obtain ⟨hdecode, rfl⟩ := frameVerdict_decoded.mp hverdict
    obtain ⟨hframed, hconsumed, rest, hsrc⟩ := decodeFrame_ok hdecode
    apply frameVerdict_decoded.mpr
    refine ⟨?_, rfl⟩
    rw [hsrc, List.append_assoc, decodeFrame_frameBytes hframed, ← hconsumed]
  failed_append := by
    intro src result hverdict more
    obtain ⟨hdecode, hresult⟩ := frameVerdict_failed.mp hverdict
    exact frameVerdict_failed.mpr ⟨decodeFrame_error_append hdecode hresult more, hresult⟩

/-! ### The stream of frames -/

/-- A frame to be sent and the bytes an encoder left for it. -/
structure EncodedFrame (maxPayload : Nat) where
  type : UInt8
  payload : Bytes
  bytes : Bytes
  encoded : ∃ dst out written,
    encodeFrameInto dst type payload maxPayload = .ok (out, written) ∧
      bytes = out.take written

theorem EncodedFrame.framed (item : EncodedFrame maxPayload) :
    Framed maxPayload item.type item.payload ∧
      item.bytes = frameBytes item.type item.payload := by
  obtain ⟨dst, out, written, hencode, hbytes⟩ := item.encoded
  obtain ⟨hframed, rfl, _, rfl⟩ := encodeFrameInto_iff.mp hencode
  exact ⟨hframed, by rw [hbytes, List.take_left]⟩

def EncodedFrame.frame (item : EncodedFrame maxPayload) : WireFrame where
  type := item.type
  payload := item.payload
  consumed := item.bytes.length

/-- Chunks do not matter, frames are read back as they were written, and the loop ends
where the next frame is incomplete or malformed. -/
theorem frames_lossless (maxPayload : Nat) :
    (∀ chunks : List Bytes,
      decodeChunks maxPayload chunks = decodeFrames maxPayload chunks.flatten) ∧
    (∀ items : List (EncodedFrame maxPayload),
      decodeFrames maxPayload (items.flatMap (·.bytes)) =
        ({ values := items.map (·.frame), error := none }, [])) ∧
    (∀ src frame, decodeFrame src maxPayload = .ok frame →
      wireFrameHeaderSize ≤ frame.consumed ∧ frame.consumed ≤ src.length ∧
        ∀ dst : Bytes, frame.consumed ≤ dst.length → ∃ out,
          encodeFrameInto dst frame.type frame.payload maxPayload =
              .ok (out, frame.consumed) ∧
            out.take frame.consumed = src.take frame.consumed) ∧
    (∀ src fuel, src.length ≤ fuel →
      Incremental.drive (frameVerdict maxPayload) Incremental.collect fuel {} src =
          decodeFrames maxPayload src ∧
        match (decodeFrames maxPayload src).1.error with
        | none => decodeFrame (decodeFrames maxPayload src).2 maxPayload = .error .needMore
        | some result =>
            result ≠ .needMore ∧
              decodeFrame (decodeFrames maxPayload src).2 maxPayload = .error result) := by
  have hlawful := lawful_frameVerdict maxPayload
  refine ⟨fun chunks => ?_, fun items => ?_, fun src frame hdecode => ?_,
    fun src fuel hfuel => ?_⟩
  · exact Incremental.feed_chunks hlawful Incremental.absorbing_collect _ chunks
  · have hitems : ∀ item ∈ items, frameVerdict maxPayload item.bytes =
        .decoded item.frame item.bytes.length := by
      intro item _
      obtain ⟨hframed, hbytes⟩ := item.framed
      apply frameVerdict_decoded.mpr
      refine ⟨?_, rfl⟩
      have hdecode := decodeFrame_frameBytes hframed []
      rw [List.append_nil, ← hbytes] at hdecode
      exact hdecode
    exact Incremental.drain_collect_flatMap hlawful hitems _
  · obtain ⟨hframed, hconsumed, rest, hsrc⟩ := decodeFrame_ok hdecode
    refine ⟨?_, ?_, fun dst hroom => ?_⟩
    · rw [hconsumed, length_frameBytes]
      exact Nat.le_add_right _ _
    · rw [hconsumed, hsrc, List.length_append]
      exact Nat.le_add_right _ _
    · refine ⟨_, encodeFrameInto_iff.mpr ⟨hframed, hconsumed, hroom, rfl⟩, ?_⟩
      rw [hconsumed, List.take_left, hsrc, List.take_left]
  · refine ⟨Incremental.drive_fuel hlawful hfuel _, ?_⟩
    rcases Incremental.drain_collect_ends hlawful
      ({} : Incremental.Collected WireFrame WireError) src with hends | hends
    · obtain ⟨hverdict, herror⟩ := hends
      simp only [decodeFrames, herror]
      unfold frameVerdict at hverdict
      split at hverdict
      · assumption
      · cases hverdict
      · cases hverdict
    · obtain ⟨result, hverdict, herror⟩ := hends
      obtain ⟨hdecode, hresult⟩ := frameVerdict_failed.mp hverdict
      simp only [decodeFrames, herror]
      exact ⟨hresult, hdecode⟩

end Qlinq
