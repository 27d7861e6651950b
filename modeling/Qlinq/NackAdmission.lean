import Qlinq.Descriptors
import Qlinq.RepairLimiter
import Qlinq.StreamAccounting

namespace Qlinq

/-! A repair request is admitted whole or not at all. -/

namespace RepairLimiter

variable {rate : UInt64} {limiter refilled : RepairLimiter} {nowMs : Int64}

/-- A refill takes no tokens and stays inside the capacity. -/
theorem refill_bounds (hle : limiter.tokensMilli ≤ capacity rate)
    (hrefill : limiter.refill rate nowMs = some refilled) :
    limiter.tokensMilli ≤ refilled.tokensMilli ∧ refilled.tokensMilli ≤ capacity rate := by
  unfold refill at hrefill
  obtain ⟨-, hrefill⟩ := Option.ite_none_left_eq_some.mp hrefill
  extract_lets full more at hrefill
  split at hrefill
  · obtain rfl := Option.some.inj hrefill
    exact ⟨hle, UInt64.le_refl _⟩
  split at hrefill
  · obtain rfl := Option.some.inj hrefill
    simp only
    split
    · exact ⟨hle, UInt64.le_refl _⟩
    · next hroom =>
        have hshort := UInt64.lt_iff_toNat_lt.mp (UInt64.not_le.mp hroom)
        rw [UInt64.toNat_sub_of_le _ _ hle] at hshort
        have hfull := UInt64.le_iff_toNat_le.mp hle
        have hsum : (limiter.tokensMilli + more).toNat =
            limiter.tokensMilli.toNat + more.toNat := by
          rw [UInt64.toNat_add]
          refine Nat.mod_eq_of_lt ?_
          have := (capacity rate).toNat_lt
          omega
        rw [UInt64.le_iff_toNat_le, UInt64.le_iff_toNat_le, hsum]
        omega
  · obtain rfl := Option.some.inj hrefill
    exact ⟨UInt64.le_refl _, hle⟩

theorem waitMs_le (hle : limiter.tokensMilli ≤ capacity rate) (nowMs : Int64) :
    (limiter.waitMs rate nowMs).1.tokensMilli ≤ capacity rate := by
  unfold waitMs
  split
  · exact hle
  next refilled hrefill =>
  have hrefilled := (refill_bounds hle hrefill).2
  split
  · exact hrefilled
  · exact hrefilled

theorem take_le (hle : limiter.tokensMilli ≤ capacity rate) (nowMs : Int64) :
    (limiter.take rate nowMs).1.tokensMilli ≤ capacity rate := by
  unfold take
  split
  · exact hle
  next refilled hrefill =>
  have hrefilled := (refill_bounds hle hrefill).2
  split
  · exact hrefilled
  · next henough =>
      have hspent := UInt64.sub_le (UInt64.not_lt.mp henough)
      exact UInt64.le_trans hspent hrefilled

theorem rate_of_refill (hrefill : limiter.refill rate nowMs = some refilled) :
    ¬ (rate = 0 ∨ uint64Max / 1000 < rate) :=
  (Option.ite_none_left_eq_some.mp hrefill).1

/-- Where a wait says 0 there is a token. -/
theorem enough_of_waitMs (hwait : (limiter.waitMs rate nowMs).2 = 0) :
    ∃ refilled, limiter.refill rate nowMs = some refilled ∧
      (limiter.waitMs rate nowMs).1 = refilled ∧ 1000 ≤ refilled.tokensMilli := by
  unfold waitMs at hwait ⊢
  cases hrefill : limiter.refill rate nowMs with
  | none =>
      rw [hrefill] at hwait
      cases hwait
  | some refilled =>
      simp only [hrefill] at hwait ⊢
      by_cases henough : 1000 ≤ refilled.tokensMilli
      · exact ⟨refilled, rfl, by rw [if_pos henough], henough⟩
      · rw [if_neg henough] at hwait
        have hadmitted := rate_of_refill hrefill
        have hshort := UInt64.not_le.mp henough
        have hmissing := toNat_missing hadmitted hshort
        have hless := UInt64.lt_iff_toNat_lt.mp hshort
        have hquotient := congrArg UInt64.toNat hwait
        rw [UInt64.toNat_div, hmissing] at hquotient
        have hpos : rate.toNat ≠ 0 := fun hnat => hadmitted (Or.inl (UInt64.toNat_inj.mp hnat))
        have hsmall := (Nat.div_eq_zero_iff_lt (Nat.pos_of_ne_zero hpos)).mp hquotient
        have hthousand : (1000 : UInt64).toNat = 1000 := rfl
        omega

theorem refill_isSome (hadmitted : ¬ (rate = 0 ∨ uint64Max / 1000 < rate))
    (limiter : RepairLimiter) (nowMs : Int64) : ∃ refilled, limiter.refill rate nowMs = some refilled := by
  unfold refill
  rw [if_neg hadmitted]
  extract_lets
  split
  · exact ⟨_, rfl⟩
  split
  · exact ⟨_, rfl⟩
  · exact ⟨_, rfl⟩

/-- What a wait found at one time, a take at any other time finds. -/
theorem take_after_wait (hle : limiter.tokensMilli ≤ capacity rate)
    (hwait : (limiter.waitMs rate nowMs).2 = 0) (admittedMs : Int64) :
    ((limiter.waitMs rate nowMs).1.take rate admittedMs).2 = true := by
  obtain ⟨refilled, hrefill, hwaited, henough⟩ := enough_of_waitMs hwait
  obtain ⟨later, hlater⟩ := refill_isSome (rate_of_refill hrefill) refilled admittedMs
  have hkept := (refill_bounds (refill_bounds hle hrefill).2 hlater).1
  rw [hwaited, take, hlater]
  exact congrArg Prod.snd (if_neg (UInt64.not_lt.mpr (UInt64.le_trans henough hkept)))

end RepairLimiter

/-- A limiter that holds no more than `rate` requests. -/
structure NackLimiter (rate : UInt64) extends RepairLimiter where
  le_capacity : tokensMilli ≤ RepairLimiter.capacity rate

namespace NackLimiter

variable {rate : UInt64}

def waitMs (limiter : NackLimiter rate) (nowMs : Int64) : NackLimiter rate × UInt64 :=
  ({ toRepairLimiter := (limiter.toRepairLimiter.waitMs rate nowMs).1
     le_capacity := RepairLimiter.waitMs_le limiter.le_capacity nowMs },
    (limiter.toRepairLimiter.waitMs rate nowMs).2)

def take (limiter : NackLimiter rate) (nowMs : Int64) : NackLimiter rate × Bool :=
  ({ toRepairLimiter := (limiter.toRepairLimiter.take rate nowMs).1
     le_capacity := RepairLimiter.take_le limiter.le_capacity nowMs },
    (limiter.toRepairLimiter.take rate nowMs).2)

/-- From `before` to `after` there were calls in which exactly `taken` tokens were taken. -/
def Took (taken : Nat) (before after : NackLimiter rate) : Prop :=
  ∃ calls, after.toRepairLimiter = RepairLimiter.run rate before.toRepairLimiter calls ∧
    (RepairLimiter.takeTimes rate before.toRepairLimiter calls).length = taken

theorem took_none (limiter : NackLimiter rate) : Took 0 limiter limiter :=
  ⟨[], rfl, rfl⟩

theorem took_wait (limiter : NackLimiter rate) (nowMs : Int64) :
    Took 0 limiter (limiter.waitMs nowMs).1 :=
  ⟨[(.wait, nowMs)], rfl, rfl⟩

theorem took_take (limiter : NackLimiter rate) (hwait : (limiter.waitMs nowMs).2 = 0)
    (admittedMs : Int64) : Took 1 limiter ((limiter.waitMs nowMs).1.take admittedMs).1 := by
  refine ⟨[(.wait, nowMs), (.take, admittedMs)], rfl, ?_⟩
  have htaken := RepairLimiter.take_after_wait limiter.le_capacity hwait admittedMs
  simp only [RepairLimiter.takeTimes, RepairLimiter.step, htaken]
  rfl

end NackLimiter

/-- A stream with the frames its send buffer retains. -/
structure RetainedStream where
  isControl : Bool
  sendOpen : Bool := true
  frames : List Bytes := []
  offset : Nat := 0
  capacity : Nat := 0
  retainedFrameBytes : Nat := 0
  deriving DecidableEq, Repr

/-- The stream as its budget sees it. -/
def RetainedStream.egress (stream : RetainedStream) (closing : Bool) : EgressStream where
  isControl := stream.isControl
  isOpen := stream.sendOpen && !closing
  frames := stream.frames.map List.length
  offset := stream.offset
  capacity := stream.capacity
  retainedFrameBytes := stream.retainedFrameBytes

def ConfiguredLimits.nackRate (limits : ConfiguredLimits) : UInt64 :=
  UInt64.ofNat limits.maxRepairRequestsPerSecond

def ConfiguredLimits.aggregateNackRate (limits : ConfiguredLimits) : UInt64 :=
  UInt64.ofNat limits.maxAggregateNackRequestsPerSecond

/-- What a connection sends its repair requests with. -/
structure NackSender (limits : ConfiguredLimits) where
  conn : Conn
  stream : Option RetainedStream
  stats : EgressStats
  requestLimiter : NackLimiter limits.nackRate
  aggregateLimiter : NackLimiter limits.aggregateNackRate

structure NackRequest where
  trackAlias : UInt8
  groupId : UInt64
  objectId : UInt64
  missing : Option (Nat → UInt16)
  count : UInt16
  wholeObject : Bool

/-- The times of a call's three looks at the clock. -/
structure NackClock where
  requestMs : Int64
  aggregateMs : Int64
  admittedMs : Int64

/-- `transport_get_effective_repair_mode`, rateless or not; `indexedOnly` is a transport
configured for indexed repairs. -/
def Conn.repairsRateless (c : Conn) (indexedOnly : Bool) (track : TrackId) : Bool :=
  !indexedOnly && (trackProfile track).fecRateless && c.hasCapability capRatelessRepair

namespace NackRequest

/-- The shapes of a request that its mode has no form for. -/
def misshapen (request : NackRequest) (rateless : Bool) : Bool :=
  if rateless then !request.wholeObject && (request.count == 0 || request.missing.isSome)
  else !request.wholeObject && (request.count == 0 || request.missing.isNone)

def encode (request : NackRequest) (rateless : Bool) : Except WireError Bytes :=
  encodeNack (20 + if rateless then 0 else request.count.toNat * 2) request.trackAlias
    ((if request.wholeObject then wireNackWholeObject else 0) |||
      (if rateless then wireNackRateless else 0))
    request.groupId request.objectId request.missing request.count

end NackRequest

namespace NackSender

variable {limits : ConfiguredLimits}

/-- `transport_stream_can_accept`. -/
def canAccept (s : NackSender limits) (stream : RetainedStream) (frameLen : Nat)
    (preserves : Bool) : Bool :=
  Egress.canAccept limits
    { egressBytes := s.stats.egressBytes, vectorCapacity := s.stats.vectorCapacity }
    (stream.egress s.conn.closed.isSome) frameLen preserves

/-- `transport_stream_has_retained_frame`. -/
def hasRetainedFrame (s : NackSender limits) (stream : RetainedStream) (type : UInt8)
    (payload : Bytes) : Bool :=
  if !stream.sendOpen || s.conn.closed.isSome then
    false
  else
    match encodeFrame type payload wireMaxStreamPayload with
    | .error _ => false
    | .ok frame => stream.frames.contains frame

/-- `transport_stream_write_frame`.  Allocation is assumed to succeed. -/
def writeFrame (s : NackSender limits) (stream : RetainedStream) (type : UInt8)
    (payload : Bytes) : NackSender limits × Bool :=
  let applicationData := type == wireTrackObject || type == wireUnicast
  let frameLen := wireFrameHeaderSize + payload.length
  if wireMaxStreamPayload < payload.length then
    (s, false)
  else if !s.canAccept stream frameLen applicationData then
    (if applicationData then s
      else { s with
        conn := s.conn.quiclyClose .resourceLimit "reliable control queue exhausted" },
      false)
  else
    match encodeFrame type payload wireMaxStreamPayload with
    | .error _ => (s, false)
    | .ok frame =>
        let growth := (stream.egress s.conn.closed.isSome).vectorGrowth
        let bytes := retainedFrameSize + frameLen
        ({ s with
            stream := some
              { stream with
                frames := stream.frames ++ [frame]
                capacity := stream.capacity + growth
                retainedFrameBytes := stream.retainedFrameBytes + bytes }
            stats :=
              { egressBytes := s.stats.egressBytes + growth * sendbufVecSize + bytes
                egressFrames := s.stats.egressFrames + 1
                vectorCapacity := s.stats.vectorCapacity + growth } }, true)

/-- What admits a request that is not retained: room, then a token in each bucket. -/
def admitRequest (s : NackSender limits) (clock : NackClock) (stream : RetainedStream)
    (payload : Bytes) : NackSender limits × Bool :=
  if !s.canAccept stream (wireFrameHeaderSize + payload.length) true then
    (s, false)
  else
    let (requestLimiter, requestWait) := s.requestLimiter.waitMs clock.requestMs
    let s := { s with requestLimiter }
    if requestWait ≠ 0 then
      (s, false)
    else
      let (aggregateLimiter, aggregateWait) := s.aggregateLimiter.waitMs clock.aggregateMs
      let s := { s with aggregateLimiter }
      if aggregateWait ≠ 0 then
        (s, false)
      else
        match s.writeFrame stream wireNack payload with
        | (s, false) => (s, false)
        | (s, true) =>
            ({ s with
                requestLimiter := (s.requestLimiter.take clock.admittedMs).1
                aggregateLimiter := (s.aggregateLimiter.take clock.admittedMs).1 }, true)

/-- `transport_protocol_send_nack`.  Allocation is assumed to succeed. -/
def sendNack (s : NackSender limits) (indexedOnly : Bool) (clock : NackClock)
    (request : NackRequest) : NackSender limits × Bool :=
  match s.stream with
  | none => (s, false)
  | some stream =>
      if !stream.sendOpen then
        (s, false)
      else if wireMaxNackSymbols < request.count.toNat then
        (s, false)
      else
        match s.conn.receiveSubscriptions.findByAlias request.trackAlias with
        | none => (s, false)
        | some track =>
            let rateless := s.conn.repairsRateless indexedOnly track
            if request.misshapen rateless then
              (s, false)
            else
              match request.encode rateless with
              | .error _ => (s, false)
              | .ok payload =>
                  if s.hasRetainedFrame stream wireNack payload then
                    (s, true)
                  else
                    s.admitRequest clock stream payload

/-! ### The outcomes -/

/-- The frame of a request, in the repair mode of its track. -/
def requestFrame (s : NackSender limits) (indexedOnly : Bool) (request : NackRequest) :
    Option Bytes :=
  match s.conn.receiveSubscriptions.findByAlias request.trackAlias with
  | none => none
  | some track =>
      match request.encode (s.conn.repairsRateless indexedOnly track) with
      | .error _ => none
      | .ok payload => some (frameHeader wireNack payload.length ++ payload)

/-- One new frame and a token of each bucket; or the frame is retained and nothing
happens; or nothing is written and no token taken. -/
inductive Outcome (indexedOnly : Bool) (request : NackRequest) (before after : NackSender limits) :
    Bool → Prop
  | written {stream : RetainedStream} {frame : Bytes} (hstream : before.stream = some stream)
      (hframe : before.requestFrame indexedOnly request = some frame)
      (hnew : frame ∉ stream.frames)
      (hframes : after.stream.map RetainedStream.frames = some (stream.frames ++ [frame]))
      (hcount : after.stats.egressFrames = before.stats.egressFrames + 1)
      (hrequest : NackLimiter.Took 1 before.requestLimiter after.requestLimiter)
      (haggregate : NackLimiter.Took 1 before.aggregateLimiter after.aggregateLimiter)
      (hconn : after.conn = before.conn) : Outcome indexedOnly request before after true
  | coalesced {stream : RetainedStream} {frame : Bytes} (hstream : before.stream = some stream)
      (hframe : before.requestFrame indexedOnly request = some frame)
      (hretained : frame ∈ stream.frames) (hafter : after = before) :
      Outcome indexedOnly request before after true
  | refused (hstream : after.stream = before.stream) (hstats : after.stats = before.stats)
      (hrequest : NackLimiter.Took 0 before.requestLimiter after.requestLimiter)
      (haggregate : NackLimiter.Took 0 before.aggregateLimiter after.aggregateLimiter)
      (hconn : after.conn = before.conn) : Outcome indexedOnly request before after false

theorem refused_self (indexedOnly : Bool) (request : NackRequest) (s : NackSender limits) :
    Outcome indexedOnly request s s false :=
  .refused rfl rfl (NackLimiter.took_none _) (NackLimiter.took_none _) rfl

/-- Room that spares the reserve is room. -/
theorem canAccept_of_preserving {s : NackSender limits} {stream : RetainedStream}
    (haccept : s.canAccept stream frameLen true = true) :
    s.canAccept stream frameLen false = true := by
  rw [canAccept, Egress.canAccept_iff] at haccept ⊢
  obtain ⟨hopen, hlen, hframes, hbytes, htotal, hvectors⟩ := haccept
  have hstream : (stream.egress s.conn.closed.isSome).byteLimit limits true ≤
      (stream.egress s.conn.closed.isSome).byteLimit limits false :=
    Nat.sub_le_sub_left (by simp) _
  have hcount : (stream.egress s.conn.closed.isSome).frameLimit limits true ≤
      (stream.egress s.conn.closed.isSome).frameLimit limits false :=
    Nat.sub_le_sub_left (by simp) _
  have hendpoint : Egress.byteLimit limits true ≤ Egress.byteLimit limits false :=
    Nat.sub_le_sub_left (by simp) _
  have hcapacity : Egress.vectorLimit true ≤ Egress.vectorLimit false := by decide
  exact ⟨hopen, hlen, hframes.trans_le hcount, hbytes.trans hstream, htotal.trans hendpoint,
    hvectors.trans hcapacity⟩

theorem encodeFrame_nack (hlen : payload.length ≤ wireMaxStreamPayload) :
    encodeFrame wireNack payload wireMaxStreamPayload =
      .ok (frameHeader wireNack payload.length ++ payload) := by
  have hlimit : wireMaxStreamPayload ≤ uint32Max := by decide
  unfold encodeFrame
  rw [if_neg (by decide), if_neg (by omega)]

theorem mem_of_hasRetainedFrame {s : NackSender limits} {stream : RetainedStream}
    (hretained : s.hasRetainedFrame stream wireNack payload = true) :
    frameHeader wireNack payload.length ++ payload ∈ stream.frames := by
  unfold hasRetainedFrame at hretained
  split at hretained
  · cases hretained
  split at hretained
  · cases hretained
  next frame hencode =>
  by_cases hlen : payload.length ≤ wireMaxStreamPayload
  · rw [encodeFrame_nack hlen] at hencode
    cases hencode
    exact List.contains_iff_mem.mp hretained
  · have htooLarge : encodeFrame wireNack payload wireMaxStreamPayload = .error .tooLarge := by
      unfold encodeFrame
      rw [if_neg (by decide), if_pos (Or.inl (Nat.not_le.mp hlen))]
    rw [htooLarge] at hencode
    cases hencode

/-- The scan for a retained frame misses none where the stream has room. -/
theorem hasRetainedFrame_of_mem {s : NackSender limits} {stream : RetainedStream}
    (haccept : s.canAccept stream (wireFrameHeaderSize + payload.length) true = true)
    (hmem : frameHeader wireNack payload.length ++ payload ∈ stream.frames) :
    s.hasRetainedFrame stream wireNack payload = true := by
  rw [canAccept, Egress.canAccept_iff] at haccept
  obtain ⟨hopen, hlen, -⟩ := haccept
  have hsendOpen : (!stream.sendOpen || s.conn.closed.isSome) = false := by
    simpa [RetainedStream.egress] using hopen
  unfold hasRetainedFrame
  rw [hsendOpen, if_neg Bool.false_ne_true, encodeFrame_nack (by omega)]
  exact List.contains_iff_mem.mpr hmem

/-- Behind room for the frame the write is not refused. -/
theorem writeFrame_nack {s : NackSender limits} {stream : RetainedStream}
    (haccept : s.canAccept stream (wireFrameHeaderSize + payload.length) true = true) :
    ∃ after, s.writeFrame stream wireNack payload = (after, true) ∧
      after.stream.map RetainedStream.frames =
        some (stream.frames ++ [frameHeader wireNack payload.length ++ payload]) ∧
      after.stats.egressFrames = s.stats.egressFrames + 1 ∧ after.conn = s.conn ∧
      after.requestLimiter = s.requestLimiter ∧ after.aggregateLimiter = s.aggregateLimiter := by
  have hroom := canAccept_of_preserving haccept
  have hlen : payload.length ≤ wireMaxStreamPayload := by
    rw [canAccept, Egress.canAccept_iff] at haccept
    have := haccept.2.1
    omega
  have hkind : (wireNack == wireTrackObject || wireNack == wireUnicast) = false := by decide
  simp only [writeFrame, hkind, hroom, if_neg (Nat.not_lt.mpr hlen), encodeFrame_nack hlen]
  exact ⟨_, rfl, rfl, rfl, rfl, rfl, rfl⟩

theorem admitRequest_atomic (s : NackSender limits) (indexedOnly : Bool) (clock : NackClock)
    (request : NackRequest) {stream : RetainedStream} {payload : Bytes}
    (hstream : s.stream = some stream)
    (hframe : s.requestFrame indexedOnly request =
      some (frameHeader wireNack payload.length ++ payload))
    (hretained : s.hasRetainedFrame stream wireNack payload = false) :
    Outcome indexedOnly request s (s.admitRequest clock stream payload).1
      (s.admitRequest clock stream payload).2 := by
  unfold admitRequest
  split
  · exact refused_self indexedOnly request s
  next haccept =>
  rw [Bool.not_eq_true', Bool.not_eq_false] at haccept
  simp only
  by_cases hrequest : (s.requestLimiter.waitMs clock.requestMs).2 ≠ 0
  · rw [if_pos hrequest]
    exact .refused rfl rfl (NackLimiter.took_wait _ _) (NackLimiter.took_none _) rfl
  rw [if_neg hrequest]
  by_cases haggregate : (s.aggregateLimiter.waitMs clock.aggregateMs).2 ≠ 0
  · rw [if_pos haggregate]
    exact .refused rfl rfl (NackLimiter.took_wait _ _) (NackLimiter.took_wait _ _) rfl
  rw [if_neg haggregate]
  obtain ⟨after, hwrite, hframes, hcount, hconn, hrequests, haggregates⟩ := writeFrame_nack
    (s := { s with
      requestLimiter := (s.requestLimiter.waitMs clock.requestMs).1
      aggregateLimiter := (s.aggregateLimiter.waitMs clock.aggregateMs).1 }) haccept
  have hnew : frameHeader wireNack payload.length ++ payload ∉ stream.frames := fun hmem =>
    Bool.false_ne_true (hretained.symm.trans (hasRetainedFrame_of_mem haccept hmem))
  rw [hwrite]
  refine .written hstream hframe hnew hframes hcount ?_ ?_ hconn
  · simp only [hrequests]
    exact NackLimiter.took_take _ (not_not.mp hrequest) _
  · simp only [haggregates]
    exact NackLimiter.took_take _ (not_not.mp haggregate) _

/-- A repair request is written for one token of each bucket, or is retained already, or
leaves the stream, the tokens and the connection as they were. -/
theorem sendNack_atomic (s : NackSender limits) (indexedOnly : Bool) (clock : NackClock)
    (request : NackRequest) :
    Outcome indexedOnly request s (s.sendNack indexedOnly clock request).1
      (s.sendNack indexedOnly clock request).2 := by
  unfold sendNack
  split
  · exact refused_self indexedOnly request s
  next stream hstream =>
  split
  · exact refused_self indexedOnly request s
  split
  · exact refused_self indexedOnly request s
  split
  · exact refused_self indexedOnly request s
  next track htrack =>
  simp only
  split
  · exact refused_self indexedOnly request s
  split
  · exact refused_self indexedOnly request s
  next payload hpayload =>
  have hframe : s.requestFrame indexedOnly request =
      some (frameHeader wireNack payload.length ++ payload) := by
    simp only [requestFrame, htrack, hpayload]
  split
  · next hretained =>
      exact .coalesced hstream hframe (mem_of_hasRetainedFrame hretained) rfl
  · next hretained =>
      exact admitRequest_atomic s indexedOnly clock request hstream hframe (Bool.not_eq_true _ ▸ hretained)

theorem length_frame (type : UInt8) (payload : Bytes) :
    (frameHeader type payload.length ++ payload).length = wireFrameHeaderSize + payload.length := by
  simp only [frameHeader, List.length_append, List.length_cons, BigEndian.length_toBytes,
    wireFrameHeaderSize]

/-- A frame that is written is charged as the store of the endpoint's streams charges it. -/
theorem writeFrame_store {s after : NackSender limits} {stream : RetainedStream}
    {store : StreamStore} (hstream : store.streams[index]? =
      some (stream.egress s.conn.closed.isSome)) (hstats : store.stats = s.stats)
    (hwrite : s.writeFrame stream wireNack payload = (after, true)) :
    ∃ written, after.stream = some written ∧
      store.writeParts limits index false (wireFrameHeaderSize + payload.length) =
        ({ streams := store.streams.set index (written.egress s.conn.closed.isSome)
           stats := after.stats }, .written) := by
  have hkind : (wireNack == wireTrackObject || wireNack == wireUnicast) = false := by decide
  simp only [writeFrame, hkind] at hwrite
  split at hwrite
  · cases hwrite
  split at hwrite
  · cases hwrite
  next haccept =>
  split at hwrite
  · cases hwrite
  next frame hencode =>
  cases hwrite
  have hroom : store.egress.canAccept limits (stream.egress s.conn.closed.isSome)
      (wireFrameHeaderSize + payload.length) false = true := by
    rw [Bool.not_eq_true', Bool.not_eq_false] at haccept
    rw [StreamStore.egress, hstats]
    exact haccept
  have hlen : frame.length = wireFrameHeaderSize + payload.length := by
    unfold encodeFrame at hencode
    split at hencode
    · cases hencode
    split at hencode
    · cases hencode
    · cases hencode
      exact length_frame wireNack payload
  refine ⟨_, rfl, ?_⟩
  simp only [StreamStore.writeParts, hstream, hroom, hstats, Bool.not_true, Bool.false_eq_true,
    if_false]
  simp [RetainedStream.egress, hlen]

end NackSender

end Qlinq
