import Qlinq.Lib.Keyed
import Qlinq.Datagram
import Qlinq.StreamBudget

namespace Qlinq

open Keyed

/-! Reliable publication: every recipient is checked before a frame is written, against
budgets that the writes check again. -/

namespace EgressStream

def append (s : EgressStream) (frameLen : Nat) : EgressStream :=
  { s with
    frames := s.frames ++ [frameLen]
    capacity := s.capacity + s.vectorGrowth
    retainedFrameBytes := s.retainedFrameBytes + (retainedFrameSize + frameLen) }

end EgressStream

namespace Egress

/-- Charge the endpoint for a frame of the stream. -/
def charge (e : Egress) (s : EgressStream) (frameLen : Nat) : Egress :=
  { e with
    egressBytes := e.egressBytes + s.frameCost frameLen
    vectorCapacity := e.vectorCapacity + s.vectorGrowth }

/-- `transport_stream_write_parts` of an application frame on a stream that its connection
holds.  Allocation is assumed to succeed. -/
def writeParts (limits : ConfiguredLimits) (e : Egress) (stream : Option EgressStream)
    (prefixLen payloadLen : Nat) : Option (Egress × EgressStream) :=
  match stream with
  | none => none
  | some s =>
      let frameLen := wireFrameHeaderSize + (prefixLen + payloadLen)
      if wireMaxStreamPayload < prefixLen + payloadLen then
        none
      else if !e.canAccept limits s frameLen true then
        none
      else
        some (e.charge s frameLen, s.append frameLen)

/-- `transport_stream_write_object_frame`. -/
def writeObjectFrame (limits : ConfiguredLimits) (e : Egress) (stream : Option EgressStream)
    (size : Nat) : Option (Egress × EgressStream) :=
  if maxReliableObjectSize < size then
    none
  else
    e.writeParts limits stream trackObjectHeaderSize size

end Egress

/-- A subscription of a peer with the stream that its track's objects are written to. -/
structure StreamSubscription where
  trackId : TrackId
  stream : Option EgressStream := none
  deriving DecidableEq, Repr

def StreamSubscription.key (entry : StreamSubscription) : TrackType × Bytes :=
  entry.trackId.key

/-- A connection with its streams; `opensStream` says whether QUIC can open one more. -/
structure ReliablePeer where
  id : Nat
  hasQuic : Bool := true
  protocolReady : Bool := true
  authenticated : Bool := true
  closing : Bool := false
  maxReliableObjectSize : Nat
  opensStream : Bool := true
  control : Option EgressStream := none
  subscriptions : List StreamSubscription := []
  deriving DecidableEq, Repr

namespace ReliablePeer

def find (peer : ReliablePeer) (track : TrackId) : Option StreamSubscription :=
  lookup StreamSubscription.key track.key peer.subscriptions

/-- `transport_publish_recipient_eligible`. -/
def eligible (isServer : Bool) (peer : ReliablePeer) (track : TrackId) : Bool :=
  peer.hasQuic && peer.protocolReady && peer.authenticated && !peer.closing &&
    (!isServer || (peer.find track).isSome)

def setTrackStream (peer : ReliablePeer) (track : TrackId) (stream : Option EgressStream) :
    ReliablePeer :=
  { peer with
    subscriptions :=
      adjust StreamSubscription.key track.key (fun entry => { entry with stream := stream })
        peer.subscriptions }

/-- Open the track's stream unless one is sending. -/
def openTrackStream (peer : ReliablePeer) (track : TrackId) : ReliablePeer × Bool :=
  match peer.find track with
  | none => (peer, true)
  | some entry =>
      if entry.stream.any (·.isOpen) then
        (peer, true)
      else if peer.opensStream then
        (peer.setTrackStream track (some { isControl := false }), true)
      else
        (peer.setTrackStream track none, false)

/-- The stream an object goes to, and the length of its frame. -/
def target (peer : ReliablePeer) (object : MoqObject) : Option EgressStream × Nat :=
  match peer.find object.trackId with
  | some entry => (entry.stream, wireFrameHeaderSize + object.size + trackObjectHeaderSize)
  | none => (peer.control, wireFrameHeaderSize + object.size)

/-- `transport_send_unicast`. -/
def sendUnicast (limits : ConfiguredLimits) (e : Egress) (peer : ReliablePeer) (size : Nat) :
    Option (Egress × EgressStream) :=
  if limits.maxReliableObjectSize < size ∨ !peer.protocolReady ∨
      !peer.control.any (·.isOpen) then
    none
  else
    e.writeParts limits peer.control 0 size

def writeObject (limits : ConfiguredLimits) (e : Egress) (peer : ReliablePeer)
    (object : MoqObject) : Option (Egress × ReliablePeer) :=
  match peer.find object.trackId with
  | some entry =>
      match e.writeObjectFrame limits entry.stream object.size with
      | none => none
      | some (e, s) => some (e, peer.setTrackStream object.trackId (some s))
  | none =>
      match peer.sendUnicast limits e object.size with
      | none => none
      | some (e, s) => some (e, { peer with control := some s })

end ReliablePeer

/-- An endpoint with its peers.  `counters` are its budgets; their `streams` are those that
no peer writes objects to.  `sent` logs every object frame with the peer it was written
to. -/
structure Broadcast where
  isServer : Bool
  limits : ConfiguredLimits
  resolved : limits.Resolved
  peers : List ReliablePeer
  counters : Egress := {}
  sent : List (Nat × MoqObject) := []

namespace Broadcast

/-- Check every recipient before a frame is written.  The peers come back with the streams
opened on the way, and with the number of recipients unless a check fails. -/
def preflight (b : Broadcast) (object : MoqObject) :
    List ReliablePeer → (eligible reservedBytes reservedVectors : Nat) →
      List ReliablePeer × Except PublishResult Nat
  | [], eligible, _, _ => ([], .ok eligible)
  | peer :: rest, eligible, reservedBytes, reservedVectors =>
      if !peer.eligible b.isServer object.trackId then
        let (checked, outcome) := b.preflight object rest eligible reservedBytes reservedVectors
        (peer :: checked, outcome)
      else if peer.maxReliableObjectSize < object.size then
        (peer :: rest, .error .invalid)
      else
        match peer.openTrackStream object.trackId with
        | (opened, false) => (opened :: rest, .error .error)
        | (opened, true) =>
            match opened.target object with
            | (none, _) => (opened :: rest, .error .backpressure)
            | (some s, frameLen) =>
                match b.counters.canAcceptReserved b.limits s frameLen true reservedBytes
                    reservedVectors with
                | none => (opened :: rest, .error .backpressure)
                | some (reservedBytes, reservedVectors) =>
                    let (checked, outcome) :=
                      b.preflight object rest (eligible + 1) reservedBytes reservedVectors
                    (opened :: checked, outcome)

/-- Write the frames until a write fails; `delivered` counts those written. -/
def write (b : Broadcast) (object : MoqObject) :
    (counters : Egress) → List ReliablePeer → (delivered : Nat) →
      Egress × List ReliablePeer × List (Nat × MoqObject) × Option PublishResult
  | counters, [], _ => (counters, [], [], none)
  | counters, peer :: rest, delivered =>
      if !peer.eligible b.isServer object.trackId then
        let (counters, written, sent, failure) := b.write object counters rest delivered
        (counters, peer :: written, sent, failure)
      else
        match peer.writeObject b.limits counters object with
        | none =>
            (counters, peer :: rest, [],
              some (if delivered = 0 then .error else .partialDelivery))
        | some (counters, writtenPeer) =>
            let (counters, written, sent, failure) :=
              b.write object counters rest (delivered + 1)
            (counters, writtenPeer :: written, (peer.id, object) :: sent, failure)

/-- The reliable path of `transport_publish_impl`. -/
def publishReliable (b : Broadcast) (object : MoqObject) : Broadcast × PublishResult :=
  if b.limits.maxReliableObjectSize < object.size then
    (b, .invalid)
  else
    match b.preflight object b.peers 0 0 0 with
    | (checked, .error failure) => ({ b with peers := checked }, failure)
    | (checked, .ok eligible) =>
        let (counters, peers, sent, failure) := b.write object b.counters checked 0
        let written := { b with counters := counters, peers := peers, sent := b.sent ++ sent }
        match failure with
        | some failure => (written, failure)
        | none => (written, if eligible = 0 then .noRecipients else .delivered)

end Broadcast

/-! ### What a check predicts -/

namespace Egress

variable {limits : ConfiguredLimits} {e counters : Egress} {s : EgressStream}

/-- A frame that fits beside a reservation fits once the reservation is charged. -/
theorem canAccept_of_reserved
    (haccept : e.canAcceptReserved limits s frameLen preserves reservedBytes reservedVectors =
      some reserved)
    (hbytes : counters.egressBytes = e.egressBytes + reservedBytes)
    (hvectors : counters.vectorCapacity = e.vectorCapacity + reservedVectors) :
    counters.canAccept limits s frameLen preserves = true ∧
      reserved = (reservedBytes + s.frameCost frameLen, reservedVectors + s.vectorGrowth) := by
  simp only [canAcceptReserved] at haccept
  split at haccept
  · cases haccept
  next hroom =>
  refine ⟨(canAccept_iff frameLen preserves).mpr ?_, (Option.some.inj haccept).symm⟩
  simp only [not_or, Bool.not_eq_true', Bool.not_eq_false, Nat.not_lt, Nat.not_le] at hroom
  rw [hbytes, hvectors]
  obtain ⟨hopen, hlen, hframes, hstream, hstream', htotal, htotal', htotal'', hvectors,
    hvectors', hvectors''⟩ := hroom
  exact ⟨hopen, hlen, hframes, by omega, by omega, by omega⟩

theorem writeParts_of_accepted (haccept : e.canAccept limits s frameLen true = true)
    (hlen : frameLen = wireFrameHeaderSize + (prefixLen + payloadLen)) :
    e.writeParts limits (some s) prefixLen payloadLen =
      some (e.charge s frameLen, s.append frameLen) := by
  subst hlen
  obtain ⟨-, hlen, -⟩ := (canAccept_iff _ _).mp haccept
  simp only [writeParts]
  rw [if_neg (by omega), haccept, Bool.not_true, if_neg Bool.false_ne_true]

end Egress

namespace ReliablePeer

variable {peer : ReliablePeer} {limits : ConfiguredLimits} {counters : Egress}

theorem find_setTrackStream (peer : ReliablePeer) (track : TrackId)
    (stream : Option EgressStream) :
    (peer.setTrackStream track stream).find track =
      (peer.find track).map fun entry => { entry with stream := stream } := by
  have hlookup : (peer.setTrackStream track stream).find track =
      if track.key = track.key then
        (peer.find track).map fun entry => { entry with stream := stream }
      else
        peer.find track :=
    have hkeeps : ∀ entry : StreamSubscription, entry.key = track.key →
        StreamSubscription.key { entry with stream := stream } = track.key := fun _ hkey => hkey
    lookup_adjust hkeeps track.key peer.subscriptions
  rw [if_pos rfl] at hlookup
  exact hlookup

/-- Either the streams stay, or that of the track is replaced by a fresh one or by none. -/
theorem openTrackStream_cases (peer : ReliablePeer) (track : TrackId) :
    (peer.openTrackStream track).1 = peer ∨
      ∃ stream : Option EgressStream, (∀ s ∈ stream, s = { isControl := false }) ∧
        (peer.openTrackStream track).1 = peer.setTrackStream track stream := by
  unfold openTrackStream
  split
  · exact .inl rfl
  split
  · exact .inl rfl
  split
  · exact .inr ⟨_, fun s hs => (Option.some.inj hs).symm, rfl⟩
  · exact .inr ⟨none, nofun, rfl⟩

theorem eligible_openTrackStream (isServer : Bool) (peer : ReliablePeer) (track : TrackId) :
    (peer.openTrackStream track).1.eligible isServer track = peer.eligible isServer track ∧
      (peer.openTrackStream track).1.id = peer.id := by
  rcases openTrackStream_cases peer track with hsame | ⟨stream, -, hset⟩
  · rw [hsame]
    exact ⟨rfl, rfl⟩
  · rw [hset]
    refine ⟨?_, rfl⟩
    simp only [eligible, find_setTrackStream, Option.isSome_map]
    rfl

/-- No frame was written: at most streams were opened. -/
structure Unwritten (peer peer' : ReliablePeer) : Prop where
  id : peer'.id = peer.id
  control : peer'.control = peer.control
  subscriptions : List.Forall₂ (fun entry entry' => entry'.trackId = entry.trackId ∧
    (entry'.stream = entry.stream ∨ ∀ s ∈ entry'.stream, s = { isControl := false }))
    peer.subscriptions peer'.subscriptions

theorem Unwritten.refl (peer : ReliablePeer) : Unwritten peer peer where
  id := rfl
  control := rfl
  subscriptions := List.forall₂_same.mpr fun _ _ => ⟨rfl, .inl rfl⟩

theorem unwritten_openTrackStream (peer : ReliablePeer) (track : TrackId) :
    Unwritten peer (peer.openTrackStream track).1 := by
  rcases openTrackStream_cases peer track with hsame | ⟨stream, hfresh, hset⟩
  · rw [hsame]
    exact .refl peer
  · rw [hset]
    refine ⟨rfl, rfl, List.forall₂_map_right_iff.mpr (List.forall₂_same.mpr fun entry _ => ?_)⟩
    split
    · exact ⟨rfl, .inr hfresh⟩
    · exact ⟨rfl, .inl rfl⟩

theorem writeObject_of_accepted (hresolved : limits.Resolved)
    (hsize : object.size ≤ limits.maxReliableObjectSize) (hready : peer.protocolReady = true)
    (htarget : peer.target object = (some s, frameLen))
    (haccept : counters.canAccept limits s frameLen true = true) :
    ∃ written, peer.writeObject limits counters object =
      some (counters.charge s frameLen, written) := by
  unfold target at htarget
  unfold writeObject
  cases hfind : peer.find object.trackId with
  | some entry =>
      simp only [hfind, Prod.mk.injEq] at htarget ⊢
      obtain ⟨hstream, hlen⟩ := htarget
      have hfits := hresolved.reliable_le
      rw [hstream, Egress.writeObjectFrame, if_neg (by omega),
        Egress.writeParts_of_accepted haccept (by omega)]
      exact ⟨_, rfl⟩
  | none =>
      simp only [hfind, Prod.mk.injEq] at htarget ⊢
      obtain ⟨hstream, hlen⟩ := htarget
      obtain ⟨hopen, -⟩ := (Egress.canAccept_iff _ _).mp haccept
      have hpasses : ¬ (limits.maxReliableObjectSize < object.size ∨
          (!peer.protocolReady) = true ∨ (!(peer.control.any (·.isOpen))) = true) := by
        rw [hready, hstream, Option.any_some, hopen]
        simp only [Bool.not_true, Bool.false_eq_true, or_false]
        omega
      rw [sendUnicast, if_neg hpasses, hstream,
        Egress.writeParts_of_accepted haccept (by omega)]
      exact ⟨_, rfl⟩

end ReliablePeer

/-! ### A whole broadcast -/

namespace Broadcast

variable {b : Broadcast} {object : MoqObject} {failure : PublishResult}

/-- The eligible peers, each with the object. -/
def deliveriesTo (b : Broadcast) (object : MoqObject) (peers : List ReliablePeer) :
    List (Nat × MoqObject) :=
  (peers.filter (·.eligible b.isServer object.trackId)).map fun peer => (peer.id, object)

theorem unwritten_preflight (b : Broadcast) (object : MoqObject) (peers : List ReliablePeer)
    (eligible reservedBytes reservedVectors : Nat) :
    List.Forall₂ ReliablePeer.Unwritten peers
      (b.preflight object peers eligible reservedBytes reservedVectors).1 := by
  induction peers generalizing eligible reservedBytes reservedVectors with
  | nil => exact .nil
  | cons peer rest ih =>
      have hrest : List.Forall₂ ReliablePeer.Unwritten rest rest :=
        List.forall₂_same.mpr fun peer _ => .refl peer
      have hopened := peer.unwritten_openTrackStream object.trackId
      unfold preflight
      split
      · exact .cons (.refl peer) (ih _ _ _)
      split
      · exact .cons (.refl peer) hrest
      split
      · next opened heq => exact .cons (by rw [heq] at hopened; exact hopened) hrest
      · next opened heq =>
        rw [heq] at hopened
        split
        · exact .cons hopened hrest
        · split
          · exact .cons hopened hrest
          · exact .cons hopened (ih _ _ _)

/-- Once every recipient is checked, every write succeeds. -/
theorem write_of_preflight (hsize : object.size ≤ b.limits.maxReliableObjectSize)
    {peers : List ReliablePeer} {eligible reservedBytes reservedVectors total : Nat}
    (hpassed : (b.preflight object peers eligible reservedBytes reservedVectors).2 = .ok total)
    {counters : Egress} (hbytes : counters.egressBytes = b.counters.egressBytes + reservedBytes)
    (hvectors : counters.vectorCapacity = b.counters.vectorCapacity + reservedVectors)
    (delivered : Nat) :
    let result := b.write object counters
      (b.preflight object peers eligible reservedBytes reservedVectors).1 delivered
    result.2.2.1 = b.deliveriesTo object peers ∧ result.2.2.2 = none ∧
      total = eligible + (b.deliveriesTo object peers).length := by
  induction peers generalizing eligible reservedBytes reservedVectors counters delivered with
  | nil =>
      obtain rfl := Except.ok.inj hpassed
      exact ⟨rfl, rfl, rfl⟩
  | cons peer rest ih =>
      cases heligible : peer.eligible b.isServer object.trackId with
      | false =>
          have hskipped : b.deliveriesTo object (peer :: rest) = b.deliveriesTo object rest := by
            rw [deliveriesTo, List.filter_cons_of_neg (by rw [heligible]; decide), deliveriesTo]
          simp only [preflight, heligible, Bool.not_false, if_true] at hpassed ⊢
          simp only [write, heligible, Bool.not_false, if_true, hskipped]
          exact ih hpassed hbytes hvectors delivered
      | true =>
          have hserved : b.deliveriesTo object (peer :: rest) =
              (peer.id, object) :: b.deliveriesTo object rest := by
            rw [deliveriesTo, List.filter_cons, if_pos heligible, List.map_cons, deliveriesTo]
          obtain ⟨hstill, hid⟩ := peer.eligible_openTrackStream b.isServer object.trackId
          rw [heligible] at hstill
          simp only [preflight, heligible, Bool.not_true, Bool.false_eq_true, if_false] at hpassed ⊢
          split at hpassed
          · cases hpassed
          next hfits =>
          rw [if_neg hfits]
          generalize peer.openTrackStream object.trackId = attempt at hpassed hstill hid ⊢
          obtain ⟨opened, opens⟩ := attempt
          cases opens with
          | false => simp only [reduceCtorEq] at hpassed
          | true =>
              simp only at hpassed hstill hid ⊢
              generalize htarget : opened.target object = target at hpassed ⊢
              obtain ⟨stream, frameLen⟩ := target
              cases stream with
              | none => simp only [reduceCtorEq] at hpassed
              | some s =>
                  simp only at hpassed ⊢
                  generalize hreserved : b.counters.canAcceptReserved b.limits s frameLen true
                    reservedBytes reservedVectors = reserved at hpassed ⊢
                  cases reserved with
                  | none => simp only [reduceCtorEq] at hpassed
                  | some reserved =>
                      obtain ⟨haccept, rfl⟩ :=
                        Egress.canAccept_of_reserved hreserved hbytes hvectors
                      have hready : opened.protocolReady = true := by
                        simp only [ReliablePeer.eligible, Bool.and_eq_true] at hstill
                        exact hstill.1.1.1.2
                      obtain ⟨written, hwritten⟩ := ReliablePeer.writeObject_of_accepted
                        b.resolved hsize hready htarget haccept
                      obtain ⟨hsent, hnone, htotal⟩ := @ih _ _ _ hpassed
                        (counters.charge s frameLen)
                        (by rw [Egress.charge, hbytes, Nat.add_assoc])
                        (by rw [Egress.charge, hvectors, Nat.add_assoc]) (delivered + 1)
                      simp only [write, hstill, hwritten, Bool.not_true, Bool.false_eq_true,
                        if_false, hserved, hid]
                      refine ⟨by rw [hsent], hnone, ?_⟩
                      rw [htotal, List.length_cons]
                      omega

theorem preflight_failure {peers : List ReliablePeer}
    {eligible reservedBytes reservedVectors : Nat}
    (hfailed : (b.preflight object peers eligible reservedBytes reservedVectors).2 =
      .error failure) : failure = .invalid ∨ failure = .error ∨ failure = .backpressure := by
  induction peers generalizing eligible reservedBytes reservedVectors with
  | nil => cases hfailed
  | cons peer rest ih =>
      unfold preflight at hfailed
      split at hfailed
      · exact ih hfailed
      split at hfailed
      · exact .inl (Except.error.inj hfailed).symm
      split at hfailed
      · exact .inr (.inl (Except.error.inj hfailed).symm)
      split at hfailed
      · exact .inr (.inr (Except.error.inj hfailed).symm)
      split at hfailed
      · exact .inr (.inr (Except.error.inj hfailed).symm)
      · exact ih hfailed

/-- Without a recipient nothing is opened and nothing is written. -/
theorem publish_idle {peers : List ReliablePeer} (hidle : b.deliveriesTo object peers = [])
    (eligible reservedBytes reservedVectors : Nat) (counters : Egress) (delivered : Nat) :
    b.preflight object peers eligible reservedBytes reservedVectors = (peers, .ok eligible) ∧
      b.write object counters peers delivered = (counters, peers, [], none) := by
  induction peers with
  | nil => exact ⟨rfl, rfl⟩
  | cons peer rest ih =>
      have hnone := List.map_eq_nil_iff.mp hidle
      rw [List.filter_eq_nil_iff] at hnone
      have hpeer : peer.eligible b.isServer object.trackId = false :=
        Bool.not_eq_true _ |>.mp (hnone peer List.mem_cons_self)
      obtain ⟨hpreflight, hwrite⟩ := ih (List.map_eq_nil_iff.mpr
        (List.filter_eq_nil_iff.mpr fun peer hmem => hnone peer (List.mem_cons_of_mem _ hmem)))
      constructor
      · rw [preflight, hpeer, Bool.not_false, if_pos rfl, hpreflight]
      · rw [write, hpeer, Bool.not_false, if_pos rfl, hwrite]

/-- What a publication that passes its checks comes to. -/
theorem publishReliable_passed (hsize : object.size ≤ b.limits.maxReliableObjectSize)
    (hpassed : (b.preflight object b.peers 0 0 0).2 = .ok total) :
    (b.publishReliable object).2 = (if total = 0 then .noRecipients else .delivered) ∧
      (b.publishReliable object).1.sent = b.sent ++ b.deliveriesTo object b.peers ∧
      total = (b.deliveriesTo object b.peers).length := by
  obtain ⟨hsent, hnone, htotal⟩ := write_of_preflight hsize hpassed rfl rfl 0
  unfold publishReliable
  rw [if_neg (Nat.not_lt.mpr hsize)]
  generalize b.preflight object b.peers 0 0 0 = attempt at hpassed hsent hnone
  obtain ⟨checked, outcome⟩ := attempt
  obtain rfl : outcome = .ok total := hpassed
  simp only at hsent hnone ⊢
  rw [hnone]
  exact ⟨rfl, by rw [hsent], by rw [htotal, Nat.zero_add]⟩

theorem publishReliable_failed (hsize : object.size ≤ b.limits.maxReliableObjectSize)
    (hfailed : (b.preflight object b.peers 0 0 0).2 = .error failure) :
    b.publishReliable object =
      ({ b with peers := (b.preflight object b.peers 0 0 0).1 }, failure) := by
  unfold publishReliable
  rw [if_neg (Nat.not_lt.mpr hsize)]
  generalize b.preflight object b.peers 0 0 0 = attempt at hfailed
  obtain ⟨checked, outcome⟩ := attempt
  obtain rfl : outcome = .error failure := hfailed
  rfl

/-! ### Retries -/

inductive BroadcastCall where
  | publish (object : MoqObject)
  /-- Whatever else becomes of the connections and of the budgets. -/
  | elsewhere (peers : List ReliablePeer) (counters : Egress)

def apply (b : Broadcast) : BroadcastCall → Broadcast
  | .publish object => (b.publishReliable object).1
  | .elsewhere peers counters => { b with peers := peers, counters := counters }

/-- The objects of the calls that were answered with `delivered`, once for each peer that
was eligible then. -/
def delivered (b : Broadcast) : List BroadcastCall → List (Nat × MoqObject)
  | [] => []
  | .publish object :: rest =>
      (if (b.publishReliable object).2 = .delivered then b.deliveriesTo object b.peers else []) ++
        (b.apply (.publish object)).delivered rest
  | .elsewhere peers counters :: rest => (b.apply (.elsewhere peers counters)).delivered rest

/-- A refused object is not written to anyone. -/
structure Refused (b refused : Broadcast) : Prop where
  sent : refused.sent = b.sent
  counters : refused.counters = b.counters
  peers : List.Forall₂ ReliablePeer.Unwritten b.peers refused.peers

theorem Refused.refl (b : Broadcast) : Refused b b where
  sent := rfl
  counters := rfl
  peers := List.forall₂_same.mpr fun peer _ => .refl peer

theorem publishReliable_refused (hrefused : (b.publishReliable object).2 ≠ .delivered) :
    Refused b (b.publishReliable object).1 := by
  rcases Nat.lt_or_ge b.limits.maxReliableObjectSize object.size with hbig | hsize
  · rw [publishReliable, if_pos hbig]
    exact .refl b
  cases hpreflight : (b.preflight object b.peers 0 0 0).2 with
  | error failure =>
      rw [publishReliable_failed hsize hpreflight]
      exact ⟨rfl, rfl, unwritten_preflight b object b.peers 0 0 0⟩
  | ok total =>
      obtain ⟨hresult, -, htotal⟩ := publishReliable_passed hsize hpreflight
      rw [hresult] at hrefused
      have hzero : total = 0 := by
        by_contra hsome
        exact hrefused (if_neg hsome)
      have hidle : b.deliveriesTo object b.peers = [] :=
        List.eq_nil_of_length_eq_zero (htotal.symm.trans hzero)
      obtain ⟨hchecked, hwritten⟩ := publish_idle hidle 0 0 0 b.counters 0
      have hsame : (b.publishReliable object).1 = b := by
        unfold publishReliable
        rw [if_neg (Nat.not_lt.mpr hsize), hchecked]
        simp only [hwritten, List.append_nil]
      rw [hsame]
      exact .refl b

theorem publishReliable_delivered (hdelivered : (b.publishReliable object).2 = .delivered) :
    (b.publishReliable object).1.sent = b.sent ++ b.deliveriesTo object b.peers := by
  rcases Nat.lt_or_ge b.limits.maxReliableObjectSize object.size with hbig | hsize
  · rw [publishReliable, if_pos hbig] at hdelivered
    cases hdelivered
  cases hpreflight : (b.preflight object b.peers 0 0 0).2 with
  | error failure =>
      rw [publishReliable_failed hsize hpreflight] at hdelivered
      rcases preflight_failure hpreflight with rfl | rfl | rfl <;> cases hdelivered
  | ok total => exact (publishReliable_passed hsize hpreflight).2.1

theorem sent_run (b : Broadcast) (calls : List BroadcastCall) :
    (Machine.run apply b calls).sent = b.sent ++ b.delivered calls := by
  induction calls generalizing b with
  | nil => exact (List.append_nil _).symm
  | cons call rest ih =>
      rw [Machine.run_cons, ih]
      cases call with
      | publish object =>
          rw [delivered, ← List.append_assoc]
          congr 1
          split
          · next hdelivered => exact publishReliable_delivered hdelivered
          · next hrefused =>
              rw [List.append_nil]
              exact (publishReliable_refused hrefused).sent
      | elsewhere peers counters => rfl

theorem publishReliable_whole (b : Broadcast) (object : MoqObject) :
    (b.publishReliable object).2 ≠ .partialDelivery := by
  rcases Nat.lt_or_ge b.limits.maxReliableObjectSize object.size with hbig | hsize
  · rw [publishReliable, if_pos hbig]
    exact nofun
  cases hpreflight : (b.preflight object b.peers 0 0 0).2 with
  | error failure =>
      rw [publishReliable_failed hsize hpreflight]
      rcases preflight_failure hpreflight with rfl | rfl | rfl <;> exact nofun
  | ok total =>
      rw [(publishReliable_passed hsize hpreflight).1]
      split <;> exact nofun

/-- Where a check of the preflight fails nothing is written to anyone; where all pass every
write succeeds.  So over any calls a peer has an object once for each call that was
answered with `delivered`, and nothing of the others. -/
theorem broadcast_all_or_nothing (b : Broadcast) (object : MoqObject) :
    (b.publishReliable object).2 ≠ .partialDelivery ∧
      (object.size ≤ b.limits.maxReliableObjectSize →
        (∀ failure, (b.preflight object b.peers 0 0 0).2 = .error failure →
          (b.publishReliable object).2 = failure ∧ failure ≠ .delivered) ∧
        ∀ eligible, (b.preflight object b.peers 0 0 0).2 = .ok eligible →
          (b.publishReliable object).2 =
              (if eligible = 0 then .noRecipients else .delivered) ∧
            eligible = (b.deliveriesTo object b.peers).length) ∧
      ((b.publishReliable object).2 ≠ .delivered → Refused b (b.publishReliable object).1) ∧
      ((b.publishReliable object).2 = .delivered →
        (b.publishReliable object).1.sent = b.sent ++ b.deliveriesTo object b.peers) ∧
      ∀ calls, (Machine.run apply b calls).sent = b.sent ++ b.delivered calls := by
  refine ⟨publishReliable_whole b object, fun hsize => ⟨fun failure hfailed => ?_,
    fun eligible hpassed => ?_⟩, publishReliable_refused, publishReliable_delivered, sent_run b⟩
  · refine ⟨by rw [publishReliable_failed hsize hfailed], ?_⟩
    rcases preflight_failure hfailed with rfl | rfl | rfl <;> exact nofun
  · obtain ⟨hresult, -, htotal⟩ := publishReliable_passed hsize hpassed
    exact ⟨hresult, htotal⟩

end Broadcast

end Qlinq
