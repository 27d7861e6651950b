import Qlinq.Subscriptions

namespace Qlinq

/-! Connections: the two subscription tables, the control stream and what the
endpoint has handed to QUIC or to the application. -/

structure TransportLimits where
  maxReliableObjectSize : Nat
  maxFecObjectSize : Nat
  maxSubscriptionsPerConnection : Nat
  maxUdpPayloadSize : Nat
  maxAssemblersPerConnection : Nat
  deriving DecidableEq, Repr

inductive AppError where
  | none
  | protocol
  | authentication
  | resourceLimit
  deriving DecidableEq, Repr

structure Close where
  code : AppError
  reason : String
  deriving DecidableEq, Repr

/-- What the control stream answers to the next frame written on it: it is
admitted, the egress budget is exhausted, or the frame's copy cannot be
allocated. -/
inductive Admission where
  | admitted
  | blocked
  | failed
  deriving DecidableEq, Repr

structure FrameAssembler where
  trackAlias : TrackAlias
  groupId : Nat
  objectId : Nat
  totalSymbols : Nat
  dataSymbols : Nat
  symbolSize : Nat
  originalSize : Nat
  priority : UInt8
  lastActivity : Nat
  /-- Received symbols, at most one for each index. -/
  received : List (Sent Datagram)
  deriving DecidableEq, Repr

structure CompletedObject where
  generation : Nat
  trackAlias : TrackAlias
  groupId : Nat
  objectId : Nat
  deriving DecidableEq, Repr

inductive Event where
  | subscribe (track : TrackId)
  | unsubscribe (track : TrackId)
  | keyframeRequest (track : TrackId)
  /-- `generation` and `sources` record the subscription an object was received
  under and the tracks its messages were sent for. -/
  | object (track : TrackId) (generation groupId objectId : Nat) (data : Bytes)
      (sources : List TrackId)
  | objectLost (track : TrackId) (groupId objectId : Nat)
  deriving DecidableEq, Repr

/-- `completedObjects` is the completion ring, newest first.  `control`,
`datagrams`, `streams` and `events` record what was handed out; `acked` and
`acceptedWindows` record the ACKs and recovery windows accepted from the peer. -/
structure Conn where
  id : Nat
  helloReceived : Bool := false
  protocolReady : Bool := false
  authenticated : Bool := false
  closed : Option Close := none
  peerCapabilities : UInt32 := 0
  negotiatedLimits : TransportLimits
  sendSubscriptions : SubscriptionTable
  receiveSubscriptions : SubscriptionTable
  fecGroupDelivered : Bool := false
  roundRobinPath : Nat := 0
  nextStream : Nat := 0
  admissions : List Admission := []
  assemblers : List (Option FrameAssembler) := []
  assemblerIndex : Nat := 0
  completedObjects : List CompletedObject := []
  boundStreams : List (Nat × TrackAlias) := []
  control : List (Sent ControlFrame) := []
  datagrams : List (Sent Datagram) := []
  streams : List (Nat × Sent TrackObject) := []
  acked : List (Sent TrackCheckpointAck) := []
  acceptedWindows : List (Sent (TrackAlias × RecoveryWindow)) := []
  events : List Event := []

namespace Conn

def hasCapability (c : Conn) (capability : UInt32) : Bool :=
  c.peerCapabilities &&& capability != 0

def checkpointCapable (c : Conn) : Bool := c.hasCapability capRecoveryCheckpoints

/-- `quicly_close`: the first close decides the connection's error. -/
def quiclyClose (c : Conn) (code : AppError) (reason : String) : Conn :=
  match c.closed with
  | some _ => c
  | none => { c with closed := some ⟨code, reason⟩ }

theorem closed_quiclyClose (c : Conn) (code : AppError) (reason : String) :
    (c.quiclyClose code reason).closed.isSome := by
  unfold quiclyClose
  split
  · next close hclosed => simp [hclosed]
  · rfl

def protocolClose (c : Conn) (reason : String) : Conn :=
  c.quiclyClose .protocol reason

def admission (c : Conn) : Admission := c.admissions.headD .admitted

def streamCanAccept (c : Conn) : Bool :=
  c.closed.isNone && c.admission != .blocked

/-- Write an essential frame to the control stream.  A frame that cannot be
retained closes the connection. -/
def writeControlFrame (c : Conn) (frame : Sent ControlFrame) : Conn × Bool :=
  if c.closed.isSome then
    (c, false)
  else if c.admission = .admitted then
    ({ c with
        control := c.control ++ [frame]
        admissions := c.admissions.tail }, true)
  else
    ({ c with admissions := c.admissions.tail }.quiclyClose .resourceLimit
      "reliable control queue exhausted", false)

def sendGeneration (c : Conn) (a : TrackAlias) : Nat :=
  ((c.sendSubscriptions.getState a).map (·.generation)).getD 0

def receiveGeneration (c : Conn) (a : TrackAlias) : Nat :=
  ((c.receiveSubscriptions.getState a).map (·.generation)).getD 0

def objectGap (c : Conn) (a : TrackAlias) : ObjectGapState :=
  ((c.receiveSubscriptions.getState a).map (·.objectGap)).getD {}

def setObjectGap (c : Conn) (a : TrackAlias) (gap : ObjectGapState) : Conn :=
  { c with
    receiveSubscriptions := c.receiveSubscriptions.modifyState a fun state =>
      { state with objectGap := gap } }

def checkpointAck (c : Conn) (a : TrackAlias) : CheckpointAckState :=
  ((c.sendSubscriptions.getState a).map (·.checkpointAck)).getD {}

def setCheckpointAck (c : Conn) (a : TrackAlias) (ack : CheckpointAckState) : Conn :=
  { c with
    sendSubscriptions := c.sendSubscriptions.modifyState a fun state =>
      { state with checkpointAck := ack } }

/-- A frame written for the publication of `track` under `a`. -/
def sendFrame (c : Conn) (track : TrackId) (a : TrackAlias) (message : α) : Sent α :=
  ⟨track, c.sendGeneration a, message⟩

def unresolvedTrack : TrackId where
  type := .video
  flags := 0
  name := []

/-- A frame written for the track received under `a`. -/
def receiveFrame (c : Conn) (a : TrackAlias) (message : α) : Sent α :=
  ⟨(c.receiveSubscriptions.findByAlias a).getD unresolvedTrack,
    c.receiveGeneration a, message⟩

end Conn

end Qlinq
