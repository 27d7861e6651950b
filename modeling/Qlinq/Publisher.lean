import Qlinq.Lib.Machine
import Qlinq.Protocol
import Qlinq.PublishSteps

namespace Qlinq

/-! The publishing endpoint as a machine: application calls, frames of its peers
and the life of its connections. -/

def maxFecObjectSize : Nat := 1024 * 1024

def defaultLimits : TransportLimits where
  maxReliableObjectSize := 1024 * 1024 - 16
  maxFecObjectSize := maxFecObjectSize
  maxSubscriptionsPerConnection := 32
  maxUdpPayloadSize := 1280
  maxAssemblersPerConnection := 8

def defaultRecoveryCacheBytes : Nat := 16 * 1024 * 1024

structure Hello where
  capabilities : UInt32
  maxReliableObjectSize : Nat
  maxFecObjectSize : Nat
  maxSubscriptions : Nat
  maxDatagramSize : Nat
  deriving DecidableEq, Repr

namespace Conn

/-- A connection as it is allocated. -/
def init (id : Nat) (limits : TransportLimits) : Conn where
  id := id
  negotiatedLimits :=
    { maxReliableObjectSize := 0
      maxFecObjectSize := 0
      maxSubscriptionsPerConnection := 0
      maxUdpPayloadSize := 0
      maxAssemblersPerConnection := 0 }
  sendSubscriptions := SubscriptionTable.init limits.maxSubscriptionsPerConnection
  receiveSubscriptions := SubscriptionTable.init limits.maxSubscriptionsPerConnection
  assemblers := List.replicate limits.maxAssemblersPerConnection none

def negotiate (limits : TransportLimits) (hello : Hello) : TransportLimits :=
  { limits with
    maxReliableObjectSize := min limits.maxReliableObjectSize hello.maxReliableObjectSize
    maxFecObjectSize := min limits.maxFecObjectSize hello.maxFecObjectSize
    maxSubscriptionsPerConnection :=
      min limits.maxSubscriptionsPerConnection hello.maxSubscriptions
    maxUdpPayloadSize := min limits.maxUdpPayloadSize hello.maxDatagramSize }

def receiveHello (c : Conn) (limits : TransportLimits) (hello : Hello) : Conn :=
  if c.closed.isSome then
    c
  else if c.helloReceived ∨
      hello.capabilities &&& (capReliable ||| capDatagram) ≠ capReliable ||| capDatagram then
    c.protocolClose "protocol error: invalid HELLO"
  else
    { c with
      peerCapabilities := hello.capabilities
      negotiatedLimits := negotiate limits hello
      helloReceived := true
      protocolReady := true }

/-- `transport_respond_auth`. -/
def respondAuth (c : Conn) (success : Bool) : Conn :=
  if !c.protocolReady || c.closed.isSome then
    c
  else if success then
    { c with authenticated := true }
  else
    c.quiclyClose .authentication "authentication failed"

end Conn

namespace Transport

def init (isServer : Bool) (limits : TransportLimits) (maxRecoveryCacheBytes : Nat) :
    Transport where
  isServer := isServer
  limits := limits
  sentCache := SentCache.init maxRecoveryCacheBytes
    (min limits.maxFecObjectSize maxFecGroupSize)
  fecTrackId := { type := .video, flags := 0, name := [] }

inductive Op where
  | publish (env : PublishEnv) (object : MoqObject)
  | flush (env : FlushEnv)
  | finish (env : FlushEnv) (track : TrackId)
  | connect
  | hello (connId : Nat) (hello : Hello)
  | respondAuth (connId : Nat) (success : Bool)
  | receive (env : RepairEnv) (connId : Nat) (frame : ControlFrame)
  /-- The control stream of the connection drains or fills up. -/
  | admissions (connId : Nat) (admissions : List Admission)
  | close (connId : Nat) (code : AppError) (reason : String)
  /-- A closed connection is taken down. -/
  | disconnect (connId : Nat)

def connect (t : Transport) : Transport :=
  { t with
    conns := t.conns ++ [Conn.init t.nextConnId t.limits]
    nextConnId := t.nextConnId + 1 }

def disconnect (t : Transport) (connId : Nat) : Transport :=
  match Keyed.lookup Conn.id connId t.conns with
  | none => t
  | some c =>
      let t := t.checkpointConnectionRemoved connId c.sendSubscriptions.entries
      { t with conns := Keyed.erase Conn.id connId t.conns }

def apply (t : Transport) : Op → Transport
  | .publish env object => (t.publish env object).1
  | .flush env => (t.flushGrouped env).1
  | .finish env track => (t.finishTrack env track).1
  | .connect => t.connect
  | .hello connId hello => t.updateConn connId (·.receiveHello t.limits hello)
  | .respondAuth connId success => t.updateConn connId (·.respondAuth success)
  | .receive env connId frame => t.receiveControlFrame env connId frame
  | .admissions connId admissions =>
      t.updateConn connId fun c => { c with admissions := admissions }
  | .close connId code reason => t.updateConn connId (·.quiclyClose code reason)
  | .disconnect connId => t.disconnect connId

def run (t : Transport) (ops : List Op) : Transport := Machine.run apply t ops

@[simp] theorem run_nil (t : Transport) : t.run [] = t :=
  rfl

@[simp] theorem run_cons (t : Transport) (op : Op) (ops : List Op) :
    t.run (op :: ops) = (t.apply op).run ops :=
  rfl

theorem run_append (t : Transport) (first second : List Op) :
    t.run (first ++ second) = (t.run first).run second :=
  Machine.run_append t first second

/-! ### Connections in their places -/

theorem lookup_setConn (t : Transport) (c : Conn) (connId : Nat) :
    Keyed.lookup Conn.id connId (t.setConn c).conns =
      if connId = c.id then (Keyed.lookup Conn.id connId t.conns).map fun _ => c
      else Keyed.lookup Conn.id connId t.conns := by
  have hkeeps : ∀ item : Conn, item.id = c.id → ((fun _ => c) item).id = c.id :=
    fun _ _ => rfl
  have hadjusted := Keyed.lookup_adjust hkeeps connId t.conns
  simp only [setConn, hadjusted]
  split
  · next hsame => rw [hsame]
  · rfl

theorem lookup_setConn_self {t : Transport} {c c' : Conn}
    (hlookup : Keyed.lookup Conn.id connId t.conns = some c) (hid : c'.id = c.id) :
    Keyed.lookup Conn.id connId (t.setConn c').conns = some c' := by
  have hconnId := (Keyed.mem_of_lookup hlookup).2
  rw [lookup_setConn, if_pos (by rw [hid, hconnId]), hlookup]
  rfl

/-- Releasing what all have acknowledged is the cache's affair. -/
theorem conns_releaseAckedCheckpoints (t : Transport) (track : TrackId) :
    (t.releaseAckedCheckpoints track).conns = t.conns := by
  unfold releaseAckedCheckpoints
  split
  · rfl
  split
  · rfl
  split <;> rfl

/-! ### The grouping buffer

Only publications, flushes and completions touch it. -/

theorem grouping_conns (t : Transport) (conns : List Conn) :
    SameGrouping t { t with conns := conns } :=
  ⟨rfl, rfl, rfl, rfl, rfl, rfl, rfl, rfl, rfl⟩

theorem grouping_setConn (t : Transport) (c : Conn) : SameGrouping t (t.setConn c) :=
  grouping_conns t _

theorem grouping_updateConn (t : Transport) (connId : Nat) (update : Conn → Conn) :
    SameGrouping t (t.updateConn connId update) :=
  grouping_conns t _

theorem grouping_releaseAckedCheckpoints (t : Transport) (track : TrackId) :
    SameGrouping t (t.releaseAckedCheckpoints track) := by
  simp only [releaseAckedCheckpoints]
  split
  · exact SameGrouping.refl t
  split
  · exact SameGrouping.refl t
  split
  · exact ⟨rfl, rfl, rfl, rfl, rfl, rfl, rfl, rfl, rfl⟩
  · exact ⟨rfl, rfl, rfl, rfl, rfl, rfl, rfl, rfl, rfl⟩
  · exact SameGrouping.refl t

theorem grouping_checkpointMemberRemoved (t : Transport) (c : Conn) (track : TrackId)
    (a : TrackAlias) : SameGrouping t (t.checkpointMemberRemoved c track a) := by
  simp only [checkpointMemberRemoved]
  split
  · exact SameGrouping.refl t
  · exact (grouping_setConn t _).trans (grouping_releaseAckedCheckpoints _ track)

theorem grouping_checkpointConnectionRemoved (t : Transport) (connId : Nat)
    (entries : List Subscription) :
    SameGrouping t (t.checkpointConnectionRemoved connId entries) := by
  induction entries generalizing t with
  | nil => exact SameGrouping.refl t
  | cons entry rest ih =>
      simp only [checkpointConnectionRemoved]
      split
      · exact SameGrouping.refl t
      split
      · exact ih t
      · exact ((grouping_setConn t _).trans
          (grouping_releaseAckedCheckpoints _ entry.trackId)).trans (ih _)

theorem grouping_checkpointAcked {t : Transport} {ack : TrackCheckpointAck}
    (hacked : t.checkpointAcked c ack track = some t') : SameGrouping t t' := by
  simp only [checkpointAcked] at hacked
  split at hacked
  · simp at hacked
  split at hacked
  · simp at hacked
  split at hacked
  · simp at hacked
  · obtain rfl := Option.some.inj hacked
    exact (grouping_setConn t _).trans (grouping_releaseAckedCheckpoints _ track)

theorem grouping_receiveNack (t : Transport) (env : RepairEnv) (c : Conn) (nack : Nack) :
    SameGrouping t (t.receiveNack env c nack) := by
  simp only [receiveNack]
  split
  · exact SameGrouping.refl t
  split
  · exact SameGrouping.refl t
  split
  · exact grouping_setConn t _
  split
  · exact SameGrouping.refl t
  split
  · exact SameGrouping.refl t
  split
  · exact SameGrouping.refl t
  · exact ⟨rfl, rfl, rfl, rfl, rfl, rfl, rfl, rfl, rfl⟩

theorem grouping_receiveSubscribe (t : Transport) (c : Conn) (a : TrackAlias)
    (track : TrackId) : SameGrouping t (t.receiveSubscribe c a track) := by
  simp only [receiveSubscribe]
  split
  · exact grouping_setConn t _
  · split <;> exact grouping_setConn t _

theorem grouping_receiveUnsubscribe (t : Transport) (c : Conn) (a : TrackAlias)
    (track : TrackId) : SameGrouping t (t.receiveUnsubscribe c a track) :=
  (grouping_checkpointMemberRemoved t c track a).trans (grouping_updateConn _ _ _)

theorem grouping_receiveCheckpointAck (t : Transport) (c : Conn)
    (ack : TrackCheckpointAck) : SameGrouping t (t.receiveCheckpointAck c ack) := by
  simp only [receiveCheckpointAck]
  split
  · exact grouping_setConn t _
  split
  · exact grouping_setConn t _
  · next hacked => exact grouping_checkpointAcked hacked

theorem grouping_receiveControlFrame (t : Transport) (env : RepairEnv) (connId : Nat)
    (frame : ControlFrame) : SameGrouping t (t.receiveControlFrame env connId frame) := by
  simp only [receiveControlFrame]
  split
  · exact SameGrouping.refl t
  split
  · exact SameGrouping.refl t
  split
  · exact grouping_setConn t _
  cases frame with
  | subscribe a track =>
      simp only
      split
      · exact grouping_setConn t _
      split
      · exact grouping_setConn t _
      · exact grouping_receiveSubscribe t _ a track
  | unsubscribe a track =>
      simp only
      split
      · exact grouping_setConn t _
      split
      · exact grouping_setConn t _
      · exact grouping_receiveUnsubscribe t _ a track
  | keyframeRequest a track =>
      simp only
      split
      · exact grouping_setConn t _
      · split <;> exact grouping_setConn t _
  | unicast payload =>
      simp only
      split
      · exact grouping_setConn t _
      · split <;> exact grouping_setConn t _
  | nack request =>
      simp only
      split
      · exact grouping_setConn t _
      · exact grouping_receiveNack t env _ request
  | trackCheckpoint checkpoint => exact grouping_setConn t _
  | trackCheckpointAck ack =>
      simp only
      split
      · exact grouping_setConn t _
      · exact grouping_receiveCheckpointAck t _ ack
  | trackEnd finish => exact grouping_setConn t _

theorem grouping_disconnect (t : Transport) (connId : Nat) :
    SameGrouping t (t.disconnect connId) := by
  simp only [disconnect]
  split
  · exact SameGrouping.refl t
  · exact (grouping_checkpointConnectionRemoved t connId _).trans
      ⟨rfl, rfl, rfl, rfl, rfl, rfl, rfl, rfl, rfl⟩

/-- Steps that publish nothing. -/
def Op.quiet : Op → Bool
  | .publish _ _ => false
  | .flush _ => false
  | .finish _ _ => false
  | _ => true

theorem grouping_apply (t : Transport) (hquiet : op.quiet = true) :
    SameGrouping t (t.apply op) := by
  cases op with
  | publish env object => simp [Op.quiet] at hquiet
  | flush env => simp [Op.quiet] at hquiet
  | finish env track => simp [Op.quiet] at hquiet
  | connect => exact ⟨rfl, rfl, rfl, rfl, rfl, rfl, rfl, rfl, rfl⟩
  | hello connId hello => exact grouping_updateConn t connId _
  | respondAuth connId success => exact grouping_updateConn t connId _
  | receive env connId frame => exact grouping_receiveControlFrame t env connId frame
  | admissions connId admissions => exact grouping_updateConn t connId _
  | close connId code reason => exact grouping_updateConn t connId _
  | disconnect connId => exact grouping_disconnect t connId

/-! ### Faultless surroundings

One idle path, a load balancer that puts everything on its first path and
libraries that always answer. -/

def firstPathflow : Pathflow where
  one := 65536
  ofNat n := 65536 * n
  add a b := a + b
  div a b := a * 65536 / b
  defaultLatency := 3276
  defaultLoss := 0
  optimize _ symbols _ := some fun index => if index = 0 then ⟨symbols, symbols⟩ else ⟨0, 0⟩

def blankCodec : FecCodec where
  encode _ _ paritySymbols symbolSize :=
    some (List.replicate paritySymbols (List.replicate symbolSize 0))
  decode _ _ _ _ := none

def idlePath : PathEnv where
  mapped := 0
  queued := 0
  overridden := false
  state := { initialized := false, rate := 0, latency := 0, loss := 0, queue := 0 }
  budget := { debt := 0, rate := 6553600 }

def quietConn : ConnEnv where
  paths := [idlePath]
  pathflow := firstPathflow
  codec := blankCodec
  blocksAllocate := true
  packet _ := .queued
  streamSends := true
  opensStream := true
  acceptsBatch := true
  writesObject := .written

def quietFlush : FlushEnv where
  conn _ := quietConn
  storeAllocates := true

def quietPublish : PublishEnv where
  before := quietFlush
  after := quietFlush
  direct := quietFlush
  grows := true

def quietRepair : RepairEnv where
  requestAllowed := true
  aggregateAllowed := true
  codec := blankCodec
  queues := repairMaxSymbols

def allCapabilities : UInt32 :=
  capReliable ||| capDatagram ||| capRecoveryCheckpoints ||| capRatelessRepair

def helloFor (limits : TransportLimits) : Hello where
  capabilities := allCapabilities
  maxReliableObjectSize := limits.maxReliableObjectSize
  maxFecObjectSize := limits.maxFecObjectSize
  maxSubscriptions := limits.maxSubscriptionsPerConnection
  maxDatagramSize := limits.maxUdpPayloadSize

/-- A peer connects, authenticates and subscribes to a track. -/
def join (connId : Nat) (limits : TransportLimits) (a : TrackAlias) (track : TrackId) :
    List Op :=
  [.connect, .hello connId (helloFor limits), .respondAuth connId true,
    .receive quietRepair connId (.subscribe a track)]

def server : Transport := init true defaultLimits defaultRecoveryCacheBytes

end Transport

end Qlinq
