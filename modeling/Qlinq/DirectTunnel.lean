import Qlinq.Lib.Replay
import Qlinq.Lib.RingBuffer
import Qlinq.StreamCounts

namespace Qlinq

/-! A TUN interface that is bridged over one endpoint of the library. -/

def tunMtu : Nat := 1400

def receiveQueueCapacity : Nat := 64

/-- `valid_packet`: an IP packet whose header gives the size that it has. -/
def validPacket (data : Bytes) : Bool :=
  if data.length = 0 ∨ tunMtu < data.length then
    false
  else
    let version := data.getD 0 0 >>> 4
    if version = 4 ∧ 20 ≤ data.length then
      let headerSize := (data.getD 0 0 &&& 15).toNat * 4
      let totalSize := (data.getD 2 0).toNat * 256 + (data.getD 3 0).toNat
      20 ≤ headerSize && headerSize ≤ data.length && totalSize == data.length
    else if version = 6 ∧ 40 ≤ data.length then
      let payloadSize := (data.getD 4 0).toNat * 256 + (data.getD 5 0).toNat
      payloadSize + 40 == data.length
    else
      false

/-- What one write to the interface does; a short write fails. -/
inductive TunWrite where
  | written
  | interrupted
  | blocked
  | failed
  deriving DecidableEq, Repr

/-- What one read of the interface gives; the end of its packets is a failure. -/
inductive TunRead where
  | packet (data : Bytes)
  | interrupted
  | blocked
  | failed
  deriving DecidableEq, Repr

/-- The packets that wait for the interface. -/
structure ReceiveQueue where
  ring : RingBuffer Bytes := .empty receiveQueueCapacity
  dropped : Nat := 0
  deriving DecidableEq, Repr

namespace ReceiveQueue

/-- `enqueue_packet`. -/
def enqueuePacket (queue : ReceiveQueue) (data : Bytes) : ReceiveQueue :=
  if validPacket data = false ∨ queue.ring.count = receiveQueueCapacity then
    { queue with dropped := queue.dropped + 1 }
  else
    { queue with ring := queue.ring.pushBack data }

/-- `flush_packets`, with the packets written; an interface without an outcome left blocks. -/
def flushPackets : List TunWrite → RingBuffer Bytes → RingBuffer Bytes × List Bytes × Bool
  | [], ring => (ring, [], true)
  | write :: rest, ring =>
      if ring.count = 0 then
        (ring, [], true)
      else
        match write with
        | .interrupted => flushPackets rest ring
        | .blocked => (ring, [], true)
        | .failed => (ring, [], false)
        | .written =>
            let (left, written, intact) := flushPackets rest ring.popFront
            (left, (ring.peek 0).toList ++ written, intact)

end ReceiveQueue

/-- What happens to the packets on their way out, for specification. -/
inductive TunnelMark where
  | read (data : Bytes)
  | event (event : QlinqEvent)
  | published (sequence : Nat) (data : Bytes)
  deriving DecidableEq, Repr

/-- The state of `run_tunnel` without a mock interface.  `written` and `marks` are kept for
specification. -/
structure DirectTunnel where
  facade : Facade
  profile : SubscribedStream
  queue : ReceiveQueue := {}
  pending : Option Bytes := none
  sent : Nat := 0
  received : Nat := 0
  partials : Nat := 0
  stopped : Bool := false
  written : List Bytes := []
  marks : List TunnelMark := []

/-- What one turn of the loop reads. -/
structure TunnelTurn where
  env : ServiceEnv
  writes : List TunWrite
  writable : Bool
  reads : Nat → TunRead
  answers : Nat → PublishResult

/-- What the tunnel is started with; the endpoint is its context's first. -/
structure TunnelStart where
  limits : EventLimits
  listener : Bool
  token : Bytes
  profile : SubscribedStream
  callocs : Callocs
  allocates : StreamDirection → Bool
  subscribes : PeerState → Bool

namespace DirectTunnel

def publisherId : Nat := 0

/-- Opens the endpoint and its two streams; nothing runs where a stream is missing. -/
def start (s : TunnelStart) : DirectTunnel :=
  let opened := Facade.run s.limits
    [.openEndpoint s.listener s.token,
      .openStream 0 s.profile .publish s.callocs (s.allocates .publish) s.subscribes,
      .openStream 0 s.profile .subscribe s.callocs (s.allocates .subscribe) s.subscribes]
  { facade := opened
    profile := s.profile
    stopped := (opened.served 0).streams.length != 2 }

/-- An event about the peer after which what is pending is of no use. -/
def losesPeer (event : QlinqEvent) : Bool :=
  event.type == .peerDisconnected || event.type == .subscriberLeft

/-- The body of the event loop. -/
def onEvent (t : DirectTunnel) (event : QlinqEvent) : DirectTunnel :=
  let marked := { t with marks := t.marks ++ [.event event] }
  if isRecordOf 0 t.profile event then
    if validPacket event.payload then
      { marked with
        received := t.received + 1
        queue := t.queue.enqueuePacket event.payload }
    else
      { marked with queue := { t.queue with dropped := t.queue.dropped + 1 } }
  else if losesPeer event then
    { marked with pending := none }
  else
    marked

/-- An event is taken out of the queue, handled and released. -/
def takeEvent (t : DirectTunnel) : Option DirectTunnel :=
  match t.facade.context.events.nextEvent with
  | (_, none) => none
  | (events, some event) =>
      let taken := { t with facade := t.facade.apply .nextEvent }
      let handled := taken.onEvent event
      some
        { handled with
          facade := handled.facade.apply (.releaseEvent (events.unreleased.headD 0)) }

def takeEvents : Nat → DirectTunnel → DirectTunnel
  | 0, t => t
  | rounds + 1, t =>
      match t.takeEvent with
      | none => t
      | some t => takeEvents rounds t

/-- How a round of the batch goes on. -/
inductive Round where
  | next
  | leave
  deriving DecidableEq, Repr

/-- A packet is sent. -/
def publish (t : DirectTunnel) (data : Bytes) (answer : PublishResult) : DirectTunnel × Round :=
  let (facade, result) := t.facade.sendRecord 0 publisherId answer
  let told := { t with facade := facade }
  match result with
  | .wouldBlock => (told, .leave)
  | .noSubscribers => (told, .leave)
  | .invalid => ({ told with stopped := true }, .leave)
  | .failed => ({ told with stopped := true }, .leave)
  | _ =>
      ({ told with
          partials := if result = .partialDelivery then t.partials + 1 else t.partials
          sent := t.sent + 1
          pending := none
          marks := t.marks ++ [.published (t.sent + 1) data] },
        .next)

/-- One round of the batch: a packet is read unless one is pending, and sent. -/
def sendRound (t : DirectTunnel) (read : TunRead) (answer : PublishResult) :
    DirectTunnel × Round :=
  match t.pending with
  | some data => t.publish data answer
  | none =>
      match read with
      | .interrupted => (t, .next)
      | .blocked => (t, .leave)
      | .failed => ({ t with stopped := true }, .leave)
      | .packet data =>
          let packet := data.take tunMtu
          if packet = [] then
            ({ t with stopped := true }, .leave)
          else
            let marked := { t with marks := t.marks ++ [.read packet] }
            if validPacket packet then
              publish { marked with pending := some packet } packet answer
            else
              (marked, .next)

def sendBatch (env : TunnelTurn) : Nat → Nat → DirectTunnel → DirectTunnel
  | 0, _, t => t
  | rounds + 1, batch, t =>
      match t.sendRound (env.reads batch) (env.answers batch) with
      | (t, .next) => sendBatch env rounds (batch + 1) t
      | (t, .leave) => t

/-- What is queued goes to the interface. -/
def flush (t : DirectTunnel) (writes : List TunWrite) : DirectTunnel × Bool :=
  let (ring, written, intact) := ReceiveQueue.flushPackets writes t.queue.ring
  ({ t with
      queue := { t.queue with ring := ring }
      written := t.written ++ written
      stopped := !intact },
    intact)

/-- One turn of the loop. -/
def turn (t : DirectTunnel) (env : TunnelTurn) : DirectTunnel :=
  if t.stopped then
    t
  else
    let (facade, status) := t.facade.service { env.env with timeoutMs := 2 }
    let serviced := { t with facade := facade }
    if status.isError then
      { serviced with stopped := true }
    else
      let (flushed, intact) :=
        (takeEvents facade.context.events.queuedEvents serviced).flush env.writes
      if !intact || !env.writable then flushed else sendBatch env 32 0 flushed

def run (s : TunnelStart) (turns : List TunnelTurn) : DirectTunnel :=
  Machine.run turn (start s) turns

/-! ### What every step keeps -/

structure Steps (Inv : DirectTunnel → Prop) : Prop where
  service : ∀ {t} env, Inv t → Inv { t with facade := t.facade.apply (.service env) }
  stop : ∀ {t}, Inv t → Inv { t with stopped := true }
  takeEvent : ∀ {t t'}, Inv t → t.takeEvent = some t' → Inv t'
  flush : ∀ {t} writes, Inv t → Inv (t.flush writes).1
  sendRound : ∀ {t} read answer, Inv t → Inv (t.sendRound read answer).1

namespace Steps

variable {Inv : DirectTunnel → Prop} {t : DirectTunnel}

theorem takeEvents (hsteps : Steps Inv) (hinv : Inv t) (rounds : Nat) :
    Inv (t.takeEvents rounds) := by
  induction rounds generalizing t with
  | zero => exact hinv
  | succ rounds ih =>
      unfold DirectTunnel.takeEvents
      split
      · exact hinv
      · next taken htaken => exact ih (hsteps.takeEvent hinv htaken)

theorem sendBatch (hsteps : Steps Inv) (env : TunnelTurn) (hinv : Inv t) (rounds batch : Nat) :
    Inv (t.sendBatch env rounds batch) := by
  induction rounds generalizing t batch with
  | zero => exact hinv
  | succ rounds ih =>
      have hround := hsteps.sendRound (env.reads batch) (env.answers batch) hinv
      unfold DirectTunnel.sendBatch
      split
      · next next hnext =>
          rw [hnext] at hround
          exact ih hround (batch + 1)
      · next left hleft =>
          rw [hleft] at hround
          exact hround

theorem turn (hsteps : Steps Inv) (hinv : Inv t) (env : TunnelTurn) : Inv (t.turn env) := by
  unfold DirectTunnel.turn
  split
  · exact hinv
  have hserviced := hsteps.service { env.env with timeoutMs := 2 } hinv
  cases hserve : t.facade.service { env.env with timeoutMs := 2 } with
  | mk facade status =>
      have hfacade : t.facade.apply (.service { env.env with timeoutMs := 2 }) = facade :=
        congrArg Prod.fst hserve
      rw [hfacade] at hserviced
      simp only
      split
      · exact hsteps.stop hserviced
      have hflushed := hsteps.flush env.writes
        (hsteps.takeEvents hserviced facade.context.events.queuedEvents)
      split
      · exact hflushed
      · exact hsteps.sendBatch env hflushed 32 0

theorem run (hsteps : Steps Inv) (s : TunnelStart) (turns : List TunnelTurn)
    (hstart : Inv (start s)) : Inv (DirectTunnel.run s turns) :=
  Machine.invariant_run (fun _ env hinv _ => hsteps.turn hinv env) hstart
    (Machine.along_true _ turns)

end Steps

end DirectTunnel

end Qlinq
