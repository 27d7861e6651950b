import Qlinq.Connection
import Qlinq.Scheduler
import Qlinq.SentCache

namespace Qlinq

/-! Publication of one object's symbols to one connection. -/

inductive PublishResult where
  | delivered
  | buffered
  | noRecipients
  | partialDelivery
  | backpressure
  | invalid
  | error
  deriving DecidableEq, Repr

inductive FecType where
  | reedSolomon
  | raptorQ
  deriving DecidableEq, Repr

/-- The erasure codes.  `encode type blocks parity` yields the parity blocks,
`decode type dataSymbols blocks` the recovered source blocks; `none` is a codec
that cannot be created or fails. -/
structure FecCodec where
  encode : FecType → List Bytes → (paritySymbols symbolSize : Nat) → Option (List Bytes)
  decode : FecType → (dataSymbols symbolSize : Nat) → List (Option Bytes) →
    Option (List Bytes)

def fecMaxTotalSymbols : Nat := 1024

def fecMaxSymbolSize : Nat := 1500

def pathDatagramQueueCapacity : Nat := 64

def wireFecHeaderSize : Nat := 44

def fecTypeFor (rateless : Bool) (totalSymbols : Nat) : FecType :=
  if rateless || 255 < totalSymbols then .raptorQ else .reedSolomon

/-- Source block `index`, padded with zeros to a whole symbol. -/
def dataBlock (data : Bytes) (symbolSize index : Nat) : Bytes :=
  let chunk := (data.drop (index * symbolSize)).take symbolSize
  chunk ++ List.replicate (symbolSize - chunk.length) 0

/-- One physical path of a connection at the moment of a publication, its
budget already drained up to now. -/
structure PathEnv where
  mapped : Nat
  queued : Nat
  overridden : Bool
  state : PathState
  budget : PathBudget
  deriving DecidableEq, Repr

def PathEnv.available (path : PathEnv) : Nat :=
  pathDatagramQueueCapacity - path.queued

/-- What becomes of the packet of one symbol; `refused` is a packet QUIC does
not take although its queue has room. -/
inductive PacketOutcome where
  | queued
  | allocationFailed
  | refused
  deriving DecidableEq, Repr

/-- What becomes of an application frame: `broken` is a send-state allocation
that fails after the frame was appended. -/
inductive StreamWrite where
  | written
  | refused
  | broken
  deriving DecidableEq, Repr

/-- The surroundings of one publication attempt to one connection.  The last
fields concern reliable tracks: whether the open stream still sends, a new one
can be opened, the stream admits the frame, and what the write does. -/
structure ConnEnv where
  paths : List PathEnv
  pathflow : Pathflow
  codec : FecCodec
  blocksAllocate : Bool
  packet : Nat → PacketOutcome
  streamSends : Bool
  opensStream : Bool
  acceptsBatch : Bool
  writesObject : StreamWrite

inductive Plan where
  | planned (active : List PathEnv) (schedule : Schedule)
  | unschedulable
  | blocked

namespace ConnEnv

def activePaths (env : ConnEnv) : List PathEnv :=
  env.paths.filter fun path => path.queued < pathDatagramQueueCapacity

/-- The path cannot admit `symbols` of them now. -/
def pathBlocked (pathflow : Pathflow) (path : PathEnv) (symbols : Nat) : Bool :=
  symbols != 0 &&
    (path.available < symbols ||
      (!path.overridden &&
        pathBudgetWait pathflow path.budget
          (max (pathBudgetBurst pathflow path.budget.rate) symbols) symbols != 0))

/-- Replan without the first path that cannot admit its allocation.  Each round
drops one path, so the fuel is their number. -/
def planSymbols (env : ConnEnv) (profile : TrackProfile) (priority : UInt8)
    (symbolSize dataSymbols : Nat) : Nat → List PathEnv → Nat → Plan × Nat
  | 0, _, cursor => (.blocked, cursor)
  | rounds + 1, active, cursor =>
      match Schedule.build env.pathflow (active.map (·.state)) dataSymbols symbolSize
          profile.usesFec priority cursor with
      | (none, cursor) => (.unschedulable, cursor)
      | (some built, cursor) =>
          let schedule := built.transmitted profile.fecRateless dataSymbols
          match (active.zip schedule.paths).findIdx? fun (path, plan) =>
              pathBlocked env.pathflow path plan.x with
          | none => (.planned active schedule, cursor)
          | some index =>
              planSymbols env profile priority symbolSize dataSymbols rounds
                (active.eraseIdx index) cursor

end ConnEnv

/-- Hand the symbols to their paths until one is not taken. -/
def enqueueSymbols (env : ConnEnv) (active : List PathEnv) (schedule : Schedule)
    (packet : (symbolIndex mapped : Nat) → Sent Datagram) :
    (symbols : List Nat) → (queued : List (Sent Datagram)) →
      List (Sent Datagram) × PublishResult
  | [], queued => (queued, .delivered)
  | symbol :: rest, queued =>
      let stopped := if queued.isEmpty then PublishResult.error else .partialDelivery
      if env.packet symbol = .allocationFailed then
        (queued, stopped)
      else
        match (pathSelectPhysical schedule.paths symbol).bind (active[·]?) with
        | none => (queued, stopped)
        | some path =>
            let waiting := path.queued +
              (queued.filter (·.message.header.pathId = path.mapped)).length
            if 255 < path.mapped then
              (queued, stopped)
            else if pathDatagramQueueCapacity ≤ waiting ∨ env.packet symbol = .refused then
              (queued, if queued.isEmpty then .backpressure else .partialDelivery)
            else
              enqueueSymbols env active schedule packet rest
                (queued ++ [packet symbol path.mapped])

/-- The blocks of an object's symbols, parity after source. -/
def symbolBlocks (codec : FecCodec) (profile : TrackProfile) (data : Bytes)
    (symbolSize dataSymbols paritySymbols : Nat) : Option (List Bytes) :=
  let source := (List.range dataSymbols).map (dataBlock data symbolSize)
  if paritySymbols = 0 then
    some source
  else
    (codec.encode (fecTypeFor profile.fecRateless (dataSymbols + paritySymbols)) source
      paritySymbols symbolSize).map (source ++ ·)

def fecPacket (c : Conn) (object : MoqObject) (a : TrackAlias)
    (symbolSize dataSymbols totalSymbols : Nat) (blocks : List Bytes)
    (symbolIndex mapped : Nat) : Sent Datagram :=
  c.sendFrame object.trackId a
    { header :=
        { trackAlias := a
          isKeyframe := object.isKeyframe
          priority := object.priority
          pathId := mapped
          groupId := object.groupId
          objectId := object.objectId
          symbolIndex := symbolIndex
          totalSymbols := totalSymbols
          dataSymbols := dataSymbols
          symbolSize := symbolSize
          originalSize := object.size }
      symbol := blocks.getD symbolIndex [] }

/-- `publish_datagram_to_conn`: the connection afterwards, the result and
`sent_total_symbols`. -/
def publishDatagramToConn (env : ConnEnv) (c : Conn) (object : MoqObject)
    (profile : TrackProfile) (symbolSize dataSymbols : Nat) :
    Conn × PublishResult × Nat :=
  let active := env.activePaths
  if active = [] then
    (c, .backpressure, 0)
  else
    match env.planSymbols profile object.priority symbolSize dataSymbols active.length
        active c.roundRobinPath with
    | (.unschedulable, cursor) => ({ c with roundRobinPath := cursor }, .error, 0)
    | (.blocked, cursor) => ({ c with roundRobinPath := cursor }, .backpressure, 0)
    | (.planned active schedule, cursor) =>
        let c := { c with roundRobinPath := cursor }
        let totalSymbols := dataSymbols + schedule.paritySymbols
        if fecMaxTotalSymbols < totalSymbols then
          (c, .invalid, 0)
        else if schedule.allocated ≠ totalSymbols then
          (c, .error, 0)
        else if !env.blocksAllocate then
          (c, .error, totalSymbols)
        else
          match symbolBlocks env.codec profile object.data symbolSize dataSymbols
              schedule.paritySymbols with
          | none => (c, .error, totalSymbols)
          | some blocks =>
              match c.sendSubscriptions.findAlias object.trackId with
              | none => (c, .noRecipients, totalSymbols)
              | some a =>
                  let (queued, result) := enqueueSymbols env active schedule
                    (fecPacket c object a symbolSize dataSymbols totalSymbols blocks)
                    (List.range totalSymbols) []
                  ({ c with datagrams := c.datagrams ++ queued }, result, totalSymbols)

end Qlinq
