import Qlinq.Lib.RoundRobin
import Qlinq.NackAdmission

namespace Qlinq

/-! The recovery sweep of `transport_tick`: what a tick asks of its peers, within its budget,
the aggregate limiter and each peer's own admission. -/

def fecNackDelayMs : Int64 := 25

def fecCompletionRetryMs : Int64 := 500

/-- `object_nack_budget`: the whole objects that one tick may ask for. -/
def objectNackBudget : Nat := 32

/-- A recovery window, with where its requests stand. -/
structure RequestWindow extends RecoveryWindow where
  cursor : Nat := 0
  lastRequestMs : Int64 := 0
  deriving DecidableEq, Repr

/-- What the sweep reads of a subscription's gap state; `windows` are its slots. -/
structure RequestGap where
  trackAlias : TrackAlias
  groupId : Nat := 0
  pendingBase : Nat := 0
  pendingMask : BitVec 32 := 0
  detectedAtMs : Int64 := 0
  windows : List (Option RequestWindow) := []
  deriving DecidableEq, Repr

/-- What the sweep reads of an assembler. -/
structure RequestAssembler where
  trackAlias : TrackAlias
  groupId : Nat
  objectId : Nat
  totalSymbols : Nat
  dataSymbols : Nat
  receivedMask : List Bool
  receivedCount : Nat
  decoded : Bool := false
  firstSymbolTimeMs : Int64 := 0
  nackSent : Bool := false
  lastNackTimeMs : Int64 := 0
  deriving DecidableEq, Repr

/-- The time of a tick, and the clocks of its calls of `transport_protocol_send_nack`. -/
structure SweepEnv where
  nowMs : Int64
  clock : Nat → NackClock
  indexedOnly : Bool

/-! ### What is due -/

def objectRequest (trackAlias : TrackAlias) (groupId objectId : Nat) : NackRequest where
  trackAlias := trackAlias
  groupId := .ofNat groupId
  objectId := .ofNat objectId
  missing := none
  count := 0
  wholeObject := true

namespace RequestGap

def isDue (gap : RequestGap) (nowMs : Int64) : Bool :=
  gap.pendingMask != 0 && decide (fecNackDelayMs ≤ nowMs - gap.detectedAtMs)

def pendingObjects (gap : RequestGap) : List Nat :=
  ((List.range 32).filter gap.pendingMask.getLsbD).map (gap.pendingBase + ·)

end RequestGap

namespace RequestWindow

def isDue (window : RequestWindow) (nowMs : Int64) : Bool :=
  window.missingMask != 0 && !decide (nowMs - window.lastRequestMs < fecCompletionRetryMs)

/-- The missing objects from the cursor on, without those that are being assembled. -/
def missingObjects (window : RequestWindow) (assembling : Nat → Bool) : List Nat :=
  ((((List.range recoveryWindowObjects).map fun attempt =>
    (window.cursor + attempt) % recoveryWindowObjects).filter
      window.missingMask.getLsbD).map (window.firstObjectId + ·)).filter fun objectId =>
        decide (objectId ≤ window.finalObjectId) && !assembling objectId

def requested (window : RequestWindow) (objectId : Nat) (nowMs : Int64) : RequestWindow :=
  { window with
    cursor := (objectId - window.firstObjectId + 1) % recoveryWindowObjects
    lastRequestMs := nowMs }

end RequestWindow

namespace RequestAssembler

def isDue (assembler : RequestAssembler) (nowMs : Int64) : Bool :=
  !assembler.decoded && decide (fecNackDelayMs ≤ nowMs - assembler.firstSymbolTimeMs) &&
    (!assembler.nackSent || decide (fecNackDelayMs ≤ nowMs - assembler.lastNackTimeMs))

def missingSymbols (assembler : RequestAssembler) : List Nat :=
  ((List.range assembler.totalSymbols).filter fun index =>
    !assembler.receivedMask.getD index false).take repairMaxSymbols

def symbolRequest (assembler : RequestAssembler) (rateless : Bool) : NackRequest where
  trackAlias := assembler.trackAlias
  groupId := .ofNat assembler.groupId
  objectId := .ofNat assembler.objectId
  missing :=
    if rateless then none
    else some fun index => UInt16.ofNat (assembler.missingSymbols.getD index 0)
  count :=
    if rateless then
      UInt16.ofNat (min repairMaxSymbols
        (if assembler.receivedCount < assembler.dataSymbols then
          assembler.dataSymbols - assembler.receivedCount
        else
          1))
    else
      UInt16.ofNat assembler.missingSymbols.length
  wholeObject := false

end RequestAssembler

/-! ### One peer -/

/-- A connection as the sweep finds it: `gaps` are those of its active subscriptions,
`assemblers` its slots. -/
structure SweepPeer (limits : ConfiguredLimits) where
  conn : Conn
  stream : Option RetainedStream
  requestLimiter : NackLimiter limits.nackRate
  gaps : List RequestGap := []
  assemblers : List (Option RequestAssembler) := []

/-- The sweep at one peer: `asked` are its requests that were admitted, `wait` is what the
aggregate limiter said last; a positive one ends the sweep. -/
structure PeerSweep (limits : ConfiguredLimits) where
  sender : NackSender limits
  budget : Nat
  calls : Nat
  asked : List NackRequest := []
  wait : UInt64 := 0

namespace PeerSweep

variable {limits : ConfiguredLimits}

def ask (s : PeerSweep limits) (env : SweepEnv) (request : NackRequest) :
    PeerSweep limits × Bool :=
  let (aggregateLimiter, wait) := s.sender.aggregateLimiter.waitMs env.nowMs
  let s := { s with sender := { s.sender with aggregateLimiter }, wait }
  if wait ≠ 0 then
    (s, false)
  else
    match s.sender.sendNack env.indexedOnly (env.clock s.calls) request with
    | (sender, false) => ({ s with sender, calls := s.calls + 1 }, false)
    | (sender, true) =>
        ({ s with sender, calls := s.calls + 1, asked := s.asked ++ [request] }, true)

/-- The objects that were asked for before the budget, the limiter or the peer ended it. -/
def askObjects (env : SweepEnv) (trackAlias : TrackAlias) (groupId : Nat) :
    PeerSweep limits → List Nat → PeerSweep limits × List Nat
  | s, [] => (s, [])
  | s, objectId :: rest =>
      if s.budget = 0 then
        (s, [])
      else
        match s.ask env (objectRequest trackAlias groupId objectId) with
        | (s, false) => (s, [])
        | (s, true) =>
            let (s, admitted) :=
              askObjects env trackAlias groupId { s with budget := s.budget - 1 } rest
            (s, objectId :: admitted)

/-- A loop of the sweep, which a wait ends. -/
def sweepEach (sweep : PeerSweep limits → α → PeerSweep limits × α) :
    PeerSweep limits → List α → PeerSweep limits × List α
  | s, [] => (s, [])
  | s, item :: rest =>
      if s.wait ≠ 0 then
        (s, item :: rest)
      else
        let (s, item) := sweep s item
        let (s, rest) := sweepEach sweep s rest
        (s, item :: rest)

def sweepPending (env : SweepEnv) (s : PeerSweep limits) (gap : RequestGap) :
    PeerSweep limits × RequestGap :=
  if gap.isDue env.nowMs then
    match s.askObjects env gap.trackAlias gap.groupId gap.pendingObjects with
    | (s, []) => (s, gap)
    | (s, _ :: _) => (s, { gap with detectedAtMs := env.nowMs })
  else
    (s, gap)

def sweepWindow (env : SweepEnv) (trackAlias : TrackAlias) (assembling : Nat → Nat → Bool)
    (s : PeerSweep limits) (slot : Option RequestWindow) :
    PeerSweep limits × Option RequestWindow :=
  match slot with
  | none => (s, none)
  | some window =>
      if window.isDue env.nowMs then
        let (s, admitted) := s.askObjects env trackAlias window.groupId
          (window.missingObjects (assembling window.groupId))
        match admitted.getLast? with
        | none => (s, some window)
        | some objectId => (s, some (window.requested objectId env.nowMs))
      else
        (s, some window)

/-- `assembling` answers `transport_find_assembler`. -/
def sweepGap (env : SweepEnv) (assembling : TrackAlias → Nat → Nat → Bool)
    (s : PeerSweep limits) (gap : RequestGap) : PeerSweep limits × RequestGap :=
  let (s, gap) := s.sweepPending env gap
  let (s, windows) :=
    sweepEach (sweepWindow env gap.trackAlias (assembling gap.trackAlias)) s gap.windows
  (s, { gap with windows })

def sweepAssembler (env : SweepEnv) (s : PeerSweep limits) (slot : Option RequestAssembler) :
    PeerSweep limits × Option RequestAssembler :=
  match slot with
  | none => (s, none)
  | some assembler =>
      if !assembler.isDue env.nowMs then
        (s, some assembler)
      else
        match s.sender.conn.receiveSubscriptions.findByAlias assembler.trackAlias with
        | none => (s, some assembler)
        | some track =>
            if !(trackProfile track).fecRateless then
              (s, some assembler)
            else
              let request :=
                assembler.symbolRequest (s.sender.conn.repairsRateless env.indexedOnly track)
              if request.count = 0 then
                (s, some assembler)
              else
                match s.ask env request with
                | (s, false) => (s, some assembler)
                | (s, true) =>
                    (s, some { assembler with nackSent := true, lastNackTimeMs := env.nowMs })

end PeerSweep

/-! ### The tick -/

/-- What the sweep finds in the transport. -/
structure NackTransport (limits : ConfiguredLimits) where
  peers : List (SweepPeer limits) := []
  stats : EgressStats := {}
  aggregateLimiter : NackLimiter limits.aggregateNackRate
  recoveryConnCursor : Nat := 0
  retryAtMs : Int64 := 0

/-- The transport in the middle of a sweep; `asked` names each request's peer. -/
structure NackSweep (limits : ConfiguredLimits) where
  transport : NackTransport limits
  budget : Nat := objectNackBudget
  calls : Nat := 0
  asked : List (Nat × NackRequest) := []
  wait : UInt64 := 0

variable {limits : ConfiguredLimits}

/-- `transport_find_assembler`, as a predicate. -/
def SweepPeer.assembling (peer : SweepPeer limits) (trackAlias : TrackAlias)
    (groupId objectId : Nat) : Bool :=
  peer.assemblers.any fun slot =>
    slot.any fun assembler =>
      assembler.trackAlias == trackAlias && assembler.groupId == groupId &&
        assembler.objectId == objectId

namespace NackSweep

def startPeer (s : NackSweep limits) (peer : SweepPeer limits) : PeerSweep limits where
  sender :=
    { conn := peer.conn
      stream := peer.stream
      stats := s.transport.stats
      requestLimiter := peer.requestLimiter
      aggregateLimiter := s.transport.aggregateLimiter }
  budget := s.budget
  calls := s.calls

def sweepPeer (s : NackSweep limits) (env : SweepEnv) (peer : SweepPeer limits) :
    PeerSweep limits × SweepPeer limits :=
  let (swept, gaps) :=
    PeerSweep.sweepEach (PeerSweep.sweepGap env peer.assembling) (s.startPeer peer) peer.gaps
  let (swept, assemblers) :=
    PeerSweep.sweepEach (PeerSweep.sweepAssembler env) swept peer.assemblers
  (swept,
    { conn := swept.sender.conn
      stream := swept.sender.stream
      requestLimiter := swept.sender.requestLimiter
      gaps
      assemblers })

def visit (env : SweepEnv) (s : NackSweep limits) (index : Nat) : NackSweep limits × Turn :=
  match s.transport.peers[index]? with
  | none => (s, ⟨false, false⟩)
  | some peer =>
      if peer.conn.closed.isSome then
        (s, ⟨false, false⟩)
      else
        let (swept, peer) := s.sweepPeer env peer
        ({ transport :=
            { s.transport with
              peers := s.transport.peers.set index peer
              stats := swept.sender.stats
              aggregateLimiter := swept.sender.aggregateLimiter
              recoveryConnCursor :=
                if swept.asked = [] then s.transport.recoveryConnCursor
                else (index + 1) % s.transport.peers.length }
           budget := swept.budget
           calls := swept.calls
           asked := s.asked ++ swept.asked.map (index, ·)
           wait := swept.wait },
          ⟨!swept.asked.isEmpty, swept.wait != 0⟩)

end NackSweep

namespace NackTransport

/-- `now` and the wait, or the end of time. -/
def retryAt (nowMs : Int64) (wait : UInt64) : Int64 :=
  if wait = RepairLimiter.uint64Max ∨ (Int64.maxValue - nowMs).toUInt64 < wait then
    Int64.maxValue
  else
    nowMs + wait.toInt64

/-- The transport behind the sweep's first look at the limiter. -/
def startSweep (t : NackTransport limits) (nowMs : Int64) : NackSweep limits where
  transport :=
    { t with aggregateLimiter := (t.aggregateLimiter.waitMs nowMs).1, retryAtMs := 0 }
  wait := (t.aggregateLimiter.waitMs nowMs).2

def sweepPeers (t : NackTransport limits) (env : SweepEnv) :
    NackSweep limits × List (Nat × Turn) :=
  if (t.startSweep env.nowMs).wait ≠ 0 then
    (t.startSweep env.nowMs, [])
  else
    RoundRobin.round (NackSweep.visit env) (fun s => s.transport.recoveryConnCursor)
      t.peers.length (t.startSweep env.nowMs)

/-- The sweep, and how its visits went. -/
def recoverySweep (t : NackTransport limits) (env : SweepEnv) :
    NackSweep limits × List (Nat × Turn) :=
  let (s, log) := t.sweepPeers env
  if s.wait ≠ 0 then
    ({ s with transport := { s.transport with retryAtMs := retryAt env.nowMs s.wait } }, log)
  else
    (s, log)

end NackTransport

end Qlinq
