import Qlinq.AssemblerStore
import Qlinq.CompletedRing

namespace Qlinq

/-! Reception of FEC datagrams into the assemblers of a connection, once the datagram's
track and its authorization are checked. -/

def minAssemblerWindow : Nat := 8

/-- How many slots a connection uses, and the payload rate that was measured for it. -/
structure AssemblerWindow where
  limit : Nat := 0
  rxRate : Nat := 0
  startedMs : Nat := 0
  bytes : Nat := 0
  deriving DecidableEq, Repr

namespace AssemblerWindow

/-- `transport_assembler_observe_receive`. -/
def observeReceive (window : AssemblerWindow) (payloadBytes nowMs : Nat) : AssemblerWindow :=
  if payloadBytes = 0 then
    window
  else if window.startedMs = 0 ∨ nowMs < window.startedMs then
    { window with startedMs := nowMs, bytes := payloadBytes }
  else
    let bytes := min uint64Max (window.bytes + payloadBytes)
    let elapsed := nowMs - window.startedMs
    if elapsed = 0 then
      { window with bytes := bytes }
    else
      let rate := if uint64Max / 1000 < bytes then uint64Max else bytes * 1000 / elapsed
      { window with
        rxRate := max window.rxRate rate
        startedMs := if 25 ≤ elapsed then nowMs else window.startedMs
        bytes := if 25 ≤ elapsed then 0 else bytes }

/-- The number of slots wanted for a receive rate and the round-trip times of the paths. -/
def target (window : AssemblerWindow) (cap : Nat) (rttsMs : List Nat)
    (totalSymbols symbolSize : Nat) : Nat :=
  let objectBytes := totalSymbols * symbolSize
  let rttMs := rttsMs.foldl max 25
  let bdpBytes :=
    if uint64Max / rttMs < window.rxRate then uint64Max else window.rxRate * rttMs / 1000
  let doubleBdp := if uint64Max / 2 < bdpBytes then uint64Max else bdpBytes * 2
  let minimum := min cap minAssemblerWindow
  if bdpBytes = 0 then
    minimum
  else
    (minimum + (doubleBdp + objectBytes - 1) % 2 ^ 64 / objectBytes) % 2 ^ 64

/-- `transport_assembler_window`, with the limit it answers. -/
def resize (window : AssemblerWindow) (cap : Nat) (rttsMs : List Nat)
    (totalSymbols symbolSize : Nat) : AssemblerWindow × Nat :=
  if totalSymbols = 0 ∨ symbolSize = 0 then
    (window, minAssemblerWindow)
  else
    let target := min (window.target cap rttsMs totalSymbols symbolSize) cap
    let raised := if window.limit < target then target else window.limit
    let limit :=
      if raised < min cap minAssemblerWindow then min cap minAssemblerWindow else raised
    ({ window with limit := limit }, limit)

end AssemblerWindow

/-- What a connection keeps of the objects it receives; `maxFecObjectSize` is negotiated. -/
structure Receiver where
  maxFecObjectSize : Nat
  pool : AssemblerPool := {}
  assemblerIndex : Nat := 0
  window : AssemblerWindow := {}
  completed : CompletedRing := {}

/-- The surroundings of one datagram: the generation of its subscription and whether its
object counts as delivered there, the round-trip times, the clock, whether buffers and the
object's copy can be allocated, what the decoder recovers, which slots the application's
answers to the loss of an object and to a delivery release, and whether the subscription
outlives the former. -/
structure ReceptionEnv where
  generation : Nat
  wasDelivered : Bool
  rttsMs : List Nat
  nowMs : Nat
  allocates : Bool
  lossReleases : List (Fin hardMaxAssemblers)
  resumes : Bool
  recovered : Option (List Bytes)
  allocatesObject : Bool
  deliveryReleases : List (Fin hardMaxAssemblers)

/-- A connection's receiver at work, and the account its assemblers are charged to. -/
structure Reception where
  receiver : Receiver
  memory : AssemblerMemory

namespace Reception

def store (s : Reception) : AssemblerStore where
  pool := s.receiver.pool
  memory := s.memory

def slot (s : Reception) (index : Nat) : AssemblerSlot := s.receiver.pool.slot index

def withStore (s : Reception) (store : AssemblerStore) : Reception where
  receiver := { s.receiver with pool := store.pool }
  memory := store.memory

def releaseAll (s : Reception) (indices : List Nat) : Reception :=
  s.withStore (s.store.releaseAll indices)

def withWindow (s : Reception) (window : AssemblerWindow) (assemblerIndex : Nat) : Reception where
  receiver := { s.receiver with window := window, assemblerIndex := assemblerIndex }
  memory := s.memory

def noteCompleted (s : Reception) (completed : CompletedObject) : Reception where
  receiver := { s.receiver with completed := s.receiver.completed.push completed }
  memory := s.memory

/-- Note the object as completed and hand it out. -/
def completeObject (s : Reception) (env : ReceptionEnv) (header : FecHeader) (index : Nat) :
    Reception :=
  let noted := s.noteCompleted
    { generation := env.generation
      trackAlias := header.trackAlias
      groupId := header.groupId
      objectId := header.objectId }
  (noted.releaseAll (env.deliveryReleases.map Fin.val)).releaseAll [index]

/-- Deliver the object, once enough symbols are there to decode. -/
def deliver (s : Reception) (env : ReceptionEnv) (header : FecHeader) (index : Nat) :
    Reception :=
  if (s.slot index).receivedCount < (s.slot index).dataSymbols then
    s
  else if (List.range (s.slot index).dataSymbols).all (s.slot index).received then
    if env.allocatesObject then s.completeObject env header index else s
  else if (s.slot index).totalSymbols ≤ (s.slot index).dataSymbols then
    s
  else
    match env.recovered with
    | none => s
    | some recovered =>
        let filled := s.withStore (s.store.updateSlot index (·.fillMissing recovered))
        if env.allocatesObject then filled.completeObject env header index else filled

/-- Store the symbol in the slot of its object and deliver the object if it is complete. -/
def assemble (s : Reception) (env : ReceptionEnv) (datagram : Datagram) (index : Nat) :
    Reception :=
  let header := datagram.header
  match s.store.enlarge index header.totalSymbols header.symbolSize env.allocates with
  | (store, false) => s.withStore store
  | (store, true) =>
      if (store.pool.slot index).totalSymbols ≤ header.symbolIndex then
        s.withStore store
      else
        let stored := store.updateSlot index
          (·.storeSymbol header.symbolIndex datagram.symbol env.nowMs)
        (s.withStore stored).deliver env header index

/-- The slot a new object of the header takes. -/
def selected (s : Reception) (cap : Nat) (env : ReceptionEnv) (header : FecHeader) : Nat :=
  let limit :=
    (s.receiver.window.resize cap env.rttsMs header.totalSymbols header.symbolSize).2
  s.receiver.pool.selectSlot s.receiver.assemblerIndex limit (List.range limit)
    (s.receiver.assemblerIndex % limit)

/-- Take a slot for a new object, losing the object that held it. -/
def openAssembler (s : Reception) (cap : Nat) (env : ReceptionEnv) (header : FecHeader) :
    Reception × Option Nat :=
  let resized := s.receiver.window.resize cap env.rttsMs header.totalSymbols header.symbolSize
  let selected := s.selected cap env header
  let moved := s.withWindow resized.1 ((selected + 1) % resized.2)
  let lost := (s.slot selected).live
  let told := if lost then moved.releaseAll (env.lossReleases.map Fin.val) else moved
  if lost && !env.resumes then
    (told, none)
  else
    match told.store.openSlot selected header env.nowMs env.allocates with
    | (store, true) => (told.withStore store, some selected)
    | (store, false) => (told.withStore store, none)

/-- Envelope checks of an FEC datagram. -/
def datagramValid (maxFecObjectSize : Nat) (datagram : Datagram) : Bool :=
  let header := datagram.header
  0 < header.totalSymbols && header.totalSymbols ≤ fecMaxTotalSymbols &&
    0 < header.symbolSize && header.symbolSize ≤ fecMaxSymbolSize &&
    0 < header.dataSymbols && header.dataSymbols ≤ header.totalSymbols &&
    header.symbolIndex < header.totalSymbols &&
    header.originalSize ≤ maxFecObjectSize &&
    header.originalSize ≤ header.dataSymbols * header.symbolSize &&
    0 < header.originalSize && datagram.symbol.length == header.symbolSize

theorem datagramValid_eq (c : Conn) (datagram : Datagram) :
    datagramValid c.negotiatedLimits.maxFecObjectSize datagram = c.datagramValid datagram :=
  rfl

/-- The second half of `on_receive_datagram_frame`. -/
def receiveDatagram (s : Reception) (cap : Nat) (env : ReceptionEnv) (datagram : Datagram) :
    Reception :=
  let header := datagram.header
  if !datagramValid s.receiver.maxFecObjectSize datagram then
    s
  else
    let observed := s.withWindow
      (s.receiver.window.observeReceive header.symbolSize env.nowMs) s.receiver.assemblerIndex
    if observed.receiver.completed.isDuplicate header.trackAlias env.generation header.groupId
        header.objectId || env.wasDelivered then
      observed
    else
      match observed.receiver.pool.findAssembler header.trackAlias header.groupId
          header.objectId with
      | some index =>
          let slot := observed.slot index
          if slot.symbolSize ≠ header.symbolSize ∨ slot.dataSymbols ≠ header.dataSymbols ∨
              slot.originalSize ≠ header.originalSize then
            observed
          else
            observed.assemble env datagram index
      | none =>
          match observed.openAssembler cap env header with
          | (opened, none) => opened
          | (opened, some index) => opened.assemble env datagram index

end Reception

/-- Release the slots that a sweep over the connection's assemblers picks. -/
def Reception.releaseWhere (s : Reception) (cap : Nat) (picks : AssemblerSlot → Bool) :
    Reception :=
  s.releaseAll ((List.range cap).filter fun index => picks (s.slot index))

/-- The limits of an endpoint as they are once configured. -/
structure AssemblerLimits where
  maxAssemblers : Nat
  maxMemoryBytes : Nat
  positive : 0 < maxAssemblers
  le_hardMax : maxAssemblers ≤ hardMaxAssemblers

/-- The receivers of an endpoint and their common account; see `AssemblerMemory`. -/
structure ReceptionEndpoint where
  limits : AssemblerLimits
  receivers : List Receiver := []
  bytes : Nat := 0
  resourceLimitErrors : Nat := 0
  peak : Nat := 0

inductive ReceptionOp where
  | connect (maxFecObjectSize : Nat)
  | datagram (conn : Nat) (env : ReceptionEnv) (datagram : Datagram)
  /-- A checkpoint ACK retires what it covers. -/
  | retire (conn : Nat) (a : TrackAlias) (groupId finalObjectId : Nat)
  | unsubscribe (conn : Nat) (a : TrackAlias)
  | expire (conn : Nat) (nowMs timeoutMs : Nat)
  | disconnect (conn : Nat)

namespace ReceptionEndpoint

def heldBytes (e : ReceptionEndpoint) : Nat :=
  Totals.total (fun receiver => receiver.pool.capacityBytes) e.receivers

/-- One connection at work on the common account. -/
def focus (e : ReceptionEndpoint) (receiver : Receiver) : Reception where
  receiver := receiver
  memory :=
    { maxBytes := e.limits.maxMemoryBytes
      bytes := e.bytes
      resourceLimitErrors := e.resourceLimitErrors
      elsewhere := e.heldBytes - receiver.pool.capacityBytes
      peak := e.peak }

def settle (e : ReceptionEndpoint) (conn : Nat) (s : Reception) : ReceptionEndpoint :=
  { e with
    receivers := e.receivers.set conn s.receiver
    bytes := s.memory.bytes
    resourceLimitErrors := s.memory.resourceLimitErrors
    peak := s.memory.peak }

def update (e : ReceptionEndpoint) (conn : Nat) (work : Reception → Reception) :
    ReceptionEndpoint :=
  match e.receivers[conn]? with
  | none => e
  | some receiver => e.settle conn (work (e.focus receiver))

def step (e : ReceptionEndpoint) : ReceptionOp → ReceptionEndpoint
  | .connect maxFecObjectSize =>
      { e with receivers := e.receivers ++ [{ maxFecObjectSize := maxFecObjectSize }] }
  | .datagram conn env datagram =>
      e.update conn (·.receiveDatagram e.limits.maxAssemblers env datagram)
  | .retire conn a groupId finalObjectId =>
      e.update conn (·.releaseWhere e.limits.maxAssemblers fun slot =>
        slot.live && slot.trackAlias == a && slot.groupId == groupId &&
          slot.objectId ≤ finalObjectId)
  | .unsubscribe conn a =>
      e.update conn (·.releaseWhere e.limits.maxAssemblers fun slot =>
        slot.live && slot.trackAlias == a)
  | .expire conn nowMs timeoutMs =>
      e.update conn (·.releaseWhere e.limits.maxAssemblers fun slot =>
        slot.live && slot.lastActivity + timeoutMs ≤ nowMs)
  | .disconnect conn =>
      let released := e.update conn (·.releaseWhere e.limits.maxAssemblers fun _ => true)
      { released with receivers := released.receivers.eraseIdx conn }

end ReceptionEndpoint

end Qlinq
