import Qlinq.Lib.Compaction
import Qlinq.Scheduler

namespace Qlinq

open Compaction (live shiftDown)

/-! The path slots of a transport: one bound UDP socket each, with the records
every connection keeps under the slot's index. -/

inductive AddressFamily
  | inet
  | inet6
  deriving DecidableEq, Repr

inductive SockAddr
  | inet (host : BitVec 32) (port : UInt16)
  | inet6 (host : BitVec 128) (port : UInt16)
  deriving DecidableEq, Repr

namespace SockAddr

def family : SockAddr → AddressFamily
  | inet _ _ => .inet
  | inet6 _ _ => .inet6

def port : SockAddr → UInt16
  | inet _ port => port
  | inet6 _ port => port

def withPort : SockAddr → UInt16 → SockAddr
  | inet host _, port => inet host port
  | inet6 host _, port => inet6 host port

/-- The comparison of two addresses, ports aside. -/
def sameHost : SockAddr → SockAddr → Bool
  | inet a _, inet b _ => a = b
  | inet6 a _, inet6 b _ => a = b
  | _, _ => false

end SockAddr

structure PathMeasurement where
  startedMs : Nat := 0
  rateAtMs : Nat := 0
  quicPath : Nat := 0
  deliveredBytesPerSecond : Nat := 0
  probeRates : List Nat := [0, 0, 0, 0]
  probeTimes : List Nat := [0, 0, 0, 0]
  probeCursor : Nat := 0
  minimumRtt : Nat := 0
  initialized : Bool := false
  busy : Bool := false
  deriving DecidableEq, Repr

/-- What a connection keeps for one path slot. -/
structure PathRecord where
  pathState : PathState := ⟨false, 0, 0, 0, 0⟩
  pathMeasurement : PathMeasurement := {}
  pathBudget : PathBudget := ⟨0, 0⟩
  budgetAtNs : Nat := 0
  minOwdNs : Int := 0
  owdInitialized : Bool := false
  telemetryPath : Nat := 0
  latestOwd : Fixed := 0
  lastTelemetrySNs : Nat := 0
  lastTelemetryRNs : Nat := 0
  pathStateOverridden : Bool := false
  deriving DecidableEq, Repr

structure PathConn where
  quicReady : Bool := false
  records : Nat → PathRecord := fun _ => {}
  admissionRetryAtNs : Nat := 0

structure TransportEgress where
  capacity : Nat := 0
  maxBytes : Nat := 0
  packets : List (List UInt8) := []
  deriving DecidableEq, Repr

/-- An entry of the slot arrays; `localAddr` is `none` in a cleared one, and a
`localRemoteIndex` of `none` is `SIZE_MAX`. -/
structure PathSlot where
  fd : Int := -1
  localAddr : Option SockAddr := none
  localIfindex : UInt32 := 0
  localIfname : List UInt8 := []
  udpBytesReceived : Nat := 0
  egress : TransportEgress := {}
  localRemoteIndex : Option Nat := none
  pathOpenPending : Bool := false
  pathOpenRetryAt : Nat := 0
  deriving DecidableEq, Repr

/-- The part of `transport_t` that holds its paths. -/
structure Paths where
  isServer : Bool
  remoteAddrs : List SockAddr
  pathInterfaceNames : List (List UInt8)
  maxEgressPackets : Nat
  maxEgressBytes : Nat
  slots : Nat → PathSlot
  numFds : Nat
  /-- The server's connections, or the client's one. -/
  conns : List PathConn
  capped : numFds ≤ transportMaxPaths
  bound : ∀ i < numFds, (slots i).localAddr.isSome

/-- A message of the interface monitor's pipe; an address of family
`AF_UNSPEC` is `none`. -/
structure IfmonMessage where
  index : UInt32
  name : List UInt8
  addr : Option SockAddr
  isAdded : Bool
  deriving DecidableEq, Repr

namespace Paths

def localSlots (t : Paths) : List PathSlot := live t.numFds t.slots

def pathEndpointFamiliesMatch (t : Paths) (localIndex remoteIndex : Nat) : Bool :=
  localIndex < t.numFds ∧ remoteIndex < t.remoteAddrs.length ∧
    (t.slots localIndex).localAddr.map SockAddr.family =
      t.remoteAddrs[remoteIndex]?.map SockAddr.family

def pathInterfaceAllowed (t : Paths) (name : List UInt8) : Bool :=
  t.pathInterfaceNames = [] ∨ name ∈ t.pathInterfaceNames

/-- `remove_connection_physical_slot`, for one connection of a transport with
`numFds` slots. -/
def removeConnectionPhysicalSlot (numFds removedIndex : Nat) (conn : PathConn) : PathConn :=
  { conn with
    records := Function.update (shiftDown removedIndex (numFds - 1) conn.records)
      (numFds - 1) {}
    admissionRetryAtNs := 0 }

/-- Whether another slot than `localIndex` is assigned the remote. -/
def assigned (t : Paths) (localIndex remoteIndex : Nat) : Bool :=
  (List.range t.numFds).any fun i =>
    i ≠ localIndex ∧ (t.slots i).localRemoteIndex = some remoteIndex

def selectRemoteForAddedLocal (t : Paths) (localIndex : Nat) : Option Nat :=
  if t.remoteAddrs.length = 0 then
    none
  else if t.remoteAddrs.length = 1 then
    if t.pathEndpointFamiliesMatch localIndex 0 then some 0 else none
  else
    (List.range t.remoteAddrs.length).find? fun remoteIndex =>
      t.pathEndpointFamiliesMatch localIndex remoteIndex ∧
        !t.assigned localIndex remoteIndex

/-! `transport_tick`: an address was added. -/

def isDuplicate (t : Paths) (addr : SockAddr) : Bool :=
  t.localSlots.any fun slot => slot.localAddr.any (SockAddr.sameHost addr)

/-- A server's later sockets take the port of its first slot. -/
def bindPort (t : Paths) : UInt16 :=
  if t.isServer then
    match (t.slots 0).localAddr with
    | some addr => addr.port
    | none => 0
  else
    0

/-- Writes the slot after the last and counts it. -/
def appendSlot (t : Paths) (hroom : t.numFds < transportMaxPaths) (message : IfmonMessage)
    (addr : SockAddr) (fd : Int) : Paths :=
  { t with
    slots := Function.update t.slots t.numFds
      { t.slots t.numFds with
        egress := { capacity := t.maxEgressPackets, maxBytes := t.maxEgressBytes }
        fd := fd
        localAddr := some (addr.withPort t.bindPort)
        localIfindex := message.index
        localIfname := message.name }
    numFds := t.numFds + 1
    capped := hroom
    bound := by
      intro i hi
      rcases Nat.lt_succ_iff_lt_or_eq.mp hi with hlive | rfl
      · rw [Function.update_of_ne (by omega)]
        exact t.bound i hlive
      · simp }

/-- Takes the last slot back when no remote endpoint is left for it. -/
def rollbackSlot (t : Paths) : Paths :=
  { t with
    slots := Function.update t.slots (t.numFds - 1)
      { t.slots (t.numFds - 1) with
        egress := {}
        fd := -1
        localAddr := none
        localIfindex := 0
        localIfname := [] }
    numFds := t.numFds - 1
    capped := by have := t.capped; omega
    bound := by
      intro i hi
      rw [Function.update_of_ne (by omega)]
      exact t.bound i (by omega) }

/-- Writes one slot, its address aside. -/
def modifySlot (t : Paths) (i : Nat) (update : PathSlot → PathSlot)
    (hkeeps : ∀ slot, (update slot).localAddr = slot.localAddr) : Paths :=
  { t with
    slots := Function.update t.slots i (update (t.slots i))
    bound := by
      intro k hk
      rw [Function.update_apply]
      split
      · next hsame =>
        rw [hkeeps]
        exact t.bound i (hsame ▸ hk)
      · exact t.bound k hk }

def assignRemote (t : Paths) (localIndex remoteIndex : Nat) : Paths :=
  t.modifySlot localIndex
    (fun slot => { slot with
      localRemoteIndex := some remoteIndex
      pathOpenPending := true })
    fun _ => rfl

/-- `opened` is the new socket, or `none` when it could not be opened, bound,
made nonblocking or given an egress queue. -/
def addressAdded (t : Paths) (message : IfmonMessage) (opened : Option Int) : Paths :=
  match message.addr, opened with
  | some addr, some fd =>
      if hroom : t.pathInterfaceAllowed message.name ∧ t.numFds < transportMaxPaths ∧
          t.isDuplicate addr = false then
        let extended := t.appendSlot hroom.2.1 message addr fd
        if t.isServer then
          extended
        else
          match extended.selectRemoteForAddedLocal t.numFds with
          | none => extended.rollbackSlot
          | some remoteIndex => extended.assignRemote t.numFds remoteIndex
      else
        t
  | _, _ => t

/-! `transport_tick`: an address or an interface was removed. -/

/-- A message without an address names an interface. -/
def removalMatches (message : IfmonMessage) (slot : PathSlot) : Bool :=
  match message.addr with
  | none => slot.localIfindex == message.index || slot.localAddr.isNone
  | some addr => slot.localAddr.any (SockAddr.sameHost addr)

/-- The entry that falls free keeps its descriptor, address and interface
index. -/
def freedSlot (slot : PathSlot) : PathSlot :=
  { slot with
    localIfname := []
    udpBytesReceived := 0
    egress := {}
    localRemoteIndex := none
    pathOpenPending := false
    pathOpenRetryAt := 0 }

/-- Closes the slot's socket and moves the slots above it down. -/
def closeSlot (t : Paths) (i : Nat) : Paths :=
  { t with
    slots := Function.update (shiftDown i (t.numFds - 1) t.slots) (t.numFds - 1)
      (freedSlot (shiftDown i (t.numFds - 1) t.slots (t.numFds - 1)))
    numFds := t.numFds - 1
    conns := t.conns.map (removeConnectionPhysicalSlot t.numFds i)
    capped := by have := t.capped; omega
    bound := by
      intro k hk
      rw [Function.update_of_ne (by omega), Compaction.shiftDown_apply]
      split
      · exact t.bound (k + 1) (by omega)
      · exact t.bound k (by omega) }

/-- The search stops at the first slot that matches. -/
def addressRemoved (t : Paths) (message : IfmonMessage) : Paths :=
  match t.localSlots.findIdx? (removalMatches message) with
  | none => t
  | some i => t.closeSlot i

def onIfmonMessage (t : Paths) (message : IfmonMessage) (opened : Option Int) : Paths :=
  if message.isAdded then t.addressAdded message opened else t.addressRemoved message

end Paths

end Qlinq
