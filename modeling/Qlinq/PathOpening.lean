import Qlinq.Lib.Machine
import Qlinq.Paths

namespace Qlinq

/-! QUIC paths over the slots: the client's connections, its deferred path
openings, and the transport's creation. -/

/-- A QUIC path the client opened: the local slot as it was then, and the
remote endpoint it was paired with. -/
structure Opening where
  slot : PathSlot
  remoteIndex : Nat
  deriving DecidableEq, Repr

/-- The answer of `quicly_open_path`; `ignored` is `QUICLY_ERROR_PACKET_IGNORED`. -/
inductive OpenPathResult
  | opened
  | ignored
  | failed
  deriving DecidableEq, Repr

/-- What the QUIC library says of one slot: whether the connection has a path
between the two addresses, and whether one can be opened. -/
structure PathAttempt where
  known : Bool
  result : OpenPathResult
  deriving DecidableEq, Repr

def pathOpenRetryMs : Nat := 100

namespace Paths

def clearPending (t : Paths) (i : Nat) : Paths :=
  t.modifySlot i (fun slot => { slot with pathOpenPending := false }) fun _ => rfl

def retryLater (t : Paths) (now i : Nat) : Paths :=
  t.modifySlot i (fun slot => { slot with pathOpenRetryAt := now + pathOpenRetryMs }) fun _ => rfl

/-- One turn of the loop of `try_open_pending_paths`. -/
def tryOpenPendingPath (now : Nat) (attempt : Nat → PathAttempt)
    (state : Paths × List Opening) (i : Nat) : Paths × List Opening :=
  let t := state.1
  let slot := t.slots i
  if slot.pathOpenPending = false ∨ now < slot.pathOpenRetryAt then
    state
  else
    match slot.localRemoteIndex with
    | none => (t.clearPending i, state.2)
    | some remoteIndex =>
        if t.pathEndpointFamiliesMatch i remoteIndex = false ∨ (attempt i).known then
          (t.clearPending i, state.2)
        else
          match (attempt i).result with
          | .opened => (t.clearPending i, state.2 ++ [⟨slot, remoteIndex⟩])
          | .ignored => (t.retryLater now i, state.2)
          | .failed => (t.clearPending i, state.2)

def tryOpenPendingPaths (now : Nat) (attempt : Nat → PathAttempt)
    (state : Paths × List Opening) : Paths × List Opening :=
  if state.1.isServer ∨ state.1.conns.all (fun conn => !conn.quicReady) then
    state
  else
    (List.range state.1.numFds).foldl (tryOpenPendingPath now attempt) state

/-- The slots after the first wait for the handshake. -/
def deferPaths (t : Paths) : Paths :=
  { t with
    slots := fun i =>
      if 1 ≤ i ∧ i < t.numFds then
        { t.slots i with pathOpenPending := true, pathOpenRetryAt := 0 }
      else
        t.slots i
    bound := by
      intro i hi
      have := t.bound i hi
      split <;> exact this }

/-- `connected` says whether the QUIC connection and its control stream came
about.  The connection's first path joins the first slot to the first remote
endpoint. -/
def startClientConnection (t : Paths) (connected : Bool) : Option (Paths × Opening) :=
  if t.isServer ∨ t.remoteAddrs.length = 0 ∨ t.numFds = 0 ∨ t.conns ≠ [] ∨
      connected = false then
    none
  else
    some ({ t.deferPaths with conns := [{}] }, { slot := t.slots 0, remoteIndex := 0 })

/-- The client's connection is ready for streams. -/
def connectionReady (t : Paths) : Paths :=
  { t with conns := t.conns.map fun conn => { conn with quicReady := true } }

def connectionFreed (t : Paths) : Paths := { t with conns := [] }

end Paths

/-! `transport_create`. -/

structure PathConfig where
  bindAddrs : List SockAddr
  remoteAddrs : List SockAddr
  pathInterfaceNames : List (List UInt8) := []
  port : UInt16
  maxEgressPackets : Nat := 1024
  maxEgressBytes : Nat := 2 * 1024 * 1024
  deriving DecidableEq, Repr

/-- What the system says at creation: the socket of each bind host, the
interface that has an address, and whether the first connection came about. -/
structure CreateEnv where
  socket : Nat → Option Int
  interfaceOf : SockAddr → Option (UInt32 × List UInt8)
  connected : Bool

namespace PathConfig

def isServer (config : PathConfig) : Bool := config.remoteAddrs.length = 0

/-- A bind host's slot; a client's socket takes any port. -/
def configuredSlot (config : PathConfig) (env : CreateEnv) (i : Nat) (host : SockAddr) :
    PathSlot :=
  let addr := host.withPort (if config.isServer then config.port else 0)
  { fd := (env.socket i).getD (-1)
    localAddr := some addr
    localIfindex := ((env.interfaceOf addr).map Prod.fst).getD 0
    localIfname := ((env.interfaceOf addr).map Prod.snd).getD []
    egress := { capacity := config.maxEgressPackets, maxBytes := config.maxEgressBytes } }

def bindPaths (config : PathConfig) (env : CreateEnv)
    (hcapped : config.bindAddrs.length ≤ transportMaxPaths) : Paths where
  isServer := config.isServer
  remoteAddrs := config.remoteAddrs.map fun addr => addr.withPort config.port
  pathInterfaceNames := config.pathInterfaceNames
  maxEgressPackets := config.maxEgressPackets
  maxEgressBytes := config.maxEgressBytes
  slots := fun i =>
    match config.bindAddrs[i]? with
    | some host => config.configuredSlot env i host
    | none => {}
  numFds := config.bindAddrs.length
  conns := []
  capped := hcapped
  bound := by
    intro i hi
    rw [List.getElem?_eq_getElem hi]
    rfl

end PathConfig

namespace Paths

def configuredRemote (t : Paths) (i : Nat) : Nat :=
  if t.remoteAddrs.length = 1 then 0 else i

/-- Gives every configured slot its remote endpoint, if the families agree. -/
def assignConfigured (t : Paths) : Option Paths :=
  if ∀ i < t.numFds, t.pathEndpointFamiliesMatch i (t.configuredRemote i) = true then
    some
      { t with
        slots := fun i =>
          if i < t.numFds then
            { t.slots i with localRemoteIndex := some (t.configuredRemote i) }
          else
            t.slots i
        bound := by
          intro i hi
          have := t.bound i hi
          split <;> exact this }
  else
    none

def create (config : PathConfig) (env : CreateEnv) : Option (Paths × List Opening) :=
  if hvalid : config.port ≠ 0 ∧ config.bindAddrs.length ≠ 0 ∧
      config.bindAddrs.length ≤ transportMaxPaths ∧
      config.pathInterfaceNames.length ≤ transportMaxPaths ∧
      config.remoteAddrs.length ≤ transportMaxPaths ∧
      ∀ i < config.bindAddrs.length, (env.socket i).isSome then
    let t := config.bindPaths env hvalid.2.2.1
    if t.isServer then
      some (t, [])
    else if 1 < t.remoteAddrs.length ∧ t.remoteAddrs.length < t.numFds then
      none
    else
      match t.assignConfigured with
      | none => none
      | some t =>
          match t.startClientConnection env.connected with
          | none => none
          | some (t, opening) => some (t, [opening])
  else
    none

/-! Runs of a client. -/

inductive Op
  | ifmon (message : IfmonMessage) (opened : Option Int)
  | start (connected : Bool)
  | ready
  | tryOpen (now : Nat) (attempt : Nat → PathAttempt)
  | freed

def apply (state : Paths × List Opening) : Op → Paths × List Opening
  | .ifmon message opened => (state.1.onIfmonMessage message opened, state.2)
  | .start connected =>
      match state.1.startClientConnection connected with
      | none => state
      | some (t, opening) => (t, state.2 ++ [opening])
  | .ready => (state.1.connectionReady, state.2)
  | .tryOpen now attempt => tryOpenPendingPaths now attempt state
  | .freed => (state.1.connectionFreed, state.2)

end Paths

end Qlinq
