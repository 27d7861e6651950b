import Qlinq.Config
import Qlinq.Datagram
import Qlinq.Lib.BigEndian
import Qlinq.Lib.Machine

namespace Qlinq

/-! Records from local clients: a client's registration and its frames are read
in whatever pieces the socket gives, and each whole record is offered to the
callback until it is taken. -/

def maxUdsClients : Nat := 16

def udsFrameHeaderSize : Nat := 5

def udsMaxNameLen : Nat := 63

/-- The client's end of a connection: the bytes that wait in the socket, and
whether no more will come. -/
structure UdsSocket where
  unread : Bytes := []
  ended : Bool := false
  deriving DecidableEq, Repr

/-- The outcome of one `socket_read`; `upTo n` returns at most `n + 1` bytes. -/
inductive ReadOutcome
  | upTo (n : Nat)
  | interrupted
  | wouldBlock
  | failed
  deriving DecidableEq, Repr

/-- Why `read_nonblocking` came back: 1, 0, and the two ways to -1. -/
inductive ReadCode
  | filled
  | later
  | ended
  | failed
  deriving DecidableEq, Repr

structure ReadResult where
  buffer : Bytes
  code : ReadCode
  socket : UdsSocket
  reads : List ReadOutcome
  deriving DecidableEq, Repr

/-- Where the script of reads ends the socket has nothing more for now. -/
def readNonblocking (needed : Nat) : List ReadOutcome → Bytes → UdsSocket → ReadResult
  | [], buffer, socket =>
      ⟨buffer, if needed ≤ buffer.length then .filled else .later, socket, []⟩
  | outcome :: reads, buffer, socket =>
      if needed ≤ buffer.length then
        ⟨buffer, .filled, socket, outcome :: reads⟩
      else
        match outcome with
        | .interrupted => readNonblocking needed reads buffer socket
        | .wouldBlock => ⟨buffer, .later, socket, reads⟩
        | .failed => ⟨buffer, .failed, socket, reads⟩
        | .upTo n =>
            if socket.unread = [] then
              ⟨buffer, if socket.ended then .ended else .later, socket, reads⟩
            else
              let count := min (n + 1) (needed - buffer.length)
              readNonblocking needed reads (buffer ++ socket.unread.take count)
                { socket with unread := socket.unread.drop count }

/-! What the callback is offered. -/

inductive UdsResult
  | accepted
  | retry
  | fatal
  deriving DecidableEq, Repr

structure UdsRecord where
  trackId : TrackId
  data : Bytes
  priority : UInt8
  id : Nat
  deriving DecidableEq, Repr

/-- The callback's result with the progress it left in the record; `handed`
lists the transports it gave the record to, and what they said. -/
structure UdsAnswer where
  result : UdsResult
  progress : Nat
  handed : List (Nat × PublishResult) := []
  deriving DecidableEq, Repr

structure UdsOffer where
  record : UdsRecord
  progress : Nat
  answer : UdsAnswer
  deriving DecidableEq, Repr

/-! `process_client_input`. -/

structure UdsClient where
  registered : Bool := false
  registration : Bytes := []
  registrationNeeded : Nat := 3
  trackId : TrackId := { type := .video, flags := 0, name := [] }
  frameHeader : Bytes := []
  payloadSize : Nat := 0
  priority : UInt8 := 0
  payload : Bytes := []
  payloadCapacity : Nat := 0
  pendingRecord : Bool := false
  recordId : Nat := 0
  progress : Nat := 0
  deriving DecidableEq, Repr

inductive CloseReason
  | ended
  | failed
  | invalid
  | fatal
  deriving DecidableEq, Repr

/-- How a call of `process_client_input` ends: with 0, or with -1. -/
inductive InputStop
  | idle
  | closed (reason : CloseReason)
  deriving DecidableEq, Repr

/-- What one call works on; `offers` is the log of the connection. -/
structure InputState where
  client : UdsClient
  socket : UdsSocket
  reads : List ReadOutcome
  nextRecordId : Nat
  offers : List UdsOffer
  deriving DecidableEq, Repr

/-- What the rest of the program answers in each of a call's turns. -/
structure InputEnv where
  ready : Nat → TrackId → Bool
  allocated : Nat → Bool
  answer : Nat → UdsRecord → Nat → UdsAnswer

def validTrackRegistration (type flags : UInt8) : Bool :=
  trackTypeValid type ∧ flags &&& ~~~(flagReliable ||| flagFecEnabled ||| flagFecRateless) = 0

def registrationNameLen (registration : Bytes) : Nat := (registration.getD 2 0).toNat

def registrationAccepted (registration : Bytes) : Bool :=
  registrationNameLen registration ≤ udsMaxNameLen ∧
    validTrackRegistration (registration.getD 0 0) (registration.getD 1 0)

def registrationTrack (registration : Bytes) : TrackId where
  type := (TrackType.ofCode? (registration.getD 0 0)).getD .video
  flags := registration.getD 1 0
  name := ((registration.drop 3).take (registrationNameLen registration)).takeWhile (· ≠ 0)

/-- The four bytes of a `uint32_t` as a little-endian host stores them. -/
def hostU32 (bytes : Bytes) : Nat := BigEndian.ofBytes bytes.reverse

def udsMaxPayload (trackId : TrackId) : Nat :=
  if trackId.flags &&& flagReliable ≠ 0 then maxReliableObjectSize else maxFecRecordSize

namespace UdsClient

def record (client : UdsClient) : UdsRecord where
  trackId := client.trackId
  data := client.payload
  priority := client.priority
  id := client.recordId

def setRegistration (client : UdsClient) (buffer : Bytes) (needed : Nat) : UdsClient :=
  { client with registration := buffer, registrationNeeded := needed }

def register (client : UdsClient) : UdsClient :=
  { client with trackId := registrationTrack client.registration, registered := true }

def setHeader (client : UdsClient) (buffer : Bytes) : UdsClient :=
  { client with frameHeader := buffer }

def parseHeader (client : UdsClient) : UdsClient :=
  { client with
    payloadSize := hostU32 (client.frameHeader.take 4)
    priority := client.frameHeader.getD 4 0 }

def setCapacity (client : UdsClient) (capacity : Nat) : UdsClient :=
  { client with payloadCapacity := capacity }

def setPayload (client : UdsClient) (buffer : Bytes) : UdsClient :=
  { client with payload := buffer }

/-- A record gets its id when it is first whole. -/
def begin (client : UdsClient) (id : Nat) : UdsClient :=
  { client with pendingRecord := true, recordId := id, progress := 0 }

def setProgress (client : UdsClient) (progress : Nat) : UdsClient :=
  { client with progress := progress }

/-- The buffers are free for the next record. -/
def consumed (client : UdsClient) : UdsClient :=
  { client with pendingRecord := false, frameHeader := [], payloadSize := 0, payload := [] }

end UdsClient

namespace InputState

/-- A turn goes on, or ends the call. -/
abbrev Turn := Except (InputState × InputStop) InputState

def setClient (s : InputState) (client : UdsClient) : InputState :=
  { s with client := client }

/-- The state behind a read. -/
def reading (s : InputState) (client : UdsClient) (read : ReadResult) : InputState :=
  { s with client := client, socket := read.socket, reads := read.reads }

/-- A read that did not fill its buffer ends the call. -/
def settle (s : InputState) : ReadCode → Turn
  | .later => .error (s, .idle)
  | .ended => .error (s, .closed .ended)
  | .failed => .error (s, .closed .failed)
  | .filled => .ok s

def registrationRead (s : InputState) : Turn :=
  let needed := if s.client.registrationNeeded = 0 then 3 else s.client.registrationNeeded
  let read := readNonblocking needed s.reads s.client.registration s.socket
  (s.reading (s.client.setRegistration read.buffer needed) read).settle read.code

/-- The first three bytes say how many follow. -/
def registrationParse (s : InputState) : Turn :=
  if s.client.registrationNeeded = 3 then
    if registrationAccepted s.client.registration = false then
      .error (s, .closed .invalid)
    else
      let needed := 3 + registrationNameLen s.client.registration
      let client := s.client.setRegistration s.client.registration needed
      if s.client.registration.length < needed then
        .ok (s.setClient client)
      else
        .ok (s.setClient client.register)
  else
    .ok (s.setClient s.client.register)

def headerRead (s : InputState) : Turn :=
  let read := readNonblocking udsFrameHeaderSize s.reads s.client.frameHeader s.socket
  (s.reading (s.client.setHeader read.buffer) read).settle read.code

def headerParse (allocated : Bool) (s : InputState) : Turn :=
  if s.client.payloadSize = 0 ∧ s.client.payload.length = 0 then
    let client := s.client.parseHeader
    if client.payloadSize = 0 ∨ udsMaxPayload client.trackId < client.payloadSize then
      .error (s.setClient client, .closed .invalid)
    else if client.payloadCapacity < client.payloadSize then
      if allocated then
        .ok (s.setClient (client.setCapacity client.payloadSize))
      else
        .error (s.setClient client, .closed .failed)
    else
      .ok (s.setClient client)
  else
    .ok s

def payloadRead (s : InputState) : Turn :=
  let read := readNonblocking s.client.payloadSize s.reads s.client.payload s.socket
  (s.reading (s.client.setPayload read.buffer) read).settle read.code

def beginRecord (s : InputState) : InputState :=
  if s.client.pendingRecord then
    s
  else
    { s with
      client := s.client.begin s.nextRecordId
      nextRecordId := (s.nextRecordId + 1) % 2 ^ 64 }

/-- The callback's answer goes to the log. -/
def logOffer (s : InputState) (given : UdsAnswer) : InputState :=
  { s with
    offers := s.offers ++ [⟨s.client.record, s.client.progress, given⟩]
    client := s.client.setProgress given.progress }

def offerRecord (answer : UdsRecord → Nat → UdsAnswer) (s : InputState) : Turn :=
  let given := answer s.client.record s.client.progress
  match given.result with
  | .retry => .error (s.logOffer given, .idle)
  | .fatal => .error (s.logOffer given, .closed .fatal)
  | .accepted => .ok ((s.logOffer given).setClient (s.logOffer given).client.consumed)

/-- One turn of the loop. -/
def turn (env : InputEnv) (frame : Nat) (s : InputState) : Turn :=
  if s.client.registered = false then
    s.registrationRead >>= registrationParse
  else if env.ready frame s.client.trackId = false then
    .error (s, .idle)
  else do
    let s ← s.headerRead
    let s ← s.headerParse (env.allocated frame)
    let s ← s.payloadRead
    s.beginRecord.offerRecord (env.answer frame)

def turns (env : InputEnv) : Nat → Nat → InputState → InputState × InputStop
  | 0, _, s => (s, .idle)
  | count + 1, frame, s =>
      match s.turn env frame with
      | .error stopped => stopped
      | .ok s => turns env count (frame + 1) s

end InputState

def processClientInput (env : InputEnv) (s : InputState) : InputState × InputStop :=
  s.turns env 64 0

/-! The callback of the daemon. -/

def maxTransports : Nat := 16

/-- The daemon's transports; a progress bit for each fits a `uint64_t`. -/
structure Daemon where
  numTransports : Nat
  present : Nat → Bool
  capped : numTransports ≤ maxTransports

namespace Daemon

def fanOut (d : Daemon) (publish : Nat → PublishResult) :
    List Nat → Bool → Nat → List (Nat × PublishResult) → UdsAnswer
  | [], blocked, progress, handed =>
      { result := if blocked then .retry else .accepted, progress, handed }
  | i :: rest, blocked, progress, handed =>
      if progress.testBit i ∨ d.present i = false then
        d.fanOut publish rest blocked progress handed
      else
        match publish i with
        | .delivered | .buffered | .noRecipients =>
            d.fanOut publish rest blocked (progress ||| 1 <<< i) (handed ++ [(i, publish i)])
        | .backpressure => d.fanOut publish rest true progress (handed ++ [(i, .backpressure)])
        | .partialDelivery | .invalid | .error =>
            { result := .fatal, progress, handed := handed ++ [(i, publish i)] }

/-- `publish` is what each transport says of the record. -/
def onDataPacket (d : Daemon) (publish : UdsRecord → Nat → PublishResult) (record : UdsRecord)
    (progress : Nat) : UdsAnswer :=
  d.fanOut (publish record) (List.range d.numTransports) false progress []

end Daemon

/-! The listener with its clients. -/

/-- A connection, with what its client has sent and how it was closed. -/
structure UdsSession where
  client : UdsClient := {}
  socket : UdsSocket := {}
  sent : Bytes := []
  offers : List UdsOffer := []
  closed : Option CloseReason := none
  deriving DecidableEq, Repr

namespace UdsSession

def input (session : UdsSession) (nextRecordId : Nat) (reads : List ReadOutcome) :
    InputState where
  client := session.client
  socket := session.socket
  reads := reads
  nextRecordId := nextRecordId
  offers := session.offers

def after (session : UdsSession) (s : InputState) (closed : Option CloseReason) : UdsSession :=
  { session with client := s.client, socket := s.socket, offers := s.offers, closed := closed }

end UdsSession

structure DataUds where
  nextRecordId : Nat := 0
  sessions : Nat → Option UdsSession := fun _ => none

namespace DataUds

inductive Op
  | accept (slot : Nat)
  | arrive (slot : Nat) (data : Bytes)
  | finish (slot : Nat)
  | process (slot : Nat) (reads : List ReadOutcome) (env : InputEnv)
  | close (slot : Nat)

def setSession (d : DataUds) (slot : Nat) (session : UdsSession) : DataUds :=
  { d with sessions := Function.update d.sessions slot (some session) }

def processSession (nextRecordId : Nat) (session : UdsSession) (reads : List ReadOutcome)
    (env : InputEnv) : UdsSession × Nat :=
  let (s, stop) := processClientInput env (session.input nextRecordId reads)
  match stop with
  | .idle => (session.after s none, s.nextRecordId)
  | .closed reason => (session.after s (some reason), s.nextRecordId)

/-- `data_uds_tick` accepts into a free slot, and processes and closes clients
in an order that the poll decides; a closed connection is left as it was. -/
def apply (d : DataUds) : Op → DataUds
  | .accept slot =>
      match d.sessions slot with
      | none => if slot < maxUdsClients then d.setSession slot {} else d
      | some session => if session.closed.isSome then d.setSession slot {} else d
  | .arrive slot data =>
      match d.sessions slot with
      | some session =>
          if session.closed.isSome ∨ session.socket.ended then
            d
          else
            d.setSession slot { session with
              sent := session.sent ++ data
              socket := { session.socket with unread := session.socket.unread ++ data } }
      | none => d
  | .finish slot =>
      match d.sessions slot with
      | some session =>
          if session.closed.isSome then
            d
          else
            d.setSession slot { session with socket := { session.socket with ended := true } }
      | none => d
  | .process slot reads env =>
      match d.sessions slot with
      | some session =>
          if session.closed.isSome then
            d
          else
            let (session, nextRecordId) := processSession d.nextRecordId session reads env
            { d.setSession slot session with nextRecordId := nextRecordId }
      | none => d
  | .close slot =>
      match d.sessions slot with
      | some session =>
          if session.closed.isSome then
            d
          else
            d.setSession slot { session with closed := some .failed }
      | none => d

def run (ops : List Op) : DataUds := Machine.run apply {} ops

end DataUds

end Qlinq
