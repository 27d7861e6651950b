import Qlinq.Streams

namespace Qlinq

/-! `qlinq_service`, which drives the transports of a context. -/

/-- The inner loop of `refresh_writable_events`; `ready` is `transport_is_track_ready`. -/
def refreshStreams (index : Nat) (callocs : Callocs) (ready : Nat → Bool) :
    List QlinqStream → EventList → List QlinqStream × EventList
  | [], events => ([], events)
  | stream :: rest, events =>
      let (seen, events) :=
        if stream.isPublishing then
          stream.refresh index callocs (ready stream.id) events
        else
          (stream, events)
      let (others, events) := refreshStreams index callocs ready rest events
      (seen :: others, events)

def QlinqStatus.isError : QlinqStatus → Bool
  | .ok => false
  | .again => false
  | .invalid => true
  | .state => true
  | .noMemory => true
  | .io => true
  | .resourceLimit => true

/-- How the poll ends: which endpoints have a socket that is ready, if any. -/
inductive PollResult where
  | failed
  | interrupted
  | expired
  | woke (ready : Nat → Bool)

/-- What a call of `qlinq_service` reads: the clock for each endpoint and its tick, what the
ticks report, which tracks are ready, the timers, and what the poll answers. -/
structure ServiceEnv where
  timeoutMs : Int
  checkMs : Nat → Int
  startMs : Nat → Int
  reports : Nat → List TransportReport
  callocs : Callocs
  ready : Nat → Nat → Bool
  allocates : Bool
  nowMs : Int
  firstTimeout : Nat → Int
  poll : Int → PollResult
  wakeMs : Int
  resumeMs : Nat → Int
  laterReports : Nat → List TransportReport
  laterCallocs : Callocs
  laterReady : Nat → Nat → Bool

def intMax : Int := 2 ^ 31 - 1

namespace Facade

/-- The endpoints in the order of the context's list. -/
def order (f : Facade) : List Nat := (List.range f.opened).reverse

def actives (f : Facade) : List Nat := f.order.filter f.isActive

def hasEvents (f : Facade) : Bool := f.context.events.list.head.isSome

/-- What `qlinq_service` returns for the status that its ticks and their events left. -/
def status (f : Facade) : QlinqStatus :=
  if f.context.events.lastStatus.isError then f.context.events.lastStatus else .ok

def refreshEndpoint (f : Facade) (callocs : Callocs) (ready : Nat → Nat → Bool) (index : Nat) :
    Facade :=
  if f.isActive index then
    let (streams, events) :=
      refreshStreams index callocs (ready index) (f.served index).streams f.context.events
    { f.change index fun e => { e with streams := streams } with
      context := { f.context with events := events } }
  else
    f

def refreshWritableEvents (f : Facade) (callocs : Callocs) (ready : Nat → Nat → Bool) : Facade :=
  f.order.foldl (fun f index => f.refreshEndpoint callocs ready index) f

/-- `service_endpoint`. -/
def serviceEndpoint (f : Facade) (index : Nat) (nowMs : Int) (reports : List TransportReport) :
    Facade :=
  reports.foldl (fun f report => f.onTransportEvent index report)
    (f.change index (·.startTick nowMs))

/-- An endpoint's turn before the poll. -/
def sweepEndpoint (f : Facade) (env : ServiceEnv) (index : Nat) : Facade :=
  if f.isActive index then
    if (f.served index).servicePending || (f.served index).lastServiceMs != env.checkMs index then
      f.serviceEndpoint index (env.startMs index) (env.reports index)
    else
      f
  else
    f

def sweep (f : Facade) (env : ServiceEnv) : Facade :=
  f.order.foldl (fun f index => f.sweepEndpoint env index) f

/-- The poll's arrays are made anew when there are more endpoints than ever. -/
def growPolls (f : Facade) (allocates : Bool) : Option Facade :=
  if f.pollEndpointCapacity < f.actives.length then
    if allocates then some { f with pollEndpointCapacity := f.actives.length } else none
  else
    some f

/-- How an endpoint's timer shortens the wait. -/
def waitFor (env : ServiceEnv) (waitMs : Int) (index : Nat) : Int :=
  let deadline := env.firstTimeout index
  if 0 ≤ deadline then
    let remaining := if deadline ≤ env.nowMs then 0 else deadline - env.nowMs
    let timerWait := if intMax < remaining then intMax else remaining
    if waitMs < 0 ∨ timerWait < waitMs then timerWait else waitMs
  else
    waitMs

def pollWait (f : Facade) (env : ServiceEnv) : Int :=
  f.actives.foldl (waitFor env) env.timeoutMs

/-- Whether an endpoint is serviced after the poll: nothing came in time, its timer is due or
one of its sockets ready. -/
def wakes (env : ServiceEnv) (polled : PollResult) (index : Nat) : Bool :=
  match polled with
  | .failed => false
  | .interrupted => false
  | .expired => true
  | .woke ready =>
      (0 ≤ env.firstTimeout index && env.firstTimeout index ≤ env.wakeMs) || ready index

def resumeEndpoint (f : Facade) (env : ServiceEnv) (polled : PollResult) (index : Nat) : Facade :=
  if f.isActive index && wakes env polled index then
    f.serviceEndpoint index (env.resumeMs index) (env.laterReports index)
  else
    f

def resume (f : Facade) (env : ServiceEnv) (polled : PollResult) : Facade :=
  f.order.foldl (fun f index => f.resumeEndpoint env polled index) f

/-- What follows the poll. -/
def awake (f : Facade) (env : ServiceEnv) (polled : PollResult) : Facade × QlinqStatus :=
  match polled with
  | .failed => (f.setStatus .io, .io)
  | .interrupted => (f.setStatus .again, .again)
  | _ =>
      let resumed := (f.resume env polled).refreshWritableEvents env.laterCallocs env.laterReady
      if resumed.context.events.lastStatus.isError then
        (resumed, resumed.status)
      else
        (resumed.setStatus .ok, .ok)

/-- `qlinq_service`. -/
def service (f : Facade) (env : ServiceEnv) : Facade × QlinqStatus :=
  if env.timeoutMs < -1 then
    (f, .invalid)
  else if f.hasEvents then
    (f, f.status)
  else
    let swept := ((f.setStatus .ok).sweep env).refreshWritableEvents env.callocs env.ready
    if swept.hasEvents then
      (swept, swept.status)
    else if swept.actives = [] then
      (swept.setStatus .state, .state)
    else
      match swept.growPolls env.allocates with
      | none => (swept.setStatus .noMemory, .noMemory)
      | some grown => grown.awake env (env.poll (grown.pollWait env))

/-! ### Runs of a context -/

inductive Op where
  | openEndpoint (listener : Bool) (sharedSecret : Bytes)
  | openStream (index : Nat) (profile : SubscribedStream) (direction : StreamDirection)
      (callocs : Callocs) (allocates : Bool) (subscribes : PeerState → Bool)
  | closeStream (index id : Nat)
  | closeEndpoint (index : Nat)
  | submitWork (index : Nat) (status : QlinqStatus)
  | sendRecord (index id : Nat) (answer : PublishResult)
  | service (env : ServiceEnv)
  | nextEvent
  | releaseEvent (address : Nat)

def apply (f : Facade) : Op → Facade
  | .openEndpoint listener sharedSecret => f.openEndpoint listener sharedSecret
  | .openStream index profile direction callocs allocates subscribes =>
      f.openStream callocs index profile direction allocates subscribes
  | .closeStream index id => f.closeStream index id
  | .closeEndpoint index => f.closeEndpoint index
  | .submitWork index status => f.submitWork index status
  | .sendRecord index id answer => (f.sendRecord index id answer).1
  | .service env => (f.service env).1
  | .nextEvent => { f with context := f.context.apply .nextEvent }
  | .releaseEvent address => { f with context := f.context.apply (.releaseEvent address) }

def create (limits : EventLimits) : Facade := { context := { events := { limits := limits } } }

def run (limits : EventLimits) (ops : List Op) : Facade :=
  Machine.run apply (create limits) ops

end Facade

end Qlinq
