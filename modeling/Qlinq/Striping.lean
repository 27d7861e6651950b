import Qlinq.Datagram
import Qlinq.Interfaces

namespace Qlinq

/-! One object's symbols on the paths of a connection: how they are planned, queued and
charged to the budgets of the links. -/

def transportMaxQuicPaths : Nat := 64

/-- What Pathflow promises: it allocates the source symbols it is asked for, and to each
path no fewer packets than source symbols. -/
structure Pathflow.Lawful (pathflow : Pathflow) : Prop where
  splits : ∀ paths dataSymbols reliability, paths ≠ [] →
    ∃ allocate, pathflow.optimize paths dataSymbols reliability = some allocate ∧
      ((List.range paths.length).map fun index => (allocate index).m).sum = dataSymbols ∧
      ∀ index, (allocate index).m ≤ (allocate index).x

structure QuicPath where
  localAddr : IpAddr
  available : Bool
  deriving DecidableEq, Repr

/-- The local addresses of an endpoint's links, and the QUIC paths of a connection. -/
structure Topology where
  links : List IpAddr
  quicPaths : List (Option QuicPath)
  links_le : links.length ≤ transportMaxPaths
  quicPaths_le : quicPaths.length ≤ transportMaxQuicPaths

/-- A link with the QUIC path that it resolves to. -/
structure Lane extends PathEnv where
  physical : Nat
  deriving DecidableEq, Repr

structure LinkState where
  overridden : Bool
  state : PathState
  budget : PathBudget
  deriving DecidableEq, Repr

/-- An object to publish and the state it is published in: the datagrams queued on each QUIC
path and the state of each link.  The codec can be had, and `addressed` says whether the
peer subscribes to the track. -/
structure DatagramPublication where
  occupancy : Nat → Nat
  link : Nat → LinkState
  pathflow : Pathflow
  codec : FecCodec
  profile : TrackProfile
  priority : UInt8
  data : Bytes
  dataSymbols : Nat
  symbolSize : Nat
  cursor : Nat
  addressed : Bool
  lawful : pathflow.Lawful
  encodes : ∀ type blocks parity size, (codec.encode type blocks parity size).isSome
  dataSymbols_pos : 0 < dataSymbols
  symbolSize_pos : 0 < symbolSize

namespace Topology

/-- `transport_path_get_stats_by_link`: the first QUIC path with the link's address, its port
aside. -/
def pathByLink (t : Topology) (link : IpAddr) : Option Nat :=
  t.quicPaths.findIdx? fun path => path.any (·.localAddr = link)

/-- Every link that resolves to an available QUIC path, with the index of the path. -/
def resolved (t : Topology) : List (Nat × Nat) :=
  t.links.zipIdx.filterMap fun (link, physical) =>
    match t.pathByLink link with
    | none => none
    | some mapped =>
        if (t.quicPaths.getD mapped none).any (·.available) then
          some (physical, mapped)
        else
          none

end Topology

namespace DatagramPublication

def lane (p : DatagramPublication) (physical mapped : Nat) : Lane where
  mapped := mapped
  queued := p.occupancy mapped
  overridden := (p.link physical).overridden
  state := (p.link physical).state
  budget := (p.link physical).budget
  physical := physical

/-- The paths that planning starts from. -/
def lanes (p : DatagramPublication) (t : Topology) : List Lane :=
  (t.resolved.map fun (physical, mapped) => p.lane physical mapped).filter fun lane =>
    lane.queued < pathDatagramQueueCapacity

inductive LanePlan where
  | planned (active : List Lane) (schedule : Schedule)
  | unschedulable
  | blocked

/-- Replan without the first path that cannot admit its allocation, as
`ConnEnv.planSymbols` does; the loop ends when no path is left. -/
def plan (p : DatagramPublication) : (rounds : Nat) → List Lane → (cursor : Nat) → LanePlan × Nat
  | 0, _, cursor => (.blocked, cursor)
  | rounds + 1, active, cursor =>
      match Schedule.build p.pathflow (active.map (·.state)) p.dataSymbols p.symbolSize
          p.profile.usesFec p.priority cursor with
      | (none, cursor) => (.unschedulable, cursor)
      | (some built, cursor) =>
          let schedule := built.transmitted p.profile.fecRateless p.dataSymbols
          match (active.zip schedule.paths).findIdx? fun (lane, plan) =>
              ConnEnv.pathBlocked p.pathflow lane.toPathEnv plan.x with
          | none => (.planned active schedule, cursor)
          | some index =>
              let left := active.eraseIdx index
              if left = [] then (.blocked, cursor) else p.plan rounds left cursor

end DatagramPublication

/-- What the loop over the symbols has done: `placed` lists the queued symbols, each with the
index of its path in the plan. -/
structure Striped where
  placed : List (Nat × Nat) := []
  occupancy : Nat → Nat
  budgets : Nat → PathBudget

namespace Striped

/-- Queue a symbol on the path of a lane and charge the link for it. -/
def place (s : Striped) (one : Fixed) (index symbol : Nat) (lane : Lane) : Striped where
  placed := s.placed ++ [(index, symbol)]
  occupancy := Function.update s.occupancy lane.mapped (s.occupancy lane.mapped + 1)
  budgets :=
    if lane.overridden then
      s.budgets
    else
      let budget := s.budgets lane.physical
      Function.update s.budgets lane.physical { budget with debt := budget.debt + one }

/-- Queue the symbols on their paths until one is not taken. -/
def stripe (one : Fixed) (active : List Lane) (schedule : Schedule) :
    (symbols : List Nat) → Striped → Striped × PublishResult
  | [], s => (s, .delivered)
  | symbol :: rest, s =>
      let stopped := if s.placed.isEmpty then PublishResult.error else .partialDelivery
      match pathSelectPhysical schedule.paths symbol with
      | none => (s, stopped)
      | some index =>
          match active[index]? with
          | none => (s, stopped)
          | some lane =>
              if 255 < lane.mapped then
                (s, stopped)
              else if pathDatagramQueueCapacity ≤ s.occupancy lane.mapped then
                (s, if s.placed.isEmpty then .backpressure else .partialDelivery)
              else
                stripe one active schedule rest (s.place one index symbol lane)

end Striped

/-- What a publication comes to: the final plan if there is one, what was queued, and the
result. -/
structure Stripes where
  plan : Option (List Lane × Schedule)
  striped : Striped
  result : PublishResult

namespace DatagramPublication

def unstriped (p : DatagramPublication) : Striped where
  occupancy := p.occupancy
  budgets physical := (p.link physical).budget

/-- `publish_datagram_to_conn`.  Allocation is assumed to succeed. -/
def publish (p : DatagramPublication) (t : Topology) : Stripes :=
  if p.lanes t = [] then
    { plan := none, striped := p.unstriped, result := .backpressure }
  else
    match (p.plan (p.lanes t).length (p.lanes t) p.cursor).1 with
    | .unschedulable => { plan := none, striped := p.unstriped, result := .error }
    | .blocked => { plan := none, striped := p.unstriped, result := .backpressure }
    | .planned active schedule =>
        let stopped (result : PublishResult) : Stripes :=
          { plan := some (active, schedule), striped := p.unstriped, result := result }
        let totalSymbols := p.dataSymbols + schedule.paritySymbols
        if fecMaxTotalSymbols < totalSymbols then
          stopped .invalid
        else if schedule.allocated ≠ totalSymbols then
          stopped .error
        else if (symbolBlocks p.codec p.profile p.data p.symbolSize p.dataSymbols
            schedule.paritySymbols).isNone then
          stopped .error
        else if !p.addressed then
          stopped .noRecipients
        else
          let (striped, result) := Striped.stripe p.pathflow.one active schedule
            (List.range totalSymbols) p.unstriped
          { plan := some (active, schedule), striped := striped, result := result }

end DatagramPublication

end Qlinq
