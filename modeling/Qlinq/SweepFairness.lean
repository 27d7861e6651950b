import Qlinq.RecoverySweep

namespace Qlinq

/-! The turns of the peers in the recovery sweep, over many ticks. -/

variable {limits : ConfiguredLimits}

/-- What touches the aggregate limiter or the cursor, and between such steps anything else. -/
inductive NackStep (limits : ConfiguredLimits) where
  | sweep (env : SweepEnv)
  | request (index : Nat) (indexedOnly : Bool) (clock : NackClock) (request : NackRequest)
  | others (peers : List (SweepPeer limits)) (stats : EgressStats)

namespace NackTransport

/-- A request that the receiving side makes for one peer. -/
def sendNack (t : NackTransport limits) (index : Nat) (indexedOnly : Bool) (clock : NackClock)
    (request : NackRequest) : NackTransport limits :=
  match t.peers[index]? with
  | none => t
  | some peer =>
      let sender : NackSender limits :=
        { conn := peer.conn
          stream := peer.stream
          stats := t.stats
          requestLimiter := peer.requestLimiter
          aggregateLimiter := t.aggregateLimiter }
      let (sender, _) := sender.sendNack indexedOnly clock request
      { t with
        peers := t.peers.set index
          { peer with
            conn := sender.conn
            stream := sender.stream
            requestLimiter := sender.requestLimiter }
        stats := sender.stats
        aggregateLimiter := sender.aggregateLimiter }

def apply (t : NackTransport limits) : NackStep limits → NackTransport limits
  | .sweep env => (t.recoverySweep env).1.transport
  | .request index indexedOnly clock request => t.sendNack index indexedOnly clock request
  | .others peers stats => { t with peers, stats }

/-- How the visits of a step went, if it sweeps. -/
def turns (t : NackTransport limits) : NackStep limits → List (Nat × Turn)
  | .sweep env => (t.recoverySweep env).2
  | _ => []

end NackTransport

/-- The number of peers stays. -/
def NackStep.Keeps (count : Nat) : NackStep limits → Prop
  | .others peers _ => peers.length = count
  | _ => True

namespace NackSweep

theorem follows_visit (env : SweepEnv) (count : Nat) :
    RoundRobin.Follows (visit env) (fun s : NackSweep limits => s.transport.recoveryConnCursor)
      count (fun s => s.transport.peers.length = count) := by
  intro s index hcount
  unfold visit
  split
  · exact ⟨hcount, rfl⟩
  next peer hpeer =>
  split
  · exact ⟨hcount, rfl⟩
  · refine ⟨(List.length_set ..).trans hcount, ?_⟩
    cases hasked : (s.sweepPeer env peer).1.asked with
    | nil => simp [hasked]
    | cons request rest => simp [hasked, hcount]

end NackSweep

namespace NackTransport

theorem recoverySweep_advances {t : NackTransport limits} (env : SweepEnv) :
    (t.recoverySweep env).1.transport.peers.length = t.peers.length ∧
      RoundRobin.Advances t.peers.length t.recoveryConnCursor
        (t.recoverySweep env).1.transport.recoveryConnCursor (t.recoverySweep env).2 := by
  have hfollows : RoundRobin.Follows (NackSweep.visit env)
      (fun s : NackSweep limits => s.transport.recoveryConnCursor) t.peers.length _ :=
    NackSweep.follows_visit env t.peers.length
  have hstart : (t.startSweep env.nowMs).transport.peers.length = t.peers.length := rfl
  have hround := RoundRobin.round_advances hfollows hstart
  have hkept := RoundRobin.inv_visits hfollows
    (RoundRobin.order t.peers.length (t.recoveryConnCursor % t.peers.length)) hstart
  have hidle : RoundRobin.Advances t.peers.length t.recoveryConnCursor t.recoveryConnCursor [] :=
    fun p hp => .inr (Nat.le_refl _)
  have hswept : (t.sweepPeers env).1.transport.peers.length = t.peers.length ∧
      RoundRobin.Advances t.peers.length t.recoveryConnCursor
        (t.sweepPeers env).1.transport.recoveryConnCursor (t.sweepPeers env).2 := by
    unfold sweepPeers
    split
    · exact ⟨rfl, hidle⟩
    · exact ⟨hkept, hround⟩
  simp only [recoverySweep]
  split
  · exact hswept
  · exact hswept

theorem apply_advances {t : NackTransport limits} (step : NackStep limits)
    (hkeeps : step.Keeps t.peers.length) :
    (t.apply step).peers.length = t.peers.length ∧
      RoundRobin.Advances t.peers.length t.recoveryConnCursor (t.apply step).recoveryConnCursor
        (t.turns step) := by
  cases step with
  | sweep env => exact recoverySweep_advances env
  | request index indexedOnly clock request =>
      have hsame : (t.sendNack index indexedOnly clock request).peers.length = t.peers.length ∧
          (t.sendNack index indexedOnly clock request).recoveryConnCursor =
            t.recoveryConnCursor := by
        unfold sendNack
        split
        · exact ⟨rfl, rfl⟩
        · exact ⟨List.length_set .., rfl⟩
      refine ⟨hsame.1, fun p hp => .inr ?_⟩
      change RoundRobin.ahead _ (t.sendNack index indexedOnly clock request).recoveryConnCursor p
        + 0 ≤ _
      rw [hsame.2]
      exact Nat.le_refl _
  | others peers stats => exact ⟨hkeeps, fun p hp => .inr (Nat.le_refl _)⟩

end NackTransport

/-- One request a second for all peers. -/
def tightConfig : ConfiguredLimits where
  maxReliableObjectSize := 0
  maxFecObjectSize := 0
  maxSubscriptionsPerConnection := 0
  maxUdpPayloadSize := 0
  maxAssemblersPerConnection := 0
  maxConnections := 0
  maxRepairRequestsPerSecond := 0
  maxAggregateRepairRequestsPerSecond := 0
  maxAggregateNackRequestsPerSecond := 1
  maxEgressPacketsPerSocket := 0
  maxEgressBytesPerSocket := 0
  maxAssemblerMemoryBytes := 0
  maxRecoveryCacheBytes := 0
  maxStreamEgressBytes := 0
  maxTotalStreamEgressBytes := 0
  maxPacketsPerTick := 0

def lossyTrack : TrackId where
  type := .data
  flags := flagFecRateless
  name := [97]

/-- Objects 5 and 7 are missing. -/
def lossyPeer : SweepPeer tightConfig.withDefaults where
  conn :=
    { id := 0
      negotiatedLimits := tightConfig.withDefaults.toTransportLimits
      peerCapabilities := capRatelessRepair
      sendSubscriptions := .init 1
      receiveSubscriptions := ((SubscriptionTable.init 1).add lossyTrack 8).getD (.init 1) }
  stream := some { isControl := true }
  requestLimiter := { le_capacity := by decide }
  gaps := [{ trackAlias := 8, pendingBase := 5, pendingMask := 5 }]

def lossyTransport : NackTransport tightConfig.withDefaults where
  peers := [lossyPeer, lossyPeer]
  aggregateLimiter := { le_capacity := by decide }

def steadyEnv (nowMs : Int64) : SweepEnv where
  nowMs := nowMs
  clock := fun _ => ⟨nowMs, nowMs, nowMs⟩
  indexedOnly := false

namespace NackTransport

end NackTransport

end Qlinq
