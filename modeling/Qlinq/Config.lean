import Qlinq.Publisher

namespace Qlinq

/-! Transport limits: how a configuration is resolved, and what two endpoints
agree on. -/

def sizeMax : Nat := 2 ^ 64 - 1

def maxReliableObjectSize : Nat := 1024 * 1024 - 16

def streamControlByteReserve : Nat := 64 * 1024

def streamEndpointControlByteReserve : Nat := 2 * 1024 * 1024

/-- `transport_limits_t`; a zero stands for the default. -/
structure ConfiguredLimits extends TransportLimits where
  maxConnections : Nat
  maxRepairRequestsPerSecond : Nat
  maxAggregateRepairRequestsPerSecond : Nat
  maxAggregateNackRequestsPerSecond : Nat
  maxEgressPacketsPerSocket : Nat
  maxEgressBytesPerSocket : Nat
  maxAssemblerMemoryBytes : Nat
  maxRecoveryCacheBytes : Nat
  maxStreamEgressBytes : Nat
  maxTotalStreamEgressBytes : Nat
  maxPacketsPerTick : Nat
  deriving DecidableEq, Repr

def valueOrDefault (value fallback : Nat) : Nat := if value = 0 then fallback else value

namespace ConfiguredLimits

def withDefaults (configured : ConfiguredLimits) : ConfiguredLimits where
  maxConnections := valueOrDefault configured.maxConnections 32
  maxSubscriptionsPerConnection :=
    valueOrDefault configured.maxSubscriptionsPerConnection 32
  maxAssemblersPerConnection := valueOrDefault configured.maxAssemblersPerConnection 1024
  maxRepairRequestsPerSecond := valueOrDefault configured.maxRepairRequestsPerSecond 16
  maxAggregateRepairRequestsPerSecond :=
    valueOrDefault configured.maxAggregateRepairRequestsPerSecond 256
  maxAggregateNackRequestsPerSecond :=
    valueOrDefault configured.maxAggregateNackRequestsPerSecond 16
  maxEgressPacketsPerSocket := valueOrDefault configured.maxEgressPacketsPerSocket 1024
  maxEgressBytesPerSocket :=
    valueOrDefault configured.maxEgressBytesPerSocket (2 * 1024 * 1024)
  maxAssemblerMemoryBytes :=
    valueOrDefault configured.maxAssemblerMemoryBytes (64 * 1024 * 1024)
  maxStreamEgressBytes := valueOrDefault configured.maxStreamEgressBytes (2 * 1024 * 1024)
  maxTotalStreamEgressBytes :=
    valueOrDefault configured.maxTotalStreamEgressBytes (16 * 1024 * 1024)
  maxRecoveryCacheBytes :=
    valueOrDefault configured.maxRecoveryCacheBytes defaultRecoveryCacheBytes
  maxReliableObjectSize :=
    valueOrDefault configured.maxReliableObjectSize Qlinq.maxReliableObjectSize
  maxFecObjectSize := valueOrDefault configured.maxFecObjectSize Qlinq.maxFecObjectSize
  maxUdpPayloadSize := valueOrDefault configured.maxUdpPayloadSize 1280
  maxPacketsPerTick := valueOrDefault configured.maxPacketsPerTick 1024

/-- Payload the recovery cache must hold for one window of grouped records. -/
def minimumCache (limits : ConfiguredLimits) : Nat :=
  max (recoveryWindowObjects * min limits.maxFecObjectSize (maxFecRecordSize + 2))
    limits.maxFecObjectSize

/-- `transport_limits_resolve`. -/
def resolve (configured : ConfiguredLimits) : Except String ConfiguredLimits :=
  let resolved := configured.withDefaults
  if 1024 < resolved.maxConnections then
    .error "max_connections exceeds hard limit"
  else if hardMaxSubscriptions < resolved.maxSubscriptionsPerConnection then
    .error "max_subscriptions_per_connection exceeds alias space"
  else if 1024 < resolved.maxAssemblersPerConnection then
    .error "max_assemblers_per_connection exceeds hard limit"
  else if 65535 < resolved.maxRepairRequestsPerSecond then
    .error "max_repair_requests_per_second exceeds hard limit"
  else if 65535 < resolved.maxAggregateRepairRequestsPerSecond then
    .error "max_aggregate_repair_requests_per_second exceeds hard limit"
  else if 65535 < resolved.maxAggregateNackRequestsPerSecond then
    .error "max_aggregate_nack_requests_per_second exceeds hard limit"
  else if resolved.maxEgressPacketsPerSocket < 64 ∨
      65536 < resolved.maxEgressPacketsPerSocket then
    .error "max_egress_packets_per_socket is outside supported range"
  else if resolved.maxEgressBytesPerSocket < 64 * 1500 then
    .error "max_egress_bytes_per_socket cannot hold one send batch"
  else if resolved.maxAssemblerMemoryBytes < 1024 * 1024 then
    .error "max_assembler_memory_bytes must be at least 1 MiB"
  else if Qlinq.maxReliableObjectSize < resolved.maxReliableObjectSize then
    .error "max_reliable_object_size exceeds wire implementation"
  else if Qlinq.maxFecObjectSize < resolved.maxFecObjectSize then
    .error "max_fec_object_size exceeds wire implementation"
  else if resolved.maxRecoveryCacheBytes < resolved.minimumCache then
    .error "recovery cache must hold one recovery window"
  else if resolved.maxStreamEgressBytes <
      resolved.maxReliableObjectSize + 1024 + streamControlByteReserve then
    .error "stream budget must hold a maximum object and control reserve"
  else if sizeMax - streamEndpointControlByteReserve < resolved.maxStreamEgressBytes ∨
      resolved.maxTotalStreamEgressBytes <
        resolved.maxStreamEgressBytes + streamEndpointControlByteReserve then
    .error "total stream budget must hold a stream and control reserve"
  else if resolved.maxUdpPayloadSize < 1200 ∨ 1500 < resolved.maxUdpPayloadSize then
    .error "max_udp_payload_size is outside supported range"
  else if 65536 < resolved.maxPacketsPerTick then
    .error "max_packets_per_tick exceeds hard limit"
  else
    .ok resolved

/-- What the protocol relies on in resolved limits. -/
structure Resolved (limits : ConfiguredLimits) : Prop where
  reliable_pos : 0 < limits.maxReliableObjectSize
  reliable_le : limits.maxReliableObjectSize ≤ Qlinq.maxReliableObjectSize
  fec_pos : 0 < limits.maxFecObjectSize
  fec_le : limits.maxFecObjectSize ≤ Qlinq.maxFecObjectSize
  subscriptions_pos : 0 < limits.maxSubscriptionsPerConnection
  subscriptions_le : limits.maxSubscriptionsPerConnection ≤ hardMaxSubscriptions
  udp_ge : 1200 ≤ limits.maxUdpPayloadSize
  udp_le : limits.maxUdpPayloadSize ≤ 1500
  stream_ge : limits.maxReliableObjectSize + 1024 + streamControlByteReserve ≤
    limits.maxStreamEgressBytes
  total_ge : limits.maxStreamEgressBytes + streamEndpointControlByteReserve ≤
    limits.maxTotalStreamEgressBytes

theorem valueOrDefault_pos (value : Nat) (hfallback : 0 < fallback) :
    0 < valueOrDefault value fallback := by
  unfold valueOrDefault
  split <;> omega

theorem ite_error_eq_ok {p : Prop} [Decidable p] {error : ε} {result : Except ε α} :
    (if p then .error error else result) = .ok value ↔ ¬ p ∧ result = .ok value := by
  split <;> simp_all

theorem resolved_of_resolve {configured : ConfiguredLimits}
    (hresolve : configured.resolve = .ok limits) : Resolved limits := by
  unfold resolve at hresolve
  simp only [ite_error_eq_ok, not_or, not_lt, Except.ok.injEq] at hresolve
  obtain ⟨_, hsubscriptions, _, _, _, _, _, _, _, hreliable, hfec, _, hstream, htotal, hudp,
    _, rfl⟩ := hresolve
  exact
    { reliable_pos := valueOrDefault_pos _ (by decide)
      reliable_le := hreliable
      fec_pos := valueOrDefault_pos _ (by decide)
      fec_le := hfec
      subscriptions_pos := valueOrDefault_pos _ (by decide)
      subscriptions_le := hsubscriptions
      udp_ge := hudp.1
      udp_le := hudp.2
      stream_ge := hstream
      total_ge := htotal.2 }

end ConfiguredLimits

namespace Transport

/-- The HELLO of `transport_protocol_send_hello`, with its narrowing casts. -/
def localHello (limits : TransportLimits) : Hello where
  capabilities := allCapabilities
  maxReliableObjectSize := limits.maxReliableObjectSize % 2 ^ 32
  maxFecObjectSize := limits.maxFecObjectSize % 2 ^ 32
  maxSubscriptions := limits.maxSubscriptionsPerConnection % 2 ^ 16
  maxDatagramSize := min limits.maxUdpPayloadSize 65535

/-- Resolved limits pass the narrowing unchanged. -/
theorem localHello_of_resolved {limits : ConfiguredLimits}
    (hresolved : limits.Resolved) :
    localHello limits.toTransportLimits = helloFor limits.toTransportLimits := by
  have hreliable := hresolved.reliable_le
  have hfec := hresolved.fec_le
  have hsubscriptions := hresolved.subscriptions_le
  have hudp := hresolved.udp_le
  simp only [Qlinq.maxReliableObjectSize, Qlinq.maxFecObjectSize, hardMaxSubscriptions]
    at hreliable hfec hsubscriptions
  simp only [localHello, helloFor, Hello.mk.injEq, true_and]
  omega

end Transport

/-- Each end of a connection knows the other's HELLO. -/
structure Negotiated (own peer : TransportLimits) (c : Conn) : Prop where
  limits : c.negotiatedLimits = Conn.negotiate own (Transport.localHello peer)

/-- Both ends negotiate the same bounds on what they exchange. -/
theorem negotiated_agree {own peer : ConfiguredLimits} (hown : own.Resolved)
    (hpeer : peer.Resolved)
    (hhere : Negotiated own.toTransportLimits peer.toTransportLimits c)
    (hthere : Negotiated peer.toTransportLimits own.toTransportLimits d) :
    c.negotiatedLimits.maxReliableObjectSize = d.negotiatedLimits.maxReliableObjectSize ∧
      c.negotiatedLimits.maxFecObjectSize = d.negotiatedLimits.maxFecObjectSize ∧
      c.negotiatedLimits.maxSubscriptionsPerConnection =
        d.negotiatedLimits.maxSubscriptionsPerConnection ∧
      c.negotiatedLimits.maxUdpPayloadSize = d.negotiatedLimits.maxUdpPayloadSize := by
  rw [hhere.limits, hthere.limits, Transport.localHello_of_resolved hown,
    Transport.localHello_of_resolved hpeer]
  simp only [Conn.negotiate, Transport.helloFor]
  exact ⟨min_comm _ _, min_comm _ _, min_comm _ _, min_comm _ _⟩

namespace Transport

/-! The default configuration, and one for short objects only. -/

def defaultConfiguration : ConfiguredLimits where
  maxReliableObjectSize := 0
  maxFecObjectSize := 0
  maxSubscriptionsPerConnection := 0
  maxUdpPayloadSize := 0
  maxAssemblersPerConnection := 0
  maxConnections := 0
  maxRepairRequestsPerSecond := 0
  maxAggregateRepairRequestsPerSecond := 0
  maxAggregateNackRequestsPerSecond := 0
  maxEgressPacketsPerSocket := 0
  maxEgressBytesPerSocket := 0
  maxAssemblerMemoryBytes := 0
  maxRecoveryCacheBytes := 0
  maxStreamEgressBytes := 0
  maxTotalStreamEgressBytes := 0
  maxPacketsPerTick := 0

def shortConfiguration : ConfiguredLimits :=
  { defaultConfiguration with maxReliableObjectSize := 16, maxFecObjectSize := 100 }

def defaultResolved : ConfiguredLimits := defaultConfiguration.withDefaults

def shortResolved : ConfiguredLimits := shortConfiguration.withDefaults

theorem resolved_default : defaultResolved.Resolved := by
  have hresolve : defaultConfiguration.resolve = .ok defaultResolved := by decide +kernel
  exact ConfiguredLimits.resolved_of_resolve hresolve

theorem resolved_short : shortResolved.Resolved := by
  have hresolve : shortConfiguration.resolve = .ok shortResolved := by decide +kernel
  exact ConfiguredLimits.resolved_of_resolve hresolve

end Transport

end Qlinq
