import Qlinq.Config
import Qlinq.Traffic

namespace Qlinq

/-! Which datagrams a receiver admits, and that the publisher's are among them. -/

/-- Every check of an envelope that is not about the receiver's limits. -/
structure Datagram.WellFormed (datagram : Datagram) : Prop where
  totalSymbols_le : datagram.header.totalSymbols ≤ fecMaxTotalSymbols
  symbolSize_pos : 0 < datagram.header.symbolSize
  symbolSize_le : datagram.header.symbolSize ≤ fecMaxSymbolSize
  dataSymbols_pos : 0 < datagram.header.dataSymbols
  dataSymbols_le : datagram.header.dataSymbols ≤ datagram.header.totalSymbols
  symbolIndex_lt : datagram.header.symbolIndex < datagram.header.totalSymbols
  originalSize_pos : 0 < datagram.header.originalSize
  originalSize_le : datagram.header.originalSize ≤
    datagram.header.dataSymbols * datagram.header.symbolSize
  symbol_length : datagram.symbol.length = datagram.header.symbolSize

theorem Conn.datagramValid_iff {c : Conn} {datagram : Datagram} :
    c.datagramValid datagram = true ↔ datagram.WellFormed ∧
      datagram.header.originalSize ≤ c.negotiatedLimits.maxFecObjectSize := by
  simp only [datagramValid, Bool.and_eq_true, decide_eq_true_eq, beq_iff_eq]
  constructor
  · intro h
    exact ⟨⟨by omega, by omega, by omega, by omega, by omega, by omega, by omega, by omega,
      by omega⟩, by omega⟩
  · intro ⟨hformed, hlimit⟩
    have htotal := hformed.dataSymbols_pos.trans_le hformed.dataSymbols_le
    exact ⟨⟨⟨⟨⟨⟨⟨⟨⟨⟨htotal, hformed.totalSymbols_le⟩, hformed.symbolSize_pos⟩,
      hformed.symbolSize_le⟩, hformed.dataSymbols_pos⟩, hformed.dataSymbols_le⟩,
      hformed.symbolIndex_lt⟩, hlimit⟩, hformed.originalSize_le⟩, hformed.originalSize_pos⟩,
      hformed.symbol_length⟩

/-! ### Symbols -/

/-- The codec fills the parity buffers it is given. -/
def FecCodec.Sized (codec : FecCodec) : Prop :=
  ∀ type blocks paritySymbols symbolSize parity,
    codec.encode type blocks paritySymbols symbolSize = some parity →
    parity.length = paritySymbols ∧ ∀ block ∈ parity, block.length = symbolSize

def FlushEnv.CodecsSized (env : FlushEnv) : Prop :=
  ∀ connId, (env.conn connId).codec.Sized

structure PublishEnv.CodecsSized (env : PublishEnv) : Prop where
  before : env.before.CodecsSized
  after : env.after.CodecsSized
  direct : env.direct.CodecsSized

theorem length_dataBlock (data : Bytes) (symbolSize index : Nat) :
    (dataBlock data symbolSize index).length = symbolSize := by
  unfold dataBlock
  simp only [List.length_append, List.length_replicate, List.length_take]
  omega

theorem symbolBlocks_sized {codec : FecCodec} (hsized : codec.Sized)
    (hblocks : symbolBlocks codec profile data symbolSize dataSymbols paritySymbols =
      some blocks) :
    blocks.length = dataSymbols + paritySymbols ∧
      ∀ block ∈ blocks, block.length = symbolSize := by
  have hsource : ∀ block ∈ (List.range dataSymbols).map (dataBlock data symbolSize),
      block.length = symbolSize := by
    intro block hblock
    obtain ⟨index, _, rfl⟩ := List.mem_map.mp hblock
    exact length_dataBlock data symbolSize index
  unfold symbolBlocks at hblocks
  extract_lets source at hblocks
  split at hblocks
  · next hnone =>
      obtain rfl := Option.some.inj hblocks
      exact ⟨by simp [source, hnone], hsource⟩
  · obtain ⟨parity, hparity, rfl⟩ := Option.map_eq_some_iff.mp hblocks
    obtain ⟨hlength, hparitySize⟩ := hsized _ _ _ _ _ hparity
    refine ⟨by simp [source, hlength], fun block hblock => ?_⟩
    cases List.mem_append.mp hblock with
    | inl hmem => exact hsource block hmem
    | inr hmem => exact hparitySize block hmem

theorem length_getD_symbolBlocks {codec : FecCodec} (hsized : codec.Sized)
    (hblocks : symbolBlocks codec profile data symbolSize dataSymbols paritySymbols =
      some blocks) (hindex : index < dataSymbols + paritySymbols) :
    (blocks.getD index []).length = symbolSize := by
  obtain ⟨hlength, hsizes⟩ := symbolBlocks_sized hsized hblocks
  have hinside : index < blocks.length := by omega
  rw [List.getD_eq_getElem?_getD, List.getElem?_eq_getElem hinside]
  exact hsizes _ (List.getElem_mem hinside)

/-- A geometry that cuts an object of the size into symbols. -/
structure Geometry.Cuts (geometry : Geometry) : Prop where
  symbolSize_pos : 0 < geometry.symbolSize
  symbolSize_le : geometry.symbolSize ≤ fecMaxSymbolSize
  dataSymbols_pos : 0 < geometry.dataSymbols
  originalSize_pos : 0 < geometry.originalSize
  originalSize_le : geometry.originalSize ≤ geometry.dataSymbols * geometry.symbolSize

/-! ### Publication -/

/-- An attempt appends well-formed symbols of the object and moves the cursor. -/
theorem publishDatagramToConn_wellFormed {env : ConnEnv} (hsized : env.codec.Sized)
    (c : Conn) (object : MoqObject) (profile : TrackProfile)
    (hcuts : Geometry.Cuts ⟨symbolSize, dataSymbols, object.size⟩) :
    ∃ cursor packets, (publishDatagramToConn env c object profile symbolSize dataSymbols).1 =
        { c with roundRobinPath := cursor, datagrams := c.datagrams ++ packets } ∧
      ∀ packet ∈ packets, packet.message.WellFormed ∧
        packet.message.header.originalSize = object.size := by
  have hnone : ∀ cursor, ∃ next packets, { c with roundRobinPath := cursor } =
        { c with roundRobinPath := next, datagrams := c.datagrams ++ packets } ∧
      ∀ packet ∈ packets, packet.message.WellFormed ∧
        packet.message.header.originalSize = object.size :=
    fun cursor => ⟨cursor, [], by simp⟩
  simp only [publishDatagramToConn]
  split
  · exact hnone _
  split
  · exact hnone _
  · exact hnone _
  next schedule _ _ =>
  split
  · exact hnone _
  next htotal =>
  split
  · exact hnone _
  split
  · exact hnone _
  split
  · exact hnone _
  next blocks hblocks =>
  split
  · exact hnone _
  next a _ =>
  refine ⟨_, _, rfl, fun sent hsent => ?_⟩
  rcases mem_enqueueSymbols _ _ sent hsent with hqueued | ⟨symbol, hsymbol, mapped, rfl⟩
  · simp at hqueued
  have hindex := List.mem_range.mp hsymbol
  refine ⟨?_, rfl⟩
  exact
    { totalSymbols_le := not_lt.mp htotal
      symbolSize_pos := hcuts.symbolSize_pos
      symbolSize_le := hcuts.symbolSize_le
      dataSymbols_pos := hcuts.dataSymbols_pos
      dataSymbols_le := Nat.le_add_right _ _
      symbolIndex_lt := hindex
      originalSize_pos := hcuts.originalSize_pos
      originalSize_le := hcuts.originalSize_le
      symbol_length := length_getD_symbolBlocks hsized hblocks hindex }

/-- An attempt that queues symbols stays within the symbol limit. -/
theorem dataSymbols_le_of_queuesSymbols (env : ConnEnv) (c : Conn) (object : MoqObject)
    (profile : TrackProfile) (symbolSize dataSymbols : Nat)
    (hqueues : (publishDatagramToConn env c object profile symbolSize
      dataSymbols).2.1.queuesSymbols) :
    dataSymbols ≤ fecMaxTotalSymbols := by
  simp only [publishDatagramToConn] at hqueues
  split at hqueues
  · simp [PublishResult.queuesSymbols] at hqueues
  split at hqueues
  · simp [PublishResult.queuesSymbols] at hqueues
  · simp [PublishResult.queuesSymbols] at hqueues
  split at hqueues
  · simp [PublishResult.queuesSymbols] at hqueues
  · next htotal => omega

namespace Transport

theorem datagramSymbolSize_ge (t : Transport) : 1000 ≤ t.datagramSymbolSize := by
  unfold datagramSymbolSize
  extract_lets udp symbolSize
  split <;> omega

theorem datagramSymbolSize_le {t : Transport} (hudp : t.limits.maxUdpPayloadSize ≤ 1500) :
    t.datagramSymbolSize ≤ fecMaxSymbolSize := by
  have hlowest := lowest_le_start Conn.protocolReady
    (·.negotiatedLimits.maxUdpPayloadSize) t.conns t.limits.maxUdpPayloadSize
  unfold datagramSymbolSize fecMaxSymbolSize
  extract_lets udp symbolSize
  have hsize : symbolSize ≤ 1420 := by
    simp only [symbolSize, udp]
    split <;> omega
  split <;> omega

theorem cuts_objectGeometry {t : Transport} (hudp : t.limits.maxUdpPayloadSize ≤ 1500)
    (hobject : 0 < object.size) : (t.objectGeometry object).Cuts := by
  have hge := t.datagramSymbolSize_ge
  have hle := datagramSymbolSize_le hudp
  have hsymbol : 0 < t.objectSymbolSize object := by
    unfold objectSymbolSize
    omega
  have hbounded : t.objectSymbolSize object ≤ fecMaxSymbolSize := by
    unfold objectSymbolSize
    omega
  have hceil : object.size ≤ t.objectDataSymbols object * t.objectSymbolSize object := by
    unfold objectDataSymbols
    generalize t.objectSymbolSize object = symbolSize at hsymbol ⊢
    have hdivided := Nat.lt_div_mul_add hsymbol (a := object.size + symbolSize - 1)
    omega
  refine ⟨hsymbol, hbounded, ?_, hobject, hceil⟩
  by_contra hnone
  have hzero : t.objectDataSymbols object = 0 := by
    simpa [objectGeometry] using hnone
  rw [hzero] at hceil
  omega

/-- A group needs few symbols. -/
theorem objectDataSymbols_le {t : Transport}
    (hobject : object.size ≤ maxFecRecordSize + 2) :
    t.objectDataSymbols object ≤ fecMaxTotalSymbols := by
  have hge := t.datagramSymbolSize_ge
  unfold maxFecRecordSize at hobject
  unfold objectDataSymbols objectSymbolSize fecMaxTotalSymbols
  by_cases hsmall : object.size ≤ t.datagramSymbolSize
  · rw [min_eq_right hsmall]
    have hle : (object.size + object.size - 1) / object.size ≤
        (object.size + object.size) / object.size := Nat.div_le_div_right (by omega)
    by_cases hzero : object.size = 0
    · simp [hzero]
    · rw [Nat.add_div_right _ (by omega), Nat.div_self (by omega)] at hle
      omega
  · rw [min_eq_left (by omega)]
    have hle : (object.size + t.datagramSymbolSize - 1) / t.datagramSymbolSize ≤
        object.size / t.datagramSymbolSize + 1 := by
      rw [← Nat.add_div_right _ (by omega)]
      exact Nat.div_le_div_right (by omega)
    have hquotient : object.size / t.datagramSymbolSize ≤ object.size / 1000 :=
      Nat.div_le_div_left hge (by omega)
    omega

end Transport

end Qlinq
