import Qlinq.Emission

namespace Qlinq

/-! The symbols of an object: what a sender queues for it, and what a codec makes of
them. -/

/-! ### Codec laws -/

/-- The law of an erasure code: the parity buffers are filled, symbols of one encoding
decode to its source or not at all, and a RaptorQ symbol depends on its index alone. -/
structure FecCodec.Recovers (codec : FecCodec) : Prop where
  sized : codec.Sized
  source : ∀ type source paritySymbols symbolSize parity,
    (∀ block ∈ source, block.length = symbolSize) →
    codec.encode type source paritySymbols symbolSize = some parity →
    ∀ symbols : List (Option Bytes), symbols.length = source.length + paritySymbols →
      (∀ (index : Nat) (block : Bytes), symbols[index]? = some (some block) →
        (source ++ parity)[index]? = some block) →
      ∀ blocks, codec.decode type source.length symbolSize symbols = some blocks →
        blocks = source
  by_index : ∀ source few many symbolSize parity more,
    codec.encode .raptorQ source few symbolSize = some parity →
    codec.encode .raptorQ source many symbolSize = some more →
    few ≤ many → ∀ index : Nat, index < few → parity[index]? = more[index]?

/-- The source blocks of an object. -/
def sourceBlocks (data : Bytes) (symbolSize dataSymbols : Nat) : List Bytes :=
  (List.range dataSymbols).map (dataBlock data symbolSize)

@[simp] theorem length_sourceBlocks (data : Bytes) (symbolSize dataSymbols : Nat) :
    (sourceBlocks data symbolSize dataSymbols).length = dataSymbols := by
  simp [sourceBlocks]

theorem length_of_mem_sourceBlocks (hblock : block ∈ sourceBlocks data symbolSize dataSymbols) :
    block.length = symbolSize := by
  obtain ⟨index, _, rfl⟩ := List.mem_map.mp hblock
  exact length_dataBlock data symbolSize index

theorem sourceBlocks_succ (data : Bytes) (symbolSize dataSymbols : Nat) :
    sourceBlocks data symbolSize (dataSymbols + 1) =
      dataBlock data symbolSize 0 ::
        sourceBlocks (data.drop symbolSize) symbolSize dataSymbols := by
  unfold sourceBlocks
  rw [List.range_succ_eq_map, List.map_cons, List.map_map]
  congr 1
  apply List.map_congr_left
  intro index _
  have hnext : index.succ * symbolSize = symbolSize + index * symbolSize := by
    rw [Nat.succ_mul, Nat.add_comm]
  simp only [Function.comp_apply, dataBlock, List.drop_drop, hnext]

/-- Padding is cut off again. -/
theorem take_flatten_sourceBlocks (hlength : data.length ≤ dataSymbols * symbolSize) :
    (sourceBlocks data symbolSize dataSymbols).flatten.take data.length = data := by
  induction dataSymbols generalizing data with
  | zero =>
      have hempty : data = [] := List.length_eq_zero_iff.mp (by omega)
      simp [hempty, sourceBlocks]
  | succ dataSymbols ih =>
      rw [sourceBlocks_succ, List.flatten_cons]
      by_cases hshort : data.length ≤ symbolSize
      · have hblock : dataBlock data symbolSize 0 =
            data ++ List.replicate (symbolSize - data.length) 0 := by
          simp [dataBlock, List.take_of_length_le hshort]
        rw [hblock, List.append_assoc, List.take_left]
      · have hblock : dataBlock data symbolSize 0 = data.take symbolSize := by
          have hfull : symbolSize - (data.take symbolSize).length = 0 := by
            rw [List.length_take]
            omega
          simp only [dataBlock, Nat.zero_mul, List.drop_zero, hfull, List.replicate_zero,
            List.append_nil]
        have hrest := @ih (data.drop symbolSize) (by
          rw [List.length_drop, Nat.sub_le_iff_le_add]
          rw [Nat.succ_mul] at hlength
          exact hlength)
        have htaken : (data.take symbolSize).length = symbolSize := by
          rw [List.length_take]
          omega
        have hsplit : data.length = (data.take symbolSize).length +
            (data.drop symbolSize).length := by
          rw [List.length_drop, htaken]
          omega
        rw [hblock]
        conv =>
          lhs
          rw [hsplit]
        rw [List.take_length_add_append, hrest, List.take_append_drop]

/-! ### What is sent -/

/-- The datagram carries a symbol the codec makes of the object under the geometry, with
the number of symbols of that encoding. -/
structure Datagram.SymbolOf (codec : FecCodec) (object : MoqObject) (geometry : Geometry)
    (datagram : Datagram) : Prop where
  geometry_eq : datagram.header.geometry = geometry
  size_eq : geometry.originalSize = object.size
  encoded : ∃ paritySymbols blocks,
    symbolBlocks codec (trackProfile object.trackId) object.data geometry.symbolSize
      geometry.dataSymbols paritySymbols = some blocks ∧
    datagram.header.totalSymbols = geometry.dataSymbols + paritySymbols ∧
    datagram.header.symbolIndex < geometry.dataSymbols + paritySymbols ∧
    datagram.symbol = blocks.getD datagram.header.symbolIndex []

/-- The packets an endpoint queues for an object under a geometry: those of an attempt to
publish it, in any surroundings, and those that answer a NACK from its cached copy. -/
inductive SentFor (codec : FecCodec) (object : MoqObject) (geometry : Geometry) :
    Sent Datagram → Prop where
  | published {env : ConnEnv} {c : Conn} {packets : List (Sent Datagram)}
      (hcodec : env.codec = codec) (hsize : geometry.originalSize = object.size)
      (hattempt : (publishDatagramToConn env c object (trackProfile object.trackId)
        geometry.symbolSize geometry.dataSymbols).1.datagrams = c.datagrams ++ packets)
      (hpacket : packet ∈ packets) : SentFor codec object geometry packet
  | repaired {entry : SentObject} {nack : Nack} {batch : RepairBatch}
      {commit : Nat → Option SentObject} {position : Nat}
      (hsize : geometry.originalSize = object.size)
      (hcached : SentCache.Describes entry object geometry.dataSymbols geometry.symbolSize)
      (hanswer : Transport.repairAnswer codec entry nack = some (batch, commit))
      (hposition : position < batch.indices.length) (c : Conn) (a : TrackAlias) :
      SentFor codec object geometry (repairPacket c a entry batch position)

/-- The packets of an attempt are symbols of the object. -/
theorem publishDatagramToConn_symbols (env : ConnEnv) (c : Conn) (object : MoqObject)
    (symbolSize dataSymbols : Nat) :
    ∃ packets, (publishDatagramToConn env c object (trackProfile object.trackId) symbolSize
        dataSymbols).1.datagrams = c.datagrams ++ packets ∧
      ∀ packet ∈ packets,
        packet.message.SymbolOf env.codec object ⟨symbolSize, dataSymbols, object.size⟩ := by
  have hnone : ∃ packets, c.datagrams = c.datagrams ++ packets ∧ ∀ packet ∈ packets,
      packet.message.SymbolOf env.codec object ⟨symbolSize, dataSymbols, object.size⟩ :=
    ⟨[], by simp⟩
  simp only [publishDatagramToConn]
  split
  · exact hnone
  split
  · exact hnone
  · exact hnone
  split
  · exact hnone
  split
  · exact hnone
  split
  · exact hnone
  split
  · exact hnone
  next blocks hblocks =>
  split
  · exact hnone
  refine ⟨_, rfl, fun sent hsent => ?_⟩
  cases mem_enqueueSymbols _ _ sent hsent with
  | inl hqueued => simp at hqueued
  | inr hpacket =>
      obtain ⟨symbol, hsymbol, mapped, rfl⟩ := hpacket
      exact ⟨rfl, rfl, _, blocks, hblocks, rfl, List.mem_range.mp hsymbol, rfl⟩

/-- The batch holds symbols of one encoding of the cached object. -/
structure RepairBatch.EncodedFrom (codec : FecCodec) (entry : SentObject)
    (batch : RepairBatch) : Prop where
  symbolSize : batch.symbolSize = entry.symbolSize
  encoded : ∃ paritySymbols blocks,
    symbolBlocks codec (trackProfile entry.trackId) entry.data entry.symbolSize
      entry.dataSymbols paritySymbols = some blocks ∧
    batch.totalSymbols = entry.dataSymbols + paritySymbols ∧
    (∀ index ∈ batch.indices, index < entry.dataSymbols + paritySymbols) ∧
    batch.symbols = batch.indices.map fun index => blocks.getD index []

theorem encodedFrom_repairBuild
    (hbuild : repairBuild codec entry wholeObject missing = some batch) :
    batch.EncodedFrom codec entry := by
  simp only [repairBuild] at hbuild
  split at hbuild
  · simp at hbuild
  split at hbuild
  · simp at hbuild
  · simp at hbuild
  next indices _ _ =>
  obtain ⟨-, hbuilt⟩ := Option.ite_none_left_eq_some.mp hbuild
  obtain ⟨blocks, hblocks, rfl⟩ := Option.map_eq_some_iff.mp hbuilt
  refine ⟨rfl, _, blocks, hblocks, rfl, fun index hindex => ?_, rfl⟩
  obtain ⟨_, hle⟩ := le_foldl_max indices 0
  have hbound := hle index hindex
  split <;> split <;> omega

theorem encodedFrom_repairBuildRateless
    (hbuild : repairBuildRateless codec entry requested = some batch) :
    batch.EncodedFrom codec entry := by
  unfold repairBuildRateless at hbuild
  split at hbuild
  · simp at hbuild
  · exact encodedFrom_repairBuild hbuild

theorem encodedFrom_repairBuildSystematicFallback
    (hbuild : repairBuildSystematicFallback codec entry requested = some batch) :
    batch.EncodedFrom codec entry := by
  unfold repairBuildSystematicFallback at hbuild
  split at hbuild
  · simp at hbuild
  · exact encodedFrom_repairBuild hbuild

theorem encodedFrom_repairAnswer
    (hanswer : Transport.repairAnswer codec entry nack = some (batch, commit)) :
    batch.EncodedFrom codec entry := by
  simp only [Transport.repairAnswer] at hanswer
  split at hanswer
  · split at hanswer
    · next hbuild =>
        obtain ⟨rfl, _⟩ := Prod.mk.inj (Option.some.inj hanswer)
        exact encodedFrom_repairBuildRateless hbuild
    · split at hanswer
      · simp at hanswer
      · obtain ⟨built, hbuild, hpair⟩ := Option.map_eq_some_iff.mp hanswer
        obtain ⟨rfl, _⟩ := Prod.mk.inj hpair
        exact encodedFrom_repairBuildSystematicFallback hbuild
  · split at hanswer
    · simp at hanswer
    · obtain ⟨built, hbuild, hpair⟩ := Option.map_eq_some_iff.mp hanswer
      obtain ⟨rfl, _⟩ := Prod.mk.inj hpair
      exact encodedFrom_repairBuild hbuild

theorem symbolOf_repairPacket {batch : RepairBatch} {entry : SentObject}
    {geometry : Geometry} (hencoded : batch.EncodedFrom codec entry)
    (hsize : geometry.originalSize = object.size)
    (hcached : SentCache.Describes entry object geometry.dataSymbols geometry.symbolSize)
    (hposition : position < batch.indices.length) (c : Conn) (a : TrackAlias) :
    (repairPacket c a entry batch position).message.SymbolOf codec object geometry := by
  obtain ⟨hidentity, hdata, hdataSymbols, hsymbolSize⟩ := hcached
  obtain ⟨htrack, _, _⟩ := SentCache.hasIdentity_iff.mp hidentity
  obtain ⟨hbatchSize, paritySymbols, blocks, hblocks, htotal, hinside, hsymbols⟩ := hencoded
  rw [htrack, hdata, hdataSymbols, hsymbolSize] at hblocks
  rw [hdataSymbols] at htotal hinside
  have hindex : batch.indices[position]? = some batch.indices[position] :=
    List.getElem?_eq_getElem hposition
  refine ⟨?_, hsize, paritySymbols, blocks, hblocks, htotal, ?_, ?_⟩
  · cases geometry
    simp_all [repairPacket, Conn.sendFrame, FecHeader.geometry, SentObject.size,
      MoqObject.size]
  · simp only [repairPacket, Conn.sendFrame, List.getD_eq_getElem?_getD, hindex,
      Option.getD_some]
    exact hinside _ (List.getElem_mem hposition)
  · simp [repairPacket, Conn.sendFrame, hsymbols, List.getD_eq_getElem?_getD, hindex]

theorem SentFor.symbolOf {geometry : Geometry} (hsent : SentFor codec object geometry packet) :
    packet.message.SymbolOf codec object geometry := by
  cases hsent with
  | @published _ env c packets hcodec hsize hattempt hpacket =>
      obtain ⟨others, hothers, hsymbols⟩ := publishDatagramToConn_symbols env c object
        geometry.symbolSize geometry.dataSymbols
      rw [hattempt] at hothers
      obtain rfl := List.append_cancel_left hothers
      have hsymbol := hsymbols packet hpacket
      rw [hcodec, ← hsize] at hsymbol
      exact hsymbol
  | repaired hsize hcached hanswer hposition c a =>
      exact symbolOf_repairPacket (encodedFrom_repairAnswer hanswer) hsize hcached hposition c a

/-! ### A repetition code

Parity repeats the source blocks in turn; as in Reed-Solomon, where the turn starts
depends on the number of parity symbols. -/

namespace Repetition

def start : FecType → (paritySymbols : Nat) → Nat
  | .reedSolomon, paritySymbols => paritySymbols
  | .raptorQ, _ => 0

def encode (type : FecType) (source : List Bytes) (paritySymbols symbolSize : Nat) :
    Option (List Bytes) :=
  if source = [] then
    none
  else
    some ((List.range paritySymbols).map fun index =>
      dataBlock (source.getD ((start type paritySymbols + index) % source.length) [])
        symbolSize 0)

/-- The block at `index`, or a parity symbol that repeats it. -/
def recoverBlock (type : FecType) (dataSymbols : Nat) (symbols : List (Option Bytes))
    (index : Nat) : Option Bytes :=
  let paritySymbols := symbols.length - dataSymbols
  (symbols.getD index none).or ((List.range paritySymbols).findSome? fun parity =>
    if (start type paritySymbols + parity) % dataSymbols = index then
      symbols.getD (dataSymbols + parity) none
    else
      none)

def decode (type : FecType) (dataSymbols _symbolSize : Nat) (symbols : List (Option Bytes)) :
    Option (List Bytes) :=
  let recovered := (List.range dataSymbols).map (recoverBlock type dataSymbols symbols)
  if recovered.all Option.isSome then some (recovered.map (·.getD [])) else none

def codec : FecCodec := ⟨encode, decode⟩

theorem dataBlock_self {block : Bytes} (hlength : block.length = symbolSize) :
    dataBlock block symbolSize 0 = block := by
  unfold dataBlock
  simp [← hlength]

theorem encode_eq_some (hencode : encode type source paritySymbols symbolSize = some parity) :
    source ≠ [] ∧ parity = (List.range paritySymbols).map fun index =>
      dataBlock (source.getD ((start type paritySymbols + index) % source.length) [])
        symbolSize 0 := by
  unfold encode at hencode
  split at hencode
  · simp at hencode
  · next hsource => exact ⟨hsource, (Option.some.inj hencode).symm⟩

/-- Every recovered block is the source block. -/
theorem recoverBlock_eq (hsizes : ∀ block ∈ source, block.length = symbolSize)
    (hencode : encode type source paritySymbols symbolSize = some parity)
    (hlength : symbols.length = source.length + paritySymbols)
    (hsymbols : ∀ (index : Nat) (block : Bytes), symbols[index]? = some (some block) →
      (source ++ parity)[index]? = some block)
    (hrecover : recoverBlock type source.length symbols index = some block)
    (hindex : index < source.length) : source[index]? = some block := by
  obtain ⟨hsource, rfl⟩ := encode_eq_some hencode
  have hpresent : ∀ position, symbols.getD position none = some block →
      symbols[position]? = some (some block) := by
    intro position hsymbol
    rw [List.getD_eq_getElem?_getD] at hsymbol
    cases hlooked : symbols[position]? with
    | none => simp [hlooked] at hsymbol
    | some symbol =>
        rw [hlooked] at hsymbol
        exact congrArg some hsymbol
  have hparity : symbols.length - source.length = paritySymbols := by omega
  unfold recoverBlock at hrecover
  simp only [hparity, Option.or_eq_some_iff] at hrecover
  cases hrecover with
  | inl hhere =>
      have hblock := hsymbols index block (hpresent index hhere)
      rw [List.getElem?_append_left hindex] at hblock
      exact hblock
  | inr hrepeated =>
      obtain ⟨_, hfound⟩ := hrepeated
      obtain ⟨position, hposition, hsome⟩ := List.exists_of_findSome?_eq_some hfound
      obtain ⟨hturn, hsymbol⟩ := Option.ite_none_right_eq_some.mp hsome
      have hblock := hsymbols _ block (hpresent _ hsymbol)
      rw [List.getElem?_append_right (by omega)] at hblock
      have hparityBlock : source.getD index [] = block := by
        have hinside := List.mem_range.mp hposition
        simp only [Nat.add_sub_cancel_left, List.getElem?_map, List.getElem?_range hinside,
          Option.map_some, Option.some.injEq, hturn] at hblock
        rw [← hblock, dataBlock_self]
        rw [List.getD_eq_getElem?_getD, List.getElem?_eq_getElem hindex]
        exact hsizes _ (List.getElem_mem hindex)
      rw [List.getD_eq_getElem?_getD, List.getElem?_eq_getElem hindex] at hparityBlock
      rw [List.getElem?_eq_getElem hindex]
      exact congrArg some hparityBlock

theorem recovers_codec : codec.Recovers where
  sized type source paritySymbols symbolSize parity hencode := by
    obtain ⟨_, rfl⟩ := encode_eq_some hencode
    refine ⟨by simp, fun block hblock => ?_⟩
    obtain ⟨index, _, rfl⟩ := List.mem_map.mp hblock
    exact length_dataBlock _ _ _
  source type source paritySymbols symbolSize parity hsizes hencode symbols hlength hsymbols
      blocks hdecode := by
    obtain ⟨hall, rfl⟩ := Option.ite_none_right_eq_some.mp hdecode |>.imp_right Option.some.inj
    apply List.ext_getElem?
    intro index
    by_cases hindex : index < source.length
    · have hpresent : (recoverBlock type source.length symbols index).isSome := by
        apply List.all_eq_true.mp hall
        exact List.mem_map.mpr ⟨index, List.mem_range.mpr hindex, rfl⟩
      obtain ⟨block, hblock⟩ := Option.isSome_iff_exists.mp hpresent
      rw [recoverBlock_eq hsizes hencode hlength hsymbols hblock hindex]
      simp [hindex, hblock]
    · rw [List.getElem?_eq_none (by simpa using hindex),
        List.getElem?_eq_none (by simpa using hindex)]
  by_index source few many symbolSize parity more hfew hmany hle index hindex := by
    obtain ⟨_, rfl⟩ := encode_eq_some hfew
    obtain ⟨_, rfl⟩ := encode_eq_some hmany
    simp [start, hindex, hindex.trans_le hle]

end Repetition

end Qlinq
