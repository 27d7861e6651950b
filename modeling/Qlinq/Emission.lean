import Qlinq.Geometry
import Qlinq.Records
import Qlinq.Sending

namespace Qlinq

/-! Every FEC datagram an endpoint emits, repairs among them. -/

/-- The cached object can be cut into symbols again. -/
structure SentObject.Encodable (entry : SentObject) : Prop where
  rateless : (trackProfile entry.trackId).fecRateless = true
  cuts : entry.geometry.Cuts
  dataSymbols_le : entry.dataSymbols ≤ fecMaxTotalSymbols

theorem SentObject.Encodable.of_same {entry entry' : SentObject} (hsame : entry.Same entry')
    (hencodable : entry.Encodable) : entry'.Encodable := by
  have hgeometry : entry'.geometry = entry.geometry := by
    unfold geometry SentObject.size
    rw [hsame.data, hsame.dataSymbols, hsame.symbolSize]
  exact
    { rateless := by rw [hsame.trackId]; exact hencodable.rateless
      cuts := by rw [hgeometry]; exact hencodable.cuts
      dataSymbols_le := by rw [hsame.dataSymbols]; exact hencodable.dataSymbols_le }

/-! ### Repair batches -/

theorem appendUnique_lt (indices : List Nat)
    (hbatch : ∀ index ∈ batch, index < fecMaxTotalSymbols)
    (happend : appendUnique indices batch = some result) :
    ∀ index ∈ result, index < fecMaxTotalSymbols := by
  induction indices generalizing batch with
  | nil =>
      obtain rfl := Option.some.inj happend
      exact hbatch
  | cons index rest ih =>
      unfold appendUnique at happend
      split at happend
      · simp at happend
      next hindex =>
      split at happend
      · exact ih hbatch happend
      split at happend
      · simp at happend
      · refine ih (fun other hother => ?_) happend
        cases List.mem_append.mp hother with
        | inl hold => exact hbatch other hold
        | inr hnew =>
            obtain rfl := List.mem_singleton.mp hnew
            omega

theorem le_foldl_max (indices : List Nat) (start : Nat) :
    start ≤ indices.foldl max start ∧ ∀ index ∈ indices, index ≤ indices.foldl max start := by
  induction indices generalizing start with
  | nil => simp
  | cons index rest ih =>
      obtain ⟨hstart, hrest⟩ := ih (max start index)
      simp only [List.foldl_cons, List.forall_mem_cons]
      exact ⟨by omega, by omega, hrest⟩

theorem foldl_max_lt (indices : List Nat) (hstart : start < bound)
    (hindices : ∀ index ∈ indices, index < bound) : indices.foldl max start < bound := by
  induction indices generalizing start with
  | nil => exact hstart
  | cons index rest ih =>
      obtain ⟨hhere, hrest⟩ := List.forall_mem_cons.mp hindices
      exact ih (by omega) hrest

/-- The batch of a cached object holds symbols a receiver admits. -/
structure RepairBatch.Admissible (batch : RepairBatch) (entry : SentObject) : Prop where
  symbolSize : batch.symbolSize = entry.symbolSize
  totalSymbols_ge : entry.dataSymbols ≤ batch.totalSymbols
  totalSymbols_le : batch.totalSymbols ≤ fecMaxTotalSymbols
  indices_lt : ∀ index ∈ batch.indices, index < batch.totalSymbols
  length_symbols : batch.symbols.length = batch.indices.length
  symbol_length : ∀ symbol ∈ batch.symbols, symbol.length = entry.symbolSize

theorem admissible_repairBuild {codec : FecCodec} (hsized : codec.Sized)
    {entry : SentObject} (hencodable : entry.Encodable)
    (hbuild : repairBuild codec entry wholeObject missing = some batch) :
    batch.Admissible entry := by
  simp only [repairBuild] at hbuild
  split at hbuild
  · simp at hbuild
  generalize hselect : (if wholeObject = true then
    some (List.range (min entry.dataSymbols repairMaxSymbols))
    else appendUnique (missing.take repairMaxSymbols) []) = requested at hbuild
  have hrequested : ∀ indices, requested = some indices →
      ∀ index ∈ indices, index < fecMaxTotalSymbols := by
    rintro indices rfl
    split at hselect
    · obtain rfl := Option.some.inj hselect
      intro index hindex
      have hlt := List.mem_range.mp hindex
      have hle := hencodable.dataSymbols_le
      omega
    · exact appendUnique_lt _ (by simp) hselect
  split at hbuild
  · simp at hbuild
  · simp at hbuild
  next indices _ =>
  have hlt := hrequested indices rfl
  have hzero : 0 < fecMaxTotalSymbols := by decide
  have hhighest := foldl_max_lt indices hzero hlt
  obtain ⟨_, hle⟩ := le_foldl_max indices 0
  obtain ⟨-, hbuilt⟩ := Option.ite_none_left_eq_some.mp hbuild
  obtain ⟨blocks, hblocks, rfl⟩ := Option.map_eq_some_iff.mp hbuilt
  simp only [hencodable.rateless, if_true] at hblocks ⊢
  generalize indices.foldl max 0 = highest at hblocks hhighest hle ⊢
  generalize hneeded : (if entry.dataSymbols ≤ highest then highest - entry.dataSymbols + 1
    else 0) = needed at hblocks ⊢
  have htotal : entry.dataSymbols + needed = max entry.dataSymbols (highest + 1) := by
    split at hneeded <;> omega
  have hdata := hencodable.dataSymbols_le
  have hinside : ∀ index ∈ indices, index < entry.dataSymbols + needed := by
    intro index hindex
    have hbound := hle index hindex
    omega
  refine
    { symbolSize := rfl
      totalSymbols_ge := Nat.le_add_right _ _
      totalSymbols_le := by
        show entry.dataSymbols + needed ≤ fecMaxTotalSymbols
        omega
      indices_lt := hinside
      length_symbols := List.length_map _
      symbol_length := fun symbol hsymbol => ?_ }
  obtain ⟨index, hindex, rfl⟩ := List.mem_map.mp hsymbol
  exact length_getD_symbolBlocks hsized hblocks (hinside index hindex)

namespace Transport

theorem admissible_repairAnswer {codec : FecCodec} (hsized : codec.Sized)
    {entry : SentObject} (hencodable : entry.Encodable)
    (hanswer : repairAnswer codec entry nack = some (batch, commit)) :
    batch.Admissible entry := by
  have hrateless : ∀ requested batch,
      repairBuildRateless codec entry requested = some batch → batch.Admissible entry := by
    intro requested batch hbuild
    unfold repairBuildRateless at hbuild
    split at hbuild
    · simp at hbuild
    · exact admissible_repairBuild hsized hencodable hbuild
  have hsystematic : ∀ requested batch,
      repairBuildSystematicFallback codec entry requested = some batch →
      batch.Admissible entry := by
    intro requested batch hbuild
    unfold repairBuildSystematicFallback at hbuild
    split at hbuild
    · simp at hbuild
    · exact admissible_repairBuild hsized hencodable hbuild
  simp only [repairAnswer] at hanswer
  split at hanswer
  · split at hanswer
    · next hbuild =>
        obtain ⟨rfl, rfl⟩ := Prod.mk.inj (Option.some.inj hanswer)
        exact hrateless _ _ hbuild
    · split at hanswer
      · simp at hanswer
      · obtain ⟨built, hbuild, hpair⟩ := Option.map_eq_some_iff.mp hanswer
        obtain ⟨rfl, rfl⟩ := Prod.mk.inj hpair
        exact hsystematic _ _ hbuild
  · split at hanswer
    · simp at hanswer
    · obtain ⟨built, hbuild, hpair⟩ := Option.map_eq_some_iff.mp hanswer
      obtain ⟨rfl, rfl⟩ := Prod.mk.inj hpair
      exact admissible_repairBuild hsized hencodable hbuild

end Transport

theorem wellFormed_repairPacket {batch : RepairBatch} {entry : SentObject}
    (hadmissible : batch.Admissible entry) (hencodable : entry.Encodable)
    (hposition : position < batch.indices.length) (c : Conn) (a : TrackAlias) :
    (repairPacket c a entry batch position).message.WellFormed := by
  have hindex : batch.indices.getD position 0 < batch.totalSymbols := by
    rw [List.getD_eq_getElem?_getD, List.getElem?_eq_getElem hposition]
    exact hadmissible.indices_lt _ (List.getElem_mem hposition)
  have hinside : position < batch.symbols.length := by
    rw [hadmissible.length_symbols]
    exact hposition
  have hsymbol : (batch.symbols.getD position []).length = batch.symbolSize := by
    rw [List.getD_eq_getElem?_getD, List.getElem?_eq_getElem hinside, hadmissible.symbolSize]
    exact hadmissible.symbol_length _ (List.getElem_mem hinside)
  have hsize : (repairPacket c a entry batch position).message.header.symbolSize =
      entry.symbolSize := hadmissible.symbolSize
  exact
    { totalSymbols_le := hadmissible.totalSymbols_le
      symbolSize_pos := by rw [hsize]; exact hencodable.cuts.symbolSize_pos
      symbolSize_le := by rw [hsize]; exact hencodable.cuts.symbolSize_le
      dataSymbols_pos := hencodable.cuts.dataSymbols_pos
      dataSymbols_le := hadmissible.totalSymbols_ge
      symbolIndex_lt := hindex
      originalSize_pos := hencodable.cuts.originalSize_pos
      originalSize_le := by rw [hsize]; exact hencodable.cuts.originalSize_le
      symbol_length := hsymbol }

namespace Transport

/-! ### What a run keeps -/

/-- The grouping buffer holds no more than one long record, and every cached object can
be cut again. -/
structure Prepared (t : Transport) : Prop where
  udp : t.limits.maxUdpPayloadSize ≤ 1500
  buffer : t.fecBuf.length ≤ maxFecRecordSize + 2
  cached : ∀ entry ∈ t.sentCache.occupied, entry.Encodable

namespace Prepared

theorem stays {t t' : Transport} (hprepared : Prepared t) (hstays : Stays t t')
    (hlimits : t'.limits = t.limits) (hbuffer : t'.fecBuf.length ≤ maxFecRecordSize + 2) :
    Prepared t' where
  udp := by rw [hlimits]; exact hprepared.udp
  buffer := hbuffer
  cached := fun entry hentry => hprepared.cached entry (hstays.cached entry hentry)

theorem echo {t t' : Transport} (hprepared : Prepared t) (hechoes : Echoes t t')
    (hgrouping : SameGrouping t t') : Prepared t' where
  udp := by rw [hgrouping.limits]; exact hprepared.udp
  buffer := by rw [hgrouping.fecBuf]; exact hprepared.buffer
  cached := by
    intro entry' hentry'
    obtain ⟨entry, hentry, hsame⟩ := hechoes.cached entry' hentry'
    exact (hprepared.cached entry hentry).of_same hsame

end Prepared

theorem encodable_of_describes {t : Transport} (hudp : t.limits.maxUdpPayloadSize ≤ 1500)
    {object : MoqObject} (hrateless : object.trackId.isRatelessData = true)
    (hobject : 0 < object.size) (hdata : t.objectDataSymbols object ≤ fecMaxTotalSymbols)
    (hdescribes : SentCache.Describes entry object (t.objectDataSymbols object)
      (t.objectSymbolSize object)) : entry.Encodable := by
  obtain ⟨hidentity, hcopied, hsymbols, hsize⟩ := hdescribes
  obtain ⟨htrack, _, _⟩ := SentCache.hasIdentity_iff.mp hidentity
  have hgeometry : entry.geometry = t.objectGeometry object := by
    unfold SentObject.geometry SentObject.size
    rw [hcopied, hsymbols, hsize]
    rfl
  refine
    { rateless := ?_
      cuts := by rw [hgeometry]; exact cuts_objectGeometry hudp hobject
      dataSymbols_le := by rw [hsymbols]; exact hdata }
  rw [htrack]
  unfold TrackId.isRatelessData at hrateless
  exact (Bool.and_eq_true_iff.mp hrateless).2

/-- The cache retains an object only when it needs few symbols: a group does, and of
any other object symbols were queued. -/
theorem prepared_publishDatagrams {t : Transport} (hprepared : Prepared t) (env : FlushEnv)
    (object : MoqObject) (inFlush : Bool)
    (hgroup : inFlush = true → object.size ≤ maxFecRecordSize + 2) :
    Prepared (t.publishDatagrams env object inFlush).1 := by
  unfold publishDatagrams
  split
  · exact hprepared
  next hsize =>
  extract_lets cached protectCache tally
  split
  · exact hprepared
  refine ⟨hprepared.udp, hprepared.buffer, fun entry hentry => ?_⟩
  simp only [retainSent] at hentry
  split at hentry
  · next hretained =>
      simp only [Bool.and_eq_true, Bool.or_eq_true, bne_iff_ne] at hretained
      have hstores := SentCache.stores_store t.sentCache object tally.maximumSentSymbols
        (t.objectDataSymbols object) (t.objectSymbolSize object) (!protectCache)
        env.storeAllocates fun _ => false
      cases hstores.mem entry hentry with
      | inl hold => exact hprepared.cached entry hold
      | inr hnew =>
          have hdata : t.objectDataSymbols object ≤ fecMaxTotalSymbols := by
            cases attempt_of_tally hretained.2 with
            | inl hflush => exact objectDataSymbols_le (hgroup hflush)
            | inr hattempt =>
                obtain ⟨c, _, _, hqueues⟩ := hattempt
                exact dataSymbols_le_of_queuesSymbols _ c object _ _ _ hqueues
          exact encodable_of_describes hprepared.udp hretained.1 (by omega) hdata hnew.1
  · exact hprepared.cached entry hentry

theorem prepared_publishUngrouped {t : Transport} (hprepared : Prepared t) (env : FlushEnv)
    (object : MoqObject) (inFlush : Bool)
    (hgroup : inFlush = true → object.size ≤ maxFecRecordSize + 2) :
    Prepared (t.publishUngrouped env object inFlush).1 := by
  unfold publishUngrouped
  split
  · exact hprepared
  split
  · have hgrouping := publishReliable_grouping t env object
    have hsame : (t.publishReliable env object).1.sentCache = t.sentCache := by
      unfold publishReliable
      split
      · rfl
      split
      · rfl
      · split <;> rfl
    exact
      { udp := by rw [hgrouping.limits]; exact hprepared.udp
        buffer := by rw [hgrouping.fecBuf]; exact hprepared.buffer
        cached := by rw [hsame]; exact hprepared.cached }
  · exact prepared_publishDatagrams hprepared env object inFlush hgroup

theorem prepared_flushed {t t' : Transport} {env : FlushEnv} (hprepared : Prepared t)
    (hflushed : Flushed t env t' result) : Prepared t' := by
  have hattempted : ∀ {slotted attempted : Transport} {state : FecTrackState}
      {outcome : PublishResult},
      t.createFecTrackState t.fecTrackId = some (slotted, state) →
      slotted.attempting.publishUngrouped env (slotted.groupObject state) true =
        (attempted, outcome) → Prepared attempted := by
    intro slotted attempted state outcome hslot hattempt
    have hslotted : slotted.attempting.limits = t.limits ∧
        slotted.attempting.fecBuf = t.fecBuf ∧ slotted.fecBuf = t.fecBuf := by
      cases createFecTrackState_cases hslot with
      | inl hfound =>
          obtain ⟨rfl, _⟩ := hfound
          exact ⟨rfl, rfl, rfl⟩
      | inr hfresh =>
          obtain ⟨_, _, _, rfl⟩ := hfresh
          exact ⟨rfl, rfl, rfl⟩
    have hready : Prepared slotted.attempting :=
      hprepared.stays (stays_createFecTrackState hslot) hslotted.1
        (by rw [hslotted.2.1]; exact hprepared.buffer)
    have hmade := prepared_publishUngrouped hready env (slotted.groupObject state) true
      fun _ => by
        show slotted.fecBuf.length ≤ maxFecRecordSize + 2
        rw [hslotted.2.2]
        exact hprepared.buffer
    rwa [hattempt] at hmade
  cases hflushed with
  | empty hempty => exact hprepared
  | noSlot hbuffer hslot => exact hprepared
  | failed hbuffer hslot hattempt hdelivered hnobody => exact hattempted hslot hattempt
  | @committed slotted state attempted _ hbuffer hslot hattempt hresult =>
      have hmade := hattempted hslot hattempt
      have hsent := sends_commitGroup attempted state (slotted.groupObject state)
      refine hmade.stays (stays_commitGroup _ _ _) hsent.limits ?_
      have hempty : (attempted.commitGroup state (slotted.groupObject state)).fecBuf = [] := by
        simp only [commitGroup]
        split <;> rfl
      simp [hempty]

theorem prepared_room {t s : Transport} {env : FlushEnv} (hprepared : Prepared t)
    (hroom : Room t env object (groupLimit fecLimit) s) :
    Prepared s ∧ (s.fecBuf = [] ∨ s.fecBuf.length + 2 + object.size ≤ maxFecRecordSize + 2) := by
  cases hroom with
  | here hforeign hfull =>
      refine ⟨hprepared, ?_⟩
      by_cases hempty : t.fecBuf = []
      · exact Or.inl hempty
      · right
        have hlimit : groupLimit fecLimit ≤ 32768 := Nat.min_le_right _ _
        simp only [groupFull, Bool.and_eq_false_iff, bne_eq_false_iff_eq, hempty, false_or,
          Bool.or_eq_false_iff, decide_eq_false_iff_not] at hfull
        unfold maxFecRecordSize
        omega
  | emptied hdue hflush =>
      have hflushed := flushed t env
      rw [hflush] at hflushed
      refine ⟨prepared_flushed hprepared hflushed, Or.inl ?_⟩
      rcases hflushed.buffer.1 with ⟨hne, _⟩ | ⟨_, hempty, _⟩
      · exact absurd rfl hne
      · exact hempty

theorem prepared_stageRecord {t : Transport} (hprepared : Prepared t) (env : PublishEnv)
    (object : MoqObject)
    (hsize : (t.stageRecord env object).2 = none → object.size ≤ maxFecRecordSize) :
    Prepared (t.stageRecord env object).1 := by
  have hstaged := staged t env object
  revert hstaged hsize
  generalize (t.stageRecord env object).1 = t'
  generalize (t.stageRecord env object).2 = refused
  intro hsize hstaged
  cases hstaged with
  | refused hdue hflush hresult =>
      have hflushed := flushed t env.before
      rw [hflush] at hflushed
      exact prepared_flushed hprepared hflushed
  | @unallocated s hroom happend =>
      have hs := (prepared_room hprepared hroom).1
      have hbegun : (s.beginGroup object).fecBuf = s.fecBuf := by
        unfold beginGroup
        split <;> rfl
      exact hs.stays (stays_beginGroup s object) (sends_beginGroup s object).limits
        (by rw [hbegun]; exact hs.buffer)
  | @appended s _ hroom happend =>
      obtain ⟨hs, hroomy⟩ := prepared_room hprepared hroom
      have hsize := hsize rfl
      have hbegun : (s.beginGroup object).fecBuf = s.fecBuf := by
        unfold beginGroup
        split <;> rfl
      have hlength : t'.fecBuf.length = s.fecBuf.length + 2 + object.size := by
        simp only [appendRecord] at happend
        split at happend
        · simp at happend
        · obtain rfl := Option.some.inj happend
          simp only [hbegun, u16be, MoqObject.size, List.length_append, List.length_cons,
            List.length_nil]
      refine hs.stays ((stays_beginGroup s object).trans (stays_appendRecord happend))
        ((sends_beginGroup s object).trans (sends_appendRecord happend)).limits ?_
      rw [hlength]
      cases hroomy with
      | inl hempty =>
          simp only [hempty, List.length_nil]
          omega
      | inr hroomy => exact hroomy

theorem prepared_publish {t : Transport} (hprepared : Prepared t) (env : PublishEnv)
    (object : MoqObject) : Prepared (t.publish env object).1 := by
  have hstaged := prepared_stageRecord hprepared env object
  have hcases := published_cases t env object
  revert hcases
  generalize (t.publish env object).1 = t'
  generalize (t.publish env object).2 = result
  intro hcases
  cases hcases with
  | refused hinvalid => exact hprepared
  | direct hconflict hgroups hattempt =>
      have hmade := prepared_publishUngrouped hprepared env.direct object false (by simp)
      rwa [hattempt] at hmade
  | oversized hgroups => exact hprepared
  | unstaged hgroups hstage =>
      rw [hstage] at hstaged
      exact hstaged (by simp)
  | buffered hgroups hsize hstage =>
      rw [hstage] at hstaged
      exact hstaged fun _ => hsize
  | @completed s _ _ hgroups hsize hstage hcomplete hflush =>
      rw [hstage] at hstaged
      have hflushed := flushed s env.after
      rw [hflush] at hflushed
      exact prepared_flushed (hstaged fun _ => hsize) hflushed

theorem prepared_finishTrack {t : Transport} (hprepared : Prepared t) (env : FlushEnv)
    (track : TrackId) : Prepared (t.finishTrack env track).1 := by
  have hflushes : ∀ {t' : Transport} {result : PublishResult},
      t.flushGrouped env = (t', result) → Prepared t' := by
    intro t' result hflush
    have hflushed := flushed t env
    rw [hflush] at hflushed
    exact prepared_flushed hprepared hflushed
  have hsettled : ∀ s, Settled t env track s → Prepared s := by
    intro s hsettled
    cases hsettled with
    | here hother => exact hprepared
    | flushed hpending hflush => exact hflushes hflush
  have hfinished := finished t env track
  revert hfinished
  generalize (t.finishTrack env track).1 = t'
  intro hfinished
  cases hfinished with
  | refused => exact hprepared
  | unflushed hpending hflush hresult => exact hflushes hflush
  | unused hunused => exact hsettled _ hunused
  | @announced s state hrateless hannounced hfound hobjects =>
      have hs := hsettled s hannounced
      exact hs.stays (stays_announceEnd s track state) (sends_announceEnd s track state).limits
        hs.buffer

theorem prepared_apply {t : Transport} (hprepared : Prepared t) (op : Op) :
    Prepared (t.apply op) := by
  cases hquiet : op.quiet with
  | true => exact hprepared.echo (echoes_apply t hquiet) (grouping_apply t hquiet)
  | false =>
      cases op with
      | publish env object => exact prepared_publish hprepared env object
      | flush env => exact prepared_flushed hprepared (flushed t env)
      | finish env track => exact prepared_finishTrack hprepared env track
      | _ => simp [Op.quiet] at hquiet

theorem prepared_init (isServer : Bool) {limits : TransportLimits}
    (hudp : limits.maxUdpPayloadSize ≤ 1500) (maxRecoveryCacheBytes : Nat) :
    Prepared (init isServer limits maxRecoveryCacheBytes) where
  udp := hudp
  buffer := Nat.zero_le _
  cached := by simp [init, SentCache.init, SentCache.mem_occupied]

end Transport

/-! ### Admissible runs -/

/-- Every datagram of the connection passes the checks its limits call for; before the
HELLO there is none. -/
structure Conn.Admissible (c : Conn) : Prop where
  datagrams : ∀ packet ∈ c.datagrams, c.datagramValid packet.message = true
  greeting : c.helloReceived = false → c.protocolReady = false ∧ c.datagrams = []

namespace Conn

theorem Admissible.congr {c c' : Conn} (hadmissible : c.Admissible)
    (hdatagrams : c'.datagrams = c.datagrams)
    (hlimits : c'.negotiatedLimits = c.negotiatedLimits)
    (hhello : c'.helloReceived = c.helloReceived)
    (hready : c'.protocolReady = c.protocolReady) : c'.Admissible where
  datagrams := by
    intro packet hpacket
    rw [hdatagrams] at hpacket
    rw [datagramValid_congr hlimits]
    exact hadmissible.datagrams packet hpacket
  greeting := by
    rw [hhello, hready, hdatagrams]
    exact hadmissible.greeting

theorem Admissible.of_lasting {c c' : Conn} (hadmissible : c.Admissible)
    (hsame : c'.lasting = c.lasting) : c'.Admissible :=
  hadmissible.congr (datagrams_of_lasting hsame) (negotiatedLimits_of_lasting hsame)
    (lasting_unwritten hsame Conn.helloReceived fun _ => rfl)
    (lasting_unwritten hsame Conn.protocolReady fun _ => rfl)

theorem Admissible.sends {c c' : Conn} (hadmissible : c.Admissible)
    (hsends : SendsWithin c c') : c'.Admissible where
  datagrams := by
    intro packet hpacket
    rw [datagramValid_congr hsends.negotiatedLimits]
    obtain ⟨packets, hpackets, hvalid⟩ := hsends.datagrams
    rw [hpackets] at hpacket
    cases List.mem_append.mp hpacket with
    | inl hold => exact hadmissible.datagrams packet hold
    | inr hnew => exact (hvalid packet hnew).2
  greeting := by
    intro hgreeting
    rw [hsends.helloReceived] at hgreeting
    obtain ⟨hready, hnone⟩ := hadmissible.greeting hgreeting
    obtain ⟨packets, hpackets, hvalid⟩ := hsends.datagrams
    refine ⟨hsends.protocolReady.trans hready, ?_⟩
    rw [hpackets, hnone, List.nil_append]
    refine List.eq_nil_iff_forall_not_mem.mpr fun packet hpacket => ?_
    have hother := (hvalid packet hpacket).1
    simp [hready] at hother

theorem Admissible.hello {c : Conn} (hadmissible : c.Admissible) (limits : TransportLimits)
    (hello : Hello) : (c.receiveHello limits hello).Admissible := by
  unfold receiveHello
  split
  · exact hadmissible
  split
  · exact hadmissible.of_lasting (receives_quiclyClose _ _ _).lasting
  next hfirst =>
  have hgreeting : c.helloReceived = false := by
    cases hreceived : c.helloReceived with
    | true => exact absurd (Or.inl hreceived) hfirst
    | false => rfl
  obtain ⟨_, hnone⟩ := hadmissible.greeting hgreeting
  exact ⟨by simp [hnone], by simp⟩

end Conn

namespace Transport

open Conn (receives_quiclyClose)

def Op.CodecsSized : Op → Prop
  | .publish env _ => env.CodecsSized
  | .flush env => env.CodecsSized
  | .finish env _ => env.CodecsSized
  | .receive env _ _ => env.codec.Sized
  | _ => True

/-- A NACK that may be answered names an object within the FEC limit negotiated with
its sender. -/
def RepairsWithin (t : Transport) : Op → Prop
  | .receive env connId (.nack nack) =>
      ∀ c, Keyed.lookup Conn.id connId t.conns = some c → c.closed = none →
        c.authenticated = true → env.requestAllowed = true → env.aggregateAllowed = true →
        ∀ track, c.sendSubscriptions.findByAlias nack.trackAlias = some track →
        ∀ entry, t.sentCache.find track nack.groupId nack.objectId = some entry →
          entry.size ≤ c.negotiatedLimits.maxFecObjectSize
  | _ => True

def Admissible (t : Transport) : Prop := ∀ c ∈ t.conns, c.Admissible

theorem admissible_updateConn {t : Transport} (hconns : Admissible t)
    (connId : Nat) {update : Conn → Conn}
    (hupdate : ∀ c : Conn, c.Admissible → (update c).Admissible) :
    Admissible (t.updateConn connId update) := by
  intro c' hc'
  cases Keyed.mem_adjust.mp hc' with
  | inl hold => exact hconns c' hold.1
  | inr hnew =>
      obtain ⟨c, hc, _, rfl⟩ := hnew
      exact hupdate c (hconns c hc)

theorem admissible_stays {t t' : Transport} (hconns : Admissible t)
    (hstays : Stays t t') : Admissible t' := by
  intro c' hc'
  obtain ⟨c, hc, hsame⟩ := hstays.conns c' hc'
  exact (hconns c hc).of_lasting hsame

theorem admissible_sends {t t' : Transport} (hconns : Admissible t)
    (hsends : Sends t t') : Admissible t' := by
  intro c' hc'
  obtain ⟨c, hc, hwithin⟩ := Pointwise.exists_left hsends.conns hc'
  exact (hconns c hc).sends hwithin

/-- The packets of an answer pass the checks of a peer whose limit the object meets. -/
theorem admissible_receiveNack {t : Transport} {c : Conn} {env : RepairEnv} {nack : Nack}
    (hprepared : Prepared t) (hconns : Admissible t)
    (hlookup : Keyed.lookup Conn.id connId t.conns = some c) (hopen : c.closed = none)
    (hhello : c.helloReceived = true) (hauthenticated : c.authenticated = true)
    (hsized : env.codec.Sized)
    (hwithin : t.RepairsWithin (.receive env connId (.nack nack))) :
    Admissible (t.receiveNack env c nack) := by
  have hc := (Keyed.mem_of_lookup hlookup).1
  simp only [receiveNack]
  split
  · exact hconns
  next hallowed =>
  split
  · exact hconns
  next track htrack =>
  split
  · exact admissible_stays hconns (stays_receives hc (receives_quiclyClose _ _ _))
  split
  · exact hconns
  next entry hfind =>
  split
  · exact hconns
  next haggregate =>
  split
  · exact hconns
  next batch commit hanswer =>
  have hencodable := hprepared.cached entry (SentCache.mem_of_find hfind).1
  have hadmissible := admissible_repairAnswer hsized hencodable hanswer
  have hsize := hwithin c hlookup hopen hauthenticated (by simpa using hallowed)
    (by simpa using haggregate) track htrack entry hfind
  intro c' hc'
  rcases Keyed.mem_adjust.mp hc' with ⟨hold, _⟩ | ⟨_, _, _, rfl⟩
  · exact hconns c' hold
  refine ⟨fun packet hpacket => ?_, fun hgreeting => by simp [hhello] at hgreeting⟩
  cases List.mem_append.mp hpacket with
  | inl hbefore => exact (hconns c hc).datagrams packet hbefore
  | inr hnew =>
      obtain ⟨position, hposition, rfl⟩ := List.mem_map.mp hnew
      have hinside : position < batch.indices.length := by
        have := List.mem_range.mp hposition
        omega
      exact Conn.datagramValid_iff.mpr
        ⟨wellFormed_repairPacket hadmissible hencodable hinside c _, hsize⟩

theorem admissible_apply {t : Transport} (hprepared : Prepared t)
    (hconns : Admissible t) (op : Op) (hsized : op.CodecsSized)
    (hwithin : t.RepairsWithin op) : Admissible (t.apply op) := by
  cases op with
  | publish env object =>
      exact admissible_sends hconns (sends_publish hsized hprepared.udp object)
  | flush env =>
      exact admissible_sends hconns (sends_flushed hsized hprepared.udp (flushed t env))
  | finish env track =>
      exact admissible_sends hconns (sends_finishTrack hsized hprepared.udp track)
  | connect =>
      intro c hc
      cases List.mem_append.mp hc with
      | inl hold => exact hconns c hold
      | inr hnew =>
          obtain rfl := List.mem_singleton.mp hnew
          exact ⟨by simp [Conn.init], by simp [Conn.init]⟩
  | hello connId hello =>
      exact admissible_updateConn hconns connId fun c hc => hc.hello t.limits hello
  | respondAuth connId success =>
      refine admissible_updateConn hconns connId fun c hc => ?_
      unfold Conn.respondAuth
      split
      · exact hc
      split
      · exact hc.congr rfl rfl rfl rfl
      · exact hc.of_lasting (receives_quiclyClose _ _ _).lasting
  | receive env connId frame =>
      simp only [apply]
      cases receiveControlFrame_cases t env connId frame with
      | inl hstays => exact admissible_stays hconns hstays
      | inr hanswered =>
          obtain ⟨c, nack, hlookup, rfl, hopen, hhello, hauthenticated, hnack⟩ := hanswered
          rw [hnack]
          exact admissible_receiveNack hprepared hconns hlookup hopen hhello hauthenticated
            hsized hwithin
  | admissions connId admissions =>
      exact admissible_updateConn hconns connId fun c hc => hc.congr rfl rfl rfl rfl
  | close connId code reason =>
      exact admissible_updateConn hconns connId fun c hc =>
        hc.of_lasting (receives_quiclyClose c code reason).lasting
  | disconnect connId => exact admissible_stays hconns (stays_disconnect t connId)

/-- Every datagram sent to a peer passes the checks of the peer's end of the
connection. -/
def Admitted (own : ConfiguredLimits) (t : Transport) : Prop :=
  ∀ c ∈ t.conns, ∀ peer : ConfiguredLimits, peer.Resolved →
    Negotiated own.toTransportLimits peer.toTransportLimits c →
    ∀ d, Negotiated peer.toTransportLimits own.toTransportLimits d →
    ∀ packet ∈ c.datagrams, d.datagramValid packet.message = true

/-- In a run whose NACKs name objects within their sender's limit, every publication
and every repair is admitted. -/
theorem run_admitted {own : ConfiguredLimits} (hown : own.Resolved) (isServer : Bool)
    (ops : List Op) (hsized : ∀ op ∈ ops, op.CodecsSized)
    (hwithin : Machine.Along apply RepairsWithin
      (init isServer own.toTransportLimits own.maxRecoveryCacheBytes) ops) :
    Admitted own ((init isServer own.toTransportLimits own.maxRecoveryCacheBytes).run ops) := by
  have hinvariant : Prepared ((init isServer own.toTransportLimits
        own.maxRecoveryCacheBytes).run ops) ∧
      Admissible ((init isServer own.toTransportLimits own.maxRecoveryCacheBytes).run ops) :=
    Machine.invariant_run
      (fun t op (hinv : Prepared t ∧ Admissible t)
          (hok : t.RepairsWithin op ∧ op.CodecsSized) =>
        ⟨prepared_apply hinv.1 op, admissible_apply hinv.1 hinv.2 op hok.2 hok.1⟩)
      ⟨prepared_init isServer hown.udp_le own.maxRecoveryCacheBytes,
        fun _ hc => absurd hc List.not_mem_nil⟩ (hwithin.and_mem hsized)
  intro c hc peer hpeer hhere d hthere packet hpacket
  obtain ⟨_, hfec, _, _⟩ := negotiated_agree hown hpeer hhere hthere
  obtain ⟨hformed, hlimit⟩ :=
    Conn.datagramValid_iff.mp ((hinvariant.2 c hc).datagrams packet hpacket)
  exact Conn.datagramValid_iff.mpr ⟨hformed, by rw [← hfec]; exact hlimit⟩

theorem repairsWithin_of_short {t : Transport}
    (hshort : ∀ c ∈ t.conns, ∀ entry ∈ t.sentCache.occupied,
      entry.size ≤ c.negotiatedLimits.maxFecObjectSize) (op : Op) : t.RepairsWithin op := by
  unfold RepairsWithin
  split
  · intro c hlookup _ _ _ _ track _ entry hfind
    exact hshort c (Keyed.mem_of_lookup hlookup).1 entry (SentCache.mem_of_find hfind).1
  · trivial

theorem sized_blankCodec : blankCodec.Sized := by
  rintro type blocks paritySymbols symbolSize parity hencode
  obtain rfl := Option.some.inj hencode
  exact ⟨List.length_replicate, fun block hblock => by
    rw [List.eq_of_mem_replicate hblock, List.length_replicate]⟩

theorem sized_quietFlush : quietFlush.CodecsSized := fun _ => sized_blankCodec

def wholeObject (a : TrackAlias) (objectId : Nat) : Nack where
  trackAlias := a
  wholeObject := true
  rateless := false
  groupId := 0
  objectId := objectId
  missingCount := 0
  indices := []

/-- The subscriber asks for the object again. -/
def repairedRun : List Op :=
  statusRun [7, 7] ++ [.receive quietRepair 0 (.nack (wholeObject 8 0))]

theorem run_admitted_repaired :
    Admitted defaultResolved ((init true defaultResolved.toTransportLimits
      defaultResolved.maxRecoveryCacheBytes).run repairedRun) := by
  refine run_admitted resolved_default true repairedRun ?_ ?_
  · simp only [repairedRun, statusRun, join, List.cons_append, List.nil_append,
      List.forall_mem_cons, Op.CodecsSized, true_and]
    exact ⟨sized_blankCodec, ⟨sized_quietFlush, sized_quietFlush, sized_quietFlush⟩,
      sized_quietFlush, sized_blankCodec, fun _ hop => absurd hop List.not_mem_nil⟩
  · refine ⟨trivial, trivial, trivial, trivial, trivial, trivial, ?_, trivial⟩
    exact repairsWithin_of_short (by decide +kernel) _

/-- A peer that takes short objects only joins behind a longer one, and asks for it when
the end of the track names it. -/
def joinerRun : List Op :=
  statusRun (List.replicate 150 7) ++
    [.connect, .hello 1 (localHello shortResolved.toTransportLimits), .respondAuth 1 true,
      .receive quietRepair 1 (.subscribe 8 statusTrack), .finish quietFlush statusTrack,
      .receive quietRepair 1 (.nack (wholeObject 8 0))]

/-- The repair is longer than the joiner takes. -/
theorem joiner_sent_long_repair :
    ¬ Admitted defaultResolved ((init true defaultResolved.toTransportLimits
      defaultResolved.maxRecoveryCacheBytes).run joinerRun) := by
  intro hadmitted
  have hsent : ∃ c ∈ ((init true defaultResolved.toTransportLimits
      defaultResolved.maxRecoveryCacheBytes).run joinerRun).conns,
      c.negotiatedLimits = Conn.negotiate defaultResolved.toTransportLimits
        (localHello shortResolved.toTransportLimits) ∧
      ∃ packet ∈ c.datagrams, (greetedConn shortResolved defaultResolved).datagramValid
        packet.message = false := by
    decide +kernel
  obtain ⟨c, hc, hlimits, packet, hpacket, hrefused⟩ := hsent
  have hvalid := hadmitted c hc shortResolved resolved_short ⟨hlimits⟩
    (greetedConn shortResolved defaultResolved) ⟨rfl⟩ packet hpacket
  rw [hrefused] at hvalid
  exact absurd hvalid (by decide)

end Transport

end Qlinq
