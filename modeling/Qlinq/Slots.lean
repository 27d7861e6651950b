import Qlinq.GroupIds

namespace Qlinq

open Keyed (lookup)

/-! Track slots are taken by a track's first group and never given back. -/

namespace SubscriptionTable

theorem add_unbound {table : SubscriptionTable} (hname : track.name.length < maxTrackName)
    (hempty : table.entries = []) (hroom : 0 < table.capacity) :
    ∃ table', table.add track a = some table' ∧
      table'.entries = [{ trackId := track, trackAlias := a }] ∧
      table'.capacity = table.capacity := by
  have hnone : ∀ {κ : Type} [DecidableEq κ] (key : Subscription → κ) (k : κ),
      lookup key k table.entries = none := by
    intro κ _ key k
    simp [lookup, hempty]
  unfold add
  rw [if_neg (by omega)]
  split
  · next holder hholder => simp [hnone] at hholder
  split
  · next entry hentry => simp [hnone] at hentry
  rw [if_pos (by simpa [hempty] using hroom)]
  exact ⟨_, rfl, by simp [insertEntry, hempty], rfl⟩

theorem remove_single {table : SubscriptionTable} (hentries : table.entries = [entry]) :
    (table.remove entry.trackId).entries = [] ∧
      (table.remove entry.trackId).capacity = table.capacity := by
  have hfind : table.find entry.trackId = some entry := by
    simp [find, lookup, hentries, Subscription.key]
  simp [remove, hfind, removeAlias, Keyed.erase, hentries]

end SubscriptionTable

namespace Transport

/-- Publishing to nobody discards the object. -/
theorem publishDatagrams_unattended {t : Transport} (env : FlushEnv) (inFlush : Bool)
    (hnobody : ∀ c ∈ t.conns, t.recipientEligible c object.trackId = false)
    (hsize : object.size ≠ 0) (hlimit : object.size ≤ t.limits.maxFecObjectSize)
    (hplain : object.trackId.isRatelessData = false) :
    t.publishDatagrams env object inFlush = (t, .noRecipients) := by
  have hfecLimit : t.publicationFecLimit object.trackId = t.limits.maxFecObjectSize := by
    have hbound : t.limits.maxFecObjectSize ≤ t.publicationFecLimit object.trackId :=
      le_lowest_iff.mpr ⟨le_refl _, fun c hc heligible => by simp [hnobody c hc] at heligible⟩
    exact le_antisymm (lowest_le_start _ _ _ _) hbound
  have hadmitted : ¬ (object.size = 0 ∨
      t.publicationFecLimit object.trackId < object.size) := by
    rw [hfecLimit]
    omega
  have hturns : t.recipientTurns env object inFlush =
      t.conns.map fun c => (c, .skipped) :=
    List.map_congr_left fun c hc => publishRecipient_ineligible (hnobody c hc) env _ _ inFlush
  have htally : t.recipientTally env object inFlush =
      { maximumSentSymbols := t.objectDataSymbols object } := by
    have hskipped : ∀ (conns : List Conn) (start : Tally),
        ((conns.map fun _ => RecipientOutcome.skipped).foldl Tally.count start) = start := by
      intro conns start
      induction conns with
      | nil => rfl
      | cons c rest ih => simpa [Tally.count] using ih
    rw [recipientTally, hturns, List.map_map]
    exact hskipped _ _
  have hconns : (t.conns.map fun c => (c, RecipientOutcome.skipped)).map Prod.fst =
      t.conns := by
    rw [List.map_map]
    exact List.map_id _
  simp only [publishDatagrams, hadmitted, if_false, hplain, Bool.false_and,
    Bool.false_eq_true, retainSent, htally, hturns, hconns]
  rfl

theorem flagsConflict_unattended {t : Transport}
    (hnobody : ∀ c ∈ t.conns, t.recipientEligible c track = false) :
    t.flagsConflict track = false := by
  simp only [flagsConflict, List.any_eq_false, Bool.and_eq_true, not_and]
  intro c hc heligible
  simp [hnobody c hc] at heligible

/-- A plain FEC track: datagrams, no repairs. -/
structure PlainFec (track : TrackId) : Prop where
  valid : trackIdValid track = true
  data : track.type = .data
  fec : (trackProfile track).usesFec = true
  unreliable : (trackProfile track).reliable = false
  plain : (trackProfile track).fecRateless = false

theorem PlainFec.isRatelessData (hplain : PlainFec track) : track.isRatelessData = false := by
  simp [TrackId.isRatelessData, hplain.plain]

theorem PlainFec.name (hplain : PlainFec track) : track.name.length < maxTrackName := by
  have hvalid := hplain.valid
  simp only [trackIdValid, Bool.and_eq_true, decide_eq_true_eq] at hvalid
  exact hvalid.1.1

/-- The only peer, an authenticated one with the default limits. -/
structure Peer (t : Transport) (entries : List Subscription) : Prop where
  isServer : t.isServer = true
  limits : t.limits = defaultLimits
  conn : ∃ c, t.conns = [c] ∧ c.id = 0 ∧ c.closed = none ∧ c.helloReceived = true ∧
    c.protocolReady = true ∧ c.authenticated = true ∧
    c.negotiatedLimits = defaultLimits ∧ c.sendSubscriptions.entries = entries ∧
    0 < c.sendSubscriptions.capacity

theorem setConn_single {t : Transport} {c c' : Conn} (hconns : t.conns = [c])
    (hid : c'.id = c.id) : (t.setConn c').conns = [c'] := by
  simp [setConn, Keyed.adjust, hconns, hid]

theorem peer_subscribe {t : Transport} (hpeer : Peer t []) (hplain : PlainFec track)
    (hidle : t.fecFlushPending = false) (env : RepairEnv) (a : TrackAlias) :
    Peer (t.apply (.receive env 0 (.subscribe a track)))
      [{ trackId := track, trackAlias := a }] := by
  obtain ⟨hserver, hlimits, c, hconns, hid, hopen, hhello, hready, hauth, hnegotiated,
    hentries, hroom⟩ := hpeer
  obtain ⟨table, hadd, htable, hcapacity⟩ :=
    SubscriptionTable.add_unbound (a := a) hplain.name hentries hroom
  have hquiet : (Op.receive env 0 (.subscribe a track)).quiet = true := rfl
  have hsame := grouping_apply t hquiet
  refine ⟨hsame.isServer.trans hserver, hsame.limits.trans hlimits, ?_⟩
  have hlookup : lookup Conn.id 0 t.conns = some c := by simp [lookup, hconns, hid]
  have hcollides : aliasCollides c a track = false := by
    simp [aliasCollides, SubscriptionTable.findByAlias, lookup, hentries]
  have hmember : t.checkpointMemberAdded { c with sendSubscriptions := table } track a =
      { c with sendSubscriptions := table } := by
    simp [checkpointMemberAdded, hidle, hplain.isRatelessData]
  have happly : t.apply (.receive env 0 (.subscribe a track)) =
      t.receiveSubscribe c a track := by
    simp [apply, receiveControlFrame, hlookup, hopen, hhello, hauth, hplain.valid]
  have hnext : (t.apply (.receive env 0 (.subscribe a track))).conns =
      [{ c with sendSubscriptions := table }.emit (.subscribe track)] := by
    rw [happly, receiveSubscribe, hcollides, hadd]
    simp only [Bool.false_eq_true, if_false, hmember]
    exact setConn_single hconns rfl
  exact ⟨_, hnext, hid, hopen, hhello, hready, hauth, hnegotiated, htable, hcapacity ▸ hroom⟩

theorem peer_unsubscribe {t : Transport} (hpeer : Peer t [entry])
    (hvalid : trackIdValid entry.trackId = true) (env : RepairEnv) :
    Peer (t.apply (.receive env 0 (.unsubscribe entry.trackAlias entry.trackId))) [] := by
  obtain ⟨hserver, hlimits, c, hconns, hid, hopen, hhello, hready, hauth, hnegotiated,
    hentries, hroom⟩ := hpeer
  have hquiet : (Op.receive env 0 (.unsubscribe entry.trackAlias entry.trackId)).quiet =
      true := rfl
  have hsame := grouping_apply t hquiet
  refine ⟨hsame.isServer.trans hserver, hsame.limits.trans hlimits, ?_⟩
  have hlookup : lookup Conn.id 0 t.conns = some c := by simp [lookup, hconns, hid]
  have hreleased : ∀ (t : Transport) (track : TrackId),
      (t.releaseAckedCheckpoints track).conns = t.conns := by
    intro t track
    simp only [releaseAckedCheckpoints]
    repeat' split
    all_goals rfl
  have hremoved : (t.checkpointMemberRemoved c entry.trackId entry.trackAlias).conns = [c] ∨
      (t.checkpointMemberRemoved c entry.trackId entry.trackAlias).conns =
        [c.setCheckpointAck entry.trackAlias {}] := by
    simp only [checkpointMemberRemoved]
    split
    · exact Or.inl hconns
    · exact Or.inr ((hreleased _ _).trans (setConn_single hconns rfl))
  have happly : t.apply (.receive env 0 (.unsubscribe entry.trackAlias entry.trackId)) =
      t.receiveUnsubscribe c entry.trackAlias entry.trackId := by
    simp [apply, receiveControlFrame, hlookup, hopen, hhello, hauth, hvalid]
  rw [happly]
  obtain ⟨hnone, hcapacity⟩ := SubscriptionTable.remove_single hentries
  have hupdate : ∀ c' : Conn, (t.checkpointMemberRemoved c entry.trackId
      entry.trackAlias).conns = [c'] → c'.id = c.id →
      (t.receiveUnsubscribe c entry.trackAlias entry.trackId).conns =
        [{ c' with sendSubscriptions := c'.sendSubscriptions.remove entry.trackId }.emit
          (.unsubscribe entry.trackId)] := by
    intro c' hleft hsame
    simp [receiveUnsubscribe, updateConn, hleft, Keyed.adjust, hsame]
  rcases hremoved with hkept | hcleared
  · exact ⟨_, hupdate _ hkept rfl, hid, hopen, hhello, hready, hauth, hnegotiated, hnone,
      hcapacity ▸ hroom⟩
  · have hcleared' : (c.setCheckpointAck entry.trackAlias {}).sendSubscriptions.entries =
        [entry] := hentries
    obtain ⟨hnone, hcapacity⟩ := SubscriptionTable.remove_single hcleared'
    exact ⟨_, hupdate _ hcleared rfl, hid, hopen, hhello, hready, hauth, hnegotiated, hnone,
      hcapacity ▸ hroom⟩

/-! ### One visit to a track -/

theorem publicationFecLimit_peer {t : Transport} (hpeer : Peer t entries)
    (track : TrackId) : t.publicationFecLimit track = defaultLimits.maxFecObjectSize := by
  obtain ⟨-, hlimits, c, hconns, -, -, -, -, -, hnegotiated, -⟩ := hpeer
  have hbound : defaultLimits.maxFecObjectSize ≤ t.publicationFecLimit track := by
    refine le_lowest_iff.mpr ⟨by rw [hlimits], fun other hother _ => ?_⟩
    rw [hconns, List.mem_singleton] at hother
    rw [hother, hnegotiated]
  have hstart : t.publicationFecLimit track ≤ t.limits.maxFecObjectSize :=
    lowest_le_start _ _ _ _
  rw [hlimits] at hstart
  exact le_antisymm hstart hbound

/-- The transport after the record began a group of its own. -/
theorem stageRecord_empty {t : Transport} (env : PublishEnv) (hempty : t.fecBuf = [])
    (hgrows : env.grows = true) (object : MoqObject) :
    ∃ s, t.stageRecord env object = (s, none) ∧
      s.conns = (t.conns.map fun c => { c with fecGroupDelivered := false }) ∧
      s.isServer = t.isServer ∧ s.limits = t.limits ∧ s.fecTracks = t.fecTracks ∧
      s.fecFlushPending = t.fecFlushPending ∧ s.fecTrackId = object.trackId ∧
      s.fecBuf = u16be object.size ++ object.data ∧
      s.fecPktCount = t.fecPktCount + 1 := by
  have hforeign : t.groupForeign object = false := by simp [groupForeign, hempty]
  have hgrown : ∃ s, (t.beginGroup object).appendRecord env.grows object = some s := by
    simp [appendRecord, hgrows]
  obtain ⟨s, happend⟩ := hgrown
  refine ⟨s, ?_, ?_⟩
  · simp only [stageRecord, hforeign, makeRoom_false, groupFull_of_empty hempty, happend]
  · simp only [appendRecord, hgrows, beginGroup, hempty] at happend
    simp only [Bool.not_true, Bool.false_eq_true, and_false, if_false, if_true,
      Option.some.injEq, List.nil_append] at happend
    subst happend
    exact ⟨rfl, rfl, rfl, rfl, rfl, rfl, rfl, rfl⟩

theorem peer_subscribed {t : Transport}
    (hpeer : Peer t [{ trackId := track, trackAlias := a }]) (hplain : PlainFec track) :
    t.flagsConflict track = false ∧ t.groupsRecords track = true := by
  obtain ⟨hserver, -, c, hconns, -, hopen, -, hready, hauth, -, hentries, -⟩ := hpeer
  have hfind : c.sendSubscriptions.find track =
      some { trackId := track, trackAlias := a } := by
    simp [SubscriptionTable.find, lookup, hentries, Subscription.key]
  constructor
  · simp [flagsConflict, hconns, hfind]
  · simp [groupsRecords, usesFec, hplain.data, hconns, hready, hauth, hopen, hfind, hplain.fec]

theorem Peer.reset {t s : Transport} (hpeer : Peer t entries)
    (hserver : s.isServer = t.isServer) (hlimits : s.limits = t.limits)
    (hconns : s.conns = t.conns.map fun c => { c with fecGroupDelivered := false }) :
    Peer s entries := by
  obtain ⟨hisServer, hold, c, hsingle, hrest⟩ := hpeer
  refine ⟨hserver.trans hisServer, hlimits.trans hold,
    { c with fecGroupDelivered := false }, ?_, hrest⟩
  rw [hconns, hsingle]
  rfl

/-- A group without a subscriber takes its slot and is gone. -/
theorem flushGrouped_unattended {t : Transport} (hpeer : Peer t [])
    (hplain : PlainFec t.fecTrackId) (hbuffer : t.fecBuf ≠ [])
    (hsize : t.fecBuf.length ≤ defaultLimits.maxFecObjectSize)
    (hnew : t.fecTrackId ∉ t.fecTracks.map FecTrackState.trackId)
    (hroom : t.fecTracks.length < hardMaxSubscriptions) (env : FlushEnv) :
    Peer (t.flushGrouped env).1 [] ∧ (t.flushGrouped env).1.fecBuf = [] ∧
      (t.flushGrouped env).1.fecPktCount = 0 ∧
      (t.flushGrouped env).1.fecFlushPending = false ∧
      (t.flushGrouped env).1.fecTracks.map FecTrackState.trackId =
        t.fecTracks.map FecTrackState.trackId ++ [t.fecTrackId] := by
  obtain ⟨hserver, hlimits, c, hconns, hid, hopen, hhello, hready, hauth, hnegotiated,
    hentries, hcapacity⟩ := hpeer
  have hnone : t.findFecTrackState t.fecTrackId = none := Keyed.lookup_eq_none_iff.mpr hnew
  let state : FecTrackState := { trackId := t.fecTrackId }
  let slotted : Transport := { t with fecTracks := t.fecTracks ++ [state] }
  have hslot : t.createFecTrackState t.fecTrackId = some (slotted, state) := by
    simp only [createFecTrackState, hnone, hroom, if_true]
    rfl
  have hnobody : ∀ c ∈ slotted.attempting.conns,
      slotted.attempting.recipientEligible c (slotted.groupObject state).trackId = false := by
    intro other hother
    have hsame : other = c := by
      have : other ∈ t.conns := hother
      simpa [hconns] using this
    have hskip : c.sendSubscriptions.contains t.fecTrackId = false := by
      simp [SubscriptionTable.contains, SubscriptionTable.find, lookup, hentries]
    have hisServer : slotted.attempting.isServer = true := hserver
    subst hsame
    simp only [recipientEligible, hisServer, Bool.not_true, Bool.false_or, Bool.and_eq_false_iff]
    exact Or.inr hskip
  have hfits : (slotted.groupObject state).size ≤ slotted.attempting.limits.maxFecObjectSize := by
    show t.fecBuf.length ≤ t.limits.maxFecObjectSize
    rw [hlimits]
    exact hsize
  have hpublish := publishDatagrams_unattended env true hnobody
    (by simpa [MoqObject.size, groupObject] using hbuffer) hfits hplain.isRatelessData
  have hattempt : slotted.attempting.publishUngrouped env (slotted.groupObject state) true =
      (slotted.attempting, .noRecipients) := by
    have hvalid : trackIdValid (slotted.groupObject state).trackId = true := hplain.valid
    have hunreliable : (trackProfile (slotted.groupObject state).trackId).reliable = false :=
      hplain.unreliable
    simp only [publishUngrouped, hvalid, flagsConflict_unattended hnobody, hunreliable,
      Bool.not_true, Bool.or_self, Bool.false_eq_true, if_false]
    exact hpublish
  have hflush : t.flushGrouped env =
      (slotted.attempting.commitGroup state (slotted.groupObject state), .delivered) := by
    have hattempt' := hattempt
    simp only [attempting] at hattempt'
    simp only [flushGrouped, hbuffer, if_false, hslot, hattempt']
    rfl
  have hcommit : slotted.attempting.commitGroup state (slotted.groupObject state) =
      { slotted.attempting.setFecTrackState
          { state with nextObjectId := 1, hasObjects := true } with
        fecBuf := []
        fecPktCount := 0
        fecFlushPending := false
        published := t.published ++ [slotted.groupObject state] } := by
    have hrateless : (trackProfile state.trackId).fecRateless = false := hplain.plain
    simp only [commitGroup, hrateless]
    rfl
  rw [hflush, hcommit]
  refine ⟨⟨hserver, hlimits, c, hconns, hid, hopen, hhello, hready, hauth, hnegotiated,
    hentries, hcapacity⟩, rfl, rfl, rfl, ?_⟩
  have hkeys : ∀ items : List FecTrackState, (Keyed.adjust FecTrackState.trackId t.fecTrackId
      (fun _ => { state with nextObjectId := 1, hasObjects := true }) items).map
        FecTrackState.trackId = items.map FecTrackState.trackId :=
    fun items => Keyed.keys_adjust fun _ _ _ => rfl
  refine (hkeys _).trans ?_
  simp [slotted, state, attempting]

/-- Some tracks were used before; nothing is buffered and nobody subscribes. -/
structure Visited (t : Transport) (tracks : List TrackId) : Prop where
  peer : Peer t []
  empty : t.fecBuf = []
  count : t.fecPktCount = 0
  idle : t.fecFlushPending = false
  slots : t.fecTracks.map FecTrackState.trackId = tracks

/-- A peer subscribes to a track, gives it up after one record and the record's
group finds nobody. -/
def visit (object : MoqObject) : List Op :=
  [.receive quietRepair 0 (.subscribe 8 object.trackId), .publish quietPublish object,
    .receive quietRepair 0 (.unsubscribe 8 object.trackId), .flush quietFlush]

theorem publish_buffered {t : Transport} (env : PublishEnv)
    (hpeer : Peer t [{ trackId := object.trackId, trackAlias := a }])
    (hplain : PlainFec object.trackId) (hempty : t.fecBuf = []) (hcount : t.fecPktCount = 0)
    (hsize : object.size + 2 < maxFecGroupSize) (hgrows : env.grows = true) :
    ∃ s, t.publish env object = (s, .buffered) ∧
      Peer s [{ trackId := object.trackId, trackAlias := a }] ∧
      s.fecTracks = t.fecTracks ∧ s.fecFlushPending = t.fecFlushPending ∧
      s.fecTrackId = object.trackId ∧ s.fecBuf = u16be object.size ++ object.data := by
  obtain ⟨hconflict, hgroups⟩ := peer_subscribed hpeer hplain
  obtain ⟨s, hstage, hconns, hserver, hlimits, htracks, hwaits, htrack, hbuffer, hpackets⟩ :=
    stageRecord_empty env hempty hgrows object
  have hlimit := publicationFecLimit_peer hpeer object.trackId
  have hadmitted : ¬ (maxFecRecordSize < object.size ∨
      t.publicationFecLimit object.trackId < 2 ∨
      t.publicationFecLimit object.trackId - 2 < object.size) := by
    rw [hlimit]
    simp only [maxFecGroupSize, maxFecRecordSize, defaultLimits, maxFecObjectSize] at hsize ⊢
    omega
  have hpartly : s.groupComplete (groupLimit (t.publicationFecLimit object.trackId)) =
      false := by
    have hlength : s.fecBuf.length = object.size + 2 := by
      rw [hbuffer]
      simp [u16be, MoqObject.size]
    simp only [groupComplete, hpackets, hcount, hlength, groupLimit, hlimit, defaultLimits,
      maxFecObjectSize, Bool.or_eq_false_iff, decide_eq_false_iff_not]
    simp only [maxFecGroupSize] at hsize ⊢
    omega
  refine ⟨s, ?_, hpeer.reset hserver hlimits hconns, htracks, hwaits, htrack, hbuffer⟩
  simp only [publish, hplain.valid, hconflict, hgroups, publishGrouped, hadmitted, hstage,
    hpartly, Bool.not_true, Bool.or_self, Bool.false_eq_true, if_false, if_true]

theorem visited_visit {t : Transport} (hvisited : Visited t tracks)
    (hplain : PlainFec object.trackId) (hsize : object.size + 2 < maxFecGroupSize)
    (hnew : object.trackId ∉ tracks) (hroom : tracks.length < hardMaxSubscriptions) :
    Visited (t.run (visit object)) (tracks ++ [object.trackId]) := by
  obtain ⟨hpeer, hempty, hcount, hidle, hslots⟩ := hvisited
  have hjoins : (Op.receive quietRepair 0 (.subscribe 8 object.trackId)).quiet = true := rfl
  have hleaves : (Op.receive quietRepair 0 (.unsubscribe 8 object.trackId)).quiet = true := rfl
  have hsub := grouping_apply t hjoins
  have hjoined := peer_subscribe hpeer hplain hidle quietRepair 8
  obtain ⟨s, hpublish, hkept, htracks, hwaits, htrack, hbuffer⟩ := publish_buffered quietPublish
    hjoined hplain (hsub.fecBuf.trans hempty) (hsub.fecPktCount.trans hcount) hsize rfl
  have hunsub := grouping_apply s hleaves
  have hleft := peer_unsubscribe hkept hplain.valid quietRepair
  have hgroup := hunsub.fecTrackId.trans htrack
  have hslotted := (hunsub.fecTracks.trans htracks).trans hsub.fecTracks
  have hrecords := hunsub.fecBuf.trans hbuffer
  have hlength : (u16be object.size ++ object.data).length = object.size + 2 := by
    simp [u16be, MoqObject.size]
  obtain ⟨hdone, hgone, hnone, hsettled, htaken⟩ := flushGrouped_unattended hleft
    (by rwa [hgroup])
    (by
      rw [hrecords]
      simp [u16be])
    (by
      rw [hrecords, hlength]
      simp only [maxFecGroupSize, defaultLimits, maxFecObjectSize] at hsize ⊢
      omega)
    (by rwa [hgroup, hslotted, hslots])
    (by
      have := congrArg List.length hslots
      rw [List.length_map] at this
      rwa [hslotted, this]) quietFlush
  have hrun : t.run (visit object) =
      ((s.apply (.receive quietRepair 0 (.unsubscribe 8 object.trackId))).flushGrouped
        quietFlush).1 := by
    simp only [visit, run_cons, run_nil]
    show Prod.fst (flushGrouped (apply (Prod.fst (publish _ _ _)) _) _) = _
    rw [hpublish]
  rw [hrun]
  refine ⟨hdone, hgone, hnone, hsettled, ?_⟩
  rw [htaken, hslotted, hslots, hgroup]

theorem visited_visits {t : Transport} (hvisited : Visited t tracks) (objects : List MoqObject)
    (hplain : ∀ object ∈ objects, PlainFec object.trackId ∧ object.size + 2 < maxFecGroupSize)
    (hnew : (tracks ++ objects.map MoqObject.trackId).Nodup)
    (hroom : tracks.length + objects.length ≤ hardMaxSubscriptions) :
    Visited (t.run (objects.flatMap visit)) (tracks ++ objects.map MoqObject.trackId) := by
  induction objects generalizing t tracks with
  | nil => simpa using hvisited
  | cons object rest ih =>
      obtain ⟨⟨hfec, hsize⟩, hrest⟩ := List.forall_mem_cons.mp hplain
      simp only [List.length_cons] at hroom
      have hfresh : object.trackId ∉ tracks := by
        intro hold
        have := List.disjoint_of_nodup_append hnew hold
        simp at this
      have hnext := visited_visit hvisited hfec hsize hfresh (by omega)
      have hdone := ih hnext hrest (by simpa using hnew) (by
        simp only [List.length_append, List.length_singleton]
        omega)
      rw [List.flatMap_cons, run_append]
      simpa using hdone

/-- A track without a slot cannot be flushed once all slots are taken. -/
theorem flushGrouped_crowded {t : Transport} (hbuffer : t.fecBuf ≠ [])
    (hnew : t.fecTrackId ∉ t.fecTracks.map FecTrackState.trackId)
    (hfull : hardMaxSubscriptions ≤ t.fecTracks.length) (env : FlushEnv) :
    t.flushGrouped env = (t, .error) := by
  have hnone : t.findFecTrackState t.fecTrackId = none := Keyed.lookup_eq_none_iff.mpr hnew
  have hslot : t.createFecTrackState t.fecTrackId = none := by
    simp [createFecTrackState, hnone, Nat.not_lt.mpr hfull]
  simp [flushGrouped, hbuffer, hslot]

/-- A record that fills its group stays in the buffer although the call fails. -/
theorem publish_crowded {t : Transport} (env : PublishEnv) (object : MoqObject)
    (hpeer : Peer t [{ trackId := object.trackId, trackAlias := a }])
    (hplain : PlainFec object.trackId) (hempty : t.fecBuf = [])
    (hnew : object.trackId ∉ t.fecTracks.map FecTrackState.trackId)
    (hfull : hardMaxSubscriptions ≤ t.fecTracks.length)
    (hsize : object.size + 2 = maxFecGroupSize) (hgrows : env.grows = true) :
    t.groupsRecords object.trackId = true ∧ (t.publish env object).2 = .error ∧
      (t.publish env object).1.fecBuf = u16be object.size ++ object.data := by
  obtain ⟨hconflict, hgroups⟩ := peer_subscribed hpeer hplain
  obtain ⟨s, hstage, -, -, -, htracks, -, htrack, hbuffer, -⟩ :=
    stageRecord_empty env hempty hgrows object
  have hlimit := publicationFecLimit_peer hpeer object.trackId
  have hadmitted : ¬ (maxFecRecordSize < object.size ∨
      t.publicationFecLimit object.trackId < 2 ∨
      t.publicationFecLimit object.trackId - 2 < object.size) := by
    rw [hlimit]
    simp only [maxFecGroupSize, maxFecRecordSize, defaultLimits, maxFecObjectSize] at hsize ⊢
    omega
  have hcomplete : s.groupComplete (groupLimit (t.publicationFecLimit object.trackId)) =
      true := by
    have hlength : s.fecBuf.length = maxFecGroupSize := by
      rw [hbuffer, ← hsize]
      simp [u16be, MoqObject.size]
    simp only [groupComplete, hlength, groupLimit, Bool.or_eq_true, decide_eq_true_eq]
    exact Or.inr (Nat.min_le_right _ _)
  have hflush : s.flushGrouped env.after = (s, .error) :=
    flushGrouped_crowded (by simp [hbuffer, u16be]) (by rwa [htracks, htrack])
      (by rwa [htracks]) env.after
  have hpublish : t.publish env object = (s, .error) := by
    simp only [publish, publishGrouped, hstage, hplain.valid, hconflict, hgroups, hadmitted,
      hcomplete, hflush, trailingResult, Bool.not_true, Bool.or_self, Bool.false_eq_true,
      if_false, if_true]
  rw [hpublish]
  exact ⟨hgroups, rfl, hbuffer⟩

end Transport

end Qlinq
