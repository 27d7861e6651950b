import Qlinq.Announcements
import Qlinq.Following
import Qlinq.GroupIds

namespace Qlinq

/-! A publisher announces each window of a track once, to every subscription of it. -/

namespace Conn

variable {steady : Prop} {mark : TrackId → Option Watermark} {c c' : Conn}

/-! ### Writing -/

theorem written_of_writeControlFrame {frame : Sent ControlFrame}
    (hwrite : c.writeControlFrame frame = (c', true)) :
    c.closed = none ∧ c' =
      { c with control := c.control ++ [frame], admissions := c.admissions.tail } := by
  unfold writeControlFrame at hwrite
  split at hwrite
  · cases hwrite
  next hopen =>
  split at hwrite
  · exact ⟨by simpa using hopen, (Prod.mk.inj hwrite).1.symm⟩
  · cases hwrite

theorem refused_of_writeControlFrame {frame : Sent ControlFrame}
    (hwrite : c.writeControlFrame frame = (c', false)) :
    Unannounced c c' ∧ c'.closed ≠ none := by
  unfold writeControlFrame at hwrite
  split at hwrite
  · next hclosed =>
      obtain rfl := (Prod.mk.inj hwrite).1
      exact ⟨.refl c, by simpa [Option.isSome_iff_ne_none] using hclosed⟩
  split at hwrite
  · cases hwrite
  · obtain rfl := (Prod.mk.inj hwrite).1
    have hdrained : Unannounced c { c with admissions := c.admissions.tail } :=
      .of_same rfl rfl rfl rfl rfl rfl rfl fun h => h
    refine ⟨hdrained.trans (.quiclyClose _ _ _), ?_⟩
    have hclosed := closed_quiclyClose { c with admissions := c.admissions.tail }
      .resourceLimit "reliable control queue exhausted"
    exact Option.isSome_iff_ne_none.mp hclosed

theorem checkpointAck_setCheckpointAck (c : Conn) (a b : TrackAlias)
    (ack : CheckpointAckState) :
    (c.setCheckpointAck a ack).checkpointAck b =
      if b = a ∧ (c.sendSubscriptions.getState a).isSome then ack else c.checkpointAck b := by
  unfold Conn.checkpointAck setCheckpointAck
  rw [SubscriptionTable.getState_modifyState]
  by_cases hb : b = a
  · subst hb
    cases c.sendSubscriptions.getState b <;> simp
  · simp [hb]

/-- An announcement of `track` written to the stream. -/
theorem logs_written {frame : Sent ControlFrame}
    (hsaid : frame.message.announcement = some announcement)
    (hcontrol : c'.control = c.control ++ [frame]) :
    Logs c c' frame.track announcement := by
  intro other
  rw [hcontrol, announcements_append, announcements_singleton, hsaid]
  by_cases hsame : frame.track = other
  · rw [if_pos hsame, if_pos hsame.symm]
    rfl
  · rw [if_neg hsame, if_neg fun h => hsame h.symm]

/-- The subscription's state behind an announcement that was written to it. -/
def announcedTo (c : Conn) (frame : Sent ControlFrame) (a : TrackAlias)
    (ack : CheckpointAckState) : Conn :=
  { c with control := c.control ++ [frame], admissions := c.admissions.tail }.setCheckpointAck
    a ack

/-- A table in which `a` names the track and every other entry is an old one. -/
theorem Attentive.announcedTo {ack : CheckpointAckState} (hannounces : c.Announces steady mark)
    (hwithin : c.AcksWithin)
    (hhello : c.helloReceived = true) (hestablished : c.established = true)
    (hcapable : c.checkpointCapable = true)
    (hbound : c.sendSubscriptions.findByAlias a = some frame.track)
    (hothers : ∀ b ≠ a, ∀ other, c.sendSubscriptions.findByAlias b = some other →
      other.isRatelessData = true → c.AttendsTrack mark b other)
    (hsaid : frame.message.announcement = some announcement) (hplain : announcement.Plain)
    (hgrows : ∀ last, mark frame.track = some ⟨0, last⟩ → last ≤ announcement.finalObjectId)
    (hextends : steady → ∀ last, lastAnnounced frame.track c.control = some last →
      announcement.Extends last)
    (hparticipating : ack.participating = true)
    (hsent : ack.sent = some ⟨0, announcement.finalObjectId⟩)
    (hacked : ∀ acked, ack.acked = some acked →
      acked.objectId ≤ announcement.finalObjectId) :
    (c.announcedTo frame a ack).Attentive steady
      (markThrough mark frame.track announcement.finalObjectId) := by
  have hlogs : Logs c (c.announcedTo frame a ack) frame.track announcement :=
    logs_written hsaid rfl
  have hstates : ∀ b, (c.announcedTo frame a ack).checkpointAck b =
      if b = a then ack else c.checkpointAck b := by
    intro b
    have hstate : (c.sendSubscriptions.getState a).isSome = true :=
      SubscriptionTable.getState_isSome_iff.mpr ⟨frame.track, hbound⟩
    have hset := checkpointAck_setCheckpointAck
      { c with control := c.control ++ [frame], admissions := c.admissions.tail } a b ack
    simp only [hstate, and_true] at hset
    exact hset
  have hwithin : (c.announcedTo frame a ack).AcksWithin := by
    refine hwithin.restated (fun b => ?_) (fun _ _ => hparticipating) fun acked hmark =>
      ⟨_, hsent, hacked acked hmark⟩
    rw [hstates]
    exact ite_eq_or_eq ..
  refine ⟨hannounces.announce hlogs hplain hgrows hextends, hwithin, fun hopen =>
    ⟨hhello, hestablished, hcapable, fun b other hother hrateless => ?_⟩⟩
  have hother : c.sendSubscriptions.findByAlias b = some other := hother
  by_cases hb : b = a
  · subst hb
    obtain rfl := Option.some.inj (hbound.symm.trans hother)
    exact attendsTrack_announced hlogs (by rw [hstates, if_pos rfl]) hparticipating hsent hacked
  · have hdistinct : other ≠ frame.track := fun h =>
      hb (SubscriptionTable.bound_unique hother hbound (by rw [h]))
    exact (hothers b hb other hother hrateless).elsewhere hdistinct hlogs
      (by rw [hstates, if_neg hb]) _

/-- The track's mark moves past a connection that does not subscribe to it. -/
theorem Attends.elsewhere (hattends : c.Attends mark) (track : TrackId) (objectId : Nat)
    (hunbound : ∀ a, c.sendSubscriptions.findByAlias a ≠ some track) :
    c.Attends (markThrough mark track objectId) := by
  refine ⟨hattends.helloReceived, hattends.established, hattends.capable,
    fun b other hother hrateless => ?_⟩
  have hdistinct : other ≠ track := fun h => hunbound b (h ▸ hother)
  have hmark : markThrough mark track objectId other = mark other :=
    Function.update_of_ne hdistinct _ _
  obtain ⟨hlatest, hparticipating, hsent, hacked⟩ := hattends.tracks b other hother hrateless
  exact ⟨by rw [hmark]; exact hlatest, hparticipating, by rw [hmark]; exact hsent,
    by rw [hmark]; exact hacked⟩

theorem Attentive.grow (hattentive : c.Attentive steady mark) (hgrow : MarksGrow mark mark')
    (hclosed : c.closed ≠ none) : c.Attentive steady mark' :=
  ⟨hattentive.announces.grow hgrow, hattentive.within, fun hopen => absurd hopen hclosed⟩

/-- A subscription that is announced the next window or the end of its track. -/
theorem Attentive.announceTo {frame : Sent ControlFrame} (hattentive : c.Attentive steady mark)
    (hopen : c.closed = none) (hbound : c.sendSubscriptions.findByAlias a = some frame.track)
    (hrateless : frame.track.isRatelessData = true)
    (hsaid : frame.message.announcement = some announcement) (hplain : announcement.Plain)
    (hgrows : ∀ last, mark frame.track = some ⟨0, last⟩ → last ≤ announcement.finalObjectId)
    (hextends : steady → ∀ last, mark frame.track = some last →
      announcement.Extends last.objectId)
    (hwrite : c.writeControlFrame frame = (c', sent)) :
    (if sent then
        c'.setCheckpointAck a
          ((c'.checkpointAck a).checkpointMarkSent 0 announcement.finalObjectId)
      else
        c').Attentive steady (markThrough mark frame.track announcement.finalObjectId) := by
  have hattends := hattentive.attends hopen
  have hhere := hattends.tracks a frame.track hbound hrateless
  cases sent with
  | false =>
      obtain ⟨hkept, hclosed⟩ := refused_of_writeControlFrame hwrite
      exact (hattentive.keeps hkept).grow (marksGrow_markThrough hgrows) hclosed
  | true =>
      obtain ⟨_, rfl⟩ := written_of_writeControlFrame hwrite
      refine Attentive.announcedTo hattentive.announces hattentive.within hattends.helloReceived
        hattends.established hattends.capable hbound
        (fun b _ other hother hplays => hattends.tracks b other hother hplays) hsaid hplain hgrows
        (fun hsteady last hlast => ?_) hhere.participating rfl fun acked hacked => ?_
      · rw [hhere.latest] at hlast
        obtain ⟨latest, hlatest, rfl⟩ := Option.map_eq_some_iff.mp hlast
        exact hextends hsteady latest hlatest
      · obtain ⟨last, hlast, hle⟩ := hhere.acked acked hacked
        exact hle.trans (hgrows last hlast)

end Conn

/-! ### Tracks -/

/-- The track has announced every whole window of its objects. -/
structure FecTrackState.Announced (state : FecTrackState) : Prop where
  used : state.hasObjects = true → 0 < state.nextObjectId
  behind : ∀ mark, state.checkpoint = some mark →
    mark.groupId = 0 ∧ mark.objectId < state.nextObjectId
  windows : state.trackId.isRatelessData = true →
    recoveryWindowObjects * (state.nextObjectId / recoveryWindowObjects) ≤
      (state.checkpoint.map fun mark => mark.objectId + 1).getD 0

namespace Transport

/-- The last object that a track has announced. -/
def checkpointOf (t : Transport) (track : TrackId) : Option Watermark :=
  (t.findFecTrackState track).bind FecTrackState.checkpoint

def Marked (t : Transport) : Prop :=
  ∀ track state, t.findFecTrackState track = some state → state.Announced

/-- What connection `connId` was announced is what the transport's tracks announced. -/
structure Announcing (steady : Prop) (connId : Nat) (t : Transport) : Prop where
  marked : t.Marked
  grouped : t.fecBuf ≠ [] → t.fecTrackId.type = .data
  conn : ∀ c, Keyed.lookup Conn.id connId t.conns = some c → c.Attentive steady t.checkpointOf

theorem trackId_of_find {t : Transport} (hfound : t.findFecTrackState track = some state) :
    state.trackId = track :=
  (Keyed.mem_of_lookup hfound).2

theorem checkpointOf_congr {t t' : Transport} (htracks : t'.fecTracks = t.fecTracks) :
    t'.checkpointOf = t.checkpointOf := by
  funext track
  simp only [checkpointOf, findFecTrackState, htracks]

theorem Marked.congr {t t' : Transport} (hmarked : t.Marked)
    (htracks : t'.fecTracks = t.fecTracks) : t'.Marked := by
  intro track state hfound
  rw [findFecTrackState, htracks] at hfound
  exact hmarked track state hfound

theorem Marked.setFecTrackState {t : Transport} (hmarked : t.Marked)
    (hstate : state.Announced) : (t.setFecTrackState state).Marked := by
  intro track found hfound
  rw [findFecTrackState_setFecTrackState] at hfound
  split at hfound
  · obtain ⟨old, _, rfl⟩ := Option.map_eq_some_iff.mp hfound
    exact hstate
  · exact hmarked track found hfound

/-! ### Connections -/

/-- The connection's subscription of a track asks for the flags it is published with. -/
def FlagsAgree (connId : Nat) (t : Transport) (track : TrackId) : Prop :=
  ∀ c, Keyed.lookup Conn.id connId t.conns = some c → c.established = true →
    ∀ a bound, c.sendSubscriptions.findByAlias a = some bound → bound.key = track.key →
      bound = track

/-- The alias of a subscription that agrees names the track itself. -/
theorem bound_of_findAlias {c : Conn}
    (hagree : ∀ a bound, c.sendSubscriptions.findByAlias a = some bound →
      bound.key = track.key → bound = track)
    (halias : c.sendSubscriptions.findAlias track = some a) :
    c.sendSubscriptions.findByAlias a = some track := by
  obtain ⟨bound, hbound, hkey⟩ := SubscriptionTable.findAlias_eq_some_iff_bound.mp halias
  rw [hbound, hagree a bound hbound hkey]

theorem attentive_emitCheckpointTo (t : Transport) {c : Conn}
    (hattentive : c.Attentive steady mark) (hrateless : track.isRatelessData = true)
    (hagree : c.established = true → ∀ a bound, c.sendSubscriptions.findByAlias a = some bound →
      bound.key = track.key → bound = track)
    (hspan : firstObjectId ≤ finalObjectId ∧
      finalObjectId - firstObjectId < recoveryWindowObjects)
    (hgrows : ∀ last, mark track = some ⟨0, last⟩ → last ≤ finalObjectId)
    (hnext : steady → ∀ last, mark track = some last → firstObjectId = last.objectId + 1) :
    (t.emitCheckpointTo track 0 firstObjectId finalObjectId c).Attentive steady
      (Conn.markThrough mark track finalObjectId) := by
  have hgrow := Conn.marksGrow_markThrough hgrows
  unfold emitCheckpointTo
  split
  · next hskipped =>
      refine hattentive.grow hgrow fun hopen => ?_
      have hattends := hattentive.attends hopen
      simp [hattends.established, hattends.capable] at hskipped
  next hserved =>
  have hestablished : c.established = true := by
    simp only [Bool.or_eq_true, Bool.not_eq_true', not_or, Bool.not_eq_false] at hserved
    exact hserved.1
  have hopen : c.closed = none := by
    simp only [Conn.established, Bool.and_eq_true] at hestablished
    simpa using hestablished.2
  have hattends := hattentive.attends hopen
  split
  · next hnone =>
      refine ⟨hattentive.announces.grow hgrow, hattentive.within, fun _ =>
        hattends.elsewhere track finalObjectId fun a hbound => ?_⟩
      rw [SubscriptionTable.findAlias_of_bound hbound] at hnone
      cases hnone
  next a halias =>
  have hbound := bound_of_findAlias (hagree hestablished) halias
  have hmember := (hattends.tracks a track hbound hrateless).participating
  simp only [hmember, if_true]
  generalize hsent : c.sendFrame track a _ = frame
  have htrack : frame.track = track := by rw [← hsent]; rfl
  have hsaid : frame.message.announcement =
      some ⟨false, 0, some firstObjectId, finalObjectId⟩ := by rw [← hsent]; rfl
  subst htrack
  rcases hwrite : c.writeControlFrame frame with ⟨written, sent⟩
  have hannounced := hattentive.announceTo hopen hbound hrateless hsaid
    ⟨rfl, (fun first hfirst => by obtain rfl := Option.some.inj hfirst; exact hspan),
      fun h => by cases h⟩
    hgrows (fun hsteady last hlast => Or.inr (hnext hsteady last hlast)) hwrite
  cases sent with
  | true => exact hannounced
  | false => exact hannounced

theorem attentive_finishTrackTo (t : Transport) {c : Conn}
    (hattentive : c.Attentive steady mark) (hrateless : track.isRatelessData = true)
    (hagree : c.established = true → ∀ a bound, c.sendSubscriptions.findByAlias a = some bound →
      bound.key = track.key → bound = track)
    (hgrows : ∀ last, mark track = some ⟨0, last⟩ → last ≤ finalObjectId)
    (hnext : steady → ∀ last, mark track = some last →
      finalObjectId ≤ last.objectId + recoveryWindowObjects) :
    (t.finishTrackTo track finalObjectId c).1.Attentive steady
      (Conn.markThrough mark track finalObjectId) := by
  have hgrow := Conn.marksGrow_markThrough hgrows
  unfold finishTrackTo
  split
  · next hskipped =>
      refine hattentive.grow hgrow fun hopen => ?_
      have hattends := hattentive.attends hopen
      simp [hattends.established] at hskipped
  next hserved =>
  have hestablished : c.established = true := by simpa using hserved
  have hopen : c.closed = none := by
    simp only [Conn.established, Bool.and_eq_true] at hestablished
    simpa using hestablished.2
  have hattends := hattentive.attends hopen
  split
  · next hnone =>
      refine ⟨hattentive.announces.grow hgrow, hattentive.within, fun _ =>
        hattends.elsewhere track finalObjectId fun a hbound => ?_⟩
      rw [SubscriptionTable.findAlias_of_bound hbound] at hnone
      cases hnone
  next a halias =>
  have hbound := bound_of_findAlias (hagree hestablished) halias
  generalize hsent : c.sendFrame track a _ = frame
  have htrack : frame.track = track := by rw [← hsent]; rfl
  have hsaid : frame.message.announcement = some ⟨false, 0, none, finalObjectId⟩ := by
    rw [← hsent]
    rfl
  subst htrack
  rcases hwrite : c.writeControlFrame frame with ⟨written, sent⟩
  have hannounced := hattentive.announceTo hopen hbound hrateless hsaid
    ⟨rfl, (fun first hfirst => by cases hfirst), fun h => by cases h⟩
    hgrows (fun hsteady last hlast => Or.inr (hnext hsteady last hlast)) hwrite
  cases sent with
  | false => exact hannounced
  | true =>
      obtain ⟨_, rfl⟩ := Conn.written_of_writeControlFrame hwrite
      have hcapable := hattends.capable
      have hmember := (hattends.tracks a frame.track hbound hrateless).participating
      simp only [Conn.checkpointCapable, Conn.hasCapability] at hcapable
      simp only [Conn.checkpointAck] at hmember
      simp only [Conn.checkpointCapable, Conn.hasCapability, Conn.checkpointAck, hcapable, hmember,
        Bool.not_true, Bool.false_eq_true, if_false, if_true]
      exact hannounced

theorem Announcing.follows {t t' : Transport} (hannouncing : Announcing steady connId t)
    (htracks : t'.fecTracks = t.fecTracks)
    (hgrouped : t'.fecBuf ≠ [] → t'.fecTrackId.type = .data)
    (hfollows : FollowsAt Conn.Unannounced connId t t') : Announcing steady connId t' where
  marked := hannouncing.marked.congr htracks
  grouped := hgrouped
  conn := by
    intro c' hc'
    obtain ⟨c, hc, hkept⟩ := hfollows.conn c' hc'
    rw [checkpointOf_congr htracks]
    exact (hannouncing.conn c hc).keeps hkept

/-- Every connection is announced the track up to an object. -/
theorem Announcing.announced {t t' : Transport} (hannouncing : Announcing steady connId t)
    (turn : Conn → Conn) (state : FecTrackState) (objectId : Nat)
    (hid : ∀ c, (turn c).id = c.id) (hconns : t'.conns = t.conns.map turn)
    (hgrouped : t'.fecBuf ≠ [] → t'.fecTrackId.type = .data)
    (hfind : ∀ track, t'.findFecTrackState track =
      if track = state.trackId then some state else t.findFecTrackState track)
    (hstate : state.Announced) (hmark : state.checkpoint = some ⟨0, objectId⟩)
    (hturn : ∀ c, Keyed.lookup Conn.id connId t.conns = some c →
      c.Attentive steady t.checkpointOf →
      (turn c).Attentive steady (Conn.markThrough t.checkpointOf state.trackId objectId)) :
    Announcing steady connId t' where
  marked := by
    intro track found hfound
    rw [hfind] at hfound
    split at hfound
    · obtain rfl := Option.some.inj hfound
      exact hstate
    · exact hannouncing.marked track found hfound
  grouped := hgrouped
  conn := by
    intro c' hc'
    rw [hconns] at hc'
    obtain ⟨c, hc, hsame⟩ := Keyed.exists_lookup (R := fun c' c => c' = turn c)
      (fun c' c hsame => by rw [hsame, hid])
      (Pointwise.of_map (R := fun c c' => c' = turn c) fun c _ => rfl).flip hc'
    have hmarks : t'.checkpointOf =
        Conn.markThrough t.checkpointOf state.trackId objectId := by
      funext track
      unfold checkpointOf Conn.markThrough
      rw [hfind]
      by_cases htrack : track = state.trackId
      · rw [if_pos htrack, htrack, Function.update_self]
        exact hmark
      · rw [if_neg htrack, Function.update_of_ne htrack]
    rw [hmarks, hsame]
    exact hturn c hc (hannouncing.conn c hc)

/-- The group completes no window inside of which the track has ended. -/
def WholeWindow (state : FecTrackState) : Prop :=
  (state.nextObjectId + 1) % recoveryWindowObjects = 0 →
    ∀ mark ∈ state.checkpoint, mark.objectId + recoveryWindowObjects ≤ state.nextObjectId

instance (state : FecTrackState) : Decidable (WholeWindow state) := by
  unfold WholeWindow
  infer_instance

theorem announcing_commitGroup {t : Transport} (hannouncing : Announcing steady connId t)
    (hdata : state.trackId.type = .data)
    (hfound : t.findFecTrackState state.trackId = some state)
    (hagree : FlagsAgree connId t state.trackId) (hwhole : steady → WholeWindow state)
    (object : MoqObject) : Announcing steady connId (t.commitGroup state object) := by
  obtain ⟨hused, hbehind, hwindows⟩ := hannouncing.marked _ _ hfound
  have hmark : t.checkpointOf state.trackId = state.checkpoint := by
    rw [checkpointOf, hfound]
    rfl
  have hplays : state.trackId.isRatelessData = (trackProfile state.trackId).fecRateless := by
    simp [TrackId.isRatelessData, hdata]
  unfold commitGroup
  extract_lets bumped slotted t₁
  have hbumped : ∀ track, t₁.findFecTrackState track =
      if track = state.trackId then some bumped else t.findFecTrackState track := by
    intro track
    have hset := findFecTrackState_setFecTrackState t bumped track
    by_cases hsame : track = state.trackId
    · subst hsame
      rw [if_pos rfl]
      rw [if_pos rfl, hfound] at hset
      exact hset
    · rw [if_neg hsame]
      exact hset.trans (if_neg hsame)
  split
  · next hcomplete =>
      obtain ⟨hrateless, hboundary⟩ := hcomplete
      have hnext : bumped.nextObjectId = state.nextObjectId + 1 := rfl
      simp only [recoveryWindowObjects] at hboundary hwindows ⊢
      refine hannouncing.announced
        (t₁.emitCheckpointTo bumped.trackId 0 (bumped.nextObjectId - 32)
          (bumped.nextObjectId - 1))
        { bumped with checkpoint := some ⟨0, bumped.nextObjectId - 1⟩ }
        (bumped.nextObjectId - 1)
        (fun c => (moved_emitCheckpointTo t₁ _ _ _ _ c).id_eq) rfl (fun h => absurd rfl h)
        (fun track => ?_) ⟨fun _ => ?_, fun mark hsame => ?_, fun _ => ?_⟩ rfl
        fun c hc hattentive => ?_
      · rw [emitRollingCheckpoint, findFecTrackState_setFecTrackState]
        show (if track = state.trackId then (t₁.findFecTrackState track).map fun _ => _
          else t₁.findFecTrackState track) = _
        rw [hbumped]
        by_cases hsame : track = state.trackId
        · rw [if_pos hsame, if_pos hsame, if_pos hsame]
          rfl
        · rw [if_neg hsame, if_neg hsame, if_neg hsame]
      · exact Nat.succ_pos _
      · obtain rfl := Option.some.inj hsame
        exact ⟨rfl, by simp only; omega⟩
      · simp only [recoveryWindowObjects, Option.map_some, Option.getD_some]
        omega
      · refine attentive_emitCheckpointTo t₁ hattentive (hplays.trans hrateless) (hagree c hc)
          ⟨by omega, by simp only [recoveryWindowObjects]; omega⟩ (fun last hlast => ?_)
          fun hsteady last hlast => ?_
        · have hlast : state.checkpoint = some ⟨0, last⟩ := hmark.symm.trans hlast
          have := (hbehind _ hlast).2
          simp only at this
          omega
        · have hlast : state.checkpoint = some last := hmark.symm.trans hlast
          have hold := hwhole hsteady (by rw [recoveryWindowObjects]; omega) last hlast
          have hannounced := hwindows (hplays.trans hrateless)
          rw [hlast] at hannounced
          simp only [recoveryWindowObjects, Option.map_some, Option.getD_some] at hold hannounced
          omega
  · next hopen =>
      have hstate : bumped.Announced := by
        refine ⟨fun _ => Nat.succ_pos _, fun mark hsame => ?_, fun hrateless => ?_⟩
        · obtain ⟨hgroup, hbelow⟩ := hbehind mark hsame
          exact ⟨hgroup, Nat.lt_succ_of_lt hbelow⟩
        · have hannounced := hwindows hrateless
          have hinside : ¬ bumped.nextObjectId % recoveryWindowObjects = 0 := fun h =>
            hopen ⟨hplays.symm.trans hrateless, h⟩
          have hnext : bumped.nextObjectId = state.nextObjectId + 1 := rfl
          have hsame : bumped.checkpoint = state.checkpoint := rfl
          simp only [recoveryWindowObjects, hnext, hsame] at hannounced hinside ⊢
          omega
      refine ⟨fun track found hfoundNow => ?_, fun h => absurd rfl h, fun c hc => ?_⟩
      · rw [hbumped] at hfoundNow
        split at hfoundNow
        · obtain rfl := Option.some.inj hfoundNow
          exact hstate
        · exact hannouncing.marked track found hfoundNow
      · have hmarks : t₁.checkpointOf = t.checkpointOf := by
          funext track
          unfold checkpointOf
          rw [hbumped]
          by_cases hsame : track = state.trackId
          · rw [if_pos hsame, hsame, hfound]
            rfl
          · rw [if_neg hsame]
        rw [hmarks]
        exact hannouncing.conn c hc

theorem announcing_announceEnd {t : Transport} (hannouncing : Announcing steady connId t)
    (hrateless : track.isRatelessData = true)
    (hfound : t.findFecTrackState track = some state) (hobjects : state.hasObjects = true)
    (hagree : FlagsAgree connId t track) :
    Announcing steady connId (t.announceEnd track state).1 := by
  obtain ⟨hused, hbehind, hwindows⟩ := hannouncing.marked _ _ hfound
  have htrack := trackId_of_find hfound
  subst htrack
  have hmark : t.checkpointOf state.trackId = state.checkpoint := by
    rw [checkpointOf, hfound]
    rfl
  have hpositive := hused hobjects
  have hannounced := hwindows hrateless
  refine hannouncing.announced
    (fun c => (t.finishTrackTo state.trackId (state.nextObjectId - 1) c).1)
    { state with checkpoint := some ⟨0, state.nextObjectId - 1⟩ } (state.nextObjectId - 1)
    (fun c => (moved_finishTrackTo t _ _ c).id_eq) ?_ hannouncing.grouped (fun other => ?_)
    ⟨hused, fun mark hsame => ?_, fun _ => ?_⟩ rfl fun c hc hattentive => ?_
  · simp [announceEnd, setFecTrackState]
  · rw [announceEnd]
    simp only
    rw [findFecTrackState_setFecTrackState]
    show (if other = state.trackId then (t.findFecTrackState other).map fun _ => _
      else t.findFecTrackState other) = _
    by_cases hsame : other = state.trackId
    · rw [if_pos hsame, if_pos hsame, hsame, hfound]
      rfl
    · rw [if_neg hsame, if_neg hsame]
  · obtain rfl := Option.some.inj hsame
    exact ⟨rfl, by simp only; omega⟩
  · simp only [recoveryWindowObjects, Option.map_some, Option.getD_some]
    omega
  · refine attentive_finishTrackTo t hattentive hrateless (hagree c hc) (fun last hlast => ?_)
      fun _ last hlast => ?_
    · have hlast : state.checkpoint = some ⟨0, last⟩ := hmark.symm.trans hlast
      have hbelow := (hbehind _ hlast).2
      simp only at hbelow
      omega
    · have hlast : state.checkpoint = some last := hmark.symm.trans hlast
      rw [hlast] at hannounced
      simp only [recoveryWindowObjects, Option.map_some, Option.getD_some] at hannounced ⊢
      omega

/-! ### Publications -/

theorem unannounced_of_publishes {c c' : Conn} (hpublishes : Conn.Publishes object geometry c c') :
    Conn.Unannounced c c' where
  id_eq := hpublishes.id_eq
  bindings := hpublishes.bindings.findByAlias
  states := hpublishes.bindings.getState
  control track := by
    obtain ⟨frames, hcontrol, hunicast⟩ := hpublishes.control
    have hidle : ∀ frame ∈ frames, frame.message.announcement = none := by
      intro frame hframe
      obtain ⟨payload, hpayload⟩ := hunicast frame hframe
      rw [hpayload]
      rfl
    rw [hcontrol, announcements_append, announcements_idle hidle, List.append_nil]
  capabilities := hpublishes.peerCapabilities_eq
  handshake hhello hready hauthenticated := by
    rw [hpublishes.helloReceived_eq, hpublishes.protocolReady_eq, hpublishes.authenticated_eq]
    exact ⟨hhello, hready, hauthenticated⟩
  still_open hopen := by
    cases hpublishes.closed with
    | inl hsame => rwa [hsame] at hopen
    | inr hclosed => exact hclosed.1

theorem announcing_attempt {t t' : Transport} (hannouncing : Announcing steady connId t)
    (hattempt : t.publishUngrouped env object inFlush = (t', result)) :
    Announcing steady connId t' := by
  have hattempted := attempted_publishUngrouped t env object inFlush
  have hnext := nextConnId_publishUngrouped t env object inFlush
  rw [hattempt] at hattempted hnext
  refine hannouncing.follows hattempted.grouping.fecTracks (fun hbuffer => ?_)
    (.of_pointwise (fun _ _ hkept => hkept.id_eq) hnext
      (hattempted.conns.imp fun _ _ hturn => unannounced_of_publishes hturn.publishes))
  rw [hattempted.grouping.fecTrackId]
  rw [hattempted.grouping.fecBuf] at hbuffer
  exact hannouncing.grouped hbuffer

theorem announcing_regrouped {t t' : Transport} (hannouncing : Announcing steady connId t)
    (hregroups : Regroups t t') : Announcing steady connId t' := by
  obtain ⟨mark, hconns⟩ := hregroups.conns
  refine hannouncing.follows hregroups.fecTracks (fun hbuffer => ?_)
    (.of_pointwise (fun _ _ hkept => hkept.id_eq) hregroups.nextConnId ?_)
  · rcases hregroups.fecTrackId hbuffer with ⟨hold, hsame⟩ | hdata
    · rw [hsame]
      exact hannouncing.grouped hold
    · exact hdata
  · rw [hconns]
    exact Pointwise.of_map fun c _ => .of_same rfl rfl rfl rfl rfl rfl rfl fun h => h

/-- A fresh slot has announced nothing. -/
theorem findFecTrackState_slotted {t slotted : Transport}
    (hslot : t.createFecTrackState track = some (slotted, state)) (other : TrackId) :
    slotted.findFecTrackState other = t.findFecTrackState other ∨
      t.findFecTrackState other = none ∧
        slotted.findFecTrackState other = some { trackId := track } := by
  cases createFecTrackState_cases hslot with
  | inl hfound =>
      obtain ⟨rfl, _⟩ := hfound
      exact Or.inl rfl
  | inr hfresh =>
      obtain ⟨_, _, rfl, rfl⟩ := hfresh
      have hfind : ({ t with fecTracks := t.fecTracks ++ [{ trackId := track }] } :
          Transport).findFecTrackState other = (t.findFecTrackState other).or
            (if other = track then some { trackId := track } else none) := by
        simp only [findFecTrackState]
        rw [Keyed.lookup_append]
        congr 1
        by_cases hsame : other = track
        · simp [Keyed.lookup, hsame]
        · have hdistinct : ¬ track = other := fun h => hsame h.symm
          simp [Keyed.lookup, hsame, hdistinct]
      rw [hfind]
      cases t.findFecTrackState other with
      | some old => exact Or.inl rfl
      | none =>
          rw [Option.none_or]
          split
          · exact Or.inr ⟨rfl, rfl⟩
          · exact Or.inl rfl

theorem checkpointOf_slotted {t slotted : Transport}
    (hslot : t.createFecTrackState track = some (slotted, state)) :
    slotted.checkpointOf = t.checkpointOf := by
  funext other
  unfold checkpointOf
  rcases findFecTrackState_slotted hslot other with hsame | ⟨hnone, hfresh⟩
  · rw [hsame]
  · rw [hnone, hfresh]
    rfl

theorem Marked.slotted {t slotted : Transport} (hmarked : t.Marked)
    (hslot : t.createFecTrackState track = some (slotted, state)) : slotted.Marked := by
  intro other found hfound
  rcases findFecTrackState_slotted hslot other with hsame | ⟨_, hfresh⟩
  · rw [hsame] at hfound
    exact hmarked other found hfound
  · rw [hfresh] at hfound
    obtain rfl := Option.some.inj hfound
    exact ⟨(fun h => by cases h), (fun mark h => by cases h), fun _ => by
      simp [recoveryWindowObjects]⟩

theorem announcing_slotted {t slotted : Transport} (hannouncing : Announcing steady connId t)
    (hslot : t.createFecTrackState track = some (slotted, state)) :
    Announcing steady connId slotted where
  marked := hannouncing.marked.slotted hslot
  grouped := by
    rw [(slotted_buffer hslot).1, (slotted_buffer hslot).2]
    exact hannouncing.grouped
  conn := by
    rw [(conns_slotted hslot).1, checkpointOf_slotted hslot]
    exact hannouncing.conn

/-- A group only leaves the buffer where every recipient asks for its track's flags. -/
theorem flagsAgree_of_attempt {t t' : Transport}
    (hattempt : t.publishUngrouped env object inFlush = (t', result))
    (hresult : result ≠ .invalid) : FlagsAgree connId t' object.trackId := by
  have hconflict : t.flagsConflict object.trackId = false := by
    unfold publishUngrouped at hattempt
    split at hattempt
    · exact absurd (Prod.mk.inj hattempt).2.symm hresult
    · next hvalid =>
        simp only [Bool.or_eq_true, not_or, Bool.not_eq_true] at hvalid
        exact hvalid.2
  intro c' hc' hestablished a bound hbound hkey
  obtain ⟨c, hmem, hsteps⟩ := (connsMove_of_attempt hattempt).exists_conn
    (Keyed.mem_of_lookup hc').1
  rw [hsteps.moved.findByAlias] at hbound
  have halias : c.sendSubscriptions.findAlias object.trackId = some a :=
    SubscriptionTable.findAlias_eq_some_iff_bound.mpr ⟨bound, hbound, hkey⟩
  have heligible : t.recipientEligible c object.trackId = true := by
    have hready := hsteps.moved.established hestablished
    have hcontains := SubscriptionTable.contains_iff_findAlias.mpr ⟨a, halias⟩
    simp only [Conn.established] at hready
    simp [recipientEligible, hready, hcontains]
  obtain ⟨entry, hfind, hentry⟩ := SubscriptionTable.find_of_findAlias halias
  have hflags : entry.trackId.flags = object.trackId.flags := by
    simp only [flagsConflict, List.any_eq_false] at hconflict
    simpa [heligible, hfind] using hconflict c hmem
  obtain ⟨hsame, hentryKey⟩ := SubscriptionTable.bound_of_find hfind
  rw [hentry, hbound] at hsame
  obtain rfl := Option.some.inj hsame
  exact TrackId.eq_of_key_of_flags hkey hflags

/-- A flush of the buffer would complete whole windows only. -/
def FlushesWhole (t : Transport) : Prop :=
  ∀ state ∈ t.findFecTrackState t.fecTrackId, WholeWindow state

instance (t : Transport) : Decidable t.FlushesWhole := by
  unfold FlushesWhole
  infer_instance

theorem announcing_flushed {t t' : Transport} (hannouncing : Announcing steady connId t)
    (hwhole : steady → t.FlushesWhole) (hflushed : Flushed t env t' result) :
    Announcing steady connId t' := by
  cases hflushed with
  | empty hempty => exact hannouncing
  | noSlot hbuffer hslot => exact hannouncing
  | @failed slotted state _ _ hbuffer hslot hattempt hdelivered hnobody =>
      exact announcing_attempt (announcing_regrouped (announcing_slotted hannouncing hslot)
        (regroups_attempting slotted)) hattempt
  | @committed slotted state attempted result hbuffer hslot hattempt hresult =>
      have hattempted := announcing_attempt (announcing_regrouped
        (announcing_slotted hannouncing hslot) (regroups_attempting slotted)) hattempt
      have hfound := (createFecTrackState_find hslot).1
      have htrack := trackId_of_find hfound
      have hslotted := slotted_buffer hslot
      have hvalid : result ≠ .invalid := by
        rcases hresult with rfl | rfl <;> exact fun h => by cases h
      have hagree : FlagsAgree connId attempted (slotted.groupObject state).trackId :=
        flagsAgree_of_attempt hattempt hvalid
      have hgrouping := publishUngrouped_grouping slotted.attempting env
        (slotted.groupObject state) true
      rw [hattempt] at hgrouping
      refine announcing_commitGroup hattempted ?_ ?_ ?_ (fun hsteady => ?_) _
      · rw [htrack]
        exact hannouncing.grouped hbuffer
      · rw [htrack, hgrouping.findFecTrackState]
        exact hfound
      · rw [htrack, ← hslotted.2]
        exact hagree
      · cases createFecTrackState_cases hslot with
        | inl hold => exact hwhole hsteady state (by rw [← htrack] at hold ⊢; exact hold.2)
        | inr hfresh =>
            obtain ⟨_, _, rfl, _⟩ := hfresh
            intro hboundary
            simp [recoveryWindowObjects] at hboundary

theorem flushInvariant_announcing :
    FlushInvariant (Announcing steady connId) fun t => steady → t.FlushesWhole where
  flush hannouncing hwhole hflushed := announcing_flushed hannouncing hwhole hflushed
  regrouped hannouncing hregroups := announcing_regrouped hannouncing hregroups
  direct hannouncing _ hattempt := announcing_attempt hannouncing hattempt

theorem announcing_finishTrack {t : Transport} (hannouncing : Announcing steady connId t)
    (env : FlushEnv) (track : TrackId)
    (hwhole : t.fecTrackId = track → steady → t.FlushesWhole)
    (hagree : FlagsAgree connId t track) :
    Announcing steady connId (t.finishTrack env track).1 := by
  have hfinished := finished t env track
  revert hfinished
  generalize (t.finishTrack env track).1 = t'
  intro hfinished
  cases hfinished with
  | refused => exact hannouncing
  | unflushed hpending hflush hresult =>
      exact flushInvariant_announcing.of_flush hannouncing (hwhole hpending.2) hflush
  | unused hsettled => exact flushInvariant_announcing.settled hannouncing hwhole hsettled
  | @announced s state hrateless hsettled hfound hobjects =>
      have hreached := flushInvariant_announcing.settled hannouncing hwhole hsettled
      refine announcing_announceEnd hreached hrateless hfound hobjects ?_
      intro c' hc' hestablished a bound hbound hkey
      obtain ⟨c, hc, hsteps⟩ := Keyed.exists_lookup (R := fun c' c => Steps c c')
        (fun _ _ hsteps => hsteps.moved.id_eq.symm) hsettled.moves.connsMove.conns.flip hc'
      rw [hsteps.moved.findByAlias] at hbound
      exact hagree c hc (hsteps.moved.established hestablished) a bound hbound hkey

end Transport

end Qlinq
