import Qlinq.Awaiting
import Qlinq.KeepsTable

namespace Qlinq

/-! What a publisher announces to one subscriber through every operation. -/

theorem ControlFrame.announcement_of_replies {frame : ControlFrame}
    (hreplies : frame.replies = true) : frame.announcement = none := by
  cases frame with
  | trackCheckpoint checkpoint => cases hreplies
  | trackEnd finish => cases hreplies
  | _ => rfl

namespace Conn

variable {steady : Prop} {mark mark' : TrackId → Option Watermark} {c c' : Conn}

theorem MarksGrow.refl (mark : TrackId → Option Watermark) : MarksGrow mark mark :=
  fun _ last hlast => ⟨last, hlast, le_refl last⟩

theorem MarksGrow.trans (hfirst : MarksGrow mark mark') (hsecond : MarksGrow mark' mark'') :
    MarksGrow mark mark'' := by
  intro track last hlast
  obtain ⟨later, hlater, hle⟩ := hfirst track last hlast
  obtain ⟨latest, hlatest, hle'⟩ := hsecond track later hlater
  exact ⟨latest, hlatest, hle.trans hle'⟩

theorem frame_unannounced : PeerFrames Unannounced where
  refl := .refl
  trans := .trans
  closed := .closed
  drained _ _ := .of_same rfl rfl rfl rfl rfl rfl rfl fun h => h
  written c frame admissions hreplies :=
    .written c frame admissions (ControlFrame.announcement_of_replies hreplies)
  acceptedWindows _ _ := .of_same rfl rfl rfl rfl rfl rfl rfl fun h => h
  assemblers _ _ := .of_same rfl rfl rfl rfl rfl rfl rfl fun h => h
  objectGap _ _ _ _ := .of_same rfl rfl rfl rfl rfl rfl rfl fun h => h
  id_eq hkept := hkept.id_eq
  events _ _ := .of_same rfl rfl rfl rfl rfl rfl rfl fun h => h
  datagrams _ _ := .of_same rfl rfl rfl rfl rfl rfl rfl fun h => h

theorem unannounced_respondAuth (c : Conn) (success : Bool) :
    Unannounced c (c.respondAuth success) := by
  unfold Conn.respondAuth
  split
  · exact .refl c
  split
  · exact ⟨rfl, fun _ => rfl, fun _ => rfl, fun _ => rfl, rfl, fun hhello hready _ =>
      ⟨hhello, hready, rfl⟩, fun h => h⟩
  · exact .quiclyClose c _ _

/-- Who has heard a HELLO hears no other. -/
theorem Attentive.receiveHello (hattentive : c.Attentive steady mark) (limits : TransportLimits)
    (hello : Hello) : (c.receiveHello limits hello).Attentive steady mark := by
  unfold Conn.receiveHello
  split
  · exact hattentive
  next hopen =>
  split
  · exact hattentive.keeps (.quiclyClose c _ _)
  · next hfirst =>
      have hattends := hattentive.attends (by simpa using hopen)
      rw [not_or] at hfirst
      exact absurd hattends.helloReceived hfirst.1

theorem Announces.congr (hannounces : c.Announces steady mark) (hcontrol : c'.control = c.control) :
    c'.Announces steady mark := by
  refine ⟨fun track => ?_, fun track => ?_, fun track => ?_⟩
  · rw [hcontrol]
    exact hannounces.chained track
  · rw [hcontrol]
    exact hannounces.plain track
  · rw [hcontrol]
    exact hannounces.reached track

/-- A track without a mark was announced to nobody. -/
theorem Announces.lastAnnounced_eq_none (hannounces : c.Announces steady mark)
    (hnone : mark track = none) : lastAnnounced track c.control = none := by
  have hempty : announcements track c.control = [] := by
    rw [List.eq_nil_iff_forall_not_mem]
    intro announcement hmem
    obtain ⟨last, hlast, _⟩ := hannounces.reached track announcement hmem
    rw [hnone] at hlast
    cases hlast
  rw [lastAnnounced, hempty]
  rfl

/-! ### Subscriptions -/

/-- A table of a SUBSCRIBE: `a` names the track and every other entry is an old one. -/
structure Enters (c c' : Conn) (track : TrackId) (a : TrackAlias) : Prop where
  bound : c'.sendSubscriptions.findByAlias a = some track
  others : ∀ b ≠ a, ∀ other, c'.sendSubscriptions.findByAlias b = some other →
    c.sendSubscriptions.findByAlias b = some other ∧ c'.checkpointAck b = c.checkpointAck b
  states : ∀ b, c'.checkpointAck b = {} ∨ c'.checkpointAck b = c.checkpointAck b
  again : c.sendSubscriptions.findByAlias a = some track → c'.checkpointAck a = c.checkpointAck a

theorem enters_add {table : SubscriptionTable}
    (hadd : c.sendSubscriptions.add track a = some table) :
    Enters c { c with sendSubscriptions := table } track a := by
  rcases SubscriptionTable.add_cases hadd with ⟨hbound, rfl⟩ | ⟨hfree, hbound, _, hstate, hothers⟩
  · exact ⟨hbound, fun b _ other hother => ⟨hother, rfl⟩, fun b => Or.inr rfl, fun _ => rfl⟩
  refine ⟨hbound, fun b hb other hother => ?_, fun b => ?_, fun h => ?_⟩
  · rcases hothers b hb with ⟨hsame, hkept⟩ | ⟨_, hmoved⟩
    · exact ⟨hsame.symm.trans hother, by simp only [checkpointAck, hkept]⟩
    · have hother : table.findByAlias b = some other := hother
      rw [hmoved] at hother
      cases hother
  · cases decEq b a with
    | isTrue hb =>
        subst hb
        left
        simp only [checkpointAck, hstate, Option.map_some, Option.getD_some]
    | isFalse hb =>
        rcases hothers b hb with ⟨_, hkept⟩ | ⟨_, hmoved⟩
        · right
          simp only [checkpointAck, hkept]
        · left
          have hnone : table.getState b = none := by
            cases hsome : table.getState b with
            | none => rfl
            | some state =>
                obtain ⟨other, hother⟩ :=
                  SubscriptionTable.getState_isSome_iff.mp (by rw [hsome]; rfl)
                rw [hmoved] at hother
                cases hother
          simp only [checkpointAck, hnone, Option.map_none, Option.getD_none]
  · rw [hfree] at h
    cases h

/-- The entered table, before the track's baseline is written. -/
theorem Enters.acksWithin (henters : Enters c c' track a) (hwithin : c.AcksWithin) :
    c'.AcksWithin :=
  ⟨fun b => by
    cases henters.states b with
    | inl hnew =>
        rw [hnew]
        exact fun acked hacked => by cases hacked
    | inr hold =>
        rw [hold]
        exact hwithin.participating b,
  fun b => by
    cases henters.states b with
    | inl hnew =>
        rw [hnew]
        exact fun acked hacked => by cases hacked
    | inr hold =>
        rw [hold]
        exact hwithin.reached b⟩

theorem AttendsTrack.congr (hattends : c.AttendsTrack mark a track)
    (hcontrol : c'.control = c.control) (hstate : c'.checkpointAck a = c.checkpointAck a) :
    c'.AttendsTrack mark a track := by
  refine ⟨?_, ?_, ?_, ?_⟩
  · rw [lastAnnounced, hcontrol]
    exact hattends.latest
  · rw [hstate]
    exact hattends.participating
  · rw [hstate]
    exact hattends.sent
  · rw [hstate]
    exact hattends.acked

/-- Greeted, and in step with its subscriptions of rateless DATA tracks under every alias
but `a`. -/
structure AttendsBeside (mark : TrackId → Option Watermark) (c : Conn) (a : TrackAlias) :
    Prop where
  helloReceived : c.helloReceived = true
  established : c.established = true
  capable : c.checkpointCapable = true
  others : ∀ b ≠ a, ∀ other, c.sendSubscriptions.findByAlias b = some other →
    other.isRatelessData = true → c.AttendsTrack mark b other

theorem AttendsBeside.attends (hbeside : c.AttendsBeside mark a)
    (hhere : ∀ track, c.sendSubscriptions.findByAlias a = some track →
      track.isRatelessData = true → c.AttendsTrack mark a track) : c.Attends mark := by
  refine ⟨hbeside.helloReceived, hbeside.established, hbeside.capable,
    fun b other hother hrateless => ?_⟩
  cases decEq b a with
  | isTrue hb =>
      subst hb
      exact hhere other hother hrateless
  | isFalse hb => exact hbeside.others b hb other hother hrateless

theorem Attends.enters (hattends : c.Attends mark) (henters : Enters c c' track a)
    (hcontrol : c'.control = c.control) (hhello : c'.helloReceived = c.helloReceived)
    (hestablished : c'.established = c.established)
    (hcapable : c'.checkpointCapable = c.checkpointCapable) : c'.AttendsBeside mark a where
  helloReceived := hhello.trans hattends.helloReceived
  established := hestablished.trans hattends.established
  capable := hcapable.trans hattends.capable
  others b hb other hother hrateless := by
    obtain ⟨hbound, hstate⟩ := henters.others b hb other hother
    exact (hattends.tracks b other hbound hrateless).congr hcontrol hstate

theorem AttendsBeside.keeps (hbeside : c.AttendsBeside mark a) (hkept : Unannounced c c')
    (hopen : c'.closed = none) : c'.AttendsBeside mark a := by
  obtain ⟨hhello, hestablished⟩ :=
    established_of_handshake hbeside.helloReceived hbeside.established hkept hopen
  refine ⟨hhello, hestablished, ?_, fun b hb other hother hrateless => ?_⟩
  · rw [hkept.checkpointCapable]
    exact hbeside.capable
  · rw [hkept.bindings] at hother
    exact (hbeside.others b hb other hother hrateless).keeps hkept

/-- The subscription under `a` starts anew. -/
theorem AttendsBeside.restart (hbeside : c.AttendsBeside mark a) (ack : CheckpointAckState) :
    (c.setCheckpointAck a ack).AttendsBeside mark a where
  helloReceived := hbeside.helloReceived
  established := hbeside.established
  capable := hbeside.capable
  others b hb other hother hrateless :=
    (hbeside.others b hb other hother hrateless).congr rfl
      (by rw [checkpointAck_setCheckpointAck, if_neg fun h => hb h.1])

/-- Wherever a subscription stays, what it has acknowledged stays. -/
def AcksGrow (c c' : Conn) : Prop :=
  ∀ a track, c.sendSubscriptions.findByAlias a = some track →
    c'.sendSubscriptions.findByAlias a = some track →
    ∀ acked ∈ (c.checkpointAck a).acked,
      ∃ later ∈ (c'.checkpointAck a).acked, acked.objectId ≤ later.objectId

theorem acksGrow_of_same (hsame : ∀ a, c'.checkpointAck a = c.checkpointAck a) :
    AcksGrow c c' := by
  intro a track _ _ acked hacked
  rw [hsame]
  exact ⟨acked, hacked, le_refl _⟩

end Conn

namespace Transport

open Conn

variable {steady : Prop} {t t' : Transport} {c c' : Conn}

theorem Marked.mark_eq (hmarked : t.Marked) (hmark : t.checkpointOf track = some last) :
    last = ⟨0, last.objectId⟩ := by
  obtain ⟨state, hfound, hcheckpoint⟩ := Option.bind_eq_some_iff.mp hmark
  rw [← ((hmarked track state hfound).behind last hcheckpoint).1]

/-- A subscriber joins; the last announced object is its baseline. -/
theorem attentive_checkpointMemberAdded (hmarked : t.Marked)
    (hattentive : c.Attentive steady t.checkpointOf) (hopen : c.closed = none)
    (hadd : c.sendSubscriptions.add track a = some table) :
    (t.checkpointMemberAdded { c with sendSubscriptions := table } track a).Attentive steady
      t.checkpointOf := by
  have henters := enters_add hadd
  have hbeside := (hattentive.attends hopen).enters henters rfl rfl rfl rfl
  have hbound := henters.bound
  have hwithin := henters.acksWithin hattentive.within
  have hannounces : ({ c with sendSubscriptions := table } : Conn).Announces steady
      t.checkpointOf := hattentive.announces.congr rfl
  unfold checkpointMemberAdded
  extract_lets reset joined
  have hreset : Unannounced { c with sendSubscriptions := table } reset := by
    simp only [reset]
    split
    · exact .of_same rfl rfl rfl rfl rfl rfl rfl fun h => h
    · exact .refl _
  have hstillOpen : reset.closed = none := by
    simp only [reset]
    split
    · exact hopen
    · exact hopen
  have hbeside := hbeside.keeps hreset hstillOpen
  have hwithin := hwithin.keeps hreset.checkpointAck
  have hannounces := hannounces.keeps hreset
  have hbound : reset.sendSubscriptions.findByAlias a = some track :=
    (hreset.bindings a).trans hbound
  clear_value reset
  have hstate : (reset.sendSubscriptions.getState a).isSome = true :=
    SubscriptionTable.getState_isSome_iff.mpr ⟨track, hbound⟩
  split
  · next hplain =>
      refine ⟨hannounces, hwithin, fun _ => hbeside.attends fun other hother hrateless => ?_⟩
      obtain rfl := Option.some.inj (hbound.symm.trans hother)
      simp [hbeside.capable, hrateless] at hplain
  next hserved =>
  have hrateless : track.isRatelessData = true := by
    simp only [Bool.or_eq_true, Bool.not_eq_true', not_or, Bool.not_eq_false] at hserved
    exact hserved.2
  split
  · next hnone =>
      rw [Option.isNone_iff_eq_none] at hnone
      rw [hnone] at hstate
      cases hstate
  have hjoined : joined.AttendsBeside t.checkpointOf a := hbeside.restart _
  have hhere : joined.checkpointAck a = { participating := true } := by
    simp only [joined]
    rw [checkpointAck_setCheckpointAck, if_pos ⟨rfl, hstate⟩]
  have hwithin : joined.AcksWithin := by
    refine hwithin.restated (fun b => show joined.checkpointAck b = { participating := true } ∨
        joined.checkpointAck b = reset.checkpointAck b from ?_)
      (fun acked hacked => by cases hacked) fun acked hacked => by cases hacked
    simp only [joined]
    rw [checkpointAck_setCheckpointAck]
    exact ite_eq_or_eq ..
  have hannounces : joined.Announces steady t.checkpointOf := hannounces.congr rfl
  have hbound : joined.sendSubscriptions.findByAlias a = some track := hbound
  clear_value joined
  split
  · next hnone =>
      refine ⟨hannounces, hwithin, fun _ => hjoined.attends fun other hother _ => ?_⟩
      obtain rfl := Option.some.inj (hbound.symm.trans hother)
      have hnone : t.checkpointOf track = none := hnone
      refine ⟨?_, ?_, ?_, fun acked hacked => ?_⟩
      · rw [hannounces.lastAnnounced_eq_none hnone, hnone]
        rfl
      · rw [hhere]
      · rw [hhere, hnone]
      · rw [hhere] at hacked
        cases hacked
  next last hlast =>
  have hmark : t.checkpointOf track = some last := hlast
  have hgroup := hmarked.mark_eq hmark
  generalize hsent : joined.sendFrame track a _ = frame
  have htrack : frame.track = track := by rw [← hsent]; rfl
  have hsaid : frame.message.announcement =
      some ⟨true, 0, some last.objectId, last.objectId⟩ := by
    rw [← hsent, hgroup]
    rfl
  subst htrack
  split
  · next hfailed =>
      obtain ⟨hkept, hclosed⟩ := refused_of_writeControlFrame hfailed
      exact ⟨hannounces.keeps hkept, hwithin.keeps hkept.checkpointAck,
        fun hopen => absurd hopen hclosed⟩
  · next written hwritten =>
      obtain ⟨_, rfl⟩ := written_of_writeControlFrame hwritten
      have hannounced := Attentive.announcedTo hannounces hwithin hjoined.helloReceived
        hjoined.established hjoined.capable hbound hjoined.others hsaid
        ⟨rfl, (fun first hfirst => by
            obtain rfl := Option.some.inj hfirst
            simp [recoveryWindowObjects]), fun _ => rfl⟩
        (fun reached hreached => by
          rw [hmark, hgroup] at hreached
          injection hreached with hreached
          injection hreached with _ hsame
          exact le_of_eq hsame.symm)
        (fun _ _ _ => Or.inl rfl)
        (show ({ participating := true, sent := some last, acked := some last } :
          CheckpointAckState).participating = true from rfl)
        (by rw [← hgroup]) fun acked hacked => by
          obtain rfl := Option.some.inj hacked
          exact le_refl _
      have hsame : markThrough t.checkpointOf frame.track last.objectId = t.checkpointOf := by
        rw [markThrough, ← hgroup, ← hmark, Function.update_eq_self]
      rw [hsame] at hannounced
      exact hannounced

/-! ### What a subscriber has acknowledged -/

/-- A member that joins where there is room counts the last announced object as acknowledged. -/
theorem acked_checkpointMemberAdded (hcapable : c.checkpointCapable = true)
    (hrateless : track.isRatelessData = true)
    (hstate : (c.sendSubscriptions.getState a).isSome = true) (hopen : c.closed = none)
    (hroom : c.admission = .admitted) :
    ((t.checkpointMemberAdded c track a).checkpointAck a).acked = t.checkpointOf track := by
  unfold checkpointMemberAdded
  extract_lets reset joined
  have hreset : reset.sendSubscriptions = c.sendSubscriptions ∧
      reset.checkpointCapable = c.checkpointCapable ∧ reset.closed = c.closed ∧
      reset.admission = c.admission := by
    simp only [reset]
    split
    · exact ⟨rfl, rfl, rfl, rfl⟩
    · exact ⟨rfl, rfl, rfl, rfl⟩
  obtain ⟨htable, hsame, hclosed, hadmission⟩ := hreset
  clear_value reset
  rw [← htable] at hstate
  have hbare : (joined.checkpointAck a).acked = none := by
    simp only [joined]
    rw [checkpointAck_setCheckpointAck, if_pos ⟨rfl, hstate⟩]
  have hjoinedOpen : joined.closed = none := hclosed.trans hopen
  have hjoinedRoom : joined.admission = .admitted := hadmission.trans hroom
  have hjoinedState : (joined.sendSubscriptions.getState a).isSome = true := by
    obtain ⟨bound, hbound⟩ := SubscriptionTable.getState_isSome_iff.mp hstate
    exact SubscriptionTable.getState_isSome_iff.mpr ⟨bound, hbound⟩
  clear_value joined
  rw [if_neg (by simp [hsame, hcapable, hrateless]),
    if_neg (by rw [← Option.not_isSome, hstate]; exact Bool.false_ne_true)]
  split
  · next hnone => exact hbare.trans (Eq.symm hnone)
  next last hlast =>
  have hmark : t.checkpointOf track = some last := hlast
  unfold writeControlFrame
  rw [if_neg (by simp [hjoinedOpen]), if_pos hjoinedRoom]
  simp only
  rw [checkpointAck_setCheckpointAck, if_pos ⟨rfl, hjoinedState⟩, hmark]

theorem checkpointAck_checkpointMemberAdded (hplain : track.isRatelessData = false)
    (t : Transport) (c : Conn) (a b : TrackAlias) :
    (t.checkpointMemberAdded c track a).checkpointAck b = c.checkpointAck b := by
  unfold checkpointMemberAdded
  extract_lets reset
  have hreset : reset.sendSubscriptions = c.sendSubscriptions := by
    simp only [reset]
    split <;> rfl
  rw [if_pos (by rw [hplain, Bool.not_false, Bool.or_true])]
  simp only [checkpointAck, hreset]

/-- A SUBSCRIBE, which starts anew only what it finds room for. -/
theorem acksGrow_checkpointMemberAdded (hattentive : c.Attentive steady t.checkpointOf)
    (hopen : c.closed = none) (hadd : c.sendSubscriptions.add track a = some table)
    (hroom : c.sendSubscriptions.findByAlias a = some track →
      (c.checkpointAck a).acked.isSome = true → c.admission = .admitted) :
    AcksGrow c (t.checkpointMemberAdded { c with sendSubscriptions := table } track a) := by
  have henters := enters_add hadd
  obtain ⟨ack, hrestates, hack⟩ :=
    restates_checkpointMemberAdded t { c with sendSubscriptions := table } track a
  intro b other hbefore hafter acked hacked
  rw [hrestates.bindings] at hafter
  cases decEq b a with
  | isFalse hb =>
      rw [hrestates.others b hb, (henters.others b hb other hafter).2]
      exact ⟨acked, hacked, le_refl _⟩
  | isTrue hb =>
      subst hb
      obtain rfl := Option.some.inj (henters.bound.symm.trans hafter)
      have hattends := hattentive.attends hopen
      cases hrateless : track.isRatelessData with
      | false =>
          rw [checkpointAck_checkpointMemberAdded hrateless, henters.again hbefore]
          exact ⟨acked, hacked, le_refl _⟩
      | true =>
          obtain ⟨last, hmark, hreached⟩ :=
            (hattends.tracks b track hbefore hrateless).acked acked hacked
          have hstate : (table.getState b).isSome = true :=
            SubscriptionTable.getState_isSome_iff.mpr ⟨track, henters.bound⟩
          have hbaseline := acked_checkpointMemberAdded (t := t)
            (c := { c with sendSubscriptions := table }) hattends.capable hrateless hstate hopen
            (hroom hbefore (by rw [hacked]; rfl))
          rw [hmark] at hbaseline
          exact ⟨_, hbaseline, hreached⟩

/-- The connection behind an UNSUBSCRIBE. -/
def released (c : Conn) (a : TrackAlias) (track : TrackId) : Conn :=
  { c.setCheckpointAck a {} with
    sendSubscriptions := (c.setCheckpointAck a {}).sendSubscriptions.remove track }.emit
      (.unsubscribe track)

theorem lookup_receiveUnsubscribe (hlookup : Keyed.lookup Conn.id connId t.conns = some c)
    (hbound : c.sendSubscriptions.findByAlias a = some track) :
    Keyed.lookup Conn.id connId (t.receiveUnsubscribe c a track).conns =
      some (released c a track) := by
  have hid := (Keyed.mem_of_lookup hlookup).2
  have hstate : (c.sendSubscriptions.getState a).isSome = true :=
    SubscriptionTable.getState_isSome_iff.mpr ⟨track, hbound⟩
  have hremoved : Keyed.lookup Conn.id connId (t.checkpointMemberRemoved c track a).conns =
      some (c.setCheckpointAck a {}) := by
    unfold checkpointMemberRemoved
    split
    · next hnone =>
        rw [Option.isNone_iff_eq_none] at hnone
        rw [hnone] at hstate
        cases hstate
    · rw [conns_releaseAckedCheckpoints]
      exact lookup_setConn_self hlookup rfl
  have hids : ∀ c : Conn, ({ c with sendSubscriptions := c.sendSubscriptions.remove track
    }.emit (.unsubscribe track)).id = c.id := fun _ => rfl
  simp only [receiveUnsubscribe, updateConn]
  rw [Keyed.lookup_adjust (fun c hc => (hids c).trans hc), if_pos hid.symm, hid, hremoved]
  rfl

theorem findByAlias_released (hbound : c.sendSubscriptions.findByAlias a = some track)
    (b : TrackAlias) : (released c a track).sendSubscriptions.findByAlias b =
      if b = a then none else c.sendSubscriptions.findByAlias b := by
  have hbound : (c.setCheckpointAck a {}).sendSubscriptions.findByAlias a = some track := hbound
  show ((c.setCheckpointAck a {}).sendSubscriptions.remove track).findByAlias b = _
  rw [SubscriptionTable.remove_of_bound hbound, SubscriptionTable.findByAlias_removeAlias]
  rfl

theorem checkpointAck_released (hbound : c.sendSubscriptions.findByAlias a = some track)
    (b : TrackAlias) : (released c a track).checkpointAck b =
      if b = a then {} else c.checkpointAck b := by
  have hbound : (c.setCheckpointAck a {}).sendSubscriptions.findByAlias a = some track := hbound
  have hset := checkpointAck_setCheckpointAck c a b {}
  unfold checkpointAck at hset ⊢
  show (Option.map _ (((c.setCheckpointAck a {}).sendSubscriptions.remove track).getState b)).getD
    _ = _
  rw [SubscriptionTable.remove_of_bound hbound, SubscriptionTable.getState_removeAlias]
  split
  · rfl
  · next hb => rw [hset, if_neg fun h => hb h.1]

theorem attentive_released (hattentive : c.Attentive steady t.checkpointOf)
    (hbound : c.sendSubscriptions.findByAlias a = some track) :
    (released c a track).Attentive steady t.checkpointOf := by
  refine ⟨hattentive.announces.congr rfl, ?_, fun hopen => ?_⟩
  · refine hattentive.within.restated (fun b => show (released c a track).checkpointAck b = {} ∨
        (released c a track).checkpointAck b = c.checkpointAck b from ?_)
      (fun acked hacked => by cases hacked) fun acked hacked => by cases hacked
    rw [checkpointAck_released hbound]
    exact ite_eq_or_eq ..
  · have hattends := hattentive.attends hopen
    refine ⟨hattends.helloReceived, hattends.established, hattends.capable,
      fun b other hother hrateless => ?_⟩
    rw [findByAlias_released hbound] at hother
    split at hother
    · cases hother
    · next hb =>
        refine (hattends.tracks b other hother hrateless).congr rfl ?_
        rw [checkpointAck_released hbound, if_neg hb]

theorem acksGrow_released (hbound : c.sendSubscriptions.findByAlias a = some track) :
    AcksGrow c (released c a track) := by
  intro b other _ hother acked hacked
  rw [findByAlias_released hbound] at hother
  split at hother
  · cases hother
  · next hb =>
      rw [checkpointAck_released hbound, if_neg hb]
      exact ⟨acked, hacked, le_refl _⟩

/-- The connection behind an ACK that is taken. -/
theorem lookup_checkpointAcked {ack : TrackCheckpointAck}
    (hlookup : Keyed.lookup Conn.id connId t.conns = some c)
    (hacked : t.checkpointAcked c ack track = some t') :
    ∃ state log, Keyed.lookup Conn.id connId t'.conns =
        some { c.setCheckpointAck ack.trackAlias state with acked := log } ∧
      state.participating = true ∧ state.sent = (c.checkpointAck ack.trackAlias).sent ∧
      (∀ acked ∈ state.acked, acked ∈ (c.checkpointAck ack.trackAlias).acked ∨
        ∃ sent ∈ state.sent, acked.objectId ≤ sent.objectId) ∧
      ∀ acked ∈ (c.checkpointAck ack.trackAlias).acked,
        ∃ later ∈ state.acked, acked.objectId ≤ later.objectId := by
  unfold checkpointAcked at hacked
  split at hacked
  · cases hacked
  extract_lets old advanced state cleared logged at hacked
  split at hacked
  · cases hacked
  next sent hsent =>
  split at hacked
  · cases hacked
  next hvalid =>
  simp only [Bool.or_eq_true, Bool.not_eq_true', bne_iff_ne, ne_eq, decide_eq_true_eq, not_or,
    Bool.not_eq_false, not_not, Nat.not_lt] at hvalid
  obtain ⟨⟨hmember, _⟩, hreached⟩ := hvalid
  obtain rfl := Option.some.inj hacked
  refine ⟨state, logged.acked, ?_, ?_, ?_, fun acked hmark => ?_, fun acked hmark => ?_⟩
  · rw [conns_releaseAckedCheckpoints]
    exact lookup_setConn_self hlookup rfl
  · simp only [state]
    split
    · exact hmember
    · exact hmember
  · simp only [state]
    split <;> rfl
  · simp only [state] at hmark ⊢
    split at hmark
    · next hadvanced =>
        obtain rfl := Option.some.inj hmark
        rw [if_pos hadvanced]
        exact Or.inr ⟨sent, hsent, hreached⟩
    · exact Or.inl hmark
  · have hold : old.acked = some acked := hmark
    simp only [state]
    split
    · next hadvanced =>
        simp only [advanced, hold, decide_eq_true_eq] at hadvanced
        exact ⟨_, rfl, le_of_lt hadvanced⟩
    · exact ⟨acked, hold, le_refl _⟩

theorem checkpointAck_acknowledged {log : List (Sent TrackCheckpointAck)}
    {state : CheckpointAckState} (hstate : (c.sendSubscriptions.getState a).isSome = true)
    (b : TrackAlias) :
    ({ c.setCheckpointAck a state with acked := log } : Conn).checkpointAck b =
      if b = a then state else c.checkpointAck b := by
  have hset := checkpointAck_setCheckpointAck c a b state
  simp only [hstate, and_true] at hset
  exact hset

theorem attentive_acknowledged {log : List (Sent TrackCheckpointAck)}
    {state : CheckpointAckState} (hmarked : t.Marked)
    (hattentive : c.Attentive steady t.checkpointOf) (hopen : c.closed = none)
    (hbound : c.sendSubscriptions.findByAlias a = some track)
    (hrateless : track.isRatelessData = true) (hparticipating : state.participating = true)
    (hsent : state.sent = (c.checkpointAck a).sent)
    (hacked : ∀ acked ∈ state.acked, acked ∈ (c.checkpointAck a).acked ∨
      ∃ sent ∈ state.sent, acked.objectId ≤ sent.objectId) :
    ({ c.setCheckpointAck a state with acked := log } : Conn).Attentive steady t.checkpointOf := by
  have hattends := hattentive.attends hopen
  have hhere := hattends.tracks a track hbound hrateless
  have hstates : ∀ b, ({ c.setCheckpointAck a state with acked := log } : Conn).checkpointAck b =
      if b = a then state else c.checkpointAck b :=
    checkpointAck_acknowledged (SubscriptionTable.getState_isSome_iff.mpr ⟨track, hbound⟩)
  have hreached : ∀ acked ∈ state.acked, ∃ sent ∈ state.sent, acked.objectId ≤ sent.objectId := by
    intro acked hmark
    cases hacked acked hmark with
    | inl hold =>
        rw [hsent]
        exact hattentive.within.reached a acked hold
    | inr hnew => exact hnew
  refine ⟨hattentive.announces.congr rfl, ?_, fun _ => ⟨hattends.helloReceived,
    hattends.established, hattends.capable, fun b other hother hplays => ?_⟩⟩
  · refine hattentive.within.restated (fun b => ?_) (fun _ _ => hparticipating) hreached
    rw [hstates]
    exact ite_eq_or_eq ..
  cases decEq b a with
  | isFalse hb =>
      refine (hattends.tracks b other hother hplays).congr rfl ?_
      rw [hstates, if_neg hb]
  | isTrue hb =>
      subst hb
      obtain rfl := Option.some.inj (hbound.symm.trans hother)
      refine ⟨hhere.latest, ?_, ?_, fun acked hmark => ?_⟩
      · rw [hstates, if_pos rfl]
        exact hparticipating
      · rw [hstates, if_pos rfl, hsent]
        exact hhere.sent
      · rw [hstates, if_pos rfl] at hmark
        obtain ⟨sent, hthere, hle⟩ := hreached acked hmark
        rw [hsent, hhere.sent] at hthere
        exact ⟨sent.objectId, by rw [← hmarked.mark_eq hthere]; exact hthere, hle⟩

theorem acksGrow_acknowledged {log : List (Sent TrackCheckpointAck)}
    {state : CheckpointAckState} (hbound : c.sendSubscriptions.findByAlias a = some track)
    (hgrows : ∀ acked ∈ (c.checkpointAck a).acked,
      ∃ later ∈ state.acked, acked.objectId ≤ later.objectId) :
    AcksGrow c { c.setCheckpointAck a state with acked := log } := by
  intro b other _ _ acked hacked
  rw [checkpointAck_acknowledged (SubscriptionTable.getState_isSome_iff.mpr ⟨track, hbound⟩)]
  split
  · next hb =>
      subst hb
      exact hgrows acked hacked
  · exact ⟨acked, hacked, le_refl _⟩

/-! ### Frames of the subscriber -/

theorem follows_of_lookup {R : Conn → Conn → Prop} (hnext : t'.nextConnId = t.nextConnId)
    (hlookup : Keyed.lookup Conn.id connId t.conns = some c)
    (hlookup' : Keyed.lookup Conn.id connId t'.conns = some c') (hR : R c c') :
    FollowsAt R connId t t' := by
  refine ⟨hnext, fun found hfound => ⟨c, hlookup, ?_⟩⟩
  obtain rfl := Option.some.inj (hlookup'.symm.trans hfound)
  exact hR

/-- The connection stays attentive while nothing is announced. -/
theorem Announcing.stays (hannouncing : Announcing steady connId t) (hsame : SameGrouping t t')
    (hfollows : FollowsAt (fun c c' => c.Attentive steady t.checkpointOf →
      c'.Attentive steady t.checkpointOf) connId t t') : Announcing steady connId t' where
  marked := hannouncing.marked.congr hsame.fecTracks
  grouped := by
    rw [hsame.fecBuf, hsame.fecTrackId]
    exact hannouncing.grouped
  conn c' hc' := by
    obtain ⟨c, hc, hkept⟩ := hfollows.conn c' hc'
    rw [checkpointOf_congr hsame.fecTracks]
    exact hkept (hannouncing.conn c hc)

/-- A frame of the subscriber, behind which `R` holds of the connection. -/
theorem follows_subscriberFrame {R : Conn → Conn → Prop}
    (hkept : ∀ c c', Unannounced c c' → R c c')
    (hlookup : Keyed.lookup Conn.id connId t.conns = some c) (env : RepairEnv)
    (frame : ControlFrame)
    (hhonest : ∀ a track, frame = .unsubscribe a track →
      c.sendSubscriptions.findByAlias a = some track)
    (hjoined : ∀ a track table, frame = .subscribe a track → c.closed = none →
      c.sendSubscriptions.add track a = some table →
      R c ((t.checkpointMemberAdded { c with sendSubscriptions := table } track a).emit
        (.subscribe track)))
    (hreleased : ∀ a track, frame = .unsubscribe a track → c.closed = none →
      R c (released c a track))
    (hacknowledged : ∀ (ack : TrackCheckpointAck) track state log,
      frame = .trackCheckpointAck ack → c.closed = none →
      c.sendSubscriptions.findByAlias ack.trackAlias = some track → track.isRatelessData = true →
      state.participating = true → state.sent = (c.checkpointAck ack.trackAlias).sent →
      (∀ acked ∈ state.acked, acked ∈ (c.checkpointAck ack.trackAlias).acked ∨
        ∃ sent ∈ state.sent, acked.objectId ≤ sent.objectId) →
      (∀ acked ∈ (c.checkpointAck ack.trackAlias).acked,
        ∃ later ∈ state.acked, acked.objectId ≤ later.objectId) →
      R c { c.setCheckpointAck ack.trackAlias state with acked := log }) :
    FollowsAt R connId t (t.receiveControlFrame env connId frame) := by
  have hrefl : ∀ c, R c c := fun c => hkept c c (.refl c)
  have hclosed : ∀ code reason, FollowsAt R connId t (t.setConn (c.quiclyClose code reason)) :=
    fun code reason => follows_setConn hrefl hlookup (frame_unannounced.quiclyClose c _ _).id_eq
      fun _ => hkept _ _ (.quiclyClose c code reason)
  have hheld : ∀ {found}, Keyed.lookup Conn.id connId t.conns = some found → found = c :=
    fun hfound => Option.some.inj (hfound.symm.trans hlookup)
  refine follows_controlFrame hrefl frame_unannounced (fun _ => hkept) t env frame
    (fun found a track hfound hopen hframe => ?_) (fun found a track hfound hopen hframe => ?_)
    fun found ack hfound hopen hframe => ?_
  · obtain rfl := hheld hfound
    unfold receiveSubscribe
    split
    · exact hclosed _ _
    split
    · exact hclosed _ _
    · next table hadd =>
        exact follows_setConn hrefl hlookup (moved_checkpointMemberAdded t
          { found with sendSubscriptions := table } track a).id_eq fun _ =>
            hjoined a track table hframe hopen hadd
  · obtain rfl := hheld hfound
    have hbound := hhonest a track hframe
    have hremoved : KeepsAt connId t (t.checkpointMemberRemoved found track a) :=
      keepsAt_checkpointMemberRemoved hlookup track a
    exact follows_of_lookup hremoved.nextConnId hlookup
      (lookup_receiveUnsubscribe hlookup hbound) (hreleased a track hframe hopen)
  · obtain rfl := hheld hfound
    have hpeer : FollowsAt (fun c c' => c'.id = c.id) connId t (t.receiveCheckpointAck found ack) :=
      follows_receiveCheckpointAck (controlFrames_id.framesAt _) hlookup ack
    have hnext := hpeer.nextConnId
    unfold receiveCheckpointAck at hnext ⊢
    split
    · exact hclosed _ _
    next track hfilter =>
    obtain ⟨hbound, hrateless⟩ := Option.filter_eq_some_iff.mp hfilter
    split
    · exact hclosed _ _
    · next t' hacked =>
        obtain ⟨state, log, hlookup', hparticipating, hsent, hreached, hgrows⟩ :=
          lookup_checkpointAcked hlookup hacked
        rw [hfilter] at hnext
        simp only [hacked] at hnext
        exact follows_of_lookup hnext hlookup hlookup' (hacknowledged ack track state log hframe
          hopen hbound hrateless hparticipating hsent hreached hgrows)

theorem announcing_receive (hannouncing : Announcing steady connId t)
    (hlookup : Keyed.lookup Conn.id connId t.conns = some c) (env : RepairEnv)
    (frame : ControlFrame)
    (hhonest : ∀ a track, frame = .unsubscribe a track →
      c.sendSubscriptions.findByAlias a = some track) :
    Announcing steady connId (t.receiveControlFrame env connId frame) := by
  refine hannouncing.stays (grouping_receiveControlFrame t env connId frame)
    (follows_subscriberFrame (fun _ _ hkept hattentive => hattentive.keeps hkept) hlookup env
      frame hhonest ?_ ?_ ?_)
  · intro a track table _ hopen hadd hattentive
    exact (attentive_checkpointMemberAdded hannouncing.marked hattentive hopen hadd).keeps
      (frame_unannounced.events _ _)
  · intro a track hframe _ hattentive
    exact attentive_released hattentive (hhonest a track hframe)
  · intro ack track state log _ hopen hbound hrateless hparticipating hsent hreached _ hattentive
    exact attentive_acknowledged hannouncing.marked hattentive hopen hbound hrateless
      hparticipating hsent hreached

/-! ### Operations that publish nothing -/

theorem FollowsAt.mono {R P : Conn → Conn → Prop} (hfollows : FollowsAt R connId t t')
    (hweaker : ∀ c c', R c c' → P c c') : FollowsAt P connId t t' := by
  refine ⟨hfollows.nextConnId, fun c' hc' => ?_⟩
  obtain ⟨c, hc, hR⟩ := hfollows.conn c' hc'
  exact ⟨c, hc, hweaker c c' hR⟩

theorem framesAt_elsewhere (hother : ¬ here) :
    FramesAt (fun c c' => c' = c) here where
  refl _ := rfl
  trans hfirst hsecond := Eq.trans hsecond hfirst
  own hhere := absurd hhere hother

/-- A frame of another peer. -/
theorem follows_otherFrame (t : Transport) (env : RepairEnv) (frame : ControlFrame)
    (hother : connId ≠ other) :
    FollowsAt (fun c c' => c' = c) connId t (t.receiveControlFrame env other frame) :=
  follows_receiveControlFrame (framesAt_elsewhere hother) t env frame
    (fun _ _ _ _ h => absurd h hother) fun _ _ _ h => absurd h hother

theorem follows_disconnected (t : Transport) (other : Nat) :
    FollowsAt (fun c c' => c' = c) connId t (t.disconnect other) := by
  by_cases hsame : connId = other
  · subst hsame
    have hpeer : FollowsAt (fun c c' => c'.id = c.id) connId t (t.disconnect connId) :=
      follows_disconnect (controlFrames_id.framesAt _) t
    refine ⟨hpeer.nextConnId, fun c' hc' => ?_⟩
    unfold disconnect at hc'
    split at hc'
    · next hnone =>
        rw [hnone] at hc'
        cases hc'
    · simp only at hc'
      rw [Keyed.lookup_erase, if_pos rfl] at hc'
      cases hc'
  · exact follows_disconnect (framesAt_elsewhere hsame) t

/-- An operation that neither publishes nor brings a frame of the connection's peer. -/
def Op.passes (connId : Nat) (t : Transport) : Op → Prop
  | .publish _ _ => False
  | .flush _ => False
  | .finish _ _ => False
  | .connect => connId ≠ t.nextConnId
  | .receive _ other _ => connId ≠ other
  | _ => True

theorem follows_passing {R : Conn → Conn → Prop} (hkept : ∀ c c', Unannounced c c' → R c c')
    (hhello : ∀ c limits hello, R c (c.receiveHello limits hello)) (t : Transport) {op : Op}
    (hpasses : op.passes connId t) (hop : op ≠ .connect) : FollowsAt R connId t (t.apply op) := by
  have hrefl : ∀ c, R c c := fun c => hkept c c (.refl c)
  have hsame : ∀ c c' : Conn, c' = c → R c c' := fun c c' h => h ▸ hrefl c
  cases op with
  | publish env object => cases hpasses
  | flush env => cases hpasses
  | finish env track => cases hpasses
  | connect => exact absurd rfl hop
  | hello other hello =>
      refine follows_updateConn hrefl (fun c => ?_) fun _ c => hhello c t.limits hello
      unfold Conn.receiveHello
      split
      · rfl
      split
      · exact (frame_unannounced.quiclyClose c _ _).id_eq
      · rfl
  | respondAuth other success =>
      exact follows_updateConn hrefl (fun c => (unannounced_respondAuth c success).id_eq)
        fun _ c => hkept _ _ (unannounced_respondAuth c success)
  | receive env other frame => exact (follows_otherFrame t env frame hpasses).mono hsame
  | admissions other admissions =>
      exact follows_updateConn hrefl (fun _ => rfl) fun _ c =>
        hkept _ _ (frame_unannounced.drained c admissions)
  | close other code reason =>
      exact follows_updateConn hrefl (fun c => (frame_unannounced.quiclyClose c _ _).id_eq)
        fun _ c => hkept _ _ (.quiclyClose c code reason)
  | disconnect other => exact (follows_disconnected t other).mono hsame

theorem lookup_connect_other (hother : connId ≠ t.nextConnId) :
    Keyed.lookup Conn.id connId t.connect.conns = Keyed.lookup Conn.id connId t.conns := by
  rw [lookup_connect, if_neg hother, Option.or_none]

theorem quiet_of_passes {op : Op} (hpasses : op.passes connId t) : op.quiet = true := by
  cases op with
  | publish env object => cases hpasses
  | flush env => cases hpasses
  | finish env track => cases hpasses
  | _ => rfl

theorem announcing_passing (hannouncing : Announcing steady connId t) {op : Op}
    (hpasses : op.passes connId t) : Announcing steady connId (t.apply op) := by
  by_cases hop : op = .connect
  · subst hop
    refine ⟨hannouncing.marked.congr rfl, hannouncing.grouped, fun c hc => ?_⟩
    have hc : Keyed.lookup Conn.id connId t.connect.conns = some c := hc
    rw [lookup_connect_other hpasses] at hc
    exact hannouncing.conn c hc
  · exact hannouncing.stays (grouping_apply t (quiet_of_passes hpasses))
      (follows_passing (fun _ _ hkept hattentive => hattentive.keeps hkept)
        (fun _ limits hello hattentive => hattentive.receiveHello limits hello) t hpasses hop)

/-! ### Publications -/

/-- Who takes part keeps what it has acknowledged. -/
structure KeepsAcks (c c' : Conn) : Prop where
  id_eq : c'.id = c.id
  acks : ∀ a, (c.checkpointAck a).participating = true →
    (c'.checkpointAck a).participating = true ∧
      (c'.checkpointAck a).acked = (c.checkpointAck a).acked

namespace KeepsAcks

theorem of_unannounced (hkept : Unannounced c c') : KeepsAcks c c' where
  id_eq := hkept.id_eq
  acks a hmember := by
    rw [hkept.checkpointAck]
    exact ⟨hmember, rfl⟩

theorem refl (c : Conn) : KeepsAcks c c := .of_unannounced (.refl c)

theorem trans (hfirst : KeepsAcks c c') (hsecond : KeepsAcks c' c'') : KeepsAcks c c'' where
  id_eq := hsecond.id_eq.trans hfirst.id_eq
  acks a hmember := by
    obtain ⟨hmember, hsame⟩ := hfirst.acks a hmember
    obtain ⟨hmember', hsame'⟩ := hsecond.acks a hmember
    exact ⟨hmember', hsame'.trans hsame⟩

theorem of_restates {ack : CheckpointAckState} (hrestates : Restates a ack c c')
    (hack : (c.checkpointAck a).participating = true →
      ack.participating = true ∧ ack.acked = (c.checkpointAck a).acked) : KeepsAcks c c' where
  id_eq := hrestates.id_eq
  acks b hmember := by
    cases decEq b a with
    | isTrue hb =>
        subst hb
        rw [hrestates.here]
        exact hack hmember
    | isFalse hb =>
        rw [hrestates.others b hb]
        exact ⟨hmember, rfl⟩

theorem written (c : Conn) (frame : Sent ControlFrame) :
    KeepsAcks c (c.writeControlFrame frame).1 :=
  .of_restates (restates_writeControlFrame 0 c frame) fun hmember => ⟨hmember, rfl⟩

/-- The announcement is marked as sent. -/
theorem markSent (halias : c.sendSubscriptions.findAlias track = some a) (groupId objectId : Nat) :
    KeepsAcks c
      (c.setCheckpointAck a ((c.checkpointAck a).checkpointMarkSent groupId objectId)) :=
  .of_restates (restates_setCheckpointAck (getState_isSome_of_findAlias halias) _)
    fun hmember => ⟨hmember, rfl⟩

theorem memberOf (t : Transport) (c : Conn) (track : TrackId) (a : TrackAlias) :
    KeepsAcks c (if (c.checkpointAck a).participating = true then c
      else t.checkpointMemberAdded c track a) := by
  split
  · exact .refl c
  · next habsent =>
      obtain ⟨ack, hrestates, _⟩ := restates_checkpointMemberAdded t c track a
      exact .of_restates hrestates fun hmember => absurd hmember habsent

end KeepsAcks

theorem keepsAcks_emitCheckpointTo (t : Transport) (track : TrackId)
    (groupId firstObjectId finalObjectId : Nat) (c : Conn) :
    KeepsAcks c (t.emitCheckpointTo track groupId firstObjectId finalObjectId c) := by
  unfold emitCheckpointTo
  split
  · exact .refl c
  split
  · exact .refl c
  next a halias =>
  have hmember := KeepsAcks.memberOf t c track a
  have hmoved := moved_memberOf t c track a
  extract_lets member
  generalize member.sendFrame track a _ = frame
  have hwritten := KeepsAcks.written member frame
  have hsame := moved_writeControlFrame member frame
  split
  · next hfailed =>
      rw [hfailed] at hwritten
      exact hmember.trans hwritten
  · next written hsent =>
      rw [hsent] at hwritten hsame
      have halias : written.sendSubscriptions.findAlias track = some a := by
        rw [hsame.findAlias, hmoved.findAlias, halias]
      exact (hmember.trans hwritten).trans (.markSent halias groupId finalObjectId)

theorem keepsAcks_finishTrackTo (t : Transport) (track : TrackId) (finalObjectId : Nat)
    (c : Conn) : KeepsAcks c (t.finishTrackTo track finalObjectId c).1 := by
  unfold finishTrackTo
  split
  · exact .refl c
  split
  · exact .refl c
  next a halias =>
  generalize c.sendFrame track a _ = frame
  have hwritten := KeepsAcks.written c frame
  have hsame := moved_writeControlFrame c frame
  split
  · next hfailed =>
      rw [hfailed] at hwritten
      exact hwritten
  · next written hsent =>
      rw [hsent] at hwritten hsame
      split
      · exact hwritten
      have hmember := KeepsAcks.memberOf t written track a
      have hmoved := moved_memberOf t written track a
      extract_lets member
      have halias : member.sendSubscriptions.findAlias track = some a := by
        rw [hmoved.findAlias, hsame.findAlias, halias]
      exact (hwritten.trans hmember).trans (.markSent halias 0 finalObjectId)

theorem FollowsAt.of_map {f : Conn → Conn} (hnext : t'.nextConnId = t.nextConnId)
    (hconns : t'.conns = t.conns.map f) (hkeeps : ∀ c, KeepsAcks c (f c)) :
    FollowsAt KeepsAcks connId t t' := by
  refine .of_pointwise (fun _ _ hkept => hkept.id_eq) hnext ?_
  rw [hconns]
  exact Pointwise.of_map fun c _ => hkeeps c

theorem keepsAcks_attempt
    (hattempt : t.publishUngrouped env object inFlush = (t', result)) :
    FollowsAt KeepsAcks connId t t' := by
  have hattempted := attempted_publishUngrouped t env object inFlush
  have hnext := nextConnId_publishUngrouped t env object inFlush
  rw [hattempt] at hattempted hnext
  exact .of_pointwise (fun _ _ hkept => hkept.id_eq) hnext
    (hattempted.conns.imp fun _ _ hturn =>
      .of_unannounced (unannounced_of_publishes hturn.publishes))

theorem keepsAcks_commitGroup (t : Transport) (state : FecTrackState) (object : MoqObject) :
    FollowsAt KeepsAcks connId t (t.commitGroup state object) := by
  unfold commitGroup
  simp only
  split
  · exact .of_map rfl rfl (keepsAcks_emitCheckpointTo _ _ _ _ _)
  · exact .of_conns .refl rfl rfl

theorem Move.keepsAcks (hmove : Move t t') : FollowsAt KeepsAcks connId t t' := by
  cases hmove with
  | regrouped hregroups =>
      obtain ⟨mark, hconns⟩ := hregroups.conns
      exact .of_map hregroups.nextConnId hconns fun c =>
        .of_unannounced (.of_same rfl rfl rfl rfl rfl rfl rfl fun h => h)
  | slotted hslot =>
      obtain ⟨hconns, hnext⟩ := conns_slotted hslot
      exact .of_conns .refl hnext hconns
  | direct hgroups hattempt => exact keepsAcks_attempt hattempt
  | failed hbuffer hfound hattempt hresult => exact keepsAcks_attempt hattempt
  | committed hbuffer hfound hattempt hresult =>
      exact (keepsAcks_attempt hattempt).trans .trans (keepsAcks_commitGroup _ _ _)

theorem Moves.keepsAcks (hmoves : Moves t t') : FollowsAt KeepsAcks connId t t' :=
  hmoves.preserves (fun _ _ hmove hstart => hstart.trans .trans hmove.keepsAcks) (.refl .refl t)

theorem keepsAcks_finishTrack (t : Transport) (env : FlushEnv) (track : TrackId) :
    FollowsAt KeepsAcks connId t (t.finishTrack env track).1 := by
  cases (finished t env track).moves with
  | inl hmoves => exact hmoves.keepsAcks
  | inr hannounced =>
      obtain ⟨s, state, hmoves, _, _, _, hfinish⟩ := hannounced
      rw [hfinish]
      refine hmoves.keepsAcks.trans .trans (.of_map rfl ?_
        (keepsAcks_finishTrackTo s track (state.nextObjectId - 1)))
      simp [announceEnd, setFecTrackState]

theorem acksGrow_of_keepsAcks (hwithin : c.AcksWithin) (hkeeps : KeepsAcks c c') :
    AcksGrow c c' := by
  intro a track _ _ acked hacked
  rw [(hkeeps.acks a (hwithin.participating a acked hacked)).2]
  exact ⟨acked, hacked, le_refl _⟩

/-! ### Marks -/

/-- The mark of one track may move, to an object the track had. -/
theorem marksGrow_of_find (hmarked : t.Marked) (hfound : t.findFecTrackState track = some state)
    (hmoved : t'.checkpointOf track = state.checkpoint ∨
      ∃ objectId, t'.checkpointOf track = some ⟨0, objectId⟩ ∧ state.nextObjectId ≤ objectId + 1)
    (hothers : ∀ other ≠ track, t'.checkpointOf other = t.checkpointOf other) :
    MarksGrow t.checkpointOf t'.checkpointOf := by
  intro other last hlast
  by_cases hsame : other = track
  · subst hsame
    have hmark : state.checkpoint = some ⟨0, last⟩ := by
      rw [checkpointOf, hfound] at hlast
      exact hlast
    rcases hmoved with hkept | ⟨objectId, hmoved, hbehind⟩
    · exact ⟨last, hkept.trans hmark, le_refl last⟩
    · have hbelow := ((hmarked other state hfound).behind _ hmark).2
      simp only at hbelow
      exact ⟨objectId, hmoved, by omega⟩
  · exact ⟨last, by rw [hothers other hsame, hlast], le_refl last⟩

theorem checkpointOf_setFecTrackState (t : Transport) (state : FecTrackState)
    (hfound : t.findFecTrackState state.trackId = some old) :
    (t.setFecTrackState state).checkpointOf =
      Function.update t.checkpointOf state.trackId state.checkpoint := by
  funext track
  rw [checkpointOf, findFecTrackState_setFecTrackState, Function.update_apply]
  split
  · next hsame =>
      rw [hsame, hfound]
      rfl
  · rfl

theorem marksGrow_commitGroup (hmarked : t.Marked)
    (hfound : t.findFecTrackState state.trackId = some state) (object : MoqObject) :
    MarksGrow t.checkpointOf (t.commitGroup state object).checkpointOf := by
  unfold commitGroup
  extract_lets bumped slotted committed
  have hbumped : committed.checkpointOf =
      Function.update t.checkpointOf state.trackId state.checkpoint :=
    checkpointOf_setFecTrackState t bumped hfound
  have hthere : committed.findFecTrackState bumped.trackId = some bumped := by
    have hset := findFecTrackState_setFecTrackState t bumped state.trackId
    rw [if_pos rfl, hfound] at hset
    exact hset
  split
  · have hmarks : (committed.emitRollingCheckpoint bumped 0
        (bumped.nextObjectId - recoveryWindowObjects) (bumped.nextObjectId - 1)).checkpointOf =
        Function.update committed.checkpointOf state.trackId
          (some ⟨0, bumped.nextObjectId - 1⟩) :=
      checkpointOf_setFecTrackState committed
        { bumped with checkpoint := some ⟨0, bumped.nextObjectId - 1⟩ } hthere
    refine marksGrow_of_find hmarked hfound
      (Or.inr ⟨state.nextObjectId, ?_, Nat.le_succ _⟩) fun other hother => ?_
    · rw [hmarks, Function.update_self]
      rfl
    · rw [hmarks, Function.update_of_ne hother, hbumped, Function.update_of_ne hother]
  · refine marksGrow_of_find hmarked hfound (Or.inl ?_) fun other hother => ?_
    · rw [hbumped, Function.update_self]
    · rw [hbumped, Function.update_of_ne hother]

theorem marksGrow_announceEnd (hmarked : t.Marked)
    (hfound : t.findFecTrackState track = some state) :
    MarksGrow t.checkpointOf (t.announceEnd track state).1.checkpointOf := by
  have htrack := trackId_of_find hfound
  have hmarks : (t.announceEnd track state).1.checkpointOf =
      Function.update t.checkpointOf state.trackId (some ⟨0, state.nextObjectId - 1⟩) :=
    checkpointOf_setFecTrackState { t with
      conns := (t.conns.map (t.finishTrackTo track (state.nextObjectId - 1))).map Prod.fst }
      { state with checkpoint := some ⟨0, state.nextObjectId - 1⟩ }
      (by rw [← htrack] at hfound; exact hfound)
  refine marksGrow_of_find hmarked hfound (Or.inr ⟨state.nextObjectId - 1, ?_, ?_⟩)
    fun other hother => ?_
  · rw [hmarks, htrack, Function.update_self]
  · omega
  · rw [hmarks, htrack, Function.update_of_ne hother]

theorem marksGrow_attempt
    (hattempt : t.publishUngrouped env object inFlush = (t', result)) :
    t'.checkpointOf = t.checkpointOf := by
  have hgrouping := publishUngrouped_grouping t env object inFlush
  rw [hattempt] at hgrouping
  exact checkpointOf_congr hgrouping.fecTracks

theorem marksGrow_flushed (hmarked : t.Marked) (hflushed : Flushed t env t' result) :
    MarksGrow t.checkpointOf t'.checkpointOf := by
  cases hflushed with
  | empty hempty => exact .refl _
  | noSlot hbuffer hslot => exact .refl _
  | @failed slotted state _ _ hbuffer hslot hattempt hdelivered hnobody =>
      have hmarks := marksGrow_attempt hattempt
      have hslotted := checkpointOf_slotted hslot
      rw [hmarks, show slotted.attempting.checkpointOf = t.checkpointOf from hslotted]
      exact .refl _
  | @committed slotted state attempted result hbuffer hslot hattempt hresult =>
      have hgrouping := publishUngrouped_grouping slotted.attempting env
        (slotted.groupObject state) true
      rw [hattempt] at hgrouping
      have hslotted := checkpointOf_slotted hslot
      have hmarks : attempted.checkpointOf = t.checkpointOf :=
        (checkpointOf_congr hgrouping.fecTracks).trans
          (show slotted.attempting.checkpointOf = t.checkpointOf from hslotted)
      have hfound := (createFecTrackState_find hslot).1
      have htrack := trackId_of_find hfound
      rw [← hmarks]
      refine marksGrow_commitGroup ((hmarked.slotted hslot).congr hgrouping.fecTracks) ?_ _
      rw [htrack, hgrouping.findFecTrackState]
      exact hfound

/-- Publications keep the connection attentive and move marks on. -/
theorem flushInvariant_marksGrow {floor : TrackId → Option Watermark} :
    FlushInvariant (fun s => Announcing steady connId s ∧ MarksGrow floor s.checkpointOf)
      fun s => steady → s.FlushesWhole where
  flush hinv hwhole hflushed :=
    ⟨announcing_flushed hinv.1 hwhole hflushed,
      hinv.2.trans (marksGrow_flushed hinv.1.marked hflushed)⟩
  regrouped hinv hregroups := by
    refine ⟨announcing_regrouped hinv.1 hregroups, ?_⟩
    rw [checkpointOf_congr hregroups.fecTracks]
    exact hinv.2
  direct hinv _ hattempt := by
    refine ⟨announcing_attempt hinv.1 hattempt, ?_⟩
    rw [marksGrow_attempt hattempt]
    exact hinv.2

theorem marksGrow_finishTrack (hannouncing : Announcing steady connId t) (env : FlushEnv)
    (track : TrackId) (hwhole : t.fecTrackId = track → steady → t.FlushesWhole) :
    MarksGrow t.checkpointOf (t.finishTrack env track).1.checkpointOf := by
  have hstart := And.intro hannouncing (MarksGrow.refl t.checkpointOf)
  have hfinished := finished t env track
  revert hfinished
  generalize (t.finishTrack env track).1 = t'
  intro hfinished
  cases hfinished with
  | refused => exact .refl _
  | unflushed hpending hflush hresult =>
      exact (flushInvariant_marksGrow.of_flush hstart (hwhole hpending.2) hflush).2
  | unused hsettled => exact (flushInvariant_marksGrow.settled hstart hwhole hsettled).2
  | announced hrateless hsettled hfound hobjects =>
      obtain ⟨hreached, hgrown⟩ := flushInvariant_marksGrow.settled hstart hwhole hsettled
      exact hgrown.trans (marksGrow_announceEnd hreached.marked hfound)

/-! ### Every operation -/

theorem acksGrow_receive (hannouncing : Announcing steady connId t)
    (hlookup : Keyed.lookup Conn.id connId t.conns = some c) (env : RepairEnv)
    (frame : ControlFrame)
    (hhonest : ∀ a track, frame = .unsubscribe a track →
      c.sendSubscriptions.findByAlias a = some track)
    (hroom : ∀ a track, frame = .subscribe a track → c.closed = none →
      c.sendSubscriptions.findByAlias a = some track →
      (c.checkpointAck a).acked.isSome = true → c.admission = .admitted) :
    FollowsAt AcksGrow connId t (t.receiveControlFrame env connId frame) := by
  have hattentive := hannouncing.conn c hlookup
  refine follows_subscriberFrame (fun _ _ hkept => acksGrow_of_same hkept.checkpointAck) hlookup
    env frame hhonest ?_ ?_ ?_
  · intro a track table hframe hopen hadd
    exact acksGrow_checkpointMemberAdded hattentive hopen hadd (hroom a track hframe hopen)
  · intro a track hframe _
    exact acksGrow_released (hhonest a track hframe)
  · intro ack track state log _ _ hbound _ _ _ _ hgrows
    exact acksGrow_acknowledged hbound hgrows

/-- The connection is attentive, the marks have moved on and the ACKs are kept. -/
structure Onward (steady : Prop) (connId : Nat) (t t' : Transport) : Prop where
  announcing : Announcing steady connId t'
  marks : MarksGrow t.checkpointOf t'.checkpointOf
  acks : ∀ c', Keyed.lookup Conn.id connId t'.conns = some c' →
    ∃ c, Keyed.lookup Conn.id connId t.conns = some c ∧ AcksGrow c c'

theorem flagsAgree_iff : FlagsAgree connId t track ↔
    ∀ c ∈ Keyed.lookup Conn.id connId t.conns, c.established = true →
      ∀ entry ∈ c.sendSubscriptions.find track, entry.trackId = track := by
  constructor
  · intro hagree c hc hestablished entry hfind
    obtain ⟨hbound, hkey⟩ := SubscriptionTable.bound_of_find hfind
    exact hagree c hc hestablished _ _ hbound hkey
  · intro hagree c hc hestablished a bound hbound hkey
    obtain ⟨entry, hfind, rfl⟩ := SubscriptionTable.find_of_findAlias
      (SubscriptionTable.findAlias_eq_some_iff_bound.mpr ⟨bound, hbound, hkey⟩)
    have hentry := (SubscriptionTable.bound_of_find hfind).1
    rw [hbound] at hentry
    exact (Option.some.inj hentry).trans (hagree c hc hestablished entry hfind)

instance (connId : Nat) (t : Transport) (track : TrackId) :
    Decidable (FlagsAgree connId t track) :=
  decidable_of_iff _ flagsAgree_iff.symm

/-- A track is finished with the flags that the connection asks for. -/
def Op.agrees (connId : Nat) (t : Transport) : Op → Prop
  | .finish _ track => FlagsAgree connId t track
  | _ => True

instance (connId : Nat) (t : Transport) : (op : Op) → Decidable (op.agrees connId t)
  | .finish _ track => inferInstanceAs (Decidable (FlagsAgree connId t track))
  | .publish .. | .flush .. | .connect | .hello .. | .respondAuth .. | .receive ..
  | .admissions .. | .close .. | .disconnect .. => isTrue trivial

/-- Publications, where everyone keeps what it has acknowledged. -/
theorem onward_keepsAcks (hannouncing : Announcing steady connId t)
    (hreached : Announcing steady connId t') (hmarks : MarksGrow t.checkpointOf t'.checkpointOf)
    (hkeeps : FollowsAt KeepsAcks connId t t') : Onward steady connId t t' where
  announcing := hreached
  marks := hmarks
  acks c' hc' := by
    obtain ⟨c, hc, hkept⟩ := hkeeps.conn c' hc'
    exact ⟨c, hc, acksGrow_of_keepsAcks (hannouncing.conn c hc).within hkept⟩

theorem onward_passing (hannouncing : Announcing steady connId t) {op : Op}
    (hpasses : op.passes connId t) : Onward steady connId t (t.apply op) := by
  have hreached := announcing_passing hannouncing hpasses
  by_cases hop : op = .connect
  · subst hop
    refine ⟨hreached, .refl _, fun c hc => ⟨c, ?_, acksGrow_of_same fun _ => rfl⟩⟩
    rw [← lookup_connect_other hpasses]
    exact hc
  · refine ⟨hreached, ?_, (follows_passing (fun _ _ hkept => acksGrow_of_same hkept.checkpointAck)
      (fun c limits hello => ?_) t hpasses hop).conn⟩
    · rw [checkpointOf_congr (grouping_apply t (quiet_of_passes hpasses)).fecTracks]
      exact .refl _
    · unfold Conn.receiveHello
      split
      · exact acksGrow_of_same fun _ => rfl
      split
      · exact acksGrow_of_same (frame_unannounced.quiclyClose c _ _).checkpointAck
      · exact acksGrow_of_same fun _ => rfl

theorem onward_apply (hannouncing : Announcing steady connId t) {op : Op}
    (hagrees : op.agrees connId t)
    (hwhole : t.FlushesUnder (fun s => steady → s.FlushesWhole) op)
    (hconnect : op = .connect → connId ≠ t.nextConnId)
    (hother : ∀ env frame, op ≠ .receive env connId frame) :
    Onward steady connId t (t.apply op) := by
  have hstart := And.intro hannouncing (MarksGrow.refl t.checkpointOf)
  have hpassing : op.passes connId t → Onward steady connId t (t.apply op) :=
    onward_passing hannouncing
  cases op with
  | publish env object =>
      obtain ⟨hreached, hmarks⟩ := flushInvariant_marksGrow.publish hstart env object hwhole
      exact onward_keepsAcks hannouncing hreached hmarks (moves_publish t env object).keepsAcks
  | flush env =>
      have hflush : t.flushGrouped env = (t.apply (.flush env), (t.flushGrouped env).2) := rfl
      obtain ⟨hreached, hmarks⟩ := flushInvariant_marksGrow.of_flush hstart hwhole hflush
      exact onward_keepsAcks hannouncing hreached hmarks (moves_of_flush hflush).keepsAcks
  | finish env track =>
      exact onward_keepsAcks hannouncing
        (announcing_finishTrack hannouncing env track hwhole hagrees)
        (marksGrow_finishTrack hannouncing env track hwhole) (keepsAcks_finishTrack t env track)
  | connect => exact hpassing (hconnect rfl)
  | receive env other frame =>
      refine hpassing fun hsame => ?_
      subst hsame
      exact hother env frame rfl
  | _ => exact hpassing trivial

theorem onward_receive (hannouncing : Announcing steady connId t)
    (hlookup : Keyed.lookup Conn.id connId t.conns = some c) (env : RepairEnv)
    (frame : ControlFrame)
    (hhonest : ∀ a track, frame = .unsubscribe a track →
      c.sendSubscriptions.findByAlias a = some track)
    (hroom : ∀ a track, frame = .subscribe a track → c.closed = none →
      c.sendSubscriptions.findByAlias a = some track →
      (c.checkpointAck a).acked.isSome = true → c.admission = .admitted) :
    Onward steady connId t (t.receiveControlFrame env connId frame) where
  announcing := announcing_receive hannouncing hlookup env frame hhonest
  marks := by
    rw [checkpointOf_congr (grouping_receiveControlFrame t env connId frame).fecTracks]
    exact .refl _
  acks := (acksGrow_receive hannouncing hlookup env frame hhonest hroom).conn

/-! ### A new connection -/

/-- Of a connection that is not there, only what tracks announce matters. -/
theorem Announcing.of_absent (hannouncing : Announcing steady connId t)
    (habsent : Keyed.lookup Conn.id other t.conns = none) (steady' : Prop) :
    Announcing steady' other t where
  marked := hannouncing.marked
  grouped := hannouncing.grouped
  conn c hc := by
    rw [habsent] at hc
    cases hc

/-- A publisher that need not be steady may flush whatever it holds. -/
theorem flushesUnder_of_unsteady (t : Transport) (op : Op) :
    t.FlushesUnder (fun s => False → s.FlushesWhole) op := by
  cases op with
  | publish env object => exact fun _ => ⟨fun _ h => h.elim, fun _ _ h => h.elim⟩
  | flush env => exact fun h => h.elim
  | finish env track => exact fun _ h => h.elim
  | _ => trivial

/-- A connection that no operation names. -/
theorem exists_untold (t : Transport) (op : Op) :
    ∃ other, t.nextConnId < other ∧ ∀ env frame, op ≠ .receive env other frame := by
  cases op with
  | receive env told frame =>
      refine ⟨max t.nextConnId told + 1, by omega, fun env' frame' hsame => ?_⟩
      injection hsame with _ hsame _
      omega
  | _ => exact ⟨t.nextConnId + 1, by omega, fun env frame h => by cases h⟩

theorem announcing_init (isServer : Bool) (limits : TransportLimits)
    (maxRecoveryCacheBytes : Nat) :
    Announcing False (init isServer limits maxRecoveryCacheBytes).nextConnId
      (init isServer limits maxRecoveryCacheBytes) where
  marked track state hfound := by cases hfound
  grouped hbuffer := absurd rfl hbuffer
  conn c hc := by cases hc

/-- Before the connection is there. -/
theorem announcing_run_absent (hfresh : t.Fresh) (hannouncing : Announcing False t.nextConnId t)
    (ops : List Op) : Announcing False (t.run ops).nextConnId (t.run ops) := by
  induction ops generalizing t with
  | nil => exact hannouncing
  | cons op rest ih =>
      refine ih (hfresh.apply op) ?_
      obtain ⟨other, hlater, huntold⟩ := exists_untold t op
      have habsent := hfresh other hlater.le
      have hagrees : op.agrees other t := by
        cases op with
        | finish env track =>
            intro c hc
            rw [habsent] at hc
            cases hc
        | _ => trivial
      have hreached := (onward_apply (hannouncing.of_absent habsent False) hagrees
        (flushesUnder_of_unsteady t op) (fun _ => hlater.ne') huntold).announcing
      exact hreached.of_absent (hfresh.apply op _ (le_refl _)) False

end Transport

end Qlinq
