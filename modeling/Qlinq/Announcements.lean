import Mathlib.Data.List.Chain
import Mathlib.Logic.Function.Basic
import Qlinq.Protocol

namespace Qlinq

/-! What a publisher announces on a control stream: baselines, recovery windows and the
ends of tracks, each up to an object. -/

structure Announcement where
  baseline : Bool
  groupId : Nat
  /-- A TRACK_END leaves its first object to the receiver. -/
  firstObjectId : Option Nat
  finalObjectId : Nat
  deriving DecidableEq, Repr

def ControlFrame.announcement : ControlFrame → Option Announcement
  | .trackCheckpoint checkpoint =>
      some
        { baseline := checkpoint.baseline
          groupId := checkpoint.groupId
          firstObjectId := some checkpoint.firstObjectId
          finalObjectId := checkpoint.finalObjectId }
  | .trackEnd finish =>
      some
        { baseline := false
          groupId := finish.groupId
          firstObjectId := none
          finalObjectId := finish.finalObjectId }
  | _ => none

/-- What a log announces of one track, in order. -/
def announcements (track : TrackId) (log : List (Sent ControlFrame)) : List Announcement :=
  log.filterMap fun frame =>
    if frame.track = track then frame.message.announcement else none

namespace Announcement

/-- A span of at most one window of the only group; a baseline spans its object. -/
structure Plain (announcement : Announcement) : Prop where
  groupId : announcement.groupId = 0
  first : ∀ first, announcement.firstObjectId = some first →
    first ≤ announcement.finalObjectId ∧
      announcement.finalObjectId - first < recoveryWindowObjects
  baseline : announcement.baseline = true →
    announcement.firstObjectId = some announcement.finalObjectId

/-- A receiver that has seen the objects up to `last` announced takes the announcement. -/
def Extends (last : Nat) (announcement : Announcement) : Prop :=
  announcement.baseline = true ∨
    match announcement.firstObjectId with
    | some first => first = last + 1
    | none => announcement.finalObjectId ≤ last + recoveryWindowObjects

/-- Announcements never go back; those of a steady publisher extend each other. -/
structure Continues (steady : Prop) (earlier later : Announcement) : Prop where
  grows : earlier.finalObjectId ≤ later.finalObjectId
  extended : steady → later.Extends earlier.finalObjectId

end Announcement

section Logs

variable {track : TrackId} {log : List (Sent ControlFrame)}

@[simp] theorem announcements_append (track : TrackId) (first second : List (Sent ControlFrame)) :
    announcements track (first ++ second) =
      announcements track first ++ announcements track second :=
  List.filterMap_append

@[simp] theorem announcements_nil (track : TrackId) : announcements track [] = [] :=
  rfl

theorem announcements_singleton (track : TrackId) (frame : Sent ControlFrame) :
    announcements track [frame] =
      if frame.track = track then frame.message.announcement.toList else [] := by
  unfold announcements
  split
  · next hsame =>
      rw [List.filterMap_cons, if_pos hsame]
      cases frame.message.announcement <;> rfl
  · next hother => rw [List.filterMap_cons, if_neg hother, List.filterMap_nil]

theorem announcements_idle (hidle : ∀ frame ∈ log, frame.message.announcement = none)
    (track : TrackId) : announcements track log = [] := by
  rw [announcements, List.filterMap_eq_nil_iff]
  intro frame hframe
  rw [hidle frame hframe, ite_self]

end Logs

/-- The last object a log announces of a track. -/
def lastAnnounced (track : TrackId) (log : List (Sent ControlFrame)) : Option Nat :=
  (announcements track log).getLast?.map Announcement.finalObjectId

namespace Conn

variable {steady : Prop} {mark mark' : TrackId → Option Watermark} {c c' : Conn}

/-- `mark` is the last object each track has announced to anyone: the log stays within
it, and goes on from announcement to announcement. -/
structure Announces (steady : Prop) (mark : TrackId → Option Watermark) (c : Conn) :
    Prop where
  chained : ∀ track,
    (announcements track c.control).IsChain (Announcement.Continues steady)
  plain : ∀ track, ∀ announcement ∈ announcements track c.control, announcement.Plain
  reached : ∀ track, ∀ announcement ∈ announcements track c.control,
    ∃ last, mark track = some ⟨0, last⟩ ∧ announcement.finalObjectId ≤ last

/-- One subscription: everything its track has announced was announced to it. -/
structure AttendsTrack (mark : TrackId → Option Watermark) (c : Conn) (a : TrackAlias)
    (track : TrackId) : Prop where
  latest : lastAnnounced track c.control = (mark track).map Watermark.objectId
  participating : (c.checkpointAck a).participating = true
  sent : (c.checkpointAck a).sent = mark track
  acked : ∀ acked, (c.checkpointAck a).acked = some acked →
    ∃ last, mark track = some ⟨0, last⟩ ∧ acked.objectId ≤ last

/-- A greeted connection of a capable peer, as long as it is open. -/
structure Attends (mark : TrackId → Option Watermark) (c : Conn) : Prop where
  helloReceived : c.helloReceived = true
  established : c.established = true
  capable : c.checkpointCapable = true
  tracks : ∀ a track, c.sendSubscriptions.findByAlias a = some track →
    track.isRatelessData = true → c.AttendsTrack mark a track

/-- Later marks. -/
def MarksGrow (mark mark' : TrackId → Option Watermark) : Prop :=
  ∀ track last, mark track = some ⟨0, last⟩ →
    ∃ later, mark' track = some ⟨0, later⟩ ∧ last ≤ later

theorem Announces.grow (hannounces : c.Announces steady mark) (hgrow : MarksGrow mark mark') :
    c.Announces steady mark' where
  chained := hannounces.chained
  plain := hannounces.plain
  reached track announcement hmem := by
    obtain ⟨last, hlast, hreached⟩ := hannounces.reached track announcement hmem
    obtain ⟨later, hlater, hle⟩ := hgrow track last hlast
    exact ⟨later, hlater, hreached.trans hle⟩

/-! ### Steps that announce nothing -/

/-- Bindings, ACK states and announcements stay; the connection may be closed. -/
structure Unannounced (c c' : Conn) : Prop where
  id_eq : c'.id = c.id
  bindings : ∀ a, c'.sendSubscriptions.findByAlias a = c.sendSubscriptions.findByAlias a
  states : ∀ a, c'.sendSubscriptions.getState a = c.sendSubscriptions.getState a
  control : ∀ track, announcements track c'.control = announcements track c.control
  capabilities : c'.peerCapabilities = c.peerCapabilities
  handshake : c.helloReceived = true → c.protocolReady = true → c.authenticated = true →
    c'.helloReceived = true ∧ c'.protocolReady = true ∧ c'.authenticated = true
  still_open : c'.closed = none → c.closed = none

namespace Unannounced

theorem of_same (hid : c'.id = c.id) (htable : c'.sendSubscriptions = c.sendSubscriptions)
    (hcontrol : c'.control = c.control) (hcapabilities : c'.peerCapabilities = c.peerCapabilities)
    (hhello : c'.helloReceived = c.helloReceived) (hready : c'.protocolReady = c.protocolReady)
    (hauthenticated : c'.authenticated = c.authenticated)
    (hopen : c'.closed = none → c.closed = none) : Unannounced c c' where
  id_eq := hid
  bindings _ := by rw [htable]
  states _ := by rw [htable]
  control _ := by rw [hcontrol]
  capabilities := hcapabilities
  handshake hhere hthere hlast := by
    rw [hhello, hready, hauthenticated]
    exact ⟨hhere, hthere, hlast⟩
  still_open := hopen

theorem refl (c : Conn) : Unannounced c c := .of_same rfl rfl rfl rfl rfl rfl rfl fun h => h

theorem trans (hfirst : Unannounced c c') (hsecond : Unannounced c' c'') :
    Unannounced c c'' where
  id_eq := hsecond.id_eq.trans hfirst.id_eq
  bindings a := (hsecond.bindings a).trans (hfirst.bindings a)
  states a := (hsecond.states a).trans (hfirst.states a)
  control track := (hsecond.control track).trans (hfirst.control track)
  capabilities := hsecond.capabilities.trans hfirst.capabilities
  handshake hhello hready hauthenticated := by
    obtain ⟨hhello, hready, hauthenticated⟩ := hfirst.handshake hhello hready hauthenticated
    exact hsecond.handshake hhello hready hauthenticated
  still_open h := hfirst.still_open (hsecond.still_open h)

theorem checkpointAck (hkept : Unannounced c c') (a : TrackAlias) :
    c'.checkpointAck a = c.checkpointAck a := by
  simp only [Conn.checkpointAck, hkept.states]

theorem checkpointCapable (hkept : Unannounced c c') :
    c'.checkpointCapable = c.checkpointCapable := by
  simp only [Conn.checkpointCapable, hasCapability, hkept.capabilities]

theorem closed (c : Conn) (close : Close) : Unannounced c { c with closed := some close } :=
  .of_same rfl rfl rfl rfl rfl rfl rfl fun h => by cases h

theorem quiclyClose (c : Conn) (code : AppError) (reason : String) :
    Unannounced c (c.quiclyClose code reason) := by
  unfold Conn.quiclyClose
  split
  · exact .refl c
  · exact .closed c _

/-- A frame that announces nothing. -/
theorem written (c : Conn) (frame : Sent ControlFrame) (admissions : List Admission)
    (hidle : frame.message.announcement = none) :
    Unannounced c { c with control := c.control ++ [frame], admissions := admissions } where
  id_eq := rfl
  bindings _ := rfl
  states _ := rfl
  control track := by
    have hnone : announcements track [frame] = [] :=
      announcements_idle (fun other hother => by rw [List.mem_singleton.mp hother, hidle]) track
    rw [announcements_append, hnone, List.append_nil]
  capabilities := rfl
  handshake hhello hready hauthenticated := ⟨hhello, hready, hauthenticated⟩
  still_open h := h

end Unannounced

theorem Announces.keeps (hannounces : c.Announces steady mark) (hkept : Unannounced c c') :
    c'.Announces steady mark where
  chained track := by
    rw [hkept.control]
    exact hannounces.chained track
  plain track := by
    rw [hkept.control]
    exact hannounces.plain track
  reached track := by
    rw [hkept.control]
    exact hannounces.reached track

theorem established_of_handshake (hhello : c.helloReceived = true)
    (hestablished : c.established = true) (hkept : Unannounced c c') (hopen : c'.closed = none) :
    c'.helloReceived = true ∧ c'.established = true := by
  simp only [established, Bool.and_eq_true] at hestablished
  obtain ⟨hhere, hready, hauthenticated⟩ :=
    hkept.handshake hhello hestablished.1.1 hestablished.1.2
  exact ⟨hhere, by simp [established, hready, hauthenticated, hopen]⟩

theorem AttendsTrack.keeps (hattends : c.AttendsTrack mark a track)
    (hkept : Unannounced c c') : c'.AttendsTrack mark a track := by
  refine ⟨?_, ?_, ?_, ?_⟩
  · rw [lastAnnounced, hkept.control]
    exact hattends.latest
  · rw [hkept.checkpointAck]
    exact hattends.participating
  · rw [hkept.checkpointAck]
    exact hattends.sent
  · rw [hkept.checkpointAck]
    exact hattends.acked

theorem Attends.keeps (hattends : c.Attends mark) (hkept : Unannounced c c')
    (hopen : c'.closed = none) : c'.Attends mark := by
  obtain ⟨hhello, hestablished⟩ :=
    established_of_handshake hattends.helloReceived hattends.established hkept hopen
  refine ⟨hhello, hestablished, ?_, fun a track hbound hrateless => ?_⟩
  · rw [hkept.checkpointCapable]
    exact hattends.capable
  · rw [hkept.bindings] at hbound
    exact (hattends.tracks a track hbound hrateless).keeps hkept

/-! ### Announcing -/

/-- The log goes on with one announcement of a track. -/
def Logs (c c' : Conn) (track : TrackId) (announcement : Announcement) : Prop :=
  ∀ other, announcements other c'.control =
    announcements other c.control ++ if other = track then [announcement] else []

/-- The mark of a track that an announcement moves. -/
def markThrough (mark : TrackId → Option Watermark) (track : TrackId) (objectId : Nat) :
    TrackId → Option Watermark :=
  Function.update mark track (some ⟨0, objectId⟩)

theorem marksGrow_markThrough (hgrows : ∀ last, mark track = some ⟨0, last⟩ → last ≤ objectId) :
    MarksGrow mark (markThrough mark track objectId) := by
  intro other last hlast
  unfold markThrough
  by_cases hsame : other = track
  · subst hsame
    exact ⟨objectId, Function.update_self .., hgrows last hlast⟩
  · exact ⟨last, by rw [Function.update_of_ne hsame, hlast], le_refl last⟩

theorem Announces.announce (hannounces : c.Announces steady mark)
    (hlogs : Logs c c' track announcement) (hplain : announcement.Plain)
    (hgrows : ∀ last, mark track = some ⟨0, last⟩ → last ≤ announcement.finalObjectId)
    (hextends : steady → ∀ last, lastAnnounced track c.control = some last →
      announcement.Extends last) :
    c'.Announces steady (markThrough mark track announcement.finalObjectId) := by
  have hgrown := hannounces.grow (marksGrow_markThrough hgrows)
  refine ⟨fun other => ?_, fun other said hsaid => ?_, fun other said hsaid => ?_⟩
  · rw [hlogs other]
    split
    · next hsame =>
        subst hsame
        refine List.isChain_append.mpr ⟨hannounces.chained other, List.isChain_singleton _, ?_⟩
        intro last hlast next hnext
        obtain rfl := Option.some.inj hnext
        obtain ⟨reached, hmark, hle⟩ :=
          hannounces.reached other last (List.mem_of_getLast? hlast)
        refine ⟨hle.trans (hgrows reached hmark), fun hsteady => ?_⟩
        exact hextends hsteady _ (by rw [lastAnnounced, hlast]; rfl)
    · rw [List.append_nil]
      exact hannounces.chained other
  · rw [hlogs other] at hsaid
    cases List.mem_append.mp hsaid with
    | inl hold => exact hannounces.plain other said hold
    | inr hnew =>
        split at hnew
        · rw [List.mem_singleton.mp hnew]
          exact hplain
        · cases hnew
  · rw [hlogs other] at hsaid
    cases List.mem_append.mp hsaid with
    | inl hold => exact hgrown.reached other said hold
    | inr hnew =>
        split at hnew
        · next hsame =>
            subst hsame
            rw [List.mem_singleton.mp hnew]
            exact ⟨announcement.finalObjectId, Function.update_self .., le_refl _⟩
        · cases hnew

theorem AttendsTrack.elsewhere (hattends : c.AttendsTrack mark b other)
    (hother : other ≠ track) (hlogs : Logs c c' track announcement)
    (hstate : c'.checkpointAck b = c.checkpointAck b) (objectId : Nat) :
    c'.AttendsTrack (markThrough mark track objectId) b other := by
  have hmark : markThrough mark track objectId other = mark other :=
    Function.update_of_ne hother _ _
  refine ⟨?_, ?_, ?_, ?_⟩
  · rw [lastAnnounced, hlogs other, if_neg hother, List.append_nil, hmark]
    exact hattends.latest
  · rw [hstate]
    exact hattends.participating
  · rw [hstate, hmark]
    exact hattends.sent
  · rw [hstate, hmark]
    exact hattends.acked

/-- The subscription the announcement is for. -/
theorem attendsTrack_announced {ack : CheckpointAckState}
    (hlogs : Logs c c' track announcement)
    (hstate : c'.checkpointAck a = ack) (hparticipating : ack.participating = true)
    (hsent : ack.sent = some ⟨0, announcement.finalObjectId⟩)
    (hacked : ∀ acked, ack.acked = some acked →
      acked.objectId ≤ announcement.finalObjectId) :
    c'.AttendsTrack (markThrough mark track announcement.finalObjectId) a track := by
  have hmark : markThrough mark track announcement.finalObjectId track =
      some ⟨0, announcement.finalObjectId⟩ := Function.update_self ..
  refine ⟨?_, ?_, ?_, ?_⟩
  · rw [lastAnnounced, hlogs track, if_pos rfl, List.getLast?_append, hmark]
    rfl
  · rw [hstate]
    exact hparticipating
  · rw [hstate, hmark]
    exact hsent
  · intro acked h
    rw [hstate] at h
    exact ⟨_, hmark, hacked acked h⟩

/-- No participant has acknowledged more than was announced to it. -/
structure AcksWithin (c : Conn) : Prop where
  participating : ∀ a, ∀ acked ∈ (c.checkpointAck a).acked, (c.checkpointAck a).participating = true
  reached : ∀ a, ∀ acked ∈ (c.checkpointAck a).acked,
    ∃ sent ∈ (c.checkpointAck a).sent, acked.objectId ≤ sent.objectId

theorem AcksWithin.keeps (hwithin : c.AcksWithin)
    (hsame : ∀ a, c'.checkpointAck a = c.checkpointAck a) : c'.AcksWithin where
  participating a := by
    rw [hsame]
    exact hwithin.participating a
  reached a := by
    rw [hsame]
    exact hwithin.reached a

/-- One state is replaced. -/
theorem AcksWithin.restated {ack : CheckpointAckState} (hwithin : c.AcksWithin)
    (hstates : ∀ b, c'.checkpointAck b = ack ∨ c'.checkpointAck b = c.checkpointAck b)
    (hparticipating : ∀ acked ∈ ack.acked, ack.participating = true)
    (hreached : ∀ acked ∈ ack.acked, ∃ sent ∈ ack.sent, acked.objectId ≤ sent.objectId) :
    c'.AcksWithin := by
  refine ⟨fun b => ?_, fun b => ?_⟩
  · cases hstates b with
    | inl hnew =>
        rw [hnew]
        exact hparticipating
    | inr hold =>
        rw [hold]
        exact hwithin.participating b
  · cases hstates b with
    | inl hnew =>
        rw [hnew]
        exact hreached
    | inr hold =>
        rw [hold]
        exact hwithin.reached b

/-- The state of a connection that may be closed. -/
structure Attentive (steady : Prop) (mark : TrackId → Option Watermark) (c : Conn) :
    Prop where
  announces : c.Announces steady mark
  within : c.AcksWithin
  attends : c.closed = none → c.Attends mark

theorem Attentive.keeps (hattentive : c.Attentive steady mark) (hkept : Unannounced c c') :
    c'.Attentive steady mark where
  announces := hattentive.announces.keeps hkept
  within := hattentive.within.keeps hkept.checkpointAck
  attends hopen := (hattentive.attends (hkept.still_open hopen)).keeps hkept hopen

end Conn

end Qlinq
