import Qlinq.Admission

namespace Qlinq

/-! What a publication hands to each peer fits the limits negotiated with it. -/

namespace Conn

/-- Whatever the connection has been given meanwhile fits its negotiated limits. -/
structure SendsWithin (c c' : Conn) : Prop where
  id : c'.id = c.id
  helloReceived : c'.helloReceived = c.helloReceived
  protocolReady : c'.protocolReady = c.protocolReady
  negotiatedLimits : c'.negotiatedLimits = c.negotiatedLimits
  datagrams : ∃ packets, c'.datagrams = c.datagrams ++ packets ∧ ∀ packet ∈ packets,
    c.protocolReady = true ∧ c.datagramValid packet.message = true
  streams : ∃ frames, c'.streams = c.streams ++ frames ∧ ∀ frame ∈ frames,
    frame.2.message.payload.length ≤ c.negotiatedLimits.maxReliableObjectSize
  control : ∃ frames, c'.control = c.control ++ frames ∧ ∀ frame ∈ frames, ∀ payload,
    frame.message = .unicast payload →
      payload.length ≤ c.negotiatedLimits.maxReliableObjectSize

theorem datagramValid_congr {c c' : Conn} (hlimits : c'.negotiatedLimits = c.negotiatedLimits)
    (datagram : Datagram) : c'.datagramValid datagram = c.datagramValid datagram := by
  unfold datagramValid
  rw [hlimits]

theorem concat_append {whole start middle : List α} {P : α → Prop}
    (hmiddle : ∃ items, middle = start ++ items ∧ ∀ item ∈ items, P item)
    (hwhole : ∃ items, whole = middle ++ items ∧ ∀ item ∈ items, P item) :
    ∃ items, whole = start ++ items ∧ ∀ item ∈ items, P item := by
  obtain ⟨first, rfl, hfirst⟩ := hmiddle
  obtain ⟨second, rfl, hsecond⟩ := hwhole
  refine ⟨first ++ second, List.append_assoc _ _ _, fun item hitem => ?_⟩
  cases List.mem_append.mp hitem with
  | inl hmem => exact hfirst item hmem
  | inr hmem => exact hsecond item hmem

namespace SendsWithin

theorem refl (c : Conn) : SendsWithin c c where
  id := rfl
  helloReceived := rfl
  protocolReady := rfl
  negotiatedLimits := rfl
  datagrams := ⟨[], by simp⟩
  streams := ⟨[], by simp⟩
  control := ⟨[], by simp⟩

instance : Std.Refl SendsWithin := ⟨refl⟩

theorem trans {c c' c'' : Conn} (hfirst : SendsWithin c c') (hsecond : SendsWithin c' c'') :
    SendsWithin c c'' where
  id := hsecond.id.trans hfirst.id
  helloReceived := hsecond.helloReceived.trans hfirst.helloReceived
  protocolReady := hsecond.protocolReady.trans hfirst.protocolReady
  negotiatedLimits := hsecond.negotiatedLimits.trans hfirst.negotiatedLimits
  datagrams := by
    have hlater := hsecond.datagrams
    simp only [hfirst.protocolReady, datagramValid_congr hfirst.negotiatedLimits] at hlater
    exact concat_append hfirst.datagrams hlater
  streams := by
    have hlater := hsecond.streams
    rw [hfirst.negotiatedLimits] at hlater
    exact concat_append hfirst.streams hlater
  control := by
    have hlater := hsecond.control
    rw [hfirst.negotiatedLimits] at hlater
    exact concat_append hfirst.control hlater

end SendsWithin

theorem sendsWithin_quiclyClose (c : Conn) (code : AppError) (reason : String) :
    SendsWithin c (c.quiclyClose code reason) := by
  unfold quiclyClose
  split
  · exact .refl c
  · exact { SendsWithin.refl c with id := rfl }

theorem sendsWithin_writeControlFrame (c : Conn) (frame : Sent ControlFrame)
    (hframe : ∀ payload, frame.message ≠ .unicast payload) :
    SendsWithin c (c.writeControlFrame frame).1 := by
  unfold writeControlFrame
  split
  · exact .refl c
  split
  · refine { SendsWithin.refl c with control := ⟨[frame], rfl, fun written hwritten => ?_⟩ }
    obtain rfl := List.mem_singleton.mp hwritten
    exact fun payload hpayload => absurd hpayload (hframe payload)
  · have hclosed := sendsWithin_quiclyClose { c with admissions := c.admissions.tail }
      .resourceLimit "reliable control queue exhausted"
    exact { hclosed with id := hclosed.id }

end Conn

namespace Transport

open Conn (SendsWithin sendsWithin_writeControlFrame sendsWithin_quiclyClose)

/-! ### Announcements -/

theorem sendsWithin_checkpointMemberAdded (t : Transport) (c : Conn) (track : TrackId)
    (a : TrackAlias) : SendsWithin c (t.checkpointMemberAdded c track a) := by
  unfold checkpointMemberAdded
  extract_lets reset joined
  have hreset : SendsWithin c reset := by
    simp only [reset]
    split
    · exact { SendsWithin.refl c with id := rfl }
    · exact .refl c
  have hjoined : SendsWithin c joined := { hreset with id := hreset.id }
  split
  · exact hreset
  split
  · exact hreset
  split
  · exact hjoined
  next last _ =>
  have hwrite := sendsWithin_writeControlFrame joined (joined.sendFrame track a
    (.trackCheckpoint
      { trackAlias := a
        baseline := true
        groupId := last.groupId
        firstObjectId := last.objectId
        finalObjectId := last.objectId })) (by simp [Conn.sendFrame])
  split
  · next hfailed =>
      rw [hfailed] at hwrite
      exact hjoined.trans hwrite
  · next hsent =>
      rw [hsent] at hwrite
      have hwritten := hjoined.trans hwrite
      exact { hwritten with id := hwritten.id }

theorem sendsWithin_memberOf (t : Transport) (c : Conn) (track : TrackId) (a : TrackAlias) :
    SendsWithin c (if (c.checkpointAck a).participating = true then c
      else t.checkpointMemberAdded c track a) := by
  split
  · exact .refl c
  · exact sendsWithin_checkpointMemberAdded t c track a

theorem sendsWithin_emitCheckpointTo (t : Transport) (track : TrackId)
    (groupId firstObjectId finalObjectId : Nat) (c : Conn) :
    SendsWithin c (t.emitCheckpointTo track groupId firstObjectId finalObjectId c) := by
  unfold emitCheckpointTo
  split
  · exact .refl c
  split
  · exact .refl c
  next a _ =>
  extract_lets member
  have hmember : SendsWithin c member := sendsWithin_memberOf t c track a
  have hwrite := sendsWithin_writeControlFrame member (member.sendFrame track a
    (.trackCheckpoint
      { trackAlias := a
        baseline := false
        groupId := groupId
        firstObjectId := firstObjectId
        finalObjectId := finalObjectId })) (by simp [Conn.sendFrame])
  split
  · next hfailed =>
      rw [hfailed] at hwrite
      exact hmember.trans hwrite
  · next hsent =>
      rw [hsent] at hwrite
      have hwritten := hmember.trans hwrite
      exact { hwritten with id := hwritten.id }

theorem sendsWithin_finishTrackTo (t : Transport) (track : TrackId) (finalObjectId : Nat)
    (c : Conn) : SendsWithin c (t.finishTrackTo track finalObjectId c).1 := by
  unfold finishTrackTo
  split
  · exact .refl c
  split
  · exact .refl c
  next a _ =>
  have hwrite := sendsWithin_writeControlFrame c (c.sendFrame track a (.trackEnd
    { trackAlias := a, groupId := 0, finalObjectId := finalObjectId }))
    (by simp [Conn.sendFrame])
  split
  · next hfailed =>
      rw [hfailed] at hwrite
      exact hwrite
  · next c' hsent =>
      rw [hsent] at hwrite
      split
      · exact hwrite
      · have hmember := hwrite.trans (sendsWithin_memberOf t c' track a)
        exact { hmember with id := hmember.id }

/-! ### Publications -/

/-- Every connection is served within its limits. -/
structure Sends (t t' : Transport) : Prop where
  limits : t'.limits = t.limits
  conns : List.Forall₂ SendsWithin t.conns t'.conns

namespace Sends

theorem refl (t : Transport) : Sends t t := ⟨rfl, List.forall₂_refl _⟩

theorem trans (hfirst : Sends t t') (hsecond : Sends t' t'') : Sends t t'' where
  limits := hsecond.limits.trans hfirst.limits
  conns := Pointwise.comp (fun _ _ _ hbefore hafter => hbefore.trans hafter) hfirst.conns
    hsecond.conns

theorem of_map {t t' : Transport} {f : Conn → Conn} (hlimits : t'.limits = t.limits)
    (hconns : t'.conns = t.conns.map f) (hsends : ∀ c, SendsWithin c (f c)) : Sends t t' := by
  refine ⟨hlimits, ?_⟩
  rw [hconns]
  exact Pointwise.of_map fun c _ => hsends c

theorem of_conns {t t' : Transport} (hlimits : t'.limits = t.limits)
    (hconns : t'.conns = t.conns) : Sends t t' := by
  refine ⟨hlimits, ?_⟩
  rw [hconns]
  exact List.forall₂_refl _

end Sends

theorem sendsWithin_publishRecipient {t : Transport} {env : FlushEnv}
    (hsized : ∀ connId, (env.conn connId).codec.Sized)
    (hudp : t.limits.maxUdpPayloadSize ≤ 1500) (hobject : 0 < object.size)
    (inFlush : Bool) (c : Conn) :
    SendsWithin c (t.publishRecipient env object (t.objectSymbolSize object)
      (t.objectDataSymbols object) inFlush c).1 := by
  unfold publishRecipient
  split
  · exact .refl c
  next heligible =>
  split
  · exact .refl c
  split
  · exact .refl c
  next hfits =>
  have hready : c.protocolReady = true := by
    unfold recipientEligible at heligible
    simp_all
  obtain ⟨cursor, packets, hattempt, hformed⟩ := publishDatagramToConn_wellFormed
    (hsized c.id) c object (trackProfile object.trackId) (cuts_objectGeometry hudp hobject)
  have hsends : SendsWithin c
      { c with roundRobinPath := cursor, datagrams := c.datagrams ++ packets } :=
    { SendsWithin.refl c with
      id := rfl
      datagrams := ⟨packets, rfl, fun packet hpacket => ⟨hready, Conn.datagramValid_iff.mpr
        ⟨(hformed packet hpacket).1, by rw [(hformed packet hpacket).2]; omega⟩⟩⟩ }
  rw [← hattempt] at hsends
  split
  · next hresult =>
      rw [hresult] at hsends
      exact { hsends with id := hsends.id }
  · next hresult =>
      rw [hresult] at hsends
      exact hsends

theorem sendsWithin_openTrackStream (env : ConnEnv) (c : Conn) (track : TrackId) :
    SendsWithin c (openTrackStream env c track).1 := by
  unfold openTrackStream
  split
  · exact .refl c
  split
  · exact .refl c
  split
  · exact { SendsWithin.refl c with id := rfl }
  · exact { SendsWithin.refl c with id := rfl }

theorem sendsWithin_writeObjectFrame (c : Conn)
    (hfits : object.size ≤ c.negotiatedLimits.maxReliableObjectSize) :
    SendsWithin c (writeObjectFrame c object) := by
  unfold writeObjectFrame
  split
  · refine { SendsWithin.refl c with id := rfl, streams := ⟨_, rfl, fun frame hframe => ?_⟩ }
    obtain rfl := List.mem_singleton.mp hframe
    exact hfits
  · refine { SendsWithin.refl c with id := rfl, control := ⟨_, rfl, fun frame hframe => ?_⟩ }
    obtain rfl := List.mem_singleton.mp hframe
    intro payload hpayload
    obtain rfl := ControlFrame.unicast.inj hpayload
    exact hfits

/-- The preflight only opens streams, and passes no recipient the object is too
large for. -/
theorem sends_reliablePreflight (t : Transport) (env : FlushEnv) (object : MoqObject)
    (conns : List Conn) (eligible : Nat) :
    List.Forall₂ SendsWithin conns (t.reliablePreflight env object conns eligible).1 ∧
      ((t.reliablePreflight env object conns eligible).2.1 = none →
        ∀ c ∈ (t.reliablePreflight env object conns eligible).1,
          t.recipientEligible c object.trackId = true →
            object.size ≤ c.negotiatedLimits.maxReliableObjectSize) := by
  have hrefl : ∀ conns, List.Forall₂ SendsWithin conns conns := List.forall₂_refl
  induction conns generalizing eligible with
  | nil => exact ⟨.nil, fun _ c hc => absurd hc List.not_mem_nil⟩
  | cons c rest ih =>
      have hopened := sendsWithin_openTrackStream (env.conn c.id) c object.trackId
      simp only [reliablePreflight]
      split
      · next hineligible =>
          obtain ⟨hsends, hfits⟩ := ih eligible
          refine ⟨.cons (.refl c) hsends, fun hpassed => ?_⟩
          refine List.forall_mem_cons.mpr ⟨fun heligible => ?_, hfits hpassed⟩
          simp [heligible] at hineligible
      split
      · exact ⟨.cons (.refl c) (hrefl rest), fun hpassed => by simp at hpassed⟩
      next hsize =>
      split
      · next hopen =>
          rw [hopen] at hopened
          exact ⟨.cons hopened (hrefl rest), fun hpassed => by simp at hpassed⟩
      · next hopen =>
          rw [hopen] at hopened
          split
          · exact ⟨.cons hopened (hrefl rest), fun hpassed => by simp at hpassed⟩
          · obtain ⟨hsends, hfits⟩ := ih (eligible + 1)
            refine ⟨.cons hopened hsends, fun hpassed => ?_⟩
            refine List.forall_mem_cons.mpr ⟨fun _ => ?_, hfits hpassed⟩
            rw [hopened.negotiatedLimits]
            omega

theorem sends_reliableWrite (t : Transport) (env : FlushEnv) (object : MoqObject)
    {conns : List Conn} (hfits : ∀ c ∈ conns, t.recipientEligible c object.trackId = true →
      object.size ≤ c.negotiatedLimits.maxReliableObjectSize) (delivered : Nat) :
    List.Forall₂ SendsWithin conns (t.reliableWrite env object conns delivered).1 := by
  have hrefl : ∀ conns, List.Forall₂ SendsWithin conns conns := List.forall₂_refl
  induction conns generalizing delivered with
  | nil => exact .nil
  | cons c rest ih =>
      obtain ⟨hhere, hrest⟩ := List.forall_mem_cons.mp hfits
      simp only [reliableWrite]
      split
      · exact .cons (.refl c) (ih hrest _)
      next heligible =>
      have hwritten := sendsWithin_writeObjectFrame c (hhere (by simpa using heligible))
      split
      · exact .cons (.refl c) (hrefl rest)
      · exact .cons (hwritten.trans (sendsWithin_quiclyClose _ _ _)) (hrefl rest)
      · exact .cons hwritten (ih hrest _)

theorem sends_publishReliable (t : Transport) (env : FlushEnv) (object : MoqObject) :
    Sends t (t.publishReliable env object).1 := by
  obtain ⟨hchecked, hfits⟩ := sends_reliablePreflight t env object t.conns 0
  unfold publishReliable
  split
  · exact .refl t
  split
  · next hpreflight =>
      rw [hpreflight] at hchecked
      exact ⟨rfl, hchecked⟩
  · next conns eligible hpreflight =>
      rw [hpreflight] at hchecked hfits
      have hboth : List.Forall₂ SendsWithin t.conns
          (t.reliableWrite env object conns 0).1 :=
        Pointwise.comp (fun _ _ _ hbefore hafter => hbefore.trans hafter) hchecked
          (sends_reliableWrite t env object (hfits rfl) 0)
      split
      · next hwrite =>
          rw [hwrite] at hboth
          exact ⟨rfl, hboth⟩
      · next hwrite =>
          rw [hwrite] at hboth
          exact ⟨rfl, hboth⟩

theorem sends_publishDatagrams {t : Transport} {env : FlushEnv}
    (hsized : ∀ connId, (env.conn connId).codec.Sized)
    (hudp : t.limits.maxUdpPayloadSize ≤ 1500) (object : MoqObject) (inFlush : Bool) :
    Sends t (t.publishDatagrams env object inFlush).1 := by
  unfold publishDatagrams
  split
  · exact .refl t
  next hsize =>
  extract_lets cached protectCache tally
  split
  · exact .refl t
  · refine ⟨rfl, ?_⟩
    show List.Forall₂ SendsWithin t.conns ((t.recipientTurns env object inFlush).map Prod.fst)
    unfold recipientTurns
    rw [List.map_map]
    exact Pointwise.of_map fun c _ => sendsWithin_publishRecipient hsized hudp (by omega) inFlush c

theorem sends_publishUngrouped {t : Transport} {env : FlushEnv}
    (hsized : ∀ connId, (env.conn connId).codec.Sized)
    (hudp : t.limits.maxUdpPayloadSize ≤ 1500) (object : MoqObject) (inFlush : Bool) :
    Sends t (t.publishUngrouped env object inFlush).1 := by
  unfold publishUngrouped
  split
  · exact .refl t
  split
  · exact sends_publishReliable t env object
  · exact sends_publishDatagrams hsized hudp object inFlush

/-! ### Groups -/

theorem sends_createFecTrackState {t slotted : Transport}
    (hslot : t.createFecTrackState track = some (slotted, state)) :
    Sends t slotted.attempting := by
  cases createFecTrackState_cases hslot with
  | inl hfound =>
      obtain ⟨rfl, _⟩ := hfound
      exact .of_conns rfl rfl
  | inr hfresh =>
      obtain ⟨_, _, _, rfl⟩ := hfresh
      exact .of_conns rfl rfl

theorem sends_commitGroup (t : Transport) (state : FecTrackState) (object : MoqObject) :
    Sends t (t.commitGroup state object) := by
  simp only [commitGroup]
  split
  · exact .of_map rfl rfl (sendsWithin_emitCheckpointTo _ _ _ _ _)
  · exact .of_conns rfl rfl

theorem sends_announceEnd (t : Transport) (track : TrackId) (state : FecTrackState) :
    Sends t (t.announceEnd track state).1 := by
  refine .of_map ?_ ?_ (sendsWithin_finishTrackTo t track (state.nextObjectId - 1))
  · simp [announceEnd, setFecTrackState]
  · simp [announceEnd, setFecTrackState]

theorem sends_beginGroup (t : Transport) (object : MoqObject) :
    Sends t (t.beginGroup object) := by
  unfold beginGroup
  split
  · exact .of_map rfl rfl fun c => { SendsWithin.refl c with id := rfl }
  · exact .refl t

theorem sends_appendRecord {t t' : Transport}
    (happend : t.appendRecord grows object = some t') : Sends t t' := by
  simp only [appendRecord] at happend
  split at happend
  · simp at happend
  · obtain rfl := Option.some.inj happend
    exact .of_conns rfl rfl

theorem sends_flushed {t : Transport} {env : FlushEnv} (hsized : env.CodecsSized)
    (hudp : t.limits.maxUdpPayloadSize ≤ 1500) (hflushed : Flushed t env t' result) :
    Sends t t' := by
  have hattempted : ∀ {slotted attempted : Transport} {state : FecTrackState}
      {outcome : PublishResult},
      t.createFecTrackState t.fecTrackId = some (slotted, state) →
      slotted.attempting.publishUngrouped env (slotted.groupObject state) true =
        (attempted, outcome) → Sends t attempted := by
    intro slotted attempted state outcome hslot hattempt
    have hslotted := sends_createFecTrackState hslot
    have hsends := sends_publishUngrouped hsized (t := slotted.attempting)
      (by rw [hslotted.limits]; exact hudp) (slotted.groupObject state) true
    rw [hattempt] at hsends
    exact hslotted.trans hsends
  cases hflushed with
  | empty hempty => exact .refl _
  | noSlot hbuffer hslot => exact .refl _
  | failed hbuffer hslot hattempt hdelivered hnobody => exact hattempted hslot hattempt
  | committed hbuffer hslot hattempt hresult =>
      exact (hattempted hslot hattempt).trans (sends_commitGroup _ _ _)

theorem sends_room {t s : Transport} {env : FlushEnv} (hsized : env.CodecsSized)
    (hudp : t.limits.maxUdpPayloadSize ≤ 1500) (hroom : Room t env object limit s) :
    Sends t s := by
  cases hroom with
  | here hforeign hfull => exact .refl t
  | emptied hdue hflush =>
      have hflushed := flushed t env
      rw [hflush] at hflushed
      exact sends_flushed hsized hudp hflushed

theorem sends_stageRecord {t : Transport} {env : PublishEnv} (hsized : env.CodecsSized)
    (hudp : t.limits.maxUdpPayloadSize ≤ 1500) (object : MoqObject) :
    Sends t (t.stageRecord env object).1 := by
  have hstaged := staged t env object
  revert hstaged
  generalize (t.stageRecord env object).1 = t'
  generalize (t.stageRecord env object).2 = refused
  intro hstaged
  cases hstaged with
  | refused hdue hflush hresult =>
      have hflushed := flushed t env.before
      rw [hflush] at hflushed
      exact sends_flushed hsized.before hudp hflushed
  | unallocated hroom happend =>
      exact (sends_room hsized.before hudp hroom).trans (sends_beginGroup _ object)
  | appended hroom happend =>
      exact ((sends_room hsized.before hudp hroom).trans (sends_beginGroup _ object)).trans
        (sends_appendRecord happend)

theorem sends_publish {t : Transport} {env : PublishEnv} (hsized : env.CodecsSized)
    (hudp : t.limits.maxUdpPayloadSize ≤ 1500) (object : MoqObject) :
    Sends t (t.publish env object).1 := by
  have hstaged := sends_stageRecord hsized hudp object
  have hcases := published_cases t env object
  revert hcases
  generalize (t.publish env object).1 = t'
  generalize (t.publish env object).2 = result
  intro hcases
  cases hcases with
  | refused hinvalid => exact .refl t
  | direct hconflict hgroups hattempt =>
      have hsends := sends_publishUngrouped hsized.direct hudp object false
      rwa [hattempt] at hsends
  | oversized hgroups => exact .refl t
  | unstaged hgroups hstage => rwa [hstage] at hstaged
  | buffered hgroups hsize hstage => rwa [hstage] at hstaged
  | @completed s _ _ hgroups hsize hstage hcomplete hflush =>
      rw [hstage] at hstaged
      have hflushed := flushed s env.after
      rw [hflush] at hflushed
      exact hstaged.trans
        (sends_flushed hsized.after (by rw [hstaged.limits]; exact hudp) hflushed)

theorem sends_finishTrack {t : Transport} {env : FlushEnv} (hsized : env.CodecsSized)
    (hudp : t.limits.maxUdpPayloadSize ≤ 1500) (track : TrackId) :
    Sends t (t.finishTrack env track).1 := by
  have hsettled : ∀ s, Settled t env track s → Sends t s := by
    intro s hsettled
    cases hsettled with
    | here hother => exact .refl t
    | flushed hpending hflush =>
        have hflushed := flushed t env
        rw [hflush] at hflushed
        exact sends_flushed hsized hudp hflushed
  have hfinished := finished t env track
  revert hfinished
  generalize (t.finishTrack env track).1 = t'
  intro hfinished
  cases hfinished with
  | refused => exact .refl t
  | unflushed hpending hflush hresult =>
      have hflushed := flushed t env
      rw [hflush] at hflushed
      exact sends_flushed hsized hudp hflushed
  | unused hunused => exact hsettled _ hunused
  | announced hrateless hannounced hfound hobjects =>
      exact (hsettled _ hannounced).trans (sends_announceEnd _ _ _)

/-! ### What the peer admits -/

end Transport

def Conn.appendUnicast (c : Conn) (payload : Bytes) : Conn :=
  { c with control := c.control ++ [⟨unresolvedTrack, 0, .unicast payload⟩] }

namespace Transport

/-- `transport_send_unicast`; `streamSends` is whether the control stream is open for
sending. -/
def sendUnicast (t : Transport) (connId : Nat) (streamSends : Bool) (write : StreamWrite)
    (payload : Bytes) : Transport × Bool :=
  if t.limits.maxReliableObjectSize < payload.length then
    (t, false)
  else
    match Keyed.lookup Conn.id connId t.conns with
    | none => (t, false)
    | some c =>
        if !c.protocolReady || !streamSends || c.closed.isSome then
          (t, false)
        else
          match write with
          | .refused => (t, false)
          | .broken =>
              (t.setConn ((c.appendUnicast payload).quiclyClose .resourceLimit
                "reliable control queue exhausted"), false)
          | .written => (t.setConn (c.appendUnicast payload), true)

/-- The calls of an application that give a connection something to send. -/
inductive Send where
  | unicast (connId : Nat) (streamSends : Bool) (write : StreamWrite) (payload : Bytes)
  | publish (env : PublishEnv) (object : MoqObject)
  | flush (env : FlushEnv)
  | finish (env : FlushEnv) (track : TrackId)

def Send.CodecsSized : Send → Prop
  | .unicast _ _ _ _ => True
  | .publish env _ => env.CodecsSized
  | .flush env => env.CodecsSized
  | .finish env _ => env.CodecsSized

/-- The transport behind the call, and whether the call accepted what it was given.
A publication that fails may have been sent in part. -/
def send (t : Transport) : Send → Transport × Bool
  | .unicast connId streamSends write payload => t.sendUnicast connId streamSends write payload
  | .publish env object => ((t.publish env object).1, true)
  | .flush env => ((t.flushGrouped env).1, true)
  | .finish env track => ((t.finishTrack env track).1, true)

end Transport

/-- What the connection has been given meanwhile passes the size checks of the
peer's end `d`. -/
structure Conn.AdmitsFrom (d c c' : Conn) : Prop where
  datagrams : ∃ packets, c'.datagrams = c.datagrams ++ packets ∧ ∀ packet ∈ packets,
    d.datagramValid packet.message = true
  streams : ∃ frames, c'.streams = c.streams ++ frames ∧ ∀ frame ∈ frames,
    frame.2.message.payload.length ≤ d.negotiatedLimits.maxReliableObjectSize
  control : ∃ frames, c'.control = c.control ++ frames ∧ ∀ frame ∈ frames, ∀ payload,
    frame.message = .unicast payload →
      payload.length ≤ d.negotiatedLimits.maxReliableObjectSize

theorem Conn.SendsWithin.admitsFrom {own peer : ConfiguredLimits} (hown : own.Resolved)
    (hpeer : peer.Resolved) {c c' d : Conn}
    (hhere : Negotiated own.toTransportLimits peer.toTransportLimits c)
    (hthere : Negotiated peer.toTransportLimits own.toTransportLimits d)
    (hsends : SendsWithin c c') : d.AdmitsFrom c c' := by
  obtain ⟨hreliable, hfec, _, _⟩ := negotiated_agree hown hpeer hhere hthere
  obtain ⟨packets, hpackets, hvalid⟩ := hsends.datagrams
  refine ⟨⟨packets, hpackets, fun packet hpacket => ?_⟩, ?_, ?_⟩
  · obtain ⟨hformed, hlimit⟩ := datagramValid_iff.mp (hvalid packet hpacket).2
    exact datagramValid_iff.mpr ⟨hformed, by rw [← hfec]; exact hlimit⟩
  · rw [← hreliable]
    exact hsends.streams
  · rw [← hreliable]
    exact hsends.control

namespace Transport

/-- What the call gives the connection passes the size checks of the peer's end, if the
call accepts it. -/
def AdmittedBy (t : Transport) (d : Conn) (connId : Nat) (call : Send) : Prop :=
  (t.send call).2 = true → ∀ c, Keyed.lookup Conn.id connId t.conns = some c →
    ∃ c', Keyed.lookup Conn.id connId (t.send call).1.conns = some c' ∧ d.AdmitsFrom c c'

/-- A unicast payload that `c` can send is within the peer's own limit. -/
def Send.FitsPeer (own peer : TransportLimits) (c : Conn) : Send → Prop
  | .unicast connId streamSends write payload =>
      connId = c.id → payload.length ≤ own.maxReliableObjectSize → c.protocolReady = true →
        streamSends = true → c.closed = none → write = .written →
        payload.length ≤ peer.maxReliableObjectSize
  | _ => True

/-- An accepted unicast is appended to the control stream it is for. -/
theorem sendUnicast_accepted {t : Transport}
    (haccepted : (t.sendUnicast connId streamSends write payload).2 = true) :
    payload.length ≤ t.limits.maxReliableObjectSize ∧ ∃ c,
      Keyed.lookup Conn.id connId t.conns = some c ∧ c.protocolReady = true ∧
        streamSends = true ∧ c.closed = none ∧ write = .written ∧
        (t.sendUnicast connId streamSends write payload).1 =
          t.setConn (c.appendUnicast payload) := by
  unfold sendUnicast at haccepted ⊢
  split at haccepted
  · simp at haccepted
  next hsize =>
  rw [if_neg hsize]
  split at haccepted
  · simp at haccepted
  next c hlookup =>
  split at haccepted
  · simp at haccepted
  next hready =>
  cases write with
  | refused => simp at haccepted
  | broken => simp at haccepted
  | written =>
      simp only [Bool.or_eq_true, not_or, Bool.not_eq_true, Bool.not_eq_false',
        Option.isSome_eq_false_iff, Option.isNone_iff_eq_none] at hready
      refine ⟨not_lt.mp hsize, c, hlookup, hready.1.1, hready.1.2, hready.2, rfl, ?_⟩
      simp [hready]

theorem sendUnicast_accepts {t : Transport} {c : Conn}
    (hlookup : Keyed.lookup Conn.id connId t.conns = some c)
    (hsize : payload.length ≤ t.limits.maxReliableObjectSize)
    (hready : c.protocolReady = true) (hopen : c.closed = none) :
    (t.sendUnicast connId true .written payload).2 = true := by
  unfold sendUnicast
  rw [if_neg (by omega)]
  simp [hlookup, hready, hopen]

section Negotiated

variable {own peer : ConfiguredLimits} {t : Transport} {connId : Nat} {c d : Conn}

theorem admittedBy_of_sends (hown : own.Resolved) (hpeer : peer.Resolved)
    (hlookup : Keyed.lookup Conn.id connId t.conns = some c)
    (hhere : Negotiated own.toTransportLimits peer.toTransportLimits c)
    (hthere : Negotiated peer.toTransportLimits own.toTransportLimits d)
    (hsends : Sends t (t.send call).1) : t.AdmittedBy d connId call := by
  intro _ other hother
  obtain rfl := Option.some.inj (hother.symm.trans hlookup)
  obtain ⟨c', hc', hwithin⟩ := Keyed.exists_lookup (fun _ _ hwithin => hwithin.id)
    hsends.conns hlookup
  exact ⟨c', hc', hwithin.admitsFrom hown hpeer hhere hthere⟩

theorem unicast_admitted_iff (hown : own.Resolved)
    (hlimits : t.limits = own.toTransportLimits)
    (hlookup : Keyed.lookup Conn.id connId t.conns = some c)
    (hthere : Negotiated peer.toTransportLimits own.toTransportLimits d)
    (receiver : Nat) (streamSends : Bool) (write : StreamWrite) (payload : Bytes) :
    t.AdmittedBy d connId (.unicast receiver streamSends write payload) ↔
      Send.FitsPeer own.toTransportLimits peer.toTransportLimits c
        (.unicast receiver streamSends write payload) := by
  have hid : c.id = connId := (Keyed.mem_of_lookup hlookup).2
  have hbound : d.negotiatedLimits.maxReliableObjectSize =
      min peer.maxReliableObjectSize own.maxReliableObjectSize := by
    rw [hthere.limits, localHello_of_resolved hown]
    rfl
  constructor
  · intro hadmitted hreceiver hsize hready hsends hopen hwrite
    subst hreceiver hsends hwrite
    rw [hid] at hadmitted
    have hfits : payload.length ≤ t.limits.maxReliableObjectSize := by
      rw [hlimits]
      exact hsize
    have haccepted := sendUnicast_accepts hlookup hfits hready hopen
    obtain ⟨_, sender, hsender, _, _, _, _, hresult⟩ := sendUnicast_accepted haccepted
    obtain rfl := Option.some.inj (hsender.symm.trans hlookup)
    obtain ⟨c', hc', hadmits⟩ := hadmitted haccepted sender hlookup
    simp only [send, hresult] at hc'
    have hsenderId : (sender.appendUnicast payload).id = connId := hid
    rw [lookup_setConn, hsenderId, if_pos rfl, hlookup] at hc'
    obtain rfl := Option.some.inj hc'
    obtain ⟨frames, hframes, hfits⟩ := hadmits.control
    obtain rfl := List.append_cancel_left hframes
    have hlength := hfits _ (List.mem_singleton_self _) payload rfl
    omega
  · intro hfits haccepted other hother
    obtain rfl := Option.some.inj (hother.symm.trans hlookup)
    obtain ⟨hsize, sender, hsender, hready, hsends, hopen, hwrite, hresult⟩ :=
      sendUnicast_accepted haccepted
    have hsenderId : (sender.appendUnicast payload).id = receiver :=
      (Keyed.mem_of_lookup hsender).2
    simp only [send, hresult]
    rw [lookup_setConn, hsenderId]
    by_cases hreceiver : connId = receiver
    · subst hreceiver
      obtain rfl := Option.some.inj (hsender.symm.trans hlookup)
      rw [if_pos rfl, hlookup]
      refine ⟨_, rfl, ⟨[], (List.append_nil _).symm, by simp⟩,
        ⟨[], (List.append_nil _).symm, by simp⟩, ⟨_, rfl, fun frame hframe => ?_⟩⟩
      obtain rfl := List.mem_singleton.mp hframe
      intro given hgiven
      obtain rfl := ControlFrame.unicast.inj hgiven
      rw [hlimits] at hsize
      have hpeer := hfits hid.symm hsize hready hsends hopen hwrite
      omega
    · rw [if_neg hreceiver]
      exact ⟨other, hlookup, ⟨[], by simp⟩, ⟨[], by simp⟩, ⟨[], by simp⟩⟩

/-- An endpoint accepts nothing that its peer refuses for its size, but for unicast
payloads: these are held against its own limit alone. -/
theorem accepted_admitted_iff (hown : own.Resolved) (hpeer : peer.Resolved)
    (hlimits : t.limits = own.toTransportLimits)
    (hlookup : Keyed.lookup Conn.id connId t.conns = some c)
    (hhere : Negotiated own.toTransportLimits peer.toTransportLimits c)
    (hthere : Negotiated peer.toTransportLimits own.toTransportLimits d) (call : Send)
    (hsized : call.CodecsSized) :
    t.AdmittedBy d connId call ↔
      call.FitsPeer own.toTransportLimits peer.toTransportLimits c := by
  have hudp : t.limits.maxUdpPayloadSize ≤ 1500 := by
    rw [hlimits]
    exact hown.udp_le
  have hadmitted : Sends t (t.send call).1 → t.AdmittedBy d connId call :=
    admittedBy_of_sends hown hpeer hlookup hhere hthere
  cases call with
  | unicast receiver streamSends write payload =>
      exact unicast_admitted_iff hown hlimits hlookup hthere receiver streamSends write payload
  | publish env object =>
      exact iff_of_true (hadmitted (sends_publish hsized hudp object)) trivial
  | flush env =>
      exact iff_of_true (hadmitted (sends_flushed hsized hudp (flushed t env))) trivial
  | finish env track =>
      exact iff_of_true (hadmitted (sends_finishTrack hsized hudp track)) trivial

end Negotiated

/-! An endpoint with default limits and a peer that takes short objects only. -/

def greetedConn (own peer : ConfiguredLimits) : Conn :=
  (Conn.init 0 own.toTransportLimits).receiveHello own.toTransportLimits
    (localHello peer.toTransportLimits)

/-- An endpoint that accepted a connection and the HELLO on it. -/
def greeted (own peer : ConfiguredLimits) : Transport :=
  (init true own.toTransportLimits own.maxRecoveryCacheBytes).run
    [.connect, .hello 0 (localHello peer.toTransportLimits)]

theorem unicast_admitted_short :
    (greeted defaultResolved shortResolved).AdmittedBy
        (greetedConn shortResolved defaultResolved) 0
        (.unicast 0 true .written (List.replicate 16 7)) ↔
      Send.FitsPeer defaultResolved.toTransportLimits shortResolved.toTransportLimits
        (greetedConn defaultResolved shortResolved)
        (.unicast 0 true .written (List.replicate 16 7)) :=
  accepted_admitted_iff resolved_default resolved_short rfl rfl ⟨rfl⟩ ⟨rfl⟩
    (.unicast 0 true .written (List.replicate 16 7)) trivial

/-- A unicast within the sender's limit is accepted and closes the peer's connection. -/
theorem long_unicast_closes :
    defaultConfiguration.resolve = .ok defaultResolved ∧
      shortConfiguration.resolve = .ok shortResolved ∧
      ((greeted defaultResolved shortResolved).sendUnicast 0 true .written
        (List.replicate 17 7)).2 = true ∧
      ((greeted shortResolved defaultResolved).receiveControlFrame quietRepair 0
        (.unicast (List.replicate 17 7))).conns.map Conn.closed =
          [some ⟨.resourceLimit, "protocol error: payload too large"⟩] := by
  decide +kernel

end Transport

end Qlinq
