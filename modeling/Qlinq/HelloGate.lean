import Qlinq.Advance
import Qlinq.FrameStream

namespace Qlinq

/-! Nothing of a peer takes effect before its HELLO and its authentication. -/

open Conn (Advances Ingress)
open Transport (Advance advance_setConn advance_updateConn)

namespace Endpoint

variable {e e' : Endpoint}

/-! ### Frames but HELLO -/

theorem progress_protocolError (e : Endpoint) (connId : Nat) (reason : String) :
    Progress e (e.protocolError connId reason).1 :=
  progress_close e connId _ reason

theorem progress_unauthorized (e : Endpoint) (connId : Nat) :
    Progress e (e.unauthorized connId).1 :=
  progress_close e connId _ _

/-- A frame reaches its handler behind the open gate. -/
theorem progress_recorded {c : Conn} {t : Transport} (hlookup : e.conn? connId = some c)
    (hgate : c.gateOpen = true) (frame : ControlFrame) (hadvance : Advance e.transport t) :
    Progress e ((e.record connId frame).setTransport t) := by
  have hrecorded : Progress e (e.record connId frame) := progress_record hlookup hgate frame
  have hadvance : Advance (e.record connId frame).transport t := hadvance
  exact hrecorded.trans (progress_setTransport hadvance)

section Open

variable {c : Conn} (hlookup : e.conn? c.id = some c) (hready : c.protocolReady = true)

include hlookup hready

theorem progress_receiveTrackFrame (env : IngressEnv) (frame : WireFrame) :
    Progress e (e.receiveTrackFrame env c frame).1 := by
  unfold receiveTrackFrame
  split
  · exact progress_protocolError e c.id _
  split
  · exact progress_unauthorized e c.id
  next hauthenticated =>
  have hgate : c.gateOpen = true := by
    simpa [Conn.gateOpen, hready] using hauthenticated
  split
  · exact progress_protocolError e c.id _
  next wire _ _ track _ =>
  simp only
  split
  · have hreceived := progress_recorded hlookup hgate (.subscribe wire.trackAlias track)
      (Transport.advance_receiveSubscribe hlookup hgate wire.trackAlias track)
    split
    · exact hreceived
    · exact hreceived.trans (progress_notify _ env _)
  split
  · have hreceived := progress_recorded hlookup hgate (.unsubscribe wire.trackAlias track)
      (Transport.advance_receiveUnsubscribe hlookup hgate wire.trackAlias track)
    exact hreceived.trans (progress_notify _ env _)
  · have hemitted : Advance e.transport
        (e.transport.setConn (c.emit (.keyframeRequest track))) :=
      Transport.advance_setLasting hlookup hgate rfl
    exact (progress_recorded hlookup hgate _ hemitted).trans (progress_notify _ env _)

theorem progress_receiveUnicast (env : IngressEnv) (payload : Bytes) :
    Progress e (e.receiveUnicast env c payload).1 := by
  unfold receiveUnicast
  split
  · exact progress_close e c.id _ _
  split
  · exact progress_unauthorized e c.id
  next hauthenticated =>
  have hgate : c.gateOpen = true := by
    simpa [Conn.gateOpen, hready] using hauthenticated
  have hemitted : Advance e.transport (e.transport.setConn (c.emit (unicastEvent payload))) :=
    Transport.advance_setLasting hlookup hgate rfl
  exact (progress_recorded hlookup hgate _ hemitted).trans (progress_notify _ env _)

theorem progress_receiveAuthResponse (env : IngressEnv) (payload : Bytes) :
    Progress e (e.receiveAuthResponse env c payload).1 := by
  unfold receiveAuthResponse
  split
  · exact progress_protocolError e c.id _
  split
  · exact progress_protocolError e c.id _
  have hauthenticated : Advances c { c with authenticated := true } :=
    { id_eq := rfl
      helloReceived_eq := rfl
      protocolReady_eq := rfl
      authenticated := fun _ => rfl
      authorized := fun _ => Or.inr hready
      barred := fun hgate => by simp [Conn.gateOpen, hready] at hgate }
  simp only
  split
  · have hset : Progress e (e.setConn { c with authenticated := true }) :=
      progress_setConn hlookup hauthenticated
    exact hset.trans (progress_notify _ env _)
  · exact progress_notify e env _

theorem progress_receiveNack (env : IngressEnv) (payload : Bytes) :
    Progress e (e.receiveNack env c payload).1 := by
  unfold receiveNack
  split
  · exact progress_protocolError e c.id _
  split
  · exact progress_unauthorized e c.id
  next nack _ hauthenticated =>
  have hgate : c.gateOpen = true := by
    simpa [Conn.gateOpen, hready] using hauthenticated
  exact progress_recorded hlookup hgate (.nack nack)
    (Transport.advance_receiveNack hlookup env.repair nack)

theorem progress_receiveTrackCheckpoint (payload : Bytes) :
    Progress e (e.receiveTrackCheckpoint c payload).1 := by
  unfold receiveTrackCheckpoint
  split
  · exact progress_protocolError e c.id _
  split
  · exact progress_protocolError e c.id _
  next wire _ hauthenticated =>
  have hgate : c.gateOpen = true := by
    simpa [Conn.gateOpen, hready] using hauthenticated
  have hsame := Conn.frame_sendSide.receiveTrackCheckpoint c wire.message
  exact progress_recorded hlookup hgate _
    (advance_setConn hlookup (.of_sendSide hgate hsame))

theorem progress_receiveTrackCheckpointAck (payload : Bytes) :
    Progress e (e.receiveTrackCheckpointAck c payload).1 := by
  unfold receiveTrackCheckpointAck
  split
  · exact progress_protocolError e c.id _
  split
  · exact progress_protocolError e c.id _
  next wire _ hauthenticated =>
  have hgate : c.gateOpen = true := by
    simpa [Conn.gateOpen, hready] using hauthenticated
  exact progress_recorded hlookup hgate _
    (Transport.advance_receiveCheckpointAck hlookup hgate wire.message)

theorem progress_receiveTrackEnd (payload : Bytes) :
    Progress e (e.receiveTrackEnd c payload).1 := by
  unfold receiveTrackEnd
  split
  · exact progress_protocolError e c.id _
  split
  · exact progress_protocolError e c.id _
  next wire _ hauthenticated =>
  have hgate : c.gateOpen = true := by
    simpa [Conn.gateOpen, hready] using hauthenticated
  have hsame := Conn.frame_sendSide.receiveTrackEnd c wire.message
  exact progress_recorded hlookup hgate _
    (advance_setConn hlookup (.of_sendSide hgate hsame))

end Open

theorem progress_receiveAuthRequest (e : Endpoint) (env : IngressEnv) (c : Conn)
    (token : Bytes) : Progress e (e.receiveAuthRequest env c token).1 := by
  unfold receiveAuthRequest
  split
  · exact progress_close e c.id _ _
  split
  · exact progress_protocolError e c.id _
  · exact progress_notify e env _

theorem progress_counted (e : Endpoint) (connId : Nat) :
    Progress e (e.updateLink connId fun l =>
      { l with framesReceived := l.framesReceived + 1 }) :=
  progress_updateLink ⟨rfl, Nat.le_succ _, rfl⟩ (Or.inl rfl)

theorem progress_receiveFrame {frame : WireFrame} (env : IngressEnv)
    (htype : frame.type ≠ wireHello)
    (hready : ∀ c, e.conn? connId = some c → c.helloReceived = true →
      c.protocolReady = true) :
    Progress e (receiveFrame env connId e frame).1 := by
  unfold receiveFrame
  split
  · exact .refl e
  next c hlookup =>
  have hcounted := progress_counted e connId
  extract_lets counted
  have hfound : counted.conn? c.id = some c := by
    rw [id_of_conn? hlookup]
    exact hlookup
  refine hcounted.trans ?_
  split
  · exact progress_protocolError counted connId _
  next hpast =>
  have hprotocol : c.protocolReady = true := by
    apply hready c hlookup
    simpa [htype] using hpast
  split
  · exact progress_receiveTrackFrame hfound hprotocol env frame
  split
  · exact progress_receiveUnicast hfound hprotocol env _
  split
  · exact progress_receiveAuthRequest counted env c _
  split
  · exact progress_receiveAuthResponse hfound hprotocol env _
  split
  · exact progress_protocolError counted connId _
  split
  · exact progress_receiveNack hfound hprotocol env _
  split
  · exact progress_receiveTrackCheckpoint hfound hprotocol _
  split
  · exact progress_receiveTrackCheckpointAck hfound hprotocol _
  split
  · exact progress_receiveTrackEnd hfound hprotocol _
  · exact progress_protocolError counted connId _

/-! ### Track streams and datagrams -/

theorem progress_setReceived {c c' : Conn} (hlookup : e.conn? connId = some c)
    (hgate : c.gateOpen = true) (hsame : c'.sendSide = c.sendSide) :
    Progress e (e.setConn c') :=
  progress_setConn hlookup (.of_sendSide hgate hsame)

theorem progress_receiveTrackStreamFrame {frame : WireFrame} (env : IngressEnv)
    (stream : Nat)
    (hready : ∀ c, e.conn? connId = some c → c.authenticated = true →
      c.protocolReady = true) :
    Progress e (receiveTrackStreamFrame env connId stream e frame).1 := by
  unfold receiveTrackStreamFrame
  split
  · exact .refl e
  next c hlookup =>
  have hcounted := progress_counted e connId
  extract_lets counted
  have hfound : counted.conn? connId = some c := hlookup
  refine hcounted.trans ?_
  split
  · exact progress_protocolError counted connId _
  split
  · exact progress_unauthorized counted connId
  next hauthenticated =>
  have hauthenticated : c.authenticated = true := by simpa using hauthenticated
  have hgate : c.gateOpen = true := by
    simp [Conn.gateOpen, hauthenticated, hready c hlookup hauthenticated]
  split
  · exact progress_protocolError counted connId _
  next object _ =>
  have hsame := Conn.frame_sendSide.parseTrackObject c stream
    (c.receiveFrame object.trackAlias object)
  split
  · next hparsed =>
      rw [hparsed] at hsame
      exact progress_setReceived hfound hgate hsame
  · next hparsed =>
      rw [hparsed] at hsame
      exact progress_setReceived hfound hgate hsame
  · next hparsed =>
      rw [hparsed] at hsame
      have hset := progress_setReceived hfound hgate hsame
      exact hset.trans (progress_notifyNew _ env _ _)

theorem progress_receiveDatagram (env : IngressEnv) (receive : Conn.ReceiveEnv)
    (payload : Bytes)
    (hready : ∀ c, e.conn? connId = some c → c.authenticated = true →
      c.protocolReady = true) :
    Progress e (e.receiveDatagram env receive connId payload) := by
  unfold receiveDatagram
  split
  · exact .refl e
  next c hlookup =>
  split
  · exact .refl e
  next hauthenticated =>
  have hauthenticated : c.authenticated = true := by simpa using hauthenticated
  have hgate : c.gateOpen = true := by
    simp [Conn.gateOpen, hauthenticated, hready c hlookup hauthenticated]
  split
  · exact .refl e
  split
  · exact .refl e
  split
  · exact .refl e
  · extract_lets received
    have hset : Progress e (e.setConn received) :=
      progress_setReceived hlookup hgate (Conn.frame_sendSide.receiveDatagram c receive _)
    exact hset.trans (progress_notifyNew _ env _ _)

/-! ### The gate -/

/-- A HELLO that is accepted is the first frame, and the only one.  One that was taken
up without an answer stays at the head of the control stream. -/
structure Gated (limits : TransportLimits) (l : Link) (c : Conn) : Prop where
  authorized : c.authenticated = true → c.protocolReady = true
  accepted : c.protocolReady = true → c.helloReceived = true ∧ l.hellos = [1]
  pending : c.protocolReady = false → l.hellos = []
  counted : c.helloReceived = true → 1 ≤ l.framesReceived
  stuck : c.helloReceived = true → c.protocolReady = false →
    ∃ frame consumed, frameVerdict wireMaxStreamPayload l.control = .decoded frame consumed ∧
      frame.type = wireHello
  barred : c.gateOpen = false →
    c.ingress = (Conn.init c.id limits).ingress ∧ l.processed = []

structure GatedAll (limits : TransportLimits) (e : Endpoint) : Prop where
  limits_eq : e.transport.limits = limits
  fresh : ∀ connId, e.transport.nextConnId ≤ connId → e.conn? connId = none
  gated : ∀ connId c, e.conn? connId = some c → Gated limits (e.link connId) c

variable {limits : TransportLimits}

theorem gated_init (connId : Nat) (limits : TransportLimits) :
    Gated limits {} (Conn.init connId limits) where
  authorized h := by cases h
  accepted h := by cases h
  pending _ := rfl
  counted h := by cases h
  stuck h := by cases h
  barred _ := ⟨rfl, rfl⟩

theorem Gated.advances {l l' : Link} {c c' : Conn} (hgated : Gated limits l c)
    (hadvances : Advances c c') (hfollows : Follows l l')
    (hprocessed : c'.gateOpen = false → l'.processed = l.processed) : Gated limits l' c' where
  authorized := by
    intro hauthenticated
    rw [hadvances.protocolReady_eq]
    rcases hadvances.authorized hauthenticated with hbefore | hready
    · exact hgated.authorized hbefore
    · exact hready
  accepted := by
    rw [hadvances.protocolReady_eq, hadvances.helloReceived_eq, hfollows.hellos_eq]
    exact hgated.accepted
  pending := by
    rw [hadvances.protocolReady_eq, hfollows.hellos_eq]
    exact hgated.pending
  counted := by
    rw [hadvances.helloReceived_eq]
    exact fun h => le_trans (hgated.counted h) hfollows.framesReceived_le
  stuck := by
    rw [hadvances.protocolReady_eq, hadvances.helloReceived_eq, hfollows.control_eq]
    exact hgated.stuck
  barred := by
    intro hgate
    obtain ⟨hingress, hnone⟩ := hgated.barred (hadvances.closed_before hgate)
    rw [hadvances.barred hgate, hprocessed hgate, hadvances.id_eq]
    exact ⟨hingress, hnone⟩

theorem GatedAll.progress (hall : GatedAll limits e) (hprogress : Progress e e') :
    GatedAll limits e' where
  limits_eq := hprogress.frame.limits.trans hall.limits_eq
  fresh := by
    intro connId hfresh
    rw [hprogress.frame.nextConnId] at hfresh
    cases hconn : e'.conn? connId with
    | none => rfl
    | some c' =>
        obtain ⟨c, hc, _⟩ := (hprogress.at_ connId).conn c' hconn
        rw [hall.fresh connId hfresh] at hc
        cases hc
  gated := by
    intro connId c' hconn
    have hat := hprogress.at_ connId
    obtain ⟨c, hc, hadvances⟩ := hat.conn c' hconn
    exact (hall.gated connId c hc).advances hadvances hat.link (hat.processed c' hconn)

/-- A step of one connection alone. -/
theorem GatedAll.of_at (hall : GatedAll limits e) (connId : Nat) (hframe : SameFrame e e')
    (hothers : ∀ other, other ≠ connId →
      e'.conn? other = e.conn? other ∧ e'.link other = e.link other)
    (hconn : ∀ c', e'.conn? connId = some c' →
      (∃ c, e.conn? connId = some c) ∧ Gated limits (e'.link connId) c') :
    GatedAll limits e' where
  limits_eq := hframe.limits.trans hall.limits_eq
  fresh := by
    intro other hfresh
    rw [hframe.nextConnId] at hfresh
    by_cases hsame : other = connId
    · subst hsame
      cases hfound : e'.conn? other with
      | none => rfl
      | some c' =>
          obtain ⟨⟨c, hc⟩, _⟩ := hconn c' hfound
          rw [hall.fresh other hfresh] at hc
          cases hc
    · rw [(hothers other hsame).1]
      exact hall.fresh other hfresh
  gated := by
    intro other c' hfound
    by_cases hsame : other = connId
    · subst hsame
      exact (hconn c' hfound).2
    · rw [(hothers other hsame).1] at hfound
      rw [(hothers other hsame).2]
      exact hall.gated other c' hfound

theorem conn?_setConn_other {c : Conn} (hother : other ≠ c.id) :
    (e.setConn c).conn? other = e.conn? other := by
  unfold conn? setConn setTransport Transport.setConn
  rw [Keyed.lookup_adjust (fun _ _ => rfl), if_neg hother]

theorem conn?_updateConn {update : Conn → Conn} (hid : ∀ c, (update c).id = c.id)
    (connId other : Nat) : (e.updateConn connId update).conn? other =
      if other = connId then (e.conn? connId).map update else e.conn? other := by
  unfold conn? updateConn setTransport Transport.updateConn
  exact Keyed.lookup_adjust (fun c hc => (hid c).trans hc) other _

theorem GatedAll.setConn {c c' : Conn} (hall : GatedAll limits e)
    (hlookup : e.conn? connId = some c) (hid : c'.id = c.id)
    (hgated : Gated limits (e.link connId) c') : GatedAll limits (e.setConn c') := by
  refine hall.of_at connId ⟨rfl, rfl⟩ (fun other hother => ⟨?_, rfl⟩) fun found hfound => ?_
  · apply conn?_setConn_other
    rw [hid, id_of_conn? hlookup]
    exact hother
  · rw [conn?_setConn_self hlookup hid] at hfound
    obtain rfl := Option.some.inj hfound
    exact ⟨⟨c, hlookup⟩, hgated⟩

theorem GatedAll.updateLink (hall : GatedAll limits e) {update : Link → Link}
    (hgated : ∀ c, e.conn? connId = some c → Gated limits (e.link connId) c →
      Gated limits (update (e.link connId)) c) :
    GatedAll limits (e.updateLink connId update) := by
  refine hall.of_at connId ⟨rfl, rfl⟩ (fun other hother => ⟨rfl, ?_⟩) fun c hfound => ?_
  · rw [link_updateLink, if_neg hother]
  · rw [link_updateLink, if_pos rfl]
    exact ⟨⟨c, hfound⟩, hgated c hfound (hall.gated connId c hfound)⟩

/-! ### HELLO -/

theorem framesReceived_sendHello (e : Endpoint) (connId : Nat) :
    ((e.sendHello connId).1.link connId).framesReceived =
      (e.link connId).framesReceived := by
  unfold sendHello
  split
  · rfl
  split
  · rfl
  split
  · rfl
  split
  · rfl
  · simp only
    rw [link_updateLink, if_pos rfl]
    rfl

theorem conn?_ready (e : Endpoint) (connId other : Nat) (update : Link → Link) :
    ((e.updateConn connId fun c => { c with protocolReady := true }).updateLink connId
      update).conn? other =
      if other = connId then (e.conn? connId).map fun c => { c with protocolReady := true }
      else e.conn? other := by
  have hid : ∀ c : Conn, ({ c with protocolReady := true } : Conn).id = c.id := fun _ => rfl
  exact conn?_updateConn hid connId other

/-- The HELLO is answered. -/
theorem GatedAll.accept (hall : GatedAll limits e)
    (htaken : ∀ c, e.conn? connId = some c → c.helloReceived = true ∧ c.protocolReady = false)
    (hfirst : (e.link connId).framesReceived = 1) :
    GatedAll limits ((e.updateConn connId fun c => { c with protocolReady := true }).updateLink
      connId fun l => { l with hellos := l.hellos ++ [l.framesReceived] }) := by
  refine hall.of_at connId ⟨rfl, rfl⟩ (fun other hother => ⟨?_, ?_⟩) fun found hfound => ?_
  · rw [conn?_ready, if_neg hother]
  · rw [link_updateLink, if_neg hother]
    rfl
  · rw [conn?_ready, if_pos rfl] at hfound
    obtain ⟨c, hlookup, rfl⟩ := Option.map_eq_some_iff.mp hfound
    obtain ⟨hreceived, hpending⟩ := htaken c hlookup
    have hgated := hall.gated connId c hlookup
    have hlink : (e.updateConn connId fun c => { c with protocolReady := true }).link connId =
        e.link connId := rfl
    rw [link_updateLink, if_pos rfl, hlink]
    refine ⟨⟨c, hlookup⟩, ?_⟩
    exact
      { authorized := fun _ => rfl
        accepted := fun _ => ⟨hreceived, by
          simp only [hgated.pending hpending, hfirst, List.nil_append]⟩
        pending := fun h => by cases h
        counted := fun _ => hgated.counted hreceived
        stuck := fun _ h => by cases h
        barred := fun _ => hgated.barred (by simp [Conn.gateOpen, hpending]) }

/-- The answer of a control frame's handler: where the loop goes on, the connection is
past its HELLO. -/
structure Handled (limits : TransportLimits) (connId : Nat) (handled : Endpoint × Bool) :
    Prop where
  gated : GatedAll limits handled.1
  settled : handled.2 = true → ∀ c, handled.1.conn? connId = some c → c.protocolReady = true

theorem Handled.stopped (hgated : GatedAll limits e) : Handled limits connId (e, false) :=
  ⟨hgated, fun h => by cases h⟩

theorem Handled.closed (hgated : GatedAll limits e) (connId other : Nat) (reason : String) :
    Handled limits connId (e.protocolError other reason) :=
  ⟨hgated.progress (progress_protocolError e other reason), fun h => by cases h⟩

theorem handled_receiveHello {c : Conn} (hall : GatedAll limits e) (env : IngressEnv)
    (payload : Bytes) (hlookup : e.conn? c.id = some c) (hnew : c.helloReceived = false)
    (hfirst : (e.link c.id).framesReceived = 1)
    (hhead : ∃ frame consumed,
      frameVerdict wireMaxStreamPayload (e.link c.id).control = .decoded frame consumed ∧
        frame.type = wireHello) :
    Handled limits c.id (e.receiveHello env c payload) := by
  have hgated := hall.gated c.id c hlookup
  have hpending : c.protocolReady = false := by
    cases hready : c.protocolReady with
    | false => rfl
    | true => rw [(hgated.accepted hready).1] at hnew; cases hnew
  unfold receiveHello
  split
  · exact .stopped hall
  split
  · exact .stopped hall
  next hello _ =>
  generalize (if e.transport.isServer then wireRoleClient else wireRoleServer) = role
  split
  · exact .stopped hall
  extract_lets taken
  have htaken : GatedAll limits taken := by
    refine hall.setConn hlookup rfl ?_
    exact
      { authorized := hgated.authorized
        accepted := fun h => by rw [hpending] at h; cases h
        pending := hgated.pending
        counted := fun _ => le_of_eq hfirst.symm
        stuck := fun _ _ => hhead
        barred := hgated.barred }
  have htakenConn : taken.conn? c.id = some { c with
      peerCapabilities := hello.capabilities
      negotiatedLimits := Conn.negotiate e.transport.limits hello.message
      helloReceived := true } := conn?_setConn_self hlookup rfl
  have hsend := progress_sendHello taken c.id
  have hsent := htaken.progress hsend
  have hcount : ((taken.sendHello c.id).1.link c.id).framesReceived = 1 :=
    (framesReceived_sendHello taken c.id).trans hfirst
  split
  · next hfailed =>
      rw [hfailed] at hsent
      exact .stopped hsent
  · next answered hanswered =>
      rw [hanswered] at hsend hsent hcount
      extract_lets ready accepted
      have haccepted : GatedAll limits accepted := by
        refine hsent.accept (fun found hfound => ?_) hcount
        obtain ⟨before, hbefore, hadvances⟩ := (hsend.at_ c.id).conn found hfound
        rw [htakenConn] at hbefore
        obtain rfl := Option.some.inj hbefore
        exact ⟨hadvances.helloReceived_eq, hadvances.protocolReady_eq.trans hpending⟩
      have hemit := progress_maybeEmitConnected accepted env c.id
      refine ⟨haccepted.progress hemit, fun _ found hfound => ?_⟩
      obtain ⟨before, hbefore, hadvances⟩ := (hemit.at_ c.id).conn found hfound
      have hready := conn?_ready answered c.id c.id fun l =>
        { l with hellos := l.hellos ++ [l.framesReceived] }
      rw [if_pos rfl] at hready
      have hbefore := hready.symm.trans hbefore
      obtain ⟨_, _, rfl⟩ := Option.map_eq_some_iff.mp hbefore
      exact hadvances.protocolReady_eq

theorem handled_receiveFrame (hall : GatedAll limits e) (env : IngressEnv) (connId : Nat)
    {frame : WireFrame}
    (hhead : frameVerdict wireMaxStreamPayload (e.link connId).control =
      .decoded frame consumed) :
    Handled limits connId (receiveFrame env connId e frame) := by
  by_cases htype : frame.type = wireHello
  · unfold receiveFrame
    split
    · exact .stopped hall
    next c hlookup =>
    obtain rfl := id_of_conn? hlookup
    have hgated := hall.gated c.id c hlookup
    have hcounted := hall.progress (progress_counted e c.id)
    extract_lets counted
    rw [if_neg (fun h => h.1 htype), if_pos htype]
    split
    · exact .closed hcounted c.id c.id _
    next hfirst =>
    have hlink : counted.link c.id =
        { e.link c.id with framesReceived := (e.link c.id).framesReceived + 1 } :=
      (link_updateLink e c.id c.id _).trans (if_pos rfl)
    have hfirst : (counted.link c.id).framesReceived = 1 := not_not.mp hfirst
    have hnew : c.helloReceived = false := by
      cases hreceived : c.helloReceived with
      | false => rfl
      | true =>
          have hbefore := hgated.counted hreceived
          have hafter : (e.link c.id).framesReceived + 1 = 1 := by
            rw [hlink] at hfirst
            exact hfirst
          omega
    have hhead : frameVerdict wireMaxStreamPayload (counted.link c.id).control =
        .decoded frame consumed := by
      rw [hlink]
      exact hhead
    have hhandled := handled_receiveHello hcounted env frame.payload hlookup hnew hfirst
      ⟨frame, consumed, hhead, htype⟩
    split
    · next hrefused =>
        rw [hrefused] at hhandled
        exact .closed hhandled.gated c.id c.id _
    · next haccepted =>
        rw [haccepted] at hhandled
        exact hhandled
  · have hready : ∀ c, e.conn? connId = some c → c.helloReceived = true →
        c.protocolReady = true := by
      intro c hlookup hreceived
      cases hpending : c.protocolReady with
      | true => rfl
      | false =>
          obtain ⟨stuck, _, hstuck, hhello⟩ :=
            (hall.gated connId c hlookup).stuck hreceived hpending
          rw [hhead] at hstuck
          injection hstuck with hsame
          exact absurd (hsame ▸ hhello) htype
    have hprogress := progress_receiveFrame env htype hready
    refine ⟨hall.progress hprogress, fun hgoesOn c' hlookup' => ?_⟩
    obtain ⟨c, hlookup, hadvances⟩ := (hprogress.at_ connId).conn c' hlookup'
    rw [hadvances.protocolReady_eq]
    apply hready c hlookup
    cases hreceived : c.helloReceived with
    | true => rfl
    | false => simp [receiveFrame, hlookup, htype, hreceived, protocolError] at hgoesOn

/-! ### Steps -/

theorem gated_shiftControl (hall : GatedAll limits e)
    (hsettled : ∀ c, e.conn? connId = some c → c.protocolReady = true) (consumed : Nat) :
    GatedAll limits (e.shiftControl connId consumed) := by
  refine hall.updateLink fun c hlookup hgated => ?_
  exact
    { authorized := hgated.authorized
      accepted := hgated.accepted
      pending := hgated.pending
      counted := hgated.counted
      stuck := fun _ hpending => by rw [hsettled c hlookup] at hpending; cases hpending
      barred := hgated.barred }

theorem gated_controlBytes (hall : GatedAll limits e) (connId : Nat) (data : Bytes) :
    GatedAll limits (e.controlBytes connId data) := by
  refine hall.updateLink fun c hlookup hgated => ?_
  refine
    { authorized := hgated.authorized
      accepted := hgated.accepted
      pending := hgated.pending
      counted := hgated.counted
      stuck := fun hreceived hpending => ?_
      barred := hgated.barred }
  obtain ⟨frame, consumed, hhead, htype⟩ := hgated.stuck hreceived hpending
  exact ⟨frame, consumed,
    (lawful_frameVerdict wireMaxStreamPayload).decoded_append hhead data, htype⟩

theorem gated_controlRound (hall : GatedAll limits e) (env : IngressEnv) (connId : Nat) :
    GatedAll limits (controlRound env connId e).1 := by
  unfold controlRound
  split
  · exact hall
  · exact hall.progress (progress_close e connId _ _)
  next frame consumed hhead =>
  have hhandled := handled_receiveFrame hall env connId hhead
  split
  · next hstopped =>
      rw [hstopped] at hhandled
      exact hhandled.gated
  · next hgoesOn =>
      rw [hgoesOn] at hhandled
      exact gated_shiftControl hhandled.gated (hhandled.settled rfl) consumed

theorem progress_shiftTrack (e : Endpoint) (connId stream consumed : Nat) :
    Progress e (e.shiftTrack connId stream consumed) :=
  progress_updateLink ⟨rfl, le_refl _, rfl⟩ (Or.inl rfl)

theorem progress_trackBytes (e : Endpoint) (connId stream : Nat) (data : Bytes) :
    Progress e (e.trackBytes connId stream data) :=
  progress_updateLink ⟨rfl, le_refl _, rfl⟩ (Or.inl rfl)

theorem gated_trackRound (hall : GatedAll limits e) (env : IngressEnv)
    (connId stream : Nat) : GatedAll limits (trackRound env connId stream e).1 := by
  unfold trackRound
  split
  · exact hall
  · exact hall.progress (progress_close e connId _ _)
  next frame consumed _ =>
  have hreceived : Progress e (receiveTrackStreamFrame env connId stream e frame).1 :=
    progress_receiveTrackStreamFrame env stream fun c hlookup =>
      (hall.gated connId c hlookup).authorized
  split
  · next hstopped =>
      rw [hstopped] at hreceived
      exact hall.progress hreceived
  · next hgoesOn =>
      rw [hgoesOn] at hreceived
      exact (hall.progress hreceived).progress (progress_shiftTrack _ connId stream consumed)

/-- A barred connection gives its timers nothing to do. -/
theorem Gated.advances_timer {l : Link} {c : Conn} (hgated : Gated limits l c)
    (timer : Timer) : Advances c (c.timer timer) := by
  cases hgate : c.gateOpen with
  | true =>
      apply Advances.of_sendSide hgate
      cases timer with
      | expire slot => exact Conn.frame_sendSide.expireAssembler c slot
      | flushAcks => exact Conn.frame_sendSide.answers.flushRecoveryAcks c
      | sendNack request withheld => exact Conn.frame_sendSide.answers.sendNack c request withheld
  | false =>
      have hingress := (hgated.barred hgate).1
      simp only [Conn.ingress, Ingress.mk.injEq] at hingress
      obtain ⟨_, _, hreceive, _, _, hassemblers, _⟩ := hingress
      have hidle : c.timer timer = c := by
        cases timer with
        | expire slot =>
            have hempty : c.assemblers.getD slot none = none := by
              rw [hassemblers]
              simp only [Conn.init, List.getD_eq_getElem?_getD, List.getElem?_replicate]
              split <;> rfl
            simp only [Conn.timer, Conn.expireAssembler, hempty, ite_self]
        | flushAcks =>
            simp only [Conn.timer, Conn.flushRecoveryAcks, hreceive, Conn.init,
              SubscriptionTable.init, List.foldl_nil, ite_self]
        | sendNack request withheld =>
            have hnone : c.receiveSubscriptions.findByAlias request.trackAlias = none := by
              rw [hreceive]
              rfl
            simp only [Conn.timer, Conn.sendNack, hnone, Option.isNone_none, Bool.true_or,
              if_true]
      rw [hidle]
      exact .refl c

theorem progress_runTimer (hall : GatedAll limits e) (env : IngressEnv) (connId : Nat)
    (timer : Timer) : Progress e (e.runTimer env connId timer) := by
  unfold runTimer
  split
  · exact .refl e
  next c hlookup =>
  have hset : Progress e (e.setConn (c.timer timer)) :=
    progress_setConn hlookup ((hall.gated connId c hlookup).advances_timer timer)
  exact hset.trans (progress_notifyNew _ env _ _)

theorem progress_tickConn (e : Endpoint) (env : IngressEnv) (connId : Nat) (ready : Bool) :
    Progress e (e.tickConn env connId ready) := by
  unfold tickConn
  extract_lets completed answered
  have hcompleted : Progress e completed := by
    simp only [completed]
    split
    · exact progress_updateLink ⟨rfl, le_refl _, rfl⟩ (Or.inl rfl)
    · exact .refl e
  have hanswered : Progress completed answered := by
    simp only [answered]
    split
    · exact progress_sendHello completed connId
    · exact .refl completed
  exact (hcompleted.trans hanswered).trans (progress_maybeEmitConnected answered env connId)

theorem gated_connect (hall : GatedAll limits e) : GatedAll limits e.connect := by
  have hlookup : ∀ connId, e.connect.conn? connId =
      (e.conn? connId).or
        (Keyed.lookup Conn.id connId [Conn.init e.transport.nextConnId e.transport.limits]) :=
    fun connId => Keyed.lookup_append connId _ _
  refine ⟨hall.limits_eq, fun connId hfresh => ?_, fun connId c hfound => ?_⟩
  · have hlater : e.transport.nextConnId < connId := hfresh
    have hother : ¬ e.transport.nextConnId = connId := Nat.ne_of_lt hlater
    rw [hlookup, hall.fresh connId (Nat.le_of_lt hlater)]
    simp [Keyed.lookup, Conn.init, hother]
  · rw [hlookup] at hfound
    cases hold : e.conn? connId with
    | none =>
        rw [hold, Option.none_or] at hfound
        obtain ⟨hmem, hid⟩ := Keyed.mem_of_lookup hfound
        obtain rfl := List.mem_singleton.mp hmem
        obtain rfl : e.transport.nextConnId = connId := hid
        have hlink : e.connect.link e.transport.nextConnId = {} := Function.update_self ..
        rw [hlink, hall.limits_eq]
        exact gated_init _ limits
    | some old =>
        rw [hold, Option.some_or] at hfound
        obtain rfl := Option.some.inj hfound
        have hother : connId ≠ e.transport.nextConnId := by
          rintro rfl
          rw [hall.fresh _ (le_refl _)] at hold
          cases hold
        have hlink : e.connect.link connId = e.link connId := Function.update_of_ne hother ..
        rw [hlink]
        exact hall.gated connId old hold

theorem progress_disconnect (hall : GatedAll limits e) (connId : Nat) :
    Progress e (e.setTransport (e.transport.disconnect connId)) := by
  apply progress_setTransport
  unfold Transport.disconnect
  split
  · exact .refl _
  next c hlookup =>
  have hremoved : Advance e.transport
      (e.transport.checkpointConnectionRemoved connId c.sendSubscriptions.entries) := by
    apply Transport.advance_checkpointConnectionRemoved
    intro found hfound hgate
    have hfound : e.conn? connId = some found := hfound
    have hsame : some c = some found := hlookup.symm.trans hfound
    obtain rfl := Option.some.inj hsame
    have hingress := ((hall.gated connId c hfound).barred hgate).1
    have hsubscriptions := congrArg Ingress.sendSubscriptions hingress
    exact congrArg SubscriptionTable.entries hsubscriptions
  refine hremoved.trans ⟨rfl, rfl, fun other found hfound => ?_⟩
  simp only at hfound
  rw [Keyed.lookup_erase] at hfound
  split at hfound
  · cases hfound
  · exact ⟨found, hfound, .refl found⟩

theorem gated_apply (hall : GatedAll limits e) (op : Op) : GatedAll limits (e.apply op) := by
  have hauthorized : ∀ connId c, e.conn? connId = some c → c.authenticated = true →
      c.protocolReady = true :=
    fun connId c hlookup => (hall.gated connId c hlookup).authorized
  cases op with
  | connect => exact gated_connect hall
  | tick env connId ready => exact hall.progress (progress_tickConn e env connId ready)
  | controlBytes connId data => exact gated_controlBytes hall connId data
  | controlRound env connId => exact gated_controlRound hall env connId
  | trackBytes connId stream data =>
      exact hall.progress (progress_trackBytes e connId stream data)
  | trackRound env connId stream => exact gated_trackRound hall env connId stream
  | datagram env receive connId payload =>
      exact hall.progress (progress_receiveDatagram env receive payload (hauthorized connId))
  | call call => exact hall.progress (progress_call e call)
  | timer env connId timer => exact hall.progress (progress_runTimer hall env connId timer)
  | admissions connId admissions =>
      have hset : ∀ c : Conn, Advances c { c with admissions := admissions } :=
        fun c => .of_same rfl rfl fun _ => rfl
      exact hall.progress (progress_setTransport
        (advance_updateConn (fun c => (hset c).id_eq) fun c _ => hset c))
  | disconnect connId => exact hall.progress (progress_disconnect hall connId)

theorem gated_endpointInit (isServer : Bool) (limits : TransportLimits)
    (maxRecoveryCacheBytes numFds : Nat) :
    GatedAll limits (init isServer limits maxRecoveryCacheBytes numFds) :=
  ⟨rfl, fun _ _ => rfl, fun _ _ hfound => by cases hfound⟩

theorem gated_run (hall : GatedAll limits e) (ops : List Op) : GatedAll limits (e.run ops) := by
  induction ops generalizing e with
  | nil => exact hall
  | cons op rest ih => exact ih (gated_apply hall op)

/-- Until its peer's HELLO is accepted and it is authenticated a connection has emitted
nothing, its tables are empty, nothing is stored and no frame behind the gate reached its
handler; the only HELLO it ever accepts is its first frame. -/
theorem gate_holds (isServer : Bool) (limits : TransportLimits)
    (maxRecoveryCacheBytes numFds : Nat) (ops : List Op) (connId : Nat) :
    let e := (init isServer limits maxRecoveryCacheBytes numFds).run ops
    ∀ c, e.conn? connId = some c →
      (c.gateOpen = false →
        c.ingress = (Conn.init connId limits).ingress ∧ (e.link connId).processed = []) ∧
      (e.link connId).hellos = if c.protocolReady then [1] else [] := by
  intro e c hlookup
  have hall : GatedAll limits e :=
    gated_run (gated_endpointInit isServer limits maxRecoveryCacheBytes numFds) ops
  have hgated := hall.gated connId c hlookup
  refine ⟨fun hgate => ?_, ?_⟩
  · obtain ⟨hingress, hnone⟩ := hgated.barred hgate
    rw [id_of_conn? hlookup] at hingress
    exact ⟨hingress, hnone⟩
  · cases hready : c.protocolReady with
    | false => exact hgated.pending hready
    | true => exact (hgated.accepted hready).2

/-- A peer that begins with SUBSCRIBE is refused. -/
theorem gate_holds_subscribe_first :
    let env : IngressEnv := ⟨⟨true, true, blankCodec, 1⟩, fun _ => []⟩
    let e := (init true defaultLimits 0 1).run
      [.connect, .controlBytes 0 [wireMagic0, wireMagic1, wireVersion, wireSubscribe, 0, 0, 0, 0],
        .controlRound env 0]
    ∃ c, e.conn? 0 = some c ∧ c.closed.isSome = true ∧
      c.ingress = (Conn.init 0 defaultLimits).ingress ∧ (e.link 0).processed = [] ∧
      (e.link 0).hellos = [] := by
  intro env e
  have hlookup : e.conn? 0 = some { Conn.init 0 defaultLimits with
      closed := some ⟨.protocol, "protocol error: HELLO must be first"⟩ } := rfl
  have hgate := gate_holds true defaultLimits 0 1 _ 0 _ hlookup
  exact ⟨_, hlookup, rfl, (hgate.1 rfl).1, (hgate.1 rfl).2, hgate.2⟩

end Endpoint

end Qlinq
