import Qlinq.Endpoint
import Qlinq.IngressFrame
import Qlinq.Lasting
import Qlinq.Moves

namespace Qlinq

open Conn (Ingress)

/-! Steps that take no HELLO: of a connection, of a transport and of an endpoint. -/

namespace Conn

/-- A step that a connection takes without a HELLO. -/
structure Advances (c c' : Conn) : Prop where
  id_eq : c'.id = c.id
  helloReceived_eq : c'.helloReceived = c.helloReceived
  protocolReady_eq : c'.protocolReady = c.protocolReady
  authenticated : c.authenticated = true → c'.authenticated = true
  authorized : c'.authenticated = true → c.authenticated = true ∨ c.protocolReady = true
  barred : c'.gateOpen = false → c'.ingress = c.ingress

namespace Advances

variable {c c' c'' : Conn}

theorem refl (c : Conn) : Advances c c := ⟨rfl, rfl, rfl, fun h => h, Or.inl, fun _ => rfl⟩

theorem gateOpen (hadvances : Advances c c') (hgate : c.gateOpen = true) :
    c'.gateOpen = true := by
  simp only [Conn.gateOpen, Bool.and_eq_true] at hgate ⊢
  exact ⟨hadvances.protocolReady_eq.trans hgate.1, hadvances.authenticated hgate.2⟩

theorem closed_before (hadvances : Advances c c') (hgate : c'.gateOpen = false) :
    c.gateOpen = false := by
  cases hbefore : c.gateOpen with
  | false => rfl
  | true =>
      rw [hadvances.gateOpen hbefore] at hgate
      cases hgate

theorem trans (hfirst : Advances c c') (hsecond : Advances c' c'') : Advances c c'' where
  id_eq := hsecond.id_eq.trans hfirst.id_eq
  helloReceived_eq := hsecond.helloReceived_eq.trans hfirst.helloReceived_eq
  protocolReady_eq := hsecond.protocolReady_eq.trans hfirst.protocolReady_eq
  authenticated := fun h => hsecond.authenticated (hfirst.authenticated h)
  authorized := by
    intro h
    rcases hsecond.authorized h with hbefore | hready
    · exact hfirst.authorized hbefore
    · exact Or.inr (hfirst.protocolReady_eq.symm.trans hready)
  barred := by
    intro hgate
    rw [hsecond.barred hgate, hfirst.barred (hsecond.closed_before hgate)]

/-- A step that keeps the handshake and what the peer's messages change. -/
theorem of_same (hid : c'.id = c.id) (hhandshake : c'.handshake = c.handshake)
    (hingress : c.gateOpen = false → c'.ingress = c.ingress) : Advances c c' := by
  simp only [handshake, Prod.mk.injEq] at hhandshake
  obtain ⟨hhello, hready, hauthenticated⟩ := hhandshake
  refine ⟨hid, hhello, hready, fun h => hauthenticated.trans h,
    fun h => Or.inl (hauthenticated.symm.trans h), fun hgate => hingress ?_⟩
  rw [← hgate]
  simp only [Conn.gateOpen, hready, hauthenticated]

/-- Behind the open gate a connection may take any step but lose its handshake. -/
theorem of_lasting (hgate : c.gateOpen = true) (hlasting : c'.lasting = c.lasting) :
    Advances c c' := by
  apply of_same
  · exact lasting_unwritten hlasting Conn.id fun _ => rfl
  · exact lasting_unwritten hlasting Conn.handshake fun _ => rfl
  · intro hclosed
    rw [hgate] at hclosed
    cases hclosed

end Advances

theorem Steps.advances {c c' : Conn} (hsteps : Transport.Steps c c') : Advances c c' :=
  .of_same hsteps.moved.id_eq hsteps.moved.handshake hsteps.idle

theorem advances_quiclyClose (c : Conn) (code : AppError) (reason : String) :
    Advances c (c.quiclyClose code reason) := by
  unfold quiclyClose
  split
  · exact .refl c
  · exact .of_same rfl rfl fun _ => rfl

theorem advances_writeHandshakeFrame (c : Conn) : Advances c c.writeHandshakeFrame.1 := by
  have hdrained : Advances c { c with admissions := c.admissions.tail } :=
    .of_same rfl rfl fun _ => rfl
  unfold writeHandshakeFrame
  split
  · exact .refl c
  split
  · exact hdrained
  · exact hdrained.trans (advances_quiclyClose _ _ _)

/-! ### The receiving side

It leaves the sending side, and with it the handshake, alone. -/

theorem frame_sendSide : IngressFrame fun c c' => c'.sendSide = c.sendSide where
  refl _ := rfl
  trans hfirst hsecond := hsecond.trans hfirst
  closed _ _ := rfl
  drained _ _ := rfl
  written _ _ _ _ := rfl
  acceptedWindows _ _ := rfl
  assemblers _ _ := rfl
  objectGap _ _ _ _ := rfl
  stored _ _ _ _ _ _ := rfl
  marked _ _ _ := rfl

theorem sendSide_writeControlFrame (c : Conn) (frame : Sent ControlFrame) :
    (c.writeControlFrame frame).1.sendSide = c.sendSide :=
  frame_sendSide.writeControlFrame c frame fun _ => rfl

theorem sendSide_subscribeConnection (c : Conn) (track : TrackId) :
    (c.subscribeConnection track).1.sendSide = c.sendSide := by
  have hwrite := sendSide_writeControlFrame
  unfold subscribeConnection
  split
  · rfl
  split
  · split
    · rfl
    · exact hwrite c _
  split
  · rfl
  split
  · rfl
  split
  · rfl
  next a _ _ table _ =>
  extract_lets added
  have hadded := hwrite added (added.receiveFrame a (.subscribe a track))
  split
  · next hsent =>
      rw [hsent] at hadded
      exact hadded
  · next hfailed =>
      rw [hfailed] at hadded
      exact hadded

theorem sendSide_unsubscribeConnection (c : Conn) (track : TrackId) :
    (c.unsubscribeConnection track).1.sendSide = c.sendSide := by
  have hwrite := sendSide_writeControlFrame
  unfold unsubscribeConnection
  split
  · rfl
  split
  · rfl
  next entry _ =>
  extract_lets a
  have hwritten := hwrite c (c.receiveFrame a (.unsubscribe a entry.trackId))
  split
  · next hfailed =>
      rw [hfailed] at hwritten
      exact hwritten
  · next hsent =>
      rw [hsent] at hwritten
      exact hwritten

theorem Advances.of_sendSide {c c' : Conn} (hgate : c.gateOpen = true)
    (hsame : c'.sendSide = c.sendSide) : Advances c c' := by
  apply Advances.of_lasting hgate
  unfold Conn.lasting
  rw [hsame]

theorem advances_subscribeConnection (c : Conn) (track : TrackId) :
    Advances c (c.subscribeConnection track).1 := by
  cases hestablished : c.established with
  | true =>
      exact .of_sendSide (gateOpen_of_established hestablished)
        (sendSide_subscribeConnection c track)
  | false =>
      have hrefused : c.subscribeConnection track = (c, false) := by
        simp [subscribeConnection, hestablished]
      rw [hrefused]
      exact .refl c

theorem advances_unsubscribeConnection (c : Conn) (track : TrackId) :
    Advances c (c.unsubscribeConnection track).1 := by
  cases hestablished : c.established with
  | true =>
      exact .of_sendSide (gateOpen_of_established hestablished)
        (sendSide_unsubscribeConnection c track)
  | false =>
      have hrefused : c.unsubscribeConnection track = (c, false) := by
        simp [unsubscribeConnection, hestablished]
      rw [hrefused]
      exact .refl c

end Conn

open Conn (Advances)

namespace Transport

/-- Every connection that is left has advanced. -/
structure Advance (t t' : Transport) : Prop where
  limits : t'.limits = t.limits
  nextConnId : t'.nextConnId = t.nextConnId
  conn : ∀ connId c', Keyed.lookup Conn.id connId t'.conns = some c' →
    ∃ c, Keyed.lookup Conn.id connId t.conns = some c ∧ Advances c c'

namespace Advance

theorem of_conns {t t' : Transport} (hlimits : t'.limits = t.limits)
    (hnext : t'.nextConnId = t.nextConnId) (hconns : t'.conns = t.conns) : Advance t t' :=
  ⟨hlimits, hnext, fun connId c' hc' => ⟨c', by rwa [hconns] at hc', .refl c'⟩⟩

theorem refl (t : Transport) : Advance t t := of_conns rfl rfl rfl

theorem trans {t t' t'' : Transport} (hfirst : Advance t t') (hsecond : Advance t' t'') :
    Advance t t'' where
  limits := hsecond.limits.trans hfirst.limits
  nextConnId := hsecond.nextConnId.trans hfirst.nextConnId
  conn := by
    intro connId c'' hc''
    obtain ⟨c', hc', hlater⟩ := hsecond.conn connId c'' hc''
    obtain ⟨c, hc, hadvances⟩ := hfirst.conn connId c' hc'
    exact ⟨c, hc, hadvances.trans hlater⟩

end Advance

theorem ConnsMove.advance {t t' : Transport} (hmove : ConnsMove t t') : Advance t t' := by
  refine ⟨hmove.limits, hmove.nextConnId, fun connId c' hc' => ?_⟩
  obtain ⟨c, hc, hsteps⟩ := Keyed.exists_lookup (R := fun c' c => Steps c c')
    (fun _ _ hsteps => hsteps.moved.id_eq.symm) hmove.conns.flip hc'
  exact ⟨c, hc, Conn.Steps.advances hsteps⟩

theorem advance_updateConn {t : Transport} {connId : Nat} {update : Conn → Conn}
    (hid : ∀ c, (update c).id = c.id)
    (hupdate : ∀ c, Keyed.lookup Conn.id connId t.conns = some c → Advances c (update c)) :
    Advance t (t.updateConn connId update) := by
  refine ⟨rfl, rfl, fun other c' hc' => ?_⟩
  simp only [updateConn] at hc'
  rw [Keyed.lookup_adjust (fun c hc => (hid c).trans hc)] at hc'
  split at hc'
  · next hsame =>
      obtain ⟨c, hc, rfl⟩ := Option.map_eq_some_iff.mp hc'
      rw [hsame]
      exact ⟨c, hc, hupdate c hc⟩
  · exact ⟨c', hc', .refl c'⟩

theorem advance_setConn {t : Transport} {c c' : Conn}
    (hlookup : Keyed.lookup Conn.id connId t.conns = some c) (hadvances : Advances c c') :
    Advance t (t.setConn c') := by
  have hconnId := (Keyed.mem_of_lookup hlookup).2
  refine ⟨rfl, rfl, fun other found hfound => ?_⟩
  simp only [setConn] at hfound
  rw [Keyed.lookup_adjust (fun _ _ => rfl)] at hfound
  split at hfound
  · next hsame =>
      rw [hadvances.id_eq, hconnId] at hsame hfound
      rw [hlookup] at hfound
      obtain rfl := Option.some.inj hfound
      rw [hsame]
      exact ⟨c, hlookup, hadvances⟩
  · exact ⟨found, hfound, .refl found⟩

theorem advance_releaseAckedCheckpoints (t : Transport) (track : TrackId) :
    Advance t (t.releaseAckedCheckpoints track) := by
  unfold releaseAckedCheckpoints
  split
  · exact .refl t
  split
  · exact .refl t
  split
  · exact .of_conns rfl rfl rfl
  · exact .of_conns rfl rfl rfl
  · exact .refl t

section Open

variable {t : Transport} {c : Conn} (hlookup : Keyed.lookup Conn.id connId t.conns = some c)
  (hgate : c.gateOpen = true)

include hlookup hgate

theorem advance_setLasting (hlasting : c'.lasting = c.lasting) : Advance t (t.setConn c') :=
  advance_setConn hlookup (.of_lasting hgate hlasting)

theorem advance_receiveSubscribe (a : TrackAlias) (track : TrackId) :
    Advance t (t.receiveSubscribe c a track) := by
  unfold receiveSubscribe
  split
  · exact advance_setConn hlookup (Conn.advances_quiclyClose _ _ _)
  split
  · exact advance_setConn hlookup (Conn.advances_quiclyClose _ _ _)
  · next table _ =>
      exact advance_setLasting hlookup hgate
        (lasting_checkpointMemberAdded t { c with sendSubscriptions := table } track a)

theorem advance_receiveUnsubscribe (a : TrackAlias) (track : TrackId) :
    Advance t (t.receiveUnsubscribe c a track) := by
  have hremoved : Advance t (t.checkpointMemberRemoved c track a) := by
    unfold checkpointMemberRemoved
    split
    · exact .refl t
    · have hcleared : Advance t (t.setConn (c.setCheckpointAck a {})) :=
        advance_setLasting hlookup hgate rfl
      exact hcleared.trans (advance_releaseAckedCheckpoints _ track)
  refine hremoved.trans (advance_updateConn (fun _ => rfl) fun c' hc' => ?_)
  obtain ⟨old, hold, hadvances⟩ := hremoved.conn _ c' hc'
  have hconnId := (Keyed.mem_of_lookup hlookup).2
  rw [hconnId, hlookup] at hold
  obtain rfl := Option.some.inj hold
  exact .of_lasting (hadvances.gateOpen hgate) rfl

theorem advance_receiveCheckpointAck (ack : TrackCheckpointAck) :
    Advance t (t.receiveCheckpointAck c ack) := by
  unfold receiveCheckpointAck
  split
  · exact advance_setConn hlookup (Conn.advances_quiclyClose _ _ _)
  split
  · exact advance_setConn hlookup (Conn.advances_quiclyClose _ _ _)
  · next track _ _ t' hacked =>
      simp only [checkpointAcked] at hacked
      split at hacked
      · simp at hacked
      split at hacked
      · simp at hacked
      split at hacked
      · simp at hacked
      · obtain rfl := Option.some.inj hacked
        refine Advance.trans ?_ (advance_releaseAckedCheckpoints _ track)
        exact advance_setLasting hlookup hgate rfl

end Open

theorem advance_receiveNack {t : Transport} {c : Conn}
    (hlookup : Keyed.lookup Conn.id connId t.conns = some c) (env : RepairEnv) (nack : Nack) :
    Advance t (t.receiveNack env c nack) := by
  simp only [receiveNack]
  split
  · exact .refl t
  split
  · exact .refl t
  split
  · exact advance_setConn hlookup (Conn.advances_quiclyClose _ _ _)
  split
  · exact .refl t
  split
  · exact .refl t
  split
  · exact .refl t
  · have hqueued : ∀ packets, Advances c { c with datagrams := packets } :=
      fun _ => .of_same rfl rfl fun _ => rfl
    exact (advance_setConn hlookup (hqueued _)).trans (.of_conns rfl rfl rfl)

theorem advance_checkpointConnectionRemoved (t : Transport) (connId : Nat)
    (entries : List Subscription)
    (hgate : ∀ c, Keyed.lookup Conn.id connId t.conns = some c → c.gateOpen = false →
      entries = []) :
    Advance t (t.checkpointConnectionRemoved connId entries) := by
  induction entries generalizing t with
  | nil => exact .refl t
  | cons entry rest ih =>
      unfold checkpointConnectionRemoved
      split
      · exact .refl t
      next c hlookup =>
      have hopen : c.gateOpen = true := by
        cases hclosed : c.gateOpen with
        | true => rfl
        | false => cases hgate c hlookup hclosed
      split
      · apply ih
        intro other hother hclosed
        exact absurd (hgate other hother hclosed) (by simp)
      · have hcleared : Advance t (t.setConn (c.setCheckpointAck entry.trackAlias {})) :=
          advance_setLasting hlookup hopen rfl
        have hreleased := hcleared.trans (advance_releaseAckedCheckpoints _ entry.trackId)
        refine hreleased.trans (ih _ fun other hother hclosed => ?_)
        obtain ⟨old, hold, hadvances⟩ := hreleased.conn _ other hother
        exact absurd (hgate old hold (hadvances.closed_before hclosed)) (by simp)

end Transport

open Transport (Advance advance_setConn advance_updateConn)

namespace Endpoint

variable {e e' e'' : Endpoint}

/-- A link's step without a HELLO. -/
structure Follows (l l' : Link) : Prop where
  hellos_eq : l'.hellos = l.hellos
  framesReceived_le : l.framesReceived ≤ l'.framesReceived
  control_eq : l'.control = l.control

theorem Follows.refl (l : Link) : Follows l l := ⟨rfl, le_refl _, rfl⟩

theorem Follows.trans (hfirst : Follows l l') (hsecond : Follows l' l'') : Follows l l'' :=
  ⟨hsecond.hellos_eq.trans hfirst.hellos_eq,
    le_trans hfirst.framesReceived_le hsecond.framesReceived_le,
    hsecond.control_eq.trans hfirst.control_eq⟩

/-- One connection's part of such a step. -/
structure ProgressAt (e e' : Endpoint) (connId : Nat) : Prop where
  conn : ∀ c', e'.conn? connId = some c' → ∃ c, e.conn? connId = some c ∧ Advances c c'
  link : Follows (e.link connId) (e'.link connId)
  processed : ∀ c', e'.conn? connId = some c' → c'.gateOpen = false →
    (e'.link connId).processed = (e.link connId).processed

theorem ProgressAt.refl (e : Endpoint) (connId : Nat) : ProgressAt e e connId :=
  ⟨fun c hc => ⟨c, hc, .refl c⟩, .refl _, fun _ _ _ => rfl⟩

theorem ProgressAt.trans (hfirst : ProgressAt e e' connId)
    (hsecond : ProgressAt e' e'' connId) : ProgressAt e e'' connId where
  conn := by
    intro c'' hc''
    obtain ⟨c', hc', hlater⟩ := hsecond.conn c'' hc''
    obtain ⟨c, hc, hadvances⟩ := hfirst.conn c' hc'
    exact ⟨c, hc, hadvances.trans hlater⟩
  link := hfirst.link.trans hsecond.link
  processed := by
    intro c'' hc'' hgate
    obtain ⟨c', hc', hlater⟩ := hsecond.conn c'' hc''
    rw [hsecond.processed c'' hc'' hgate, hfirst.processed c' hc' (hlater.closed_before hgate)]

/-- The endpoint's parts that no step but a connection's creation changes. -/
structure SameFrame (e e' : Endpoint) : Prop where
  limits : e'.transport.limits = e.transport.limits
  nextConnId : e'.transport.nextConnId = e.transport.nextConnId

theorem SameFrame.trans (hfirst : SameFrame e e') (hsecond : SameFrame e' e'') :
    SameFrame e e'' :=
  ⟨hsecond.limits.trans hfirst.limits, hsecond.nextConnId.trans hfirst.nextConnId⟩

structure Progress (e e' : Endpoint) : Prop where
  frame : SameFrame e e'
  at_ : ∀ connId, ProgressAt e e' connId

theorem Progress.refl (e : Endpoint) : Progress e e := ⟨⟨rfl, rfl⟩, .refl e⟩

theorem Progress.trans (hfirst : Progress e e') (hsecond : Progress e' e'') :
    Progress e e'' :=
  ⟨hfirst.frame.trans hsecond.frame, fun connId => (hfirst.at_ connId).trans (hsecond.at_ connId)⟩

theorem progress_setTransport {t : Transport} (hadvance : Advance e.transport t) :
    Progress e (e.setTransport t) :=
  ⟨⟨hadvance.limits, hadvance.nextConnId⟩, fun connId =>
    ⟨hadvance.conn connId, .refl _, fun _ _ _ => rfl⟩⟩

theorem progress_setConn {c c' : Conn} (hlookup : e.conn? connId = some c)
    (hadvances : Advances c c') : Progress e (e.setConn c') :=
  progress_setTransport (advance_setConn hlookup hadvances)

theorem progress_close (e : Endpoint) (connId : Nat) (code : AppError) (reason : String) :
    Progress e (e.close connId code reason) := by
  refine progress_setTransport (advance_updateConn (fun c => ?_) fun c _ =>
    Conn.advances_quiclyClose c code reason)
  exact (Conn.advances_quiclyClose c code reason).id_eq

theorem link_updateLink (e : Endpoint) (connId other : Nat) (update : Link → Link) :
    (e.updateLink connId update).link other =
      if other = connId then update (e.link connId) else e.link other := by
  simp only [updateLink, Function.update_apply]

theorem progress_updateLink {update : Link → Link}
    (hfollows : Follows (e.link connId) (update (e.link connId)))
    (hprocessed : (update (e.link connId)).processed = (e.link connId).processed ∨
      ∀ c, e.conn? connId = some c → c.gateOpen = true) :
    Progress e (e.updateLink connId update) := by
  refine ⟨⟨rfl, rfl⟩, fun other => ⟨fun c hc => ⟨c, hc, .refl c⟩, ?_, fun c hc hgate => ?_⟩⟩
  · rw [link_updateLink]
    split
    · next hsame =>
        rw [hsame]
        exact hfollows
    · exact .refl _
  · rw [link_updateLink]
    split
    · next hsame =>
        subst hsame
        cases hprocessed with
        | inl hsame => exact hsame
        | inr hopen =>
            rw [hopen c hc] at hgate
            cases hgate
    · rfl

theorem progress_record {c : Conn} (hlookup : e.conn? connId = some c)
    (hgate : c.gateOpen = true) (frame : ControlFrame) :
    Progress e (e.record connId frame) := by
  refine progress_updateLink ⟨rfl, le_refl _, rfl⟩ (Or.inr fun other hother => ?_)
  rw [hlookup] at hother
  obtain rfl := Option.some.inj hother
  exact hgate

theorem id_of_conn? {c : Conn} (hlookup : e.conn? connId = some c) : c.id = connId :=
  (Keyed.mem_of_lookup hlookup).2

theorem conn?_setConn_self {c c' : Conn} (hlookup : e.conn? connId = some c)
    (hid : c'.id = c.id) : (e.setConn c').conn? connId = some c' :=
  Transport.lookup_setConn_self hlookup hid

/-! ### Calls and notices -/

theorem progress_respondAuth (e : Endpoint) (connId : Nat) (success : Bool) :
    Progress e (e.respondAuth connId success) := by
  unfold respondAuth
  split
  · exact .refl e
  next c hlookup =>
  split
  · exact .refl e
  next hready =>
  have hwrite := Conn.advances_writeHandshakeFrame c
  have hprotocol : c.protocolReady = true := by simpa using hready
  split
  · next hfailed =>
      rw [hfailed] at hwrite
      exact progress_setConn hlookup hwrite
  · next written hsent =>
      rw [hsent] at hwrite
      split
      · refine progress_setConn hlookup
          { id_eq := hwrite.id_eq
            helloReceived_eq := hwrite.helloReceived_eq
            protocolReady_eq := hwrite.protocolReady_eq
            authenticated := fun _ => rfl
            authorized := fun _ => Or.inr hprotocol
            barred := fun hgate => ?_ }
        have hready : written.protocolReady = true := hwrite.protocolReady_eq.trans hprotocol
        simp [Conn.gateOpen, hready] at hgate
      · exact progress_setConn hlookup (hwrite.trans (Conn.advances_quiclyClose _ _ _))

theorem progress_call (e : Endpoint) (call : Call) : Progress e (e.call call) := by
  cases call with
  | publish env object =>
      exact progress_setTransport (Transport.moves_publish _ env object).connsMove.advance
  | flush env =>
      exact progress_setTransport (Transport.moves_flushGrouped _ env).connsMove.advance
  | finish env track =>
      exact progress_setTransport (Transport.connsMove_finishTrack _ env track).advance
  | respondAuth connId success => exact progress_respondAuth e connId success
  | subscribe connId track =>
      have hadvances := fun c => Conn.advances_subscribeConnection c track
      exact progress_setTransport (advance_updateConn (fun c => (hadvances c).id_eq)
        fun c _ => hadvances c)
  | unsubscribe connId track =>
      have hadvances := fun c => Conn.advances_unsubscribeConnection c track
      exact progress_setTransport (advance_updateConn (fun c => (hadvances c).id_eq)
        fun c _ => hadvances c)
  | close connId code reason => exact progress_close e connId code reason

theorem progress_notify (e : Endpoint) (env : IngressEnv) (notice : Notice) :
    Progress e (e.notify env notice) := by
  unfold notify
  induction env.calls notice generalizing e with
  | nil => exact .refl e
  | cons call rest ih => exact (progress_call e call).trans (ih (e.call call))

theorem progress_notifyNew (e : Endpoint) (env : IngressEnv) (c c' : Conn) :
    Progress e (e.notifyNew env c c') := by
  unfold notifyNew
  induction c'.events.drop c.events.length generalizing e with
  | nil => exact .refl e
  | cons event rest ih => exact (progress_notify e env _).trans (ih _)

theorem progress_maybeEmitConnected (e : Endpoint) (env : IngressEnv) (connId : Nat) :
    Progress e (e.maybeEmitConnected env connId) := by
  unfold maybeEmitConnected
  split
  · exact .refl e
  simp only
  split
  · exact .refl e
  · have hmarked : Progress e
        (e.updateLink connId fun l => { l with connectedEmitted := true }) :=
      progress_updateLink ⟨rfl, le_refl _, rfl⟩ (Or.inl rfl)
    exact hmarked.trans (progress_notify _ env _)

theorem progress_sendHello (e : Endpoint) (connId : Nat) :
    Progress e (e.sendHello connId).1 := by
  unfold sendHello
  split
  · exact .refl e
  next c hlookup =>
  split
  · exact .refl e
  split
  · exact .refl e
  have hwrite := Conn.advances_writeHandshakeFrame c
  split
  · next hfailed =>
      rw [hfailed] at hwrite
      exact progress_setConn hlookup hwrite
  · next written hsent =>
      rw [hsent] at hwrite
      have hset : Progress e (e.setConn written) := progress_setConn hlookup hwrite
      have hmarked : Progress (e.setConn written)
          ((e.setConn written).updateLink connId fun l => { l with helloSent := true }) :=
        progress_updateLink ⟨rfl, le_refl _, rfl⟩ (Or.inl rfl)
      exact hset.trans hmarked

end Endpoint

end Qlinq
