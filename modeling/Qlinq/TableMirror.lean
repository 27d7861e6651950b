import Qlinq.KeepsTable
import Qlinq.SubscriberLog

namespace Qlinq

open Replay (replay replay_next)

/-! A publisher's table of one connection mirrors the table of its subscriber. -/

/-- A publisher, one of its connections and the subscriber at the other end, whose
control stream the publisher has read up to `read`.  `refused` records the SUBSCRIBE
frames that closed the publisher's connection. -/
structure Session where
  publisher : Transport
  connId : Nat
  subscriber : Conn
  limits : TransportLimits
  read : Nat := 0
  refused : List ControlFrame := []

namespace Session

/-- `deliver` hands the next frame of the subscriber to the publisher; nothing reaches a
closed connection. -/
inductive Op where
  | publisher (op : Transport.Op)
  | subscriber (op : Conn.ReceiveOp)
  | deliver (env : RepairEnv)

def refusals (c : Conn) (frame : ControlFrame) : List ControlFrame :=
  match frame with
  | .subscribe a track => if c.refusesSubscribe a track then [frame] else []
  | _ => []

def deliver (s : Session) (env : RepairEnv) : Session :=
  match Keyed.lookup Conn.id s.connId s.publisher.conns, s.subscriber.control[s.read]? with
  | some c, some frame =>
      if c.closed.isSome then
        s
      else
        { s with
          publisher := s.publisher.receiveControlFrame env s.connId frame.message
          read := s.read + 1
          refused := s.refused ++ refusals c frame.message }
  | _, _ => s

/-- The frames of the connection are all the subscriber's. -/
def publish (s : Session) (op : Transport.Op) : Session :=
  match op with
  | .receive _ connId _ =>
      if connId = s.connId then s else { s with publisher := s.publisher.apply op }
  | _ => { s with publisher := s.publisher.apply op }

def apply (s : Session) : Op → Session
  | .publisher op => s.publish op
  | .subscriber op => { s with subscriber := s.subscriber.receive s.limits op }
  | .deliver env => s.deliver env

def run (s : Session) (ops : List Op) : Session := Machine.run apply s ops

/-- A subscriber with its own limits connects to a publisher and the handshake is made. -/
def start (t : Transport) (limits : TransportLimits) : Session where
  publisher := ((t.connect.apply (.hello t.nextConnId (Transport.helloFor limits))).apply
    (.respondAuth t.nextConnId true))
  connId := t.nextConnId
  subscriber := ((Conn.init 0 limits).receiveHello limits (Transport.helloFor t.limits)
    ).respondAuth true
  limits := limits

/-- A new connection is greeted and authenticated. -/
theorem handshake_init (connId : Nat) (limits other : TransportLimits) :
    ((Conn.init connId limits).receiveHello limits (Transport.helloFor other)).respondAuth true =
      { Conn.init connId limits with
        peerCapabilities := (Transport.helloFor other).capabilities
        negotiatedLimits := Conn.negotiate limits (Transport.helloFor other)
        helloReceived := true
        protocolReady := true
        authenticated := true } := by
  have hcapable : (Transport.helloFor other).capabilities &&& (capReliable ||| capDatagram) =
      capReliable ||| capDatagram := by
    simp only [Transport.helloFor]
    decide
  simp only [Conn.receiveHello, Conn.init, hcapable]
  rfl

/-- No frame of the connection comes from elsewhere. -/
theorem publish_cases (s : Session) (op : Transport.Op) :
    s.publish op = s ∨
      s.publish op = { s with publisher := s.publisher.apply op } ∧
        ∀ env frame, op ≠ .receive env s.connId frame := by
  cases op with
  | receive env connId frame =>
      by_cases hsame : connId = s.connId
      · exact Or.inl (if_pos hsame)
      · refine Or.inr ⟨if_neg hsame, fun env' frame' h => ?_⟩
        injection h with _ hconn _
        exact hsame hconn
  | _ => exact Or.inr ⟨rfl, fun env frame h => by cases h⟩

/-- The publisher's end of the new connection. -/
theorem lookup_start {t : Transport} (hfresh : t.Fresh) (limits : TransportLimits) :
    Keyed.lookup Conn.id t.nextConnId (start t limits).publisher.conns =
      some (((Conn.init t.nextConnId t.limits).receiveHello t.limits
        (Transport.helloFor limits)).respondAuth true) := by
  have hconnected : Keyed.lookup Conn.id t.nextConnId t.connect.conns =
      some (Conn.init t.nextConnId t.limits) := by
    rw [Transport.lookup_connect, hfresh _ (Nat.le_refl _), if_pos rfl]
    rfl
  have hgreet : ∀ c : Conn,
      (c.receiveHello t.connect.limits (Transport.helloFor limits)).id = c.id := by
    intro c
    unfold Conn.receiveHello
    split
    · rfl
    split
    · exact (Conn.moved_quiclyClose c _ _).id_eq
    · rfl
  have hanswer : ∀ c : Conn, (c.respondAuth true).id = c.id := by
    intro c
    unfold Conn.respondAuth
    split
    · rfl
    · rfl
  simp only [start, Transport.apply, Transport.updateConn]
  rw [Keyed.lookup_adjust (fun c hc => (hanswer c).trans hc), if_pos rfl,
    Keyed.lookup_adjust (fun c hc => (hgreet c).trans hc), if_pos rfl, hconnected]
  rfl

/-- The publisher is behind the subscriber by the frames in flight. -/
structure Mirrored (s : Session) : Prop where
  refused : s.refused = []
  behind : ∃ limit bindings, s.subscriber.Logged limit ∧
    replay (Bindings.step limit) Bindings.empty
      ((s.subscriber.control.map Sent.message).take s.read) = some bindings ∧
    s.read ≤ s.subscriber.control.length ∧
    s.publisher.Binds s.connId limit bindings

namespace Mirrored

theorem publish {s : Session} (hmirrored : Mirrored s) (op : Transport.Op) :
    Mirrored (s.publish op) := by
  obtain ⟨limit, bindings, hlogged, hbehind, hread, hbinds⟩ := hmirrored.behind
  rcases s.publish_cases op with hsame | ⟨happly, hother⟩
  · rw [hsame]
    exact hmirrored
  · rw [happly]
    exact ⟨hmirrored.refused, limit, bindings, hlogged, hbehind, hread, hbinds.apply hother⟩

theorem subscriber {s : Session} (hmirrored : Mirrored s) (op : Conn.ReceiveOp) :
    Mirrored { s with subscriber := s.subscriber.receive s.limits op } := by
  obtain ⟨limit, bindings, hlogged, hbehind, hread, hbinds⟩ := hmirrored.behind
  obtain ⟨frames, hcontrol⟩ := s.subscriber.appends_receive s.limits op
  refine ⟨hmirrored.refused, limit, bindings, hlogged.receive s.limits op, ?_, ?_, hbinds⟩
  · simp only [← hcontrol, List.map_append]
    rw [List.take_append_of_le_length (by rwa [List.length_map])]
    exact hbehind
  · simp only [← hcontrol, List.length_append]
    omega

theorem deliver {s : Session} (hmirrored : Mirrored s) (env : RepairEnv) :
    Mirrored (s.deliver env) := by
  obtain ⟨limit, bindings, hlogged, hbehind, hread, hbinds⟩ := hmirrored.behind
  unfold Session.deliver
  split
  · next c frame hlookup hframe =>
      split
      · exact hmirrored
      next hopen =>
      have hopen : c.closed = none := by simpa using hopen
      have hvalid := Bindings.valid_replay Bindings.valid_empty hbehind
      have hmessage : (s.subscriber.control.map Sent.message)[s.read]? = some frame.message := by
        rw [List.getElem?_map, hframe]
        rfl
      obtain ⟨next, hstep, hcaught⟩ := replay_next hlogged.replayed hbehind hmessage
      obtain ⟨hnext, htaken⟩ := hbinds.receive hlookup hopen hvalid env hstep
      have hlength := (List.getElem?_eq_some_iff.mp hframe).1
      refine ⟨?_, limit, next, hlogged, hcaught, hlength, hnext⟩
      have hnone : refusals c frame.message = [] := by
        unfold refusals
        split
        · next a track hmessage => rw [htaken a track hmessage, if_neg Bool.false_ne_true]
        · rfl
      simp only [hmirrored.refused, hnone, List.append_nil]
  · exact hmirrored

theorem apply {s : Session} (hmirrored : Mirrored s) (op : Op) : Mirrored (s.apply op) := by
  cases op with
  | publisher op => exact hmirrored.publish op
  | subscriber op => exact hmirrored.subscriber op
  | deliver env => exact hmirrored.deliver env

theorem run {s : Session} (hmirrored : Mirrored s) (ops : List Op) : Mirrored (s.run ops) := by
  induction ops generalizing s with
  | nil => exact hmirrored
  | cons op rest ih => exact ih (hmirrored.apply op)

theorem start {t : Transport} (hfresh : t.Fresh) (limits : TransportLimits) :
    Mirrored (Session.start t limits) where
  refused := rfl
  behind := by
    have hpublisher := lookup_start hfresh limits
    have hlogged : (Session.start t limits).subscriber.Logged
        (min limits.maxSubscriptionsPerConnection t.limits.maxSubscriptionsPerConnection) := by
      simp only [Session.start]
      rw [handshake_init]
      exact ⟨rfl, rfl, rfl⟩
    refine ⟨_, Bindings.empty, hlogged, rfl, Nat.zero_le _, Nat.lt_succ_self _, fun c hc => ?_⟩
    have hfound := hpublisher.symm.trans hc
    rw [handshake_init] at hfound
    obtain rfl := Option.some.inj hfound
    exact ⟨rfl, Nat.min_le_right _ _, rfl, rfl⟩

end Mirrored

theorem tables_mirror (isServer : Bool) (publisherLimits : TransportLimits)
    (maxRecoveryCacheBytes : Nat) (earlier : List Transport.Op)
    (subscriberLimits : TransportLimits) (ops : List Op) :
    let t := (Transport.init isServer publisherLimits maxRecoveryCacheBytes).run earlier
    let s := (start t subscriberLimits).run ops
    s.refused = [] ∧
      (s.read = s.subscriber.control.length →
        ∀ c, Keyed.lookup Conn.id s.connId s.publisher.conns = some c →
          c.sendSubscriptions.findByAlias = s.subscriber.receiveSubscriptions.findByAlias) := by
  intro t s
  have hfresh : t.Fresh :=
    (Transport.fresh_init isServer publisherLimits maxRecoveryCacheBytes).run earlier
  have hmirrored : Mirrored s := (Mirrored.start hfresh subscriberLimits).run ops
  refine ⟨hmirrored.refused, fun hread c hlookup => ?_⟩
  obtain ⟨limit, bindings, hlogged, hbehind, _, hbinds⟩ := hmirrored.behind
  have hall : (s.subscriber.control.map Sent.message).take s.read =
      s.subscriber.control.map Sent.message :=
    List.take_of_length_le (by rw [List.length_map, hread])
  rw [hall, hlogged.replayed] at hbehind
  rw [Option.some.inj hbehind]
  exact (hbinds.conn c hlookup).1

/-- A track is subscribed, left and subscribed again with other flags. -/
theorem tables_mirror_resubscribed :
    let video : TrackId := { type := .video, flags := 0, name := [118] }
    let t := (Transport.init true defaultLimits 0).run []
    let s := (start t defaultLimits).run
      [.subscriber (.subscribe video), .deliver Transport.quietRepair,
        .subscriber (.unsubscribe video),
        .subscriber (.subscribe { video with flags := flagFecEnabled }),
        .deliver Transport.quietRepair, .deliver Transport.quietRepair]
    s.refused = [] ∧
      (Keyed.lookup Conn.id s.connId s.publisher.conns).map
          (fun c => c.sendSubscriptions.findByAlias) =
        some s.subscriber.receiveSubscriptions.findByAlias := by
  intro video t s
  have hmirror := tables_mirror true defaultLimits 0 [] defaultLimits
    [.subscriber (.subscribe video), .deliver Transport.quietRepair,
      .subscriber (.unsubscribe video),
      .subscriber (.subscribe { video with flags := flagFecEnabled }),
      .deliver Transport.quietRepair, .deliver Transport.quietRepair]
  have hread : s.read = s.subscriber.control.length := by decide +kernel
  have hthere : (Keyed.lookup Conn.id s.connId s.publisher.conns).isSome = true := by
    decide +kernel
  refine ⟨hmirror.1, ?_⟩
  obtain ⟨c, hc⟩ := Option.isSome_iff_exists.mp hthere
  rw [hc, Option.map_some, hmirror.2 hread c hc]

end Session

end Qlinq
