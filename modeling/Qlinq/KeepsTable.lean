import Qlinq.Bindings
import Qlinq.Endpoint
import Qlinq.Following

namespace Qlinq

/-! The table a publisher keeps for one connection. -/

namespace Conn

/-- The bindings stay, and the handshake is not undone. -/
structure KeepsTable (c c' : Conn) : Prop where
  bindings : c'.sendSubscriptions.findByAlias = c.sendSubscriptions.findByAlias
  capacity : c'.sendSubscriptions.capacity = c.sendSubscriptions.capacity
  helloReceived : c.helloReceived = true → c'.helloReceived = true
  authenticated : c.authenticated = true → c'.authenticated = true

namespace KeepsTable

variable {c c' c'' : Conn}

theorem refl (c : Conn) : KeepsTable c c := ⟨rfl, rfl, fun h => h, fun h => h⟩

theorem trans (hfirst : KeepsTable c c') (hsecond : KeepsTable c' c'') : KeepsTable c c'' :=
  ⟨hsecond.bindings.trans hfirst.bindings, hsecond.capacity.trans hfirst.capacity,
    fun h => hsecond.helloReceived (hfirst.helloReceived h),
    fun h => hsecond.authenticated (hfirst.authenticated h)⟩

theorem of_moved (hmoved : Moved c c') : KeepsTable c c' := by
  have hhandshake := hmoved.handshake
  simp only [handshake, Prod.mk.injEq] at hhandshake
  exact ⟨funext hmoved.findByAlias, hmoved.capacity, fun h => hhandshake.1.trans h,
    fun h => hhandshake.2.2.trans h⟩

theorem quiclyClose (c : Conn) (code : AppError) (reason : String) :
    KeepsTable c (c.quiclyClose code reason) :=
  of_moved (moved_quiclyClose c code reason)

end KeepsTable

theorem controlFrames_keepsTable :
    ControlFrames fun c c' => c'.id = c.id ∧ KeepsTable c c' where
  refl c := ⟨rfl, .refl c⟩
  trans hfirst hsecond := ⟨hsecond.1.trans hfirst.1, hfirst.2.trans hsecond.2⟩
  closed _ _ := ⟨rfl, rfl, rfl, fun h => h, fun h => h⟩
  drained _ _ := ⟨rfl, rfl, rfl, fun h => h, fun h => h⟩
  written _ _ _ _ := ⟨rfl, rfl, rfl, fun h => h, fun h => h⟩
  acceptedWindows _ _ := ⟨rfl, rfl, rfl, fun h => h, fun h => h⟩
  assemblers _ _ := ⟨rfl, rfl, rfl, fun h => h, fun h => h⟩
  objectGap _ _ _ _ := ⟨rfl, rfl, rfl, fun h => h, fun h => h⟩
  id_eq hkeeps := hkeeps.1
  events _ _ := ⟨rfl, rfl, rfl, fun h => h, fun h => h⟩
  datagrams _ _ := ⟨rfl, rfl, rfl, fun h => h, fun h => h⟩
  acked _ _ := ⟨rfl, rfl, rfl, fun h => h, fun h => h⟩
  checkpointAck _ _ _ := ⟨rfl, rfl, rfl, fun h => h, fun h => h⟩

end Conn

namespace Transport

open Conn (KeepsTable)

/-- Connection `connId` keeps its table, or is gone. -/
structure KeepsAt (connId : Nat) (t t' : Transport) : Prop where
  nextConnId : t'.nextConnId = t.nextConnId
  conn : ∀ c', Keyed.lookup Conn.id connId t'.conns = some c' →
    ∃ c, Keyed.lookup Conn.id connId t.conns = some c ∧ KeepsTable c c'

namespace KeepsAt

variable {t t' t'' : Transport}

theorem of_conns (hnext : t'.nextConnId = t.nextConnId) (hconns : t'.conns = t.conns) :
    KeepsAt connId t t' :=
  ⟨hnext, fun c' hc' => ⟨c', by rwa [hconns] at hc', .refl c'⟩⟩

theorem refl (t : Transport) : KeepsAt connId t t := of_conns rfl rfl

theorem trans (hfirst : KeepsAt connId t t') (hsecond : KeepsAt connId t' t'') :
    KeepsAt connId t t'' where
  nextConnId := hsecond.nextConnId.trans hfirst.nextConnId
  conn := by
    intro c'' hc''
    obtain ⟨c', hc', hlater⟩ := hsecond.conn c'' hc''
    obtain ⟨c, hc, hkeeps⟩ := hfirst.conn c' hc'
    exact ⟨c, hc, hkeeps.trans hlater⟩

end KeepsAt

theorem keepsAt_of_follows {t t' : Transport}
    (hfollows : FollowsAt (fun c c' => c'.id = c.id ∧ KeepsTable c c') connId t t') :
    KeepsAt connId t t' where
  nextConnId := hfollows.nextConnId
  conn := by
    intro c' hc'
    obtain ⟨c, hc, _, hkeeps⟩ := hfollows.conn c' hc'
    exact ⟨c, hc, hkeeps⟩

theorem keepsAt_updateConn {t : Transport} {other : Nat} {update : Conn → Conn}
    (hid : ∀ c, (update c).id = c.id)
    (hupdate : connId = other → ∀ c, KeepsTable c (update c)) :
    KeepsAt connId t (t.updateConn other update) :=
  keepsAt_of_follows (follows_updateConn (fun c => ⟨rfl, .refl c⟩) hid
    fun hsame c => ⟨hid c, hupdate hsame c⟩)

theorem keepsAt_checkpointMemberRemoved {t : Transport} {c : Conn}
    (hlookup : Keyed.lookup Conn.id other t.conns = some c) (track : TrackId)
    (a : TrackAlias) : KeepsAt connId t (t.checkpointMemberRemoved c track a) :=
  keepsAt_of_follows
    (follows_checkpointMemberRemoved (Conn.controlFrames_keepsTable.framesAt _) hlookup track a)

theorem keepsAt_disconnect (t : Transport) (other : Nat) :
    KeepsAt connId t (t.disconnect other) :=
  keepsAt_of_follows (follows_disconnect (Conn.controlFrames_keepsTable.framesAt _) t)

/-- A frame that binds nothing, or of another connection. -/
theorem keepsAt_receiveControlFrame (t : Transport) (env : RepairEnv) (other : Nat)
    {frame : ControlFrame} (hframe : frame.subscribes = true → connId ≠ other) :
    KeepsAt connId t (t.receiveControlFrame env other frame) :=
  keepsAt_of_follows
    (follows_receiveControlFrame (Conn.controlFrames_keepsTable.framesAt _) t env frame
      (fun _ _ _ _ hsame hbinds => absurd hsame (hframe (by rw [hbinds]; rfl)))
      fun _ _ _ hsame hbinds => absurd hsame (hframe (by rw [hbinds]; rfl)))

theorem ConnsMove.keepsAt (hmove : ConnsMove t t') : KeepsAt connId t t' := by
  refine ⟨hmove.nextConnId, fun c' hc' => ?_⟩
  obtain ⟨c, hc, hsteps⟩ := Keyed.exists_lookup (R := fun c' c => Steps c c')
    (fun _ _ hsteps => hsteps.moved.id_eq.symm) hmove.conns.flip hc'
  exact ⟨c, hc, .of_moved hsteps.moved⟩

/-- An operation that binds nothing on connection `connId`. -/
def Op.spares (connId : Nat) : Op → Prop
  | .connect => False
  | .receive _ other frame => frame.subscribes = true → connId ≠ other
  | _ => True

theorem keepsAt_apply (t : Transport) {op : Op} (hspares : op.spares connId) :
    KeepsAt connId t (t.apply op) := by
  cases op with
  | publish env object => exact (moves_publish t env object).connsMove.keepsAt
  | flush env => exact (moves_flushGrouped t env).connsMove.keepsAt
  | finish env track => exact (connsMove_finishTrack t env track).keepsAt
  | connect => cases hspares
  | hello other hello =>
      refine keepsAt_updateConn (fun c => ?_) fun _ c => ?_
      · unfold Conn.receiveHello
        split
        · rfl
        split
        · exact (Conn.moved_quiclyClose c _ _).id_eq
        · rfl
      · unfold Conn.receiveHello
        split
        · exact .refl c
        split
        · exact .quiclyClose c _ _
        · exact ⟨rfl, rfl, fun _ => rfl, fun h => h⟩
  | respondAuth other success =>
      refine keepsAt_updateConn (fun c => ?_) fun _ c => ?_
      · unfold Conn.respondAuth
        split
        · rfl
        split
        · rfl
        · exact (Conn.moved_quiclyClose c _ _).id_eq
      · unfold Conn.respondAuth
        split
        · exact .refl c
        split
        · exact ⟨rfl, rfl, fun h => h, fun _ => rfl⟩
        · exact .quiclyClose c _ _
  | receive env other frame => exact keepsAt_receiveControlFrame t env other hspares
  | admissions other admissions =>
      exact keepsAt_updateConn (fun _ => rfl) fun _ _ => ⟨rfl, rfl, fun h => h, fun h => h⟩
  | close other code reason =>
      exact keepsAt_updateConn (fun c => (Conn.moved_quiclyClose c code reason).id_eq)
        fun _ c => .quiclyClose c code reason
  | disconnect other => exact keepsAt_disconnect t other

/-- Ids that were not given out have no connection. -/
def Fresh (t : Transport) : Prop :=
  ∀ connId, t.nextConnId ≤ connId → Keyed.lookup Conn.id connId t.conns = none

theorem lookup_connect (t : Transport) (connId : Nat) :
    Keyed.lookup Conn.id connId t.connect.conns =
      (Keyed.lookup Conn.id connId t.conns).or
        (if connId = t.nextConnId then some (Conn.init t.nextConnId t.limits) else none) := by
  unfold connect
  rw [Keyed.lookup_append]
  congr 1
  by_cases hsame : connId = t.nextConnId
  · simp [Keyed.lookup, Conn.init, hsame]
  · have hother : ¬ t.nextConnId = connId := fun h => hsame h.symm
    simp [Keyed.lookup, Conn.init, hsame, hother]

theorem Fresh.keeps {t t' : Transport} (hfresh : Fresh t)
    (hkeeps : ∀ connId, t.nextConnId ≤ connId → KeepsAt connId t t') : Fresh t' := by
  intro connId hnext
  have hsame : t'.nextConnId = t.nextConnId := (hkeeps t.nextConnId (le_refl _)).nextConnId
  rw [hsame] at hnext
  cases hlookup : Keyed.lookup Conn.id connId t'.conns with
  | none => rfl
  | some c' =>
      obtain ⟨c, hc, _⟩ := (hkeeps connId hnext).conn c' hlookup
      rw [hfresh connId hnext] at hc
      cases hc

theorem Fresh.apply {t : Transport} (hfresh : Fresh t) (op : Op) : Fresh (t.apply op) := by
  cases op with
  | connect =>
      intro connId hnext
      have hlater : t.nextConnId + 1 ≤ connId := hnext
      have hother : connId ≠ t.nextConnId := by omega
      exact (lookup_connect t connId).trans (by rw [hfresh connId (by omega), if_neg hother]; rfl)
  | receive env other frame =>
      refine hfresh.keeps fun connId hnext => ?_
      by_cases hsame : connId = other
      · have hnone := hfresh connId hnext
        rw [hsame] at hnone
        have hidle : t.apply (.receive env other frame) = t := by
          simp only [Transport.apply, receiveControlFrame, hnone]
        rw [hidle]
        exact .refl t
      · exact keepsAt_apply t fun _ => hsame
  | _ => exact hfresh.keeps fun connId _ => keepsAt_apply t trivial

theorem Fresh.run {t : Transport} (hfresh : Fresh t) (ops : List Op) : Fresh (t.run ops) := by
  induction ops generalizing t with
  | nil => exact hfresh
  | cons op rest ih => exact ih (hfresh.apply op)

theorem fresh_init (isServer : Bool) (limits : TransportLimits) (maxRecoveryCacheBytes : Nat) :
    Fresh (init isServer limits maxRecoveryCacheBytes) :=
  fun _ _ => rfl

/-- What a publisher's connection binds, once its handshake is over. -/
structure Binds (t : Transport) (connId limit : Nat) (bindings : Bindings) : Prop where
  taken : connId < t.nextConnId
  conn : ∀ c, Keyed.lookup Conn.id connId t.conns = some c →
    c.sendSubscriptions.findByAlias = bindings ∧ limit ≤ c.sendSubscriptions.capacity ∧
      c.helloReceived = true ∧ c.authenticated = true

theorem Binds.keeps {t t' : Transport} (hbinds : Binds t connId limit bindings)
    (hkeeps : KeepsAt connId t t') : Binds t' connId limit bindings where
  taken := by
    rw [hkeeps.nextConnId]
    exact hbinds.taken
  conn := by
    intro c' hc'
    obtain ⟨c, hc, hkept⟩ := hkeeps.conn c' hc'
    obtain ⟨hbindings, hroom, hhello, hauthenticated⟩ := hbinds.conn c hc
    exact ⟨hkept.bindings.trans hbindings, by rwa [hkept.capacity], hkept.helloReceived hhello,
      hkept.authenticated hauthenticated⟩

theorem Binds.apply {t : Transport} (hbinds : Binds t connId limit bindings) {op : Op}
    (hop : ∀ env frame, op ≠ .receive env connId frame) :
    Binds (t.apply op) connId limit bindings := by
  cases op with
  | connect =>
      refine ⟨Nat.lt_succ_of_lt hbinds.taken, fun c hc => hbinds.conn c ?_⟩
      have hlookup : Keyed.lookup Conn.id connId t.connect.conns = some c := hc
      rw [lookup_connect, if_neg (Nat.ne_of_lt hbinds.taken), Option.or_none] at hlookup
      exact hlookup
  | receive env other frame =>
      refine hbinds.keeps (keepsAt_apply t fun _ hsame => ?_)
      subst hsame
      exact hop env frame rfl
  | _ => exact hbinds.keeps (keepsAt_apply t trivial)

/-- The next frame of an honest subscriber is taken. -/
theorem Binds.receive {t : Transport} {c : Conn} (hbinds : Binds t connId limit bindings)
    (hlookup : Keyed.lookup Conn.id connId t.conns = some c) (hopen : c.closed = none)
    (hvalid : bindings.Valid) (env : RepairEnv) {frame : ControlFrame}
    (hstep : Bindings.step limit bindings frame = some next) :
    Binds (t.receiveControlFrame env connId frame) connId limit next ∧
      ∀ a track, frame = .subscribe a track → c.refusesSubscribe a track = false := by
  obtain ⟨hbindings, hroom, hhello, hauthenticated⟩ := hbinds.conn c hlookup
  have hid := (Keyed.mem_of_lookup hlookup).2
  subst hbindings
  cases frame with
  | subscribe a track =>
      obtain ⟨hfree, table, hadd, htable, hcapacity⟩ :=
        SubscriptionTable.add_of_step hroom hvalid hstep
      have htrack : trackIdValid track = true :=
        hvalid.step hstep a track (Bindings.bound_of_subscribe hstep)
      have hcollides : aliasCollides c a track = false := by
        unfold aliasCollides
        split
        · rfl
        · next held hheld =>
            rw [hheld, Option.all_some] at hfree
            simpa using hfree
      have hmoved := moved_checkpointMemberAdded t { c with sendSubscriptions := table } track a
      have hkept := Conn.KeepsTable.of_moved hmoved
      generalize hadded : t.checkpointMemberAdded { c with sendSubscriptions := table } track a =
        added at hmoved hkept
      have hreceived : t.receiveControlFrame env connId (.subscribe a track) =
          t.setConn (added.emit (.subscribe track)) := by
        have hhandled : t.receiveControlFrame env connId (.subscribe a track) =
            t.receiveSubscribe c a track := by
          simp [receiveControlFrame, hlookup, hopen, hhello, hauthenticated, htrack]
        rw [hhandled, receiveSubscribe, hcollides, hadd, ← hadded]
        rfl
      have hid : (added.emit (.subscribe track)).id = c.id := hmoved.id_eq
      refine ⟨?_, fun b other hsame => ?_⟩
      · rw [hreceived]
        refine ⟨hbinds.taken, fun found hfound => ?_⟩
        rw [lookup_setConn_self hlookup hid] at hfound
        obtain rfl := Option.some.inj hfound
        have hsame := hkept.capacity.trans hcapacity
        exact ⟨hkept.bindings.trans htable, hroom.trans (le_of_eq hsame.symm),
          hkept.helloReceived hhello, hkept.authenticated hauthenticated⟩
      · injection hsame with halias htrack
        subst halias htrack
        simp [Conn.refusesSubscribe, hcollides, hadd]
  | unsubscribe a track =>
      obtain ⟨hbound, hnext⟩ := SubscriptionTable.remove_of_step hstep
      have htrack : trackIdValid track = true := hvalid a track hbound
      have hreceived : t.receiveControlFrame env connId (.unsubscribe a track) =
          (t.checkpointMemberRemoved c track a).updateConn c.id fun c =>
            { c with sendSubscriptions := c.sendSubscriptions.remove track }.emit
              (.unsubscribe track) := by
        simp [receiveControlFrame, hlookup, hopen, hhello, hauthenticated, htrack,
          receiveUnsubscribe]
      have hremoved := hbinds.keeps
        (keepsAt_checkpointMemberRemoved hlookup track a)
      refine ⟨?_, fun _ _ h => by cases h⟩
      rw [hreceived]
      refine ⟨hremoved.taken, fun found hfound => ?_⟩
      have hids : ∀ c : Conn, ({ c with sendSubscriptions := c.sendSubscriptions.remove track
        }.emit (.unsubscribe track)).id = c.id := fun _ => rfl
      simp only [updateConn] at hfound
      rw [Keyed.lookup_adjust (fun c hc => (hids c).trans hc), if_pos hid.symm] at hfound
      obtain ⟨kept, hkept, rfl⟩ := Option.map_eq_some_iff.mp hfound
      rw [hid] at hkept
      obtain ⟨hsame, hroom, hhello, hauthenticated⟩ := hremoved.conn kept hkept
      rw [← hsame] at hstep
      exact ⟨(SubscriptionTable.remove_of_step hstep).2, by
        rw [← SubscriptionTable.capacity_remove _ track] at hroom
        exact hroom, hhello, hauthenticated⟩
  | _ =>
      rw [Bindings.step_idle rfl] at hstep
      obtain rfl := Option.some.inj hstep
      exact ⟨hbinds.keeps (keepsAt_receiveControlFrame t env connId fun h => by cases h),
        fun _ _ h => by cases h⟩

end Transport

end Qlinq
