import Qlinq.Bindings
import Qlinq.IngressFrame

namespace Qlinq

open Replay (replay replay_idle replay_snoc)

/-! What a subscriber writes on its control stream, and the table it keeps. -/

namespace Conn

/-- A step that calls for no subscription. -/
structure Quiet (c c' : Conn) : Prop where
  control : ∃ frames, c'.control = c.control ++ frames ∧
    ∀ frame ∈ frames, frame.message.subscribes = false
  bindings : c'.receiveSubscriptions.findByAlias = c.receiveSubscriptions.findByAlias
  negotiated : c'.negotiatedLimits = c.negotiatedLimits
  helloReceived : c'.helloReceived = c.helloReceived

theorem Quiet.of_same {c c' : Conn} (hcontrol : c'.control = c.control)
    (hbindings : c'.receiveSubscriptions.findByAlias = c.receiveSubscriptions.findByAlias)
    (hnegotiated : c'.negotiatedLimits = c.negotiatedLimits)
    (hhello : c'.helloReceived = c.helloReceived) : Quiet c c' :=
  ⟨⟨[], by rw [hcontrol, List.append_nil], fun _ h => absurd h List.not_mem_nil⟩, hbindings,
    hnegotiated, hhello⟩

theorem Quiet.trans {c c' c'' : Conn} (hfirst : Quiet c c') (hsecond : Quiet c' c'') :
    Quiet c c'' where
  control := by
    obtain ⟨earlier, hearlier, hfirstIdle⟩ := hfirst.control
    obtain ⟨later, hlater, hsecondIdle⟩ := hsecond.control
    refine ⟨earlier ++ later, by rw [hlater, hearlier, List.append_assoc], ?_⟩
    intro frame hmem
    cases List.mem_append.mp hmem with
    | inl hmem => exact hfirstIdle frame hmem
    | inr hmem => exact hsecondIdle frame hmem
  bindings := hsecond.bindings.trans hfirst.bindings
  negotiated := hsecond.negotiated.trans hfirst.negotiated
  helloReceived := hsecond.helloReceived.trans hfirst.helloReceived

theorem frame_quiet : IngressFrame Quiet where
  refl _ := .of_same rfl rfl rfl rfl
  trans := .trans
  closed _ _ := .of_same rfl rfl rfl rfl
  drained _ _ := .of_same rfl rfl rfl rfl
  written c frame _ hreplies := ⟨⟨[frame], rfl, fun other hother => by
    rw [List.mem_singleton.mp hother]
    exact ControlFrame.subscribes_of_replies hreplies⟩, rfl, rfl, rfl⟩
  acceptedWindows _ _ := .of_same rfl rfl rfl rfl
  assemblers _ _ := .of_same rfl rfl rfl rfl
  objectGap _ _ _ _ := .of_same rfl rfl rfl rfl
  stored _ _ _ _ _ _ := .of_same rfl rfl rfl rfl
  marked _ _ _ := .of_same rfl rfl rfl rfl

/-- Replaying what the subscriber wrote gives its table. -/
structure Logged (limit : Nat) (c : Conn) : Prop where
  replayed : replay (Bindings.step limit) Bindings.empty (c.control.map Sent.message) =
    some c.receiveSubscriptions.findByAlias
  limit_eq : c.negotiatedLimits.maxSubscriptionsPerConnection = limit
  helloReceived : c.helloReceived = true

theorem Logged.quiet {c c' : Conn} (hlogged : Logged limit c) (hquiet : Quiet c c') :
    Logged limit c' where
  replayed := by
    obtain ⟨frames, hcontrol, hidle⟩ := hquiet.control
    rw [hcontrol, List.map_append, hquiet.bindings]
    refine replay_idle hlogged.replayed fun message hmem bindings => ?_
    obtain ⟨frame, hframe, rfl⟩ := List.mem_map.mp hmem
    exact Bindings.step_idle (hidle frame hframe) limit bindings
  limit_eq := by rw [hquiet.negotiated, hlogged.limit_eq]
  helloReceived := hquiet.helloReceived.trans hlogged.helloReceived

/-- A frame is appended to the stream, or nothing is written. -/
theorem writeControlFrame_cases (c : Conn) (frame : Sent ControlFrame) :
    (∃ admissions, c.writeControlFrame frame =
        ({ c with control := c.control ++ [frame], admissions := admissions }, true)) ∨
      ∃ c', c.writeControlFrame frame = (c', false) ∧ Quiet c c' ∧
        c'.receiveSubscriptions = c.receiveSubscriptions := by
  unfold writeControlFrame
  split
  · exact Or.inr ⟨c, rfl, frame_quiet.refl c, rfl⟩
  split
  · exact Or.inl ⟨_, rfl⟩
  · refine Or.inr ⟨_, rfl, frame_quiet.trans (frame_quiet.drained c _)
      (frame_quiet.quiclyClose _ _ _), ?_⟩
    unfold quiclyClose
    split <;> rfl

theorem Logged.write {c c' : Conn} (hlogged : Logged limit c) {frame : Sent ControlFrame}
    (hcontrol : c'.control = c.control ++ [frame])
    (hstep : Bindings.step limit c.receiveSubscriptions.findByAlias frame.message =
      some c'.receiveSubscriptions.findByAlias)
    (hnegotiated : c'.negotiatedLimits = c.negotiatedLimits)
    (hhello : c'.helloReceived = c.helloReceived) : Logged limit c' where
  replayed := by
    rw [hcontrol, List.map_append, List.map_singleton, replay_snoc, hlogged.replayed]
    exact hstep
  limit_eq := by rw [hnegotiated, hlogged.limit_eq]
  helloReceived := hhello.trans hlogged.helloReceived

theorem Logged.subscribeConnection {c : Conn} (hlogged : Logged limit c) (track : TrackId) :
    Logged limit (c.subscribeConnection track).1 := by
  unfold Conn.subscribeConnection
  split
  · exact hlogged
  next hvalid =>
  have hvalid : trackIdValid track = true := by
    simp only [Bool.or_eq_true, Bool.not_eq_true', not_or, Bool.not_eq_false] at hvalid
    exact hvalid.1
  split
  · next entry hfind =>
    split
    · exact hlogged
    next hflags =>
    obtain ⟨hbound, hkey⟩ := SubscriptionTable.bound_of_find hfind
    have hsame : entry.trackId = track :=
      TrackId.eq_of_key_of_flags hkey (not_not.mp hflags)
    rw [hsame] at hbound
    rcases writeControlFrame_cases c (c.receiveFrame entry.trackAlias
      (.subscribe entry.trackAlias track)) with ⟨admissions, hwrite⟩ | ⟨c', hwrite, hquiet, _⟩
    · rw [hwrite]
      exact hlogged.write rfl (by simp only [receiveFrame, Bindings.step, hbound, if_true])
        rfl rfl
    · rw [hwrite]
      exact hlogged.quiet hquiet
  next hfind =>
  split
  · exact hlogged
  next hroom =>
  split
  · exact hlogged
  next a _ =>
  split
  · exact hlogged
  next table hadd =>
  extract_lets added
  obtain ⟨hfree, hbindings⟩ := SubscriptionTable.findByAlias_add hfind hadd
  have hunbound : ¬ Bindings.Binds c.receiveSubscriptions.findByAlias track :=
    fun h => (SubscriptionTable.binds_iff _ track).mp h hfind
  have hsize : Bindings.size c.receiveSubscriptions.findByAlias < limit := by
    rw [← SubscriptionTable.count_eq_size, ← hlogged.limit_eq]
    exact Nat.lt_of_not_le hroom
  have hstep : Bindings.step limit c.receiveSubscriptions.findByAlias (.subscribe a track) =
      some table.findByAlias := by
    simp only [Bindings.step, hfree, hvalid, hunbound, hsize, hbindings]
    simp
  rcases writeControlFrame_cases added (added.receiveFrame a (.subscribe a track)) with
    ⟨admissions, hwrite⟩ | ⟨c', hwrite, hquiet, htable⟩
  · rw [hwrite]
    exact hlogged.write rfl hstep rfl rfl
  · rw [hwrite]
    have hbound : table.findByAlias a = some track := by rw [hbindings, Function.update_self]
    refine hlogged.quiet ⟨hquiet.control, ?_, hquiet.negotiated, hquiet.helloReceived⟩
    simp only [htable, added]
    rw [SubscriptionTable.findByAlias_remove hbound, hbindings, Function.update_idem, ← hfree,
      Function.update_eq_self]

theorem Logged.unsubscribeConnection {c : Conn} (hlogged : Logged limit c) (track : TrackId) :
    Logged limit (c.unsubscribeConnection track).1 := by
  unfold Conn.unsubscribeConnection
  split
  · exact hlogged
  split
  · exact hlogged
  next entry hfind =>
  extract_lets a
  have hbound := (SubscriptionTable.bound_of_find hfind).1
  rcases writeControlFrame_cases c (c.receiveFrame a (.unsubscribe a entry.trackId)) with
    ⟨admissions, hwrite⟩ | ⟨c', hwrite, hquiet, _⟩
  · rw [hwrite]
    refine hlogged.write rfl ?_ rfl rfl
    simp only [receiveFrame, Bindings.step, a, hbound, if_true]
    rw [SubscriptionTable.findByAlias_remove hbound]
  · rw [hwrite]
    exact hlogged.quiet hquiet

theorem Logged.receive {c : Conn} (hlogged : Logged limit c) (limits : TransportLimits)
    (op : ReceiveOp) : Logged limit (c.receive limits op) := by
  cases hop : op.ingress with
  | true => exact hlogged.quiet (frame_quiet.receive limits c hop)
  | false =>
      cases op with
      | hello hello =>
          have hrefused : c.receiveHello limits hello = c ∨
              c.receiveHello limits hello = c.protocolClose "protocol error: invalid HELLO" := by
            unfold receiveHello
            split
            · exact Or.inl rfl
            · exact Or.inr (if_pos (Or.inl hlogged.helloReceived))
          cases hrefused with
          | inl hsame => rw [Conn.receive, hsame]; exact hlogged
          | inr hclosed =>
              rw [Conn.receive, hclosed]
              exact hlogged.quiet (frame_quiet.protocolClose c _)
      | respondAuth success =>
          have hquiet : Quiet c (c.respondAuth success) := by
            unfold Conn.respondAuth
            split
            · exact frame_quiet.refl c
            split
            · exact .of_same rfl rfl rfl rfl
            · exact frame_quiet.quiclyClose c _ _
          exact hlogged.quiet hquiet
      | subscribe track => exact hlogged.subscribeConnection track
      | unsubscribe track => exact hlogged.unsubscribeConnection track
      | _ => cases hop

/-! A connection only appends to its control stream. -/

theorem frame_appends : IngressFrame fun c c' => c.control <+: c'.control where
  refl _ := List.prefix_rfl
  trans := List.IsPrefix.trans
  closed _ _ := List.prefix_rfl
  drained _ _ := List.prefix_rfl
  written _ _ _ _ := List.prefix_append ..
  acceptedWindows _ _ := List.prefix_rfl
  assemblers _ _ := List.prefix_rfl
  objectGap _ _ _ _ := List.prefix_rfl
  stored _ _ _ _ _ _ := List.prefix_rfl
  marked _ _ _ := List.prefix_rfl

theorem appends_writeControlFrame (c : Conn) (frame : Sent ControlFrame) :
    c.control <+: (c.writeControlFrame frame).1.control :=
  frame_appends.writeControlFrame c frame fun _ => List.prefix_append ..

theorem appends_subscribeConnection (c : Conn) (track : TrackId) :
    c.control <+: (c.subscribeConnection track).1.control := by
  unfold subscribeConnection
  split
  · exact List.prefix_rfl
  split
  · split
    · exact List.prefix_rfl
    · exact appends_writeControlFrame c _
  split
  · exact List.prefix_rfl
  split
  · exact List.prefix_rfl
  next a _ =>
  split
  · exact List.prefix_rfl
  extract_lets added
  have hwrite := appends_writeControlFrame added (added.receiveFrame a (.subscribe a track))
  split
  · next hwritten =>
      rw [hwritten] at hwrite
      exact hwrite
  · next hfailed =>
      rw [hfailed] at hwrite
      exact hwrite

theorem appends_unsubscribeConnection (c : Conn) (track : TrackId) :
    c.control <+: (c.unsubscribeConnection track).1.control := by
  unfold unsubscribeConnection
  split
  · exact List.prefix_rfl
  split
  · exact List.prefix_rfl
  next entry _ =>
  extract_lets a
  have hwrite := appends_writeControlFrame c (c.receiveFrame a (.unsubscribe a entry.trackId))
  split
  · next hfailed =>
      rw [hfailed] at hwrite
      exact hwrite
  · next hwritten =>
      rw [hwritten] at hwrite
      exact hwrite

theorem appends_receive (c : Conn) (limits : TransportLimits) (op : ReceiveOp) :
    c.control <+: (c.receive limits op).control := by
  cases hop : op.ingress with
  | true => exact frame_appends.receive limits c hop
  | false =>
      cases op with
      | hello hello =>
          have hgreeted : c.control <+: (c.receiveHello limits hello).control := by
            unfold receiveHello
            split
            · exact List.prefix_rfl
            split
            · exact frame_appends.protocolClose c _
            · exact List.prefix_rfl
          exact hgreeted
      | respondAuth success =>
          have hanswered : c.control <+: (c.respondAuth success).control := by
            unfold Conn.respondAuth
            split
            · exact List.prefix_rfl
            split
            · exact List.prefix_rfl
            · exact frame_appends.quiclyClose c _ _
          exact hanswered
      | subscribe track => exact appends_subscribeConnection c track
      | unsubscribe track => exact appends_unsubscribeConnection c track
      | _ => cases hop

end Conn

end Qlinq
