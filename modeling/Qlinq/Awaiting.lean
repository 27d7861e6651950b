import Qlinq.Announcing

namespace Qlinq

/-! Which objects of a track its subscribers still have to acknowledge. -/

namespace Conn

variable {track : TrackId} {a : TrackAlias} {c c' c'' : Conn}

/-- The connection subscribes to the track and has not acknowledged the object.  A peer
without checkpoints never does. -/
def Awaits (track : TrackId) (objectId : Nat) (c : Conn) : Prop :=
  ∃ a ∈ c.sendSubscriptions.findAlias track, c.checkpointCapable = true →
    (c.checkpointAck a).participating = true ∧
      ∀ acked ∈ (c.checkpointAck a).acked, acked.objectId < objectId

instance (track : TrackId) (objectId : Nat) (c : Conn) : Decidable (c.Awaits track objectId) := by
  unfold Awaits
  infer_instance

/-- What holds of a connection while the track has `next` objects: the subscribers whose
peers know checkpoints participate, and what was announced to them exists. -/
structure Participates (track : TrackId) (next : Nat) (c : Conn) : Prop where
  greeted : ∀ a, c.sendSubscriptions.findAlias track = some a → c.helloReceived = true
  member : ∀ a, c.sendSubscriptions.findByAlias a = some track →
    c.checkpointCapable = true → (c.checkpointAck a).participating = true
  reached : ∀ a, c.sendSubscriptions.findAlias track = some a → ∀ mark,
    mark ∈ (c.checkpointAck a).sent ∨ mark ∈ (c.checkpointAck a).acked →
      mark.groupId = 0 ∧ mark.objectId < next

/-- A connection that does not subscribe to the track. -/
theorem participates_of_none (hnone : c.sendSubscriptions.findAlias track = none) (next : Nat) :
    c.Participates track next where
  greeted a halias := by
    rw [hnone] at halias
    cases halias
  member a hbound := by
    rw [SubscriptionTable.findAlias_of_bound hbound] at hnone
    cases hnone
  reached a halias := by
    rw [hnone] at halias
    cases halias

/-! ### Replaced ACK states -/

/-- The ACK state under an alias is replaced, and nothing else that ACKs depend on. -/
structure Restates (a : TrackAlias) (ack : CheckpointAckState) (c c' : Conn) : Prop where
  id_eq : c'.id = c.id
  bindings : ∀ b, c'.sendSubscriptions.findByAlias b = c.sendSubscriptions.findByAlias b
  here : c'.checkpointAck a = ack
  others : ∀ b ≠ a, c'.checkpointAck b = c.checkpointAck b
  helloReceived : c'.helloReceived = c.helloReceived
  peerCapabilities : c'.peerCapabilities = c.peerCapabilities

namespace Restates

variable {ack ack' : CheckpointAckState}

theorem refl (a : TrackAlias) (c : Conn) : Restates a (c.checkpointAck a) c c :=
  ⟨rfl, fun _ => rfl, rfl, fun _ _ => rfl, rfl, rfl⟩

theorem trans (hfirst : Restates a ack c c') (hsecond : Restates a ack' c' c'') :
    Restates a ack' c c'' where
  id_eq := hsecond.id_eq.trans hfirst.id_eq
  bindings b := (hsecond.bindings b).trans (hfirst.bindings b)
  here := hsecond.here
  others b hb := (hsecond.others b hb).trans (hfirst.others b hb)
  helloReceived := hsecond.helloReceived.trans hfirst.helloReceived
  peerCapabilities := hsecond.peerCapabilities.trans hfirst.peerCapabilities

theorem checkpointCapable (hrestates : Restates a ack c c') :
    c'.checkpointCapable = c.checkpointCapable := by
  simp only [Conn.checkpointCapable, hasCapability, hrestates.peerCapabilities]

theorem findAlias (hrestates : Restates a ack c c') (track : TrackId) :
    c'.sendSubscriptions.findAlias track = c.sendSubscriptions.findAlias track := by
  apply Option.ext
  intro b
  simp only [SubscriptionTable.findAlias_eq_some_iff_bound, hrestates.bindings]

/-- Replaced once more, by the state that is there. -/
theorem keep (hrestates : Restates a ack c c') (hid : c''.id = c'.id)
    (htable : c''.sendSubscriptions = c'.sendSubscriptions)
    (hhello : c''.helloReceived = c'.helloReceived)
    (hcapabilities : c''.peerCapabilities = c'.peerCapabilities) : Restates a ack c c'' := by
  have hacks : ∀ b, c''.checkpointAck b = c'.checkpointAck b := by
    intro b
    simp only [checkpointAck, htable]
  refine hrestates.trans ⟨hid, fun b => by rw [htable], ?_, fun b _ => hacks b, hhello,
    hcapabilities⟩
  rw [hacks, hrestates.here]

end Restates

theorem restates_setCheckpointAck (hstate : (c.sendSubscriptions.getState a).isSome = true)
    (ack : CheckpointAckState) : Restates a ack c (c.setCheckpointAck a ack) := by
  refine ⟨rfl, fun _ => rfl, ?_, fun b hb => ?_, rfl, rfl⟩
  · rw [checkpointAck_setCheckpointAck, if_pos ⟨rfl, hstate⟩]
  · rw [checkpointAck_setCheckpointAck, if_neg fun h => hb h.1]

theorem restates_quiclyClose (a : TrackAlias) (c : Conn) (code : AppError) (reason : String) :
    Restates a (c.checkpointAck a) c (c.quiclyClose code reason) := by
  unfold quiclyClose
  split
  · exact .refl a c
  · exact (Restates.refl a c).keep rfl rfl rfl rfl

theorem restates_writeControlFrame (a : TrackAlias) (c : Conn) (frame : Sent ControlFrame) :
    Restates a (c.checkpointAck a) c (c.writeControlFrame frame).1 := by
  unfold writeControlFrame
  split
  · exact .refl a c
  split
  · exact (Restates.refl a c).keep rfl rfl rfl rfl
  · have hclosed := restates_quiclyClose a { c with admissions := c.admissions.tail }
      .resourceLimit "reliable control queue exhausted"
    have hdrained : Restates a (c.checkpointAck a) c { c with admissions := c.admissions.tail } :=
      (Restates.refl a c).keep rfl rfl rfl rfl
    exact hdrained.trans hclosed

/-! ### Stances -/

/-- The connection's subscription of the track stays as it is. -/
structure SameStance (track : TrackId) (c c' : Conn) : Prop where
  id_eq : c'.id = c.id
  findAlias : c'.sendSubscriptions.findAlias track = c.sendSubscriptions.findAlias track
  bound : ∀ a, c.sendSubscriptions.findAlias track = some a →
    c'.sendSubscriptions.findByAlias a = c.sendSubscriptions.findByAlias a
  ack : ∀ a, c.sendSubscriptions.findAlias track = some a → c'.checkpointAck a = c.checkpointAck a
  greeted : c.helloReceived = true →
    c'.helloReceived = true ∧ c'.checkpointCapable = c.checkpointCapable

namespace SameStance

theorem of_bindings (hid : c'.id = c.id)
    (hbindings : ∀ a, c'.sendSubscriptions.findByAlias a = c.sendSubscriptions.findByAlias a)
    (hstates : ∀ a, c'.sendSubscriptions.getState a = c.sendSubscriptions.getState a)
    (hgreeted : c.helloReceived = true →
      c'.helloReceived = true ∧ c'.checkpointCapable = c.checkpointCapable) :
    SameStance track c c' where
  id_eq := hid
  findAlias := by
    apply Option.ext
    intro a
    simp only [SubscriptionTable.findAlias_eq_some_iff_bound, hbindings]
  bound a _ := hbindings a
  ack a _ := by simp only [checkpointAck, hstates]
  greeted := hgreeted

theorem of_table (hid : c'.id = c.id) (htable : c'.sendSubscriptions = c.sendSubscriptions)
    (hhello : c'.helloReceived = c.helloReceived)
    (hcapabilities : c'.peerCapabilities = c.peerCapabilities) : SameStance track c c' :=
  .of_bindings hid (fun _ => by rw [htable]) (fun _ => by rw [htable]) fun h =>
    ⟨hhello.trans h, by simp only [checkpointCapable, hasCapability, hcapabilities]⟩

theorem refl (track : TrackId) (c : Conn) : SameStance track c c := .of_table rfl rfl rfl rfl

theorem trans (hfirst : SameStance track c c') (hsecond : SameStance track c' c'') :
    SameStance track c c'' where
  id_eq := hsecond.id_eq.trans hfirst.id_eq
  findAlias := hsecond.findAlias.trans hfirst.findAlias
  bound a halias := (hsecond.bound a (hfirst.findAlias.trans halias)).trans (hfirst.bound a halias)
  ack a halias := (hsecond.ack a (hfirst.findAlias.trans halias)).trans (hfirst.ack a halias)
  greeted hhello := by
    obtain ⟨hgreeted, hcapable⟩ := hfirst.greeted hhello
    obtain ⟨hgreeted', hcapable'⟩ := hsecond.greeted hgreeted
    exact ⟨hgreeted', hcapable'.trans hcapable⟩

/-- Another alias is restated, or the track's own state is put back. -/
theorem of_restates {ack : CheckpointAckState} (hrestates : Restates a ack c c')
    (hsame : c.sendSubscriptions.findAlias track = some a → ack = c.checkpointAck a) :
    SameStance track c c' where
  id_eq := hrestates.id_eq
  findAlias := hrestates.findAlias track
  bound b _ := hrestates.bindings b
  ack b halias := by
    cases decEq b a with
    | isTrue hb =>
        subst hb
        exact hrestates.here.trans (hsame halias)
    | isFalse hb => exact hrestates.others b hb
  greeted hhello := ⟨hrestates.helloReceived.trans hhello, hrestates.checkpointCapable⟩

end SameStance

/-- Recovery frames of the peer do not touch what this side publishes. -/
theorem receiveFrame_sameStance (track : TrackId) : ReceiveFrame (SameStance track) where
  refl c := .refl track c
  trans hfirst hsecond := hfirst.trans hsecond
  closed _ _ := .of_table rfl rfl rfl rfl
  drained _ _ := .of_table rfl rfl rfl rfl
  written _ _ _ _ := .of_table rfl rfl rfl rfl
  acceptedWindows _ _ := .of_table rfl rfl rfl rfl
  assemblers _ _ := .of_table rfl rfl rfl rfl
  objectGap _ _ _ _ := .of_table rfl rfl rfl rfl

theorem sameStance_quiclyClose (track : TrackId) (c : Conn) (code : AppError) (reason : String) :
    SameStance track c (c.quiclyClose code reason) :=
  (receiveFrame_sameStance track).quiclyClose c code reason

/-- A HELLO that is accepted comes before every subscription. -/
theorem sameStance_receiveHello (track : TrackId) (c : Conn) (limits : TransportLimits)
    (hello : Hello) : SameStance track c (c.receiveHello limits hello) := by
  unfold receiveHello
  split
  · exact .refl track c
  split
  · exact (receiveFrame_sameStance track).protocolClose c _
  · next hfirst =>
      rw [not_or] at hfirst
      exact .of_bindings rfl (fun _ => rfl) (fun _ => rfl) fun h => absurd h hfirst.1

theorem sameStance_respondAuth (track : TrackId) (c : Conn) (success : Bool) :
    SameStance track c (c.respondAuth success) := by
  unfold respondAuth
  split
  · exact .refl track c
  split
  · exact .of_table rfl rfl rfl rfl
  · exact sameStance_quiclyClose track c _ _

theorem sameStance_of_publishes (hpublishes : Publishes object geometry c c') :
    SameStance track c c' := by
  have hkept := Transport.unannounced_of_publishes hpublishes
  exact .of_bindings hkept.id_eq hkept.bindings hkept.states fun h =>
    ⟨hpublishes.helloReceived_eq.trans h, hkept.checkpointCapable⟩

/-! ### Steps by which no subscriber comes to await less -/

/-- Whoever awaited an object of the track still does. -/
structure Heeds (track : TrackId) (next next' : Nat) (c c' : Conn) : Prop where
  id_eq : c'.id = c.id
  member : c.Participates track next → c'.Participates track next'
  awaits : c.Participates track next → ∀ objectId, c.Awaits track objectId →
    c'.Awaits track objectId

theorem Heeds.trans (hfirst : Heeds track next next' c c')
    (hsecond : Heeds track next' next'' c' c'') : Heeds track next next'' c c'' where
  id_eq := hsecond.id_eq.trans hfirst.id_eq
  member h := hsecond.member (hfirst.member h)
  awaits h objectId hawaits :=
    hsecond.awaits (hfirst.member h) objectId (hfirst.awaits h objectId hawaits)

theorem SameStance.heeds (hsame : SameStance track c c') (hle : next ≤ next') :
    Heeds track next next' c c' where
  id_eq := hsame.id_eq
  member hmember := by
    refine ⟨fun a halias => ?_, fun a hbound hcapable => ?_, fun a halias mark hmark => ?_⟩
    · rw [hsame.findAlias] at halias
      exact (hsame.greeted (hmember.greeted a halias)).1
    · have halias := SubscriptionTable.findAlias_of_bound hbound
      rw [hsame.findAlias] at halias
      rw [hsame.bound a halias] at hbound
      rw [(hsame.greeted (hmember.greeted a halias)).2] at hcapable
      rw [hsame.ack a halias]
      exact hmember.member a hbound hcapable
    · rw [hsame.findAlias] at halias
      rw [hsame.ack a halias] at hmark
      obtain ⟨hgroup, hbelow⟩ := hmember.reached a halias mark hmark
      exact ⟨hgroup, hbelow.trans_le hle⟩
  awaits hmember objectId hawaits := by
    obtain ⟨a, halias, hwaits⟩ := hawaits
    refine ⟨a, hsame.findAlias.trans halias, fun hcapable => ?_⟩
    rw [(hsame.greeted (hmember.greeted a halias)).2] at hcapable
    rw [hsame.ack a halias]
    exact hwaits hcapable

/-- A subscriber's ACK state is replaced by one of a member. -/
theorem participates_of_restates {ack : CheckpointAckState} (hrestates : Restates a ack c c')
    (hhello : c.helloReceived = true) (halias : c.sendSubscriptions.findAlias track = some a)
    (hmember : c.sendSubscriptions.findByAlias a = some track → c.checkpointCapable = true →
      ack.participating = true)
    (hreached : ∀ mark, mark ∈ ack.sent ∨ mark ∈ ack.acked →
      mark.groupId = 0 ∧ mark.objectId < next) : c'.Participates track next := by
  have honly : ∀ b, c'.sendSubscriptions.findAlias track = some b → b = a := by
    intro b hb
    rw [hrestates.findAlias, halias] at hb
    exact (Option.some.inj hb).symm
  refine ⟨fun b _ => hrestates.helloReceived.trans hhello, fun b hb hcapable => ?_,
    fun b hb mark hmark => ?_⟩
  · obtain rfl := honly b (SubscriptionTable.findAlias_of_bound hb)
    rw [hrestates.bindings] at hb
    rw [hrestates.checkpointCapable] at hcapable
    rw [hrestates.here]
    exact hmember hb hcapable
  · obtain rfl := honly b hb
    rw [hrestates.here] at hmark
    exact hreached mark hmark

/-- Under an ACK state that has acknowledged no more than the one it replaces. -/
theorem heeds_of_restates {ack : CheckpointAckState} (hrestates : Restates a ack c c')
    (halias : c.sendSubscriptions.findAlias track = some a) (hle : next ≤ next')
    (hmember : ack.participating = true)
    (hacked : (c.checkpointAck a).participating = true →
      ∀ acked ∈ ack.acked, acked ∈ (c.checkpointAck a).acked)
    (hreached : ∀ mark, mark ∈ ack.sent ∨ mark ∈ ack.acked →
      mark ∈ (c.checkpointAck a).sent ∨ mark ∈ (c.checkpointAck a).acked ∨
        mark.groupId = 0 ∧ mark.objectId < next') :
    Heeds track next next' c c' where
  id_eq := hrestates.id_eq
  member hhere := by
    have hkept : ∀ mark, mark ∈ (c.checkpointAck a).sent ∨ mark ∈ (c.checkpointAck a).acked →
        mark.groupId = 0 ∧ mark.objectId < next' := fun mark hmark =>
      ⟨(hhere.reached a halias mark hmark).1,
        (hhere.reached a halias mark hmark).2.trans_le hle⟩
    refine participates_of_restates hrestates (hhere.greeted a halias) halias
      (fun _ _ => hmember) fun mark hmark => ?_
    rcases hreached mark hmark with hsent | hold | hnew
    · exact hkept mark (Or.inl hsent)
    · exact hkept mark (Or.inr hold)
    · exact hnew
  awaits _ objectId hawaits := by
    obtain ⟨b, hb, hwaits⟩ := hawaits
    obtain rfl := Option.some.inj (halias.symm.trans hb)
    refine ⟨a, (hrestates.findAlias track).trans halias, fun hcapable => ?_⟩
    rw [hrestates.checkpointCapable] at hcapable
    obtain ⟨hparticipating, hbehind⟩ := hwaits hcapable
    rw [hrestates.here]
    exact ⟨hmember, fun acked hmark => hbehind acked (hacked hparticipating acked hmark)⟩

end Conn

namespace Transport

open Conn

variable {track : TrackId} {a : TrackAlias} {c : Conn}

/-! ### Members -/

/-- The state of a member that joins: its baseline counts as acknowledged. -/
structure Joins (t : Transport) (track : TrackId) (ack : CheckpointAckState) : Prop where
  participating : ack.participating = true
  sent : ack.sent = ack.acked
  acked : ∀ mark ∈ ack.acked, t.checkpointOf track = some mark

/-- A member whose peer knows checkpoints joins; nothing happens to any other. -/
theorem restates_checkpointMemberAdded (t : Transport) (c : Conn) (track : TrackId)
    (a : TrackAlias) :
    ∃ ack, Restates a ack c (t.checkpointMemberAdded c track a) ∧
      (ack = c.checkpointAck a ∧
          (c.checkpointCapable = true → track.isRatelessData = true →
            (c.sendSubscriptions.getState a).isSome = true → False) ∨
        Joins t track ack) := by
  unfold checkpointMemberAdded
  extract_lets reset joined
  have hreset : Restates a (c.checkpointAck a) c reset := by
    simp only [reset]
    split
    · exact (Restates.refl a c).keep rfl rfl rfl rfl
    · exact .refl a c
  have htable : reset.sendSubscriptions = c.sendSubscriptions := by
    simp only [reset]
    split <;> rfl
  have hcapable : reset.checkpointCapable = c.checkpointCapable := hreset.checkpointCapable
  split
  · next hplain =>
      refine ⟨_, hreset, Or.inl ⟨rfl, fun h hrateless _ => ?_⟩⟩
      rw [hcapable, h, hrateless] at hplain
      simp at hplain
  split
  · next hnone =>
      refine ⟨_, hreset, Or.inl ⟨rfl, fun _ _ h => ?_⟩⟩
      rw [htable, Option.isNone_iff_eq_none] at hnone
      rw [hnone] at h
      cases h
  next hstate =>
  have hstate : (reset.sendSubscriptions.getState a).isSome = true := by
    simpa [Option.isSome_iff_ne_none] using hstate
  have hjoined := hreset.trans (restates_setCheckpointAck hstate { participating := true })
  split
  · exact ⟨_, hjoined, Or.inr ⟨rfl, rfl, fun mark hmark => by cases hmark⟩⟩
  next last hlast =>
  have hwritten := restates_writeControlFrame a joined
    (joined.sendFrame track a (.trackCheckpoint
      { trackAlias := a
        baseline := true
        groupId := last.groupId
        firstObjectId := last.objectId
        finalObjectId := last.objectId }))
  rw [hjoined.here] at hwritten
  split
  · next hfailed =>
      rw [hfailed] at hwritten
      exact ⟨_, hjoined.trans hwritten, Or.inr ⟨rfl, rfl, fun mark hmark => by cases hmark⟩⟩
  · next written hsent =>
      rw [hsent] at hwritten
      have hreached := hjoined.trans hwritten
      have hstate : (written.sendSubscriptions.getState a).isSome = true := by
        rw [SubscriptionTable.getState_isSome_iff] at hstate ⊢
        obtain ⟨bound, hbound⟩ := hstate
        refine ⟨bound, ?_⟩
        rw [hreached.bindings, ← htable]
        exact hbound
      refine ⟨_, hreached.trans (restates_setCheckpointAck hstate _),
        Or.inr ⟨rfl, rfl, fun mark hmark => ?_⟩⟩
      obtain rfl := Option.some.inj hmark
      exact hlast

theorem getState_isSome_of_findAlias
    (halias : c.sendSubscriptions.findAlias track = some a) :
    (c.sendSubscriptions.getState a).isSome = true := by
  obtain ⟨bound, hbound, _⟩ := SubscriptionTable.findAlias_eq_some_iff_bound.mp halias
  exact SubscriptionTable.getState_isSome_iff.mpr ⟨bound, hbound⟩

/-- A recipient of an announcement participates from then on, if it did not before. -/
theorem heeds_memberOf {t : Transport} (halias : c.sendSubscriptions.findAlias track = some a)
    (hcapable : c.checkpointCapable = true) (hrateless : track.isRatelessData = true)
    (hmarked : ∀ mark, t.checkpointOf track = some mark → mark.groupId = 0 ∧ mark.objectId < next')
    (hle : next ≤ next') :
    let member := if (c.checkpointAck a).participating = true then c
      else t.checkpointMemberAdded c track a
    Heeds track next next' c member ∧ member.sendSubscriptions.findAlias track = some a ∧
      (member.checkpointAck a).participating = true := by
  simp only
  split
  · next hmember => exact ⟨(SameStance.refl track c).heeds hle, halias, hmember⟩
  · next habsent =>
      obtain ⟨ack, hrestates, hack⟩ := restates_checkpointMemberAdded t c track a
      have hjoins : Joins t track ack := by
        rcases hack with ⟨_, hplain⟩ | hjoins
        · exact (hplain hcapable hrateless (getState_isSome_of_findAlias halias)).elim
        · exact hjoins
      refine ⟨heeds_of_restates hrestates halias hle hjoins.participating
        (fun h => absurd h habsent) fun mark hmark => Or.inr (Or.inr (hmarked mark ?_)),
        (hrestates.findAlias track).trans halias, ?_⟩
      · rw [hjoins.sent, or_self] at hmark
        exact hjoins.acked mark hmark
      · rw [hrestates.here]
        exact hjoins.participating

/-- The announcement is marked as sent. -/
theorem heeds_markSent (halias : c.sendSubscriptions.findAlias track = some a)
    (hmember : (c.checkpointAck a).participating = true) (hbelow : objectId < next) :
    Heeds track next next c
      (c.setCheckpointAck a ((c.checkpointAck a).checkpointMarkSent 0 objectId)) := by
  refine heeds_of_restates (restates_setCheckpointAck (getState_isSome_of_findAlias halias) _)
    halias (le_refl next) hmember (fun _ _ h => h) fun mark hmark => ?_
  cases hmark with
  | inl hsent =>
      obtain rfl := Option.some.inj hsent
      exact Or.inr (Or.inr ⟨rfl, hbelow⟩)
  | inr hacked => exact Or.inr (Or.inl hacked)

theorem heeds_writeControlFrame (track : TrackId) (next : Nat) (c : Conn)
    (frame : Sent ControlFrame) : Heeds track next next c (c.writeControlFrame frame).1 :=
  (SameStance.of_restates (restates_writeControlFrame 0 c frame) fun _ => rfl).heeds (le_refl next)

theorem heeds_emitCheckpointTo {t : Transport} (hrateless : track.isRatelessData = true)
    (hmarked : ∀ mark, t.checkpointOf track = some mark → mark.groupId = 0 ∧ mark.objectId < next')
    (hle : next ≤ next') (hbelow : finalObjectId < next') (firstObjectId : Nat) (c : Conn) :
    Heeds track next next' c (t.emitCheckpointTo track 0 firstObjectId finalObjectId c) := by
  have hskipped : Heeds track next next' c c := (SameStance.refl track c).heeds hle
  unfold emitCheckpointTo
  split
  · exact hskipped
  next hserved =>
  split
  · exact hskipped
  next a halias =>
  have hcapable : c.checkpointCapable = true := by
    simp only [Bool.or_eq_true, Bool.not_eq_true', not_or, Bool.not_eq_false] at hserved
    exact hserved.2
  obtain ⟨hheeds, halias, hmember⟩ := heeds_memberOf halias hcapable hrateless hmarked hle
  extract_lets member
  generalize member.sendFrame track a _ = frame
  have hwritten := heeds_writeControlFrame track next' member frame
  have hrestates := restates_writeControlFrame a member frame
  split
  · next hfailed =>
      rw [hfailed] at hwritten
      exact hheeds.trans hwritten
  · next written hsent =>
      rw [hsent] at hwritten hrestates
      refine (hheeds.trans hwritten).trans (heeds_markSent ?_ ?_ hbelow)
      · exact (hrestates.findAlias track).trans halias
      · rw [hrestates.here]
        exact hmember

theorem heeds_finishTrackTo {t : Transport} (hrateless : track.isRatelessData = true)
    (hmarked : ∀ mark, t.checkpointOf track = some mark → mark.groupId = 0 ∧ mark.objectId < next)
    (hbelow : finalObjectId < next) (c : Conn) :
    Heeds track next next c (t.finishTrackTo track finalObjectId c).1 := by
  have hskipped : Heeds track next next c c := (SameStance.refl track c).heeds (le_refl next)
  unfold finishTrackTo
  split
  · exact hskipped
  split
  · exact hskipped
  next a halias =>
  generalize c.sendFrame track a _ = frame
  have hwritten := heeds_writeControlFrame track next c frame
  have hrestates := restates_writeControlFrame a c frame
  split
  · next hfailed =>
      rw [hfailed] at hwritten
      exact hwritten
  · next written hsent =>
      rw [hsent] at hwritten hrestates
      split
      · exact hwritten
      next hcapable =>
      have halias : written.sendSubscriptions.findAlias track = some a :=
        (hrestates.findAlias track).trans halias
      obtain ⟨hheeds, halias, hmember⟩ := heeds_memberOf halias (by simpa using hcapable) hrateless
        hmarked (le_refl next)
      exact (hwritten.trans hheeds).trans (heeds_markSent halias hmember hbelow)

end Transport

end Qlinq
