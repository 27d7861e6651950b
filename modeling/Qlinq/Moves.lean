import Mathlib.Logic.Relation
import Qlinq.PublishEffects
import Qlinq.Publisher

namespace Qlinq

/-! The moves that publications, flushes and completions are made of. -/

namespace Transport

/-- Only the grouping buffer and the recipients' delivery marks differ; a group is
begun by a record of a DATA track. -/
structure Regroups (t t' : Transport) : Prop where
  isServer : t'.isServer = t.isServer
  limits : t'.limits = t.limits
  nextConnId : t'.nextConnId = t.nextConnId
  sentCache : t'.sentCache = t.sentCache
  fecTracks : t'.fecTracks = t.fecTracks
  published : t'.published = t.published
  fecTrackId : t'.fecBuf ≠ [] →
    t.fecBuf ≠ [] ∧ t'.fecTrackId = t.fecTrackId ∨ t'.fecTrackId.type = .data
  conns : ∃ mark : Conn → Bool,
    t'.conns = t.conns.map fun c => { c with fecGroupDelivered := mark c }

theorem regroups_conns (t : Transport) :
    t.conns = t.conns.map fun c => { c with fecGroupDelivered := c.fecGroupDelivered } :=
  (List.map_id t.conns).symm

theorem regroups_attempting (t : Transport) : Regroups t t.attempting :=
  ⟨rfl, rfl, rfl, rfl, rfl, rfl, fun h => Or.inl ⟨h, rfl⟩, _, regroups_conns t⟩

theorem regroups_beginGroup {t : Transport} (hgroups : object.trackId.type = .data) :
    Regroups t (t.beginGroup object) := by
  unfold beginGroup
  split
  · exact ⟨rfl, rfl, rfl, rfl, rfl, rfl, fun _ => Or.inr hgroups, fun _ => false, rfl⟩
  · exact ⟨rfl, rfl, rfl, rfl, rfl, rfl, fun h => Or.inl ⟨h, rfl⟩, _, regroups_conns t⟩

/-- Behind the beginning of its group a record is appended. -/
theorem regroups_appendRecord {t t' : Transport} (hgroups : object.trackId.type = .data)
    (happend : (t.beginGroup object).appendRecord grows object = some t') :
    Regroups t t' := by
  unfold appendRecord at happend
  simp only at happend
  split at happend
  · cases happend
  obtain rfl := Option.some.inj happend
  unfold beginGroup
  split
  · exact ⟨rfl, rfl, rfl, rfl, rfl, rfl, fun _ => Or.inr hgroups, fun _ => false, rfl⟩
  · next hbuffer =>
      exact ⟨rfl, rfl, rfl, rfl, rfl, rfl, fun _ => Or.inl ⟨hbuffer, rfl⟩, _,
        regroups_conns t⟩

inductive Move : Transport → Transport → Prop
  | regrouped (hregroups : Regroups t t') : Move t t'
  | slotted (hslot : t.createFecTrackState track = some (t', state)) : Move t t'
  /-- A record that is not grouped. -/
  | direct (hgroups : t.groupsRecords object.trackId = false)
      (hattempt : t.publishUngrouped env object false = (t', result)) : Move t t'
  /-- A flush that does not get its group out. -/
  | failed (hbuffer : t.fecBuf ≠ []) (hfound : t.findFecTrackState t.fecTrackId = some state)
      (hattempt : t.publishUngrouped env (t.groupObject state) true = (t', result))
      (hresult : result ≠ .delivered ∧ result ≠ .noRecipients) : Move t t'
  | committed (hbuffer : t.fecBuf ≠ [])
      (hfound : t.findFecTrackState t.fecTrackId = some state)
      (hattempt : t.publishUngrouped env (t.groupObject state) true = (attempted, result))
      (hresult : result = .delivered ∨ result = .noRecipients) :
      Move t (attempted.commitGroup state (t.groupObject state))

abbrev Moves : Transport → Transport → Prop := Relation.ReflTransGen Move

theorem Moves.preserves {Inv : Transport → Prop} (hmoves : Moves t t')
    (hmove : ∀ t t', Move t t' → Inv t → Inv t') (hstart : Inv t) : Inv t' := by
  induction hmoves with
  | refl => exact hstart
  | tail _ hlast ih => exact hmove _ _ hlast ih

theorem find_created {t slotted : Transport}
    (hslot : t.createFecTrackState track = some (slotted, state)) :
    slotted.findFecTrackState track = some state := by
  cases createFecTrackState_cases hslot with
  | inl hfound =>
      obtain ⟨rfl, hfound⟩ := hfound
      exact hfound
  | inr hfresh =>
      obtain ⟨hnone, _, rfl, rfl⟩ := hfresh
      unfold findFecTrackState at hnone ⊢
      rw [Keyed.lookup_append, hnone, Option.none_or]
      simp [Keyed.lookup]

/-- A slot leaves the buffer alone. -/
theorem slotted_buffer {t slotted : Transport}
    (hslot : t.createFecTrackState track = some (slotted, state)) :
    slotted.fecBuf = t.fecBuf ∧ slotted.fecTrackId = t.fecTrackId := by
  cases createFecTrackState_cases hslot with
  | inl hfound =>
      obtain ⟨rfl, _⟩ := hfound
      exact ⟨rfl, rfl⟩
  | inr hfresh =>
      obtain ⟨_, _, _, rfl⟩ := hfresh
      exact ⟨rfl, rfl⟩

theorem conns_slotted {t slotted : Transport}
    (hslot : t.createFecTrackState track = some (slotted, state)) :
    slotted.conns = t.conns ∧ slotted.nextConnId = t.nextConnId := by
  cases createFecTrackState_cases hslot with
  | inl hfound =>
      obtain ⟨rfl, _⟩ := hfound
      exact ⟨rfl, rfl⟩
  | inr hfresh =>
      obtain ⟨_, _, _, rfl⟩ := hfresh
      exact ⟨rfl, rfl⟩

/-- The group is in the buffer and its track has a slot when it is attempted. -/
theorem moves_attempting {t slotted : Transport} (hbuffer : t.fecBuf ≠ [])
    (hslot : t.createFecTrackState t.fecTrackId = some (slotted, state)) :
    Moves t slotted.attempting ∧ slotted.attempting.fecBuf ≠ [] ∧
      slotted.attempting.findFecTrackState slotted.attempting.fecTrackId = some state := by
  obtain ⟨hbuf, htrack⟩ := slotted_buffer hslot
  have hfound := find_created hslot
  rw [← htrack] at hfound
  exact ⟨.tail (.single (.slotted hslot)) (.regrouped (regroups_attempting slotted)),
    fun h => hbuffer (hbuf.symm.trans h), hfound⟩

theorem Flushed.moves (hflushed : Flushed t env t' result) : Moves t t' := by
  cases hflushed with
  | empty hempty => exact .refl
  | noSlot hbuffer hslot => exact .refl
  | failed hbuffer hslot hattempt hdelivered hnobody =>
      obtain ⟨hmoves, hbuffer, hfound⟩ := moves_attempting hbuffer hslot
      exact hmoves.tail (.failed hbuffer hfound hattempt ⟨hdelivered, hnobody⟩)
  | committed hbuffer hslot hattempt hresult =>
      obtain ⟨hmoves, hbuffer, hfound⟩ := moves_attempting hbuffer hslot
      exact hmoves.tail (.committed hbuffer hfound hattempt hresult)

theorem moves_flushGrouped (t : Transport) (env : FlushEnv) :
    Moves t (t.flushGrouped env).1 :=
  (flushed t env).moves

theorem moves_of_flush {t : Transport} (hflush : t.flushGrouped env = (t', result)) :
    Moves t t' := by
  have hmoves := moves_flushGrouped t env
  rw [hflush] at hmoves
  exact hmoves

theorem Room.moves (hroom : Room t env object limit t') : Moves t t' := by
  cases hroom with
  | here hforeign hfull => exact .refl
  | emptied hdue hflush => exact moves_of_flush hflush

theorem Staged.moves (hgroups : object.trackId.type = .data)
    (hstaged : Staged t env object limit t' stop) : Moves t t' := by
  cases hstaged with
  | refused hdue hflush hresult => exact moves_of_flush hflush
  | unallocated hroom happend =>
      exact hroom.moves.tail (.regrouped (regroups_beginGroup hgroups))
  | appended hroom happend =>
      exact hroom.moves.tail (.regrouped (regroups_appendRecord hgroups happend))

theorem type_of_groupsRecords {t : Transport} (hgroups : t.groupsRecords track = true) :
    track.type = .data := by
  simp only [groupsRecords, Bool.and_eq_true, beq_iff_eq] at hgroups
  exact hgroups.1

theorem moves_stageRecord {t : Transport} (hgroups : t.groupsRecords object.trackId = true)
    (hstage : t.stageRecord env object = (t', stop)) : Moves t t' := by
  have hmoves := (staged t env object).moves (type_of_groupsRecords hgroups)
  rw [hstage] at hmoves
  exact hmoves

theorem Published.moves (hpublished : Published t env object t' result) : Moves t t' := by
  cases hpublished with
  | refused hinvalid => exact .refl
  | direct hconflict hgroups hattempt => exact .single (.direct hgroups hattempt)
  | oversized hgroups => exact .refl
  | unstaged hgroups hstage => exact moves_stageRecord hgroups hstage
  | buffered hgroups hsize hstage => exact moves_stageRecord hgroups hstage
  | completed hgroups hsize hstage hcomplete hflush =>
      exact (moves_stageRecord hgroups hstage).trans (moves_of_flush hflush)

theorem moves_publish (t : Transport) (env : PublishEnv) (object : MoqObject) :
    Moves t (t.publish env object).1 :=
  (published_cases t env object).moves

theorem Settled.moves (hsettled : Settled t env track t') : Moves t t' := by
  cases hsettled with
  | here hother => exact .refl
  | flushed hpending hflush => exact moves_of_flush hflush

/-! ### Conditions on flushes -/

/-- The condition holds wherever the step flushes the buffer: before a record, behind it,
or before a completion. -/
def FlushesUnder (P : Transport → Prop) (t : Transport) : Op → Prop
  | .publish env object => t.groupsRecords object.trackId = true →
      ((t.groupForeign object || t.groupFull object
          (groupLimit (t.publicationFecLimit object.trackId))) = true → P t) ∧
        ((t.stageRecord env object).2 = none → (t.stageRecord env object).1.groupComplete
          (groupLimit (t.publicationFecLimit object.trackId)) = true →
          P (t.stageRecord env object).1)
  | .flush _ => P t
  | .finish _ track => t.fecTrackId = track → P t
  | _ => True

instance {P : Transport → Prop} [DecidablePred P] (t : Transport) (op : Op) :
    Decidable (t.FlushesUnder P op) := by
  cases op <;> unfold FlushesUnder <;> infer_instance

/-- What flushes that meet a condition keep, and everything else that publications do. -/
structure FlushInvariant (Inv P : Transport → Prop) : Prop where
  flush : ∀ {t t' : Transport} {env result}, Inv t → P t → Flushed t env t' result → Inv t'
  regrouped : ∀ {t t' : Transport}, Inv t → Regroups t t' → Inv t'
  direct : ∀ {t t' : Transport} {env object result}, Inv t →
    t.groupsRecords object.trackId = false →
    t.publishUngrouped env object false = (t', result) → Inv t'

namespace FlushInvariant

variable {Inv P : Transport → Prop} {t t' : Transport}

theorem of_flush (hinv : FlushInvariant Inv P) (hstart : Inv t) (hP : P t)
    (hflush : t.flushGrouped env = (t', result)) : Inv t' := by
  have hflushed := Transport.flushed t env
  rw [hflush] at hflushed
  exact hinv.flush hstart hP hflushed

theorem staged (hinv : FlushInvariant Inv P) (hstart : Inv t)
    (hgroups : object.trackId.type = .data)
    (hP : (t.groupForeign object || t.groupFull object limit) = true → P t)
    (hstaged : Staged t env object limit t' stop) : Inv t' := by
  have hroomy : ∀ {s}, Room t env.before object limit s → Inv s := by
    intro s hroom
    cases hroom with
    | here hforeign hfull => exact hstart
    | emptied hdue hflush => exact hinv.of_flush hstart (hP hdue) hflush
  cases hstaged with
  | refused hdue hflush hresult => exact hinv.of_flush hstart (hP hdue) hflush
  | unallocated hroom happend =>
      exact hinv.regrouped (hroomy hroom) (regroups_beginGroup hgroups)
  | appended hroom happend =>
      exact hinv.regrouped (hroomy hroom) (regroups_appendRecord hgroups happend)

theorem publish (hinv : FlushInvariant Inv P) (hstart : Inv t) (env : PublishEnv)
    (object : MoqObject) (hP : t.FlushesUnder P (.publish env object)) :
    Inv (t.publish env object).1 := by
  simp only [FlushesUnder] at hP
  have hcases := published_cases t env object
  revert hcases
  generalize (t.publish env object).1 = t'
  generalize (t.publish env object).2 = result
  intro hcases
  have hstaged : t.groupsRecords object.trackId = true →
      Inv (t.stageRecord env object).1 := fun hgroups =>
    hinv.staged hstart (type_of_groupsRecords hgroups) (hP hgroups).1 (Transport.staged t env object)
  cases hcases with
  | refused hinvalid => exact hstart
  | direct hconflict hgroups hattempt => exact hinv.direct hstart hgroups hattempt
  | oversized hgroups => exact hstart
  | unstaged hgroups hstage =>
      have hreached := hstaged hgroups
      rwa [hstage] at hreached
  | buffered hgroups hsize hstage =>
      have hreached := hstaged hgroups
      rwa [hstage] at hreached
  | completed hgroups hsize hstage hcomplete hflush =>
      have hreached := hstaged hgroups
      have hbehind := (hP hgroups).2
      rw [hstage] at hreached hbehind
      exact hinv.of_flush hreached (hbehind rfl hcomplete) hflush

theorem settled (hinv : FlushInvariant Inv P) (hstart : Inv t)
    (hP : t.fecTrackId = track → P t) (hsettled : Settled t env track t') : Inv t' := by
  cases hsettled with
  | here hother => exact hstart
  | flushed hpending hflush => exact hinv.of_flush hstart (hP hpending.2) hflush

end FlushInvariant

/-- A completion moves, and may announce the end of its track from there. -/
theorem Finished.moves (hfinished : Finished t env track t') :
    Moves t t' ∨ ∃ s state, Moves t s ∧ track.isRatelessData = true ∧
      s.findFecTrackState track = some state ∧ state.hasObjects = true ∧
      t' = (s.announceEnd track state).1 := by
  cases hfinished with
  | refused => exact Or.inl .refl
  | unflushed hpending hflush hresult => exact Or.inl (moves_of_flush hflush)
  | unused hsettled => exact Or.inl hsettled.moves
  | @announced s state hrateless hsettled hfound hobjects =>
      exact Or.inr ⟨s, state, hsettled.moves, hrateless, hfound, hobjects, rfl⟩

end Transport

/-! ### Connections -/

namespace Conn

/-- What the handshake settled. -/
def handshake (c : Conn) : Bool × Bool × Bool :=
  (c.helloReceived, c.protocolReady, c.authenticated)

/-- The peer's HELLO was accepted and the connection is authenticated. -/
def gateOpen (c : Conn) : Bool := c.protocolReady && c.authenticated

/-- What messages of the peer and subscription calls change. -/
structure Ingress where
  events : List Event
  sendSubscriptions : SubscriptionTable
  receiveSubscriptions : SubscriptionTable
  acked : List (Sent TrackCheckpointAck)
  acceptedWindows : List (Sent (TrackAlias × RecoveryWindow))
  assemblers : List (Option FrameAssembler)
  completedObjects : List CompletedObject

def ingress (c : Conn) : Ingress where
  events := c.events
  sendSubscriptions := c.sendSubscriptions
  receiveSubscriptions := c.receiveSubscriptions
  acked := c.acked
  acceptedWindows := c.acceptedWindows
  assemblers := c.assemblers
  completedObjects := c.completedObjects

/-- The connection keeps its identity, its handshake and its bindings, and may be
closed. -/
structure Moved (c c' : Conn) : Prop where
  id_eq : c'.id = c.id
  handshake : c'.handshake = c.handshake
  findByAlias : ∀ a, c'.sendSubscriptions.findByAlias a = c.sendSubscriptions.findByAlias a
  capacity : c'.sendSubscriptions.capacity = c.sendSubscriptions.capacity
  established : c'.established = true → c.established = true

namespace Moved

theorem refl (c : Conn) : Moved c c := ⟨rfl, rfl, fun _ => rfl, rfl, fun h => h⟩

theorem trans {c c' c'' : Conn} (hfirst : Moved c c') (hsecond : Moved c' c'') : Moved c c'' :=
  ⟨hsecond.id_eq.trans hfirst.id_eq, hsecond.handshake.trans hfirst.handshake,
    fun a => (hsecond.findByAlias a).trans (hfirst.findByAlias a),
    hsecond.capacity.trans hfirst.capacity, fun h => hfirst.established (hsecond.established h)⟩

theorem findAlias {c c' : Conn} (hmoved : Moved c c') (track : TrackId) :
    c'.sendSubscriptions.findAlias track = c.sendSubscriptions.findAlias track := by
  apply Option.ext
  intro a
  simp only [SubscriptionTable.findAlias_eq_some_iff_bound, hmoved.findByAlias]

theorem gateOpen {c c' : Conn} (hmoved : Moved c c') : c'.gateOpen = c.gateOpen := by
  have hsame := hmoved.handshake
  simp only [Conn.handshake, Prod.mk.injEq] at hsame
  simp only [Conn.gateOpen, hsame.2.1, hsame.2.2]

end Moved

theorem gateOpen_of_established {c : Conn} (hestablished : c.established = true) :
    c.gateOpen = true := by
  simp only [established, Bool.and_eq_true] at hestablished
  simp only [gateOpen, hestablished.1.1, hestablished.1.2, Bool.and_self]

theorem moved_quiclyClose (c : Conn) (code : AppError) (reason : String) :
    Moved c (c.quiclyClose code reason) := by
  unfold quiclyClose
  split
  · exact .refl c
  · exact ⟨rfl, rfl, fun _ => rfl, rfl, fun h => by simp [established] at h⟩

theorem moved_writeControlFrame (c : Conn) (frame : Sent ControlFrame) :
    Moved c (c.writeControlFrame frame).1 := by
  unfold writeControlFrame
  split
  · exact .refl c
  split
  · exact ⟨rfl, rfl, fun _ => rfl, rfl, fun h => h⟩
  · have hdrained : Moved c { c with admissions := c.admissions.tail } :=
      ⟨rfl, rfl, fun _ => rfl, rfl, fun h => h⟩
    exact hdrained.trans (moved_quiclyClose _ _ _)

theorem moved_setCheckpointAck (c : Conn) (a : TrackAlias) (ack : CheckpointAckState) :
    Moved c (c.setCheckpointAck a ack) :=
  ⟨rfl, rfl, fun _ => rfl, rfl, fun h => h⟩

theorem Publishes.moved {c c' : Conn} (hpublishes : Publishes object geometry c c') :
    Moved c c' := by
  refine ⟨hpublishes.id_eq, ?_, hpublishes.bindings.findByAlias, hpublishes.bindings.capacity,
    fun h => ?_⟩
  · simp only [Conn.handshake, hpublishes.helloReceived_eq, hpublishes.protocolReady_eq,
      hpublishes.authenticated_eq]
  simp only [established, hpublishes.protocolReady_eq, hpublishes.authenticated_eq,
    Bool.and_eq_true] at h ⊢
  refine ⟨h.1, ?_⟩
  cases hpublishes.closed with
  | inl hsame => rw [← hsame]; exact h.2
  | inr hclosed => rw [hclosed.1]; rfl

end Conn

namespace Transport

open Conn (Moved moved_writeControlFrame moved_setCheckpointAck)

theorem moved_checkpointMemberAdded (t : Transport) (c : Conn) (track : TrackId)
    (a : TrackAlias) : Moved c (t.checkpointMemberAdded c track a) := by
  unfold checkpointMemberAdded
  extract_lets reset joined
  have hreset : Moved c reset := by
    simp only [reset]
    split
    · exact ⟨rfl, rfl, fun _ => rfl, rfl, fun h => h⟩
    · exact .refl c
  have hjoined : Moved c joined := hreset.trans (moved_setCheckpointAck reset a _)
  split
  · exact hreset
  split
  · exact hreset
  split
  · exact hjoined
  next last _ =>
  have hwrite := hjoined.trans (moved_writeControlFrame joined
    (joined.sendFrame track a (.trackCheckpoint
      { trackAlias := a
        baseline := true
        groupId := last.groupId
        firstObjectId := last.objectId
        finalObjectId := last.objectId })))
  split
  · next hfailed =>
      rw [hfailed] at hwrite
      exact hwrite
  · next hsent =>
      rw [hsent] at hwrite
      exact hwrite.trans (moved_setCheckpointAck _ a _)

theorem moved_memberOf (t : Transport) (c : Conn) (track : TrackId) (a : TrackAlias) :
    Moved c (if (c.checkpointAck a).participating = true then c
      else t.checkpointMemberAdded c track a) := by
  split
  · exact .refl c
  · exact moved_checkpointMemberAdded t c track a

theorem moved_emitCheckpointTo (t : Transport) (track : TrackId)
    (groupId firstObjectId finalObjectId : Nat) (c : Conn) :
    Moved c (t.emitCheckpointTo track groupId firstObjectId finalObjectId c) := by
  unfold emitCheckpointTo
  split
  · exact .refl c
  split
  · exact .refl c
  next a _ =>
  extract_lets member
  have hwrite := (moved_memberOf t c track a).trans (moved_writeControlFrame member
    (member.sendFrame track a (.trackCheckpoint
      { trackAlias := a
        baseline := false
        groupId := groupId
        firstObjectId := firstObjectId
        finalObjectId := finalObjectId })))
  split
  · next hfailed =>
      rw [hfailed] at hwrite
      exact hwrite
  · next hsent =>
      rw [hsent] at hwrite
      exact hwrite.trans (moved_setCheckpointAck _ a _)

theorem moved_finishTrackTo (t : Transport) (track : TrackId) (finalObjectId : Nat)
    (c : Conn) : Moved c (t.finishTrackTo track finalObjectId c).1 := by
  unfold finishTrackTo
  split
  · exact .refl c
  split
  · exact .refl c
  next a _ =>
  have hwrite := moved_writeControlFrame c (c.sendFrame track a (.trackEnd
    { trackAlias := a, groupId := 0, finalObjectId := finalObjectId }))
  split
  · next hfailed =>
      rw [hfailed] at hwrite
      exact hwrite
  · next written hsent =>
      rw [hsent] at hwrite
      split
      · exact hwrite
      · exact (hwrite.trans (moved_memberOf t written track a)).trans
          (moved_setCheckpointAck _ a _)

/-- A connection behind the gate is not touched. -/
structure Steps (c c' : Conn) : Prop where
  moved : Moved c c'
  idle : c.gateOpen = false → c'.ingress = c.ingress

theorem Steps.refl (c : Conn) : Steps c c := ⟨.refl c, fun _ => rfl⟩

theorem Steps.trans {c c' c'' : Conn} (hfirst : Steps c c') (hsecond : Steps c' c'') :
    Steps c c'' where
  moved := hfirst.moved.trans hsecond.moved
  idle := by
    intro hgate
    rw [hsecond.idle (hfirst.moved.gateOpen.trans hgate), hfirst.idle hgate]

theorem Turn.steps (hturn : Turn t object geometry c c') : Steps c c' := by
  refine ⟨hturn.publishes.moved, fun hgate => ?_⟩
  have hskipped : t.recipientEligible c object.trackId = false := by
    simp only [Conn.gateOpen] at hgate
    simp only [recipientEligible, hgate, Bool.false_and]
  rw [hturn.skipped hskipped]

theorem steps_emitCheckpointTo (t : Transport) (track : TrackId)
    (groupId firstObjectId finalObjectId : Nat) (c : Conn) :
    Steps c (t.emitCheckpointTo track groupId firstObjectId finalObjectId c) := by
  refine ⟨moved_emitCheckpointTo t track groupId firstObjectId finalObjectId c,
    fun hgate => ?_⟩
  have hestablished : c.established = false := by
    simp only [Conn.gateOpen] at hgate
    simp only [Conn.established, hgate, Bool.false_and]
  simp only [emitCheckpointTo, hestablished, Bool.not_false, Bool.true_or, if_true]

theorem steps_finishTrackTo (t : Transport) (track : TrackId) (finalObjectId : Nat)
    (c : Conn) : Steps c (t.finishTrackTo track finalObjectId c).1 := by
  refine ⟨moved_finishTrackTo t track finalObjectId c, fun hgate => ?_⟩
  have hestablished : c.established = false := by
    simp only [Conn.gateOpen] at hgate
    simp only [Conn.established, hgate, Bool.false_and]
  simp only [finishTrackTo, hestablished, Bool.not_false, if_true]

/-- Every connection takes steps in its place. -/
structure ConnsMove (t t' : Transport) : Prop where
  isServer : t'.isServer = t.isServer
  limits : t'.limits = t.limits
  nextConnId : t'.nextConnId = t.nextConnId
  conns : List.Forall₂ Steps t.conns t'.conns

namespace ConnsMove

theorem of_map {t t' : Transport} {f : Conn → Conn} (hserver : t'.isServer = t.isServer)
    (hlimits : t'.limits = t.limits) (hnext : t'.nextConnId = t.nextConnId)
    (hconns : t'.conns = t.conns.map f) (hsteps : ∀ c, Steps c (f c)) : ConnsMove t t' := by
  refine ⟨hserver, hlimits, hnext, ?_⟩
  rw [hconns]
  exact Pointwise.of_map fun c _ => hsteps c

theorem of_conns {t t' : Transport} (hserver : t'.isServer = t.isServer)
    (hlimits : t'.limits = t.limits) (hnext : t'.nextConnId = t.nextConnId)
    (hconns : t'.conns = t.conns) : ConnsMove t t' :=
  of_map hserver hlimits hnext (hconns.trans (List.map_id _).symm) .refl

theorem refl (t : Transport) : ConnsMove t t := of_conns rfl rfl rfl rfl

theorem trans {t t' t'' : Transport} (hfirst : ConnsMove t t') (hsecond : ConnsMove t' t'') :
    ConnsMove t t'' where
  isServer := hsecond.isServer.trans hfirst.isServer
  limits := hsecond.limits.trans hfirst.limits
  nextConnId := hsecond.nextConnId.trans hfirst.nextConnId
  conns := Pointwise.comp (fun _ _ _ hfirst hsecond => hfirst.trans hsecond) hfirst.conns
    hsecond.conns

theorem exists_conn {t t' : Transport} (hmove : ConnsMove t t') (hc' : c' ∈ t'.conns) :
    ∃ c ∈ t.conns, Steps c c' :=
  Pointwise.exists_left hmove.conns hc'

end ConnsMove

theorem nextConnId_publishUngrouped (t : Transport) (env : FlushEnv) (object : MoqObject)
    (inFlush : Bool) :
    (t.publishUngrouped env object inFlush).1.nextConnId = t.nextConnId := by
  unfold publishUngrouped
  split
  · rfl
  split
  · unfold publishReliable
    split
    · rfl
    split
    · rfl
    · split <;> rfl
  · unfold publishDatagrams
    split
    · rfl
    simp only
    split <;> rfl

theorem connsMove_publishUngrouped (t : Transport) (env : FlushEnv) (object : MoqObject)
    (inFlush : Bool) : ConnsMove t (t.publishUngrouped env object inFlush).1 := by
  have hattempted := attempted_publishUngrouped t env object inFlush
  exact
    { isServer := hattempted.grouping.isServer
      limits := hattempted.grouping.limits
      nextConnId := nextConnId_publishUngrouped t env object inFlush
      conns := hattempted.conns.imp fun _ _ hturn => hturn.steps }

theorem connsMove_of_attempt {t : Transport}
    (hattempt : t.publishUngrouped env object inFlush = (t', result)) : ConnsMove t t' := by
  have hmoves := connsMove_publishUngrouped t env object inFlush
  rw [hattempt] at hmoves
  exact hmoves

theorem connsMove_commitGroup (t : Transport) (state : FecTrackState) (object : MoqObject) :
    ConnsMove t (t.commitGroup state object) := by
  unfold commitGroup
  simp only
  split
  · exact .of_map rfl rfl rfl rfl (steps_emitCheckpointTo _ _ _ _ _)
  · exact .of_conns rfl rfl rfl rfl

theorem connsMove_announceEnd (t : Transport) (track : TrackId) (state : FecTrackState) :
    ConnsMove t (t.announceEnd track state).1 := by
  refine .of_map rfl rfl rfl ?_ (steps_finishTrackTo t track (state.nextObjectId - 1))
  simp [announceEnd, setFecTrackState]

theorem Move.connsMove (hmove : Move t t') : ConnsMove t t' := by
  cases hmove with
  | regrouped hregroups =>
      obtain ⟨mark, hconns⟩ := hregroups.conns
      exact .of_map hregroups.isServer hregroups.limits hregroups.nextConnId hconns fun c =>
        ⟨⟨rfl, rfl, fun _ => rfl, rfl, fun h => h⟩, fun _ => rfl⟩
  | slotted hslot =>
      cases createFecTrackState_cases hslot with
      | inl hfound =>
          obtain ⟨rfl, _⟩ := hfound
          exact .refl _
      | inr hfresh =>
          obtain ⟨_, _, _, rfl⟩ := hfresh
          exact .of_conns rfl rfl rfl rfl
  | direct hgroups hattempt => exact connsMove_of_attempt hattempt
  | failed hbuffer hfound hattempt hresult => exact connsMove_of_attempt hattempt
  | committed hbuffer hfound hattempt hresult =>
      exact (connsMove_of_attempt hattempt).trans (connsMove_commitGroup _ _ _)

theorem Moves.connsMove (hmoves : Moves t t') : ConnsMove t t' :=
  hmoves.preserves (fun _ _ hmove hstart => hstart.trans hmove.connsMove) (.refl t)

theorem connsMove_finishTrack (t : Transport) (env : FlushEnv) (track : TrackId) :
    ConnsMove t (t.finishTrack env track).1 := by
  cases (finished t env track).moves with
  | inl hmoves => exact hmoves.connsMove
  | inr hannounced =>
      obtain ⟨s, state, hmoves, _, _, _, hfinish⟩ := hannounced
      rw [hfinish]
      exact hmoves.connsMove.trans (connsMove_announceEnd s track state)

end Transport

end Qlinq
