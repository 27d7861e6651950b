import Qlinq.RecoveryAcks
import Qlinq.SubscriberLog

namespace Qlinq

open Replay (replay replay_idle)

/-! What a subscriber acknowledges: only what was announced of the track it has bound. -/

/-- A frame that, if it is an ACK, acknowledges what `covers` the track it names. -/
def AckCovered (covers : TrackId → Nat → Nat → Prop) (bindings : Bindings)
    (message : ControlFrame) : Prop :=
  ∀ ack, message = .trackCheckpointAck ack →
    ∃ track, bindings ack.trackAlias = some track ∧ covers track ack.groupId ack.finalObjectId

/-- Every ACK of the log was covered when it was written. -/
def Answered (covers : TrackId → Nat → Nat → Prop) (limit : Nat) (log : List ControlFrame) :
    Prop :=
  ∀ n message bindings, log[n]? = some message →
    replay (Bindings.step limit) Bindings.empty (log.take n) = some bindings →
    AckCovered covers bindings message

section Logs

variable {covers covers' : TrackId → Nat → Nat → Prop} {log frames : List ControlFrame}

theorem AckCovered.of_other {message : ControlFrame} {bindings : Bindings}
    (hother : ∀ ack, message ≠ .trackCheckpointAck ack) : AckCovered covers bindings message :=
  fun ack hack => absurd hack (hother ack)

theorem AckCovered.mono {message : ControlFrame} {bindings : Bindings}
    (hmono : ∀ track groupId objectId, covers track groupId objectId →
      covers' track groupId objectId)
    (hcovered : AckCovered covers bindings message) : AckCovered covers' bindings message := by
  intro ack hack
  obtain ⟨track, hbound, hcovers⟩ := hcovered ack hack
  exact ⟨track, hbound, hmono _ _ _ hcovers⟩

theorem Answered.mono
    (hmono : ∀ track groupId objectId, covers track groupId objectId →
      covers' track groupId objectId)
    (hanswered : Answered covers limit log) : Answered covers' limit log :=
  fun n message bindings hmessage hreplay =>
    (hanswered n message bindings hmessage hreplay).mono hmono

theorem answered_nil : Answered covers limit [] := by
  intro n message bindings hmessage
  simp at hmessage

/-- The log goes on with frames that are covered behind it. -/
theorem Answered.append (hanswered : Answered covers limit log)
    (hnew : ∀ n message bindings, frames[n]? = some message →
      replay (Bindings.step limit) Bindings.empty (log ++ frames.take n) = some bindings →
      AckCovered covers bindings message) : Answered covers limit (log ++ frames) := by
  intro n message bindings hmessage hreplay
  rw [List.getElem?_append] at hmessage
  rw [List.take_append] at hreplay
  split at hmessage
  · next hold =>
      rw [Nat.sub_eq_zero_of_le hold.le, List.take_zero, List.append_nil] at hreplay
      exact hanswered n message bindings hmessage hreplay
  · next hbehind =>
      rw [List.take_of_length_le (Nat.le_of_not_lt hbehind)] at hreplay
      exact hnew _ message bindings hmessage hreplay

/-- Frames that bind nothing find the bindings behind the log. -/
theorem Answered.append_idle (hanswered : Answered covers limit log)
    (hlog : replay (Bindings.step limit) Bindings.empty log = some bindings)
    (hnew : ∀ message ∈ frames, message.subscribes = false ∧ AckCovered covers bindings message) :
    Answered covers limit (log ++ frames) := by
  refine hanswered.append fun n message reached hmessage hreplay => ?_
  have hidle := @replay_idle _ _ (Bindings.step limit) Bindings.empty bindings log (frames.take n)
    hlog fun other hother bindings =>
      Bindings.step_idle (hnew other (List.mem_of_mem_take hother)).1 limit bindings
  rw [hidle] at hreplay
  obtain rfl := Option.some.inj hreplay
  exact (hnew message (List.mem_of_getElem? hmessage)).2

end Logs

namespace Conn

variable {covers covers' : TrackId → Nat → Nat → Prop} {c c' c'' : Conn}

/-- The windows of every track end within what `covers` it. -/
def Covered (covers : TrackId → Nat → Nat → Prop) (c : Conn) : Prop :=
  ∀ a track, c.receiveSubscriptions.findByAlias a = some track →
    ∀ window ∈ (c.objectGap a).recoveryWindows, covers track window.groupId window.finalObjectId

theorem Covered.mono
    (hmono : ∀ track groupId objectId, covers track groupId objectId →
      covers' track groupId objectId)
    (hcovered : c.Covered covers) : c.Covered covers' :=
  fun a track hbound window hmem => hmono _ _ _ (hcovered a track hbound window hmem)

theorem Covered.congr (hcovered : c.Covered covers)
    (htable : c'.receiveSubscriptions = c.receiveSubscriptions) : c'.Covered covers := by
  intro a track hbound window hmem
  simp only [objectGap, htable] at hbound hmem
  exact hcovered a track hbound window hmem

/-- A state whose windows end where covered ones do. -/
theorem Covered.setObjectGap (hcovered : c.Covered covers)
    (hwindows : ∀ track, c.receiveSubscriptions.findByAlias a = some track →
      ∀ window ∈ gap.recoveryWindows, covers track window.groupId window.finalObjectId) :
    (c.setObjectGap a gap).Covered covers := by
  intro b track hbound window hmem
  have hbound : c.receiveSubscriptions.findByAlias b = some track :=
    (SubscriptionTable.findByAlias_modifyState ..).symm.trans hbound
  rw [objectGap_setObjectGap] at hmem
  split at hmem
  · next hhere =>
      obtain ⟨rfl, _⟩ := hhere
      exact hwindows track hbound window hmem
  · exact hcovered b track hbound window hmem

/-- Only covered ACKs are written, and the windows stay covered. -/
structure Answers (covers : TrackId → Nat → Nat → Prop) (c c' : Conn) : Prop where
  control : ∃ frames, c'.control = c.control ++ frames ∧
    ∀ frame ∈ frames, frame.message.subscribes = false ∧
      AckCovered covers c.receiveSubscriptions.findByAlias frame.message
  bindings : c'.receiveSubscriptions.findByAlias = c.receiveSubscriptions.findByAlias
  covered : c'.Covered covers

namespace Answers

theorem of_same (hcontrol : c'.control = c.control)
    (hbindings : c'.receiveSubscriptions.findByAlias = c.receiveSubscriptions.findByAlias)
    (hcovered : c'.Covered covers) : Answers covers c c' :=
  ⟨⟨[], by rw [hcontrol, List.append_nil], fun _ h => absurd h List.not_mem_nil⟩, hbindings,
    hcovered⟩

theorem of_table (hcontrol : c'.control = c.control)
    (htable : c'.receiveSubscriptions = c.receiveSubscriptions) (hcovered : c.Covered covers) :
    Answers covers c c' :=
  .of_same hcontrol (by rw [htable]) (hcovered.congr htable)

theorem trans (hfirst : Answers covers c c') (hsecond : Answers covers c' c'') :
    Answers covers c c'' where
  control := by
    obtain ⟨earlier, hearlier, hfirstNew⟩ := hfirst.control
    obtain ⟨later, hlater, hsecondNew⟩ := hsecond.control
    refine ⟨earlier ++ later, by rw [hlater, hearlier, List.append_assoc], fun frame hmem => ?_⟩
    cases List.mem_append.mp hmem with
    | inl hmem => exact hfirstNew frame hmem
    | inr hmem =>
        rw [← hfirst.bindings]
        exact hsecondNew frame hmem
  bindings := hsecond.bindings.trans hfirst.bindings
  covered := hsecond.covered

theorem written {frame : Sent ControlFrame} (hcovered : c.Covered covers)
    (hidle : frame.message.subscribes = false)
    (hack : AckCovered covers c.receiveSubscriptions.findByAlias frame.message)
    (admissions : List Admission) :
    Answers covers c { c with control := c.control ++ [frame], admissions := admissions } :=
  ⟨⟨[frame], rfl, fun other hother => by
      rw [List.mem_singleton.mp hother]
      exact ⟨hidle, hack⟩⟩, rfl, hcovered.congr rfl⟩

theorem set (hcovered : c.Covered covers)
    (hwindows : ∀ track, c.receiveSubscriptions.findByAlias a = some track →
      ∀ window ∈ gap.recoveryWindows, covers track window.groupId window.finalObjectId) :
    Answers covers c (c.setObjectGap a gap) :=
  .of_same rfl (funext fun _ => SubscriptionTable.findByAlias_modifyState ..)
    (hcovered.setObjectGap hwindows)

end Answers

/-- Whatever is delivered, only tracked windows are acknowledged. -/
theorem frame_answers : DeliveryFrame fun c c' => c.Covered covers → Answers covers c c' where
  refl _ := .of_table rfl rfl
  trans hfirst hsecond hcovered :=
    (hfirst hcovered).trans (hsecond (hfirst hcovered).covered)
  closed _ _ := .of_table rfl rfl
  drained _ _ := .of_table rfl rfl
  requested _ _ _ admissions hcovered :=
    .written hcovered rfl (.of_other fun _ h => by cases h) admissions
  answered c a window admissions hmem hcovered := by
    refine .written hcovered rfl (fun ack hack => ?_) admissions
    obtain rfl := (ControlFrame.trackCheckpointAck.inj hack).symm
    obtain ⟨track, hbound⟩ := SubscriptionTable.getState_isSome_iff.mp
      (getState_of_windows (List.ne_nil_of_mem hmem))
    exact ⟨track, hbound, hcovered a track hbound window hmem⟩
  assemblers _ _ := .of_table rfl rfl
  completed c a gap hcompletes hcovered := by
    refine .set hcovered fun track hbound window hmem => ?_
    obtain ⟨held, hheld, hspans⟩ := hcompletes.windows window hmem
    rw [hspans.group_eq, hspans.final_eq]
    exact hcovered a track hbound held hheld
  stored _ _ _ _ _ _ := .of_table rfl rfl
  marked c a gap _ hsame hcovered := by
    refine .set hcovered fun track hbound window hmem => ?_
    rw [hsame.windows] at hmem
    exact hcovered a track hbound window hmem

/-! ### Recovery frames -/

theorem answers_protocolClose (hcovered : c.Covered covers) (reason : String) :
    Answers covers c (c.protocolClose reason) :=
  frame_answers.protocolClose c reason hcovered

/-- A frame is acknowledged up to an object that covers the track under its alias. -/
theorem answers_sendCheckpointAck (hcovered : c.Covered covers)
    (hbound : c.receiveSubscriptions.findByAlias a = some track)
    (hcovers : covers track groupId finalObjectId) :
    Answers covers c (c.sendCheckpointAck a groupId finalObjectId).1 := by
  unfold sendCheckpointAck
  split
  · exact .of_table rfl rfl hcovered
  · refine frame_answers.writeControlFrame c _ (fun admissions hcovered => ?_) hcovered
    refine .written hcovered rfl (fun ack hack => ?_) admissions
    obtain rfl := (ControlFrame.trackCheckpointAck.inj hack).symm
    exact ⟨track, hbound, hcovers⟩

theorem answers_openWindow (hcovered : c.Covered covers)
    (hbound : c.receiveSubscriptions.findByAlias a = some track) {window : RecoveryWindow}
    (hcovers : covers track window.groupId window.finalObjectId) (acknowledge : Bool) :
    Answers covers c (c.openWindow a window acknowledge).1 := by
  have hnoted : Answers covers c { c with
      acceptedWindows := c.acceptedWindows ++ [c.receiveFrame a (a, window)] } :=
    .of_table rfl rfl hcovered
  have hopened : ∀ gap : ObjectGapState,
      (∀ held ∈ gap.recoveryWindows, held ∈ (c.objectGap a).recoveryWindows ∨ held = window) →
      Answers covers c (({ c with
        acceptedWindows := c.acceptedWindows ++ [c.receiveFrame a (a, window)] } :
          Conn).setObjectGap a gap) := by
    intro gap hwindows
    refine hnoted.trans (.set hnoted.covered fun other hother held hmem => ?_)
    obtain rfl := Option.some.inj (hbound.symm.trans hother)
    cases hwindows held hmem with
    | inl hold => exact hcovered a track hbound held hold
    | inr hnew => rwa [hnew]
  have hwider : ∀ held ∈ (c.objectGap a).recoveryWindows ++ [window],
      held ∈ (c.objectGap a).recoveryWindows ∨ held = window := by
    intro held hmem
    rwa [List.mem_append, List.mem_singleton] at hmem
  unfold openWindow
  simp only
  split
  · have hopened := hopened { c.objectGap a with
      lastCheckpointObjectId := some window.finalObjectId
      recoveryWindows := (c.objectGap a).recoveryWindows ++ [window] } hwider
    exact hopened.trans (frame_answers.acknowledge _ a hopened.covered)
  split
  · exact hopened { c.objectGap a with lastCheckpointObjectId := some window.finalObjectId }
      fun held hmem => Or.inl hmem
  · exact hopened { c.objectGap a with
      lastCheckpointObjectId := some window.finalObjectId
      recoveryWindows := (c.objectGap a).recoveryWindows ++ [window] } hwider

theorem answers_receiveRecoveryCheckpoint (hcovered : c.Covered covers)
    (hbound : c.receiveSubscriptions.findByAlias a = some track)
    (hcovers : covers track groupId finalObjectId) (firstObjectId : Nat) (acknowledge : Bool) :
    Answers covers c
      (c.receiveRecoveryCheckpoint a groupId firstObjectId finalObjectId acknowledge).1 := by
  have hsame : Answers covers c c := .of_table rfl rfl hcovered
  unfold receiveRecoveryCheckpoint
  split
  · exact hsame
  simp only
  split
  · exact hsame
  split
  · split
    · exact answers_sendCheckpointAck hcovered hbound hcovers
    · exact hsame
  split
  · exact hsame
  split
  · exact hsame
  · exact answers_openWindow hcovered hbound hcovers acknowledge

theorem bound_of_recoveryTrack (htrack : c.recoveryTrack a = some track) :
    c.receiveSubscriptions.findByAlias a = some track ∧ track.isRatelessData = true :=
  Option.filter_eq_some_iff.mp htrack

/-- A recovery frame that is not refused names a rateless DATA track. -/
theorem exists_recoveryTrack {refused : Bool}
    (hserved : ¬(refused || (c.recoveryTrack a).isNone) = true) :
    ∃ track, c.recoveryTrack a = some track := by
  rw [Bool.or_eq_true, not_or, Option.isNone_iff_eq_none] at hserved
  exact Option.ne_none_iff_exists'.mp hserved.2

theorem answers_receiveBaseline (hcovered : c.Covered covers) {checkpoint : TrackCheckpoint}
    (hbound : c.receiveSubscriptions.findByAlias checkpoint.trackAlias = some track)
    (hcovers : covers track checkpoint.groupId checkpoint.finalObjectId) :
    Answers covers c (c.receiveBaseline checkpoint) := by
  have hack := answers_sendCheckpointAck hcovered hbound hcovers
  unfold receiveBaseline
  simp only
  split
  · exact answers_protocolClose hcovered _
  split
  · next hfailed =>
      rw [hfailed] at hack
      exact hack.trans (answers_protocolClose hack.covered _)
  · next hsent =>
      rw [hsent] at hack
      refine hack.trans (.set hack.covered fun other hother window hmem => ?_)
      exact hack.covered _ other hother window hmem

theorem answers_receiveTrackCheckpoint (hcovered : c.Covered covers)
    (checkpoint : TrackCheckpoint)
    (hcovers : ∀ track, c.recoveryTrack checkpoint.trackAlias = some track →
      covers track checkpoint.groupId checkpoint.finalObjectId) :
    Answers covers c (c.receiveTrackCheckpoint checkpoint) := by
  unfold receiveTrackCheckpoint
  split
  · exact answers_protocolClose hcovered _
  next hserved =>
  obtain ⟨track, htrack⟩ := exists_recoveryTrack hserved
  have hbound := (bound_of_recoveryTrack htrack).1
  have hcovers := hcovers track htrack
  split
  · exact answers_receiveBaseline hcovered hbound hcovers
  have hwindow := answers_receiveRecoveryCheckpoint hcovered hbound hcovers
    checkpoint.firstObjectId true
  split
  · next haccepted =>
      rw [haccepted] at hwindow
      exact hwindow
  · next hrefused =>
      rw [hrefused] at hwindow
      exact hwindow.trans (answers_protocolClose hwindow.covered _)

theorem answers_receiveTrackEnd (hcovered : c.Covered covers) (finish : TrackEnd)
    (hcovers : ∀ track, c.recoveryTrack finish.trackAlias = some track →
      covers track finish.groupId finish.finalObjectId) :
    Answers covers c (c.receiveTrackEnd finish) := by
  unfold receiveTrackEnd
  split
  · exact answers_protocolClose hcovered _
  next hserved =>
  obtain ⟨track, htrack⟩ := exists_recoveryTrack hserved
  have hbound := (bound_of_recoveryTrack htrack).1
  have hcovers := hcovers track htrack
  have hack := answers_sendCheckpointAck hcovered hbound hcovers
  have hwindow := answers_receiveRecoveryCheckpoint hcovered hbound hcovers
    (trackEndFirst (c.objectGap finish.trackAlias).lastCheckpointObjectId
      c.checkpointCapable finish.finalObjectId) c.checkpointCapable
  simp only
  split
  · split
    · exact .of_table rfl rfl hcovered
    split
    · next hfailed =>
        rw [hfailed] at hack
        exact hack.trans (answers_protocolClose hack.covered _)
    · next hsent =>
        rw [hsent] at hack
        exact hack.trans (frame_answers.retireRecoveryThrough _ _ _ _ hack.covered)
  · split
    · next haccepted =>
        rw [haccepted] at hwindow
        exact hwindow
    · next hrefused =>
        rw [hrefused] at hwindow
        exact hwindow.trans (answers_protocolClose hwindow.covered _)

theorem answers_receiveRecoveryFrame (hcovered : c.Covered covers) (frame : Conn → Conn)
    (hframe : Answers covers c (frame c)) : Answers covers c (c.receiveRecoveryFrame frame) := by
  unfold receiveRecoveryFrame
  split
  · exact .of_table rfl rfl hcovered
  split
  · exact answers_protocolClose hcovered _
  · exact hframe

/-! ### Runs -/

/-- A subscriber that has only acknowledged what covers its tracks. -/
structure Answering (covers : TrackId → Nat → Nat → Prop) (limit : Nat) (c : Conn) : Prop where
  logged : c.Logged limit
  answered : Answered covers limit (c.control.map Sent.message)
  covered : c.Covered covers

theorem Answering.mono
    (hmono : ∀ track groupId objectId, covers track groupId objectId →
      covers' track groupId objectId)
    (hanswering : c.Answering covers limit) : c.Answering covers' limit :=
  ⟨hanswering.logged, hanswering.answered.mono hmono, hanswering.covered.mono hmono⟩

theorem Answering.answers (hanswering : c.Answering covers limit) (hlogged : c'.Logged limit)
    (hanswers : Answers covers c c') : c'.Answering covers limit := by
  refine ⟨hlogged, ?_, hanswers.covered⟩
  obtain ⟨frames, hcontrol, hnew⟩ := hanswers.control
  rw [hcontrol, List.map_append]
  refine hanswering.answered.append_idle hanswering.logged.replayed fun message hmem => ?_
  obtain ⟨frame, hframe, rfl⟩ := List.mem_map.mp hmem
  exact hnew frame hframe

/-- A subscription call acknowledges nothing. -/
theorem Answering.resubscribes (hanswering : c.Answering covers limit) (hlogged : c'.Logged limit)
    (hgrown : c.control <+: c'.control) (hcalls : Resubscribes c c') :
    c'.Answering covers limit := by
  obtain ⟨frames, hcontrol⟩ := hgrown
  refine ⟨hlogged, ?_, fun a track hbound window hmem => ?_⟩
  · rw [← hcontrol, List.map_append]
    refine hanswering.answered.append fun n message bindings hmessage _ => ?_
    rw [List.getElem?_map, Option.map_eq_some_iff] at hmessage
    obtain ⟨frame, hframe, rfl⟩ := hmessage
    refine .of_other fun ack hack => ?_
    have hsame := hcalls.acks frame.generation
    unfold acksIn at hsame
    rw [← hcontrol, List.filter_append, List.filterMap_append] at hsame
    have hnone := List.append_right_eq_self.mp hsame
    rw [List.filterMap_eq_nil_iff] at hnone
    have hnone := hnone frame (List.mem_filter.mpr
      ⟨List.mem_of_getElem? hframe, decide_eq_true rfl⟩)
    simp [Sent.checkpointAck, hack] at hnone
  · obtain ⟨fresh, hbindings⟩ := hcalls.bindings
    rcases hbindings a track hbound with ⟨hold, _, hgap⟩ | ⟨_, _, _, hgap⟩
    · rw [hgap] at hmem
      exact hanswering.covered a track hold window hmem
    · rw [hgap] at hmem
      cases hmem

theorem answers_receiveDatagram (hcovered : c.Covered covers) (env : ReceiveEnv)
    (datagram : Sent Datagram) : Answers covers c (c.receiveDatagram env datagram) := by
  rcases frame_answers.receiveDatagram c env datagram with ⟨-, hhandled⟩ | ⟨-, hhandled⟩
  · exact hhandled hcovered
  · have hobserved : Answers covers c (c.observed datagram.message.header) := by
      refine .set hcovered fun track hbound window hmem => ?_
      rw [(ObjectGapState.sameWindows_observe _ _ _).windows] at hmem
      exact hcovered _ track hbound window hmem
    exact hobserved.trans (hhandled hobserved.covered)

theorem answers_receiveHello (hcovered : c.Covered covers) (limits : TransportLimits)
    (hello : Hello) : Answers covers c (c.receiveHello limits hello) := by
  unfold receiveHello
  split
  · exact .of_table rfl rfl hcovered
  split
  · exact answers_protocolClose hcovered _
  · exact .of_table rfl rfl hcovered

theorem answers_respondAuth (hcovered : c.Covered covers) (success : Bool) :
    Answers covers c (c.respondAuth success) := by
  unfold respondAuth
  split
  · exact .of_table rfl rfl hcovered
  split
  · exact .of_table rfl rfl hcovered
  · exact frame_answers.quiclyClose c _ _ hcovered

/-- A step of the subscriber itself, or a message that is no recovery frame. -/
theorem Answering.receive (hanswering : c.Answering covers limit) (limits : TransportLimits)
    {op : ReceiveOp} (hcheckpoint : ∀ checkpoint, op ≠ .trackCheckpoint checkpoint)
    (hend : ∀ finish, op ≠ .trackEnd finish) : (c.receive limits op).Answering covers limit := by
  have hlogged := hanswering.logged.receive limits op
  have hcovered := hanswering.covered
  have hanswers : Answers covers c (c.receive limits op) →
      (c.receive limits op).Answering covers limit := hanswering.answers hlogged
  cases op with
  | hello hello => exact hanswers (answers_receiveHello hcovered limits hello)
  | respondAuth success => exact hanswers (answers_respondAuth hcovered success)
  | subscribe track =>
      exact hanswering.resubscribes hlogged (c.appends_receive limits (.subscribe track))
        (resubscribes_subscribeConnection c track)
  | unsubscribe track =>
      exact hanswering.resubscribes hlogged (c.appends_receive limits (.unsubscribe track))
        (resubscribes_unsubscribeConnection c track)
  | datagram env datagram => exact hanswers (answers_receiveDatagram hcovered env datagram)
  | trackObject stream object =>
      exact hanswers (frame_answers.parseTrackObject c stream object hcovered)
  | trackCheckpoint checkpoint => exact absurd rfl (hcheckpoint checkpoint)
  | trackEnd finish => exact absurd rfl (hend finish)
  | expire slot => exact hanswers (frame_answers.expireAssembler c slot hcovered)
  | flushAcks => exact hanswers (frame_answers.flushRecoveryAcks c hcovered)
  | sendNack request withheld =>
      exact hanswers (frame_answers.sendNack c request withheld hcovered)
  | admissions admissions => exact hanswers (frame_answers.drained c admissions hcovered)
  | close code reason => exact hanswers (frame_answers.quiclyClose c code reason hcovered)

end Conn

end Qlinq
