import Qlinq.AppOrder
import Qlinq.AppSend
import Qlinq.GroupOffers
import Qlinq.GroupSequence

namespace Qlinq

/-! From the input of one file bridge to the output of another: what is written is a prefix
of what was read. -/

namespace Transport

variable {t t' : Transport}

/-- Datagrams are delivered to a connection that has an alias for their track. -/
theorem addressable_of_delivered
    (hresult : (t.publishDatagrams env object false).2 = .delivered) :
    t.Addressable object.trackId := by
  have hcount : (t.recipientTally env object false).delivered ≠ 0 := by
    intro hzero
    have hfailure := (tally_failure_refuses
      ((t.recipientTurns env object false).map Prod.snd)
      { maximumSentSymbols := t.objectDataSymbols object } (by simp)).1
    unfold publishDatagrams at hresult
    split at hresult
    · cases hresult
    dsimp only at hresult
    split at hresult
    · cases hresult
    · simp only [Tally.result, hzero, if_true] at hresult
      repeat' split at hresult
      all_goals first
        | cases hresult
        | exact hfailure hresult
  exact (recipient_of_tally (.inl hcount)).resolve_left Bool.false_ne_true

/-- A record of a grouped track is taken into the buffer or has no recipient. -/
theorem groupsRecords_of_taken (hgroupable : isGroupable object.trackId = true)
    (hreliable : (trackProfile object.trackId).reliable = false)
    (hresult : (t.publish env object).2 = .delivered ∨ (t.publish env object).2 = .buffered) :
    t.groupsRecords object.trackId = true := by
  have hcases := published_cases t env object
  revert hcases hresult
  generalize (t.publish env object).1 = t'
  generalize (t.publish env object).2 = result
  intro hresult hcases
  cases hcases with
  | refused hinvalid => simp at hresult
  | direct hconflict hgroups hattempt =>
      have hbuffered := publishUngrouped_ne_buffered t env.direct object false
      rw [hattempt] at hbuffered
      have hdelivered := hresult.resolve_right hbuffered
      refine groupsRecords_of_addressable hconflict hgroupable ?_
      subst hdelivered
      unfold publishUngrouped at hattempt
      split at hattempt
      · simp at hattempt
      · rw [if_neg (by simp [hreliable])] at hattempt
        exact addressable_of_delivered (by rw [hattempt])
  | oversized hgroups => exact hgroups
  | unstaged hgroups hstage => exact hgroups
  | buffered hgroups hsize hstage => exact hgroups
  | completed hgroups hsize hstage hcomplete hflush => exact hgroups

theorem completesSoundly_of_publish
    (hresult : (t.publish env object).2 ≠ .error ∧ (t.publish env object).2 ≠ .invalid) :
    t.CompletesSoundly (.publish env object) := by
  intro hgroups hstage hcomplete hbreaks
  rcases hstaged : t.stageRecord env object with ⟨s, stop⟩
  rw [hstaged] at hstage hcomplete hbreaks
  obtain rfl : stop = none := hstage
  unfold publish at hresult
  split at hresult
  · exact hresult.2 rfl
  rw [publishGrouped] at hresult
  dsimp only at hresult
  split at hresult
  · exact hresult.2 rfl
  rw [hstaged] at hresult
  dsimp only at hresult
  rw [if_pos hcomplete] at hresult
  exact hresult.1 ((trailingResult_error_iff s env.after).mpr hbreaks)

end Transport

namespace AppSender

variable {s : AppSender}

/-! ### What the sender handed over -/

theorem failed_apply (s : AppSender) (op : Op) (hfailed : s.failed = true) :
    (s.apply op).failed = true := by
  cases op with
  | transport op => exact hfailed
  | subscribed track =>
      simp only [apply]
      split <;> exact hfailed
  | unsubscribed track =>
      simp only [apply]
      split <;> exact hfailed
  | publishPending env now =>
      simp only [apply, publishPending]
      split
      · exact hfailed
      · split <;> first | exact hfailed | rfl
  | loadInput ready answer =>
      simp only [apply, loadInput]
      split
      · exact hfailed
      split
      · exact hfailed
      cases answer with
      | took count =>
          dsimp only
          split <;> exact hfailed
      | interrupted => exact hfailed
      | failed => rfl
  | finishTrack env now =>
      simp only [apply, finishTrack]
      split
      · exact hfailed
      split
      · split <;> exact hfailed
      · exact hfailed

theorem failed_of_run {ops : List Op} (hrun : (s.run ops).failed = false) :
    s.failed = false := by
  cases hfailed : s.failed with
  | false => rfl
  | true =>
      have hstep : ∀ (s : AppSender) (op : Op), s.failed = true → True →
          (s.apply op).failed = true := fun s op hinv _ => failed_apply s op hinv
      have hstill : (s.run ops).failed = true :=
        Machine.invariant_run hstep hfailed (Machine.along_true s ops)
      rw [hrun] at hstill
      cases hstill

/-- A publication that does not fail the sender leaves no broken group behind its record. -/
theorem soundly_apply (s : AppSender) (op : Op) (hrun : (s.apply op).failed = false) :
    ∀ call ∈ s.transportOp op, s.transport.CompletesSoundly call := by
  intro call hcall
  cases op with
  | transport op =>
      obtain rfl : op.1 = call := Option.mem_some_iff.mp hcall
      obtain ⟨op, hinternal⟩ := op
      cases op with
      | publish env object => cases hinternal
      | _ => trivial
  | publishPending env now =>
      simp only [transportOp] at hcall
      split at hcall
      · cases hcall
      · next hdue =>
          obtain rfl := Option.mem_some_iff.mp hcall
          apply Transport.completesSoundly_of_publish
          simp only [apply, publishPending, if_neg hdue] at hrun
          rcases hpublish : s.transport.publish env s.object with ⟨t, result⟩
          rw [hpublish] at hrun
          cases result <;> simp at hrun ⊢
  | finishTrack env now =>
      simp only [transportOp] at hcall
      split at hcall
      · cases hcall
      · obtain rfl := Option.mem_some_iff.mp hcall
        trivial
  | subscribed track => cases hcall
  | unsubscribed track => cases hcall
  | loadInput ready answer => cases hcall

theorem soundly_run {ops : List Op} (hrun : (s.run ops).failed = false) :
    Machine.Along Transport.apply Transport.CompletesSoundly s.transport
      (s.transportOps ops) := by
  induction ops generalizing s with
  | nil => trivial
  | cons op rest ih =>
      have hrest := ih (s := s.apply op) hrun
      have hhere := soundly_apply s op (failed_of_run (s := s.apply op) hrun)
      rw [transport_apply] at hrest
      rw [transportOps]
      cases hcall : s.transportOp op with
      | none =>
          rw [hcall] at hrest
          exact hrest
      | some call =>
          rw [hcall] at hrest
          exact ⟨hhere call hcall, hrest⟩

/-- The answer says that the record is on its way. -/
def accepted (entry : Bytes × PublishResult) : Bool := entry.2 != .noRecipients

/-- The track's objects are groups of records, sent as datagrams. -/
structure Streams (track : TrackId) : Prop where
  grouped : App.grouped track = true
  unreliable : (trackProfile track).reliable = false

theorem accepted_apply (htrack : Streams s.track) (op : Op) :
    ((s.transportOp op).bind s.transport.acceptedBy).toList =
      ((s.handedBy op).toList.filter accepted).map fun entry => (s.track, entry.1) := by
  cases op with
  | transport op =>
      obtain ⟨op, hinternal⟩ := op
      cases op with
      | publish env object => cases hinternal
      | _ => rfl
  | subscribed track => rfl
  | unsubscribed track => rfl
  | loadInput ready answer => rfl
  | finishTrack env now =>
      simp only [transportOp, handedBy]
      split <;> rfl
  | publishPending env now =>
      simp only [transportOp, handedBy]
      by_cases hwaits : s.message = [] ∨ now < s.nextSendAt
      · rw [if_pos hwaits, if_pos (by tauto)]
        rfl
      · rw [if_neg hwaits, Option.bind_some, Transport.acceptedBy]
        rw [not_or] at hwaits
        have htaken : (s.transport.publish env s.object).2 = .delivered ∨
            (s.transport.publish env s.object).2 = .buffered →
              s.transport.groupsRecords s.track = true :=
          Transport.groupsRecords_of_taken htrack.grouped htrack.unreliable
        generalize (s.transport.publish env s.object).2 = result at htaken
        cases result with
        | delivered =>
            rw [if_pos ⟨htaken (.inl rfl), .inl rfl⟩,
              if_neg (by simp [hwaits, PublishResult.taken])]
            rfl
        | buffered =>
            rw [if_pos ⟨htaken (.inr rfl), .inr rfl⟩,
              if_neg (by simp [hwaits, PublishResult.taken])]
            rfl
        | noRecipients =>
            rw [if_neg (by simp), if_neg (by simp [hwaits, PublishResult.taken])]
            rfl
        | _ =>
            rw [if_neg (by simp), if_pos (by simp [PublishResult.taken])]
            rfl

theorem accepted_run (htrack : Streams s.track) (ops : List Op) (call : Nat) :
    (s.transport.acceptedRecords call (s.transportOps ops)).map Transport.GroupedRecord.content =
      ((s.handed ops).filter accepted).map fun entry => (s.track, entry.1) := by
  induction ops generalizing s call with
  | nil => rfl
  | cons op rest ih =>
      have hstep := accepted_apply htrack op
      have hsame := (input_apply s op).2.2
      have hrest := fun call => ih (s := s.apply op) (by rwa [hsame]) call
      rw [transport_apply, hsame] at hrest
      rw [handed, List.filter_append, List.map_append, ← hstep, transportOps]
      cases hcall : s.transportOp op with
      | none =>
          rw [hcall] at hrest
          simpa using hrest call
      | some operation =>
          rw [hcall] at hrest
          change
            (s.transport.acceptedRecords call (operation :: (s.apply op).transportOps rest)).map
            Transport.GroupedRecord.content = _
          rw [Transport.acceptedRecords, List.map_append]
          congr 1
          · rw [Option.bind_some]
            cases s.transport.acceptedBy operation <;> rfl
          · exact hrest (call + 1)

/-! ### End to end -/

/-- The records of a group are found again. -/
theorem recordBytes_groupOf {object : MoqObject} {group : List GroupedRecord}
    (hdata : object.data = recordFraming.frames (group.map (·.data)))
    (hsizes : ∀ record ∈ group, record.data.length ≤ maxFecRecordSize) :
    App.recordBytes object.data = (group.map (·.data)).flatten := by
  rw [App.recordBytes, hdata, daemonRecords_frames]
  intro data hmem
  obtain ⟨record, hrecord, rfl⟩ := List.mem_map.mp hmem
  exact hsizes record hrecord

/-- The groups of the track, one after the other, hold the accepted records in their order:
all of them but those in the buffer that were not attempted yet. -/
theorem sequence_records {t : Transport} {track : TrackId} {accepted : List GroupedRecord}
    (hledger : Transport.Ledger t accepted groups pending)
    (htrack : ∀ record ∈ accepted, record.track = track) :
    ∃ rest, (t.sequence track).flatMap (fun object => App.recordBytes object.data) ++ rest =
        (accepted.map (·.data)).flatten ∧ (t.fecBuf = [] → rest = []) := by
  have hsizes : ∀ group ∈ groups, ∀ record ∈ group, record.data.length ≤ maxFecRecordSize := by
    intro group hgroup record hrecord
    apply hledger.sizes
    rw [hledger.accounted]
    exact List.mem_append_left _ (List.mem_flatten.mpr ⟨group, hgroup, hrecord⟩)
  have hall : t.publishedOn track = t.published := by
    refine List.filter_eq_self.mpr fun object hobject => ?_
    obtain ⟨group, hgroup, hgroupOf⟩ := Pointwise.exists_right hledger.published hobject
    obtain ⟨record, hrecord⟩ := List.exists_mem_of_ne_nil _ hgroupOf.nonempty
    rw [decide_eq_true_eq, ← hgroupOf.track record hrecord]
    apply htrack
    rw [hledger.accounted]
    exact List.mem_append_left _ (List.mem_flatten.mpr ⟨group, hgroup, hrecord⟩)
  have hpublished : t.published.flatMap (fun object => App.recordBytes object.data) =
      (groups.flatten.map (·.data)).flatten := by
    have hgroups := hledger.published
    revert hsizes
    generalize t.published = objects at hgroups
    intro hsizes
    clear hall hledger
    induction hgroups with
    | nil => rfl
    | @cons object group objects groups hgroup _ ih =>
        rw [List.flatMap_cons, recordBytes_groupOf hgroup.data (hsizes group List.mem_cons_self),
          ih fun other hother => hsizes other (List.mem_cons_of_mem _ hother)]
        simp
  have hpending : App.recordBytes t.fecBuf = (pending.map (·.data)).flatten := by
    rw [App.recordBytes, hledger.buffer, daemonRecords_frames]
    intro data hmem
    obtain ⟨record, hrecord, rfl⟩ := List.mem_map.mp hmem
    apply hledger.sizes
    rw [hledger.accounted]
    exact List.mem_append_right _ hrecord
  have hnone : t.fecBuf = [] → (pending.map (·.data)).flatten = [] := by
    intro hbuffer
    rw [(Transport.pending_eq_nil_iff hledger).mpr hbuffer]
    rfl
  rw [Transport.sequence, hall, List.flatMap_append, hpublished, hledger.accounted,
    List.map_append, List.flatten_append]
  split
  · cases t.findFecTrackState track with
    | none => exact ⟨(pending.map (·.data)).flatten, by simp, hnone⟩
    | some state => exact ⟨[], by simp [Transport.groupObject, hpending], fun _ => rfl⟩
  · exact ⟨(pending.map (·.data)).flatten, by simp, hnone⟩

/-- A receiver that finds the objects of a sequence has written the first few of them. -/
theorem recordsBelow_eq (sent : List MoqObject) {objects : List MoqObject} {next : Nat}
    (hobjects : ∀ id < next, App.arrived objects id = (sent[id]?).map (·.data))
    (harrived : ∀ id < next, (App.arrived objects id).isSome) :
    next ≤ sent.length ∧ App.recordsBelow (App.arrived objects) next =
      (sent.take next).flatMap fun object => App.recordBytes object.data := by
  have hnext : next ≤ sent.length := by
    by_contra hless
    have hlast := harrived sent.length (by omega)
    rw [hobjects sent.length (by omega), List.getElem?_eq_none le_rfl] at hlast
    cases hlast
  refine ⟨hnext, ?_⟩
  clear harrived
  induction next with
  | zero => rfl
  | succ next ih =>
      have hitem := hobjects next (by omega)
      rw [List.getElem?_eq_getElem (by omega)] at hitem
      rw [App.recordsBelow_succ hitem, ih (fun id hid => hobjects id (by omega)) (by omega),
        List.take_add_one, List.getElem?_eq_getElem (by omega), List.flatMap_append]
      simp only [Option.toList_some, List.flatMap_cons, List.flatMap_nil, List.append_nil]

/-- Whatever is lost, repeated or reordered between two file bridges, a receiver that does not
fail has written a prefix of what the sender handed over, and so of the input where every record
found a recipient; it has written everything once the sender's buffer is empty and each group
has arrived. -/
theorem output_prefix (s : AppSender) (ops : List Op) (events : List (AppEnv × MoqObject))
    (isServer : Bool) (limits : TransportLimits) (maxRecoveryCacheBytes receiveLimit : Nat)
    (hstart : s.transport = .init isServer limits maxRecoveryCacheBytes) (hempty : s.message = [])
    (htrack : Streams s.track) (hsent : (s.run ops).failed = false)
    (hevents : events.length < objectIds)
    (hknown : ∀ object ∈ App.trackObjects s.track events,
      object.trackId = s.track ∧ (s.run ops).transport.KnownGroup object) :
    let app := App.receive { track := s.track, output := some [], receiveLimit := receiveLimit }
      events
    let handedOver := (((s.handed ops).filter accepted).map Prod.fst).flatten
    app.failed = false → ∃ file, app.output = some file ∧ file <+: handedOver ∧
      ((∀ entry ∈ s.handed ops, accepted entry = true) → file <+: s.input) ∧
      ((s.run ops).transport.fecBuf = [] →
        (∀ object ∈ (s.run ops).transport.published,
          object ∈ App.trackObjects s.track events) → file = handedOver) := by
  intro app handedOver hreceived
  have hrun := transport_run s ops
  obtain ⟨groups, pending, hledger⟩ := Transport.ledger_run
    (Transport.ledger_init isServer limits maxRecoveryCacheBytes)
    (hstart ▸ soundly_run hsent) 0
  rw [← hstart, ← hrun, List.nil_append] at hledger
  have hreachable : (s.run ops).transport.Consecutive ∧ (s.run ops).transport.Numbered := by
    rw [hrun, hstart]
    exact ⟨Transport.consecutive_run _ _ _ _, Transport.numbered_run _ _ _ _⟩
  obtain ⟨hconsecutive, hnumbered⟩ := hreachable
  have haccepted := accepted_run htrack ops 0
  have hon : ∀ record ∈ s.transport.acceptedRecords 0 (s.transportOps ops),
      record.track = s.track := by
    intro record hrecord
    have hmem := List.mem_map_of_mem (f := Transport.GroupedRecord.content) hrecord
    rw [haccepted] at hmem
    obtain ⟨entry, _, hentry⟩ := List.mem_map.mp hmem
    exact (congrArg Prod.fst hentry).symm
  have hdata : ((s.transport.acceptedRecords 0 (s.transportOps ops)).map (·.data)).flatten =
      handedOver := by
    have hsecond := congrArg (List.map Prod.snd) haccepted
    rw [List.map_map, List.map_map] at hsecond
    exact congrArg List.flatten hsecond
  obtain ⟨rest, hrecords, hrest⟩ := sequence_records hledger hon
  rw [hdata] at hrecords
  have hgrouped : ∀ object ∈ App.trackObjects s.track events,
      App.grouped object.trackId = true := by
    intro object hobject
    rw [(hknown object hobject).1]
    exact htrack.grouped
  obtain ⟨-, -, horder⟩ := App.receive_in_order s.track [] receiveLimit events hevents hgrouped
  obtain ⟨-, harrived, hmissing, houtput⟩ := horder hreceived
  rw [List.nil_append] at houtput
  -- What arrived under an id is the sender's group of that id.
  have hplaced : ∀ id data, App.arrived (App.trackObjects s.track events) id = some data →
      ((s.run ops).transport.sequence s.track)[id]?.map (·.data) = some data := by
    intro id data hfound
    unfold App.arrived at hfound
    obtain ⟨object, hobject, rfl⟩ := Option.map_eq_some_iff.mp hfound
    have hid := List.find?_some hobject
    rw [beq_iff_eq] at hid
    obtain ⟨hsame, hknowing⟩ := hknown object (List.mem_of_find?_eq_some hobject)
    have hplace := (Transport.sequence_of_knownGroup hconsecutive hknowing).2
    rw [hsame, hid] at hplace
    rw [hplace]
    rfl
  obtain ⟨hnext, hwritten⟩ :=
    recordsBelow_eq ((s.run ops).transport.sequence s.track) (fun id hid => by
      obtain ⟨data, hfound⟩ := Option.isSome_iff_exists.mp (harrived id hid)
      rw [hfound, hplaced id data hfound]) harrived
  rw [hwritten] at houtput
  have hprefix : (((s.run ops).transport.sequence s.track).take app.reorder.next).flatMap
      (fun object => App.recordBytes object.data) <+: handedOver := by
    rw [← hrecords, ← List.take_append_drop app.reorder.next
      ((s.run ops).transport.sequence s.track), List.flatMap_append, List.append_assoc,
      List.take_append_drop]
    exact List.prefix_append _ _
  refine ⟨_, houtput, hprefix, fun hall => hprefix.trans ?_, fun hbuffer hcame => ?_⟩
  · have hinput := (input_run s ops).1
    rw [hempty, List.nil_append, List.append_assoc] at hinput
    change (((s.handed ops).filter accepted).map Prod.fst).flatten <+: s.input
    rw [List.filter_eq_self.mpr hall, hinput]
    exact List.prefix_append _ _
  · have hidle := Transport.fecFlushPending_of_empty hnumbered hbuffer
    have hsequence : (s.run ops).transport.sequence s.track =
        (s.run ops).transport.publishedOn s.track := by
      rw [Transport.sequence, if_neg (by simp [hidle]), List.append_nil]
    have hwhole : ((s.run ops).transport.sequence s.track).length ≤ app.reorder.next := by
      rw [hsequence]
      by_contra hless
      have hobject := List.getElem?_eq_getElem (Nat.lt_of_not_le hless)
      rw [Transport.getElem?_publishedOn hconsecutive] at hobject
      obtain ⟨hpublished, -, hid⟩ := hobject
      have hfound : (App.arrived (App.trackObjects s.track events) app.reorder.next).isSome := by
        unfold App.arrived
        rw [Option.isSome_map, List.find?_isSome]
        exact ⟨_, hcame _ hpublished, by simpa using hid⟩
      rw [hmissing] at hfound
      cases hfound
    rw [List.take_of_length_le hwhole, ← hrecords, hrest hbuffer, List.append_nil]

def bridgeTrack : TrackId where
  type := .data
  flags := flagFecEnabled
  name := [97]

def bridgeSender : AppSender where
  transport := Transport.server
  track := bridgeTrack
  input := [1, 2, 3, 4, 5]
  messageCapacity := 2

def joining : List Op :=
  [.transport ⟨.connect, rfl⟩, .transport ⟨.hello 0 (Transport.helloFor defaultLimits), rfl⟩,
    .transport ⟨.respondAuth 0 true, rfl⟩,
    .transport ⟨.receive Transport.quietRepair 0 (.subscribe 8 bridgeTrack), rfl⟩,
    .subscribed bridgeTrack]

/-- Three records in two groups. -/
def bridgeRun : List Op :=
  joining ++ [.loadInput true (.took 2), .publishPending Transport.quietPublish 0,
    .transport ⟨.flush Transport.quietFlush, rfl⟩, .loadInput true (.took 2),
    .publishPending Transport.quietPublish 1, .loadInput true .interrupted,
    .loadInput true (.took 2), .publishPending Transport.quietPublish 2,
    .transport ⟨.flush Transport.quietFlush, rfl⟩]

def bridgeEnv : AppEnv := ⟨fun _ => 4096, true, 0⟩

/-- The second group comes first, and once more behind the other. -/
def bridgeEvents : List (AppEnv × MoqObject) :=
  let groups := (bridgeSender.run bridgeRun).transport.published
  (groups.reverse ++ groups).map (bridgeEnv, ·)

theorem output_prefix_reordered :
    ∃ file, (App.receive { track := bridgeTrack, output := some [] } bridgeEvents).output =
        some file ∧ file <+: bridgeSender.input ∧ file.length = 5 := by
  obtain ⟨file, houtput, -, hprefix, -⟩ := output_prefix bridgeSender bridgeRun bridgeEvents true
    defaultLimits defaultRecoveryCacheBytes 0 rfl rfl ⟨by decide, by decide⟩
    (by decide +kernel) (by decide +kernel) (by
      intro object hobject
      have hmem : object ∈ (bridgeSender.run bridgeRun).transport.published := by
        have hin := (List.mem_filter.mp hobject).1
        simpa [bridgeEvents] using hin
      refine ⟨?_, .inl hmem⟩
      revert object
      decide +kernel) (by decide +kernel)
  refine ⟨file, houtput, hprefix (by decide +kernel), ?_⟩
  have hfile : (App.receive { track := bridgeTrack, output := some [] } bridgeEvents).output =
      some [1, 2, 3, 4, 5] := by decide +kernel
  rw [show file = [1, 2, 3, 4, 5] from Option.some.inj (houtput.symm.trans hfile)]
  rfl

end AppSender

end Qlinq
