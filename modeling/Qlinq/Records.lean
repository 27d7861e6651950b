import Qlinq.PublishEffects
import Qlinq.Publisher
import Qlinq.Received

namespace Qlinq

/-! Where the records of the grouped path go: each accepted record is in one
group object or in the buffer, in the order of the calls. -/

/-- A record and the publication call it was handed over by. -/
structure GroupedRecord where
  call : Nat
  track : TrackId
  data : Bytes
  deriving DecidableEq, Repr

namespace Transport

/-- The call takes a record over for grouped publication. -/
def acceptedBy (t : Transport) : Op → Option (TrackId × Bytes)
  | .publish env object =>
      let result := (t.publish env object).2
      if t.groupsRecords object.trackId ∧ (result = .delivered ∨ result = .buffered) then
        some (object.trackId, object.data)
      else
        none
  | _ => none

/-- The records accepted along a run, with the number of their call. -/
def acceptedRecords (t : Transport) (call : Nat) : List Op → List GroupedRecord
  | [] => []
  | op :: rest =>
      ((t.acceptedBy op).map fun (track, data) => ⟨call, track, data⟩).toList ++
        (t.apply op).acceptedRecords (call + 1) rest

/-- The group cannot be attempted, or its attempt fails for good: its track has
no slot, or publication answers INVALID or ERROR. -/
def FlushBreaks (t : Transport) (env : FlushEnv) : Prop :=
  t.fecBuf ≠ [] ∧
    match t.createFecTrackState t.fecTrackId with
    | none => True
    | some (slotted, state) =>
        (slotted.attempting.publishUngrouped env (slotted.groupObject state) true).2 =
            .invalid ∨
          (slotted.attempting.publishUngrouped env (slotted.groupObject state) true).2 =
            .error

/-- No record completes a group that then breaks: the flush behind the record
succeeds or leaves the group pending. -/
def CompletesSoundly (t : Transport) : Op → Prop
  | .publish env object =>
      t.groupsRecords object.trackId = true → (t.stageRecord env object).2 = none →
        (t.stageRecord env object).1.groupComplete
          (groupLimit (t.publicationFecLimit object.trackId)) = true →
        ¬ (t.stageRecord env object).1.FlushBreaks env.after
  | _ => True

/-- The object consists of the group's records. -/
structure GroupOf (object : MoqObject) (group : List GroupedRecord) : Prop where
  nonempty : group ≠ []
  data : object.data = recordFraming.frames (group.map (·.data))
  track : ∀ record ∈ group, record.track = object.trackId

/-- The accepted records are those of the published groups, then those in the
buffer. -/
structure Ledger (t : Transport) (accepted : List GroupedRecord)
    (groups : List (List GroupedRecord)) (pending : List GroupedRecord) : Prop where
  accounted : accepted = groups.flatten ++ pending
  published : List.Forall₂ GroupOf t.published groups
  buffer : t.fecBuf = recordFraming.frames (pending.map (·.data))
  pending_track : ∀ record ∈ pending, record.track = t.fecTrackId
  sizes : ∀ record ∈ accepted, record.data.length ≤ maxFecRecordSize

theorem Ledger.congr (hledger : Ledger t accepted groups pending)
    (hpublished : t'.published = t.published) (hbuffer : t'.fecBuf = t.fecBuf)
    (htrack : t'.fecTrackId = t.fecTrackId) : Ledger t' accepted groups pending where
  accounted := hledger.accounted
  published := by
    rw [hpublished]
    exact hledger.published
  buffer := hbuffer.trans hledger.buffer
  pending_track := fun record hrecord =>
    (hledger.pending_track record hrecord).trans htrack.symm
  sizes := hledger.sizes

theorem pending_eq_nil_iff (hledger : Ledger t accepted groups pending) :
    pending = [] ↔ t.fecBuf = [] := by
  rw [hledger.buffer]
  cases pending with
  | nil => simp
  | cons record rest => simp [Framing.frame, recordFraming, u16be]

/-- A flush moves the buffered records into one group object, or nowhere. -/
theorem ledger_flushed (hledger : Ledger t accepted groups pending)
    (hflushed : Flushed t env t' result) :
    ∃ groups' pending', Ledger t' accepted groups' pending' := by
  obtain ⟨⟨-, hbuffer, hpublished⟩ | ⟨-, hempty, hcommitted⟩, htrack⟩ := hflushed.buffer
  · exact ⟨groups, pending, hledger.congr hpublished hbuffer htrack⟩
  · rcases hcommitted with ⟨hold, hpublished⟩ | ⟨hfull, object, hobject, hdata, hpublished⟩
    · exact ⟨groups, pending, hledger.congr hpublished (hempty.trans hold.symm) htrack⟩
    · have hpending : pending ≠ [] := fun hnone =>
        hfull ((pending_eq_nil_iff hledger).mp hnone)
      refine ⟨groups ++ [pending], [], ?_⟩
      constructor
      · simpa using hledger.accounted
      · rw [hpublished]
        refine List.rel_append hledger.published (.cons ?_ .nil)
        refine ⟨hpending, hdata.trans hledger.buffer, fun record hrecord => ?_⟩
        exact (hledger.pending_track record hrecord).trans hobject.symm
      · simpa using hempty
      · simp
      · exact hledger.sizes

theorem flushGrouped_ledger (hledger : Ledger t accepted groups pending) (env : FlushEnv) :
    ∃ groups' pending', Ledger (t.flushGrouped env).1 accepted groups' pending' :=
  ledger_flushed hledger (flushed t env)

theorem ledger_room (hledger : Ledger t accepted groups pending)
    (hroom : Room t env object limit s) :
    (∃ groups' pending', Ledger s accepted groups' pending') ∧
      (s.fecBuf ≠ [] → s.fecTrackId = object.trackId) := by
  cases hroom with
  | here hforeign hfull =>
      refine ⟨⟨groups, pending, hledger⟩, fun hbuffer => ?_⟩
      simp only [groupForeign, Bool.and_eq_false_iff, Bool.or_eq_false_iff] at hforeign
      rcases hforeign with hempty | ⟨⟨-, htrack⟩, -⟩
      · simp [hbuffer] at hempty
      · simpa using htrack
  | emptied hdue hflush =>
      have hflushed := flushed t env
      rw [hflush] at hflushed
      refine ⟨ledger_flushed hledger hflushed, fun hbuffer => ?_⟩
      rcases hflushed.buffer.1 with ⟨hne, -⟩ | ⟨-, hempty, -⟩
      · exact absurd rfl hne
      · exact absurd hempty hbuffer

theorem ledger_beginGroup (hledger : Ledger t accepted groups pending)
    (object : MoqObject) :
    Ledger (t.beginGroup object) accepted groups pending := by
  simp only [beginGroup]
  split
  · next hempty =>
      have hpending := (pending_eq_nil_iff hledger).mpr hempty
      subst hpending
      exact { hledger with pending_track := by simp }
  · exact hledger

theorem beginGroup_track {t : Transport}
    (htrack : t.fecBuf ≠ [] → t.fecTrackId = object.trackId) :
    (t.beginGroup object).fecTrackId = object.trackId := by
  simp only [beginGroup]
  split
  · rfl
  · next hbuffer => exact htrack hbuffer

theorem appendRecord_eq {t t' : Transport} (happend : t.appendRecord grows object = some t') :
    t'.fecBuf = t.fecBuf ++ u16be object.size ++ object.data ∧
      t'.fecTrackId = t.fecTrackId ∧ t'.published = t.published := by
  simp only [appendRecord] at happend
  split at happend
  · simp at happend
  · obtain rfl := Option.some.inj happend
    exact ⟨rfl, rfl, rfl⟩

theorem ledger_append (hledger : Ledger t accepted groups pending)
    (happend : t.appendRecord grows object = some t')
    (htrack : t.fecTrackId = object.trackId) (hsize : object.size ≤ maxFecRecordSize)
    (call : Nat) :
    Ledger t' (accepted ++ [⟨call, object.trackId, object.data⟩]) groups
      (pending ++ [⟨call, object.trackId, object.data⟩]) := by
  obtain ⟨hbuffer, htrack', hpublished⟩ := appendRecord_eq happend
  constructor
  · rw [hledger.accounted, List.append_assoc]
  · rw [hpublished]
    exact hledger.published
  · rw [hbuffer, hledger.buffer, List.map_append, List.map_singleton,
      Framing.frames_concat]
    rfl
  · intro record hrecord
    rw [htrack']
    rcases List.mem_append.mp hrecord with hold | hnew
    · exact hledger.pending_track record hold
    · rw [List.mem_singleton.mp hnew, htrack]
  · intro record hrecord
    rcases List.mem_append.mp hrecord with hold | hnew
    · exact hledger.sizes record hold
    · rw [List.mem_singleton.mp hnew]
      exact hsize

/-- A record that is staged is in the buffer; one that is not is nowhere. -/
theorem ledger_stageRecord (hledger : Ledger t accepted groups pending)
    (env : PublishEnv) (object : MoqObject) (call : Nat) :
    match t.stageRecord env object with
    | (t', none) => object.size ≤ maxFecRecordSize → ∃ groups' pending',
        Ledger t' (accepted ++ [⟨call, object.trackId, object.data⟩]) groups' pending'
    | (t', some _) => ∃ groups' pending', Ledger t' accepted groups' pending' := by
  have hstaged := staged t env object
  rcases hstage : t.stageRecord env object with ⟨t', refused⟩
  rw [hstage] at hstaged
  cases hstaged with
  | refused hdue hflush hresult =>
      have hflushed := flushed t env.before
      rw [hflush] at hflushed
      exact ledger_flushed hledger hflushed
  | unallocated hroom happend =>
      obtain ⟨⟨groups', pending', hroomy⟩, -⟩ := ledger_room hledger hroom
      exact ⟨groups', pending', ledger_beginGroup hroomy object⟩
  | appended hroom happend =>
      obtain ⟨⟨groups', pending', hroomy⟩, htrack⟩ := ledger_room hledger hroom
      intro hsize
      exact ⟨groups', _, ledger_append (ledger_beginGroup hroomy object) happend
        (beginGroup_track htrack) hsize call⟩

/-- The record's result is ERROR exactly when its completed group breaks. -/
theorem trailingResult_error_iff (t : Transport) (env : FlushEnv) :
    trailingResult (t.flushGrouped env).2 = .error ↔ t.FlushBreaks env := by
  have hflushed := flushed t env
  simp only [FlushBreaks]
  revert hflushed
  generalize (t.flushGrouped env).1 = t'
  generalize hresult : (t.flushGrouped env).2 = result
  intro hflushed
  cases hflushed with
  | empty hempty => simp [trailingResult, hempty]
  | noSlot hbuffer hslot => simp [trailingResult, hbuffer, hslot]
  | @failed slotted state attempted _ hbuffer hslot hattempt hdelivered hnobody =>
      have hbuffered := publishUngrouped_ne_buffered slotted.attempting env
        (slotted.groupObject state) true
      rw [hattempt] at hbuffered
      cases result <;> simp_all [trailingResult]
  | committed hbuffer hslot hattempt houtcome =>
      rcases houtcome with rfl | rfl <;> simp [trailingResult, hslot, hattempt]

/-- A publication call keeps the books when its completed group does not
break. -/
theorem ledger_publish (hledger : Ledger t accepted groups pending) (env : PublishEnv)
    (object : MoqObject) (hsound : t.CompletesSoundly (.publish env object)) (call : Nat) :
    ∃ groups' pending', Ledger (t.publish env object).1
      (accepted ++ ((t.acceptedBy (.publish env object)).map
        fun (track, data) => ⟨call, track, data⟩).toList) groups' pending' := by
  have hcases := published_cases t env object
  have hstaged := ledger_stageRecord hledger env object call
  simp only [acceptedBy]
  simp only [CompletesSoundly] at hsound
  revert hcases
  generalize (t.publish env object).1 = t'
  generalize hresult : (t.publish env object).2 = result
  intro hcases
  cases hcases with
  | refused hinvalid =>
      rw [if_neg (by simp)]
      exact ⟨groups, pending, by simpa using hledger⟩
  | direct hconflict hgroups hattempt =>
      have hsame := publishUngrouped_grouping t env.direct object false
      rw [hattempt] at hsame
      rw [if_neg (by simp [hgroups])]
      exact ⟨groups, pending, by
        simpa using hledger.congr hsame.published hsame.fecBuf hsame.fecTrackId⟩
  | oversized hgroups =>
      rw [if_neg (by simp)]
      exact ⟨groups, pending, by simpa using hledger⟩
  | unstaged hgroups hstage =>
      have hrefused := staged t env object
      rw [hstage] at hrefused hstaged
      have hne : ¬ (t.groupsRecords object.trackId = true ∧
          (result = .delivered ∨ result = .buffered)) := by
        rintro ⟨-, haccepted⟩
        cases hrefused with
        | @refused _ outcome hdue hflush houtcome => cases outcome <;> simp_all [refusal]
        | unallocated hroom happend => simp at haccepted
      rw [if_neg hne]
      simpa using hstaged
  | buffered hgroups hsize hstage =>
      rw [hstage] at hstaged
      rw [if_pos ⟨hgroups, Or.inr rfl⟩]
      exact hstaged hsize
  | @completed s _ outcome hgroups hsize hstage hcomplete hflush =>
      rw [hstage] at hstaged hsound
      obtain ⟨groups', pending', happended⟩ := hstaged hsize
      have herror := trailingResult_error_iff s env.after
      rw [hflush] at herror
      have hkept := mt herror.mp (hsound hgroups rfl hcomplete)
      have haccepted : trailingResult outcome = .delivered ∨
          trailingResult outcome = .buffered := by
        cases outcome <;> simp_all [trailingResult]
      rw [if_pos ⟨hgroups, haccepted⟩]
      have hflushed := flushed s env.after
      rw [hflush] at hflushed
      exact ledger_flushed happended hflushed

theorem ledger_finishTrack (hledger : Ledger t accepted groups pending) (env : FlushEnv)
    (track : TrackId) :
    ∃ groups' pending', Ledger (t.finishTrack env track).1 accepted groups' pending' := by
  have hsettled : ∀ s, Settled t env track s →
      ∃ groups' pending', Ledger s accepted groups' pending' := by
    intro s hsettled
    cases hsettled with
    | here hother => exact ⟨groups, pending, hledger⟩
    | flushed hpending hflush =>
        have hflushed := flushed t env
        rw [hflush] at hflushed
        exact ledger_flushed hledger hflushed
  have hfinished := finished t env track
  revert hfinished
  generalize (t.finishTrack env track).1 = t'
  intro hfinished
  cases hfinished with
  | refused => exact ⟨groups, pending, hledger⟩
  | unflushed hpending hflush hresult =>
      have hflushed := flushed t env
      rw [hflush] at hflushed
      exact ledger_flushed hledger hflushed
  | unused hunused => exact hsettled _ hunused
  | announced hrateless hannounced hfound hobjects =>
      obtain ⟨groups', pending', hbooks⟩ := hsettled _ hannounced
      exact ⟨groups', pending', hbooks.congr rfl rfl rfl⟩

/-- Every step keeps the books. -/
theorem ledger_apply (hledger : Ledger t accepted groups pending) (op : Op)
    (hsound : t.CompletesSoundly op) (call : Nat) :
    ∃ groups' pending', Ledger (t.apply op)
      (accepted ++ ((t.acceptedBy op).map fun (track, data) => ⟨call, track, data⟩).toList)
      groups' pending' := by
  by_cases hquiet : op.quiet = true
  · have hsame := grouping_apply t hquiet
    have hnone : t.acceptedBy op = none := by
      cases op with
      | publish env object => simp [Op.quiet] at hquiet
      | _ => rfl
    refine ⟨groups, pending, ?_⟩
    simpa [hnone] using hledger.congr hsame.published hsame.fecBuf hsame.fecTrackId
  · cases op with
    | publish env object => exact ledger_publish hledger env object hsound call
    | flush env => simpa [acceptedBy, apply] using flushGrouped_ledger hledger env
    | finish env track => simpa [acceptedBy, apply] using ledger_finishTrack hledger env track
    | _ => simp [Op.quiet] at hquiet

theorem ledger_run (hledger : Ledger t accepted groups pending)
    (hsound : Machine.Along apply CompletesSoundly t ops) (call : Nat) :
    ∃ groups' pending', Ledger (t.run ops) (accepted ++ t.acceptedRecords call ops) groups'
      pending' := by
  induction ops generalizing t accepted groups pending call with
  | nil => exact ⟨groups, pending, by simpa [acceptedRecords] using hledger⟩
  | cons op rest ih =>
      obtain ⟨groups', pending', hnext⟩ := ledger_apply hledger op hsound.1 call
      obtain ⟨groups'', pending'', hrest⟩ := ih hnext hsound.2 (call + 1)
      refine ⟨groups'', pending'', ?_⟩
      simpa [acceptedRecords, List.append_assoc] using hrest

theorem ledger_init (isServer : Bool) (limits : TransportLimits)
    (maxRecoveryCacheBytes : Nat) :
    Ledger (init isServer limits maxRecoveryCacheBytes) [] [] [] where
  accounted := rfl
  published := .nil
  buffer := rfl
  pending_track := by simp
  sizes := by simp

/-! ### Splitting the group objects -/

/-- The records a receiver finds in the published groups, and those it would
find in the buffer, each with its track. -/
def splitBy (split : Bytes → List Bytes) (t : Transport) : List (TrackId × Bytes) :=
  (t.published.flatMap fun object => (split object.data).map (object.trackId, ·)) ++
    (split t.fecBuf).map (t.fecTrackId, ·)

def queuedRecords (data : Bytes) : List Bytes := (queueGroupedRecords collect [] data).1

/-- No group is reported malformed. -/
def SplitsCleanly (t : Transport) : Prop :=
  ∀ data, (data = t.fecBuf ∨ ∃ object ∈ t.published, object.data = data) →
    (queueGroupedRecords collect [] data).2 = .complete

def GroupedRecord.content (record : GroupedRecord) : TrackId × Bytes :=
  (record.track, record.data)

theorem split_records {split : Bytes → List Bytes} {records : List GroupedRecord}
    (hsplit : split (recordFraming.frames (records.map (·.data))) = records.map (·.data))
    (htrack : ∀ record ∈ records, record.track = track) :
    (split (recordFraming.frames (records.map (·.data)))).map (track, ·) =
      records.map GroupedRecord.content := by
  rw [hsplit, List.map_map]
  refine List.map_congr_left fun record hrecord => ?_
  simp [GroupedRecord.content, htrack record hrecord]

/-- A loop that finds the records of every group finds the accepted records. -/
theorem splitBy_ledger {split : Bytes → List Bytes}
    (hledger : Ledger t accepted groups pending)
    (hsplit : ∀ records : List GroupedRecord, (∀ record ∈ records, record ∈ accepted) →
      split (recordFraming.frames (records.map (·.data))) = records.map (·.data)) :
    t.splitBy split = accepted.map GroupedRecord.content := by
  have hgroups : ∀ {objects : List MoqObject} {groups : List (List GroupedRecord)},
      List.Forall₂ GroupOf objects groups →
      (∀ group ∈ groups, ∀ record ∈ group, record ∈ accepted) →
      (objects.flatMap fun object => (split object.data).map (object.trackId, ·)) =
        groups.flatten.map GroupedRecord.content := by
    intro objects groups hrelated
    induction hrelated with
    | nil => simp
    | @cons object group objects groups hgroup _ ih =>
        intro hmem
        have hhead := split_records (hsplit group (hmem group List.mem_cons_self))
          hgroup.track
        rw [← hgroup.data] at hhead
        rw [List.flatMap_cons, List.flatten_cons, List.map_append, hhead,
          ih fun other hother => hmem other (List.mem_cons_of_mem _ hother)]
  have hpublished := hgroups hledger.published fun group hgroup record hrecord => by
    rw [hledger.accounted]
    exact List.mem_append_left _ (List.mem_flatten.mpr ⟨group, hgroup, hrecord⟩)
  have hpending := split_records (hsplit pending fun record hrecord => by
    rw [hledger.accounted]
    exact List.mem_append_right _ hrecord) hledger.pending_track
  rw [splitBy, hpublished, hledger.buffer, hpending, hledger.accounted, List.map_append]

theorem sizes_of_mem {accepted : List GroupedRecord} {records : List GroupedRecord}
    (hsizes : ∀ record ∈ accepted, record.data.length ≤ maxFecRecordSize)
    (hmem : ∀ record ∈ records, record ∈ accepted) :
    ∀ data ∈ records.map (·.data), data.length ≤ maxFecRecordSize := by
  intro data hdata
  obtain ⟨record, hrecord, rfl⟩ := List.mem_map.mp hdata
  exact hsizes record (hmem record hrecord)

theorem splitsCleanly_iff (hledger : Ledger t accepted groups pending) :
    t.SplitsCleanly ↔ ∀ record ∈ accepted, record.data ≠ [] := by
  have hmem : ∀ group ∈ groups, ∀ record ∈ group, record ∈ accepted := by
    intro group hgroup record hrecord
    rw [hledger.accounted]
    exact List.mem_append_left _ (List.mem_flatten.mpr ⟨group, hgroup, hrecord⟩)
  have hpending : ∀ record ∈ pending, record ∈ accepted := by
    intro record hrecord
    rw [hledger.accounted]
    exact List.mem_append_right _ hrecord
  constructor
  · intro hclean record hrecord
    rw [hledger.accounted] at hrecord
    rcases List.mem_append.mp hrecord with hflushed | hbuffered
    · obtain ⟨group, hgroup, hin⟩ := List.mem_flatten.mp hflushed
      obtain ⟨object, hobject, hgroupOf⟩ := Pointwise.exists_left hledger.published hgroup
      have hcomplete := hclean _ (Or.inr ⟨object, hobject, rfl⟩)
      rw [hgroupOf.data, queueGroupedRecords_complete_iff
        (sizes_of_mem hledger.sizes (hmem group hgroup))] at hcomplete
      exact hcomplete _ (List.mem_map_of_mem hin)
    · have hcomplete := hclean _ (Or.inl rfl)
      rw [hledger.buffer, queueGroupedRecords_complete_iff
        (sizes_of_mem hledger.sizes hpending)] at hcomplete
      exact hcomplete _ (List.mem_map_of_mem hbuffered)
  · intro hnonempty data hdata
    rcases hdata with rfl | ⟨object, hobject, rfl⟩
    · rw [hledger.buffer, queueGroupedRecords_complete_iff
        (sizes_of_mem hledger.sizes hpending)]
      intro data hdata
      obtain ⟨record, hrecord, rfl⟩ := List.mem_map.mp hdata
      exact hnonempty record (hpending record hrecord)
    · obtain ⟨group, hgroup, hgroupOf⟩ := Pointwise.exists_right hledger.published hobject
      rw [hgroupOf.data, queueGroupedRecords_complete_iff
        (sizes_of_mem hledger.sizes (hmem group hgroup))]
      intro data hdata
      obtain ⟨record, hrecord, rfl⟩ := List.mem_map.mp hdata
      exact hnonempty record (hmem group hgroup record hrecord)

/-- The daemon's loop splits the groups of a run into the accepted records; the
application's does exactly when no accepted record is empty. -/
theorem run_splits_iff (isServer : Bool) (limits : TransportLimits)
    (maxRecoveryCacheBytes : Nat) (ops : List Op)
    (hsound : Machine.Along apply CompletesSoundly
      (init isServer limits maxRecoveryCacheBytes) ops) :
    let t := (init isServer limits maxRecoveryCacheBytes).run ops
    let accepted := ((init isServer limits maxRecoveryCacheBytes).acceptedRecords 0 ops)
    t.splitBy daemonRecords = accepted.map GroupedRecord.content ∧
      (t.SplitsCleanly ∧ t.splitBy queuedRecords = accepted.map GroupedRecord.content ↔
        ∀ record ∈ accepted, record.data ≠ []) := by
  intro t accepted
  obtain ⟨groups, pending, hledger⟩ := ledger_run
    (ledger_init isServer limits maxRecoveryCacheBytes) hsound 0
  rw [List.nil_append] at hledger
  refine ⟨splitBy_ledger hledger fun records hmem => ?_, ?_, ?_⟩
  · exact daemonRecords_frames (sizes_of_mem hledger.sizes hmem)
  · rintro ⟨hclean, -⟩
    exact (splitsCleanly_iff hledger).mp hclean
  · intro hnonempty
    refine ⟨(splitsCleanly_iff hledger).mpr hnonempty,
      splitBy_ledger hledger fun records hmem => ?_⟩
    have hnonempty : ∀ data ∈ records.map (·.data), data ≠ [] := by
      intro data hdata
      obtain ⟨record, hrecord, rfl⟩ := List.mem_map.mp hdata
      exact hnonempty record (hmem record hrecord)
    rw [queuedRecords, queueGroupedRecords_frames _ _
      (sizes_of_mem hledger.sizes hmem) hnonempty, queueAll_collect]
    rfl

def statusTrack : TrackId where
  type := .data
  flags := flagFecRateless
  name := [115]

def statusRecord (data : Bytes) : MoqObject where
  trackId := statusTrack
  groupId := 0
  objectId := 0
  data := data

/-- A peer subscribes, one record is published and its group flushed. -/
def statusRun (data : Bytes) : List Op :=
  join 0 defaultLimits 8 statusTrack ++
    [.publish quietPublish (statusRecord data), .flush quietFlush]

theorem statusRun_sound : Machine.Along apply CompletesSoundly server (statusRun [7, 7]) := by
  refine ⟨trivial, trivial, trivial, trivial, ?_, trivial, trivial⟩
  intro _ _ hcomplete
  exact absurd hcomplete (by decide)

theorem run_splits_status :
    (server.run (statusRun [7, 7])).splitBy daemonRecords =
        (server.acceptedRecords 0 (statusRun [7, 7])).map GroupedRecord.content ∧
      ((server.run (statusRun [7, 7])).SplitsCleanly ∧
          (server.run (statusRun [7, 7])).splitBy queuedRecords =
            (server.acceptedRecords 0 (statusRun [7, 7])).map GroupedRecord.content ↔
        ∀ record ∈ server.acceptedRecords 0 (statusRun [7, 7]), record.data ≠ []) :=
  run_splits_iff true defaultLimits defaultRecoveryCacheBytes (statusRun [7, 7])
    statusRun_sound

/-- An empty record is accepted and reaches the daemon, but the application
reports its group malformed. -/
theorem empty_record_malformed :
    server.acceptedRecords 0 (statusRun []) = [⟨4, statusTrack, []⟩] ∧
      (server.run (statusRun [])).splitBy daemonRecords = [(statusTrack, [])] ∧
      (server.run (statusRun [])).splitBy queuedRecords = [] ∧
      ¬ (server.run (statusRun [])).SplitsCleanly := by
  have hpublished : (server.run (statusRun [])).published =
      [{ statusRecord [0, 0] with objectId := 0 }] := by decide +kernel
  have hbuffer : (server.run (statusRun [])).fecBuf = [] := by decide +kernel
  have hmalformed : queueGroupedRecords collect [] [0, 0] = ([], .malformedLength) := by
    simp [queueGroupedRecords, u16At]
  refine ⟨by decide +kernel, ?_, ?_, ?_⟩
  · simp [splitBy, hpublished, hbuffer, statusRecord, daemonRecords, u16At]
  · simp [splitBy, hpublished, hbuffer, statusRecord, queuedRecords, hmalformed,
      queueGroupedRecords]
  · intro hclean
    have hcomplete := hclean [0, 0] (Or.inr ⟨_, by rw [hpublished]; exact .head _, rfl⟩)
    rw [hmalformed] at hcomplete
    exact absurd hcomplete (by decide)

end Transport

end Qlinq
