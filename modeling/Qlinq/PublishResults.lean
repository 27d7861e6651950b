import Qlinq.GroupIds
import Qlinq.Records
import Qlinq.Slots

namespace Qlinq

namespace Transport

/-! What the result of a grouped publication says about its record. -/

/-- The books of a run: the group objects and the buffer hold records of
publication calls alone, those of a call in one place if the call took its record
over and nowhere if it did not; no two group objects share an id, and what was
sent on a grouped track was cut from a group object. -/
structure Truthful (start : Transport) (ops : List Op) (groups : List (List GroupedRecord))
    (pending : List GroupedRecord) : Prop where
  published : List.Forall₂ GroupOf (start.run ops).published groups
  buffer : (start.run ops).fecBuf = recordFraming.frames (pending.map (·.data))
  calls : ∀ record ∈ groups.flatten ++ pending, ∃ env object,
    ops[record.call]? = some (.publish env object) ∧
      record = ⟨record.call, object.trackId, object.data⟩
  accepted : ∀ call env object, ops[call]? = some (.publish env object) →
    (start.run (ops.take call)).groupsRecords object.trackId = true →
    (((start.run (ops.take call)).publish env object).2 = .delivered ∨
      ((start.run (ops.take call)).publish env object).2 = .buffered) →
    (groups.flatten ++ pending).filter (·.call = call) =
      [⟨call, object.trackId, object.data⟩]
  refused : ∀ call env object, ops[call]? = some (.publish env object) →
    (start.run (ops.take call)).groupsRecords object.trackId = true →
    (((start.run (ops.take call)).publish env object).2 = .backpressure ∨
      ((start.run (ops.take call)).publish env object).2 = .invalid ∨
      ((start.run (ops.take call)).publish env object).2 = .error) →
    ∀ record ∈ groups.flatten ++ pending, record.call ≠ call
  ids : ((start.run ops).published.map fun object =>
    (object.trackId, object.groupId, object.objectId)).Nodup
  datagrams : ∀ c ∈ (start.run ops).conns, ∀ packet ∈ c.datagrams,
    isGroupable packet.track = true → ∃ object geometry,
      (start.run ops).KnownGroup object ∧
        Carries packet object.trackId object.groupId object.objectId object.data geometry

/-- The records of one call are those its step took over. -/
theorem acceptedRecords_filter (t : Transport) (start : Nat) (ops : List Op) (call : Nat) :
    (t.acceptedRecords start ops).filter (·.call = start + call) =
      ((ops[call]?.bind (t.run (ops.take call)).acceptedBy).map
        fun (track, data) => ⟨start + call, track, data⟩).toList := by
  induction ops generalizing t start call with
  | nil => simp [acceptedRecords]
  | cons op rest ih =>
      have hlater : ∀ (t : Transport) (start : Nat) (ops : List Op),
          ∀ record ∈ t.acceptedRecords start ops, start ≤ record.call := by
        intro t start ops
        induction ops generalizing t start with
        | nil => simp [acceptedRecords]
        | cons op rest ih =>
            intro record hrecord
            simp only [acceptedRecords, List.mem_append, Option.mem_toList,
              Option.map_eq_some_iff] at hrecord
            rcases hrecord with ⟨pair, -, rfl⟩ | hrest
            · exact le_refl _
            · have := ih _ _ record hrest
              omega
      cases call with
      | zero =>
          have hnone : ((t.apply op).acceptedRecords (start + 1) rest).filter
              (·.call = start) = [] := by
            rw [List.filter_eq_nil_iff]
            intro record hrecord hcall
            have := hlater _ _ _ record hrecord
            simp only [decide_eq_true_eq] at hcall
            omega
          simp only [acceptedRecords, Nat.add_zero, List.filter_append, hnone,
            List.append_nil, List.getElem?_cons_zero, List.take_zero, run_nil, Option.bind_some]
          cases t.acceptedBy op with
          | none => rfl
          | some pair => simp
      | succ call =>
          have hnone : ((t.acceptedBy op).map fun (track, data) =>
              (⟨start, track, data⟩ : GroupedRecord)).toList.filter
              (·.call = start + (call + 1)) = [] := by
            cases t.acceptedBy op with
            | none => rfl
            | some pair => simp
          rw [acceptedRecords, List.filter_append, hnone, List.nil_append,
            show start + (call + 1) = start + 1 + call by omega, ih]
          simp

theorem truthful_of_ledger {start : Transport}
    (hledger : Ledger (start.run ops) (start.acceptedRecords 0 ops) groups pending)
    (hnumbered : Numbered (start.run ops)) : Truthful start ops groups pending := by
  have hfilter := fun call => acceptedRecords_filter start 0 ops call
  simp only [Nat.zero_add] at hfilter
  refine ⟨hledger.published, hledger.buffer, ?_, ?_, ?_, ?_, ?_⟩
  · intro record hrecord
    rw [← hledger.accounted] at hrecord
    have hmem : record ∈ (start.acceptedRecords 0 ops).filter (·.call = record.call) :=
      List.mem_filter.mpr ⟨hrecord, by simp⟩
    rw [hfilter, Option.mem_toList, Option.map_eq_some_iff] at hmem
    obtain ⟨pair, haccepted, hrecord⟩ := hmem
    obtain ⟨op, hop, haccepted⟩ := Option.bind_eq_some_iff.mp haccepted
    cases op with
    | publish env object =>
        simp only [acceptedBy, Option.ite_none_right_eq_some] at haccepted
        refine ⟨env, object, hop, ?_⟩
        rw [← hrecord, ← Option.some.inj haccepted.2]
    | _ => simp [acceptedBy] at haccepted
  · intro call env object hcall hgroups hresult
    rw [← hledger.accounted, hfilter, hcall]
    simp [acceptedBy, hgroups, hresult]
  · intro call env object hcall hgroups hresult record hrecord heq
    have hnone : (start.run (ops.take call)).acceptedBy (.publish env object) = none := by
      rcases hresult with h | h | h <;> simp [acceptedBy, h]
    have hempty := hfilter call
    rw [hcall, Option.bind_some, hnone] at hempty
    rw [← hledger.accounted] at hrecord
    have hmem : record ∈ (start.acceptedRecords 0 ops).filter (·.call = call) :=
      List.mem_filter.mpr ⟨hrecord, by simpa using heq⟩
    rw [hempty] at hmem
    simp at hmem
  · refine List.Nodup.of_map (fun id : TrackId × Nat × Nat => (id.1, id.2.2)) ?_
    simpa [Function.comp_def] using hnumbered.distinct
  · intro c hc packet hpacket hgroupable
    obtain ⟨object, geometry, hknown, hcarries, -⟩ := hnumbered.stems.datagrams c hc packet hpacket
    exact ⟨object, geometry, hknown (hcarries.of_track ▸ hgroupable), hcarries⟩

/-- In a run in which no record completes a group that then breaks, the results
of grouped publications are truthful. -/
theorem run_truthful (isServer : Bool) (limits : TransportLimits)
    (maxRecoveryCacheBytes : Nat) (ops : List Op)
    (hsound : Machine.Along apply CompletesSoundly
      (init isServer limits maxRecoveryCacheBytes) ops) :
    ∃ groups pending,
      Truthful (init isServer limits maxRecoveryCacheBytes) ops groups pending := by
  obtain ⟨groups, pending, hledger⟩ := ledger_run
    (ledger_init isServer limits maxRecoveryCacheBytes) hsound 0
  rw [List.nil_append] at hledger
  exact ⟨groups, pending, truthful_of_ledger hledger
    (numbered_run isServer limits maxRecoveryCacheBytes ops)⟩

theorem run_truthful_status :
    ∃ groups pending, Truthful server (statusRun [7, 7]) groups pending :=
  run_truthful true defaultLimits defaultRecoveryCacheBytes (statusRun [7, 7]) statusRun_sound

def crowdTrack (index : Nat) : TrackId where
  type := .data
  flags := flagFecEnabled
  name := [UInt8.ofNat (65 + index / 16), UInt8.ofNat (65 + index % 16)]

def crowdRecord (index size : Nat) : MoqObject where
  trackId := crowdTrack index
  groupId := 0
  objectId := 0
  data := List.replicate size 7

/-- A peer arrives and uses up all slots. -/
def crowdVisits : List Op :=
  [.connect, .hello 0 (helloFor defaultLimits), .respondAuth 0 true] ++
    ((List.range hardMaxSubscriptions).map (crowdRecord · 1)).flatMap visit

/-- Then it subscribes to one more track. -/
def crowdRun : List Op :=
  crowdVisits ++ [.receive quietRepair 0 (.subscribe 8 (crowdTrack hardMaxSubscriptions))]

theorem crowdTrack_injective : ∀ left ≤ hardMaxSubscriptions, ∀ right ≤ hardMaxSubscriptions,
    crowdTrack left = crowdTrack right → left = right := by
  intro left hleft right hright heq
  simp only [crowdTrack, TrackId.mk.injEq, List.cons.injEq, true_and, and_true] at heq
  simp only [hardMaxSubscriptions] at hleft hright
  have hhigh := congrArg UInt8.toNat heq.1
  have hlow := congrArg UInt8.toNat heq.2
  simp only [UInt8.toNat_ofNat'] at hhigh hlow
  omega

theorem plainFec_crowdTrack (index : Nat) : PlainFec (crowdTrack index) where
  valid := by simp [trackIdValid, crowdTrack, maxTrackName]; decide
  data := rfl
  fec := by
    simp only [trackProfile, crowdTrack]
    decide
  unreliable := by
    simp only [trackProfile, crowdTrack]
    decide
  plain := by
    simp only [trackProfile, crowdTrack]
    decide

theorem visited_arrival : Visited
    (server.run [.connect, .hello 0 (helloFor defaultLimits), .respondAuth 0 true]) [] where
  peer := ⟨rfl, rfl, _, rfl, rfl, rfl, rfl, rfl, rfl, by decide, rfl, by decide⟩
  empty := rfl
  count := rfl
  idle := rfl
  slots := rfl

theorem visited_crowd : Visited (server.run crowdVisits)
    ((List.range hardMaxSubscriptions).map crowdTrack) := by
  have htracks : ((List.range hardMaxSubscriptions).map (crowdRecord · 1)).map
      MoqObject.trackId = (List.range hardMaxSubscriptions).map crowdTrack := by
    rw [List.map_map]
    rfl
  have hvisits := visited_visits visited_arrival
    ((List.range hardMaxSubscriptions).map (crowdRecord · 1)) (by
      intro object hobject
      obtain ⟨index, -, rfl⟩ := List.mem_map.mp hobject
      exact ⟨plainFec_crowdTrack index, by
        simp [crowdRecord, MoqObject.size, maxFecGroupSize]⟩) (by
      rw [List.nil_append, htracks, List.nodup_map_iff_inj_on List.nodup_range]
      intro left hleft right hright heq
      have hleft := List.mem_range.mp hleft
      have hright := List.mem_range.mp hright
      exact crowdTrack_injective left (by omega) right (by omega) heq) (by simp)
  rw [List.nil_append, htracks] at hvisits
  rw [crowdVisits, run_append]
  exact hvisits

/-- The record that completes its group at once is refused with ERROR for want of
a slot, and stays in the buffer. -/
theorem crowded_record_buffered :
    (server.run crowdRun).fecBuf = [] ∧
      (server.run crowdRun).groupsRecords (crowdTrack hardMaxSubscriptions) = true ∧
      ((server.run crowdRun).publish quietPublish
        (crowdRecord hardMaxSubscriptions 32766)).2 = .error ∧
      ((server.run crowdRun).publish quietPublish
        (crowdRecord hardMaxSubscriptions 32766)).1.fecBuf =
          u16be (crowdRecord hardMaxSubscriptions 32766).size ++
            (crowdRecord hardMaxSubscriptions 32766).data := by
  obtain ⟨hpeer, hempty, -, hidle, hslots⟩ := visited_crowd
  have hrun : server.run crowdRun = (server.run crowdVisits).apply
      (.receive quietRepair 0 (.subscribe 8 (crowdTrack hardMaxSubscriptions))) := by
    rw [crowdRun, run_append, run_cons, run_nil]
  have hplain := plainFec_crowdTrack hardMaxSubscriptions
  have hjoined := peer_subscribe hpeer hplain hidle quietRepair 8
  have hjoins : (Op.receive quietRepair 0
      (.subscribe 8 (crowdTrack hardMaxSubscriptions))).quiet = true := rfl
  have hsame := grouping_apply (server.run crowdVisits) hjoins
  rw [← hrun] at hjoined hsame
  have hbuffer := hsame.fecBuf.trans hempty
  have htaken : (server.run crowdRun).fecTracks.map FecTrackState.trackId =
      (List.range hardMaxSubscriptions).map crowdTrack := by rw [hsame.fecTracks, hslots]
  have hnew : crowdTrack hardMaxSubscriptions ∉
      (server.run crowdRun).fecTracks.map FecTrackState.trackId := by
    rw [htaken]
    intro hold
    obtain ⟨index, hindex, heq⟩ := List.mem_map.mp hold
    have hindex := List.mem_range.mp hindex
    have := crowdTrack_injective index (by omega) _ (le_refl _) heq
    omega
  have hfull : hardMaxSubscriptions ≤ (server.run crowdRun).fecTracks.length := by
    have hlength := congrArg List.length htaken
    rw [List.length_map, List.length_map, List.length_range] at hlength
    exact hlength.ge
  have hsize : (crowdRecord hardMaxSubscriptions 32766).size + 2 = maxFecGroupSize := by
    rw [MoqObject.size, crowdRecord, List.length_replicate]
    rfl
  exact ⟨hbuffer, publish_crowded quietPublish (crowdRecord hardMaxSubscriptions 32766) hjoined
    hplain hbuffer hnew hfull hsize rfl⟩

end Transport

end Qlinq
