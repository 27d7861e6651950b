import Qlinq.GroupMarks
import Qlinq.KeepsTable

namespace Qlinq

/-! A group that is attempted again and again is queued for each recipient once. -/

open Conn (KeepsMark)

/-- One attempt to publish the buffered group, with the connections as it found and as
it left them. -/
structure GroupAttempt where
  group : MoqObject
  before : List Conn
  after : List Conn

namespace GroupAttempt

/-- The connection was queued the group's whole symbol set. -/
def gotSymbolSet (attempt : GroupAttempt) (connId : Nat) : Bool :=
  match Keyed.lookup Conn.id connId attempt.before,
      Keyed.lookup Conn.id connId attempt.after with
  | some c, some c' => c.gotSymbolSet c'
  | _, _ => false

/-- The connection was written the group's frame, of a reliable track. -/
def gotFrame (attempt : GroupAttempt) (connId : Nat) : Bool :=
  match Keyed.lookup Conn.id connId attempt.before,
      Keyed.lookup Conn.id connId attempt.after with
  | some c, some c' => c.gotFrame attempt.group c'
  | _, _ => false

def queues (attempt : GroupAttempt) (connId : Nat) (track : TrackId) (objectId : Nat) :
    Bool :=
  attempt.group.trackId == track && attempt.group.objectId == objectId &&
    attempt.gotSymbolSet connId

end GroupAttempt

namespace Transport

/-! ### The attempts of an operation -/

/-- The attempt a flush makes, if any. -/
def flushAttempts (t : Transport) (env : FlushEnv) : List GroupAttempt :=
  if t.fecBuf = [] then
    []
  else
    match t.createFecTrackState t.fecTrackId with
    | none => []
    | some (slotted, state) =>
        [{ group := slotted.groupObject state
           before := t.conns
           after := (slotted.attempting.publishUngrouped env
             (slotted.groupObject state) true).1.conns }]

def roomAttempts (t : Transport) (env : FlushEnv) (due : Bool) : List GroupAttempt :=
  if due then t.flushAttempts env else []

def stageAttempts (t : Transport) (env : PublishEnv) (object : MoqObject) :
    List GroupAttempt :=
  let limit := groupLimit (t.publicationFecLimit object.trackId)
  t.roomAttempts env.before (t.groupForeign object) ++
    match t.makeRoom env.before (t.groupForeign object) with
    | (_, some _) => []
    | (t, none) => t.roomAttempts env.before (t.groupFull object limit)

def groupedAttempts (t : Transport) (env : PublishEnv) (object : MoqObject) :
    List GroupAttempt :=
  let fecLimit := t.publicationFecLimit object.trackId
  if maxFecRecordSize < object.size ∨ fecLimit < 2 ∨ fecLimit - 2 < object.size then
    []
  else
    t.stageAttempts env object ++
      match t.stageRecord env object with
      | (_, some _) => []
      | (t, none) => t.roomAttempts env.after (t.groupComplete (groupLimit fecLimit))

def publishAttempts (t : Transport) (env : PublishEnv) (object : MoqObject) :
    List GroupAttempt :=
  if !trackIdValid object.trackId || t.flagsConflict object.trackId then
    []
  else if t.groupsRecords object.trackId then
    t.groupedAttempts env object
  else
    []

def finishAttempts (t : Transport) (env : FlushEnv) (track : TrackId) :
    List GroupAttempt :=
  if !trackIdValid track || !track.isRatelessData then
    []
  else
    t.roomAttempts env (t.fecBuf ≠ [] ∧ t.fecTrackId = track)

/-- The attempts at buffered groups that an operation makes, in order. -/
def groupAttempts (t : Transport) : Op → List GroupAttempt
  | .publish env object => t.publishAttempts env object
  | .flush env => t.flushAttempts env
  | .finish env track => t.finishAttempts env track
  | _ => []

def nextObjectId (t : Transport) (track : TrackId) : Nat :=
  ((t.findFecTrackState track).map (·.nextObjectId)).getD 0

end Transport

/-! ### The ledger -/

/-- `sets` counts the symbol sets of one group queued for one connection since its
latest SUBSCRIBE for the group's track. -/
structure GroupLedger where
  transport : Transport
  sets : Nat := 0

namespace GroupLedger

def apply (connId : Nat) (track : TrackId) (objectId : Nat) (ledger : GroupLedger)
    (op : Transport.Op) : GroupLedger where
  transport := ledger.transport.apply op
  sets :=
    if op.subscribesTo connId track then
      0
    else
      ledger.sets + (ledger.transport.groupAttempts op).countP
        (·.queues connId track objectId)

def run (connId : Nat) (track : TrackId) (objectId : Nat) (ledger : GroupLedger)
    (ops : List Transport.Op) : GroupLedger :=
  Machine.run (apply connId track objectId) ledger ops

theorem transport_run (connId : Nat) (track : TrackId) (objectId : Nat)
    (ledger : GroupLedger) (ops : List Transport.Op) :
    (ledger.run connId track objectId ops).transport = ledger.transport.run ops := by
  induction ops generalizing ledger with
  | nil => rfl
  | cons op rest ih => exact ih (ledger.apply connId track objectId op)

end GroupLedger

namespace Transport

/-- The group of the track and object id is attempted again until it gets out. -/
def Awaits (t : Transport) (track : TrackId) (objectId : Nat) : Prop :=
  t.fecFlushPending = true ∧ t.fecTrackId = track ∧ t.nextObjectId track = objectId

/-- The connection's marks say what was queued for it. -/
def MarksAt (t : Transport) (connId : Nat) (marked : Prop) : Prop :=
  ∀ c, Keyed.lookup Conn.id connId t.conns = some c → c.closed = none →
    (c.fecGroupDelivered = true ↔ marked)

/-- What the ledger of one connection and group holds about the transport. -/
structure Counted (connId : Nat) (track : TrackId) (objectId : Nat) (t : Transport)
    (sets : Nat) : Prop where
  numbered : Numbered t
  fresh : Fresh t
  atMostOnce : sets ≤ 1
  /-- A group that was not attempted yet is queued for nobody. -/
  idle : t.nextObjectId track ≤ objectId → ¬ t.Awaits track objectId → sets = 0
  waiting : t.Awaits track objectId → t.MarksAt connId (sets = 1)
  /-- A group is collected with clear marks. -/
  unmarked : t.fecBuf ≠ [] → t.fecFlushPending = false → t.MarksAt connId False
  taken : sets ≠ 0 → connId < t.nextConnId

theorem MarksAt.follows {t t' : Transport} (hmarks : t.MarksAt connId marked)
    (hfollows : FollowsAt KeepsMark connId t t') : t'.MarksAt connId marked := by
  intro c' hc' hopen
  obtain ⟨c, hc, hkeeps⟩ := hfollows.conn c' hc'
  rw [hkeeps.mark]
  exact hmarks c hc (hkeeps.still_open hopen)

theorem counted_init (isServer : Bool) (limits : TransportLimits)
    (maxRecoveryCacheBytes : Nat) :
    Counted connId track objectId (init isServer limits maxRecoveryCacheBytes) 0 where
  numbered := numbered_init isServer limits maxRecoveryCacheBytes
  fresh := fresh_init isServer limits maxRecoveryCacheBytes
  atMostOnce := Nat.zero_le 1
  idle _ _ := rfl
  waiting hawaits := by cases hawaits.1
  unmarked hbuffer := absurd rfl hbuffer
  taken hsets := absurd rfl hsets

theorem nextObjectId_congr {t t' : Transport} (hsame : t'.fecTracks = t.fecTracks)
    (track : TrackId) : t'.nextObjectId track = t.nextObjectId track := by
  unfold nextObjectId findFecTrackState
  rw [hsame]

theorem nextObjectId_of_found {t : Transport} (hfound : t.findFecTrackState track = some state) :
    t.nextObjectId track = state.nextObjectId := by
  rw [nextObjectId, hfound]
  rfl

/-- The group's place is where it was, and the connection keeps its mark. -/
theorem Counted.same {t t' : Transport} (hcounted : Counted connId track objectId t sets)
    (hnumbered : Numbered t') (hfresh : Fresh t') (hsame : SameGrouping t t')
    (hnext : t.nextConnId ≤ t'.nextConnId)
    (hmarks : (t.fecFlushPending = true → t.fecTrackId = track) → ∀ marked : Prop,
      (marked → connId < t.nextConnId) → t.MarksAt connId marked →
        t'.MarksAt connId marked) :
    Counted connId track objectId t' sets := by
  have hid : t'.nextObjectId track = t.nextObjectId track :=
    nextObjectId_congr hsame.fecTracks track
  have hawaits : t'.Awaits track objectId ↔ t.Awaits track objectId := by
    simp only [Awaits, hsame.fecFlushPending, hsame.fecTrackId, hid]
  refine ⟨hnumbered, hfresh, hcounted.atMostOnce, ?_, ?_, ?_, ?_⟩
  · rw [hid, hawaits]
    exact hcounted.idle
  · rw [hawaits]
    exact fun hwaits => hmarks (fun _ => hwaits.2.1) _
      (fun honce => hcounted.taken (by omega)) (hcounted.waiting hwaits)
  · rw [hsame.fecBuf, hsame.fecFlushPending]
    intro hbuffer hpending
    refine hmarks (fun hwaits => ?_) _ False.elim (hcounted.unmarked hbuffer hpending)
    rw [hpending] at hwaits
    cases hwaits
  · exact fun hsets => Nat.lt_of_lt_of_le (hcounted.taken hsets) hnext

/-! ### One attempt -/

/-- An attempt at the group the ledger counts. -/
theorem marks_attempt {s t t' : Transport} {object : MoqObject} (group : MoqObject)
    (hoffered : List.Forall₂ (Offered s object true) t.conns t'.conns)
    (hatMost : sets ≤ 1) (hmarks : t.MarksAt connId (sets = 1)) :
    let served := if GroupAttempt.gotSymbolSet ⟨group, t.conns, t'.conns⟩ connId then 1 else 0
    sets + served ≤ 1 ∧ t'.MarksAt connId (sets + served = 1) ∧
      (served ≠ 0 → ∃ c, Keyed.lookup Conn.id connId t.conns = some c) := by
  intro served
  cases hlookup : Keyed.lookup Conn.id connId t.conns with
  | none =>
      have hnone : Keyed.lookup Conn.id connId t'.conns = none := by
        cases hlater : Keyed.lookup Conn.id connId t'.conns with
        | none => rfl
        | some c' =>
            obtain ⟨c, hc, _⟩ := Keyed.exists_lookup (R := fun c' c => Offered s object true c c')
              (fun _ _ hoffer => hoffer.id_eq.symm) hoffered.flip hlater
            rw [hlookup] at hc
            cases hc
      have hserved : served = 0 := by
        simp only [served, GroupAttempt.gotSymbolSet, hlookup]
        rfl
      rw [hserved]
      refine ⟨hatMost, fun c' hc' => ?_, fun h => absurd rfl h⟩
      rw [hnone] at hc'
      cases hc'
  | some c =>
      obtain ⟨c', hc', hoffer⟩ := Keyed.exists_lookup (R := Offered s object true)
        (fun _ _ hoffer => hoffer.id_eq) hoffered hlookup
      have hserved : served = if c.gotSymbolSet c' then 1 else 0 := by
        simp only [served, GroupAttempt.gotSymbolSet, hlookup, hc']
      have hmark : c'.fecGroupDelivered = (c.fecGroupDelivered || c.gotSymbolSet c') := by
        rw [hoffer.marked, Bool.true_and]
      cases hgot : c.gotSymbolSet c' with
      | false =>
          rw [hgot, if_neg Bool.false_ne_true] at hserved
          rw [hgot, Bool.or_false] at hmark
          rw [hserved]
          refine ⟨hatMost, fun found hfound hopen => ?_, fun h => absurd rfl h⟩
          rw [hc'] at hfound
          obtain rfl := Option.some.inj hfound
          rw [hmark]
          exact hmarks c hlookup (hoffer.still_open hopen)
      | true =>
          rw [hgot, if_pos rfl] at hserved
          rw [hgot, Bool.or_true] at hmark
          have hopen : c.closed = none := by
            have heligible := hoffer.eligible hgot
            simp only [recipientEligible, Bool.and_eq_true, Option.isNone_iff_eq_none] at heligible
            exact heligible.1.2
          have hunserved : sets ≠ 1 := by
            rw [ne_eq, ← hmarks c hlookup hopen, hoffer.once hgot rfl]
            exact Bool.false_ne_true
          have hnone : sets = 0 := by omega
          rw [hserved, hnone]
          refine ⟨Nat.le_refl 1, fun found hfound _ => ?_, fun _ => ⟨c, rfl⟩⟩
          rw [hc'] at hfound
          obtain rfl := Option.some.inj hfound
          rw [hmark]
          exact ⟨fun _ => rfl, fun _ => rfl⟩

theorem flushAttempts_of_slot {t slotted : Transport} (hbuffer : t.fecBuf ≠ [])
    (hslot : t.createFecTrackState t.fecTrackId = some (slotted, state))
    (hattempt : slotted.attempting.publishUngrouped env (slotted.groupObject state) true =
      (attempted, result)) :
    t.flushAttempts env = [⟨slotted.groupObject state, t.conns, attempted.conns⟩] := by
  unfold flushAttempts
  rw [if_neg hbuffer, hslot]
  simp only [hattempt]

/-- A fresh slot starts where a track without one is. -/
theorem nextObjectId_slotted {t slotted : Transport}
    (hslot : t.createFecTrackState other = some (slotted, state)) (track : TrackId) :
    slotted.nextObjectId track = t.nextObjectId track := by
  cases createFecTrackState_cases hslot with
  | inl hfound =>
      obtain ⟨rfl, _⟩ := hfound
      rfl
  | inr hfresh =>
      obtain ⟨hnone, _, rfl, rfl⟩ := hfresh
      unfold nextObjectId findFecTrackState
      rw [Keyed.lookup_append]
      cases hold : Keyed.lookup FecTrackState.trackId track t.fecTracks with
      | some found => rfl
      | none =>
          by_cases hsame : other = track
          · simp [Keyed.lookup, hsame]
          · simp [Keyed.lookup, hsame]

/-- Before the first attempt nothing is marked, and nothing was queued. -/
theorem Counted.marksAt {t : Transport} (hcounted : Counted connId track objectId t sets)
    (hbuffer : t.fecBuf ≠ []) (htrack : t.fecTrackId = track)
    (hid : t.nextObjectId track = objectId) : t.MarksAt connId (sets = 1) := by
  cases hpending : t.fecFlushPending with
  | true => exact hcounted.waiting ⟨hpending, htrack, hid⟩
  | false =>
      have hnone : sets = 0 := by
        refine hcounted.idle (le_of_eq hid) fun hawaits => ?_
        rw [hawaits.1] at hpending
        cases hpending
      intro c hc hopen
      rw [hcounted.unmarked hbuffer hpending c hc hopen, hnone]
      exact ⟨fun h => h.elim, fun h => by cases h⟩

/-- The ledger after an attempt, before the group may be committed. -/
theorem counted_attempted {t slotted : Transport}
    (hcounted : Counted connId track objectId t sets) (hbuffer : t.fecBuf ≠ [])
    (hslot : t.createFecTrackState t.fecTrackId = some (slotted, state))
    (hattempt : slotted.attempting.publishUngrouped env (slotted.groupObject state) true =
      (attempted, result)) :
    Counted connId track objectId attempted
      (sets + (t.flushAttempts env).countP (·.queues connId track objectId)) := by
  obtain ⟨hready, hpending⟩ := numbered_attempting hcounted.numbered hbuffer hslot
  obtain ⟨hbuf, htrackId⟩ := slotted_buffer hslot
  obtain ⟨hconns, hnextConn⟩ := conns_slotted hslot
  have hmade := attempted_publishUngrouped slotted.attempting env (slotted.groupObject state)
    true
  have hoffered := offered_publishUngrouped slotted.attempting env
    (slotted.groupObject state) true
  have hmoves := connsMove_of_attempt hattempt
  rw [hattempt] at hmade hoffered
  have hnumbered : Numbered attempted :=
    hready.same hmade.grouping (hready.stems.attempt hmade fun _ _ => Or.inr hpending)
  have hfresh : Fresh attempted := by
    have hstart : Fresh slotted.attempting := by
      intro other hother
      show Keyed.lookup Conn.id other slotted.conns = none
      rw [hconns]
      exact hcounted.fresh other (by rw [← hnextConn]; exact hother)
    exact hstart.keeps fun _ _ => hmoves.keepsAt
  have hnext : ∀ other, attempted.nextObjectId other = t.nextObjectId other := fun other =>
    (nextObjectId_congr hmade.grouping.fecTracks other).trans (nextObjectId_slotted hslot other)
  have hstate : state.nextObjectId = t.nextObjectId t.fecTrackId :=
    (nextObjectId_of_found (find_created hslot)).symm.trans
      (nextObjectId_slotted hslot t.fecTrackId)
  have hwaits : attempted.fecFlushPending = true := hmade.grouping.fecFlushPending
  have hsameTrack : attempted.fecTrackId = t.fecTrackId :=
    hmade.grouping.fecTrackId.trans htrackId
  have hconnIds : attempted.nextConnId = t.nextConnId := hmoves.nextConnId.trans hnextConn
  rw [flushAttempts_of_slot hbuffer hslot hattempt, List.countP_singleton]
  by_cases hhere : t.fecTrackId = track ∧ t.nextObjectId track = objectId
  · obtain ⟨htrack, hid⟩ := hhere
    have hawaits : attempted.Awaits track objectId :=
      ⟨hwaits, hsameTrack.trans htrack, (hnext track).trans hid⟩
    have hqueues : ∀ served : Bool, (slotted.fecTrackId == track &&
        state.nextObjectId == objectId && served) = served := by
      intro served
      rw [htrackId, htrack, hstate, htrack, hid, beq_self_eq_true, beq_self_eq_true]
      rfl
    have hgot : GroupAttempt.queues ⟨slotted.groupObject state, t.conns, attempted.conns⟩
        connId track objectId =
        GroupAttempt.gotSymbolSet ⟨slotted.groupObject state, t.conns, attempted.conns⟩
          connId :=
      hqueues _
    rw [hgot]
    have hoffers : List.Forall₂ (Offered slotted.attempting (slotted.groupObject state) true)
        t.conns attempted.conns := by
      rw [← hconns]
      exact hoffered
    obtain ⟨hatMost, hmarks, hfound⟩ := marks_attempt (slotted.groupObject state) hoffers
      hcounted.atMostOnce (hcounted.marksAt hbuffer htrack hid)
    refine ⟨hnumbered, hfresh, hatMost, fun _ hnot => absurd hawaits hnot, fun _ => hmarks,
      fun _ hidle => ?_, fun hsets => ?_⟩
    · rw [hwaits] at hidle
      cases hidle
    · rw [hconnIds]
      by_cases hnone : sets = 0
      · obtain ⟨c, hc⟩ := hfound (by omega)
        by_contra hlater
        rw [hcounted.fresh connId (by omega)] at hc
        cases hc
      · exact hcounted.taken hnone
  · have hnot : ¬ t.Awaits track objectId := fun hawaits => hhere ⟨hawaits.2.1, hawaits.2.2⟩
    have hother : GroupAttempt.queues ⟨slotted.groupObject state, t.conns, attempted.conns⟩
        connId track objectId = false := by
      have hgroup : ¬ (slotted.fecTrackId = track ∧ state.nextObjectId = objectId) := by
        rintro ⟨htrack, hid⟩
        rw [htrackId] at htrack
        rw [hstate, htrack] at hid
        exact hhere ⟨htrack, hid⟩
      unfold GroupAttempt.queues
      show (slotted.fecTrackId == track && state.nextObjectId == objectId && _) = false
      rw [Bool.and_eq_false_iff]
      left
      simpa using hgroup
    rw [hother, if_neg Bool.false_ne_true, Nat.add_zero]
    refine ⟨hnumbered, hfresh, hcounted.atMostOnce, fun hbelow _ => ?_, fun hawaits => ?_,
      fun _ hidle => ?_, fun hsets => ?_⟩
    · rw [hnext] at hbelow
      exact hcounted.idle hbelow hnot
    · exact absurd ⟨hsameTrack.symm.trans hawaits.2.1, (hnext track).symm.trans hawaits.2.2⟩
        hhere
    · rw [hwaits] at hidle
      cases hidle
    · rw [hconnIds]
      exact hcounted.taken hsets

theorem nextObjectId_commitGroup {t : Transport} (object : MoqObject)
    (hfound : t.findFecTrackState state.trackId = some state) (track : TrackId) :
    (t.commitGroup state object).nextObjectId track =
      t.nextObjectId track + (if track = state.trackId then 1 else 0) := by
  obtain ⟨⟨next, hnext, hid, _⟩, hothers⟩ := commitGroup_find object hfound
  by_cases hsame : track = state.trackId
  · rw [if_pos hsame, hsame, nextObjectId_of_found hnext, nextObjectId_of_found hfound, hid]
  · unfold nextObjectId
    rw [if_neg hsame, hothers track hsame, Nat.add_zero]

/-- A committed group is over for the ledger. -/
theorem Counted.commit {t : Transport} (hcounted : Counted connId track objectId t sets)
    (object : MoqObject) (hfound : t.findFecTrackState state.trackId = some state)
    (htrack : state.trackId = t.fecTrackId)
    (hnumbered : Numbered (t.commitGroup state object)) :
    Counted connId track objectId (t.commitGroup state object) sets := by
  have hmoves := connsMove_commitGroup t state object
  have hid := nextObjectId_commitGroup object hfound track
  have hdone : (t.commitGroup state object).fecBuf = [] ∧
      (t.commitGroup state object).fecFlushPending = false := by
    unfold commitGroup
    extract_lets bumped slotted committed
    split
    · exact ⟨rfl, rfl⟩
    · exact ⟨rfl, rfl⟩
  refine ⟨hnumbered, hcounted.fresh.keeps fun _ _ => hmoves.keepsAt, hcounted.atMostOnce,
    fun hbelow _ => ?_, fun hawaits => ?_, fun hbuffer => absurd hdone.1 hbuffer,
    fun hsets => ?_⟩
  · rw [hid] at hbelow
    refine hcounted.idle (by omega) fun hawaits => ?_
    rw [if_pos (hawaits.2.1.symm.trans htrack.symm), hawaits.2.2] at hbelow
    omega
  · have hpending := hawaits.1
    rw [hdone.2] at hpending
    cases hpending
  · rw [hmoves.nextConnId]
    exact hcounted.taken hsets

theorem attempted_slot {t slotted : Transport}
    (hslot : t.createFecTrackState t.fecTrackId = some (slotted, state))
    (hattempt : slotted.attempting.publishUngrouped env (slotted.groupObject state) true =
      (attempted, result)) :
    attempted.findFecTrackState state.trackId = some state ∧
      state.trackId = attempted.fecTrackId := by
  have hsame := publishUngrouped_grouping slotted.attempting env (slotted.groupObject state)
    true
  rw [hattempt] at hsame
  have htrack := createFecTrackState_trackId hslot
  refine ⟨(hsame.findFecTrackState _).trans ?_, ?_⟩
  · rw [htrack]
    show slotted.findFecTrackState _ = _
    exact find_created hslot
  · rw [hsame.fecTrackId, htrack]
    exact (slotted_buffer hslot).2.symm

theorem counted_flush {t : Transport} (hcounted : Counted connId track objectId t sets)
    (env : FlushEnv) :
    Counted connId track objectId (t.flushGrouped env).1
      (sets + (t.flushAttempts env).countP (·.queues connId track objectId)) := by
  have hnumbered := numbered_flushGrouped hcounted.numbered env
  have hflushed := flushed t env
  revert hnumbered hflushed
  generalize (t.flushGrouped env).1 = t'
  generalize (t.flushGrouped env).2 = result
  intro hnumbered hflushed
  cases hflushed with
  | empty hempty =>
      rw [flushAttempts, if_pos hempty]
      exact hcounted
  | noSlot hbuffer hslot =>
      rw [flushAttempts, if_neg hbuffer, hslot]
      exact hcounted
  | failed hbuffer hslot hattempt hdelivered hnobody =>
      exact counted_attempted hcounted hbuffer hslot hattempt
  | committed hbuffer hslot hattempt hresult =>
      obtain ⟨hfound, htrack⟩ := attempted_slot hslot hattempt
      exact (counted_attempted hcounted hbuffer hslot hattempt).commit _ hfound htrack hnumbered

/-- A recipient that has the group of a track with symbols got its symbol set once. -/
theorem once_of_mark {s t t' : Transport} {object : MoqObject} (group : MoqObject)
    (hoffered : List.Forall₂ (Offered s object true) t.conns t'.conns)
    (hatMost : sets + (if GroupAttempt.gotSymbolSet ⟨group, t.conns, t'.conns⟩ connId
      then 1 else 0) ≤ 1)
    (hmarks : t.MarksAt connId (sets = 1))
    (hc : Keyed.lookup Conn.id connId t.conns = some c) (hopen : c.closed = none)
    (hc' : Keyed.lookup Conn.id connId t'.conns = some c')
    (hmark : c'.fecGroupDelivered = true) :
    sets + (if GroupAttempt.gotSymbolSet ⟨group, t.conns, t'.conns⟩ connId
      then 1 else 0) = 1 := by
  obtain ⟨found, hfound, hoffer⟩ := Keyed.exists_lookup (R := Offered s object true)
    (fun _ _ hoffer => hoffer.id_eq) hoffered hc
  rw [hc'] at hfound
  obtain rfl := Option.some.inj hfound
  have hserved : GroupAttempt.gotSymbolSet ⟨group, t.conns, t'.conns⟩ connId =
      c.gotSymbolSet c' := by
    simp only [GroupAttempt.gotSymbolSet, hc, hc']
  rw [hserved] at hatMost ⊢
  have hmarked := hoffer.marked
  rw [hmark, Bool.true_and] at hmarked
  cases hgot : c.gotSymbolSet c' with
  | true =>
      rw [hgot, if_pos rfl] at hatMost
      rw [if_pos rfl]
      omega
  | false =>
      rw [hgot, Bool.or_false] at hmarked
      rw [if_neg Bool.false_ne_true, Nat.add_zero]
      exact (hmarks c hc hopen).mp hmarked.symm

/-- The group reaches connection `connId` if it is a recipient: its frame is written by
one of the attempts, or its symbol set was queued once. -/
def Reaches (t : Transport) (attempts : List GroupAttempt) (object : MoqObject)
    (connId sets : Nat) : Prop :=
  ∀ c, Keyed.lookup Conn.id connId t.conns = some c →
    t.recipientEligible c object.trackId = true →
    c.sendSubscriptions.contains object.trackId = true →
    if (trackProfile object.trackId).reliable then
      ∃ attempt ∈ attempts, attempt.group = object ∧ attempt.gotFrame connId = true
    else
      sets = 1

/-- A flush keeps the pending group or gets it to every recipient. -/
theorem settled_flush {t : Transport} (env : FlushEnv)
    (hcounted : Counted connId object.trackId object.objectId t sets)
    (hpending : t.PendingGroup object) :
    ((t.flushGrouped env).2 ≠ .delivered ∧ (t.flushGrouped env).1.PendingGroup object) ∨
      ((t.flushGrouped env).2 = .delivered ∧ object ∈ (t.flushGrouped env).1.published ∧
        t.Reaches (t.flushAttempts env) object connId
          (sets + (t.flushAttempts env).countP
            (·.queues connId object.trackId object.objectId))) := by
  obtain ⟨hwaits, waiting, hfound, hobject⟩ := hpending
  obtain ⟨hbuffer, _⟩ := hcounted.numbered.pending hwaits
  have hslot : t.createFecTrackState t.fecTrackId = some (t, waiting) := by
    rw [createFecTrackState, hfound]
  have hattempting : t.attempting = t := by
    unfold attempting
    rw [← hwaits]
  have hflushed := flushed t env
  revert hflushed
  generalize (t.flushGrouped env).1 = t'
  generalize (t.flushGrouped env).2 = result
  intro hflushed
  cases hflushed with
  | empty hempty => exact absurd hempty hbuffer
  | noSlot _ hnone =>
      rw [hslot] at hnone
      cases hnone
  | @failed slotted state attempted outcome _ hslotted hattempt hdelivered hnobody =>
      rw [hslot] at hslotted
      obtain ⟨rfl, rfl⟩ := Prod.mk.inj (Option.some.inj hslotted)
      have hsame := publishUngrouped_grouping t.attempting env (t.groupObject waiting) true
      rw [hattempt] at hsame
      refine Or.inl ⟨hdelivered, (hsame.pendingGroup object).mpr ?_⟩
      rw [hattempting]
      exact ⟨hwaits, waiting, hfound, hobject⟩
  | @committed slotted state attempted outcome _ hslotted hattempt hresult =>
      rw [hslot] at hslotted
      obtain ⟨rfl, rfl⟩ := Prod.mk.inj (Option.some.inj hslotted)
      have hpublished : (attempted.commitGroup waiting (t.groupObject waiting)).published =
          attempted.published ++ [t.groupObject waiting] := by
        unfold commitGroup
        extract_lets bumped slotted committed
        split <;> rfl
      refine Or.inr ⟨rfl, ?_, fun c hc heligible hcontains => ?_⟩
      · rw [hpublished, hobject]
        exact List.mem_append_right _ (List.mem_singleton_self _)
      have hattempts := flushAttempts_of_slot hbuffer hslot hattempt
      have hoffered := offered_publishUngrouped t.attempting env (t.groupObject waiting) true
      have hreached := hasGroup_publishUngrouped
        (show (t.attempting.publishUngrouped env (t.groupObject waiting) true).2 =
            .delivered ∨
          (t.attempting.publishUngrouped env (t.groupObject waiting) true).2 =
            .noRecipients by
          rw [hattempt]
          exact hresult)
      rw [hattempt] at hoffered hreached
      have htrack : object.trackId = t.fecTrackId := by rw [hobject]; rfl
      have hid : t.nextObjectId object.trackId = object.objectId := by
        rw [htrack, nextObjectId_of_found hfound, hobject]
        rfl
      have hboth := Pointwise.both hoffered hreached
      obtain ⟨c', hc', hoffer, hreach⟩ := Keyed.exists_lookup
        (fun _ _ hboth => hboth.1.id_eq) hboth hc
      have hhas := hreach (by rw [← hobject]; exact heligible) (by rw [← hobject]; exact hcontains)
      rw [← hobject] at hhas
      unfold HasGroup at hhas
      rw [hattempts]
      cases hreliable : (trackProfile object.trackId).reliable with
      | true =>
          rw [hreliable, if_pos rfl] at hhas
          rw [if_pos rfl]
          refine ⟨_, List.mem_singleton_self _, hobject.symm, ?_⟩
          simp only [GroupAttempt.gotFrame, hc, hc']
          rw [← hobject]
          exact hhas
      | false =>
          rw [hreliable, if_neg Bool.false_ne_true] at hhas
          rw [if_neg Bool.false_ne_true, List.countP_singleton]
          have hopen : c.closed = none := by
            simp only [recipientEligible, Bool.and_eq_true, Option.isNone_iff_eq_none]
              at heligible
            exact heligible.1.2
          have hqueues : GroupAttempt.queues ⟨t.groupObject waiting, t.conns, attempted.conns⟩
              connId object.trackId object.objectId =
              GroupAttempt.gotSymbolSet ⟨t.groupObject waiting, t.conns, attempted.conns⟩
                connId := by
            simp only [GroupAttempt.queues, ← hobject, beq_self_eq_true, Bool.true_and]
          rw [hqueues]
          have hmarks := hcounted.marksAt hbuffer htrack.symm hid
          have hserved := marks_attempt (t.groupObject waiting) hoffered hcounted.atMostOnce
            hmarks
          exact once_of_mark (t.groupObject waiting) hoffered hserved.1 hmarks hc hopen hc' hhas

/-! ### Records -/

theorem counted_makeRoom {t : Transport} (hcounted : Counted connId track objectId t sets)
    (env : FlushEnv) (due : Bool) :
    Counted connId track objectId (t.makeRoom env due).1
      (sets + (t.roomAttempts env due).countP (·.queues connId track objectId)) := by
  cases due with
  | false => exact hcounted
  | true =>
      have hflushed := counted_flush hcounted env
      rcases hflush : t.flushGrouped env with ⟨t', result⟩
      rw [hflush] at hflushed
      rw [makeRoom_true hflush]
      exact hflushed

theorem idle_makeRoom {t s : Transport} (hnumbered : Numbered t)
    (hroom : t.makeRoom env due = (s, none))
    (hidle : due = false → t.fecFlushPending = false) : s.fecFlushPending = false := by
  cases due with
  | false =>
      obtain ⟨rfl, _⟩ := Prod.mk.inj hroom
      exact hidle rfl
  | true =>
      have hflushed := flushed t env
      have hdone := numbered_flushGrouped hnumbered env
      rcases hflush : t.flushGrouped env with ⟨t', result⟩
      rw [hflush] at hflushed hdone
      rw [makeRoom_true hflush] at hroom
      obtain ⟨rfl, hresult⟩ := Prod.mk.inj hroom
      have hdelivered : result = .delivered := by
        by_contra hother
        rw [if_neg hother] at hresult
        cases hresult
      rcases hflushed.buffer.1 with hkept | hemptied
      · exact absurd hdelivered hkept.1
      · exact fecFlushPending_of_empty hdone hemptied.2.1

theorem idle_of_not_foreign {t : Transport} (hnumbered : Numbered t)
    (hforeign : t.groupForeign object = false) : t.fecFlushPending = false := by
  by_cases hempty : t.fecBuf = []
  · exact fecFlushPending_of_empty hnumbered hempty
  · unfold groupForeign at hforeign
    cases hpending : t.fecFlushPending with
    | false => rfl
    | true => simp [hempty, hpending] at hforeign

/-- The transport with another buffered group, which was not attempted. -/
theorem Counted.rebuffer {t t' : Transport} (hcounted : Counted connId track objectId t sets)
    (hnumbered : Numbered t') (hfresh : Fresh t') (hidle : t.fecFlushPending = false)
    (hstill : t'.fecFlushPending = false) (htracks : t'.fecTracks = t.fecTracks)
    (hnext : t'.nextConnId = t.nextConnId)
    (hunmarked : t'.fecBuf ≠ [] → t'.MarksAt connId False) :
    Counted connId track objectId t' sets := by
  have hnone : ∀ s : Transport, s.fecFlushPending = false → ¬ s.Awaits track objectId := by
    intro s hs hawaits
    rw [hawaits.1] at hs
    cases hs
  refine ⟨hnumbered, hfresh, hcounted.atMostOnce, fun hbelow _ => ?_,
    fun hawaits => absurd hawaits (hnone t' hstill), fun hbuffer _ => hunmarked hbuffer,
    fun hsets => ?_⟩
  · rw [nextObjectId_congr htracks] at hbelow
    exact hcounted.idle hbelow (hnone t hidle)
  · rw [hnext]
    exact hcounted.taken hsets

theorem counted_beginGroup {t : Transport} (hcounted : Counted connId track objectId t sets)
    (hidle : t.fecFlushPending = false) (hgroups : object.trackId.type = .data) :
    Counted connId track objectId (t.beginGroup object) sets ∧
      (t.beginGroup object).fecFlushPending = false ∧
      (t.beginGroup object).MarksAt connId False := by
  obtain ⟨hnumbered, hstill⟩ := numbered_beginGroup hcounted.numbered hidle object
  have hmove := (Move.regrouped (regroups_beginGroup (t := t) hgroups)).connsMove
  have hmarks : (t.beginGroup object).MarksAt connId False := by
    unfold beginGroup
    split
    · intro c hc _
      obtain ⟨hmem, _⟩ := Keyed.mem_of_lookup hc
      obtain ⟨old, _, rfl⟩ := List.mem_map.mp hmem
      simp
    · next hbuffer => exact hcounted.unmarked hbuffer hidle
  have hsame : (t.beginGroup object).fecTracks = t.fecTracks := by
    unfold beginGroup
    split <;> rfl
  exact ⟨hcounted.rebuffer hnumbered (hcounted.fresh.keeps fun _ _ => hmove.keepsAt) hidle
    hstill hsame hmove.nextConnId fun _ => hmarks, hstill, hmarks⟩

theorem counted_appendRecord {t t' : Transport}
    (hcounted : Counted connId track objectId t sets) (hidle : t.fecFlushPending = false)
    (hmarks : t.MarksAt connId False) (happend : t.appendRecord grows object = some t') :
    Counted connId track objectId t' sets := by
  have hnumbered := numbered_appendRecord hcounted.numbered hidle happend
  simp only [appendRecord] at happend
  split at happend
  · cases happend
  · obtain rfl := Option.some.inj happend
    exact hcounted.rebuffer hnumbered hcounted.fresh hidle hidle rfl rfl fun _ => hmarks

theorem counted_stageRecord {t : Transport} (hcounted : Counted connId track objectId t sets)
    (env : PublishEnv) (hgroups : object.trackId.type = .data) :
    Counted connId track objectId (t.stageRecord env object).1
      (sets + (t.stageAttempts env object).countP (·.queues connId track objectId)) := by
  unfold stageRecord stageAttempts
  extract_lets limit
  have hfirst := counted_makeRoom hcounted env.before (t.groupForeign object)
  rcases hroom : t.makeRoom env.before (t.groupForeign object) with ⟨s, refused⟩
  rw [hroom] at hfirst
  cases refused with
  | some result =>
      rw [List.append_nil]
      exact hfirst
  | none =>
      have hsettled := idle_makeRoom hcounted.numbered hroom
        (idle_of_not_foreign hcounted.numbered)
      simp only at hfirst ⊢
      rw [List.countP_append, ← Nat.add_assoc]
      have hsecond := counted_makeRoom hfirst env.before (s.groupFull object limit)
      rcases hmore : s.makeRoom env.before (s.groupFull object limit) with ⟨r, refused⟩
      rw [hmore] at hsecond
      cases refused with
      | some result => exact hsecond
      | none =>
          have hidle := idle_makeRoom hfirst.numbered hmore fun _ => hsettled
          obtain ⟨hbegun, hstill, hmarks⟩ := counted_beginGroup hsecond hidle hgroups
          simp only at hbegun hstill hmarks ⊢
          cases happend : (r.beginGroup object).appendRecord env.grows object with
          | none => exact hbegun
          | some t' => exact counted_appendRecord hbegun hstill hmarks happend

theorem counted_publish {t : Transport} (hcounted : Counted connId track objectId t sets)
    (env : PublishEnv) (object : MoqObject) :
    Counted connId track objectId (t.publish env object).1
      (sets + (t.publishAttempts env object).countP (·.queues connId track objectId)) := by
  have hnumbered := numbered_publish hcounted.numbered env object
  unfold publish publishAttempts at *
  split
  · exact hcounted
  next hvalid =>
  rw [if_neg hvalid] at hnumbered
  split
  · next hgroups =>
      unfold publishGrouped groupedAttempts
      extract_lets fecLimit
      split
      · exact hcounted
      have hstaged := counted_stageRecord hcounted env (type_of_groupsRecords hgroups)
      rcases hstage : t.stageRecord env object with ⟨s, refused⟩
      rw [hstage] at hstaged
      cases refused with
      | some result =>
          rw [List.append_nil]
          exact hstaged
      | none =>
          simp only at hstaged ⊢
          rw [List.countP_append, ← Nat.add_assoc]
          cases hcomplete : s.groupComplete (groupLimit fecLimit) with
          | false => exact hstaged
          | true => exact counted_flush hstaged env.after
  · next hgroups =>
      rw [if_neg hgroups] at hnumbered
      have hsame := publishUngrouped_grouping t env.direct object false
      have hmoves := connsMove_publishUngrouped t env.direct object false
      exact hcounted.same hnumbered (hcounted.fresh.keeps fun _ _ => hmoves.keepsAt) hsame
        (le_of_eq hmoves.nextConnId.symm) fun _ _ _ hmarks =>
          hmarks.follows (follows_direct t env.direct object)

/-! ### Completions -/

theorem nextObjectId_announceEnd {t : Transport}
    (hfound : t.findFecTrackState ended = some state) (track : TrackId) :
    (t.announceEnd ended state).1.nextObjectId track = t.nextObjectId track := by
  have htrack : state.trackId = ended := (Keyed.mem_of_lookup hfound).2
  unfold nextObjectId announceEnd
  rw [findFecTrackState_setFecTrackState]
  simp only [htrack]
  split
  · next hsame =>
      show (Option.map _ (Option.map _ (t.findFecTrackState track))).getD 0 = _
      rw [hsame, hfound]
      rfl
  · rfl

theorem Counted.announceEnd {t : Transport} (hcounted : Counted connId track objectId t sets)
    (hfound : t.findFecTrackState ended = some state) (hsettles : t.Settles ended) :
    Counted connId track objectId (t.announceEnd ended state).1 sets := by
  have hmoves := connsMove_announceEnd t ended state
  have hid := nextObjectId_announceEnd hfound track
  have hfollows : ∀ marked, t.MarksAt connId marked →
      (t.announceEnd ended state).1.MarksAt connId marked :=
    fun _ hmarks => hmarks.follows (follows_announceEnd hsettles state)
  have hawaits : (t.announceEnd ended state).1.Awaits track objectId ↔
      t.Awaits track objectId := by
    unfold Awaits
    rw [hid]
    exact Iff.rfl
  refine ⟨numbered_announceEnd hcounted.numbered hfound,
    hcounted.fresh.keeps fun _ _ => hmoves.keepsAt, hcounted.atMostOnce, ?_, ?_,
    fun hbuffer hidle => hfollows _ (hcounted.unmarked hbuffer hidle), fun hsets => ?_⟩
  · rw [hid, hawaits]
    exact hcounted.idle
  · rw [hawaits]
    exact fun hwaits => hfollows _ (hcounted.waiting hwaits)
  · rw [hmoves.nextConnId]
    exact hcounted.taken hsets

theorem flushTrack_fst (t : Transport) (env : FlushEnv) (track : TrackId) :
    (t.flushTrack env track).1 =
      if t.fecBuf ≠ [] ∧ t.fecTrackId = track then (t.flushGrouped env).1 else t := by
  unfold flushTrack
  split
  · split
    · next hflush => rw [hflush]
    · next hflush => rw [hflush]
  · rfl

theorem counted_flushTrack {t : Transport} (hcounted : Counted connId track objectId t sets)
    (env : FlushEnv) (ended : TrackId) :
    Counted connId track objectId (t.flushTrack env ended).1
      (sets + (t.roomAttempts env (t.fecBuf ≠ [] ∧ t.fecTrackId = ended)).countP
        (·.queues connId track objectId)) := by
  rw [flushTrack_fst]
  unfold roomAttempts
  by_cases hhere : t.fecBuf ≠ [] ∧ t.fecTrackId = ended
  · rw [if_pos hhere, if_pos (decide_eq_true hhere)]
    exact counted_flush hcounted env
  · rw [if_neg hhere, if_neg (by simpa using hhere)]
    exact hcounted

/-- Behind a flush that got the track's group out, no group of the track is pending. -/
theorem settles_flushTrack {t s : Transport} (hnumbered : Numbered t)
    (hflush : t.flushTrack env ended = (s, true)) : s.Settles ended := by
  have hcases := flushTrack_cases t env ended
  rw [hflush] at hcases
  unfold Settles
  cases hcases with
  | here hother =>
      cases hpending : t.fecFlushPending with
      | false => rfl
      | true =>
          have hbuffer := (hnumbered.pending hpending).1
          have hne : ended ≠ t.fecTrackId := fun hsame => hother ⟨hbuffer, hsame.symm⟩
          rw [Bool.true_and, beq_eq_false_iff_ne]
          exact hne
  | flushed hpending hdelivered =>
      have hdone := numbered_flushGrouped hnumbered env
      have hflushed := flushed t env
      rw [hdelivered] at hdone hflushed
      rcases hflushed.buffer.1 with hkept | hemptied
      · exact absurd rfl hkept.1
      · rw [fecFlushPending_of_empty hdone hemptied.2.1]
        rfl

theorem counted_finishTrack {t : Transport} (hcounted : Counted connId track objectId t sets)
    (env : FlushEnv) (ended : TrackId) :
    Counted connId track objectId (t.finishTrack env ended).1
      (sets + (t.finishAttempts env ended).countP (·.queues connId track objectId)) := by
  unfold finishTrack finishAttempts
  split
  · exact hcounted
  have hflushed := counted_flushTrack hcounted env ended
  rcases hflush : t.flushTrack env ended with ⟨s, done⟩
  rw [hflush] at hflushed
  cases done with
  | false => exact hflushed
  | true =>
      simp only at hflushed ⊢
      cases hfound : s.findFecTrackState ended with
      | none => exact hflushed
      | some state =>
          simp only
          split
          · exact hflushed.announceEnd hfound (settles_flushTrack hcounted.numbered hflush)
          · exact hflushed

/-! ### Everything else -/

/-- A SUBSCRIBE for the track of the pending group is a new recipient's. -/
theorem marksAt_subscribe {t : Transport} (connId : Nat) (env : RepairEnv) (a : TrackAlias)
    (hpending : t.fecFlushPending = true) :
    (t.receiveControlFrame env connId (.subscribe a t.fecTrackId)).MarksAt connId False := by
  intro c' hc' hopen
  have hclosed : ∀ (c : Conn) (code : AppError) (reason : String),
      (c.quiclyClose code reason).closed ≠ none := by
    intro c code reason
    unfold Conn.quiclyClose
    split
    · next hsome =>
        rw [hsome]
        exact Option.some_ne_none _
    · exact Option.some_ne_none _
  unfold receiveControlFrame at hc'
  split at hc'
  · next hnone =>
      rw [hnone] at hc'
      cases hc'
  next c hlookup =>
  have hset : ∀ c' : Conn, c'.id = c.id →
      Keyed.lookup Conn.id connId (t.setConn c').conns = some c' :=
    fun c' => lookup_setConn_self hlookup
  have hrefused : ∀ code reason, Keyed.lookup Conn.id connId
      (t.setConn (c.quiclyClose code reason)).conns = some c' → False := by
    intro code reason hfound
    rw [hset _ (KeepsMark.quiclyClose c code reason).id_eq] at hfound
    obtain rfl := Option.some.inj hfound
    exact hclosed c code reason hopen
  split at hc'
  · next hsome =>
      rw [hlookup] at hc'
      obtain rfl := Option.some.inj hc'
      rw [hopen] at hsome
      cases hsome
  split at hc'
  · exact (hrefused _ _ hc').elim
  simp only at hc'
  split at hc'
  · exact (hrefused _ _ hc').elim
  split at hc'
  · exact (hrefused _ _ hc').elim
  unfold receiveSubscribe at hc'
  split at hc'
  · exact (hrefused _ _ hc').elim
  split at hc'
  · exact (hrefused _ _ hc').elim
  next table _ =>
  have hadded := keepsMark_checkpointMemberAdded t { c with sendSubscriptions := table }
    t.fecTrackId a
  rw [resetMark, hpending, beq_self_eq_true, Bool.and_self, if_pos rfl] at hadded
  generalize hjoined : t.checkpointMemberAdded { c with sendSubscriptions := table }
    t.fecTrackId a = joined at hadded hc'
  rw [hset (joined.emit (.subscribe t.fecTrackId)) hadded.id_eq] at hc'
  obtain rfl := Option.some.inj hc'
  show joined.fecGroupDelivered = true ↔ False
  rw [hadded.mark]
  exact ⟨fun h => (Bool.false_ne_true h).elim, fun h => h.elim⟩

theorem counted_connect {t : Transport} (hcounted : Counted connId track objectId t sets) :
    Counted connId track objectId t.connect sets := by
  refine hcounted.same (numbered_apply hcounted.numbered .connect)
    (hcounted.fresh.apply .connect) (grouping_apply t (show Op.quiet .connect = true from rfl))
    (Nat.le_succ _)
    fun _ marked hknown hmarks c hc hopen => ?_
  rw [lookup_connect] at hc
  cases hold : Keyed.lookup Conn.id connId t.conns with
  | some found =>
      rw [hold, Option.some_or] at hc
      obtain rfl := Option.some.inj hc
      exact hmarks found hold hopen
  | none =>
      rw [hold, Option.none_or] at hc
      split at hc
      · next hnew =>
          obtain rfl := Option.some.inj hc
          refine ⟨fun hmark => (Bool.false_ne_true hmark).elim, fun hmarked => ?_⟩
          have := hknown hmarked
          omega
      · cases hc

theorem subscribesTo_quiet {op : Op} (hsubscribes : op.subscribesTo connId track = true) :
    op.quiet = true := by
  cases op with
  | receive env other frame => rfl
  | _ => cases hsubscribes

theorem subscribesTo_eq {op : Op} (hsubscribes : op.subscribesTo connId track = true) :
    ∃ env a, op = .receive env connId (.subscribe a track) := by
  cases op with
  | receive env other frame =>
      cases frame with
      | subscribe a requested =>
          simp only [Op.subscribesTo, Bool.and_eq_true, beq_iff_eq] at hsubscribes
          obtain ⟨rfl, rfl⟩ := hsubscribes
          exact ⟨env, a, rfl⟩
      | _ => cases hsubscribes
  | _ => cases hsubscribes

/-- The SUBSCRIBE starts the count again. -/
theorem counted_subscribe {t : Transport} (hcounted : Counted connId track objectId t sets)
    {op : Op} (hsubscribes : op.subscribesTo connId track = true) :
    Counted connId track objectId (t.apply op) 0 := by
  have hquiet := subscribesTo_quiet hsubscribes
  have hsame := grouping_apply t hquiet
  refine ⟨numbered_apply hcounted.numbered op, hcounted.fresh.apply op, Nat.zero_le 1,
    fun _ _ => rfl, fun hawaits => ?_, fun hbuffer hidle => ?_, fun h => absurd rfl h⟩
  · obtain ⟨hpending, htrack, _⟩ := hawaits
    rw [hsame.fecFlushPending] at hpending
    rw [hsame.fecTrackId] at htrack
    subst htrack
    obtain ⟨env, a, rfl⟩ := subscribesTo_eq hsubscribes
    have hreset := marksAt_subscribe connId env a hpending
    intro c hc hopen
    rw [hreset c hc hopen]
    exact ⟨fun h => h.elim, fun h => by cases h⟩
  · rw [hsame.fecBuf] at hbuffer
    rw [hsame.fecFlushPending] at hidle
    refine (hcounted.unmarked hbuffer hidle).follows (follows_quiet hquiet ?_ fun hpending => ?_)
    · obtain ⟨env, a, rfl⟩ := subscribesTo_eq hsubscribes
      exact fun h => by cases h
    · rw [hidle] at hpending
      cases hpending

theorem nextConnId_quiet (t : Transport) {op : Op} (hquiet : op.quiet = true)
    (hconnect : op ≠ .connect) : (t.apply op).nextConnId = t.nextConnId := by
  have hanother : ∃ other, op.subscribesTo other t.fecTrackId = false := by
    cases hnone : op.subscribesTo 0 t.fecTrackId with
    | false => exact ⟨0, hnone⟩
    | true =>
        obtain ⟨env, a, rfl⟩ := subscribesTo_eq hnone
        exact ⟨1, rfl⟩
  obtain ⟨other, hother⟩ := hanother
  have hfollows : FollowsAt KeepsMark other t (t.apply op) :=
    follows_quiet hquiet hconnect fun _ => hother
  exact hfollows.nextConnId

theorem counted_quiet {t : Transport} (hcounted : Counted connId track objectId t sets)
    {op : Op} (hquiet : op.quiet = true)
    (hsubscribes : op.subscribesTo connId track = false) :
    Counted connId track objectId (t.apply op) sets := by
  by_cases hconnect : op = .connect
  · subst hconnect
    exact counted_connect hcounted
  have hfollows : (t.fecFlushPending = true → t.fecTrackId = track) →
      FollowsAt KeepsMark connId t (t.apply op) := by
    intro htrack
    refine follows_quiet hquiet hconnect fun hpending => ?_
    rw [htrack hpending]
    exact hsubscribes
  have hnext : t.nextConnId ≤ (t.apply op).nextConnId :=
    le_of_eq (nextConnId_quiet t hquiet hconnect).symm
  exact hcounted.same (numbered_apply hcounted.numbered op) (hcounted.fresh.apply op)
    (grouping_apply t hquiet) hnext fun htrack _ _ hmarks => hmarks.follows (hfollows htrack)

theorem counted_apply {t : Transport} (hcounted : Counted connId track objectId t sets)
    (op : Op) :
    Counted connId track objectId (t.apply op)
      (if op.subscribesTo connId track then 0 else
        sets + (t.groupAttempts op).countP (·.queues connId track objectId)) := by
  cases hsubscribes : op.subscribesTo connId track with
  | true => exact counted_subscribe hcounted hsubscribes
  | false =>
      rw [if_neg Bool.false_ne_true]
      cases op with
      | publish env object => exact counted_publish hcounted env object
      | flush env => exact counted_flush hcounted env
      | finish env ended => exact counted_finishTrack hcounted env ended
      | _ => exact counted_quiet hcounted rfl hsubscribes

/-! ### A pending group and the next operation -/

theorem Reaches.mono {t : Transport} {attempts more : List GroupAttempt}
    (hreaches : t.Reaches attempts object connId sets) (hsub : attempts ⊆ more)
    (hsets : sets ≤ later) (hatMost : later ≤ 1) : t.Reaches more object connId later := by
  intro c hc heligible hcontains
  have hreached := hreaches c hc heligible hcontains
  split
  · next hreliable =>
      rw [if_pos hreliable] at hreached
      obtain ⟨attempt, hattempt, hgot⟩ := hreached
      exact ⟨attempt, hsub hattempt, hgot⟩
  · next hreliable =>
      rw [if_neg hreliable] at hreached
      omega

/-- The group got out, by some of the attempts, to connection `connId` if that is a
recipient. -/
def GotOut (t t' : Transport) (attempts : List GroupAttempt) (object : MoqObject)
    (connId sets : Nat) : Prop :=
  object ∈ t'.published ∧ ∃ made, made ⊆ attempts ∧
    t.Reaches made object connId
      (sets + made.countP (·.queues connId object.trackId object.objectId)) ∧
    made.countP (·.queues connId object.trackId object.objectId) ≤
      attempts.countP (·.queues connId object.trackId object.objectId)

theorem GotOut.more {t s t' : Transport} {attempts : List GroupAttempt}
    (hout : GotOut t s attempts object connId sets) (hpublished : s.published ⊆ t'.published)
    (later : List GroupAttempt) : GotOut t t' (attempts ++ later) object connId sets := by
  obtain ⟨hmem, made, hsub, hreaches, hcount⟩ := hout
  refine ⟨hpublished hmem, made, fun _ hattempt => List.mem_append_left _ (hsub hattempt),
    hreaches, ?_⟩
  rw [List.countP_append]
  omega

theorem published_flush (t : Transport) (env : FlushEnv) :
    t.published ⊆ (t.flushGrouped env).1.published := by
  rcases (flushed t env).buffer.1 with hkept | hemptied
  · rw [hkept.2.2]
    exact List.Subset.refl _
  · rcases hemptied.2.2 with hsame | ⟨_, object, _, _, hmore⟩
    · rw [hsame.2]
      exact List.Subset.refl _
    · rw [hmore]
      exact List.subset_append_left _ _

theorem published_makeRoom (t : Transport) (env : FlushEnv) (due : Bool) :
    t.published ⊆ (t.makeRoom env due).1.published := by
  cases due with
  | false => exact List.Subset.refl _
  | true =>
      have hpublished := published_flush t env
      rcases hflush : t.flushGrouped env with ⟨t', result⟩
      rw [hflush] at hpublished
      rw [makeRoom_true hflush]
      exact hpublished

theorem gotOut_flush {t : Transport} (env : FlushEnv)
    (hcounted : Counted connId object.trackId object.objectId t sets)
    (hpending : t.PendingGroup object) :
    ((t.flushGrouped env).2 ≠ .delivered ∧ (t.flushGrouped env).1.PendingGroup object) ∨
      ((t.flushGrouped env).2 = .delivered ∧
        GotOut t (t.flushGrouped env).1 (t.flushAttempts env) object connId sets) := by
  cases settled_flush env hcounted hpending with
  | inl hkept => exact Or.inl hkept
  | inr hout =>
      exact Or.inr ⟨hout.1, hout.2.1, _, List.Subset.refl _, hout.2.2, le_refl _⟩

/-- A record waits behind the pending group. -/
theorem settled_stageRecord {t : Transport} (env : PublishEnv) (record : MoqObject)
    (hcounted : Counted connId object.trackId object.objectId t sets)
    (hpending : t.PendingGroup object) :
    ((∃ result, (t.stageRecord env record).2 = some result) ∧
        (t.stageRecord env record).1.PendingGroup object) ∨
      GotOut t (t.stageRecord env record).1 (t.stageAttempts env record) object connId
        sets := by
  have hforeign : t.groupForeign record = true := by
    obtain ⟨hwaits, _⟩ := hpending
    have hbuffer := (hcounted.numbered.pending hwaits).1
    simp [groupForeign, hwaits, hbuffer]
  have hsettled := gotOut_flush env.before hcounted hpending
  rcases hflush : t.flushGrouped env.before with ⟨s, result⟩
  rw [hflush] at hsettled
  unfold stageRecord stageAttempts
  extract_lets limit
  rw [hforeign, makeRoom_true hflush]
  rcases hsettled with ⟨hkept, hwaits⟩ | ⟨hdelivered, hout⟩
  · rw [if_neg hkept]
    exact Or.inl ⟨⟨_, rfl⟩, hwaits⟩
  rw [if_pos hdelivered]
  refine Or.inr (hout.more ?_ _)
  simp only
  have hmore := published_makeRoom s env.before (s.groupFull record limit)
  rcases hroom : s.makeRoom env.before (s.groupFull record limit) with ⟨r, refused⟩
  rw [hroom] at hmore
  cases refused with
  | some refusal => exact hmore
  | none =>
      simp only at hmore ⊢
      have hbegun : (r.beginGroup record).published = r.published := by
        unfold beginGroup
        split <;> rfl
      cases happend : (r.beginGroup record).appendRecord env.grows record with
      | none =>
          show s.published ⊆ (r.beginGroup record).published
          rw [hbegun]
          exact hmore
      | some t' =>
          have happended : t'.published = (r.beginGroup record).published := by
            simp only [appendRecord] at happend
            split at happend
            · cases happend
            · obtain rfl := Option.some.inj happend
              rfl
          show s.published ⊆ t'.published
          rw [happended, hbegun]
          exact hmore

theorem settled_publish {t : Transport} (env : PublishEnv) (record : MoqObject)
    (hcounted : Counted connId object.trackId object.objectId t sets)
    (hpending : t.PendingGroup object) :
    (t.publish env record).1.PendingGroup object ∨
      GotOut t (t.publish env record).1 (t.publishAttempts env record) object connId sets := by
  unfold publish publishAttempts
  split
  · exact Or.inl hpending
  split
  · unfold publishGrouped groupedAttempts
    extract_lets fecLimit
    split
    · exact Or.inl hpending
    have hstaged := settled_stageRecord env record hcounted hpending
    rcases hstage : t.stageRecord env record with ⟨s, refused⟩
    rw [hstage] at hstaged
    rcases hstaged with ⟨⟨result, hrefused⟩, hwaits⟩ | hout
    · simp only at hrefused
      subst hrefused
      exact Or.inl hwaits
    · refine Or.inr (hout.more ?_ _)
      cases refused with
      | some result => exact List.Subset.refl _
      | none =>
          simp only
          split
          · exact published_flush s env.after
          · exact List.Subset.refl _
  · have hsame := publishUngrouped_grouping t env.direct record false
    exact Or.inl ((hsame.pendingGroup object).mpr hpending)

theorem pendingGroup_announceEnd {t : Transport}
    (hfound : t.findFecTrackState ended = some state) (hsettles : t.Settles ended)
    (hpending : t.PendingGroup object) :
    (t.announceEnd ended state).1.PendingGroup object := by
  obtain ⟨hwaits, waiting, hwaiting, hobject⟩ := hpending
  have htrack : state.trackId = ended := (Keyed.mem_of_lookup hfound).2
  have hother : ¬ t.fecTrackId = ended := by
    intro hsame
    unfold Settles at hsettles
    rw [hwaits, hsame, Bool.true_and, beq_self_eq_true] at hsettles
    cases hsettles
  refine ⟨hwaits, waiting, ?_, hobject⟩
  show (t.announceEnd ended state).1.findFecTrackState t.fecTrackId = some waiting
  unfold announceEnd
  rw [findFecTrackState_setFecTrackState]
  simp only [htrack]
  rw [if_neg hother]
  exact hwaiting

theorem settled_finishTrack {t : Transport} (env : FlushEnv) (ended : TrackId)
    (hcounted : Counted connId object.trackId object.objectId t sets)
    (hpending : t.PendingGroup object) :
    (t.finishTrack env ended).1.PendingGroup object ∨
      GotOut t (t.finishTrack env ended).1 (t.finishAttempts env ended) object connId
        sets := by
  have hsettled := gotOut_flush env hcounted hpending
  unfold finishTrack finishAttempts
  split
  · exact Or.inl hpending
  have hfirst : (t.flushTrack env ended).1.PendingGroup object ∨
      GotOut t (t.flushTrack env ended).1
        (t.roomAttempts env (t.fecBuf ≠ [] ∧ t.fecTrackId = ended)) object connId sets := by
    rw [flushTrack_fst]
    unfold roomAttempts
    by_cases hhere : t.fecBuf ≠ [] ∧ t.fecTrackId = ended
    · rw [if_pos hhere, if_pos (decide_eq_true hhere)]
      cases hsettled with
      | inl hkept => exact Or.inl hkept.2
      | inr hout => exact Or.inr hout.2
    · rw [if_neg hhere]
      exact Or.inl hpending
  rcases hflush : t.flushTrack env ended with ⟨s, done⟩
  rw [hflush] at hfirst
  cases done with
  | false => exact hfirst
  | true =>
      simp only at hfirst ⊢
      cases hfound : s.findFecTrackState ended with
      | none => exact hfirst
      | some state =>
          simp only
          split
          · have hsettles := settles_flushTrack hcounted.numbered hflush
            cases hfirst with
            | inl hwaits => exact Or.inl (pendingGroup_announceEnd hfound hsettles hwaits)
            | inr hout =>
                have hmore : GotOut t (s.announceEnd ended state).1 _ object connId sets :=
                  hout.more (List.Subset.refl _) []
                rw [List.append_nil] at hmore
                exact Or.inr hmore
          · exact hfirst

theorem settled_apply {t : Transport} (op : Op)
    (hcounted : Counted connId object.trackId object.objectId t sets)
    (hpending : t.PendingGroup object) :
    (t.apply op).PendingGroup object ∨
      GotOut t (t.apply op) (t.groupAttempts op) object connId sets := by
  cases op with
  | publish env record => exact settled_publish env record hcounted hpending
  | flush env =>
      cases gotOut_flush env hcounted hpending with
      | inl hkept => exact Or.inl hkept.2
      | inr hout => exact Or.inr hout.2
  | finish env ended => exact settled_finishTrack env ended hcounted hpending
  | _ => exact Or.inl (((grouping_apply t rfl).pendingGroup object).mpr hpending)

end Transport

/-! ### Every run -/

open Transport

theorem GroupLedger.counted_run {ledger : GroupLedger}
    (hcounted : Counted connId track objectId ledger.transport ledger.sets) (ops : List Op) :
    Counted connId track objectId (ledger.run connId track objectId ops).transport
      (ledger.run connId track objectId ops).sets := by
  induction ops generalizing ledger with
  | nil => exact hcounted
  | cons op rest ih => exact ih (counted_apply hcounted op)

/-- Whatever the peers and the application do, the symbol set of a group is queued at
most once between two SUBSCRIBEs of a recipient for its track; while the group is
pending exactly the recipients it was queued for since their SUBSCRIBE count as served;
and the group stays as it is until every eligible subscriber has it. -/
theorem group_retried_once (isServer : Bool) (limits : TransportLimits)
    (maxRecoveryCacheBytes connId : Nat) (track : TrackId) (objectId : Nat)
    (ops : List Op) :
    let ledger := GroupLedger.run connId track objectId
      ⟨init isServer limits maxRecoveryCacheBytes, 0⟩ ops
    let t := (init isServer limits maxRecoveryCacheBytes).run ops
    ledger.sets ≤ 1 ∧
      ∀ object, t.PendingGroup object → object.trackId = track →
        object.objectId = objectId →
        (∀ c, Keyed.lookup Conn.id connId t.conns = some c → c.closed = none →
          (c.fecGroupDelivered = true ↔ ledger.sets = 1)) ∧
        (∀ env a c, Keyed.lookup Conn.id connId
            (t.apply (.receive env connId (.subscribe a track))).conns = some c →
          c.closed = none → c.fecGroupDelivered = false) ∧
        ∀ op, (t.apply op).PendingGroup object ∨
          (object ∈ (t.apply op).published ∧
            t.Reaches (t.groupAttempts op) object connId
              (ledger.apply connId track objectId op).sets) := by
  intro ledger t
  have hcounted : Counted connId track objectId ledger.transport ledger.sets :=
    GroupLedger.counted_run (counted_init isServer limits maxRecoveryCacheBytes) ops
  have hsame : ledger.transport = t :=
    GroupLedger.transport_run connId track objectId _ ops
  rw [hsame] at hcounted
  refine ⟨hcounted.atMostOnce, ?_⟩
  rintro object hpending rfl rfl
  obtain ⟨hwaits, state, hfound, hobject⟩ := hpending
  have htrack : t.fecTrackId = object.trackId := by rw [hobject]; rfl
  have hid : t.nextObjectId object.trackId = object.objectId := by
    rw [← htrack, nextObjectId_of_found hfound, hobject]
    rfl
  refine ⟨hcounted.waiting ⟨hwaits, htrack, hid⟩, fun env a c hc hopen => ?_, fun op => ?_⟩
  · have hreset := marksAt_subscribe connId env a hwaits
    rw [htrack] at hreset
    have hunmarked := hreset c hc hopen
    rw [iff_false, Bool.not_eq_true] at hunmarked
    exact hunmarked
  cases settled_apply op hcounted ⟨hwaits, state, hfound, hobject⟩ with
  | inl hkept => exact Or.inl hkept
  | inr hout =>
      obtain ⟨hpublished, made, hsub, hreaches, hcount⟩ := hout
      have hlater := (counted_apply hcounted op).atMostOnce
      cases hsubscribes : op.subscribesTo connId object.trackId with
      | true =>
          -- A SUBSCRIBE publishes nothing, so the group is still pending.
          have hquiet := subscribesTo_quiet hsubscribes
          exact Or.inl (((grouping_apply t hquiet).pendingGroup object).mpr
            ⟨hwaits, state, hfound, hobject⟩)
      | false =>
          rw [hsubscribes, if_neg Bool.false_ne_true] at hlater
          refine Or.inr ⟨hpublished, ?_⟩
          have hsets : (ledger.apply connId object.trackId object.objectId op).sets =
              ledger.sets + (t.groupAttempts op).countP
                (·.queues connId object.trackId object.objectId) := by
            simp only [GroupLedger.apply, hsubscribes, if_neg Bool.false_ne_true, hsame]
          rw [hsets]
          exact hreaches.mono hsub (by omega) hlater

end Qlinq
