import Qlinq.SweepFairness

namespace Qlinq

/-! How many repair requests a transport sends: each sweep has its budget, and all peers
together the aggregate rate. -/

variable {limits : ConfiguredLimits}

namespace RepairLimiter

theorem run_append (limiter : RepairLimiter) (first second : List (LimiterCall × Int64)) :
    run rate limiter (first ++ second) = run rate (run rate limiter first) second :=
  Machine.run_append limiter first second

theorem takeTimes_append (limiter : RepairLimiter) (first second : List (LimiterCall × Int64)) :
    takeTimes rate limiter (first ++ second) =
      takeTimes rate limiter first ++ takeTimes rate (run rate limiter first) second := by
  induction first generalizing limiter with
  | nil => rfl
  | cons call rest ih =>
      rw [List.cons_append, run_cons]
      simp only [takeTimes]
      rw [ih]
      split <;> rfl

end RepairLimiter

namespace NackLimiter

variable {rate : UInt64}

/-- From `before` to `after` there were calls between `first` and `last`, in the order of their
times, in which tokens were taken at `times`. -/
def TookWithin (first last : Int64) (times : List Int64) (before after : NackLimiter rate) : Prop :=
  ∃ calls, after.toRepairLimiter = RepairLimiter.run rate before.toRepairLimiter calls ∧
    RepairLimiter.takeTimes rate before.toRepairLimiter calls = times ∧
    calls.Pairwise (·.2 ≤ ·.2) ∧ ∀ call ∈ calls, first ≤ call.2 ∧ call.2 ≤ last

theorem tookWithin_none (first last : Int64) (limiter : NackLimiter rate) :
    TookWithin first last [] limiter limiter :=
  ⟨[], rfl, rfl, List.Pairwise.nil, by simp⟩

theorem tookWithin_wait (limiter : NackLimiter rate) (hle : nowMs ≤ last) :
    TookWithin nowMs last [] limiter (limiter.waitMs nowMs).1 :=
  ⟨[(.wait, nowMs)], rfl, rfl, List.pairwise_singleton .., by simpa using hle⟩

theorem tookWithin_take (limiter : NackLimiter rate) (hwait : (limiter.waitMs nowMs).2 = 0)
    (hle : nowMs ≤ admittedMs) :
    TookWithin nowMs admittedMs [admittedMs] limiter
      ((limiter.waitMs nowMs).1.take admittedMs).1 := by
  refine ⟨[(.wait, nowMs), (.take, admittedMs)], rfl, ?_, by simpa using hle, by simpa using hle⟩
  have htaken := RepairLimiter.take_after_wait limiter.le_capacity hwait admittedMs
  simp only [RepairLimiter.takeTimes, RepairLimiter.step, htaken]
  rfl

theorem TookWithin.trans {before between after : NackLimiter rate}
    (hfirst : TookWithin first middle times before between)
    (hsecond : TookWithin middle last later between after)
    (hbelow : first ≤ middle) (habove : middle ≤ last) :
    TookWithin first last (times ++ later) before after := by
  obtain ⟨calls, hrun, htimes, hsorted, hwithin⟩ := hfirst
  obtain ⟨calls', hrun', htimes', hsorted', hwithin'⟩ := hsecond
  refine ⟨calls ++ calls', ?_, ?_, ?_, ?_⟩
  · rw [RepairLimiter.run_append, ← hrun]
    exact hrun'
  · rw [RepairLimiter.takeTimes_append, ← hrun, htimes, htimes']
  · rw [List.pairwise_append]
    exact ⟨hsorted, hsorted', fun call hcall call' hcall' =>
      Int64.le_trans (hwithin call hcall).2 (hwithin' call' hcall').1⟩
  · intro call hcall
    rcases List.mem_append.mp hcall with hmem | hmem
    · exact ⟨(hwithin call hmem).1, Int64.le_trans (hwithin call hmem).2 habove⟩
    · exact ⟨Int64.le_trans hbelow (hwithin' call hmem).1, (hwithin' call hmem).2⟩

end NackLimiter

open NackLimiter

/-- Every frame that was written between the two took a token at `sentMs`. -/
structure Paid {rate : UInt64} (first last sentMs : Int64)
    (before after : EgressStats × NackLimiter rate) : Prop where
  frames : before.1.egressFrames ≤ after.1.egressFrames
  took : TookWithin first last
    (List.replicate (after.1.egressFrames - before.1.egressFrames) sentMs) before.2 after.2

theorem paid_none {rate : UInt64} {limiter limiter' : NackLimiter rate}
    (htook : TookWithin first last [] limiter limiter') (stats : EgressStats) :
    Paid first last sentMs (stats, limiter) (stats, limiter') where
  frames := Nat.le_refl _
  took := by
    rw [Nat.sub_self]
    exact htook

theorem paid_self {rate : UInt64} (account : EgressStats × NackLimiter rate) :
    Paid first last sentMs account account :=
  paid_none (tookWithin_none first last account.2) account.1

theorem Paid.trans {rate : UInt64} {before between after : EgressStats × NackLimiter rate}
    (hfirst : Paid nowMs nowMs nowMs before between)
    (hsecond : Paid nowMs nowMs nowMs between after) : Paid nowMs nowMs nowMs before after where
  frames := hfirst.frames.trans hsecond.frames
  took := by
    have hboth := hfirst.took.trans hsecond.took (Int64.le_refl _) (Int64.le_refl _)
    rw [List.replicate_append_replicate] at hboth
    have hless := hfirst.frames
    have hless' := hsecond.frames
    rwa [show between.1.egressFrames - before.1.egressFrames +
      (after.1.egressFrames - between.1.egressFrames) =
        after.1.egressFrames - before.1.egressFrames by omega] at hboth

namespace NackSender

def account (s : NackSender limits) : EgressStats × NackLimiter limits.aggregateNackRate :=
  (s.stats, s.aggregateLimiter)

theorem paid_admitRequest (s : NackSender limits) {clock : NackClock}
    (hclock : clock.aggregateMs ≤ clock.admittedMs) (stream : RetainedStream) (payload : Bytes) :
    Paid clock.aggregateMs clock.admittedMs clock.admittedMs s.account
      (s.admitRequest clock stream payload).1.account := by
  unfold admitRequest
  split
  · exact paid_self _
  next haccept =>
  rw [Bool.not_eq_true', Bool.not_eq_false] at haccept
  simp only
  by_cases hrequest : (s.requestLimiter.waitMs clock.requestMs).2 ≠ 0
  · rw [if_pos hrequest]
    exact paid_self _
  rw [if_neg hrequest]
  by_cases haggregate : (s.aggregateLimiter.waitMs clock.aggregateMs).2 ≠ 0
  · rw [if_pos haggregate]
    exact paid_none (tookWithin_wait _ hclock) _
  rw [if_neg haggregate]
  obtain ⟨after, hwrite, -, hcount, -, -, haggregates⟩ := writeFrame_nack
    (s := { s with
      requestLimiter := (s.requestLimiter.waitMs clock.requestMs).1
      aggregateLimiter := (s.aggregateLimiter.waitMs clock.aggregateMs).1 }) haccept
  rw [hwrite]
  refine ⟨by simp [account, hcount], ?_⟩
  simp only [account, hcount, haggregates, Nat.add_sub_cancel_left]
  exact tookWithin_take _ (not_not.mp haggregate) hclock

theorem paid_sendNack (s : NackSender limits) (indexedOnly : Bool) {clock : NackClock}
    (hclock : clock.aggregateMs ≤ clock.admittedMs) (request : NackRequest) :
    Paid clock.aggregateMs clock.admittedMs clock.admittedMs s.account
      (s.sendNack indexedOnly clock request).1.account := by
  unfold sendNack
  split
  · exact paid_self _
  split
  · exact paid_self _
  split
  · exact paid_self _
  split
  · exact paid_self _
  simp only
  split
  · exact paid_self _
  split
  · exact paid_self _
  split
  · exact paid_self _
  · exact paid_admitRequest s hclock _ _

end NackSender

/-- The sweep takes less than a millisecond: no call sees a later time than the tick.  A clock
that moves on within the sweep would seem to step back at the tick's next look at the limiter,
which fills it. -/
def SweepEnv.Steady (env : SweepEnv) : Prop :=
  ∀ call, (env.clock call).aggregateMs = env.nowMs ∧ (env.clock call).admittedMs = env.nowMs

/-- A positive wait is what the limiter answered last. -/
def LastAnswer {rate : UInt64} (nowMs : Int64) (limiter : NackLimiter rate) (wait : UInt64) : Prop :=
  wait ≠ 0 → ∃ before : NackLimiter rate,
    limiter = (before.waitMs nowMs).1 ∧ wait = (before.waitMs nowMs).2

namespace PeerSweep

/-- What the sweep did at a peer: each whole object came out of the budget, each frame had its
token, and the limiter was asked before the sweep ended. -/
structure Spent (env : SweepEnv) (before after : PeerSweep limits) : Prop where
  budget : ∃ admitted, after.asked = before.asked ++ admitted ∧
    after.budget + admitted.countP NackRequest.wholeObject = before.budget
  paid : env.Steady →
    Paid env.nowMs env.nowMs env.nowMs before.sender.account after.sender.account
  answered : LastAnswer env.nowMs before.sender.aggregateLimiter before.wait →
    LastAnswer env.nowMs after.sender.aggregateLimiter after.wait

theorem spent_self (env : SweepEnv) (s : PeerSweep limits) : Spent env s s :=
  ⟨⟨[], by simp⟩, fun _ => paid_self _, id⟩

theorem Spent.trans {env : SweepEnv} {before between after : PeerSweep limits}
    (hfirst : Spent env before between) (hsecond : Spent env between after) :
    Spent env before after := by
  obtain ⟨⟨admitted, hasked, hbudget⟩, hpaid, hanswered⟩ := hfirst
  obtain ⟨⟨admitted', hasked', hbudget'⟩, hpaid', hanswered'⟩ := hsecond
  refine ⟨⟨admitted ++ admitted', ?_, ?_⟩,
    fun hsteady => (hpaid hsteady).trans (hpaid' hsteady), hanswered' ∘ hanswered⟩
  · rw [hasked', hasked, List.append_assoc]
  · rw [List.countP_append]
    omega

theorem ask_spec (env : SweepEnv) (s : PeerSweep limits) (request : NackRequest) :
    (s.ask env request).1.budget = s.budget ∧
      (s.ask env request).1.asked =
        s.asked ++ (if (s.ask env request).2 then [request] else []) ∧
      (env.Steady → Paid env.nowMs env.nowMs env.nowMs s.sender.account
        (s.ask env request).1.sender.account) ∧
      LastAnswer env.nowMs (s.ask env request).1.sender.aggregateLimiter
        (s.ask env request).1.wait := by
  have hwaited : Paid env.nowMs env.nowMs env.nowMs s.sender.account
      (s.sender.stats, (s.sender.aggregateLimiter.waitMs env.nowMs).1) :=
    paid_none (tookWithin_wait _ (Int64.le_refl _)) _
  simp only [ask]
  split
  · exact ⟨rfl, by simp, fun _ => hwaited, fun _ => ⟨_, rfl, rfl⟩⟩
  next hwait =>
  have hsent : env.Steady → _ := fun hsteady => NackSender.paid_sendNack
    { s.sender with aggregateLimiter := (s.sender.aggregateLimiter.waitMs env.nowMs).1 }
    env.indexedOnly (Int64.le_of_eq ((hsteady s.calls).1.trans (hsteady s.calls).2.symm)) request
  split
  · next sender hresult =>
      refine ⟨rfl, by simp, fun hsteady => hwaited.trans ?_, fun hsome => absurd hsome hwait⟩
      have hpaid := hsent hsteady
      rw [hresult, (hsteady s.calls).1, (hsteady s.calls).2] at hpaid
      exact hpaid
  · next sender hresult =>
      refine ⟨rfl, by simp, fun hsteady => hwaited.trans ?_, fun hsome => absurd hsome hwait⟩
      have hpaid := hsent hsteady
      rw [hresult, (hsteady s.calls).1, (hsteady s.calls).2] at hpaid
      exact hpaid

theorem spent_askObjects (env : SweepEnv) (trackAlias : TrackAlias) (groupId : Nat)
    (s : PeerSweep limits) (objects : List Nat) :
    Spent env s (s.askObjects env trackAlias groupId objects).1 := by
  induction objects generalizing s with
  | nil => exact spent_self env s
  | cons objectId rest ih =>
      obtain ⟨hbudget, hasked, hpaid, hanswered⟩ := ask_spec env s
        (objectRequest trackAlias groupId objectId)
      rw [askObjects]
      split
      · exact spent_self env s
      next hroom =>
      split
      · next after hask =>
          rw [hask] at hbudget hasked hpaid hanswered
          exact ⟨⟨[], by simpa using hasked, by simpa using hbudget⟩, hpaid, fun _ => hanswered⟩
      · next after hask =>
          rw [hask] at hbudget hasked hpaid hanswered
          dsimp only at hbudget hasked
          have hspent : Spent env s { after with budget := after.budget - 1 } := by
            refine ⟨⟨[objectRequest trackAlias groupId objectId], hasked, ?_⟩, hpaid,
              fun _ => hanswered⟩
            have hwhole : ([objectRequest trackAlias groupId objectId] : List _).countP
                NackRequest.wholeObject = 1 := rfl
            rw [hwhole]
            dsimp only
            omega
          exact hspent.trans (ih _)

theorem spent_sweepEach {α : Type} {env : SweepEnv}
    {sweep : PeerSweep limits → α → PeerSweep limits × α}
    (hsweep : ∀ s item, Spent env s (sweep s item).1) (s : PeerSweep limits) (items : List α) :
    Spent env s (sweepEach sweep s items).1 := by
  induction items generalizing s with
  | nil => exact spent_self env s
  | cons item rest ih =>
      rw [sweepEach]
      split
      · exact spent_self env s
      · exact (hsweep s item).trans (ih _)

theorem spent_sweepPending (env : SweepEnv) (s : PeerSweep limits) (gap : RequestGap) :
    Spent env s (s.sweepPending env gap).1 := by
  have hspent := spent_askObjects env gap.trackAlias gap.groupId s gap.pendingObjects
  unfold sweepPending
  split
  · split
    · next hask =>
        rw [hask] at hspent
        exact hspent
    · next hask =>
        rw [hask] at hspent
        exact hspent
  · exact spent_self env s

theorem spent_sweepWindow (env : SweepEnv) (trackAlias : TrackAlias)
    (assembling : Nat → Nat → Bool) (s : PeerSweep limits) (slot : Option RequestWindow) :
    Spent env s (sweepWindow env trackAlias assembling s slot).1 := by
  cases slot with
  | none => exact spent_self env s
  | some window =>
      simp only [sweepWindow]
      split
      · have hspent := spent_askObjects env trackAlias window.groupId s
          (window.missingObjects (assembling window.groupId))
        split
        · exact hspent
        · exact hspent
      · exact spent_self env s

theorem spent_sweepGap (env : SweepEnv) (assembling : TrackAlias → Nat → Nat → Bool)
    (s : PeerSweep limits) (gap : RequestGap) : Spent env s (s.sweepGap env assembling gap).1 :=
  (spent_sweepPending env s gap).trans
    (spent_sweepEach (spent_sweepWindow env _ _) _ _)

theorem spent_sweepAssembler (env : SweepEnv) (s : PeerSweep limits)
    (slot : Option RequestAssembler) : Spent env s (s.sweepAssembler env slot).1 := by
  cases slot with
  | none => exact spent_self env s
  | some assembler =>
      simp only [sweepAssembler]
      split
      · exact spent_self env s
      split
      · exact spent_self env s
      next track htrack =>
      split
      · exact spent_self env s
      split
      · exact spent_self env s
      obtain ⟨hbudget, hasked, hpaid, hanswered⟩ := ask_spec env s
        (assembler.symbolRequest (s.sender.conn.repairsRateless env.indexedOnly track))
      split
      · next after hask =>
          rw [hask] at hbudget hasked hpaid hanswered
          exact ⟨⟨[], by simpa using hasked, by simpa using hbudget⟩, hpaid, fun _ => hanswered⟩
      · next after hask =>
          rw [hask] at hbudget hasked hpaid hanswered
          exact ⟨⟨[_], hasked, hbudget⟩, hpaid, fun _ => hanswered⟩

end PeerSweep

namespace NackTransport

def account (t : NackTransport limits) : EgressStats × NackLimiter limits.aggregateNackRate :=
  (t.stats, t.aggregateLimiter)

end NackTransport

namespace NackSweep

/-- What the visits of a sweep did. -/
structure Spent (env : SweepEnv) (before after : NackSweep limits) : Prop where
  budget : ∃ admitted, after.asked = before.asked ++ admitted ∧
    after.budget + admitted.countP (·.2.wholeObject) = before.budget
  paid : env.Steady →
    Paid env.nowMs env.nowMs env.nowMs before.transport.account after.transport.account
  answered : LastAnswer env.nowMs before.transport.aggregateLimiter before.wait →
    LastAnswer env.nowMs after.transport.aggregateLimiter after.wait
  retryAtMs : after.transport.retryAtMs = before.transport.retryAtMs

theorem spent_self (env : SweepEnv) (s : NackSweep limits) : Spent env s s :=
  ⟨⟨[], by simp⟩, fun _ => paid_self _, id, rfl⟩

theorem Spent.trans {env : SweepEnv} {before between after : NackSweep limits}
    (hfirst : Spent env before between) (hsecond : Spent env between after) :
    Spent env before after := by
  obtain ⟨⟨admitted, hasked, hbudget⟩, hpaid, hanswered, hretry⟩ := hfirst
  obtain ⟨⟨admitted', hasked', hbudget'⟩, hpaid', hanswered', hretry'⟩ := hsecond
  refine ⟨⟨admitted ++ admitted', ?_, ?_⟩,
    fun hsteady => (hpaid hsteady).trans (hpaid' hsteady), hanswered' ∘ hanswered,
    hretry'.trans hretry⟩
  · rw [hasked', hasked, List.append_assoc]
  · rw [List.countP_append]
    omega

theorem spent_visit (env : SweepEnv) (s : NackSweep limits) (index : Nat) :
    Spent env s (s.visit env index).1 := by
  unfold visit
  split
  · exact spent_self env s
  next peer hpeer =>
  split
  · exact spent_self env s
  · obtain ⟨⟨admitted, hasked, hbudget⟩, hpaid, hanswered⟩ :=
      (PeerSweep.spent_sweepEach (PeerSweep.spent_sweepGap env peer.assembling)
        (s.startPeer peer) peer.gaps).trans
        (PeerSweep.spent_sweepEach (PeerSweep.spent_sweepAssembler env) _ peer.assemblers)
    refine ⟨⟨admitted.map (index, ·), ?_, ?_⟩, hpaid,
      fun _ => hanswered fun hsome => absurd rfl hsome, rfl⟩
    · rw [startPeer, List.nil_append] at hasked
      exact congrArg (fun asked => s.asked ++ List.map (index, ·) asked) hasked
    · rw [List.countP_map]
      exact hbudget

theorem spent_visits (env : SweepEnv) (places : List Nat) (s : NackSweep limits) :
    Spent env s (RoundRobin.visits (visit env) places s).1 := by
  induction places generalizing s with
  | nil => exact spent_self env s
  | cons place rest ih =>
      have hvisit := spent_visit env s place
      simp only [RoundRobin.visits]
      split
      · exact hvisit
      · exact hvisit.trans (ih _)

end NackSweep

namespace NackTransport

theorem recoverySweep_spec (t : NackTransport limits) (env : SweepEnv) :
    (t.recoverySweep env).1.asked.countP (·.2.wholeObject) ≤ objectNackBudget ∧
      (env.Steady → Paid env.nowMs env.nowMs env.nowMs t.account
        (t.recoverySweep env).1.transport.account) ∧
      LastAnswer env.nowMs (t.recoverySweep env).1.transport.aggregateLimiter
        (t.recoverySweep env).1.wait ∧
      (t.recoverySweep env).1.transport.retryAtMs =
        if (t.recoverySweep env).1.wait = 0 then 0
        else retryAt env.nowMs (t.recoverySweep env).1.wait := by
  have hstart : NackSweep.Spent env { transport := { t with retryAtMs := 0 } }
      (t.startSweep env.nowMs) :=
    ⟨⟨[], rfl, rfl⟩, fun _ => paid_none (tookWithin_wait _ (Int64.le_refl _)) _,
      fun _ _ => ⟨_, rfl, rfl⟩, rfl⟩
  have hswept : NackSweep.Spent env { transport := { t with retryAtMs := 0 } }
      (t.sweepPeers env).1 := by
    unfold sweepPeers
    split
    · exact hstart
    · exact hstart.trans (NackSweep.spent_visits env _ _)
  obtain ⟨⟨admitted, hasked, hbudget⟩, hpaid, hanswered, hretry⟩ := hswept
  have hanswered := hanswered fun hsome => absurd rfl hsome
  rw [List.nil_append] at hasked
  have hwhole := Nat.le.intro ((Nat.add_comm _ _).trans hbudget)
  rw [← hasked] at hwhole
  simp only [recoverySweep]
  split
  · next hwait => exact ⟨hwhole, hpaid, hanswered, rfl⟩
  · next hwait => exact ⟨hwhole, hpaid, hanswered, hretry.trans (if_pos (not_not.mp hwait)).symm⟩

theorem paid_sendNack (t : NackTransport limits) (index : Nat) (indexedOnly : Bool)
    {clock : NackClock} (hclock : clock.aggregateMs ≤ clock.admittedMs) (request : NackRequest) :
    Paid clock.aggregateMs clock.admittedMs clock.admittedMs t.account
      (t.sendNack index indexedOnly clock request).account := by
  unfold sendNack
  split
  · exact paid_self _
  next peer hpeer =>
  exact NackSender.paid_sendNack
    { conn := peer.conn
      stream := peer.stream
      stats := t.stats
      requestLimiter := peer.requestLimiter
      aggregateLimiter := t.aggregateLimiter } indexedOnly hclock request

/-- The times at which a step wrote requests. -/
def sentBy (t : NackTransport limits) (step : NackStep limits) : List Int64 :=
  let sent := (t.apply step).stats.egressFrames - t.stats.egressFrames
  match step with
  | .sweep env => List.replicate sent env.nowMs
  | .request _ _ clock _ => List.replicate sent clock.admittedMs
  | .others _ _ => []

def sentTimes (t : NackTransport limits) : List (NackStep limits) → List Int64
  | [] => []
  | step :: rest => t.sentBy step ++ (t.apply step).sentTimes rest

end NackTransport

/-- The steps are taken in the order of their times, none before `since`. -/
def Timely (since : Int64) : List (NackStep limits) → Prop
  | [] => True
  | .sweep env :: rest =>
      since ≤ env.nowMs ∧ 0 < env.nowMs ∧ env.Steady ∧ Timely env.nowMs rest
  | .request _ _ clock _ :: rest =>
      since ≤ clock.aggregateMs ∧ 0 < clock.aggregateMs ∧
        clock.aggregateMs ≤ clock.admittedMs ∧ Timely clock.admittedMs rest
  | .others _ _ :: rest => Timely since rest

namespace RepairLimiter

theorem inOrder_append {first second : List (LimiterCall × Int64)}
    (hfirst : ∀ call ∈ first, lower ≤ call.2 ∧ call.2 ≤ upper)
    (hsorted : first.Pairwise (·.2 ≤ ·.2)) (hsince : since ≤ lower) (hpos : 0 < lower)
    (hle : lower ≤ upper) (hsecond : InOrder upper second) : InOrder since (first ++ second) where
  later := by
    intro call hcall
    rcases List.mem_append.mp hcall with hmem | hmem
    · exact Int64.le_trans hsince (hfirst call hmem).1
    · exact Int64.le_trans (Int64.le_trans hsince hle) (hsecond.later call hmem)
  pos := by
    intro call hcall
    rcases List.mem_append.mp hcall with hmem | hmem
    · exact Int64.lt_of_lt_of_le hpos (hfirst call hmem).1
    · exact hsecond.pos call hmem
  sorted := List.pairwise_append.mpr ⟨hsorted, hsecond.sorted, fun call hcall later hlater =>
    Int64.le_trans (hfirst call hcall).2 (hsecond.later later hlater)⟩

end RepairLimiter

namespace NackTransport

/-- All that the steps do to the aggregate limiter are calls in the order of their times, and
each request that they write has its own token. -/
def Accounted (since : Int64) (t : NackTransport limits) (steps : List (NackStep limits)) : Prop :=
  ∃ calls, RepairLimiter.InOrder since calls ∧
    (Machine.run apply t steps).aggregateLimiter.toRepairLimiter =
      RepairLimiter.run limits.aggregateNackRate t.aggregateLimiter.toRepairLimiter calls ∧
    RepairLimiter.takeTimes limits.aggregateNackRate t.aggregateLimiter.toRepairLimiter calls =
      t.sentTimes steps

theorem Accounted.cons {t : NackTransport limits} {step : NackStep limits}
    (hpaid : Paid lower upper sentMs t.account (t.apply step).account)
    (hsent : t.sentBy step =
      List.replicate ((t.apply step).stats.egressFrames - t.stats.egressFrames) sentMs)
    (hsince : since ≤ lower) (hpos : 0 < lower) (hle : lower ≤ upper)
    (hrest : Accounted upper (t.apply step) rest) : Accounted since t (step :: rest) := by
  obtain ⟨calls, hrun, htimes, hsorted, hwithin⟩ := hpaid.took
  obtain ⟨calls', horder, hrun', htimes'⟩ := hrest
  have hlimiter : (t.apply step).aggregateLimiter.toRepairLimiter =
      RepairLimiter.run limits.aggregateNackRate t.aggregateLimiter.toRepairLimiter calls := hrun
  refine ⟨calls ++ calls',
    RepairLimiter.inOrder_append hwithin hsorted hsince hpos hle horder, ?_, ?_⟩
  · rw [Machine.run_cons, hrun', hlimiter, RepairLimiter.run_append]
  · rw [sentTimes, hsent, ← htimes', hlimiter, RepairLimiter.takeTimes_append]
    exact congrArg (· ++ _) htimes

theorem accounted_run {since : Int64} (t : NackTransport limits) {steps : List (NackStep limits)}
    (htimely : Timely since steps) : Accounted since t steps := by
  induction steps generalizing t since with
  | nil => exact ⟨[], ⟨by simp, by simp, List.Pairwise.nil⟩, rfl, rfl⟩
  | cons step rest ih =>
      cases step with
      | sweep env =>
          obtain ⟨hsince, hpos, hsteady, hrest⟩ := htimely
          exact Accounted.cons ((recoverySweep_spec t env).2.1 hsteady) rfl hsince hpos
            (Int64.le_refl _) (ih _ hrest)
      | request index indexedOnly clock request =>
          obtain ⟨hsince, hpos, hclock, hrest⟩ := htimely
          exact Accounted.cons (paid_sendNack t index indexedOnly hclock request) rfl hsince hpos
            hclock (ih _ hrest)
      | others peers stats => exact ih (t.apply (.others peers stats)) htimely

end NackTransport

theorem aggregateNackRate_of_resolve {configured : ConfiguredLimits}
    (hresolve : configured.resolve = .ok limits) :
    1 ≤ limits.aggregateNackRate ∧ limits.aggregateNackRate ≤ 65535 ∧
      limits.aggregateNackRate.toNat = limits.maxAggregateNackRequestsPerSecond := by
  unfold ConfiguredLimits.resolve at hresolve
  simp only [ConfiguredLimits.ite_error_eq_ok, not_or, not_lt, Except.ok.injEq] at hresolve
  obtain ⟨-, -, -, -, -, hnack, -, -, -, -, -, -, -, -, -, -, rfl⟩ := hresolve
  have hpos : 0 < configured.withDefaults.maxAggregateNackRequestsPerSecond :=
    ConfiguredLimits.valueOrDefault_pos _ (by decide)
  have hvalue : configured.withDefaults.aggregateNackRate.toNat =
      configured.withDefaults.maxAggregateNackRequestsPerSecond :=
    UInt64.toNat_ofNat_of_lt' (by
      have hsize : UInt64.size = 18446744073709551616 := rfl
      omega)
  refine ⟨UInt64.le_iff_toNat_le.mpr ?_, UInt64.le_iff_toNat_le.mpr ?_, hvalue⟩
  · rw [hvalue]
    exact hpos
  · rw [hvalue]
    exact hnack

namespace NackTransport

/-- Whatever the peers have lost, a sweep asks for 32 objects at most, and all the sweeps and
the receiving side together write no more requests in any time than the aggregate rate gives. -/
theorem requests_within_rate {configured : ConfiguredLimits}
    (hresolve : configured.resolve = .ok limits) (t : NackTransport limits)
    (hfresh : t.aggregateLimiter.toRepairLimiter = {}) (steps : List (NackStep limits))
    (htimely : Timely 0 steps) :
    (∀ t₀ t₁ : Int64, (t.sentTimes steps).countP (fun time => t₀ ≤ time ∧ time ≤ t₁) ≤
      limits.maxAggregateNackRequestsPerSecond +
        limits.maxAggregateNackRequestsPerSecond * (t₁.toInt - t₀.toInt).toNat / 1000) ∧
      ∀ env, ((Machine.run apply t steps).recoverySweep env).1.asked.countP (·.2.wholeObject) ≤
        objectNackBudget := by
  obtain ⟨hrate, hbound, hvalue⟩ := aggregateNackRate_of_resolve hresolve
  obtain ⟨calls, horder, -, htimes⟩ := accounted_run t htimely
  refine ⟨fun t₀ t₁ => ?_, fun env => (recoverySweep_spec _ env).1⟩
  rw [← htimes, hfresh, ← hvalue]
  exact RepairLimiter.countP_takeTimes_le hrate hbound horder t₀ t₁

theorem two_requests_within_rate :
    (∀ t₀ t₁ : Int64,
      (lossyTransport.sentTimes [.sweep (steadyEnv 1000), .sweep (steadyEnv 2000)]).countP
          (fun time => t₀ ≤ time ∧ time ≤ t₁) ≤
        1 + 1 * (t₁.toInt - t₀.toInt).toNat / 1000) ∧
      lossyTransport.sentTimes [.sweep (steadyEnv 1000), .sweep (steadyEnv 2000)] =
        [1000, 2000] := by
  have hresolve : tightConfig.resolve = .ok tightConfig.withDefaults := by decide +kernel
  have htimely : Timely 0
      ([.sweep (steadyEnv 1000), .sweep (steadyEnv 2000)] :
        List (NackStep tightConfig.withDefaults)) :=
    ⟨by decide, by decide, fun _ => ⟨rfl, rfl⟩, by decide, by decide, fun _ => ⟨rfl, rfl⟩,
      trivial⟩
  exact ⟨(requests_within_rate hresolve lossyTransport rfl _ htimely).1, by decide +kernel⟩

end NackTransport

end Qlinq
