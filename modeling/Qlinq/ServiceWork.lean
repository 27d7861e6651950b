import Qlinq.FacadeSound

namespace Qlinq

/-! What a call of `qlinq_service` gets done: the work that was submitted, and the timers. -/

namespace ServedEndpoint

/-- The fields that tell when the endpoint is serviced. -/
def duty (e : ServedEndpoint) : Int × Bool × List ServiceMark :=
  (e.lastServiceMs, e.servicePending, e.marks)

end ServedEndpoint

namespace Facade

variable {f g : Facade} {env : ServiceEnv} {index : Nat}

/-! ### Who is due -/

/-- Nothing that a transport reports submits work. -/
theorem duty_handle (f : Facade) (index : Nat) (endpoint : QlinqEndpoint)
    (report : TransportReport) (other : Nat) :
    ((f.handle index endpoint report).served other).duty = (f.served other).duty := by
  have hchange : ∀ update : ServedEndpoint → ServedEndpoint,
      (update (f.served index)).duty = (f.served index).duty →
      ((f.change index update).served other).duty = (f.served other).duty := by
    intro update hduty
    cases decEq other index with
    | isTrue heq =>
        subst heq
        rw [served_change_self, hduty]
    | isFalse hne => rw [served_change_of_ne hne]
  obtain ⟨event, callocs, spare⟩ := report
  cases event with
  | object conn track info data =>
      have hrecord : ∀ (s : EventList × ServedEndpoint) (record : Bytes)
          (queued : EventList × ServedEndpoint), s.2.duty = (f.served index).duty →
          f.queueRecord callocs index conn track info s record = some queued →
          queued.2.duty = (f.served index).duty := by
        intro s record queued hduty hqueued
        unfold queueRecord at hqueued
        split at hqueued
        · cases hqueued
          exact hduty
        split at hqueued
        · cases hqueued
          exact hduty
        split at hqueued
        split at hqueued
        · cases hqueued
          exact hduty
        · cases hqueued
      have hrecords : (fun s : EventList × ServedEndpoint => s.2.duty = (f.served index).duty)
          (queueReceivedObject (f.queueRecord callocs index conn track info)
            (f.context.events, f.served index) track data).1 :=
        QlinqContext.queueReceivedObject_keeps hrecord rfl track data
      exact hchange (fun _ => (queueReceivedObject (f.queueRecord callocs index conn track info)
        (f.context.events, f.served index) track data).1.2) hrecords
  | objectLost conn track info =>
      refine hchange (·.loseObject track) ?_
      unfold ServedEndpoint.loseObject
      split
      · rfl
      · rfl
  | connected conn sendsAuth => rfl
  | auth conn token responds subscribes => rfl
  | authComplete conn success subscribes => rfl
  | disconnected conn info reason => rfl
  | subscribe conn track => rfl
  | unsubscribe conn track => rfl
  | keyframeRequest conn track => rfl

theorem duty_refreshEndpoint (f : Facade) (callocs : Callocs) (ready : Nat → Nat → Bool)
    (index other : Nat) :
    ((f.refreshEndpoint callocs ready index).served other).duty = (f.served other).duty := by
  unfold refreshEndpoint
  split
  · cases decEq other index with
    | isTrue heq =>
        subst heq
        simp only [served_change_self]
        rfl
    | isFalse hne => simp only [served_change_of_ne hne]
  · rfl

/-- Work is pending exactly where the last thing that became of the endpoint is that some was
submitted. -/
def Pends (e : ServedEndpoint) : Prop :=
  e.servicePending = (e.marks.getLast? == some .submitted)

theorem pends_submit (e : ServedEndpoint) : Pends e.submit := by
  simp [Pends, ServedEndpoint.submit]

theorem pends_startTick (e : ServedEndpoint) (nowMs : Int) : Pends (e.startTick nowMs) := by
  simp [Pends, ServedEndpoint.startTick]

theorem pends_of_duty {e e' : ServedEndpoint} (hduty : e'.duty = e.duty) (hpends : Pends e) :
    Pends e' := by
  unfold ServedEndpoint.duty at hduty
  rw [Prod.mk.injEq, Prod.mk.injEq] at hduty
  rw [Pends, hduty.2.1, hduty.2.2]
  exact hpends

def AllPend (f : Facade) : Prop := ∀ index, Pends (f.served index)

theorem allPend_change (hall : AllPend f) (index : Nat)
    {update : ServedEndpoint → ServedEndpoint} (hupdate : Pends (update (f.served index))) :
    AllPend (f.change index update) := by
  intro other
  cases decEq other index with
  | isTrue heq =>
      subst heq
      rw [served_change_self]
      exact hupdate
  | isFalse hne =>
      rw [served_change_of_ne hne]
      exact hall other

theorem steps_allPend : Steps AllPend where
  status := fun _ _ hall => hall
  tick := fun _ index nowMs hall => allPend_change hall index (pends_startTick _ nowMs)
  report := fun f index endpoint report hall _ _ other =>
    pends_of_duty (duty_handle f index endpoint report other) (hall other)
  refresh := fun f index callocs ready hall _ other =>
    pends_of_duty (duty_refreshEndpoint f callocs ready index other) (hall other)
  grow := fun _ _ hall => hall

theorem allPend_apply (hall : AllPend f) (op : Op) : AllPend (f.apply op) := by
  cases op with
  | openEndpoint listener sharedSecret =>
      exact allPend_change hall f.opened (pends_submit _)
  | openStream index profile direction callocs allocates subscribes =>
      have hadded : AllPend (f.change index fun e => (e.addStream profile direction).submit) :=
        allPend_change hall index (pends_submit _)
      simp only [apply, openStream]
      split
      · exact hall
      split
      · exact hall
      split
      · exact hall
      split
      · exact hall
      cases direction with
      | publish => exact hadded
      | subscribe =>
          simp only
          split
          · exact hadded
          · exact hadded
  | closeStream index id =>
      have hclosed : AllPend (f.change index fun e => (e.changeStream id (·.close)).submit) :=
        allPend_change hall index (pends_submit _)
      simp only [apply, closeStream]
      split
      · exact hall
      split
      · exact hall
      split
      · exact hclosed
      · exact hclosed
  | closeEndpoint index =>
      have hclosed : AllPend (f.change index (·.closeStreams)) :=
        allPend_change hall index (hall index)
      simp only [apply, closeEndpoint]
      split
      · exact hclosed
      · exact hall
  | submitWork index status =>
      have hsubmitted : AllPend (f.change index (·.submit)) :=
        allPend_change hall index (pends_submit _)
      simp only [apply, submitWork]
      split
      · exact hsubmitted
      · exact hall
  | sendRecord index id answer =>
      have hsent : AllPend
          (f.change index fun e => e.submit.changeStream id (·.send (mapSendResult answer))) :=
        allPend_change hall index (pends_submit (f.served index))
      simp only [apply, sendRecord]
      split
      · exact hall
      split
      · exact hall
      · exact hsent
  | service env => exact steps_allPend.service hall env
  | nextEvent => exact hall
  | releaseEvent address => exact hall

theorem allPend_run (limits : EventLimits) (ops : List Op) : AllPend (run limits ops) :=
  Machine.invariant_run (fun _ op hall _ => allPend_apply hall op) (fun _ => rfl)
    (Machine.along_true _ ops)

/-! ### The turns of the endpoints -/

/-- The endpoints and their streams are those of an earlier state. -/
def Kept (f g : Facade) : Prop := g.Sound ∧ Same f g

theorem steps_kept (f : Facade) : Steps (Kept f) where
  status := fun g status hkept =>
    ⟨steps_sound.status g status hkept.1, hkept.2.trans (same_setStatus g status)⟩
  tick := fun g index nowMs hkept =>
    ⟨steps_sound.tick g index nowMs hkept.1, hkept.2.trans (same_change g index rfl)⟩
  report := fun g index endpoint report hkept hendpoint hactive =>
    ⟨steps_sound.report g index endpoint report hkept.1 hendpoint hactive,
      hkept.2.trans (handle_refines hkept.1 hendpoint report).2⟩
  refresh := fun g index callocs ready hkept hactive =>
    ⟨steps_sound.refresh g index callocs ready hkept.1 hactive,
      hkept.2.trans (same_refreshEndpoint g callocs ready index)⟩
  grow := fun g capacity hkept => ⟨steps_sound.grow g capacity hkept.1,
    hkept.2.trans ⟨rfl, fun _ => rfl, fun _ => rfl⟩⟩

theorem kept_self (hsound : f.Sound) : Kept f f := ⟨hsound, same_self f⟩

theorem duty_serviceEndpoint (f : Facade) (index : Nat) (nowMs : Int)
    (reports : List TransportReport) (other : Nat) :
    ((f.serviceEndpoint index nowMs reports).served other).duty =
      ((f.change index (·.startTick nowMs)).served other).duty := by
  have hreports : ∀ (reports : List TransportReport) (g : Facade),
      ((reports.foldl (fun f report => f.onTransportEvent index report) g).served other).duty =
        (g.served other).duty := by
    intro reports
    induction reports with
    | nil => exact fun _ => rfl
    | cons report rest ih =>
        intro g
        rw [List.foldl_cons, ih]
        unfold onTransportEvent
        split
        · rfl
        · split
          · exact duty_handle g index _ report other
          · rfl
  exact hreports reports _

theorem duty_serviceEndpoint_self (f : Facade) (index : Nat) (nowMs : Int)
    (reports : List TransportReport) :
    ((f.serviceEndpoint index nowMs reports).served index).duty =
      (nowMs, false, (f.served index).marks ++ [.ticked]) := by
  rw [duty_serviceEndpoint, served_change_self]
  rfl

theorem duty_serviceEndpoint_of_ne {other : Nat} (hne : other ≠ index) (f : Facade) (nowMs : Int)
    (reports : List TransportReport) :
    ((f.serviceEndpoint index nowMs reports).served other).duty = (f.served other).duty := by
  rw [duty_serviceEndpoint, served_change_of_ne hne]

/-- When the endpoints have their turns one after the other, each finds its own duty as it was
before. -/
theorem foldl_turn {visit : Facade → Nat → Facade}
    (hvisit : ∀ g index, Kept f g → Kept f (visit g index))
    (hothers : ∀ g index other, other ≠ index →
      ((visit g index).served other).duty = (g.served other).duty)
    {items : List Nat} (hnodup : items.Nodup) (hmem : index ∈ items) (hkept : Kept f g) :
    ∃ before, Kept f before ∧ (before.served index).duty = (g.served index).duty ∧
      ((items.foldl visit g).served index).duty = ((visit before index).served index).duty := by
  induction items generalizing g with
  | nil => cases hmem
  | cons item rest ih =>
      obtain ⟨hfresh, hrest⟩ := List.nodup_cons.mp hnodup
      rw [List.foldl_cons]
      cases hmem with
      | head =>
          refine ⟨g, hkept, rfl, ?_⟩
          have hlater : ∀ (items : List Nat) (g : Facade), index ∉ items →
              ((items.foldl visit g).served index).duty = (g.served index).duty := by
            intro items
            induction items with
            | nil => exact fun _ _ => rfl
            | cons item rest ih =>
                intro g hnone
                rw [List.mem_cons, not_or] at hnone
                rw [List.foldl_cons, ih _ hnone.2, hothers g item index hnone.1]
          exact hlater rest _ hfresh
      | tail _ hmem =>
          have hne : index ≠ item := fun heq => hfresh (heq ▸ hmem)
          obtain ⟨before, hbefore, hduty, hafter⟩ := ih hrest hmem (hvisit g item hkept)
          exact ⟨before, hbefore, hduty.trans (hothers g item index hne), hafter⟩

theorem mem_order (hsound : f.Sound) (hactive : f.isActive index = true) : index ∈ f.order := by
  obtain ⟨endpoint, hendpoint, -⟩ := isActive_iff.mp hactive
  refine List.mem_reverse.mpr (List.mem_range.mpr ?_)
  rw [← hsound.entered_iff, hendpoint]
  rfl

theorem nodup_order (f : Facade) : f.order.Nodup := List.nodup_reverse.mpr List.nodup_range

/-- After the sweep no work is pending: the endpoint was ticked, or there was none and it has
been serviced this very millisecond. -/
theorem sweep_serves (hsound : f.Sound) (hactive : f.isActive index = true) (env : ServiceEnv) :
    ((f.sweep env).served index).duty =
      (env.startMs index, false, (f.served index).marks ++ [.ticked]) ∨
    ((f.sweep env).served index).duty = (f.served index).duty ∧
      (f.served index).servicePending = false ∧
      (f.served index).lastServiceMs = env.checkMs index := by
  obtain ⟨before, hbefore, hduty, hafter⟩ := foldl_turn (f := f) (g := f)
    (fun _ index hkept => (steps_kept f).sweepEndpoint hkept env index)
    (fun g index other hne => by
      unfold sweepEndpoint
      split
      · split
        · exact duty_serviceEndpoint_of_ne hne g _ _
        · rfl
      · rfl)
    f.nodup_order (mem_order hsound hactive) (kept_self hsound)
  have hlive : before.isActive index = true := (hbefore.2.isActive_eq index).trans hactive
  have hparts := hduty
  unfold ServedEndpoint.duty at hparts
  rw [Prod.mk.injEq, Prod.mk.injEq] at hparts
  obtain ⟨hlast, hpending, hmarks⟩ := hparts
  unfold sweep
  rw [hafter, sweepEndpoint, if_pos hlive]
  split
  · left
    rw [duty_serviceEndpoint_self, hmarks]
  · next hnot =>
      right
      rw [hlast, hpending] at hnot
      simp only [Bool.or_eq_true, bne_iff_ne, not_or, Decidable.not_not, Bool.not_eq_true] at hnot
      exact ⟨hduty, hnot⟩

theorem resume_serves (hsound : f.Sound) (hactive : f.isActive index = true) (env : ServiceEnv)
    (polled : PollResult) :
    ((f.resume env polled).served index).duty =
      if wakes env polled index then
        (env.resumeMs index, false, (f.served index).marks ++ [.ticked])
      else
        (f.served index).duty := by
  obtain ⟨before, hbefore, hduty, hafter⟩ := foldl_turn (f := f) (g := f)
    (fun _ index hkept => (steps_kept f).resumeEndpoint hkept env polled index)
    (fun g index other hne => by
      unfold resumeEndpoint
      split
      · exact duty_serviceEndpoint_of_ne hne g _ _
      · rfl)
    f.nodup_order (mem_order hsound hactive) (kept_self hsound)
  have hlive : before.isActive index = true := (hbefore.2.isActive_eq index).trans hactive
  have hmarks : (before.served index).marks = (f.served index).marks :=
    congrArg (·.2.2) hduty
  unfold resume
  rw [hafter, resumeEndpoint, hlive, Bool.true_and]
  split
  · rw [duty_serviceEndpoint_self, hmarks]
  · exact hduty

theorem duty_refreshWritableEvents (f : Facade) (callocs : Callocs) (ready : Nat → Nat → Bool)
    (index : Nat) :
    ((f.refreshWritableEvents callocs ready).served index).duty = (f.served index).duty := by
  unfold refreshWritableEvents
  generalize f.order = items
  induction items generalizing f with
  | nil => rfl
  | cons item rest ih =>
      rw [List.foldl_cons, ih]
      exact duty_refreshEndpoint f callocs ready item index

/-! ### A whole call -/

/-- What a call may do for an endpoint: it is ticked so many times, and then has no work left
that is older than the last tick. -/
structure Served (env : ServiceEnv) (index most : Nat) (before after : ServedEndpoint) : Prop where
  marks : ∃ ticks ≤ most, after.marks = before.marks ++ List.replicate ticks .ticked
  idle : after.servicePending = false
  last : after.lastServiceMs = env.checkMs index ∨ after.lastServiceMs = env.startMs index ∨
    after.lastServiceMs = env.resumeMs index

theorem Served.congr {before after later : ServedEndpoint}
    (hserved : Served env index most before after) (hduty : later.duty = after.duty) :
    Served env index most before later := by
  unfold ServedEndpoint.duty at hduty
  rw [Prod.mk.injEq, Prod.mk.injEq] at hduty
  obtain ⟨hlast, hpending, hmarks⟩ := hduty
  exact ⟨hmarks ▸ hserved.marks, hpending.trans hserved.idle, hlast ▸ hserved.last⟩

theorem served_sweep (hsound : f.Sound) (hactive : f.isActive index = true) (env : ServiceEnv) :
    Served env index 1 (f.served index) ((f.sweep env).served index) := by
  cases sweep_serves hsound hactive env with
  | inl hticked =>
      unfold ServedEndpoint.duty at hticked
      rw [Prod.mk.injEq, Prod.mk.injEq] at hticked
      obtain ⟨hlast, hpending, hmarks⟩ := hticked
      exact ⟨⟨1, Nat.le_refl 1, hmarks⟩, hpending, .inr (.inl hlast)⟩
  | inr hquiet =>
      obtain ⟨hduty, hpending, hlast⟩ := hquiet
      unfold ServedEndpoint.duty at hduty
      rw [Prod.mk.injEq, Prod.mk.injEq] at hduty
      exact ⟨⟨0, Nat.zero_le 1, hduty.2.2.trans (List.append_nil _).symm⟩,
        hduty.2.1.trans hpending, .inl (hduty.1.trans hlast)⟩

theorem Served.resume {before : ServedEndpoint} (hsound : f.Sound)
    (hactive : f.isActive index = true) (polled : PollResult)
    (hserved : Served env index 1 before (f.served index)) :
    Served env index 2 before ((f.resume env polled).served index) := by
  obtain ⟨⟨ticks, hticks, hmarks⟩, hidle, hlast⟩ := hserved
  have hduty := resume_serves hsound hactive env polled
  unfold ServedEndpoint.duty at hduty
  split at hduty
  · rw [Prod.mk.injEq, Prod.mk.injEq] at hduty
    refine ⟨⟨ticks + 1, by omega, ?_⟩, hduty.2.1, .inr (.inr hduty.1)⟩
    rw [hduty.2.2, hmarks, List.replicate_succ', List.append_assoc]
  · rw [Prod.mk.injEq, Prod.mk.injEq] at hduty
    exact ⟨⟨ticks, by omega, hduty.2.2.trans hmarks⟩, hduty.2.1.trans hidle, hduty.1 ▸ hlast⟩

theorem Served.mono {before after : ServedEndpoint} (hserved : Served env index 1 before after) :
    Served env index 2 before after := by
  obtain ⟨⟨ticks, hticks, hmarks⟩, hidle, hlast⟩ := hserved
  exact ⟨⟨ticks, by omega, hmarks⟩, hidle, hlast⟩

theorem served_awake {before : ServedEndpoint} (hsound : f.Sound)
    (hactive : f.isActive index = true) (polled : PollResult)
    (hserved : Served env index 1 before (f.served index)) :
    Served env index 2 before ((f.awake env polled).1.served index) := by
  have hresumed := (hserved.resume hsound hactive polled).congr
    (duty_refreshWritableEvents (f.resume env polled) env.laterCallocs env.laterReady index)
  unfold awake
  split
  · exact hserved.mono
  · exact hserved.mono
  · extract_lets resumed
    split
    · exact hresumed
    · exact hresumed

theorem served_service (hsound : f.Sound) (htimeout : -1 ≤ env.timeoutMs)
    (hidle : f.hasEvents = false) (hactive : f.isActive index = true) :
    Served env index 2 (f.served index) ((f.service env).1.served index) := by
  have hstatus : Kept f (f.setStatus .ok) := (steps_kept f).status f .ok (kept_self hsound)
  have hswept : Kept f (((f.setStatus .ok).sweep env).refreshWritableEvents env.callocs
      env.ready) :=
    (steps_kept f).refreshWritableEvents ((steps_kept f).sweep hstatus env) env.callocs env.ready
  have hserved := (served_sweep hstatus.1 ((hstatus.2.isActive_eq index).trans hactive)
    env).congr (duty_refreshWritableEvents ((f.setStatus .ok).sweep env) env.callocs env.ready
      index)
  unfold service
  rw [if_neg (Int.not_lt.mpr htimeout), if_neg (by simp [hidle])]
  extract_lets swept
  split
  · exact hserved.mono
  split
  · exact hserved.mono
  split
  · exact hserved.mono
  · next grown hgrown =>
      have hkept : Kept f grown := (steps_kept f).growPolls hswept hgrown
      have hsame : grown.served = swept.served := by
        unfold growPolls at hgrown
        split at hgrown
        · split at hgrown
          · cases hgrown
            rfl
          · cases hgrown
        · cases hgrown
          rfl
      exact served_awake hkept.1 ((hkept.2.isActive_eq index).trans hactive) _ (hsame ▸ hserved)

/-- Whenever no event waits for the application, a call leaves no work undone that was ever
submitted to an endpoint: a tick has begun since.  It ticks no endpoint more than twice, and
each one's last tick began at a time that the call read. -/
theorem service_leaves_nothing (env : ServiceEnv) (index : Nat) (limits : EventLimits)
    (ops : List Op)
    (htimeout : -1 ≤ env.timeoutMs) (hidle : (run limits ops).hasEvents = false)
    (hactive : (run limits ops).isActive index = true) :
    (∀ first rest, (((run limits ops).service env).1.served index).marks =
        first ++ .submitted :: rest → .ticked ∈ rest) ∧
      Served env index 2 ((run limits ops).served index)
        (((run limits ops).service env).1.served index) := by
  have hserved := served_service (sound_run limits ops) htimeout hidle hactive
  have hpends : Pends (((run limits ops).service env).1.served index) :=
    steps_allPend.service (allPend_run limits ops) env index
  refine ⟨fun first rest hmarks => ?_, hserved⟩
  rw [Pends, hserved.idle, hmarks] at hpends
  cases hlast : rest.getLast? with
  | none =>
      rw [List.getLast?_eq_none_iff.mp hlast] at hpends
      simp at hpends
  | some mark =>
      have hmem := List.mem_of_getLast? hlast
      cases mark with
      | submitted => simp [List.getLast?_append, List.getLast?_cons, hlast] at hpends
      | ticked => exact hmem

/-- A listener, and a client that publishes a stream. -/
def busyRun : List Op :=
  [.openEndpoint true [1], .openEndpoint false [1], .openStream 1
    { type := .data, delivery := .reliable, name := [102] } .publish (fun _ => none) true
    fun _ => true]

/-- Nothing comes, and the first timer is due in five milliseconds. -/
def calmEnv : ServiceEnv where
  timeoutMs := 100
  checkMs := fun _ => 7
  startMs := fun _ => 7
  reports := fun _ => []
  callocs := fun _ => none
  ready := fun _ _ => false
  allocates := true
  nowMs := 7
  firstTimeout := fun index => if index = 0 then 12 else -1
  poll := fun _ => .expired
  wakeMs := 12
  resumeMs := fun _ => 12
  laterReports := fun _ => []
  laterCallocs := fun _ => none
  laterReady := fun _ _ => false

def smallLimits : EventLimits where
  nodeBytes := 8
  maxEvents := 4
  maxBytes := 64
  events_pos := by decide
  node_le := by decide
  maxBytes_le := by decide

theorem busy_run_is_serviced :
    (((run smallLimits busyRun).service calmEnv).1.served 1).servicePending = false ∧
      Served calmEnv 1 2 ((run smallLimits busyRun).served 1)
        (((run smallLimits busyRun).service calmEnv).1.served 1) := by
  obtain ⟨-, hserved⟩ := service_leaves_nothing calmEnv 1 smallLimits busyRun
    (by decide) (by decide +kernel) (by decide +kernel)
  exact ⟨hserved.idle, hserved⟩

/-! ### The wait -/

/-- An endpoint's timer from now, as far as the poll can wait for it. -/
def timerWait (env : ServiceEnv) (index : Nat) : Int :=
  min intMax (max 0 (env.firstTimeout index - env.nowMs))

theorem timerWait_nonneg (env : ServiceEnv) (index : Nat) : 0 ≤ timerWait env index := by
  unfold timerWait intMax
  omega

theorem waitFor_eq (env : ServiceEnv) (waitMs : Int) (index : Nat) :
    waitFor env waitMs index =
      if 0 ≤ env.firstTimeout index then
        if waitMs < 0 then timerWait env index else min waitMs (timerWait env index)
      else
        waitMs := by
  unfold waitFor
  extract_lets deadline remaining wait
  have hwait : wait = timerWait env index := by
    unfold wait remaining timerWait intMax
    split
    · split
      · omega
      · omega
    · split
      · omega
      · omega
  rw [hwait]
  split
  · split
    · split
      · rfl
      · omega
    · split
      · omega
      · omega
  · rfl

/-- What the poll is to wait, when some endpoints have been asked. -/
structure Waits (env : ServiceEnv) (asked : List Nat) (waitMs : Int) : Prop where
  least : -1 ≤ waitMs
  forever_iff : waitMs = -1 ↔
    env.timeoutMs = -1 ∧ ∀ index ∈ asked, env.firstTimeout index < 0
  within : 0 ≤ env.timeoutMs → waitMs ≤ env.timeoutMs
  in_time : ∀ index ∈ asked, 0 ≤ env.firstTimeout index → waitMs ≤ timerWait env index
  attained : waitMs = env.timeoutMs ∨ ∃ index ∈ asked, 0 ≤ env.firstTimeout index ∧
    waitMs = timerWait env index

theorem waits_start (htimeout : -1 ≤ env.timeoutMs) : Waits env [] env.timeoutMs where
  least := htimeout
  forever_iff := by simp
  within := fun _ => Int.le_refl _
  in_time := fun _ hmem => absurd hmem List.not_mem_nil
  attained := .inl rfl

theorem Waits.ask {asked : List Nat} {waitMs : Int} (hwaits : Waits env asked waitMs)
    (index : Nat) : Waits env (asked ++ [index]) (waitFor env waitMs index) := by
  obtain ⟨hleast, hforever, hwithin, htime, hattained⟩ := hwaits
  have htimer := timerWait_nonneg env index
  have hkept : waitMs = env.timeoutMs ∨ ∃ other ∈ asked ++ [index],
      0 ≤ env.firstTimeout other ∧ waitMs = timerWait env other := by
    refine hattained.imp id fun htimed => ?_
    obtain ⟨other, hother, hdue⟩ := htimed
    exact ⟨other, List.mem_append_left _ hother, hdue⟩
  rw [waitFor_eq]
  split
  · next hset =>
      have hunset : ¬ ∀ other ∈ asked ++ [index], env.firstTimeout other < 0 := fun hall =>
        absurd (hall index (by simp)) (Int.not_lt.mpr hset)
      split
      · next hnegative =>
          obtain ⟨hendless, hnone⟩ := hforever.mp (by omega)
          refine ⟨by omega, ⟨fun heq => ?_, fun h => absurd h.2 hunset⟩, fun _ => by omega,
            fun other hother hdue => ?_, .inr ⟨index, by simp, hset, rfl⟩⟩
          · omega
          · cases List.mem_append.mp hother with
            | inl hold => exact absurd (hnone other hold) (Int.not_lt.mpr hdue)
            | inr hnew => rw [List.mem_singleton.mp hnew]
      · next hwaiting =>
          refine ⟨by omega, ⟨fun heq => ?_, fun h => absurd h.2 hunset⟩, fun hfinite => ?_,
            fun other hother hdue => ?_, ?_⟩
          · omega
          · have hleft := hwithin hfinite
            omega
          · cases List.mem_append.mp hother with
            | inl hold =>
                have hleft := htime other hold hdue
                omega
            | inr hnew =>
                rw [List.mem_singleton.mp hnew]
                omega
          · cases Int.le_total waitMs (timerWait env index) with
            | inl hle =>
                rw [Int.min_eq_left hle]
                exact hkept
            | inr hle =>
                rw [Int.min_eq_right hle]
                exact .inr ⟨index, by simp, hset, rfl⟩
  · next hunset =>
      refine ⟨hleast, ?_, hwithin, fun other hother hdue => ?_, hkept⟩
      · rw [hforever, List.forall_mem_append]
        simp only [List.mem_singleton, forall_eq]
        exact ⟨fun h => ⟨h.1, h.2, by omega⟩, fun h => ⟨h.1, h.2.1⟩⟩
      · cases List.mem_append.mp hother with
        | inl hold => exact htime other hold hdue
        | inr hnew => exact absurd (List.mem_singleton.mp hnew ▸ hdue) hunset

theorem Waits.ask_all {asked : List Nat} {waitMs : Int} (hwaits : Waits env asked waitMs)
    (items : List Nat) : Waits env (asked ++ items) (items.foldl (waitFor env) waitMs) := by
  induction items generalizing asked waitMs with
  | nil => simpa using hwaits
  | cons item rest ih =>
      have hnext := ih (hwaits.ask item)
      rwa [List.append_assoc] at hnext

/-- The poll waits no longer than the caller allows and no longer than until the first timer of
an endpoint, and for ever only if neither limits it.  Once it ends, the endpoints with a timer
that is due or a socket that is ready are ticked, or all of them when nothing came, and no
others. -/
theorem poll_is_in_time (env : ServiceEnv) (hsound : f.Sound) (htimeout : -1 ≤ env.timeoutMs) :
    Waits env f.actives (f.pollWait env) ∧
      ∀ polled, polled ≠ .failed → polled ≠ .interrupted → ∀ index, f.isActive index = true →
        ((f.awake env polled).1.served index).marks =
          (f.served index).marks ++ if wakes env polled index then [.ticked] else [] := by
  refine ⟨(waits_start htimeout).ask_all f.actives, fun polled hfailed hinterrupted index
    hactive => ?_⟩
  have hresumed := (duty_refreshWritableEvents (f.resume env polled) env.laterCallocs
    env.laterReady index).trans (resume_serves hsound hactive env polled)
  have hawake : ((f.awake env polled).1.served index).duty =
      (((f.resume env polled).refreshWritableEvents env.laterCallocs env.laterReady).served
        index).duty := by
    unfold awake
    split
    · exact absurd rfl hfailed
    · exact absurd rfl hinterrupted
    · extract_lets resumed
      split
      · rfl
      · rfl
  have hmarks := congrArg (fun duty => duty.2.2) (hawake.trans hresumed)
  change ((f.awake env polled).1.served index).marks = _ at hmarks
  rw [hmarks]
  split
  · rfl
  · exact (List.append_nil _).symm

theorem busy_poll_is_in_time :
    Waits calmEnv (run smallLimits busyRun).actives ((run smallLimits busyRun).pollWait calmEnv) ∧
      (run smallLimits busyRun).pollWait calmEnv = 5 ∧
      (((run smallLimits busyRun).awake calmEnv .expired).1.served 1).marks =
        ((run smallLimits busyRun).served 1).marks ++ [.ticked] := by
  obtain ⟨hwaits, hticked⟩ := poll_is_in_time calmEnv (sound_run smallLimits busyRun) (by decide)
  have hone := hticked .expired (by simp) (by simp) 1 (by decide +kernel)
  exact ⟨hwaits, by decide +kernel, hone⟩

end Facade

end Qlinq
