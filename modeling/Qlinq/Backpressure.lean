import Mathlib.Algebra.Order.BigOperators.Group.List
import Mathlib.Algebra.Order.Group.Nat
import Qlinq.PublishEffects
import Qlinq.Publisher

namespace Qlinq

/-! When an idle connection can take an object: the plan must fit the path
queues as they are, since an allocation is never split over time. -/

namespace ConnEnv

/-- At least one path is usable, nothing is queued on any and no budget is in
debt. -/
structure Drained (env : ConnEnv) : Prop where
  usable : env.paths ≠ []
  queues_empty : ∀ path ∈ env.paths, path.queued = 0
  debt_repaid : ∀ path ∈ env.paths, path.budget.debt ≤ 0

/-- What the libraries answer: natural numbers convert to nonnegative fixed
points, memory is there, blocks encode and QUIC takes a packet for a queue with
room.  A QUIC path index fits a byte. -/
structure Sound (env : ConnEnv) : Prop where
  ofNat_nonneg : ∀ n ≤ pathBurstMax, 0 ≤ env.pathflow.ofNat n
  allocates : env.blocksAllocate = true
  encodes : ∀ type blocks parity size,
    (env.codec.encode type blocks parity size).isSome
  packet_queued : ∀ symbol, env.packet symbol = .queued
  mapped_le : ∀ path ∈ env.paths, path.mapped ≤ 255

/-- The schedule built for the paths, as it is transmitted. -/
def scheduleFor (env : ConnEnv) (profile : TrackProfile) (priority : UInt8)
    (symbolSize dataSymbols : Nat) (active : List PathEnv) (cursor : Nat) :
    Option Schedule × Nat :=
  let (built, next) := Schedule.build env.pathflow (active.map (·.state)) dataSymbols
    symbolSize profile.usesFec priority cursor
  (built.map fun schedule => schedule.transmitted profile.fecRateless dataSymbols, next)

def FitsQueues (schedule : Schedule) : Prop :=
  ∀ path ∈ schedule.paths, path.x ≤ pathDatagramQueueCapacity

/-- The path sets tried in turn on empty queues: every next one lacks the first
path whose allocation exceeds a whole queue. -/
inductive Replanned (env : ConnEnv) (profile : TrackProfile) (priority : UInt8)
    (symbolSize dataSymbols : Nat) :
    List PathEnv → Nat → List PathEnv → Nat → Prop
  | refl {active : List PathEnv} {cursor : Nat} :
      Replanned env profile priority symbolSize dataSymbols active cursor active cursor
  | drop {active rest : List PathEnv} {cursor next last index : Nat}
      {schedule : Schedule}
      (hschedule : env.scheduleFor profile priority symbolSize dataSymbols active cursor =
        (some schedule, next))
      (hfirst : schedule.paths.findIdx?
        (fun path => pathDatagramQueueCapacity < path.x) = some index)
      (hrest : Replanned env profile priority symbolSize dataSymbols
        (active.eraseIdx index) next rest last) :
      Replanned env profile priority symbolSize dataSymbols active cursor rest last

/-- Replanning ends before the paths run out: at a schedule that fits empty
queues, or at paths that cannot be scheduled (`none`). -/
def Settles (env : ConnEnv) (profile : TrackProfile) (priority : UInt8)
    (symbolSize dataSymbols : Nat) (active : List PathEnv) (cursor : Nat)
    (outcome : Option Schedule) : Prop :=
  ∃ rest last next,
    env.Replanned profile priority symbolSize dataSymbols active cursor rest last ∧
      rest ≠ [] ∧
      env.scheduleFor profile priority symbolSize dataSymbols rest last = (outcome, next) ∧
      ∀ schedule ∈ outcome, FitsQueues schedule

theorem activePaths_of_drained {env : ConnEnv} (hdrained : env.Drained) :
    env.activePaths = env.paths := by
  rw [activePaths, List.filter_eq_self]
  intro path hpath
  simp [hdrained.queues_empty path hpath, pathDatagramQueueCapacity]

theorem pathBudgetWait_of_repaid {pathflow : Pathflow} {budget : PathBudget}
    (hfixed : ∀ n ≤ pathBurstMax, 0 ≤ pathflow.ofNat n) (hdebt : budget.debt ≤ 0)
    (symbols : Nat) :
    pathBudgetWait pathflow budget (max (pathBudgetBurst pathflow budget.rate) symbols)
      symbols = 0 := by
  have hburst : pathBudgetBurst pathflow budget.rate ≤ pathBurstMax :=
    Nat.min_le_right _ _
  have hroom : ¬ max (pathBudgetBurst pathflow budget.rate) symbols < symbols := by omega
  have hrequired := hfixed
    (max (pathBudgetBurst pathflow budget.rate) symbols - symbols) (by omega)
  simp only [pathBudgetWait, hroom, if_false]
  exact if_pos (Int.le_trans hdebt hrequired)

/-- On a drained path only the queue's capacity blocks. -/
theorem pathBlocked_of_drained {env : ConnEnv} (hdrained : env.Drained)
    (hfixed : ∀ n ≤ pathBurstMax, 0 ≤ env.pathflow.ofNat n) (hpath : path ∈ env.paths)
    (symbols : Nat) :
    pathBlocked env.pathflow path symbols =
      decide (pathDatagramQueueCapacity < symbols) := by
  have hqueue := hdrained.queues_empty path hpath
  have hwait := pathBudgetWait_of_repaid hfixed (hdrained.debt_repaid path hpath) symbols
  by_cases hzero : symbols = 0
  · simp [pathBlocked, hzero]
  · simp [pathBlocked, hzero, hwait, PathEnv.available, hqueue]

theorem length_scheduleFor {env : ConnEnv}
    (hschedule : env.scheduleFor profile priority symbolSize dataSymbols active cursor =
      (some schedule, next)) : schedule.paths.length = active.length := by
  simp only [scheduleFor, Prod.mk.injEq, Option.map_eq_some_iff] at hschedule
  obtain ⟨⟨built, hbuilt, rfl⟩, -⟩ := hschedule
  have hlength := Schedule.length_build (Prod.ext hbuilt rfl)
  simpa using hlength

theorem findIdx?_zip_right (left : List α) (right : List β)
    (hlength : right.length = left.length) (p : α × β → Bool) (q : β → Bool)
    (hagree : ∀ a ∈ left, ∀ b, p (a, b) = q b) :
    (left.zip right).findIdx? p = right.findIdx? q := by
  induction left generalizing right with
  | nil => simp_all
  | cons a left ih =>
      cases right with
      | nil => simp at hlength
      | cons b right =>
          have htail := ih right (by simpa using hlength)
            fun other hother => hagree other (List.mem_cons_of_mem _ hother)
          simp [List.findIdx?_cons, hagree a List.mem_cons_self b, htail]

/-- One round of replanning on empty queues. -/
theorem planSymbols_succ {env : ConnEnv} (hdrained : env.Drained)
    (hfixed : ∀ n ≤ pathBurstMax, 0 ≤ env.pathflow.ofNat n)
    (hactive : ∀ path ∈ active, path ∈ env.paths) (rounds : Nat) :
    env.planSymbols profile priority symbolSize dataSymbols (rounds + 1) active cursor =
      match env.scheduleFor profile priority symbolSize dataSymbols active cursor with
      | (none, next) => (.unschedulable, next)
      | (some schedule, next) =>
          match schedule.paths.findIdx?
              (fun path => pathDatagramQueueCapacity < path.x) with
          | none => (.planned active schedule, next)
          | some index =>
              env.planSymbols profile priority symbolSize dataSymbols rounds
                (active.eraseIdx index) next := by
  rcases hbuild : Schedule.build env.pathflow (active.map (·.state)) dataSymbols symbolSize
    profile.usesFec priority cursor with ⟨built, next⟩
  cases built with
  | none => simp only [planSymbols, scheduleFor, hbuild, Option.map_none]
  | some built =>
      have hlength := Schedule.length_build hbuild
      simp only [planSymbols, scheduleFor, hbuild, Option.map_some]
      have hzip := findIdx?_zip_right active
        (built.transmitted profile.fecRateless dataSymbols).paths (by simpa using hlength)
        (fun entry => pathBlocked env.pathflow entry.1 entry.2.x)
        (fun path => decide (pathDatagramQueueCapacity < path.x))
        fun path hpath plan => pathBlocked_of_drained hdrained hfixed (hactive path hpath)
          plan.x
      rw [hzip] <;> rfl

theorem settles_cons_iff {env : ConnEnv}
    (hschedule : env.scheduleFor profile priority symbolSize dataSymbols active cursor =
      (some schedule, next))
    (hfirst : schedule.paths.findIdx?
      (fun path => pathDatagramQueueCapacity < path.x) = some index) :
    env.Settles profile priority symbolSize dataSymbols active cursor outcome ↔
      env.Settles profile priority symbolSize dataSymbols (active.eraseIdx index) next
        outcome := by
  constructor
  · rintro ⟨rest, last, final, hreplanned, hrest, hlast, hfits⟩
    cases hreplanned with
    | refl =>
        rw [hschedule] at hlast
        obtain ⟨rfl, -⟩ := Prod.mk.inj hlast
        obtain ⟨hindex, hover, -⟩ := List.findIdx?_eq_some_iff_getElem.mp hfirst
        have hle := hfits schedule rfl _ (List.getElem_mem hindex)
        simp only [decide_eq_true_eq] at hover
        omega
    | drop hother hfound hreplanned =>
        rw [hschedule] at hother
        obtain ⟨hsame, rfl⟩ := Prod.mk.inj hother
        obtain rfl := Option.some.inj hsame
        rw [hfirst] at hfound
        obtain rfl := Option.some.inj hfound
        exact ⟨rest, last, final, hreplanned, hrest, hlast, hfits⟩
  · rintro ⟨rest, last, final, hreplanned, hrest, hlast, hfits⟩
    exact ⟨rest, last, final, .drop hschedule hfirst hreplanned, hrest, hlast, hfits⟩

/-- Replanning without a path that can take its share. -/
theorem settles_stop_iff {env : ConnEnv} (hactive : active ≠ [])
    (hschedule : env.scheduleFor profile priority symbolSize dataSymbols active cursor =
      (found, next))
    (hfits : ∀ schedule ∈ found, schedule.paths.findIdx?
      (fun path => pathDatagramQueueCapacity < path.x) = none) :
    env.Settles profile priority symbolSize dataSymbols active cursor outcome ↔
      outcome = found := by
  constructor
  · rintro ⟨rest, last, final, hreplanned, -, hlast, -⟩
    cases hreplanned with
    | refl =>
        rw [hschedule] at hlast
        exact (Prod.mk.inj hlast).1.symm
    | drop hother hfound _ =>
        rw [hschedule] at hother
        obtain ⟨rfl, -⟩ := Prod.mk.inj hother
        rw [hfits _ rfl] at hfound
        simp at hfound
  · rintro rfl
    refine ⟨active, cursor, next, .refl, hactive, hschedule, ?_⟩
    intro schedule hsome path hpath
    have hnone := List.findIdx?_eq_none_iff.mp (hfits schedule hsome) path hpath
    simpa using hnone

/-- The plan of a drained connection settles exactly where replanning does. -/
theorem planSymbols_settles {env : ConnEnv} (hdrained : env.Drained)
    (hfixed : ∀ n ≤ pathBurstMax, 0 ≤ env.pathflow.ofNat n) (profile : TrackProfile)
    (priority : UInt8) (symbolSize dataSymbols rounds : Nat)
    (hactive : ∀ path ∈ active, path ∈ env.paths) (hrounds : active.length = rounds)
    (cursor : Nat) :
    match (env.planSymbols profile priority symbolSize dataSymbols rounds active
        cursor).1 with
    | .blocked => ∀ outcome,
        ¬ env.Settles profile priority symbolSize dataSymbols active cursor outcome
    | .unschedulable => ∀ outcome,
        env.Settles profile priority symbolSize dataSymbols active cursor outcome ↔
          outcome = none
    | .planned paths schedule =>
        (∀ path ∈ paths, path ∈ env.paths) ∧ schedule.paths.length = paths.length ∧
          ∀ outcome,
            env.Settles profile priority symbolSize dataSymbols active cursor outcome ↔
              outcome = some schedule := by
  induction rounds generalizing active cursor with
  | zero =>
      obtain rfl := List.length_eq_zero_iff.mp hrounds
      rintro outcome ⟨rest, last, next, hreplanned, hrest, -⟩
      cases hreplanned with
      | refl => exact hrest rfl
      | drop hschedule _ _ =>
          simp [scheduleFor, Schedule.build] at hschedule
  | succ rounds ih =>
      have hne : active ≠ [] := List.ne_nil_of_length_pos (by omega)
      rw [planSymbols_succ hdrained hfixed hactive]
      rcases hschedule : env.scheduleFor profile priority symbolSize dataSymbols active
        cursor with ⟨found, next⟩
      cases found with
      | none =>
          intro outcome
          exact settles_stop_iff hne hschedule (by simp)
      | some schedule =>
          cases hfirst : schedule.paths.findIdx?
            (fun path => pathDatagramQueueCapacity < path.x) with
          | none =>
              simp only [hfirst]
              refine ⟨hactive, length_scheduleFor hschedule, fun outcome => ?_⟩
              exact settles_stop_iff hne hschedule (by simpa using hfirst)
          | some index =>
              simp only [hfirst]
              obtain ⟨hindex, -⟩ := List.findIdx?_eq_some_iff_getElem.mp hfirst
              rw [length_scheduleFor hschedule] at hindex
              have hfewer : ∀ path ∈ active.eraseIdx index, path ∈ env.paths :=
                fun path hpath => hactive path (List.mem_of_mem_eraseIdx hpath)
              have hnext := ih hfewer
                (by rw [List.length_eraseIdx_of_lt hindex]; omega) next
              simp only [settles_cons_iff hschedule hfirst]
              exact hnext

end ConnEnv

/-! ### One recipient -/

theorem pathSelectPhysical_isSome (paths : List PathPlan) (symbol : Nat)
    (hsymbol : symbol < (paths.map (·.x)).sum) :
    ∃ index < paths.length, pathSelectPhysical paths symbol = some index := by
  induction paths generalizing symbol with
  | nil => simp at hsymbol
  | cons path rest ih =>
      simp only [pathSelectPhysical]
      by_cases hhere : symbol < path.x
      · exact ⟨0, by simp, by simp [hhere]⟩
      · simp only [List.map_cons, List.sum_cons] at hsymbol
        obtain ⟨index, hindex, hselect⟩ := ih (symbol - path.x) (by omega)
        exact ⟨index + 1, by simpa using hindex, by simp [hhere, hselect]⟩

theorem queuesSymbols_of_queued (symbols : List Nat) {queued : List (Sent Datagram)}
    (hqueued : queued ≠ []) :
    (enqueueSymbols env active schedule packet symbols queued).2.queuesSymbols := by
  induction symbols generalizing queued with
  | nil => exact Or.inl rfl
  | cons symbol rest ih =>
      have hempty : queued.isEmpty = false := by simpa using hqueued
      simp only [enqueueSymbols, hempty]
      split
      · exact Or.inr rfl
      split
      · exact Or.inr rfl
      split
      · exact Or.inr rfl
      split
      · exact Or.inr rfl
      · exact ih (by simp)

/-- An empty queue takes the first symbol of a complete plan. -/
theorem queuesSymbols_of_drained {env : ConnEnv} (hdrained : env.Drained)
    (hsound : env.Sound) (hactive : ∀ path ∈ active, path ∈ env.paths)
    (hlength : schedule.paths.length = active.length) (htotal : 0 < total)
    (hallocated : schedule.allocated = total) (packet : Nat → Nat → Sent Datagram) :
    (enqueueSymbols env active schedule packet (List.range total) []).2.queuesSymbols := by
  obtain ⟨rest, rfl⟩ : ∃ rest, total = rest + 1 := ⟨total - 1, by omega⟩
  obtain ⟨index, hindex, hselect⟩ := pathSelectPhysical_isSome schedule.paths 0
    (by rw [← Schedule.allocated, hallocated]; omega)
  rw [hlength] at hindex
  have hpath := hactive _ (List.getElem_mem hindex)
  have hmapped := hsound.mapped_le _ hpath
  have hqueue := hdrained.queues_empty _ hpath
  simp only [List.range_succ_eq_map, enqueueSymbols, hsound.packet_queued, hselect,
    Option.bind_some, List.getElem?_eq_getElem hindex, hqueue]
  rw [if_neg (by simp), if_neg (by omega), if_neg (by simp [pathDatagramQueueCapacity])]
  exact queuesSymbols_of_queued _ (by simp)

namespace Conn

/-- Where replanning for `c` settles. -/
def Settles (c : Conn) (env : ConnEnv) (object : MoqObject)
    (symbolSize dataSymbols : Nat) (outcome : Option Schedule) : Prop :=
  env.Settles (trackProfile object.trackId) object.priority symbolSize dataSymbols
    env.paths c.roundRobinPath outcome

/-- Some replanning round fits the queues, or cannot be scheduled at all. -/
def Fits (c : Conn) (env : ConnEnv) (object : MoqObject)
    (symbolSize dataSymbols : Nat) : Prop :=
  ∃ outcome, c.Settles env object symbolSize dataSymbols outcome

/-- Some replanning round fits the queues with a complete allocation within the
symbol limit, for a connection with an alias for the track. -/
def Serves (c : Conn) (env : ConnEnv) (object : MoqObject)
    (symbolSize dataSymbols : Nat) : Prop :=
  c.sendSubscriptions.contains object.trackId = true ∧
    ∃ schedule, c.Settles env object symbolSize dataSymbols (some schedule) ∧
      dataSymbols + schedule.paritySymbols ≤ fecMaxTotalSymbols ∧
      schedule.allocated = dataSymbols + schedule.paritySymbols

theorem symbolBlocks_of_sound {env : ConnEnv} (hsound : env.Sound) (profile : TrackProfile)
    (data : Bytes) (symbolSize dataSymbols paritySymbols : Nat) :
    ∃ blocks, symbolBlocks env.codec profile data symbolSize dataSymbols paritySymbols =
      some blocks := by
  simp only [symbolBlocks]
  split
  · exact ⟨_, rfl⟩
  · obtain ⟨parity, hparity⟩ := Option.isSome_iff_exists.mp (hsound.encodes
      (fecTypeFor profile.fecRateless (dataSymbols + paritySymbols))
      ((List.range dataSymbols).map (dataBlock data symbolSize)) paritySymbols symbolSize)
    rw [hparity]
    exact ⟨_, rfl⟩

/-- The results of a drained connection, by where replanning settles. -/
theorem publishDatagramToConn_drained {env : ConnEnv} (hdrained : env.Drained)
    (hsound : env.Sound) (c : Conn) (object : MoqObject) (symbolSize : Nat)
    (hdata : 0 < dataSymbols) :
    let result := (publishDatagramToConn env c object (trackProfile object.trackId)
      symbolSize dataSymbols).2.1
    (result = .backpressure ↔ ¬ c.Fits env object symbolSize dataSymbols) ∧
      (result.queuesSymbols ↔ c.Serves env object symbolSize dataSymbols) := by
  have hplan := env.planSymbols_settles hdrained hsound.ofNat_nonneg
    (trackProfile object.trackId) object.priority symbolSize dataSymbols env.paths.length
    (fun _ hpath => hpath) rfl c.roundRobinPath
  simp only [publishDatagramToConn, ConnEnv.activePaths_of_drained hdrained,
    hdrained.usable, if_false]
  rcases hplanned : env.planSymbols (trackProfile object.trackId) object.priority symbolSize
    dataSymbols env.paths.length env.paths c.roundRobinPath with ⟨plan, cursor⟩
  rw [hplanned] at hplan
  cases plan with
  | blocked =>
      have hunfit : ¬ c.Fits env object symbolSize dataSymbols := by
        rintro ⟨outcome, hsettles⟩
        exact hplan outcome hsettles
      refine ⟨by simp [hunfit], ?_⟩
      simp only [PublishResult.queuesSymbols, reduceCtorEq, or_self, false_iff]
      rintro ⟨-, schedule, hsettles, -⟩
      exact hunfit ⟨_, hsettles⟩
  | unschedulable =>
      have hfits : c.Fits env object symbolSize dataSymbols :=
        ⟨none, (hplan none).mpr rfl⟩
      refine ⟨by simp [hfits], ?_⟩
      simp only [PublishResult.queuesSymbols, reduceCtorEq, or_self, false_iff]
      rintro ⟨-, schedule, hsettles, -⟩
      have := (hplan (some schedule)).mp hsettles
      simp at this
  | planned paths schedule =>
      obtain ⟨hpaths, hlength, hsettles⟩ := hplan
      have hfits : c.Fits env object symbolSize dataSymbols :=
        ⟨some schedule, (hsettles _).mpr rfl⟩
      have hserves : c.Serves env object symbolSize dataSymbols ↔
          c.sendSubscriptions.contains object.trackId = true ∧
            dataSymbols + schedule.paritySymbols ≤ fecMaxTotalSymbols ∧
            schedule.allocated = dataSymbols + schedule.paritySymbols := by
        constructor
        · rintro ⟨hcontains, other, hother, hbounds⟩
          obtain rfl := Option.some.inj ((hsettles _).mp hother)
          exact ⟨hcontains, hbounds⟩
        · rintro ⟨hcontains, hbounds⟩
          exact ⟨hcontains, schedule, (hsettles _).mpr rfl, hbounds⟩
      simp only [hfits, not_true_eq_false, iff_false, hserves, hsound.allocates,
        SubscriptionTable.contains_iff_findAlias]
      by_cases hlimit : fecMaxTotalSymbols < dataSymbols + schedule.paritySymbols
      · simp [hlimit, PublishResult.queuesSymbols]
      by_cases hallocated : schedule.allocated = dataSymbols + schedule.paritySymbols
      · obtain ⟨blocks, hblocks⟩ := symbolBlocks_of_sound hsound
          (trackProfile object.trackId) object.data symbolSize dataSymbols
          schedule.paritySymbols
        simp only [hlimit, hallocated, hblocks]
        cases halias : c.sendSubscriptions.findAlias object.trackId with
        | none => simp [PublishResult.queuesSymbols]
        | some a =>
            have htotal : 0 < dataSymbols + schedule.paritySymbols := by omega
            have hqueues := queuesSymbols_of_drained hdrained hsound hpaths hlength htotal
              hallocated (fecPacket { c with roundRobinPath := cursor } object a symbolSize
                dataSymbols (dataSymbols + schedule.paritySymbols) blocks)
            simp only [Nat.not_lt] at hlimit
            refine ⟨?_, by simpa [hlimit] using hqueues⟩
            rcases hqueues with hresult | hresult <;> simp [hresult]
      · simp [hlimit, hallocated, PublishResult.queuesSymbols]

end Conn

namespace ConnEnv

theorem length_replanned {env : ConnEnv}
    (hreplanned : env.Replanned profile priority symbolSize dataSymbols active cursor rest
      last) : rest.length ≤ active.length := by
  induction hreplanned with
  | refl => exact le_refl _
  | drop _ _ _ ih => exact ih.trans (List.length_eraseIdx_le _ _)

def evenSchedule (env : ConnEnv) (dataSymbols : Nat) (paths : List PathEnv) :
    Schedule where
  paths := Schedule.roundRobin
    (paths.map fun path => Schedule.planPath env.pathflow path.state) dataSymbols

/-- Without FEC the plan settles exactly when the symbols fit the queues of all
paths together. -/
theorem settles_plain_iff {env : ConnEnv} (hplain : profile.usesFec = false)
    (hpaths : active ≠ []) (hmaximum : active.length ≤ transportMaxPaths)
    (hdata : 0 < dataSymbols) (hsymbol : 0 < symbolSize) :
    (∃ outcome,
        env.Settles profile priority symbolSize dataSymbols active cursor outcome) ↔
      dataSymbols ≤ pathDatagramQueueCapacity * active.length := by
  have hrateless : profile.fecRateless = false := by
    simp only [TrackProfile.usesFec, Bool.or_eq_false_iff] at hplain
    exact hplain.2
  have hschedule : ∀ (paths : List PathEnv) (cursor : Nat), paths ≠ [] →
      paths.length ≤ transportMaxPaths →
      env.scheduleFor profile priority symbolSize dataSymbols paths cursor =
        (some (env.evenSchedule dataSymbols paths), cursor) := by
    intro paths cursor hne hlength
    have hpositive : 0 < paths.length := List.length_pos_iff.mpr hne
    have hguard : ¬ ((paths.map (·.state)).length = 0 ∨
        transportMaxPaths < (paths.map (·.state)).length ∨ dataSymbols = 0 ∨
        symbolSize = 0) := by
      rw [List.length_map]
      omega
    simp only [scheduleFor, Schedule.build, hguard, if_false, hplain, Bool.not_false,
      if_true, Option.map_some, Schedule.transmitted, hrateless, Bool.false_eq_true,
      List.map_map]
    rfl
  have hfits : ∀ paths : List PathEnv, paths ≠ [] →
      (FitsQueues (env.evenSchedule dataSymbols paths) ↔
        dataSymbols ≤ pathDatagramQueueCapacity * paths.length) := by
    intro paths hne
    have hblank : ∀ plan ∈ paths.map fun path => Schedule.planPath env.pathflow path.state,
        plan.x = 0 := by
      simp [Schedule.planPath]
    have hround := Schedule.roundRobin_le_iff _ hblank (by simpa using hne) dataSymbols
      pathDatagramQueueCapacity
    rwa [List.length_map] at hround
  constructor
  · rintro ⟨outcome, rest, last, next, hreplanned, hrest, hlast, hqueues⟩
    have hshorter := length_replanned hreplanned
    rw [hschedule rest last hrest (hshorter.trans hmaximum)] at hlast
    obtain ⟨rfl, -⟩ := Prod.mk.inj hlast
    have hbound := (hfits rest hrest).mp (hqueues _ rfl)
    exact hbound.trans (Nat.mul_le_mul_left _ hshorter)
  · intro hbound
    refine ⟨_, active, cursor, cursor, .refl, hpaths,
      hschedule active cursor hpaths hmaximum, ?_⟩
    rintro schedule ⟨⟩
    exact (hfits active hpaths).mpr hbound

/-- A rateless object of at most one queue's symbols always settles, when the
load balancer places every source symbol once. -/
theorem settles_rateless {env : ConnEnv} (hrateless : profile.fecRateless = true)
    (hpaths : active ≠ []) (hsmall : dataSymbols ≤ pathDatagramQueueCapacity)
    (hbalanced : ∀ built next, Schedule.build env.pathflow (active.map (·.state))
      dataSymbols symbolSize profile.usesFec priority cursor = (some built, next) →
        built.sourceSymbols = dataSymbols) :
    ∃ outcome,
      env.Settles profile priority symbolSize dataSymbols active cursor outcome := by
  rcases hbuild : Schedule.build env.pathflow (active.map (·.state)) dataSymbols symbolSize
    profile.usesFec priority cursor with ⟨built, next⟩
  refine ⟨built.map fun schedule => schedule.transmitted profile.fecRateless dataSymbols,
    active, cursor, next, .refl, hpaths, by simp [scheduleFor, hbuild], ?_⟩
  intro schedule hschedule path hpath
  obtain ⟨found, rfl, rfl⟩ := Option.map_eq_some_iff.mp hschedule
  have hsource := hbalanced found next hbuild
  simp only [Schedule.transmitted, hrateless, if_true, Schedule.systematic, hsource,
    List.mem_map] at hpath
  obtain ⟨plan, hplan, rfl⟩ := hpath
  have hle : plan.m ≤ (found.paths.map (·.m)).sum :=
    List.le_sum_of_mem (List.mem_map_of_mem hplan)
  rw [Schedule.sourceSymbols] at hsource
  exact (hle.trans hsource.le).trans hsmall

end ConnEnv

/-! ### All recipients -/

namespace Transport

theorem publicationFecLimit_le {t : Transport} (hc : c ∈ t.conns)
    (heligible : t.recipientEligible c track = true) :
    t.publicationFecLimit track ≤ c.negotiatedLimits.maxFecObjectSize :=
  lowest_le_of_mem (fun c : Conn => c.negotiatedLimits.maxFecObjectSize) _ hc heligible

/-- Room in the sent cache, which rateless DATA objects alone need. -/
def HasRoomFor (t : Transport) (object : MoqObject) : Prop :=
  object.trackId.isRatelessData = true →
    t.sentCache.canStore object (!checkpointCacheIsProtected object.trackId t.conns false)
      (fun _ => false) = true

/-- Every connection the object is for is drained, and its libraries answer. -/
def Idle (t : Transport) (env : FlushEnv) (track : TrackId) : Prop :=
  ∀ c ∈ t.conns, t.recipientEligible c track = true →
    (env.conn c.id).Drained ∧ (env.conn c.id).Sound

/-- The outcome of one turn of the recipient loop. -/
theorem publishRecipient_outcome {t : Transport} {env : FlushEnv}
    (hc : c ∈ t.conns) (hlimit : object.size ≤ t.publicationFecLimit object.trackId)
    (hidle : t.Idle env object.trackId) (inFlush : Bool) (symbolSize : Nat)
    (hdata : 0 < dataSymbols) :
    let outcome := (t.publishRecipient env object symbolSize dataSymbols inFlush c).2
    outcome ≠ .tooLarge ∧
      (outcome.result? = some .backpressure ↔
        t.recipientEligible c object.trackId = true ∧
          (inFlush && c.fecGroupDelivered) = false ∧
          ¬ c.Fits (env.conn c.id) object symbolSize dataSymbols) ∧
      (outcome.delivers ∨ outcome.result? = some .partialDelivery ↔
        t.recipientEligible c object.trackId = true ∧
          ((inFlush && c.fecGroupDelivered) = true ∨
            c.Serves (env.conn c.id) object symbolSize dataSymbols)) := by
  by_cases heligible : t.recipientEligible c object.trackId = true
  · cases halready : inFlush && c.fecGroupDelivered with
    | true =>
        simp [publishRecipient, heligible, halready, RecipientOutcome.delivers,
          RecipientOutcome.result?]
    | false =>
        have hsmall := hlimit.trans (publicationFecLimit_le hc heligible)
        obtain ⟨hdrained, hsound⟩ := hidle c hc heligible
        obtain ⟨hblocked, hserves⟩ := Conn.publishDatagramToConn_drained hdrained
          hsound c object symbolSize hdata
        simp only [publishRecipient, heligible, halready, Nat.not_lt.mpr hsmall]
        rcases hresult : publishDatagramToConn (env.conn c.id) c object
          (trackProfile object.trackId) symbolSize dataSymbols with ⟨sender, result, sent⟩
        rw [hresult] at hblocked hserves
        cases result <;>
          simp_all [PublishResult.queuesSymbols, RecipientOutcome.delivers,
            RecipientOutcome.result?]
  · simp [publishRecipient, heligible, RecipientOutcome.delivers, RecipientOutcome.result?]

theorem Tally.result_backpressure_iff (tally : Tally) (stored : Bool)
    (hstored : tally.delivered = 0 → ¬ tally.partiallyQueued = true → stored = true) :
    tally.result stored = .backpressure ↔ tally.delivered = 0 ∧
      ¬ tally.partiallyQueued = true ∧ tally.eligible ≠ 0 ∧
        tally.failure = .backpressure := by
  simp only [Tally.result]
  by_cases hpartly : tally.partiallyQueued = true
  · cases stored <;> simp [hpartly]
    split <;> simp
  by_cases hdelivered : tally.delivered = 0
  · obtain rfl := hstored hdelivered hpartly
    by_cases heligible : tally.eligible = 0
    · simp [hpartly, hdelivered, heligible]
    · simp [hpartly, hdelivered, heligible]
  · cases stored
    · simp [hdelivered]
    · simp only [Bool.not_true, Bool.false_eq_true, if_false, hpartly, hdelivered]
      split <;> simp

theorem publishDatagrams_result {t : Transport} (env : FlushEnv)
    (hsize : object.size ≠ 0)
    (hlimit : object.size ≤ t.publicationFecLimit object.trackId)
    (hroom : t.HasRoomFor object) (inFlush : Bool) :
    ∃ stored,
      (t.publishDatagrams env object inFlush).2 =
        (t.recipientTally env object inFlush).result stored ∧
      ((t.recipientTally env object inFlush).delivered = 0 →
        ¬ (t.recipientTally env object inFlush).partiallyQueued = true → stored = true) := by
  have hadmitted : ¬ (object.size = 0 ∨
      t.publicationFecLimit object.trackId < object.size) := by omega
  have hcache : (object.trackId.isRatelessData && !t.sentCache.canStore object
      (!(object.trackId.isRatelessData &&
        checkpointCacheIsProtected object.trackId t.conns false)) (fun _ => false)) =
      false := by
    cases hcached : object.trackId.isRatelessData with
    | false => rfl
    | true => simpa [hcached] using hroom hcached
  refine ⟨(t.retainSent env object (t.recipientTally env object inFlush)
    (object.trackId.isRatelessData &&
      checkpointCacheIsProtected object.trackId t.conns false)).2, ?_, ?_⟩
  · simp only [publishDatagrams, hadmitted, hcache, if_false, Bool.false_eq_true]
  · intro hdelivered hpartly
    simp [retainSent, hdelivered, hpartly]

/-- With queues empty, backpressure means that an allocation of some recipient
exceeds a queue in every round and no recipient got a symbol. -/
theorem publishDatagrams_backpressure_iff {t : Transport} {env : FlushEnv}
    (hsize : object.size ≠ 0)
    (hlimit : object.size ≤ t.publicationFecLimit object.trackId)
    (hroom : t.HasRoomFor object) (hidle : t.Idle env object.trackId) (inFlush : Bool) :
    (t.publishDatagrams env object inFlush).2 = .backpressure ↔
      (∃ c ∈ t.conns, t.recipientEligible c object.trackId = true ∧
        (inFlush && c.fecGroupDelivered) = false ∧
        ¬ c.Fits (env.conn c.id) object (t.objectSymbolSize object)
          (t.objectDataSymbols object)) ∧
      ∀ c ∈ t.conns, ¬ (t.recipientEligible c object.trackId = true ∧
        ((inFlush && c.fecGroupDelivered) = true ∨
          c.Serves (env.conn c.id) object (t.objectSymbolSize object)
            (t.objectDataSymbols object))) := by
  have hdata : 0 < t.objectDataSymbols object := objectDataSymbols_pos hsize
  have houtcome := fun (c : Conn) (hc : c ∈ t.conns) => publishRecipient_outcome
    hc hlimit hidle inFlush (t.objectSymbolSize object) hdata
  obtain ⟨stored, hresult, hstored⟩ := publishDatagrams_result env hsize hlimit
    hroom inFlush
  have hturn : ∀ outcome, outcome ∈ (t.recipientTurns env object inFlush).map Prod.snd ↔
      ∃ c ∈ t.conns, (t.publishRecipient env object (t.objectSymbolSize object)
        (t.objectDataSymbols object) inFlush c).2 = outcome := by
    simp [recipientTurns]
  have hlarge : RecipientOutcome.tooLarge ∉
      (t.recipientTurns env object inFlush).map Prod.snd := by
    intro hlarge
    obtain ⟨c, hc, heq⟩ := (hturn _).mp hlarge
    exact (houtcome c hc).1 heq
  have hdelivered := tally_delivered ((t.recipientTurns env object inFlush).map Prod.snd)
    { maximumSentSymbols := t.objectDataSymbols object }
  have hpartly := tally_partial ((t.recipientTurns env object inFlush).map Prod.snd)
    { maximumSentSymbols := t.objectDataSymbols object }
  have hfailure := tally_failure _ hlarge { maximumSentSymbols := t.objectDataSymbols object }
  rw [hresult, Tally.result_backpressure_iff _ _ hstored, recipientTally, hdelivered,
    hpartly, hfailure]
  simp only [true_and, reduceCtorEq, false_or, Bool.false_eq_true]
  constructor
  · rintro ⟨hnone, hwhole, -, outcome, hmem, hblocked⟩
    obtain ⟨c, hc, rfl⟩ := (hturn _).mp hmem
    refine ⟨⟨c, hc, (houtcome c hc).2.1.mp hblocked⟩, fun other hother hserved => ?_⟩
    have hmem := (hturn _).mpr ⟨other, hother, rfl⟩
    rcases (houtcome other hother).2.2.mpr hserved with hdelivers | hpart
    · exact hnone _ hmem hdelivers
    · exact hwhole ⟨_, hmem, hpart⟩
  · rintro ⟨⟨c, hc, hblocked⟩, hunserved⟩
    have hblocked := (houtcome c hc).2.1.mpr hblocked
    have hmem := (hturn _).mpr ⟨c, hc, rfl⟩
    refine ⟨?_, ?_, ?_, _, hmem, hblocked⟩
    · intro outcome houtcomes hdelivers
      obtain ⟨other, hother, rfl⟩ := (hturn _).mp houtcomes
      exact hunserved other hother ((houtcome other hother).2.2.mp (Or.inl hdelivers))
    · rintro ⟨outcome, houtcomes, hpart⟩
      obtain ⟨other, hother, rfl⟩ := (hturn _).mp houtcomes
      exact hunserved other hother ((houtcome other hother).2.2.mp (Or.inr hpart))
    · have := eligible_of_backpressure _ { maximumSentSymbols := t.objectDataSymbols object }
        hmem hblocked
      omega

/-- A datagram publication to idle recipients is not refused for backpressure
exactly when some recipient can be served or every plan settles. -/
theorem publishDatagrams_retryable_iff {t : Transport} {env : FlushEnv}
    (hsize : object.size ≠ 0)
    (hlimit : object.size ≤ t.publicationFecLimit object.trackId)
    (hroom : t.HasRoomFor object) (hidle : t.Idle env object.trackId) (inFlush : Bool) :
    (t.publishDatagrams env object inFlush).2 ≠ .backpressure ↔
      (∃ c ∈ t.conns, t.recipientEligible c object.trackId = true ∧
        ((inFlush && c.fecGroupDelivered) = true ∨
          c.Serves (env.conn c.id) object (t.objectSymbolSize object)
            (t.objectDataSymbols object))) ∨
      ∀ c ∈ t.conns, t.recipientEligible c object.trackId = true →
        c.Fits (env.conn c.id) object (t.objectSymbolSize object)
          (t.objectDataSymbols object) := by
  rw [Ne, publishDatagrams_backpressure_iff hsize hlimit hroom hidle inFlush, not_and_or]
  constructor
  · rintro (hfit | hserved)
    · by_cases hdone : ∃ c ∈ t.conns, t.recipientEligible c object.trackId = true ∧
          (inFlush && c.fecGroupDelivered) = true
      · obtain ⟨c, hc, heligible, halready⟩ := hdone
        exact Or.inl ⟨c, hc, heligible, Or.inl halready⟩
      · refine Or.inr fun c hc heligible => ?_
        by_contra hunfit
        refine hfit ⟨c, hc, heligible, ?_, hunfit⟩
        by_contra halready
        exact hdone ⟨c, hc, heligible, by simpa using halready⟩
    · push Not at hserved
      exact Or.inl hserved
  · rintro (⟨c, hc, hserved⟩ | hfit)
    · exact Or.inr fun hunserved => hunserved c hc hserved
    · refine Or.inl ?_
      rintro ⟨c, hc, heligible, -, hunfit⟩
      exact hunfit (hfit c hc heligible)

theorem quietConn_drained : quietConn.Drained where
  usable := by simp [quietConn]
  queues_empty := by simp [quietConn, idlePath]
  debt_repaid := by simp [quietConn, idlePath]

theorem quietConn_sound : quietConn.Sound where
  ofNat_nonneg n _ := by
    show (0 : Int) ≤ 65536 * (n : Int)
    omega
  allocates := rfl
  encodes _ _ _ _ := rfl
  packet_queued _ := rfl
  mapped_le := by simp [quietConn, idlePath]

def captionTrack : TrackId where
  type := .text
  flags := 0
  name := [99]

def captionServer : Transport := server.run (join 0 defaultLimits 8 captionTrack)

def caption (size : Nat) : MoqObject where
  trackId := captionTrack
  groupId := 0
  objectId := 0
  data := List.replicate size 0

theorem captionServer_idle : captionServer.Idle quietFlush captionTrack :=
  fun _ _ _ => ⟨quietConn_drained, quietConn_sound⟩

theorem captionServer_hasRoom (size : Nat) : captionServer.HasRoomFor (caption size) := by
  intro hcached
  have hplain : captionTrack.isRatelessData = false := by decide
  exact absurd (hcached.symm.trans hplain) (by decide)

theorem captionServer_limit : captionServer.publicationFecLimit captionTrack = 1048576 := by
  decide

theorem captionServer_symbolSize : captionServer.datagramSymbolSize = 1200 := by
  decide

theorem retryable_iff_caption :
    (captionServer.publishDatagrams quietFlush (caption 3) false).2 ≠ .backpressure ↔
      (∃ c ∈ captionServer.conns,
        captionServer.recipientEligible c (caption 3).trackId = true ∧
          ((false && c.fecGroupDelivered) = true ∨
            c.Serves (quietFlush.conn c.id) (caption 3)
              (captionServer.objectSymbolSize (caption 3))
              (captionServer.objectDataSymbols (caption 3)))) ∨
        ∀ c ∈ captionServer.conns,
          captionServer.recipientEligible c (caption 3).trackId = true →
            c.Fits (quietFlush.conn c.id) (caption 3)
              (captionServer.objectSymbolSize (caption 3))
              (captionServer.objectDataSymbols (caption 3)) :=
  publishDatagrams_retryable_iff (by decide)
    (by rw [caption, captionServer_limit]; decide) (captionServer_hasRoom 3)
    captionServer_idle false

/-- 65 symbols never fit the 64 slots of a single idle path. -/
theorem oversized_caption_backpressure :
    (caption 76801).size ≤ captionServer.publicationFecLimit captionTrack ∧
      captionServer.HasRoomFor (caption 76801) ∧
      captionServer.Idle quietFlush captionTrack ∧
      (captionServer.publishDatagrams quietFlush (caption 76801) false).2 =
        .backpressure := by
  have hsize : (caption 76801).size = 76801 := List.length_replicate
  have hlimit : (caption 76801).size ≤ captionServer.publicationFecLimit captionTrack := by
    rw [hsize, captionServer_limit]
    decide
  refine ⟨hlimit, captionServer_hasRoom _, captionServer_idle, ?_⟩
  have hsymbol : captionServer.objectSymbolSize (caption 76801) = 1200 := by
    rw [objectSymbolSize, captionServer_symbolSize, hsize]
    decide
  have hdata : captionServer.objectDataSymbols (caption 76801) = 65 := by
    rw [objectDataSymbols, hsymbol, hsize]
  have hunfit : ∀ c : Conn, ¬ c.Fits quietConn (caption 76801)
      (captionServer.objectSymbolSize (caption 76801))
      (captionServer.objectDataSymbols (caption 76801)) := by
    intro c hfits
    rw [hsymbol, hdata] at hfits
    have hbound := (ConnEnv.settles_plain_iff (by decide) (by simp [quietConn])
      (by decide) (by decide) (by decide)).mp hfits
    revert hbound
    decide
  rw [publishDatagrams_backpressure_iff (by rw [hsize]; decide) hlimit
    (captionServer_hasRoom _) captionServer_idle]
  constructor
  · obtain ⟨c, hconns⟩ : ∃ c, captionServer.conns = [c] := ⟨_, rfl⟩
    refine ⟨c, by simp [hconns], ?_, rfl, hunfit c⟩
    have heligible : captionServer.conns.all
        (captionServer.recipientEligible · captionTrack) = true := by decide
    rw [hconns, List.all_cons, List.all_nil, Bool.and_true] at heligible
    exact heligible
  · rintro c - ⟨-, hserved⟩
    rcases hserved with hfalse | ⟨-, schedule, hsettles, -⟩
    · simp at hfalse
    · exact hunfit c ⟨_, hsettles⟩

end Transport

end Qlinq
