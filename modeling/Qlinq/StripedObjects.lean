import Qlinq.ScheduledSymbols

namespace Qlinq

/-! The symbols of an object are queued as they were planned, or none of them is. -/

variable {paths : List PathPlan} {pathflow : Pathflow} {schedule : Schedule}

namespace DatagramPublication

open ConnEnv (pathBlocked)

variable {p : DatagramPublication} {active left : List Lane} {rounds cursor next : Nat}

/-! ### Planning -/

/-- A plan whose paths all admit what it allocates to them. -/
structure Feasible (p : DatagramPublication) (lanes active : List Lane) (schedule : Schedule) :
    Prop where
  sublist : active.Sublist lanes
  length_eq : schedule.paths.length = active.length
  allocated : schedule.allocated = p.dataSymbols + schedule.paritySymbols
  parity : p.profile.usesFec = true → p.profile.fecRateless = false → 1 < p.dataSymbols →
    0 < schedule.paritySymbols
  admits : ∀ entry ∈ active.zip schedule.paths,
    pathBlocked p.pathflow entry.1.toPathEnv entry.2.x = false

theorem Feasible.of_sublist (hfeasible : p.Feasible left active schedule)
    (hsublist : left.Sublist every) : p.Feasible every active schedule :=
  { hfeasible with sublist := hfeasible.sublist.trans hsublist }

theorem length_eraseIdx_lt {index : Nat} (hindex : index < active.length) :
    (active.eraseIdx index).length < active.length := by
  rw [List.length_eraseIdx_of_lt hindex]
  omega

/-- The path that is dropped is one of the active ones. -/
theorem blocked_lt {blocked : Lane × PathPlan → Bool}
    (hfind : (active.zip paths).findIdx? blocked = some index) : index < active.length := by
  have hindex := (List.findIdx?_eq_some_iff_getElem.mp hfind).1
  rw [List.length_zip] at hindex
  omega

/-- Planning ends in a feasible plan or without a path. -/
theorem plan_cases (p : DatagramPublication) (hactive : active ≠ [])
    (hfew : active.length ≤ transportMaxPaths) (rounds cursor : Nat) :
    (p.plan rounds active cursor).1 = .blocked ∨
      ∃ final schedule, (p.plan rounds active cursor).1 = .planned final schedule ∧
        p.Feasible active final schedule := by
  induction rounds generalizing active cursor with
  | zero => exact .inl rfl
  | succ rounds ih =>
      have hstates : active.map (·.state) ≠ [] := by simpa using hactive
      obtain ⟨built, next, hbuild, hallocates⟩ := Schedule.build_allocates p.lawful hstates
        (by simpa using hfew) p.dataSymbols_pos p.symbolSize_pos p.profile.usesFec p.priority cursor
      obtain ⟨hallocated, hparity⟩ :=
        Schedule.transmitted_allocates p.dataSymbols_pos hallocates
      have hlength : (built.transmitted p.profile.fecRateless p.dataSymbols).paths.length =
          active.length := by
        simpa using Schedule.length_build hbuild
      simp only [plan, hbuild]
      split
      · next hfind =>
          refine .inr ⟨_, _, rfl, List.Sublist.refl _, hlength, hallocated, hparity, ?_⟩
          intro entry hentry
          exact List.findIdx?_eq_none_iff.mp hfind entry hentry
      · next index hfind =>
          by_cases hleft : active.eraseIdx index = []
          · rw [if_pos hleft]
            exact .inl rfl
          · rw [if_neg hleft]
            have hshorter := length_eraseIdx_lt (blocked_lt hfind)
            refine (ih hleft (by omega) next).imp_right ?_
            rintro ⟨final, schedule, hplanned, hfeasible⟩
            exact ⟨final, schedule, hplanned, hfeasible.of_sublist (List.eraseIdx_sublist _ _)⟩

/-- A round for each path is enough. -/
theorem plan_rounds (p : DatagramPublication) (hrounds : active.length ≤ rounds)
    (hactive : active ≠ []) (cursor : Nat) :
    p.plan rounds active cursor = p.plan active.length active cursor := by
  suffices hsame : ∀ n m (active : List Lane) cursor, active ≠ [] → active.length ≤ n →
      active.length ≤ m → p.plan n active cursor = p.plan m active cursor from
    hsame _ _ active cursor hactive hrounds (le_refl _)
  intro n
  induction n with
  | zero =>
      intro m active cursor hactive hn
      exact absurd (List.length_eq_zero_iff.mp (Nat.le_zero.mp hn)) hactive
  | succ n ih =>
      intro m active cursor hactive hn hm
      obtain ⟨m, rfl⟩ := Nat.exists_eq_succ_of_ne_zero
        (n := m) (by have := List.length_pos_iff.mpr hactive; omega)
      simp only [plan]
      split
      · rfl
      split
      · rfl
      · next index hfind =>
          have hshorter := length_eraseIdx_lt (blocked_lt hfind)
          split
          · rfl
          · next hleft => exact ih m _ _ hleft (by omega) (by omega)

end DatagramPublication

/-! ### Queueing -/

namespace Striped

variable {active : List Lane} {s : Striped}

/-- Symbols that find room on distinct QUIC paths are all queued. -/
theorem stripe_all (one : Fixed) (symbols : List Nat) (hdistinct : (active.map (·.mapped)).Nodup)
    (hmapped : ∀ lane ∈ active, lane.mapped ≤ 255)
    (hsymbols : ∀ symbol ∈ symbols, ∃ index lane,
      pathSelectPhysical schedule.paths symbol = some index ∧ active[index]? = some lane)
    (hroom : ∀ index lane, active[index]? = some lane → s.occupancy lane.mapped +
      symbols.countP (pathSelectPhysical schedule.paths · = some index) ≤
        pathDatagramQueueCapacity) :
    ∃ striped, stripe one active schedule symbols s = (striped, .delivered) ∧
      striped.placed = s.placed ++ symbols.map (fun symbol =>
        ((pathSelectPhysical schedule.paths symbol).getD 0, symbol)) ∧
      ∀ index lane, active[index]? = some lane → striped.occupancy lane.mapped =
        s.occupancy lane.mapped +
          symbols.countP (pathSelectPhysical schedule.paths · = some index) := by
  induction symbols generalizing s with
  | nil => exact ⟨s, rfl, (List.append_nil _).symm, fun _ _ _ => rfl⟩
  | cons symbol rest ih =>
      obtain ⟨⟨chosen, path, hselect, hpath⟩, hrest⟩ := List.forall_mem_cons.mp hsymbols
      have hpathRoom := hroom chosen path hpath
      rw [List.countP_cons_of_pos (by simpa using hselect)] at hpathRoom
      have hoccupied : ∀ index lane, active[index]? = some lane →
          (s.place one chosen symbol path).occupancy lane.mapped =
            s.occupancy lane.mapped + if index = chosen then 1 else 0 := by
        intro index lane hlane
        by_cases hsame : index = chosen
        · subst hsame
          obtain rfl := Option.some.inj (hpath.symm.trans hlane)
          rw [if_pos rfl]
          exact Function.update_self ..
        · have hother : lane.mapped ≠ path.mapped := by
            intro hequal
            have hinside : index < (active.map (·.mapped)).length := by
              rw [List.length_map]
              exact (List.getElem?_eq_some_iff.mp hlane).1
            refine hsame ((List.getElem?_inj hinside hdistinct).mp ?_)
            rw [List.getElem?_map, List.getElem?_map, hlane, hpath, Option.map_some,
              Option.map_some, hequal]
          rw [if_neg hsame]
          exact Function.update_of_ne hother _ _
      have hcount : ∀ index, (symbol :: rest).countP
          (pathSelectPhysical schedule.paths · = some index) =
            (if index = chosen then 1 else 0) +
              rest.countP (pathSelectPhysical schedule.paths · = some index) := by
        intro index
        by_cases hsame : index = chosen
        · rw [if_pos hsame, List.countP_cons_of_pos (by simpa [hsame] using hselect),
            Nat.add_comm]
        · rw [if_neg hsame, List.countP_cons_of_neg (by simp [hselect, Ne.symm hsame]),
            Nat.zero_add]
      obtain ⟨striped, hstriped, hplaced, hoccupancy⟩ :=
        ih (s := s.place one chosen symbol path) hrest fun index lane hlane => by
          rw [hoccupied index lane hlane, Nat.add_assoc, ← hcount]
          exact hroom index lane hlane
      refine ⟨striped, ?_, ?_, fun index lane hlane => ?_⟩
      · have hsmall := hmapped path (List.mem_of_getElem? hpath)
        rw [stripe]
        simp only [hselect, hpath]
        rw [if_neg (by omega), if_neg (by omega), hstriped]
      · rw [hplaced]
        simp [place, hselect]
      · rw [hoccupancy index lane hlane, hoccupied index lane hlane, hcount, Nat.add_assoc]

end Striped

namespace DatagramPublication

open ConnEnv (pathBlocked)

variable {p : DatagramPublication} {t : Topology} {active : List Lane}

/-! ### One publication -/

theorem length_resolved (t : Topology) : t.resolved.length ≤ transportMaxPaths := by
  refine (List.length_filterMap_le _ _).trans ?_
  rw [List.length_zipIdx]
  exact t.links_le

theorem mapped_lt (hresolved : (physical, mapped) ∈ t.resolved) :
    mapped < transportMaxQuicPaths := by
  obtain ⟨⟨link, index⟩, -, hmapped⟩ := List.mem_filterMap.mp hresolved
  simp only at hmapped
  split at hmapped
  · cases hmapped
  · next path hpath =>
      split at hmapped
      · obtain ⟨-, rfl⟩ := Prod.mk.inj (Option.some.inj hmapped)
        exact (List.findIdx?_eq_some_iff_getElem.mp hpath).1.trans_le t.quicPaths_le
      · cases hmapped

theorem mem_lanes {path : Lane} (hpath : path ∈ p.lanes t) :
    ∃ physical mapped, (physical, mapped) ∈ t.resolved ∧ path = p.lane physical mapped := by
  obtain ⟨⟨physical, mapped⟩, hresolved, rfl⟩ := List.mem_map.mp (List.mem_of_mem_filter hpath)
  exact ⟨physical, mapped, hresolved, rfl⟩

theorem mapped_lanes (p : DatagramPublication) (t : Topology) :
    ((p.lanes t).map (·.mapped)).Sublist (t.resolved.map Prod.snd) := by
  have hall : (t.resolved.map fun link => p.lane link.1 link.2).map (·.mapped) =
      t.resolved.map Prod.snd := by
    rw [List.map_map]
    rfl
  rw [← hall]
  exact List.filter_sublist.map _

theorem length_lanes (p : DatagramPublication) (t : Topology) :
    (p.lanes t).length ≤ transportMaxPaths := by
  refine (List.length_filter_le _ _).trans ?_
  rw [List.length_map]
  exact length_resolved t

/-- Every path of the plan got what the plan allocates to it. -/
structure Complete (p : DatagramPublication) (active : List Lane) (schedule : Schedule)
    (striped : Striped) : Prop where
  length_eq : schedule.paths.length = active.length
  queued : ∀ (index : Nat) (lane : Lane) (plan : PathPlan), active[index]? = some lane → schedule.paths[index]? = some plan →
    striped.placed.countP (·.1 = index) = plan.x ∧
      plan.x ≤ pathDatagramQueueCapacity - p.occupancy lane.mapped ∧
      striped.occupancy lane.mapped = p.occupancy lane.mapped + plan.x
  allocated : schedule.allocated = p.dataSymbols + schedule.paritySymbols
  symbols : striped.placed.map Prod.snd = List.range (p.dataSymbols + schedule.paritySymbols)
  parity : p.profile.usesFec = true → p.profile.fecRateless = false → 1 < p.dataSymbols →
    0 < schedule.paritySymbols

/-- The object is delivered as it was planned, or nothing is queued and no link is charged;
planning ends within a round for each path. -/
structure AllOrNothing (p : DatagramPublication) (t : Topology) : Prop where
  ends : p.lanes t ≠ [] → ∀ rounds, (p.lanes t).length ≤ rounds →
    p.plan rounds (p.lanes t) p.cursor = p.plan (p.lanes t).length (p.lanes t) p.cursor
  nothing : (p.publish t).result ≠ .delivered → (p.publish t).striped = p.unstriped
  everything : (p.publish t).result = .delivered → ∃ active schedule,
    (p.publish t).plan = some (active, schedule) ∧ active.Sublist (p.lanes t) ∧
      p.Complete active schedule (p.publish t).striped
  results : (p.publish t).result = .delivered ∨ (p.publish t).result = .backpressure ∨
    ((p.publish t).result = .noRecipients ∧ p.addressed = false) ∨
    (p.publish t).result = .invalid ∧ ∃ active schedule,
      (p.publish t).plan = some (active, schedule) ∧
        fecMaxTotalSymbols < p.dataSymbols + schedule.paritySymbols

/-- A path with symbols admits them. -/
theorem le_of_admitted {path : PathEnv} {symbols : Nat}
    (hadmitted : pathBlocked pathflow path symbols = false) :
    symbols ≤ pathDatagramQueueCapacity - path.queued := by
  simp only [pathBlocked, Bool.and_eq_false_iff, Bool.or_eq_false_iff, bne_eq_false_iff_eq,
    PathEnv.available] at hadmitted
  rcases hadmitted with rfl | ⟨hroom, -⟩
  · exact Nat.zero_le _
  · exact Nat.not_lt.mp (of_decide_eq_false hroom)

/-- On distinct QUIC paths a feasible plan is carried out. -/
theorem stripe_feasible (hdistinct : (t.resolved.map Prod.snd).Nodup)
    (hfeasible : p.Feasible (p.lanes t) active schedule) :
    ∃ striped, Striped.stripe p.pathflow.one active schedule
        (List.range (p.dataSymbols + schedule.paritySymbols)) p.unstriped =
      (striped, .delivered) ∧ p.Complete active schedule striped := by
  have hsum : (schedule.paths.map (·.x)).sum = p.dataSymbols + schedule.paritySymbols :=
    hfeasible.allocated
  have hlane : ∀ (index : Nat) (lane : Lane), active[index]? = some lane → ∃ plan : PathPlan,
      schedule.paths[index]? = some plan ∧
        plan.x ≤ pathDatagramQueueCapacity - p.occupancy lane.mapped := by
    intro index lane hlane
    have hinside := (List.getElem?_eq_some_iff.mp hlane).1
    rw [← hfeasible.length_eq] at hinside
    refine ⟨_, List.getElem?_eq_getElem hinside, ?_⟩
    have hadmits := hfeasible.admits (lane, schedule.paths[index]) (List.mem_of_getElem? (i := index)
      (by simp [List.getElem?_zip_eq_some, hlane]))
    obtain ⟨physical, mapped, -, rfl⟩ :=
      mem_lanes (hfeasible.sublist.subset (List.mem_of_getElem? hlane))
    exact le_of_admitted hadmits
  have hqueued : ∀ lane ∈ active, p.occupancy lane.mapped < pathDatagramQueueCapacity := by
    intro lane hmem
    have hkept := (List.mem_filter.mp (hfeasible.sublist.subset hmem)).2
    obtain ⟨physical, mapped, -, rfl⟩ := mem_lanes (hfeasible.sublist.subset hmem)
    exact of_decide_eq_true hkept
  have hcount : ∀ (index : Nat) (plan : PathPlan), schedule.paths[index]? = some plan →
      (List.range (p.dataSymbols + schedule.paritySymbols)).countP
        (pathSelectPhysical schedule.paths · = some index) = plan.x := by
    intro index plan hplan
    rw [← hsum, countP_pathSelectPhysical, hplan]
    rfl
  obtain ⟨striped, hstriped, hplaced, hoccupancy⟩ := Striped.stripe_all (s := p.unstriped)
    p.pathflow.one (List.range (p.dataSymbols + schedule.paritySymbols))
    (hdistinct.sublist ((hfeasible.sublist.map _).trans (mapped_lanes p t)))
    (fun lane hmem => by
      obtain ⟨physical, mapped, hresolved, rfl⟩ := mem_lanes (hfeasible.sublist.subset hmem)
      exact (Nat.le_of_lt (mapped_lt hresolved)).trans (by decide))
    (fun symbol hsymbol => by
      rw [← hsum] at hsymbol
      obtain ⟨index, hindex, hselect⟩ :=
        pathSelectPhysical_isSome schedule.paths symbol (List.mem_range.mp hsymbol)
      rw [hfeasible.length_eq] at hindex
      exact ⟨index, _, hselect, List.getElem?_eq_getElem hindex⟩)
    (fun index lane hmem => by
      obtain ⟨plan, hplan, hroom⟩ := hlane index lane hmem
      have := hqueued lane (List.mem_of_getElem? hmem)
      rw [hcount index plan hplan]
      change p.occupancy lane.mapped + plan.x ≤ _
      omega)
  refine ⟨striped, hstriped, hfeasible.length_eq, fun index lane plan hmem hplan => ?_,
    hfeasible.allocated, ?_, hfeasible.parity⟩
  · obtain ⟨found, hfound, hroom⟩ := hlane index lane hmem
    obtain rfl := Option.some.inj (hplan.symm.trans hfound)
    refine ⟨?_, hroom, by rw [hoccupancy index lane hmem, hcount index plan hplan]; rfl⟩
    rw [hplaced, ← hcount index plan hplan]
    change List.countP _ ([] ++ _) = _
    rw [List.nil_append, List.countP_map]
    refine List.countP_congr fun symbol hsymbol => ?_
    rw [← hsum] at hsymbol
    obtain ⟨chosen, -, hselect⟩ :=
      pathSelectPhysical_isSome schedule.paths symbol (List.mem_range.mp hsymbol)
    simp [hselect]
  · rw [hplaced]
    change List.map _ ([] ++ _) = _
    rw [List.nil_append, List.map_map]
    exact List.map_id _

theorem isSome_symbolBlocks (p : DatagramPublication) (paritySymbols : Nat) :
    (symbolBlocks p.codec p.profile p.data p.symbolSize p.dataSymbols paritySymbols).isSome := by
  simp only [symbolBlocks]
  split
  · rfl
  · rw [Option.isSome_map]
    exact p.encodes _ _ _ _

theorem publish_planned (hlanes : p.lanes t ≠ [])
    (hplanned : (p.plan (p.lanes t).length (p.lanes t) p.cursor).1 = .planned active schedule)
    (hallocated : schedule.allocated = p.dataSymbols + schedule.paritySymbols) :
    p.publish t =
      if fecMaxTotalSymbols < p.dataSymbols + schedule.paritySymbols then
        ⟨some (active, schedule), p.unstriped, .invalid⟩
      else if p.addressed then
        let (striped, result) := Striped.stripe p.pathflow.one active schedule
          (List.range (p.dataSymbols + schedule.paritySymbols)) p.unstriped
        ⟨some (active, schedule), striped, result⟩
      else
        ⟨some (active, schedule), p.unstriped, .noRecipients⟩ := by
  have hblocks := Option.isNone_eq_false_iff.mpr (isSome_symbolBlocks p schedule.paritySymbols)
  simp only [publish, if_neg hlanes, hplanned, hblocks]
  cases p.addressed <;> simp [hallocated]

theorem allOrNothing_of_distinct (p : DatagramPublication)
    (hdistinct : (t.resolved.map Prod.snd).Nodup) : p.AllOrNothing t := by
  have hnowhere : ∀ (plan : Option (List Lane × Schedule)) (result : PublishResult),
      result ≠ .delivered → p.publish t = ⟨plan, p.unstriped, result⟩ →
      (p.publish t).result = .backpressure ∨
        ((p.publish t).result = .noRecipients ∧ p.addressed = false) ∨
        ((p.publish t).result = .invalid ∧ ∃ active schedule,
          (p.publish t).plan = some (active, schedule) ∧
            fecMaxTotalSymbols < p.dataSymbols + schedule.paritySymbols) →
      p.AllOrNothing t := by
    intro plan result hresult hpublish hresults
    refine ⟨fun hlanes rounds hrounds => plan_rounds p hrounds hlanes _, fun _ => by rw [hpublish],
      fun hdelivered => ?_, .inr hresults⟩
    rw [hpublish] at hdelivered
    exact absurd hdelivered hresult
  by_cases hlanes : p.lanes t = []
  · have hpublish : p.publish t = ⟨none, p.unstriped, .backpressure⟩ := by
      rw [publish, if_pos hlanes]
    exact hnowhere _ _ (by decide) hpublish (.inl (by rw [hpublish]))
  rcases plan_cases p hlanes (length_lanes p t) (p.lanes t).length p.cursor with
    hblocked | ⟨active, schedule, hplanned, hfeasible⟩
  · have hpublish : p.publish t = ⟨none, p.unstriped, .backpressure⟩ := by
      rw [publish, if_neg hlanes, hblocked]
    exact hnowhere _ _ (by decide) hpublish (.inl (by rw [hpublish]))
  have hpublish := publish_planned hlanes hplanned hfeasible.allocated
  by_cases hmany : fecMaxTotalSymbols < p.dataSymbols + schedule.paritySymbols
  · rw [if_pos hmany] at hpublish
    refine hnowhere _ _ (by decide) hpublish (.inr (.inr ⟨by rw [hpublish], active, schedule, ?_, hmany⟩))
    rw [hpublish]
  rw [if_neg hmany] at hpublish
  cases haddressed : p.addressed with
  | false =>
      rw [haddressed, if_neg Bool.false_ne_true] at hpublish
      exact hnowhere _ _ (by decide) hpublish (.inr (.inl ⟨by rw [hpublish], haddressed⟩))
  | true =>
      obtain ⟨striped, hstriped, hcomplete⟩ := stripe_feasible hdistinct hfeasible
      rw [haddressed, if_pos rfl, hstriped] at hpublish
      refine ⟨fun hlanes rounds hrounds => plan_rounds p hrounds hlanes _, fun hresult => ?_,
        fun _ => ⟨active, schedule, by rw [hpublish], hfeasible.sublist, ?_⟩,
        .inl (by rw [hpublish])⟩
      · exact absurd (by rw [hpublish]) hresult
      · rw [hpublish]
        exact hcomplete

/-! ### The datagrams of a connection -/

/-- The surroundings in which `publishDatagramToConn` makes the publication. -/
def env (p : DatagramPublication) (t : Topology) : ConnEnv where
  paths := t.resolved.map fun (physical, mapped) => (p.lane physical mapped).toPathEnv
  pathflow := p.pathflow
  codec := p.codec
  blocksAllocate := true
  packet _ := .queued
  streamSends := true
  opensStream := true
  acceptsBatch := true
  writesObject := .written

theorem activePaths_env (p : DatagramPublication) (t : Topology) :
    (p.env t).activePaths = (p.lanes t).map Lane.toPathEnv := by
  rw [ConnEnv.activePaths, env, lanes, List.filter_map, List.filter_map, List.map_map]
  rfl

/-- A plan without the links' own indices. -/
def LanePlan.toPlan : LanePlan → Plan
  | .planned active schedule => .planned (active.map Lane.toPathEnv) schedule
  | .unschedulable => .unschedulable
  | .blocked => .blocked

theorem planSymbols_env (p : DatagramPublication) (t : Topology) (active : List Lane)
    (cursor : Nat) :
    (p.env t).planSymbols p.profile p.priority p.symbolSize p.dataSymbols active.length
      (active.map Lane.toPathEnv) cursor =
        ((p.plan active.length active cursor).1.toPlan, (p.plan active.length active cursor).2) := by
  generalize hrounds : active.length = rounds
  induction rounds generalizing active cursor with
  | zero => rfl
  | succ rounds ih =>
      have hpathflow : (p.env t).pathflow = p.pathflow := rfl
      have hstates : (active.map Lane.toPathEnv).map (·.state) = active.map (·.state) := by
        rw [List.map_map]
        rfl
      have hzip : ∀ paths : List PathPlan,
          ((active.map Lane.toPathEnv).zip paths).findIdx?
            (fun entry => pathBlocked p.pathflow entry.1 entry.2.x) =
          (active.zip paths).findIdx?
            (fun entry => pathBlocked p.pathflow entry.1.toPathEnv entry.2.x) := by
        intro paths
        rw [List.zip_map_left, List.findIdx?_map]
        rfl
      simp only [ConnEnv.planSymbols, plan, hpathflow, hstates, hzip]
      generalize Schedule.build p.pathflow _ p.dataSymbols p.symbolSize p.profile.usesFec
        p.priority cursor = answer
      obtain ⟨built, next⟩ := answer
      cases built with
      | none => rfl
      | some built =>
          simp only
          generalize hfind : List.findIdx? _ (active.zip _) = found
          cases found with
          | none => rfl
          | some index =>
              have hindex := blocked_lt hfind
              have hleft : (active.eraseIdx index).length = rounds := by
                rw [List.length_eraseIdx_of_lt hindex, hrounds, Nat.add_sub_cancel]
              simp only [List.eraseIdx_map, ih (active.eraseIdx index) next hleft]
              split
              · next hempty =>
                  rw [hempty] at hleft
                  subst hleft
                  rfl
              · rfl

/-- The datagrams that were queued for the connection are those that were placed. -/
structure Queues (p : DatagramPublication) (queued : List (Sent Datagram)) (striped : Striped) :
    Prop where
  symbols : queued.map (·.message.header.symbolIndex) = striped.placed.map Prod.snd
  occupancy : ∀ mapped, striped.occupancy mapped =
    p.occupancy mapped + (queued.filter (·.message.header.pathId = mapped)).length

theorem enqueueSymbols_env {packet : Nat → Nat → Sent Datagram} {queued : List (Sent Datagram)}
    {striped : Striped} (schedule : Schedule)
    (hpacket : ∀ symbol mapped, (packet symbol mapped).message.header.symbolIndex = symbol ∧
      (packet symbol mapped).message.header.pathId = mapped)
    (hactive : ∀ path ∈ active, path.queued = p.occupancy path.mapped)
    (hqueues : p.Queues queued striped) (symbols : List Nat) :
    (enqueueSymbols (p.env t) (active.map Lane.toPathEnv) schedule packet symbols queued).2 =
        (Striped.stripe p.pathflow.one active schedule symbols striped).2 ∧
      p.Queues
        (enqueueSymbols (p.env t) (active.map Lane.toPathEnv) schedule packet symbols queued).1
        (Striped.stripe p.pathflow.one active schedule symbols striped).1 := by
  induction symbols generalizing queued striped with
  | nil => exact ⟨rfl, hqueues⟩
  | cons symbol rest ih =>
      have hempty : queued.isEmpty = striped.placed.isEmpty := by
        have hlength := congrArg List.length hqueues.symbols
        rw [List.length_map, List.length_map] at hlength
        rw [Bool.eq_iff_iff, List.isEmpty_iff_length_eq_zero, List.isEmpty_iff_length_eq_zero,
          hlength]
      have hpackets : (p.env t).packet symbol = .queued := rfl
      simp only [enqueueSymbols, Striped.stripe, hempty, hpackets]
      cases hselect : pathSelectPhysical schedule.paths symbol with
      | none => exact ⟨rfl, hqueues⟩
      | some index =>
          cases hpath : active[index]? with
          | none =>
              simp only [Option.bind_some, List.getElem?_map, hpath, Option.map_none]
              exact ⟨rfl, hqueues⟩
          | some path =>
              have hmem := List.mem_of_getElem? hpath
              simp only [Option.bind_some, List.getElem?_map, hpath, Option.map_some]
              rw [hactive path hmem, hqueues.occupancy path.mapped]
              by_cases hbig : 255 < path.mapped
              · simp only [if_pos hbig]
                exact ⟨rfl, hqueues⟩
              by_cases hfull : pathDatagramQueueCapacity ≤
                  p.occupancy path.mapped +
                    (queued.filter (·.message.header.pathId = path.mapped)).length
              · simp only [if_neg hbig, if_pos hfull, if_pos (Or.inl hfull)]
                exact ⟨rfl, hqueues⟩
              · have htaken : ¬ (pathDatagramQueueCapacity ≤ p.occupancy path.mapped +
                    (queued.filter (·.message.header.pathId = path.mapped)).length ∨
                    PacketOutcome.queued = .refused) := by simpa using hfull
                simp only [if_neg hbig, if_neg hfull, if_neg htaken]
                refine ih ⟨?_, fun mapped => ?_⟩
                · rw [List.map_append, hqueues.symbols, Striped.place, List.map_append]
                  simp [(hpacket symbol path.mapped).1]
                · rw [List.filter_append, List.length_append, ← Nat.add_assoc,
                    ← hqueues.occupancy mapped]
                  by_cases hsame : path.mapped = mapped
                  · simp [Striped.place, (hpacket symbol mapped).2, hsame]
                  · simp [Striped.place, (hpacket symbol path.mapped).2, hsame,
                      Function.update_of_ne (Ne.symm hsame)]

theorem fecPacket_header (cursor : Nat) (c : Conn) (object : MoqObject) (a : TrackAlias)
    (symbolSize dataSymbols totalSymbols : Nat) (blocks : List Bytes) (symbol mapped : Nat) :
    let packet := fecPacket { c with roundRobinPath := cursor } object a symbolSize dataSymbols
      totalSymbols blocks symbol mapped
    packet.message.header.symbolIndex = symbol ∧ packet.message.header.pathId = mapped :=
  ⟨rfl, rfl⟩

/-- The publication is that of `publishDatagramToConn`: its result, its symbols in order and
what they leave queued on the QUIC paths. -/
theorem publishDatagramToConn_env (p : DatagramPublication) (t : Topology) {c : Conn}
    {object : MoqObject} (hcursor : c.roundRobinPath = p.cursor)
    (hdata : object.data = p.data) (hpriority : object.priority = p.priority)
    (haddressed : (c.sendSubscriptions.findAlias object.trackId).isSome = p.addressed) :
    ∃ queued, (publishDatagramToConn (p.env t) c object p.profile p.symbolSize
        p.dataSymbols).1.datagrams = c.datagrams ++ queued ∧
      (publishDatagramToConn (p.env t) c object p.profile p.symbolSize p.dataSymbols).2.1 =
        (p.publish t).result ∧
      p.Queues queued (p.publish t).striped := by
  have hnone : p.Queues [] p.unstriped := ⟨rfl, fun _ => rfl⟩
  have hpaths := activePaths_env p t
  by_cases hlanes : p.lanes t = []
  · rw [hlanes, List.map_nil] at hpaths
    refine ⟨[], ?_⟩
    rw [publishDatagramToConn, publish, if_pos hpaths, if_pos hlanes]
    exact ⟨(List.append_nil _).symm, rfl, hnone⟩
  have hsome : (p.env t).activePaths ≠ [] := by
    rw [hpaths]
    simpa using hlanes
  have hplans := planSymbols_env p t (p.lanes t) p.cursor
  rw [← hpaths] at hplans
  have hlength : (p.env t).activePaths.length = (p.lanes t).length := by
    rw [hpaths, List.length_map]
  simp only [publishDatagramToConn, if_neg hsome, hpriority, hcursor, hlength, hplans]
  rcases plan_cases p hlanes (length_lanes p t) (p.lanes t).length p.cursor with
    hblocked | ⟨active, schedule, hplanned, hfeasible⟩
  · rw [publish, if_neg hlanes, hblocked]
    exact ⟨[], (List.append_nil _).symm, rfl, hnone⟩
  have hallocated := hfeasible.allocated
  have hqueued : ∀ path ∈ active, path.queued = p.occupancy path.mapped := by
    intro path hpath
    obtain ⟨physical, mapped, -, rfl⟩ := mem_lanes (hfeasible.sublist.subset hpath)
    rfl
  have hblocks := isSome_symbolBlocks p schedule.paritySymbols
  obtain ⟨blocks, hblocks⟩ := Option.isSome_iff_exists.mp hblocks
  have hcodec : (p.env t).codec = p.codec := rfl
  have hallocates : (p.env t).blocksAllocate = true := rfl
  rw [publish_planned hlanes hplanned hallocated]
  simp only [hplanned, LanePlan.toPlan, hallocated, hcodec, hdata, hblocks, hallocates]
  by_cases hmany : fecMaxTotalSymbols < p.dataSymbols + schedule.paritySymbols
  · simp only [if_pos hmany]
    exact ⟨[], (List.append_nil _).symm, trivial, hnone⟩
  simp only [if_neg hmany, ne_eq, not_true_eq_false, if_false, Bool.not_true, Bool.false_eq_true]
  cases halias : c.sendSubscriptions.findAlias object.trackId with
  | none =>
      rw [halias] at haddressed
      rw [← haddressed]
      exact ⟨[], (List.append_nil _).symm, rfl, hnone⟩
  | some a =>
      rw [halias] at haddressed
      obtain ⟨hresult, hqueues⟩ := enqueueSymbols_env (t := t) schedule
        (fecPacket_header (p.plan (p.lanes t).length (p.lanes t) p.cursor).2 c object a
          p.symbolSize p.dataSymbols (p.dataSymbols + schedule.paritySymbols) blocks)
        hqueued hnone
        (List.range (p.dataSymbols + schedule.paritySymbols))
      rw [← haddressed]
      exact ⟨_, rfl, hresult, hqueues⟩

end DatagramPublication

end Qlinq
