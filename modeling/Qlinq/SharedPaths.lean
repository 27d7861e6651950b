import Qlinq.StripedObjects

namespace Qlinq

/-! Links that resolve to one QUIC path. -/

namespace DatagramPublication

open ConnEnv (pathBlocked)

variable {t : Topology} {active : List Lane} {mapped : Nat}

theorem lawful_firstPathflow : Transport.firstPathflow.Lawful where
  splits paths dataSymbols _ hpaths := by
    refine ⟨_, rfl, ?_, fun index => ?_⟩
    · obtain ⟨path, rest, rfl⟩ := List.exists_cons_of_ne_nil hpaths
      rw [List.length_cons, List.range_succ_eq_map, List.map_cons, List.sum_cons, List.map_map]
      refine Nat.add_eq_left.mpr (List.sum_eq_zero fun m hm => ?_)
      obtain ⟨index, -, rfl⟩ := List.mem_map.mp hm
      rfl
    · split
      · exact le_refl _
      · exact le_refl _

/-- Two symbols for a connection that has room for one datagram, on one QUIC path. -/
def crowded (mapped : Nat) : DatagramPublication where
  occupancy path := if path = mapped then 63 else 64
  link _ := ⟨true, ⟨false, 0, 0, 0, 0⟩, ⟨0, 0⟩⟩
  pathflow := Transport.firstPathflow
  codec := Transport.blankCodec
  profile := ⟨false, false, false⟩
  priority := 1
  data := []
  dataSymbols := 2
  symbolSize := 1
  cursor := 0
  addressed := true
  lawful := lawful_firstPathflow
  encodes _ _ _ _ := rfl
  dataSymbols_pos := Nat.two_pos
  symbolSize_pos := Nat.one_pos

theorem lanes_crowded (t : Topology) (mapped : Nat) :
    (crowded mapped).lanes t =
      (t.resolved.filter (·.2 = mapped)).map fun (physical, path) =>
        (crowded mapped).lane physical path := by
  rw [lanes, List.filter_map]
  congr 1
  refine List.filter_congr fun entry _ => ?_
  obtain ⟨physical, path⟩ := entry
  by_cases hsame : path = mapped
  · simp [lane, crowded, hsame, pathDatagramQueueCapacity]
  · simp [lane, crowded, hsame, pathDatagramQueueCapacity]

theorem roundRobin_two (first second : PathPlan) (rest : List PathPlan) :
    Schedule.roundRobin (first :: second :: rest) 2 =
      { first with x := first.x + 1 } :: { second with x := second.x + 1 } :: rest := by
  have hfirst : 0 % (rest.length + 1 + 1) = 0 := Nat.zero_mod _
  have hsecond : 1 % (rest.length + 1 + 1) = 1 := Nat.mod_eq_of_lt (by omega)
  simp [Schedule.roundRobin, List.range_succ, Schedule.addSymbol, hfirst, hsecond]

/-- One symbol for each of the first two paths. -/
def evenly (active : List Lane) : Schedule where
  paths :=
    Schedule.roundRobin ((active.map (·.state)).map (Schedule.planPath Transport.firstPathflow)) 2

theorem plan_crowded (hactive : 2 ≤ active.length) (hfew : active.length ≤ transportMaxPaths)
    (hcrowded : ∀ path ∈ active, path.queued = 63 ∧ path.overridden = true) (mapped : Nat) :
    ((crowded mapped).plan active.length active 0).1 = .planned active (evenly active) := by
  have hbuild : Schedule.build (crowded mapped).pathflow (active.map (·.state))
      (crowded mapped).dataSymbols (crowded mapped).symbolSize (crowded mapped).profile.usesFec
      (crowded mapped).priority 0 = (some (evenly active), 0) := by
    rw [Schedule.build, if_neg]
    · rfl
    · rw [List.length_map]
      change ¬ (_ ∨ _ ∨ 2 = 0 ∨ 1 = 0)
      omega
  have hsent : (evenly active).transmitted (crowded mapped).profile.fecRateless
      (crowded mapped).dataSymbols = evenly active := rfl
  have hblank : ∀ path ∈ (active.map (·.state)).map (Schedule.planPath Transport.firstPathflow),
      path.x = 0 := by
    intro path hpath
    obtain ⟨state, -, rfl⟩ := List.mem_map.mp hpath
    rfl
  have hadmitted : (active.zip (evenly active).paths).findIdx?
      (fun entry => pathBlocked (crowded mapped).pathflow entry.1.toPathEnv entry.2.x) = none := by
    refine List.findIdx?_eq_none_iff.mpr fun entry hentry => ?_
    obtain ⟨hpath, hplan⟩ := List.of_mem_zip (a := entry.1) (b := entry.2) hentry
    obtain ⟨hqueued, hoverridden⟩ := hcrowded entry.1 hpath
    have hone := (Schedule.roundRobin_le_iff _ hblank (List.ne_nil_of_length_pos (by simp; omega))
      2 1).mpr (by simpa using hactive) entry.2 hplan
    have hfits : ¬ 64 - 63 < entry.2.x := by omega
    simp [pathBlocked, PathEnv.available, hqueued, hoverridden, pathDatagramQueueCapacity, hfits]
  obtain ⟨rounds, hrounds⟩ := Nat.exists_eq_succ_of_ne_zero (n := active.length) (by omega)
  simp only [hrounds, plan, hbuild, hsent, hadmitted]

theorem stripe_crowded {first second : Lane} (hfirst : first.mapped = mapped)
    (hsecond : second.mapped = mapped) (hsmall : mapped ≤ 255) (rest : List Lane) :
    (Striped.stripe (crowded mapped).pathflow.one (first :: second :: rest)
      (evenly (first :: second :: rest)) [0, 1] (crowded mapped).unstriped).2 =
        .partialDelivery := by
  have hselect : pathSelectPhysical (evenly (first :: second :: rest)).paths 0 = some 0 ∧
      pathSelectPhysical (evenly (first :: second :: rest)).paths 1 = some 1 := by
    simp only [evenly, List.map_cons, roundRobin_two]
    exact ⟨rfl, rfl⟩
  have hfree : ¬ pathDatagramQueueCapacity ≤ (crowded mapped).unstriped.occupancy mapped := by
    simp [unstriped, crowded, pathDatagramQueueCapacity]
  have hfull : ((crowded mapped).unstriped.place (crowded mapped).pathflow.one 0 0
      first).occupancy mapped = 64 := by
    simp [Striped.place, unstriped, crowded, hfirst]
  simp only [Striped.stripe, hselect, List.getElem?_cons_zero, List.getElem?_cons_succ, hfirst,
    hsecond, Nat.not_lt.mpr hsmall, if_false, if_neg hfree, hfull]
  rfl

/-- Two links of one path with room for one datagram are given one symbol each. -/
theorem partial_crowded (hshared : 2 ≤ (t.resolved.filter (·.2 = mapped)).length) :
    ((crowded mapped).publish t).result = .partialDelivery := by
  have hlanes := lanes_crowded t mapped
  have hmapped : ∀ path ∈ (crowded mapped).lanes t, path.mapped = mapped ∧ path.mapped ≤ 255 ∧
      path.queued = 63 ∧ path.overridden = true := by
    intro path hpath
    rw [hlanes] at hpath
    obtain ⟨⟨physical, other⟩, hentry, rfl⟩ := List.mem_map.mp hpath
    obtain ⟨hresolved, hsame⟩ := List.mem_filter.mp hentry
    have hsame : other = mapped := of_decide_eq_true hsame
    exact ⟨hsame, (Nat.le_of_lt (mapped_lt hresolved)).trans (by decide), if_pos hsame, rfl⟩
  have hlength : 2 ≤ ((crowded mapped).lanes t).length := by
    rw [hlanes, List.length_map]
    exact hshared
  have hplanned := plan_crowded hlength (length_lanes _ t)
    (fun path hpath => (hmapped path hpath).2.2) mapped
  have hallocated : (evenly ((crowded mapped).lanes t)).allocated = 2 := by
    rw [Schedule.allocated, evenly, Schedule.sum_roundRobin, Schedule.sum_planPath]
    exact List.ne_nil_of_length_pos (by simp; omega)
  have hsome : (crowded mapped).lanes t ≠ [] := List.ne_nil_of_length_pos (by omega)
  have hpublish := publish_planned hsome hplanned hallocated
  have hstriped : (Striped.stripe (crowded mapped).pathflow.one ((crowded mapped).lanes t)
      (evenly ((crowded mapped).lanes t)) [0, 1] (crowded mapped).unstriped).2 =
        .partialDelivery := by
    rcases hactive : (crowded mapped).lanes t with - | ⟨first, - | ⟨second, rest⟩⟩
    · simp [hactive] at hlength
    · simp [hactive] at hlength
    · rw [hactive] at hmapped
      obtain ⟨hfirst, hsmall, -⟩ := hmapped first (by simp)
      exact stripe_crowded hfirst (hmapped second (by simp)).1 (hfirst ▸ hsmall) rest
  rw [hpublish]
  exact hstriped

/-- Datagram publication is all or nothing on exactly those sets of paths where no two links
resolve to one QUIC path. -/
theorem allOrNothing_iff (t : Topology) :
    (∀ p : DatagramPublication, p.AllOrNothing t) ↔ (t.resolved.map Prod.snd).Nodup := by
  refine ⟨fun hall => ?_, fun hdistinct p => allOrNothing_of_distinct p hdistinct⟩
  rw [List.nodup_iff_count_le_one]
  by_contra hshared
  push Not at hshared
  obtain ⟨mapped, hmapped⟩ := hshared
  rw [List.count, List.countP_map, List.countP_eq_length_filter] at hmapped
  have hstranded : ((crowded mapped).publish t).result = .partialDelivery :=
    partial_crowded hmapped
  have hresults := (hall (crowded mapped)).results
  rw [hstranded] at hresults
  simp at hresults

/-- Two links of one address, whose QUIC path takes 64 of the 100 datagrams. -/
def loopbackLinks : Topology where
  links := [.v4 0x7f000001, .v4 0x7f000001]
  quicPaths := [some ⟨.v4 0x7f000001, true⟩]
  links_le := by decide
  quicPaths_le := by decide

def hundredSymbols : DatagramPublication where
  occupancy _ := 0
  link _ := ⟨false, ⟨false, 0, 0, 0, 0⟩, ⟨0, 6553600⟩⟩
  pathflow := Transport.firstPathflow
  codec := Transport.blankCodec
  profile := ⟨false, false, false⟩
  priority := 1
  data := List.replicate 100 7
  dataSymbols := 100
  symbolSize := 1
  cursor := 0
  addressed := true
  lawful := lawful_firstPathflow
  encodes _ _ _ _ := rfl
  dataSymbols_pos := by decide
  symbolSize_pos := by decide

theorem shared_path_strands_object :
    (hundredSymbols.publish loopbackLinks).result = .partialDelivery ∧
      (hundredSymbols.publish loopbackLinks).striped.placed.length = 64 ∧
      ¬ hundredSymbols.AllOrNothing loopbackLinks := by
  have hfacts : (hundredSymbols.publish loopbackLinks).result = .partialDelivery ∧
      (hundredSymbols.publish loopbackLinks).striped.placed.length = 64 := by
    decide +kernel
  refine ⟨hfacts.1, hfacts.2, fun hall => ?_⟩
  have hresults := hall.results
  rw [hfacts.1] at hresults
  simp at hresults

end DatagramPublication

end Qlinq
