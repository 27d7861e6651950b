import Qlinq.Backpressure
import Qlinq.Striping

namespace Qlinq

/-! How many symbols a schedule gives to its paths. -/

variable {paths : List PathPlan} {pathflow : Pathflow} {states : List PathState}
  {schedule : Schedule} {dataSymbols : Nat}

namespace Schedule

/-! ### What a schedule allocates -/

theorem sum_addSymbol {index : Nat} (hindex : index < paths.length) :
    ((addSymbol paths index).map (·.x)).sum = (paths.map (·.x)).sum + 1 := by
  induction paths generalizing index with
  | nil => exact absurd hindex (Nat.not_lt_zero index)
  | cons path rest ih =>
      cases index with
      | zero =>
          simp only [addSymbol, List.modify_zero_cons, List.map_cons, List.sum_cons]
          omega
      | succ index =>
          have hrest := ih (Nat.lt_of_succ_lt_succ hindex)
          simp only [addSymbol, List.modify_succ_cons, List.map_cons, List.sum_cons] at hrest ⊢
          omega

theorem sources_addSymbol (paths : List PathPlan) (index : Nat) :
    (addSymbol paths index).map (·.m) = paths.map (·.m) := by
  induction paths generalizing index with
  | nil => cases index <;> rfl
  | cons path rest ih =>
      cases index with
      | zero => rfl
      | succ index => exact congrArg (path.m :: ·) (ih index)

theorem sum_roundRobin (hpaths : paths ≠ []) (dataSymbols : Nat) :
    ((roundRobin paths dataSymbols).map (·.x)).sum = (paths.map (·.x)).sum + dataSymbols := by
  induction dataSymbols with
  | zero => rfl
  | succ dataSymbols ih =>
      rw [roundRobin_succ, sum_addSymbol, ih, Nat.add_assoc]
      apply Nat.mod_lt
      rw [length_roundRobin]
      exact List.length_pos_iff.mpr hpaths

theorem sum_planPath (pathflow : Pathflow) (states : List PathState) :
    ((states.map (planPath pathflow)).map (·.x)).sum = 0 := by
  induction states with
  | nil => rfl
  | cons state states ih =>
      rw [List.map_cons, List.map_cons, List.sum_cons, ih]
      rfl

/-- The earlier finish, of paths with source symbols. -/
def sooner (pathflow : Pathflow) (best : Option (Nat × Fixed)) (entry : PathPlan × Nat) :
    Option (Nat × Fixed) :=
  if entry.1.m = 0 then
    best
  else
    let finish := finishTime pathflow entry.1
    match best with
    | none => some (entry.2, finish)
    | some (_, earliest) => if finish < earliest then some (entry.2, finish) else best

theorem earliestFinish_eq (pathflow : Pathflow) (paths : List PathPlan) :
    earliestFinish pathflow paths = paths.zipIdx.foldl (sooner pathflow) none :=
  rfl

theorem sooner_cases (pathflow : Pathflow) (best : Option (Nat × Fixed))
    {entry : PathPlan × Nat} (hcarries : entry.1.m ≠ 0) :
    (sooner pathflow best entry).isSome = true ∧
      ∀ chosen ∈ sooner pathflow best entry, chosen.1 = entry.2 ∨ chosen ∈ best := by
  simp only [sooner, if_neg hcarries]
  cases best with
  | none =>
      refine ⟨rfl, fun chosen hchosen => Or.inl ?_⟩
      obtain rfl := Option.some.inj hchosen
      rfl
  | some earlier =>
      simp only
      split
      · refine ⟨rfl, fun chosen hchosen => Or.inl ?_⟩
        obtain rfl := Option.some.inj hchosen
        rfl
      · exact ⟨rfl, fun chosen hchosen => Or.inr hchosen⟩

theorem foldl_sooner (pathflow : Pathflow) (entries : List (PathPlan × Nat))
    (best : Option (Nat × Fixed)) (hinside : ∀ entry ∈ entries, entry.2 < bound)
    (hbest : ∀ chosen ∈ best, chosen.1 < bound)
    (hsource : best.isSome = true ∨ ∃ entry ∈ entries, entry.1.m ≠ 0) :
    ∃ chosen finish, entries.foldl (sooner pathflow) best = some (chosen, finish) ∧
      chosen < bound := by
  induction entries generalizing best with
  | nil =>
      rcases hsource with hsome | ⟨entry, hentry, -⟩
      · obtain ⟨⟨chosen, finish⟩, rfl⟩ := Option.isSome_iff_exists.mp hsome
        exact ⟨chosen, finish, rfl, hbest _ rfl⟩
      · cases hentry
  | cons entry rest ih =>
      obtain ⟨hentry, hrest⟩ := List.forall_mem_cons.mp hinside
      rw [List.foldl_cons]
      cases decEq entry.1.m 0 with
      | isTrue hempty =>
          have hsame : sooner pathflow best entry = best := if_pos hempty
          rw [hsame]
          refine ih best hrest hbest (hsource.imp_right ?_)
          rintro ⟨later, hlater, hcarries⟩
          cases List.mem_cons.mp hlater with
          | inl hhere => exact absurd hempty (by rwa [hhere] at hcarries)
          | inr hlater => exact ⟨later, hlater, hcarries⟩
      | isFalse hcarries =>
          obtain ⟨hsome, hchosen⟩ := sooner_cases pathflow best hcarries
          refine ih _ hrest (fun chosen hnext => ?_) (Or.inl hsome)
          cases hchosen chosen hnext with
          | inl hhere => rwa [hhere]
          | inr hold => exact hbest chosen hold

/-- A path with source symbols has an earliest finish. -/
theorem earliestFinish_isSome (pathflow : Pathflow) (hsource : ∃ path ∈ paths, path.m ≠ 0) :
    ∃ chosen finish, earliestFinish pathflow paths = some (chosen, finish) ∧
      chosen < paths.length := by
  obtain ⟨path, hpath, hcarries⟩ := hsource
  obtain ⟨index, hindex, rfl⟩ := List.mem_iff_getElem.mp hpath
  rw [earliestFinish_eq]
  refine foldl_sooner pathflow paths.zipIdx none (fun entry hentry => ?_) (fun _ h => by cases h)
    (Or.inr ⟨(paths[index], index), List.mem_zipIdx_iff_getElem?.mpr ?_, hcarries⟩)
  · exact (List.mem_zipIdx' hentry).1
  · exact List.getElem?_eq_getElem hindex

/-- The paths of a schedule with what the load balancer allocates to them. -/
theorem sources_allocated (allocate : Nat → Allocation) (paths : List PathPlan) :
    (paths.zipIdx.map fun (path, index) =>
        { path with m := (allocate index).m, x := (allocate index).x }).map (·.m) =
      (List.range paths.length).map fun index => (allocate index).m := by
  refine List.ext_getElem ?_ fun index hleft hright => ?_
  · simp
  · simp

/-- All symbols of paths with no fewer symbols than source symbols. -/
theorem sum_symbols (hparity : ∀ path ∈ paths, path.m ≤ path.x) :
    (paths.map (·.x)).sum = (paths.map (·.m)).sum + parityOf paths := by
  induction paths with
  | nil => rfl
  | cons path rest ih =>
      obtain ⟨hpath, hrest⟩ := List.forall_mem_cons.mp hparity
      have hlater := ih hrest
      simp only [parityOf, List.map_cons, List.sum_cons] at hlater ⊢
      omega

/-- What a schedule of an object is before the parity of rateless objects is left out. -/
structure Allocates (dataSymbols : Nat) (fecEnabled : Bool) (schedule : Schedule) : Prop where
  allocated : schedule.allocated = dataSymbols + schedule.paritySymbols
  parity : fecEnabled = true → 1 < dataSymbols →
    0 < schedule.paritySymbols ∧ schedule.sourceSymbols = dataSymbols
  unprotected : fecEnabled = false ∨ dataSymbols = 1 → schedule.paritySymbols = 0

theorem build_allocates (hlawful : pathflow.Lawful) (hstates : states ≠ [])
    (hfew : states.length ≤ transportMaxPaths) (hdata : 0 < dataSymbols) (hsize : 0 < symbolSize)
    (fecEnabled : Bool) (priority : UInt8) (cursor : Nat) :
    ∃ schedule next, build pathflow states dataSymbols symbolSize fecEnabled priority cursor =
      (some schedule, next) ∧ Allocates dataSymbols fecEnabled schedule := by
  have hguard : ¬ (states.length = 0 ∨ transportMaxPaths < states.length ∨ dataSymbols = 0 ∨
      symbolSize = 0) := by
    have := List.length_pos_iff.mpr hstates
    omega
  have hpaths : states.map (planPath pathflow) ≠ [] := by simpa using hstates
  have hblank := sum_planPath pathflow states
  unfold build
  rw [if_neg hguard]
  cases fecEnabled with
  | false =>
      refine ⟨_, _, rfl, ?_, (fun h => by cases h), fun _ => rfl⟩
      rw [allocated, sum_roundRobin hpaths, hblank, Nat.zero_add]
      rfl
  | true =>
      by_cases hsingle : dataSymbols = 1
      · refine ⟨_, _, by simp only [hsingle]; rfl, ?_, (fun _ h => by omega), fun _ => rfl⟩
        rw [allocated, sum_addSymbol (Nat.mod_lt _ (List.length_pos_iff.mpr hpaths)), hblank,
          hsingle]
        rfl
      · obtain ⟨allocate, hoptimize, hsum, hcovers⟩ :=
          hlawful.splits _ dataSymbols (targetReliability priority) hpaths
        rw [← sources_allocated allocate] at hsum
        simp only [Bool.not_true, Bool.false_eq_true, if_false, if_neg hsingle, hoptimize]
        generalize hallocated : (states.map (planPath pathflow)).zipIdx.map _ = given at *
        have hgiven : ∀ path ∈ given, path.m ≤ path.x := by
          intro path hpath
          rw [← hallocated] at hpath
          obtain ⟨⟨blank, index⟩, -, rfl⟩ := List.mem_map.mp hpath
          exact hcovers index
        have htotal := sum_symbols hgiven
        rw [hsum] at htotal
        by_cases hbare : parityOf given = 0
        · have hsource : ∃ path ∈ given, path.m ≠ 0 := by
            by_contra hnone
            push Not at hnone
            have hzero : (given.map (·.m)).sum = 0 :=
              List.sum_eq_zero fun m hm => by
                obtain ⟨path, hpath, rfl⟩ := List.mem_map.mp hm
                exact hnone path hpath
            omega
          obtain ⟨chosen, finish, hchosen, hinside⟩ :=
            earliestFinish_isSome pathflow hsource
          simp only [hbare, if_true, hchosen]
          refine ⟨_, _, rfl, ?_, fun _ _ => ⟨Nat.one_pos, ?_⟩, fun h => ?_⟩
          · rw [allocated, sum_addSymbol hinside, htotal, hbare]
            rfl
          · rw [sourceSymbols, sources_addSymbol, hsum]
          · exact absurd h (by simpa using hsingle)
        · simp only [if_neg hbare]
          refine ⟨_, _, rfl, htotal, fun _ _ => ⟨Nat.pos_of_ne_zero hbare, hsum⟩, fun h => ?_⟩
          exact absurd h (by simpa using hsingle)

/-- Rateless objects go without parity. -/
theorem transmitted_allocates {profile : TrackProfile} (hdata : 0 < dataSymbols)
    (hallocates : Allocates dataSymbols profile.usesFec schedule) :
    let sent := schedule.transmitted profile.fecRateless dataSymbols
    sent.allocated = dataSymbols + sent.paritySymbols ∧
      (profile.usesFec = true → profile.fecRateless = false → 1 < dataSymbols →
        0 < sent.paritySymbols) := by
  intro sent
  cases hrateless : profile.fecRateless with
  | false =>
      have hsent : sent = schedule := by simp [sent, transmitted, hrateless]
      rw [hsent]
      exact ⟨hallocates.allocated, fun hfec _ hmany => (hallocates.parity hfec hmany).1⟩
  | true =>
      refine ⟨?_, fun _ h => by cases h⟩
      have hsent : sent = schedule.systematic dataSymbols := by
        simp [sent, transmitted, hrateless]
      rw [hsent, allocated, systematic, Nat.add_zero]
      split
      · next hsources =>
          rw [List.map_map]
          exact hsources
      · next hsources =>
          have hfec : profile.usesFec = true := by simp [TrackProfile.usesFec, hrateless]
          have hsingle : dataSymbols = 1 := by
            by_contra hmany
            exact hsources (hallocates.parity hfec (by omega)).2
          have hall := hallocates.allocated
          rwa [hallocates.unprotected (.inr hsingle)] at hall

end Schedule

/-- A path gets as many symbols as it was allocated. -/
theorem countP_pathSelectPhysical (paths : List PathPlan) (index : Nat) :
    (List.range (paths.map (·.x)).sum).countP (pathSelectPhysical paths · = some index) =
      (paths[index]?.map (·.x)).getD 0 := by
  induction paths generalizing index with
  | nil => rfl
  | cons path rest ih =>
      have hfirst : (List.range path.x).countP
          (pathSelectPhysical (path :: rest) · = some index) = if index = 0 then path.x else 0 := by
        have hhere : ∀ symbol ∈ List.range path.x,
            pathSelectPhysical (path :: rest) symbol = some 0 :=
          fun symbol hsymbol => if_pos (List.mem_range.mp hsymbol)
        split
        · next hindex =>
          refine (List.countP_eq_length.mpr fun symbol hsymbol => ?_).trans List.length_range
          simp [hhere symbol hsymbol, hindex]
        · next hindex =>
          refine List.countP_eq_zero.mpr fun symbol hsymbol => ?_
          simp [hhere symbol hsymbol, Ne.symm hindex]
      have hlater : ∀ symbol, pathSelectPhysical (path :: rest) (path.x + symbol) =
          (pathSelectPhysical rest symbol).map (· + 1) := by
        intro symbol
        rw [pathSelectPhysical, if_neg (by omega), Nat.add_sub_cancel_left]
      rw [List.map_cons, List.sum_cons, List.range_add, List.countP_append, hfirst,
        List.countP_map]
      cases index with
      | zero =>
          rw [if_pos rfl, List.countP_eq_zero.mpr]
          · rfl
          · intro symbol _
            simp [hlater]
      | succ index =>
          rw [if_neg (Nat.succ_ne_zero index), Nat.zero_add, List.getElem?_cons_succ, ← ih index]
          congr 1
          funext symbol
          simp only [Function.comp_apply, hlater]
          cases pathSelectPhysical rest symbol <;> simp

end Qlinq
