import Mathlib.Data.List.Range
import Qlinq.Tracks

namespace Qlinq

/-! Placement of an object's symbols on paths.  The load balancer and its
fixed-point numbers are another library's; `Pathflow` stands for them. -/

abbrev Fixed := Int

structure PathState where
  initialized : Bool
  rate : Fixed
  latency : Fixed
  loss : Fixed
  queue : Nat
  deriving DecidableEq, Repr

/-- One path of a schedule: its estimate, its source symbols `m` and all its
symbols `x`. -/
structure PathPlan where
  rate : Fixed
  latency : Fixed
  loss : Fixed
  queue : Nat
  m : Nat := 0
  x : Nat := 0
  deriving DecidableEq, Repr

structure Allocation where
  m : Nat
  x : Nat
  deriving DecidableEq, Repr

/-- `optimize paths symbols reliability` allocates to the path at an index;
`none` is `PATHFLOW_ERROR`. -/
structure Pathflow where
  one : Fixed
  ofNat : Nat → Fixed
  add : Fixed → Fixed → Fixed
  div : Fixed → Fixed → Fixed
  defaultLatency : Fixed
  defaultLoss : Fixed
  optimize : List PathPlan → Nat → Nat → Option (Nat → Allocation)

structure Schedule where
  paths : List PathPlan
  paritySymbols : Nat := 0
  deriving DecidableEq, Repr

def transportMaxPaths : Nat := 4

namespace Schedule

def planPath (pathflow : Pathflow) (state : PathState) : PathPlan where
  rate := if 0 < state.rate then state.rate else pathflow.ofNat 100
  latency := if state.initialized then state.latency else pathflow.defaultLatency
  loss := if state.initialized then state.loss else pathflow.defaultLoss
  queue := state.queue

def finishTime (pathflow : Pathflow) (path : PathPlan) : Fixed :=
  pathflow.add path.latency
    (pathflow.div
      (pathflow.add (pathflow.ofNat path.queue) (pathflow.ofNat (path.x + 1)))
      path.rate)

/-- Index and finish time of the earliest data-carrying path. -/
def earliestFinish (pathflow : Pathflow) (paths : List PathPlan) :
    Option (Nat × Fixed) :=
  paths.zipIdx.foldl (fun best (path, index) =>
    if path.m = 0 then
      best
    else
      let finish := finishTime pathflow path
      match best with
      | none => some (index, finish)
      | some (_, earliest) => if finish < earliest then some (index, finish) else best)
    none

def targetReliability (priority : UInt8) : Nat :=
  if priority = 0 then 85 else if priority = 2 then 99 else 95

def parityOf (paths : List PathPlan) : Nat :=
  (paths.map fun path => path.x - path.m).sum

def addSymbol (paths : List PathPlan) (index : Nat) : List PathPlan :=
  paths.modify index fun path => { path with x := path.x + 1 }

/-- Every symbol goes to the next path in turn. -/
def roundRobin (paths : List PathPlan) (dataSymbols : Nat) : List PathPlan :=
  (List.range dataSymbols).foldl (fun paths symbol =>
    addSymbol paths (symbol % paths.length)) paths

/-- `transport_schedule_build`, with the advanced round-robin cursor. -/
def build (pathflow : Pathflow) (states : List PathState) (dataSymbols symbolSize : Nat)
    (fecEnabled : Bool) (priority : UInt8) (cursor : Nat) : Option Schedule × Nat :=
  if states.length = 0 ∨ transportMaxPaths < states.length ∨ dataSymbols = 0 ∨
      symbolSize = 0 then
    (none, cursor)
  else
    let paths := states.map (planPath pathflow)
    if !fecEnabled then
      (some { paths := roundRobin paths dataSymbols }, cursor)
    else if dataSymbols = 1 then
      (some { paths := addSymbol paths (cursor % paths.length) }, cursor + 1)
    else
      match pathflow.optimize paths dataSymbols (targetReliability priority) with
      | none => (none, cursor)
      | some allocate =>
          let allocated := paths.zipIdx.map fun (path, index) =>
            { path with m := (allocate index).m, x := (allocate index).x }
          if parityOf allocated = 0 then
            match earliestFinish pathflow allocated with
            | none => (none, cursor)
            | some (chosen, _) =>
                (some { paths := addSymbol allocated chosen, paritySymbols := 1 }, cursor)
          else
            (some { paths := allocated, paritySymbols := parityOf allocated }, cursor)

def sourceSymbols (schedule : Schedule) : Nat := (schedule.paths.map (·.m)).sum

def allocated (schedule : Schedule) : Nat := (schedule.paths.map (·.x)).sum

/-- A rateless publication sends its source allocation alone. -/
def systematic (schedule : Schedule) (dataSymbols : Nat) : Schedule where
  paths :=
    if schedule.sourceSymbols = dataSymbols then
      schedule.paths.map fun path => { path with x := path.m }
    else
      schedule.paths
  paritySymbols := 0

def transmitted (schedule : Schedule) (rateless : Bool) (dataSymbols : Nat) : Schedule :=
  if rateless then schedule.systematic dataSymbols else schedule

@[simp] theorem length_addSymbol (paths : List PathPlan) (index : Nat) :
    (addSymbol paths index).length = paths.length := by
  simp [addSymbol]

theorem roundRobin_succ (paths : List PathPlan) (dataSymbols : Nat) :
    roundRobin paths (dataSymbols + 1) =
      addSymbol (roundRobin paths dataSymbols)
        (dataSymbols % (roundRobin paths dataSymbols).length) := by
  simp [roundRobin, List.range_succ]

@[simp] theorem length_roundRobin (paths : List PathPlan) (dataSymbols : Nat) :
    (roundRobin paths dataSymbols).length = paths.length := by
  induction dataSymbols with
  | zero => rfl
  | succ dataSymbols ih => rw [roundRobin_succ, length_addSymbol, ih]

theorem length_build
    (hbuild : build pathflow states dataSymbols symbolSize fecEnabled priority cursor =
      (some schedule, next)) : schedule.paths.length = states.length := by
  simp only [build] at hbuild
  split at hbuild
  · simp at hbuild
  split at hbuild
  · obtain ⟨rfl, -⟩ := Prod.mk.inj hbuild |>.imp_left Option.some.inj
    simp
  split at hbuild
  · obtain ⟨rfl, -⟩ := Prod.mk.inj hbuild |>.imp_left Option.some.inj
    simp
  split at hbuild
  · simp at hbuild
  split at hbuild
  · split at hbuild
    · simp at hbuild
    · obtain ⟨rfl, -⟩ := Prod.mk.inj hbuild |>.imp_left Option.some.inj
      simp
  · obtain ⟨rfl, -⟩ := Prod.mk.inj hbuild |>.imp_left Option.some.inj
    simp

@[simp] theorem length_transmitted (schedule : Schedule) (rateless : Bool)
    (dataSymbols : Nat) :
    (schedule.transmitted rateless dataSymbols).paths.length = schedule.paths.length := by
  simp only [transmitted, systematic]
  split
  · split <;> simp
  · rfl

/-- A round robin gives path `index` every `paths.length`-th symbol. -/
theorem roundRobin_share (paths : List PathPlan) (hblank : ∀ path ∈ paths, path.x = 0)
    (dataSymbols : Nat) {index : Nat}
    (hpath : (roundRobin paths dataSymbols)[index]? = some path) :
    path.x = (dataSymbols + (paths.length - 1 - index)) / paths.length := by
  induction dataSymbols generalizing path with
  | zero =>
      have hpath : paths[index]? = some path := by simpa [roundRobin] using hpath
      obtain ⟨hindex, rfl⟩ := List.getElem?_eq_some_iff.mp hpath
      rw [hblank _ (List.getElem_mem hindex), Nat.div_eq_of_lt (by omega)]
  | succ dataSymbols ih =>
      have hindex : index < paths.length := by
        simpa using (List.getElem?_eq_some_iff.mp hpath).1
      rw [roundRobin_succ, addSymbol, List.getElem?_modify, length_roundRobin] at hpath
      obtain ⟨old, hold, rfl⟩ := Option.map_eq_some_iff.mp hpath
      have hshare := ih hold
      have hsplit : dataSymbols + 1 + (paths.length - 1 - index) =
          dataSymbols + (paths.length - 1 - index) + 1 := by omega
      have hturn : paths.length ∣ dataSymbols + (paths.length - 1 - index) + 1 ↔
          dataSymbols % paths.length = index := by
        constructor
        · rintro ⟨turns, hturns⟩
          cases turns with
          | zero => omega
          | succ turns =>
              rw [Nat.mul_succ] at hturns
              have hsymbol : dataSymbols = paths.length * turns + index := by omega
              rw [hsymbol, Nat.mul_add_mod, Nat.mod_eq_of_lt hindex]
        · intro hhere
          have hsymbol := Nat.div_add_mod dataSymbols paths.length
          exact ⟨dataSymbols / paths.length + 1, by rw [Nat.mul_succ]; omega⟩
      rw [hsplit, Nat.succ_div]
      by_cases hhere : dataSymbols % paths.length = index
      · simp [hhere, hturn, hshare]
      · simp [hhere, hturn, hshare]

/-- An even split stays within `bound` on every path exactly when the object
fits `bound` symbols on each. -/
theorem roundRobin_le_iff (paths : List PathPlan) (hblank : ∀ path ∈ paths, path.x = 0)
    (hpaths : paths ≠ []) (dataSymbols bound : Nat) :
    (∀ path ∈ roundRobin paths dataSymbols, path.x ≤ bound) ↔
      dataSymbols ≤ bound * paths.length := by
  have hlength : 0 < paths.length := List.length_pos_iff.mpr hpaths
  constructor
  · intro hbound
    have hfirst : 0 < (roundRobin paths dataSymbols).length := by simpa using hlength
    have hshare := roundRobin_share paths hblank dataSymbols
      (List.getElem?_eq_getElem hfirst)
    have hle := hbound _ (List.getElem_mem hfirst)
    rw [hshare, Nat.div_le_iff_le_mul_add_pred hlength, Nat.mul_comm] at hle
    omega
  · intro hfits path hpath
    obtain ⟨index, hindex⟩ := List.mem_iff_getElem?.mp hpath
    rw [roundRobin_share paths hblank dataSymbols hindex,
      Nat.div_le_iff_le_mul_add_pred hlength, Nat.mul_comm]
    omega

end Schedule

/-- `transport_path_select_physical`. -/
def pathSelectPhysical : List PathPlan → Nat → Option Nat
  | [], _ => none
  | path :: rest, packetIndex =>
      if packetIndex < path.x then
        some 0
      else
        (pathSelectPhysical rest (packetIndex - path.x)).map (· + 1)

/-! Admission debt of a path. -/

structure PathBudget where
  debt : Fixed
  rate : Fixed
  deriving DecidableEq, Repr

def pathBurstMax : Nat := 64

def pathBudgetBurst (pathflow : Pathflow) (rate : Fixed) : Nat :=
  let symbols := ((if 0 < rate then rate else pathflow.one) + 20 * pathflow.one - 1) /
    (20 * pathflow.one)
  min (max symbols.toNat 8) pathBurstMax

def pathBudgetWait (pathflow : Pathflow) (budget : PathBudget) (burst symbols : Nat) :
    Nat :=
  if burst < symbols then
    uint64Max
  else
    let required := pathflow.ofNat (burst - symbols)
    if budget.debt ≤ required then
      0
    else if budget.rate ≤ 0 then
      uint64Max
    else
      min (((budget.debt - required) * 1000000000 + budget.rate - 1) / budget.rate).toNat
        uint64Max

end Qlinq
