import Mathlib.Logic.Function.Iterate
import Mathlib.Order.Bounds.Defs
import Qlinq.Publisher

namespace Qlinq

/-! The admission debt of a path: it is repaid at the path's rate and grows with every
symbol that is queued there. -/

/-- What is known of the fixed-point numbers. -/
structure Pathflow.FixedPoint (pathflow : Pathflow) : Prop where
  one_pos : 0 < pathflow.one
  ofNat_eq : ∀ n, pathflow.ofNat n = n * pathflow.one

/-- `transport_path_budget_t`. -/
structure PacedBudget extends PathBudget where
  debt := 0
  rate := 0
  atNs : Nat := 0
  deriving DecidableEq, Repr

/-- One attempt to publish on a path: its rate and the time, the symbols that the plan gives
to the path, and how many of them are queued if they are admitted. -/
structure BudgetAttempt where
  rate : Fixed
  nowNs : Nat
  symbols : Nat
  queued : Nat
  queued_le : queued ≤ symbols

namespace PacedBudget

/-- `transport_path_budget_update`. -/
def update (budget : PacedBudget) (rate : Fixed) (nowNs : Nat) : PacedBudget :=
  let debt := if nowNs < budget.atNs then 0 else budget.debt
  let drained := budget.rate * (nowNs - budget.atNs : Nat) / 1000000000
  { debt := if debt ≤ drained then 0 else debt - drained
    rate := if 0 < rate then rate else 1
    atNs := nowNs }

/-- `transport_path_budget_charge`. -/
def charge (pathflow : Pathflow) (budget : PacedBudget) : PacedBudget :=
  { budget with debt := budget.debt + pathflow.one }

/-- The burst that an allocation is admitted with. -/
def allocationBurst (pathflow : Pathflow) (budget : PacedBudget) (symbols : Nat) : Nat :=
  max (pathBudgetBurst pathflow budget.rate) symbols

def admitted (pathflow : Pathflow) (budget : PacedBudget) (symbols : Nat) : Bool :=
  symbols != 0 &&
    pathBudgetWait pathflow budget.toPathBudget (budget.allocationBurst pathflow symbols) symbols == 0

def attempt (pathflow : Pathflow) (budget : PacedBudget) (attempt : BudgetAttempt) :
    PacedBudget :=
  let updated := budget.update attempt.rate attempt.nowNs
  if updated.admitted pathflow attempt.symbols then
    (charge pathflow)^[attempt.queued] updated
  else
    updated

def run (pathflow : Pathflow) (budget : PacedBudget) (attempts : List BudgetAttempt) :
    PacedBudget :=
  attempts.foldl (PacedBudget.attempt pathflow) budget

/-- The largest burst that an allocation was admitted with: the path's own one at the rate
it had then, or the allocation. -/
def largestBurst (pathflow : Pathflow) (budget : PacedBudget) : List BudgetAttempt → Nat
  | [] => 0
  | attempt :: rest =>
      let updated := budget.update attempt.rate attempt.nowNs
      max (if updated.admitted pathflow attempt.symbols then
          updated.allocationBurst pathflow attempt.symbols
        else
          0)
        (largestBurst pathflow (budget.attempt pathflow attempt) rest)

/-- An allocation fits within a burst beside the debt. -/
def Admits (pathflow : Pathflow) (budget : PacedBudget) (burst symbols : Nat) : Prop :=
  budget.debt + pathflow.ofNat symbols ≤ pathflow.ofNat burst

/-- A rate is only missing before the first update, while nothing is owed. -/
structure Paced (budget : PacedBudget) : Prop where
  debt_nonneg : 0 ≤ budget.debt
  rate_pos : budget.debt ≠ 0 → 0 < budget.rate
  rate_nonneg : 0 ≤ budget.rate

variable {pathflow : Pathflow} {budget : PacedBudget}

theorem Paced.rate_of_owed (hpaced : budget.Paced) (hrequired : 0 ≤ required)
    (howed : required < budget.debt) : 0 < budget.rate :=
  hpaced.rate_pos (Int.ne_of_gt (Int.lt_of_le_of_lt hrequired howed))

/-! ### Updates -/

theorem paced_initial : Paced {} where
  debt_nonneg := by decide
  rate_pos := by decide
  rate_nonneg := by decide

theorem drained_nonneg (hpaced : budget.Paced) (nowNs : Nat) :
    0 ≤ budget.rate * (nowNs - budget.atNs : Nat) / 1000000000 :=
  Int.ediv_nonneg (Int.mul_nonneg hpaced.rate_nonneg (Int.natCast_nonneg _)) (by decide)

theorem update_rate_pos (budget : PacedBudget) (rate : Fixed) (nowNs : Nat) :
    0 < (budget.update rate nowNs).rate := by
  simp only [update]
  split
  · next hrate => exact hrate
  · decide

/-- An update repays, but not more than is owed. -/
theorem update_debt_eq (budget : PacedBudget) (rate : Fixed) (nowNs : Nat) :
    (budget.update rate nowNs).debt =
      max 0 ((if nowNs < budget.atNs then 0 else budget.debt) -
        budget.rate * (nowNs - budget.atNs : Nat) / 1000000000) := by
  simp only [update, Fixed]
  omega

theorem update_debt_nonneg (budget : PacedBudget) (rate : Fixed) (nowNs : Nat) :
    0 ≤ (budget.update rate nowNs).debt := by
  rw [update_debt_eq]
  exact Int.le_max_left _ _

theorem update_debt_le (hpaced : budget.Paced) (rate : Fixed) (nowNs : Nat) :
    (budget.update rate nowNs).debt ≤ budget.debt := by
  have hdebt := hpaced.debt_nonneg
  have hdrained := drained_nonneg hpaced nowNs
  rw [update_debt_eq]
  simp only [Fixed] at *
  split <;> omega

theorem paced_update (budget : PacedBudget) (rate : Fixed) (nowNs : Nat) :
    (budget.update rate nowNs).Paced where
  debt_nonneg := update_debt_nonneg budget rate nowNs
  rate_pos := fun _ => update_rate_pos budget rate nowNs
  rate_nonneg := Int.le_of_lt (update_rate_pos budget rate nowNs)

/-- While the clock runs on, an update repays what the rate gives, rounded down. -/
theorem update_debt_later (budget : PacedBudget) (rate : Fixed) (ns : Nat) :
    (budget.update rate (budget.atNs + ns)).debt =
      max 0 (budget.debt - budget.rate * ns / 1000000000) := by
  have hforward : ¬ budget.atNs + ns < budget.atNs := by omega
  rw [update_debt_eq, if_neg hforward, Nat.add_sub_cancel_left]

/-! ### Waiting -/

/-- Rounded up, the time to repay is the least one whose repayment, rounded down, is enough. -/
theorem le_repaid_iff {needed rate : Int} (hrate : 0 < rate) (ns : Nat) :
    needed ≤ rate * ns / 1000000000 ↔
      ((needed * 1000000000 + rate - 1) / rate).toNat ≤ ns := by
  have hbehind : (needed * 1000000000 + rate - 1) / rate < (ns : Int) + 1 ↔
      needed * 1000000000 + rate - 1 < rate * ns + rate := by
    rw [Int.ediv_lt_iff_lt_mul hrate, Int.add_mul, Int.one_mul, Int.mul_comm (ns : Int)]
  rw [Int.le_ediv_iff_mul_le (by decide), Int.toNat_le]
  omega

theorem admits_iff (hfixed : pathflow.FixedPoint) (hsymbols : symbols ≤ burst) :
    budget.Admits pathflow burst symbols ↔ budget.debt ≤ pathflow.ofNat (burst - symbols) := by
  simp only [Admits, hfixed.ofNat_eq, Int.ofNat_sub hsymbols, Int.sub_mul, Fixed]
  omega

theorem required_nonneg (hfixed : pathflow.FixedPoint) (n : Nat) : 0 ≤ pathflow.ofNat n := by
  rw [hfixed.ofNat_eq]
  exact Int.mul_nonneg (Int.natCast_nonneg n) (Int.le_of_lt hfixed.one_pos)

/-- Which waits an allocation is admissible after. -/
theorem admits_update_iff (hfixed : pathflow.FixedPoint) (hsymbols : symbols ≤ burst)
    (ns : Nat) :
    (budget.update budget.rate (budget.atNs + ns)).Admits pathflow burst symbols ↔
      budget.debt - pathflow.ofNat (burst - symbols) ≤ budget.rate * ns / 1000000000 := by
  have hrequired := required_nonneg hfixed (burst - symbols)
  rw [admits_iff hfixed hsymbols, update_debt_later]
  simp only [Fixed] at *
  omega

theorem wait_eq_zero_iff (hfixed : pathflow.FixedPoint) (hpaced : budget.Paced)
    (hsymbols : symbols ≤ burst) :
    pathBudgetWait pathflow budget.toPathBudget burst symbols = 0 ↔
      budget.Admits pathflow burst symbols := by
  have hrequired := required_nonneg hfixed (burst - symbols)
  rw [admits_iff hfixed hsymbols]
  simp only [pathBudgetWait, if_neg (Nat.not_lt.mpr hsymbols)]
  constructor
  · intro hzero
    by_contra howed
    have hrate := hpaced.rate_of_owed hrequired (Int.not_le.mp howed)
    rw [if_neg howed, if_neg (Int.not_le.mpr hrate)] at hzero
    have hmax : 0 < uint64Max := by decide
    have hnow : budget.debt - pathflow.ofNat (burst - symbols) ≤ budget.rate * (0 : Nat) /
        1000000000 := (le_repaid_iff hrate 0).mpr (by omega)
    rw [Int.natCast_zero, Int.mul_zero, Int.zero_ediv] at hnow
    exact howed (Int.le_of_sub_nonpos hnow)
  · intro hadmits
    rw [if_pos hadmits]

/-- The answer is the least wait, unless that one leaves 64 bits. -/
theorem wait_least (hfixed : pathflow.FixedPoint) (hpaced : budget.Paced)
    (hsymbols : symbols ≤ burst) :
    ∃ least, IsLeast {ns : Nat |
        (budget.update budget.rate (budget.atNs + ns)).Admits pathflow burst symbols} least ∧
      pathBudgetWait pathflow budget.toPathBudget burst symbols = min least uint64Max := by
  have hadmits := @admits_update_iff _ budget _ _ hfixed hsymbols
  rcases Int.lt_or_le (pathflow.ofNat (burst - symbols)) budget.debt with howed | hrepaid
  · have hrate := hpaced.rate_of_owed (required_nonneg hfixed _) howed
    have hrounded := @le_repaid_iff (budget.debt - pathflow.ofNat (burst - symbols)) _ hrate
    refine ⟨_, ⟨(hadmits _).mpr ((hrounded _).mpr (Nat.le_refl _)), ?_⟩, ?_⟩
    · intro ns hns
      exact (hrounded ns).mp ((hadmits ns).mp hns)
    · simp only [pathBudgetWait, if_neg (Nat.not_lt.mpr hsymbols), if_neg (Int.not_le.mpr howed),
        if_neg (Int.not_le.mpr hrate)]
  · refine ⟨0, ⟨(hadmits 0).mpr ?_, fun ns _ => Nat.zero_le ns⟩, ?_⟩
    · rw [Int.natCast_zero, Int.mul_zero, Int.zero_ediv]
      exact Int.sub_nonpos_of_le hrepaid
    · rw [(wait_eq_zero_iff hfixed hpaced hsymbols).mpr ((admits_iff hfixed hsymbols).mpr hrepaid)]
      rfl

/-! ### Charges -/

@[simp] theorem charges_rate (pathflow : Pathflow) (budget : PacedBudget) (queued : Nat) :
    ((charge pathflow)^[queued] budget).rate = budget.rate := by
  induction queued with
  | zero => rfl
  | succ queued ih => rw [Function.iterate_succ_apply', charge, ih]

theorem charges_debt (hfixed : pathflow.FixedPoint) (budget : PacedBudget) (queued : Nat) :
    ((charge pathflow)^[queued] budget).debt = budget.debt + pathflow.ofNat queued := by
  rw [hfixed.ofNat_eq]
  induction queued with
  | zero => simp
  | succ queued ih =>
      rw [Function.iterate_succ_apply', charge, ih, Int.natCast_succ, Int.add_mul, Int.one_mul,
        Int.add_assoc]

theorem ofNat_mono (hfixed : pathflow.FixedPoint) (hle : m ≤ n) :
    pathflow.ofNat m ≤ pathflow.ofNat n := by
  rw [hfixed.ofNat_eq, hfixed.ofNat_eq]
  exact Int.mul_le_mul_of_nonneg_right (Int.ofNat_le.mpr hle) (Int.le_of_lt hfixed.one_pos)

theorem paced_attempt (hfixed : pathflow.FixedPoint) (budget : PacedBudget)
    (attempt : BudgetAttempt) : (budget.attempt pathflow attempt).Paced := by
  have hupdated := paced_update budget attempt.rate attempt.nowNs
  have hrate := update_rate_pos budget attempt.rate attempt.nowNs
  unfold PacedBudget.attempt
  extract_lets updated
  split
  · have hqueued := required_nonneg hfixed attempt.queued
    have hdebt := hupdated.debt_nonneg
    exact
      { debt_nonneg := by
          rw [charges_debt hfixed]
          exact Int.add_nonneg hdebt hqueued
        rate_pos := fun _ => by
          rw [charges_rate]
          exact hrate
        rate_nonneg := by
          rw [charges_rate]
          exact Int.le_of_lt hrate }
  · exact hupdated

/-- What is admitted leaves a debt within its burst. -/
theorem attempt_debt_le (hfixed : pathflow.FixedPoint) (hpaced : budget.Paced)
    (hdebt : budget.debt ≤ pathflow.ofNat bound) (attempt : BudgetAttempt) :
    (budget.attempt pathflow attempt).debt ≤ pathflow.ofNat
      (max bound (if (budget.update attempt.rate attempt.nowNs).admitted pathflow attempt.symbols
        then (budget.update attempt.rate attempt.nowNs).allocationBurst pathflow attempt.symbols
        else 0)) := by
  have hupdated := update_debt_le hpaced attempt.rate attempt.nowNs
  unfold PacedBudget.attempt
  extract_lets updated
  split
  · next hadmitted =>
      have hwait := eq_of_beq (Bool.and_eq_true_iff.mp hadmitted).2
      have hadmits := (wait_eq_zero_iff hfixed (paced_update budget _ _)
        (Nat.le_max_right _ attempt.symbols)).mp hwait
      have hqueued := ofNat_mono hfixed attempt.queued_le
      calc ((charge pathflow)^[attempt.queued] updated).debt
        _ = updated.debt + pathflow.ofNat attempt.queued := charges_debt hfixed _ _
        _ ≤ updated.debt + pathflow.ofNat attempt.symbols := Int.add_le_add_left hqueued _
        _ ≤ pathflow.ofNat (updated.allocationBurst pathflow attempt.symbols) := hadmits
        _ ≤ _ := ofNat_mono hfixed (Nat.le_max_right _ _)
  · exact Int.le_trans (Int.le_trans hupdated hdebt) (ofNat_mono hfixed (Nat.le_max_left _ _))

/-! ### Runs -/

theorem paced_run (hfixed : pathflow.FixedPoint) (hpaced : budget.Paced)
    (attempts : List BudgetAttempt) : (budget.run pathflow attempts).Paced := by
  induction attempts generalizing budget with
  | nil => exact hpaced
  | cons attempt rest ih => exact ih (paced_attempt hfixed budget attempt)

theorem run_debt_le (hfixed : pathflow.FixedPoint) (hpaced : budget.Paced)
    (hdebt : budget.debt ≤ pathflow.ofNat bound) (attempts : List BudgetAttempt) :
    (budget.run pathflow attempts).debt ≤
      pathflow.ofNat (max bound (budget.largestBurst pathflow attempts)) := by
  induction attempts generalizing budget bound with
  | nil => exact Int.le_trans hdebt (ofNat_mono hfixed (Nat.le_max_left _ _))
  | cons attempt rest ih =>
      have hrest := ih (paced_attempt hfixed budget attempt)
        (attempt_debt_le hfixed hpaced hdebt attempt)
      rw [Nat.max_assoc] at hrest
      exact hrest

/-- What holds of a path's debt after any attempts. -/
structure SoundlyPaced (pathflow : Pathflow) (budget : PacedBudget) (bound : Nat) : Prop where
  debt_nonneg : 0 ≤ budget.debt
  update_nonneg : ∀ rate nowNs, 0 ≤ (budget.update rate nowNs).debt
  update_le : ∀ rate nowNs, (budget.update rate nowNs).debt ≤ budget.debt
  wait_zero : ∀ burst symbols, symbols ≤ burst →
    (pathBudgetWait pathflow budget.toPathBudget burst symbols = 0 ↔
      budget.Admits pathflow burst symbols)
  wait_least : ∀ burst symbols, symbols ≤ burst → ∃ least,
    IsLeast {ns : Nat |
      (budget.update budget.rate (budget.atNs + ns)).Admits pathflow burst symbols} least ∧
    pathBudgetWait pathflow budget.toPathBudget burst symbols = min least uint64Max
  debt_le : budget.debt ≤ pathflow.ofNat bound

/-- Over every sequence of attempts, whatever the rates and the clock do. -/
theorem soundlyPaced_run (hfixed : pathflow.FixedPoint) (attempts : List BudgetAttempt) :
    (run pathflow {} attempts).SoundlyPaced pathflow (largestBurst pathflow {} attempts) := by
  have hpaced := paced_run hfixed paced_initial attempts
  have hdebt := @run_debt_le pathflow {} 0 hfixed paced_initial (required_nonneg hfixed 0) attempts
  exact
    { debt_nonneg := hpaced.debt_nonneg
      update_nonneg := update_debt_nonneg _
      update_le := update_debt_le hpaced
      wait_zero := fun _ _ => wait_eq_zero_iff hfixed hpaced
      wait_least := fun _ _ => PacedBudget.wait_least hfixed hpaced
      debt_le := by rwa [Nat.zero_max] at hdebt }

theorem fixedPoint_firstPathflow : Transport.firstPathflow.FixedPoint where
  one_pos := by decide
  ofNat_eq := fun n => Int.mul_comm 65536 n

/-- Eight symbols of a fast path, then one look at it as a slow one. -/
def slowedDown : List BudgetAttempt :=
  [{ rate := 6553600, nowNs := 1000000000, symbols := 8, queued := 8, queued_le := by decide },
    { rate := 65536, nowNs := 1010000000, symbols := 0, queued := 0, queued_le := by decide }]

theorem soundlyPaced_slowedDown :
    (run Transport.firstPathflow {} slowedDown).SoundlyPaced Transport.firstPathflow
      (largestBurst Transport.firstPathflow {} slowedDown) :=
  soundlyPaced_run fixedPoint_firstPathflow slowedDown

/-- Debt of a burst at a high rate is still owed when the rate, and with it the path's burst,
has gone down. -/
theorem debt_outlives_burst :
    ¬ ∀ attempts : List BudgetAttempt,
      (run Transport.firstPathflow {} attempts).debt ≤
        Transport.firstPathflow.ofNat
          (max (pathBudgetBurst Transport.firstPathflow
              (run Transport.firstPathflow {} attempts).rate)
            ((attempts.map (·.symbols)).foldr max 0)) := by
  intro hbound
  have hslow := hbound
    (List.replicate 2
      { rate := 83886080, nowNs := 0, symbols := 8, queued := 8, queued_le := by decide } ++
      [{ rate := 65536, nowNs := 0, symbols := 0, queued := 0, queued_le := by decide }])
  revert hslow
  decide

end PacedBudget

end Qlinq
