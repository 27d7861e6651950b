import Qlinq.SweepRate

namespace Qlinq

/-! When a sweep that ran out of tokens is tried again. -/

variable {limits : ConfiguredLimits}

namespace RepairLimiter

/-- A wait at the time of the last one answers the same. -/
theorem waitMs_waitMs (hrate : 0 < rate) (hbound : rate ≤ 65535) (hnow : 0 < nowMs)
    (limiter : RepairLimiter) :
    (limiter.waitMs rate nowMs).1.lastRefillMs = nowMs ∧
      ((limiter.waitMs rate nowMs).1.waitMs rate nowMs).2 = (limiter.waitMs rate nowMs).2 := by
  obtain ⟨refilled, hrefill⟩ := refill_isSome (rate_admitted hrate hbound) limiter nowMs
  have hlast : refilled.lastRefillMs = nowMs := by
    unfold refill at hrefill
    rw [if_neg (rate_admitted hrate hbound)] at hrefill
    extract_lets at hrefill
    split at hrefill
    · cases hrefill
      rfl
    next hnot =>
    split at hrefill
    · cases hrefill
      rfl
    next hpassed =>
    cases hrefill
    rw [not_or, Int64.not_lt] at hnot
    exact Int64.le_antisymm hnot.2 (Int64.not_lt.mp hpassed)
  have hagain : refilled.refill rate nowMs = some refilled := by
    have hzero : refilled.lastRefillMs ≠ 0 := fun hzero => by
      rw [hlast] at hzero
      rw [hzero] at hnow
      exact Int64.lt_irrefl hnow
    have hfresh : ¬ (refilled.lastRefillMs = 0 ∨ nowMs < refilled.lastRefillMs) := by
      rw [not_or, hlast]
      exact ⟨hlast ▸ hzero, Int64.lt_irrefl⟩
    rw [refill, if_neg (rate_admitted hrate hbound), if_neg hfresh,
      if_neg (by rw [hlast]; exact Int64.lt_irrefl)]
  have hwait : limiter.waitMs rate nowMs = (refilled, (limiter.waitMs rate nowMs).2) := by
    simp only [waitMs, hrefill]
    split <;> rfl
  rw [hwait]
  refine ⟨hlast, ?_⟩
  simp only [waitMs, hrefill, hagain]

/-- Behind a wait, a later look finds a token exactly when the wait is over. -/
theorem waitMs_eq_zero_iff (hrate : 0 < rate) (hbound : rate ≤ 65535) (hfits : Fits rate limiter)
    (hlast : limiter.lastRefillMs = nowMs) (hnow : 0 < nowMs) (hlater : nowMs ≤ later) :
    (limiter.waitMs rate later).2 = 0 ↔
      ((limiter.waitMs rate nowMs).2.toNat : Int) ≤ later.toInt - nowMs.toInt := by
  have hpos : 0 < rate.toNat := UInt64.lt_iff_toNat_lt.mp hrate
  have htokens : ∀ at', limiter.lastRefillMs ≤ at' → (limiter.waitMs rate at').2.toNat = _ :=
    fun at' hle => toNat_waitMs hrate hbound hfits hle
  have hsame : (bucket rate).refill (toState rate limiter) nowMs.toInt.toNat =
      toState rate limiter := by
    have hfull : (toState rate limiter).tokens ≤ rate.toNat * 1000 := by
      have hle := hfits.tokens
      unfold toState
      split
      · exact Nat.le_refl _
      · rw [Nat.mul_comm]
        exact hle
    have hat : (toState rate limiter).last = nowMs.toInt.toNat := by
      rw [last_toState, hlast]
    rw [TokenBucket.refill, ← hat, Nat.sub_self, Nat.mul_zero, Nat.add_zero]
    exact TokenBucket.State.mk.injEq .. ▸ ⟨Nat.min_eq_right hfull, rfl⟩
  have hready := TokenBucket.cost_le_refill_iff (bucket rate) (s := toState rate limiter) hpos
    (Nat.le_mul_of_pos_left 1000 hpos) later.toInt.toNat
  have hzero : (limiter.waitMs rate later).2 = 0 ↔ (limiter.waitMs rate later).2.toNat = 0 :=
    ⟨fun h => by rw [h]; rfl, fun h => UInt64.toNat_inj.mp h⟩
  have hdue := Int64.le_iff_toInt_le.mp hlater
  have hpositive := Int64.lt_iff_toInt_lt.mp hnow
  simp only [Int64.toInt_zero] at hpositive
  rw [hzero, htokens later (hlast ▸ hlater), htokens nowMs (Int64.le_of_eq hlast), hsame]
  rw [last_toState, hlast] at hready
  have hwaits : (1000 - ((bucket rate).refill (toState rate limiter) later.toInt.toNat).tokens)
      ⌈/⌉ rate.toNat = 0 ↔
        1000 ≤ ((bucket rate).refill (toState rate limiter) later.toInt.toNat).tokens := by
    rw [← Nat.le_zero, ceilDiv_le_iff_le_mul hpos]
    omega
  rw [hwaits]
  refine hready.trans ?_
  simp only [bucket]
  omega

/-- No wait is longer than a second. -/
theorem toNat_waitMs_le (hrate : 0 < rate) (hbound : rate ≤ 65535) (hfits : Fits rate limiter)
    (hlater : limiter.lastRefillMs ≤ nowMs) : (limiter.waitMs rate nowMs).2.toNat ≤ 1000 := by
  have hpos : 0 < rate.toNat := UInt64.lt_iff_toNat_lt.mp hrate
  rw [toNat_waitMs hrate hbound hfits hlater, ceilDiv_le_iff_le_mul hpos]
  exact (Nat.sub_le ..).trans (Nat.le_mul_of_pos_left 1000 hpos)

end RepairLimiter

theorem timely_append {steps : List (NackStep limits)} {since : Int64} {env : SweepEnv}
    (htimely : Timely since (steps ++ [.sweep env])) :
    Timely since steps ∧ 0 < env.nowMs ∧ env.Steady := by
  induction steps generalizing since with
  | nil => exact ⟨trivial, htimely.2.1, htimely.2.2.1⟩
  | cons step rest ih =>
      cases step with
      | sweep env' =>
          obtain ⟨hsince, hpos, hsteady, hrest⟩ := htimely
          exact ⟨⟨hsince, hpos, hsteady, (ih hrest).1⟩, (ih hrest).2⟩
      | request index indexedOnly clock request =>
          obtain ⟨hsince, hpos, hclock, hrest⟩ := htimely
          exact ⟨⟨hsince, hpos, hclock, (ih hrest).1⟩, (ih hrest).2⟩
      | others peers stats => exact ih htimely

namespace NackTransport

/-- The retry time is the end of the wait, short of the end of time. -/
theorem retryAt_le_iff {wait : UInt64} (hnow : 0 < nowMs) (hwait : wait.toNat ≤ 1000)
    (hlater : nowMs ≤ later) (hend : later < Int64.maxValue) :
    retryAt nowMs wait ≤ later ↔ (wait.toNat : Int) ≤ later.toInt - nowMs.toInt := by
  have hmax : wait ≠ RepairLimiter.uint64Max := fun heq => by
    rw [heq] at hwait
    exact absurd hwait (by decide)
  have hbefore := Int64.lt_iff_toInt_lt.mp hend
  have hmaxInt : Int64.maxValue.toInt = 9223372036854775807 := rfl
  have hroom : ((Int64.maxValue - nowMs).toUInt64.toNat : Int) =
      Int64.maxValue.toInt - nowMs.toInt :=
    @RepairLimiter.toNat_elapsed { lastRefillMs := nowMs } Int64.maxValue (Int64.le_of_lt hnow)
      (Int64.le_of_lt (Int64.lt_of_le_of_lt hlater hend))
  have hdue := Int64.le_iff_toInt_le.mp hlater
  have hpositive := Int64.lt_iff_toInt_lt.mp hnow
  simp only [Int64.toInt_zero] at hpositive
  unfold retryAt
  by_cases hover : (Int64.maxValue - nowMs).toUInt64 < wait
  · rw [if_pos (Or.inr hover), Int64.le_iff_toInt_le]
    have hless := UInt64.lt_iff_toNat_lt.mp hover
    omega
  · rw [if_neg (not_or.mpr ⟨hmax, hover⟩), Int64.le_iff_toInt_le]
    have hfits := UInt64.le_iff_toNat_le.mp (UInt64.not_lt.mp hover)
    have hsmall : wait.toInt64.toInt = wait.toNat := by
      rw [← Int64.toInt_toBitVec, UInt64.toBitVec_toInt64]
      exact BitVec.toInt_eq_toNat_of_lt (by rw [UInt64.toNat_toBitVec]; omega)
    have hvalue : (nowMs + wait.toInt64).toInt = nowMs.toInt + wait.toNat := by
      rw [Int64.toInt_add, hsmall]
      exact Int.bmod_eq_of_le (by omega) (by omega)
    rw [hvalue]
    omega

theorem fits_run {configured : ConfiguredLimits} (hresolve : configured.resolve = .ok limits)
    {t : NackTransport limits} (hfresh : t.aggregateLimiter.toRepairLimiter = {})
    {steps : List (NackStep limits)} (htimely : Timely 0 steps) :
    (Machine.run apply t steps).aggregateLimiter.toRepairLimiter.Fits limits.aggregateNackRate := by
  obtain ⟨hrate, hbound, -⟩ := aggregateNackRate_of_resolve hresolve
  obtain ⟨calls, horder, hrun, -⟩ := accounted_run t htimely
  have hpos : 0 < limits.aggregateNackRate := UInt64.lt_of_lt_of_le (by decide) hrate
  rw [hrun, hfresh]
  exact (RepairLimiter.fits_run hpos hbound (RepairLimiter.fits_init _) horder).1

/-- A sweep that runs out of tokens leaves the first time at which there is one again: it is
neither tried in vain nor late. -/
theorem retry_is_exact {configured : ConfiguredLimits}
    (hresolve : configured.resolve = .ok limits) (t : NackTransport limits)
    (hfresh : t.aggregateLimiter.toRepairLimiter = {}) (steps : List (NackStep limits))
    (env : SweepEnv) (htimely : Timely 0 (steps ++ [.sweep env])) :
    let swept := (Machine.run apply t steps).recoverySweep env
    (swept.1.wait = 0 → swept.1.transport.retryAtMs = 0) ∧
      (swept.1.wait ≠ 0 → ∀ later, env.nowMs ≤ later → later < Int64.maxValue →
        ((swept.1.transport.aggregateLimiter.waitMs later).2 = 0 ↔
          swept.1.transport.retryAtMs ≤ later)) := by
  intro swept
  obtain ⟨hrate, hbound, -⟩ := aggregateNackRate_of_resolve hresolve
  have hpos : 0 < limits.aggregateNackRate := UInt64.lt_of_lt_of_le (by decide) hrate
  have hfits := fits_run hresolve hfresh htimely
  rw [Machine.run_append] at hfits
  have hnow : 0 < env.nowMs := (timely_append htimely).2.1
  obtain ⟨-, -, hanswered, hretry⟩ :=
    recoverySweep_spec (Machine.run apply t steps) env
  refine ⟨fun hzero => hretry.trans (if_pos hzero), fun hcut later hlater hend => ?_⟩
  obtain ⟨before, hlimiter, hwait⟩ := hanswered hcut
  obtain ⟨hlast, hagain⟩ := RepairLimiter.waitMs_waitMs hpos hbound hnow before.toRepairLimiter
  have hhere : (swept.1.transport.aggregateLimiter.toRepairLimiter).lastRefillMs = env.nowMs := by
    change ((Machine.run apply t steps).recoverySweep
      env).1.transport.aggregateLimiter.lastRefillMs = env.nowMs
    rw [hlimiter]
    exact hlast
  have hsame : (swept.1.transport.aggregateLimiter.toRepairLimiter.waitMs limits.aggregateNackRate
      env.nowMs).2 = swept.1.wait := by
    change ((((Machine.run apply t steps).recoverySweep env).1.transport.aggregateLimiter
      ).toRepairLimiter.waitMs limits.aggregateNackRate env.nowMs).2 = _
    rw [hlimiter]
    exact hagain.trans hwait.symm
  have hsmall := RepairLimiter.toNat_waitMs_le hpos hbound hfits (Int64.le_of_eq hhere)
  have hfree := RepairLimiter.waitMs_eq_zero_iff hpos hbound hfits hhere hnow hlater
  change (swept.1.transport.aggregateLimiter.toRepairLimiter.waitMs limits.aggregateNackRate
    later).2 = 0 ↔ _
  rw [show swept.1.transport.retryAtMs = retryAt env.nowMs swept.1.wait from
    hretry.trans (if_neg hcut)]
  rw [← hsame]
  exact hfree.trans (retryAt_le_iff hnow hsmall hlater hend).symm

theorem retry_after_a_second :
    let swept := (lossyTransport.recoverySweep (steadyEnv 1000)).1
    swept.transport.retryAtMs = 2000 ∧
      (swept.transport.aggregateLimiter.waitMs 1999).2 ≠ 0 ∧
      (swept.transport.aggregateLimiter.waitMs 2000).2 = 0 := by
  intro swept
  have hresolve : tightConfig.resolve = .ok tightConfig.withDefaults := by decide +kernel
  have htimely : Timely 0 ([.sweep (steadyEnv 1000)] : List (NackStep tightConfig.withDefaults)) :=
    ⟨by decide, by decide, fun _ => ⟨rfl, rfl⟩, trivial⟩
  have hcut : swept.wait ≠ 0 := by decide +kernel
  have hretry : swept.transport.retryAtMs = 2000 := by decide +kernel
  have hexact := (retry_is_exact hresolve lossyTransport rfl [] (steadyEnv 1000) htimely).2 hcut
  change ∀ later : Int64, 1000 ≤ later → later < Int64.maxValue →
    ((swept.transport.aggregateLimiter.waitMs later).2 = 0 ↔
      swept.transport.retryAtMs ≤ later) at hexact
  rw [hretry] at hexact
  refine ⟨hretry, fun hzero => ?_, (hexact 2000 (by decide) (by decide)).mpr (by decide)⟩
  exact absurd ((hexact 1999 (by decide) (by decide)).mp hzero) (by decide)

end NackTransport

end Qlinq
