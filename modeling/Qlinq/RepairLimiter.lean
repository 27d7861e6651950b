import Mathlib.Data.UInt
import Qlinq.Lib.Machine
import Qlinq.Lib.TokenBucket

namespace Qlinq

/-! The token bucket of repair requests, refilled by every look at it. -/

/-- `transport_repair_limiter_t`. -/
structure RepairLimiter where
  tokensMilli : UInt64 := 0
  lastRefillMs : Int64 := 0
  deriving DecidableEq, Repr

namespace RepairLimiter

def uint64Max : UInt64 := 18446744073709551615

def capacity (requestsPerSecond : UInt64) : UInt64 := requestsPerSecond * 1000

def elapsed (limiter : RepairLimiter) (nowMs : Int64) : UInt64 :=
  (nowMs - limiter.lastRefillMs).toUInt64

def added (requestsPerSecond elapsed : UInt64) : UInt64 :=
  if uint64Max / requestsPerSecond < elapsed then capacity requestsPerSecond
  else elapsed * requestsPerSecond

/-- `refill_limiter`; `none` is its `false`. -/
def refill (limiter : RepairLimiter) (requestsPerSecond : UInt64) (nowMs : Int64) :
    Option RepairLimiter :=
  if requestsPerSecond = 0 ∨ uint64Max / 1000 < requestsPerSecond then
    none
  else
    let full := capacity requestsPerSecond
    if limiter.lastRefillMs = 0 ∨ nowMs < limiter.lastRefillMs then
      some { tokensMilli := full, lastRefillMs := nowMs }
    else if limiter.lastRefillMs < nowMs then
      let more := added requestsPerSecond (limiter.elapsed nowMs)
      some {
        tokensMilli :=
          if full - limiter.tokensMilli ≤ more then full else limiter.tokensMilli + more
        lastRefillMs := nowMs }
    else
      some limiter

/-- `transport_repair_limiter_wait_ms`. -/
def waitMs (limiter : RepairLimiter) (requestsPerSecond : UInt64) (nowMs : Int64) :
    RepairLimiter × UInt64 :=
  match limiter.refill requestsPerSecond nowMs with
  | none => (limiter, uint64Max)
  | some refilled =>
      if 1000 ≤ refilled.tokensMilli then
        (refilled, 0)
      else
        let missing := 1000 - refilled.tokensMilli
        (refilled, (missing + requestsPerSecond - 1) / requestsPerSecond)

/-- `transport_repair_limiter_take`. -/
def take (limiter : RepairLimiter) (requestsPerSecond : UInt64) (nowMs : Int64) :
    RepairLimiter × Bool :=
  match limiter.refill requestsPerSecond nowMs with
  | none => (limiter, false)
  | some refilled =>
      if refilled.tokensMilli < 1000 then
        (refilled, false)
      else
        ({ refilled with tokensMilli := refilled.tokensMilli - 1000 }, true)

inductive LimiterCall where
  | wait
  | take
  deriving DecidableEq, Repr

/-- The limiter behind a call, and whether the call took a token. -/
def step (requestsPerSecond : UInt64) (limiter : RepairLimiter) :
    LimiterCall × Int64 → RepairLimiter × Bool
  | (.wait, nowMs) => ((limiter.waitMs requestsPerSecond nowMs).1, false)
  | (.take, nowMs) => limiter.take requestsPerSecond nowMs

/-- The limiter behind a sequence of calls. -/
def run (requestsPerSecond : UInt64) (limiter : RepairLimiter)
    (calls : List (LimiterCall × Int64)) : RepairLimiter :=
  Machine.run (fun limiter call => (limiter.step requestsPerSecond call).1) limiter calls

/-- The times of the successful takes. -/
def takeTimes (requestsPerSecond : UInt64) (limiter : RepairLimiter) :
    List (LimiterCall × Int64) → List Int64
  | [] => []
  | call :: rest =>
      let (limiter, taken) := limiter.step requestsPerSecond call
      if taken then call.2 :: takeTimes requestsPerSecond limiter rest
      else takeTimes requestsPerSecond limiter rest

/-- Whether a take at `later` succeeds behind a wait at `nowMs` and more `waits`. -/
def takesAfter (limiter : RepairLimiter) (requestsPerSecond : UInt64) (nowMs : Int64)
    (waits : List Int64) (later : Int64) : Bool :=
  ((run requestsPerSecond (limiter.waitMs requestsPerSecond nowMs).1
    (waits.map (LimiterCall.wait, ·))).take requestsPerSecond later).2

/-! ### The arithmetic -/

/-- Every step of a call computes what it would without a word size. -/
structure Exact (limiter : RepairLimiter) (requestsPerSecond : UInt64) (nowMs : Int64) :
    Prop where
  capacity : (capacity requestsPerSecond).toNat = requestsPerSecond.toNat * 1000
  elapsed : ((limiter.elapsed nowMs).toNat : Int) = nowMs.toInt - limiter.lastRefillMs.toInt
  added : limiter.elapsed nowMs ≤ uint64Max / requestsPerSecond →
    (limiter.elapsed nowMs * requestsPerSecond).toNat =
      (limiter.elapsed nowMs).toNat * requestsPerSecond.toNat
  room : limiter.tokensMilli ≤ RepairLimiter.capacity requestsPerSecond
  tokens :
    ¬ RepairLimiter.capacity requestsPerSecond - limiter.tokensMilli ≤
        RepairLimiter.added requestsPerSecond (limiter.elapsed nowMs) →
      (limiter.tokensMilli +
          RepairLimiter.added requestsPerSecond (limiter.elapsed nowMs)).toNat =
        limiter.tokensMilli.toNat +
          (RepairLimiter.added requestsPerSecond (limiter.elapsed nowMs)).toNat
  missing : ∀ refilled, limiter.refill requestsPerSecond nowMs = some refilled →
    refilled.tokensMilli < 1000 →
      (1000 - refilled.tokensMilli + requestsPerSecond - 1).toNat =
        1000 - refilled.tokensMilli.toNat + requestsPerSecond.toNat - 1
  spent : ∀ refilled, limiter.refill requestsPerSecond nowMs = some refilled →
    ¬ refilled.tokensMilli < 1000 →
      (refilled.tokensMilli - 1000).toNat = refilled.tokensMilli.toNat - 1000

/-- A limiter between two calls. -/
structure Fits (requestsPerSecond : UInt64) (limiter : RepairLimiter) : Prop where
  tokens : limiter.tokensMilli.toNat ≤ 1000 * requestsPerSecond.toNat
  last : 0 ≤ limiter.lastRefillMs

theorem fits_init (requestsPerSecond : UInt64) : Fits requestsPerSecond {} where
  tokens := Nat.zero_le _
  last := by decide

variable {requestsPerSecond : UInt64} {limiter : RepairLimiter} {nowMs : Int64}

theorem toNat_capacity (hrate : requestsPerSecond ≤ 65535) :
    (capacity requestsPerSecond).toNat = requestsPerSecond.toNat * 1000 := by
  have hbound := UInt64.le_iff_toNat_le.mp hrate
  have hsize : (65535 : UInt64).toNat = 65535 := rfl
  rw [capacity, UInt64.toNat_mul]
  refine Nat.mod_eq_of_lt ?_
  show requestsPerSecond.toNat * 1000 < 2 ^ 64
  omega

theorem toNat_elapsed (hlast : 0 ≤ limiter.lastRefillMs) (hnow : limiter.lastRefillMs ≤ nowMs) :
    ((limiter.elapsed nowMs).toNat : Int) = nowMs.toInt - limiter.lastRefillMs.toInt := by
  have hsub := Int64.toInt_sub_of_le nowMs limiter.lastRefillMs hlast hnow
  have hnonneg : (0 : Int64) ≤ nowMs - limiter.lastRefillMs := by
    rw [Int64.le_iff_toInt_le, hsub]
    have := Int64.le_iff_toInt_le.mp hnow
    simp only [Int64.toInt_zero]
    omega
  rw [elapsed, Int64.toNat_toUInt64_of_le hnonneg, Int64.cast_toNatClampNeg _ hnonneg, hsub]

theorem toNat_product (hrate : 0 < requestsPerSecond) {time : UInt64}
    (hle : time ≤ uint64Max / requestsPerSecond) :
    (time * requestsPerSecond).toNat = time.toNat * requestsPerSecond.toNat := by
  rw [UInt64.toNat_mul]
  refine Nat.mod_eq_of_lt ?_
  have hdiv := UInt64.le_iff_toNat_le.mp hle
  rw [UInt64.toNat_div] at hdiv
  have hpos : 0 < requestsPerSecond.toNat := UInt64.lt_iff_toNat_lt.mp hrate
  have hproduct := (Nat.le_div_iff_mul_le hpos).mp hdiv
  have hmax : uint64Max.toNat = 18446744073709551615 := rfl
  omega

/-- What a refill adds is what the elapsed time earns, as far as the bucket can hold it. -/
theorem min_added (hrate : 0 < requestsPerSecond) (hbound : requestsPerSecond ≤ 65535)
    (time : UInt64) :
    min (requestsPerSecond.toNat * 1000) (added requestsPerSecond time).toNat =
      min (requestsPerSecond.toNat * 1000) (requestsPerSecond.toNat * time.toNat) := by
  unfold added
  split
  · next hlong =>
      have hdiv := UInt64.lt_iff_toNat_lt.mp hlong
      rw [UInt64.toNat_div] at hdiv
      have hpos : 0 < requestsPerSecond.toNat := UInt64.lt_iff_toNat_lt.mp hrate
      have hproduct := (Nat.div_lt_iff_lt_mul hpos).mp hdiv
      have hmax : uint64Max.toNat = 18446744073709551615 := rfl
      have hsize := UInt64.le_iff_toNat_le.mp hbound
      have hlit : (65535 : UInt64).toNat = 65535 := rfl
      rw [toNat_capacity hbound, Nat.mul_comm requestsPerSecond.toNat time.toNat]
      omega
  · next hshort =>
      rw [toNat_product hrate (UInt64.not_lt.mp hshort), Nat.mul_comm time.toNat]

theorem tokens_le_capacity (hbound : requestsPerSecond ≤ 65535)
    (hfits : Fits requestsPerSecond limiter) :
    limiter.tokensMilli ≤ capacity requestsPerSecond := by
  have htokens := hfits.tokens
  rw [UInt64.le_iff_toNat_le, toNat_capacity hbound]
  omega

/-- Tokens are only added where the bucket has room for more. -/
theorem toNat_sum (hbound : requestsPerSecond ≤ 65535) (hfits : Fits requestsPerSecond limiter)
    {more : UInt64} (hroom : ¬ capacity requestsPerSecond - limiter.tokensMilli ≤ more) :
    (limiter.tokensMilli + more).toNat = limiter.tokensMilli.toNat + more.toNat ∧
      limiter.tokensMilli.toNat + more.toNat < requestsPerSecond.toNat * 1000 := by
  have hcapacity := toNat_capacity hbound
  have hle := tokens_le_capacity hbound hfits
  rw [UInt64.le_iff_toNat_le, UInt64.toNat_sub_of_le _ _ hle, hcapacity] at hroom
  have hsum : limiter.tokensMilli.toNat + more.toNat < requestsPerSecond.toNat * 1000 := by
    omega
  refine ⟨?_, hsum⟩
  rw [UInt64.toNat_add]
  refine Nat.mod_eq_of_lt (hsum.trans ?_)
  have hlit := UInt64.le_iff_toNat_le.mp hbound
  have hsize : (65535 : UInt64).toNat = 65535 := rfl
  omega

theorem toNat_refilledTokens (hrate : 0 < requestsPerSecond)
    (hbound : requestsPerSecond ≤ 65535) (hfits : Fits requestsPerSecond limiter)
    (time : UInt64) :
    (if capacity requestsPerSecond - limiter.tokensMilli ≤ added requestsPerSecond time then
        capacity requestsPerSecond
      else limiter.tokensMilli + added requestsPerSecond time).toNat =
      min (requestsPerSecond.toNat * 1000)
        (limiter.tokensMilli.toNat + requestsPerSecond.toNat * time.toNat) := by
  have hmin := min_added hrate hbound time
  have hcapacity := toNat_capacity hbound
  have hle := tokens_le_capacity hbound hfits
  split
  · next hfull =>
      rw [UInt64.le_iff_toNat_le, UInt64.toNat_sub_of_le _ _ hle, hcapacity] at hfull
      rw [UInt64.le_iff_toNat_le, hcapacity] at hle
      omega
  · next hroom =>
      obtain ⟨hsum, hlt⟩ := toNat_sum hbound hfits hroom
      omega

theorem rate_admitted (hrate : 0 < requestsPerSecond) (hbound : requestsPerSecond ≤ 65535) :
    ¬ (requestsPerSecond = 0 ∨ uint64Max / 1000 < requestsPerSecond) := by
  have hthousandth : (65535 : UInt64) ≤ uint64Max / 1000 := by decide
  rintro (hzero | hlarge)
  · rw [hzero] at hrate
    exact UInt64.lt_irrefl _ hrate
  · exact UInt64.not_le.mpr hlarge (UInt64.le_trans hbound hthousandth)

theorem toNat_missing (hadmitted : ¬ (requestsPerSecond = 0 ∨ uint64Max / 1000 < requestsPerSecond))
    {tokens : UInt64} (hshort : tokens < 1000) :
    (1000 - tokens + requestsPerSecond - 1).toNat =
      1000 - tokens.toNat + requestsPerSecond.toNat - 1 := by
  obtain ⟨hzero, hlarge⟩ := not_or.mp hadmitted
  have hle : tokens ≤ 1000 := UInt64.le_of_lt hshort
  have hmissing : (1000 - tokens).toNat = 1000 - tokens.toNat := UInt64.toNat_sub_of_le _ _ hle
  have hthousandth : requestsPerSecond.toNat ≤ 18446744073709551 :=
    UInt64.le_iff_toNat_le.mp (UInt64.not_lt.mp hlarge)
  have hpos : requestsPerSecond.toNat ≠ 0 := fun hnat => hzero (UInt64.toNat_inj.mp hnat)
  have hsum : (1000 - tokens + requestsPerSecond).toNat =
      1000 - tokens.toNat + requestsPerSecond.toNat := by
    rw [UInt64.toNat_add, hmissing]
    refine Nat.mod_eq_of_lt ?_
    omega
  have hone : (1 : UInt64) ≤ 1000 - tokens + requestsPerSecond := by
    rw [UInt64.le_iff_toNat_le, hsum]
    show 1 ≤ _
    omega
  rw [UInt64.toNat_sub_of_le _ _ hone, hsum]
  rfl

theorem exact_of_fits (hrate : 0 < requestsPerSecond) (hbound : requestsPerSecond ≤ 65535)
    (hfits : Fits requestsPerSecond limiter) (hlater : limiter.lastRefillMs ≤ nowMs) :
    Exact limiter requestsPerSecond nowMs where
  capacity := toNat_capacity hbound
  elapsed := toNat_elapsed hfits.last hlater
  added := toNat_product hrate
  room := tokens_le_capacity hbound hfits
  tokens := fun hroom => (toNat_sum hbound hfits hroom).1
  missing := fun _ _ hshort => toNat_missing (rate_admitted hrate hbound) hshort
  spent := fun _ _ henough => UInt64.toNat_sub_of_le _ _ (UInt64.not_lt.mp henough)

/-! ### The limiter is a token bucket -/

def bucket (requestsPerSecond : UInt64) : TokenBucket where
  capacity := requestsPerSecond.toNat * 1000
  rate := requestsPerSecond.toNat
  cost := 1000

/-- A limiter that was never looked at is full. -/
def toState (requestsPerSecond : UInt64) (limiter : RepairLimiter) : TokenBucket.State :=
  if limiter.lastRefillMs = 0 then
    { tokens := requestsPerSecond.toNat * 1000, last := 0 }
  else
    { tokens := limiter.tokensMilli.toNat, last := limiter.lastRefillMs.toInt.toNat }

theorem last_toState (requestsPerSecond : UInt64) (limiter : RepairLimiter) :
    (toState requestsPerSecond limiter).last = limiter.lastRefillMs.toInt.toNat := by
  unfold toState
  split
  · next hzero => rw [hzero]; rfl
  · rfl

theorem toState_of_pos (hnow : 0 < nowMs) (tokensMilli : UInt64) :
    toState requestsPerSecond { tokensMilli := tokensMilli, lastRefillMs := nowMs } =
      { tokens := tokensMilli.toNat, last := nowMs.toInt.toNat } := by
  refine if_neg fun hzero => ?_
  rw [show nowMs = 0 from hzero] at hnow
  exact Int64.lt_irrefl hnow

/-- A refill at a later positive time is the bucket's. -/
theorem refill_spec (hrate : 0 < requestsPerSecond) (hbound : requestsPerSecond ≤ 65535)
    (hfits : Fits requestsPerSecond limiter) (hlater : limiter.lastRefillMs ≤ nowMs) :
    ∃ refilled, limiter.refill requestsPerSecond nowMs = some refilled ∧
      refilled.lastRefillMs = nowMs ∧
      refilled.tokensMilli.toNat = ((bucket requestsPerSecond).refill
        (toState requestsPerSecond limiter) nowMs.toInt.toNat).tokens := by
  have hcapacity := toNat_capacity hbound
  have htokens := hfits.tokens
  unfold refill
  rw [if_neg (rate_admitted hrate hbound)]
  by_cases hfresh : limiter.lastRefillMs = 0 ∨ nowMs < limiter.lastRefillMs
  · have hzero : limiter.lastRefillMs = 0 :=
      hfresh.resolve_right (Int64.not_lt.mpr hlater)
    refine ⟨_, if_pos hfresh, rfl, ?_⟩
    simp only [toState, if_pos hzero, TokenBucket.refill, bucket, hcapacity]
    omega
  have hold : limiter.lastRefillMs ≠ 0 := fun hzero => hfresh (Or.inl hzero)
  simp only [if_neg hfresh, toState, if_neg hold, TokenBucket.refill, bucket]
  have hnonneg := Int64.le_iff_toInt_le.mp hfits.last
  simp only [Int64.toInt_zero] at hnonneg
  by_cases hpassed : limiter.lastRefillMs < nowMs
  · refine ⟨_, if_pos hpassed, rfl, ?_⟩
    rw [toNat_refilledTokens hrate hbound hfits]
    have helapsed := toNat_elapsed hfits.last hlater
    congr 3
    omega
  · have hsame : limiter.lastRefillMs = nowMs :=
      Int64.le_antisymm hlater (Int64.not_lt.mp hpassed)
    refine ⟨_, if_neg hpassed, hsame, ?_⟩
    rw [hsame, Nat.sub_self, Nat.mul_zero]
    omega

def LimiterCall.toCall : LimiterCall → TokenBucket.Call
  | .wait => .look
  | .take => .take

def toCall (call : LimiterCall × Int64) : TokenBucket.Call × Nat :=
  (call.1.toCall, call.2.toInt.toNat)

/-- A call at a later positive time is the bucket's. -/
theorem step_spec (hrate : 0 < requestsPerSecond) (hbound : requestsPerSecond ≤ 65535)
    (hfits : Fits requestsPerSecond limiter) (call : LimiterCall × Int64) (hnow : 0 < call.2)
    (hlater : limiter.lastRefillMs ≤ call.2) :
    Fits requestsPerSecond (limiter.step requestsPerSecond call).1 ∧
      (limiter.step requestsPerSecond call).1.lastRefillMs = call.2 ∧
      (bucket requestsPerSecond).step (toState requestsPerSecond limiter) (toCall call) =
        (toState requestsPerSecond (limiter.step requestsPerSecond call).1,
          (limiter.step requestsPerSecond call).2) := by
  obtain ⟨kind, nowMs⟩ := call
  obtain ⟨⟨tokensMilli, last⟩, hrefill, hlast, htokens⟩ :=
    refill_spec hrate hbound hfits hlater
  simp only at hlast htokens hnow
  subst hlast
  have hfull : tokensMilli.toNat ≤ 1000 * requestsPerSecond.toNat := by
    rw [htokens, Nat.mul_comm]
    exact TokenBucket.refill_tokens_le _ _ _
  have hnonneg := Int64.le_of_lt hnow
  have hrefilled : (bucket requestsPerSecond).refill (toState requestsPerSecond limiter)
      last.toInt.toNat = toState requestsPerSecond { tokensMilli, lastRefillMs := last } := by
    rw [toState_of_pos hnow, htokens]
    rfl
  cases kind with
  | wait =>
      have hwait : (limiter.waitMs requestsPerSecond last).1 =
          { tokensMilli, lastRefillMs := last } := by
        simp only [waitMs, hrefill]
        split <;> rfl
      simp only [step, hwait, toCall, LimiterCall.toCall, TokenBucket.step, hrefilled, and_true]
      exact ⟨hfull, hnonneg⟩
  | take =>
      simp only [step, take, hrefill, toCall, LimiterCall.toCall, TokenBucket.step]
      rw [hrefilled, toState_of_pos hnow]
      have hthousand : (1000 : UInt64).toNat = 1000 := rfl
      by_cases hshort : tokensMilli < 1000
      · have hless := UInt64.lt_iff_toNat_lt.mp hshort
        rw [if_pos hshort, if_neg (by simp only [bucket]; omega), toState_of_pos hnow]
        exact ⟨⟨hfull, hnonneg⟩, rfl, rfl⟩
      · have hle := UInt64.not_lt.mp hshort
        have hspent := UInt64.toNat_sub_of_le _ _ hle
        have henough := UInt64.le_iff_toNat_le.mp hle
        rw [if_neg hshort, if_pos (by simp only [bucket]; omega), toState_of_pos hnow, hspent]
        refine ⟨⟨?_, hnonneg⟩, rfl, rfl⟩
        rw [hspent]
        exact (Nat.sub_le _ _).trans hfull

/-- Calls at nondecreasing positive times, none before `since`. -/
structure InOrder (since : Int64) (calls : List (LimiterCall × Int64)) : Prop where
  later : ∀ call ∈ calls, since ≤ call.2
  pos : ∀ call ∈ calls, 0 < call.2
  sorted : calls.Pairwise (·.2 ≤ ·.2)

theorem InOrder.tail {call : LimiterCall × Int64} {rest : List (LimiterCall × Int64)}
    (hcalls : InOrder since (call :: rest)) : InOrder call.2 rest where
  later := (List.pairwise_cons.mp hcalls.sorted).1
  pos := fun other hother => hcalls.pos other (List.mem_cons_of_mem _ hother)
  sorted := (List.pairwise_cons.mp hcalls.sorted).2

@[simp] theorem run_cons (call : LimiterCall × Int64) (rest : List (LimiterCall × Int64)) :
    run requestsPerSecond limiter (call :: rest) =
      run requestsPerSecond (limiter.step requestsPerSecond call).1 rest :=
  rfl

theorem fits_run (hrate : 0 < requestsPerSecond) (hbound : requestsPerSecond ≤ 65535)
    {calls : List (LimiterCall × Int64)} (hfits : Fits requestsPerSecond limiter)
    (hcalls : InOrder limiter.lastRefillMs calls) :
    Fits requestsPerSecond (run requestsPerSecond limiter calls) ∧
      ∀ nowMs, limiter.lastRefillMs ≤ nowMs → (∀ call ∈ calls, call.2 ≤ nowMs) →
        (run requestsPerSecond limiter calls).lastRefillMs ≤ nowMs := by
  induction calls generalizing limiter with
  | nil => exact ⟨hfits, fun _ hnow _ => hnow⟩
  | cons call rest ih =>
      obtain ⟨hnext, hlast, -⟩ := step_spec hrate hbound hfits call
        (hcalls.pos call List.mem_cons_self) (hcalls.later call List.mem_cons_self)
      obtain ⟨hrun, hends⟩ := ih hnext (hlast ▸ hcalls.tail)
      refine ⟨hrun, fun nowMs _ hbefore => hends nowMs ?_ fun other hother => ?_⟩
      · rw [hlast]
        exact hbefore call List.mem_cons_self
      · exact hbefore other (List.mem_cons_of_mem _ hother)

theorem takeTimes_spec (hrate : 0 < requestsPerSecond) (hbound : requestsPerSecond ≤ 65535)
    {calls : List (LimiterCall × Int64)} (hfits : Fits requestsPerSecond limiter)
    (hcalls : InOrder limiter.lastRefillMs calls) :
    (bucket requestsPerSecond).takeTimes (toState requestsPerSecond limiter)
        (calls.map toCall) =
      (takeTimes requestsPerSecond limiter calls).map (·.toInt.toNat) := by
  induction calls generalizing limiter with
  | nil => rfl
  | cons call rest ih =>
      obtain ⟨hnext, hlast, hstep⟩ := step_spec hrate hbound hfits call
        (hcalls.pos call List.mem_cons_self) (hcalls.later call List.mem_cons_self)
      rw [List.map_cons, TokenBucket.takeTimes, hstep]
      simp only [takeTimes]
      rw [ih hnext (hlast ▸ hcalls.tail)]
      split <;> rfl

/-! ### What a run admits -/

theorem take_iff (hrate : 0 < requestsPerSecond) (hbound : requestsPerSecond ≤ 65535)
    (hfits : Fits requestsPerSecond limiter) (hnow : 0 < nowMs)
    (hlater : limiter.lastRefillMs ≤ nowMs) :
    (limiter.take requestsPerSecond nowMs).2 = true ↔
      1000 ≤ ((bucket requestsPerSecond).refill (toState requestsPerSecond limiter)
        nowMs.toInt.toNat).tokens := by
  obtain ⟨-, -, hstep⟩ := step_spec hrate hbound hfits (.take, nowMs) hnow hlater
  have htaken := congrArg Prod.snd hstep
  simp only [toCall, LimiterCall.toCall, TokenBucket.step, step] at htaken
  rw [← htaken]
  split
  · next henough => exact iff_of_true rfl henough
  · next hshort => exact iff_of_false Bool.false_ne_true hshort

/-- The wait is what is missing after the refill, rounded up. -/
theorem toNat_waitMs (hrate : 0 < requestsPerSecond) (hbound : requestsPerSecond ≤ 65535)
    (hfits : Fits requestsPerSecond limiter) (hlater : limiter.lastRefillMs ≤ nowMs) :
    (limiter.waitMs requestsPerSecond nowMs).2.toNat =
      (1000 - ((bucket requestsPerSecond).refill (toState requestsPerSecond limiter)
        nowMs.toInt.toNat).tokens) ⌈/⌉ requestsPerSecond.toNat := by
  obtain ⟨refilled, hrefill, -, htokens⟩ := refill_spec hrate hbound hfits hlater
  simp only [waitMs, hrefill]
  rw [← htokens, Nat.ceilDiv_eq_add_pred_div]
  by_cases henough : 1000 ≤ refilled.tokensMilli
  · have hle : 1000 ≤ refilled.tokensMilli.toNat := UInt64.le_iff_toNat_le.mp henough
    have hpos : 0 < requestsPerSecond.toNat := UInt64.lt_iff_toNat_lt.mp hrate
    rw [if_pos henough, Nat.sub_eq_zero_of_le hle, Nat.zero_add]
    exact (Nat.div_eq_of_lt (Nat.sub_lt hpos Nat.one_pos)).symm
  · rw [if_neg henough, UInt64.toNat_div,
      toNat_missing (rate_admitted hrate hbound) (UInt64.not_le.mp henough)]

/-- Waits on the way to a refill change nothing. -/
theorem refill_run_waits (hrate : 0 < requestsPerSecond) (hbound : requestsPerSecond ≤ 65535)
    (hfits : Fits requestsPerSecond limiter) (waits : List Int64)
    (hwaits : InOrder limiter.lastRefillMs (waits.map (LimiterCall.wait, ·)))
    (hbefore : ∀ time ∈ waits, time ≤ later) :
    (bucket requestsPerSecond).refill
        (toState requestsPerSecond
          (run requestsPerSecond limiter (waits.map (LimiterCall.wait, ·)))) later.toInt.toNat =
      (bucket requestsPerSecond).refill (toState requestsPerSecond limiter)
        later.toInt.toNat := by
  induction waits generalizing limiter with
  | nil => rfl
  | cons time rest ih =>
      have hfirst := hwaits.later (LimiterCall.wait, time) List.mem_cons_self
      obtain ⟨hnext, hlast, hstep⟩ := step_spec hrate hbound hfits (.wait, time)
        (hwaits.pos (LimiterCall.wait, time) List.mem_cons_self) hfirst
      have hstate := congrArg Prod.fst hstep
      simp only [toCall, LimiterCall.toCall, TokenBucket.step] at hstate
      rw [List.map_cons, run_cons, ih hnext (hlast ▸ hwaits.tail)
        fun other hother => hbefore other (List.mem_cons_of_mem _ hother), ← hstate]
      refine TokenBucket.refill_refill ?_ ?_
      · rw [last_toState]
        exact Int.toNat_le_toNat (Int64.le_iff_toInt_le.mp hfirst)
      · exact Int.toNat_le_toNat
          (Int64.le_iff_toInt_le.mp (hbefore time List.mem_cons_self))

/-- A take behind waits succeeds exactly when the wait is over. -/
theorem take_after_wait_iff (hrate : 0 < requestsPerSecond)
    (hbound : requestsPerSecond ≤ 65535) (hfits : Fits requestsPerSecond limiter)
    (hnow : 0 < nowMs) (hlater : limiter.lastRefillMs ≤ nowMs) (waits : List Int64)
    (hafter : ∀ time ∈ waits, nowMs ≤ time) (hsorted : waits.Pairwise (· ≤ ·))
    (hend : nowMs ≤ later) (hbefore : ∀ time ∈ waits, time ≤ later) :
    limiter.takesAfter requestsPerSecond nowMs waits later = true ↔
      ((limiter.waitMs requestsPerSecond nowMs).2.toNat : Int) ≤
        later.toInt - nowMs.toInt := by
  obtain ⟨hnext, hlast, hstep⟩ := step_spec hrate hbound hfits (.wait, nowMs) hnow hlater
  have hstate := congrArg Prod.fst hstep
  simp only [toCall, LimiterCall.toCall, TokenBucket.step, step] at hstate hnext hlast
  have hwaits : InOrder (limiter.waitMs requestsPerSecond nowMs).1.lastRefillMs
      (waits.map (LimiterCall.wait, ·)) := by
    rw [hlast]
    constructor
    · simpa using hafter
    · simpa using fun time htime => Int64.lt_of_lt_of_le hnow (hafter time htime)
    · exact hsorted.map _ fun _ _ hle => hle
  obtain ⟨hrun, hends⟩ := fits_run hrate hbound hnext hwaits
  have hover := hends later (by rw [hlast]; exact hend) (by simpa using hbefore)
  have hlaterPos : 0 < later := Int64.lt_of_lt_of_le hnow hend
  rw [takesAfter, take_iff hrate hbound hrun hlaterPos hover,
    refill_run_waits hrate hbound hnext waits hwaits hbefore,
    toNat_waitMs hrate hbound hfits hlater, hstate]
  have hready := TokenBucket.cost_le_refill_iff (bucket requestsPerSecond)
    (s := toState requestsPerSecond (limiter.waitMs requestsPerSecond nowMs).1)
    (UInt64.lt_iff_toNat_lt.mp hrate)
    (Nat.le_mul_of_pos_left 1000 (UInt64.lt_iff_toNat_lt.mp hrate)) later.toInt.toNat
  have hdue := Int64.le_iff_toInt_le.mp hend
  have hpositive := Int64.lt_iff_toInt_lt.mp hnow
  simp only [Int64.toInt_zero] at hpositive
  rw [last_toState, hlast] at hready
  refine hready.trans ?_
  simp only [bucket]
  omega

theorem countP_takeTimes_le (hrate : 0 < requestsPerSecond)
    (hbound : requestsPerSecond ≤ 65535) {calls : List (LimiterCall × Int64)}
    (hcalls : InOrder 0 calls) (first last : Int64) :
    (takeTimes requestsPerSecond {} calls).countP (fun time => first ≤ time ∧ time ≤ last) ≤
      requestsPerSecond.toNat +
        requestsPerSecond.toNat * (last.toInt - first.toInt).toNat / 1000 := by
  have hsorted : (calls.map toCall).Pairwise (·.2 ≤ ·.2) :=
    hcalls.sorted.map _ fun _ _ hle => Int.toNat_le_toNat (Int64.le_iff_toInt_le.mp hle)
  have hwindow := TokenBucket.cost_mul_window_le (bucket requestsPerSecond)
    (s := toState requestsPerSecond {}) (fun _ _ => Nat.zero_le _) hsorted
    first.toInt.toNat last.toInt.toNat
  rw [takeTimes_spec hrate hbound (fits_init _) hcalls, List.countP_map] at hwindow
  have hcount : (takeTimes requestsPerSecond {} calls).countP
        (fun time => first ≤ time ∧ time ≤ last) ≤
      (takeTimes requestsPerSecond {} calls).countP
        ((fun time => decide (first.toInt.toNat ≤ time ∧ time ≤ last.toInt.toNat)) ∘
          (·.toInt.toNat)) := by
    refine List.countP_mono_left fun time _ hin => ?_
    simp only [decide_eq_true_eq, Function.comp_apply] at hin ⊢
    exact ⟨Int.toNat_le_toNat (Int64.le_iff_toInt_le.mp hin.1),
      Int.toNat_le_toNat (Int64.le_iff_toInt_le.mp hin.2)⟩
  have hadded : requestsPerSecond.toNat * (last.toInt.toNat - first.toInt.toNat) ≤
      requestsPerSecond.toNat * (last.toInt - first.toInt).toNat :=
    Nat.mul_le_mul_left _ (by omega)
  simp only [bucket] at hwindow
  omega

/-- Takes are limited over any time, the tokens by the capacity, no step wraps and the
wait is the least. -/
theorem limiter_admits (requestsPerSecond : UInt64) (hrate : 1 ≤ requestsPerSecond)
    (hbound : requestsPerSecond ≤ 65535) (calls : List (LimiterCall × Int64))
    (hpos : ∀ call ∈ calls, 0 < call.2) (hsorted : calls.Pairwise (·.2 ≤ ·.2)) :
    (∀ t₀ t₁ : Int64,
      (takeTimes requestsPerSecond {} calls).countP (fun time => t₀ ≤ time ∧ time ≤ t₁) ≤
        requestsPerSecond.toNat +
          requestsPerSecond.toNat * (t₁.toInt - t₀.toInt).toNat / 1000) ∧
      (run requestsPerSecond {} calls).tokensMilli.toNat ≤ 1000 * requestsPerSecond.toNat ∧
      ∀ nowMs, 0 < nowMs → (∀ call ∈ calls, call.2 ≤ nowMs) →
        Exact (run requestsPerSecond {} calls) requestsPerSecond nowMs ∧
          ∀ (waits : List Int64) (later : Int64), (∀ time ∈ waits, nowMs ≤ time) →
            waits.Pairwise (· ≤ ·) → nowMs ≤ later → (∀ time ∈ waits, time ≤ later) →
              ((run requestsPerSecond {} calls).takesAfter requestsPerSecond nowMs waits later =
                  true ↔
                (((run requestsPerSecond {} calls).waitMs requestsPerSecond nowMs).2.toNat : Int) ≤
                  later.toInt - nowMs.toInt) := by
  have hrate : 0 < requestsPerSecond := UInt64.lt_of_lt_of_le (by decide) hrate
  have hcalls : InOrder ({} : RepairLimiter).lastRefillMs calls :=
    ⟨fun call hcall => Int64.le_of_lt (hpos call hcall), hpos, hsorted⟩
  obtain ⟨hrun, hends⟩ := fits_run hrate hbound (fits_init requestsPerSecond) hcalls
  refine ⟨countP_takeTimes_le hrate hbound hcalls, hrun.tokens, fun nowMs hnow hbefore => ?_⟩
  have hlater := hends nowMs (Int64.le_of_lt hnow) hbefore
  exact ⟨exact_of_fits hrate hbound hrun hlater, fun waits later hafter hsorted hend hin =>
    take_after_wait_iff hrate hbound hrun hnow hlater waits hafter hsorted hend hin⟩

/-- Two tokens, and half a second for the third. -/
theorem two_takes_admitted :
    (∀ t₀ t₁ : Int64,
      (takeTimes 2 {} [(.take, 5), (.take, 5), (.take, 5)]).countP
          (fun time => t₀ ≤ time ∧ time ≤ t₁) ≤
        2 + 2 * (t₁.toInt - t₀.toInt).toNat / 1000) ∧
      (run 2 {} [(.take, 5), (.take, 5), (.take, 5)]).waitMs 2 5 =
        ({ tokensMilli := 0, lastRefillMs := 5 }, 500) ∧
      takeTimes 2 {} [(.take, 5), (.take, 5), (.take, 5)] = [5, 5] :=
  ⟨(limiter_admits 2 (by decide) (by decide) [(.take, 5), (.take, 5), (.take, 5)] (by decide)
      (by decide)).1, by decide, by decide⟩

end RepairLimiter

end Qlinq
