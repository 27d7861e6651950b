import Mathlib.Algebra.Order.Floor.Div
import Qlinq.AssemblerReception

namespace Qlinq

/-! How many assemblers a connection uses for the payload rate it measured. -/

/-- The symbols of an object as a datagram's header announces them. -/
structure ObjectGeometry where
  totalSymbols : Nat
  symbolSize : Nat
  total_pos : 0 < totalSymbols
  total_lt : totalSymbols < 2 ^ 16
  size_pos : 0 < symbolSize
  size_lt : symbolSize < 2 ^ 16

namespace ObjectGeometry

def bytes (geometry : ObjectGeometry) : Nat := geometry.totalSymbols * geometry.symbolSize

theorem bytes_pos (geometry : ObjectGeometry) : 0 < geometry.bytes :=
  Nat.mul_pos geometry.total_pos geometry.size_pos

theorem bytes_lt (geometry : ObjectGeometry) : geometry.bytes < 2 ^ 32 :=
  calc geometry.bytes
    _ < 2 ^ 16 * 2 ^ 16 :=
        Nat.mul_lt_mul_of_lt_of_le geometry.total_lt geometry.size_lt.le (by decide)
    _ = 2 ^ 32 := by decide

end ObjectGeometry

namespace AssemblerWindow

/-- What happens to a connection's window; the cap stays as it is configured. -/
inductive Op where
  | received (payloadBytes nowMs : Nat)
  | sized (rttsMs : List Nat) (geometry : ObjectGeometry)

def step (cap : Nat) (window : AssemblerWindow) : Op → AssemblerWindow
  | .received payloadBytes nowMs => window.observeReceive payloadBytes nowMs
  | .sized rttsMs geometry =>
      (window.resize cap rttsMs geometry.totalSymbols geometry.symbolSize).1

def run (cap : Nat) (window : AssemblerWindow) (ops : List Op) : AssemblerWindow :=
  ops.foldl (step cap) window

/-- The answer to a call. -/
def answer (window : AssemblerWindow) (cap : Nat) (rttsMs : List Nat)
    (geometry : ObjectGeometry) : Nat :=
  (window.resize cap rttsMs geometry.totalSymbols geometry.symbolSize).2

/-- A connection that measured a rate and was not asked for its window yet. -/
def fresh (window : AssemblerWindow) (rate : Nat) : AssemblerWindow :=
  { window with limit := 0, rxRate := rate }

/-- The longest round-trip time of a path, at least 25 ms. -/
def rtt (rttsMs : List Nat) : Nat := rttsMs.foldl max 25

def bdp (rate : Nat) (rttsMs : List Nat) : Nat := min uint64Max (rate * rtt rttsMs / 1000)

/-- Two bandwidth-delay products of objects and a small reorder floor. -/
def ideal (cap rate : Nat) (rttsMs : List Nat) (geometry : ObjectGeometry) : Nat :=
  min cap (min cap minAssemblerWindow + (2 * bdp rate rttsMs) ⌈/⌉ geometry.bytes)

/-- A window sized for `rate` is the ideal one, a lower rate gives no larger one, and no
later call answers less. -/
structure SizedFor (window : AssemblerWindow) (cap rate : Nat) (rttsMs : List Nat)
    (geometry : ObjectGeometry) : Prop where
  exact : (window.fresh rate).answer cap rttsMs geometry = ideal cap rate rttsMs geometry
  mono : ∀ slower ≤ rate, (window.fresh slower).answer cap rttsMs geometry ≤
    (window.fresh rate).answer cap rttsMs geometry
  lasting : ∀ ops laterRttsMs later, (window.fresh rate).answer cap rttsMs geometry ≤
    ((window.fresh rate).run cap (.sized rttsMs geometry :: ops)).answer cap laterRttsMs later

@[simp] theorem fresh_rxRate (window : AssemblerWindow) (rate : Nat) :
    (window.fresh rate).rxRate = rate := rfl

theorem rtt_pos (rttsMs : List Nat) : 0 < rtt rttsMs := by
  suffices h : ∀ least, least ≤ rttsMs.foldl max least from
    Nat.lt_of_lt_of_le (by decide) (h 25)
  induction rttsMs with
  | nil => exact fun least => Nat.le_refl least
  | cons rttMs rest ih => exact fun least => (Nat.le_max_left _ _).trans (ih _)

theorem limit_observeReceive (window : AssemblerWindow) (payloadBytes nowMs : Nat) :
    (window.observeReceive payloadBytes nowMs).limit = window.limit := by
  unfold observeReceive
  split
  · rfl
  split
  · rfl
  extract_lets bytes elapsed rate
  split <;> rfl

theorem resize_eq (window : AssemblerWindow) (cap : Nat) (rttsMs : List Nat)
    (geometry : ObjectGeometry) :
    window.resize cap rttsMs geometry.totalSymbols geometry.symbolSize =
      ({ window with limit := window.answer cap rttsMs geometry },
        window.answer cap rttsMs geometry) := by
  have hvalid : ¬ (geometry.totalSymbols = 0 ∨ geometry.symbolSize = 0) := by
    have := geometry.total_pos
    have := geometry.size_pos
    omega
  simp only [answer, resize, if_neg hvalid]

/-- An answer is the largest of the floor, what is wanted and what was answered before. -/
theorem answer_eq (window : AssemblerWindow) (cap : Nat) (rttsMs : List Nat)
    (geometry : ObjectGeometry) :
    window.answer cap rttsMs geometry =
      max (max window.limit (min cap minAssemblerWindow))
        (min cap (window.target cap rttsMs geometry.totalSymbols geometry.symbolSize)) := by
  have hvalid : ¬ (geometry.totalSymbols = 0 ∨ geometry.symbolSize = 0) := by
    have := geometry.total_pos
    have := geometry.size_pos
    omega
  simp only [answer, resize, if_neg hvalid]
  generalize window.target cap rttsMs geometry.totalSymbols geometry.symbolSize = target
  split <;> split <;> omega

theorem limit_le_answer (window : AssemblerWindow) (cap : Nat) (rttsMs : List Nat)
    (geometry : ObjectGeometry) : window.limit ≤ window.answer cap rttsMs geometry := by
  rw [answer_eq]
  omega

theorem limit_le_step (window : AssemblerWindow) (cap : Nat) (op : Op) :
    window.limit ≤ (window.step cap op).limit := by
  cases op with
  | received payloadBytes nowMs => exact (limit_observeReceive window _ _).ge
  | sized rttsMs geometry =>
      simp only [step, resize_eq]
      exact limit_le_answer window cap rttsMs geometry

theorem limit_le_run (window : AssemblerWindow) (cap : Nat) (ops : List Op) :
    window.limit ≤ (window.run cap ops).limit := by
  induction ops generalizing window with
  | nil => exact Nat.le_refl _
  | cons op ops ih => exact (limit_le_step window cap op).trans (ih _)

/-- Whatever happens between two calls, the later one answers no less. -/
theorem answer_le_later (window : AssemblerWindow) (cap : Nat) (rttsMs : List Nat)
    (geometry : ObjectGeometry) (ops : List Op) (laterRttsMs : List Nat)
    (later : ObjectGeometry) :
    window.answer cap rttsMs geometry ≤
      (window.run cap (.sized rttsMs geometry :: ops)).answer cap laterRttsMs later := by
  have hafter : (window.step cap (.sized rttsMs geometry)).limit =
      window.answer cap rttsMs geometry := by
    simp only [step, resize_eq]
  calc window.answer cap rttsMs geometry
    _ = (window.step cap (.sized rttsMs geometry)).limit := hafter.symm
    _ ≤ (window.run cap (.sized rttsMs geometry :: ops)).limit :=
        limit_le_run (window.step cap (.sized rttsMs geometry)) cap ops
    _ ≤ _ := limit_le_answer _ cap laterRttsMs later

/-- Below the limit of 64 bits the code's numerator does not wrap. -/
theorem target_of_fits (window : AssemblerWindow) (cap : Nat) (geometry : ObjectGeometry)
    (hfits : window.rxRate * rtt rttsMs < 2 ^ 64) :
    window.target cap rttsMs geometry.totalSymbols geometry.symbolSize =
      min cap minAssemblerWindow + (2 * bdp window.rxRate rttsMs) ⌈/⌉ geometry.bytes := by
  have hunsaturated : ¬ uint64Max / rtt rttsMs < window.rxRate := by
    rw [Nat.not_lt, Nat.le_div_iff_mul_le (rtt_pos rttsMs)]
    exact Nat.le_of_lt_succ hfits
  have hbdp : bdp window.rxRate rttsMs = window.rxRate * rtt rttsMs / 1000 := by
    apply Nat.min_eq_right
    change _ ≤ 2 ^ 64 - 1
    omega
  have hbytes := geometry.bytes_lt
  have hpos := geometry.bytes_pos
  have hsmall : window.rxRate * rtt rttsMs / 1000 < 2 ^ 55 := by omega
  have hhalf : uint64Max / 2 = 2 ^ 63 - 1 := by decide
  have hminimum : min cap minAssemblerWindow ≤ 8 := Nat.min_le_right _ _
  simp only [target, ← rtt.eq_1, if_neg hunsaturated, hbdp, ← ObjectGeometry.bytes.eq_1,
    Nat.ceilDiv_eq_add_pred_div]
  generalize window.rxRate * rtt rttsMs / 1000 = product at hsmall ⊢
  split
  · next hzero =>
      rw [hzero, Nat.mul_zero, Nat.zero_add, Nat.div_eq_of_lt (by omega), Nat.add_zero]
  · have hquotient : (2 * product + geometry.bytes - 1) / geometry.bytes ≤
        2 * product + geometry.bytes - 1 := Nat.div_le_self _ _
    rw [if_neg (by omega), Nat.mul_comm product 2,
      Nat.mod_eq_of_lt (show 2 * product + geometry.bytes - 1 < 2 ^ 64 by omega),
      Nat.mod_eq_of_lt (by omega)]

/-- Beyond it the added size of an object wraps the saturated product around to nothing. -/
theorem target_of_wraps (window : AssemblerWindow) (cap : Nat) (geometry : ObjectGeometry)
    (hwraps : 2 ^ 64 ≤ window.rxRate * rtt rttsMs) :
    min cap (window.target cap rttsMs geometry.totalSymbols geometry.symbolSize) ≤
      min cap minAssemblerWindow := by
  have hsaturated : uint64Max / rtt rttsMs < window.rxRate := by
    rw [Nat.div_lt_iff_lt_mul (rtt_pos rttsMs)]
    exact hwraps
  have hbytes := geometry.bytes_lt
  have hpos := geometry.bytes_pos
  have hhalf : uint64Max / 2 < uint64Max := by decide
  have hfloor : minAssemblerWindow = 8 := rfl
  simp only [target, ← rtt.eq_1, if_pos hsaturated, if_pos hhalf, ← ObjectGeometry.bytes.eq_1,
    if_neg (show uint64Max ≠ 0 by decide)]
  rw [show uint64Max = 2 ^ 64 - 1 from rfl]
  rcases Nat.lt_or_ge 1 geometry.bytes with hlarge | hone
  · have hnothing : (2 ^ 64 - 1 + geometry.bytes - 1) % 2 ^ 64 / geometry.bytes = 0 := by
      apply Nat.div_eq_of_lt
      omega
    rw [hnothing]
    omega
  · have hunit : geometry.bytes = 1 := by omega
    rw [hunit, Nat.div_one]
    omega

theorem answer_of_fits (window : AssemblerWindow) (cap : Nat) (geometry : ObjectGeometry)
    (hfits : rate * rtt rttsMs < 2 ^ 64) :
    (window.fresh rate).answer cap rttsMs geometry = ideal cap rate rttsMs geometry := by
  rw [answer_eq, target_of_fits (window.fresh rate) cap geometry hfits]
  simp only [fresh, ideal]
  omega

theorem answer_of_wraps (window : AssemblerWindow) (cap : Nat) (geometry : ObjectGeometry)
    (hwraps : 2 ^ 64 ≤ rate * rtt rttsMs) :
    (window.fresh rate).answer cap rttsMs geometry = min cap minAssemblerWindow := by
  have htarget := target_of_wraps (window.fresh rate) cap geometry hwraps
  rw [answer_eq]
  simp only [fresh] at htarget ⊢
  omega

theorem ideal_mono (cap : Nat) (rttsMs : List Nat) (geometry : ObjectGeometry)
    (hrates : slower ≤ rate) :
    ideal cap slower rttsMs geometry ≤ ideal cap rate rttsMs geometry := by
  have hproduct : slower * rtt rttsMs / 1000 ≤ rate * rtt rttsMs / 1000 :=
    Nat.div_le_div_right (Nat.mul_le_mul_right _ hrates)
  have hbdp : 2 * bdp slower rttsMs ≤ 2 * bdp rate rttsMs := by
    simp only [bdp]
    omega
  have hobjects : (2 * bdp slower rttsMs) ⌈/⌉ geometry.bytes ≤
      (2 * bdp rate rttsMs) ⌈/⌉ geometry.bytes := by
    rw [ceilDiv_le_iff_le_mul geometry.bytes_pos]
    exact hbdp.trans ((ceilDiv_le_iff_le_mul geometry.bytes_pos).mp (Nat.le_refl _))
  simp only [ideal]
  omega

/-- A product beyond 64 bits is never nothing. -/
theorem objects_pos_of_wraps (geometry : ObjectGeometry)
    (hwraps : 2 ^ 64 ≤ rate * rtt rttsMs) :
    0 < (2 * bdp rate rttsMs) ⌈/⌉ geometry.bytes := by
  have hbdp : 0 < bdp rate rttsMs := by
    have hmax : 0 < uint64Max := by decide
    simp only [bdp]
    omega
  by_contra hnone
  have hzero := (ceilDiv_le_iff_le_mul geometry.bytes_pos).mp (Nat.le_of_not_lt hnone)
  omega

/-- A window is sized for its rate unless rate and round-trip time leave 64 bits, where only
a cap within the floor hides it. -/
theorem sizedFor_iff (window : AssemblerWindow) (cap rate : Nat) (rttsMs : List Nat)
    (geometry : ObjectGeometry) :
    window.SizedFor cap rate rttsMs geometry ↔
      cap ≤ minAssemblerWindow ∨ rate * rtt rttsMs < 2 ^ 64 := by
  constructor
  · intro hsized
    rcases Nat.lt_or_ge (rate * rtt rttsMs) (2 ^ 64) with hfits | hwraps
    · exact .inr hfits
    · have hexact := hsized.exact
      have hobjects := objects_pos_of_wraps geometry hwraps
      rw [answer_of_wraps window cap geometry hwraps, ideal] at hexact
      exact .inl (by omega)
  · intro hcondition
    have hideal : ∀ slower ≤ rate,
        (window.fresh slower).answer cap rttsMs geometry =
          ideal cap slower rttsMs geometry := by
      intro slower hslower
      rcases Nat.lt_or_ge (slower * rtt rttsMs) (2 ^ 64) with hfits | hwraps
      · exact answer_of_fits window cap geometry hfits
      · have hproduct := Nat.mul_le_mul_right (rtt rttsMs) hslower
        rw [answer_of_wraps window cap geometry hwraps, ideal]
        omega
    exact
      { exact := hideal rate (Nat.le_refl _)
        mono := by
          intro slower hslower
          rw [hideal slower hslower, hideal rate (Nat.le_refl _)]
          exact ideal_mono cap rttsMs geometry hslower
        lasting := answer_le_later _ cap rttsMs geometry }

/-- At the largest rate a connection falls back to the floor. -/
theorem largest_rate_falls_to_floor :
    ¬ ({} : AssemblerWindow).SizedFor 1024 uint64Max []
      { totalSymbols := 8, symbolSize := 1000, total_pos := by decide, total_lt := by decide,
        size_pos := by decide, size_lt := by decide } := by
  intro hsized
  have hexact := hsized.exact
  revert hexact
  decide

end AssemblerWindow

end Qlinq
