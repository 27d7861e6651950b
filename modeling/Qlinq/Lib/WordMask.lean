import Mathlib.Data.Nat.Basic
import Mathlib.Tactic.Common

/-! Bit masks stored as an array of 64-bit words.  Bit `index` lives in word
`index / 64`, at position `index % 64`. -/

def WordMask (words : Nat) := Fin words → BitVec 64

namespace WordMask

def zero : WordMask words := fun _ => 0#64

def test (mask : WordMask words) (index : Nat) : Bool :=
  if h : index / 64 < words then
    (mask ⟨index / 64, h⟩).getLsbD (index % 64)
  else
    false

def set (mask : WordMask words) (index : Nat) : WordMask words := fun word =>
  if word.val = index / 64 then
    mask word ||| (1#64 <<< (index % 64))
  else
    mask word

def clear (mask : WordMask words) (index : Nat) : WordMask words := fun word =>
  if word.val = index / 64 then
    mask word &&& ~~~(1#64 <<< (index % 64))
  else
    mask word

/-- The first bit of the words from `word` on; `bits` is what is left of the first word. -/
def nextInWords (mask : WordMask words) : Nat → Nat → BitVec 64 → Nat
  | 0, _, _ => words * 64
  | fuel + 1, word, bits =>
      if bits ≠ 0#64 then
        word * 64 + bits.ctz.toNat
      else if h : word + 1 < words then
        mask.nextInWords fuel (word + 1) (mask ⟨word + 1, h⟩)
      else
        words * 64

/-- The first bit that is set at `first` or above it, else the number of bits. -/
def nextSet (mask : WordMask words) (first : Nat) : Nat :=
  if h : first / 64 < words then
    mask.nextInWords words (first / 64)
      (mask ⟨first / 64, h⟩ &&& (BitVec.allOnes 64 <<< (first % 64)))
  else
    words * 64

/-- Move every bit `distance` places up.  A word receives the low part of the
word `distance / 64` below it and the carry of the word below that one. -/
def shiftUp (mask : WordMask words) (distance : Nat) : WordMask words := fun dst =>
  let wordShift := distance / 64
  let bitShift := distance % 64
  if dst.val < wordShift then
    0#64
  else
    let src : Fin words := ⟨dst.val - wordShift, by omega⟩
    let low := mask src <<< bitShift
    if bitShift ≠ 0 ∧ 0 < src.val then
      low ||| (mask ⟨src.val - 1, by omega⟩ >>> (64 - bitShift))
    else
      low

@[simp] theorem test_zero (index : Nat) :
    (zero : WordMask words).test index = false := by
  simp [test, zero]

theorem test_of_ge {mask : WordMask words} {index : Nat}
    (houtside : words * 64 ≤ index) : mask.test index = false := by
  have : ¬ index / 64 < words := by omega
  simp [test, this]

theorem test_word (mask : WordMask words) {word position : Nat}
    (hword : word < words) (hposition : position < 64) :
    mask.test (64 * word + position) = (mask ⟨word, hword⟩).getLsbD position := by
  have hquotient : (64 * word + position) / 64 = word := by omega
  have hremainder : (64 * word + position) % 64 = position := by omega
  simp only [test, hquotient, hremainder, hword, dif_pos]

theorem test_set (mask : WordMask words) {index : Nat}
    (hindex : index < words * 64) (other : Nat) :
    (mask.set index).test other = (mask.test other || decide (other = index)) := by
  by_cases hother : other < words * 64
  · have hword : other / 64 < words := by omega
    have hlt : other % 64 < 64 := Nat.mod_lt _ (by decide)
    rw [show other = 64 * (other / 64) + other % 64 by omega,
      test_word _ hword hlt, test_word _ hword hlt]
    by_cases hsame : other / 64 = index / 64
    · have hposition : index % 64 = other % 64 ↔
          64 * (other / 64) + other % 64 = index := by omega
      have hbit : index % 64 < 64 := Nat.mod_lt _ (by decide)
      simp only [set, hsame, if_true, BitVec.getLsbD_or, ← BitVec.twoPow_eq,
        BitVec.getLsbD_twoPow, hbit, decide_true, Bool.true_and]
      congr 1
      exact decide_eq_decide.mpr (by omega)
    · have hne : 64 * (other / 64) + other % 64 ≠ index := by omega
      simp [set, hsame, hne]
  · have hne : other ≠ index := by omega
    rw [test_of_ge (by omega), test_of_ge (by omega)]
    simp [hne]

theorem test_clear (mask : WordMask words) (index other : Nat) :
    (mask.clear index).test other = (mask.test other && !decide (other = index)) := by
  by_cases hother : other < words * 64
  · have hword : other / 64 < words := by omega
    have hlt : other % 64 < 64 := Nat.mod_lt _ (by decide)
    rw [show other = 64 * (other / 64) + other % 64 by omega,
      test_word _ hword hlt, test_word _ hword hlt]
    by_cases hsame : other / 64 = index / 64
    · have hposition : index % 64 = other % 64 ↔
          64 * (other / 64) + other % 64 = index := by omega
      have hbit : index % 64 < 64 := Nat.mod_lt _ (by decide)
      simp only [clear, hsame, if_true, BitVec.getLsbD_and, BitVec.getLsbD_not,
        ← BitVec.twoPow_eq, BitVec.getLsbD_twoPow, hbit, hlt, decide_true, Bool.true_and]
      congr 2
      exact decide_eq_decide.mpr (by omega)
    · have hne : 64 * (other / 64) + other % 64 ≠ index := by omega
      simp [clear, hsame, hne]
  · rw [test_of_ge (by omega), test_of_ge (by omega), Bool.false_and]

/-- `found` is the first bit set from `first` on, or the number of bits where none is. -/
structure FirstSet (mask : WordMask words) (first found : Nat) : Prop where
  le : found ≤ words * 64
  set : found < words * 64 → first ≤ found ∧ mask.test found = true
  clear : ∀ index, first ≤ index → index < found → mask.test index = false

private theorem firstSet_nextInWords (mask : WordMask words) {word low fuel : Nat}
    {bits : BitVec 64} (hword : word < words) (hlow : low < 64) (hfuel : words ≤ word + fuel)
    (hbits : ∀ position, bits.getLsbD position =
      (decide (low ≤ position) && (mask ⟨word, hword⟩).getLsbD position)) :
    mask.FirstSet (64 * word + low) (mask.nextInWords fuel word bits) := by
  induction fuel generalizing word low bits with
  | zero => omega
  | succ fuel ih =>
      have hhere : ∀ position < 64, low ≤ position →
          mask.test (64 * word + position) = bits.getLsbD position := by
        intro position hposition hle
        rw [test_word mask hword hposition, hbits, decide_eq_true hle, Bool.true_and]
      unfold nextInWords
      split
      · next hne =>
        have hlt : bits.ctz.toNat < 64 := by
          have := BitVec.lt_def.mp (BitVec.ctz_lt_iff_ne_zero.mpr hne)
          simpa using this
        have htrue := BitVec.getLsbD_true_ctz_of_ne_zero hne
        have hle : low ≤ bits.ctz.toNat := by
          have hset := htrue
          rw [hbits, Bool.and_eq_true, decide_eq_true_eq] at hset
          exact hset.1
        refine ⟨by omega, fun _ => ⟨by omega, ?_⟩, fun index hfirst hindex => ?_⟩
        · rw [Nat.mul_comm word, hhere _ hlt hle]
          exact htrue
        · have hsplit : index = 64 * word + (index - 64 * word) := by omega
          rw [hsplit, hhere _ (by omega) (by omega)]
          exact BitVec.getLsbD_false_of_lt_ctz (by omega)
      · next hzero =>
        have hblank : ∀ position < 64, low ≤ position →
            mask.test (64 * word + position) = false := by
          intro position hposition hle
          rw [hhere position hposition hle, not_not.mp hzero, BitVec.getLsbD_zero]
        split
        · next hnext =>
          have hrest := @ih (word + 1) 0 (mask ⟨word + 1, hnext⟩) hnext (by decide) (by omega)
            fun position => by simp
          refine ⟨hrest.le, fun h => ⟨?_, (hrest.set h).2⟩, fun index hfirst hindex => ?_⟩
          · have := (hrest.set h).1
            omega
          · by_cases hbelow : index < 64 * (word + 1)
            · have hsplit : index = 64 * word + (index - 64 * word) := by omega
              rw [hsplit]
              exact hblank _ (by omega) (by omega)
            · exact hrest.clear index (by omega) hindex
        · next hlast =>
          refine ⟨Nat.le_refl _, fun h => absurd h (Nat.lt_irrefl _), fun index hfirst hindex => ?_⟩
          have hsplit : index = 64 * word + (index - 64 * word) := by omega
          rw [hsplit]
          exact hblank _ (by omega) (by omega)

theorem firstSet_nextSet (mask : WordMask words) (first : Nat) :
    mask.FirstSet first (mask.nextSet first) := by
  unfold nextSet
  split
  · next hword =>
    have hbits : ∀ position, (mask ⟨first / 64, hword⟩ &&&
        (BitVec.allOnes 64 <<< (first % 64))).getLsbD position =
          (decide (first % 64 ≤ position) && (mask ⟨first / 64, hword⟩).getLsbD position) := by
      intro position
      rw [BitVec.getLsbD_and, BitVec.getLsbD_shiftLeft, BitVec.getLsbD_allOnes, Bool.and_comm]
      rcases Nat.lt_or_ge position 64 with hposition | hposition
      · have hoffset : position - first % 64 < 64 := by omega
        rw [decide_eq_true hposition, decide_eq_true hoffset, Bool.and_true, Bool.true_and,
          ← decide_not, decide_eq_decide.mpr Nat.not_lt]
      · simp [BitVec.getLsbD_of_ge _ _ hposition]
    have hfound := firstSet_nextInWords mask hword (Nat.mod_lt first (by decide : 0 < 64))
      (Nat.le_add_left words (first / 64)) hbits
    rw [Nat.div_add_mod] at hfound
    exact hfound
  · next hword =>
    refine ⟨Nat.le_refl _, fun h => absurd h (Nat.lt_irrefl _), fun index hfirst hindex => ?_⟩
    omega

private theorem word_shiftUp (mask : WordMask words) {distance dst position : Nat}
    (hdst : dst < words) (hposition : position < 64)
    (hdistance : distance ≤ 64 * dst + position) :
    (mask.shiftUp distance ⟨dst, hdst⟩).getLsbD position =
      mask.test (64 * dst + position - distance) := by
  have hshift : ¬ dst < distance / 64 := by omega
  by_cases hlow : distance % 64 ≤ position
  · -- The bit comes from the word `distance / 64` below.
    have hsource : 64 * dst + position - distance =
        64 * (dst - distance / 64) + (position - distance % 64) := by omega
    rw [hsource, test_word _ (by omega) (by omega)]
    simp only [shiftUp, hshift, if_false]
    split
    · rw [BitVec.getLsbD_or, BitVec.getLsbD_shiftLeft,
        BitVec.getLsbD_ushiftRight]
      have hcarry : 64 ≤ 64 - distance % 64 + position := by omega
      simp [hposition, hlow, BitVec.getLsbD_of_ge _ _ hcarry]
    · rw [BitVec.getLsbD_shiftLeft]
      have : ¬ position < distance % 64 := by omega
      simp only [hposition, this, decide_true, decide_false, Bool.not_false,
        Bool.true_and]
  · -- The bit is carried over from the word below that one.
    have hbelow : 0 < dst - distance / 64 := by omega
    have hsource : 64 * dst + position - distance =
        64 * (dst - distance / 64 - 1) + (64 - distance % 64 + position) := by
      omega
    rw [hsource, test_word _ (by omega) (by omega)]
    have hcarry : distance % 64 ≠ 0 ∧ 0 < dst - distance / 64 := by omega
    simp only [shiftUp, hshift, if_false, hcarry, and_self, if_true, ne_eq,
      not_false_eq_true]
    rw [BitVec.getLsbD_or, BitVec.getLsbD_shiftLeft, BitVec.getLsbD_ushiftRight]
    have : position < distance % 64 := by omega
    simp [this]

theorem test_shiftUp (mask : WordMask words) (distance index : Nat) :
    (mask.shiftUp distance).test index =
      (decide (index < words * 64) && decide (distance ≤ index) &&
        mask.test (index - distance)) := by
  by_cases hinside : index < words * 64
  · have hword : index / 64 < words := by omega
    have hlt : index % 64 < 64 := Nat.mod_lt _ (by decide)
    have hindex : index = 64 * (index / 64) + index % 64 := by omega
    rw [hindex, test_word _ hword hlt, ← hindex]
    by_cases hdistance : distance ≤ index
    · rw [word_shiftUp mask hword hlt (by omega), ← hindex]
      simp [hinside, hdistance]
    · have hshifted : index / 64 < distance / 64 ∨
          (index / 64 = distance / 64 ∧ index % 64 < distance % 64) := by omega
      rcases hshifted with hbelow | ⟨hsame, hbit⟩
      · simp [shiftUp, hbelow, hdistance]
      · have hshift : ¬ distance / 64 < distance / 64 := by omega
        simp [shiftUp, hsame, hdistance, BitVec.getLsbD_shiftLeft, hbit]
  · rw [test_of_ge (by omega)]
    simp [hinside]

end WordMask
