import Mathlib.Tactic.Ring

/-! Numbers as fixed counts of bytes, most significant first. -/

namespace BigEndian

def ofBytes (bytes : List UInt8) : Nat :=
  bytes.foldl (fun value byte => value * 256 + byte.toNat) 0

/-- The `width` low bytes of a number. -/
def toBytes : (width value : Nat) → List UInt8
  | 0, _ => []
  | width + 1, value => UInt8.ofNat (value / 256 ^ width) :: toBytes width value

@[simp] theorem ofBytes_nil : ofBytes [] = 0 :=
  rfl

theorem foldl_bytes (start : Nat) (bytes : List UInt8) :
    bytes.foldl (fun value byte => value * 256 + byte.toNat) start =
      start * 256 ^ bytes.length + ofBytes bytes := by
  induction bytes generalizing start with
  | nil => simp
  | cons byte rest ih =>
      rw [ofBytes, List.foldl_cons, List.foldl_cons, ih, ih, List.length_cons]
      ring

theorem ofBytes_cons (byte : UInt8) (bytes : List UInt8) :
    ofBytes (byte :: bytes) = byte.toNat * 256 ^ bytes.length + ofBytes bytes := by
  rw [ofBytes, List.foldl_cons, foldl_bytes]
  ring

@[simp] theorem length_toBytes (width value : Nat) : (toBytes width value).length = width := by
  induction width with
  | zero => rfl
  | succ width ih => rw [toBytes, List.length_cons, ih]

theorem ofBytes_toBytes (width value : Nat) :
    ofBytes (toBytes width value) = value % 256 ^ width := by
  induction width with
  | zero => simp [toBytes, Nat.mod_one]
  | succ width ih =>
      have hbyte : (UInt8.ofNat (value / 256 ^ width)).toNat = value / 256 ^ width % 256 :=
        UInt8.toNat_ofNat'
      rw [toBytes, ofBytes_cons, length_toBytes, ih, hbyte, Nat.pow_succ, Nat.mod_mul]
      ring

theorem ofBytes_toBytes_of_lt (hvalue : value < 256 ^ width) :
    ofBytes (toBytes width value) = value := by
  rw [ofBytes_toBytes, Nat.mod_eq_of_lt hvalue]

theorem ofBytes_lt (bytes : List UInt8) : ofBytes bytes < 256 ^ bytes.length := by
  induction bytes with
  | nil => simp
  | cons byte rest ih =>
      have hbyte := byte.toNat_lt
      rw [ofBytes_cons, List.length_cons, Nat.pow_succ]
      calc byte.toNat * 256 ^ rest.length + ofBytes rest
          < byte.toNat * 256 ^ rest.length + 256 ^ rest.length := by omega
        _ = (byte.toNat + 1) * 256 ^ rest.length := by ring
        _ ≤ 256 * 256 ^ rest.length := Nat.mul_le_mul_right _ (by omega)
        _ = 256 ^ rest.length * 256 := Nat.mul_comm _ _

theorem toBytes_add_mul (width high low : Nat) :
    toBytes width (high * 256 ^ width + low) = toBytes width low := by
  induction width generalizing high with
  | zero => rfl
  | succ width ih =>
      have hpos : 0 < 256 ^ width := Nat.pow_pos (by decide)
      have hsplit : high * 256 ^ (width + 1) + low = high * 256 * 256 ^ width + low := by
        ring
      have hdiv : (high * 256 * 256 ^ width + low) / 256 ^ width =
          high * 256 + low / 256 ^ width := by
        rw [Nat.add_comm, Nat.add_mul_div_right _ _ hpos, Nat.add_comm]
      have hbyte : UInt8.ofNat (high * 256 + low / 256 ^ width) =
          UInt8.ofNat (low / 256 ^ width) := by
        apply UInt8.toNat_inj.mp
        rw [UInt8.toNat_ofNat', UInt8.toNat_ofNat']
        omega
      rw [toBytes, toBytes, hsplit, ih, hdiv, hbyte]

/-- Writing a number that was read gives the bytes back. -/
theorem toBytes_ofBytes (bytes : List UInt8) :
    toBytes bytes.length (ofBytes bytes) = bytes := by
  induction bytes with
  | nil => rfl
  | cons byte rest ih =>
      have hpos : 0 < 256 ^ rest.length := Nat.pow_pos (by decide)
      have hdiv : (byte.toNat * 256 ^ rest.length + ofBytes rest) / 256 ^ rest.length =
          byte.toNat := by
        rw [Nat.add_comm, Nat.add_mul_div_right _ _ hpos,
          Nat.div_eq_of_lt (ofBytes_lt rest), Nat.zero_add]
      rw [List.length_cons, ofBytes_cons, toBytes, hdiv, toBytes_add_mul, ih,
        UInt8.ofNat_toNat]

end BigEndian
