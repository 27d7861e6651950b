import Mathlib.Tactic.Common

/-! Messages laid out at fixed offsets of a buffer: a store of some bytes at an offset
and the slices a reader takes. -/

namespace Layout

/-- An offset and the bytes stored there. -/
abbrev Store := Nat × List UInt8

def slice (src : List UInt8) (offset length : Nat) : List UInt8 :=
  (src.drop offset).take length

def store (dst : List UInt8) (offset : Nat) (bytes : List UInt8) : List UInt8 :=
  dst.take offset ++ bytes ++ dst.drop (offset + bytes.length)

def storeAll (dst : List UInt8) (stores : List Store) : List UInt8 :=
  stores.foldl (fun dst s => store dst s.1 s.2) dst

/-- Each store begins where the one before it ends. -/
def Contiguous : Nat → List Store → Prop
  | _, [] => True
  | offset, s :: rest => s.1 = offset ∧ Contiguous (offset + s.2.length) rest

def bytes (stores : List Store) : List UInt8 := stores.flatMap (·.2)

/-- Every store's bytes are found at its offset. -/
def Holds (src : List UInt8) (stores : List Store) : Prop :=
  ∀ s ∈ stores, slice src s.1 s.2.length = s.2

theorem slice_zero (src : List UInt8) (length : Nat) : slice src 0 length = src.take length :=
  rfl

theorem length_slice {src : List UInt8} (hinside : offset + length ≤ src.length) :
    (slice src offset length).length = length := by
  rw [slice, List.length_take, List.length_drop]
  omega

theorem slice_append_slice (src : List UInt8) (offset first second : Nat) :
    slice src offset first ++ slice src (offset + first) second =
      slice src offset (first + second) := by
  simp only [slice]
  rw [List.take_add, List.drop_drop]

theorem store_cursor {front : List UInt8} (hfront : front.length = offset)
    (dst stored : List UInt8) :
    store (front ++ dst.drop offset) offset stored =
      (front ++ stored) ++ dst.drop (offset + stored.length) := by
  have htake : (front ++ dst.drop offset).take offset = front := List.take_left' hfront
  have hdrop : (front ++ dst.drop offset).drop (offset + stored.length) =
      dst.drop (offset + stored.length) := by
    rw [← List.drop_drop, List.drop_left' hfront, List.drop_drop]
  rw [store, htake, hdrop]

/-- Contiguous stores fill the buffer from the front. -/
theorem storeAll_cursor (hcontiguous : Contiguous offset stores)
    (hfront : front.length = offset) (dst : List UInt8) :
    storeAll (front ++ dst.drop offset) stores =
      front ++ bytes stores ++ dst.drop (offset + (bytes stores).length) := by
  induction stores generalizing offset front with
  | nil => simp [storeAll, bytes]
  | cons s rest ih =>
      obtain ⟨hoffset, hrest⟩ := hcontiguous
      have hlength : (front ++ s.2).length = offset + s.2.length := by
        rw [List.length_append, hfront]
      have hall := ih hrest hlength
      simp only [storeAll, List.foldl_cons] at hall ⊢
      rw [hoffset, store_cursor hfront, hall]
      simp only [bytes, List.flatMap_cons, List.append_assoc, List.length_append,
        Nat.add_assoc]

theorem storeAll_eq (hcontiguous : Contiguous 0 stores) (dst : List UInt8) :
    storeAll dst stores = bytes stores ++ dst.drop (bytes stores).length := by
  simpa using storeAll_cursor hcontiguous (List.length_nil : ([] : List UInt8).length = 0) dst

theorem take_storeAll (hcontiguous : Contiguous 0 stores) (dst : List UInt8) :
    (storeAll dst stores).take (bytes stores).length = bytes stores := by
  rw [storeAll_eq hcontiguous]
  exact List.take_left

/-- A reader finds every store exactly when the buffer begins with their bytes. -/
theorem holds_iff_slice (hcontiguous : Contiguous offset stores) (src : List UInt8) :
    Holds src stores ↔ slice src offset (bytes stores).length = bytes stores := by
  induction stores generalizing offset with
  | nil => simp [Holds, bytes, slice]
  | cons s rest ih =>
      obtain ⟨rfl, hrest⟩ := hcontiguous
      have hcons : Holds src (s :: rest) ↔
          slice src s.1 s.2.length = s.2 ∧ Holds src rest := by
        simp only [Holds, List.forall_mem_cons]
      have hbytes : bytes (s :: rest) = s.2 ++ bytes rest := rfl
      rw [hcons, ih hrest, hbytes, List.length_append, ← slice_append_slice]
      constructor
      · rintro ⟨hhere, hthere⟩
        rw [hhere, hthere]
      · intro happend
        have hlength := congrArg List.length happend
        simp only [List.length_append] at hlength
        have hfirst : (slice src s.1 s.2.length).length ≤ s.2.length :=
          List.length_take_le _ _
        have hsecond :
            (slice src (s.1 + s.2.length) (bytes rest).length).length ≤
              (bytes rest).length :=
          List.length_take_le _ _
        exact List.append_inj happend (by omega)

theorem holds_iff (hcontiguous : Contiguous 0 stores) (src : List UInt8) :
    Holds src stores ↔ src.take (bytes stores).length = bytes stores := by
  rw [holds_iff_slice hcontiguous, slice_zero]

/-! ### Codecs

An encoder writes into a buffer, a decoder takes a message whose length it admits. -/

section Codec

variable {α ε : Type} {size : Nat} {admits : Nat → Prop}
variable {encode : List UInt8 → α → Except ε (List UInt8)}
variable {decode : List UInt8 → Except ε α}

/-- Decoding inverts encoding, and what is accepted starts with the encoding of its
value. -/
structure Bijective (size : Nat) (admits : Nat → Prop)
    (encode : List UInt8 → α → Except ε (List UInt8)) (decode : List UInt8 → Except ε α) :
    Prop where
  decode_encode : ∀ {dst x out}, encode dst x = .ok out → ∀ payload : List UInt8,
    admits (size + payload.length) → decode (out.take size ++ payload) = .ok x
  size_le : ∀ {src x}, decode src = .ok x → size ≤ src.length
  encode_decode : ∀ {src x}, decode src = .ok x → ∀ dst : List UInt8, size ≤ dst.length →
    ∃ out, encode dst x = .ok out ∧ out.take size = src.take size

/-- Both directions follow one layout and accept the same values. -/
structure Lawful (size : Nat) (admits : Nat → Prop) (valid : α → Prop)
    (stores : α → List Store) (encode : List UInt8 → α → Except ε (List UInt8))
    (decode : List UInt8 → Except ε α) : Prop where
  contiguous : ∀ x, Contiguous 0 (stores x)
  length_bytes : ∀ x, (bytes (stores x)).length = size
  admits_le : ∀ {length}, admits length → size ≤ length
  encode_iff : ∀ {dst x out}, encode dst x = .ok out ↔
    size ≤ dst.length ∧ valid x ∧ out = storeAll dst (stores x)
  decode_iff : ∀ {src x}, decode src = .ok x ↔
    admits src.length ∧ valid x ∧ Holds src (stores x)

theorem Lawful.bijective {valid : α → Prop} {stores : α → List Store}
    (hlawful : Lawful size admits valid stores encode decode) :
    Bijective size admits encode decode where
  decode_encode := by
    intro dst x out hencode payload hadmits
    obtain ⟨hroom, hvalid, rfl⟩ := hlawful.encode_iff.mp hencode
    have hsize := hlawful.length_bytes x
    have htake : (storeAll dst (stores x)).take size = bytes (stores x) := by
      rw [← hsize]
      exact take_storeAll (hlawful.contiguous x) dst
    rw [htake]
    apply hlawful.decode_iff.mpr
    refine ⟨by rwa [List.length_append, hsize], hvalid, ?_⟩
    rw [holds_iff (hlawful.contiguous x)]
    exact List.take_left
  size_le := by
    intro src x hdecode
    exact hlawful.admits_le (hlawful.decode_iff.mp hdecode).1
  encode_decode := by
    intro src x hdecode dst hroom
    obtain ⟨hadmits, hvalid, hholds⟩ := hlawful.decode_iff.mp hdecode
    refine ⟨_, hlawful.encode_iff.mpr ⟨hroom, hvalid, rfl⟩, ?_⟩
    rw [holds_iff (hlawful.contiguous x), hlawful.length_bytes] at hholds
    rw [hholds, ← hlawful.length_bytes x]
    exact take_storeAll (hlawful.contiguous x) dst

end Codec

end Layout
