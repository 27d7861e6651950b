import Mathlib.Data.List.Basic

/-! Records behind a prefix that gives their length. -/

/-- A prefix of fixed width that determines every length below `limit`. -/
structure Framing (α : Type) where
  width : Nat
  limit : Nat
  encode : Nat → List α
  decode : List α → Nat
  length_encode : ∀ n, (encode n).length = width
  decode_encode : ∀ n < limit, decode (encode n) = n

namespace Framing

variable {α : Type} (framing : Framing α)

def frame (record : List α) : List α := framing.encode record.length ++ record

def frames (records : List (List α)) : List α := records.flatMap framing.frame

/-- The first record and what follows it. -/
def peel (data : List α) : Option (List α × List α) :=
  if data.length < framing.width then
    none
  else
    let size := framing.decode (data.take framing.width)
    let body := data.drop framing.width
    if body.length < size then none else some (body.take size, body.drop size)

variable {framing}

@[simp] theorem frames_nil : framing.frames [] = [] :=
  rfl

@[simp] theorem frames_cons (record : List α) (records : List (List α)) :
    framing.frames (record :: records) = framing.frame record ++ framing.frames records :=
  rfl

theorem frames_append (first second : List (List α)) :
    framing.frames (first ++ second) = framing.frames first ++ framing.frames second :=
  List.flatMap_append

theorem frames_concat (records : List (List α)) (record : List α) :
    framing.frames (records ++ [record]) =
      framing.frames records ++ framing.encode record.length ++ record := by
  simp [frames_append, frame]

theorem length_frame (record : List α) :
    (framing.frame record).length = framing.width + record.length := by
  simp [frame, framing.length_encode]

theorem peel_frame_append (hrecord : record.length < framing.limit) (rest : List α) :
    framing.peel (framing.frame record ++ rest) = some (record, rest) := by
  have htake : (framing.frame record ++ rest).take framing.width =
      framing.encode record.length := by
    rw [frame, List.append_assoc, ← framing.length_encode record.length, List.take_left]
  have hdrop : (framing.frame record ++ rest).drop framing.width = record ++ rest := by
    rw [frame, List.append_assoc, ← framing.length_encode record.length, List.drop_left]
  have hlength : ¬ (framing.frame record ++ rest).length < framing.width := by
    rw [List.length_append, length_frame]
    omega
  have hbody : ¬ (record ++ rest).length < record.length := by
    rw [List.length_append]
    omega
  simp only [peel, hlength, if_false, htake, hdrop, framing.decode_encode _ hrecord, hbody,
    List.take_left, List.drop_left]

/-- The bytes of a list of records determine the records. -/
theorem frames_injective {left right : List (List α)} (hwidth : 0 < framing.width)
    (hleft : ∀ record ∈ left, record.length < framing.limit)
    (hright : ∀ record ∈ right, record.length < framing.limit)
    (hframes : framing.frames left = framing.frames right) : left = right := by
  induction left generalizing right with
  | nil =>
      cases right with
      | nil => rfl
      | cons record rest =>
          have hlength := congrArg List.length hframes
          rw [frames_cons, List.length_append, length_frame] at hlength
          simp only [frames_nil, List.length_nil] at hlength
          omega
  | cons record rest ih =>
      cases right with
      | nil =>
          have hlength := congrArg List.length hframes
          rw [frames_cons, List.length_append, length_frame] at hlength
          simp only [frames_nil, List.length_nil] at hlength
          omega
      | cons other tail =>
          have hpeel := peel_frame_append (hleft record List.mem_cons_self)
            (framing.frames rest)
          rw [← frames_cons, hframes, frames_cons,
            peel_frame_append (hright other List.mem_cons_self)] at hpeel
          obtain ⟨rfl, htail⟩ := Prod.mk.inj (Option.some.inj hpeel)
          rw [ih (fun item hitem => hleft item (List.mem_cons_of_mem _ hitem))
            (fun item hitem => hright item (List.mem_cons_of_mem _ hitem)) htail.symm]

end Framing
