import Mathlib.Data.List.GetD
import Qlinq.DataUds
import Qlinq.Lib.Incremental
import Qlinq.Lib.Replay

namespace Qlinq

open Incremental (Collected Verdict drain)

/-! What a local client's bytes say: one registration, then records. -/

structure UdsPayload where
  data : Bytes
  priority : UInt8
  deriving DecidableEq, Repr

def UdsRecord.payload (record : UdsRecord) : UdsPayload where
  data := record.data
  priority := record.priority

def registrationVerdict (src : Bytes) : Verdict TrackId Unit :=
  if src.length < 3 then
    .needMore
  else if registrationAccepted src = false then
    .failed ()
  else if src.length < 3 + registrationNameLen src then
    .needMore
  else
    .decoded (registrationTrack src) (3 + registrationNameLen src)

def recordVerdict (trackId : TrackId) (src : Bytes) : Verdict UdsPayload Unit :=
  let size := hostU32 (src.take 4)
  if src.length < udsFrameHeaderSize then
    .needMore
  else if size = 0 ∨ udsMaxPayload trackId < size then
    .failed ()
  else if src.length < udsFrameHeaderSize + size then
    .needMore
  else
    .decoded { data := (src.drop udsFrameHeaderSize).take size, priority := src.getD 4 0 }
      (udsFrameHeaderSize + size)

structure UdsStream where
  trackId : Option TrackId := none
  records : List UdsPayload := []
  malformed : Bool := false
  deriving DecidableEq, Repr

/-- The parse of a whole stream; it ends where the stream does, or where the
stream is malformed. -/
def parseStream (src : Bytes) : UdsStream :=
  match registrationVerdict src with
  | .needMore => {}
  | .failed _ => { malformed := true }
  | .decoded trackId consumed =>
      let (collected, _) := drain (recordVerdict trackId) Incremental.collect {} (src.drop consumed)
      { trackId := some trackId
        records := collected.values
        malformed := collected.error.isSome }

/-! ### The decoder of records -/

theorem take_append_of_header {src : Bytes} (hheader : udsFrameHeaderSize ≤ src.length)
    (more : Bytes) : (src ++ more).take 4 = src.take 4 :=
  List.take_append_of_le_length (by unfold udsFrameHeaderSize at hheader; omega)

theorem getD_append_of_header {src : Bytes} (hheader : udsFrameHeaderSize ≤ src.length)
    (more : Bytes) : (src ++ more).getD 4 0 = src.getD 4 0 :=
  List.getD_append _ _ _ _ (by unfold udsFrameHeaderSize at hheader; omega)

theorem recordVerdict_failed_iff {src : Bytes} :
    recordVerdict trackId src = .failed () ↔ udsFrameHeaderSize ≤ src.length ∧
      (hostU32 (src.take 4) = 0 ∨ udsMaxPayload trackId < hostU32 (src.take 4)) := by
  unfold recordVerdict
  simp only
  split
  · simp; omega
  split
  · next hlen hinvalid => simp [hinvalid]; omega
  · next hlen hvalid => split <;> simp [hvalid]

theorem recordVerdict_decoded_iff {src : Bytes} :
    recordVerdict trackId src = .decoded value consumed ↔
      udsFrameHeaderSize ≤ src.length ∧ hostU32 (src.take 4) ≠ 0 ∧
        hostU32 (src.take 4) ≤ udsMaxPayload trackId ∧
        consumed = udsFrameHeaderSize + hostU32 (src.take 4) ∧ consumed ≤ src.length ∧
        value = { data := (src.drop udsFrameHeaderSize).take (hostU32 (src.take 4))
                  priority := src.getD 4 0 } := by
  unfold recordVerdict
  simp only
  split
  · simp; omega
  split
  · next hlen hinvalid => simp; omega
  · next hlen hvalid =>
    split
    · simp; omega
    · simp only [Verdict.decoded.injEq]
      constructor
      · rintro ⟨rfl, rfl⟩
        exact ⟨by omega, by omega, by omega, rfl, by omega, rfl⟩
      · rintro ⟨-, -, -, rfl, -, rfl⟩
        exact ⟨rfl, rfl⟩

theorem recordVerdict_needMore_iff {src : Bytes} :
    recordVerdict trackId src = .needMore ↔ src.length < udsFrameHeaderSize ∨
      (hostU32 (src.take 4) ≠ 0 ∧ hostU32 (src.take 4) ≤ udsMaxPayload trackId ∧
        src.length < udsFrameHeaderSize + hostU32 (src.take 4)) := by
  unfold recordVerdict
  simp only
  split
  · next hlen => simp [hlen]
  split
  · next hlen hinvalid => simp [hlen]; omega
  · next hlen hvalid => split <;> simp <;> omega

theorem lawful_recordVerdict (trackId : TrackId) : Incremental.Lawful (recordVerdict trackId) where
  nil := rfl
  consumed := by
    intro src value consumed hdecode
    obtain ⟨-, hsize, -, hconsumed, hle, -⟩ := recordVerdict_decoded_iff.mp hdecode
    exact ⟨by omega, hle⟩
  decoded_append := by
    intro src value consumed hdecode more
    obtain ⟨hheader, hsize, hmax, hconsumed, hle, hvalue⟩ := recordVerdict_decoded_iff.mp hdecode
    refine recordVerdict_decoded_iff.mpr ?_
    rw [take_append_of_header hheader, getD_append_of_header hheader, List.length_append]
    refine ⟨by omega, hsize, hmax, hconsumed, by omega, ?_⟩
    rw [hvalue, List.drop_append_of_le_length hheader, List.take_append_of_le_length]
    rw [List.length_drop]
    omega
  failed_append := by
    intro src error hfailed more
    obtain ⟨hheader, hinvalid⟩ := recordVerdict_failed_iff.mp hfailed
    refine recordVerdict_failed_iff.mpr ?_
    rw [take_append_of_header hheader, List.length_append]
    exact ⟨by omega, hinvalid⟩

/-! ### The registration -/

theorem nameLen_append {src : Bytes} (hlen : 3 ≤ src.length) (more : Bytes) :
    registrationNameLen (src ++ more) = registrationNameLen src := by
  rw [registrationNameLen, List.getD_append _ _ _ _ (by omega)]
  rfl

theorem accepted_append {src : Bytes} (hlen : 3 ≤ src.length) (more : Bytes) :
    registrationAccepted (src ++ more) = registrationAccepted src := by
  rw [registrationAccepted, nameLen_append hlen, List.getD_append _ _ _ _ (by omega),
    List.getD_append _ _ _ _ (by omega)]
  rfl

theorem track_append {src : Bytes} (hlen : 3 + registrationNameLen src ≤ src.length)
    (more : Bytes) : registrationTrack (src ++ more) = registrationTrack src := by
  have hname : ((src ++ more).drop 3).take (registrationNameLen src) =
      (src.drop 3).take (registrationNameLen src) := by
    rw [List.drop_append_of_le_length (by omega), List.take_append_of_le_length]
    rw [List.length_drop]
    omega
  rw [registrationTrack, nameLen_append (by omega), hname, List.getD_append _ _ _ _ (by omega),
    List.getD_append _ _ _ _ (by omega)]
  rfl

theorem registrationVerdict_decoded {src : Bytes} (haccepted : registrationAccepted src = true)
    (hlen : src.length = 3 + registrationNameLen src) (more : Bytes) :
    registrationVerdict (src ++ more) = .decoded (registrationTrack src) src.length := by
  unfold registrationVerdict
  rw [nameLen_append (by omega), accepted_append (by omega), track_append (by omega),
    haccepted, List.length_append, if_neg (by omega), if_neg (by simp), if_neg (by omega), hlen]

theorem parseStream_registered {reg : Bytes} (haccepted : registrationAccepted reg = true)
    (hlen : reg.length = 3 + registrationNameLen reg) (body : Bytes) :
    parseStream (reg ++ body) =
      { trackId := some (registrationTrack reg)
        records := (drain (recordVerdict (registrationTrack reg)) Incremental.collect {} body).1.values
        malformed :=
          (drain (recordVerdict (registrationTrack reg)) Incremental.collect {} body).1.error.isSome } := by
  unfold parseStream
  rw [registrationVerdict_decoded haccepted hlen]
  simp only [List.drop_left]

end Qlinq
