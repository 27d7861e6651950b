import Qlinq.Config
import Qlinq.Lib.Cutting

namespace Qlinq

open Cutting

/-! Sending a batch of datagrams on one UDP socket: groups that one segmented
message carries, then one message a datagram. -/

def transportUdpMaxBatch : Nat := 64

def transportUdpGsoBufferSize : Nat := 65507

inductive Errno
  | eagain
  | ewouldblock
  | eintr
  | einval
  | e2big
  | other (code : Nat)
  deriving DecidableEq, Repr

structure UdpPacket where
  destination : Bytes
  data : Bytes
  deriving DecidableEq, Repr

/-- The kernel's answer to one system call; of a call with several messages it
takes the first `n`. -/
inductive SendOutcome
  | sent (n : Nat)
  | failed (errno : Errno)
  deriving DecidableEq, Repr

/-- A socket: the answers its calls are still to get, `errno` as the last of them
left it, and what has gone out. -/
structure UdpSocket where
  answers : List SendOutcome
  errno : Errno
  wire : List UdpPacket
  deriving DecidableEq, Repr

/-! Groups of datagrams for one segmented message. -/

def gsoPrefixFrom (segmentSize bytes : Nat) : List Bytes → Nat
  | [] => 0
  | datagram :: rest =>
      let len := datagram.length
      if len = 0 ∨ segmentSize < len ∨ transportUdpGsoBufferSize - bytes < len then
        0
      else if len ≠ segmentSize then
        1
      else
        gsoPrefixFrom segmentSize (bytes + len) rest + 1

def gsoPrefix : List Bytes → Nat
  | [] => 0
  | first :: rest =>
      if first.length = 0 ∨ transportUdpGsoBufferSize < first.length then
        0
      else
        gsoPrefixFrom first.length 0 (first :: rest)

/-- The bytes of a group, where each datagram can be a segment of it. -/
def gsoTotal (segmentSize : Nat) : List Bytes → Nat → Option Nat
  | [], totalSize => some totalSize
  | datagram :: rest, totalSize =>
      let len := datagram.length
      if len = 0 ∨ segmentSize < len ∨ (rest ≠ [] ∧ len ≠ segmentSize) ∨
          sizeMax - totalSize < len then
        none
      else
        gsoTotal segmentSize rest (totalSize + len)

/-- What `try_gso` asks of a group before it gives it to the kernel. -/
def gsoAdmissible : List Bytes → Bool
  | first :: second :: rest =>
      first.length ≠ 0 && first.length ≤ 65535 &&
        (gsoTotal first.length (first :: second :: rest) 0).any
          fun totalSize => totalSize ≤ transportUdpGsoBufferSize
  | _ => false

def gsoSegmentSize (group : List Bytes) : Nat := (group.headD []).length % 65536

/-- The datagrams the kernel makes of a group: the buffer cut at the size asked
for. -/
def gsoSegments (destination : Bytes) (group : List Bytes) : List UdpPacket :=
  (cut (gsoSegmentSize group) group.flatten).map (UdpPacket.mk destination)

namespace UdpSocket

/-- `sendmsg`, again for as long as it is interrupted. One message goes out whole
or not at all. Where the answers end the socket would block. -/
def sendmsg (segments wire : List UdpPacket) : List SendOutcome → Errno → Bool × UdpSocket
  | [], _ => (false, ⟨[], .eagain, wire⟩)
  | .sent _ :: answers, errno => (true, ⟨answers, errno, wire ++ segments⟩)
  | .failed .eintr :: answers, _ => sendmsg segments wire answers .eintr
  | .failed errno :: answers, _ => (false, ⟨answers, errno, wire⟩)

def tryGso (socket : UdpSocket) (destination : Bytes) (group : List Bytes) : Bool × UdpSocket :=
  if gsoAdmissible group then
    sendmsg (gsoSegments destination group) socket.wire socket.answers socket.errno
  else
    (false, socket)

/-- The groups sent from the front of a batch; each takes at least two datagrams. -/
def sendGroups (destination : Bytes) : Nat → List Bytes → UdpSocket → Nat × UdpSocket
  | 0, _, socket => (0, socket)
  | within + 1, datagrams, socket =>
      let group := gsoPrefix datagrams
      if group < 2 then
        (0, socket)
      else
        match socket.tryGso destination (datagrams.take group) with
        | (false, socket) => (0, socket)
        | (true, socket) =>
            let (sent, socket) := sendGroups destination within (datagrams.drop group) socket
            (group + sent, socket)

/-- The loop over `sendmmsg`, from the `sentCount`-th message on. -/
def sendMessages (messages : List UdpPacket) :
    List SendOutcome → Errno → List UdpPacket → Nat → Option Nat × UdpSocket
  | answers, errno, wire, sentCount =>
      if messages.length ≤ sentCount then
        (some sentCount, ⟨answers, errno, wire⟩)
      else
        match answers with
        | [] => (some sentCount, ⟨[], .eagain, wire⟩)
        | .sent 0 :: answers =>
            (if 0 < sentCount then some sentCount else none, ⟨answers, errno, wire⟩)
        | .sent (n + 1) :: answers =>
            let taken := (messages.drop sentCount).take (n + 1)
            sendMessages messages answers errno (wire ++ taken) (sentCount + taken.length)
        | .failed .eintr :: answers => sendMessages messages answers .eintr wire sentCount
        | .failed .eagain :: answers => (some sentCount, ⟨answers, .eagain, wire⟩)
        | .failed .ewouldblock :: answers => (some sentCount, ⟨answers, .ewouldblock, wire⟩)
        | .failed errno :: answers =>
            (if 0 < sentCount then some sentCount else none, ⟨answers, errno, wire⟩)

/-- `transport_udp_send_batch`: how many datagrams went out, or `none` for -1. -/
def sendBatch (socket : UdpSocket) (destination : Bytes) (datagrams : List Bytes) :
    Option Nat × UdpSocket :=
  if datagrams = [] then
    (some 0, socket)
  else if transportUdpMaxBatch < datagrams.length then
    (none, { socket with errno := .e2big })
  else
    let (sentCount, socket) := sendGroups destination datagrams.length datagrams socket
    sendMessages (datagrams.map (UdpPacket.mk destination)) socket.answers socket.errno
      socket.wire sentCount

end UdpSocket

/-! ### Groups -/

theorem regular_take_gsoPrefixFrom (segmentSize bytes : Nat) (datagrams : List Bytes) :
    Regular segmentSize (datagrams.take (gsoPrefixFrom segmentSize bytes datagrams)) := by
  induction datagrams generalizing bytes with
  | nil => exact .nil
  | cons datagram rest ih =>
      unfold gsoPrefixFrom
      extract_lets len
      split
      · exact .nil
      · next hfits =>
        rw [not_or, not_or] at hfits
        split
        · exact .last (List.ne_nil_of_length_pos (Nat.pos_of_ne_zero hfits.1))
            (Nat.not_lt.mp hfits.2.1)
        · next hfull => exact .cons (Decidable.not_not.mp hfull) (ih _)

theorem flatten_take_gsoPrefixFrom_le (segmentSize : Nat) (datagrams : List Bytes) :
    ∀ bytes ≤ transportUdpGsoBufferSize,
      bytes + (datagrams.take (gsoPrefixFrom segmentSize bytes datagrams)).flatten.length ≤
        transportUdpGsoBufferSize := by
  induction datagrams with
  | nil =>
      intro bytes hbytes
      simpa using hbytes
  | cons datagram rest ih =>
      intro bytes hbytes
      unfold gsoPrefixFrom
      extract_lets len
      split
      · simpa using hbytes
      · next hfits =>
        have hroom : bytes + len ≤ transportUdpGsoBufferSize := by omega
        split
        · simpa using hroom
        · have hrest := ih (bytes + len) hroom
          rw [List.take_succ_cons, List.flatten_cons, List.length_append]
          omega

theorem gsoPrefixFrom_le_length (segmentSize bytes : Nat) (datagrams : List Bytes) :
    gsoPrefixFrom segmentSize bytes datagrams ≤ datagrams.length := by
  induction datagrams generalizing bytes with
  | nil => exact Nat.le_refl 0
  | cons datagram rest ih =>
      unfold gsoPrefixFrom
      extract_lets len
      split
      · exact Nat.zero_le _
      split
      · exact Nat.le_add_left 1 rest.length
      · exact Nat.succ_le_succ (ih _)

/-- A selected group is pieces of its first datagram's size, and fits the buffer. -/
theorem gsoPrefix_selects {datagrams : List Bytes} (hgroup : 0 < gsoPrefix datagrams) :
    ∃ first rest, datagrams = first :: rest ∧ 0 < first.length ∧
      first.length ≤ transportUdpGsoBufferSize ∧
      Regular first.length (datagrams.take (gsoPrefix datagrams)) ∧
      (datagrams.take (gsoPrefix datagrams)).flatten.length ≤ transportUdpGsoBufferSize := by
  cases datagrams with
  | nil => cases hgroup
  | cons first rest =>
      have hfirst : ¬(first.length = 0 ∨ transportUdpGsoBufferSize < first.length) := by
        intro h
        rw [gsoPrefix, if_pos h] at hgroup
        exact Nat.lt_irrefl 0 hgroup
      have hselect : gsoPrefix (first :: rest) = gsoPrefixFrom first.length 0 (first :: rest) := by
        rw [gsoPrefix, if_neg hfirst]
      rw [hselect]
      refine ⟨first, rest, rfl, by omega, by omega, regular_take_gsoPrefixFrom _ _ _, ?_⟩
      simpa using flatten_take_gsoPrefixFrom_le first.length (first :: rest) 0 (Nat.zero_le _)

theorem gsoPrefix_le_length (datagrams : List Bytes) : gsoPrefix datagrams ≤ datagrams.length := by
  cases datagrams with
  | nil => exact Nat.le_refl 0
  | cons first rest =>
      rw [gsoPrefix]
      split
      · exact Nat.zero_le _
      · exact gsoPrefixFrom_le_length first.length 0 (first :: rest)

theorem gsoTotal_of_regular {group : List Bytes} (hregular : Regular segmentSize group)
    (hsize : 0 < segmentSize) :
    ∀ totalSize, totalSize + group.flatten.length ≤ sizeMax →
      gsoTotal segmentSize group totalSize = some (totalSize + group.flatten.length) := by
  induction hregular with
  | nil =>
      intro totalSize _
      rfl
  | @last piece hne hle =>
      intro totalSize htotal
      have hpos := List.length_pos_iff.mpr hne
      rw [List.flatten_singleton] at htotal ⊢
      have hadmitted : ¬(piece.length = 0 ∨ segmentSize < piece.length ∨
          (([] : List Bytes) ≠ [] ∧ piece.length ≠ segmentSize) ∨
          sizeMax - totalSize < piece.length) := by
        rintro (h | h | ⟨h, -⟩ | h)
        · omega
        · omega
        · exact h rfl
        · omega
      rw [gsoTotal, if_neg hadmitted, gsoTotal]
  | @cons piece rest hfull _ ih =>
      intro totalSize htotal
      rw [List.flatten_cons, List.length_append] at htotal ⊢
      rw [gsoTotal, if_neg (by simp [hfull]; omega), ih _ (by omega), Nat.add_assoc]

/-- Every group of at least two passes the conditions of `try_gso`. -/
theorem gsoAdmissible_of_gsoPrefix {datagrams : List Bytes} (hgroup : 2 ≤ gsoPrefix datagrams) :
    gsoAdmissible (datagrams.take (gsoPrefix datagrams)) = true := by
  obtain ⟨first, rest, hdatagrams, hpos, hle, hregular, hfits⟩ :=
    gsoPrefix_selects (by omega : 0 < gsoPrefix datagrams)
  have hlength := gsoPrefix_le_length datagrams
  have htotal : gsoTotal first.length (datagrams.take (gsoPrefix datagrams)) 0 =
      some (datagrams.take (gsoPrefix datagrams)).flatten.length := by
    rw [gsoTotal_of_regular hregular hpos 0, Nat.zero_add]
    exact Nat.le_trans (Nat.le_of_eq (Nat.zero_add _)) (Nat.le_trans hfits (by decide))
  generalize gsoPrefix datagrams = group at *
  subst hdatagrams
  obtain ⟨second, rest', rfl⟩ : ∃ second rest', rest = second :: rest' := by
    cases rest with
    | nil =>
        rw [List.length_singleton] at hlength
        omega
    | cons second rest' => exact ⟨second, rest', rfl⟩
  obtain ⟨group, rfl⟩ : ∃ more, group = more + 2 := ⟨group - 2, by omega⟩
  simp only [List.take_succ_cons] at htotal hfits ⊢
  rw [gsoAdmissible, htotal]
  unfold transportUdpGsoBufferSize at hle
  simp only [Option.any_some, Bool.and_eq_true, decide_eq_true_eq, ne_eq]
  exact ⟨⟨Nat.ne_of_gt hpos, by omega⟩, hfits⟩

theorem cut_gsoPrefix {datagrams : List Bytes} (hgroup : 2 ≤ gsoPrefix datagrams) :
    cut (gsoSegmentSize (datagrams.take (gsoPrefix datagrams)))
      (datagrams.take (gsoPrefix datagrams)).flatten = datagrams.take (gsoPrefix datagrams) := by
  obtain ⟨first, rest, hdatagrams, hpos, hle, hregular, -⟩ :=
    gsoPrefix_selects (by omega : 0 < gsoPrefix datagrams)
  have hsize : gsoSegmentSize (datagrams.take (gsoPrefix datagrams)) = first.length := by
    have hhead : (datagrams.take (gsoPrefix datagrams)).headD [] = first := by
      generalize gsoPrefix datagrams = group at *
      obtain ⟨group, rfl⟩ : ∃ more, group = more + 1 := ⟨group - 1, by omega⟩
      rw [hdatagrams, List.take_succ_cons]
      rfl
    rw [gsoSegmentSize, hhead]
    unfold transportUdpGsoBufferSize at hle
    exact Nat.mod_eq_of_lt (by omega)
  rw [hsize]
  exact hregular.cut_flatten hpos

theorem gsoSegments_gsoPrefix {datagrams : List Bytes} (hgroup : 2 ≤ gsoPrefix datagrams)
    (destination : Bytes) :
    gsoSegments destination (datagrams.take (gsoPrefix datagrams)) =
      (datagrams.take (gsoPrefix datagrams)).map (UdpPacket.mk destination) := by
  rw [gsoSegments, cut_gsoPrefix hgroup]

namespace UdpSocket

/-! ### What has gone out -/

theorem sendmsg_wire (segments wire : List UdpPacket) (answers : List SendOutcome)
    (errno : Errno) :
    (sendmsg segments wire answers errno).2.wire =
      wire ++ if (sendmsg segments wire answers errno).1 then segments else [] := by
  induction answers generalizing errno with
  | nil => exact (List.append_nil wire).symm
  | cons answer answers ih =>
      cases answer with
      | sent n => rfl
      | failed code =>
          cases code with
          | eintr => exact ih .eintr
          | _ => exact (List.append_nil wire).symm

theorem tryGso_wire (socket : UdpSocket) (hgroup : 2 ≤ gsoPrefix datagrams) :
    (socket.tryGso destination (datagrams.take (gsoPrefix datagrams))).2.wire =
      socket.wire ++ if (socket.tryGso destination (datagrams.take (gsoPrefix datagrams))).1 then
        (datagrams.take (gsoPrefix datagrams)).map (UdpPacket.mk destination) else [] := by
  rw [tryGso, if_pos (gsoAdmissible_of_gsoPrefix hgroup), sendmsg_wire,
    gsoSegments_gsoPrefix hgroup]

theorem sendGroups_wire (destination : Bytes) (within : Nat) (datagrams : List Bytes)
    (socket : UdpSocket) :
    (sendGroups destination within datagrams socket).1 ≤ datagrams.length ∧
      (sendGroups destination within datagrams socket).2.wire = socket.wire ++
        (datagrams.take (sendGroups destination within datagrams socket).1).map
          (UdpPacket.mk destination) := by
  induction within generalizing datagrams socket with
  | zero => simp [sendGroups]
  | succ within ih =>
      unfold sendGroups
      extract_lets group
      split
      · simp
      · next hgroup =>
        have hfirst := @tryGso_wire _ destination socket (Nat.not_lt.mp hgroup)
        split
        · next socket₁ htry =>
          rw [htry] at hfirst
          simpa using hfirst
        · next socket₁ htry =>
          rw [htry] at hfirst
          obtain ⟨hle, hrest⟩ := ih (datagrams.drop group) socket₁
          have hlength : group ≤ datagrams.length := gsoPrefix_le_length datagrams
          rcases hmore : sendGroups destination within (datagrams.drop group) socket₁ with
            ⟨more, socket₂⟩
          rw [hmore] at hle hrest
          rw [List.length_drop] at hle
          refine ⟨by dsimp only at hle ⊢; omega, ?_⟩
          exact hrest.trans (by
            rw [hfirst, if_pos rfl, List.append_assoc, List.take_add, List.map_append])

theorem getD_stopped (sentCount : Nat) :
    (if 0 < sentCount then some sentCount else none).getD 0 = sentCount := by
  split
  · rfl
  · next hnone => exact (Nat.eq_zero_of_not_pos hnone).symm

/-- From the state where `sentCount` messages are out the loop comes back with what
is out then, or with -1 where nothing is. -/
theorem sendMessages_wire {messages start : List UdpPacket} (answers : List SendOutcome)
    (errno : Errno) (sentCount : Nat) (hcount : sentCount ≤ messages.length)
    (hsent : sendMessages messages answers errno (start ++ messages.take sentCount) sentCount =
      (result, socket)) :
    result.getD 0 ≤ messages.length ∧
      socket.wire = start ++ messages.take (result.getD 0) := by
  induction answers generalizing errno sentCount with
  | nil =>
      unfold sendMessages at hsent
      split at hsent
      · cases hsent
        exact ⟨hcount, rfl⟩
      · cases hsent
        exact ⟨hcount, rfl⟩
  | cons answer answers ih =>
      unfold sendMessages at hsent
      split at hsent
      · cases hsent
        exact ⟨hcount, rfl⟩
      · cases answer with
        | sent n =>
            cases n with
            | zero =>
                cases hsent
                rw [getD_stopped]
                exact ⟨hcount, rfl⟩
            | succ n =>
                refine ih errno (sentCount + ((messages.drop sentCount).take (n + 1)).length) ?_ ?_
                · rw [List.length_take, List.length_drop]
                  omega
                · rw [List.take_add, List.length_take, ← List.take_eq_take_min,
                    ← List.append_assoc, ← List.length_take]
                  exact hsent
        | failed code =>
            cases code with
            | eintr => exact ih .eintr sentCount hcount hsent
            | eagain =>
                cases hsent
                exact ⟨hcount, rfl⟩
            | ewouldblock =>
                cases hsent
                exact ⟨hcount, rfl⟩
            | _ =>
                cases hsent
                rw [getD_stopped]
                exact ⟨hcount, rfl⟩

/-- The first datagrams of the batch have gone out, as many as the call reports. -/
theorem sendBatch_wire {socket : UdpSocket}
    (hsent : socket.sendBatch destination datagrams = (result, socket')) :
    result.getD 0 ≤ datagrams.length ∧
      socket'.wire =
        socket.wire ++ (datagrams.take (result.getD 0)).map (UdpPacket.mk destination) := by
  unfold sendBatch at hsent
  split at hsent
  · cases hsent
    simp
  split at hsent
  · cases hsent
    simp
  · obtain ⟨hcount, hwire⟩ := sendGroups_wire destination datagrams.length datagrams socket
    rcases hgroups : sendGroups destination datagrams.length datagrams socket with
      ⟨sentCount, socket₁⟩
    rw [hgroups] at hcount hwire hsent
    dsimp only at hcount hwire hsent
    rw [hwire, List.map_take] at hsent
    obtain ⟨hle, hout⟩ := sendMessages_wire _ _ _ (by simpa using hcount) hsent
    rw [List.length_map] at hle
    rw [hout, List.map_take]
    exact ⟨hle, rfl⟩

/-- Groups of one segmented message are cut back into their own datagrams, and a
batch goes out from its front, each datagram once. -/
theorem sendBatch_preserves (socket : UdpSocket) (destination : Bytes) (datagrams : List Bytes) :
    (∀ rest, rest <:+ datagrams → 2 ≤ gsoPrefix rest →
      gsoAdmissible (rest.take (gsoPrefix rest)) = true ∧
        cut (gsoSegmentSize (rest.take (gsoPrefix rest))) (rest.take (gsoPrefix rest)).flatten =
          rest.take (gsoPrefix rest)) ∧
      ∀ n socket', socket.sendBatch destination datagrams = (some n, socket') →
        n ≤ datagrams.length ∧
          socket'.wire = socket.wire ++ (datagrams.take n).map (UdpPacket.mk destination) := by
  refine ⟨fun rest _ hgroup => ⟨gsoAdmissible_of_gsoPrefix hgroup, cut_gsoPrefix hgroup⟩, ?_⟩
  intro n socket' hsent
  exact sendBatch_wire hsent

end UdpSocket

end Qlinq
