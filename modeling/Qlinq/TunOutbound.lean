import Qlinq.Descriptors
import Qlinq.Lib.Cut
import Qlinq.TunHelper
import Qlinq.UdsDelivery

namespace Qlinq

open Incremental (drain)

/-! What the daemon makes of a helper's bytes, wherever the connection ends. -/

/-! ### Exact writes -/

/-- A write moves the front of the data, and reports whether it was all of it. -/
structure Moved.Writes (moved : Moved ι) (data : Bytes) : Prop where
  front : moved.bytes <+: data
  complete_iff : moved.complete = true ↔ moved.bytes = data

/-- What was moved before counts as moved. -/
theorem Moved.Writes.after {moved : Moved ι} {back : Bytes} (hwrites : moved.Writes back)
    (front : Bytes) :
    Moved.Writes { moved with bytes := front ++ moved.bytes } (front ++ back) where
  front := (List.prefix_append_right_inj front).mpr hwrites.front
  complete_iff := by
    rw [List.append_right_inj]
    exact hwrites.complete_iff

theorem writes_none {data : Bytes} (hsome : data ≠ []) (rest : List ι) :
    Moved.Writes ⟨[], false, rest⟩ data where
  front := List.nil_prefix
  complete_iff := by
    constructor
    · intro hcomplete
      cases hcomplete
    · intro hnil
      exact absurd hnil.symm hsome

theorem writes_writeExact (data : Bytes) (writes : List SocketWrite) :
    (writeExact data writes).Writes data := by
  induction writes generalizing data with
  | nil =>
      cases data with
      | nil => exact ⟨List.prefix_rfl, by simp [writeExact]⟩
      | cons byte data => exact writes_none (List.cons_ne_nil _ _) []
  | cons write rest ih =>
      unfold writeExact
      split
      · next hnil => exact ⟨List.nil_prefix, by simp [hnil]⟩
      next hsome =>
      cases write with
      | wrote more =>
          have hafter := (ih (data.drop (more + 1))).after (data.take (more + 1))
          rw [List.take_append_drop] at hafter
          exact hafter
      | interrupted => exact ih data
      | blocked => exact writes_none hsome rest
      | failed => exact writes_none hsome rest

theorem writes_writeParts (writes : List SocketWrite) (parts : List Bytes) :
    (writeParts writes parts).Writes parts.flatten := by
  induction parts generalizing writes with
  | nil => exact ⟨List.prefix_rfl, by simp [writeParts]⟩
  | cons part parts ih =>
      have hpart := writes_writeExact part writes
      unfold writeParts
      simp only [List.flatten_cons]
      split
      · next hwhole =>
          have hafter := (ih (writeExact part writes).rest).after part
          rw [hpart.complete_iff.mp hwhole]
          exact hafter
      · next hcut =>
          refine ⟨hpart.front.trans (List.prefix_append _ _), fun hwhole => absurd hwhole hcut, ?_⟩
          intro hall
          have hlength := hpart.front.length_le
          rw [hall, List.length_append] at hlength
          have hnone : parts.flatten = [] := List.length_eq_zero_iff.mp (by omega)
          rw [hnone, List.append_nil] at hall
          exact hpart.complete_iff.mpr hall

/-! ### A helper's stream -/

theorem hostU32_hostU32Bytes (hvalue : value < 2 ^ 32) : hostU32 (hostU32Bytes value) = value := by
  unfold hostU32 hostU32Bytes
  rw [List.reverse_reverse]
  exact BigEndian.ofBytes_toBytes_of_lt hvalue

namespace HelperConfig

variable {c : HelperConfig}

/-- A registration and whole packets. -/
def stream (c : HelperConfig) (packets : List Bytes) : Bytes :=
  c.registration ++ packets.flatMap fun packet => (c.frame packet).encode

theorem stream_append (packets more : List Bytes) :
    c.stream (packets ++ more) =
      c.stream packets ++ more.flatMap fun packet => (c.frame packet).encode := by
  rw [stream, stream, List.flatMap_append, List.append_assoc]

theorem registrationNameLen_registration (c : HelperConfig) :
    registrationNameLen c.registration = c.trackName.length := by
  have hname := c.name_le
  unfold udsMaxNameLen at hname
  change (UInt8.ofNat c.trackName.length).toNat = _
  rw [UInt8.toNat_ofNat', Nat.mod_eq_of_lt (by omega)]

theorem length_registration (c : HelperConfig) :
    c.registration.length = 3 + registrationNameLen c.registration := by
  rw [registrationNameLen_registration, registration, List.length_append]
  rfl

theorem registrationAccepted_registration (c : HelperConfig) :
    registrationAccepted c.registration = true := by
  have hvalid : validTrackRegistration TrackType.data.code c.flags = true := by
    unfold flags
    cases c.useReliable <;> decide
  unfold registrationAccepted
  rw [registrationNameLen_registration]
  exact decide_eq_true ⟨c.name_le, hvalid⟩

theorem registrationTrack_registration (c : HelperConfig) :
    registrationTrack c.registration = c.track := by
  have hname : (c.registration.drop 3).take (registrationNameLen c.registration) =
      c.trackName := by
    rw [registrationNameLen_registration]
    exact List.take_length
  unfold registrationTrack
  rw [hname, WireTrack.takeWhile_eq_self_iff.mpr c.name_text]
  rfl

theorem le_udsMaxPayload (c : HelperConfig) : tunPacketSize ≤ udsMaxPayload c.track := by
  unfold udsMaxPayload
  split <;> decide

/-- The daemon reads a packet's frame as its record. -/
theorem recordVerdict_frame (hsome : packet ≠ []) (hfits : packet.length ≤ tunPacketSize) :
    recordVerdict c.track (c.frame packet).encode =
      .decoded (c.payload packet) (c.frame packet).encode.length := by
  have hmax := c.le_udsMaxPayload
  have hpos := List.length_pos_iff.mpr hsome
  have hsize : hostU32 ((c.frame packet).encode.take 4) = packet.length := by
    have hfront : (c.frame packet).encode.take 4 = hostU32Bytes packet.length := by
      rw [UdsFrame.encode, List.append_assoc, ← UdsOutput.length_hostU32Bytes packet.length]
      exact List.take_left
    unfold tunPacketSize at hfits
    rw [hfront, hostU32_hostU32Bytes (by omega)]
  have hlength : (c.frame packet).encode.length = udsFrameHeaderSize + packet.length :=
    UdsOutput.length_encode _
  have hheader : (hostU32Bytes packet.length ++ [c.priority]).length = udsFrameHeaderSize := by
    rw [List.length_append, UdsOutput.length_hostU32Bytes]
    rfl
  refine recordVerdict_decoded_iff.mpr ?_
  rw [hsize, hlength]
  refine ⟨by omega, by omega, by omega, rfl, Nat.le_refl _, ?_⟩
  have hbody : (c.frame packet).encode.drop udsFrameHeaderSize = packet := by
    rw [← hheader]
    exact List.drop_left
  have hpriority : (c.frame packet).encode.getD 4 0 = c.priority := by
    rw [UdsFrame.encode, List.append_assoc, List.getD_append_right _ _ _ _
      (UdsOutput.length_hostU32Bytes _).le, UdsOutput.length_hostU32Bytes]
    rfl
  rw [hbody, hpriority, List.take_length]
  rfl

/-- Cut off in its registration, a stream says nothing yet. -/
theorem parseStream_unregistered (hcut : src <+: c.registration)
    (hshort : src.length < c.registration.length) : parseStream src = {} := by
  obtain ⟨more, hmore⟩ := hcut
  have hlength := c.length_registration
  have hverdict : registrationVerdict src = .needMore := by
    unfold registrationVerdict
    split
    · rfl
    next hheader =>
    have haccepted := c.registrationAccepted_registration
    rw [← hmore, accepted_append (by omega)] at haccepted
    rw [← hmore, nameLen_append (by omega), hmore] at hlength
    rw [haccepted, if_neg (by simp), if_pos (by omega)]
  rw [parseStream, hverdict]

/-- The daemon's parse of a stream that is cut off anywhere is the packets that are whole. -/
theorem parseStream_cut (hpackets : ∀ packet ∈ packets,
      packet ≠ [] ∧ packet.length ≤ tunPacketSize) (hcut : src <+: c.stream packets) :
    ∃ whole, whole <+: packets ∧ (whole = [] ∨ c.stream whole <+: src) ∧
      (∀ front, front <+: packets → c.stream front <+: src → front <+: whole) ∧
      (parseStream src).records = whole.map c.payload ∧
      (parseStream src).malformed = false ∧
      ∀ trackId, (parseStream src).trackId = some trackId → trackId = c.track := by
  cases lt_or_ge src.length c.registration.length with
  | inl hshort =>
      have hfront := List.prefix_of_prefix_length_le hcut (List.prefix_append _ _) hshort.le
      rw [parseStream_unregistered hfront hshort]
      refine ⟨[], List.nil_prefix, .inl rfl, ?_, rfl, rfl, ?_⟩
      · intro front _ hthere
        have hle := hthere.length_le
        rw [stream, List.length_append] at hle
        omega
      · intro trackId htrack
        cases htrack
  | inr hlong =>
      obtain ⟨body, rfl⟩ := List.prefix_of_prefix_length_le (List.prefix_append _ _) hcut hlong
      have hbody := (List.prefix_append_right_inj _).mp hcut
      obtain ⟨whole, rest, hwhole, hsplit, hmost, hdrain⟩ := Incremental.drain_collect_cut
        (lawful_recordVerdict c.track)
        (fun packet hpacket => recordVerdict_frame (hpackets packet hpacket).1
          (hpackets packet hpacket).2) hbody {}
      rw [parseStream_registered c.registrationAccepted_registration c.length_registration,
        registrationTrack_registration, hdrain]
      refine ⟨whole, hwhole, .inr ?_, ?_, by simp, rfl, ?_⟩
      · rw [hsplit, stream, List.prefix_append_right_inj]
        exact List.prefix_append _ _
      · intro front hfront hthere
        exact hmost front hfront ((List.prefix_append_right_inj _).mp hthere)
      · intro trackId htrack
        exact (Option.some.inj htrack).symm

end HelperConfig

/-! ### What each connection carries -/

namespace HelperLink

variable {c : HelperConfig} {l : HelperLink}

/-- The connection took its registration and its packets, and nothing else. -/
structure Whole (c : HelperConfig) (l : HelperLink) : Prop where
  packets : ∀ packet ∈ l.packets, packet ≠ [] ∧ packet.length ≤ tunPacketSize
  sent : l.sent = c.stream l.packets

/-- It may also have taken a part of what would have come next. -/
structure Cut (c : HelperConfig) (l : HelperLink) : Prop where
  packets : ∀ packet ∈ l.packets, packet ≠ [] ∧ packet.length ≤ tunPacketSize
  whole : l.packets = [] ∨ c.stream l.packets <+: l.sent
  cut : ∃ next, (next ≠ [] ∧ next.length ≤ tunPacketSize) ∧
    l.sent <+: c.stream (l.packets ++ [next]) ∧
    l.sent.length < (c.stream (l.packets ++ [next])).length

theorem length_stream_concat (packets : List Bytes) (next : Bytes) :
    (c.stream packets).length < (c.stream (packets ++ [next])).length := by
  rw [HelperConfig.stream_append, List.length_append, List.flatMap_singleton,
    UdsOutput.length_encode]
  unfold udsFrameHeaderSize
  omega

theorem Whole.cut (hwhole : l.Whole c) : l.Cut c where
  packets := hwhole.packets
  whole := .inr (hwhole.sent ▸ List.prefix_rfl)
  cut := by
    refine ⟨[0], ⟨by simp, by decide⟩, ?_, ?_⟩
    · rw [hwhole.sent, HelperConfig.stream_append]
      exact List.prefix_append _ _
    · rw [hwhole.sent]
      exact length_stream_concat _ _

theorem settles_register (incoming : Bytes) (writes : List SocketWrite) :
    TunHelper.Settles (Whole c) (Cut c) (register c incoming writes) := by
  obtain ⟨hfront, hcomplete⟩ := writes_writeParts writes [c.registrationHeader, c.trackName]
  rw [List.flatten_cons, List.flatten_singleton] at hfront hcomplete
  unfold TunHelper.Settles register
  split
  · next hkept =>
      refine ⟨by simp, ?_⟩
      simp only [HelperConfig.stream, List.flatMap_nil, List.append_nil]
      exact hcomplete.mp hkept
  · next hlost =>
      refine ⟨by simp, .inl rfl, [0], ⟨by simp, by decide⟩, ?_, ?_⟩
      · exact hfront.trans (List.prefix_append _ _)
      · have hlonger := @length_stream_concat c [] [0]
        rw [HelperConfig.stream, List.flatMap_nil, List.append_nil] at hlonger
        exact lt_of_le_of_lt hfront.length_le hlonger

theorem settles_writePacket (writes : List SocketWrite) (hwhole : l.Whole c)
    (hsome : packet ≠ []) (hfits : packet.length ≤ tunPacketSize) :
    TunHelper.Settles (Whole c) (Cut c) (l.writePacket c packet writes) := by
  obtain ⟨hfront, hcomplete⟩ := writes_writeParts writes
    [hostU32Bytes packet.length, [c.priority], packet]
  have hframe : [hostU32Bytes packet.length, [c.priority], packet].flatten =
      (c.frame packet).encode := by
    simp [UdsFrame.encode, HelperConfig.frame]
  have hstream : c.stream (l.packets ++ [packet]) = l.sent ++ (c.frame packet).encode := by
    rw [HelperConfig.stream_append, List.flatMap_singleton, hwhole.sent]
  rw [hframe] at hfront hcomplete
  generalize hmoved : writeParts writes [hostU32Bytes packet.length, [c.priority], packet] =
    moved at hfront hcomplete
  unfold TunHelper.Settles writePacket
  cases hkept : moved.complete with
  | true =>
      simp only [hmoved, hkept, if_true]
      refine ⟨?_, ?_⟩
      · intro found hfound
        cases List.mem_append.mp hfound with
        | inl hbefore => exact hwhole.packets found hbefore
        | inr hlast =>
            obtain rfl := List.mem_singleton.mp hlast
            exact ⟨hsome, hfits⟩
      · simp only [hstream, hcomplete.mp hkept]
  | false =>
      simp only [hmoved, hkept, Bool.false_eq_true, if_false]
      refine ⟨hwhole.packets, .inr ?_, packet, ⟨hsome, hfits⟩, ?_, ?_⟩
      · simp only [← hwhole.sent]
        exact List.prefix_append _ _
      · simp only [hstream]
        exact (List.prefix_append_right_inj _).mpr hfront
      · simp only [hstream, List.length_append]
        have hle := hfront.length_le
        have hshort : moved.bytes.length ≠ (c.frame packet).encode.length := by
          intro hlength
          have hall := hcomplete.mpr (hfront.eq_of_length hlength)
          rw [hkept] at hall
          cases hall
        omega

/-- Reading leaves what was sent. -/
theorem readFrame_sent (l : HelperLink) (reads : List ReadOutcome) :
    (l.readFrame reads).1.sent = l.sent ∧ (l.readFrame reads).1.packets = l.packets := by
  unfold readFrame
  simp only
  split
  · exact ⟨rfl, rfl⟩
  split
  · exact ⟨rfl, rfl⟩
  split
  · exact ⟨rfl, rfl⟩
  split <;> exact ⟨rfl, rfl⟩

theorem linkInvariant_carries (c : HelperConfig) :
    TunHelper.LinkInvariant c (Whole c) (Cut c) where
  register := settles_register
  writePacket := fun writes hwhole hsome hfits =>
    settles_writePacket writes hwhole hsome hfits
  readFrame := by
    intro l reads hwhole
    obtain ⟨hsent, hpackets⟩ := l.readFrame_sent reads
    have hkept : (l.readFrame reads).1.Whole c :=
      ⟨hpackets ▸ hwhole.packets, by rw [hsent, hpackets]; exact hwhole.sent⟩
    unfold TunHelper.Settles
    split
    · exact hkept
    · exact hkept.cut
  hangup := Whole.cut

/-- What a connection took parses to its packets; what came of it to some of them. -/
theorem Cut.parse (hcut : l.Cut c) (hsrc : src <+: l.sent) :
    ∃ whole, whole <+: l.packets ∧ (parseStream src).records = whole.map c.payload ∧
      (parseStream src).malformed = false ∧
      (∀ trackId, (parseStream src).trackId = some trackId → trackId = c.track) ∧
      (src = l.sent → whole = l.packets) := by
  obtain ⟨next, hnext, hsent, hshort⟩ := hcut.cut
  have hpackets : ∀ packet ∈ l.packets ++ [next],
      packet ≠ [] ∧ packet.length ≤ tunPacketSize := by
    intro packet hpacket
    cases List.mem_append.mp hpacket with
    | inl hbefore => exact hcut.packets packet hbefore
    | inr hlast =>
        obtain rfl := List.mem_singleton.mp hlast
        exact hnext
  obtain ⟨whole, hwhole, hthere, hmost, hrecords, hmalformed, htrack⟩ :=
    HelperConfig.parseStream_cut hpackets (hsrc.trans hsent)
  have hbefore : whole <+: l.packets := by
    cases List.prefix_concat_iff.mp hwhole with
    | inr hbefore => exact hbefore
    | inl hall =>
        cases hthere with
        | inl hnil => rw [hnil]; exact List.nil_prefix
        | inr hthere =>
            have hle := (hthere.trans hsrc).length_le
            rw [hall] at hle
            omega
  refine ⟨whole, hbefore, hrecords, hmalformed, htrack, ?_⟩
  rintro rfl
  cases hcut.whole with
  | inl hnone =>
      rw [hnone] at hbefore ⊢
      exact List.prefix_nil.mp hbefore
  | inr hfront =>
      exact hbefore.eq_of_length_le (hmost _ (List.prefix_append _ _) hfront).length_le

end HelperLink

/-! ### What comes through -/

theorem DataUds.handsOverParse_run (clients : List DataUds.Op) :
    AllSessions UdsSession.HandsOverParse (run clients) := by
  intro slot session hsession
  have hall := allSessions_run UdsSession.invariant_serviced
    (fun op (_ : op ∈ clients) => by cases op <;> trivial)
  exact (hall slot session hsession).handsOverParse

namespace TunHelper

variable {c : HelperConfig} {h : TunHelper}

/-- The packets that the connections took, one connection after the other. -/
def carried (h : TunHelper) : List Bytes := h.links.flatMap HelperLink.packets

theorem links_settle (h : TunHelper) (result : HelperLink × Bool) :
    (h.settle result).links = h.past ++ [result.1] := by
  unfold settle
  split
  · rfl
  · exact List.append_nil _

theorem carried_settle (h : TunHelper) (result : HelperLink × Bool) :
    (h.settle result).carried = h.past.flatMap HelperLink.packets ++ result.1.packets := by
  rw [carried, links_settle, List.flatMap_append, List.flatMap_singleton]

theorem carried_of_link (hlink : h.link = some l) :
    h.carried = h.past.flatMap HelperLink.packets ++ l.packets := by
  rw [carried, links, hlink, List.flatMap_append, Option.toList_some, List.flatMap_singleton]

theorem carried_apply (h : TunHelper) (op : Op) :
    (apply c h op).carried.Sublist (h.carried ++ op.packet?.toList) := by
  have hsame : h.carried.Sublist (h.carried ++ op.packet?.toList) :=
    List.sublist_append_left _ _
  cases hlink : h.link with
  | none =>
      cases op with
      | connect incoming writes =>
          simp only [apply, hlink]
          rw [carried_settle, carried, links, hlink]
          simp [HelperLink.register]
      | packet data writes => simpa only [apply, hlink] using hsame
      | readable reads => simpa only [apply, hlink] using hsame
      | hangup => simpa only [apply, hlink] using hsame
  | some l =>
      cases op with
      | connect incoming writes => simpa only [apply, hlink] using hsame
      | packet data writes =>
          simp only [apply, hlink]
          split
          · exact hsame
          · next hsome =>
              rw [carried_settle, carried_of_link hlink, List.append_assoc]
              apply List.Sublist.append_left
              simp only [HelperLink.writePacket, Op.packet?, hsome, if_false, Option.toList_some]
              split
              · exact List.Sublist.refl _
              · exact List.sublist_append_left _ _
      | readable reads =>
          simp only [apply, hlink]
          rw [carried_settle, (l.readFrame_sent reads).2, ← carried_of_link hlink]
          exact hsame
      | hangup =>
          simp only [apply, hlink]
          have hclosed : (h.close l).carried = h.carried := by
            rw [carried_of_link hlink, carried, links, close]
            simp
          rw [hclosed]
          exact hsame

theorem carried_run (c : HelperConfig) (ops : List Op) :
    (run c ops).carried.Sublist (ops.filterMap Op.packet?) := by
  have hfrom : ∀ h : TunHelper, (Machine.run (apply c) h ops).carried.Sublist
      (h.carried ++ ops.filterMap Op.packet?) := by
    induction ops with
    | nil =>
        intro h
        exact List.sublist_append_left _ _
    | cons op ops ih =>
        intro h
        have hstep := (@carried_apply c h op).append_right (ops.filterMap Op.packet?)
        have hsplit : (op :: ops).filterMap Op.packet? =
            op.packet?.toList ++ ops.filterMap Op.packet? := by
          cases hpacket : op.packet? with
          | none => rw [List.filterMap_cons_none hpacket]; rfl
          | some packet => rw [List.filterMap_cons_some hpacket]; rfl
        rw [Machine.run_cons, hsplit, ← List.append_assoc]
        exact (ih (apply c h op)).trans hstep
  exact hfrom {}

/-- The connections take the interface's packets in order.  Of what one of them took, wherever
it was cut off, the daemon makes records that are its packets from the first on, on the
helper's track and at its priority, and never finds it malformed; and once the daemon has read
all of it, they are all its packets. -/
theorem outbound_faithful (c : HelperConfig) (ops : List Op) :
    (run c ops).carried.Sublist (ops.filterMap Op.packet?) ∧
      ∀ l ∈ (run c ops).links, ∀ (clients : List DataUds.Op) (slot : Nat) (session : UdsSession),
        (DataUds.run clients).sessions slot = some session → session.sent <+: l.sent →
        ∃ taken pending, Ingested session.sent session.socket.unread session.offers
            session.closed taken pending ∧
          (taken ++ pendingRecords pending).map UdsRecord.payload <+:
            l.packets.map c.payload ∧
          (∀ record ∈ taken ++ pendingRecords pending, record.trackId = c.track) ∧
          session.closed ≠ some .invalid ∧
          (session.sent = l.sent → session.closed = some .ended →
            taken.map UdsRecord.payload = l.packets.map c.payload) := by
  refine ⟨carried_run c ops, ?_⟩
  intro l hl clients slot session hsession hsent
  have hinv := HelperLink.linkInvariant_carries c
  have hcut : l.Cut c := (keeps_run hinv ops).links hinv hl
  obtain ⟨taken, pending, hingested⟩ := DataUds.handsOverParse_run clients slot session hsession
  obtain ⟨whole, hwhole, hrecords, hmalformed, htrack, hall⟩ := hcut.parse hsent
  refine ⟨taken, pending, hingested, ?_, ?_, ?_, ?_⟩
  · have horder := hingested.inOrder
    rw [hrecords] at horder
    exact horder.trans (hwhole.map c.payload)
  · intro record hrecord
    exact htrack _ (hingested.tracks record hrecord)
  · intro hinvalid
    rw [hingested.malformed hinvalid] at hmalformed
    cases hmalformed
  · intro hwholly hended
    obtain ⟨-, htaken⟩ := hingested.whole (.inl hended)
    rw [← htaken, hrecords, hall hwholly]

end TunHelper

end Qlinq
