import Qlinq.UdsOutput
import Qlinq.UdsStream

namespace Qlinq

/-! The helper between a TUN interface and the daemon's socket. -/

def tunPacketSize : Nat := 2048

/-- How the helper is started; the track's name is a C string that fits its buffer. -/
structure HelperConfig where
  useReliable : Bool
  priority : UInt8
  trackName : Bytes
  name_le : trackName.length ≤ udsMaxNameLen
  name_text : (0 : UInt8) ∉ trackName

/-- A connection to the daemon: the bytes that its socket took, the packets whose frames are
among them, the bytes that the daemon sends in all and those not read yet, and the frames that
were read and handed to the interface. -/
structure HelperLink where
  sent : Bytes := []
  packets : List Bytes := []
  incoming : Bytes
  unread : Bytes
  delivered : List UdsFrame := []
  deriving DecidableEq, Repr

/-- `past` are the connections that were closed, for specification. -/
structure TunHelper where
  link : Option HelperLink := none
  past : List HelperLink := []
  deriving DecidableEq, Repr

/-- What an exact write or read has moved, whether it is complete, and the outcomes left. -/
structure Moved (ι : Type) where
  bytes : Bytes
  complete : Bool
  rest : List ι

/-- `write_exact`; a socket without an outcome left fails. -/
def writeExact (data : Bytes) : List SocketWrite → Moved SocketWrite
  | [] => ⟨[], data.isEmpty, []⟩
  | write :: rest =>
      if data = [] then
        ⟨[], true, write :: rest⟩
      else
        match write with
        | .wrote more =>
            let moved := writeExact (data.drop (more + 1)) rest
            { moved with bytes := data.take (more + 1) ++ moved.bytes }
        | .interrupted => writeExact data rest
        | .blocked => ⟨[], false, rest⟩
        | .failed => ⟨[], false, rest⟩

/-- One `write_exact` after the other, as long as they succeed. -/
def writeParts (writes : List SocketWrite) : List Bytes → Moved SocketWrite
  | [] => ⟨[], true, writes⟩
  | part :: parts =>
      let moved := writeExact part writes
      if moved.complete then
        let later := writeParts moved.rest parts
        { later with bytes := moved.bytes ++ later.bytes }
      else
        moved

/-- `read_exact` of bytes that are there; where they end the peer has closed. -/
def readExact : List ReadOutcome → Nat → Bytes → Moved ReadOutcome
  | reads, 0, _ => ⟨[], true, reads⟩
  | [], _ + 1, _ => ⟨[], false, []⟩
  | outcome :: reads, size + 1, unread =>
      match outcome with
      | .interrupted => readExact reads (size + 1) unread
      | .wouldBlock => ⟨[], false, reads⟩
      | .failed => ⟨[], false, reads⟩
      | .upTo n =>
          let chunk := unread.take (min (n + 1) (size + 1))
          if chunk = [] then
            ⟨[], false, reads⟩
          else
            let moved := readExact reads (size + 1 - chunk.length) (unread.drop chunk.length)
            { moved with bytes := chunk ++ moved.bytes }

namespace HelperConfig

def flags (c : HelperConfig) : UInt8 := if c.useReliable then flagReliable else flagFecEnabled

def track (c : HelperConfig) : TrackId where
  type := .data
  flags := c.flags
  name := c.trackName

def registrationHeader (c : HelperConfig) : Bytes :=
  [TrackType.data.code, c.flags, UInt8.ofNat c.trackName.length]

def registration (c : HelperConfig) : Bytes := c.registrationHeader ++ c.trackName

def frame (c : HelperConfig) (packet : Bytes) : UdsFrame where
  payload := packet
  priority := c.priority

def payload (c : HelperConfig) (packet : Bytes) : UdsPayload where
  data := packet
  priority := c.priority

end HelperConfig

namespace HelperLink

/-- The socket is connected and the track registered. -/
def register (c : HelperConfig) (incoming : Bytes) (writes : List SocketWrite) :
    HelperLink × Bool :=
  let moved := writeParts writes [c.registrationHeader, c.trackName]
  ({ sent := moved.bytes, incoming := incoming, unread := incoming }, moved.complete)

/-- A packet's size, priority and bytes are written; a failure closes the connection. -/
def writePacket (l : HelperLink) (c : HelperConfig) (packet : Bytes) (writes : List SocketWrite) :
    HelperLink × Bool :=
  let moved := writeParts writes [hostU32Bytes packet.length, [c.priority], packet]
  ({ l with
      sent := l.sent ++ moved.bytes
      packets := if moved.complete then l.packets ++ [packet] else l.packets },
    moved.complete)

/-- A frame is read; one that is cut off or too large closes the connection.  What else of it
is read goes with the connection. -/
def readFrame (l : HelperLink) (reads : List ReadOutcome) : HelperLink × Bool :=
  let size := readExact reads 4 l.unread
  if !size.complete then
    (l, false)
  else
    let priority := readExact size.rest 1 (l.unread.drop 4)
    if !priority.complete then
      (l, false)
    else if tunPacketSize < hostU32 size.bytes then
      (l, false)
    else
      let packet := readExact priority.rest (hostU32 size.bytes) (l.unread.drop 5)
      if !packet.complete then
        (l, false)
      else
        ({ l with
            unread := l.unread.drop (5 + hostU32 size.bytes)
            delivered := l.delivered ++
              [{ payload := packet.bytes, priority := priority.bytes.getD 0 1 }] },
          true)

end HelperLink

namespace TunHelper

/-- The socket connects and the daemon will have sent `incoming` when it closes; the interface
has a packet; the daemon's socket is readable; or it has hung up. -/
inductive Op where
  | connect (incoming : Bytes) (writes : List SocketWrite)
  | packet (data : Bytes) (writes : List SocketWrite)
  | readable (reads : List ReadOutcome)
  | hangup
  deriving DecidableEq, Repr

def close (h : TunHelper) (l : HelperLink) : TunHelper where
  link := none
  past := h.past ++ [l]

/-- A step on the connection keeps it or closes it. -/
def settle (h : TunHelper) (result : HelperLink × Bool) : TunHelper :=
  if result.2 then { h with link := some result.1 } else h.close result.1

def apply (c : HelperConfig) (h : TunHelper) : Op → TunHelper
  | .connect incoming writes =>
      match h.link with
      | some _ => h
      | none => h.settle (HelperLink.register c incoming writes)
  | .packet data writes =>
      match h.link with
      | none => h
      | some l =>
          let packet := data.take tunPacketSize
          if packet = [] then h else h.settle (l.writePacket c packet writes)
  | .readable reads =>
      match h.link with
      | none => h
      | some l => h.settle (l.readFrame reads)
  | .hangup =>
      match h.link with
      | none => h
      | some l => h.close l

def run (c : HelperConfig) (ops : List Op) : TunHelper := Machine.run (apply c) {} ops

def links (h : TunHelper) : List HelperLink := h.past ++ h.link.toList

/-- What one read of the interface gives, if anything. -/
def Op.packet? : Op → Option Bytes
  | .packet data _ => if data.take tunPacketSize = [] then none else some (data.take tunPacketSize)
  | _ => none

/-! ### What holds of every connection -/

/-- `Open` holds of a connection that is kept, `Closed` of one that is not. -/
def Settles (Open Closed : HelperLink → Prop) (result : HelperLink × Bool) : Prop :=
  if result.2 then Open result.1 else Closed result.1

structure LinkInvariant (c : HelperConfig) (Open Closed : HelperLink → Prop) : Prop where
  register : ∀ incoming writes, Settles Open Closed (HelperLink.register c incoming writes)
  writePacket : ∀ {l packet} writes, Open l → packet ≠ [] → packet.length ≤ tunPacketSize →
    Settles Open Closed (l.writePacket c packet writes)
  readFrame : ∀ {l} reads, Open l → Settles Open Closed (l.readFrame reads)
  hangup : ∀ {l}, Open l → Closed l

structure Keeps (Open Closed : HelperLink → Prop) (h : TunHelper) : Prop where
  link : ∀ l, h.link = some l → Open l
  past : ∀ l ∈ h.past, Closed l

variable {Open Closed : HelperLink → Prop} {h : TunHelper}

theorem Keeps.close (hkeeps : h.Keeps Open Closed) (hclosed : Closed l) :
    (h.close l).Keeps Open Closed where
  link := by
    intro l hl
    cases hl
  past := by
    intro found hfound
    cases List.mem_append.mp hfound with
    | inl hpast => exact hkeeps.past found hpast
    | inr hlast =>
        obtain rfl := List.mem_singleton.mp hlast
        exact hclosed

theorem Keeps.settle (hkeeps : h.Keeps Open Closed) (hsettles : Settles Open Closed result) :
    (h.settle result).Keeps Open Closed := by
  unfold Settles at hsettles
  unfold TunHelper.settle
  split
  · next hkept =>
      rw [if_pos hkept] at hsettles
      refine ⟨?_, hkeeps.past⟩
      intro l hl
      cases hl
      exact hsettles
  · next hlost =>
      rw [if_neg hlost] at hsettles
      exact hkeeps.close hsettles

theorem keeps_apply {c : HelperConfig} (hinv : LinkInvariant c Open Closed)
    (hkeeps : h.Keeps Open Closed) (op : Op) : (apply c h op).Keeps Open Closed := by
  cases hlink : h.link with
  | none =>
      cases op with
      | connect incoming writes =>
          simp only [apply, hlink]
          exact hkeeps.settle (hinv.register incoming writes)
      | packet data writes => simpa only [apply, hlink] using hkeeps
      | readable reads => simpa only [apply, hlink] using hkeeps
      | hangup => simpa only [apply, hlink] using hkeeps
  | some l =>
      have hopen := hkeeps.link l hlink
      cases op with
      | connect incoming writes => simpa only [apply, hlink] using hkeeps
      | packet data writes =>
          simp only [apply, hlink]
          split
          · exact hkeeps
          · next hsome =>
              exact hkeeps.settle
                (hinv.writePacket writes hopen hsome (List.length_take_le _ _))
      | readable reads =>
          simp only [apply, hlink]
          exact hkeeps.settle (hinv.readFrame reads hopen)
      | hangup =>
          simp only [apply, hlink]
          exact hkeeps.close (hinv.hangup hopen)

/-- What is promised of a closed connection holds of every connection of a run. -/
theorem keeps_run {c : HelperConfig} (hinv : LinkInvariant c Open Closed) (ops : List Op) :
    (run c ops).Keeps Open Closed := by
  refine Machine.invariant_run (fun _ op hkeeps _ => keeps_apply hinv hkeeps op) ?_
    (Machine.along_true _ ops)
  exact ⟨by simp, by simp⟩

theorem Keeps.links {c : HelperConfig} (hkeeps : h.Keeps Open Closed)
    (hinv : LinkInvariant c Open Closed) (hl : l ∈ h.links) : Closed l := by
  cases List.mem_append.mp hl with
  | inl hpast => exact hkeeps.past l hpast
  | inr hlink => exact hinv.hangup (hkeeps.link l (Option.mem_toList.mp hlink))

end TunHelper

end Qlinq
