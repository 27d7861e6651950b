import Mathlib.Algebra.GroupWithZero.Nat
import Qlinq.Lib.WordMask

namespace Qlinq

/-! Track identities and the delivery profile their flags select. -/

abbrev Bytes := List UInt8

abbrev TrackAlias := UInt8

def uint64Max : Nat := 2 ^ 64 - 1

inductive TrackType where
  | video
  | audio
  | input
  | text
  | data
  | telemetry
  deriving DecidableEq, Repr

def TrackType.code : TrackType → UInt8
  | .video => 0
  | .audio => 1
  | .input => 2
  | .text => 3
  | .data => 4
  | .telemetry => 6

def TrackType.ofCode? : UInt8 → Option TrackType
  | 0 => some .video
  | 1 => some .audio
  | 2 => some .input
  | 3 => some .text
  | 4 => some .data
  | 6 => some .telemetry
  | _ => none

def trackTypeValid (type : UInt8) : Bool := (TrackType.ofCode? type).isSome

def flagReliable : UInt8 := 1

def flagFecEnabled : UInt8 := 2

def flagFecRateless : UInt8 := 4

/-- A track identity.  `name` holds the bytes before the C string's
terminator. -/
structure TrackId where
  type : TrackType
  flags : UInt8
  name : Bytes
  deriving DecidableEq, Repr

structure TrackProfile where
  reliable : Bool
  fecEnabled : Bool
  fecRateless : Bool
  deriving DecidableEq, Repr

def trackProfile (track : TrackId) : TrackProfile where
  reliable := track.flags &&& flagReliable != 0
  fecEnabled := track.flags &&& flagFecEnabled != 0
  fecRateless := track.flags &&& flagFecRateless != 0

def maxTrackName : Nat := 64

def trackIdValid (track : TrackId) : Bool :=
  track.name.length < maxTrackName &&
    trackTypeValid track.type.code &&
    track.flags &&& ~~~(flagReliable ||| flagFecEnabled ||| flagFecRateless) == 0

namespace TrackProfile

/-- The publisher encodes the track's objects as FEC symbols. -/
def usesFec (profile : TrackProfile) : Bool :=
  profile.fecEnabled || profile.fecRateless

end TrackProfile

namespace TrackId

/-- Subscriptions are matched by type and name alone. -/
def key (track : TrackId) : TrackType × Bytes := (track.type, track.name)

/-- Recovery checkpoints exist on rateless DATA tracks only. -/
def isRatelessData (track : TrackId) : Bool :=
  track.type == .data && (trackProfile track).fecRateless

theorem eq_of_key_of_flags {left right : TrackId}
    (hkey : left.key = right.key) (hflags : left.flags = right.flags) :
    left = right := by
  cases left
  cases right
  simp_all [key]

end TrackId

@[simp] theorem TrackType.ofCode?_code (type : TrackType) :
    TrackType.ofCode? type.code = some type := by
  cases type <;> rfl

@[simp] theorem trackTypeValid_code (type : TrackType) :
    trackTypeValid type.code = true := by
  simp [trackTypeValid]

theorem trackProfile_congr {left right : TrackId}
    (hflags : left.flags = right.flags) :
    trackProfile left = trackProfile right := by
  simp [trackProfile, hflags]

end Qlinq
