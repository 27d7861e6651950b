import Qlinq.Lib.ListDifference
import Qlinq.Paths

namespace Qlinq

open ListDifference

/-! The interface monitor: snapshots, the difference of two, and the messages a
difference is turned into. -/

def ifmonMaxInterfaces : Nat := 16

def ifmonMaxIpsPerIface : Nat := 16

inductive IpAddr
  | v4 (host : BitVec 32)
  | v6 (host : BitVec 128)
  deriving DecidableEq, Repr

/-- The socket address of any port. -/
def IpAddr.sockAddr : IpAddr → SockAddr
  | v4 host => .inet host 0
  | v6 host => .inet6 host 0

structure IfmonAddr where
  ip : IpAddr
  prefixLen : UInt8
  deriving DecidableEq, Repr

structure IfmonIface where
  index : UInt32
  name : List UInt8
  hwAddr : List UInt8
  isUp : Bool
  addrs : List IfmonAddr
  capped : addrs.length ≤ ifmonMaxIpsPerIface
  deriving DecidableEq, Repr

structure IfmonList where
  ifaces : List IfmonIface
  capped : ifaces.length ≤ ifmonMaxInterfaces
  deriving DecidableEq, Repr

structure IfmonIfaceDiff where
  index : UInt32
  hwAddrChanged : Bool
  linkStateChanged : Bool
  isUp : Bool
  addrsAdded : List IfmonAddr
  addrsRemoved : List IfmonAddr
  deriving DecidableEq, Repr

structure IfmonUpdate where
  isInitial : Bool
  interfaces : IfmonList
  added : List UInt32
  removed : List UInt32
  modified : List IfmonIfaceDiff
  deriving DecidableEq, Repr

namespace IfmonList

def find (list : IfmonList) (index : UInt32) : Option IfmonIface :=
  list.ifaces.find? fun iface => iface.index = index

def indices (list : IfmonList) : List UInt32 := list.ifaces.map IfmonIface.index

theorem isNone_find_iff {list : IfmonList} :
    (list.find index).isNone = true ↔ index ∉ list.indices := by
  simp only [find, indices, Option.isNone_iff_eq_none, List.find?_eq_none, decide_eq_true_eq,
    List.mem_map, not_exists, not_and]

end IfmonList

namespace IfmonIfaceDiff

def ofPair (prev curr : IfmonIface) : IfmonIfaceDiff where
  index := curr.index
  hwAddrChanged := prev.hwAddr ≠ curr.hwAddr
  linkStateChanged := prev.isUp ≠ curr.isUp
  isUp := curr.isUp
  addrsAdded := (curr.addrs.filter fun addr => addr ∉ prev.addrs).take ifmonMaxIpsPerIface
  addrsRemoved := (prev.addrs.filter fun addr => addr ∉ curr.addrs).take ifmonMaxIpsPerIface

def changed (diff : IfmonIfaceDiff) : Bool :=
  diff.hwAddrChanged || diff.linkStateChanged || !diff.addrsAdded.isEmpty ||
    !diff.addrsRemoved.isEmpty

/-! The fixed arrays have room for every address and every interface. -/

theorem addrsAdded_ofPair (prev curr : IfmonIface) :
    (ofPair prev curr).addrsAdded = beyond curr.addrs prev.addrs :=
  List.take_of_length_le ((length_beyond_le curr.addrs prev.addrs).trans curr.capped)

theorem addrsRemoved_ofPair (prev curr : IfmonIface) :
    (ofPair prev curr).addrsRemoved = beyond prev.addrs curr.addrs :=
  List.take_of_length_le ((length_beyond_le prev.addrs curr.addrs).trans prev.capped)

end IfmonIfaceDiff

namespace IfmonUpdate

/-- The difference of an interface both snapshots have. -/
def diffOf (prev : IfmonList) (curr : IfmonIface) : Option IfmonIfaceDiff :=
  match prev.find curr.index with
  | none => none
  | some old =>
      if (IfmonIfaceDiff.ofPair old curr).changed then
        some (IfmonIfaceDiff.ofPair old curr)
      else
        none

def generateUpdate (prev curr : IfmonList) (isInitial : Bool) : IfmonUpdate :=
  if isInitial then
    { isInitial := true, interfaces := curr, added := [], removed := [], modified := [] }
  else
    { isInitial := false
      interfaces := curr
      added := ((curr.ifaces.filter fun iface => (prev.find iface.index).isNone).map
        IfmonIface.index).take ifmonMaxInterfaces
      removed := ((prev.ifaces.filter fun iface => (curr.find iface.index).isNone).map
        IfmonIface.index).take ifmonMaxInterfaces
      modified := (curr.ifaces.filterMap (diffOf prev)).take ifmonMaxInterfaces }

theorem unlisted_eq (a b : IfmonList) :
    ((a.ifaces.filter fun iface => (b.find iface.index).isNone).map IfmonIface.index).take
      ifmonMaxInterfaces = beyond a.indices b.indices := by
  have hfits : (beyond a.indices b.indices).length ≤ ifmonMaxInterfaces :=
    calc (beyond a.indices b.indices).length
      _ ≤ a.indices.length := length_beyond_le _ _
      _ = a.ifaces.length := List.length_map _
      _ ≤ ifmonMaxInterfaces := a.capped
  have hunlisted : (a.ifaces.filter fun iface => (b.find iface.index).isNone) =
      a.ifaces.filter fun iface => iface.index ∉ b.indices := by
    apply List.filter_congr
    intro iface _
    rw [Bool.eq_iff_iff, IfmonList.isNone_find_iff, decide_eq_true_eq]
  rw [hunlisted, map_filter_beyond]
  exact List.take_of_length_le hfits

theorem added_generateUpdate (prev curr : IfmonList) :
    (generateUpdate prev curr false).added = beyond curr.indices prev.indices :=
  unlisted_eq curr prev

theorem removed_generateUpdate (prev curr : IfmonList) :
    (generateUpdate prev curr false).removed = beyond prev.indices curr.indices :=
  unlisted_eq prev curr

theorem modified_generateUpdate (prev curr : IfmonList) :
    (generateUpdate prev curr false).modified = curr.ifaces.filterMap (diffOf prev) :=
  List.take_of_length_le ((List.length_filterMap_le _ _).trans curr.capped)

/-! `on_ifmon_update`. -/

def addrMessage (index : UInt32) (name : List UInt8) (isAdded : Bool) (addr : IfmonAddr) :
    IfmonMessage where
  index := index
  name := name
  addr := some addr.ip.sockAddr
  isAdded := isAdded

/-- A removed interface is named by its index, with `AF_UNSPEC`. -/
def interfaceRemoval (index : UInt32) : IfmonMessage where
  index := index
  name := []
  addr := none
  isAdded := false

def ifaceMessages (iface : IfmonIface) (isAdded : Bool) : List IfmonMessage :=
  iface.addrs.map (addrMessage iface.index iface.name isAdded)

def addedMessages (update : IfmonUpdate) (index : UInt32) : List IfmonMessage :=
  match update.interfaces.find index with
  | none => []
  | some iface => ifaceMessages iface true

/-- First every address of an interface whose link changed, then the addresses
it gained, then those it lost. -/
def modifiedMessages (update : IfmonUpdate) (diff : IfmonIfaceDiff) : List IfmonMessage :=
  let iface := update.interfaces.find diff.index
  let name := (iface.map IfmonIface.name).getD []
  (if diff.linkStateChanged then
      match iface with
      | none => []
      | some iface => ifaceMessages iface diff.isUp
    else
      []) ++
    diff.addrsAdded.map (addrMessage diff.index name true) ++
    diff.addrsRemoved.map (addrMessage diff.index name false)

def onIfmonUpdate (update : IfmonUpdate) : List IfmonMessage :=
  if update.isInitial then
    []
  else
    update.added.flatMap update.addedMessages ++
      update.removed.map interfaceRemoval ++
      update.modified.flatMap update.modifiedMessages

end IfmonUpdate

end Qlinq
