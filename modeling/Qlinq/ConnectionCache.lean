import Mathlib.Algebra.GroupWithZero.Nat
import Mathlib.Data.List.Nodup
import Mathlib.Logic.Function.Basic
import Qlinq.Lib.Machine

namespace Qlinq

/-! How a server finds the connection of a packet: a cache keyed by master id is only a hint
beside the list of connections. -/

def connectionCacheSlots : Nat := 256

/-- `quicly_cid_plaintext_t`, without what changes from path to path. -/
structure CidPlaintext where
  masterId : Nat
  threadId : Nat
  nodeId : Nat
  deriving DecidableEq, Repr

/-- A connection with `quicly_get_master_id`, which is fixed for its lifetime. -/
structure RoutedConn where
  id : Nat
  master : CidPlaintext
  deriving DecidableEq, Repr

/-- A packet with its destination, and the memory and the answers that it meets: which
connections `quicly_is_destination` confirms, and whether a new one can be accepted and
furnished. -/
structure RoutedPacket where
  longHeader : Bool
  dest : CidPlaintext
  isDestination : Nat → Bool
  accepts : Bool
  calloc : Option Nat
  furnishes : Bool

/-- The connections of a server: `heap` is what their addresses refer to. -/
structure ConnectionTable where
  maxConnections : Nat
  decryptsCids : Bool
  heap : Nat → Option RoutedConn := fun _ => none
  conns : List Nat := []
  cache : Nat → Option Nat := fun _ => none
  nextCid : CidPlaintext
  nextConnId : Nat := 1
  shuttingDown : Bool := false
  accepted : Nat := 0
  rejected : Nat := 0

namespace ConnectionTable

def slotOf (cid : CidPlaintext) : Nat := cid.masterId % connectionCacheSlots

/-- `transport_connection_cache_find`. -/
def cacheFind (t : ConnectionTable) (cid : CidPlaintext) : Option Nat :=
  (t.cache (slotOf cid)).filter fun conn => (t.heap conn).any fun found => found.master = cid

/-- `transport_connection_cache_remember`. -/
def cacheRemember (t : ConnectionTable) (conn : Nat) : ConnectionTable :=
  match t.heap conn with
  | none => t
  | some found =>
      { t with cache := Function.update t.cache (slotOf found.master) (some conn) }

/-- `transport_connection_cache_forget`. -/
def cacheForget (t : ConnectionTable) (conn : Nat) : ConnectionTable :=
  match t.heap conn with
  | none => t
  | some found =>
      if t.cache (slotOf found.master) = some conn then
        { t with cache := Function.update t.cache (slotOf found.master) none }
      else
        t

/-- The hint that a packet finds confirmed. -/
def cacheHit (t : ConnectionTable) (packet : RoutedPacket) : Option Nat :=
  if t.decryptsCids && !packet.longHeader then
    (t.cacheFind packet.dest).filter packet.isDestination
  else
    none

/-- Accept a new connection; memory in use is never handed out again. -/
def accept (t : ConnectionTable) (packet : RoutedPacket) : ConnectionTable × Option Nat :=
  if !packet.accepts then
    (t, none)
  else
    let master := t.nextCid
    let t := { t with nextCid := { t.nextCid with masterId := (master.masterId + 1) % 2 ^ 32 } }
    match packet.calloc.filter fun address => (t.heap address).isNone with
    | none => ({ t with rejected := t.rejected + 1 }, none)
    | some address =>
        let conn := { id := t.nextConnId, master := master }
        let t := { t with nextConnId := t.nextConnId + 1 }
        if packet.furnishes then
          let listed := { t with
            heap := Function.update t.heap address (some conn)
            conns := t.conns ++ [address] }
          let remembered := listed.cacheRemember address
          ({ remembered with accepted := remembered.accepted + 1 }, some address)
        else
          ({ t with rejected := t.rejected + 1 }, none)

/-- The server's part of packet routing in `transport_tick`. -/
def route (t : ConnectionTable) (packet : RoutedPacket) : ConnectionTable × Option Nat :=
  match t.cacheHit packet with
  | some hint => (t, some hint)
  | none =>
      match t.conns.find? packet.isDestination with
      | some found => (t.cacheRemember found, some found)
      | none =>
          if t.shuttingDown then
            (t, none)
          else if t.conns.length < t.maxConnections then
            t.accept packet
          else
            ({ t with rejected := t.rejected + 1 }, none)

/-- The removal of the connection at a place of the list in `transport_tick`. -/
def remove (t : ConnectionTable) (index : Nat) : ConnectionTable :=
  match t.conns[index]? with
  | none => t
  | some conn =>
      let forgotten := t.cacheForget conn
      { forgotten with
        heap := Function.update forgotten.heap conn none
        conns := forgotten.conns.eraseIdx index }

inductive Op where
  | packet (packet : RoutedPacket)
  | remove (index : Nat)
  | shutdown

def apply (t : ConnectionTable) : Op → ConnectionTable
  | .packet packet => (t.route packet).1
  | .remove index => t.remove index
  | .shutdown => { t with shuttingDown := true }

def run (t : ConnectionTable) (ops : List Op) : ConnectionTable := Machine.run apply t ops

/-- A server before its first packet. -/
def init (maxConnections : Nat) (decryptsCids : Bool) (nextCid : CidPlaintext) :
    ConnectionTable where
  maxConnections := maxConnections
  decryptsCids := decryptsCids
  nextCid := nextCid

def masterOf (t : ConnectionTable) (conn : Nat) : Option CidPlaintext :=
  (t.heap conn).map (·.master)

/-! ### What the cache refers to -/

/-- The listed connections are those in memory, and a cache slot refers to one of them whose
master id belongs there. -/
structure Sound (t : ConnectionTable) : Prop where
  nodup : t.conns.Nodup
  live : ∀ conn, conn ∈ t.conns ↔ (t.heap conn).isSome
  cached : ∀ slot conn, t.cache slot = some conn →
    conn ∈ t.conns ∧ ∃ found, t.heap conn = some found ∧ slotOf found.master = slot

variable {t : ConnectionTable}

theorem sound_init (maxConnections : Nat) (decryptsCids : Bool) (nextCid : CidPlaintext) :
    (init maxConnections decryptsCids nextCid).Sound where
  nodup := List.nodup_nil
  live := fun conn => ⟨fun hmem => absurd hmem List.not_mem_nil, fun hheap => by cases hheap⟩
  cached := fun _ _ hcached => by cases hcached

/-- The fields that the invariant reads are the same. -/
theorem Sound.congr {after : ConnectionTable} (hsound : t.Sound) (hheap : after.heap = t.heap)
    (hconns : after.conns = t.conns) (hcache : after.cache = t.cache) : after.Sound where
  nodup := hconns ▸ hsound.nodup
  live := by
    rw [hheap, hconns]
    exact hsound.live
  cached := by
    rw [hheap, hconns, hcache]
    exact hsound.cached

theorem sound_cacheRemember (hsound : t.Sound) (hconn : conn ∈ t.conns) :
    (t.cacheRemember conn).Sound := by
  obtain ⟨found, hfound⟩ := Option.isSome_iff_exists.mp ((hsound.live conn).mp hconn)
  simp only [cacheRemember, hfound]
  refine ⟨hsound.nodup, hsound.live, fun slot other hcached => ?_⟩
  change Function.update t.cache (slotOf found.master) (some conn) slot = some other at hcached
  cases decEq slot (slotOf found.master) with
  | isTrue heq =>
      subst heq
      rw [Function.update_self] at hcached
      obtain rfl := Option.some.inj hcached
      exact ⟨hconn, found, hfound, rfl⟩
  | isFalse hne =>
      rw [Function.update_of_ne hne] at hcached
      exact hsound.cached slot other hcached

/-- Once it is forgotten no slot refers to the connection. -/
theorem forgotten (hsound : t.Sound) (conn : Nat) :
    (t.cacheForget conn).heap = t.heap ∧ (t.cacheForget conn).conns = t.conns ∧
      ∀ slot other, (t.cacheForget conn).cache slot = some other →
        t.cache slot = some other ∧ other ≠ conn := by
  have helsewhere : ∀ slot other, t.cache slot = some other →
      (∀ found, t.heap conn = some found → slotOf found.master ≠ slot) → other ≠ conn := by
    intro slot other hcached hapart heq
    subst heq
    obtain ⟨-, found, hfound, hslot⟩ := hsound.cached slot other hcached
    exact hapart found hfound hslot
  unfold cacheForget
  split
  · next hgone =>
      refine ⟨rfl, rfl, fun slot other hcached => ⟨hcached, ?_⟩⟩
      refine helsewhere slot other hcached fun found hfound => ?_
      rw [hgone] at hfound
      cases hfound
  next found hfound =>
  split
  · refine ⟨rfl, rfl, fun slot other hcached => ?_⟩
    change Function.update t.cache (slotOf found.master) none slot = some other at hcached
    cases decEq slot (slotOf found.master) with
    | isTrue heq =>
        subst heq
        rw [Function.update_self] at hcached
        cases hcached
    | isFalse hne =>
        rw [Function.update_of_ne hne] at hcached
        refine ⟨hcached, helsewhere slot other hcached fun held hheld => ?_⟩
        obtain rfl := Option.some.inj (hfound.symm.trans hheld)
        exact Ne.symm hne
  · next hother =>
      refine ⟨rfl, rfl, fun slot other hcached => ⟨hcached, fun heq => ?_⟩⟩
      subst heq
      obtain ⟨-, held, hheld, hslot⟩ := hsound.cached slot other hcached
      obtain rfl := Option.some.inj (hfound.symm.trans hheld)
      exact hother (hslot ▸ hcached)

theorem sound_remove (hsound : t.Sound) (index : Nat) : (t.remove index).Sound := by
  unfold remove
  split
  · exact hsound
  next conn hconn =>
  obtain ⟨hheap, hconns, hcached⟩ := forgotten hsound conn
  have hleft : ∀ other, other ∈ t.conns.eraseIdx index ↔ other ∈ t.conns ∧ other ≠ conn := by
    intro other
    have hplace := List.getElem?_eq_some_iff.mp hconn
    obtain ⟨hindex, hat⟩ := hplace
    rw [← List.Nodup.erase_getElem hsound.nodup index hindex, hat,
      hsound.nodup.mem_erase_iff, and_comm]
  refine ⟨?_, fun other => ?_, fun slot other hslot => ?_⟩
  · change ((t.cacheForget conn).conns.eraseIdx index).Nodup
    rw [hconns]
    exact hsound.nodup.eraseIdx index
  · change other ∈ (t.cacheForget conn).conns.eraseIdx index ↔
      (Function.update (t.cacheForget conn).heap conn none other).isSome
    rw [hconns, hheap, hleft, hsound.live]
    cases decEq other conn with
    | isTrue heq =>
        subst heq
        rw [Function.update_self]
        simp
    | isFalse hne =>
        rw [Function.update_of_ne hne]
        simp [hne]
  · obtain ⟨hbefore, hother⟩ := hcached slot other hslot
    obtain ⟨hmem, found, hfound, hhere⟩ := hsound.cached slot other hbefore
    refine ⟨?_, found, ?_, hhere⟩
    · change other ∈ (t.cacheForget conn).conns.eraseIdx index
      rw [hconns, hleft]
      exact ⟨hmem, hother⟩
    · change Function.update (t.cacheForget conn).heap conn none other = some found
      rw [Function.update_of_ne hother, hheap]
      exact hfound

theorem sound_list (hsound : t.Sound) (hunused : t.heap address = none) (conn : RoutedConn) :
    Sound
      { t with
        heap := Function.update t.heap address (some conn)
        conns := t.conns ++ [address] } where
  nodup := List.nodup_append.mpr ⟨hsound.nodup, by simp, fun other hother new hnew heq => by
    obtain rfl := List.mem_singleton.mp hnew
    have hallocated := (hsound.live other).mp hother
    rw [heq, hunused] at hallocated
    cases hallocated⟩
  live := by
    intro other
    change other ∈ t.conns ++ [address] ↔
      (Function.update t.heap address (some conn) other).isSome
    rw [List.mem_append, List.mem_singleton]
    cases decEq other address with
    | isTrue heq =>
        subst heq
        rw [Function.update_self]
        simp
    | isFalse hne =>
        rw [Function.update_of_ne hne, hsound.live]
        simp [hne]
  cached := by
    intro slot other hcached
    obtain ⟨hmem, found, hfound, hslot⟩ := hsound.cached slot other hcached
    refine ⟨List.mem_append_left _ hmem, found, ?_, hslot⟩
    change Function.update t.heap address (some conn) other = some found
    rw [Function.update_of_ne]
    · exact hfound
    · intro heq
      rw [heq, hunused] at hfound
      cases hfound

theorem sound_accept (hsound : t.Sound) (packet : RoutedPacket) :
    (t.accept packet).1.Sound := by
  unfold accept
  split
  · exact hsound
  extract_lets master counted conn numbered
  have hcounted : counted.Sound := hsound.congr rfl rfl rfl
  split
  · exact hcounted.congr rfl rfl rfl
  next address haddress =>
  have hunused := Option.isNone_iff_eq_none.mp (Option.filter_eq_some_iff.mp haddress).2
  extract_lets listed remembered
  have hnumbered : numbered.Sound := hcounted.congr rfl rfl rfl
  split
  · have hlisted : listed.Sound := sound_list hnumbered hunused conn
    exact (sound_cacheRemember hlisted (List.mem_append_right _ List.mem_cons_self)).congr
      rfl rfl rfl
  · exact hnumbered.congr rfl rfl rfl

theorem sound_route (hsound : t.Sound) (packet : RoutedPacket) :
    (t.route packet).1.Sound := by
  unfold route
  split
  · exact hsound
  split
  · next found hfound => exact sound_cacheRemember hsound (List.mem_of_find?_eq_some hfound)
  split
  · exact hsound
  split
  · exact sound_accept hsound packet
  · exact hsound.congr rfl rfl rfl

theorem sound_apply (hsound : t.Sound) (op : Op) : (t.apply op).Sound := by
  cases op with
  | packet packet => exact sound_route hsound packet
  | remove index => exact sound_remove hsound index
  | shutdown => exact hsound.congr rfl rfl rfl

theorem sound_run (hsound : t.Sound) (ops : List Op) : (t.run ops).Sound :=
  Machine.invariant_run (fun _ op hsound _ => sound_apply hsound op) hsound
    (Machine.along_true _ ops)

/-! ### What a hit selects -/

/-- The first listed connection whose master identity is that of the packet. -/
def identityMatch (t : ConnectionTable) (cid : CidPlaintext) : Option Nat :=
  t.conns.find? fun conn => t.masterOf conn = some cid

/-- The live connections have different master ids. -/
def UniqueMasters (t : ConnectionTable) : Prop :=
  (t.conns.map fun conn => (t.masterOf conn).map (·.masterId)).Nodup

theorem cacheHit_eq_some (hhit : t.cacheHit packet = some conn) :
    t.cache (slotOf packet.dest) = some conn ∧ t.masterOf conn = some packet.dest ∧
      packet.isDestination conn = true := by
  unfold cacheHit at hhit
  split at hhit
  · obtain ⟨hfind, hconfirmed⟩ := Option.filter_eq_some_iff.mp hhit
    obtain ⟨hcache, hmaster⟩ := Option.filter_eq_some_iff.mp hfind
    refine ⟨hcache, ?_, hconfirmed⟩
    unfold masterOf
    cases hfound : t.heap conn with
    | none => simp [hfound] at hmaster
    | some found =>
        rw [hfound, Option.any_some, decide_eq_true_eq] at hmaster
        rw [Option.map_some, hmaster]
  · cases hhit

/-- A hit is the connection that a scan for the packet's identity finds. -/
theorem identityMatch_of_hit (hunique : t.UniqueMasters)
    (hmem : conn ∈ t.conns) (hmaster : t.masterOf conn = some cid) :
    t.identityMatch cid = some conn := by
  cases hmatch : t.identityMatch cid with
  | none =>
      have hnone := List.find?_eq_none.mp hmatch conn hmem
      simp [hmaster] at hnone
  | some other =>
      have hother := List.mem_of_find?_eq_some hmatch
      have hsame : t.masterOf other = some cid := by simpa using List.find?_some hmatch
      rw [List.inj_on_of_nodup_map hunique hother hmem (by rw [hsame, hmaster])]

/-- Over every run of a server no cache slot is stale, and a confirmed hit selects the live
connection that a scan for the packet's master identity finds. -/
theorem cache_sound (maxConnections : Nat) (decryptsCids : Bool) (nextCid : CidPlaintext)
    (ops : List Op) :
    let t := (init maxConnections decryptsCids nextCid).run ops
    (∀ slot conn, t.cache slot = some conn → conn ∈ t.conns ∧
      ∃ found, t.heap conn = some found ∧ slotOf found.master = slot) ∧
    ∀ packet conn, t.cacheHit packet = some conn →
      t.route packet = (t, some conn) ∧ conn ∈ t.conns ∧
        t.masterOf conn = some packet.dest ∧
        (t.UniqueMasters → t.identityMatch packet.dest = some conn) := by
  intro t
  have hsound : t.Sound := sound_run (sound_init maxConnections decryptsCids nextCid) ops
  refine ⟨hsound.cached, fun packet conn hhit => ?_⟩
  obtain ⟨hcache, hmaster, -⟩ := cacheHit_eq_some hhit
  have hmem := (hsound.cached _ conn hcache).1
  refine ⟨?_, hmem, hmaster, fun hunique => identityMatch_of_hit hunique hmem hmaster⟩
  simp only [route, hhit]

end ConnectionTable

end Qlinq
