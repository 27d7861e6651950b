import Qlinq.Awaiting
import Qlinq.CacheState

namespace Qlinq

/-! A publisher keeps no object that nobody awaits. -/

namespace Transport

open Conn

variable {track : TrackId}

/-- Every cached object is awaited by some connection. -/
def Owed (track : TrackId) (t : Transport) : Prop :=
  ∀ entry ∈ t.sentCache.occupied, ∃ c ∈ t.conns, c.Awaits track entry.objectId

/-- Every cached object is awaited by another connection than `connId`. -/
def OwedBeside (track : TrackId) (connId : Nat) (t : Transport) : Prop :=
  ∀ entry ∈ t.sentCache.occupied, ∃ c ∈ t.conns, c.id ≠ connId ∧ c.Awaits track entry.objectId

theorem OwedBeside.owed {t : Transport} (howed : t.OwedBeside track connId) : t.Owed track := by
  intro entry hentry
  obtain ⟨c, hc, _, hawaits⟩ := howed entry hentry
  exact ⟨c, hc, hawaits⟩

/-! ### Releasing -/

/-- A subscriber that the scan counts, and the last object it acknowledged. -/
structure Counts (track : TrackId) (c : Conn) (acked : Option Watermark) : Prop where
  capable : c.checkpointCapable = true
  subscribed : ∃ a, c.sendSubscriptions.findAlias track = some a ∧
    (c.checkpointAck a).participating = true ∧ (c.checkpointAck a).acked = acked

theorem Counts.awaits {acked : Option Watermark} (hcounts : Counts track c acked)
    (hbehind : ∀ mark ∈ acked, mark.objectId < objectId) : c.Awaits track objectId := by
  obtain ⟨a, halias, hmember, rfl⟩ := hcounts.subscribed
  exact ⟨a, halias, fun _ => ⟨hmember, hbehind⟩⟩

/-- A subscriber whose peer knows no checkpoints. -/
structure Legacy (track : TrackId) (c : Conn) : Prop where
  plain : c.checkpointCapable = false
  subscribed : ∃ a, c.sendSubscriptions.findAlias track = some a

theorem Legacy.awaits (hlegacy : Legacy track c) (objectId : Nat) : c.Awaits track objectId := by
  obtain ⟨a, halias⟩ := hlegacy.subscribed
  refine ⟨a, halias, fun hcapable => ?_⟩
  rw [hlegacy.plain] at hcapable
  cases hcapable

/-- What a scan that started at `scan` stands for: `none` is a subscriber without an ACK, and
the minimum is some subscriber's. -/
structure Scanned (track : TrackId) (conns : List Conn) (scan : AckScan)
    (result : Option AckScan) : Prop where
  stopped : result = none → ∃ c ∈ conns, Counts track c none
  legacy : ∀ final ∈ result, final.foundLegacyMember = true →
    scan.foundLegacyMember = true ∨ ∃ c ∈ conns, Legacy track c
  minimum : ∀ final ∈ result, ∀ mark ∈ final.minimum,
    mark ∈ scan.minimum ∨ ∃ c ∈ conns, Counts track c (some mark)

/-- A scan goes on behind a connection that leaves it as it is or is counted. -/
theorem Scanned.cons {scan scan' : AckScan} (hrest : Scanned track rest scan' result)
    (hlegacy : scan'.foundLegacyMember = true →
      scan.foundLegacyMember = true ∨ Legacy track c)
    (hminimum : ∀ mark ∈ scan'.minimum, mark ∈ scan.minimum ∨ Counts track c (some mark)) :
    Scanned track (c :: rest) scan result where
  stopped hnone := by
    obtain ⟨found, hfound, hcounts⟩ := hrest.stopped hnone
    exact ⟨found, List.mem_cons_of_mem c hfound, hcounts⟩
  legacy final hfinal hfoundLegacy := by
    rcases hrest.legacy final hfinal hfoundLegacy with hscan | ⟨found, hfound, hplain⟩
    · cases hlegacy hscan with
      | inl hold => exact Or.inl hold
      | inr hhere => exact Or.inr ⟨c, List.mem_cons_self, hhere⟩
    · exact Or.inr ⟨found, List.mem_cons_of_mem c hfound, hplain⟩
  minimum final hfinal mark hmark := by
    rcases hrest.minimum final hfinal mark hmark with hscan | ⟨found, hfound, hcounts⟩
    · cases hminimum mark hscan with
      | inl hold => exact Or.inl hold
      | inr hhere => exact Or.inr ⟨c, List.mem_cons_self, hhere⟩
    · exact Or.inr ⟨found, List.mem_cons_of_mem c hfound, hcounts⟩

/-- Marks of one group have a minimum, which is one of them. -/
theorem lowerMinimum_cases {minimum : Option Watermark} {acked : Watermark}
    (hminimum : ∀ mark ∈ minimum, mark.groupId = 0) (hacked : acked.groupId = 0) :
    ∃ lowered, lowerMinimum minimum acked = some lowered ∧
      ∀ mark ∈ lowered, mark ∈ minimum ∨ mark = acked := by
  unfold lowerMinimum
  cases minimum with
  | none => exact ⟨_, rfl, fun mark hmark => Or.inr (Option.some.inj hmark).symm⟩
  | some lowest =>
      have hgroup : lowest.groupId = 0 := hminimum lowest rfl
      simp only [hacked, hgroup, ne_eq, not_true_eq_false, if_false]
      split
      · exact ⟨_, rfl, fun mark hmark => Or.inr (Option.some.inj hmark).symm⟩
      · exact ⟨_, rfl, fun mark hmark => Or.inl hmark⟩

theorem isSome_lowerMinimum {minimum : Option Watermark} {acked : Watermark}
    (hlowered : lowerMinimum minimum acked = some lowered) : lowered.isSome = true := by
  unfold lowerMinimum at hlowered
  cases minimum with
  | none =>
      obtain rfl := Option.some.inj hlowered
      rfl
  | some lowest =>
      simp only at hlowered
      split at hlowered
      · obtain rfl := Option.some.inj hlowered
        rfl
      split at hlowered
      · cases hlowered
      · obtain rfl := Option.some.inj hlowered
        rfl

/-- The subscriber has acknowledged objects of group 0 only. -/
def AcksFirstGroup (track : TrackId) (c : Conn) : Prop :=
  ∀ a, c.sendSubscriptions.findAlias track = some a →
    ∀ mark ∈ (c.checkpointAck a).acked, mark.groupId = 0

theorem acksFirstGroup_of_participates {c : Conn} (hmember : c.Participates track next) :
    AcksFirstGroup track c :=
  fun a halias mark hmark => (hmember.reached a halias mark (Or.inr hmark)).1

theorem scanned_scanAcks {conns : List Conn} (hconns : ∀ c ∈ conns, AcksFirstGroup track c)
    (scan : AckScan) (hminimum : ∀ mark ∈ scan.minimum, mark.groupId = 0) :
    Scanned track conns scan (scanAcks track conns scan) := by
  induction conns generalizing scan with
  | nil =>
      refine ⟨(fun h => by cases h), fun final hfinal h => Or.inl ?_,
        fun final hfinal mark hmark => Or.inl ?_⟩
      · obtain rfl := Option.some.inj hfinal
        exact h
      · obtain rfl := Option.some.inj hfinal
        exact hmark
  | cons c rest ih =>
      obtain ⟨hhere, hrest⟩ := List.forall_mem_cons.mp hconns
      unfold scanAcks
      split
      · exact (ih hrest scan hminimum).cons Or.inl fun _ => Or.inl
      next a halias =>
      split
      · next hplain =>
          have hlegacy : Legacy track c := ⟨by simpa using hplain, a, halias⟩
          have hrest := ih hrest { scan with foundLegacyMember := true } hminimum
          exact hrest.cons (fun _ => Or.inr hlegacy) fun _ => Or.inl
      next hcapable =>
      have hcapable : c.checkpointCapable = true := by simpa using hcapable
      split
      · exact (ih hrest scan hminimum).cons Or.inl fun _ => Or.inl
      next hmember =>
      have hmember : (c.checkpointAck a).participating = true := by simpa using hmember
      split
      · next hnone =>
          have hcounts : Counts track c none := ⟨hcapable, a, halias, hmember, hnone⟩
          exact ⟨fun _ => ⟨c, List.mem_cons_self, hcounts⟩, nofun, nofun⟩
      next acked hacked =>
      have hcounts : Counts track c (some acked) := ⟨hcapable, a, halias, hmember, hacked⟩
      have hgroup := hhere a halias acked hacked
      obtain ⟨lowered, hlowered, honly⟩ := lowerMinimum_cases hminimum hgroup
      rw [hlowered]
      refine (ih hrest _ fun mark hmark => ?_).cons Or.inl fun mark hmark => ?_
      · cases honly mark hmark with
        | inl hold => exact hminimum mark hold
        | inr hnew => rwa [hnew]
      · cases honly mark hmark with
        | inl hold => exact Or.inl hold
        | inr hnew => exact Or.inr (hnew ▸ hcounts)

/-- Behind a capable member the scan has a minimum. -/
theorem minimum_of_scanAcks {conns : List Conn} {scan final : AckScan}
    (hscan : scan.foundCapableMember = true → scan.minimum.isSome = true)
    (hfinal : scanAcks track conns scan = some final) (hfound : final.foundCapableMember = true) :
    final.minimum.isSome = true := by
  induction conns generalizing scan with
  | nil =>
      obtain rfl := Option.some.inj hfinal
      exact hscan hfound
  | cons c rest ih =>
      unfold scanAcks at hfinal
      split at hfinal
      · exact ih hscan hfinal
      split at hfinal
      · refine ih ?_ hfinal
        exact hscan
      split at hfinal
      · exact ih hscan hfinal
      split at hfinal
      · cases hfinal
      split at hfinal
      · cases hfinal
      · next lowered hlowered => exact ih (fun _ => isSome_lowerMinimum hlowered) hfinal

/-- A release leaves only what a subscriber without checkpoints, or a participating one,
still awaits, whatever was cached before. -/
theorem owed_releaseAckedCheckpoints {t : Transport}
    (hconns : ∀ c ∈ t.conns, AcksFirstGroup track c)
    (hcached : ∀ entry ∈ t.sentCache.occupied, entry.trackId = track ∧ entry.groupId = 0) :
    ∀ entry ∈ (t.releaseAckedCheckpoints track).sentCache.occupied,
      ∃ c ∈ t.conns, (Legacy track c ∨ ∃ acked, Counts track c acked) ∧
        c.Awaits track entry.objectId := by
  have hscanned := scanned_scanAcks hconns {} fun mark h => by cases h
  unfold releaseAckedCheckpoints
  split
  · next hnone =>
      intro entry _
      obtain ⟨c, hc, hcounts⟩ := hscanned.stopped hnone
      exact ⟨c, hc, Or.inr ⟨_, hcounts⟩, hcounts.awaits fun mark h => by cases h⟩
  next scan hscan =>
  split
  · next hfound =>
      intro entry _
      rcases hscanned.legacy scan hscan hfound with hstart | ⟨c, hc, hlegacy⟩
      · cases hstart
      · exact ⟨c, hc, Or.inl hlegacy, hlegacy.awaits _⟩
  split
  · next minimum hcapable hminimum =>
      intro entry hentry
      obtain ⟨hentry, hkept⟩ := SentCache.mem_releaseThrough.mp hentry
      obtain ⟨htrack, hgroup⟩ := hcached entry hentry
      rcases hscanned.minimum scan hscan minimum hminimum with hstart | ⟨c, hc, hcounts⟩
      · cases hstart
      obtain ⟨a, halias, _, hacked⟩ := hcounts.subscribed
      have hzero := hconns c hc a halias minimum hacked
      refine ⟨c, hc, Or.inr ⟨_, hcounts⟩, hcounts.awaits fun mark hmark => ?_⟩
      obtain rfl := Option.some.inj hmark
      exact Nat.lt_of_not_le fun hle => hkept ⟨htrack, hgroup.trans hzero.symm, hle⟩
  · intro entry hentry
    obtain ⟨hentry, hother⟩ := SentCache.mem_releaseTrack.mp hentry
    exact absurd (hcached entry hentry).1 hother
  · next hcapable hminimum =>
      have := minimum_of_scanAcks (fun h => by cases h) hscan hcapable
      rw [hminimum] at this
      cases this

end Transport

/-! ### One connection replaced -/

namespace SentCache

/-- Entries are released, or repaired in their places. -/
structure Thins (cache cache' : SentCache) : Prop where
  wellFormed : cache.WellFormed → cache'.WellFormed
  capacity : cache'.capacity = cache.capacity
  limit : cache'.maxPayloadBytes = cache.maxPayloadBytes
  mem : ∀ entry' ∈ cache'.occupied, ∃ entry ∈ cache.occupied, entry.Same entry'

namespace Thins

theorem refl (cache : SentCache) : Thins cache cache :=
  ⟨fun h => h, rfl, rfl, fun entry hentry => ⟨entry, hentry, .refl entry⟩⟩

theorem trans (hfirst : Thins first second) (hsecond : Thins second third) :
    Thins first third where
  wellFormed h := hsecond.wellFormed (hfirst.wellFormed h)
  capacity := hsecond.capacity.trans hfirst.capacity
  limit := hsecond.limit.trans hfirst.limit
  mem entry'' hentry'' := by
    obtain ⟨entry', hentry', hlater⟩ := hsecond.mem entry'' hentry''
    obtain ⟨entry, hentry, hsame⟩ := hfirst.mem entry' hentry'
    exact ⟨entry, hentry, hsame.trans hlater⟩

end Thins

theorem thins_releaseWhere (cache : SentCache) (released : SentObject → Bool) :
    Thins cache (cache.releaseWhere released) where
  wellFormed h := h.releaseWhere released
  capacity := capacity_releaseWhere cache released
  limit := rfl
  mem entry hentry := ⟨entry, (mem_releaseWhere.mp hentry).1, .refl entry⟩

theorem thins_update (cache : SentCache) (hsame : SentObject.Same old new) :
    Thins cache (cache.update old new) where
  wellFormed h := by
    have hidentity : new.identity = old.identity := by
      simp only [SentObject.identity, hsame.trackId, hsame.groupId, hsame.objectId]
    exact wellFormed_replace h hidentity hsame.data
  capacity := List.length_map _
  limit := rfl
  mem entry hentry := by
    cases mem_update hentry with
    | inl hkept => exact ⟨entry, hkept, .refl entry⟩
    | inr hnew =>
        obtain ⟨rfl, hmem⟩ := hnew
        exact ⟨old, hmem, hsame⟩

end SentCache

namespace Transport

open Conn
open SentCache (Thins)

variable {t t' t'' : Transport}

theorem thins_releaseAckedCheckpoints (t : Transport) (track : TrackId) :
    Thins t.sentCache (t.releaseAckedCheckpoints track).sentCache := by
  unfold releaseAckedCheckpoints
  split
  · exact .refl _
  split
  · exact .refl _
  split
  · exact SentCache.thins_releaseWhere _ _
  · exact SentCache.thins_releaseWhere _ _
  · exact .refl _

/-- Connection `connId` has become `c'`, and the others are as they were. -/
structure Replaces (connId : Nat) (c' : Conn) (t t' : Transport) : Prop where
  keys : Keyed.keys Conn.id t'.conns = Keyed.keys Conn.id t.conns
  nextConnId : t'.nextConnId = t.nextConnId
  mem_iff : ∀ d, d ∈ t'.conns ↔ d ∈ t.conns ∧ d.id ≠ connId ∨ d = c'
  id_eq : c'.id = connId

theorem Replaces.trans (hfirst : Replaces connId c' t t') (hsecond : Replaces connId c'' t' t'') :
    Replaces connId c'' t t'' where
  keys := hsecond.keys.trans hfirst.keys
  nextConnId := hsecond.nextConnId.trans hfirst.nextConnId
  mem_iff d := by
    rw [hsecond.mem_iff, hfirst.mem_iff]
    constructor
    · rintro (⟨(hold | rfl), hother⟩ | hnew)
      · exact Or.inl hold
      · exact absurd hfirst.id_eq hother
      · exact Or.inr hnew
    · rintro (hold | hnew)
      · exact Or.inl ⟨Or.inl hold, hold.2⟩
      · exact Or.inr hnew
  id_eq := hsecond.id_eq

theorem Replaces.of_conns (hreplaces : Replaces connId c' t t') (hconns : t''.conns = t'.conns)
    (hnext : t''.nextConnId = t'.nextConnId) : Replaces connId c' t t'' where
  keys := by rw [hconns, hreplaces.keys]
  nextConnId := hnext.trans hreplaces.nextConnId
  mem_iff d := by rw [hconns, hreplaces.mem_iff]
  id_eq := hreplaces.id_eq

theorem replaces_updateConn {c : Conn} {update : Conn → Conn}
    (hunique : Keyed.UniqueKeys Conn.id t.conns)
    (hlookup : Keyed.lookup Conn.id connId t.conns = some c) (hid : ∀ d, (update d).id = d.id) :
    Replaces connId (update c) t (t.updateConn connId update) where
  keys := Keyed.keys_adjust fun d _ hd => (hid d).trans hd
  nextConnId := rfl
  mem_iff d := by
    obtain ⟨hc, hcid⟩ := Keyed.mem_of_lookup hlookup
    simp only [updateConn, Keyed.mem_adjust]
    constructor
    · rintro (hold | ⟨old, hold, hsame, rfl⟩)
      · exact Or.inl hold
      · rw [Keyed.eq_of_key_eq hunique hold hc (hsame.trans hcid.symm)]
        exact Or.inr rfl
    · rintro (hold | rfl)
      · exact Or.inl hold
      · exact Or.inr ⟨c, hc, hcid, rfl⟩
  id_eq := (hid c).trans (Keyed.mem_of_lookup hlookup).2

theorem replaces_setConn {c c' : Conn}
    (hlookup : Keyed.lookup Conn.id connId t.conns = some c) (hid : c'.id = c.id) :
    Replaces connId c' t (t.setConn c') := by
  obtain ⟨hc, hcid⟩ := Keyed.mem_of_lookup hlookup
  refine ⟨Keyed.keys_adjust fun _ _ _ => rfl, rfl, fun d => ?_, hid.trans hcid⟩
  simp only [setConn, Keyed.mem_adjust, hid, hcid]
  constructor
  · rintro (hold | ⟨_, _, _, rfl⟩)
    · exact Or.inl hold
    · exact Or.inr rfl
  · rintro (hold | rfl)
    · exact Or.inl hold
    · exact Or.inr ⟨c, hc, hcid, rfl⟩

theorem conns_nextConnId_release (t : Transport) (track : TrackId) :
    (t.releaseAckedCheckpoints track).conns = t.conns ∧
      (t.releaseAckedCheckpoints track).nextConnId = t.nextConnId := by
  refine ⟨conns_releaseAckedCheckpoints t track, ?_⟩
  unfold releaseAckedCheckpoints
  split
  · rfl
  split
  · rfl
  split <;> rfl

theorem OwedBeside.replaces (howed : t.OwedBeside track connId)
    (hreplaces : Replaces connId c' t t') (hthins : Thins t.sentCache t'.sentCache) :
    t'.OwedBeside track connId := by
  intro entry' hentry'
  obtain ⟨entry, hentry, hsame⟩ := hthins.mem entry' hentry'
  obtain ⟨d, hd, hother, hawaits⟩ := howed entry hentry
  rw [hsame.objectId]
  exact ⟨d, (hreplaces.mem_iff d).mpr (Or.inl ⟨hd, hother⟩), hother, hawaits⟩

/-- The connection still awaits what it awaited, unless others do. -/
theorem Owed.replaces {c : Conn} (howed : t.Owed track)
    (hunique : Keyed.UniqueKeys Conn.id t.conns)
    (hlookup : Keyed.lookup Conn.id connId t.conns = some c)
    (hreplaces : Replaces connId c' t t') (hthins : Thins t.sentCache t'.sentCache)
    (hawaits : ∀ entry ∈ t.sentCache.occupied, c.Awaits track entry.objectId →
      c'.Awaits track entry.objectId ∨
        ∃ d ∈ t.conns, d.id ≠ connId ∧ d.Awaits track entry.objectId) : t'.Owed track := by
  intro entry' hentry'
  obtain ⟨entry, hentry, hsame⟩ := hthins.mem entry' hentry'
  rw [hsame.objectId]
  have hothers : ∀ d ∈ t.conns, d.id ≠ connId → d.Awaits track entry.objectId →
      ∃ d ∈ t'.conns, d.Awaits track entry.objectId := fun d hd hother hwaits =>
    ⟨d, (hreplaces.mem_iff d).mpr (Or.inl ⟨hd, hother⟩), hwaits⟩
  obtain ⟨d, hd, hwaits⟩ := howed entry hentry
  cases decEq d.id connId with
  | isFalse hother => exact hothers d hd hother hwaits
  | isTrue hhere =>
      obtain ⟨hc, hcid⟩ := Keyed.mem_of_lookup hlookup
      obtain rfl := Keyed.eq_of_key_eq hunique hd hc (hhere.trans hcid.symm)
      rcases hawaits entry hentry hwaits with hstill | ⟨other, hmem, hother, helse⟩
      · exact ⟨c', (hreplaces.mem_iff c').mpr (Or.inr rfl), hstill⟩
      · exact hothers other hmem hother helse

end Transport

end Qlinq
