import Qlinq.Lasting
import Qlinq.PublishEffects

namespace Qlinq

open Conn (receives_quiclyClose)

/-! Where datagrams come from: each carries a symbol of an object that was
attempted, also when it answers a NACK. -/

/-- The entries hold one object under one geometry. -/
structure SentObject.Same (entry entry' : SentObject) : Prop where
  trackId : entry'.trackId = entry.trackId
  groupId : entry'.groupId = entry.groupId
  objectId : entry'.objectId = entry.objectId
  data : entry'.data = entry.data
  dataSymbols : entry'.dataSymbols = entry.dataSymbols
  symbolSize : entry'.symbolSize = entry.symbolSize

theorem SentObject.Same.refl (entry : SentObject) : Same entry entry :=
  ⟨rfl, rfl, rfl, rfl, rfl, rfl⟩

theorem SentObject.Same.trans {first second third : SentObject}
    (hfirst : Same first second) (hsecond : Same second third) : Same first third where
  trackId := hsecond.trackId.trans hfirst.trackId
  groupId := hsecond.groupId.trans hfirst.groupId
  objectId := hsecond.objectId.trans hfirst.objectId
  data := hsecond.data.trans hfirst.data
  dataSymbols := hsecond.dataSymbols.trans hfirst.dataSymbols
  symbolSize := hsecond.symbolSize.trans hfirst.symbolSize

def SentObject.geometry (entry : SentObject) : Geometry where
  symbolSize := entry.symbolSize
  dataSymbols := entry.dataSymbols
  originalSize := entry.size

/-- The datagram carries a symbol of the cached object. -/
def SentObject.Repairs (entry : SentObject) (packet : Sent Datagram) : Prop :=
  Carries packet entry.trackId entry.groupId entry.objectId entry.data entry.geometry

theorem SentObject.Same.repairs {entry entry' : SentObject} (hsame : Same entry entry')
    (hrepairs : entry'.Repairs packet) : entry.Repairs packet := by
  simpa [Repairs, geometry, SentObject.size, hsame.trackId, hsame.groupId, hsame.objectId,
    hsame.data, hsame.dataSymbols, hsame.symbolSize] using hrepairs

/-! ### Repair batches -/

/-- The batch holds the symbols of its indices, cut from the cached object. -/
structure RepairBatch.CutFrom (batch : RepairBatch) (entry : SentObject) : Prop where
  symbolSize : batch.symbolSize = entry.symbolSize
  symbols : ∃ codec paritySymbols blocks,
    symbolBlocks codec (trackProfile entry.trackId) entry.data entry.symbolSize
      entry.dataSymbols paritySymbols = some blocks ∧
    batch.symbols = batch.indices.map fun index => blocks.getD index []

theorem cutFrom_repairBuild
    (hbuild : repairBuild codec entry wholeObject missing = some batch) :
    batch.CutFrom entry := by
  simp only [repairBuild] at hbuild
  split at hbuild
  · simp at hbuild
  split at hbuild
  · simp at hbuild
  · simp at hbuild
  obtain ⟨-, hbuilt⟩ := Option.ite_none_left_eq_some.mp hbuild
  obtain ⟨blocks, hblocks, rfl⟩ := Option.map_eq_some_iff.mp hbuilt
  exact ⟨rfl, codec, _, blocks, hblocks, rfl⟩

theorem cutFrom_repairBuildRateless
    (hbuild : repairBuildRateless codec entry requested = some batch) :
    batch.CutFrom entry := by
  simp only [repairBuildRateless] at hbuild
  split at hbuild
  · simp at hbuild
  · exact cutFrom_repairBuild hbuild

theorem cutFrom_repairBuildSystematicFallback
    (hbuild : repairBuildSystematicFallback codec entry requested = some batch) :
    batch.CutFrom entry := by
  simp only [repairBuildSystematicFallback] at hbuild
  split at hbuild
  · simp at hbuild
  · exact cutFrom_repairBuild hbuild

theorem same_repairCommitRateless
    (hcommit : repairCommitRateless entry batch admitted = some kept) :
    entry.Same kept := by
  simp only [repairCommitRateless] at hcommit
  split at hcommit
  · simp at hcommit
  · obtain rfl := Option.some.inj hcommit
    exact ⟨rfl, rfl, rfl, rfl, rfl, rfl⟩

theorem same_repairCommitSystematicFallback
    (hcommit : repairCommitSystematicFallback entry batch admitted = some kept) :
    entry.Same kept := by
  simp only [repairCommitSystematicFallback] at hcommit
  split at hcommit
  · simp at hcommit
  · obtain rfl := Option.some.inj hcommit
    exact ⟨rfl, rfl, rfl, rfl, rfl, rfl⟩

namespace Transport

theorem cutFrom_repairAnswer
    (hanswer : repairAnswer codec entry nack = some (batch, commit)) :
    batch.CutFrom entry ∧ ∀ admitted kept, commit admitted = some kept →
      entry.Same kept := by
  simp only [repairAnswer] at hanswer
  split at hanswer
  · split at hanswer
    · next hbuild =>
        obtain ⟨rfl, rfl⟩ := Prod.mk.inj (Option.some.inj hanswer)
        exact ⟨cutFrom_repairBuildRateless hbuild, fun _ _ hcommit =>
          same_repairCommitRateless hcommit⟩
    · split at hanswer
      · simp at hanswer
      · obtain ⟨built, hbuild, hpair⟩ := Option.map_eq_some_iff.mp hanswer
        obtain ⟨rfl, rfl⟩ := Prod.mk.inj hpair
        exact ⟨cutFrom_repairBuildSystematicFallback hbuild, fun _ _ hcommit =>
          same_repairCommitSystematicFallback hcommit⟩
  · split at hanswer
    · simp at hanswer
    · obtain ⟨built, hbuild, hpair⟩ := Option.map_eq_some_iff.mp hanswer
      obtain ⟨rfl, rfl⟩ := Prod.mk.inj hpair
      refine ⟨cutFrom_repairBuild hbuild, fun _ _ hcommit => ?_⟩
      obtain rfl := Option.some.inj hcommit
      exact SentObject.Same.refl _

end Transport

theorem repairs_repairPacket {batch : RepairBatch} {entry : SentObject}
    (hcut : batch.CutFrom entry) (hposition : position < batch.indices.length) (c : Conn) (a : TrackAlias) :
    entry.Repairs (repairPacket c a entry batch position) := by
  obtain ⟨hsize, codec, paritySymbols, blocks, hblocks, hsymbols⟩ := hcut
  refine ⟨rfl, rfl, rfl, ?_, codec, trackProfile entry.trackId, paritySymbols, blocks,
    hblocks, ?_⟩
  · simp [repairPacket, Conn.sendFrame, FecHeader.geometry, SentObject.geometry, hsize]
  · simp [repairPacket, Conn.sendFrame, hsymbols, List.getD_eq_getElem?_getD, hposition]

namespace SentCache

theorem mem_update {cache : SentCache}
    (hentry : entry ∈ (cache.update old new).occupied) :
    entry ∈ cache.occupied ∨ entry = new ∧ old ∈ cache.occupied := by
  simp only [mem_occupied, update, List.mem_map] at hentry ⊢
  obtain ⟨slot, hslot, heq⟩ := hentry
  split at heq
  · next hold =>
      subst hold
      exact Or.inr ⟨(Option.some.inj heq).symm, hslot⟩
  · subst heq
    exact Or.inl hslot

end SentCache

namespace Transport

/-! ### Steps that attempt no object -/

/-- Every datagram was there before or repairs a cached object, and no object is
new to the cache. -/
structure Echoes (t t' : Transport) : Prop where
  datagrams : ∀ c' ∈ t'.conns, ∀ packet ∈ c'.datagrams,
    (∃ c ∈ t.conns, packet ∈ c.datagrams) ∨
      ∃ entry ∈ t.sentCache.occupied, entry.Repairs packet
  cached : ∀ entry' ∈ t'.sentCache.occupied, ∃ entry ∈ t.sentCache.occupied,
    entry.Same entry'

namespace Echoes

theorem trans (hfirst : Echoes t t') (hsecond : Echoes t' t'') : Echoes t t'' where
  datagrams := by
    intro c'' hc'' packet hpacket
    rcases hsecond.datagrams c'' hc'' packet hpacket with
      ⟨c', hc', hold⟩ | ⟨entry', hentry', hrepairs⟩
    · exact hfirst.datagrams c' hc' packet hold
    · obtain ⟨entry, hentry, hsame⟩ := hfirst.cached entry' hentry'
      exact Or.inr ⟨entry, hentry, hsame.repairs hrepairs⟩
  cached := by
    intro entry'' hentry''
    obtain ⟨entry', hentry', hlater⟩ := hsecond.cached entry'' hentry''
    obtain ⟨entry, hentry, hsame⟩ := hfirst.cached entry' hentry'
    exact ⟨entry, hentry, hsame.trans hlater⟩

theorem of_stays {t t' : Transport} (hstays : Stays t t') : Echoes t t' where
  datagrams := by
    intro c' hc' packet hpacket
    obtain ⟨c, hc, hsame⟩ := hstays.conns c' hc'
    rw [Conn.datagrams_of_lasting hsame] at hpacket
    exact Or.inl ⟨c, hc, hpacket⟩
  cached := fun entry hentry => ⟨entry, hstays.cached entry hentry, SentObject.Same.refl entry⟩

theorem refl (t : Transport) : Echoes t t :=
  of_stays (Stays.refl t)

end Echoes

theorem echoes_receiveNack {t : Transport} {c : Conn} (hc : c ∈ t.conns)
    (env : RepairEnv) (nack : Nack) : Echoes t (t.receiveNack env c nack) := by
  simp only [receiveNack]
  split
  · exact .refl t
  split
  · exact .refl t
  split
  · exact .of_stays (stays_receives hc (receives_quiclyClose _ _ _))
  split
  · exact .refl t
  next cached hfind =>
  split
  · exact .refl t
  split
  · exact .refl t
  next batch commit hanswer =>
  obtain ⟨hcut, hcommit⟩ := cutFrom_repairAnswer hanswer
  have hcached := (SentCache.mem_of_find hfind).1
  constructor
  · intro c' hc' packet hpacket
    rcases Keyed.mem_adjust.mp hc' with ⟨hold, -⟩ | ⟨-, -, -, rfl⟩
    · exact Or.inl ⟨c', hold, hpacket⟩
    · rcases List.mem_append.mp hpacket with hbefore | hnew
      · exact Or.inl ⟨c, hc, hbefore⟩
      · obtain ⟨position, hposition, rfl⟩ := List.mem_map.mp hnew
        have hposition : position < batch.indices.length := by
          have := List.mem_range.mp hposition
          omega
        exact Or.inr ⟨cached, hcached, repairs_repairPacket hcut hposition c _⟩
  · intro entry' hentry'
    rcases SentCache.mem_update hentry' with hold | ⟨rfl, -⟩
    · exact ⟨entry', hold, SentObject.Same.refl _⟩
    · refine ⟨cached, hcached, ?_⟩
      cases hkept : commit (min env.queues batch.indices.length) with
      | none => exact SentObject.Same.refl _
      | some kept => exact hcommit _ kept hkept

theorem echoes_receiveControlFrame (t : Transport) (env : RepairEnv) (connId : Nat)
    (frame : ControlFrame) : Echoes t (t.receiveControlFrame env connId frame) := by
  cases receiveControlFrame_cases t env connId frame with
  | inl hstays => exact .of_stays hstays
  | inr hanswered =>
      obtain ⟨c, nack, hlookup, _, _, _, _, hnack⟩ := hanswered
      rw [hnack]
      exact echoes_receiveNack (Keyed.mem_of_lookup hlookup).1 env nack

/-- A connection whose datagrams stay. -/
theorem echoes_updateConn (t : Transport) (connId : Nat) {update : Conn → Conn}
    (hupdate : ∀ c, (update c).datagrams = c.datagrams) :
    Echoes t (t.updateConn connId update) where
  datagrams := by
    intro c' hc' packet hpacket
    left
    cases Keyed.mem_adjust.mp hc' with
    | inl hold => exact ⟨c', hold.1, hpacket⟩
    | inr hnew =>
        obtain ⟨c, hc, _, rfl⟩ := hnew
        rw [hupdate] at hpacket
        exact ⟨c, hc, hpacket⟩
  cached := fun entry hentry => ⟨entry, hentry, SentObject.Same.refl entry⟩

theorem echoes_apply (t : Transport) (hquiet : op.quiet = true) :
    Echoes t (t.apply op) := by
  cases op with
  | publish env object => simp [Op.quiet] at hquiet
  | flush env => simp [Op.quiet] at hquiet
  | finish env track => simp [Op.quiet] at hquiet
  | connect =>
      refine ⟨fun c hc packet hpacket => Or.inl ?_, fun entry hentry =>
        ⟨entry, hentry, SentObject.Same.refl entry⟩⟩
      cases List.mem_append.mp hc with
      | inl hold => exact ⟨c, hold, hpacket⟩
      | inr hnew =>
          obtain rfl := List.mem_singleton.mp hnew
          simp [Conn.init] at hpacket
  | hello connId hello =>
      refine echoes_updateConn t connId fun c => ?_
      simp only [Conn.receiveHello]
      split
      · rfl
      split
      · exact (receives_quiclyClose c _ _).datagrams_eq
      · rfl
  | respondAuth connId success =>
      refine echoes_updateConn t connId fun c => ?_
      simp only [Conn.respondAuth]
      split
      · rfl
      split
      · rfl
      · exact (receives_quiclyClose c _ _).datagrams_eq
  | receive env connId frame => exact echoes_receiveControlFrame t env connId frame
  | admissions connId admissions => exact echoes_updateConn t connId fun _ => rfl
  | close connId code reason =>
      exact echoes_updateConn t connId fun c => (receives_quiclyClose c _ _).datagrams_eq
  | disconnect connId => exact .of_stays (stays_disconnect t connId)

/-! ### Provenance -/

/-- Every datagram and every cached object stems from a known object under a
known geometry. -/
structure Stems (known : MoqObject → Geometry → Prop) (t : Transport) : Prop where
  datagrams : ∀ c ∈ t.conns, ∀ packet ∈ c.datagrams, ∃ object geometry,
    known object geometry ∧
      Carries packet object.trackId object.groupId object.objectId object.data geometry ∧
      geometry.originalSize = object.size
  cached : ∀ entry ∈ t.sentCache.occupied, ∃ object geometry,
    known object geometry ∧
      SentCache.Describes entry object geometry.dataSymbols geometry.symbolSize ∧
      geometry.originalSize = object.size

theorem Stems.mono {known wider : MoqObject → Geometry → Prop}
    (hwider : ∀ object geometry, known object geometry → wider object geometry)
    (hstems : Stems known t) : Stems wider t where
  datagrams := by
    intro c hc packet hpacket
    obtain ⟨object, geometry, hknown, hstem⟩ := hstems.datagrams c hc packet hpacket
    exact ⟨object, geometry, hwider object geometry hknown, hstem⟩
  cached := by
    intro entry hentry
    obtain ⟨object, geometry, hknown, hdescribes⟩ := hstems.cached entry hentry
    exact ⟨object, geometry, hwider object geometry hknown, hdescribes⟩

theorem describes_of_same {entry entry' : SentObject} (hsame : entry.Same entry')
    (hdescribes : SentCache.Describes entry object dataSymbols symbolSize) :
    SentCache.Describes entry' object dataSymbols symbolSize := by
  obtain ⟨hidentity, hdata, hsymbols, hsize⟩ := hdescribes
  obtain ⟨htrack, hgroup, hobject⟩ := SentCache.hasIdentity_iff.mp hidentity
  refine ⟨SentCache.hasIdentity_iff.mpr ⟨?_, ?_, ?_⟩, ?_, ?_, ?_⟩
  · exact hsame.trackId.trans htrack
  · exact hsame.groupId.trans hgroup
  · exact hsame.objectId.trans hobject
  · exact hsame.data.trans hdata
  · exact hsame.dataSymbols.trans hsymbols
  · exact hsame.symbolSize.trans hsize

/-- A repair of a cached object stems from what the entry stems from. -/
theorem carries_of_repairs {entry : SentObject} {geometry : Geometry}
    (hrepairs : entry.Repairs packet)
    (hdescribes : SentCache.Describes entry object geometry.dataSymbols
      geometry.symbolSize)
    (hsize : geometry.originalSize = object.size) :
    Carries packet object.trackId object.groupId object.objectId object.data geometry := by
  obtain ⟨hidentity, hdata, hsymbols, hsymbolSize⟩ := hdescribes
  obtain ⟨htrack, hgroup, hobject⟩ := SentCache.hasIdentity_iff.mp hidentity
  have hgeometry : entry.geometry = geometry := by
    cases geometry
    simp_all [SentObject.geometry, SentObject.size, MoqObject.size]
  rw [SentObject.Repairs, htrack, hgroup, hobject, hdata, hgeometry] at hrepairs
  exact hrepairs

theorem Stems.echo (hstems : Stems known t) (hechoes : Echoes t t') :
    Stems known t' where
  datagrams := by
    intro c' hc' packet hpacket
    rcases hechoes.datagrams c' hc' packet hpacket with
      ⟨c, hc, hold⟩ | ⟨entry, hentry, hrepairs⟩
    · exact hstems.datagrams c hc packet hold
    · obtain ⟨object, geometry, hknown, hdescribes, hsize⟩ := hstems.cached entry hentry
      exact ⟨object, geometry, hknown, carries_of_repairs hrepairs hdescribes hsize, hsize⟩
  cached := by
    intro entry' hentry'
    obtain ⟨entry, hentry, hsame⟩ := hechoes.cached entry' hentry'
    obtain ⟨object, geometry, hknown, hdescribes, hsize⟩ := hstems.cached entry hentry
    exact ⟨object, geometry, hknown, describes_of_same hsame hdescribes, hsize⟩

/-- Some connection the object is for can be sent its symbols. -/
def Addressable (t : Transport) (track : TrackId) : Prop :=
  ∃ c ∈ t.conns, t.recipientEligible c track = true ∧
    ∃ a, c.sendSubscriptions.findAlias track = some a

theorem Stems.attempt {known : MoqObject → Geometry → Prop} {t t' : Transport}
    (hstems : Stems known t)
    (hattempted : Attempted object (t.objectGeometry object) inFlush t t')
    (hknown : inFlush = true ∨ t.Addressable object.trackId →
      known object (t.objectGeometry object)) : Stems known t' where
  datagrams := by
    intro c' hc' packet hpacket
    obtain ⟨c, hc, hturn⟩ := Pointwise.exists_left hattempted.conns hc'
    obtain ⟨packets, hdatagrams, hcarried⟩ := hturn.publishes.datagrams
    rw [hdatagrams] at hpacket
    rcases List.mem_append.mp hpacket with hold | hnew
    · exact hstems.datagrams c hc packet hold
    · obtain ⟨hcarries, haddressed, -⟩ := hcarried packet hnew
      refine ⟨object, _, hknown (Or.inr ⟨c, hc, ?_, ?_⟩), hcarries, rfl⟩
      · by_contra hineligible
        have hskipped := hturn.skipped (by simpa using hineligible)
        have hnone : packets = [] := by simpa [hskipped] using hdatagrams
        simp [hnone] at hnew
      · exact ⟨_, hcarries.of_track ▸ haddressed.1⟩
  cached := by
    intro entry hentry
    rcases hattempted.cache with hsame | ⟨-, -, hrecipient, stored, hstores⟩
    · rw [hsame] at hentry
      exact hstems.cached entry hentry
    · rcases hstores.mem entry hentry with hold | ⟨hdescribes, -⟩
      · exact hstems.cached entry hold
      · exact ⟨object, _, hknown hrecipient, hdescribes, rfl⟩

end Transport

end Qlinq
