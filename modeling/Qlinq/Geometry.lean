import Qlinq.GroupIds

namespace Qlinq

/-! The geometry of an object's symbols: derived anew at every attempt, kept by
the cache for repairs. -/

namespace Transport

/-- A datagram of the object was sent, or the object is cached, under the
geometry. -/
def UsedGeometry (t : Transport) (track : TrackId) (groupId objectId : Nat)
    (geometry : Geometry) : Prop :=
  (∃ c ∈ t.conns, ∃ packet ∈ c.datagrams, packet.track = track ∧
    packet.message.header.groupId = groupId ∧ packet.message.header.objectId = objectId ∧
    packet.message.header.geometry = geometry) ∨
  ∃ entry ∈ t.sentCache.occupied, entry.hasIdentity track groupId objectId = true ∧
    entry.geometry = geometry

/-- Every object has one geometry, which its size and symbol size decide. -/
structure Uniform (t : Transport) : Prop where
  unique : ∀ track groupId objectId left right,
    t.UsedGeometry track groupId objectId left →
    t.UsedGeometry track groupId objectId right → left = right
  shape : ∀ track groupId objectId geometry,
    t.UsedGeometry track groupId objectId geometry →
    geometry.dataSymbols =
      (geometry.originalSize + geometry.symbolSize - 1) / geometry.symbolSize

theorem uniform_init (isServer : Bool) (limits : TransportLimits)
    (maxRecoveryCacheBytes : Nat) :
    Uniform (init isServer limits maxRecoveryCacheBytes) := by
  have hunused : ∀ track groupId objectId geometry,
      ¬ (init isServer limits maxRecoveryCacheBytes).UsedGeometry track groupId objectId
        geometry := by
    rintro track groupId objectId geometry (⟨c, hc, -⟩ | ⟨entry, hentry, -⟩)
    · simp [init] at hc
    · simp [init, SentCache.init, SentCache.mem_occupied] at hentry
  exact ⟨fun _ _ _ _ _ hleft _ => absurd hleft (hunused _ _ _ _),
    fun _ _ _ _ hused => absurd hused (hunused _ _ _ _)⟩

theorem usedGeometry_echo {t t' : Transport} (hechoes : Echoes t t')
    (hused : t'.UsedGeometry track groupId objectId geometry) :
    t.UsedGeometry track groupId objectId geometry := by
  rcases hused with ⟨c', hc', packet, hpacket, htrack, hgroup, hobject, hgeometry⟩ |
    ⟨entry', hentry', hidentity, hgeometry⟩
  · rcases hechoes.datagrams c' hc' packet hpacket with
      ⟨c, hc, hold⟩ | ⟨entry, hentry, hrepairs⟩
    · exact Or.inl ⟨c, hc, packet, hold, htrack, hgroup, hobject, hgeometry⟩
    · refine Or.inr ⟨entry, hentry, SentCache.hasIdentity_iff.mpr ⟨?_, ?_, ?_⟩, ?_⟩
      · exact hrepairs.of_track.symm.trans htrack
      · exact hrepairs.of_group.symm.trans hgroup
      · exact hrepairs.of_object.symm.trans hobject
      · exact hrepairs.of_geometry.symm.trans hgeometry
  · obtain ⟨entry, hentry, hsame⟩ := hechoes.cached entry' hentry'
    refine Or.inr ⟨entry, hentry, ?_, ?_⟩
    · simpa [SentObject.hasIdentity, hsame.trackId, hsame.groupId, hsame.objectId]
        using hidentity
    · simpa [SentObject.geometry, SentObject.size, hsame.data, hsame.dataSymbols,
        hsame.symbolSize] using hgeometry

theorem Uniform.echo {t t' : Transport} (huniform : Uniform t) (hechoes : Echoes t t') :
    Uniform t' where
  unique := fun _ _ _ _ _ hleft hright => huniform.unique _ _ _ _ _
    (usedGeometry_echo hechoes hleft) (usedGeometry_echo hechoes hright)
  shape := fun _ _ _ _ hused => huniform.shape _ _ _ _ (usedGeometry_echo hechoes hused)

/-- An attempt uses the geometry it derives, and only for the object. -/
theorem usedGeometry_attempted {t t' : Transport}
    (hattempted : Attempted object (t.objectGeometry object) inFlush t t')
    (hused : t'.UsedGeometry track groupId objectId geometry) :
    t.UsedGeometry track groupId objectId geometry ∨
      (inFlush = true ∨ t.Addressable object.trackId) ∧
        object.trackId = track ∧ object.groupId = groupId ∧ object.objectId = objectId ∧
        geometry = t.objectGeometry object := by
  rcases hused with ⟨c', hc', packet, hpacket, htrack, hgroup, hobject, hgeometry⟩ |
    ⟨entry, hentry, hidentity, hgeometry⟩
  · obtain ⟨c, hc, hturn⟩ := Pointwise.exists_left hattempted.conns hc'
    obtain ⟨packets, hdatagrams, hcarried⟩ := hturn.publishes.datagrams
    rw [hdatagrams] at hpacket
    rcases List.mem_append.mp hpacket with hold | hnew
    · exact Or.inl (Or.inl ⟨c, hc, packet, hold, htrack, hgroup, hobject, hgeometry⟩)
    · obtain ⟨hcarries, haddressed, -⟩ := hcarried packet hnew
      refine Or.inr ⟨Or.inr ⟨c, hc, ?_, _, hcarries.of_track ▸ haddressed.1⟩, ?_, ?_, ?_, ?_⟩
      · by_contra hineligible
        have hskipped := hturn.skipped (by simpa using hineligible)
        have hnone : packets = [] := by simpa [hskipped] using hdatagrams
        simp [hnone] at hnew
      · exact hcarries.of_track.symm.trans htrack
      · exact hcarries.of_group.symm.trans hgroup
      · exact hcarries.of_object.symm.trans hobject
      · exact hgeometry.symm.trans hcarries.of_geometry
  · rcases hattempted.cache with hsame | ⟨-, -, hrecipient, stored, hstores⟩
    · rw [hsame] at hentry
      exact Or.inl (Or.inr ⟨entry, hentry, hidentity, hgeometry⟩)
    · rcases hstores.mem entry hentry with hold | ⟨⟨hdescribed, hdata, hsymbols, hsize⟩, -⟩
      · exact Or.inl (Or.inr ⟨entry, hold, hidentity, hgeometry⟩)
      · obtain ⟨htrack, hgroup, hobject⟩ := SentCache.hasIdentity_iff.mp hidentity
        obtain ⟨htrack', hgroup', hobject'⟩ := SentCache.hasIdentity_iff.mp hdescribed
        refine Or.inr ⟨hrecipient, htrack'.symm.trans htrack, hgroup'.symm.trans hgroup,
          hobject'.symm.trans hobject, ?_⟩
        rw [← hgeometry]
        simp only [SentObject.geometry, SentObject.size, hdata, hsymbols, hsize]
        rfl

/-- What the object was sent or cached under before is what an attempt in this
state derives. -/
def Steady (t : Transport) (object : MoqObject) : Prop :=
  ∀ geometry, t.UsedGeometry object.trackId object.groupId object.objectId geometry →
    geometry.symbolSize = t.objectSymbolSize object ∧ geometry.originalSize = object.size

theorem Uniform.attempt {t t' : Transport} (huniform : Uniform t)
    (hattempted : Attempted object (t.objectGeometry object) inFlush t t')
    (hsteady : inFlush = true ∨ t.Addressable object.trackId → t.Steady object) :
    Uniform t' := by
  have hsame : inFlush = true ∨ t.Addressable object.trackId → ∀ geometry,
      t.UsedGeometry object.trackId object.groupId object.objectId geometry →
      geometry = t.objectGeometry object := by
    intro hrecipient geometry hused
    obtain ⟨hsymbol, hsize⟩ := hsteady hrecipient geometry hused
    have hshape := huniform.shape _ _ _ _ hused
    rw [hsymbol, hsize] at hshape
    cases geometry
    simp_all [objectGeometry, objectDataSymbols]
  constructor
  · intro track groupId objectId left right hleft hright
    rcases usedGeometry_attempted hattempted hleft with
      hleft | ⟨hrecipient, rfl, rfl, rfl, rfl⟩
    · rcases usedGeometry_attempted hattempted hright with
        hright | ⟨hrecipient, rfl, rfl, rfl, rfl⟩
      · exact huniform.unique _ _ _ _ _ hleft hright
      · exact hsame hrecipient left hleft
    · rcases usedGeometry_attempted hattempted hright with hright | ⟨-, -, -, -, rfl⟩
      · exact (hsame hrecipient right hright).symm
      · rfl
  · intro track groupId objectId geometry hused
    rcases usedGeometry_attempted hattempted hused with hold | ⟨-, -, -, -, rfl⟩
    · exact huniform.shape _ _ _ _ hold
    · rfl

/-! ### Groups -/

/-- A group already sent in part has the size it had then. -/
theorem size_of_usedGeometry {t : Transport} (hnumbered : Numbered t)
    (hbuffer : t.fecBuf ≠ [])
    (hslot : t.createFecTrackState t.fecTrackId = some (slotted, state))
    (hgroupable : isGroupable t.fecTrackId = true)
    (hused : t.UsedGeometry t.fecTrackId 0 state.nextObjectId geometry) :
    geometry.originalSize = t.fecBuf.length := by
  obtain ⟨hready, -⟩ := numbered_attempting hnumbered hbuffer hslot
  have hfound := (createFecTrackState_find hslot).1
  have hknown : ∀ object : MoqObject, t.KnownGroup object → object.trackId = t.fecTrackId →
      object.objectId = state.nextObjectId → object.size = t.fecBuf.length := by
    rintro object (hpublished | ⟨-, old, -, rfl⟩) htrack hid
    · obtain ⟨-, found, hold, hbelow⟩ := hnumbered.below object hpublished
      rw [htrack] at hold
      have hsame := (createFecTrackState_find hslot).2 _ _ hold
      rw [hfound] at hsame
      obtain rfl := Option.some.inj hsame
      omega
    · rfl
  rcases hused with ⟨c, hc, packet, hpacket, htrack, -, hobject, rfl⟩ |
    ⟨entry, hentry, hidentity, rfl⟩
  · obtain ⟨object, geometry, hgroup, hcarries, hsize⟩ :=
      hnumbered.stems.datagrams c hc packet hpacket
    have hsameTrack : object.trackId = t.fecTrackId := hcarries.of_track.symm.trans htrack
    rw [hcarries.of_geometry, hsize]
    exact hknown object (hgroup (hsameTrack ▸ hgroupable)) hsameTrack
      (hcarries.of_object.symm.trans hobject)
  · obtain ⟨object, geometry, hgroup, ⟨hdescribed, hdata, -, -⟩, -⟩ :=
      hnumbered.stems.cached entry hentry
    obtain ⟨htrack, -, hobject⟩ := SentCache.hasIdentity_iff.mp hidentity
    obtain ⟨htrack', -, hobject'⟩ := SentCache.hasIdentity_iff.mp hdescribed
    have hsameTrack : object.trackId = t.fecTrackId := htrack'.symm.trans htrack
    show entry.data.length = _
    rw [hdata]
    exact hknown object (hgroup (hsameTrack ▸ hgroupable)) hsameTrack
      (hobject'.symm.trans hobject)

/-- Before a flush: a group some of whose symbols were sent or cached meets the
symbol size of then.  On a track that cannot be grouped it also has the size. -/
def FlushSteady (t : Transport) : Prop :=
  ∀ slotted state, t.fecBuf ≠ [] →
    t.createFecTrackState t.fecTrackId = some (slotted, state) →
    ∀ geometry, t.UsedGeometry t.fecTrackId 0 state.nextObjectId geometry →
      geometry.symbolSize = t.objectSymbolSize (t.groupObject state) ∧
        (isGroupable t.fecTrackId = false → geometry.originalSize = t.fecBuf.length)

theorem uniform_flushed {t t' : Transport} (huniform : Uniform t) (hnumbered : Numbered t)
    (hsteady : t.FlushSteady) (hflushed : Flushed t env t' result) : Uniform t' := by
  have hattempted : ∀ {slotted attempted : Transport} {state : FecTrackState}
      {outcome : PublishResult}, t.fecBuf ≠ [] →
      t.createFecTrackState t.fecTrackId = some (slotted, state) →
      slotted.attempting.publishUngrouped env (slotted.groupObject state) true =
        (attempted, outcome) → Uniform attempted := by
    intro slotted attempted state outcome hbuffer hslot hattempt
    have hechoes := Echoes.of_stays (stays_createFecTrackState hslot)
    have hmade := attempted_publishUngrouped slotted.attempting env
      (slotted.groupObject state) true
    rw [hattempt] at hmade
    refine (huniform.echo hechoes).attempt hmade fun _ geometry hused => ?_
    have hsame : slotted.groupObject state = t.groupObject state ∧
        slotted.attempting.objectSymbolSize (t.groupObject state) =
          t.objectSymbolSize (t.groupObject state) := by
      rcases createFecTrackState_cases hslot with ⟨rfl, -⟩ | ⟨-, -, -, rfl⟩ <;>
        exact ⟨rfl, rfl⟩
    rw [hsame.1] at hused ⊢
    have hold := usedGeometry_echo hechoes hused
    obtain ⟨hsymbol, hsize⟩ := hsteady slotted state hbuffer hslot geometry hold
    refine ⟨hsymbol.trans hsame.2.symm, ?_⟩
    cases hgroupable : isGroupable t.fecTrackId with
    | true => exact size_of_usedGeometry hnumbered hbuffer hslot hgroupable hold
    | false => exact hsize hgroupable
  cases hflushed with
  | empty hempty => exact huniform
  | noSlot hbuffer hslot => exact huniform
  | failed hbuffer hslot hattempt hdelivered hnobody =>
      exact hattempted hbuffer hslot hattempt
  | committed hbuffer hslot hattempt hresult =>
      exact (hattempted hbuffer hslot hattempt).echo (.of_stays (stays_commitGroup _ _ _))

/-- Before a record is staged: the flush it may make, and the one behind it. -/
def RecordSteady (t : Transport) (env : PublishEnv) (object : MoqObject) : Prop :=
  ((t.groupForeign object || t.groupFull object
      (groupLimit (t.publicationFecLimit object.trackId))) = true → t.FlushSteady) ∧
    ((t.stageRecord env object).2 = none → (t.stageRecord env object).1.groupComplete
      (groupLimit (t.publicationFecLimit object.trackId)) = true →
      (t.stageRecord env object).1.FlushSteady)

/-- Whatever a step attempts again meets the symbol size of the earlier attempt, and
its own size unless it is a group. -/
def AttemptsSteadily (t : Transport) : Op → Prop
  | .publish env object =>
      if t.groupsRecords object.trackId then t.RecordSteady env object
      else t.Addressable object.trackId → t.Steady object
  | .flush _ => t.FlushSteady
  | .finish _ track => t.fecTrackId = track → t.FlushSteady
  | _ => True

theorem uniform_stageRecord {t : Transport} (huniform : Uniform t) (hnumbered : Numbered t)
    (hsteady : (t.groupForeign object || t.groupFull object
      (groupLimit (t.publicationFecLimit object.trackId))) = true → t.FlushSteady)
    (env : PublishEnv) : Uniform (t.stageRecord env object).1 := by
  have hroomy : ∀ {limit : Nat} {s : Transport}, ((t.groupForeign object ||
      t.groupFull object limit) = true → t.FlushSteady) →
      Room t env.before object limit s → Uniform s := by
    intro limit s hflushes hroom
    cases hroom with
    | here hforeign hfull => exact huniform
    | emptied hdue hflush =>
        have hflushed := flushed t env.before
        rw [hflush] at hflushed
        exact uniform_flushed huniform hnumbered (hflushes hdue) hflushed
  have hstaged := staged t env object
  revert hstaged
  generalize (t.stageRecord env object).1 = t'
  generalize (t.stageRecord env object).2 = refused
  intro hstaged
  cases hstaged with
  | refused hdue hflush hresult =>
      have hflushed := flushed t env.before
      rw [hflush] at hflushed
      exact uniform_flushed huniform hnumbered (hsteady hdue) hflushed
  | unallocated hroom happend =>
      exact (hroomy hsteady hroom).echo (.of_stays (stays_beginGroup _ object))
  | appended hroom happend =>
      exact ((hroomy hsteady hroom).echo (.of_stays (stays_beginGroup _ object))).echo
        (.of_stays (stays_appendRecord happend))

theorem uniform_publish {t : Transport} (huniform : Uniform t) (hnumbered : Numbered t)
    (env : PublishEnv) (object : MoqObject)
    (hsteady : t.AttemptsSteadily (.publish env object)) :
    Uniform (t.publish env object).1 := by
  simp only [AttemptsSteadily] at hsteady
  have hcases := published_cases t env object
  revert hcases
  generalize (t.publish env object).1 = t'
  generalize (t.publish env object).2 = result
  intro hcases
  have hstaged : t.groupsRecords object.trackId = true →
      Uniform (t.stageRecord env object).1 := by
    intro hgroups
    rw [if_pos hgroups] at hsteady
    exact uniform_stageRecord huniform hnumbered hsteady.1 env
  cases hcases with
  | refused hinvalid => exact huniform
  | direct hconflict hgroups hattempt =>
      rw [if_neg (by simp [hgroups])] at hsteady
      have hmade := attempted_publishUngrouped t env.direct object false
      rw [hattempt] at hmade
      refine huniform.attempt hmade ?_
      rintro (hflush | haddressable)
      · simp at hflush
      · exact hsteady haddressable
  | oversized hgroups => exact huniform
  | unstaged hgroups hstage =>
      have := hstaged hgroups
      rwa [hstage] at this
  | buffered hgroups hsize hstage =>
      have := hstaged hgroups
      rwa [hstage] at this
  | @completed s _ _ hgroups hsize hstage hcomplete hflush =>
      have hs := hstaged hgroups
      have hnumbered' := numbered_stageRecord hnumbered env object
      rw [if_pos hgroups] at hsteady
      have hbehind := hsteady.2
      rw [hstage] at hs hnumbered' hbehind
      have hflushed := flushed s env.after
      rw [hflush] at hflushed
      exact uniform_flushed hs hnumbered' (hbehind rfl hcomplete) hflushed

theorem uniform_finishTrack {t : Transport} (huniform : Uniform t) (hnumbered : Numbered t)
    (env : FlushEnv) (track : TrackId) (hsteady : t.fecTrackId = track → t.FlushSteady) :
    Uniform (t.finishTrack env track).1 := by
  have hsettled : ∀ s, Settled t env track s → Uniform s := by
    intro s hsettled
    cases hsettled with
    | here hother => exact huniform
    | flushed hpending hflush =>
        have hflushed := flushed t env
        rw [hflush] at hflushed
        exact uniform_flushed huniform hnumbered (hsteady hpending.2) hflushed
  have hfinished := finished t env track
  revert hfinished
  generalize (t.finishTrack env track).1 = t'
  intro hfinished
  cases hfinished with
  | refused => exact huniform
  | unflushed hpending hflush hresult =>
      have hflushed := flushed t env
      rw [hflush] at hflushed
      exact uniform_flushed huniform hnumbered (hsteady hpending.2) hflushed
  | unused hunused => exact hsettled _ hunused
  | announced hrateless hannounced hfound hobjects =>
      exact (hsettled _ hannounced).echo (.of_stays (stays_announceEnd _ _ _))

theorem uniform_apply {t : Transport} (huniform : Uniform t) (hnumbered : Numbered t)
    (op : Op) (hsteady : t.AttemptsSteadily op) : Uniform (t.apply op) := by
  by_cases hquiet : op.quiet = true
  · exact huniform.echo (echoes_apply t hquiet)
  · cases op with
    | publish env object => exact uniform_publish huniform hnumbered env object hsteady
    | flush env => exact uniform_flushed huniform hnumbered hsteady (flushed t env)
    | finish env track => exact uniform_finishTrack huniform hnumbered env track hsteady
    | _ => simp [Op.quiet] at hquiet

def streamTrack : TrackId where
  type := .data
  flags := flagFecEnabled
  name := [115]

def streamRecord (size : Nat) : MoqObject where
  trackId := streamTrack
  groupId := 0
  objectId := 0
  data := List.replicate size 7

/-- A record is grouped and its group flushed. -/
def streamRun : List Op :=
  join 0 defaultLimits 8 streamTrack ++
    [.publish quietPublish (streamRecord 2), .flush quietFlush]

theorem flushSteady_of_unused {t : Transport} (hlogs : ∀ c ∈ t.conns, c.datagrams = [])
    (hcache : t.sentCache.occupied = []) : t.FlushSteady := by
  rintro slotted state - - geometry (⟨c, hc, packet, hpacket, -⟩ | ⟨entry, hentry, -⟩)
  · simp [hlogs c hc] at hpacket
  · simp [hcache] at hentry

theorem streamRun_steady : Machine.Along apply AttemptsSteadily server streamRun := by
  refine ⟨trivial, trivial, trivial, trivial, ?_, ?_, trivial⟩
  · simp only [AttemptsSteadily]
    rw [if_pos (by decide +kernel)]
    refine ⟨fun hdue => absurd hdue (by decide +kernel), fun _ hcomplete => ?_⟩
    exact absurd hcomplete (by decide +kernel)
  · exact flushSteady_of_unused (by decide +kernel) (by decide +kernel)

/-- QUIC takes the first packet of each attempt only. -/
def congestedFlush : FlushEnv where
  conn _ := { quietConn with packet := fun symbol => if symbol = 0 then .queued else .refused }
  storeAllocates := true

/-- A group of two symbols is sent in part, a peer with small datagrams says HELLO
and the group is attempted again. -/
def shrinkRun : List Op :=
  join 0 defaultLimits 8 streamTrack ++
    [.publish quietPublish (streamRecord 1298), .flush congestedFlush, .connect,
      .hello 1 { helloFor defaultLimits with maxDatagramSize := 1180 }, .flush quietFlush]

end Transport

end Qlinq
