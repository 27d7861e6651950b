import Qlinq.Integrity

namespace Qlinq

/-! The events a connection emits in one step. -/

namespace Conn

/-- The step emits the events, and leaves a closed connection closed. -/
structure Emits (events : List Event) (c c' : Conn) : Prop where
  events_eq : c'.events = c.events ++ events
  open_of_open : c'.closed = none → c.closed = none

namespace Emits

theorem refl (c : Conn) : Emits [] c c := ⟨(List.append_nil _).symm, fun h => h⟩

theorem trans {c c' c'' : Conn} (hfirst : Emits first c c') (hsecond : Emits second c' c'') :
    Emits (first ++ second) c c'' :=
  ⟨by rw [hsecond.events_eq, hfirst.events_eq, List.append_assoc],
    fun h => hfirst.open_of_open (hsecond.open_of_open h)⟩

/-- A step without events. -/
theorem of_same {c c' : Conn} (hevents : c'.events = c.events)
    (hclosed : c'.closed = c.closed) : Emits [] c c' :=
  ⟨by rw [hevents, List.append_nil], fun h => hclosed.symm.trans h⟩

end Emits

theorem frame_emits : ReceiveFrame (Emits []) where
  refl := .refl
  trans hfirst hsecond := hfirst.trans hsecond
  closed _ _ := ⟨(List.append_nil _).symm, fun h => by simp at h⟩
  drained _ _ := .of_same rfl rfl
  written _ _ _ _ := .of_same rfl rfl
  acceptedWindows _ _ := .of_same rfl rfl
  assemblers _ _ := .of_same rfl rfl
  objectGap _ _ _ _ := .of_same rfl rfl

theorem emits_emit (c : Conn) (event : Event) : Emits [event] c (c.emit event) :=
  ⟨rfl, fun h => h⟩

theorem emits_subscribeConnection (c : Conn) (track : TrackId) :
    Emits [] c (c.subscribeConnection track).1 := by
  unfold subscribeConnection
  split
  · exact .refl c
  split
  · split
    · exact .refl c
    · exact frame_emits.writeControlFrame c _ fun _ => .of_same rfl rfl
  split
  · exact .refl c
  split
  · exact .refl c
  next a _ =>
  split
  · exact .refl c
  next table _ =>
  extract_lets added
  have hadded : Emits [] c added := .of_same rfl rfl
  have hwrite := hadded.trans (frame_emits.writeControlFrame added
    (added.receiveFrame a (.subscribe a track)) fun _ => .of_same rfl rfl)
  split
  · next hwritten =>
      rw [hwritten] at hwrite
      exact hwrite
  · next hfailed =>
      rw [hfailed] at hwrite
      exact hwrite.trans (.of_same rfl rfl)

theorem emits_unsubscribeConnection (c : Conn) (track : TrackId) :
    Emits [] c (c.unsubscribeConnection track).1 := by
  unfold unsubscribeConnection
  split
  · exact .refl c
  split
  · exact .refl c
  next entry _ =>
  extract_lets a
  have hwrite := frame_emits.writeControlFrame c
    (c.receiveFrame a (.unsubscribe a entry.trackId)) fun _ => .of_same rfl rfl
  split
  · next hfailed =>
      rw [hfailed] at hwrite
      exact hwrite
  · next hwritten =>
      rw [hwritten] at hwrite
      exact hwrite.trans (.of_same rfl rfl)

theorem emits_receiveHello (c : Conn) (limits : TransportLimits) (hello : Hello) :
    Emits [] c (c.receiveHello limits hello) := by
  unfold receiveHello
  split
  · exact .refl c
  split
  · exact frame_emits.protocolClose c _
  · exact .of_same rfl rfl

theorem emits_respondAuth (c : Conn) (success : Bool) :
    Emits [] c (c.respondAuth success) := by
  unfold respondAuth
  split
  · exact .refl c
  split
  · exact .of_same rfl rfl
  · exact frame_emits.quiclyClose c _ _

/-- Events that hand out no object of a datagram track. -/
def Silent (events : List Event) : Prop := ∀ event ∈ events, event.delivery = none

theorem silent_nil : Silent [] := fun _ h => absurd h List.not_mem_nil

theorem silent_singleton (hevent : event.delivery = none) : Silent [event] := by
  intro other hmem
  obtain rfl := List.mem_singleton.mp hmem
  exact hevent

theorem emits_receiveTrackObject (c : Conn) (stream : Nat) (object : Sent TrackObject) :
    ∃ events, Silent events ∧ Emits events c (c.receiveTrackObject stream object) := by
  unfold receiveTrackObject parseTrackObject
  split
  · exact ⟨[], silent_nil, frame_emits.quiclyClose c _ _⟩
  split
  · exact ⟨[], silent_nil, frame_emits.quiclyClose c _ _⟩
  simp only
  split
  · exact ⟨[], silent_nil, frame_emits.protocolClose c _⟩
  have hbind : Emits [] c (c.bindStream stream object.message.trackAlias) := by
    unfold bindStream
    split
    · exact .of_same rfl rfl
    · exact .refl c
  split
  · exact ⟨[], silent_nil, hbind⟩
  next track _ =>
  split
  · exact ⟨[], silent_nil, hbind.trans (frame_emits.protocolClose _ _)⟩
  · next hreliable =>
      have hsilent : (trackProfile track).reliable = true := by simpa using hreliable
      exact ⟨_, silent_singleton (by simp [Event.delivery, hsilent]),
        hbind.trans (emits_emit _ _)⟩

theorem emits_expireAssembler (c : Conn) (slot : Nat) :
    ∃ events, Silent events ∧ Emits events c (c.expireAssembler slot) := by
  unfold expireAssembler
  split
  · exact ⟨[], silent_nil, .refl c⟩
  split
  · exact ⟨[], silent_nil, .refl c⟩
  simp only
  split
  · exact ⟨[], silent_nil, .of_same rfl rfl⟩
  · exact ⟨_, silent_singleton rfl, (emits_emit c _).trans (.of_same rfl rfl)⟩

theorem emits_openAssembler (c : Conn) (env : ReceiveEnv) (header : FecHeader) :
    ∃ events, Silent events ∧ Emits events c (c.openAssembler env header).1 := by
  unfold openAssembler
  extract_lets selected lossy advanced
  have hlossy : ∃ events, Silent events ∧ Emits events c lossy := by
    simp only [lossy]
    split
    · exact ⟨[], silent_nil, .refl c⟩
    split
    · exact ⟨[], silent_nil, .refl c⟩
    · exact ⟨_, silent_singleton rfl, emits_emit c _⟩
  obtain ⟨events, hsilent, hemits⟩ := hlossy
  have hkept : ∀ {c' : Conn}, c'.events = lossy.events → c'.closed = lossy.closed →
      Emits events c c' := by
    intro c' hevents hclosed
    have hboth := hemits.trans (.of_same hevents hclosed)
    rw [List.append_nil] at hboth
    exact hboth
  split <;> exact ⟨events, hsilent, hkept rfl rfl⟩

/-- The event of an object completed by a symbol. -/
def completion (c : Conn) (track : TrackId) (assembler : FrameAssembler)
    (blocks : List Bytes) : Event :=
  .object track (c.receiveGeneration assembler.trackAlias) assembler.groupId
    assembler.objectId (blocks.flatten.take assembler.originalSize)
    (assembler.received.map Sent.track)

theorem emits_completeObject (c : Conn) (slot : Nat) (track : TrackId)
    (assembler : FrameAssembler) (blocks : List Bytes) :
    Emits [c.completion track assembler blocks] c
      (c.completeObject slot track assembler blocks) := by
  unfold completeObject
  extract_lets a generation completed ringed marked
  have hmarked : Emits [] c marked := by
    have hringed : Emits [] c ringed := .of_same rfl rfl
    simp only [marked]
    split
    · have hmark : Emits [] ringed (ringed.setObjectGap a
          ((ringed.objectGap a).markObjectDelivered assembler.objectId)) := .of_same rfl rfl
      exact (hringed.trans hmark).trans (frame_emits.answers.recoveryMarkDelivered _ a
        assembler.groupId assembler.objectId)
    · exact hringed
  exact (hmarked.trans (emits_emit marked _)).trans (.of_same rfl rfl)

/-- A symbol completes its object, or nothing is handed out. -/
theorem emits_assemble (c : Conn) (env : ReceiveEnv) (track : TrackId) (slot : Nat)
    (assembler : FrameAssembler) (datagram : Sent Datagram) :
    Emits [] c (c.assemble env track slot assembler datagram) ∨
      ∃ blocks, assembledBlocks env.codec (trackProfile track).fecRateless
          (placeSymbol assembler datagram env.now) = some blocks ∧
        Emits [c.completion track (placeSymbol assembler datagram env.now) blocks] c
          (c.assemble env track slot assembler datagram) := by
  unfold assemble
  extract_lets header grown accepted stored
  have hstored : Emits [] c stored := .of_same rfl rfl
  split
  · exact Or.inl (.refl c)
  split
  · exact Or.inl hstored
  next blocks hblocks =>
  split
  · exact Or.inl hstored
  · exact Or.inr ⟨blocks, hblocks,
      hstored.trans (emits_completeObject stored slot track accepted blocks)⟩

theorem placed_identity (c : Conn) (env : ReceiveEnv) (datagram : Sent Datagram) :
    (c.placed env datagram).trackAlias = datagram.message.header.trackAlias ∧
      (c.placed env datagram).groupId = datagram.message.header.groupId ∧
      (c.placed env datagram).objectId = datagram.message.header.objectId := by
  unfold placed
  split
  · exact placeSymbol_identity _ datagram env.now
  · next slot assembler hfound =>
      obtain ⟨halias, hgroup, hobject⟩ := placeSymbol_identity assembler datagram env.now
      obtain ⟨halias', hgroup', hobject'⟩ := findAssembler_eq_some hfound
      exact ⟨halias.trans halias', hgroup.trans hgroup', hobject.trans hobject'⟩

/-- The event hands out the object that the operation's symbol completes. -/
def Completes (c : Conn) (op : ReceiveOp) (event : Event) : Prop :=
  ∃ env datagram track blocks, op = .datagram env datagram ∧
    c.receiveSubscriptions.findByAlias datagram.message.header.trackAlias = some track ∧
    assembledBlocks env.codec (trackProfile track).fecRateless (c.placed env datagram) =
      some blocks ∧
    event = c.completion track (c.placed env datagram) blocks

/-- The step emits notices and at most what its symbol completes. -/
def EmitsFor (c : Conn) (op : ReceiveOp) (c' : Conn) : Prop :=
  ∃ events, Emits events c c' ∧
    ∀ event ∈ events, event.delivery = none ∨ c.Completes op event

theorem Emits.emitsFor {events : List Event} {c c' : Conn} (hemits : Emits events c c')
    (hsilent : Silent events) : c.EmitsFor op c' :=
  ⟨events, hemits, fun event hmem => Or.inl (hsilent event hmem)⟩

theorem emitsFor_of_silent {c c' : Conn}
    (hemits : ∃ events, Silent events ∧ Emits events c c') : c.EmitsFor op c' := by
  obtain ⟨events, hsilent, hemits⟩ := hemits
  exact hemits.emitsFor hsilent

theorem completion_eq {c c' : Conn}
    (hgeneration : c'.receiveGeneration assembler.trackAlias =
      c.receiveGeneration assembler.trackAlias) :
    c'.completion track assembler blocks = c.completion track assembler blocks := by
  unfold completion
  rw [hgeneration]

/-- The symbol is put in its place after what the step did before. -/
theorem emitsFor_assemble {c before : Conn} {datagram : Sent Datagram}
    (hsilent : Silent lost) (hbefore : Emits lost c before) (hkept : KeepsDelivered c before)
    (hbound : c.receiveSubscriptions.findByAlias datagram.message.header.trackAlias =
      some track)
    (hplaced : c.placed env datagram = placeSymbol assembler datagram env.now) (slot : Nat) :
    c.EmitsFor (.datagram env datagram)
      (before.assemble env track slot assembler datagram) := by
  cases emits_assemble before env track slot assembler datagram with
  | inl hnothing =>
      have hemits := hbefore.trans hnothing
      rw [List.append_nil] at hemits
      exact hemits.emitsFor hsilent
  | inr hcompletes =>
      obtain ⟨blocks, hblocks, hobject⟩ := hcompletes
      refine ⟨_, hbefore.trans hobject, fun event hmem => ?_⟩
      cases List.mem_append.mp hmem with
      | inl hlost => exact Or.inl (hsilent event hlost)
      | inr hhere =>
          obtain rfl := List.mem_singleton.mp hhere
          rw [← hplaced] at hblocks ⊢
          exact Or.inr ⟨env, datagram, track, blocks, rfl, hbound, hblocks,
            completion_eq (hkept.generation _)⟩

theorem emitsFor_receiveDatagram (c : Conn) (env : ReceiveEnv) (datagram : Sent Datagram) :
    c.EmitsFor (.datagram env datagram) (c.receiveDatagram env datagram) := by
  have hnothing : c.EmitsFor (.datagram env datagram) c := (Emits.refl c).emitsFor silent_nil
  unfold receiveDatagram
  extract_lets header
  split
  · exact hnothing
  split
  · exact hnothing
  next track hbound =>
  split
  · exact (frame_emits.protocolClose c _).emitsFor silent_nil
  split
  · exact hnothing
  split
  · exact hnothing
  extract_lets observed
  have hkept : Emits [] c observed ∧ KeepsDelivered c observed ∧
      observed.assemblers = c.assemblers := by
    simp only [observed]
    split
    · exact ⟨.of_same rfl rfl,
        keeps_setObjectGap (ObjectGapState.sameHistory_observe _ _ _), rfl⟩
    · exact ⟨.refl c, .refl c, rfl⟩
  obtain ⟨hemits, hkept, hassemblers⟩ := hkept
  have hfind : observed.findAssembler header = c.findAssembler header := by
    unfold findAssembler
    rw [hassemblers]
  split
  · next slot assembler hfound =>
      rw [hfind] at hfound
      split
      · exact hemits.emitsFor silent_nil
      · exact emitsFor_assemble silent_nil hemits hkept hbound
          (by simp only [placed, hfound, header]) slot
  · next hfound =>
      rw [hfind] at hfound
      obtain ⟨lost, hsilent, hopen⟩ := emits_openAssembler observed env header
      have hopen := hemits.trans hopen
      have hkept := hkept.trans (keeps_openAssembler observed env header)
      split
      · next hfailed =>
          rw [hfailed] at hopen
          exact hopen.emitsFor hsilent
      · next slot assembler hopened =>
          rw [hopened] at hopen hkept
          obtain rfl := openAssembler_eq_some hopened
          exact emitsFor_assemble hsilent hopen hkept hbound
            (by simp only [placed, hfound, header]) slot

theorem receive_emits (limits : TransportLimits) (c : Conn) (op : ReceiveOp) :
    c.EmitsFor op (receive limits c op) := by
  cases op with
  | hello hello => exact (emits_receiveHello c limits hello).emitsFor silent_nil
  | respondAuth success => exact (emits_respondAuth c success).emitsFor silent_nil
  | subscribe track => exact (emits_subscribeConnection c track).emitsFor silent_nil
  | unsubscribe track => exact (emits_unsubscribeConnection c track).emitsFor silent_nil
  | datagram env datagram => exact emitsFor_receiveDatagram c env datagram
  | trackObject stream object => exact emitsFor_of_silent (emits_receiveTrackObject c stream object)
  | trackCheckpoint checkpoint =>
      exact (frame_emits.receiveRecoveryFrame (·.receiveTrackCheckpoint checkpoint)
        (frame_emits.receiveTrackCheckpoint c checkpoint)).emitsFor silent_nil
  | trackEnd finish =>
      exact (frame_emits.receiveRecoveryFrame (·.receiveTrackEnd finish)
        (frame_emits.receiveTrackEnd c finish)).emitsFor silent_nil
  | expire slot => exact emitsFor_of_silent (emits_expireAssembler c slot)
  | flushAcks => exact (frame_emits.answers.flushRecoveryAcks c).emitsFor silent_nil
  | sendNack request withheld =>
      exact (frame_emits.answers.sendNack c request withheld).emitsFor silent_nil
  | admissions admissions =>
      have hemits : Emits [] c (receive limits c (.admissions admissions)) := .of_same rfl rfl
      exact hemits.emitsFor silent_nil
  | close code reason => exact (frame_emits.quiclyClose c code reason).emitsFor silent_nil

end Conn

end Qlinq
