import Qlinq.SweepFairness

namespace Qlinq

/-! What a sweep asks for. -/

variable {limits : ConfiguredLimits}

/-- What a subscription is short of, and may ask for again. -/
inductive RequestGap.Wants (gap : RequestGap) (nowMs : Int64) (assembling : Nat → Nat → Bool) :
    NackRequest → Prop
  | pending (hdue : gap.isDue nowMs = true) (hobject : objectId ∈ gap.pendingObjects) :
      Wants gap nowMs assembling (objectRequest gap.trackAlias gap.groupId objectId)
  | missing (hwindow : some window ∈ gap.windows) (hdue : window.isDue nowMs = true)
      (hobject : objectId ∈ window.missingObjects (assembling window.groupId)) :
      Wants gap nowMs assembling (objectRequest gap.trackAlias window.groupId objectId)

/-- The symbols that an object of a rateless track is short of. -/
inductive RequestAssembler.Wants (assembler : RequestAssembler) (env : SweepEnv) (conn : Conn) :
    NackRequest → Prop
  | symbols (hdue : assembler.isDue env.nowMs = true)
      (htrack : conn.receiveSubscriptions.findByAlias assembler.trackAlias = some track)
      (hrateless : (trackProfile track).fecRateless = true)
      (hsome : (assembler.symbolRequest
        (conn.repairsRateless env.indexedOnly track)).count ≠ 0) :
      Wants assembler env conn
        (assembler.symbolRequest (conn.repairsRateless env.indexedOnly track))

/-- What a peer is asked for. -/
inductive SweepPeer.Wants (peer : SweepPeer limits) (env : SweepEnv) : NackRequest → Prop
  | gap (hgap : gap ∈ peer.gaps)
      (hwants : gap.Wants env.nowMs (peer.assembling gap.trackAlias) request) :
      Wants peer env request
  | assembler (hassembler : some assembler ∈ peer.assemblers)
      (hwants : assembler.Wants env peer.conn request) : Wants peer env request

namespace PeerSweep

/-- Nothing is asked for that is not wanted, and the connection stays. -/
structure Asks (wants : NackRequest → Prop) (before after : PeerSweep limits) : Prop where
  asked : ∃ admitted, after.asked = before.asked ++ admitted ∧ ∀ request ∈ admitted, wants request
  conn : after.sender.conn = before.sender.conn

variable {wants : NackRequest → Prop}

theorem asks_self (s : PeerSweep limits) : Asks wants s s :=
  ⟨⟨[], by simp, by simp⟩, rfl⟩

theorem Asks.trans {before between after : PeerSweep limits} (hfirst : Asks wants before between)
    (hsecond : Asks wants between after) : Asks wants before after := by
  obtain ⟨⟨admitted, hasked, hwants⟩, hconn⟩ := hfirst
  obtain ⟨⟨admitted', hasked', hwants'⟩, hconn'⟩ := hsecond
  refine ⟨⟨admitted ++ admitted', ?_, ?_⟩, hconn'.trans hconn⟩
  · rw [hasked', hasked, List.append_assoc]
  · intro request hrequest
    exact (List.mem_append.mp hrequest).elim (hwants request) (hwants' request)

theorem Asks.mono {other : NackRequest → Prop} {before after : PeerSweep limits}
    (hasks : Asks wants before after) (hmore : ∀ request, wants request → other request) :
    Asks other before after := by
  obtain ⟨⟨admitted, hasked, hwants⟩, hconn⟩ := hasks
  exact ⟨⟨admitted, hasked, fun request hrequest => hmore request (hwants request hrequest)⟩,
    hconn⟩

theorem conn_sendNack (s : NackSender limits) (indexedOnly : Bool) (clock : NackClock)
    (request : NackRequest) : (s.sendNack indexedOnly clock request).1.conn = s.conn := by
  have houtcome := NackSender.sendNack_atomic s indexedOnly clock request
  generalize s.sendNack indexedOnly clock request = result at houtcome
  obtain ⟨after, sent⟩ := result
  cases houtcome with
  | written hstream hframe hnew hframes hcount hrequest haggregate hconn => exact hconn
  | coalesced hstream hframe hretained hafter => rw [hafter]
  | refused hstream hstats hrequest haggregate hconn => exact hconn

theorem asks_ask (s : PeerSweep limits) (env : SweepEnv) {request : NackRequest}
    (hwants : wants request) : Asks wants s (s.ask env request).1 := by
  simp only [ask]
  split
  · exact ⟨⟨[], by simp, by simp⟩, rfl⟩
  · have hconn := conn_sendNack
      { s.sender with aggregateLimiter := (s.sender.aggregateLimiter.waitMs env.nowMs).1 }
      env.indexedOnly (env.clock s.calls) request
    split
    · next sender hresult =>
        rw [hresult] at hconn
        exact ⟨⟨[], by simp, by simp⟩, hconn⟩
    · next sender hresult =>
        rw [hresult] at hconn
        exact ⟨⟨[request], rfl, by simpa using hwants⟩, hconn⟩

theorem asks_askObjects (env : SweepEnv) (trackAlias : TrackAlias) (groupId : Nat)
    (s : PeerSweep limits) {objects : List Nat}
    (hwants : ∀ objectId ∈ objects, wants (objectRequest trackAlias groupId objectId)) :
    Asks wants s (s.askObjects env trackAlias groupId objects).1 := by
  induction objects generalizing s with
  | nil => exact asks_self s
  | cons objectId rest ih =>
      have hask := asks_ask s env (hwants objectId List.mem_cons_self)
      rw [askObjects]
      split
      · exact asks_self s
      split
      · next after hresult =>
          rw [hresult] at hask
          exact hask
      · next after hresult =>
          rw [hresult] at hask
          have hspent : Asks wants s { after with budget := after.budget - 1 } :=
            ⟨hask.asked, hask.conn⟩
          exact hspent.trans (ih _ fun other hother => hwants other (List.mem_cons_of_mem _ hother))

/-- A loop asks for what its items want. -/
theorem asks_sweepEach {α : Type} {sweep : PeerSweep limits → α → PeerSweep limits × α}
    {items : List α} {conn : Conn} (hsweep : ∀ s : PeerSweep limits, s.sender.conn = conn →
      ∀ item ∈ items, Asks wants s (sweep s item).1)
    {s : PeerSweep limits} (hconn : s.sender.conn = conn) :
    Asks wants s (sweepEach sweep s items).1 := by
  induction items generalizing s with
  | nil => exact asks_self s
  | cons item rest ih =>
      have hitem := hsweep s hconn item List.mem_cons_self
      rw [sweepEach]
      split
      · exact asks_self s
      · exact hitem.trans (ih (fun s hconn other hother =>
          hsweep s hconn other (List.mem_cons_of_mem _ hother)) (hitem.conn.trans hconn))

theorem asks_sweepPending (env : SweepEnv) (assembling : Nat → Nat → Bool) (s : PeerSweep limits)
    (gap : RequestGap) :
    Asks (gap.Wants env.nowMs assembling) s (s.sweepPending env gap).1 ∧
      (s.sweepPending env gap).2.trackAlias = gap.trackAlias ∧
      (s.sweepPending env gap).2.windows = gap.windows := by
  unfold sweepPending
  split
  · next hdue =>
    have hasks : Asks (gap.Wants env.nowMs assembling) s _ :=
      asks_askObjects env gap.trackAlias gap.groupId s
        fun objectId hobject => RequestGap.Wants.pending hdue hobject
    split
    · next hresult =>
        rw [hresult] at hasks
        exact ⟨hasks, rfl, rfl⟩
    · next hresult =>
        rw [hresult] at hasks
        exact ⟨hasks, rfl, rfl⟩
  · exact ⟨asks_self s, rfl, rfl⟩

theorem asks_sweepWindow (env : SweepEnv) (assembling : Nat → Nat → Bool) (s : PeerSweep limits)
    {gap : RequestGap} {slot : Option RequestWindow} (hslot : slot ∈ gap.windows) :
    Asks (gap.Wants env.nowMs assembling) s
      (sweepWindow env gap.trackAlias assembling s slot).1 := by
  cases slot with
  | none => exact asks_self s
  | some window =>
      simp only [sweepWindow]
      split
      · next hdue =>
        have hasks : Asks (gap.Wants env.nowMs assembling) s _ :=
          asks_askObjects env gap.trackAlias window.groupId s
            fun objectId hobject => RequestGap.Wants.missing hslot hdue hobject
        split
        · exact hasks
        · exact hasks
      · exact asks_self s

theorem asks_sweepGap (env : SweepEnv) (assembling : TrackAlias → Nat → Nat → Bool)
    (s : PeerSweep limits) (gap : RequestGap) :
    Asks (gap.Wants env.nowMs (assembling gap.trackAlias)) s
      (s.sweepGap env assembling gap).1 := by
  obtain ⟨hpending, halias, hwindows⟩ :=
    asks_sweepPending env (assembling gap.trackAlias) s gap
  simp only [sweepGap]
  refine hpending.trans ?_
  rw [halias, hwindows]
  exact asks_sweepEach (fun s _ slot hslot =>
    asks_sweepWindow env (assembling gap.trackAlias) s hslot) rfl

theorem asks_sweepAssembler (env : SweepEnv) (s : PeerSweep limits)
    (slot : Option RequestAssembler) :
    Asks (fun request => ∃ assembler, slot = some assembler ∧
      assembler.Wants env s.sender.conn request) s (s.sweepAssembler env slot).1 := by
  cases slot with
  | none => exact asks_self s
  | some assembler =>
      simp only [sweepAssembler]
      split
      · exact asks_self s
      next hdue =>
      split
      · exact asks_self s
      next track htrack =>
      split
      · exact asks_self s
      next hrateless =>
      split
      · exact asks_self s
      next hsome =>
      have hasks : Asks (fun request => ∃ other, some assembler = some other ∧
          other.Wants env s.sender.conn request) s _ :=
        asks_ask s env ⟨assembler, rfl, RequestAssembler.Wants.symbols (by simpa using hdue) htrack
          (by simpa using hrateless) hsome⟩
      split
      · next hresult =>
          rw [hresult] at hasks
          exact hasks
      · next hresult =>
          rw [hresult] at hasks
          exact hasks

end PeerSweep

namespace NackSweep

theorem asks_sweepPeer (s : NackSweep limits) (env : SweepEnv) (peer : SweepPeer limits) :
    PeerSweep.Asks (peer.Wants env) (s.startPeer peer) (s.sweepPeer env peer).1 := by
  have hgaps : PeerSweep.Asks (peer.Wants env) (s.startPeer peer)
      (PeerSweep.sweepEach (PeerSweep.sweepGap env peer.assembling) (s.startPeer peer)
        peer.gaps).1 :=
    PeerSweep.asks_sweepEach (fun s _ gap hgap =>
      (PeerSweep.asks_sweepGap env peer.assembling s gap).mono
        fun request hwants => .gap hgap hwants) rfl
  refine hgaps.trans ?_
  refine PeerSweep.asks_sweepEach (fun s hconn slot hslot => ?_) hgaps.conn
  refine (PeerSweep.asks_sweepAssembler env s slot).mono fun request hwants => ?_
  obtain ⟨assembler, rfl, hwants⟩ := hwants
  rw [hconn] at hwants
  exact .assembler hslot hwants

/-- The requests of a visit are the peer's, and the other peers stay. -/
theorem visit_asks (s : NackSweep limits) (env : SweepEnv) (index : Nat) :
    (∃ admitted, (s.visit env index).1.asked = s.asked ++ admitted ∧
      ∀ entry ∈ admitted, entry.1 = index ∧ ∃ peer, s.transport.peers[index]? = some peer ∧
        peer.conn.closed = none ∧ peer.Wants env entry.2) ∧
      ∀ other ≠ index,
        (s.visit env index).1.transport.peers[other]? = s.transport.peers[other]? := by
  unfold visit
  split
  · exact ⟨⟨[], by simp, by simp⟩, fun _ _ => rfl⟩
  next peer hpeer =>
  split
  · exact ⟨⟨[], by simp, by simp⟩, fun _ _ => rfl⟩
  next hopen =>
  obtain ⟨⟨admitted, hasked, hwants⟩, -⟩ := asks_sweepPeer s env peer
  refine ⟨⟨admitted.map (index, ·), ?_, ?_⟩, fun other hother => ?_⟩
  · rw [startPeer, List.nil_append] at hasked
    exact congrArg (fun asked => s.asked ++ List.map (index, ·) asked) hasked
  · intro entry hentry
    obtain ⟨request, hrequest, rfl⟩ := List.mem_map.mp hentry
    exact ⟨rfl, peer, hpeer, by simpa using hopen, hwants request hrequest⟩
  · exact List.getElem?_set_ne (Ne.symm hother)

theorem visits_ask (env : SweepEnv) {places : List Nat} (hnodup : places.Nodup)
    (peers : List (SweepPeer limits)) (s : NackSweep limits)
    (hpeers : ∀ place ∈ places, s.transport.peers[place]? = peers[place]?) :
    ∃ admitted, (RoundRobin.visits (visit env) places s).1.asked = s.asked ++ admitted ∧
      ∀ entry ∈ admitted, ∃ peer, peers[entry.1]? = some peer ∧ peer.conn.closed = none ∧
        peer.Wants env entry.2 := by
  induction places generalizing s with
  | nil => exact ⟨[], by simp [RoundRobin.visits], by simp⟩
  | cons place rest ih =>
      obtain ⟨⟨admitted, hasked, hwants⟩, hothers⟩ := visit_asks s env place
      obtain ⟨hfresh, hrest⟩ := List.nodup_cons.mp hnodup
      have hhere : ∀ entry ∈ admitted, ∃ peer, peers[entry.1]? = some peer ∧
          peer.conn.closed = none ∧ peer.Wants env entry.2 := by
        intro entry hentry
        obtain ⟨hindex, peer, hpeer, hopen, hwant⟩ := hwants entry hentry
        refine ⟨peer, ?_, hopen, hwant⟩
        rw [hindex, ← hpeers place List.mem_cons_self]
        exact hpeer
      simp only [RoundRobin.visits]
      split
      · exact ⟨admitted, hasked, hhere⟩
      · obtain ⟨admitted', hasked', hwants'⟩ := ih hrest (s.visit env place).1
          fun other hother => by
            rw [hothers other fun heq => hfresh (heq ▸ hother)]
            exact hpeers other (List.mem_cons_of_mem _ hother)
        refine ⟨admitted ++ admitted', ?_, fun entry hentry =>
          (List.mem_append.mp hentry).elim (hhere entry) (hwants' entry)⟩
        rw [← List.append_assoc, ← hasked]
        exact hasked'

end NackSweep

namespace NackTransport

/-- A sweep asks open peers alone, and for nothing that they do not owe at the time: objects of a
gap or a window that are missing, not under way and not asked for a moment ago, and the symbols
of a rateless object that does not come on. -/
theorem requests_are_due (t : NackTransport limits) (env : SweepEnv) :
    ∀ entry ∈ (t.recoverySweep env).1.asked, ∃ peer, t.peers[entry.1]? = some peer ∧
      peer.conn.closed = none ∧ peer.Wants env entry.2 := by
  have hswept : ∀ entry ∈ (t.sweepPeers env).1.asked, ∃ peer, t.peers[entry.1]? = some peer ∧
      peer.conn.closed = none ∧ peer.Wants env entry.2 := by
    unfold sweepPeers
    split
    · simp [startSweep]
    · obtain ⟨admitted, hasked, hwants⟩ := NackSweep.visits_ask env
        (RoundRobin.nodup_order t.peers.length
          ((t.startSweep env.nowMs).transport.recoveryConnCursor % t.peers.length))
        t.peers (t.startSweep env.nowMs) fun _ _ => rfl
      intro entry hentry
      rw [RoundRobin.round, hasked] at hentry
      exact hwants entry hentry
  simp only [recoverySweep]
  split
  · exact hswept
  · exact hswept

theorem lossy_sweep_asks : (lossyTransport.recoverySweep (steadyEnv 1000)).1.asked ≠ [] := by
  rw [ne_eq, ← List.isEmpty_iff]
  decide +kernel

theorem lossy_request_is_due :
    ∃ entry : Nat × NackRequest, entry.2.objectId = 5 ∧
      ∃ peer, lossyTransport.peers[entry.1]? = some peer ∧ peer.conn.closed = none ∧
        peer.Wants (steadyEnv 1000) entry.2 :=
  ⟨List.head _ lossy_sweep_asks, by decide +kernel,
    requests_are_due lossyTransport (steadyEnv 1000) _ (List.head_mem lossy_sweep_asks)⟩

end NackTransport

end Qlinq
