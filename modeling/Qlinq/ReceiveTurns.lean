import Qlinq.Lib.RoundRobin
import Qlinq.Wire

namespace Qlinq

/-! The receive loop of `transport_tick`: a packet budget for each tick, shared by the sockets in
turns. -/

/-- What a call of `recvfrom` answers. -/
inductive RecvAnswer where
  | datagram (data : Bytes)
  | interrupted
  | blocked
  | failed
  deriving DecidableEq, Repr

/-- The loop at one socket; a socket without a further answer blocks.  The datagrams come with
the budget that is left. -/
def receiveSocket (quantum : Nat) : Nat → Nat → List RecvAnswer → Nat × List Bytes
  | budget, _, [] => (budget, [])
  | budget, serviced, answer :: rest =>
      if budget = 0 ∨ quantum ≤ serviced then
        (budget, [])
      else
        match answer with
        | .datagram data =>
            let (budget, received) := receiveSocket quantum (budget - 1) (serviced + 1) rest
            (budget, data :: received)
        | .interrupted => receiveSocket quantum budget serviced rest
        | .blocked => (budget, [])
        | .failed => (budget, [])

/-- The loop over the sockets, each with what it received. -/
def receiveSockets (quantum : Nat) (answers : List (List RecvAnswer)) :
    Nat → List Nat → Nat × List (Nat × List Bytes)
  | budget, [] => (budget, [])
  | budget, index :: rest =>
      if budget = 0 then
        (budget, [])
      else
        let (budget, received) := receiveSocket quantum budget 0 (answers.getD index [])
        let (budget, others) := receiveSockets quantum answers budget rest
        (budget, (index, received) :: others)

/-- A socket's share of the budget. -/
def receiveQuantum (budget sockets : Nat) : Nat := (budget + sockets - 1) / sockets

/-- The receive loop of a tick; `answers` are those of its sockets. -/
structure ReceiveTick where
  budget : Nat
  answers : List (List RecvAnswer)
  deriving Repr

namespace ReceiveTick

def sockets (tick : ReceiveTick) : Nat := tick.answers.length

def quantum (tick : ReceiveTick) : Nat := receiveQuantum tick.budget tick.sockets

def run (tick : ReceiveTick) (cursor : Nat) : Nat × List (Nat × List Bytes) :=
  receiveSockets tick.quantum tick.answers tick.budget
    (RoundRobin.order tick.sockets (cursor % tick.sockets))

/-- `receive_cursor` behind the tick. -/
def nextCursor (tick : ReceiveTick) (cursor : Nat) : Nat :=
  if tick.sockets = 0 then 0 else (cursor % tick.sockets + 1) % tick.sockets

/-- What a socket has received. -/
def received (tick : ReceiveTick) (cursor index : Nat) : List Bytes :=
  (((tick.run cursor).2.find? (·.1 == index)).map Prod.snd).getD []

end ReceiveTick

/-- The datagrams that a socket has ready. -/
def waiting : List RecvAnswer → List Bytes
  | .datagram data :: rest => data :: waiting rest
  | .interrupted :: rest => waiting rest
  | _ => []

/-! ### One tick -/

theorem receiveSocket_eq (quantum budget serviced : Nat) (answers : List RecvAnswer) :
    receiveSocket quantum budget serviced answers =
      (budget - ((waiting answers).take (min budget (quantum - serviced))).length,
        (waiting answers).take (min budget (quantum - serviced))) := by
  induction answers generalizing budget serviced with
  | nil => simp [receiveSocket, waiting]
  | cons answer rest ih =>
      unfold receiveSocket
      split
      · next hdone =>
        rw [show min budget (quantum - serviced) = 0 by omega]
        simp
      next hgoes =>
      rw [not_or, Nat.not_le] at hgoes
      cases answer with
      | datagram data =>
          obtain ⟨more, hmore⟩ : ∃ more, min budget (quantum - serviced) = more + 1 :=
            ⟨min budget (quantum - serviced) - 1, by omega⟩
          have hless : min (budget - 1) (quantum - (serviced + 1)) = more := by omega
          simp only [ih, waiting, hless, hmore, List.take_succ_cons, List.length_cons]
          congr 1
          omega
      | interrupted => exact ih budget serviced
      | blocked => simp [waiting]
      | failed => simp [waiting]

theorem quantum_pos (hbudget : 0 < budget) (hsockets : 0 < sockets) :
    0 < receiveQuantum budget sockets :=
  Nat.div_pos (by omega) hsockets

theorem quantum_le (budget : Nat) (hsockets : 0 < sockets) :
    receiveQuantum budget sockets ≤ budget := by
  rw [receiveQuantum, Nat.div_le_iff_le_mul_add_pred hsockets]
  have hle := Nat.le_mul_of_pos_left budget hsockets
  omega

/-- Every socket takes what it has ready up to its share, and less only where the budget ends. -/
theorem receiveSockets_spec (quantum : Nat) (answers : List (List RecvAnswer)) (budget : Nat)
    (places : List Nat) :
    let result := receiveSockets quantum answers budget places
    result.1 + (result.2.map (·.2.length)).sum = budget ∧
      (∀ entry ∈ result.2, ∃ limit ≤ quantum,
        entry.2 = (waiting (answers.getD entry.1 [])).take limit) ∧
      (0 < result.1 → result.2 = places.map fun index =>
        (index, (waiting (answers.getD index [])).take quantum)) := by
  induction places generalizing budget with
  | nil => exact ⟨rfl, by simp [receiveSockets], fun _ => rfl⟩
  | cons index rest ih =>
      simp only [receiveSockets]
      by_cases hbudget : budget = 0
      · rw [if_pos hbudget]
        exact ⟨rfl, by simp, fun hleft => absurd hleft (by simp [hbudget])⟩
      rw [if_neg hbudget, receiveSocket_eq]
      obtain ⟨hsum, hwithin, hall⟩ := ih (budget -
        ((waiting (answers.getD index [])).take (min budget (quantum - 0))).length)
      dsimp only at hsum hwithin hall ⊢
      have hlength : ((waiting (answers.getD index [])).take (min budget (quantum - 0))).length ≤
          budget := by
        rw [List.length_take]
        omega
      refine ⟨?_, ?_, fun hleft => ?_⟩
      · rw [List.map_cons, List.sum_cons]
        dsimp only
        omega
      · intro entry hentry
        rcases List.mem_cons.mp hentry with rfl | hentry
        · exact ⟨_, by omega, rfl⟩
        · exact hwithin entry hentry
      · rw [hall hleft, List.map_cons]
        congr 2
        -- The budget outlasted this socket, so it was not what stopped it.
        have hroom : ((waiting (answers.getD index [])).take
            (min budget (quantum - 0))).length < budget := by omega
        rw [List.length_take] at hroom
        rw [List.take_eq_take_iff]
        omega

/-! ### Many ticks -/

namespace ReceiveTick

/-- The ticks with the cursor of each. -/
def cursors : Nat → List ReceiveTick → List (Nat × ReceiveTick)
  | _, [] => []
  | cursor, tick :: rest => (cursor, tick) :: cursors (tick.nextCursor cursor) rest

theorem received_first (tick : ReceiveTick) {cursor index : Nat} (hbudget : 0 < tick.budget)
    (hindex : index < tick.sockets) (hfirst : cursor % tick.sockets = index) :
    tick.received cursor index = (waiting (tick.answers.getD index [])).take tick.quantum := by
  have hsockets : 0 < tick.sockets := Nat.zero_lt_of_lt hindex
  obtain ⟨others, horder⟩ : ∃ others,
      RoundRobin.order tick.sockets (cursor % tick.sockets) = index :: others := by
    obtain ⟨more, hmore⟩ := Nat.exists_eq_succ_of_ne_zero (Nat.ne_of_gt hsockets)
    rw [RoundRobin.order, hmore, List.range_succ_eq_map, List.map_cons, ← hmore, hfirst]
    exact ⟨_, congrArg (· :: _) (Nat.mod_eq_of_lt hindex)⟩
  have hquantum : tick.quantum ≤ tick.budget := quantum_le tick.budget hsockets
  rw [received, run, horder, receiveSockets, if_neg (Nat.ne_of_gt hbudget), receiveSocket_eq]
  simp [Nat.min_eq_right hquantum]

theorem mem_of_mem_cursors {ticks : List ReceiveTick} {cursor : Nat}
    {entry : Nat × ReceiveTick} (hentry : entry ∈ cursors cursor ticks) : entry.2 ∈ ticks := by
  induction ticks generalizing cursor with
  | nil => cases hentry
  | cons tick rest ih =>
      rcases List.mem_cons.mp hentry with rfl | hentry
      · exact List.mem_cons_self
      · exact List.mem_cons_of_mem _ (ih hentry)

theorem getD_find?_map {f : Nat → List Bytes} {places : List Nat} (hindex : index ∈ places) :
    (((places.map fun place => (place, f place)).find? (·.1 == index)).map Prod.snd).getD [] =
      f index := by
  induction places with
  | nil => cases hindex
  | cons place rest ih =>
      rw [List.map_cons, List.find?_cons]
      by_cases hhere : place = index
      · subst hhere
        simp
      · rw [beq_eq_false_iff_ne.mpr hhere]
        exact ih ((List.mem_cons.mp hindex).resolve_left (Ne.symm hhere))

/-- The cursor comes round. -/
theorem first_within {ticks : List ReceiveTick} {cursor count index : Nat} (hindex : index < count)
    (hsockets : ∀ tick ∈ ticks, tick.sockets = count)
    (hahead : RoundRobin.ahead count cursor index < ticks.length) :
    ∃ entry ∈ cursors cursor ticks, entry.2 ∈ ticks ∧ entry.1 % count = index := by
  induction ticks generalizing cursor with
  | nil => cases hahead
  | cons tick rest ih =>
      have hsame := hsockets tick List.mem_cons_self
      have hplace := RoundRobin.place_ahead hindex (cursor % count)
      rw [RoundRobin.ahead_mod] at hplace
      cases hdistance : RoundRobin.ahead count cursor index with
      | zero =>
          rw [hdistance, RoundRobin.place, Nat.add_zero, Nat.mod_mod] at hplace
          exact ⟨(cursor, tick), List.mem_cons_self, List.mem_cons_self, hplace⟩
      | succ more =>
          have hcount : 0 < count := Nat.zero_lt_of_lt hindex
          have hnext : tick.nextCursor cursor =
              RoundRobin.place count (cursor % count) 1 := by
            rw [nextCursor, hsame, if_neg (Nat.ne_of_gt hcount), RoundRobin.place]
          have hcloser : RoundRobin.ahead count (tick.nextCursor cursor) index = more := by
            rw [hnext, ← hplace, hdistance, RoundRobin.ahead_place (cursor % count) (by omega)]
            · rfl
            · rw [← hdistance]
              exact RoundRobin.ahead_lt hcount _ _
          obtain ⟨entry, hentry, hmem, hfirst⟩ :=
            ih (fun tick htick => hsockets tick (List.mem_cons_of_mem _ htick)) (by
              rw [hcloser]
              rw [hdistance, List.length_cons] at hahead
              omega)
          exact ⟨entry, List.mem_cons_of_mem _ hentry, List.mem_cons_of_mem _ hmem, hfirst⟩

/-- No tick takes more than its budget or from a socket more than its share, what it takes is
what the socket had first, and it leaves a share only where the budget ends; over as many ticks
as there are sockets, each socket is once served its whole share. -/
theorem receive_is_fair (cursor count : Nat) (ticks : List ReceiveTick)
    (hsockets : ∀ tick ∈ ticks, tick.sockets = count ∧ 0 < tick.budget) :
    (∀ entry ∈ cursors cursor ticks,
      ((entry.2.run entry.1).2.map (·.2.length)).sum ≤ entry.2.budget ∧
      (∀ received ∈ (entry.2.run entry.1).2, ∃ limit ≤ entry.2.quantum,
        received.2 = (waiting (entry.2.answers.getD received.1 [])).take limit) ∧
      (((entry.2.run entry.1).2.map (·.2.length)).sum < entry.2.budget → ∀ index < count,
        entry.2.received entry.1 index =
          (waiting (entry.2.answers.getD index [])).take entry.2.quantum)) ∧
      (count ≤ ticks.length → ∀ index < count, ∃ entry ∈ cursors cursor ticks,
        0 < entry.2.quantum ∧ entry.2.received entry.1 index =
          (waiting (entry.2.answers.getD index [])).take entry.2.quantum) := by
  refine ⟨fun entry hentry => ?_, fun henough index hindex => ?_⟩
  · obtain ⟨hsum, hwithin, hall⟩ := receiveSockets_spec entry.2.quantum entry.2.answers
      entry.2.budget (RoundRobin.order entry.2.sockets (entry.1 % entry.2.sockets))
    refine ⟨Nat.le_of_add_left_le (Nat.le_of_eq hsum), hwithin, fun hless index hindex => ?_⟩
    have hmem : entry.2 ∈ ticks := mem_of_mem_cursors hentry
    have hplace : index ∈ RoundRobin.order entry.2.sockets (entry.1 % entry.2.sockets) :=
      RoundRobin.mem_order ((hsockets entry.2 hmem).1 ▸ hindex) _
    rw [received, run, hall (by unfold run at hless; omega)]
    exact getD_find?_map hplace
  · have hcount : 0 < count := Nat.zero_lt_of_lt hindex
    have hahead := RoundRobin.ahead_lt hcount cursor index
    obtain ⟨entry, hentry, hmem, hfirst⟩ := first_within hindex
      (fun tick htick => (hsockets tick htick).1) (Nat.lt_of_lt_of_le hahead henough)
    obtain ⟨hsame, hbudget⟩ := hsockets entry.2 hmem
    subst hsame
    exact ⟨entry, hentry, quantum_pos hbudget hcount,
      received_first entry.2 hbudget hindex hfirst⟩

/-- Three sockets and two packets a tick: the share is one packet. -/
def crowdedTick : ReceiveTick where
  budget := 2
  answers := [[.datagram [1], .datagram [2]], [.interrupted, .datagram [3]], [.datagram [4]]]

theorem crowded_is_fair :
    ∃ entry ∈ cursors 1 [crowdedTick, crowdedTick, crowdedTick],
      0 < entry.2.quantum ∧ entry.2.received entry.1 0 =
        (waiting (entry.2.answers.getD 0 [])).take entry.2.quantum :=
  (receive_is_fair 1 3 [crowdedTick, crowdedTick, crowdedTick] (by decide)).2 (by decide) 0
    (by decide)

end ReceiveTick

end Qlinq
