import MessageBus.Proofs.Broadcasts.Attempts
import MessageBus.Proofs.Trades

/-!
# Lines are served from the front

Whoever acts on a channel without standing in one of its lines calls those who have stood there
longest, one after the other, and nobody else leaves the line or joins it (`Channel.CallsFrom`).
A message that comes in calls one receiver, as long as one stands there, and with nothing taken out
no other receiver is called (`Channel.Feeds`).

Both are shown of every errand that leaves a line alone (`Errand.exists_serves`): it comes from no
place in it, takes none there, gives none up, and does not close the channel (`Errand.LeavesLine`).
-/

namespace MessageBus

variable {ω α : Type}

/-! ### One channel -/

namespace Channel

variable {c d e : Channel ω} {side : Side} {woken woken' : List ω} {takes takes' : Prop}

/-- Whether those who left one line stood at its front and were called in this order, among others,
and nobody joined it. -/
def CallsFrom (c d : Channel ω) (side : Side) (woken : List ω) : Prop :=
  ∃ popped, (c.line side).waiters = popped ++ (d.line side).waiters ∧
    (popped.map (·.waker)).Sublist woken

/-- Whether messages only came in, and each called one receiver as long as one stood there. -/
def Feeds (c d : Channel ω) : Prop :=
  c.queue.size ≤ d.queue.size ∧
    d.receivers.size = c.receivers.size - (d.queue.size - c.queue.size)

/-- Another state of a channel that was served from the front of its lines; if nothing was taken out
it was fed. -/
structure Served (takes : Prop) (c d : Channel ω) (woken : List ω) : Prop where
  id : d.id = c.id
  calls : ∀ side, c.CallsFrom d side woken
  feeds : ¬takes → c.Feeds d

theorem callsFrom_of_same (same : d.line side = c.line side) : c.CallsFrom d side woken :=
  ⟨[], by rw [same]; rfl, List.nil_sublist _⟩

theorem Feeds.refl (c : Channel ω) : c.Feeds c := ⟨Nat.le_refl _, by rw [Nat.sub_self]; rfl⟩

theorem Becomes.feeds {n s : Nat}
    (becomes : c.Becomes d (c.queue.size + n) s (c.receivers.size - n)) : c.Feeds d := by
  refine ⟨?_, ?_⟩
  · rw [becomes.messages]
    exact Nat.le_add_right _ _
  · rw [becomes.messages, becomes.receivers, Nat.add_sub_cancel_left]

theorem Served.refl (c : Channel ω) (woken : List ω) : c.Served takes c woken :=
  ⟨rfl, fun _ => callsFrom_of_same rfl, fun _ => .refl c⟩

theorem Served.imp (served : c.Served takes d woken) (same : takes → takes') :
    c.Served takes' d woken :=
  ⟨served.id, served.calls, fun nothing => served.feeds fun taken => nothing (same taken)⟩

theorem PopsInOrder.served (inOrder : c.PopsInOrder d woken) (feeds : ¬takes → c.Feeds d) :
    c.Served takes d woken := ⟨inOrder.id, inOrder.line, feeds⟩

theorem feeds_trySend (c : Channel ω) (m : Message) : c.Feeds (c.trySend m).state := by
  cases space : c.hasSpace
  · rw [trySend_of_full space]
    exact .refl c
  · rw [(trySend_of_hasSpace space).2]
    exact (c.becomes_commit m).feeds

theorem feeds_sendStep (c : Channel ω) (m : Message) : c.Feeds (c.sendStep m).state := by
  cases space : c.hasSpace
  · rw [sendStep_of_full space]
    exact .refl c
  · rw [(sendStep_of_hasSpace space).2]
    exact (c.becomes_commit_cascade m).feeds

theorem feeds_trySendMany (c : Channel ω) (ms : List Message) :
    c.Feeds (c.trySendMany ms).state := by
  cases space : c.hasSpace
  · rw [trySendMany_of_full space]
    exact .refl c
  · exact (becomes_trySendMany space ms).feeds

theorem feeds_commit (c : Channel ω) (m : Message) (cascade : Bool) :
    c.Feeds (c.commit m cascade).1 := by
  cases cascade
  · exact (c.becomes_commit m).feeds
  · exact (c.becomes_commit_cascade m).feeds

end Channel

/-! ### One channel of a registry -/

namespace Registry

variable {r : Registry ω} {a b : Address} {c c' d : Channel ω} {side : Side} {k : ω}
  {woken : List ω} {takes : Prop}

theorem exists_served_refl (found : r.find? a = some c) (woken : List ω) :
    ∃ d, r.find? a = some d ∧ c.Served takes d woken := ⟨c, found, .refl c woken⟩

/-- One channel was served, and the others were left alone. -/
theorem exists_served_put (found : r.find? a = some c) (there : r.find? b = some c')
    (served : c'.Served takes d woken) :
    ∃ d', (r.put b.handle d).find? a = some d' ∧ c.Served (takes ∧ b = a) d' woken := by
  rw [find?_put there served.id]
  by_cases same : a = b
  · subst same
    cases found.symm.trans there
    rw [if_pos rfl]
    exact ⟨d, rfl, served.imp fun taken => ⟨taken, rfl⟩⟩
  · rw [if_neg same]
    exact exists_served_refl found woken

theorem exists_served_commitAll (found : r.find? a = some c) (m : Message) (cascade : Bool) :
    ∃ d, (r.commitAll m cascade).state.find? a = some d ∧
      c.Served takes d (r.commitAll m cascade).woken := by
  rw [find?_commitAll, found]
  have inOrder := c.popsInOrder_commit m cascade
  refine ⟨_, rfl, inOrder.id, fun side => ?_, fun _ => c.feeds_commit m cascade⟩
  obtain ⟨popped, left, called⟩ := inOrder.line side
  refine ⟨popped, left, called.trans ?_⟩
  rw [commitAll_eq, Channel.commit_eq]
  exact List.sublist_flatten_of_mem (List.mem_map_of_mem (mem_channels_of_find? found))

/-- Whoever takes a place goes to the end of the line. The other line is left alone, or served from
the front. -/
theorem exists_joined (found : r.find? a = some c) {o : Outcome (Registry ω) ω (Option Place)}
    (ran : r.park a side k = .ok o) : ∃ d, o.state = r.issue.put a.handle d ∧ d.id = c.id ∧
      d.queue = c.queue ∧
      (d.line side).waiters = (c.line side).waiters ++ [⟨⟨r.nextTicket⟩, k⟩] ∧
      (side = .senders → d.receivers = c.receivers) ∧
      (side = .receivers → c.CallsFrom d .senders o.woken) := by
  obtain ⟨-, -, state, woken⟩ := joins_of_park found ran
  rw [woken]
  refine ⟨c.join ⟨r.nextTicket⟩ k side, state, c.id_join _ k side, c.queue_join _ k side, ?_⟩
  cases side with
  | senders => exact ⟨rfl, fun _ => rfl, (fun other => by cases other)⟩
  | receivers =>
    let parked : Channel ω :=
      c.setLine .receivers ⟨c.receivers.waiters ++ [⟨⟨r.nextTicket⟩, k⟩]⟩
    refine ⟨?_, (fun other => by cases other),
      fun _ => parked.popsInOrder_receiverParked.line .senders⟩
    rw [Channel.join, Channel.receiverParked]
    split <;> rfl

/-- The ticket of whoever parks comes last in its line. -/
theorem exists_tickets_of_park (found : r.find? a = some c)
    {o : Outcome (Registry ω) ω (Option Place)} (ran : r.park a side k = .ok o) :
    ∃ d, o.state.find? a = some d ∧ d.tickets side = c.tickets side ++ [⟨r.nextTicket⟩] := by
  obtain ⟨d, state, id, -, line, -, -⟩ := exists_joined found ran
  have issued : r.issue.find? a = some c := found
  refine ⟨d, ?_, ?_⟩
  · rw [state, find?_put issued id, if_pos rfl]
  · rw [Channel.tickets, WaitLine.tickets, line, List.map_append]
    rfl

end Registry

/-! ### Operations and attempts -/

namespace Operation

/-- Whether an operation ends the channel under a handle. -/
def EndsAt (h : Handle) : Operation → Prop
  | .close h' => h' = h
  | .delete => True
  | _ => False

/-- Whether an operation takes messages from the channel under a handle. -/
def TakesFrom (h : Handle) : Operation → Prop
  | .tryRecv h' => h' = h
  | .tryRecvMany h' _ => h' = h
  | _ => False

instance (h : Handle) : (op : Operation) → Decidable (op.EndsAt h)
  | .close h' => inferInstanceAs (Decidable (h' = h))
  | .delete => .isTrue trivial
  | .openChannel _ | .isOpen _ | .channelCount | .size _ | .isEmpty _ | .capacity _ | .waiting _ _
  | .trySend _ _ | .trySendMany _ _ | .tryRecv _ | .tryRecvMany _ _ | .tryBroadcast _ => .isFalse id

instance (h : Handle) : (op : Operation) → Decidable (op.TakesFrom h)
  | .tryRecv h' => inferInstanceAs (Decidable (h' = h))
  | .tryRecvMany h' _ => inferInstanceAs (Decidable (h' = h))
  | .openChannel _ | .close _ | .delete | .isOpen _ | .channelCount | .size _ | .isEmpty _
  | .capacity _ | .waiting _ _ | .trySend _ _ | .trySendMany _ _ | .tryBroadcast _ => .isFalse id

variable {r : Registry ω} {a : Address} {c : Channel ω} {op : Operation}
  {o : Outcome (Registry ω) ω Reply}

/-- What an operation on one channel does to each channel that is open. -/
theorem exists_served_onChannel {h : Handle} (takes : Prop) {value : α → Value}
    {act : Channel ω → Except Fault (Outcome (Channel ω) ω (Except BusError α))}
    (found : r.find? a = some c) (ran : apply.answer value (r.onChannel h act) = .ok o)
    (served : ∀ c p, act c = .ok p → c.Served takes p.state p.woken) :
    ∃ d, o.state.find? a = some d ∧ c.Served (takes ∧ h = a.handle) d o.woken := by
  obtain ⟨p, acted, rfl⟩ := Outcome.of_map_eq_ok ran
  rcases Registry.of_onChannel_eq_ok acted with rfl | ⟨c', p, there, done, rfl⟩
  · exact Registry.exists_served_refl found _
  · obtain ⟨d, found', served⟩ := Registry.exists_served_put found
      (Registry.find?_of_channel? there) (served c' p done)
    exact ⟨d, found', served.imp fun taken => ⟨taken.1, congrArg Address.handle taken.2⟩⟩

/-- The same for one that takes nothing out. -/
theorem exists_fed_onChannel {h : Handle} {takes : Prop} {value : α → Value}
    {act : Channel ω → Except Fault (Outcome (Channel ω) ω (Except BusError α))}
    (found : r.find? a = some c) (ran : apply.answer value (r.onChannel h act) = .ok o)
    (fed : ∀ c p, act c = .ok p → c.PopsInOrder p.state p.woken ∧ c.Feeds p.state) :
    ∃ d, o.state.find? a = some d ∧ c.Served takes d o.woken := by
  obtain ⟨d, found', served⟩ := exists_served_onChannel False found ran
    fun c p done => (fed c p done).1.served fun _ => (fed c p done).2
  exact ⟨d, found', served.imp fun taken => taken.1.elim⟩

theorem exists_served (found : r.find? a = some c) (ran : op.apply r = .ok o)
    (stays : ¬op.EndsAt a.handle) :
    ∃ d, o.state.find? a = some d ∧ c.Served (op.TakesFrom a.handle) d o.woken := by
  cases op with
  | openChannel bound =>
    cases ran
    exact ⟨c, Registry.find?_openChannel_of_find? found, .refl c _⟩
  | close h =>
    cases ran
    refine ⟨c, ?_, .refl c _⟩
    obtain ⟨there, id⟩ := Registry.find?_eq_some_iff.1 found
    have other : a.handle ≠ h := fun same => stays same.symm
    refine Registry.find?_eq_some_iff.2 ⟨?_, id⟩
    rw [Outcome.state_map, Registry.channel?_close, if_neg other]
    exact there
  | delete => exact absurd trivial stays
  | trySend h m =>
    refine exists_fed_onChannel found ran fun c p done => ?_
    cases done
    exact ⟨c.popsInOrder_trySend m, c.feeds_trySend m⟩
  | trySendMany h ms =>
    refine exists_fed_onChannel found ran fun c p done => ?_
    cases done
    exact ⟨c.popsInOrder_trySendMany ms, c.feeds_trySendMany ms⟩
  | tryRecv h =>
    obtain ⟨d, found', served⟩ := exists_served_onChannel True found ran
      fun c p done => by
        cases done
        exact c.popsInOrder_tryRecv.served fun nothing => absurd trivial nothing
    exact ⟨d, found', served.imp And.right⟩
  | tryRecvMany h limit =>
    obtain ⟨d, found', served⟩ := exists_served_onChannel True found ran
      fun c p done => (Channel.popsInOrder_tryRecvMany done).served
        fun nothing => absurd trivial nothing
    exact ⟨d, found', served.imp And.right⟩
  | tryBroadcast m =>
    cases ran
    simp only [Outcome.state_map, Outcome.woken_map, Registry.tryBroadcast]
    split
    · exact Registry.exists_served_refl found _
    · split
      · exact Registry.exists_served_commitAll found m false
      · exact Registry.exists_served_refl found _
  | _ =>
    cases ran
    exact Registry.exists_served_refl found _

end Operation

namespace Request

variable {r : Registry ω} {a b : Address} {c : Channel ω} {q : Request}
  {o : Outcome (Registry ω) ω Attempt}

/-- Whether a request takes messages from a channel. -/
def TakesFrom (a : Address) (q : Request) : Prop := q.side = .receivers ∧ q.address? = some a

theorem exists_served_onAddress (takes : Prop) {attempt : Except BusError α → Attempt}
    {act : Channel ω → Except Fault (Outcome (Channel ω) ω (Except BusError α))}
    (found : r.find? a = some c) (ran : (r.onAddress b act).map (Outcome.map attempt) = .ok o)
    (served : ∀ c p, act c = .ok p → c.Served takes p.state p.woken) :
    ∃ d, o.state.find? a = some d ∧ c.Served (takes ∧ b = a) d o.woken := by
  obtain ⟨p, acted, rfl⟩ := Outcome.of_map_eq_ok ran
  rcases Registry.of_onAddress_eq_ok acted with rfl | ⟨c', p, there, done, rfl⟩
  · exact Registry.exists_served_refl found _
  · exact Registry.exists_served_put found there (served c' p done)

/-- What an attempt does to each channel that is open. -/
theorem exists_served (found : r.find? a = some c) (ran : q.attempt r = .ok o) :
    ∃ d, o.state.find? a = some d ∧ c.Served (q.TakesFrom a) d o.woken := by
  cases q with
  | send b m =>
    obtain ⟨d, found', served⟩ := exists_served_onAddress False found ran
      fun c p done => by
        cases done
        exact (c.popsInOrder_sendStep m).served fun _ => c.feeds_sendStep m
    exact ⟨d, found', served.imp fun taken => taken.1.elim⟩
  | sendMany b ms =>
    obtain ⟨d, found', served⟩ := exists_served_onAddress False found ran
      fun c p done => by
        cases done
        exact (c.popsInOrder_trySendMany ms).served fun _ => c.feeds_trySendMany ms
    exact ⟨d, found', served.imp fun taken => taken.1.elim⟩
  | recv b =>
    obtain ⟨d, found', served⟩ := exists_served_onAddress True found ran
      fun c p done => by
        cases done
        exact c.popsInOrder_tryRecv.served fun nothing => absurd trivial nothing
    exact ⟨d, found', served.imp fun taken => ⟨rfl, congrArg some taken.2⟩⟩
  | recvMany b limit =>
    obtain ⟨d, found', served⟩ := exists_served_onAddress True found ran
      fun c p done => (Channel.popsInOrder_recvManyStep done).served
        fun nothing => absurd trivial nothing
    exact ⟨d, found', served.imp fun taken => ⟨rfl, congrArg some taken.2⟩⟩
  | broadcast m =>
    cases ran
    simp only [Outcome.state_map, Outcome.woken_map, Registry.attemptBroadcast]
    split
    · exact Registry.exists_served_refl found _
    · split
      · exact Registry.exists_served_refl found _
      · exact Registry.exists_served_commitAll found m true

end Request

/-! ### Errands -/

namespace Errand

/-- Whether an errand leaves a line of a channel to those who stand there: it neither ends the
channel nor gives up a place in this line, and if it is one that could wait there it comes from a
place there. -/
def LeavesLine (a : Address) (side : Side) : Errand ω → Prop
  | operate op => ¬op.EndsAt a.handle
  | look q prior _ =>
    q.side = side → (∀ b ∈ q.address?, b = a) → ∃ p ∈ prior, p.isAt a side = true
  | park b side' _ => b = a → side' ≠ side
  | abandon p => p.isAt a side = false
  | _ => True

/-- Whether an errand takes messages from a channel. -/
def TakesFrom (a : Address) : Errand ω → Prop
  | operate op => op.TakesFrom a.handle
  | look q _ _ => q.TakesFrom a
  | _ => False

instance (a : Address) (side : Side) : (e : Errand ω) → Decidable (e.LeavesLine a side)
  | .operate op => inferInstanceAs (Decidable (¬op.EndsAt a.handle))
  | .look q prior _ => inferInstanceAs
    (Decidable (q.side = side → (∀ b ∈ q.address?, b = a) → ∃ p ∈ prior, p.isAt a side = true))
  | .park b side' _ => inferInstanceAs (Decidable (b = a → side' ≠ side))
  | .abandon p => inferInstanceAs (Decidable (p.isAt a side = false))
  | .revisit _ _ | .glance => .isTrue trivial

variable {r : Registry ω} {a b : Address} {c c' d : Channel ω} {e : Errand ω} {p : Place}
  {o : Outcome (Registry ω) ω Upshot} {side s : Side} {k : ω} {woken : List ω} {takes : Prop}

/-- What becomes of one line, of those who stand there and of the messages for them. -/
def Serves (c d : Channel ω) (side : Side) (takes : Prop) (woken : List ω) : Prop :=
  c.CallsFrom d side woken ∧ (side = .receivers → ¬takes → c.Feeds d)

theorem exists_serves_refl (found : r.find? a = some c) :
    ∃ d, r.find? a = some d ∧ Serves c d side takes woken :=
  ⟨c, found, Channel.callsFrom_of_same rfl, fun _ _ => .refl c⟩

/-- One channel changes in its lines only. -/
theorem exists_serves_put (found : r.find? a = some c) (there : r.find? b = some c')
    (id : d.id = c'.id) (queue : d.queue = c'.queue) (calls : b = a → c'.CallsFrom d side woken)
    (receivers : b = a → side = .receivers → d.receivers.size = c'.receivers.size) :
    ∃ d', (r.put b.handle d).find? a = some d' ∧ Serves c d' side takes woken := by
  rw [Registry.find?_put there id]
  by_cases same : a = b
  · subst same
    cases found.symm.trans there
    rw [if_pos rfl]
    refine ⟨d, rfl, calls rfl, fun own _ => ?_⟩
    rw [Channel.Feeds, queue, Nat.sub_self]
    exact ⟨Nat.le_refl _, receivers rfl own⟩
  · rw [if_neg same]
    exact exists_serves_refl found

theorem exists_serves_setLine {l : WaitLine ω} (found : r.find? a = some c)
    (there : r.find? p.address = some c') (out : p.isAt a side = false) :
    ∃ d, (r.put p.address.handle (c'.setLine p.side l)).find? a = some d ∧
      Serves c d side takes woken := by
  have line (here : p.address = a) : (c'.setLine p.side l).line side = c'.line side := by
    have other : p.side ≠ side := fun same => by
      rw [Place.isAt_iff.2 ⟨here, same⟩] at out
      cases out
    revert other
    cases p.side <;> cases side <;> first | exact fun _ => rfl | exact fun other => absurd rfl other
  refine exists_serves_put found there (c'.id_setLine _ _) (c'.queue_setLine _ _)
    (fun here => Channel.callsFrom_of_same (line here)) fun here own => ?_
  subst own
  exact congrArg WaitLine.size (line here)

theorem exists_serves_park {o : Outcome (Registry ω) ω (Option Place)} (found : r.find? a = some c)
    (there : r.find? b = some c') (ran : r.park b s k = .ok o) (other : b = a → s ≠ side) :
    ∃ d, o.state.find? a = some d ∧ Serves c d side takes o.woken := by
  obtain ⟨d, state, id, queue, -, receivers, senders⟩ := Registry.exists_joined there ran
  rw [state]
  refine exists_serves_put (r := r.issue) found there id queue (fun here => ?_) fun here own => ?_
  · have other := other here
    cases side with
    | senders =>
      cases s with
      | senders => exact absurd rfl other
      | receivers => exact senders rfl
    | receivers =>
      cases s with
      | senders => exact Channel.callsFrom_of_same (receivers rfl)
      | receivers => exact absurd rfl other
  · subst own
    cases s with
    | senders => rw [receivers rfl]
    | receivers => exact absurd rfl (other here)

theorem exists_serves_revisit (found : r.find? a = some c) (out : p.isAt a side = false) :
    ∃ d, (r.revisit p k).state.find? a = some d ∧ Serves c d side takes woken := by
  rcases r.standing_cases p with queued | called | gone
  · obtain ⟨c', l, there, -, -, state⟩ := Registry.revisit_of_queued queued k
    rw [state]
    exact exists_serves_setLine found there out
  · rw [(Registry.revisit_of_called called k).2]
    exact exists_serves_refl found
  · rw [(Registry.revisit_of_gone gone k).2]
    exact exists_serves_refl found

/-- An errand that leaves a line alone serves it from the front, and feeds the receivers with what
comes in if it takes nothing out. -/
theorem exists_serves (ran : e.effect r = .ok o) (found : r.find? a = some c)
    (leaves : e.LeavesLine a side) (elsewhere : ∀ p ∈ e.prior?, p.isAt a side = false) :
    ∃ d, o.state.find? a = some d ∧ Serves c d side (e.TakesFrom a) o.woken := by
  cases e with
  | operate op =>
    obtain ⟨p, did, rfl⟩ := Outcome.of_map_eq_ok ran
    obtain ⟨d, found', served⟩ := Operation.exists_served found did leaves
    exact ⟨d, found', served.calls side, fun _ => served.feeds⟩
  | look q prior k =>
    obtain ⟨⟨turn, r', woken, notes, afterwards⟩, did, rfl⟩ := Outcome.of_map_eq_ok ran
    have ends := Request.ends_of_look did
    cases ends with
    | tried _ tries _ =>
      obtain ⟨d, found', served⟩ := Request.exists_served found tries
      exact ⟨d, found', served.calls side, fun _ => served.feeds⟩
    | parked _ blocked there parks =>
      refine exists_serves_park found there parks fun here own => ?_
      obtain ⟨p, prior, at'⟩ := leaves own fun b' own' => (blocked.address_eq own').symm.trans here
      cases (elsewhere p prior).symm.trans at'
    | waiting _ => exact exists_serves_revisit found (elsewhere _ rfl)
    | gone _ => exact exists_serves_refl found
  | park b s k =>
    obtain ⟨p, did, rfl⟩ := Outcome.of_map_eq_ok ran
    cases there : r.find? b with
    | none =>
      cases did.symm.trans (Registry.park_of_gone there s k)
      exact exists_serves_refl found
    | some c' => exact exists_serves_park found there did leaves
  | revisit p k =>
    cases ran
    exact exists_serves_revisit found (elsewhere p rfl)
  | abandon p =>
    cases ran
    rcases r.standing_cases p with queued | called | gone
    · obtain ⟨c', l, there, -, -, state⟩ := Registry.abandon_of_queued queued
      rw [Outcome.state_map, state]
      exact exists_serves_setLine found there leaves
    · obtain ⟨c', there, state⟩ := Registry.abandon_of_called called
      rw [Outcome.state_map, state]
      exact exists_serves_setLine found there leaves
    · rw [Outcome.state_map, Registry.abandon_of_gone gone]
      exact exists_serves_refl found
  | glance =>
    cases ran
    exact exists_serves_refl found

end Errand

end MessageBus
