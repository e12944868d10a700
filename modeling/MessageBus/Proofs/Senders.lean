import MessageBus.Proofs.ParkOrder
import MessageBus.Proofs.Queues.Runs
import MessageBus.Proofs.Replies

/-!
# Senders are served in the order in which they parked last

Calls that wait to send are woken in the order in which they parked. But whoever has sent wakes the
next sender, whether or not a slot is left for it. A sender that was woken in vain parks again,
behind those who still wait, and these are served before it from then on (`senders_overtake`).

This is the only way in which a call falls behind (`senders_served_in_order_of_places`): a later
call can send before an earlier one only if the earlier one has been woken before, has found the
channel full, and has parked again in a place behind the one from which the later call goes on. At
each moment the queue is in the order of its places (`Executor.SendersLine`).
-/

namespace MessageBus

variable {ω : Type}

/-- Whether an operation puts messages into the channel under a handle. -/
def Operation.SendsTo (h : Handle) : Operation → Prop
  | trySend h' _ => h' = h
  | trySendMany h' _ => h' = h
  | tryBroadcast _ => True
  | _ => False

instance (h : Handle) : (op : Operation) → Decidable (op.SendsTo h)
  | .trySend h' _ => inferInstanceAs (Decidable (h' = h))
  | .trySendMany h' _ => inferInstanceAs (Decidable (h' = h))
  | .tryBroadcast _ => .isTrue trivial
  | .openChannel _ | .close _ | .delete | .isOpen _ | .channelCount | .size _ | .isEmpty _
  | .capacity _ | .waiting _ _ | .tryRecv _ | .tryRecvMany _ _ => .isFalse id

/-- Whether an errand is no operation that sends to a channel. -/
def Errand.LeavesSlots (a : Address) : Errand ω → Prop
  | operate op => ¬op.SendsTo a.handle
  | _ => True

instance (a : Address) : (e : Errand ω) → Decidable (e.LeavesSlots a)
  | .operate op => inferInstanceAs (Decidable (¬op.SendsTo a.handle))
  | .look _ _ _ | .park _ _ _ | .revisit _ _ | .abandon _ | .glance => .isTrue trivial

/-- The task that a frame makes go on. -/
def Frame.proceeds? : Frame → Option Nat
  | .proceed w => some w.task
  | _ => none

namespace Executor

theorem proceeds_iff {x : Executor} {t : Nat} :
    x.Proceeds t ↔ x.stack.head?.bind (·.proceeds?) = some t := by
  constructor
  · rintro ⟨w, rest, stack, rfl⟩
    rw [stack]
    rfl
  · intro top
    obtain ⟨f, head, proceeds⟩ := Option.bind_eq_some_iff.1 top
    obtain ⟨rest, stack⟩ := List.head?_eq_some_iff.1 head
    cases f with
    | proceed w => exact ⟨w, rest, stack, Option.some.inj proceeds⟩
    | _ => cases proceeds

instance (x : Executor) (t : Nat) : Decidable (x.Proceeds t) := decidable_of_iff _ proceeds_iff.symm

/-- Whether the call of a seat has this place now. -/
def HasPlace (x : Executor) (b : Nat) (s : Seat) (p : Place) : Prop :=
  ∃ task ∈ x.tasks[s.task]?, task.position = s.index ∧ task.callPlace = some (b, p)

end Executor

namespace Moment

/-- Whether nobody sends to a channel but those who wait there, and these are left alone. -/
structure OnlyReceives (b : Nat) (a : Address) (m : Moment) : Prop
    extends m.LeavesLine b a .senders where
  slots : ∀ e, m.errand? = some (b, e) → e.LeavesSlots a

instance (b : Nat) (a : Address) (m : Moment) : Decidable (m.OnlyReceives b a) :=
  decidable_of_iff (m.LeavesLine b a .senders ∧ ∀ e, m.errand? = some (b, e) → e.LeavesSlots a)
    ⟨fun h => ⟨h.1, h.2⟩, fun h => ⟨h.toLeavesLine, h.slots⟩⟩

/-- Whether a task goes on with its instruction of this index. -/
structure GoesOn (t i : Nat) (m : Moment) : Prop where
  step : m.asked = none
  proceeds : m.now.Proceeds t
  here : m.now.isAt t i = true

/-- Whether a call goes on and puts in what it sends. -/
structure Sends (b : Nat) (s : Seat) (m : Moment) : Prop extends m.GoesOn s.task s.index where
  moved : m.moved b = s.request.transfers (m.now.registry b) .nothing

instance (b : Nat) (s : Seat) (m : Moment) : Decidable (m.Sends b s) :=
  decidable_of_iff ((m.asked = none ∧ m.now.Proceeds s.task ∧ m.now.isAt s.task s.index = true) ∧
      m.moved b = s.request.transfers (m.now.registry b) .nothing)
    ⟨fun h => ⟨⟨h.1.1, h.1.2.1, h.1.2.2⟩, h.2⟩, fun h => ⟨⟨h.step, h.proceeds, h.here⟩, h.moved⟩⟩

/-- Whether a call goes on, finds the channel full, and parks again. -/
structure ParksAgain (b : Nat) (a : Address) (s : Seat) (p : Place) (m : Moment) : Prop
    extends m.GoesOn s.task s.index where
  full : ∃ c ∈ (m.now.registry b).find? a, c.hasSpace = false
  parks : m.now.step.HasPlace b s p

end Moment

namespace Executor

variable {u : Usage} {x y : Executor} {b : Nat} {a : Address} {s : Seat} {task : Task} {w : Waker}
  {rest : List Frame} {seats line line' called queued : List Seat} {p : Place} {c : Channel Waker}
  {trail : List Moment} {m : Moment} {told : List Reply}

/-- Whether a place is the first one of a call, or one behind it where the call parked again. -/
def KeptOrParkedAgain (b : Nat) (a : Address) (s : Seat) (p : Place) (trail : List Moment) : Prop :=
  p = s.place ∨ s.place.ticket.number < p.ticket.number ∧ ∃ m ∈ trail, m.ParksAgain b a s p

theorem KeptOrParkedAgain.append (place : KeptOrParkedAgain b a s p trail) (trail' : List Moment) :
    KeptOrParkedAgain b a s p (trail ++ trail') := by
  refine place.imp_right fun again => ?_
  obtain ⟨m, earlier, parks⟩ := again.2
  exact ⟨again.1, m, List.mem_append_left _ earlier, parks⟩

/-- What has become of a call that waited to send: it has sent, or it still waits. -/
inductive SentOrWaits (x : Executor) (b : Nat) (a : Address) (line : List Seat)
    (trail : List Moment) (s : Seat) : Prop where
  | sent {m : Moment} {told : List Reply} (member : m ∈ trail) (sends : m.Sends b s)
      (replied : x.Replied s.task s.index (.granted .nothing) told) : SentOrWaits x b a line trail s
  | waits {p : Place} (member : { s with place := p } ∈ line)
      (place : KeptOrParkedAgain b a s p trail) : SentOrWaits x b a line trail s

/-- Those who wait to send, in the order of their places, and what has become of the others. -/
structure SendersLine (x : Executor) (b : Nat) (a : Address) (seats line : List Seat)
    (trail : List Moment) : Prop where
  queues : ∃ called queued, line = called ++ queued ∧ x.Queues b a .senders called queued
  plain : ∀ s ∈ line, ∃ m, s.request = .send a m
  ascends : line.Pairwise (·.place.ticket.number < ·.place.ticket.number)
  each : ∀ s ∈ seats, x.SentOrWaits b a line trail s

theorem Occupies.hasPlace (occupies : x.Occupies b s task) : x.HasPlace b s s.place :=
  ⟨task, occupies.found, occupies.position, occupies.callPlace⟩

theorem Occupies.goesOn (occupies : x.Occupies b s task) (stack : x.stack = .proceed w :: rest)
    (own : w.task = s.task) : Moment.GoesOn s.task s.index ⟨x, none⟩ :=
  ⟨rfl, ⟨w, rest, stack, own⟩, (isAt_iff occupies.found).2 occupies.position⟩

/-- A send that comes to an end where its channel is open has put in its message. -/
theorem result_of_send {r : Registry Waker} {o : Outcome (Registry Waker) Waker Attempt}
    {msg : Message} {result : Except BusError Value} (found : r.find? a = some c)
    (ran : (Request.send a msg).attempt r = .ok o) (answer : o.answer = .finished result) :
    result = .ok .nothing := by
  rw [Request.attempt, Registry.onAddress_of_find? found rfl] at ran
  cases ran
  cases sent : (c.sendStep msg).answer <;>
    simp only [Outcome.map, Outcome.within, sent] at answer <;> cases answer
  rfl

namespace SendersLine

/-- As long as none of them goes on, the line stays as it is. -/
theorem goOn (senders : x.SendersLine b a seats line trail)
    (queues : ∃ called queued, line = called ++ queued ∧ y.Queues b a .senders called queued)
    (replied : ∀ t i reply told, x.Replied t i reply told → ∃ told, y.Replied t i reply told) :
    y.SendersLine b a seats line (trail ++ [m]) := by
  refine ⟨queues, senders.plain, senders.ascends, fun s member => ?_⟩
  cases senders.each s member with
  | sent earlier sends replied' =>
    obtain ⟨told, replied'⟩ := replied _ _ _ _ replied'
    exact .sent (List.mem_append_left _ earlier) sends replied'
  | waits member place => exact .waits member (place.append _)

/-- Once the first has sent, the others are left. -/
theorem sends (senders : x.SendersLine b a seats (s :: line) trail) (sound : x.Sound u)
    (underway : x.Underway) (sends : Moment.Sends b s ⟨x, none⟩)
    (replied : x.step.Replied s.task s.index (.granted .nothing) told)
    (queues : ∃ called queued, line = called ++ queued ∧
      x.step.Queues b a .senders called queued) :
    x.step.SendersLine b a seats line (trail ++ [⟨x, none⟩]) := by
  refine ⟨queues, fun s' member => senders.plain s' (List.mem_cons_of_mem _ member),
    (List.pairwise_cons.1 senders.ascends).2, fun s' member => ?_⟩
  cases senders.each s' member with
  | sent earlier sends' replied' =>
    exact .sent (List.mem_append_left _ earlier) sends' (replied'.step sound underway)
  | waits member place =>
    rcases List.mem_cons.1 member with here | later
    · subst here
      have sends' : Moment.Sends b s' ⟨x, none⟩ := ⟨sends.toGoesOn, sends.moved⟩
      exact .sent (List.mem_append_right _ List.mem_cons_self) sends' replied
    · exact .waits later (place.append _)

/-- Once the first has parked again, it is behind the others. -/
theorem parksAgain (senders : x.SendersLine b a seats (s :: line) trail) (sound : x.Sound u)
    (underway : x.Underway) (parks : Moment.ParksAgain b a s p ⟨x, none⟩)
    (behind : ∀ s' ∈ s :: line, s'.place.ticket.number < p.ticket.number)
    (queues : ∃ called queued, line ++ [{ s with place := p }] = called ++ queued ∧
      x.step.Queues b a .senders called queued) :
    x.step.SendersLine b a seats (line ++ [{ s with place := p }]) (trail ++ [⟨x, none⟩]) := by
  refine ⟨queues, fun s' member => ?_, ?_, fun s' member => ?_⟩
  · rcases List.mem_append.1 member with old | last
    · exact senders.plain s' (List.mem_cons_of_mem _ old)
    · rw [List.mem_singleton.1 last]
      exact senders.plain s List.mem_cons_self
  · refine List.pairwise_append.2 ⟨(List.pairwise_cons.1 senders.ascends).2,
      List.pairwise_singleton _ _, fun s' member s'' last => ?_⟩
    rw [List.mem_singleton.1 last]
    exact behind s' (List.mem_cons_of_mem _ member)
  · cases senders.each s' member with
    | sent earlier sends replied =>
      exact .sent (List.mem_append_left _ earlier) sends (replied.step sound underway)
    | waits member place =>
      rcases List.mem_cons.1 member with here | later
      · subst here
        have parks' : Moment.ParksAgain b a s' p ⟨x, none⟩ :=
          ⟨parks.toGoesOn, parks.full, parks.parks⟩
        refine .waits (List.mem_append_right _ List.mem_cons_self)
          (.inr ⟨?_, _, List.mem_append_right _ List.mem_cons_self, parks'⟩)
        have below := behind _ List.mem_cons_self
        rcases place with same | further
        · exact same ▸ below
        · exact Nat.lt_trans further.1 below
      · exact .waits (List.mem_append_left _ later) (place.append _)

/-- When the first of those who were called goes on, it sends, or parks again behind the others. -/
theorem moveOn (senders : x.SendersLine b a seats (s :: (called ++ queued)) trail)
    (sound : x.Sound u) (underway : x.Underway) (own : w.task = s.task)
    (stack : x.stack = .proceed w :: rest) (occupies : x.Occupies b s task)
    (found : (x.registry b).find? a = some c)
    (holds : ∀ s' ∈ s :: (called ++ queued), s'.place ∈ x.held b)
    (moves : x.MovesOn b a .senders w s task rest called queued) :
    ∃ line, x.step.SendersLine b a seats line (trail ++ [⟨x, none⟩]) := by
  obtain ⟨msg, plain⟩ := senders.plain s List.mem_cons_self
  cases moves with
  | @replies o result _ woken queued' ran answer split queues registry moved stack' found' =>
    rw [plain] at ran
    obtain rfl := result_of_send found ran answer
    rw [own] at found'
    have replied : x.step.Replied s.task s.index (.granted .nothing) [] := by
      refine .pending found' occupies.position own ?_
      rw [stack']
      exact List.mem_append_right [_, _, _] List.mem_cons_self
    refine ⟨_, senders.sends sound underway ⟨occupies.goesOn stack own, moved⟩ replied
      ⟨_, _, ?_, queues⟩⟩
    rw [split, List.append_assoc]
  | @parks p blocked new queues =>
    have full : c.hasSpace = false := by
      rw [plain] at blocked
      cases blocked with
      | send found' space =>
        cases found.symm.trans found'
        exact space
    have last : { s with place := p } ∈ called ++ (queued ++ [{ s with place := p }]) :=
      List.mem_append_right _ (List.mem_append_right _ List.mem_cons_self)
    obtain ⟨task', occupies'⟩ := queues.seated _ last
    refine ⟨_, senders.parksAgain sound underway
      ⟨occupies.goesOn stack own, ⟨c, found, full⟩, occupies'.hasPlace⟩ (fun s' member => ?_)
      ⟨_, _, List.append_assoc _ _ _, queues⟩⟩
    rw [new]
    exact sound.ticket_lt (holds s' member)

theorem step (senders : x.SendersLine b a seats line trail) (reachable : x.Reachable u)
    (deferred : x.inline = false) (leaves : Moment.LeavesLine b a .senders ⟨x, none⟩) :
    (∃ line, x.step.SendersLine b a seats line (trail ++ [⟨x, none⟩])) ∨
      x.step.GivesUpAt b a .senders := by
  have sound := reachable.sound
  obtain ⟨called, queued, rfl, queues⟩ := senders.queues
  obtain ⟨c, found, -⟩ := queues.line
  by_cases others : ∀ s ∈ called ++ queued, ¬x.Proceeds s.task
  · refine (queues.step reachable deferred leaves others found).imp_left ?_
    rintro ⟨woken, queued', d, split, queues, -, -⟩
    refine ⟨called ++ queued, senders.goOn ⟨called ++ woken, queued', ?_, queues⟩ ?_⟩
    · rw [split, List.append_assoc]
    · exact fun t i reply told replied => ⟨_, replied.step sound reachable.underway⟩
  · simp only [not_forall, not_not] at others
    obtain ⟨s, member, w, rest, stack, own⟩ := others
    obtain ⟨task, occupies⟩ := queues.seated s member
    obtain ⟨msg, plain⟩ := senders.plain s member
    obtain ⟨called, rfl, moves⟩ := queues.movesOn sound reachable.underway
      (reachable.orderly deferred) reachable.wakers stack (own ▸ occupies.found) member own
      (by rw [plain]; rfl) (by rw [plain]; rfl)
    exact .inl (senders.moveOn sound reachable.underway own stack occupies found
      (fun s' => queues.holds) moves)

theorem ask {q : Step} (senders : x.SendersLine b a seats line trail) (reachable : x.Reachable u)
    (leaves : Moment.LeavesLine b a .senders ⟨x, some q⟩) (idle : x.stack = [])
    (lawful : q.Lawful u x.buses.length) :
    (∃ line, SendersLine ({ x with log := [], answer := none }.ask q) b a seats line
      (trail ++ [⟨x, some q⟩])) ∨
      GivesUpAt ({ x with log := [], answer := none }.ask q) b a .senders := by
  obtain ⟨called, queued, rfl, queues⟩ := senders.queues
  obtain ⟨c, found, -⟩ := queues.line
  refine (queues.ask reachable idle lawful leaves found).imp_left ?_
  rintro ⟨woken, queued', d, split, queues, -, -⟩
  refine ⟨called ++ queued, senders.goOn ⟨called ++ woken, queued', ?_, queues⟩ ?_⟩
  · rw [split, List.append_assoc]
  · exact fun t i reply told replied => ⟨told, replied.ask reachable.sound idle lawful⟩

end SendersLine

/-- At first they wait in the order in which they parked. -/
theorem WaitInOrder.ascends (wait : x.WaitInOrder b a .senders seats) (reachable : x.Reachable u) :
    seats.Pairwise (·.place.ticket.number < ·.place.ticket.number) := by
  obtain ⟨c, found, tickets⟩ := wait.line
  have order := reachable.inParkOrder b a c .senders found
  rwa [tickets, List.pairwise_map] at order

theorem WaitInOrder.sendersLine (wait : x.WaitInOrder b a .senders seats)
    (reachable : x.Reachable u) (plain : ∀ s ∈ seats, ∃ m, s.request = .send a m) :
    x.SendersLine b a seats seats [] :=
  ⟨⟨[], seats, rfl, wait.queues reachable.sound⟩, plain, wait.ascends reachable,
    fun _ member => .waits member (.inl rfl)⟩

/-- Those who wait to send, at a moment of a run. -/
def SendersIn (b : Nat) (a : Address) (seats : List Seat) (x : Executor) (trail : List Moment) :
    Prop :=
  ∃ line, x.SendersLine b a seats line trail

theorem WaitInOrder.sendersIn (wait : x.WaitInOrder b a .senders seats) (reachable : x.Reachable u)
    (deferred : x.inline = false) (plain : ∀ s ∈ seats, ∃ m, s.request = .send a m)
    (run : Continuation u (Moment.LeavesLine b a .senders) x y trail) :
    SendersIn b a seats y trail ∨ y.GivesUpAt b a .senders := by
  refine run.invariant reachable deferred (fun _ leaves => leaves)
    ⟨seats, wait.sendersLine reachable plain⟩ ?_ ?_
  · rintro y trail reachable deferred leaves ⟨line, senders⟩
    exact senders.step reachable deferred leaves
  · rintro y trail q reachable - leaves idle lawful ⟨line, senders⟩
    exact senders.ask reachable leaves idle lawful

/-- Senders are served in the order of their places. Where calls wait at a channel in some order,
and nobody else waits to send there, a later call can put in its message before an earlier one only
if the earlier one has been called before, has found the channel full, and has parked again, in a
place behind the one from which the later one goes on. -/
theorem senders_served_in_order_of_places (reachable : x.Reachable u) (deferred : x.inline = false)
    (wait : x.WaitInOrder b a .senders seats) (plain : ∀ s ∈ seats, ∃ m, s.request = .send a m)
    (run : Continuation u (Moment.LeavesLine b a .senders) x y trail) {before after : List Moment}
    {m : Moment} (split : trail = before ++ m :: after) {i j : Nat} {s s' : Seat}
    (first : seats[i]? = some s) (second : seats[j]? = some s') (earlier : i < j)
    (sends : m.Sends b s') :
    (∃ m' ∈ before, m'.Sends b s) ∨
      ∃ p p', m.now.HasPlace b s p ∧ m.now.HasPlace b s' p' ∧ p'.ticket.number < p.ticket.number ∧
        ∃ m' ∈ before, m'.ParksAgain b a s p := by
  obtain ⟨run, leaves⟩ := run.upTo split
  have reachable' := run.reachable reachable
  have sound := reachable'.sound
  obtain ⟨w, rest, stack, own⟩ := sends.proceeds
  obtain ⟨line, senders⟩ : SendersIn b a seats m.now before := by
    refine (wait.sendersIn reachable deferred plain run).resolve_right fun gives => ?_
    obtain ⟨p, here, errand⟩ := gives
    have leaves := leaves.errand (.abandon p) (by rw [Moment.errand?, sends.step]; exact errand)
    cases here.symm.trans leaves
  have member := List.mem_of_getElem? first
  have member' := List.mem_of_getElem? second
  -- The later call waits, and it is the first in the line.
  cases senders.each s' member' with
  | sent _ _ replied =>
    cases (replied.not_proceeds sound stack own).symm.trans sends.here
  | @waits p' inside' place' =>
  -- The earlier one has sent, or it is behind.
  cases senders.each s member with
  | sent before' sends' _ => exact .inl ⟨_, before', sends'⟩
  | @waits p inside place =>
  refine .inr ⟨p, p', ?_⟩
  obtain ⟨called, queued, rfl, queues⟩ := senders.queues
  obtain ⟨task, occupies⟩ := queues.seated _ inside
  obtain ⟨task', occupies'⟩ := queues.seated _ inside'
  have upcoming : m.now.upcoming = w.task :: (rest.flatMap (·.begins) ++ m.now.ready ++
      rest.flatMap (·.readies)) := by
    rw [Executor.upcoming, stack]
    rfl
  obtain ⟨called, rfl, -, -⟩ := queues.front upcoming inside' own.symm
  have apart := (wait.queues reachable.sound).apart
  rw [List.nil_append, List.nodup_iff_pairwise_ne, List.pairwise_map] at apart
  have other := rel_of_pairwise apart first second earlier
  have behind : p'.ticket.number < p.ticket.number := by
    rcases List.mem_cons.1 inside with same | later
    · exact absurd (congrArg Seat.task same) other
    · exact (List.pairwise_cons.1 senders.ascends).1 _ later
  refine ⟨occupies.hasPlace, occupies'.hasPlace, behind, ?_⟩
  rcases place with rfl | again
  · -- It cannot be behind in its first place.
    have order := rel_of_pairwise (wait.ascends reachable) first second earlier
    rcases place' with rfl | further
    · exact absurd order (Nat.lt_asymm behind)
    · exact absurd (Nat.lt_trans order further.1) (Nat.lt_asymm behind)
  · exact again.2

/-- Three tasks begin to send to a channel that is full. -/
def threeSenders : List Step :=
  [.act 0 (.operate (.openChannel 1)), .act 0 (.operate (.trySend 0 9)),
    .spawn [⟨0, .call (.send 0 1)⟩] false, .spawn [⟨0, .call (.send 0 2)⟩] false,
    .spawn [⟨0, .call (.send 0 3)⟩] false, .run none]

/-- Three tasks wait to send to a channel that is full. -/
def threeSending : Executor := ((new false).runScript threeSenders).1

/-- A call that sends a message, from the place that a task took first. -/
def senderSeat (t : Nat) (msg : Message) : Seat :=
  ⟨t, 0, .send ⟨0, ⟨0⟩⟩ msg, ⟨⟨0, ⟨0⟩⟩, .senders, ⟨t⟩⟩⟩

/-- The calls of the three tasks. -/
def senderSeats : List Seat := [senderSeat 0 1, senderSeat 1 2, senderSeat 2 3]

/-- One message is taken after the other, and each time the tasks go on. -/
def threeReceives : List Step :=
  [.act 0 (.operate (.tryRecv 0)), .run none, .act 0 (.operate (.tryRecv 0)), .run none,
    .act 0 (.operate (.tryRecv 0)), .run none]

/-- What comes by when the messages are taken. -/
def overtaking : List Moment := trailOfScript threeSending threeReceives

theorem threeSending_reachable : threeSending.Reachable .full := by
  have obeys : (new false).Obeys .full threeSenders := by decide +kernel
  exact (reachable_new .full false).runScript obeys

/-- The third call sends before the second one. -/
theorem third_sends_first : ∃ before m after, overtaking = before ++ m :: after ∧
    m.Sends 0 (senderSeat 2 3) ∧ ∀ m' ∈ before, ¬m'.Sends 0 (senderSeat 1 2) := by
  have there : ∃ m ∈ overtaking[36]?, m.Sends 0 (senderSeat 2 3) := by decide +kernel
  obtain ⟨m, there, sends⟩ := there
  obtain ⟨inside, rfl⟩ := List.getElem?_eq_some_iff.1 there
  refine ⟨overtaking.take 36, _, overtaking.drop 37, ?_, sends, by decide +kernel⟩
  rw [List.getElem_cons_drop, List.take_append_drop]

/-- When the third call sends, the second one has parked again behind it. -/
theorem second_sender_behind_third : ∃ before m after, overtaking = before ++ m :: after ∧
    m.Sends 0 (senderSeat 2 3) ∧ ∃ p p', m.now.HasPlace 0 (senderSeat 1 2) p ∧
      m.now.HasPlace 0 (senderSeat 2 3) p' ∧ p'.ticket.number < p.ticket.number ∧
      ∃ m' ∈ before, m'.ParksAgain 0 ⟨0, ⟨0⟩⟩ (senderSeat 1 2) p := by
  have wait : threeSending.WaitInOrder 0 ⟨0, ⟨0⟩⟩ .senders senderSeats := by decide +kernel
  have plain : ∀ s ∈ senderSeats, ∃ msg, s.request = .send ⟨0, ⟨0⟩⟩ msg := by
    simp [senderSeats, senderSeat]
  have obeys : threeSending.Obeys .full threeReceives := by decide +kernel
  have leaves : ∀ m ∈ overtaking, m.LeavesLine 0 ⟨0, ⟨0⟩⟩ .senders := by decide +kernel
  have run := Continuation.refl.runScript obeys leaves
  obtain ⟨before, m, after, split, sends, first⟩ := third_sends_first
  have ends := senders_served_in_order_of_places threeSending_reachable (by decide +kernel) wait
    plain run split (i := 1) (j := 2) rfl rfl (by decide) sends
  refine ⟨before, m, after, split, sends, ends.resolve_left ?_⟩
  rintro ⟨m', member, sends'⟩
  exact first m' member sends'

/-- Whether of two calls that wait the earlier one always sends before the later one. -/
def SendInOrder (b : Nat) (seats : List Seat) (trail : List Moment) : Prop :=
  ∀ (before : List Moment) (m : Moment) (after : List Moment) (i j : Nat) (s s' : Seat),
    trail = before ++ m :: after → seats[i]? = some s → seats[j]? = some s' → i < j →
      m.Sends b s' → ∃ m' ∈ before, m'.Sends b s

/-- The third of three senders overtakes the second, though messages are only taken from the
channel: the first one sends and wakes the second in vain. -/
theorem senders_overtake : threeSending.Reachable .full ∧ threeSending.inline = false ∧
    threeSending.WaitInOrder 0 ⟨0, ⟨0⟩⟩ .senders senderSeats ∧
    (∃ c ∈ (threeSending.registry 0).find? ⟨0, ⟨0⟩⟩, c.capacity = 1 ∧ c.hasSpace = false) ∧
    ∃ y, Continuation .full (Moment.OnlyReceives 0 ⟨0, ⟨0⟩⟩) threeSending y overtaking ∧
      sentIn 0 ⟨0⟩ overtaking = [1, 3, 2] ∧ ¬SendInOrder 0 senderSeats overtaking := by
  have obeys : threeSending.Obeys .full threeReceives := by decide +kernel
  have receives : ∀ m ∈ overtaking, m.OnlyReceives 0 ⟨0, ⟨0⟩⟩ := by decide +kernel
  have run := Continuation.refl.runScript obeys receives
  refine ⟨threeSending_reachable, by decide +kernel, by decide +kernel, by decide +kernel, _, run,
    by decide +kernel, fun inOrder => ?_⟩
  obtain ⟨before, m, after, split, sends, first⟩ := third_sends_first
  obtain ⟨m', member, sends'⟩ :=
    inOrder before m after 1 2 (senderSeat 1 2) _ split rfl rfl (by decide) sends
  exact first m' member sends'

end Executor

end MessageBus
