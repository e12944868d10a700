import MessageBus.Proofs.Origins

/-!
# Stuck broadcasts

A broadcast that waits is called when its channel comes to accept broadcasts. It is *asleep* if its
channel accepts them and yet no sender is outstanding there, and it is stuck if moreover all the
other channels accept them too and nobody is outstanding at any of them.

A broadcast falls asleep in one way only: the last sender that was called at its channel waits
again, although the channel accepts broadcasts. Either that sender is a broadcast itself and goes
to another channel, or it is a plain sender at a channel that holds nothing and never will, where
the receivers that wait would have taken what a broadcast brings.
-/

namespace MessageBus

namespace Registry

variable {ω : Type} {r r' : Registry ω} {held held' : List Stay} {u : Usage}
  {resumed : Request → Place → Prop} {m : Message}

/-- A broadcast that is held has been held before, or its channel does not accept broadcasts. -/
theorem Moves.mem_of_accepts (moves : Moves u resumed r held r' held') {c' : Channel ω} {p : Place}
    (holds : ⟨some (.broadcast m), p⟩ ∈ held') (found' : r'.find? p.address = some c')
    (accepts : c'.acceptsBroadcast = true) : ⟨some (.broadcast m), p⟩ ∈ held := by
  cases moves with
  | rest => exact holds
  | handled _ => exact holds
  | granted _ _ _ => exact List.mem_append_right _ holds
  | gone _ => exact List.mem_cons_of_mem _ holds
  | parked _ _ blocked found _ =>
    rcases List.mem_cons.1 holds with new | old
    · cases new
      cases blocked with
      | broadcast blocker =>
        obtain ⟨c, there, rejects⟩ := find?_of_blocker? blocker
        cases found.symm.trans there
        rcases find?_put_cases (r := r.issue) found (Channel.id_join _ _ _ _)
            found' with
          ⟨-, rfl⟩ | ⟨other, -⟩
        · cases rejects.symm.trans accepts
        · exact absurd rfl other
    · exact List.mem_append_right _ old
  | visited _ => exact holds
  | abandoned => exact List.mem_cons_of_mem _ holds
  | issued => exact holds
  | waits _ _ =>
    rcases List.mem_cons.1 holds with new | old
    · cases new
    · exact old
  | woke _ => exact List.mem_cons_of_mem _ holds

end Registry

namespace Executor

open Relation

variable {u : Usage} {x y : Executor} {b : Nat} {a : Address}

/-- A broadcast waits in the line of senders of a channel. -/
def AwaitsBroadcast (x : Executor) (b : Nat) (a : Address) : Prop :=
  ∃ m p, ⟨some (.broadcast m), p⟩ ∈ x.staysOn b ∧ p.isAt a .senders = true ∧
    (x.registry b).isQueued p = true

/-- A broadcast waits at a channel that accepts broadcasts, and no sender is outstanding there. -/
def Asleep (x : Executor) (b : Nat) (a : Address) : Prop :=
  x.AwaitsBroadcast b a ∧
    (∃ c, (x.registry b).find? a = some c ∧ c.acceptsBroadcast = true) ∧
    x.outstanding b a .senders = 0

/-- A broadcast waits although every open channel accepts it, and nobody is outstanding on the side
of the senders. -/
def Stuck (x : Executor) (b : Nat) : Prop :=
  (∃ a, x.AwaitsBroadcast b a) ∧
    (∀ a c, (x.registry b).find? a = some c → c.acceptsBroadcast = true) ∧
    ∀ a, x.outstanding b a .senders = 0

/-- The next step lets a sender go on that was called at a channel, and it is going to wait again.
It is the only one that is outstanding at the channel, where broadcasts are accepted and one waits.
The sender is a broadcast that another channel holds up, or the channel has no slots at all. -/
def Dozes (x : Executor) (b : Nat) (a : Address) : Prop :=
  ∃ q p c, x.Resumes b q p ∧ (x.registry b).hasCalled p = true ∧ p.isAt a .senders = true ∧
    (x.registry b).find? a = some c ∧ c.acceptsBroadcast = true ∧
    ((∃ m a', q = .broadcast m ∧ (x.registry b).blocker? = some a' ∧ a' ≠ a) ∨
      q.address? = some a ∧ c.capacity = 0) ∧
    x.AwaitsBroadcast b a ∧ x.outstanding b a .senders = 1

theorem AwaitsBroadcast.waits (awaits : x.AwaitsBroadcast b a) {c : Channel Waker}
    (found : (x.registry b).find? a = some c) : 0 < c.senders.size := by
  obtain ⟨m, p, -, at', queued⟩ := awaits
  obtain ⟨rfl, side⟩ := Place.isAt_iff.1 at'
  have inside := (Registry.isQueued_of_find? found).1 queued
  rw [side] at inside
  have some := List.length_pos_of_mem inside
  rwa [Channel.tickets, WaitLine.length_tickets] at some

/-- Where a broadcast waits at a channel that accepts it, it has waited before. -/
theorem Next.awaits (next : x.Next u y) (sound : x.Sound u) (awaits : y.AwaitsBroadcast b a)
    {c : Channel Waker} (after : (y.registry b).find? a = some c)
    (accepts : c.acceptsBroadcast = true) : x.AwaitsBroadcast b a := by
  obtain ⟨m, p, holds, at', queued⟩ := awaits
  obtain ⟨held, held', before, moves, later⟩ := (next.sound sound).2 b
  obtain ⟨rfl, -⟩ := Place.isAt_iff.1 at'
  have holds := moves.mem_of_accepts (later.mem_iff.2 holds) after accepts
  have queued := moves.queued ((sound.balanced b).perm before) holds queued
  exact ⟨m, p, before.mem_iff.2 holds, at', queued⟩

theorem Sound.heard_of_not_asleep (sound : x.Sound u) (awake : ¬x.Asleep b a)
    (awaits : x.AwaitsBroadcast b a) {c : Channel Waker}
    (found : (x.registry b).find? a = some c) : (x.stand b a c).Heard := by
  rw [sound.heard_iff found]
  intro accepts
  by_contra none
  exact awake ⟨awaits, ⟨c, found, accepts⟩, Nat.eq_zero_of_not_pos none⟩

/-- A broadcast falls asleep only if the last sender that was called at its channel waits again. -/
theorem Next.dozes (next : x.Next u y) (sound : x.Sound u) (bare : ¬u.bareWaits)
    (awake : ¬x.Asleep b a) (asleep : y.Asleep b a) : y = x.step ∧ x.Dozes b a := by
  have sound' := (next.sound sound).1
  obtain ⟨awaits', ⟨c', after, accepts'⟩, none⟩ := asleep
  have awaits := next.awaits sound awaits' after accepts'
  rcases next.stands sound bare after with
    fresh | ⟨c, found, step | ⟨q, p, a', same, resumes, fits, called, at', blocked, lapse⟩⟩
  · obtain ⟨id, bound, rfl⟩ := fresh
    exact absurd (awaits'.waits after) (Nat.lt_irrefl 0)
  · have heard := step.heard (sound.stand_sound found) (awaits.waits found) (awaits'.waits after)
      (sound.heard_of_not_asleep awake awaits found)
    have due := (sound'.heard_iff after).1 heard accepts'
    exact absurd due (none ▸ Nat.lt_irrefl 0)
  · have one := sound.outstanding_of_lapse sound' found after lapse
    rw [none] at one
    by_cases stays : a' = a
    · subst stays
      obtain ⟨full, ⟨t, k, joined⟩, -⟩ := lapse.of_stayed fun moved => moved rfl
      have joined : c' = c.join t k .senders := joined
      have accepts : c.acceptsBroadcast = true := by
        rw [joined, c.acceptsBroadcast_join_senders] at accepts'
        exact accepts'
      exact ⟨same, q, p, c, resumes, called, at', found, accepts,
        .inr ⟨blocked.address_of_accepts found accepts, Channel.capacity_eq_zero full accepts⟩,
        awaits, one⟩
    · have unchanged : c' = c := (lapse.of_moved stays).1
      subst unchanged
      obtain ⟨m, rfl⟩ := blocked.isBroadcast fits (Place.isAt_iff.1 at').1 stays
      cases blocked with
      | broadcast blocker =>
        exact ⟨same, _, p, c', resumes, called, at', found, accepts',
          .inl ⟨m, a', rfl, blocker, stays⟩, awaits, one⟩

/-- The sender that dozes is going to wait again. -/
theorem Dozes.blocked (dozes : x.Dozes b a) (sound : x.Sound u) : ∃ q p a',
    x.Resumes b q p ∧ (x.registry b).hasCalled p = true ∧ p.isAt a .senders = true ∧
      q.Blocked (x.registry b) a' := by
  obtain ⟨q, p, c, resumes, called, at', found, -, kind, -, -⟩ := dozes
  rcases kind with ⟨m, a', rfl, blocker, -⟩ | ⟨about, empty⟩
  · exact ⟨_, p, a', resumes, called, at', .broadcast blocker⟩
  · have full : c.hasSpace = false := (c.hasSpace_eq_false_iff).2 (empty ▸ Nat.zero_le _)
    refine ⟨q, p, a, resumes, called, at', ?_⟩
    obtain ⟨-, -, beside, -, before, -⟩ := sound.resumed resumes
    have member : ⟨some q, p⟩ ∈ x.staysOn b := before.mem_iff.2 List.mem_cons_self
    have fits := (sound.balanced b).fitting _ member q rfl
    have sends : q.side = .senders := fits.1.symm.trans (Place.isAt_iff.1 at').2
    cases q with
    | send _ _ =>
      cases about
      exact .send found full
    | sendMany _ _ =>
      cases about
      exact .sendMany found full
    | recv _ => cases sends
    | recvMany _ _ => cases sends
    | broadcast _ => cases about

/-- A sender that dozes leaves the broadcast behind it asleep. -/
theorem Dozes.falls_asleep (dozes : x.Dozes b a) (sound : x.Sound u) : x.step.Asleep b a := by
  obtain ⟨q, p, a', resumes, called, at', blocked⟩ := dozes.blocked sound
  obtain ⟨-, -, c, -, -, -, found, accepts, -, ⟨m, p', holds, here, queued⟩, one⟩ := dozes
  obtain ⟨c', found', same, used, kept⟩ :=
    sound.reparked_sender resumes called at' blocked found
  have none : x.step.outstanding b a .senders = 0 := by omega
  have inside := (Registry.isQueued_of_find? ((Place.isAt_iff.1 here).1 ▸ found)).1 queued
  -- The broadcast keeps its place, since it is not the sender that was called.
  have awaits (grown : ∀ t, t ∈ c.tickets p'.side → t ∈ c'.tickets p'.side) :
      x.step.AwaitsBroadcast b a :=
    ⟨m, p', kept _ holds queued, here,
      (Registry.isQueued_of_find? ((Place.isAt_iff.1 here).1 ▸ found')).2 (grown _ inside)⟩
  rcases same with ⟨-, rfl⟩ | ⟨-, t, k, rfl⟩
  · exact ⟨awaits fun t inside => inside, ⟨c', found', accepts⟩, none⟩
  · refine ⟨awaits fun t' inside => ?_, ⟨_, found', ?_⟩, none⟩
    · rw [(Place.isAt_iff.1 here).2] at inside ⊢
      rw [(c.tickets_join_senders t k).1]
      exact List.mem_append_left _ inside
    · rw [c.acceptsBroadcast_join_senders]
      exact accepts

theorem stuck_of_awaits (awaits : x.AwaitsBroadcast b a)
    (accepts : (x.registry b).blocker? = none)
    (none : ∀ held ∈ x.tasks.flatMap (·.places), held.1 = b → held.2.side = .senders →
      (x.registry b).hasCalled held.2 = false) : x.Stuck b :=
  ⟨⟨a, awaits⟩, Registry.blocker?_eq_none_iff.1 accepts, outstanding_eq_zero none⟩

/-- A broadcast is stuck exactly if all open channels accept it, nobody is outstanding, and one of
those that wait fell asleep in the step of a sender and has slept ever since. -/
theorem stuck_broadcast_iff (reachable : x.Reachable .full) : x.Stuck b ↔
    (∀ a c, (x.registry b).find? a = some c → c.acceptsBroadcast = true) ∧
      (∀ a, x.outstanding b a .senders = 0) ∧
      ∃ a, ∃ z : Executor, z.Reachable .full ∧ z.Dozes b a ∧
        ReflTransGen (fun v w => v.Next .full w ∧ w.Asleep b a) z.step x := by
  constructor
  · rintro ⟨⟨a, awaits⟩, accepts, none⟩
    refine ⟨accepts, none, a, ?_⟩
    have awaits' := awaits
    obtain ⟨m, p, -, at', queued⟩ := awaits'
    obtain ⟨c, found, -⟩ := Registry.exists_of_isQueued queued
    rw [(Place.isAt_iff.1 at').1] at found
    have asleep : x.Asleep b a := ⟨awaits, ⟨c, found, accepts a c found⟩, none a⟩
    obtain ⟨inline, run⟩ := reachable
    have awake : ¬(new inline).Asleep b a := by
      rintro ⟨-, ⟨d, there, -⟩, -⟩
      cases (find?_new inline b a).symm.trans there
    obtain ⟨z, first, dozes, since⟩ := (sound_new .full inline).exists_origin run awake asleep
      fun v w sound next awake asleep => next.dozes sound id awake asleep
    exact ⟨z, ⟨inline, first⟩, dozes, since⟩
  · rintro ⟨accepts, none, a, z, reachable, dozes, since⟩
    have asleep := holds_of_since since (dozes.falls_asleep reachable.sound)
    exact ⟨⟨a, asleep.1⟩, accepts, none⟩

/-- Of two broadcasts that wait at a full channel the first is called, goes to another channel, and
is dropped there. When that channel is emptied too the second broadcast sleeps on. -/
def broadcastBehindBroadcast : List Step :=
  [.act 0 (.operate (.openChannel 1)), .act 0 (.operate (.openChannel 1)),
    .act 0 (.operate (.tryBroadcast 7)), .spawn [⟨0, .call (.broadcast 1)⟩] false,
    .spawn [⟨0, .call (.broadcast 2)⟩] false, .run none, .act 0 (.operate (.tryRecv 0)), .run none,
    .act 0 (.drop 0), .act 0 (.operate (.tryRecv 1)), .run none]

/-- Receivers and senders wait at a channel without slots. A broadcast goes through to the first
receiver and calls the first sender, and another broadcast queues up while its message is there.
The second sender is called for the message that is taken. Neither of the two can go ahead, and
behind the broadcast they wait again. -/
def broadcastBehindSenders : List Step :=
  [.act 0 (.operate (.openChannel 0)), .spawn [⟨0, .call (.recv 0)⟩] false,
    .spawn [⟨0, .call (.recv 0)⟩] false, .run none, .spawn [⟨0, .call (.send 0 1)⟩] false,
    .spawn [⟨0, .call (.send 0 2)⟩] false, .run none, .spawn [⟨0, .call (.broadcast 3)⟩] false,
    .spawn [⟨0, .call (.broadcast 4)⟩] false, .run none]

theorem broadcasts_get_stuck :
    (((new false).runScript broadcastBehindBroadcast).1.Stuck 0 ∧
      ∃ a, ∃ z : Executor, z.Reachable .full ∧ z.Dozes 0 a) ∧
    ((new false).runScript broadcastBehindSenders).1.Stuck 0 ∧
      ∃ a, ∃ z : Executor, z.Reachable .full ∧ z.Dozes 0 a := by
  have obeys : (new false).Obeys .full broadcastBehindBroadcast := by decide +kernel
  have obeys' : (new false).Obeys .full broadcastBehindSenders := by decide +kernel
  have reachable := (reachable_new .full false).runScript obeys
  have reachable' := (reachable_new .full false).runScript obeys'
  have stuck : ((new false).runScript broadcastBehindBroadcast).1.Stuck 0 :=
    stuck_of_awaits (a := ⟨0, ⟨0⟩⟩) ⟨2, ⟨⟨0, ⟨0⟩⟩, .senders, ⟨1⟩⟩, by decide +kernel⟩
      (by decide +kernel) (by decide +kernel)
  have stuck' : ((new false).runScript broadcastBehindSenders).1.Stuck 0 :=
    stuck_of_awaits (a := ⟨0, ⟨0⟩⟩) ⟨4, ⟨⟨0, ⟨0⟩⟩, .senders, ⟨4⟩⟩, by decide +kernel⟩
      (by decide +kernel) (by decide +kernel)
  obtain ⟨-, -, a, z, first, dozes, -⟩ := (stuck_broadcast_iff reachable).1 stuck
  obtain ⟨-, -, a', z', first', dozes', -⟩ := (stuck_broadcast_iff reachable').1 stuck'
  exact ⟨⟨stuck, a, z, first, dozes⟩, stuck', a', z', first', dozes'⟩

end Executor

end MessageBus
