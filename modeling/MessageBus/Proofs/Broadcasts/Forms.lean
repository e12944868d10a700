import MessageBus.Proofs.Broadcasts.Attempts
import MessageBus.Proofs.Occupancy

/-!
# The two forms of a broadcast

A broadcast that does not wait asks every open channel for a free slot. One that is able to wait is
also content with a receiver that waits where nothing is buffered. A channel with slots that holds
nothing has a free one, so the second rule lets more through only at a channel without any slots
(`FormsAgree.handOff`). Where both forms go ahead they do the same, except that the second also
calls, at each channel, the sender that has waited longest.
-/

namespace MessageBus

variable {ω α β : Type}

namespace Channel

variable {c : Channel ω}

/-- A channel after the sender that has waited longest left its line. -/
def withoutFirstSender (c : Channel ω) : Channel ω :=
  { c with senders := ⟨c.senders.waiters.tail⟩ }

theorem served_cascade (c : Channel ω) (m : Message) :
    c.served m true = (c.served m false).withoutFirstSender := rfl

theorem oldest_plain (c : Channel ω) :
    c.oldest false = (c.receivers.waiters.take 1).map (·.waker) := by
  rw [oldest, if_neg Bool.false_ne_true, List.append_nil]

theorem oldest_cascade (c : Channel ω) : c.oldest true =
    (c.receivers.waiters.take 1).map (·.waker) ++ (c.senders.waiters.take 1).map (·.waker) := by
  rw [oldest, if_pos rfl, List.map_append]

/-- A channel with slots is content with a broadcast exactly if one of them is free. -/
theorem acceptsBroadcast_of_slots (slots : 1 ≤ c.capacity) : c.acceptsBroadcast = c.hasSpace := by
  rw [Bool.eq_iff_iff, acceptsBroadcast_iff, hasSpace_iff]
  omega

end Channel

namespace Registry

variable {r : Registry ω} {m : Message} {tried : Outcome (Registry ω) ω (Except BusError Unit)}
  {looked : Outcome (Registry ω) ω α} {looked' : Outcome (Registry ω) ω β}
  {commits fails waits commits' fails' waits' : Prop}

/-- How the two forms of a broadcast compare on a registry. One was `tried` and has answered. The
other was `looked` at, and commits, fails for want of a channel, or waits. -/
structure FormsAgree (r : Registry ω) (tried : Outcome (Registry ω) ω (Except BusError Unit))
    (looked : Outcome (Registry ω) ω α) (commits fails waits : Prop) : Prop where
  goesAhead : tried.answer = .ok () → commits
  state : tried.answer = .ok () →
    looked.state = { tried.state with
      slots := tried.state.slots.map (·.map (·.withoutFirstSender)) }
  /-- The same receivers are called, and after each of them the sender at its channel. -/
  woken : tried.answer = .ok () →
    tried.woken = r.channels.flatMap (fun c => (c.receivers.waiters.take 1).map (·.waker)) ∧
    looked.woken = r.channels.flatMap fun c =>
      (c.receivers.waiters.take 1).map (·.waker) ++ (c.senders.waiters.take 1).map (·.waker)
  missing : tried.answer = .error .noSuchChannel ↔ fails
  /-- What only one form lets through is handed to a receiver at a channel without slots. -/
  handOff : commits → tried.answer ≠ .ok () →
    ∃ c ∈ r.channels, c.capacity = 0 ∧ c.queue.items = [] ∧ 0 < c.receivers.size
  roomy : (∀ c ∈ r.channels, 1 ≤ c.capacity) →
    (tried.answer = .ok () ↔ commits) ∧ (tried.answer = .error .wouldBlock ↔ waits)

/-- A look that goes on as another one does compares in the same way. -/
theorem FormsAgree.congr (agree : r.FormsAgree tried looked commits fails waits)
    (commits_iff : commits' ↔ commits) (fails_iff : fails' ↔ fails) (waits_iff : waits' ↔ waits)
    (same : commits → looked'.state = looked.state ∧ looked'.woken = looked.woken) :
    r.FormsAgree tried looked' commits' fails' waits' where
  goesAhead ok := commits_iff.2 (agree.goesAhead ok)
  state ok := (same (agree.goesAhead ok)).1.trans (agree.state ok)
  woken ok := ⟨(agree.woken ok).1, (same (agree.goesAhead ok)).2.trans (agree.woken ok).2⟩
  missing := agree.missing.trans fails_iff.symm
  handOff commits := agree.handOff (commits_iff.1 commits)
  roomy slots := ⟨(agree.roomy slots).1.trans commits_iff.symm,
    (agree.roomy slots).2.trans waits_iff.symm⟩

theorem answer_tryBroadcast (r : Registry ω) (m : Message) :
    (r.tryBroadcast m).answer = .ok () ∨
      (r.channels = [] ∧ (r.tryBroadcast m).answer = .error .noSuchChannel) ∨
      (r.channels ≠ [] ∧ (r.tryBroadcast m).answer = .error .wouldBlock) := by
  cases answer : (r.tryBroadcast m).answer with
  | ok => exact .inl rfl
  | error e =>
    have refused := refused_tryBroadcast answer
    by_cases empty : r.channels = []
    · rw [if_pos empty] at refused
      exact .inr (.inl ⟨empty, congrArg _ refused⟩)
    · rw [if_neg empty] at refused
      exact .inr (.inr ⟨empty, congrArg _ refused⟩)

/-- A broadcast fails, in either form, exactly if no channel is open. -/
theorem tryBroadcast_fails_iff (r : Registry ω) (m : Message) :
    (r.tryBroadcast m).answer = .error .noSuchChannel ↔ r.channels = [] := by
  rcases r.answer_tryBroadcast m with ok | ⟨empty, failed⟩ | ⟨some, blocked⟩
  · have some := ((r.allOrNothing_tryBroadcast m).iff.1 ok).1
    rw [ok]
    exact iff_of_false nofun some
  · exact iff_of_true failed empty
  · rw [blocked]
    exact iff_of_false nofun some

theorem attemptBroadcast_fails_iff (r : Registry ω) (m : Message) :
    (r.attemptBroadcast m).answer = .error .noSuchChannel ↔ r.channels = [] := by
  rcases r.answer_attemptBroadcast m with ok | ⟨empty, failed⟩ | ⟨a, blocked, first⟩
  · have some := ((r.allOrNothing_attemptBroadcast m).iff.1 ok).1
    rw [ok]
    exact iff_of_false nofun some
  · exact iff_of_true failed empty
  · obtain ⟨⟨c, found, -⟩, -⟩ := first
    rw [blocked]
    exact iff_of_false nofun (List.ne_nil_of_mem (mem_channels_of_find? found))

theorem formsAgree_attemptBroadcast (r : Registry ω) (m : Message) :
    r.FormsAgree (r.tryBroadcast m) (r.attemptBroadcast m)
      ((r.attemptBroadcast m).answer = .ok none)
      ((r.attemptBroadcast m).answer = .error .noSuchChannel)
      (∃ a, (r.attemptBroadcast m).answer = .ok (some a)) := by
  have plain := r.allOrNothing_tryBroadcast m
  have able := r.allOrNothing_attemptBroadcast m
  have commits (ok : (r.tryBroadcast m).answer = .ok ()) :
      (r.attemptBroadcast m).answer = .ok none := by
    obtain ⟨some, space⟩ := plain.iff.1 ok
    refine able.iff.2 ⟨some, fun c member => ?_⟩
    exact c.acceptsBroadcast_iff.2 (.inl (c.hasSpace_iff.1 (space c member)))
  have slots (slots : ∀ c ∈ r.channels, 1 ≤ c.capacity) :
      (r.tryBroadcast m).answer = .ok () ↔ (r.attemptBroadcast m).answer = .ok none := by
    rw [plain.iff, able.iff]
    refine and_congr_right fun _ => forall₂_congr fun c member => ?_
    rw [Channel.acceptsBroadcast_of_slots (slots c member)]
  have fails := (r.tryBroadcast_fails_iff m).trans (r.attemptBroadcast_fails_iff m).symm
  -- Both forms do the same to every open channel, but for the cascade.
  refine ⟨commits, fun ok => ?_, fun ok => ?_, fails, fun commits refused => ?_,
    fun room => ⟨slots room, ?_⟩⟩
  · rw [(able.all (commits ok)).1, (plain.all ok).1]
    have slots : r.slots.map (·.map (·.served m true)) =
        (r.slots.map (·.map (·.served m false))).map (·.map (·.withoutFirstSender)) := by
      simp only [List.map_map, Function.comp_def, Option.map_map, Channel.served_cascade]
    exact congrArg (fun slots => { r with slots }) slots
  · rw [(able.all (commits ok)).2, (plain.all ok).2]
    exact ⟨congrArg r.channels.flatMap (funext Channel.oldest_plain),
      congrArg r.channels.flatMap (funext Channel.oldest_cascade)⟩
  · obtain ⟨some, accepts⟩ := able.iff.1 commits
    have full : ¬∀ c ∈ r.channels, c.hasSpace = true := fun space =>
      refused (plain.iff.2 ⟨some, space⟩)
    push Not at full
    obtain ⟨c, member, full⟩ := full
    have full := Bool.eq_false_iff.2 full
    have empty := Channel.empty_of_acceptsBroadcast full (accepts c member)
    exact ⟨c, member, Channel.capacity_eq_zero full (accepts c member), empty.1, empty.2⟩
  · rcases r.answer_tryBroadcast m with ok | ⟨-, failed⟩ | ⟨some, blocked⟩
    · rw [ok, commits ok]
      exact iff_of_false nofun nofun
    · rw [failed, fails.1 failed]
      exact iff_of_false nofun nofun
    · refine iff_of_true blocked ?_
      rcases r.answer_attemptBroadcast m with ok | ⟨empty, -⟩ | ⟨a, blocked, -⟩
      · cases blocked.symm.trans ((slots room).2 ok)
      · exact absurd empty some
      · exact ⟨a, blocked⟩

end Registry

namespace Executor

variable {u : Usage} {x : Executor}

/-- How a call that broadcasts begins, by the attempt that it makes. -/
inductive BeginsBroadcast (m : Message)
    (tried : Outcome (Registry ω) ω (Except BusError (Option Address)))
    (o : Outcome (Registry ω) ω Turn) : Prop where
  | commits (attempt : tried.answer = .ok none) (answer : o.answer = .finished (.ok .nothing))
      (same : o.state = tried.state ∧ o.woken = tried.woken)
  | fails (attempt : tried.answer = .error .noSuchChannel)
      (answer : o.answer = .finished (.error .noSuchChannel))
  | waits {a : Address} {p : Place} (attempt : tried.answer = .ok (some a))
      (answer : o.answer = .parked (.broadcast m) p)

theorem begins_broadcast (sound : x.Sound u) (b : Nat) (m : Message) (w : Waker) :
    ∃ o, (Call.broadcast m).start (x.registry b) w = .ok o ∧
      BeginsBroadcast m ((x.registry b).attemptBroadcast m) o := by
  obtain ⟨o, ran, -⟩ := Request.pursue_pursued (sound.balanced b) (.broadcast m) w
  refine ⟨o, ran, ?_⟩
  have unplaced : ∀ p ∈ (none : Option Place), (x.registry b).isQueued p = false := nofun
  have ends := Request.ends_of_pursue ran unplaced
  generalize turn : o.answer = answer at ends
  generalize left : o.state = state at ends
  generalize called : o.woken = woken at ends
  cases ends with
  | @tried _ tried result out attempts ended =>
    cases attempts
    rw [Outcome.answer_map] at ended
    rcases (x.registry b).answer_attemptBroadcast m with ok | ⟨-, failed⟩ | ⟨a, blocked, -⟩
    · rw [ok] at ended
      cases ended
      exact .commits ok turn ⟨left, called⟩
    · rw [failed] at ended
      cases ended
      exact .fails failed turn
    · rw [blocked] at ended
      cases ended
  | @parked _ a c parked out blocked found parks =>
    cases blocked with
    | broadcast blocker =>
      have some := List.ne_nil_of_mem (Registry.mem_channels_of_find? found)
      refine .waits (a := a) ?_ turn
      rw [Registry.attemptBroadcast, if_neg (mt List.isEmpty_iff.1 some), blocker]

theorem formsAgree_start (sound : x.Sound u) (b : Nat) (m : Message) (w : Waker) :
    ∃ o, (Call.broadcast m).start (x.registry b) w = .ok o ∧
      (x.registry b).FormsAgree ((x.registry b).tryBroadcast m) o
        (o.answer = .finished (.ok .nothing)) (o.answer = .finished (.error .noSuchChannel))
        (∃ p, o.answer = .parked (.broadcast m) p) := by
  obtain ⟨o, ran, begins⟩ := begins_broadcast sound b m w
  have agree := (x.registry b).formsAgree_attemptBroadcast m
  refine ⟨o, ran, ?_⟩
  cases begins with
  | commits attempt answer same =>
    exact agree.congr (by simp [attempt, answer]) (by simp [attempt, answer])
      (by simp [attempt, answer]) fun _ => same
  | fails attempt answer =>
    exact agree.congr (by simp [attempt, answer]) (by simp [attempt, answer])
      (by simp [attempt, answer]) fun commits => by cases commits.symm.trans attempt
  | waits attempt answer =>
    exact agree.congr (by simp [attempt, answer]) (by simp [attempt, answer])
      (by simp [attempt, answer]) fun commits => by cases commits.symm.trans attempt

/-- The two forms of a broadcast agree. On every registry, if the form that does not wait goes ahead
the other does too, to the same queues and receivers, and calls the same receivers in the same
order; it only calls, at each channel, one sender more. Both fail on the same registries, and
where every open channel has slots they go ahead on the same ones, so that one is refused where
the other would wait. In every run the first look of a call that broadcasts is such an attempt. -/
theorem broadcasts_agree :
    (∀ {ω : Type} (r : Registry ω) (m : Message),
      r.FormsAgree (r.tryBroadcast m) (r.attemptBroadcast m)
        ((r.attemptBroadcast m).answer = .ok none)
        ((r.attemptBroadcast m).answer = .error .noSuchChannel)
        (∃ a, (r.attemptBroadcast m).answer = .ok (some a))) ∧
    ∀ {u : Usage} {x : Executor}, x.Reachable u → ∀ (b : Nat) (m : Message) (w : Waker),
      ∃ o, (Call.broadcast m).start (x.registry b) w = .ok o ∧
        (x.registry b).FormsAgree ((x.registry b).tryBroadcast m) o
          (o.answer = .finished (.ok .nothing)) (o.answer = .finished (.error .noSuchChannel))
          (∃ p, o.answer = .parked (.broadcast m) p) :=
  ⟨fun r m => r.formsAgree_attemptBroadcast m,
    fun reachable b m w => formsAgree_start reachable.sound b m w⟩

/-- Two senders wait at a channel until a slot becomes free, and a receiver waits at another. -/
def sendersAndReceiver : List Step :=
  [.act 0 (.operate (.openChannel 1)), .act 0 (.operate (.openChannel 1)),
    .act 0 (.operate (.trySend 0 7)), .spawn [⟨0, .call (.send 0 1)⟩] false,
    .spawn [⟨0, .call (.send 0 2)⟩] false, .spawn [⟨0, .call (.recv 1)⟩] false, .run none,
    .act 0 (.operate (.tryRecv 0))]

/-- A receiver waits at a channel without slots. -/
def receiverWithoutSlots : List Step :=
  [.act 0 (.operate (.openChannel 0)), .spawn [⟨0, .call (.recv 0)⟩] false, .run none]

theorem broadcasts_agree_with_waiters :
    (∃ x : Executor, x.Reachable .full ∧ ((x.registry 0).tryBroadcast 5).answer = .ok () ∧
      (∀ c ∈ (x.registry 0).channels, 1 ≤ c.capacity) ∧
      ((x.registry 0).tryBroadcast 5).woken = [⟨2, 0⟩] ∧
      ∃ o, (Call.broadcast 5).start (x.registry 0) ⟨3, 0⟩ = .ok o ∧
        o.answer = .finished (.ok .nothing) ∧ o.woken = [⟨1, 0⟩, ⟨2, 0⟩]) ∧
    ∃ x : Executor, x.Reachable .full ∧
      ((x.registry 0).tryBroadcast 5).answer = .error .wouldBlock ∧
      ((x.registry 0).attemptBroadcast 5).answer = .ok none ∧
      ∃ c ∈ (x.registry 0).channels, c.capacity = 0 := by
  have obeys : (new false).Obeys .full sendersAndReceiver := by decide +kernel
  have reachable := (reachable_new .full false).runScript obeys
  have ok : (Registry.tryBroadcast (((new false).runScript sendersAndReceiver).1.registry 0)
      5).answer = .ok () := by decide +kernel
  have slots : ∀ c ∈ (((new false).runScript sendersAndReceiver).1.registry 0).channels,
      1 ≤ c.capacity := by decide +kernel
  obtain ⟨o, ran, agree⟩ := broadcasts_agree.2 reachable 0 5 ⟨3, 0⟩
  obtain ⟨tried, looked⟩ := agree.woken ok
  have commits := (agree.roomy slots).1.1 ok
  have obeys' : (new false).Obeys .full receiverWithoutSlots := by decide +kernel
  exact ⟨⟨_, reachable, ok, slots, tried.trans (by decide +kernel), o, ran, commits,
    looked.trans (by decide +kernel)⟩, _, (reachable_new .full false).runScript obeys',
    by decide +kernel, by decide +kernel, by decide +kernel⟩

end Executor

end MessageBus
