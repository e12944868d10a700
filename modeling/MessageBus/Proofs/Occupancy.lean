import MessageBus.Proofs.AnyRun
import MessageBus.Proofs.Wakeups

/-!
# How much a channel holds

A channel holds no more messages than it has slots, in every run. The one exception is a channel
without slots: a blocking broadcast may leave one message there, for a receiver that waits
(`Channel.IsWithinBound`). Neither a queue nor a commit checks this. It holds since whatever puts a
message in has asked before, in the same atomic operation, whether the channel takes it.

Nothing but a broadcast gets a message into a channel without a free slot, and it takes a receiver
out of the line there in the same step (`Executor.HandsOver`).
-/

namespace MessageBus

namespace Channel

variable {ω : Type} {c c' : Channel ω} {messages senders receivers : Nat}

/-- What a channel may hold: one message for each slot, and one if it has no slots. -/
def IsWithinBound (c : Channel ω) : Prop := c.queue.size ≤ max c.capacity 1

theorem IsWithinBound.fresh (id : ChannelId) (bound : Nat) :
    (fresh id bound : Channel ω).IsWithinBound :=
  Nat.zero_le _

/-- Where only the lines change, the bound stays kept. -/
theorem IsWithinBound.of_same (within : c.IsWithinBound) (same : c'.queue.size = c.queue.size)
    (capacity : c'.capacity = c.capacity) : c'.IsWithinBound := by
  rw [IsWithinBound, same, capacity]
  exact within

theorem Becomes.isWithinBound (becomes : c.Becomes c' messages senders receivers)
    (fits : messages ≤ max c.capacity 1) : c'.IsWithinBound := by
  rw [IsWithinBound, becomes.messages, becomes.capacity]
  exact fits

/-- A message that finds a free slot fits. -/
theorem isWithinBound_commit (space : c.hasSpace = true) (m : Message) (cascade : Bool) :
    (c.commit m cascade).1.IsWithinBound := by
  have fits : c.queue.size + 1 ≤ max c.capacity 1 :=
    Nat.le_trans (c.hasSpace_iff.1 space) (Nat.le_max_left _ _)
  cases cascade
  · exact (c.becomes_commit m).isWithinBound fits
  · exact (c.becomes_commit_cascade m).isWithinBound fits

/-- Of a batch no more is put in than there are free slots. -/
theorem isWithinBound_trySendMany (space : c.hasSpace = true) (ms : List Message) :
    (c.trySendMany ms).state.IsWithinBound := by
  have room := c.hasSpace_iff.1 space
  refine (becomes_trySendMany space ms).isWithinBound ?_
  rw [fitting, freeSlots]
  omega

theorem isWithinBound_tryRecv (some : 0 < c.queue.size) (within : c.IsWithinBound) :
    c.tryRecv.state.IsWithinBound :=
  (becomes_tryRecv some).2.isWithinBound (Nat.le_trans (Nat.sub_le _ _) within)

theorem Handled.isWithinBound (handled : c.Handled c') (within : c.IsWithinBound) :
    c'.IsWithinBound := by
  cases handled with
  | untouched => exact within
  | committed space => exact isWithinBound_commit space _ false
  | sentMany space => exact isWithinBound_trySendMany space _
  | received some => exact isWithinBound_tryRecv some within
  | @receivedMany limit o some ran =>
    obtain ⟨o', _, ran', -, becomes⟩ := becomes_tryRecvMany some limit
    cases ran.symm.trans ran'
    exact becomes.isWithinBound (Nat.le_trans (Nat.sub_le _ _) within)

/-- What accepts a broadcast has a place for it, or is empty. -/
theorem isWithinBound_broadcast (accepts : c.acceptsBroadcast = true) (m : Message) :
    (c.commit m true).1.IsWithinBound := by
  refine (c.becomes_commit_cascade m).isWithinBound ?_
  rw [acceptsBroadcast_iff] at accepts
  omega

theorem isWithinBound_join (within : c.IsWithinBound) (t : Ticket) (k : ω) (side : Side) :
    (c.join t k side).IsWithinBound := by
  cases side with
  | senders => exact within
  | receivers =>
    obtain ⟨messages, capacity, -, -⟩ := c.sizes_join_receivers t k
    exact within.of_same messages capacity

theorem isWithinBound_setLine (within : c.IsWithinBound) (side : Side) (l : WaitLine ω) :
    (c.setLine side l).IsWithinBound := by
  cases side <;> exact within

/-- A channel that accepts a broadcast without a free slot is empty, and a receiver waits. -/
theorem empty_of_acceptsBroadcast (full : c.hasSpace = false)
    (accepts : c.acceptsBroadcast = true) : c.queue.items = [] ∧ 0 < c.receivers.size := by
  rw [hasSpace_eq_false_iff] at full
  rcases c.acceptsBroadcast_iff.1 accepts with space | ⟨empty, waits⟩
  · exact absurd space (Nat.not_lt.2 full)
  · exact ⟨List.eq_nil_of_length_eq_zero empty, waits⟩

/-- The first receiver takes over the message that is put into an empty channel. -/
theorem commit_of_receivers {k : Waiter ω} {later : List (Waiter ω)}
    (waits : c.receivers.waiters = k :: later) (m : Message) (cascade : Bool) :
    (c.commit m cascade).1.receivers.waiters = later ∧ k.waker ∈ (c.commit m cascade).2 := by
  cases cascade <;>
    simp [commit, wakeFirst, line, setLine, WaitLine.wakeFirst, waits]

end Channel

namespace Registry

variable {ω : Type} {r r' : Registry ω} {a : Address} {c c' : Channel ω}

/-- Whether no open channel holds more than it may. -/
def IsWithinBounds (r : Registry ω) : Prop := ∀ a c, r.find? a = some c → c.IsWithinBound

theorem isWithinBounds_empty : (empty : Registry ω).IsWithinBounds := by
  intro a c found
  simp [find?] at found

theorem IsWithinBounds.put (within : r.IsWithinBounds) (found : r.find? a = some c)
    (same : c'.id = c.id) (kept : c'.IsWithinBound) : (r.put a.handle c').IsWithinBounds := by
  intro b d after
  rcases find?_put_cases found same after with ⟨-, rfl⟩ | ⟨-, before⟩
  · exact kept
  · exact within b d before

theorem Handles.isWithinBounds (handles : r.Handles r') (within : r.IsWithinBounds) :
    r'.IsWithinBounds := by
  intro a c' after
  rcases handles.2 a c' after with ⟨id, bound, rfl⟩ | ⟨c, before, handled⟩
  · exact .fresh id bound
  · exact handled.isWithinBound (within a c before)

theorem IsWithinBounds.park {side : Side} {k : ω} {o : Outcome (Registry ω) ω (Option Place)}
    (within : r.IsWithinBounds) (ran : r.park a side k = .ok o) : o.state.IsWithinBounds := by
  cases found : r.find? a with
  | none =>
    cases ran.symm.trans (park_of_gone found side k)
    exact within
  | some c =>
    rw [(joins_of_park found ran).state]
    have issued : r.issue.IsWithinBounds := within
    exact issued.put found (c.id_join _ k side)
      (Channel.isWithinBound_join (within a c found) _ k side)

theorem IsWithinBounds.revisit (within : r.IsWithinBounds) (p : Place) (k : ω) :
    (r.revisit p k).state.IsWithinBounds := by
  rcases r.standing_cases p with queued | called | gone
  · obtain ⟨c, l, found, -, -, state⟩ := revisit_of_queued queued k
    rw [state]
    exact within.put found (c.id_setLine p.side l)
      (Channel.isWithinBound_setLine (within _ c found) p.side l)
  · rw [(revisit_of_called called k).2]
    exact within
  · rw [(revisit_of_gone gone k).2]
    exact within

theorem IsWithinBounds.abandon (within : r.IsWithinBounds) (p : Place) :
    (r.abandon p).state.IsWithinBounds := by
  rcases r.standing_cases p with queued | called | gone
  · obtain ⟨c, l, found, -, -, state⟩ := abandon_of_queued queued
    rw [state]
    exact within.put found (c.id_setLine p.side l)
      (Channel.isWithinBound_setLine (within _ c found) p.side l)
  · obtain ⟨c, found, state⟩ := abandon_of_called called
    rw [state]
    exact within.put found (c.id_wakeFirst p.side)
      (Channel.isWithinBound_setLine (within _ c found) p.side _)
  · rw [abandon_of_gone gone]
    exact within

/-- A broadcast owes a wakeup to everybody that it takes out of a line. -/
theorem mem_woken_commitAll {k : ω} {m : Message} {cascade : Bool} (found : r.find? a = some c)
    (called : k ∈ (c.commit m cascade).2) : k ∈ (r.commitAll m cascade).woken := by
  have there := channel?_eq_some_iff.1 (find?_eq_some_iff.1 found).1
  simp only [commitAll, List.mem_flatMap, List.mem_map]
  exact ⟨_, ⟨some c, List.mem_of_getElem? there, rfl⟩, called⟩

end Registry

/-- Where something was put in, it is one of the things that were moved. -/
theorem exists_sent {id : ChannelId} {ts : List Transfer} (came : sentTo id ts ≠ []) :
    ∃ ms, .sent id ms ∈ ts := by
  obtain ⟨m, member⟩ := List.exists_mem_of_ne_nil _ came
  obtain ⟨t, moved, inside⟩ := List.mem_flatMap.1 member
  cases t with
  | received id' ms => cases inside
  | sent id' ms =>
    by_cases same : id' = id
    · exact ⟨ms, same ▸ moved⟩
    · rw [Transfer.into, if_neg same] at inside
      cases inside

/-- An operation that does not wait puts messages only where a slot is free. -/
theorem Operation.hasSpace_of_sent {ω : Type} {r : Registry ω} {op : Operation}
    {o : Outcome (Registry ω) ω Reply} {id : ChannelId} {ms : List Message}
    (ran : op.apply r = .ok o) (sent : .sent id ms ∈ op.transfers r o.answer) :
    ∃ h c, r.channel? h = some c ∧ c.id = id ∧ c.hasSpace = true := by
  cases op with
  | trySend h m =>
    obtain ⟨p, acted, rfl⟩ := Outcome.of_map_eq_ok ran
    rcases Registry.of_onChannel_eq_ok acted with rfl | ⟨c, p, found, done, rfl⟩
    · cases sent
    · cases done
      cases space : c.hasSpace
      · rw [Channel.trySend_of_full space] at sent
        cases sent
      · simp only [Outcome.answer_map, Outcome.answer_within,
          (Channel.trySend_of_hasSpace space).1, Reply.ofExcept, Reply.ofResult, Except.map,
          transfers, found, Option.toList_some, List.map_cons, List.map_nil, List.mem_singleton,
          Transfer.sent.injEq] at sent
        exact ⟨h, c, found, sent.1.symm, space⟩
  | trySendMany h batch =>
    obtain ⟨p, acted, rfl⟩ := Outcome.of_map_eq_ok ran
    rcases Registry.of_onChannel_eq_ok acted with rfl | ⟨c, p, found, done, rfl⟩
    · cases sent
    · cases done
      cases space : c.hasSpace
      · rw [Channel.trySendMany_of_full space] at sent
        cases sent
      · simp only [Outcome.answer_map, Outcome.answer_within,
          Channel.answer_trySendMany_of_hasSpace space, Reply.ofExcept, Reply.ofResult,
          Except.map, transfers, found, Option.toList_some, List.map_cons, List.map_nil,
          List.mem_singleton, Transfer.sent.injEq] at sent
        exact ⟨h, c, found, sent.1.symm, space⟩
  | tryRecv h =>
    cases answer : o.answer <;> rw [answer] at sent
    case granted v => cases v <;> simp [transfers] at sent
    all_goals cases sent
  | tryRecvMany h limit =>
    cases answer : o.answer <;> rw [answer] at sent
    case granted v => cases v <;> simp [transfers] at sent
    all_goals cases sent
  | tryBroadcast m =>
    cases ran
    simp only [Outcome.answer_map, Registry.tryBroadcast] at sent
    split at sent
    · cases sent
    · split at sent
      · rename_i space
        simp only [Outcome.answer_map, Reply.ofExcept, Reply.ofResult, Except.map, transfers,
          List.mem_map, Transfer.sent.injEq] at sent
        obtain ⟨c, isOpen, id, -⟩ := sent
        obtain ⟨h, found⟩ := Registry.mem_channels_iff.1 isOpen
        exact ⟨h, c, found, id, List.all_eq_true.1 space c isOpen⟩
      · cases sent
  | _ => cases sent

namespace Request

variable {ω : Type} {q : Request} {r r' : Registry ω}

theorem Granted.isWithinBounds (granted : q.Granted r r') (within : r.IsWithinBounds) :
    r'.IsWithinBounds := by
  cases granted with
  | send found space =>
    exact within.put found (Channel.becomes_commit_cascade _ _).shrinks.1
      (Channel.isWithinBound_commit space _ true)
  | sendMany found space =>
    exact within.put found (Channel.becomes_trySendMany space _).shrinks.1
      (Channel.isWithinBound_trySendMany space _)
  | recv found some =>
    exact within.put found (Channel.becomes_tryRecv some).2.shrinks.1
      (Channel.isWithinBound_tryRecv some (within _ _ found))
  | @recvMany _ _ limit c o found some ran =>
    obtain ⟨o', _, ran', -, becomes⟩ := Channel.becomes_recvManyStep some limit
    cases ran.symm.trans ran'
    exact within.put found becomes.shrinks.1
      (becomes.isWithinBound (Nat.le_trans (Nat.sub_le _ _) (within _ _ found)))
  | broadcast all =>
    intro a c' after
    rw [Registry.find?_commitAll] at after
    obtain ⟨c, found, rfl⟩ := Option.map_eq_some_iff.1 after
    exact Channel.isWithinBound_broadcast (Registry.blocker?_eq_none_iff.1 all a c found) _

theorem isWithinBounds_attempt {o : Outcome (Registry ω) ω Attempt} (ran : q.attempt r = .ok o)
    (within : r.IsWithinBounds) : o.state.IsWithinBounds := by
  obtain ⟨o', ran', fares⟩ := q.attempt_fares r
  cases ran.symm.trans ran'
  generalize o.answer = attempt, o.state = r' at fares
  cases fares with
  | granted granted => exact granted.isWithinBounds within
  | groundless _ => exact within
  | blocked _ => exact within

/-- A request puts messages only where a slot is free, unless it is a broadcast. -/
theorem Granted.hasSpace_of_sent (granted : q.Granted r r') {v : Value} {id : ChannelId}
    {ms : List Message} (sent : .sent id ms ∈ q.transfers r v) :
    (∃ a c, r.find? a = some c ∧ a.id = id ∧ c.hasSpace = true) ∨
      ∃ m, q = .broadcast m ∧ r.blocker? = none := by
  cases granted with
  | @send _ a m c found space =>
    simp only [transfers, List.mem_singleton, Transfer.sent.injEq] at sent
    exact .inl ⟨a, c, found, sent.1.symm, space⟩
  | @sendMany _ a batch c found space =>
    cases v with
    | number n =>
      simp only [transfers, List.mem_singleton, Transfer.sent.injEq] at sent
      exact .inl ⟨a, c, found, sent.1.symm, space⟩
    | _ => cases sent
  | recv _ _ => cases v <;> simp [transfers] at sent
  | recvMany _ _ _ => cases v <;> simp [transfers] at sent
  | broadcast all => exact .inr ⟨_, rfl, all⟩

/-- A broadcast with nothing in its way is carried out, if there is a channel at all. -/
theorem attempt_broadcast_of_free {a : Address} {c : Channel ω} (found : r.find? a = some c)
    (free : r.blocker? = none) (m : Message) : (broadcast m).attempt r =
      .ok ((r.commitAll m true).map fun _ => .finished (.ok .nothing)) := by
  have some : r.channels.isEmpty = false :=
    List.isEmpty_eq_false_iff.2 (List.ne_nil_of_mem (Registry.mem_channels_of_find? found))
  simp [attempt, Registry.attemptBroadcast, some, free, Outcome.map]

end Request

namespace Errand

variable {ω : Type} {r : Registry ω} {e : Errand ω} {o : Outcome (Registry ω) ω Upshot}

/-- No errand fills a channel beyond its bound. -/
theorem isWithinBounds (ran : e.effect r = .ok o) (within : r.IsWithinBounds) :
    o.state.IsWithinBounds := by
  cases e with
  | operate op =>
    obtain ⟨p, did, rfl⟩ := Outcome.of_map_eq_ok ran
    obtain ⟨p', did', handles⟩ := op.apply_handles r
    cases did.symm.trans did'
    exact handles.isWithinBounds within
  | look q prior k =>
    obtain ⟨p, did, rfl⟩ := Outcome.of_map_eq_ok ran
    have ends := Request.ends_of_look did
    simp only [Outcome.state_map]
    generalize p.answer = turn, p.state = r', p.woken = woken at ends
    cases ends with
    | tried _ ran _ => exact Request.isWithinBounds_attempt ran within
    | parked _ _ _ ran => exact within.park ran
    | waiting _ => exact within.revisit _ k
    | gone _ => exact within
  | park a side k =>
    obtain ⟨p, did, rfl⟩ := Outcome.of_map_eq_ok ran
    exact within.park did
  | revisit p k =>
    cases ran
    exact within.revisit p k
  | abandon p =>
    cases ran
    exact within.abandon p
  | glance =>
    cases ran
    exact within

/-- Only a broadcast that is carried out puts a message into a channel without a free slot. -/
theorem of_sent_to_full {a : Address} {c : Channel ω} (ident : r.Identified)
    (ran : e.effect r = .ok o) (found : r.find? a = some c) (full : c.hasSpace = false)
    (came : sentTo a.id o.answer.transfers ≠ []) :
    ∃ m prior k, e = .look (.broadcast m) prior k ∧ c.acceptsBroadcast = true ∧
      ∀ p, (Request.broadcast m).look r prior k = .ok p → p.answer = .finished (.ok .nothing) ∧
        p.state = (r.commitAll m true).state ∧ p.woken = (r.commitAll m true).woken := by
  obtain ⟨ms, sent⟩ := exists_sent came
  have noSpace {b : Address} {d : Channel ω} (there : r.find? b = some d) (same : b.id = a.id)
      (space : d.hasSpace = true) : False := by
    cases ident.distinct b a d c there found same
    cases found.symm.trans there
    cases full.symm.trans space
  cases e with
  | operate op =>
    obtain ⟨p, did, rfl⟩ := Outcome.of_map_eq_ok ran
    obtain ⟨h, d, there, same, space⟩ := Operation.hasSpace_of_sent did sent
    exact (noSpace (Registry.find?_of_channel? there) same space).elim
  | look q prior k =>
    obtain ⟨p, did, rfl⟩ := Outcome.of_map_eq_ok ran
    have ends := Request.ends_of_look did
    simp only [Outcome.answer_map, Turn.upshot] at sent
    generalize answer : p.answer = turn, state : p.state = r', woken : p.woken = ks at ends sent
    cases ends with
    | @tried _ tried result out ran ended =>
      cases result with
      | error _ => cases sent
      | ok v =>
        obtain ⟨tried', ran', fares⟩ := q.attempt_fares r
        cases ran'.symm.trans ran
        rw [ended] at fares
        generalize tried.state = r' at fares
        cases fares with
        | granted granted =>
          rcases granted.hasSpace_of_sent sent with ⟨b, d, there, same, space⟩ | ⟨m, rfl, free⟩
          · exact (noSpace there same space).elim
          · refine ⟨m, prior, k, rfl, Registry.blocker?_eq_none_iff.1 free a c found, ?_⟩
            intro p' did'
            cases did.symm.trans did'
            cases ran.symm.trans (Request.attempt_broadcast_of_free found free m)
            cases ended
            exact ⟨answer, state, woken⟩
    | _ => cases sent
  | park _ _ _ =>
    obtain ⟨p, -, rfl⟩ := Outcome.of_map_eq_ok ran
    cases sent
  | _ =>
    cases ran
    cases sent

end Errand

namespace Executor

variable {x : Executor} {b : Nat} {a : Address} {c : Channel Waker}

theorem Arises.isWithinBounds (arises : x.Arises) (b : Nat) : (x.registry b).IsWithinBounds :=
  arises.of_errands Registry.isWithinBounds_empty
    (fun _ _ _ within ran => Errand.isWithinBounds ran within) b

/-- The next step carries a blocking broadcast out, and with it hands the message over to a receiver
that waits on an empty channel: the receiver is taken out of the line, and its waker is owed a
call. -/
inductive HandsOver (x : Executor) (b : Nat) (a : Address) (c : Channel Waker) : Prop where
  | intro {w rest task m prior recorded k later c' woken notes}
    (stack : x.stack = .proceed w :: rest) (found : x.tasks[w.task]? = some task)
    (pursues : x.Pursues task b (.broadcast m) prior recorded)
    (empty : c.queue.items = []) (waits : c.receivers.waiters = k :: later)
    (after : (x.step.registry b).find? a = some c') (holds : c'.queue.items = [m])
    (left : c'.receivers.waiters = later) (called : k.waker ∈ woken)
    (goesOn : x.step.stack = .release b :: .wake woken :: .tell notes ::
      .complete (.task w) (.granted .nothing) :: rest) : HandsOver x b a c

/-- Where something was moved, an errand was carried out. -/
theorem exists_errand_of_moved {errand : Option (Nat × Errand Waker)} {id : ChannelId}
    (came : sentTo id (x.moved errand b) ≠ []) : ∃ e o, errand = some (b, e) ∧
      x.carried b e = some o ∧ x.moved errand b = o.answer.transfers := by
  cases outcome : x.outcomeOn errand b with
  | none =>
    rw [moved, outcome] at came
    exact absurd rfl came
  | some o =>
    obtain ⟨⟨b', e⟩, entry, carried⟩ := Option.bind_eq_some_iff.1 outcome
    split at carried
    · rename_i same
      cases same
      exact ⟨e, o, entry, carried, by rw [moved, outcome]; rfl⟩
    · cases carried

/-- A step that puts a message into a channel without a free slot hands it over. -/
theorem handsOver_of_sent (ident : (x.registry b).Identified)
    (found : (x.registry b).find? a = some c) (full : c.hasSpace = false)
    (came : sentTo a.id (x.moved x.errand? b) ≠ []) : x.HandsOver b a c := by
  obtain ⟨e, o, errand, carried, moved⟩ := exists_errand_of_moved came
  rw [moved] at came
  obtain ⟨m, prior, w, rfl, accepts, done⟩ :=
    Errand.of_sent_to_full ident (effect_of_carried carried) found full came
  cases stack : x.stack with
  | nil =>
    rw [errand?, stack] at errand
    cases errand
  | cons f rest =>
    cases x.step_unfolds stack with
    | enters errand' carried' sequel leads =>
      cases errand.symm.trans errand'
      cases carried.symm.trans carried'
      cases sequel with
      | @looks _ _ _ _ _ _ p there pursues ran =>
        obtain ⟨answer, state, woken⟩ := done _ ran
        obtain ⟨messages, waiting⟩ := Channel.empty_of_acceptsBroadcast full accepts
        obtain ⟨k, later, waits⟩ := List.exists_cons_of_length_pos waiting
        obtain ⟨left, called⟩ := Channel.commit_of_receivers waits m true
        have after : (x.step.registry b).find? a = some (c.commit m true).1 := by
          rw [registry_set_self (inside_of_carried carried) leads.buses, Outcome.state_map, state,
            Registry.find?_commitAll, found]
          rfl
        have holds : (c.commit m true).1.queue.items = [m] := by
          simpa [messages] using (c.passes_commit m true).items.symm
        have called : k.waker ∈ (((x.registry b).commitAll m true).woken) :=
          Registry.mem_woken_commitAll found called
        have goesOn : x.step.stack = .release b :: .wake p.woken :: .tell p.afterwards ::
            .complete (.task w) (.granted .nothing) :: rest := by
          rw [leads.stack, answer]
          rfl
        exact .intro stack there pursues messages waits after holds left (woken ▸ called) goesOn
    | fails errand' failed _ _ _ _ =>
      cases errand.symm.trans errand'
      cases carried.symm.trans failed
    | _ none => cases errand.symm.trans none

/-- A request from outside puts nothing into a channel without a free slot. -/
theorem sentTo_ask_of_full (ident : (x.registry b).Identified)
    (found : (x.registry b).find? a = some c) (full : c.hasSpace = false) (s : Step) :
    sentTo a.id (x.moved s.errand? b) = [] := by
  by_contra came
  obtain ⟨e, o, errand, carried, moved⟩ := exists_errand_of_moved came
  rw [moved] at came
  obtain ⟨_, _, _, rfl, -⟩ :=
    Errand.of_sent_to_full ident (effect_of_carried carried) found full came
  cases s with
  | act _ action => cases action <;> cases errand
  | _ => cases errand

/-- How a channel holds what it held before, when nothing is put in; a channel that was not open
before is empty. -/
theorem suffix_of_flows {r r' : Registry Waker} {ts : List Transfer} {c' : Channel Waker}
    (flows : r.Flows ts r') (ident : r.Identified) (after : r'.find? a = some c') :
    r.find? a = none ∧ c'.queue.items = [] ∨ ∃ c, r.find? a = some c ∧
      (sentTo a.id ts = [] → c'.queue.items <:+ c.queue.items) := by
  cases flows with
  | kept _ each _ =>
    obtain ⟨c, before, passes⟩ := each a c' after
    refine .inr ⟨c, before, fun none => ⟨receivedFrom a.id ts, ?_⟩⟩
    rw [← passes.items, none, List.append_nil]
  | opened h _ _ each =>
    rcases each a c' after with before | ⟨rfl, rfl⟩
    · exact .inr ⟨c', before, fun _ => List.suffix_refl _⟩
    · cases before : r.find? ⟨h, ⟨r.nextId⟩⟩ with
      | none => exact .inl ⟨rfl, rfl⟩
      | some c => exact absurd (ident.issued _ c before) (Nat.lt_irrefl _)

/-- In every run a channel holds no more messages than it has slots, or one if it has none. And into
a channel without slots a message only comes when a blocking broadcast is carried out, while the
channel is empty and a receiver waits there, which is taken out of its line in the same step. -/
theorem occupancy_bounded (arises : x.Arises) :
    (∀ b a c, (x.registry b).find? a = some c →
      (0 < c.capacity → c.size ≤ c.capacity) ∧ (c.capacity = 0 → c.size ≤ 1)) ∧
    ∀ y b a c', x.Follows y → (y.registry b).find? a = some c' →
      (x.registry b).find? a = none ∧ c'.queue.items = [] ∨
      ∃ c, (x.registry b).find? a = some c ∧ (c.capacity = 0 →
        c'.queue.items <:+ c.queue.items ∨ y = x.step ∧ x.HandsOver b a c) := by
  refine ⟨fun b a c found => ?_, fun y b a c' follows after => ?_⟩
  · have within : c.size ≤ max c.capacity 1 := arises.isWithinBounds b a c found
    omega
  · have ident := arises.identified b
    have full {c : Channel Waker} (none : c.capacity = 0) : c.hasSpace = false :=
      c.hasSpace_eq_false_iff.2 (none ▸ Nat.zero_le _)
    cases follows with
    | step =>
      rcases suffix_of_flows (flows_step ident) ident after with fresh | ⟨c, before, kept⟩
      · exact .inl fresh
      · refine .inr ⟨c, before, fun none => ?_⟩
        by_cases came : sentTo a.id (x.moved x.errand? b) = []
        · exact .inl (kept came)
        · exact .inr ⟨rfl, handsOver_of_sent ident before (full none) came⟩
    | ask s =>
      rcases suffix_of_flows (flows_ask ident s) ident after with fresh | ⟨c, before, kept⟩
      · exact .inl fresh
      · exact .inr ⟨c, before, fun none =>
          .inl (kept (sentTo_ask_of_full ident before (full none) s))⟩

/-- Two receivers wait at a channel without slots, another channel has a free slot, and a task with
a broadcast is ready. -/
def receiversAtRendezvous : List Step :=
  [.act 0 (.operate (.openChannel 0)), .act 0 (.operate (.openChannel 1)),
    .spawn [⟨0, .call (.recv 0)⟩] false, .spawn [⟨0, .call (.recv 0)⟩] false, .run none,
    .spawn [⟨0, .call (.broadcast 7)⟩] false]

/-- The broadcast is about to be attempted. -/
def broadcastAtRendezvous : Executor :=
  settle 2 ({ ((new false).runScript receiversAtRendezvous).1 with
    log := [], answer := none }.ask (.run none))

theorem broadcast_handed_over : ∃ c c',
    (broadcastAtRendezvous.registry 0).find? ⟨0, ⟨0⟩⟩ = some c ∧ c.capacity = 0 ∧
      (broadcastAtRendezvous.step.registry 0).find? ⟨0, ⟨0⟩⟩ = some c' ∧ c'.queue.items = [7] ∧
      c'.size ≤ 1 ∧ broadcastAtRendezvous.HandsOver 0 ⟨0, ⟨0⟩⟩ c := by
  have arises : broadcastAtRendezvous.Arises :=
    (((arises_new false).runScript receiversAtRendezvous).follows (.ask (.run none))).settle 2
  have before : ((broadcastAtRendezvous.registry 0).find? ⟨0, ⟨0⟩⟩).map (fun c =>
      (c.capacity, c.queue.items)) = some (0, []) := by decide +kernel
  have later : ((broadcastAtRendezvous.step.registry 0).find? ⟨0, ⟨0⟩⟩).map (fun c =>
      (c.capacity, c.queue.items)) = some (0, [7]) := by decide +kernel
  obtain ⟨c, found, holds⟩ := Option.map_eq_some_iff.1 before
  obtain ⟨c', after, holds'⟩ := Option.map_eq_some_iff.1 later
  obtain ⟨capacity, items⟩ := Prod.mk.inj holds
  obtain ⟨capacity', items'⟩ := Prod.mk.inj holds'
  have bounded := (occupancy_bounded (arises.follows .step)).1 0 ⟨0, ⟨0⟩⟩ c' after
  refine ⟨c, c', found, capacity, after, items', bounded.2 capacity', ?_⟩
  rcases (occupancy_bounded arises).2 _ 0 ⟨0, ⟨0⟩⟩ c' .step after with
    ⟨gone, -⟩ | ⟨d, found', comes⟩
  · cases found.symm.trans gone
  · cases found.symm.trans found'
    rcases comes capacity with kept | ⟨-, handsOver⟩
    · rw [items, items'] at kept
      exact absurd kept (by decide)
    · exact handsOver

end Executor

end MessageBus
