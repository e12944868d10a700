import MessageBus.Proofs.Gone
import MessageBus.Proofs.ParkOrder
import MessageBus.Proofs.WaitEntries.Errands

/-!
# The end of a channel

Closing a channel, or deleting all, is one atomic change that frees the slots and takes out whoever
waits there. Only then are those callers woken, one after the other: by ascending handle, at each
channel the receivers before the senders, and on each side in the order in which they parked.

From then on the channels are found nowhere, also if their handles are given out again. So whoever
waited there, still in line or called before, learns of it as soon as its task goes on.
-/

namespace MessageBus

namespace Operation

variable {ω : Type} {op : Operation} {r : Registry ω} {h : Handle} {c : Channel ω}

/-- The operations that end channels. -/
inductive IsEnd : Operation → Prop where
  | close (h : Handle) : IsEnd (.close h)
  | delete : IsEnd .delete

/-- The channels that an operation ends, by ascending handle. -/
def ended (op : Operation) (r : Registry ω) : List (Handle × Channel ω) :=
  match op with
  | .close h => (r.channel? h).toList.map (h, ·)
  | .delete => r.entries
  | _ => []

/-- The wakers of all who wait at the channels that an operation ends. -/
def released (op : Operation) (r : Registry ω) : List ω :=
  (op.ended r).flatMap fun (_, c) => (c.receivers.waiters ++ c.senders.waiters).map (·.waker)

theorem channel?_of_mem_ended (ended : (h, c) ∈ op.ended r) : r.channel? h = some c := by
  cases op with
  | close h' =>
    obtain ⟨d, found, same⟩ := List.mem_map.1 ended
    cases same
    exact Option.mem_toList.1 found
  | delete => exact Registry.mem_entries_iff.1 ended
  | _ => cases ended

theorem ascending_ended (op : Operation) (r : Registry ω) :
    ((op.ended r).map (·.1)).Pairwise (· < ·) := by
  cases op with
  | close h =>
    rw [ended]
    cases r.channel? h with
    | none => exact .nil
    | some c => exact List.pairwise_singleton _ _
  | delete => exact r.ascending_entries
  | _ => exact .nil

theorem channel?_close_iff : (r.close h).state.channel? h' = some c ↔
    r.channel? h' = some c ∧ (h', c) ∉ (close h).ended r := by
  rw [Registry.channel?_close]
  constructor
  · intro there
    split at there
    · cases there
    · rename_i other
      refine ⟨there, fun ended => ?_⟩
      obtain ⟨d, -, same⟩ := List.mem_map.1 ended
      cases same
      exact other rfl
  · rintro ⟨there, stays⟩
    rw [if_neg, there]
    rintro rfl
    exact stays (List.mem_map.2 ⟨c, Option.mem_toList.2 there, rfl⟩)

/-- An operation that ends channels leaves the others, and wakes whoever waits at those. -/
theorem apply_of_isEnd (isEnd : op.IsEnd) (r : Registry ω) :
    ∃ o, op.apply r = .ok o ∧ o.woken = op.released r ∧
      ∀ h c, o.state.channel? h = some c ↔ r.channel? h = some c ∧ (h, c) ∉ op.ended r := by
  have close (c : Channel ω) :
      c.close = (c.receivers.waiters ++ c.senders.waiters).map (·.waker) :=
    List.map_append.symm
  cases isEnd with
  | close h =>
    refine ⟨_, rfl, ?_, fun h' c' => channel?_close_iff⟩
    simp only [Outcome.woken_map, Registry.close, released, ended]
    cases r.channel? h with
    | none => rfl
    | some c => exact (close c).trans (List.append_nil _).symm
  | delete =>
    refine ⟨_, rfl, ?_, fun h c => ?_⟩
    · simp only [Outcome.woken_map, Registry.delete, released, ended, ← Registry.map_snd_entries,
        List.flatMap_map, close]
    · constructor
      · intro remains
        cases remains
      · rintro ⟨there, stays⟩
        exact absurd (Registry.mem_entries_iff.2 there) stays

end Operation

namespace Executor

variable {u : Usage} {x y z : Executor} {b t : Nat} {op : Operation} {w : Waker}
  {wakers later : List Waker} {rest : List Frame}

/-! ### The operation, and the calls that it owes -/

/-- An operation on a bus is carried out, in a step of a task or from outside. -/
inductive CarriesOut (x : Executor) (b : Nat) (op : Operation) : Executor → Prop where
  | step (errand : x.errand? = some (b, .operate op)) : CarriesOut x b op x.step
  | ask (idle : x.stack = []) (inside : b < x.buses.length) :
    CarriesOut x b op ({ x with log := [], answer := none }.ask (.act b (.operate op)))

theorem CarriesOut.next (carries : x.CarriesOut b op y) : x.Next u y := by
  cases carries with
  | step _ => exact .step
  | ask idle inside => exact .ask (s := .act b (.operate op)) idle inside

/-- The bus is entered, and what is owed to others is done before anything else. -/
theorem CarriesOut.leads (carries : x.CarriesOut b op y) (sound : x.Sound u)
    {o : Outcome (Registry Waker) Waker Reply} (ran : op.apply (x.registry b) = .ok o) :
    b < x.buses.length ∧ y.buses = x.buses.set b ⟨o.state, true⟩ ∧ y.tasks = x.tasks ∧
      ∃ notes rest, y.stack = .release b :: .wake o.woken :: .tell notes :: rest := by
  cases carries with
  | step errand =>
    cases stack : x.stack with
    | nil =>
      rw [errand?, stack] at errand
      cases errand
    | cons f rest =>
      obtain ⟨_, _, _, _, carried, sequel, leads⟩ := sound.enters stack errand
      cases sequel with
      | operates _ _ _ ran' =>
        cases ran.symm.trans ran'
        exact ⟨inside_of_carried carried, leads.buses, leads.tasks.trans (List.modify_id _ _),
          _, _, leads.stack⟩
  | ask idle inside =>
    let cleared : Executor := { x with log := [], answer := none }
    cases cleared.asked_operation b op with
    | answers none _ _ => cases none
    | operates ran' _ leads =>
      cases ran.symm.trans ran'
      exact ⟨inside, leads.buses, leads.tasks, _, _, leads.stack⟩
    | fails failed _ _ _ =>
      exact absurd failed (sound.cleared.carried_of_free inside (sound.calm_of_idle idle b) _)

/-- Wakers are called in order, each once. After each call, whatever it sets off is done before the
next one is called. -/
inductive CallsEach (rest : List Frame) : List Waker → Executor → Prop where
  | done {x : Executor} (stack : x.stack = .wake [] :: rest) : CallsEach rest [] x
  | call {x : Executor} {w : Waker} {later : List Waker} {n : Nat}
      (stack : x.stack = .wake (w :: later) :: rest)
      (calls : wokenIn x.step.log = w :: wokenIn x.log)
      (returns : x.step.Returns (.wake later :: rest) n)
      (others : CallsEach rest later (settle n x.step)) : CallsEach rest (w :: later) x

/-- Calling a waker may put its task on the stack, above the wakers that are to be called later. -/
theorem step_wake (stack : x.stack = .wake (w :: later) :: rest) :
    wokenIn x.step.log = w :: wokenIn x.log ∧
      ∃ above, x.step.stack = above ++ .wake later :: rest := by
  have none : x.errand? = none := by rw [errand?, stack]
  cases x.step_unfolds stack with
  | quiet _ quiet _ =>
    cases quiet with
    | passes idle => cases idle
    | replies own _ => cases own
    | replaces replaces _ => cases replaces
  | polls _ _ _ leads calls => exact ⟨calls, [.poll ⟨w.task, 0⟩], leads.stack⟩
  | readies _ leads _ _ calls => exact ⟨calls, [], leads.stack⟩
  | enters errand _ _ _ => cases none.symm.trans errand
  | fails errand _ _ _ _ _ => cases none.symm.trans errand

theorem Reachable.callsEach (reachable : x.Reachable u) (stack : x.stack = .wake wakers :: rest) :
    CallsEach rest wakers x := by
  induction wakers generalizing x with
  | nil => exact .done stack
  | cons w later ih =>
    obtain ⟨calls, above, stack'⟩ := step_wake stack
    have reachable' := reachable.next .step
    obtain ⟨n, returns, -⟩ := exists_return reachable' stack'
    exact .call stack calls returns (ih (reachable'.settle n) returns.1)

/-! ### What becomes of those who waited -/

/-- A channel that was ended is not found in any continuation. -/
theorem Reachable.find?_eq_none {a : Address} {c : Channel Waker} (reachable : x.Reachable u)
    (next : x.Next u y) (found : (x.registry b).find? a = some c)
    (gone : (y.registry b).find? a = none) (run : Relation.ReflTransGen (Next u) y z) :
    (z.registry b).find? a = none := by
  have arises := reachable.arises
  obtain ⟨arises', first⟩ := arises.precedes (.single next.follows) b
  obtain ⟨-, second⟩ := arises'.precedes (follows_of_run run) b
  exact first.find?_eq_none second (arises.identified b) found gone rfl

/-- A call that waits is kept in a run until its task goes on. -/
theorem Reachable.keepsCall {task : Task} {q : Request} {p : Place} {recorded : Bool}
    (reachable : x.Reachable u) (found : x.tasks[t]? = some task)
    (calling : task.progress = .calling b q (some p) recorded)
    (run : Relation.ReflTransGen (Next u) x y) :
    KeepsUntil u x y t (·.progress = .calling b q (some p) recorded) fun z _ => z.Proceeds t :=
  reachable.keepsUntil (fun z _ => z.Proceeds t) found calling
    (fun _ _ reachable found alive calling =>
      reachable.sound.call_kept reachable.underway found alive calling) run

/-- A stream that has a receive in flight is kept in a run until it is looked at, or the place is
given up. -/
theorem Reachable.keepsStream {task : Task} {s : Stream} {p : Place} (reachable : x.Reachable u)
    (found : x.tasks[t]? = some task) (stream : task.stream = some s) (place : s.place = some p)
    (run : Relation.ReflTransGen (Next u) x y) :
    KeepsUntil u x y t (·.stream = some s) fun z task =>
      z.Proceeds t ∧ task.IsAtStream ∨ z.errand? = some (s.bus, .abandon p) :=
  reachable.keepsUntil
    (fun z task => z.Proceeds t ∧ task.IsAtStream ∨ z.errand? = some (s.bus, .abandon p))
    found stream (fun _ _ reachable found alive stream =>
      reachable.sound.stream_kept reachable.underway found alive stream place) run

/-! ### Everyone is released -/

/-- What becomes of the calls and streams that wait at the channels that an operation ended on the
bus `b`, in every continuation `z` of `y`. -/
structure Aftermath (u : Usage) (y : Executor) (b : Nat) (ended : List (Handle × Channel Waker))
    (z : Executor) : Prop where
  gone : ∀ h c, (h, c) ∈ ended → (z.registry b).find? ⟨h, c.id⟩ = none
  /-- A call stays at its place until its task goes on. -/
  keepCalls : ∀ (t : Nat) task q p recorded, y.tasks[t]? = some task →
    task.progress = .calling b q (some p) recorded →
    KeepsUntil u y z t (·.progress = .calling b q (some p) recorded) fun z' _ => z'.Proceeds t
  /-- If that is now, it finds the channel gone. -/
  calls : ∀ h c, (h, c) ∈ ended → ∀ w rest task q p recorded, z.stack = .proceed w :: rest →
    z.tasks[w.task]? = some task → task.progress = .calling b q (some p) recorded →
    p.address = ⟨h, c.id⟩ → z.FindsGone w task b rest q
  /-- A receive of a stream stays in flight until the stream is looked at or given up. -/
  keepStreams : ∀ (t : Nat) task s p, y.tasks[t]? = some task → task.stream = some s →
    s.place = some p →
    KeepsUntil u y z t (·.stream = some s) fun z' task =>
      z'.Proceeds t ∧ task.IsAtStream ∨ z'.errand? = some (s.bus, .abandon p)
  /-- If it is looked at now, it comes to its end. -/
  streams : ∀ h c, (h, c) ∈ ended → ∀ w rest task s p, z.stack = .proceed w :: rest →
    z.tasks[w.task]? = some task → task.IsAtStream → task.stream = some s → s.bus = b →
    s.place = some p → p.address = ⟨h, c.id⟩ →
    z.EndsIn 6 w task.position task.replyAtEnd ∧
      z.step.tasks[w.task]? =
        some { task with stream := some { s with id := none, place := none } }

/-- What an operation does that ends channels, from `x` to `y` and from then on. -/
structure ReleasesEveryone (u : Usage) (x y : Executor) (b : Nat) (op : Operation) : Prop where
  /-- The slots of those channels are free, and no other channel changes. -/
  closes : ∀ h c, (y.registry b).channel? h = some c ↔
    (x.registry b).channel? h = some c ∧ (h, c) ∉ op.ended (x.registry b)
  elsewhere : ∀ b', b' ≠ b → y.registry b' = x.registry b'
  tasks : y.tasks = x.tasks
  /-- The channels are in the order of their handles, and their lines in the order of parking. -/
  ascending : ((op.ended (x.registry b)).map (·.1)).Pairwise (· < ·)
  parkOrder : ∀ h c, (h, c) ∈ op.ended (x.registry b) → ∀ side,
    (c.tickets side).Pairwise (·.number < ·.number)
  /-- First the bus is given free, and then whoever waits there is woken. -/
  wakes : ∃ notes rest,
    y.stack = .release b :: .wake (op.released (x.registry b)) :: .tell notes :: rest ∧
      (∀ b', y.step.registry b' = y.registry b') ∧
      CallsEach (.tell notes :: rest) (op.released (x.registry b)) y.step
  continues : ∀ z, Relation.ReflTransGen (Next u) y z →
    Aftermath u y b (op.ended (x.registry b)) z

/-- Closing a channel, or deleting all, releases whoever waits there. -/
theorem ending_releases_everyone (reachable : x.Reachable u) (isEnd : op.IsEnd)
    (carries : x.CarriesOut b op y) : ReleasesEveryone u x y b op := by
  have next : x.Next u y := carries.next
  have reachable' := reachable.next next
  obtain ⟨o, ran, woken, closes⟩ := op.apply_of_isEnd isEnd (x.registry b)
  obtain ⟨inside, buses, tasks, notes, rest, stack⟩ := carries.leads reachable.sound ran
  have registry : y.registry b = o.state := registry_set_self inside buses
  rw [← registry] at closes
  rw [woken] at stack
  have found {h : Handle} {c : Channel Waker} (ended : (h, c) ∈ op.ended (x.registry b)) :
      (x.registry b).find? ⟨h, c.id⟩ = some c :=
    Registry.find?_of_channel? (Operation.channel?_of_mem_ended ended)
  refine
    { closes := closes
      elsewhere := fun b' other => registry_set_ne other buses
      tasks := tasks
      ascending := op.ascending_ended _
      parkOrder := fun h c ended side => reachable.inParkOrder b _ c side (found ended)
      wakes := ⟨notes, rest, stack, ?_, ?_⟩
      continues := fun z run => ?_ }
  · have released : y.step.buses = y.buses.modify b ({ · with inUse := false }) := by
      rw [step_of_stack_cons stack]
      rfl
    exact registry_modify released fun _ => rfl
  · refine (reachable'.next .step).callsEach ?_
    rw [step_of_stack_cons stack]
    rfl
  · have sound := (reachable'.run run).sound
    have gone (h : Handle) (c : Channel Waker) (ended : (h, c) ∈ op.ended (x.registry b)) :
        (z.registry b).find? ⟨h, c.id⟩ = none := by
      refine reachable.find?_eq_none next (found ended) ?_ run
      rw [Option.eq_none_iff_forall_ne_some]
      intro d there
      obtain ⟨before, stays⟩ := (closes h d).1 (Registry.find?_eq_some_iff.1 there).1
      cases (Operation.channel?_of_mem_ended ended).symm.trans before
      exact stays ended
    exact
      { gone := gone
        keepCalls := fun t task q p recorded found calling => reachable'.keepsCall found calling run
        calls := fun h c ended w rest task q p recorded stack found calling place =>
          sound.findsGone stack found calling (place ▸ gone h c ended)
        keepStreams := fun t task s p found stream place =>
          reachable'.keepsStream found stream place run
        streams := fun h c ended w rest task s p stack found atStream stream bus place address =>
          sound.stream_ends (reachable'.run run).arises stack found atStream stream place
            (address ▸ bus ▸ gone h c ended) }

/-- On a channel without slots a broadcast waits, which is called when a receiver comes, and then
the receiver, a stream and a sender. The other channel is full. -/
def waitAtHandoff : List Step :=
  [.act 0 (.operate (.openChannel 0)), .act 0 (.operate (.openChannel 1)),
    .act 0 (.operate (.trySend 1 9)), .spawn [⟨0, .call (.broadcast 1)⟩] false,
    .spawn [⟨0, .call (.recv 0)⟩] false, .spawn [⟨0, .stream 0⟩, ⟨0, .collect⟩] false,
    .spawn [⟨0, .call (.send 0 2)⟩] false, .run (some 4)]

def fourWait : Executor := ((new false).runScript waitAtHandoff).1

/-- The channel was closed just now. -/
def fourReleased : Executor :=
  { fourWait with log := [], answer := none }.ask (.act 0 (.operate (.close 0)))

/-- Its handle was given out again, and the tasks are ready. -/
def handleReopened : Executor :=
  settle 5 ({ settle 20 fourReleased with log := [], answer := none }.ask
    (.act 0 (.operate (.openChannel 3))))

/-- The receiver goes on. -/
def receiverProceeds : Executor :=
  settle 10 ({ handleReopened with log := [], answer := none }.ask (.run none))

/-- Those in line are woken in their order. The receiver is refused, although a channel is open
under its handle. -/
theorem close_releases_four : ReleasesEveryone .full fourWait fourReleased 0 (.close 0) ∧
    (Operation.close 0).released (fourWait.registry 0) = [⟨1, 0⟩, ⟨2, 0⟩, ⟨3, 0⟩] ∧
    ((receiverProceeds.registry 0).channel? 0).isSome = true ∧
    receiverProceeds.EndsIn 5 ⟨1, 0⟩ 0 (.refused .noSuchChannel) := by
  have obeys : (new false).Obeys .full waitAtHandoff := by decide +kernel
  have waiting : fourWait.Reachable .full := (reachable_new .full false).runScript obeys
  have idle : fourWait.stack.isEmpty = true := by decide +kernel
  have inside : 0 < fourWait.buses.length := by decide +kernel
  have releases : ReleasesEveryone .full fourWait fourReleased 0 (.close 0) :=
    ending_releases_everyone waiting (.close 0) (.ask (List.isEmpty_iff.1 idle) inside)
  have reopens : Relation.ReflTransGen (Next .full) fourReleased handleReopened := by
    have idle : (settle 20 fourReleased).stack.isEmpty = true := by decide +kernel
    have lawful : (Step.act 0 (.operate (.openChannel 3))).Lawful .full
        (settle 20 fourReleased).buses.length := by decide +kernel
    exact ((run_settle 20).tail (.ask (List.isEmpty_iff.1 idle) lawful)).trans (run_settle 5)
  have proceeds : Relation.ReflTransGen (Next .full) fourReleased receiverProceeds := by
    have idle : handleReopened.stack.isEmpty = true := by decide +kernel
    exact (reopens.tail (.ask (s := .run none) (List.isEmpty_iff.1 idle) trivial)).trans
      (run_settle 10)
  refine ⟨releases, by decide +kernel, by decide +kernel, ?_⟩
  obtain ⟨c, there, known⟩ :
      ∃ c, (fourWait.registry 0).channel? 0 = some c ∧ c.id = ⟨0⟩ := ⟨_, rfl, rfl⟩
  have ended : (0, c) ∈ (Operation.close 0).ended (fourWait.registry 0) :=
    List.mem_map.2 ⟨c, Option.mem_toList.2 there, rfl⟩
  have stack : receiverProceeds.stack = .proceed ⟨1, 0⟩ :: receiverProceeds.stack.tail := by rfl
  have found : receiverProceeds.tasks[1]? = some
      { program := [⟨0, .call (.recv 0)⟩]
        stopsOnError := false
        progress := .calling 0 (.recv ⟨0, ⟨0⟩⟩) (some ⟨⟨0, ⟨0⟩⟩, .receivers, ⟨1⟩⟩) true
        life := .running } := by decide +kernel
  have finds := (releases.continues _ proceeds).calls 0 c ended ⟨1, 0⟩ _ _ _ _ _ stack found rfl
    (by rw [known])
  cases finds with
  | fails _ ends => exact ends

end Executor

end MessageBus
