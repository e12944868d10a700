import MessageBus.Proofs.Answers
import MessageBus.Proofs.Streams.Drops
import MessageBus.Proofs.Successions

/-!
# A stream is a loop of receives

A stream is followed from the step that makes it: it is known which channel was open under its
handle then, what its polls came to, and what a loop of receives from that channel would have come
to at the same moments (`Subscription`). The loop is a task of its own, which is put in the place of
the one that has the stream whenever that looks for the next item.

Poll by poll the stream comes to what the loop comes to, and does to the bus what the loop does. The
instruction that waits for an item is told what the poll came to. The place of the stream is that of
the receive that the loop is in. Once the channel is gone, the stream has ended for good
(`Executor.streams_are_loops`).
-/

namespace MessageBus

/-- What is seen of a stream of a task. -/
structure Subscription where
  bus : Nat
  handle : Handle
  /-- The identity of the channel that was open under the handle when the stream was made. -/
  id : Option ChannelId
  /-- The task that receives from this channel, in a loop; `none` when the loop is over. -/
  loop : Option Task
  /-- What the polls of the stream came to, the latest first. -/
  yields : List Yield := []
  /-- What the polls of the loop came to at the same moments. -/
  receipts : List Yield := []
  /-- The places that the stream had after its polls. -/
  taken : List Place := []

namespace Subscription

/-- What is known of a stream when it is made. -/
def made (x : Executor) (b : Nat) (h : Handle) : Subscription :=
  let id := ((x.registry b).resolve h).toOption.map (·.id)
  { bus := b, handle := h, id, loop := id.map fun id => .receiver b ⟨h, id⟩ none }

/-- What is known of a stream after it is polled in the next step. -/
def poll (σ : Subscription) (x : Executor) (t : Nat) : Subscription :=
  let received := σ.loop.map fun loop => (x.standIn t loop).step
  { σ with
    loop := received.bind fun y => if y.yield? = some .ended then none else y.tasks[t]?
    yields := x.step.yield?.toList ++ σ.yields
    receipts := (received.elim (some .ended) (·.yield?)).toList ++ σ.receipts
    taken := ((x.step.streamOf t).bind (·.place)).toList ++ σ.taken }

/-- Whether there is nothing more to come, by what the stream was made from and what it gave. -/
def isOver (σ : Subscription) : Bool := σ.id.isNone || σ.yields.contains .ended

/-- What is known of a stream fits it. -/
structure Fits (σ : Subscription) (x : Executor) (s : Stream) : Prop where
  bus : s.bus = σ.bus
  handle : s.handle = σ.handle
  /-- The loop is in a receive from the same channel, at the same place. -/
  loop : σ.loop = s.id.map fun id => .receiver s.bus ⟨s.handle, id⟩ s.place
  yields : σ.yields = σ.receipts
  pending : s.place.isSome = true ↔ σ.yields.head? = some .pending
  known : ∀ id, s.id = some id → σ.id = some id ∧ .ended ∉ σ.yields
  ended : s.id = none → s.place = none ∧ ∀ id, σ.id = some id →
    .ended ∈ σ.yields ∧ (x.registry σ.bus).find? ⟨σ.handle, id⟩ = none
  issued : ∀ id, σ.id = some id → id.number < (x.registry σ.bus).nextId
  holds : ∀ p, s.place = some p → p ∈ σ.taken
  taken : ∀ p ∈ σ.taken, p.ticket.number < (x.registry σ.bus).nextTicket ∧
    ((x.registry σ.bus).isQueued p = true → s.place = some p)

theorem Fits.later {σ : Subscription} {x y : Executor} {s : Stream} (fits : σ.Fits x s)
    (later : (x.registry σ.bus).Succeeds (y.registry σ.bus)) : σ.Fits y s where
  bus := fits.bus
  handle := fits.handle
  loop := fits.loop
  yields := fits.yields
  pending := fits.pending
  known := fits.known
  ended past := by
    obtain ⟨free, gone⟩ := fits.ended past
    exact ⟨free, fun id same => ⟨(gone id same).1,
      later.find?_eq_none (gone id same).2 (fits.issued id same)⟩⟩
  issued id same := Nat.lt_of_lt_of_le (fits.issued id same) later.precedes.nextId_le
  holds := fits.holds
  taken p member := by
    obtain ⟨issued, queued⟩ := fits.taken p member
    exact ⟨Nat.lt_of_lt_of_le issued later.issues,
      fun after => queued (later.queued p issued after)⟩

end Subscription

/-- What is seen of the streams of a task: the one that it made last, and the one that it has. -/
structure Subscriptions where
  made : Option Subscription := none
  current : Option Subscription := none

/-- The handle of the stream that a task is about to make, with its bus. -/
def Task.opening? (task : Task) : Option (Nat × Handle) :=
  match task.progress, task.current? with
  | .fresh, some ⟨b, .stream h⟩ => some (b, h)
  | _, _ => none

namespace Executor

/-- The handle of the stream that a task makes in the next step, with its bus. -/
def opening? (x : Executor) (t : Nat) : Option (Nat × Handle) :=
  match x.stack with
  | .proceed w :: _ => if w.task = t then (x.tasks[t]?).bind (·.opening?) else none
  | _ => none

/-- What is seen of the streams of a task after the next step. -/
def subscriptionsOfStep (x : Executor) (t : Nat) (S : Subscriptions) : Subscriptions where
  made := ((x.opening? t).map fun made => .made x made.1 made.2).orElse fun _ => S.made
  current :=
    if x.adopts t then S.made
    else if x.step.streamOf t = none then none
    else if x.pollsStream t then S.current.map (·.poll x t)
    else S.current

/-- The runs in which the streams of a task are followed. -/
inductive Subscribed (u : Usage) (t : Nat) : Executor → Subscriptions → Prop where
  | new (inline : Bool) : Subscribed u t (new inline) {}
  | step {x : Executor} {S : Subscriptions} (subscribed : Subscribed u t x S) :
    Subscribed u t x.step (x.subscriptionsOfStep t S)
  | ask {x : Executor} {S : Subscriptions} {s : Step} (subscribed : Subscribed u t x S)
      (idle : x.stack = []) (lawful : s.Lawful u x.buses.length) :
    Subscribed u t ({ x with log := [], answer := none }.ask s) S

variable {u : Usage} {x y : Executor} {t b : Nat} {S : Subscriptions} {σ : Subscription}
  {s : Stream} {p : Place} {w : Waker} {task : Task} {rest : List Frame} {f : Frame}

theorem Subscribed.reachable (subscribed : Subscribed u t x S) : x.Reachable u := by
  induction subscribed with
  | new inline => exact reachable_new u inline
  | step _ ih => exact ih.next .step
  | ask _ idle lawful ih => exact ih.next (.ask idle lawful)

/-- In every run the streams of a task can be followed. -/
theorem Reachable.exists_subscribed (reachable : x.Reachable u) (t : Nat) :
    ∃ S, Subscribed u t x S := by
  obtain ⟨inline, run⟩ := reachable
  induction run with
  | refl => exact ⟨_, .new inline⟩
  | tail _ next ih =>
    obtain ⟨S, subscribed⟩ := ih
    cases next with
    | step => exact ⟨_, subscribed.step⟩
    | ask idle lawful => exact ⟨_, subscribed.ask idle lawful⟩

/-! ### Making a stream -/

theorem opening?_of_opens (opens : x.Opens w s) : x.opening? w.task = some (s.bus, s.handle) := by
  obtain ⟨rest, task, stack, found, fresh, current, -⟩ := opens
  rw [opening?, stack]
  simp only [if_pos, found, Option.bind_some, Task.opening?, fresh, current]

/-- What is known of a stream that is being made fits it. -/
theorem fits_of_opens (identified : (x.registry s.bus).Identified) (opens : x.Opens w s) :
    (Subscription.made x s.bus s.handle).Fits x s := by
  obtain ⟨-, -, -, -, -, -, known, free⟩ := opens
  refine ⟨rfl, rfl, ?_, rfl, ?_, fun id same => ⟨known.symm.trans same, List.not_mem_nil⟩,
    fun past => ⟨free, fun id same => ?_⟩, fun id same => ?_, fun p place => ?_,
    List.forall_mem_nil _⟩
  · rw [known, free]
    rfl
  · rw [free]
    simp [Subscription.made]
  · cases (known.symm.trans past).symm.trans same
  · have same : ((x.registry s.bus).resolve s.handle).toOption.map (·.id) = some id := same
    obtain ⟨a, resolved, rfl⟩ := Option.map_eq_some_iff.1 same
    rw [Registry.resolve, Registry.inspect] at resolved
    cases found : (x.registry s.bus).channel? s.handle with
    | none =>
      rw [found] at resolved
      cases resolved
    | some c =>
      rw [found] at resolved
      cases resolved
      exact identified.issued ⟨s.handle, c.id⟩ c (Registry.find?_of_channel? found)
  · cases free.symm.trans place

/-- A task whose stream is yet to be adopted does not make another. -/
theorem Sound.opening?_eq_none (sound : x.Sound u) (member : .adopt w s ∈ x.stack) :
    x.opening? w.task = none := by
  rw [opening?]
  split
  · rename_i w' rest stack
    by_cases own : w'.task = w.task
    · obtain ⟨task, below, rfl, turn⟩ := sound.inTurn stack rfl
      have later : .adopt w s ∈ below := by
        rw [stack] at member
        simpa using member
      exact absurd (own ▸ turn.below.leave_of_turn later rfl) turn.once
    · rw [if_neg own]
  · rfl

/-- The stream that a task adopts is its own after that. -/
theorem Sound.streamOf_of_adopt (sound : x.Sound u) (stack : x.stack = .adopt w s :: rest) :
    x.step.streamOf w.task = some s := by
  obtain ⟨task, below, -, turn⟩ := sound.inTurn stack rfl
  have adopted {stream : Option Stream}
      (tasks : x.step.tasks = x.tasks.modify w.task ({ · with stream })) :
      x.step.streamOf w.task = stream := by
    rw [streamOf, getElem?_of_modify tasks, turn.found, Option.map_some, if_pos rfl]
    rfl
  cases x.step_unfolds stack with
  | quiet _ quiet leads =>
    cases quiet with
    | replaces replaces _ =>
      cases replaces
      exact adopted leads.tasks
    | passes idle => exact idle.elim
    | replies _ prompt => exact prompt.elim
  | enters _ _ sequel leads =>
    cases sequel with
    | abandons forgets =>
      cases forgets with
      | stream replaces _ _ =>
        cases replaces
        exact adopted leads.tasks
  | fails errand failed _ _ _ _ => exact absurd failed (sound.carried errand)

/-! ### Polling it -/

/-- What is known of a stream that has ended goes on to fit it when it is polled. -/
theorem fits_poll_of_ended (reachable : x.Reachable u) (stack : x.stack = .proceed w :: rest)
    (found : x.tasks[w.task]? = some task) (atStream : task.IsAtStream)
    (stream : task.stream = some s) (known : s.id = none) (fits : σ.Fits x s) :
    x.step.streamOf w.task = some s ∧ (σ.poll x w.task).Fits x.step s := by
  have fits' := fits.later ((Next.step (u := u)).succeeds reachable σ.bus)
  have step := step_of_ended stack found atStream stream known
  obtain ⟨free, gone⟩ := fits'.ended known
  have loop : σ.loop = none := by rw [fits.loop, known]; rfl
  have same : x.step.streamOf w.task = some s := by
    rw [step, streamOf]
    show (x.tasks[w.task]?).bind _ = _
    rw [found]
    exact stream
  have yields : x.step.yield? = some .ended := by rw [step]; rfl
  refine ⟨same, ?_⟩
  rw [Subscription.poll, loop, same, Option.bind_some, free, yields]
  refine ⟨fits.bus, fits.handle, ?_, ?_, ?_, fun id is => ?_, fun _ => ⟨free, fun id is => ?_⟩,
    fits'.issued, fits'.holds, fits'.taken⟩
  · rw [known]
    rfl
  · exact congrArg (Yield.ended :: ·) fits.yields
  · simp [free]
  · cases known.symm.trans is
  · exact ⟨List.mem_cons_self, (gone id is).2⟩

/-- What is known of a stream with an identity goes on to fit it when it is polled: the poll comes
to what the next poll of the loop comes to, and leaves both at the same place. -/
theorem fits_poll_of_known {id : ChannelId} (reachable : x.Reachable u)
    (stack : x.stack = .proceed w :: rest) (found : x.tasks[w.task]? = some task)
    (atStream : task.IsAtStream) (stream : task.stream = some s) (known : s.id = some id)
    (fits : σ.Fits x s) :
    ∃ s', x.step.streamOf w.task = some s' ∧ (σ.poll x w.task).Fits x.step s' := by
  have sound := reachable.sound
  have later := (Next.step (u := u)).succeeds reachable σ.bus
  have fits' := fits.later later
  have faithful := reachable.arises.keepsTargets.faithful _ task found
  obtain ⟨y, place, polled⟩ := sound.polledStream stack found atStream stream known
    (faithful.fits_of_stream stream known)
  obtain ⟨same, going⟩ := fits.known id known
  have loop : σ.loop = some (.receiver s.bus ⟨s.handle, id⟩ s.place) := by
    rw [fits.loop, known]
    rfl
  have now : x.step.streamOf w.task =
      some ⟨s.bus, s.handle, if y = .ended then none else some id, place⟩ := by
    rw [streamOf, polled.keeps]
    rfl
  have receipt := polled.agrees.yield?.symm.trans polled.yields
  refine ⟨_, now, ?_⟩
  rw [Subscription.poll, loop, now, polled.yields]
  simp only [Option.map_some, Option.bind_some, Option.elim_some, receipt, polled.receives]
  refine ⟨fits.bus, fits.handle, ?_, ?_, ?_, fun id' is => ?_, fun past => ?_,
    fits'.issued, fun p is => ?_, fun p member => ?_⟩
  · by_cases ended : y = .ended <;> simp [ended]
  · exact congrArg (y :: ·) fits.yields
  · simpa using polled.pending
  · have going' : y ≠ .ended := by
      rintro rfl
      cases is
    simp only [if_neg going', Option.some.injEq] at is
    subst is
    exact ⟨same, by simp [going'.symm, going]⟩
  · have ended : y = .ended := by
      by_contra going'
      simp [going'] at past
    have gone := polled.ended.1 ended
    rw [fits.bus, fits.handle] at gone
    refine ⟨by simpa [ended] using polled.pending, fun id' is => ?_⟩
    cases same.symm.trans is
    exact ⟨by simp [ended], later.find?_eq_none gone (fits.issued id same)⟩
  · have is : place = some p := is
    simp [is]
  · rcases List.mem_append.1 member with new | old
    · have is : place = some p := Option.mem_toList.1 new
      have holds : x.step.placeOf (.stream w.task) = some (σ.bus, p) := by
        rw [placeOf_of_streamOf now, is, fits.bus]
        rfl
      exact ⟨sound.step.1.ticket_lt (mem_held_iff.2 ⟨_, mem_placesOf_of_placeOf holds⟩),
        fun _ => is⟩
    · obtain ⟨issued, queued⟩ := fits.taken p old
      exact ⟨Nat.lt_of_lt_of_le issued later.issues, fun after =>
        polled.leaves p (queued (later.queued p issued after)) (fits.bus ▸
          later.queued p issued after)⟩

/-- What is known of a stream goes on to fit it when it is polled. -/
theorem fits_poll (reachable : x.Reachable u) (stack : x.stack = .proceed w :: rest)
    (found : x.tasks[w.task]? = some task) (atStream : task.IsAtStream)
    (stream : task.stream = some s) (fits : σ.Fits x s) :
    ∃ s', x.step.streamOf w.task = some s' ∧ (σ.poll x w.task).Fits x.step s' := by
  cases known : s.id with
  | none => exact ⟨s, fits_poll_of_ended reachable stack found atStream stream known fits⟩
  | some id => exact fits_poll_of_known reachable stack found atStream stream known fits

/-! ### Runs -/

/-- What is known of the streams of a task fits them. -/
structure Tracks (x : Executor) (t : Nat) (S : Subscriptions) : Prop where
  made : ∀ w s, .adopt w s ∈ x.stack → w.task = t → ∃ σ, S.made = some σ ∧ σ.Fits x s
  current : ∀ s, x.streamOf t = some s → ∃ σ, S.current = some σ ∧ σ.Fits x s
  nothing : x.streamOf t = none → S.current = none

/-- What is known of a stream that is yet to be adopted fits it, from the step that makes it on. -/
theorem Tracks.made_step (tracks : x.Tracks t S) (reachable : x.Reachable u)
    (member : .adopt w s ∈ x.step.stack) (own : w.task = t) :
    ∃ σ, (x.subscriptionsOfStep t S).made = some σ ∧ σ.Fits x.step s := by
  have later (b : Nat) := (Next.step (u := u)).succeeds reachable b
  subst own
  rcases adopt_step member with before | opens
  · obtain ⟨σ, same, fits⟩ := tracks.made w s before rfl
    refine ⟨σ, ?_, fits.later (later σ.bus)⟩
    rw [subscriptionsOfStep, reachable.sound.opening?_eq_none before]
    exact same
  · refine ⟨.made x s.bus s.handle, ?_,
      (fits_of_opens (reachable.arises.identified s.bus) opens).later (later s.bus)⟩
    rw [subscriptionsOfStep, opening?_of_opens opens]
    rfl

theorem Tracks.step (tracks : x.Tracks t S) (reachable : x.Reachable u) :
    x.step.Tracks t (x.subscriptionsOfStep t S) := by
  have sound := reachable.sound
  have later (b : Nat) := (Next.step (u := u)).succeeds reachable b
  have made (w : Waker) (s : Stream) (member : .adopt w s ∈ x.step.stack) (own : w.task = t) :
      ∃ σ, (x.subscriptionsOfStep t S).made = some σ ∧ σ.Fits x.step s :=
    tracks.made_step reachable member own
  have keeps (current : (x.subscriptionsOfStep t S).current = S.current)
      (same : x.step.streamOf t = x.streamOf t) : x.step.Tracks t (x.subscriptionsOfStep t S) := by
    refine ⟨made, fun s has => ?_, fun nothing => ?_⟩
    · obtain ⟨σ, known, fits⟩ := tracks.current s (same ▸ has)
      exact ⟨σ, current.trans known, fits.later (later σ.bus)⟩
    · exact current.trans (tracks.nothing (same ▸ nothing))
  have loses (away : x.adopts t = false) (lost : x.step.streamOf t = none) :
      x.step.Tracks t (x.subscriptionsOfStep t S) := by
    refine ⟨made, fun s has => absurd (has.symm.trans lost) (Option.some_ne_none s), fun _ => ?_⟩
    simp [subscriptionsOfStep, away, lost]
  cases sound.stream_goes t with
  | kept away silent same =>
    by_cases lost : x.step.streamOf t = none
    · exact loses away lost
    · exact keeps (by simp [subscriptionsOfStep, away, lost, silent]) same
  | polled away polled =>
    by_cases lost : x.step.streamOf t = none
    · exact loses away lost
    obtain ⟨w, rest, task, stack, rfl, found, atStream⟩ := pollsStream_iff.1 polled
    cases stream : task.stream with
    | none =>
      -- Without a stream there is nothing to look at.
      refine absurd ?_ lost
      rw [step_of_atStream stack found atStream, pollStream, stream]
      show (x.tasks[w.task]?).bind _ = _
      rw [found]
      exact stream
    | some s =>
      have has : x.streamOf w.task = some s := by rw [streamOf, found]; exact stream
      obtain ⟨σ, known, fits⟩ := tracks.current s has
      obtain ⟨s', now, fits'⟩ := fits_poll reachable stack found atStream stream fits
      refine ⟨made, fun s'' has' => ?_, fun nothing => absurd nothing lost⟩
      cases now.symm.trans has'
      exact ⟨_, by simp [subscriptionsOfStep, away, lost, polled, known], fits'⟩
  | dropped gone _ =>
    cases adopts : x.adopts t with
    | false =>
      rw [adopts] at gone
      exact loses adopts (gone.resolve_left Bool.false_ne_true)
    | true =>
      rw [Executor.adopts] at adopts
      split at adopts
      · rename_i w s rest stack
        obtain rfl : w.task = t := of_decide_eq_true adopts
        have now := sound.streamOf_of_adopt stack
        obtain ⟨σ, known, fits⟩ := tracks.made w s (stack ▸ List.mem_cons_self) rfl
        refine ⟨made, fun s' has => ?_,
          fun nothing => absurd (now.symm.trans nothing) (Option.some_ne_none s)⟩
        cases now.symm.trans has
        refine ⟨σ, ?_, fits.later (later σ.bus)⟩
        have adopts : x.adopts w.task = true := by rw [Executor.adopts, stack]; exact adopts
        rw [subscriptionsOfStep, if_pos adopts, known]
      · cases adopts

theorem streamOf_ask (sound : x.Sound u) (idle : x.stack = []) {s : Step}
    (lawful : s.Lawful u x.buses.length) : (x.ask s).streamOf t = x.streamOf t := by
  cases found : x.tasks[t]? with
  | some task =>
    rw [streamOf, streamOf, found]
    rcases sound.kept_ask idle lawful found with same | ended
    · rw [same]
    · rw [ended]
      rfl
  | none =>
    have nothing : x.streamOf t = none := by rw [streamOf, found]; rfl
    rw [nothing, streamOf]
    cases found' : (x.ask s).tasks[t]? with
    | none => rfl
    | some task =>
      rcases ask_task found' with ⟨_, before, -⟩ | ⟨-, none⟩
      · cases found.symm.trans before
      · exact none

theorem Subscribed.tracks (subscribed : Subscribed u t x S) : x.Tracks t S := by
  induction subscribed with
  | new inline =>
    exact ⟨fun w s member => (nomatch member), fun s has => (nomatch has), fun _ => rfl⟩
  | step subscribed ih => exact ih.step subscribed.reachable
  | @ask x S s subscribed idle lawful ih =>
    have same := streamOf_ask (t := t) subscribed.reachable.sound.cleared idle lawful
    have later := fun b => (Next.ask idle lawful).succeeds subscribed.reachable b
    refine ⟨fun w s member => ?_, fun s has => ?_, fun nothing => ih.nothing (same ▸ nothing)⟩
    · have before : .adopt w s ∈ ({ x with log := [], answer := none } : Executor).stack :=
        adopt_ask member
      rw [show ({ x with log := [], answer := none } : Executor).stack = [] from idle] at before
      cases before
    · obtain ⟨σ, known, fits⟩ := ih.current s (same ▸ has)
      exact ⟨σ, known, fits.later (later σ.bus)⟩

/-! ### Streams and loops -/

/-- How the next poll of a stream goes beside its loop of receives. Once the loop is over, the poll
comes to the end and does nothing else; else it does what the next poll of the loop does, but that
a failure is recorded. -/
inductive PollsAlike (x : Executor) (t : Nat) (w : Waker) (rest : List Frame) :
    Option Task → Prop where
  | past (same : x.step = { x with stack := .receive w none :: rest }) : PollsAlike x t w rest none
  | receives {loop : Task} {y : Yield} (yields : x.step.yield? = some y)
      (agrees : x.step.Agrees (x.standIn t loop).step)
      (slot : x.step.lastError =
        if y = .ended then BusError.noSuchChannel.code else x.lastError) :
    PollsAlike x t w rest (some loop)

/-- A stream beside the loop of receives from the channel from which it was made. -/
structure IsLoop (x : Executor) (t : Nat) (σ : Subscription) : Prop where
  /-- Poll by poll it came to what the loop came to. -/
  yields : σ.yields = σ.receipts
  /-- So it does in the next poll, in which it does to the bus what the loop would do. -/
  polls : ∀ w rest task, x.stack = .proceed w :: rest → w.task = t → x.tasks[t]? = some task →
    task.IsAtStream → x.PollsAlike t w rest σ.loop
  /-- The instruction that waits for an item is told what the poll came to. -/
  told : ∀ w rest task, x.stack = .proceed w :: rest → w.task = t → x.tasks[t]? = some task →
    task.IsAtStream → ∃ y, x.step.yield? = some y ∧ x.Hears w task y
  /-- It is at the place at which the loop is. -/
  place : x.placeOf (.stream t) = σ.loop.bind (·.callPlace)
  inFlight : x.placeOf (.stream t) ≠ none ↔ σ.yields.head? = some .pending
  /-- Of all the places that it ever had, at most one is in a line. -/
  entry : (((x.registry σ.bus).waiting.map (·.1)).filter (· ∈ σ.taken)).length ≤ 1
  taken : ∀ b p, x.placeOf (.stream t) = some (b, p) → b = σ.bus ∧ p ∈ σ.taken
  /-- A poll finds the end exactly if the channel from which the stream was made is gone, or there
  was none. -/
  ends : x.pollsStream t = true → (x.step.yield? = some .ended ↔
    ∀ id, σ.id = some id → (x.registry σ.bus).find? ⟨σ.handle, id⟩ = none)
  past : σ.isOver = true → σ.loop = none
  /-- Whether it has ended is what a task is told that asks. -/
  terminated : ∀ w rest task b, x.stack = .proceed w :: rest → w.task = t →
    x.tasks[t]? = some task → task.progress = .fresh → task.current? = some ⟨b, .hasEnded⟩ →
      x.step = { x with stack := .complete (.task w) (.plain (.flag σ.isOver)) :: rest }
  /-- When it is dropped, its receive is given up. -/
  drops : x.adopts t = true ∨ x.step.streamOf t = none →
    x.placeOf (.stream t) = none ∧ x.step.buses = x.buses ∨
      ∃ p, x.placeOf (.stream t) = some (σ.bus, p) ∧ p.side = .receivers ∧
        p.address.handle = σ.handle ∧ σ.id = some p.address.id ∧ x.GivesUp σ.bus p

theorem isOver_iff (fits : σ.Fits x s) : σ.isOver = true ↔ s.id = none := by
  rw [Subscription.isOver, Bool.or_eq_true, Option.isNone_iff_eq_none, List.contains_iff_mem]
  constructor
  · intro past
    cases known : s.id with
    | none => rfl
    | some id =>
      obtain ⟨same, going⟩ := fits.known id known
      rcases past with none | ended
      · cases none.symm.trans same
      · exact absurd ended going
  · intro ended
    cases known : σ.id with
    | none => exact .inl rfl
    | some id => exact .inr ((fits.ended ended).2 id known).1

/-- At most one of the places that a stream ever had is in a line: the one that it has. -/
theorem length_taken_le (sound : x.Sound u) (fits : σ.Fits x s) :
    (((x.registry σ.bus).waiting.map (·.1)).filter (· ∈ σ.taken)).length ≤ 1 := by
  have only (p : Place)
      (member : p ∈ ((x.registry σ.bus).waiting.map (·.1)).filter (· ∈ σ.taken)) :
      s.place = some p := by
    obtain ⟨there, taken⟩ := List.mem_filter.1 member
    exact (fits.taken p (of_decide_eq_true taken)).2 (Registry.isQueued_iff_mem_waiting.2 there)
  have single := ((sound.nodup_waiting σ.bus).of_map).filter (· ∈ σ.taken)
  generalize ((x.registry σ.bus).waiting.map (·.1)).filter (· ∈ σ.taken) = entries at only single
  rcases entries with _ | ⟨p, _ | ⟨p', later⟩⟩
  · exact Nat.zero_le 1
  · exact Nat.le_refl 1
  · have first := only p List.mem_cons_self
    have second := only p' (List.mem_cons_of_mem _ List.mem_cons_self)
    cases first.symm.trans second
    exact absurd List.mem_cons_self (List.nodup_cons.1 single).1

section

variable (sound : x.Sound u) (fits : σ.Fits x s)
  (fitting : ∀ id, s.id = some id → ∀ p ∈ s.place, (Request.recv ⟨s.handle, id⟩).Fits p)

include sound fits fitting

theorem pollsAlike_of_fits (stack : x.stack = .proceed w :: rest)
    (found : x.tasks[w.task]? = some task) (atStream : task.IsAtStream)
    (stream : task.stream = some s) : x.PollsAlike w.task w rest σ.loop := by
  rw [fits.loop]
  cases known : s.id with
  | none => exact .past (step_of_ended stack found atStream stream known)
  | some id =>
    obtain ⟨y, place, polled⟩ :=
      sound.polledStream stack found atStream stream known (fitting id known)
    exact .receives polled.yields polled.agrees polled.slot

theorem yield?_eq_ended_iff (stack : x.stack = .proceed w :: rest)
    (found : x.tasks[w.task]? = some task) (atStream : task.IsAtStream)
    (stream : task.stream = some s) : x.step.yield? = some .ended ↔
      ∀ id, σ.id = some id → (x.registry σ.bus).find? ⟨σ.handle, id⟩ = none := by
  cases known : s.id with
  | none =>
    rw [step_of_ended stack found atStream stream known]
    exact ⟨fun _ id same => ((fits.ended known).2 id same).2, fun _ => rfl⟩
  | some id =>
    obtain ⟨y, place, polled⟩ :=
      sound.polledStream stack found atStream stream known (fitting id known)
    obtain ⟨same, -⟩ := fits.known id known
    rw [polled.yields, Option.some.injEq, polled.ended, same, fits.bus, fits.handle]
    exact ⟨fun gone id' is => Option.some.inj is ▸ gone, fun gone => gone id rfl⟩

/-- What is left of a stream that is dropped is its place, if it has one, and that is given up. -/
theorem givesUp_of_leaves (has : x.streamOf t = some s) (leaves : x.LeavesStream t) :
    x.placeOf (.stream t) = none ∧ x.step.buses = x.buses ∨
      ∃ p, x.placeOf (.stream t) = some (σ.bus, p) ∧ p.side = .receivers ∧
        p.address.handle = σ.handle ∧ σ.id = some p.address.id ∧ x.GivesUp σ.bus p := by
  cases leaves with
  | free none buses => exact .inl ⟨none, buses⟩
  | @place b p holds errand =>
    have held := (placeOf_of_streamOf has).symm.trans holds
    obtain ⟨p', place, same⟩ := Option.map_eq_some_iff.1 held
    cases same
    cases known : s.id with
    | none => cases (fits.ended known).1.symm.trans place
    | some id =>
      obtain ⟨side, address⟩ := fitting id known p place
      have address := address _ rfl
      obtain ⟨same, -⟩ := fits.known id known
      refine .inr ⟨p, fits.bus ▸ holds, side, ?_, ?_, fits.bus ▸ sound.givesUp errand⟩
      · rw [address, fits.handle]
      · rw [address, same]

end

/-- In every run a stream is a loop of receives from the channel that was open under its handle when
it was made, and stays ended. -/
theorem streams_are_loops (subscribed : Subscribed u t x S) :
    (x.streamOf t = none ↔ S.current = none) ∧ ∀ σ, S.current = some σ → x.IsLoop t σ := by
  have tracks := subscribed.tracks
  have reachable := subscribed.reachable
  have sound := reachable.sound
  refine ⟨⟨tracks.nothing, fun nothing => ?_⟩, fun σ current => ?_⟩
  · cases has : x.streamOf t with
    | none => rfl
    | some s =>
      obtain ⟨σ, known, -⟩ := tracks.current s has
      cases nothing.symm.trans known
  obtain ⟨s, has⟩ : ∃ s, x.streamOf t = some s := by
    cases has : x.streamOf t with
    | none => cases (tracks.nothing has).symm.trans current
    | some s => exact ⟨s, rfl⟩
  obtain ⟨σ', same, fits⟩ := tracks.current s has
  cases current.symm.trans same
  have placeOf := placeOf_of_streamOf has
  have stream {task : Task} (found : x.tasks[t]? = some task) : task.stream = some s := by
    rw [streamOf, found] at has
    exact has
  have fitting (id : ChannelId) (known : s.id = some id) :
      ∀ p ∈ s.place, (Request.recv ⟨s.handle, id⟩).Fits p := by
    obtain ⟨task, found, stream'⟩ := Option.bind_eq_some_iff.1 has
    exact (reachable.arises.keepsTargets.faithful t task found).fits_of_stream stream' known
  constructor
  case yields => exact fits.yields
  case polls =>
    rintro w rest task stack rfl found atStream
    exact pollsAlike_of_fits sound fits fitting stack found atStream (stream found)
  case told =>
    rintro w rest task stack rfl found atStream
    obtain ⟨y, yields⟩ := sound.exists_yield stack found atStream (stream found) fitting
    exact ⟨y, yields, reachable.hears stack found atStream (stream found) yields⟩
  case place =>
    rw [placeOf, fits.loop]
    cases known : s.id with
    | none => rw [(fits.ended known).1]; rfl
    | some id => exact (Task.callPlace_receiver s.bus ⟨s.handle, id⟩ s.place).symm
  case inFlight =>
    rw [placeOf, ← fits.pending]
    cases s.place <;> simp
  case entry => exact length_taken_le sound fits
  case taken =>
    intro b p holds
    rw [placeOf] at holds
    obtain ⟨p', place, same⟩ := Option.map_eq_some_iff.1 holds
    cases same
    exact ⟨fits.bus, fits.holds p place⟩
  case ends =>
    intro polls
    obtain ⟨w, rest, task, stack, rfl, found, atStream⟩ := pollsStream_iff.1 polls
    exact yield?_eq_ended_iff sound fits fitting stack found atStream (stream found)
  case past =>
    intro past
    rw [fits.loop, (isOver_iff fits).1 past]
    rfl
  case terminated =>
    rintro w rest task b stack rfl found fresh current
    have found' : ({ x with stack := rest } : Executor).tasks[w.task]? = some task := found
    have flag : s.id.isNone = σ.isOver := by
      rw [Bool.eq_iff_iff, isOver_iff fits, Option.isNone_iff_eq_none]
    rw [step_of_stack_cons stack, perform, withTask_of_found found', proceed, fresh]
    simp only [current, start, stream found, flag]
    rfl
  case drops =>
    intro gone
    have lost (away : x.adopts t = false) : x.step.streamOf t = none :=
      gone.resolve_left fun adopts => Bool.false_ne_true (away.symm.trans adopts)
    cases sound.stream_goes t with
    | kept away silent same => cases (has.symm.trans same.symm).trans (lost away)
    | polled away polled =>
      obtain ⟨w, rest, task, stack, rfl, found, atStream⟩ := pollsStream_iff.1 polled
      obtain ⟨s', now, -⟩ := fits_poll reachable stack found atStream (stream found) fits
      cases now.symm.trans (lost away)
    | dropped _ leaves => exact givesUp_of_leaves sound fits fitting has leaves

/-! ### Scripts -/

/-- What is seen of the streams of a task while small steps are taken, no more than `fuel`. -/
def subscriptionsWhile : Nat → Executor → Nat → Subscriptions → Subscriptions
  | 0, _, _, S => S
  | fuel + 1, x, t, S =>
    if x.stack.isEmpty then S else subscriptionsWhile fuel x.step t (x.subscriptionsOfStep t S)

/-- What is seen of the streams of a task in a script. -/
def subscriptionsOfScript (x : Executor) (t : Nat) (S : Subscriptions) : List Step → Subscriptions
  | [] => S
  | s :: rest =>
    let asked := { x with log := [], answer := none }.ask s
    (x.carryOut s).subscriptionsOfScript t (subscriptionsWhile asked.enough asked t S) rest

theorem Subscribed.settle (subscribed : Subscribed u t x S) (fuel : Nat) :
    Subscribed u t (settle fuel x) (subscriptionsWhile fuel x t S) := by
  induction fuel generalizing x S with
  | zero => exact subscribed
  | succ fuel ih =>
    rw [settle_succ, subscriptionsWhile]
    split
    · exact subscribed
    · exact ih subscribed.step

theorem Subscribed.runScript (subscribed : Subscribed u t x S) {script : List Step}
    (obeys : x.Obeys u script) :
    Subscribed u t (x.runScript script).1 (x.subscriptionsOfScript t S script) := by
  induction script generalizing x S with
  | nil => exact subscribed
  | cons s rest ih =>
    obtain ⟨idle, lawful, later⟩ := obeys
    exact ih ((subscribed.ask (List.isEmpty_iff.1 idle) lawful).settle _) later

/-- A stream gives an item and waits for the next one when its channel is closed. Another channel is
opened under the handle, and the task goes on to receive from that one. -/
def streamOutlived : List Step :=
  [.act 0 (.operate (.openChannel 1)),
    .spawn [⟨0, .stream 0⟩, ⟨0, .next⟩, ⟨0, .next⟩, ⟨0, .next⟩, ⟨0, .hasEnded⟩,
      ⟨0, .call (.recv 0)⟩, ⟨0, .call (.recv 0)⟩] false,
    .run none, .act 0 (.operate (.trySend 0 7)), .run none, .act 0 (.operate (.close 0)),
    .act 0 (.operate (.openChannel 1)), .act 0 (.operate (.trySend 0 9)), .run none]

theorem stream_ends_with_its_channel : ∃ σ,
    Subscribed .full 0 ((new false).runScript streamOutlived).1 σ ∧
      ((((new false).runScript streamOutlived).1.streamOf 0 = none ↔ σ.current = none) ∧
        ∀ σ', σ.current = some σ' → ((new false).runScript streamOutlived).1.IsLoop 0 σ') ∧
      σ.current.map (fun σ' => (σ'.id, σ'.yields, σ'.receipts, σ'.taken.map (·.ticket))) =
        some (some ⟨0⟩, [.ended, .ended, .pending, .item 7, .pending],
          [.ended, .ended, .pending, .item 7, .pending], [⟨1⟩, ⟨0⟩]) := by
  have obeys : (new false).Obeys .full streamOutlived := by decide +kernel
  have subscribed := (Subscribed.new (u := .full) (t := 0) false).runScript obeys
  exact ⟨_, subscribed, streams_are_loops subscribed, by decide +kernel⟩

end Executor

end MessageBus
