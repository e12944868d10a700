import MessageBus.Proofs.Queues

/-!
# The front of a queue

Of those who wait in one line, it is the first who goes on. Its place is not in the line any more,
so it leaves the queue, or parks again and is the last one from then on (`Executor.MovesOn`).
-/

namespace MessageBus.Executor

variable {u : Usage} {x y : Executor} {b : Nat} {a : Address} {side : Side} {s : Seat}
  {called queued : List Seat} {c d : Channel Waker} {p : Place} {w : Waker} {task task' : Task}
  {rest : List Frame} {later : List Nat} {t : Nat}

/-- What comes of it when the first of a queue goes on. -/
inductive MovesOn (x : Executor) (b : Nat) (a : Address) (side : Side) (w : Waker) (s : Seat)
    (task : Task) (rest : List Frame) (called queued : List Seat) : Prop where
  /-- It leaves the queue with a reply, and others were woken. -/
  | replies {o : Outcome (Registry Waker) Waker Attempt} {result : Except BusError Value}
      {notes : List Note} {woken queued' : List Seat}
      (ran : s.request.attempt (x.registry b) = .ok o) (answer : o.answer = .finished result)
      (split : queued = woken ++ queued')
      (queues : x.step.Queues b a side (called ++ woken) queued')
      (registry : x.step.registry b = o.state)
      (moved : x.moved x.errand? b = (Turn.finished result).transfers (x.registry b) s.request)
      (stack : x.step.stack = .release b :: .wake o.woken :: .tell notes ::
        .complete (.task w) (.ofResult result) :: rest)
      (found : x.step.tasks[w.task]? = some { task with progress := .fresh }) :
    MovesOn x b a side w s task rest called queued
  /-- A channel is in its way, and it parks behind the others. -/
  | parks {p : Place} (blocked : s.request.Blocked (x.registry b) a)
      (new : p.ticket = ⟨(x.registry b).nextTicket⟩)
      (queues : x.step.Queues b a side called (queued ++ [{ s with place := p }])) :
    MovesOn x b a side w s task rest called queued

/-- The tasks of a queue are the first one and the others, also if it stands at the end again. -/
theorem mem_tasks_iff (called queued : List Seat) {last : List Seat}
    (again : (last.map (·.task)).Sublist [s.task]) (t : Nat) :
    t ∈ (s :: called ++ queued).map (·.task) ↔
      t = s.task ∨ t ∈ (called ++ queued ++ last).map (·.task) := by
  have all : (called ++ queued ++ last).map (·.task) =
      (called ++ queued).map (·.task) ++ last.map (·.task) := List.map_append
  rw [List.cons_append, List.map_cons, List.mem_cons, all, List.mem_append]
  refine or_congr_right' fun other => (or_iff_left fun member => other ?_).symm
  exact List.mem_singleton.1 (again.subset member)

theorem Occupies.streamPlace (occupies : x.Occupies b s task) : task.streamPlace = none := by
  have places := occupies.places
  rw [Task.places, occupies.callPlace] at places
  exact Option.toList_eq_nil_iff.1 (List.cons.inj places).2

/-- A task that parks again has the same seat in another place. -/
theorem Occupies.parked {recorded : Bool} (occupies : x.Occupies b s task)
    (tasks : y.tasks = x.tasks.modify s.task ((Turn.parked s.request p).leaves b recorded))
    (suspends : .suspend s.task ∈ y.stack) : y.Occupies b { s with place := p }
      ((Turn.parked s.request p).leaves b recorded task) := by
  refine ⟨?_, occupies.position, ⟨recorded, rfl⟩, ?_, .inr ⟨_, suspends, rfl⟩⟩
  · rw [tasks, List.getElem?_modify_eq, occupies.found]
    rfl
  · show [(b, p)] ++ task.streamPlace.toList = _
    rw [occupies.streamPlace]
    rfl

namespace Queues

/-- It is the first in the queue that goes on. -/
theorem front (queues : x.Queues b a side called queued) (upcoming : x.upcoming = t :: later)
    (member : s ∈ called ++ queued) (own : s.task = t) : ∃ called', called = s :: called' ∧
      later.filter (· ∈ (called ++ queued).map (·.task)) = called'.map (·.task) ∧ t ∉ later := by
  have next := queues.next
  have within : t ∈ (called ++ queued).map (·.task) := own ▸ List.mem_map_of_mem member
  rw [upcoming, List.filter_cons, if_pos (decide_eq_true within)] at next
  obtain ⟨s', called', rfl, first, others⟩ := List.map_eq_cons_iff.1 next.symm
  obtain rfl := queues.seat_eq member List.mem_cons_self (first.trans own.symm)
  refine ⟨called', rfl, others.symm, fun again => ?_⟩
  have twice : t ∈ called'.map (·.task) := by
    rw [others]
    exact List.mem_filter.2 ⟨again, decide_eq_true within⟩
  have apart := queues.apart
  rw [List.cons_append, List.map_cons, List.nodup_cons, own, List.map_append,
    List.mem_append] at apart
  exact apart.1 (.inl twice)

/-- Who was called does not stand in the line any more. -/
theorem isQueued_eq_false (queues : x.Queues b a side (s :: called) queued) (sound : x.Sound u) :
    (x.registry b).isQueued s.place = false := by
  obtain ⟨c, found, tickets⟩ := queues.line
  have member : s ∈ s :: called ++ queued := List.mem_cons_self
  obtain ⟨rfl, rfl⟩ := Place.isAt_iff.1 (queues.fits s member)
  rw [← Bool.not_eq_true, Registry.isQueued_of_find? found, tickets]
  intro inside
  obtain ⟨s', member', same⟩ := List.mem_map.1 inside
  have later : s' ∈ s :: called ++ queued := List.mem_append_right _ member'
  obtain ⟨task, occupies⟩ := queues.seated s member
  obtain ⟨task', occupies'⟩ := queues.seated s' later
  have own : (b, s.place) ∈ x.placesOf s'.task := by
    rw [occupies'.placesOf, queues.place_eq sound member later same]
    exact List.mem_cons_self
  have here : (b, s.place) ∈ x.placesOf s.task := by
    rw [occupies.placesOf]
    exact List.mem_cons_self
  have apart := queues.apart
  rw [List.cons_append, List.map_cons, List.nodup_cons, ← sound.holder_eq here own] at apart
  exact apart.1 (List.mem_map_of_mem (List.mem_append_right _ member'))

/-- The others keep their seats when the first goes on. -/
theorem seated_step (queues : x.Queues b a side (s :: called) queued) (sound : x.Sound u)
    (underway : x.Underway) (stack : x.stack = .proceed w :: rest) (own : w.task = s.task)
    (enters : x.step.errand? = none) :
    ∀ s' ∈ called ++ queued, ∃ task, x.step.Occupies b s' task := by
  intro s' member
  obtain ⟨task, occupies⟩ := queues.seated s' (List.mem_cons_of_mem _ member)
  refine (occupies.step sound underway ?_).resolve_right fun doomed => ?_
  · rintro ⟨w', rest', stack', own'⟩
    cases stack.symm.trans stack'
    have apart := queues.apart
    rw [List.cons_append, List.map_cons, List.nodup_cons, ← own, own'] at apart
    exact apart.1 (List.mem_map_of_mem member)
  · cases enters.symm.trans doomed

/-- Of the places in the line that were held before, all but the first are held by the others. -/
theorem held_step (queues : x.Queues b a side (s :: called) queued) (sound : x.Sound u)
    (beside : ∀ t, t ≠ s.task → y.placesOf t = x.placesOf t)
    (given : (b, s.place) ∉ y.placesOf s.task) (holds : p ∈ y.held b) (old : p ∈ x.held b)
    (here : p.isAt a side = true) : ∃ s' ∈ called ++ queued, s'.place = p := by
  obtain ⟨s', member, rfl⟩ := queues.held p old here
  rcases List.mem_cons.1 member with rfl | other
  · exfalso
    obtain ⟨t, holds⟩ := mem_held_iff.1 holds
    obtain ⟨task, occupies⟩ := queues.seated s' member
    by_cases same : t = s'.task
    · exact given (same ▸ holds)
    · rw [beside t same] at holds
      refine same (sound.holder_eq ?_ holds)
      rw [occupies.placesOf]
      exact List.mem_cons_self
  · exact ⟨s', other, rfl⟩

section

variable {notes : List Note} {next : Frame} {wakers : List Waker} {buses : List SharedBus}
  {change : Task → Task}

/-- Once the first is not in front any more, the others go on as before. Those that were woken are
behind the ones that were called, and the first one may be behind them all. -/
theorem past_front (queues : x.Queues b a side (s :: called) queued) (sound : x.Sound u)
    (underway : x.Underway) (orderly : x.Orderly) (stack : x.stack = .proceed w :: rest)
    (own : w.task = s.task)
    (leads : x.Leads x.step buses (x.tasks.modify w.task change)
      (.release b :: .wake wakers :: .tell notes :: next :: rest))
    (begins : next.begins = []) (readies : next.readies = []) (last : List Seat)
    (seated : ∀ s' ∈ last, ∃ task, x.step.Occupies b s' task)
    (fits : ∀ s' ∈ last, s'.place.isAt a side = true)
    (again : (last.map (·.task)).Sublist [s.task])
    (given : (b, s.place) ∉ x.step.placesOf s.task) {woken queued' : List Seat}
    (split : queued = woken ++ queued')
    (woke : (wakers.map (·.task)).filter (· ∈ (s :: called ++ queued).map (·.task)) =
      woken.map (·.task))
    (found : (x.step.registry b).find? a = some d)
    (tickets : d.tickets side = (queued' ++ last).map (·.place.ticket)) :
    x.step.Queues b a side (called ++ woken) (queued' ++ last) := by
  obtain ⟨later, upcoming, upcoming'⟩ :=
    orderly.upcoming_access stack begins readies leads.stack leads.ready
  obtain ⟨called', same, first, out⟩ := queues.front upcoming List.mem_cons_self own.symm
  cases same
  rw [own] at out
  have same : called ++ woken ++ (queued' ++ last) = called ++ queued ++ last := by
    rw [split]
    simp only [List.append_assoc]
  have apart := queues.apart
  rw [List.cons_append, List.map_cons, List.nodup_cons] at apart
  have whole := mem_tasks_iff called queued again
  have notWoken : s.task ∉ wakers.map (·.task) := by
    intro there
    have member : s.task ∈ woken.map (·.task) := by
      rw [← woke]
      exact List.mem_filter.2 ⟨there, decide_eq_true ((whole _).2 (.inl rfl))⟩
    obtain ⟨s', member, same'⟩ := List.mem_map.1 member
    refine apart.1 (same' ▸ List.mem_map_of_mem (List.mem_append_right _ ?_))
    rw [split]
    exact List.mem_append_left _ member
  have fits (s' : Seat) (member : s' ∈ called ++ queued ++ last) :
      s'.place.isAt a side = true :=
    (List.mem_append.1 member).elim
      (fun old => queues.fits s' (List.mem_cons_of_mem _ old)) (fits s')
  refine ⟨fun s' member => ?_, same ▸ fits, ?_, ?_, ⟨d, found, tickets⟩, fun p holds here => ?_⟩
  · rw [same, List.mem_append] at member
    refine member.elim (queues.seated_step sound underway stack own ?_ s') (seated s')
    rw [Executor.errand?, leads.stack]
  · rw [same, List.map_append, List.nodup_append]
    refine ⟨apart.2, again.nodup (List.nodup_singleton _), fun t member t' member' here => ?_⟩
    rw [here, List.mem_singleton.1 (again.subset member')] at member
    exact apart.1 member
  · rw [same, upcoming', List.filter_append, filter_mem_eq whole out, filter_mem_eq whole notWoken,
      first, woke, List.map_append]
  · rw [same]
    rcases sound.trades_step.held_or_queued holds with old | stands
    · have beside (t : Nat) (other : t ≠ s.task) : x.step.placesOf t = x.placesOf t :=
        placesOf_of_modify leads.tasks fun same => absurd (same.symm.trans own) other
      obtain ⟨s', member, place⟩ := queues.held_step sound beside given holds old here
      exact ⟨s', List.mem_append_left _ member, place⟩
    · refine exists_seat fits here ?_
      obtain ⟨rfl, rfl⟩ := Place.isAt_iff.1 here
      have inside := (Registry.isQueued_of_find? found).1 stands
      rw [tickets] at inside
      rw [← same, List.map_append]
      exact List.mem_append_right _ inside

/-- Whoever parks again is the last one from then on. -/
theorem past_front_of_parked {o : Outcome (Registry Waker) Waker (Option Place)} {recorded : Bool}
    {e : Errand Waker} {upshot : Upshot} {told : List Note}
    (queues : x.Queues b a s.request.side (s :: called) queued) (sound : x.Sound u)
    (underway : x.Underway) (orderly : x.Orderly)
    (known : ∀ b p k, (p, k) ∈ (x.registry b).waiting → (b, p) ∈ x.placesOf k.task)
    (stack : x.stack = .proceed w :: rest) (own : w.task = s.task) (occupies : x.Occupies b s task)
    (carried : x.carried b e = some ⟨upshot, o.state, o.woken, told, notes⟩)
    (there : (x.registry b).find? a = some c)
    (parks : (x.registry b).park a s.request.side w = .ok o)
    (place : p = ⟨a, s.request.side, ⟨(x.registry b).nextTicket⟩⟩)
    (leads : x.Leads x.step (x.buses.set b ⟨o.state, true⟩)
      (x.tasks.modify w.task ((Turn.parked s.request p).leaves b recorded))
      (.release b :: .wake o.woken :: .tell notes :: .suspend w.task :: rest)) :
    x.step.Queues b a s.request.side called (queued ++ [{ s with place := p }]) := by
  obtain ⟨d, found, joined⟩ := Registry.exists_tickets_of_park there parks
  obtain ⟨c', there', tickets⟩ := queues.line
  cases there.symm.trans there'
  have stays (w : Waiter Waker) (member : w ∈ (c.line s.request.side).waiters) :
      w.ticket ∈ d.tickets s.request.side := by
    rw [joined]
    exact List.mem_append_left _ (List.mem_map_of_mem member)
  obtain ⟨woken, queued', split, tickets', woke⟩ := queues.woken_here sound known carried there
    found (List.nil_append _).symm stays (List.nil_sublist _)
  -- Nobody leaves the line.
  obtain rfl : woken = [] := by
    have lengths := congrArg List.length (tickets'.trans tickets)
    rw [List.length_map, List.length_map, split, List.length_append] at lengths
    exact List.eq_nil_of_length_eq_zero (by omega)
  obtain rfl : queued = queued' := split
  have suspends : Frame.suspend s.task ∈ x.step.stack := by
    rw [leads.stack, own]
    exact List.mem_append_right [_, _, _] List.mem_cons_self
  have seat := occupies.parked (own ▸ leads.tasks) suspends
  have given : (b, s.place) ∉ x.step.placesOf s.task := by
    rw [seat.placesOf, List.mem_singleton]
    intro same
    have old := sound.ticket_lt (queues.holds List.mem_cons_self)
    have here : s.place = p := congrArg Prod.snd same
    rw [here, place] at old
    exact Nat.lt_irrefl _ old
  have registry : x.step.registry b = o.state :=
    registry_set_self (inside_of_carried carried) leads.buses
  have behind := queues.past_front sound underway orderly stack own leads rfl rfl
    [{ s with place := p }] (List.forall_mem_singleton.2 ⟨_, seat⟩)
    (List.forall_mem_singleton.2 (Place.isAt_iff.2 (place ▸ ⟨rfl, rfl⟩))) (.refl _) given rfl woke
    (registry ▸ found) ?_
  · rwa [List.append_nil] at behind
  · rw [joined, tickets, List.map_append, place]
    rfl

end

/-- Whoever goes on is the first in the queue, and the queue moves on. -/
theorem movesOn (queues : x.Queues b a side called queued) (sound : x.Sound u)
    (underway : x.Underway) (orderly : x.Orderly)
    (known : ∀ b p k, (p, k) ∈ (x.registry b).waiting → (b, p) ∈ x.placesOf k.task)
    (stack : x.stack = .proceed w :: rest) (found : x.tasks[w.task]? = some task)
    (member : s ∈ called ++ queued) (own : w.task = s.task)
    (about : s.request.address? = some a) (on : s.request.side = side) :
    ∃ called', called = s :: called' ∧ x.MovesOn b a side w s task rest called' queued := by
  obtain ⟨task', occupies⟩ := queues.seated s member
  cases found.symm.trans (own ▸ occupies.found)
  obtain ⟨recorded, calling⟩ := occupies.progress
  obtain ⟨⟨turn, r', woken, told, notes⟩, recorded', ran, inside, -, leads⟩ :=
    sound.leads_of_look stack found (.calling calling)
  have errand := occupies.errand? stack own
  obtain ⟨o', carried⟩ := Option.ne_none_iff_exists'.1 (sound.carried errand)
  have effect := effect_of_carried carried
  rw [Errand.effect, ran] at effect
  cases effect
  have moved : x.moved x.errand? b = turn.transfers (x.registry b) s.request := by
    rw [Executor.moved, outcomeOn, errand, Option.bind_some, if_pos rfl, carried]
    rfl
  have ends := Request.ends_of_look ran
  dsimp only at ends leads
  have silent : (turn.frame w).begins = [] ∧ (turn.frame w).readies = [] := by
    cases ends <;> exact ⟨rfl, rfl⟩
  obtain ⟨later, upcoming, -⟩ :=
    orderly.upcoming_access stack silent.1 silent.2 leads.stack leads.ready
  obtain ⟨called', rfl, -, -⟩ := queues.front upcoming member own.symm
  refine ⟨called', rfl, ?_⟩
  have after : x.step.tasks[w.task]? = some (turn.leaves b recorded' task) := by
    rw [leads.tasks, List.getElem?_modify_eq, found]
    rfl
  have registry : x.step.registry b = r' := registry_set_self inside leads.buses
  obtain ⟨c, there, tickets⟩ := queues.line
  cases ends with
  | tried _ tries answer =>
    obtain ⟨d, found', served⟩ := Request.exists_served there tries
    obtain ⟨popped, left, calls⟩ := served.calls side
    obtain ⟨woken, queued', split, tickets', woke⟩ := queues.woken_here sound known carried there
      found' left (fun w member => List.mem_map_of_mem member) calls
    have given : (b, s.place) ∉ x.step.placesOf s.task := by
      have settled : ({ task with progress := .fresh } : Task).places = task.streamPlace.toList :=
        Task.places_of_settled rfl
      rw [← own, placesOf_of_found after]
      show _ ∉ ({ task with progress := .fresh } : Task).places
      rw [settled, occupies.streamPlace]
      exact List.not_mem_nil
    have behind := queues.past_front sound underway orderly stack own leads silent.1 silent.2 []
      (List.forall_mem_nil _) (List.forall_mem_nil _) (List.nil_sublist _) given split woke
      (registry ▸ found') (by rw [List.append_nil, tickets']; rfl)
    rw [List.append_nil] at behind
    exact .replies tries answer split behind registry moved leads.stack after
  | @parked _ a' _ _ _ blocked there' parks =>
    obtain rfl : a' = a := blocked.address_eq about
    subst on
    exact .parks blocked rfl (queues.past_front_of_parked sound underway orderly known stack own
      occupies carried there parks rfl leads)
  | waiting stands => cases (queues.isQueued_eq_false sound).symm.trans stands
  | gone gone =>
    rw [(Place.isAt_iff.1 (queues.fits s member)).1, there] at gone
    cases gone

end Queues

end MessageBus.Executor
